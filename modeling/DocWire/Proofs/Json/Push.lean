import DocWire.Json.Push
import DocWire.Json.Writer
import DocWire.Proofs.Results

/-!
# Pieces of a text

What is written piece by piece is the text of a tree, behind the text that was there. A step of writing
`Adds` the text that a result stands for, or fails as the result does. Main statements: `adds_pushEach`,
pieces that are written one after another; and `Json.text_array` and `Json.text_object`, the texts of
containers in pieces.
-/
set_option autoImplicit false

namespace DocWire

/-- A step writes the text that a result stands for behind the text so far, or fails as the result
does. -/
def Adds {ε α : Type} (step : String → Except ε String) (result : Except ε α) (text : α → String) :
    Prop :=
  ∀ out, step out = result >>= fun a => .ok (out ++ text a)

/-- Texts with commas between them, and with one in front unless the first is numbered 0. -/
def joined (i : Nat) : List String → String
  | [] => ""
  | part :: rest => (if 0 < i then "," else "") ++ part ++ joined (i + 1) rest

theorem joined_concat (i : Nat) (parts : List String) (part : String) :
    joined i (parts ++ [part]) =
      joined i parts ++ ((if 0 < i + parts.length then "," else "") ++ part) := by
  induction parts generalizing i with
  | nil =>
    rw [List.nil_append, joined, joined, joined, String.empty_append, String.append_empty]
    rfl
  | cons first rest ih =>
    rw [List.cons_append, joined, joined, ih (i + 1), List.length_cons, Nat.add_right_comm,
      Nat.add_assoc]
    simp only [String.append_assoc]

theorem pushComma_eq (i : Nat) (out : String) :
    pushComma i out = out ++ if 0 < i then "," else "" := by
  unfold pushComma
  split
  · exact String.push_eq_append _
  · rw [String.append_empty]

section
variable {ε α β : Type}

/-- A piece and those behind it. -/
theorem adds_cons {i : Nat} {step : String → Except ε String} {first : Except ε α} {text : α → String}
    {rest : String → Except ε String} {others : Except ε (List α)} (hs : Adds step first text)
    (hr : Adds rest others fun list => joined (i + 1) (list.map text)) :
    Adds (fun out => step (pushComma i out) >>= rest)
      (first >>= fun a => others >>= fun list => .ok (a :: list))
      fun list => joined i (list.map text) := by
  intro out
  change step (pushComma i out) >>= rest = _
  rw [hs (pushComma i out)]
  cases first with
  | error e => rfl
  | ok a =>
    rw [bind_ok, bind_ok, bind_ok, hr]
    cases others with
    | error e => rfl
    | ok list =>
      simp only [bind_ok, List.map_cons, joined, pushComma_eq, String.append_assoc]

/-- Pieces of which each writes the text of a result write the texts of all results. -/
theorem adds_pushEach {write : β → String → Except ε String} {result : β → Except ε α}
    {text : α → String} (list : List β) (h : ∀ piece ∈ list, Adds (write piece) (result piece) text)
    (i : Nat) : Adds (pushEach write i list) (list.mapM result) fun as => joined i (as.map text) := by
  induction list generalizing i with
  | nil =>
    intro out
    exact congrArg Except.ok String.append_empty.symm
  | cons piece rest ih =>
    obtain ⟨hp, hr⟩ := List.forall_mem_cons.1 h
    rw [List.mapM_cons]
    exact adds_cons hp (ih hr (i + 1))
end

/-- A name and the colon behind the text so far. -/
theorem pushKey_eq (name out : String) :
    pushKey name out = out ++ String.ofList (Json.quoted name ++ [':']) := by
  rw [pushKey, pushString, String.push_eq_append, String.append_assoc, String.ofList_append]
  rfl

namespace Json

def memberText (member : String × Json) : String :=
  String.ofList (quoted member.1 ++ ':' :: member.2.chars)

theorem pushKey_append_text (name out : String) (json : Json) :
    pushKey name out ++ json.text = out ++ memberText (name, json) := by
  rw [pushKey_eq, text, memberText, String.append_assoc, ← String.ofList_append, List.append_assoc]
  rfl

theorem toList_text (json : Json) : json.text.toList = json.chars := String.toList_ofList

theorem toList_joined_items (i : Nat) (items : List Json) :
    (joined (i + 1) (items.map text)).toList ++ [']'] = moreItemChars items := by
  induction items generalizing i with
  | nil => rfl
  | cons item rest ih =>
    rw [List.map_cons, joined, if_pos (Nat.succ_pos i), moreItemChars, ← ih (i + 1)]
    simp [String.toList_append, toList_text]

theorem toList_joined_members (i : Nat) (members : Entries Json) :
    (joined (i + 1) (members.map memberText)).toList ++ ['}'] = moreMemberChars members := by
  induction members generalizing i with
  | nil => rfl
  | cons member rest ih =>
    rw [List.map_cons, joined, if_pos (Nat.succ_pos i), moreMemberChars, ← ih (i + 1)]
    simp [String.toList_append, memberText]

/-- An array is its items with commas between them, in brackets. -/
theorem text_array (items : List Json) (out : String) :
    (out.push '[' ++ joined 0 (items.map text)).push ']' = out ++ (array items).text := by
  refine String.toList_inj.1 ?_
  rw [String.toList_push, String.toList_append, String.toList_push, String.toList_append, toList_text,
    chars]
  cases items with
  | nil => simp [joined, itemChars]
  | cons item rest =>
    rw [itemChars, ← toList_joined_items 0 rest]
    simp [joined, String.toList_append, toList_text]

/-- An object is its members with commas between them, in braces. -/
theorem text_object (members : Entries Json) (out : String) :
    (out.push '{' ++ joined 0 (members.map memberText)).push '}' = out ++ (object members).text := by
  refine String.toList_inj.1 ?_
  rw [String.toList_push, String.toList_append, String.toList_push, String.toList_append, toList_text,
    chars]
  cases members with
  | nil => simp [joined, memberChars]
  | cons member rest =>
    rw [memberChars, ← toList_joined_members 0 rest]
    simp [joined, String.toList_append, memberText]

end Json
end DocWire
