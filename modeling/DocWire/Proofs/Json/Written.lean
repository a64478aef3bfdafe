import Mathlib.Tactic.SplitIfs
import DocWire.Json.Writer
import DocWire.Proofs.Json.Grammar

/-!
# Written values

The compact text of a value reads as that value, and as no other, provided that its numbers are
spelled as the grammar wants them. Main statement: `reads_text_iff`.
-/
set_option autoImplicit false

namespace DocWire.Json

mutual
/-- Every number in a value is spelled as a number. -/
def Lexical : Json → Prop
  | null => True
  | bool _ => True
  | number text => Grammar.Number text.toList
  | string _ => True
  | array items => ItemsLexical items
  | object members => MembersLexical members

def ItemsLexical : List Json → Prop
  | [] => True
  | item :: rest => Lexical item ∧ ItemsLexical rest

def MembersLexical : List (String × Json) → Prop
  | [] => True
  | (_, value) :: rest => Lexical value ∧ MembersLexical rest
end

mutual
/-- No object in a value has two members of one name. -/
def NamesDistinct : Json → Prop
  | null => True
  | bool _ => True
  | number _ => True
  | string _ => True
  | array items => ItemsDistinct items
  | object members => Entries.Distinct members ∧ MembersDistinct members

def ItemsDistinct : List Json → Prop
  | [] => True
  | item :: rest => NamesDistinct item ∧ ItemsDistinct rest

def MembersDistinct : List (String × Json) → Prop
  | [] => True
  | (_, value) :: rest => NamesDistinct value ∧ MembersDistinct rest
end

theorem itemsLexical_iff (items : List Json) : ItemsLexical items ↔ ∀ item ∈ items, Lexical item := by
  induction items with
  | nil => simp [ItemsLexical]
  | cons item rest ih => simp [ItemsLexical, ih]

theorem membersLexical_iff (members : Entries Json) :
    MembersLexical members ↔ ∀ member ∈ members, Lexical member.2 := by
  induction members with
  | nil => simp [MembersLexical]
  | cons member rest ih => simp [MembersLexical, ih]

theorem itemsDistinct_iff (items : List Json) :
    ItemsDistinct items ↔ ∀ item ∈ items, NamesDistinct item := by
  induction items with
  | nil => simp [ItemsDistinct]
  | cons item rest ih => simp [ItemsDistinct, ih]

theorem membersDistinct_iff (members : Entries Json) :
    MembersDistinct members ↔ ∀ member ∈ members, NamesDistinct member.2 := by
  induction members with
  | nil => simp [MembersDistinct]
  | cons member rest ih => simp [MembersDistinct, ih]

namespace Grammar

/-! ## Strings -/

theorem letterEscape?_of_escapeLetter? {c l : Char} (h : escapeLetter? c = some l) :
    letterEscape? l = some c := by
  unfold escapeLetter? at h
  split_ifs at h with h1 h2 h3 h4 h5 h6 h7 <;> cases h <;> subst_vars <;> rfl

theorem ofHex?_hexDigits_of_control : ∀ n < 0x20, ∃ a b c d,
    hexDigits 4 n = [a, b, c, d] ∧ ofHex? [a, b, c, d] = some n := by
  intro n hn
  refine ⟨hexDigit (n / 16 / 16 / 16 % 16), hexDigit (n / 16 / 16 % 16), hexDigit (n / 16 % 16),
    hexDigit (n % 16), rfl, ?_⟩
  revert n
  decide

/-- The written form of a character reads as that character. -/
theorem body_escaped (c : Char) {cs s rest : List Char} (h : Body cs s rest) :
    Body (escaped c ++ cs) (c :: s) rest := by
  unfold escaped
  cases hl : escapeLetter? c with
  | some l => exact .letter (letterEscape?_of_escapeLetter? hl) h
  | none =>
    by_cases hc : c.toNat < 0x20
    · obtain ⟨a, b, d, e, hd, hn⟩ := ofHex?_hexDigits_of_control c.toNat hc
      simp only [hc, if_true, hd]
      have hchar : Char.ofNat c.toNat = c := Char.ofNat_toNat c
      have hcode := Body.code hn (by unfold isLeading; omega) (by unfold isTrailing; omega) h
      rw [hchar] at hcode
      exact hcode
    · simp only [hc, if_false]
      refine .plain (by simpa [isControl] using hc) ?_ ?_ h
      · rintro rfl
        exact absurd hl (by decide)
      · rintro rfl
        exact absurd hl (by decide)

theorem body_flatMap_escaped (s rest : List Char) :
    Body (s.flatMap escaped ++ '"' :: rest) s rest := by
  induction s with
  | nil => exact .close
  | cons c s ih =>
    rw [List.flatMap_cons, List.append_assoc]
    exact body_escaped c ih

theorem quoted_append (s : String) (rest : List Char) :
    quoted s ++ rest = '"' :: (s.toList.flatMap escaped ++ '"' :: rest) := by
  simp [quoted]

/-! ## Values -/

theorem trim_of_not_gap {c : Char} (cs : List Char) (h : isGap c = false) :
    trim (c :: cs) = c :: cs := by
  simp [trim, h]

theorem numberEnds_cons {c : Char} (cs : List Char) (h : isNumberChar c = false) :
    NumberEnds (c :: cs) := by
  intro d hd
  cases hd
  exact h

theorem isGap_of_isNumberStart {c : Char} (h : c = '-' ∨ isDigit c = true) : isGap c = false := by
  rcases h with rfl | h
  · rfl
  · refine Bool.eq_false_iff.2 fun hg => ?_
    simp only [isGap, Bool.or_eq_true, decide_eq_true_eq] at hg
    rcases hg with ((rfl | rfl) | rfl) | rfl <;> exact absurd h (by decide)

/-- The text of a value has no space at its front. -/
theorem trim_chars {json : Json} (h : json.Lexical) (rest : List Char) :
    trim (json.chars ++ rest) = json.chars ++ rest := by
  cases json with
  | number text =>
    obtain ⟨c, tail, ht, hc⟩ := Number.head h
    rw [chars, ht, List.cons_append]
    exact trim_of_not_gap _ (isGap_of_isNumberStart hc)
  | bool b => cases b <;> rfl
  | null | string _ | array _ | object _ => rfl

theorem trim_moreItemChars (items : List Json) (rest : List Char) :
    trim (moreItemChars items ++ rest) = moreItemChars items ++ rest := by
  cases items <;> rfl

theorem trim_moreMemberChars (members : Entries Json) (rest : List Char) :
    trim (moreMemberChars members ++ rest) = moreMemberChars members ++ rest := by
  cases members <;> rfl

theorem numberEnds_moreItemChars (items : List Json) (rest : List Char) :
    NumberEnds (moreItemChars items ++ rest) := by
  cases items with
  | nil => exact numberEnds_cons _ rfl
  | cons item items => exact numberEnds_cons _ rfl

theorem numberEnds_moreMemberChars (members : Entries Json) (rest : List Char) :
    NumberEnds (moreMemberChars members ++ rest) := by
  cases members with
  | nil => exact numberEnds_cons _ rfl
  | cons member members => exact numberEnds_cons _ rfl

theorem trim_itemChars {items : List Json} (h : ItemsLexical items) (rest : List Char) :
    trim (itemChars items ++ rest) = itemChars items ++ rest := by
  cases items with
  | nil => rfl
  | cons item items =>
    rw [itemChars, List.append_assoc]
    exact trim_chars h.1 _

theorem trim_memberChars (members : Entries Json) (rest : List Char) :
    trim (memberChars members ++ rest) = memberChars members ++ rest := by
  cases members <;> rfl

theorem member_chars (name : String) {value : Json} {mid : List Char} (hl : value.Lexical)
    (hv : Value (value.chars ++ mid) value mid) :
    Member (quoted name ++ ':' :: (value.chars ++ mid)) (name, value) mid := by
  have hname : String.ofList name.toList = name := String.ofList_toList
  have hbody := body_flatMap_escaped name.toList (':' :: (value.chars ++ mid))
  rw [← trim_chars hl mid] at hv
  have h := Member.mk hbody rfl hv
  rw [hname, ← quoted_append] at h
  exact h

mutual
theorem value_chars (json : Json) (h : json.Lexical) (rest : List Char) (hr : NumberEnds rest) :
    Value (json.chars ++ rest) json rest := by
  -- Only a number minds what follows it; inside an array or object that is a comma or a bracket.
  match json with
  | .null => exact .null
  | .bool true => exact .yes
  | .bool false => exact .no
  | .number text =>
    have hv := Value.number h hr rfl
    rwa [String.ofList_toList] at hv
  | .string s =>
    have hv := Value.string (body_flatMap_escaped s.toList rest)
    rwa [String.ofList_toList, ← quoted_append] at hv
  | .array items =>
    have hi := items_chars items h rest
    rw [← trim_itemChars h] at hi
    exact .array hi
  | .object members =>
    have hm := members_chars members h rest
    rw [← trim_memberChars] at hm
    exact .object hm

theorem items_chars (items : List Json) (h : ItemsLexical items) (rest : List Char) :
    Items (itemChars items ++ rest) items rest := by
  match items with
  | [] => exact .none
  | item :: items =>
    have hv := value_chars item h.1 (moreItemChars items ++ rest) (numberEnds_moreItemChars items rest)
    have hm := moreItems_chars items h.2 rest
    rw [← trim_moreItemChars] at hm
    rw [itemChars, List.append_assoc]
    exact .some hv hm

theorem moreItems_chars (items : List Json) (h : ItemsLexical items) (rest : List Char) :
    MoreItems (moreItemChars items ++ rest) items rest := by
  match items with
  | [] => exact .close
  | item :: items =>
    have hv := value_chars item h.1 (moreItemChars items ++ rest) (numberEnds_moreItemChars items rest)
    have hm := moreItems_chars items h.2 rest
    rw [← trim_moreItemChars] at hm
    rw [← trim_chars h.1] at hv
    rw [moreItemChars, List.cons_append, List.append_assoc]
    exact .next hv hm

theorem members_chars (members : List (String × Json)) (h : MembersLexical members)
    (rest : List Char) : Members (memberChars members ++ rest) members rest := by
  match members with
  | [] => exact .none
  | (name, value) :: members =>
    have hv := value_chars value h.1 (moreMemberChars members ++ rest)
      (numberEnds_moreMemberChars members rest)
    have hm := moreMembers_chars members h.2 rest
    rw [← trim_moreMemberChars] at hm
    rw [memberChars, List.append_assoc, List.cons_append, List.append_assoc]
    exact .some (member_chars name h.1 hv) hm

theorem moreMembers_chars (members : List (String × Json)) (h : MembersLexical members)
    (rest : List Char) : MoreMembers (moreMemberChars members ++ rest) members rest := by
  match members with
  | [] => exact .close
  | (name, value) :: members =>
    have hv := value_chars value h.1 (moreMemberChars members ++ rest)
      (numberEnds_moreMemberChars members rest)
    have hm := moreMembers_chars members h.2 rest
    rw [← trim_moreMemberChars] at hm
    rw [moreMemberChars, List.cons_append, List.append_assoc, List.cons_append, List.append_assoc]
    exact .next (member_chars name h.1 hv) hm
end

end Grammar

/-! ## Texts and bytes -/

/-- The text of a value reads as this value and no other. -/
theorem reads_text_iff {json : Json} (h : json.Lexical) (other : Json) :
    Reads json.text other ↔ other = json := by
  have hr : Reads json.text json := by
    refine ⟨[], ?_, rfl⟩
    have hv := Grammar.value_chars json h [] (by simp [Grammar.NumberEnds])
    rw [← Grammar.trim_chars h, List.append_nil] at hv
    rwa [text, String.toList_ofList]
  exact ⟨fun ho => ho.unique hr, fun ho => ho ▸ hr⟩

/-- Bytes are the text of a value. -/
def ReadsBytes (bytes : ByteArray) (json : Json) : Prop :=
  ∃ text : String, text.toUTF8 = bytes ∧ Reads text json

theorem readsBytes_toUTF8_iff (text : String) (json : Json) :
    ReadsBytes text.toUTF8 json ↔ Reads text json := by
  constructor
  · rintro ⟨text', ht, hr⟩
    obtain rfl := String.toByteArray_inj.1 ht
    exact hr
  · exact fun hr => ⟨text, rfl, hr⟩

/-- Bytes are the text of one value and no other, and this value has a property. -/
def Payload (P : Json → Prop) (bytes : ByteArray) : Prop :=
  ∃ json, (∀ other, ReadsBytes bytes other ↔ other = json) ∧ P json

theorem payload_text {P : Json → Prop} {json : Json} (hl : json.Lexical) (hp : P json) :
    Payload P json.text.toUTF8 :=
  ⟨json, fun other => (readsBytes_toUTF8_iff json.text other).trans (reads_text_iff hl other), hp⟩

end DocWire.Json
