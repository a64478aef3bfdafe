import Mathlib.Data.Finset.Card
import Mathlib.Data.List.Induction
import DocWire.Proofs.FirstOccurrences
import DocWire.Proofs.Results
import DocWire.Value.Bson
import DocWire.Value.Source

/-!
# Field maps as histories of insertions

A field map is what insertions into an empty map have left: its names stand in the order in which they
were first inserted, each with the value that was inserted last. One more insertion hands back what stood
there and leaves every other entry in its place. Objects and documents are converted member by member
and inserted in their order. Main statements: `keys_ofList`, `get?_ofList_eq_some_iff` and
`Fields.insertions_recorded`.
-/
set_option autoImplicit false

namespace DocWire

namespace Entries
variable {α : Type}

/-! ## One insertion -/

theorem ofList_concat (pairs : List (String × α)) (name : String) (value : α) :
    ofList (pairs ++ [(name, value)]) = insert name value (ofList pairs) := by
  rw [ofList, List.foldl_append]
  rfl

theorem keys_concat (pairs : List (String × α)) (name : String) (value : α) :
    keys (pairs ++ [(name, value)]) = keys pairs ++ [name] := by
  simp [keys]

/-- An insertion leaves the entries of other names where they are, and makes no new ones. -/
theorem getElem?_insert_of_ne {name : String} {entry : String × α} (hn : entry.1 ≠ name) (value : α)
    (entries : Entries α) (i : Nat) :
    (insert name value entries)[i]? = some entry ↔ entries[i]? = some entry := by
  have hnew : (name, value) ≠ entry := by
    rintro rfl
    exact hn rfl
  induction entries generalizing i with
  | nil =>
    cases i with
    | zero => simp [insert, hnew]
    | succ i => simp [insert]
  | cons first rest ih =>
    obtain ⟨k, v⟩ := first
    by_cases hk : k = name
    · have hold : (k, v) ≠ entry := by
        rintro rfl
        exact hn hk
      rw [insert, if_pos hk]
      cases i with
      | zero => simp [hnew, hold]
      | succ i => simp
    · rw [insert, if_neg hk]
      cases i with
      | zero => simp
      | succ i => simpa using ih i

/-! ## Histories -/

/-- A value was inserted under a name, and no other under this name after it. -/
def LastInserted (pairs : List (String × α)) (name : String) (value : α) : Prop :=
  ∃ front back, pairs = front ++ (name, value) :: back ∧ name ∉ keys back

/-- One more insertion is the last one of its own name, and of no other. -/
theorem lastInserted_concat {pairs : List (String × α)} {name other : String} {value last : α} :
    LastInserted (pairs ++ [(name, value)]) other last ↔
      (name = other ∧ value = last) ∨ (name ≠ other ∧ LastInserted pairs other last) := by
  constructor
  · rintro ⟨front, back, he, hb⟩
    -- Either nothing stands behind the last insertion of the name, or the new one does.
    cases back using List.reverseRecOn with
    | nil =>
      have hlast : (name, value) = (other, last) := by simpa using (List.append_inj' he rfl).2
      exact .inl (Prod.mk.inj hlast)
    | append_singleton back pair =>
      rw [← List.cons_append, ← List.append_assoc] at he
      obtain ⟨hfront, hpair⟩ := List.append_inj' he rfl
      obtain rfl : (name, value) = pair := by simpa using hpair
      rw [keys_concat, List.mem_append, List.mem_singleton, not_or] at hb
      exact .inr ⟨Ne.symm hb.2, front, back, hfront, hb.1⟩
  · rintro (⟨rfl, rfl⟩ | ⟨hn, front, back, rfl, hb⟩)
    · exact ⟨pairs, [], rfl, List.not_mem_nil⟩
    · refine ⟨front, back ++ [(name, value)], by simp, ?_⟩
      rw [keys_concat, List.mem_append, List.mem_singleton]
      exact not_or.2 ⟨hb, Ne.symm hn⟩

theorem keys_ofList (pairs : List (String × α)) : FirstOccurrences (keys pairs) (keys (ofList pairs)) := by
  induction pairs using List.reverseRecOn with
  | nil => exact .nil
  | append_singleton pairs pair ih =>
    obtain ⟨name, value⟩ := pair
    have hstep := ih.step name
    simp only [List.contains_iff_mem] at hstep
    rwa [ofList_concat, keys_insert, keys_concat]

theorem get?_ofList_eq_some_iff (pairs : List (String × α)) (name : String) (value : α) :
    get? name (ofList pairs) = some value ↔ LastInserted pairs name value := by
  induction pairs using List.reverseRecOn with
  | nil => simp [ofList, get?, LastInserted]
  | append_singleton pairs pair ih =>
    obtain ⟨k, v⟩ := pair
    rw [ofList_concat, lastInserted_concat]
    by_cases hk : k = name
    · subst hk
      simp [get?_insert_self]
    · rw [get?_insert_of_ne k name v _ hk, ih]
      simp [hk]

/-- Entries that hold what was inserted: its names by their first insertions, each once, with the
values that were inserted last. -/
structure Recorded (pairs : List (String × α)) (entries : Entries α) : Prop where
  distinct : Distinct entries
  ordered : FirstOccurrences (keys pairs) (keys entries)
  found : ∀ name value, get? name entries = some value ↔ LastInserted pairs name value
  absent : ∀ name, get? name entries = none ↔ name ∉ keys pairs
  length : entries.length = (keys pairs).toFinset.card

theorem recorded_ofList (pairs : List (String × α)) : Recorded pairs (ofList pairs) := by
  have hkeys := keys_ofList pairs
  refine ⟨hkeys.nodup, hkeys, get?_ofList_eq_some_iff pairs, fun name => ?_, ?_⟩
  · rw [get?_eq_none_iff, hkeys.mem_iff]
  · have hsame : (keys pairs).toFinset = (keys (ofList pairs)).toFinset := by
      ext name
      rw [List.mem_toFinset, List.mem_toFinset, hkeys.mem_iff]
    rw [hsame, List.toFinset_card_of_nodup hkeys.nodup, keys, List.length_map]

/-! ## Conversions -/

/-- Members and what they are converted to, in the same order and under the same names. -/
def Converts {β : Type} (convert : β → Except Failure α) : Entries β → Entries α → Prop :=
  List.Forall₂ fun member pair => member.1 = pair.1 ∧ convert member.2 = .ok pair.2

theorem converts_iff {β : Type} {convert : β → Except Failure α}
    (convertAll : Entries β → Except Failure (Entries α)) (hnil : convertAll [] = .ok [])
    (hcons : ∀ name member rest, convertAll ((name, member) :: rest) =
      convert member >>= fun value => convertAll rest >>= fun pairs => .ok ((name, value) :: pairs))
    (members : Entries β) (pairs : Entries α) :
    convertAll members = .ok pairs ↔ Converts convert members pairs := by
  unfold Converts
  induction members generalizing pairs with
  | nil => rw [hnil, List.forall₂_nil_left_iff, Except.ok.injEq, eq_comm]
  | cons first rest ih =>
    obtain ⟨name, member⟩ := first
    rw [hcons, List.forall₂_cons_left_iff]
    simp only [bind_eq_ok_iff, ih, Except.ok.injEq]
    constructor
    · rintro ⟨value, hv, others, ho, rfl⟩
      exact ⟨(name, value), others, ⟨rfl, hv⟩, ho, rfl⟩
    · rintro ⟨⟨_, value⟩, others, ⟨rfl, hv⟩, ho, rfl⟩
      exact ⟨value, hv, others, ho, rfl⟩

end Entries

open Entries

theorem Value.ofJsonMembers_eq_ok_iff_converts (members : Entries Json) (pairs : Fields) :
    ofJsonMembers members = .ok pairs ↔ Converts ofJson members pairs :=
  converts_iff ofJsonMembers rfl (fun _ _ _ => rfl) members pairs

theorem Value.ofBsonMembers_eq_ok_iff_converts (members : Entries Bson) (pairs : Fields) :
    ofBsonMembers members = .ok pairs ↔ Converts ofBson members pairs :=
  converts_iff ofBsonMembers rfl (fun _ _ _ => rfl) members pairs

/-- The map of pairs that were inserted one after another holds their names in the order of the first
insertions, each once, with the values that were inserted last, and has as many entries as there are
names. One more insertion hands back what would have been found, and every entry of another name stays
where it is. The members of a JSON object, or of a BSON document, are inserted in this way if all of
them can be converted. -/
theorem Fields.insertions_recorded :
    (∀ pairs : List (String × Value), Recorded pairs (ofList pairs)) ∧
    (∀ (pairs : List (String × Value)) (name : String) (value : Value),
      exchange name value (ofList pairs) =
        (get? name (ofList pairs), ofList (pairs ++ [(name, value)])) ∧
      ∀ (i : Nat) (entry : String × Value), entry.1 ≠ name →
        ((ofList (pairs ++ [(name, value)]))[i]? = some entry ↔ (ofList pairs)[i]? = some entry)) ∧
    (∀ members fields, Fields.ofJson members = .ok fields ↔
      ∃ pairs, Converts Value.ofJson members pairs ∧ fields = ofList pairs) ∧
    (∀ members value, Value.ofJson (.object members) = .ok value ↔
      ∃ pairs, Converts Value.ofJson members pairs ∧ value = .object (ofList pairs)) ∧
    ∀ members value, Value.ofBson (.document members) = .ok value ↔
      ∃ pairs, Converts Value.ofBson members pairs ∧ value = .object (ofList pairs) := by
  refine ⟨recorded_ofList, fun pairs name value => ⟨?_, fun i entry hn => ?_⟩, fun members fields => ?_,
    fun members value => ?_, fun members value => ?_⟩
  · rw [exchange_eq, ofList_concat]
  · rw [ofList_concat, getElem?_insert_of_ne hn]
  · rw [Fields.ofJson, bind_ok_eq_ok_iff]
    simp only [Value.ofJsonMembers_eq_ok_iff_converts]
  · rw [Value.ofJson, bind_ok_eq_ok_iff]
    simp only [Value.ofJsonMembers_eq_ok_iff_converts]
  · rw [Value.ofBson, bind_ok_eq_ok_iff]
    simp only [Value.ofBsonMembers_eq_ok_iff_converts]

/-- A third insertion under the first of two names. -/
theorem Fields.insertions_recorded_replaced :
    let pairs : List (String × Value) := [("a", .int 1), ("b", .null)]
    exchange "a" (.int 3) (ofList pairs) = (some (.int 1), ofList (pairs ++ [("a", .int 3)])) ∧
      "b" ≠ "a" ∧ (ofList (pairs ++ [("a", .int 3)]))[1]? = some ("b", .null) := by
  intro pairs
  obtain ⟨-, hinsert, -⟩ := insertions_recorded
  obtain ⟨hexchange, hstays⟩ := hinsert pairs "a" (.int 3)
  have hb : "b" ≠ "a" := by decide
  exact ⟨hexchange, hb, (hstays 1 ("b", .null) hb).2 rfl⟩

end DocWire
