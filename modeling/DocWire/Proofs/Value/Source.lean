import DocWire.Proofs.Entries
import DocWire.Proofs.Json.Written
import DocWire.Proofs.Number.Denoted
import DocWire.Proofs.Results
import DocWire.Value.Source

/-!
# Field values that JSON denotes

`Json.Denotes` says which field value a JSON value stands for: the same scalar, the same items, the
same fields in the same order, and for a number the integer that it spells or else its double. A
value stands for something when its numbers fit. Main statements: `ofJson_eq_ok_iff`, this is what a
value is read as, and `exists_denotes_iff`.
-/
set_option autoImplicit false

namespace DocWire

/-- The values of the members of an object have different names in turn. -/
theorem Json.NamesDistinct.of_get? {members : Entries Json}
    (hd : (Json.object members).NamesDistinct) {name : String} {json : Json}
    (h : Entries.get? name members = some json) : json.NamesDistinct :=
  (Json.membersDistinct_iff members).1 hd.2 _ ((Entries.get?_eq_some_iff hd.1).1 h)

/-! ## Values -/

namespace Json

mutual
/-- Every number in a value, however deep it stands, is an integer or has a finite double. -/
def NumbersFit : Json → Prop
  | number text => SpellsInteger text ∨ ∃ x, Binary64.ofText? text = some x ∧ x.isFinite = true
  | array items => ItemsFit items
  | object members => MembersFit members
  | _ => True

def ItemsFit : List Json → Prop
  | [] => True
  | item :: rest => NumbersFit item ∧ ItemsFit rest

def MembersFit : List (String × Json) → Prop
  | [] => True
  | (_, value) :: rest => NumbersFit value ∧ MembersFit rest
end

mutual
/-- The field value that a JSON value stands for. -/
inductive Denotes : Json → Value → Prop
  | null : Denotes .null .null
  | bool (b : Bool) : Denotes (.bool b) (.bool b)
  | integer {text : String} {n : Int} (h : integer? text.toList = some n) :
      Denotes (.number text) (.ofInteger n)
  | double {text : String} {x : Binary64} (hi : ¬ SpellsInteger text)
      (hx : Binary64.ofText? text = some x) (hf : x.isFinite = true) :
      Denotes (.number text) (.float x)
  | string (s : String) : Denotes (.string s) (.string s)
  | array {items : List Json} {values : List Value} (h : DenotesItems items values) :
      Denotes (.array items) (.array values)
  | object {members : Entries Json} {fields : Fields} (h : DenotesFields members fields) :
      Denotes (.object members) (.object fields)

inductive DenotesItems : List Json → List Value → Prop
  | nil : DenotesItems [] []
  | cons {item : Json} {items : List Json} {value : Value} {values : List Value}
      (h : Denotes item value) (hr : DenotesItems items values) :
      DenotesItems (item :: items) (value :: values)

/-- Fields of the same names in the same order. -/
inductive DenotesFields : List (String × Json) → List (String × Value) → Prop
  | nil : DenotesFields [] []
  | cons {name : String} {member : Json} {members : List (String × Json)} {value : Value}
      {fields : List (String × Value)} (h : Denotes member value)
      (hr : DenotesFields members fields) :
      DenotesFields ((name, member) :: members) ((name, value) :: fields)
end

theorem DenotesFields.keys_eq {members : Entries Json} {fields : Fields}
    (h : DenotesFields members fields) : Entries.keys fields = Entries.keys members := by
  induction members generalizing fields with
  | nil =>
    cases h
    rfl
  | cons member rest ih =>
    cases h with
    | @cons name => exact congrArg (name :: ·) (ih ‹_›)

theorem DenotesFields.distinct_iff {members : Entries Json} {fields : Fields}
    (h : DenotesFields members fields) : Entries.Distinct fields ↔ Entries.Distinct members := by
  unfold Entries.Distinct
  rw [h.keys_eq]

mutual
/-- A value stands for a field value when its numbers fit. -/
theorem exists_denotes_iff (json : Json) : (∃ value, json.Denotes value) ↔ json.NumbersFit := by
  match json with
  | .null => exact ⟨fun _ => trivial, fun _ => ⟨_, .null⟩⟩
  | .bool b => exact ⟨fun _ => trivial, fun _ => ⟨_, .bool b⟩⟩
  | .string s => exact ⟨fun _ => trivial, fun _ => ⟨_, .string s⟩⟩
  | .number text =>
    unfold NumbersFit
    constructor
    · rintro ⟨value, h⟩
      cases h with
      | integer h => exact .inl ((exists_integer?_iff text).1 ⟨_, h⟩)
      | double hi hx hf => exact .inr ⟨_, hx, hf⟩
    · intro h
      by_cases hi : SpellsInteger text
      · obtain ⟨n, hn⟩ := (exists_integer?_iff text).2 hi
        exact ⟨_, .integer hn⟩
      · obtain ⟨x, hx, hf⟩ := h.resolve_left hi
        exact ⟨_, .double hi hx hf⟩
  | .array items =>
    rw [NumbersFit, ← exists_denotesItems_iff items]
    constructor
    · rintro ⟨value, h⟩
      cases h with
      | array h => exact ⟨_, h⟩
    · rintro ⟨values, h⟩
      exact ⟨_, .array h⟩
  | .object members =>
    rw [NumbersFit, ← exists_denotesFields_iff members]
    constructor
    · rintro ⟨value, h⟩
      cases h with
      | object h => exact ⟨_, h⟩
    · rintro ⟨fields, h⟩
      exact ⟨_, .object h⟩

theorem exists_denotesItems_iff (items : List Json) :
    (∃ values, DenotesItems items values) ↔ ItemsFit items := by
  match items with
  | [] => exact ⟨fun _ => trivial, fun _ => ⟨[], .nil⟩⟩
  | item :: rest =>
    rw [ItemsFit, ← exists_denotes_iff item, ← exists_denotesItems_iff rest]
    constructor
    · rintro ⟨values, h⟩
      cases h with
      | cons h hr => exact ⟨⟨_, h⟩, ⟨_, hr⟩⟩
    · rintro ⟨⟨value, h⟩, ⟨values, hr⟩⟩
      exact ⟨value :: values, .cons h hr⟩

theorem exists_denotesFields_iff (members : List (String × Json)) :
    (∃ fields, DenotesFields members fields) ↔ MembersFit members := by
  match members with
  | [] => exact ⟨fun _ => trivial, fun _ => ⟨[], .nil⟩⟩
  | (name, member) :: rest =>
    rw [MembersFit, ← exists_denotes_iff member, ← exists_denotesFields_iff rest]
    constructor
    · rintro ⟨fields, h⟩
      cases h with
      | cons h hr => exact ⟨⟨_, h⟩, ⟨_, hr⟩⟩
    · rintro ⟨⟨value, h⟩, ⟨fields, hr⟩⟩
      exact ⟨(name, value) :: fields, .cons h hr⟩
end

end Json

/-! ## Reading -/

namespace Value

theorem ofNumber_eq_ok_iff {text : String} {value : Value} :
    ofNumber text = .ok value ↔ (Json.number text).Denotes value := by
  unfold ofNumber
  cases hn : DocWire.integer? text.toList with
  | some n =>
    have hi : SpellsInteger text := (exists_integer?_iff text).1 ⟨n, hn⟩
    constructor
    · intro h
      cases h
      exact .integer hn
    · intro h
      cases h with
      | integer h =>
        rw [hn] at h
        cases h
        rfl
      | double hi' => exact absurd hi hi'
  | none =>
    have hi : ¬ SpellsInteger text := (integer?_eq_none_iff text).1 hn
    constructor
    · intro h
      cases hx : (Binary64.ofText? text).filter Binary64.isFinite with
      | none =>
        rw [hx] at h
        cases h
      | some x =>
        rw [hx] at h
        cases h
        obtain ⟨hx, hf⟩ := Option.filter_eq_some_iff.1 hx
        exact .double hi hx hf
    · intro h
      cases h with
      | integer h =>
        rw [hn] at h
        cases h
      | double _ hx hf => rw [Option.filter_eq_some_iff.2 ⟨hx, hf⟩]

mutual
/-- A value whose objects have different names is read as what it stands for. -/
theorem ofJson_eq_ok_iff (json : Json) (hd : json.NamesDistinct) (value : Value) :
    ofJson json = .ok value ↔ json.Denotes value := by
  match json with
  | .null =>
    constructor
    · intro h
      cases h
      exact .null
    · intro h
      cases h
      rfl
  | .bool b =>
    constructor
    · intro h
      cases h
      exact .bool b
    · intro h
      cases h
      rfl
  | .string s =>
    constructor
    · intro h
      cases h
      exact .string s
    · intro h
      cases h
      rfl
  | .number text => exact ofNumber_eq_ok_iff
  | .array items =>
    unfold ofJson
    rw [bind_eq_ok_iff]
    constructor
    · rintro ⟨values, hv, h⟩
      cases h
      exact .array ((ofJsonItems_eq_ok_iff items hd values).1 hv)
    · intro h
      cases h with
      | array h => exact ⟨_, (ofJsonItems_eq_ok_iff items hd _).2 h, rfl⟩
  | .object members =>
    unfold ofJson
    rw [bind_eq_ok_iff]
    constructor
    · rintro ⟨fields, hf, h⟩
      cases h
      have hden := (ofJsonMembers_eq_ok_iff members hd.2 fields).1 hf
      rw [Entries.ofList_of_distinct (hden.distinct_iff.2 hd.1)]
      exact .object hden
    · intro h
      cases h with
      | object h =>
        refine ⟨_, (ofJsonMembers_eq_ok_iff members hd.2 _).2 h, ?_⟩
        rw [Entries.ofList_of_distinct (h.distinct_iff.2 hd.1)]

theorem ofJsonItems_eq_ok_iff (items : List Json) (hd : Json.ItemsDistinct items)
    (values : List Value) : ofJsonItems items = .ok values ↔ Json.DenotesItems items values := by
  match items with
  | [] =>
    constructor
    · intro h
      cases h
      exact .nil
    · intro h
      cases h
      rfl
  | item :: rest =>
    unfold ofJsonItems
    rw [bind_eq_ok_iff]
    constructor
    · rintro ⟨value, hv, h⟩
      obtain ⟨others, ho, h⟩ := bind_eq_ok_iff.1 h
      cases h
      exact .cons ((ofJson_eq_ok_iff item hd.1 value).1 hv)
        ((ofJsonItems_eq_ok_iff rest hd.2 others).1 ho)
    · intro h
      cases h with
      | cons h hr =>
        refine ⟨_, (ofJson_eq_ok_iff item hd.1 _).2 h, ?_⟩
        exact bind_eq_ok_iff.2 ⟨_, (ofJsonItems_eq_ok_iff rest hd.2 _).2 hr, rfl⟩

theorem ofJsonMembers_eq_ok_iff (members : List (String × Json)) (hd : Json.MembersDistinct members)
    (fields : List (String × Value)) :
    ofJsonMembers members = .ok fields ↔ Json.DenotesFields members fields := by
  match members with
  | [] =>
    constructor
    · intro h
      cases h
      exact .nil
    · intro h
      cases h
      rfl
  | (name, member) :: rest =>
    unfold ofJsonMembers
    rw [bind_eq_ok_iff]
    constructor
    · rintro ⟨value, hv, h⟩
      obtain ⟨others, ho, h⟩ := bind_eq_ok_iff.1 h
      cases h
      exact .cons ((ofJson_eq_ok_iff member hd.1 value).1 hv)
        ((ofJsonMembers_eq_ok_iff rest hd.2 others).1 ho)
    · intro h
      cases h with
      | cons h hr =>
        refine ⟨_, (ofJson_eq_ok_iff member hd.1 _).2 h, ?_⟩
        exact bind_eq_ok_iff.2 ⟨_, (ofJsonMembers_eq_ok_iff rest hd.2 _).2 hr, rfl⟩
end

mutual
/-- A value is refused because of a number alone. -/
theorem fault_of_ofJson (json : Json) (e : Failure) (h : ofJson json = .error e) :
    ∃ text, e = .value (.numberOutOfRange text) := by
  match json with
  | .null | .bool _ | .string _ => cases h
  | .number text =>
    refine ⟨text, ?_⟩
    rw [ofJson, ofNumber] at h
    split at h
    · cases h
    · split at h
      · cases h
      · cases h
        rfl
  | .array items =>
    rcases bind_eq_error_iff.1 h with h | ⟨values, -, h⟩
    · exact fault_of_ofJsonItems items e h
    · cases h
  | .object members =>
    rcases bind_eq_error_iff.1 h with h | ⟨fields, -, h⟩
    · exact fault_of_ofJsonMembers members e h
    · cases h

theorem fault_of_ofJsonItems (items : List Json) (e : Failure) (h : ofJsonItems items = .error e) :
    ∃ text, e = .value (.numberOutOfRange text) := by
  match items with
  | [] => cases h
  | item :: rest =>
    rcases bind_eq_error_iff.1 h with h | ⟨value, -, h⟩
    · exact fault_of_ofJson item e h
    · rcases bind_eq_error_iff.1 h with h | ⟨values, -, h⟩
      · exact fault_of_ofJsonItems rest e h
      · cases h

theorem fault_of_ofJsonMembers (members : List (String × Json)) (e : Failure)
    (h : ofJsonMembers members = .error e) : ∃ text, e = .value (.numberOutOfRange text) := by
  match members with
  | [] => cases h
  | (_, member) :: rest =>
    rcases bind_eq_error_iff.1 h with h | ⟨value, -, h⟩
    · exact fault_of_ofJson member e h
    · rcases bind_eq_error_iff.1 h with h | ⟨fields, -, h⟩
      · exact fault_of_ofJsonMembers rest e h
      · cases h
end

end Value

theorem Fields.ofJson_eq_ok_iff {members : Entries Json} (hd : (Json.object members).NamesDistinct)
    (fields : Fields) : Fields.ofJson members = .ok fields ↔ Json.DenotesFields members fields := by
  have h := Value.ofJson_eq_ok_iff (.object members) hd (.object fields)
  unfold Value.ofJson at h
  unfold Fields.ofJson
  rw [bind_eq_ok_iff] at h ⊢
  constructor
  · rintro ⟨read, hr, he⟩
    cases he
    cases h.1 ⟨read, hr, rfl⟩ with
    | object hden => exact hden
  · intro hden
    obtain ⟨read, hr, he⟩ := h.2 (.object hden)
    cases he
    exact ⟨read, hr, rfl⟩

/-- Fields are refused because of a number that does not fit. -/
theorem Fields.kind_of_ofJson {members : Entries Json} (hd : (Json.object members).NamesDistinct)
    {e : Failure} (h : Fields.ofJson members = .error e) :
    e.kind = .valueEncoding ∧ ¬ Json.MembersFit members := by
  constructor
  · rcases bind_eq_error_iff.1 h with h | ⟨fields, -, h⟩
    · obtain ⟨text, rfl⟩ := Value.fault_of_ofJsonMembers members e h
      rfl
    · cases h
  · rw [← Json.exists_denotesFields_iff]
    rintro ⟨fields, hf⟩
    rw [(Fields.ofJson_eq_ok_iff hd fields).2 hf] at h
    cases h

/-- The fields that the member of an object means which holds fields: none when there is no such
member. -/
inductive Fields.Means : Option Json → Fields → Prop
  | absent : Fields.Means none []
  | object {members : Entries Json} {fields : Fields} (h : Json.DenotesFields members fields) :
      Fields.Means (some (.object members)) fields

end DocWire
