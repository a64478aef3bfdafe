import DocWire.Proofs.Json.Written

/-!
# Wrapped numbers

An object that opens with the reserved name is no object to a reader. `Json.Unwraps` says what is
left of a value when every wrapped number has been taken out of its wrapping: nothing, where an object
opens with the name and is no wrapped number. In a plain value there is nothing to take out. Main
statements: `Unwraps.unique` and `Plain.unwraps_iff`.
-/
set_option autoImplicit false

namespace DocWire.Json

/-! ## Taking numbers out -/

mutual
/-- A value and what it is without the wrappings. -/
inductive Unwraps : Json → Json → Prop
  | null : Unwraps .null .null
  | bool (b : Bool) : Unwraps (.bool b) (.bool b)
  | number (text : String) : Unwraps (.number text) (.number text)
  | string (s : String) : Unwraps (.string s) (.string s)
  | array {items others : List Json} (h : UnwrapsItems items others) :
      Unwraps (.array items) (.array others)
  | object {members others : Entries Json} (hw : isWrapped members = false)
      (h : UnwrapsMembers members others) : Unwraps (.object members) (.object others)
  | wrapped {text : String} (h : Grammar.Number text.toList) :
      Unwraps (.object [(numberName, .string text)]) (.number text)

inductive UnwrapsItems : List Json → List Json → Prop
  | nil : UnwrapsItems [] []
  | cons {item other : Json} {items others : List Json} (h : Unwraps item other)
      (hr : UnwrapsItems items others) : UnwrapsItems (item :: items) (other :: others)

/-- Members of the same names. -/
inductive UnwrapsMembers : List (String × Json) → List (String × Json) → Prop
  | nil : UnwrapsMembers [] []
  | cons {name : String} {value other : Json} {members others : List (String × Json)}
      (h : Unwraps value other) (hr : UnwrapsMembers members others) :
      UnwrapsMembers ((name, value) :: members) ((name, other) :: others)
end

theorem isWrapped_cons (member : String × Json) (members : Entries Json) :
    isWrapped (member :: members) = decide (member.1 = numberName) := by
  simp [isWrapped]

theorem isWrapped_eq_false {name : String} (h : name ≠ numberName) (json : Json)
    (members : Entries Json) : isWrapped ((name, json) :: members) = false := by
  rw [isWrapped_cons]
  exact decide_eq_false h

theorem Unwraps.of_array {items : List Json} {plain : Json} (h : Unwraps (.array items) plain) :
    ∃ others, UnwrapsItems items others ∧ plain = .array others := by
  cases h with
  | array h => exact ⟨_, h, rfl⟩

theorem Unwraps.of_object {members : Entries Json} {plain : Json}
    (h : Unwraps (.object members) plain) :
    (isWrapped members = false ∧ ∃ others, UnwrapsMembers members others ∧ plain = .object others) ∨
      ∃ text, Grammar.Number text.toList ∧ members = [(numberName, .string text)] ∧
        plain = .number text := by
  cases h with
  | object hw h => exact .inl ⟨hw, _, h, rfl⟩
  | wrapped h => exact .inr ⟨_, h, rfl, rfl⟩

theorem UnwrapsItems.of_cons {item : Json} {items plain : List Json}
    (h : UnwrapsItems (item :: items) plain) :
    ∃ other others, item.Unwraps other ∧ UnwrapsItems items others ∧ plain = other :: others := by
  cases h with
  | cons h hr => exact ⟨_, _, h, hr, rfl⟩

theorem UnwrapsMembers.of_cons {name : String} {value : Json} {members plain : List (String × Json)}
    (h : UnwrapsMembers ((name, value) :: members) plain) :
    ∃ other others, value.Unwraps other ∧ UnwrapsMembers members others ∧
      plain = (name, other) :: others := by
  cases h with
  | cons h hr => exact ⟨_, _, h, hr, rfl⟩

mutual
theorem Unwraps.unique {json other other' : Json} (h : json.Unwraps other)
    (h' : json.Unwraps other') : other = other' := by
  cases h with
  | null | bool b | number text | string s =>
    cases h'
    rfl
  | array h =>
    cases h' with
    | array h' => exact congrArg array (h.unique h')
  | object hw h =>
    cases h' with
    | object _ h' => exact congrArg object (h.unique h')
    | wrapped _ => cases hw
  | wrapped =>
    cases h' with
    | object hw _ => cases hw
    | wrapped => rfl

theorem UnwrapsItems.unique {items others others' : List Json} (h : UnwrapsItems items others)
    (h' : UnwrapsItems items others') : others = others' := by
  cases h with
  | nil =>
    cases h'
    rfl
  | cons h hr =>
    cases h' with
    | cons h' hr' => rw [h.unique h', hr.unique hr']

theorem UnwrapsMembers.unique {members others others' : List (String × Json)}
    (h : UnwrapsMembers members others) (h' : UnwrapsMembers members others') : others = others' := by
  cases h with
  | nil =>
    cases h'
    rfl
  | cons h hr =>
    cases h' with
    | cons h' hr' => rw [h.unique h', hr.unique hr']
end

/-! ## Names -/

theorem UnwrapsMembers.keys {members others : List (String × Json)} (h : UnwrapsMembers members others) :
    Entries.keys others = Entries.keys members := by
  induction members generalizing others with
  | nil =>
    cases h
    rfl
  | cons member rest ih =>
    obtain ⟨other, others, -, hr, rfl⟩ := h.of_cons
    exact congrArg (member.1 :: ·) (ih hr)

theorem UnwrapsMembers.get? {members others : List (String × Json)} (h : UnwrapsMembers members others)
    {name : String} {value : Json} (hv : Entries.get? name members = some value) :
    ∃ other, Entries.get? name others = some other ∧ value.Unwraps other := by
  induction members generalizing others with
  | nil => cases hv
  | cons member rest ih =>
    obtain ⟨other, others, ho, hr, rfl⟩ := h.of_cons
    rw [Entries.get?] at hv ⊢
    split at hv
    · cases hv
      rw [if_pos ‹_›]
      exact ⟨other, rfl, ho⟩
    · rw [if_neg ‹_›]
      exact ih hr hv

mutual
/-- Where no name occurs twice, none does without the wrappings. -/
theorem Unwraps.namesDistinct {json plain : Json} (h : json.Unwraps plain)
    (hn : json.NamesDistinct) : plain.NamesDistinct := by
  cases h with
  | null | bool _ | number _ | string _ | wrapped _ => trivial
  | array h => exact h.itemsDistinct hn
  | object _ h =>
    refine ⟨?_, h.membersDistinct hn.2⟩
    rw [Entries.Distinct, h.keys]
    exact hn.1

theorem UnwrapsItems.itemsDistinct {items others : List Json} (h : UnwrapsItems items others)
    (hn : ItemsDistinct items) : ItemsDistinct others := by
  cases h with
  | nil => trivial
  | cons h hr => exact ⟨h.namesDistinct hn.1, hr.itemsDistinct hn.2⟩

theorem UnwrapsMembers.membersDistinct {members others : List (String × Json)}
    (h : UnwrapsMembers members others) (hn : MembersDistinct members) : MembersDistinct others := by
  cases h with
  | nil => trivial
  | cons h hr => exact ⟨h.namesDistinct hn.1, hr.membersDistinct hn.2⟩
end

/-! ## Plain values -/

mutual
/-- No object in a value opens with the reserved name. -/
def Plain : Json → Prop
  | array items => ItemsPlain items
  | object members => isWrapped members = false ∧ MembersPlain members
  | null => True
  | bool _ => True
  | number _ => True
  | string _ => True

def ItemsPlain : List Json → Prop
  | [] => True
  | item :: rest => Plain item ∧ ItemsPlain rest

def MembersPlain : List (String × Json) → Prop
  | [] => True
  | (_, value) :: rest => Plain value ∧ MembersPlain rest
end

theorem itemsPlain_iff (items : List Json) : ItemsPlain items ↔ ∀ item ∈ items, Plain item := by
  induction items with
  | nil => simp [ItemsPlain]
  | cons item rest ih => simp [ItemsPlain, ih]

theorem membersPlain_iff (members : Entries Json) :
    MembersPlain members ↔ ∀ member ∈ members, Plain member.2 := by
  induction members with
  | nil => simp [MembersPlain]
  | cons member rest ih => simp [MembersPlain, ih]

mutual
theorem unwraps_self_iff (json : Json) : json.Unwraps json ↔ json.Plain := by
  match json with
  | .null => exact iff_of_true .null trivial
  | .bool b => exact iff_of_true (.bool b) trivial
  | .number text => exact iff_of_true (.number text) trivial
  | .string s => exact iff_of_true (.string s) trivial
  | .array items =>
    rw [Plain, ← unwrapsItems_self_iff items]
    constructor
    · intro h
      cases h with
      | array h => exact h
    · exact .array
  | .object members =>
    rw [Plain, ← unwrapsMembers_self_iff members]
    constructor
    · intro h
      cases h with
      | object hw h => exact ⟨hw, h⟩
    · exact fun h => .object h.1 h.2

theorem unwrapsItems_self_iff (items : List Json) : UnwrapsItems items items ↔ ItemsPlain items := by
  match items with
  | [] => exact iff_of_true .nil trivial
  | item :: rest =>
    rw [ItemsPlain, ← unwraps_self_iff item, ← unwrapsItems_self_iff rest]
    constructor
    · intro h
      cases h with
      | cons h hr => exact ⟨h, hr⟩
    · exact fun h => .cons h.1 h.2

theorem unwrapsMembers_self_iff (members : List (String × Json)) :
    UnwrapsMembers members members ↔ MembersPlain members := by
  match members with
  | [] => exact iff_of_true .nil trivial
  | (name, value) :: rest =>
    rw [MembersPlain, ← unwraps_self_iff value, ← unwrapsMembers_self_iff rest]
    constructor
    · intro h
      cases h with
      | cons h hr => exact ⟨h, hr⟩
    · exact fun h => .cons h.1 h.2
end

/-- A plain value is left as it is. -/
theorem Plain.unwraps_iff {json : Json} (h : json.Plain) (other : Json) :
    json.Unwraps other ↔ other = json := by
  have hself := (unwraps_self_iff json).2 h
  constructor
  · exact fun ho => ho.unique hself
  · rintro rfl
    exact hself

end DocWire.Json
