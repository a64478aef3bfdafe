import DocWire.Proofs.Filter.Written
import DocWire.Proofs.Value.Dotted

/-!
# When a filter is written, and as what

For each kind of filter, what it takes to have a wire form and what this form is made of. Nothing
that builds on these statements has to look into the encoder again.
-/
set_option autoImplicit false

namespace DocWire

namespace Selector

theorem wire_eq_ok_iff {s : Selector} {json : Json} :
    s.wire = .ok json ↔ s.fields ≠ [] ∧ s.fields.WellShaped ∧
      ∃ members, wireLeaves s.op s.fields.dotted = .ok members ∧ json = .object members := by
  unfold wire
  by_cases hne : s.fields = []
  · simp [hne]
  rw [if_neg (by simpa using hne), bind_eq_ok_iff]
  constructor
  · rintro ⟨leaves, hl, h⟩
    obtain ⟨hw, rfl⟩ := Fields.leaves_eq_ok_iff.1 hl
    obtain ⟨members, hm, h⟩ := bind_eq_ok_iff.1 h
    cases h
    exact ⟨hne, hw, members, hm, rfl⟩
  · rintro ⟨-, hw, members, hm, rfl⟩
    exact ⟨_, Fields.leaves_eq_ok_iff.2 ⟨hw, rfl⟩, by rw [hm, bind_ok]⟩

theorem wireAll_cons_eq_ok_iff {child : Selector} {rest : List Selector} {items : List Json} :
    wireAll (child :: rest) = .ok items ↔
      ∃ item others, child.wire = .ok item ∧ wireAll rest = .ok others ∧ items = item :: others := by
  rw [wireAll, bind_eq_ok_iff]
  constructor
  · rintro ⟨item, hi, h⟩
    obtain ⟨others, ho, h⟩ := bind_eq_ok_iff.1 h
    cases h
    exact ⟨item, others, hi, ho, rfl⟩
  · rintro ⟨item, others, hi, ho, rfl⟩
    exact ⟨item, hi, by rw [ho, bind_ok]⟩

end Selector

namespace LogicalFilter

theorem wireAt_ofSelectors_eq_ok_iff {level : Nat} {op : Connective} {children : List Selector}
    {json : Json} :
    wireAt level (ofSelectors op children) = .ok json ↔
      level ≤ logicalDepthLimit ∧ children ≠ [] ∧
        ∃ items, Selector.wireAll children = .ok items ∧
          json = .object [(op.keyword, .array items)] := by
  unfold wireAt
  by_cases hd : logicalDepthLimit < level
  · simp [hd, Nat.not_le.2 hd]
  by_cases hne : children = []
  · simp [hd, hne]
  rw [if_neg hd]
  simp only [if_neg (mt List.isEmpty_iff.1 hne), bind_eq_ok_iff, Except.ok.injEq]
  constructor
  · rintro ⟨items, hi, rfl⟩
    exact ⟨Nat.not_lt.1 hd, hne, items, hi, rfl⟩
  · rintro ⟨-, -, items, hi, rfl⟩
    exact ⟨items, hi, rfl⟩

theorem wireAt_ofFilters_eq_ok_iff {level : Nat} {op : Connective} {children : List LogicalFilter}
    {json : Json} :
    wireAt level (ofFilters op children) = .ok json ↔
      level ≤ logicalDepthLimit ∧ children ≠ [] ∧
        ∃ items, wireFilters (level + 1) children = .ok items ∧
          json = .object [(op.keyword, .array items)] := by
  rw [wireAt]
  by_cases hd : logicalDepthLimit < level
  · simp [hd, Nat.not_le.2 hd]
  by_cases hne : children = []
  · simp [hd, hne]
  rw [if_neg hd]
  simp only [if_neg (mt List.isEmpty_iff.1 hne), bind_eq_ok_iff, Except.ok.injEq]
  constructor
  · rintro ⟨items, hi, rfl⟩
    exact ⟨Nat.not_lt.1 hd, hne, items, hi, rfl⟩
  · rintro ⟨-, -, items, hi, rfl⟩
    exact ⟨items, hi, rfl⟩

theorem wireFilters_cons_eq_ok_iff {level : Nat} {filter : LogicalFilter}
    {rest : List LogicalFilter} {items : List Json} :
    wireFilters level (filter :: rest) = .ok items ↔
      ∃ item others, wireAt level filter = .ok item ∧ wireFilters level rest = .ok others ∧
        items = item :: others := by
  rw [wireFilters, bind_eq_ok_iff]
  constructor
  · rintro ⟨item, hi, h⟩
    obtain ⟨others, ho, h⟩ := bind_eq_ok_iff.1 h
    cases h
    exact ⟨item, others, hi, ho, rfl⟩
  · rintro ⟨item, others, hi, ho, rfl⟩
    exact ⟨item, hi, by rw [ho, bind_ok]⟩

end LogicalFilter

namespace Filter

theorem encode_eq_ok_iff {filter : Filter} {text : String} :
    filter.encode = .ok text ↔ ∃ json, filter.wire = .ok json ∧ text = json.text := by
  rw [encode_eq_wire, bind_eq_ok_iff]
  constructor
  · rintro ⟨json, hj, h⟩
    cases h
    exact ⟨json, hj, rfl⟩
  · rintro ⟨json, hj, rfl⟩
    exact ⟨json, hj, rfl⟩

theorem encode_eq_error_iff {filter : Filter} {e : Failure} :
    filter.encode = .error e ↔ filter.wire = .error e := by
  rw [encode_eq_wire]
  refine ⟨fun h => ?_, fun h => by rw [h, bind_error]⟩
  rcases bind_eq_error_iff.1 h with h | ⟨json, -, h⟩
  · exact h
  · cases h

end Filter
end DocWire
