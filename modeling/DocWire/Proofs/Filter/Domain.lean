import DocWire.Proofs.Filter.Wire
import DocWire.Proofs.Value.Leaves

/-!
# Which filters have a wire form

A filter is encoded exactly when its logical levels are few and populated, its selectors are well
shaped and their leaves can be compared. The conditions are stated on the filter itself, without
the traversals of the encoder. Main statement: `encode_domain`.
-/
set_option autoImplicit false

namespace DocWire

/-! ## Leaves -/

/-- A value that a field can be compared with. -/
def Value.Comparable (value : Value) : Prop :=
  (∀ items, value ≠ .array items) ∧ ∀ x, value = .float x → x.isFinite = true

/-- A leaf is sent when it can be compared, and is at fault itself when it cannot. -/
theorem Value.wire_selector {value : Value} (ho : value.NotObject) (path : String) :
    (value.Comparable ∧ ∃ json, value.wire .selector path = .ok json) ∨
      (¬ value.Comparable ∧
        ∃ e, value.wire .selector path = .error e ∧ e.kind = .valueEncoding) := by
  unfold wire wireAt
  rw [if_neg (by decide)]
  cases value with
  | object fields => exact absurd rfl (ho fields)
  | array items => exact .inr ⟨fun h => h.1 items rfl, _, rfl, rfl⟩
  | float x =>
    by_cases hf : x.isFinite = true
    · have hc : (Value.float x).Comparable := by
        refine ⟨fun items => Value.noConfusion, fun y hy => ?_⟩
        cases hy
        exact hf
      exact .inl ⟨hc, _, if_pos hf⟩
    · exact .inr ⟨fun h => hf (h.2 x rfl), _, if_neg hf, rfl⟩
  | null | bool _ | int _ | uint _ | wide _ | string _ | instant _ | uuid _ =>
    exact .inl ⟨⟨fun items => Value.noConfusion, fun x => Value.noConfusion⟩, _, rfl⟩

namespace Selector

theorem wireLeaves_outcome (op : Comparison) {leaves : Fields} (hf : leaves.Flat) :
    ((∀ leaf ∈ leaves, leaf.2.Comparable) ∧ ∃ members, wireLeaves op leaves = .ok members) ∨
      ((∃ leaf ∈ leaves, ¬ leaf.2.Comparable) ∧
        ∃ e, wireLeaves op leaves = .error e ∧ e.kind = .valueEncoding) := by
  induction leaves with
  | nil => exact .inl ⟨fun leaf hl => absurd hl List.not_mem_nil, [], rfl⟩
  | cons leaf rest ih =>
    obtain ⟨path, value⟩ := leaf
    have hvalue := Value.wire_selector (hf _ (List.mem_cons_self ..)) path
    rcases hvalue with ⟨hc, json, hj⟩ | ⟨hc, e, he, hk⟩
    · rcases ih fun leaf hl => hf leaf (List.mem_cons_of_mem _ hl) with
        ⟨hall, members, hm⟩ | ⟨⟨leaf, hl, hn⟩, e, he, hk⟩
      · refine .inl ⟨List.forall_mem_cons.2 ⟨hc, hall⟩, (path, op.compare json) :: members, ?_⟩
        rw [wireLeaves, hj, bind_ok, hm, bind_ok]
      · refine .inr ⟨⟨leaf, List.mem_cons_of_mem _ hl, hn⟩, e, ?_, hk⟩
        rw [wireLeaves, hj, bind_ok, he, bind_error]
    · refine .inr ⟨⟨_, List.mem_cons_self .., hc⟩, e, ?_, hk⟩
      rw [wireLeaves, he, bind_error]

/-- A selector with fields that can be spelled as leaves. -/
structure WellShaped (s : Selector) : Prop where
  fields_ne_nil : s.fields ≠ []
  fields : s.fields.WellShaped

structure Encodable (s : Selector) : Prop extends s.WellShaped where
  comparable : ∀ leaf ∈ s.fields.dotted, leaf.2.Comparable

/-- What becomes of a selector. Its shape is looked at before its leaves. -/
theorem wire_outcome (s : Selector) :
    (s.Encodable ∧ ∃ json, s.wire = .ok json) ∨
      (¬ s.WellShaped ∧ ∃ e, s.wire = .error e ∧ e.kind = .filterEncoding) ∨
        ((s.WellShaped ∧ ∃ leaf ∈ s.fields.dotted, ¬ leaf.2.Comparable) ∧
          ∃ e, s.wire = .error e ∧ e.kind = .valueEncoding) := by
  unfold wire
  by_cases hne : s.fields = []
  · refine .inr (.inl ⟨fun h => h.fields_ne_nil hne, .filter .emptySelector, ?_, rfl⟩)
    rw [hne]
    rfl
  rw [if_neg (by simpa using hne)]
  cases hl : s.fields.leaves with
  | error e =>
    have hbad : ¬ s.fields.WellShaped := by
      intro h
      rw [Fields.leaves_eq_ok_iff.2 ⟨h, rfl⟩] at hl
      cases hl
    exact .inr (.inl ⟨fun h => hbad h.fields, e, rfl, Fields.kind_of_leaves hl⟩)
  | ok leaves =>
    obtain ⟨hw, rfl⟩ := Fields.leaves_eq_ok_iff.1 hl
    have hs : s.WellShaped := ⟨hne, hw⟩
    rcases wireLeaves_outcome s.op (Fields.notObject_of_leaves hl) with
      ⟨hc, members, hm⟩ | ⟨hc, e, he, hk⟩
    · exact .inl ⟨⟨hs, hc⟩, .object members, by rw [bind_ok, hm, bind_ok]⟩
    · exact .inr (.inr ⟨⟨hs, hc⟩, e, by rw [bind_ok, he, bind_error], hk⟩)

theorem wire_isOk_iff (s : Selector) : (∃ json, s.wire = .ok json) ↔ s.Encodable := by
  rcases s.wire_outcome with ⟨h, hok⟩ | ⟨h, e, he, -⟩ | ⟨⟨-, leaf, hl, hn⟩, e, he, -⟩
  · exact ⟨fun _ => h, fun _ => hok⟩
  · constructor
    · rintro ⟨json, hj⟩
      rw [he] at hj
      cases hj
    · exact fun hs => absurd hs.toWellShaped h
  · constructor
    · rintro ⟨json, hj⟩
      rw [he] at hj
      cases hj
    · exact fun hs => absurd (hs.comparable leaf hl) hn

theorem kind_of_wire {s : Selector} {e : Failure} (h : s.wire = .error e) :
    e.kind = .filterEncoding ∨ e.kind = .valueEncoding := by
  rcases s.wire_outcome with ⟨-, json, hj⟩ | ⟨-, e', he, hk⟩ | ⟨-, e', he, hk⟩
  · rw [hj] at h
    cases h
  · rw [he] at h
    cases h
    exact .inl hk
  · rw [he] at h
    cases h
    exact .inr hk

theorem wireAll_isOk_iff (children : List Selector) :
    (∃ items, wireAll children = .ok items) ↔ ∀ s ∈ children, s.Encodable := by
  induction children with
  | nil => simp [wireAll]
  | cons child rest ih =>
    rw [List.forall_mem_cons, ← ih, ← child.wire_isOk_iff]
    constructor
    · rintro ⟨items, h⟩
      obtain ⟨item, others, hi, ho, -⟩ := wireAll_cons_eq_ok_iff.1 h
      exact ⟨⟨item, hi⟩, others, ho⟩
    · rintro ⟨⟨item, hi⟩, others, ho⟩
      exact ⟨_, wireAll_cons_eq_ok_iff.2 ⟨item, others, hi, ho, rfl⟩⟩

theorem kind_of_wireAll {children : List Selector} {e : Failure} (h : wireAll children = .error e) :
    e.kind = .filterEncoding ∨ e.kind = .valueEncoding := by
  induction children with
  | nil => cases h
  | cons child rest ih =>
    rcases bind_eq_error_iff.1 h with h | ⟨item, -, h⟩
    · exact kind_of_wire h
    · rcases bind_eq_error_iff.1 h with h | ⟨others, -, h⟩
      · exact ih h
      · cases h

end Selector

/-! ## Logical filters -/

namespace LogicalFilter

mutual
/-- How many logical filters nest, the outermost included. -/
def levels : LogicalFilter → Nat
  | ofSelectors _ _ => 1
  | ofFilters _ children => levelsAll children + 1

def levelsAll : List LogicalFilter → Nat
  | [] => 0
  | child :: rest => max (levels child) (levelsAll rest)
end

mutual
/-- Every logical filter has a child. -/
def Populated : LogicalFilter → Prop
  | ofSelectors _ children => children ≠ []
  | ofFilters _ children => children ≠ [] ∧ AllPopulated children

def AllPopulated : List LogicalFilter → Prop
  | [] => True
  | child :: rest => Populated child ∧ AllPopulated rest
end

mutual
/-- The selectors at all levels. -/
def selectors : LogicalFilter → List Selector
  | ofSelectors _ children => children
  | ofFilters _ children => selectorsAll children

def selectorsAll : List LogicalFilter → List Selector
  | [] => []
  | child :: rest => selectors child ++ selectorsAll rest
end

mutual
theorem wireAt_isOk_iff (level : Nat) (filter : LogicalFilter) :
    (∃ json, wireAt level filter = .ok json) ↔
      level + filter.levels ≤ logicalDepthLimit + 1 ∧ filter.Populated ∧
        ∀ s ∈ filter.selectors, s.Encodable := by
  -- A filter has a level of its own, so whatever stands too deep is counted as too deep.
  match filter with
  | .ofSelectors op children =>
    have hc := Selector.wireAll_isOk_iff children
    unfold levels Populated selectors
    constructor
    · rintro ⟨json, h⟩
      obtain ⟨hd, hne, items, hi, -⟩ := wireAt_ofSelectors_eq_ok_iff.1 h
      exact ⟨by omega, hne, hc.1 ⟨items, hi⟩⟩
    · rintro ⟨hd, hne, hs⟩
      obtain ⟨items, hi⟩ := hc.2 hs
      exact ⟨_, wireAt_ofSelectors_eq_ok_iff.2 ⟨by omega, hne, items, hi, rfl⟩⟩
  | .ofFilters op children =>
    have hc := wireFilters_isOk_iff (level + 1) children
    unfold levels Populated selectors
    constructor
    · rintro ⟨json, h⟩
      obtain ⟨hd, hne, items, hi, -⟩ := wireAt_ofFilters_eq_ok_iff.1 h
      obtain ⟨hcd, hp, hs⟩ := (hc (by omega)).1 ⟨items, hi⟩
      exact ⟨by omega, ⟨hne, hp⟩, hs⟩
    · rintro ⟨hd, ⟨hne, hp⟩, hs⟩
      obtain ⟨items, hi⟩ := (hc (by omega)).2 ⟨by omega, hp, hs⟩
      exact ⟨_, wireAt_ofFilters_eq_ok_iff.2 ⟨by omega, hne, items, hi, rfl⟩⟩
termination_by structural filter

theorem wireFilters_isOk_iff (level : Nat) (filters : List LogicalFilter)
    (hl : level ≤ logicalDepthLimit + 1) :
    (∃ items, wireFilters level filters = .ok items) ↔
      level + levelsAll filters ≤ logicalDepthLimit + 1 ∧ AllPopulated filters ∧
        ∀ s ∈ selectorsAll filters, s.Encodable := by
  match filters with
  | [] =>
    unfold wireFilters levelsAll AllPopulated selectorsAll
    simp [hl]
  | filter :: rest =>
    have hf := wireAt_isOk_iff level filter
    have hr := wireFilters_isOk_iff level rest hl
    unfold levelsAll AllPopulated selectorsAll
    constructor
    · rintro ⟨items, h⟩
      obtain ⟨item, others, hi, ho, -⟩ := wireFilters_cons_eq_ok_iff.1 h
      obtain ⟨hd, hp, hs⟩ := hf.1 ⟨item, hi⟩
      obtain ⟨hrd, hrp, hrs⟩ := hr.1 ⟨others, ho⟩
      exact ⟨by omega, ⟨hp, hrp⟩, List.forall_mem_append.2 ⟨hs, hrs⟩⟩
    · rintro ⟨hd, ⟨hp, hrp⟩, hs⟩
      obtain ⟨hs, hrs⟩ := List.forall_mem_append.1 hs
      obtain ⟨item, hi⟩ := hf.2 ⟨by omega, hp, hs⟩
      obtain ⟨others, ho⟩ := hr.2 ⟨by omega, hrp, hrs⟩
      exact ⟨_, wireFilters_cons_eq_ok_iff.2 ⟨item, others, hi, ho, rfl⟩⟩
termination_by structural filters
end

mutual
theorem kind_of_wireAt (level : Nat) (filter : LogicalFilter) (e : Failure)
    (h : wireAt level filter = .error e) :
    e.kind = .filterEncoding ∨ e.kind = .valueEncoding := by
  unfold wireAt at h
  split at h
  · cases h
    exact .inl rfl
  · match filter with
    | .ofSelectors op children =>
      simp only at h
      split at h
      · cases h
        exact .inl rfl
      · rcases bind_eq_error_iff.1 h with h | ⟨items, -, h⟩
        · exact Selector.kind_of_wireAll h
        · cases h
    | .ofFilters op children =>
      simp only at h
      split at h
      · cases h
        exact .inl rfl
      · rcases bind_eq_error_iff.1 h with h | ⟨items, -, h⟩
        · exact kind_of_wireFilters (level + 1) children e h
        · cases h
termination_by structural filter

theorem kind_of_wireFilters (level : Nat) (filters : List LogicalFilter) (e : Failure)
    (h : wireFilters level filters = .error e) :
    e.kind = .filterEncoding ∨ e.kind = .valueEncoding := by
  match filters with
  | [] =>
    unfold wireFilters at h
    cases h
  | filter :: rest =>
    unfold wireFilters at h
    rcases bind_eq_error_iff.1 h with h | ⟨item, -, h⟩
    · exact kind_of_wireAt level filter e h
    · rcases bind_eq_error_iff.1 h with h | ⟨others, -, h⟩
      · exact kind_of_wireFilters level rest e h
      · cases h
termination_by structural filters
end

end LogicalFilter

/-! ## Filters -/

namespace Filter

/-- How many logical filters nest. -/
def levels : Filter → Nat
  | selector _ => 0
  | logical l => l.levels

/-- Every logical filter has a child. -/
def Populated : Filter → Prop
  | selector _ => True
  | logical l => l.Populated

/-- The selectors at all levels. -/
def selectors : Filter → List Selector
  | selector s => [s]
  | logical l => l.selectors

structure Encodable (filter : Filter) : Prop where
  levels_le : filter.levels ≤ 64
  populated : filter.Populated
  selectors : ∀ s ∈ filter.selectors, s.Encodable

theorem wire_isOk_iff (filter : Filter) : (∃ json, filter.wire = .ok json) ↔ filter.Encodable := by
  cases filter with
  | selector s =>
    rw [wire, s.wire_isOk_iff]
    refine ⟨fun h => ⟨Nat.zero_le 64, trivial, ?_⟩, fun h => h.selectors s (List.mem_singleton_self s)⟩
    intro t ht
    rw [selectors, List.mem_singleton] at ht
    exact ht ▸ h
  | logical l =>
    rw [wire, l.wireAt_isOk_iff]
    have hlevel : 1 + l.levels ≤ logicalDepthLimit + 1 ↔ l.levels ≤ 64 := by
      unfold logicalDepthLimit
      omega
    rw [hlevel]
    constructor
    · rintro ⟨hl, hp, hs⟩
      exact ⟨hl, hp, hs⟩
    · intro h
      exact ⟨h.levels_le, h.populated, h.selectors⟩

/-- A filter is encoded exactly when it is encodable. Otherwise its shape or one of its values is
at fault, and in a selector a value only where the shape is not. -/
theorem encode_domain (filter : Filter) :
    ((∃ text, filter.encode = .ok text) ↔ filter.Encodable) ∧
      (∀ e, filter.encode = .error e → e.kind = .filterEncoding ∨ e.kind = .valueEncoding) ∧
      ∀ s, filter = .selector s →
        ((∃ e, filter.encode = .error e ∧ e.kind = .valueEncoding) ↔
          s.WellShaped ∧ ∃ leaf ∈ s.fields.dotted, ¬ leaf.2.Comparable) := by
  refine ⟨?_, fun e he => ?_, ?_⟩
  · rw [← filter.wire_isOk_iff]
    simp only [encode_eq_ok_iff]
    constructor
    · rintro ⟨text, json, hj, ht⟩
      exact ⟨json, hj⟩
    · rintro ⟨json, hj⟩
      exact ⟨_, json, hj, rfl⟩
  · rw [encode_eq_error_iff] at he
    cases filter with
    | selector s => exact Selector.kind_of_wire he
    | logical l => exact LogicalFilter.kind_of_wireAt 1 l e he
  · rintro s rfl
    simp only [encode_eq_error_iff, wire]
    -- The three outcomes of a selector exclude one another.
    rcases s.wire_outcome with ⟨h, json, hj⟩ | ⟨h, e, he, hk⟩ | ⟨h, hv⟩
    · constructor
      · rintro ⟨e, he, hk⟩
        rw [hj] at he
        cases he
      · rintro ⟨hs, leaf, hl, hn⟩
        exact absurd (h.comparable leaf hl) hn
    · constructor
      · rintro ⟨e', he', hk'⟩
        rw [he] at he'
        cases he'
        rw [hk] at hk'
        cases hk'
      · exact fun hs => absurd hs.1 h
    · exact ⟨fun _ => h, fun _ => hv⟩

end Filter
end DocWire
