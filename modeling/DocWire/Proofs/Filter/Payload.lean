import DocWire.Filter.Paths
import DocWire.Proofs.Filter.Tree

/-!
# What a filter's payload says

The paths that a payload compares are the paths of the filter, and nothing in a payload matches
everything: each selector in it compares something and each connective in it joins something. Main
statements: `paths_of_wire` and `targeted_of_wire`.
-/
set_option autoImplicit false

namespace DocWire

/-! ## Paths -/

namespace Json

mutual
/-- The paths that a filter's wire form compares, in reading order. -/
def filterPaths : Json → List String
  | object members => memberPaths members
  | _ => []

def memberPaths : List (String × Json) → List String
  | [] => []
  | (name, operand) :: rest => operandPaths name operand ++ memberPaths rest

/-- A member that is named like a connective and holds an array is one. Any other is a leaf. -/
def operandPaths (name : String) : Json → List String
  | array items => if name = "$and" ∨ name = "$or" then itemPaths items else [name]
  | _ => [name]

def itemPaths : List Json → List String
  | [] => []
  | item :: rest => filterPaths item ++ itemPaths rest
end

/-- A value is no array. -/
def NotArray (json : Json) : Prop := ∀ items, json ≠ array items

theorem operandPaths_of_notArray {operand : Json} (h : operand.NotArray) (name : String) :
    operandPaths name operand = [name] := by
  cases operand with
  | array items => exact absurd rfl (h items)
  | null | bool _ | number _ | string _ | object _ => rfl

theorem memberPaths_of_notArray {members : Entries Json} (h : ∀ member ∈ members, member.2.NotArray) :
    memberPaths members = Entries.keys members := by
  induction members with
  | nil => rfl
  | cons member rest ih =>
    obtain ⟨name, operand⟩ := member
    rw [memberPaths, operandPaths_of_notArray (h _ (List.mem_cons_self ..)),
      ih fun member hm => h member (List.mem_cons_of_mem _ hm)]
    rfl

theorem filterPaths_connective {keyword : String} (hk : keyword = "$and" ∨ keyword = "$or")
    (items : List Json) : (object [(keyword, array items)]).filterPaths = itemPaths items := by
  rw [filterPaths, memberPaths, operandPaths, if_pos hk, memberPaths, List.append_nil]

end Json

theorem Connective.keyword_eq (op : Connective) : op.keyword = "$and" ∨ op.keyword = "$or" := by
  cases op with
  | and => exact .inl rfl
  | or => exact .inr rfl

theorem Comparison.Spells.notArray {op : Comparison} {value : Value} {scalar operand : Json}
    (h : op.Spells scalar operand) (hs : value.Spells scalar) : operand.NotArray := by
  cases h with
  | eq => cases hs <;> exact fun items => Json.noConfusion
  | gt | gte | lt | lte => exact fun items => Json.noConfusion

theorem Comparison.notArray_of_leaves {op : Comparison} {leaves : Fields} {members : Entries Json}
    (h : List.Forall₂ op.SpellsLeaf leaves members) : ∀ member ∈ members, member.2.NotArray := by
  induction h with
  | nil => exact fun member hm => absurd hm List.not_mem_nil
  | cons hl hr ih =>
    intro member hm
    rcases List.mem_cons.1 hm with rfl | hm
    · cases hl with
      | mk hv ho => exact ho.notArray hv
    · exact ih member hm

namespace Selector

theorem leafPaths_of_wire {s : Selector} {json : Json} (h : s.wire = .ok json) :
    s.fields.leafPaths = .ok json.filterPaths := by
  cases spells_of_wire h with
  | mk hl hm =>
    rw [Fields.leafPaths, hl, bind_ok, Json.filterPaths,
      Json.memberPaths_of_notArray (Comparison.notArray_of_leaves hm),
      (Comparison.members_of_leaves hm).2.2]

theorem selectorPaths_of_wireAll {children : List Selector} {items : List Json}
    (h : wireAll children = .ok items) :
    LogicalFilter.selectorPaths children = .ok (Json.itemPaths items) := by
  induction children generalizing items with
  | nil =>
    cases h
    rfl
  | cons child rest ih =>
    obtain ⟨item, hi, h⟩ := bind_eq_ok_iff.1 h
    obtain ⟨others, hr, h⟩ := bind_eq_ok_iff.1 h
    cases h
    rw [LogicalFilter.selectorPaths, leafPaths_of_wire hi, bind_ok, ih hr, bind_ok, Json.itemPaths]

end Selector

namespace LogicalFilter

mutual
theorem pathsAt_of_wireAt (level : Nat) (filter : LogicalFilter) (json : Json)
    (h : wireAt level filter = .ok json) : pathsAt level filter = .ok json.filterPaths := by
  unfold wireAt at h
  unfold pathsAt
  split at h
  · cases h
  · rename_i hl
    rw [if_neg hl]
    match filter with
    | .ofSelectors op children =>
      simp only at h
      split at h
      · cases h
      · obtain ⟨items, hi, h⟩ := bind_eq_ok_iff.1 h
        cases h
        rw [Json.filterPaths_connective op.keyword_eq]
        exact Selector.selectorPaths_of_wireAll hi
    | .ofFilters op children =>
      simp only at h
      split at h
      · cases h
      · obtain ⟨items, hi, h⟩ := bind_eq_ok_iff.1 h
        cases h
        rw [Json.filterPaths_connective op.keyword_eq]
        exact filterPaths_of_wireFilters (level + 1) children items hi
termination_by structural filter

theorem filterPaths_of_wireFilters (level : Nat) (filters : List LogicalFilter) (items : List Json)
    (h : wireFilters level filters = .ok items) :
    filterPaths level filters = .ok (Json.itemPaths items) := by
  match filters with
  | [] =>
    unfold wireFilters at h
    cases h
    rfl
  | filter :: rest =>
    unfold wireFilters at h
    obtain ⟨item, hi, h⟩ := bind_eq_ok_iff.1 h
    obtain ⟨others, hr, h⟩ := bind_eq_ok_iff.1 h
    cases h
    rw [filterPaths, pathsAt_of_wireAt level filter item hi, bind_ok,
      filterPaths_of_wireFilters level rest others hr, bind_ok, Json.itemPaths]
termination_by structural filters
end

end LogicalFilter

/-- The paths of a filter are those that its wire form compares. -/
theorem Filter.paths_of_wire {filter : Filter} {json : Json} (h : filter.wire = .ok json) :
    filter.paths = .ok json.filterPaths := by
  cases filter with
  | selector s => exact Selector.leafPaths_of_wire h
  | logical l => exact LogicalFilter.pathsAt_of_wireAt 1 l json h

/-! ## Targets -/

/-- A filter's wire form that never matches for want of a condition: at every depth a selector has
members, none of which is an array, and a connective has children. -/
inductive Json.Targeted : Json → Prop
  | selector {members : Entries Json} (hne : members ≠ [])
      (hm : ∀ member ∈ members, member.2.NotArray) : Json.Targeted (.object members)
  | connective {keyword : String} {items : List Json} (hk : keyword = "$and" ∨ keyword = "$or")
      (hne : items ≠ []) (hi : ∀ item ∈ items, Json.Targeted item) :
      Json.Targeted (.object [(keyword, .array items)])

theorem Json.Targeted.ne_empty {json : Json} (h : json.Targeted) : json ≠ .object [] := by
  cases h with
  | selector hne hm => exact fun he => hne (Json.object.inj he)
  | connective hk hne hi => exact fun he => List.cons_ne_nil _ _ (Json.object.inj he)

theorem ne_nil_of_length_eq {α β : Type} {xs : List α} {ys : List β} (h : xs.length = ys.length)
    (hne : xs ≠ []) : ys ≠ [] :=
  List.length_pos_iff.1 (h ▸ List.length_pos_iff.2 hne)

namespace Selector

theorem targeted_of_wire {s : Selector} {json : Json} (h : s.wire = .ok json) : json.Targeted := by
  -- Fields alone are not enough: maps nested in them could be empty, and have no leaf.
  have hne : s.fields ≠ [] := by
    unfold wire at h
    split at h
    · cases h
    · rename_i he
      simpa using he
  cases spells_of_wire h with
  | mk hl hm =>
    have hlen := hm.length_eq
    exact .selector (ne_nil_of_length_eq hlen (Fields.leaves_ne_nil hne hl))
      (Comparison.notArray_of_leaves hm)

theorem targeted_of_wireAll {children : List Selector} {items : List Json}
    (h : wireAll children = .ok items) :
    children.length = items.length ∧ ∀ item ∈ items, item.Targeted := by
  induction children generalizing items with
  | nil =>
    cases h
    exact ⟨rfl, fun item hi => absurd hi List.not_mem_nil⟩
  | cons child rest ih =>
    obtain ⟨item, hi, h⟩ := bind_eq_ok_iff.1 h
    obtain ⟨others, hr, h⟩ := bind_eq_ok_iff.1 h
    cases h
    obtain ⟨hlen, ht⟩ := ih hr
    exact ⟨congrArg (· + 1) hlen, List.forall_mem_cons.2 ⟨targeted_of_wire hi, ht⟩⟩

end Selector

namespace LogicalFilter

mutual
theorem targeted_of_wireAt (level : Nat) (filter : LogicalFilter) (json : Json)
    (h : wireAt level filter = .ok json) : json.Targeted := by
  unfold wireAt at h
  split at h
  · cases h
  · match filter with
    | .ofSelectors op children =>
      simp only at h
      split at h
      · cases h
      · -- Children were found, and as many items are written.
        rename_i hne
        obtain ⟨items, hi, h⟩ := bind_eq_ok_iff.1 h
        cases h
        obtain ⟨hlen, ht⟩ := Selector.targeted_of_wireAll hi
        exact .connective op.keyword_eq (ne_nil_of_length_eq hlen (by simpa using hne)) ht
    | .ofFilters op children =>
      simp only at h
      split at h
      · cases h
      · rename_i hne
        obtain ⟨items, hi, h⟩ := bind_eq_ok_iff.1 h
        cases h
        obtain ⟨hlen, ht⟩ := targeted_of_wireFilters (level + 1) children items hi
        exact .connective op.keyword_eq (ne_nil_of_length_eq hlen (by simpa using hne)) ht
termination_by structural filter

theorem targeted_of_wireFilters (level : Nat) (filters : List LogicalFilter) (items : List Json)
    (h : wireFilters level filters = .ok items) :
    filters.length = items.length ∧ ∀ item ∈ items, item.Targeted := by
  match filters with
  | [] =>
    unfold wireFilters at h
    cases h
    exact ⟨rfl, fun item hi => absurd hi List.not_mem_nil⟩
  | filter :: rest =>
    unfold wireFilters at h
    obtain ⟨item, hi, h⟩ := bind_eq_ok_iff.1 h
    obtain ⟨others, hr, h⟩ := bind_eq_ok_iff.1 h
    cases h
    obtain ⟨hlen, ht⟩ := targeted_of_wireFilters level rest others hr
    exact ⟨congrArg (· + 1) hlen,
      List.forall_mem_cons.2 ⟨targeted_of_wireAt level filter item hi, ht⟩⟩
termination_by structural filters
end

end LogicalFilter

/-- At no depth does a filter's wire form match for want of a condition. -/
theorem Filter.targeted_of_wire {filter : Filter} {json : Json} (h : filter.wire = .ok json) :
    json.Targeted := by
  cases filter with
  | selector s => exact Selector.targeted_of_wire h
  | logical l => exact LogicalFilter.targeted_of_wireAt 1 l json h

/-- The text of a filter is a payload that says what the filter's wire form says. -/
theorem Filter.payload_of_encode {P : Json → Prop} {filter : Filter} {text : String}
    (h : filter.encode = .ok text) (hp : ∀ json, filter.wire = .ok json → P json) :
    Json.Payload P text.toUTF8 := by
  obtain ⟨json, hj, rfl⟩ := wire_of_encode h
  exact Json.payload_text (spells_of_wire hj).lexical (hp json hj)

end DocWire
