import Mathlib.Data.List.Forall2
import DocWire.Proofs.Filter.Written
import DocWire.Proofs.Value.Leaves
import DocWire.Proofs.Value.Wire

/-!
# The tree that a filter is written as

`Filter.Spells` says which JSON values stand for a filter: a selector is an object with one member
for each of its leaves, a logical filter an object over the array of its children. Main statement:
`reads_encode_iff`, the wire text of a filter reads as one of these values and as no other.
-/
set_option autoImplicit false

namespace DocWire

/-! ## Leaves -/

/-- The scalars that stand for a value. An integer is a number that reads as the same integer. -/
inductive Value.Spells : Value → Json → Prop
  | null : Value.Spells .null .null
  | bool (b : Bool) : Value.Spells (.bool b) (.bool b)
  | integer {value : Value} {n : Int} {text : String} (hv : value.integer? = some n)
      (hn : Json.Grammar.Number text.toList) (ht : DocWire.integer? text.toList = some n) :
      Value.Spells value (.number text)
  | float {x : Binary64} (hf : x.isFinite = true) : Value.Spells (.float x) (.number x.text)
  | string (s : String) : Value.Spells (.string s) (.string s)
  | instant (t : Instant) : Value.Spells (.instant t) (.string t.text)
  | uuid (u : Uuid) : Value.Spells (.uuid u) (.string u.text)

/-- What stands for the comparison with a scalar: the scalar itself for equality, an object over
the keyword for the others. -/
inductive Comparison.Spells : Comparison → Json → Json → Prop
  | eq (scalar : Json) : Comparison.Spells .eq scalar scalar
  | gt (scalar : Json) : Comparison.Spells .gt scalar (.object [("$gt", scalar)])
  | gte (scalar : Json) : Comparison.Spells .gte scalar (.object [("$gte", scalar)])
  | lt (scalar : Json) : Comparison.Spells .lt scalar (.object [("$lt", scalar)])
  | lte (scalar : Json) : Comparison.Spells .lte scalar (.object [("$lte", scalar)])

/-- The member that stands for a leaf. It has the leaf's path for its name. -/
inductive Comparison.SpellsLeaf (op : Comparison) : String × Value → String × Json → Prop
  | mk {path : String} {value : Value} {scalar operand : Json} (hv : value.Spells scalar)
      (ho : op.Spells scalar operand) : Comparison.SpellsLeaf op (path, value) (path, operand)

/-! ## Filters -/

inductive Selector.Spells : Selector → Json → Prop
  | mk {s : Selector} {leaves : Fields} {members : Entries Json} (hl : s.fields.leaves = .ok leaves)
      (hm : List.Forall₂ s.op.SpellsLeaf leaves members) : Selector.Spells s (.object members)

/-- The names of the two connectives. -/
inductive Connective.Spells : Connective → String → Prop
  | and : Connective.Spells .and "$and"
  | or : Connective.Spells .or "$or"

mutual
inductive LogicalFilter.Spells : LogicalFilter → Json → Prop
  | ofSelectors {op : Connective} {keyword : String} {children : List Selector} {items : List Json}
      (hk : op.Spells keyword) (hc : List.Forall₂ Selector.Spells children items) :
      LogicalFilter.Spells (.ofSelectors op children) (.object [(keyword, .array items)])
  | ofFilters {op : Connective} {keyword : String} {children : List LogicalFilter}
      {items : List Json} (hk : op.Spells keyword) (hc : LogicalFilter.SpellsAll children items) :
      LogicalFilter.Spells (.ofFilters op children) (.object [(keyword, .array items)])

/-- One value for each logical filter, in order. -/
inductive LogicalFilter.SpellsAll : List LogicalFilter → List Json → Prop
  | nil : LogicalFilter.SpellsAll [] []
  | cons {child : LogicalFilter} {children : List LogicalFilter} {item : Json} {items : List Json}
      (h : LogicalFilter.Spells child item) (hc : LogicalFilter.SpellsAll children items) :
      LogicalFilter.SpellsAll (child :: children) (item :: items)
end

inductive Filter.Spells : Filter → Json → Prop
  | selector {s : Selector} {json : Json} (h : s.Spells json) : Filter.Spells (.selector s) json
  | logical {l : LogicalFilter} {json : Json} (h : l.Spells json) : Filter.Spells (.logical l) json

/-! ## The wire form is such a tree -/

theorem Value.spells_ofInt {value : Value} {n : Int} (h : value.integer? = some n) :
    value.Spells (.ofInt n) := by
  refine .integer h (Json.lexical_ofInt n) ?_
  rw [toString_eq_signedDigits, String.toList_ofList]
  exact integer?_signedDigits n

theorem Value.spells_of_wire {value : Value} {path : String} {json : Json} (ho : value.NotObject)
    (h : value.wire .selector path = .ok json) : value.Spells json := by
  unfold wire wireAt at h
  rw [if_neg (by decide)] at h
  cases value with
  | null => cases h; exact .null
  | bool b => cases h; exact .bool b
  | int n => cases h; exact spells_ofInt rfl
  | uint n => cases h; exact spells_ofInt rfl
  | wide n =>
    cases h
    refine .integer rfl (Json.lexical_wide n) ?_
    rw [WideInteger.text, String.toList_ofList]
    exact integer?_signedDigits n.value
  | float x =>
    simp only at h
    split at h
    · rename_i hf
      cases h
      exact .float hf
    · cases h
  | string s => cases h; exact .string s
  | instant t => cases h; exact .instant t
  | uuid u => cases h; exact .uuid u
  | array items => cases h
  | object fields => exact absurd rfl (ho fields)

theorem Comparison.spells_compare (op : Comparison) (scalar : Json) :
    op.Spells scalar (op.compare scalar) := by
  cases op with
  | eq => exact .eq scalar
  | gt => exact .gt scalar
  | gte => exact .gte scalar
  | lt => exact .lt scalar
  | lte => exact .lte scalar

theorem Selector.spells_of_wireLeaves {op : Comparison} {leaves : Fields} {members : Entries Json}
    (hf : leaves.Flat) (h : wireLeaves op leaves = .ok members) :
    List.Forall₂ op.SpellsLeaf leaves members := by
  induction leaves generalizing members with
  | nil =>
    cases h
    exact .nil
  | cons leaf rest ih =>
    obtain ⟨path, value⟩ := leaf
    obtain ⟨json, hj, h⟩ := bind_eq_ok_iff.1 h
    obtain ⟨others, hr, h⟩ := bind_eq_ok_iff.1 h
    cases h
    have hv := Value.spells_of_wire (hf _ (List.mem_cons_self ..)) hj
    exact .cons (.mk hv (op.spells_compare json))
      (ih (fun leaf hl => hf leaf (List.mem_cons_of_mem _ hl)) hr)

theorem Selector.spells_of_wire {s : Selector} {json : Json} (h : s.wire = .ok json) :
    s.Spells json := by
  unfold wire at h
  split at h
  · cases h
  · obtain ⟨leaves, hl, h⟩ := bind_eq_ok_iff.1 h
    obtain ⟨members, hm, h⟩ := bind_eq_ok_iff.1 h
    cases h
    exact .mk hl (spells_of_wireLeaves (Fields.notObject_of_leaves hl) hm)

theorem Selector.spells_of_wireAll {children : List Selector} {items : List Json}
    (h : wireAll children = .ok items) : List.Forall₂ Selector.Spells children items := by
  induction children generalizing items with
  | nil =>
    cases h
    exact .nil
  | cons child rest ih =>
    obtain ⟨item, hi, h⟩ := bind_eq_ok_iff.1 h
    obtain ⟨others, hr, h⟩ := bind_eq_ok_iff.1 h
    cases h
    exact .cons (spells_of_wire hi) (ih hr)

theorem Connective.spells_keyword (op : Connective) : op.Spells op.keyword := by
  cases op with
  | and => exact .and
  | or => exact .or

namespace LogicalFilter

mutual
theorem spells_of_wireAt (level : Nat) (filter : LogicalFilter) (json : Json)
    (h : wireAt level filter = .ok json) : filter.Spells json := by
  unfold wireAt at h
  split at h
  · cases h
  · match filter with
    | .ofSelectors op children =>
      simp only at h
      split at h
      · cases h
      · obtain ⟨items, hi, h⟩ := bind_eq_ok_iff.1 h
        cases h
        exact .ofSelectors op.spells_keyword (Selector.spells_of_wireAll hi)
    | .ofFilters op children =>
      simp only at h
      split at h
      · cases h
      · obtain ⟨items, hi, h⟩ := bind_eq_ok_iff.1 h
        cases h
        exact .ofFilters op.spells_keyword (spells_of_wireFilters (level + 1) children items hi)
termination_by structural filter

theorem spells_of_wireFilters (level : Nat) (filters : List LogicalFilter) (items : List Json)
    (h : wireFilters level filters = .ok items) : SpellsAll filters items := by
  match filters with
  | [] =>
    unfold wireFilters at h
    cases h
    exact .nil
  | filter :: rest =>
    unfold wireFilters at h
    obtain ⟨item, hi, h⟩ := bind_eq_ok_iff.1 h
    obtain ⟨others, hr, h⟩ := bind_eq_ok_iff.1 h
    cases h
    exact .cons (spells_of_wireAt level filter item hi) (spells_of_wireFilters level rest others hr)
termination_by structural filters
end

end LogicalFilter

theorem Filter.spells_of_wire {filter : Filter} {json : Json} (h : filter.wire = .ok json) :
    filter.Spells json := by
  cases filter with
  | selector s => exact .selector (Selector.spells_of_wire h)
  | logical l => exact .logical (LogicalFilter.spells_of_wireAt 1 l json h)

/-! ## The tree is lexical and its names are distinct -/

theorem Value.Spells.lexical {value : Value} {scalar : Json} (h : value.Spells scalar) :
    scalar.Lexical := by
  cases h with
  | integer hv hn ht => exact hn
  | float hf => exact Json.lexical_float hf
  | null | bool _ | string _ | instant _ | uuid _ => trivial

theorem Value.Spells.namesDistinct {value : Value} {scalar : Json} (h : value.Spells scalar) :
    scalar.NamesDistinct := by
  cases h <;> trivial

theorem Comparison.Spells.lexical {op : Comparison} {scalar operand : Json}
    (h : op.Spells scalar operand) (hs : scalar.Lexical) : operand.Lexical := by
  cases h with
  | eq => exact hs
  | gt | gte | lt | lte => exact ⟨hs, trivial⟩

theorem Json.namesDistinct_single {name : String} {value : Json} (h : value.NamesDistinct) :
    (Json.object [(name, value)]).NamesDistinct :=
  ⟨by simp [Entries.Distinct], h, trivial⟩

theorem Comparison.Spells.namesDistinct {op : Comparison} {scalar operand : Json}
    (h : op.Spells scalar operand) (hs : scalar.NamesDistinct) : operand.NamesDistinct := by
  cases h with
  | eq => exact hs
  | gt | gte | lt | lte => exact Json.namesDistinct_single hs

/-- Members for leaves are as good as the leaves: lexical, distinct below, and of the same names. -/
theorem Comparison.members_of_leaves {op : Comparison} {leaves : Fields} {members : Entries Json}
    (h : List.Forall₂ op.SpellsLeaf leaves members) :
    Json.MembersLexical members ∧ Json.MembersDistinct members ∧
      Entries.keys members = Entries.keys leaves := by
  induction h with
  | nil => exact ⟨trivial, trivial, rfl⟩
  | cons hl hr ih =>
    obtain ⟨hlex, hdist, hkeys⟩ := ih
    cases hl with
    | mk hv ho =>
      refine ⟨⟨ho.lexical hv.lexical, hlex⟩, ⟨ho.namesDistinct hv.namesDistinct, hdist⟩, ?_⟩
      rw [Entries.keys_cons, Entries.keys_cons, hkeys]

theorem Selector.Spells.lexical {s : Selector} {json : Json} (h : s.Spells json) :
    json.Lexical := by
  cases h with
  | mk hl hm => exact (Comparison.members_of_leaves hm).1

theorem Selector.Spells.namesDistinct {s : Selector} {json : Json} (h : s.Spells json) :
    json.NamesDistinct := by
  cases h with
  | mk hl hm =>
    obtain ⟨-, hdist, hkeys⟩ := Comparison.members_of_leaves hm
    refine ⟨?_, hdist⟩
    unfold Entries.Distinct
    rw [hkeys]
    exact Fields.distinct_leaves hl

theorem Selector.items_of_children {children : List Selector} {items : List Json}
    (h : List.Forall₂ Selector.Spells children items) :
    Json.ItemsLexical items ∧ Json.ItemsDistinct items := by
  induction h with
  | nil => exact ⟨trivial, trivial⟩
  | cons hc hr ih => exact ⟨⟨hc.lexical, ih.1⟩, ⟨hc.namesDistinct, ih.2⟩⟩

mutual
theorem LogicalFilter.Spells.sound {l : LogicalFilter} {json : Json} (h : l.Spells json) :
    json.Lexical ∧ json.NamesDistinct := by
  cases h with
  | ofSelectors hk hc =>
    obtain ⟨hlex, hdist⟩ := Selector.items_of_children hc
    exact ⟨⟨hlex, trivial⟩, Json.namesDistinct_single hdist⟩
  | ofFilters hk hc =>
    obtain ⟨hlex, hdist⟩ := hc.sound
    exact ⟨⟨hlex, trivial⟩, Json.namesDistinct_single hdist⟩

theorem LogicalFilter.SpellsAll.sound {children : List LogicalFilter} {items : List Json}
    (h : LogicalFilter.SpellsAll children items) :
    Json.ItemsLexical items ∧ Json.ItemsDistinct items := by
  cases h with
  | nil => exact ⟨trivial, trivial⟩
  | cons h hc =>
    obtain ⟨hlex, hdist⟩ := h.sound
    obtain ⟨hslex, hsdist⟩ := hc.sound
    exact ⟨⟨hlex, hslex⟩, ⟨hdist, hsdist⟩⟩
end

theorem Filter.Spells.lexical {filter : Filter} {json : Json} (h : filter.Spells json) :
    json.Lexical := by
  cases h with
  | selector h => exact h.lexical
  | logical h => exact h.sound.1

theorem Filter.Spells.namesDistinct {filter : Filter} {json : Json} (h : filter.Spells json) :
    json.NamesDistinct := by
  cases h with
  | selector h => exact h.namesDistinct
  | logical h => exact h.sound.2

theorem Filter.wire_of_encode {filter : Filter} {text : String} (h : filter.encode = .ok text) :
    ∃ json, filter.wire = .ok json ∧ text = json.text := by
  rw [encode_eq_wire] at h
  obtain ⟨json, hj, h⟩ := bind_eq_ok_iff.1 h
  cases h
  exact ⟨json, hj, rfl⟩

/-- The wire text of a filter is JSON. It reads as a tree of the filter in which no name occurs
twice in one object, and as nothing else. -/
theorem Filter.reads_encode_iff {filter : Filter} {text : String} (h : filter.encode = .ok text) :
    ∃ tree, filter.Spells tree ∧ tree.NamesDistinct ∧
      ∀ json, Json.Reads text json ↔ json = tree := by
  obtain ⟨tree, ht, rfl⟩ := wire_of_encode h
  have hs := spells_of_wire ht
  exact ⟨tree, hs, hs.namesDistinct, fun json => Json.reads_text_iff hs.lexical json⟩

/-- Nested filters, a field that is named like a connective, escapes, and integers of two widths. -/
theorem Filter.reads_encode_nested :
    let filter := Filter.logical (.ofFilters .or [.ofSelectors .and
      [⟨.gte, [("$or", .int (-5)), ("a", .object [("b\"", .wide ⟨10 ^ 20⟩), ("c", .null)])]⟩]])
    let text := "\x7b\"$or\":[\x7b\"$and\":[\x7b\"$or\":\x7b\"$gte\":-5\x7d,\"a.b\\\"\":" ++
      "\x7b\"$gte\":100000000000000000000\x7d,\"a.c\":\x7b\"$gte\":null\x7d\x7d]\x7d]\x7d"
    filter.encode = .ok text ∧ ∃ tree, filter.Spells tree ∧ tree.NamesDistinct ∧
      ∀ json, Json.Reads text json ↔ json = tree :=
  ⟨rfl, reads_encode_iff rfl⟩

end DocWire
