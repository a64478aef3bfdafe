import DocWire.Proofs.Filter.Wire
import DocWire.Proofs.Filter.Payload

/-!
# Filters of one text

Filters are alike when they differ in spelling alone: the same operators over the same kinds of
children in the same order, down to selectors with the same leaf paths and the same scalars for
them. A text determines the filter that it encodes up to this, whatever its names and strings hold.
Main statement: `encode_eq_iff`.
-/
set_option autoImplicit false

namespace DocWire

/-- Two leaves of one path that are compared with the same scalar. -/
inductive Fields.AlikeLeaf : String × Value → String × Value → Prop
  | mk {path : String} {value other : Value} {scalar : Json}
      (hv : value.wire .selector path = .ok scalar) (ho : other.wire .selector path = .ok scalar) :
      Fields.AlikeLeaf (path, value) (path, other)

structure Selector.Alike (s t : Selector) : Prop where
  op_eq : s.op = t.op
  leaves : List.Forall₂ Fields.AlikeLeaf s.fields.dotted t.fields.dotted

mutual
inductive LogicalFilter.Alike : LogicalFilter → LogicalFilter → Prop
  | ofSelectors {op : Connective} {children others : List Selector}
      (h : List.Forall₂ Selector.Alike children others) :
      LogicalFilter.Alike (.ofSelectors op children) (.ofSelectors op others)
  | ofFilters {op : Connective} {children others : List LogicalFilter}
      (h : LogicalFilter.AlikeAll children others) :
      LogicalFilter.Alike (.ofFilters op children) (.ofFilters op others)

inductive LogicalFilter.AlikeAll : List LogicalFilter → List LogicalFilter → Prop
  | nil : LogicalFilter.AlikeAll [] []
  | cons {l m : LogicalFilter} {children others : List LogicalFilter}
      (h : LogicalFilter.Alike l m) (hr : LogicalFilter.AlikeAll children others) :
      LogicalFilter.AlikeAll (l :: children) (m :: others)
end

inductive Filter.Alike : Filter → Filter → Prop
  | selector {s t : Selector} (h : s.Alike t) : Filter.Alike (.selector s) (.selector t)
  | logical {l m : LogicalFilter} (h : l.Alike m) : Filter.Alike (.logical l) (.logical m)

/-! ## One tree comes from filters that are alike -/

theorem Comparison.keyword?_injective {op other : Comparison} (h : op.keyword? = other.keyword?) :
    op = other := by
  cases op <;> cases other <;> first | rfl | exact absurd h (by decide)

theorem Connective.keyword_injective {op other : Connective} (h : op.keyword = other.keyword) :
    op = other := by
  cases op <;> cases other <;> first | rfl | exact absurd h (by decide)

/-- A comparison can be told from its operand, for no scalar is an object. -/
theorem Comparison.compare_injective {op other : Comparison} {a b : Json}
    (ha : ∀ members, a ≠ .object members) (hb : ∀ members, b ≠ .object members)
    (h : op.compare a = other.compare b) : op = other ∧ a = b := by
  unfold compare at h
  cases hop : op.keyword? with
  | none =>
    cases hother : other.keyword? with
    | none =>
      rw [hop, hother] at h
      exact ⟨keyword?_injective (hop.trans hother.symm), h⟩
    | some keyword =>
      rw [hop, hother] at h
      exact absurd h (ha _)
  | some keyword =>
    cases hother : other.keyword? with
    | none =>
      rw [hop, hother] at h
      exact absurd h.symm (hb _)
    | some keyword' =>
      rw [hop, hother] at h
      have hm := List.cons.inj (Json.object.inj h)
      obtain ⟨rfl, rfl⟩ := Prod.mk.inj hm.1
      exact ⟨keyword?_injective (hop.trans hother.symm), rfl⟩

theorem Value.Spells.ne_object {value : Value} {scalar : Json} (h : value.Spells scalar)
    (members : Entries Json) : scalar ≠ .object members := by
  cases h <;> exact Json.noConfusion

namespace Selector

theorem alikeLeaves_of_wireLeaves {op other : Comparison} {leaves others : Fields}
    {members : Entries Json} (hf : leaves.Flat) (hg : others.Flat)
    (h : wireLeaves op leaves = .ok members) (ho : wireLeaves other others = .ok members) :
    (leaves ≠ [] → op = other) ∧ List.Forall₂ Fields.AlikeLeaf leaves others := by
  induction leaves generalizing others members with
  | nil =>
    cases h
    cases others with
    | nil => exact ⟨fun hne => absurd rfl hne, .nil⟩
    | cons leaf rest =>
      obtain ⟨json, -, ho⟩ := bind_eq_ok_iff.1 ho
      obtain ⟨tail, -, ho⟩ := bind_eq_ok_iff.1 ho
      cases ho
  | cons leaf rest ih =>
    obtain ⟨path, value⟩ := leaf
    obtain ⟨json, hj, h⟩ := bind_eq_ok_iff.1 h
    obtain ⟨tail, ht, h⟩ := bind_eq_ok_iff.1 h
    cases h
    cases others with
    | nil => cases ho
    | cons leaf' rest' =>
      obtain ⟨path', value'⟩ := leaf'
      obtain ⟨json', hj', ho⟩ := bind_eq_ok_iff.1 ho
      obtain ⟨tail', ht', ho⟩ := bind_eq_ok_iff.1 ho
      obtain ⟨hhead, rfl⟩ := List.cons.inj (Except.ok.inj ho)
      obtain ⟨rfl, hcompare⟩ := Prod.mk.inj hhead
      have hscalar := Value.spells_of_wire (hf _ (List.mem_cons_self ..)) hj
      have hscalar' := Value.spells_of_wire (hg _ (List.mem_cons_self ..)) hj'
      obtain ⟨rfl, rfl⟩ :=
        Comparison.compare_injective hscalar'.ne_object hscalar.ne_object hcompare
      have hrest := ih (fun leaf hl => hf leaf (List.mem_cons_of_mem _ hl))
        (fun leaf hl => hg leaf (List.mem_cons_of_mem _ hl)) ht ht'
      exact ⟨fun _ => rfl, .cons (.mk hj hj') hrest.2⟩

theorem flat_dotted {fields : Fields} (h : fields.WellShaped) : fields.dotted.Flat :=
  Fields.notObject_of_leaves (Fields.leaves_eq_ok_iff.2 ⟨h, rfl⟩)

theorem alike_of_wire {s t : Selector} {json : Json} (hs : s.wire = .ok json)
    (ht : t.wire = .ok json) : s.Alike t := by
  obtain ⟨hne, hw, members, hm, rfl⟩ := wire_eq_ok_iff.1 hs
  obtain ⟨-, hw', members', hm', he⟩ := wire_eq_ok_iff.1 ht
  obtain rfl := Json.object.inj he
  obtain ⟨hop, hleaves⟩ := alikeLeaves_of_wireLeaves (flat_dotted hw) (flat_dotted hw') hm hm'
  have hleaf := Fields.leaves_ne_nil hne (Fields.leaves_eq_ok_iff.2 ⟨hw, rfl⟩)
  exact ⟨hop hleaf, hleaves⟩

theorem alike_of_wireAll {children others : List Selector} {items : List Json}
    (h : wireAll children = .ok items) (ho : wireAll others = .ok items) :
    List.Forall₂ Selector.Alike children others := by
  induction children generalizing others items with
  | nil =>
    cases h
    cases others with
    | nil => exact .nil
    | cons t rest =>
      obtain ⟨item, tail, -, -, he⟩ := wireAll_cons_eq_ok_iff.1 ho
      cases he
  | cons s rest ih =>
    obtain ⟨item, tail, hi, ht, rfl⟩ := wireAll_cons_eq_ok_iff.1 h
    cases others with
    | nil => cases ho
    | cons t rest' =>
      obtain ⟨item', tail', hi', ht', he⟩ := wireAll_cons_eq_ok_iff.1 ho
      obtain ⟨rfl, rfl⟩ := List.cons.inj he
      exact .cons (alike_of_wire hi hi') (ih ht ht')

/-- The members of a selector's tree hold no array, and that of a logical filter's tree does. -/
theorem wire_ne_wireAt {s : Selector} {level : Nat} {l : LogicalFilter} {json : Json}
    (hs : s.wire = .ok json) (hl : l.wireAt level = .ok json) : False := by
  have hlogical : ∃ keyword items, json = .object [(keyword, .array items)] := by
    cases LogicalFilter.spells_of_wireAt level l json hl with
    | ofSelectors hk hc => exact ⟨_, _, rfl⟩
    | ofFilters hk hc => exact ⟨_, _, rfl⟩
  obtain ⟨keyword, items, rfl⟩ := hlogical
  cases spells_of_wire hs with
  | mk hl hm => exact Comparison.notArray_of_leaves hm _ (List.mem_singleton_self _) items rfl

/-- Selectors and logical filters are not written as the same items, if there are items at all. -/
theorem wireAll_ne_wireFilters {children : List Selector} {level : Nat}
    {others : List LogicalFilter} {items : List Json} (hne : children ≠ [])
    (h : wireAll children = .ok items) (ho : LogicalFilter.wireFilters level others = .ok items) :
    False := by
  obtain ⟨s, rest, rfl⟩ := List.exists_cons_of_ne_nil hne
  obtain ⟨item, tail, hi, -, rfl⟩ := wireAll_cons_eq_ok_iff.1 h
  cases others with
  | nil => cases ho
  | cons l rest' =>
    obtain ⟨item', tail', hi', -, he⟩ := LogicalFilter.wireFilters_cons_eq_ok_iff.1 ho
    obtain ⟨rfl, rfl⟩ := List.cons.inj he
    exact wire_ne_wireAt hi hi'

end Selector

namespace LogicalFilter

theorem keyword_and_items {op other : Connective} {items items' : List Json}
    (h : Json.object [(op.keyword, .array items)] = .object [(other.keyword, .array items')]) :
    op = other ∧ items = items' := by
  obtain ⟨hk, hi⟩ := Prod.mk.inj (List.cons.inj (Json.object.inj h)).1
  exact ⟨Connective.keyword_injective hk, Json.array.inj hi⟩

mutual
theorem alike_of_wireAt (level level' : Nat) (l m : LogicalFilter) (json : Json)
    (h : wireAt level l = .ok json) (ho : wireAt level' m = .ok json) : l.Alike m := by
  match l, m with
  | .ofSelectors op children, .ofSelectors op' others =>
    obtain ⟨-, -, items, hi, rfl⟩ := wireAt_ofSelectors_eq_ok_iff.1 h
    obtain ⟨-, -, items', hi', he⟩ := wireAt_ofSelectors_eq_ok_iff.1 ho
    obtain ⟨rfl, rfl⟩ := keyword_and_items he
    exact .ofSelectors (Selector.alike_of_wireAll hi hi')
  | .ofFilters op children, .ofFilters op' others =>
    obtain ⟨-, -, items, hi, rfl⟩ := wireAt_ofFilters_eq_ok_iff.1 h
    obtain ⟨-, -, items', hi', he⟩ := wireAt_ofFilters_eq_ok_iff.1 ho
    obtain ⟨rfl, rfl⟩ := keyword_and_items he
    exact .ofFilters (alike_of_wireFilters (level + 1) (level' + 1) children others items hi hi')
  | .ofSelectors op children, .ofFilters op' others =>
    obtain ⟨-, hne, items, hi, rfl⟩ := wireAt_ofSelectors_eq_ok_iff.1 h
    obtain ⟨-, -, items', hi', he⟩ := wireAt_ofFilters_eq_ok_iff.1 ho
    obtain ⟨rfl, rfl⟩ := keyword_and_items he
    exact (Selector.wireAll_ne_wireFilters hne hi hi').elim
  | .ofFilters op children, .ofSelectors op' others =>
    obtain ⟨-, -, items, hi, rfl⟩ := wireAt_ofFilters_eq_ok_iff.1 h
    obtain ⟨-, hne, items', hi', he⟩ := wireAt_ofSelectors_eq_ok_iff.1 ho
    obtain ⟨rfl, rfl⟩ := keyword_and_items he
    exact (Selector.wireAll_ne_wireFilters hne hi' hi).elim
termination_by structural l

theorem alike_of_wireFilters (level level' : Nat) (children others : List LogicalFilter)
    (items : List Json) (h : wireFilters level children = .ok items)
    (ho : wireFilters level' others = .ok items) : AlikeAll children others := by
  match children, others with
  | [], [] => exact .nil
  | [], m :: rest' =>
    unfold wireFilters at h
    cases h
    obtain ⟨item, tail, -, -, he⟩ := wireFilters_cons_eq_ok_iff.1 ho
    cases he
  | l :: rest, [] =>
    unfold wireFilters at ho
    cases ho
    obtain ⟨item, tail, -, -, he⟩ := wireFilters_cons_eq_ok_iff.1 h
    cases he
  | l :: rest, m :: rest' =>
    obtain ⟨item, tail, hi, ht, rfl⟩ := wireFilters_cons_eq_ok_iff.1 h
    obtain ⟨item', tail', hi', ht', he⟩ := wireFilters_cons_eq_ok_iff.1 ho
    obtain ⟨rfl, rfl⟩ := List.cons.inj he
    exact .cons (alike_of_wireAt level level' l m item hi hi')
      (alike_of_wireFilters level level' rest rest' tail ht ht')
termination_by structural children
end

end LogicalFilter

theorem Filter.alike_of_wire {filter other : Filter} {json : Json} (h : filter.wire = .ok json)
    (ho : other.wire = .ok json) : filter.Alike other := by
  match filter, other with
  | .selector s, .selector t => exact .selector (Selector.alike_of_wire h ho)
  | .logical l, .logical m => exact .logical (LogicalFilter.alike_of_wireAt 1 1 l m json h ho)
  | .selector s, .logical m => exact (Selector.wire_ne_wireAt h ho).elim
  | .logical l, .selector t => exact (Selector.wire_ne_wireAt ho h).elim

/-! ## Filters that are alike have one tree -/

namespace Selector

theorem wireLeaves_congr {op : Comparison} {leaves others : Fields} {members members' : Entries Json}
    (hl : List.Forall₂ Fields.AlikeLeaf leaves others) (h : wireLeaves op leaves = .ok members)
    (h' : wireLeaves op others = .ok members') : members = members' := by
  induction hl generalizing members members' with
  | nil =>
    cases h
    cases h'
    rfl
  | cons hleaf hrest ih =>
    cases hleaf with
    | mk hv ho =>
      obtain ⟨json, hj, h⟩ := bind_eq_ok_iff.1 h
      obtain ⟨tail, ht, h⟩ := bind_eq_ok_iff.1 h
      obtain ⟨json', hj', h'⟩ := bind_eq_ok_iff.1 h'
      obtain ⟨tail', ht', h'⟩ := bind_eq_ok_iff.1 h'
      cases h
      cases h'
      rw [hv, Except.ok.injEq] at hj
      rw [ho, Except.ok.injEq] at hj'
      rw [← hj, ← hj', ih ht ht']

theorem Alike.wire_congr {s t : Selector} {json json' : Json} (ha : s.Alike t)
    (h : s.wire = .ok json) (h' : t.wire = .ok json') : json = json' := by
  obtain ⟨-, -, members, hm, rfl⟩ := wire_eq_ok_iff.1 h
  obtain ⟨-, -, members', hm', rfl⟩ := wire_eq_ok_iff.1 h'
  rw [← ha.op_eq] at hm'
  rw [wireLeaves_congr ha.leaves hm hm']

theorem wireAll_congr {children others : List Selector} {items items' : List Json}
    (ha : List.Forall₂ Selector.Alike children others) (h : wireAll children = .ok items)
    (h' : wireAll others = .ok items') : items = items' := by
  induction ha generalizing items items' with
  | nil =>
    cases h
    cases h'
    rfl
  | cons hs hr ih =>
    obtain ⟨item, tail, hi, ht, rfl⟩ := wireAll_cons_eq_ok_iff.1 h
    obtain ⟨item', tail', hi', ht', rfl⟩ := wireAll_cons_eq_ok_iff.1 h'
    rw [hs.wire_congr hi hi', ih ht ht']

end Selector

namespace LogicalFilter

mutual
theorem Alike.wireAt_congr {l m : LogicalFilter} {level level' : Nat} {json json' : Json}
    (ha : l.Alike m) (h : wireAt level l = .ok json) (h' : wireAt level' m = .ok json') :
    json = json' := by
  cases ha with
  | ofSelectors hc =>
    obtain ⟨-, -, items, hi, rfl⟩ := wireAt_ofSelectors_eq_ok_iff.1 h
    obtain ⟨-, -, items', hi', rfl⟩ := wireAt_ofSelectors_eq_ok_iff.1 h'
    rw [Selector.wireAll_congr hc hi hi']
  | ofFilters hc =>
    obtain ⟨-, -, items, hi, rfl⟩ := wireAt_ofFilters_eq_ok_iff.1 h
    obtain ⟨-, -, items', hi', rfl⟩ := wireAt_ofFilters_eq_ok_iff.1 h'
    rw [hc.wireFilters_congr hi hi']

theorem AlikeAll.wireFilters_congr {children others : List LogicalFilter} {level level' : Nat}
    {items items' : List Json} (ha : AlikeAll children others)
    (h : wireFilters level children = .ok items) (h' : wireFilters level' others = .ok items') :
    items = items' := by
  cases ha with
  | nil =>
    unfold wireFilters at h h'
    cases h
    cases h'
    rfl
  | cons hl hr =>
    obtain ⟨item, tail, hi, ht, rfl⟩ := wireFilters_cons_eq_ok_iff.1 h
    obtain ⟨item', tail', hi', ht', rfl⟩ := wireFilters_cons_eq_ok_iff.1 h'
    rw [hl.wireAt_congr hi hi', hr.wireFilters_congr ht ht']
end

end LogicalFilter

theorem Filter.Alike.wire_congr {filter other : Filter} {json json' : Json} (ha : filter.Alike other)
    (h : filter.wire = .ok json) (h' : other.wire = .ok json') : json = json' := by
  cases ha with
  | selector hs => exact hs.wire_congr h h'
  | logical hl => exact hl.wireAt_congr h h'

/-- Filters have the same text exactly when they are alike. -/
theorem Filter.encode_eq_iff {filter other : Filter} {text text' : String}
    (h : filter.encode = .ok text) (h' : other.encode = .ok text') :
    text = text' ↔ filter.Alike other := by
  obtain ⟨json, hj, rfl⟩ := encode_eq_ok_iff.1 h
  obtain ⟨json', hj', rfl⟩ := encode_eq_ok_iff.1 h'
  constructor
  · intro htext
    -- A text reads as one value at most, so one text is one tree.
    have hread := Json.reads_text_iff (spells_of_wire hj').lexical
    rw [← htext] at hread
    have hself := (Json.reads_text_iff (spells_of_wire hj).lexical json).2 rfl
    obtain rfl := (hread json).1 hself
    exact alike_of_wire hj hj'
  · intro ha
    rw [ha.wire_congr hj hj']

/-- A nested name and a dotted one, an integer of either width, an identifier and its text. -/
theorem Filter.encode_eq_iff_nested :
    let filter := Filter.logical (.ofSelectors .or [⟨.gt, [("$and", .object [("$gt", .int 5)])]⟩,
      ⟨.eq, [("a\"", .uuid ⟨0⟩)]⟩])
    let other := Filter.logical (.ofSelectors .or [⟨.gt, [("$and.$gt", .uint 5)]⟩,
      ⟨.eq, [("a\"", .string "00000000-0000-0000-0000-000000000000")]⟩])
    let text := "\x7b\"$or\":[\x7b\"$and.$gt\":\x7b\"$gt\":5\x7d\x7d,\x7b\"a\\\"\":" ++
      "\"00000000-0000-0000-0000-000000000000\"\x7d]\x7d"
    filter.encode = .ok text ∧ other.encode = .ok text ∧ filter.Alike other := by
  intro filter other text
  have h : filter.encode = .ok text := rfl
  have h' : other.encode = .ok text := rfl
  exact ⟨h, h', (encode_eq_iff h h').1 rfl⟩

end DocWire
