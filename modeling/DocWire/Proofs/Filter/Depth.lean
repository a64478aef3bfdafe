import DocWire.Proofs.Filter.Domain
import DocWire.Proofs.Filter.Tree
import DocWire.Proofs.Json.Acceptance

/-!
# How deep the wire form of a filter nests

Every logical level is an object over an array, a selector is one object more, and every comparison
other than equality another one. So the level limit of the encoder lets filters through whose text
nests deeper than a reader goes. A selector must not open with the name that is reserved for numbers
either. Main statements: `depth_of_wire`, `plain_of_wire` and `encode_nesting`.
-/
set_option autoImplicit false

namespace DocWire

/-! ## Counting containers -/

namespace Selector

def containersAll (count : Selector → Nat) : List Selector → Nat
  | [] => 0
  | child :: rest => max (count child) (containersAll count rest)

end Selector

namespace LogicalFilter

mutual
/-- How many containers nest where a logical filter is an object over the array of its children, and
a selector has the given number of them. -/
def containers (count : Selector → Nat) : LogicalFilter → Nat
  | ofSelectors _ children => Selector.containersAll count children + 2
  | ofFilters _ children => containersAll count children + 2

def containersAll (count : Selector → Nat) : List LogicalFilter → Nat
  | [] => 0
  | child :: rest => max (containers count child) (containersAll count rest)
end

end LogicalFilter

def Filter.containers (count : Selector → Nat) : Filter → Nat
  | selector s => count s
  | logical l => l.containers count

/-! ## Containers and levels -/

section
variable {count : Selector → Nat} {low high : Nat}

theorem Selector.containersAll_bounds {children : List Selector} (hne : children ≠ [])
    (h : ∀ s ∈ children, low ≤ count s ∧ count s ≤ high) :
    low ≤ containersAll count children ∧ containersAll count children ≤ high := by
  induction children with
  | nil => exact absurd rfl hne
  | cons child rest ih =>
    obtain ⟨hc, hr⟩ := List.forall_mem_cons.1 h
    rw [containersAll]
    by_cases he : rest = []
    · subst he
      rw [containersAll]
      omega
    · have hrest := ih he hr
      omega

namespace LogicalFilter

mutual
theorem containers_bounds (filter : LogicalFilter) (hp : filter.Populated)
    (h : ∀ s ∈ filter.selectors, low ≤ count s ∧ count s ≤ high) :
    low + 2 * filter.levels ≤ filter.containers count ∧
      filter.containers count ≤ high + 2 * filter.levels := by
  match filter with
  | .ofSelectors op children =>
    have hc := Selector.containersAll_bounds hp h
    rw [containers, levels]
    omega
  | .ofFilters op children =>
    have hc := containersAll_bounds children hp.1 hp.2 h
    rw [containers, levels]
    omega
termination_by structural filter

theorem containersAll_bounds (filters : List LogicalFilter) (hne : filters ≠ [])
    (hp : AllPopulated filters) (h : ∀ s ∈ selectorsAll filters, low ≤ count s ∧ count s ≤ high) :
    low + 2 * levelsAll filters ≤ containersAll count filters ∧
      containersAll count filters ≤ high + 2 * levelsAll filters := by
  match filters with
  | [] => exact absurd rfl hne
  | filter :: rest =>
    obtain ⟨hs, hrs⟩ := List.forall_mem_append.1 h
    have hf := containers_bounds filter hp.1 hs
    rw [containersAll, levelsAll]
    by_cases hr : rest = []
    · subst hr
      rw [containersAll, levelsAll]
      omega
    · have hrest := containersAll_bounds rest hr hp.2 hrs
      omega
termination_by structural filters
end

/-- A logical filter below so many others, each with one child. -/
def wrapped (op : Connective) : Nat → LogicalFilter → LogicalFilter
  | 0, filter => filter
  | n + 1, filter => .ofFilters op [wrapped op n filter]

theorem containers_wrapped (op : Connective) (n : Nat) (filter : LogicalFilter) :
    (wrapped op n filter).containers count = filter.containers count + 2 * n := by
  induction n with
  | zero => rfl
  | succ n ih =>
    rw [wrapped, containers, containersAll, containersAll, ih]
    omega

theorem selectors_wrapped (op : Connective) (n : Nat) (filter : LogicalFilter) :
    (wrapped op n filter).selectors = filter.selectors := by
  induction n with
  | zero => rfl
  | succ n ih => rw [wrapped, selectors, selectorsAll, selectorsAll, List.append_nil, ih]

end LogicalFilter

/-- Every level counts two containers. -/
theorem Filter.containers_bounds {filter : Filter} (hp : filter.Populated)
    (h : ∀ s ∈ filter.selectors, low ≤ count s ∧ count s ≤ high) :
    low + 2 * filter.levels ≤ filter.containers count ∧
      filter.containers count ≤ high + 2 * filter.levels := by
  cases filter with
  | selector s => exact h s (List.mem_singleton_self s)
  | logical l => exact l.containers_bounds hp h

end

/-! ## Selectors on the wire -/

/-- How many containers a comparison puts around a scalar. -/
def Comparison.containers : Comparison → Nat
  | eq => 0
  | gt => 1
  | gte => 1
  | lt => 1
  | lte => 1

/-- How many containers nest in the wire form of a selector. -/
def Selector.wireContainers (s : Selector) : Nat := s.op.containers + 1

theorem Selector.wireContainers_bounds (s : Selector) :
    1 ≤ s.wireContainers ∧ s.wireContainers ≤ 2 := by
  unfold wireContainers
  cases s.op <;> decide

/-! ## The depth of the wire form -/

theorem Value.Spells.depth {value : Value} {scalar : Json} (h : value.Spells scalar) :
    scalar.depth = 0 := by
  cases h <;> rfl

theorem Comparison.Spells.depth {op : Comparison} {scalar operand : Json}
    (h : op.Spells scalar operand) (hs : scalar.depth = 0) : operand.depth = op.containers := by
  cases h <;> simp [Json.depth, Json.membersDepth, Comparison.containers, hs]

theorem Comparison.membersDepth_of_leaves {op : Comparison} {leaves : Fields} {members : Entries Json}
    (h : List.Forall₂ op.SpellsLeaf leaves members) (hne : leaves ≠ []) :
    Json.membersDepth members = op.containers := by
  induction h with
  | nil => exact absurd rfl hne
  | @cons leaf member leaves members hl hr ih =>
    cases hl with
    | mk hv ho =>
      have hdepth := ho.depth hv.depth
      rw [Json.membersDepth, hdepth]
      by_cases he : leaves = []
      · subst he
        cases hr
        simp [Json.membersDepth]
      · rw [ih he, Nat.max_self]

namespace Selector

theorem depth_of_wire {s : Selector} {json : Json} (h : s.wire = .ok json) :
    json.depth = s.wireContainers := by
  obtain ⟨hne, -⟩ := wire_eq_ok_iff.1 h
  cases spells_of_wire h with
  | mk hl hm =>
    have hleaves := Fields.leaves_ne_nil hne hl
    rw [Json.depth, Comparison.membersDepth_of_leaves hm hleaves, wireContainers]

theorem itemsDepth_of_wireAll {children : List Selector} {items : List Json}
    (h : wireAll children = .ok items) :
    Json.itemsDepth items = containersAll wireContainers children := by
  induction children generalizing items with
  | nil =>
    cases h
    rfl
  | cons child rest ih =>
    obtain ⟨item, others, hi, ho, rfl⟩ := wireAll_cons_eq_ok_iff.1 h
    rw [Json.itemsDepth, depth_of_wire hi, ih ho, containersAll]

end Selector

namespace LogicalFilter

mutual
theorem depth_of_wireAt (level : Nat) (filter : LogicalFilter) (json : Json)
    (h : wireAt level filter = .ok json) : json.depth = filter.containers Selector.wireContainers := by
  match filter with
  | .ofSelectors op children =>
    obtain ⟨-, -, items, hi, rfl⟩ := wireAt_ofSelectors_eq_ok_iff.1 h
    have hd := Selector.itemsDepth_of_wireAll hi
    simp [Json.depth, Json.membersDepth, hd, containers]
  | .ofFilters op children =>
    obtain ⟨-, -, items, hi, rfl⟩ := wireAt_ofFilters_eq_ok_iff.1 h
    have hd := itemsDepth_of_wireFilters (level + 1) children items hi
    simp [Json.depth, Json.membersDepth, hd, containers]
termination_by structural filter

theorem itemsDepth_of_wireFilters (level : Nat) (filters : List LogicalFilter) (items : List Json)
    (h : wireFilters level filters = .ok items) :
    Json.itemsDepth items = containersAll Selector.wireContainers filters := by
  match filters with
  | [] =>
    cases h
    rfl
  | filter :: rest =>
    obtain ⟨item, others, hi, ho, rfl⟩ := wireFilters_cons_eq_ok_iff.1 h
    have hitem := depth_of_wireAt level filter item hi
    have hrest := itemsDepth_of_wireFilters level rest others ho
    rw [Json.itemsDepth, hitem, hrest, containersAll]
termination_by structural filters
end

end LogicalFilter

/-! ## The reserved name -/

/-- The first leaf does not have the reserved name. -/
def Selector.Unreserved (s : Selector) : Prop :=
  ∀ leaves, s.fields.leaves = .ok leaves → (Entries.keys leaves).head? ≠ some Json.numberName

theorem Value.Spells.plain {value : Value} {scalar : Json} (h : value.Spells scalar) :
    scalar.Plain := by
  cases h <;> trivial

theorem Comparison.Spells.plain {op : Comparison} {scalar operand : Json} (h : op.Spells scalar operand)
    (hs : scalar.Plain) : operand.Plain := by
  cases h with
  | eq => exact hs
  | gt | gte | lt | lte => exact ⟨Json.isWrapped_eq_false (by decide) scalar [], hs, trivial⟩

theorem Comparison.membersPlain_of_leaves {op : Comparison} {leaves : Fields} {members : Entries Json}
    (h : List.Forall₂ op.SpellsLeaf leaves members) :
    Json.MembersPlain members ∧ Entries.keys members = Entries.keys leaves := by
  induction h with
  | nil => exact ⟨trivial, rfl⟩
  | cons hl hr ih =>
    cases hl with
    | @mk path value scalar operand hv ho =>
      exact ⟨⟨ho.plain hv.plain, ih.1⟩, congrArg (path :: ·) ih.2⟩

theorem Selector.plain_of_wire {s : Selector} (hs : s.Unreserved) {json : Json}
    (h : s.wire = .ok json) : json.Plain := by
  cases spells_of_wire h with
  | mk hl hm =>
    obtain ⟨hplain, hkeys⟩ := Comparison.membersPlain_of_leaves hm
    refine ⟨?_, hplain⟩
    rw [Json.isWrapped, hkeys]
    exact decide_eq_false (hs _ hl)

theorem Selector.itemsPlain_of_wireAll {children : List Selector}
    (hs : ∀ s ∈ children, s.Unreserved) {items : List Json} (h : wireAll children = .ok items) :
    Json.ItemsPlain items := by
  induction children generalizing items with
  | nil =>
    cases h
    trivial
  | cons child rest ih =>
    obtain ⟨hchild, hrest⟩ := List.forall_mem_cons.1 hs
    obtain ⟨item, others, hi, ho, rfl⟩ := wireAll_cons_eq_ok_iff.1 h
    exact ⟨plain_of_wire hchild hi, ih hrest ho⟩

theorem Connective.keyword_ne_numberName (op : Connective) : op.keyword ≠ Json.numberName := by
  cases op <;> decide

namespace LogicalFilter

mutual
theorem plain_of_wireAt (level : Nat) (filter : LogicalFilter)
    (hs : ∀ s ∈ filter.selectors, s.Unreserved) (json : Json) (h : wireAt level filter = .ok json) :
    json.Plain := by
  match filter with
  | .ofSelectors op children =>
    obtain ⟨-, -, items, hi, rfl⟩ := wireAt_ofSelectors_eq_ok_iff.1 h
    exact ⟨Json.isWrapped_eq_false op.keyword_ne_numberName _ [],
      Selector.itemsPlain_of_wireAll hs hi, trivial⟩
  | .ofFilters op children =>
    obtain ⟨-, -, items, hi, rfl⟩ := wireAt_ofFilters_eq_ok_iff.1 h
    exact ⟨Json.isWrapped_eq_false op.keyword_ne_numberName _ [],
      itemsPlain_of_wireFilters (level + 1) children hs items hi, trivial⟩
termination_by structural filter

theorem itemsPlain_of_wireFilters (level : Nat) (filters : List LogicalFilter)
    (hs : ∀ s ∈ selectorsAll filters, s.Unreserved) (items : List Json)
    (h : wireFilters level filters = .ok items) : Json.ItemsPlain items := by
  match filters with
  | [] =>
    cases h
    trivial
  | filter :: rest =>
    obtain ⟨hfilter, hrest⟩ := List.forall_mem_append.1 hs
    obtain ⟨item, others, hi, ho, rfl⟩ := wireFilters_cons_eq_ok_iff.1 h
    exact ⟨plain_of_wireAt level filter hfilter item hi,
      itemsPlain_of_wireFilters level rest hrest others ho⟩
termination_by structural filters
end

end LogicalFilter

namespace Filter

theorem plain_of_wire {filter : Filter} (hs : ∀ s ∈ filter.selectors, s.Unreserved) {json : Json}
    (h : filter.wire = .ok json) : json.Plain := by
  cases filter with
  | selector s => exact Selector.plain_of_wire (hs s (List.mem_singleton_self s)) h
  | logical l => exact LogicalFilter.plain_of_wireAt 1 l hs json h

theorem depth_of_wire {filter : Filter} {json : Json} (h : filter.wire = .ok json) :
    json.depth = filter.containers Selector.wireContainers := by
  cases filter with
  | selector s => exact Selector.depth_of_wire h
  | logical l => exact LogicalFilter.depth_of_wireAt 1 l json h

/-- The text of a wire form can be read only if there are not too many containers in it. Without the
reserved name this is enough. -/
theorem ofText_wire {filter : Filter} {tree : Json} (h : filter.wire = .ok tree) (json : Json) :
    (Json.ofText tree.text = .ok json →
      filter.containers Selector.wireContainers ≤ Json.maxDepth) ∧
    ((∀ s ∈ filter.selectors, s.Unreserved) → (Json.ofText tree.text = .ok json ↔
      filter.containers Selector.wireContainers ≤ Json.maxDepth ∧ json = tree.kept)) := by
  have hs := spells_of_wire h
  have hreads := (Json.reads_text_iff hs.lexical tree).2 rfl
  rw [Json.ofText_eq_ok_iff hreads, depth_of_wire h]
  refine ⟨And.left, fun hu => and_congr_right fun _ => ?_⟩
  simp only [(plain_of_wire hu h).unwraps_iff, exists_eq_left]

/-- The text of an encoded filter nests two containers for each level and one or two for a selector,
so at most 130. As long as no selector opens with the reserved name, it can be read exactly if these are
at most 127, which is so for every filter of 62 levels or fewer. It can be read for none of 64. -/
theorem encode_nesting {filter : Filter} {text : String} (h : filter.encode = .ok text) :
    (∃ tree, (∀ json, Json.Reads text json ↔ json = tree) ∧
      tree.depth = filter.containers Selector.wireContainers ∧
      ((∀ s ∈ filter.selectors, s.Unreserved) →
        ∀ json, Json.ofText text = .ok json ↔ tree.depth ≤ 127 ∧ json = tree.kept)) ∧
    1 + 2 * filter.levels ≤ filter.containers Selector.wireContainers ∧
    filter.containers Selector.wireContainers ≤ 2 + 2 * filter.levels ∧
    filter.containers Selector.wireContainers ≤ 130 ∧
    ((∀ s ∈ filter.selectors, s.Unreserved) → filter.levels ≤ 62 →
      ∃ json, Json.ofText text = .ok json) ∧
    (filter.levels = 64 → ∀ json, Json.ofText text ≠ .ok json) := by
  obtain ⟨tree, ht, rfl⟩ := wire_of_encode h
  have hs := spells_of_wire ht
  have henc : filter.Encodable := filter.wire_isOk_iff.1 ⟨tree, ht⟩
  have hlevels := henc.levels_le
  obtain ⟨hlow, hhigh⟩ := containers_bounds henc.populated fun s _ => s.wireContainers_bounds
  have hdepth := depth_of_wire ht
  have hread : (∀ s ∈ filter.selectors, s.Unreserved) →
      ∀ json, Json.ofText tree.text = .ok json ↔ tree.depth ≤ 127 ∧ json = tree.kept := by
    intro hu json
    rw [hdepth]
    exact (ofText_wire ht json).2 hu
  refine ⟨⟨tree, fun json => Json.reads_text_iff hs.lexical json, hdepth, hread⟩, hlow, hhigh, by omega,
    ?_, ?_⟩
  · intro hu hfew
    exact ⟨tree.kept, (hread hu _).2 ⟨by omega, rfl⟩⟩
  · intro hmany json hj
    have hle : filter.containers Selector.wireContainers ≤ 127 := (ofText_wire ht json).1 hj
    omega

/-- Two levels over a comparison are six containers. -/
theorem encode_nesting_two_levels :
    let filter := Filter.logical (.ofFilters .or [.ofSelectors .and [⟨.gte, [("a", .int 1)]⟩]])
    let text := "\x7b\"$or\":[\x7b\"$and\":[\x7b\"a\":\x7b\"$gte\":1\x7d\x7d]\x7d]\x7d"
    filter.encode = .ok text ∧ (∃ tree, Json.Reads text tree ∧ tree.depth = 6) ∧
      ∃ json, Json.ofText text = .ok json := by
  intro filter text
  have h : filter.encode = .ok text := rfl
  have hu : ∀ s ∈ filter.selectors, s.Unreserved := by
    intro s hs leaves hl
    obtain rfl := List.mem_singleton.1 hs
    cases hl
    decide
  obtain ⟨⟨tree, hreads, hdepth, -⟩, -, -, -, hfew, -⟩ := encode_nesting h
  exact ⟨h, ⟨tree, (hreads tree).2 rfl, hdepth⟩, hfew hu (by decide)⟩

/-- A filter of 64 levels is encoded in 129 containers and cannot be read back. -/
theorem encode_unreadable :
    let filter := Filter.logical (.wrapped .and 63 (.ofSelectors .and [⟨.eq, [("a", .null)]⟩]))
    ∃ text, filter.encode = .ok text ∧ (∃ tree, Json.Reads text tree ∧ tree.depth = 129) ∧
      ∀ json, Json.ofText text ≠ .ok json := by
  intro filter
  have hcount : filter.containers Selector.wireContainers = 129 :=
    LogicalFilter.containers_wrapped .and 63 _
  obtain ⟨tree, hw⟩ : ∃ tree, filter.wire = .ok tree := exists_ok_of_isOk (by decide +kernel)
  have hs := spells_of_wire hw
  have hreads := (Json.reads_text_iff hs.lexical tree).2 rfl
  refine ⟨tree.text, encode_eq_ok_iff.2 ⟨tree, hw, rfl⟩, ⟨tree, hreads, ?_⟩, ?_⟩
  · rw [depth_of_wire hw, hcount]
  · intro json hj
    have hle := (ofText_wire hw json).1 hj
    rw [hcount] at hle
    exact absurd hle (by decide)

end Filter
end DocWire
