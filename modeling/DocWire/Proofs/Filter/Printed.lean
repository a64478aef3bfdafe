import DocWire.Proofs.Filter.Depth
import DocWire.Proofs.Filter.Source
import DocWire.Proofs.Value.Kept
import DocWire.Proofs.Value.Received

/-!
# Filters printed as source

`Filter.source` writes a filter the way a reader of filters takes it. The reader makes the filter of
it again; but the text of it nests two containers for each level as well, and deep filters do not get
past the reader of JSON. Nor do filters in which an object of fields opens with the name that is
reserved for numbers. Main statements: `ofJson_source`, `plain_source_iff` and `parse_source`.
-/
set_option autoImplicit false

namespace DocWire

/-! ## Printing -/

namespace Selector

def sourceMembers (s : Selector) : Entries Json :=
  [("op", .string s.op.name), ("fields", .object (Value.fieldTrees s.fields))]

/-- How many containers nest in the source of a selector. -/
def sourceContainers (s : Selector) : Nat := s.fields.mapDepth + 1

end Selector

namespace LogicalFilter

mutual
def sourceMembers : LogicalFilter → Entries Json
  | ofSelectors op children =>
    [("op", .string op.name),
      ("selectorFilters", .array (children.map fun child => .object child.sourceMembers))]
  | ofFilters op children =>
    [("op", .string op.name), ("logicalFilters", .array (sourceItems children))]

def sourceItems : List LogicalFilter → List Json
  | [] => []
  | child :: rest => .object (sourceMembers child) :: sourceItems rest
end

end LogicalFilter

/-- The JSON that a filter is the reading of. -/
def Filter.source : Filter → Json
  | selector s => .object s.sourceMembers
  | logical l => .object l.sourceMembers

/-! ## Literals -/

namespace Value

/-- A value that is read from its own JSON: null, a boolean, a string, or an integer in the variant
that a reader picks for it. -/
inductive Literal : Value → Prop
  | null : Literal null
  | bool (b : Bool) : Literal (bool b)
  | string (s : String) : Literal (string s)
  | integer (n : Int) : Literal (ofInteger n)

/-- What is the same before it was sent and after, as far as a reader is concerned. -/
structure Steadfast (value : Value) : Prop where
  received_eq : value.received = value
  finite : value.Finite
  depth_eq : value.tree.depth = value.mapDepth

theorem Literal.steadfast {value : Value} (h : value.Literal) : value.Steadfast := by
  cases h with
  | null | bool _ | string _ => exact ⟨rfl, by simp [finite_of_scalar], rfl⟩
  | integer n =>
    have hw : wireAt .update "" 0 (ofInteger n) = .ok (.ofInt n) := by
      rw [wireAt_of_integer? (integer?_ofInteger n)]
      rfl
    have hdepth : (ofInteger n).mapDepth = 0 := by
      unfold ofInteger ofUnsigned
      split
      · rfl
      · split <;> rfl
    refine ⟨received_of_integer? (integer?_ofInteger n), finite_of_wireAt hw, ?_⟩
    rw [tree_of_wireAt hw, hdepth]
    rfl

mutual
theorem steadfast_of_dotted (path : String) (value : Value)
    (h : ∀ leaf ∈ value.dotted path, leaf.2.Literal) : value.Steadfast := by
  match value with
  | .object fields =>
    obtain ⟨hr, hf, hd⟩ := steadfast_of_fieldsDotted (some path) fields h
    refine ⟨by rw [received, hr], (finite_object_iff fields).2 hf, ?_⟩
    rw [tree, Json.depth, hd, mapDepth]
  | .null | .bool _ | .int _ | .uint _ | .float _ | .wide _ | .string _ | .instant _ | .uuid _
  | .array _ => exact (h _ (List.mem_singleton_self _)).steadfast
termination_by structural value

theorem steadfast_of_fieldsDotted (parent? : Option String) (fields : List (String × Value))
    (h : ∀ leaf ∈ fieldsDotted parent? fields, leaf.2.Literal) :
    receivedFields fields = fields ∧ (∀ field ∈ fields, field.2.Finite) ∧
      Json.membersDepth (fieldTrees fields) = fieldsMapDepth fields := by
  match fields with
  | [] => exact ⟨rfl, fun field hf => absurd hf List.not_mem_nil, rfl⟩
  | (name, value) :: rest =>
    obtain ⟨hv, hrest⟩ := List.forall_mem_append.1 h
    have hvalue := steadfast_of_dotted (childPath parent? name) value hv
    obtain ⟨hr, hf, hd⟩ := steadfast_of_fieldsDotted parent? rest hrest
    refine ⟨?_, List.forall_mem_cons.2 ⟨hvalue.finite, hf⟩, ?_⟩
    · rw [receivedFields, hvalue.received_eq, hr]
    · rw [fieldTrees, Json.membersDepth, hvalue.depth_eq, hd, fieldsMapDepth]
termination_by structural fields
end

end Value

/-! ## Printed values -/

namespace Json

/-- A value that a reader keeps as it is, and how many containers nest in it. -/
structure Printed (json : Json) (containers : Nat) : Prop where
  lexical : json.Lexical
  kept_eq : json.kept = json
  depth_eq : json.depth = containers

structure ItemsPrinted (items : List Json) (containers : Nat) : Prop where
  lexical : ItemsLexical items
  kept_eq : keptItems items = items
  depth_eq : itemsDepth items = containers

theorem ItemsPrinted.nil : ItemsPrinted [] 0 := ⟨trivial, rfl, rfl⟩

theorem ItemsPrinted.cons {item : Json} {items : List Json} {n m : Nat} (h : item.Printed n)
    (hi : ItemsPrinted items m) : ItemsPrinted (item :: items) (max n m) := by
  refine ⟨⟨h.lexical, hi.lexical⟩, ?_, ?_⟩
  · rw [keptItems, h.kept_eq, hi.kept_eq]
  · rw [itemsDepth, h.depth_eq, hi.depth_eq]

/-! ### Members of a filter

The members are an operator and, under another name, fields or children. -/

theorem kept_members (op : String) {key : String} (hk : "op" ≠ key) (json : Json) :
    (object [("op", string op), (key, json)]).kept = object [("op", string op), (key, json.kept)] := by
  have hdist : Entries.Distinct [("op", string op), (key, json.kept)] := by
    simp [Entries.Distinct, hk]
  rw [kept, keptMembers, keptMembers, kept, keptMembers, Entries.ofList_of_distinct hdist]

theorem plain_members_iff (op key : String) (json : Json) :
    (object [("op", string op), (key, json)]).Plain ↔ json.Plain := by
  simp [Plain, MembersPlain, isWrapped_eq_false (show "op" ≠ numberName by decide)]

theorem Unwraps.of_members {op key : String} {json plain : Json}
    (h : Unwraps (.object [("op", .string op), (key, json)]) plain) :
    ∃ other, json.Unwraps other ∧ plain = .object [("op", .string op), (key, other)] := by
  rcases h.of_object with ⟨-, others, hm, rfl⟩ | ⟨text, -, hm, -⟩
  · obtain ⟨first, others, hfirst, hrest, rfl⟩ := hm.of_cons
    obtain ⟨other, none, ho, hnone, rfl⟩ := hrest.of_cons
    cases hfirst
    cases hnone
    exact ⟨other, ho, rfl⟩
  · simp at hm

/-- The object over an operator and a list of children. -/
theorem ItemsPrinted.level {items : List Json} {n : Nat} (h : ItemsPrinted items n) (op key : String)
    (hk : "op" ≠ key) : (object [("op", string op), (key, array items)]).Printed (n + 2) := by
  refine ⟨⟨trivial, h.lexical, trivial⟩, ?_, ?_⟩
  · rw [kept_members op hk, kept, h.kept_eq]
  · simp [depth, membersDepth, h.depth_eq]

theorem Printed.namesDistinct {json : Json} {n : Nat} (h : json.Printed n) : json.NamesDistinct := by
  have hd := namesDistinct_kept json
  rwa [h.kept_eq] at hd

end Json

/-! ## Selectors -/

/-- A name in lower case without a dollar sign spells itself. -/
theorem Comparison.spellsName (op : Comparison) : SpellsName op.name op.name := by
  refine ⟨0, op.name.toList, rfl, ?_⟩
  cases op <;> decide

theorem Connective.spellsName (op : Connective) : SpellsName op.name op.name := by
  refine ⟨0, op.name.toList, rfl, ?_⟩
  cases op <;> decide

namespace Selector

/-- A selector that its source can say: its fields have different names, its leaves are literals. -/
structure Literal (s : Selector) : Prop where
  names : (Value.object s.fields).NamesDistinct
  leaves : ∀ leaf ∈ s.fields.dotted, leaf.2.Literal

theorem printed_source {s : Selector} (h : s.Literal) :
    (Json.object s.sourceMembers).Printed s.sourceContainers := by
  obtain ⟨-, hfin, hdepth⟩ := Value.steadfast_of_fieldsDotted none s.fields h.leaves
  have hk := Value.kept_tree (.object s.fields) h.names ((Value.finite_object_iff s.fields).2 hfin)
  rw [Value.tree] at hk
  refine ⟨⟨trivial, Value.lexical_fieldTrees s.fields hfin, trivial⟩, ?_, ?_⟩
  · rw [sourceMembers, Json.kept_members s.op.name (by decide), hk]
  · simp [sourceMembers, sourceContainers, Json.depth, Json.membersDepth, hdepth, Fields.mapDepth]

theorem printed_sourceItems {children : List Selector} (h : ∀ s ∈ children, s.Literal) :
    Json.ItemsPrinted (children.map fun child => .object child.sourceMembers)
      (containersAll sourceContainers children) := by
  induction children with
  | nil => exact .nil
  | cons child rest ih =>
    obtain ⟨hc, hr⟩ := List.forall_mem_cons.1 h
    exact .cons (printed_source hc) (ih hr)

theorem ofJson_fields {s : Selector} (h : s.Literal) :
    Fields.ofJson (Value.fieldTrees s.fields) = .ok s.fields := by
  obtain ⟨hr, hfin, -⟩ := Value.steadfast_of_fieldsDotted none s.fields h.leaves
  rw [Fields.ofJson, Value.ofJson_fieldTrees s.fields h.names.2 hfin, bind_ok, hr,
    Entries.ofList_of_distinct h.names.1]

theorem ofMembers_source {s : Selector} (h : s.Literal) : ofMembers s.sourceMembers = .ok s := by
  have hf := ofJson_fields h
  have hop : readOp (some (.string s.op.name)) = .ok s.op :=
    readOp_eq_ok_iff.2 (.spelled s.op.spellsName)
  have htake : Entries.swapErase "op" s.sourceMembers =
      (some (.string s.op.name), [("fields", .object (Value.fieldTrees s.fields))]) := rfl
  have hrest : Entries.swapErase "fields" [("fields", Json.object (Value.fieldTrees s.fields))] =
      (some (.object (Value.fieldTrees s.fields)), []) := rfl
  rw [ofMembers, htake]
  simp only [hop, hrest, readFields, hf, rejectOthers, bind_ok]

theorem ofItems_source {children : List Selector} (h : ∀ s ∈ children, s.Literal) :
    ofItems (children.map fun child => .object child.sourceMembers) = .ok children := by
  induction children with
  | nil => rfl
  | cons child rest ih =>
    obtain ⟨hc, hr⟩ := List.forall_mem_cons.1 h
    rw [List.map_cons, ofItems, ofMembers_source hc, bind_ok, ih hr, bind_ok]

end Selector

/-! ## Logical filters -/

namespace LogicalFilter

theorem readOp_name (op : Connective) : readOp (some (.string op.name)) = .ok op :=
  readOp_eq_ok_iff.2 ⟨op.name, rfl, op.spellsName⟩

theorem ofMembers_ofSelectors {op : Connective} {levels : Nat} (items : List Json) :
    ofMembers (levels + 1) [("op", .string op.name), ("selectorFilters", .array items)] =
      (Selector.ofItems items >>= fun children => .ok (ofSelectors op children)) := by
  rw [ofMembers]
  simp [Entries.swapErase, readOp_name, readChildren, rejectOthers, bind_ok]

theorem ofMembers_ofFilters {op : Connective} {levels : Nat} {items : List Json} (hne : items ≠ []) :
    ofMembers (levels + 1) [("op", .string op.name), ("logicalFilters", .array items)] =
      (itemsWith (ofMembers levels) items >>= fun children => .ok (ofFilters op children)) := by
  rw [ofMembers]
  simp [Entries.swapErase, readOp_name, readChildren, rejectOthers, bind_ok, hne]

mutual
theorem ofMembers_source (filter : LogicalFilter) (levels : Nat) (hl : filter.levels ≤ levels)
    (hp : filter.Populated) (h : ∀ s ∈ filter.selectors, s.Literal) :
    ofMembers levels filter.sourceMembers = .ok filter := by
  match filter with
  | .ofSelectors op children =>
    rw [LogicalFilter.levels] at hl
    obtain ⟨levels, rfl⟩ : ∃ n, levels = n + 1 := ⟨levels - 1, by omega⟩
    rw [selectors] at h
    have hitems := Selector.ofItems_source h
    rw [sourceMembers, ofMembers_ofSelectors, hitems, bind_ok]
  | .ofFilters op children =>
    rw [LogicalFilter.levels] at hl
    obtain ⟨levels, rfl⟩ : ∃ n, levels = n + 1 := ⟨levels - 1, by omega⟩
    have hne : sourceItems children ≠ [] := by
      cases children with
      | nil => exact absurd rfl hp.1
      | cons child rest => exact List.cons_ne_nil _ _
    have hitems := itemsWith_source children levels (by omega) hp.2 h
    rw [sourceMembers, ofMembers_ofFilters hne, hitems, bind_ok]
termination_by structural filter

theorem itemsWith_source (filters : List LogicalFilter) (levels : Nat)
    (hl : levelsAll filters ≤ levels) (hp : AllPopulated filters)
    (h : ∀ s ∈ selectorsAll filters, s.Literal) :
    itemsWith (ofMembers levels) (sourceItems filters) = .ok filters := by
  match filters with
  | [] => rfl
  | filter :: rest =>
    obtain ⟨hs, hrs⟩ := List.forall_mem_append.1 h
    rw [levelsAll] at hl
    have hf := ofMembers_source filter levels (by omega) hp.1 hs
    have hr := itemsWith_source rest levels (by omega) hp.2 hrs
    rw [sourceItems, itemsWith, hf, bind_ok, hr, bind_ok]
termination_by structural filters
end

mutual
theorem printed_source (filter : LogicalFilter) (h : ∀ s ∈ filter.selectors, s.Literal) :
    (Json.object filter.sourceMembers).Printed (filter.containers Selector.sourceContainers) := by
  match filter with
  | .ofSelectors op children =>
    rw [selectors] at h
    have hitems := Selector.printed_sourceItems h
    rw [sourceMembers, containers]
    exact hitems.level op.name "selectorFilters" (by decide)
  | .ofFilters op children =>
    have hitems := printed_sourceItems children h
    rw [sourceMembers, containers]
    exact hitems.level op.name "logicalFilters" (by decide)
termination_by structural filter

theorem printed_sourceItems (filters : List LogicalFilter)
    (h : ∀ s ∈ selectorsAll filters, s.Literal) :
    Json.ItemsPrinted (sourceItems filters) (containersAll Selector.sourceContainers filters) := by
  match filters with
  | [] => exact .nil
  | filter :: rest =>
    obtain ⟨hs, hrs⟩ := List.forall_mem_append.1 h
    have hf := printed_source filter hs
    have hr := printed_sourceItems rest hrs
    rw [sourceItems, containersAll]
    exact .cons hf hr
termination_by structural filters
end

end LogicalFilter

/-! ## The reserved name -/

namespace Selector

/-- No object in the fields opens with the reserved name. -/
def FieldsPlain (s : Selector) : Prop := (Json.object (Value.fieldTrees s.fields)).Plain

theorem itemsPlain_source_iff (children : List Selector) :
    Json.ItemsPlain (children.map fun child => .object child.sourceMembers) ↔
      ∀ s ∈ children, s.FieldsPlain := by
  induction children with
  | nil => exact iff_of_true trivial (List.forall_mem_nil _)
  | cons child rest ih =>
    rw [List.map_cons, Json.ItemsPlain, ih, sourceMembers, Json.plain_members_iff,
      List.forall_mem_cons, FieldsPlain]

/-- The source that is read as the selector without its wrappings has none. -/
theorem plain_of_reads {s : Selector} (h : s.Literal) {plain : Json}
    (hu : (Json.object s.sourceMembers).Unwraps plain) (hr : Reads plain.kept s) : s.FieldsPlain := by
  have hn := (printed_source h).namesDistinct.2.2.1
  obtain ⟨other, ho, rfl⟩ := hu.of_members
  rw [Json.kept_members s.op.name (by decide)] at hr
  generalize hkept : other.kept = kept at hr
  have hden : (Json.object (Value.fieldTrees s.fields)).Denotes (.object s.fields) :=
    .object ((Fields.ofJson_eq_ok_iff hn s.fields).1 (ofJson_fields h))
  refine ho.plain_of_denotes hden ((Json.denotes_kept_iff other (ho.namesDistinct hn) _).1 ?_)
  rw [hkept]
  cases hr with
  | mk _ _ hf =>
    change Fields.Means (some kept) _ at hf
    cases hf with
    | object hf => exact .object hf

theorem itemsPlain_of_reads {children : List Selector} (h : ∀ s ∈ children, s.Literal)
    {plain : List Json}
    (hu : Json.UnwrapsItems (children.map fun child => .object child.sourceMembers) plain)
    (hr : List.Forall₂ Reads (Json.keptItems plain) children) : ∀ s ∈ children, s.FieldsPlain := by
  induction children generalizing plain with
  | nil => exact List.forall_mem_nil _
  | cons child rest ih =>
    obtain ⟨hc, hrest⟩ := List.forall_mem_cons.1 h
    obtain ⟨other, others, ho, hos, rfl⟩ := hu.of_cons
    obtain ⟨hfirst, htail⟩ := List.forall₂_cons.1 hr
    exact List.forall_mem_cons.2 ⟨plain_of_reads hc ho hfirst, ih hrest hos htail⟩

end Selector

namespace LogicalFilter

mutual
theorem plain_source_iff (filter : LogicalFilter) :
    (Json.object filter.sourceMembers).Plain ↔ ∀ s ∈ filter.selectors, s.FieldsPlain := by
  match filter with
  | .ofSelectors op children =>
    rw [sourceMembers, Json.plain_members_iff, Json.Plain, Selector.itemsPlain_source_iff, selectors]
  | .ofFilters op children =>
    rw [sourceMembers, Json.plain_members_iff, Json.Plain, itemsPlain_source_iff children, selectors]
termination_by structural filter

theorem itemsPlain_source_iff (filters : List LogicalFilter) :
    Json.ItemsPlain (sourceItems filters) ↔ ∀ s ∈ selectorsAll filters, s.FieldsPlain := by
  match filters with
  | [] => exact iff_of_true trivial (List.forall_mem_nil _)
  | filter :: rest =>
    rw [sourceItems, Json.ItemsPlain, plain_source_iff filter, itemsPlain_source_iff rest,
      selectorsAll, List.forall_mem_append]
termination_by structural filters
end

mutual
theorem plain_of_reads {level : Nat} (filter : LogicalFilter)
    (h : ∀ s ∈ filter.selectors, s.Literal) {plain : Json}
    (hu : (Json.object filter.sourceMembers).Unwraps plain) (hr : Reads level plain.kept filter) :
    ∀ s ∈ filter.selectors, s.FieldsPlain := by
  match filter with
  | .ofSelectors op children =>
    obtain ⟨other, ho, rfl⟩ := hu.of_members
    obtain ⟨others, hos, rfl⟩ := ho.of_array
    rw [Json.kept_members op.name (by decide), Json.kept] at hr
    cases hr with
    | ofSelectors heads hc =>
      cases heads.selectors_listed
      exact Selector.itemsPlain_of_reads h hos hc
  | .ofFilters op children =>
    obtain ⟨other, ho, rfl⟩ := hu.of_members
    obtain ⟨others, hos, rfl⟩ := ho.of_array
    rw [Json.kept_members op.name (by decide), Json.kept] at hr
    cases hr with
    | ofFilters heads hne hc =>
      cases heads.filters_listed
      exact itemsPlain_of_reads children h hos hc
termination_by structural filter

theorem itemsPlain_of_reads {level : Nat} (filters : List LogicalFilter)
    (h : ∀ s ∈ selectorsAll filters, s.Literal) {plain : List Json}
    (hu : Json.UnwrapsItems (sourceItems filters) plain)
    (hr : ReadsAll level (Json.keptItems plain) filters) :
    ∀ s ∈ selectorsAll filters, s.FieldsPlain := by
  match filters with
  | [] => exact List.forall_mem_nil _
  | filter :: rest =>
    obtain ⟨hfilter, hrest⟩ := List.forall_mem_append.1 h
    obtain ⟨other, others, ho, hos, rfl⟩ := hu.of_cons
    cases hr with
    | cons hr htail =>
      exact List.forall_mem_append.2
        ⟨plain_of_reads filter hfilter ho hr, itemsPlain_of_reads rest hrest hos htail⟩
termination_by structural filters
end

end LogicalFilter

/-! ## Filters -/

namespace Filter

theorem printed_source {filter : Filter} (h : ∀ s ∈ filter.selectors, s.Literal) :
    filter.source.Printed (filter.containers Selector.sourceContainers) := by
  cases filter with
  | selector s => exact Selector.printed_source (h s (List.mem_singleton_self s))
  | logical l => exact l.printed_source h

/-- The source of a filter is read as the filter, as long as it is a value. -/
theorem ofJson_source {filter : Filter} (henc : filter.Encodable)
    (h : ∀ s ∈ filter.selectors, s.Literal) : ofJson filter.source = .ok filter := by
  cases filter with
  | selector s =>
    have hs := Selector.ofMembers_source (h s (List.mem_singleton_self s))
    have hshape : ofJson (.object s.sourceMembers) =
        (Selector.ofMembers s.sourceMembers >>= fun s => .ok (.selector s)) := rfl
    rw [source, hshape, hs, bind_ok]
  | logical l =>
    have hl := l.ofMembers_source logicalDepthLimit henc.levels_le henc.populated h
    have hshape : ofJson (.object l.sourceMembers) =
        (LogicalFilter.ofMembers logicalDepthLimit l.sourceMembers >>= fun l => .ok (.logical l)) := by
      cases l <;> rfl
    rw [source, hshape, hl, bind_ok]

theorem plain_source_iff (filter : Filter) :
    filter.source.Plain ↔ ∀ s ∈ filter.selectors, s.FieldsPlain := by
  cases filter with
  | selector s =>
    rw [source, Selector.sourceMembers, Json.plain_members_iff, selectors, List.forall_mem_singleton,
      Selector.FieldsPlain]
  | logical l => exact l.plain_source_iff

theorem plain_of_reads {filter : Filter} (h : ∀ s ∈ filter.selectors, s.Literal) {plain : Json}
    (hu : filter.source.Unwraps plain) (hr : Reads plain.kept filter) :
    ∀ s ∈ filter.selectors, s.FieldsPlain := by
  generalize hk : plain.kept = kept at hr
  cases hr with
  | selector _ _ _ hr =>
    exact List.forall_mem_singleton.2
      (Selector.plain_of_reads (h _ (List.mem_singleton_self _)) hu (hk ▸ hr))
  | logical _ _ hr => exact LogicalFilter.plain_of_reads _ h hu (hk ▸ hr)

/-- As a text, the source is read as the filter if and only if there are not too many containers in it
and no object of fields opens with the reserved name. -/
theorem parse_source_eq_ok_iff {filter : Filter} (henc : filter.Encodable)
    (h : ∀ s ∈ filter.selectors, s.Literal) :
    parse filter.source.text = .ok filter ↔
      filter.containers Selector.sourceContainers ≤ Json.maxDepth ∧
        ∀ s ∈ filter.selectors, s.FieldsPlain := by
  have hp := printed_source h
  have hreads := (Json.reads_text_iff hp.lexical filter.source).2 rfl
  simp only [parse, bind_eq_ok_iff, mapError_eq_ok_iff, Json.ofText_eq_ok_iff hreads, hp.depth_eq]
  constructor
  · rintro ⟨kept, ⟨hd, plain, hu, rfl⟩, hf⟩
    exact ⟨hd, plain_of_reads h hu ((ofJson_eq_ok_iff (Json.namesDistinct_kept plain)).1 hf)⟩
  · rintro ⟨hd, hf⟩
    have hu := (Json.unwraps_self_iff filter.source).2 ((plain_source_iff filter).2 hf)
    exact ⟨filter.source, ⟨hd, filter.source, hu, hp.kept_eq.symm⟩, ofJson_source henc h⟩

theorem parse_eq_error_of_source {filter : Filter} (h : ∀ s ∈ filter.selectors, s.Literal)
    (hd : Json.maxDepth < filter.containers Selector.sourceContainers) :
    ∃ fault, parse filter.source.text = .error (.json fault) := by
  have hp := printed_source h
  have hreads := (Json.reads_text_iff hp.lexical filter.source).2 rfl
  have hnot : ¬ ∃ plain, Json.Says filter.source.text plain := by
    rintro ⟨plain, hs⟩
    have hle := ((Json.says_iff_of_reads hreads).1 hs).1
    rw [hp.depth_eq] at hle
    omega
  obtain ⟨fault, hf⟩ := Json.exists_error_ofText_iff.2 hnot
  refine ⟨fault, ?_⟩
  rw [parse, hf]
  rfl

theorem sourceContainers_bounds {filter : Filter} (henc : filter.Encodable) :
    2 + 2 * filter.levels ≤ filter.containers Selector.sourceContainers ∧
      filter.containers Selector.sourceContainers ≤ 33 + 2 * filter.levels := by
  refine containers_bounds henc.populated fun s hs => ?_
  have hle := (henc.selectors s hs).fields.mapDepth_le
  unfold Selector.sourceContainers Fields.mapDepth at *
  omega

/-- A filter that can be sent, and whose leaves are literals, is what its source is read as. The text
of the source nests two containers for each level and two or more for a selector. It is read as the
filter if and only if these are at most 127 and no object of fields opens with the reserved name, so at
47 levels or fewer this name is all that matters; filters of 63 or 64 levels are refused as JSON. -/
theorem parse_source {filter : Filter} {text : String} (henc : filter.encode = .ok text)
    (h : ∀ s ∈ filter.selectors, s.Literal) :
    ofJson filter.source = .ok filter ∧
    filter.source.depth = filter.containers Selector.sourceContainers ∧
    (parse filter.source.text = .ok filter ↔
      filter.source.depth ≤ 127 ∧ ∀ s ∈ filter.selectors, s.FieldsPlain) ∧
    (127 < filter.source.depth → ∃ fault, parse filter.source.text = .error (.json fault)) ∧
    (filter.levels ≤ 47 → (∀ s ∈ filter.selectors, s.FieldsPlain) →
      parse filter.source.text = .ok filter) ∧
    (63 ≤ filter.levels → ∃ fault, parse filter.source.text = .error (.json fault)) := by
  obtain ⟨json, hj, -⟩ := encode_eq_ok_iff.1 henc
  have hsent : filter.Encodable := filter.wire_isOk_iff.1 ⟨json, hj⟩
  have hdepth := (printed_source h).depth_eq
  obtain ⟨hlow, hhigh⟩ := sourceContainers_bounds hsent
  have hok : parse filter.source.text = .ok filter ↔
      filter.source.depth ≤ 127 ∧ ∀ s ∈ filter.selectors, s.FieldsPlain := by
    rw [hdepth]
    exact parse_source_eq_ok_iff hsent h
  have herror : 127 < filter.source.depth → ∃ fault, parse filter.source.text = .error (.json fault) := by
    intro hd
    rw [hdepth] at hd
    exact parse_eq_error_of_source h hd
  refine ⟨ofJson_source hsent h, hdepth, hok, herror, ?_, ?_⟩
  · intro hl hplain
    exact hok.2 ⟨by omega, hplain⟩
  · intro hl
    exact herror (by omega)

/-- Two levels over a nested field and integers of two variants. -/
theorem parse_source_nested :
    let filter := Filter.logical (.ofFilters .or [.ofSelectors .and
      [⟨.gte, [("a", .object [("b", .int (-5))]), ("c", .wide ⟨10 ^ 20⟩)]⟩, ⟨.eq, [("d", .null)]⟩]])
    let text := "\x7b\"op\":\"or\",\"logicalFilters\":[\x7b\"op\":\"and\",\"selectorFilters\":[" ++
      "\x7b\"op\":\"gte\",\"fields\":\x7b\"a\":\x7b\"b\":-5\x7d,\"c\":100000000000000000000\x7d\x7d," ++
      "\x7b\"op\":\"eq\",\"fields\":\x7b\"d\":null\x7d\x7d]\x7d]\x7d"
    (∃ wire, filter.encode = .ok wire) ∧ (∀ s ∈ filter.selectors, s.Literal) ∧
      filter.source.text = text ∧ parse text = .ok filter := by
  intro filter text
  have henc : filter.encode = .ok filter.encode.toOption.get! := rfl
  have hliteral : ∀ s ∈ filter.selectors, s.Literal := by
    intro s hs
    simp only [filter, selectors, LogicalFilter.selectors, LogicalFilter.selectorsAll,
      List.append_nil, List.mem_cons, List.not_mem_nil, or_false] at hs
    rcases hs with rfl | rfl
    · refine ⟨by simp [Value.NamesDistinct, Value.FieldsDistinct, Entries.Distinct], ?_⟩
      simp only [Fields.dotted, Value.fieldsDotted, Value.dotted, childPath, List.append_nil,
        List.nil_append, List.cons_append, List.forall_mem_cons]
      have hsmall : Value.ofInteger (-5) = .int (-5) := rfl
      have hlarge : Value.ofInteger (10 ^ 20) = .wide ⟨10 ^ 20⟩ := rfl
      exact ⟨hsmall ▸ .integer (-5), hlarge ▸ .integer (10 ^ 20),
        fun leaf hl => absurd hl List.not_mem_nil⟩
    · refine ⟨by simp [Value.NamesDistinct, Value.FieldsDistinct, Entries.Distinct], ?_⟩
      simp only [Fields.dotted, Value.fieldsDotted, Value.dotted, childPath, List.append_nil,
        List.forall_mem_cons]
      exact ⟨.null, fun leaf hl => absurd hl List.not_mem_nil⟩
  have hplain : ∀ s ∈ filter.selectors, s.FieldsPlain := by
    intro s hs
    simp only [filter, selectors, LogicalFilter.selectors, LogicalFilter.selectorsAll,
      List.append_nil, List.mem_cons, List.not_mem_nil, or_false] at hs
    rcases hs with rfl | rfl
    · simp [Selector.FieldsPlain, Value.fieldTrees, Value.tree, Json.Plain, Json.MembersPlain,
        Json.isWrapped, Json.numberName, Json.ofInt]
    · simp [Selector.FieldsPlain, Value.fieldTrees, Value.tree, Json.Plain, Json.MembersPlain,
        Json.isWrapped, Json.numberName]
  obtain ⟨-, -, -, -, hfew, -⟩ := parse_source henc hliteral
  have htext : filter.source.text = text := by decide +kernel
  have hparse := hfew (by decide) hplain
  rw [htext] at hparse
  exact ⟨⟨_, henc⟩, hliteral, htext, hparse⟩

/-- A filter of 63 levels over one field is encoded, and its source is read as the filter, but not as
a text. -/
theorem parse_source_refused :
    let filter := Filter.logical (.wrapped .and 62 (.ofSelectors .and [⟨.eq, [("a", .null)]⟩]))
    (∃ text, filter.encode = .ok text) ∧ ofJson filter.source = .ok filter ∧
      ∃ fault, parse filter.source.text = .error (.json fault) := by
  intro filter
  have hliteral : ∀ s ∈ filter.selectors, s.Literal := by
    intro s hs
    rw [selectors, LogicalFilter.selectors_wrapped, LogicalFilter.selectors, List.mem_singleton] at hs
    subst hs
    refine ⟨by simp [Value.NamesDistinct, Value.FieldsDistinct, Entries.Distinct], ?_⟩
    intro leaf hl
    rw [List.mem_singleton.1 hl]
    exact .null
  have hcount : filter.containers Selector.sourceContainers = 128 :=
    LogicalFilter.containers_wrapped .and 62 _
  obtain ⟨json, hw⟩ : ∃ json, filter.wire = .ok json := exists_ok_of_isOk (by decide +kernel)
  have henc : filter.Encodable := filter.wire_isOk_iff.1 ⟨json, hw⟩
  refine ⟨⟨json.text, encode_eq_ok_iff.2 ⟨json, hw, rfl⟩⟩, ofJson_source henc hliteral, ?_⟩
  exact parse_eq_error_of_source hliteral (by rw [hcount]; decide)

end Filter
end DocWire
