import Mathlib.Data.List.Forall2
import Mathlib.Data.List.TakeWhile
import DocWire.Filter.Source
import DocWire.Proofs.Value.Source

/-!
# The source form of filters

Which JSON values are the source of a filter, said without the reader (`IsSource`), and which filter
one is the source of (`Reads`): the operators and the fields that it names, and its children in
order. Main statement: `exists_ofJson_iff`, the reader accepts these values and no others, and makes
of each the filter that it is the source of.
-/
set_option autoImplicit false

namespace DocWire

/-! ## Operators -/

/-- A text spells a name: dollar signs may stand in front, and letters may have either ASCII case. -/
def SpellsName (text name : String) : Prop :=
  ∃ dollars letters, text.toList = List.replicate dollars '$' ++ letters ∧
    letters.map Char.toLower = name.toList

theorem operatorName_eq_iff {text name : String} (hn : name.toList.head? ≠ some '$') :
    operatorName text = name ↔ SpellsName text name := by
  unfold operatorName
  constructor
  · intro h
    refine ⟨(text.toList.takeWhile (· = '$')).length, text.toList.dropWhile (· = '$'), ?_, ?_⟩
    · have hall : text.toList.takeWhile (· = '$') =
          List.replicate (text.toList.takeWhile (· = '$')).length '$' := by
        apply List.eq_replicate_of_mem
        intro c hc
        simpa using List.mem_takeWhile_imp hc
      rw [← hall, List.takeWhile_append_dropWhile]
    · rw [← h, String.toList_ofList]
  · rintro ⟨dollars, letters, ht, hl⟩
    -- The name has no dollar sign in front, so neither have the letters.
    have hd : letters.dropWhile (· = '$') = letters := by
      cases letters with
      | nil => rfl
      | cons c rest =>
        have hc : c ≠ '$' := by
          rintro rfl
          rw [← hl] at hn
          exact hn rfl
        rw [List.dropWhile_cons_of_neg (by simpa using hc)]
    have hdollars : (List.replicate dollars '$').dropWhile (· = '$') = [] := by
      simp
    rw [ht, List.dropWhile_append, hdollars, List.isEmpty_nil, if_pos rfl, hd, hl, String.ofList_toList]

theorem Comparison.ofName?_eq_some_iff {text : String} {op : Comparison} :
    ofName? (operatorName text) = some op ↔ SpellsName text op.name := by
  have hn : op.name.toList.head? ≠ some '$' := by cases op <;> decide
  rw [← operatorName_eq_iff hn]
  constructor
  · intro h
    have hf := List.find?_some h
    exact (of_decide_eq_true hf).symm
  · intro h
    rw [h]
    cases op <;> decide

theorem Connective.ofName?_eq_some_iff {text : String} {op : Connective} :
    ofName? (operatorName text) = some op ↔ SpellsName text op.name := by
  have hn : op.name.toList.head? ≠ some '$' := by cases op <;> decide
  rw [← operatorName_eq_iff hn]
  constructor
  · intro h
    have hf := List.find?_some h
    exact (of_decide_eq_true hf).symm
  · intro h
    rw [h]
    cases op <;> decide

theorem rejectOthers_eq_ok_iff {fault : String → SourceFault} {members : Entries Json} {done : Unit} :
    rejectOthers fault members = .ok done ↔ members = [] := by
  cases members with
  | nil => exact ⟨fun _ => rfl, fun _ => rfl⟩
  | cons entry rest =>
    constructor
    · intro h
      cases h
    · intro h
      cases h

/-! ## Selectors -/

/-- The comparison that the `op` of a selector means: equality when it has none. -/
inductive Comparison.Means : Option Json → Comparison → Prop
  | absent : Comparison.Means none .eq
  | spelled {text : String} {op : Comparison} (h : SpellsName text op.name) :
      Comparison.Means (some (.string text)) op

namespace Selector

/-- The values that are the source of a selector. -/
inductive IsSource : Json → Prop
  | mk {members : Entries Json}
      (names : ∀ name ∈ Entries.keys members, name ∈ ["op", "fields"])
      (op : ∀ json, Entries.get? "op" members = some json →
        ∃ (text : String) (op : Comparison), json = .string text ∧ SpellsName text op.name)
      (fields : ∀ json, Entries.get? "fields" members = some json →
        ∃ fields, json = .object fields ∧ Json.MembersFit fields) :
      IsSource (.object members)

/-- The selector that a value is the source of. -/
inductive Reads : Json → Selector → Prop
  | mk {members : Entries Json} {op : Comparison} {fields : Fields}
      (names : ∀ name ∈ Entries.keys members, name ∈ ["op", "fields"])
      (op_means : op.Means (Entries.get? "op" members))
      (fields_mean : fields.Means (Entries.get? "fields" members)) :
      Reads (.object members) ⟨op, fields⟩

theorem exists_reads_iff {json : Json} : (∃ s, Reads json s) ↔ IsSource json := by
  constructor
  · rintro ⟨s, h⟩
    cases h with
    | @mk members op fields names op_means fields_mean =>
      refine .mk names ?_ ?_
      · intro value hv
        rw [hv] at op_means
        cases op_means with
        | spelled hs => exact ⟨_, op, rfl, hs⟩
      · intro value hv
        rw [hv] at fields_mean
        cases fields_mean with
        | object hf => exact ⟨_, rfl, (Json.exists_denotesFields_iff _).1 ⟨_, hf⟩⟩
  · rintro ⟨names, op, fields⟩
    rename_i members
    have hop : ∃ op : Comparison, op.Means (Entries.get? "op" members) := by
      cases hg : Entries.get? "op" members with
      | none => exact ⟨_, .absent⟩
      | some value =>
        obtain ⟨text, op, rfl, hs⟩ := op value hg
        exact ⟨op, .spelled hs⟩
    have hfields : ∃ fields : Fields, fields.Means (Entries.get? "fields" members) := by
      cases hg : Entries.get? "fields" members with
      | none => exact ⟨_, .absent⟩
      | some value =>
        obtain ⟨inner, rfl, hf⟩ := fields value hg
        obtain ⟨fields, hd⟩ := (Json.exists_denotesFields_iff inner).2 hf
        exact ⟨fields, .object hd⟩
    obtain ⟨op, ho⟩ := hop
    obtain ⟨fields, hf⟩ := hfields
    exact ⟨⟨op, fields⟩, .mk names ho hf⟩

theorem exists_forall₂_reads_iff {items : List Json} :
    (∃ selectors, List.Forall₂ Reads items selectors) ↔ ∀ item ∈ items, IsSource item := by
  induction items with
  | nil => exact ⟨fun _ item hi => absurd hi List.not_mem_nil, fun _ => ⟨[], .nil⟩⟩
  | cons item rest ih =>
    rw [List.forall_mem_cons, ← ih, ← exists_reads_iff]
    constructor
    · rintro ⟨selectors, h⟩
      cases h with
      | cons h hr => exact ⟨⟨_, h⟩, ⟨_, hr⟩⟩
    · rintro ⟨⟨s, h⟩, ⟨selectors, hr⟩⟩
      exact ⟨s :: selectors, .cons h hr⟩

theorem readOp_eq_ok_iff {json? : Option Json} {op : Comparison} :
    readOp json? = .ok op ↔ op.Means json? := by
  unfold readOp
  split
  · constructor
    · intro h
      cases h
      exact .absent
    · intro h
      cases h
      rfl
  · rename_i text
    constructor
    · intro h
      cases hn : Comparison.ofName? (operatorName text) with
      | none =>
        rw [hn] at h
        cases h
      | some found =>
        rw [hn] at h
        cases h
        exact .spelled (Comparison.ofName?_eq_some_iff.1 hn)
    · intro h
      cases h with
      | spelled hs => rw [Comparison.ofName?_eq_some_iff.2 hs]
  · rename_i other hs
    constructor
    · intro h
      cases h
    · intro h
      cases h with
      | spelled => exact absurd rfl (hs _)

theorem readFields_eq_ok_iff {json? : Option Json} (hd : ∀ json ∈ json?, json.NamesDistinct)
    {fields : Fields} : readFields json? = .ok fields ↔ fields.Means json? := by
  unfold readFields
  split
  · constructor
    · intro h
      cases h
      exact .absent
    · intro h
      cases h
      rfl
  · rename_i members
    rw [Fields.ofJson_eq_ok_iff (hd _ rfl)]
    constructor
    · intro h
      exact .object h
    · intro h
      cases h with
      | object h => exact h
  · rename_i other hs
    constructor
    · intro h
      cases h
    · intro h
      cases h with
      | object => exact absurd rfl (hs _)

theorem ofMembers_eq_ok_iff {members : Entries Json} (hd : (Json.object members).NamesDistinct)
    {s : Selector} : ofMembers members = .ok s ↔ Reads (.object members) s := by
  obtain ⟨others, hop, ho⟩ := (Entries.left_self hd.1).swapErase hd.1 "op" (by decide)
  obtain ⟨left, hfields, hl⟩ := ho.swapErase hd.1 "fields" (by decide)
  have hfd : ∀ json ∈ Entries.get? "fields" members, json.NamesDistinct := fun json => hd.of_get?
  have hleft : left = [] ↔ ∀ name ∈ Entries.keys members, name ∈ ["op", "fields"] := hl.eq_nil_iff
  unfold ofMembers
  rw [hop]
  simp only [bind_eq_ok_iff, readOp_eq_ok_iff, hfields, readFields_eq_ok_iff hfd,
    rejectOthers_eq_ok_iff, hleft]
  constructor
  · rintro ⟨op, hop, fields, hf, _, hn, h⟩
    cases h
    exact .mk hn hop hf
  · intro h
    cases h with
    | mk hn hop hf => exact ⟨_, hop, _, hf, (), hn, rfl⟩

theorem ofItems_eq_ok_iff {items : List Json} (hd : ∀ item ∈ items, item.NamesDistinct)
    {selectors : List Selector} :
    ofItems items = .ok selectors ↔ List.Forall₂ Reads items selectors := by
  induction items generalizing selectors with
  | nil =>
    rw [List.forall₂_nil_left_iff]
    constructor
    · intro h
      cases h
      rfl
    · rintro rfl
      rfl
  | cons item rest ih =>
    rw [List.forall₂_cons_left_iff]
    have ih := @ih (fun item hi => hd item (List.mem_cons_of_mem _ hi))
    cases item with
    | object members =>
      unfold ofItems
      simp only [bind_eq_ok_iff, ofMembers_eq_ok_iff (hd _ (List.mem_cons_self ..)), ih]
      constructor
      · rintro ⟨s, hs, others, ho, h⟩
        cases h
        exact ⟨s, others, hs, ho, rfl⟩
      · rintro ⟨s, others, hs, ho, rfl⟩
        exact ⟨s, hs, others, ho, rfl⟩
    | null | bool _ | number _ | string _ | array _ =>
      constructor
      · intro h
        cases h
      · rintro ⟨s, others, hs, -⟩
        cases hs

end Selector

/-! ## Logical filters -/

/-- The items that a list of children means: none when it is absent or null. -/
inductive LogicalFilter.Children : Option Json → List Json → Prop
  | absent : Children none []
  | null : Children (some .null) []
  | array (items : List Json) : Children (some (.array items)) items

namespace LogicalFilter

/-- What the members of a logical filter at a level say, its children aside. -/
structure Heads (level : Nat) (members : Entries Json) (op : Connective)
    (selectors filters : List Json) : Prop where
  level_le : level ≤ logicalDepthLimit
  names : ∀ name ∈ Entries.keys members, name ∈ ["op", "selectorFilters", "logicalFilters"]
  op_spelled : ∃ text, Entries.get? "op" members = some (.string text) ∧ SpellsName text op.name
  selectors_listed : Children (Entries.get? "selectorFilters" members) selectors
  filters_listed : Children (Entries.get? "logicalFilters" members) filters
  one_kind : selectors = [] ∨ filters = []

/-- The values that are the source of a logical filter at a level. -/
inductive IsSource : Nat → Json → Prop
  | mk {level : Nat} {members : Entries Json} {op : Connective} {selectors filters : List Json}
      (heads : Heads level members op selectors filters)
      (hs : ∀ item ∈ selectors, Selector.IsSource item)
      (hf : ∀ item ∈ filters, IsSource (level + 1) item) :
      IsSource level (.object members)

mutual
/-- The logical filter that a value at a level is the source of. Without children it joins
selectors. -/
inductive Reads : Nat → Json → LogicalFilter → Prop
  | ofSelectors {level : Nat} {members : Entries Json} {op : Connective} {items : List Json}
      {children : List Selector} (heads : Heads level members op items [])
      (h : List.Forall₂ Selector.Reads items children) :
      Reads level (.object members) (.ofSelectors op children)
  | ofFilters {level : Nat} {members : Entries Json} {op : Connective} {items : List Json}
      {children : List LogicalFilter} (heads : Heads level members op [] items) (hne : items ≠ [])
      (h : ReadsAll (level + 1) items children) :
      Reads level (.object members) (.ofFilters op children)

inductive ReadsAll : Nat → List Json → List LogicalFilter → Prop
  | nil {level : Nat} : ReadsAll level [] []
  | cons {level : Nat} {item : Json} {items : List Json} {child : LogicalFilter}
      {children : List LogicalFilter} (h : Reads level item child)
      (hr : ReadsAll level items children) :
      ReadsAll level (item :: items) (child :: children)
end

theorem readOp_eq_ok_iff {json? : Option Json} {op : Connective} :
    readOp json? = .ok op ↔ ∃ text, json? = some (.string text) ∧ SpellsName text op.name := by
  unfold readOp
  split
  · constructor
    · intro h
      cases h
    · rintro ⟨text, h, -⟩
      cases h
  · rename_i text
    constructor
    · intro h
      cases hn : Connective.ofName? (operatorName text) with
      | none =>
        rw [hn] at h
        cases h
      | some found =>
        rw [hn] at h
        cases h
        exact ⟨text, rfl, Connective.ofName?_eq_some_iff.1 hn⟩
    · rintro ⟨_, h, hs⟩
      cases h
      rw [Connective.ofName?_eq_some_iff.2 hs]
  · rename_i other hs
    constructor
    · intro h
      cases h
    · rintro ⟨text, h, -⟩
      cases h
      exact absurd rfl (hs text)

theorem readChildren_eq_ok_iff {key : String} {json? : Option Json} {items : List Json} :
    readChildren key json? = .ok items ↔ Children json? items := by
  unfold readChildren
  split
  · constructor
    · intro h
      cases h
      exact .absent
    · intro h
      cases h
      rfl
  · constructor
    · intro h
      cases h
      exact .null
    · intro h
      cases h
      rfl
  · constructor
    · intro h
      cases h
      exact .array _
    · intro h
      cases h
      rfl
  · rename_i other hn ha
    constructor
    · intro h
      cases h
    · intro h
      cases h with
      | null => exact absurd rfl hn
      | array items => exact absurd rfl (ha items)

theorem itemsWith_eq_ok_iff {read : Entries Json → Except Failure LogicalFilter} {level : Nat}
    {items : List Json}
    (h : ∀ members, .object members ∈ items → ∀ l,
      read members = .ok l ↔ Reads level (.object members) l) {filters : List LogicalFilter} :
    itemsWith read items = .ok filters ↔ ReadsAll level items filters := by
  induction items generalizing filters with
  | nil =>
    constructor
    · intro he
      cases he
      exact .nil
    · intro he
      cases he
      rfl
  | cons item rest ih =>
    have ih := @ih (fun members hm => h members (List.mem_cons_of_mem _ hm))
    cases item with
    | object members =>
      unfold itemsWith
      simp only [bind_eq_ok_iff, h members (List.mem_cons_self ..), ih]
      constructor
      · rintro ⟨l, hl, others, ho, he⟩
        cases he
        exact .cons hl ho
      · intro he
        cases he with
        | cons hl ho => exact ⟨_, hl, _, ho, rfl⟩
    | null | bool _ | number _ | string _ | array _ =>
      constructor
      · intro he
        cases he
      · intro he
        cases he with
        | cons hl => cases hl

/-- The items of a list of children have different names in turn. -/
theorem Children.namesDistinct {json? : Option Json} {items : List Json} (h : Children json? items)
    (hd : ∀ json ∈ json?, json.NamesDistinct) : ∀ item ∈ items, item.NamesDistinct := by
  cases h with
  | absent | null => exact fun item hi => absurd hi List.not_mem_nil
  | array => exact (Json.itemsDistinct_iff items).1 (hd _ rfl)

/-- What one level of the reader does: the members are looked at first, then the children. -/
theorem ofMembers_succ_eq_ok_iff {levels level : Nat} (hl : levels + level = logicalDepthLimit)
    {members : Entries Json} (hd : (Json.object members).NamesDistinct) {l : LogicalFilter} :
    ofMembers (levels + 1) members = .ok l ↔
      (∃ op items children, Heads level members op items [] ∧
        Selector.ofItems items = .ok children ∧ l = .ofSelectors op children) ∨
      ∃ op items children, Heads level members op [] items ∧ items ≠ [] ∧
        itemsWith (ofMembers levels) items = .ok children ∧ l = .ofFilters op children := by
  obtain ⟨first, hop, h1⟩ := (Entries.left_self hd.1).swapErase hd.1 "op" (by decide)
  obtain ⟨second, hselectors, h2⟩ := h1.swapErase hd.1 "selectorFilters" (by decide)
  obtain ⟨left, hfilters, h3⟩ := h2.swapErase hd.1 "logicalFilters" (by decide)
  have hleft : left = [] ↔
      ∀ name ∈ Entries.keys members, name ∈ ["op", "selectorFilters", "logicalFilters"] :=
    h3.eq_nil_iff
  unfold ofMembers
  rw [hop]
  simp only [bind_eq_ok_iff, readOp_eq_ok_iff, hselectors, hfilters, readChildren_eq_ok_iff,
    rejectOthers_eq_ok_iff, hleft]
  constructor
  · rintro ⟨op, ho, selectors, hs, filters, hf, _, hn, h⟩
    split at h
    · rename_i he
      obtain rfl := List.isEmpty_iff.1 he
      obtain ⟨children, hc, h⟩ := bind_eq_ok_iff.1 h
      cases h
      exact .inl ⟨op, selectors, children, ⟨by omega, hn, ho, hs, hf, .inr rfl⟩, hc, rfl⟩
    · rename_i hne
      split at h
      · rename_i he
        obtain rfl := List.isEmpty_iff.1 he
        obtain ⟨children, hc, h⟩ := bind_eq_ok_iff.1 h
        cases h
        exact .inr ⟨op, filters, children, ⟨by omega, hn, ho, hs, hf, .inl rfl⟩,
          fun h => hne (List.isEmpty_iff.2 h), hc, rfl⟩
      · cases h
  · rintro (⟨op, items, children, h, hc, rfl⟩ | ⟨op, items, children, h, hne, hc, rfl⟩)
    · refine ⟨op, h.op_spelled, items, h.selectors_listed, [], h.filters_listed, (), h.names, ?_⟩
      rw [if_pos List.isEmpty_nil, hc]
      rfl
    · refine ⟨op, h.op_spelled, [], h.selectors_listed, items, h.filters_listed, (), h.names, ?_⟩
      rw [if_neg (mt List.isEmpty_iff.1 hne), if_pos List.isEmpty_nil, hc]
      rfl

/-- The levels that are still allowed and the level make up one more than there may be. -/
theorem ofMembers_eq_ok_iff {levels level : Nat} (hl : levels + level = logicalDepthLimit + 1)
    {members : Entries Json} (hd : (Json.object members).NamesDistinct) {l : LogicalFilter} :
    ofMembers levels members = .ok l ↔ Reads level (.object members) l := by
  induction levels generalizing level members l with
  | zero =>
    constructor
    · intro h
      cases h
    · intro h
      have hle : level ≤ logicalDepthLimit := by
        cases h with
        | ofSelectors heads => exact heads.level_le
        | ofFilters heads => exact heads.level_le
      omega
  | succ levels ih =>
    have hitems {items : List Json} (hc : Children (Entries.get? "logicalFilters" members) items)
        {children : List LogicalFilter} :
        itemsWith (ofMembers levels) items = .ok children ↔ ReadsAll (level + 1) items children := by
      apply itemsWith_eq_ok_iff
      intro inner hi l
      exact ih (by omega) (hc.namesDistinct (fun json => hd.of_get?) _ hi)
    have hselectors {items : List Json}
        (hc : Children (Entries.get? "selectorFilters" members) items) {children : List Selector} :
        Selector.ofItems items = .ok children ↔ List.Forall₂ Selector.Reads items children :=
      Selector.ofItems_eq_ok_iff (hc.namesDistinct fun json => hd.of_get?)
    have hlevels : levels + level = logicalDepthLimit := by omega
    rw [ofMembers_succ_eq_ok_iff hlevels hd]
    constructor
    · rintro (⟨op, items, children, h, hc, rfl⟩ | ⟨op, items, children, h, hne, hc, rfl⟩)
      · exact .ofSelectors h ((hselectors h.selectors_listed).1 hc)
      · exact .ofFilters h hne ((hitems h.filters_listed).1 hc)
    · intro h
      cases h with
      | ofSelectors h hc =>
        exact .inl ⟨_, _, _, h, (hselectors h.selectors_listed).2 hc, rfl⟩
      | ofFilters h hne hc =>
        exact .inr ⟨_, _, _, h, hne, (hitems h.filters_listed).2 hc, rfl⟩

mutual
theorem Reads.isSource {level : Nat} {json : Json} {l : LogicalFilter} (h : Reads level json l) :
    IsSource level json := by
  cases h with
  | ofSelectors heads h =>
    refine .mk heads ?_ fun item hi => absurd hi List.not_mem_nil
    exact Selector.exists_forall₂_reads_iff.1 ⟨_, h⟩
  | ofFilters heads hne h => exact .mk heads (fun item hi => absurd hi List.not_mem_nil) h.isSource

theorem ReadsAll.isSource {level : Nat} {items : List Json} {children : List LogicalFilter}
    (h : ReadsAll level items children) : ∀ item ∈ items, IsSource level item := by
  cases h with
  | nil => exact fun item hi => absurd hi List.not_mem_nil
  | cons h hr => exact List.forall_mem_cons.2 ⟨h.isSource, hr.isSource⟩
end

/-- Items that are all read are read together. -/
theorem exists_readsAll {level : Nat} {items : List Json}
    (h : ∀ item ∈ items, ∃ l, Reads level item l) : ∃ children, ReadsAll level items children := by
  induction items with
  | nil => exact ⟨[], .nil⟩
  | cons item rest ih =>
    rw [List.forall_mem_cons] at h
    obtain ⟨l, hl⟩ := h.1
    obtain ⟨children, hc⟩ := ih h.2
    exact ⟨l :: children, .cons hl hc⟩

theorem IsSource.exists_reads {level : Nat} {json : Json} (h : IsSource level json) :
    ∃ l, Reads level json l := by
  induction h with
  | @mk level members op selectors filters heads hs hf ih =>
    by_cases hne : filters = []
    · subst hne
      obtain ⟨children, hc⟩ := Selector.exists_forall₂_reads_iff.2 hs
      exact ⟨_, .ofSelectors heads hc⟩
    · obtain rfl := heads.one_kind.resolve_right hne
      obtain ⟨children, hc⟩ := exists_readsAll ih
      exact ⟨_, .ofFilters heads hne hc⟩

end LogicalFilter

/-! ## Filters -/

namespace Filter

/-- The values that are the source of a filter. -/
inductive IsSource : Json → Prop
  | selector {members : Entries Json} (hf : "fields" ∈ Entries.keys members)
      (hs : "selectorFilters" ∉ Entries.keys members) (hl : "logicalFilters" ∉ Entries.keys members)
      (h : Selector.IsSource (.object members)) : IsSource (.object members)
  | logical {members : Entries Json} (hf : "fields" ∉ Entries.keys members)
      (hc : "selectorFilters" ∈ Entries.keys members ∨ "logicalFilters" ∈ Entries.keys members)
      (h : LogicalFilter.IsSource 1 (.object members)) : IsSource (.object members)

/-- The filter that a value is the source of. -/
inductive Reads : Json → Filter → Prop
  | selector {members : Entries Json} {s : Selector} (hf : "fields" ∈ Entries.keys members)
      (hs : "selectorFilters" ∉ Entries.keys members) (hl : "logicalFilters" ∉ Entries.keys members)
      (h : Selector.Reads (.object members) s) : Reads (.object members) (.selector s)
  | logical {members : Entries Json} {l : LogicalFilter} (hf : "fields" ∉ Entries.keys members)
      (hc : "selectorFilters" ∈ Entries.keys members ∨ "logicalFilters" ∈ Entries.keys members)
      (h : LogicalFilter.Reads 1 (.object members) l) : Reads (.object members) (.logical l)

theorem exists_reads_iff {json : Json} : (∃ filter, Reads json filter) ↔ IsSource json := by
  constructor
  · rintro ⟨filter, h⟩
    cases h with
    | selector hf hs hl h => exact .selector hf hs hl (Selector.exists_reads_iff.1 ⟨_, h⟩)
    | logical hf hc h => exact .logical hf hc h.isSource
  · intro h
    cases h with
    | selector hf hs hl h =>
      obtain ⟨s, h⟩ := Selector.exists_reads_iff.2 h
      exact ⟨_, .selector hf hs hl h⟩
    | logical hf hc h =>
      obtain ⟨l, h⟩ := h.exists_reads
      exact ⟨_, .logical hf hc h⟩

theorem ofJson_eq_ok_iff {json : Json} (hd : json.NamesDistinct) {filter : Filter} :
    ofJson json = .ok filter ↔ Reads json filter := by
  cases json with
  | object members =>
    have hc : (Entries.contains "selectorFilters" members ||
        Entries.contains "logicalFilters" members) = true ↔
        "selectorFilters" ∈ Entries.keys members ∨ "logicalFilters" ∈ Entries.keys members := by
      rw [Bool.or_eq_true, Entries.contains_iff_mem_keys, Entries.contains_iff_mem_keys]
    -- The outermost logical filter stands at the first level, with all levels still allowed.
    have hlevels : logicalDepthLimit + 1 = logicalDepthLimit + 1 := rfl
    unfold ofJson
    simp only
    split
    · rename_i hfields hchildren
      rw [Entries.contains_iff_mem_keys] at hfields
      rw [← Bool.not_eq_true, hc, not_or] at hchildren
      simp only [bind_eq_ok_iff, Selector.ofMembers_eq_ok_iff hd]
      constructor
      · rintro ⟨s, hs, h⟩
        cases h
        exact .selector hfields hchildren.1 hchildren.2 hs
      · intro h
        cases h with
        | selector _ _ _ hs => exact ⟨_, hs, rfl⟩
        | logical hf => exact absurd hfields hf
    · rename_i hfields hchildren
      rw [← Bool.not_eq_true, Entries.contains_iff_mem_keys] at hfields
      rw [hc] at hchildren
      simp only [bind_eq_ok_iff, LogicalFilter.ofMembers_eq_ok_iff hlevels hd]
      constructor
      · rintro ⟨l, hl, h⟩
        cases h
        exact .logical hfields hchildren hl
      · intro h
        cases h with
        | selector hf => exact absurd hf hfields
        | logical _ _ hl => exact ⟨_, hl, rfl⟩
    · rename_i hfields hchildren
      rw [Entries.contains_iff_mem_keys] at hfields
      rw [hc] at hchildren
      constructor
      · intro h
        cases h
      · intro h
        cases h with
        | selector _ hs hl => exact absurd hchildren (not_or.2 ⟨hs, hl⟩)
        | logical hf => exact absurd hfields hf
    · rename_i hfields hchildren
      rw [← Bool.not_eq_true, Entries.contains_iff_mem_keys] at hfields
      rw [← Bool.not_eq_true, hc] at hchildren
      constructor
      · intro h
        cases h
      · intro h
        cases h with
        | selector hf => exact absurd hf hfields
        | logical _ hl => exact absurd hl hchildren
  | null | bool _ | number _ | string _ | array _ =>
    constructor
    · intro h
      cases h
    · intro h
      cases h

/-- The reader accepts the values that are the source of a filter and no others, and makes of each
the filter that it is the source of. -/
theorem exists_ofJson_iff (json : Json) (hd : json.NamesDistinct) :
    ((∃ filter, ofJson json = .ok filter) ↔ IsSource json) ∧
      ∀ filter, ofJson json = .ok filter ↔ Reads json filter := by
  refine ⟨?_, fun filter => ofJson_eq_ok_iff hd⟩
  rw [← exists_reads_iff]
  exact exists_congr fun filter => ofJson_eq_ok_iff hd

/-- A nested filter with operators in odd spellings and a list of children that is null. -/
theorem exists_ofJson_iff_nested :
    let json : Json := .object [("logicalFilters", .array [.object [("op", .string "$$Or"),
        ("selectorFilters", .array [.object [("fields", .object [("a", .object [("b", .number "-12")])]),
          ("op", .string "$GTE")], .object []]), ("logicalFilters", .null)]]),
      ("op", .string "and")]
    let filter := Filter.logical (.ofFilters .and [.ofSelectors .or
      [⟨.gte, [("a", .object [("b", .int (-12))])]⟩, ⟨.eq, []⟩]])
    json.NamesDistinct ∧ IsSource json ∧ Reads json filter := by
  intro json filter
  have hd : json.NamesDistinct := by
    simp [json, Json.NamesDistinct, Json.MembersDistinct, Json.ItemsDistinct, Entries.Distinct]
  obtain ⟨haccepts, hreads⟩ := exists_ofJson_iff json hd
  have hr : ofJson json = .ok filter := rfl
  exact ⟨hd, haccepts.1 ⟨filter, hr⟩, (hreads filter).1 hr⟩

end Filter
end DocWire
