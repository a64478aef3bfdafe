import Mathlib.Data.Option.Defs
import DocWire.Proofs.Filter.Source
import DocWire.Proofs.Update.Source

/-!
# The order of members

Readers take members out of an object by name, and the gap that one leaves is filled from the end.
So the order in which the others stand changes all the time, and the last check sees whatever order
remains. None of it shows: two runs over reordered members go through the same steps, and what they
hold in hand differs by a reordering in turn. Main statement: `member_order_irrelevant`.
-/
set_option autoImplicit false

namespace DocWire
variable {α β γ δ : Type}

/-! ## Two runs -/

/-- Two steps fail by errors of one kind, or both succeed with results that are related. -/
inductive SameKind (r : α → γ → Prop) : Except Failure α → Except Failure γ → Prop
  | ok {a : α} {c : γ} (h : r a c) : SameKind r (.ok a) (.ok c)
  | error {e e' : Failure} (h : e.kind = e'.kind) : SameKind r (.error e) (.error e')

namespace SameKind

theorem refl (x : Except Failure α) : SameKind (· = ·) x x := by
  cases x with
  | error e => exact .error rfl
  | ok a => exact .ok rfl

/-- Steps that follow are compared on the results of the steps before. -/
theorem bind {r : α → γ → Prop} {s : β → δ → Prop} {x : Except Failure α} {y : Except Failure γ}
    {f : α → Except Failure β} {g : γ → Except Failure δ} (h : SameKind r x y)
    (hf : ∀ a c, x = .ok a → y = .ok c → r a c → SameKind s (f a) (g c)) :
    SameKind s (x >>= f) (y >>= g) := by
  cases h with
  | ok h => exact hf _ _ rfl rfl h
  | error h => exact .error h

/-- Steps on one result are compared on it. -/
theorem bind_eq {s : β → δ → Prop} {x y : Except Failure α} {f : α → Except Failure β}
    {g : α → Except Failure δ} (h : SameKind (· = ·) x y) (hf : ∀ a, SameKind s (f a) (g a)) :
    SameKind s (x >>= f) (y >>= g) := by
  refine h.bind fun a c _ _ hac => ?_
  cases hac
  exact hf a

theorem outcomes {x y : Except Failure α} (h : SameKind (· = ·) x y) :
    (∃ a, x = .ok a ∧ y = .ok a) ∨ ∃ e e', x = .error e ∧ y = .error e' ∧ e.kind = e'.kind := by
  cases h with
  | ok h =>
    cases h
    exact .inl ⟨_, rfl, rfl⟩
  | error h => exact .inr ⟨_, _, rfl, rfl, h⟩

end SameKind

/-! ## Reordered values -/

namespace Json

mutual
/-- A value with the members of its objects, however deep they stand, in another order; what stands
under `fields` is left as it is. -/
inductive Reordered : Json → Json → Prop
  | same (json : Json) : Reordered json json
  | array {items others : List Json} (h : ItemsReordered items others) :
      Reordered (.array items) (.array others)
  | object {members inner others : Entries Json} (h : MembersReordered members inner)
      (hp : inner.Perm others) : Reordered (.object members) (.object others)

inductive ItemsReordered : List Json → List Json → Prop
  | nil : ItemsReordered [] []
  | cons {item other : Json} {items others : List Json} (h : Reordered item other)
      (hr : ItemsReordered items others) : ItemsReordered (item :: items) (other :: others)

/-- Members in the same order, their values reordered. -/
inductive MembersReordered : List (String × Json) → List (String × Json) → Prop
  | nil : MembersReordered [] []
  | fields (value : Json) {members others : List (String × Json)}
      (hr : MembersReordered members others) :
      MembersReordered (("fields", value) :: members) (("fields", value) :: others)
  | cons {name : String} {value other : Json} {members others : List (String × Json)}
      (hn : name ≠ "fields") (h : Reordered value other) (hr : MembersReordered members others) :
      MembersReordered ((name, value) :: members) ((name, other) :: others)
end

theorem MembersReordered.refl (members : Entries Json) : MembersReordered members members := by
  induction members with
  | nil => exact .nil
  | cons member rest ih =>
    obtain ⟨name, value⟩ := member
    by_cases hn : name = "fields"
    · subst hn
      exact .fields value ih
    · exact .cons hn (.same value) ih

theorem ItemsReordered.refl (items : List Json) : ItemsReordered items items := by
  induction items with
  | nil => exact .nil
  | cons item rest ih => exact .cons (.same item) ih

theorem reordered_object_iff {members : Entries Json} {other : Json} :
    Reordered (.object members) other ↔
      ∃ inner others, MembersReordered members inner ∧ inner.Perm others ∧ other = .object others := by
  constructor
  · intro h
    cases h with
    | same => exact ⟨members, members, .refl members, .refl members, rfl⟩
    | object h hp => exact ⟨_, _, h, hp, rfl⟩
  · rintro ⟨inner, others, h, hp, rfl⟩
    exact .object h hp

theorem MembersReordered.keys_eq {members others : Entries Json} (h : MembersReordered members others) :
    Entries.keys others = Entries.keys members := by
  induction members generalizing others with
  | nil =>
    cases h
    rfl
  | cons member rest ih =>
    cases h with
    | fields value hr => exact congrArg ("fields" :: ·) (ih hr)
    | @cons name _ _ _ _ _ _ hr => exact congrArg (name :: ·) (ih hr)

theorem MembersReordered.get? {members others : Entries Json} (h : MembersReordered members others)
    (name : String) :
    Option.Rel Reordered (Entries.get? name members) (Entries.get? name others) := by
  induction members generalizing others with
  | nil =>
    cases h
    exact .none
  | cons member rest ih =>
    cases h with
    | fields value hr =>
      unfold Entries.get?
      split
      · exact .some (.same value)
      · exact ih hr
    | cons hn h hr =>
      unfold Entries.get?
      split
      · exact .some h
      · exact ih hr

theorem MembersReordered.get?_fields {members others : Entries Json}
    (h : MembersReordered members others) :
    Entries.get? "fields" members = Entries.get? "fields" others := by
  induction members generalizing others with
  | nil =>
    cases h
    rfl
  | cons member rest ih =>
    cases h with
    | fields value hr => rw [Entries.get?, Entries.get?, if_pos rfl, if_pos rfl]
    | cons hn h hr => rw [Entries.get?, Entries.get?, if_neg hn, if_neg hn, ih hr]

mutual
/-- Reordering keeps the names of every object distinct. -/
theorem Reordered.namesDistinct {json other : Json} (h : Reordered json other)
    (hd : json.NamesDistinct) : other.NamesDistinct := by
  cases h with
  | same => exact hd
  | array h => exact h.itemsDistinct hd
  | object h hp =>
    obtain ⟨hnames, hvalues⟩ := hd
    refine ⟨(hp.map Prod.fst).nodup_iff.1 ?_, ?_⟩
    · rw [show List.map Prod.fst _ = Entries.keys _ from h.keys_eq]
      exact hnames
    · rw [membersDistinct_iff]
      intro entry he
      exact (membersDistinct_iff _).1 (h.membersDistinct hvalues) entry (hp.mem_iff.2 he)

theorem ItemsReordered.itemsDistinct {items others : List Json} (h : ItemsReordered items others)
    (hd : ItemsDistinct items) : ItemsDistinct others := by
  cases h with
  | nil => trivial
  | cons h hr => exact ⟨h.namesDistinct hd.1, hr.itemsDistinct hd.2⟩

theorem MembersReordered.membersDistinct {members others : Entries Json}
    (h : MembersReordered members others) (hd : MembersDistinct members) : MembersDistinct others := by
  cases h with
  | nil => trivial
  | fields value hr => exact ⟨hd.1, hr.membersDistinct hd.2⟩
  | cons hn h hr => exact ⟨h.namesDistinct hd.1, hr.membersDistinct hd.2⟩
end

/-- What readers see of two lists of members that differ by a reordering. -/
structure Matched (members others : Entries Json) : Prop where
  distinct : (Json.object members).NamesDistinct
  distinct_others : (Json.object others).NamesDistinct
  keys_perm : (Entries.keys members).Perm (Entries.keys others)
  get? : ∀ name, Option.Rel Reordered (Entries.get? name members) (Entries.get? name others)
  get?_fields : Entries.get? "fields" members = Entries.get? "fields" others

/-- An object is reordered into an object, and its members are matched. -/
theorem Reordered.exists_matched {members : Entries Json} {other : Json}
    (h : Reordered (.object members) other) (hd : (Json.object members).NamesDistinct) :
    ∃ others, other = .object others ∧ Matched members others := by
  have hdo := h.namesDistinct hd
  obtain ⟨inner, others, hm, hp, rfl⟩ := reordered_object_iff.1 h
  have hget (name : String) : Entries.get? name inner = Entries.get? name others :=
    Entries.get?_of_perm hp hdo.1 name
  refine ⟨others, rfl, hd, hdo, ?_, fun name => ?_, ?_⟩
  · rw [← hm.keys_eq]
    exact hp.map Prod.fst
  · rw [← hget]
    exact hm.get? name
  · rw [← hget]
    exact hm.get?_fields

namespace Matched
variable {members others : Entries Json} (h : Matched members others)
include h

theorem contains_eq (name : String) : Entries.contains name members = Entries.contains name others := by
  have hn := h.get? name
  unfold Entries.contains
  generalize Entries.get? name members = value?, Entries.get? name others = other? at hn
  cases hn <;> rfl

/-- A name is taken out on both sides, when the same names are gone already. -/
theorem swapErase {taken : List String} {left left' : Entries Json}
    (hl : Entries.Left members taken left) (hl' : Entries.Left others taken left') (name : String)
    (hn : name ∉ taken) :
    ∃ rest rest', Entries.swapErase name left = (Entries.get? name members, rest) ∧
      Entries.swapErase name left' = (Entries.get? name others, rest') ∧
      Entries.Left members (taken ++ [name]) rest ∧ Entries.Left others (taken ++ [name]) rest' := by
  obtain ⟨rest, he, hr⟩ := hl.swapErase h.distinct.1 name hn
  obtain ⟨rest', he', hr'⟩ := hl'.swapErase h.distinct_others.1 name hn
  exact ⟨rest, rest', he, he', hr, hr'⟩

/-- When the same names are gone, something is left on both sides or on none. -/
theorem left_eq_nil_iff {taken : List String} {left left' : Entries Json}
    (hl : Entries.Left members taken left) (hl' : Entries.Left others taken left') :
    left = [] ↔ left' = [] := by
  rw [hl.eq_nil_iff, hl'.eq_nil_iff]
  exact forall_congr' fun name => by rw [h.keys_perm.mem_iff]

end Matched
end Json

/-! ## Readers of filters -/

open Json (Reordered ItemsReordered Matched)

theorem sameKind_rejectOthers {fault : String → SourceFault} {members others : Entries Json}
    (h : members = [] ↔ others = []) :
    SameKind (· = ·) (rejectOthers fault members) (rejectOthers fault others) := by
  cases members with
  | nil =>
    obtain rfl := h.1 rfl
    exact .ok rfl
  | cons entry rest =>
    cases others with
    | nil => cases h.2 rfl
    | cons => exact .error rfl

/-- A reader that refuses arrays and objects sees no reordering. -/
theorem sameKind_scalar {read : Option Json → Except Failure α}
    (harray : ∀ items, ∃ fault, read (some (.array items)) = .error (.source fault))
    (hobject : ∀ members, ∃ fault, read (some (.object members)) = .error (.source fault))
    {json? other? : Option Json} (h : Option.Rel Reordered json? other?) :
    SameKind (· = ·) (read json?) (read other?) := by
  cases h with
  | none => exact .refl _
  | some h =>
    cases h with
    | same => exact .refl _
    | @array items others =>
      obtain ⟨fault, hf⟩ := harray items
      obtain ⟨fault', hf'⟩ := harray others
      rw [hf, hf']
      exact .error rfl
    | @object members _ others =>
      obtain ⟨fault, hf⟩ := hobject members
      obtain ⟨fault', hf'⟩ := hobject others
      rw [hf, hf']
      exact .error rfl

/-- A reader of items that reads objects one after another and refuses all other items. -/
theorem sameKind_items {list : List Json → Except Failure (List α)}
    {read : Entries Json → Except Failure α}
    (hobject : ∀ members rest, list (.object members :: rest) =
      read members >>= fun a => list rest >>= fun as => .ok (a :: as))
    (hother : ∀ item rest, (∀ members, item ≠ .object members) →
      ∃ fault, list (item :: rest) = .error (.source fault))
    (hread : ∀ members others, Matched members others →
      SameKind (· = ·) (read members) (read others))
    {items others : List Json} (h : ItemsReordered items others) (hd : ∀ item ∈ items, item.NamesDistinct) :
    SameKind (· = ·) (list items) (list others) := by
  induction items generalizing others with
  | nil =>
    cases h
    exact .refl _
  | cons item rest ih =>
    cases h with
    | @cons _ other _ others h hr =>
      obtain ⟨hitem, hrest⟩ := List.forall_mem_cons.1 hd
      by_cases ho : ∃ members, item = .object members
      · obtain ⟨members, rfl⟩ := ho
        obtain ⟨members', rfl, hm⟩ := h.exists_matched hitem
        rw [hobject, hobject]
        exact (hread members members' hm).bind_eq fun a => (ih hr hrest).bind_eq fun as => .ok rfl
      · -- An item that is no object is reordered into one that is none either.
        rw [not_exists] at ho
        have ho' : ∀ members, other ≠ .object members := by
          rintro members rfl
          cases h with
          | same => exact ho _ rfl
          | object => exact ho _ rfl
        obtain ⟨fault, hf⟩ := hother item rest ho
        obtain ⟨fault', hf'⟩ := hother other others ho'
        rw [hf, hf']
        exact .error rfl

namespace Selector

theorem sameKind_readOp {json? other? : Option Json} (h : Option.Rel Reordered json? other?) :
    SameKind (· = ·) (readOp json?) (readOp other?) :=
  sameKind_scalar (fun _ => ⟨_, rfl⟩) (fun _ => ⟨_, rfl⟩) h

theorem sameKind_ofMembers {members others : Entries Json} (h : Matched members others) :
    SameKind (· = ·) (ofMembers members) (ofMembers others) := by
  have h0 := Entries.left_self h.distinct.1
  have h0' := Entries.left_self h.distinct_others.1
  obtain ⟨first, first', hop, hop', h1, h1'⟩ := h.swapErase h0 h0' "op" (by decide)
  obtain ⟨left, left', hfields, hfields', hl, hl'⟩ := h.swapErase h1 h1' "fields" (by decide)
  unfold ofMembers
  simp only [hop, hop', hfields, hfields', ← h.get?_fields]
  refine (sameKind_readOp (h.get? "op")).bind_eq fun op => ?_
  refine (SameKind.refl _).bind_eq fun fields => ?_
  exact (sameKind_rejectOthers (h.left_eq_nil_iff hl hl')).bind_eq fun _ => .ok rfl

theorem sameKind_ofItems {items others : List Json} (h : ItemsReordered items others)
    (hd : ∀ item ∈ items, item.NamesDistinct) :
    SameKind (· = ·) (ofItems items) (ofItems others) := by
  refine sameKind_items (fun members rest => ?_) ?_ (fun _ _ => sameKind_ofMembers) h hd
  · rfl
  · intro item rest ho
    cases item with
    | object members => exact absurd rfl (ho members)
    | null | bool _ | number _ | string _ | array _ => exact ⟨_, rfl⟩

end Selector

namespace LogicalFilter

theorem sameKind_readOp {json? other? : Option Json} (h : Option.Rel Reordered json? other?) :
    SameKind (· = ·) (readOp json?) (readOp other?) :=
  sameKind_scalar (fun _ => ⟨_, rfl⟩) (fun _ => ⟨_, rfl⟩) h

theorem sameKind_readChildren (key : String) {json? other? : Option Json}
    (h : Option.Rel Reordered json? other?) :
    SameKind ItemsReordered (readChildren key json?) (readChildren key other?) := by
  cases h with
  | none => exact .ok .nil
  | some h =>
    cases h with
    | same =>
      rename_i json
      cases json with
      | null => exact .ok .nil
      | array items => exact .ok (.refl items)
      | bool _ | number _ | string _ | object _ => exact .error rfl
    | array h => exact .ok h
    | object => exact .error rfl

theorem sameKind_itemsWith {read : Entries Json → Except Failure LogicalFilter}
    (hread : ∀ members others, Matched members others →
      SameKind (· = ·) (read members) (read others))
    {items others : List Json} (h : ItemsReordered items others)
    (hd : ∀ item ∈ items, item.NamesDistinct) :
    SameKind (· = ·) (itemsWith read items) (itemsWith read others) := by
  refine sameKind_items (fun members rest => ?_) ?_ hread h hd
  · rfl
  · intro item rest ho
    cases item with
    | object members => exact absurd rfl (ho members)
    | null | bool _ | number _ | string _ | array _ => exact ⟨_, rfl⟩

/-- One level: what is read of the members is the same, and the children are reordered in turn. -/
theorem sameKind_ofMembers_succ {levels : Nat}
    (hread : ∀ members others, Matched members others →
      SameKind (· = ·) (ofMembers levels members) (ofMembers levels others))
    {members others : Entries Json} (h : Matched members others) :
    SameKind (· = ·) (ofMembers (levels + 1) members) (ofMembers (levels + 1) others) := by
  have h0 := Entries.left_self h.distinct.1
  have h0' := Entries.left_self h.distinct_others.1
  obtain ⟨first, first', hop, hop', h1, h1'⟩ := h.swapErase h0 h0' "op" (by decide)
  obtain ⟨second, second', hselectors, hselectors', h2, h2'⟩ :=
    h.swapErase h1 h1' "selectorFilters" (by decide)
  obtain ⟨left, left', hfilters, hfilters', hl, hl'⟩ := h.swapErase h2 h2' "logicalFilters" (by decide)
  unfold ofMembers
  simp only [hop, hop', hselectors, hselectors', hfilters, hfilters']
  refine (sameKind_readOp (h.get? "op")).bind_eq fun op => ?_
  refine (sameKind_readChildren _ (h.get? "selectorFilters")).bind fun selectors selectors' hs _ hsel => ?_
  refine (sameKind_readChildren _ (h.get? "logicalFilters")).bind fun filters filters' hf _ hfil => ?_
  refine (sameKind_rejectOthers (h.left_eq_nil_iff hl hl')).bind_eq fun _ => ?_
  have hds : ∀ item ∈ selectors, item.NamesDistinct :=
    (readChildren_eq_ok_iff.1 hs).namesDistinct fun json => h.distinct.of_get?
  have hdf : ∀ item ∈ filters, item.NamesDistinct :=
    (readChildren_eq_ok_iff.1 hf).namesDistinct fun json => h.distinct.of_get?
  have children := (Selector.sameKind_ofItems hsel hds).bind_eq fun children =>
    SameKind.refl (.ok (ofSelectors op children))
  have filterChildren := (sameKind_itemsWith hread hfil hdf).bind_eq fun children =>
    SameKind.refl (.ok (ofFilters op children))
  cases hfil with
  | nil => exact children
  | cons =>
    cases hsel with
    | nil => exact filterChildren
    | cons => exact .refl _

theorem sameKind_ofMembers (levels : Nat) {members others : Entries Json} (h : Matched members others) :
    SameKind (· = ·) (ofMembers levels members) (ofMembers levels others) := by
  induction levels generalizing members others with
  | zero => exact .refl _
  | succ levels ih => exact sameKind_ofMembers_succ (fun _ _ => ih) h

end LogicalFilter

theorem Filter.sameKind_ofJson {json other : Json} (hd : json.NamesDistinct) (h : json.Reordered other) :
    SameKind (· = ·) (Filter.ofJson json) (Filter.ofJson other) := by
  cases json with
  | object members =>
    obtain ⟨others, rfl, hm⟩ := h.exists_matched hd
    unfold Filter.ofJson
    simp only [← hm.contains_eq]
    split
    · exact (Selector.sameKind_ofMembers hm).bind_eq fun s => .ok rfl
    · exact (LogicalFilter.sameKind_ofMembers _ hm).bind_eq fun l => .ok rfl
    · exact .error rfl
    · exact .error rfl
  | null | bool _ | number _ | string _ | array _ =>
    cases h <;> exact .error rfl

/-! ## Updates -/

theorem Json.membersDepth_of_perm {members others : Entries Json} (h : members.Perm others) :
    membersDepth members = membersDepth others := by
  induction h with
  | nil => rfl
  | cons member h ih => rw [membersDepth, membersDepth, ih]
  | swap first second rest =>
    simp only [membersDepth]
    exact Nat.max_left_comm ..
  | trans h h' ih ih' => exact ih.trans ih'

theorem Json.keptMembers_eq_map (members : Entries Json) :
    keptMembers members = members.map fun member => (member.1, member.2.kept) := by
  induction members with
  | nil => rfl
  | cons member rest ih => rw [keptMembers, ih, List.map_cons]

/-- Members in another order are unwrapped to the same, in the other order. -/
theorem Json.UnwrapsMembers.of_perm {members others plain : Entries Json} (h : members.Perm others)
    (hu : UnwrapsMembers members plain) :
    ∃ plain', UnwrapsMembers others plain' ∧ plain.Perm plain' := by
  induction h generalizing plain with
  | nil => exact ⟨plain, hu, .refl plain⟩
  | cons member h ih =>
    obtain ⟨value, rest, hv, hr, rfl⟩ := hu.of_cons
    obtain ⟨rest', hr', hp⟩ := ih hr
    exact ⟨(member.1, value) :: rest', .cons hv hr', hp.cons _⟩
  | swap first second rest =>
    obtain ⟨value, behind, hv, hr, rfl⟩ := hu.of_cons
    obtain ⟨value', rest', hv', hr', rfl⟩ := hr.of_cons
    exact ⟨(first.1, value') :: (second.1, value) :: rest', .cons hv' (.cons hv hr'), .swap ..⟩
  | trans h h' ih ih' =>
    obtain ⟨middle, hm, hp⟩ := ih hu
    obtain ⟨plain', hu', hp'⟩ := ih' hm
    exact ⟨plain', hu', hp.trans hp'⟩

namespace Update

/-- An update is looked up by name in its source, so the order of the members does not matter. -/
theorem reads_iff_of_perm {members others : Entries Json} (h : members.Perm others)
    (hd : Entries.Distinct others) {u : Update} :
    Reads (.object members) u ↔ Reads (.object others) u := by
  have hkeys (name : String) : name ∈ Entries.keys members ↔ name ∈ Entries.keys others :=
    (h.map Prod.fst).mem_iff
  simp only [reads_object_iff, hkeys, Entries.get?_of_perm h hd]

/-- The source of an update does not open with the reserved name, so each of its members is unwrapped
on its own. -/
theorem exists_unwraps_iff {members : Entries Json} (hd : Entries.Distinct members) {u : Update} :
    (∃ plain, (Json.object members).Unwraps plain ∧ Reads plain.kept u) ↔
      ∃ others, Json.UnwrapsMembers members others ∧ Reads (.object (Json.keptMembers others)) u := by
  have hkept {others : Entries Json} (h : Json.UnwrapsMembers members others) :
      (Json.object others).kept = .object (Json.keptMembers others) := by
    refine Json.kept_object ?_
    rw [Entries.Distinct, h.keys]
    exact hd
  constructor
  · rintro ⟨plain, hu, h⟩
    rcases hu.of_object with ⟨-, others, hm, rfl⟩ | ⟨text, -, -, rfl⟩
    · exact ⟨others, hm, hkept hm ▸ h⟩
    · cases h
  · rintro ⟨others, hm, h⟩
    refine ⟨.object others, .object ?_ hm, (hkept hm).symm ▸ h⟩
    cases members with
    | nil => rfl
    | cons member rest =>
      rw [Json.isWrapped_cons, decide_eq_false_iff_not]
      have hnames := (reads_object_iff.1 h).1
      rw [Json.keys_keptMembers, hm.keys] at hnames
      intro hname
      rcases hnames member.1 List.mem_cons_self with h | ⟨op, h⟩
      · exact absurd (hname ▸ h) (by decide)
      · exact absurd (hname ▸ h) (by cases op <;> decide)

theorem parse_iff_of_perm {text text' : String} {members others : Entries Json}
    (hr : Json.Reads text (.object members)) (hr' : Json.Reads text' (.object others))
    (h : members.Perm others) (hd : Entries.Distinct members) {u : Update} :
    parse text = .ok u ↔ parse text' = .ok u := by
  have hdo : Entries.Distinct others := (h.map Prod.fst).nodup_iff.1 hd
  have hone {members others : Entries Json} (h : members.Perm others)
      (hdo : Entries.Distinct others) :
      (∃ plain, Json.UnwrapsMembers members plain ∧ Reads (.object (Json.keptMembers plain)) u) →
        ∃ plain, Json.UnwrapsMembers others plain ∧ Reads (.object (Json.keptMembers plain)) u := by
    rintro ⟨plain, hu, hreads⟩
    obtain ⟨plain', hu', hp⟩ := hu.of_perm h
    refine ⟨plain', hu', (reads_iff_of_perm ?_ ?_).1 hreads⟩
    · rw [Json.keptMembers_eq_map, Json.keptMembers_eq_map]
      exact hp.map _
    · rw [Entries.Distinct, Json.keys_keptMembers, hu'.keys]
      exact hdo
  rw [parse_eq_ok_iff hr, parse_eq_ok_iff hr', exists_unwraps_iff hd, exists_unwraps_iff hdo,
    Json.depth, Json.depth, Json.membersDepth_of_perm h]
  exact and_congr_right fun _ => ⟨hone h hdo, hone h.symm hd⟩

end Update

/-! ## Filters and updates -/

/-- Reordering the members of objects anywhere in the source of a filter, what stands under `fields`
aside, gives an equal filter or an error of the same kind. Reordering the members of an update gives
an equal update, or both are refused. -/
theorem member_order_irrelevant :
    (∀ {json other : Json}, json.NamesDistinct → json.Reordered other →
      (∃ filter, Filter.ofJson json = .ok filter ∧ Filter.ofJson other = .ok filter) ∨
      ∃ e e', Filter.ofJson json = .error e ∧ Filter.ofJson other = .error e' ∧ e.kind = e'.kind) ∧
    ∀ {text text' : String} {members others : Entries Json},
      Json.Reads text (.object members) → Json.Reads text' (.object others) →
      Entries.Distinct members → members.Perm others →
      (∃ u, Update.parse text = .ok u ∧ Update.parse text' = .ok u) ∨
      (∃ e e', Update.parse text = .error e ∧ Update.parse text' = .error e') := by
  constructor
  · intro json other hd h
    exact (Filter.sameKind_ofJson hd h).outcomes
  · intro text text' members others hr hr' hd h
    have hiff (u : Update) : Update.parse text = .ok u ↔ Update.parse text' = .ok u :=
      Update.parse_iff_of_perm hr hr' h hd
    cases hu : Update.parse text with
    | ok u => exact .inl ⟨u, rfl, (hiff u).1 hu⟩
    | error e =>
      have hne : ¬ ∃ u, Update.parse text' = .ok u := by
        rintro ⟨u, hu'⟩
        rw [(hiff u).2 hu'] at hu
        cases hu
      obtain ⟨e', he'⟩ := exists_error_iff.2 hne
      exact .inr ⟨e, e', rfl, he'⟩

/-- A logical filter of two levels, its selector included, and an update of two members. -/
theorem member_order_irrelevant_nested :
    let fields : Json := .object [("b", .null), ("a", .bool true)]
    let json : Json := .object [("op", .string "and"), ("logicalFilters", .array [.object
      [("op", .string "or"), ("selectorFilters", .array [.object
        [("op", .string "gt"), ("fields", fields)]])]])]
    let other : Json := .object [("logicalFilters", .array [.object
      [("selectorFilters", .array [.object [("fields", fields), ("op", .string "gt")]]),
        ("op", .string "or")]]), ("op", .string "and")]
    let members : Entries Json := [("$unset", .array [.string "x"]), ("$set", fields)]
    let others : Entries Json := [("$set", fields), ("$unset", .array [.string "x"])]
    (json.NamesDistinct ∧ json.Reordered other ∧
      ∃ filter, Filter.ofJson json = .ok filter ∧ Filter.ofJson other = .ok filter) ∧
    Entries.Distinct members ∧ members.Perm others ∧
      ∃ u, Update.parse (Json.object members).text = .ok u ∧
        Update.parse (Json.object others).text = .ok u := by
  intro fields json other members others
  obtain ⟨hfilter, hupdate⟩ := member_order_irrelevant
  have hd : json.NamesDistinct := by
    simp [json, fields, Json.NamesDistinct, Json.MembersDistinct, Json.ItemsDistinct, Entries.Distinct]
  have hselector : Json.Reordered (.object [("op", .string "gt"), ("fields", fields)])
      (.object [("fields", fields), ("op", .string "gt")]) :=
    .object (.refl _) (.swap ..)
  have hlogical : Json.Reordered
      (.object [("op", .string "or"), ("selectorFilters", .array [.object
        [("op", .string "gt"), ("fields", fields)]])])
      (.object [("selectorFilters", .array [.object [("fields", fields), ("op", .string "gt")]]),
        ("op", .string "or")]) :=
    .object (.cons (by decide) (.same _) (.cons (by decide) (.array (.cons hselector .nil)) .nil))
      (.swap ..)
  have h : json.Reordered other :=
    .object (.cons (by decide) (.same _) (.cons (by decide) (.array (.cons hlogical .nil)) .nil))
      (.swap ..)
  have hnames : (Json.object members).NamesDistinct := by
    simp [members, fields, Json.NamesDistinct, Json.MembersDistinct, Json.ItemsDistinct,
      Entries.Distinct]
  have hp : members.Perm others := .swap ..
  have hr : Json.Reads (Json.object members).text (.object members) :=
    (Json.reads_text_iff (by simp [members, fields, Json.Lexical, Json.MembersLexical,
      Json.ItemsLexical]) _).2 rfl
  have hr' : Json.Reads (Json.object others).text (.object others) :=
    (Json.reads_text_iff (by simp [others, fields, Json.Lexical, Json.MembersLexical,
      Json.ItemsLexical]) _).2 rfl
  refine ⟨⟨hd, h, ?_⟩, hnames.1, hp, ?_⟩
  · refine (hfilter hd h).resolve_right ?_
    rintro ⟨e, -, he, -⟩
    cases he
  · refine (hupdate hr hr' hnames.1 hp).resolve_right ?_
    rintro ⟨e, -, he, -⟩
    have hu : Update.Reads (.object members)
        { Update.empty with set := [("b", .null), ("a", .bool true)], unset := ["x"] } :=
      (Update.ofJson_eq_ok_iff hnames).1 rfl
    have hplain : (Json.object members).Plain := by
      simp [members, fields, Json.Plain, Json.MembersPlain, Json.ItemsPlain, Json.isWrapped,
        Json.numberName]
    rw [(Update.parse_eq_ok_iff hr).2 ⟨by decide, _, (Json.unwraps_self_iff _).2 hplain,
      (Update.reads_kept_iff hnames).2 hu⟩] at he
    cases he

end DocWire
