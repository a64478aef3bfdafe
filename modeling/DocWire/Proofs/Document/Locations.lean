import DocWire.Proofs.Document.Placing

/-!
# Where names lead to

`Json.at?` is the value that names lead to, from object to object. A value that is placed stands where
its names lead to, the objects on the way keep their members and may get more, and what stands apart
stays as it was: this is `Json.Placed`. A value has no place just when the way is blocked by something
else than an object. Main statements: `placed_of_placeAt` and `exists_placeAt_iff` for one value, and
`at?_placeAll_of_apart` and `at?_placeAll_object` for many values in turn.
-/
set_option autoImplicit false

namespace DocWire
namespace Json

/-- The value that names lead to, each of them the name of a member. -/
def at? : List String → Json → Option Json
  | [], json => some json
  | name :: names, object members => (Entries.get? name members).bind (at? names)
  | _ :: _, _ => none

/-- Something other than an object stands on the way that names lead, before they are at their end. -/
def Blocked (names : List String) (root : Json) : Prop :=
  ∃ front json, front <+: names ∧ front ≠ names ∧ root.at? front = some json ∧ json.NotObject

/-- What stands under a name when a value is to be placed below it. -/
def under (name : String) (root : Entries Json) : Json := (Entries.get? name root).getD (object [])

/-- What it means that a value was placed, said of all locations. -/
structure Placed (names : List String) (value root placed : Json) : Prop where
  here : placed.at? names = some value
  onWay : ∀ front, front <+: names → front ≠ names →
    ∃ members, placed.at? front = some (object members) ∧
      ∀ old, root.at? front = some (object old) → Entries.keys old <+: Entries.keys members
  elsewhere : ∀ others, Apart others names → placed.at? others = root.at? others

/-! ## Locations -/

theorem at?_object_cons (name : String) (names : List String) (members : Entries Json) :
    (object members).at? (name :: names) = (Entries.get? name members).bind (at? names) := rfl

theorem at?_append (front back : List String) (json : Json) :
    json.at? (front ++ back) = (json.at? front).bind (at? back) := by
  induction front generalizing json with
  | nil => rfl
  | cons name rest ih =>
    cases json with
    | object members =>
      rw [List.cons_append, at?_object_cons, at?_object_cons, Option.bind_assoc]
      exact congrArg _ (funext ih)
    | _ => rfl

/-- No name leads on from a value that is no object. -/
theorem at?_eq_none_of_notObject {names : List String} (hne : names ≠ []) {json : Json}
    (h : json.NotObject) : json.at? names = none := by
  cases names with
  | nil => exact absurd rfl hne
  | cons name rest =>
    cases json with
    | object members => exact absurd rfl (h members)
    | _ => rfl

theorem isObject_or_notObject (json : Json) : (∃ members, json = object members) ∨ json.NotObject := by
  by_cases h : json.NotObject
  · exact .inr h
  · left
    unfold NotObject at h
    push Not at h
    exact h

theorem at?_under (name : String) {names : List String} (hne : names ≠ []) (root : Entries Json) :
    (under name root).at? names = (object root).at? (name :: names) := by
  rw [at?_object_cons, under]
  cases Entries.get? name root with
  | some value => rfl
  | none =>
    obtain ⟨first, rest, rfl⟩ := List.exists_cons_of_ne_nil hne
    rfl

theorem under_of_at? {name : String} {names : List String} {root : Entries Json} {json : Json}
    (h : (object root).at? (name :: names) = some json) : (under name root).at? names = some json := by
  rw [at?_object_cons] at h
  obtain ⟨value, hv, h⟩ := Option.bind_eq_some_iff.1 h
  rw [under, hv]
  exact h

/-- The way to a value that is no object leads no further. -/
theorem at?_eq_none_of_blocked {names : List String} {root : Json} (h : Blocked names root) :
    root.at? names = none := by
  obtain ⟨front, json, ⟨back, rfl⟩, hne, hat, hjson⟩ := h
  have hback : back ≠ [] := by
    rintro rfl
    exact hne (List.append_nil front).symm
  rw [at?_append, hat]
  exact at?_eq_none_of_notObject hback hjson

/-! ## Placing one value -/

/-- The step from an object to the one below it. -/
theorem placeAt_cons {rest : List String} (hrest : rest ≠ []) (path name : String) (value : Json)
    (root : Entries Json) :
    placeAt path value (name :: rest) root =
      match under name root with
      | object old => do .ok (Entries.insert name (object (← placeAt path value rest old)) root)
      | _ => .error (.value (.cannotPlace path name)) := by
  obtain ⟨next, others, rfl⟩ := List.exists_cons_of_ne_nil hrest
  rw [placeAt, under]
  cases Entries.get? name root with
  | none => rfl
  | some found => cases found <;> rfl

theorem Placed.nil (value root : Json) : Placed [] value root value where
  here := rfl
  onWay _ hlead hne := absurd (List.prefix_nil.1 hlead) hne
  elsewhere _ hapart := absurd List.nil_prefix hapart.2

/-- What is placed below a name is placed, when the new value comes under the name. -/
theorem Placed.cons {name : String} {rest : List String} {value new : Json} {root : Entries Json}
    (h : Placed rest value (under name root) new) :
    Placed (name :: rest) value (object root) (object (Entries.insert name new root)) := by
  have hunder : ∀ names,
      (object (Entries.insert name new root)).at? (name :: names) = new.at? names := by
    intro names
    rw [at?_object_cons, Entries.get?_insert_self]
    rfl
  refine ⟨?_, ?_, ?_⟩
  · rw [hunder]
    exact h.here
  · intro front hlead hne
    cases front with
    | nil =>
      refine ⟨_, rfl, fun old ho => ?_⟩
      cases ho
      rw [Entries.keys_insert]
      split
      · exact List.prefix_refl _
      · exact List.prefix_append _ _
    | cons first front =>
      obtain ⟨rfl, hbelow⟩ := List.cons_prefix_cons.1 hlead
      have hfront : front ≠ rest := fun he => hne (congrArg _ he)
      obtain ⟨members, hat, hkeys⟩ := h.onWay front hbelow hfront
      rw [hunder]
      exact ⟨members, hat, fun old ho => hkeys old (under_of_at? ho)⟩
  · intro others hapart
    cases others with
    | nil => exact absurd rfl hapart.ne_nil
    | cons first others =>
      by_cases hfirst : first = name
      · subst hfirst
        have hrest := hapart.of_cons
        rw [hunder, h.elsewhere others hrest, at?_under first hrest.ne_nil]
      · rw [at?_object_cons, at?_object_cons, Entries.get?_insert_of_ne _ _ _ _ (Ne.symm hfirst)]

theorem placed_of_placeAt {path : String} {value : Json} {names : List String} (hne : names ≠ [])
    {root placed : Entries Json} (h : placeAt path value names root = .ok placed) :
    Placed names value (object root) (object placed) := by
  induction names generalizing root placed with
  | nil => exact absurd rfl hne
  | cons name rest ih =>
    by_cases hrest : rest = []
    · subst hrest
      cases h
      exact (Placed.nil value _).cons
    rw [placeAt_cons hrest] at h
    cases hold : under name root with
    | object old =>
      rw [hold] at h
      obtain ⟨inner, hplace, h⟩ := bind_eq_ok_iff.1 h
      cases h
      have hinner := ih hrest hplace
      rw [← hold] at hinner
      exact hinner.cons
    | null | bool _ | number _ | string _ | array _ =>
      rw [hold] at h
      cases h

theorem not_blocked_nil (root : Json) : ¬ Blocked [] root := by
  rintro ⟨front, json, hlead, hne, -⟩
  exact hne (List.prefix_nil.1 hlead)

theorem blocked_cons_iff {name : String} {rest : List String} {root : Entries Json} :
    Blocked (name :: rest) (object root) ↔ Blocked rest (under name root) := by
  constructor
  · rintro ⟨front, json, hlead, hne, hat, hjson⟩
    cases front with
    | nil =>
      cases hat
      exact absurd rfl (hjson root)
    | cons first front =>
      obtain ⟨rfl, hbelow⟩ := List.cons_prefix_cons.1 hlead
      exact ⟨front, json, hbelow, fun he => hne (congrArg _ he), under_of_at? hat, hjson⟩
  · rintro ⟨front, json, hlead, hne, hat, hjson⟩
    refine ⟨name :: front, json, List.cons_prefix_cons.2 ⟨rfl, hlead⟩, ?_, ?_, hjson⟩
    · exact fun he => hne (List.cons.inj he).2
    · unfold under at hat
      cases hg : Entries.get? name root with
      | some value =>
        rw [hg] at hat
        rw [at?_object_cons, hg]
        exact hat
      | none =>
        -- Below a name that is not there stands an empty object, from which no name leads on.
        rw [hg] at hat
        cases front with
        | nil =>
          cases hat
          exact absurd rfl (hjson [])
        | cons first others => cases hat

/-- A value can be placed unless the way to it is blocked. -/
theorem exists_placeAt_iff (path : String) (value : Json) {names : List String} (hne : names ≠ [])
    (root : Entries Json) :
    (∃ placed, placeAt path value names root = .ok placed) ↔ ¬ Blocked names (object root) := by
  induction names generalizing root with
  | nil => exact absurd rfl hne
  | cons name rest ih =>
    rw [blocked_cons_iff]
    by_cases hrest : rest = []
    · subst hrest
      exact iff_of_true ⟨_, rfl⟩ (not_blocked_nil _)
    rw [placeAt_cons hrest]
    rcases isObject_or_notObject (under name root) with ⟨old, hold⟩ | hold
    · rw [hold, ← ih hrest old]
      simp only [bind_eq_ok_iff]
      constructor
      · rintro ⟨-, inner, hplace, -⟩
        exact ⟨inner, hplace⟩
      · rintro ⟨inner, hplace⟩
        exact ⟨_, inner, hplace, rfl⟩
    · have hblocked : Blocked rest (under name root) :=
        ⟨[], _, List.nil_prefix, Ne.symm hrest, rfl, hold⟩
      refine iff_of_false ?_ (not_not_intro hblocked)
      rintro ⟨placed, hplace⟩
      split at hplace
      · exact hold _ ‹_›
      · cases hplace

/-! ## Placing many values -/

/-- Places values at their paths, one after another. -/
def placeAll : List (String × Json) → Entries Json → Except Failure (Entries Json)
  | [], root => .ok root
  | (path, value) :: rest, root => do placeAll rest (← place path value root)

theorem placed_of_place {path : String} {value : Json} {root placed : Entries Json}
    (h : place path value root = .ok placed) :
    Placed (segments path) value (object root) (object placed) :=
  placed_of_placeAt (segments_ne_nil path) h

theorem exists_place_iff (path : String) (value : Json) (root : Entries Json) :
    (∃ placed, place path value root = .ok placed) ↔ ¬ Blocked (segments path) (object root) :=
  exists_placeAt_iff path value (segments_ne_nil path) root

theorem placeAll_cons_eq_ok_iff {key : String × Json} {keys : List (String × Json)}
    {root placed : Entries Json} :
    placeAll (key :: keys) root = .ok placed ↔
      ∃ next, place key.1 key.2 root = .ok next ∧ placeAll keys next = .ok placed :=
  bind_eq_ok_iff

theorem placeAll_append_eq_ok_iff {front back : List (String × Json)} {root placed : Entries Json} :
    placeAll (front ++ back) root = .ok placed ↔
      ∃ next, placeAll front root = .ok next ∧ placeAll back next = .ok placed := by
  induction front generalizing root with
  | nil => simp [placeAll]
  | cons key rest ih =>
    rw [List.cons_append, placeAll_cons_eq_ok_iff]
    constructor
    · rintro ⟨first, hfirst, h⟩
      obtain ⟨next, hnext, hback⟩ := ih.1 h
      exact ⟨next, placeAll_cons_eq_ok_iff.2 ⟨first, hfirst, hnext⟩, hback⟩
    · rintro ⟨next, hfront, hback⟩
      obtain ⟨first, hfirst, hnext⟩ := placeAll_cons_eq_ok_iff.1 hfront
      exact ⟨first, hfirst, ih.2 ⟨next, hnext, hback⟩⟩

/-- What stands apart from all paths stays as it was. -/
theorem at?_placeAll_of_apart {keys : List (String × Json)} {root placed : Entries Json}
    (h : placeAll keys root = .ok placed) {names : List String}
    (hapart : ∀ key ∈ keys, Apart names (segments key.1)) :
    (object placed).at? names = (object root).at? names := by
  induction keys generalizing root with
  | nil =>
    cases h
    rfl
  | cons key rest ih =>
    obtain ⟨next, hplace, hrest⟩ := placeAll_cons_eq_ok_iff.1 h
    obtain ⟨hkey, hapart⟩ := List.forall_mem_cons.1 hapart
    calc (object placed).at? names
      _ = (object next).at? names := ih hrest hapart
      _ = (object root).at? names := (placed_of_place hplace).elsewhere names hkey

/-- An object that does not stand at a path or below one keeps its members, in their order and in front
of new ones. -/
theorem Placed.at?_object {names : List String} {value root placed : Json}
    (h : Placed names value root placed) {others : List String} (hothers : ¬ names <+: others)
    {members : Entries Json} (hat : root.at? others = some (object members)) :
    ∃ more, placed.at? others = some (object more) ∧ Entries.keys members <+: Entries.keys more := by
  by_cases hlead : others <+: names
  · have hne : others ≠ names := fun he => hothers (he ▸ List.prefix_refl others)
    obtain ⟨more, hmore, hkeys⟩ := h.onWay others hlead hne
    exact ⟨more, hmore, hkeys members hat⟩
  · refine ⟨members, ?_, List.prefix_refl _⟩
    rw [h.elsewhere others ⟨hlead, hothers⟩, hat]

theorem at?_placeAll_object {keys : List (String × Json)} {root placed : Entries Json}
    (h : placeAll keys root = .ok placed) {names : List String}
    (hnames : ∀ key ∈ keys, ¬ segments key.1 <+: names) {members : Entries Json}
    (hat : (object root).at? names = some (object members)) :
    ∃ more, (object placed).at? names = some (object more) ∧
      Entries.keys members <+: Entries.keys more := by
  induction keys generalizing root members with
  | nil =>
    cases h
    exact ⟨members, hat, List.prefix_refl _⟩
  | cons key rest ih =>
    obtain ⟨next, hplace, hrest⟩ := placeAll_cons_eq_ok_iff.1 h
    obtain ⟨hkey, hnames⟩ := List.forall_mem_cons.1 hnames
    obtain ⟨middle, hmiddle, hfirst⟩ := (placed_of_place hplace).at?_object hkey hat
    obtain ⟨more, hmore, hsecond⟩ := ih hrest hnames hmiddle
    exact ⟨more, hmore, hfirst.trans hsecond⟩

end Json

end DocWire
