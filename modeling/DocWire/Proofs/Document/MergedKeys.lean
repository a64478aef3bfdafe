import DocWire.Proofs.Document.Locations
import DocWire.Proofs.Document.Unflattening
import DocWire.Proofs.Value.Plain

/-!
# Keys in a document, and the rest of it

The leaves of a key map are placed one after another. A key stands at its path in the end unless a later
key is placed on the way to it; a key whose way an earlier one blocks is refused. All that stands apart
from the keys stays. Main statements: `at?_mergeKeys_iff` and `mergeKeys_keeps`.
-/
set_option autoImplicit false

namespace DocWire

/-! ## Blocked ways -/

namespace Json

theorem Placed.blocked {names : List String} {value root placed : Json}
    (h : Placed names value root placed) (hv : value.NotObject) (hfree : ¬ Blocked names root)
    {others : List String} (hb : Blocked others root) : Blocked others placed := by
  obtain ⟨front, json, hfront, hne, hat, hjson⟩ := hb
  by_cases hnames : names <+: front
  · -- The new value stands at the obstacle or in front of it.
    refine ⟨names, value, hnames.trans hfront, ?_, h.here, hv⟩
    rintro rfl
    exact hne (hfront.eq_of_length_le hnames.length_le)
  by_cases hlead : front <+: names
  · have hother : front ≠ names := fun he => hnames (he ▸ List.prefix_refl front)
    exact absurd ⟨front, json, hlead, hother, hat, hjson⟩ hfree
  · refine ⟨front, json, hfront, hne, ?_, hjson⟩
    rw [h.elsewhere front ⟨hlead, hnames⟩, hat]

theorem blocked_placeAll {keys : List (String × Json)} (hflat : ∀ key ∈ keys, key.2.NotObject)
    {root placed : Entries Json} (h : placeAll keys root = .ok placed) {names : List String}
    (hb : Blocked names (object root)) : Blocked names (object placed) := by
  induction keys generalizing root with
  | nil =>
    cases h
    exact hb
  | cons key rest ih =>
    obtain ⟨hkey, hflat⟩ := List.forall_mem_cons.1 hflat
    obtain ⟨next, hplace, hrest⟩ := placeAll_cons_eq_ok_iff.1 h
    have hfree := (exists_place_iff key.1 key.2 root).1 ⟨next, hplace⟩
    exact ih hflat hrest ((placed_of_place hplace).blocked hkey hfree hb)

theorem blocked_of_mem {keys : List (String × Json)} (hflat : ∀ key ∈ keys, key.2.NotObject)
    {root placed : Entries Json} (h : placeAll keys root = .ok placed) {names : List String}
    {key : String × Json} (hk : key ∈ keys) (hlead : segments key.1 <+: names)
    (hne : segments key.1 ≠ names) : Blocked names (object placed) := by
  obtain ⟨front, back, rfl⟩ := List.append_of_mem hk
  obtain ⟨hfront, hback⟩ := List.forall_mem_append.1 hflat
  obtain ⟨hkey, hback⟩ := List.forall_mem_cons.1 hback
  obtain ⟨middle, -, hrest⟩ := placeAll_append_eq_ok_iff.1 h
  obtain ⟨next, hplace, hrest⟩ := placeAll_cons_eq_ok_iff.1 hrest
  have hb : Blocked names (object next) := ⟨_, _, hlead, hne, (placed_of_place hplace).here, hkey⟩
  exact blocked_placeAll hback hrest hb

/-- A value that is no object stays where it is when nothing is placed there or on the way there. -/
theorem at?_placeAll_of_notObject {keys : List (String × Json)} {root placed : Entries Json}
    (h : placeAll keys root = .ok placed) {names : List String} {value : Json} (hv : value.NotObject)
    (hnames : ∀ key ∈ keys, ¬ segments key.1 <+: names)
    (hat : (object root).at? names = some value) : (object placed).at? names = some value := by
  induction keys generalizing root with
  | nil =>
    cases h
    exact hat
  | cons key rest ih =>
    obtain ⟨hkey, hnames⟩ := List.forall_mem_cons.1 hnames
    obtain ⟨next, hplace, hrest⟩ := placeAll_cons_eq_ok_iff.1 h
    have hapart : Apart names (segments key.1) := by
      refine ⟨fun hlead => ?_, hkey⟩
      have hne : names ≠ segments key.1 := fun he => hkey (he ▸ List.prefix_refl names)
      exact (exists_place_iff key.1 key.2 root).1 ⟨next, hplace⟩ ⟨names, value, hlead, hne, hat, hv⟩
    refine ih hrest hnames ?_
    rw [(placed_of_place hplace).elsewhere names hapart, hat]

/-- One key among others that are no objects: no key before it stands on the way to it, and it stays
unless a key after it does. -/
theorem at?_placeAll_iff {front back : List (String × Json)} {path : String} {value : Json}
    {root placed : Entries Json} (h : placeAll (front ++ (path, value) :: back) root = .ok placed)
    (hflat : ∀ key ∈ front ++ (path, value) :: back, key.2.NotObject)
    (hpaths : ∀ key ∈ front ++ back, key.1 ≠ path) :
    (∀ earlier ∈ front, ¬ segments earlier.1 <+: segments path) ∧
      ((object placed).at? (segments path) = some value ↔
        ∀ later ∈ back, ¬ segments later.1 <+: segments path) := by
  obtain ⟨hfront, hback⟩ := List.forall_mem_append.1 hflat
  obtain ⟨hvalue, hback⟩ := List.forall_mem_cons.1 hback
  have hne : ∀ key ∈ front ++ back, segments key.1 ≠ segments path := by
    intro key hk he
    apply hpaths key hk
    rw [← pathFrom_segments key.1, he, pathFrom_segments]
  obtain ⟨hnefront, hneback⟩ := List.forall_mem_append.1 hne
  obtain ⟨middle, hbefore, hrest⟩ := placeAll_append_eq_ok_iff.1 h
  obtain ⟨next, hplace, hafter⟩ := placeAll_cons_eq_ok_iff.1 hrest
  refine ⟨fun earlier he hlead => ?_, ?_⟩
  · have hb := blocked_of_mem hfront hbefore he hlead (hnefront earlier he)
    exact (exists_place_iff path value middle).1 ⟨next, hplace⟩ hb
  constructor
  · intro hat later hl hlead
    have hb := blocked_of_mem hback hafter hl hlead (hneback later hl)
    rw [at?_eq_none_of_blocked hb] at hat
    cases hat
  · intro hlater
    exact at?_placeAll_of_notObject hafter hvalue hlater (placed_of_place hplace).here

end Json

/-! ## Placing leaves -/

theorem placeLeaves_eq_ok_iff {leaves : Fields} {root placed : Entries Json} :
    placeLeaves leaves root = .ok placed ↔
      ∃ keys, Value.toJsonFields leaves = .ok keys ∧ Json.placeAll keys root = .ok placed := by
  induction leaves generalizing root with
  | nil => simp [placeLeaves, Value.toJsonFields, Json.placeAll]
  | cons leaf rest ih =>
    simp only [placeLeaves, Value.toJsonFields_cons_eq_ok_iff, bind_eq_ok_iff, ih]
    constructor
    · rintro ⟨json, hjson, next, hplace, keys, hkeys, hall⟩
      exact ⟨_, ⟨json, keys, hjson, hkeys, rfl⟩, Json.placeAll_cons_eq_ok_iff.2 ⟨next, hplace, hall⟩⟩
    · rintro ⟨_, ⟨json, keys, hjson, hkeys, rfl⟩, hall⟩
      obtain ⟨next, hplace, hall⟩ := Json.placeAll_cons_eq_ok_iff.1 hall
      exact ⟨json, hjson, next, hplace, keys, hkeys, hall⟩

theorem exists_of_mergeKeys {fields leaves : Fields} (hl : fields.leaves = .ok leaves)
    {root placed : Entries Json} (hm : mergeKeys fields root = .ok placed) :
    ∃ keys, Value.toJsonFields leaves = .ok keys ∧ Json.placeAll keys root = .ok placed := by
  rw [mergeKeys, hl, bind_ok] at hm
  exact placeLeaves_eq_ok_iff.1 hm

/-! ## Merging -/

namespace Fields

/-- Each key has a JSON value, and no path of a key before it leads on to its own. The value stands at
the path in the end just when no path of a key after it leads there or on the way there. -/
theorem at?_mergeKeys_iff {fields front back : Fields} {path : String} {value : Value}
    (hl : fields.leaves = .ok (front ++ (path, value) :: back)) {root placed : Entries Json}
    (hm : mergeKeys fields root = .ok placed) :
    ∃ json, value.toJson = .ok json ∧ (∀ earlier ∈ front, ¬ segments earlier.1 <+: segments path) ∧
      ((Json.object placed).at? (segments path) = some json ↔
        ∀ later ∈ back, ¬ segments later.1 <+: segments path) := by
  obtain ⟨keys, hkeys, hplaced⟩ := exists_of_mergeKeys hl hm
  have hflat := Value.ne_object_of_toJsonFields (notObject_of_leaves hl) hkeys
  obtain ⟨before, rest, hbefore, hrest, rfl⟩ := Value.toJsonFields_append_eq_ok hkeys
  obtain ⟨json, after, hjson, hafter, rfl⟩ := Value.toJsonFields_cons_eq_ok_iff.1 hrest
  have hpaths : ∀ leaf ∈ front ++ back, leaf.1 ≠ path := by
    have hd := distinct_leaves hl
    rw [Entries.Distinct, Entries.keys, List.map_append, List.map_cons,
      List.nodup_middle, ← List.map_append, List.nodup_cons] at hd
    intro leaf hleaf he
    exact hd.1 (List.mem_map.2 ⟨leaf, hleaf, he⟩)
  obtain ⟨hfront, hback⟩ := List.forall_mem_append.1 hpaths
  have hothers : ∀ key ∈ before ++ after, key.1 ≠ path :=
    List.forall_mem_append.2 ⟨(Value.forall_name_of_toJsonFields hbefore (· ≠ path)).2 hfront,
      (Value.forall_name_of_toJsonFields hafter (· ≠ path)).2 hback⟩
  obtain ⟨hearlier, hstays⟩ := Json.at?_placeAll_iff hplaced hflat hothers
  refine ⟨json, hjson, ?_, hstays.trans ?_⟩
  · exact (Value.forall_name_of_toJsonFields hbefore (¬ segments · <+: segments path)).1 hearlier
  · exact Value.forall_name_of_toJsonFields hafter (¬ segments · <+: segments path)

/-- A key that stays at its path, between one that is lost and the one that takes its place. -/
theorem at?_mergeKeys_iff_mixed :
    let fields : Fields :=
      [("a.b", .int 1), ("c", .object [("d", .uint 2)]), ("a", .string "x")]
    let root : Entries Json := [("c", .object [("e", .null)])]
    let placed : Entries Json :=
      [("c", .object [("e", .null), ("d", .ofInt 2)]), ("a", .string "x")]
    fields.leaves = .ok ([("a.b", .int 1)] ++ ("c.d", .uint 2) :: [("a", .string "x")]) ∧
      mergeKeys fields root = .ok placed ∧
        (Json.object placed).at? (segments "c.d") = some (.ofInt 2) := by
  intro fields root placed
  have hl : fields.leaves =
      .ok ([("a.b", .int 1)] ++ ("c.d", .uint 2) :: [("a", .string "x")]) := rfl
  have hm : mergeKeys fields root = .ok placed := rfl
  obtain ⟨json, hjson, -, hiff⟩ := at?_mergeKeys_iff hl hm
  have hj : json = .ofInt 2 := (Except.ok.inj hjson).symm
  have hlater : ∀ later ∈ [("a", Value.string "x")], ¬ segments later.1 <+: segments "c.d" := by
    rw [List.forall_mem_singleton]
    decide +kernel
  exact ⟨hl, hm, hj ▸ hiff.2 hlater⟩

/-- A key whose path leads on from that of a later key is lost without an error; in the other order the
same keys are refused. -/
theorem mergeKeys_loses_key :
    let fields : Fields := [("a.b", .int 1), ("a", .int 2)]
    fields.leaves = .ok fields ∧
      (∃ placed, mergeKeys fields [] = .ok placed ∧ (Json.object placed).at? (segments "a.b") = none) ∧
      mergeKeys fields.reverse [] = .error (.value (.cannotPlace "a.b" "a")) :=
  ⟨rfl, ⟨[("a", .ofInt 2)], rfl, rfl⟩, rfl⟩

/-- What stands apart from the keys stays as it was, present or not. An object that no path leads to or
across keeps its members in their order, and new ones come behind them. -/
theorem mergeKeys_keeps {fields leaves : Fields} (hl : fields.leaves = .ok leaves)
    {root placed : Entries Json} (hm : mergeKeys fields root = .ok placed) :
    (∀ names, (∀ leaf ∈ leaves, Json.Apart names (segments leaf.1)) →
      (Json.object placed).at? names = (Json.object root).at? names) ∧
    ∀ names members, (∀ leaf ∈ leaves, ¬ segments leaf.1 <+: names) →
      (Json.object root).at? names = some (.object members) →
        ∃ more, (Json.object placed).at? names = some (.object more) ∧
          Entries.keys members <+: Entries.keys more := by
  obtain ⟨keys, hkeys, hplaced⟩ := exists_of_mergeKeys hl hm
  constructor
  · intro names hapart
    refine Json.at?_placeAll_of_apart hplaced ?_
    exact (Value.forall_name_of_toJsonFields hkeys (Json.Apart names <| segments ·)).2 hapart
  · intro names members hnames hat
    refine Json.at?_placeAll_object hplaced ?_ hat
    exact (Value.forall_name_of_toJsonFields hkeys (¬ segments · <+: names)).2 hnames

theorem mergeKeys_keeps_nested :
    let fields : Fields := [("a", .object [("b.c", .int 1)])]
    let root : Entries Json := [("a", .object [("x", .ofInt 5), ("b", .object [])]), ("z", .bool true)]
    let placed : Entries Json :=
      [("a", .object [("x", .ofInt 5), ("b", .object [("c", .ofInt 1)])]), ("z", .bool true)]
    fields.leaves = .ok [("a.b.c", .int 1)] ∧ mergeKeys fields root = .ok placed ∧
      (Json.object placed).at? ["a", "x"] = (Json.object root).at? ["a", "x"] ∧
        ∃ more, (Json.object placed).at? ["a"] = some (.object more) ∧
          ["x", "b"] <+: Entries.keys more := by
  intro fields root placed
  have hl : fields.leaves = .ok [("a.b.c", .int 1)] := rfl
  have hm : mergeKeys fields root = .ok placed := rfl
  obtain ⟨hstays, hobjects⟩ := mergeKeys_keeps hl hm
  have hapart : Json.Apart ["a", "x"] (segments "a.b.c") := by decide +kernel
  have habove : ¬ segments "a.b.c" <+: ["a"] := by decide +kernel
  refine ⟨hl, hm, ?_, ?_⟩
  · exact hstays ["a", "x"] (List.forall_mem_singleton.2 hapart)
  · exact hobjects ["a"] _ (List.forall_mem_singleton.2 habove) rfl

end Fields

end DocWire
