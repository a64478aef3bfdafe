import DocWire.Proofs.Document.Locations

/-!
# Keys that can be placed in any order

Keys are independent when no path among them leads on from another. What stands in an object after such
keys were placed does not depend on their order, and whether they can be placed is settled by the object
that was there before. Main statements: `exists_placeAll_iff` and `placeAll_of_perm`.
-/
set_option autoImplicit false

namespace DocWire.Json

/-- No path of a key is that of another or leads on from it. -/
def Independent (keys : List (String × Json)) : Prop :=
  keys.Pairwise fun key other => Apart (segments key.1) (segments other.1)

instance (keys : List (String × Json)) : Decidable (Independent keys) :=
  inferInstanceAs (Decidable (List.Pairwise _ _))

/-- Values that are equal when the order of members is left aside: objects have the same names, and
under each name such values. -/
inductive Rearranged : Json → Json → Prop
  | same (json : Json) : Rearranged json json
  | array {items others : List Json} (hl : items.length = others.length)
      (h : ∀ (i : Nat) (item other : Json), items[i]? = some item → others[i]? = some other →
        Rearranged item other) :
      Rearranged (array items) (array others)
  | object {members others : Entries Json}
      (hn : ∀ name, name ∈ Entries.keys members ↔ name ∈ Entries.keys others)
      (h : ∀ (name : String) (value other : Json), Entries.get? name members = some value →
        Entries.get? name others = some other → Rearranged value other) :
      Rearranged (object members) (object others)

theorem Independent.of_perm {keys others : List (String × Json)} (h : Independent keys)
    (hp : keys.Perm others) : Independent others :=
  (hp.pairwise_iff Apart.symm).1 h

/-! ## Which keys can be placed -/

/-- A prefix of names that stand apart from others is a prefix of the others too, or stands apart. -/
theorem Apart.of_lead {names others : List String} (h : Apart names others) {front : List String}
    (hlead : front <+: names) : Apart front others ∨ front <+: others ∧ front ≠ others := by
  by_cases hothers : front <+: others
  · right
    refine ⟨hothers, ?_⟩
    rintro rfl
    exact h.2 hlead
  · left
    exact ⟨hothers, fun hback => h.2 (hback.trans hlead)⟩

theorem Placed.blocked_iff {names : List String} {value root placed : Json}
    (h : Placed names value root placed) (hfree : ¬ Blocked names root) {others : List String}
    (hapart : Apart others names) : Blocked others placed ↔ Blocked others root := by
  constructor
  · rintro ⟨front, json, hlead, hne, hat, hjson⟩
    rcases hapart.of_lead hlead with hfront | ⟨hfront, hother⟩
    · exact ⟨front, json, hlead, hne, h.elsewhere front hfront ▸ hat, hjson⟩
    · obtain ⟨members, hmembers, -⟩ := h.onWay front hfront hother
      rw [hat] at hmembers
      exact absurd (Option.some.inj hmembers) (hjson members)
  · rintro ⟨front, json, hlead, hne, hat, hjson⟩
    rcases hapart.of_lead hlead with hfront | ⟨hfront, hother⟩
    · exact ⟨front, json, hlead, hne, (h.elsewhere front hfront).trans hat, hjson⟩
    · exact absurd ⟨front, json, hfront, hother, hat, hjson⟩ hfree

theorem exists_placeAll_iff {keys : List (String × Json)} (hind : Independent keys)
    (root : Entries Json) :
    (∃ placed, placeAll keys root = .ok placed) ↔
      ∀ key ∈ keys, ¬ Blocked (segments key.1) (object root) := by
  induction keys generalizing root with
  | nil => exact iff_of_true ⟨root, rfl⟩ (List.forall_mem_nil _)
  | cons key rest ih =>
    obtain ⟨hkey, hrest⟩ := List.pairwise_cons.1 hind
    have hstep : ∀ next, place key.1 key.2 root = .ok next →
        ((∃ placed, placeAll rest next = .ok placed) ↔
          ∀ other ∈ rest, ¬ Blocked (segments other.1) (object root)) := by
      intro next hplace
      have hfree := (exists_place_iff key.1 key.2 root).1 ⟨next, hplace⟩
      rw [ih hrest next]
      refine forall₂_congr fun other ho => not_congr ?_
      exact (placed_of_place hplace).blocked_iff hfree (hkey other ho).symm
    rw [List.forall_mem_cons, ← exists_place_iff key.1 key.2 root]
    constructor
    · rintro ⟨placed, h⟩
      obtain ⟨next, hplace, h⟩ := placeAll_cons_eq_ok_iff.1 h
      exact ⟨⟨next, hplace⟩, (hstep next hplace).1 ⟨placed, h⟩⟩
    · rintro ⟨⟨next, hplace⟩, hothers⟩
      obtain ⟨placed, h⟩ := (hstep next hplace).2 hothers
      exact ⟨placed, placeAll_cons_eq_ok_iff.2 ⟨next, hplace, h⟩⟩

/-! ## What stands where in the end -/

/-- Each of independent keys stands at its path, and objects lead there. -/
theorem at?_placeAll_of_mem {keys : List (String × Json)} (hind : Independent keys)
    {root placed : Entries Json} (h : placeAll keys root = .ok placed) {key : String × Json}
    (hk : key ∈ keys) :
    (object placed).at? (segments key.1) = some key.2 ∧
      ∀ front, front <+: segments key.1 → front ≠ segments key.1 →
        ∃ members, (object placed).at? front = some (object members) := by
  obtain ⟨before, after, rfl⟩ := List.append_of_mem hk
  obtain ⟨-, hafter, -⟩ := List.pairwise_append.1 hind
  obtain ⟨hapart, -⟩ := List.pairwise_cons.1 hafter
  obtain ⟨middle, -, hrest⟩ := placeAll_append_eq_ok_iff.1 h
  obtain ⟨next, hplace, hrest⟩ := placeAll_cons_eq_ok_iff.1 hrest
  have hplaced := placed_of_place hplace
  constructor
  · rw [at?_placeAll_of_apart hrest hapart]
    exact hplaced.here
  · intro front hlead hne
    obtain ⟨members, hmembers, -⟩ := hplaced.onWay front hlead hne
    have hnames : ∀ other ∈ after, ¬ segments other.1 <+: front := fun other ho hother =>
      (hapart other ho).2 (hother.trans hlead)
    obtain ⟨more, hmore, -⟩ := at?_placeAll_object hrest hnames hmembers
    exact ⟨more, hmore⟩

/-- The same stands where names lead to, or objects do. -/
def AgreeAt (names : List String) (json other : Json) : Prop :=
  json.at? names = other.at? names ∨
    (∃ members, json.at? names = some (object members)) ∧
      ∃ members, other.at? names = some (object members)

theorem agreeAt_placeAll {keys others : List (String × Json)} (hind : Independent keys)
    (hp : keys.Perm others) {root placed twin : Entries Json} (h : placeAll keys root = .ok placed)
    (ht : placeAll others root = .ok twin) (names : List String) :
    AgreeAt names (object placed) (object twin) := by
  have hother := hind.of_perm hp
  by_cases hbelow : ∃ key ∈ keys, segments key.1 <+: names
  · obtain ⟨key, hk, back, rfl⟩ := hbelow
    left
    rw [at?_append, at?_append, (at?_placeAll_of_mem hind h hk).1,
      (at?_placeAll_of_mem hother ht (hp.mem_iff.1 hk)).1]
  by_cases habove : ∃ key ∈ keys, names <+: segments key.1
  · obtain ⟨key, hk, hlead⟩ := habove
    have hne : names ≠ segments key.1 := fun he => hbelow ⟨key, hk, he ▸ List.prefix_refl names⟩
    right
    exact ⟨(at?_placeAll_of_mem hind h hk).2 names hlead hne,
      (at?_placeAll_of_mem hother ht (hp.mem_iff.1 hk)).2 names hlead hne⟩
  · have hapart : ∀ key ∈ keys, Apart names (segments key.1) := fun key hk =>
      ⟨fun hlead => habove ⟨key, hk, hlead⟩, fun hlead => hbelow ⟨key, hk, hlead⟩⟩
    left
    rw [at?_placeAll_of_apart h hapart]
    exact (at?_placeAll_of_apart ht fun key hk => hapart key (hp.mem_iff.2 hk)).symm

/-! ## Values by their locations -/

theorem AgreeAt.of_cons {name : String} {members others : Entries Json} {value other : Json}
    (hv : Entries.get? name members = some value) (ho : Entries.get? name others = some other)
    {names : List String} (h : AgreeAt (name :: names) (object members) (object others)) :
    AgreeAt names value other := by
  unfold AgreeAt at h
  rwa [at?_object_cons, at?_object_cons, hv, ho] at h

theorem mem_keys_iff_of_agreeAt {name : String} {members others : Entries Json}
    (h : AgreeAt [name] (object members) (object others)) :
    name ∈ Entries.keys members ↔ name ∈ Entries.keys others := by
  have hat : ∀ entries : Entries Json, (object entries).at? [name] = Entries.get? name entries := by
    intro entries
    rw [at?_object_cons]
    cases Entries.get? name entries <;> rfl
  unfold AgreeAt at h
  rw [hat, hat] at h
  rw [← Entries.contains_iff_mem_keys, ← Entries.contains_iff_mem_keys, Entries.contains,
    Entries.contains]
  rcases h with h | ⟨⟨inner, hm⟩, ⟨outer, ho⟩⟩
  · rw [h]
  · rw [hm, ho, Option.isSome_some, Option.isSome_some]

mutual
/-- Values that agree at all locations are equal, save for the order of members. -/
theorem rearranged_of_agreeAt (json other : Json) (h : ∀ names, AgreeAt names json other) :
    Rearranged json other := by
  match json with
  | .object members =>
    rcases h [] with heq | ⟨-, others, ho⟩
    · exact Option.some.inj heq ▸ .same _
    cases ho
    refine .object (fun name => mem_keys_iff_of_agreeAt (h [name])) ?_
    intro name value inner hv hi
    exact member_rearranged members name value inner hv fun names => (h (name :: names)).of_cons hv hi
  | .null | .bool _ | .number _ | .string _ | .array _ =>
    rcases h [] with heq | ⟨⟨members, hm⟩, -⟩
    · exact Option.some.inj heq ▸ .same _
    · cases hm
termination_by structural json

theorem member_rearranged (members : List (String × Json)) (name : String) (value other : Json)
    (hv : Entries.get? name members = some value) (h : ∀ names, AgreeAt names value other) :
    Rearranged value other := by
  match members with
  | [] => cases hv
  | (first, json) :: rest =>
    unfold Entries.get? at hv
    split at hv
    · have he : json = value := Option.some.inj hv
      rw [← he] at h ⊢
      exact rearranged_of_agreeAt json other h
    · exact member_rearranged rest name value other hv h
termination_by structural members
end

/-- Independent keys fail only where the object itself is in their way, and any two orders of them fail
together or give the same members in another order. -/
theorem placeAll_of_perm {keys others : List (String × Json)} (hind : Independent keys)
    (hp : keys.Perm others) (root : Entries Json) :
    ((∃ e, placeAll keys root = .error e) ↔ ∃ key ∈ keys, Blocked (segments key.1) (object root)) ∧
      ((∃ e, placeAll keys root = .error e) ∧ (∃ e, placeAll others root = .error e) ∨
        ∃ placed twin, placeAll keys root = .ok placed ∧ placeAll others root = .ok twin ∧
          Rearranged (object placed) (object twin)) := by
  have hfails : (∃ e, placeAll keys root = .error e) ↔
      ∃ key ∈ keys, Blocked (segments key.1) (object root) := by
    rw [exists_error_iff, exists_placeAll_iff hind]
    push Not
    rfl
  have hboth : (∃ placed, placeAll keys root = .ok placed) ↔
      ∃ twin, placeAll others root = .ok twin := by
    rw [exists_placeAll_iff hind, exists_placeAll_iff (hind.of_perm hp)]
    exact forall_congr' fun key => imp_congr_left hp.mem_iff
  refine ⟨hfails, ?_⟩
  by_cases hok : ∃ placed, placeAll keys root = .ok placed
  · obtain ⟨placed, h⟩ := hok
    obtain ⟨twin, ht⟩ := hboth.1 ⟨placed, h⟩
    right
    exact ⟨placed, twin, h, ht, rearranged_of_agreeAt _ _ (agreeAt_placeAll hind hp h ht)⟩
  · left
    exact ⟨exists_error_iff.2 hok, exists_error_iff.2 fun ht => hok (hboth.2 ht)⟩

/-- Two keys below one name, one of them in an object that is there, and an object as a key. -/
theorem placeAll_of_perm_reversed :
    let keys : List (String × Json) := [("a.b", .ofInt 1), ("c", .object []), ("a.d.e", .null)]
    let root : Entries Json := [("a", .object [("d", .object [])])]
    Independent keys ∧ keys.Perm keys.reverse ∧ ∃ placed twin, placeAll keys root = .ok placed ∧
      placeAll keys.reverse root = .ok twin ∧ Rearranged (object placed) (object twin) := by
  intro keys root
  have hind : Independent keys := by decide +kernel
  have hp : keys.Perm keys.reverse := (List.reverse_perm keys).symm
  refine ⟨hind, hp, (placeAll_of_perm hind hp root).2.resolve_left ?_⟩
  rintro ⟨⟨e, he⟩, -⟩
  cases he

end DocWire.Json
