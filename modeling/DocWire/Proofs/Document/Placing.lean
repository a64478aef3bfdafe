import DocWire.Document.Keys
import DocWire.Proofs.Entries
import DocWire.Proofs.Value.Leaves
import DocWire.Proofs.Value.Plain

/-!
# What stands in an object, and placing more in it

The locations of an object are the values in it that are no objects, each with the names that lead to
it. Placing a value where nothing stands in the way adds one location and leaves the others. Main
statements: `placeAt_located`, and `placeLeaves_located` for many values in turn.
-/
set_option autoImplicit false

namespace DocWire

open scoped List

namespace Json

/-- Places below a name. -/
def placesBelow (name : String) (places : List (List String × Json)) : List (List String × Json) :=
  places.map fun place => (name :: place.1, place.2)

mutual
/-- The values in a value that are no objects, each with the names that lead to it. Arrays are not
entered. -/
def located : Json → List (List String × Json)
  | object members => membersLocated members
  | null => [([], null)]
  | bool b => [([], bool b)]
  | number text => [([], number text)]
  | string s => [([], string s)]
  | array items => [([], array items)]

def membersLocated : List (String × Json) → List (List String × Json)
  | [] => []
  | (name, value) :: rest => placesBelow name (located value) ++ membersLocated rest
end

mutual
/-- Every object in a value has members, of different names. Arrays are not entered. -/
def Full : Json → Prop
  | object members => members ≠ [] ∧ Entries.Distinct members ∧ MembersFull members
  | _ => True

def MembersFull : List (String × Json) → Prop
  | [] => True
  | (_, value) :: rest => Full value ∧ MembersFull rest
end

/-- A value is no object. -/
def NotObject (json : Json) : Prop := ∀ members, json ≠ object members

/-- Neither of two lists of names leads on from the other. -/
def Apart (names others : List String) : Prop := ¬ names <+: others ∧ ¬ others <+: names

instance (names others : List String) : Decidable (Apart names others) :=
  inferInstanceAs (Decidable (_ ∧ _))

theorem Apart.of_cons {name : String} {names others : List String}
    (h : Apart (name :: names) (name :: others)) : Apart names others := by
  rwa [Apart, List.prefix_cons_inj, List.prefix_cons_inj] at h

theorem Apart.symm {names others : List String} (h : Apart names others) : Apart others names :=
  ⟨h.2, h.1⟩

theorem Apart.ne_nil {names others : List String} (h : Apart names others) : names ≠ [] := by
  rintro rfl
  exact h.1 List.nil_prefix

theorem located_of_notObject {json : Json} (h : json.NotObject) : json.located = [([], json)] := by
  cases json with
  | object members => exact absurd rfl (h members)
  | _ => rfl

theorem full_of_notObject {json : Json} (h : json.NotObject) : json.Full := by
  cases json with
  | object members => exact absurd rfl (h members)
  | _ => trivial

theorem membersLocated_append (front back : Entries Json) :
    membersLocated (front ++ back) = membersLocated front ++ membersLocated back := by
  induction front with
  | nil => rfl
  | cons member rest ih =>
    rw [List.cons_append, membersLocated, membersLocated, ih, List.append_assoc]

theorem membersFull_iff (members : Entries Json) :
    MembersFull members ↔ ∀ member ∈ members, member.2.Full := by
  induction members with
  | nil => simp [MembersFull]
  | cons member rest ih => rw [MembersFull, ih, List.forall_mem_cons]

theorem mem_membersLocated {members : Entries Json} {member : String × Json}
    {place : List String × Json} (hm : member ∈ members) (hp : place ∈ member.2.located) :
    (member.1 :: place.1, place.2) ∈ membersLocated members := by
  induction members with
  | nil => cases hm
  | cons first rest ih =>
    rw [membersLocated]
    rcases List.mem_cons.1 hm with rfl | hm
    · exact List.mem_append_left _ (List.mem_map_of_mem hp)
    · exact List.mem_append_right _ (ih hm)

theorem names_ne_nil_of_mem_membersLocated {members : Entries Json} {place : List String × Json}
    (hp : place ∈ membersLocated members) : place.1 ≠ [] := by
  induction members with
  | nil => cases hp
  | cons member rest ih =>
    rw [membersLocated] at hp
    rcases List.mem_append.1 hp with hp | hp
    · obtain ⟨below, -, rfl⟩ := List.mem_map.1 hp
      exact List.cons_ne_nil _ _
    · exact ih hp

mutual
theorem located_ne_nil (json : Json) (h : json.Full) : json.located ≠ [] := by
  match json with
  | .object members =>
    exact membersLocated_ne_nil members h.1 h.2.2
  | .null | .bool _ | .number _ | .string _ | .array _ => exact List.cons_ne_nil _ _
termination_by structural json

theorem membersLocated_ne_nil (members : List (String × Json)) (hne : members ≠ [])
    (h : MembersFull members) : membersLocated members ≠ [] := by
  match members with
  | [] => exact absurd rfl hne
  | (name, value) :: rest =>
    have hv := located_ne_nil value h.1
    simp [membersLocated, placesBelow, hv]
termination_by structural members
end

/-- An object that has been made by placing values: its members have different names, and so have
those of the objects in it, none of which is empty. -/
structure Grown (root : Entries Json) : Prop where
  distinct : Entries.Distinct root
  full : MembersFull root

theorem Grown.nil : Grown [] := ⟨Entries.distinct_nil, trivial⟩

theorem Grown.insert {root : Entries Json} (h : Grown root) (name : String) {value : Json}
    (hv : value.Full) : Grown (Entries.insert name value root) := by
  refine ⟨h.distinct.insert name value, (membersFull_iff _).2 fun member hm => ?_⟩
  rcases Entries.mem_of_mem_insert hm with rfl | hm
  · exact hv
  · exact (membersFull_iff root).1 h.full member hm

/-- A member has a location. -/
theorem Grown.exists_place {root : Entries Json} (h : Grown root) {name : String}
    (hn : name ∈ Entries.keys root) : ∃ place ∈ membersLocated root, [name] <+: place.1 := by
  obtain ⟨member, hm, rfl⟩ := List.mem_map.1 hn
  have hfull := (membersFull_iff root).1 h.full member hm
  obtain ⟨place, hp⟩ := List.exists_mem_of_ne_nil _ (located_ne_nil member.2 hfull)
  exact ⟨_, mem_membersLocated hm hp, (List.prefix_cons_inj _).2 List.nil_prefix⟩

theorem Grown.full_object {members : Entries Json} (h : Grown members)
    {place : List String × Json} {places : List (List String × Json)}
    (hp : membersLocated members ~ place :: places) : (object members).Full := by
  refine ⟨?_, h.distinct, h.full⟩
  rintro rfl
  exact absurd hp.length_eq (by simp [membersLocated])

/-! ## Placing one value -/

/-- A new member brings its locations. -/
theorem membersLocated_insert_new {name : String} {root : Entries Json}
    (hn : name ∉ Entries.keys root) (value : Json) :
    membersLocated (Entries.insert name value root) ~
      placesBelow name value.located ++ membersLocated root := by
  rw [Entries.insert_of_not_mem name value root hn, membersLocated_append, membersLocated,
    membersLocated, List.append_nil]
  exact List.perm_append_comm

/-- A member in another's place brings the one location that it has more. -/
theorem membersLocated_insert_known {name : String} {root : Entries Json} {old new : Json}
    (hg : Entries.get? name root = some old) {names : List String} {value : Json}
    (hp : new.located ~ (names, value) :: old.located) :
    membersLocated (Entries.insert name new root) ~ (name :: names, value) :: membersLocated root := by
  obtain ⟨front, back, hsplit, hinsert⟩ := Entries.exists_split_of_get? hg
  have hinside : placesBelow name new.located ~
      (name :: names, value) :: placesBelow name old.located := hp.map _
  rw [hinsert, hsplit, membersLocated_append, membersLocated_append, membersLocated, membersLocated]
  calc membersLocated front ++ (placesBelow name new.located ++ membersLocated back)
    _ ~ membersLocated front ++
          (((name :: names, value) :: placesBelow name old.located) ++ membersLocated back) :=
        (hinside.append_right _).append_left _
    _ ~ (name :: names, value) ::
          (membersLocated front ++ (placesBelow name old.located ++ membersLocated back)) :=
        List.perm_middle

/-- A value that stands apart from all locations becomes one, and the others stay. -/
theorem placeAt_located (path : String) {value : Json} (hv : value.NotObject) {names : List String}
    (hne : names ≠ []) {root : Entries Json} (hroot : Grown root)
    (hapart : ∀ place ∈ membersLocated root, Apart place.1 names) :
    ∃ placed, placeAt path value names root = .ok placed ∧ Grown placed ∧
      membersLocated placed ~ (names, value) :: membersLocated root := by
  -- The induction is on the names still to follow. All that it asks of the object at hand holds of
  -- the object that the first name leads to as well.
  induction names generalizing root with
  | nil => exact absurd rfl hne
  | cons name rest ih =>
    cases rest with
    | nil =>
      have hnew : name ∉ Entries.keys root := by
        intro hn
        obtain ⟨place, hp, hprefix⟩ := hroot.exists_place hn
        exact (hapart place hp).2 hprefix
      have hplaces := membersLocated_insert_new hnew value
      rw [located_of_notObject hv] at hplaces
      exact ⟨_, rfl, hroot.insert name (full_of_notObject hv), hplaces⟩
    | cons next others =>
      have hrest : next :: others ≠ [] := List.cons_ne_nil _ _
      cases hg : Entries.get? name root with
      | none =>
        have hnew : name ∉ Entries.keys root := (Entries.get?_eq_none_iff name root).1 hg
        have hempty : ∀ place ∈ membersLocated [], Apart place.1 (next :: others) := by
          simp [membersLocated]
        obtain ⟨inner, hplace, hinner, hperm⟩ := ih hrest Grown.nil hempty
        have hone : placesBelow name (object inner).located ~ [(name :: next :: others, value)] :=
          hperm.map _
        refine ⟨Entries.insert name (object inner) root, ?_, ?_, ?_⟩
        · rw [placeAt, hg]
          simp only [hplace, bind_ok]
        · exact hroot.insert name (hinner.full_object hperm)
        · exact (membersLocated_insert_new hnew _).trans (hone.append_right _)
      | some found =>
        have hmem : (name, found) ∈ root := (Entries.get?_eq_some_iff hroot.distinct).1 hg
        cases found with
        | object old =>
          have hold : (object old).Full := (membersFull_iff root).1 hroot.full _ hmem
          have hbelow : ∀ place ∈ membersLocated old, Apart place.1 (next :: others) := by
            intro place hp
            exact (hapart _ (mem_membersLocated hmem hp)).of_cons
          obtain ⟨inner, hplace, hinner, hperm⟩ := ih hrest ⟨hold.2.1, hold.2.2⟩ hbelow
          refine ⟨Entries.insert name (object inner) root, ?_, ?_, ?_⟩
          · rw [placeAt, hg]
            simp only [hplace, bind_ok]
          · exact hroot.insert name (hinner.full_object hperm)
          · exact membersLocated_insert_known hg hperm
        | null | bool _ | number _ | string _ | array _ =>
          -- What is no object is a location, and the names lead on from it.
          have hplace := hapart _ (mem_membersLocated hmem (List.mem_singleton_self _))
          exact absurd ((List.prefix_cons_inj name).2 List.nil_prefix) hplace.1

end Json

/-! ## Placing many values -/

theorem segments_ne_nil (path : String) : segments path ≠ [] := by
  rw [segments, Ne, List.map_eq_nil_iff]
  exact splitDots_ne_nil path.toList

theorem Value.NotObject.tree {value : Value} (h : value.NotObject) : value.tree.NotObject := by
  intro members
  cases value with
  | object fields => exact absurd rfl (h fields)
  | _ => exact Json.noConfusion

/-- Where leaves are placed: at the segments of their paths. -/
def Fields.places (leaves : Fields) : List (List String × Json) :=
  leaves.map fun leaf => (segments leaf.1, leaf.2.tree)

/-- Leaves that stand apart from each other and from all locations become locations. -/
theorem placeLeaves_located {leaves : Fields} {root : Entries Json} (hroot : Json.Grown root)
    (hflat : leaves.Flat) (hjson : ∀ leaf ∈ leaves, leaf.2.toJson = .ok leaf.2.tree)
    (hpairs : leaves.Pairwise fun a b => Json.Apart (segments a.1) (segments b.1))
    (hapart : ∀ leaf ∈ leaves, ∀ place ∈ Json.membersLocated root,
      Json.Apart place.1 (segments leaf.1)) :
    ∃ placed, placeLeaves leaves root = .ok placed ∧ Json.Grown placed ∧
      Json.membersLocated placed ~ leaves.places ++ Json.membersLocated root := by
  induction leaves generalizing root with
  | nil => exact ⟨root, rfl, hroot, List.Perm.refl _⟩
  | cons leaf rest ih =>
    obtain ⟨hleaf, hrest⟩ := List.forall_mem_cons.1 hapart
    obtain ⟨hfirst, hpairs⟩ := List.pairwise_cons.1 hpairs
    obtain ⟨hf, hflat⟩ := List.forall_mem_cons.1 hflat
    obtain ⟨hj, hjson⟩ := List.forall_mem_cons.1 hjson
    obtain ⟨next, hnext, hgrown, hperm⟩ :=
      Json.placeAt_located leaf.1 hf.tree (segments_ne_nil leaf.1) hroot hleaf
    have hapart : ∀ other ∈ rest, ∀ place ∈ Json.membersLocated next,
        Json.Apart place.1 (segments other.1) := by
      intro other ho place hp
      rcases List.mem_cons.1 (hperm.mem_iff.1 hp) with rfl | hp
      · exact hfirst other ho
      · exact hrest other ho place hp
    obtain ⟨placed, hplaced, hgrown, hmore⟩ := ih hgrown hflat hjson hpairs hapart
    refine ⟨placed, ?_, hgrown, ?_⟩
    · rw [placeLeaves, hj, bind_ok, Json.place, hnext, bind_ok, hplaced]
    · calc Json.membersLocated placed
        _ ~ Fields.places rest ++ Json.membersLocated next := hmore
        _ ~ Fields.places rest ++ ((segments leaf.1, leaf.2.tree) :: Json.membersLocated root) :=
          hperm.append_left _
        _ ~ (segments leaf.1, leaf.2.tree) :: (Fields.places rest ++ Json.membersLocated root) :=
          List.perm_middle

end DocWire
