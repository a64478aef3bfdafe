import Mathlib.Data.List.Perm.Basic
import DocWire.Proofs.Document.Placing
import DocWire.Proofs.Value.Dotted

/-!
# Merging undoes flattening

A field map is taken apart into leaves with dotted paths, and placing these in an empty object builds
nested objects of them. What is read from this object has the same leaves, in another order. Main
statements: `leaves_ofJson`, the leaves of what is read from an object are its locations, and
`leaves_mergeKeys`.
-/
set_option autoImplicit false

namespace DocWire

/-! ## Paths and names -/

/-- The path that names lead to from a map that stands at `parent?`, or from the outermost map. -/
def pathFrom (parent? : Option String) : List String → String
  | [] => parent?.getD ""
  | name :: names => pathFrom (some (childPath parent? name)) names

theorem toList_pathFrom_some (parent : String) (names : List String) :
    (pathFrom (some parent) names).toList =
      parent.toList ++ names.flatMap fun name => '.' :: name.toList := by
  induction names generalizing parent with
  | nil => simp [pathFrom]
  | cons name rest ih =>
    rw [pathFrom, ih, childPath, String.toList_append, String.toList_append, List.flatMap_cons]
    simp

/-- The dots stand in front of every segment but the first. -/
theorem splitDots_eq_cons (cs : List Char) :
    ∃ first others, splitDots cs = first :: others ∧
      cs = first ++ others.flatMap fun segment => '.' :: segment := by
  induction cs with
  | nil => exact ⟨[], [], rfl, rfl⟩
  | cons c rest ih =>
    obtain ⟨first, others, hs, hrest⟩ := ih
    by_cases hc : c = '.'
    · refine ⟨[], first :: others, by rw [splitDots, if_pos hc, hs], ?_⟩
      rw [hc, List.nil_append, List.flatMap_cons, List.cons_append, ← hrest]
    · exact ⟨c :: first, others, by rw [splitDots, if_neg hc, hs], by rw [List.cons_append, ← hrest]⟩

/-- The segments of a path lead to it. -/
theorem pathFrom_segments (path : String) : pathFrom none (segments path) = path := by
  obtain ⟨first, others, hs, hpath⟩ := splitDots_eq_cons path.toList
  apply String.toList_inj.1
  rw [segments, hs, List.map_cons, pathFrom, childPath, toList_pathFrom_some, String.toList_ofList,
    List.flatMap_map]
  simp only [String.toList_ofList]
  exact hpath.symm

/-! ## Reading an object by its locations -/

namespace Json

/-- What is read at a location is a leaf: its path is the one that the names lead to, and its value is
the one that stands there. -/
def ReadsAs (parent? : Option String) (place : List String × Json) (leaf : String × Value) : Prop :=
  leaf.1 = pathFrom parent? place.1 ∧ Value.ofJson place.2 = .ok leaf.2

/-- A location that can be a leaf: so many names at most, none of them empty, lead to a value that is
read as one that is no object. -/
structure Readable (limit : Nat) (place : List String × Json) : Prop where
  length_le : place.1.length ≤ limit
  named : "" ∉ place.1
  reads : ∃ value, Value.ofJson place.2 = .ok value ∧ value.NotObject

theorem Readable.of_cons {limit : Nat} {name : String} {names : List String} {json : Json}
    (h : Readable (limit + 1) (name :: names, json)) : name ≠ "" ∧ Readable limit (names, json) := by
  obtain ⟨hlength, hnamed, hreads⟩ := h
  rw [List.mem_cons, not_or] at hnamed
  exact ⟨Ne.symm hnamed.1, Nat.le_of_succ_le_succ hlength, hnamed.2, hreads⟩

end Json

namespace Value

theorem dotted_of_notObject {value : Value} (h : value.NotObject) (path : String) :
    value.dotted path = [(path, value)] := by
  cases value with
  | object fields => exact absurd rfl (h fields)
  | _ => rfl

theorem named_of_notObject {value : Value} (h : value.NotObject) :
    value.Named ∧ value.mapDepth = 0 := by
  cases value with
  | object fields => exact absurd rfl (h fields)
  | _ => exact ⟨trivial, rfl⟩

mutual
/-- What is read from a value has the locations of the value for its leaves. -/
theorem ofJson_located (json : Json) (path : String) (limit : Nat) (hfull : json.Full)
    (hread : ∀ place ∈ json.located, Json.Readable limit place) :
    ∃ value, ofJson json = .ok value ∧ value.Named ∧ value.mapDepth ≤ limit ∧
      List.Forall₂ (Json.ReadsAs (some path)) json.located (value.dotted path) := by
  match json with
  | .object members =>
    obtain ⟨hne, hdist, hmembers⟩ := hfull
    have hlimit : limit ≠ 0 := by
      have hplaces := Json.membersLocated_ne_nil members hne hmembers
      obtain ⟨place, hp⟩ := List.exists_mem_of_ne_nil _ hplaces
      have hnames := Json.names_ne_nil_of_mem_membersLocated hp
      have hlength := (hread place hp).length_le
      have hpos := List.length_pos_iff.2 hnames
      omega
    obtain ⟨below, rfl⟩ := Nat.exists_eq_succ_of_ne_zero hlimit
    obtain ⟨fields, hf, hkeys, hnamed, hdepth, hleaves⟩ :=
      ofJsonMembers_located members (some path) below hmembers hread
    have hdistinct : Entries.Distinct fields := by
      rw [Entries.Distinct, hkeys]
      exact hdist
    have hfields : fields ≠ [] := by
      rintro rfl
      exact hne (List.map_eq_nil_iff.1 hkeys.symm)
    refine ⟨object fields, ?_, ⟨hfields, hnamed⟩, Nat.succ_le_succ hdepth, hleaves⟩
    rw [ofJson, hf, bind_ok, Entries.ofList_of_distinct hdistinct]
  | .null | .bool _ | .number _ | .string _ | .array _ =>
    obtain ⟨value, hv, hn⟩ := (hread _ (List.mem_singleton_self _)).reads
    obtain ⟨hnamed, hdepth⟩ := named_of_notObject hn
    refine ⟨value, hv, hnamed, by omega, ?_⟩
    rw [dotted_of_notObject hn path]
    exact .cons ⟨rfl, hv⟩ .nil
termination_by structural json

theorem ofJsonMembers_located (members : List (String × Json)) (parent? : Option String) (limit : Nat)
    (hfull : Json.MembersFull members)
    (hread : ∀ place ∈ Json.membersLocated members, Json.Readable (limit + 1) place) :
    ∃ fields, ofJsonMembers members = .ok fields ∧ Entries.keys fields = Entries.keys members ∧
      FieldsNamed fields ∧ fieldsMapDepth fields ≤ limit ∧
      List.Forall₂ (Json.ReadsAs parent?) (Json.membersLocated members)
        (fieldsDotted parent? fields) := by
  match members with
  | [] => exact ⟨[], rfl, rfl, trivial, Nat.zero_le _, .nil⟩
  | (name, value) :: rest =>
    obtain ⟨hvalue, hrest⟩ := hfull
    obtain ⟨hhere, hthere⟩ := List.forall_mem_append.1 hread
    have hbelow : ∀ place ∈ value.located, name ≠ "" ∧ Json.Readable limit place := by
      intro place hp
      exact (hhere _ (List.mem_map_of_mem hp)).of_cons
    obtain ⟨place, hp⟩ := List.exists_mem_of_ne_nil _ (Json.located_ne_nil value hvalue)
    obtain ⟨inner, hi, hinamed, hidepth, hileaves⟩ :=
      ofJson_located value (childPath parent? name) limit hvalue fun place hp => (hbelow place hp).2
    obtain ⟨fields, hf, hkeys, hnamed, hdepth, hleaves⟩ :=
      ofJsonMembers_located rest parent? limit hrest hthere
    refine ⟨(name, inner) :: fields, ?_, ?_, ⟨(hbelow place hp).1, hinamed, hnamed⟩, ?_, ?_⟩
    · rw [ofJsonMembers, hi, bind_ok, hf, bind_ok]
    · rw [Entries.keys_cons, Entries.keys_cons, hkeys]
    · exact Nat.max_le.2 ⟨hidepth, hdepth⟩
    · have hinner : List.Forall₂ (Json.ReadsAs parent?) (Json.placesBelow name value.located)
          (inner.dotted (childPath parent? name)) := List.forall₂_map_left_iff.2 hileaves
      exact List.rel_append hinner hleaves
termination_by structural members
end

end Value

theorem keys_of_readsAs {parent? : Option String} {places : List (List String × Json)}
    {leaves : Fields} (h : List.Forall₂ (Json.ReadsAs parent?) places leaves) :
    leaves.keys = places.map fun place => pathFrom parent? place.1 := by
  induction h with
  | nil => rfl
  | cons hread _ ih => rw [Entries.keys_cons, List.map_cons, hread.1, ih]

/-- An object that has been made by placing values is read as a field map with its locations for
leaves. -/
theorem Fields.leaves_ofJson {root : Entries Json} (hroot : Json.Grown root)
    (hread : ∀ place ∈ Json.membersLocated root, Json.Readable pathDepthLimit place)
    (hpaths : ((Json.membersLocated root).map fun place => pathFrom none place.1).Nodup) :
    ∃ merged leaves, Fields.ofJson root = .ok merged ∧ merged.leaves = .ok leaves ∧
      List.Forall₂ (Json.ReadsAs none) (Json.membersLocated root) leaves := by
  obtain ⟨fields, hf, hkeys, hnamed, hdepth, hleaves⟩ :=
    Value.ofJsonMembers_located root none 31 hroot.full hread
  have hdistinct : Entries.Distinct fields := by
    rw [Entries.Distinct, hkeys]
    exact hroot.distinct
  have hshape : Fields.WellShaped fields := by
    refine ⟨hnamed, Nat.succ_le_succ hdepth, ?_⟩
    rw [Fields.dotted, keys_of_readsAs hleaves]
    exact hpaths
  refine ⟨fields, Fields.dotted fields, ?_, Fields.leaves_eq_ok_iff.2 ⟨hshape, rfl⟩, hleaves⟩
  rw [Fields.ofJson, hf, bind_ok, Entries.ofList_of_distinct hdistinct]

/-! ## Values without objects and floats -/

namespace Value

/-- Null, a boolean, an integer, a string, or an array of such values. -/
inductive Simple : Value → Prop where
  | null : Simple null
  | bool (b : Bool) : Simple (bool b)
  | integer {value : Value} {n : Int} (h : value.integer? = some n) : Simple value
  | string (s : String) : Simple (string s)
  | array {items : List Value} (h : ∀ item ∈ items, Simple item) : Simple (array items)

/-- Two values are equal, integers by the numbers that they stand for. -/
inductive SameByNumber : Value → Value → Prop where
  | null : SameByNumber null null
  | bool (b : Bool) : SameByNumber (bool b) (bool b)
  | integer {value other : Value} {n : Int} (h : value.integer? = some n)
      (ho : other.integer? = some n) : SameByNumber value other
  | string (s : String) : SameByNumber (string s) (string s)
  | array {items others : List Value} (h : List.Forall₂ SameByNumber items others) :
      SameByNumber (array items) (array others)

theorem Simple.notObject {value : Value} (h : value.Simple) : value.NotObject := by
  rintro fields rfl
  cases h with
  | integer h => cases h

theorem Simple.finite {value : Value} (h : value.Simple) : value.Finite := by
  induction h with
  | null | bool _ | string _ => exact finite_of_scalar (by simp) (by simp) (by simp)
  | @integer value n h =>
    refine finite_of_scalar ?_ ?_ ?_
    all_goals
      rintro _ rfl
      cases h
  | array _ ih => exact (finite_array_iff _).2 ih

theorem itemsDistinct_iff (items : List Value) :
    ItemsDistinct items ↔ ∀ item ∈ items, item.NamesDistinct := by
  induction items with
  | nil => simp [ItemsDistinct]
  | cons item rest ih => simp [ItemsDistinct, ih]

theorem Simple.namesDistinct {value : Value} (h : value.Simple) : value.NamesDistinct := by
  induction h with
  | null | bool _ | string _ => trivial
  | @integer value n h =>
    cases value with
    | array _ | object _ => cases h
    | _ => trivial
  | array _ ih => exact (itemsDistinct_iff _).2 ih

theorem receivedItems_eq_map (items : List Value) : receivedItems items = items.map received := by
  induction items with
  | nil => rfl
  | cons item rest ih => rw [receivedItems, ih, List.map_cons]

/-- What arrives of a value is the value, save for the variants of integers. -/
theorem Simple.received {value : Value} (h : value.Simple) : value.SameByNumber value.received := by
  induction h with
  | null => exact .null
  | bool b => exact .bool b
  | integer h =>
    rw [received_of_integer? h]
    exact .integer h (integer?_ofInteger _)
  | string s => exact .string s
  | array _ ih =>
    rw [Value.received, receivedItems_eq_map]
    exact .array (List.forall₂_map_right_iff.2 (List.forall₂_same.2 ih))

end Value

/-! ## Merging -/

namespace Fields

/-- Leaves that can be placed together and read back: each path has 32 segments at most, none of them
empty, no path leads on from another one, and the values are simple. -/
structure Mergeable (leaves : Fields) : Prop where
  length_le : ∀ leaf ∈ leaves, (segments leaf.1).length ≤ pathDepthLimit
  named : ∀ leaf ∈ leaves, "" ∉ segments leaf.1
  apart : ∀ leaf ∈ leaves, ∀ other ∈ leaves, segments leaf.1 <+: segments other.1 → leaf.1 = other.1
  simple : ∀ leaf ∈ leaves, leaf.2.Simple

theorem Mergeable.of_perm {leaves others : Fields} (h : leaves.Mergeable) (hp : others.Perm leaves) :
    others.Mergeable where
  length_le leaf hl := h.length_le leaf (hp.subset hl)
  named leaf hl := h.named leaf (hp.subset hl)
  apart leaf hl other ho := h.apart leaf (hp.subset hl) other (hp.subset ho)
  simple leaf hl := h.simple leaf (hp.subset hl)

theorem Mergeable.pairwise {leaves : Fields} (h : leaves.Mergeable) (hd : leaves.Distinct) :
    leaves.Pairwise fun a b => Json.Apart (segments a.1) (segments b.1) := by
  have hne : leaves.Pairwise fun a b => a.1 ≠ b.1 := List.pairwise_map.1 hd
  refine hne.imp_of_mem ?_
  intro a b ha hb hab
  exact ⟨fun hp => hab (h.apart a ha b hb hp), fun hp => hab (h.apart b hb a ha hp).symm⟩

theorem Mergeable.toJson {leaves : Fields} (h : leaves.Mergeable) :
    ∀ leaf ∈ leaves, leaf.2.toJson = .ok leaf.2.tree := by
  intro leaf hl
  have hs := h.simple leaf hl
  exact (Value.toJson_eq_ok_iff leaf.2 hs.namesDistinct _).2 ⟨hs.finite, rfl⟩

theorem Mergeable.ofJson {leaves : Fields} (h : leaves.Mergeable) :
    ∀ leaf ∈ leaves, Value.ofJson leaf.2.tree = .ok leaf.2.received := by
  intro leaf hl
  have hs := h.simple leaf hl
  exact Value.ofJson_tree leaf.2 hs.namesDistinct hs.finite

theorem Mergeable.readable {leaves : Fields} (h : leaves.Mergeable) :
    ∀ place ∈ leaves.places, Json.Readable pathDepthLimit place := by
  intro place hp
  obtain ⟨leaf, hl, rfl⟩ := List.mem_map.1 hp
  have hobject := Value.notObject_received (h.simple leaf hl).notObject
  exact ⟨h.length_le leaf hl, h.named leaf hl, _, h.ofJson leaf hl, hobject⟩

theorem paths_places (leaves : Fields) :
    (leaves.places.map fun place => pathFrom none place.1) = leaves.keys := by
  rw [places, List.map_map]
  refine List.map_congr_left ?_
  intro leaf _
  exact pathFrom_segments leaf.1

/-- Merging the keys into an empty object places their leaves. -/
theorem mergeKeys_located {fields leaves : Fields} (h : fields.leaves = .ok leaves)
    (hm : leaves.Mergeable) :
    ∃ root, mergeKeys fields [] = .ok root ∧ Json.Grown root ∧
      (Json.membersLocated root).Perm leaves.places := by
  have hempty : ∀ leaf ∈ leaves, ∀ place ∈ Json.membersLocated [],
      Json.Apart place.1 (segments leaf.1) := by
    simp [Json.membersLocated]
  obtain ⟨root, hr, hgrown, hperm⟩ := placeLeaves_located Json.Grown.nil (notObject_of_leaves h)
    hm.toJson (hm.pairwise (distinct_leaves h)) hempty
  refine ⟨root, ?_, hgrown, ?_⟩
  · rw [mergeKeys, h, bind_ok, hr]
  · rwa [Json.membersLocated, List.append_nil] at hperm

/-- Keys merged into an empty object are read back with the same leaves, up to their order and the
variants of integers. Another spelling of the same leaves gives the same members, up to their order. -/
theorem leaves_mergeKeys {fields leaves : Fields} (h : fields.leaves = .ok leaves)
    (hm : leaves.Mergeable) :
    ∃ root, mergeKeys fields [] = .ok root ∧
      (∃ merged again matched, Fields.ofJson root = .ok merged ∧ merged.leaves = .ok again ∧
        List.Forall₂ (fun leaf other => leaf.1 = other.1 ∧ leaf.2.SameByNumber other.2)
          leaves matched ∧ matched.Perm again) ∧
      ∀ other spelled : Fields, other.leaves = .ok spelled → spelled.Perm leaves →
        ∃ twin, mergeKeys other [] = .ok twin ∧
          (Json.membersLocated twin).Perm (Json.membersLocated root) := by
  obtain ⟨root, hroot, hgrown, hperm⟩ := mergeKeys_located h hm
  have hread : ∀ place ∈ Json.membersLocated root, Json.Readable pathDepthLimit place := by
    intro place hp
    exact hm.readable place (hperm.subset hp)
  have hpaths : ((Json.membersLocated root).map fun place => pathFrom none place.1).Nodup := by
    rw [(hperm.map _).nodup_iff, paths_places]
    exact distinct_leaves h
  obtain ⟨merged, again, hmerged, hagain, hleaves⟩ := leaves_ofJson hgrown hread hpaths
  refine ⟨root, hroot, ?_, ?_⟩
  · obtain ⟨matched, hmatched, horder⟩ := List.perm_comp_forall₂ hperm.symm hleaves
    refine ⟨merged, again, matched, hmerged, hagain, ?_, horder⟩
    have hboth := (List.forall₂_and_left leaves matched).2
      ⟨fun leaf hl => hl, List.forall₂_map_left_iff.1 hmatched⟩
    refine hboth.imp ?_
    rintro leaf other ⟨hl, hpath, hvalue⟩
    have hreceived : other.2 = leaf.2.received := by
      rw [hm.ofJson leaf hl] at hvalue
      exact (Except.ok.inj hvalue).symm
    rw [hreceived]
    exact ⟨(hpath.trans (pathFrom_segments leaf.1)).symm, (hm.simple leaf hl).received⟩
  · intro other spelled hs hp
    obtain ⟨twin, htwin, -, hplaces⟩ := mergeKeys_located hs (hm.of_perm hp)
    have hsame : spelled.places.Perm leaves.places := hp.map _
    exact ⟨twin, htwin, (hplaces.trans hsame).trans hperm.symm⟩

/-- Fields below one name, spelled with dots in one map and as objects in the other. -/
theorem leaves_mergeKeys_spellings :
    let fields : Fields := [("a.b", .int 1),
      ("a", .object [("c", .array [.null, .array [.uint 2]]), ("d.e", .string "x")]), ("f", .wide ⟨3⟩)]
    let nested : Fields := [("f", .wide ⟨3⟩), ("a", .object [("b", .int 1),
      ("c", .array [.null, .array [.uint 2]]), ("d", .object [("e", .string "x")])])]
    let leaves : Fields := [("a.b", .int 1), ("a.c", .array [.null, .array [.uint 2]]),
      ("a.d.e", .string "x"), ("f", .wide ⟨3⟩)]
    fields.leaves = .ok leaves ∧ leaves.Mergeable ∧ ∃ root merged again twin,
      mergeKeys fields [] = .ok root ∧ Fields.ofJson root = .ok merged ∧ merged.leaves = .ok again ∧
        again.length = 4 ∧ mergeKeys nested [] = .ok twin ∧
          (Json.membersLocated twin).Perm (Json.membersLocated root) := by
  intro fields nested leaves
  have h : fields.leaves = .ok leaves := rfl
  have hn : nested.leaves = .ok [("f", .wide ⟨3⟩), ("a.b", .int 1),
      ("a.c", .array [.null, .array [.uint 2]]), ("a.d.e", .string "x")] := rfl
  have hpaths : ∀ path ∈ ["a.b", "a.c", "a.d.e", "f"],
      (segments path).length ≤ pathDepthLimit ∧ "" ∉ segments path := by decide +kernel
  have hapart : ∀ path ∈ ["a.b", "a.c", "a.d.e", "f"], ∀ other ∈ ["a.b", "a.c", "a.d.e", "f"],
      segments path <+: segments other → path = other := by decide +kernel
  have hitems : (Value.array [.null, .array [.uint 2]]).Simple := by
    refine .array (List.forall_mem_cons.2 ⟨.null, List.forall_mem_singleton.2 (.array ?_)⟩)
    exact List.forall_mem_singleton.2 (.integer rfl)
  have hm : leaves.Mergeable := by
    refine ⟨fun leaf hl => ?_, fun leaf hl => ?_, fun leaf hl other ho => ?_, ?_⟩
    · exact (hpaths leaf.1 (List.mem_map_of_mem hl)).1
    · exact (hpaths leaf.1 (List.mem_map_of_mem hl)).2
    · exact hapart leaf.1 (List.mem_map_of_mem hl) other.1 (List.mem_map_of_mem ho)
    · simp only [leaves, List.forall_mem_cons]
      exact ⟨.integer rfl, hitems, .string "x", .integer rfl, by simp⟩
  obtain ⟨root, hr, ⟨merged, again, matched, hmerged, hagain, hsame, hperm⟩, hother⟩ :=
    leaves_mergeKeys h hm
  obtain ⟨twin, ht, hplaces⟩ := hother nested _ hn (List.perm_append_singleton _ [_, _, _]).symm
  have hlength : again.length = 4 := (hsame.length_eq.trans hperm.length_eq).symm
  exact ⟨h, hm, root, merged, again, twin, hr, hmerged, hagain, hlength, ht, hplaces⟩

end Fields

end DocWire
