import DocWire.Proofs.Value.Wire
import DocWire.Proofs.Update.Written

/-!
# What an update's payload says

The paths that a payload changes are the paths of the update, if in another order: the fields to
remove come after the fields to set, and not at the end. Main statements: `lexical_of_wire` and
`paths_of_wire`.
-/
set_option autoImplicit false

namespace DocWire

namespace Json

/-- The paths under an operator of an update's wire form, in reading order. -/
def groupPaths : Json → List String
  | object members => Entries.keys members
  | array items => items.filterMap fun
    | string s => some s
    | _ => none
  | _ => []

/-- The paths that an update's wire form changes, in reading order. -/
def updatePaths : Json → List String
  | object groups => groups.flatMap fun group => group.2.groupPaths
  | _ => []

theorem membersLexical_append {members others : Entries Json} (h1 : MembersLexical members)
    (h2 : MembersLexical others) : MembersLexical (members ++ others) := by
  rw [membersLexical_iff] at *
  intro member hm
  rcases List.mem_append.1 hm with hm | hm
  · exact h1 member hm
  · exact h2 member hm

theorem groupPaths_strings (names : List String) : (array (names.map string)).groupPaths = names := by
  rw [groupPaths, List.filterMap_map]
  exact List.filterMap_some

theorem itemsLexical_strings (names : List String) : ItemsLexical (names.map string) := by
  rw [itemsLexical_iff]
  intro item hi
  obtain ⟨name, -, rfl⟩ := List.mem_map.1 hi
  trivial

end Json

namespace Update

theorem members_of_wireLeaves {op : UpdateOperator} {leaves : Fields} {members : Entries Json}
    (h : wireLeaves op leaves = .ok members) :
    Json.MembersLexical members ∧ Entries.keys leaves = Entries.keys members := by
  induction leaves generalizing members with
  | nil =>
    cases h
    exact ⟨trivial, rfl⟩
  | cons leaf rest ih =>
    obtain ⟨path, value⟩ := leaf
    unfold wireLeaves at h
    split at h
    · cases h
    · obtain ⟨json, hj, h⟩ := bind_eq_ok_iff.1 h
      obtain ⟨others, hr, h⟩ := bind_eq_ok_iff.1 h
      cases h
      obtain ⟨hl, hk⟩ := ih hr
      exact ⟨⟨Value.lexical_of_wire hj, hl⟩, congrArg (path :: ·) hk⟩

/-- Groups of an update's wire form are lexical and list these paths. -/
def Lists (groups : Entries Json) (paths : List String) : Prop :=
  Json.MembersLexical groups ∧ (groups.flatMap fun group => group.2.groupPaths) = paths

theorem Lists.append {groups others : Entries Json} {paths more : List String}
    (h1 : Lists groups paths) (h2 : Lists others more) : Lists (groups ++ others) (paths ++ more) :=
  ⟨Json.membersLexical_append h1.1 h2.1, by rw [List.flatMap_append, h1.2, h2.2]⟩

theorem lists_of_wireGroup {u : Update} {op : UpdateOperator} {groups : Entries Json}
    (h : u.wireGroup op = .ok groups) :
    ∃ paths, (u.group op).leafPaths = .ok paths ∧ Lists groups paths := by
  unfold wireGroup at h
  split at h
  · rename_i he
    cases h
    rw [List.isEmpty_iff.1 he]
    exact ⟨[], rfl, trivial, rfl⟩
  · obtain ⟨leaves, hl, h⟩ := bind_eq_ok_iff.1 h
    obtain ⟨members, hm, h⟩ := bind_eq_ok_iff.1 h
    cases h
    obtain ⟨hlex, hkeys⟩ := members_of_wireLeaves hm
    refine ⟨leaves.keys, by rw [Fields.leafPaths, hl, bind_ok], ⟨hlex, trivial⟩, ?_⟩
    rw [List.flatMap_singleton, Json.groupPaths, hkeys]

theorem lists_of_wireGroups {u : Update} {ops : List UpdateOperator} {groups : Entries Json}
    (h : u.wireGroups ops = .ok groups) :
    ∃ paths, u.groupPaths ops = .ok paths ∧ Lists groups paths := by
  induction ops generalizing groups with
  | nil =>
    cases h
    exact ⟨[], rfl, trivial, rfl⟩
  | cons op rest ih =>
    obtain ⟨first, hf, h⟩ := bind_eq_ok_iff.1 h
    obtain ⟨others, hr, h⟩ := bind_eq_ok_iff.1 h
    cases h
    obtain ⟨paths, hp, h1⟩ := lists_of_wireGroup hf
    obtain ⟨more, hm, h2⟩ := ih hr
    exact ⟨paths ++ more, by rw [groupPaths, hp, bind_ok, hm, bind_ok], h1.append h2⟩

theorem lists_of_wireUnset {u : Update} {groups : Entries Json} (h : u.wireUnset = .ok groups) :
    Lists groups u.unset := by
  unfold wireUnset at h
  split at h
  · rename_i he
    cases h
    rw [List.isEmpty_iff.1 he]
    exact ⟨trivial, rfl⟩
  · split at h
    · cases h
    · cases h
      refine ⟨⟨Json.itemsLexical_strings u.unset, trivial⟩, ?_⟩
      rw [List.flatMap_singleton, Json.groupPaths_strings]

theorem lists_of_wire {u : Update} {json : Json} (h : u.wire = .ok json) :
    ∃ groups set arithmetic, json = .object groups ∧ Lists groups (set ++ u.unset ++ arithmetic) ∧
      u.paths = .ok (set ++ arithmetic ++ u.unset) := by
  unfold wire at h
  split at h
  · cases h
  · obtain ⟨first, hf, h⟩ := bind_eq_ok_iff.1 h
    obtain ⟨second, hs, h⟩ := bind_eq_ok_iff.1 h
    obtain ⟨third, ht, h⟩ := bind_eq_ok_iff.1 h
    cases h
    obtain ⟨set, hset, h1⟩ := lists_of_wireGroup hf
    obtain ⟨arithmetic, harith, h3⟩ := lists_of_wireGroups ht
    refine ⟨_, set, arithmetic, rfl, (h1.append (lists_of_wireUnset hs)).append h3, ?_⟩
    rw [paths, UpdateOperator.all, groupPaths, hset, bind_ok, harith]
    rfl

/-- The numbers in an update's wire form are spelled as numbers. -/
theorem lexical_of_wire {u : Update} {json : Json} (h : u.wire = .ok json) : json.Lexical := by
  obtain ⟨groups, set, arithmetic, rfl, hl, -⟩ := lists_of_wire h
  exact hl.1

/-- The paths of an update are those that its wire form changes. -/
theorem paths_of_wire {u : Update} {json : Json} (h : u.wire = .ok json) :
    ∃ paths, u.paths = .ok paths ∧ paths.Perm json.updatePaths := by
  obtain ⟨groups, set, arithmetic, rfl, hl, hp⟩ := lists_of_wire h
  refine ⟨_, hp, ?_⟩
  -- The arithmetic groups and the fields to remove change places.
  rw [Json.updatePaths, hl.2, List.append_assoc, List.append_assoc]
  exact List.perm_append_comm.append_left set

/-- The text of an update is a payload that says what the update's wire form says. -/
theorem payload_of_encode {P : Json → Prop} {u : Update} {text : String} (h : u.encode = .ok text)
    (hp : ∀ json, u.wire = .ok json → P json) : Json.Payload P text.toUTF8 := by
  rw [encode_eq_wire] at h
  obtain ⟨json, hj, h⟩ := bind_eq_ok_iff.1 h
  cases h
  exact Json.payload_text (lexical_of_wire hj) (hp json hj)

end Update
end DocWire
