import DocWire.Proofs.Filter.Wire
import DocWire.Proofs.Filter.Payload
import DocWire.Proofs.Update.Domain

/-!
# Paths that are listed and paths that are sent

A schema is asked about the paths that a filter or an update lists, and the server is told those
that stand in the text. They are computed apart from one another and agree: for a filter in order,
for an update but for the order of its groups. Main statement: `paths_agree`.
-/
set_option autoImplicit false

namespace DocWire

namespace Json

/-- The paths under a keyword of an update: the entries of the fields to remove, the member names
of any other group. -/
def namedUnder (keyword : String) : Json → List String
  | object members => if keyword = "$unset" then [] else Entries.keys members
  | array items =>
    if keyword = "$unset" then
      items.filterMap fun
        | string s => some s
        | _ => none
    else []
  | _ => []

/-- The paths that an update's text names, in reading order. -/
def namedPaths : Json → List String
  | object groups => groups.flatMap fun group => group.2.namedUnder group.1
  | _ => []

/-- Every group has the kind that its keyword calls for. -/
def Keyworded (groups : Entries Json) : Prop :=
  ∀ group ∈ groups, group.2.namedUnder group.1 = group.2.groupPaths

theorem Keyworded.append {groups others : Entries Json} (h : Keyworded groups)
    (ho : Keyworded others) : Keyworded (groups ++ others) :=
  List.forall_mem_append.2 ⟨h, ho⟩

theorem Keyworded.namedPaths_eq {groups : Entries Json} (h : Keyworded groups) :
    (object groups).namedPaths = (object groups).updatePaths := by
  unfold namedPaths updatePaths
  exact List.flatMap_congr h

end Json

namespace Update

theorem keyworded_members (u : Update) : Json.Keyworded u.members := by
  have hgroup : ∀ op, Json.Keyworded (u.groupMember op) := by
    intro op group hg
    unfold groupMember at hg
    split at hg
    · cases hg
    · obtain rfl := List.mem_singleton.1 hg
      exact if_neg op.keyword_ne_unset
  have hunset : Json.Keyworded u.unsetMember := by
    intro group hg
    unfold unsetMember at hg
    split at hg
    · cases hg
    · obtain rfl := List.mem_singleton.1 hg
      rfl
  refine ((hgroup .set).append hunset).append fun group hg => ?_
  obtain ⟨op, -, hg⟩ := List.mem_flatMap.1 hg
  exact hgroup op group hg

theorem namedPaths_of_wire {u : Update} {json : Json} (h : u.wire = .ok json) :
    json.namedPaths = json.updatePaths := by
  obtain ⟨-, rfl⟩ := wire_eq_ok_iff.1 h
  exact (keyworded_members u).namedPaths_eq

theorem paths_of_encode {u : Update} {text : String} (h : u.encode = .ok text) :
    ∃ tree, (∀ json, Json.Reads text json ↔ json = tree) ∧
      ∃ paths, u.paths = .ok paths ∧ paths.Perm tree.namedPaths := by
  rw [encode_eq_wire] at h
  obtain ⟨tree, ht, h⟩ := bind_eq_ok_iff.1 h
  cases h
  obtain ⟨paths, hp, hperm⟩ := paths_of_wire ht
  rw [← namedPaths_of_wire ht] at hperm
  exact ⟨tree, Json.reads_text_iff (lexical_of_wire ht), paths, hp, hperm⟩

end Update

theorem Filter.paths_of_encode {filter : Filter} {text : String} (h : filter.encode = .ok text) :
    ∃ tree, (∀ json, Json.Reads text json ↔ json = tree) ∧ filter.paths = .ok tree.filterPaths := by
  obtain ⟨tree, ht, rfl⟩ := encode_eq_ok_iff.1 h
  exact ⟨tree, Json.reads_text_iff (spells_of_wire ht).lexical, paths_of_wire ht⟩

/-- What fails whenever another step fails. -/
theorem exists_error_of_ok_imp {ε α β : Type} {x : Except ε α} {y : Except ε β} {e : ε}
    (hx : x = .error e) (h : ∀ b, y = .ok b → ∃ a, x = .ok a) : ∃ e', y = .error e' := by
  cases y with
  | error e' => exact ⟨e', rfl⟩
  | ok b =>
    obtain ⟨a, ha⟩ := h b rfl
    rw [hx] at ha
    cases ha

/-- The paths that a filter or an update lists are those in its text, and where they cannot be
listed there is no text. -/
theorem paths_agree :
    (∀ (filter : Filter) (text : String), filter.encode = .ok text →
      ∃ tree, (∀ json, Json.Reads text json ↔ json = tree) ∧
        filter.paths = .ok tree.filterPaths) ∧
    (∀ (u : Update) (text : String), u.encode = .ok text →
      ∃ tree, (∀ json, Json.Reads text json ↔ json = tree) ∧
        ∃ paths, u.paths = .ok paths ∧ paths.Perm tree.namedPaths) ∧
    (∀ (filter : Filter) (e : Failure), filter.paths = .error e → ∃ e', filter.encode = .error e') ∧
    ∀ (u : Update) (e : Failure), u.paths = .error e → ∃ e', u.encode = .error e' := by
  refine ⟨fun filter text h => Filter.paths_of_encode h, fun u text h => Update.paths_of_encode h,
    fun filter e he => exists_error_of_ok_imp he fun text h => ?_,
    fun u e he => exists_error_of_ok_imp he fun text h => ?_⟩
  · obtain ⟨tree, -, hp⟩ := Filter.paths_of_encode h
    exact ⟨_, hp⟩
  · obtain ⟨tree, -, paths, hp, -⟩ := Update.paths_of_encode h
    exact ⟨paths, hp⟩

/-- A name that looks like a keyword, and an update whose text has the removed field in between. -/
theorem paths_agree_keywords :
    let filter := Filter.logical (.ofSelectors .or
      [⟨.gt, [("$and", .object [("$gt", .int 5)])]⟩, ⟨.eq, [("b", .null)]⟩])
    let u : Update := ⟨[("a", .object [("b", .array [.object [("c", .null)]])])], ["d"],
      [("e", .int 1)], [], [], []⟩
    (∃ text tree, filter.encode = .ok text ∧ Json.Reads text tree ∧
      tree.filterPaths = ["$and.$gt", "b"]) ∧
    ∃ text tree, u.encode = .ok text ∧ Json.Reads text tree ∧
      ["a.b", "e", "d"].Perm tree.namedPaths := by
  intro filter u
  obtain ⟨hfilter, hupdate, -⟩ := paths_agree
  constructor
  · obtain ⟨tree, hreads, hpaths⟩ := hfilter filter _ rfl
    exact ⟨_, tree, rfl, (hreads tree).2 rfl, (Except.ok.inj hpaths).symm⟩
  · obtain ⟨tree, hreads, paths, hpaths, hperm⟩ := hupdate u _ rfl
    cases hpaths
    exact ⟨_, tree, rfl, (hreads tree).2 rfl, hperm⟩

end DocWire
