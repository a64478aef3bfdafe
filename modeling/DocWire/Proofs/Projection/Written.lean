import DocWire.Projection.Basic
import DocWire.Proofs.Value.Written

/-!
# The tree of a written projection

The text of a projection is that of a JSON tree, `Projection.wire`, and where the projection cannot be
written there is no tree, for the same reason. The text so far is that of the names seen so far. Main
statements: `distinct_names`, no name is written twice; and `encode_eq_wire`.
-/
set_option autoImplicit false

namespace DocWire.Projection

/-- The names of a list, each at its first place. -/
def names : List String → List String → Except Failure (List String)
  | seen, [] => .ok seen
  | seen, name :: rest =>
    if name = "" then .error (.filter .emptyProjectionName)
    else names (if seen.contains name then seen else seen ++ [name]) rest

def wireNames (flag : Bool) (list : List String) : Except Failure Json := do
  .ok (.object ((← names [] list).map fun name => (name, .bool flag)))

def wire (p : Projection) : Except Failure Json :=
  match p.included.isEmpty, p.excluded.isEmpty with
  | false, true => wireNames true p.included
  | true, false => wireNames false p.excluded
  | false, false => .error (.filter .mixedProjection)
  | true, true => .error (.filter .emptyProjection)

theorem distinct_names {seen list found : List String} (hs : seen.Nodup)
    (h : names seen list = .ok found) : found.Nodup := by
  induction list generalizing seen with
  | nil =>
    cases h
    exact hs
  | cons name rest ih =>
    unfold names at h
    split at h
    · cases h
    · refine ih ?_ h
      split
      · exact hs
      · rename_i hn
        refine List.nodup_append.2 ⟨hs, by simp, ?_⟩
        intro a ha b hb
        rw [List.mem_singleton] at hb
        rintro rfl
        exact hn (by simpa using hb ▸ ha)

/-! ## Writing -/

/-- The text in which some names have been written. -/
def namesText (flag : Bool) (seen : List String) : String :=
  "\x7b" ++ joined 0 (seen.map fun name => Json.memberText (name, .bool flag))

/-- One more name, behind a comma unless it is the first one. -/
theorem namesText_concat (flag : Bool) (seen : List String) (name : String) :
    pushKey name (if 1 < (seen ++ [name]).length then (namesText flag seen).push ','
      else namesText flag seen) ++ (Json.bool flag).text = namesText flag (seen ++ [name]) := by
  rw [Json.pushKey_append_text, namesText, namesText, List.map_append, List.map_singleton, joined_concat,
    List.length_map, List.length_append, List.length_singleton]
  cases seen with
  | nil => simp [String.append_assoc]
  | cons first rest =>
    simp only [List.length_cons, if_pos (show 1 < rest.length + 1 + 1 by omega),
      if_pos (show 0 < 0 + (rest.length + 1) by omega), String.push_eq_append, String.append_assoc]
    rfl

theorem pushNames_namesText (flag : Bool) (seen list : List String) :
    pushNames (Json.bool flag).text seen list (namesText flag seen) =
      names seen list >>= fun found => .ok (namesText flag found) := by
  induction list generalizing seen with
  | nil => rfl
  | cons name rest ih =>
    rw [pushNames, names]
    split
    · rfl
    · split
      · exact ih seen
      · simp only [namesText_concat]
        exact ih (seen ++ [name])

theorem encodeNames_eq_wireNames (flag : Bool) (list : List String) :
    encodeNames (Json.bool flag).text list = wireNames flag list >>= fun json => .ok json.text := by
  have hstart : ("\x7b" : String) = namesText flag [] := by simp [namesText, joined]
  rw [encodeNames, wireNames, hstart, pushNames_namesText]
  cases names [] list with
  | error e => rfl
  | ok found =>
    have ht := Json.text_object (found.map fun name => (name, .bool flag)) ""
    rw [String.empty_append, List.map_map] at ht
    exact congrArg Except.ok ht

/-- A projection is written as the text of its wire form. -/
theorem encode_eq_wire (p : Projection) : p.encode = p.wire >>= fun json => .ok json.text := by
  unfold encode wire
  cases p.included.isEmpty with
  | false =>
    cases p.excluded.isEmpty with
    | false => rfl
    | true => exact encodeNames_eq_wireNames true p.included
  | true =>
    cases p.excluded.isEmpty with
    | false => exact encodeNames_eq_wireNames false p.excluded
    | true => rfl

end DocWire.Projection
