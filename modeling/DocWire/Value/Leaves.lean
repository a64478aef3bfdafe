import DocWire.Failure
import DocWire.Value.Basic

/-!
# Leaves of a field map

On the wire nested objects are spelled as dotted paths. The leaves of a field map are its values
other than objects, each at the names that lead to it, joined by dots, in depth-first order. No two
leaves may share a path, no name and no nested map may be empty, and maps nest at most
`pathDepthLimit` deep, the outermost included; the first of these problems met in depth-first order
is the error. Main statement: `distinct_leaves`, the paths of the leaves are distinct.
-/
set_option autoImplicit false

namespace DocWire

/-- The path of a field in the map that stands at `parent?`, or in the outermost map. -/
def childPath (parent? : Option String) (name : String) : String :=
  match parent? with
  | none => name
  | some parent => parent ++ "." ++ name

namespace Fields

def addLeaf (path : String) (value : Value) (found : Fields) : Except Failure Fields :=
  if Entries.contains path found then .error (.filter (.repeatedPath path))
  else .ok (found ++ [(path, value)])

mutual
/-- Adds the leaves of a value that stands at a path; objects in it are the maps of level `depth`. -/
def valueLeaves (depth : Nat) (path : String) (found : Fields) (value : Value) :
    Except Failure Fields :=
  match value with
  | .object fields =>
    if fields.isEmpty then .error (.filter (.emptyObject path))
    else if pathDepthLimit < depth then .error (.filter (.pathTooDeep path))
    else fieldLeaves depth (some path) found fields
  | leaf => addLeaf path leaf found
termination_by structural value

def fieldLeaves (depth : Nat) (parent? : Option String) (found : Fields)
    (fields : List (String × Value)) : Except Failure Fields :=
  match fields with
  | [] => .ok found
  | (name, value) :: rest =>
    if name = "" then .error (.filter .emptyFieldName)
    else do
      let found ← valueLeaves (depth + 1) (childPath parent? name) found value
      fieldLeaves depth parent? found rest
termination_by structural fields
end

theorem distinct_of_addLeaf {path : String} {value : Value} {found found' : Fields}
    (hd : Entries.Distinct found) (h : addLeaf path value found = .ok found') :
    Entries.Distinct found' := by
  unfold addLeaf at h
  split at h
  · cases h
  · rename_i hc
    cases h
    have hn : path ∉ Entries.keys found := by
      rw [← Entries.get?_eq_none_iff]
      simpa [Entries.contains] using hc
    rw [← Entries.insert_of_not_mem path value found hn]
    exact hd.insert path value

mutual
theorem distinct_of_valueLeaves (depth : Nat) (path : String) (found : Fields) (value : Value)
    (found' : Fields) (hd : Entries.Distinct found)
    (h : valueLeaves depth path found value = .ok found') : Entries.Distinct found' := by
  match value with
  | .object fields =>
    unfold valueLeaves at h
    split at h
    · cases h
    · split at h
      · cases h
      · exact distinct_of_fieldLeaves depth (some path) found fields found' hd h
  | .null | .bool _ | .int _ | .uint _ | .float _ | .wide _ | .string _ | .instant _ | .uuid _
  | .array _ => exact distinct_of_addLeaf hd h
termination_by structural value

theorem distinct_of_fieldLeaves (depth : Nat) (parent? : Option String) (found : Fields)
    (fields : List (String × Value)) (found' : Fields) (hd : Entries.Distinct found)
    (h : fieldLeaves depth parent? found fields = .ok found') : Entries.Distinct found' := by
  match fields with
  | [] =>
    unfold fieldLeaves at h
    cases h
    exact hd
  | (name, value) :: rest =>
    unfold fieldLeaves at h
    split at h
    · cases h
    · cases hv : valueLeaves (depth + 1) (childPath parent? name) found value with
      | error e =>
        rw [hv] at h
        cases h
      | ok middle =>
        rw [hv] at h
        exact distinct_of_fieldLeaves depth parent? middle rest found'
          (distinct_of_valueLeaves (depth + 1) (childPath parent? name) found value middle hd hv) h
termination_by structural fields
end

/-- The leaves of a field map, by path. -/
def leaves (fields : Fields) : Except Failure Fields := fieldLeaves 1 none [] fields

def leafPaths (fields : Fields) : Except Failure (List String) := do .ok (← leaves fields).keys

/-- No path has two leaves. -/
theorem distinct_leaves {fields found : Fields} (h : leaves fields = .ok found) :
    Entries.Distinct found :=
  distinct_of_fieldLeaves 1 none [] fields found Entries.distinct_nil h

end Fields
end DocWire
