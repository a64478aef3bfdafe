import DocWire.Entries

/-!
# Files and directories

A disk is a tree: a directory holds files and directories by name. A location is the list of names
that leads to something from the root. Main statement: `at?_put`, what is put at a location that is
taken stands there.
-/
set_option autoImplicit false

namespace DocWire

inductive DiskFault where
  | absent
  | taken
  | notDirectory
  | isDirectory
  | nameTooLong
  | invalidName
deriving DecidableEq, Repr

/-- The wording that systems have for these faults. -/
def DiskFault.message : DiskFault → String
  | absent => "No such file or directory (os error 2)"
  | taken => "File exists (os error 17)"
  | notDirectory => "Not a directory (os error 20)"
  | isDirectory => "Is a directory (os error 21)"
  | nameTooLong => "File name too long (os error 36)"
  | invalidName => "file name contained an unexpected NUL byte"

/-- A file with its bytes, or a directory with what it holds. -/
inductive DiskNode where
  | file (bytes : ByteArray)
  | directory (entries : List (String × DiskNode))

abbrev Location := List String

namespace DiskNode

instance : Inhabited DiskNode := ⟨directory []⟩

def at? : Location → DiskNode → Option DiskNode
  | [], node => some node
  | name :: rest, directory entries => (Entries.get? name entries).bind (at? rest)
  | _ :: _, file _ => none

/-- Puts something at a location, with the directories that lead there. A file on the way stays. -/
def put : DiskNode → Location → DiskNode → DiskNode
  | _, [], new => new
  | directory entries, name :: rest, new =>
    directory (Entries.insert name (put ((Entries.get? name entries).getD default) rest new) entries)
  | file bytes, _ :: _, _ => file bytes

theorem at?_put (node : DiskNode) (location : Location) (new : DiskNode)
    (h : (node.at? location).isSome) : (node.put location new).at? location = some new := by
  induction location generalizing node with
  | nil => cases node <;> rfl
  | cons name rest ih =>
    cases node with
    | file bytes => simp [at?] at h
    | directory entries =>
      cases hg : Entries.get? name entries with
      | none => simp [at?, hg] at h
      | some inner =>
        have hi : (inner.at? rest).isSome := by simpa [at?, hg] using h
        simp [put, at?, hg, Entries.get?_insert_self, ih inner hi]

end DiskNode
end DocWire
