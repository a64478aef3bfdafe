import DocWire.Disk.Basic

/-!
# Written paths

A path is followed name by name, from the root when it starts with a slash and from the working
directory otherwise. Every name but the last has to lead to a directory, and so has the last one when
a slash or a single dot follows it. Two dots lead back; at the root they lead nowhere else. Empty
names and single dots between others change nothing. There are limits on the bytes of a name and of
a whole path.
-/
set_option autoImplicit false

namespace DocWire

/-- A disk with the directory in which a process works. -/
structure Disk where
  root : DiskNode
  workingDirectory : Location
deriving Inhabited

/-- What a path ends with: its last name, a slash, or a single dot. -/
inductive PathEnding where
  | name
  | slash
  | dot
deriving DecidableEq, Repr

/-- A path: whether it starts at the root, its names without empty ones and single dots, and what it
ends with. -/
structure DiskPath where
  absolute : Bool
  names : List String
  ending : PathEnding
deriving DecidableEq, Repr

namespace DiskPath

def maxBytes : Nat := 4095

def maxNameBytes : Nat := 255

def endingOf : List String → PathEnding
  | [] => .name
  | part :: rest =>
    if part = "." then .dot
    else if part ≠ "" then .name
    else match endingOf rest with
      | .name => .slash
      | other => other

def ofText (text : String) : Except DiskFault DiskPath :=
  if text = "" then .error .absent
  else if text.toList.contains '\x00' then .error .invalidName
  else if maxBytes < text.utf8ByteSize then .error .nameTooLong
  else
    let parts := text.splitOn "/"
    .ok ⟨parts.head? = some "", parts.filter fun part => part ≠ "" ∧ part ≠ ".",
      endingOf parts.reverse⟩

def parent (path : DiskPath) : DiskPath := { path with names := path.names.dropLast, ending := .name }

def join (directory name : String) : String :=
  if directory = "" ∨ directory.toList.getLast? = some '/' then directory ++ name
  else directory ++ "/" ++ name

end DiskPath

/-- What a reader finds at a path: nothing, a file with its bytes, or something that cannot be read
as a file, such as a directory. -/
inductive PathContent where
  | missing
  | unreadable
  | file (bytes : ByteArray)

namespace Disk

/-- Goes on from a directory by a name. Nothing needs to stand there. -/
def follow (disk : Disk) (location : Location) (name : String) : Except DiskFault Location :=
  match disk.root.at? location with
  | none => .error .absent
  | some (.file _) => .error .notDirectory
  | some (.directory _) =>
    if name = ".." then .ok location.dropLast
    else if DiskPath.maxNameBytes < name.utf8ByteSize then .error .nameTooLong
    else .ok (location ++ [name])

def start (disk : Disk) (path : DiskPath) : Location :=
  if path.absolute then [] else disk.workingDirectory

def locate (disk : Disk) (path : DiskPath) : Except DiskFault Location :=
  path.names.foldlM disk.follow (disk.start path)

def find (disk : Disk) (path : DiskPath) : Except DiskFault DiskNode := do
  match disk.root.at? (← disk.locate path), path.ending with
  | none, _ => .error .absent
  | some (.file bytes), .name => .ok (.file bytes)
  | some (.file _), _ => .error .notDirectory
  | some (.directory entries), _ => .ok (.directory entries)

def content (disk : Disk) (text : String) : PathContent :=
  match DiskPath.ofText text >>= disk.find with
  | .ok (.file bytes) => .file bytes
  | .ok (.directory _) => .unreadable
  | .error _ => .missing

def put (disk : Disk) (location : Location) (node : DiskNode) : Disk :=
  { disk with root := disk.root.put location node }

/-! ## Directories -/

/-- Goes on from a directory by names, and says whether a directory was made: one is made of each
name that nothing has yet. A file on the way is no directory; once a directory was made, it is
something that takes the place of the next one. -/
def enter (disk : Disk) (location : Location) (made : Bool) :
    List String → Except DiskFault (Location × Bool) × Disk
  | [] => (.ok (location, made), disk)
  | name :: rest =>
    match disk.follow location name with
    | .error fault => (.error (if fault = .notDirectory ∧ made then .taken else fault), disk)
    | .ok next =>
      if (disk.root.at? next).isSome then disk.enter next made rest
      else (disk.put next (.directory [])).enter next true rest

def checkDirectory (disk : Disk) (location : Location) (other : DiskFault) : Except DiskFault Unit :=
  match disk.root.at? location with
  | some (.directory _) => .ok ()
  | some (.file _) => .error other
  | none => .error .absent

/-- Makes the directories of a path, as far as they do not exist. A name before a final dot has to be
there. What was made stays when a later name is refused. -/
def createDirectories (disk : Disk) (path : DiskPath) : Except DiskFault Unit × Disk :=
  match path.ending, path.names.getLast? with
  | .dot, some last =>
    match disk.enter (disk.start path) false path.names.dropLast with
    | (.error fault, disk) => (.error fault, disk)
    | (.ok (location, made), disk) =>
      (do
        if made then disk.checkDirectory location .taken
        disk.checkDirectory (← disk.follow location last) .notDirectory, disk)
  | _, _ =>
    match disk.enter (disk.start path) false path.names with
    | (.error fault, disk) => (.error fault, disk)
    | (.ok (location, _), disk) => (disk.checkDirectory location .taken, disk)

/-! ## Files -/

/-- Opens a file for writing, and makes an empty one where there is none. -/
def openFile (disk : Disk) (path : DiskPath) : Except DiskFault Location × Disk :=
  match disk.locate path with
  | .error fault => (.error fault, disk)
  | .ok location =>
    match disk.root.at? location, path.ending with
    | some (.file _), .name => (.ok location, disk)
    | some (.file _), _ => (.error .notDirectory, disk)
    | some (.directory _), _ => (.error .isDirectory, disk)
    | none, .name => (.ok location, disk.put location (.file ByteArray.empty))
    | none, _ => (.error .isDirectory, disk)

def append (disk : Disk) (location : Location) (text : String) : Disk :=
  match disk.root.at? location with
  | some (.file bytes) => disk.put location (.file (bytes ++ text.toUTF8))
  | _ => disk

end Disk
end DocWire
