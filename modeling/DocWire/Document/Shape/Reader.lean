import DocWire.Document.Basic
import DocWire.Document.Shape.Basic
import DocWire.Json.Skip
import DocWire.Number.Quick

/-!
# Reading typed documents

A reader that knows the shape of what it reads. The first problem from left to right decides the
fault. Where a value is of the wrong type, a scalar is still read to its end, so that a text that
stops inside it has ended; a container is refused at its opening sign. A declared member that comes
twice is refused at its second name. Members that are not declared are passed over.
-/
set_option autoImplicit false

namespace DocWire.Shape

open Json (Reader Fault skipSpace refuse)

def stringReader (steps : Nat) : Reader Json := fun cs =>
  match skipSpace cs with
  | some '"' :: rest => do
    let (s, rest) ← Json.stringBody steps rest
    .ok (.string s, rest)
  | _ => .error (refuse steps cs)

def optionalReader (steps : Nat) : Reader Json := fun cs =>
  match skipSpace cs with
  | some 'n' :: rest => do
    let ((), rest) ← Json.word "ull".toList rest
    .ok (.null, rest)
  | _ => stringReader steps cs

/-- Reads a number, as the given function understands its text. -/
def numberReader (steps : Nat) (understand? : List Char → Option Json) : Reader Json := fun cs => do
  let (json, rest) ← match Json.scalar steps cs with
    | .ok (.number text, rest) => .ok (understand? text.toList, rest)
    | .ok _ => .error .malformed
    | .error fault => .error fault
  match json with
  | some json => .ok (json, rest)
  | none => .error .malformed

/-- A field of a record with the reader for its value. -/
structure Field where
  name : String
  read : Reader Json
  fallback? : Option Json

def settle : List Field → Entries Json → Except Fault (Entries Json)
  | [], _ => .ok []
  | field :: rest, found =>
    match (Entries.get? field.name found).or field.fallback? with
    | some json => do .ok ((field.name, json) :: (← settle rest found))
    | none => .error .malformed

def membersFrom (fields : List Field) (steps : Nat) : Nat → Entries Json → Reader (Entries Json)
  | 0, _, _ => .error .malformed
  | count + 1, found, cs => do
    let cs ← Json.nameQuote cs
    let (name, cs) ← Json.stringBody steps cs
    let (found, cs) ← match fields.find? (·.name = name) with
      | some field =>
        if Entries.contains name found then .error .malformed
        else do
          let cs ← Json.colon cs
          let (json, cs) ← field.read cs
          .ok (Entries.insert name json found, cs)
      | none => do
        let cs ← Json.colon cs
        let ((), cs) ← Json.skip cs
        .ok (found, cs)
    match skipSpace cs with
    | [] => .error .ended
    | some '}' :: cs => .ok (found, cs)
    | some ',' :: cs => membersFrom fields steps count found cs
    | _ => .error .malformed

def membersReader (fields : List Field) (steps : Nat) : Reader (Entries Json) := fun cs => do
  let (found, cs) ← match skipSpace cs with
    | [] => .error .ended
    | some '}' :: cs => .ok ([], cs)
    | cs => membersFrom fields steps steps [] cs
  .ok (← settle fields found, cs)

def moreItems : List Field → Reader (Entries Json)
  | [], cs =>
    match skipSpace cs with
    | [] => .error .ended
    | some ']' :: cs => .ok ([], cs)
    | _ => .error .malformed
  | field :: rest, cs =>
    match skipSpace cs with
    | [] => .error .ended
    | some ']' :: cs => do .ok (← settle (field :: rest) [], cs)
    | some ',' :: cs =>
      match skipSpace cs with
      | [] => .error .ended
      | some ']' :: _ => .error .malformed
      | cs => do
        let (json, cs) ← field.read cs
        let (others, cs) ← moreItems rest cs
        .ok ((field.name, json) :: others, cs)
    | _ => .error .malformed

def itemsReader (fields : List Field) : Reader (Entries Json) := fun cs =>
  match fields, skipSpace cs with
  | field :: rest, some c :: cs =>
    if c = ']' then do .ok (← settle fields [], cs)
    else do
      let (json, cs) ← field.read (some c :: cs)
      let (others, cs) ← moreItems rest cs
      .ok ((field.name, json) :: others, cs)
  | _, cs => moreItems fields cs

/-- Reads a record, when a container may still be opened. -/
def recordReader (steps depth : Nat) (fields : List Field) : Reader Json := fun cs =>
  match skipSpace cs with
  | some '{' :: rest =>
    if depth = 0 then .error .malformed
    else do
      let (members, rest) ← membersReader fields steps rest
      .ok (.object members, rest)
  | some '[' :: rest =>
    if depth = 0 then .error .malformed
    else do
      let (members, rest) ← itemsReader fields rest
      .ok (.object members, rest)
  | _ => .error (refuse steps cs)

mutual
/-- Reads a value of a shape, in which at most `depth` containers nest. -/
def reader (steps depth : Nat) (shape : Shape) : Reader Json :=
  match shape with
  | any => Json.value steps depth
  | string => stringReader steps
  | optionalString => optionalReader steps
  | unsigned limit => numberReader steps fun cs => fitUnsigned? limit (.number (String.ofList cs))
  | double => numberReader steps fun cs => (Quick.ofToken? cs).map doubleValue
  | record fields => recordReader steps depth (fieldReaders steps (depth - 1) fields)
termination_by structural shape

def fieldReaders (steps depth : Nat) (fields : List (String × Shape × Option Json)) : List Field :=
  match fields with
  | [] => []
  | (name, shape, fallback?) :: rest =>
    ⟨name, reader steps depth shape, fallback?⟩ :: fieldReaders steps depth rest
termination_by structural fields
end

def ofBytes (shape : Shape) (bytes : ByteArray) : Except Fault Json :=
  let cs := Symbol.ofBytes bytes
  Json.complete (shape.reader (cs.length + 1) Json.maxDepth) cs

end DocWire.Shape

namespace DocWire

def DocumentType.ofShape (shape : Shape) (collection : String)
    (schemaFields primaryKey : List String) : DocumentType Json where
  collection := collection
  schemaFields := schemaFields
  primaryKey := primaryKey
  toJson := id
  ofJson? := shape.fit?
  decode := shape.ofBytes

end DocWire
