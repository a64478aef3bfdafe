import DocWire.Filter.Basic
import DocWire.Json.Reader
import DocWire.Value.Source

/-!
# Filters from JSON source

A filter is written as an object. A selector has `fields` and may have `op`; a logical filter has
`op` and a list of children, either `selectorFilters` or `logicalFilters`. Nothing else may stand in
these objects. Members are taken out of an object one after another, and what is left over decides
which unknown member an error names.
-/
set_option autoImplicit false

namespace DocWire

/-- An error when an object has members left; it names the first. -/
def rejectOthers (fault : String → SourceFault) : Entries Json → Except Failure Unit
  | [] => .ok ()
  | (name, _) :: _ => .error (.source (fault name))

namespace Selector

/-- Reads the operator of a selector; without one it is equality. -/
def readOp : Option Json → Except Failure Comparison
  | none => .ok .eq
  | some (.string s) =>
    match Comparison.ofName? (operatorName s) with
    | some op => .ok op
    | none => .error (.source (.selectorOpUnknown s))
  | some other => .error (.source (.selectorOpKind other.kind))

def readFields : Option Json → Except Failure Fields
  | none => .ok []
  | some (.object members) => Fields.ofJson members
  | some other => .error (.source (.selectorFieldsKind other.kind))

def ofMembers (members : Entries Json) : Except Failure Selector := do
  let (op?, members) := members.swapErase "op"
  let op ← readOp op?
  let (fields?, members) := members.swapErase "fields"
  let fields ← readFields fields?
  rejectOthers .selectorKey members
  .ok ⟨op, fields⟩

def ofItems : List Json → Except Failure (List Selector)
  | [] => .ok []
  | .object members :: rest => do
    let selector ← ofMembers members
    .ok (selector :: (← ofItems rest))
  | other :: _ => .error (.source (.selectorEntryKind other.kind))

end Selector

namespace LogicalFilter

def readOp : Option Json → Except Failure Connective
  | none => .error (.source .logicalOpMissing)
  | some (.string s) =>
    match Connective.ofName? (operatorName s) with
    | some op => .ok op
    | none => .error (.source (.logicalOpUnknown s))
  | some other => .error (.source (.logicalOpKind other.kind))

def readChildren (key : String) : Option Json → Except Failure (List Json)
  | none => .ok []
  | some .null => .ok []
  | some (.array items) => .ok items
  | some other => .error (.source (.childrenKind key other.kind))

/-- Reads logical filters, given the reader for one. -/
def itemsWith (read : Entries Json → Except Failure LogicalFilter) :
    List Json → Except Failure (List LogicalFilter)
  | [] => .ok []
  | .object members :: rest => do
    let filter ← read members
    .ok (filter :: (← itemsWith read rest))
  | other :: _ => .error (.source (.logicalEntryKind other.kind))

/-- Reads a logical filter from the members of an object, when so many levels are still allowed. An
empty list of children is read as a list of selectors. -/
def ofMembers : Nat → Entries Json → Except Failure LogicalFilter
  | 0, _ => .error (.filter .sourceTooDeep)
  | levels + 1, members => do
    let (op?, members) := members.swapErase "op"
    let op ← readOp op?
    let (selectors?, members) := members.swapErase "selectorFilters"
    let selectors ← readChildren "selectorFilters" selectors?
    let (filters?, members) := members.swapErase "logicalFilters"
    let filters ← readChildren "logicalFilters" filters?
    rejectOthers .logicalKey members
    if filters.isEmpty then .ok (ofSelectors op (← Selector.ofItems selectors))
    else if selectors.isEmpty then .ok (ofFilters op (← itemsWith (ofMembers levels) filters))
    else .error (.filter .mixedChildren)

end LogicalFilter

namespace Filter

def ofJson : Json → Except Failure Filter
  | .object members => do
    let hasChildren :=
      Entries.contains "selectorFilters" members || Entries.contains "logicalFilters" members
    match Entries.contains "fields" members, hasChildren with
    | true, false => .ok (.selector (← Selector.ofMembers members))
    | false, true => .ok (.logical (← LogicalFilter.ofMembers logicalDepthLimit members))
    | true, true => .error (.source .fieldsAndChildren)
    | false, false => .error (.source (.noShape (Entries.keys members)))
  | other => .error (.source (.filterKind other.kind))

def parse (text : String) : Except Failure Filter := do
  ofJson (← (Json.ofText text).mapError Failure.json)

end Filter
end DocWire
