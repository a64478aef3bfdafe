import DocWire.Json.Basic
import DocWire.Number.Shortest
import DocWire.Operator

/-!
# Failures

Every way in which a request can fail, by cause. A cause belongs to one of nine kinds, which callers
tell apart; `Failure.message` is the kind's label followed by the cause's wording.
-/
set_option autoImplicit false

namespace DocWire

/-- The kinds of errors. -/
inductive FailureKind where
  | filterEncoding
  | unsupportedFilter
  | valueEncoding
  | json
  | io
  | config
  | transport
  | noSuchDocument
  | session
deriving DecidableEq, Repr, Inhabited

namespace FailureKind

def label : FailureKind → String
  | filterEncoding => "Filter encoding error: "
  | unsupportedFilter => "Unsupported filter: "
  | valueEncoding => "Value encoding error: "
  | json => "Serde JSON: "
  | io => "I/O error: "
  | config => "Config error: "
  | transport => "Transport error: "
  | noSuchDocument => "Document not found: "
  | session => "Session error: "

def message (kind : FailureKind) (detail : String) : String := kind.label ++ detail

/-- Whether sending the same input again must fail in the same way. -/
def arisesInEncoding : FailureKind → Bool
  | filterEncoding => true
  | unsupportedFilter => true
  | valueEncoding => true
  | _ => false

end FailureKind

def commaList (names : List String) : String := String.intercalate ", " names

/-- Why a filter, an update or a projection has no wire form, or may not be sent. -/
inductive FilterFault where
  | emptySelector
  | emptyFieldName
  | emptyObject (path : String)
  | repeatedPath (path : String)
  | pathTooDeep (path : String)
  | valueTooDeep (path : String)
  | noChildren (op : Connective)
  | logicalTooDeep
  | sourceTooDeep
  | mixedChildren
  | emptyUpdate
  | emptyUnsetName
  | mixedProjection
  | emptyProjection
  | emptyProjectionName
  | unknownField (path collection : String)
  | keyMismatch (paths declared : List String) (collection : String)
deriving DecidableEq, Repr

namespace FilterFault

def detail : FilterFault → String
  | emptySelector => "selector has no fields"
  | emptyFieldName => "empty field name"
  | emptyObject path => s!"field `{path}` is an empty object"
  | repeatedPath path => s!"field `{path}` appears more than once"
  | pathTooDeep path => s!"field `{path}` nests deeper than {pathDepthLimit} levels"
  | valueTooDeep path => s!"value of `{path}` nests deeper than {pathDepthLimit} levels"
  | noChildren op => s!"{op.keyword} filter has no children"
  | logicalTooDeep => s!"logical filters nest deeper than {logicalDepthLimit} levels"
  | sourceTooDeep => "logical filters nest too deep"
  | mixedChildren => "logical filter mixes selectorFilters and logicalFilters"
  | emptyUpdate => "update has no fields"
  | emptyUnsetName => "$unset names an empty field"
  | mixedProjection => "read fields mix include and exclude lists"
  | emptyProjection => "read fields list is empty"
  | emptyProjectionName => "read fields name an empty field"
  | unknownField path collection => s!"unknown field `{path}` for collection `{collection}`"
  | keyMismatch paths declared collection =>
    s!"key [{commaList paths}] does not match primary key [{commaList declared}] of `{collection}`"

end FilterFault

/-- Why a JSON value is no projection. -/
inductive ProjectionFault where
  | unknownMember (name : String)
  | wrongType (found expected : String)
  | tooManyItems (count : Nat)
deriving DecidableEq, Repr

def ProjectionFault.detail : ProjectionFault → String
  | unknownMember name => s!"unknown field `{name}`, expected `include` or `exclude`"
  | wrongType found expected => s!"invalid type: {found}, expected {expected}"
  | tooManyItems count => s!"invalid length {count}, expected fewer elements in array"

/-- Why a JSON value is no filter, update or projection. A kind names what was found instead. -/
inductive SourceFault where
  | filterKind (kind : String)
  | fieldsAndChildren
  | noShape (keys : List String)
  | selectorOpKind (kind : String)
  | selectorOpUnknown (op : String)
  | selectorFieldsKind (kind : String)
  | selectorKey (key : String)
  | selectorEntryKind (kind : String)
  | logicalOpMissing
  | logicalOpKind (kind : String)
  | logicalOpUnknown (op : String)
  | logicalKey (key : String)
  | logicalEntryKind (kind : String)
  | childrenKind (key kind : String)
  | updateKind
  | unsetKind
  | unsetEntryKind (kind : String)
  | operatorFieldsKind (operator : String)
  | operatorUnknown (operator : String)
  | projection (fault : ProjectionFault)
deriving DecidableEq, Repr

namespace SourceFault

def detail : SourceFault → String
  | filterKind kind => s!"expected an object, got {kind}"
  | fieldsAndChildren => "object carries both `fields` and child filters"
  | noShape keys =>
    s!"no `fields`, `selectorFilters` or `logicalFilters` among keys [{commaList keys}]"
  | selectorOpKind kind => s!"selector op must be a string, got {kind}"
  | selectorOpUnknown op => s!"unknown selector op `{op}`"
  | selectorFieldsKind kind => s!"selector fields must be an object, got {kind}"
  | selectorKey key => s!"unknown selector key `{key}`"
  | selectorEntryKind kind => s!"selectorFilters entries must be objects, got {kind}"
  | logicalOpMissing => "logical filter has no `op`"
  | logicalOpKind kind => s!"logical op must be a string, got {kind}"
  | logicalOpUnknown op => s!"unknown logical op `{op}`"
  | logicalKey key => s!"unknown logical filter key `{key}`"
  | logicalEntryKind kind => s!"logicalFilters entries must be objects, got {kind}"
  | childrenKind key kind => s!"`{key}` must be an array, got {kind}"
  | updateKind => "update must be an object"
  | unsetKind => "$unset takes an array of field names"
  | unsetEntryKind kind => s!"$unset entries must be strings, got {kind}"
  | operatorFieldsKind operator => s!"`{operator}` takes an object of fields"
  | operatorUnknown operator => s!"unknown update operator `{operator}`"
  | projection fault => s!"read fields: {fault.detail}"

end SourceFault

/-- Why a value has no wire form, or generated keys cannot be merged. -/
inductive ValueFault where
  | invalidInteger (text : String)
  | numberOutOfRange (text : String)
  | instantOutOfRange (millis : Int)
  | unsupportedKind (kind : String)
  | fieldNotFinite (path : String) (x : Binary64)
  | notFinite (x : Binary64)
  | arrayInSelector (path : String)
  | notNumber (path : String) (op : UpdateOperator) (kind : String)
  | keysNotObject
  | documentNotObject
  | cannotPlace (path segment : String)
deriving DecidableEq, Repr

namespace ValueFault

def detail : ValueFault → String
  | invalidInteger text => s!"invalid integer literal `{text}`"
  | numberOutOfRange text => s!"number `{text}` is out of range"
  | instantOutOfRange millis => s!"datetime {millis}ms is out of range"
  | unsupportedKind kind => s!"BSON {kind} values have no wire representation"
  | fieldNotFinite path x => s!"field `{path}`: {x.text} has no JSON form"
  | notFinite x => s!"{x.text} has no JSON form"
  | arrayInSelector path => s!"field `{path}`: array values are not supported in selectors"
  | notNumber path op kind => s!"field `{path}`: {op.keyword} requires a number, got {kind}"
  | keysNotObject => "generated keys must be a JSON object"
  | documentNotObject => "document must serialize to a JSON object"
  | cannotPlace path segment =>
    s!"cannot place generated key `{path}`: `{segment}` is not an object"

end ValueFault

/-- Why settings cannot be used. -/
inductive ConfigFault where
  | fileMissing (path : String)
  | fileSyntax (path : String)
  | syntaxError
  | timeoutNotInteger (text : String)
  | serverUrlEmpty
  | databaseEmpty
  | timeoutZero
  | logging
deriving DecidableEq, Repr

namespace ConfigFault

def detail : ConfigFault → String
  | fileMissing path => s!"config file {path} not found"
  | fileSyntax path => s!"{path}: not a settings document"
  | syntaxError => "not a settings document"
  | timeoutNotInteger text => s!"NEXUSRPC_TIMEOUT_MS `{text}` is not an integer"
  | serverUrlEmpty => "server_url is empty"
  | databaseEmpty => "database is empty"
  | timeoutZero => "timeout_ms must be positive"
  | logging => "logging: the log directory cannot be used"

end ConfigFault

/-- Why a call failed: the transport said so, or its answer does not fit the request. -/
inductive TransportFault where
  | failed (message : String)
  | keyCount (keys documents : Nat)
  | noKeys
deriving DecidableEq, Repr

namespace TransportFault

def detail : TransportFault → String
  | failed message => message
  | keyCount keys documents => s!"insert returned {keys} keys for {documents} documents"
  | noKeys => "insert returned no keys"

end TransportFault

/-- An error, by cause. -/
inductive Failure where
  | filter (fault : FilterFault)
  | source (fault : SourceFault)
  | value (fault : ValueFault)
  | json (fault : Json.Fault)
  | io
  | config (fault : ConfigFault)
  | transport (fault : TransportFault)
  | noSuchDocument (database collection : String) (paths : List String)
  | foreignSession (txId owner database : String)
deriving DecidableEq, Repr

namespace Failure

def kind : Failure → FailureKind
  | filter _ => .filterEncoding
  | source _ => .unsupportedFilter
  | value _ => .valueEncoding
  | json _ => .json
  | io => .io
  | config _ => .config
  | transport _ => .transport
  | noSuchDocument _ _ _ => .noSuchDocument
  | foreignSession _ _ _ => .session

def detail : Failure → String
  | filter fault => fault.detail
  | source fault => fault.detail
  | value fault => fault.detail
  | json fault => fault.message
  | io => "the file cannot be read"
  | config fault => fault.detail
  | transport fault => fault.detail
  | noSuchDocument database collection paths =>
    s!"{database}.{collection} " ++ String.intercalate "," paths
  | foreignSession txId owner database =>
    s!"transaction {txId} belongs to database `{owner}`, not `{database}`"

def message (e : Failure) : String := e.kind.message e.detail

/-- Whether the error comes from encoding, so that the same input must fail again. -/
def arisesInEncoding (e : Failure) : Bool := e.kind.arisesInEncoding

end Failure
end DocWire
