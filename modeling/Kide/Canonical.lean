/-!
# Canonical records

The backend-independent records Core persists and exchanges with workers (`canonical.rs` and the
snapshot part of `protocol.rs`):

* opaque identities and fingerprints, one structure for each newtype of the source, so that a
  component id cannot stand where a symbol id is meant;
* the enumerations with the spellings of the source;
* source units, facts and the file snapshot that carries them.

Byte offsets, lines and protocol versions are `Nat`: Core compares them and narrows an offset once,
when a row is bound (`sqliteOffset`).
-/

namespace Kide

/-! ## Identities -/

structure WorkspaceId where
  asStr : String
deriving DecidableEq, Repr

structure ComponentId where
  asStr : String
deriving DecidableEq, Repr

/-- An opaque identity for one indexed source unit. -/
structure SourceUnitId where
  asStr : String
deriving DecidableEq, Repr

structure SymbolId where
  asStr : String
deriving DecidableEq, Repr

/-- Snapshot-scoped identity of one declarative application. -/
structure ApplicationId where
  asStr : String
deriving DecidableEq, Repr

structure TypeId where
  asStr : String
deriving DecidableEq, Repr

/-- A slash-separated path relative to the workspace root. -/
structure WorkspacePath where
  asStr : String
deriving DecidableEq, Repr

/-- A fingerprint encoded as `<algorithm>:<lowercase-hex>`. -/
structure Fingerprint where
  asStr : String
deriving DecidableEq, Repr

/-! ## Enumerations -/

inductive Language where
  | kotlin | java | rust | typeScript
  | other (name : String)
deriving DecidableEq, Repr

inductive BuildSystem where
  | gradle | maven | cargo | npm | bazel | filesystem
  | other (name : String)
deriving DecidableEq, Repr

/-- Whether a source unit is user-maintained, generated, or binary-derived. -/
inductive SourceOrigin where
  | source | generated | dependency
deriving DecidableEq, Repr

inductive Freshness where
  | fresh | stale | unknown | unsupported
deriving DecidableEq, Repr

inductive Completeness where
  | complete | partially | failed
deriving DecidableEq, Repr

inductive Precision where
  | exact | approximate
deriving DecidableEq, Repr

inductive SymbolKind where
  | package | module | class_ | interface | object | enum | function | method | constructor
  | property | field | parameter | typeAlias | other
deriving DecidableEq, Repr

inductive OccurrenceKind where
  | declaration | reference | call | typeReference | import_
deriving DecidableEq, Repr

inductive DiagnosticSeverity where
  | error | warning | information | hint
deriving DecidableEq, Repr

/-! ## Debug names

What `format!("{:?}", value)` gives: in rows as it is, in messages in lower case. -/

def SymbolKind.debug : SymbolKind → String
  | .package => "Package"
  | .module => "Module"
  | .class_ => "Class"
  | .interface => "Interface"
  | .object => "Object"
  | .enum => "Enum"
  | .function => "Function"
  | .method => "Method"
  | .constructor => "Constructor"
  | .property => "Property"
  | .field => "Field"
  | .parameter => "Parameter"
  | .typeAlias => "TypeAlias"
  | .other => "Other"

def OccurrenceKind.debug : OccurrenceKind → String
  | declaration => "Declaration"
  | reference => "Reference"
  | call => "Call"
  | typeReference => "TypeReference"
  | import_ => "Import"

def Freshness.debug : Freshness → String
  | .fresh => "Fresh"
  | .stale => "Stale"
  | .unknown => "Unknown"
  | .unsupported => "Unsupported"

def Completeness.debug : Completeness → String
  | .complete => "Complete"
  | .partially => "Partial"
  | .failed => "Failed"

def Precision.debug : Precision → String
  | .exact => "Exact"
  | .approximate => "Approximate"

def DiagnosticSeverity.debug : DiagnosticSeverity → String
  | error => "Error"
  | warning => "Warning"
  | information => "Information"
  | hint => "Hint"

/-! ## Records -/

/-- The worker implementation that supplied a fact. -/
structure Provenance where
  backend : String
  backendVersion : String
  protocolVersion : Nat
  analysisOptions : Fingerprint
deriving DecidableEq, Repr

/-- A half-open UTF-8 byte range. -/
structure ByteRange where
  start : Nat
  stop : Nat
deriving DecidableEq, Repr

structure SourceRange where
  sourceUnit : SourceUnitId
  bytes : ByteRange
deriving DecidableEq, Repr

/-- A single file or binary-derived source unit in one component context. -/
structure SourceUnit where
  id : SourceUnitId
  component : ComponentId
  path : WorkspacePath
  language : Language
  origin : SourceOrigin
  content : Fingerprint
  context : Fingerprint
deriving DecidableEq, Repr

structure BackendKey where
  backend : String
  schemaVersion : Nat
  value : String
deriving DecidableEq, Repr

/-- The canonical declaration record. -/
structure SymbolRecord where
  id : SymbolId
  backendKey : BackendKey
  language : Language
  kind : SymbolKind
  name : String
  qualifiedName : Option String
  signature : Option String
  component : ComponentId
  declaration : SourceRange
  nameRange : SourceRange
  owner : Option SymbolId
  modifiers : List String
  appliedSymbols : List SymbolId
  freshness : Freshness
  completeness : Completeness
  provenance : Provenance
deriving DecidableEq, Repr

structure SourceOccurrence where
  range : SourceRange
  kind : OccurrenceKind
  enclosingSymbol : Option SymbolId
  target : Option SymbolId
  typeId : Option TypeId
  precision : Precision
  freshness : Freshness
  completeness : Completeness
  provenance : Provenance
deriving DecidableEq, Repr

structure ReferenceEdge where
  source : SourceOccurrence
  target : SymbolId
  precision : Precision
deriving DecidableEq, Repr

structure CallEdge where
  source : SourceOccurrence
  target : SymbolId
  caller : Option SymbolId
  precision : Precision
deriving DecidableEq, Repr

inductive ApplicationValue where
  | string (value : String)
  | stringList (value : List String)
  | boolean (value : Bool)
  | integer (value : Int)
deriving DecidableEq, Repr

structure ApplicationArgument where
  name : Option String
  position : Nat
  value : ApplicationValue
deriving DecidableEq, Repr

/-- A resolved annotation use; several uses of one target can carry different arguments. -/
structure ApplicationFact where
  id : ApplicationId
  subject : SymbolId
  target : SymbolId
  range : SourceRange
  arguments : List ApplicationArgument
  precision : Precision
  freshness : Freshness
  completeness : Completeness
  provenance : Provenance
deriving DecidableEq, Repr

structure HierarchyEdge where
  subtype : SymbolId
  supertype : SymbolId
  precision : Precision
  provenance : Provenance
deriving DecidableEq, Repr

structure TypeRecord where
  id : TypeId
  language : Language
  display : String
  backendKey : Option BackendKey
  freshness : Freshness
  completeness : Completeness
  provenance : Provenance
deriving DecidableEq, Repr

structure DiagnosticRecord where
  sourceUnit : SourceUnitId
  range : Option ByteRange
  severity : DiagnosticSeverity
  code : Option String
  message : String
  freshness : Freshness
  completeness : Completeness
  provenance : Provenance
deriving DecidableEq, Repr

/-! ## Project model -/

structure SourceSet where
  name : String
  sourceRoots : List WorkspacePath
  generatedRoots : List WorkspacePath
  test : Bool
deriving DecidableEq, Repr

structure Toolchain where
  jvmVersion : String
  buildToolVersion : String
  kotlinVersion : Option String
deriving DecidableEq, Repr

structure Component where
  id : ComponentId
  name : String
  buildSystem : BuildSystem
  root : WorkspacePath
  languages : List Language
  configuration : Fingerprint
  sourceSets : List SourceSet := []
  classpath : List Fingerprint := []
  toolchain : Option Toolchain := none
  compilerConfiguration : Option Fingerprint := none
deriving DecidableEq, Repr

inductive DependencyTarget where
  | component (component : ComponentId)
  | artifact (content : Fingerprint)
deriving DecidableEq, Repr

structure DependencyEdge where
  source : ComponentId
  target : DependencyTarget
  scope : String
deriving DecidableEq, Repr

/-- A canonical project model produced by a build-system worker. -/
structure ProjectManifest where
  workspace : WorkspaceId
  root : WorkspacePath
  components : List Component
  dependencies : List DependencyEdge
  fingerprint : Fingerprint
  provenance : Provenance
deriving DecidableEq, Repr

/-! ## Snapshots -/

/-- The worker protocol version Core supports. -/
def WORKER_PROTOCOL_VERSION : Nat := 3

/-- A complete replacement fact set for exactly one source-unit content snapshot. -/
structure FileAnalysisSnapshot where
  sourceUnit : SourceUnit
  structuralFingerprint : Option Fingerprint
  publicApiFingerprint : Option Fingerprint
  symbols : List SymbolRecord
  applications : List ApplicationFact
  occurrences : List SourceOccurrence
  references : List ReferenceEdge
  calls : List CallEdge
  hierarchy : List HierarchyEdge
  types : List TypeRecord
  diagnostics : List DiagnosticRecord
  completeness : Completeness
  provenance : Provenance
deriving DecidableEq, Repr

end Kide
