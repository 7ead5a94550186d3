import Kide.Canonical

/-!
# Worker messages

The snapshot messages of `worker.proto`, as the generated Rust structures hold them: strings for
identities and enumerations, optional fields where the schema has them, and indexes where a snapshot
repeats its provenances and occurrences.

`index as u32` is `asU32`: a list may be longer than the indexes of the schema reach.
-/

namespace Kide

/-- One past the largest `u32`. -/
def U32_LIMIT : Nat := 4294967296

def asU32 (index : Nat) : Nat := index % U32_LIMIT

theorem asU32_of_lt {index : Nat} (h : index < U32_LIMIT) : asU32 index = index := Nat.mod_eq_of_lt h

theorem asU32_lt (index : Nat) : asU32 index < U32_LIMIT := Nat.mod_lt _ (by decide)

theorem asU32_le (index : Nat) : asU32 index ≤ index := Nat.mod_le _ _

namespace WorkerProto

structure SourceUnit where
  id : String
  component : String
  path : String
  language : String
  origin : String
  content : String
  context : String
deriving DecidableEq, Repr

structure Provenance where
  backend : String
  backendVersion : String
  protocolVersion : Nat
  analysisOptionsFingerprint : String
deriving DecidableEq, Repr

structure ByteRange where
  start : Nat
  stop : Nat
deriving DecidableEq, Repr

structure SourceLocation where
  sourceUnitIndex : Nat
  range : Option ByteRange
deriving DecidableEq, Repr

structure SymbolDeclaration where
  id : String
  sourceUnitIndex : Nat
  provenanceIndex : Nat
  backendKey : String
  backendSchemaVersion : Nat
  language : String
  kind : String
  name : String
  qualifiedName : Option String
  signature : Option String
  declaration : Option ByteRange
  nameRange : Option ByteRange
  ownerId : Option String
  modifiers : List String
  appliedSymbolIds : List String
  freshness : String
  completeness : String
  componentId : String
deriving DecidableEq, Repr

structure Occurrence where
  location : Option SourceLocation
  kind : String
  enclosingSymbolId : Option String
  targetSymbolId : Option String
  typeId : Option String
  precision : String
  freshness : String
  completeness : String
  provenanceIndex : Nat
deriving DecidableEq, Repr

structure ReferenceEdge where
  sourceOccurrenceIndex : Nat
  targetSymbolId : String
  precision : String
deriving DecidableEq, Repr

structure CallEdge where
  sourceOccurrenceIndex : Nat
  targetSymbolId : String
  callerSymbolId : Option String
  precision : String
deriving DecidableEq, Repr

structure HierarchyEdge where
  subtypeSymbolId : String
  supertypeSymbolId : String
  precision : String
  provenanceIndex : Nat
deriving DecidableEq, Repr

structure TypeRecord where
  id : String
  language : String
  display : String
  backendKey : Option String
  backendSchemaVersion : Nat
  freshness : String
  completeness : String
  provenanceIndex : Nat
deriving DecidableEq, Repr

structure Diagnostic where
  sourceUnitIndex : Nat
  range : Option ByteRange
  severity : String
  code : Option String
  message : String
  freshness : String
  completeness : String
  provenanceIndex : Nat
deriving DecidableEq, Repr

/-- The `oneof` of an application argument. -/
inductive ArgumentValue where
  | stringValue (value : String)
  | booleanValue (value : Bool)
  | integerValue (value : Int)
deriving DecidableEq, Repr

structure ApplicationArgument where
  name : Option String
  position : Nat
  value : Option ArgumentValue
  stringListValue : List String
deriving DecidableEq, Repr

structure ApplicationFact where
  id : String
  subjectSymbolId : String
  targetSymbolId : String
  range : Option ByteRange
  arguments : List ApplicationArgument
  precision : String
  freshness : String
  completeness : String
  provenanceIndex : Nat
deriving DecidableEq, Repr

structure FileAnalysisSnapshot where
  sourceUnit : Option SourceUnit
  structuralFingerprint : Option String
  publicApiFingerprint : Option String
  provenances : List Provenance
  symbols : List SymbolDeclaration
  applications : List ApplicationFact
  occurrences : List Occurrence
  references : List ReferenceEdge
  calls : List CallEdge
  hierarchy : List HierarchyEdge
  types : List TypeRecord
  diagnostics : List Diagnostic
  completeness : String
  provenanceIndex : Nat
deriving DecidableEq, Repr

end WorkerProto

end Kide
