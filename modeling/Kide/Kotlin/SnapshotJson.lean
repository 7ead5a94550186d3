import Kide.Canonical

/-!
# Snapshots as JSON

The JVM worker builds a snapshot as JSON in the names of the canonical records before it writes a message
(`ProtobufAnalysisSnapshotAdapter.kt`). What the JSON stands for is what its names say (`SnapshotJson.denote`).
-/

namespace Kide

/-- A member of a JSON object: left out, `null`, or there. -/
inductive Member (α : Type) where
  | absent
  | null
  | present (value : α)
deriving DecidableEq

/-- `value[name]?.jsonPrimitive?.contentOrNull` -/
def Member.contentOrNull {α : Type} : Member α → Option α
  | .present value => some value
  | _ => none

/-! ## The names of the canonical records

Variants in snake case, as the records are serialized. -/

def Language.named : String → Option Language
  | "kotlin" => some .kotlin
  | "java" => some .java
  | "rust" => some .rust
  | "type_script" => some .typeScript
  | _ => none

def SourceOrigin.named : String → Option SourceOrigin
  | "source" => some .source
  | "generated" => some .generated
  | "dependency" => some .dependency
  | _ => none

def Freshness.named : String → Option Freshness
  | "fresh" => some .fresh
  | "stale" => some .stale
  | "unknown" => some .unknown
  | "unsupported" => some .unsupported
  | _ => none

def Completeness.named : String → Option Completeness
  | "complete" => some .complete
  | "partial" => some .partially
  | "failed" => some .failed
  | _ => none

def Precision.named : String → Option Precision
  | "exact" => some .exact
  | "approximate" => some .approximate
  | _ => none

def SymbolKind.named : String → Option SymbolKind
  | "package" => some .package
  | "module" => some .module
  | "class" => some .class_
  | "interface" => some .interface
  | "object" => some .object
  | "enum" => some .enum
  | "function" => some .function
  | "method" => some .method
  | "constructor" => some .constructor
  | "property" => some .property
  | "field" => some .field
  | "parameter" => some .parameter
  | "type_alias" => some .typeAlias
  | "other" => some .other
  | _ => none

def OccurrenceKind.named : String → Option OccurrenceKind
  | "declaration" => some .declaration
  | "reference" => some .reference
  | "call" => some .call
  | "type_reference" => some .typeReference
  | "import" => some .import_
  | _ => none

def DiagnosticSeverity.named : String → Option DiagnosticSeverity
  | "error" => some .error
  | "warning" => some .warning
  | "information" => some .information
  | "hint" => some .hint
  | _ => none

namespace AnalysisSnapshotAdapter

/-! ## Snapshots as JSON

The members the writer reads with `?` are optional here. -/

structure SourceUnitJson where
  id : String
  component : String
  path : String
  language : String
  origin : String
  content : String
  context : String
deriving DecidableEq

structure SymbolJson where
  id : String
  backendKey : BackendKey
  language : String
  kind : String
  name : String
  qualifiedName : Member String
  signature : Member String
  component : String
  declaration : SourceRange
  nameRange : SourceRange
  owner : Member String
  modifiers : List String
  appliedSymbols : Option (List String)
  freshness : String
  completeness : String
  provenance : Member Provenance
deriving DecidableEq

structure OccurrenceJson where
  range : SourceRange
  kind : String
  enclosingSymbol : Member String
  target : Member String
  typeId : Member String
  precision : String
  freshness : String
  completeness : String
  provenance : Member Provenance
deriving DecidableEq

structure ReferenceJson where
  source : OccurrenceJson
  target : String
  precision : String
deriving DecidableEq

structure CallJson where
  source : OccurrenceJson
  target : String
  caller : Member String
  precision : String
deriving DecidableEq

structure HierarchyJson where
  subtype : String
  supertype : String
  precision : String
  provenance : Member Provenance
deriving DecidableEq

/-- The value is an object of its kind and its literal. -/
structure ArgumentJson where
  name : Member String
  position : Nat
  value : ApplicationValue
deriving DecidableEq

structure ApplicationJson where
  id : String
  subject : String
  target : String
  range : SourceRange
  arguments : List ArgumentJson
  precision : String
  freshness : String
  completeness : String
  provenance : Member Provenance
deriving DecidableEq

structure TypeJson where
  id : String
  language : String
  display : String
  backendKey : Member BackendKey
  freshness : String
  completeness : String
  provenance : Member Provenance
deriving DecidableEq

structure DiagnosticJson where
  sourceUnit : String
  range : Member ByteRange
  severity : String
  code : Member String
  message : String
  freshness : String
  completeness : String
  provenance : Member Provenance
deriving DecidableEq

structure SnapshotJson where
  sourceUnit : SourceUnitJson
  structuralFingerprint : Member String
  publicApiFingerprint : Member String
  symbols : List SymbolJson
  occurrences : List OccurrenceJson
  references : List ReferenceJson
  calls : List CallJson
  hierarchy : List HierarchyJson
  types : List TypeJson
  diagnostics : List DiagnosticJson
  applications : Option (List ApplicationJson)
  completeness : String
  provenance : Provenance
deriving DecidableEq

/-! ## What a JSON snapshot says -/

/-- A fact without a provenance has that of its snapshot. -/
def factProvenance (snapshot : Provenance) (record : Member Provenance) : Provenance := record.contentOrNull.getD snapshot

def SourceUnitJson.denote (json : SourceUnitJson) : Option SourceUnit := do
  let language ← Language.named json.language
  let origin ← SourceOrigin.named json.origin
  pure ⟨⟨json.id⟩, ⟨json.component⟩, ⟨json.path⟩, language, origin, ⟨json.content⟩, ⟨json.context⟩⟩

section Denote

variable (snapshot : Provenance)

def SymbolJson.denote (json : SymbolJson) : Option SymbolRecord := do
  let language ← Language.named json.language
  let kind ← SymbolKind.named json.kind
  let freshness ← Freshness.named json.freshness
  let completeness ← Completeness.named json.completeness
  pure
    { id := ⟨json.id⟩
      backendKey := json.backendKey
      language
      kind
      name := json.name
      qualifiedName := json.qualifiedName.contentOrNull
      signature := json.signature.contentOrNull
      component := ⟨json.component⟩
      declaration := json.declaration
      nameRange := json.nameRange
      owner := json.owner.contentOrNull.map (⟨·⟩)
      modifiers := json.modifiers
      appliedSymbols := (json.appliedSymbols.getD []).map (⟨·⟩)
      freshness
      completeness
      provenance := factProvenance snapshot json.provenance }

def OccurrenceJson.denote (json : OccurrenceJson) : Option SourceOccurrence := do
  let kind ← OccurrenceKind.named json.kind
  let precision ← Precision.named json.precision
  let freshness ← Freshness.named json.freshness
  let completeness ← Completeness.named json.completeness
  pure
    { range := json.range
      kind
      enclosingSymbol := json.enclosingSymbol.contentOrNull.map (⟨·⟩)
      target := json.target.contentOrNull.map (⟨·⟩)
      typeId := json.typeId.contentOrNull.map (⟨·⟩)
      precision
      freshness
      completeness
      provenance := factProvenance snapshot json.provenance }

def ReferenceJson.denote (json : ReferenceJson) : Option ReferenceEdge := do
  let source ← json.source.denote snapshot
  let precision ← Precision.named json.precision
  pure ⟨source, ⟨json.target⟩, precision⟩

def CallJson.denote (json : CallJson) : Option CallEdge := do
  let source ← json.source.denote snapshot
  let precision ← Precision.named json.precision
  pure ⟨source, ⟨json.target⟩, json.caller.contentOrNull.map (⟨·⟩), precision⟩

def HierarchyJson.denote (json : HierarchyJson) : Option HierarchyEdge := do
  let precision ← Precision.named json.precision
  pure ⟨⟨json.subtype⟩, ⟨json.supertype⟩, precision, factProvenance snapshot json.provenance⟩

def ArgumentJson.denote (json : ArgumentJson) : ApplicationArgument := ⟨json.name.contentOrNull, json.position, json.value⟩

def ApplicationJson.denote (json : ApplicationJson) : Option ApplicationFact := do
  let precision ← Precision.named json.precision
  let freshness ← Freshness.named json.freshness
  let completeness ← Completeness.named json.completeness
  pure
    { id := ⟨json.id⟩
      subject := ⟨json.subject⟩
      target := ⟨json.target⟩
      range := json.range
      arguments := json.arguments.map ArgumentJson.denote
      precision
      freshness
      completeness
      provenance := factProvenance snapshot json.provenance }

def TypeJson.denote (json : TypeJson) : Option TypeRecord := do
  let language ← Language.named json.language
  let freshness ← Freshness.named json.freshness
  let completeness ← Completeness.named json.completeness
  pure
    { id := ⟨json.id⟩
      language
      display := json.display
      backendKey := json.backendKey.contentOrNull
      freshness
      completeness
      provenance := factProvenance snapshot json.provenance }

def DiagnosticJson.denote (json : DiagnosticJson) : Option DiagnosticRecord := do
  let severity ← DiagnosticSeverity.named json.severity
  let freshness ← Freshness.named json.freshness
  let completeness ← Completeness.named json.completeness
  pure
    { sourceUnit := ⟨json.sourceUnit⟩
      range := json.range.contentOrNull
      severity
      code := json.code.contentOrNull
      message := json.message
      freshness
      completeness
      provenance := factProvenance snapshot json.provenance }

end Denote

/-- The canonical record a JSON snapshot stands for. -/
def SnapshotJson.denote (json : SnapshotJson) : Option FileAnalysisSnapshot := do
  let sourceUnit ← json.sourceUnit.denote
  let symbols ← json.symbols.mapM (SymbolJson.denote json.provenance)
  let applications ← (json.applications.getD []).mapM (ApplicationJson.denote json.provenance)
  let occurrences ← json.occurrences.mapM (OccurrenceJson.denote json.provenance)
  let references ← json.references.mapM (ReferenceJson.denote json.provenance)
  let calls ← json.calls.mapM (CallJson.denote json.provenance)
  let hierarchy ← json.hierarchy.mapM (HierarchyJson.denote json.provenance)
  let types ← json.types.mapM (TypeJson.denote json.provenance)
  let diagnostics ← json.diagnostics.mapM (DiagnosticJson.denote json.provenance)
  let completeness ← Completeness.named json.completeness
  pure
    { sourceUnit
      structuralFingerprint := json.structuralFingerprint.contentOrNull.map (⟨·⟩)
      publicApiFingerprint := json.publicApiFingerprint.contentOrNull.map (⟨·⟩)
      symbols
      applications
      occurrences
      references
      calls
      hierarchy
      types
      diagnostics
      completeness
      provenance := json.provenance }

end AnalysisSnapshotAdapter

end Kide
