import Kide.Proto.Artifact
import Kide.Proto.WorkerAdapter
import Kide.Lib.Codec
import Kide.Lib.Collect

/-!
# The graph artifact adapter

Conversion between canonical snapshots and graph artifacts (`artifact_proto_adapter.rs`), through the
worker messages. A provenance index equal to the snapshot's is left out, and an identity declared in the
artifact is replaced by its ordinal; the reader resolves both.

Protobuf encoding and SHA-256 are third-party code: `EnvelopeCodec` is what the adapter uses of them.
-/

namespace Kide

inductive ArtifactProtoError where
  | unsupportedVersion (version : Nat)
  | lengthMismatch
  | checksumMismatch
  | decode
  | canonical (error : AdapterError)
deriving DecidableEq, Repr

namespace ArtifactAdapter

open ArtifactProto

def ARTIFACT_FORMAT_VERSION : Nat := 1

/-! ## Records without identities of declarations -/

def sourceUnit (value : WorkerProto.SourceUnit) : ArtifactSourceUnit where
  id := value.id
  component := value.component
  path := value.path
  language := value.language
  origin := value.origin
  contentFingerprint := value.content
  contextFingerprint := value.context

def decodeSourceUnit (value : ArtifactSourceUnit) : WorkerProto.SourceUnit where
  id := value.id
  component := value.component
  path := value.path
  language := value.language
  origin := value.origin
  content := value.contentFingerprint
  context := value.contextFingerprint

def provenance (value : WorkerProto.Provenance) : ArtifactProvenance where
  backend := value.backend
  backendVersion := value.backendVersion
  workerProtocolVersion := value.protocolVersion
  analysisOptionsFingerprint := value.analysisOptionsFingerprint

def decodeProvenance (value : ArtifactProvenance) : WorkerProto.Provenance where
  backend := value.backend
  backendVersion := value.backendVersion
  protocolVersion := value.workerProtocolVersion
  analysisOptionsFingerprint := value.analysisOptionsFingerprint

def range (value : WorkerProto.ByteRange) : ArtifactRange := ⟨value.start, value.stop⟩

def decodeRange (value : ArtifactRange) : WorkerProto.ByteRange := ⟨value.start, value.stop⟩

def location (value : WorkerProto.SourceLocation) : ArtifactLocation where
  sourceUnitIndex := value.sourceUnitIndex
  range := value.range.map range

def decodeLocation (value : ArtifactLocation) : WorkerProto.SourceLocation where
  sourceUnitIndex := value.sourceUnitIndex
  range := value.range.map decodeRange

def inheritedProvenanceIndex (value snapshot : Nat) : Option Nat :=
  if value ≠ snapshot then some value else none

/-! ## Ordinals of declarations -/

/-- The ordinals by identity, in the order they are collected into the hash map: a later one replaces an
earlier one of the same identity. -/
abbrev Ordinals := List (String × Nat)

def localOrdinal (value : String) (ordinals : Ordinals) : Option Nat :=
  (Collects.lastOf Prod.fst ordinals value).map Prod.snd

/-- The inline identity that stays when it has no ordinal. -/
def inlineOptional (value : Option String) (ordinals : Ordinals) : Option String :=
  value.filter fun id => (localOrdinal id ordinals).isNone

def optionalOrdinal (value : Option String) (ordinals : Ordinals) : Option Nat :=
  value.bind fun id => localOrdinal id ordinals

def inlineId (value : String) (ordinals : Ordinals) : String :=
  if (localOrdinal value ordinals).isNone then value else ""

def localId (inline : String) (ordinal : Option Nat) (ids : List String) : Except ArtifactProtoError String :=
  match ordinal with
  | some ordinal =>
    match ids[ordinal]? with
    | some id => .ok id
    | none => .error .lengthMismatch
  | none => .ok inline

/-- `local_id(..).unwrap_or_default()` -/
def localIdOrDefault (inline : String) (ordinal : Option Nat) (ids : List String) : String :=
  match localId inline ordinal ids with
  | .ok id => id
  | .error _ => ""

def localOptional (inline : Option String) (ordinal : Option Nat) (ids : List String) : Option String :=
  (ordinal.bind fun ordinal => ids[ordinal]?).or inline

/-! ## Facts -/

def symbol (value : WorkerProto.SymbolDeclaration) (snapshotProvenanceIndex : Nat) (ordinals : Ordinals) : ArtifactSymbol where
  id := value.id
  backendKey := value.backendKey
  backendSchemaVersion := value.backendSchemaVersion
  language := value.language
  kind := value.kind
  name := value.name
  qualifiedName := value.qualifiedName
  signature := value.signature
  declaration := value.declaration.map range
  nameRange := value.nameRange.map range
  ownerId := inlineOptional value.ownerId ordinals
  modifiers := value.modifiers
  appliedSymbolIds := value.appliedSymbolIds
  freshness := value.freshness
  completeness := value.completeness
  componentId := value.componentId
  provenanceIndex := inheritedProvenanceIndex value.provenanceIndex snapshotProvenanceIndex
  ownerSymbolOrdinal := optionalOrdinal value.ownerId ordinals

def decodeSymbol (value : ArtifactSymbol) (snapshotProvenanceIndex : Nat) (ids : List String) : WorkerProto.SymbolDeclaration where
  id := value.id
  sourceUnitIndex := 0
  provenanceIndex := value.provenanceIndex.getD snapshotProvenanceIndex
  backendKey := value.backendKey
  backendSchemaVersion := value.backendSchemaVersion
  language := value.language
  kind := value.kind
  name := value.name
  qualifiedName := value.qualifiedName
  signature := value.signature
  declaration := value.declaration.map decodeRange
  nameRange := value.nameRange.map decodeRange
  ownerId := localOptional value.ownerId value.ownerSymbolOrdinal ids
  modifiers := value.modifiers
  appliedSymbolIds := value.appliedSymbolIds
  freshness := value.freshness
  completeness := value.completeness
  componentId := value.componentId

def occurrence (value : WorkerProto.Occurrence) (snapshotProvenanceIndex : Nat) (ordinals : Ordinals) : ArtifactOccurrence where
  location := value.location.map location
  kind := value.kind
  enclosingSymbolId := inlineOptional value.enclosingSymbolId ordinals
  targetSymbolId := inlineOptional value.targetSymbolId ordinals
  typeId := value.typeId
  precision := value.precision
  freshness := value.freshness
  completeness := value.completeness
  provenanceIndex := inheritedProvenanceIndex value.provenanceIndex snapshotProvenanceIndex
  enclosingSymbolOrdinal := optionalOrdinal value.enclosingSymbolId ordinals
  targetSymbolOrdinal := optionalOrdinal value.targetSymbolId ordinals

def decodeOccurrence (value : ArtifactOccurrence) (snapshotProvenanceIndex : Nat) (ids : List String) : WorkerProto.Occurrence where
  location := value.location.map decodeLocation
  kind := value.kind
  enclosingSymbolId := localOptional value.enclosingSymbolId value.enclosingSymbolOrdinal ids
  targetSymbolId := localOptional value.targetSymbolId value.targetSymbolOrdinal ids
  typeId := value.typeId
  precision := value.precision
  freshness := value.freshness
  completeness := value.completeness
  provenanceIndex := value.provenanceIndex.getD snapshotProvenanceIndex

def reference (value : WorkerProto.ReferenceEdge) (ordinals : Ordinals) : ArtifactReference where
  sourceOccurrenceIndex := value.sourceOccurrenceIndex
  targetSymbolId := inlineId value.targetSymbolId ordinals
  precision := value.precision
  targetSymbolOrdinal := localOrdinal value.targetSymbolId ordinals

def decodeReference (value : ArtifactReference) (ids : List String) : WorkerProto.ReferenceEdge where
  sourceOccurrenceIndex := value.sourceOccurrenceIndex
  targetSymbolId := localIdOrDefault value.targetSymbolId value.targetSymbolOrdinal ids
  precision := value.precision

def call (value : WorkerProto.CallEdge) (ordinals : Ordinals) : ArtifactCall where
  sourceOccurrenceIndex := value.sourceOccurrenceIndex
  targetSymbolId := inlineId value.targetSymbolId ordinals
  callerSymbolId := inlineOptional value.callerSymbolId ordinals
  precision := value.precision
  targetSymbolOrdinal := localOrdinal value.targetSymbolId ordinals
  callerSymbolOrdinal := optionalOrdinal value.callerSymbolId ordinals

def decodeCall (value : ArtifactCall) (ids : List String) : WorkerProto.CallEdge where
  sourceOccurrenceIndex := value.sourceOccurrenceIndex
  targetSymbolId := localIdOrDefault value.targetSymbolId value.targetSymbolOrdinal ids
  callerSymbolId := localOptional value.callerSymbolId value.callerSymbolOrdinal ids
  precision := value.precision

def hierarchy (value : WorkerProto.HierarchyEdge) (snapshotProvenanceIndex : Nat) (ordinals : Ordinals) : ArtifactHierarchy where
  subtypeSymbolId := inlineId value.subtypeSymbolId ordinals
  supertypeSymbolId := inlineId value.supertypeSymbolId ordinals
  precision := value.precision
  provenanceIndex := inheritedProvenanceIndex value.provenanceIndex snapshotProvenanceIndex
  subtypeSymbolOrdinal := localOrdinal value.subtypeSymbolId ordinals
  supertypeSymbolOrdinal := localOrdinal value.supertypeSymbolId ordinals

def decodeHierarchy (value : ArtifactHierarchy) (snapshotProvenanceIndex : Nat) (ids : List String) : WorkerProto.HierarchyEdge where
  subtypeSymbolId := localIdOrDefault value.subtypeSymbolId value.subtypeSymbolOrdinal ids
  supertypeSymbolId := localIdOrDefault value.supertypeSymbolId value.supertypeSymbolOrdinal ids
  precision := value.precision
  provenanceIndex := value.provenanceIndex.getD snapshotProvenanceIndex

def type (value : WorkerProto.TypeRecord) (snapshotProvenanceIndex : Nat) : ArtifactType where
  id := value.id
  language := value.language
  display := value.display
  backendKey := value.backendKey
  backendSchemaVersion := value.backendSchemaVersion
  freshness := value.freshness
  completeness := value.completeness
  provenanceIndex := inheritedProvenanceIndex value.provenanceIndex snapshotProvenanceIndex

def decodeType (value : ArtifactType) (snapshotProvenanceIndex : Nat) : WorkerProto.TypeRecord where
  id := value.id
  language := value.language
  display := value.display
  backendKey := value.backendKey
  backendSchemaVersion := value.backendSchemaVersion
  freshness := value.freshness
  completeness := value.completeness
  provenanceIndex := value.provenanceIndex.getD snapshotProvenanceIndex

def diagnostic (value : WorkerProto.Diagnostic) (snapshotProvenanceIndex : Nat) : ArtifactDiagnostic where
  sourceUnitIndex := value.sourceUnitIndex
  range := value.range.map range
  severity := value.severity
  code := value.code
  message := value.message
  freshness := value.freshness
  completeness := value.completeness
  provenanceIndex := inheritedProvenanceIndex value.provenanceIndex snapshotProvenanceIndex

def decodeDiagnostic (value : ArtifactDiagnostic) (snapshotProvenanceIndex : Nat) : WorkerProto.Diagnostic where
  sourceUnitIndex := value.sourceUnitIndex
  range := value.range.map decodeRange
  severity := value.severity
  code := value.code
  message := value.message
  freshness := value.freshness
  completeness := value.completeness
  provenanceIndex := value.provenanceIndex.getD snapshotProvenanceIndex

/-! ## Snapshots -/

/-- The part of `snapshot` that follows the worker adapter. -/
def graphSnapshot (proto : WorkerProto.FileAnalysisSnapshot) (ordinals : Ordinals) : GraphSnapshot where
  sourceUnit := proto.sourceUnit.map sourceUnit
  structuralFingerprint := proto.structuralFingerprint
  publicApiFingerprint := proto.publicApiFingerprint
  provenances := proto.provenances.map provenance
  symbols := proto.symbols.map fun value => symbol value proto.provenanceIndex ordinals
  occurrences := proto.occurrences.map fun value => occurrence value proto.provenanceIndex ordinals
  references := proto.references.map fun value => reference value ordinals
  calls := proto.calls.map fun value => call value ordinals
  hierarchy := proto.hierarchy.map fun value => hierarchy value proto.provenanceIndex ordinals
  types := proto.types.map fun value => type value proto.provenanceIndex
  diagnostics := proto.diagnostics.map fun value => diagnostic value proto.provenanceIndex
  completeness := proto.completeness
  provenanceIndex := some proto.provenanceIndex

/-- `?` on an error of the worker adapter. -/
def canonical {α : Type} : Except AdapterError α → Except ArtifactProtoError α
  | .ok value => .ok value
  | .error error => .error (.canonical error)

def snapshot (value : FileAnalysisSnapshot) (ordinals : Ordinals) : Except ArtifactProtoError GraphSnapshot := do
  let proto ← canonical (WorkerAdapter.fileAnalysisSnapshot value)
  pure (graphSnapshot proto ordinals)

/-- The worker message a graph snapshot stands for. The artifact schema has no applications. -/
def workerSnapshot (value : GraphSnapshot) (snapshotProvenanceIndex : Nat) (ids : List String) :
    WorkerProto.FileAnalysisSnapshot where
  sourceUnit := value.sourceUnit.map decodeSourceUnit
  structuralFingerprint := value.structuralFingerprint
  publicApiFingerprint := value.publicApiFingerprint
  provenances := value.provenances.map decodeProvenance
  symbols := value.symbols.map fun symbol => decodeSymbol symbol snapshotProvenanceIndex ids
  applications := []
  occurrences := value.occurrences.map fun occurrence => decodeOccurrence occurrence snapshotProvenanceIndex ids
  references := value.references.map fun edge => decodeReference edge ids
  calls := value.calls.map fun edge => decodeCall edge ids
  hierarchy := value.hierarchy.map fun edge => decodeHierarchy edge snapshotProvenanceIndex ids
  types := value.types.map fun record => decodeType record snapshotProvenanceIndex
  diagnostics := value.diagnostics.map fun diagnostic => decodeDiagnostic diagnostic snapshotProvenanceIndex
  completeness := value.completeness
  provenanceIndex := snapshotProvenanceIndex

/-- `ok_or(ArtifactProtoError::LengthMismatch)` -/
def present {α : Type} : Option α → Except ArtifactProtoError α
  | some value => .ok value
  | none => .error .lengthMismatch

def decodeSnapshot (value : GraphSnapshot) (ids : List String) : Except ArtifactProtoError FileAnalysisSnapshot := do
  let snapshotProvenanceIndex ← present value.provenanceIndex
  canonical (WorkerAdapter.decodeFileAnalysisSnapshot (workerSnapshot value snapshotProvenanceIndex ids))

def localIds (artifact : GraphArtifact) : List String :=
  artifact.symbols.map ArtifactSymbol.id

def decodeGraphArtifact (artifact : GraphArtifact) : Except ArtifactProtoError (List FileAnalysisSnapshot) :=
  artifact.snapshots.mapM fun snapshot => decodeSnapshot snapshot (localIds artifact)

def localOrdinals (snapshots : List FileAnalysisSnapshot) : Ordinals :=
  (snapshots.flatMap FileAnalysisSnapshot.symbols).zipIdx.map fun entry => (entry.1.id.asStr, asU32 entry.2)

/-! ## Detail blocks -/

/-- A string of a detail: inline, or by its index in the block's table. -/
def detailString (table : List String) (inline : String) (index : Option Nat) : Except ArtifactProtoError String :=
  match index with
  | some index => present table[index]?
  | none => .ok inline

def detailStrings (table : List String) (inline : List String) (indexes : List Nat) : Except ArtifactProtoError (List String) :=
  if indexes = [] then .ok inline else indexes.mapM fun index => present table[index]?

def detailOptional (table : List String) (inline : Option String) (index : Option Nat) :
    Except ArtifactProtoError (Option String) :=
  match index with
  | some index => (present table[index]?).map some
  | none => .ok inline

/-- The declaration a detail stands for. Its owner is the inline one, and it has no provenance index. -/
def detailSymbol (defaults : ArtifactSymbolSnapshotDefaults) (detail : ArtifactSymbolDetail) :
    Except ArtifactProtoError ArtifactSymbol := do
  let table := defaults.stringTable
  let backendKey ← detailString table detail.backendKey detail.backendKeyStringIndex
  let kind ← detailString table detail.kind detail.kindStringIndex
  let name ← detailString table detail.name detail.nameStringIndex
  let qualifiedName ← detailOptional table detail.qualifiedName detail.qualifiedNameStringIndex
  let signature ← detailOptional table detail.signature detail.signatureStringIndex
  let ownerId ← detailOptional table detail.ownerId detail.ownerIdStringIndex
  let modifiers ← detailStrings table detail.modifiers detail.modifierStringIndexes
  let appliedSymbolIds ← detailStrings table detail.appliedSymbolIds detail.appliedSymbolStringIndexes
  pure
    { id := detail.id
      backendKey
      backendSchemaVersion := detail.backendSchemaVersion
      language := detail.language.getD defaults.language
      kind
      name
      qualifiedName
      signature
      declaration := detail.declaration
      nameRange := detail.nameRange
      ownerId
      modifiers
      appliedSymbolIds
      freshness := detail.freshness.getD defaults.freshness
      completeness := detail.completeness.getD defaults.completeness
      componentId := detail.componentId.getD defaults.componentId
      provenanceIndex := none
      ownerSymbolOrdinal := none }

/-- A snapshot of one declaration and one provenance. -/
def detailSnapshot (sourceUnit : ArtifactSourceUnit) (provenance : ArtifactProvenance) (symbol : ArtifactSymbol) :
    GraphSnapshot where
  sourceUnit := some sourceUnit
  structuralFingerprint := none
  publicApiFingerprint := none
  provenances := [provenance]
  symbols := [symbol]
  occurrences := []
  references := []
  calls := []
  hierarchy := []
  types := []
  diagnostics := []
  completeness := "partial"
  provenanceIndex := some 0

def decodeSymbolDetail (block : ArtifactSymbolDetailBlock) (ordinal : Nat) : Except ArtifactProtoError SymbolRecord :=
  if ordinal < block.firstSymbolOrdinal then .error .lengthMismatch
  else do
    let detail ← present block.entries[ordinal - block.firstSymbolOrdinal]?
    let defaults ← present block.defaults
    let sourceUnit ← present defaults.sourceUnit
    let provenanceIndex := (detail.provenanceIndex.or defaults.provenanceIndex).getD 0
    let provenance ← present defaults.provenances[provenanceIndex]?
    let symbol ← detailSymbol defaults detail
    let snapshot ← decodeSnapshot (detailSnapshot sourceUnit provenance symbol) [symbol.id]
    present snapshot.symbols.head?

/-! ## Envelopes -/

/-- What the adapter uses of prost and of SHA-256. -/
structure EnvelopeCodec where
  encodeArtifact : GraphArtifact → Bytes
  decodeEnvelope : Bytes → Option ArtifactEnvelope
  envelope : Encoder decodeEnvelope
  sha256 : Bytes → Bytes

variable (codec : EnvelopeCodec)

def encodeSnapshots (snapshots : List FileAnalysisSnapshot) : Except ArtifactProtoError Bytes := do
  let values ← snapshots.mapM fun value => snapshot value (localOrdinals snapshots)
  let artifact : GraphArtifact := ⟨values⟩
  let payload := codec.encodeArtifact artifact
  pure (codec.envelope.encode
    { formatVersion := ARTIFACT_FORMAT_VERSION
      payloadLength := payload.length
      payloadSha256 := codec.sha256 payload
      artifact := some artifact })

def decodeEnvelope (bytes : Bytes) : Except ArtifactProtoError ArtifactEnvelope :=
  match codec.decodeEnvelope bytes with
  | some envelope => .ok envelope
  | none => .error .decode

def decodeSnapshots (bytes : Bytes) : Except ArtifactProtoError (List FileAnalysisSnapshot) := do
  let envelope ← decodeEnvelope codec bytes
  if envelope.formatVersion ≠ ARTIFACT_FORMAT_VERSION then
    .error (.unsupportedVersion envelope.formatVersion)
  else do
    let artifact ← present envelope.artifact
    let payload := codec.encodeArtifact artifact
    if envelope.payloadLength ≠ payload.length then
      .error .lengthMismatch
    else if envelope.payloadSha256 ≠ codec.sha256 payload then
      .error .checksumMismatch
    else
      decodeGraphArtifact artifact

end ArtifactAdapter

end Kide
