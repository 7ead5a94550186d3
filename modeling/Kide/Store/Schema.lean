import Kide.Lib.Table
import Kide.InputInventory

/-!
# Index schema

The tables of the SQLite index (`MIGRATION_1` to `MIGRATION_15` of `store.rs`).

* The twelve tables that spread a file snapshot over rows: a `FactRow` is a row of one of them, and
  its `key` is the row's primary key, tagged with the table. The columns `record_json`,
  `source_unit_json`, `provenance_blob` and `record_blob` hold the record they encode.
* The tables a workspace owns once: manifests, checkpoints, input inventory and dependency catalog.
-/

namespace Kide

/-! ## Columns -/

theorem OccurrenceKind.debug_injective : Function.Injective OccurrenceKind.debug := by
  intro a b h
  cases a <;> cases b <;> first | rfl | exact absurd h (by decide)

theorem DiagnosticSeverity.debug_injective : Function.Injective DiagnosticSeverity.debug := by
  intro a b h
  cases a <;> cases b <;> first | rfl | exact absurd h (by decide)

/-- The symbol columns proper own identity and lookup fields; the source snapshot owns component
and provenance. -/
structure StoredSymbolRecord where
  backendKey : BackendKey
  language : Language
  kind : SymbolKind
  qualifiedName : Option String
  signature : Option String
  declaration : ByteRange
  nameRange : ByteRange
  owner : Option SymbolId
  modifiers : List String
  appliedSymbols : List SymbolId
  freshness : Freshness
  completeness : Completeness
deriving DecidableEq, Repr

/-- `From<&SymbolRecord> for StoredSymbolRecord` -/
def StoredSymbolRecord.fromSymbol (symbol : SymbolRecord) : StoredSymbolRecord where
  backendKey := symbol.backendKey
  language := symbol.language
  kind := symbol.kind
  qualifiedName := symbol.qualifiedName
  signature := symbol.signature
  declaration := symbol.declaration.bytes
  nameRange := symbol.nameRange.bytes
  owner := symbol.owner
  modifiers := symbol.modifiers
  appliedSymbols := symbol.appliedSymbols
  freshness := symbol.freshness
  completeness := symbol.completeness

def StoredSymbolRecord.intoSymbol (record : StoredSymbolRecord) (id : SymbolId) (name : String)
    (sourceUnit : SourceUnit) (provenance : Provenance) : SymbolRecord where
  id := id
  backendKey := record.backendKey
  language := record.language
  kind := record.kind
  name := name
  qualifiedName := record.qualifiedName
  signature := record.signature
  component := sourceUnit.component
  declaration := ⟨sourceUnit.id, record.declaration⟩
  nameRange := ⟨sourceUnit.id, record.nameRange⟩
  owner := record.owner
  modifiers := record.modifiers
  appliedSymbols := record.appliedSymbols
  freshness := record.freshness
  completeness := record.completeness
  provenance := provenance

/-! ## Rows of the fact tables -/

structure SourceSnapshotRow where
  sourceUnitId : SourceUnitId
  componentId : ComponentId
  workspacePath : WorkspacePath
  contentFingerprint : Fingerprint
  contextFingerprint : Fingerprint
  protocolVersion : Nat
  sourceUnitJson : SourceUnit
  provenanceBlob : Provenance
  publicApiFingerprint : Option Fingerprint
deriving DecidableEq, Repr

structure SourceProvenanceRow where
  sourceUnitId : SourceUnitId
  provenanceBlob : Provenance
deriving DecidableEq, Repr

structure SymbolRow where
  symbolId : SymbolId
  sourceUnitId : SourceUnitId
  name : String
  nameStartByte : Nat
  recordBlob : StoredSymbolRecord
deriving DecidableEq, Repr

structure AnnotationEdgeRow where
  sourceUnitId : SourceUnitId
  symbolId : SymbolId
  annotationSymbolId : SymbolId
deriving DecidableEq, Repr

structure ApplicationRow where
  applicationId : ApplicationId
  sourceUnitId : SourceUnitId
  subjectSymbolId : SymbolId
  targetSymbolId : SymbolId
  startByte : Nat
  endByte : Nat
  recordJson : ApplicationFact
deriving DecidableEq, Repr

/-- The one fact row without a `source_unit_id`: its application owns it. -/
structure ApplicationArgumentRow where
  applicationId : ApplicationId
  name : Option String
  position : Nat
  valueKind : String
  valueText : String
deriving DecidableEq, Repr

structure OccurrenceRow where
  sourceUnitId : SourceUnitId
  startByte : Nat
  endByte : Nat
  occurrenceKind : String
  targetSymbolId : Option SymbolId
  recordJson : SourceOccurrence
deriving DecidableEq, Repr

structure ReferenceEdgeRow where
  sourceUnitId : SourceUnitId
  startByte : Nat
  endByte : Nat
  targetSymbolId : SymbolId
  recordJson : ReferenceEdge
deriving DecidableEq, Repr

structure CallEdgeRow where
  sourceUnitId : SourceUnitId
  startByte : Nat
  endByte : Nat
  targetSymbolId : SymbolId
  recordJson : CallEdge
deriving DecidableEq, Repr

structure HierarchyEdgeRow where
  sourceUnitId : SourceUnitId
  subtypeSymbolId : SymbolId
  supertypeSymbolId : SymbolId
  recordJson : HierarchyEdge
deriving DecidableEq, Repr

structure TypeRecordRow where
  sourceUnitId : SourceUnitId
  typeId : TypeId
  recordJson : TypeRecord
deriving DecidableEq, Repr

structure DiagnosticRow where
  sourceUnitId : SourceUnitId
  startByte : Option Nat
  endByte : Option Nat
  severity : String
  recordJson : DiagnosticRecord
deriving DecidableEq, Repr

/-- A row of one of the fact tables. -/
inductive FactRow where
  | sourceSnapshots (row : SourceSnapshotRow)
  | sourceProvenance (row : SourceProvenanceRow)
  | symbols (row : SymbolRow)
  | annotationEdges (row : AnnotationEdgeRow)
  | applications (row : ApplicationRow)
  | applicationArguments (row : ApplicationArgumentRow)
  | occurrences (row : OccurrenceRow)
  | referenceEdges (row : ReferenceEdgeRow)
  | callEdges (row : CallEdgeRow)
  | hierarchyEdges (row : HierarchyEdgeRow)
  | typeRecords (row : TypeRecordRow)
  | diagnostics (row : DiagnosticRow)
deriving DecidableEq, Repr

/-! ## Primary keys -/

inductive FactKey where
  | sourceSnapshots (sourceUnitId : SourceUnitId)
  | sourceProvenance (sourceUnitId : SourceUnitId)
  | symbols (symbolId : SymbolId)
  | annotationEdges (sourceUnitId : SourceUnitId) (symbolId annotationSymbolId : SymbolId)
  | applications (applicationId : ApplicationId)
  | applicationArguments (applicationId : ApplicationId) (position : Nat)
  | occurrences (sourceUnitId : SourceUnitId) (startByte endByte : Nat) (occurrenceKind : String)
  | referenceEdges (sourceUnitId : SourceUnitId) (startByte endByte : Nat) (targetSymbolId : SymbolId)
  | callEdges (sourceUnitId : SourceUnitId) (startByte endByte : Nat) (targetSymbolId : SymbolId)
  | hierarchyEdges (sourceUnitId : SourceUnitId) (subtypeSymbolId supertypeSymbolId : SymbolId)
  | typeRecords (sourceUnitId : SourceUnitId) (typeId : TypeId)
  | diagnostics (sourceUnitId : SourceUnitId) (startByte endByte : Nat) (severity : String)
      (recordJson : DiagnosticRecord)
deriving DecidableEq

/-- The primary key of a row. The key columns of `diagnostics` may be NULL, and a key with a NULL
column is distinct from every other key. -/
def FactRow.key : FactRow → Option FactKey
  | .sourceSnapshots r => some (.sourceSnapshots r.sourceUnitId)
  | .sourceProvenance r => some (.sourceProvenance r.sourceUnitId)
  | .symbols r => some (.symbols r.symbolId)
  | .annotationEdges r => some (.annotationEdges r.sourceUnitId r.symbolId r.annotationSymbolId)
  | .applications r => some (.applications r.applicationId)
  | .applicationArguments r => some (.applicationArguments r.applicationId r.position)
  | .occurrences r => some (.occurrences r.sourceUnitId r.startByte r.endByte r.occurrenceKind)
  | .referenceEdges r => some (.referenceEdges r.sourceUnitId r.startByte r.endByte r.targetSymbolId)
  | .callEdges r => some (.callEdges r.sourceUnitId r.startByte r.endByte r.targetSymbolId)
  | .hierarchyEdges r => some (.hierarchyEdges r.sourceUnitId r.subtypeSymbolId r.supertypeSymbolId)
  | .typeRecords r => some (.typeRecords r.sourceUnitId r.typeId)
  | .diagnostics r =>
    match r.startByte, r.endByte with
    | some start, some stop => some (.diagnostics r.sourceUnitId start stop r.severity r.recordJson)
    | _, _ => none

/-- The column `source_unit_id`, which every fact table but `application_arguments` has. -/
def FactRow.sourceUnitId : FactRow → Option SourceUnitId
  | .sourceSnapshots r => some r.sourceUnitId
  | .sourceProvenance r => some r.sourceUnitId
  | .symbols r => some r.sourceUnitId
  | .annotationEdges r => some r.sourceUnitId
  | .applications r => some r.sourceUnitId
  | .applicationArguments _ => none
  | .occurrences r => some r.sourceUnitId
  | .referenceEdges r => some r.sourceUnitId
  | .callEdges r => some r.sourceUnitId
  | .hierarchyEdges r => some r.sourceUnitId
  | .typeRecords r => some r.sourceUnitId
  | .diagnostics r => some r.sourceUnitId

/-! ## Tables -/

namespace FactRow

def inSourceSnapshots : FactRow → Option SourceSnapshotRow
  | .sourceSnapshots row => some row
  | _ => none

def inSourceProvenance : FactRow → Option SourceProvenanceRow
  | .sourceProvenance row => some row
  | _ => none

def inSymbols : FactRow → Option SymbolRow
  | .symbols row => some row
  | _ => none

def inAnnotationEdges : FactRow → Option AnnotationEdgeRow
  | .annotationEdges row => some row
  | _ => none

def inApplications : FactRow → Option ApplicationRow
  | .applications row => some row
  | _ => none

def inApplicationArguments : FactRow → Option ApplicationArgumentRow
  | .applicationArguments row => some row
  | _ => none

def inOccurrences : FactRow → Option OccurrenceRow
  | .occurrences row => some row
  | _ => none

def inReferenceEdges : FactRow → Option ReferenceEdgeRow
  | .referenceEdges row => some row
  | _ => none

def inCallEdges : FactRow → Option CallEdgeRow
  | .callEdges row => some row
  | _ => none

def inHierarchyEdges : FactRow → Option HierarchyEdgeRow
  | .hierarchyEdges row => some row
  | _ => none

def inTypeRecords : FactRow → Option TypeRecordRow
  | .typeRecords row => some row
  | _ => none

def inDiagnostics : FactRow → Option DiagnosticRow
  | .diagnostics row => some row
  | _ => none

end FactRow

/-! ## The store -/

structure SymbolLocatorRow where
  sourceUnitId : SourceUnitId
  qualifiedName : String
  symbolId : SymbolId
deriving DecidableEq, Repr

structure ArtifactBlobRow where
  blobKey : Fingerprint
  identityJson : ResolvedDependencyIdentity
  byteLength : Nat
deriving DecidableEq, Repr

/-- A durable local index: its tables. -/
structure IndexStore where
  facts : List FactRow := []
  projectManifests : List ProjectManifest := []
  workspaceCheckpoints : List WorkspaceCheckpoint := []
  configurationInputs : List ConfigurationInput := []
  artifactCatalog : List ArtifactDescriptor := []
  symbolLocators : List SymbolLocatorRow := []
  artifactBlobCatalog : List ArtifactBlobRow := []
  projectArtifactBlobRefs : List (SourceUnitId × Fingerprint) := []
deriving DecidableEq

namespace IndexStore

variable (store : IndexStore)

def sourceSnapshots : List SourceSnapshotRow :=
  store.facts.filterMap FactRow.inSourceSnapshots

def sourceProvenance : List SourceProvenanceRow :=
  store.facts.filterMap FactRow.inSourceProvenance

def symbols : List SymbolRow :=
  store.facts.filterMap FactRow.inSymbols

def annotationEdges : List AnnotationEdgeRow :=
  store.facts.filterMap FactRow.inAnnotationEdges

def applications : List ApplicationRow :=
  store.facts.filterMap FactRow.inApplications

def applicationArguments : List ApplicationArgumentRow :=
  store.facts.filterMap FactRow.inApplicationArguments

def occurrences : List OccurrenceRow :=
  store.facts.filterMap FactRow.inOccurrences

def referenceEdges : List ReferenceEdgeRow :=
  store.facts.filterMap FactRow.inReferenceEdges

def callEdges : List CallEdgeRow :=
  store.facts.filterMap FactRow.inCallEdges

def hierarchyEdges : List HierarchyEdgeRow :=
  store.facts.filterMap FactRow.inHierarchyEdges

def typeRecords : List TypeRecordRow :=
  store.facts.filterMap FactRow.inTypeRecords

def diagnostics : List DiagnosticRow :=
  store.facts.filterMap FactRow.inDiagnostics

end IndexStore

/-! ## Failures -/

/-- What SQLite reports: a primary key met twice, or a failure of the disk underneath. -/
inductive SqliteFailure where
  | constraint
  | io
deriving DecidableEq, Repr

inductive IndexStoreError where
  | sqlite (failure : SqliteFailure)
  | incompatibleWorkerProtocol (found supported : Nat)
  | sourceUnitMismatch
  | snapshotInputMismatch
  | factOwnedByOtherSource (record expected actual : String)
  | invalidRange (record : String) (start stop : Nat)
  | byteOffsetOutOfRange (value : Nat)
  | artifactBlobIdentityMismatch (blobKey : String)
deriving DecidableEq, Repr

end Kide
