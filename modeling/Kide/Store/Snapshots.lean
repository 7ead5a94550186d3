import Kide.Lib.Transaction
import Kide.Store.Validate

/-!
# Snapshot transactions

`replace_snapshot`, `replace_snapshots_batch` and `remove_snapshot` of `store.rs`, statement by
statement:

* `deleteFileOwnedFacts` and `insertSnapshot` are the lists of SQL statements these functions
  execute; a statement is a function on the tables that may fail;
* the offsets of a row are narrowed to a 63-bit SQLite integer while the row is bound, so a large
  offset fails at its own statement;
* `disk` says which statement, or the final `COMMIT`, fails for a reason of its own.

`insertSnapshot_ok_iff` and `deleteFileOwnedFacts_run` say what the two lists do to the tables.
-/

namespace Kide
open Tables Transactions Checks

abbrev IndexStatement := Statement IndexStore IndexStoreError

/-- What the disk answers to the `n`-th statement of a transaction. -/
abbrev Disk := Nat → Option IndexStoreError

/-! ## Deletion -/

inductive FactTable where
  | sourceSnapshots | sourceProvenance | symbols | annotationEdges | applications
  | applicationArguments | occurrences | referenceEdges | callEdges | hierarchyEdges | typeRecords
  | diagnostics
deriving DecidableEq, Repr

def FactRow.table : FactRow → FactTable
  | .sourceSnapshots _ => .sourceSnapshots
  | .sourceProvenance _ => .sourceProvenance
  | .symbols _ => .symbols
  | .annotationEdges _ => .annotationEdges
  | .applications _ => .applications
  | .applicationArguments _ => .applicationArguments
  | .occurrences _ => .occurrences
  | .referenceEdges _ => .referenceEdges
  | .callEdges _ => .callEdges
  | .hierarchyEdges _ => .hierarchyEdges
  | .typeRecords _ => .typeRecords
  | .diagnostics _ => .diagnostics

/-- `application_id IN (SELECT application_id FROM applications WHERE source_unit_id = ?1)` -/
def applicationOf (facts : List FactRow) (sourceUnit : SourceUnitId) (application : ApplicationId) : Bool :=
  facts.any fun
    | .applications row => row.sourceUnitId = sourceUnit && row.applicationId = application
    | _ => false

def deleteArgumentsOf (sourceUnit : SourceUnitId) (store : IndexStore) : IndexStore :=
  { store with facts := store.facts.filter fun
      | .applicationArguments row => !applicationOf store.facts sourceUnit row.applicationId
      | _ => true }

/-- `DELETE FROM {table} WHERE source_unit_id = ?1` -/
def deleteFrom (sourceUnit : SourceUnitId) (table : FactTable) (store : IndexStore) : IndexStore :=
  { store with facts := store.facts.filter fun row =>
      !(row.table = table && row.sourceUnitId = some sourceUnit) }

def deleteFileOwnedFacts (sourceUnit : SourceUnitId) : List IndexStatement :=
  (deleteArgumentsOf sourceUnit ::
    [.applications, .referenceEdges, .callEdges, .hierarchyEdges, .typeRecords, .diagnostics,
      .annotationEdges, .occurrences, .symbols, .sourceProvenance, .sourceSnapshots].map
        (deleteFrom sourceUnit)).map fun delete store => .ok (delete store)

/-! ## Insertion -/

/-- `i64::MAX + 1` -/
def OFFSET_LIMIT : Nat := 9223372036854775808

def sqliteOffset (value : Nat) : Except IndexStoreError Nat :=
  if value < OFFSET_LIMIT then .ok value else .error (.byteOffsetOutOfRange value)

/-- The `INSERT` of a row, after the row is bound. -/
def insertRowStatement (bound : Except IndexStoreError FactRow) : IndexStatement := fun store => do
  let row ← bound
  match insertRow FactRow.key store.facts row with
  | some facts => .ok { store with facts }
  | none => .error (.sqlite .constraint)

def jsonEscape (c : Char) : List Char :=
  let hexDigit (n : Nat) : Char := if n < 10 then Char.ofNat (48 + n) else Char.ofNat (87 + n)
  if c = '"' then ['\\', '"']
  else if c = '\\' then ['\\', '\\']
  else if c.toNat = 8 then ['\\', 'b']
  else if c.toNat = 9 then ['\\', 't']
  else if c.toNat = 10 then ['\\', 'n']
  else if c.toNat = 12 then ['\\', 'f']
  else if c.toNat = 13 then ['\\', 'r']
  else if c.toNat < 32 then ['\\', 'u', '0', '0', hexDigit (c.toNat / 16), hexDigit (c.toNat % 16)]
  else [c]

/-- `serde_json::to_string` of a list of strings. -/
def jsonStringList (values : List String) : String :=
  let quote (value : String) : String := "\"" ++ String.ofList (value.toList.flatMap jsonEscape) ++ "\""
  "[" ++ ",".intercalate (values.map quote) ++ "]"

def applicationValueColumns : ApplicationValue → String × String
  | .string value => ("string", value)
  | .stringList value => ("string_list", jsonStringList value)
  | .boolean value => ("boolean", toString value)
  | .integer value => ("integer", toString value)

section InsertSnapshot
variable (source : SourceUnit)

def bindSymbol (symbol : SymbolRecord) : List (Except IndexStoreError FactRow) :=
  (do
    let nameStartByte ← sqliteOffset symbol.nameRange.bytes.start
    return .symbols {
      symbolId := symbol.id, sourceUnitId := source.id, name := symbol.name, nameStartByte
      recordBlob := .fromSymbol symbol }) ::
  symbol.appliedSymbols.map fun annotation =>
    .ok (.annotationEdges { sourceUnitId := source.id, symbolId := symbol.id, annotationSymbolId := annotation })

def bindApplication (application : ApplicationFact) : List (Except IndexStoreError FactRow) :=
  (do
    let startByte ← sqliteOffset application.range.bytes.start
    let endByte ← sqliteOffset application.range.bytes.stop
    return .applications {
      applicationId := application.id, sourceUnitId := source.id
      subjectSymbolId := application.subject, targetSymbolId := application.target
      startByte, endByte, recordJson := application }) ::
  application.arguments.map fun argument =>
    .ok (.applicationArguments {
      applicationId := application.id, name := argument.name, position := argument.position
      valueKind := (applicationValueColumns argument.value).1
      valueText := (applicationValueColumns argument.value).2 })

def bindOccurrence (occurrence : SourceOccurrence) : Except IndexStoreError FactRow := do
  let startByte ← sqliteOffset occurrence.range.bytes.start
  let endByte ← sqliteOffset occurrence.range.bytes.stop
  return .occurrences {
    sourceUnitId := source.id, startByte, endByte, occurrenceKind := occurrence.kind.debug
    targetSymbolId := occurrence.target, recordJson := occurrence }

def bindReference (reference : ReferenceEdge) : Except IndexStoreError FactRow := do
  let startByte ← sqliteOffset reference.source.range.bytes.start
  let endByte ← sqliteOffset reference.source.range.bytes.stop
  return .referenceEdges {
    sourceUnitId := source.id, startByte, endByte, targetSymbolId := reference.target
    recordJson := reference }

def bindCall (call : CallEdge) : Except IndexStoreError FactRow := do
  let startByte ← sqliteOffset call.source.range.bytes.start
  let endByte ← sqliteOffset call.source.range.bytes.stop
  return .callEdges {
    sourceUnitId := source.id, startByte, endByte, targetSymbolId := call.target, recordJson := call }

def bindDiagnostic (diagnostic : DiagnosticRecord) : Except IndexStoreError FactRow :=
  match diagnostic.range with
  | some range => do
    let start ← sqliteOffset range.start
    let stop ← sqliteOffset range.stop
    return .diagnostics {
      sourceUnitId := source.id, startByte := some start, endByte := some stop
      severity := diagnostic.severity.debug, recordJson := diagnostic }
  | none =>
    return .diagnostics {
      sourceUnitId := source.id, startByte := none, endByte := none
      severity := diagnostic.severity.debug, recordJson := diagnostic }

/-- The rows of a snapshot as `insert_snapshot` binds them, in its order. -/
def bindSnapshot (snapshot : FileAnalysisSnapshot) : List (Except IndexStoreError FactRow) :=
  let source := snapshot.sourceUnit
  [.ok (.sourceSnapshots {
      sourceUnitId := source.id, componentId := source.component, workspacePath := source.path
      contentFingerprint := source.content, contextFingerprint := source.context
      protocolVersion := snapshot.provenance.protocolVersion, sourceUnitJson := source
      provenanceBlob := snapshot.provenance, publicApiFingerprint := snapshot.publicApiFingerprint }),
    .ok (.sourceProvenance { sourceUnitId := source.id, provenanceBlob := snapshot.provenance })]
  ++ snapshot.symbols.flatMap (bindSymbol source)
  ++ snapshot.applications.flatMap (bindApplication source)
  ++ snapshot.occurrences.map (bindOccurrence source)
  ++ snapshot.references.map (bindReference source)
  ++ snapshot.calls.map (bindCall source)
  ++ snapshot.hierarchy.map (fun edge => .ok (.hierarchyEdges {
      sourceUnitId := source.id, subtypeSymbolId := edge.subtype, supertypeSymbolId := edge.supertype
      recordJson := edge }))
  ++ snapshot.types.map (fun ty => .ok (.typeRecords {
      sourceUnitId := source.id, typeId := ty.id, recordJson := ty }))
  ++ snapshot.diagnostics.map (bindDiagnostic source)

end InsertSnapshot

def insertSnapshot (snapshot : FileAnalysisSnapshot) : List IndexStatement :=
  (bindSnapshot snapshot).map insertRowStatement

/-! ## Operations -/

/-- Replaces every fact owned by one source unit in one transaction. -/
def IndexStore.replaceSnapshot (disk : Disk) (expected : SourceUnit) (snapshot : FileAnalysisSnapshot)
    (store : IndexStore) : Except IndexStoreError Unit × IndexStore :=
  match validateSnapshot expected snapshot with
  | .error e => (.error e, store)
  | .ok () => transact disk (deleteFileOwnedFacts expected.id ++ insertSnapshot snapshot) store

/-- Replaces every source snapshot of one validated worker batch in one transaction. -/
def IndexStore.replaceSnapshotsBatch (disk : Disk) (entries : List (SourceUnit × FileAnalysisSnapshot))
    (store : IndexStore) : Except IndexStoreError Unit × IndexStore :=
  match entries.forM fun entry => validateSnapshot entry.1 entry.2 with
  | .error e => (.error e, store)
  | .ok () =>
    transact disk
      (entries.flatMap fun entry => deleteFileOwnedFacts entry.1.id ++ insertSnapshot entry.2) store

def IndexStore.removeSnapshot (disk : Disk) (sourceUnit : SourceUnitId) (store : IndexStore) :
    Except IndexStoreError Unit × IndexStore :=
  transact disk (deleteFileOwnedFacts sourceUnit) store

end Kide
