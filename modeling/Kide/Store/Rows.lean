import Kide.Store.Snapshots

/-!
# What the statements do

* `FileAnalysisSnapshot.rows`: the facts of a snapshot as rows, table by table;
* `ownedBy`: the rows that `deleteFileOwnedFacts` deletes, as one condition;
* `insertSnapshot_ok_iff` and `deleteFileOwnedFacts_run`: the two statement lists as operations on
  the rows. Everything about the store is proved from these two.
-/

namespace Kide
open Tables Transactions Checks

/-! ## The rows of a snapshot -/

section Rows
variable (source : SourceUnit)

def SymbolRecord.row (symbol : SymbolRecord) : SymbolRow :=
  ⟨symbol.id, source.id, symbol.name, symbol.nameRange.bytes.start, .fromSymbol symbol⟩

def SymbolRecord.annotationRows (symbol : SymbolRecord) : List AnnotationEdgeRow :=
  symbol.appliedSymbols.map fun annotation => ⟨source.id, symbol.id, annotation⟩

def ApplicationFact.row (application : ApplicationFact) : ApplicationRow :=
  ⟨application.id, source.id, application.subject, application.target, application.range.bytes.start,
    application.range.bytes.stop, application⟩

def ApplicationFact.argumentRows (application : ApplicationFact) : List ApplicationArgumentRow :=
  application.arguments.map fun argument =>
    ⟨application.id, argument.name, argument.position, (applicationValueColumns argument.value).1,
      (applicationValueColumns argument.value).2⟩

def SourceOccurrence.row (occurrence : SourceOccurrence) : OccurrenceRow :=
  ⟨source.id, occurrence.range.bytes.start, occurrence.range.bytes.stop, occurrence.kind.debug,
    occurrence.target, occurrence⟩

def ReferenceEdge.row (reference : ReferenceEdge) : ReferenceEdgeRow :=
  ⟨source.id, reference.source.range.bytes.start, reference.source.range.bytes.stop, reference.target,
    reference⟩

def CallEdge.row (call : CallEdge) : CallEdgeRow :=
  ⟨source.id, call.source.range.bytes.start, call.source.range.bytes.stop, call.target, call⟩

def HierarchyEdge.row (edge : HierarchyEdge) : HierarchyEdgeRow :=
  ⟨source.id, edge.subtype, edge.supertype, edge⟩

def TypeRecord.row (ty : TypeRecord) : TypeRecordRow := ⟨source.id, ty.id, ty⟩

def DiagnosticRecord.row (diagnostic : DiagnosticRecord) : DiagnosticRow :=
  ⟨source.id, diagnostic.range.map (·.start), diagnostic.range.map (·.stop), diagnostic.severity.debug,
    diagnostic⟩

end Rows

namespace FileAnalysisSnapshot
variable (snapshot : FileAnalysisSnapshot)

def snapshotRow : SourceSnapshotRow :=
  let source := snapshot.sourceUnit
  ⟨source.id, source.component, source.path, source.content, source.context,
    snapshot.provenance.protocolVersion, source, snapshot.provenance, snapshot.publicApiFingerprint⟩

def provenanceRow : SourceProvenanceRow := ⟨snapshot.sourceUnit.id, snapshot.provenance⟩

def symbolFacts (symbol : SymbolRecord) : List FactRow :=
  .symbols (symbol.row snapshot.sourceUnit) ::
    (symbol.annotationRows snapshot.sourceUnit).map .annotationEdges

def applicationFacts (application : ApplicationFact) : List FactRow :=
  .applications (application.row snapshot.sourceUnit) ::
    application.argumentRows.map .applicationArguments

/-- The facts of a snapshot as rows of the fact tables. -/
def rows : List FactRow :=
  [.sourceSnapshots snapshot.snapshotRow, .sourceProvenance snapshot.provenanceRow]
  ++ snapshot.symbols.flatMap snapshot.symbolFacts
  ++ snapshot.applications.flatMap snapshot.applicationFacts
  ++ snapshot.occurrences.map (fun o => .occurrences (o.row snapshot.sourceUnit))
  ++ snapshot.references.map (fun r => .referenceEdges (r.row snapshot.sourceUnit))
  ++ snapshot.calls.map (fun c => .callEdges (c.row snapshot.sourceUnit))
  ++ snapshot.hierarchy.map (fun h => .hierarchyEdges (h.row snapshot.sourceUnit))
  ++ snapshot.types.map (fun t => .typeRecords (t.row snapshot.sourceUnit))
  ++ snapshot.diagnostics.map (fun d => .diagnostics (d.row snapshot.sourceUnit))

end FileAnalysisSnapshot

/-! ## Binding -/

def ByteRange.Fits (range : ByteRange) : Prop := range.start < OFFSET_LIMIT ∧ range.stop < OFFSET_LIMIT

/-- Every offset a row column takes is a 63-bit integer. -/
structure OffsetsFit (snapshot : FileAnalysisSnapshot) : Prop where
  symbols : ∀ symbol ∈ snapshot.symbols, symbol.nameRange.bytes.start < OFFSET_LIMIT
  applications : ∀ application ∈ snapshot.applications, application.range.bytes.Fits
  occurrences : ∀ occurrence ∈ snapshot.occurrences, occurrence.range.bytes.Fits
  references : ∀ reference ∈ snapshot.references, reference.source.range.bytes.Fits
  calls : ∀ call ∈ snapshot.calls, call.source.range.bytes.Fits
  diagnostics : ∀ diagnostic ∈ snapshot.diagnostics, ∀ range ∈ diagnostic.range, range.Fits

theorem sqliteOffset_ok_iff {value bound : Nat} :
    sqliteOffset value = .ok bound ↔ value < OFFSET_LIMIT ∧ value = bound := by
  unfold sqliteOffset
  split
  · next h => exact ⟨fun e => ⟨h, Except.ok.inj e⟩, fun e => by rw [e.2]⟩
  · next h => exact ⟨fun e => (nomatch e), fun e => absurd e.1 h⟩

theorem sqliteOffset_pair_ok_iff {range : ByteRange} {f : Nat → Nat → FactRow} {row : FactRow} :
    (do let start ← sqliteOffset range.start
        let stop ← sqliteOffset range.stop
        return f start stop : Except IndexStoreError FactRow) = .ok row ↔
      range.Fits ∧ f range.start range.stop = row := by
  simp only [bind_eq_ok_iff, sqliteOffset_ok_iff, pure, Except.pure, Except.ok.injEq, ByteRange.Fits]
  constructor
  · rintro ⟨_, ⟨h1, rfl⟩, _, ⟨h2, rfl⟩, h⟩
    exact ⟨⟨h1, h2⟩, h⟩
  · rintro ⟨⟨h1, h2⟩, h⟩
    exact ⟨_, ⟨h1, rfl⟩, _, ⟨h2, rfl⟩, h⟩

section Bind
variable (source : SourceUnit)

theorem bindOccurrence_ok_iff (occurrence : SourceOccurrence) (row : FactRow) :
    bindOccurrence source occurrence = .ok row ↔
      occurrence.range.bytes.Fits ∧ .occurrences (occurrence.row source) = row :=
  sqliteOffset_pair_ok_iff (f := fun a b => .occurrences ⟨source.id, a, b, _, _, _⟩)

theorem bindReference_ok_iff (reference : ReferenceEdge) (row : FactRow) :
    bindReference source reference = .ok row ↔
      reference.source.range.bytes.Fits ∧ .referenceEdges (reference.row source) = row :=
  sqliteOffset_pair_ok_iff (f := fun a b => .referenceEdges ⟨source.id, a, b, _, _⟩)

theorem bindCall_ok_iff (call : CallEdge) (row : FactRow) :
    bindCall source call = .ok row ↔
      call.source.range.bytes.Fits ∧ .callEdges (call.row source) = row :=
  sqliteOffset_pair_ok_iff (f := fun a b => .callEdges ⟨source.id, a, b, _, _⟩)

theorem bindDiagnostic_ok_iff (diagnostic : DiagnosticRecord) (row : FactRow) :
    bindDiagnostic source diagnostic = .ok row ↔
      (∀ range ∈ diagnostic.range, range.Fits) ∧ .diagnostics (diagnostic.row source) = row := by
  unfold bindDiagnostic DiagnosticRecord.row
  cases diagnostic.range with
  | none => simp [pure, Except.pure]
  | some range =>
    simpa using sqliteOffset_pair_ok_iff
      (f := fun a b => .diagnostics ⟨source.id, some a, some b, diagnostic.severity.debug, diagnostic⟩)

theorem bindSymbol_yields (symbol : SymbolRecord) :
    Yields (bindSymbol source symbol) (symbol.nameRange.bytes.start < OFFSET_LIMIT)
      (.symbols (symbol.row source) :: (symbol.annotationRows source).map .annotationEdges) := by
  have hhead : Yields [do
        let nameStartByte ← sqliteOffset symbol.nameRange.bytes.start
        return FactRow.symbols ⟨symbol.id, source.id, symbol.name, nameStartByte, .fromSymbol symbol⟩]
      (symbol.nameRange.bytes.start < OFFSET_LIMIT) [.symbols (symbol.row source)] := by
    refine .singleton fun row => ?_
    simp only [bind_eq_ok_iff, sqliteOffset_ok_iff, pure, Except.pure, Except.ok.injEq]
    constructor
    · rintro ⟨_, ⟨h, rfl⟩, rfl⟩
      exact ⟨h, rfl⟩
    · rintro ⟨h, rfl⟩
      exact ⟨_, ⟨h, rfl⟩, rfl⟩
  rw [SymbolRecord.annotationRows, List.map_map]
  exact (hhead.append (.pureMap _ _)).mono (and_iff_left trivial)

theorem bindApplication_yields (application : ApplicationFact) :
    Yields (bindApplication source application) application.range.bytes.Fits
      (.applications (application.row source) :: application.argumentRows.map .applicationArguments) := by
  have hhead : Yields [do
        let startByte ← sqliteOffset application.range.bytes.start
        let endByte ← sqliteOffset application.range.bytes.stop
        return FactRow.applications ⟨application.id, source.id, application.subject, application.target,
          startByte, endByte, application⟩]
      application.range.bytes.Fits [.applications (application.row source)] :=
    .singleton fun _ => sqliteOffset_pair_ok_iff (f := fun a b => .applications ⟨_, _, _, _, a, b, _⟩)
  rw [ApplicationFact.argumentRows, List.map_map]
  exact (hhead.append (.pureMap _ _)).mono (and_iff_left trivial)

end Bind

/-- Binding a snapshot succeeds exactly when its offsets fit, and gives its rows. -/
theorem bindSnapshot_yields (snapshot : FileAnalysisSnapshot) :
    Yields (bindSnapshot snapshot) (OffsetsFit snapshot) snapshot.rows := by
  have hhead := Yields.pureMap (E := IndexStoreError) id
    [FactRow.sourceSnapshots snapshot.snapshotRow, .sourceProvenance snapshot.provenanceRow]
  have hsymbols := Yields.flatMap (bindSymbol_yields snapshot.sourceUnit) snapshot.symbols
  have happlications := Yields.flatMap (bindApplication_yields snapshot.sourceUnit) snapshot.applications
  have hoccurrences := Yields.map (bindOccurrence_ok_iff snapshot.sourceUnit) snapshot.occurrences
  have hreferences := Yields.map (bindReference_ok_iff snapshot.sourceUnit) snapshot.references
  have hcalls := Yields.map (bindCall_ok_iff snapshot.sourceUnit) snapshot.calls
  have hhierarchy := Yields.pureMap (E := IndexStoreError)
    (fun h => FactRow.hierarchyEdges (HierarchyEdge.row snapshot.sourceUnit h)) snapshot.hierarchy
  have htypes := Yields.pureMap (E := IndexStoreError)
    (fun t => FactRow.typeRecords (TypeRecord.row snapshot.sourceUnit t)) snapshot.types
  have hdiagnostics := Yields.map (bindDiagnostic_ok_iff snapshot.sourceUnit) snapshot.diagnostics
  have hall : Yields (bindSnapshot snapshot) _ snapshot.rows := (((((((hhead.append hsymbols).append happlications).append hoccurrences).append
    hreferences).append hcalls).append hhierarchy).append htypes).append hdiagnostics
  refine hall.mono ?_
  constructor
  · rintro ⟨⟨⟨⟨⟨⟨⟨⟨-, h1⟩, h2⟩, h3⟩, h4⟩, h5⟩, -⟩, -⟩, h6⟩
    exact ⟨h1, h2, h3, h4, h5, h6⟩
  · rintro ⟨h1, h2, h3, h4, h5, h6⟩
    exact ⟨⟨⟨⟨⟨⟨⟨⟨trivial, h1⟩, h2⟩, h3⟩, h4⟩, h5⟩, trivial⟩, trivial⟩, h6⟩

/-! ## Insertion -/

theorem insertRowStatement_ok_iff {bound : Except IndexStoreError FactRow} {store store' : IndexStore} :
    insertRowStatement bound store = .ok store' ↔
      ∃ row, bound = .ok row ∧ ∃ facts, insertRow FactRow.key store.facts row = some facts ∧
        store' = { store with facts } := by
  unfold insertRowStatement
  rw [bind_eq_ok_iff]
  refine exists_congr fun row => and_congr_right fun _ => ?_
  cases insertRow FactRow.key store.facts row with
  | none => simp
  | some facts => simp [eq_comm]

theorem runStatements_insertRows {bound : List (Except IndexStoreError FactRow)} {store store' : IndexStore} :
    runStatements (bound.map insertRowStatement) store = .ok store' ↔
      ∃ rows, bound = rows.map .ok ∧ ∃ facts, insertAll FactRow.key store.facts rows = some facts ∧
        store' = { store with facts } := by
  induction bound generalizing store with
  | nil =>
    rw [List.map_nil, runStatements_nil]
    constructor
    · rintro ⟨⟩
      exact ⟨[], rfl, _, rfl, rfl⟩
    · rintro ⟨rows, hrows, facts, hfacts, rfl⟩
      obtain rfl := List.map_eq_nil_iff.1 hrows.symm
      cases hfacts; rfl
  | cons b bound ih =>
    rw [List.map_cons, runStatements_cons, bind_eq_ok_iff]
    simp only [insertRowStatement_ok_iff, ih]
    constructor
    · rintro ⟨_, ⟨row, rfl, facts, hrow, rfl⟩, rows, rfl, facts', hrows, rfl⟩
      exact ⟨row :: rows, rfl, facts', by rw [insertAll_cons, hrow]; exact hrows, rfl⟩
    · rintro ⟨rows, hrows, facts, hfacts, rfl⟩
      cases rows with
      | nil => cases hrows
      | cons row rows =>
        rw [List.map_cons, List.cons.injEq] at hrows
        rw [insertAll_cons, Option.bind_eq_some_iff] at hfacts
        obtain ⟨facts', hrow, hrest⟩ := hfacts
        exact ⟨_, ⟨row, hrows.1, facts', hrow, rfl⟩, rows, hrows.2, facts, hrest, rfl⟩

/-- **`insert_snapshot`.** It goes through exactly when the offsets fit and the rows can be inserted,
and then the rows stand behind those present. -/
theorem insertSnapshot_ok_iff {snapshot : FileAnalysisSnapshot} {store store' : IndexStore} :
    runStatements (insertSnapshot snapshot) store = .ok store' ↔
      OffsetsFit snapshot ∧ KeysUnique FactRow.key snapshot.rows ∧
        List.Disjoint (keys FactRow.key store.facts) (keys FactRow.key snapshot.rows) ∧
          store' = { store with facts := store.facts ++ snapshot.rows } := by
  rw [insertSnapshot, runStatements_insertRows]
  simp only [bindSnapshot_yields snapshot _, insertAll_eq_some_iff]
  constructor
  · rintro ⟨_, ⟨hfit, rfl⟩, _, ⟨rfl, hnd, hdis⟩, rfl⟩
    exact ⟨hfit, hnd, hdis, rfl⟩
  · rintro ⟨hfit, hnd, hdis, rfl⟩
    exact ⟨_, ⟨hfit, rfl⟩, _, ⟨rfl, hnd, hdis⟩, rfl⟩

/-! ## Deletion -/

/-- A row belongs to a unit by its own column, and an argument by its application. -/
def ownedBy (facts : List FactRow) (sourceUnit : SourceUnitId) : FactRow → Bool
  | .applicationArguments row => applicationOf facts sourceUnit row.applicationId
  | row => row.sourceUnitId = some sourceUnit

/-- The store without the facts of one unit. -/
def IndexStore.without (store : IndexStore) (sourceUnit : SourceUnitId) : IndexStore :=
  { store with facts := store.facts.filter fun row => !ownedBy store.facts sourceUnit row }

/-- **`delete_file_owned_facts`.** Its twelve statements delete exactly what the unit owns. -/
theorem deleteFileOwnedFacts_run (sourceUnit : SourceUnitId) (store : IndexStore) :
    runStatements (deleteFileOwnedFacts sourceUnit) store = .ok (store.without sourceUnit) := by
  rw [deleteFileOwnedFacts, runStatements_total]
  simp only [List.map_cons, List.map_nil, List.foldl_cons, List.foldl_nil, deleteArgumentsOf, deleteFrom,
    List.filter_filter, IndexStore.without]
  congr 2
  refine List.filter_congr fun row _ => ?_
  cases row <;> simp [FactRow.table, ownedBy, FactRow.sourceUnitId]

end Kide
