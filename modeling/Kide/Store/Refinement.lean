import Kide.Store.Holding
import Mathlib.Logic.Function.Basic

/-!
# The store refines a finite map

Abstractly the index is a map from source units to their last committed snapshot. An operation that
commits updates the map, an operation that fails leaves it.

* `SnapshotMap`, `StoreOperation.commit`: the abstract machine;
* `Refines store m`: table by table, the rows of a unit are the facts of the snapshot `m` holds for
  it, and every row belongs to a snapshot that `m` holds;
* `operations_refine`: the tables refine the map over every sequence of operations and every disk.
-/

namespace Kide
open Tables Transactions Checks

/-! ## The abstract machine -/

/-- The last committed snapshot of each source unit. -/
abbrev SnapshotMap := SourceUnitId → Option FileAnalysisSnapshot

inductive StoreOperation where
  | replaceSnapshot (expected : SourceUnit) (snapshot : FileAnalysisSnapshot)
  | replaceSnapshotsBatch (entries : List (SourceUnit × FileAnalysisSnapshot))
  | removeSnapshot (sourceUnit : SourceUnitId)

def StoreOperation.run (disk : Disk) : StoreOperation → IndexStore → Except IndexStoreError Unit × IndexStore
  | replaceSnapshot expected snapshot => IndexStore.replaceSnapshot disk expected snapshot
  | replaceSnapshotsBatch entries => IndexStore.replaceSnapshotsBatch disk entries
  | removeSnapshot sourceUnit => IndexStore.removeSnapshot disk sourceUnit

/-- A snapshot takes the place of what its unit had. -/
def SnapshotMap.replace (m : SnapshotMap) (entry : SourceUnit × FileAnalysisSnapshot) : SnapshotMap :=
  Function.update m entry.1.id (some entry.2)

/-- What a committed operation does to the map. -/
def StoreOperation.commit : StoreOperation → SnapshotMap → SnapshotMap
  | replaceSnapshot expected snapshot, m => m.replace (expected, snapshot)
  | replaceSnapshotsBatch entries, m => entries.foldl SnapshotMap.replace m
  | removeSnapshot sourceUnit, m => Function.update m sourceUnit none

/-- The store and the map side by side. -/
def StoreOperation.step (state : IndexStore × SnapshotMap) (operation : Disk × StoreOperation) :
    IndexStore × SnapshotMap :=
  match operation.2.run operation.1 state.1 with
  | (.ok (), store) => (store, operation.2.commit state.2)
  | (.error _, store) => (store, state.2)

/-! ## Outcomes of the operations -/

section Outcomes
variable {disk : Disk} {store : IndexStore}

theorem replaceSnapshot_ok {expected : SourceUnit} {snapshot : FileAnalysisSnapshot}
    (h : (store.replaceSnapshot disk expected snapshot).1 = .ok ()) :
    ValidSnapshot expected snapshot ∧
      runStatements (deleteFileOwnedFacts expected.id ++ insertSnapshot snapshot) store =
        .ok (store.replaceSnapshot disk expected snapshot).2 := by
  unfold IndexStore.replaceSnapshot at h ⊢
  cases hv : validateSnapshot expected snapshot with
  | error e => rw [hv] at h; cases h
  | ok _ =>
    rw [hv] at h
    exact ⟨validateSnapshot_ok_iff.1 hv, transact_ok h⟩

theorem replaceSnapshot_error {expected : SourceUnit} {snapshot : FileAnalysisSnapshot} {e : IndexStoreError}
    (h : (store.replaceSnapshot disk expected snapshot).1 = .error e) :
    (store.replaceSnapshot disk expected snapshot).2 = store := by
  unfold IndexStore.replaceSnapshot at h ⊢
  cases hv : validateSnapshot expected snapshot with
  | error e => rfl
  | ok _ => rw [hv] at h; exact transact_error h

/-- The statements of a batch, entry by entry. -/
def batchStatements (entries : List (SourceUnit × FileAnalysisSnapshot)) : List IndexStatement :=
  entries.flatMap fun entry => deleteFileOwnedFacts entry.1.id ++ insertSnapshot entry.2

theorem replaceSnapshotsBatch_ok {entries : List (SourceUnit × FileAnalysisSnapshot)}
    (h : (store.replaceSnapshotsBatch disk entries).1 = .ok ()) :
    (∀ entry ∈ entries, ValidSnapshot entry.1 entry.2) ∧
      runStatements (batchStatements entries) store = .ok (store.replaceSnapshotsBatch disk entries).2 := by
  unfold IndexStore.replaceSnapshotsBatch at h ⊢
  cases hv : entries.forM fun entry => validateSnapshot entry.1 entry.2 with
  | error e => rw [hv] at h; cases h
  | ok _ =>
    rw [hv] at h
    exact ⟨fun entry he => validateSnapshot_ok_iff.1 (forM_eq_ok_iff.1 hv entry he), transact_ok h⟩

theorem replaceSnapshotsBatch_error {entries : List (SourceUnit × FileAnalysisSnapshot)} {e : IndexStoreError}
    (h : (store.replaceSnapshotsBatch disk entries).1 = .error e) :
    (store.replaceSnapshotsBatch disk entries).2 = store := by
  unfold IndexStore.replaceSnapshotsBatch at h ⊢
  cases hv : entries.forM fun entry => validateSnapshot entry.1 entry.2 with
  | error e => rfl
  | ok _ => rw [hv] at h; exact transact_error h

theorem removeSnapshot_ok {sourceUnit : SourceUnitId} (h : (store.removeSnapshot disk sourceUnit).1 = .ok ()) :
    (store.removeSnapshot disk sourceUnit).2 = store.without sourceUnit := by
  have hrun := transact_ok h
  rw [deleteFileOwnedFacts_run] at hrun
  exact (Except.ok.inj hrun).symm

theorem removeSnapshot_error {sourceUnit : SourceUnitId} {e : IndexStoreError}
    (h : (store.removeSnapshot disk sourceUnit).1 = .error e) :
    (store.removeSnapshot disk sourceUnit).2 = store := transact_error h

end Outcomes

/-- A failed operation changes no row. -/
theorem StoreOperation.run_error {disk : Disk} {operation : StoreOperation} {store : IndexStore}
    {e : IndexStoreError} (h : (operation.run disk store).1 = .error e) : (operation.run disk store).2 = store := by
  cases operation with
  | replaceSnapshot expected snapshot => exact replaceSnapshot_error h
  | replaceSnapshotsBatch entries => exact replaceSnapshotsBatch_error h
  | removeSnapshot sourceUnit => exact removeSnapshot_error h

/-! ## The map of the live snapshots -/

def lookup (live : List FileAnalysisSnapshot) : SnapshotMap := fun sourceUnit =>
  live.find? (·.id = sourceUnit)

/-- The live snapshots after one replacement. -/
def commitLive (live : List FileAnalysisSnapshot) (entry : SourceUnit × FileAnalysisSnapshot) :
    List FileAnalysisSnapshot :=
  live.filter (·.id ≠ entry.1.id) ++ [entry.2]

theorem lookup_filter (live : List FileAnalysisSnapshot) (sourceUnit : SourceUnitId) :
    lookup (live.filter (·.id ≠ sourceUnit)) = Function.update (lookup live) sourceUnit none := by
  funext u
  by_cases hu : u = sourceUnit
  · subst hu
    rw [Function.update_self, lookup, List.find?_eq_none]
    intro snapshot hs
    simpa using (List.mem_filter.1 hs).2
  · rw [Function.update_of_ne hu, lookup, lookup, List.find?_filter]
    congr 1
    funext snapshot
    by_cases h : snapshot.id = u
    · simp [h, hu]
    · simp [h]

theorem lookup_commitLive {live : List FileAnalysisSnapshot} {entry : SourceUnit × FileAnalysisSnapshot}
    (h : entry.2.id = entry.1.id) :
    lookup (commitLive live entry) = (lookup live).replace entry := by
  funext u
  have hfilter := congrFun (lookup_filter live entry.1.id) u
  unfold lookup at hfilter
  rw [lookup, commitLive, List.find?_append, hfilter, SnapshotMap.replace]
  by_cases hu : u = entry.1.id
  · subst hu; simp [h]
  · have hu' : entry.1.id ≠ u := Ne.symm hu
    simp [hu, h, hu', lookup]

section
variable {m : SnapshotMap} {entries : List (SourceUnit × FileAnalysisSnapshot)} {u : SourceUnitId}

theorem foldl_replace_of_notMem (h : u ∉ entries.map (·.1.id)) : entries.foldl SnapshotMap.replace m u = m u := by
  induction entries generalizing m with
  | nil => rfl
  | cons entry entries ih =>
    rw [List.map_cons, List.mem_cons, not_or] at h
    rw [List.foldl_cons, ih h.2, SnapshotMap.replace, Function.update_of_ne h.1]

theorem foldl_replace_of_mem (h : u ∈ entries.map (·.1.id)) :
    ∃ entry ∈ entries, entry.1.id = u ∧ entries.foldl SnapshotMap.replace m u = some entry.2 := by
  induction entries generalizing m with
  | nil => exact absurd h (List.not_mem_nil)
  | cons entry entries ih =>
    by_cases hrest : u ∈ entries.map (·.1.id)
    · obtain ⟨other, hother, hid, hmap⟩ := ih (m := m.replace entry) hrest
      exact ⟨other, List.mem_cons_of_mem _ hother, hid, hmap⟩
    · rw [List.map_cons, List.mem_cons] at h
      have hu : u = entry.1.id := h.resolve_right hrest
      refine ⟨entry, List.mem_cons_self, hu.symm, ?_⟩
      rw [List.foldl_cons, foldl_replace_of_notMem hrest, SnapshotMap.replace, hu, Function.update_self]

end

theorem Holds.replaced {store store' : IndexStore} {live : List FileAnalysisSnapshot}
    {expected : SourceUnit} {snapshot : FileAnalysisSnapshot} (h : Holds store live)
    (hrun : runStatements (deleteFileOwnedFacts expected.id ++ insertSnapshot snapshot) store = .ok store') :
    Holds store' (commitLive live (expected, snapshot)) := by
  rw [runStatements_append, deleteFileOwnedFacts_run] at hrun
  exact (h.without expected.id).insert hrun

theorem Holds.batch {entries : List (SourceUnit × FileAnalysisSnapshot)} {store store' : IndexStore}
    {live : List FileAnalysisSnapshot} (h : Holds store live)
    (hrun : runStatements (batchStatements entries) store = .ok store') :
    Holds store' (entries.foldl commitLive live) := by
  induction entries generalizing store live with
  | nil => cases hrun; exact h
  | cons entry entries ih =>
    rw [batchStatements, List.flatMap_cons, runStatements_append, bind_eq_ok_iff] at hrun
    obtain ⟨middle, hentry, hrest⟩ := hrun
    exact ih (h.replaced hentry) hrest

theorem lookup_batch {entries : List (SourceUnit × FileAnalysisSnapshot)} {live : List FileAnalysisSnapshot}
    (h : ∀ entry ∈ entries, entry.2.id = entry.1.id) :
    lookup (entries.foldl commitLive live) =
      entries.foldl SnapshotMap.replace (lookup live) := by
  induction entries generalizing live with
  | nil => rfl
  | cons entry entries ih =>
    rw [List.foldl_cons, List.foldl_cons, ih fun e he => h e (List.mem_cons_of_mem _ he),
      lookup_commitLive (h entry List.mem_cons_self)]

/-- **Step.** Each operation keeps the store and the map together. -/
theorem StoreOperation.step_holds {state : IndexStore × SnapshotMap} {live : List FileAnalysisSnapshot}
    (h : Holds state.1 live) (hm : state.2 = lookup live) (operation : Disk × StoreOperation) :
    ∃ live', Holds (step state operation).1 live' ∧ (step state operation).2 = lookup live' := by
  obtain ⟨disk, operation⟩ := operation
  obtain ⟨store, m⟩ := state
  simp only at h hm
  subst hm
  cases hout : operation.run disk store with
  | mk outcome store' =>
  simp only [step, hout]
  have hfst : (operation.run disk store).1 = outcome := by rw [hout]
  have hsnd : (operation.run disk store).2 = store' := by rw [hout]
  cases outcome with
  | error e => exact ⟨live, (StoreOperation.run_error hfst).symm.trans hsnd ▸ h, rfl⟩
  | ok _ =>
    subst hsnd
    cases operation with
    | replaceSnapshot expected snapshot =>
      obtain ⟨hvalid, hrun⟩ := replaceSnapshot_ok hfst
      have hm : lookup (commitLive live (expected, snapshot)) = (lookup live).replace (expected, snapshot) :=
        lookup_commitLive hvalid.id
      exact ⟨_, h.replaced hrun, hm.symm⟩
    | replaceSnapshotsBatch entries =>
      obtain ⟨hvalid, hrun⟩ := replaceSnapshotsBatch_ok hfst
      exact ⟨_, h.batch hrun, (lookup_batch fun entry he => (hvalid entry he).id).symm⟩
    | removeSnapshot sourceUnit =>
      have hstore : (run disk (removeSnapshot sourceUnit) store).2 = store.without sourceUnit :=
        removeSnapshot_ok hfst
      exact ⟨_, hstore ▸ h.without sourceUnit, (lookup_filter live sourceUnit).symm⟩

/-- **Run.** -/
theorem StoreOperation.run_holds (operations : List (Disk × StoreOperation)) {state : IndexStore × SnapshotMap}
    {live : List FileAnalysisSnapshot} (h : Holds state.1 live) (hm : state.2 = lookup live) :
    ∃ live', Holds (operations.foldl step state).1 live' ∧ (operations.foldl step state).2 = lookup live' := by
  induction operations generalizing state live with
  | nil => exact ⟨live, h, hm⟩
  | cons operation operations ih =>
    obtain ⟨live', h', hm'⟩ := step_holds h hm operation
    exact ih h' hm'

/-! ## The tables, one by one -/

section Tables
variable (snapshot : FileAnalysisSnapshot)

theorem flatMap_nothing {α τ : Type} (l : List α) : (l.flatMap fun _ => ([] : List τ)) = [] :=
  List.flatMap_eq_nil_iff.2 fun _ _ => rfl

/-- The part of a snapshot's rows that a projection selects. -/
theorem rows_filterMap {τ : Type} (g : FactRow → Option τ) :
    snapshot.rows.filterMap g =
      (g (.sourceSnapshots snapshot.snapshotRow)).toList
      ++ (g (.sourceProvenance snapshot.provenanceRow)).toList
      ++ snapshot.symbols.flatMap (fun s => (g (.symbols (s.row snapshot.sourceUnit))).toList
          ++ (s.annotationRows snapshot.sourceUnit).filterMap fun e => g (.annotationEdges e))
      ++ snapshot.applications.flatMap (fun a => (g (.applications (a.row snapshot.sourceUnit))).toList
          ++ a.argumentRows.filterMap fun e => g (.applicationArguments e))
      ++ snapshot.occurrences.filterMap (fun o => g (.occurrences (o.row snapshot.sourceUnit)))
      ++ snapshot.references.filterMap (fun r => g (.referenceEdges (r.row snapshot.sourceUnit)))
      ++ snapshot.calls.filterMap (fun c => g (.callEdges (c.row snapshot.sourceUnit)))
      ++ snapshot.hierarchy.filterMap (fun h => g (.hierarchyEdges (h.row snapshot.sourceUnit)))
      ++ snapshot.types.filterMap (fun t => g (.typeRecords (t.row snapshot.sourceUnit)))
      ++ snapshot.diagnostics.filterMap (fun d => g (.diagnostics (d.row snapshot.sourceUnit))) := by
  have hcons : ∀ row rest, (row :: rest).filterMap g = (g row).toList ++ rest.filterMap g := by
    intro row rest
    cases h : g row <;> simp [h]
  simp only [FileAnalysisSnapshot.rows, FileAnalysisSnapshot.symbolFacts, FileAnalysisSnapshot.applicationFacts,
    List.filterMap_append, List.filterMap_flatMap, List.filterMap_map, hcons, List.filterMap_nil,
    List.append_nil, Function.comp_def]

theorem rows_inSourceSnapshots :
    snapshot.rows.filterMap FactRow.inSourceSnapshots = [snapshot.snapshotRow] := by
  rw [rows_filterMap]; simp [FactRow.inSourceSnapshots]

theorem rows_inSourceProvenance :
    snapshot.rows.filterMap FactRow.inSourceProvenance = [snapshot.provenanceRow] := by
  rw [rows_filterMap]; simp [FactRow.inSourceProvenance]

theorem rows_inSymbols :
    snapshot.rows.filterMap FactRow.inSymbols = snapshot.symbols.map (·.row snapshot.sourceUnit) := by
  rw [rows_filterMap]; simp [FactRow.inSymbols, List.map_eq_flatMap]

theorem rows_inAnnotationEdges :
    snapshot.rows.filterMap FactRow.inAnnotationEdges = snapshot.symbols.flatMap (·.annotationRows snapshot.sourceUnit) := by
  rw [rows_filterMap]; simp [FactRow.inAnnotationEdges]

theorem rows_inApplications :
    snapshot.rows.filterMap FactRow.inApplications = snapshot.applications.map (·.row snapshot.sourceUnit) := by
  rw [rows_filterMap]; simp [FactRow.inApplications, List.map_eq_flatMap]

theorem rows_inApplicationArguments :
    snapshot.rows.filterMap FactRow.inApplicationArguments = snapshot.applications.flatMap (·.argumentRows) := by
  rw [rows_filterMap]; simp [FactRow.inApplicationArguments]

theorem rows_inOccurrences :
    snapshot.rows.filterMap FactRow.inOccurrences = snapshot.occurrences.map (·.row snapshot.sourceUnit) := by
  rw [rows_filterMap]; simp [FactRow.inOccurrences, flatMap_nothing]

theorem rows_inReferenceEdges :
    snapshot.rows.filterMap FactRow.inReferenceEdges = snapshot.references.map (·.row snapshot.sourceUnit) := by
  rw [rows_filterMap]; simp [FactRow.inReferenceEdges, flatMap_nothing]

theorem rows_inCallEdges :
    snapshot.rows.filterMap FactRow.inCallEdges = snapshot.calls.map (·.row snapshot.sourceUnit) := by
  rw [rows_filterMap]; simp [FactRow.inCallEdges, flatMap_nothing]

theorem rows_inHierarchyEdges :
    snapshot.rows.filterMap FactRow.inHierarchyEdges = snapshot.hierarchy.map (·.row snapshot.sourceUnit) := by
  rw [rows_filterMap]; simp [FactRow.inHierarchyEdges, flatMap_nothing]

theorem rows_inTypeRecords :
    snapshot.rows.filterMap FactRow.inTypeRecords = snapshot.types.map (·.row snapshot.sourceUnit) := by
  rw [rows_filterMap]; simp [FactRow.inTypeRecords, flatMap_nothing]

theorem rows_inDiagnostics :
    snapshot.rows.filterMap FactRow.inDiagnostics = snapshot.diagnostics.map (·.row snapshot.sourceUnit) := by
  rw [rows_filterMap]; simp [FactRow.inDiagnostics, flatMap_nothing]

end Tables

/-! ## Refinement -/

/-- Table by table, the rows of a unit are the facts of the snapshot the map holds for it, and no
other row is left. -/
structure Refines (store : IndexStore) (m : SnapshotMap) : Prop where
  sourceSnapshots : ∀ u, store.sourceSnapshots.filter (·.sourceUnitId = u) =
    (m u).toList.map (·.snapshotRow)
  sourceProvenance : ∀ u, store.sourceProvenance.filter (·.sourceUnitId = u) =
    (m u).toList.map (·.provenanceRow)
  symbols : ∀ u, store.symbols.filter (·.sourceUnitId = u) =
    (m u).toList.flatMap fun snapshot => snapshot.symbols.map (·.row snapshot.sourceUnit)
  annotationEdges : ∀ u, store.annotationEdges.filter (·.sourceUnitId = u) =
    (m u).toList.flatMap fun snapshot => snapshot.symbols.flatMap (·.annotationRows snapshot.sourceUnit)
  applications : ∀ u, store.applications.filter (·.sourceUnitId = u) =
    (m u).toList.flatMap fun snapshot => snapshot.applications.map (·.row snapshot.sourceUnit)
  applicationArguments : ∀ u,
    store.applicationArguments.filter (fun row => applicationOf store.facts u row.applicationId) =
      (m u).toList.flatMap fun snapshot => snapshot.applications.flatMap (·.argumentRows)
  occurrences : ∀ u, store.occurrences.filter (·.sourceUnitId = u) =
    (m u).toList.flatMap fun snapshot => snapshot.occurrences.map (·.row snapshot.sourceUnit)
  referenceEdges : ∀ u, store.referenceEdges.filter (·.sourceUnitId = u) =
    (m u).toList.flatMap fun snapshot => snapshot.references.map (·.row snapshot.sourceUnit)
  callEdges : ∀ u, store.callEdges.filter (·.sourceUnitId = u) =
    (m u).toList.flatMap fun snapshot => snapshot.calls.map (·.row snapshot.sourceUnit)
  hierarchyEdges : ∀ u, store.hierarchyEdges.filter (·.sourceUnitId = u) =
    (m u).toList.flatMap fun snapshot => snapshot.hierarchy.map (·.row snapshot.sourceUnit)
  typeRecords : ∀ u, store.typeRecords.filter (·.sourceUnitId = u) =
    (m u).toList.flatMap fun snapshot => snapshot.types.map (·.row snapshot.sourceUnit)
  diagnostics : ∀ u, store.diagnostics.filter (·.sourceUnitId = u) =
    (m u).toList.flatMap fun snapshot => snapshot.diagnostics.map (·.row snapshot.sourceUnit)
  held : ∀ row ∈ store.facts, ∃ u snapshot, m u = some snapshot ∧ row ∈ snapshot.rows
  argument_application : ∀ argument ∈ store.applicationArguments,
    ∃ application ∈ store.applications, application.applicationId = argument.applicationId
  annotation_symbol : ∀ edge ∈ store.annotationEdges,
    ∃ symbol ∈ store.symbols, symbol.sourceUnitId = edge.sourceUnitId ∧ symbol.symbolId = edge.symbolId

section Projections
variable {store : IndexStore} {live : List FileAnalysisSnapshot} {τ : Type}

/-- A table is the part of every live snapshot that belongs to it. -/
theorem Holds.table (h : Holds store live) (g : FactRow → Option τ) :
    store.facts.filterMap g = live.flatMap fun snapshot => snapshot.rows.filterMap g := by
  rw [h.facts, List.filterMap_flatMap]

theorem Holds.table_mem (h : Holds store live) {g : FactRow → Option τ} {r : τ}
    (hr : r ∈ store.facts.filterMap g) : ∃ snapshot ∈ live, ∃ row ∈ snapshot.rows, g row = some r := by
  obtain ⟨row, hrow, hg⟩ := List.mem_filterMap.1 hr
  obtain ⟨snapshot, hs, hmem⟩ := h.mem_facts.1 hrow
  exact ⟨snapshot, hs, row, hmem, hg⟩

/-- The rows a table keeps for a unit. -/
theorem Holds.table_filter (h : Holds store live) {g : FactRow → Option τ} {part : FileAnalysisSnapshot → List τ}
    (hpart : ∀ snapshot, snapshot.rows.filterMap g = part snapshot) (u : SourceUnitId) {p : τ → Bool}
    (hp : ∀ snapshot ∈ live, ∀ row ∈ snapshot.rows, ∀ r, g row = some r → p r = decide (snapshot.id = u)) :
    (store.facts.filterMap g).filter p = (lookup live u).toList.flatMap part := by
  rw [h.table g]
  simp only [hpart]
  refine filter_flatMap_owner h.ids_nodup fun snapshot hs r hr => ?_
  rw [← hpart, List.mem_filterMap] at hr
  obtain ⟨row, hrow, hg⟩ := hr
  exact hp snapshot hs row hrow r hg

end Projections

theorem Holds.refines {store : IndexStore} {live : List FileAnalysisSnapshot} (h : Holds store live) :
    Refines store (lookup live) := by
  -- a row of a table with its own unit column
  have hcolumn {τ : Type} {g : FactRow → Option τ} {unit : τ → SourceUnitId}
      (hg : ∀ row r, g row = some r → row.sourceUnitId = some (unit r)) (u : SourceUnitId) :
      ∀ snapshot ∈ live, ∀ row ∈ snapshot.rows, ∀ r, g row = some r →
        decide (unit r = u) = decide (snapshot.id = u) := by
    intro snapshot _ row hrow r hr
    rcases sourceUnitId_of_mem_rows hrow with hunit | ⟨argument, rfl⟩
    · rw [hg row r hr, Option.some.injEq] at hunit
      rw [hunit]
    · cases hg _ r hr
  refine {
    sourceSnapshots := fun u => (h.table_filter rows_inSourceSnapshots u (hcolumn ?_ u)).trans List.map_eq_flatMap.symm
    sourceProvenance := fun u => (h.table_filter rows_inSourceProvenance u (hcolumn ?_ u)).trans List.map_eq_flatMap.symm
    symbols := fun u => h.table_filter rows_inSymbols u (hcolumn ?_ u)
    annotationEdges := fun u => h.table_filter rows_inAnnotationEdges u (hcolumn ?_ u)
    applications := fun u => h.table_filter rows_inApplications u (hcolumn ?_ u)
    occurrences := fun u => h.table_filter rows_inOccurrences u (hcolumn ?_ u)
    referenceEdges := fun u => h.table_filter rows_inReferenceEdges u (hcolumn ?_ u)
    callEdges := fun u => h.table_filter rows_inCallEdges u (hcolumn ?_ u)
    hierarchyEdges := fun u => h.table_filter rows_inHierarchyEdges u (hcolumn ?_ u)
    typeRecords := fun u => h.table_filter rows_inTypeRecords u (hcolumn ?_ u)
    diagnostics := fun u => h.table_filter rows_inDiagnostics u (hcolumn ?_ u)
    applicationArguments := ?arguments
    held := ?held
    argument_application := ?argumentApplication
    annotation_symbol := ?annotationSymbol }
  case arguments =>
    refine fun u => h.table_filter rows_inApplicationArguments u fun snapshot hs row hrow r hr => ?_
    cases row <;> cases hr
    exact h.ownedBy_iff hs hrow u
  case held =>
    intro row hrow
    obtain ⟨snapshot, hs, hmem⟩ := h.mem_facts.1 hrow
    exact ⟨snapshot.id, snapshot, (find_eq_some_iff h.ids_nodup).2 ⟨hs, rfl⟩, hmem⟩
  case argumentApplication =>
    intro argument hargument
    obtain ⟨snapshot, hs, row, hrow, hr⟩ := h.table_mem hargument
    cases row <;> cases hr
    obtain ⟨application, happ, -, hid⟩ := application_of_argument hrow
    exact ⟨application, List.mem_filterMap.2 ⟨_, h.mem_facts.2 ⟨snapshot, hs, happ⟩, rfl⟩, hid⟩
  case annotationSymbol =>
    intro edge hedge
    obtain ⟨snapshot, hs, row, hrow, hr⟩ := h.table_mem hedge
    cases row <;> cases hr
    obtain ⟨symbol, hsymbol, hunit, hid⟩ := symbol_of_annotation hrow
    exact ⟨symbol, List.mem_filterMap.2 ⟨_, h.mem_facts.2 ⟨snapshot, hs, hsymbol⟩, rfl⟩, hunit, hid⟩
  all_goals
    intro row r hr
    cases row <;> cases hr
    rfl

/-- The stores that sequences of operations lead to. -/
def IndexStore.Reachable (store : IndexStore) : Prop :=
  ∃ (start : IndexStore) (operations : List (Disk × StoreOperation)),
    store = (operations.foldl StoreOperation.step ({ start with facts := [] }, fun _ => none)).1

theorem IndexStore.Reachable.holds {store : IndexStore} (h : store.Reachable) : ∃ live, Holds store live := by
  obtain ⟨start, operations, rfl⟩ := h
  let state : IndexStore × SnapshotMap := ({ start with facts := [] }, fun _ => none)
  have hstart : Holds state.1 [] := Holds.empty start
  obtain ⟨live, hlive, -⟩ := StoreOperation.run_holds operations hstart rfl
  exact ⟨live, hlive⟩

/-- Every snapshot the map holds passed validation. -/
def SnapshotMap.Valid (m : SnapshotMap) : Prop :=
  ∀ u snapshot, m u = some snapshot → ValidSnapshot snapshot.sourceUnit snapshot

theorem SnapshotMap.Valid.commitAll {m : SnapshotMap} (h : m.Valid) {entries : List (SourceUnit × FileAnalysisSnapshot)}
    (hentries : ∀ entry ∈ entries, ValidSnapshot entry.1 entry.2) : SnapshotMap.Valid (entries.foldl SnapshotMap.replace m) := by
  intro u snapshot hsnapshot
  by_cases hu : u ∈ entries.map (·.1.id)
  · obtain ⟨entry, hentry, -, hmap⟩ := foldl_replace_of_mem (m := m) hu
    obtain rfl : entry.2 = snapshot := Option.some.inj (hmap.symm.trans hsnapshot)
    exact (hentries entry hentry).self
  · rw [foldl_replace_of_notMem hu] at hsnapshot
    exact h u snapshot hsnapshot

theorem StoreOperation.step_valid {state : IndexStore × SnapshotMap} (h : state.2.Valid) (operation : Disk × StoreOperation) :
    (step state operation).2.Valid := by
  obtain ⟨disk, operation⟩ := operation
  obtain ⟨store, m⟩ := state
  cases hout : operation.run disk store with
  | mk outcome store' =>
  simp only [step, hout]
  have hfst : (operation.run disk store).1 = outcome := by rw [hout]
  cases outcome with
  | error e => exact h
  | ok _ =>
    cases operation with
    | replaceSnapshot expected snapshot =>
      have hvalid := (replaceSnapshot_ok hfst).1
      have hcommit : ∀ entry ∈ [(expected, snapshot)], ValidSnapshot entry.1 entry.2 := fun entry he =>
        (List.mem_singleton.1 he) ▸ hvalid
      exact h.commitAll hcommit
    | replaceSnapshotsBatch entries => exact h.commitAll (replaceSnapshotsBatch_ok hfst).1
    | removeSnapshot sourceUnit =>
      intro u snapshot hsnapshot
      have hupdate : Function.update m sourceUnit none u = some snapshot := hsnapshot
      by_cases hu : u = sourceUnit
      · rw [hu, Function.update_self] at hupdate
        cases hupdate
      · rw [Function.update_of_ne hu] at hupdate
        exact h u snapshot hupdate

theorem StoreOperation.run_valid (operations : List (Disk × StoreOperation)) {state : IndexStore × SnapshotMap}
    (h : state.2.Valid) : (operations.foldl step state).2.Valid := by
  induction operations generalizing state with
  | nil => exact h
  | cons operation operations ih => exact ih (step_valid h operation)

theorem IndexStore.Reachable.valid {store : IndexStore} (h : store.Reachable) :
    ∃ live, Holds store live ∧ SnapshotMap.Valid (lookup live) := by
  obtain ⟨start, operations, rfl⟩ := h
  let state : IndexStore × SnapshotMap := ({ start with facts := [] }, fun _ => none)
  have hstart : Holds state.1 [] := Holds.empty start
  obtain ⟨live, hlive, hm⟩ := StoreOperation.run_holds operations hstart rfl
  have hvalid : state.2.Valid := fun _ _ hnone => (nomatch hnone)
  exact ⟨live, hlive, hm ▸ StoreOperation.run_valid operations hvalid⟩

/-- One more operation, committed or not. -/
theorem IndexStore.Reachable.run {store : IndexStore} (h : store.Reachable) (disk : Disk)
    (operation : StoreOperation) : (operation.run disk store).2.Reachable := by
  obtain ⟨start, operations, rfl⟩ := h
  refine ⟨start, operations ++ [(disk, operation)], ?_⟩
  rw [List.foldl_append, List.foldl_cons, List.foldl_nil, StoreOperation.step]
  split
  · next hrun => rw [hrun]
  · next hrun => rw [hrun]

theorem IndexStore.reachable_empty (store : IndexStore) : ({ store with facts := [] } : IndexStore).Reachable :=
  ⟨store, [], rfl⟩

/-- **Refinement.** Over every sequence of operations, on every disk, the tables hold exactly the
snapshots last committed, and an operation that fails changes nothing. -/
theorem operations_refine (store : IndexStore) (operations : List (Disk × StoreOperation)) :
    let state := operations.foldl StoreOperation.step ({ store with facts := [] }, fun _ => none)
    Refines state.1 state.2 ∧
      ∀ (disk : Disk) (operation : StoreOperation) (e : IndexStoreError),
        (operation.run disk state.1).1 = .error e → (operation.run disk state.1).2 = state.1 := by
  let start : IndexStore × SnapshotMap := ({ store with facts := [] }, fun _ => none)
  have hstart : Holds start.1 [] := Holds.empty store
  obtain ⟨live, hlive, hm⟩ := StoreOperation.run_holds operations hstart rfl
  exact ⟨hm ▸ hlive.refines, fun disk operation e h => StoreOperation.run_error h⟩

end Kide
