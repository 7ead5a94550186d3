import Kide.Store.Rows

/-!
# The snapshots a store holds

`Holds store live`: the fact tables are the rows of the snapshots `live`, in the order they were
committed, under unique keys. It is the invariant of the index: deletion takes one snapshot out of
`live`, insertion puts one behind it, and a row always belongs to exactly one of them.
-/

namespace Kide
open Tables Transactions

/-- The store holds the snapshots `live`, committed in this order. -/
structure Holds (store : IndexStore) (live : List FileAnalysisSnapshot) : Prop where
  facts : store.facts = live.flatMap (·.rows)
  unique : KeysUnique FactRow.key store.facts

/-- The unit a snapshot replaces. -/
def FileAnalysisSnapshot.id (snapshot : FileAnalysisSnapshot) : SourceUnitId := snapshot.sourceUnit.id

/-! ## Rows of one snapshot -/

theorem mem_rows_iff {snapshot : FileAnalysisSnapshot} {row : FactRow} :
    row ∈ snapshot.rows ↔
      row = .sourceSnapshots snapshot.snapshotRow ∨ row = .sourceProvenance snapshot.provenanceRow ∨
      (∃ symbol ∈ snapshot.symbols, row = .symbols (symbol.row snapshot.sourceUnit) ∨
        ∃ edge ∈ symbol.annotationRows snapshot.sourceUnit, row = .annotationEdges edge) ∨
      (∃ application ∈ snapshot.applications, row = .applications (application.row snapshot.sourceUnit) ∨
        ∃ argument ∈ application.argumentRows, row = .applicationArguments argument) ∨
      (∃ o ∈ snapshot.occurrences, row = .occurrences (o.row snapshot.sourceUnit)) ∨
      (∃ r ∈ snapshot.references, row = .referenceEdges (r.row snapshot.sourceUnit)) ∨
      (∃ c ∈ snapshot.calls, row = .callEdges (c.row snapshot.sourceUnit)) ∨
      (∃ h ∈ snapshot.hierarchy, row = .hierarchyEdges (h.row snapshot.sourceUnit)) ∨
      (∃ t ∈ snapshot.types, row = .typeRecords (t.row snapshot.sourceUnit)) ∨
      ∃ d ∈ snapshot.diagnostics, row = .diagnostics (d.row snapshot.sourceUnit) := by
  simp only [FileAnalysisSnapshot.rows, FileAnalysisSnapshot.symbolFacts, FileAnalysisSnapshot.applicationFacts,
    List.mem_append, List.mem_cons, List.mem_flatMap, List.mem_map, List.not_mem_nil, or_false, or_assoc, eq_comm]

theorem symbolRow_mem {snapshot : FileAnalysisSnapshot} {symbol : SymbolRecord} (h : symbol ∈ snapshot.symbols) :
    .symbols (symbol.row snapshot.sourceUnit) ∈ snapshot.rows :=
  mem_rows_iff.2 (.inr (.inr (.inl ⟨symbol, h, .inl rfl⟩)))

theorem applicationRow_mem {snapshot : FileAnalysisSnapshot} {application : ApplicationFact}
    (h : application ∈ snapshot.applications) :
    .applications (application.row snapshot.sourceUnit) ∈ snapshot.rows :=
  mem_rows_iff.2 (.inr (.inr (.inr (.inl ⟨application, h, .inl rfl⟩))))

/-- An argument row stands next to its application. -/
theorem application_of_argument {snapshot : FileAnalysisSnapshot} {argument : ApplicationArgumentRow}
    (h : .applicationArguments argument ∈ snapshot.rows) :
    ∃ row, FactRow.applications row ∈ snapshot.rows ∧ row.sourceUnitId = snapshot.id ∧
      row.applicationId = argument.applicationId := by
  rw [mem_rows_iff] at h
  simp only [reduceCtorEq, false_or, or_false, and_false, exists_false, FactRow.applicationArguments.injEq,
    exists_eq_right'] at h
  obtain ⟨application, ha, hargument⟩ := h
  obtain ⟨_, -, rfl⟩ := List.mem_map.1 hargument
  exact ⟨application.row snapshot.sourceUnit, applicationRow_mem ha, rfl, rfl⟩

/-- An annotation edge stands next to its symbol. -/
theorem symbol_of_annotation {snapshot : FileAnalysisSnapshot} {edge : AnnotationEdgeRow}
    (h : .annotationEdges edge ∈ snapshot.rows) :
    ∃ row, FactRow.symbols row ∈ snapshot.rows ∧ row.sourceUnitId = edge.sourceUnitId ∧
      row.symbolId = edge.symbolId := by
  rw [mem_rows_iff] at h
  simp only [reduceCtorEq, false_or, or_false, and_false, exists_false, FactRow.annotationEdges.injEq,
    exists_eq_right'] at h
  obtain ⟨symbol, hs, hedge⟩ := h
  obtain ⟨_, -, rfl⟩ := List.mem_map.1 hedge
  exact ⟨symbol.row snapshot.sourceUnit, symbolRow_mem hs, rfl, rfl⟩

/-- Every row of a snapshot but its arguments carries the snapshot's unit. -/
theorem sourceUnitId_of_mem_rows {snapshot : FileAnalysisSnapshot} {row : FactRow} (h : row ∈ snapshot.rows) :
    row.sourceUnitId = some snapshot.id ∨ ∃ argument, row = .applicationArguments argument := by
  rw [mem_rows_iff] at h
  obtain rfl | rfl | ⟨s, -, rfl | ⟨e, he, rfl⟩⟩ | ⟨a, -, rfl | ⟨g, -, rfl⟩⟩ | ⟨o, -, rfl⟩ | ⟨r, -, rfl⟩ | ⟨c, -, rfl⟩ |
    ⟨h, -, rfl⟩ | ⟨t, -, rfl⟩ | ⟨d, -, rfl⟩ := h
  case inr.inr.inl.inr =>
    obtain ⟨_, -, rfl⟩ := List.mem_map.1 he
    exact .inl rfl
  case inr.inr.inr.inl.inr => exact .inr ⟨g, rfl⟩
  all_goals exact .inl rfl

/-! ## The live snapshots -/

theorem Holds.empty (store : IndexStore) : Holds { store with facts := [] } [] :=
  ⟨rfl, keysUnique_nil FactRow.key⟩

variable {store store' : IndexStore} {live : List FileAnalysisSnapshot}

theorem Holds.mem_facts (h : Holds store live) {row : FactRow} :
    row ∈ store.facts ↔ ∃ snapshot ∈ live, row ∈ snapshot.rows := by
  rw [h.facts, List.mem_flatMap]

theorem snapshotRows_sublist (live : List FileAnalysisSnapshot) :
    (live.map fun snapshot => FactRow.sourceSnapshots snapshot.snapshotRow).Sublist (live.flatMap (·.rows)) := by
  induction live with
  | nil => exact .slnil
  | cons snapshot live ih =>
    rw [List.flatMap_cons]
    exact (ih.trans (List.sublist_append_right (snapshot.rows.tail) _)).cons_cons _

/-- No unit has two snapshots. -/
theorem Holds.ids_nodup (h : Holds store live) : (live.map (·.id)).Nodup := by
  have hu := h.unique
  rw [h.facts] at hu
  have hs := hu.sublist FactRow.key (snapshotRows_sublist live)
  rw [KeysUnique, keys_map] at hs
  have hmap : live.filterMap (fun snapshot => (FactRow.sourceSnapshots snapshot.snapshotRow).key) =
      (live.map (·.id)).map .sourceSnapshots := by
    rw [List.map_map, ← List.filterMap_eq_map]; rfl
  rw [hmap] at hs
  exact hs.of_map _

/-- Ownership decides which snapshot a row is of. -/
theorem Holds.ownedBy_iff (h : Holds store live) {snapshot : FileAnalysisSnapshot} (hs : snapshot ∈ live)
    {row : FactRow} (hr : row ∈ snapshot.rows) (sourceUnit : SourceUnitId) :
    ownedBy store.facts sourceUnit row = decide (snapshot.id = sourceUnit) := by
  rcases sourceUnitId_of_mem_rows hr with hunit | ⟨argument, rfl⟩
  · cases row <;> simp_all [ownedBy, FactRow.sourceUnitId]
  · obtain ⟨app, happ, hunit, hid⟩ := application_of_argument hr
    have hmem : FactRow.applications app ∈ store.facts := h.mem_facts.2 ⟨snapshot, hs, happ⟩
    rw [ownedBy, Bool.eq_iff_iff, applicationOf, List.any_eq_true, decide_eq_true_iff]
    constructor
    · rintro ⟨other, hother, htest⟩
      cases other <;> simp only [Bool.false_eq_true, Bool.and_eq_true, decide_eq_true_eq] at htest
      case applications other =>
        have heq := h.unique.eq_of_key_eq FactRow.key hother hmem (k := .applications argument.applicationId)
          (by rw [FactRow.key, htest.2]) (by rw [FactRow.key, hid])
        rw [← hunit, ← htest.1, FactRow.applications.inj heq]
    · intro hu
      exact ⟨_, hmem, by simp [hunit, hid, hu]⟩

/-- Deletion takes the unit's snapshot out. -/
theorem Holds.without (h : Holds store live) (sourceUnit : SourceUnitId) :
    Holds (store.without sourceUnit) (live.filter (·.id ≠ sourceUnit)) := by
  refine ⟨?_, h.unique.filter FactRow.key _⟩
  have hown := fun s hs r (hr : r ∈ FileAnalysisSnapshot.rows s) => h.ownedBy_iff hs hr sourceUnit
  have := filter_not_flatMap_owner hown
  rw [← h.facts] at this
  exact this

/-- Insertion puts the snapshot behind the others. -/
theorem Holds.insert (h : Holds store live) {snapshot : FileAnalysisSnapshot}
    (hrun : runStatements (insertSnapshot snapshot) store = .ok store') : Holds store' (live ++ [snapshot]) := by
  obtain ⟨-, hnd, hdis, rfl⟩ := insertSnapshot_ok_iff.1 hrun
  refine ⟨?_, (keysUnique_append FactRow.key).2 ⟨h.unique, hnd, hdis⟩⟩
  rw [List.flatMap_append, ← h.facts, List.flatMap_singleton]

end Kide
