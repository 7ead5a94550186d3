import Kide.Store.Storable
import Mathlib.Data.List.Sort

/-!
# Queries

The reads of `store.rs` that planning, invalidation and `kide status` use. `ORDER BY` is an
insertion sort on the columns named, `JOIN … USING (source_unit_id)` a match on that column.

Each query has a lemma that says what it returns on a store that `Holds` given snapshots.
-/

namespace Kide

/-- A persisted source input with the provenance that produced it. -/
structure AnalysisInput where
  sourceUnit : SourceUnit
  provenance : Provenance
  publicApiFingerprint : Option Fingerprint
deriving DecidableEq, Repr

/-- Minimal persisted identity for checking an indexed source against the filesystem. -/
structure SourceSnapshotInput where
  id : SourceUnitId
  content : Fingerprint
deriving DecidableEq, Repr

def SourceUnitId.le (a b : SourceUnitId) : Prop := a.asStr ≤ b.asStr

instance : DecidableRel SourceUnitId.le := fun a b => inferInstanceAs (Decidable (a.asStr ≤ b.asStr))

def SymbolId.le (a b : SymbolId) : Prop := a.asStr ≤ b.asStr

instance : DecidableRel SymbolId.le := fun a b => inferInstanceAs (Decidable (a.asStr ≤ b.asStr))

theorem SymbolId.eq_of_le {a b : SymbolId} (hab : a.le b) (hba : b.le a) : a = b := by
  obtain ⟨a⟩ := a
  obtain ⟨b⟩ := b
  exact congrArg SymbolId.mk (String.le_antisymm hab hba)

theorem pairwise_sortedSymbols (symbols : List SymbolId) : (symbols.insertionSort SymbolId.le).Pairwise SymbolId.le := by
  have htotal : Std.Total SymbolId.le := ⟨fun a b => String.le_total _ _⟩
  have htrans : IsTrans SymbolId SymbolId.le := ⟨fun a b c => String.le_trans⟩
  exact List.pairwise_insertionSort _ symbols

theorem sortedSymbols_perm {symbols others : List SymbolId} (h : others.Perm symbols) :
    others.insertionSort SymbolId.le = symbols.insertionSort SymbolId.le := by
  refine List.Perm.eq_of_pairwise (fun a b _ _ => SymbolId.eq_of_le) (pairwise_sortedSymbols _) (pairwise_sortedSymbols _) ?_
  exact (List.perm_insertionSort _ _).trans (h.trans (List.perm_insertionSort _ _).symm)

/-- `ORDER BY source_unit_id, second` -/
def orderByUnitThen {α : Type} (unit : α → SourceUnitId) (second : α → α → Prop) [DecidableRel second]
    (rows : List α) : List α :=
  rows.insertionSort fun a b => (unit a).asStr < (unit b).asStr ∨ (unit a = unit b ∧ second a b)

namespace IndexStore
variable (store : IndexStore)

def sourceUnit (id : SourceUnitId) : Option SourceUnit :=
  (store.sourceSnapshots.find? (·.sourceUnitId = id)).map (·.sourceUnitJson)

/-- Source snapshots `ORDER BY source_unit_id` -/
def orderedSnapshots : List SourceSnapshotRow :=
  store.sourceSnapshots.insertionSort fun a b => a.sourceUnitId.le b.sourceUnitId

def sourceUnits : List SourceUnit := store.orderedSnapshots.map (·.sourceUnitJson)

def sourceSnapshotInputs : List SourceSnapshotInput :=
  store.orderedSnapshots.map fun row => ⟨row.sourceUnitId, row.contentFingerprint⟩

def analysisInputs : List AnalysisInput :=
  store.orderedSnapshots.map fun row => ⟨row.sourceUnitJson, row.provenanceBlob, row.publicApiFingerprint⟩

/-- `symbols JOIN source_snapshots USING (source_unit_id)`, decoded. -/
def joinSymbol (row : SymbolRow) : Option SymbolRecord :=
  (store.sourceSnapshots.find? (·.sourceUnitId = row.sourceUnitId)).map fun snapshot =>
    row.recordBlob.intoSymbol row.symbolId row.name snapshot.sourceUnitJson snapshot.provenanceBlob

def symbolsForSource (sourceUnit : SourceUnitId) : List SymbolRecord :=
  ((store.symbols.filter (·.sourceUnitId = sourceUnit)).insertionSort fun a b =>
    a.nameStartByte < b.nameStartByte ∨
      (a.nameStartByte = b.nameStartByte ∧ a.symbolId.asStr ≤ b.symbolId.asStr)).filterMap store.joinSymbol

def symbol (symbol : SymbolId) : Option SymbolRecord :=
  (store.symbols.find? (·.symbolId = symbol)).bind store.joinSymbol

def referencesTo (symbol : SymbolId) : List ReferenceEdge :=
  (orderByUnitThen (·.sourceUnitId) (fun a b => a.startByte ≤ b.startByte)
    (store.referenceEdges.filter (·.targetSymbolId = symbol))).map (·.recordJson)

def callsTo (symbol : SymbolId) : List CallEdge :=
  (orderByUnitThen (·.sourceUnitId) (fun a b => a.startByte ≤ b.startByte)
    (store.callEdges.filter (·.targetSymbolId = symbol))).map (·.recordJson)

def implementationsOf (symbol : SymbolId) : List HierarchyEdge :=
  (orderByUnitThen (·.sourceUnitId) (fun a b => a.subtypeSymbolId.asStr ≤ b.subtypeSymbolId.asStr)
    (store.hierarchyEdges.filter (·.supertypeSymbolId = symbol))).map (·.recordJson)

/-- Source units whose persisted facts depend on declarations in `source`. -/
def dependentSourceUnits (source : SourceUnitId) : List SourceUnitId :=
  let ids := (store.symbolsForSource source).flatMap fun symbol =>
    (store.referencesTo symbol.id).map (·.source.range.sourceUnit)
    ++ (store.callsTo symbol.id).map (·.source.range.sourceUnit)
    ++ (store.implementationsOf symbol.id).filterMap fun edge =>
        (store.symbol edge.subtype).map (·.declaration.sourceUnit)
  ((ids.filter (· ≠ source)).insertionSort SourceUnitId.le).dedup

end IndexStore

/-! ## What the queries return -/

section
variable {store : IndexStore} {live : List FileAnalysisSnapshot}

theorem Holds.sourceSnapshots (h : Holds store live) : store.sourceSnapshots = live.map (·.snapshotRow) := by
  rw [IndexStore.sourceSnapshots, h.table]
  simp only [rows_inSourceSnapshots, List.map_eq_flatMap]

theorem Holds.mem_orderedSnapshots (h : Holds store live) {row : SourceSnapshotRow} :
    row ∈ store.orderedSnapshots ↔ ∃ snapshot ∈ live, snapshot.snapshotRow = row := by
  rw [IndexStore.orderedSnapshots, List.mem_insertionSort, h.sourceSnapshots, List.mem_map]

theorem Holds.mem_sourceUnits (h : Holds store live) {source : SourceUnit} :
    source ∈ store.sourceUnits ↔ ∃ snapshot ∈ live, snapshot.sourceUnit = source := by
  rw [IndexStore.sourceUnits, List.mem_map]
  simp only [h.mem_orderedSnapshots]
  constructor
  · rintro ⟨_, ⟨snapshot, hs, rfl⟩, rfl⟩
    exact ⟨snapshot, hs, rfl⟩
  · rintro ⟨snapshot, hs, rfl⟩
    exact ⟨_, ⟨snapshot, hs, rfl⟩, rfl⟩

/-- The planning input of a snapshot. -/
def FileAnalysisSnapshot.input (snapshot : FileAnalysisSnapshot) : AnalysisInput :=
  ⟨snapshot.sourceUnit, snapshot.provenance, snapshot.publicApiFingerprint⟩

theorem Holds.mem_analysisInputs (h : Holds store live) {input : AnalysisInput} :
    input ∈ store.analysisInputs ↔ ∃ snapshot ∈ live, snapshot.input = input := by
  rw [IndexStore.analysisInputs, List.mem_map]
  simp only [h.mem_orderedSnapshots]
  constructor
  · rintro ⟨_, ⟨snapshot, hs, rfl⟩, rfl⟩
    exact ⟨snapshot, hs, rfl⟩
  · rintro ⟨snapshot, hs, rfl⟩
    exact ⟨_, ⟨snapshot, hs, rfl⟩, rfl⟩

/-- The join finds the snapshot a symbol row came with. -/
theorem Holds.joinSymbol (h : Holds store live) {snapshot : FileAnalysisSnapshot} (hs : snapshot ∈ live)
    (symbol : SymbolRecord) :
    store.joinSymbol (symbol.row snapshot.sourceUnit) =
      some ((StoredSymbolRecord.fromSymbol symbol).intoSymbol symbol.id symbol.name snapshot.sourceUnit
        snapshot.provenance) := by
  have hfind : store.sourceSnapshots.find? (·.sourceUnitId = snapshot.id) = some snapshot.snapshotRow := by
    rw [h.sourceSnapshots, List.find?_map]
    have := (Tables.find_eq_some_iff h.ids_nodup).2 ⟨hs, rfl⟩
    exact congrArg (Option.map _) this
  rw [IndexStore.joinSymbol, show (symbol.row snapshot.sourceUnit).sourceUnitId = snapshot.id from rfl, hfind]
  rfl

theorem Holds.mem_symbolsForSource (h : Holds store live) {sourceUnit : SourceUnitId} {id : SymbolId} :
    (∃ symbol ∈ store.symbolsForSource sourceUnit, symbol.id = id) ↔
      ∃ snapshot ∈ live, snapshot.id = sourceUnit ∧ id ∈ snapshot.symbolIds := by
  unfold IndexStore.symbolsForSource
  simp only [List.mem_filterMap, List.mem_insertionSort, List.mem_filter, h.mem_symbols_iff, decide_eq_true_eq]
  constructor
  · rintro ⟨_, ⟨_, ⟨⟨snapshot, hs, symbol, hsymbol, rfl⟩, hunit⟩, hjoin⟩, rfl⟩
    rw [h.joinSymbol hs] at hjoin
    cases hjoin
    exact ⟨snapshot, hs, hunit, show symbol.id ∈ snapshot.symbolIds from List.mem_map_of_mem hsymbol⟩
  · rintro ⟨snapshot, hs, hunit, hid⟩
    obtain ⟨symbol, hsymbol, rfl⟩ := List.mem_map.1 hid
    exact ⟨_, ⟨_, ⟨⟨snapshot, hs, symbol, hsymbol, rfl⟩, hunit⟩, h.joinSymbol hs symbol⟩, rfl⟩

theorem mem_orderByUnitThen {α : Type} {unit : α → SourceUnitId} {second : α → α → Prop}
    [DecidableRel second] {rows : List α} {row : α} : row ∈ orderByUnitThen unit second rows ↔ row ∈ rows :=
  List.mem_insertionSort _

theorem Holds.mem_referencesTo (h : Holds store live) {symbol : SymbolId} {reference : ReferenceEdge} :
    reference ∈ store.referencesTo symbol ↔
      ∃ snapshot ∈ live, reference ∈ snapshot.references ∧ reference.target = symbol := by
  unfold IndexStore.referencesTo IndexStore.referenceEdges
  simp only [List.mem_map, mem_orderByUnitThen, List.mem_filter, h.table, List.mem_flatMap, rows_inReferenceEdges,
    decide_eq_true_eq]
  constructor
  · rintro ⟨_, ⟨⟨snapshot, hs, r, hr, rfl⟩, htarget⟩, rfl⟩
    exact ⟨snapshot, hs, hr, htarget⟩
  · rintro ⟨snapshot, hs, hr, htarget⟩
    exact ⟨_, ⟨⟨snapshot, hs, reference, hr, rfl⟩, htarget⟩, rfl⟩

theorem Holds.mem_callsTo (h : Holds store live) {symbol : SymbolId} {call : CallEdge} :
    call ∈ store.callsTo symbol ↔ ∃ snapshot ∈ live, call ∈ snapshot.calls ∧ call.target = symbol := by
  unfold IndexStore.callsTo IndexStore.callEdges
  simp only [List.mem_map, mem_orderByUnitThen, List.mem_filter, h.table, List.mem_flatMap, rows_inCallEdges,
    decide_eq_true_eq]
  constructor
  · rintro ⟨_, ⟨⟨snapshot, hs, c, hc, rfl⟩, htarget⟩, rfl⟩
    exact ⟨snapshot, hs, hc, htarget⟩
  · rintro ⟨snapshot, hs, hc, htarget⟩
    exact ⟨_, ⟨⟨snapshot, hs, call, hc, rfl⟩, htarget⟩, rfl⟩

theorem Holds.mem_implementationsOf (h : Holds store live) {symbol : SymbolId} {edge : HierarchyEdge} :
    edge ∈ store.implementationsOf symbol ↔
      ∃ snapshot ∈ live, edge ∈ snapshot.hierarchy ∧ edge.supertype = symbol := by
  unfold IndexStore.implementationsOf IndexStore.hierarchyEdges
  simp only [List.mem_map, mem_orderByUnitThen, List.mem_filter, h.table, List.mem_flatMap, rows_inHierarchyEdges,
    decide_eq_true_eq]
  constructor
  · rintro ⟨_, ⟨⟨snapshot, hs, e, he, rfl⟩, htarget⟩, rfl⟩
    exact ⟨snapshot, hs, he, htarget⟩
  · rintro ⟨snapshot, hs, he, htarget⟩
    exact ⟨_, ⟨⟨snapshot, hs, edge, he, rfl⟩, htarget⟩, rfl⟩

/-- A symbol id names at most one stored declaration, and the lookup returns its unit. -/
theorem Holds.symbol_unit (h : Holds store live) {symbolId : SymbolId} {sourceUnit : SourceUnitId} :
    (store.symbol symbolId).map (·.declaration.sourceUnit) = some sourceUnit ↔
      ∃ snapshot ∈ live, snapshot.id = sourceUnit ∧ symbolId ∈ snapshot.symbolIds := by
  unfold IndexStore.symbol
  constructor
  · intro hsome
    rw [Option.map_eq_some_iff] at hsome
    obtain ⟨record, hrecord, hunit⟩ := hsome
    obtain ⟨row, hrow, hjoin⟩ := Option.bind_eq_some_iff.1 hrecord
    obtain ⟨snapshot, hs, symbol, hsymbol, rfl⟩ := h.mem_symbols_iff.1 (List.mem_of_find?_eq_some hrow)
    have hid : symbol.id = symbolId := by
      have := List.find?_some hrow
      exact of_decide_eq_true this
    rw [h.joinSymbol hs] at hjoin
    cases hjoin
    exact ⟨snapshot, hs, hunit, hid ▸ List.mem_map_of_mem hsymbol⟩
  · rintro ⟨snapshot, hs, hunit, hid⟩
    obtain ⟨symbol, hsymbol, rfl⟩ := List.mem_map.1 hid
    have hmem := h.mem_symbols_iff.2 ⟨snapshot, hs, symbol, hsymbol, rfl⟩
    cases hfind : store.symbols.find? (·.symbolId = symbol.id) with
    | none =>
      have hnone := List.find?_eq_none.1 hfind _ hmem
      exact absurd rfl (of_decide_eq_false (Bool.not_eq_true _ ▸ hnone))
    | some row =>
      obtain ⟨other, ho, symbol', hsymbol', rfl⟩ := h.mem_symbols_iff.1 (List.mem_of_find?_eq_some hfind)
      have hid' : symbol'.id = symbol.id := by
        have := List.find?_some hfind
        exact of_decide_eq_true this
      have hrow := h.unique.eq_of_key_eq FactRow.key (h.mem_facts.2 ⟨other, ho, symbolRow_mem hsymbol'⟩)
        (h.mem_facts.2 ⟨snapshot, hs, symbolRow_mem hsymbol⟩) (k := .symbols symbol.id) (by rw [← hid']; rfl) rfl
      have hunits : other.id = snapshot.id := congrArg SymbolRow.sourceUnitId (FactRow.symbols.inj hrow)
      rw [Option.bind_some, h.joinSymbol ho, Option.map_some]
      exact congrArg some (hunits.trans hunit)

/-- A dependent of `source` has an edge to a symbol of `source`: a reference or a call recorded in
it, or a hierarchy edge whose subtype it declares. -/
theorem Holds.mem_dependentSourceUnits (h : Holds store live) {source dependent : SourceUnitId} :
    dependent ∈ store.dependentSourceUnits source ↔
      dependent ≠ source ∧ ∃ owner ∈ live, owner.id = source ∧ ∃ symbolId ∈ owner.symbolIds,
        (∃ snapshot ∈ live, ∃ r ∈ snapshot.references, r.target = symbolId ∧ r.source.range.sourceUnit = dependent) ∨
        (∃ snapshot ∈ live, ∃ c ∈ snapshot.calls, c.target = symbolId ∧ c.source.range.sourceUnit = dependent) ∨
        (∃ snapshot ∈ live, ∃ e ∈ snapshot.hierarchy, e.supertype = symbolId ∧
          ∃ declaring ∈ live, declaring.id = dependent ∧ e.subtype ∈ declaring.symbolIds) := by
  unfold IndexStore.dependentSourceUnits
  simp only [List.mem_dedup, List.mem_insertionSort, List.mem_filter, decide_eq_true_eq, List.mem_flatMap,
    List.mem_append, List.mem_map, List.mem_filterMap, h.symbol_unit, h.mem_referencesTo, h.mem_callsTo,
    h.mem_implementationsOf, or_assoc]
  rw [and_comm]
  refine and_congr_right fun _ => ?_
  constructor
  · rintro ⟨symbol, hsymbol, hedge⟩
    obtain ⟨owner, ho, hunit, hid⟩ := h.mem_symbolsForSource.1 ⟨symbol, hsymbol, rfl⟩
    refine ⟨owner, ho, hunit, symbol.id, hid, ?_⟩
    rcases hedge with ⟨r, ⟨s, hs, hr, ht⟩, hd⟩ | ⟨c, ⟨s, hs, hc, ht⟩, hd⟩ | ⟨e, ⟨s, hs, he, ht⟩, hd⟩
    · exact .inl ⟨s, hs, r, hr, ht, hd⟩
    · exact .inr (.inl ⟨s, hs, c, hc, ht, hd⟩)
    · exact .inr (.inr ⟨s, hs, e, he, ht, hd⟩)
  · rintro ⟨owner, ho, hunit, symbolId, hid, hedge⟩
    obtain ⟨symbol, hsymbol, rfl⟩ := h.mem_symbolsForSource.2 ⟨owner, ho, hunit, hid⟩
    refine ⟨symbol, hsymbol, ?_⟩
    rcases hedge with ⟨s, hs, r, hr, ht, hd⟩ | ⟨s, hs, c, hc, ht, hd⟩ | ⟨s, hs, e, he, ht, hd⟩
    · exact .inl ⟨r, ⟨s, hs, hr, ht⟩, hd⟩
    · exact .inr (.inl ⟨c, ⟨s, hs, hc, ht⟩, hd⟩)
    · exact .inr (.inr ⟨e, ⟨s, hs, he, ht⟩, hd⟩)

end

end Kide
