import Kide.Store.Queries
import Kide.Store.Batch

/-!
# Dependent units

`dependent_source_units` looks a reference and a call up by the unit that owns the edge, and a hierarchy edge
by the unit that declares its subtype. `dependentSourceUnits_complete_iff` says when both are the same.
-/

namespace Kide

namespace IndexStore
variable (store : IndexStore) (owner source : SourceUnitId)

/-- The unit declares the symbol. -/
def Declares (symbol : SymbolId) : Prop := ∃ row ∈ store.symbols, row.sourceUnitId = owner ∧ row.symbolId = symbol

def OwnsReference : Prop :=
  ∃ row ∈ store.referenceEdges, row.sourceUnitId = owner ∧ store.Declares source row.targetSymbolId

def OwnsCall : Prop := ∃ row ∈ store.callEdges, row.sourceUnitId = owner ∧ store.Declares source row.targetSymbolId

def OwnsHierarchy : Prop :=
  ∃ row ∈ store.hierarchyEdges, row.sourceUnitId = owner ∧ store.Declares source row.supertypeSymbolId

/-- The unit declares a symbol that some unit records as a subtype of one of `source`. -/
def DeclaresSubtype : Prop :=
  ∃ row ∈ store.hierarchyEdges, store.Declares owner row.subtypeSymbolId ∧ store.Declares source row.supertypeSymbolId

end IndexStore

/-! ## Rows of a valid store -/

section
variable {store : IndexStore} {live : List FileAnalysisSnapshot} {owner source : SourceUnitId}

theorem Holds.valid (h : Holds store live) (hvalid : SnapshotMap.Valid (lookup live)) {snapshot : FileAnalysisSnapshot}
    (hs : snapshot ∈ live) : ValidSnapshot snapshot.sourceUnit snapshot :=
  hvalid snapshot.id snapshot ((Tables.find_eq_some_iff h.ids_nodup).2 ⟨hs, rfl⟩)

theorem Holds.declares_iff (h : Holds store live) {symbol : SymbolId} :
    store.Declares owner symbol ↔ ∃ snapshot ∈ live, snapshot.id = owner ∧ symbol ∈ snapshot.symbolIds := by
  unfold IndexStore.Declares
  simp only [h.mem_symbols_iff]
  constructor
  · rintro ⟨_, ⟨snapshot, hs, record, hrecord, rfl⟩, hunit, rfl⟩
    exact ⟨snapshot, hs, hunit, List.mem_map_of_mem hrecord⟩
  · rintro ⟨snapshot, hs, hunit, hid⟩
    obtain ⟨record, hrecord, rfl⟩ := List.mem_map.1 hid
    exact ⟨_, ⟨snapshot, hs, record, hrecord, rfl⟩, hunit, rfl⟩

theorem Holds.mem_referenceEdges (h : Holds store live) {row : ReferenceEdgeRow} :
    row ∈ store.referenceEdges ↔ ∃ snapshot ∈ live, ∃ edge ∈ snapshot.references, edge.row snapshot.sourceUnit = row := by
  rw [IndexStore.referenceEdges, h.table, List.mem_flatMap]
  simp only [rows_inReferenceEdges, List.mem_map]

theorem Holds.mem_callEdges (h : Holds store live) {row : CallEdgeRow} :
    row ∈ store.callEdges ↔ ∃ snapshot ∈ live, ∃ edge ∈ snapshot.calls, edge.row snapshot.sourceUnit = row := by
  rw [IndexStore.callEdges, h.table, List.mem_flatMap]
  simp only [rows_inCallEdges, List.mem_map]

theorem Holds.mem_hierarchyEdges (h : Holds store live) {row : HierarchyEdgeRow} :
    row ∈ store.hierarchyEdges ↔ ∃ snapshot ∈ live, ∃ edge ∈ snapshot.hierarchy, edge.row snapshot.sourceUnit = row := by
  rw [IndexStore.hierarchyEdges, h.table, List.mem_flatMap]
  simp only [rows_inHierarchyEdges, List.mem_map]

/-- The row of a reference stands under the unit in which it was found. -/
theorem Holds.ownsReference_iff (h : Holds store live) (hvalid : SnapshotMap.Valid (lookup live)) :
    store.OwnsReference owner source ↔ ∃ declaring ∈ live, declaring.id = source ∧ ∃ symbol ∈ declaring.symbolIds,
      ∃ snapshot ∈ live, ∃ edge ∈ snapshot.references, edge.target = symbol ∧ edge.source.range.sourceUnit = owner := by
  unfold IndexStore.OwnsReference
  simp only [h.mem_referenceEdges, h.declares_iff]
  constructor
  · rintro ⟨_, ⟨snapshot, hs, edge, hedge, rfl⟩, hunit, declaring, hdeclaring, hid, hsymbol⟩
    have hwithin := ((h.valid hvalid hs).references edge hedge).2.1
    exact ⟨declaring, hdeclaring, hid, _, hsymbol, snapshot, hs, edge, hedge, rfl, hwithin.trans hunit⟩
  · rintro ⟨declaring, hdeclaring, hid, _, hsymbol, snapshot, hs, edge, hedge, rfl, hunit⟩
    have hwithin := ((h.valid hvalid hs).references edge hedge).2.1
    exact ⟨_, ⟨snapshot, hs, edge, hedge, rfl⟩, hwithin.symm.trans hunit, declaring, hdeclaring, hid, hsymbol⟩

theorem Holds.ownsCall_iff (h : Holds store live) (hvalid : SnapshotMap.Valid (lookup live)) :
    store.OwnsCall owner source ↔ ∃ declaring ∈ live, declaring.id = source ∧ ∃ symbol ∈ declaring.symbolIds,
      ∃ snapshot ∈ live, ∃ edge ∈ snapshot.calls, edge.target = symbol ∧ edge.source.range.sourceUnit = owner := by
  unfold IndexStore.OwnsCall
  simp only [h.mem_callEdges, h.declares_iff]
  constructor
  · rintro ⟨_, ⟨snapshot, hs, edge, hedge, rfl⟩, hunit, declaring, hdeclaring, hid, hsymbol⟩
    have hwithin := ((h.valid hvalid hs).calls edge hedge).2.1
    exact ⟨declaring, hdeclaring, hid, _, hsymbol, snapshot, hs, edge, hedge, rfl, hwithin.trans hunit⟩
  · rintro ⟨declaring, hdeclaring, hid, _, hsymbol, snapshot, hs, edge, hedge, rfl, hunit⟩
    have hwithin := ((h.valid hvalid hs).calls edge hedge).2.1
    exact ⟨_, ⟨snapshot, hs, edge, hedge, rfl⟩, hwithin.symm.trans hunit, declaring, hdeclaring, hid, hsymbol⟩

theorem Holds.declaresSubtype_iff (h : Holds store live) :
    store.DeclaresSubtype owner source ↔ ∃ declaring ∈ live, declaring.id = source ∧ ∃ symbol ∈ declaring.symbolIds,
      ∃ snapshot ∈ live, ∃ edge ∈ snapshot.hierarchy, edge.supertype = symbol ∧
        ∃ below ∈ live, below.id = owner ∧ edge.subtype ∈ below.symbolIds := by
  unfold IndexStore.DeclaresSubtype
  simp only [h.mem_hierarchyEdges, h.declares_iff]
  constructor
  · rintro ⟨_, ⟨snapshot, hs, edge, hedge, rfl⟩, hbelow, declaring, hdeclaring, hid, hsymbol⟩
    exact ⟨declaring, hdeclaring, hid, _, hsymbol, snapshot, hs, edge, hedge, rfl, hbelow⟩
  · rintro ⟨declaring, hdeclaring, hid, _, hsymbol, snapshot, hs, edge, hedge, rfl, hbelow⟩
    exact ⟨_, ⟨snapshot, hs, edge, hedge, rfl⟩, hbelow, declaring, hdeclaring, hid, hsymbol⟩

/-- What the query finds. -/
theorem Holds.mem_dependents (h : Holds store live) (hvalid : SnapshotMap.Valid (lookup live)) :
    owner ∈ store.dependentSourceUnits source ↔ owner ≠ source ∧
      (store.OwnsReference owner source ∨ store.OwnsCall owner source ∨ store.DeclaresSubtype owner source) := by
  rw [h.mem_dependentSourceUnits, h.ownsReference_iff hvalid, h.ownsCall_iff hvalid, h.declaresSubtype_iff]
  simp only [and_or_left, exists_or]

end

/-- **Dependents.** The query returns the owners of edges to `source` exactly if, among the units that have no
reference and no call there, those that own a hierarchy edge are those that declare the subtype of one. -/
theorem dependentSourceUnits_complete_iff {store : IndexStore} (hstore : store.Reachable) (source : SourceUnitId) :
    (∀ owner, owner ∈ store.dependentSourceUnits source ↔ owner ≠ source ∧
      (store.OwnsReference owner source ∨ store.OwnsCall owner source ∨ store.OwnsHierarchy owner source)) ↔
    ∀ owner, owner ≠ source → ¬ store.OwnsReference owner source → ¬ store.OwnsCall owner source →
      (store.OwnsHierarchy owner source ↔ store.DeclaresSubtype owner source) := by
  obtain ⟨live, hlive, hvalid⟩ := hstore.valid
  refine forall_congr' fun owner => ?_
  rw [hlive.mem_dependents hvalid]
  by_cases hself : owner = source
  · simp [hself]
  by_cases hreference : store.OwnsReference owner source
  · simp [hreference]
  by_cases hcall : store.OwnsCall owner source
  · simp [hcall]
  simp only [hself, hreference, hcall, ne_eq, not_false_iff, true_and, false_or, forall_const]
  exact Iff.comm

/-! ## A subtype that is no symbol -/

/-- `A.kt` declares `Base`. -/
def baseUnit : FileAnalysisSnapshot := declaring (sampleUnit "A.kt" "sha256:a") ["Base"]

/-- `B.kt` declares `names` and says that `Derived` extends `Base`. -/
def derivedUnit (names : List String) : FileAnalysisSnapshot :=
  { declaring (sampleUnit "B.kt" "sha256:b") names with
    hierarchy := [⟨⟨"Derived"⟩, ⟨"Base"⟩, .exact, sampleProvenance⟩] }

def hierarchyStore (names : List String) : IndexStore :=
  (({} : IndexStore).replaceSnapshotsBatch Disk.sound
    [(sampleUnit "A.kt" "sha256:a", baseUnit), (sampleUnit "B.kt" "sha256:b", derivedUnit names)]).2

theorem hierarchyStore_reachable (names : List String) : (hierarchyStore names).Reachable :=
  (IndexStore.reachable_empty {}).run Disk.sound
    (.replaceSnapshotsBatch [(sampleUnit "A.kt" "sha256:a", baseUnit), (sampleUnit "B.kt" "sha256:b", derivedUnit names)])

/-- The class of `B.kt` is an anonymous object, of which no symbol is stored. -/
theorem undeclared_subtype_missed :
    ¬ ∀ (store : IndexStore), store.Reachable → ∀ source owner : SourceUnitId,
      owner ∈ store.dependentSourceUnits source ↔ owner ≠ source ∧
        (store.OwnsReference owner source ∨ store.OwnsCall owner source ∨ store.OwnsHierarchy owner source) := by
  intro h
  have hmem := (h _ (hierarchyStore_reachable []) baseUnit.id (derivedUnit []).id).2
    ⟨by decide, .inr (.inr (by unfold IndexStore.OwnsHierarchy IndexStore.Declares; decide))⟩
  have hempty : (hierarchyStore []).dependentSourceUnits baseUnit.id = [] := by decide
  rw [hempty] at hmem
  cases hmem

theorem declared_subtype_found :
    ⟨"unit:B.kt"⟩ ∈ (hierarchyStore ["Derived"]).dependentSourceUnits baseUnit.id ↔ (⟨"unit:B.kt"⟩ : SourceUnitId) ≠ baseUnit.id ∧
      ((hierarchyStore ["Derived"]).OwnsReference ⟨"unit:B.kt"⟩ baseUnit.id ∨
        (hierarchyStore ["Derived"]).OwnsCall ⟨"unit:B.kt"⟩ baseUnit.id ∨
        (hierarchyStore ["Derived"]).OwnsHierarchy ⟨"unit:B.kt"⟩ baseUnit.id) := by
  refine (dependentSourceUnits_complete_iff (hierarchyStore_reachable _) baseUnit.id).2 (fun owner _ _ _ => ?_) _
  have hedges : (hierarchyStore ["Derived"]).hierarchyEdges =
      [HierarchyEdge.row (sampleUnit "B.kt" "sha256:b") ⟨⟨"Derived"⟩, ⟨"Base"⟩, .exact, sampleProvenance⟩] := by decide
  have hsymbols : (hierarchyStore ["Derived"]).symbols =
      [(sampleSymbol (sampleUnit "A.kt" "sha256:a") "Base").row (sampleUnit "A.kt" "sha256:a"),
        (sampleSymbol (sampleUnit "B.kt" "sha256:b") "Derived").row (sampleUnit "B.kt" "sha256:b")] := by decide
  simp [IndexStore.OwnsHierarchy, IndexStore.DeclaresSubtype, IndexStore.Declares, hedges, hsymbols, SymbolRecord.row,
    HierarchyEdge.row, sampleSymbol]

end Kide
