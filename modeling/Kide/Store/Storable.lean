import Kide.Store.Keys

/-!
# Which snapshots can be stored

`replace_snapshot` after a passing validation, on a disk without faults: `replaceSnapshot_ok_iff`
lists everything the tables ask of a snapshot. Validation checks none of the keys, so a valid
snapshot with fresh ids is stored exactly when its facts are distinct, table by table.
-/

namespace Kide
open Tables Transactions

/-- A disk on which every statement succeeds that violates no constraint. -/
def Disk.sound : Disk := fun _ => none

/-- No other unit of the store uses a symbol id or an application id of the snapshot. -/
structure IndexStore.IdsUnused (store : IndexStore) (snapshot : FileAnalysisSnapshot) : Prop where
  symbols : ∀ row ∈ store.symbols, row.sourceUnitId ≠ snapshot.id → row.symbolId ∉ snapshot.symbolIds
  applications : ∀ row ∈ store.applications, row.sourceUnitId ≠ snapshot.id →
    row.applicationId ∉ snapshot.applicationIds

section
variable {store : IndexStore} {live : List FileAnalysisSnapshot} {snapshot : FileAnalysisSnapshot}

theorem Holds.mem_symbols_iff (h : Holds store live) {row : SymbolRow} :
    row ∈ store.symbols ↔ ∃ other ∈ live, ∃ symbol ∈ other.symbols, symbol.row other.sourceUnit = row := by
  rw [IndexStore.symbols, h.table, List.mem_flatMap]
  simp only [rows_inSymbols, List.mem_map]

theorem Holds.mem_applications_iff (h : Holds store live) {row : ApplicationRow} :
    row ∈ store.applications ↔
      ∃ other ∈ live, ∃ application ∈ other.applications, application.row other.sourceUnit = row := by
  rw [IndexStore.applications, h.table, List.mem_flatMap]
  simp only [rows_inApplications, List.mem_map]

theorem Holds.idsUnused_iff (h : Holds store live) :
    store.IdsUnused snapshot ↔ ∀ other ∈ live, other.id ≠ snapshot.id → other.Apart snapshot := by
  constructor
  · rintro ⟨hsymbols, happlications⟩ other ho hid
    refine ⟨fun k hk => ?_, fun k hk => ?_⟩
    · obtain ⟨symbol, hs, rfl⟩ := List.mem_map.1 hk
      exact hsymbols (symbol.row other.sourceUnit) (h.mem_symbols_iff.2 ⟨other, ho, symbol, hs, rfl⟩) hid
    · obtain ⟨application, ha, rfl⟩ := List.mem_map.1 hk
      exact happlications (application.row other.sourceUnit)
        (h.mem_applications_iff.2 ⟨other, ho, application, ha, rfl⟩) hid
  · intro hapart
    refine ⟨fun row hrow hid => ?_, fun row hrow hid => ?_⟩
    · obtain ⟨other, ho, symbol, hs, rfl⟩ := h.mem_symbols_iff.1 hrow
      exact (hapart other ho hid).1 (List.mem_map_of_mem hs)
    · obtain ⟨other, ho, application, ha, rfl⟩ := h.mem_applications_iff.1 hrow
      exact (hapart other ho hid).2 (List.mem_map_of_mem ha)

/-- The keys of the live snapshots meet those of a snapshot only where an id is used twice. -/
theorem keys_live_disjoint_iff {others : List FileAnalysisSnapshot}
    (hid : ∀ other ∈ others, other.id ≠ snapshot.id) :
    List.Disjoint (keys FactRow.key (others.flatMap (·.rows))) (keys FactRow.key snapshot.rows) ↔
      ∀ other ∈ others, other.Apart snapshot := by
  rw [keys_flatMap]
  constructor
  · exact fun h other ho => (keys_disjoint_iff (hid other ho)).1 fun k hk =>
      h (List.mem_flatMap.2 ⟨other, ho, hk⟩)
  · intro h k hk
    obtain ⟨other, ho, hk⟩ := List.mem_flatMap.1 hk
    exact (keys_disjoint_iff (hid other ho)).2 (h other ho) hk

/-- One replacement, statement by statement. -/
theorem replaceStatements_ok_iff (h : Holds store live) {expected : SourceUnit}
    (hid : snapshot.id = expected.id) :
    (∃ store', runStatements (deleteFileOwnedFacts expected.id ++ insertSnapshot snapshot) store = .ok store') ↔
      OffsetsFit snapshot ∧ snapshot.symbolIds.Nodup ∧ snapshot.applicationIds.Nodup ∧
        DistinctFacts snapshot ∧ ∀ other ∈ live, other.id ≠ snapshot.id → other.Apart snapshot := by
  have hothers : ∀ other ∈ live.filter (·.id ≠ expected.id), other.id ≠ snapshot.id := by
    intro other ho
    rw [hid]
    simpa using (List.mem_filter.1 ho).2
  rw [runStatements_append, deleteFileOwnedFacts_run]
  change (∃ store', runStatements (insertSnapshot snapshot) (store.without expected.id) = .ok store') ↔ _
  simp only [insertSnapshot_ok_iff, (h.without expected.id).facts, keys_live_disjoint_iff hothers,
    keysUnique_rows_iff, exists_and_left, exists_eq, and_true, and_assoc]
  refine and_congr_right fun _ => and_congr_right fun _ => and_congr_right fun _ => and_congr_right fun _ => ?_
  simp only [List.mem_filter, hid, ne_eq, decide_not, Bool.not_eq_eq_eq_not, Bool.not_true,
    decide_eq_false_iff_not, and_imp]

/-- Everything `replace_snapshot` asks for. -/
theorem replaceSnapshot_ok_iff (h : Holds store live) {expected : SourceUnit} :
    (store.replaceSnapshot Disk.sound expected snapshot).1 = .ok () ↔
      ValidSnapshot expected snapshot ∧ OffsetsFit snapshot ∧ snapshot.symbolIds.Nodup ∧
        snapshot.applicationIds.Nodup ∧ DistinctFacts snapshot ∧
          ∀ other ∈ live, other.id ≠ snapshot.id → other.Apart snapshot := by
  unfold IndexStore.replaceSnapshot
  cases hv : validateSnapshot expected snapshot with
  | error e =>
    refine ⟨fun h => (nomatch h), fun h => ?_⟩
    rw [validateSnapshot_ok_iff.2 h.1] at hv
    cases hv
  | ok _ =>
    have hvalid := validateSnapshot_ok_iff.1 hv
    rw [← replaceStatements_ok_iff h hvalid.id]
    exact (transact_noFault _ store).trans (and_iff_right hvalid).symm

end

def sampleProvenance : Provenance := ⟨"kide-kotlin-jvm", "0.1.0", WORKER_PROTOCOL_VERSION, ⟨"sha256:options"⟩⟩

def sampleUnit (name content : String) : SourceUnit :=
  ⟨⟨"unit:" ++ name⟩, ⟨"app:main"⟩, ⟨"src/" ++ name⟩, .kotlin, .source, ⟨content⟩, ⟨"sha256:context"⟩⟩

def emptySnapshot (source : SourceUnit) : FileAnalysisSnapshot :=
  ⟨source, none, none, [], [], [], [], [], [], [], [], .complete, sampleProvenance⟩

def sampleCall (source : SourceUnit) (target : String) : SourceOccurrence :=
  ⟨⟨source.id, ⟨10, 14⟩⟩, .call, none, some ⟨target⟩, none, .exact, .fresh, .complete, sampleProvenance⟩

def sampleSymbol (source : SourceUnit) (name : String) : SymbolRecord :=
  ⟨⟨name⟩, ⟨"kide-kotlin-jvm", 1, name⟩, .kotlin, .class_, name, none, none, source.component,
    ⟨source.id, ⟨0, 20⟩⟩, ⟨source.id, ⟨6, 13⟩⟩, none, [], [], .fresh, .complete, sampleProvenance⟩

/-- One call expression that resolves to two functions, as for a delegated property. -/
def twoTargets : FileAnalysisSnapshot :=
  { emptySnapshot (sampleUnit "Delegate.kt" "sha256:a") with
    occurrences := [sampleCall (sampleUnit "Delegate.kt" "sha256:a") "getValue",
      sampleCall (sampleUnit "Delegate.kt" "sha256:a") "setValue"] }

theorem twoTargets_offsetsFit : OffsetsFit twoTargets := by
  constructor <;> simp [twoTargets, emptySnapshot, sampleCall, ByteRange.Fits, OFFSET_LIMIT]

theorem idsUnused_empty (snapshot : FileAnalysisSnapshot) : ({} : IndexStore).IdsUnused snapshot :=
  ⟨fun _ h => (nomatch h), fun _ h => (nomatch h)⟩

end Kide
