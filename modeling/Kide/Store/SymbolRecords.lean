import Kide.Store.Queries
import Kide.Store.Batch

/-!
# Symbols read back

A stored symbol keeps neither its component nor its provenance: the queries take both from the snapshot that
declares it, which owns them. `stored_symbol_returned`: after a replacement the three lookups return each symbol
of the snapshot with these two fields of its owner and every other field as it was.
-/

namespace Kide

namespace IndexStore

/-- `WHERE symbols.name = ?1 ORDER BY source_unit_id, name_start_byte, symbol_id` -/
def symbolsNamed (store : IndexStore) (name : String) : List SymbolRecord :=
  (orderByUnitThen (·.sourceUnitId)
    (fun a b => a.nameStartByte < b.nameStartByte ∨
      (a.nameStartByte = b.nameStartByte ∧ a.symbolId.asStr ≤ b.symbolId.asStr))
    (store.symbols.filter (·.name = name))).filterMap store.joinSymbol

end IndexStore

/-- The symbol with the component and the provenance of the snapshot. -/
def SymbolRecord.ownedBy (symbol : SymbolRecord) (snapshot : FileAnalysisSnapshot) : SymbolRecord :=
  { symbol with component := snapshot.sourceUnit.component, provenance := snapshot.provenance }

theorem intoSymbol_fromSymbol {symbol : SymbolRecord} {snapshot : FileAnalysisSnapshot} (h : symbol.ValidIn snapshot.id) :
    (StoredSymbolRecord.fromSymbol symbol).intoSymbol symbol.id symbol.name snapshot.sourceUnit snapshot.provenance =
      symbol.ownedBy snapshot := by
  obtain ⟨-, ⟨hdeclaration, -⟩, hname, -⟩ := h
  have hranges : symbol.declaration = ⟨snapshot.id, symbol.declaration.bytes⟩ ∧ symbol.nameRange = ⟨snapshot.id, symbol.nameRange.bytes⟩ :=
    ⟨hdeclaration ▸ rfl, hname ▸ rfl⟩
  unfold SymbolRecord.ownedBy
  rw [hranges.1, hranges.2]
  rfl

section
variable {store : IndexStore} {live : List FileAnalysisSnapshot} {snapshot : FileAnalysisSnapshot} {symbol : SymbolRecord}

/-- A row with the id of a symbol is the symbol's row. -/
theorem Holds.symbolRow_unique (h : Holds store live) (hs : snapshot ∈ live) (hsymbol : symbol ∈ snapshot.symbols)
    {row : SymbolRow} (hrow : row ∈ store.symbols) (hid : row.symbolId = symbol.id) : row = symbol.row snapshot.sourceUnit := by
  obtain ⟨other, ho, record, hrecord, rfl⟩ := h.mem_symbols_iff.1 hrow
  have hkey : FactRow.key (.symbols (record.row other.sourceUnit)) = some (.symbols symbol.id) := by
    rw [← hid]
    rfl
  have heq := h.unique.eq_of_key_eq FactRow.key (h.mem_facts.2 ⟨other, ho, symbolRow_mem hrecord⟩)
    (h.mem_facts.2 ⟨snapshot, hs, symbolRow_mem hsymbol⟩) hkey rfl
  exact FactRow.symbols.inj heq

theorem Holds.symbol_eq (h : Holds store live) (hs : snapshot ∈ live) (hsymbol : symbol ∈ snapshot.symbols)
    (hvalid : symbol.ValidIn snapshot.id) : store.symbol symbol.id = some (symbol.ownedBy snapshot) := by
  have hmem := h.mem_symbols_iff.2 ⟨snapshot, hs, symbol, hsymbol, rfl⟩
  obtain ⟨row, hrow⟩ : ∃ row, store.symbols.find? (·.symbolId = symbol.id) = some row :=
    Option.isSome_iff_exists.1 (List.find?_isSome.2 ⟨_, hmem, decide_eq_true rfl⟩)
  have hid : row.symbolId = symbol.id := by simpa using List.find?_some hrow
  obtain rfl := h.symbolRow_unique hs hsymbol (List.mem_of_find?_eq_some hrow) hid
  rw [IndexStore.symbol, hrow, Option.bind_some, h.joinSymbol hs, intoSymbol_fromSymbol hvalid]

/-- The joined rows of the id. -/
theorem Holds.joined_iff (h : Holds store live) (hs : snapshot ∈ live) (hsymbol : symbol ∈ snapshot.symbols)
    (hvalid : symbol.ValidIn snapshot.id) {rows : List SymbolRow} (hrows : ∀ row ∈ rows, row ∈ store.symbols)
    (hmem : symbol.row snapshot.sourceUnit ∈ rows) {record : SymbolRecord} :
    record ∈ rows.filterMap store.joinSymbol ∧ record.id = symbol.id ↔ record = symbol.ownedBy snapshot := by
  have hjoin := h.joinSymbol hs symbol
  rw [intoSymbol_fromSymbol hvalid] at hjoin
  constructor
  · rintro ⟨hrecord, hid⟩
    obtain ⟨row, hrow, hjoined⟩ := List.mem_filterMap.1 hrecord
    have hrowId : row.symbolId = symbol.id := by
      obtain ⟨snapshotRow, -, rfl⟩ := Option.map_eq_some_iff.1 hjoined
      exact hid
    obtain rfl := h.symbolRow_unique hs hsymbol (hrows row hrow) hrowId
    exact Option.some.inj (hjoined.symm.trans hjoin)
  · rintro rfl
    exact ⟨List.mem_filterMap.2 ⟨_, hmem, hjoin⟩, rfl⟩

end

/-- **Symbols.** After a replacement the lookups return each symbol of the snapshot, and no other of its id,
as it was but for the component and the provenance, which are the snapshot's. -/
theorem stored_symbol_returned {store : IndexStore} (hstore : store.Reachable) (disk : Disk) (expected : SourceUnit)
    (snapshot : FileAnalysisSnapshot) {symbol : SymbolRecord} (hsymbol : symbol ∈ snapshot.symbols)
    (h : (store.replaceSnapshot disk expected snapshot).1 = .ok ()) :
    let after := (store.replaceSnapshot disk expected snapshot).2
    after.symbol symbol.id = some (symbol.ownedBy snapshot) ∧
      (∀ record, record ∈ after.symbolsForSource expected.id ∧ record.id = symbol.id ↔ record = symbol.ownedBy snapshot) ∧
      ∀ record, record ∈ after.symbolsNamed symbol.name ∧ record.id = symbol.id ↔ record = symbol.ownedBy snapshot := by
  intro after
  obtain ⟨live, hlive⟩ := hstore.holds
  obtain ⟨hvalid, hrun⟩ := replaceSnapshot_ok h
  have hafter : Holds after (commitLive live (expected, snapshot)) := hlive.replaced hrun
  have hs : snapshot ∈ commitLive live (expected, snapshot) := List.mem_append_right _ (List.mem_singleton.2 rfl)
  have hsymbolValid : symbol.ValidIn snapshot.id := hvalid.self.symbols symbol hsymbol
  have hrow := hafter.mem_symbols_iff.2 ⟨snapshot, hs, symbol, hsymbol, rfl⟩
  refine ⟨hafter.symbol_eq hs hsymbol hsymbolValid, fun record => ?_, fun record => ?_⟩
  · refine hafter.joined_iff hs hsymbol hsymbolValid (fun row hmem => ?_) ?_
    · exact (List.mem_filter.1 ((List.mem_insertionSort _).1 hmem)).1
    · exact (List.mem_insertionSort _).2 (List.mem_filter.2 ⟨hrow, decide_eq_true hvalid.id⟩)
  · refine hafter.joined_iff hs hsymbol hsymbolValid (fun row hmem => ?_) ?_
    · exact (List.mem_filter.1 (mem_orderByUnitThen.1 hmem)).1
    · exact mem_orderByUnitThen.2 (List.mem_filter.2 ⟨hrow, decide_eq_true rfl⟩)

theorem base_returned :
    ((({} : IndexStore).replaceSnapshot Disk.sound (sampleUnit "A.kt" "sha256:a")
      (declaring (sampleUnit "A.kt" "sha256:a") ["Base"])).2.symbol ⟨"Base"⟩) =
        some (sampleSymbol (sampleUnit "A.kt" "sha256:a") "Base") :=
  (stored_symbol_returned (IndexStore.reachable_empty {}) Disk.sound (sampleUnit "A.kt" "sha256:a")
    (declaring (sampleUnit "A.kt" "sha256:a") ["Base"]) (List.mem_singleton.2 rfl) (by decide)).1

/-! ## A symbol with a provenance of its own -/

/-- A class found by another extractor than the one that made the snapshot. -/
def foreignSymbol : SymbolRecord :=
  { sampleSymbol (sampleUnit "A.kt" "sha256:a") "Base" with
    provenance := { sampleProvenance with backend := "kide-jvm-bytecode" } }

def foreignSnapshot : FileAnalysisSnapshot :=
  { emptySnapshot (sampleUnit "A.kt" "sha256:a") with symbols := [foreignSymbol] }

theorem provenance_not_stored :
    ¬ ∀ (store : IndexStore), store.Reachable → ∀ (disk : Disk) (expected : SourceUnit) (snapshot : FileAnalysisSnapshot),
      validateSnapshot expected snapshot = .ok () → ∀ symbol ∈ snapshot.symbols,
        (store.replaceSnapshot disk expected snapshot).1 = .ok () →
          let after := (store.replaceSnapshot disk expected snapshot).2
          after.symbol symbol.id = some symbol ∧ symbol ∈ after.symbolsForSource expected.id ∧
            symbol ∈ after.symbolsNamed symbol.name := by
  intro h
  have hreturned := (h {} (IndexStore.reachable_empty {}) Disk.sound foreignSnapshot.sourceUnit foreignSnapshot (by decide)
    foreignSymbol (List.mem_singleton.2 rfl) (by decide)).1
  exact absurd hreturned (by decide)

end Kide
