import Kide.Store.Dependents
import Kide.Store.SymbolRecords

/-!
# The symbols of a store

A query over the table of symbols joins the rows it selects with the snapshot of their unit. In a store that holds
snapshots each row is found there, so the query returns one record for each row it selects.
-/

namespace Kide
open Tables

/-- The record as a query returns it: the component and the provenance are those of the snapshot. -/
def SymbolRecord.stored (symbol : SymbolRecord) (snapshot : FileAnalysisSnapshot) : SymbolRecord :=
  (StoredSymbolRecord.fromSymbol symbol).intoSymbol symbol.id symbol.name snapshot.sourceUnit snapshot.provenance

namespace IndexStore

/-- The record of a stored symbol. -/
def Stores (store : IndexStore) (record : SymbolRecord) : Prop := store.symbol record.id = some record

/-- `ORDER BY symbols.source_unit_id, symbols.name_start_byte, symbols.symbol_id` -/
def orderSymbols (rows : List SymbolRow) : List SymbolRow :=
  orderByUnitThen (·.sourceUnitId)
    (fun a b => a.nameStartByte < b.nameStartByte ∨
      (a.nameStartByte = b.nameStartByte ∧ a.symbolId.asStr ≤ b.symbolId.asStr)) rows

theorem orderSymbols_perm (rows : List SymbolRow) : (orderSymbols rows).Perm rows := List.perm_insertionSort _ _

theorem joinSymbol_id {store : IndexStore} {row : SymbolRow} {record : SymbolRecord} (h : store.joinSymbol row = some record) :
    record.id = row.symbolId := by
  obtain ⟨_, -, rfl⟩ := Option.map_eq_some_iff.1 h
  rfl

end IndexStore

section
variable {store : IndexStore} {live : List FileAnalysisSnapshot}

theorem Holds.stores_iff (h : Holds store live) {record : SymbolRecord} :
    store.Stores record ↔ ∃ snapshot ∈ live, ∃ symbol ∈ snapshot.symbols, symbol.stored snapshot = record := by
  unfold IndexStore.Stores IndexStore.symbol
  constructor
  · intro hrecord
    obtain ⟨row, hrow, hjoin⟩ := Option.bind_eq_some_iff.1 hrecord
    obtain ⟨snapshot, hs, symbol, hsymbol, rfl⟩ := h.mem_symbols_iff.1 (List.mem_of_find?_eq_some hrow)
    rw [h.joinSymbol hs] at hjoin
    exact ⟨snapshot, hs, symbol, hsymbol, Option.some.inj hjoin⟩
  · rintro ⟨snapshot, hs, symbol, hsymbol, rfl⟩
    have hmem := h.mem_symbols_iff.2 ⟨snapshot, hs, symbol, hsymbol, rfl⟩
    obtain ⟨row, hrow⟩ : ∃ row, store.symbols.find? (·.symbolId = (symbol.stored snapshot).id) = some row :=
      Option.isSome_iff_exists.1 (List.find?_isSome.2 ⟨_, hmem, decide_eq_true rfl⟩)
    have hid : row.symbolId = (symbol.stored snapshot).id := by simpa using List.find?_some hrow
    obtain rfl := h.symbolRow_unique hs hsymbol (List.mem_of_find?_eq_some hrow) hid
    rw [hrow, Option.bind_some, h.joinSymbol hs]
    rfl

theorem IndexStore.symbol_eq_some_iff {id : SymbolId} {record : SymbolRecord} :
    store.symbol id = some record ↔ store.Stores record ∧ record.id = id := by
  constructor
  · intro hrecord
    have hid : record.id = id := by
      obtain ⟨row, hrow, hjoin⟩ := Option.bind_eq_some_iff.1 hrecord
      rw [IndexStore.joinSymbol_id hjoin]
      simpa using List.find?_some hrow
    subst hid
    exact ⟨hrecord, rfl⟩
  · rintro ⟨hrecord, rfl⟩
    exact hrecord

/-- The records of the rows that a query selects. -/
theorem Holds.mem_joined (h : Holds store live) {rows : List SymbolRow} (hrows : ∀ row ∈ rows, row ∈ store.symbols)
    {record : SymbolRecord} : record ∈ rows.filterMap store.joinSymbol ↔
      ∃ snapshot ∈ live, ∃ symbol ∈ snapshot.symbols, symbol.row snapshot.sourceUnit ∈ rows ∧ symbol.stored snapshot = record := by
  rw [List.mem_filterMap]
  constructor
  · rintro ⟨row, hrow, hjoin⟩
    obtain ⟨snapshot, hs, symbol, hsymbol, rfl⟩ := h.mem_symbols_iff.1 (hrows row hrow)
    rw [h.joinSymbol hs] at hjoin
    exact ⟨snapshot, hs, symbol, hsymbol, hrow, Option.some.inj hjoin⟩
  · rintro ⟨snapshot, hs, symbol, -, hrow, rfl⟩
    exact ⟨_, hrow, h.joinSymbol hs symbol⟩

theorem Holds.joined_nodup (h : Holds store live) {rows : List SymbolRow} (hrows : ∀ row ∈ rows, row ∈ store.symbols)
    (hnodup : rows.Nodup) : (rows.filterMap store.joinSymbol).Nodup := by
  refine List.pairwise_filterMap.2 (hnodup.imp_of_mem fun {row other} hrow hother hne record hrecord record' hrecord' heq => ?_)
  obtain ⟨snapshot, hs, symbol, hsymbol, rfl⟩ := h.mem_symbols_iff.1 (hrows row hrow)
  have hid : other.symbolId = symbol.id := by
    rw [← IndexStore.joinSymbol_id hrecord', ← heq, IndexStore.joinSymbol_id hrecord]
    rfl
  exact hne (h.symbolRow_unique hs hsymbol (hrows other hother) hid).symm

theorem Holds.symbols_nodup (h : Holds store live) : store.symbols.Nodup := by
  refine h.unique.nodup_filterMap FactRow.key fun row other r hrow hother => ?_
  cases row <;> cases hrow
  cases other <;> cases hother
  exact ⟨rfl, fun hnone => by cases hnone⟩

end

end Kide
