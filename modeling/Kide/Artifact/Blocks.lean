import Kide.Artifact.Jvm

/-!
# Detail blocks

The blocks that both encoders cut the symbols of an artifact into: consecutive, of at most 256 symbols of
one snapshot each, and together all of them (`symbolBlocks_pairwise`, `exists_block`). A block is found by
any of its ordinals as long as ordinals fit their type.
-/

namespace Kide

open ArtifactProto ArtifactLayout

/-- Consecutive symbols of one snapshot, with the ordinal of the first. -/
structure SymbolBlock where
  first : Nat
  snapshot : GraphSnapshot
  entries : List ArtifactSymbol

namespace SymbolBlock

def stop (block : SymbolBlock) : Nat := block.first + block.entries.length

def Contains (block : SymbolBlock) (ordinal : Nat) : Prop := block.first ≤ ordinal ∧ ordinal < block.stop

end SymbolBlock

namespace ArtifactLayout

def snapshotBlocks (first : Nat) (snapshot : GraphSnapshot) : List SymbolBlock :=
  (symbolChunks snapshot).zipIdx.map fun chunk => ⟨first + chunk.2 * SYMBOL_DETAIL_BLOCK_ENTRY_CAPACITY, snapshot, chunk.1⟩

def symbolBlocks : Nat → List GraphSnapshot → List SymbolBlock
  | _, [] => []
  | first, snapshot :: rest => snapshotBlocks first snapshot ++ symbolBlocks (first + snapshot.symbols.length) rest

/-! ## The blocks of one snapshot -/

theorem getElem?_symbolChunks (snapshot : GraphSnapshot) (position : Nat) : (symbolChunks snapshot)[position]? =
    if position * 256 < snapshot.symbols.length then some ((snapshot.symbols.drop (position * 256)).take 256) else none :=
  Chunks.getElem?_chunks SYMBOL_DETAIL_BLOCK_ENTRY_CAPACITY (Nat.le_refl _) position

/-- A block starts after as many full blocks. -/
theorem mem_snapshotBlocks {first : Nat} {snapshot : GraphSnapshot} {block : SymbolBlock} :
    block ∈ snapshotBlocks first snapshot ↔ ∃ position, position * 256 < snapshot.symbols.length ∧
      block = ⟨first + position * 256, snapshot, (snapshot.symbols.drop (position * 256)).take 256⟩ := by
  unfold snapshotBlocks
  rw [List.mem_map]
  constructor
  · rintro ⟨⟨entries, position⟩, hmem, rfl⟩
    have hchunk := List.mem_zipIdx_iff_getElem?.1 hmem
    rw [getElem?_symbolChunks] at hchunk
    split at hchunk
    · next hlt => exact ⟨position, hlt, by rw [← Option.some.inj hchunk]; rfl⟩
    · cases hchunk
  · rintro ⟨position, hlt, rfl⟩
    refine ⟨((snapshot.symbols.drop (position * 256)).take 256, position), List.mem_zipIdx_iff_getElem?.2 ?_, rfl⟩
    rw [getElem?_symbolChunks, if_pos hlt]

/-- Few symbols are one block. -/
theorem snapshotBlocks_of_short {first : Nat} {snapshot : GraphSnapshot} (hsome : snapshot.symbols ≠ [])
    (hshort : snapshot.symbols.length ≤ 256) : snapshotBlocks first snapshot = [⟨first, snapshot, snapshot.symbols⟩] := by
  have hchunks : symbolChunks snapshot = [snapshot.symbols] := by
    rw [symbolChunks, ← Nat.sub_add_cancel (List.length_pos_iff.2 hsome)]
    exact Chunks.chunks_of_short _ hsome hshort
  rw [snapshotBlocks, hchunks, List.zipIdx_singleton, List.map_singleton, Nat.zero_mul, Nat.add_zero]

theorem snapshotBlocks_bounds {first : Nat} {snapshot : GraphSnapshot} {block : SymbolBlock}
    (h : block ∈ snapshotBlocks first snapshot) : first ≤ block.first ∧ block.stop ≤ first + snapshot.symbols.length := by
  obtain ⟨position, hlt, rfl⟩ := mem_snapshotBlocks.1 h
  unfold SymbolBlock.stop
  dsimp only
  rw [List.length_take, List.length_drop]
  omega

theorem snapshotBlocks_pairwise (first : Nat) (snapshot : GraphSnapshot) :
    (snapshotBlocks first snapshot).Pairwise fun a b => a.stop ≤ b.first := by
  unfold snapshotBlocks
  rw [List.pairwise_map, List.pairwise_iff_getElem]
  intro i j hi hj hij
  have hchunk : ((symbolChunks snapshot).zipIdx[i]).1.length ≤ 256 := by
    rw [List.getElem_zipIdx]
    exact (Chunks.chunk_length SYMBOL_DETAIL_BLOCK_ENTRY_CAPACITY (List.getElem_mem _)).2
  have hposition : ((symbolChunks snapshot).zipIdx[i]).2 + 1 ≤ ((symbolChunks snapshot).zipIdx[j]).2 := by
    rw [List.getElem_zipIdx, List.getElem_zipIdx]
    omega
  have hcapacity : (SYMBOL_DETAIL_BLOCK_ENTRY_CAPACITY : Nat) = 256 := rfl
  unfold SymbolBlock.stop
  dsimp only
  rw [hcapacity]
  omega

/-! ## The blocks of an artifact -/

variable {first : Nat} {snapshots : List GraphSnapshot} {block : SymbolBlock}

theorem symbolBlocks_bounds (h : block ∈ symbolBlocks first snapshots) :
    first ≤ block.first ∧ block.stop ≤ first + (snapshots.flatMap GraphSnapshot.symbols).length := by
  induction snapshots generalizing first with
  | nil => cases h
  | cons snapshot rest ih =>
    rw [symbolBlocks, List.mem_append] at h
    rw [List.flatMap_cons, List.length_append]
    rcases h with h | h
    · have := snapshotBlocks_bounds h
      omega
    · have := ih h
      omega

theorem symbolBlocks_pairwise (first : Nat) (snapshots : List GraphSnapshot) :
    (symbolBlocks first snapshots).Pairwise fun a b => a.stop ≤ b.first := by
  induction snapshots generalizing first with
  | nil => exact List.Pairwise.nil
  | cons snapshot rest ih =>
    rw [symbolBlocks, List.pairwise_append]
    refine ⟨snapshotBlocks_pairwise first snapshot, ih _, fun a ha b hb => ?_⟩
    exact (snapshotBlocks_bounds ha).2.trans (symbolBlocks_bounds hb).1

/-- Different blocks lie apart. -/
theorem symbolBlocks_apart {a b : SymbolBlock} (ha : a ∈ symbolBlocks first snapshots) (hb : b ∈ symbolBlocks first snapshots) :
    a = b ∨ a.stop ≤ b.first ∨ b.stop ≤ a.first := by
  have hpairwise := List.pairwise_iff_getElem.1 (symbolBlocks_pairwise first snapshots)
  obtain ⟨i, hi, rfl⟩ := List.getElem_of_mem ha
  obtain ⟨j, hj, rfl⟩ := List.getElem_of_mem hb
  rcases Nat.lt_trichotomy i j with hlt | rfl | hlt
  · exact .inr (.inl (hpairwise i j hi hj hlt))
  · exact .inl rfl
  · exact .inr (.inr (hpairwise j i hj hi hlt))

theorem block_length (h : block ∈ symbolBlocks first snapshots) : 0 < block.entries.length ∧ block.entries.length ≤ 256 := by
  induction snapshots generalizing first with
  | nil => cases h
  | cons snapshot rest ih =>
    rw [symbolBlocks, List.mem_append] at h
    rcases h with h | h
    · obtain ⟨position, hlt, rfl⟩ := mem_snapshotBlocks.1 h
      dsimp only
      rw [List.length_take, List.length_drop]
      omega
    · exact ih h

theorem block_snapshot (h : block ∈ symbolBlocks first snapshots) :
    block.snapshot ∈ snapshots ∧ ∀ symbol ∈ block.entries, symbol ∈ block.snapshot.symbols := by
  induction snapshots generalizing first with
  | nil => cases h
  | cons snapshot rest ih =>
    rw [symbolBlocks, List.mem_append] at h
    rcases h with h | h
    · obtain ⟨position, -, rfl⟩ := mem_snapshotBlocks.1 h
      exact ⟨List.mem_cons_self, fun symbol hsymbol => List.mem_of_mem_drop (List.mem_of_mem_take hsymbol)⟩
    · exact ⟨List.mem_cons_of_mem _ (ih h).1, (ih h).2⟩

/-- Every symbol is in a block, at the place its ordinal says. -/
theorem exists_block {offset : Nat} {symbol : ArtifactSymbol} (h : (snapshots.flatMap GraphSnapshot.symbols)[offset]? = some symbol) :
    ∃ block ∈ symbolBlocks first snapshots, block.Contains (first + offset) ∧
      block.entries[first + offset - block.first]? = some symbol := by
  induction snapshots generalizing first offset with
  | nil => cases h
  | cons snapshot rest ih =>
    rw [List.flatMap_cons] at h
    by_cases hlt : offset < snapshot.symbols.length
    · rw [List.getElem?_append_left hlt] at h
      have hposition : offset / 256 * 256 < snapshot.symbols.length := by omega
      refine ⟨_, List.mem_append_left _ (mem_snapshotBlocks.2 ⟨offset / 256, hposition, rfl⟩), ⟨?_, ?_⟩, ?_⟩
      · dsimp only
        omega
      · unfold SymbolBlock.stop
        dsimp only
        rw [List.length_take, List.length_drop]
        omega
      · dsimp only
        rw [List.getElem?_take_of_lt (by omega), List.getElem?_drop, ← h]
        exact congrArg _ (by omega)
    · rw [List.getElem?_append_right (by omega)] at h
      obtain ⟨block, hblock, hcontains, hentry⟩ := @ih (first + snapshot.symbols.length) _ h
      have hsame : first + snapshot.symbols.length + (offset - snapshot.symbols.length) = first + offset := by omega
      rw [hsame] at hcontains hentry
      exact ⟨block, List.mem_append_right _ hblock, hcontains, hentry⟩

/-- The declarations of an artifact with their snapshots. -/
def located (snapshots : List GraphSnapshot) : List (GraphSnapshot × ArtifactSymbol) :=
  snapshots.flatMap fun snapshot => snapshot.symbols.map fun symbol => (snapshot, symbol)

/-- An entry of a block is the declaration of its ordinal. -/
theorem block_entry (h : block ∈ symbolBlocks first snapshots) {position : Nat} {symbol : ArtifactSymbol}
    (hentry : block.entries[position]? = some symbol) :
    ∃ offset, block.first = first + offset ∧ (located snapshots)[offset + position]? = some (block.snapshot, symbol) := by
  induction snapshots generalizing first with
  | nil => cases h
  | cons snapshot rest ih =>
    rw [symbolBlocks, List.mem_append] at h
    rw [located, List.flatMap_cons]
    rcases h with h | h
    · obtain ⟨chunk, hlt, rfl⟩ := mem_snapshotBlocks.1 h
      dsimp only at hentry
      have hposition : position < 256 := by
        have := (List.getElem?_eq_some_iff.1 hentry).1
        rw [List.length_take] at this
        omega
      rw [List.getElem?_take_of_lt hposition, List.getElem?_drop] at hentry
      have hinside := (List.getElem?_eq_some_iff.1 hentry).1
      refine ⟨chunk * 256, rfl, ?_⟩
      rw [List.getElem?_append_left (by rwa [List.length_map]), List.getElem?_map, hentry]
      rfl
    · obtain ⟨offset, hfirst, hlocated⟩ := ih h
      refine ⟨snapshot.symbols.length + offset, by omega, ?_⟩
      rw [List.getElem?_append_right (by rw [List.length_map]; omega), List.length_map, ← located, ← hlocated]
      exact congrArg _ (by omega)

/-- Snapshots whose declarations are changed one by one have the same blocks, changed likewise. -/
theorem symbolBlocks_map {f : GraphSnapshot → GraphSnapshot} {g : ArtifactSymbol → ArtifactSymbol}
    (h : ∀ snapshot, (f snapshot).symbols = snapshot.symbols.map g) (first : Nat) (snapshots : List GraphSnapshot) :
    symbolBlocks first (snapshots.map f) =
      (symbolBlocks first snapshots).map fun block => ⟨block.first, f block.snapshot, block.entries.map g⟩ := by
  induction snapshots generalizing first with
  | nil => rfl
  | cons snapshot rest ih =>
    rw [List.map_cons, symbolBlocks, symbolBlocks, List.map_append, h, List.length_map, ih, snapshotBlocks, snapshotBlocks,
      symbolChunks, symbolChunks, h, List.length_map, Chunks.chunks_map, List.zipIdx_map, List.map_map, List.map_map]
    rfl

/-! ## The sections of the blocks -/

variable {reader : BlobReader} (writer : BlobWriter reader)

/-- The section Core writes for a block. -/
def blockSection (block : SymbolBlock) : SectionContent where
  kind := .symbolDetailBlock
  bytes := writer.symbolDetailBlock.encode (detailBlock block.snapshot (asU32 block.first) block.entries)
  compression := 0
  ordinalStart := asU32 block.first
  ordinalEnd := asU32 (asU32 block.first + asU32 block.entries.length)

theorem asU32_add (a b : Nat) : asU32 (asU32 a + asU32 b) = asU32 (a + b) := (Nat.add_mod a b U32_LIMIT).symm

theorem snapshotSections_eq (first : Nat) (snapshot : GraphSnapshot) :
    snapshotSections writer (asU32 first) snapshot = (snapshotBlocks first snapshot).map (blockSection writer) := by
  rw [snapshotSections, snapshotBlocks, List.map_map]
  refine List.map_congr_left fun chunk _ => ?_
  dsimp only [Function.comp_apply]
  rw [asU32_add]
  rfl

theorem detailSections_eq (first : Nat) (snapshots : List GraphSnapshot) :
    detailSections writer (asU32 first) snapshots = (symbolBlocks first snapshots).map (blockSection writer) := by
  induction snapshots generalizing first with
  | nil => rfl
  | cons snapshot rest ih => rw [detailSections, symbolBlocks, List.map_append, snapshotSections_eq, asU32_add, ih]

end ArtifactLayout

namespace JvmArtifactBlobLayout

variable {reader : BlobReader} (writer : BlobWriter reader)

/-- The section the worker writes for a block. -/
def blockSection (block : SymbolBlock) : SectionContent where
  kind := .symbolDetailBlock
  bytes := writer.symbolDetailBlock.encode (detailBlock block.snapshot block.first block.entries)
  compression := 0
  ordinalStart := block.first
  ordinalEnd := block.first + block.entries.length

theorem detailSections_eq (first : Nat) (snapshots : List GraphSnapshot) :
    detailSections writer first snapshots = (symbolBlocks first snapshots).map (blockSection writer) := by
  induction snapshots generalizing first with
  | nil => rfl
  | cons snapshot rest ih =>
    rw [detailSections, symbolBlocks, List.map_append, ih, snapshotSections, snapshotBlocks, List.map_map]
    rfl

end JvmArtifactBlobLayout

end Kide
