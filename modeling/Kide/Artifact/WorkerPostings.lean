import Kide.Artifact.Implementations

/-!
# Implementations in a worker blob

The worker takes its postings from the graph before it replaces identities by ordinals, and writes its detail blocks
without a string table. `directImplementations` finds every posted declaration (`worker_posted`).
-/

namespace Kide

open Checks ArtifactProto ArtifactLayout ArtifactAdapter

namespace ArtifactQuery

open JvmArtifactBlobLayout (ordinals ordinalizeOptional ordinalizeSymbol ordinalizeSnapshot ordinalizeLocalGraphFacts)

def ordinalizedBlock (graph : GraphArtifact) (block : SymbolBlock) : SymbolBlock :=
  ⟨block.first, ordinalizeSnapshot (ordinals graph) block.snapshot, block.entries.map (ordinalizeSymbol (ordinals graph))⟩

/-- The detail block the worker writes for a block. -/
def workerDetailBlock (graph : GraphArtifact) (block : SymbolBlock) : ArtifactSymbolDetailBlock :=
  JvmArtifactBlobLayout.detailBlock (ordinalizedBlock graph block).snapshot block.first (ordinalizedBlock graph block).entries

variable {reader : BlobReader} {writer : BlobWriter reader} {graph : GraphArtifact}

theorem ordinalizedBlock_mem {block : SymbolBlock} (hblock : block ∈ symbolBlocks 0 graph.snapshots) :
    ordinalizedBlock graph block ∈ symbolBlocks 0 (ordinalizeLocalGraphFacts graph).snapshots := by
  rw [ordinalizeLocalGraphFacts, symbolBlocks_map fun _ => rfl]
  exact List.mem_map_of_mem hblock

theorem ordinalizedBlock_holds (writer : BlobWriter reader) {ordinal : Nat} {block : SymbolBlock}
    (hblock : blockOf graph ordinal = some block) : block ∈ symbolBlocks 0 graph.snapshots ∧
      (JvmArtifactBlobLayout.blockSection writer (ordinalizedBlock graph block)).Holds ordinal := by
  obtain ⟨hmem, hstart, hstop⟩ := blockOf_eq_some_iff.1 hblock
  refine ⟨hmem, rfl, hstart, ?_⟩
  rwa [JvmArtifactBlobLayout.blockSection, ordinalizedBlock, List.length_map]

theorem symbolDictionary_ordinalized : symbolDictionary (ordinalizeLocalGraphFacts graph) = symbolDictionary graph := by
  have hsymbols : (ordinalizeLocalGraphFacts graph).symbols = graph.symbols.map (ordinalizeSymbol (ordinals graph)) := by
    rw [GraphArtifact.symbols, ordinalizeLocalGraphFacts, List.flatMap_map, GraphArtifact.symbols, List.map_flatMap]
    rfl
  rw [symbolDictionary, hsymbols, List.map_map]
  rfl

section Blob

variable {bytes : Bytes} (h : JvmArtifactBlobLayout.encode writer graph = some bytes)
include h

theorem worker_readsDetails :
    ReadsDetails reader ⟨stableToc reader.sha256 (JvmArtifactBlobLayout.sections writer graph)⟩ ⟨bytes⟩ graph
      (workerDetailBlock graph) where
  dictionary := by
    rw [← @symbolDictionary_ordinalized graph]
    exact (JvmArtifactBlobLayout.encode_encoded h).symbolDictionary writer
      (List.mem_append_left _ (List.mem_append_left _ List.mem_cons_self))
  block := by
    intro ordinal block hblock
    obtain ⟨hmem, hholds⟩ := ordinalizedBlock_holds writer hblock
    rw [(JvmArtifactBlobLayout.encode_encoded h).symbolDetailBlock
      (JvmArtifactBlobLayout.blockSection_mem writer (ordinalizedBlock_mem hmem)) hholds rfl]
    exact decoded_encode writer.symbolDetailBlock _
  start := by
    intro ordinal block hblock
    obtain ⟨hmem, hholds⟩ := ordinalizedBlock_holds writer hblock
    exact (JvmArtifactBlobLayout.encode_encoded h).symbolDetailBlockStart
      (JvmArtifactBlobLayout.blockSection_mem writer (ordinalizedBlock_mem hmem)) hholds

theorem worker_count : graph.symbols.length < U32_LIMIT := by
  have hcount := (JvmArtifactBlobLayout.encode_eq_some h).2.2.1
  have hmax : JvmArtifactBlobLayout.INT_MAX = 2147483647 := rfl
  have hlimit : U32_LIMIT = 4294967296 := rfl
  omega

theorem worker_directImplementations_eq (supertype : SymbolId) : directImplementations reader ⟨bytes⟩ supertype =
    (postedOrdinals graph supertype).mapM fun ordinal => ofGraph (detailIn (workerDetailBlock graph) graph ordinal) := by
  have hencoded := JvmArtifactBlobLayout.encode_encoded h
  have hhierarchy : ArtifactBlobSections.hierarchyPostings reader
      ⟨stableToc reader.sha256 (JvmArtifactBlobLayout.sections writer graph)⟩ ⟨bytes⟩ = .ok (hierarchyPostings graph) :=
    hencoded.hierarchyPostings writer (List.mem_append_left _ (List.mem_append_left _
      (List.mem_cons_of_mem _ (List.mem_cons_of_mem _ List.mem_cons_self))))
  rw [directImplementations, hencoded.openBlob, ofLayout_ok, ok_bind, hhierarchy]
  exact postedImplementations_eq (worker_count h) supertype (worker_readsDetails h)

end Blob

/-- The worker's detail of an entry decodes, and to its identity, if its declaration does. -/
theorem worker_detail_decodes {ids : List String} {block : SymbolBlock} {position : Nat} {symbol : ArtifactSymbol}
    {record : SymbolRecord} (hentry : block.entries[position]? = some symbol)
    (hdecoded : DecodedFrom ids block.snapshot symbol record) :
    ∃ found, decodeSymbolDetail (workerDetailBlock graph block) (block.first + position) = .ok found ∧ found.id = ⟨symbol.id⟩ := by
  obtain ⟨unit, source, index, own, hunit, hsource, hindex, hown, hdecode⟩ := hdecoded
  let entries := (ordinalizedBlock graph block).entries
  let defaults := JvmArtifactBlobLayout.snapshotDefaults (ordinalizedBlock graph block).snapshot entries
  let stored := { ordinalizeSymbol (ordinals graph) symbol with provenanceIndex := none, ownerSymbolOrdinal := none }
  have hstored : entries[position]? = some (ordinalizeSymbol (ordinals graph) symbol) := by
    show (block.entries.map _)[position]? = _
    rw [List.getElem?_map, hentry]
    rfl
  have hdetail : (workerDetailBlock graph block).entries[position]? =
      some (JvmArtifactBlobLayout.symbolDetail defaults (ordinalizeSymbol (ordinals graph) symbol)) := by
    show (entries.map _)[position]? = _
    rw [List.getElem?_map, hstored]
    rfl
  have hunit : defaults.sourceUnit = some unit :=
    congrArg (fun found : Option ArtifactSourceUnit => some (found.getD JvmArtifactBlobLayout.emptySourceUnit)) hunit
  have hindex : ((JvmArtifactBlobLayout.symbolDetail defaults (ordinalizeSymbol (ordinals graph) symbol)).provenanceIndex.or
      defaults.provenanceIndex).getD 0 = symbol.provenanceIndex.getD 0 :=
    provenanceIndex_of_common ((commonProvenance_none_or entries).imp_right fun hall =>
      hall _ (List.mem_of_getElem? hstored))
  have hread : ∀ found, decodeSymbolDetail (workerDetailBlock graph block) (block.first + position) = .ok found ↔
      ∃ provenance, block.snapshot.provenances[symbol.provenanceIndex.getD 0]? = some provenance ∧
        WorkerAdapter.decodeSymbolDeclaration (decodeSymbol stored 0 []) source
          (WorkerAdapter.provenance (decodeProvenance provenance)) = .ok found := by
    intro found
    rw [← hindex]
    exact decodeSymbolDetail_eq_ok_iff hdetail rfl hunit (detailSymbol_jvm _ _) hsource rfl rfl
  obtain ⟨provenance, hprovenance⟩ := exists_first_or_own hown
  have hfields := WorkerAdapter.decodeSymbolDeclaration_ok_iff.1 ⟨record, hdecode⟩
  obtain ⟨found, hfound⟩ : ∃ found, WorkerAdapter.decodeSymbolDeclaration (decodeSymbol stored 0 []) source
      (WorkerAdapter.provenance (decodeProvenance provenance)) = .ok found :=
    WorkerAdapter.decodeSymbolDeclaration_ok_iff.2 hfields
  refine ⟨found, (hread found).2 ⟨provenance, hprovenance, hfound⟩, ?_⟩
  exact congrArg SymbolId.mk (congrArg WorkerProto.SymbolDeclaration.id (WorkerAdapter.symbolDeclaration_decode hfound).1)

/-- The postings of a worker blob name the declared subtypes, and the query returns them all. -/
theorem worker_posted {bytes : Bytes} (h : JvmArtifactBlobLayout.encode writer graph = some bytes)
    (hdecodes : ∀ snapshot ∈ graph.snapshots, ∀ symbol ∈ snapshot.symbols, ∃ record, DecodedFrom (localIds graph) snapshot symbol record)
    (supertype : SymbolId) :
    ∃ posted, directImplementations reader ⟨bytes⟩ supertype = .ok posted ∧ ∀ id, id ∈ posted.map SymbolRecord.id ↔
      id.asStr ∈ localIds graph ∧ InlineEdge graph id.asStr supertype.asStr := by
  have hdetail : ∀ ordinal symbol, graph.symbols[ordinal]? = some symbol →
      ∃ found, ofGraph (detailIn (workerDetailBlock graph) graph ordinal) = .ok found ∧ found.id = ⟨symbol.id⟩ := by
    intro ordinal symbol hsymbol
    obtain ⟨block, hblock, hentry⟩ := exists_blockOf hsymbol
    obtain ⟨hmem, hstart, -⟩ := blockOf_eq_some_iff.1 hblock
    obtain ⟨hsnapshot, hentries⟩ := block_snapshot hmem
    obtain ⟨record, hrecord⟩ := hdecodes _ hsnapshot symbol (hentries symbol (List.mem_of_getElem? hentry))
    obtain ⟨found, hfound, hid⟩ := @worker_detail_decodes graph _ _ _ _ _ hentry hrecord
    rw [Nat.add_sub_cancel' hstart] at hfound
    refine ⟨found, ?_, hid⟩
    rw [detailIn, hblock]
    exact ofGraph_eq_ok_iff.2 hfound
  have hcount := worker_count h
  rw [worker_directImplementations_eq h]
  obtain ⟨posted, hposted⟩ : ∃ posted, ((postedOrdinals graph supertype).mapM fun ordinal =>
      ofGraph (detailIn (workerDetailBlock graph) graph ordinal)) = .ok posted := by
    refine exists_mapM_eq_ok_iff.2 fun ordinal hordinal => ?_
    obtain ⟨symbol, hsymbol, -⟩ := (mem_postedOrdinals hcount supertype).1 hordinal
    obtain ⟨found, hfound, -⟩ := hdetail ordinal symbol hsymbol
    exact ⟨found, hfound⟩
  have hdetails := mapM_eq_ok_iff.1 hposted
  refine ⟨posted, hposted, fun id => ?_⟩
  rw [List.mem_map]
  constructor
  · rintro ⟨record, hrecord, rfl⟩
    obtain ⟨ordinal, hordinal, hread⟩ := forall₂_exists_mem hdetails.flip hrecord
    obtain ⟨symbol, hsymbol, hedge⟩ := (mem_postedOrdinals hcount supertype).1 hordinal
    obtain ⟨found, hfound, hid⟩ := hdetail ordinal symbol hsymbol
    obtain rfl := Except.ok.inj (hfound.symm.trans hread)
    rw [hid]
    exact ⟨List.mem_map_of_mem (List.mem_of_getElem? hsymbol), hedge⟩
  · rintro ⟨hdeclared, hedge⟩
    obtain ⟨symbol, hsymbol, hid⟩ := List.mem_map.1 hdeclared
    obtain ⟨ordinal, hordinal⟩ := List.mem_iff_getElem?.1 hsymbol
    have hmem := (mem_postedOrdinals hcount supertype).2 ⟨symbol, hordinal, hid ▸ hedge⟩
    obtain ⟨record, hrecord, hread⟩ := forall₂_exists_mem hdetails hmem
    obtain ⟨found, hfound, hfoundId⟩ := hdetail ordinal symbol hordinal
    obtain rfl := Except.ok.inj (hfound.symm.trans hread)
    exact ⟨found, hrecord, hfoundId.trans (congrArg SymbolId.mk hid)⟩

end ArtifactQuery

end Kide
