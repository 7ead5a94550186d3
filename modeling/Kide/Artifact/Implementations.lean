import Kide.Artifact.Details
import Kide.Artifact.Query

/-!
# Implementations by postings and by graph

The hierarchy postings of a blob name the inline endpoints of the edges, the graph decoder resolves the
ordinals too. `directImplementations` therefore misses an edge whose endpoints are ordinals, and its own
fallback does not (`same_implementations_iff`).
-/

namespace Kide

open Checks ArtifactProto ArtifactLayout ArtifactAdapter

namespace ArtifactQuery

def edges (graph : GraphArtifact) : List ArtifactHierarchy := graph.snapshots.flatMap GraphSnapshot.hierarchy

/-- An edge with these inline endpoints. -/
def InlineEdge (graph : GraphArtifact) (subtype supertype : String) : Prop :=
  ∃ edge ∈ edges graph, edge.subtypeSymbolId = subtype ∧ edge.supertypeSymbolId = supertype

def resolvedSubtype (ids : List String) (edge : ArtifactHierarchy) : String :=
  localIdOrDefault edge.subtypeSymbolId edge.subtypeSymbolOrdinal ids

def resolvedSupertype (ids : List String) (edge : ArtifactHierarchy) : String :=
  localIdOrDefault edge.supertypeSymbolId edge.supertypeSymbolOrdinal ids

/-- An edge whose endpoints are these, by ordinal where it has one. -/
def ResolvedEdge (graph : GraphArtifact) (subtype supertype : String) : Prop :=
  ∃ edge ∈ edges graph, resolvedSubtype (localIds graph) edge = subtype ∧ resolvedSupertype (localIds graph) edge = supertype

/-- A graph that decodes, and whose declarations all have an ordinal. -/
structure ValidGraph (graph : GraphArtifact) (snapshots : List FileAnalysisSnapshot) : Prop where
  decodes : decodeGraphArtifact graph = .ok snapshots
  ordinals : graph.symbols.length < U32_LIMIT

/-! ## The graph -/

section Graph

variable {graph : GraphArtifact} {snapshots : List FileAnalysisSnapshot} (h : decodeGraphArtifact graph = .ok snapshots)
include h

theorem decoded_edges : List.Forall₂ (fun edge (decoded : HierarchyEdge) =>
    decoded.subtype = ⟨resolvedSubtype (localIds graph) edge⟩ ∧ decoded.supertype = ⟨resolvedSupertype (localIds graph) edge⟩)
    (edges graph) (snapshots.flatMap FileAnalysisSnapshot.hierarchy) := by
  refine List.rel_flatMap (mapM_eq_ok_iff.1 h) fun snapshot value hsnapshot => ?_
  obtain ⟨index, -, hdecodes⟩ := decodeSnapshot_eq_ok_iff.1 hsnapshot
  have hedges := mapM_eq_ok_iff.1 hdecodes.hierarchy
  rw [show (workerSnapshot snapshot index (localIds graph)).hierarchy =
    snapshot.hierarchy.map fun edge => decodeHierarchy edge index (localIds graph) from rfl, List.forall₂_map_left_iff] at hedges
  refine hedges.imp fun edge decoded hedge => ?_
  obtain ⟨p, -, hdecode⟩ := bind_eq_ok_iff.1 hedge
  obtain ⟨precision, -, hdecoded⟩ := bind_eq_ok_iff.1 hdecode
  obtain rfl := Except.ok.inj hdecoded
  exact ⟨rfl, rfl⟩

theorem decoded_ids : (snapshots.flatMap FileAnalysisSnapshot.symbols).map SymbolRecord.id = (localIds graph).map SymbolId.mk := by
  have hsymbols := (decodeGraphArtifact_symbols h).imp fun entry record hrecord =>
    show SymbolId.mk entry.2.id = record.id by
      obtain ⟨_, _, _, _, -, -, -, -, hdecode⟩ := hrecord
      exact congrArg SymbolId.mk (congrArg WorkerProto.SymbolDeclaration.id (WorkerAdapter.symbolDeclaration_decode hdecode).1).symm
  have hmap := List.forall₂_map_left_iff.2 (List.forall₂_map_right_iff.2 hsymbols)
  rw [List.forall₂_eq_eq_eq] at hmap
  rw [← hmap, localIds, GraphArtifact.symbols, ← map_snd_located, List.map_map, List.map_map]
  rfl

/-- What the fallback finds in the decoded graph. -/
theorem mem_found_iff {supertype id : SymbolId} :
    id ∈ (((snapshots.flatMap FileAnalysisSnapshot.hierarchy).filter (·.supertype = supertype)).filterMap fun edge =>
        Collects.lastOf SymbolRecord.id (snapshots.flatMap FileAnalysisSnapshot.symbols) edge.subtype).map SymbolRecord.id ↔
      id.asStr ∈ localIds graph ∧ ResolvedEdge graph id.asStr supertype.asStr := by
  have hids : ∀ id : SymbolId, id ∈ (snapshots.flatMap FileAnalysisSnapshot.symbols).map SymbolRecord.id ↔ id.asStr ∈ localIds graph := by
    intro id
    rw [decoded_ids h, List.mem_map]
    exact ⟨fun ⟨text, htext, hid⟩ => hid ▸ htext, fun hid => ⟨id.asStr, hid, rfl⟩⟩
  have hedges := decoded_edges h
  rw [List.mem_map]
  constructor
  · rintro ⟨record, hrecord, rfl⟩
    obtain ⟨decoded, hdecoded, hlast⟩ := List.mem_filterMap.1 hrecord
    obtain ⟨hdecoded, hsupertype⟩ := List.mem_filter.1 hdecoded
    obtain ⟨hmem, hsubtype⟩ := Collects.lastOf_some SymbolRecord.id hlast
    obtain ⟨edge, hedge, hsub, hsuper⟩ := forall₂_exists_mem hedges.flip hdecoded
    refine ⟨(hids _).1 (List.mem_map_of_mem hmem), edge, hedge, ?_, ?_⟩
    · rw [hsubtype, hsub]
    · rw [← of_decide_eq_true hsupertype, hsuper]
  · rintro ⟨hid, edge, hedge, hsub, hsuper⟩
    obtain ⟨decoded, hdecoded, hsubtype, hsupertype⟩ := forall₂_exists_mem hedges hedge
    have hsubtype : decoded.subtype = id := by rw [hsubtype, hsub]
    have hsupertype : decoded.supertype = supertype := by rw [hsupertype, hsuper]
    obtain ⟨record, hrecord⟩ := Option.isSome_iff_exists.1 ((Collects.lastOf_isSome_iff SymbolRecord.id).2 ((hids id).2 hid))
    exact ⟨record, List.mem_filterMap.2 ⟨decoded, List.mem_filter.2 ⟨hdecoded, decide_eq_true hsupertype⟩, by rw [hsubtype, hrecord]⟩,
      (Collects.lastOf_some SymbolRecord.id hrecord).2⟩

end Graph

theorem ofLayout_ok {α : Type} (value : α) : ofLayout (.ok value) = .ok value := rfl

theorem ofGraph_eq_ok_iff {α : Type} {r : Except ArtifactProtoError α} {a : α} : ofGraph r = .ok a ↔ r = .ok a := by
  cases r with
  | error e => exact ⟨fun h => (nomatch h), fun h => (nomatch h)⟩
  | ok b => rw [ofGraph, Except.ok.injEq, Except.ok.injEq]

/-! ## Details by ordinal -/

def blockOf (graph : GraphArtifact) (ordinal : Nat) : Option SymbolBlock :=
  (symbolBlocks 0 graph.snapshots).find? fun block => block.first ≤ ordinal ∧ ordinal < block.stop

/-- The ordinal of a block's first declaration. -/
def startOf (graph : GraphArtifact) (ordinal : Nat) : Nat := ((blockOf graph ordinal).map SymbolBlock.first).getD 0

/-- The detail of an ordinal in a blob with these detail blocks. -/
def detailIn (detailBlock : SymbolBlock → ArtifactSymbolDetailBlock) (graph : GraphArtifact) (ordinal : Nat) :
    Except ArtifactProtoError SymbolRecord :=
  match blockOf graph ordinal with
  | some block => decodeSymbolDetail (detailBlock block) ordinal
  | none => .error .lengthMismatch

/-- The detail of an ordinal in Core's blob. -/
def detailOf (graph : GraphArtifact) (ordinal : Nat) : Except ArtifactProtoError SymbolRecord :=
  match blockOf graph ordinal with
  | some block => decodeSymbolDetail (detailBlock block.snapshot (asU32 block.first) block.entries) ordinal
  | none => .error .lengthMismatch

/-- What a blob gives to the posting query: its dictionary, and the block and the start of every declaration. -/
structure ReadsDetails (reader : BlobReader) (sections : ArtifactBlobSections) (blob : ArtifactBlob) (graph : GraphArtifact)
    (detailBlock : SymbolBlock → ArtifactSymbolDetailBlock) : Prop where
  dictionary : sections.symbolDictionary reader blob = .ok (symbolDictionary graph)
  block : ∀ ordinal block, blockOf graph ordinal = some block →
    sections.symbolDetailBlock reader blob ordinal = .ok (detailBlock block)
  start : ∀ ordinal block, blockOf graph ordinal = some block → sections.symbolDetailBlockStart ordinal = .ok block.first

theorem blockOf_eq_some_iff {graph : GraphArtifact} {ordinal : Nat} {block : SymbolBlock} :
    blockOf graph ordinal = some block ↔ block ∈ symbolBlocks 0 graph.snapshots ∧ block.Contains ordinal := by
  constructor
  · intro h
    have hcontains := List.find?_some h
    rw [decide_eq_true_iff] at hcontains
    exact ⟨List.mem_of_find?_eq_some h, hcontains⟩
  · rintro ⟨hblock, hcontains⟩
    have hsome : (blockOf graph ordinal).isSome := by
      rw [blockOf, List.find?_isSome]
      exact ⟨block, hblock, decide_eq_true hcontains⟩
    obtain ⟨other, hother⟩ := Option.isSome_iff_exists.1 hsome
    have hfound := List.find?_some hother
    rw [decide_eq_true_iff] at hfound
    obtain ⟨hstart, hstop⟩ := hcontains
    rcases symbolBlocks_apart (List.mem_of_find?_eq_some hother) hblock with rfl | h | h
    · exact hother
    all_goals omega

section Postings

variable {reader : BlobReader} {writer : BlobWriter reader} {graph : GraphArtifact} (hcount : graph.symbols.length < U32_LIMIT)
  {layout : ArtifactBlobLayout} (h : ArtifactBlobLayout.encode writer graph = some layout)

/-- The ordinals the dictionary gives to the identities. -/
def ordinalsFor (graph : GraphArtifact) (ids : List String) : List Nat :=
  (symbolDictionary graph).entries.zipIdx.filterMap fun entry => if entry.1.id ∈ ids then some (asU32 entry.2) else none

include hcount in
theorem mem_ordinalsFor {ids : List String} {ordinal : Nat} :
    ordinal ∈ ordinalsFor graph ids ↔ ∃ symbol, graph.symbols[ordinal]? = some symbol ∧ symbol.id ∈ ids := by
  rw [ordinalsFor, List.mem_filterMap]
  constructor
  · rintro ⟨⟨entry, position⟩, hentry, hordinal⟩
    have hget := List.mem_zipIdx_iff_getElem?.1 hentry
    rw [symbolDictionary, List.getElem?_map] at hget
    obtain ⟨symbol, hsymbol, rfl⟩ := Option.map_eq_some_iff.1 hget
    dsimp only at hordinal hsymbol
    split at hordinal
    · next hid =>
      have hlt := (List.getElem?_eq_some_iff.1 hsymbol).1
      rw [asU32_of_lt (hlt.trans hcount)] at hordinal
      exact ⟨symbol, Option.some.inj hordinal ▸ hsymbol, hid⟩
    · cases hordinal
  · rintro ⟨symbol, hsymbol, hid⟩
    have hlt := (List.getElem?_eq_some_iff.1 hsymbol).1
    refine ⟨(⟨symbol.id, symbol.name⟩, ordinal), List.mem_zipIdx_iff_getElem?.2 ?_, ?_⟩
    · rw [symbolDictionary, List.getElem?_map, hsymbol]
      rfl
    · dsimp only
      rw [if_pos hid, asU32_of_lt (hlt.trans hcount)]

theorem exists_blockOf {ordinal : Nat} {symbol : ArtifactSymbol} (hsymbol : graph.symbols[ordinal]? = some symbol) :
    ∃ block, blockOf graph ordinal = some block ∧ block.entries[ordinal - block.first]? = some symbol := by
  obtain ⟨block, hblock, hcontains, hentry⟩ := @exists_block 0 _ _ _ hsymbol
  rw [Nat.zero_add] at hcontains hentry
  exact ⟨block, blockOf_eq_some_iff.2 ⟨hblock, hcontains⟩, hentry⟩

include hcount h in
theorem encode_readsDetails : ReadsDetails reader ⟨layout.toc⟩ ⟨layout.bytes⟩ graph fun block =>
    detailBlock block.snapshot (asU32 block.first) block.entries where
  dictionary := (encode_encoded hcount h).symbolDictionary writer (List.mem_append_left _ List.mem_cons_self)
  block := by
    intro ordinal block hblock
    obtain ⟨hmem, hcontains⟩ := blockOf_eq_some_iff.1 hblock
    rw [(encode_encoded hcount h).symbolDetailBlock (blockSection_mem writer hmem) (blockSection_holds writer hcount hmem hcontains) rfl]
    exact decoded_encode writer.symbolDetailBlock _
  start := by
    intro ordinal block hblock
    obtain ⟨hmem, hcontains⟩ := blockOf_eq_some_iff.1 hblock
    rw [(encode_encoded hcount h).symbolDetailBlockStart (blockSection_mem writer hmem) (blockSection_holds writer hcount hmem hcontains),
      (blockSection_interval writer hcount hmem).1]

/-- Ordinals of one block are read from it one by one. -/
theorem readBlock_eq {sections : ArtifactBlobSections} {blob : ArtifactBlob} {detailBlock : SymbolBlock → ArtifactSymbolDetailBlock}
    (hreads : ReadsDetails reader sections blob graph detailBlock) {start : Nat} {ordinals : List Nat}
    (hordinals : ∀ ordinal ∈ ordinals, startOf graph ordinal = start ∧ ordinal < graph.symbols.length) :
    readBlock reader sections blob ordinals = ordinals.mapM fun ordinal => ofGraph (detailIn detailBlock graph ordinal) := by
  have hblocks : ∀ ordinal ∈ ordinals, ∃ block, blockOf graph ordinal = some block ∧ block.first = start := by
    intro ordinal hordinal
    obtain ⟨hstart, hlt⟩ := hordinals ordinal hordinal
    obtain ⟨block, hblock, -⟩ := exists_blockOf (List.getElem?_eq_getElem hlt)
    rw [startOf, hblock] at hstart
    exact ⟨block, hblock, hstart⟩
  cases ordinals with
  | nil => rfl
  | cons first rest =>
    obtain ⟨block, hblock, hfirst⟩ := hblocks first List.mem_cons_self
    rw [readBlock, hreads.block first block hblock, ofLayout_ok, ok_bind]
    refine mapM_congr fun ordinal hordinal => ?_
    obtain ⟨other, hother, hsame⟩ := hblocks ordinal hordinal
    have hmem := (blockOf_eq_some_iff.1 hblock).1
    have hotherMem := (blockOf_eq_some_iff.1 hother).1
    have hpos := (block_length hmem).1
    have hotherPos := (block_length hotherMem).1
    have heq : block = other := by
      rcases symbolBlocks_apart hmem hotherMem with heq | hapart | hapart
      · exact heq
      all_goals
        unfold SymbolBlock.stop at hapart
        omega
    rw [detailIn, hother, heq]

end Postings

section Groups

variable {starts : List (Nat × Nat)}

theorem mem_groupByBlock {group : List Nat} (h : group ∈ groupByBlock starts) :
    ∃ start, ∀ ordinal ∈ group, (start, ordinal) ∈ starts := by
  obtain ⟨start, -, rfl⟩ := List.mem_map.1 h
  refine ⟨start, fun ordinal hordinal => ?_⟩
  obtain ⟨⟨found, _⟩, hpair, rfl⟩ := List.mem_map.1 hordinal
  obtain ⟨hpair, hstart⟩ := List.mem_filter.1 hpair
  have hstart : found = start := of_decide_eq_true hstart
  exact hstart ▸ hpair

theorem mem_groups_flatten {ordinal : Nat} : ordinal ∈ (groupByBlock starts).flatten ↔ ∃ start, (start, ordinal) ∈ starts := by
  rw [List.mem_flatten]
  constructor
  · rintro ⟨group, hgroup, hordinal⟩
    obtain ⟨start, hstart⟩ := mem_groupByBlock hgroup
    exact ⟨start, hstart ordinal hordinal⟩
  · rintro ⟨start, hpair⟩
    refine ⟨(starts.filter (·.1 = start)).map Prod.snd, List.mem_map.2 ⟨start, ?_, rfl⟩, ?_⟩
    · exact (Collects.mem_sortedKeys _ _).2 (List.mem_map_of_mem (f := Prod.fst) hpair)
    · exact List.mem_map_of_mem (f := Prod.snd) (List.mem_filter.2 ⟨hpair, decide_eq_true rfl⟩)

end Groups

section Posted

variable {reader : BlobReader} {writer : BlobWriter reader} {graph : GraphArtifact} (hcount : graph.symbols.length < U32_LIMIT)
  {layout : ArtifactBlobLayout} (h : ArtifactBlobLayout.encode writer graph = some layout) (supertype : SymbolId)

/-- The subtypes the postings name. -/
def postedSubtypes (graph : GraphArtifact) (supertype : SymbolId) : List String :=
  ((hierarchyPostings graph).entries.filter (·.supertypeSymbolId = supertype.asStr)).map (·.subtypeSymbolId)

theorem mem_postedSubtypes {id : String} : id ∈ postedSubtypes graph supertype ↔ InlineEdge graph id supertype.asStr := by
  rw [postedSubtypes, hierarchyPostings, List.mem_map]
  constructor
  · rintro ⟨entry, hentry, rfl⟩
    obtain ⟨hentry, hsupertype⟩ := List.mem_filter.1 hentry
    obtain ⟨edge, hedge, rfl⟩ := List.mem_map.1 hentry
    exact ⟨edge, hedge, rfl, of_decide_eq_true hsupertype⟩
  · rintro ⟨edge, hedge, rfl, hsupertype⟩
    exact ⟨_, List.mem_filter.2 ⟨List.mem_map_of_mem hedge, decide_eq_true hsupertype⟩, rfl⟩

/-- The ordinals of the posted implementations, block by block. -/
def postedOrdinals (graph : GraphArtifact) (supertype : SymbolId) : List Nat :=
  (groupByBlock ((ordinalsFor graph (postedSubtypes graph supertype)).map fun ordinal => (startOf graph ordinal, ordinal))).flatten

include hcount

theorem mem_postedOrdinals {ordinal : Nat} : ordinal ∈ postedOrdinals graph supertype ↔
    ∃ symbol, graph.symbols[ordinal]? = some symbol ∧ InlineEdge graph symbol.id supertype.asStr := by
  rw [postedOrdinals, mem_groups_flatten]
  simp only [← mem_postedSubtypes]
  rw [← mem_ordinalsFor hcount]
  constructor
  · rintro ⟨start, hpair⟩
    obtain ⟨found, hfound, hsame⟩ := List.mem_map.1 hpair
    exact (Prod.mk.inj hsame).2 ▸ hfound
  · exact fun hordinal => ⟨_, List.mem_map_of_mem hordinal⟩

/-- The details of the posted ordinals. -/
theorem postedImplementations_eq {sections : ArtifactBlobSections} {blob : ArtifactBlob}
    {detailBlock : SymbolBlock → ArtifactSymbolDetailBlock} (hreads : ReadsDetails reader sections blob graph detailBlock) :
    postedImplementations reader sections blob (hierarchyPostings graph) supertype =
      (postedOrdinals graph supertype).mapM fun ordinal => ofGraph (detailIn detailBlock graph ordinal) := by
  have hordinals : ∀ ordinal ∈ ordinalsFor graph (postedSubtypes graph supertype), ordinal < graph.symbols.length := by
    intro ordinal hordinal
    obtain ⟨symbol, hsymbol, -⟩ := (mem_ordinalsFor hcount).1 hordinal
    exact (List.getElem?_eq_some_iff.1 hsymbol).1
  have hstarts : ((ordinalsFor graph (postedSubtypes graph supertype)).mapM fun ordinal => do
      let start ← ofLayout (sections.symbolDetailBlockStart ordinal)
      pure (start, ordinal)) =
      .ok ((ordinalsFor graph (postedSubtypes graph supertype)).map fun ordinal => (startOf graph ordinal, ordinal)) := by
    rw [mapM_eq_ok_map_iff]
    intro ordinal hordinal
    obtain ⟨block, hblock, -⟩ := exists_blockOf (List.getElem?_eq_getElem (hordinals ordinal hordinal))
    rw [hreads.start ordinal block hblock, startOf, hblock]
    rfl
  have hgroups : ∀ group ∈ groupByBlock ((ordinalsFor graph (postedSubtypes graph supertype)).map fun ordinal =>
      (startOf graph ordinal, ordinal)), readBlock reader sections blob group =
        group.mapM fun ordinal => ofGraph (detailIn detailBlock graph ordinal) := by
    intro group hgroup
    obtain ⟨start, hstart⟩ := mem_groupByBlock hgroup
    have hsame : ∀ ordinal ∈ group, startOf graph ordinal = start ∧ ordinal < graph.symbols.length := by
      intro ordinal hordinal
      obtain ⟨found, hfound, hpair⟩ := List.mem_map.1 (hstart ordinal hordinal)
      obtain ⟨hsame, rfl⟩ := Prod.mk.inj hpair
      exact ⟨hsame, hordinals found hfound⟩
    exact readBlock_eq hreads hsame
  rw [postedImplementations, postedOrdinals, ← mapM_groups, ← mapM_congr hgroups]
  change (if postedSubtypes graph supertype = [] then _ else _) = _
  by_cases hnone : postedSubtypes graph supertype = []
  · have hempty : ordinalsFor graph [] = [] := by
      rw [ordinalsFor, List.filterMap_eq_nil_iff]
      exact fun entry _ => if_neg (List.not_mem_nil)
    rw [if_pos hnone, hnone, hempty]
    rfl
  · rw [if_neg hnone, hreads.dictionary, ofLayout_ok, ok_bind]
    change ((ordinalsFor graph (postedSubtypes graph supertype)).mapM _ >>= fun starts => _) = _
    rw [hstarts, ok_bind]

include h

theorem directImplementations_eq : directImplementations reader ⟨layout.bytes⟩ supertype =
    (postedOrdinals graph supertype).mapM fun ordinal => ofGraph (detailOf graph ordinal) := by
  have hencoded := encode_encoded hcount h
  have hhierarchy : ArtifactBlobSections.hierarchyPostings reader ⟨layout.toc⟩ ⟨layout.bytes⟩ = .ok (hierarchyPostings graph) :=
    hencoded.hierarchyPostings writer
      (List.mem_append_left _ (List.mem_cons_of_mem _ (List.mem_cons_of_mem _ List.mem_cons_self)))
  rw [directImplementations, hencoded.openBlob, ofLayout_ok, ok_bind, hhierarchy]
  exact postedImplementations_eq hcount supertype (encode_readsDetails hcount h)

theorem graphImplementations_eq {snapshots : List FileAnalysisSnapshot} (hdecodes : decodeGraphArtifact graph = .ok snapshots) :
    graphImplementations reader ⟨layout.bytes⟩ supertype =
      .ok (((snapshots.flatMap FileAnalysisSnapshot.hierarchy).filter (·.supertype = supertype)).filterMap fun edge =>
        Collects.lastOf SymbolRecord.id (snapshots.flatMap FileAnalysisSnapshot.symbols) edge.subtype) := by
  have hencoded := encode_encoded hcount h
  have hsize := (encode_eq_some h).2
  have hrange : ArtifactBlob.readRange ⟨layout.bytes⟩ 0 layout.bytes.length = .ok layout.bytes := by
    refine readRange_eq_ok_iff.2 ⟨by omega, by rw [Nat.zero_add], ?_⟩
    rw [ByteStrings.slice, List.drop_zero, List.take_length]
  have hfacts : ArtifactBlobSections.graphFacts reader ⟨layout.toc⟩ ⟨layout.bytes⟩ = .ok graph :=
    hencoded.graphFacts writer (List.mem_append_left _ (List.mem_cons_of_mem _ (List.mem_cons_of_mem _
      (List.mem_cons_of_mem _ (List.mem_cons_of_mem _ List.mem_cons_self)))))
  rw [graphImplementations]
  dsimp only
  rw [hrange, ofLayout_ok, ok_bind, hencoded.validate, ofLayout_ok, ok_bind, graphFacts_eq hencoded.accepts, hfacts, ofLayout_ok,
    ok_bind, hdecodes]
  rfl

end Posted

/-! ## Postings and graph -/

/-- The two paths return declarations of the same identities. -/
def SameImplementations (reader : BlobReader) (blob : ArtifactBlob) (supertype : SymbolId) : Prop :=
  ∃ posted found, directImplementations reader blob supertype = .ok posted ∧ graphImplementations reader blob supertype = .ok found ∧
    ∀ id, id ∈ posted.map SymbolRecord.id ↔ id ∈ found.map SymbolRecord.id

/-- What the postings of a graph need to name the implementations. -/
structure Posted (graph : GraphArtifact) (supertype : SymbolId) : Prop where
  /-- The inline endpoints name the same declared subtypes as the resolved ones. -/
  edges : ∀ id ∈ localIds graph, InlineEdge graph id supertype.asStr ↔ ResolvedEdge graph id supertype.asStr
  /-- The kind of a posted declaration is read back from the string table of its block. -/
  kinds : ∀ block ∈ symbolBlocks 0 graph.snapshots, ∀ symbol ∈ block.entries, InlineEdge graph symbol.id supertype.asStr →
    ∃ kind, WorkerAdapter.symbolKind ((StringTable.fromSymbols block.entries).read symbol.kind) = .ok kind

/-- A table of at most `2^32` strings gives every kind back. -/
theorem posted_of_edges {graph : GraphArtifact} {snapshots : List FileAnalysisSnapshot} (hvalid : ValidGraph graph snapshots)
    {supertype : SymbolId}
    (hedges : ∀ id ∈ localIds graph, InlineEdge graph id supertype.asStr ↔ ResolvedEdge graph id supertype.asStr)
    (htables : ∀ block ∈ symbolBlocks 0 graph.snapshots, (StringTable.fromSymbols block.entries).values.length ≤ U32_LIMIT) :
    Posted graph supertype := by
  refine ⟨hedges, fun block hblock symbol hsymbol _ => ?_⟩
  obtain ⟨position, hentry⟩ := List.mem_iff_getElem?.1 hsymbol
  obtain ⟨record, -, -, _, _, _, -, -, -, -, hdecode⟩ := block_record hvalid.decodes hblock hentry
  rw [StringTable.read_eq (htables block hblock)]
  exact (WorkerAdapter.decodeSymbolDeclaration_ok_iff.1 ⟨record, hdecode⟩).2.2.1

variable {reader : BlobReader} {writer : BlobWriter reader} {graph : GraphArtifact} {snapshots : List FileAnalysisSnapshot}

/-- The detail of a declaration decodes if its kind is read back, and then to its identity. -/
theorem detailOf_spec (hvalid : ValidGraph graph snapshots) {block : SymbolBlock} (hblock : block ∈ symbolBlocks 0 graph.snapshots)
    {position : Nat} {symbol : ArtifactSymbol} (hentry : block.entries[position]? = some symbol) :
    graph.symbols[block.first + position]? = some symbol ∧
      ((∃ record, detailOf graph (block.first + position) = .ok record) ↔
        ∃ kind, WorkerAdapter.symbolKind ((StringTable.fromSymbols block.entries).read symbol.kind) = .ok kind) ∧
      ∀ record, detailOf graph (block.first + position) = .ok record → record.id = ⟨symbol.id⟩ := by
  obtain ⟨record, -, hdecoded⟩ := block_record hvalid.decodes hblock hentry
  obtain ⟨offset, hoffset, hlocated⟩ := block_entry hblock hentry
  have hlt := (List.getElem?_eq_some_iff.1 hentry).1
  have hfound : blockOf graph (block.first + position) = some block :=
    blockOf_eq_some_iff.2 ⟨hblock, Nat.le_add_right _ _, Nat.add_lt_add_left hlt _⟩
  have hsymbol : graph.symbols[block.first + position]? = some symbol := by
    rw [GraphArtifact.symbols, ← map_snd_located, List.getElem?_map, hoffset, Nat.zero_add, hlocated]
    rfl
  have hfirst : asU32 block.first = block.first := by
    have := (List.getElem?_eq_some_iff.1 hsymbol).1
    have := hvalid.ordinals
    exact asU32_of_lt (by omega)
  refine ⟨hsymbol, ?_⟩
  rw [detailOf, hfound]
  dsimp only
  rw [hfirst]
  exact core_detail_decodes_iff hentry hdecoded block.first

/-- The same for an ordinal. -/
theorem detailOf_ordinal (hvalid : ValidGraph graph snapshots) {ordinal : Nat} {symbol : ArtifactSymbol}
    (hsymbol : graph.symbols[ordinal]? = some symbol) : ∃ block ∈ symbolBlocks 0 graph.snapshots, symbol ∈ block.entries ∧
      ((∃ record, detailOf graph ordinal = .ok record) ↔
        ∃ kind, WorkerAdapter.symbolKind ((StringTable.fromSymbols block.entries).read symbol.kind) = .ok kind) ∧
      ∀ record, detailOf graph ordinal = .ok record → record.id = ⟨symbol.id⟩ := by
  obtain ⟨block, hblock, hentry⟩ := exists_blockOf hsymbol
  obtain ⟨hmem, hstart, -⟩ := blockOf_eq_some_iff.1 hblock
  have hspec := (detailOf_spec hvalid hmem hentry).2
  rw [Nat.add_sub_cancel' hstart] at hspec
  exact ⟨block, hmem, List.mem_of_getElem? hentry, hspec⟩

theorem posted_ok_iff (hvalid : ValidGraph graph snapshots) (supertype : SymbolId) :
    (∃ posted, ((postedOrdinals graph supertype).mapM fun ordinal => ofGraph (detailOf graph ordinal)) = .ok posted) ↔
      ∀ block ∈ symbolBlocks 0 graph.snapshots, ∀ symbol ∈ block.entries, InlineEdge graph symbol.id supertype.asStr →
        ∃ kind, WorkerAdapter.symbolKind ((StringTable.fromSymbols block.entries).read symbol.kind) = .ok kind := by
  rw [exists_mapM_eq_ok_iff]
  simp only [ofGraph_eq_ok_iff, mem_postedOrdinals hvalid.ordinals]
  constructor
  · intro hdecodes block hblock symbol hsymbol hposted
    obtain ⟨position, hentry⟩ := List.mem_iff_getElem?.1 hsymbol
    obtain ⟨hordinal, hspec, -⟩ := detailOf_spec hvalid hblock hentry
    exact hspec.1 (hdecodes _ ⟨symbol, hordinal, hposted⟩)
  · rintro hkinds ordinal ⟨symbol, hsymbol, hposted⟩
    obtain ⟨block, hblock, hentry, hspec, -⟩ := detailOf_ordinal hvalid hsymbol
    exact hspec.2 (hkinds block hblock symbol hentry hposted)

/-- The posted implementations are the declared inline subtypes. -/
theorem mem_posted_iff (hvalid : ValidGraph graph snapshots) {supertype id : SymbolId} {posted : List SymbolRecord}
    (hposted : ((postedOrdinals graph supertype).mapM fun ordinal => ofGraph (detailOf graph ordinal)) = .ok posted) :
    id ∈ posted.map SymbolRecord.id ↔ id.asStr ∈ localIds graph ∧ InlineEdge graph id.asStr supertype.asStr := by
  have hdetails := mapM_eq_ok_iff.1 hposted
  rw [List.mem_map]
  constructor
  · rintro ⟨record, hrecord, rfl⟩
    obtain ⟨ordinal, hordinal, hdetail⟩ := forall₂_exists_mem hdetails.flip hrecord
    obtain ⟨symbol, hsymbol, hedge⟩ := (mem_postedOrdinals hvalid.ordinals supertype).1 hordinal
    obtain ⟨_, -, -, -, hid⟩ := detailOf_ordinal hvalid hsymbol
    rw [hid record (ofGraph_eq_ok_iff.1 hdetail)]
    exact ⟨List.mem_map_of_mem (List.mem_of_getElem? hsymbol), hedge⟩
  · rintro ⟨hdeclared, hedge⟩
    obtain ⟨symbol, hsymbol, hid⟩ := List.mem_map.1 hdeclared
    obtain ⟨ordinal, hordinal⟩ := List.mem_iff_getElem?.1 hsymbol
    have hmem := (mem_postedOrdinals hvalid.ordinals supertype).2 ⟨symbol, hordinal, hid ▸ hedge⟩
    obtain ⟨record, hrecord, hdetail⟩ := forall₂_exists_mem hdetails hmem
    obtain ⟨_, -, -, -, hrecordId⟩ := detailOf_ordinal hvalid hordinal
    refine ⟨record, hrecord, ?_⟩
    rw [hrecordId record (ofGraph_eq_ok_iff.1 hdetail), hid]

/-- The postings give the implementations of the graph exactly where the endpoints they are taken from
name them. -/
theorem same_implementations_iff (writer : BlobWriter reader) (hvalid : ValidGraph graph snapshots) {layout : ArtifactBlobLayout}
    (h : ArtifactBlobLayout.encode writer graph = some layout) (supertype : SymbolId) :
    SameImplementations reader ⟨layout.bytes⟩ supertype ↔ Posted graph supertype := by
  have hfound := graphImplementations_eq hvalid.ordinals h supertype hvalid.decodes
  unfold SameImplementations
  rw [directImplementations_eq hvalid.ordinals h supertype, hfound]
  constructor
  · rintro ⟨posted, found, hposted, hgraph, hsame⟩
    obtain rfl := Except.ok.inj hgraph
    refine ⟨fun id hid => ?_, (posted_ok_iff hvalid supertype).1 ⟨posted, hposted⟩⟩
    have hiff := hsame ⟨id⟩
    rw [mem_posted_iff hvalid hposted, mem_found_iff hvalid.decodes, and_iff_right hid, and_iff_right hid] at hiff
    exact hiff
  · intro hgiven
    obtain ⟨posted, hposted⟩ := (posted_ok_iff hvalid supertype).2 hgiven.kinds
    refine ⟨posted, _, hposted, rfl, fun id => ?_⟩
    rw [mem_posted_iff hvalid hposted, mem_found_iff hvalid.decodes]
    exact and_congr_right fun hid => hgiven.edges id.asStr hid

/-- Two classes of a file and one edge between them. -/
def implementingGraph (edge : ArtifactHierarchy) : GraphArtifact :=
  let unit := sampleUnit "A.kt" "sha256:a"
  let value : FileAnalysisSnapshot := { emptySnapshot unit with symbols := [sampleSymbol unit "Base", sampleSymbol unit "Impl"] }
  ⟨(graphArtifact [value]).snapshots.map fun snapshot => { snapshot with hierarchy := [edge] }⟩

/-- `Impl` extends `Base`, by identity and by ordinal. -/
def inlineEdge : ArtifactHierarchy := ⟨"Impl", "Base", "exact", none, none, none⟩

def ordinalEdge : ArtifactHierarchy := ⟨"", "", "exact", none, some 1, some 0⟩

theorem implementingGraph_valid (edge : ArtifactHierarchy) (hedge : edge = inlineEdge ∨ edge = ordinalEdge) :
    ∃ snapshots, ValidGraph (implementingGraph edge) snapshots := by
  rcases hedge with rfl | rfl
  · obtain ⟨snapshots, h⟩ := exists_ok_of_isOk (r := decodeGraphArtifact (implementingGraph inlineEdge)) (by decide +kernel)
    exact ⟨snapshots, h, by decide⟩
  · obtain ⟨snapshots, h⟩ := exists_ok_of_isOk (r := decodeGraphArtifact (implementingGraph ordinalEdge)) (by decide +kernel)
    exact ⟨snapshots, h, by decide⟩

theorem implementingGraph_blob (edge : ArtifactHierarchy) (hedge : edge = inlineEdge ∨ edge = ordinalEdge) :
    ∃ layout, ArtifactBlobLayout.encode wireWriter (implementingGraph edge) = some layout := by
  have htoc : stableToc wireReader.sha256 (sections wireWriter (implementingGraph edge)) =
      (nextToc wireReader.sha256 (sections wireWriter (implementingGraph edge)))^[3] emptyToc :=
    stableToc_eq_iterate _ (by rcases hedge with rfl | rfl <;> decide +kernel)
  exact ⟨_, encode_eq_of_toc htoc (by rcases hedge with rfl | rfl <;> decide +kernel)⟩

theorem inlineEdge_found : ∃ layout, ArtifactBlobLayout.encode wireWriter (implementingGraph inlineEdge) = some layout ∧
    SameImplementations wireReader ⟨layout.bytes⟩ ⟨"Base"⟩ := by
  obtain ⟨snapshots, hvalid⟩ := implementingGraph_valid inlineEdge (.inl rfl)
  obtain ⟨layout, hlayout⟩ := implementingGraph_blob inlineEdge (.inl rfl)
  refine ⟨layout, hlayout, (same_implementations_iff wireWriter hvalid hlayout ⟨"Base"⟩).2 (posted_of_edges hvalid ?_ ?_)⟩
  · intro id hid
    constructor
    · rintro ⟨edge, hedge, hsub, hsuper⟩
      rw [List.mem_singleton.1 hedge] at hsub hsuper
      exact ⟨inlineEdge, List.mem_singleton_self _, hsub, hsuper⟩
    · rintro ⟨edge, hedge, hsub, hsuper⟩
      rw [List.mem_singleton.1 hedge] at hsub hsuper
      exact ⟨inlineEdge, List.mem_singleton_self _, hsub, hsuper⟩
  · decide +kernel

/-- The edge by ordinal is in the graph and not in the postings. -/
theorem ordinalEdge_missing : ¬ ∀ (graph : GraphArtifact) (snapshots : List FileAnalysisSnapshot), ValidGraph graph snapshots →
    ∀ layout, ArtifactBlobLayout.encode wireWriter graph = some layout → ∀ supertype,
      SameImplementations wireReader ⟨layout.bytes⟩ supertype := by
  intro hsame
  obtain ⟨snapshots, hvalid⟩ := implementingGraph_valid ordinalEdge (.inr rfl)
  obtain ⟨layout, hlayout⟩ := implementingGraph_blob ordinalEdge (.inr rfl)
  obtain ⟨posted, found, hposted, hfound, hids⟩ := hsame _ _ hvalid layout hlayout ⟨"Base"⟩
  rw [directImplementations_eq hvalid.ordinals hlayout] at hposted
  rw [graphImplementations_eq hvalid.ordinals hlayout _ hvalid.decodes] at hfound
  obtain rfl := Except.ok.inj hfound
  have hiff := hids ⟨"Impl"⟩
  rw [mem_posted_iff hvalid hposted, mem_found_iff hvalid.decodes] at hiff
  have hdeclared : "Impl" ∈ localIds (implementingGraph ordinalEdge) := by decide +kernel
  obtain ⟨-, edge, hedge, hsub, -⟩ := hiff.2 ⟨hdeclared, ordinalEdge, List.mem_singleton_self _, by decide +kernel, by decide +kernel⟩
  rw [List.mem_singleton.1 hedge] at hsub
  revert hsub
  decide

end ArtifactQuery

end Kide
