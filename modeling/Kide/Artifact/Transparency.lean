import Kide.Artifact.Implementations

/-!
# The worker's blob read by Core

The worker replaces identities by ordinals and Core looks them up again. For an artifact that names all
identities inline the graph comes back as Core would have decoded it, and the name and hierarchy sections
list what Core's own encoder lists, the directory in another order (`jvm_blob_transparent`).
-/

namespace Kide

open Checks ArtifactProto ArtifactLayout ArtifactAdapter

namespace JvmArtifactBlobLayout

/-- Every identity of a fact is given inline. -/
structure InlineOnly (graph : GraphArtifact) : Prop where
  symbols : ∀ snapshot ∈ graph.snapshots, ∀ symbol ∈ snapshot.symbols, symbol.ownerSymbolOrdinal = none
  occurrences : ∀ snapshot ∈ graph.snapshots, ∀ occurrence ∈ snapshot.occurrences,
    occurrence.enclosingSymbolOrdinal = none ∧ occurrence.targetSymbolOrdinal = none
  references : ∀ snapshot ∈ graph.snapshots, ∀ edge ∈ snapshot.references, edge.targetSymbolOrdinal = none
  calls : ∀ snapshot ∈ graph.snapshots, ∀ edge ∈ snapshot.calls, edge.targetSymbolOrdinal = none ∧ edge.callerSymbolOrdinal = none
  hierarchy : ∀ snapshot ∈ graph.snapshots, ∀ edge ∈ snapshot.hierarchy,
    edge.subtypeSymbolOrdinal = none ∧ edge.supertypeSymbolOrdinal = none

/-! ## Ordinals looked up -/

theorem resolves_ordinals (graph : GraphArtifact) : Resolves (ordinals graph) (localIds graph) := by
  intro id ordinal hordinal
  obtain ⟨entry, hentry, rfl⟩ := Option.map_eq_some_iff.1 hordinal
  obtain ⟨hmem, rfl⟩ := Collects.lastOf_some Prod.fst hentry
  exact List.mem_zipIdx_iff_getElem?.1 hmem

theorem localIds_ordinalize (graph : GraphArtifact) : localIds (ordinalizeLocalGraphFacts graph) = localIds graph := by
  rw [localIds, localIds, GraphArtifact.symbols, GraphArtifact.symbols, ordinalizeLocalGraphFacts, List.flatMap_map, List.map_flatMap,
    List.map_flatMap]
  refine List.flatMap_congr fun snapshot _ => ?_
  rw [ordinalizeSnapshot, List.map_map]
  rfl

section Facts

variable {table : Ordinals} {ids : List String} (h : Resolves table ids)
include h

theorem localOptional_ordinalize (id : Option String) :
    localOptional (ordinalizeOptional id none table).1 (ordinalizeOptional id none table).2 ids = localOptional id none ids := by
  unfold ordinalizeOptional
  cases id with
  | none => rfl
  | some id =>
    rw [Option.bind_some]
    cases hordinal : localOrdinal id table with
    | none => rfl
    | some ordinal => simp [localOptional, h id ordinal hordinal]

theorem localIdOrDefault_ordinalize (id : String) :
    localIdOrDefault (ordinalizeId id none table).1 (ordinalizeId id none table).2 ids = localIdOrDefault id none ids := by
  unfold ordinalizeId
  cases hordinal : localOrdinal id table with
  | none => rfl
  | some ordinal => simp [localIdOrDefault, localId, h id ordinal hordinal]

variable (index : Nat)

theorem decodeSymbol_ordinalize {symbol : ArtifactSymbol} (hinline : symbol.ownerSymbolOrdinal = none) :
    decodeSymbol (ordinalizeSymbol table symbol) index ids = decodeSymbol symbol index ids := by
  unfold decodeSymbol ordinalizeSymbol
  simp only [hinline, localOptional_ordinalize h]

theorem decodeOccurrence_ordinalize {occurrence : ArtifactOccurrence}
    (hinline : occurrence.enclosingSymbolOrdinal = none ∧ occurrence.targetSymbolOrdinal = none) :
    decodeOccurrence (ordinalizeOccurrence table occurrence) index ids = decodeOccurrence occurrence index ids := by
  unfold decodeOccurrence ordinalizeOccurrence
  simp only [hinline.1, hinline.2, localOptional_ordinalize h]

theorem decodeReference_ordinalize {edge : ArtifactReference} (hinline : edge.targetSymbolOrdinal = none) :
    decodeReference (ordinalizeReference table edge) ids = decodeReference edge ids := by
  unfold decodeReference ordinalizeReference
  simp only [hinline, localIdOrDefault_ordinalize h]

theorem decodeCall_ordinalize {edge : ArtifactCall} (hinline : edge.targetSymbolOrdinal = none ∧ edge.callerSymbolOrdinal = none) :
    decodeCall (ordinalizeCall table edge) ids = decodeCall edge ids := by
  unfold decodeCall ordinalizeCall
  simp only [hinline.1, hinline.2, localIdOrDefault_ordinalize h, localOptional_ordinalize h]

theorem decodeHierarchy_ordinalize {edge : ArtifactHierarchy}
    (hinline : edge.subtypeSymbolOrdinal = none ∧ edge.supertypeSymbolOrdinal = none) :
    decodeHierarchy (ordinalizeHierarchy table edge) index ids = decodeHierarchy edge index ids := by
  unfold decodeHierarchy ordinalizeHierarchy
  simp only [hinline.1, hinline.2, localIdOrDefault_ordinalize h]

end Facts

theorem map_map_same {α β : Type} {f : α → β} {g : α → α} {l : List α} (h : ∀ a ∈ l, f (g a) = f a) : (l.map g).map f = l.map f := by
  rw [List.map_map]
  exact List.map_congr_left h

theorem workerSnapshot_ordinalize {graph : GraphArtifact} (hinline : InlineOnly graph) {snapshot : GraphSnapshot}
    (hsnapshot : snapshot ∈ graph.snapshots) (index : Nat) :
    workerSnapshot (ordinalizeSnapshot (ordinals graph) snapshot) index (localIds graph) =
      workerSnapshot snapshot index (localIds graph) := by
  have h := resolves_ordinals graph
  unfold workerSnapshot ordinalizeSnapshot
  simp only [WorkerProto.FileAnalysisSnapshot.mk.injEq, true_and, and_true]
  exact ⟨map_map_same fun symbol hsymbol => decodeSymbol_ordinalize h index (hinline.symbols snapshot hsnapshot symbol hsymbol),
    map_map_same fun occurrence hoccurrence =>
      decodeOccurrence_ordinalize h index (hinline.occurrences snapshot hsnapshot occurrence hoccurrence),
    map_map_same fun edge hedge => decodeReference_ordinalize h (hinline.references snapshot hsnapshot edge hedge),
    map_map_same fun edge hedge => decodeCall_ordinalize h (hinline.calls snapshot hsnapshot edge hedge),
    map_map_same fun edge hedge => decodeHierarchy_ordinalize h index (hinline.hierarchy snapshot hsnapshot edge hedge)⟩

/-- Core decodes the graph with ordinals as the one without. -/
theorem decodeGraphArtifact_ordinalize {graph : GraphArtifact} (hinline : InlineOnly graph) :
    decodeGraphArtifact (ordinalizeLocalGraphFacts graph) = decodeGraphArtifact graph := by
  rw [decodeGraphArtifact, decodeGraphArtifact, localIds_ordinalize, ordinalizeLocalGraphFacts, List.mapM_map]
  refine mapM_congr fun snapshot hsnapshot => ?_
  change decodeSnapshot (ordinalizeSnapshot (ordinals graph) snapshot) (localIds graph) = _
  unfold decodeSnapshot
  simp only [workerSnapshot_ordinalize hinline hsnapshot]
  rfl

/-! ## Sections -/

theorem symbolDictionary_ordinalize (graph : GraphArtifact) :
    symbolDictionary (ordinalizeLocalGraphFacts graph) = symbolDictionary graph := by
  rw [symbolDictionary, symbolDictionary, GraphArtifact.symbols, GraphArtifact.symbols, ordinalizeLocalGraphFacts, List.flatMap_map,
    List.map_flatMap, List.map_flatMap]
  refine congrArg _ (List.flatMap_congr fun snapshot _ => ?_)
  rw [ordinalizeSnapshot, List.map_map]
  rfl

theorem postingEntries_ordinalize (table : Ordinals) (sourceUnitIndex firstOrdinal : Nat) (snapshots : List GraphSnapshot) :
    postingEntries sourceUnitIndex firstOrdinal (snapshots.map (ordinalizeSnapshot table)) =
      postingEntries sourceUnitIndex firstOrdinal snapshots := by
  induction snapshots generalizing sourceUnitIndex firstOrdinal with
  | nil => rfl
  | cons snapshot rest ih =>
    rw [List.map_cons, postingEntries, postingEntries, ih, ordinalizeSnapshot, List.zipIdx_map, List.map_map, List.length_map]
    rfl

/-- Without overflow the encoders post the same ordinals. -/
theorem postingEntries_eq {sourceUnitIndex firstOrdinal : Nat} {snapshots : List GraphSnapshot}
    (hunits : sourceUnitIndex + snapshots.length < U32_LIMIT)
    (hordinals : firstOrdinal + (snapshots.flatMap GraphSnapshot.symbols).length < U32_LIMIT) :
    symbolPostingEntries sourceUnitIndex firstOrdinal snapshots = postingEntries sourceUnitIndex firstOrdinal snapshots := by
  induction snapshots generalizing sourceUnitIndex firstOrdinal with
  | nil => rfl
  | cons snapshot rest ih =>
    rw [List.flatMap_cons, List.length_append] at hordinals
    rw [List.length_cons] at hunits
    have hlength : asU32 snapshot.symbols.length = snapshot.symbols.length := asU32_of_lt (by omega)
    have hnext : asU32 (firstOrdinal + snapshot.symbols.length) = firstOrdinal + snapshot.symbols.length := asU32_of_lt (by omega)
    rw [symbolPostingEntries, postingEntries, hlength, hnext, ih (by omega) (by omega)]
    refine congrArg (· ++ _) (List.map_congr_left fun entry hentry => ?_)
    have hposition := (List.getElem?_eq_some_iff.1 (List.mem_zipIdx_iff_getElem?.1 hentry)).1
    rw [asU32_of_lt (by omega : sourceUnitIndex < U32_LIMIT), asU32_of_lt (by omega : entry.2 < U32_LIMIT),
      asU32_of_lt (by omega : firstOrdinal + entry.2 < U32_LIMIT)]

theorem directoryEntries_ordinalize {graph : GraphArtifact} (hcount : graph.symbols.length ≤ U32_LIMIT) :
    directoryEntries (ordinalizeLocalGraphFacts graph) = ArtifactLayout.directoryEntries graph := by
  have hsymbols : (ordinalizeLocalGraphFacts graph).symbols = graph.symbols.map (ordinalizeSymbol (ordinals graph)) := by
    rw [GraphArtifact.symbols, GraphArtifact.symbols, ordinalizeLocalGraphFacts, List.flatMap_map, List.map_flatMap]
    rfl
  rw [directoryEntries, ArtifactLayout.directoryEntries, hsymbols, List.zipIdx_map, List.filterMap_map]
  refine List.filterMap_congr fun entry hentry => ?_
  have hposition := (List.getElem?_eq_some_iff.1 (List.mem_zipIdx_iff_getElem?.1 hentry)).1
  rw [asU32_of_lt (hposition.trans_le hcount)]
  rfl

/-- The worker's sections in terms of Core's. -/
theorem sections_eq_core {reader : BlobReader} (writer : BlobWriter reader) {graph : GraphArtifact}
    (hunits : graph.snapshots.length < U32_LIMIT) (hcount : graph.symbols.length < U32_LIMIT) :
    sections writer graph =
      [plainSection .symbolDictionary (writer.symbolDictionary.encode (symbolDictionary graph)) 0,
        plainSection .symbolPostings (writer.symbolPostings.encode (symbolPostings graph)) 0,
        plainSection .hierarchyPostings (writer.hierarchyPostings.encode (hierarchyPostings graph)) 0,
        plainSection .qualifiedSymbolDirectory
          (writer.qualifiedSymbolDirectory.encode ⟨(ArtifactLayout.directoryEntries graph).insertionSort directoryLe⟩) 0] ++
        detailSections writer 0 (ordinalizeLocalGraphFacts graph).snapshots ++
        [plainSection .graphFacts (writer.gzip.encode (writer.graphFacts.encode (ordinalizeLocalGraphFacts graph))) 1] := by
  have hpostings : postingEntries 0 0 (ordinalizeLocalGraphFacts graph).snapshots = symbolPostingEntries 0 0 graph.snapshots := by
    rw [postingEntries_eq (by rwa [Nat.zero_add]) (by rwa [Nat.zero_add])]
    exact postingEntries_ordinalize _ 0 0 _
  rw [sections, symbolDictionary_ordinalize, hpostings, directoryEntries_ordinalize hcount.le]
  rfl

/-- Core reads the worker's blob of an inline artifact as its own: the same graph, the same dictionary and
postings, and a directory of the same entries. -/
theorem jvm_blob_transparent {reader : BlobReader} (writer : BlobWriter reader) {graph : GraphArtifact} (hinline : InlineOnly graph)
    {bytes : Bytes} (h : encode writer graph = some bytes) :
    ∃ layout sections facts directory, ArtifactBlobLayout.validate reader bytes = .ok layout ∧
      ArtifactBlobSections.openBlob reader ⟨bytes⟩ = .ok sections ∧
      layout.graphFacts reader = .ok facts ∧ decodeGraphArtifact facts = decodeGraphArtifact graph ∧
      sections.symbolDictionary reader ⟨bytes⟩ = .ok (symbolDictionary graph) ∧
      sections.symbolPostings reader ⟨bytes⟩ = .ok (symbolPostings graph) ∧
      sections.hierarchyPostings reader ⟨bytes⟩ = .ok (hierarchyPostings graph) ∧
      sections.qualifiedSymbolDirectory reader ⟨bytes⟩ = .ok directory ∧
      directory.entries.Perm (qualifiedSymbolDirectory graph).entries := by
  have hencoded := encode_encoded h
  obtain ⟨-, hunits, hsymbols, -⟩ := encode_eq_some h
  obtain ⟨toc, htoc⟩ : ∃ toc, toc = stableToc reader.sha256 (sections writer graph) := ⟨_, rfl⟩
  rw [← htoc, sections_eq_core writer (hunits.trans_lt (by decide)) (hsymbols.trans_lt (by decide))] at hencoded
  refine ⟨⟨bytes, toc⟩, ⟨toc⟩, ordinalizeLocalGraphFacts graph, ⟨(ArtifactLayout.directoryEntries graph).insertionSort directoryLe⟩,
    hencoded.validate, hencoded.openBlob, ?_, decodeGraphArtifact_ordinalize hinline, ?_, ?_, ?_, ?_, ?_⟩
  · rw [graphFacts_eq hencoded.accepts]
    exact hencoded.graphFacts writer (List.mem_append_right _ List.mem_cons_self)
  · exact hencoded.symbolDictionary writer (by simp)
  · exact hencoded.symbolPostings writer (by simp)
  · exact hencoded.hierarchyPostings writer (by simp)
  · exact hencoded.qualifiedSymbolDirectory writer (by simp)
  · exact (List.perm_insertionSort _ _).trans (List.perm_insertionSort _ _).symm

/-- An edge between two declarations of the artifact becomes two ordinals and comes back. -/
theorem implementingGraph_transparent : ∃ bytes, encode wireWriter (ArtifactQuery.implementingGraph ArtifactQuery.inlineEdge) = some bytes ∧
    ∃ layout facts, ArtifactBlobLayout.validate wireReader bytes = .ok layout ∧ layout.graphFacts wireReader = .ok facts ∧
      decodeGraphArtifact facts = decodeGraphArtifact (ArtifactQuery.implementingGraph ArtifactQuery.inlineEdge) := by
  have htoc : stableToc wireReader.sha256 (sections wireWriter (ArtifactQuery.implementingGraph ArtifactQuery.inlineEdge)) =
      (nextToc wireReader.sha256 (sections wireWriter (ArtifactQuery.implementingGraph ArtifactQuery.inlineEdge)))^[3] emptyToc :=
    stableToc_eq_iterate _ (by decide +kernel)
  have hbytes := jvm_encode_eq_of_toc htoc (by decide +kernel)
  have hinline : InlineOnly (ArtifactQuery.implementingGraph ArtifactQuery.inlineEdge) := by
    constructor <;> decide +kernel
  obtain ⟨layout, _, facts, _, hlayout, -, hfacts, hdecoded, -⟩ := jvm_blob_transparent wireWriter hinline hbytes
  exact ⟨_, hbytes, layout, facts, hlayout, hfacts, hdecoded⟩

end JvmArtifactBlobLayout

end Kide
