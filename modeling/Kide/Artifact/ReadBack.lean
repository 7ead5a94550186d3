import Kide.Artifact.Blocks
import Kide.Artifact.Readers

/-!
# Blobs read back

The blob of either encoder has its sections one after the other behind the table of contents, is accepted
by Core, and gives back every section: the plain ones by their kind, a detail block by each of its ordinals.
The kinds of the plain sections are distinct and the intervals of the blocks disjoint, so that the first
section that fits is the right one.

Ordinals have 32 bits. With more symbols than that the interval of the last block ends before it begins.
-/

namespace Kide

open Checks ArtifactProto ArtifactLayout Fixpoint

namespace ArtifactLayout

/-! ## Finding a section -/

/-- Of the elements of one list that correspond to those of another, the one for the only fitting element. -/
theorem find_corresponding {α β : Type} {R : α → β → Prop} {p : α → Bool} {q : β → Prop} (hpq : ∀ a b, R a b → (p a = true ↔ q b))
    {as : List α} {bs : List β} (h : List.Forall₂ R as bs) (honly : bs.Pairwise fun b c => ¬ (q b ∧ q c)) {b : β} (hb : b ∈ bs)
    (hq : q b) : ∃ a, as.find? p = some a ∧ R a b := by
  induction h with
  | nil => cases hb
  | cons hR hrest ih =>
    rename_i a c as bs
    obtain ⟨hfirst, honly⟩ := List.pairwise_cons.1 honly
    rcases List.mem_cons.1 hb with rfl | hb
    · exact ⟨a, List.find?_cons_of_pos ((hpq _ _ hR).2 hq), hR⟩
    · have hneg : ¬ p a = true := fun hp => hfirst b hb ⟨(hpq _ _ hR).1 hp, hq⟩
      rw [List.find?_cons_of_neg hneg]
      exact ih honly hb

/-- No other element fits. -/
theorem filter_corresponding {α β : Type} {R : α → β → Prop} {p : α → Bool} {q : β → Prop} (hpq : ∀ a b, R a b → (p a = true ↔ q b))
    {as : List α} {bs : List β} (h : List.Forall₂ R as bs) (honly : bs.Pairwise fun b c => ¬ (q b ∧ q c)) {b : β} (hb : b ∈ bs)
    (hq : q b) : (as.filter p).length = 1 := by
  induction h with
  | nil => cases hb
  | cons hR hrest ih =>
    rename_i a c as bs
    obtain ⟨hfirst, honly⟩ := List.pairwise_cons.1 honly
    rcases List.mem_cons.1 hb with rfl | hb
    · have hnone : as.filter p = [] := by
        rw [List.filter_eq_nil_iff]
        intro other hother hp
        obtain ⟨content, hcontent, hcorresponds⟩ := forall₂_exists_mem hrest hother
        exact hfirst content hcontent ⟨hq, (hpq _ _ hcorresponds).1 hp⟩
      rw [List.filter_cons_of_pos ((hpq _ _ hR).2 hq), hnone]
      rfl
    · have hneg : ¬ p a = true := fun hp => hfirst b hb ⟨(hpq _ _ hR).1 hp, hq⟩
      rw [List.filter_cons_of_neg hneg]
      exact ih honly hb

/-- The section is a detail block that has the ordinal. -/
def SectionHolds (value : ArtifactBlobSection) (ordinal : Nat) : Prop :=
  value.kind = ArtifactBlobSectionKind.symbolDetailBlock.number ∧ value.symbolOrdinalStart ≤ ordinal ∧
    ordinal < value.symbolOrdinalEnd

instance (value : ArtifactBlobSection) (ordinal : Nat) : Decidable (SectionHolds value ordinal) :=
  inferInstanceAs (Decidable (_ ∧ _ ∧ _))

/-- The content is in a detail block that has the ordinal. -/
def SectionContent.Holds (content : SectionContent) (ordinal : Nat) : Prop :=
  content.kind = .symbolDetailBlock ∧ content.ordinalStart ≤ ordinal ∧ ordinal < content.ordinalEnd

variable {reader : BlobReader} {contents : List SectionContent}

theorem sectionHolds_iff {bytes : Bytes} {value : ArtifactBlobSection} {content : SectionContent}
    (h : Placed reader.sha256 bytes value content) {ordinal : Nat} : SectionHolds value ordinal ↔ content.Holds ordinal := by
  rw [SectionHolds, h.kind, h.ordinalStart, h.ordinalEnd, ArtifactBlobSectionKind.number_injective.eq_iff]
  exact Iff.rfl

theorem sectionByDescriptor_of_placed {bytes : Bytes} {toc : ArtifactBlobToc} {value : ArtifactBlobSection} {content : SectionContent}
    (h : Placed reader.sha256 bytes value content) :
    ArtifactBlobLayout.sectionByDescriptor reader ⟨bytes, toc⟩ value = .ok content.bytes := by
  rw [ArtifactBlobLayout.sectionByDescriptor, h.bytes, h.sha256]
  exact if_neg (not_not.2 rfl)

/-! ## Sections without conflicts -/

/-- The plain sections have kinds of their own, and no ordinal is in two detail blocks. -/
structure Unambiguous (contents : List SectionContent) : Prop where
  kinds : ∀ kind, kind ≠ .symbolDetailBlock → contents.Pairwise fun a b => ¬ (a.kind = kind ∧ b.kind = kind)
  ordinals : ∀ ordinal, contents.Pairwise fun a b => ¬ (a.Holds ordinal ∧ b.Holds ordinal)

/-- The blob holds the contents where its table of contents says, and none hides another. -/
structure Encoded (reader : BlobReader) (contents : List SectionContent) (bytes : Bytes) (toc : ArtifactBlobToc) : Prop where
  accepts : Accepts reader bytes toc
  placed : List.Forall₂ (Placed reader.sha256 bytes) toc.sections contents
  unambiguous : Unambiguous contents

theorem encoded_blobBytes (hunambiguous : Unambiguous contents)
    (hsize : (blobBytes (stableToc reader.sha256 contents) contents).length < U64_LIMIT) :
    Encoded reader contents (blobBytes (stableToc reader.sha256 contents) contents) (stableToc reader.sha256 contents) :=
  ⟨accepts_blobBytes reader hsize, stableToc_placed _ _, hunambiguous⟩

namespace Encoded

variable {bytes : Bytes} {toc : ArtifactBlobToc} (h : Encoded reader contents bytes toc)
include h

/-- A section of a kind of its own is found by that kind. -/
theorem findSection {content : SectionContent} (hcontent : content ∈ contents) (hkind : content.kind ≠ .symbolDetailBlock) :
    ∃ value, ArtifactLayout.findSection toc content.kind = .ok value ∧ Placed reader.sha256 bytes value content := by
  obtain ⟨value, hfind, hplaced⟩ := find_corresponding (p := fun value => value.kind = content.kind.number)
    (fun value other hR => by rw [decide_eq_true_iff, hR.kind]; exact ArtifactBlobSectionKind.number_injective.eq_iff)
    h.placed (h.unambiguous.kinds content.kind hkind) hcontent rfl
  refine ⟨value, ?_, hplaced⟩
  rw [ArtifactLayout.findSection, hfind]

/-- A detail block with an ordinal of its own is found by that ordinal. -/
theorem detailSection {content : SectionContent} (hcontent : content ∈ contents) {ordinal : Nat} (hholds : content.Holds ordinal) :
    ∃ value, ArtifactLayout.detailSection toc ordinal = .ok value ∧ Placed reader.sha256 bytes value content := by
  obtain ⟨value, hfind, hplaced⟩ := find_corresponding
    (p := fun value => value.kind = ArtifactBlobSectionKind.symbolDetailBlock.number ∧ value.symbolOrdinalStart ≤ ordinal ∧
      ordinal < value.symbolOrdinalEnd)
    (q := fun content => content.Holds ordinal)
    (fun _ _ hR => by
      rw [decide_eq_true_iff]
      exact sectionHolds_iff hR)
    h.placed (h.unambiguous.ordinals ordinal) hcontent hholds
  refine ⟨value, ?_, hplaced⟩
  rw [ArtifactLayout.detailSection, hfind]

theorem one_detailSection {content : SectionContent} (hcontent : content ∈ contents) {ordinal : Nat}
    (hholds : content.Holds ordinal) : (toc.sections.filter fun value => SectionHolds value ordinal).length = 1 :=
  filter_corresponding (q := fun content => content.Holds ordinal) (fun _ _ hR => decide_eq_true_iff.trans (sectionHolds_iff hR))
    h.placed (h.unambiguous.ordinals ordinal) hcontent hholds

end Encoded

/-- What is claimed of the bytes of an encoder: the sections follow the table of contents without a gap
to the end, Core accepts them, and every section gives back what was put in. -/
structure ReadsBack (reader : BlobReader) (contents : List SectionContent) (blocks : List SymbolBlock)
    (blockSection : SymbolBlock → SectionContent) (bytes : Bytes) (toc : ArtifactBlobToc) : Prop where
  contiguous : Contiguous (HEADER_SIZE + encodedLen toc) toc.sections bytes.length
  accepted : ArtifactBlobLayout.validate reader bytes = .ok ⟨bytes, toc⟩
  plain : ∀ content ∈ contents, content.kind ≠ .symbolDetailBlock →
    ArtifactBlobLayout.sectionBytes reader ⟨bytes, toc⟩ content.kind = .ok content.bytes
  details : ∀ block ∈ blocks, ∀ ordinal, block.Contains ordinal → ∃ value, detailSection toc ordinal = .ok value ∧
    ArtifactBlobLayout.sectionByDescriptor reader ⟨bytes, toc⟩ value = .ok (blockSection block).bytes

/-- The blob of the encoders' loop reads back. -/
theorem Encoded.readsBack {bytes : Bytes} {toc : ArtifactBlobToc} (h : Encoded reader contents bytes toc)
    (hcontiguous : Contiguous (HEADER_SIZE + encodedLen toc) toc.sections bytes.length)
    {blocks : List SymbolBlock} {blockSection : SymbolBlock → SectionContent}
    (hblocks : ∀ block ∈ blocks, blockSection block ∈ contents ∧ ∀ ordinal, block.Contains ordinal → (blockSection block).Holds ordinal) :
    ReadsBack reader contents blocks blockSection bytes toc := by
  refine ⟨hcontiguous, validate_eq_ok_iff.2 ⟨h.accepts, rfl⟩, fun content hcontent hkind => ?_, fun block hblock ordinal hordinal => ?_⟩
  · obtain ⟨value, hfound, hplaced⟩ := h.findSection hcontent hkind
    rw [ArtifactBlobLayout.sectionBytes]
    dsimp only
    rw [hfound, ok_bind, sectionByDescriptor_of_placed hplaced]
  · obtain ⟨hcontent, hholds⟩ := hblocks block hblock
    obtain ⟨value, hfound, hplaced⟩ := h.detailSection hcontent (hholds ordinal hordinal)
    exact ⟨value, hfound, sectionByDescriptor_of_placed hplaced⟩

theorem stableToc_contiguous (contents : List SectionContent) :
    Contiguous (HEADER_SIZE + encodedLen (stableToc reader.sha256 contents)) (stableToc reader.sha256 contents).sections
      (blobBytes (stableToc reader.sha256 contents) contents).length := by
  rw [blobBytes_length, stableToc_sections]
  exact placeSections_contiguous _ _ _

/-- Plain sections around the detail blocks of disjoint intervals. -/
theorem unambiguous_of_blocks {before after : List SectionContent} {blocks : List SymbolBlock}
    {blockSection : SymbolBlock → SectionContent}
    (hkinds : ((before ++ after).map SectionContent.kind).Nodup)
    (hplain : ∀ content ∈ before ++ after, content.kind ≠ .symbolDetailBlock)
    (hdetail : ∀ block ∈ blocks, (blockSection block).kind = .symbolDetailBlock ∧
      (blockSection block).ordinalStart = block.first ∧ (blockSection block).ordinalEnd = block.stop)
    (hdisjoint : blocks.Pairwise fun a b => a.stop ≤ b.first) :
    Unambiguous (before ++ blocks.map blockSection ++ after) := by
  have hkind : ∀ content ∈ blocks.map blockSection, content.kind = .symbolDetailBlock := by
    intro content hcontent
    obtain ⟨block, hblock, hsection⟩ := List.mem_map.1 hcontent
    rw [← hsection]
    exact (hdetail block hblock).1
  constructor
  · intro kind hne
    have hnodup := List.pairwise_map.1 hkinds
    have hsplit := List.pairwise_append.1 hnodup
    have hsame : ∀ {a b : SectionContent}, a.kind ≠ b.kind → ¬ (a.kind = kind ∧ b.kind = kind) :=
      fun hab h => hab (h.1.trans h.2.symm)
    refine List.pairwise_append.2 ⟨List.pairwise_append.2 ⟨hsplit.1.imp hsame, ?_, ?_⟩, hsplit.2.1.imp hsame, ?_⟩
    · exact List.pairwise_of_forall_mem_list fun a ha _ _ h => hne (h.1.symm.trans (hkind a ha))
    · exact fun _ _ b hb h => hne (h.2.symm.trans (hkind b hb))
    · intro a ha b hb
      rcases List.mem_append.1 ha with ha | ha
      · exact hsame (hsplit.2.2 a ha b hb)
      · exact fun h => hne (h.1.symm.trans (hkind a ha))
  · intro ordinal
    have hno : ∀ content ∈ before ++ after, ¬ content.Holds ordinal := fun content h hholds => hplain content h hholds.1
    refine List.pairwise_append.2 ⟨List.pairwise_append.2 ⟨?_, ?_, ?_⟩, ?_, ?_⟩
    · exact List.pairwise_of_forall_mem_list fun a ha _ _ h => hno a (List.mem_append_left _ ha) h.1
    · rw [List.pairwise_map]
      refine hdisjoint.imp_of_mem fun {a b} ha hb hab h => ?_
      obtain ⟨⟨-, -, hend⟩, -, hstart, -⟩ := h
      rw [(hdetail a ha).2.2] at hend
      rw [(hdetail b hb).2.1] at hstart
      omega
    · exact fun a ha _ _ h => hno a (List.mem_append_left _ ha) h.1
    · exact List.pairwise_of_forall_mem_list fun a ha _ _ h => hno a (List.mem_append_right _ ha) h.1
    · exact fun _ _ b hb h => hno b (List.mem_append_right _ hb) h.2

/-! ## The two encoders -/

def plainSections (writer : BlobWriter reader) (artifact : GraphArtifact) : List SectionContent :=
  [plainSection .symbolDictionary (writer.symbolDictionary.encode (symbolDictionary artifact)) 0,
    plainSection .symbolPostings (writer.symbolPostings.encode (symbolPostings artifact)) 0,
    plainSection .hierarchyPostings (writer.hierarchyPostings.encode (hierarchyPostings artifact)) 0,
    plainSection .qualifiedSymbolDirectory (writer.qualifiedSymbolDirectory.encode (qualifiedSymbolDirectory artifact)) 0,
    plainSection .graphFacts (writer.gzip.encode (writer.graphFacts.encode artifact)) 1]

theorem sections_eq (writer : BlobWriter reader) (artifact : GraphArtifact) : sections writer artifact =
    plainSections writer artifact ++ (symbolBlocks 0 artifact.snapshots).map (blockSection writer) :=
  congrArg (plainSections writer artifact ++ ·) (detailSections_eq writer 0 artifact.snapshots)

/-- With ordinals that fit, the interval of a block's section is the interval of the block. -/
theorem blockSection_interval (writer : BlobWriter reader) {artifact : GraphArtifact} (hcount : artifact.symbols.length < U32_LIMIT)
    {block : SymbolBlock} (h : block ∈ symbolBlocks 0 artifact.snapshots) :
    (blockSection writer block).ordinalStart = block.first ∧ (blockSection writer block).ordinalEnd = block.stop := by
  have hbounds := symbolBlocks_bounds h
  rw [← GraphArtifact.symbols] at hbounds
  unfold SymbolBlock.stop at hbounds ⊢
  have hstop : asU32 (block.first + block.entries.length) = block.first + block.entries.length := asU32_of_lt (by omega)
  exact ⟨asU32_of_lt (by omega), by rw [blockSection, asU32_add, hstop]⟩

theorem blockSection_mem (writer : BlobWriter reader) {artifact : GraphArtifact} {block : SymbolBlock}
    (h : block ∈ symbolBlocks 0 artifact.snapshots) : blockSection writer block ∈ sections writer artifact := by
  rw [sections_eq]
  exact List.mem_append_right _ (List.mem_map_of_mem h)

theorem blockSection_holds (writer : BlobWriter reader) {artifact : GraphArtifact} (hcount : artifact.symbols.length < U32_LIMIT)
    {block : SymbolBlock} (h : block ∈ symbolBlocks 0 artifact.snapshots) {ordinal : Nat} (hordinal : block.Contains ordinal) :
    (blockSection writer block).Holds ordinal := by
  obtain ⟨hstart, hend⟩ := blockSection_interval writer hcount h
  refine ⟨rfl, ?_⟩
  rw [hstart, hend]
  exact hordinal

theorem unambiguous_sections (writer : BlobWriter reader) {artifact : GraphArtifact} (hcount : artifact.symbols.length < U32_LIMIT) :
    Unambiguous (sections writer artifact) := by
  have h : Unambiguous (plainSections writer artifact ++ (symbolBlocks 0 artifact.snapshots).map (blockSection writer) ++ []) :=
    unambiguous_of_blocks (by simp [plainSections, plainSection]) (by simp [plainSections, plainSection])
      (fun block hblock => ⟨rfl, blockSection_interval writer hcount hblock⟩) (symbolBlocks_pairwise _ _)
  rwa [List.append_nil, ← sections_eq] at h

theorem encode_eq_some {writer : BlobWriter reader} {artifact : GraphArtifact} {layout : ArtifactBlobLayout}
    (h : ArtifactBlobLayout.encode writer artifact = some layout) :
    layout = ⟨blobBytes (stableToc reader.sha256 (sections writer artifact)) (sections writer artifact),
        stableToc reader.sha256 (sections writer artifact)⟩ ∧ layout.bytes.length < U64_LIMIT := by
  unfold ArtifactBlobLayout.encode at h
  dsimp only at h
  split at h
  · next hsize =>
    obtain rfl := Option.some.inj h
    exact ⟨rfl, hsize.trans_lt (by decide)⟩
  · cases h

theorem encode_encoded {writer : BlobWriter reader} {artifact : GraphArtifact} (hcount : artifact.symbols.length < U32_LIMIT)
    {layout : ArtifactBlobLayout} (h : ArtifactBlobLayout.encode writer artifact = some layout) :
    Encoded reader (sections writer artifact) layout.bytes layout.toc := by
  obtain ⟨rfl, hsize⟩ := encode_eq_some h
  exact encoded_blobBytes (unambiguous_sections writer hcount) hsize

theorem encode_readsBack (writer : BlobWriter reader) {artifact : GraphArtifact} (hcount : artifact.symbols.length < U32_LIMIT)
    {layout : ArtifactBlobLayout} (h : ArtifactBlobLayout.encode writer artifact = some layout) :
    ReadsBack reader (sections writer artifact) (symbolBlocks 0 artifact.snapshots) (blockSection writer) layout.bytes layout.toc := by
  refine (encode_encoded hcount h).readsBack ?_ fun block hblock =>
    ⟨blockSection_mem writer hblock, fun ordinal hordinal => blockSection_holds writer hcount hblock hordinal⟩
  obtain ⟨rfl, -⟩ := encode_eq_some h
  exact stableToc_contiguous _

end ArtifactLayout

namespace JvmArtifactBlobLayout

variable {reader : BlobReader}

/-- The plain sections before the detail blocks, and the one after them. -/
theorem sections_eq (writer : BlobWriter reader) (artifact : GraphArtifact) : ∃ before after,
    sections writer artifact = before ++ (symbolBlocks 0 (ordinalizeLocalGraphFacts artifact).snapshots).map (blockSection writer) ++ after ∧
      ((before ++ after).map SectionContent.kind).Nodup ∧ ∀ content ∈ before ++ after, content.kind ≠ .symbolDetailBlock := by
  unfold sections
  dsimp only
  rw [detailSections_eq]
  exact ⟨_, _, rfl, by simp [plainSection], by simp [plainSection]⟩

theorem blockSection_mem (writer : BlobWriter reader) {artifact : GraphArtifact} {block : SymbolBlock}
    (h : block ∈ symbolBlocks 0 (ordinalizeLocalGraphFacts artifact).snapshots) : blockSection writer block ∈ sections writer artifact := by
  obtain ⟨before, after, hsections, -, -⟩ := sections_eq writer artifact
  rw [hsections]
  exact List.mem_append_left _ (List.mem_append_right _ (List.mem_map_of_mem h))

theorem encode_eq_some {writer : BlobWriter reader} {artifact : GraphArtifact} {bytes : Bytes} (h : encode writer artifact = some bytes) :
    bytes = blobBytes (stableToc reader.sha256 (sections writer artifact)) (sections writer artifact) ∧
      artifact.snapshots.length ≤ INT_MAX ∧ artifact.symbols.length ≤ INT_MAX ∧ bytes.length < U64_LIMIT := by
  unfold encode at h
  dsimp only at h
  split at h
  · next hfits =>
    obtain rfl := Option.some.inj h
    exact ⟨rfl, hfits.1, hfits.2.1, hfits.2.2.trans_lt (by decide)⟩
  · cases h

theorem encode_encoded {writer : BlobWriter reader} {artifact : GraphArtifact} {bytes : Bytes} (h : encode writer artifact = some bytes) :
    Encoded reader (sections writer artifact) bytes (stableToc reader.sha256 (sections writer artifact)) := by
  obtain ⟨rfl, -, -, hsize⟩ := encode_eq_some h
  refine encoded_blobBytes ?_ hsize
  obtain ⟨before, after, hsections, hkinds, hplain⟩ := sections_eq writer artifact
  rw [hsections]
  exact unambiguous_of_blocks hkinds hplain (fun block hblock => ⟨rfl, rfl, rfl⟩) (symbolBlocks_pairwise _ _)

theorem encode_readsBack (writer : BlobWriter reader) {artifact : GraphArtifact} {bytes : Bytes}
    (h : encode writer artifact = some bytes) :
    ReadsBack reader (sections writer artifact) (symbolBlocks 0 (ordinalizeLocalGraphFacts artifact).snapshots)
      (blockSection writer) bytes (stableToc reader.sha256 (sections writer artifact)) := by
  refine (encode_encoded h).readsBack ?_ fun block hblock =>
    ⟨blockSection_mem writer hblock, fun ordinal hordinal => ⟨rfl, hordinal⟩⟩
  obtain ⟨rfl, -⟩ := encode_eq_some h
  exact stableToc_contiguous _

end JvmArtifactBlobLayout

namespace ArtifactLayout

/-- Both loops end, and what they lay out reads back while ordinals fit their type: an encoder returns a
blob whenever it fits the byte arrays of its language. -/
theorem blob_layout_reads_back {reader : BlobReader} (core worker : BlobWriter reader) (artifact : GraphArtifact)
    (hcount : artifact.symbols.length < U32_LIMIT) :
    Stabilizes (nextToc reader.sha256 (sections core artifact)) emptyToc ∧
    Stabilizes (nextToc reader.sha256 (JvmArtifactBlobLayout.sections worker artifact)) emptyToc ∧
    (ArtifactBlobLayout.encode core artifact = none ↔
      ISIZE_MAX < (blobBytes (stableToc reader.sha256 (sections core artifact)) (sections core artifact)).length) ∧
    (JvmArtifactBlobLayout.encode worker artifact = none ↔
      ¬ (artifact.snapshots.length ≤ JvmArtifactBlobLayout.INT_MAX ∧ artifact.symbols.length ≤ JvmArtifactBlobLayout.INT_MAX ∧
        (blobBytes (stableToc reader.sha256 (JvmArtifactBlobLayout.sections worker artifact))
          (JvmArtifactBlobLayout.sections worker artifact)).length ≤ JvmArtifactBlobLayout.INT_MAX)) ∧
    (∀ layout, ArtifactBlobLayout.encode core artifact = some layout → ReadsBack reader (sections core artifact)
      (symbolBlocks 0 artifact.snapshots) (blockSection core) layout.bytes layout.toc) ∧
    (∀ bytes, JvmArtifactBlobLayout.encode worker artifact = some bytes →
      ReadsBack reader (JvmArtifactBlobLayout.sections worker artifact)
        (symbolBlocks 0 (JvmArtifactBlobLayout.ordinalizeLocalGraphFacts artifact).snapshots)
        (JvmArtifactBlobLayout.blockSection worker) bytes
        (stableToc reader.sha256 (JvmArtifactBlobLayout.sections worker artifact))) := by
  refine ⟨nextToc_stabilizes _ _, nextToc_stabilizes _ _, ?_, ?_, fun layout h => encode_readsBack core hcount h,
    fun bytes h => JvmArtifactBlobLayout.encode_readsBack worker h⟩
  · unfold ArtifactBlobLayout.encode
    dsimp only
    rw [ite_eq_right_iff, ← not_le]
    exact ⟨fun h hle => (nomatch h hle), fun h hle => absurd hle h⟩
  · unfold JvmArtifactBlobLayout.encode
    dsimp only
    rw [ite_eq_right_iff]
    exact ⟨fun h hle => (nomatch h hle), fun h hle => absurd hle h⟩

def blankSymbol : ArtifactSymbol :=
  ⟨"", "", 0, "", "", "", none, none, none, none, none, [], [], "", "", "", none, none⟩

def blankSnapshot : GraphSnapshot := ⟨none, none, none, [], [], [], [], [], [], [], [], "", none⟩

/-- A class and its method. -/
def pairGraph : GraphArtifact :=
  ⟨[{ blankSnapshot with
      symbols := [{ blankSymbol with id := "A", name := "A" },
        { blankSymbol with id := "A.run", name := "run", ownerId := some "A" }] }]⟩

theorem pairGraph_toc : stableToc Sha256.digest (sections wireWriter pairGraph) =
    (nextToc Sha256.digest (sections wireWriter pairGraph))^[3] emptyToc :=
  untilStable_eq_iterate _ (by decide +kernel)

theorem pairGraph_reads_back : ∃ layout, ArtifactBlobLayout.encode wireWriter pairGraph = some layout ∧
    ReadsBack wireReader (sections wireWriter pairGraph) (symbolBlocks 0 pairGraph.snapshots) (blockSection wireWriter)
      layout.bytes layout.toc := by
  obtain ⟨-, -, hnone, -, hreads, -⟩ := blob_layout_reads_back wireWriter wireWriter pairGraph (by decide)
  cases hlayout : ArtifactBlobLayout.encode wireWriter pairGraph with
  | none =>
    have hsize := hnone.1 hlayout
    rw [show wireReader.sha256 = Sha256.digest from rfl, pairGraph_toc] at hsize
    exact absurd hsize (by decide +kernel)
  | some layout => exact ⟨layout, rfl, hreads layout hlayout⟩

/-- No section of Core ends past the ordinals. -/
theorem ordinalEnd_lt {reader : BlobReader} {writer : BlobWriter reader} {artifact : GraphArtifact} {layout : ArtifactBlobLayout}
    (h : ArtifactBlobLayout.encode writer artifact = some layout) {value : ArtifactBlobSection} (hvalue : value ∈ layout.toc.sections) :
    value.symbolOrdinalEnd < U32_LIMIT := by
  rw [(encode_eq_some h).1] at hvalue
  obtain ⟨content, hcontent, hplaced⟩ := forall₂_exists_mem (stableToc_placed reader.sha256 (sections writer artifact)) hvalue
  rw [hplaced.ordinalEnd]
  rw [sections_eq, List.mem_append] at hcontent
  rcases hcontent with hcontent | hcontent
  · have hzero : ∀ content ∈ plainSections writer artifact, content.ordinalEnd = 0 := by
      simp [plainSections, plainSection]
    rw [hzero content hcontent]
    decide
  · obtain ⟨other, -, rfl⟩ := List.mem_map.1 hcontent
    exact asU32_lt (asU32 other.first + asU32 other.entries.length)

/-- The blocks of an artifact of `2^32` declarations: the last interval wraps to an end of zero. -/
theorem last_ordinal_unreadable {reader : BlobReader} (writer : BlobWriter reader) {artifact : GraphArtifact}
    (hcount : artifact.symbols.length = U32_LIMIT) {layout : ArtifactBlobLayout}
    (h : ArtifactBlobLayout.encode writer artifact = some layout) :
    ¬ ReadsBack reader (sections writer artifact) (symbolBlocks 0 artifact.snapshots) (blockSection writer) layout.bytes
      layout.toc := by
  intro hreads
  have hlt : U32_LIMIT - 1 < artifact.symbols.length := by
    rw [hcount]
    decide
  obtain ⟨block, hblock, hcontains, -⟩ := @exists_block 0 _ _ _ (List.getElem?_eq_getElem hlt)
  obtain ⟨value, hfound, -⟩ := hreads.details block hblock _ hcontains
  have hend := ordinalEnd_lt h (detailSection_mem hfound)
  unfold detailSection at hfound
  split at hfound
  · next hfind =>
    obtain rfl := Except.ok.inj hfound
    have hp := List.find?_some hfind
    rw [decide_eq_true_iff] at hp
    have hlast := hp.2.2
    omega
  · cases hfound

/-- One snapshot of `2^32` declarations. -/
def fullArtifact : GraphArtifact := ⟨[{ blankSnapshot with symbols := List.replicate U32_LIMIT blankSymbol }]⟩

theorem fullArtifact_not_read_back : ¬ ∀ artifact : GraphArtifact, ∃ layout,
    ArtifactBlobLayout.encode wireWriter artifact = some layout ∧ ReadsBack wireReader (sections wireWriter artifact)
      (symbolBlocks 0 artifact.snapshots) (blockSection wireWriter) layout.bytes layout.toc := by
  intro h
  obtain ⟨layout, hlayout, hreads⟩ := h fullArtifact
  have hcount : fullArtifact.symbols.length = U32_LIMIT := by
    rw [fullArtifact, GraphArtifact.symbols, List.flatMap_singleton, List.length_replicate]
  exact last_ordinal_unreadable wireWriter hcount hlayout hreads

end ArtifactLayout

end Kide
