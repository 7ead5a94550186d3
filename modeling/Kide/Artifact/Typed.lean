import Kide.Artifact.ReadBack

/-!
# What the readers return from an encoded blob

The typed readers of a blob as an encoder writes it give the messages that were put in. The rules are
stated once for sections that are in their place (`Encoded`) and then for both encoders.
-/

namespace Kide

open Checks ArtifactProto ArtifactLayout

namespace ArtifactLayout

variable {reader : BlobReader} {contents : List SectionContent} {bytes : Bytes} {toc : ArtifactBlobToc}

namespace Encoded

variable (h : Encoded reader contents bytes toc)
include h

theorem openBlob : ArtifactBlobSections.openBlob reader ⟨bytes⟩ = .ok ⟨toc⟩ := openBlob_eq_ok_iff.2 h.accepts

theorem validate : ArtifactBlobLayout.validate reader bytes = .ok ⟨bytes, toc⟩ := validate_eq_ok_iff.2 ⟨h.accepts, rfl⟩

/-- A placed section as the reader of a cache file sees it. -/
theorem readDescriptor {value : ArtifactBlobSection} (hvalue : value ∈ toc.sections) {content : SectionContent}
    (hplaced : Placed reader.sha256 bytes value content) :
    ArtifactBlobSections.readDescriptor reader ⟨bytes⟩ value = decompressSection reader content.bytes content.compression := by
  rw [readDescriptor_eq h.accepts hvalue, sectionByDescriptor_of_placed hplaced, ok_bind, hplaced.compression]

theorem readSection {content : SectionContent} (hcontent : content ∈ contents) (hkind : content.kind ≠ .symbolDetailBlock) :
    ArtifactBlobSections.readSection reader ⟨toc⟩ ⟨bytes⟩ content.kind =
      decompressSection reader content.bytes content.compression := by
  obtain ⟨value, hfound, hplaced⟩ := h.findSection hcontent hkind
  rw [ArtifactBlobSections.readSection]
  dsimp only
  rw [hfound, ok_bind, h.readDescriptor (findSection_mem hfound) hplaced]

/-- The message of a detail block, by any of its ordinals. -/
theorem symbolDetailBlock {content : SectionContent} (hcontent : content ∈ contents) {ordinal : Nat}
    (hholds : content.Holds ordinal) (hplain : content.compression = 0) :
    ArtifactBlobSections.symbolDetailBlock reader ⟨toc⟩ ⟨bytes⟩ ordinal = decoded (reader.symbolDetailBlock content.bytes) := by
  obtain ⟨value, hfound, hplaced⟩ := h.detailSection hcontent hholds
  rw [ArtifactBlobSections.symbolDetailBlock]
  dsimp only
  rw [hfound, ok_bind, h.readDescriptor (detailSection_mem hfound) hplaced, hplain, decompressSection, if_pos rfl, ok_bind]

theorem symbolDetailBlockStart {content : SectionContent} (hcontent : content ∈ contents) {ordinal : Nat}
    (hholds : content.Holds ordinal) : ArtifactBlobSections.symbolDetailBlockStart ⟨toc⟩ ordinal = .ok content.ordinalStart := by
  obtain ⟨value, hfound, hplaced⟩ := h.detailSection hcontent hholds
  rw [ArtifactBlobSections.symbolDetailBlockStart]
  dsimp only
  rw [hfound, ok_bind, hplaced.ordinalStart]
  rfl

end Encoded

theorem decoded_encode {α : Type} {decode : Bytes → Option α} (encoder : Encoder decode) (message : α) :
    decoded (decode (encoder.encode message)) = .ok message := by
  rw [encoder.decode_encode]
  rfl

theorem decompressSection_gzip (writer : BlobWriter reader) (payload : Bytes) :
    decompressSection reader (writer.gzip.encode payload) 1 = .ok payload := by
  rw [decompressSection, if_neg (by decide), if_pos rfl, writer.gzip.decode_encode]

/-! ## Typed sections -/

namespace Encoded

variable (h : Encoded reader contents bytes toc) (writer : BlobWriter reader)
include h

theorem readSection_plain {kind : ArtifactBlobSectionKind} (hkind : kind ≠ .symbolDetailBlock) {payload : Bytes}
    (hcontent : plainSection kind payload 0 ∈ contents) :
    ArtifactBlobSections.readSection reader ⟨toc⟩ ⟨bytes⟩ kind = .ok payload :=
  h.readSection hcontent hkind

theorem readSection_gzip {kind : ArtifactBlobSectionKind} (hkind : kind ≠ .symbolDetailBlock) {payload : Bytes}
    (hcontent : plainSection kind (writer.gzip.encode payload) 1 ∈ contents) :
    ArtifactBlobSections.readSection reader ⟨toc⟩ ⟨bytes⟩ kind = .ok payload :=
  (h.readSection hcontent hkind).trans (decompressSection_gzip writer payload)

theorem symbolDictionary {message : ArtifactSymbolDictionary}
    (hcontent : plainSection .symbolDictionary (writer.symbolDictionary.encode message) 0 ∈ contents) :
    ArtifactBlobSections.symbolDictionary reader ⟨toc⟩ ⟨bytes⟩ = .ok message := by
  rw [ArtifactBlobSections.symbolDictionary, h.readSection_plain (by decide) hcontent]
  exact decoded_encode writer.symbolDictionary message

theorem symbolPostings {message : ArtifactSymbolPostings}
    (hcontent : plainSection .symbolPostings (writer.symbolPostings.encode message) 0 ∈ contents) :
    ArtifactBlobSections.symbolPostings reader ⟨toc⟩ ⟨bytes⟩ = .ok message := by
  rw [ArtifactBlobSections.symbolPostings, h.readSection_plain (by decide) hcontent]
  exact decoded_encode writer.symbolPostings message

theorem hierarchyPostings {message : ArtifactHierarchyPostings}
    (hcontent : plainSection .hierarchyPostings (writer.hierarchyPostings.encode message) 0 ∈ contents) :
    ArtifactBlobSections.hierarchyPostings reader ⟨toc⟩ ⟨bytes⟩ = .ok message := by
  rw [ArtifactBlobSections.hierarchyPostings, h.readSection_plain (by decide) hcontent]
  exact decoded_encode writer.hierarchyPostings message

theorem qualifiedSymbolDirectory {message : ArtifactQualifiedSymbolDirectory}
    (hcontent : plainSection .qualifiedSymbolDirectory (writer.qualifiedSymbolDirectory.encode message) 0 ∈ contents) :
    ArtifactBlobSections.qualifiedSymbolDirectory reader ⟨toc⟩ ⟨bytes⟩ = .ok message := by
  rw [ArtifactBlobSections.qualifiedSymbolDirectory, h.readSection_plain (by decide) hcontent]
  exact decoded_encode writer.qualifiedSymbolDirectory message

theorem graphFacts {message : GraphArtifact}
    (hcontent : plainSection .graphFacts (writer.gzip.encode (writer.graphFacts.encode message)) 1 ∈ contents) :
    ArtifactBlobSections.graphFacts reader ⟨toc⟩ ⟨bytes⟩ = .ok message := by
  rw [ArtifactBlobSections.graphFacts, h.readSection_gzip writer (by decide) hcontent]
  exact decoded_encode writer.graphFacts message

end Encoded

end ArtifactLayout

end Kide
