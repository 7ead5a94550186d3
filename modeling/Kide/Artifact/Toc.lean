import Kide.Lib.Fixpoint
import Kide.Proto.ArtifactWire

/-!
# The table of contents of a blob

A blob is a header, a table of contents and its sections one after the other. The table holds the offsets
of the sections, which depend on its own length, so both encoders rebuild it until it no longer changes
(`artifact_blob_layout.rs`, `JvmArtifactBlobLayout.kt`).

The loop ends (`nextToc_stabilizes`): a larger offset never takes fewer bytes, so the length of the table
grows from round to round, and it stays below a bound because offsets take far fewer bytes than they count.
-/

namespace Kide

open Wire Fixpoint ArtifactProto ByteStrings

namespace ArtifactLayout

def ARTIFACT_BLOB_LAYOUT_VERSION : Nat := 1

/-- `KIDEJVM1` -/
def MAGIC : Bytes := [75, 73, 68, 69, 74, 86, 77, 49]

def HEADER_SIZE : Nat := 8 + 4 + 8 + 8

/-- A section before it has its place. -/
structure SectionContent where
  kind : ArtifactBlobSectionKind
  bytes : Bytes
  compression : Int32
  ordinalStart : Nat
  ordinalEnd : Nat
deriving DecidableEq, Repr

/-- The sections one after the other from an offset on. -/
def placeSections (sha256 : Bytes → Bytes) : Nat → List SectionContent → List ArtifactBlobSection
  | _, [] => []
  | offset, content :: rest =>
    { kind := content.kind.number
      offset
      length := content.bytes.length
      sha256 := sha256 content.bytes
      compression := content.compression
      symbolOrdinalStart := content.ordinalStart
      symbolOrdinalEnd := content.ordinalEnd } :: placeSections sha256 (offset + content.bytes.length) rest

def emptyToc : ArtifactBlobToc := ⟨ARTIFACT_BLOB_LAYOUT_VERSION, []⟩

def encodedLen (toc : ArtifactBlobToc) : Nat := (ArtifactBlobToc.wire.encode toc).length

def tocAt (sha256 : Bytes → Bytes) (sections : List SectionContent) (tocLength : Nat) : ArtifactBlobToc :=
  ⟨ARTIFACT_BLOB_LAYOUT_VERSION, placeSections sha256 (HEADER_SIZE + tocLength) sections⟩

/-- One round of the loop. -/
def nextToc (sha256 : Bytes → Bytes) (sections : List SectionContent) (toc : ArtifactBlobToc) : ArtifactBlobToc :=
  tocAt sha256 sections (encodedLen toc)

/-! ## The loop ends -/

variable (sha256 : Bytes → Bytes)

theorem encode_section (value : ArtifactBlobSection) : ArtifactBlobSection.wire.encode value =
    encodeFields (enumeration.field 1 value.kind ++ number.field 2 value.offset ++ number.field 3 value.length ++
      content.field 4 value.sha256 ++ enumeration.field 5 value.compression ++ number.field 6 value.symbolOrdinalStart ++
      number.field 7 value.symbolOrdinalEnd) := rfl

theorem section_length_mono {value : ArtifactBlobSection} {offset : Nat} (h : value.offset ≤ offset) :
    (ArtifactBlobSection.wire.encode value).length ≤ (ArtifactBlobSection.wire.encode { value with offset }).length := by
  have hoffset : (encodeFields (number.field 2 value.offset)).length ≤ (encodeFields (number.field 2 offset)).length :=
    length_uint_mono h
  simp only [encode_section, encodeFields_append, List.length_append]
  omega

theorem section_length_le (value : ArtifactBlobSection) : (ArtifactBlobSection.wire.encode value).length ≤
    (ArtifactBlobSection.wire.encode { value with offset := 0 }).length + (varint 16).length + (varint value.offset).length := by
  have hoffset : (encodeFields (number.field 2 value.offset)).length ≤ (varint 16).length + (varint value.offset).length :=
    length_uint_le 2 value.offset
  simp only [encode_section, encodeFields_append, List.length_append]
  omega

/-- The bytes of the sections in the table. -/
def entriesSize (offset : Nat) (sections : List SectionContent) : Nat :=
  (encodeFields ((Slot.repeated ArtifactBlobSection.wire.scalar).field 2 (placeSections sha256 offset sections))).length

theorem encodedLen_tocAt (sections : List SectionContent) (tocLength : Nat) : encodedLen (tocAt sha256 sections tocLength) =
    (encodeFields (number.field 1 ARTIFACT_BLOB_LAYOUT_VERSION)).length +
      entriesSize sha256 (HEADER_SIZE + tocLength) sections := by
  have hencode : ArtifactBlobToc.wire.encode (tocAt sha256 sections tocLength) =
      encodeFields (number.field 1 ARTIFACT_BLOB_LAYOUT_VERSION ++ (Slot.repeated ArtifactBlobSection.wire.scalar).field 2
        (placeSections sha256 (HEADER_SIZE + tocLength) sections)) := rfl
  rw [encodedLen, hencode, encodeFields_append, List.length_append, entriesSize]

theorem entriesSize_mono {offset larger : Nat} (h : offset ≤ larger) (sections : List SectionContent) :
    entriesSize sha256 offset sections ≤ entriesSize sha256 larger sections := by
  induction sections generalizing offset larger with
  | nil => exact Nat.le_refl _
  | cons content rest ih =>
    unfold entriesSize
    rw [placeSections, placeSections, length_repeated_cons, length_repeated_cons]
    exact Nat.add_le_add (embeddedSize_mono (section_length_mono h)) (ih (Nat.add_le_add_right h _))

/-- The entries take a fixed number of bytes and some multiple of the longest offset. -/
theorem exists_entriesSize_le (sections : List SectionContent) : ∃ fixed factor, ∀ offset limit,
    offset + (sections.flatMap SectionContent.bytes).length ≤ limit →
      entriesSize sha256 offset sections ≤ fixed + factor * (varint limit).length := by
  induction sections with
  | nil => exact ⟨0, 0, fun _ _ _ => Nat.zero_le _⟩
  | cons content rest ih =>
    obtain ⟨fixed, factor, hrest⟩ := ih
    have hone : ∃ own, ∀ offset, embeddedSize 2 (ArtifactBlobSection.wire.encode
        ⟨content.kind.number, offset, content.bytes.length, sha256 content.bytes, content.compression,
          content.ordinalStart, content.ordinalEnd⟩).length ≤ own + 2 * (varint offset).length := by
      refine ⟨(varint (8 * 2 + 2)).length + 2 * ((ArtifactBlobSection.wire.encode ⟨content.kind.number, 0, content.bytes.length,
        sha256 content.bytes, content.compression, content.ordinalStart, content.ordinalEnd⟩).length +
        (varint 16).length) + 1, fun offset => ?_⟩
      have hsize := section_length_le ⟨content.kind.number, offset, content.bytes.length, sha256 content.bytes,
        content.compression, content.ordinalStart, content.ordinalEnd⟩
      have hembedded := embeddedSize_le 2 (ArtifactBlobSection.wire.encode ⟨content.kind.number, offset,
        content.bytes.length, sha256 content.bytes, content.compression, content.ordinalStart, content.ordinalEnd⟩).length
      dsimp only at hsize
      omega
    obtain ⟨own, hown⟩ := hone
    refine ⟨own + fixed, 2 + factor, fun offset limit hlimit => ?_⟩
    rw [List.flatMap_cons, List.length_append] at hlimit
    have hoffset := varint_length_mono (n := offset) (m := limit) (by omega)
    have hfirst := hown offset
    have htail := hrest (offset + content.bytes.length) limit (by omega)
    unfold entriesSize at htail ⊢
    rw [placeSections, length_repeated_cons, Nat.add_mul]
    omega

/-- The length of the table, as a function of the length it is built for. -/
theorem tocLength_monotone (sections : List SectionContent) : Monotone fun length => encodedLen (tocAt sha256 sections length) := by
  intro length larger h
  have := entriesSize_mono sha256 (Nat.add_le_add_left h HEADER_SIZE) sections
  simp only [encodedLen_tocAt]
  omega

theorem emptyToc_shortest (sections : List SectionContent) (length : Nat) :
    encodedLen emptyToc ≤ encodedLen (tocAt sha256 sections length) := by
  have hempty : encodedLen emptyToc = (encodeFields (number.field 1 ARTIFACT_BLOB_LAYOUT_VERSION)).length := by
    rw [show emptyToc = tocAt sha256 [] 0 from rfl, encodedLen_tocAt]
    rfl
  rw [hempty, encodedLen_tocAt]
  exact Nat.le_add_right _ _

theorem exists_tocLength_bound (sections : List SectionContent) (least : Nat) :
    ∃ bound, least ≤ bound ∧ encodedLen (tocAt sha256 sections bound) ≤ bound := by
  obtain ⟨fixed, factor, hentries⟩ := exists_entriesSize_le sha256 sections
  obtain ⟨bound, hbound⟩ := exists_varint_bound
    (least + (encodeFields (number.field 1 ARTIFACT_BLOB_LAYOUT_VERSION)).length + fixed) factor
    (HEADER_SIZE + (sections.flatMap SectionContent.bytes).length)
  have hsize := hentries (HEADER_SIZE + bound) (bound + (HEADER_SIZE + (sections.flatMap SectionContent.bytes).length)) (by omega)
  refine ⟨bound, by omega, ?_⟩
  rw [encodedLen_tocAt]
  omega

theorem nextToc_stabilizes (sections : List SectionContent) : Stabilizes (nextToc sha256 sections) emptyToc := by
  obtain ⟨bound, hle, hbound⟩ := exists_tocLength_bound sha256 sections (encodedLen emptyToc)
  have hlength := stabilizes_of_bounded (tocLength_monotone sha256 sections)
    (emptyToc_shortest sha256 sections (encodedLen emptyToc)) hbound hle
  exact stabilizes_of_size (fun _ => rfl) hlength

/-- The table the loop ends with. -/
def stableToc (sections : List SectionContent) : ArtifactBlobToc :=
  untilStable (nextToc sha256 sections) emptyToc (nextToc_stabilizes sha256 sections)

/-- Its offsets are those of its own length. -/
theorem stableToc_eq (sections : List SectionContent) :
    stableToc sha256 sections = tocAt sha256 sections (encodedLen (stableToc sha256 sections)) :=
  (untilStable_fixed (nextToc_stabilizes sha256 sections)).symm

/-- The loop has ended once the length of the table no longer changes. -/
theorem stableToc_eq_iterate {sections : List SectionContent} {rounds : Nat}
    (h : encodedLen ((nextToc sha256 sections)^[rounds + 1] emptyToc) = encodedLen ((nextToc sha256 sections)^[rounds] emptyToc)) :
    stableToc sha256 sections = (nextToc sha256 sections)^[rounds + 1] emptyToc := by
  refine untilStable_eq_iterate _ ?_
  rw [nextToc, h, Function.iterate_succ_apply']
  rfl

/-! ## Bytes -/

/-- One past the largest `u64`. -/
def U64_LIMIT : Nat := 18446744073709551616

def header (tocLength : Nat) : Bytes :=
  MAGIC ++ toLeBytes 4 ARTIFACT_BLOB_LAYOUT_VERSION ++ toLeBytes 8 HEADER_SIZE ++ toLeBytes 8 tocLength

theorem header_length (tocLength : Nat) : (header tocLength).length = HEADER_SIZE := by
  rw [header, List.length_append, List.length_append, List.length_append, toLeBytes_length, toLeBytes_length, toLeBytes_length]
  rfl

def blobBytes (toc : ArtifactBlobToc) (sections : List SectionContent) : Bytes :=
  header (encodedLen toc) ++ ArtifactBlobToc.wire.encode toc ++ sections.flatMap SectionContent.bytes

/-! ## Places -/

/-- The sections follow each other without a gap from `start` to `stop`. -/
def Contiguous : Nat → List ArtifactBlobSection → Nat → Prop
  | start, [], stop => start = stop
  | start, value :: rest, stop => value.offset = start ∧ Contiguous (value.offset + value.length) rest stop

theorem placeSections_contiguous (start : Nat) (sections : List SectionContent) :
    Contiguous start (placeSections sha256 start sections) (start + (sections.flatMap SectionContent.bytes).length) := by
  induction sections generalizing start with
  | nil => rfl
  | cons content rest ih =>
    rw [placeSections, List.flatMap_cons, List.length_append, ← Nat.add_assoc]
    exact ⟨rfl, ih _⟩

theorem placeSections_offset {start : Nat} {sections : List SectionContent} {value : ArtifactBlobSection}
    (h : value ∈ placeSections sha256 start sections) : start ≤ value.offset := by
  induction sections generalizing start with
  | nil => cases h
  | cons content rest ih =>
    rcases List.mem_cons.1 h with rfl | h
    · exact Nat.le_refl _
    · exact (Nat.le_add_right _ _).trans (ih h)

/-- The section describes its content, which stands at its place in the blob. -/
structure Placed (blob : Bytes) (value : ArtifactBlobSection) (content : SectionContent) : Prop where
  kind : value.kind = content.kind.number
  compression : value.compression = content.compression
  ordinalStart : value.symbolOrdinalStart = content.ordinalStart
  ordinalEnd : value.symbolOrdinalEnd = content.ordinalEnd
  sha256 : value.sha256 = sha256 content.bytes
  bytes : slice blob value.offset value.length = content.bytes
  inside : value.offset + value.length ≤ blob.length

theorem placeSections_placed (before : Bytes) (sections : List SectionContent) :
    List.Forall₂ (Placed sha256 (before ++ sections.flatMap SectionContent.bytes))
      (placeSections sha256 before.length sections) sections := by
  induction sections generalizing before with
  | nil => exact List.Forall₂.nil
  | cons content rest ih =>
    have hrest := ih (before ++ content.bytes)
    rw [List.length_append, List.append_assoc] at hrest
    rw [placeSections, List.flatMap_cons]
    refine List.Forall₂.cons ⟨rfl, rfl, rfl, rfl, rfl, ?_, ?_⟩ hrest
    · rw [← List.append_assoc, slice_middle rfl rfl]
    · simp only [List.length_append]
      omega

/-- The sections of the table the loop ends with are placed right after it. -/
theorem stableToc_sections (sections : List SectionContent) : (stableToc sha256 sections).sections =
    placeSections sha256 (HEADER_SIZE + encodedLen (stableToc sha256 sections)) sections :=
  congrArg ArtifactBlobToc.sections (stableToc_eq sha256 sections)

theorem blobBytes_length (toc : ArtifactBlobToc) (sections : List SectionContent) : (blobBytes toc sections).length =
    HEADER_SIZE + encodedLen toc + (sections.flatMap SectionContent.bytes).length := by
  rw [blobBytes, List.length_append, List.length_append, header_length, encodedLen]

theorem stableToc_placed (sections : List SectionContent) : List.Forall₂
    (Placed sha256 (blobBytes (stableToc sha256 sections) sections)) (stableToc sha256 sections).sections sections := by
  have h := placeSections_placed sha256
    (header (encodedLen (stableToc sha256 sections)) ++ ArtifactBlobToc.wire.encode (stableToc sha256 sections)) sections
  rw [List.length_append, header_length, ← encodedLen] at h
  rwa [stableToc_sections]

end ArtifactLayout

end Kide
