import Kide.Artifact.Layout
import Kide.Lib.Checks
import Kide.Lib.Gzip
import Kide.Lib.Sha256

/-!
# The two blob readers

Both readers accept the same blobs with the same table of contents (`validate_eq_ok_iff`,
`openBlob_eq_ok_iff`), and every section of an accepted blob lies inside it, so a range read of a section
cannot fail. The readers then differ in one point: the three name and hierarchy sections are decompressed
by the reader of a cache file only.

`readers_agree_iff`: the readers return the same exactly if that difference does not show.
-/

namespace Kide

open Checks ArtifactProto ByteStrings

namespace ArtifactLayout

/-! ## Accepted blobs -/

theorem checkedAdd_eq_some_iff {a b sum : Nat} : checkedAdd a b = some sum ↔ a + b < U64_LIMIT ∧ a + b = sum := by
  unfold checkedAdd
  by_cases h : a + b < U64_LIMIT
  · rw [if_pos h, Option.some.injEq]
    exact ⟨fun hsum => ⟨h, hsum⟩, fun hsum => hsum.2⟩
  · rw [if_neg h]
    refine ⟨?_, fun hsum => absurd hsum.1 h⟩
    intro hsum
    cases hsum

theorem decoded_eq_ok_iff {α : Type} {value : Option α} {a : α} : decoded value = .ok a ↔ value = some a := by
  cases value with
  | none => exact ⟨fun h => (nomatch h), fun h => (nomatch h)⟩
  | some b => rw [decoded, Except.ok.injEq, Option.some.injEq]

theorem checkSection_eq_ok_iff {tocEnd payloadLen : Nat} {value : ArtifactBlobSection} :
    checkSection tocEnd payloadLen value = .ok () ↔ value.offset + value.length < U64_LIMIT ∧ tocEnd ≤ value.offset ∧
      value.offset + value.length ≤ payloadLen ∧ value.sha256.length = 32 := by
  unfold checkSection
  cases hsum : checkedAdd value.offset value.length with
  | none =>
    have hlarge : ¬ value.offset + value.length < U64_LIMIT := by
      intro h
      rw [checkedAdd, if_pos h] at hsum
      cases hsum
    exact ⟨fun h => (nomatch h), fun h => absurd h.1 hlarge⟩
  | some sum =>
    obtain ⟨hlimit, rfl⟩ := checkedAdd_eq_some_iff.1 hsum
    rw [ite_error_eq_ok_iff, and_iff_left rfl, not_or, not_or, not_lt, not_lt, not_not]
    exact ⟨fun h => ⟨hlimit, h⟩, fun h => h.2⟩

/-- The table of contents was decoded from its bytes and describes sections inside the blob. -/
structure Parsed (reader : BlobReader) (location : TocLocation) (payloadLen : Nat) (tocBytes : Bytes)
    (toc : ArtifactBlobToc) : Prop where
  inside : location.offset + location.length < U64_LIMIT ∧ location.offset + location.length ≤ payloadLen
  length : tocBytes.length = location.length
  decodes : reader.toc tocBytes = some toc
  version : toc.layoutVersion = ARTIFACT_BLOB_LAYOUT_VERSION
  sections : ∀ value ∈ toc.sections, value.offset + value.length < U64_LIMIT ∧
    location.offset + location.length ≤ value.offset ∧ value.offset + value.length ≤ payloadLen ∧ value.sha256.length = 32

theorem parseToc_eq_ok_iff {reader : BlobReader} {location : TocLocation} {payloadLen : Nat} {tocBytes : Bytes}
    {toc : ArtifactBlobToc} :
    parseToc reader location payloadLen tocBytes = .ok toc ↔ Parsed reader location payloadLen tocBytes toc := by
  unfold parseToc
  cases hsum : checkedAdd location.offset location.length with
  | none =>
    refine ⟨fun h => (nomatch h), fun h => ?_⟩
    rw [checkedAdd, if_pos h.inside.1] at hsum
    cases hsum
  | some tocEnd =>
    obtain ⟨hlimit, rfl⟩ := checkedAdd_eq_some_iff.1 hsum
    dsimp only
    by_cases hfits : tocBytes.length ≠ location.length ∨ payloadLen < location.offset + location.length
    · rw [if_pos hfits]
      refine ⟨fun h => (nomatch h), fun h => ?_⟩
      rcases hfits with hlength | hend
      · exact absurd h.length hlength
      · exact absurd h.inside.2 (by omega)
    · rw [if_neg hfits, bind_eq_ok_iff]
      rw [not_or, not_not, not_lt] at hfits
      constructor
      · rintro ⟨found, hfound, hrest⟩
        by_cases hversion : found.layoutVersion = ARTIFACT_BLOB_LAYOUT_VERSION
        · rw [if_neg (not_not.2 hversion), bind_eq_ok_iff] at hrest
          obtain ⟨_, hsections, hfinal⟩ := hrest
          obtain rfl := Except.ok.inj hfinal
          exact ⟨⟨hlimit, hfits.2⟩, hfits.1, decoded_eq_ok_iff.1 hfound, hversion,
            fun value hvalue => checkSection_eq_ok_iff.1 (forM_eq_ok_iff.1 hsections value hvalue)⟩
        · rw [if_pos hversion] at hrest
          cases hrest
      · intro h
        refine ⟨toc, decoded_eq_ok_iff.2 h.decodes, ?_⟩
        rw [if_neg (not_not.2 h.version), bind_eq_ok_iff]
        exact ⟨(), forM_eq_ok_iff.2 fun value hvalue => checkSection_eq_ok_iff.2 (h.sections value hvalue), rfl⟩

/-- What both readers require of a blob. -/
def Accepts (reader : BlobReader) (bytes : Bytes) (toc : ArtifactBlobToc) : Prop :=
  HEADER_SIZE ≤ bytes.length ∧ ∃ location, tocLocation (bytes.take HEADER_SIZE) = .ok location ∧
    Parsed reader location bytes.length (slice bytes location.offset location.length) toc

theorem validate_eq_ok_iff {reader : BlobReader} {bytes : Bytes} {layout : ArtifactBlobLayout} :
    ArtifactBlobLayout.validate reader bytes = .ok layout ↔ Accepts reader bytes layout.toc ∧ layout.bytes = bytes := by
  unfold ArtifactBlobLayout.validate Accepts
  by_cases hheader : bytes.length < HEADER_SIZE
  · rw [if_pos hheader]
    exact ⟨fun h => (nomatch h), fun h => absurd h.1.1 (by omega)⟩
  · rw [if_neg hheader, bind_eq_ok_iff]
    constructor
    · rintro ⟨location, hlocation, hrest⟩
      cases hsum : checkedAdd location.offset location.length with
      | none =>
        rw [hsum] at hrest
        cases hrest
      | some tocEnd =>
        rw [hsum] at hrest
        dsimp only at hrest
        split at hrest
        · cases hrest
        · obtain ⟨toc, htoc, hlayout⟩ := bind_eq_ok_iff.1 hrest
          rw [pure_eq_ok, Except.ok.injEq] at hlayout
          subst hlayout
          exact ⟨⟨by omega, location, hlocation, parseToc_eq_ok_iff.1 htoc⟩, rfl⟩
    · rintro ⟨⟨-, location, hlocation, hparsed⟩, rfl⟩
      refine ⟨location, hlocation, ?_⟩
      rw [checkedAdd_eq_some_iff.2 ⟨hparsed.inside.1, rfl⟩]
      dsimp only
      rw [if_neg (by have := hparsed.inside.2; omega), bind_eq_ok_iff]
      exact ⟨layout.toc, parseToc_eq_ok_iff.2 hparsed, rfl⟩

theorem readRange_of_inside {blob : ArtifactBlob} {offset length : Nat} (hlimit : offset + length < U64_LIMIT)
    (hinside : offset + length ≤ blob.payload.length) : blob.readRange offset length = .ok (slice blob.payload offset length) := by
  rw [ArtifactBlob.readRange, checkedAdd_eq_some_iff.2 ⟨hlimit, rfl⟩]
  exact if_neg (by omega)

theorem readRange_eq_ok_iff {blob : ArtifactBlob} {offset length : Nat} {bytes : Bytes} :
    blob.readRange offset length = .ok bytes ↔ offset + length < U64_LIMIT ∧ offset + length ≤ blob.payload.length ∧
      slice blob.payload offset length = bytes := by
  constructor
  · intro h
    rw [ArtifactBlob.readRange] at h
    cases hsum : checkedAdd offset length with
    | none =>
      rw [hsum] at h
      cases h
    | some rangeEnd =>
      obtain ⟨hlimit, rfl⟩ := checkedAdd_eq_some_iff.1 hsum
      rw [hsum] at h
      dsimp only at h
      split at h
      · cases h
      · exact ⟨hlimit, by omega, Except.ok.inj h⟩
  · rintro ⟨hlimit, hinside, rfl⟩
    exact readRange_of_inside hlimit hinside

theorem openBlob_eq_ok_iff {reader : BlobReader} {blob : ArtifactBlob} {sections : ArtifactBlobSections} :
    ArtifactBlobSections.openBlob reader blob = .ok sections ↔ Accepts reader blob.payload sections.toc := by
  unfold ArtifactBlobSections.openBlob Accepts
  simp only [bind_eq_ok_iff, readRange_eq_ok_iff, pure_eq_ok, Except.ok.injEq, parseToc_eq_ok_iff]
  constructor
  · rintro ⟨_, ⟨-, hheader, rfl⟩, location, hlocation, _, ⟨-, -, rfl⟩, toc, hparsed, rfl⟩
    exact ⟨by omega, location, hlocation, hparsed⟩
  · rintro ⟨hheader, location, hlocation, hparsed⟩
    exact ⟨_, ⟨by decide, by omega, rfl⟩, location, hlocation, _, ⟨hparsed.inside.1, hparsed.inside.2, rfl⟩,
      sections.toc, hparsed, rfl⟩

/-! ## Blobs as the encoders write them -/

theorem tocLocation_header {tocLength : Nat} (h : tocLength < U64_LIMIT) :
    tocLocation (header tocLength) = .ok ⟨HEADER_SIZE, tocLength⟩ := by
  have hmagic : (header tocLength).take 8 = MAGIC := by
    rw [header, List.append_assoc, List.append_assoc]
    exact List.take_left' rfl
  have hversion : slice (header tocLength) 8 4 = toLeBytes 4 ARTIFACT_BLOB_LAYOUT_VERSION := by
    rw [header, List.append_assoc (MAGIC ++ _)]
    exact slice_middle rfl (toLeBytes_length _ _)
  have hoffset : slice (header tocLength) 12 8 = toLeBytes 8 HEADER_SIZE :=
    slice_middle (by rw [List.length_append, toLeBytes_length]; rfl) (toLeBytes_length _ _)
  have hlength : slice (header tocLength) 20 8 = toLeBytes 8 tocLength := by
    rw [header, ← List.append_nil (toLeBytes 8 tocLength), ← List.append_assoc]
    refine slice_middle ?_ (toLeBytes_length _ _)
    rw [List.length_append, List.length_append, toLeBytes_length, toLeBytes_length]
    rfl
  rw [tocLocation, header_length, hmagic, hversion, hoffset, hlength, fromLeBytes_toLeBytes (by decide),
    fromLeBytes_toLeBytes (by decide), fromLeBytes_toLeBytes h]
  rfl

/-- What the encoders write is accepted. -/
theorem accepts_blobBytes (reader : BlobReader) {sections : List SectionContent}
    (hsize : (blobBytes (stableToc reader.sha256 sections) sections).length < U64_LIMIT) :
    Accepts reader (blobBytes (stableToc reader.sha256 sections) sections) (stableToc reader.sha256 sections) := by
  obtain ⟨toc, htoc⟩ : ∃ toc, toc = stableToc reader.sha256 sections := ⟨_, rfl⟩
  have hplaced := stableToc_placed reader.sha256 sections
  have hsections := stableToc_sections reader.sha256 sections
  have hversion := congrArg ArtifactBlobToc.layoutVersion (stableToc_eq reader.sha256 sections)
  rw [← htoc] at hplaced hsections hversion hsize ⊢
  have hlength := blobBytes_length toc sections
  have htake : (blobBytes toc sections).take HEADER_SIZE = header (encodedLen toc) := by
    rw [blobBytes, List.append_assoc]
    exact List.take_left' (header_length _)
  have htocBytes : slice (blobBytes toc sections) HEADER_SIZE (encodedLen toc) = ArtifactBlobToc.wire.encode toc :=
    slice_middle (header_length _) rfl
  refine ⟨by omega, ⟨HEADER_SIZE, encodedLen toc⟩, ?_, ⟨by dsimp only; omega, by dsimp only; omega⟩,
    slice_length (by dsimp only; omega), ?_, hversion, ?_⟩
  · rw [htake]
    exact tocLocation_header (by omega)
  · rw [htocBytes]
    exact reader.toc_encode toc
  · intro value hvalue
    obtain ⟨content, -, hcontent⟩ := forall₂_exists_mem hplaced hvalue
    have hstart := placeSections_offset reader.sha256 (hsections ▸ hvalue)
    have hinside := hcontent.inside
    refine ⟨by omega, hstart, hinside, ?_⟩
    rw [hcontent.sha256]
    exact reader.sha256_length _

/-! ## Sections of an accepted blob -/

theorem findSection_mem {toc : ArtifactBlobToc} {kind : ArtifactBlobSectionKind} {value : ArtifactBlobSection}
    (h : findSection toc kind = .ok value) : value ∈ toc.sections := by
  unfold findSection at h
  split at h
  · next hfound => exact Except.ok.inj h ▸ List.mem_of_find?_eq_some hfound
  · cases h

theorem detailSection_mem {toc : ArtifactBlobToc} {ordinal : Nat} {value : ArtifactBlobSection}
    (h : detailSection toc ordinal = .ok value) : value ∈ toc.sections := by
  unfold detailSection at h
  split at h
  · next hfound => exact Except.ok.inj h ▸ List.mem_of_find?_eq_some hfound
  · cases h

variable {reader : BlobReader} {bytes : Bytes} {toc : ArtifactBlobToc}

/-- A range read of a section gives what the reader in memory has, decompressed. -/
theorem readDescriptor_eq (h : Accepts reader bytes toc) {value : ArtifactBlobSection} (hvalue : value ∈ toc.sections) :
    ArtifactBlobSections.readDescriptor reader ⟨bytes⟩ value = (do
      let stored ← ArtifactBlobLayout.sectionByDescriptor reader ⟨bytes, toc⟩ value
      decompressSection reader stored value.compression) := by
  obtain ⟨-, location, -, hparsed⟩ := h
  obtain ⟨hlimit, -, hinside, -⟩ := hparsed.sections value hvalue
  rw [ArtifactBlobSections.readDescriptor, readRange_of_inside hlimit hinside, ok_bind,
    ArtifactBlobLayout.sectionByDescriptor]
  by_cases hsum : value.sha256 = reader.sha256 (slice bytes value.offset value.length)
  · rw [if_neg (not_not.2 hsum), if_neg (not_not.2 hsum), ok_bind]
  · rw [if_pos hsum, if_pos hsum]
    rfl

theorem graphFacts_eq (h : Accepts reader bytes toc) :
    ArtifactBlobLayout.graphFacts reader ⟨bytes, toc⟩ = ArtifactBlobSections.graphFacts reader ⟨toc⟩ ⟨bytes⟩ := by
  unfold ArtifactBlobLayout.graphFacts ArtifactBlobSections.graphFacts ArtifactBlobLayout.sectionBytes
    ArtifactBlobSections.readSection
  dsimp only
  cases hfound : findSection toc .graphFacts with
  | error e => rfl
  | ok value =>
    rw [ok_bind, ok_bind, ok_bind, readDescriptor_eq h (findSection_mem hfound)]
    cases ArtifactBlobLayout.sectionByDescriptor reader ⟨bytes, toc⟩ value <;> rfl

theorem symbolDetailBlock_eq (h : Accepts reader bytes toc) (ordinal : Nat) :
    ArtifactBlobLayout.symbolDetailBlock reader ⟨bytes, toc⟩ ordinal =
      ArtifactBlobSections.symbolDetailBlock reader ⟨toc⟩ ⟨bytes⟩ ordinal := by
  unfold ArtifactBlobLayout.symbolDetailBlock ArtifactBlobSections.symbolDetailBlock
  dsimp only
  cases hfound : detailSection toc ordinal with
  | error e => rfl
  | ok value =>
    rw [ok_bind, ok_bind, readDescriptor_eq h (detailSection_mem hfound)]
    cases ArtifactBlobLayout.sectionByDescriptor reader ⟨bytes, toc⟩ value <;> rfl

/-! ## Agreement -/

/-- Both return the same value, or both fail. -/
def SameOutcome {α : Type} (first second : Except ArtifactBlobLayoutError α) : Prop := first.toOption = second.toOption

/-- What the readers do with a section whose typed reader in memory does not decompress it. -/
def readStored {α : Type} (reader : BlobReader) (decode : Bytes → Option α) (layout : ArtifactBlobLayout)
    (kind : ArtifactBlobSectionKind) : Except ArtifactBlobLayoutError α := do
  let stored ← layout.sectionBytes reader kind
  decoded (decode stored)

def readDecompressed {α : Type} (reader : BlobReader) (decode : Bytes → Option α) (sections : ArtifactBlobSections)
    (blob : ArtifactBlob) (kind : ArtifactBlobSectionKind) : Except ArtifactBlobLayoutError α := do
  let payload ← sections.readSection reader blob kind
  decoded (decode payload)

/-- The first section of the kind, if its bytes pass their checksum, is stored without compression, or its
bytes give the same message, or none, with and without decompression. -/
def StoredPlainly {α : Type} (reader : BlobReader) (decode : Bytes → Option α) (bytes : Bytes) (toc : ArtifactBlobToc)
    (kind : ArtifactBlobSectionKind) : Prop :=
  ∀ value, findSection toc kind = .ok value → value.sha256 = reader.sha256 (slice bytes value.offset value.length) →
    value.compression = 0 ∨
      (decompressSection reader (slice bytes value.offset value.length) value.compression).toOption.bind decode =
        decode (slice bytes value.offset value.length)

theorem toOption_decoded {α : Type} (value : Option α) : (decoded value).toOption = value := by
  cases value <;> rfl

theorem toOption_bind {α β : Type} (x : Except ArtifactBlobLayoutError α) (f : α → Except ArtifactBlobLayoutError β) :
    (x >>= f).toOption = x.toOption.bind fun a => (f a).toOption := by
  cases x <;> rfl

theorem sameOutcome_iff {α : Type} (h : Accepts reader bytes toc) (decode : Bytes → Option α) (kind : ArtifactBlobSectionKind) :
    SameOutcome (readStored reader decode ⟨bytes, toc⟩ kind) (readDecompressed reader decode ⟨toc⟩ ⟨bytes⟩ kind) ↔
      StoredPlainly reader decode bytes toc kind := by
  unfold SameOutcome StoredPlainly readStored readDecompressed ArtifactBlobLayout.sectionBytes
    ArtifactBlobSections.readSection
  dsimp only
  cases hfound : findSection toc kind with
  | error e => exact ⟨fun _ _ h => (nomatch h), fun _ => rfl⟩
  | ok value =>
    rw [ok_bind, ok_bind, readDescriptor_eq h (findSection_mem hfound), ArtifactBlobLayout.sectionByDescriptor]
    dsimp only
    by_cases hsum : value.sha256 = reader.sha256 (slice bytes value.offset value.length)
    · rw [if_neg (not_not.2 hsum), ok_bind, ok_bind, toOption_decoded, toOption_bind]
      simp only [toOption_decoded]
      constructor
      · intro heq found hfound' _
        cases hfound'
        exact .inr heq.symm
      · intro hplain
        rcases hplain value rfl hsum with hzero | heq
        · rw [hzero, decompressSection, if_pos rfl]
          rfl
        · exact heq.symm
    · rw [if_pos hsum]
      exact ⟨fun _ found hfound' hsum' => by cases hfound'; exact absurd hsum' hsum, fun _ => rfl⟩

/-- What the claim of two readers with one behaviour comes to for one byte string. -/
structure ReadersAgree (reader : BlobReader) (bytes : Bytes) : Prop where
  accepts : (ArtifactBlobLayout.validate reader bytes).isOk = (ArtifactBlobSections.openBlob reader ⟨bytes⟩).isOk
  reads : ∀ layout sections, ArtifactBlobLayout.validate reader bytes = .ok layout →
    ArtifactBlobSections.openBlob reader ⟨bytes⟩ = .ok sections →
      SameOutcome (layout.symbolPostings reader) (sections.symbolPostings reader ⟨bytes⟩) ∧
      SameOutcome (layout.hierarchyPostings reader) (sections.hierarchyPostings reader ⟨bytes⟩) ∧
      SameOutcome (layout.qualifiedSymbolDirectory reader) (sections.qualifiedSymbolDirectory reader ⟨bytes⟩) ∧
      SameOutcome (layout.graphFacts reader) (sections.graphFacts reader ⟨bytes⟩) ∧
      ∀ ordinal, SameOutcome (layout.symbolDetailBlock reader ordinal) (sections.symbolDetailBlock reader ⟨bytes⟩ ordinal)

theorem isOk_iff {α : Type} {r : Except ArtifactBlobLayoutError α} : r.isOk = true ↔ ∃ a, r = .ok a := by
  cases r with
  | error e => exact ⟨fun h => (nomatch h), fun ⟨_, h⟩ => (nomatch h)⟩
  | ok a => exact ⟨fun _ => ⟨a, rfl⟩, fun _ => rfl⟩

/-- The readers agree on a blob exactly if none of the three routing sections shows that one of them does
not decompress it. -/
theorem readers_agree_iff (reader : BlobReader) (bytes : Bytes) :
    ReadersAgree reader bytes ↔ ∀ toc, ArtifactBlobSections.openBlob reader ⟨bytes⟩ = .ok ⟨toc⟩ →
      StoredPlainly reader reader.symbolPostings bytes toc .symbolPostings ∧
      StoredPlainly reader reader.hierarchyPostings bytes toc .hierarchyPostings ∧
      StoredPlainly reader reader.qualifiedSymbolDirectory bytes toc .qualifiedSymbolDirectory := by
  constructor
  · intro h toc hopen
    have haccepts := openBlob_eq_ok_iff.1 hopen
    obtain ⟨hpostings, hhierarchy, hdirectory, -⟩ := h.reads ⟨bytes, toc⟩ ⟨toc⟩ (validate_eq_ok_iff.2 ⟨haccepts, rfl⟩) hopen
    exact ⟨(sameOutcome_iff haccepts _ _).1 hpostings, (sameOutcome_iff haccepts _ _).1 hhierarchy,
      (sameOutcome_iff haccepts _ _).1 hdirectory⟩
  · intro h
    constructor
    · rw [Bool.eq_iff_iff, isOk_iff, isOk_iff]
      constructor
      · rintro ⟨layout, hlayout⟩
        exact ⟨⟨layout.toc⟩, openBlob_eq_ok_iff.2 (validate_eq_ok_iff.1 hlayout).1⟩
      · rintro ⟨sections, hsections⟩
        exact ⟨⟨bytes, sections.toc⟩, validate_eq_ok_iff.2 ⟨openBlob_eq_ok_iff.1 hsections, rfl⟩⟩
    · rintro ⟨_, toc⟩ ⟨toc'⟩ hlayout hsections
      obtain ⟨haccepts, rfl⟩ := validate_eq_ok_iff.1 hlayout
      have hsame : toc = toc' := by
        obtain ⟨-, location, hlocation, hparsed⟩ := haccepts
        obtain ⟨-, location', hlocation', hparsed'⟩ := openBlob_eq_ok_iff.1 hsections
        obtain rfl := Except.ok.inj (hlocation.symm.trans hlocation')
        exact Option.some.inj (hparsed.decodes.symm.trans hparsed'.decodes)
      subst hsame
      obtain ⟨hpostings, hhierarchy, hdirectory⟩ := h toc hsections
      refine ⟨(sameOutcome_iff haccepts _ _).2 hpostings, (sameOutcome_iff haccepts _ _).2 hhierarchy,
        (sameOutcome_iff haccepts _ _).2 hdirectory, ?_, fun ordinal => ?_⟩
      · rw [SameOutcome, graphFacts_eq haccepts]
      · rw [SameOutcome, symbolDetailBlock_eq haccepts]

/-! ## The libraries themselves -/

def wireReader : BlobReader where
  sha256 := Sha256.digest
  gunzip := Gzip.decompress
  toc := ArtifactBlobToc.wire.decode
  symbolDictionary := ArtifactSymbolDictionary.wire.decode
  symbolPostings := ArtifactSymbolPostings.wire.decode
  hierarchyPostings := ArtifactHierarchyPostings.wire.decode
  qualifiedSymbolDirectory := ArtifactQualifiedSymbolDirectory.wire.decode
  graphFacts := GraphArtifact.wire.decode
  symbolDetailBlock := ArtifactSymbolDetailBlock.wire.decode
  sha256_length := Sha256.digest_length
  toc_encode := ArtifactBlobToc.wire.decode_encode

def wireWriter : BlobWriter wireReader where
  gzip := Gzip.encoder
  symbolDictionary := ArtifactSymbolDictionary.wire.encoder
  symbolPostings := ArtifactSymbolPostings.wire.encoder
  hierarchyPostings := ArtifactHierarchyPostings.wire.encoder
  qualifiedSymbolDirectory := ArtifactQualifiedSymbolDirectory.wire.encoder
  graphFacts := GraphArtifact.wire.encoder
  symbolDetailBlock := ArtifactSymbolDetailBlock.wire.encoder

/-- A blob whose only section is a compressed list of symbol postings. -/
def compressedPostings : Bytes :=
  let sections := [plainSection .symbolPostings (Gzip.compress (ArtifactSymbolPostings.wire.encode ⟨[⟨0, 1⟩]⟩)) 1]
  blobBytes (nextToc Sha256.digest sections (nextToc Sha256.digest sections emptyToc)) sections

/-- The reader in memory fails on it, the reader of a cache file gives its one posting. -/
theorem compressedPostings_read_differently :
    ((ArtifactBlobLayout.validate wireReader compressedPostings).bind fun layout => layout.symbolPostings wireReader) =
        .error .decode ∧
      ((ArtifactBlobSections.openBlob wireReader ⟨compressedPostings⟩).bind fun sections =>
        sections.symbolPostings wireReader ⟨compressedPostings⟩) = .ok ⟨[⟨0, 1⟩]⟩ := by
  constructor <;> decide +kernel

theorem bind_eq_ok {α β : Type} {x : Except ArtifactBlobLayoutError α} {f : α → Except ArtifactBlobLayoutError β} {b : β}
    (h : x.bind f = .ok b) : ∃ a, x = .ok a ∧ f a = .ok b := bind_eq_ok_iff.1 h

theorem compressedPostings_disagree : ¬ ReadersAgree wireReader compressedPostings := by
  intro h
  obtain ⟨hmemory, hranged⟩ := compressedPostings_read_differently
  obtain ⟨sections, hopen, hpostings⟩ := bind_eq_ok hranged
  have hlayout : ArtifactBlobLayout.validate wireReader compressedPostings = .ok ⟨compressedPostings, sections.toc⟩ :=
    validate_eq_ok_iff.2 ⟨openBlob_eq_ok_iff.1 hopen, rfl⟩
  have hsame := (h.reads _ sections hlayout hopen).1
  rw [hlayout] at hmemory
  rw [SameOutcome, hpostings, show ArtifactBlobLayout.symbolPostings wireReader _ = _ from hmemory] at hsame
  cases hsame

end ArtifactLayout

end Kide
