import Kide.Artifact.Adapter
import Kide.Artifact.Readers
import Kide.Lib.Panics

/-!
# Reading within bounds

The readers of a blob in memory (`artifact_blob_layout.rs`) with the slices and sums that can panic. The checks of `validate`
are the bounds of every slice:

* `validateSliced_eq` : the validator itself slices the header it has checked;
* `sectionByDescriptorSliced_eq` : of an accepted blob every section of the table of contents is sliced within the bytes;
* `decodeSymbolDetail_out_of_range` : an ordinal or an index outside of its table is an error of the decoder.

`reads_return` puts them together.
-/

namespace Kide
open ArtifactAdapter ArtifactProto ArtifactLayout ByteStrings Checks Panics

/-- `as usize` -/
def asUsize (value : Nat) : Nat := value % 2 ^ 64

theorem asUsize_of_lt {value : Nat} (h : value < U64_LIMIT) : asUsize value = value := Nat.mod_eq_of_lt h

/-! ## The readers with their slices -/

namespace ArtifactLayout

/-- `toc_location` -/
def tocLocationSliced (header : Bytes) : Fallible ArtifactBlobLayoutError TocLocation :=
  if header.length ≠ HEADER_SIZE then returning (.error .invalidHeader)
  else do
    let magic ← panicking (Panics.slice header 0 8)
    if magic ≠ MAGIC then returning (.error .invalidHeader)
    else do
      let version ← panicking (Panics.slice header 8 12)
      if fromLeBytes version ≠ ARTIFACT_BLOB_LAYOUT_VERSION then returning (.error (.unsupportedVersion (fromLeBytes version)))
      else do
        let offset ← panicking (Panics.slice header 12 20)
        if fromLeBytes offset ≠ HEADER_SIZE then returning (.error .invalidHeader)
        else do
          let length ← panicking (Panics.slice header 20 28)
          returning (.ok ⟨fromLeBytes offset, fromLeBytes length⟩)

end ArtifactLayout

namespace ArtifactBlobLayout

/-- `validate`: the ranges of the bytes are taken with `get`. -/
def validateSliced (reader : BlobReader) (bytes : Bytes) : Fallible ArtifactBlobLayoutError ArtifactBlobLayout :=
  if bytes.length < HEADER_SIZE then returning (.error .invalidHeader)
  else do
    let location ← tocLocationSliced (bytes.take HEADER_SIZE)
    match checkedAdd location.offset location.length with
    | none => returning (.error .invalidHeader)
    | some tocEnd =>
      if bytes.length < asUsize tocEnd then returning (.error .invalidHeader)
      else do
        let toc ← returning (parseToc reader location bytes.length (ByteStrings.slice bytes (asUsize location.offset) location.length))
        returning (.ok ⟨bytes, toc⟩)

variable (reader : BlobReader) (layout : ArtifactBlobLayout)

/-- `section_by_descriptor`: the sum is not checked and the range is not taken with `get`. -/
def sectionByDescriptorSliced (value : ArtifactBlobSection) : Fallible ArtifactBlobLayoutError Bytes := do
  let stop ← panicking (addWithin 64 value.offset value.length)
  let bytes ← panicking (Panics.slice layout.bytes (asUsize value.offset) (asUsize stop))
  returning (if value.sha256 ≠ reader.sha256 bytes then .error .checksumMismatch else .ok bytes)

def sectionSliced (kind : ArtifactBlobSectionKind) : Fallible ArtifactBlobLayoutError Bytes := do
  let value ← returning (findSection layout.toc kind)
  layout.sectionByDescriptorSliced reader value

def symbolPostingsSliced : Fallible ArtifactBlobLayoutError ArtifactSymbolPostings := do
  let bytes ← layout.sectionSliced reader .symbolPostings
  returning (decoded (reader.symbolPostings bytes))

def hierarchyPostingsSliced : Fallible ArtifactBlobLayoutError ArtifactHierarchyPostings := do
  let bytes ← layout.sectionSliced reader .hierarchyPostings
  returning (decoded (reader.hierarchyPostings bytes))

def qualifiedSymbolDirectorySliced : Fallible ArtifactBlobLayoutError ArtifactQualifiedSymbolDirectory := do
  let bytes ← layout.sectionSliced reader .qualifiedSymbolDirectory
  returning (decoded (reader.qualifiedSymbolDirectory bytes))

def graphFactsSliced : Fallible ArtifactBlobLayoutError GraphArtifact := do
  let value ← returning (findSection layout.toc .graphFacts)
  let bytes ← layout.sectionSliced reader .graphFacts
  returning (do
    let payload ← decompressSection reader bytes value.compression
    decoded (reader.graphFacts payload))

def symbolDetailBlockSliced (ordinal : Nat) : Fallible ArtifactBlobLayoutError ArtifactSymbolDetailBlock := do
  let value ← returning (detailSection layout.toc ordinal)
  let bytes ← layout.sectionByDescriptorSliced reader value
  returning (do
    let payload ← decompressSection reader bytes value.compression
    decoded (reader.symbolDetailBlock payload))

end ArtifactBlobLayout

/-! ## The validator -/

namespace ArtifactLayout

theorem slice_within (bytes : Bytes) {start stop : Nat} (hle : start ≤ stop) (hstop : stop ≤ bytes.length) :
    Panics.slice bytes start stop = .ok (ByteStrings.slice bytes start (stop - start)) :=
  Panics.slice_eq_ok_iff.2 ⟨⟨hle, hstop⟩, rfl⟩

theorem tocLocationSliced_eq (header : Bytes) : tocLocationSliced header = returning (tocLocation header) := by
  unfold tocLocationSliced tocLocation
  by_cases hlength : header.length ≠ HEADER_SIZE
  · rw [if_pos hlength, if_pos (.inl hlength)]
  · have hsize : header.length = 28 := not_not.1 hlength
    have hmagic : ByteStrings.slice header 0 (8 - 0) = header.take 8 := rfl
    rw [if_neg hlength, panicking_bind (slice_within _ (by decide) (by omega)), hmagic]
    by_cases heq : header.take 8 ≠ MAGIC
    · rw [if_pos heq, if_pos (.inr heq)]
    · have hversion : ByteStrings.slice header 8 (12 - 8) = ByteStrings.slice header 8 4 := rfl
      have hoffset : ByteStrings.slice header 12 (20 - 12) = ByteStrings.slice header 12 8 := rfl
      have hend : ByteStrings.slice header 20 (28 - 20) = ByteStrings.slice header 20 8 := rfl
      rw [if_neg heq, if_neg (not_or.2 ⟨hlength, heq⟩), panicking_bind (slice_within _ (by decide) (by omega)), hversion]
      dsimp only
      split
      · rfl
      · rw [panicking_bind (slice_within _ (by decide) (by omega)), hoffset]
        split
        · rfl
        · rw [panicking_bind (slice_within _ (by decide) (by omega)), hend]

end ArtifactLayout

namespace ArtifactBlobLayout

theorem validateSliced_eq (reader : BlobReader) (bytes : Bytes) : validateSliced reader bytes = returning (validate reader bytes) := by
  unfold validateSliced validate
  split
  · rfl
  · rw [tocLocationSliced_eq]
    refine returning_bind fun location _ => ?_
    cases hsum : checkedAdd location.offset location.length with
    | none => rfl
    | some tocEnd =>
      obtain ⟨hlimit, rfl⟩ := checkedAdd_eq_some_iff.1 hsum
      dsimp only
      rw [asUsize_of_lt hlimit, asUsize_of_lt (by omega)]
      split
      · rfl
      · exact returning_bind fun toc _ => rfl

/-! ## The readers -/

section
variable {reader : BlobReader} {bytes : Bytes} {toc : ArtifactBlobToc}

/-- The checks of the validator are the bounds of the slice. -/
theorem sectionByDescriptorSliced_eq (h : Accepts reader bytes toc) {value : ArtifactBlobSection} (hvalue : value ∈ toc.sections) :
    sectionByDescriptorSliced reader ⟨bytes, toc⟩ value = returning (sectionByDescriptor reader ⟨bytes, toc⟩ value) := by
  obtain ⟨-, location, -, hparsed⟩ := h
  obtain ⟨hlimit, -, hinside, -⟩ := hparsed.sections value hvalue
  have hslice := slice_within bytes (Nat.le_add_right value.offset value.length) hinside
  rw [Nat.add_sub_cancel_left] at hslice
  rw [sectionByDescriptorSliced, panicking_bind (addWithin_eq_ok_iff.2 ⟨hlimit, rfl⟩), asUsize_of_lt hlimit,
    asUsize_of_lt (by omega), panicking_bind hslice]
  rfl

theorem sectionSliced_eq (h : Accepts reader bytes toc) (kind : ArtifactBlobSectionKind) :
    sectionSliced reader ⟨bytes, toc⟩ kind = returning (sectionBytes reader ⟨bytes, toc⟩ kind) :=
  returning_bind fun _ hfound => sectionByDescriptorSliced_eq h (findSection_mem hfound)

/-- No read of the blob panics, and each gives what the reader without slices gives. -/
structure ReadsReturn (reader : BlobReader) (layout : ArtifactBlobLayout) : Prop where
  anySection : ∀ kind, layout.sectionSliced reader kind = returning (layout.sectionBytes reader kind)
  symbolPostings : layout.symbolPostingsSliced reader = returning (layout.symbolPostings reader)
  hierarchyPostings : layout.hierarchyPostingsSliced reader = returning (layout.hierarchyPostings reader)
  directory : layout.qualifiedSymbolDirectorySliced reader = returning (layout.qualifiedSymbolDirectory reader)
  graphFacts : layout.graphFactsSliced reader = returning (layout.graphFacts reader)
  detailBlock : ∀ ordinal, layout.symbolDetailBlockSliced reader ordinal = returning (layout.symbolDetailBlock reader ordinal)

theorem readsReturn_of_accepts (h : Accepts reader bytes toc) : ReadsReturn reader ⟨bytes, toc⟩ where
  anySection := sectionSliced_eq h
  symbolPostings := by
    rw [symbolPostingsSliced, sectionSliced_eq h]
    exact returning_bind fun _ _ => rfl
  hierarchyPostings := by
    rw [hierarchyPostingsSliced, sectionSliced_eq h]
    exact returning_bind fun _ _ => rfl
  directory := by
    rw [qualifiedSymbolDirectorySliced, sectionSliced_eq h]
    exact returning_bind fun _ _ => rfl
  graphFacts := by
    refine returning_bind fun value _ => ?_
    rw [sectionSliced_eq h]
    exact returning_bind fun _ _ => rfl
  detailBlock := fun ordinal => by
    refine returning_bind fun value hvalue => ?_
    rw [sectionByDescriptorSliced_eq h (detailSection_mem hvalue)]
    exact returning_bind fun _ _ => rfl

end

end ArtifactBlobLayout

/-! ## Details -/

/-- The indexes of a detail into the string table of its block. -/
def ArtifactProto.ArtifactSymbolDetail.stringIndexes (detail : ArtifactSymbolDetail) : List Nat :=
  detail.backendKeyStringIndex.toList ++ detail.kindStringIndex.toList ++ detail.nameStringIndex.toList ++
    detail.qualifiedNameStringIndex.toList ++ detail.signatureStringIndex.toList ++ detail.ownerIdStringIndex.toList ++
    detail.modifierStringIndexes ++ detail.appliedSymbolStringIndexes

/-- The ordinal and every index that the decoder follows is one of its table. -/
def ArtifactProto.ArtifactSymbolDetailBlock.InRange (block : ArtifactSymbolDetailBlock) (ordinal : Nat) : Prop :=
  block.firstSymbolOrdinal ≤ ordinal ∧ ∃ detail defaults sourceUnit,
    block.entries[ordinal - block.firstSymbolOrdinal]? = some detail ∧ block.defaults = some defaults ∧
      defaults.sourceUnit = some sourceUnit ∧
      (detail.provenanceIndex.or defaults.provenanceIndex).getD 0 < defaults.provenances.length ∧
      ∀ index ∈ detail.stringIndexes, index < defaults.stringTable.length

namespace ArtifactLayout

theorem present_cases {α : Type} (value : Option α) :
    (∃ a, value = some a ∧ present value = .ok a) ∨ (value = none ∧ present value = .error .lengthMismatch) := by
  cases value with
  | none => exact .inr ⟨rfl, rfl⟩
  | some a => exact .inl ⟨a, rfl, rfl⟩

/-- A lookup in the string table: every index is one of the table, or the result is an error. -/
def LooksUp {α : Type} (table : List String) (indexes : List Nat) (x : Except ArtifactProtoError α) : Prop :=
  (∃ a, x = .ok a ∧ ∀ index ∈ indexes, index < table.length) ∨ x = .error .lengthMismatch

theorem LooksUp.bind {α β : Type} {table : List String} {first rest : List Nat} {x : Except ArtifactProtoError α}
    {f : α → Except ArtifactProtoError β} (hx : LooksUp table first x) (hf : ∀ a, LooksUp table rest (f a)) :
    LooksUp table (first ++ rest) (x >>= f) := by
  rcases hx with ⟨a, rfl, hfirst⟩ | rfl
  · rcases hf a with ⟨b, hb, hrest⟩ | herror
    · exact .inl ⟨b, hb, List.forall_mem_append.2 ⟨hfirst, hrest⟩⟩
    · exact .inr herror
  · exact .inr rfl

theorem LooksUp.pure {α : Type} (table : List String) (a : α) : LooksUp table [] (.ok a : Except ArtifactProtoError α) :=
  .inl ⟨a, rfl, fun _ hmem => absurd hmem List.not_mem_nil⟩

theorem looksUp_index (table : List String) (index : Nat) : LooksUp table [index] (present table[index]?) := by
  rcases present_cases table[index]? with ⟨a, ha, hok⟩ | ⟨-, herror⟩
  · exact .inl ⟨a, hok, List.forall_mem_singleton.2 (List.getElem?_eq_some_iff.1 ha).1⟩
  · exact .inr herror

theorem looksUp_string (table : List String) (inline : String) (index : Option Nat) :
    LooksUp table index.toList (detailString table inline index) := by
  cases index with
  | none => exact LooksUp.pure table inline
  | some index => exact looksUp_index table index

theorem looksUp_optional (table : List String) (inline : Option String) (index : Option Nat) :
    LooksUp table index.toList (detailOptional table inline index) := by
  cases index with
  | none => exact LooksUp.pure table inline
  | some index =>
    rcases looksUp_index table index with ⟨a, ha, hindex⟩ | herror
    · exact .inl ⟨some a, by rw [detailOptional, ha]; rfl, hindex⟩
    · exact .inr (by rw [detailOptional, herror]; rfl)

theorem looksUp_indexes (table : List String) (indexes : List Nat) :
    LooksUp table indexes (indexes.mapM fun index => present table[index]?) := by
  induction indexes with
  | nil => exact LooksUp.pure table []
  | cons index indexes ih =>
    rw [List.mapM_cons]
    refine (looksUp_index table index).bind fun a => ?_
    have hrest : LooksUp table (indexes ++ []) _ := ih.bind fun strings => LooksUp.pure table (a :: strings)
    rwa [List.append_nil] at hrest

theorem looksUp_strings (table : List String) (inline : List String) (indexes : List Nat) :
    LooksUp table indexes (detailStrings table inline indexes) := by
  unfold detailStrings
  split
  · next hnil =>
    rw [hnil]
    exact LooksUp.pure table inline
  · exact looksUp_indexes table indexes

/-- The declaration of a detail: every index is one of the table, or the result is an error. -/
theorem looksUp_detailSymbol (defaults : ArtifactSymbolSnapshotDefaults) (detail : ArtifactSymbolDetail) :
    LooksUp defaults.stringTable detail.stringIndexes (detailSymbol defaults detail) := by
  have h := (looksUp_string defaults.stringTable detail.backendKey detail.backendKeyStringIndex).bind fun backendKey =>
    (looksUp_string defaults.stringTable detail.kind detail.kindStringIndex).bind fun kind =>
    (looksUp_string defaults.stringTable detail.name detail.nameStringIndex).bind fun name =>
    (looksUp_optional defaults.stringTable detail.qualifiedName detail.qualifiedNameStringIndex).bind fun qualifiedName =>
    (looksUp_optional defaults.stringTable detail.signature detail.signatureStringIndex).bind fun signature =>
    (looksUp_optional defaults.stringTable detail.ownerId detail.ownerIdStringIndex).bind fun ownerId =>
    (looksUp_strings defaults.stringTable detail.modifiers detail.modifierStringIndexes).bind fun modifiers =>
    (looksUp_strings defaults.stringTable detail.appliedSymbolIds detail.appliedSymbolStringIndexes).bind fun appliedSymbolIds =>
      LooksUp.pure defaults.stringTable
        ({ id := detail.id
           backendKey
           backendSchemaVersion := detail.backendSchemaVersion
           language := detail.language.getD defaults.language
           kind
           name
           qualifiedName
           signature
           declaration := detail.declaration
           nameRange := detail.nameRange
           ownerId
           modifiers
           appliedSymbolIds
           freshness := detail.freshness.getD defaults.freshness
           completeness := detail.completeness.getD defaults.completeness
           componentId := detail.componentId.getD defaults.componentId
           provenanceIndex := none
           ownerSymbolOrdinal := none } : ArtifactSymbol)
  have hindexes : detail.stringIndexes = detail.backendKeyStringIndex.toList ++ (detail.kindStringIndex.toList ++
      (detail.nameStringIndex.toList ++ (detail.qualifiedNameStringIndex.toList ++ (detail.signatureStringIndex.toList ++
        (detail.ownerIdStringIndex.toList ++ (detail.modifierStringIndexes ++ (detail.appliedSymbolStringIndexes ++ []))))))) := by
    simp only [ArtifactSymbolDetail.stringIndexes, List.append_assoc, List.append_nil]
  rw [hindexes]
  exact h

/-- An ordinal or an index outside of its table. -/
theorem decodeSymbolDetail_out_of_range {block : ArtifactSymbolDetailBlock} {ordinal : Nat} (h : ¬ block.InRange ordinal) :
    decodeSymbolDetail block ordinal = .error .lengthMismatch := by
  unfold decodeSymbolDetail
  by_cases hordinal : ordinal < block.firstSymbolOrdinal
  · rw [if_pos hordinal]
  rw [if_neg hordinal]
  rcases present_cases block.entries[ordinal - block.firstSymbolOrdinal]? with ⟨detail, hentry, hdetail⟩ | ⟨-, herror⟩
  · rw [hdetail, ok_bind]
    rcases present_cases block.defaults with ⟨defaults, hblock, hdefaults⟩ | ⟨-, herror⟩
    · rw [hdefaults, ok_bind]
      rcases present_cases defaults.sourceUnit with ⟨sourceUnit, hsource, hunit⟩ | ⟨-, herror⟩
      · rw [hunit, ok_bind]
        dsimp only
        rcases present_cases defaults.provenances[(detail.provenanceIndex.or defaults.provenanceIndex).getD 0]? with
          ⟨provenance, hindex, hprovenance⟩ | ⟨-, herror⟩
        · rw [hprovenance, ok_bind]
          rcases looksUp_detailSymbol defaults detail with ⟨symbol, -, hstrings⟩ | herror
          · exact absurd ⟨not_lt.1 hordinal, detail, defaults, sourceUnit, hentry, hblock, hsource,
              (List.getElem?_eq_some_iff.1 hindex).1, hstrings⟩ h
          · rw [herror]
            rfl
        · rw [herror]
          rfl
      · rw [herror]
        rfl
    · rw [herror]
      rfl
  · rw [herror]
    rfl

/-- The decoder of details returns, and where it returns a declaration nothing is out of range. -/
theorem decodeSymbolDetail_returns (block : ArtifactSymbolDetailBlock) (ordinal : Nat) :
    ((∃ record, decodeSymbolDetail block ordinal = .ok record) ∧ block.InRange ordinal) ∨
      ∃ reason, decodeSymbolDetail block ordinal = .error reason := by
  cases hresult : decodeSymbolDetail block ordinal with
  | error reason => exact .inr ⟨reason, rfl⟩
  | ok record =>
    refine .inl ⟨⟨record, rfl⟩, ?_⟩
    by_contra hrange
    rw [decodeSymbolDetail_out_of_range hrange] at hresult
    cases hresult

/-- **Bounds.** Every read of a validated blob returns without a panic, whatever its table of contents says, and so does the
decoder of details on every block and ordinal. -/
theorem reads_return {reader : BlobReader} {bytes : Bytes} {layout : ArtifactBlobLayout}
    (h : ArtifactBlobLayout.validateSliced reader bytes = returning (.ok layout)) :
    ArtifactBlobLayout.ReadsReturn reader layout ∧
      ∀ block ordinal, ((∃ record, decodeSymbolDetail block ordinal = .ok record) ∧ block.InRange ordinal) ∨
        ∃ reason, decodeSymbolDetail block ordinal = .error reason := by
  rw [ArtifactBlobLayout.validateSliced_eq] at h
  have hvalid : ArtifactBlobLayout.validate reader bytes = .ok layout := Except.ok.inj h
  obtain ⟨haccepts, rfl⟩ := validate_eq_ok_iff.1 hvalid
  exact ⟨ArtifactBlobLayout.readsReturn_of_accepts haccepts, decodeSymbolDetail_returns⟩

/-- A blob with one compressed section. -/
theorem compressedPostings_reads_return : ∃ layout, ArtifactBlobLayout.ReadsReturn wireReader layout ∧ layout.bytes = compressedPostings := by
  have hlayout : ∃ layout, ArtifactBlobLayout.validate wireReader compressedPostings = .ok layout :=
    exists_ok_of_isOk (by decide +kernel)
  obtain ⟨layout, hvalid⟩ := hlayout
  have hsliced : ArtifactBlobLayout.validateSliced wireReader compressedPostings = returning (.ok layout) :=
    (ArtifactBlobLayout.validateSliced_eq _ _).trans (congrArg returning hvalid)
  exact ⟨layout, (reads_return hsliced).1, (validate_eq_ok_iff.1 hvalid).2⟩

end ArtifactLayout

end Kide
