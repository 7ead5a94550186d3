import Kide.Cache.BlobFile
import Kide.Lib.Panics

/-!
# Header arithmetic

`open_blob` and `read_range` with their sums of 64 bits. The length in the header of a file is any number of 64 bits, and the size
of the header is added to it without a check.

* `openBlobWithin_payload` : where the sum does not overflow, the blob is that of `openBlob`;
* `headerExact_iff` : the arithmetic is exact except for a file with a valid header whose length is within the size of the header of
  the top of the range;
* `wrapped_length_ne` : where the sum wraps around, it is the length of no file.
-/

namespace Kide.BlobFile
open ByteStrings Directories Checks Panics

/-! ## The reads with their sums -/

/-- `ArtifactBlob`: the file, and the length that its header names. -/
structure OpenedBlob where
  content : Bytes
  payloadLen : Nat
deriving DecidableEq, Repr

/-- `open_blob` -/
def openBlobWithin (directory : CacheDirectory) (key : ArtifactBlobKey) : Fallible ArtifactBlobCacheError (Option OpenedBlob) :=
  match directory.read (filename key) with
  | none => returning (.ok none)
  | some content =>
    if content.length < HEADER_SIZE then returning (.error .invalidHeader)
    else do
      let payloadLen ← returning (validateHeader (content.take HEADER_SIZE) key)
      let length ← panicking (addWithin 64 HEADER_SIZE payloadLen)
      returning (if content.length ≠ length then .error .invalidHeader else .ok (some ⟨content, payloadLen⟩))

/-- `read_range`: the end of the range is summed with `checked_add`. -/
def OpenedBlob.readRange (blob : OpenedBlob) (offset length : Nat) : Fallible ArtifactBlobCacheError Bytes :=
  if 2 ^ 64 ≤ offset + length then returning (.error .invalidHeader)
  else if blob.payloadLen < offset + length then returning (.error .invalidHeader)
  else do
    let start ← panicking (addWithin 64 HEADER_SIZE offset)
    returning (if blob.content.length < start + length then .error .io else .ok (slice blob.content start length))

section
variable {directory : CacheDirectory} {key : ArtifactBlobKey} {content : Bytes} {payloadLen : Nat}

theorem returning_inj {α : Type} {a b : Except ArtifactBlobCacheError α} (h : returning a = returning b) : a = b := Except.ok.inj h

theorem panic_ne_returning {α : Type} {panic : Panic} {result : Except ArtifactBlobCacheError α} :
    (panicking (.error panic) : Fallible ArtifactBlobCacheError α) ≠ returning result := by
  intro h
  cases h

/-! ## What is opened -/

theorem length_of_header (h : content.take HEADER_SIZE = blobHeader key payloadLen) : HEADER_SIZE ≤ content.length := by
  have hlength := congrArg List.length h
  rw [blobHeader_length, List.length_take] at hlength
  omega

/-- A file with a valid header. -/
theorem openBlobWithin_of_header (hread : directory.read (filename key) = some content)
    (hheader : content.take HEADER_SIZE = blobHeader key payloadLen) (hbound : payloadLen < 2 ^ 64) :
    openBlobWithin directory key =
      if HEADER_SIZE + payloadLen < 2 ^ 64 then
        returning (if content.length ≠ HEADER_SIZE + payloadLen then .error .invalidHeader else .ok (some ⟨content, payloadLen⟩))
      else panicking (.error .overflow) := by
  unfold openBlobWithin
  rw [hread]
  dsimp only
  rw [if_neg (not_lt.2 (length_of_header hheader)), hheader, validateHeader_blobHeader key hbound]
  by_cases hsum : HEADER_SIZE + payloadLen < 2 ^ 64
  · rw [if_pos hsum]
    exact panicking_bind (addWithin_eq_ok_iff.2 ⟨hsum, rfl⟩) _
  · have hoverflow : addWithin 64 HEADER_SIZE payloadLen = .error .overflow := if_neg hsum
    change (panicking (addWithin 64 HEADER_SIZE payloadLen) >>= _) = _
    rw [if_neg hsum, hoverflow]
    rfl

/-- Any other file. -/
theorem openBlobWithin_of_no_header (hread : directory.read (filename key) = some content)
    (hnone : ∀ payloadLen < 2 ^ 64, content.take HEADER_SIZE ≠ blobHeader key payloadLen) :
    openBlobWithin directory key = returning (.error .invalidHeader) := by
  unfold openBlobWithin
  rw [hread]
  dsimp only
  by_cases hshort : content.length < HEADER_SIZE
  · rw [if_pos hshort]
  · rw [if_neg hshort]
    cases hvalid : validateHeader (content.take HEADER_SIZE) key with
    | error e =>
      rw [validateHeader_error hvalid]
      rfl
    | ok payloadLen =>
      obtain ⟨hbound, hheader⟩ := header_of_valid (not_lt.1 hshort) hvalid
      exact absurd hheader (hnone payloadLen hbound)

theorem openBlobWithin_of_no_file (hread : directory.read (filename key) = none) : openBlobWithin directory key = returning (.ok none) := by
  unfold openBlobWithin
  rw [hread]

/-- The file is missing, has a valid header or is refused. -/
theorem file_cases (directory : CacheDirectory) (key : ArtifactBlobKey) : directory.read (filename key) = none ∨
    (∃ content payloadLen, directory.read (filename key) = some content ∧ payloadLen < 2 ^ 64 ∧
      content.take HEADER_SIZE = blobHeader key payloadLen) ∨
    ∃ content, directory.read (filename key) = some content ∧
      ∀ payloadLen < 2 ^ 64, content.take HEADER_SIZE ≠ blobHeader key payloadLen := by
  cases hread : directory.read (filename key) with
  | none => exact .inl rfl
  | some content =>
    by_cases hheader : ∃ payloadLen < 2 ^ 64, content.take HEADER_SIZE = blobHeader key payloadLen
    · obtain ⟨payloadLen, hbound, hheader⟩ := hheader
      exact .inr (.inl ⟨content, payloadLen, rfl, hbound, hheader⟩)
    · exact .inr (.inr ⟨content, rfl, fun payloadLen hbound heq => hheader ⟨payloadLen, hbound, heq⟩⟩)

theorem header_inj {m n : Nat} (hm : m < 2 ^ 64) (hn : n < 2 ^ 64) (h : blobHeader key m = blobHeader key n) : m = n := by
  have hread := validateHeader_blobHeader key hm
  rw [h, validateHeader_blobHeader key hn] at hread
  exact (Except.ok.inj hread).symm

/-! ## Exact arithmetic -/

/-- The file of the key has a valid header, and its length is too near to the top of the range. -/
def LengthOverflows (directory : CacheDirectory) (key : ArtifactBlobKey) : Prop :=
  ∃ payloadLen rest, payloadLen < 2 ^ 64 ∧ 2 ^ 64 ≤ HEADER_SIZE + payloadLen ∧
    directory.read (filename key) = some (blobHeader key payloadLen ++ rest)

/-- Opening does not overflow, and takes a file with a valid header and as many bytes behind it as the header says, and no other;
and no range of the blob overflows. -/
structure HeaderExact (directory : CacheDirectory) (key : ArtifactBlobKey) : Prop where
  returns : ∃ result, openBlobWithin directory key = returning result
  opens : ∀ blob, openBlobWithin directory key = returning (.ok (some blob)) ↔
    directory.read (filename key) = some blob.content ∧ blob.payloadLen < 2 ^ 64 ∧
      blob.content.take HEADER_SIZE = blobHeader key blob.payloadLen ∧ blob.content.length = HEADER_SIZE + blob.payloadLen
  otherwise : ∀ result, openBlobWithin directory key = returning result → (∃ blob, result = .ok (some blob)) ∨
    result = .error .invalidHeader ∨ (result = .ok none ∧ directory.read (filename key) = none)
  ranges : ∀ blob, openBlobWithin directory key = returning (.ok (some blob)) → ∀ offset length,
    ∃ result, blob.readRange offset length = returning result

theorem ranges_of_payloadLen {blob : OpenedBlob} (h : HEADER_SIZE + blob.payloadLen < 2 ^ 64) (offset length : Nat) :
    ∃ result, blob.readRange offset length = returning result := by
  unfold OpenedBlob.readRange
  split_ifs with hend hinside
  · exact ⟨_, rfl⟩
  · exact ⟨_, rfl⟩
  · exact ⟨_, panicking_bind (addWithin_eq_ok_iff.2 ⟨by omega, rfl⟩) _⟩

theorem headerExact_of_no_file (hread : directory.read (filename key) = none) : HeaderExact directory key := by
  have hopen := openBlobWithin_of_no_file hread
  have hnone : ∀ blob, openBlobWithin directory key ≠ returning (.ok (some blob)) := by
    intro blob h
    cases returning_inj (hopen.symm.trans h)
  refine ⟨⟨_, hopen⟩, fun blob => iff_of_false (hnone blob) ?_, fun result h => ?_, fun blob h => absurd h (hnone blob)⟩
  · rintro ⟨h, -⟩
    rw [hread] at h
    cases h
  · exact .inr (.inr ⟨returning_inj (h.symm.trans hopen), hread⟩)

theorem headerExact_of_no_header (hread : directory.read (filename key) = some content)
    (hnone : ∀ payloadLen < 2 ^ 64, content.take HEADER_SIZE ≠ blobHeader key payloadLen) : HeaderExact directory key := by
  have hopen := openBlobWithin_of_no_header hread hnone
  have hrefused : ∀ blob, openBlobWithin directory key ≠ returning (.ok (some blob)) := by
    intro blob h
    cases returning_inj (hopen.symm.trans h)
  refine ⟨⟨_, hopen⟩, fun blob => iff_of_false (hrefused blob) ?_, fun result h => ?_, fun blob h => absurd h (hrefused blob)⟩
  · rintro ⟨h, hbound, hheader, -⟩
    obtain rfl := Option.some.inj (hread.symm.trans h)
    exact hnone _ hbound hheader
  · exact .inr (.inl (returning_inj (h.symm.trans hopen)))

theorem headerExact_of_header (hread : directory.read (filename key) = some content) (hbound : payloadLen < 2 ^ 64)
    (hheader : content.take HEADER_SIZE = blobHeader key payloadLen) (hsum : HEADER_SIZE + payloadLen < 2 ^ 64) :
    HeaderExact directory key := by
  have hopen := openBlobWithin_of_header hread hheader hbound
  rw [if_pos hsum] at hopen
  have hopened : ∀ blob, openBlobWithin directory key = returning (.ok (some blob)) ↔
      content.length = HEADER_SIZE + payloadLen ∧ blob = ⟨content, payloadLen⟩ := by
    intro blob
    rw [hopen]
    constructor
    · intro h
      have h := returning_inj h
      split_ifs at h with hlength
      cases h
      exact ⟨not_not.1 hlength, rfl⟩
    · rintro ⟨hlength, rfl⟩
      rw [if_neg (not_not.2 hlength)]
  refine ⟨⟨_, hopen⟩, fun blob => ?_, fun result h => ?_, fun blob h => ?_⟩
  · rw [hopened]
    constructor
    · rintro ⟨hlength, rfl⟩
      exact ⟨hread, hbound, hheader, hlength⟩
    · rintro ⟨hfile, hbound', hheader', hlength⟩
      obtain rfl := Option.some.inj (hread.symm.trans hfile)
      obtain rfl := header_inj hbound hbound' (hheader.symm.trans hheader')
      exact ⟨hlength, rfl⟩
  · obtain rfl := returning_inj (h.symm.trans hopen)
    by_cases hlength : content.length = HEADER_SIZE + payloadLen
    · exact .inl ⟨_, if_neg (not_not.2 hlength)⟩
    · exact .inr (.inl (if_pos hlength))
  · obtain ⟨-, rfl⟩ := (hopened blob).1 h
    exact ranges_of_payloadLen hsum

/-- Where the sum wraps around, it is less than the size of the header, so that the file is refused for its length. -/
theorem wrapped_length_ne (hbound : payloadLen < 2 ^ 64) (hover : 2 ^ 64 ≤ HEADER_SIZE + payloadLen)
    (hlong : HEADER_SIZE ≤ content.length) : content.length ≠ (HEADER_SIZE + payloadLen) % 2 ^ 64 := by
  have hsize : HEADER_SIZE = 52 := rfl
  omega

end

theorem LengthOverflows.not_exact {directory : CacheDirectory} {key : ArtifactBlobKey} (h : LengthOverflows directory key) :
    ¬ HeaderExact directory key := by
  obtain ⟨payloadLen, rest, hbound, hover, hread⟩ := h
  intro hexact
  obtain ⟨result, hresult⟩ := hexact.returns
  have hheader : (blobHeader key payloadLen ++ rest).take HEADER_SIZE = blobHeader key payloadLen :=
    List.take_left' (blobHeader_length key payloadLen)
  rw [openBlobWithin_of_header hread hheader hbound, if_neg (not_lt.2 hover)] at hresult
  exact panic_ne_returning hresult

/-- **Header arithmetic.** -/
theorem headerExact_iff (directory : CacheDirectory) (key : ArtifactBlobKey) :
    HeaderExact directory key ↔ ¬ LengthOverflows directory key := by
  constructor
  · exact fun hexact h => h.not_exact hexact
  · intro h
    rcases file_cases directory key with hread | ⟨content, payloadLen, hread, hbound, hheader⟩ | ⟨content, hread, hnone⟩
    · exact headerExact_of_no_file hread
    · refine headerExact_of_header hread hbound hheader (not_le.1 fun hover => h ⟨payloadLen, content.drop HEADER_SIZE, hbound, hover, ?_⟩)
      rw [hread, ← hheader, List.take_append_drop]
    · exact headerExact_of_no_header hread hnone

/-- Where the sum does not overflow, the blob is that of `openBlob`. -/
theorem openBlobWithin_payload {directory : CacheDirectory} {key : ArtifactBlobKey}
    {result : Except ArtifactBlobCacheError (Option OpenedBlob)} (h : openBlobWithin directory key = returning result) :
    openBlob directory key = result.map (Option.map fun blob => blob.content.drop HEADER_SIZE) := by
  unfold openBlob
  rcases file_cases directory key with hread | ⟨content, payloadLen, hread, hbound, hheader⟩ | ⟨content, hread, hnone⟩
  · obtain rfl := returning_inj (h.symm.trans (openBlobWithin_of_no_file hread))
    rw [hread]
    rfl
  · rw [openBlobWithin_of_header hread hheader hbound] at h
    rw [hread]
    change (openContent content key).map some = _
    rw [openContent, if_neg (not_lt.2 (length_of_header hheader)), hheader, validateHeader_blobHeader key hbound]
    by_cases hsum : HEADER_SIZE + payloadLen < 2 ^ 64
    · rw [if_pos hsum] at h
      rw [← returning_inj h, ok_bind]
      split_ifs <;> rfl
    · rw [if_neg hsum] at h
      exact absurd h panic_ne_returning
  · obtain rfl := returning_inj (h.symm.trans (openBlobWithin_of_no_header hread hnone))
    rw [hread]
    change (openContent content key).map some = _
    rw [openContent]
    split_ifs with hshort
    · rfl
    · cases hvalid : validateHeader (content.take HEADER_SIZE) key with
      | error e =>
        rw [validateHeader_error hvalid]
        rfl
      | ok payloadLen =>
        obtain ⟨hbound, hheader⟩ := header_of_valid (not_lt.1 hshort) hvalid
        exact absurd hheader (hnone payloadLen hbound)

/-! ## The top of the range -/

def topKey : ArtifactBlobKey := ⟨List.replicate 32 9, rfl⟩

/-- The blob is a valid header with the greatest length. -/
def topDirectory : CacheDirectory :=
  (Directories.empty.createNew (filename topKey)).append 0 (blobHeader topKey (2 ^ 64 - 1))

/-- The length of the greatest payload overflows. -/
theorem top_length_overflows : ¬ HeaderExact topDirectory topKey :=
  LengthOverflows.not_exact ⟨2 ^ 64 - 1, [], by decide, by decide, by decide +kernel⟩

end Kide.BlobFile
