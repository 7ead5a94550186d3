import Kide.Lib.Bytes
import Kide.Lib.Checks
import Kide.Lib.Directory
import Std.Data.String.ToNat

/-!
# Cache files

The files of `artifact_cache.rs`: their names in the directory `v1`, the header of 52 bytes, and what
`open_blob` takes for a complete blob.

A key enters the cache by its digest only, so a key is its digest here.
-/

namespace Kide.BlobFile
open ByteStrings Directories Checks

abbrev Bytes := List UInt8

structure ArtifactBlobKey where
  digest : Bytes
  digest_length : digest.length = 32
deriving DecidableEq

inductive ArtifactBlobCacheError where
  | io
  | invalidHeader
  | truncatedPayload (expected : Nat)
  | stagedLengthMismatch (expected actual : Nat)
  | stagedChecksumMismatch
deriving DecidableEq, Repr

/-! ## Names -/

/-- `{byte:02x}` -/
def hexByte (byte : UInt8) : List Char := [Nat.digitChar (byte.toNat / 16), Nat.digitChar (byte.toNat % 16)]

def filename (key : ArtifactBlobKey) : String := String.ofList (key.digest.flatMap hexByte) ++ ".blob"

/-- The temporary name of a key in one process. -/
def temporaryName (key : ArtifactBlobKey) (pid : Nat) : String := "." ++ filename key ++ ".tmp-" ++ toString pid

theorem digitChar_inj {a b : Nat} (ha : a < 16) (hb : b < 16) (h : Nat.digitChar a = Nat.digitChar b) : a = b := by
  have hall : ∀ a : Fin 16, ∀ b : Fin 16, Nat.digitChar a = Nat.digitChar b → a = b := by decide
  exact congrArg Fin.val (hall ⟨a, ha⟩ ⟨b, hb⟩ h)

theorem hexByte_inj {a b : UInt8} (h : hexByte a = hexByte b) : a = b := by
  have ha := a.toNat_lt
  have hb := b.toNat_lt
  obtain ⟨hhigh, hlow⟩ := List.cons.inj h
  have hquotient := digitChar_inj (by omega) (by omega) hhigh
  have hremainder := digitChar_inj (by omega) (by omega) (List.cons.inj hlow).1
  apply UInt8.toNat_inj.1
  omega

theorem flatMap_hexByte_inj {as bs : Bytes} (h : as.flatMap hexByte = bs.flatMap hexByte) : as = bs := by
  induction as generalizing bs with
  | nil =>
    cases bs with
    | nil => rfl
    | cons b bs => cases h
  | cons a as ih =>
    cases bs with
    | nil => cases h
    | cons b bs =>
      rw [List.flatMap_cons, List.flatMap_cons] at h
      obtain ⟨hfirst, hrest⟩ := List.append_inj h rfl
      rw [hexByte_inj hfirst, ih hrest]

theorem filename_inj {a b : ArtifactBlobKey} (h : filename a = filename b) : a = b := by
  unfold filename at h
  have hdigest := flatMap_hexByte_inj (String.ofList_injective ((String.append_left_inj _).1 h))
  cases a
  cases b
  cases hdigest
  rfl

theorem filename_head (key : ArtifactBlobKey) : (filename key).toList.head? ≠ some '.' := by
  obtain ⟨digest, hlength⟩ := key
  cases digest with
  | nil => cases hlength
  | cons byte rest =>
    unfold filename
    rw [String.toList_append, String.toList_ofList, List.flatMap_cons]
    have hhex : ∀ n : Fin 16, Nat.digitChar n.val ≠ '.' := by decide
    have hlt : byte.toNat / 16 < 16 := by
      have := byte.toNat_lt
      omega
    intro h
    exact hhex ⟨byte.toNat / 16, hlt⟩ (Option.some.inj h)

/-- No blob is ever found under a temporary name. -/
theorem temporaryName_ne_filename (key other : ArtifactBlobKey) (pid : Nat) : temporaryName key pid ≠ filename other := by
  intro h
  apply filename_head other
  rw [← h]
  unfold temporaryName
  rw [String.append_assoc, String.append_assoc, String.toList_append]
  rfl

theorem temporaryName_pid_inj {key : ArtifactBlobKey} {a b : Nat} (h : temporaryName key a = temporaryName key b) : a = b :=
  Nat.repr_injective ((String.append_right_inj _).1 h)

theorem flatMap_hexByte_length (bytes : Bytes) : (bytes.flatMap hexByte).length = 2 * bytes.length := by
  induction bytes with
  | nil => rfl
  | cons byte bytes ih =>
    rw [List.flatMap_cons, List.length_append, ih, List.length_cons, show (hexByte byte).length = 2 from rfl]
    omega

theorem filename_length (key : ArtifactBlobKey) : (filename key).toList.length = 69 := by
  unfold filename
  rw [String.toList_append, String.toList_ofList, List.length_append, flatMap_hexByte_length, key.digest_length]
  rfl

theorem temporaryName_inj {key other : ArtifactBlobKey} {a b : Nat} (h : temporaryName key a = temporaryName other b) :
    key = other ∧ a = b := by
  have hlist := congrArg String.toList h
  unfold temporaryName at hlist
  simp only [String.append_assoc, String.toList_append] at hlist
  have hname := (List.append_inj (List.append_cancel_left hlist) ((filename_length key).trans (filename_length other).symm)).1
  obtain rfl := filename_inj (String.toList_injective hname)
  exact ⟨rfl, temporaryName_pid_inj h⟩

/-! ## Content -/

def MAGIC : Bytes := [75, 73, 68, 69, 66, 76, 66, 49]

def HEADER_SIZE : Nat := 52

def blobHeader (key : ArtifactBlobKey) (payloadLen : Nat) : Bytes :=
  MAGIC ++ toLeBytes 4 1 ++ key.digest ++ toLeBytes 8 payloadLen

def validateHeader (bytes : Bytes) (key : ArtifactBlobKey) : Except ArtifactBlobCacheError Nat :=
  if bytes.length ≠ HEADER_SIZE ∨ slice bytes 0 8 ≠ MAGIC ∨ slice bytes 8 4 ≠ toLeBytes 4 1 then .error .invalidHeader
  else if slice bytes 12 32 ≠ key.digest then .error .invalidHeader
  else .ok (fromLeBytes (slice bytes 44 8))

/-- `open_blob` on the content of its file; returns the payload. -/
def openContent (content : Bytes) (key : ArtifactBlobKey) : Except ArtifactBlobCacheError Bytes :=
  if content.length < HEADER_SIZE then .error .invalidHeader
  else do
    let payloadLen ← validateHeader (content.take HEADER_SIZE) key
    if content.length ≠ HEADER_SIZE + payloadLen then .error .invalidHeader else .ok (content.drop HEADER_SIZE)

abbrev CacheDirectory := Directory String UInt8

def openBlob (directory : CacheDirectory) (key : ArtifactBlobKey) : Except ArtifactBlobCacheError (Option Bytes) :=
  match directory.read (filename key) with
  | none => .ok none
  | some content => (openContent content key).map some

theorem blobHeader_length (key : ArtifactBlobKey) (payloadLen : Nat) : (blobHeader key payloadLen).length = HEADER_SIZE := by
  unfold blobHeader
  rw [List.length_append, List.length_append, List.length_append, toLeBytes_length, toLeBytes_length, key.digest_length]
  rfl

theorem validateHeader_blobHeader (key : ArtifactBlobKey) {payloadLen : Nat} (h : payloadLen < 2 ^ 64) :
    validateHeader (blobHeader key payloadLen) key = .ok payloadLen := by
  have hmagic : slice (blobHeader key payloadLen) 0 8 = MAGIC := by
    unfold blobHeader
    rw [List.append_assoc, List.append_assoc]
    exact @slice_middle [] _ _ _ _ rfl rfl
  have hversion : slice (blobHeader key payloadLen) 8 4 = toLeBytes 4 1 := by
    unfold blobHeader
    rw [List.append_assoc]
    exact slice_middle rfl rfl
  have hdigest : slice (blobHeader key payloadLen) 12 32 = key.digest := slice_middle rfl key.digest_length
  have hlength : slice (blobHeader key payloadLen) 44 8 = toLeBytes 8 payloadLen := by
    have hbefore : (MAGIC ++ toLeBytes 4 1 ++ key.digest).length = 44 := by
      rw [List.length_append, key.digest_length]
      rfl
    have hslice := @slice_middle _ _ [] _ _ hbefore (toLeBytes_length 8 payloadLen)
    rwa [List.append_nil] at hslice
  unfold validateHeader
  rw [blobHeader_length, hmagic, hversion, hdigest, hlength, fromLeBytes_toLeBytes (by omega)]
  simp

theorem validateHeader_eq_ok {content : Bytes} {key : ArtifactBlobKey} {payloadLen : Nat}
    (h : validateHeader (content.take HEADER_SIZE) key = .ok payloadLen) :
    slice content 0 8 = MAGIC ∧ slice content 8 4 = toLeBytes 4 1 ∧ slice content 12 32 = key.digest ∧
      fromLeBytes (slice content 44 8) = payloadLen := by
  unfold validateHeader at h
  rw [slice_take (by decide), slice_take (by decide), slice_take (by decide), slice_take (by decide)] at h
  split at h
  · cases h
  next hfixed =>
  split at h
  · cases h
  next hdigest =>
  push Not at hfixed hdigest
  exact ⟨hfixed.2.1, hfixed.2.2, hdigest, Except.ok.inj h⟩

/-- A header that is valid for the key is the one that is written for it with some length. -/
theorem header_of_valid {content : Bytes} {key : ArtifactBlobKey} {payloadLen : Nat} (hlong : HEADER_SIZE ≤ content.length)
    (h : validateHeader (content.take HEADER_SIZE) key = .ok payloadLen) :
    payloadLen < 2 ^ 64 ∧ content.take HEADER_SIZE = blobHeader key payloadLen := by
  obtain ⟨hmagic, hversion, hdigest, rfl⟩ := validateHeader_eq_ok h
  have hlong : 52 ≤ content.length := hlong
  have hwidth : (slice content 44 8).length = 8 := slice_length (by omega)
  have hnumber := toLeBytes_fromLeBytes (slice content 44 8)
  have hbound := fromLeBytes_lt (slice content 44 8)
  rw [hwidth] at hnumber hbound
  refine ⟨by omega, ?_⟩
  unfold blobHeader
  rw [hnumber, ← hmagic, ← hversion, ← hdigest, show HEADER_SIZE = 0 + 8 + 4 + 32 + 8 from rfl, take_add_slice, take_add_slice,
    take_add_slice, take_add_slice]
  rfl

theorem validateHeader_error {bytes : Bytes} {key : ArtifactBlobKey} {e : ArtifactBlobCacheError}
    (h : validateHeader bytes key = .error e) : e = .invalidHeader := by
  unfold validateHeader at h
  split at h
  · cases h
    rfl
  split at h
  · cases h
    rfl
  · cases h

/-- What `open_blob` takes is a header that names the key and the length, and a payload of that length. -/
theorem openContent_eq_ok_iff {content payload : Bytes} {key : ArtifactBlobKey} :
    openContent content key = .ok payload ↔
      payload.length < 2 ^ 64 ∧ content = blobHeader key payload.length ++ payload := by
  constructor
  · intro h
    unfold openContent at h
    by_cases hshort : content.length < HEADER_SIZE
    · rw [if_pos hshort] at h
      cases h
    rw [if_neg hshort] at h
    obtain ⟨payloadLen, hvalid, h⟩ := bind_eq_ok_iff.1 h
    split at h
    · cases h
    next hlength =>
    cases h
    have hlength : content.length = 52 + payloadLen := not_not.1 hlength
    obtain ⟨hbound, htake⟩ := header_of_valid (Nat.le_of_not_lt hshort) hvalid
    have hpayload : (content.drop HEADER_SIZE).length = payloadLen := by
      rw [List.length_drop]
      exact Nat.sub_eq_of_eq_add (hlength.trans (Nat.add_comm ..))
    rw [hpayload]
    refine ⟨hbound, ?_⟩
    rw [← htake, List.take_append_drop]
  · rintro ⟨hbound, rfl⟩
    unfold openContent
    have hheader := blobHeader_length key payload.length
    have htake : (blobHeader key payload.length ++ payload).take HEADER_SIZE = blobHeader key payload.length := by
      rw [← hheader, List.take_left]
    have hdrop : (blobHeader key payload.length ++ payload).drop HEADER_SIZE = payload := by
      rw [← hheader, List.drop_left]
    rw [if_neg (by rw [List.length_append, hheader]; omega), htake, validateHeader_blobHeader key hbound, hdrop]
    simp [hheader, bind, Except.bind]

end Kide.BlobFile
