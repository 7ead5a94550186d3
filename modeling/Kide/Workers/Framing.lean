import Kide.Lib.Varint
import Kide.Lib.Checks
import Kide.Lib.Codec
import Kide.Proto.Artifact

/-!
# Frames on the worker pipe

`worker_framing` of Core and `ProtobufFraming` of the Kotlin worker: an envelope behind the varint of its length.
Three loops read that varint; `scan` is what each of them computes (`decodeLength_eq`, `readLength_eq`,
`ProtobufFraming.readLength_eq`). They part where the length is used: Core reserves the buffer first and panics on a
length no buffer can have, the worker takes the low half of a length whose sign bit is set and refuses one past an
`Int`, and `decode` does not ask whether the varint ended.

`framing_agrees_iff`: the envelopes and the strings for which both sides agree.
-/

namespace Kide

open Varints

/-- The protobuf library, of which both sides use one format. The empty string is the message without fields. -/
structure Protobuf (Envelope : Type) where
  decode : Bytes → Option Envelope
  encoder : Encoder decode
  empty : Envelope
  decode_empty : decode [] = some empty

/-- How a call ends. -/
inductive Outcome (ε α : Type) where
  | returned (value : α)
  | failed (error : ε)
  | panicked
deriving DecidableEq, Repr

variable {Envelope : Type} (protobuf : Protobuf Envelope)

/-! ## Core -/

namespace WorkerFraming

inductive FrameError where
  | io
  | invalidLength
  | lengthMismatch
  | decode
deriving DecidableEq, Repr

/-- The varint that `encode` pushes. -/
def lengthBytes (length : Nat) : Bytes :=
  if 0x80 ≤ length then (UInt8.ofNat length ||| 0x80) :: lengthBytes (length >>> 7)
  else [UInt8.ofNat length]
termination_by length
decreasing_by
  rw [Nat.shiftRight_eq_div_pow]
  omega

def encode (envelope : Envelope) : Bytes :=
  let payload := protobuf.encoder.encode envelope
  lengthBytes payload.length ++ payload

/-- The loop of `decode`: the length and the offset behind it, also where the frame ends first. -/
def decodeLength (length : UInt64) (shift offset : Nat) : Bytes → Except FrameError (UInt64 × Nat)
  | [] => .ok (length, offset)
  | byte :: rest =>
    let length := length ||| group byte <<< UInt64.ofNat shift
    if byte &&& 0x80 = 0 then .ok (length, offset + 1)
    else if 64 ≤ shift + 7 then .error .invalidLength
    else decodeLength length (shift + 7) (offset + 1) rest

def decodePayload (payload : Bytes) : Except FrameError Envelope :=
  match protobuf.decode payload with
  | some envelope => .ok envelope
  | none => .error .decode

def decode (frame : Bytes) : Except FrameError Envelope := do
  let (length, offset) ← decodeLength 0 0 0 frame
  let payload := frame.drop offset
  if length.toNat ≠ payload.length then .error .lengthMismatch
  else decodePayload protobuf payload

/-- The bytes of the varint, read one by one. -/
def readLength (lengthBytes : Bytes) (input : Bytes) : Except FrameError (Bytes × Bytes) :=
  if ∃ byte ∈ lengthBytes.getLast?, byte &&& 0x80 ≠ 0 then
    if lengthBytes.length = 10 then .error .invalidLength
    else
      match input with
      | [] => .error .io
      | byte :: input => readLength (lengthBytes ++ [byte]) input
  else .ok (lengthBytes, input)

def lengthOf (lengthBytes : Bytes) : UInt64 :=
  lengthBytes.zipIdx.foldl (fun length entry => length ||| group entry.1 <<< UInt64.ofNat (entry.2 * 7)) 0

/-- The largest capacity of a `Vec<u8>`, `isize::MAX`. -/
def MAX_CAPACITY : Nat := 2 ^ 63 - 1

/-- `read_frame` at the head of a stream. Memory is taken to suffice for any buffer that a `Vec` can have. -/
def readFrame (input : Bytes) : Outcome FrameError (Option (Envelope × Bytes)) :=
  match input with
  | [] => .returned none
  | first :: input =>
    match readLength [first] input with
    | .error error => .failed error
    | .ok (lengthBytes, input) =>
      let length := (lengthOf lengthBytes).toNat
      if MAX_CAPACITY < length then .panicked
      else if input.length < length then .failed .io
      else
        match decodePayload protobuf (input.take length) with
        | .ok envelope => .returned (some (envelope, input.drop length))
        | .error error => .failed error

end WorkerFraming

/-! ## The Kotlin worker -/

namespace ProtobufFraming

inductive Exception where
  | illegalArgument (message : String)
  | eof (message : String)
  | invalidProtocolBuffer
deriving DecidableEq, Repr

def INT_MAX : Nat := 2 ^ 31 - 1

/-- The loop of `read`. A `Long` is its 64 bits. -/
def readLength (current : UInt8) (length : UInt64) (shift : Nat) (input : Bytes) : Except Exception (UInt64 × Bytes) :=
  if current &&& 0x80 = 0 then .ok (length, input)
  else if ¬ shift < 64 then .error (.illegalArgument "invalid protobuf frame length")
  else
    match input with
    | [] => .error (.eof "truncated protobuf frame length")
    | byte :: input => readLength byte (length ||| group byte <<< UInt64.ofNat shift) (shift + 7) input

/-- `readNBytes(count)`, which refuses a negative count. -/
def readNBytes (count : Int32) (input : Bytes) : Except Exception Bytes :=
  if count < 0 then .error (.illegalArgument "len < 0") else .ok (input.take count.toInt.toNat)

def read (input : Bytes) : Outcome Exception (Option (Envelope × Bytes)) :=
  match input with
  | [] => .returned none
  | first :: input =>
    match readLength first (group first) 7 input with
    | .error error => .failed error
    | .ok (length, input) =>
      if ¬ length.toInt64.toInt ≤ INT_MAX then .failed (.illegalArgument "protobuf frame exceeds JVM array limit")
      else
        let count := length.toUInt32.toInt32
        match readNBytes count input with
        | .error error => .failed error
        | .ok payload =>
          if (payload.length : Int) ≠ count.toInt then .failed (.eof "truncated protobuf frame payload")
          else
            match protobuf.decode payload with
            | some envelope => .returned (some (envelope, input.drop payload.length))
            | none => .failed .invalidProtocolBuffer

/-- The varint that `write` writes. -/
def lengthBytes (length : Nat) : Bytes :=
  if 0x80 ≤ length then UInt8.ofNat (length &&& 0x7f ||| 0x80) :: lengthBytes (length >>> 7)
  else [UInt8.ofNat length]
termination_by length
decreasing_by
  rw [Nat.shiftRight_eq_div_pow]
  omega

/-- `write`: `toByteArray` throws where no array is large enough. -/
def write (envelope : Envelope) : Option Bytes :=
  let payload := protobuf.encoder.encode envelope
  if payload.length ≤ INT_MAX then some (lengthBytes payload.length ++ payload) else none

end ProtobufFraming

/-! ## Both sides -/

inductive Side where
  | core
  | worker

namespace Side

def write : Side → Envelope → Option Bytes
  | .core => fun envelope => some (WorkerFraming.encode protobuf envelope)
  | .worker => ProtobufFraming.write protobuf

/-- The reader takes the envelopes off the stream one after the other and then finds its clean end. -/
def ReadsAll (reader : Side) : Bytes → List Envelope → Prop
  | input, [] =>
    match reader with
    | .core => WorkerFraming.readFrame protobuf input = .returned none
    | .worker => ProtobufFraming.read protobuf input = .returned none
  | input, envelope :: envelopes => ∃ rest, ReadsAll reader rest envelopes ∧
    match reader with
    | .core => WorkerFraming.readFrame protobuf input = .returned (some (envelope, rest))
    | .worker => ProtobufFraming.read protobuf input = .returned (some (envelope, rest))

end Side

/-- The frames of a stream, each from one of the sides. -/
def writeAll (frames : List (Side × Envelope)) : Option Bytes :=
  (frames.mapM fun frame : Side × Envelope => frame.1.write protobuf frame.2).map List.flatten

/-- Whoever writes the envelopes, both readers read them. -/
def SharedFraming (envelopes : List Envelope) : Prop :=
  ∀ frames : List (Side × Envelope), frames.map Prod.snd = envelopes → ∀ reader : Side,
    ∃ bytes, writeAll protobuf frames = some bytes ∧ reader.ReadsAll protobuf bytes envelopes

/-- The same frame, the same clean end, or an error on both sides. -/
def Alike {ε δ α : Type} : Outcome ε α → Outcome δ α → Prop
  | .returned value, .returned other => value = other
  | .failed _, .failed _ => True
  | _, _ => False

/-- No byte follows the payload that the prefix announces. -/
def AtMostOneFrame (input : Bytes) : Prop :=
  ∀ length rest, scan 0 0 input = .complete length rest → rest.length ≤ length.toNat

/-- The three readers agree on the string. -/
def ReadAlike (input : Bytes) : Prop :=
  Alike (WorkerFraming.readFrame protobuf input) (ProtobufFraming.read protobuf input) ∧
    (AtMostOneFrame input → ∀ envelope, WorkerFraming.decode protobuf input = .ok envelope ↔
      WorkerFraming.readFrame protobuf input = .returned (some (envelope, [])))

/-! ## The loops -/

section Loops

/-- What a complete prefix leaves is the end of the string. -/
theorem scan_complete {length value : UInt64} {shift : Nat} {input rest : Bytes}
    (h : scan length shift input = .complete value rest) : ∃ before, input = before ++ rest := by
  induction input generalizing length shift with
  | nil => cases h
  | cons byte input ih =>
    rw [scan] at h
    split at h
    · cases h
      exact ⟨[byte], rfl⟩
    · split at h
      · cases h
      · obtain ⟨before, rfl⟩ := ih h
        exact ⟨byte :: before, rfl⟩

theorem WorkerFraming.decodeLength_eq (input : Bytes) (length : UInt64) (shift offset : Nat) :
    decodeLength length shift offset input =
      match scan length shift input with
      | .cut value => .ok (value, offset + input.length)
      | .long => .error .invalidLength
      | .complete value rest => .ok (value, offset + (input.length - rest.length)) := by
  induction input generalizing length shift offset with
  | nil => rfl
  | cons byte input ih =>
    rw [decodeLength, scan]
    split
    · simp
    · split
      · rfl
      · rw [ih]
        cases hscan : scan (length ||| group byte <<< UInt64.ofNat shift) (shift + 7) input with
        | cut value => simp only [List.length_cons, Nat.add_assoc, Nat.add_comm 1]
        | long => rfl
        | complete value rest =>
          obtain ⟨before, rfl⟩ := scan_complete hscan
          simp only [List.length_append, List.length_cons, Except.ok.injEq, Prod.mk.injEq, true_and]
          omega

theorem ProtobufFraming.readLength_eq (input : Bytes) (current : UInt8) (length : UInt64) (shift : Nat) :
    readLength current (length ||| group current <<< UInt64.ofNat shift) (shift + 7) input =
      match scan length shift (current :: input) with
      | .cut _ => .error (.eof "truncated protobuf frame length")
      | .long => .error (.illegalArgument "invalid protobuf frame length")
      | .complete value rest => .ok (value, rest) := by
  induction input generalizing current length shift with
  | nil =>
    rw [readLength, scan]
    split
    · rfl
    · simp only [not_lt]
      split <;> rfl
  | cons byte input ih =>
    rw [readLength, scan]
    split
    · rfl
    · simp only [not_lt]
      split
      · rfl
      · exact ih _ _ _

theorem WorkerFraming.lengthOf_concat (before : Bytes) (byte : UInt8) :
    lengthOf (before ++ [byte]) = lengthOf before ||| group byte <<< UInt64.ofNat (before.length * 7) := by
  unfold lengthOf
  rw [List.zipIdx_append, List.foldl_append]
  simp

theorem WorkerFraming.readLength_eq (input before : Bytes) (byte : UInt8) (h : before.length ≤ 9) :
    match scan (lengthOf before) (before.length * 7) (byte :: input) with
    | .cut _ => readLength (before ++ [byte]) input = .error .io
    | .long => readLength (before ++ [byte]) input = .error .invalidLength
    | .complete value rest => ∃ lengthBytes, readLength (before ++ [byte]) input = .ok (lengthBytes, rest) ∧
        lengthOf lengthBytes = value := by
  have hlast : (∃ last ∈ (before ++ [byte]).getLast?, last &&& 0x80 ≠ 0) ↔ byte &&& 0x80 ≠ 0 := by simp
  have htenth : (before ++ [byte]).length = 10 ↔ 64 ≤ before.length * 7 + 7 := by
    rw [List.length_append, List.length_singleton]
    omega
  rw [scan, ← lengthOf_concat]
  by_cases hflag : byte &&& 0x80 = 0
  · have hdone : readLength (before ++ [byte]) input = .ok (before ++ [byte], input) := by
      rw [readLength.eq_def, if_neg (fun hmore => hlast.1 hmore hflag)]
    rw [if_pos hflag]
    exact ⟨_, hdone, rfl⟩
  rw [if_neg hflag]
  by_cases hlong : 64 ≤ before.length * 7 + 7
  · rw [if_pos hlong]
    rw [readLength.eq_def, if_pos (hlast.2 hflag), if_pos (htenth.2 hlong)]
  rw [if_neg hlong]
  cases input with
  | nil =>
    rw [scan]
    rw [readLength.eq_def, if_pos (hlast.2 hflag), if_neg (mt htenth.1 hlong)]
  | cons next input =>
    have hmore : readLength (before ++ [byte]) (next :: input) = readLength (before ++ [byte] ++ [next]) input := by
      rw [readLength.eq_def, if_pos (hlast.2 hflag), if_neg (mt htenth.1 hlong)]
    have hlength : (before ++ [byte]).length * 7 = before.length * 7 + 7 := by
      rw [List.length_append, List.length_singleton]
      omega
    have hrest := readLength_eq input (before ++ [byte]) next (by rw [List.length_append, List.length_singleton]; omega)
    rw [hlength] at hrest
    rw [hmore]
    exact hrest

end Loops

/-! ## The readers -/

section Readers
variable {input rest : Bytes} {length : UInt64}

namespace WorkerFraming

/-- What `read_frame` makes of a prefix and what follows it. -/
theorem readFrame_eq (hinput : input ≠ []) :
    readFrame protobuf input =
      match scan 0 0 input with
      | .cut _ => .failed .io
      | .long => .failed .invalidLength
      | .complete length rest =>
        if MAX_CAPACITY < length.toNat then .panicked
        else if rest.length < length.toNat then .failed .io
        else
          match protobuf.decode (rest.take length.toNat) with
          | some envelope => .returned (some (envelope, rest.drop length.toNat))
          | none => .failed .decode := by
  cases input with
  | nil => exact absurd rfl hinput
  | cons first input =>
    have hread := readLength_eq input [] first (Nat.zero_le 9)
    have hzero : scan (lengthOf []) (([] : Bytes).length * 7) (first :: input) = scan 0 0 (first :: input) := rfl
    rw [hzero] at hread
    unfold readFrame
    cases hscan : scan 0 0 (first :: input) with
    | cut value =>
      rw [hscan] at hread
      simp only [List.nil_append] at hread
      simp only [hread]
    | long =>
      rw [hscan] at hread
      simp only [List.nil_append] at hread
      simp only [hread]
    | complete value rest =>
      rw [hscan] at hread
      obtain ⟨lengthBytes, hok, hvalue⟩ := hread
      rw [List.nil_append] at hok
      simp only [hok, hvalue, decodePayload]
      split
      · rfl
      · split
        · rfl
        · cases protobuf.decode (rest.take value.toNat) <;> rfl

theorem decode_eq :
    decode protobuf input =
      match scan 0 0 input with
      | .cut value => if value.toNat ≠ 0 then .error .lengthMismatch else .ok protobuf.empty
      | .long => .error .invalidLength
      | .complete length rest => if length.toNat ≠ rest.length then .error .lengthMismatch else decodePayload protobuf rest := by
  unfold decode
  rw [decodeLength_eq]
  cases hscan : scan 0 0 input with
  | cut value =>
    have hdrop : input.drop (0 + input.length) = [] := by simp
    change (if value.toNat ≠ (input.drop (0 + input.length)).length then Except.error FrameError.lengthMismatch
      else decodePayload protobuf (input.drop (0 + input.length))) = _
    rw [hdrop, decodePayload, protobuf.decode_empty]
    rfl
  | long => rfl
  | complete value rest =>
    obtain ⟨before, rfl⟩ := scan_complete hscan
    have hdrop : (before ++ rest).drop (0 + ((before ++ rest).length - rest.length)) = rest := by simp
    change (if value.toNat ≠ ((before ++ rest).drop (0 + ((before ++ rest).length - rest.length))).length then
      Except.error FrameError.lengthMismatch
      else decodePayload protobuf ((before ++ rest).drop (0 + ((before ++ rest).length - rest.length)))) = _
    rw [hdrop]

end WorkerFraming

namespace ProtobufFraming

theorem toInt_toInt64 {value : UInt64} (h : value.toNat < 2 ^ 63) : value.toInt64.toInt = value.toNat :=
  BitVec.toInt_eq_toNat_of_lt (show 2 * value.toNat < 2 ^ 64 by omega)

theorem toInt_count {value : UInt64} (h : value.toNat ≤ INT_MAX) : value.toUInt32.toInt32.toInt = value.toNat := by
  have hmax : INT_MAX = 2 ^ 31 - 1 := rfl
  have hlow : value.toUInt32.toNat = value.toNat := by
    rw [UInt64.toNat_toUInt32]
    omega
  have hsigned : value.toUInt32.toInt32.toInt = value.toUInt32.toNat :=
    BitVec.toInt_eq_toNat_of_lt (show 2 * value.toUInt32.toNat < 2 ^ 32 by omega)
  rw [hsigned, hlow]

theorem readNBytes_count {value : UInt64} (h : value.toNat ≤ INT_MAX) (input : Bytes) :
    readNBytes value.toUInt32.toInt32 input = .ok (input.take value.toNat) := by
  have hcount := toInt_count h
  have hnonneg : ¬ value.toUInt32.toInt32 < 0 := by
    rw [Int32.lt_iff_toInt_lt, hcount]
    have hzero : (0 : Int32).toInt = 0 := rfl
    omega
  rw [readNBytes, if_neg hnonneg, hcount]
  rfl

theorem read_eq (hinput : input ≠ []) (hsigned : ∀ length rest, scan 0 0 input = .complete length rest → length.toNat < 2 ^ 63) :
    read protobuf input =
      match scan 0 0 input with
      | .cut _ => .failed (.eof "truncated protobuf frame length")
      | .long => .failed (.illegalArgument "invalid protobuf frame length")
      | .complete length rest =>
        if INT_MAX < length.toNat then .failed (.illegalArgument "protobuf frame exceeds JVM array limit")
        else if rest.length < length.toNat then .failed (.eof "truncated protobuf frame payload")
        else
          match protobuf.decode (rest.take length.toNat) with
          | some envelope => .returned (some (envelope, rest.drop length.toNat))
          | none => .failed .invalidProtocolBuffer := by
  cases input with
  | nil => exact absurd rfl hinput
  | cons first input =>
    have hread := readLength_eq input first 0 0
    have hfirst : (0 : UInt64) ||| group first <<< UInt64.ofNat 0 = group first := by simp
    rw [hfirst] at hread
    unfold read
    simp only [Nat.zero_add] at hread
    cases hscan : scan 0 0 (first :: input) with
    | cut value =>
      rw [hscan] at hread
      simp only [hread]
    | long =>
      rw [hscan] at hread
      simp only [hread]
    | complete value rest =>
      rw [hscan] at hread
      have hvalue := hsigned value rest hscan
      have hlong := toInt_toInt64 hvalue
      simp only [hread, hlong]
      by_cases hmax : INT_MAX < value.toNat
      · rw [if_pos (by omega), if_pos hmax]
      have hcount : value.toNat ≤ INT_MAX := by omega
      rw [if_neg (by omega), if_neg hmax]
      simp only [readNBytes_count hcount, toInt_count hcount, List.length_take]
      by_cases hshort : rest.length < value.toNat
      · rw [if_pos (by omega), if_pos hshort]
      · have hfull : min value.toNat rest.length = value.toNat := by omega
        rw [if_neg (by omega), if_neg hshort, hfull]

end ProtobufFraming

end Readers

/-! ## Frames read back -/

/-- The flag of a byte that is not the last. -/
theorem or_flag {low : Nat} (h : low < 256) : low ||| 0x80 = 128 + low % 128 := by
  have hclear : ∀ bits < 128, bits ||| 0x80 = 128 + bits := by
    intro bits hbits
    rw [Nat.or_comm]
    exact (Nat.two_pow_add_eq_or_of_lt (i := 7) hbits 1).symm
  by_cases hlow : low < 128
  · rw [hclear low hlow, Nat.mod_eq_of_lt hlow]
  · obtain ⟨bits, rfl⟩ : ∃ bits, low = 128 + bits := ⟨low - 128, by omega⟩
    rw [← hclear bits (by omega), Nat.or_assoc, Nat.or_self, hclear bits (by omega)]
    omega

namespace WorkerFraming

theorem lengthBytes_eq (length : Nat) : lengthBytes length = Wire.varint length := by
  induction length using Nat.strongRecOn with
  | ind length ih =>
    rw [lengthBytes]
    split
    · next h =>
      have hbyte : UInt8.ofNat length ||| 0x80 = UInt8.ofNat (128 + length % 128) := by
        rw [← UInt8.toNat_inj, UInt8.toNat_or, UInt8.toNat_ofNat', UInt8.toNat_ofNat']
        change length % 256 ||| 0x80 = _
        rw [or_flag (by omega)]
        omega
      have hshift : length >>> 7 = length / 128 := Nat.shiftRight_eq_div_pow length 7
      rw [Wire.varint_of_le h, hbyte, hshift, ih (length / 128) (by omega)]
    · next h => rw [Wire.varint_of_lt (by omega)]

end WorkerFraming

namespace ProtobufFraming

theorem lengthBytes_eq (length : Nat) : lengthBytes length = Wire.varint length := by
  induction length using Nat.strongRecOn with
  | ind length ih =>
    rw [lengthBytes]
    split
    · next h =>
      have hbyte : length &&& 0x7f ||| 0x80 = 128 + length % 128 := by
        have hmask : length &&& 0x7f = length % 128 := Nat.and_two_pow_sub_one_eq_mod length 7
        rw [hmask, or_flag (by omega)]
        omega
      have hshift : length >>> 7 = length / 128 := Nat.shiftRight_eq_div_pow length 7
      rw [Wire.varint_of_le h, hbyte, hshift, ih (length / 128) (by omega)]
    · next h => rw [Wire.varint_of_lt (by omega)]

end ProtobufFraming

/-- The frame of an envelope, whoever writes it. -/
def frameOf (envelope : Envelope) : Bytes :=
  Wire.varint (protobuf.encoder.encode envelope).length ++ protobuf.encoder.encode envelope

theorem Side.write_eq {side : Side} {envelope : Envelope} (h : (protobuf.encoder.encode envelope).length ≤ ProtobufFraming.INT_MAX) :
    side.write protobuf envelope = some (frameOf protobuf envelope) := by
  cases side with
  | core =>
    change some (WorkerFraming.lengthBytes _ ++ _) = _
    rw [WorkerFraming.lengthBytes_eq, frameOf]
  | worker =>
    change (if _ then some (ProtobufFraming.lengthBytes _ ++ _) else none) = _
    rw [if_pos h, ProtobufFraming.lengthBytes_eq, frameOf]

theorem writeAll_eq {frames : List (Side × Envelope)}
    (h : ∀ frame ∈ frames, (protobuf.encoder.encode frame.2).length ≤ ProtobufFraming.INT_MAX) :
    writeAll protobuf frames = some ((frames.map Prod.snd).flatMap (frameOf protobuf)) := by
  have hframes : (frames.mapM fun frame : Side × Envelope => frame.1.write protobuf frame.2) =
      some (frames.map fun frame => frameOf protobuf frame.2) := by
    induction frames with
    | nil => rfl
    | cons frame frames ih =>
      obtain ⟨hfirst, hrest⟩ := List.forall_mem_cons.1 h
      rw [List.mapM_cons, Side.write_eq protobuf hfirst, ih hrest]
      rfl
  rw [writeAll, hframes, Option.map_some, List.flatMap_map]
  rfl

/-- A frame at the head of a stream. -/
theorem scan_frameOf {envelope : Envelope} (h : (protobuf.encoder.encode envelope).length ≤ ProtobufFraming.INT_MAX) (rest : Bytes) :
    scan 0 0 (frameOf protobuf envelope ++ rest) =
      .complete (UInt64.ofNat (protobuf.encoder.encode envelope).length) (protobuf.encoder.encode envelope ++ rest) := by
  have hmax : ProtobufFraming.INT_MAX = 2 ^ 31 - 1 := rfl
  rw [frameOf, List.append_assoc, scan_varint (by decide) (by omega)]
  simp

theorem frameOf_ne_nil (envelope : Envelope) (rest : Bytes) : frameOf protobuf envelope ++ rest ≠ [] := by
  intro hnil
  have hlength := congrArg List.length hnil
  have hpos := Wire.varint_length_pos (protobuf.encoder.encode envelope).length
  rw [frameOf, List.length_append, List.length_append] at hlength
  simp only [List.length_nil] at hlength
  omega

section
variable {envelope : Envelope} (h : (protobuf.encoder.encode envelope).length ≤ ProtobufFraming.INT_MAX) (rest : Bytes)
include h

theorem length_toNat : (UInt64.ofNat (protobuf.encoder.encode envelope).length).toNat = (protobuf.encoder.encode envelope).length := by
  have hmax : ProtobufFraming.INT_MAX = 2 ^ 31 - 1 := rfl
  rw [UInt64.toNat_ofNat']
  omega

theorem readFrame_frameOf :
    WorkerFraming.readFrame protobuf (frameOf protobuf envelope ++ rest) = .returned (some (envelope, rest)) := by
  have hmax : ProtobufFraming.INT_MAX = 2 ^ 31 - 1 := rfl
  have hcapacity : WorkerFraming.MAX_CAPACITY = 2 ^ 63 - 1 := rfl
  rw [WorkerFraming.readFrame_eq protobuf (frameOf_ne_nil protobuf envelope rest), scan_frameOf protobuf h]
  simp only [length_toNat protobuf h, List.length_append]
  rw [if_neg (by omega), if_neg (by omega), List.take_left, List.drop_left, protobuf.encoder.decode_encode]

theorem read_frameOf :
    ProtobufFraming.read protobuf (frameOf protobuf envelope ++ rest) = .returned (some (envelope, rest)) := by
  have hmax : ProtobufFraming.INT_MAX = 2 ^ 31 - 1 := rfl
  have hsigned : ∀ length others, scan 0 0 (frameOf protobuf envelope ++ rest) = .complete length others → length.toNat < 2 ^ 63 := by
    intro length others hscan
    rw [scan_frameOf protobuf h] at hscan
    cases hscan
    rw [length_toNat protobuf h]
    omega
  rw [ProtobufFraming.read_eq protobuf (frameOf_ne_nil protobuf envelope rest) hsigned, scan_frameOf protobuf h]
  simp only [length_toNat protobuf h, List.length_append]
  rw [if_neg (by omega), if_neg (by omega), List.take_left, List.drop_left, protobuf.encoder.decode_encode]

end

theorem readsAll_frames (reader : Side) {envelopes : List Envelope}
    (h : ∀ envelope ∈ envelopes, (protobuf.encoder.encode envelope).length ≤ ProtobufFraming.INT_MAX) :
    reader.ReadsAll protobuf (envelopes.flatMap (frameOf protobuf)) envelopes := by
  induction envelopes with
  | nil => cases reader <;> rfl
  | cons envelope envelopes ih =>
    obtain ⟨hfirst, hrest⟩ := List.forall_mem_cons.1 h
    rw [List.flatMap_cons]
    refine ⟨envelopes.flatMap (frameOf protobuf), ih hrest, ?_⟩
    cases reader with
    | core => exact readFrame_frameOf protobuf hfirst _
    | worker => exact read_frameOf protobuf hfirst _

theorem writeAll_worker {envelopes : List Envelope} {bytes : Bytes}
    (h : writeAll protobuf (envelopes.map fun envelope => (Side.worker, envelope)) = some bytes) :
    ∀ envelope ∈ envelopes, (protobuf.encoder.encode envelope).length ≤ ProtobufFraming.INT_MAX := by
  obtain ⟨frames, hframes, -⟩ := Option.map_eq_some_iff.1 h
  intro envelope henvelope
  obtain ⟨frame, -, hframe⟩ := Checks.forall₂_exists_mem (Checks.mapM_eq_some_iff.1 hframes) (List.mem_map_of_mem henvelope)
  by_contra hlong
  change (if _ then some (ProtobufFraming.lengthBytes _ ++ _) else none) = some frame at hframe
  rw [if_neg hlong] at hframe
  cases hframe

/-- The envelopes that both sides frame alike. -/
theorem sharedFraming_iff (envelopes : List Envelope) :
    SharedFraming protobuf envelopes ↔
      ∀ envelope ∈ envelopes, (protobuf.encoder.encode envelope).length ≤ ProtobufFraming.INT_MAX := by
  constructor
  · intro h
    have hsnd : (envelopes.map fun envelope => (Side.worker, envelope)).map Prod.snd = envelopes := by
      rw [List.map_map]
      exact List.map_id _
    obtain ⟨bytes, hbytes, -⟩ := h _ hsnd .worker
    exact writeAll_worker protobuf hbytes
  · rintro h frames rfl reader
    refine ⟨_, writeAll_eq protobuf fun frame hframe => h _ (List.mem_map_of_mem hframe), readsAll_frames protobuf reader h⟩

/-! ## Strings -/

/-- The limits of the readers do not tell on the string: a prefix that ends early has a length other than zero, and a
complete one gives a length that a buffer of Core can have and, if it is past an `Int`, no payload. -/
def SameLimits (input : Bytes) : Prop :=
  match scan 0 0 input with
  | .cut length => length.toNat ≠ 0
  | .long => True
  | .complete length rest => length.toNat ≤ WorkerFraming.MAX_CAPACITY ∧
      (length.toNat ≤ ProtobufFraming.INT_MAX ∨ rest.length < length.toNat ∨ protobuf.decode (rest.take length.toNat) = none)

theorem readAlike_iff (input : Bytes) : ReadAlike protobuf input ↔ SameLimits protobuf input := by
  have hmax : ProtobufFraming.INT_MAX = 2 ^ 31 - 1 := rfl
  have hcapacity : WorkerFraming.MAX_CAPACITY = 2 ^ 63 - 1 := rfl
  have hdecode := @WorkerFraming.decode_eq _ protobuf input
  unfold SameLimits
  by_cases hinput : input = []
  · subst hinput
    refine iff_of_false (fun h => ?_) (fun h => h rfl)
    have hread := (h.2 (fun _ _ hscan => by cases hscan) protobuf.empty).1 hdecode
    cases hread
  have hframe := WorkerFraming.readFrame_eq protobuf hinput
  have hkotlin := ProtobufFraming.read_eq protobuf hinput
  unfold ReadAlike
  cases hscan : scan 0 0 input with
  | cut length =>
    rw [hscan] at hdecode hframe
    rw [hscan] at hkotlin
    have hread := hkotlin (fun _ _ hcomplete => by cases hcomplete)
    simp only at hdecode hframe hread
    have hsingle : AtMostOneFrame input := fun _ _ hcomplete => by rw [hscan] at hcomplete; cases hcomplete
    rw [hframe, hread, hdecode]
    by_cases hzero : length.toNat = 0
    · simp [Alike, hsingle, hzero]
    · simp [Alike, hzero]
  | long =>
    rw [hscan] at hdecode hframe hkotlin
    have hread := hkotlin (fun _ _ hcomplete => by cases hcomplete)
    simp only at hdecode hframe hread
    rw [hframe, hread, hdecode]
    simp [Alike]
  | complete length rest =>
    rw [hscan] at hdecode hframe hkotlin
    simp only at hdecode hframe hkotlin
    by_cases hhuge : WorkerFraming.MAX_CAPACITY < length.toNat
    · rw [hframe, if_pos hhuge]
      simp [Alike]
      omega
    rw [if_neg hhuge] at hframe
    have hread := hkotlin (fun _ _ hcomplete => by cases hcomplete; omega)
    have hfits : length.toNat ≤ WorkerFraming.MAX_CAPACITY := by omega
    rw [hframe, hread]
    by_cases hshort : rest.length < length.toNat
    · have hcut : WorkerFraming.decode protobuf input = .error .lengthMismatch := by rw [hdecode, if_pos (by omega)]
      rw [if_pos hshort, hcut]
      split <;> simp [Alike, hfits, hshort]
    rw [if_neg hshort]
    cases hpayload : protobuf.decode (rest.take length.toNat) with
    | none =>
      have herror : ∀ envelope, WorkerFraming.decode protobuf input ≠ .ok envelope := by
        intro envelope hok
        rw [hdecode] at hok
        split at hok
        · cases hok
        · next hlength =>
          rw [List.take_of_length_le (by omega)] at hpayload
          rw [WorkerFraming.decodePayload, hpayload] at hok
          cases hok
      refine iff_of_true ⟨?_, fun _ envelope => iff_of_false (herror envelope) (fun hok => by cases hok)⟩ ⟨hfits, .inr (.inr hpayload)⟩
      by_cases hlong : ProtobufFraming.INT_MAX < length.toNat
      · rw [if_pos hlong]
        trivial
      · rw [if_neg hlong, if_neg hshort]
        trivial
    | some envelope =>
      by_cases hlong : ProtobufFraming.INT_MAX < length.toNat
      · rw [if_pos hlong]
        refine iff_of_false (fun hboth => hboth.1) ?_
        rintro ⟨-, hint | hcut | hnone⟩
        · omega
        · omega
        · rw [hpayload] at hnone
          cases hnone
      · rw [if_neg hlong, if_neg hshort]
        refine iff_of_true ⟨rfl, fun hone other => ?_⟩ ⟨hfits, .inl (by omega)⟩
        have hlength : length.toNat = rest.length := by
          have := hone length rest hscan
          omega
        rw [hlength, List.take_length] at hpayload
        rw [hdecode, if_neg (fun hne => hne hlength), WorkerFraming.decodePayload, hpayload, hlength, List.drop_length]
        simp

/-- **Framing.** For every list of envelopes, both readers read back the frames of either writer exactly if every
encoding fits an `Int`; for every string, the three readers agree exactly if their limits do not tell on it. -/
theorem framing_agrees_iff :
    (∀ envelopes : List Envelope, SharedFraming protobuf envelopes ↔
      ∀ envelope ∈ envelopes, (protobuf.encoder.encode envelope).length ≤ ProtobufFraming.INT_MAX) ∧
    ∀ input : Bytes, ReadAlike protobuf input ↔ SameLimits protobuf input :=
  ⟨sharedFraming_iff protobuf, readAlike_iff protobuf⟩

/-! ## A prefix that ends early -/

/-- Envelopes that are their own encoding. -/
def rawProtobuf : Protobuf Bytes where
  decode := some
  encoder := ⟨id, fun _ => rfl⟩
  empty := []
  decode_empty := rfl

/-- One byte that announces another: `read_frame` and the worker find the stream cut, `decode` an envelope. -/
theorem cut_prefix_decoded :
    ¬ ∀ (Envelope : Type) (protobuf : Protobuf Envelope),
      (∀ envelopes : List Envelope, SharedFraming protobuf envelopes) ∧ ∀ input : Bytes, ReadAlike protobuf input := by
  intro h
  have halike := ((h Bytes rawProtobuf).2 [0x80]).2 (fun _ _ hscan => by cases hscan) []
  have hread := halike.1 (by decide)
  exact absurd hread (by decide)

end Kide
