import Kide.Lib.Bytes
import Kide.Lib.Codec
import Mathlib.Tactic.Linarith

/-!
# Tagged messages on the wire

The proto3 wire format: numbers as varints, seven bits to a byte with the lowest first; a message as a
sequence of fields, each a number with a value; strings, packed lists and embedded messages as
length-delimited bytes. Fields are written in the order of their numbers, and a field with its default
value is left out.

A `Slot` says which values a field of one kind writes and how it reads them back; a `Message` is made of
slots. Numbers are unbounded here, and the fixed-width wire types, which need no varint, are not read.
-/

namespace Wire

open ByteStrings

abbrev Bytes := List UInt8

/-! ## Varints -/

def varint (n : Nat) : Bytes :=
  if n < 128 then [UInt8.ofNat n]
  else UInt8.ofNat (128 + n % 128) :: varint (n / 128)
termination_by n

def readVarint : Bytes → Option (Nat × Bytes)
  | [] => none
  | byte :: rest =>
    if byte.toNat < 128 then some (byte.toNat, rest)
    else (readVarint rest).map fun high => (byte.toNat - 128 + 128 * high.1, high.2)

theorem varint_of_lt {n : Nat} (h : n < 128) : varint n = [UInt8.ofNat n] := by
  rw [varint, if_pos h]

theorem varint_of_le {n : Nat} (h : 128 ≤ n) : varint n = UInt8.ofNat (128 + n % 128) :: varint (n / 128) := by
  rw [varint, if_neg (by omega)]

theorem readVarint_varint (n : Nat) (rest : Bytes) : readVarint (varint n ++ rest) = some (n, rest) := by
  induction n using Nat.strongRecOn with
  | ind n ih =>
    by_cases h : n < 128
    · have hbyte : (UInt8.ofNat n).toNat = n := toNat_ofNat_of_lt (by omega)
      rw [varint_of_lt h, List.singleton_append, readVarint, if_pos (by omega), hbyte]
    · have hbyte : (UInt8.ofNat (128 + n % 128)).toNat = 128 + n % 128 := toNat_ofNat_of_lt (by omega)
      rw [varint_of_le (by omega), List.cons_append, readVarint, if_neg (by omega), ih (n / 128) (by omega),
        Option.map_some, hbyte]
      have hvalue : 128 + n % 128 - 128 + 128 * (n / 128) = n := by omega
      rw [hvalue]

theorem varint_length_pos (n : Nat) : 0 < (varint n).length := by
  rw [varint]
  split <;> simp

/-- A larger number takes no fewer bytes. -/
theorem varint_length_mono {n m : Nat} (h : n ≤ m) : (varint n).length ≤ (varint m).length := by
  induction m using Nat.strongRecOn generalizing n with
  | ind m ih =>
    by_cases hn : n < 128
    · rw [varint_of_lt hn]
      exact varint_length_pos m
    · have hlow := ih (m / 128) (by omega) (n := n / 128) (by omega)
      rw [varint_of_le (n := n) (by omega), varint_of_le (n := m) (by omega)]
      simpa using hlow

theorem varint_length_le (n : Nat) : (varint n).length ≤ n + 1 := by
  induction n using Nat.strongRecOn with
  | ind n ih =>
    by_cases h : n < 128
    · rw [varint_of_lt h]
      simp
    · have hlow := ih (n / 128) (by omega)
      rw [varint_of_le (by omega), List.length_cons]
      omega

theorem varint_length_le_of_lt_two_pow {n k : Nat} (h : n < 2 ^ k) : (varint n).length ≤ k + 1 := by
  induction k generalizing n with
  | zero =>
    rw [varint_of_lt (by omega)]
    simp
  | succ k ih =>
    by_cases hn : n < 128
    · rw [varint_of_lt hn]
      simp
    · rw [pow_succ] at h
      have hlow := ih (n := n / 128) (by omega)
      rw [varint_of_le (by omega), List.length_cons]
      omega

/-- Varints are short enough for any multiple of their length to be outgrown by the number. -/
theorem exists_varint_bound (base factor shift : Nat) :
    ∃ bound, base + factor * (varint (bound + shift)).length ≤ bound := by
  obtain ⟨m, hdef⟩ : ∃ m, m = base + 2 * factor + shift + 2 := ⟨_, rfl⟩
  have hm : m < 2 ^ m := Nat.lt_two_pow_self
  have hsquare : m * m < 2 ^ (m + m) := by
    rw [pow_add]
    exact Nat.mul_lt_mul'' hm hm
  refine ⟨2 ^ (m + m), ?_⟩
  have hshift : 2 ^ (m + m) + shift < 2 ^ (m + m + 1) := by
    rw [pow_succ]
    nlinarith
  have hlength := varint_length_le_of_lt_two_pow hshift
  have hfactor : factor * (varint (2 ^ (m + m) + shift)).length ≤ factor * (m + m + 2) := Nat.mul_le_mul_left _ hlength
  nlinarith

/-! ## Fields -/

inductive Value where
  | varint (number : Nat)
  | bytes (content : Bytes)
deriving DecidableEq, Repr

structure Field where
  number : Nat
  value : Value
deriving DecidableEq, Repr

def encodeField : Field → Bytes
  | ⟨number, .varint value⟩ => varint (8 * number) ++ varint value
  | ⟨number, .bytes content⟩ => varint (8 * number + 2) ++ (varint content.length ++ content)

def encodeFields (fields : List Field) : Bytes := fields.flatMap encodeField

def readPayload (tag : Nat) (input : Bytes) : Option (Field × Bytes) :=
  match readVarint input with
  | none => none
  | some (number, rest) =>
    if tag % 8 = 0 then some (⟨tag / 8, .varint number⟩, rest)
    else if tag % 8 = 2 ∧ number ≤ rest.length then some (⟨tag / 8, .bytes (rest.take number)⟩, rest.drop number)
    else none

def readField (input : Bytes) : Option (Field × Bytes) :=
  (readVarint input).bind fun tag => readPayload tag.1 tag.2

/-- The fuel is a bound on the number of fields. -/
def readFields : Nat → Bytes → Option (List Field)
  | _, [] => some []
  | 0, _ :: _ => none
  | fuel + 1, byte :: input =>
    (readField (byte :: input)).bind fun first => (readFields fuel first.2).map (first.1 :: ·)

theorem readField_encodeField (field : Field) (rest : Bytes) :
    readField (encodeField field ++ rest) = some (field, rest) := by
  obtain ⟨number, value | content⟩ := field
  · rw [encodeField, readField, List.append_assoc, readVarint_varint, Option.bind_some, readPayload, readVarint_varint]
    have htype : 8 * number % 8 = 0 := by omega
    have hnumber : 8 * number / 8 = number := by omega
    simp only [htype, hnumber, if_true]
  · rw [encodeField, readField, List.append_assoc, readVarint_varint, Option.bind_some, readPayload, List.append_assoc,
      readVarint_varint]
    have htype : (8 * number + 2) % 8 = 2 := by omega
    have hnumber : (8 * number + 2) / 8 = number := by omega
    simp [htype, hnumber]

theorem encodeField_ne_nil (field : Field) : encodeField field ≠ [] := by
  intro h
  obtain ⟨number, value | content⟩ := field
  · have := varint_length_pos (8 * number)
    simp only [encodeField, List.append_eq_nil_iff] at h
    simp [h.1] at this
  · have := varint_length_pos (8 * number + 2)
    simp only [encodeField, List.append_eq_nil_iff] at h
    simp [h.1] at this

theorem readFields_encodeFields {fields : List Field} {fuel : Nat} (h : fields.length ≤ fuel) :
    readFields fuel (encodeFields fields) = some fields := by
  induction fields generalizing fuel with
  | nil => cases fuel <;> rfl
  | cons field fields ih =>
    obtain ⟨fuel, rfl⟩ : ∃ less, fuel = less + 1 := ⟨fuel - 1, by rw [List.length_cons] at h; omega⟩
    obtain ⟨byte, input, hinput⟩ := List.exists_cons_of_ne_nil
      (List.append_ne_nil_of_left_ne_nil (encodeField_ne_nil field) (encodeFields fields))
    rw [encodeFields, List.flatMap_cons, ← encodeFields, hinput, readFields, ← hinput, readField_encodeField,
      Option.bind_some, ih (by rw [List.length_cons] at h; omega), Option.map_some]

theorem length_le_encodeFields (fields : List Field) : fields.length ≤ (encodeFields fields).length := by
  induction fields with
  | nil => exact Nat.le_refl _
  | cons field fields ih =>
    have := List.length_pos_iff.2 (encodeField_ne_nil field)
    rw [encodeFields, List.flatMap_cons, ← encodeFields, List.length_cons, List.length_append]
    omega

/-- The values a message holds under one number, in order. -/
def valuesOf (number : Nat) (fields : List Field) : List Value :=
  (fields.filter (·.number = number)).map Field.value

@[simp] theorem valuesOf_append (number : Nat) (first second : List Field) :
    valuesOf number (first ++ second) = valuesOf number first ++ valuesOf number second := by
  rw [valuesOf, List.filter_append, List.map_append, valuesOf, valuesOf]

/-! ## Slots -/

/-- A type that travels as one value. -/
structure Scalar (α : Type) where
  toValue : α → Value
  ofValue : Value → Option α
  ofValue_toValue : ∀ a, ofValue (toValue a) = some a

/-- The values of a field and how they are read back. -/
structure Slot (α : Type) where
  put : α → List Value
  get : List Value → Option α
  get_put : ∀ a, get (put a) = some a

attribute [simp] Scalar.ofValue_toValue Slot.get_put

namespace Slot

variable {α : Type}

/-- A field that is left out when it has its default value; the last value counts. -/
def implicit [DecidableEq α] (scalar : Scalar α) (default : α) : Slot α where
  put a := if a = default then [] else [scalar.toValue a]
  get values := match values.getLast? with
    | none => some default
    | some value => scalar.ofValue value
  get_put a := by
    by_cases h : a = default
    · simp [h]
    · simp [h]

def optional (scalar : Scalar α) : Slot (Option α) where
  put a := (a.map scalar.toValue).toList
  get values := match values.getLast? with
    | none => some none
    | some value => (scalar.ofValue value).map some
  get_put a := by
    cases a with
    | none => rfl
    | some a => simp

def repeated (scalar : Scalar α) : Slot (List α) where
  put as := as.map scalar.toValue
  get values := values.mapM scalar.ofValue
  get_put as := by
    induction as with
    | nil => rfl
    | cons a as ih => simp [ih]

/-- The fields a slot writes under its number. -/
def field (slot : Slot α) (number : Nat) (a : α) : List Field := (slot.put a).map (Field.mk number)

/-- What a slot reads from the fields of its number. -/
@[simp] def find (slot : Slot α) (number : Nat) (fields : List Field) : Option α := slot.get (valuesOf number fields)

@[simp] theorem valuesOf_field (slot : Slot α) (number own : Nat) (a : α) :
    valuesOf number (slot.field own a) = if own = number then slot.put a else [] := by
  unfold valuesOf field
  by_cases h : own = number
  · simp [h, List.filter_map, Function.comp_def]
  · simp [h, List.filter_map, Function.comp_def]

end Slot

/-! ## Messages -/

structure Message (α : Type) where
  toFields : α → List Field
  ofFields : List Field → Option α
  ofFields_toFields : ∀ message, ofFields (toFields message) = some message

namespace Message

variable {α : Type} (message : Message α)

def encode (a : α) : Bytes := encodeFields (message.toFields a)

def decode (bytes : Bytes) : Option α := (readFields bytes.length bytes).bind message.ofFields

theorem decode_encode (a : α) : message.decode (message.encode a) = some a := by
  rw [decode, encode, readFields_encodeFields (length_le_encodeFields _), Option.bind_some, message.ofFields_toFields]

def encoder : Encoder message.decode := ⟨message.encode, message.decode_encode⟩

/-- An embedded message. -/
def scalar : Scalar α where
  toValue a := .bytes (message.encode a)
  ofValue
    | .bytes content => message.decode content
    | .varint _ => none
  ofValue_toValue := message.decode_encode

end Message

/-! ## Sizes -/

theorem encodeFields_append (first second : List Field) : encodeFields (first ++ second) = encodeFields first ++ encodeFields second :=
  List.flatMap_append

/-- The bytes of an embedded message with its number and length. -/
def embeddedSize (number size : Nat) : Nat := (varint (8 * number + 2)).length + (varint size).length + size

theorem embeddedSize_mono {number size larger : Nat} (h : size ≤ larger) : embeddedSize number size ≤ embeddedSize number larger := by
  have := varint_length_mono h
  unfold embeddedSize
  omega

theorem embeddedSize_le (number size : Nat) : embeddedSize number size ≤ (varint (8 * number + 2)).length + 2 * size + 1 := by
  have := varint_length_le size
  unfold embeddedSize
  omega

theorem length_repeated_cons {α : Type} (message : Message α) (number : Nat) (a : α) (as : List α) :
    (encodeFields ((Slot.repeated message.scalar).field number (a :: as))).length =
      embeddedSize number (message.encode a).length + (encodeFields ((Slot.repeated message.scalar).field number as)).length := by
  have hfield : (Slot.repeated message.scalar).field number (a :: as) =
      ⟨number, .bytes (message.encode a)⟩ :: (Slot.repeated message.scalar).field number as := rfl
  rw [hfield, encodeFields, List.flatMap_cons, List.length_append, ← encodeFields, encodeField, List.length_append,
    List.length_append, embeddedSize]
  omega

/-! ## Scalars -/

def uint : Scalar Nat where
  toValue n := .varint n
  ofValue
    | .varint n => some n
    | .bytes _ => none
  ofValue_toValue _ := rfl

/-- A signed number of 32 bits, widened to 64 bits on the wire. -/
def int32 : Scalar Int32 where
  toValue n := .varint n.toInt64.toUInt64.toNat
  ofValue
    | .varint n => some (UInt64.ofNat n).toInt64.toInt32
    | .bytes _ => none
  ofValue_toValue n := by simp

/-- A larger number takes no fewer bytes, as a field that is left out when it is zero. -/
theorem length_uint_mono {number n m : Nat} (h : n ≤ m) :
    (encodeFields ((Slot.implicit uint 0).field number n)).length ≤ (encodeFields ((Slot.implicit uint 0).field number m)).length := by
  by_cases hn : n = 0
  · rw [hn]
    exact Nat.zero_le _
  · have hm : m ≠ 0 := by omega
    have := varint_length_mono h
    simp [Slot.field, Slot.implicit, hn, hm, encodeFields, encodeField, uint, this]

theorem length_uint_le (number n : Nat) :
    (encodeFields ((Slot.implicit uint 0).field number n)).length ≤ (varint (8 * number)).length + (varint n).length := by
  by_cases hn : n = 0
  · rw [hn]
    exact Nat.zero_le _
  · simp [Slot.field, Slot.implicit, hn, encodeFields, encodeField, uint]

def bytes : Scalar Bytes where
  toValue content := .bytes content
  ofValue
    | .bytes content => some content
    | .varint _ => none
  ofValue_toValue _ := rfl

def string : Scalar String where
  toValue text := .bytes text.toByteArray.data.toList
  ofValue
    | .bytes content => String.fromUTF8? ⟨content.toArray⟩
    | .varint _ => none
  ofValue_toValue text := dif_pos text.isValidUTF8

/-- A list of numbers in one value, left out when it is empty. -/
def packNumbers (numbers : List Nat) : Bytes := numbers.flatMap varint

def unpackNumbers : Nat → Bytes → Option (List Nat)
  | _, [] => some []
  | 0, _ :: _ => none
  | fuel + 1, byte :: input =>
    (readVarint (byte :: input)).bind fun first => (unpackNumbers fuel first.2).map (first.1 :: ·)

theorem unpackNumbers_packNumbers {numbers : List Nat} {fuel : Nat} (h : numbers.length ≤ fuel) :
    unpackNumbers fuel (packNumbers numbers) = some numbers := by
  induction numbers generalizing fuel with
  | nil => cases fuel <;> rfl
  | cons number numbers ih =>
    obtain ⟨fuel, rfl⟩ : ∃ less, fuel = less + 1 := ⟨fuel - 1, by rw [List.length_cons] at h; omega⟩
    obtain ⟨byte, input, hinput⟩ := List.exists_cons_of_ne_nil
      (List.append_ne_nil_of_left_ne_nil (List.ne_nil_of_length_pos (varint_length_pos number)) (packNumbers numbers))
    rw [packNumbers, List.flatMap_cons, ← packNumbers, hinput, unpackNumbers, ← hinput, readVarint_varint,
      Option.bind_some, ih (by rw [List.length_cons] at h; omega), Option.map_some]

theorem length_le_packNumbers (numbers : List Nat) : numbers.length ≤ (packNumbers numbers).length := by
  induction numbers with
  | nil => exact Nat.le_refl _
  | cons number numbers ih =>
    have := varint_length_pos number
    rw [packNumbers, List.flatMap_cons, ← packNumbers, List.length_cons, List.length_append]
    omega

def numbersOf : Value → Option (List Nat)
  | .varint n => some [n]
  | .bytes content => unpackNumbers content.length content

/-- A repeated number, packed when written; the reader takes both forms. -/
def packed : Slot (List Nat) where
  put numbers := if numbers = [] then [] else [.bytes (packNumbers numbers)]
  get values := (values.mapM numbersOf).map List.flatten
  get_put numbers := by
    by_cases h : numbers = []
    · simp [h]
    · simp [h, numbersOf, unpackNumbers_packNumbers (length_le_packNumbers numbers)]

end Wire
