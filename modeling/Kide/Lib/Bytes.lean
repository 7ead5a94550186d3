import Mathlib.Algebra.Order.Ring.Nat
import Mathlib.Data.List.Basic

/-!
# Byte strings

Numbers of fixed width in little-endian order, and slices of a byte string.
-/

namespace ByteStrings

theorem toNat_ofNat_of_lt {n : Nat} (h : n < 256) : (UInt8.ofNat n).toNat = n := by
  rw [UInt8.toNat_ofNat']
  omega

/-! ## Little-endian numbers -/

/-- The low bytes of a number, lowest first. -/
def toLeBytes : Nat → Nat → List UInt8
  | 0, _ => []
  | width + 1, n => UInt8.ofNat (n % 256) :: toLeBytes width (n / 256)

def fromLeBytes : List UInt8 → Nat
  | [] => 0
  | byte :: rest => byte.toNat + 256 * fromLeBytes rest

theorem toLeBytes_length (width n : Nat) : (toLeBytes width n).length = width := by
  induction width generalizing n with
  | zero => rfl
  | succ width ih => rw [toLeBytes, List.length_cons, ih]

theorem fromLeBytes_toLeBytes {width n : Nat} (h : n < 256 ^ width) : fromLeBytes (toLeBytes width n) = n := by
  induction width generalizing n with
  | zero =>
    rw [pow_zero] at h
    rw [toLeBytes, fromLeBytes]
    omega
  | succ width ih =>
    rw [pow_succ] at h
    rw [toLeBytes, fromLeBytes, toNat_ofNat_of_lt (Nat.mod_lt _ (by decide)), ih (by omega)]
    omega

theorem fromLeBytes_lt (bytes : List UInt8) : fromLeBytes bytes < 256 ^ bytes.length := by
  induction bytes with
  | nil => exact Nat.one_pos
  | cons byte rest ih =>
    have hbyte := byte.toNat_lt
    rw [fromLeBytes, List.length_cons, pow_succ]
    omega

theorem toLeBytes_fromLeBytes (bytes : List UInt8) : toLeBytes bytes.length (fromLeBytes bytes) = bytes := by
  induction bytes with
  | nil => rfl
  | cons byte rest ih =>
    have hbyte := byte.toNat_lt
    rw [List.length_cons, toLeBytes, fromLeBytes]
    have hlow : (byte.toNat + 256 * fromLeBytes rest) % 256 = byte.toNat := by omega
    have hhigh : (byte.toNat + 256 * fromLeBytes rest) / 256 = fromLeBytes rest := by omega
    rw [hlow, hhigh, ih, UInt8.ofNat_toNat]

/-! ## Slices -/

def slice (bytes : List UInt8) (offset length : Nat) : List UInt8 := (bytes.drop offset).take length

theorem slice_middle {before middle after : List UInt8} {offset length : Nat} (hoffset : before.length = offset)
    (hlength : middle.length = length) : slice (before ++ middle ++ after) offset length = middle := by
  subst hoffset hlength
  rw [slice, List.append_assoc, List.drop_left, List.take_left]

theorem take_add_slice (bytes : List UInt8) (offset length : Nat) :
    bytes.take (offset + length) = bytes.take offset ++ slice bytes offset length := List.take_add

theorem slice_take {bytes : List UInt8} {offset length width : Nat} (h : offset + length ≤ width) :
    slice (bytes.take width) offset length = slice bytes offset length := by
  unfold slice
  rw [List.drop_take, List.take_take, Nat.min_eq_left (by omega)]

theorem slice_length {bytes : List UInt8} {offset length : Nat} (h : offset + length ≤ bytes.length) :
    (slice bytes offset length).length = length := by
  rw [slice, List.length_take, List.length_drop]
  omega

end ByteStrings
