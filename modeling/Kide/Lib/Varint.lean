import Kide.Lib.Wire
import Mathlib.Data.Nat.Bitwise

/-!
# Length prefixes of 64 bits

A varint in front of a payload, read into a 64-bit number: each byte adds seven bits, and an eleventh byte is one
too many. `scan` is what such a prefix can be at the head of a string: ended too early (`cut`), too long, or
complete. The bits of a tenth byte above the first are lost.
-/

namespace Varints

open Wire ByteStrings

/-- What stands at the head of a string. -/
inductive LengthPrefix where
  | cut (value : UInt64)
  | long
  | complete (length : UInt64) (rest : Bytes)
deriving DecidableEq, Repr

/-- `byte & 0x7f`, as a number of 64 bits -/
def group (byte : UInt8) : UInt64 := (byte &&& 0x7f).toUInt64

def scan (length : UInt64) (shift : Nat) : Bytes → LengthPrefix
  | [] => .cut length
  | byte :: rest =>
    let length := length ||| group byte <<< UInt64.ofNat shift
    if byte &&& 0x80 = 0 then .complete length rest
    else if 64 ≤ shift + 7 then .long
    else scan length (shift + 7) rest

/-! ## Bytes -/

theorem group_toNat (byte : UInt8) : (group byte).toNat = byte.toNat % 128 := by
  have hmask : (0x7f : UInt8).toNat = 2 ^ 7 - 1 := rfl
  rw [group, UInt8.toNat_toUInt64, UInt8.toNat_and, hmask, Nat.and_two_pow_sub_one_eq_mod]

theorem and_flag_iff (byte : UInt8) : byte &&& 0x80 = 0 ↔ byte.toNat < 128 := by
  have hflag : (0x80 : UInt8).toNat = 2 ^ 7 := rfl
  have hlt := byte.toNat_lt
  rw [← UInt8.toNat_inj, UInt8.toNat_and, hflag, Nat.and_two_pow]
  have hbit : byte.toNat.testBit 7 = decide (128 ≤ byte.toNat) := by
    rw [Nat.testBit_eq_decide_div_mod_eq]
    congr 1
    rw [eq_iff_iff]
    omega
  rw [hbit]
  by_cases h : 128 ≤ byte.toNat
  · simp [h]
  · simp [h]
    omega

theorem group_low {n : Nat} (h : n < 128) : group (UInt8.ofNat n) = UInt64.ofNat n := by
  rw [← UInt64.toNat_inj, group_toNat, toNat_ofNat_of_lt (by omega), UInt64.toNat_ofNat']
  omega

theorem group_high (n : Nat) : group (UInt8.ofNat (128 + n % 128)) = UInt64.ofNat (n % 128) := by
  rw [← UInt64.toNat_inj, group_toNat, toNat_ofNat_of_lt (by omega), UInt64.toNat_ofNat']
  omega

/-- Seven bits and the bits above them. -/
theorem groups_or {n shift : Nat} (hshift : shift + 7 < 64) :
    UInt64.ofNat (n % 128) <<< UInt64.ofNat shift ||| UInt64.ofNat (n / 128) <<< UInt64.ofNat (shift + 7) =
      UInt64.ofNat n <<< UInt64.ofNat shift := by
  rw [← UInt64.toNat_inj]
  refine Nat.eq_of_testBit_eq fun i => ?_
  have hlow : n % 128 = n % 2 ^ 7 := rfl
  have hhigh : n / 128 = n / 2 ^ 7 := rfl
  have hhere : shift % 2 ^ 64 % 64 = shift := by omega
  have hnext : (shift + 7) % 2 ^ 64 % 64 = shift + 7 := by omega
  simp only [hlow, hhigh, UInt64.toNat_or, UInt64.toNat_shiftLeft, UInt64.toNat_ofNat', Nat.testBit_or, Nat.testBit_mod_two_pow,
    Nat.testBit_shiftLeft, Nat.testBit_div_two_pow, hhere, hnext]
  -- bit `i` comes from the low part below `shift + 7` and from the high part from there on
  by_cases hi : i < shift + 7
  · have hnot : ¬ i ≥ shift + 7 := by omega
    by_cases hbelow : i ≥ shift
    · have hgroup : i - shift < 7 := by omega
      simp [hnot, hgroup]
    · simp [hnot, hbelow]
  · have hsame : i - (shift + 7) + 7 = i - shift := by omega
    have hgroup : ¬ i - shift < 7 := by omega
    have hge : i ≥ shift := by omega
    have hbits : i < 64 → i - shift < 64 ∧ i - (shift + 7) < 64 := by omega
    by_cases hword : i < 64
    · obtain ⟨hbit, hbit'⟩ := hbits hword
      have hat : i ≥ shift + 7 := by omega
      simp [hword, hat, hge, hgroup, hbit, hbit', hsame]
    · simp [hword]

theorem scan_varint {n shift : Nat} (hshift : shift < 64) (hn : n < 2 ^ (64 - shift)) (length : UInt64) (rest : Bytes) :
    scan length shift (varint n ++ rest) = .complete (length ||| UInt64.ofNat n <<< UInt64.ofNat shift) rest := by
  induction n using Nat.strongRecOn generalizing shift length with
  | ind n ih =>
    by_cases h : n < 128
    · have hbyte : (UInt8.ofNat n).toNat = n := toNat_ofNat_of_lt (by omega)
      rw [varint_of_lt h, List.singleton_append, scan, if_pos ((and_flag_iff _).2 (by omega)), group_low h]
    · have hbyte : (UInt8.ofNat (128 + n % 128)).toNat = 128 + n % 128 := toNat_ofNat_of_lt (by omega)
      have hlater : shift + 7 < 64 := by
        by_contra hend
        have hpow : 2 ^ (64 - shift) ≤ 2 ^ 7 := Nat.pow_le_pow_right (by omega) (by omega)
        omega
      have hhigh : n / 128 < 2 ^ (64 - (shift + 7)) := by
        have hpow : 2 ^ (64 - shift) = 128 * 2 ^ (64 - (shift + 7)) := by
          rw [show 64 - shift = 7 + (64 - (shift + 7)) by omega, pow_add]
          rfl
        omega
      rw [varint_of_le (by omega), List.cons_append, scan, if_neg (fun hflag => by rw [and_flag_iff] at hflag; omega),
        if_neg (by omega), ih (n / 128) (by omega) hlater hhigh, group_high, UInt64.or_assoc, groups_or hlater]

end Varints
