import Kide.Cache.BlobFile
import Kide.Index.Materialize
import Kide.Lib.Panics
import Kide.Lib.Split
import Kide.Proto.WorkerAdapter
import Mathlib.Tactic.IntervalCases

/-!
# Parsers of fingerprints

Core reads the digest of a `sha256:` fingerprint twice: the orchestrator checks a staged file with it, and the adapter writes it to
the protocol. The first slices the text after a check of its length only, and the integer parser takes a plus sign.

* `hexPairs_range` : the loop reads the text pair by pair;
* `endsEarly_of_readPairs`, `readPairs_of_endsEarly` : it ends at the first pair of characters that is no number;
* `parsersAgree_iff` : the parsers agree exactly if the text has no 64 bytes, or has hexadecimal digits only, or comes to such a pair
  before it ends or cuts a character;
* `sha256BytesSliced_eq` : where the orchestrator's parser does not panic it is `sha256Bytes`.
-/

namespace Kide
open Checks Text Panics Splits

/-! ## The parsers -/

/-- One digit more. -/
def appendDigit (n : Nat) (c : Char) : Option Nat := do
  let digit ← hexDigit c
  if 16 * n + digit < 256 then some (16 * n + digit) else none

def fromDigits (digits : List Char) : Option UInt8 :=
  if digits = [] then none else (digits.foldlM appendDigit 0).map UInt8.ofNat

/-- `u8::from_str_radix(_, 16)` -/
def fromStrRadix16 : List Char → Option UInt8
  | '+' :: digits => fromDigits digits
  | digits => fromDigits digits

/-- The bytes of the pairs with the indexes. The first pair that is no number ends the loop. -/
def hexPairs (hex : List Char) : List Nat → Except Panic (Option (List UInt8))
  | [] => .ok (some [])
  | index :: indexes => do
    let pair ← textSlice hex (index * 2) (index * 2 + 2)
    match fromStrRadix16 pair with
    | none => .ok none
    | some byte => do
      let bytes ← hexPairs hex indexes
      .ok (bytes.map (byte :: ·))

def stripSha256 (value : Fingerprint) : Option (List Char) := value.asStr.toList.dropPrefix? "sha256:".toList

/-- `sha256_bytes` of the orchestrator -/
def sha256BytesSliced (value : Fingerprint) : Except Panic (Option (List UInt8)) :=
  match stripSha256 value with
  | none => .ok none
  | some hex => if byteLength hex ≠ 64 then .ok none else hexPairs hex (List.range 32)

namespace WorkerAdapter

/-- `sha256_bytes` of the adapter. A byte of a character beyond ASCII is no hexadecimal digit. -/
def sha256Bytes (value : Fingerprint) : Fallible AdapterError (List UInt8) :=
  match stripSha256 value with
  | none => returning (.error (.invalid "sha256 fingerprint prefix"))
  | some hex =>
    if byteLength hex ≠ 64 ∨ hex.all (fun c => (hexDigit c).isSome) = false then
      returning (.error (.invalid "sha256 fingerprint encoding"))
    else do
      let bytes ← panicking (hexPairs hex (List.range 32))
      match bytes with
      | some bytes => returning (.ok bytes)
      | none => returning (.error (.invalid "sha256 fingerprint encoding"))

def sha256Fingerprint (value : List UInt8) : Except AdapterError Fingerprint :=
  if value.length ≠ 32 then .error (.invalid "sha256 byte length")
  else .ok ⟨"sha256:" ++ String.ofList (value.flatMap BlobFile.hexByte)⟩

end WorkerAdapter

/-! ## Pairs -/

def IsHex (c : Char) : Prop := (hexDigit c).isSome = true

instance (c : Char) : Decidable (IsHex c) := inferInstanceAs (Decidable (_ = true))

/-- What the integer parser takes of two bytes. -/
def Readable (pair : List Char) : Prop := ∃ c d, pair = [c, d] ∧ (c = '+' ∨ IsHex c) ∧ IsHex d

def hexDigits : List Char := "0123456789abcdefABCDEF".toList

theorem mem_hexDigits {c : Char} (h : IsHex c) : c ∈ hexDigits := by
  have hrange : (48 ≤ c.toNat ∧ c.toNat ≤ 57) ∨ (97 ≤ c.toNat ∧ c.toNat ≤ 102) ∨ (65 ≤ c.toNat ∧ c.toNat ≤ 70) := by
    unfold IsHex hexDigit at h
    split_ifs at h with hd hl hu
    · exact .inl ⟨UInt32.le_iff_toNat_le.1 hd.1, UInt32.le_iff_toNat_le.1 hd.2⟩
    · exact .inr (.inl ⟨UInt32.le_iff_toNat_le.1 hl.1, UInt32.le_iff_toNat_le.1 hl.2⟩)
    · exact .inr (.inr ⟨UInt32.le_iff_toNat_le.1 hu.1, UInt32.le_iff_toNat_le.1 hu.2⟩)
    · cases h
  rw [← Char.ofNat_toNat c]
  generalize c.toNat = n at hrange
  rcases hrange with ⟨hlow, hhigh⟩ | ⟨hlow, hhigh⟩ | ⟨hlow, hhigh⟩
  · interval_cases n <;> decide
  · interval_cases n <;> decide
  · interval_cases n <;> decide

/-- The digit is that of the lower-case letter, a single byte and no sign. -/
theorem hexDigit_spec {c : Char} (h : IsHex c) :
    (hexDigit c).map Nat.digitChar = some c.toLower ∧ (hexDigit c).all (· < 16) = true ∧ c.utf8Size = 1 ∧ c ≠ '+' := by
  have hall : hexDigits.all (fun c => decide ((hexDigit c).map Nat.digitChar = some c.toLower ∧ (hexDigit c).all (· < 16) = true ∧
      c.utf8Size = 1 ∧ c ≠ '+')) = true := by decide
  exact of_decide_eq_true (List.all_eq_true.1 hall c (mem_hexDigits h))

theorem pair_cases {pair : List Char} (h : byteLength pair = 2) :
    (∃ c, pair = [c] ∧ c.utf8Size = 2) ∨ ∃ c d, pair = [c, d] ∧ c.utf8Size = 1 ∧ d.utf8Size = 1 := by
  cases pair with
  | nil => cases h
  | cons c rest =>
    have hc := c.utf8Size_pos
    rw [byteLength_cons] at h
    cases rest with
    | nil => exact .inl ⟨c, rfl, h⟩
    | cons d rest =>
      have hd := d.utf8Size_pos
      rw [byteLength_cons] at h
      have hrest := length_le_byteLength rest
      obtain rfl : rest = [] := List.length_eq_zero_iff.1 (by omega)
      rw [byteLength_nil] at h
      exact .inr ⟨c, d, rfl, by omega, by omega⟩

theorem hexDigit_lt {c : Char} {digit : Nat} (h : hexDigit c = some digit) : digit < 16 := by
  have hhex : IsHex c := by rw [IsHex, h, Option.isSome_some]
  have hsmall := (hexDigit_spec hhex).2.1
  rw [h] at hsmall
  exact of_decide_eq_true hsmall

theorem appendDigit_eq {n : Nat} (hn : n < 16) (c : Char) : appendDigit n c = (hexDigit c).map (16 * n + ·) := by
  unfold appendDigit
  cases hdigit : hexDigit c with
  | none => rfl
  | some digit =>
    have hlt := hexDigit_lt hdigit
    exact if_pos (by omega)

/-- The integer parser on two characters. -/
theorem fromStrRadix16_two (c d : Char) : fromStrRadix16 [c, d] = (hexByte c d).map UInt8.ofNat := by
  unfold hexByte
  by_cases hc : c = '+'
  · subst hc
    rw [if_pos rfl, fromStrRadix16, fromDigits, if_neg (List.cons_ne_nil _ _), List.foldlM_cons, appendDigit_eq (by decide)]
    cases hexDigit d with
    | none => rfl
    | some digit =>
      change some (UInt8.ofNat (16 * 0 + digit)) = some (UInt8.ofNat digit)
      rw [Nat.mul_zero, Nat.zero_add]
  · have hparse : fromStrRadix16 [c, d] = fromDigits [c, d] := by
      unfold fromStrRadix16
      split
      · next digits heq => exact absurd (List.cons.inj heq).1 hc
      · rfl
    rw [if_neg hc, hparse, fromDigits, if_neg (List.cons_ne_nil _ _), List.foldlM_cons, appendDigit_eq (by decide)]
    cases hhigh : hexDigit c with
    | none => rfl
    | some high =>
      have hlt := hexDigit_lt hhigh
      change ((appendDigit (16 * 0 + high) d).bind some).map UInt8.ofNat = _
      rw [Nat.mul_zero, Nat.zero_add, appendDigit_eq hlt]
      cases hexDigit d <;> rfl

theorem fromStrRadix16_one {c : Char} (h : c.utf8Size = 2) : fromStrRadix16 [c] = none := by
  have hdigit : hexDigit c = none := by
    cases hdigit : hexDigit c with
    | none => rfl
    | some digit =>
      have hsize := (hexDigit_spec (by rw [IsHex, hdigit, Option.isSome_some] : IsHex c)).2.2.1
      omega
  have hparse : fromStrRadix16 [c] = fromDigits [c] := by
    unfold fromStrRadix16
    split
    · next digits heq =>
      obtain ⟨rfl, -⟩ := List.cons.inj heq
      exact absurd h (by decide)
    · rfl
  rw [hparse, fromDigits, if_neg (List.cons_ne_nil _ _), List.foldlM_cons, appendDigit_eq (by decide), hdigit]
  rfl

theorem hexByte_isSome_iff {c d : Char} : (hexByte c d).isSome = true ↔ (c = '+' ∨ IsHex c) ∧ IsHex d := by
  unfold hexByte IsHex
  by_cases hc : c = '+'
  · rw [if_pos hc, and_iff_right (.inl hc)]
  · rw [if_neg hc, or_iff_right hc]
    cases hexDigit c <;> cases hexDigit d <;> simp

/-- Of two bytes the parser takes two hexadecimal digits, or a plus sign and one. -/
theorem fromStrRadix16_isSome_iff {pair : List Char} (h : byteLength pair = 2) : (fromStrRadix16 pair).isSome = true ↔ Readable pair := by
  rcases pair_cases h with ⟨c, rfl, hc⟩ | ⟨c, d, rfl, -, -⟩
  · rw [fromStrRadix16_one hc]
    refine iff_of_false (by simp) ?_
    rintro ⟨c, d, heq, -⟩
    cases heq
  · rw [fromStrRadix16_two, Option.isSome_map, hexByte_isSome_iff]
    constructor
    · exact fun ⟨hfirst, hsecond⟩ => ⟨c, d, rfl, hfirst, hsecond⟩
    · rintro ⟨c', d', heq, hfirst, hsecond⟩
      cases heq
      exact ⟨hfirst, hsecond⟩

theorem Readable.byteLength {pair : List Char} (h : Readable pair) : byteLength pair = 2 := by
  obtain ⟨c, d, rfl, hc, hd⟩ := h
  have hsize : c.utf8Size = 1 := by
    rcases hc with rfl | hc
    · decide
    · exact (hexDigit_spec hc).2.2.1
  rw [byteLength_cons, byteLength_cons, byteLength_nil, hsize, (hexDigit_spec hd).2.2.1]

/-! ## The loop -/

/-- So many pairs of a text. -/
def readPairs : Nat → List Char → Except Panic (Option (List UInt8))
  | 0, _ => .ok (some [])
  | count + 1, text =>
    match splitAtByte text 2 with
    | none => .error .charBoundary
    | some (pair, rest) =>
      match fromStrRadix16 pair with
      | none => .ok none
      | some byte => (readPairs count rest).map (Option.map (byte :: ·))

theorem hexPairs_append {front rest : List Char} {index : Nat} (h : byteLength front = 2 * index) (count : Nat) :
    hexPairs (front ++ rest) (List.range' index count) = readPairs count rest := by
  induction count generalizing front rest index with
  | zero => rfl
  | succ count ih =>
    have hslice : textSlice (front ++ rest) (index * 2) (index * 2 + 2) = textTo rest 2 := by
      rw [textSlice, if_pos (Nat.le_add_right _ _), Nat.add_sub_cancel_left, Nat.mul_comm, ← h, textFrom_append, ok_bind]
    rw [List.range'_succ, hexPairs, hslice, textTo, readPairs]
    cases hcut : splitAtByte rest 2 with
    | none => rfl
    | some cut =>
      obtain ⟨pair, tail⟩ := cut
      obtain ⟨rfl, hpair⟩ := splitAtByte_eq_some_iff.1 hcut
      dsimp only
      rw [ok_bind]
      cases fromStrRadix16 pair with
      | none => rfl
      | some byte =>
        have hfront : byteLength (front ++ pair) = 2 * (index + 1) := by
          rw [byteLength_append]
          omega
        dsimp only
        rw [← List.append_assoc, ih hfront]
        cases readPairs count tail <;> rfl

/-- The loop over all indexes reads the text pair by pair. -/
theorem hexPairs_range (hex : List Char) : hexPairs hex (List.range 32) = readPairs 32 hex := by
  have h : hexPairs ([] ++ hex) (List.range' 0 32) = readPairs 32 hex := hexPairs_append rfl 32
  rwa [← List.range_eq_range'] at h

/-- After pairs that are taken comes one that is not. -/
def EndsEarly (hex : List Char) : Prop :=
  ∃ pairs pair rest, hex = List.flatten pairs ++ pair ++ rest ∧ (∀ pair ∈ pairs, Readable pair) ∧ byteLength pair = 2 ∧ ¬ Readable pair

theorem fromStrRadix16_none {pair : List Char} (h : byteLength pair = 2) : fromStrRadix16 pair = none ↔ ¬ Readable pair := by
  rw [← fromStrRadix16_isSome_iff h, Bool.not_eq_true, Option.isSome_eq_false_iff, Option.isNone_iff_eq_none]

/-- What reading a pair and the rest can do. -/
theorem readPairs_succ {count : Nat} {text : List Char} {found : Option (List UInt8)} (h : readPairs (count + 1) text = .ok found) :
    ∃ pair rest, text = pair ++ rest ∧ byteLength pair = 2 ∧ ((¬ Readable pair ∧ found = none) ∨
      ∃ byte others, Readable pair ∧ readPairs count rest = .ok others ∧ found = others.map (byte :: ·)) := by
  rw [readPairs] at h
  cases hcut : splitAtByte text 2 with
  | none =>
    rw [hcut] at h
    cases h
  | some cut =>
    obtain ⟨pair, rest⟩ := cut
    obtain ⟨htext, hpair⟩ := splitAtByte_eq_some_iff.1 hcut
    refine ⟨pair, rest, htext, hpair, ?_⟩
    rw [hcut] at h
    dsimp only at h
    cases hbyte : fromStrRadix16 pair with
    | none =>
      rw [hbyte] at h
      exact .inl ⟨(fromStrRadix16_none hpair).1 hbyte, (Except.ok.inj h).symm⟩
    | some byte =>
      have hreadable := (fromStrRadix16_isSome_iff hpair).1 (by rw [hbyte, Option.isSome_some])
      rw [hbyte] at h
      dsimp only at h
      cases hothers : readPairs count rest with
      | error panic =>
        rw [hothers] at h
        cases h
      | ok others =>
        rw [hothers] at h
        exact .inr ⟨byte, others, hreadable, rfl, (Except.ok.inj h).symm⟩

theorem endsEarly_of_readPairs {count : Nat} {text : List Char} (h : readPairs count text = .ok none) : EndsEarly text := by
  induction count generalizing text with
  | zero => cases h
  | succ count ih =>
    obtain ⟨pair, rest, rfl, hpair, ⟨hstop, -⟩ | ⟨byte, others, hreadable, hothers, hnone⟩⟩ := readPairs_succ h
    · exact ⟨[], pair, rest, rfl, fun _ hmem => absurd hmem List.not_mem_nil, hpair, hstop⟩
    · rw [eq_comm, Option.map_eq_none_iff] at hnone
      subst hnone
      obtain ⟨pairs, stopping, tail, rfl, hpairs, hlength, hstop⟩ := ih hothers
      refine ⟨pair :: pairs, stopping, tail, ?_, List.forall_mem_cons.2 ⟨hreadable, hpairs⟩, hlength, hstop⟩
      rw [List.flatten_cons, List.append_assoc, List.append_assoc, List.append_assoc]

theorem readPairs_of_endsEarly {count : Nat} {text : List Char} (hlength : byteLength text = 2 * count) (h : EndsEarly text) :
    readPairs count text = .ok none := by
  obtain ⟨pairs, pair, rest, rfl, hpairs, hpair, hstop⟩ := h
  induction pairs generalizing count with
  | nil =>
    cases count with
    | zero =>
      rw [List.flatten_nil, List.nil_append, byteLength_append] at hlength
      omega
    | succ count =>
      rw [readPairs, List.flatten_nil, List.nil_append, ← hpair, splitAtByte_append]
      dsimp only
      rw [(fromStrRadix16_none hpair).2 hstop]
  | cons first pairs ih =>
    obtain ⟨hfirst, hrest⟩ := List.forall_mem_cons.1 hpairs
    have htwo := hfirst.byteLength
    have hassoc : List.flatten (first :: pairs) ++ pair ++ rest = first ++ (List.flatten pairs ++ pair ++ rest) := by
      rw [List.flatten_cons, List.append_assoc, List.append_assoc, List.append_assoc]
    rw [hassoc, byteLength_append, htwo] at hlength
    cases count with
    | zero => omega
    | succ count =>
      obtain ⟨byte, hbyte⟩ := Option.isSome_iff_exists.1 ((fromStrRadix16_isSome_iff htwo).2 hfirst)
      have hcut : splitAtByte (first ++ (List.flatten pairs ++ pair ++ rest)) 2 = some (first, List.flatten pairs ++ pair ++ rest) :=
        splitAtByte_eq_some_iff.2 ⟨rfl, htwo⟩
      rw [hassoc, readPairs, hcut]
      dsimp only
      rw [hbyte]
      dsimp only
      rw [ih (by omega) hrest]
      rfl

theorem toNat_ofNat_pair {high low : Nat} (hhigh : high < 16) (hlow : low < 16) : (UInt8.ofNat (16 * high + low)).toNat = 16 * high + low :=
  UInt8.toNat_ofNat_of_lt' (by change 16 * high + low < 256; omega)

/-- Two digits are read, and written again in lower case. -/
theorem fromStrRadix16_digits {c d : Char} (hc : IsHex c) (hd : IsHex d) :
    ∃ byte, fromStrRadix16 [c, d] = some byte ∧ BlobFile.hexByte byte = [c.toLower, d.toLower] := by
  obtain ⟨hhighLetter, -, -, hplus⟩ := hexDigit_spec hc
  have hlowLetter := (hexDigit_spec hd).1
  obtain ⟨high, hhigh⟩ := Option.isSome_iff_exists.1 hc
  obtain ⟨low, hlow⟩ := Option.isSome_iff_exists.1 hd
  have hhigh16 := hexDigit_lt hhigh
  have hlow16 := hexDigit_lt hlow
  rw [hhigh, Option.map_some, Option.some.injEq] at hhighLetter
  rw [hlow, Option.map_some, Option.some.injEq] at hlowLetter
  have hvalue : hexByte c d = some (16 * high + low) := by
    rw [hexByte, if_neg hplus, hhigh, hlow]
    rfl
  refine ⟨UInt8.ofNat (16 * high + low), ?_, ?_⟩
  · rw [fromStrRadix16_two, hvalue, Option.map_some]
  · have hquotient : (16 * high + low) / 16 = high := by omega
    have hremainder : (16 * high + low) % 16 = low := by omega
    rw [BlobFile.hexByte, toNat_ofNat_pair hhigh16 hlow16, hquotient, hremainder, hhighLetter, hlowLetter]

/-- Digits are read, and the bytes are written with the same digits in lower case. -/
theorem readPairs_of_digits {count : Nat} {text : List Char} (hlength : text.length = 2 * count) (h : ∀ c ∈ text, IsHex c) :
    ∃ bytes, readPairs count text = .ok (some bytes) ∧ bytes.length = count ∧
      bytes.flatMap BlobFile.hexByte = text.map Char.toLower := by
  induction count generalizing text with
  | zero =>
    obtain rfl := List.length_eq_zero_iff.1 hlength
    exact ⟨[], rfl, rfl, rfl⟩
  | succ count ih =>
    cases text with
    | nil =>
      rw [List.length_nil] at hlength
      omega
    | cons c text =>
      cases text with
      | nil =>
        rw [List.length_singleton] at hlength
        omega
      | cons d rest =>
        rw [List.length_cons, List.length_cons] at hlength
        obtain ⟨hc, htail⟩ := List.forall_mem_cons.1 h
        obtain ⟨hd, hrest⟩ := List.forall_mem_cons.1 htail
        obtain ⟨byte, hbyte, hwritten⟩ := fromStrRadix16_digits hc hd
        obtain ⟨bytes, hread, hcount, htext⟩ := ih (by omega) hrest
        have htwo : Readable [c, d] := ⟨c, d, rfl, .inr hc, hd⟩
        have hcut : splitAtByte (c :: d :: rest) 2 = some ([c, d], rest) := splitAtByte_eq_some_iff.2 ⟨rfl, htwo.byteLength⟩
        refine ⟨byte :: bytes, ?_, by rw [List.length_cons, hcount], ?_⟩
        · rw [readPairs, hcut]
          dsimp only
          rw [hbyte]
          dsimp only
          rw [hread]
          rfl
        · rw [List.flatMap_cons, hwritten, htext]
          rfl

theorem toNat_lt_of_utf8Size {c : Char} (h : c.utf8Size = 1) : c.toNat < 128 :=
  Nat.lt_succ_of_le (UInt32.le_iff_toNat_le.1 (Char.utf8Size_eq_one_iff.1 h))

theorem utf8Size_of_toNat_lt {c : Char} (h : c.toNat < 128) : c.utf8Size = 1 :=
  Char.utf8Size_eq_one_iff.2 (UInt32.le_iff_toNat_le.2 (Nat.le_of_lt_succ h))

theorem byteLength_of_ascii {text : List Char} (h : ∀ c ∈ text, c.utf8Size = 1) : byteLength text = text.length := by
  induction text with
  | nil => rfl
  | cons c text ih =>
    obtain ⟨hc, htext⟩ := List.forall_mem_cons.1 h
    rw [byteLength_cons, hc, ih htext, List.length_cons, Nat.add_comm]

theorem Readable.ascii {pair : List Char} (h : Readable pair) : ∀ c ∈ pair, c.utf8Size = 1 := by
  obtain ⟨c, d, rfl, hc, hd⟩ := h
  refine List.forall_mem_cons.2 ⟨?_, List.forall_mem_singleton.2 (hexDigit_spec hd).2.2.1⟩
  rcases hc with rfl | hc
  · decide
  · exact (hexDigit_spec hc).2.2.1

theorem hexByte_lt {c d : Char} {byte : Nat} (h : hexByte c d = some byte) : byte < 256 := by
  unfold hexByte at h
  by_cases hc : c = '+'
  · rw [if_pos hc] at h
    have hlt := hexDigit_lt h
    omega
  · rw [if_neg hc] at h
    obtain ⟨high, hhigh, h⟩ := Option.bind_eq_some_iff.1 h
    obtain ⟨low, hlow, h⟩ := Option.bind_eq_some_iff.1 h
    cases h
    have hhigh16 := hexDigit_lt hhigh
    have hlow16 := hexDigit_lt hlow
    omega

/-- On single bytes the loop is the recursion over two characters. -/
theorem readPairs_of_ascii {count : Nat} {text : List Char} (hlength : text.length = 2 * count) (h : ∀ c ∈ text, c.utf8Size = 1) :
    readPairs count text = .ok ((hexBytes text).map (List.map UInt8.ofNat)) := by
  induction count generalizing text with
  | zero =>
    obtain rfl := List.length_eq_zero_iff.1 hlength
    rfl
  | succ count ih =>
    cases text with
    | nil =>
      rw [List.length_nil] at hlength
      omega
    | cons c text =>
      cases text with
      | nil =>
        rw [List.length_singleton] at hlength
        omega
      | cons d rest =>
        rw [List.length_cons, List.length_cons] at hlength
        obtain ⟨hc, htail⟩ := List.forall_mem_cons.1 h
        obtain ⟨hd, hrest⟩ := List.forall_mem_cons.1 htail
        have htwo : byteLength [c, d] = 2 := by rw [byteLength_cons, byteLength_cons, byteLength_nil, hc, hd]
        have hcut : splitAtByte (c :: d :: rest) 2 = some ([c, d], rest) := splitAtByte_eq_some_iff.2 ⟨rfl, htwo⟩
        rw [readPairs, hcut, hexBytes]
        dsimp only
        rw [fromStrRadix16_two]
        cases hexByte c d with
        | none => rfl
        | some byte =>
          rw [Option.map_some]
          dsimp only
          rw [ih (by omega) hrest]
          cases hexBytes rest <;> rfl

theorem ascii_of_readPairs {count : Nat} {text : List Char} {bytes : List UInt8} (hlength : byteLength text = 2 * count)
    (h : readPairs count text = .ok (some bytes)) : ∀ c ∈ text, c.utf8Size = 1 := by
  induction count generalizing text bytes with
  | zero =>
    have hle := length_le_byteLength text
    obtain rfl : text = [] := List.length_eq_zero_iff.1 (by omega)
    exact fun _ hmem => absurd hmem List.not_mem_nil
  | succ count ih =>
    obtain ⟨pair, rest, rfl, hpair, ⟨-, hnone⟩ | ⟨byte, others, hreadable, hothers, hsome⟩⟩ := readPairs_succ h
    · cases hnone
    · rw [byteLength_append] at hlength
      obtain ⟨tail, rfl, -⟩ := Option.map_eq_some_iff.1 hsome.symm
      exact List.forall_mem_append.2 ⟨hreadable.ascii, ih (by omega) hothers⟩

/-! ## The texts that are read -/

theorem byteLength_of_digits {text : List Char} (h : ∀ c ∈ text, IsHex c) : byteLength text = text.length :=
  byteLength_of_ascii fun c hc => (hexDigit_spec (h c hc)).2.2.1

theorem EndsEarly.not_digits {hex : List Char} (h : EndsEarly hex) : ¬ ∀ c ∈ hex, IsHex c := by
  obtain ⟨pairs, pair, rest, rfl, -, hpair, hstop⟩ := h
  intro hdigits
  have hmem : ∀ c ∈ pair, IsHex c := fun c hc => hdigits c (List.mem_append_left _ (List.mem_append_right _ hc))
  rcases pair_cases hpair with ⟨c, rfl, hsize⟩ | ⟨c, d, rfl, -, -⟩
  · have hone := (hexDigit_spec (hmem c (List.mem_singleton_self c))).2.2.1
    omega
  · exact hstop ⟨c, d, rfl, .inr (hmem c List.mem_cons_self), hmem d (List.mem_cons_of_mem _ List.mem_cons_self)⟩

theorem stripSha256_eq_some_iff {value : Fingerprint} {hex : List Char} :
    stripSha256 value = some hex ↔ value.asStr.toList = "sha256:".toList ++ hex := dropPrefix?_eq_some_iff

theorem prefixed_toList (hex : List Char) :
    (Fingerprint.asStr ⟨"sha256:" ++ String.ofList hex⟩).toList = "sha256:".toList ++ hex := by
  change ("sha256:" ++ String.ofList hex).toList = _
  rw [String.toList_append]
  exact congrArg ("sha256:".toList ++ ·) String.toList_ofList

theorem sha256Bytes_eq (value : Fingerprint) : sha256Bytes value = (stripSha256 value).bind fun hex =>
    if hex.length = 64 ∧ hex.all (·.toNat < 128) then hexBytes hex else none := by
  unfold sha256Bytes
  split
  · next hex htext => rw [stripSha256_eq_some_iff.2 htext, Option.bind_some]
  · next hother =>
    cases hstrip : stripSha256 value with
    | none => rfl
    | some hex => exact absurd (stripSha256_eq_some_iff.1 hstrip) (hother hex)

theorem map_toNat_hexBytes {text : List Char} {bytes : List Nat} (h : hexBytes text = some bytes) :
    (bytes.map UInt8.ofNat).map UInt8.toNat = bytes := by
  induction text using hexBytes.induct generalizing bytes with
  | case1 =>
    cases h
    rfl
  | case2 high low rest ih =>
    obtain ⟨byte, hbyte, h⟩ := Option.bind_eq_some_iff.1 h
    obtain ⟨others, hothers, h⟩ := Option.bind_eq_some_iff.1 h
    cases h
    rw [List.map_cons, List.map_cons, ih hothers, UInt8.toNat_ofNat_of_lt' (hexByte_lt hbyte)]
  | case3 => cases h

/-- Where the slices do not panic the digest is that of `sha256Bytes`. -/
theorem sha256BytesSliced_eq {value : Fingerprint} {found : Option (List UInt8)} (h : sha256BytesSliced value = .ok found) :
    sha256Bytes value = found.map (List.map UInt8.toNat) := by
  rw [sha256Bytes_eq]
  rw [sha256BytesSliced] at h
  cases hstrip : stripSha256 value with
  | none =>
    rw [hstrip] at h
    cases h
    rfl
  | some hex =>
    rw [hstrip] at h
    dsimp only at h
    rw [Option.bind_some]
    by_cases hascii : hex.length = 64 ∧ hex.all (·.toNat < 128) = true
    · have hone : ∀ c ∈ hex, c.utf8Size = 1 := fun c hc => utf8Size_of_toNat_lt (of_decide_eq_true (List.all_eq_true.1 hascii.2 c hc))
      have hlength : byteLength hex = 64 := (byteLength_of_ascii hone).trans hascii.1
      rw [if_neg (not_not_intro hlength), hexPairs_range, readPairs_of_ascii hascii.1 hone] at h
      rw [if_pos hascii, ← Except.ok.inj h]
      cases hbytes : hexBytes hex with
      | none => rfl
      | some bytes =>
        rw [Option.map_some, Option.map_some, map_toNat_hexBytes hbytes]
    · rw [if_neg hascii]
      cases found with
      | none => rfl
      | some bytes =>
        by_cases hlength : byteLength hex = 64
        · rw [if_neg (not_not_intro hlength), hexPairs_range] at h
          have hone := ascii_of_readPairs (show byteLength hex = 2 * 32 from hlength) h
          refine absurd ⟨(byteLength_of_ascii hone).symm.trans hlength, List.all_eq_true.2 fun c hc => ?_⟩ hascii
          exact decide_eq_true (toNat_lt_of_utf8Size (hone c hc))
        · rw [if_pos hlength] at h
          cases h

/-- A `sha256:` fingerprint with 64 hexadecimal digits. -/
def IsSha256 (value : Fingerprint) : Prop :=
  ∃ hex, value.asStr.toList = "sha256:".toList ++ hex ∧ hex.length = 64 ∧ ∀ c ∈ hex, IsHex c

/-- Behind the prefix stand not 64 bytes, or digits only, or a pair that neither parser takes and no cut character before it. -/
def DigestReadAlike (value : Fingerprint) : Prop :=
  ∀ hex, value.asStr.toList = "sha256:".toList ++ hex → byteLength hex = 64 → (∀ c ∈ hex, IsHex c) ∨ EndsEarly hex

/-- What the two parsers should do with a fingerprint. -/
structure ParsersAgree (value : Fingerprint) : Prop where
  orchestrator_returns : ∃ found, sha256BytesSliced value = .ok found
  adapter_returns : ∃ result, WorkerAdapter.sha256Bytes value = returning result
  same : ∀ bytes, sha256BytesSliced value = .ok (some bytes) ↔ WorkerAdapter.sha256Bytes value = returning (.ok bytes)
  length : ∀ bytes, sha256BytesSliced value = .ok (some bytes) → bytes.length = 32
  accepts : (∃ bytes, sha256BytesSliced value = .ok (some bytes)) ↔ IsSha256 value
  restores : ∀ bytes, sha256BytesSliced value = .ok (some bytes) → ∃ written,
    WorkerAdapter.sha256Fingerprint bytes = .ok written ∧ written.asStr.toList = value.asStr.toList.map Char.toLower

theorem returning_inj {E α : Type} {a b : Except E α} (h : returning a = returning b) : a = b := Except.ok.inj h

/-- What both refuse they agree on. -/
theorem parsersAgree_of_refused {value : Fingerprint} {error : AdapterError} (hsliced : sha256BytesSliced value = .ok none)
    (hadapter : WorkerAdapter.sha256Bytes value = returning (.error error)) (hnot : ¬ IsSha256 value) : ParsersAgree value := by
  have hrefused : ∀ bytes, sha256BytesSliced value ≠ .ok (some bytes) := by
    intro bytes h
    rw [hsliced] at h
    cases h
  refine ⟨⟨none, hsliced⟩, ⟨_, hadapter⟩, fun bytes => iff_of_false (hrefused bytes) ?_, fun bytes h => absurd h (hrefused bytes),
    iff_of_false (fun ⟨bytes, h⟩ => hrefused bytes h) hnot, fun bytes h => absurd h (hrefused bytes)⟩
  intro h
  rw [hadapter] at h
  cases returning_inj h

theorem sha256BytesSliced_of {value : Fingerprint} {hex : List Char} (hvalue : value.asStr.toList = "sha256:".toList ++ hex)
    (hlength : byteLength hex = 64) : sha256BytesSliced value = readPairs 32 hex := by
  rw [sha256BytesSliced, stripSha256_eq_some_iff.2 hvalue]
  dsimp only
  rw [if_neg (not_not_intro hlength), hexPairs_range]

theorem sha256Bytes_of_not_digits {value : Fingerprint} {hex : List Char} (hvalue : value.asStr.toList = "sha256:".toList ++ hex)
    (h : ¬ ∀ c ∈ hex, IsHex c) :
    WorkerAdapter.sha256Bytes value = returning (.error (.invalid "sha256 fingerprint encoding")) := by
  have hall : hex.all (fun c => (hexDigit c).isSome) = false := by
    rw [← Bool.not_eq_true, List.all_eq_true]
    exact h
  rw [WorkerAdapter.sha256Bytes, stripSha256_eq_some_iff.2 hvalue]
  exact if_pos (.inr hall)

theorem sha256Bytes_of_digits {value : Fingerprint} {hex : List Char} {bytes : List UInt8}
    (hvalue : value.asStr.toList = "sha256:".toList ++ hex) (hlength : byteLength hex = 64) (h : ∀ c ∈ hex, IsHex c)
    (hread : readPairs 32 hex = .ok (some bytes)) : WorkerAdapter.sha256Bytes value = returning (.ok bytes) := by
  have hall : ¬ (byteLength hex ≠ 64 ∨ hex.all (fun c => (hexDigit c).isSome) = false) := by
    rintro (hne | hsome)
    · exact hne hlength
    · rw [← Bool.not_eq_true, List.all_eq_true] at hsome
      exact hsome h
  rw [WorkerAdapter.sha256Bytes, stripSha256_eq_some_iff.2 hvalue]
  dsimp only
  rw [if_neg hall, hexPairs_range, panicking_bind hread]

/-- Digits are read alike by both, and written back in lower case. -/
theorem parsersAgree_of_digits {value : Fingerprint} {hex : List Char} (hvalue : value.asStr.toList = "sha256:".toList ++ hex)
    (hlength : hex.length = 64) (h : ∀ c ∈ hex, IsHex c) : ParsersAgree value := by
  have hbytes : byteLength hex = 64 := by rw [byteLength_of_digits h, hlength]
  obtain ⟨bytes, hread, hcount, hwritten⟩ := readPairs_of_digits (show hex.length = 2 * 32 from hlength) h
  have hsliced : sha256BytesSliced value = .ok (some bytes) := (sha256BytesSliced_of hvalue hbytes).trans hread
  have hadapter := sha256Bytes_of_digits hvalue hbytes h hread
  have honly : ∀ other, sha256BytesSliced value = .ok (some other) ↔ other = bytes := by
    intro other
    rw [hsliced, Except.ok.injEq, Option.some.injEq, eq_comm]
  refine ⟨⟨_, hsliced⟩, ⟨_, hadapter⟩, ?_, ?_, iff_of_true ⟨bytes, hsliced⟩ ⟨hex, hvalue, hlength, h⟩, ?_⟩
  · intro other
    rw [honly, hadapter]
    exact ⟨fun heq => heq ▸ rfl, fun heq => (Except.ok.inj (returning_inj heq)).symm⟩
  · intro other hother
    rw [(honly other).1 hother, hcount]
  · intro other hother
    rw [(honly other).1 hother]
    refine ⟨⟨"sha256:" ++ String.ofList (bytes.flatMap BlobFile.hexByte)⟩, if_neg (not_not_intro hcount), ?_⟩
    rw [prefixed_toList, hwritten, hvalue, List.map_append]
    rfl

/-- The texts on which the parsers are one function, with the digests it should have. -/
theorem parsersAgree_of_readAlike {value : Fingerprint} (h : DigestReadAlike value) : ParsersAgree value := by
  cases hstrip : stripSha256 value with
  | none =>
    refine parsersAgree_of_refused (by rw [sha256BytesSliced, hstrip]) (by rw [WorkerAdapter.sha256Bytes, hstrip]) ?_
    rintro ⟨hex, hvalue, -, -⟩
    rw [stripSha256_eq_some_iff.2 hvalue] at hstrip
    cases hstrip
  | some hex =>
    have hvalue := stripSha256_eq_some_iff.1 hstrip
    have hsame : ∀ other, value.asStr.toList = "sha256:".toList ++ other → other = hex := by
      intro other hother
      exact List.append_cancel_left (hother.symm.trans hvalue)
    by_cases hlength : byteLength hex = 64
    · rcases h hex hvalue hlength with hdigits | hends
      · exact parsersAgree_of_digits hvalue (by rw [← byteLength_of_digits hdigits, hlength]) hdigits
      · refine parsersAgree_of_refused ?_ (sha256Bytes_of_not_digits hvalue hends.not_digits) ?_
        · exact (sha256BytesSliced_of hvalue hlength).trans (readPairs_of_endsEarly hlength hends)
        · rintro ⟨other, hother, -, hdigits⟩
          rw [hsame other hother] at hdigits
          exact hends.not_digits hdigits
    · have hsliced : sha256BytesSliced value = .ok none := by
        rw [sha256BytesSliced, hstrip]
        exact if_pos hlength
      have hadapter : WorkerAdapter.sha256Bytes value = returning (.error (.invalid "sha256 fingerprint encoding")) := by
        rw [WorkerAdapter.sha256Bytes, hstrip]
        exact if_pos (.inl hlength)
      refine parsersAgree_of_refused hsliced hadapter ?_
      rintro ⟨other, hother, hcount, hdigits⟩
      obtain rfl := hsame other hother
      exact hlength ((byteLength_of_digits hdigits).trans hcount)

theorem ParsersAgree.readAlike {value : Fingerprint} (h : ParsersAgree value) : DigestReadAlike value := by
  intro hex hvalue hlength
  obtain ⟨found, hfound⟩ := h.orchestrator_returns
  cases found with
  | none => exact .inr (endsEarly_of_readPairs ((sha256BytesSliced_of hvalue hlength).symm.trans hfound))
  | some bytes =>
    obtain ⟨other, hother, -, hdigits⟩ := h.accepts.1 ⟨bytes, hfound⟩
    obtain rfl := List.append_cancel_left (hvalue.symm.trans hother)
    exact .inl hdigits

/-- The parsers are one function on a text exactly if it is read alike. -/
theorem parsersAgree_iff (value : Fingerprint) : ParsersAgree value ↔ DigestReadAlike value :=
  ⟨ParsersAgree.readAlike, parsersAgree_of_readAlike⟩

def signedDigits : List Char := (List.replicate 32 ['+', 'a']).flatten

def accentedDigits : List Char := 'a' :: List.replicate 31 'é' ++ ['a']

/-- Plus signs are read as digits by the orchestrator, and a character across two pairs is cut. -/
theorem signed_digits_accepted :
    sha256BytesSliced ⟨"sha256:" ++ String.ofList signedDigits⟩ = .ok (some (List.replicate 32 10)) ∧
      WorkerAdapter.sha256Bytes ⟨"sha256:" ++ String.ofList signedDigits⟩ =
        returning (.error (.invalid "sha256 fingerprint encoding")) ∧
      sha256BytesSliced ⟨"sha256:" ++ String.ofList accentedDigits⟩ = .error .charBoundary ∧
      WorkerAdapter.sha256Bytes ⟨"sha256:" ++ String.ofList accentedDigits⟩ =
        returning (.error (.invalid "sha256 fingerprint encoding")) ∧
      ¬ ∀ value, ParsersAgree value := by
  have hsigned := (sha256BytesSliced_of (prefixed_toList signedDigits) (by decide)).trans
    (by decide +kernel : readPairs 32 signedDigits = .ok (some (List.replicate 32 10)))
  have haccented := (sha256BytesSliced_of (prefixed_toList accentedDigits) (by decide)).trans
    (by decide : readPairs 32 accentedDigits = .error .charBoundary)
  refine ⟨hsigned, sha256Bytes_of_not_digits (prefixed_toList _) (fun h => ?_), haccented,
    sha256Bytes_of_not_digits (prefixed_toList _) (fun h => ?_), fun h => ?_⟩
  · exact absurd (h '+' (by decide)) (by decide)
  · exact absurd (h 'é' (by decide)) (by decide)
  · obtain ⟨found, hfound⟩ := (h _).orchestrator_returns
    rw [haccented] at hfound
    cases hfound

end Kide
