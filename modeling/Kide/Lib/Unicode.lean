import Mathlib.Data.List.Basic
import Mathlib.Data.String.Basic

/-!
# Quoted and lower-case strings

* `debug`: a string between quotes, with the escapes of a debug print;
* `toLowercase`: lower case character by character, with the two forms of a small sigma.

Both read the Unicode tables, which are a parameter (`Data`). Neither makes a string shorter, and on ASCII
`toLowercase` is `Char.toLower`.
-/

namespace Unicode

/-- The tables, with what is known of them: no character has an empty lower case, and ASCII is as usual. -/
structure Data where
  graphemeExtended : Char → Bool
  printable : Char → Bool
  cased : Char → Bool
  caseIgnorable : Char → Bool
  lowercase : Char → List Char
  lowercase_ne_nil : ∀ c, lowercase c ≠ []
  lowercase_ascii : ∀ c, c.toNat < 128 → lowercase c = [c.toLower]

/-- `char::is_whitespace` -/
def isWhitespace (c : Char) : Bool :=
  (9 ≤ c.toNat ∧ c.toNat ≤ 13) ∨ c.toNat = 0x20 ∨ c.toNat = 0x85 ∨ c.toNat = 0xa0 ∨ c.toNat = 0x1680 ∨
    (0x2000 ≤ c.toNat ∧ c.toNat ≤ 0x200a) ∨ c.toNat = 0x2028 ∨ c.toNat = 0x2029 ∨ c.toNat = 0x202f ∨ c.toNat = 0x205f ∨
    c.toNat = 0x3000

variable (data : Data)

/-! ## Debug print -/

def backslash : Char := Char.ofNat 0x5c

def quote : Char := Char.ofNat 0x22

def escapeUnicode (c : Char) : List Char :=
  backslash :: 'u' :: Char.ofNat 0x7b :: (Nat.toDigits 16 c.toNat ++ [Char.ofNat 0x7d])

def escapeDebug (c : Char) : List Char :=
  if c.toNat = 0 then [backslash, '0']
  else if c = '\t' then [backslash, 't']
  else if c = '\r' then [backslash, 'r']
  else if c = '\n' then [backslash, 'n']
  else if c = backslash then [backslash, backslash]
  else if c = quote then [backslash, quote]
  else if data.graphemeExtended c then escapeUnicode c
  else if data.printable c then [c]
  else escapeUnicode c

def debug (s : String) : String := String.ofList (quote :: (s.toList.flatMap (escapeDebug data) ++ [quote]))

theorem length_escapeDebug_pos (c : Char) : 1 ≤ (escapeDebug data c).length := by
  unfold escapeDebug escapeUnicode
  split_ifs <;> simp

theorem length_le_flatMap {α β : Type} {f : α → List β} (h : ∀ a, 1 ≤ (f a).length) (l : List α) :
    l.length ≤ (l.flatMap f).length := by
  induction l with
  | nil => exact Nat.le_refl 0
  | cons a l ih =>
    have := h a
    rw [List.flatMap_cons, List.length_append, List.length_cons]
    omega

theorem length_le_debug (s : String) : s.length ≤ (debug data s).length := by
  have := length_le_flatMap (length_escapeDebug_pos data) s.toList
  rw [debug, String.length_ofList, List.length_cons, List.length_append]
  rw [String.length_toList] at this
  omega

/-! ## Lower case -/

def capitalSigma : Char := Char.ofNat 0x3a3

/-- The characters up to the first that is not ignored end with a cased one. -/
def ignorableThenCased (chars : List Char) : Bool :=
  match chars.dropWhile data.caseIgnorable with
  | c :: _ => data.cased c
  | [] => false

/-- A capital sigma at the end of a word has a small form of its own. -/
def smallSigma (before after : List Char) : Char :=
  if ignorableThenCased data before ∧ ¬ ignorableThenCased data after then Char.ofNat 0x3c2 else Char.ofNat 0x3c3

/-- `before` is what precedes the characters, last first. -/
def lowerFrom (before : List Char) : List Char → List Char
  | [] => []
  | c :: after =>
    (if c = capitalSigma then [smallSigma data before after] else data.lowercase c) ++ lowerFrom (c :: before) after

def toLowercase (s : String) : String := String.ofList (lowerFrom data [] s.toList)

theorem length_le_lowerFrom (before chars : List Char) : chars.length ≤ (lowerFrom data before chars).length := by
  induction chars generalizing before with
  | nil => exact Nat.le_refl 0
  | cons c after ih =>
    have hrest := ih (c :: before)
    have hpos : 1 ≤ (if c = capitalSigma then [smallSigma data before after] else data.lowercase c).length := by
      split
      · exact Nat.le_refl 1
      · exact List.length_pos_iff.2 (data.lowercase_ne_nil c)
    rw [lowerFrom, List.length_append, List.length_cons]
    omega

theorem length_le_toLowercase (s : String) : s.length ≤ (toLowercase data s).length := by
  have := length_le_lowerFrom data [] s.toList
  rw [toLowercase, String.length_ofList]
  rwa [String.length_toList] at this

theorem lowerFrom_ascii {chars : List Char} (h : ∀ c ∈ chars, c.toNat < 128) (before : List Char) :
    lowerFrom data before chars = chars.map Char.toLower := by
  induction chars generalizing before with
  | nil => rfl
  | cons c after ih =>
    obtain ⟨hc, hafter⟩ := List.forall_mem_cons.1 h
    have hsigma : c ≠ capitalSigma := by
      rintro rfl
      exact absurd hc (by decide)
    rw [lowerFrom, if_neg hsigma, data.lowercase_ascii c hc, ih hafter]
    rfl

theorem toLowercase_ascii {s : String} (h : s.toList.all (·.toNat < 128) = true) :
    toLowercase data s = String.ofList (s.toList.map Char.toLower) := by
  have hascii : ∀ c ∈ s.toList, c.toNat < 128 := fun c hc => of_decide_eq_true (List.all_eq_true.1 h c hc)
  rw [toLowercase, lowerFrom_ascii data hascii]

/-- Tables that know ASCII only. -/
def ascii : Data where
  graphemeExtended _ := false
  printable c := 32 ≤ c.toNat ∧ c.toNat < 127
  cased c := c.isAlpha
  caseIgnorable c := c ∈ [Char.ofNat 0x27, '.', ':', '^', Char.ofNat 0x60]
  lowercase c := [c.toLower]
  lowercase_ne_nil _ := List.cons_ne_nil _ _
  lowercase_ascii _ _ := rfl

end Unicode
