import Kide.Lib.Checks
import Kide.Lib.Text

/-!
# Expressions that can panic

Slices and unsigned arithmetic with the panic as an outcome of its own, beside the results that the program handles.

* `slice`: a range of a list, for the elements of an array or the bytes of a buffer;
* `textTo`, `textFrom`, `textSlice`: ranges of a text by bytes, which must begin and end where characters do;
* `addWithin`, `sub`: sums below a width and differences that are not negative.

Each has an `_eq_ok_iff` with the bounds under which it returns.

`Fallible E`: a computation that panics, or returns a result or an error of its own. `returning` is one that does not panic;
`returning_bind` and `panicking_bind` show step by step that a computation is one of these.
-/

namespace Panics
open Checks Text

inductive Panic where
  | sliceBounds | charBoundary | overflow
deriving DecidableEq, Repr

/-! ## Computations -/

section
variable {E α β : Type}

abbrev Fallible (E : Type) := ExceptT E (Except Panic)

def returning (result : Except E α) : Fallible E α := ExceptT.mk (.ok result)

def panicking (x : Except Panic α) : Fallible E α := ExceptT.lift x

theorem returning_bind {result : Except E α} {f : α → Fallible E β} {g : α → Except E β}
    (h : ∀ a, result = .ok a → f a = returning (g a)) : (returning result >>= f) = returning (result >>= g) := by
  cases result with
  | error e => rfl
  | ok a => exact h a rfl

theorem panicking_bind {x : Except Panic α} {a : α} (h : x = .ok a) (f : α → Fallible E β) : (panicking x >>= f) = f a := by
  subst h
  rfl

end

/-! ## Lists -/

section
variable {α : Type}

def slice (l : List α) (start stop : Nat) : Except Panic (List α) :=
  if start ≤ stop ∧ stop ≤ l.length then .ok ((l.drop start).take (stop - start)) else .error .sliceBounds

theorem slice_eq_ok_iff {l : List α} {start stop : Nat} {found : List α} : slice l start stop = .ok found ↔
    (start ≤ stop ∧ stop ≤ l.length) ∧ (l.drop start).take (stop - start) = found := by
  unfold slice
  split
  · next h => rw [Except.ok.injEq, and_iff_right h]
  · next h => exact iff_of_false (by intro heq; cases heq) fun hok => h hok.1

end

/-! ## Arithmetic -/

/-- A sum of a width of `bits`. -/
def addWithin (bits a b : Nat) : Except Panic Nat := if a + b < 2 ^ bits then .ok (a + b) else .error .overflow

def sub (a b : Nat) : Except Panic Nat := if b ≤ a then .ok (a - b) else .error .overflow

theorem addWithin_eq_ok_iff {bits a b c : Nat} : addWithin bits a b = .ok c ↔ a + b < 2 ^ bits ∧ a + b = c := by
  unfold addWithin
  split
  · next h => rw [Except.ok.injEq, and_iff_right h]
  · next h => exact iff_of_false (by intro heq; cases heq) fun hok => h hok.1

theorem sub_eq_ok_iff {a b c : Nat} : sub a b = .ok c ↔ b ≤ a ∧ a - b = c := by
  unfold sub
  split
  · next h => rw [Except.ok.injEq, and_iff_right h]
  · next h => exact iff_of_false (by intro heq; cases heq) fun hok => h hok.1

/-! ## Text -/

/-- `is_char_boundary` -/
def isCharBoundary (text : List Char) (offset : Nat) : Bool := (splitAtByte text offset).isSome

/-- `&text[..stop]` -/
def textTo (text : List Char) (stop : Nat) : Except Panic (List Char) :=
  match splitAtByte text stop with
  | some cut => .ok cut.1
  | none => .error .charBoundary

/-- `&text[start..]` -/
def textFrom (text : List Char) (start : Nat) : Except Panic (List Char) :=
  match splitAtByte text start with
  | some cut => .ok cut.2
  | none => .error .charBoundary

/-- `&text[start..stop]` -/
def textSlice (text : List Char) (start stop : Nat) : Except Panic (List Char) :=
  if start ≤ stop then do
    let rest ← textFrom text start
    textTo rest (stop - start)
  else .error .sliceBounds

theorem textTo_append (a b : List Char) : textTo (a ++ b) (byteLength a) = .ok a := by
  rw [textTo, splitAtByte_append]

theorem textFrom_append (a b : List Char) : textFrom (a ++ b) (byteLength a) = .ok b := by
  rw [textFrom, splitAtByte_append]

theorem isCharBoundary_iff {text : List Char} {offset : Nat} :
    isCharBoundary text offset = true ↔ ∃ before after, text = before ++ after ∧ byteLength before = offset := by
  rw [isCharBoundary, Option.isSome_iff_exists]
  constructor
  · rintro ⟨cut, hcut⟩
    exact ⟨cut.1, cut.2, splitAtByte_eq_some_iff.1 hcut⟩
  · rintro ⟨before, after, h⟩
    exact ⟨(before, after), splitAtByte_eq_some_iff.2 h⟩

/-- A text is cut before a later cut by a prefix. -/
theorem exists_between {a b c d : List Char} (h : a ++ b = c ++ d) (hle : byteLength a ≤ byteLength c) :
    ∃ between, c = a ++ between ∧ b = between ++ d := by
  rcases List.append_eq_append_iff.1 h with ⟨between, hc, hb⟩ | ⟨between, ha, hd⟩
  · exact ⟨between, hc, hb⟩
  · cases between with
    | nil => exact ⟨[], by simpa using ha.symm, by simpa using hd.symm⟩
    | cons x between =>
      have hpos := x.utf8Size_pos
      rw [ha, byteLength_append, byteLength_cons] at hle
      omega

theorem textSlice_append (a b c : List Char) : textSlice (a ++ b ++ c) (byteLength a) (byteLength (a ++ b)) = .ok b := by
  have hlength : byteLength (a ++ b) - byteLength a = byteLength b := by
    rw [byteLength_append]
    omega
  rw [textSlice, if_pos (by rw [byteLength_append]; omega), List.append_assoc, textFrom_append, ok_bind, hlength, textTo_append]

/-- The guards under which a slice of a text returns. -/
theorem textSlice_of_boundaries {text : List Char} {start stop : Nat} (hle : start ≤ stop) (hstart : isCharBoundary text start = true)
    (hstop : isCharBoundary text stop = true) : ∃ found, textSlice text start stop = .ok found := by
  obtain ⟨a, b, rfl, rfl⟩ := isCharBoundary_iff.1 hstart
  obtain ⟨c, d, heq, rfl⟩ := isCharBoundary_iff.1 hstop
  obtain ⟨between, rfl, -⟩ := exists_between heq hle
  rw [heq]
  exact ⟨between, textSlice_append a between d⟩

/-! ## Searches -/

/-- The bytes before the first of a character. -/
def find (c : Char) (text : List Char) : Option Nat := if c ∈ text then some (byteLength (beforeFirst c text)) else none

/-- The bytes before the last of a character. -/
def rfind (c : Char) (text : List Char) : Option Nat :=
  if c ∈ text then some (byteLength text - byteLength (afterLast c text) - c.utf8Size) else none

theorem rfind_append {c : Char} {after : List Char} (h : c ∉ after) (before : List Char) :
    rfind c (before ++ c :: after) = some (byteLength before) := by
  rw [rfind, if_pos (by simp), afterLast_append_sep h, byteLength_append, byteLength_cons]
  congr 1
  omega

theorem rfind_of_not_mem {c : Char} {text : List Char} (h : c ∉ text) : rfind c text = none := if_neg h

end Panics
