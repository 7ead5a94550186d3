import Mathlib.Algebra.Order.Ring.Nat
import Mathlib.Data.List.TakeWhile
import Mathlib.Data.List.Basic

/-!
# Text by bytes

A text is the list of its characters; an offset counts the bytes of their UTF-8 encoding.

* `byteLength`: the bytes of a text; `splitAtByte`: a text cut at a byte offset, where a character begins there;
* `afterLast`, `beforeFirst`: what follows the last and what precedes the first of a character;
* `splitInclusive`: the pieces of a text, each with the separator that ends it.

A piece is read off a text by the two ways it can begin: `splitInclusive_of_not_mem` and
`splitInclusive_append_cons`.
-/

namespace Text

/-! ## Bytes -/

def byteLength (l : List Char) : Nat := (l.map Char.utf8Size).sum

@[simp] theorem byteLength_nil : byteLength [] = 0 := rfl

@[simp] theorem byteLength_cons (c : Char) (l : List Char) : byteLength (c :: l) = c.utf8Size + byteLength l := rfl

@[simp] theorem byteLength_append (a b : List Char) : byteLength (a ++ b) = byteLength a + byteLength b := by
  unfold byteLength
  rw [List.map_append, List.sum_append]

theorem length_le_byteLength (l : List Char) : l.length ≤ byteLength l := by
  induction l with
  | nil => exact Nat.le_refl 0
  | cons c l ih =>
    have hsize := c.utf8Size_pos
    rw [List.length_cons, byteLength_cons]
    omega

/-- The bytes of a string are those of its encoding. -/
theorem byteLength_toList (s : String) : byteLength s.toList = s.toByteArray.data.toList.length := by
  have hencoded : s.toByteArray.data.toList = s.toList.flatMap String.utf8EncodeChar := by
    rw [← String.utf8Encode_toList, List.utf8Encode, List.toList_data_toByteArray]
  rw [hencoded, List.length_flatMap]
  simp only [String.length_utf8EncodeChar, byteLength]

/-- What is before and what is after an offset, if a character begins there. -/
def splitAtByte : List Char → Nat → Option (List Char × List Char)
  | l, 0 => some ([], l)
  | [], _ + 1 => none
  | c :: l, n + 1 =>
    if c.utf8Size ≤ n + 1 then (splitAtByte l (n + 1 - c.utf8Size)).map fun cut => (c :: cut.1, cut.2) else none

@[simp] theorem splitAtByte_zero (l : List Char) : splitAtByte l 0 = some ([], l) := by
  cases l <;> rfl

theorem splitAtByte_cons_add (c : Char) (l : List Char) (n : Nat) :
    splitAtByte (c :: l) (c.utf8Size + n) = (splitAtByte l n).map fun cut => (c :: cut.1, cut.2) := by
  obtain ⟨m, hm⟩ : ∃ m, c.utf8Size + n = m + 1 := ⟨c.utf8Size + n - 1, by have := Char.utf8Size_pos c; omega⟩
  rw [hm, splitAtByte, if_pos (by omega), show m + 1 - c.utf8Size = n by omega]

theorem splitAtByte_append (a b : List Char) : splitAtByte (a ++ b) (byteLength a) = some (a, b) := by
  induction a with
  | nil => exact splitAtByte_zero b
  | cons c a ih => rw [List.cons_append, byteLength_cons, splitAtByte_cons_add, ih, Option.map_some]

theorem splitAtByte_eq_some_iff {l a b : List Char} {n : Nat} :
    splitAtByte l n = some (a, b) ↔ l = a ++ b ∧ byteLength a = n := by
  constructor
  · induction l generalizing n a with
    | nil =>
      intro h
      cases n with
      | zero => cases h; exact ⟨rfl, rfl⟩
      | succ n => cases h
    | cons c l ih =>
      intro h
      cases n with
      | zero => cases h; exact ⟨rfl, rfl⟩
      | succ n =>
        rw [splitAtByte] at h
        split at h
        · next hfits =>
          obtain ⟨cut, hcut, heq⟩ := Option.map_eq_some_iff.1 h
          cases heq
          obtain ⟨rfl, hlength⟩ := ih hcut
          refine ⟨rfl, ?_⟩
          rw [byteLength_cons, hlength]
          omega
        · cases h
  · rintro ⟨rfl, rfl⟩
    exact splitAtByte_append a b

/-- Cuts of one text at one offset are the same. -/
theorem append_inj_of_byteLength {a b a' b' : List Char} (h : a ++ b = a' ++ b') (hlength : byteLength a = byteLength a') :
    a = a' ∧ b = b' := by
  have hcut := splitAtByte_append a b
  rw [h, hlength, splitAtByte_append a' b'] at hcut
  obtain ⟨ha, hb⟩ := Prod.mk.inj (Option.some.inj hcut)
  exact ⟨ha.symm, hb.symm⟩

/-! ## Around a separator -/

section
variable (sep : Char)

/-- What follows the last separator. -/
def afterLast (l : List Char) : List Char := (l.reverse.takeWhile (· ≠ sep)).reverse

/-- What precedes the first separator. -/
def beforeFirst (l : List Char) : List Char := l.takeWhile (· ≠ sep)

variable {sep}

theorem takeWhile_of_not_mem {l : List Char} (h : sep ∉ l) : l.takeWhile (· ≠ sep) = l := by
  rw [List.takeWhile_eq_self_iff]
  intro c hc
  exact decide_eq_true fun heq => h (heq ▸ hc)

theorem takeWhile_append_sep {l rest : List Char} (h : sep ∉ l) : (l ++ sep :: rest).takeWhile (· ≠ sep) = l := by
  have hpos : ∀ c ∈ l, decide (c ≠ sep) = true := fun c hc => decide_eq_true fun heq => h (heq ▸ hc)
  rw [List.takeWhile_append_of_pos hpos, List.takeWhile_cons_of_neg (by simp), List.append_nil]

theorem afterLast_of_not_mem {l : List Char} (h : sep ∉ l) : afterLast sep l = l := by
  unfold afterLast
  rw [takeWhile_of_not_mem (by simpa using h), List.reverse_reverse]

theorem afterLast_append_sep {l rest : List Char} (h : sep ∉ rest) : afterLast sep (l ++ sep :: rest) = rest := by
  unfold afterLast
  rw [List.reverse_append, List.reverse_cons, List.append_assoc, List.singleton_append,
    takeWhile_append_sep (by simpa using h), List.reverse_reverse]

theorem afterLast_suffix (sep : Char) (l : List Char) : ∃ front, l = front ++ afterLast sep l := by
  refine ⟨(l.reverse.dropWhile (· ≠ sep)).reverse, ?_⟩
  unfold afterLast
  rw [← List.reverse_append, List.takeWhile_append_dropWhile, List.reverse_reverse]

theorem length_afterLast_le (sep : Char) (l : List Char) : (afterLast sep l).length ≤ l.length := by
  obtain ⟨front, hfront⟩ := afterLast_suffix sep l
  have hlength := congrArg List.length hfront
  rw [List.length_append] at hlength
  omega

/-- A text without the separator, or what is before the first one, or what is after the last one. -/
theorem exists_first {l : List Char} (h : sep ∈ l) : ∃ before after, l = before ++ sep :: after ∧ sep ∉ before :=
  let ⟨before, after, hl, hbefore⟩ := List.eq_append_cons_of_mem h
  ⟨before, after, hl, hbefore⟩

theorem exists_last {l : List Char} (h : sep ∈ l) : ∃ before after, l = before ++ sep :: after ∧ sep ∉ after := by
  obtain ⟨a, b, hl, ha⟩ := exists_first (List.mem_reverse.2 h)
  refine ⟨b.reverse, a.reverse, ?_, by simpa using ha⟩
  have hrev := congrArg List.reverse hl
  simpa using hrev

/-- A whole first piece does not matter to what follows the last separator. -/
theorem afterLast_append_cons (line rest : List Char) : afterLast sep (line ++ sep :: rest) = afterLast sep rest := by
  by_cases h : sep ∈ rest
  · obtain ⟨before, after, rfl, hafter⟩ := exists_last h
    rw [afterLast_append_sep hafter, show line ++ sep :: (before ++ sep :: after) = (line ++ sep :: before) ++ sep :: after by
      simp, afterLast_append_sep hafter]
  · rw [afterLast_append_sep h, afterLast_of_not_mem h]

end

/-! ## Pieces -/

/-- `split_inclusive` -/
def splitInclusive (sep : Char) : List Char → List (List Char)
  | [] => []
  | c :: l =>
    if c = sep then [c] :: splitInclusive sep l
    else
      match splitInclusive sep l with
      | [] => [[c]]
      | piece :: pieces => (c :: piece) :: pieces

section
variable {sep : Char}

theorem splitInclusive_of_not_mem {l : List Char} (h : sep ∉ l) (hne : l ≠ []) : splitInclusive sep l = [l] := by
  induction l with
  | nil => exact absurd rfl hne
  | cons c l ih =>
    have hc : c ≠ sep := fun heq => h (heq ▸ List.mem_cons_self)
    rw [splitInclusive, if_neg hc]
    cases l with
    | nil => rfl
    | cons d l => rw [ih (fun hmem => h (List.mem_cons_of_mem _ hmem)) (List.cons_ne_nil d l)]

theorem splitInclusive_append_cons {line rest : List Char} (h : sep ∉ line) :
    splitInclusive sep (line ++ sep :: rest) = (line ++ [sep]) :: splitInclusive sep rest := by
  induction line with
  | nil => rw [List.nil_append, splitInclusive, if_pos rfl, List.nil_append]
  | cons c line ih =>
    have hc : c ≠ sep := fun heq => h (heq ▸ List.mem_cons_self)
    rw [List.cons_append, splitInclusive, if_neg hc, ih fun hmem => h (List.mem_cons_of_mem _ hmem)]
    rfl

theorem splitInclusive_ne_nil {l : List Char} (h : l ≠ []) : splitInclusive sep l ≠ [] := by
  cases l with
  | nil => exact absurd rfl h
  | cons c l =>
    rw [splitInclusive]
    split
    · exact List.cons_ne_nil _ _
    · split <;> exact List.cons_ne_nil _ _

theorem splitInclusive_append (text rest : List Char) :
    splitInclusive sep (text ++ sep :: rest) = splitInclusive sep (text ++ [sep]) ++ splitInclusive sep rest := by
  induction text with
  | nil => simp [splitInclusive]
  | cons c text ih =>
    rw [List.cons_append, List.cons_append, splitInclusive, splitInclusive, ih]
    by_cases hc : c = sep
    · rw [if_pos hc, if_pos hc, List.cons_append]
    · have hne : splitInclusive sep (text ++ [sep]) ≠ [] :=
        splitInclusive_ne_nil (List.append_ne_nil_of_right_ne_nil _ (List.cons_ne_nil _ _))
      obtain ⟨piece, pieces, hpieces⟩ := List.exists_cons_of_ne_nil hne
      rw [if_neg hc, if_neg hc, hpieces]
      rfl

/-- `strip_suffix(sep).unwrap_or(..)` of a piece. -/
def stripSuffix (sep : Char) (l : List Char) : List Char := if l.getLast? = some sep then l.dropLast else l

theorem stripSuffix_append (l : List Char) : stripSuffix sep (l ++ [sep]) = l := by
  unfold stripSuffix
  rw [List.getLast?_append, List.getLast?_singleton, Option.some_or, if_pos rfl, List.dropLast_concat]

theorem stripSuffix_of_not_mem {l : List Char} (h : sep ∉ l) : stripSuffix sep l = l := by
  unfold stripSuffix
  rw [if_neg fun hlast => h (List.mem_of_getLast? hlast)]

end

end Text
