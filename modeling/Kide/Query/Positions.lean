import Kide.Lib.Text
import Kide.Store.Queries

/-!
# Lines, columns and bytes

The two scanners that turn a byte offset into a line and a column (`text_index.rs`, `navigation.rs`) and the one that
reads a line and a column back (`query_resolver.rs`). Columns count scalar values.

`line_column_inverse`: what the one side gives the other takes back, but for the offset behind a final line break and
that of an empty text, where there is no line for `byte_offset` to be on.
-/

namespace Kide
open Text

/-! ## The scanners -/

/-- One-based. -/
structure TextPosition where
  line : UInt32
  column : UInt32
deriving DecidableEq, Repr

structure Location where
  path : WorkspacePath
  position : TextPosition
deriving DecidableEq, Repr

inductive LocationResolutionError where
  | store (source : IndexStoreError)
  | invalidCoordinate
  | outOfRange
  | unknownPath (path : String)
  | ambiguousPath (path : String)
deriving DecidableEq

/-- The bytes before a scalar of a line, or all of the line at its end. -/
def columnOffset (line : List Char) (scalarOffset : Nat) : Option Nat :=
  if scalarOffset = line.length then some (byteLength line)
  else if scalarOffset < line.length then some (byteLength (line.take scalarOffset))
  else none

/-- The bytes before a scalar of a line of the text, both counted from zero. -/
def lineOffset (text : List Char) (index scalarOffset : Nat) : Option Nat := do
  let lineStart ← (splitInclusive '\n' text)[index]?
  let prefixBytes := byteLength ((splitInclusive '\n' text).take index).flatten
  let columnBytes ← columnOffset (stripSuffix '\n' lineStart) scalarOffset
  pure (prefixBytes + columnBytes)

def byteOffset (text : String) (position : TextPosition) : Except LocationResolutionError Nat :=
  if position.line = 0 ∨ position.column = 0 then .error .invalidCoordinate
  else
    match lineOffset text.toList (position.line.toNat - 1) (position.column.toNat - 1) with
    | some offset => .ok offset
    | none => .error .outOfRange

/-- `none` outside the text and inside a character. -/
def positionAt (text : String) (offset : Nat) : Option TextPosition :=
  (splitAtByte text.toList offset).map fun cut =>
    ⟨UInt32.ofNat (cut.1.count '\n') + 1, UInt32.ofNat (afterLast '\n' cut.1).length + 1⟩

def byteToLocation (text : String) (offset : Nat) : Option (Nat × Nat) :=
  (splitAtByte text.toList offset).map fun cut => (cut.1.count '\n' + 1, (afterLast '\n' cut.1).length + 1)

/-! ## A line of the text -/

theorem columnOffset_eq_some_iff {line : List Char} {scalarOffset offset : Nat} :
    columnOffset line scalarOffset = some offset ↔
      scalarOffset ≤ line.length ∧ byteLength (line.take scalarOffset) = offset := by
  unfold columnOffset
  by_cases hend : scalarOffset = line.length
  · rw [if_pos hend, hend, List.take_length, Option.some.injEq]
    exact ⟨fun h => ⟨Nat.le_refl _, h⟩, fun h => h.2⟩
  · rw [if_neg hend]
    by_cases hinside : scalarOffset < line.length
    · rw [if_pos hinside, Option.some.injEq]
      exact ⟨fun h => ⟨hinside.le, h⟩, fun h => h.2⟩
    · rw [if_neg hinside]
      exact ⟨fun h => (by cases h), fun h => absurd h.1 (by omega)⟩

/-- Before a cut on the first line there is no line break. -/
theorem prefix_of_first_line {line rest before after : List Char} (h : line ++ '\n' :: rest = before ++ after)
    (hbefore : '\n' ∉ before) : ∃ tail, line = before ++ tail := by
  rcases List.append_eq_append_iff.1 h with ⟨tail, hbefore', -⟩ | ⟨tail, hline, -⟩
  · cases tail with
    | nil => exact ⟨[], by simpa using hbefore'.symm⟩
    | cons c tail =>
      have hc : c = '\n' := by
        rw [hbefore', List.append_assoc, List.append_cancel_left_eq] at h
        exact (List.cons.inj h).1.symm
      exact absurd (by rw [hbefore', hc]; simp) hbefore
  · exact ⟨tail, hline⟩

/-- A cut that is not on the first line is behind its line break. -/
theorem prefix_of_later_line {line rest before after : List Char} (h : line ++ '\n' :: rest = before ++ after)
    (hline : '\n' ∉ line) (hbefore : '\n' ∈ before) :
    ∃ later, before = line ++ '\n' :: later ∧ rest = later ++ after := by
  rcases List.append_eq_append_iff.1 h with ⟨tail, hbefore', hrest⟩ | ⟨tail, hline', -⟩
  · cases tail with
    | nil => exact absurd (by simpa [hbefore'] using hbefore) hline
    | cons c tail =>
      obtain ⟨rfl, htail⟩ := List.cons.inj hrest
      exact ⟨tail, hbefore', htail⟩
  · exact absurd (by rw [hline']; exact List.mem_append_left _ hbefore) hline

theorem lineOffset_first {line : List Char} {pieces : List (List Char)} {piece text : List Char} {scalarOffset : Nat}
    (hpieces : splitInclusive '\n' text = piece :: pieces) (hstrip : stripSuffix '\n' piece = line) :
    lineOffset text 0 scalarOffset = columnOffset line scalarOffset := by
  unfold lineOffset
  rw [hpieces]
  simp [hstrip]

theorem lineOffset_later {line rest : List Char} {index scalarOffset : Nat} (h : '\n' ∉ line) :
    lineOffset (line ++ '\n' :: rest) (index + 1) scalarOffset =
      (lineOffset rest index scalarOffset).map (byteLength (line ++ ['\n']) + ·) := by
  unfold lineOffset
  rw [splitInclusive_append_cons h]
  simp only [List.getElem?_cons_succ, List.take_succ_cons, List.flatten_cons, byteLength_append (line ++ ['\n'])]
  cases (splitInclusive '\n' rest)[index]? with
  | none => rfl
  | some lineStart =>
    show (columnOffset (stripSuffix '\n' lineStart) scalarOffset).bind _ =
      ((columnOffset (stripSuffix '\n' lineStart) scalarOffset).bind _).map _
    cases columnOffset (stripSuffix '\n' lineStart) scalarOffset with
    | none => rfl
    | some columnBytes => exact congrArg some (Nat.add_assoc _ _ _)

/-- The cut is at the end of a text whose last line is empty. -/
def AtOpenEnd (before after : List Char) : Prop := after = [] ∧ afterLast '\n' before = []

/-- `lineOffset` finds the cut with so many line breaks before it and so many scalars behind the last of them. -/
theorem lineOffset_eq_some_iff {text : List Char} {index scalarOffset offset : Nat} :
    lineOffset text index scalarOffset = some offset ↔ ∃ before after, text = before ++ after ∧
      before.count '\n' = index ∧ (afterLast '\n' before).length = scalarOffset ∧ byteLength before = offset ∧
        ¬ AtOpenEnd before after := by
  induction index generalizing text offset with
  | zero =>
    by_cases hmem : '\n' ∈ text
    · obtain ⟨line, rest, rfl, hline⟩ := exists_first hmem
      rw [lineOffset_first (splitInclusive_append_cons hline) (stripSuffix_append line), columnOffset_eq_some_iff]
      constructor
      · rintro ⟨hlength, hoffset⟩
        have hbefore : '\n' ∉ line.take scalarOffset := fun h => hline (List.mem_of_mem_take h)
        refine ⟨line.take scalarOffset, line.drop scalarOffset ++ '\n' :: rest, ?_, List.count_eq_zero.2 hbefore, ?_, hoffset, ?_⟩
        · rw [← List.append_assoc, List.take_append_drop]
        · rw [afterLast_of_not_mem hbefore, List.length_take, Nat.min_eq_left hlength]
        · exact fun h => by simpa using h.1
      · rintro ⟨before, after, hsplit, hcount, hlength, hoffset, -⟩
        have hbefore := List.count_eq_zero.1 hcount
        obtain ⟨tail, rfl⟩ := prefix_of_first_line hsplit hbefore
        rw [afterLast_of_not_mem hbefore] at hlength
        rw [← hlength]
        exact ⟨by simp, by simpa using hoffset⟩
    · by_cases hne : text = []
      · subst hne
        constructor
        · intro h
          cases h
        · rintro ⟨before, after, hsplit, -, -, -, hopen⟩
          obtain ⟨rfl, rfl⟩ := List.append_eq_nil_iff.1 hsplit.symm
          exact absurd ⟨rfl, rfl⟩ hopen
      · rw [lineOffset_first (splitInclusive_of_not_mem hmem hne) (stripSuffix_of_not_mem hmem), columnOffset_eq_some_iff]
        constructor
        · rintro ⟨hlength, hoffset⟩
          have hbefore : '\n' ∉ text.take scalarOffset := fun h => hmem (List.mem_of_mem_take h)
          refine ⟨text.take scalarOffset, text.drop scalarOffset, (List.take_append_drop _ _).symm,
            List.count_eq_zero.2 hbefore, ?_, hoffset, ?_⟩
          · rw [afterLast_of_not_mem hbefore, List.length_take, Nat.min_eq_left hlength]
          · rintro ⟨hafter, hlast⟩
            rw [afterLast_of_not_mem hbefore] at hlast
            exact hne (by rw [← List.take_append_drop scalarOffset text, hafter, hlast, List.append_nil])
        · rintro ⟨before, after, rfl, hcount, hlength, hoffset, -⟩
          rw [afterLast_of_not_mem (List.count_eq_zero.1 hcount)] at hlength
          rw [← hlength]
          exact ⟨by simp, by simpa using hoffset⟩
  | succ index ih =>
    by_cases hmem : '\n' ∈ text
    · obtain ⟨line, rest, rfl, hline⟩ := exists_first hmem
      rw [lineOffset_later hline, Option.map_eq_some_iff]
      simp only [ih]
      constructor
      · rintro ⟨_, ⟨before, after, rfl, hcount, hlength, rfl, hopen⟩, rfl⟩
        refine ⟨line ++ '\n' :: before, after, by simp, ?_, ?_, ?_, ?_⟩
        · rw [List.count_append, List.count_eq_zero.2 hline, List.count_cons_self, hcount, Nat.zero_add]
        · rw [afterLast_append_cons, hlength]
        · simp only [byteLength_append, byteLength_cons, byteLength_nil]
          omega
        · unfold AtOpenEnd
          rw [afterLast_append_cons]
          exact hopen
      · rintro ⟨before, after, hsplit, hcount, hlength, rfl, hopen⟩
        have hbefore : '\n' ∈ before := List.count_pos_iff.1 (by omega)
        obtain ⟨later, rfl, rfl⟩ := prefix_of_later_line hsplit hline hbefore
        rw [List.count_append, List.count_eq_zero.2 hline, List.count_cons_self, Nat.zero_add] at hcount
        unfold AtOpenEnd at hopen
        rw [afterLast_append_cons] at hlength hopen
        refine ⟨byteLength later, ⟨later, after, rfl, by omega, hlength, rfl, hopen⟩, ?_⟩
        simp only [byteLength_append, byteLength_cons, byteLength_nil]
        omega
    · constructor
      · intro h
        exfalso
        unfold lineOffset at h
        by_cases hne : text = []
        · subst hne
          cases h
        · rw [splitInclusive_of_not_mem hmem hne] at h
          cases h
      · rintro ⟨before, after, rfl, hcount, -⟩
        have hbefore : '\n' ∈ before := List.count_pos_iff.1 (by omega)
        exact absurd (List.mem_append_left _ hbefore) hmem

/-! ## Both ways -/

/-- The line and the column of a cut fit their fields. -/
def FitsPosition (before : List Char) : Prop :=
  before.count '\n' + 1 < 2 ^ 32 ∧ (afterLast '\n' before).length + 1 < 2 ^ 32

theorem UInt32_ofNat_succ_toNat {n : Nat} (h : n + 1 < 2 ^ 32) : (UInt32.ofNat n + 1).toNat = n + 1 := by
  rw [UInt32.toNat_add, UInt32.toNat_ofNat_of_lt' (show n < 2 ^ 32 by omega)]
  exact Nat.mod_eq_of_lt h

theorem UInt32_ofNat_succ_eq_iff {n : Nat} : (UInt32.ofNat n + 1).toNat = n + 1 ↔ n + 1 < 2 ^ 32 :=
  ⟨fun h => h ▸ (UInt32.ofNat n + 1).toNat_lt, UInt32_ofNat_succ_toNat⟩

theorem byteOffset_eq_ok_iff {text : String} {position : TextPosition} {offset : Nat} :
    byteOffset text position = .ok offset ↔ ∃ before after, text.toList = before ++ after ∧
      before.count '\n' + 1 = position.line.toNat ∧ (afterLast '\n' before).length + 1 = position.column.toNat ∧
        byteLength before = offset ∧ ¬ AtOpenEnd before after := by
  have hzero : ∀ n : UInt32, n = 0 ↔ n.toNat = 0 := fun n => UInt32.toNat_inj.symm
  unfold byteOffset
  by_cases hcoordinate : position.line = 0 ∨ position.column = 0
  · rw [if_pos hcoordinate]
    refine ⟨fun h => (by cases h), ?_⟩
    rintro ⟨before, after, -, hline, hcolumn, -⟩
    rw [hzero, hzero] at hcoordinate
    omega
  · rw [if_neg hcoordinate]
    rw [hzero, hzero] at hcoordinate
    have hcut : (match lineOffset text.toList (position.line.toNat - 1) (position.column.toNat - 1) with
        | some offset => Except.ok offset
        | none => .error LocationResolutionError.outOfRange) = .ok offset ↔
        lineOffset text.toList (position.line.toNat - 1) (position.column.toNat - 1) = some offset := by
      cases lineOffset text.toList (position.line.toNat - 1) (position.column.toNat - 1) with
      | none => exact ⟨fun h => (by cases h), fun h => (by cases h)⟩
      | some found => simp
    rw [hcut, lineOffset_eq_some_iff]
    constructor
    · rintro ⟨before, after, hsplit, hline, hcolumn, hoffset, hopen⟩
      exact ⟨before, after, hsplit, by omega, by omega, hoffset, hopen⟩
    · rintro ⟨before, after, hsplit, hline, hcolumn, hoffset, hopen⟩
      exact ⟨before, after, hsplit, by omega, by omega, hoffset, hopen⟩

theorem positionAt_eq_some_iff {text : String} {offset : Nat} {position : TextPosition} :
    positionAt text offset = some position ↔ ∃ before after, text.toList = before ++ after ∧ byteLength before = offset ∧
      UInt32.ofNat (before.count '\n') + 1 = position.line ∧
      UInt32.ofNat (afterLast '\n' before).length + 1 = position.column := by
  unfold positionAt
  rw [Option.map_eq_some_iff]
  constructor
  · rintro ⟨⟨before, after⟩, hcut, rfl⟩
    obtain ⟨hsplit, hoffset⟩ := splitAtByte_eq_some_iff.1 hcut
    exact ⟨before, after, hsplit, hoffset, rfl, rfl⟩
  · rintro ⟨before, after, hsplit, hoffset, hline, hcolumn⟩
    exact ⟨(before, after), splitAtByte_eq_some_iff.2 ⟨hsplit, hoffset⟩, by rw [hline, hcolumn]⟩

/-- At a cut the offset comes back exactly if the position fits and the cut is not at an open end. -/
theorem byteOffset_positionAt_iff {text : String} {before after : List Char} (hsplit : text.toList = before ++ after) :
    (positionAt text (byteLength before)).map (byteOffset text) = some (.ok (byteLength before)) ↔
      FitsPosition before ∧ ¬ AtOpenEnd before after := by
  have hposition : positionAt text (byteLength before) =
      some ⟨UInt32.ofNat (before.count '\n') + 1, UInt32.ofNat (afterLast '\n' before).length + 1⟩ :=
    positionAt_eq_some_iff.2 ⟨before, after, hsplit, rfl, rfl, rfl⟩
  rw [hposition, Option.map_some, Option.some.injEq, byteOffset_eq_ok_iff]
  constructor
  · rintro ⟨before', after', hsplit', hline, hcolumn, hoffset, hopen⟩
    obtain ⟨rfl, rfl⟩ := append_inj_of_byteLength (hsplit'.symm.trans hsplit) hoffset
    exact ⟨⟨UInt32_ofNat_succ_eq_iff.1 hline.symm, UInt32_ofNat_succ_eq_iff.1 hcolumn.symm⟩, hopen⟩
  · rintro ⟨⟨hline, hcolumn⟩, hopen⟩
    exact ⟨before, after, hsplit, (UInt32_ofNat_succ_toNat hline).symm, (UInt32_ofNat_succ_toNat hcolumn).symm, rfl, hopen⟩

/-- A position that is accepted is that of its offset. -/
theorem positionAt_byteOffset {text : String} {position : TextPosition} {offset : Nat}
    (h : byteOffset text position = .ok offset) : positionAt text offset = some position := by
  obtain ⟨before, after, hsplit, hline, hcolumn, hoffset, -⟩ := byteOffset_eq_ok_iff.1 h
  have hlineFits : before.count '\n' + 1 < 2 ^ 32 := hline ▸ position.line.toNat_lt
  have hcolumnFits : (afterLast '\n' before).length + 1 < 2 ^ 32 := hcolumn ▸ position.column.toNat_lt
  refine positionAt_eq_some_iff.2 ⟨before, after, hsplit, hoffset, UInt32.toNat_inj.1 ?_, UInt32.toNat_inj.1 ?_⟩
  · rw [UInt32_ofNat_succ_toNat hlineFits, hline]
  · rw [UInt32_ofNat_succ_toNat hcolumnFits, hcolumn]

/-- The two scanners agree at an offset exactly if there is no cut there or its position fits. -/
theorem byteToLocation_eq_iff {text : String} {offset : Nat} :
    byteToLocation text offset = (positionAt text offset).map (fun position => (position.line.toNat, position.column.toNat)) ↔
      ∀ before after, text.toList = before ++ after → byteLength before = offset → FitsPosition before := by
  unfold byteToLocation positionAt
  cases hcut : splitAtByte text.toList offset with
  | none =>
    refine ⟨fun _ before after hsplit hoffset => ?_, fun _ => rfl⟩
    rw [splitAtByte_eq_some_iff.2 ⟨hsplit, hoffset⟩] at hcut
    cases hcut
  | some cut =>
    obtain ⟨before, after⟩ := cut
    obtain ⟨hsplit, hoffset⟩ := splitAtByte_eq_some_iff.1 hcut
    simp only [Option.map_some, Option.some.injEq, Prod.mk.injEq]
    constructor
    · rintro ⟨hline, hcolumn⟩ before' after' hsplit' hoffset'
      obtain ⟨rfl, rfl⟩ := append_inj_of_byteLength (hsplit'.symm.trans hsplit) (hoffset'.trans hoffset.symm)
      exact ⟨UInt32_ofNat_succ_eq_iff.1 hline.symm, UInt32_ofNat_succ_eq_iff.1 hcolumn.symm⟩
    · intro h
      obtain ⟨hline, hcolumn⟩ := h before after hsplit hoffset
      exact ⟨(UInt32_ofNat_succ_toNat hline).symm, (UInt32_ofNat_succ_toNat hcolumn).symm⟩

/-- **Lines and columns.** Offset and position are inverse, and the two scanners agree, at every cut whose line and column
fit and that is not the end of a text with an empty last line. -/
theorem line_column_inverse (text : String) :
    (∀ before after, text.toList = before ++ after →
      ((positionAt text (byteLength before)).map (byteOffset text) = some (.ok (byteLength before)) ↔
        FitsPosition before ∧ ¬ AtOpenEnd before after)) ∧
    (∀ position offset, byteOffset text position = .ok offset → positionAt text offset = some position) ∧
    ∀ offset, (byteToLocation text offset =
        (positionAt text offset).map (fun position => (position.line.toNat, position.column.toNat)) ↔
      ∀ before after, text.toList = before ++ after → byteLength before = offset → FitsPosition before) :=
  ⟨fun _ _ => byteOffset_positionAt_iff, fun _ _ => positionAt_byteOffset, fun _ => byteToLocation_eq_iff⟩

/-- Behind the line break that ends a text. -/
theorem final_line_unreachable :
    ¬ ∀ (text : String) (before after : List Char), text.toList = before ++ after →
      (positionAt text (byteLength before)).map (byteOffset text) = some (.ok (byteLength before)) := by
  intro h
  have hoffset := h "a\n" ['a', '\n'] [] rfl
  exact absurd hoffset (by decide)

end Kide
