import Kide.Lib.MaximalRuns
import Kide.Query.Positions

/-!
# Lexical terms

`lexical_terms`, `position_at` and `snippet_at` (`text_index.rs`): the words of a text with their bytes, and where a word
stands. The Unicode classes of the standard library are parameters.

`mem_lexicalTerms_iff`: the terms are the maximal runs of word characters, and `lexicalTerms_sorted`: in order.
-/

namespace Kide
open Text MaximalRuns

structure LexicalTerm where
  term : String
  start : Nat
  stop : Nat
deriving DecidableEq, Repr

/-! ## The scanner -/

section
variable (isAlphanumeric : Char → Bool)

def isWordCharacter (c : Char) : Bool := isAlphanumeric c || c = '_'

/-- From an offset on, with the start and the characters of the term that is open there. -/
def lexicalTermsFrom : List Char → Nat → Option (Nat × List Char) → List LexicalTerm
  | [], _, none => []
  | [], offset, some (start, term) => [⟨String.ofList term, start, offset⟩]
  | c :: rest, offset, opened =>
    if isWordCharacter isAlphanumeric c then
      match opened with
      | none => lexicalTermsFrom rest (offset + c.utf8Size) (some (offset, [c]))
      | some (start, term) => lexicalTermsFrom rest (offset + c.utf8Size) (some (start, term ++ [c]))
    else
      match opened with
      | none => lexicalTermsFrom rest (offset + c.utf8Size) none
      | some (start, term) => ⟨String.ofList term, start, offset⟩ :: lexicalTermsFrom rest (offset + c.utf8Size) none

def lexicalTerms (text : String) : List LexicalTerm := lexicalTermsFrom isAlphanumeric text.toList 0 none

end

/-! ## Around a word -/

section
variable (isWhitespace : Char → Bool)

/-- `str::trim` -/
def trimmed (text : List Char) : List Char :=
  ((text.dropWhile isWhitespace).reverse.dropWhile isWhitespace).reverse

/-- `none` where a slice would begin or end inside a character. -/
def snippetAt (text : String) (start stop : Nat) : Option String :=
  match splitAtByte text.toList start, splitAtByte text.toList stop with
  | some (before, _), some (inner, after) =>
    let lineStart := before.length - (afterLast '\n' before).length
    some (String.ofList (trimmed isWhitespace ((inner ++ beforeFirst '\n' after).drop lineStart)))
  | _, _ => none

end

/-! ## The terms are the runs -/

section
variable {isAlphanumeric : Char → Bool}

/-- A scanner with nothing but this of a term. -/
def openedTerm (offset : Nat) (part : List Char) : Option (Nat × List Char) := if part = [] then none else some (offset, part)

theorem lexicalTermsFrom_word {c : Char} (hc : isWordCharacter isAlphanumeric c = true) (rest part : List Char) (offset : Nat) :
    lexicalTermsFrom isAlphanumeric (c :: rest) (offset + byteLength part) (openedTerm offset part) =
      lexicalTermsFrom isAlphanumeric rest (offset + byteLength (part ++ [c])) (openedTerm offset (part ++ [c])) := by
  have hopen : openedTerm offset (part ++ [c]) = some (offset, part ++ [c]) := if_neg (by simp)
  rw [hopen, byteLength_append, byteLength_cons, byteLength_nil, Nat.add_zero, ← Nat.add_assoc]
  by_cases hpart : part = []
  · subst hpart
    exact if_pos hc
  · rw [openedTerm, if_neg hpart]
    exact if_pos hc

theorem lexicalTermsFrom_outside {c : Char} (hc : ¬ isWordCharacter isAlphanumeric c = true) (rest part : List Char)
    (offset : Nat) :
    lexicalTermsFrom isAlphanumeric (c :: rest) (offset + byteLength part) (openedTerm offset part) =
      (if part = [] then [] else [⟨String.ofList part, offset, offset + byteLength part⟩]) ++
        lexicalTermsFrom isAlphanumeric rest (offset + byteLength part + c.utf8Size) none := by
  by_cases hpart : part = []
  · subst hpart
    exact if_neg hc
  · rw [openedTerm, if_neg hpart, if_neg hpart]
    exact if_neg hc

theorem lexicalTermsFrom_end (part : List Char) (offset : Nat) :
    lexicalTermsFrom isAlphanumeric [] (offset + byteLength part) (openedTerm offset part) =
      if part = [] then [] else [⟨String.ofList part, offset, offset + byteLength part⟩] := by
  unfold openedTerm
  by_cases hpart : part = []
  · subst hpart
    rfl
  · rw [if_neg hpart, if_neg hpart, lexicalTermsFrom]

/-- **Run.** Ahead of a scanner are the runs of the open part and what follows it. -/
theorem mem_lexicalTermsFrom_iff {rest : List Char} (part : List Char) (offset : Nat) {entry : LexicalTerm}
    (hpart : ∀ c ∈ part, isWordCharacter isAlphanumeric c = true) :
    entry ∈ lexicalTermsFrom isAlphanumeric rest (offset + byteLength part) (openedTerm offset part) ↔
      ∃ before run after, IsRun (isWordCharacter isAlphanumeric · = true) (part ++ rest) before run after ∧
        entry = ⟨String.ofList run, offset + byteLength before, offset + byteLength before + byteLength run⟩ := by
  induction rest generalizing part offset with
  | nil =>
    rw [lexicalTermsFrom_end, List.append_nil]
    simp only [isRun_iff_of_inside hpart]
    constructor
    · intro hentry
      split_ifs at hentry with hempty
      · cases hentry
      · exact ⟨[], part, [], ⟨hempty, rfl, rfl, rfl⟩, List.mem_singleton.1 hentry⟩
    · rintro ⟨before, run, after, ⟨hne, rfl, rfl, rfl⟩, rfl⟩
      rw [if_neg hne]
      exact List.mem_singleton.2 rfl
  | cons c rest ih =>
    by_cases hc : isWordCharacter isAlphanumeric c = true
    · have hpart' : ∀ d ∈ part ++ [c], isWordCharacter isAlphanumeric d = true := by
        intro d hd
        rcases List.mem_append.1 hd with hd | hd
        · exact hpart d hd
        · exact List.mem_singleton.1 hd ▸ hc
      rw [lexicalTermsFrom_word hc, ih _ _ hpart', List.append_assoc, List.singleton_append]
    · have hnothing : ∀ d ∈ ([] : List Char), isWordCharacter isAlphanumeric d = true := fun d hd => by cases hd
      have hahead := ih [] (offset + byteLength part + c.utf8Size) hnothing
      rw [lexicalTermsFrom_outside hc, List.mem_append]
      simp only [isRun_append_cons_iff hpart hc]
      have hbytes : ∀ before, offset + byteLength (part ++ c :: before) =
          offset + byteLength part + c.utf8Size + byteLength before := by
        intro before
        rw [byteLength_append, byteLength_cons]
        omega
      constructor
      · rintro (hentry | hentry)
        · split_ifs at hentry with hempty
          · cases hentry
          · exact ⟨[], part, c :: rest, .inl ⟨hempty, rfl, rfl, rfl⟩, List.mem_singleton.1 hentry⟩
        · obtain ⟨before, run, after, hrun, rfl⟩ := hahead.1 hentry
          exact ⟨part ++ c :: before, run, after, .inr ⟨before, rfl, hrun⟩, by rw [hbytes]⟩
      · rintro ⟨before, run, after, ⟨hne, rfl, rfl, rfl⟩ | ⟨before, rfl, hrun⟩, rfl⟩
        · rw [if_neg hne]
          exact .inl (List.mem_singleton.2 rfl)
        · exact .inr (hahead.2 ⟨before, run, after, hrun, by rw [hbytes]⟩)

/-- **Terms.** -/
theorem mem_lexicalTerms_iff {text : String} {entry : LexicalTerm} :
    entry ∈ lexicalTerms isAlphanumeric text ↔
      ∃ before run after, IsRun (isWordCharacter isAlphanumeric · = true) text.toList before run after ∧
        entry = ⟨String.ofList run, byteLength before, byteLength before + byteLength run⟩ := by
  have hnothing : ∀ d ∈ ([] : List Char), isWordCharacter isAlphanumeric d = true := fun d hd => by cases hd
  have hterms : entry ∈ lexicalTermsFrom isAlphanumeric text.toList (0 + byteLength []) (openedTerm 0 []) ↔ _ :=
    mem_lexicalTermsFrom_iff [] 0 hnothing
  simp only [Nat.zero_add] at hterms
  exact hterms

/-- What is ahead begins where the open term begins, or at the offset. -/
theorem le_start_of_mem {rest : List Char} (part : List Char) (offset : Nat) {entry : LexicalTerm}
    (hpart : ∀ c ∈ part, isWordCharacter isAlphanumeric c = true)
    (h : entry ∈ lexicalTermsFrom isAlphanumeric rest (offset + byteLength part) (openedTerm offset part)) :
    offset ≤ entry.start := by
  obtain ⟨before, run, after, -, rfl⟩ := (mem_lexicalTermsFrom_iff part offset hpart).1 h
  exact Nat.le_add_right _ _

theorem lexicalTermsFrom_sorted {rest : List Char} (part : List Char) (offset : Nat)
    (hpart : ∀ c ∈ part, isWordCharacter isAlphanumeric c = true) :
    (lexicalTermsFrom isAlphanumeric rest (offset + byteLength part) (openedTerm offset part)).Pairwise fun a b =>
      a.start < b.start := by
  induction rest generalizing part offset with
  | nil =>
    rw [lexicalTermsFrom_end]
    split_ifs
    · exact List.Pairwise.nil
    · exact List.pairwise_singleton _ _
  | cons c rest ih =>
    by_cases hc : isWordCharacter isAlphanumeric c = true
    · rw [lexicalTermsFrom_word hc]
      refine ih _ _ fun d hd => ?_
      rcases List.mem_append.1 hd with hd | hd
      · exact hpart d hd
      · exact List.mem_singleton.1 hd ▸ hc
    · have hnothing : ∀ d ∈ ([] : List Char), isWordCharacter isAlphanumeric d = true := fun d hd => by cases hd
      rw [lexicalTermsFrom_outside hc, List.pairwise_append]
      refine ⟨?_, ih [] (offset + byteLength part + c.utf8Size) hnothing, fun first hfirst entry hentry => ?_⟩
      · split_ifs
        · exact List.Pairwise.nil
        · exact List.pairwise_singleton _ _
      · have hahead := le_start_of_mem [] (offset + byteLength part + c.utf8Size) hnothing hentry
        have hsize := c.utf8Size_pos
        split_ifs at hfirst
        · cases hfirst
        · obtain rfl := List.mem_singleton.1 hfirst
          show offset < entry.start
          omega

theorem lexicalTerms_sorted (text : String) :
    (lexicalTerms isAlphanumeric text).Pairwise fun a b => a.start < b.start :=
  lexicalTermsFrom_sorted [] 0 fun d hd => by cases hd

/-! ## Where a word stands -/

/-- Line and column of a word, counted from one, and the line it stands on. -/
structure StandsAt (isWhitespace : Char → Bool) (before run after : List Char) (position : TextPosition)
    (snippet : String) : Prop where
  line : position.line.toNat = before.count '\n' + 1
  column : position.column.toNat = (afterLast '\n' before).length + 1
  snippet : snippet = String.ofList (trimmed isWhitespace (afterLast '\n' before ++ run ++ beforeFirst '\n' after))

theorem snippetAt_eq (isWhitespace : Char → Bool) {text : String} {before run after : List Char}
    (h : text.toList = before ++ run ++ after) :
    snippetAt isWhitespace text (byteLength before) (byteLength before + byteLength run) =
      some (String.ofList (trimmed isWhitespace (afterLast '\n' before ++ run ++ beforeFirst '\n' after))) := by
  have hstart : splitAtByte text.toList (byteLength before) = some (before, run ++ after) := by
    rw [h, List.append_assoc, splitAtByte_append]
  have hstop : splitAtByte text.toList (byteLength before + byteLength run) = some (before ++ run, after) := by
    rw [h, ← byteLength_append, splitAtByte_append]
  have hline : (before ++ run ++ beforeFirst '\n' after).drop (before.length - (afterLast '\n' before).length) =
      afterLast '\n' before ++ run ++ beforeFirst '\n' after := by
    obtain ⟨front, hfront⟩ := afterLast_suffix '\n' before
    generalize afterLast '\n' before = tail at hfront
    rw [hfront, List.length_append, Nat.add_sub_cancel, List.append_assoc, List.append_assoc, List.drop_left,
      List.append_assoc]
  unfold snippetAt
  rw [hstart, hstop]
  exact congrArg (fun line => some (String.ofList (trimmed isWhitespace line))) hline

/-- In a text of fewer than 2³² - 1 bytes line and column fit. -/
theorem positionAt_eq {text : String} {before rest : List Char} (h : text.toList = before ++ rest)
    (hlength : byteLength text.toList + 1 < 2 ^ 32) : ∃ position, positionAt text (byteLength before) = some position ∧
      position.line.toNat = before.count '\n' + 1 ∧ position.column.toNat = (afterLast '\n' before).length + 1 := by
  have hbytes := length_le_byteLength before
  have hcount : before.count '\n' ≤ before.length := List.count_le_length
  have hcolumn := length_afterLast_le '\n' before
  rw [h, byteLength_append] at hlength
  have hlineFits : before.count '\n' + 1 < 2 ^ 32 := by omega
  have hcolumnFits : (afterLast '\n' before).length + 1 < 2 ^ 32 := by omega
  unfold positionAt
  rw [h, splitAtByte_append]
  exact ⟨_, rfl, UInt32_ofNat_succ_toNat hlineFits, UInt32_ofNat_succ_toNat hcolumnFits⟩

end

end Kide
