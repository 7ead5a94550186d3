import Mathlib.Data.List.Basic
import Mathlib.Data.List.Forall2
import Mathlib.Data.List.Infix

/-!
# Wildcard patterns

Patterns of literals, of `one` for any letter and of `run` for any run of letters, over an alphabet.

`wildcardMatch_iff`: a text matches if it splits into parts that the atoms accept one by one. A pattern without wildcards
matches itself, and between two runs whatever contains it; every pattern matches a text without a given set of letters,
if its literals are none of them.
-/

namespace Wildcards

variable {α : Type*}

inductive Atom (α : Type*) where
  | run
  | one
  | literal (a : α)
deriving DecidableEq, Repr

def wildcardMatch [DecidableEq α] : List (Atom α) → List α → Bool
  | [], text => text.isEmpty
  | .run :: pattern, text => text.tails.any (wildcardMatch pattern)
  | .one :: pattern, text =>
    match text with
    | [] => false
    | _ :: text => wildcardMatch pattern text
  | .literal a :: pattern, text =>
    match text with
    | [] => false
    | b :: text => decide (a = b) && wildcardMatch pattern text

/-- The parts of a text that an atom takes. -/
def Atom.Accepts : Atom α → List α → Prop
  | .run, _ => True
  | .one, part => ∃ a, part = [a]
  | .literal a, part => part = [a]

theorem wildcardMatch_iff [DecidableEq α] {pattern : List (Atom α)} {text : List α} :
    wildcardMatch pattern text = true ↔ ∃ parts, List.Forall₂ Atom.Accepts pattern parts ∧ parts.flatten = text := by
  induction pattern generalizing text with
  | nil =>
    rw [wildcardMatch, List.isEmpty_iff]
    constructor
    · rintro rfl
      exact ⟨[], .nil, rfl⟩
    · rintro ⟨parts, hparts, rfl⟩
      obtain rfl := List.forall₂_nil_left_iff.1 hparts
      rfl
  | cons atom pattern ih =>
    cases atom with
    | run =>
      rw [wildcardMatch, List.any_eq_true]
      constructor
      · rintro ⟨rest, hrest, hmatch⟩
        obtain ⟨part, rfl⟩ := (List.mem_tails _ _).1 hrest
        obtain ⟨parts, hparts, rfl⟩ := ih.1 hmatch
        exact ⟨part :: parts, .cons trivial hparts, rfl⟩
      · rintro ⟨parts, hparts, rfl⟩
        obtain ⟨part, rest, -, hrest, rfl⟩ := List.forall₂_cons_left_iff.1 hparts
        exact ⟨rest.flatten, (List.mem_tails _ _).2 ⟨part, rfl⟩, ih.2 ⟨rest, hrest, rfl⟩⟩
    | one =>
      cases text with
      | nil =>
        refine iff_of_false Bool.false_ne_true ?_
        rintro ⟨parts, hparts, hflat⟩
        obtain ⟨part, rest, ⟨a, rfl⟩, -, rfl⟩ := List.forall₂_cons_left_iff.1 hparts
        cases hflat
      | cons b text =>
        rw [wildcardMatch, ih]
        constructor
        · rintro ⟨parts, hparts, rfl⟩
          exact ⟨[b] :: parts, .cons ⟨b, rfl⟩ hparts, rfl⟩
        · rintro ⟨parts, hparts, hflat⟩
          obtain ⟨part, rest, ⟨a, rfl⟩, hrest, rfl⟩ := List.forall₂_cons_left_iff.1 hparts
          exact ⟨rest, hrest, (List.cons.inj hflat).2⟩
    | literal a =>
      cases text with
      | nil =>
        refine iff_of_false Bool.false_ne_true ?_
        rintro ⟨parts, hparts, hflat⟩
        obtain ⟨part, rest, rfl, -, rfl⟩ := List.forall₂_cons_left_iff.1 hparts
        cases hflat
      | cons b text =>
        rw [wildcardMatch, Bool.and_eq_true, decide_eq_true_eq, ih]
        constructor
        · rintro ⟨rfl, parts, hparts, rfl⟩
          exact ⟨[a] :: parts, .cons rfl hparts, rfl⟩
        · rintro ⟨parts, hparts, hflat⟩
          obtain ⟨part, rest, rfl, hrest, rfl⟩ := List.forall₂_cons_left_iff.1 hparts
          exact ⟨(List.cons.inj hflat).1, rest, hrest, (List.cons.inj hflat).2⟩

/-- Literals before a run match their continuations. -/
theorem literals_run_match_iff [DecidableEq α] {word text : List α} :
    wildcardMatch (word.map .literal ++ [.run]) text = true ↔ word <+: text := by
  induction word generalizing text with
  | nil =>
    refine iff_of_true ?_ (List.nil_prefix)
    rw [List.map_nil, List.nil_append, wildcardMatch, List.any_eq_true]
    exact ⟨[], (List.mem_tails _ _).2 List.nil_suffix, rfl⟩
  | cons a word ih => cases text <;> simp [wildcardMatch, ih, List.cons_prefix_cons]

/-- Literals between two runs match what contains them. -/
theorem run_literals_run_match_iff [DecidableEq α] {word text : List α} :
    wildcardMatch (.run :: (word.map .literal ++ [.run])) text = true ↔ word <:+: text := by
  rw [wildcardMatch, List.any_eq_true]
  constructor
  · rintro ⟨rest, hrest, hmatch⟩
    exact (literals_run_match_iff.1 hmatch).isInfix.trans ((List.mem_tails _ _).1 hrest).isInfix
  · rintro ⟨before, after, rfl⟩
    refine ⟨word ++ after, (List.mem_tails _ _).2 ⟨before, (List.append_assoc _ _ _).symm⟩, ?_⟩
    exact literals_run_match_iff.2 (List.prefix_append _ _)

/-- The shortest text of a pattern, with one letter wherever any letter is accepted. -/
def instantiate (a : α) (pattern : List (Atom α)) : List α :=
  pattern.flatMap fun atom =>
    match atom with
    | .run => []
    | .one => [a]
    | .literal b => [b]

theorem instantiate_match [DecidableEq α] (a : α) (pattern : List (Atom α)) :
    wildcardMatch pattern (instantiate a pattern) = true := by
  refine wildcardMatch_iff.2 ⟨pattern.map fun atom => instantiate a [atom], ?_, ?_⟩
  · rw [List.forall₂_map_right_iff]
    refine List.forall₂_same.2 fun atom _ => ?_
    cases atom with
    | run => trivial
    | one => exact ⟨a, rfl⟩
    | literal b => rfl
  · simp [instantiate, List.flatMap]

end Wildcards
