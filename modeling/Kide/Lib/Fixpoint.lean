import Mathlib.Data.Nat.Find
import Mathlib.Logic.Function.Iterate
import Mathlib.Order.Monotone.Basic

/-!
# Iteration until nothing changes

A loop that replaces a value by the next one until the two are equal. It ends when the next value depends
on a number the values have, monotonically, and the numbers that come up are bounded.
-/

namespace Fixpoint

universe u

variable {α : Type u} [DecidableEq α] {next : α → α} {start : α}

/-- The value after some number of rounds is its own successor. -/
def Stabilizes (next : α → α) (start : α) : Prop := ∃ rounds, next (next^[rounds] start) = next^[rounds] start

/-- The value the loop stops at. -/
def untilStable (next : α → α) (start : α) (h : Stabilizes next start) : α := next^[Nat.find h] start

theorem untilStable_fixed (h : Stabilizes next start) : next (untilStable next start h) = untilStable next start h :=
  Nat.find_spec h

omit [DecidableEq α] in
theorem stabilizes_next (h : Stabilizes next start) : Stabilizes next (next start) := by
  obtain ⟨rounds, hrounds⟩ := h
  refine ⟨rounds, ?_⟩
  rw [← Function.iterate_succ_apply, Function.iterate_succ_apply', hrounds, hrounds]

/-- One round of the loop. -/
theorem untilStable_eq (h : Stabilizes next start) :
    untilStable next start h = if next start = start then start else untilStable next (next start) (stabilizes_next h) := by
  unfold untilStable
  by_cases hstart : next start = start
  · rw [if_pos hstart, (Nat.find_eq_zero h).2 hstart]
    rfl
  · have hpos : 0 < Nat.find h := (Nat.find_pos h).2 hstart
    obtain ⟨rounds, hrounds⟩ : ∃ rounds, Nat.find h = rounds + 1 := ⟨Nat.find h - 1, by omega⟩
    have hspec := Nat.find_spec h
    rw [hrounds, Function.iterate_succ_apply] at hspec
    have hfirst : Nat.find (stabilizes_next h) = rounds := by
      refine (Nat.find_eq_iff (stabilizes_next h)).2 ⟨hspec, fun fewer hfewer hstable => ?_⟩
      refine Nat.find_min h (m := fewer + 1) (by omega) ?_
      rwa [Function.iterate_succ_apply]
    rw [if_neg hstart, hrounds, hfirst, Function.iterate_succ_apply]

/-- Rounds that end at a value without change end where the loop does. -/
theorem untilStable_eq_iterate (h : Stabilizes next start) {rounds : Nat}
    (hfixed : next (next^[rounds] start) = next^[rounds] start) : untilStable next start h = next^[rounds] start := by
  obtain ⟨extra, hrounds⟩ := Nat.exists_eq_add_of_le (Nat.find_min' h hfixed)
  have hconstant : ∀ extra, next^[extra] (untilStable next start h) = untilStable next start h := by
    intro extra
    induction extra with
    | zero => rfl
    | succ extra ih => rw [Function.iterate_succ_apply, untilStable_fixed h, ih]
  rw [hrounds, Nat.add_comm, Function.iterate_add_apply]
  exact (hconstant extra).symm

omit [DecidableEq α] in
/-- What every round keeps holds at the end. -/
theorem iterate_keeps {P : α → Prop} (hstart : P start) (hnext : ∀ a, P a → P (next a)) (rounds : Nat) :
    P (next^[rounds] start) := by
  induction rounds with
  | zero => exact hstart
  | succ rounds ih =>
    rw [Function.iterate_succ_apply']
    exact hnext _ ih

/-! ## Bounded monotone rounds -/

section Bounded

variable {f : Nat → Nat} {first bound : Nat}

theorem iterate_mono (hf : Monotone f) (hfirst : first ≤ f first) (rounds : Nat) : f^[rounds] first ≤ f^[rounds + 1] first := by
  induction rounds with
  | zero => exact hfirst
  | succ rounds ih =>
    rw [Function.iterate_succ_apply', Function.iterate_succ_apply' f (rounds + 1)]
    exact hf ih

theorem iterate_le_bound (hf : Monotone f) (hbound : f bound ≤ bound) (hle : first ≤ bound) (rounds : Nat) :
    f^[rounds] first ≤ bound :=
  iterate_keeps (P := (· ≤ bound)) hle (fun _ ha => (hf ha).trans hbound) rounds

/-- A monotone function that starts upwards below a point it does not exceed comes to rest. -/
theorem stabilizes_of_bounded (hf : Monotone f) (hfirst : first ≤ f first) (hbound : f bound ≤ bound)
    (hle : first ≤ bound) : Stabilizes f first := by
  by_contra h
  have hgrows : ∀ rounds, rounds ≤ f^[rounds] first := by
    intro rounds
    induction rounds with
    | zero => exact Nat.zero_le _
    | succ rounds ih =>
      have hne : f (f^[rounds] first) ≠ f^[rounds] first := fun heq => h ⟨rounds, heq⟩
      have hstep := iterate_mono hf hfirst rounds
      rw [Function.iterate_succ_apply'] at hstep ⊢
      omega
  have hhigh := hgrows (bound + 1)
  have hlow := iterate_le_bound hf hbound hle (bound + 1)
  omega

end Bounded

omit [DecidableEq α] in
/-- The numbers come to rest, and one round later the values do. -/
theorem stabilizes_of_size {size : α → Nat} {build : Nat → α} (hnext : ∀ a, next a = build (size a))
    (h : Stabilizes (fun n => size (build n)) (size start)) : Stabilizes next start := by
  have hiterate : ∀ rounds, next^[rounds + 1] start = build ((fun n => size (build n))^[rounds] (size start)) := by
    intro rounds
    induction rounds with
    | zero => exact hnext start
    | succ rounds ih =>
      rw [Function.iterate_succ_apply', ih, hnext, Function.iterate_succ_apply']
  obtain ⟨rounds, hrounds⟩ := h
  refine ⟨rounds + 1, ?_⟩
  rw [hiterate, hnext]
  exact congrArg build hrounds

end Fixpoint
