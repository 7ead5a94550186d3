import Mathlib.Data.List.Basic

/-!
# Chunks

A list cut into pieces of one size, the last of which may be shorter.
-/

namespace Chunks

abbrev Size := { size : Nat // 0 < size }

/-- `slice::chunks`, with the length as fuel. -/
def chunks {α : Type} (limit : Size) : Nat → List α → List (List α)
  | 0, _ => []
  | _, [] => []
  | fuel + 1, l => l.take limit :: chunks limit fuel (l.drop limit)

variable {α : Type} (limit : Size)

theorem chunks_nil (fuel : Nat) : chunks limit fuel ([] : List α) = [] := by
  cases fuel <;> rfl

theorem chunks_of_ne_nil {fuel : Nat} {l : List α} (h : l ≠ []) :
    chunks limit (fuel + 1) l = l.take limit :: chunks limit fuel (l.drop limit) := by
  cases l with
  | nil => exact absurd rfl h
  | cons a l => rfl

theorem chunks_of_short {fuel : Nat} {l : List α} (hnil : l ≠ []) (h : l.length ≤ limit) : chunks limit (fuel + 1) l = [l] := by
  rw [chunks_of_ne_nil limit hnil, List.take_of_length_le h, List.drop_of_length_le h, chunks_nil]

theorem length_drop_le {fuel : Nat} {l : List α} (h : l.length ≤ fuel + 1) : (l.drop limit).length ≤ fuel := by
  rw [List.length_drop]
  have := limit.2
  omega

theorem chunks_flatten {fuel : Nat} {l : List α} (h : l.length ≤ fuel) : (chunks limit fuel l).flatten = l := by
  induction fuel generalizing l with
  | zero =>
    obtain rfl := List.eq_nil_of_length_eq_zero (Nat.le_zero.1 h)
    rfl
  | succ fuel ih =>
    by_cases hnil : l = []
    · rw [hnil, chunks_nil]
      rfl
    · rw [chunks_of_ne_nil limit hnil, List.flatten_cons, ih (length_drop_le limit h), List.take_append_drop]

/-- The chunk at a position starts after as many full chunks. -/
theorem getElem?_chunks {fuel : Nat} {l : List α} (h : l.length ≤ fuel) (position : Nat) :
    (chunks limit fuel l)[position]? =
      if position * limit < l.length then some ((l.drop (position * limit)).take limit) else none := by
  induction fuel generalizing l position with
  | zero =>
    obtain rfl := List.eq_nil_of_length_eq_zero (Nat.le_zero.1 h)
    simp [chunks]
  | succ fuel ih =>
    by_cases hnil : l = []
    · rw [hnil, chunks_nil]
      simp
    · rw [chunks_of_ne_nil limit hnil]
      cases position with
      | zero =>
        rw [List.getElem?_cons_zero, Nat.zero_mul, if_pos (List.length_pos_iff.2 hnil), List.drop_zero]
      | succ position =>
        rw [List.getElem?_cons_succ, ih (length_drop_le limit h), List.drop_drop, List.length_drop, Nat.succ_mul,
          Nat.add_comm (position * limit)]
        exact if_congr (by omega) rfl rfl

/-- Chunks hold at least one element and at most as many as the size. -/
theorem chunk_length {fuel : Nat} {l chunk : List α} (h : chunk ∈ chunks limit fuel l) :
    0 < chunk.length ∧ chunk.length ≤ limit := by
  induction fuel generalizing l with
  | zero => cases h
  | succ fuel ih =>
    by_cases hnil : l = []
    · rw [hnil, chunks_nil] at h
      cases h
    · rw [chunks_of_ne_nil limit hnil] at h
      rcases List.mem_cons.1 h with rfl | h
      · have := limit.2
        have := List.length_pos_iff.2 hnil
        rw [List.length_take]
        omega
      · exact ih h

theorem chunks_map {β : Type} (f : α → β) (fuel : Nat) (l : List α) :
    chunks limit fuel (l.map f) = (chunks limit fuel l).map (List.map f) := by
  induction fuel generalizing l with
  | zero => rfl
  | succ fuel ih =>
    by_cases hnil : l = []
    · rw [hnil, List.map_nil, chunks_nil, chunks_nil]
      rfl
    · rw [chunks_of_ne_nil limit hnil, chunks_of_ne_nil limit (mt List.map_eq_nil_iff.1 hnil), ← List.map_drop, ih,
        List.map_cons, List.map_take]

end Chunks
