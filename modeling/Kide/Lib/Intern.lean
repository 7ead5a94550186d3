import Mathlib.Data.List.Basic
import Mathlib.Data.List.Nodup
import Mathlib.Data.List.Infix

/-!
# Interning

Values are collected in a list of distinct ones and referred to by position. The list only grows at its
end, so a position stays valid (`idxOf_stable`).
-/

namespace Interns

variable {α : Type*} [DecidableEq α]

def intern (values : List α) (value : α) : List α := if value ∈ values then values else values ++ [value]

variable {values more : List α} {value : α}

theorem prefix_intern (values : List α) (value : α) : values <+: intern values value := by
  unfold intern
  split
  · exact List.prefix_rfl
  · exact List.prefix_append values [value]

theorem mem_intern_self (values : List α) (value : α) : value ∈ intern values value := by
  unfold intern
  split
  · next h => exact h
  · exact List.mem_append_right _ List.mem_cons_self

theorem mem_intern {other : α} : other ∈ intern values value ↔ other ∈ values ∨ other = value := by
  unfold intern
  split
  · next h => exact ⟨Or.inl, fun hor => hor.elim id fun heq => heq ▸ h⟩
  · rw [List.mem_append, List.mem_singleton]

theorem nodup_intern (h : values.Nodup) : (intern values value).Nodup := by
  unfold intern
  split
  · exact h
  · next hnew =>
    rw [List.nodup_append]
    refine ⟨h, List.nodup_singleton value, ?_⟩
    intro a ha b hb heq
    rw [List.mem_singleton] at hb
    subst hb heq
    exact hnew ha

theorem idxOf_stable (h : values <+: more) (hmem : value ∈ values) : more.idxOf value = values.idxOf value := by
  obtain ⟨rest, rfl⟩ := h
  exact List.idxOf_append_of_mem hmem

/-- Searching for a value finds its position. -/
theorem findIdx?_eq (values : List α) (value : α) :
    values.findIdx? (· = value) = if value ∈ values then some (values.idxOf value) else none := by
  have hsame : values.idxOf value = values.findIdx (· = value) := rfl
  split
  · next h =>
    rw [hsame, List.findIdx?_eq_some_of_exists ⟨value, h, by simp⟩]
  · next h =>
    rw [List.findIdx?_eq_none_iff]
    intro a ha
    rw [decide_eq_false_iff_not]
    rintro rfl
    exact h ha

theorem getElem?_idxOf (h : value ∈ values) : values[values.idxOf value]? = some value :=
  List.getElem?_eq_some_iff.2 ⟨List.idxOf_lt_length_of_mem h, List.getElem_idxOf _⟩

/-- A value is at no other position up to its first one. -/
theorem getElem?_eq_iff_of_le {index : Nat} (h : value ∈ values) (hle : index ≤ values.idxOf value) :
    values[index]? = some value ↔ index = values.idxOf value := by
  constructor
  · intro hat
    obtain ⟨hlt, heq⟩ := List.getElem?_eq_some_iff.1 hat
    by_contra hne
    have hbefore : index < values.findIdx (· == value) := lt_of_le_of_ne hle hne
    have hother := List.not_of_lt_findIdx hbefore
    rw [heq, beq_self_eq_true] at hother
    cases hother
  · rintro rfl
    exact getElem?_idxOf h

/-! ## A list of values -/

def internAll (values : List α) (new : List α) : List α := new.foldl intern values

variable {new : List α}

theorem prefix_internAll (values new : List α) : values <+: internAll values new := by
  induction new generalizing values with
  | nil => exact List.prefix_rfl
  | cons value new ih => exact (prefix_intern values value).trans (ih (intern values value))

theorem mem_internAll : value ∈ internAll values new ↔ value ∈ values ∨ value ∈ new := by
  induction new generalizing values with
  | nil => simp [internAll]
  | cons head new ih =>
    change value ∈ internAll (intern values head) new ↔ _
    rw [ih, mem_intern, List.mem_cons, or_assoc]

theorem nodup_internAll (h : values.Nodup) : (internAll values new).Nodup := by
  induction new generalizing values with
  | nil => exact h
  | cons value new ih => exact ih (nodup_intern h)

end Interns
