import Mathlib.Data.List.Perm.Basic
import Mathlib.Data.List.Nodup

/-!
# Lists cut into parts

* `groups_perm`: the groups of a list by a key hold its elements, each as often as the list;
* `filter_mem_eq_singleton`: where no element comes twice, it is in one part.
-/

namespace Grouping

variable {α β κ : Type*}

theorem groups_perm [DecidableEq κ] (key : α → κ) {ks : List κ} (hks : ks.Nodup) {l : List α} (h : ∀ a ∈ l, key a ∈ ks) :
    (ks.flatMap fun k => l.filter (key · = k)).Perm l := by
  induction ks generalizing l with
  | nil =>
    rw [List.eq_nil_iff_forall_not_mem.2 fun a ha => List.not_mem_nil (h a ha)]
    exact .nil
  | cons k ks ih =>
    rw [List.nodup_cons] at hks
    have hrest : ∀ k' ∈ ks, l.filter (key · = k') = (l.filter (key · ≠ k)).filter (key · = k') := by
      intro k' hk'
      rw [List.filter_filter]
      refine List.filter_congr fun a _ => ?_
      have hne : key a = k' → key a ≠ k := fun ha heq => hks.1 (heq ▸ ha ▸ hk')
      by_cases ha : key a = k'
      · simp [ha, ha ▸ hne ha]
      · simp [ha]
    have hothers := ih hks.2 (l := l.filter (key · ≠ k)) fun a ha => by
      obtain ⟨ha, hne⟩ := List.mem_filter.1 ha
      exact (List.mem_cons.1 (h a ha)).resolve_left (by simpa using hne)
    rw [List.flatMap_cons, List.flatMap_congr hrest]
    refine (List.Perm.append_left _ hothers).trans ?_
    have hboth := List.filter_append_perm (fun a => decide (key a = k)) l
    simpa using hboth

section Parts
variable [DecidableEq α] (elements : β → List α)

/-- No element is in two parts, or twice in one. -/
theorem filter_mem_eq_singleton {parts : List β} (hnd : (parts.flatMap elements).Nodup) {part : β} (hpart : part ∈ parts)
    {a : α} (ha : a ∈ elements part) : parts.filter (a ∈ elements ·) = [part] := by
  induction parts with
  | nil => cases hpart
  | cons first parts ih =>
    rw [List.flatMap_cons, List.nodup_append'] at hnd
    obtain ⟨-, hrest, hdisjoint⟩ := hnd
    rcases List.mem_cons.1 hpart with rfl | hpart
    · rw [List.filter_cons_of_pos (by simpa using ha), List.filter_eq_nil_iff.2]
      intro other hother hmem
      exact hdisjoint ha (List.mem_flatMap.2 ⟨other, hother, of_decide_eq_true hmem⟩)
    · have hnot : a ∉ elements first := fun hfirst => hdisjoint hfirst (List.mem_flatMap.2 ⟨part, hpart, ha⟩)
      rw [List.filter_cons_of_neg (by simpa using hnot), ih hrest hpart]

end Parts

end Grouping
