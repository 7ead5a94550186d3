import Mathlib.Data.List.Perm.Basic
import Kide.Lib.Collect

/-!
# Collecting in any order

What sorting and collecting do not take from the order of a list.

* `insertionSort_eq_of_perm`: a sort that has no ties between different elements;
* `filter_insertionSort`: a sort keeps the order of ties, so one that sees no order has equal ones
  (`eq_of_sort_orderFree`);
* `Reorders`: a list in another order whose elements are reordered too;
* `collect_perm`: a map collected under distinct keys.
-/

namespace Collects

section Sorting
variable {α : Type*} {r : α → α → Prop} [DecidableRel r] {l l' : List α}

/-- Elements that are all tied stand in their old order. -/
theorem filter_insertionSort {p : α → Bool} (hties : ∀ a ∈ l, ∀ b ∈ l, p a → p b → r a b) :
    (l.insertionSort r).filter p = l.filter p := by
  have hsorted : (l.filter p).Pairwise r := by
    refine List.pairwise_of_forall_mem_list fun a ha b hb => ?_
    obtain ⟨ha, hpa⟩ := List.mem_filter.1 ha
    obtain ⟨hb, hpb⟩ := List.mem_filter.1 hb
    exact hties a ha b hb hpa hpb
  have hsub : (l.filter p).Sublist ((l.insertionSort r).filter p) := by
    have hsub := (List.sublist_insertionSort hsorted List.filter_sublist).filter p
    rwa [List.filter_filter, show (fun a => p a && p a) = p from funext fun a => Bool.and_self _] at hsub
  have hlength : (l.filter p).length = ((l.insertionSort r).filter p).length :=
    ((List.perm_insertionSort r l).filter p).symm.length_eq
  exact (hsub.eq_of_length hlength).symm

variable [Std.Total r] [IsTrans α r]

theorem insertionSort_eq_of_perm (hanti : ∀ a ∈ l, ∀ b ∈ l, r a b → r b a → a = b) (h : l.Perm l') :
    l.insertionSort r = l'.insertionSort r := by
  refine List.Perm.eq_of_pairwise (fun a b ha hb hab hba => ?_) (List.pairwise_insertionSort r l)
    (List.pairwise_insertionSort r l') ?_
  · exact hanti a ((List.mem_insertionSort r).1 ha) b (h.mem_iff.2 ((List.mem_insertionSort r).1 hb)) hab hba
  · exact (List.perm_insertionSort r l).trans (h.trans (List.perm_insertionSort r l').symm)

theorem sort_map_idem {f : α → α} (hf : ∀ a, f (f a) = f a) :
    (((l.map f).insertionSort r).map f).insertionSort r = (l.map f).insertionSort r := by
  have hmap : ((l.map f).insertionSort r).map f = (l.map f).insertionSort r := by
    conv_rhs => rw [← List.map_id ((l.map f).insertionSort r)]
    refine List.map_congr_left fun b hb => ?_
    obtain ⟨a, -, rfl⟩ := List.mem_map.1 ((List.mem_insertionSort r).1 hb)
    exact hf a
  rw [hmap]
  exact (List.pairwise_insertionSort r _).insertionSort_eq

/-- Where the sort sees no order, tied elements are equal. -/
theorem eq_of_sort_orderFree {β : Type*} {l : List β} {f : β → α} {a b : β}
    (hfree : ∀ l' : List β, l.Perm l' → (l.map f).insertionSort r = (l'.map f).insertionSort r)
    (ha : a ∈ l) (hb : b ∈ l) (hab : r (f a) (f b)) (hba : r (f b) (f a)) : f a = f b := by
  classical
  let tied : α → Bool := fun x => decide (r x (f a) ∧ r (f a) x)
  have hties : ∀ m : List α, (m.insertionSort r).filter tied = m.filter tied := fun m =>
    filter_insertionSort fun x _ y _ hx hy =>
      IsTrans.trans x (f a) y (of_decide_eq_true hx).1 (of_decide_eq_true hy).2
  have hrefl : r (f a) (f a) := (Std.Total.total (r := r) (f a) (f a)).elim id id
  have hsort : ((a :: l.erase a).map f).insertionSort r = ((b :: l.erase b).map f).insertionSort r :=
    (hfree _ (List.perm_cons_erase ha)).symm.trans (hfree _ (List.perm_cons_erase hb))
  have hfilter := congrArg (List.filter tied) hsort
  rw [hties, hties, List.map_cons, List.map_cons, List.filter_cons_of_pos (by simpa [tied] using hrefl),
    List.filter_cons_of_pos (by simpa [tied] using ⟨hba, hab⟩)] at hfilter
  exact (List.cons.inj hfilter).1

end Sorting

/-- A predicate that tells the front from the back tells their orders apart. -/
theorem append_perm_append_iff {α : Type*} (p : α → Bool) {front front' back back' : List α} (hfront : ∀ a ∈ front, p a)
    (hfront' : ∀ a ∈ front', p a) (hback : ∀ a ∈ back, ¬ p a) (hback' : ∀ a ∈ back', ¬ p a) :
    (front ++ back).Perm (front' ++ back') ↔ front.Perm front' ∧ back.Perm back' := by
  have hsplit : ∀ {f b : List α}, (∀ a ∈ f, p a) → (∀ a ∈ b, ¬ p a) →
      (f ++ b).filter p = f ∧ (f ++ b).filter (fun a => ! p a) = b := by
    intro f b hf hb
    rw [List.filter_append, List.filter_append, List.filter_eq_self.2 hf, List.filter_eq_nil_iff.2 hb,
      List.filter_eq_nil_iff.2 (by simpa using hf), List.filter_eq_self.2 (by simpa using hb), List.append_nil, List.nil_append]
    exact ⟨rfl, rfl⟩
  refine ⟨fun h => ?_, fun ⟨hf, hb⟩ => hf.append hb⟩
  have hkept := h.filter p
  have hleft := h.filter fun a => ! p a
  rw [(hsplit hfront hback).1, (hsplit hfront' hback').1] at hkept
  rw [(hsplit hfront hback).2, (hsplit hfront' hback').2] at hleft
  exact ⟨hkept, hleft⟩

/-- A map that tells the elements of both lists apart keeps what is a permutation. -/
theorem perm_of_map_perm {α β : Type*} [DecidableEq α] {f : α → β} {l l' : List α} (hinj : ∀ a ∈ l, ∀ b ∈ l', f a = f b → a = b)
    (h : (l.map f).Perm (l'.map f)) : l.Perm l' := by
  induction l generalizing l' with
  | nil => exact (List.map_eq_nil_iff.1 h.nil_eq.symm) ▸ List.Perm.nil
  | cons a l ih =>
    obtain ⟨b, hb, heq⟩ := List.mem_map.1 (h.subset List.mem_cons_self)
    have hab := hinj a List.mem_cons_self b hb heq.symm
    subst hab
    have herase := List.perm_cons_erase hb
    have hrest : (l.map f).Perm ((l'.erase a).map f) := (List.perm_cons (f a)).1 (h.trans (herase.map f))
    exact ((ih (fun x hx y hy => hinj x (List.mem_cons_of_mem _ hx) y (List.mem_of_mem_erase hy)) hrest).cons a).trans herase.symm

/-! ## Nested reorderings -/

section Reorders
variable {α : Type*} {R : α → α → Prop} {l l' : List α}

/-- The elements of one list, each changed by `R`, in any order. -/
def Reorders (R : α → α → Prop) (l l' : List α) : Prop := ∃ m, List.Forall₂ R l m ∧ m.Perm l'

theorem Reorders.of_perm (hrefl : ∀ a, R a a) (h : l.Perm l') : Reorders R l l' :=
  ⟨l, List.forall₂_same.2 fun a _ => hrefl a, h⟩

theorem Reorders.of_map {f : α → α} (h : ∀ a ∈ l, R a (f a)) : Reorders R l (l.map f) :=
  ⟨l.map f, List.forall₂_map_right_iff.2 (List.forall₂_same.2 h), List.Perm.refl _⟩

theorem Reorders.map_perm {β : Type*} {f : α → β} (h : Reorders R l l') (hf : ∀ a ∈ l, ∀ b, R a b → f a = f b) :
    (l.map f).Perm (l'.map f) := by
  obtain ⟨m, hm, hperm⟩ := h
  have hmap : l.map f = m.map f := by
    clear hperm
    induction hm with
    | nil => rfl
    | cons hab _ ih =>
      rw [List.map_cons, List.map_cons, hf _ List.mem_cons_self _ hab, ih fun a ha => hf a (List.mem_cons_of_mem _ ha)]
  rw [hmap]
  exact hperm.map f

theorem Reorders.forall_iff {p : α → Prop} (h : Reorders R l l') (hp : ∀ a b, R a b → (p a ↔ p b)) :
    (∀ a ∈ l, p a) ↔ ∀ a ∈ l', p a := by
  obtain ⟨m, hm, hperm⟩ := h
  have hall : (∀ a ∈ l, p a) ↔ ∀ a ∈ m, p a := by
    clear hperm
    induction hm with
    | nil => simp
    | cons hab _ ih => rw [List.forall_mem_cons, List.forall_mem_cons, hp _ _ hab, ih]
  rw [hall]
  exact forall_congr' fun a => by rw [hperm.mem_iff]

theorem Reorders.nil_iff (h : Reorders R l l') : l = [] ↔ l' = [] := by
  obtain ⟨m, hm, hperm⟩ := h
  rw [← List.length_eq_zero_iff, ← List.length_eq_zero_iff, hm.length_eq, hperm.length_eq]

end Reorders

variable {α κ : Type*} [DecidableEq κ] (key : α → κ) {l l' : List α}

theorem lastOf_perm (hnd : (l.map key).Nodup) (h : l.Perm l') (k : κ) : lastOf key l k = lastOf key l' k := by
  have hnd' : (l'.map key).Nodup := (h.map key).nodup_iff.1 hnd
  apply Option.ext
  intro a
  rw [lastOf_eq_some_iff key hnd, lastOf_eq_some_iff key hnd', h.mem_iff]

section Keys
variable (le : κ → κ → Prop) [DecidableRel le] [Std.Total le] [IsTrans κ le] [Std.Antisymm le]

theorem sortedKeys_perm (h : l.Perm l') : sortedKeys key le l = sortedKeys key le l' :=
  insertionSort_eq_of_perm (fun _ _ _ _ => antisymm) (h.map key).dedup

theorem collect_perm (hnd : (l.map key).Nodup) (h : l.Perm l') : collect key le l = collect key le l' := by
  unfold collect
  rw [sortedKeys_perm key le h]
  exact List.filterMap_congr fun k _ => lastOf_perm key hnd h k

end Keys

/-- Under distinct keys an element is alone with its key. -/
theorem filter_key_eq_singleton (hnd : (l.map key).Nodup) {a : α} (ha : a ∈ l) :
    l.filter (fun b => key b = key a) = [a] := by
  induction l with
  | nil => cases ha
  | cons b l ih =>
    rw [List.map_cons, List.nodup_cons] at hnd
    rcases List.mem_cons.1 ha with rfl | ha
    · rw [List.filter_cons_of_pos (by simp), List.filter_eq_nil_iff.2]
      intro c hc heq
      exact hnd.1 (List.mem_map.2 ⟨c, hc, of_decide_eq_true heq⟩)
    · have hne : key b ≠ key a := fun heq => hnd.1 (List.mem_map.2 ⟨a, ha, heq.symm⟩)
      rw [List.filter_cons_of_neg (by simpa using hne), ih hnd.2 ha]

end Collects
