import Kide.Lib.OrderFree

/-!
# One element under each key, in key order

* `retainNew` : the elements whose key was not seen before (`retain` over a set of seen keys);
* `sortDistinct` : a list sorted by key, with the first element of each key;
  `sortDistinct_eq_iff` : under a key that tells the elements apart, the set of elements and no more.
-/

namespace Collects

section Retain
variable {α κ : Type*} [DecidableEq κ] (key : α → κ)

/-- The elements whose key was not seen before. -/
def retainNew : List κ → List α → List α
  | _, [] => []
  | seen, a :: l => if key a ∈ seen then retainNew seen l else a :: retainNew (key a :: seen) l

theorem retainNew_sublist : ∀ (seen : List κ) (l : List α), (retainNew key seen l).Sublist l
  | _, [] => List.Sublist.slnil
  | seen, a :: l => by
    rw [retainNew]
    split
    · exact (retainNew_sublist seen l).cons _
    · exact (retainNew_sublist _ l).cons_cons _

theorem mem_retainNew_key : ∀ (seen : List κ) (l : List α) (k : κ),
    k ∈ (retainNew key seen l).map key ↔ k ∈ l.map key ∧ k ∉ seen
  | _, [], _ => by simp [retainNew]
  | seen, a :: l, k => by
    rw [retainNew]
    split
    next hseen =>
      rw [mem_retainNew_key seen l k, List.map_cons, List.mem_cons]
      grind
    next hseen =>
      rw [List.map_cons, List.mem_cons, mem_retainNew_key (key a :: seen) l k, List.map_cons, List.mem_cons]
      grind

theorem retainNew_keys_nodup : ∀ (seen : List κ) (l : List α), ((retainNew key seen l).map key).Nodup
  | _, [] => List.nodup_nil
  | seen, a :: l => by
    rw [retainNew]
    split
    · exact retainNew_keys_nodup seen l
    · refine List.nodup_cons.2 ⟨fun hmem => ?_, retainNew_keys_nodup _ l⟩
      exact ((mem_retainNew_key key _ l _).1 hmem).2 List.mem_cons_self

/-- Distinct unseen keys keep every element. -/
theorem retainNew_eq_self : ∀ (seen : List κ) (l : List α), (l.map key).Nodup → (∀ a ∈ l, key a ∉ seen) →
    retainNew key seen l = l
  | _, [], _, _ => rfl
  | seen, a :: l, hnd, hnew => by
    rw [List.map_cons, List.nodup_cons] at hnd
    rw [retainNew, if_neg (hnew a List.mem_cons_self), retainNew_eq_self (key a :: seen) l hnd.2]
    intro b hb hseen
    rcases List.mem_cons.1 hseen with heq | hseen
    · exact hnd.1 (List.mem_map.2 ⟨b, hb, heq⟩)
    · exact hnew b (List.mem_cons_of_mem _ hb) hseen

end Retain

variable {α κ : Type*} [LinearOrder κ] (key : α → κ)

/-- Sorted by key, with the first element of each key. -/
def sortDistinct (l : List α) : List α := retainNew key [] (l.insertionSort fun a b => key a ≤ key b)

variable {l l' : List α}

theorem mem_sortDistinct_key {k : κ} : k ∈ (sortDistinct key l).map key ↔ k ∈ l.map key := by
  rw [sortDistinct, mem_retainNew_key, ((List.perm_insertionSort _ l).map key).mem_iff]
  simp

theorem mem_of_mem_sortDistinct {a : α} (h : a ∈ sortDistinct key l) : a ∈ l :=
  (List.mem_insertionSort _).1 ((retainNew_sublist key [] _).subset h)

theorem sortDistinct_keys_nodup : ((sortDistinct key l).map key).Nodup := retainNew_keys_nodup key [] _

theorem sortDistinct_pairwise : (sortDistinct key l).Pairwise fun a b => key a ≤ key b := by
  have : IsTrans α fun a b => key a ≤ key b := ⟨fun _ _ _ => le_trans⟩
  have : Std.Total fun a b : α => key a ≤ key b := ⟨fun a b => le_total (key a) (key b)⟩
  exact (List.pairwise_insertionSort _ l).sublist (retainNew_sublist key [] _)

theorem sortDistinct_eq_nil_iff : sortDistinct key l = [] ↔ l = [] := by
  constructor
  · intro h
    cases l with
    | nil => rfl
    | cons a l =>
      have hmem : key a ∈ (sortDistinct key (a :: l)).map key :=
        (mem_sortDistinct_key key).2 (List.mem_map_of_mem List.mem_cons_self)
      rw [h] at hmem
      cases hmem
  · rintro rfl
    rfl

theorem sortDistinct_idem : sortDistinct key (sortDistinct key l) = sortDistinct key l := by
  have hsorted : (sortDistinct key l).insertionSort (fun a b => key a ≤ key b) = sortDistinct key l :=
    (sortDistinct_pairwise key).insertionSort_eq
  show retainNew key [] ((sortDistinct key l).insertionSort fun a b => key a ≤ key b) = _
  rw [hsorted]
  exact retainNew_eq_self key [] _ (sortDistinct_keys_nodup key) fun _ _ h => by cases h

/-- In a sorted list an element that repeats a key stands beside one that has it. -/
theorem nodup_iff_neighbours {l : List α} (h : l.Pairwise fun a b => key a ≤ key b) :
    (l.map key).Nodup ↔ ∀ pair ∈ l.zip l.tail, key pair.1 ≠ key pair.2 := by
  induction l with
  | nil => simp
  | cons a l ih =>
    cases l with
    | nil => simp
    | cons b l =>
      rw [List.pairwise_cons] at h
      rw [List.map_cons, List.nodup_cons, ih h.2]
      simp only [List.tail_cons]
      rw [List.zip_cons_cons, List.forall_mem_cons]
      refine and_congr_left fun hrest => ⟨fun hnew heq => hnew (heq ▸ by simp), fun hne hmem => ?_⟩
      obtain ⟨c, hc, heq⟩ := List.mem_map.1 hmem
      have hbc : key b ≤ key c := by
        rcases List.mem_cons.1 hc with rfl | hc
        · exact le_rfl
        · exact (List.pairwise_cons.1 h.2).1 c hc
      exact hne (le_antisymm (h.1 b List.mem_cons_self) (hbc.trans heq.le))

/-- Every element stays exactly when the key tells the elements apart. -/
theorem subset_sortDistinct_iff : (∀ a ∈ l, a ∈ sortDistinct key l) ↔ ∀ a ∈ l, ∀ b ∈ l, key a = key b → a = b := by
  constructor
  · exact fun h a ha b hb => List.inj_on_of_nodup_map (sortDistinct_keys_nodup key) (h a ha) (h b hb)
  · intro h a ha
    obtain ⟨b, hb, hkey⟩ := List.mem_map.1 ((mem_sortDistinct_key key (l := l)).2 (List.mem_map_of_mem ha))
    rwa [← h b (mem_of_mem_sortDistinct key hb) a ha hkey]

/-- Under a key that tells the elements apart, the set of elements and no more. -/
theorem sortDistinct_eq_iff (h : ∀ a ∈ l, ∀ b ∈ l, key a = key b → a = b)
    (h' : ∀ a ∈ l', ∀ b ∈ l', key a = key b → a = b) :
    sortDistinct key l = sortDistinct key l' ↔ ∀ a, a ∈ l ↔ a ∈ l' := by
  have hmem : ∀ a, a ∈ sortDistinct key l ↔ a ∈ l := fun a =>
    ⟨mem_of_mem_sortDistinct key, (subset_sortDistinct_iff key).2 h a⟩
  have hmem' : ∀ a, a ∈ sortDistinct key l' ↔ a ∈ l' := fun a =>
    ⟨mem_of_mem_sortDistinct key, (subset_sortDistinct_iff key).2 h' a⟩
  constructor
  · intro heq a
    rw [← hmem, ← hmem', heq]
  · intro hsame
    have hperm : (sortDistinct key l).Perm (sortDistinct key l') :=
      (List.perm_ext_iff_of_nodup (List.Nodup.of_map key (sortDistinct_keys_nodup key))
        (List.Nodup.of_map key (sortDistinct_keys_nodup key))).2 fun a => by rw [hmem, hmem', hsame]
    refine hperm.eq_of_pairwise (fun a b ha hb hab hba => ?_) (sortDistinct_pairwise key) (sortDistinct_pairwise key)
    exact h a ((hmem a).1 ha) b ((hsame b).2 ((hmem' b).1 hb)) (le_antisymm hab hba)

end Collects
