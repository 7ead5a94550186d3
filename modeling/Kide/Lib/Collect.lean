import Mathlib.Data.List.Sort
import Mathlib.Data.List.Dedup

/-!
# Collecting into a map

A list collected into a map: of the entries under one key the last one wins.

* `collect`: iteration is in key order, as in a `BTreeMap`;
* `associateBy`: iteration is in the order in which the keys came first, as in a `LinkedHashMap`.
-/

namespace Collects

variable {α κ : Type*} [DecidableEq κ] (key : α → κ)

/-- The entry a key keeps. -/
def lastOf (l : List α) (k : κ) : Option α := l.reverse.find? (key · = k)

variable (le : κ → κ → Prop) [DecidableRel le]

def sortedKeys (l : List α) : List κ := (l.map key).dedup.insertionSort le

/-- The map's values in key order. -/
def collect (l : List α) : List α := (sortedKeys key le l).filterMap (lastOf key l)

theorem lastOf_some {l : List α} {k : κ} {a : α} (h : lastOf key l k = some a) : a ∈ l ∧ key a = k :=
  ⟨List.mem_reverse.1 (List.mem_of_find?_eq_some h), by simpa using List.find?_some h⟩

theorem lastOf_isSome_iff {l : List α} {k : κ} : (lastOf key l k).isSome ↔ k ∈ l.map key := by
  rw [lastOf, List.find?_isSome]
  simp only [List.mem_reverse, decide_eq_true_eq, List.mem_map]

/-- Distinct keys keep every entry. -/
theorem lastOf_eq_some_iff {l : List α} (hnd : (l.map key).Nodup) {k : κ} {a : α} :
    lastOf key l k = some a ↔ a ∈ l ∧ key a = k := by
  refine ⟨lastOf_some key, fun ⟨ha, hk⟩ => ?_⟩
  have hsome : (lastOf key l k).isSome := (lastOf_isSome_iff key).2 (hk ▸ List.mem_map_of_mem ha)
  obtain ⟨b, hb⟩ := Option.isSome_iff_exists.1 hsome
  obtain ⟨hbl, hbk⟩ := lastOf_some key hb
  rw [hb, List.inj_on_of_nodup_map hnd hbl ha (hbk.trans hk.symm)]

theorem lastOf_map {β : Type*} (f : β → α) (l : List β) (k : κ) :
    lastOf key (l.map f) k = (lastOf (fun b => key (f b)) l k).map f := by
  rw [lastOf, lastOf, ← List.map_reverse, List.find?_map]
  rfl

theorem mem_sortedKeys {l : List α} {k : κ} : k ∈ sortedKeys key le l ↔ k ∈ l.map key := by
  rw [sortedKeys, List.mem_insertionSort, List.mem_dedup]

theorem mem_collect {l : List α} {a : α} : a ∈ collect key le l ↔ lastOf key l (key a) = some a := by
  rw [collect, List.mem_filterMap]
  constructor
  · rintro ⟨k, -, hk⟩
    rwa [(lastOf_some key hk).2]
  · intro h
    exact ⟨key a, (mem_sortedKeys key le).2 (List.mem_map_of_mem (lastOf_some key h).1), h⟩

theorem collect_keys (l : List α) : (collect key le l).map key = sortedKeys key le l := by
  have h : ∀ ks : List κ, (∀ k ∈ ks, k ∈ l.map key) → (ks.filterMap (lastOf key l)).map key = ks := by
    intro ks hks
    induction ks with
    | nil => rfl
    | cons k ks ih =>
      obtain ⟨a, ha⟩ := Option.isSome_iff_exists.1 ((lastOf_isSome_iff key).2 (hks k List.mem_cons_self))
      rw [List.filterMap_cons_some ha, List.map_cons, (lastOf_some key ha).2,
        ih fun k hk => hks k (List.mem_cons_of_mem _ hk)]
  exact h _ fun k hk => (mem_sortedKeys key le).1 hk

theorem collect_keys_nodup (l : List α) : ((collect key le l).map key).Nodup := by
  rw [collect_keys, sortedKeys, (List.perm_insertionSort le _).nodup_iff]
  exact List.nodup_dedup _

/-! ## Sorted maps -/

theorem lastOf_append_singleton (l : List α) (a : α) (k : κ) :
    lastOf key (l ++ [a]) k = if key a = k then some a else lastOf key l k := by
  rw [lastOf, List.reverse_append, List.reverse_singleton, List.singleton_append, List.find?_cons]
  by_cases h : key a = k
  · simp [h]
  · simp [h, lastOf]

/-- The keys grow. -/
theorem collect_pairwise [Std.Total le] [IsTrans κ le] (l : List α) :
    (collect key le l).Pairwise fun a b => le (key a) (key b) ∧ key a ≠ key b := by
  have hle : ((collect key le l).map key).Pairwise le := by
    rw [collect_keys]
    exact List.pairwise_insertionSort _ _
  have hne := collect_keys_nodup key le l
  rw [List.pairwise_map] at hle
  rw [List.Nodup, List.pairwise_map] at hne
  exact hle.imp₂ (fun _ _ hab hne => ⟨hab, hne⟩) hne

/-- Under distinct keys the map holds the entries and no others. -/
theorem collect_perm_self {l : List α} (h : (l.map key).Nodup) : (collect key le l).Perm l := by
  refine (List.perm_ext_iff_of_nodup (List.Nodup.of_map _ (collect_keys_nodup key le l)) (List.Nodup.of_map _ h)).2 fun a => ?_
  rw [mem_collect, lastOf_eq_some_iff key h]
  exact and_iff_left rfl

/-! ## Maps in the order of insertion -/

/-- The keys in the order in which they came first. -/
def firstKeys (l : List α) : List κ := (l.map key).reverse.dedup.reverse

theorem mem_firstKeys {l : List α} {k : κ} : k ∈ firstKeys key l ↔ k ∈ l.map key := by
  rw [firstKeys, List.mem_reverse, List.mem_dedup, List.mem_reverse]

theorem firstKeys_nodup (l : List α) : (firstKeys key l).Nodup := List.nodup_reverse.2 (List.nodup_dedup _)

/-- The values of the map. -/
def associateBy (l : List α) : List α := (firstKeys key l).filterMap (lastOf key l)

theorem mem_associateBy {l : List α} {a : α} : a ∈ associateBy key l ↔ lastOf key l (key a) = some a := by
  rw [associateBy, List.mem_filterMap]
  constructor
  · rintro ⟨k, -, hk⟩
    rwa [(lastOf_some key hk).2]
  · exact fun h => ⟨key a, (mem_firstKeys key).2 (List.mem_map_of_mem (lastOf_some key h).1), h⟩

theorem mem_of_mem_associateBy {l : List α} {a : α} (h : a ∈ associateBy key l) : a ∈ l :=
  (lastOf_some key ((mem_associateBy key).1 h)).1

/-- Two entries of the map with one key are the same. -/
theorem associateBy_inj {l : List α} {a b : α} (ha : a ∈ associateBy key l) (hb : b ∈ associateBy key l) (h : key a = key b) : a = b := by
  rw [mem_associateBy] at ha hb
  rw [← h, ha] at hb
  exact Option.some.inj hb

theorem associateBy_nodup (l : List α) : (associateBy key l).Nodup := by
  refine List.Nodup.filterMap (fun k k' a hk hk' => ?_) (firstKeys_nodup key l)
  rw [← (lastOf_some key hk).2, ← (lastOf_some key hk').2]

end Collects
