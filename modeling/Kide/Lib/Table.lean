import Mathlib.Data.List.Nodup
import Mathlib.Data.List.Perm.Basic
import Mathlib.Data.List.Sort
import Mathlib.Data.List.Dedup

/-!
# Keyed tables

A relational table as the list of its rows, each row with at most one primary key:

* `insertRow` refuses a row whose key is present; a row without a key (a key column is NULL) meets
  no other row;
* `insertAll` inserts one row after the other and stops at the first refusal;
* `KeysUnique` is what the database maintains; deletion and reordering keep it.

`insertAll_eq_some_iff` says when a whole insertion goes through and with what result.
-/

namespace Tables

variable {ρ κ : Type*} (key : ρ → Option κ)

/-- The primary keys of the rows, in row order. -/
def keys (t : List ρ) : List κ := t.filterMap key

def KeysUnique (t : List ρ) : Prop := (keys key t).Nodup

/-! ## Keys -/

@[simp] theorem keys_nil : keys key [] = [] := rfl

theorem keys_cons (r : ρ) (t : List ρ) : keys key (r :: t) = (key r).toList ++ keys key t := by
  cases h : key r <;> simp [keys, h]

@[simp] theorem keys_append (t u : List ρ) : keys key (t ++ u) = keys key t ++ keys key u :=
  List.filterMap_append

theorem mem_keys {t : List ρ} {k : κ} : k ∈ keys key t ↔ ∃ r ∈ t, key r = some k := List.mem_filterMap

theorem keys_flatMap {α : Type*} (f : α → List ρ) (as : List α) :
    keys key (as.flatMap f) = as.flatMap fun a => keys key (f a) := by
  induction as with
  | nil => rfl
  | cons a as ih => simp [List.flatMap_cons, ih]

/-- The keys of the rows a projection builds. -/
theorem keys_map {α : Type*} (f : α → ρ) (as : List α) :
    keys key (as.map f) = as.filterMap fun a => key (f a) := by
  rw [keys, List.filterMap_map]; rfl

theorem keysUnique_nil : KeysUnique key [] := List.nodup_nil

theorem KeysUnique.perm {t u : List ρ} (h : KeysUnique key t) (p : t.Perm u) : KeysUnique key u :=
  ((p.filterMap key).nodup_iff).1 h

theorem KeysUnique.sublist {t u : List ρ} (h : KeysUnique key t) (s : u.Sublist t) : KeysUnique key u :=
  List.Nodup.sublist (s.filterMap key) h

/-- `DELETE … WHERE` keeps the keys unique. -/
theorem KeysUnique.filter {t : List ρ} (h : KeysUnique key t) (p : ρ → Bool) :
    KeysUnique key (t.filter p) :=
  h.sublist key List.filter_sublist

theorem keysUnique_append {t u : List ρ} :
    KeysUnique key (t ++ u) ↔
      KeysUnique key t ∧ KeysUnique key u ∧ List.Disjoint (keys key t) (keys key u) := by
  simp only [KeysUnique, keys_append, List.nodup_append']

/-! ## Insertion -/

section Insertion
variable [DecidableEq κ]

instance (t : List ρ) : Decidable (KeysUnique key t) := inferInstanceAs (Decidable (List.Nodup _))

/-- `INSERT` of one row. -/
def insertRow (t : List ρ) (r : ρ) : Option (List ρ) :=
  if ∃ k ∈ key r, k ∈ keys key t then none else some (t ++ [r])

/-- `INSERT` of the rows in order. -/
def insertAll (t rs : List ρ) : Option (List ρ) := rs.foldlM (insertRow key) t

theorem insertRow_eq_some_iff {t t' : List ρ} {r : ρ} :
    insertRow key t r = some t' ↔ (∀ k ∈ key r, k ∉ keys key t) ∧ t' = t ++ [r] := by
  unfold insertRow
  split
  · next h =>
    obtain ⟨k, hk, hm⟩ := h
    exact ⟨fun h => (Option.some_ne_none _ h.symm).elim, fun h => absurd hm (h.1 k hk)⟩
  · next h =>
    push Not at h
    exact ⟨fun e => ⟨h, (Option.some.inj e).symm⟩, fun e => by rw [e.2]⟩

@[simp] theorem insertAll_nil (t : List ρ) : insertAll key t [] = some t := rfl

theorem insertAll_cons (t : List ρ) (r : ρ) (rs : List ρ) :
    insertAll key t (r :: rs) = (insertRow key t r).bind fun t' => insertAll key t' rs := rfl

/-- **Insertion.** A list of rows goes in exactly when its own keys are distinct and none is
present, and then the rows stand behind those of the table. -/
theorem insertAll_eq_some_iff {t rs t' : List ρ} :
    insertAll key t rs = some t' ↔
      t' = t ++ rs ∧ KeysUnique key rs ∧ List.Disjoint (keys key t) (keys key rs) := by
  induction rs generalizing t with
  | nil => simp [KeysUnique, eq_comm]
  | cons r rs ih =>
    rw [insertAll_cons, Option.bind_eq_some_iff]
    simp only [insertRow_eq_some_iff, ih, KeysUnique, keys_cons]
    constructor
    · rintro ⟨_, ⟨hfresh, rfl⟩, rfl, hnd, hdis⟩
      rw [keys_append, keys_cons, keys_nil, List.append_nil, List.disjoint_append_left] at hdis
      refine ⟨by simp, ?_, List.disjoint_append_right.2 ⟨?_, hdis.1⟩⟩
      · refine List.nodup_append'.2 ⟨?_, hnd, hdis.2⟩
        cases key r <;> simp
      · intro k hk hr
        exact hfresh k (Option.mem_toList.1 hr) hk
    · rintro ⟨rfl, hnd, hdis⟩
      rw [List.nodup_append'] at hnd
      rw [List.disjoint_append_right] at hdis
      refine ⟨_, ⟨fun k hk hm => hdis.1 hm (Option.mem_toList.2 hk), rfl⟩, by simp, hnd.2.1, ?_⟩
      rw [keys_append, keys_cons, keys_nil, List.append_nil]
      exact List.disjoint_append_left.2 ⟨hdis.2, hnd.2.2⟩

end Insertion

/-! ## Rows grouped by owner -/

section Grouped
variable {α ι : Type*} [DecidableEq ι] {owner : α → ι}

/-- The group of an owner, when every owner has one group. -/
theorem find_eq_some_iff {groups : List α} (hnd : (groups.map owner).Nodup) {i : ι} {a : α} :
    groups.find? (owner · = i) = some a ↔ a ∈ groups ∧ owner a = i := by
  constructor
  · intro h
    exact ⟨List.mem_of_find?_eq_some h, by simpa using List.find?_some h⟩
  · rintro ⟨ha, rfl⟩
    cases h : groups.find? (owner · = owner a) with
    | none => exact absurd (by simp) (List.find?_eq_none.1 h a ha)
    | some b =>
      have hb : owner b = owner a := by simpa using List.find?_some h
      rw [List.inj_on_of_nodup_map hnd (List.mem_of_find?_eq_some h) ha hb]

/-- Selecting the rows of one owner selects its group. -/
theorem filter_flatMap_owner {groups : List α} (hnd : (groups.map owner).Nodup) {f : α → List ρ} {i : ι}
    {p : ρ → Bool} (hp : ∀ a ∈ groups, ∀ r ∈ f a, p r = decide (owner a = i)) :
    (groups.flatMap f).filter p = (groups.find? (owner · = i)).toList.flatMap f := by
  induction groups with
  | nil => rfl
  | cons a groups ih =>
    rw [List.map_cons, List.nodup_cons] at hnd
    have hrest := ih hnd.2 fun b hb => hp b (List.mem_cons_of_mem _ hb)
    have ha := hp a List.mem_cons_self
    rw [List.flatMap_cons, List.filter_append, hrest, List.find?_cons]
    by_cases h : owner a = i
    · have hnone : groups.find? (owner · = i) = none := by
        rw [List.find?_eq_none]
        intro b hb
        simpa [← h] using fun e => hnd.1 (List.mem_map.2 ⟨b, hb, e⟩)
      rw [hnone, List.filter_eq_self.2 fun r hr => by rw [ha r hr]; simpa using h]
      simp [h]
    · rw [List.filter_eq_nil_iff.2 fun r hr => by rw [ha r hr]; simpa using h]
      simp [h]

/-- Deleting the rows of one owner deletes its group. -/
theorem filter_not_flatMap_owner {groups : List α} {f : α → List ρ} {i : ι} {p : ρ → Bool}
    (hp : ∀ a ∈ groups, ∀ r ∈ f a, p r = decide (owner a = i)) :
    (groups.flatMap f).filter (fun r => !p r) = (groups.filter (owner · ≠ i)).flatMap f := by
  induction groups with
  | nil => rfl
  | cons a groups ih =>
    have hrest := ih fun b hb => hp b (List.mem_cons_of_mem _ hb)
    have ha := hp a List.mem_cons_self
    rw [List.flatMap_cons, List.filter_append, hrest, List.filter_cons]
    by_cases h : owner a = i
    · rw [List.filter_eq_nil_iff.2 fun r hr => by rw [ha r hr]; simpa using h]
      simp [h]
    · rw [List.filter_eq_self.2 fun r hr => by rw [ha r hr]; simpa using h]
      simp [h]

end Grouped

/-- Rows with one key in a table with unique keys are one row. -/
theorem KeysUnique.eq_of_key_eq {t : List ρ} (h : KeysUnique key t) {r s : ρ} {k : κ} (hr : r ∈ t)
    (hs : s ∈ t) (hkr : key r = some k) (hks : key s = some k) : r = s := by
  induction t with
  | nil => cases hr
  | cons a t ih =>
    rw [KeysUnique, keys_cons, List.nodup_append'] at h
    obtain ⟨-, hnd, hdis⟩ := h
    rcases List.mem_cons.1 hr with rfl | hr'
    · rcases List.mem_cons.1 hs with rfl | hs'
      · rfl
      · exact (hdis (Option.mem_toList.2 hkr) ((mem_keys key).2 ⟨s, hs', hks⟩)).elim
    · rcases List.mem_cons.1 hs with rfl | hs'
      · exact (hdis (Option.mem_toList.2 hks) ((mem_keys key).2 ⟨r, hr', hkr⟩)).elim
      · exact ih hnd hr' hs'

/-- Under unique keys no row stands twice in a part of the table whose rows have keys. -/
theorem KeysUnique.nodup_filterMap {α : Type*} {t : List ρ} (h : KeysUnique key t) {part : ρ → Option α}
    (hpart : ∀ r s a, part r = some a → part s = some a → key r = key s ∧ key r ≠ none) : (t.filterMap part).Nodup := by
  have hpairwise : t.Pairwise fun r s => key r = key s → key r = none := by
    rw [KeysUnique, keys, List.Nodup, List.pairwise_filterMap] at h
    refine h.imp fun {r s} hne heq => ?_
    cases hr : key r with
    | none => rfl
    | some k => exact absurd rfl (hne k hr k (heq ▸ hr))
  refine List.pairwise_filterMap.2 (hpairwise.imp fun {r s} hnone a ha b hb heq => ?_)
  obtain ⟨hsame, hsome⟩ := hpart r s a ha (heq ▸ hb)
  exact hsome (hnone hsame)

end Tables
