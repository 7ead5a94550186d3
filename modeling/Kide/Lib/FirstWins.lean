import Kide.Lib.Intern

/-!
# Maps in which the first entry wins

A map is the list of its entries in the order in which the keys came.

* `putIfAbsent`: a key that has an entry keeps it. Of a list of entries the first one counts (`lookup_putAll`);
* `addTo`: a set under a key. Of a list of values it holds those of the key (`lookup_addAll`), and it has one value exactly if
  they are one (`lookup_singles`).
-/

namespace FirstWins
open Interns

variable {α κ β : Type*} [DecidableEq κ]

/-! ## One value under a key -/

def putIfAbsent (k : κ) (b : β) (m : List (κ × β)) : List (κ × β) := if (m.lookup k).isSome then m else m ++ [(k, b)]

theorem lookup_putIfAbsent (k k' : κ) (b : β) (m : List (κ × β)) :
    (putIfAbsent k b m).lookup k' = (m.lookup k').or (if k = k' then some b else none) := by
  unfold putIfAbsent
  by_cases h : k = k'
  · subst h
    rw [if_pos rfl]
    cases hlookup : m.lookup k with
    | some c => rw [Option.isSome_some, if_pos rfl, hlookup, Option.some_or]
    | none =>
      rw [Option.isSome_none, if_neg (by decide), List.lookup_append, hlookup, Option.none_or, List.lookup_cons_self]
      rfl
  · rw [if_neg h, Option.or_none]
    split_ifs
    · rfl
    · rw [List.lookup_append, List.lookup_cons, beq_false_of_ne (Ne.symm h), List.lookup_nil, Option.or_none]

section
variable (key : α → κ) (value : α → β)

/-- The entries of a list, put one after the other. -/
def putAll (l : List α) (m : List (κ × β)) : List (κ × β) := l.foldl (fun m a => putIfAbsent (key a) (value a) m) m

/-- Of the entries for a key the first one counts. -/
theorem lookup_putAll (l : List α) (m : List (κ × β)) (k : κ) :
    (putAll key value l m).lookup k = (m.lookup k).or ((l.find? fun a => key a = k).map value) := by
  induction l generalizing m with
  | nil =>
    rw [List.find?_nil, Option.map_none, Option.or_none]
    rfl
  | cons a l ih =>
    rw [putAll, List.foldl_cons]
    refine (ih _).trans ?_
    rw [lookup_putIfAbsent, Option.or_assoc]
    congr 1
    by_cases h : key a = k
    · rw [if_pos h, List.find?_cons_of_pos (by simpa using h), Option.some_or, Option.map_some]
    · rw [if_neg h, List.find?_cons_of_neg (by simpa using h), Option.none_or]

end

/-! ## A set under a key -/

section
variable [DecidableEq β]

def addTo (k : κ) (b : β) : List (κ × List β) → List (κ × List β)
  | [] => [(k, [b])]
  | e :: m => if e.1 = k then (k, intern e.2 b) :: m else e :: addTo k b m

theorem addTo_keys (k : κ) (b : β) (m : List (κ × List β)) : (addTo k b m).map Prod.fst = intern (m.map Prod.fst) k := by
  induction m with
  | nil => rfl
  | cons e m ih =>
    unfold addTo
    by_cases h : e.1 = k
    · have hmem : k ∈ k :: m.map Prod.fst := List.mem_cons_self
      rw [if_pos h, List.map_cons, List.map_cons, h]
      exact (if_pos hmem).symm
    · rw [if_neg h, List.map_cons, List.map_cons, ih, intern, intern]
      by_cases hmem : k ∈ m.map Prod.fst
      · rw [if_pos hmem, if_pos (List.mem_cons_of_mem _ hmem)]
      · rw [if_neg hmem, if_neg (List.not_mem_cons_of_ne_of_not_mem (Ne.symm h) hmem), List.cons_append]

/-- The set under a key; a key that did not come has the empty one. -/
def valuesOf (m : List (κ × List β)) (k : κ) : List β := (m.lookup k).getD []

theorem valuesOf_addTo (k k' : κ) (b : β) (m : List (κ × List β)) :
    valuesOf (addTo k b m) k' = if k = k' then intern (valuesOf m k') b else valuesOf m k' := by
  induction m with
  | nil =>
    unfold addTo valuesOf
    by_cases h : k = k'
    · subst h
      rw [if_pos rfl, List.lookup_cons_self]
      rfl
    · rw [if_neg h, List.lookup_cons, beq_false_of_ne (Ne.symm h)]
  | cons e m ih =>
    obtain ⟨k₀, values⟩ := e
    unfold addTo
    unfold valuesOf at ih ⊢
    by_cases h : k₀ = k
    · subst h
      rw [if_pos rfl]
      by_cases h' : k₀ = k'
      · subst h'
        rw [if_pos rfl, List.lookup_cons_self, List.lookup_cons_self]
        rfl
      · rw [if_neg h', List.lookup_cons, List.lookup_cons, beq_false_of_ne (Ne.symm h')]
    · rw [if_neg h]
      by_cases h' : k₀ = k'
      · subst h'
        rw [if_neg (Ne.symm h), List.lookup_cons_self, List.lookup_cons_self]
      · rw [List.lookup_cons, List.lookup_cons, beq_false_of_ne (Ne.symm h')]
        exact ih

variable (key : α → κ) (value : α → β)

/-- The values of a list, each in the set under its key. -/
def addAll (l : List α) (m : List (κ × List β)) : List (κ × List β) := l.foldl (fun m a => addTo (key a) (value a) m) m

theorem addAll_keys_nodup (l : List α) {m : List (κ × List β)} (h : (m.map Prod.fst).Nodup) :
    ((addAll key value l m).map Prod.fst).Nodup := by
  induction l generalizing m with
  | nil => exact h
  | cons a l ih =>
    refine ih ?_
    rw [addTo_keys]
    exact nodup_intern h

/-- The set under a key holds the values of the list that have it. -/
theorem valuesOf_addAll (l : List α) (m : List (κ × List β)) (k : κ) :
    valuesOf (addAll key value l m) k = internAll (valuesOf m k) ((l.filter fun a => key a = k).map value) := by
  induction l generalizing m with
  | nil => rfl
  | cons a l ih =>
    refine (ih _).trans ?_
    rw [valuesOf_addTo]
    by_cases h : key a = k
    · rw [if_pos h, List.filter_cons_of_pos (by simpa using h), List.map_cons]
      rfl
    · rw [if_neg h, List.filter_cons_of_neg (by simpa using h)]

/-- The keys with one value. -/
def singles (m : List (κ × List β)) : List (κ × β) := m.filterMap fun e => if e.2.length = 1 then e.2.head?.map (e.1, ·) else none

omit [DecidableEq κ] [DecidableEq β] in
theorem mem_singles {m : List (κ × List β)} {k : κ} {b : β} : (k, b) ∈ singles m ↔ (k, [b]) ∈ m := by
  rw [singles, List.mem_filterMap]
  constructor
  · rintro ⟨⟨k', values⟩, hmem, heq⟩
    split_ifs at heq with hlength
    obtain ⟨c, rfl⟩ := List.length_eq_one_iff.1 hlength
    cases heq
    exact hmem
  · exact fun hmem => ⟨_, hmem, rfl⟩

theorem internAll_eq_singleton_iff {values : List β} {b : β} : internAll [] values = [b] ↔ values ≠ [] ∧ ∀ c ∈ values, c = b := by
  have hnodup : (internAll ([] : List β) values).Nodup := nodup_internAll List.nodup_nil
  have hmem : ∀ c, c ∈ internAll [] values ↔ c ∈ values := fun c => by
    rw [mem_internAll, or_iff_right List.not_mem_nil]
  constructor
  · intro h
    rw [h] at hmem
    refine ⟨?_, fun c hc => List.mem_singleton.1 ((hmem c).2 hc)⟩
    rintro rfl
    exact absurd ((hmem b).1 List.mem_cons_self) List.not_mem_nil
  · rintro ⟨hne, hall⟩
    obtain ⟨c, hc⟩ := List.exists_mem_of_ne_nil _ hne
    obtain rfl := hall c hc
    have hin : c ∈ internAll [] values := (hmem c).2 hc
    have hone : ∀ d ∈ internAll [] values, d = c := fun d hd => hall d ((hmem d).1 hd)
    cases hlist : internAll [] values with
    | nil =>
      rw [hlist] at hin
      cases hin
    | cons d rest =>
      rw [hlist] at hone hnodup
      obtain rfl := hone d List.mem_cons_self
      cases rest with
      | nil => rfl
      | cons e rest =>
        obtain rfl := hone e (List.mem_cons_of_mem _ List.mem_cons_self)
        exact absurd List.mem_cons_self (List.nodup_cons.1 hnodup).1

omit [DecidableEq β] in
/-- In a map with distinct keys the entry of a key is found. -/
theorem valuesOf_of_mem {m : List (κ × List β)} (h : (m.map Prod.fst).Nodup) {k : κ} {values : List β} (hmem : (k, values) ∈ m) :
    valuesOf m k = values := by
  have hsome : (m.lookup k).isSome := List.lookup_isSome_iff.2 ⟨(k, values), hmem, beq_self_eq_true k⟩
  obtain ⟨found, hfound⟩ := Option.isSome_iff_exists.1 hsome
  obtain ⟨l₁, l₂, rfl, -⟩ := List.lookup_eq_some_iff.1 hfound
  have hsame := List.inj_on_of_nodup_map h hmem (List.mem_append_right _ List.mem_cons_self) rfl
  rw [valuesOf, hfound, Option.getD_some, (Prod.mk.inj hsame).2]

omit [DecidableEq β] in
theorem mem_of_valuesOf {m : List (κ × List β)} {k : κ} {b : β} {values : List β} (h : valuesOf m k = b :: values) :
    (k, b :: values) ∈ m := by
  cases hfound : m.lookup k with
  | none =>
    rw [valuesOf, hfound] at h
    cases h
  | some found =>
    rw [valuesOf, hfound, Option.getD_some] at h
    obtain ⟨l₁, l₂, rfl, -⟩ := List.lookup_eq_some_iff.1 hfound
    exact h ▸ List.mem_append_right _ List.mem_cons_self

/-- A key has one value exactly if the values of the list that have it are one. -/
theorem find?_singles (l : List α) (k : κ) (b : β) :
    ((singles (addAll key value l [])).find? fun e => e.1 = k).map Prod.snd = some b ↔
      (∃ a ∈ l, key a = k) ∧ ∀ a ∈ l, key a = k → value a = b := by
  have hkeys : ((addAll key value l []).map Prod.fst).Nodup := addAll_keys_nodup key value l List.nodup_nil
  have hvalues : valuesOf (addAll key value l []) k = [b] ↔ (∃ a ∈ l, key a = k) ∧ ∀ a ∈ l, key a = k → value a = b := by
    rw [valuesOf_addAll, valuesOf, List.lookup_nil, Option.getD_none, internAll_eq_singleton_iff]
    have hall : (∀ c ∈ (l.filter fun a => key a = k).map value, c = b) ↔ ∀ a ∈ l, key a = k → value a = b := by
      rw [List.forall_mem_map]
      simp
    refine and_congr ?_ hall
    rw [Ne, List.map_eq_nil_iff, List.filter_eq_nil_iff]
    simp
  rw [← hvalues, Option.map_eq_some_iff]
  constructor
  · rintro ⟨e, hfind, rfl⟩
    obtain rfl : e.1 = k := by simpa using List.find?_some hfind
    exact valuesOf_of_mem hkeys (mem_singles.1 (List.mem_of_find?_eq_some hfind))
  · intro h
    have hmem : (k, b) ∈ singles (addAll key value l []) := mem_singles.2 (mem_of_valuesOf h)
    have hsome : ((singles (addAll key value l [])).find? fun e => e.1 = k).isSome :=
      List.find?_isSome.2 ⟨(k, b), hmem, by simp⟩
    obtain ⟨e, he⟩ := Option.isSome_iff_exists.1 hsome
    obtain rfl : e.1 = k := by simpa using List.find?_some he
    have hown := valuesOf_of_mem hkeys (mem_singles.1 (List.mem_of_find?_eq_some he))
    rw [h, List.cons.injEq] at hown
    exact ⟨e, he, hown.1.symm⟩

end

end FirstWins
