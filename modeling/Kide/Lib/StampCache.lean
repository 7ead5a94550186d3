import Kide.Lib.Collect

/-!
# Caches by stamp

A cache keeps a digest for each key, with a stamp; the digest of a value is taken from it if the stamp is the one that is seen
now, and computed otherwise. The stamp says nothing about the value, so what a digest is one of depends on what was seen before.

* `first`: the value at the beginning of the unbroken row of times at which the key was seen with the stamp;
* `Represents.refresh`: the cache has the digests of the first values.
-/

namespace StampCache
open Collects

variable {K S V D : Type*}

/-- What is seen of a key. -/
structure Sight (K S V : Type*) where
  key : K
  stamp : S
  value : V

structure Row (K S D : Type*) where
  key : K
  stamp : S
  digest : D

variable [DecidableEq K] [DecidableEq S]

def lookup (rows : List (Row K S D)) (key : K) (stamp : S) : Option D :=
  ((lastOf Row.key rows key).filter (·.stamp = stamp)).map Row.digest

def refresh (digest : V → D) (rows : List (Row K S D)) (sight : Sight K S V) : Row K S D :=
  ⟨sight.key, sight.stamp, (lookup rows sight.key sight.stamp).getD (digest sight.value)⟩

/-- The times are in the list with the last one first. -/
def first : List (List (Sight K S V)) → K → S → Option V
  | [], _, _ => none
  | sights :: earlier, key, stamp =>
    (sights.find? fun sight => sight.key = key && sight.stamp = stamp).map fun sight => (first earlier key stamp).getD sight.value

def Represents (digest : V → D) (rows : List (Row K S D)) (recorded : List (List (Sight K S V))) : Prop :=
  ∀ key stamp, lookup rows key stamp = (first recorded key stamp).map digest

variable {digest : V → D} {rows : List (Row K S D)} {recorded : List (List (Sight K S V))} {sights : List (Sight K S V)}

theorem represents_nil : Represents digest ([] : List (Row K S D)) ([] : List (List (Sight K S V))) := fun _ _ => rfl

/-- Under distinct keys, a key is seen with a stamp by its only sight. -/
theorem find?_sight_eq (hnd : (sights.map Sight.key).Nodup) (key : K) (stamp : S) :
    (sights.find? fun sight => sight.key = key && sight.stamp = stamp) =
      (lastOf Sight.key sights key).filter (·.stamp = stamp) := by
  apply Option.ext
  intro sight
  rw [Option.filter_eq_some_iff, lastOf_eq_some_iff Sight.key hnd, decide_eq_true_iff]
  constructor
  · intro h
    have hkeys := List.find?_some h
    rw [Bool.and_eq_true, decide_eq_true_iff, decide_eq_true_iff] at hkeys
    exact ⟨⟨List.mem_of_find?_eq_some h, hkeys.1⟩, hkeys.2⟩
  · rintro ⟨⟨hmem, hkey⟩, hstamp⟩
    have hsome : (sights.find? fun sight => sight.key = key && sight.stamp = stamp).isSome :=
      List.find?_isSome.2 ⟨sight, hmem, by simp [hkey, hstamp]⟩
    obtain ⟨other, hother⟩ := Option.isSome_iff_exists.1 hsome
    have hkeys := List.find?_some hother
    rw [Bool.and_eq_true, decide_eq_true_iff] at hkeys
    have hsame := List.inj_on_of_nodup_map hnd (List.mem_of_find?_eq_some hother) hmem (hkeys.1.trans hkey.symm)
    rw [hother, hsame]

/-- **Refreshing.** The rows of what is seen now have the digests of the first values. -/
theorem Represents.refresh (h : Represents digest rows recorded) (hnd : (sights.map Sight.key).Nodup) :
    Represents digest (sights.map (StampCache.refresh digest rows)) (sights :: recorded) := by
  intro key stamp
  have hkey : (fun sight => (StampCache.refresh digest rows sight).key) = (Sight.key : Sight K S V → K) := rfl
  rw [first, find?_sight_eq hnd, lookup, lastOf_map, hkey]
  cases hlast : lastOf Sight.key sights key with
  | none => rfl
  | some sight =>
    obtain ⟨-, rfl⟩ := lastOf_some Sight.key hlast
    rw [Option.map_some, Option.filter_some, Option.filter_some]
    by_cases hstamp : sight.stamp = stamp
    · subst hstamp
      have hrow : decide ((StampCache.refresh digest rows sight).stamp = sight.stamp) = true := decide_eq_true rfl
      rw [if_pos hrow, if_pos (decide_eq_true rfl), Option.map_some, Option.map_some, Option.map_some]
      change some ((lookup rows sight.key sight.stamp).getD (digest sight.value)) = _
      rw [h]
      cases first recorded sight.key sight.stamp <;> rfl
    · rw [if_neg (by rwa [decide_eq_true_iff]), if_neg (by rwa [decide_eq_true_iff])]
      rfl

/-- A first value was seen. -/
theorem first_eq_some {key : K} {stamp : S} {value : V} (h : first recorded key stamp = some value) :
    ∃ sights ∈ recorded, ∃ sight ∈ sights, sight.key = key ∧ sight.stamp = stamp ∧ sight.value = value := by
  induction recorded with
  | nil => cases h
  | cons sights earlier ih =>
    obtain ⟨sight, hsight, hvalue⟩ := Option.map_eq_some_iff.1 h
    cases hearlier : first earlier key stamp with
    | none =>
      have hkeys := List.find?_some hsight
      rw [Bool.and_eq_true, decide_eq_true_iff, decide_eq_true_iff] at hkeys
      rw [hearlier] at hvalue
      exact ⟨sights, List.mem_cons_self, sight, List.mem_of_find?_eq_some hsight, hkeys.1, hkeys.2, hvalue⟩
    | some before =>
      rw [hearlier] at hvalue
      obtain ⟨others, hothers, hseen⟩ := ih (hearlier.trans (congrArg some hvalue))
      exact ⟨others, List.mem_cons_of_mem _ hothers, hseen⟩

end StampCache
