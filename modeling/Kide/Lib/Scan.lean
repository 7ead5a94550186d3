import Mathlib.Data.List.Basic
import Mathlib.Data.List.Infix

/-!
# Scanning a text for a pattern

A pattern is tried at a place of a text and sees what is before the place and what is after it. It is a function: of two ways to
read the text at one place it takes one.

* `find`: the leftmost match (`find_eq_some_iff`, `find_eq_none_iff`);
* `findAll`: the matches from the left that do not overlap. A match counts exactly if no earlier one that counts reaches into it
  (`mem_findAll_iff`), and they are found in the order of their places (`findAll_pairwise`).
-/

namespace Scans

variable {α β : Type*}

/-! ## The leftmost match -/

section Find
variable (p : List α → List α → Option β)

/-- The place is given by what is before it. -/
def find (before : List α) : List α → Option (List α × β)
  | [] => (p before []).map (before, ·)
  | a :: after =>
    match p before (a :: after) with
    | some b => some (before, b)
    | none => find (before ++ [a]) after

variable {p}

theorem find_from_eq_none_iff {before after : List α} :
    find p before after = none ↔ ∀ front rest, after = front ++ rest → p (before ++ front) rest = none := by
  induction after generalizing before with
  | nil =>
    rw [find, Option.map_eq_none_iff]
    refine ⟨fun h front rest heq => ?_, fun h => ?_⟩
    · obtain ⟨rfl, rfl⟩ := List.append_eq_nil_iff.1 heq.symm
      rwa [List.append_nil]
    · simpa using h [] [] rfl
  | cons a after ih =>
    rw [find]
    cases hp : p before (a :: after) with
    | some b =>
      refine iff_of_false (by simp) fun h => ?_
      have hnone := h [] (a :: after) rfl
      rw [List.append_nil, hp] at hnone
      cases hnone
    | none =>
      dsimp only
      rw [ih]
      constructor
      · intro h front rest heq
        cases front with
        | nil =>
          obtain rfl : a :: after = rest := heq
          rwa [List.append_nil]
        | cons c front =>
          obtain ⟨rfl, rfl⟩ := List.cons.inj heq
          rw [List.append_cons]
          exact h front rest rfl
      · intro h front rest heq
        rw [← List.append_cons]
        exact h (a :: front) rest (congrArg (a :: ·) heq)

theorem find_from_eq_some_iff {before after place : List α} {b : β} :
    find p before after = some (place, b) ↔ ∃ front rest, after = front ++ rest ∧ place = before ++ front ∧ p place rest = some b ∧
      ∀ front' rest', after = front' ++ rest' → front'.length < front.length → p (before ++ front') rest' = none := by
  induction after generalizing before with
  | nil =>
    rw [find, Option.map_eq_some_iff]
    constructor
    · rintro ⟨c, hc, heq⟩
      cases heq
      exact ⟨[], [], rfl, (List.append_nil _).symm, hc, fun _ _ _ hlt => absurd hlt (Nat.not_lt_zero _)⟩
    · rintro ⟨front, rest, heq, rfl, hp, -⟩
      obtain ⟨rfl, rfl⟩ := List.append_eq_nil_iff.1 heq.symm
      rw [List.append_nil] at hp
      exact ⟨b, hp, by rw [List.append_nil]⟩
  | cons a after ih =>
    rw [find]
    cases hp : p before (a :: after) with
    | some c =>
      dsimp only
      constructor
      · intro h
        cases h
        exact ⟨[], a :: after, rfl, (List.append_nil _).symm, hp, fun _ _ _ hlt => absurd hlt (Nat.not_lt_zero _)⟩
      · rintro ⟨front, rest, heq, rfl, hfound, hfirst⟩
        cases front with
        | nil =>
          obtain rfl : a :: after = rest := heq
          rw [List.append_nil] at hfound ⊢
          rw [hp] at hfound
          cases hfound
          rfl
        | cons c' front =>
          have hnone := hfirst [] (a :: after) rfl (Nat.succ_pos _)
          rw [List.append_nil, hp] at hnone
          cases hnone
    | none =>
      dsimp only
      rw [ih]
      constructor
      · rintro ⟨front, rest, rfl, rfl, hfound, hfirst⟩
        refine ⟨a :: front, rest, rfl, (List.append_cons _ _ _).symm, hfound, fun front' rest' heq hlt => ?_⟩
        cases front' with
        | nil =>
          obtain rfl : a :: (front ++ rest) = rest' := heq
          rwa [List.append_nil]
        | cons c front' =>
          obtain ⟨rfl, hrest⟩ := List.cons.inj heq
          rw [List.append_cons]
          exact hfirst front' rest' hrest (Nat.lt_of_succ_lt_succ hlt)
      · rintro ⟨front, rest, heq, rfl, hfound, hfirst⟩
        cases front with
        | nil =>
          obtain rfl : a :: after = rest := heq
          rw [List.append_nil, hp] at hfound
          cases hfound
        | cons c front =>
          obtain ⟨rfl, rfl⟩ := List.cons.inj heq
          refine ⟨front, rest, rfl, List.append_cons _ _ _, hfound, fun front' rest' heq' hlt => ?_⟩
          rw [← List.append_cons]
          exact hfirst (a :: front') rest' (congrArg (a :: ·) heq') (Nat.succ_lt_succ hlt)

theorem find_eq_none_iff {text : List α} :
    find p [] text = none ↔ ∀ place rest, text = place ++ rest → p place rest = none := find_from_eq_none_iff

/-- The leftmost match of a text. -/
theorem find_eq_some_iff {text place : List α} {b : β} :
    find p [] text = some (place, b) ↔ ∃ rest, text = place ++ rest ∧ p place rest = some b ∧
      ∀ place' rest', text = place' ++ rest' → place'.length < place.length → p place' rest' = none := by
  rw [find_from_eq_some_iff]
  constructor
  · rintro ⟨front, rest, heq, rfl, hfound, hfirst⟩
    exact ⟨rest, heq, hfound, hfirst⟩
  · rintro ⟨rest, heq, hfound, hfirst⟩
    exact ⟨place, rest, heq, rfl, hfound, hfirst⟩

end Find

/-! ## All matches -/

section FindAll
variable (p : List α → List α → Option (Nat × β))

/-- The matches behind the next `skip` letters. The pattern reads at least one letter; its number of letters is given with the value. -/
def findAll : Nat → List α → List α → List (List α × β)
  | _, _, [] => []
  | skip + 1, before, a :: after => findAll skip (before ++ [a]) after
  | 0, before, a :: after =>
    match p before (a :: after) with
    | some (n, b) => (before, b) :: findAll (n - 1) (before ++ [a]) after
    | none => findAll 0 (before ++ [a]) after

variable {p}

theorem findAll_extends {skip : Nat} {before after place : List α} {b : β} (h : (place, b) ∈ findAll p skip before after) :
    before <+: place := by
  induction after generalizing skip before with
  | nil =>
    rw [findAll] at h
    cases h
  | cons a after ih =>
    cases skip with
    | succ skip => exact (List.prefix_append _ _).trans (ih h)
    | zero =>
      rw [findAll] at h
      cases hp : p before (a :: after) with
      | none =>
        rw [hp] at h
        exact (List.prefix_append _ _).trans (ih h)
      | some found =>
        rw [hp] at h
        rcases List.mem_cons.1 h with heq | htail
        · cases heq
          exact List.prefix_refl _
        · exact (List.prefix_append _ _).trans (ih htail)

theorem findAll_pairwise (skip : Nat) (before after : List α) :
    (findAll p skip before after).Pairwise fun x y => x.1.length < y.1.length := by
  induction after generalizing skip before with
  | nil =>
    rw [findAll]
    exact .nil
  | cons a after ih =>
    cases skip with
    | succ skip => exact ih skip _
    | zero =>
      rw [findAll]
      cases hp : p before (a :: after) with
      | none => exact ih 0 _
      | some found =>
        refine List.Pairwise.cons (fun x hx => ?_) (ih _ _)
        have hlength := (findAll_extends hx).length_le
        rw [List.length_append, List.length_singleton] at hlength
        exact hlength

/-- The matches that count, and none that counts reaches from before the place into it. -/
def Counts (p : List α → List α → Option (Nat × β)) (found : List (List α × β)) (text place : List α) : Prop :=
  ∀ place' b', (place', b') ∈ found → ∀ n rest, text = place' ++ rest → p place' rest = some (n, b') →
    place'.length < place.length → place'.length + n ≤ place.length

theorem counts_cons_iff {found : List (List α × β)} {before after place : List α} {n : Nat} {b : β}
    (hp : p before after = some (n, b)) : Counts p ((before, b) :: found) (before ++ after) place ↔
      (before.length < place.length → before.length + n ≤ place.length) ∧ Counts p found (before ++ after) place := by
  constructor
  · exact fun h => ⟨h before b List.mem_cons_self n after rfl hp, fun place' b' hmem => h place' b' (List.mem_cons_of_mem _ hmem)⟩
  · rintro ⟨hfirst, hrest⟩ place' b' hmem n' rest heq hfound
    rcases List.mem_cons.1 hmem with hsame | htail
    · cases hsame
      obtain rfl := List.append_cancel_left heq
      rw [hp] at hfound
      cases hfound
      exact hfirst
    · exact hrest place' b' htail n' rest heq hfound

theorem mem_findAll_from_iff (hp : ∀ place rest n b, p place rest = some (n, b) → 0 < n ∧ rest ≠ [])
    {skip : Nat} {before after place : List α} {b : β} : (place, b) ∈ findAll p skip before after ↔
      ∃ front rest n, after = front ++ rest ∧ place = before ++ front ∧ skip ≤ front.length ∧ p place rest = some (n, b) ∧
        Counts p (findAll p skip before after) (before ++ after) place := by
  induction after generalizing skip before with
  | nil =>
    rw [findAll]
    refine iff_of_false List.not_mem_nil ?_
    rintro ⟨front, rest, n, heq, -, -, hfound, -⟩
    exact (hp _ _ _ _ hfound).2 (List.append_eq_nil_iff.1 heq.symm).2
  | cons a after ih =>
    cases skip with
    | succ skip =>
      rw [findAll, ih, List.append_cons before a after]
      constructor
      · rintro ⟨front, rest, n, rfl, rfl, hskip, hfound, hcounts⟩
        exact ⟨a :: front, rest, n, rfl, (List.append_cons _ _ _).symm, Nat.succ_le_succ hskip, hfound, hcounts⟩
      · rintro ⟨front, rest, n, heq, rfl, hskip, hfound, hcounts⟩
        cases front with
        | nil => exact absurd hskip (Nat.not_succ_le_zero _)
        | cons c front =>
          obtain ⟨rfl, rfl⟩ := List.cons.inj heq
          exact ⟨front, rest, n, rfl, List.append_cons _ _ _, Nat.le_of_succ_le_succ hskip, hfound, hcounts⟩
    | zero =>
      rw [findAll]
      cases hfirst : p before (a :: after) with
      | none =>
        dsimp only
        rw [ih, List.append_cons before a after]
        constructor
        · rintro ⟨front, rest, n, rfl, rfl, -, hfound, hcounts⟩
          exact ⟨a :: front, rest, n, rfl, (List.append_cons _ _ _).symm, Nat.zero_le _, hfound, hcounts⟩
        · rintro ⟨front, rest, n, heq, rfl, -, hfound, hcounts⟩
          cases front with
          | nil =>
            obtain rfl : a :: after = rest := heq
            rw [List.append_nil, hfirst] at hfound
            cases hfound
          | cons c front =>
            obtain ⟨rfl, rfl⟩ := List.cons.inj heq
            exact ⟨front, rest, n, rfl, List.append_cons _ _ _, Nat.zero_le _, hfound, hcounts⟩
      | some found =>
        obtain ⟨m, c⟩ := found
        have hpos := (hp _ _ _ _ hfirst).1
        dsimp only
        rw [List.mem_cons, ih]
        constructor
        · rintro (heq | ⟨front, rest, n, rfl, rfl, hskip, hfound, hcounts⟩)
          · cases heq
            refine ⟨[], a :: after, m, rfl, (List.append_nil _).symm, le_rfl, hfirst, (counts_cons_iff hfirst).2
              ⟨fun hlt => absurd hlt (lt_irrefl _), fun place' b' hmem n rest _ _ hlt => ?_⟩⟩
            have hlength := (findAll_extends hmem).length_le
            rw [List.length_append] at hlength
            omega
          · refine ⟨a :: front, rest, n, rfl, (List.append_cons _ _ _).symm, Nat.zero_le _, hfound, (counts_cons_iff hfirst).2
              ⟨fun _ => ?_, ?_⟩⟩
            · rw [List.length_append, List.length_append, List.length_singleton]
              omega
            · rwa [List.append_cons before a (front ++ rest)]
        · rintro ⟨front, rest, n, heq, rfl, -, hfound, hcounts⟩
          obtain ⟨hreach, hcounts⟩ := (counts_cons_iff hfirst).1 hcounts
          cases front with
          | nil =>
            obtain rfl : a :: after = rest := heq
            rw [List.append_nil, hfirst] at hfound
            cases hfound
            rw [List.append_nil]
            exact .inl rfl
          | cons d front =>
            obtain ⟨rfl, rfl⟩ := List.cons.inj heq
            rw [List.length_append, List.length_cons] at hreach
            refine .inr ⟨front, rest, n, rfl, List.append_cons _ _ _, ?_, hfound, ?_⟩
            · have := hreach (by omega)
              omega
            · rwa [List.append_cons before a (front.append rest)] at hcounts

/-- A match counts exactly if no earlier one that counts reaches into it. -/
theorem mem_findAll_iff (hp : ∀ place rest n b, p place rest = some (n, b) → 0 < n ∧ rest ≠ []) {text place : List α} {b : β} :
    (place, b) ∈ findAll p 0 [] text ↔
      ∃ rest n, text = place ++ rest ∧ p place rest = some (n, b) ∧ Counts p (findAll p 0 [] text) text place := by
  rw [mem_findAll_from_iff hp]
  constructor
  · rintro ⟨front, rest, n, heq, rfl, -, hfound, hcounts⟩
    exact ⟨rest, n, heq, hfound, hcounts⟩
  · rintro ⟨rest, n, heq, hfound, hcounts⟩
    exact ⟨place, rest, n, heq, rfl, Nat.zero_le _, hfound, hcounts⟩

/-- The first of a sorted list with a property is the least one. -/
theorem find?_eq_some_iff_least {γ : Type*} {l : List γ} {f : γ → Nat} (hl : l.Pairwise fun x y => f x < f y) {q : γ → Bool} {a : γ} :
    l.find? q = some a ↔ a ∈ l ∧ q a = true ∧ ∀ b ∈ l, q b = true → f a ≤ f b := by
  induction hl with
  | nil => simp
  | @cons c l hc _ ih =>
    by_cases hq : q c = true
    · rw [List.find?_cons_of_pos hq]
      constructor
      · rintro ⟨⟩
        exact ⟨List.mem_cons_self, hq, List.forall_mem_cons.2 ⟨fun _ => le_rfl, fun b hb _ => (hc b hb).le⟩⟩
      · rintro ⟨hmem, -, hleast⟩
        rcases List.mem_cons.1 hmem with rfl | htail
        · rfl
        · exact absurd (hleast c List.mem_cons_self hq) (not_le.2 (hc a htail))
    · rw [List.find?_cons_of_neg hq, ih, List.forall_mem_cons, List.mem_cons]
      constructor
      · exact fun ⟨hmem, ha, hleast⟩ => ⟨.inr hmem, ha, fun h => absurd h hq, hleast⟩
      · rintro ⟨rfl | hmem, ha, -, hleast⟩
        · exact absurd ha hq
        · exact ⟨hmem, ha, hleast⟩

end FindAll

end Scans
