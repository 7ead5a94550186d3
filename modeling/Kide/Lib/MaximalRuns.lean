import Mathlib.Data.List.Basic

/-!
# Maximal runs

The maximal runs of letters with a property in a text, each with what is before and what is after it.

A scanner that has read a text up to a letter without the property, and behind it a part of a run, finds the runs ahead by
the next letter: it prolongs the part, or it ends it (`isRun_append_cons_iff`), or the text ends (`isRun_iff_of_inside`). The run
with which a text begins is what `takeWhile` takes (`takeWhile_append`).
-/

namespace MaximalRuns

variable {α : Type*} (p : α → Prop)

/-- The last letter, if there is one, does not have the property. -/
def EndsOutside (l : List α) : Prop := ∀ a, l.getLast? = some a → ¬ p a

/-- The first letter, if there is one, does not have the property. -/
def StartsOutside (l : List α) : Prop := ∀ a, l.head? = some a → ¬ p a

structure IsRun (text before run after : List α) : Prop where
  split : text = before ++ run ++ after
  nonempty : run ≠ []
  inside : ∀ a ∈ run, p a
  left : EndsOutside p before
  right : StartsOutside p after

variable {p}

theorem endsOutside_nil : EndsOutside p [] := fun _ h => by cases h

theorem startsOutside_nil : StartsOutside p [] := fun _ h => by cases h

theorem endsOutside_concat {l : List α} {a : α} (h : ¬ p a) : EndsOutside p (l ++ [a]) := by
  intro b hb
  rw [List.getLast?_append, List.getLast?_singleton, Option.some_or] at hb
  exact Option.some.inj hb ▸ h

theorem startsOutside_cons {l : List α} {a : α} (h : ¬ p a) : StartsOutside p (a :: l) := fun _ hb =>
  Option.some.inj hb ▸ h

/-- A text that ends outside does not end in a part of a run. -/
theorem EndsOutside.eq_nil {l part : List α} (h : EndsOutside p (l ++ part)) (hpart : ∀ a ∈ part, p a) : part = [] := by
  rcases List.eq_nil_or_concat part with rfl | ⟨init, a, rfl⟩
  · rfl
  · rw [List.concat_eq_append, ← List.append_assoc] at h
    exact absurd (hpart a (by simp)) (h a (by simp))

theorem StartsOutside.eq_nil {part l : List α} (h : StartsOutside p (part ++ l)) (hpart : ∀ a ∈ part, p a) : part = [] := by
  cases part with
  | nil => rfl
  | cons a part => exact absurd (hpart a List.mem_cons_self) (h a rfl)

/-- Behind a letter outside only what follows it counts. -/
theorem endsOutside_append_cons_iff {l v : List α} {a : α} (ha : ¬ p a) : EndsOutside p (l ++ a :: v) ↔ EndsOutside p v := by
  cases v with
  | nil => exact iff_of_true (endsOutside_concat ha) endsOutside_nil
  | cons b v =>
    have hlast : (l ++ a :: b :: v).getLast? = (b :: v).getLast? := by
      rw [List.append_cons, List.getLast?_append_of_ne_nil _ (List.cons_ne_nil b v)]
    unfold EndsOutside
    rw [hlast]

/-- In a text of letters with the property the run is the text. -/
theorem isRun_iff_of_inside {part u run after : List α} (hpart : ∀ a ∈ part, p a) :
    IsRun p part u run after ↔ part ≠ [] ∧ u = [] ∧ run = part ∧ after = [] := by
  constructor
  · rintro ⟨rfl, hne, -, hleft, hright⟩
    have hu : u = [] := EndsOutside.eq_nil (l := []) hleft fun a ha => hpart a (by simp [ha])
    have hafter : after = [] :=
      StartsOutside.eq_nil (l := []) (by rwa [List.append_nil]) fun a ha => hpart a (by simp [ha])
    subst hu hafter
    exact ⟨by simpa using hne, rfl, by simp, rfl⟩
  · rintro ⟨hne, rfl, rfl, rfl⟩
    exact ⟨by simp, hne, hpart, endsOutside_nil, startsOutside_nil⟩

/-- Where a part is ended by a letter outside, a run is the part or one of what follows the letter. -/
theorem isRun_append_cons_iff {part rest u run after : List α} {a : α} (hpart : ∀ b ∈ part, p b) (ha : ¬ p a) :
    IsRun p (part ++ a :: rest) u run after ↔
      (part ≠ [] ∧ u = [] ∧ run = part ∧ after = a :: rest) ∨ ∃ v, u = part ++ a :: v ∧ IsRun p rest v run after := by
  constructor
  · rintro ⟨hsplit, hne, hinside, hleft, hright⟩
    rw [List.append_assoc] at hsplit
    rcases List.append_eq_append_iff.1 hsplit with ⟨w, rfl, htail⟩ | ⟨w, rfl, htail⟩
    · cases w with
      | nil =>
        obtain ⟨b, tail, rfl⟩ := List.exists_cons_of_ne_nil hne
        obtain ⟨rfl, -⟩ := List.cons.inj htail
        exact absurd (hinside a List.mem_cons_self) ha
      | cons b w =>
        obtain ⟨rfl, hrest⟩ := List.cons.inj htail
        have hleft' := (endsOutside_append_cons_iff ha).1 hleft
        exact .inr ⟨w, rfl, hrest.trans (List.append_assoc _ _ _).symm, hne, hinside, hleft', hright⟩
    · -- What is before the run is in the part, so it is empty.
      obtain rfl : u = [] := EndsOutside.eq_nil (l := []) hleft fun b hb => hpart b (List.mem_append_left _ hb)
      left
      rcases List.append_eq_append_iff.1 htail with ⟨x, rfl, hafter⟩ | ⟨x, rfl, hafter⟩
      · obtain rfl : x = [] := StartsOutside.eq_nil (l := a :: rest) (hafter ▸ hright) fun b hb => hpart b (by simp [hb])
        exact ⟨by simpa using hne, rfl, by simp, hafter⟩
      · cases x with
        | nil => exact ⟨by simpa using hne, rfl, by simp, hafter.symm⟩
        | cons b x =>
          obtain ⟨rfl, -⟩ := List.cons.inj hafter
          exact absurd (hinside a (by simp)) ha
  · rintro (⟨hne, rfl, rfl, rfl⟩ | ⟨v, rfl, hsplit, hne, hinside, hleft, hright⟩)
    · exact ⟨by simp, hne, hpart, endsOutside_nil, startsOutside_cons ha⟩
    · exact ⟨by simp [hsplit], hne, hinside, (endsOutside_append_cons_iff ha).2 hleft, hright⟩

/-! ## The run at the beginning -/

theorem takeWhile_append {q : α → Bool} {a b : List α} (ha : ∀ c ∈ a, q c = true) (hb : StartsOutside (q · = true) b) :
    (a ++ b).takeWhile q = a := by
  rw [List.takeWhile_append_of_pos ha]
  cases b with
  | nil => rw [List.takeWhile_nil, List.append_nil]
  | cons c b => rw [List.takeWhile_cons_of_neg (hb c rfl), List.append_nil]

theorem dropWhile_append {q : α → Bool} {a b : List α} (ha : ∀ c ∈ a, q c = true) (hb : StartsOutside (q · = true) b) :
    (a ++ b).dropWhile q = b := by
  rw [List.dropWhile_append_of_pos ha]
  cases b with
  | nil => rfl
  | cons c b => exact List.dropWhile_cons_of_neg (hb c rfl)

theorem startsOutside_dropWhile (q : α → Bool) (l : List α) : StartsOutside (q · = true) (l.dropWhile q) := by
  induction l with
  | nil => exact startsOutside_nil
  | cons c l ih =>
    by_cases h : q c = true
    · rw [List.dropWhile_cons_of_pos h]
      exact ih
    · rw [List.dropWhile_cons_of_neg h]
      exact startsOutside_cons h

end MaximalRuns
