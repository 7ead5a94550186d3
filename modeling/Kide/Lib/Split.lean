import Mathlib.Data.List.DropRight
import Mathlib.Data.List.Infix

/-!
# Cutting a list at a separator

The separator is a list of its own, and it is searched from the left (`str::split`, `str::split_once`).

* `Clear sep a`: where the separator follows `a`, it does not begin inside `a`;
* `splitOnce`: what is before and what is after the first separator (`splitOnce_append`);
* `split`: the pieces between the separators. `split_intercalate`: clear pieces are read back; `exists_cut`: a piece that
  has the separator in it is cut at the first one.

A separator of one element is the one of `List.splitOn` (`split_singleton`).
-/

namespace Splits

variable {α : Type*} {sep : List α}

/-! ## Around the text -/

section
variable (p : α → Bool)

/-- `trim` -/
def trim (l : List α) : List α := (l.dropWhile p).rdropWhile p

theorem trim_of_forall {l : List α} (h : ∀ c ∈ l, p c = false) : trim p l = l := by
  rw [trim, List.dropWhile_eq_self_iff.2, List.rdropWhile_eq_self_iff.2]
  · intro hne
    rw [h _ (List.getLast_mem hne)]
    decide
  · intro hpos
    rw [h _ (List.getElem_mem hpos)]
    decide

theorem trim_concat_of_pos {c : α} (h : p c = true) (l : List α) : trim p (l ++ [c]) = trim p l := by
  unfold trim
  rw [List.dropWhile_append]
  split
  · next hempty =>
    rw [List.isEmpty_iff] at hempty
    rw [hempty, List.dropWhile_cons_of_pos h]
    rfl
  · exact List.rdropWhile_concat_pos p _ c h

theorem trim_cons_of_pos {c : α} {l : List α} (h : p c = true) : trim p (c :: l) = trim p l := by
  rw [trim, List.dropWhile_cons_of_pos h, trim]

/-- The first element stays. -/
def Starts (l : List α) : Prop := ∃ c rest, l = c :: rest ∧ p c = false

/-- The last element stays. -/
def Stops (l : List α) : Prop := ∃ rest c, l = rest ++ [c] ∧ p c = false

variable {p}

theorem Starts.append {a : List α} (h : Starts p a) (b : List α) : Starts p (a ++ b) := by
  obtain ⟨c, rest, rfl, hc⟩ := h
  exact ⟨c, rest ++ b, rfl, hc⟩

theorem Stops.append {b : List α} (h : Stops p b) (a : List α) : Stops p (a ++ b) := by
  obtain ⟨rest, c, rfl, hc⟩ := h
  exact ⟨a ++ rest, c, (List.append_assoc a rest [c]).symm, hc⟩

theorem starts_of_forall {l : List α} (hne : l ≠ []) (h : ∀ c ∈ l, p c = false) : Starts p l := by
  obtain ⟨c, rest, rfl⟩ := List.exists_cons_of_ne_nil hne
  exact ⟨c, rest, rfl, h c List.mem_cons_self⟩

theorem stops_of_forall {l : List α} (hne : l ≠ []) (h : ∀ c ∈ l, p c = false) : Stops p l :=
  ⟨l.dropLast, l.getLast hne, (List.dropLast_append_getLast hne).symm, h _ (List.getLast_mem hne)⟩

theorem trim_of_starts {l : List α} (h : Starts p l) : trim p l = l.rdropWhile p := by
  obtain ⟨c, rest, rfl, hc⟩ := h
  rw [trim, List.dropWhile_cons_of_neg (by simp [hc])]

theorem trim_ne_nil {l : List α} (h : Starts p l) : trim p l ≠ [] := by
  rw [trim_of_starts h]
  obtain ⟨c, rest, rfl, hc⟩ := h
  intro hnil
  rw [List.rdropWhile_eq_nil_iff] at hnil
  rw [hnil c List.mem_cons_self] at hc
  cases hc

theorem trim_eq_self {l : List α} (hstarts : Starts p l) (hstops : Stops p l) : trim p l = l := by
  rw [trim_of_starts hstarts]
  obtain ⟨rest, c, rfl, hc⟩ := hstops
  exact List.rdropWhile_concat_neg _ _ _ (by simp [hc])

/-- Only what follows the last element that stays is cut. -/
theorem rdropWhile_append_cons {c : α} (h : p c = false) (a b : List α) : (a ++ c :: b).rdropWhile p = a ++ c :: b.rdropWhile p := by
  have hlast : (c :: a.reverse).dropWhile p = c :: a.reverse := List.dropWhile_cons_of_neg (by simp [h])
  unfold List.rdropWhile
  rw [List.reverse_append, List.reverse_cons, List.append_assoc, List.singleton_append, List.dropWhile_append, hlast]
  by_cases hall : (b.reverse.dropWhile p).isEmpty = true
  · rw [if_pos hall, List.isEmpty_iff.1 hall]
    simp
  · rw [if_neg hall]
    simp

end

/-! ## Where a separator begins -/

/-- The separator does not begin inside `a` where it follows `a`. -/
def Clear (sep a : List α) : Prop := ¬ sep <:+: a ++ sep.dropLast

theorem Clear.not_within {a : List α} (h : Clear sep a) : ¬ sep <:+: a := fun hin => h (hin.trans (List.prefix_append a _).isInfix)

theorem Clear.tail {c : α} {a : List α} (h : Clear sep (c :: a)) : Clear sep a := fun hin =>
  h (hin.trans (List.suffix_cons c _).isInfix)

theorem clear_nil (hsep : sep ≠ []) : Clear sep [] := by
  intro h
  have hlength := h.length_le
  have hpos := List.length_pos_iff.2 hsep
  rw [List.nil_append, List.length_dropLast] at hlength
  omega

theorem Clear.not_prefix {c : α} {a b : List α} (h : Clear sep (c :: a)) : ¬ sep <+: c :: a ++ sep ++ b := by
  intro hstarts
  have hstart : c :: a ++ sep.dropLast <+: c :: a ++ sep ++ b := by
    rw [List.append_assoc]
    exact (List.prefix_append_right_inj _).2 ((List.dropLast_prefix sep).trans (List.prefix_append _ _))
  refine h (List.IsPrefix.isInfix (List.prefix_of_prefix_length_le hstarts hstart ?_))
  rw [List.length_append, List.length_dropLast, List.length_cons]
  omega

theorem clear_singleton_iff {x : α} {a : List α} : Clear [x] a ↔ x ∉ a := by
  rw [Clear, List.dropLast_singleton, List.append_nil, List.singleton_infix_iff]

/-- An element that the separator does not have stops it from running across. -/
theorem infix_append_cons_iff {c : α} (hc : c ∉ sep) {a b : List α} :
    sep <:+: a ++ c :: b ↔ sep <:+: a ∨ sep <:+: b := by
  constructor
  · induction a with
    | nil =>
      intro h
      rcases List.infix_cons_iff.1 h with hstarts | hrest
      · cases sep with
        | nil => exact .inl List.nil_infix
        | cons d sep =>
          rw [List.cons_prefix_cons] at hstarts
          exact absurd (hstarts.1 ▸ List.mem_cons_self) hc
      · exact .inr hrest
    | cons d a ih =>
      intro h
      rw [List.cons_append] at h
      rcases List.infix_cons_iff.1 h with hstarts | hrest
      · refine .inl (List.IsPrefix.isInfix ?_)
        by_cases hlength : sep.length ≤ (d :: a).length
        · exact List.prefix_of_prefix_length_le hstarts (List.prefix_append (d :: a) (c :: b)) hlength
        · have hlonger : d :: a ++ [c] <+: sep := by
            have hfront : d :: a ++ [c] <+: d :: a ++ c :: b := ⟨b, by simp⟩
            refine List.prefix_of_prefix_length_le hfront hstarts ?_
            rw [List.length_append, List.length_singleton]
            omega
          exact absurd (hlonger.subset (by simp)) hc
      · exact (ih hrest).imp_left fun h => h.trans (List.suffix_cons d a).isInfix
  · rintro (h | h)
    · exact h.trans (List.prefix_append _ _).isInfix
    · exact h.trans ((List.suffix_cons c b).trans (List.suffix_append a _)).isInfix

/-- A separator that is not in front begins behind an element it does not have. -/
theorem cut_behind {c : α} (hsep : sep ≠ []) (hc : c ∉ sep) {front rest a b : List α} (hfront : ¬ sep <:+: front)
    (h : a ++ sep ++ b = front ++ c :: rest) : ∃ a', a = front ++ c :: a' ∧ rest = a' ++ sep ++ b := by
  rw [List.append_assoc] at h
  rcases List.append_eq_append_iff.1 h with ⟨x, rfl, hx⟩ | ⟨x, rfl, hx⟩
  · rcases List.append_eq_append_iff.1 hx with ⟨y, rfl, -⟩ | ⟨y, rfl, hy⟩
    · exact absurd ⟨a, y, by simp⟩ hfront
    · cases y with
      | nil => exact absurd ⟨a, [], by simp⟩ hfront
      | cons d y =>
        rw [List.cons_append, List.cons.injEq] at hy
        exact absurd (by simp [hy.1]) hc
  · cases x with
    | nil =>
      obtain ⟨d, sep', rfl⟩ := List.exists_cons_of_ne_nil hsep
      rw [List.nil_append, List.cons_append, List.cons.injEq] at hx
      exact absurd (hx.1 ▸ List.mem_cons_self) hc
    | cons d x =>
      rw [List.cons_append, List.cons.injEq] at hx
      exact ⟨x, by rw [hx.1], by rw [hx.2, List.append_assoc]⟩

theorem intercalate_cons {piece : List α} {pieces : List (List α)} (h : pieces ≠ []) :
    sep.intercalate (piece :: pieces) = piece ++ sep ++ sep.intercalate pieces := by
  obtain ⟨next, rest, rfl⟩ := List.exists_cons_of_ne_nil h
  simp [List.intercalate]

theorem intercalate_singleton (piece : List α) : sep.intercalate [piece] = piece := by simp [List.intercalate]

theorem mem_intercalate {c : α} {pieces : List (List α)} (h : c ∈ sep.intercalate pieces) :
    c ∈ sep ∨ ∃ piece ∈ pieces, c ∈ piece := by
  induction pieces with
  | nil => cases h
  | cons piece pieces ih =>
    by_cases hend : pieces = []
    · rw [hend, intercalate_singleton] at h
      exact .inr ⟨piece, List.mem_cons_self, h⟩
    · rw [intercalate_cons hend, List.mem_append, List.mem_append] at h
      rcases h with (h | h) | h
      · exact .inr ⟨piece, List.mem_cons_self, h⟩
      · exact .inl h
      · exact (ih h).imp_right fun hin => hin.imp fun _ hother => ⟨List.mem_cons_of_mem _ hother.1, hother.2⟩

theorem mem_intercalate_of_mem {c : α} {piece : List α} {pieces : List (List α)} (hpiece : piece ∈ pieces) (hc : c ∈ piece) :
    c ∈ sep.intercalate pieces := by
  induction pieces with
  | nil => cases hpiece
  | cons first pieces ih =>
    by_cases hend : pieces = []
    · subst hend
      rw [intercalate_singleton]
      exact List.mem_singleton.1 hpiece ▸ hc
    · rw [intercalate_cons hend, List.mem_append, List.mem_append]
      rcases List.mem_cons.1 hpiece with rfl | hpiece
      · exact .inl (.inl hc)
      · exact .inr (ih hpiece)

theorem Starts.intercalate {p : α → Bool} {pieces : List (List α)} (hne : pieces ≠ []) (h : ∀ piece ∈ pieces, Starts p piece) :
    Starts p (sep.intercalate pieces) := by
  obtain ⟨first, rest, rfl⟩ := List.exists_cons_of_ne_nil hne
  have hfirst := h first List.mem_cons_self
  by_cases hend : rest = []
  · rwa [hend, intercalate_singleton]
  · rw [intercalate_cons hend, List.append_assoc]
    exact hfirst.append _

theorem Stops.intercalate {p : α → Bool} {pieces : List (List α)} (hne : pieces ≠ []) (h : ∀ piece ∈ pieces, Stops p piece) :
    Stops p (sep.intercalate pieces) := by
  induction pieces with
  | nil => exact absurd rfl hne
  | cons piece pieces ih =>
    obtain ⟨hpiece, hrest⟩ := List.forall_mem_cons.1 h
    by_cases hend : pieces = []
    · rwa [hend, intercalate_singleton]
    · rw [intercalate_cons hend]
      exact (ih hend hrest).append _

variable [DecidableEq α]

/-! ## Prefixes and suffixes -/

theorem dropPrefix?_append (start rest : List α) : (start ++ rest).dropPrefix? start = some rest :=
  List.dropPrefix?_append_of_beq rest (beq_self_eq_true start)

theorem dropPrefix?_eq_some_iff {l start rest : List α} : l.dropPrefix? start = some rest ↔ l = start ++ rest := by
  rw [List.dropPrefix?_eq_some_iff]
  constructor
  · rintro ⟨start', rfl, h⟩
    rw [eq_of_beq h]
  · rintro rfl
    exact ⟨start, rfl, beq_self_eq_true start⟩

theorem dropSuffix?_eq_some_iff {l stop rest : List α} : l.dropSuffix? stop = some rest ↔ l = rest ++ stop := by
  rw [List.dropSuffix?_eq_some_iff]
  constructor
  · rintro ⟨stop', rfl, h⟩
    rw [eq_of_beq h]
  · rintro rfl
    exact ⟨stop, rfl, beq_self_eq_true stop⟩

theorem dropSuffix?_append (rest stop : List α) : (rest ++ stop).dropSuffix? stop = some rest :=
  dropSuffix?_eq_some_iff.2 rfl

/-! ## The first separator -/

/-- `split_once` -/
def splitOnce (sep : List α) : List α → Option (List α × List α)
  | [] => if sep = [] then some ([], []) else none
  | c :: l =>
    match (c :: l).dropPrefix? sep with
    | some rest => some ([], rest)
    | none => (splitOnce sep l).map fun cut => (c :: cut.1, cut.2)

theorem splitOnce_append (hsep : sep ≠ []) {a : List α} (h : Clear sep a) (b : List α) :
    splitOnce sep (a ++ sep ++ b) = some (a, b) := by
  induction a with
  | nil =>
    obtain ⟨d, rest, rfl⟩ := List.exists_cons_of_ne_nil hsep
    rw [List.nil_append, List.cons_append, splitOnce, ← List.cons_append, dropPrefix?_append]
  | cons c a ih =>
    have hnone : (c :: (a ++ sep ++ b)).dropPrefix? sep = none := by
      rw [Option.eq_none_iff_forall_not_mem]
      exact fun rest hrest => h.not_prefix ⟨rest, (dropPrefix?_eq_some_iff.1 hrest).symm⟩
    rw [List.cons_append, List.cons_append, splitOnce, hnone, ih h.tail]
    rfl

/-- The first of the separators a list has. -/
theorem exists_first (hsep : sep ≠ []) {l : List α} (h : sep <:+: l) : ∃ a b, l = a ++ sep ++ b ∧ Clear sep a := by
  induction l with
  | nil => exact absurd (List.infix_nil.1 h) hsep
  | cons c l ih =>
    by_cases hstarts : sep <+: c :: l
    · obtain ⟨b, hb⟩ := hstarts
      exact ⟨[], b, hb.symm, clear_nil hsep⟩
    · obtain ⟨a, b, rfl, hclear⟩ := ih ((List.infix_cons_iff.1 h).resolve_left hstarts)
      refine ⟨c :: a, b, rfl, fun hin => ?_⟩
      rcases List.infix_cons_iff.1 hin with hstart | hrest
      · refine hstarts (hstart.trans ?_)
        rw [List.append_assoc]
        exact (List.prefix_append_right_inj (c :: a)).2 ((List.dropLast_prefix sep).trans (List.prefix_append _ _))
      · exact hclear hrest

/-! ## All separators -/

/-- `skip` elements still belong to a separator. -/
def splitFrom (sep : List α) : Nat → List α → List (List α)
  | _, [] => [[]]
  | skip + 1, _ :: l => splitFrom sep skip l
  | 0, c :: l =>
    if sep <+: c :: l then [] :: splitFrom sep (sep.length - 1) l
    else (splitFrom sep 0 l).modifyHead (c :: ·)

/-- `split` -/
def split (sep l : List α) : List (List α) := splitFrom sep 0 l

theorem splitFrom_skip (a b : List α) : splitFrom sep a.length (a ++ b) = split sep b := by
  induction a with
  | nil => rfl
  | cons c a ih => exact ih

theorem split_append (hsep : sep ≠ []) {a : List α} (h : Clear sep a) (b : List α) :
    split sep (a ++ sep ++ b) = a :: split sep b := by
  induction a with
  | nil =>
    obtain ⟨d, rest, rfl⟩ := List.exists_cons_of_ne_nil hsep
    have hstart : d :: rest <+: d :: (rest ++ b) := ⟨b, rfl⟩
    rw [List.nil_append, List.cons_append, split, splitFrom, if_pos hstart, List.length_cons, Nat.add_sub_cancel,
      splitFrom_skip]
  | cons c a ih =>
    have hnot : ¬ sep <+: c :: (a ++ sep ++ b) := h.not_prefix
    rw [List.cons_append, List.cons_append, split, splitFrom, if_neg hnot]
    change (split sep (a ++ sep ++ b)).modifyHead _ = _
    rw [ih h.tail]
    rfl

theorem split_of_not_within {l : List α} (h : ¬ sep <:+: l) : split sep l = [l] := by
  induction l with
  | nil => rfl
  | cons c l ih =>
    rw [List.infix_cons_iff, not_or] at h
    rw [split, splitFrom, if_neg h.1]
    change (split sep l).modifyHead _ = _
    rw [ih h.2]
    rfl

theorem split_singleton (x : α) (l : List α) : split [x] l = l.splitOn x := by
  induction l with
  | nil => rfl
  | cons c l ih =>
    rw [split, splitFrom, List.splitOn, List.splitOnP_cons_eq_if_modifyHead]
    change (if _ then [] :: split [x] l else (split [x] l).modifyHead _) = _
    rw [ih]
    refine if_congr ?_ rfl rfl
    rw [List.cons_prefix_cons, beq_iff_eq, eq_comm]
    simp

/-- Pieces in which the separator does not begin are read back. -/
theorem split_intercalate (hsep : sep ≠ []) {pieces : List (List α)} (hne : pieces ≠ []) (h : ∀ piece ∈ pieces, Clear sep piece) :
    split sep (sep.intercalate pieces) = pieces := by
  induction pieces with
  | nil => exact absurd rfl hne
  | cons piece pieces ih =>
    obtain ⟨hpiece, hrest⟩ := List.forall_mem_cons.1 h
    by_cases hend : pieces = []
    · rw [hend, intercalate_singleton, split_of_not_within hpiece.not_within]
    · rw [intercalate_cons hend, split_append hsep hpiece, ih hend hrest]

/-- A piece with the separator in it is cut at the first one. -/
theorem exists_cut (hsep : sep ≠ []) {pieces : List (List α)} (hclear : ∀ piece ∈ pieces, ¬ sep <:+: piece → Clear sep piece)
    (h : ∃ piece ∈ pieces, sep <:+: piece) :
    ∃ a b, a ++ sep ++ b ∈ pieces ∧ Clear sep a ∧ a ∈ split sep (sep.intercalate pieces) := by
  induction pieces with
  | nil =>
    obtain ⟨_, hmem, -⟩ := h
    cases hmem
  | cons piece pieces ih =>
    obtain ⟨hpiece, hrest⟩ := List.forall_mem_cons.1 hclear
    by_cases hin : sep <:+: piece
    · obtain ⟨a, b, rfl, ha⟩ := exists_first hsep hin
      refine ⟨a, b, List.mem_cons_self, ha, ?_⟩
      by_cases hend : pieces = []
      · rw [hend, intercalate_singleton, split_append hsep ha]
        exact List.mem_cons_self
      · rw [intercalate_cons hend, List.append_assoc, List.append_assoc, List.append_assoc, ← List.append_assoc a,
          split_append hsep ha]
        exact List.mem_cons_self
    · obtain ⟨other, hother, hinother⟩ := h
      have hmem : other ∈ pieces := by
        rcases List.mem_cons.1 hother with rfl | hmem
        · exact absurd hinother hin
        · exact hmem
      obtain ⟨a, b, hab, ha, hcut⟩ := ih hrest ⟨other, hmem, hinother⟩
      refine ⟨a, b, List.mem_cons_of_mem _ hab, ha, ?_⟩
      rw [intercalate_cons (List.ne_nil_of_mem hmem), split_append hsep (hpiece hin)]
      exact List.mem_cons_of_mem _ hcut

end Splits
