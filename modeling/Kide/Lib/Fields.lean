import Kide.Lib.Text

/-!
# Fields in a text

Fields written one after the other, each with a separator behind it. What contains no separator is read back: `terminated_inj`.
Records of one number of fields are told apart by their fields: `flatMap_inj`. What stands between the fields of a list is a
separator: `mem_intercalate`.
-/

namespace Fields

/-- Every field, then the separator. -/
def terminated (sep : Char) (fields : List String) : String :=
  fields.foldr (fun field rest => field ++ String.singleton sep ++ rest) ""

@[simp] theorem terminated_nil (sep : Char) : terminated sep [] = "" := rfl

@[simp] theorem terminated_cons (sep : Char) (field : String) (fields : List String) :
    terminated sep (field :: fields) = field ++ String.singleton sep ++ terminated sep fields := rfl

theorem terminated_append (sep : Char) (a b : List String) :
    terminated sep (a ++ b) = terminated sep a ++ terminated sep b := by
  induction a with
  | nil => rw [List.nil_append, terminated_nil, String.empty_append]
  | cons field a ih => rw [List.cons_append, terminated_cons, terminated_cons, ih, ← String.append_assoc]

/-- The first field is what stands before the first separator. -/
theorem separated_inj {sep : Char} {a b x y : String} (ha : sep ∉ a.toList) (hb : sep ∉ b.toList) :
    a ++ String.singleton sep ++ x = b ++ String.singleton sep ++ y ↔ a = b ∧ x = y := by
  constructor
  · intro h
    have hlist : a.toList ++ sep :: x.toList = b.toList ++ sep :: y.toList := by
      simpa using congrArg String.toList h
    have hfirst : a.toList = b.toList := by
      rw [← Text.takeWhile_append_sep ha, hlist, Text.takeWhile_append_sep hb]
    rw [hfirst, List.append_right_inj, List.cons.injEq] at hlist
    exact ⟨String.toList_injective hfirst, String.toList_injective hlist.2⟩
  · rintro ⟨rfl, rfl⟩
    rfl

/-- The last field is what stands behind the last separator. -/
theorem trailing_inj {sep : Char} {a b x y : String} (ha : sep ∉ a.toList) (hb : sep ∉ b.toList) :
    x ++ String.singleton sep ++ a = y ++ String.singleton sep ++ b ↔ x = y ∧ a = b := by
  constructor
  · intro h
    have hlist : x.toList ++ sep :: a.toList = y.toList ++ sep :: b.toList := by
      simpa using congrArg String.toList h
    have hlast : a.toList = b.toList := by
      rw [← Text.afterLast_append_sep (l := x.toList) ha, hlist, Text.afterLast_append_sep hb]
    rw [hlast] at hlist
    exact ⟨String.toList_injective (List.append_cancel_right hlist), String.toList_injective hlast⟩
  · rintro ⟨rfl, rfl⟩
    rfl

/-- Numbers in decimal digits. -/
theorem toString_inj {m n : Nat} : toString m = toString n ↔ m = n := by
  refine ⟨fun h => ?_, congrArg toString⟩
  have hdigits := congrArg String.toList h
  rw [Nat.toString_eq_repr, Nat.toString_eq_repr, Nat.toList_repr, Nat.toList_repr] at hdigits
  rw [← @Nat.ofDigitChars_ten_toDigits m, hdigits, Nat.ofDigitChars_ten_toDigits]

theorem notMem_toString {sep : Char} (hsep : sep.isDigit = false) (n : Nat) : sep ∉ (toString n).toList := by
  rw [Nat.toString_eq_repr, Nat.toList_repr]
  intro hmem
  have hdigit := Nat.isDigit_of_mem_toDigits (by decide) (by decide) hmem
  rw [hsep] at hdigit
  cases hdigit

/-- **Read back.** -/
theorem terminated_inj {sep : Char} {a b : List String} (ha : ∀ field ∈ a, sep ∉ field.toList)
    (hb : ∀ field ∈ b, sep ∉ field.toList) : terminated sep a = terminated sep b ↔ a = b := by
  have hne : ∀ (field : String) (fields : List String), terminated sep (field :: fields) ≠ "" := by
    intro field fields h
    have hlength := congrArg String.length h
    simp at hlength
  induction a generalizing b with
  | nil =>
    cases b with
    | nil => simp
    | cons field b => exact iff_of_false (hne field b).symm (by simp)
  | cons field a ih =>
    cases b with
    | nil => exact iff_of_false (hne field a) (by simp)
    | cons other b =>
      obtain ⟨hfield, ha⟩ := List.forall_mem_cons.1 ha
      obtain ⟨hother, hb⟩ := List.forall_mem_cons.1 hb
      rw [terminated_cons, terminated_cons, separated_inj hfield hother, List.cons.injEq]
      exact and_congr_right fun _ => ih ha hb

theorem mem_intercalate {sep c : Char} {l : List (List Char)} (h : c ∈ [sep].intercalate l) : c = sep ∨ ∃ part ∈ l, c ∈ part := by
  induction l with
  | nil => cases h
  | cons part l ih =>
    cases l with
    | nil => exact .inr ⟨part, List.mem_cons_self, by simpa using h⟩
    | cons next l =>
      rw [List.intercalate_cons_cons, List.mem_append, List.mem_append, List.mem_singleton] at h
      rcases h with (h | h) | h
      · exact .inr ⟨part, List.mem_cons_self, h⟩
      · exact .inl h
      · rcases ih h with h | ⟨other, hother, h⟩
        · exact .inl h
        · exact .inr ⟨other, List.mem_cons_of_mem _ hother, h⟩

/-- Parts without the separator are read back from the joined text. -/
theorem intercalate_inj {sep : Char} {a b : List String} (ha : ∀ part ∈ a, sep ∉ part.toList) (hb : ∀ part ∈ b, sep ∉ part.toList)
    (hane : a ≠ []) (hbne : b ≠ []) :
    (String.singleton sep).intercalate a = (String.singleton sep).intercalate b ↔ a = b := by
  have hsplit : ∀ l : List String, (∀ part ∈ l, sep ∉ part.toList) → l ≠ [] →
      ((String.singleton sep).intercalate l).toList.splitOn sep = l.map String.toList := by
    intro l hl hne
    rw [String.toList_intercalate, String.toList_singleton]
    exact List.splitOn_intercalate sep (List.forall_mem_map.2 hl) (by simpa using hne)
  refine ⟨fun h => ?_, fun h => by rw [h]⟩
  have hparts := congrArg (fun text => text.toList.splitOn sep) h
  simp only [hsplit a ha hane, hsplit b hb hbne] at hparts
  exact List.map_injective_iff.2 (fun _ _ heq => String.toList_injective heq) hparts

theorem intercalate_eq_empty_iff {sep : Char} {a : List String} (ha : ∀ part ∈ a, part ≠ "") :
    (String.singleton sep).intercalate a = "" ↔ a = [] := by
  refine ⟨fun h => ?_, fun h => by rw [h]; rfl⟩
  cases a with
  | nil => rfl
  | cons part a =>
    refine absurd ?_ (ha part List.mem_cons_self)
    cases a with
    | nil => rwa [String.intercalate_singleton] at h
    | cons next a =>
      rw [String.intercalate_cons_cons, String.append_eq_empty_iff, String.append_eq_empty_iff] at h
      exact h.1.1

/-- The same where the list may be empty and no part is. -/
theorem join_inj {sep : Char} {a b : List String} (ha : ∀ part ∈ a, part ≠ "" ∧ sep ∉ part.toList)
    (hb : ∀ part ∈ b, part ≠ "" ∧ sep ∉ part.toList) :
    (String.singleton sep).intercalate a = (String.singleton sep).intercalate b ↔ a = b := by
  refine ⟨fun h => ?_, fun h => by rw [h]⟩
  by_cases hane : a = []
  · rw [hane] at h ⊢
    exact ((intercalate_eq_empty_iff fun part hpart => (hb part hpart).1).1 h.symm).symm
  by_cases hbne : b = []
  · rw [hbne] at h ⊢
    exact (intercalate_eq_empty_iff fun part hpart => (ha part hpart).1).1 h
  exact (intercalate_inj (fun part hpart => (ha part hpart).2) (fun part hpart => (hb part hpart).2) hane hbne).1 h

/-! ## Settings -/

/-- One line for each name and value. -/
def settingLine (setting : String × String) : String := setting.1 ++ "=" ++ setting.2

/-- Lines under one list of names are the same up to order only where every value is. -/
theorem settingLines_perm_iff {a b : List (String × String)} (hnames : a.map Prod.fst = b.map Prod.fst)
    (hnd : (a.map Prod.fst).Nodup) (hfree : ∀ name ∈ a.map Prod.fst, '=' ∉ name.toList) :
    (a.map settingLine).Perm (b.map settingLine) ↔ a = b := by
  refine ⟨fun h => ?_, fun h => by rw [h]⟩
  induction a generalizing b with
  | nil => exact (List.map_eq_nil_iff.1 hnames.symm).symm
  | cons setting a ih =>
    cases b with
    | nil => cases hnames
    | cons other b =>
      rw [List.map_cons, List.map_cons, List.cons.injEq] at hnames
      rw [List.map_cons, List.nodup_cons] at hnd
      obtain ⟨hname, hfree'⟩ := List.forall_mem_cons.1 hfree
      have hinj : ∀ x : String × String, '=' ∉ x.1.toList → settingLine setting = settingLine x → setting = x := by
        intro x hx heq
        obtain ⟨hfirst, hsecond⟩ := (@separated_inj '=' _ _ _ _ hname hx).1 heq
        exact Prod.ext hfirst hsecond
      have hhead : setting = other := by
        have hmem : settingLine setting ∈ (other :: b).map settingLine := h.subset List.mem_cons_self
        obtain ⟨x, hx, heq⟩ := List.mem_map.1 hmem
        rcases List.mem_cons.1 hx with rfl | hx
        · exact hinj _ (hnames.1 ▸ hname) heq.symm
        · have hxmem : x.1 ∈ a.map Prod.fst := hnames.2 ▸ List.mem_map_of_mem hx
          have hsame := hinj x (hfree' _ hxmem) heq.symm
          exact absurd (hsame ▸ hxmem) hnd.1
      subst hhead
      rw [ih hnames.2 hnd.2 hfree' ((List.perm_cons _).1 h)]

/-- **Records.** -/
theorem flatMap_inj {α β : Type} {f : α → List β} {k : Nat} (hk : 0 < k) (hlength : ∀ a, (f a).length = k) {a b : List α} :
    a.flatMap f = b.flatMap f ↔ a.map f = b.map f := by
  have hne : ∀ (x : α) (l : List α), (x :: l).flatMap f ≠ [] := by
    intro x l h
    have hlen := congrArg List.length h
    rw [List.flatMap_cons, List.length_append, hlength, List.length_nil] at hlen
    omega
  induction a generalizing b with
  | nil =>
    cases b with
    | nil => simp
    | cons y b => exact iff_of_false (hne y b).symm (by simp)
  | cons x a ih =>
    cases b with
    | nil => exact iff_of_false (hne x a) (by simp)
    | cons y b =>
      rw [List.flatMap_cons, List.flatMap_cons, List.map_cons, List.map_cons, List.cons.injEq]
      constructor
      · intro h
        obtain ⟨hx, hrest⟩ := List.append_inj h ((hlength x).trans (hlength y).symm)
        exact ⟨hx, ih.1 hrest⟩
      · rintro ⟨hx, hrest⟩
        rw [hx, ih.2 hrest]

end Fields
