import Mathlib.Data.List.Basic

/-!
# Parts behind their sizes

Parts are written one after the other, each behind its size and a stop symbol. No size contains the stop symbol, so
the text determines the parts (`framed_inj`).
-/

namespace Parts

variable {α : Type} {size : Nat → List α} {stop : α}

def framed (size : Nat → List α) (stop : α) (parts : List (List α)) : List α :=
  parts.flatMap fun part => size part.length ++ [stop] ++ part

theorem framed_cons (part : List α) (parts : List (List α)) :
    framed size stop (part :: parts) = size part.length ++ stop :: (part ++ framed size stop parts) := by
  rw [framed, List.flatMap_cons, List.append_assoc, List.append_assoc]
  rfl

theorem framed_cons_ne_nil (part : List α) (parts : List (List α)) : framed size stop (part :: parts) ≠ [] := by
  rw [framed_cons]
  exact List.append_ne_nil_of_right_ne_nil _ (List.cons_ne_nil _ _)

/-- What stands before the first stop symbol is determined. -/
theorem append_stop_inj {before after rest others : List α} (hbefore : stop ∉ before) (hafter : stop ∉ after)
    (h : before ++ stop :: rest = after ++ stop :: others) : before = after ∧ rest = others := by
  induction before generalizing after with
  | nil =>
    cases after with
    | nil => exact ⟨rfl, (List.cons.inj h).2⟩
    | cons a after => exact absurd ((List.cons.inj h).1 ▸ List.mem_cons_self) hafter
  | cons a before ih =>
    cases after with
    | nil => exact absurd ((List.cons.inj h).1 ▸ List.mem_cons_self) hbefore
    | cons b after =>
      obtain ⟨hhead, htail⟩ := List.cons.inj h
      obtain ⟨hsame, hrest⟩ := ih (fun hmem => hbefore (List.mem_cons_of_mem a hmem))
        (fun hmem => hafter (List.mem_cons_of_mem b hmem)) htail
      exact ⟨by rw [hhead, hsame], hrest⟩

theorem framed_inj (hsize : ∀ {m n}, size m = size n → m = n) (hstop : ∀ n, stop ∉ size n) {parts others : List (List α)}
    (h : framed size stop parts = framed size stop others) : parts = others := by
  induction parts generalizing others with
  | nil =>
    cases others with
    | nil => rfl
    | cons other others => exact absurd h.symm (framed_cons_ne_nil other others)
  | cons part parts ih =>
    cases others with
    | nil => exact absurd h (framed_cons_ne_nil part parts)
    | cons other others =>
      rw [framed_cons, framed_cons] at h
      obtain ⟨hsizes, hrest⟩ := append_stop_inj (hstop _) (hstop _) h
      obtain ⟨hpart, hparts⟩ := List.append_inj hrest (hsize hsizes)
      rw [hpart, ih hparts]

end Parts
