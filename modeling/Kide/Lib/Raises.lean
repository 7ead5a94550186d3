import Kide.Lib.Run

/-!
# The errors of a run

`Raises P x`: whatever error `x` fails with has `P`. The rules follow the constructors of the monad, as those of `Returns` do
for the values; the rest of a run may count on what the first part returned (`Raises.bind_returns`).

`run_bind_error` reads a failed run backwards: the first part failed, or it returned and the rest did.
-/

namespace Runs

variable {σ ε ε' α β γ : Type}

theorem run_bind_error {x : Run σ ε α} {f : α → Run σ ε β} {s : σ} {e : ε} :
    ((x >>= f) s).1 = .error e ↔ (x s).1 = .error e ∨ ∃ a m, x s = (.ok a, m) ∧ (f a m).1 = .error e := by
  rw [run_bind]
  rcases x s with ⟨e' | b, s'⟩
  · change (.error e' : Except ε β) = .error e ↔ (.error e' : Except ε α) = .error e ∨ _
    rw [Except.error.injEq, Except.error.injEq]
    refine ⟨.inl, ?_⟩
    rintro (h | ⟨a, m, h, -⟩)
    · exact h
    · cases h
  · constructor
    · exact fun h => .inr ⟨b, s', rfl, h⟩
    · rintro (h | ⟨a, m, h, herror⟩)
      · cases h
      · cases h
        exact herror

def Raises (P : ε → Prop) (x : Run σ ε α) : Prop := ∀ s e, (x s).1 = .error e → P e

namespace Raises

variable {P : ε → Prop}

theorem pure (a : α) : Raises P (Pure.pure a : Run σ ε α) := by
  intro s e h
  change (.ok a : Except ε α) = .error e at h
  cases h

theorem fail {e : ε} (h : P e) : Raises P (Runs.fail e : Run σ ε α) := by
  intro s e' herror
  change (.error e : Except ε α) = .error e' at herror
  cases herror
  exact h

theorem read : Raises P (Runs.read : Run σ ε σ) := by
  intro s e h
  change (.ok s : Except ε σ) = .error e at h
  cases h

theorem lift {r : Except ε α} (h : ∀ e, r = .error e → P e) : Raises P (Runs.lift r : Run σ ε α) := fun _ e herror => h e herror

theorem attempt (x : Run σ ε α) {P : ε' → Prop} : Raises P (Runs.attempt x : Run σ ε' (Except ε α)) := by
  intro s e h
  change (.ok (x s).1 : Except ε' (Except ε α)) = .error e at h
  cases h

theorem mono {Q : ε → Prop} {x : Run σ ε α} (h : Raises P x) (hQ : ∀ e, P e → Q e) : Raises Q x :=
  fun s e herror => hQ e (h s e herror)

theorem bind_returns {x : Run σ ε β} {f : β → Run σ ε α} {Q : β → Prop} (hx : Raises P x) (hQ : Returns Q x)
    (hf : ∀ b, Q b → Raises P (f b)) : Raises P (x >>= f) := by
  intro s e herror
  rcases run_bind_error.1 herror with h | ⟨b, s', hrun, h⟩
  · exact hx s e h
  · exact hf b (hQ s b s' hrun) s' e h

theorem bind {x : Run σ ε β} {f : β → Run σ ε α} (hx : Raises P x) (hf : ∀ b, Raises P (f b)) : Raises P (x >>= f) :=
  bind_returns hx (Returns.trivial x) fun b _ => hf b

theorem mapError {g : ε → ε'} {P : ε' → Prop} (h : ∀ e, P (g e)) (x : Run σ ε α) : Raises P (Runs.mapError g x) := by
  intro s e herror
  unfold Runs.mapError at herror
  rcases hrun : x s with ⟨e' | a, s'⟩ <;> rw [hrun] at herror <;> cases herror
  exact h e'

theorem first {τ : Type} {x : Run σ ε α} (h : Raises P x) : Raises P (Runs.first x : Run (σ × τ) ε α) :=
  fun s e herror => h s.1 e herror

theorem second {τ : Type} {x : Run τ ε α} (h : Raises P x) : Raises P (Runs.second x : Run (σ × τ) ε α) :=
  fun s e herror => h s.2 e herror

theorem foldlM {f : β → γ → Run σ ε β} {l : List γ} (h : ∀ b, ∀ c ∈ l, Raises P (f b c)) (b : β) :
    Raises P (l.foldlM f b) := by
  induction l generalizing b with
  | nil => exact pure b
  | cons c l ih =>
    rw [List.foldlM_cons]
    exact bind (h b c List.mem_cons_self) fun b' => ih (fun b c hc => h b c (List.mem_cons_of_mem _ hc)) b'

end Raises

end Runs
