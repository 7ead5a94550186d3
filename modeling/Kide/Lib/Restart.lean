import Kide.Lib.Transaction

/-!
# Programs that are run again after a stop

A step asks the state which statements are left to do and runs them, each committed by itself
(`Step.part`); a program is a list of steps. `stopAfter n` is the state in which a process that stops
leaves the program after `n` statements.

`Lasting` says that a step once done has nothing left to do and stays done. Then a program that is run
again gets to the step it was stopped in with nothing changed (`rerun_eq`): whether it goes on as if
nothing had happened is a question about that one step.
-/

namespace Restart
open Transactions Checks

variable {σ : Type} {ε : Type}

structure Step (σ ε : Type) where
  part : σ → List (Statement σ ε)
  /-- There is nothing left to do. -/
  Done : σ → Prop

def Step.run (step : Step σ ε) (s : σ) : Except ε σ := runStatements (step.part s) s

def runSteps (steps : List (Step σ ε)) (s : σ) : Except ε σ := steps.foldlM (fun s step => step.run s) s

/-- At most `n` statements: the state reached, and how many of the `n` are left if it got to the end. -/
def runUpTo : Nat → List (Statement σ ε) → σ → σ × Option Nat
  | n, [], s => (s, some n)
  | 0, _ :: _, s => (s, none)
  | n + 1, stmt :: stmts, s =>
    match stmt s with
    | .ok s' => runUpTo n stmts s'
    | .error _ => (s, none)

def stopAfter : Nat → List (Step σ ε) → σ → σ
  | _, [], s => s
  | n, step :: steps, s =>
    match runUpTo n (step.part s) s with
    | (s', some m) => stopAfter m steps s'
    | (s', none) => s'

/-! ## Where a program stops -/

variable {steps before later : List (Step σ ε)} {step : Step σ ε} {s s₁ s' : σ}

@[simp] theorem runSteps_nil : runSteps ([] : List (Step σ ε)) s = .ok s := rfl

theorem runSteps_cons : runSteps (step :: steps) s = step.run s >>= runSteps steps := rfl

theorem runSteps_append : runSteps (before ++ later) s = runSteps before s >>= runSteps later := by
  simp only [runSteps, List.foldlM_append]
  rfl

theorem runUpTo_cases (n : Nat) (stmts : List (Statement σ ε)) (s : σ) :
    (∃ m, (runUpTo n stmts s).2 = some m ∧ runStatements stmts s = .ok (runUpTo n stmts s).1) ∨
      (runUpTo n stmts s).2 = none ∧ ∃ done rest, stmts = done ++ rest ∧ rest ≠ [] ∧
        runStatements done s = .ok (runUpTo n stmts s).1 := by
  induction stmts generalizing n s with
  | nil =>
    cases n with
    | zero => exact .inl ⟨0, rfl, rfl⟩
    | succ n => exact .inl ⟨n + 1, rfl, rfl⟩
  | cons stmt stmts ih =>
    cases n with
    | zero => exact .inr ⟨rfl, [], stmt :: stmts, rfl, List.cons_ne_nil _ _, rfl⟩
    | succ n =>
      unfold runUpTo
      cases hstmt : stmt s with
      | error e => exact .inr ⟨rfl, [], stmt :: stmts, rfl, List.cons_ne_nil _ _, rfl⟩
      | ok m =>
        have hcons : ∀ done, runStatements (stmt :: done) s = runStatements done m := by
          intro done
          rw [runStatements_cons, hstmt]
          rfl
        rcases ih n m with ⟨k, hleft, hrun⟩ | ⟨hnone, done, rest, hsplit, hrest, hrun⟩
        · exact .inl ⟨k, hleft, (hcons stmts).trans hrun⟩
        · exact .inr ⟨hnone, stmt :: done, rest, congrArg _ hsplit, hrest, (hcons done).trans hrun⟩

/-- The process got to the end, or stopped between two statements of some step. -/
theorem stopAfter_cases (n : Nat) (steps : List (Step σ ε)) (s : σ) :
    runSteps steps s = .ok (stopAfter n steps s) ∨
      ∃ before step later s₁ done rest, steps = before ++ step :: later ∧ runSteps before s = .ok s₁ ∧
        step.part s₁ = done ++ rest ∧ rest ≠ [] ∧ runStatements done s₁ = .ok (stopAfter n steps s) := by
  induction steps generalizing n s with
  | nil =>
    cases n with
    | zero => exact .inl rfl
    | succ n => exact .inl rfl
  | cons step steps ih =>
    have hstop : stopAfter n (step :: steps) s =
        match runUpTo n (step.part s) s with
        | (s', some m) => stopAfter m steps s'
        | (s', none) => s' := by
      cases n <;> rfl
    have hcases := runUpTo_cases n (step.part s) s
    rcases hup : runUpTo n (step.part s) s with ⟨t, left⟩
    rw [hup] at hcases hstop
    rcases hcases with ⟨m, hleft, hrun⟩ | ⟨hnone, done, rest, hsplit, hrest, hrun⟩
    · obtain rfl : left = some m := hleft
      have hcons : ∀ steps, runSteps (step :: steps) s = runSteps steps t := by
        intro steps
        rw [runSteps_cons, Step.run, hrun]
        rfl
      rw [hstop]
      rcases ih m t with hall | ⟨before, other, later, s₁, done, rest, hsteps, hbefore, hstopped⟩
      · exact .inl ((hcons steps).trans hall)
      · exact .inr ⟨step :: before, other, later, s₁, done, rest, congrArg _ hsteps, (hcons before).trans hbefore, hstopped⟩
    · obtain rfl : left = none := hnone
      rw [hstop]
      exact .inr ⟨[], step, steps, s, done, rest, rfl, rfl, hsplit, hrest, hrun⟩

/-! ## Running again -/

/-- What is done stays done under the relation `R`, in which every statement takes the state on; `I` is
an invariant of all statements. -/
structure Lasting (I : σ → Prop) (R : σ → σ → Prop) (steps : List (Step σ ε)) : Prop where
  settled : ∀ p ∈ steps, ∀ s, I s → p.Done s → p.run s = .ok s
  done : ∀ p ∈ steps, ∀ s s', I s → p.run s = .ok s' → p.Done s'
  grows : ∀ p ∈ steps, ∀ s, ∀ stmt ∈ p.part s, ∀ t t', I t → stmt t = .ok t' → R t t' ∧ I t'
  kept : ∀ p ∈ steps, ∀ s s', R s s' → p.Done s → p.Done s'

section Rerun
variable {I : σ → Prop} {R : σ → σ → Prop} (h : Lasting I R steps)
include h

theorem Lasting.part_invariant {q : Step σ ε} (hq : q ∈ steps) {stmts : List (Statement σ ε)}
    (hstmts : ∀ stmt ∈ stmts, stmt ∈ q.part s) (hrun : runStatements stmts s₁ = .ok s') (hs : I s₁) : I s' :=
  runStatements_keeps (fun stmt hstmt t t' ht hI => (h.grows q hq s stmt (hstmts stmt hstmt) t t' hI ht).2) hrun hs

theorem Lasting.part_keeps {p q : Step σ ε} (hp : p ∈ steps) (hq : q ∈ steps) {stmts : List (Statement σ ε)}
    (hstmts : ∀ stmt ∈ stmts, stmt ∈ q.part s) (hrun : runStatements stmts s₁ = .ok s') (hs : I s₁) (hdone : p.Done s₁) : p.Done s' := by
  refine (runStatements_keeps (I := fun t => I t ∧ p.Done t) ?_ hrun ⟨hs, hdone⟩).2
  rintro stmt hstmt t t' ht ⟨hI, hp'⟩
  obtain ⟨hR, hI'⟩ := h.grows q hq s stmt (hstmts stmt hstmt) t t' hI ht
  exact ⟨hI', h.kept p hp t t' hR hp'⟩

theorem Lasting.steps_keep {p : Step σ ε} (hp : p ∈ steps) {some : List (Step σ ε)} (hsome : ∀ q ∈ some, q ∈ steps)
    (hrun : runSteps some s = .ok s') (hs : I s) : I s' ∧ (p.Done s → p.Done s') := by
  induction some generalizing s with
  | nil =>
    cases hrun
    exact ⟨hs, id⟩
  | cons q some ih =>
    rw [runSteps_cons] at hrun
    obtain ⟨m, hq, hrest⟩ := bind_eq_ok_iff.1 hrun
    have hmem := hsome q List.mem_cons_self
    obtain ⟨hI, hkept⟩ := ih (fun q hq => hsome q (List.mem_cons_of_mem _ hq)) hrest
      (h.part_invariant hmem (fun stmt hstmt => hstmt) hq hs)
    exact ⟨hI, fun hdone => hkept (h.part_keeps hp hmem (fun stmt hstmt => hstmt) hq hs hdone)⟩

theorem Lasting.steps_invariant {some : List (Step σ ε)} (hsome : ∀ q ∈ some, q ∈ steps) (hrun : runSteps some s = .ok s')
    (hs : I s) : I s' := by
  cases some with
  | nil =>
    cases hrun
    exact hs
  | cons q some => exact (h.steps_keep (hsome q List.mem_cons_self) hsome hrun hs).1

theorem Lasting.steps_done {some : List (Step σ ε)} (hsome : ∀ q ∈ some, q ∈ steps) (hrun : runSteps some s = .ok s') (hs : I s) :
    ∀ p ∈ some, p.Done s' := by
  induction some generalizing s with
  | nil => exact fun p hp => (nomatch hp)
  | cons q some ih =>
    rw [runSteps_cons] at hrun
    obtain ⟨m, hq, hrest⟩ := bind_eq_ok_iff.1 hrun
    have hmem := hsome q List.mem_cons_self
    have hothers : ∀ q ∈ some, q ∈ steps := fun q hq => hsome q (List.mem_cons_of_mem _ hq)
    have hm := h.part_invariant hmem (fun stmt hstmt => hstmt) hq hs
    rintro p (_ | ⟨_, hp⟩)
    · exact (h.steps_keep hmem hothers hrest hm).2 (h.done q hmem s m hs hq)
    · exact ih hothers hrest hm p hp

/-- Steps that are done change nothing. -/
theorem Lasting.steps_settled {some : List (Step σ ε)} (hsome : ∀ q ∈ some, q ∈ steps) (hs : I s) (hdone : ∀ p ∈ some, p.Done s) :
    runSteps some s = .ok s := by
  induction some with
  | nil => rfl
  | cons q some ih =>
    rw [runSteps_cons, h.settled q (hsome q List.mem_cons_self) s hs (hdone q List.mem_cons_self)]
    exact ih (fun q hq => hsome q (List.mem_cons_of_mem _ hq)) fun p hp => hdone p (List.mem_cons_of_mem _ hp)

/-- **Running again.** From a state in the middle of `step` the program gets back to `step` with nothing
changed; the run that was not stopped goes on with the rest of its statements. -/
theorem rerun_eq {done rest : List (Statement σ ε)} (hs : I s) (hsteps : steps = before ++ step :: later)
    (hbefore : runSteps before s = .ok s₁) (hpart : step.part s₁ = done ++ rest) (hrun : runStatements done s₁ = .ok s') :
    runSteps steps s' = step.run s' >>= runSteps later ∧ runSteps steps s = runStatements rest s' >>= runSteps later := by
  have hmem : ∀ q ∈ before, q ∈ steps := by
    intro q hq
    rw [hsteps]
    exact List.mem_append_left _ hq
  have hstep : step ∈ steps := by
    rw [hsteps]
    exact List.mem_append_right _ List.mem_cons_self
  have hdoing : ∀ stmt ∈ done, stmt ∈ step.part s₁ := fun stmt hstmt => hpart ▸ List.mem_append_left _ hstmt
  have hs₁ := h.steps_invariant hmem hbefore hs
  have hsettled := h.steps_settled hmem (h.part_invariant hstep hdoing hrun hs₁)
    fun p hp => h.part_keeps (hmem p hp) hstep hdoing hrun hs₁ (h.steps_done hmem hbefore hs p hp)
  have hfirst : step.run s₁ = runStatements rest s' := by
    rw [Step.run, hpart, runStatements_append, hrun]
    rfl
  rw [hsteps, runSteps_append, runSteps_append, hsettled, hbefore]
  refine ⟨rfl, ?_⟩
  show runSteps (step :: later) s₁ = _
  rw [runSteps_cons, hfirst]

end Rerun

end Restart
