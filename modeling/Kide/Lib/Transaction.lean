import Kide.Lib.Checks

/-!
# Transactions

A transaction is a list of statements, each of which changes the working copy or fails.

* `runStatements` runs the statements in order and stops at the first failure;
* `transact` is the same on a disk that may fail at any statement and at the final `COMMIT`
  (`fault n` is what it answers to the `n`-th of them), with the atomicity of the engine: the
  working copy replaces the database on `COMMIT` and is thrown away otherwise.

`autocommit` runs statements outside any transaction: what ran before a failure stays.

`transact_ok` and `transact_error` are all that a caller needs: a committed transaction ran every
statement, a failed one changed nothing.
-/

namespace Transactions

universe u

variable {σ : Type u} {ε : Type*}

abbrev Statement (σ : Type u) (ε : Type*) := σ → Except ε σ

def runStatements (stmts : List (Statement σ ε)) (s : σ) : Except ε σ :=
  stmts.foldlM (fun s stmt => stmt s) s

/-- The statements from the `n`-th on, then `COMMIT`. -/
def runFrom (fault : Nat → Option ε) : Nat → List (Statement σ ε) → σ → Except ε σ
  | n, [], s =>
    match fault n with
    | some e => .error e
    | none => .ok s
  | n, stmt :: stmts, s =>
    match fault n with
    | some e => .error e
    | none => stmt s >>= runFrom fault (n + 1) stmts

def transact (fault : Nat → Option ε) (stmts : List (Statement σ ε)) (s : σ) : Except ε Unit × σ :=
  match runFrom fault 0 stmts s with
  | .ok s' => (.ok (), s')
  | .error e => (.error e, s)

/-- The statements from the `n`-th on, each committed by itself. -/
def autocommitFrom (fault : Nat → Option ε) : Nat → List (Statement σ ε) → σ → Except ε Unit × σ
  | _, [], s => (.ok (), s)
  | n, stmt :: stmts, s =>
    match fault n with
    | some e => (.error e, s)
    | none =>
      match stmt s with
      | .ok s' => autocommitFrom fault (n + 1) stmts s'
      | .error e => (.error e, s)

/-- The statements outside any transaction: what ran before a failure stays. -/
def autocommit (fault : Nat → Option ε) (stmts : List (Statement σ ε)) (s : σ) : Except ε Unit × σ :=
  autocommitFrom fault 0 stmts s

/-! ## Running statements -/

@[simp] theorem runStatements_nil (s : σ) : runStatements ([] : List (Statement σ ε)) s = .ok s := rfl

theorem runStatements_cons (stmt : Statement σ ε) (stmts : List (Statement σ ε)) (s : σ) :
    runStatements (stmt :: stmts) s = stmt s >>= runStatements stmts := rfl

theorem runStatements_append (as bs : List (Statement σ ε)) (s : σ) :
    runStatements (as ++ bs) s = runStatements as s >>= runStatements bs := by
  simp only [runStatements, List.foldlM_append]; rfl

/-- A failure of the run is a failure of one of its statements. -/
theorem runStatements_error {stmts : List (Statement σ ε)} {P : ε → Prop}
    (h : ∀ stmt ∈ stmts, ∀ s e, stmt s = .error e → P e) {s : σ} {e : ε}
    (hrun : runStatements stmts s = .error e) : P e := by
  induction stmts generalizing s with
  | nil => cases hrun
  | cons stmt stmts ih =>
    rw [runStatements_cons] at hrun
    cases hs : stmt s with
    | error e' =>
      rw [hs] at hrun
      cases hrun
      exact h stmt List.mem_cons_self s e hs
    | ok s' =>
      rw [hs] at hrun
      exact ih (fun stmt hstmt => h stmt (List.mem_cons_of_mem _ hstmt)) hrun

/-- Total statements run to the composition of what they do. -/
theorem runStatements_total (fs : List (σ → σ)) (s : σ) :
    runStatements (fs.map fun f => ((fun s => .ok (f s)) : Statement σ ε)) s =
      .ok (fs.foldl (fun s f => f s) s) := by
  induction fs generalizing s with
  | nil => rfl
  | cons f fs ih => exact ih (f s)

/-- What every statement keeps, the run keeps. -/
theorem runStatements_keeps {I : σ → Prop} {stmts : List (Statement σ ε)}
    (h : ∀ stmt ∈ stmts, ∀ s s', stmt s = .ok s' → I s → I s') {s s' : σ}
    (hrun : runStatements stmts s = .ok s') (hs : I s) : I s' := by
  induction stmts generalizing s with
  | nil =>
    cases hrun
    exact hs
  | cons stmt stmts ih =>
    rw [runStatements_cons] at hrun
    obtain ⟨m, hm, hrest⟩ := Checks.bind_eq_ok_iff.1 hrun
    exact ih (fun stmt hstmt => h stmt (List.mem_cons_of_mem _ hstmt)) hrest (h stmt List.mem_cons_self s m hm hs)

/-! ## Atomicity -/

theorem runFrom_ok {fault : Nat → Option ε} {stmts : List (Statement σ ε)} {n : Nat} {s s' : σ}
    (h : runFrom fault n stmts s = .ok s') : runStatements stmts s = .ok s' := by
  induction stmts generalizing n s with
  | nil =>
    unfold runFrom at h
    split at h
    · cases h
    · exact h
  | cons stmt stmts ih =>
    unfold runFrom at h
    split at h
    · cases h
    · obtain ⟨a, ha, hrest⟩ := Checks.bind_eq_ok_iff.1 h
      exact Checks.bind_eq_ok_iff.2 ⟨a, ha, ih hrest⟩

theorem runFrom_noFault (n : Nat) (stmts : List (Statement σ ε)) (s : σ) :
    runFrom (fun _ => none) n stmts s = runStatements stmts s := by
  induction stmts generalizing n s with
  | nil => rfl
  | cons stmt stmts ih =>
    rw [runStatements_cons, runFrom]
    exact congrArg _ (funext fun s => ih (n + 1) s)

/-- **Commit.** A transaction that returns `Ok` ran all its statements. -/
theorem transact_ok {fault : Nat → Option ε} {stmts : List (Statement σ ε)} {s : σ}
    (h : (transact fault stmts s).1 = .ok ()) :
    runStatements stmts s = .ok (transact fault stmts s).2 := by
  unfold transact at h ⊢
  cases hrun : runFrom fault 0 stmts s with
  | ok s' => exact runFrom_ok hrun
  | error e => rw [hrun] at h; cases h

/-- **Rollback.** A transaction that fails leaves the database as it was. -/
theorem transact_error {fault : Nat → Option ε} {stmts : List (Statement σ ε)} {s : σ} {e : ε}
    (h : (transact fault stmts s).1 = .error e) : (transact fault stmts s).2 = s := by
  unfold transact at h ⊢
  cases hrun : runFrom fault 0 stmts s with
  | ok s' => rw [hrun] at h; cases h
  | error e' => rfl

theorem transact_keeps {I : σ → Prop} {fault : Nat → Option ε} {stmts : List (Statement σ ε)}
    (h : ∀ stmt ∈ stmts, ∀ s s', stmt s = .ok s' → I s → I s') {s : σ} (hs : I s) :
    I (transact fault stmts s).2 := by
  cases hrun : (transact fault stmts s).1 with
  | ok u => exact runStatements_keeps h (transact_ok hrun) hs
  | error e => rwa [transact_error hrun]

/-- One statement that cannot fail is lost exactly on a fault. -/
theorem transact_one (fault : Nat → Option ε) (f : σ → σ) (s : σ) :
    (transact fault [fun s => .ok (f s)] s).2 = if fault 0 = none ∧ fault 1 = none then f s else s := by
  unfold transact
  rw [runFrom]
  cases hfirst : fault 0 with
  | some e => simp
  | none =>
    show (match runFrom fault 1 [] (f s) with
      | .ok s' => (Except.ok (), s')
      | .error e => (Except.error e, s)).2 = _
    rw [runFrom]
    cases hcommit : fault 1 with
    | some e => simp
    | none => simp

/-- On a disk without faults only the statements themselves decide. -/
theorem transact_noFault (stmts : List (Statement σ ε)) (s : σ) :
    (transact (fun _ => none) stmts s).1 = .ok () ↔ ∃ s', runStatements stmts s = .ok s' := by
  unfold transact
  rw [runFrom_noFault]
  cases runStatements stmts s with
  | ok s' => exact ⟨fun _ => ⟨s', rfl⟩, fun _ => rfl⟩
  | error e => exact ⟨fun h => (nomatch h), fun ⟨_, h⟩ => (nomatch h)⟩

theorem transact_noFault_error {stmts : List (Statement σ ε)} {s : σ} {e : ε} :
    (transact (fun _ => none) stmts s).1 = .error e ↔ runStatements stmts s = .error e := by
  unfold transact
  rw [runFrom_noFault]
  cases runStatements stmts s with
  | ok s' => exact ⟨fun h => (nomatch h), fun h => (nomatch h)⟩
  | error e' => exact ⟨fun h => congrArg _ (Except.error.inj h), fun h => congrArg _ (Except.error.inj h)⟩

/-! ## Outside a transaction -/

theorem autocommitFrom_keeps {I : σ → Prop} {fault : Nat → Option ε} {n : Nat} {stmts : List (Statement σ ε)}
    (h : ∀ stmt ∈ stmts, ∀ s s', stmt s = .ok s' → I s → I s') {s : σ} (hs : I s) :
    I (autocommitFrom fault n stmts s).2 := by
  induction stmts generalizing n s with
  | nil => exact hs
  | cons stmt stmts ih =>
    unfold autocommitFrom
    split
    · exact hs
    · split
      · next s' hrun =>
        exact ih (fun stmt hstmt => h stmt (List.mem_cons_of_mem _ hstmt)) (h stmt List.mem_cons_self s s' hrun hs)
      · exact hs

/-- What is left behind is what was there, or what the first statement made of it and the others keep. -/
theorem autocommit_cons_keeps {I : σ → Prop} {fault : Nat → Option ε} {stmt : Statement σ ε} {stmts : List (Statement σ ε)}
    {s : σ} (hs : I s) (hfirst : ∀ s', stmt s = .ok s' → I s')
    (h : ∀ stmt ∈ stmts, ∀ s s', stmt s = .ok s' → I s → I s') : I (autocommit fault (stmt :: stmts) s).2 := by
  unfold autocommit autocommitFrom
  split
  · exact hs
  · split
    · next s' hrun => exact autocommitFrom_keeps h (hfirst s' hrun)
    · exact hs

theorem autocommitFrom_ok {fault : Nat → Option ε} {n : Nat} {stmts : List (Statement σ ε)} {s s' : σ}
    (h : autocommitFrom fault n stmts s = (.ok (), s')) :
    runStatements stmts s = .ok s' ∧ ∀ m < stmts.length, fault (n + m) = none := by
  induction stmts generalizing n s with
  | nil =>
    cases h
    exact ⟨rfl, fun m hm => absurd hm (Nat.not_lt_zero m)⟩
  | cons stmt stmts ih =>
    unfold autocommitFrom at h
    cases hfault : fault n with
    | some e =>
      rw [hfault] at h
      cases h
    | none =>
      rw [hfault] at h
      cases hstmt : stmt s with
      | error e =>
        simp only [hstmt] at h
        cases h
      | ok m =>
        simp only [hstmt] at h
        obtain ⟨hrest, hfaults⟩ := ih h
        refine ⟨by rw [runStatements_cons, hstmt]; exact hrest, fun k hk => ?_⟩
        cases k with
        | zero => exact hfault
        | succ k =>
          have hnext := hfaults k (Nat.lt_of_succ_lt_succ hk)
          rwa [Nat.add_assoc, Nat.add_comm 1 k] at hnext

/-- Outside a transaction a failure is one of the disk or of a statement, and everything before it is done. -/
theorem autocommitFrom_error {fault : Nat → Option ε} {n : Nat} {stmts : List (Statement σ ε)} {s s' : σ} {e : ε}
    (h : autocommitFrom fault n stmts s = (.error e, s')) :
    ∃ before stmt after, stmts = before ++ stmt :: after ∧ runStatements before s = .ok s' ∧
      (∀ m < before.length, fault (n + m) = none) ∧ (fault (n + before.length) = some e ∨ stmt s' = .error e) := by
  induction stmts generalizing n s with
  | nil => cases h
  | cons stmt stmts ih =>
    unfold autocommitFrom at h
    cases hfault : fault n with
    | some e' =>
      rw [hfault] at h
      cases h
      exact ⟨[], stmt, stmts, rfl, rfl, fun m hm => absurd hm (Nat.not_lt_zero m), .inl hfault⟩
    | none =>
      rw [hfault] at h
      cases hstmt : stmt s with
      | error e' =>
        simp only [hstmt] at h
        cases h
        exact ⟨[], stmt, stmts, rfl, rfl, fun m hm => absurd hm (Nat.not_lt_zero m), .inr hstmt⟩
      | ok m =>
        simp only [hstmt] at h
        obtain ⟨before, failing, after, hsplit, hrun, hfaults, hfails⟩ := ih h
        have hnext : ∀ k, n + 1 + k = n + (k + 1) := fun k => by omega
        refine ⟨stmt :: before, failing, after, by rw [hsplit]; rfl, ?_, fun k hk => ?_, ?_⟩
        · rw [runStatements_cons, hstmt]
          exact hrun
        · cases k with
          | zero => exact hfault
          | succ k =>
            rw [← hnext]
            exact hfaults k (Nat.lt_of_succ_lt_succ hk)
        · rw [List.length_cons, ← hnext]
          exact hfails

end Transactions
