import Mathlib.Data.List.Basic

/-!
# Runs that may fail

`Run σ ε α` is a computation over a state `σ` that returns or fails, and keeps the state it reached
in both cases: an effect done before a failure stays done.

`Triple P x Q E`: from a state with `P`, the run `x` either returns a value with `Q` or fails in a
state with `E`. The rules follow the constructors of the monad; an invariant `I` of a loop is a
triple with `I` in all three places (`Triple.foldlM`).

`Within R x`: whatever happens, `x` leaves the state `R`-related to the one it found; a preorder `R`
needs to be checked at the elementary steps only.

`Returns Q x`: whatever value `x` returns has `Q`.

A run on one half of a state is a run on the whole (`first`, `second`) that keeps the other half.

`run_bind_ok` reads a successful run backwards, step by step.
-/

namespace Runs

def Run (σ ε α : Type) := σ → Except ε α × σ

variable {σ ε ε' α β γ : Type}

instance : Monad (Run σ ε) where
  pure a := fun s => (.ok a, s)
  bind x f := fun s =>
    match x s with
    | (.ok a, s') => f a s'
    | (.error e, s') => (.error e, s')

def fail (e : ε) : Run σ ε α := fun s => (.error e, s)

def read : Run σ ε σ := fun s => (.ok s, s)

def update (f : σ → σ) : Run σ ε Unit := fun s => (.ok (), f s)

/-- The `?` operator on a result that is already there. -/
def lift (r : Except ε α) : Run σ ε α := fun s => (r, s)

/-- The `?` operator across error types. -/
def mapError (g : ε → ε') (x : Run σ ε α) : Run σ ε' α := fun s =>
  match x s with
  | (.ok a, s') => (.ok a, s')
  | (.error e, s') => (.error (g e), s')

/-- The result of a run as a value, whatever it is. -/
def attempt (x : Run σ ε α) : Run σ ε' (Except ε α) := fun s => (.ok (x s).1, (x s).2)

/-- A run on the first component of a state. -/
def first {τ : Type} (x : Run σ ε α) : Run (σ × τ) ε α := fun s => ((x s.1).1, (x s.1).2, s.2)

/-- A run on the second component of a state. -/
def second {τ : Type} (x : Run τ ε α) : Run (σ × τ) ε α := fun s => ((x s.2).1, s.1, (x s.2).2)

/-! ## Triples -/

def Triple (P : σ → Prop) (x : Run σ ε α) (Q : α → σ → Prop) (E : σ → Prop) : Prop :=
  ∀ s, P s →
    match x s with
    | (.ok a, s') => Q a s'
    | (.error _, s') => E s'

namespace Triple

variable {P P' : σ → Prop} {Q Q' : α → σ → Prop} {R : β → σ → Prop} {E E' : σ → Prop}

theorem pure {a : α} (h : ∀ s, P s → Q a s) : Triple P (Pure.pure a : Run σ ε α) Q E := h

theorem fail {e : ε} (h : ∀ s, P s → E s) : Triple P (Runs.fail e : Run σ ε α) Q E := h

theorem read {Q : σ → σ → Prop} (h : ∀ s, P s → Q s s) : Triple P (Runs.read : Run σ ε σ) Q E := h

theorem update {f : σ → σ} {Q : Unit → σ → Prop} (h : ∀ s, P s → Q () (f s)) :
    Triple P (Runs.update f : Run σ ε Unit) Q E := h

theorem lift {r : Except ε α} (hok : ∀ a, r = .ok a → ∀ s, P s → Q a s) (herr : ∀ s, P s → E s) :
    Triple P (Runs.lift r : Run σ ε α) Q E := by
  intro s hs
  unfold Runs.lift
  cases h : r with
  | ok a => exact hok a h s hs
  | error e => exact herr s hs

theorem bind {x : Run σ ε β} {f : β → Run σ ε α} (hx : Triple P x R E) (hf : ∀ b, Triple (R b) (f b) Q E) :
    Triple P (x >>= f) Q E := by
  intro s hs
  have h := hx s hs
  change match (match x s with
    | (.ok a, s') => f a s'
    | (.error e, s') => (.error e, s')) with
    | (.ok a, s') => Q a s'
    | (.error _, s') => E s'
  rcases hrun : x s with ⟨_ | b, s'⟩ <;> rw [hrun] at h
  · exact h
  · exact hf b s' h

theorem mapError {g : ε → ε'} {x : Run σ ε α} (h : Triple P x Q E) : Triple P (Runs.mapError g x) Q E := by
  intro s hs
  have hx := h s hs
  unfold Runs.mapError
  rcases hrun : x s with ⟨_ | a, s'⟩ <;> rw [hrun] at hx <;> exact hx

theorem attempt {x : Run σ ε α} {Q : Except ε α → σ → Prop} (hok : Triple P x (fun a => Q (.ok a)) fun s => ∀ e, Q (.error e) s) :
    Triple P (Runs.attempt x : Run σ ε' (Except ε α)) Q E := by
  intro s hs
  have hx := hok s hs
  unfold Runs.attempt
  rcases hrun : x s with ⟨e | a, s'⟩ <;> rw [hrun] at hx
  · exact hx e
  · exact hx

theorem consequence {x : Run σ ε α} (h : Triple P' x Q' E') (hP : ∀ s, P s → P' s)
    (hQ : ∀ a s, Q' a s → Q a s) (hE : ∀ s, E' s → E s) : Triple P x Q E := by
  intro s hs
  have hx := h s (hP s hs)
  rcases hrun : x s with ⟨_ | a, s'⟩ <;> rw [hrun] at hx
  · exact hE s' hx
  · exact hQ a s' hx

theorem weaken {x : Run σ ε α} (h : Triple P x Q E') (hE : ∀ s, E' s → E s) : Triple P x Q E :=
  h.consequence (fun _ hs => hs) (fun _ _ hs => hs) hE

/-- A fact that does not depend on the state can be taken out of the precondition. -/
theorem of_fact {p : Prop} {x : Run σ ε α} (h : p → Triple P x Q E) : Triple (fun s => P s ∧ p) x Q E :=
  fun s hs => h hs.2 s hs.1

theorem trivial {x : Run σ ε α} : Triple P x (fun _ _ => True) (fun _ => True) := by
  intro s _
  rcases x s with ⟨_ | a, s'⟩ <;> exact True.intro

theorem of_pre {x : Run σ ε α} (h : ∀ s, P s → Triple (· = s) x Q E) : Triple P x Q E :=
  fun s hs => h s hs s rfl

theorem ite {p : Prop} [Decidable p] {x y : Run σ ε α} (hx : p → Triple P x Q E) (hy : ¬ p → Triple P y Q E) :
    Triple P (if p then x else y) Q E := by
  split
  · next h => exact hx h
  · next h => exact hy h

/-- A loop with an accumulator keeps what each of its rounds keeps. -/
theorem foldlM {f : β → γ → Run σ ε β} {l : List γ} (h : ∀ b, ∀ c ∈ l, Triple (R b) (f b c) R E) (b : β) :
    Triple (R b) (l.foldlM f b) R E := by
  induction l generalizing b with
  | nil => exact Triple.pure fun _ hs => hs
  | cons c l ih =>
    rw [List.foldlM_cons]
    exact Triple.bind (h b c List.mem_cons_self) fun b' => ih (fun b c hc => h b c (List.mem_cons_of_mem _ hc)) b'

/-- The same with an invariant that describes the part of the list the loop has been through. -/
theorem foldlM_done {f : β → γ → Run σ ε β} {I : List γ → β → σ → Prop} {l : List γ}
    (h : ∀ done c rest, done ++ c :: rest = l → ∀ b, Triple (I done b) (f b c) (I (done ++ [c])) E) (b : β) :
    Triple (I [] b) (l.foldlM f b) (I l) E := by
  have hrest : ∀ rest done, done ++ rest = l → ∀ b, Triple (I done b) (rest.foldlM f b) (I l) E := by
    intro rest
    induction rest with
    | nil =>
      intro done hdone b
      rw [List.append_nil] at hdone
      subst hdone
      exact Triple.pure fun _ hs => hs
    | cons c rest ih =>
      intro done hdone b
      rw [List.foldlM_cons]
      refine Triple.bind (h done c rest hdone b) fun b' => ih _ ?_ b'
      rw [List.append_assoc]
      exact hdone
  exact hrest l [] rfl b

theorem forM {f : γ → Run σ ε PUnit} {l : List γ} (h : ∀ c ∈ l, Triple P (f c) (fun _ => P) E) :
    Triple P (l.forM f) (fun _ => P) E := by
  induction l with
  | nil => exact Triple.pure fun _ hs => hs
  | cons c l ih =>
    exact Triple.bind (h c List.mem_cons_self) fun _ => ih fun c hc => h c (List.mem_cons_of_mem _ hc)

/-- What a triple says of the final state, returned or failed. -/
theorem final {x : Run σ ε α} (h : Triple P x (fun _ => E) E) {s : σ} (hs : P s) : E (x s).2 := by
  have hx := h s hs
  rcases hrun : x s with ⟨_ | a, s'⟩ <;> rw [hrun] at hx <;> exact hx

theorem returned {x : Run σ ε α} (h : Triple P x Q E) {s s' : σ} (hs : P s) {a : α} (hrun : x s = (.ok a, s')) :
    Q a s' := by
  have hx := h s hs
  rw [hrun] at hx
  exact hx

theorem of_final {x : Run σ ε α} {I : σ → Prop} (h : ∀ s, P s → I (x s).2) : Triple P x (fun _ => I) I := by
  intro s hs
  have hx := h s hs
  rcases hrun : x s with ⟨_ | a, s'⟩ <;> rw [hrun] at hx <;> exact hx

variable {τ : Type}

theorem first {x : Run σ ε α} {F : τ → Prop} (h : Triple P x Q E) :
    Triple (fun s : σ × τ => P s.1 ∧ F s.2) (Runs.first x) (fun a s => Q a s.1 ∧ F s.2) (fun s => E s.1 ∧ F s.2) := by
  intro s hs
  have hx := h s.1 hs.1
  unfold Runs.first
  rcases hrun : x s.1 with ⟨_ | a, s'⟩ <;> rw [hrun] at hx <;> exact ⟨hx, hs.2⟩

theorem second {x : Run σ ε α} {F : τ → Prop} (h : Triple P x Q E) :
    Triple (fun s : τ × σ => F s.1 ∧ P s.2) (Runs.second x) (fun a s => F s.1 ∧ Q a s.2) (fun s => F s.1 ∧ E s.2) := by
  intro s hs
  have hx := h s.2 hs.2
  unfold Runs.second
  rcases hrun : x s.2 with ⟨_ | a, s'⟩ <;> rw [hrun] at hx <;> exact ⟨hs.1, hx⟩

/-- The same with nothing said about the other half. -/
theorem on_second {x : Run σ ε α} (h : Triple P x Q E) :
    Triple (fun s : τ × σ => P s.2) (Runs.second x) (fun a s => Q a s.2) fun s => E s.2 := by
  intro s hs
  have hx := h s.2 hs
  unfold Runs.second
  rcases hrun : x s.2 with ⟨_ | a, s'⟩ <;> rw [hrun] at hx <;> exact hx

end Triple

/-! ## Returned values -/

def Returns (Q : α → Prop) (x : Run σ ε α) : Prop := ∀ s a s', x s = (.ok a, s') → Q a

namespace Returns

variable {Q Q' : α → Prop}

theorem pure {a : α} (h : Q a) : Returns Q (Pure.pure a : Run σ ε α) := by
  intro s b s' hrun
  obtain ⟨rfl, -⟩ : a = b ∧ s = s' := by
    change ((.ok a : Except ε α), s) = (.ok b, s') at hrun
    simpa using hrun
  exact h

theorem fail {e : ε} : Returns Q (Runs.fail e : Run σ ε α) := fun _ _ _ hrun => (nomatch hrun)

theorem lift {r : Except ε α} (h : ∀ a, r = .ok a → Q a) : Returns Q (Runs.lift r : Run σ ε α) := by
  intro s a s' hrun
  exact h a (congrArg Prod.fst hrun)

theorem bind {x : Run σ ε β} {f : β → Run σ ε α} {R : β → Prop} (hx : Returns R x) (hf : ∀ b, R b → Returns Q (f b)) :
    Returns Q (x >>= f) := by
  intro s a s' hrun
  change (match x s with
    | (.ok a, s') => f a s'
    | (.error e, s') => (.error e, s')) = _ at hrun
  rcases hx' : x s with ⟨e | b, m⟩ <;> rw [hx'] at hrun
  · cases hrun
  · exact hf b (hx s b m hx') m a s' hrun

theorem trivial (x : Run σ ε α) : Returns (fun _ => True) x := fun _ _ _ _ => True.intro

theorem mono {x : Run σ ε α} (h : Returns Q x) (hQ : ∀ a, Q a → Q' a) : Returns Q' x :=
  fun s a s' hrun => hQ a (h s a s' hrun)

theorem mapError {g : ε → ε'} {x : Run σ ε α} (h : Returns Q x) : Returns Q (Runs.mapError g x) := by
  intro s a s' hrun
  unfold Runs.mapError at hrun
  rcases hx : x s with ⟨e | b, m⟩ <;> rw [hx] at hrun
  · cases hrun
  · cases hrun
    exact h s a s' hx

theorem first {τ : Type} {x : Run σ ε α} (h : Returns Q x) : Returns Q (Runs.first x : Run (σ × τ) ε α) := by
  intro s a s' hrun
  have hok : (x s.1).1 = .ok a := congrArg Prod.fst hrun
  exact h s.1 a (x s.1).2 (Prod.ext hok rfl)

theorem second {τ : Type} {x : Run τ ε α} (h : Returns Q x) : Returns Q (Runs.second x : Run (σ × τ) ε α) := by
  intro s a s' hrun
  have hok : (x s.2).1 = .ok a := congrArg Prod.fst hrun
  exact h s.2 a (x s.2).2 (Prod.ext hok rfl)

/-- A loop whose accumulator describes the part of the list it has been through. -/
theorem foldlM {f : β → γ → Run σ ε β} {I : List γ → β → Prop} {l : List γ}
    (h : ∀ done b, ∀ c ∈ l, I done b → Returns (I (done ++ [c])) (f b c)) {done : List γ} {b : β} (hb : I done b) :
    Returns (I (done ++ l)) (l.foldlM f b) := by
  induction l generalizing done b with
  | nil => rw [List.append_nil]; exact Returns.pure hb
  | cons c l ih =>
    rw [List.foldlM_cons]
    refine Returns.bind (h done b c List.mem_cons_self hb) fun b' hb' => ?_
    rw [List.append_cons]
    exact ih (fun done b c hc => h done b c (List.mem_cons_of_mem _ hc)) hb'

end Returns

theorem Triple.and_returns {P : σ → Prop} {Q : α → σ → Prop} {E : σ → Prop} {R : α → Prop} {x : Run σ ε α} (h : Triple P x Q E)
    (hreturns : Returns R x) : Triple P x (fun a s => Q a s ∧ R a) E := by
  intro s hs
  have hx := h s hs
  rcases hrun : x s with ⟨_ | a, s'⟩ <;> rw [hrun] at hx
  · exact hx
  · exact ⟨hx, hreturns s a s' hrun⟩

/-! ## Runs within a relation -/

def Within (R : σ → σ → Prop) (x : Run σ ε α) : Prop := ∀ s, R s (x s).2

namespace Within

variable {R : σ → σ → Prop}

theorem pure (hrefl : ∀ s, R s s) (a : α) : Within R (Pure.pure a : Run σ ε α) := hrefl

theorem fail (hrefl : ∀ s, R s s) (e : ε) : Within R (Runs.fail e : Run σ ε α) := hrefl

theorem read (hrefl : ∀ s, R s s) : Within R (Runs.read : Run σ ε σ) := hrefl

theorem lift (hrefl : ∀ s, R s s) (r : Except ε α) : Within R (Runs.lift r : Run σ ε α) := hrefl

theorem update {f : σ → σ} (h : ∀ s, R s (f s)) : Within R (Runs.update f : Run σ ε Unit) := h

theorem bind (htrans : ∀ a b c, R a b → R b c → R a c) {x : Run σ ε β} {f : β → Run σ ε α}
    (hx : Within R x) (hf : ∀ b, Within R (f b)) : Within R (x >>= f) := by
  intro s
  have h := hx s
  change R s (match x s with
    | (.ok a, s') => f a s'
    | (.error e, s') => (.error e, s')).2
  rcases hrun : x s with ⟨_ | b, s'⟩ <;> rw [hrun] at h
  · exact h
  · exact htrans _ _ _ h (hf b s')

/-- The rest of a run may count on what the value returned by the first part is. -/
theorem bind_returns (htrans : ∀ a b c, R a b → R b c → R a c) {x : Run σ ε β} {f : β → Run σ ε α} {Q : β → Prop}
    (hx : Within R x) (hQ : Returns Q x) (hf : ∀ b, Q b → Within R (f b)) : Within R (x >>= f) := by
  intro s
  have h := hx s
  change R s (match x s with
    | (.ok a, s') => f a s'
    | (.error e, s') => (.error e, s')).2
  rcases hrun : x s with ⟨_ | b, s'⟩ <;> rw [hrun] at h
  · exact h
  · exact htrans _ _ _ h (hf b (hQ s b s' hrun) s')

theorem mapError {g : ε → ε'} {x : Run σ ε α} (h : Within R x) : Within R (Runs.mapError g x) := by
  intro s
  have hx := h s
  unfold Runs.mapError
  rcases hrun : x s with ⟨_ | a, s'⟩ <;> rw [hrun] at hx <;> exact hx

theorem attempt {x : Run σ ε α} (h : Within R x) : Within R (Runs.attempt x : Run σ ε' (Except ε α)) := h

theorem first {τ : Type} {x : Run σ ε α} (h : Within R x) :
    Within (fun s s' : σ × τ => R s.1 s'.1) (Runs.first x) := fun s => h s.1

theorem second {τ : Type} (hrefl : ∀ s, R s s) (x : Run τ ε α) :
    Within (fun s s' : σ × τ => R s.1 s'.1) (Runs.second x) := fun s => hrefl s.1

theorem foldlM (hrefl : ∀ s, R s s) (htrans : ∀ a b c, R a b → R b c → R a c) {f : β → γ → Run σ ε β} {l : List γ}
    (h : ∀ b, ∀ c ∈ l, Within R (f b c)) (b : β) : Within R (l.foldlM f b) := by
  induction l generalizing b with
  | nil => exact hrefl
  | cons c l ih =>
    rw [List.foldlM_cons]
    exact bind htrans (h b c List.mem_cons_self) fun b' => ih (fun b c hc => h b c (List.mem_cons_of_mem _ hc)) b'

/-- Whatever a run establishes, it also keeps what its relation carries along. -/
theorem and_triple {P : σ → Prop} {Q : α → σ → Prop} {E F : σ → Prop} {x : Run σ ε α} (h : Within R x)
    (hcarry : ∀ s s', R s s' → F s → F s') (ht : Triple P x Q E) :
    Triple (fun s => P s ∧ F s) x (fun a s => Q a s ∧ F s) (fun s => E s ∧ F s) := by
  intro s hs
  have hx := ht s hs.1
  have hR := h s
  rcases hrun : x s with ⟨_ | a, s'⟩ <;> rw [hrun] at hx hR <;> exact ⟨hx, hcarry s s' hR hs.2⟩

theorem triple {F : σ → Prop} {x : Run σ ε α} (h : Within R x) (hcarry : ∀ s s', R s s' → F s → F s') :
    Triple F x (fun _ => F) F :=
  Triple.of_final fun s hs => hcarry s _ (h s) hs

end Within

/-! ## Successful runs -/

theorem run_pure_ok {a b : α} {s s' : σ} : (Pure.pure a : Run σ ε α) s = (.ok b, s') ↔ a = b ∧ s = s' := by
  rw [show (Pure.pure a : Run σ ε α) s = (.ok a, s) from rfl, Prod.mk.injEq, Except.ok.injEq]

theorem run_bind (x : Run σ ε α) (f : α → Run σ ε β) (s : σ) :
    (x >>= f) s = match x s with
      | (.ok a, s') => f a s'
      | (.error e, s') => (.error e, s') := rfl

theorem bind_of_ok {x : Run σ ε α} {f : α → Run σ ε β} {s s' : σ} {a : α} (h : x s = (.ok a, s')) : (x >>= f) s = f a s' := by
  rw [run_bind, h]

theorem bind_of_error {x : Run σ ε α} {f : α → Run σ ε β} {s s' : σ} {e : ε} (h : x s = (.error e, s')) :
    (x >>= f) s = (.error e, s') := by
  rw [run_bind, h]

instance : LawfulMonad (Run σ ε) := by
  refine LawfulMonad.mk' (Run σ ε) (fun x => ?_) (fun _ _ => rfl) (fun x f g => ?_)
  · funext s
    change (match x s with
      | (.ok a, s') => (.ok a, s')
      | (.error e, s') => (.error e, s')) = x s
    rcases x s with ⟨_ | _, _⟩ <;> rfl
  · funext s
    rw [run_bind, run_bind, run_bind]
    rcases x s with ⟨_ | _, _⟩ <;> rfl

theorem run_bind_ok {x : Run σ ε α} {f : α → Run σ ε β} {s s' : σ} {b : β} :
    (x >>= f) s = (.ok b, s') ↔ ∃ a m, x s = (.ok a, m) ∧ f a m = (.ok b, s') := by
  change (match x s with
    | (.ok a, s') => f a s'
    | (.error e, s') => (.error e, s')) = _ ↔ _
  rcases x s with ⟨e | a, m⟩
  · exact ⟨fun h => (nomatch h), fun ⟨_, _, h, _⟩ => (nomatch h)⟩
  · exact ⟨fun h => ⟨a, m, rfl, h⟩, fun ⟨_, _, h, h'⟩ => by cases h; exact h'⟩

theorem run_mapError_ok {g : ε → ε'} {x : Run σ ε α} {s s' : σ} {a : α} :
    mapError g x s = (.ok a, s') ↔ x s = (.ok a, s') := by
  unfold mapError
  rcases x s with ⟨e | b, m⟩
  · exact ⟨fun h => (nomatch h), fun h => (nomatch h)⟩
  · exact ⟨fun h => by cases h; rfl, fun h => by cases h; rfl⟩

theorem run_first_ok {τ : Type} {x : Run σ ε α} {s s' : σ × τ} {a : α} (h : first x s = (.ok a, s')) :
    x s.1 = (.ok a, s'.1) ∧ s'.2 = s.2 := by
  unfold first at h
  rcases hrun : x s.1 with ⟨e | b, m⟩
  · rw [hrun] at h
    cases h
  · rw [hrun] at h
    cases h
    exact ⟨rfl, rfl⟩

end Runs
