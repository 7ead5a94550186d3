import Mathlib.Data.List.Basic
import Mathlib.Data.List.Forall2

/-!
# Checks

A check is a computation in `Except E` with no result of its own. A sequence of checks passes
exactly when every one of them does; the lemmas here turn a passing sequence into the conjunction
of what its steps test.

`Yields` is the same for a list of computations with results: it says under which condition all of
them succeed and with what values.
-/

namespace Checks

universe u
variable {E : Type*}

theorem ok_bind {α β : Type u} {a : α} {f : α → Except E β} : (Except.ok a >>= f) = f a := rfl

theorem pure_eq_ok {α : Type u} {a : α} : (pure a : Except E α) = .ok a := rfl

theorem bind_eq_ok_iff {α β : Type u} {x : Except E α} {f : α → Except E β} {b : β} :
    x >>= f = .ok b ↔ ∃ a, x = .ok a ∧ f a = .ok b := by
  cases x with
  | error e => exact ⟨fun h => (nomatch h), fun ⟨_, h, _⟩ => (nomatch h)⟩
  | ok a => exact ⟨fun h => ⟨a, rfl, h⟩, fun ⟨_, h, h'⟩ => by cases h; exact h'⟩

theorem bind_eq_error_iff {α β : Type u} {x : Except E α} {f : α → Except E β} {e : E} :
    x >>= f = .error e ↔ x = .error e ∨ ∃ a, x = .ok a ∧ f a = .error e := by
  cases x with
  | error e' => exact ⟨fun h => .inl (congrArg Except.error (Except.error.inj h)), fun h => h.elim
      (fun h => congrArg Except.error (Except.error.inj h)) fun ⟨_, h, _⟩ => (by cases h)⟩
  | ok a => exact ⟨fun h => .inr ⟨a, rfl, h⟩, fun h => h.elim (fun h => (by cases h)) fun ⟨_, h, h'⟩ => by cases h; exact h'⟩

theorem mapError_eq_ok_iff {ε ε' : Type*} {α : Type*} {f : ε → ε'} {x : Except ε α} {a : α} : x.mapError f = .ok a ↔ x = .ok a := by
  cases x with
  | error e => exact ⟨fun h => (by cases h), fun h => (by cases h)⟩
  | ok b => exact ⟨fun h => congrArg Except.ok (Except.ok.inj h), fun h => congrArg Except.ok (Except.ok.inj h)⟩

theorem mapError_eq_error_iff {ε ε' : Type*} {α : Type*} {f : ε → ε'} {x : Except ε α} {e' : ε'} :
    x.mapError f = .error e' ↔ ∃ e, x = .error e ∧ f e = e' := by
  cases x <;> simp [Except.mapError]

theorem then_eq_ok_iff {x y : Except E Unit} :
    (x >>= fun _ => y) = .ok () ↔ x = .ok () ∧ y = .ok () := by
  rw [bind_eq_ok_iff]
  exact ⟨fun ⟨_, h⟩ => h, fun h => ⟨(), h⟩⟩

theorem ite_error_eq_ok_iff {p : Prop} [Decidable p] {e : E} {x : Except E Unit} :
    (if p then .error e else x) = .ok () ↔ ¬ p ∧ x = .ok () := by
  split
  · next h => exact ⟨fun h => (nomatch h), fun h' => absurd h h'.1⟩
  · next h => exact ⟨fun h' => ⟨h, h'⟩, fun h' => h'.2⟩

theorem ite_ok_eq_ok_iff {p : Prop} [Decidable p] {e : E} :
    (if p then .ok () else .error e : Except E Unit) = .ok () ↔ p := by
  split
  · next h => exact ⟨fun _ => h, fun _ => rfl⟩
  · next h => exact ⟨fun h' => (nomatch h'), fun h' => absurd h' h⟩

/-- Fails with `e` where `p` holds. -/
def reject (p : Prop) [Decidable p] (e : E) : Except E Unit := if p then .error e else .ok ()

theorem reject_eq_ok_iff {p : Prop} [Decidable p] {e : E} {u : Unit} : reject p e = .ok u ↔ ¬ p :=
  ite_error_eq_ok_iff.trans (and_iff_left rfl)

theorem reject_eq_error_iff {p : Prop} [Decidable p] {e e' : E} : reject p e = .error e' ↔ p ∧ e = e' := by
  unfold reject
  split_ifs with hp
  · exact ⟨fun h => ⟨hp, Except.error.inj h⟩, fun h => congrArg Except.error h.2⟩
  · exact ⟨fun h => (by cases h), fun h => absurd h.1 hp⟩

/-- A check over a list passes exactly when every element does. -/
theorem forM_eq_ok_iff {α : Type u} {f : α → Except E PUnit} {l : List α} :
    l.forM f = .ok () ↔ ∀ a ∈ l, f a = .ok () := by
  induction l with
  | nil => exact ⟨fun _ _ h => (nomatch h), fun _ => rfl⟩
  | cons a l ih =>
    change (f a >>= fun _ => l.forM f) = .ok () ↔ _
    rw [List.forall_mem_cons, bind_eq_ok_iff, ← ih]
    exact ⟨fun ⟨_, h⟩ => h, fun h => ⟨_, h⟩⟩

/-! ## Lists of results -/

theorem mapM_eq_ok_iff {α β : Type u} {f : α → Except E β} {l : List α} {bs : List β} :
    l.mapM f = .ok bs ↔ List.Forall₂ (fun a b => f a = .ok b) l bs := by
  induction l generalizing bs with
  | nil =>
    rw [List.mapM_nil, List.forall₂_nil_left_iff]
    exact ⟨fun h => (Except.ok.inj h).symm, fun h => congrArg _ h.symm⟩
  | cons a l ih =>
    rw [List.mapM_cons, bind_eq_ok_iff, List.forall₂_cons_left_iff]
    constructor
    · rintro ⟨b, hb, hrest⟩
      obtain ⟨rest, hl, hpure⟩ := bind_eq_ok_iff.1 hrest
      exact ⟨b, rest, hb, ih.1 hl, (Except.ok.inj hpure).symm⟩
    · rintro ⟨b, rest, hb, hl, rfl⟩
      exact ⟨b, hb, bind_eq_ok_iff.2 ⟨rest, ih.2 hl, rfl⟩⟩

theorem exists_of_mapM_eq_error {α β : Type u} {f : α → Except E β} {l : List α} {e : E} (h : l.mapM f = .error e) :
    ∃ a ∈ l, f a = .error e := by
  induction l with
  | nil => cases h
  | cons a l ih =>
    rw [List.mapM_cons, bind_eq_error_iff] at h
    rcases h with ha | ⟨b, -, hrest⟩
    · exact ⟨a, List.mem_cons_self, ha⟩
    · rcases bind_eq_error_iff.1 hrest with hl | ⟨_, -, hpure⟩
      · obtain ⟨a', ha', he⟩ := ih hl
        exact ⟨a', List.mem_cons_of_mem _ ha', he⟩
      · cases hpure

theorem forall₂_exists_mem {α β : Type*} {R : α → β → Prop} {as : List α} {bs : List β} (h : List.Forall₂ R as bs)
    {a : α} (ha : a ∈ as) : ∃ b ∈ bs, R a b := by
  obtain ⟨i, hi⟩ := List.mem_iff_getElem?.1 ha
  obtain ⟨hlt, rfl⟩ := List.getElem?_eq_some_iff.1 hi
  exact ⟨_, List.getElem_mem _, h.get hlt (h.length_eq ▸ hlt)⟩

/-- Computations with known results all succeed. -/
theorem mapM_eq_ok_map_iff {α β : Type u} {f : α → Except E β} {g : α → β} {l : List α} :
    l.mapM f = .ok (l.map g) ↔ ∀ a ∈ l, f a = .ok (g a) := by
  rw [mapM_eq_ok_iff, List.forall₂_map_right_iff, List.forall₂_same]

/-- Reading back what was written element by element. -/
theorem mapM_map_eq_ok_self_iff {α β : Type u} {f : β → Except E α} {g : α → β} {l : List α} :
    (l.map g).mapM f = .ok l ↔ ∀ a ∈ l, f (g a) = .ok a := by
  rw [mapM_eq_ok_iff, List.forall₂_map_left_iff, List.forall₂_same]

/-- Writing may fail, too. -/
theorem mapM_round_trip_iff {α β : Type u} {write : α → Except E β} {read : β → Except E α} {l : List α} :
    (∃ bs, l.mapM write = .ok bs ∧ bs.mapM read = .ok l) ↔ ∀ a ∈ l, (write a >>= read) = .ok a := by
  induction l with
  | nil => exact ⟨fun _ a ha => absurd ha List.not_mem_nil, fun _ => ⟨[], rfl, rfl⟩⟩
  | cons a l ih =>
    rw [List.forall_mem_cons, ← ih]
    constructor
    · rintro ⟨bs, hwrite, hread⟩
      rw [mapM_eq_ok_iff] at hwrite hread
      cases hwrite with
      | cons hfirst hrest =>
        cases hread with
        | cons hfirst' hrest' =>
          exact ⟨bind_eq_ok_iff.2 ⟨_, hfirst, hfirst'⟩, _, mapM_eq_ok_iff.2 hrest, mapM_eq_ok_iff.2 hrest'⟩
    · rintro ⟨hfirst, bs, hwrite, hread⟩
      obtain ⟨b, hb, ha⟩ := bind_eq_ok_iff.1 hfirst
      exact ⟨b :: bs, mapM_eq_ok_iff.2 (.cons hb (mapM_eq_ok_iff.1 hwrite)), mapM_eq_ok_iff.2 (.cons ha (mapM_eq_ok_iff.1 hread))⟩

/-- Computations that each check `p` and return `g`. -/
theorem mapM_eq_ok_checked_iff {α β : Type u} {f : α → Except E β} {p : α → Prop} {g : α → β}
    (h : ∀ a b, f a = .ok b ↔ p a ∧ g a = b) {l : List α} {bs : List β} :
    l.mapM f = .ok bs ↔ (∀ a ∈ l, p a) ∧ l.map g = bs := by
  induction l generalizing bs with
  | nil =>
    rw [List.mapM_nil, pure_eq_ok, Except.ok.injEq]
    simp
  | cons a l ih =>
    rw [List.mapM_cons, bind_eq_ok_iff, List.forall_mem_cons]
    constructor
    · rintro ⟨b, hb, hrest⟩
      obtain ⟨rest, hl, hpure⟩ := bind_eq_ok_iff.1 hrest
      obtain ⟨ha, rfl⟩ := (h a b).1 hb
      obtain ⟨hall, rfl⟩ := ih.1 hl
      exact ⟨⟨ha, hall⟩, Except.ok.inj hpure⟩
    · rintro ⟨⟨ha, hall⟩, rfl⟩
      exact ⟨g a, (h a _).2 ⟨ha, rfl⟩, bind_eq_ok_iff.2 ⟨l.map g, ih.2 ⟨hall, rfl⟩, rfl⟩⟩

theorem mapM_congr {α β : Type u} {f g : α → Except E β} {l : List α} (h : ∀ a ∈ l, f a = g a) : l.mapM f = l.mapM g := by
  induction l with
  | nil => rfl
  | cons a l ih =>
    obtain ⟨ha, hl⟩ := List.forall_mem_cons.1 h
    rw [List.mapM_cons, List.mapM_cons, ha, ih hl]

theorem exists_mapM_eq_ok_iff {α β : Type u} {f : α → Except E β} {l : List α} :
    (∃ bs, l.mapM f = .ok bs) ↔ ∀ a ∈ l, ∃ b, f a = .ok b := by
  constructor
  · rintro ⟨bs, hbs⟩ a ha
    obtain ⟨b, -, hb⟩ := forall₂_exists_mem (mapM_eq_ok_iff.1 hbs) ha
    exact ⟨b, hb⟩
  · intro h
    induction l with
    | nil => exact ⟨[], rfl⟩
    | cons a l ih =>
      obtain ⟨⟨b, hb⟩, hl⟩ := List.forall_mem_cons.1 h
      obtain ⟨bs, hbs⟩ := ih hl
      exact ⟨b :: bs, by rw [List.mapM_cons, hb, ok_bind, hbs]; rfl⟩

/-- The same for computations that may have no result. -/
theorem mapM_eq_some_iff {α β : Type u} {f : α → Option β} {l : List α} {bs : List β} :
    l.mapM f = some bs ↔ List.Forall₂ (fun a b => f a = some b) l bs := by
  induction l generalizing bs with
  | nil =>
    rw [List.mapM_nil, List.forall₂_nil_left_iff]
    exact ⟨fun h => (Option.some.inj h).symm, fun h => congrArg _ h.symm⟩
  | cons a l ih =>
    rw [List.mapM_cons, List.forall₂_cons_left_iff]
    constructor
    · intro h
      obtain ⟨b, hb, hrest⟩ := Option.bind_eq_some_iff.1 h
      obtain ⟨rest, hl, hpure⟩ := Option.bind_eq_some_iff.1 hrest
      exact ⟨b, rest, hb, ih.1 hl, (Option.some.inj hpure).symm⟩
    · rintro ⟨b, rest, hb, hl, rfl⟩
      exact Option.bind_eq_some_iff.2 ⟨b, hb, Option.bind_eq_some_iff.2 ⟨rest, ih.2 hl, rfl⟩⟩

/-- If all have a result, none is left out. -/
theorem mapM_eq_some_filterMap {α β : Type u} {f : α → Option β} {l : List α} (h : ∀ a ∈ l, ∃ b, f a = some b) :
    l.mapM f = some (l.filterMap f) := by
  rw [mapM_eq_some_iff]
  induction l with
  | nil => exact List.Forall₂.nil
  | cons a l ih =>
    obtain ⟨⟨b, hb⟩, hl⟩ := List.forall_mem_cons.1 h
    rw [List.filterMap_cons_some hb]
    exact List.Forall₂.cons hb (ih hl)

/-- A loop that ends well went well at each of its elements. -/
theorem exists_of_foldlM_eq_ok {α σ : Type u} {f : σ → α → Except E σ} {l : List α} {s t : σ} (h : l.foldlM f s = .ok t) {a : α}
    (ha : a ∈ l) : ∃ before after, f before a = .ok after := by
  induction l generalizing s with
  | nil => cases ha
  | cons b l ih =>
    rw [List.foldlM_cons, bind_eq_ok_iff] at h
    obtain ⟨next, hnext, hrest⟩ := h
    rcases List.mem_cons.1 ha with rfl | ha
    · exact ⟨s, next, hnext⟩
    · exact ih hrest ha

/-- Steps that push what they find, one after the other. -/
theorem mapM_threaded {σ ω E α β : Type} {f : α → StateT σ (Except E) β} {g : α → Except E ω} {push : σ → ω → σ} {c : α → ω → β}
    (hf : ∀ a state, f a state = (g a).map fun found => (c a found, push state found)) (l : List α) (state : σ) :
    l.mapM f state = (l.mapM g).map fun found => (List.zipWith c l found, found.foldl push state) := by
  induction l generalizing state with
  | nil => rfl
  | cons a l ih =>
    have hcons : (a :: l).mapM f state = f a state >>= fun first => l.mapM f first.2 >>= fun rest =>
        .ok (first.1 :: rest.1, rest.2) := by
      rw [List.mapM_cons]
      rfl
    rw [hcons, hf, List.mapM_cons]
    cases g a with
    | error error => rfl
    | ok found =>
      change (l.mapM f (push state found) >>= fun rest => Except.ok (c a found :: rest.1, rest.2)) = _
      rw [ih]
      cases l.mapM g <;> rfl

/-- The results of groups, one after the other, are the results of all elements. -/
theorem mapM_groups {α β : Type u} (f : α → Except E β) (groups : List (List α)) :
    (do
      let results ← groups.mapM fun group => group.mapM f
      pure results.flatten) = groups.flatten.mapM f := by
  induction groups with
  | nil => rfl
  | cons group groups ih =>
    rw [List.mapM_cons, List.flatten_cons, List.mapM_append, ← ih]
    simp only [bind_assoc, pure_bind, List.flatten_cons]

/-- All the computations succeed exactly under `p`, and then with the values `bs`. -/
def Yields {β : Type*} (rs : List (Except E β)) (p : Prop) (bs : List β) : Prop :=
  ∀ bs', rs = bs'.map .ok ↔ p ∧ bs' = bs

namespace Yields

variable {α β : Type*}

theorem mono {rs : List (Except E β)} {p q : Prop} {bs : List β} (h : Yields rs p bs) (hpq : p ↔ q) :
    Yields rs q bs := fun bs' => by rw [h bs', hpq]

theorem append {rs us : List (Except E β)} {p q : Prop} {bs cs : List β} (hr : Yields rs p bs)
    (hu : Yields us q cs) : Yields (rs ++ us) (p ∧ q) (bs ++ cs) := by
  intro ds
  rw [List.append_eq_map_iff]
  constructor
  · rintro ⟨d₁, d₂, rfl, h₁, h₂⟩
    obtain ⟨hp, rfl⟩ := (hr d₁).1 h₁.symm
    obtain ⟨hq, rfl⟩ := (hu d₂).1 h₂.symm
    exact ⟨⟨hp, hq⟩, rfl⟩
  · rintro ⟨⟨hp, hq⟩, rfl⟩
    exact ⟨bs, cs, rfl, ((hr bs).2 ⟨hp, rfl⟩).symm, ((hu cs).2 ⟨hq, rfl⟩).symm⟩

theorem nil : Yields ([] : List (Except E β)) True [] := by
  intro bs
  rw [eq_comm, List.map_eq_nil_iff, true_and]

theorem singleton {r : Except E β} {p : Prop} {b : β} (h : ∀ b', r = .ok b' ↔ p ∧ b = b') :
    Yields [r] p [b] := by
  intro bs
  constructor
  · intro hbs
    obtain ⟨b', rfl, hb'⟩ : ∃ b', bs = [b'] ∧ r = .ok b' := by
      cases bs with
      | nil => cases hbs
      | cons b' bs =>
        rw [List.map_cons, List.cons.injEq] at hbs
        obtain rfl := List.map_eq_nil_iff.1 hbs.2.symm
        exact ⟨b', rfl, hbs.1⟩
    obtain ⟨hp, rfl⟩ := (h b').1 hb'
    exact ⟨hp, rfl⟩
  · rintro ⟨hp, rfl⟩
    rw [(h b).2 ⟨hp, rfl⟩]; rfl

theorem flatMap {f : α → List (Except E β)} {p : α → Prop} {g : α → List β}
    (h : ∀ a, Yields (f a) (p a) (g a)) (l : List α) :
    Yields (l.flatMap f) (∀ a ∈ l, p a) (l.flatMap g) := by
  induction l with
  | nil => simpa using nil
  | cons a l ih =>
    simp only [List.flatMap_cons, List.forall_mem_cons]
    exact (h a).append ih

theorem map {f : α → Except E β} {p : α → Prop} {g : α → β} (h : ∀ a b, f a = .ok b ↔ p a ∧ g a = b)
    (l : List α) : Yields (l.map f) (∀ a ∈ l, p a) (l.map g) := by
  have := flatMap (f := fun a => [f a]) (g := fun a => [g a]) (fun a => singleton (h a)) l
  rwa [← List.map_eq_flatMap, ← List.map_eq_flatMap] at this

theorem pureMap (g : α → β) (l : List α) :
    Yields (l.map fun a => (.ok (g a) : Except E β)) True (l.map g) :=
  (map (p := fun _ => True) (fun _ _ => by rw [Except.ok.injEq, true_and]) l).mono (by simp)

end Yields

theorem exists_ok_of_isOk {ε α : Type} {r : Except ε α} (h : r.isOk = true) : ∃ a, r = .ok a := by
  cases r with
  | error e => cases h
  | ok a => exact ⟨a, rfl⟩

end Checks
