import Mathlib.Data.List.Basic
import Mathlib.Logic.Relation

/-!
# Traces and reachable states

A trace is the list of the events so far, newest first. The stamp of an event is the number of events
before it, so a trace that grows keeps every stamp (`At.cons`).

An invariant of a step relation is proved once per step and holds in every reachable state
(`Reachable.invariant`).
-/

namespace Traces

variable {E σ : Type}

/-- `event` is event number `stamp` of the trace. -/
def At (trace : List E) (stamp : Nat) (event : E) : Prop := trace.reverse[stamp]? = some event

variable {trace : List E} {event event' : E} {stamp : Nat}

theorem not_at_nil : ¬ At ([] : List E) stamp event := by
  intro h
  cases h

theorem At.lt (h : At trace stamp event) : stamp < trace.length := by
  have hlt := (List.getElem?_eq_some_iff.1 h).1
  rwa [List.length_reverse] at hlt

theorem at_cons_iff : At (event' :: trace) stamp event ↔ At trace stamp event ∨ stamp = trace.length ∧ event = event' := by
  unfold At
  rw [List.reverse_cons]
  by_cases h : stamp < trace.length
  · rw [List.getElem?_append_left (by rwa [List.length_reverse])]
    exact ⟨Or.inl, fun hor => hor.elim id fun ⟨heq, _⟩ => absurd h (by omega)⟩
  · have hnone : trace.reverse[stamp]? = none := by
      rw [List.getElem?_eq_none_iff, List.length_reverse]
      omega
    rw [List.getElem?_append_right (by rw [List.length_reverse]; omega), hnone, List.length_reverse]
    by_cases hlast : stamp = trace.length
    · subst hlast
      simp [eq_comm]
    · have hbeyond : stamp - trace.length ≠ 0 := by omega
      simp [hbeyond, hlast]

theorem At.cons (h : At trace stamp event) (event' : E) : At (event' :: trace) stamp event := at_cons_iff.2 (.inl h)

theorem at_head : At (event :: trace) trace.length event := at_cons_iff.2 (.inr ⟨rfl, rfl⟩)

theorem At.unique (h : At trace stamp event) (h' : At trace stamp event') : event = event' :=
  Option.some.inj (h.symm.trans h')

/-- An event that is not the newest one was there before. -/
theorem At.of_cons (h : At (event' :: trace) stamp event) (hne : event ≠ event') : At trace stamp event :=
  (at_cons_iff.1 h).resolve_right fun ⟨_, heq⟩ => hne heq

/-! ## Reachable states -/

def Reachable (step : σ → σ → Prop) (initial s : σ) : Prop := Relation.ReflTransGen step initial s

namespace Reachable

variable {step : σ → σ → Prop} {initial s s' : σ}

theorem start : Reachable step initial initial := Relation.ReflTransGen.refl

theorem next (h : Reachable step initial s) (hstep : step s s') : Reachable step initial s' := Relation.ReflTransGen.tail h hstep

theorem invariant {I : σ → Prop} (h : Reachable step initial s) (hstart : I initial)
    (hstep : ∀ s s', step s s' → I s → I s') : I s := by
  induction h with
  | refl => exact hstart
  | tail _ hlast ih => exact hstep _ _ hlast ih

end Reachable

end Traces
