import Kide.Lib.Collect
import Kide.Store.Queries

/-!
# Planning an incremental index

`freshness.rs` and the source part of `incremental_plan.rs`: which persisted snapshots are reused,
which units are analyzed again, which snapshots are removed.

* `planWith` is the shape both planners share, with the comparison of one persisted input and one
  requested input as a parameter;
* `planInvalidation` compares content and context, `planAnalysisInvalidation` the worker identity and
  the analysis options as well.
-/

namespace Kide
open Collects

inductive InvalidationReason where
  | contentChanged | contextChanged | backendChanged | analysisOptionsChanged | publicApiChanged
deriving DecidableEq, Repr

inductive IndexAction where
  | reuse (sourceUnit : SourceUnit)
  | reanalyze (sourceUnit : SourceUnit) (reason : InvalidationReason)
  | remove (sourceUnit : SourceUnitId)
deriving DecidableEq, Repr

/-- Reanalysis after a completed snapshot changed its public API. -/
def apiDependentInvalidations (previousApi currentApi : Option Fingerprint) (dependents : List SourceUnitId) :
    List SourceUnitId :=
  if previousApi = currentApi then [] else (dependents.insertionSort SourceUnitId.le).dedup

section PlanWith
variable {α : Type} (unit : α → SourceUnit) (changed : α → α → Option InvalidationReason)

/-- The action for one requested input: a unit without a persisted snapshot counts as changed. -/
def actionFor (persisted : List α) (input : α) : IndexAction :=
  let reason :=
    match lastOf (fun a => (unit a).id) persisted (unit input).id with
    | none => some .contentChanged
    | some previous => changed previous input
  match reason with
  | some reason => .reanalyze (unit input) reason
  | none => .reuse (unit input)

def planWith (current persisted : List α) : List IndexAction :=
  (collect (fun a => (unit a).id) SourceUnitId.le current).map (actionFor unit changed persisted)
  ++ ((sortedKeys (fun a => (unit a).id) SourceUnitId.le persisted).filter
      fun id => id ∉ current.map fun a => (unit a).id).map .remove

end PlanWith

/-- What differs between a persisted source unit and the requested one. -/
def sourceChange (previous requested : SourceUnit) : Option InvalidationReason :=
  if previous.context ≠ requested.context then some .contextChanged
  else if previous.content ≠ requested.content then some .contentChanged
  else none

/-- `sourceChange` with worker identity and analysis options. -/
def analysisChange (previous requested : AnalysisInput) : Option InvalidationReason :=
  if previous.sourceUnit.context ≠ requested.sourceUnit.context then some .contextChanged
  else if previous.sourceUnit.content ≠ requested.sourceUnit.content then some .contentChanged
  else if previous.provenance.backend ≠ requested.provenance.backend
      ∨ previous.provenance.backendVersion ≠ requested.provenance.backendVersion
      ∨ previous.provenance.protocolVersion ≠ requested.provenance.protocolVersion then some .backendChanged
  else if previous.provenance.analysisOptions ≠ requested.provenance.analysisOptions then
    some .analysisOptionsChanged
  else none

def planInvalidation (current persisted : List SourceUnit) : List IndexAction :=
  planWith id sourceChange current persisted

def planAnalysisInvalidation (current persisted : List AnalysisInput) : List IndexAction :=
  planWith AnalysisInput.sourceUnit analysisChange current persisted

/-! ## What a plan contains -/

section
variable {α : Type} {unit : α → SourceUnit} {changed : α → α → Option InvalidationReason}
  {current persisted : List α}

/-- The input a plan acts on for a unit: the last one requested under its id. -/
def Requested (unit : α → SourceUnit) (current : List α) (input : α) : Prop :=
  lastOf (fun a => (unit a).id) current (unit input).id = some input

theorem mem_planWith {action : IndexAction} :
    action ∈ planWith unit changed current persisted ↔
      (∃ input, Requested unit current input ∧ actionFor unit changed persisted input = action) ∨
      ∃ id, id ∈ (persisted.map fun a => (unit a).id) ∧ id ∉ (current.map fun a => (unit a).id) ∧
        .remove id = action := by
  unfold planWith Requested
  simp only [List.mem_append, List.mem_map, mem_collect, List.mem_filter, mem_sortedKeys, decide_not,
    Bool.not_eq_true', decide_eq_false_iff_not, and_assoc]

theorem actionFor_reuse {input : α} {source : SourceUnit} :
    actionFor unit changed persisted input = .reuse source ↔
      unit input = source ∧ ∃ previous, lastOf (fun a => (unit a).id) persisted (unit input).id = some previous ∧
        changed previous input = none := by
  unfold actionFor
  cases hlast : lastOf (fun a => (unit a).id) persisted (unit input).id with
  | none => simp
  | some previous => cases hchanged : changed previous input <;> simp [hchanged]

theorem mem_planWith_reuse {source : SourceUnit} :
    .reuse source ∈ planWith unit changed current persisted ↔
      ∃ input, Requested unit current input ∧ unit input = source ∧
        ∃ previous, lastOf (fun a => (unit a).id) persisted source.id = some previous ∧
          changed previous input = none := by
  rw [mem_planWith]
  simp only [actionFor_reuse, reduceCtorEq, and_false, exists_false, or_false]
  refine exists_congr fun input => and_congr_right fun _ => and_congr_right fun h => ?_
  rw [h]

/-- A unit the plan acts on is either reused or analyzed again. -/
theorem reuse_or_reanalyze {input : α} (h : Requested unit current input) :
    .reuse (unit input) ∈ planWith unit changed current persisted ∨
      ∃ reason, .reanalyze (unit input) reason ∈ planWith unit changed current persisted := by
  have hmem : actionFor unit changed persisted input ∈ planWith unit changed current persisted :=
    mem_planWith.2 (.inl ⟨input, h, rfl⟩)
  unfold actionFor at hmem
  dsimp only at hmem
  split at hmem
  · exact .inr ⟨_, hmem⟩
  · exact .inl hmem

theorem mem_planWith_reanalyze {source : SourceUnit} {reason : InvalidationReason}
    (h : .reanalyze source reason ∈ planWith unit changed current persisted) :
    ∃ input, Requested unit current input ∧ unit input = source ∧ actionFor unit changed persisted input =
      .reanalyze source reason := by
  rcases mem_planWith.1 h with ⟨input, hreq, haction⟩ | ⟨_, _, _, h⟩
  · refine ⟨input, hreq, ?_, haction⟩
    unfold actionFor at haction
    dsimp only at haction
    split at haction <;> cases haction
    rfl
  · cases h

/-- The two exclude each other: one id has one action. -/
theorem reanalyze_iff_not_reuse {input : α} (h : Requested unit current input) :
    (∃ reason, .reanalyze (unit input) reason ∈ planWith unit changed current persisted) ↔
      .reuse (unit input) ∉ planWith unit changed current persisted := by
  have hunique : ∀ other, Requested unit current other → unit other = unit input → other = input := by
    intro other hother hunit
    unfold Requested at h hother
    rw [hunit, h] at hother
    exact (Option.some.inj hother).symm
  constructor
  · rintro ⟨reason, hreanalyze⟩ hreuse
    obtain ⟨a, ha, hunit, haction⟩ := mem_planWith_reanalyze hreanalyze
    obtain ⟨b, hb, hunit', previous, hlast, hnone⟩ := mem_planWith_reuse.1 hreuse
    obtain rfl := hunique a ha hunit
    obtain rfl := hunique b hb hunit'
    have hreused := actionFor_reuse.2 ⟨hunit', previous, hlast, hnone⟩
    rw [hreused] at haction
    cases haction
  · exact fun hreuse => (reuse_or_reanalyze h).resolve_left hreuse

theorem mem_planWith_remove {id : SourceUnitId} :
    .remove id ∈ planWith unit changed current persisted ↔
      id ∈ (persisted.map fun a => (unit a).id) ∧ id ∉ (current.map fun a => (unit a).id) := by
  rw [mem_planWith]
  constructor
  · rintro (⟨input, -, h⟩ | ⟨id', hp, hc, h⟩)
    · unfold actionFor at h
      dsimp only at h
      split at h <;> cases h
    · cases h
      exact ⟨hp, hc⟩
  · exact fun h => .inr ⟨id, h.1, h.2, rfl⟩

end

theorem sourceChange_eq_none {previous requested : SourceUnit} :
    sourceChange previous requested = none ↔
      previous.content = requested.content ∧ previous.context = requested.context := by
  unfold sourceChange
  split
  · simp_all
  · split <;> simp_all

theorem analysisChange_eq_none {previous requested : AnalysisInput} :
    analysisChange previous requested = none ↔
      previous.sourceUnit.content = requested.sourceUnit.content ∧
        previous.sourceUnit.context = requested.sourceUnit.context ∧
          previous.provenance = requested.provenance := by
  obtain ⟨pu, ⟨pb, pv, pp, po⟩, pa⟩ := previous
  obtain ⟨ru, ⟨rb, rv, rp, ro⟩, ra⟩ := requested
  unfold analysisChange
  simp only [Provenance.mk.injEq]
  split
  · simp_all
  · split
    · simp_all
    · split
      · simp_all; tauto
      · split <;> simp_all

end Kide
