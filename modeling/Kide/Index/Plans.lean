import Kide.Index.Orchestrator

/-!
# Plans over the map

What a plan does, over the finite map `m` of the stored snapshots instead of the tables:

* `Undiscovered`: the units it removes, `Stale`: the units it analyzes again (`Plans`);
* `afterPlan`: the snapshots it leaves;
* `DependsOn`: what `dependentSourceUnits` finds.
-/

namespace Kide
open Collects Tables

/-! ## Removal and reuse -/

/-- The snapshots a plan compares with: all of them when it knows the worker. -/
def Considered (provenance : Option Provenance) (snapshot : FileAnalysisSnapshot) : Prop :=
  match provenance with
  | none => snapshot.sourceUnit.origin ≠ .dependency
  | some _ => True

def Reusable (provenance : Option Provenance) (source : SourceUnit) (snapshot : FileAnalysisSnapshot) : Prop :=
  SameInputs snapshot source ∧
    match provenance with
    | none => snapshot.sourceUnit.origin ≠ .dependency
    | some provenance => snapshot.provenance = provenance

/-- The units a plan analyzes again, in its order. -/
def staleUnits (actions : List IndexAction) : List SourceUnit :=
  actions.filterMap fun action =>
    match action with
    | .reanalyze sourceUnit _ => some sourceUnit
    | _ => none

theorem mem_staleUnits {actions : List IndexAction} {source : SourceUnit} :
    source ∈ staleUnits actions ↔ ∃ reason, .reanalyze source reason ∈ actions := by
  rw [staleUnits, List.mem_filterMap]
  constructor
  · rintro ⟨action, haction, hsource⟩
    cases action with
    | reanalyze other reason => cases hsource; exact ⟨reason, haction⟩
    | reuse other => cases hsource
    | remove id => cases hsource
  · rintro ⟨reason, haction⟩
    exact ⟨_, haction, rfl⟩

section
variable (provenance : Option Provenance) (m : SnapshotMap) (current : List SourceUnit)

/-- A stored unit that is not requested any more. -/
def Undiscovered (u : SourceUnitId) : Prop :=
  u ∉ current.map (·.id) ∧ ∃ snapshot, m u = some snapshot ∧ Considered provenance snapshot

/-- A requested unit without a snapshot to reuse. -/
def Stale (source : SourceUnit) : Prop :=
  Requested id current source ∧ ¬ ∃ snapshot, m source.id = some snapshot ∧ Reusable provenance source snapshot

/-- The snapshots a plan leaves. -/
noncomputable def afterPlan : SnapshotMap := fun u =>
  open Classical in if Undiscovered provenance m current u then none else m u

structure Plans (actions : List IndexAction) : Prop where
  remove : ∀ u, .remove u ∈ actions ↔ Undiscovered provenance m current u
  reanalyze : ∀ source, source ∈ staleUnits actions ↔ Stale provenance m current source

end

theorem Plans.mem_staleIds {provenance : Option Provenance} {m : SnapshotMap} {current : List SourceUnit}
    {actions : List IndexAction} (hplan : Plans provenance m current actions) {u : SourceUnitId} :
    u ∈ (staleUnits actions).map (·.id) ↔ ∃ source, Stale provenance m current source ∧ source.id = u := by
  simp only [List.mem_map, hplan.reanalyze]

def IndexStore.planFor (store : IndexStore) (provenance : Option Provenance) (current : List SourceUnit) :
    List IndexAction :=
  match provenance with
  | none => store.planSources current
  | some provenance => store.planAnalysis current provenance

section
variable {store : IndexStore} {live : List FileAnalysisSnapshot} {current : List SourceUnit}

theorem Holds.lookup_eq_some (h : Holds store live) {u : SourceUnitId} {snapshot : FileAnalysisSnapshot} :
    lookup live u = some snapshot ↔ snapshot ∈ live ∧ snapshot.id = u := find_eq_some_iff h.ids_nodup

theorem Holds.planSources_plans (h : Holds store live) :
    Plans none (lookup live) current (store.planSources current) := by
  refine ⟨fun u => ?_, fun source => ?_⟩
  · rw [IndexStore.planSources, planInvalidation, mem_planWith_remove, and_comm]
    refine and_congr_right fun _ => ?_
    simp only [id_eq, List.mem_map, h.mem_persistedSources, h.lookup_eq_some, Considered]
    constructor
    · rintro ⟨_, ⟨snapshot, hs, rfl, horigin⟩, hid⟩
      exact ⟨snapshot, ⟨hs, hid⟩, horigin⟩
    · rintro ⟨snapshot, ⟨hs, hid⟩, horigin⟩
      exact ⟨_, ⟨snapshot, hs, rfl, horigin⟩, hid⟩
  · have hrequested : source ∈ staleUnits (store.planSources current) → Requested id current source := by
      intro hstale
      obtain ⟨reason, hreason⟩ := mem_staleUnits.1 hstale
      obtain ⟨input, hinput, rfl, -⟩ := mem_planWith_reanalyze hreason
      exact hinput
    have hiff : Requested id current source → (source ∈ staleUnits (store.planSources current) ↔
        ¬ ∃ snapshot, lookup live source.id = some snapshot ∧ Reusable none source snapshot) := by
      intro hsource
      have hreuse := h.planSources_reuse_iff hsource
      have hanalyze : (∃ reason, .reanalyze source reason ∈ store.planSources current) ↔
          .reuse source ∉ store.planSources current := reanalyze_iff_not_reuse hsource
      rw [mem_staleUnits]
      refine hanalyze.trans (not_congr (hreuse.trans (exists_congr fun snapshot => ?_)))
      rw [h.lookup_eq_some, Reusable]
      exact ⟨fun h => ⟨⟨h.1, h.2.1.1⟩, h.2⟩, fun h => ⟨h.1.1, h.2⟩⟩
    exact ⟨fun hs => ⟨hrequested hs, (hiff (hrequested hs)).1 hs⟩, fun hs => (hiff hs.1).2 hs.2⟩

theorem Holds.planAnalysis_plans (h : Holds store live) (provenance : Provenance) :
    Plans (some provenance) (lookup live) current (store.planAnalysis current provenance) := by
  let inputs := current.map fun sourceUnit => (⟨sourceUnit, provenance, none⟩ : AnalysisInput)
  have hids : (inputs.map fun input => input.sourceUnit.id) = current.map (·.id) := by
    rw [List.map_map]
    rfl
  refine ⟨fun u => ?_, fun source => ?_⟩
  · rw [IndexStore.planAnalysis, planAnalysisInvalidation, mem_planWith_remove, and_comm, hids]
    refine and_congr_right fun _ => ?_
    simp only [List.mem_map, h.mem_analysisInputs, h.lookup_eq_some, Considered, and_true]
    constructor
    · rintro ⟨_, ⟨snapshot, hs, rfl⟩, hid⟩
      exact ⟨snapshot, hs, hid⟩
    · rintro ⟨snapshot, hs, hid⟩
      exact ⟨_, ⟨snapshot, hs, rfl⟩, hid⟩
  · have hrequested : source ∈ staleUnits (store.planAnalysis current provenance) → Requested id current source := by
      intro hstale
      obtain ⟨reason, hreason⟩ := mem_staleUnits.1 hstale
      obtain ⟨input, hinput, rfl, -⟩ := mem_planWith_reanalyze hreason
      unfold Requested at hinput ⊢
      rw [lastOf_map, Option.map_eq_some_iff] at hinput
      obtain ⟨unit, hunit, rfl⟩ := hinput
      exact hunit
    have hiff : Requested id current source → (source ∈ staleUnits (store.planAnalysis current provenance) ↔
        ¬ ∃ snapshot, lookup live source.id = some snapshot ∧ Reusable (some provenance) source snapshot) := by
      intro hsource
      have hreuse : .reuse source ∈ store.planAnalysis current provenance ↔
          ∃ snapshot ∈ live, SameInputs snapshot source ∧ snapshot.provenance = provenance :=
        h.planAnalysis_reuse_iff hsource
      have hanalyze : (∃ reason, .reanalyze source reason ∈ store.planAnalysis current provenance) ↔
          .reuse source ∉ store.planAnalysis current provenance :=
        reanalyze_iff_not_reuse (requested_analysisInput provenance hsource)
      rw [mem_staleUnits]
      refine hanalyze.trans (not_congr (hreuse.trans (exists_congr fun snapshot => ?_)))
      rw [h.lookup_eq_some, Reusable]
      exact ⟨fun h => ⟨⟨h.1, h.2.1.1⟩, h.2⟩, fun h => ⟨h.1.1, h.2⟩⟩
    exact ⟨fun hs => ⟨hrequested hs, (hiff (hrequested hs)).1 hs⟩, fun hs => (hiff hs.1).2 hs.2⟩

theorem Holds.planFor_plans (h : Holds store live) (provenance : Option Provenance) :
    Plans provenance (lookup live) current (store.planFor provenance current) := by
  cases provenance with
  | none => exact h.planSources_plans
  | some provenance => exact h.planAnalysis_plans provenance

end

/-! ## Dependents over the map -/

/-- `dependent` has an edge to a symbol of `source` that `dependentSourceUnits` finds. -/
def DependsOn (m : SnapshotMap) (source dependent : SourceUnitId) : Prop :=
  dependent ≠ source ∧ ∃ owner, m source = some owner ∧ ∃ symbolId ∈ owner.symbolIds,
    (∃ u snapshot, m u = some snapshot ∧ ∃ r ∈ snapshot.references,
      r.target = symbolId ∧ r.source.range.sourceUnit = dependent) ∨
    (∃ u snapshot, m u = some snapshot ∧ ∃ c ∈ snapshot.calls,
      c.target = symbolId ∧ c.source.range.sourceUnit = dependent) ∨
    (∃ u snapshot, m u = some snapshot ∧ ∃ e ∈ snapshot.hierarchy,
      e.supertype = symbolId ∧ ∃ declaring, m dependent = some declaring ∧ e.subtype ∈ declaring.symbolIds)

theorem Holds.mem_dependentSourceUnits_map {store : IndexStore} {live : List FileAnalysisSnapshot}
    (h : Holds store live) {source dependent : SourceUnitId} :
    dependent ∈ store.dependentSourceUnits source ↔ DependsOn (lookup live) source dependent := by
  have hmem : ∀ (p : FileAnalysisSnapshot → Prop),
      (∃ snapshot ∈ live, p snapshot) ↔ ∃ u snapshot, lookup live u = some snapshot ∧ p snapshot := fun p =>
    ⟨fun ⟨snapshot, hs, hp⟩ => ⟨snapshot.id, snapshot, h.lookup_eq_some.2 ⟨hs, rfl⟩, hp⟩,
      fun ⟨_, snapshot, hs, hp⟩ => ⟨snapshot, (h.lookup_eq_some.1 hs).1, hp⟩⟩
  have hunit : ∀ (u : SourceUnitId) (p : FileAnalysisSnapshot → Prop),
      (∃ snapshot ∈ live, snapshot.id = u ∧ p snapshot) ↔ ∃ snapshot, lookup live u = some snapshot ∧ p snapshot :=
    fun u p => exists_congr fun snapshot => by rw [h.lookup_eq_some, and_assoc]
  rw [h.mem_dependentSourceUnits, DependsOn, hunit]
  refine and_congr_right fun _ => exists_congr fun owner => and_congr_right fun _ => exists_congr fun symbolId =>
    and_congr_right fun _ => or_congr (hmem _) (or_congr (hmem _) ?_)
  rw [hmem]
  simp only [hunit]

end Kide
