import Kide.Index.Commits
import Kide.Index.Effects

/-!
# Dependency snapshots during a source run

Source and dependency snapshots share the tables. A source run leaves a dependency snapshot alone when
its unit is `Spared`: not missing among the requested units, not asked for, not found as a dependent of
a changed unit.

* `runs_spare_dependencies`: in every run of either path a spared dependency snapshot stays, and a run
  that returns has touched every other one;
* `selectedBatches_spares_iff`: on the selected path only a requested unit of the same id is not spared;
* `dependency_removed`: the single-batch path removes a dependency snapshot as an undiscovered source.
-/

namespace Kide
open Runs

/-- Neither removed nor replaced. -/
def Untouched (log : List IndexEvent) (u : SourceUnitId) : Prop := .removed u ∉ log ∧ ¬ Commits log u

structure IndexPath.Spares (path : IndexPath) (m : SnapshotMap) (current : List SourceUnit) (log : List IndexEvent)
    (u : SourceUnitId) : Prop where
  discovered : ¬ Undiscovered path.provenance m current u
  reused : ¬ path.Asks m current u
  independent : ¬ path.Drops m current log u

section
variable {path : IndexPath} {m : SnapshotMap} {current : List SourceUnit} {actions : List IndexAction}
  {log : List IndexEvent} {u : SourceUnitId}

theorem IndexPath.Steps.untouched (h : path.Steps m current actions log)
    (hplan : Plans path.provenance m current actions) (hspares : path.Spares m current log u) : Untouched log u := by
  refine ⟨fun hremoved => ?_, fun hcommits => hspares.reused (h.asks_of_commits hplan hcommits)⟩
  rcases h.removed_cases hplan hremoved with hundiscovered | ⟨hdrops, -⟩
  · exact hspares.discovered hundiscovered
  · exact hspares.independent hdrops

theorem IndexPath.Completed.untouched_iff (h : path.Completed m current actions log)
    (hplan : Plans path.provenance m current actions) : Untouched log u ↔ path.Spares m current log u := by
  refine ⟨fun hu => ?_, h.toSteps.untouched hplan⟩
  have hasks : ¬ path.Asks m current u := fun hasks => hu.2 ((h.commits_iff hplan).2 hasks)
  exact ⟨fun hundiscovered => hu.1 ((h.removed_iff hplan).2 (.inl hundiscovered)), hasks,
    fun hdrops => hu.1 ((h.removed_iff hplan).2 (.inr ⟨hdrops, hasks⟩))⟩

/-- The selected path plans among source snapshots and invalidates nobody. -/
theorem selectedBatches_spares_iff {selection : WorkerSelection} {snapshot : FileAnalysisSnapshot}
    (hm : m u = some snapshot) (horigin : snapshot.sourceUnit.origin = .dependency) :
    (IndexPath.selectedBatches selection).Spares m current log u ↔
      ¬ (IndexPath.selectedBatches selection).Asks m current u := by
  refine ⟨fun h => h.reused, fun h => ⟨?_, h, fun hdrops => hdrops⟩⟩
  rintro ⟨-, other, hother, hconsidered⟩
  obtain rfl := Option.some.inj (hm.symm.trans hother)
  exact hconsidered horigin

end

/-- **Dependencies.** For every environment and every run of either path from any store: a stored
dependency snapshot whose unit is spared is neither removed nor replaced, and is stored afterwards. A
run that returns touches every dependency snapshot that is not spared. -/
theorem runs_spare_dependencies (env : Environment) (manifest : ProjectManifest) (executionPlan : OpaqueExecutionPlan)
    (current : List SourceUnit) (path : IndexPath) (index : Index) (workers : Workers)
    (live : List FileAnalysisSnapshot) (hlive : Holds index.store live) :
    let outcome := path.run env manifest executionPlan current (index, workers)
    ∃ new live', outcome.2.1.log = new ++ index.log ∧ Holds outcome.2.1.store live' ∧
      ∀ snapshot ∈ live, snapshot.sourceUnit.origin = .dependency →
        (path.Spares (lookup live) current new snapshot.id → Untouched new snapshot.id ∧ snapshot ∈ live') ∧
        ∀ run, outcome.1 = .ok run →
          (Untouched new snapshot.id ↔ path.Spares (lookup live) current new snapshot.id) := by
  intro outcome
  obtain ⟨new, live', hlog, hlive', hmap, ⟨actions, hplan, hsteps⟩, hfinished⟩ :=
    path.run_outcome env manifest executionPlan current hlive workers
  refine ⟨new, live', hlog, hlive', fun snapshot hs _ => ⟨fun hspares => ?_, fun run hok => ?_⟩⟩
  · have huntouched := hsteps.untouched hplan hspares
    have hlookup : lookup live' snapshot.id = some snapshot := by
      rw [hmap, replay_untouched huntouched.1 huntouched.2, hlive.lookup_eq_some.2 ⟨hs, rfl⟩]
    exact ⟨huntouched, (hlive'.lookup_eq_some.1 hlookup).1⟩
  · obtain ⟨actions, hplan, hcompleted⟩ := hfinished run hok
    exact hcompleted.untouched_iff hplan

/-! ## A dependency removed as a source -/

def sampleDependency : SourceUnit := { sampleUnit "library.jar" "sha256:jar" with origin := .dependency }

/-- An index with one dependency snapshot. -/
def dependencyIndex : Index :=
  ⟨(({} : IndexStore).replaceSnapshot Disk.sound sampleDependency (emptySnapshot sampleDependency)).2, 0, []⟩

theorem dependencyIndex_holds : Holds dependencyIndex.store [emptySnapshot sampleDependency] := by
  have hok : (({} : IndexStore).replaceSnapshot Disk.sound sampleDependency (emptySnapshot sampleDependency)).1 = .ok () := by
    decide +kernel
  exact (Holds.empty {}).replaced (replaceSnapshot_ok hok).2

/-- A run over one file and a worker that analyzes it. -/
def runOverDependency (path : IndexPath) : Except IndexOrchestratorError IndexRun × Index × Workers :=
  path.run (sampleEnvironment (answering fun _ => [emptySnapshot (sampleUnit "A.kt" "sha256:a")])) sampleManifest
    samplePlan [sampleUnit "A.kt" "sha256:a"] (dependencyIndex, noWorkers)

/-- The plan that knows the worker compares with every stored snapshot and requests sources only. -/
theorem dependency_removed :
    ¬ ∀ (env : Environment) (manifest : ProjectManifest) (executionPlan : OpaqueExecutionPlan)
      (current : List SourceUnit) (path : IndexPath) (index : Index) (workers : Workers)
      (live : List FileAnalysisSnapshot), Holds index.store live →
        ∃ new, (path.run env manifest executionPlan current (index, workers)).2.1.log = new ++ index.log ∧
          ∀ snapshot ∈ live, snapshot.sourceUnit.origin = .dependency → Untouched new snapshot.id := by
  intro h
  have hcomputed : .removed sampleDependency.id ∈
      (runOverDependency (.singleBatch sampleLaunch (some sampleProvenance))).2.1.log := by
    decide +kernel
  unfold runOverDependency at hcomputed
  obtain ⟨new, hlog, huntouched⟩ := h _ _ _ _ _ _ _ _ dependencyIndex_holds
  rw [hlog, show dependencyIndex.log = [] from rfl, List.append_nil] at hcomputed
  exact (huntouched _ List.mem_cons_self rfl).1 hcomputed

theorem dependency_kept_by_selectedBatches :
    ∃ live', Holds (runOverDependency (.selectedBatches (sampleSelection [sampleUnit "A.kt" "sha256:a"]))).2.1.store live' ∧
      emptySnapshot sampleDependency ∈ live' := by
  unfold runOverDependency
  obtain ⟨new, live', -, hlive', hkept⟩ := runs_spare_dependencies
    (sampleEnvironment (answering fun _ => [emptySnapshot (sampleUnit "A.kt" "sha256:a")])) sampleManifest samplePlan
    [sampleUnit "A.kt" "sha256:a"] (.selectedBatches (sampleSelection [sampleUnit "A.kt" "sha256:a"])) _ noWorkers _
    dependencyIndex_holds
  refine ⟨live', hlive', ((hkept _ List.mem_cons_self rfl).1 ((selectedBatches_spares_iff rfl rfl).2 ?_)).2⟩
  rintro ⟨-, batch, hbatch, hu⟩
  rw [show batch = _ from List.mem_singleton.1 hbatch] at hu
  exact absurd (List.mem_singleton.1 hu) (by decide)

end Kide
