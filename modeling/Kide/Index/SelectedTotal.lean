import Kide.Index.CatalogContexts
import Kide.Index.Commits
import Kide.Lib.Raises
import Kide.Workers.Selection

/-!
# Where the selected-batches path panics

The dependency lane runs on the worker of the first batch. A selection of some source has a batch, and no unit of an empty
workspace is analyzed again; but a new manifest also starts the lane.

* `PanicFree`: the errors a phase may end in, one lemma a phase;
* `selectedBatches_panics_iff`: a selection made from the sources panics exactly in an empty workspace whose manifest is not
  the stored one, on the runs that get as far as the lane.
-/

namespace Kide
open Runs Collects

section
variable (env : Environment) (manifest : ProjectManifest) (executionPlan : OpaqueExecutionPlan)

/-- Some worker still returns a cursor with the last page the model asks for. -/
def EndlessCatalog : Prop :=
  ∃ launch workers,
    (discoverDependencyCatalog env.workers env.pages launch manifest executionPlan workers).1 = .error .stillPaging

/-- No failed `expect`, and out of pages only for a catalog that does not end. -/
def PanicFree (e : IndexOrchestratorError) : Prop :=
  e ≠ .panicked ∧ (e = .stillPaging → EndlessCatalog env manifest executionPlan)

/-! ## Removals -/

/-- Every removal of the list commits, one tick of the clock after another. -/
def RemovalsCommit (env : IndexEnvironment) : List SourceUnitId → Nat → IndexStore → Prop
  | [], _, _ => True
  | sourceUnit :: rest, clock, store => ∃ store', store.removeSnapshot (env.disk clock) sourceUnit = (.ok (), store') ∧
      RemovalsCommit env rest (clock + 1) store'

/-- The stored source units, each of which an empty workspace has lost. -/
def IndexStore.lostUnits (store : IndexStore) : List SourceUnitId :=
  sortedKeys (·.id) SourceUnitId.le store.persistedSources

/-- The run gets as far as the lane: the plan is one for the manifest, and the database answers. -/
structure ReachesLane (index : Index) : Prop where
  plan : executionPlan.resolvedFingerprint = manifest.fingerprint
  sources : env.index.reads index.clock = none
  latest : env.index.reads (index.clock + 1) = none
  removals : RemovalsCommit env.index index.store.lostUnits (index.clock + 2) index.store

end

/-! ## The phases -/

section
variable {env : Environment} {manifest : ProjectManifest} {executionPlan : OpaqueExecutionPlan}

theorem panicFree_of_ne {e : IndexOrchestratorError} (hpanic : e ≠ .panicked) (hpaging : e ≠ .stillPaging) :
    PanicFree env manifest executionPlan e := ⟨hpanic, fun h => absurd h hpaging⟩

theorem onIndex_raises {α : Type} (x : Run Index IndexStoreError α) :
    Raises (PanicFree env manifest executionPlan) (onIndex x) :=
  Raises.first (Raises.mapError (fun _ => panicFree_of_ne (by simp) (by simp)) x)

theorem onWorkers_raises {α : Type} (x : WorkerRun α) : Raises (PanicFree env manifest executionPlan) (onWorkers x) :=
  Raises.second (Raises.mapError (fun _ => panicFree_of_ne (by simp) (by simp)) x)

theorem validateExecutionPlan_raises :
    Raises (PanicFree env manifest executionPlan) (lift (validateExecutionPlan manifest executionPlan) : Orchestration Unit) := by
  refine Raises.lift fun e herror => ?_
  unfold validateExecutionPlan at herror
  split at herror
  · cases herror
    exact panicFree_of_ne (by simp) (by simp)
  · cases herror

theorem validateBatch_raises (requested : List SourceUnit) (snapshots : List FileAnalysisSnapshot) :
    Raises (PanicFree env manifest executionPlan) (lift (validateBatch requested snapshots) : Orchestration _) := by
  refine Raises.lift fun e herror => ?_
  unfold validateBatch at herror
  dsimp only at herror
  split at herror
  · cases herror
    exact panicFree_of_ne (by simp) (by simp)
  · split at herror
    · cases herror
      exact panicFree_of_ne (by simp) (by simp)
    · cases herror

theorem checkDescriptors_raises (descriptors : List ArtifactDescriptor) :
    Raises (· ≠ .panicked) (lift (descriptors.forM (checkDescriptor manifest)) : Run Workers IndexOrchestratorError Unit) := by
  refine Raises.lift fun e herror => ?_
  induction descriptors with
  | nil => cases herror
  | cons descriptor rest ih =>
    change (checkDescriptor manifest descriptor >>= fun _ => rest.forM (checkDescriptor manifest)) = .error e at herror
    cases hfirst : checkDescriptor manifest descriptor with
    | ok a =>
      rw [hfirst] at herror
      exact ih herror
    | error e' =>
      rw [hfirst] at herror
      cases herror
      unfold checkDescriptor at hfirst
      split at hfirst
      · cases hfirst
        simp
      · split at hfirst
        · cases hfirst
          simp
        · cases hfirst

theorem discoverPages_raises (supervisor : Handle) (fuel page : Nat) (cursor : Option String)
    (descriptors : List ArtifactDescriptor) (locators : List ArtifactLocator) :
    Raises (· ≠ .panicked)
      (discoverPages env.workers supervisor manifest executionPlan fuel page cursor descriptors locators) := by
  induction fuel generalizing page cursor descriptors locators with
  | zero => exact Raises.fail (by simp)
  | succ fuel ih =>
    refine Raises.bind (Raises.mapError (by simp) _) fun response => ?_
    split
    · refine Raises.bind (checkDescriptors_raises _) fun _ => ?_
      dsimp only
      split
      · exact ih _ _ _ _
      · exact Raises.bind Raises.read fun workers => Raises.pure _
    · exact Raises.fail (by simp)

theorem discoverDependencyCatalog_raises (launch : WorkerLaunch) :
    Raises (PanicFree env manifest executionPlan)
      (discoverDependencyCatalog env.workers env.pages launch manifest executionPlan) := by
  have hpanic : Raises (· ≠ .panicked) (discoverDependencyCatalog env.workers env.pages launch manifest executionPlan) := by
    refine Raises.bind (fun s e h => ?_) fun supervisor => ?_
    · cases h
    · exact Raises.bind (Raises.mapError (by simp) _) fun _ => discoverPages_raises _ _ _ _ _ _
  intro workers e herror
  refine ⟨hpanic workers e herror, fun hpaging => ⟨launch, workers, ?_⟩⟩
  rw [herror, hpaging]

/-- What a started lane will fail with at its join. -/
def LanePanicFree (env : Environment) (manifest : ProjectManifest) (executionPlan : OpaqueExecutionPlan)
    (lane : DependencyLane) : Prop :=
  ∀ e, lane = some (.error e) → PanicFree env manifest executionPlan e

theorem spawnDependencyLane_raises (launch : WorkerLaunch) :
    Raises (PanicFree env manifest executionPlan) (spawnDependencyLane env manifest executionPlan launch) :=
  Raises.bind (Raises.second (Raises.attempt _)) fun _ => Raises.pure _

theorem spawnDependencyLane_panicFree (launch : WorkerLaunch) :
    Returns (LanePanicFree env manifest executionPlan) (spawnDependencyLane env manifest executionPlan launch) := by
  refine Returns.bind (R := fun outcome => ∀ e, outcome = .error e → PanicFree env manifest executionPlan e) ?_
    fun outcome houtcome => Returns.pure fun e hlane => houtcome e (Option.some.inj hlane)
  intro s outcome s' hrun e herror
  obtain ⟨houtcome, -⟩ := Prod.mk.inj hrun
  exact discoverDependencyCatalog_raises launch s.2 e ((Except.ok.inj houtcome).trans herror)

theorem joinDependencyLane_raises {lane : DependencyLane} (h : LanePanicFree env manifest executionPlan lane) (run : IndexRun) :
    Raises (PanicFree env manifest executionPlan) (joinDependencyLane env lane run) := by
  unfold joinDependencyLane
  split
  · exact Raises.pure _
  · next outcome =>
    refine Raises.bind (Raises.lift fun e herror => h e (by rw [herror])) fun catalog => ?_
    exact Raises.bind (onIndex_raises _) fun _ => Raises.pure _

theorem applyActions_raises (actions : List IndexAction) :
    Raises (PanicFree env manifest executionPlan) (applyActions env actions) := by
  refine Raises.foldlM (fun state action _ => ?_) _
  cases action with
  | reuse sourceUnit => exact Raises.pure _
  | reanalyze sourceUnit reason => exact Raises.pure _
  | remove sourceUnit => exact Raises.bind (onIndex_raises _) fun _ => Raises.pure _

theorem ensureCompatible_raises (batch : WorkerBatch) (batchIndex : Nat) (supervisor : Handle) :
    Raises (PanicFree env manifest executionPlan) (ensureCompatible env batch batchIndex supervisor) := by
  refine Raises.bind (onWorkers_raises _) fun running => ?_
  split
  · exact Raises.pure _
  · refine Raises.bind (onWorkers_raises _) fun capabilities => ?_
    split
    · exact Raises.pure _
    · exact Raises.fail (panicFree_of_ne (by simp) (by simp))

theorem analyzeBatch_raises (supervisor : Handle) (requestId : String) (requested : List SourceUnit) :
    Raises (PanicFree env manifest executionPlan) (analyzeBatch env manifest executionPlan supervisor requestId requested) := by
  refine Raises.bind (onWorkers_raises _) fun response => ?_
  split
  · refine Raises.bind (fun s e h => ?_) fun _ => validateBatch_raises _ _
    cases h
  · exact Raises.fail (panicFree_of_ne (by simp) (by simp))

theorem runSelectedBatch_raises (reanalyze : List SourceUnit) (state : IndexRun × Supervisors) (indexed : WorkerBatch × Nat) :
    Raises (PanicFree env manifest executionPlan) (runSelectedBatch env manifest executionPlan reanalyze state indexed) := by
  unfold runSelectedBatch
  dsimp only
  split
  · exact Raises.pure _
  · refine Raises.bind ?_ fun found => ?_
    · unfold supervisorFor
      split
      · exact Raises.pure _
      · refine Raises.bind (fun s e h => ?_) fun _ => Raises.pure _
        cases h
    · refine Raises.bind (Raises.bind (ensureCompatible_raises _ _ _) fun _ => ?_) fun _ => Raises.pure _
      refine Raises.bind (analyzeBatch_raises _ _ _) fun snapshots => ?_
      exact Raises.bind (onIndex_raises _) fun _ => Raises.pure _

/-- What follows the start of the lane. -/
theorem afterLane_raises (selection : WorkerSelection) (run : IndexRun) (reanalyze : List SourceUnit) {lane : DependencyLane}
    (h : LanePanicFree env manifest executionPlan lane) :
    Raises (PanicFree env manifest executionPlan) (do
      let (run, supervisors) ← selection.batches.zipIdx.foldlM
        (runSelectedBatch env manifest executionPlan reanalyze) (run, [])
      let run ← joinDependencyLane env lane run
      let workers ← second read
      let starts := (supervisors.map fun entry => (workers.supervisors entry.2).starts).foldl (· + ·) 0
      putManifest env manifest
      pure { run with workerStarts := run.workerStarts + starts }) := by
  refine Raises.bind (Raises.foldlM (fun state indexed _ => runSelectedBatch_raises reanalyze state indexed) _) fun state => ?_
  refine Raises.bind (joinDependencyLane_raises h _) fun run => Raises.bind (Raises.second Raises.read) fun workers => ?_
  exact Raises.bind (onIndex_raises _) fun _ => Raises.pure _

theorem selectedLane_panicFree (selection : WorkerSelection) (needed : Bool) :
    Returns (LanePanicFree env manifest executionPlan) (selectedLane env manifest executionPlan selection needed) := by
  unfold selectedLane
  split
  · split
    · exact spawnDependencyLane_panicFree _
    · exact Returns.fail
  · exact Returns.pure fun e hlane => by cases hlane

/-- The errors of the whole path over a selection. -/
def SelectedErrors (env : Environment) (manifest : ProjectManifest) (executionPlan : OpaqueExecutionPlan)
    (selection : WorkerSelection) (e : IndexOrchestratorError) : Prop :=
  selection = {} ∧ e = .panicked ∨ PanicFree env manifest executionPlan e

theorem selectedLane_raises {selection : WorkerSelection} (hsupported : selection.unsupported = []) (needed : Bool) :
    Raises (SelectedErrors env manifest executionPlan selection) (selectedLane env manifest executionPlan selection needed) := by
  unfold selectedLane
  obtain ⟨batches, unsupported⟩ := selection
  split
  · cases batches with
    | nil => exact Raises.fail (.inl ⟨congrArg _ hsupported, rfl⟩)
    | cons batch rest => exact (spawnDependencyLane_raises _).mono fun _ => .inr
  · exact Raises.pure _

/-- **Errors.** Only the lane of an empty selection panics, and paging is the only loop that the workers can keep open. -/
theorem indexSelectedBatches_raises (current : List SourceUnit) (selection : WorkerSelection) :
    Raises (SelectedErrors env manifest executionPlan selection)
      (indexSelectedBatches env manifest executionPlan current selection) := by
  have hfree : ∀ {α : Type} {x : Orchestration α}, Raises (PanicFree env manifest executionPlan) x →
      Raises (SelectedErrors env manifest executionPlan selection) x := fun h => h.mono fun _ => .inr
  refine Raises.bind (hfree validateExecutionPlan_raises) fun _ => ?_
  dsimp only
  split
  · exact hfree (Raises.fail (panicFree_of_ne (by simp) (by simp)))
  · next hsupported =>
    refine Raises.bind (hfree (onIndex_raises _)) fun actions => Raises.bind (hfree (onIndex_raises _)) fun latest => ?_
    refine Raises.bind (hfree (applyActions_raises actions)) fun state => ?_
    refine Raises.bind_returns (selectedLane_raises (not_not.1 hsupported) _) (selectedLane_panicFree _ _) fun lane hlane => ?_
    exact hfree (afterLane_raises selection state.1 state.2 hlane)

/-! ## An empty workspace -/

theorem planSources_nil (store : IndexStore) : store.planSources [] = store.lostUnits.map .remove := by
  unfold IndexStore.planSources planInvalidation planWith IndexStore.lostUnits
  simp [collect, sortedKeys]

theorem staleUnits_removals (units : List SourceUnitId) : staleUnits (units.map .remove) = [] := by
  unfold staleUnits
  simp

theorem removals_return_iff (units : List SourceUnitId) (state : IndexRun × List SourceUnit) (index : Index) (workers : Workers) :
    (∃ a s', (units.map IndexAction.remove).foldlM (applyAction env) state (index, workers) = (.ok a, s')) ↔
      RemovalsCommit env.index units index.clock index.store := by
  induction units generalizing state index with
  | nil => exact ⟨fun _ => trivial, fun _ => ⟨state, (index, workers), rfl⟩⟩
  | cons unit units ih =>
    rw [List.map_cons, List.foldlM_cons]
    constructor
    · rintro ⟨a, s', hrun⟩
      obtain ⟨state', s₁, hremove, hrest⟩ := run_bind_ok.1 hrun
      obtain ⟨_, s₂, hwrite, hpure⟩ := run_bind_ok.1 hremove
      obtain ⟨-, rfl⟩ := run_pure_ok.1 hpure
      obtain ⟨hcommit, hstate⟩ := onIndex_write_ok hwrite
      rw [hstate] at hrest
      exact ⟨_, hcommit, (ih _ _).1 ⟨a, s', hrest⟩⟩
    · rintro ⟨store', hcommit, hrest⟩
      have hwrite : removeSnapshot env unit (index, workers) =
          (.ok (), ⟨store', index.clock + 1, (some (IndexEvent.removed unit)).toList ++ index.log⟩, workers) :=
        onIndex_write_eq_ok hcommit
      obtain ⟨a, s', hrun⟩ := (ih ({ state.1 with removed := state.1.removed + 1 }, state.2)
        ⟨store', index.clock + 1, (some (IndexEvent.removed unit)).toList ++ index.log⟩).2 hrest
      exact ⟨a, s', run_bind_ok.2 ⟨_, _, run_bind_ok.2 ⟨_, _, hwrite, rfl⟩, hrun⟩⟩

theorem onIndex_query_ok_iff {α : Type} {ienv : IndexEnvironment} {question : IndexStore → α} {a : α} {s s' : Index × Workers} :
    onIndex (Index.query ienv question) s = (.ok a, s') ↔
      ienv.reads s.1.clock = none ∧ a = question s.1.store ∧ s' = ({ s.1 with clock := s.1.clock + 1 }, s.2) := by
  unfold onIndex first mapError Index.query
  cases hread : ienv.reads s.1.clock with
  | some e => simp
  | none => simp [eq_comm]

theorem validateExecutionPlan_ok_iff :
    validateExecutionPlan manifest executionPlan = .ok () ↔ executionPlan.resolvedFingerprint = manifest.fingerprint := by
  unfold validateExecutionPlan
  split
  · next h => exact ⟨fun hok => (by cases hok), fun hplan => absurd hplan h⟩
  · next h => exact ⟨fun _ => not_not.1 h, fun _ => rfl⟩

theorem emptyLane_panics_iff (needed : Bool) (s : Index × Workers) :
    (selectedLane env manifest executionPlan {} needed s).1 = .error .panicked ↔ needed = true := by
  cases needed with
  | true => exact ⟨fun _ => rfl, fun _ => rfl⟩
  | false => exact ⟨fun h => (by cases h), fun h => (by cases h)⟩

/-- The path over no source, up to what it does about the lane. -/
theorem emptySelection_panics_iff (index : Index) (workers : Workers) :
    (indexSelectedBatches env manifest executionPlan [] {} (index, workers)).1 = .error .panicked ↔
      dependencyCatalogNeeded manifest index.store.latestManifest = true ∧ ReachesLane env manifest executionPlan index := by
  have hfree : ∀ {α : Type} {x : Orchestration α} {s : Index × Workers},
      Raises (PanicFree env manifest executionPlan) x → (x s).1 ≠ .error .panicked :=
    fun h herror => (h _ _ herror).1 rfl
  constructor
  · intro hpanic
    obtain h | ⟨_, s₀, hplan, hchecked⟩ := run_bind_error.1 hpanic
    · exact absurd h (hfree validateExecutionPlan_raises)
    obtain ⟨hvalid, rfl⟩ := lift_ok hplan
    rw [if_neg (by simp)] at hchecked
    obtain h | ⟨actions, s₁, hactions, hplanned⟩ := run_bind_error.1 hchecked
    · exact absurd h (hfree (onIndex_raises _))
    obtain ⟨hsources, rfl, rfl⟩ := onIndex_query_ok_iff.1 hactions
    obtain h | ⟨latest, s₂, hquery, hread⟩ := run_bind_error.1 hplanned
    · exact absurd h (hfree (onIndex_raises _))
    obtain ⟨hlatest, rfl, rfl⟩ := onIndex_query_ok_iff.1 hquery
    obtain h | ⟨state, s₃, happlied, hremoved⟩ := run_bind_error.1 hread
    · exact absurd h (hfree (applyActions_raises _))
    have hnone := applyActions_returns _ _ _ _ happlied
    rw [planSources_nil] at happlied hnone
    have hcommit := (removals_return_iff _ _ _ _).1 ⟨state, s₃, happlied⟩
    obtain h | ⟨lane, s₄, hlane, hstarted⟩ := run_bind_error.1 hremoved
    · rw [emptyLane_panics_iff, hnone, staleUnits_removals] at h
      exact ⟨by simpa using h, validateExecutionPlan_ok_iff.1 hvalid, hsources, hlatest, hcommit⟩
    · have hlane' := selectedLane_panicFree _ _ _ _ _ hlane
      exact absurd hstarted (hfree (afterLane_raises {} state.1 state.2 hlane'))
  · rintro ⟨hneeded, hplan, hsources, hlatest, hcommit⟩
    obtain ⟨state, s₃, happlied⟩ := (removals_return_iff _ ({}, []) ⟨index.store, index.clock + 2, index.log⟩ workers).2 hcommit
    rw [← planSources_nil] at happlied
    refine run_bind_error.2 (.inr ⟨(), (index, workers), ?_, ?_⟩)
    · unfold lift
      rw [validateExecutionPlan_ok_iff.2 hplan]
    rw [if_neg (by simp)]
    refine run_bind_error.2 (.inr ⟨_, _, onIndex_query_ok_iff.2 ⟨hsources, rfl, rfl⟩, ?_⟩)
    refine run_bind_error.2 (.inr ⟨_, _, onIndex_query_ok_iff.2 ⟨hlatest, rfl, rfl⟩, ?_⟩)
    refine run_bind_error.2 (.inr ⟨state, s₃, happlied, run_bind_error.2 (.inl ?_)⟩)
    rw [emptyLane_panics_iff, hneeded, Bool.true_or]

theorem selectDiscovered_eq_empty_iff {sources : List SourceUnit} {required : List WorkerCapability}
    {workers : List DiscoveredWorker} {limit : BatchLimit} :
    selectDiscovered manifest sources required workers limit = {} ↔ sources = [] := by
  constructor
  · intro hempty
    have hperm := @selectDiscovered_sources manifest sources required workers limit
    rw [hempty] at hperm
    exact List.nil_perm.1 hperm
  · rintro rfl
    rfl

end

/-- **Totality.** The selected-batches path over a selection made from the sources panics exactly in an empty workspace whose
manifest is not the stored one, when the run gets as far as the lane; and it ends unless a worker's catalog does not. -/
theorem selectedBatches_panics_iff (env : Environment) (manifest : ProjectManifest) (executionPlan : OpaqueExecutionPlan)
    (sources : List SourceUnit) (required : List WorkerCapability) (registry : List DiscoveredWorker) (limit : BatchLimit)
    (index : Index) (workers : Workers) :
    let outcome := (indexSelectedBatches env manifest executionPlan sources
      (selectDiscovered manifest sources required registry limit) (index, workers)).1
    (outcome ≠ .error .panicked ↔ ¬ (sources = [] ∧
      dependencyCatalogNeeded manifest index.store.latestManifest = true ∧ ReachesLane env manifest executionPlan index)) ∧
    (outcome = .error .stillPaging → EndlessCatalog env manifest executionPlan) := by
  have hraises := @indexSelectedBatches_raises env manifest executionPlan sources
    (selectDiscovered manifest sources required registry limit) (index, workers)
  refine ⟨?_, fun hpaging => ?_⟩
  · refine not_congr ?_
    by_cases hsources : sources = []
    · rw [hsources, selectDiscovered_eq_empty_iff.2 rfl, emptySelection_panics_iff, eq_self_iff_true, true_and]
    · refine iff_of_false (fun hpanic => ?_) fun h => hsources h.1
      obtain ⟨hempty, -⟩ | hfree := hraises _ hpanic
      · exact hsources (selectDiscovered_eq_empty_iff.1 hempty)
      · exact hfree.1 rfl
  · obtain ⟨-, hpanic⟩ | hfree := hraises _ hpaging
    · cases hpanic
    · exact hfree.2 rfl

/-- A first run over a workspace without a source file. -/
theorem emptyWorkspace_panics :
    ¬ ∀ (env : Environment) (manifest : ProjectManifest) (executionPlan : OpaqueExecutionPlan) (sources : List SourceUnit)
      (registry : List DiscoveredWorker) (limit : BatchLimit) (index : Index) (workers : Workers),
      (indexSelectedBatches env manifest executionPlan sources
        (selectDiscovered manifest sources [.fileAnalysisSnapshot] registry limit) (index, workers)).1 ≠ .error .panicked :=
  fun h => h (sampleEnvironment (answering fun _ => [])) sampleManifest samplePlan [] [kotlinWorker] ⟨8, by decide⟩ emptyIndex
    noWorkers rfl

end Kide
