import Kide.Planning
import Kide.Workers.Discipline
import Kide.Workers.Registry

/-!
# The index orchestrator

The two index paths of `orchestrator.rs` over one store and any number of workers.

* A run changes `Index × Workers`; the index half is the store with a ghost log of what was removed,
  answered and committed. `IndexEnvironment` decides which read or write of the database fails.
* The dependency lane is a thread that shares nothing with the source lane: it owns its worker and
  returns data. It runs here where it is started, on a worker of its own, and its outcome is looked at
  where the source joins it.
* Discovery asks for pages until there is no cursor; `pages` bounds the model of that loop.

Timings and worker metrics of an `IndexRun` are left out.
-/

namespace Kide
open Runs Collects

structure IndexRun where
  reused : Nat := 0
  analyzed : Nat := 0
  removed : Nat := 0
  workerStarts : Nat := 0
  dependencyAnalyzed : Nat := 0
  dependencyReused : Nat := 0
  artifactLocators : List ArtifactLocator := []
deriving DecidableEq, Repr

inductive IndexOrchestratorError where
  | worker (source : WorkerSupervisorError)
  | store (source : IndexStoreError)
  | unexpectedSnapshot (sourceUnit : String)
  | missingSnapshot (sourceUnit : String)
  | invalidResponse (received : WorkerMessage)
  | unsupportedBatches (count : Nat)
  | executionPlanManifestMismatch (backend : String) (actual expected : Fingerprint)
  | workerNoLongerCompatible (worker component : String) (language : Language)
  | dependencyContextMismatch (component : String) (expected actual : Fingerprint)
  | unknownDependencyComponent (component : String)
  | artifactBlobCache
  | invalidStagedArtifact
  /-- `expect` on a value that is not there. -/
  | panicked
  /-- The worker keeps returning cursors. -/
  | stillPaging
deriving DecidableEq

/-! ## The state -/

structure IndexEnvironment where
  reads : Nat → Option IndexStoreError
  disk : Nat → Disk

inductive IndexEvent where
  | removed (sourceUnit : SourceUnitId)
  | answered (requested : List SourceUnit) (answer : List FileAnalysisSnapshot)
  | committed (requested : List SourceUnit) (answer : List FileAnalysisSnapshot)
      (entries : List (SourceUnit × FileAnalysisSnapshot))
deriving DecidableEq

structure Index where
  store : IndexStore
  clock : Nat
  log : List IndexEvent

structure Environment where
  workers : WorkerEnvironment
  index : IndexEnvironment
  pages : Nat

abbrev Orchestration := Run (Index × Workers) IndexOrchestratorError

namespace Index

def tick {ε : Type} : Run Index ε Nat := fun index => (.ok index.clock, { index with clock := index.clock + 1 })

/-- A read of the database. -/
def query {α : Type} (env : IndexEnvironment) (question : IndexStore → α) : Run Index IndexStoreError α := fun index =>
  match env.reads index.clock with
  | some e => (.error e, { index with clock := index.clock + 1 })
  | none => (.ok (question index.store), { index with clock := index.clock + 1 })

/-- A write of the database; `event` is logged when it commits. -/
def write (env : IndexEnvironment) (operation : Disk → IndexStore → Except IndexStoreError Unit × IndexStore)
    (event : Option IndexEvent) : Run Index IndexStoreError Unit := fun index =>
  match operation (env.disk index.clock) index.store with
  | (.ok (), store) => (.ok (), ⟨store, index.clock + 1, event.toList ++ index.log⟩)
  | (.error e, store) => (.error e, ⟨store, index.clock + 1, index.log⟩)

def record {ε : Type} (event : IndexEvent) : Run Index ε Unit :=
  update fun index => { index with log := event :: index.log }

end Index

def onIndex {α : Type} (x : Run Index IndexStoreError α) : Orchestration α := first (mapError .store x)

def onWorkers {α : Type} (x : WorkerRun α) : Orchestration α := second (mapError .worker x)

/-! ### Reads and writes that succeed -/

section
variable {env : IndexEnvironment} {s s' : Index × Workers}

theorem onIndex_query_ok {α : Type} {question : IndexStore → α} {a : α}
    (h : onIndex (Index.query env question) s = (.ok a, s')) :
    a = question s.1.store ∧ s' = ({ s.1 with clock := s.1.clock + 1 }, s.2) := by
  unfold onIndex first mapError Index.query at h
  cases hread : env.reads s.1.clock with
  | some e =>
    simp only [hread] at h
    cases h
  | none =>
    simp only [hread] at h
    cases h
    exact ⟨rfl, rfl⟩

theorem onIndex_write_ok {operation : Disk → IndexStore → Except IndexStoreError Unit × IndexStore}
    {event : Option IndexEvent} (h : onIndex (Index.write env operation event) s = (.ok (), s')) :
    operation (env.disk s.1.clock) s.1.store = (.ok (), s'.1.store) ∧
      s' = (⟨s'.1.store, s.1.clock + 1, event.toList ++ s.1.log⟩, s.2) := by
  unfold onIndex first mapError Index.write at h
  rcases hrun : operation (env.disk s.1.clock) s.1.store with ⟨e | u, store⟩
  · simp only [hrun] at h
    cases h
  · simp only [hrun] at h
    cases h
    exact ⟨rfl, rfl⟩

theorem onIndex_write_eq_ok {operation : Disk → IndexStore → Except IndexStoreError Unit × IndexStore} {store : IndexStore}
    {event : Option IndexEvent} (h : operation (env.disk s.1.clock) s.1.store = (.ok (), store)) :
    onIndex (Index.write env operation event) s = (.ok (), ⟨store, s.1.clock + 1, event.toList ++ s.1.log⟩, s.2) := by
  unfold onIndex first mapError Index.write
  simp only [h]

theorem onIndex_write_eq_error {operation : Disk → IndexStore → Except IndexStoreError Unit × IndexStore} {store : IndexStore}
    {event : Option IndexEvent} {e : IndexStoreError} (h : operation (env.disk s.1.clock) s.1.store = (.error e, store)) :
    onIndex (Index.write env operation event) s = (.error (.store e), ⟨store, s.1.clock + 1, s.1.log⟩, s.2) := by
  unfold onIndex first mapError Index.write
  simp only [h]

theorem onIndex_tick_ok {tick : Nat} (h : (first Index.tick : Orchestration Nat) s = (.ok tick, s')) :
    tick = s.1.clock ∧ s' = ({ s.1 with clock := s.1.clock + 1 }, s.2) := by
  cases h
  exact ⟨rfl, rfl⟩

end

/-! ## Checks -/

def validateExecutionPlan (manifest : ProjectManifest) (executionPlan : OpaqueExecutionPlan) :
    Except IndexOrchestratorError Unit :=
  if executionPlan.resolvedFingerprint ≠ manifest.fingerprint then
    .error (.executionPlanManifestMismatch executionPlan.backend executionPlan.resolvedFingerprint manifest.fingerprint)
  else .ok ()

def sortedIds (ids : List SourceUnitId) : List SourceUnitId := ids.dedup.insertionSort SourceUnitId.le

/-- Compares the two sets of ids. -/
def validateBatch (requested : List SourceUnit) (snapshots : List FileAnalysisSnapshot) :
    Except IndexOrchestratorError (List FileAnalysisSnapshot) :=
  let expected := sortedIds (requested.map (·.id))
  let received := sortedIds (snapshots.map (·.id))
  match received.find? (· ∉ expected) with
  | some extra => .error (.unexpectedSnapshot extra.asStr)
  | none =>
    match expected.find? (· ∉ received) with
    | some missing => .error (.missingSnapshot missing.asStr)
    | none => .ok snapshots

/-! ## The dependency lane -/

structure DependencyCatalog where
  descriptors : List ArtifactDescriptor
  artifactLocators : List ArtifactLocator
  workerStarts : Nat
deriving DecidableEq, Repr

/-- A descriptor has to belong to a resolved component and its context. -/
def checkDescriptor (manifest : ProjectManifest) (descriptor : ArtifactDescriptor) :
    Except IndexOrchestratorError Unit :=
  match lastOf (·.id) manifest.components descriptor.sourceUnit.component with
  | none => .error (.unknownDependencyComponent descriptor.sourceUnit.component.asStr)
  | some component =>
    if descriptor.sourceUnit.context ≠ component.configuration then
      .error (.dependencyContextMismatch descriptor.sourceUnit.component.asStr component.configuration
        descriptor.sourceUnit.context)
    else .ok ()

def artifactDiscoveryRequest (cursor : Option String) (executionPlan : OpaqueExecutionPlan) : WorkerMessage :=
  .artifactDiscoveryRequest ⟨⟨"."⟩, 64, cursor, executionPlan⟩

section Lane
variable (env : WorkerEnvironment) (supervisor : Handle) (manifest : ProjectManifest)
  (executionPlan : OpaqueExecutionPlan)

/-- Asks for page after page; `fuel` bounds their number. -/
def discoverPages : Nat → Nat → Option String → List ArtifactDescriptor → List ArtifactLocator →
    Run Workers IndexOrchestratorError DependencyCatalog
  | 0, _, _, _, _ => fail .stillPaging
  | fuel + 1, page, cursor, descriptors, locators => do
    let response ← mapError .worker (Workers.request env supervisor
      (.new ("index-artifact-descriptors-" ++ toString page) (artifactDiscoveryRequest cursor executionPlan)))
    match response.message with
    | .artifactDiscoveryResponse response => do
      lift (response.artifacts.forM (checkDescriptor manifest))
      let descriptors := descriptors ++ response.artifacts
      let locators := locators ++ response.artifactLocators
      match response.nextCursor with
      | some next => discoverPages fuel (page + 1) (some next) descriptors locators
      | none => do
        let workers ← read
        pure {
          descriptors := collect (·.sourceUnit.id) SourceUnitId.le descriptors
          artifactLocators := collect (·.sourceUnit) SourceUnitId.le locators
          workerStarts := (workers.supervisors supervisor).starts }
    | received => fail (.invalidResponse received)

end Lane

def discoverDependencyCatalog (env : WorkerEnvironment) (pages : Nat) (launch : WorkerLaunch)
    (manifest : ProjectManifest) (executionPlan : OpaqueExecutionPlan) :
    Run Workers IndexOrchestratorError DependencyCatalog := do
  let supervisor ← Workers.newSupervisor launch
  let _ ← mapError .worker (Workers.handshake env supervisor "index-dependency-catalog")
  discoverPages env supervisor manifest executionPlan pages 0 none [] []

/-- A lane that was started, with the outcome its join will find. -/
abbrev DependencyLane := Option (Except IndexOrchestratorError DependencyCatalog)

section Paths
variable (env : Environment) (manifest : ProjectManifest) (executionPlan : OpaqueExecutionPlan)

def spawnDependencyLane (launch : WorkerLaunch) : Orchestration DependencyLane := do
  let outcome ← second (attempt (discoverDependencyCatalog env.workers env.pages launch manifest executionPlan))
  pure (some outcome)

def joinDependencyLane (lane : DependencyLane) (run : IndexRun) : Orchestration IndexRun :=
  match lane with
  | none => pure run
  | some outcome => do
    let catalog ← lift outcome
    onIndex (Index.write env.index (fun disk store => store.replaceArtifactDescriptors disk catalog.descriptors) none)
    pure { run with
      artifactLocators := catalog.artifactLocators, workerStarts := run.workerStarts + catalog.workerStarts }

def putManifest : Orchestration Unit :=
  onIndex (Index.write env.index (fun disk store => store.putManifest disk manifest) none)

/-! ## Planned actions -/

/-- Whether the stored manifest, if there is one, is not the resolved one. -/
def dependencyCatalogNeeded (latest : Option ProjectManifest) : Bool :=
  latest.all fun previous => previous.fingerprint ≠ manifest.fingerprint

def removeSnapshot (sourceUnit : SourceUnitId) : Orchestration Unit :=
  onIndex (Index.write env.index (fun disk store => store.removeSnapshot disk sourceUnit) (some (.removed sourceUnit)))

def applyAction (state : IndexRun × List SourceUnit) : IndexAction → Orchestration (IndexRun × List SourceUnit)
  | .reuse _ => pure ({ state.1 with reused := state.1.reused + 1 }, state.2)
  | .reanalyze sourceUnit _ => pure (state.1, state.2 ++ [sourceUnit])
  | .remove sourceUnit => do
    removeSnapshot env sourceUnit
    pure ({ state.1 with removed := state.1.removed + 1 }, state.2)

def applyActions (actions : List IndexAction) : Orchestration (IndexRun × List SourceUnit) :=
  actions.foldlM (applyAction env) ({}, [])

/-! ## Analysis -/

def requestedFacts : List AnalysisFact := [.symbols, .occurrences, .references, .calls, .hierarchy, .types]

def analyzeBatchRequest (sourceUnits : List SourceUnit) : WorkerMessage :=
  .analyzeBatchRequest ⟨manifest.workspace, manifest.fingerprint, requestedFacts, sourceUnits, executionPlan⟩

/-- Sends one batch and checks whose snapshots came back. -/
def analyzeBatch (supervisor : Handle) (requestId : String) (requested : List SourceUnit) :
    Orchestration (List FileAnalysisSnapshot) := do
  let response ← onWorkers (Workers.request env.workers supervisor
    (.new requestId (analyzeBatchRequest manifest executionPlan requested)))
  match response.message with
  | .analysisBatchResponse response => do
    first (Index.record (.answered requested response.snapshots))
    lift (validateBatch requested response.snapshots)
  | received => fail (.invalidResponse received)

def commitBatch (requested : List SourceUnit) (answer : List FileAnalysisSnapshot)
    (entries : List (SourceUnit × FileAnalysisSnapshot)) : Orchestration Unit :=
  onIndex (Index.write env.index (fun disk store => store.replaceSnapshotsBatch disk entries)
    (some (.committed requested answer entries)))

/-! ## The selected-batches path -/

/-- A worker that does not run has to answer for the batch again. -/
def ensureCompatible (batch : WorkerBatch) (batchIndex : Nat) (supervisor : Handle) : Orchestration Unit := do
  let running ← onWorkers (Workers.isRunning env.workers supervisor)
  if running then pure ()
  else do
    let capabilities ← onWorkers (Workers.handshake env.workers supervisor ("index-handshake-" ++ toString batchIndex))
    if batch.language ∈ capabilities.languages ∧ .fileAnalysisSnapshot ∈ capabilities.capabilities then pure ()
    else fail (.workerNoLongerCompatible batch.worker.installation.name batch.component.asStr batch.language)

def analyzeSelectedBatch (batch : WorkerBatch) (requested : List SourceUnit) (batchIndex : Nat)
    (supervisor : Handle) (run : IndexRun) : Orchestration IndexRun := do
  ensureCompatible env batch batchIndex supervisor
  let snapshots ← analyzeBatch env manifest executionPlan supervisor ("index-batch-" ++ toString batchIndex) requested
  -- the expected unit of an entry is the one the worker sent
  commitBatch env requested snapshots (snapshots.map fun snapshot => (snapshot.sourceUnit, snapshot))
  pure { run with analyzed := run.analyzed + snapshots.length }

/-- The supervisors of one run, by launch. -/
abbrev Supervisors := List (WorkerLaunch × Handle)

def supervisorFor (supervisors : Supervisors) (launch : WorkerLaunch) : Orchestration (Supervisors × Handle) :=
  match supervisors.find? (·.1 = launch) with
  | some entry => pure (supervisors, entry.2)
  | none => do
    let supervisor ← second (Workers.newSupervisor launch)
    pure (supervisors ++ [(launch, supervisor)], supervisor)

def runSelectedBatch (reanalyze : List SourceUnit) (state : IndexRun × Supervisors) (indexed : WorkerBatch × Nat) :
    Orchestration (IndexRun × Supervisors) := do
  let requested := indexed.1.sourceUnits.filter fun source => source.id ∈ reanalyze.map (·.id)
  if requested = [] then pure state
  else do
    let (supervisors, supervisor) ← supervisorFor state.2 indexed.1.worker.installation.launch
    let run ← analyzeSelectedBatch env manifest executionPlan indexed.1 requested indexed.2 supervisor state.1
    pure (run, supervisors)

def selectedLane (selection : WorkerSelection) (needed : Bool) : Orchestration DependencyLane :=
  if needed then
    match selection.batches.head? with
    | some batch => spawnDependencyLane env manifest executionPlan batch.worker.installation.launch
    | none => fail .panicked
  else pure none

def indexSelectedBatches (current : List SourceUnit) (selection : WorkerSelection) : Orchestration IndexRun := do
  lift (validateExecutionPlan manifest executionPlan)
  if selection.unsupported ≠ [] then fail (.unsupportedBatches selection.unsupported.length)
  else do
    let actions ← onIndex (Index.query env.index fun store => store.planSources current)
    let latest ← onIndex (Index.query env.index (·.latestManifest))
    let needed := dependencyCatalogNeeded manifest latest
    let (run, reanalyze) ← applyActions env actions
    let lane ← selectedLane env manifest executionPlan selection (needed || reanalyze ≠ [])
    let (run, supervisors) ← selection.batches.zipIdx.foldlM
      (runSelectedBatch env manifest executionPlan reanalyze) (run, [])
    let run ← joinDependencyLane env lane run
    let workers ← second read
    let starts := (supervisors.map fun entry => (workers.supervisors entry.2).starts).foldl (· + ·) 0
    putManifest env manifest
    pure { run with workerStarts := run.workerStarts + starts }

/-! ## The provenance path -/

/-- The commit entry of a requested unit with the dependents its new API invalidates. -/
structure PlannedEntry where
  expected : SourceUnit
  snapshot : FileAnalysisSnapshot
  apiDependents : List SourceUnitId
deriving DecidableEq

def planEntry (store : IndexStore) (snapshots : List FileAnalysisSnapshot) (previousInputs : List AnalysisInput)
    (expected : SourceUnit) : Option PlannedEntry :=
  (snapshots.find? (·.sourceUnit.id = expected.id)).map fun snapshot =>
    let previousApi := (previousInputs.find? (·.sourceUnit.id = expected.id)).bind (·.publicApiFingerprint)
    ⟨expected, snapshot,
      apiDependentInvalidations previousApi snapshot.publicApiFingerprint (store.dependentSourceUnits expected.id)⟩

/-- The entries in request order; a unit without a snapshot is an `expect` that fails. -/
def planEntries (snapshots : List FileAnalysisSnapshot) (reanalyze : List SourceUnit) :
    Orchestration (List PlannedEntry) := do
  let previousInputs ← onIndex (Index.query env.index (·.analysisInputs))
  reanalyze.foldlM (fun entries expected => do
    let entry ← onIndex (Index.query env.index fun store => planEntry store snapshots previousInputs expected)
    match entry with
    | some entry => pure (entries ++ [entry])
    | none => fail .panicked) []

/-- Removes the snapshots of API dependents that were not analyzed. -/
def invalidateDependents (reanalyze : List SourceUnit) (dependents : List SourceUnitId) (run : IndexRun) :
    Orchestration IndexRun :=
  dependents.foldlM (fun run dependent =>
    if dependent ∈ reanalyze.map (·.id) then pure run
    else do
      removeSnapshot env dependent
      pure { run with removed := run.removed + 1 }) run

/-- One worker, one batch: analysis, commit, invalidation. -/
def analyzeAndCommit (launch : WorkerLaunch) (reanalyze : List SourceUnit) (run : IndexRun) :
    Orchestration (IndexRun × Handle) := do
  let supervisor ← second (Workers.newSupervisor launch)
  let _ ← onWorkers (Workers.handshake env.workers supervisor "index-handshake")
  let snapshots ← analyzeBatch env manifest executionPlan supervisor "index-batch" reanalyze
  let planned ← planEntries env snapshots reanalyze
  commitBatch env reanalyze snapshots (planned.map fun entry => (entry.expected, entry.snapshot))
  let run ← invalidateDependents env reanalyze (planned.flatMap (·.apiDependents))
    { run with analyzed := run.analyzed + planned.length }
  pure (run, supervisor)

/-- The plan against a known worker, or else the one from the source metadata. -/
def planActions (current : List SourceUnit) (bySource : List IndexAction) :
    Option Provenance → Orchestration (List IndexAction)
  | some provenance => onIndex (Index.query env.index fun store => store.planAnalysis current provenance)
  | none => pure bySource

def singleLane (launch : WorkerLaunch) (needed : Bool) : Orchestration DependencyLane :=
  if needed then spawnDependencyLane env manifest executionPlan launch else pure none

/-- `index_batch_with_optional_cache`; a provenance makes the plan compare the worker too. -/
def indexBatch (current : List SourceUnit) (launch : WorkerLaunch) (currentProvenance : Option Provenance) :
    Orchestration IndexRun := do
  let bySource ← onIndex (Index.query env.index fun store => store.planSources current)
  let latest ← onIndex (Index.query env.index (·.latestManifest))
  let needed := dependencyCatalogNeeded manifest latest
  let actions ← planActions env current bySource currentProvenance
  let (run, reanalyze) ← applyActions env actions
  let lane ← singleLane env manifest executionPlan launch needed
  if reanalyze = [] then do
    let run ← joinDependencyLane env lane run
    putManifest env manifest
    pure run
  else do
    let (run, supervisor) ← analyzeAndCommit env manifest executionPlan launch reanalyze run
    let run ← joinDependencyLane env lane run
    putManifest env manifest
    let workers ← second read
    pure { run with workerStarts := run.workerStarts + (workers.supervisors supervisor).starts }

/-- `index_batch_with_artifact_cache_provenance_and_execution_plan` -/
def indexBatchWithProvenance (current : List SourceUnit) (launch : WorkerLaunch) (provenance : Provenance) :
    Orchestration IndexRun := do
  lift (validateExecutionPlan manifest executionPlan)
  indexBatch env manifest executionPlan current launch (some provenance)

end Paths

end Kide
