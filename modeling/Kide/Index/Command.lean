import Kide.Index.Materialize

/-!
# The index command

`kide index` (`commands/index.rs`): forced removal, build resolution, worker selection, one of the two
index paths, cache warming, and the checkpoint that closes the run.

What a run reads outside the database and the workers is in `IndexCommand`: the discovered sources and
configuration inputs, the options, and whether the installation, the batch limit, the cache directories
and the workspace text are there. The text index has tables of its own that nothing here reads; they
and the reports printed afterwards are left out.
-/

namespace Kide
open Runs Collects

structure CommandEnvironment extends Environment where
  cache : ArtifactBlobCache
  sha256 : String → String

structure IndexCommand where
  root : WorkspacePath
  sourceUnits : List SourceUnit
  /-- With the effective configuration as the last one. -/
  configurationInputRecords : List ConfigurationInput
  force : Bool
  warmDependencies : Option Nat
  materializeOnly : Bool
  installation : Except String WorkerInstallation
  sourceBatchLimit : Except String BatchLimit
  cacheDirectories : Except String Unit
  stagingDirectory : String
  /-- Collecting and indexing the text. -/
  workspaceText : Except String Unit

inductive CommandError where
  | index (source : IndexOrchestratorError)
  | registry (source : WorkerRegistryError)
  | bail (message : String)
  /-- `expect` on a value that is not there. -/
  | panicked

inductive IndexReport where
  | materialized
  | published (checkpoint : WorkspaceCheckpoint)
deriving DecidableEq

abbrev CommandRun := Run (Index × Workers) CommandError

def onOrchestrator {α : Type} (x : Orchestration α) : CommandRun α := mapError .index x

def bailing {α : Type} (r : Except String α) : CommandRun α := lift (r.mapError .bail)

section
variable (env : CommandEnvironment) (command : IndexCommand)

def onStore {α : Type} (question : IndexStore → α) : CommandRun α :=
  onOrchestrator (onIndex (Index.query env.index question))

/-! ## Build resolution -/

def requestProjectManifest (supervisor : Handle) : CommandRun ProjectManifestResponse := do
  let response ← onOrchestrator (onWorkers (Workers.request env.workers supervisor
    (.new "index-project-manifest" (.projectManifestRequest ⟨"."⟩))))
  match response.message with
  | .projectManifestResponse response => pure response
  | _ => fail (.bail "invalid_project_manifest_response")

def resolveProjectManifest (launch : WorkerLaunch) : CommandRun ProjectManifestResponse := do
  let supervisor ← second (Workers.newSupervisor launch)
  let _ ← onOrchestrator (onWorkers (Workers.handshake env.workers supervisor "index-build-resolution"))
  requestProjectManifest env supervisor

/-- The stored manifest counts while every tracked input is current. -/
def cachedManifest (configurationChanges : ConfigurationInputReconciliation) : CommandRun (Option ProjectManifest) :=
  if !command.force && configurationChanges.allCurrent then onStore env (·.latestManifest) else pure none

/-- The plan of a stored manifest is a reference that the worker resolves. -/
def resolvePlan (installation : WorkerInstallation) (configurationChanges : ConfigurationInputReconciliation) :
    CommandRun ProjectManifestResponse := do
  match ← cachedManifest env command configurationChanges with
  | some manifest => pure ⟨manifest, ⟨"cached", manifest.fingerprint, []⟩⟩
  | none => resolveProjectManifest env installation.launch

/-- Each source in the context of its resolved component. -/
def coverSources (manifest : ProjectManifest) (sources : List SourceUnit) : Except CommandError (List SourceUnit) :=
  if ∃ source ∈ sources, source.component ∉ manifest.components.map (·.id) then
    .error (.bail "resolved_manifest_does_not_cover_discovered_source_components")
  else .ok (sources.map manifest.contextualize)

/-! ## Artifacts -/

/-- A second path for an artifact is refused. -/
def insertLocator (locators : List ArtifactLocator) (locator : ArtifactLocator) :
    Except CommandError (List ArtifactLocator) :=
  match lastOf (·.sourceUnit) locators locator.sourceUnit with
  | some previous =>
    if previous.locator ≠ locator.locator then
      .error (.bail ("duplicate_resolved_artifact_locator=" ++ locator.sourceUnit.asStr))
    else .ok (locators ++ [locator])
  | none => .ok (locators ++ [locator])

/-- Asks for page after page; `fuel` bounds their number. -/
def discoverArtifactLocators (supervisor : Handle) (executionPlan : OpaqueExecutionPlan) :
    Nat → Nat → Option String → List ArtifactLocator → CommandRun (List ArtifactLocator)
  | 0, _, _, _ => fail (.index .stillPaging)
  | fuel + 1, page, cursor, locators => do
    let response ← onOrchestrator (onWorkers (Workers.request env.workers supervisor
      (.new ("materialize-only-artifact-descriptors-" ++ toString page) (artifactDiscoveryRequest cursor executionPlan))))
    match response.message with
    | .artifactDiscoveryResponse response => do
      let locators ← lift (response.artifactLocators.foldlM insertLocator locators)
      match response.nextCursor with
      | some next => discoverArtifactLocators supervisor executionPlan fuel (page + 1) (some next) locators
      | none => pure locators
    | _ => fail (.bail "invalid_artifact_discovery_response")

def remainingBudget (warmLimit : Nat) : Nat := if warmLimit = 0 then 4294967295 else warmLimit

/-- The artifacts of a list until the budget is exhausted; `afterwards` is what a loop does with an outcome. -/
def cacheArtifacts (supervisor : Handle) (workspaceRoot : WorkspacePath)
    (locatorOf : ArtifactDescriptor → Except CommandError (Option String))
    (afterwards : ArtifactDescriptor → MaterializationOutcome → CommandRun Unit) :
    List ArtifactDescriptor → Nat → CommandRun Unit
  | [], _ => pure ()
  | descriptor :: rest, remainingArtifacts => do
    let artifactLocator ← lift (locatorOf descriptor)
    let (outcome, remainingArtifacts) ← onOrchestrator (cacheCatalogArtifact env.cache env.toEnvironment supervisor
      workspaceRoot command.stagingDirectory descriptor.sourceUnit.id artifactLocator remainingArtifacts)
    if outcome = .budgetExhausted then pure ()
    else do
      afterwards descriptor outcome
      cacheArtifacts supervisor workspaceRoot locatorOf afterwards rest remainingArtifacts

def locatorFor (locators : List ArtifactLocator) (descriptor : ArtifactDescriptor) : Option String :=
  (lastOf (·.sourceUnit) locators descriptor.sourceUnit.id).map (·.locator)

/-- `--materialize-only`: no source work and no checkpoint. -/
def materializeArtifacts (warmLimit : Nat) : CommandRun IndexReport := do
  let descriptors ← onStore env (·.artifactDescriptors)
  let installation ← bailing command.installation
  let supervisor ← second (Workers.newSupervisor installation.launch)
  let _ ← onOrchestrator (onWorkers (Workers.handshake env.workers supervisor "materialize-only"))
  let resolved ← requestProjectManifest env supervisor
  let locators ← discoverArtifactLocators env supervisor resolved.executionPlan env.pages 0 none []
  cacheArtifacts env command supervisor command.root
    (fun descriptor =>
      match locatorFor locators descriptor with
      | some locator => .ok (some locator)
      | none => .error (.bail ("resolved_artifact_locator_missing=" ++ descriptor.sourceUnit.id.asStr)))
    (fun _ _ => pure ()) descriptors (remainingBudget warmLimit)
  let _ ← onStore env (·.artifactDescriptors)
  pure .materialized

/-- Reads a new blob back for its length, under the key of an unattributed artifact. -/
def readBack (descriptor : ArtifactDescriptor) (outcome : MaterializationOutcome) : CommandRun Unit :=
  if outcome = .materialized then do
    let tick ← first Index.tick
    match env.cache.opens tick (.unattributed descriptor.sourceUnit.content descriptor.sourceUnit.context
        descriptor.provenance ARTIFACT_BLOB_LAYOUT_VERSION) with
    | .present _ => pure ()
    | .absent => pure ()
    | _ => fail (.index .artifactBlobCache)
  else pure ()

/-- The cataloged artifacts within the limit that are not in the cache. -/
def warmMisses (blobIsAvailable : ResolvedDependencyIdentity → Bool) (persisted descriptors : List ArtifactDescriptor)
    (warmLimit : Nat) : List ArtifactDescriptor :=
  let artifactsTotal := if warmLimit = 0 then descriptors.length else min descriptors.length warmLimit
  (descriptors.take artifactsTotal).filter fun descriptor =>
    .cacheMiss descriptor ∈ planDependencies blobIsAvailable descriptors persisted

def warmDependencies (manifest : ProjectManifest) (launch : WorkerLaunch) (persisted : List ArtifactDescriptor)
    (locators : List ArtifactLocator) (warmLimit : Nat) : CommandRun Unit := do
  let descriptors ← onStore env (·.artifactDescriptors)
  let tick ← first Index.tick
  let requested := warmMisses (fun key => (env.cache.opens tick key) matches .present _) persisted descriptors warmLimit
  if requested = [] then pure ()
  else do
    let supervisor ← second (Workers.newSupervisor launch)
    let _ ← onOrchestrator (onWorkers (Workers.handshake env.workers supervisor "warm-dependency-cache"))
    cacheArtifacts env command supervisor manifest.root (fun descriptor => .ok (locatorFor locators descriptor))
      (readBack env) requested (remainingBudget warmLimit)

/-! ## The command -/

def forceReanalysis : CommandRun Unit :=
  if command.force then
    command.sourceUnits.forM fun source => onOrchestrator (removeSnapshot env.toEnvironment source.id)
  else pure ()

/-- The worker is known to the plan where one batch holds all sources. -/
def runPath (manifest : ProjectManifest) (executionPlan : OpaqueExecutionPlan) (sources : List SourceUnit)
    (selection : WorkerSelection) : CommandRun IndexRun :=
  match selection.batches with
  | [batch] =>
    match sources.head? with
    | some source =>
      onOrchestrator (indexBatchWithProvenance env.toEnvironment manifest executionPlan sources batch.worker.installation.launch
        ⟨batch.worker.capabilities.identity.backend, batch.worker.capabilities.identity.backendVersion,
          batch.worker.capabilities.protocolVersion, source.context⟩)
    | none => fail .panicked
  | _ => onOrchestrator (indexSelectedBatches env.toEnvironment manifest executionPlan sources selection)

/-- The publication of a run: text, configuration inputs, and the checkpoint last. -/
def publish (manifest : ProjectManifest) (sources : List SourceUnit) : CommandRun IndexReport := do
  bailing command.workspaceText
  onOrchestrator (onIndex (Index.write env.index
    (fun disk store => store.replaceConfigurationInputs disk command.configurationInputRecords) none))
  let descriptors ← onStore env (·.artifactDescriptors)
  let checkpoint : WorkspaceCheckpoint := {
    workspace := manifest.workspace
    manifest := manifest.fingerprint
    configurationInputs := fingerprintConfigurationInputs env.sha256 command.configurationInputRecords
    sourceInputs := fingerprintSourceInputs env.sha256 sources
    artifactCatalog := fingerprintArtifactCatalog env.sha256 descriptors
    committed := true }
  onOrchestrator (onIndex (Index.write env.index (fun disk store => store.putWorkspaceCheckpoint disk checkpoint) none))
  pure (.published checkpoint)

def warmIfAsked (manifest : ProjectManifest) (selection : WorkerSelection) (persisted : List ArtifactDescriptor)
    (run : IndexRun) : CommandRun Unit :=
  match command.warmDependencies with
  | none => pure ()
  | some warmLimit =>
    match selection.batches.head? with
    | some batch =>
      warmDependencies env command manifest batch.worker.installation.launch persisted run.artifactLocators warmLimit
    | none => fail .panicked

def indexSources (persisted : List ArtifactDescriptor) (configurationChanges : ConfigurationInputReconciliation) :
    CommandRun IndexReport := do
  let installation ← bailing command.installation
  let resolved ← resolvePlan env command installation configurationChanges
  let sources ← lift (coverSources resolved.manifest command.sourceUnits)
  let limit ← bailing command.sourceBatchLimit
  let selection ← mapError .registry (second (selectWithBatchLimit env.workers [installation]
    resolved.manifest sources [.fileAnalysisSnapshot] limit))
  if selection.unsupported ≠ [] then fail (.bail "unsupported_worker_batches")
  else do
    let run ← runPath env resolved.manifest resolved.executionPlan sources selection
    warmIfAsked env command resolved.manifest selection persisted run
    publish env command resolved.manifest sources

def indexCommand : CommandRun IndexReport := do
  let persisted ← onStore env (·.artifactDescriptors)
  let configurationChanges ← onStore env (·.configurationInputStatus command.configurationInputRecords)
  forceReanalysis env command
  bailing command.cacheDirectories
  if command.materializeOnly then
    match command.warmDependencies with
    | some warmLimit => materializeArtifacts env command warmLimit
    | none => fail .panicked
  else indexSources env command persisted configurationChanges

end

end Kide
