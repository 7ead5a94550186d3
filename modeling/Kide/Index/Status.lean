import Kide.Index.FreshnessGate
import Kide.Index.Records

/-!
# The status command

`kide status` (`commands/search.rs`): it discovers the workspace again and compares what it finds with the
records of the last run. `index` lists the effective configuration under the components that discovery found,
`status` under those of the stored manifest.

`index_then_status_fresh_iff`: after a run into an empty store nothing has changed, and the status is fresh exactly if
the two lists are one.
-/

namespace Kide
open Runs Collects Checks

/-- What `discover_workspace` finds; of its components only the ids are read. -/
structure WorkspaceDiscovery where
  components : List ComponentId
  sourceUnits : List SourceUnit
  configurationInputRecords : List ConfigurationInput

structure IndexCounts where
  fresh : Nat := 0
  stale : Nat := 0
  unknown : Nat := 0
  unsupported : Nat := 0
deriving DecidableEq, Repr

structure ConfigurationInputCounts where
  current : Nat := 0
  added : Nat := 0
  changed : Nat := 0
  missing : Nat := 0
deriving DecidableEq, Repr

structure ArtifactCoverage where
  cataloged : Nat := 0
  cached : Nat := 0
  cachedBytes : Nat := 0
  missing : Nat := 0
  invalid : Nat := 0
deriving DecidableEq, Repr

structure StatusResult where
  workspace : WorkspacePath
  manifest : Freshness
  sourceUnits : IndexCounts
  configurationInputs : ConfigurationInputCounts
  dependencyBlobs : ArtifactCoverage
  affectedComponents : List ComponentId
  completeness : Completeness
deriving DecidableEq, Repr

def countConfigurationInput (counts : ConfigurationInputCounts) (input : ConfigurationInputStatus) : ConfigurationInputCounts :=
  match input.state with
  | .current => { counts with current := counts.current + 1 }
  | .added => { counts with added := counts.added + 1 }
  | .changed => { counts with changed := counts.changed + 1 }
  | .missing => { counts with missing := counts.missing + 1 }

/-- A persisted source against the discovered one of its id. -/
def countSource (discovered : List SourceUnit) (counts : IndexCounts) (source : SourceSnapshotInput) : IndexCounts :=
  match lastOf (·.id) discovered source.id with
  | some current =>
    if current.content = source.content then { counts with fresh := counts.fresh + 1 }
    else { counts with stale := counts.stale + 1 }
  | none => { counts with unknown := counts.unknown + 1 }

def countBlob (store : IndexStore) (opens : ResolvedDependencyIdentity → BlobAnswer) (coverage : ArtifactCoverage)
    (descriptor : ArtifactDescriptor) : ArtifactCoverage :=
  let coverage := { coverage with cataloged := coverage.cataloged + 1 }
  match store.artifactBlobFor descriptor.sourceUnit.id with
  | none => { coverage with missing := coverage.missing + 1 }
  | some blob =>
    match opens blob.identity with
    | .present byteLength => { coverage with cached := coverage.cached + 1, cachedBytes := coverage.cachedBytes + byteLength }
    | .absent => { coverage with missing := coverage.missing + 1 }
    | .invalid => { coverage with invalid := coverage.invalid + 1 }
    | .failed => { coverage with missing := coverage.missing + 1 }

section
variable (sha256 : String → String)

/-- The checkpoint is of this manifest and of these sources. -/
def sourceCheckpointMatches (manifest : ProjectManifest) (sources : List SourceUnit) (checkpoint : WorkspaceCheckpoint) : Bool :=
  checkpoint.committed && checkpoint.workspace = manifest.workspace && checkpoint.manifest = manifest.fingerprint
    && checkpoint.sourceInputs = fingerprintSourceInputs sha256 sources

/-- The checkpoint is of the inputs that are there now. -/
def checkpointMatches (manifest : ProjectManifest) (inputs : List ConfigurationInput) (sources : List SourceUnit)
    (descriptors : List ArtifactDescriptor) (checkpoint : WorkspaceCheckpoint) : Bool :=
  sourceCheckpointMatches sha256 manifest sources checkpoint
    && checkpoint.configurationInputs = fingerprintConfigurationInputs sha256 inputs
    && checkpoint.artifactCatalog = fingerprintArtifactCatalog sha256 descriptors

def sourceCounts (manifest : ProjectManifest) (sources : List SourceUnit) (store : IndexStore) : IndexCounts :=
  if store.workspaceCheckpoint.any (sourceCheckpointMatches sha256 manifest sources) then { fresh := sources.length }
  else store.sourceSnapshotInputs.foldl (countSource sources) {}

variable (digest : Bytes → String) (configuration : EffectiveConfiguration) (opens : ResolvedDependencyIdentity → BlobAnswer)
  (discovery : WorkspaceDiscovery) (store : IndexStore)

/-- The inputs as `status` lists them. -/
def statusConfigurationInputs (manifest : ProjectManifest) : List ConfigurationInput :=
  discovery.configurationInputRecords
    ++ [effectiveConfigurationInput digest configuration (manifest.components.map (·.id))]

/-- `none` is the answer of an index without a manifest. -/
def status : Option StatusResult :=
  store.latestManifest.map fun manifest =>
    let currentInputs := statusConfigurationInputs digest configuration discovery manifest
    let configurationStatus := store.configurationInputStatus currentInputs
    let configurationCounts := configurationStatus.inputs.foldl countConfigurationInput {}
    let counts := sourceCounts sha256 manifest discovery.sourceUnits store
    let configurationStale :=
      configurationCounts.added > 0 || configurationCounts.changed > 0 || configurationCounts.missing > 0
    let checkpointMatches := store.workspaceCheckpoint.any
      (checkpointMatches sha256 manifest currentInputs discovery.sourceUnits store.artifactDescriptors)
    let freshness : Freshness :=
      if store.workspaceCheckpoint.isNone then .unknown
      else if counts.stale > 0 || configurationStale || !checkpointMatches then .stale
      else if counts.unknown > 0 then .unknown
      else .fresh
    { workspace := manifest.root
      manifest := freshness
      sourceUnits := counts
      configurationInputs := configurationCounts
      dependencyBlobs := store.artifactDescriptors.foldl (countBlob store opens) {}
      affectedComponents := configurationStatus.affectedComponents
      completeness := if counts.unknown = 0 then .complete else .partially }

/-! ## What makes a status fresh -/

/-- No input differs, no source is stale, and the checkpoint is the one of the present inputs. -/
structure ReportsFresh : Prop where
  fresh : ∃ result ∈ status sha256 digest configuration opens discovery store, result.manifest = .fresh ∧
    result.configurationInputs.added = 0 ∧ result.configurationInputs.changed = 0 ∧
    result.configurationInputs.missing = 0 ∧ result.sourceUnits.stale = 0
  checkpoint : ∃ manifest ∈ store.latestManifest, ∃ checkpoint ∈ store.workspaceCheckpoint,
    checkpointMatches sha256 manifest (statusConfigurationInputs digest configuration discovery manifest)
      discovery.sourceUnits store.artifactDescriptors checkpoint = true

end

theorem countConfigurationInputs_sum (inputs : List ConfigurationInputStatus) (counts : ConfigurationInputCounts) :
    (inputs.foldl countConfigurationInput counts).added + (inputs.foldl countConfigurationInput counts).changed
        + (inputs.foldl countConfigurationInput counts).missing =
      counts.added + counts.changed + counts.missing + inputs.countP (·.state ≠ .current) := by
  induction inputs generalizing counts with
  | nil => rfl
  | cons input inputs ih =>
    rw [List.foldl_cons, ih, List.countP_cons]
    unfold countConfigurationInput
    cases hstate : input.state <;> simp <;> omega

/-- No input is counted as added, changed or missing exactly if all are current. -/
theorem configurationCounts_eq_zero_iff {reconciliation : ConfigurationInputReconciliation} :
    ((reconciliation.inputs.foldl countConfigurationInput {}).added = 0 ∧
        (reconciliation.inputs.foldl countConfigurationInput {}).changed = 0 ∧
        (reconciliation.inputs.foldl countConfigurationInput {}).missing = 0) ↔ reconciliation.allCurrent = true := by
  have hsum := countConfigurationInputs_sum reconciliation.inputs {}
  have hall : reconciliation.allCurrent = true ↔ reconciliation.inputs.countP (·.state ≠ .current) = 0 := by
    unfold ConfigurationInputReconciliation.allCurrent
    simp [List.countP_eq_zero]
  rw [hall]
  simp only at hsum ⊢
  omega

theorem lastOf_append_one {α κ : Type} [DecidableEq κ] (key : α → κ) (l : List α) (a : α) (k : κ) :
    lastOf key (l ++ [a]) k = if key a = k then some a else lastOf key l k := by
  unfold lastOf
  rw [List.reverse_append, List.reverse_singleton, List.singleton_append, List.find?_cons]
  by_cases h : key a = k <;> simp [h]

/-- Two lists that differ only in the components of their last input are current exactly if they do not differ. -/
theorem allCurrent_effective_iff {records : List ConfigurationInput} {digest : Bytes → String}
    {configuration : EffectiveConfiguration} {stored current : List ComponentId} :
    (reconcileConfigurationInputs (records ++ [effectiveConfigurationInput digest configuration stored])
        (records ++ [effectiveConfigurationInput digest configuration current])).allCurrent = true ↔ stored = current := by
  rw [allCurrent_iff]
  constructor
  · intro h
    have heffective := h EFFECTIVE_CONFIG (List.mem_map.2
      ⟨effectiveConfigurationInput digest configuration stored, by simp, rfl⟩)
    obtain ⟨before, hbefore, now, hnow, -, hcomponents⟩ := heffective
    have hlast : ∀ components, lastOf (·.path) (records ++ [effectiveConfigurationInput digest configuration components])
        EFFECTIVE_CONFIG = some (effectiveConfigurationInput digest configuration components) :=
      fun _ => (lastOf_append_one _ _ _ _).trans (if_pos rfl)
    rw [hlast] at hbefore hnow
    cases hbefore
    cases hnow
    exact hcomponents
  · rintro rfl path hpath
    rw [List.map_append, List.mem_append, or_self] at hpath
    obtain ⟨input, hinput⟩ := Option.isSome_iff_exists.1 ((lastOf_isSome_iff ConfigurationInput.path).2 hpath)
    exact ⟨input, hinput, input, hinput, rfl, rfl⟩

section
variable {sha256 : String → String} {digest : Bytes → String} {configuration : EffectiveConfiguration}
  {opens : ResolvedDependencyIdentity → BlobAnswer} {discovery : WorkspaceDiscovery}

theorem sourceEntry_contextualize (manifest : ProjectManifest) (source : SourceUnit) :
    sourceEntry (manifest.contextualize source) = sourceEntry source := by
  unfold ProjectManifest.contextualize
  split <;> rfl

/-- A run fingerprints its sources in their contexts, which the fingerprint does not read. -/
theorem fingerprintSourceInputs_contextualize (manifest : ProjectManifest) (sources : List SourceUnit) :
    fingerprintSourceInputs sha256 (sources.map manifest.contextualize) = fingerprintSourceInputs sha256 sources := by
  unfold fingerprintSourceInputs
  rw [List.map_map]
  congr 2
  exact List.map_congr_left fun source _ => sourceEntry_contextualize manifest source

theorem ReportsFresh.current {store : IndexStore} {manifest : ProjectManifest}
    (h : ReportsFresh sha256 digest configuration opens discovery store) (hmanifest : store.latestManifest = some manifest) :
    (store.configurationInputStatus (statusConfigurationInputs digest configuration discovery manifest)).allCurrent = true := by
  obtain ⟨⟨result, hresult, -, hadded, hchanged, hmissing, -⟩, -⟩ := h
  unfold status at hresult
  rw [hmanifest] at hresult
  cases hresult
  exact configurationCounts_eq_zero_iff.1 ⟨hadded, hchanged, hmissing⟩

/-- The records of a run on the discovered inputs are fresh exactly if the components are the same. -/
theorem reportsFresh_iff {store : IndexStore} {manifest : ProjectManifest} {checkpoint : WorkspaceCheckpoint}
    {recorded : List ConfigurationInput} (hmanifest : store.latestManifest = some manifest)
    (hcheckpoint : store.workspaceCheckpoint = some checkpoint)
    (hrecorded : recorded = discovery.configurationInputRecords
      ++ [effectiveConfigurationInput digest configuration discovery.components])
    (hinputs : store.configurationInputs = recorded)
    (hsource : sourceCheckpointMatches sha256 manifest discovery.sourceUnits checkpoint = true)
    (hconfiguration : checkpoint.configurationInputs = fingerprintConfigurationInputs sha256 recorded)
    (hcatalog : checkpoint.artifactCatalog = fingerprintArtifactCatalog sha256 store.artifactDescriptors) :
    ReportsFresh sha256 digest configuration opens discovery store ↔
      manifest.components.map (·.id) = discovery.components := by
  have hcurrent : (store.configurationInputStatus (statusConfigurationInputs digest configuration discovery manifest)).allCurrent
      = true ↔ discovery.components = manifest.components.map (·.id) := by
    unfold IndexStore.configurationInputStatus statusConfigurationInputs
    rw [hinputs, hrecorded]
    exact allCurrent_effective_iff
  constructor
  · exact fun h => (hcurrent.1 (h.current hmanifest)).symm
  · intro hcomponents
    obtain ⟨hadded, hchanged, hmissing⟩ := configurationCounts_eq_zero_iff.2 (hcurrent.2 hcomponents.symm)
    have hlisted : statusConfigurationInputs digest configuration discovery manifest = recorded := by
      rw [hrecorded, ← hcomponents]
      rfl
    have hmatches : checkpointMatches sha256 manifest (statusConfigurationInputs digest configuration discovery manifest)
        discovery.sourceUnits store.artifactDescriptors checkpoint = true := by
      unfold checkpointMatches
      rw [hsource, hlisted, hconfiguration, hcatalog]
      simp
    have hcounts : sourceCounts sha256 manifest discovery.sourceUnits store = { fresh := discovery.sourceUnits.length } := by
      unfold sourceCounts
      rw [hcheckpoint, Option.any_some, hsource, if_pos rfl]
    refine ⟨?_, manifest, hmanifest, checkpoint, hcheckpoint, hmatches⟩
    unfold status
    rw [hmanifest, hcheckpoint]
    refine ⟨_, rfl, ?_, hadded, hchanged, hmissing, congrArg (·.stale) hcounts⟩
    simp only [Option.isNone_some, Bool.false_eq_true, if_false, hadded, hchanged, hmissing, hcounts, Option.any_some, hmatches]
    rfl

end

/-- The run indexes what discovery found under this configuration. -/
structure IndexCommand.Indexes (command : IndexCommand) (digest : Bytes → String) (configuration : EffectiveConfiguration)
    (discovery : WorkspaceDiscovery) : Prop where
  sources : command.sourceUnits = discovery.sourceUnits
  inputs : command.configurationInputRecords = discovery.configurationInputRecords
    ++ [effectiveConfigurationInput digest configuration discovery.components]

/-- What a run into an empty store leaves as its records. -/
theorem indexCommand_empty_records {env : CommandEnvironment} {command : IndexCommand} {report : IndexReport}
    {state state' : Index × Workers} (hstore : state.1.store = {}) (hsources : command.materializeOnly = false)
    (hrun : indexCommand env command state = (.ok report, state')) :
    ∃ manifest store, ResolvedByWorker env command state manifest ∧
      state'.1.store.projectManifests = [manifest] ∧
      state'.1.store.configurationInputs = command.configurationInputRecords ∧
      state'.1.store.artifactCatalog = store.artifactCatalog ∧
      state'.1.store.workspaceCheckpoints =
        [checkpointOf env command manifest (command.sourceUnits.map manifest.contextualize) store] := by
  rw [indexCommand_eq hsources] at hrun
  obtain ⟨before, s₁, hbefore, hrun⟩ := run_bind_ok.1 hrun
  obtain ⟨u, s₂, hwarm, hpublish⟩ := run_bind_ok.1 hrun
  obtain ⟨hsettles, hcovered⟩ := beforeWarming_settles hbefore
  have hrecords : s₁.1.store.records = withManifest ([], [], []) before.manifest :=
    beforeWarming_records.returned (by rw [hstore]; rfl) hbefore
  have hwarmed := warmIfAsked_leaves env command records_offCatalog before.manifest before.selection before.persisted
    before.run s₁
  rw [hwarm] at hwarmed
  have hkept : s₂.1.store.records = withManifest ([], [], []) before.manifest := hwarmed.trans hrecords
  have hmanifests : s₂.1.store.projectManifests = [before.manifest] := congrArg Prod.fst hkept
  have hcheckpoints : s₂.1.store.workspaceCheckpoints = [] := congrArg (·.2.2) hkept
  have hpublished := publish_ok hpublish
  refine ⟨before.manifest, s₂.1.store, ?_, ?_, ?_, ?_, ?_⟩
  · rcases hsettles with hreused | ⟨-, hresolved⟩
    · unfold IndexCommand.reused at hreused
      rw [hstore] at hreused
      split at hreused <;> cases hreused
    · exact hresolved
  · rw [hpublished]
    exact hmanifests
  · rw [hpublished]
  · rw [hpublished]
  · rw [hpublished, ← hcovered]
    show IndexStore.upsert _ s₂.1.store.workspaceCheckpoints _ = _
    rw [hcheckpoints]
    rfl

/-- **Index then status.** Right after a run into an empty store the status is fresh if and only if the manifest that the
worker resolved lists the discovered components, in their order. -/
theorem index_then_status_fresh_iff (digest : Bytes → String) (env : CommandEnvironment) (command : IndexCommand)
    (configuration : EffectiveConfiguration) (opens : ResolvedDependencyIdentity → BlobAnswer) (discovery : WorkspaceDiscovery)
    (report : IndexReport) (state state' : Index × Workers) (hstore : state.1.store = {})
    (hsources : command.materializeOnly = false) (hindexes : command.Indexes digest configuration discovery)
    (hrun : indexCommand env command state = (.ok report, state')) :
    ∃ manifest, ResolvedByWorker env command state manifest ∧
      (ReportsFresh env.sha256 digest configuration opens discovery state'.1.store ↔
        manifest.components.map (·.id) = discovery.components) := by
  obtain ⟨manifest, store, hresolved, hmanifests, hinputs, hcatalog, hcheckpoints⟩ :=
    indexCommand_empty_records hstore hsources hrun
  have hlatest : state'.1.store.latestManifest = some manifest := by
    unfold IndexStore.latestManifest
    rw [hmanifests]
    rfl
  have hcheckpoint : state'.1.store.workspaceCheckpoint =
      some (checkpointOf env command manifest (command.sourceUnits.map manifest.contextualize) store) := by
    unfold IndexStore.workspaceCheckpoint
    rw [hcheckpoints]
    rfl
  have hmatches : sourceCheckpointMatches env.sha256 manifest discovery.sourceUnits
      (checkpointOf env command manifest (command.sourceUnits.map manifest.contextualize) store) = true := by
    unfold sourceCheckpointMatches checkpointOf
    rw [fingerprintSourceInputs_contextualize, hindexes.sources]
    simp
  have hdescriptors : state'.1.store.artifactDescriptors = store.artifactDescriptors := by
    unfold IndexStore.artifactDescriptors
    rw [hcatalog]
  refine ⟨manifest, hresolved, reportsFresh_iff hlatest hcheckpoint hindexes.inputs hinputs hmatches rfl ?_⟩
  rw [hdescriptors]
  rfl

/-! ## A module without sources -/

def sampleConfiguration : EffectiveConfiguration := ⟨.freshOnly, [123, 125]⟩

/-- One file, and the modules the walk has found. -/
def sampleDiscovery (components : List ComponentId) : WorkspaceDiscovery :=
  ⟨components, warmingCommand.sourceUnits, []⟩

/-- `kide index` on the discovered file, with the worker that resolves one component. -/
def plainCommand (components : List ComponentId) : IndexCommand :=
  { warmingCommand with
    configurationInputRecords := [effectiveConfigurationInput (fun _ => "") sampleConfiguration components]
    warmDependencies := none }

def plainRun (components : List ComponentId) : Except CommandError IndexReport × Index × Workers :=
  indexCommand (warmingEnvironment 0) (plainCommand components) (emptyIndex, noWorkers)

theorem plainCommand_indexes (components : List ComponentId) :
    (plainCommand components).Indexes (fun _ => "") sampleConfiguration (sampleDiscovery components) := ⟨rfl, rfl⟩

/-- The worker of `libraryWorker` answers with its one manifest. -/
theorem plainCommand_resolved {components : List ComponentId} {manifest : ProjectManifest}
    (h : ResolvedByWorker (warmingEnvironment 0) (plainCommand components) (emptyIndex, noWorkers) manifest) :
    manifest = warmedManifest := by
  obtain ⟨installation, resolved, hinstallation, hresolved, rfl⟩ := h
  cases hinstallation
  have hmanifest : (resolveProjectManifest (warmingEnvironment 0) sampleLaunch (emptyIndex, noWorkers)).1.toOption.map
      (·.manifest) = some warmedManifest := by decide +kernel
  have hsame := congrArg (fun result => result.toOption.map (·.manifest)) hresolved
  exact Option.some.inj (hsame.symm.trans hmanifest)

theorem resolved_components_fresh :
    ∃ manifest, ResolvedByWorker (warmingEnvironment 0) (plainCommand [⟨"app:main"⟩]) (emptyIndex, noWorkers) manifest ∧
      (ReportsFresh id (fun _ => "") sampleConfiguration (fun _ => .absent) (sampleDiscovery [⟨"app:main"⟩])
          (plainRun [⟨"app:main"⟩]).2.1.store ↔
        manifest.components.map (·.id) = [⟨"app:main"⟩]) := by
  have hok : (plainRun [⟨"app:main"⟩]).1.isOk = true := by decide +kernel
  obtain ⟨⟨result, state'⟩, hrun⟩ : ∃ run, plainRun [⟨"app:main"⟩] = run := ⟨_, rfl⟩
  rw [hrun] at hok ⊢
  obtain ⟨report, rfl⟩ := exists_ok_of_isOk hok
  exact index_then_status_fresh_iff (fun _ => "") (warmingEnvironment 0) (plainCommand [⟨"app:main"⟩]) sampleConfiguration
    (fun _ => .absent) (sampleDiscovery [⟨"app:main"⟩]) report (emptyIndex, noWorkers) state' rfl rfl
    (plainCommand_indexes _) hrun

/-- The walk finds a module that the build does not resolve: the status after the run is not fresh. -/
theorem unresolved_module_stale :
    ¬ ∀ (digest : Bytes → String) (env : CommandEnvironment) (command : IndexCommand) (configuration : EffectiveConfiguration)
      (opens : ResolvedDependencyIdentity → BlobAnswer) (discovery : WorkspaceDiscovery) (report : IndexReport)
      (state state' : Index × Workers), state.1.store = {} → command.materializeOnly = false →
      command.Indexes digest configuration discovery → indexCommand env command state = (.ok report, state') →
      ReportsFresh env.sha256 digest configuration opens discovery state'.1.store := by
  intro h
  have hok : (plainRun [⟨"app:main"⟩, ⟨"app:docs"⟩]).1.isOk = true := by decide +kernel
  obtain ⟨⟨result, state'⟩, hrun⟩ : ∃ run, plainRun [⟨"app:main"⟩, ⟨"app:docs"⟩] = run := ⟨_, rfl⟩
  rw [hrun] at hok
  obtain ⟨report, rfl⟩ := exists_ok_of_isOk hok
  have hfresh := h (fun _ => "") (warmingEnvironment 0) (plainCommand [⟨"app:main"⟩, ⟨"app:docs"⟩]) sampleConfiguration
    (fun _ => .absent) (sampleDiscovery [⟨"app:main"⟩, ⟨"app:docs"⟩]) report (emptyIndex, noWorkers) state' rfl rfl
    (plainCommand_indexes _) hrun
  obtain ⟨manifest, store, hresolved, hmanifests, hinputs, -⟩ := indexCommand_empty_records rfl rfl hrun
  rw [plainCommand_resolved hresolved] at hmanifests
  have hlatest : state'.1.store.latestManifest = some warmedManifest := by
    unfold IndexStore.latestManifest
    rw [hmanifests]
    rfl
  have hcurrent := hfresh.current hlatest
  unfold IndexStore.configurationInputStatus at hcurrent
  rw [hinputs] at hcurrent
  have hcomponents := (@allCurrent_effective_iff [] (fun _ => "") sampleConfiguration _ _).1 hcurrent
  exact absurd hcomponents (by decide)

end Kide
