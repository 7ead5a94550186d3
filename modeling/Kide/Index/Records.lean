import Kide.Index.ArtifactLinks
import Kide.Index.Sessions

/-!
# The records of a run

What a run of `kide index` does to the manifest, the configuration inputs and the checkpoint of the
workspace. A step of the source lane touches only facts, a step of the dependency lane only the catalog
(`OffFacts`, `OffCatalog`); the records are written by `put_manifest` at the end of an index path and by
the publication.
-/

namespace Kide
open Runs Collects Checks Transactions

/-! ## Runs beside a part of the store -/

section
variable {ε ε' α β γ δ : Type} {part : IndexStore → δ}

/-- A run that leaves a part of the store as it is. -/
abbrev Leaves (part : IndexStore → δ) (x : Run (Index × Workers) ε α) : Prop :=
  Within (fun s s' => part s'.1.store = part s.1.store) x

/-- The part is not among the facts. -/
def OffFacts (part : IndexStore → δ) : Prop :=
  ∀ store store' : IndexStore, store'.publication = store.publication → part store' = part store

/-- The part is not in the dependency catalog. -/
def OffCatalog (part : IndexStore → δ) : Prop :=
  ∀ store store' : IndexStore, store'.uncataloged = store.uncataloged → part store' = part store

namespace Leaves

theorem pure (a : α) : Leaves part (Pure.pure a : Run (Index × Workers) ε α) := fun _ => rfl

theorem fail (e : ε) : Leaves part (Runs.fail e : Run (Index × Workers) ε α) := fun _ => rfl

theorem lift (r : Except ε α) : Leaves part (Runs.lift r : Run (Index × Workers) ε α) := fun _ => rfl

theorem second (x : Run Workers ε α) : Leaves part (Runs.second x : Run (Index × Workers) ε α) := fun _ => rfl

theorem onWorkers (x : WorkerRun α) : Leaves part (onWorkers x) := fun _ => rfl

theorem bind {x : Run (Index × Workers) ε β} {f : β → Run (Index × Workers) ε α} (hx : Leaves part x)
    (hf : ∀ b, Leaves part (f b)) : Leaves part (x >>= f) :=
  Within.bind (R := fun s s' : Index × Workers => part s'.1.store = part s.1.store) (fun _ _ _ h h' => h'.trans h) hx hf

theorem foldlM {f : β → γ → Run (Index × Workers) ε β} {l : List γ} (h : ∀ b, ∀ c ∈ l, Leaves part (f b c)) (b : β) :
    Leaves part (l.foldlM f b) :=
  Within.foldlM (R := fun s s' : Index × Workers => part s'.1.store = part s.1.store) (fun _ => rfl)
    (fun _ _ _ h h' => h'.trans h) h b

theorem query (env : IndexEnvironment) (question : IndexStore → α) : Leaves part (onIndex (Index.query env question)) := by
  refine Within.first (R := fun i i' : Index => part i'.store = part i.store) (Within.mapError fun index => ?_)
  unfold Index.query
  split <;> rfl

theorem waited {x : Orchestration α} (h : Within (fun s s' => Waited s.1 s'.1) x) : Leaves part x :=
  fun s => congrArg part (h s).1

theorem write {env : IndexEnvironment} {operation : Disk → IndexStore → Except IndexStoreError Unit × IndexStore}
    {event : Option IndexEvent} (h : ∀ disk store, part (operation disk store).2 = part store) :
    Leaves part (onIndex (Index.write env operation event)) := by
  refine Within.first (R := fun i i' : Index => part i'.store = part i.store) (Within.mapError fun index => ?_)
  have hpart := h (env.disk index.clock) index.store
  unfold Index.write
  rcases hrun : operation (env.disk index.clock) index.store with ⟨_ | _, store⟩ <;> rw [hrun] at hpart <;> exact hpart

theorem holds {x : Run (Index × Workers) ε α} (h : Leaves part x) {v : δ} :
    Triple (fun s => part s.1.store = v) x (fun _ s => part s.1.store = v) (fun s => part s.1.store = v) :=
  Within.triple h fun _ _ hsame hs => hsame.trans hs

end Leaves

/-! ## Steps of an index path -/

section
variable (env : Environment) (manifest : ProjectManifest) (executionPlan : OpaqueExecutionPlan)

theorem removeSnapshot_leaves (h : OffFacts part) (sourceUnit : SourceUnitId) : Leaves part (removeSnapshot env sourceUnit) :=
  Leaves.write fun _ _ => h _ _ (IndexStore.removeSnapshot_publication sourceUnit)

theorem commitBatch_leaves (h : OffFacts part) (requested : List SourceUnit) (answer : List FileAnalysisSnapshot)
    (entries : List (SourceUnit × FileAnalysisSnapshot)) : Leaves part (commitBatch env requested answer entries) :=
  Leaves.write fun _ _ => h _ _ (IndexStore.replaceSnapshotsBatch_publication entries)

theorem applyActions_leaves (h : OffFacts part) (actions : List IndexAction) : Leaves part (applyActions env actions) := by
  refine Leaves.foldlM (fun state action _ => ?_) _
  cases action with
  | remove sourceUnit => exact (removeSnapshot_leaves env h sourceUnit).bind fun _ => Leaves.pure _
  | reuse sourceUnit => exact Leaves.pure _
  | reanalyze sourceUnit reason => exact Leaves.pure _

theorem planActions_leaves (current : List SourceUnit) (bySource : List IndexAction) (provenance : Option Provenance) :
    Leaves part (planActions env current bySource provenance) := by
  cases provenance with
  | none => exact Leaves.pure bySource
  | some provenance => exact Leaves.query _ _

theorem spawnDependencyLane_leaves (launch : WorkerLaunch) :
    Leaves part (spawnDependencyLane env manifest executionPlan launch) :=
  (Leaves.second _).bind fun _ => Leaves.pure _

theorem joinDependencyLane_leaves (h : OffCatalog part) (lane : DependencyLane) (run : IndexRun) :
    Leaves part (joinDependencyLane env lane run) := by
  cases lane with
  | none => exact Leaves.pure run
  | some outcome =>
    refine (Leaves.lift outcome).bind fun catalog => Leaves.bind (Leaves.write fun _ _ => ?_) fun _ => Leaves.pure _
    exact h _ _ (IndexStore.replaceArtifactDescriptors_uncataloged catalog.descriptors)

theorem planEntries_leaves (snapshots : List FileAnalysisSnapshot) (reanalyze : List SourceUnit) :
    Leaves part (planEntries env snapshots reanalyze) := by
  refine (Leaves.query _ _).bind fun inputs => Leaves.foldlM (fun entries expected _ => ?_) _
  refine (Leaves.query _ _).bind fun entry => ?_
  cases entry with
  | none => exact Leaves.fail _
  | some entry => exact Leaves.pure _

theorem invalidateDependents_leaves (h : OffFacts part) (reanalyze : List SourceUnit) (dependents : List SourceUnitId)
    (run : IndexRun) : Leaves part (invalidateDependents env reanalyze dependents run) := by
  refine Leaves.foldlM (fun run dependent _ => ?_) run
  split
  · exact Leaves.pure run
  · exact (removeSnapshot_leaves env h dependent).bind fun _ => Leaves.pure _

theorem analyzeBatch_leaves (supervisor : Handle) (requestId : String) (requested : List SourceUnit) :
    Leaves part (analyzeBatch env manifest executionPlan supervisor requestId requested) := by
  refine (Leaves.onWorkers _).bind fun response => ?_
  split
  · exact Leaves.bind (fun _ => rfl) fun _ => Leaves.lift _
  · exact Leaves.fail _

theorem analyzeAndCommit_leaves (h : OffFacts part) (launch : WorkerLaunch) (reanalyze : List SourceUnit) (run : IndexRun) :
    Leaves part (analyzeAndCommit env manifest executionPlan launch reanalyze run) := by
  refine (Leaves.second _).bind fun supervisor => (Leaves.onWorkers _).bind fun _ => ?_
  refine (analyzeBatch_leaves env manifest executionPlan _ _ _).bind fun snapshots => ?_
  refine (planEntries_leaves env _ _).bind fun planned => (commitBatch_leaves env h _ _ _).bind fun _ => ?_
  exact (invalidateDependents_leaves env h _ _ _).bind fun _ => Leaves.pure _

theorem ensureCompatible_leaves (batch : WorkerBatch) (batchIndex : Nat) (supervisor : Handle) :
    Leaves part (ensureCompatible env batch batchIndex supervisor) := by
  refine (Leaves.onWorkers _).bind fun running => ?_
  split
  · exact Leaves.pure _
  · refine (Leaves.onWorkers _).bind fun capabilities => ?_
    split
    · exact Leaves.pure _
    · exact Leaves.fail _

theorem supervisorFor_leaves (supervisors : Supervisors) (launch : WorkerLaunch) :
    Leaves part (supervisorFor supervisors launch) := by
  unfold supervisorFor
  split
  · exact Leaves.pure _
  · exact (Leaves.second _).bind fun _ => Leaves.pure _

theorem runSelectedBatch_leaves (h : OffFacts part) (reanalyze : List SourceUnit) (state : IndexRun × Supervisors)
    (indexed : WorkerBatch × Nat) : Leaves part (runSelectedBatch env manifest executionPlan reanalyze state indexed) := by
  unfold runSelectedBatch
  dsimp only
  split
  · exact Leaves.pure _
  · refine (supervisorFor_leaves _ _).bind fun found => Leaves.bind ?_ fun _ => Leaves.pure _
    refine (ensureCompatible_leaves env _ _ _).bind fun _ => ?_
    refine (analyzeBatch_leaves env manifest executionPlan _ _ _).bind fun snapshots => ?_
    exact (commitBatch_leaves env h _ _ _).bind fun _ => Leaves.pure _

theorem selectedLane_leaves (selection : WorkerSelection) (needed : Bool) :
    Leaves part (selectedLane env manifest executionPlan selection needed) := by
  unfold selectedLane
  split
  · split
    · exact spawnDependencyLane_leaves env manifest executionPlan _
    · exact Leaves.fail _
  · exact Leaves.pure _

theorem singleLane_leaves (launch : WorkerLaunch) (needed : Bool) :
    Leaves part (singleLane env manifest executionPlan launch needed) := by
  unfold singleLane
  split
  · exact spawnDependencyLane_leaves env manifest executionPlan _
  · exact Leaves.pure _

end

end

/-! ## Steps of the command -/

section
variable {δ : Type} {part : IndexStore → δ} (env : CommandEnvironment) (command : IndexCommand)

theorem onStore_leaves {α : Type} (question : IndexStore → α) : Leaves part (onStore env question) :=
  Within.mapError (Leaves.query _ _)

theorem onOrchestrator_onWorkers_leaves {α : Type} (x : WorkerRun α) : Leaves part (onOrchestrator (onWorkers x)) :=
  Within.mapError (Leaves.onWorkers x)

theorem requestProjectManifest_leaves (supervisor : Handle) : Leaves part (requestProjectManifest env supervisor) := by
  refine (onOrchestrator_onWorkers_leaves _).bind fun response => ?_
  split
  · exact Leaves.pure _
  · exact Leaves.fail _

theorem resolveProjectManifest_leaves (launch : WorkerLaunch) : Leaves part (resolveProjectManifest env launch) :=
  (Leaves.second _).bind fun supervisor => (onOrchestrator_onWorkers_leaves _).bind fun _ =>
    requestProjectManifest_leaves env supervisor

theorem resolvePlan_leaves (installation : WorkerInstallation) (changes : ConfigurationInputReconciliation) :
    Leaves part (resolvePlan env command installation changes) := by
  refine Leaves.bind ?_ fun cached => ?_
  · unfold cachedManifest
    split
    · exact onStore_leaves env _
    · exact Leaves.pure _
  cases cached with
  | some manifest => exact Leaves.pure _
  | none => exact resolveProjectManifest_leaves env installation.launch

theorem forceReanalysis_leaves (h : OffFacts part) : Leaves part (forceReanalysis env command) := by
  unfold forceReanalysis
  split
  · induction command.sourceUnits with
    | nil => exact Leaves.pure _
    | cons source rest ih => exact Leaves.bind (Within.mapError (removeSnapshot_leaves _ h _)) fun _ => ih
  · exact Leaves.pure _

theorem discoverArtifactLocators_leaves (supervisor : Handle) (executionPlan : OpaqueExecutionPlan) (fuel page : Nat)
    (cursor : Option String) (locators : List ArtifactLocator) :
    Leaves part (discoverArtifactLocators env supervisor executionPlan fuel page cursor locators) := by
  induction fuel generalizing page cursor locators with
  | zero => exact Leaves.fail _
  | succ fuel ih =>
    refine (onOrchestrator_onWorkers_leaves _).bind fun response => ?_
    split
    · refine (Leaves.lift _).bind fun locators => ?_
      split
      · exact ih _ _ _
      · exact Leaves.pure _
    · exact Leaves.fail _

theorem cacheCatalogArtifact_leaves (h : OffCatalog part) (cache : ArtifactBlobCache) (env : Environment) (supervisor : Handle)
    (workspaceRoot : WorkspacePath) (stagingDirectory : String) (sourceUnit : SourceUnitId) (artifactLocator : Option String)
    (remaining : Nat) :
    Leaves part (cacheCatalogArtifact cache env supervisor workspaceRoot stagingDirectory sourceUnit artifactLocator remaining) := by
  refine (Leaves.query _ _).bind fun descriptor => ?_
  cases descriptor with
  | none => exact Leaves.pure _
  | some descriptor =>
    refine Leaves.bind (Leaves.waited (Within.first (cacheHitOrRemoveInvalid_waited cache _))) fun cached => ?_
    split
    · exact Leaves.pure _
    split
    · exact Leaves.pure _
    refine Leaves.bind (Leaves.waited (materializeArtifact_waited _ _ _)) fun promoted => ?_
    refine Leaves.bind (Leaves.waited (Within.first tick_waited)) fun tick => ?_
    split
    · exact Leaves.bind (Leaves.write fun _ _ => h _ _ (IndexStore.recordArtifactBlob_uncataloged _ _ _)) fun _ =>
        Leaves.pure _
    · exact Leaves.fail _
    · exact Leaves.fail _

theorem cacheArtifacts_leaves (h : OffCatalog part) (supervisor : Handle) (workspaceRoot : WorkspacePath)
    {locatorOf : ArtifactDescriptor → Except CommandError (Option String)}
    {afterwards : ArtifactDescriptor → MaterializationOutcome → CommandRun Unit}
    (hafterwards : ∀ descriptor outcome, Leaves part (afterwards descriptor outcome)) (descriptors : List ArtifactDescriptor)
    (remaining : Nat) :
    Leaves part (cacheArtifacts env command supervisor workspaceRoot locatorOf afterwards descriptors remaining) := by
  induction descriptors generalizing remaining with
  | nil => exact Leaves.pure _
  | cons descriptor rest ih =>
    refine (Leaves.lift _).bind fun artifactLocator => ?_
    refine Leaves.bind (Within.mapError (cacheCatalogArtifact_leaves h _ _ _ _ _ _ _ _)) ?_
    rintro ⟨outcome, left⟩
    dsimp only
    split
    · exact Leaves.pure _
    · exact (hafterwards descriptor outcome).bind fun _ => ih _

theorem materializeArtifacts_leaves (h : OffCatalog part) (warmLimit : Nat) :
    Leaves part (materializeArtifacts env command warmLimit) := by
  refine (onStore_leaves env _).bind fun descriptors => (Leaves.lift _).bind fun installation => ?_
  refine (Leaves.second _).bind fun supervisor => (onOrchestrator_onWorkers_leaves _).bind fun _ => ?_
  refine (requestProjectManifest_leaves env supervisor).bind fun resolved => ?_
  refine (discoverArtifactLocators_leaves env _ _ _ _ _ _).bind fun locators => ?_
  refine (cacheArtifacts_leaves env command h _ _ (fun _ _ => Leaves.pure ()) _ _).bind fun _ => ?_
  exact (onStore_leaves env _).bind fun _ => Leaves.pure _

theorem readBack_leaves (descriptor : ArtifactDescriptor) (outcome : MaterializationOutcome) :
    Leaves part (readBack env descriptor outcome) := fun s => congrArg part (readBack_waited descriptor outcome s).1

theorem warmIfAsked_leaves (h : OffCatalog part) (manifest : ProjectManifest) (selection : WorkerSelection)
    (persisted : List ArtifactDescriptor) (run : IndexRun) : Leaves part (warmIfAsked env command manifest selection persisted run) := by
  unfold warmIfAsked
  split
  · exact Leaves.pure _
  split
  · refine (onStore_leaves env _).bind fun descriptors => Leaves.bind (fun _ => rfl) fun tick => ?_
    dsimp only
    split
    · exact Leaves.pure _
    · refine (Leaves.second _).bind fun supervisor => (onOrchestrator_onWorkers_leaves _).bind fun _ => ?_
      exact cacheArtifacts_leaves env command h _ _ (readBack_leaves env) _ _
  · exact Leaves.fail _

end

/-! ## The records -/

def IndexStore.records (store : IndexStore) : List ProjectManifest × List ConfigurationInput × List WorkspaceCheckpoint :=
  (store.projectManifests, store.configurationInputs, store.workspaceCheckpoints)

theorem records_offFacts : OffFacts IndexStore.records := by
  intro store store' h
  exact (congrArg IndexStore.records h : store'.publication.records = store.publication.records)

theorem records_offCatalog : OffCatalog IndexStore.records := by
  intro store store' h
  exact (congrArg IndexStore.records h : store'.uncataloged.records = store.uncataloged.records)

/-- A write that does nothing when it fails. -/
theorem write_triple {env : IndexEnvironment} {operation : Disk → IndexStore → Except IndexStoreError Unit × IndexStore}
    {event : Option IndexEvent} {P Q : IndexStore → Prop}
    (hok : ∀ disk store, P store → (operation disk store).1 = .ok () → Q (operation disk store).2)
    (herror : ∀ disk store e, P store → (operation disk store).1 = .error e → (operation disk store).2 = store) :
    Triple (fun s : Index × Workers => P s.1.store) (onIndex (Index.write env operation event)) (fun _ s => Q s.1.store)
      (fun s => P s.1.store) := by
  intro s hs
  rcases hrun : operation (env.disk s.1.clock) s.1.store with ⟨e | u, store⟩
  · rw [onIndex_write_eq_error hrun]
    have hsame := herror _ _ e hs (by rw [hrun])
    rw [hrun] at hsame
    exact (show store = s.1.store from hsame) ▸ hs
  · rw [onIndex_write_eq_ok hrun]
    have hstore := hok _ _ hs (by rw [hrun])
    rw [hrun] at hstore
    exact hstore

section
variable {r : List ProjectManifest × List ConfigurationInput × List WorkspaceCheckpoint}

/-- The records with the manifest of a run. -/
def withManifest (r : List ProjectManifest × List ConfigurationInput × List WorkspaceCheckpoint) (manifest : ProjectManifest) :
    List ProjectManifest × List ConfigurationInput × List WorkspaceCheckpoint :=
  (IndexStore.upsert (·.workspace) r.1 manifest, r.2)

section
variable (env : Environment) (manifest : ProjectManifest) (executionPlan : OpaqueExecutionPlan)

theorem putManifest_records :
    Triple (fun s : Index × Workers => s.1.store.records = r) (putManifest env manifest)
      (fun _ s => s.1.store.records = withManifest r manifest) (fun s => s.1.store.records = r) := by
  refine write_triple (P := fun store => store.records = r) (Q := fun store => store.records = withManifest r manifest)
    (fun disk store h hok => ?_) fun disk store e _ herror => IndexStore.putManifest_error herror
  rw [IndexStore.putManifest_ok hok, ← h]
  rfl

theorem indexBatch_records (current : List SourceUnit) (launch : WorkerLaunch) (provenance : Option Provenance) :
    Triple (fun s : Index × Workers => s.1.store.records = r)
      (indexBatch env manifest executionPlan current launch provenance)
      (fun _ s => s.1.store.records = withManifest r manifest) (fun s => s.1.store.records = r) := by
  refine Triple.bind (Leaves.query _ _).holds fun bySource => Triple.bind (Leaves.query _ _).holds fun latest => ?_
  refine Triple.bind (planActions_leaves env current bySource provenance).holds fun actions => ?_
  refine Triple.bind (applyActions_leaves env records_offFacts actions).holds ?_
  rintro ⟨run, reanalyze⟩
  refine Triple.bind (singleLane_leaves env manifest executionPlan launch _).holds fun lane => Triple.ite (fun _ => ?_) fun _ => ?_
  · refine Triple.bind (joinDependencyLane_leaves env records_offCatalog lane run).holds fun run => ?_
    exact Triple.bind (putManifest_records env manifest) fun _ => Triple.pure fun _ h => h
  · refine Triple.bind (analyzeAndCommit_leaves env manifest executionPlan records_offFacts launch reanalyze run).holds ?_
    rintro ⟨run, supervisor⟩
    refine Triple.bind (joinDependencyLane_leaves env records_offCatalog lane run).holds fun run => ?_
    refine Triple.bind (putManifest_records env manifest) fun _ => ?_
    refine Triple.bind (R := fun _ s => s.1.store.records = withManifest r manifest) ?_ fun _ => Triple.pure fun _ h => h
    intro s h
    exact h

theorem indexSelectedBatches_records (current : List SourceUnit) (selection : WorkerSelection) :
    Triple (fun s : Index × Workers => s.1.store.records = r)
      (indexSelectedBatches env manifest executionPlan current selection)
      (fun _ s => s.1.store.records = withManifest r manifest) (fun s => s.1.store.records = r) := by
  refine Triple.bind (Leaves.lift _).holds fun _ => Triple.ite (fun _ => Triple.fail fun _ h => h) fun _ => ?_
  refine Triple.bind (Leaves.query _ _).holds fun actions => Triple.bind (Leaves.query _ _).holds fun latest => ?_
  refine Triple.bind (applyActions_leaves env records_offFacts actions).holds ?_
  rintro ⟨run, reanalyze⟩
  refine Triple.bind (selectedLane_leaves env manifest executionPlan selection _).holds fun lane => ?_
  refine Triple.bind (Leaves.foldlM (fun state indexed _ =>
    runSelectedBatch_leaves env manifest executionPlan records_offFacts reanalyze state indexed) (run, [])).holds ?_
  rintro ⟨run, supervisors⟩
  refine Triple.bind (joinDependencyLane_leaves env records_offCatalog lane run).holds fun run => ?_
  refine Triple.bind (Leaves.second _).holds fun workers => ?_
  exact Triple.bind (putManifest_records env manifest) fun _ => Triple.pure fun _ h => h

end

theorem runPath_records (env : CommandEnvironment) (manifest : ProjectManifest) (executionPlan : OpaqueExecutionPlan)
    (sources : List SourceUnit) (selection : WorkerSelection) :
    Triple (fun s : Index × Workers => s.1.store.records = r) (runPath env manifest executionPlan sources selection)
      (fun _ s => s.1.store.records = withManifest r manifest) (fun s => s.1.store.records = r) := by
  unfold runPath
  split
  · split
    · refine Triple.mapError (Triple.bind (Leaves.lift _).holds fun _ => ?_)
      exact indexBatch_records env.toEnvironment manifest executionPlan sources _ _
    · exact Triple.fail fun _ h => h
  · exact Triple.mapError (indexSelectedBatches_records env.toEnvironment manifest executionPlan sources selection)

end

/-! ## Build resolution -/

section
variable {ε ε' α β : Type}

/-- A run whose outcome is a matter of the workers alone. -/
def OffIndex (x : Run (Index × Workers) ε α) : Prop :=
  ∀ s t : Index × Workers, s.2 = t.2 → (x s).1 = (x t).1 ∧ (x s).2.2 = (x t).2.2

namespace OffIndex

theorem pure (a : α) : OffIndex (Pure.pure a : Run (Index × Workers) ε α) := fun _ _ h => ⟨rfl, h⟩

theorem fail (e : ε) : OffIndex (Runs.fail e : Run (Index × Workers) ε α) := fun _ _ h => ⟨rfl, h⟩

theorem second (x : Run Workers ε α) : OffIndex (Runs.second x : Run (Index × Workers) ε α) := by
  intro s t h
  unfold Runs.second
  rw [h]
  exact ⟨rfl, rfl⟩

theorem mapError {g : ε → ε'} {x : Run (Index × Workers) ε α} (h : OffIndex x) : OffIndex (Runs.mapError g x) := by
  intro s t hst
  obtain ⟨hresult, hworkers⟩ := h s t hst
  unfold Runs.mapError
  rcases hs : x s with ⟨_ | _, _⟩ <;> rcases ht : x t with ⟨_ | _, _⟩ <;> rw [hs, ht] at hresult hworkers <;> cases hresult <;>
    exact ⟨rfl, hworkers⟩

theorem bind {x : Run (Index × Workers) ε β} {f : β → Run (Index × Workers) ε α} (hx : OffIndex x)
    (hf : ∀ b, OffIndex (f b)) : OffIndex (x >>= f) := by
  intro s t hst
  obtain ⟨hresult, hworkers⟩ := hx s t hst
  rw [run_bind, run_bind]
  rcases hs : x s with ⟨_ | b, s'⟩ <;> rcases ht : x t with ⟨_ | b', t'⟩ <;> rw [hs, ht] at hresult hworkers <;> cases hresult
  · exact ⟨rfl, hworkers⟩
  · exact hf b s' t' hworkers

end OffIndex

end

section
variable (env : CommandEnvironment) (command : IndexCommand)

theorem resolveProjectManifest_offIndex (launch : WorkerLaunch) : OffIndex (resolveProjectManifest env launch) := by
  refine (OffIndex.second _).bind fun supervisor => ?_
  refine OffIndex.bind (OffIndex.mapError (OffIndex.second _)) fun _ => ?_
  refine OffIndex.bind (OffIndex.mapError (OffIndex.second _)) fun response => ?_
  split
  · exact OffIndex.pure _
  · exact OffIndex.fail _

/-- The manifest that a run takes from the store. -/
def IndexCommand.reused (store : IndexStore) : Option ProjectManifest :=
  if !command.force && (store.configurationInputStatus command.configurationInputRecords).allCurrent then
    store.latestManifest
  else none

/-- The worker of the run resolves the build to the manifest. -/
def ResolvedByWorker (state : Index × Workers) (manifest : ProjectManifest) : Prop :=
  ∃ installation resolved, command.installation = .ok installation ∧
    (resolveProjectManifest env installation.launch state).1 = .ok resolved ∧ resolved.manifest = manifest

/-- The manifest that a run works with. -/
def SettlesOn (state : Index × Workers) (manifest : ProjectManifest) : Prop :=
  command.reused state.1.store = some manifest ∨
    command.reused state.1.store = none ∧ ResolvedByWorker env command state manifest

variable {env command}

theorem resolvePlan_ok {installation : WorkerInstallation} {changes : ConfigurationInputReconciliation}
    {resolved : ProjectManifestResponse} {s s' : Index × Workers}
    (h : resolvePlan env command installation changes s = (.ok resolved, s')) :
    (!command.force && changes.allCurrent) = true ∧ s.1.store.latestManifest = some resolved.manifest ∨
      ((!command.force && changes.allCurrent) = true → s.1.store.latestManifest = none) ∧
        (resolveProjectManifest env installation.launch s).1 = .ok resolved := by
  obtain ⟨cached, m, hcached, hrun⟩ := run_bind_ok.1 h
  unfold cachedManifest at hcached
  by_cases hreuse : (!command.force && changes.allCurrent) = true
  · rw [if_pos hreuse] at hcached
    obtain ⟨rfl, rfl⟩ := onStore_ok hcached
    cases hlatest : s.1.store.latestManifest with
    | some manifest =>
      rw [hlatest] at hrun
      obtain ⟨rfl, -⟩ := run_pure_ok.1 hrun
      exact .inl ⟨hreuse, rfl⟩
    | none =>
      rw [hlatest] at hrun
      refine .inr ⟨fun _ => rfl, ?_⟩
      rw [(resolveProjectManifest_offIndex env installation.launch s
        ({ s.1 with clock := s.1.clock + 1 }, s.2) rfl).1]
      exact congrArg Prod.fst hrun
  · rw [if_neg hreuse] at hcached
    obtain ⟨rfl, rfl⟩ := run_pure_ok.1 hcached
    exact .inr ⟨fun h => absurd h hreuse, congrArg Prod.fst hrun⟩

theorem lift_ok {ε α : Type} {r : Except ε α} {a : α} {s s' : Index × Workers}
    (h : (lift r : Run (Index × Workers) ε α) s = (.ok a, s')) : r = .ok a ∧ s' = s := by
  cases h
  exact ⟨rfl, rfl⟩

theorem bailing_ok {α : Type} {r : Except String α} {a : α} {s s' : Index × Workers}
    (h : bailing r s = (.ok a, s')) : r = .ok a ∧ s' = s := by
  obtain ⟨hr, rfl⟩ := lift_ok h
  cases r with
  | error e => cases hr
  | ok b =>
    cases hr
    exact ⟨rfl, rfl⟩

/-- A run that gets to its warming has settled on a manifest that covers the sources. -/
theorem beforeWarming_settles {before : BeforeWarming} {state s₁ : Index × Workers}
    (h : beforeWarming env command state = (.ok before, s₁)) :
    SettlesOn env command state before.manifest ∧ before.sources = command.sourceUnits.map before.manifest.contextualize := by
  obtain ⟨persisted, m₁, hpersisted, h₁⟩ := run_bind_ok.1 h
  obtain ⟨-, rfl⟩ := onStore_ok hpersisted
  obtain ⟨changes, m₂, hchanges, h₂⟩ := run_bind_ok.1 h₁
  obtain ⟨rfl, rfl⟩ := onStore_ok hchanges
  obtain ⟨u, m₃, hforce, h₃⟩ := run_bind_ok.1 h₂
  have hworkers := forceReanalysis_offWorkers env command ({ state.1 with clock := state.1.clock + 1 + 1 }, state.2)
  have hrecords := forceReanalysis_leaves env command records_offFacts
    ({ state.1 with clock := state.1.clock + 1 + 1 }, state.2)
  rw [hforce] at hworkers hrecords
  obtain ⟨u', m₄, hdirectories, h₄⟩ := run_bind_ok.1 h₃
  obtain ⟨-, rfl⟩ := bailing_ok hdirectories
  obtain ⟨installation, m₅, hinstallation, h₅⟩ := run_bind_ok.1 h₄
  obtain ⟨hinstalled, rfl⟩ := bailing_ok hinstallation
  obtain ⟨resolved, m₆, hresolved, h₆⟩ := run_bind_ok.1 h₅
  obtain ⟨sources, m₇, hcover, h₇⟩ := run_bind_ok.1 h₆
  obtain ⟨limit, m₈, hlimit, h₈⟩ := run_bind_ok.1 h₇
  obtain ⟨selection, m₉, hselection, h₉⟩ := run_bind_ok.1 h₈
  by_cases hunsupported : selection.unsupported ≠ []
  · rw [if_pos hunsupported] at h₉
    cases h₉
  rw [if_neg hunsupported] at h₉
  obtain ⟨run, m, hpath, h₁₀⟩ := run_bind_ok.1 h₉
  obtain ⟨rfl, -⟩ := run_pure_ok.1 h₁₀
  have hlatest : m₅.1.store.latestManifest = state.1.store.latestManifest := by
    have hmanifests : m₅.1.store.projectManifests = state.1.store.projectManifests := congrArg Prod.fst hrecords
    unfold IndexStore.latestManifest
    rw [hmanifests]
  have hsame : m₅.2 = state.2 := hworkers
  refine ⟨?_, ?_⟩
  swap
  · obtain ⟨hcovered, -⟩ := lift_ok hcover
    unfold coverSources at hcovered
    split at hcovered <;> cases hcovered
    rfl
  unfold SettlesOn IndexCommand.reused
  rcases resolvePlan_ok hresolved with ⟨hreuse, hmanifest⟩ | ⟨hnone, hmanifest⟩
  · left
    rw [if_pos hreuse, ← hlatest, hmanifest]
  · right
    refine ⟨?_, installation, resolved, hinstalled, ?_, rfl⟩
    · by_cases hreuse : (!command.force && (state.1.store.configurationInputStatus
          command.configurationInputRecords).allCurrent) = true
      · rw [if_pos hreuse, ← hlatest]
        exact hnone hreuse
      · rw [if_neg hreuse]
    · rw [← hmanifest]
      exact (resolveProjectManifest_offIndex env installation.launch state m₅ hsame.symm).1

theorem beforeWarming_records {r : List ProjectManifest × List ConfigurationInput × List WorkspaceCheckpoint} :
    Triple (fun s : Index × Workers => s.1.store.records = r) (beforeWarming env command)
      (fun before s => s.1.store.records = withManifest r before.manifest) (fun s => s.1.store.records = r) := by
  refine Triple.bind (onStore_leaves env _).holds fun persisted => Triple.bind (onStore_leaves env _).holds fun changes => ?_
  refine Triple.bind (forceReanalysis_leaves env command records_offFacts).holds fun _ => ?_
  refine Triple.bind (Leaves.lift _).holds fun _ => Triple.bind (Leaves.lift _).holds fun installation => ?_
  refine Triple.bind (resolvePlan_leaves env command installation changes).holds fun resolved => ?_
  refine Triple.bind (Leaves.lift _).holds fun sources => Triple.bind (Leaves.lift _).holds fun limit => ?_
  refine Triple.bind (Triple.mapError (Leaves.second _).holds) fun selection => ?_
  refine Triple.ite (fun _ => Triple.fail fun _ h => h) fun _ => ?_
  exact Triple.bind (runPath_records env _ _ sources selection) fun run => Triple.pure fun _ h => h

/-- A run over the sources is what comes before the warming, the warming, and the publication. -/
theorem indexCommand_eq (hsources : command.materializeOnly = false) : indexCommand env command = (do
    let before ← beforeWarming env command
    warmIfAsked env command before.manifest before.selection before.persisted before.run
    publish env command before.manifest before.sources) := by
  unfold indexCommand beforeWarming indexSources
  rw [hsources]
  simp only [bind_assoc, Bool.false_eq_true, if_false]
  refine bind_congr fun persisted => bind_congr fun changes => bind_congr fun _ => bind_congr fun _ => ?_
  refine bind_congr fun installation => bind_congr fun resolved => bind_congr fun sources => bind_congr fun limit => ?_
  refine bind_congr fun selection => ?_
  split
  · rfl
  · simp only [bind_assoc, pure_bind]

/-! ## The publication -/

variable (env command)

/-- The checkpoint that closes a run. -/
def checkpointOf (manifest : ProjectManifest) (sources : List SourceUnit) (store : IndexStore) : WorkspaceCheckpoint where
  workspace := manifest.workspace
  manifest := manifest.fingerprint
  configurationInputs := fingerprintConfigurationInputs env.sha256 command.configurationInputRecords
  sourceInputs := fingerprintSourceInputs env.sha256 sources
  artifactCatalog := fingerprintArtifactCatalog env.sha256 store.artifactDescriptors
  committed := true

variable {env command}

theorem publish_ok {manifest : ProjectManifest} {sources : List SourceUnit} {report : IndexReport} {s s' : Index × Workers}
    (h : publish env command manifest sources s = (.ok report, s')) :
    s'.1.store = { s.1.store with
      configurationInputs := command.configurationInputRecords
      workspaceCheckpoints := IndexStore.upsert (·.workspace) s.1.store.workspaceCheckpoints
        (checkpointOf env command manifest sources s.1.store) } := by
  obtain ⟨u, s₁, htext, h₁⟩ := run_bind_ok.1 h
  obtain ⟨-, rfl⟩ := bailing_ok htext
  obtain ⟨u', s₂, hinputs, h₂⟩ := run_bind_ok.1 h₁
  obtain ⟨hinputs, -⟩ := onIndex_write_ok (run_mapError_ok.1 hinputs)
  have hstore₂ := IndexStore.replaceConfigurationInputs_ok (congrArg Prod.fst hinputs)
  rw [hinputs] at hstore₂
  obtain ⟨descriptors, s₃, hquery, h₃⟩ := run_bind_ok.1 h₂
  obtain ⟨rfl, rfl⟩ := onStore_ok hquery
  obtain ⟨u'', s₄, hcheckpoint, h₄⟩ := run_bind_ok.1 h₃
  obtain ⟨hcheckpoint, -⟩ := onIndex_write_ok (run_mapError_ok.1 hcheckpoint)
  have hstore₄ := IndexStore.putWorkspaceCheckpoint_ok (congrArg Prod.fst hcheckpoint)
  rw [hcheckpoint] at hstore₄
  obtain ⟨-, rfl⟩ := run_pure_ok.1 h₄
  change s₄.1.store = _ at hstore₄
  change s₂.1.store = _ at hstore₂
  rw [hstore₄]
  dsimp only
  rw [hstore₂]
  rfl

end

end Kide
