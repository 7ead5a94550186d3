import Kide.Index.CheckpointFingerprints
import Kide.Index.Effects
import Kide.Index.ManifestReuse
import Kide.Index.SelectedTotal

/-!
# What a checkpoint covers

With the fingerprint of the sources in the stored checkpoint `kide status` counts all sources as fresh. The checkpoint is
written at the end of a run and stays until the end of another one, which removes and replaces snapshots long before.

* `indexCommand_traced`: the snapshots after a run are those before it, replayed over its log, and a run that publishes has
  left alone no source but those that were stored with their content (`Settled`);
* `checkpointSources`: the sources that the checkpoint is of, `Invocation.Keeps`: a run that loses none of them;
* `Covered.next_iff`, `covered_of_keeps`: a run leaves the checkpoint covered exactly if it is so, and so do all of them;
* `shortcut_covers`: and the shortcut of the status counts no source as fresh that has no snapshot.
-/

namespace Kide
open Runs Collects Checks

/-! ## Runs that log nothing -/

section
variable {ε ε' α β γ : Type}

abbrev Silent (x : Run (Index × Workers) ε α) : Prop := Within (fun s s' => s'.1.log = s.1.log) x

namespace Silent

theorem pure (a : α) : Silent (Pure.pure a : Run (Index × Workers) ε α) := fun _ => rfl

theorem fail (e : ε) : Silent (Runs.fail e : Run (Index × Workers) ε α) := fun _ => rfl

theorem lift (r : Except ε α) : Silent (Runs.lift r : Run (Index × Workers) ε α) := fun _ => rfl

theorem second (x : Run Workers ε α) : Silent (Runs.second x : Run (Index × Workers) ε α) := fun _ => rfl

theorem bind {x : Run (Index × Workers) ε β} {f : β → Run (Index × Workers) ε α} (hx : Silent x)
    (hf : ∀ b, Silent (f b)) : Silent (x >>= f) :=
  Within.bind (R := fun s s' : Index × Workers => s'.1.log = s.1.log) (fun _ _ _ h h' => h'.trans h) hx hf

theorem first {x : Run Index ε α} (h : Within (fun i i' => i'.log = i.log) x) :
    Silent (Runs.first x : Run (Index × Workers) ε α) := Within.first h

theorem query (env : IndexEnvironment) (question : IndexStore → α) : Silent (onIndex (Index.query env question)) := by
  refine first (Within.mapError fun index => ?_)
  unfold Index.query
  split <;> rfl

theorem write {env : IndexEnvironment} {operation : Disk → IndexStore → Except IndexStoreError Unit × IndexStore} :
    Silent (onIndex (Index.write env operation none)) := by
  refine first (Within.mapError fun index => ?_)
  unfold Index.write
  split <;> rfl

end Silent

theorem tick_silent : Within (fun i i' => i'.log = i.log) (Index.tick : Run Index ε Nat) := fun _ => rfl

end

section
variable {cache : ArtifactBlobCache}

theorem cacheHitOrRemoveInvalid_silent (key : ResolvedDependencyIdentity) :
    Within (fun i i' => i'.log = i.log) (cacheHitOrRemoveInvalid cache key) := by
  refine Within.bind (fun _ _ _ h h' => h'.trans h) tick_silent fun tick => ?_
  cases cache.opens tick key with
  | present byteLength => exact fun _ => rfl
  | absent => exact fun _ => rfl
  | invalid =>
    dsimp only
    split <;> exact fun _ => rfl
  | failed => exact fun _ => rfl

theorem promoteStaged_silent (response : ArtifactMaterializationResponse) :
    Within (fun i i' => i'.log = i.log) (promoteStaged cache response) := by
  unfold promoteStaged
  split
  · exact fun _ => rfl
  split
  · refine Within.bind (fun _ _ _ h h' => h'.trans h) tick_silent fun tick => ?_
    cases cache.promotes tick response with
    | none => exact fun _ => rfl
    | some promoted =>
      dsimp only
      split <;> exact fun _ => rfl
  · exact fun _ => rfl

variable {env : Environment} {supervisor : Handle} {workspaceRoot : WorkspacePath} {stagingDirectory : String}

theorem materializeArtifact_silent (artifact : ArtifactDescriptor) (artifactLocator : Option String) (requestId : String) :
    Silent (materializeArtifact cache env supervisor workspaceRoot stagingDirectory artifact artifactLocator requestId) := by
  refine Silent.bind (Silent.first (cacheHitOrRemoveInvalid_silent _)) fun cached => ?_
  split
  · exact Silent.pure _
  refine Silent.bind (Silent.second _) fun response => ?_
  split
  · exact Silent.first (promoteStaged_silent _)
  · exact Silent.fail _

theorem cacheCatalogArtifact_silent (sourceUnit : SourceUnitId) (artifactLocator : Option String) (remaining : Nat) :
    Silent (cacheCatalogArtifact cache env supervisor workspaceRoot stagingDirectory sourceUnit artifactLocator remaining) := by
  refine (Silent.query _ _).bind fun descriptor => ?_
  cases descriptor with
  | none => exact Silent.pure _
  | some descriptor =>
    refine (Silent.first (cacheHitOrRemoveInvalid_silent _)).bind fun cached => ?_
    split
    · exact Silent.pure _
    split
    · exact Silent.pure _
    refine (materializeArtifact_silent _ _ _).bind fun promoted => (Silent.first tick_silent).bind fun tick => ?_
    split
    · exact Silent.write.bind fun _ => Silent.pure _
    · exact Silent.fail _
    · exact Silent.fail _

end

section
variable (env : CommandEnvironment) (command : IndexCommand)

theorem onStore_silent {α : Type} (question : IndexStore → α) : Silent (onStore env question) :=
  Within.mapError (Silent.query _ _)

theorem onOrchestrator_onWorkers_silent {α : Type} (x : WorkerRun α) : Silent (onOrchestrator (onWorkers x)) :=
  Within.mapError (Silent.second _)

theorem requestProjectManifest_silent (supervisor : Handle) : Silent (requestProjectManifest env supervisor) := by
  refine (onOrchestrator_onWorkers_silent _).bind fun response => ?_
  split
  · exact Silent.pure _
  · exact Silent.fail _

theorem resolvePlan_silent (installation : WorkerInstallation) (changes : ConfigurationInputReconciliation) :
    Silent (resolvePlan env command installation changes) := by
  refine Silent.bind ?_ fun cached => ?_
  · unfold cachedManifest
    split
    · exact onStore_silent env _
    · exact Silent.pure _
  cases cached with
  | some manifest => exact Silent.pure _
  | none =>
    exact (Silent.second _).bind fun supervisor => (onOrchestrator_onWorkers_silent _).bind fun _ =>
      requestProjectManifest_silent env supervisor

theorem discoverArtifactLocators_silent (supervisor : Handle) (executionPlan : OpaqueExecutionPlan) (fuel page : Nat)
    (cursor : Option String) (locators : List ArtifactLocator) :
    Silent (discoverArtifactLocators env supervisor executionPlan fuel page cursor locators) := by
  induction fuel generalizing page cursor locators with
  | zero => exact Silent.fail _
  | succ fuel ih =>
    refine (onOrchestrator_onWorkers_silent _).bind fun response => ?_
    split
    · refine (Silent.lift _).bind fun locators => ?_
      split
      · exact ih _ _ _
      · exact Silent.pure _
    · exact Silent.fail _

theorem cacheArtifacts_silent (supervisor : Handle) (workspaceRoot : WorkspacePath)
    {locatorOf : ArtifactDescriptor → Except CommandError (Option String)}
    {afterwards : ArtifactDescriptor → MaterializationOutcome → CommandRun Unit}
    (hafterwards : ∀ descriptor outcome, Silent (afterwards descriptor outcome)) (descriptors : List ArtifactDescriptor)
    (remaining : Nat) :
    Silent (cacheArtifacts env command supervisor workspaceRoot locatorOf afterwards descriptors remaining) := by
  induction descriptors generalizing remaining with
  | nil => exact Silent.pure _
  | cons descriptor rest ih =>
    refine (Silent.lift _).bind fun artifactLocator => ?_
    refine Silent.bind (Within.mapError (cacheCatalogArtifact_silent _ _ _)) ?_
    rintro ⟨outcome, left⟩
    dsimp only
    split
    · exact Silent.pure _
    · exact (hafterwards descriptor outcome).bind fun _ => ih _

theorem materializeArtifacts_silent (warmLimit : Nat) : Silent (materializeArtifacts env command warmLimit) := by
  refine (onStore_silent env _).bind fun descriptors => (Silent.lift _).bind fun installation => ?_
  refine (Silent.second _).bind fun supervisor => (onOrchestrator_onWorkers_silent _).bind fun _ => ?_
  refine (requestProjectManifest_silent env supervisor).bind fun resolved => ?_
  refine (discoverArtifactLocators_silent env _ _ _ _ _ _).bind fun locators => ?_
  refine (cacheArtifacts_silent env command _ _ (fun _ _ => Silent.pure ()) _ _).bind fun _ => ?_
  exact (onStore_silent env _).bind fun _ => Silent.pure _

theorem readBack_silent (descriptor : ArtifactDescriptor) (outcome : MaterializationOutcome) :
    Silent (readBack env descriptor outcome) := by
  unfold readBack
  split
  · refine (Silent.first tick_silent).bind fun tick => ?_
    split
    · exact Silent.pure _
    · exact Silent.pure _
    · exact Silent.fail _
  · exact Silent.pure _

theorem warmIfAsked_silent (manifest : ProjectManifest) (selection : WorkerSelection) (persisted : List ArtifactDescriptor)
    (run : IndexRun) : Silent (warmIfAsked env command manifest selection persisted run) := by
  unfold warmIfAsked
  split
  · exact Silent.pure _
  split
  · refine (onStore_silent env _).bind fun descriptors => (Silent.first tick_silent).bind fun tick => ?_
    dsimp only
    split
    · exact Silent.pure _
    · refine (Silent.second _).bind fun supervisor => (onOrchestrator_onWorkers_silent _).bind fun _ => ?_
      exact cacheArtifacts_silent env command _ _ (readBack_silent env) _ _
  · exact Silent.fail _

theorem publish_silent (manifest : ProjectManifest) (sources : List SourceUnit) :
    Silent (publish env command manifest sources) := by
  refine (Silent.lift _).bind fun _ => Silent.bind (Within.mapError Silent.write) fun _ => ?_
  refine (onStore_silent env _).bind fun descriptors => Silent.bind (Within.mapError Silent.write) fun _ => ?_
  exact Silent.pure _

end

/-! ## What a run leaves of its sources -/

/-- A discovered source that the log leaves alone was stored with the content it has. -/
def Settled (m : SnapshotMap) (current : List SourceUnit) (log : List IndexEvent) : Prop :=
  ∀ source, Requested id current source → ¬ Affects log source.id →
    ∃ snapshot, m source.id = some snapshot ∧ snapshot.sourceUnit.content = source.content

/-- What precedes the log of a settled run. -/
theorem Settled.after {m : SnapshotMap} {current : List SourceUnit} {before after : List IndexEvent}
    (h : Settled (replay before m) current after) : Settled m current (after ++ before) := by
  intro source hsource hno
  obtain ⟨snapshot, hstored, hcontent⟩ := h source hsource fun haffects => hno (haffects.append_left _)
  rw [replay_of_not_affects fun haffects => hno (haffects.append_right _)] at hstored
  exact ⟨snapshot, hstored, hcontent⟩

namespace IndexPath

/-- The path has a batch for each of the sources. -/
def Routes (current : List SourceUnit) : IndexPath → Prop
  | selectedBatches selection => ∀ source ∈ current, selection.Routes source
  | singleBatch _ _ => True

/-- A run of a path that returns analyzes again what it does not reuse. -/
theorem Finished.settled {path : IndexPath} {m : SnapshotMap} {current : List SourceUnit} {log : List IndexEvent}
    (h : path.Finished m current log) (hroutes : path.Routes current) : Settled m current log := by
  obtain ⟨actions, hplan, hcompleted⟩ := h
  intro source hsource hno
  by_contra hnone
  refine hno (.inr ((hcompleted.commits_iff hplan).2 ?_))
  have hstale : ∀ provenance, Stale provenance m current source :=
    fun provenance => ⟨hsource, fun ⟨snapshot, hstored, hsame, _⟩ => hnone ⟨snapshot, hstored, hsame.2.1⟩⟩
  cases path with
  | selectedBatches selection =>
    obtain ⟨batch, hbatch, hmem⟩ := hroutes source (lastOf_some _ hsource).1
    exact ⟨⟨source, hstale _, rfl⟩, batch, hbatch, List.mem_map_of_mem hmem⟩
  | singleBatch launch provenance => exact ⟨source, hstale _, rfl⟩

end IndexPath

section
variable {ε α : Type} {start : Index} {live : List FileAnalysisSnapshot} {P Q : List IndexEvent → Prop}

theorem Traced.trans {middle index : Index} (h : Traced start P middle) (h' : Traced middle Q index) :
    Traced start (fun log => ∃ before after, log = after ++ before ∧ P before ∧ Q after) index := by
  obtain ⟨before, hbefore, hP, hreplays⟩ := h.exists_log
  obtain ⟨after, hafter, hQ, hreplays'⟩ := h'.exists_log
  refine ⟨after ++ before, by rw [hafter, hbefore, List.append_assoc], ⟨before, after, rfl, hP, hQ⟩, fun live hlive => ?_⟩
  obtain ⟨live', hlive', hmap⟩ := hreplays live hlive
  obtain ⟨live'', hlive'', hmap'⟩ := hreplays' live' hlive'
  exact ⟨live'', hlive'', by rw [hmap', hmap, replay_append]⟩

theorem Silent.traced {x : Run (Index × Workers) ε α} (hsilent : Silent x) (start : Index) (P : List IndexEvent → Prop)
    (hfacts : Leaves IndexStore.facts x) :
    Triple (Tracing start P) x (fun _ => Tracing start P) (Tracing start P) := by
  refine Triple.of_final fun s hs => ?_
  obtain ⟨log, hlog, hP, hreplays⟩ := hs.exists_log
  exact ⟨log, (hsilent s).trans hlog, hP, hreplays.of_facts (hfacts s)⟩

theorem facts_offCatalog : OffCatalog IndexStore.facts := by
  intro store store' h
  exact (congrArg IndexStore.facts h : store'.uncataloged.facts = store.uncataloged.facts)

/-- A path inside of a longer run. -/
theorem IndexPath.run_settled (path : IndexPath) (env : Environment) (manifest : ProjectManifest) (executionPlan : OpaqueExecutionPlan)
    {current : List SourceUnit} (hlive : Holds start.store live) (hroutes : path.Routes current) :
    Triple (Tracing start fun _ => True) (path.run env manifest executionPlan current)
      (fun _ => Tracing start (Settled (lookup live) current)) (Tracing start fun _ => True) := by
  intro s hs
  obtain ⟨before, hbefore, -, hreplays⟩ := hs.exists_log
  have hstarted : Tracing start (· = before) s := ⟨before, hbefore, rfl, hreplays⟩
  obtain ⟨live', hlive', hmap⟩ := hreplays live hlive
  have hrun := path.run_traced env manifest executionPlan current hlive' s (Traced.init rfl)
  rcases houtcome : path.run env manifest executionPlan current s with ⟨e | run, s'⟩
  · rw [houtcome] at hrun
    exact (hs.trans hrun).mono fun _ _ => trivial
  · rw [houtcome] at hrun
    refine (hstarted.trans hrun).mono ?_
    rintro _ ⟨_, after, rfl, rfl, hfinished⟩
    have hsettled := hfinished.settled hroutes
    rw [hmap] at hsettled
    exact hsettled.after

theorem runPath_settled (env : CommandEnvironment) (manifest : ProjectManifest) (executionPlan : OpaqueExecutionPlan)
    {sources : List SourceUnit} {selection : WorkerSelection} (hlive : Holds start.store live)
    (hroutes : ∀ source ∈ sources, selection.Routes source) :
    Triple (Tracing start fun _ => True) (runPath env manifest executionPlan sources selection)
      (fun _ => Tracing start (Settled (lookup live) sources)) (Tracing start fun _ => True) := by
  unfold runPath
  split
  · split
    · next batch _ source _ =>
      exact Triple.mapError ((IndexPath.singleBatch _ (some _)).run_settled env.toEnvironment manifest executionPlan hlive trivial)
    · exact Triple.fail fun _ h => h
  · exact Triple.mapError
      ((IndexPath.selectedBatches selection).run_settled env.toEnvironment manifest executionPlan hlive hroutes)

variable {env : CommandEnvironment} {command : IndexCommand}

theorem forceReanalysis_traced :
    Triple (Tracing start fun _ => True) (forceReanalysis env command) (fun _ => Tracing start fun _ => True)
      (Tracing start fun _ => True) := by
  unfold forceReanalysis
  refine Triple.ite (fun _ => Triple.forM fun source _ => ?_) fun _ => Triple.pure fun _ h => h
  exact Triple.mapError (removeSnapshot_traced env.toEnvironment fun _ h => h)

/-- A selection with nothing unsupported has a batch for each source. -/
theorem selectWithBatchLimit_routes (env : WorkerEnvironment) (installations : List WorkerInstallation) (manifest : ProjectManifest)
    (sources : List SourceUnit) (required : List WorkerCapability) (limit : BatchLimit) :
    Returns (fun selection => selection.unsupported = [] → ∀ source ∈ sources, selection.Routes source)
      (selectWithBatchLimit env installations manifest sources required limit) :=
  Returns.bind (Returns.trivial _) fun _ _ => Returns.pure fun hsupported source hsource =>
    (selectDiscovered_covers hsupported source).2 hsource

theorem coverSources_ok {manifest : ProjectManifest} {sources covered : List SourceUnit}
    (h : coverSources manifest sources = .ok covered) : covered = sources.map manifest.contextualize := by
  unfold coverSources at h
  split at h
  · cases h
  · exact (Except.ok.inj h).symm

theorem beforeWarming_settled (hlive : Holds start.store live) :
    Triple (Tracing start fun _ => True) (beforeWarming env command)
      (fun before => Tracing start (Settled (lookup live) (command.sourceUnits.map before.manifest.contextualize)))
      (Tracing start fun _ => True) := by
  refine Triple.bind ((onStore_silent env _).traced _ _ (onStore_leaves env _)) fun persisted => ?_
  refine Triple.bind ((onStore_silent env _).traced _ _ (onStore_leaves env _)) fun changes => ?_
  refine Triple.bind forceReanalysis_traced fun _ => Triple.bind ((Silent.lift _).traced _ _ (Leaves.lift _)) fun _ => ?_
  refine Triple.bind ((Silent.lift _).traced _ _ (Leaves.lift _)) fun installation => ?_
  refine Triple.bind ((resolvePlan_silent env command _ _).traced _ _ (resolvePlan_leaves env command _ _)) fun resolved => ?_
  have hcover : Triple (Tracing start fun _ => True) (lift (coverSources resolved.manifest command.sourceUnits) : CommandRun _)
      (fun sources s => Tracing start (fun _ => True) s ∧ sources = command.sourceUnits.map resolved.manifest.contextualize)
      (Tracing start fun _ => True) := Triple.lift (fun sources hsources s hs => ⟨hs, coverSources_ok hsources⟩) fun _ h => h
  refine Triple.bind hcover fun sources => Triple.of_fact fun hsources => ?_
  subst hsources
  refine Triple.bind ((Silent.lift _).traced _ _ (Leaves.lift _)) fun limit => ?_
  have hselect := ((Silent.second _).traced start (fun _ => True) (Leaves.second _)).and_returns
    (Returns.second (selectWithBatchLimit_routes env.workers [installation] resolved.manifest
      (command.sourceUnits.map resolved.manifest.contextualize) [.fileAnalysisSnapshot] limit))
  refine Triple.bind (Triple.mapError hselect) fun selection => Triple.of_fact fun hroutes => ?_
  refine Triple.ite (fun _ => Triple.fail fun _ h => h) fun hsupported => ?_
  refine Triple.bind (runPath_settled env _ _ hlive (hroutes (not_not.1 hsupported))) fun run => ?_
  exact Triple.pure fun _ h => h

theorem materializeArtifacts_returns (warmLimit : Nat) :
    Returns (· = .materialized) (materializeArtifacts env command warmLimit) := by
  refine Returns.bind (Returns.trivial _) fun _ _ => Returns.bind (Returns.trivial _) fun _ _ => ?_
  refine Returns.bind (Returns.trivial _) fun _ _ => Returns.bind (Returns.trivial _) fun _ _ => ?_
  refine Returns.bind (Returns.trivial _) fun _ _ => Returns.bind (Returns.trivial _) fun _ _ => ?_
  refine Returns.bind (Returns.trivial _) fun _ _ => Returns.bind (Returns.trivial _) fun _ _ => ?_
  exact Returns.pure rfl

theorem publish_facts (manifest : ProjectManifest) (sources : List SourceUnit) :
    Leaves IndexStore.facts (publish env command manifest sources) := by
  refine (Leaves.lift _).bind fun _ => ?_
  refine Leaves.bind (Within.mapError (Leaves.write fun disk store => store.replaceConfigurationInputs_facts disk _)) fun _ => ?_
  refine (onStore_leaves env _).bind fun descriptors => ?_
  refine Leaves.bind (Within.mapError (Leaves.write fun disk store => store.putWorkspaceCheckpoint_facts disk _)) fun _ => ?_
  exact Leaves.pure _

/-- The snapshots after a run are those before it, replayed over its log. A run that publishes has settled its sources. -/
theorem indexCommand_traced (hlive : Holds start.store live) :
    Triple (Tracing start fun _ => True) (indexCommand env command)
      (fun report => Tracing start fun log => report = .materialized ∨
        ∃ manifest : ProjectManifest, Settled (lookup live) (command.sourceUnits.map manifest.contextualize) log)
      (Tracing start fun _ => True) := by
  have hanything : ∀ {P : List IndexEvent → Prop} s, Tracing start P s → Tracing start (fun _ => True) s :=
    fun _ h => h.mono fun _ _ => trivial
  cases hmaterialize : command.materializeOnly with
  | true =>
    refine Triple.bind ((onStore_silent env _).traced _ _ (onStore_leaves env _)) fun persisted => ?_
    refine Triple.bind ((onStore_silent env _).traced _ _ (onStore_leaves env _)) fun changes => ?_
    refine Triple.bind forceReanalysis_traced fun _ => Triple.bind ((Silent.lift _).traced _ _ (Leaves.lift _)) fun _ => ?_
    rw [if_pos hmaterialize]
    split
    · next warmLimit _ =>
      have htraced := ((materializeArtifacts_silent env command warmLimit).traced start (fun _ => True)
        (materializeArtifacts_leaves env command facts_offCatalog warmLimit)).and_returns (materializeArtifacts_returns warmLimit)
      exact htraced.consequence (fun _ h => h) (fun _ _ h => h.1.mono fun _ _ => .inl h.2) fun _ h => h
    · exact Triple.fail fun _ h => h
  | false =>
    rw [indexCommand_eq hmaterialize]
    refine Triple.bind (beforeWarming_settled hlive) fun before => ?_
    have hwarm := (warmIfAsked_silent env command before.manifest before.selection before.persisted before.run).traced
      start (Settled (lookup live) (command.sourceUnits.map before.manifest.contextualize))
      (warmIfAsked_leaves env command facts_offCatalog _ _ _ _)
    refine Triple.bind (hwarm.weaken hanything) fun _ => ?_
    have hpublish := (publish_silent env command before.manifest before.sources).traced
      start (Settled (lookup live) (command.sourceUnits.map before.manifest.contextualize)) (publish_facts _ _)
    exact hpublish.consequence (fun _ h => h) (fun _ _ h => h.mono fun _ hsettled => .inr ⟨before.manifest, hsettled⟩) hanything

end

/-! ## The checkpoint after a run -/

section
variable {env : CommandEnvironment} {command : IndexCommand} {stored : List WorkspaceCheckpoint}

theorem replaceConfigurationInputs_checkpoints (disk : Disk) (store : IndexStore) (current : List ConfigurationInput) :
    (store.replaceConfigurationInputs disk current).2.workspaceCheckpoints = store.workspaceCheckpoints := by
  cases hreplaced : (store.replaceConfigurationInputs disk current).1 with
  | ok _ => rw [IndexStore.replaceConfigurationInputs_ok hreplaced]
  | error e => rw [IndexStore.replaceConfigurationInputs_error hreplaced]

theorem putWorkspaceCheckpoint_triple (checkpoint : WorkspaceCheckpoint) :
    Triple (fun s : Index × Workers => s.1.store.workspaceCheckpoints = stored)
      (onIndex (Index.write env.index (fun disk store => store.putWorkspaceCheckpoint disk checkpoint) none))
      (fun _ s => s.1.store.workspaceCheckpoints = IndexStore.upsert (·.workspace) stored checkpoint)
      (fun s => s.1.store.workspaceCheckpoints = stored) := by
  refine write_triple (P := fun store => store.workspaceCheckpoints = stored)
    (Q := fun store => store.workspaceCheckpoints = IndexStore.upsert (·.workspace) stored checkpoint)
    (fun disk store hstored hok => ?_) fun disk store e _ herror => IndexStore.putWorkspaceCheckpoint_error herror
  rw [IndexStore.putWorkspaceCheckpoint_ok hok, ← hstored]

theorem publish_checkpoints (manifest : ProjectManifest) (sources : List SourceUnit) :
    Triple (fun s : Index × Workers => s.1.store.workspaceCheckpoints = stored) (publish env command manifest sources)
      (fun report s => ∃ checkpoint, report = .published checkpoint ∧
        s.1.store.workspaceCheckpoints = IndexStore.upsert (·.workspace) stored checkpoint ∧
        checkpoint.sourceInputs = fingerprintSourceInputs env.sha256 sources)
      (fun s => s.1.store.workspaceCheckpoints = stored) := by
  refine Triple.bind (Leaves.lift _).holds fun _ => ?_
  refine Triple.bind (Triple.mapError (Leaves.write fun disk store =>
    replaceConfigurationInputs_checkpoints disk store _).holds) fun _ => ?_
  refine Triple.bind (onStore_leaves env _).holds fun descriptors => ?_
  exact Triple.bind (Triple.mapError (putWorkspaceCheckpoint_triple _)) fun _ => Triple.pure fun s hs => ⟨_, rfl, hs, rfl⟩

/-- A run that does not publish leaves the checkpoints. -/
theorem indexCommand_checkpoints :
    Triple (fun s : Index × Workers => s.1.store.workspaceCheckpoints = stored) (indexCommand env command)
      (fun report s => report = .materialized ∧ s.1.store.workspaceCheckpoints = stored ∨
        ∃ checkpoint, report = .published checkpoint ∧
          s.1.store.workspaceCheckpoints = IndexStore.upsert (·.workspace) stored checkpoint ∧
          checkpoint.sourceInputs = fingerprintSourceInputs env.sha256 command.sourceUnits)
      (fun s => s.1.store.workspaceCheckpoints = stored) := by
  have hoffFacts : OffFacts IndexStore.workspaceCheckpoints := fun store store' h =>
    congrArg (·.2.2) (records_offFacts store store' h)
  have hoffCatalog : OffCatalog IndexStore.workspaceCheckpoints := fun store store' h =>
    congrArg (·.2.2) (records_offCatalog store store' h)
  cases hmaterialize : command.materializeOnly with
  | true =>
    refine Triple.bind (onStore_leaves env _).holds fun persisted => Triple.bind (onStore_leaves env _).holds fun changes => ?_
    refine Triple.bind (forceReanalysis_leaves env command hoffFacts).holds fun _ => Triple.bind (Leaves.lift _).holds fun _ => ?_
    rw [if_pos hmaterialize]
    split
    · next warmLimit _ =>
      have hleaves := (materializeArtifacts_leaves env command hoffCatalog warmLimit).holds (v := stored)
      exact (hleaves.and_returns (materializeArtifacts_returns warmLimit)).consequence (fun _ h => h)
        (fun _ _ h => .inl ⟨h.2, h.1⟩) fun _ h => h
    · exact Triple.fail fun _ h => h
  | false =>
    rw [indexCommand_eq hmaterialize]
    have hbefore : Triple (fun s : Index × Workers => s.1.store.workspaceCheckpoints = stored) (beforeWarming env command)
        (fun before s => s.1.store.workspaceCheckpoints = stored ∧
          before.sources = command.sourceUnits.map before.manifest.contextualize)
        (fun s => s.1.store.workspaceCheckpoints = stored) := by
      intro s hs
      have hrecords := @beforeWarming_records env command _ s rfl
      rcases hrun : beforeWarming env command s with ⟨e | before, s'⟩ <;> rw [hrun] at hrecords
      · exact (congrArg (·.2.2) hrecords).trans hs
      · exact ⟨(congrArg (·.2.2) hrecords).trans hs, (beforeWarming_settles hrun).2⟩
    refine Triple.bind hbefore fun before => Triple.of_fact fun hsources => ?_
    refine Triple.bind (warmIfAsked_leaves env command hoffCatalog _ _ _ _).holds fun _ => ?_
    refine (publish_checkpoints before.manifest before.sources).consequence (fun _ h => h) (fun report s h => ?_) fun _ h => h
    obtain ⟨checkpoint, hreport, hstored, hinputs⟩ := h
    refine .inr ⟨checkpoint, hreport, hstored, ?_⟩
    rw [hinputs, hsources, fingerprintSourceInputs_contextualize]

end

/-! ## Histories -/

namespace Invocation
variable (invocation : Invocation) (store : IndexStore)

/-- What the run removes, is answered and commits, newest first. -/
def events : List IndexEvent := (indexCommand invocation.env invocation.command (invocation.start store)).2.1.log

/-- The run publishes the checkpoint that is read from now on. -/
def heads : Bool :=
  match (indexCommand invocation.env invocation.command (invocation.start store)).1 with
  | .ok (.published checkpoint) => decide ((invocation.next store).workspaceCheckpoint = some checkpoint)
  | _ => false

end Invocation

/-- The sources of the run whose checkpoint is the one that is read. -/
def checkpointSources (history : List Invocation) : List SourceUnit :=
  (history.foldl (fun state invocation => (invocation.next state.1,
    if invocation.heads state.1 then invocation.command.sourceUnits else state.2)) (({}, []) : IndexStore × List SourceUnit)).2

/-- The run loses no snapshot behind the checkpoint that is read after it. What it removes of these units (by force, because
they are no longer discovered, or as dependents) it commits again, and what it commits has the content that the checkpoint is
of, one for each id. -/
structure Invocation.Keeps (history : List Invocation) (invocation : Invocation) : Prop where
  distinct : ∀ a ∈ checkpointSources (history ++ [invocation]), ∀ b ∈ checkpointSources (history ++ [invocation]),
    a.id = b.id → a.content = b.content
  committed : ∀ source ∈ checkpointSources (history ++ [invocation]),
    .removed source.id ∈ invocation.events (storeAfter history) →
      (committedBy (invocation.events (storeAfter history)) source.id).isSome
  content : ∀ source ∈ checkpointSources (history ++ [invocation]), ∀ snapshot,
    committedBy (invocation.events (storeAfter history)) source.id = some snapshot → snapshot.sourceUnit.content = source.content

/-- Each source that the checkpoint is of has a snapshot of its content. -/
def Covered (history : List Invocation) : Prop :=
  ∀ source ∈ checkpointSources history,
    (⟨source.id, source.content⟩ : SourceSnapshotInput) ∈ (storeAfter history).sourceSnapshotInputs

theorem Holds.mem_sourceSnapshotInputs {store : IndexStore} {live : List FileAnalysisSnapshot} (h : Holds store live)
    {id : SourceUnitId} {content : Fingerprint} : (⟨id, content⟩ : SourceSnapshotInput) ∈ store.sourceSnapshotInputs ↔
      ∃ snapshot, lookup live id = some snapshot ∧ snapshot.sourceUnit.content = content := by
  rw [IndexStore.sourceSnapshotInputs, List.mem_map]
  simp only [h.mem_orderedSnapshots, h.lookup_eq_some]
  constructor
  · rintro ⟨_, ⟨snapshot, hs, rfl⟩, hinput⟩
    cases hinput
    exact ⟨snapshot, ⟨hs, rfl⟩, rfl⟩
  · rintro ⟨snapshot, ⟨hs, rfl⟩, rfl⟩
    exact ⟨_, ⟨snapshot, hs, rfl⟩, rfl⟩

section
variable {history : List Invocation} {invocation : Invocation} {store : IndexStore} {live : List FileAnalysisSnapshot}

theorem checkpointSources_append_one : checkpointSources (history ++ [invocation]) =
    if invocation.heads (storeAfter history) then invocation.command.sourceUnits else checkpointSources history := by
  have hstore : ∀ (history : List Invocation) (store : IndexStore) (sources : List SourceUnit),
      (history.foldl (fun state invocation => (invocation.next state.1,
        if invocation.heads state.1 then invocation.command.sourceUnits else state.2)) (store, sources)).1 =
        history.foldl (fun store invocation => invocation.next store) store := by
    intro history
    induction history with
    | nil => exact fun _ _ => rfl
    | cons first history ih => exact fun _ _ => ih _ _
  unfold checkpointSources storeAfter
  rw [List.foldl_append, List.foldl_cons, List.foldl_nil, hstore]

/-- **Run.** The snapshots after it are those before it, replayed. If it heads, it has settled its sources. -/
theorem Invocation.next_holds (hlive : Holds store live) (invocation : Invocation) : ∃ live',
    Holds (invocation.next store) live' ∧ lookup live' = replay (invocation.events store) (lookup live) ∧
      (invocation.heads store = true → ∃ manifest : ProjectManifest,
        Settled (lookup live) (invocation.command.sourceUnits.map manifest.contextualize) (invocation.events store)) := by
  have hstart : Tracing (invocation.start store).1 (fun _ => True) (invocation.start store) := Traced.init trivial
  have htraced := @indexCommand_traced (invocation.start store).1 live invocation.env invocation.command hlive
    (invocation.start store) hstart
  unfold Invocation.next Invocation.events Invocation.heads
  rcases hrun : indexCommand invocation.env invocation.command (invocation.start store) with ⟨e | report, s⟩ <;>
    rw [hrun] at htraced <;> obtain ⟨log, hlog, hP, hreplays⟩ := htraced.exists_log <;>
    obtain ⟨live', hlive', hmap⟩ := hreplays live hlive <;>
    obtain rfl : s.1.log = log := hlog.trans (List.append_nil log)
  · exact ⟨live', hlive', hmap, fun h => by cases h⟩
  · refine ⟨live', hlive', hmap, fun hheads => hP.resolve_left ?_⟩
    rintro rfl
    cases hheads

theorem holds_storeAfter (history : List Invocation) : ∃ live, Holds (storeAfter history) live := by
  induction history using List.reverseRecOn with
  | nil => exact ⟨[], Holds.empty {}⟩
  | append_singleton history invocation ih =>
    obtain ⟨live, hlive⟩ := ih
    obtain ⟨live', hlive', -⟩ := invocation.next_holds hlive
    rw [storeAfter_append_one]
    exact ⟨live', hlive'⟩

end

theorem contextualize_id (manifest : ProjectManifest) (source : SourceUnit) : (manifest.contextualize source).id = source.id := by
  unfold ProjectManifest.contextualize
  split <;> rfl

theorem contextualize_content (manifest : ProjectManifest) (source : SourceUnit) :
    (manifest.contextualize source).content = source.content := by
  unfold ProjectManifest.contextualize
  split <;> rfl

/-- Of sources that agree on each id any one is settled with its own content. -/
theorem Settled.stored {m : SnapshotMap} {sources : List SourceUnit} {manifest : ProjectManifest} {log : List IndexEvent}
    (h : Settled m (sources.map manifest.contextualize) log)
    (hdistinct : ∀ a ∈ sources, ∀ b ∈ sources, a.id = b.id → a.content = b.content) {source : SourceUnit}
    (hsource : source ∈ sources) (hno : ¬ Affects log source.id) :
    ∃ snapshot, m source.id = some snapshot ∧ snapshot.sourceUnit.content = source.content := by
  have hlisted : source.id ∈ (sources.map manifest.contextualize).map (·.id) :=
    List.mem_map.2 ⟨_, List.mem_map_of_mem hsource, contextualize_id manifest source⟩
  obtain ⟨last, hlast⟩ := Option.isSome_iff_exists.1 ((lastOf_isSome_iff fun unit : SourceUnit => unit.id).2 hlisted)
  obtain ⟨hmem, hid⟩ := lastOf_some _ hlast
  obtain ⟨other, hother, rfl⟩ := List.mem_map.1 hmem
  have hrequested : Requested id (sources.map manifest.contextualize) (manifest.contextualize other) := by
    unfold Requested
    exact (congrArg _ hid).trans hlast
  obtain ⟨snapshot, hstored, hcontent⟩ := h _ hrequested (hid ▸ hno)
  rw [hid] at hstored
  rw [contextualize_id] at hid
  rw [contextualize_content] at hcontent
  exact ⟨snapshot, hstored, hcontent.trans (hdistinct other hother source hsource hid)⟩

theorem committedBy_eq_of_affects {log : List IndexEvent} {m : SnapshotMap} {u : SourceUnitId} (h : Affects log u) :
    replay log m u = committedBy log u := replay_eq_of_affects h

theorem affects_of_committedBy {log : List IndexEvent} {u : SourceUnitId} {snapshot : FileAnalysisSnapshot}
    (h : committedBy log u = some snapshot) : Affects log u := by
  by_contra hno
  rw [committedBy, replay_of_not_affects hno] at h
  cases h

/-- **Step.** After a run the checkpoint is covered exactly if the run loses none of its sources. -/
theorem Covered.next_iff {history : List Invocation} (hcovered : Covered history) (invocation : Invocation) :
    Covered (history ++ [invocation]) ↔ invocation.Keeps history := by
  obtain ⟨live, hlive⟩ := holds_storeAfter history
  obtain ⟨live', hlive', hmap, hsettled⟩ := invocation.next_holds hlive
  have hinput : ∀ id content, (⟨id, content⟩ : SourceSnapshotInput) ∈ (storeAfter (history ++ [invocation])).sourceSnapshotInputs ↔
      ∃ snapshot, replay (invocation.events (storeAfter history)) (lookup live) id = some snapshot ∧
        snapshot.sourceUnit.content = content := by
    intro id content
    rw [storeAfter_append_one, hlive'.mem_sourceSnapshotInputs, hmap]
  constructor
  · intro hnext
    refine ⟨fun a ha b hb hid => ?_, fun source hsource hremoved => ?_, fun source hsource snapshot hcommitted => ?_⟩
    · obtain ⟨snapshot, hstored, hcontent⟩ := (hinput _ _).1 (hnext a ha)
      obtain ⟨other, hother, hcontent'⟩ := (hinput _ _).1 (hnext b hb)
      rw [← hid, hstored] at hother
      obtain rfl := Option.some.inj hother
      exact hcontent.symm.trans hcontent'
    · obtain ⟨snapshot, hstored, -⟩ := (hinput _ _).1 (hnext source hsource)
      rw [← committedBy_eq_of_affects (.inl hremoved), hstored, Option.isSome_some]
    · obtain ⟨other, hstored, hcontent⟩ := (hinput _ _).1 (hnext source hsource)
      rw [committedBy_eq_of_affects (affects_of_committedBy hcommitted), hcommitted] at hstored
      obtain rfl := Option.some.inj hstored
      exact hcontent
  · intro hkeeps source hsource
    rw [hinput]
    by_cases haffects : Affects (invocation.events (storeAfter history)) source.id
    · have hsome : (committedBy (invocation.events (storeAfter history)) source.id).isSome := by
        by_cases hremoved : .removed source.id ∈ invocation.events (storeAfter history)
        · exact hkeeps.committed source hsource hremoved
        · obtain ⟨_, _, _, _, entry, _, _, hmap⟩ := replay_committed hremoved (haffects.resolve_left hremoved)
          exact Option.isSome_iff_exists.2 ⟨entry.2, hmap⟩
      obtain ⟨snapshot, hsnapshot⟩ := Option.isSome_iff_exists.1 hsome
      exact ⟨snapshot, (committedBy_eq_of_affects haffects).trans hsnapshot, hkeeps.content source hsource snapshot hsnapshot⟩
    · rw [replay_of_not_affects haffects]
      have hdistinct := hkeeps.distinct
      rw [checkpointSources_append_one] at hsource hdistinct
      by_cases hheads : invocation.heads (storeAfter history) = true
      · rw [if_pos hheads] at hsource hdistinct
        obtain ⟨manifest, hmanifest⟩ := hsettled hheads
        exact hmanifest.stored hdistinct hsource haffects
      · rw [if_neg hheads] at hsource
        exact hlive.mem_sourceSnapshotInputs.1 (hcovered source hsource)

/-- **Runs.** -/
theorem covered_of_keeps {history : List Invocation} (h : ∀ before invocation after, history = before ++ invocation :: after →
    invocation.Keeps before) : Covered history := by
  induction history using List.reverseRecOn with
  | nil => exact fun _ hmem => absurd hmem List.not_mem_nil
  | append_singleton history invocation ih =>
    refine ((ih fun before earlier after hsplit => ?_).next_iff invocation).2 (h history invocation [] rfl)
    exact h before earlier (after ++ [invocation]) (by rw [hsplit]; simp)

/-- The checkpoint that is read is of the sources of a run. -/
structure OfSources (sha256 : String → String) (history : List Invocation) : Prop where
  keys : ((storeAfter history).workspaceCheckpoints.map (·.workspace)).Nodup
  checkpoint : ∀ checkpoint, (storeAfter history).workspaceCheckpoint = some checkpoint →
    (∃ invocation ∈ history, checkpointSources history = invocation.command.sourceUnits) ∧
      checkpoint.sourceInputs = fingerprintSourceInputs sha256 (checkpointSources history)

theorem OfSources.next {sha256 : String → String} {history : List Invocation} (h : OfSources sha256 history)
    {invocation : Invocation} (hhash : invocation.env.sha256 = sha256) : OfSources sha256 (history ++ [invocation]) := by
  have hrun := @indexCommand_checkpoints invocation.env invocation.command (storeAfter history).workspaceCheckpoints
    (invocation.start (storeAfter history)) rfl
  have hkept : (invocation.next (storeAfter history)).workspaceCheckpoints = (storeAfter history).workspaceCheckpoints →
      invocation.heads (storeAfter history) = false → OfSources sha256 (history ++ [invocation]) := by
    intro hsame hheads
    refine ⟨by rw [storeAfter_append_one, hsame]; exact h.keys, fun checkpoint hread => ?_⟩
    rw [storeAfter_append_one] at hread
    unfold IndexStore.workspaceCheckpoint at hread
    rw [hsame] at hread
    obtain ⟨⟨publisher, hpublisher, hsources⟩, hinputs⟩ := h.checkpoint checkpoint hread
    rw [checkpointSources_append_one, hheads, if_neg Bool.false_ne_true]
    exact ⟨⟨publisher, List.mem_append_left _ hpublisher, hsources⟩, hinputs⟩
  unfold Invocation.next Invocation.heads at hkept
  rcases houtcome : indexCommand invocation.env invocation.command (invocation.start (storeAfter history)) with ⟨e | report, s⟩ <;>
    rw [houtcome] at hrun hkept
  · exact hkept hrun rfl
  · rcases hrun with ⟨rfl, hsame⟩ | ⟨checkpoint, rfl, hstored, hinputs⟩
    · exact hkept hsame rfl
    have hnext : (invocation.next (storeAfter history)).workspaceCheckpoints =
        IndexStore.upsert (·.workspace) (storeAfter history).workspaceCheckpoints checkpoint := by
      unfold Invocation.next
      rw [houtcome]
      exact hstored
    have hheads : invocation.heads (storeAfter history) =
        decide ((invocation.next (storeAfter history)).workspaceCheckpoint = some checkpoint) := by
      unfold Invocation.heads
      rw [houtcome]
    refine ⟨by rw [storeAfter_append_one, hnext]; exact IndexStore.upsert_nodup _ h.keys _, fun other hread => ?_⟩
    rw [storeAfter_append_one] at hread
    rw [checkpointSources_append_one, hheads]
    by_cases hhead : (invocation.next (storeAfter history)).workspaceCheckpoint = some checkpoint
    · obtain rfl := Option.some.inj (hread.symm.trans hhead)
      rw [if_pos (decide_eq_true hhead), ← hhash]
      exact ⟨⟨invocation, List.mem_append_right _ (List.mem_singleton_self _), rfl⟩, hinputs⟩
    · have hsmallest := IndexStore.smallest_upsert (·.workspace) h.keys checkpoint
      rw [← hnext] at hsmallest
      rw [if_neg fun htrue => hhead (of_decide_eq_true htrue)]
      change (invocation.next (storeAfter history)).workspaceCheckpoint = _ at hsmallest
      by_cases hleads : ∀ row ∈ (storeAfter history).workspaceCheckpoints, WorkspaceId.le checkpoint.workspace row.workspace
      · rw [if_pos hleads] at hsmallest
        exact absurd hsmallest hhead
      · rw [if_neg hleads] at hsmallest
        obtain ⟨⟨publisher, hpublisher, hsources⟩, hinputs'⟩ := h.checkpoint other (hsmallest.symm.trans hread)
        exact ⟨⟨publisher, List.mem_append_left _ hpublisher, hsources⟩, hinputs'⟩

theorem ofSources_storeAfter {sha256 : String → String} {history : List Invocation}
    (hhash : ∀ invocation ∈ history, invocation.env.sha256 = sha256) : OfSources sha256 history := by
  induction history using List.reverseRecOn with
  | nil => exact ⟨List.nodup_nil, fun checkpoint hread => by cases hread⟩
  | append_singleton history invocation ih =>
    refine (ih fun earlier hearlier => hhash earlier (List.mem_append_left _ hearlier)).next ?_
    exact hhash invocation (List.mem_append_right _ (List.mem_singleton_self _))

/-! ## The shortcut of the status -/

/-- Where the status takes its shortcut for these sources, each of them has a snapshot of its content. -/
def ShortcutCovers (sha256 : String → String) (sources : List SourceUnit) (store : IndexStore) : Prop :=
  ∀ manifest, store.latestManifest = some manifest →
    store.workspaceCheckpoint.any (sourceCheckpointMatches sha256 manifest sources) = true →
      ∀ source ∈ sources, (⟨source.id, source.content⟩ : SourceSnapshotInput) ∈ store.sourceSnapshotInputs

def textDigest (text : String) : String := hexDigest text.toByteArray.data.toList

def oneSource : List SourceUnit := [sampleUnit "A.kt" "sha256:a"]

/-- `kide index` on one file, with or without `--force`; the worker may not start. -/
def sourceRun (force spawns : Bool) : Invocation where
  env := ⟨sampleEnvironment { libraryWorker with spawns := fun _ => spawns }, fillingCache 0, textDigest⟩
  command := { warmingCommand with
    sourceUnits := oneSource
    force
    warmDependencies := none }
  workers := noWorkers

theorem covered_nil : Covered [] := fun _ hmem => absurd hmem List.not_mem_nil

theorem oneSource_nulFree : ∀ source ∈ oneSource, ∀ field ∈ sourceFields source, NulFree field := by
  unfold NulFree
  decide

end Kide
