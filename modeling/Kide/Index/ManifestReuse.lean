import Mathlib.Data.List.Induction
import Kide.Index.Status
import Kide.Store.WorkspaceRecords

/-!
# Reusing a resolution

A run that finds its configuration inputs current works with the stored manifest. The manifest is stored at the end of an
index path and the inputs after the warming and the text, so a run that fails in between leaves them from different runs.

* `Invocation`, `storeAfter`: `kide index` run after run, each succeeding or failing wherever it does;
* `Invocation.KeepsTogether`: a run after which manifest and inputs are of one run;
* `reuse_of_keepsTogether`: while all runs are so, a reused manifest was resolved under the present inputs.
-/

namespace Kide
open Runs Collects Checks

/-! ## Inputs -/

/-- The two lists say the same of each path. -/
def InputsAgree (a b : List ConfigurationInput) : Prop := ∀ path, lastOf (·.path) a path = lastOf (·.path) b path

theorem InputsAgree.refl (a : List ConfigurationInput) : InputsAgree a a := fun _ => rfl

theorem InputsAgree.symm {a b : List ConfigurationInput} (h : InputsAgree a b) : InputsAgree b a := fun path => (h path).symm

theorem InputsAgree.trans {a b c : List ConfigurationInput} (h : InputsAgree a b) (h' : InputsAgree b c) : InputsAgree a c :=
  fun path => (h path).trans (h' path)

theorem allCurrent_iff_agree {a b : List ConfigurationInput} :
    (reconcileConfigurationInputs a b).allCurrent = true ↔ InputsAgree a b := by
  rw [allCurrent_iff]
  constructor
  · intro h path
    by_cases hpath : path ∈ (a ++ b).map (·.path)
    · obtain ⟨before, hbefore, now, hnow, hfingerprint, hcomponents⟩ := h path hpath
      rw [hbefore, hnow]
      have hsame : before.path = now.path := (lastOf_some _ hbefore).2.trans (lastOf_some _ hnow).2.symm
      cases before
      cases now
      simp_all
    · rw [List.map_append, List.mem_append, not_or] at hpath
      have hnone : ∀ l : List ConfigurationInput, path ∉ l.map (·.path) → lastOf (·.path) l path = none := by
        intro l hl
        rw [← Option.not_isSome_iff_eq_none, lastOf_isSome_iff]
        exact hl
      rw [hnone a hpath.1, hnone b hpath.2]
  · intro h path hpath
    have hsome : (lastOf (·.path) a path).isSome := by
      rw [List.map_append, List.mem_append] at hpath
      rcases hpath with hpath | hpath
      · exact (lastOf_isSome_iff _).2 hpath
      · rw [h path]
        exact (lastOf_isSome_iff _).2 hpath
    obtain ⟨input, hinput⟩ := Option.isSome_iff_exists.1 hsome
    exact ⟨input, hinput, input, (h path).symm.trans hinput, rfl, rfl⟩

/-! ## Runs -/

/-- One `kide index`: a process with workers of its own on the store it finds. -/
structure Invocation where
  env : CommandEnvironment
  command : IndexCommand
  workers : Workers

namespace Invocation
variable (invocation : Invocation) (store : IndexStore)

def start : Index × Workers := (⟨store, 0, []⟩, invocation.workers)

/-- The store that the run leaves, wherever it stopped. -/
def next : IndexStore := (indexCommand invocation.env invocation.command (invocation.start store)).2.1.store

/-- The run works with what its index path has stored as manifest. -/
def Stores (before : BeforeWarming) (s : Index × Workers) : Prop :=
  invocation.command.materializeOnly = false ∧
    beforeWarming invocation.env invocation.command (invocation.start store) = (.ok before, s)

/-- The run has its worker resolve the build to the manifest. -/
def Resolves (manifest : ProjectManifest) : Prop :=
  ∃ before s, invocation.Stores store before s ∧ before.manifest = manifest ∧ invocation.command.reused store = none ∧
    ResolvedByWorker invocation.env invocation.command (invocation.start store) manifest

/-- From the stored manifest the run gets to the configuration inputs, and the database takes them. -/
def RecordsInputs (before : BeforeWarming) (s : Index × Workers) : Prop :=
  ∃ s', warmIfAsked invocation.env invocation.command before.manifest before.selection before.persisted before.run s =
      (.ok (), s') ∧
    invocation.command.workspaceText = .ok () ∧
    (s'.1.store.replaceConfigurationInputs (invocation.env.index.disk s'.1.clock)
      invocation.command.configurationInputRecords).1 = .ok ()

/-- No stored manifest has a smaller workspace, so it is the one that is read. -/
def Leads (manifest : ProjectManifest) (store : IndexStore) : Prop :=
  ∀ stored ∈ store.projectManifests, WorkspaceId.le manifest.workspace stored.workspace

instance (manifest : ProjectManifest) (store : IndexStore) : Decidable (Leads manifest store) :=
  inferInstanceAs (Decidable (∀ stored ∈ store.projectManifests, WorkspaceId.le manifest.workspace stored.workspace))

/-- A run that resolves the build under other inputs than the stored ones records them exactly if its manifest is the one
that is read from now on. -/
def KeepsTogether : Prop :=
  ∀ before s, invocation.Stores store before s → invocation.command.reused store = none →
    InputsAgree store.configurationInputs invocation.command.configurationInputRecords ∨
      (Leads before.manifest store ↔ invocation.RecordsInputs before s)

end Invocation

/-- The store after the runs, from an empty one. -/
def storeAfter (history : List Invocation) : IndexStore := history.foldl (fun store invocation => invocation.next store) {}

theorem storeAfter_append_one (history : List Invocation) (invocation : Invocation) :
    storeAfter (history ++ [invocation]) = invocation.next (storeAfter history) := by
  unfold storeAfter
  rw [List.foldl_append]
  rfl

/-- A run of the history resolved the build to the manifest, under these inputs. -/
def ResolvedIn (history : List Invocation) (manifest : ProjectManifest) (inputs : List ConfigurationInput) : Prop :=
  ∃ before invocation after, history = before ++ invocation :: after ∧
    invocation.Resolves (storeAfter before) manifest ∧ InputsAgree invocation.command.configurationInputRecords inputs

/-- Each reused manifest was resolved under the inputs of the run that reuses it. -/
def ReusesPresent (history : List Invocation) : Prop :=
  ∀ before invocation after, history = before ++ invocation :: after →
    ∀ manifest, invocation.command.reused (storeAfter before) = some manifest →
      ResolvedIn before manifest invocation.command.configurationInputRecords

/-! ## What a run does to manifest and inputs -/

section
variable {invocation : Invocation} {store : IndexStore} {before : BeforeWarming} {s : Index × Workers}

/-- The tables that a reuse reads. -/
def IndexStore.resolution (store : IndexStore) : List ProjectManifest × List ConfigurationInput :=
  (store.projectManifests, store.configurationInputs)

theorem resolution_of_records {store store' : IndexStore} (h : store'.records = store.records) :
    store'.resolution = store.resolution := by
  unfold IndexStore.resolution
  rw [show store'.projectManifests = store.projectManifests from congrArg Prod.fst h,
    show store'.configurationInputs = store.configurationInputs from congrArg (·.2.1) h]

theorem materializing_leaves {env : CommandEnvironment} {command : IndexCommand} (h : command.materializeOnly = true) :
    Leaves IndexStore.records (indexCommand env command) := by
  refine (onStore_leaves env _).bind fun persisted => (onStore_leaves env _).bind fun changes => ?_
  refine (forceReanalysis_leaves env command records_offFacts).bind fun _ => (Leaves.lift _).bind fun _ => ?_
  rw [if_pos h]
  split
  · exact materializeArtifacts_leaves env command records_offCatalog _
  · exact Leaves.fail _

/-- A run that stores no manifest changes neither. -/
theorem next_resolution_of_not_stores (h : ∀ before s, ¬ invocation.Stores store before s) :
    (invocation.next store).resolution = store.resolution := by
  refine resolution_of_records ?_
  unfold Invocation.next
  by_cases hmaterialize : invocation.command.materializeOnly = true
  · exact materializing_leaves hmaterialize (invocation.start store)
  have hsources := eq_false_of_ne_true hmaterialize
  have hrecords := @beforeWarming_records invocation.env invocation.command store.records (invocation.start store) rfl
  rw [indexCommand_eq hsources]
  rcases hrun : beforeWarming invocation.env invocation.command (invocation.start store) with ⟨e | before, s⟩
  · rw [hrun] at hrecords
    rw [bind_of_error hrun]
    exact hrecords
  · exact absurd ⟨hsources, hrun⟩ (h before s)

/-- The manifest is stored when the warming begins. -/
theorem Invocation.Stores.records (h : invocation.Stores store before s) :
    s.1.store.records = withManifest store.records before.manifest :=
  beforeWarming_records.returned rfl h.2

theorem putWorkspaceCheckpoint_resolution (disk : Disk) (store : IndexStore) (checkpoint : WorkspaceCheckpoint) :
    (store.putWorkspaceCheckpoint disk checkpoint).2.resolution = store.resolution := by
  cases hput : (store.putWorkspaceCheckpoint disk checkpoint).1 with
  | ok _ =>
    rw [IndexStore.putWorkspaceCheckpoint_ok hput]
    rfl
  | error e => rw [IndexStore.putWorkspaceCheckpoint_error hput]

section
variable {env : CommandEnvironment} {command : IndexCommand} {manifest : ProjectManifest} {sources : List SourceUnit}

/-- The publication once the inputs are replaced. -/
theorem publish_replaced {s : Index × Workers} (htext : command.workspaceText = .ok ())
    (hreplaced : (s.1.store.replaceConfigurationInputs (env.index.disk s.1.clock) command.configurationInputRecords).1 = .ok ()) :
    (publish env command manifest sources s).2.1.store.resolution =
      (s.1.store.projectManifests, command.configurationInputRecords) := by
  have hstore := IndexStore.replaceConfigurationInputs_ok hreplaced
  have hbailing : bailing command.workspaceText s = (.ok (), s) := by rw [htext]; rfl
  have hwritten : (onOrchestrator (onIndex (Index.write env.index
      (fun disk store => store.replaceConfigurationInputs disk command.configurationInputRecords) none)) : CommandRun Unit) s =
        (.ok (), ⟨{ s.1.store with configurationInputs := command.configurationInputRecords }, s.1.clock + 1, s.1.log⟩, s.2) := by
    exact run_mapError_ok.2 (onIndex_write_eq_ok (Prod.ext hreplaced hstore))
  unfold publish
  rw [bind_of_ok hbailing, bind_of_ok hwritten]
  have hread : Leaves IndexStore.resolution (onStore env (·.artifactDescriptors)) := onStore_leaves env _
  refine (hread.bind fun descriptors => ?_) _
  exact Leaves.bind (Within.mapError (Leaves.write fun disk store => putWorkspaceCheckpoint_resolution disk store _))
    fun _ => Leaves.pure _

/-- The publication that does not get to replace them. -/
theorem publish_interrupted {s : Index × Workers} (h : ¬ (command.workspaceText = .ok () ∧
      (s.1.store.replaceConfigurationInputs (env.index.disk s.1.clock) command.configurationInputRecords).1 = .ok ())) :
    (publish env command manifest sources s).2.1.store.resolution = s.1.store.resolution := by
  unfold publish
  cases htext : command.workspaceText with
  | error message =>
    have hbailing : bailing (.error message : Except String Unit) s = (.error (.bail message), s) := rfl
    rw [bind_of_error hbailing]
  | ok u =>
    have hbailing : bailing (.ok u : Except String Unit) s = (.ok u, s) := rfl
    rw [bind_of_ok hbailing]
    cases hreplaced : (s.1.store.replaceConfigurationInputs (env.index.disk s.1.clock)
        command.configurationInputRecords).1 with
    | ok _ => exact absurd ⟨htext, hreplaced⟩ h
    | error e =>
      have hstore := IndexStore.replaceConfigurationInputs_error hreplaced
      have hwritten : (onOrchestrator (onIndex (Index.write env.index
          (fun disk store => store.replaceConfigurationInputs disk command.configurationInputRecords) none)) : CommandRun Unit) s =
            (.error (.index (.store e)), ⟨s.1.store, s.1.clock + 1, s.1.log⟩, s.2) := by
        unfold onOrchestrator mapError
        rw [onIndex_write_eq_error (Prod.ext hreplaced hstore)]
      rw [bind_of_error hwritten]

end

/-- The tables when the warming has returned. -/
theorem Invocation.Stores.warmed (h : invocation.Stores store before s) {a : Except CommandError Unit} {s' : Index × Workers}
    (hwarmed : warmIfAsked invocation.env invocation.command before.manifest before.selection before.persisted before.run s =
      (a, s')) :
    s'.1.store.resolution =
      (IndexStore.upsert (·.workspace) store.projectManifests before.manifest, store.configurationInputs) := by
  have hkept := warmIfAsked_leaves invocation.env invocation.command records_offCatalog before.manifest before.selection
    before.persisted before.run s
  rw [hwarmed] at hkept
  have hrecords : s'.1.store.records = withManifest store.records before.manifest := hkept.trans h.records
  unfold IndexStore.resolution
  rw [show s'.1.store.projectManifests = _ from congrArg Prod.fst hrecords,
    show s'.1.store.configurationInputs = _ from congrArg (·.2.1) hrecords]
  rfl

theorem next_resolution_of_records (h : invocation.Stores store before s) (hinputs : invocation.RecordsInputs before s) :
    (invocation.next store).resolution = (IndexStore.upsert (·.workspace) store.projectManifests before.manifest,
      invocation.command.configurationInputRecords) := by
  obtain ⟨s', hwarmed, htext, hreplaced⟩ := hinputs
  unfold Invocation.next
  rw [indexCommand_eq h.1, bind_of_ok h.2, bind_of_ok hwarmed, publish_replaced htext hreplaced]
  exact congrArg (·, invocation.command.configurationInputRecords) (congrArg Prod.fst (h.warmed hwarmed))

theorem next_resolution_of_interrupted (h : invocation.Stores store before s) (hinputs : ¬ invocation.RecordsInputs before s) :
    (invocation.next store).resolution =
      (IndexStore.upsert (·.workspace) store.projectManifests before.manifest, store.configurationInputs) := by
  unfold Invocation.next
  rw [indexCommand_eq h.1, bind_of_ok h.2]
  rcases hwarmed : warmIfAsked invocation.env invocation.command before.manifest before.selection before.persisted before.run s
    with ⟨e | u, s'⟩
  · rw [bind_of_error hwarmed]
    exact h.warmed hwarmed
  · rw [bind_of_ok hwarmed, publish_interrupted fun hpublished => hinputs ⟨s', hwarmed, hpublished⟩]
    exact h.warmed hwarmed

end

/-! ## Manifest and inputs of one run -/

/-- The manifest that is read was resolved under the inputs that are stored. -/
structure Together (history : List Invocation) (store : IndexStore) : Prop where
  manifestKeys : (store.projectManifests.map (·.workspace)).Nodup
  resolved : ∀ manifest, store.latestManifest = some manifest → ResolvedIn history manifest store.configurationInputs

section
variable {history : List Invocation} {invocation : Invocation} {manifest : ProjectManifest} {inputs inputs' : List ConfigurationInput}

theorem ResolvedIn.append (h : ResolvedIn history manifest inputs) (hinputs : InputsAgree inputs inputs') (after : List Invocation) :
    ResolvedIn (history ++ after) manifest inputs' := by
  obtain ⟨before, earlier, rest, rfl, hresolves, hagree⟩ := h
  exact ⟨before, earlier, rest ++ after, by simp, hresolves, hagree.trans hinputs⟩

theorem latestManifest_congr {store store' : IndexStore} (h : store'.projectManifests = store.projectManifests) :
    store'.latestManifest = store.latestManifest := by
  unfold IndexStore.latestManifest
  rw [h]

/-- A reused manifest is the one that is read, and the inputs are the stored ones. -/
theorem reused_eq_some {command : IndexCommand} {store : IndexStore} (h : command.reused store = some manifest) :
    store.latestManifest = some manifest ∧ InputsAgree store.configurationInputs command.configurationInputRecords := by
  unfold IndexCommand.reused at h
  by_cases hreuse : (!command.force && (store.configurationInputStatus command.configurationInputRecords).allCurrent) = true
  · rw [if_pos hreuse] at h
    exact ⟨h, allCurrent_iff_agree.1 (Bool.and_eq_true_iff.1 hreuse).2⟩
  · rw [if_neg hreuse] at h
    cases h

/-- A run that stores its manifest leaves the tables together. -/
theorem Together.stored {before : BeforeWarming} {s : Index × Workers} (h : Together history (storeAfter history))
    (hkeeps : invocation.KeepsTogether (storeAfter history)) (hstores : invocation.Stores (storeAfter history) before s)
    {store : IndexStore} (hmanifests : store.projectManifests =
      IndexStore.upsert (·.workspace) (storeAfter history).projectManifests before.manifest)
    (hinputs : store.configurationInputs = invocation.command.configurationInputRecords ∧ invocation.RecordsInputs before s ∨
      store.configurationInputs = (storeAfter history).configurationInputs ∧ ¬ invocation.RecordsInputs before s) :
    Together (history ++ [invocation]) store := by
  have hlatest : store.latestManifest =
      if Invocation.Leads before.manifest (storeAfter history) then some before.manifest
      else (storeAfter history).latestManifest := by
    unfold IndexStore.latestManifest
    rw [hmanifests]
    exact IndexStore.smallest_upsert (·.workspace) h.manifestKeys before.manifest
  have hkept : ∀ manifest, (storeAfter history).latestManifest = some manifest →
      InputsAgree (storeAfter history).configurationInputs store.configurationInputs →
        ResolvedIn (history ++ [invocation]) manifest store.configurationInputs :=
    fun manifest hmanifest hagree => (h.resolved manifest hmanifest).append hagree _
  refine ⟨by rw [hmanifests]; exact IndexStore.upsert_nodup _ h.manifestKeys _, fun manifest hmanifest => ?_⟩
  rw [hlatest] at hmanifest
  rcases (beforeWarming_settles hstores.2).1 with hreused | ⟨hnone, hresolved⟩
  · -- The manifest was the one that is read, under the inputs of this run.
    obtain ⟨hread, hcurrent⟩ := reused_eq_some hreused
    have hagree : InputsAgree (storeAfter history).configurationInputs store.configurationInputs := by
      rcases hinputs with ⟨hrecorded, -⟩ | ⟨hsame, -⟩
      · rwa [hrecorded]
      · rw [hsame]
        exact InputsAgree.refl _
    split_ifs at hmanifest
    · obtain rfl := Option.some.inj hmanifest
      exact hkept _ hread hagree
    · exact hkept _ hmanifest hagree
  · have hown : InputsAgree invocation.command.configurationInputRecords store.configurationInputs →
        ResolvedIn (history ++ [invocation]) before.manifest store.configurationInputs := fun hagree =>
      ⟨history, invocation, [], rfl, ⟨before, s, hstores, rfl, hnone, hresolved⟩, hagree⟩
    rcases hkeeps before s hstores hnone with hcurrent | hleads
    · have hboth : InputsAgree (storeAfter history).configurationInputs store.configurationInputs ∧
          InputsAgree invocation.command.configurationInputRecords store.configurationInputs := by
        rcases hinputs with ⟨hrecorded, -⟩ | ⟨hsame, -⟩
        · rw [hrecorded]
          exact ⟨hcurrent, InputsAgree.refl _⟩
        · rw [hsame]
          exact ⟨InputsAgree.refl _, hcurrent.symm⟩
      split_ifs at hmanifest
      · obtain rfl := Option.some.inj hmanifest
        exact hown hboth.2
      · exact hkept _ hmanifest hboth.1
    · split_ifs at hmanifest with hleading
      · obtain rfl := Option.some.inj hmanifest
        rcases hinputs with ⟨hrecorded, -⟩ | ⟨-, hinterrupted⟩
        · exact hown (hrecorded ▸ InputsAgree.refl _)
        · exact absurd (hleads.1 hleading) hinterrupted
      · rcases hinputs with ⟨-, hrecords⟩ | ⟨hsame, -⟩
        · exact absurd (hleads.2 hrecords) hleading
        · exact hkept _ hmanifest (hsame ▸ InputsAgree.refl _)

/-- **Step.** -/
theorem Together.next (h : Together history (storeAfter history)) (hkeeps : invocation.KeepsTogether (storeAfter history)) :
    Together (history ++ [invocation]) (invocation.next (storeAfter history)) := by
  by_cases hstores : ∃ before s, invocation.Stores (storeAfter history) before s
  · obtain ⟨before, s, hstores⟩ := hstores
    by_cases hrecords : invocation.RecordsInputs before s
    · have hresolution := next_resolution_of_records hstores hrecords
      exact h.stored hkeeps hstores (congrArg Prod.fst hresolution) (.inl ⟨congrArg Prod.snd hresolution, hrecords⟩)
    · have hresolution := next_resolution_of_interrupted hstores hrecords
      exact h.stored hkeeps hstores (congrArg Prod.fst hresolution) (.inr ⟨congrArg Prod.snd hresolution, hrecords⟩)
  · have hresolution := next_resolution_of_not_stores fun before s hs => hstores ⟨before, s, hs⟩
    have hmanifests := congrArg Prod.fst hresolution
    have hinputs := congrArg Prod.snd hresolution
    refine ⟨?_, fun manifest hmanifest => ?_⟩
    · rw [show (invocation.next (storeAfter history)).projectManifests = _ from hmanifests]
      exact h.manifestKeys
    · rw [latestManifest_congr hmanifests] at hmanifest
      refine (h.resolved manifest hmanifest).append ?_ _
      rw [show (invocation.next (storeAfter history)).configurationInputs = _ from hinputs]
      exact InputsAgree.refl _

/-- **Run.** -/
theorem together_storeAfter (h : ∀ before invocation after, history = before ++ invocation :: after →
    invocation.KeepsTogether (storeAfter before)) : Together history (storeAfter history) := by
  induction history using List.reverseRecOn with
  | nil => exact ⟨List.nodup_nil, fun manifest hlatest => by cases hlatest⟩
  | append_singleton history invocation ih =>
    rw [storeAfter_append_one]
    refine (ih fun before earlier after hsplit => ?_).next (h history invocation [] rfl)
    exact h before earlier (after ++ [invocation]) (by rw [hsplit]; simp)

end

/-- **Reuse.** While every run that resolves the build under other inputs than the stored ones records them exactly if its
manifest is the one that is read from then on, each manifest that a run reuses was resolved by the worker of an earlier run
under the inputs of this one. -/
theorem reuse_of_keepsTogether (history : List Invocation)
    (h : ∀ before invocation after, history = before ++ invocation :: after →
      invocation.KeepsTogether (storeAfter before)) : ReusesPresent history := by
  intro before invocation after hsplit manifest hreused
  have htogether : Together before (storeAfter before) := by
    refine together_storeAfter fun earlier other rest hearlier => ?_
    exact h earlier other (rest ++ invocation :: after) (by rw [hsplit, hearlier]; simp)
  obtain ⟨hlatest, hagree⟩ := reused_eq_some hreused
  have hresolved := (htogether.resolved manifest hlatest).append hagree []
  rwa [List.append_nil] at hresolved

/-! ## An edit that is taken back -/

/-- A build whose resolution has this fingerprint. -/
def builtManifest (fingerprint : String) : ProjectManifest := { warmedManifest with fingerprint := ⟨fingerprint⟩ }

def buildWorker (manifest : ProjectManifest) : WorkerEnvironment :=
  { libraryWorker with
    receives := fun tick request =>
      match request.message with
      | .projectManifestRequest _ => .envelope (.new request.requestId (
          .projectManifestResponse ⟨manifest, ⟨"gradle", manifest.fingerprint, []⟩⟩))
      | _ => libraryWorker.receives tick request }

def buildFile (fingerprint : String) : List ConfigurationInput := [⟨⟨"build.gradle.kts"⟩, ⟨fingerprint⟩, [⟨"app:main"⟩]⟩]

/-- `kide index` on a build file; the collecting of the text may fail. -/
def buildRun (build : String) (workspaceText : Except String Unit) : Invocation where
  env := ⟨sampleEnvironment (buildWorker (builtManifest build)), fillingCache 0, id⟩
  command := { warmingCommand with
    configurationInputRecords := buildFile build
    warmDependencies := none
    workspaceText }
  workers := noWorkers

theorem buildRun_resolves {build : String} {workspaceText : Except String Unit} {store : IndexStore} {manifest : ProjectManifest}
    (h : (buildRun build workspaceText).Resolves store manifest) : manifest = builtManifest build := by
  obtain ⟨before, s, -, -, -, installation, resolved, hinstallation, hresolved, rfl⟩ := h
  cases hinstallation
  exact congrArg (·.manifest) (Except.ok.inj hresolved).symm

/-- The build file is edited, the run fails over the text, and the edit is taken back: the last run reuses what the worker
resolved from the edited file. -/
def revertedEdit : List Invocation :=
  [buildRun "sha256:one" (.ok ()), buildRun "sha256:two" (.error "workspace_text"), buildRun "sha256:one" (.ok ())]

theorem revertedEdit_reuses :
    (buildRun "sha256:one" (.ok ())).command.reused (storeAfter (revertedEdit.take 2)) = some (builtManifest "sha256:two") := by
  decide +kernel

theorem revertedEdit_stale : ¬ ∀ history : List Invocation, ReusesPresent history := by
  intro h
  obtain ⟨before, invocation, after, hsplit, hresolves, hagree⟩ :=
    h revertedEdit (revertedEdit.take 2) _ [] rfl _ revertedEdit_reuses
  unfold revertedEdit at hsplit
  rcases before with _ | ⟨first, _ | ⟨second, rest⟩⟩
  · obtain ⟨rfl, -⟩ := List.cons.inj hsplit
    exact absurd (buildRun_resolves hresolves) (by decide)
  · obtain ⟨-, hsplit⟩ := List.cons.inj hsplit
    obtain ⟨rfl, -⟩ := List.cons.inj hsplit
    exact absurd (hagree ⟨"build.gradle.kts"⟩) (by decide)
  · have hlength := congrArg List.length hsplit
    simp at hlength

/-- Two runs on one build file. -/
theorem unedited_reuses :
    ReusesPresent [buildRun "sha256:one" (.ok ()), buildRun "sha256:one" (.ok ())] := by
  refine reuse_of_keepsTogether _ fun before invocation after hsplit => ?_
  rcases before with _ | ⟨first, _ | ⟨second, rest⟩⟩
  · obtain ⟨rfl, -⟩ := List.cons.inj hsplit
    intro before s hstores hnone
    exact .inr (iff_of_true (fun stored hstored => by cases hstored) ⟨s, rfl, rfl, rfl⟩)
  · obtain ⟨rfl, hrest⟩ := List.cons.inj hsplit
    obtain ⟨rfl, -⟩ := List.cons.inj hrest
    intro before s hstores hnone
    have hreused : (buildRun "sha256:one" (.ok ())).command.reused (storeAfter [buildRun "sha256:one" (.ok ())]) =
        some (builtManifest "sha256:one") := by decide +kernel
    rw [hreused] at hnone
    cases hnone
  · have hlength := congrArg List.length hsplit
    simp at hlength

end Kide
