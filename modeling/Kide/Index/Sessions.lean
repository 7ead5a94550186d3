import Kide.Index.Command
import Kide.Index.Commits
import Kide.Workers.Semantic

/-!
# Sessions

Everything that sends a request: the two index paths with their dependency lane, the index command
with its warm and materialize loops, semantic queries, and whatever else moves a supervisor between
them. A session is any sequence of these, each of which may fail anywhere.

`sessions_handshake_before_work`: in a session whose log is `Calm`, work is only ever written to a
process that has itself answered a compatible handshake.
`work_reaches_fresh_worker`: a worker that exits between its handshake and the next request is replaced
by one that gets the request first.
-/

namespace Kide
open Runs

/-! ## Runs beside the workers -/

section
variable {ε α β γ : Type} {P Q R : Workers → Prop}

/-- A run that leaves the workers alone. -/
abbrev OffWorkers (x : Run (Index × Workers) ε α) : Prop := Within (fun s s' => s'.2 = s.2) x

namespace OffWorkers

theorem pure (a : α) : OffWorkers (Pure.pure a : Run (Index × Workers) ε α) := fun _ => rfl

theorem fail (e : ε) : OffWorkers (Runs.fail e : Run (Index × Workers) ε α) := fun _ => rfl

theorem lift (r : Except ε α) : OffWorkers (Runs.lift r : Run (Index × Workers) ε α) := fun _ => rfl

theorem first (x : Run Index ε α) : OffWorkers (Runs.first x : Run (Index × Workers) ε α) := fun _ => rfl

theorem bind {x : Run (Index × Workers) ε β} {f : β → Run (Index × Workers) ε α} (hx : OffWorkers x)
    (hf : ∀ b, OffWorkers (f b)) : OffWorkers (x >>= f) :=
  Within.bind (R := fun s s' : Index × Workers => s'.2 = s.2) (fun _ _ _ h h' => h'.trans h) hx hf

theorem foldlM {f : β → γ → Run (Index × Workers) ε β} {l : List γ} (h : ∀ b, ∀ c ∈ l, OffWorkers (f b c)) (b : β) :
    OffWorkers (l.foldlM f b) :=
  Within.foldlM (R := fun s s' : Index × Workers => s'.2 = s.2) (fun _ => rfl) (fun _ _ _ h h' => h'.trans h) h b

end OffWorkers

/-- From `P` the run ends in `Q`, and a failure leaves the log disciplined. -/
abbrev Orderly (P : Workers → Prop) (x : Run (Index × Workers) ε α) (Q : Workers → Prop) : Prop :=
  Triple (fun s => P s.2) x (fun _ s => Q s.2) fun s => Disciplined s.2

theorem OffWorkers.orderly {x : Run (Index × Workers) ε α} (h : OffWorkers x)
    (hP : ∀ workers, P workers → Disciplined workers) : Orderly P x P :=
  (Within.triple (F := fun s => P s.2) h fun _ _ hsame hs => hsame ▸ hs).weaken fun _ hs => hP _ hs

theorem OffWorkers.disciplined {x : Run (Index × Workers) ε α} (h : OffWorkers x) : Orderly Disciplined x Disciplined :=
  h.orderly fun _ h => h

theorem Orderly.onWorkers {x : WorkerRun α} (h : Triple P x (fun _ => Q) Disciplined) : Orderly P (onWorkers x) Q :=
  Triple.on_second (Triple.mapError h)

end

/-! ## The orchestrator -/

section
variable (env : Environment) (manifest : ProjectManifest) (executionPlan : OpaqueExecutionPlan)
  {p : WorkerCapabilities → Prop} {supervisor : Handle}

theorem newSupervisor_disciplined {ε : Type} (launch : WorkerLaunch) :
    Triple Disciplined (Workers.newSupervisor launch : Run Workers ε Handle) (fun _ => Disciplined) Disciplined :=
  fun _ h => h

theorem discoverPages_disciplined (fuel page : Nat) (cursor : Option String) (descriptors : List ArtifactDescriptor)
    (locators : List ArtifactLocator) :
    Triple (Qualified p supervisor)
      (discoverPages env.workers supervisor manifest executionPlan fuel page cursor descriptors locators)
      (fun _ => Disciplined) Disciplined := by
  induction fuel generalizing page cursor descriptors locators with
  | zero => exact Triple.fail fun _ h => h.2
  | succ fuel ih =>
    refine Triple.bind (Triple.mapError (Workers.request_qualified env.workers _ rfl fun _ _ => .inl trivial))
      fun response => ?_
    split
    · refine Triple.bind (R := fun _ => Qualified p supervisor) (Triple.lift (fun _ _ _ h => h) fun _ h => h.2) fun _ => ?_
      dsimp only
      split
      · exact ih _ _ _ _
      · exact Triple.bind (R := fun _ => Disciplined) (Triple.read fun _ h => h.2) fun _ => Triple.pure fun _ h => h
    · exact Triple.fail fun _ h => h.2

theorem discoverDependencyCatalog_disciplined (launch : WorkerLaunch) :
    Triple Disciplined (discoverDependencyCatalog env.workers env.pages launch manifest executionPlan)
      (fun _ => Disciplined) Disciplined := by
  refine Triple.bind (newSupervisor_disciplined launch) fun supervisor => ?_
  exact Triple.bind (Triple.mapError (Workers.handshake_qualified env.workers _)) fun _ =>
    discoverPages_disciplined env manifest executionPlan _ _ _ _ _

theorem spawnDependencyLane_orderly (launch : WorkerLaunch) :
    Orderly Disciplined (spawnDependencyLane env manifest executionPlan launch) Disciplined :=
  Triple.bind (Triple.on_second (Triple.attempt ((discoverDependencyCatalog_disciplined env manifest executionPlan
    launch).weaken fun _ h _ => h))) fun _ => Triple.pure fun _ h => h

theorem removeSnapshot_offWorkers (sourceUnit : SourceUnitId) : OffWorkers (removeSnapshot env sourceUnit) :=
  OffWorkers.first _

theorem putManifest_offWorkers : OffWorkers (putManifest env manifest) := OffWorkers.first _

theorem joinDependencyLane_offWorkers (lane : DependencyLane) (run : IndexRun) :
    OffWorkers (joinDependencyLane env lane run) := by
  cases lane with
  | none => exact OffWorkers.pure run
  | some outcome =>
    exact (OffWorkers.lift outcome).bind fun _ => (OffWorkers.first _).bind fun _ => OffWorkers.pure _

theorem applyActions_offWorkers (actions : List IndexAction) : OffWorkers (applyActions env actions) := by
  refine OffWorkers.foldlM (fun state action _ => ?_) _
  cases action with
  | remove sourceUnit => exact (removeSnapshot_offWorkers env sourceUnit).bind fun _ => OffWorkers.pure _
  | _ => exact OffWorkers.pure _

theorem planActions_offWorkers (current : List SourceUnit) (bySource : List IndexAction) (provenance : Option Provenance) :
    OffWorkers (planActions env current bySource provenance) := by
  cases provenance with
  | none => exact OffWorkers.pure bySource
  | some provenance => exact OffWorkers.first _

theorem planEntries_offWorkers (snapshots : List FileAnalysisSnapshot) (reanalyze : List SourceUnit) :
    OffWorkers (planEntries env snapshots reanalyze) := by
  refine (OffWorkers.first _).bind fun inputs => OffWorkers.foldlM (fun entries expected _ => ?_) _
  refine (OffWorkers.first _).bind fun entry => ?_
  cases entry with
  | none => exact OffWorkers.fail _
  | some entry => exact OffWorkers.pure _

theorem invalidateDependents_offWorkers (reanalyze : List SourceUnit) (dependents : List SourceUnitId) (run : IndexRun) :
    OffWorkers (invalidateDependents env reanalyze dependents run) := by
  refine OffWorkers.foldlM (fun run dependent _ => ?_) run
  split
  · exact OffWorkers.pure run
  · exact (removeSnapshot_offWorkers env dependent).bind fun _ => OffWorkers.pure _

theorem analyzeBatch_orderly {requestId : String} (requested : List SourceUnit)
    (h : (∀ capabilities, p capabilities → .fileAnalysisSnapshot ∈ capabilities.capabilities) ∨
      requestId = "index-batch") :
    Orderly (Qualified p supervisor) (analyzeBatch env manifest executionPlan supervisor requestId requested)
      (Qualified p supervisor) := by
  have hsupported : ∀ capabilities, p capabilities →
      (WorkerEnvelope.new requestId (analyzeBatchRequest manifest executionPlan requested)).message.SupportedBy capabilities ∨
        (WorkerEnvelope.new requestId (analyzeBatchRequest manifest executionPlan requested)).Unchecked :=
    fun capabilities hp => h.imp (fun h => h capabilities hp) fun hid => ⟨rfl, hid⟩
  refine Triple.bind (Orderly.onWorkers (Workers.request_qualified env.workers _ rfl hsupported)) fun response => ?_
  split
  · refine Triple.bind ((OffWorkers.first _).orderly fun _ h => h.2) fun _ => ?_
    exact (OffWorkers.lift _).orderly fun _ h => h.2
  · exact Triple.fail fun _ h => h.2

theorem analyzeAndCommit_orderly (launch : WorkerLaunch) (reanalyze : List SourceUnit) (run : IndexRun) :
    Orderly Disciplined (analyzeAndCommit env manifest executionPlan launch reanalyze run) Disciplined := by
  refine Triple.bind (Triple.on_second (newSupervisor_disciplined launch)) fun supervisor => ?_
  refine Triple.bind (Triple.on_second (Triple.mapError (Workers.handshake_qualified env.workers _))) fun _ => ?_
  refine Triple.bind (analyzeBatch_orderly env manifest executionPlan reanalyze (.inr rfl)) fun snapshots => ?_
  have hcommit : OffWorkers (do
      let planned ← planEntries env snapshots reanalyze
      commitBatch env reanalyze snapshots (planned.map fun entry => (entry.expected, entry.snapshot))
      let run ← invalidateDependents env reanalyze (planned.flatMap (·.apiDependents))
        { run with analyzed := run.analyzed + planned.length }
      pure (run, supervisor)) :=
    (planEntries_offWorkers env snapshots reanalyze).bind fun _ => (OffWorkers.first _).bind fun _ =>
      (invalidateDependents_offWorkers env reanalyze _ _).bind fun _ => OffWorkers.pure _
  exact (hcommit.orderly fun _ h => h.2).consequence (fun _ h => h) (fun _ _ h => h.2) fun _ h => h

theorem indexBatch_orderly (current : List SourceUnit) (launch : WorkerLaunch) (provenance : Option Provenance) :
    Orderly Disciplined (indexBatch env manifest executionPlan current launch provenance) Disciplined := by
  refine Triple.bind (OffWorkers.first _).disciplined fun bySource => ?_
  refine Triple.bind (OffWorkers.first _).disciplined fun latest => ?_
  refine Triple.bind (planActions_offWorkers env current bySource provenance).disciplined fun actions => ?_
  refine Triple.bind (applyActions_offWorkers env actions).disciplined ?_
  rintro ⟨run, reanalyze⟩
  refine Triple.bind (R := fun _ s => Disciplined s.2) ?_ fun lane => ?_
  · exact Triple.ite (fun _ => spawnDependencyLane_orderly env manifest executionPlan launch) fun _ => Triple.pure fun _ h => h
  refine Triple.ite (fun _ => ?_) fun _ => ?_
  · refine Triple.bind (joinDependencyLane_offWorkers env lane run).disciplined fun run => ?_
    exact Triple.bind (putManifest_offWorkers env manifest).disciplined fun _ => Triple.pure fun _ h => h
  · refine Triple.bind (analyzeAndCommit_orderly env manifest executionPlan launch reanalyze run) ?_
    rintro ⟨run, supervisor⟩
    refine Triple.bind (joinDependencyLane_offWorkers env lane run).disciplined fun run => ?_
    refine Triple.bind (putManifest_offWorkers env manifest).disciplined fun _ => ?_
    exact Triple.bind (R := fun _ s => Disciplined s.2) (Triple.on_second (Triple.read fun _ h => h)) fun _ =>
      Triple.pure fun _ h => h

/-! ## The supervisors of the selected path -/

/-- What `is_running` vouches for: a process that runs has advertised file analysis. -/
def Ready (handle : Handle) (workers : Workers) : Prop :=
  Alive handle workers → Handshaken (fun capabilities => .fileAnalysisSnapshot ∈ capabilities.capabilities) handle workers

theorem Extends.ready {allowed : WorkerEvent → Prop} {handle other : Handle} {a b : Workers}
    (h : Extends allowed handle a b) (hother : other ≠ handle) (ha : Ready other a) : Ready other b := by
  intro halive
  unfold Alive at halive
  rw [h.others other hother] at halive
  obtain ⟨capabilities, hversion, hp, hserving⟩ := ha halive
  exact ⟨capabilities, hversion, hp, h.serving hother hserving⟩

theorem isRunning_ready {ε : Type} {handle : Handle} :
    Triple (Ready handle) (Workers.isRunning env.workers handle : Run Workers ε Bool)
      (fun running workers => running = true →
        Handshaken (fun capabilities => .fileAnalysisSnapshot ∈ capabilities.capabilities) handle workers)
      (fun _ => True) := by
  have hdiscard : Triple (Ready handle) (Workers.discardExited env.workers handle : Run Workers ε Bool)
      (fun _ => Ready handle) (fun _ => True) := by
    refine Triple.bind (R := fun _ => Ready handle) (fun _ h => h) fun tick => ?_
    refine Triple.bind Workers.running_triple fun running => ?_
    refine Triple.ite (fun _ => ?_) fun _ => Triple.pure fun _ h => h.1
    refine Triple.bind (R := fun _ => Ready handle) (Triple.update fun workers _ halive => ?_) fun _ => Triple.pure fun _ h => h
    -- nothing runs behind a stopped handle
    simp only [Alive, Workers.setRunning, Function.update_self] at halive
    cases halive
  refine Triple.bind hdiscard fun _ => Triple.bind Workers.running_triple fun running => Triple.pure fun workers h hrunning => ?_
  rw [h.2] at hrunning
  exact h.1 hrunning

theorem ensureCompatible_orderly (batch : WorkerBatch) (batchIndex : Nat) :
    Orderly (fun workers => Ready supervisor workers ∧ Disciplined workers) (ensureCompatible env batch batchIndex supervisor)
      (Qualified (fun capabilities => .fileAnalysisSnapshot ∈ capabilities.capabilities) supervisor) := by
  refine Triple.bind (Triple.on_second (Triple.mapError ((Workers.isRunning_stays env.workers).and_disciplined
    (isRunning_ready env)))) fun running => ?_
  refine Triple.ite (fun hrunning => Triple.pure fun _ h => ⟨h.1 hrunning, h.2⟩) fun _ => ?_
  refine Triple.consequence (Triple.bind (Triple.on_second (Triple.mapError (Workers.handshake_qualified env.workers _)))
    fun capabilities => ?_) (fun _ h => h.2) (fun _ _ h => h) fun _ h => h
  refine Triple.ite (fun hcompatible => Triple.pure fun _ h => ⟨h.1.mono ?_, h.2⟩) fun _ => Triple.fail fun _ h => h.2
  rintro _ rfl
  exact hcompatible.2

theorem analyzeSelectedBatch_orderly (batch : WorkerBatch) (requested : List SourceUnit) (batchIndex : Nat) (run : IndexRun) :
    Orderly (fun workers => Ready supervisor workers ∧ Disciplined workers)
      (analyzeSelectedBatch env manifest executionPlan batch requested batchIndex supervisor run)
      (Qualified (fun capabilities => .fileAnalysisSnapshot ∈ capabilities.capabilities) supervisor) := by
  refine Triple.bind (ensureCompatible_orderly env batch batchIndex) fun _ => ?_
  refine Triple.bind (analyzeBatch_orderly env manifest executionPlan requested (.inl fun _ h => h)) fun snapshots => ?_
  exact Triple.bind ((OffWorkers.first _).orderly fun _ h => h.2) fun _ => Triple.pure fun _ h => h

/-- A run that touches no supervisor but one. -/
abbrev Touches {ε α : Type} (supervisor : Handle) (x : Run (Index × Workers) ε α) : Prop :=
  Within (fun s s' => Extends (fun _ => True) supervisor s.2 s'.2) x

theorem Touches.bind {ε α β : Type} {x : Run (Index × Workers) ε β} {f : β → Run (Index × Workers) ε α}
    (hx : Touches supervisor x) (hf : ∀ b, Touches supervisor (f b)) : Touches supervisor (x >>= f) :=
  Within.bind (R := fun s s' : Index × Workers => Extends (fun _ => True) supervisor s.2 s'.2)
    (fun _ _ _ => Extends.trans) hx hf

theorem OffWorkers.touches {ε α : Type} {x : Run (Index × Workers) ε α} (h : OffWorkers x) (supervisor : Handle) :
    Touches supervisor x := by
  intro s
  have hsame : (x s).2.2 = s.2 := h s
  change Extends _ _ _ (x s).2.2
  rw [hsame]
  exact Extends.refl _ _ _

theorem Stays.touches {α : Type} {allowed : WorkerEvent → Prop} {x : WorkerRun α} (h : Stays allowed supervisor x) :
    Touches supervisor (onWorkers x) := fun s =>
  (Within.mapError (g := IndexOrchestratorError.worker) h s.2).mono fun _ _ => trivial

theorem ensureCompatible_touches (batch : WorkerBatch) (batchIndex : Nat) :
    Touches supervisor (ensureCompatible env batch batchIndex supervisor) := by
  have hrunning : Stays WorkerEvent.Quiet supervisor (Workers.isRunning env.workers supervisor : WorkerRun Bool) :=
    Workers.isRunning_stays env.workers
  refine hrunning.touches.bind fun running => ?_
  split
  · exact (OffWorkers.pure ()).touches supervisor
  · refine (Workers.handshake_stays env.workers _).touches.bind fun capabilities => ?_
    split
    · exact (OffWorkers.pure ()).touches supervisor
    · exact (OffWorkers.fail _).touches supervisor

theorem analyzeBatch_touches (requestId : String) (requested : List SourceUnit) :
    Touches supervisor (analyzeBatch env manifest executionPlan supervisor requestId requested) := by
  refine (Workers.request_stays env.workers _).touches.bind fun response => ?_
  split
  · exact ((OffWorkers.first _).bind fun _ => OffWorkers.lift _).touches supervisor
  · exact (OffWorkers.fail _).touches supervisor

theorem analyzeSelectedBatch_touches (batch : WorkerBatch) (requested : List SourceUnit) (batchIndex : Nat) (run : IndexRun) :
    Touches supervisor (analyzeSelectedBatch env manifest executionPlan batch requested batchIndex supervisor run) := by
  refine (ensureCompatible_touches env batch batchIndex).bind fun _ => ?_
  refine (analyzeBatch_touches env manifest executionPlan _ requested).bind fun snapshots => ?_
  exact ((OffWorkers.first _).bind fun _ => OffWorkers.pure _).touches supervisor

/-- The invariant of the loop over the batches. -/
def AllReady (supervisors : Supervisors) (workers : Workers) : Prop :=
  (∀ entry ∈ supervisors, Ready entry.2 workers) ∧ Disciplined workers

theorem newSupervisor_ready {ε : Type} (launch : WorkerLaunch) (supervisors : Supervisors) :
    Triple (AllReady supervisors) (Workers.newSupervisor launch : Run Workers ε Handle)
      (fun handle workers => AllReady (supervisors ++ [(launch, handle)]) workers) Disciplined := by
  refine fun workers h => ⟨fun entry hentry => ?_, h.2⟩
  by_cases hnew : entry.2 = workers.created
  · intro halive
    simp only [Alive, hnew, Function.update_self] at halive
    cases halive
  · rcases List.mem_append.1 hentry with hentry | hentry
    · intro halive
      simp only [Alive, Function.update_of_ne hnew] at halive
      obtain ⟨capabilities, hversion, hp, hserving⟩ := h.1 entry hentry halive
      refine ⟨capabilities, hversion, hp, fun hcalm => ?_⟩
      simpa only [Function.update_of_ne hnew] using hserving hcalm
    · exact absurd (congrArg Prod.snd (List.mem_singleton.1 hentry)) hnew

theorem supervisorFor_ready (supervisors : Supervisors) (launch : WorkerLaunch) :
    Triple (fun s => AllReady supervisors s.2) (supervisorFor supervisors launch)
      (fun found s => AllReady found.1 s.2 ∧ ∃ key, (key, found.2) ∈ found.1) (fun s => Disciplined s.2) := by
  unfold supervisorFor
  split
  · next entry hfind => exact Triple.pure fun _ h => ⟨h, entry.1, List.mem_of_find?_eq_some hfind⟩
  · refine Triple.bind (Triple.on_second (newSupervisor_ready launch supervisors)) fun handle => Triple.pure fun _ h => ?_
    exact ⟨h, launch, List.mem_append_right _ List.mem_cons_self⟩

theorem runSelectedBatch_ready (reanalyze : List SourceUnit) (state : IndexRun × Supervisors) (indexed : WorkerBatch × Nat) :
    Triple (fun s => AllReady state.2 s.2) (runSelectedBatch env manifest executionPlan reanalyze state indexed)
      (fun state s => AllReady state.2 s.2) (fun s => Disciplined s.2) := by
  refine Triple.ite (fun _ => Triple.pure fun _ h => h) fun _ => ?_
  refine Triple.bind (supervisorFor_ready _ _) ?_
  rintro ⟨supervisors, supervisor⟩
  -- the supervisors that are not this batch's stay as they are
  have hbatch := Within.and_triple (F := fun s => ∀ entry ∈ supervisors, entry.2 ≠ supervisor → Ready entry.2 s.2)
    (analyzeSelectedBatch_touches env manifest executionPlan indexed.1 _ indexed.2 state.1)
    (fun _ _ hextends hready entry hentry hother => hextends.ready hother (hready entry hentry hother))
    (analyzeSelectedBatch_orderly env manifest executionPlan indexed.1
      (indexed.1.sourceUnits.filter fun source => source.id ∈ reanalyze.map (·.id)) indexed.2 state.1)
  refine Triple.bind (hbatch.consequence ?_ (fun _ _ h => h) fun _ h => h.1) fun run => Triple.pure fun s h => ⟨?_, h.1.2⟩
  · rintro s ⟨⟨hready, hdisciplined⟩, key, hmem⟩
    exact ⟨⟨hready _ hmem, hdisciplined⟩, fun entry hentry _ => hready entry hentry⟩
  · intro entry hentry
    by_cases hsame : entry.2 = supervisor
    · exact fun _ => hsame ▸ h.1.1
    · exact h.2 entry hentry hsame

theorem indexSelectedBatches_orderly (current : List SourceUnit) (selection : WorkerSelection) :
    Orderly Disciplined (indexSelectedBatches env manifest executionPlan current selection) Disciplined := by
  refine Triple.bind (OffWorkers.lift _).disciplined fun _ => Triple.ite (fun _ => Triple.fail fun _ h => h) fun _ => ?_
  refine Triple.bind (OffWorkers.first _).disciplined fun actions => ?_
  refine Triple.bind (OffWorkers.first _).disciplined fun latest => ?_
  refine Triple.bind (applyActions_offWorkers env actions).disciplined ?_
  rintro ⟨run, reanalyze⟩
  have hlane : ∀ needed, Orderly Disciplined (selectedLane env manifest executionPlan selection needed) Disciplined := by
    refine fun needed => Triple.ite (fun _ => ?_) fun _ => Triple.pure fun _ h => h
    split
    · exact spawnDependencyLane_orderly env manifest executionPlan _
    · exact Triple.fail fun _ h => h
  refine Triple.bind (hlane _) fun lane => ?_
  have hloop := Triple.foldlM (l := selection.batches.zipIdx) (fun state indexed _ =>
    runSelectedBatch_ready env manifest executionPlan reanalyze state indexed) (run, [])
  refine Triple.bind (hloop.consequence (fun _ h => ⟨fun _ hentry => (nomatch hentry), h⟩) (fun _ _ h => h.2) fun _ h => h) ?_
  rintro ⟨run, supervisors⟩
  refine Triple.bind (joinDependencyLane_offWorkers env lane run).disciplined fun run => ?_
  refine Triple.bind (R := fun _ s => Disciplined s.2) (Triple.on_second (Triple.read fun _ h => h)) fun workers => ?_
  exact Triple.bind (putManifest_offWorkers env manifest).disciplined fun _ => Triple.pure fun _ h => h

theorem IndexPath.run_orderly (path : IndexPath) (current : List SourceUnit) :
    Orderly Disciplined (path.run env manifest executionPlan current) Disciplined := by
  cases path with
  | selectedBatches selection => exact indexSelectedBatches_orderly env manifest executionPlan current selection
  | singleBatch launch provenance =>
    cases provenance with
    | none => exact indexBatch_orderly env manifest executionPlan current launch none
    | some provenance =>
      exact Triple.bind (OffWorkers.lift _).disciplined fun _ =>
        indexBatch_orderly env manifest executionPlan current launch (some provenance)

end

/-! ## The command -/

section
variable (env : CommandEnvironment) (command : IndexCommand) {p : WorkerCapabilities → Prop} {supervisor : Handle}

theorem materializeArtifact_orderly (cache : ArtifactBlobCache) (env : Environment) (workspaceRoot : WorkspacePath)
    (stagingDirectory : String) (artifact : ArtifactDescriptor) (artifactLocator : Option String) (requestId : String) :
    Orderly (Qualified p supervisor)
      (materializeArtifact cache env supervisor workspaceRoot stagingDirectory artifact artifactLocator requestId)
      (Qualified p supervisor) := by
  refine Triple.bind ((OffWorkers.first _).orderly fun _ h => h.2) fun cached => ?_
  refine Triple.ite (fun _ => Triple.pure fun _ h => h) fun _ => ?_
  refine Triple.bind (Orderly.onWorkers (Workers.request_qualified env.workers _ rfl fun _ _ => .inl trivial))
    fun response => ?_
  split
  · exact (OffWorkers.first _).orderly fun _ h => h.2
  · exact Triple.fail fun _ h => h.2

theorem cacheCatalogArtifact_orderly (cache : ArtifactBlobCache) (env : Environment) (workspaceRoot : WorkspacePath)
    (stagingDirectory : String) (sourceUnit : SourceUnitId) (artifactLocator : Option String) (remainingArtifacts : Nat) :
    Orderly (Qualified p supervisor)
      (cacheCatalogArtifact cache env supervisor workspaceRoot stagingDirectory sourceUnit artifactLocator remainingArtifacts)
      (Qualified p supervisor) := by
  refine Triple.bind ((OffWorkers.first _).orderly fun _ h => h.2) fun descriptor => ?_
  cases descriptor with
  | none => exact Triple.pure fun _ h => h
  | some descriptor =>
    refine Triple.bind ((OffWorkers.first _).orderly fun _ h => h.2) fun cached => ?_
    refine Triple.ite (fun _ => Triple.pure fun _ h => h) fun _ => Triple.ite (fun _ => Triple.pure fun _ h => h) fun _ => ?_
    refine Triple.bind (materializeArtifact_orderly cache env _ _ _ _ _) fun promoted => ?_
    refine Triple.bind ((OffWorkers.first _).orderly fun _ h => h.2) fun tick => ?_
    split
    · exact Triple.bind ((OffWorkers.first _).orderly fun _ h => h.2) fun _ => Triple.pure fun _ h => h
    · exact Triple.fail fun _ h => h.2
    · exact Triple.fail fun _ h => h.2

theorem requestProjectManifest_orderly :
    Orderly (Qualified p supervisor) (requestProjectManifest env supervisor) (Qualified p supervisor) := by
  refine Triple.bind (Triple.mapError (Orderly.onWorkers (Workers.request_qualified env.workers _ rfl fun _ _ =>
    .inl trivial))) fun response => ?_
  split
  · exact Triple.pure fun _ h => h
  · exact Triple.fail fun _ h => h.2

theorem onStore_offWorkers {α : Type} (question : IndexStore → α) : OffWorkers (onStore env question) :=
  Within.mapError (OffWorkers.first _)

theorem resolvePlan_orderly (installation : WorkerInstallation) (changes : ConfigurationInputReconciliation) :
    Orderly Disciplined (resolvePlan env command installation changes) Disciplined := by
  refine Triple.bind (R := fun _ s => Disciplined s.2) ?_ fun cached => ?_
  · exact Triple.ite (fun _ => (onStore_offWorkers env _).disciplined) fun _ => Triple.pure fun _ h => h
  cases cached with
  | some manifest => exact Triple.pure fun _ h => h
  | none =>
    refine Triple.bind (Triple.on_second (newSupervisor_disciplined installation.launch)) fun supervisor => ?_
    refine Triple.bind (Triple.mapError (Triple.on_second (Triple.mapError (Workers.handshake_qualified env.workers _))))
      fun _ => ?_
    exact (requestProjectManifest_orderly env).consequence (fun _ h => h) (fun _ _ h => h.2) fun _ h => h

theorem discoverArtifactLocators_orderly (executionPlan : OpaqueExecutionPlan) (fuel page : Nat) (cursor : Option String)
    (locators : List ArtifactLocator) :
    Orderly (Qualified p supervisor) (discoverArtifactLocators env supervisor executionPlan fuel page cursor locators)
      (Qualified p supervisor) := by
  induction fuel generalizing page cursor locators with
  | zero => exact Triple.fail fun _ h => h.2
  | succ fuel ih =>
    refine Triple.bind (Triple.mapError (Orderly.onWorkers (Workers.request_qualified env.workers _ rfl fun _ _ =>
      .inl trivial))) fun response => ?_
    split
    · refine Triple.bind ((OffWorkers.lift _).orderly fun _ h => h.2) fun locators => ?_
      split
      · exact ih _ _ _
      · exact Triple.pure fun _ h => h
    · exact Triple.fail fun _ h => h.2

theorem cacheArtifacts_orderly (workspaceRoot : WorkspacePath)
    {locatorOf : ArtifactDescriptor → Except CommandError (Option String)}
    {afterwards : ArtifactDescriptor → MaterializationOutcome → CommandRun Unit}
    (hafterwards : ∀ descriptor outcome, OffWorkers (afterwards descriptor outcome)) (descriptors : List ArtifactDescriptor)
    (remainingArtifacts : Nat) :
    Orderly (Qualified p supervisor)
      (cacheArtifacts env command supervisor workspaceRoot locatorOf afterwards descriptors remainingArtifacts)
      (Qualified p supervisor) := by
  induction descriptors generalizing remainingArtifacts with
  | nil => exact Triple.pure fun _ h => h
  | cons descriptor rest ih =>
    refine Triple.bind ((OffWorkers.lift _).orderly fun _ h => h.2) fun artifactLocator => ?_
    refine Triple.bind (Triple.mapError (cacheCatalogArtifact_orderly env.cache env.toEnvironment _ _ _ _ _)) ?_
    rintro ⟨outcome, remainingArtifacts⟩
    refine Triple.ite (fun _ => Triple.pure fun _ h => h) fun _ => ?_
    exact Triple.bind ((hafterwards descriptor outcome).orderly fun _ h => h.2) fun _ => ih _

theorem materializeArtifacts_orderly (warmLimit : Nat) :
    Orderly Disciplined (materializeArtifacts env command warmLimit) Disciplined := by
  refine Triple.bind (onStore_offWorkers env _).disciplined fun descriptors => ?_
  refine Triple.bind (OffWorkers.lift _).disciplined fun installation => ?_
  refine Triple.bind (Triple.on_second (newSupervisor_disciplined installation.launch)) fun supervisor => ?_
  refine Triple.bind (Triple.mapError (Triple.on_second (Triple.mapError (Workers.handshake_qualified env.workers _))))
    fun _ => ?_
  refine Triple.bind (requestProjectManifest_orderly env) fun resolved => ?_
  refine Triple.bind (discoverArtifactLocators_orderly env _ _ _ _ _) fun locators => ?_
  refine Triple.bind (cacheArtifacts_orderly env command _ (fun _ _ => OffWorkers.pure ()) _ _) fun _ => ?_
  exact Triple.bind ((onStore_offWorkers env _).orderly fun _ h => h.2) fun _ => Triple.pure fun _ h => h.2

theorem readBack_offWorkers (descriptor : ArtifactDescriptor) (outcome : MaterializationOutcome) :
    OffWorkers (readBack env descriptor outcome) := by
  unfold readBack
  split
  · refine (OffWorkers.first _).bind fun tick => ?_
    split
    · exact OffWorkers.pure _
    · exact OffWorkers.pure _
    · exact OffWorkers.fail _
  · exact OffWorkers.pure _

theorem warmDependencies_orderly (manifest : ProjectManifest) (launch : WorkerLaunch) (persisted : List ArtifactDescriptor)
    (locators : List ArtifactLocator) (warmLimit : Nat) :
    Orderly Disciplined (warmDependencies env command manifest launch persisted locators warmLimit) Disciplined := by
  refine Triple.bind (onStore_offWorkers env _).disciplined fun descriptors => ?_
  refine Triple.bind (OffWorkers.first _).disciplined fun tick => ?_
  refine Triple.ite (fun _ => Triple.pure fun _ h => h) fun _ => ?_
  refine Triple.bind (Triple.on_second (newSupervisor_disciplined launch)) fun supervisor => ?_
  refine Triple.bind (Triple.mapError (Triple.on_second (Triple.mapError (Workers.handshake_qualified env.workers _))))
    fun _ => ?_
  exact (cacheArtifacts_orderly env command _ (readBack_offWorkers env) _ _).consequence (fun _ h => h) (fun _ _ h => h.2)
    fun _ h => h

theorem selectWithBatchLimit_disciplined (env : WorkerEnvironment) (installations : List WorkerInstallation)
    (manifest : ProjectManifest) (sources : List SourceUnit) (required : List WorkerCapability) (limit : BatchLimit) :
    Triple Disciplined (selectWithBatchLimit env installations manifest sources required limit) (fun _ => Disciplined)
      Disciplined := by
  refine Triple.bind (R := fun _ => Disciplined) ?_ fun discovered => Triple.pure fun _ h => h
  refine Triple.foldlM (R := fun _ => Disciplined) (fun discovered installation _ => ?_) []
  refine Triple.bind (newSupervisor_disciplined installation.launch) fun supervisor => ?_
  exact Triple.bind (Triple.mapError (Workers.handshake_qualified env _)) fun _ => Triple.pure fun _ h => h.2

theorem forceReanalysis_offWorkers : OffWorkers (forceReanalysis env command) := by
  unfold forceReanalysis
  split
  · induction command.sourceUnits with
    | nil => exact OffWorkers.pure _
    | cons source rest ih => exact OffWorkers.bind (Within.mapError (removeSnapshot_offWorkers _ _)) fun _ => ih
  · exact OffWorkers.pure _

theorem runPath_orderly (manifest : ProjectManifest) (executionPlan : OpaqueExecutionPlan) (sources : List SourceUnit)
    (selection : WorkerSelection) :
    Orderly Disciplined (runPath env manifest executionPlan sources selection) Disciplined := by
  unfold runPath
  split
  · split
    · exact Triple.mapError (IndexPath.run_orderly env.toEnvironment manifest executionPlan (.singleBatch _ (some _)) sources)
    · exact Triple.fail fun _ h => h
  · exact Triple.mapError (indexSelectedBatches_orderly env.toEnvironment manifest executionPlan sources selection)

theorem publish_offWorkers (manifest : ProjectManifest) (sources : List SourceUnit) :
    OffWorkers (publish env command manifest sources) := by
  refine (OffWorkers.lift _).bind fun _ => OffWorkers.bind (Within.mapError (OffWorkers.first _)) fun _ => ?_
  refine (onStore_offWorkers env _).bind fun descriptors => ?_
  exact OffWorkers.bind (Within.mapError (OffWorkers.first _)) fun _ => OffWorkers.pure _

theorem indexSources_orderly (persisted : List ArtifactDescriptor) (changes : ConfigurationInputReconciliation) :
    Orderly Disciplined (indexSources env command persisted changes) Disciplined := by
  refine Triple.bind (OffWorkers.lift _).disciplined fun installation => ?_
  refine Triple.bind (resolvePlan_orderly env command installation changes) fun resolved => ?_
  refine Triple.bind (OffWorkers.lift _).disciplined fun sources => ?_
  refine Triple.bind (OffWorkers.lift _).disciplined fun limit => ?_
  refine Triple.bind (Triple.mapError (Triple.on_second (selectWithBatchLimit_disciplined env.workers _ _ _ _ _)))
    fun selection => ?_
  refine Triple.ite (fun _ => Triple.fail fun _ h => h) fun _ => ?_
  refine Triple.bind (runPath_orderly env _ _ _ _) fun run => ?_
  refine Triple.bind (R := fun _ s => Disciplined s.2) ?_ fun _ => (publish_offWorkers env command _ _).disciplined
  unfold warmIfAsked
  split
  · exact Triple.pure fun _ h => h
  · split
    · exact warmDependencies_orderly env command _ _ _ _ _
    · exact Triple.fail fun _ h => h

theorem indexCommand_orderly : Orderly Disciplined (indexCommand env command) Disciplined := by
  refine Triple.bind (onStore_offWorkers env _).disciplined fun persisted => ?_
  refine Triple.bind (onStore_offWorkers env _).disciplined fun changes => ?_
  refine Triple.bind (forceReanalysis_offWorkers env command).disciplined fun _ => ?_
  refine Triple.bind (OffWorkers.lift _).disciplined fun _ => Triple.ite (fun _ => ?_) fun _ => ?_
  · split
    · exact materializeArtifacts_orderly env command _
    · exact Triple.fail fun _ h => h
  · exact indexSources_orderly env command persisted changes

end

/-! ## Sessions -/

/-- What a client of the workers does; a query is executed as it was planned. -/
inductive SessionOperation where
  | newSupervisor (launch : WorkerLaunch)
  | stop (supervisor : Handle)
  | reapIdle (supervisor : Handle)
  | isRunning (supervisor : Handle)
  | indexPath (path : IndexPath) (manifest : ProjectManifest) (executionPlan : OpaqueExecutionPlan)
      (current : List SourceUnit)
  | indexCommand (command : IndexCommand)
  | semanticQuery (supervisor : Handle) (worker : DiscoveredWorker) (capabilityName : String) (capabilityVersion : Nat)
      (arguments : List SemanticQueryArgument) (candidateSymbols : List SymbolId)
      (candidateSourceUnits : List SourceUnitId) (budget : SemanticQueryBudget) (requestId : String)

section
variable (env : CommandEnvironment) (encodedLen : SemanticQueryResponse → Except AdapterError Nat)

/-- The state an operation leaves, whether it returns or fails. -/
def SessionOperation.run (state : Index × Workers) : SessionOperation → Index × Workers
  | newSupervisor launch => (state.1, ((Workers.newSupervisor launch : Run Workers Empty Handle) state.2).2)
  | stop supervisor => (state.1, ((Workers.stop supervisor : Run Workers Empty Unit) state.2).2)
  | reapIdle supervisor => (state.1, ((Workers.reapIdle env.workers supervisor : Run Workers Empty Bool) state.2).2)
  | isRunning supervisor => (state.1, ((Workers.isRunning env.workers supervisor : Run Workers Empty Bool) state.2).2)
  | indexPath path manifest executionPlan current => (path.run env.toEnvironment manifest executionPlan current state).2
  | indexCommand command => (Kide.indexCommand env command state).2
  | semanticQuery supervisor worker name version arguments symbols units budget requestId =>
    match planSemanticCapability worker name version arguments symbols units budget with
    | .ok plan => (state.1, (executeSemanticCapability env.workers encodedLen supervisor plan requestId state.2).2)
    | .error _ => state

def runSession (operations : List SessionOperation) (state : Index × Workers) : Index × Workers :=
  operations.foldl (SessionOperation.run env encodedLen) state

theorem SessionOperation.run_disciplined (operation : SessionOperation) {state : Index × Workers}
    (h : Disciplined state.2) : Disciplined (operation.run env encodedLen state).2 := by
  cases operation with
  | newSupervisor launch => exact h
  | stop supervisor => exact h
  | reapIdle supervisor => exact (Workers.reapIdle_stays env.workers state.2).disciplined h
  | isRunning supervisor => exact (Workers.isRunning_stays env.workers state.2).disciplined h
  | indexPath path manifest executionPlan current =>
    exact Triple.final (IndexPath.run_orderly env.toEnvironment manifest executionPlan path current) h
  | indexCommand command => exact Triple.final (indexCommand_orderly env command) h
  | semanticQuery supervisor worker name version arguments symbols units budget requestId =>
    cases hplan : planSemanticCapability worker name version arguments symbols units budget with
    | error e => simpa only [SessionOperation.run, hplan] using h
    | ok plan =>
      have hrun := Triple.final (executeSemanticCapability_disciplined env.workers encodedLen supervisor
        (planSemanticCapability_consistent hplan) requestId) h
      simpa only [SessionOperation.run, hplan] using hrun

theorem runSession_disciplined (operations : List SessionOperation) {state : Index × Workers} (h : Disciplined state.2) :
    Disciplined (runSession env encodedLen operations state).2 := by
  induction operations generalizing state with
  | nil => exact h
  | cons operation operations ih => exact ih (operation.run_disciplined env encodedLen h)

/-- **Handshake before work.** In every calm session, work is only written to a process that has itself
answered a compatible handshake. -/
theorem sessions_handshake_before_work (operations : List SessionOperation) (index : Index)
    (hcalm : Calm (runSession env encodedLen operations (index, noWorkers)).2.log) :
    HandshakeBeforeWork (runSession env encodedLen operations (index, noWorkers)).2.log :=
  runSession_disciplined env encodedLen operations (fun _ => .nil) hcalm

end

/-! ## A worker that exits after its handshake -/

/-- A worker for one file that has exited at some of the ticks. -/
def exitingWorker (exited : Nat → Bool) : CommandEnvironment :=
  { sampleEnvironment { answering (fun _ => [emptySnapshot (sampleUnit "A.kt" "sha256:a")]) with exited } with
    cache := ⟨fun _ _ => .absent, fun _ => true, fun _ _ => none, fun _ => true, fun _ => ⟨"sha256:key"⟩⟩
    sha256 := id }

def sampleOperations : List SessionOperation :=
  [.indexPath (.selectedBatches (sampleSelection [sampleUnit "A.kt" "sha256:a"])) sampleManifest samplePlan
    [sampleUnit "A.kt" "sha256:a"]]

theorem steady_worker_handshakes_first :
    HandshakeBeforeWork
      (runSession (exitingWorker fun _ => false) (fun _ => .ok 0) sampleOperations (emptyIndex, noWorkers)).2.log :=
  sessions_handshake_before_work (exitingWorker fun _ => false) (fun _ => .ok 0) sampleOperations emptyIndex
    (by decide +kernel)

/-- The worker answers the handshake and exits; its successor gets the batch without one. -/
theorem work_reaches_fresh_worker :
    ¬ ∀ (env : CommandEnvironment) (encodedLen : SemanticQueryResponse → Except AdapterError Nat) (operations : List SessionOperation)
      (index : Index), HandshakeBeforeWork (runSession env encodedLen operations (index, noWorkers)).2.log := by
  intro h
  have hviolated : ¬ HandshakeBeforeWork
      (runSession (exitingWorker fun tick => tick = 22) (fun _ => .ok 0) sampleOperations (emptyIndex, noWorkers)).2.log := by
    decide +kernel
  exact hviolated (h _ _ _ emptyIndex)

end Kide
