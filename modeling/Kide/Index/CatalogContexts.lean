import Kide.Index.Records
import Kide.Store.WorkspaceRecords

/-!
# The contexts of the catalog

Discovery keeps only descriptors of resolved components in their contexts. An index path that does not discover the
artifacts again leaves the catalog it found, and stores its manifest beside it.

* `IndexPath.Rediscovers`: when a path starts the dependency lane, told from the store it begins with;
* `catalog_agrees_iff`: the catalogs that agree with the manifest after a run.
-/

namespace Kide
open Runs Collects Checks

/-- The component of the descriptor is one of the manifest, and its context that of the component. -/
def InContext (manifest : ProjectManifest) (descriptor : ArtifactDescriptor) : Prop :=
  ∃ component, lastOf (·.id) manifest.components descriptor.sourceUnit.component = some component ∧
    descriptor.sourceUnit.context = component.configuration

def CatalogAgrees (manifest : ProjectManifest) (store : IndexStore) : Prop :=
  ∀ descriptor ∈ store.artifactDescriptors, InContext manifest descriptor

/-- The path starts the dependency lane. Only the selected one does for a source that is analyzed again. -/
def IndexPath.Rediscovers (manifest : ProjectManifest) (current : List SourceUnit) (store : IndexStore) : IndexPath → Prop
  | selectedBatches _ => dependencyCatalogNeeded manifest store.latestManifest = true ∨ staleUnits (store.planSources current) ≠ []
  | singleBatch _ _ => dependencyCatalogNeeded manifest store.latestManifest = true

/-! ## Discovery -/

section
variable {manifest : ProjectManifest}

theorem checkDescriptor_ok {descriptor : ArtifactDescriptor} (h : checkDescriptor manifest descriptor = .ok ()) :
    InContext manifest descriptor := by
  unfold checkDescriptor at h
  cases hcomponent : lastOf (·.id) manifest.components descriptor.sourceUnit.component with
  | none =>
    rw [hcomponent] at h
    cases h
  | some component =>
    rw [hcomponent] at h
    dsimp only at h
    by_cases hcontext : descriptor.sourceUnit.context ≠ component.configuration
    · rw [if_pos hcontext] at h
      cases h
    · exact ⟨component, hcomponent, not_not.1 hcontext⟩

theorem checkDescriptors_ok {descriptors : List ArtifactDescriptor}
    (h : descriptors.forM (checkDescriptor manifest) = .ok ()) : ∀ descriptor ∈ descriptors, InContext manifest descriptor := by
  induction descriptors with
  | nil => exact fun _ hd => by cases hd
  | cons descriptor rest ih =>
    obtain ⟨_, hfirst, hrest⟩ := bind_eq_ok_iff.1 h
    exact List.forall_mem_cons.2 ⟨checkDescriptor_ok hfirst, ih hrest⟩

variable (env : WorkerEnvironment) (supervisor : Handle) (executionPlan : OpaqueExecutionPlan)

/-- **Run.** Page by page only descriptors in context come in. -/
theorem discoverPages_returns (fuel page : Nat) (cursor : Option String) {descriptors : List ArtifactDescriptor}
    (locators : List ArtifactLocator) (h : ∀ descriptor ∈ descriptors, InContext manifest descriptor) :
    Returns (fun catalog => ∀ descriptor ∈ catalog.descriptors, InContext manifest descriptor)
      (discoverPages env supervisor manifest executionPlan fuel page cursor descriptors locators) := by
  induction fuel generalizing page cursor descriptors locators with
  | zero => exact Returns.fail
  | succ fuel ih =>
    refine Returns.bind (Returns.trivial _) fun response _ => ?_
    split
    · next answer _ =>
      refine Returns.bind (R := fun _ => ∀ descriptor ∈ answer.artifacts, InContext manifest descriptor)
        (Returns.lift fun _ hok => checkDescriptors_ok hok) fun _ hanswer => ?_
      have hall : ∀ descriptor ∈ descriptors ++ answer.artifacts, InContext manifest descriptor := by
        intro descriptor hd
        rcases List.mem_append.1 hd with hd | hd
        · exact h descriptor hd
        · exact hanswer descriptor hd
      dsimp only
      split
      · exact ih _ _ _ hall
      · refine Returns.bind (Returns.trivial _) fun workers _ => Returns.pure fun descriptor hd => ?_
        exact hall descriptor (lastOf_some _ ((mem_collect _ _).1 hd)).1
    · exact Returns.fail

end

section
variable {env : Environment} {manifest : ProjectManifest} {executionPlan : OpaqueExecutionPlan} {s s' : Index × Workers}

/-- A lane that was started, or none. -/
def LaneAgrees (manifest : ProjectManifest) (started : Prop) (lane : DependencyLane) : Prop :=
  (lane.isSome ↔ started) ∧ ∀ catalog, lane = some (.ok catalog) → ∀ descriptor ∈ catalog.descriptors, InContext manifest descriptor

theorem attempt_ok {σ ε ε' α : Type} {Q : α → Prop} {x : Run σ ε α} (h : Returns Q x) :
    Returns (fun outcome => ∀ a, outcome = .ok a → Q a) (attempt x : Run σ ε' (Except ε α)) := by
  intro s outcome s' hrun a hok
  obtain ⟨houtcome, -⟩ := Prod.mk.inj hrun
  exact h s a (x s).2 (Prod.ext ((Except.ok.inj houtcome).trans hok) rfl)

theorem spawnDependencyLane_returns (launch : WorkerLaunch) :
    Returns (LaneAgrees manifest True) (spawnDependencyLane env manifest executionPlan launch) := by
  have hcatalog : Returns (fun catalog => ∀ descriptor ∈ catalog.descriptors, InContext manifest descriptor)
      (discoverDependencyCatalog env.workers env.pages launch manifest executionPlan) := by
    refine Returns.bind (Returns.trivial _) fun supervisor _ => Returns.bind (Returns.trivial _) fun _ _ => ?_
    exact discoverPages_returns _ _ _ _ _ _ _ fun _ hd => by cases hd
  refine Returns.bind (Returns.second (attempt_ok hcatalog)) fun outcome houtcome => Returns.pure ⟨by simp, ?_⟩
  exact fun catalog hlane => houtcome catalog (Option.some.inj hlane)

theorem noLane_returns : Returns (LaneAgrees manifest False) (pure none : Orchestration DependencyLane) :=
  Returns.pure ⟨by simp, fun _ hlane => by cases hlane⟩

theorem singleLane_returns (launch : WorkerLaunch) (needed : Bool) :
    Returns (LaneAgrees manifest (needed = true)) (singleLane env manifest executionPlan launch needed) := by
  unfold singleLane
  cases needed with
  | true => simpa using spawnDependencyLane_returns launch
  | false => simpa using noLane_returns

theorem selectedLane_returns (selection : WorkerSelection) (needed : Bool) :
    Returns (LaneAgrees manifest (needed = true)) (selectedLane env manifest executionPlan selection needed) := by
  unfold selectedLane
  cases needed with
  | true =>
    rw [if_pos rfl]
    split
    · simpa using spawnDependencyLane_returns _
    · exact Returns.fail
  | false => simpa using noLane_returns

theorem joinDependencyLane_ok {lane : DependencyLane} {run run' : IndexRun}
    (h : joinDependencyLane env lane run s = (.ok run', s')) :
    (lane = none ∧ s'.1.store = s.1.store) ∨
      ∃ catalog, lane = some (.ok catalog) ∧ s'.1.store.artifactCatalog = catalog.descriptors := by
  cases lane with
  | none => exact .inl ⟨rfl, congrArg (fun s : Index × Workers => s.1.store) (run_pure_ok.1 h).2.symm⟩
  | some outcome =>
    right
    obtain ⟨catalog, m, hlift, hrest⟩ := run_bind_ok.1 h
    obtain ⟨rfl, rfl⟩ := lift_ok hlift
    obtain ⟨u, m', hwrite, hpure⟩ := run_bind_ok.1 hrest
    obtain ⟨hwritten, -⟩ := onIndex_write_ok hwrite
    obtain ⟨-, rfl⟩ := run_pure_ok.1 hpure
    have hcatalog := IndexStore.replaceArtifactDescriptors_ok (congrArg Prod.fst hwritten)
    rw [hwritten] at hcatalog
    exact ⟨catalog, rfl, hcatalog⟩

theorem catalogAgrees_congr {store store' : IndexStore} (h : store'.artifactCatalog = store.artifactCatalog) :
    CatalogAgrees manifest store' ↔ CatalogAgrees manifest store := by
  unfold CatalogAgrees IndexStore.artifactDescriptors
  rw [h]

theorem catalogAgrees_iff {store : IndexStore} :
    CatalogAgrees manifest store ↔ ∀ descriptor ∈ store.artifactCatalog, InContext manifest descriptor := by
  unfold CatalogAgrees IndexStore.artifactDescriptors
  simp only [List.mem_insertionSort]

theorem catalog_offFacts : OffFacts IndexStore.artifactCatalog := by
  intro store store' h
  exact (congrArg IndexStore.artifactCatalog h : store'.publication.artifactCatalog = store.publication.artifactCatalog)

/-- A run that returned has left the part as it was. -/
theorem Leaves.returned {ε α δ : Type} {part : IndexStore → δ} {x : Run (Index × Workers) ε α} {a : α} (h : Leaves part x)
    (hrun : x s = (.ok a, s')) : part s'.1.store = part s.1.store := by
  have hpart := h s
  rw [hrun] at hpart
  exact hpart

/-- A joined lane leaves its own descriptors, no lane the old ones. -/
theorem joinDependencyLane_agrees {started : Prop} {lane : DependencyLane} {run run' : IndexRun}
    (hlane : LaneAgrees manifest started lane) (h : joinDependencyLane env lane run s = (.ok run', s')) :
    CatalogAgrees manifest s'.1.store ↔ started ∨ CatalogAgrees manifest s.1.store := by
  rcases joinDependencyLane_ok h with ⟨rfl, hstore⟩ | ⟨catalog, rfl, hcatalog⟩
  · have hnot : ¬ started := fun hstarted => by simpa using hlane.1.2 hstarted
    rw [hstore]
    exact (or_iff_right hnot).symm
  · refine iff_of_true ?_ (.inl (hlane.1.1 rfl))
    rw [catalogAgrees_iff, hcatalog]
    exact hlane.2 catalog rfl

theorem putManifest_agrees (h : putManifest env manifest s = (.ok (), s')) :
    manifest ∈ s'.1.store.projectManifests ∧ (CatalogAgrees manifest s'.1.store ↔ CatalogAgrees manifest s.1.store) := by
  obtain ⟨hwritten, -⟩ := onIndex_write_ok h
  have hstore := IndexStore.putManifest_ok (congrArg Prod.fst hwritten)
  rw [hwritten] at hstore
  have hstore' : s'.1.store = { s.1.store with
      projectManifests := IndexStore.upsert (·.workspace) s.1.store.projectManifests manifest } := hstore
  rw [hstore']
  exact ⟨(IndexStore.mem_upsert_iff _).2 (.inr rfl), catalogAgrees_congr rfl⟩

theorem applyActions_returns (actions : List IndexAction) :
    Returns (fun state => state.2 = staleUnits actions) (applyActions env actions) := by
  let I := fun (done : List IndexAction) (state : IndexRun × List SourceUnit) => state.2 = staleUnits done
  show Returns (I ([] ++ actions)) (applyActions env actions)
  refine Returns.foldlM (fun done state action _ hstate => ?_) rfl
  change state.2 = staleUnits done at hstate
  show Returns (fun state : IndexRun × List SourceUnit => state.2 = staleUnits (done ++ [action])) _
  unfold staleUnits at hstate ⊢
  rw [List.filterMap_append, ← hstate]
  cases action with
  | reuse sourceUnit => exact Returns.pure (List.append_nil _).symm
  | reanalyze sourceUnit reason => exact Returns.pure rfl
  | remove sourceUnit => exact Returns.bind (Returns.trivial _) fun _ _ => Returns.pure (List.append_nil _).symm

/-! ## The paths -/

theorem indexBatch_agrees {current : List SourceUnit} {launch : WorkerLaunch} {provenance : Option Provenance} {run : IndexRun}
    (h : indexBatch env manifest executionPlan current launch provenance s = (.ok run, s')) :
    manifest ∈ s'.1.store.projectManifests ∧ (CatalogAgrees manifest s'.1.store ↔
      dependencyCatalogNeeded manifest s.1.store.latestManifest = true ∨ CatalogAgrees manifest s.1.store) := by
  obtain ⟨bySource, s₁, hsources, h⟩ := run_bind_ok.1 h
  obtain ⟨-, rfl⟩ := onIndex_query_ok hsources
  obtain ⟨latest, s₂, hlatest, h⟩ := run_bind_ok.1 h
  obtain ⟨rfl, rfl⟩ := onIndex_query_ok hlatest
  obtain ⟨actions, s₃, hactions, h⟩ := run_bind_ok.1 h
  have hplans : Leaves id (planActions env current bySource provenance) := planActions_leaves env _ _ _
  have hplanned := hplans.returned hactions
  obtain ⟨⟨run₁, reanalyze⟩, s₄, happlied, h⟩ := run_bind_ok.1 h
  have hremoved := (applyActions_leaves env catalog_offFacts actions).returned happlied
  obtain ⟨lane, s₅, hlane, h⟩ := run_bind_ok.1 h
  have hagrees := singleLane_returns launch _ _ _ _ hlane
  have hspawns : ∀ needed, Leaves id (singleLane env manifest executionPlan launch needed) := singleLane_leaves env _ _ _
  have hspawned := (hspawns _).returned hlane
  have hbefore : s₅.1.store.artifactCatalog = s.1.store.artifactCatalog := by
    rw [show s₅.1.store = s₄.1.store from hspawned, hremoved, show s₃.1.store = s.1.store from hplanned]
  rw [← catalogAgrees_congr hbefore]
  by_cases hnone : reanalyze = []
  · rw [if_pos hnone] at h
    obtain ⟨run₂, s₆, hjoin, h⟩ := run_bind_ok.1 h
    obtain ⟨_, s₇, hput, h⟩ := run_bind_ok.1 h
    obtain ⟨-, rfl⟩ := run_pure_ok.1 h
    obtain ⟨hmanifest, hsame⟩ := putManifest_agrees hput
    exact ⟨hmanifest, hsame.trans (joinDependencyLane_agrees hagrees hjoin)⟩
  · rw [if_neg hnone] at h
    obtain ⟨⟨run₂, supervisor⟩, s₆, hanalyzed, h⟩ := run_bind_ok.1 h
    have hcommitted :=
      (analyzeAndCommit_leaves env manifest executionPlan catalog_offFacts launch reanalyze run₁).returned hanalyzed
    obtain ⟨run₃, s₇, hjoin, h⟩ := run_bind_ok.1 h
    obtain ⟨_, s₈, hput, h⟩ := run_bind_ok.1 h
    obtain ⟨workers, s₉, hread, h⟩ := run_bind_ok.1 h
    obtain ⟨-, rfl⟩ := run_pure_ok.1 h
    obtain ⟨hmanifest, hsame⟩ := putManifest_agrees hput
    have hread' : s₉.1 = s₈.1 := by
      obtain ⟨-, hstate⟩ := Prod.mk.inj hread
      rw [← hstate]
    rw [hread']
    refine ⟨hmanifest, hsame.trans ((joinDependencyLane_agrees hagrees hjoin).trans ?_)⟩
    rw [catalogAgrees_congr hcommitted]

theorem indexSelectedBatches_agrees {current : List SourceUnit} {selection : WorkerSelection} {run : IndexRun}
    (h : indexSelectedBatches env manifest executionPlan current selection s = (.ok run, s')) :
    manifest ∈ s'.1.store.projectManifests ∧ (CatalogAgrees manifest s'.1.store ↔
      (dependencyCatalogNeeded manifest s.1.store.latestManifest = true ∨ staleUnits (s.1.store.planSources current) ≠ []) ∨
        CatalogAgrees manifest s.1.store) := by
  obtain ⟨_, s₀, hplan, hrun⟩ := run_bind_ok.1 h
  obtain ⟨-, hstart⟩ := lift_ok hplan
  rw [hstart] at hrun
  by_cases hunsupported : selection.unsupported ≠ []
  · rw [if_pos hunsupported] at hrun
    cases hrun
  rw [if_neg hunsupported] at hrun
  obtain ⟨actions, s₁, hactions, h⟩ := run_bind_ok.1 hrun
  obtain ⟨hplanned, rfl⟩ := onIndex_query_ok hactions
  obtain ⟨latest, s₂, hlatest, h⟩ := run_bind_ok.1 h
  obtain ⟨rfl, rfl⟩ := onIndex_query_ok hlatest
  obtain ⟨⟨run₁, reanalyze⟩, s₃, happlied, h⟩ := run_bind_ok.1 h
  have hstale : reanalyze = staleUnits actions := applyActions_returns actions _ _ _ happlied
  have hremoved := (applyActions_leaves env catalog_offFacts actions).returned happlied
  obtain ⟨lane, s₄, hlane, h⟩ := run_bind_ok.1 h
  have hagrees := selectedLane_returns selection _ _ _ _ hlane
  have hspawns : ∀ needed, Leaves id (selectedLane env manifest executionPlan selection needed) :=
    selectedLane_leaves env _ _ _
  have hspawned := (hspawns _).returned hlane
  obtain ⟨⟨run₂, supervisors⟩, s₅, hbatches, h⟩ := run_bind_ok.1 h
  have hcommitted := (Leaves.foldlM (fun state indexed _ =>
    runSelectedBatch_leaves env manifest executionPlan catalog_offFacts reanalyze state indexed) _).returned hbatches
  obtain ⟨run₃, s₆, hjoin, h⟩ := run_bind_ok.1 h
  obtain ⟨workers, s₇, hread, h⟩ := run_bind_ok.1 h
  obtain ⟨_, s₈, hput, h⟩ := run_bind_ok.1 h
  obtain ⟨-, rfl⟩ := run_pure_ok.1 h
  obtain ⟨hmanifest, hsame⟩ := putManifest_agrees hput
  have hread' : s₇.1 = s₆.1 := by
    obtain ⟨-, hstate⟩ := Prod.mk.inj hread
    rw [← hstate]
  have hbefore : s₅.1.store.artifactCatalog = s.1.store.artifactCatalog := by
    rw [hcommitted, show s₄.1.store = s₃.1.store from hspawned, hremoved]
  refine ⟨hmanifest, hsame.trans ?_⟩
  rw [hread', joinDependencyLane_agrees hagrees hjoin, catalogAgrees_congr hbefore, Bool.or_eq_true, decide_eq_true_eq, hstale,
    hplanned]

end

/-- **Catalog.** A run of an index path that returns has stored its manifest, and the catalog is in the contexts of that
manifest exactly if the path discovered the artifacts again or the catalog was in them before. -/
theorem catalog_agrees_iff (env : Environment) (manifest : ProjectManifest) (executionPlan : OpaqueExecutionPlan)
    (current : List SourceUnit) (path : IndexPath) (index : Index) (workers : Workers) {run : IndexRun}
    (h : (path.run env manifest executionPlan current (index, workers)).1 = .ok run) :
    let store := (path.run env manifest executionPlan current (index, workers)).2.1.store
    manifest ∈ store.projectManifests ∧ (CatalogAgrees manifest store ↔
      path.Rediscovers manifest current index.store ∨ CatalogAgrees manifest index.store) := by
  have hrun : path.run env manifest executionPlan current (index, workers) =
      (.ok run, (path.run env manifest executionPlan current (index, workers)).2) := Prod.ext h rfl
  cases path with
  | selectedBatches selection => exact indexSelectedBatches_agrees hrun
  | singleBatch launch provenance =>
    cases provenance with
    | none => exact indexBatch_agrees hrun
    | some provenance =>
      obtain ⟨_, s₀, hplan, hbatch⟩ := run_bind_ok.1 hrun
      obtain ⟨-, hstart⟩ := lift_ok hplan
      rw [hstart] at hbatch
      exact indexBatch_agrees hbatch

/-! ## A classpath that changed under the same manifest fingerprint -/

def mainComponent (configuration : String) : Component where
  id := ⟨"app:main"⟩
  name := "main"
  buildSystem := .maven
  root := ⟨"."⟩
  languages := [.kotlin]
  configuration := ⟨configuration⟩

def mavenManifest (configuration : String) : ProjectManifest :=
  { sampleManifest with components := [mainComponent configuration] }

/-- The index of a workspace whose library was discovered in the old context. -/
def oldClasspath : Index :=
  ⟨{ projectManifests := [mavenManifest "sha256:context"]
     artifactCatalog := [BlobOperation.sampleArtifact "sha256:library"] }, 0, []⟩

def newContext : SourceUnit := { sampleUnit "A.kt" "sha256:a" with context := ⟨"sha256:classpath"⟩ }

/-- The run that analyzes the source in its new context. -/
def runNewClasspath (path : IndexPath) : Except IndexOrchestratorError IndexRun × Index × Workers :=
  path.run (sampleEnvironment (answering fun _ => [emptySnapshot newContext])) (mavenManifest "sha256:classpath") samplePlan
    [newContext] (oldClasspath, noWorkers)

theorem runNewClasspath_ok :
    (runNewClasspath (.singleBatch sampleLaunch (some sampleProvenance))).1 = .ok { analyzed := 1, workerStarts := 1 } := by
  decide +kernel

theorem mavenManifest_inContext {configuration : String} {descriptor : ArtifactDescriptor}
    (h : InContext (mavenManifest configuration) descriptor) : descriptor.sourceUnit.context = ⟨configuration⟩ := by
  obtain ⟨component, hcomponent, hcontext⟩ := h
  obtain rfl := List.mem_singleton.1 (lastOf_some _ hcomponent).1
  exact hcontext

/-- The single-batch path analyzes the source again, but keeps the library in its old context. -/
theorem old_context_kept :
    ¬ ∀ (env : Environment) (manifest : ProjectManifest) (executionPlan : OpaqueExecutionPlan) (current : List SourceUnit)
      (path : IndexPath) (index : Index) (workers : Workers) (run : IndexRun),
      (path.run env manifest executionPlan current (index, workers)).1 = .ok run →
        CatalogAgrees manifest (path.run env manifest executionPlan current (index, workers)).2.1.store := by
  intro h
  have hok := runNewClasspath_ok
  unfold runNewClasspath at hok
  have hagrees := h _ _ _ _ _ _ _ _ hok
  have hkept : (runNewClasspath (.singleBatch sampleLaunch (some sampleProvenance))).2.1.store.artifactCatalog =
      [BlobOperation.sampleArtifact "sha256:library"] := by decide +kernel
  unfold runNewClasspath at hkept
  rw [catalogAgrees_iff, hkept] at hagrees
  exact absurd (mavenManifest_inContext (hagrees _ List.mem_cons_self)) (by decide)

/-- The selected path discovers the artifacts again there. -/
theorem new_context_discovered :
    let path := IndexPath.selectedBatches (sampleSelection [newContext])
    mavenManifest "sha256:classpath" ∈ (runNewClasspath path).2.1.store.projectManifests ∧
      (CatalogAgrees (mavenManifest "sha256:classpath") (runNewClasspath path).2.1.store ↔
        path.Rediscovers (mavenManifest "sha256:classpath") [newContext] oldClasspath.store ∨
          CatalogAgrees (mavenManifest "sha256:classpath") oldClasspath.store) := by
  have hok : (runNewClasspath (.selectedBatches (sampleSelection [newContext]))).1 = .ok { analyzed := 1, workerStarts := 2 } := by
    decide +kernel
  unfold runNewClasspath at hok ⊢
  exact catalog_agrees_iff _ _ _ _ _ _ _ hok

end Kide
