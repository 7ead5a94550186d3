import Kide.Index.History

/-!
# What an index path does

Both index paths plan from the stored snapshots, remove, ask workers and commit. Their logs are
described over the finite map `m` of the snapshots stored at the start:

* `IndexPath.requests`: the batches a path asks for, `IndexPath.Entries`: what it commits of an answer,
  `IndexPath.Invalidated`: the dependents it removes;
* `IndexPath.Steps`: what any run has done, wherever it stopped;
* `IndexPath.Progress`: what a run has done that got through its plan and some of its batches;
  `IndexPath.Completed`: what a run has done that returned.

`IndexPath.run_traced` is the one triple the later results start from.
-/

namespace Kide
open Runs Collects

inductive IndexPath where
  | selectedBatches (selection : WorkerSelection)
  | singleBatch (launch : WorkerLaunch) (provenance : Option Provenance)

namespace IndexPath

/-- What the plan of a path knows of the worker. -/
def provenance : IndexPath → Option Provenance
  | selectedBatches _ => none
  | singleBatch _ provenance => provenance

def run (env : Environment) (manifest : ProjectManifest) (executionPlan : OpaqueExecutionPlan)
    (current : List SourceUnit) : IndexPath → Orchestration IndexRun
  | selectedBatches selection => indexSelectedBatches env manifest executionPlan current selection
  | singleBatch launch none => indexBatch env manifest executionPlan current launch none
  | singleBatch launch (some provenance) =>
    indexBatchWithProvenance env manifest executionPlan current launch provenance

def requests (stale : List SourceUnit) : IndexPath → List (List SourceUnit)
  | selectedBatches selection => selection.batches.map fun batch =>
      batch.sourceUnits.filter fun source => source.id ∈ stale.map (·.id)
  | singleBatch _ _ => [stale]

def Entries (requested : List SourceUnit) (answer : List FileAnalysisSnapshot)
    (entries : List (SourceUnit × FileAnalysisSnapshot)) : IndexPath → Prop
  | selectedBatches _ => entries = answer.map fun snapshot => (snapshot.sourceUnit, snapshot)
  | singleBatch _ _ => entries.map (·.1) = requested ∧
      ∀ entry ∈ entries, answer.find? (·.sourceUnit.id = entry.1.id) = some entry.2

end IndexPath

def apiOf (m : SnapshotMap) (u : SourceUnitId) : Option Fingerprint := (m u).bind (·.publicApiFingerprint)

namespace IndexPath

/-- A dependent of a unit that `log` gave another public API. -/
def Invalidated (m : SnapshotMap) (current : List SourceUnit) (actions : List IndexAction) (log : List IndexEvent)
    (u : SourceUnitId) : IndexPath → Prop
  | selectedBatches _ => False
  | singleBatch _ provenance => u ∉ (staleUnits actions).map (·.id) ∧
      ∃ requested answer entries, .committed requested answer entries ∈ log ∧
        ∃ entry ∈ entries, apiOf m entry.1.id ≠ entry.2.publicApiFingerprint ∧
          DependsOn (afterPlan provenance m current) entry.1.id u

section
variable (path : IndexPath) (m : SnapshotMap) (current : List SourceUnit) (actions : List IndexAction)

structure Steps (log : List IndexEvent) : Prop where
  removed : ∀ u, .removed u ∈ log →
    Undiscovered path.provenance m current u ∨ path.Invalidated m current actions log u
  answered : ∀ requested answer, .answered requested answer ∈ log → requested ∈ path.requests (staleUnits actions)
  exchange : ∀ requested answer entries, .committed requested answer entries ∈ log →
    .answered requested answer ∈ log
  validated : ∀ requested answer entries, .committed requested answer entries ∈ log →
    validateBatch requested answer = .ok answer
  entries : ∀ requested answer entries, .committed requested answer entries ∈ log →
    path.Entries requested answer entries
  valid : ∀ requested answer entries, .committed requested answer entries ∈ log →
    ∀ entry ∈ entries, ValidSnapshot entry.1 entry.2

/-- The plan is applied and each batch of `done` was asked for, answered and committed. -/
structure Progress (done : List (List SourceUnit)) (log : List IndexEvent) : Prop extends
    Steps path m current actions log where
  planned : ∀ u, Undiscovered path.provenance m current u → .removed u ∈ log
  asked : ∀ requested ∈ done, requested ≠ [] → ∃ answer, .answered requested answer ∈ log
  paired : ∀ requested answer, .answered requested answer ∈ log →
    ∃ entries, .committed requested answer entries ∈ log

structure Completed (log : List IndexEvent) : Prop extends
    Progress path m current actions (path.requests (staleUnits actions)) log where
  invalidated : ∀ u, path.Invalidated m current actions log u → .removed u ∈ log

end

/-! ## Extending the log -/

section
variable {path : IndexPath} {m : SnapshotMap} {current : List SourceUnit} {actions : List IndexAction}
  {log : List IndexEvent} {done : List (List SourceUnit)} {requested : List SourceUnit}
  {answer : List FileAnalysisSnapshot} {entries : List (SourceUnit × FileAnalysisSnapshot)} {u : SourceUnitId}

theorem Invalidated.cons {event : IndexEvent} (h : path.Invalidated m current actions log u) :
    path.Invalidated m current actions (event :: log) u := by
  cases path with
  | selectedBatches selection => exact h
  | singleBatch launch provenance =>
    obtain ⟨hstale, requested, answer, entries, hmem, hentry⟩ := h
    exact ⟨hstale, requested, answer, entries, List.mem_cons_of_mem _ hmem, hentry⟩

/-- Only a commit invalidates anything new. -/
theorem Invalidated.of_cons {event : IndexEvent} (h : path.Invalidated m current actions (event :: log) u)
    (hevent : ∀ requested answer entries, event ≠ .committed requested answer entries) :
    path.Invalidated m current actions log u := by
  cases path with
  | selectedBatches selection => exact h
  | singleBatch launch provenance =>
    obtain ⟨hstale, requested, answer, entries, hmem, hentry⟩ := h
    have hmem' := (List.mem_cons.1 hmem).resolve_left (hevent requested answer entries).symm
    exact ⟨hstale, requested, answer, entries, hmem', hentry⟩

theorem steps_of_removedBy (path : IndexPath) (hplan : Plans path.provenance m current actions) (h : RemovedBy actions log) :
    path.Steps m current actions log := by
  have hcommitted : ∀ requested answer entries, .committed requested answer entries ∉ log := by
    intro requested answer entries hmem
    obtain ⟨u, hu, -⟩ := h _ hmem
    cases hu
  refine ⟨fun u hu => ?_, fun requested answer hmem => ?_, fun _ _ _ hmem => ?_, fun _ _ _ hmem => ?_,
    fun _ _ _ hmem => ?_, fun _ _ _ hmem => ?_⟩
  · obtain ⟨u', hu', haction⟩ := h _ hu
    cases hu'
    exact .inl ((hplan.remove u).1 haction)
  · obtain ⟨u, hu, -⟩ := h _ hmem
    cases hu
  all_goals exact absurd hmem (hcommitted _ _ _)

theorem progress_of_applied (path : IndexPath) (hplan : Plans path.provenance m current actions) (h : Applied actions log) :
    path.Progress m current actions [] log := by
  refine ⟨path.steps_of_removedBy hplan h.removed, fun u hu => ?_, fun _ hmem => absurd hmem List.not_mem_nil,
    fun requested answer hmem => ?_⟩
  · exact h.complete u ((hplan.remove u).2 hu)
  · obtain ⟨u, hu, -⟩ := h.removed _ hmem
    cases hu

theorem Steps.ask (h : path.Steps m current actions log) (hrequested : requested ∈ path.requests (staleUnits actions)) :
    path.Steps m current actions (.answered requested answer :: log) := by
  have hmem : ∀ {r a e}, .committed r a e ∈ .answered requested answer :: log → .committed r a e ∈ log :=
    fun hmem => (List.mem_cons.1 hmem).resolve_left (by simp)
  refine ⟨fun u hu => ?_, fun r a hr => ?_, fun r a e he => ?_, fun r a e he => h.validated r a e (hmem he),
    fun r a e he => h.entries r a e (hmem he), fun r a e he => h.valid r a e (hmem he)⟩
  · have hu' := (List.mem_cons.1 hu).resolve_left (by simp)
    exact (h.removed u hu').imp_right Invalidated.cons
  · rcases List.mem_cons.1 hr with hr | hr
    · cases hr
      exact hrequested
    · exact h.answered r a hr
  · exact List.mem_cons_of_mem _ (h.exchange r a e (hmem he))

theorem Steps.commit (h : path.Steps m current actions log) (hanswered : .answered requested answer ∈ log)
    (hvalidated : validateBatch requested answer = .ok answer) (hentries : path.Entries requested answer entries)
    (hvalid : ∀ entry ∈ entries, ValidSnapshot entry.1 entry.2) :
    path.Steps m current actions (.committed requested answer entries :: log) := by
  refine ⟨fun u hu => ?_, fun r a hr => ?_, fun r a e he => ?_, fun r a e he => ?_, fun r a e he => ?_,
    fun r a e he => ?_⟩
  · have hu' := (List.mem_cons.1 hu).resolve_left (by simp)
    exact (h.removed u hu').imp_right Invalidated.cons
  · exact h.answered r a ((List.mem_cons.1 hr).resolve_left (by simp))
  all_goals rcases List.mem_cons.1 he with he | he
  · cases he
    exact List.mem_cons_of_mem _ hanswered
  · exact List.mem_cons_of_mem _ (h.exchange r a e he)
  · cases he
    exact hvalidated
  · exact h.validated r a e he
  · cases he
    exact hentries
  · exact h.entries r a e he
  · cases he
    exact hvalid
  · exact h.valid r a e he

/-- A batch asked for, answered and committed. -/
theorem Progress.exchanged (h : path.Progress m current actions done log)
    (hrequested : requested ∈ path.requests (staleUnits actions))
    (hvalidated : validateBatch requested answer = .ok answer) (hentries : path.Entries requested answer entries)
    (hvalid : ∀ entry ∈ entries, ValidSnapshot entry.1 entry.2) :
    path.Progress m current actions (done ++ [requested])
      (.committed requested answer entries :: .answered requested answer :: log) := by
  refine ⟨(h.toSteps.ask hrequested).commit List.mem_cons_self hvalidated hentries hvalid, fun u hu => ?_,
    fun r hr hne => ?_, fun r a hr => ?_⟩
  · exact List.mem_cons_of_mem _ (List.mem_cons_of_mem _ (h.planned u hu))
  · rcases List.mem_append.1 hr with hr | hr
    · obtain ⟨a, ha⟩ := h.asked r hr hne
      exact ⟨a, List.mem_cons_of_mem _ (List.mem_cons_of_mem _ ha)⟩
    · obtain rfl := List.mem_singleton.1 hr
      exact ⟨answer, List.mem_cons_of_mem _ List.mem_cons_self⟩
  · have hr' := (List.mem_cons.1 hr).resolve_left (by simp)
    rcases List.mem_cons.1 hr' with hr' | hr'
    · cases hr'
      exact ⟨entries, List.mem_cons_self⟩
    · obtain ⟨e, he⟩ := h.paired r a hr'
      exact ⟨e, List.mem_cons_of_mem _ (List.mem_cons_of_mem _ he)⟩

/-- A batch without stale units is not asked for. -/
theorem Progress.skip (h : path.Progress m current actions done log) :
    path.Progress m current actions (done ++ [[]]) log := by
  refine ⟨h.toSteps, h.planned, fun r hr hne => ?_, h.paired⟩
  rcases List.mem_append.1 hr with hr | hr
  · exact h.asked r hr hne
  · exact absurd (List.mem_singleton.1 hr) hne

theorem Progress.remove (h : path.Progress m current actions done log)
    (hu : path.Invalidated m current actions log u) : path.Progress m current actions done (.removed u :: log) := by
  have hmem : ∀ {r a e}, .committed r a e ∈ .removed u :: log → .committed r a e ∈ log :=
    fun hmem => (List.mem_cons.1 hmem).resolve_left (by simp)
  have hmem' : ∀ {r a}, .answered r a ∈ .removed u :: log → .answered r a ∈ log :=
    fun hmem => (List.mem_cons.1 hmem).resolve_left (by simp)
  refine ⟨⟨fun v hv => ?_, fun r a hr => h.answered r a (hmem' hr), fun r a e he => ?_,
    fun r a e he => h.validated r a e (hmem he), fun r a e he => h.entries r a e (hmem he),
    fun r a e he => h.valid r a e (hmem he)⟩, fun v hv => List.mem_cons_of_mem _ (h.planned v hv),
    fun r hr hne => ?_, fun r a hr => ?_⟩
  · rcases List.mem_cons.1 hv with hv | hv
    · cases hv
      exact .inr hu.cons
    · exact (h.removed v hv).imp_right Invalidated.cons
  · exact List.mem_cons_of_mem _ (h.exchange r a e (hmem he))
  · obtain ⟨a, ha⟩ := h.asked r hr hne
    exact ⟨a, List.mem_cons_of_mem _ ha⟩
  · obtain ⟨e, he⟩ := h.paired r a (hmem' hr)
    exact ⟨e, List.mem_cons_of_mem _ he⟩

end

end IndexPath

/-! ## Reading the store during a run -/

section
variable {start : Index} {live : List FileAnalysisSnapshot} {P : List IndexEvent → Prop} {α : Type}

/-- What a query finds out about the stored snapshots, replayed to where the run is. -/
theorem query_holds (hlive : Holds start.store live) {env : IndexEnvironment} {question : IndexStore → α}
    {F : α → Prop} (h : ∀ new store live', P new → Holds store live' → lookup live' = replay new (lookup live) →
      F (question store)) :
    Triple (Tracing start P) (onIndex (Index.query env question)) (fun a s => Tracing start P s ∧ F a)
      (Tracing start P) := by
  refine query_traced.consequence (fun _ h => h) (fun a s hs => ?_) fun _ h => h
  obtain ⟨new, hnew, ⟨hP, store, hstore, rfl⟩, hreplay⟩ := hs.exists_log
  obtain ⟨live', hlive', hmap⟩ := hstore live hlive
  exact ⟨⟨new, hnew, hP, hreplay⟩, h new store live' hP hlive' hmap⟩

theorem replay_applied {provenance : Option Provenance} {m : SnapshotMap} {current : List SourceUnit}
    {actions : List IndexAction} {log : List IndexEvent} (hplan : Plans provenance m current actions)
    (h : Applied actions log) : replay log m = afterPlan provenance m current := by
  funext u
  have hcommits : ¬ Commits log u := by
    rintro ⟨requested, answer, entries, hmem, -⟩
    obtain ⟨u', hu', -⟩ := h.removed _ hmem
    cases hu'
  unfold afterPlan
  split
  · next hu => exact replay_removed (h.complete u ((hplan.remove u).2 hu)) hcommits
  · next hu =>
    refine replay_untouched (fun hmem => hu ?_) hcommits
    obtain ⟨u', hu', haction⟩ := h.removed _ hmem
    cases hu'
    exact (hplan.remove u).1 haction

end

/-! ## The single-batch path -/

section
variable {start : Index} {live : List FileAnalysisSnapshot} {env : Environment} {manifest : ProjectManifest}
  {executionPlan : OpaqueExecutionPlan} {current : List SourceUnit} {provenance : Option Provenance}
  {actions : List IndexAction} {snapshots : List FileAnalysisSnapshot}

/-- The entries planned for the units of `done`. -/
structure Gathered (provenance : Option Provenance) (m : SnapshotMap) (current : List SourceUnit)
    (snapshots : List FileAnalysisSnapshot) (done : List SourceUnit) (planned : List PlannedEntry) : Prop where
  expected : planned.map (·.expected) = done
  snapshot : ∀ entry ∈ planned, snapshots.find? (·.sourceUnit.id = entry.expected.id) = some entry.snapshot
  dependents : ∀ entry ∈ planned, ∀ u, u ∈ entry.apiDependents ↔
    apiOf (afterPlan provenance m current) entry.expected.id ≠ entry.snapshot.publicApiFingerprint ∧
      DependsOn (afterPlan provenance m current) entry.expected.id u

theorem mem_apiDependentInvalidations {previousApi currentApi : Option Fingerprint} {dependents : List SourceUnitId}
    {u : SourceUnitId} : u ∈ apiDependentInvalidations previousApi currentApi dependents ↔
      previousApi ≠ currentApi ∧ u ∈ dependents := by
  unfold apiDependentInvalidations
  split
  · next h => simp [h]
  · next h => simp [h]

theorem Holds.previousApi {store : IndexStore} (h : Holds store live) (u : SourceUnitId) :
    (store.analysisInputs.find? (·.sourceUnit.id = u)).bind (·.publicApiFingerprint) = apiOf (lookup live) u := by
  unfold apiOf
  cases hfind : store.analysisInputs.find? (·.sourceUnit.id = u) with
  | none =>
    have hnone : lookup live u = none := by
      refine List.find?_eq_none.2 fun snapshot hs => ?_
      have hinput := List.find?_eq_none.1 hfind _ (h.mem_analysisInputs.2 ⟨snapshot, hs, rfl⟩)
      exact hinput
    rw [hnone]
    rfl
  | some input =>
    obtain ⟨snapshot, hs, rfl⟩ := h.mem_analysisInputs.1 (List.mem_of_find?_eq_some hfind)
    have hfound := List.find?_some hfind
    have hid : snapshot.id = u := of_decide_eq_true hfound
    rw [h.lookup_eq_some.2 ⟨hs, hid⟩]
    rfl

theorem planEntry_some {store : IndexStore} {previousInputs : List AnalysisInput} {expected : SourceUnit}
    {entry : PlannedEntry} (h : planEntry store snapshots previousInputs expected = some entry) :
    entry.expected = expected ∧ snapshots.find? (·.sourceUnit.id = expected.id) = some entry.snapshot ∧
      entry.apiDependents = apiDependentInvalidations
        ((previousInputs.find? (·.sourceUnit.id = expected.id)).bind (·.publicApiFingerprint))
        entry.snapshot.publicApiFingerprint (store.dependentSourceUnits expected.id) := by
  unfold planEntry at h
  obtain ⟨snapshot, hfind, rfl⟩ := Option.map_eq_some_iff.1 h
  exact ⟨rfl, hfind, rfl⟩

theorem Gathered.append {m : SnapshotMap} {done : List SourceUnit} {planned : List PlannedEntry}
    {entry : PlannedEntry} (h : Gathered provenance m current snapshots done planned)
    (hsnapshot : snapshots.find? (·.sourceUnit.id = entry.expected.id) = some entry.snapshot)
    (hdependents : ∀ u, u ∈ entry.apiDependents ↔
      apiOf (afterPlan provenance m current) entry.expected.id ≠ entry.snapshot.publicApiFingerprint ∧
        DependsOn (afterPlan provenance m current) entry.expected.id u) :
    Gathered provenance m current snapshots (done ++ [entry.expected]) (planned ++ [entry]) := by
  refine ⟨by rw [List.map_append, h.expected]; rfl, fun other hother => ?_, fun other hother => ?_⟩
  all_goals rcases List.mem_append.1 hother with hother | hother
  · exact h.snapshot other hother
  · rw [List.mem_singleton.1 hother]
    exact hsnapshot
  · exact h.dependents other hother
  · rw [List.mem_singleton.1 hother]
    exact hdependents

/-- Where the entries are planned: the plan is applied and the answer is there. -/
def Answered (actions : List IndexAction) (requested : List SourceUnit) (answer : List FileAnalysisSnapshot)
    (new : List IndexEvent) : Prop := ∃ old, new = .answered requested answer :: old ∧ Applied actions old

theorem planEntries_traced (hlive : Holds start.store live) (hplan : Plans provenance (lookup live) current actions)
    (requested : List SourceUnit) :
    Triple (Tracing start (Answered actions requested snapshots)) (planEntries env snapshots requested)
      (fun planned s => Tracing start (Answered actions requested snapshots) s ∧
        Gathered provenance (lookup live) current snapshots requested planned)
      (Tracing start (Answered actions requested snapshots)) := by
  -- a query sees the snapshots the plan leaves
  have hmap : ∀ new, Answered actions requested snapshots new →
      replay new (lookup live) = afterPlan provenance (lookup live) current := by
    rintro _ ⟨old, rfl, happlied⟩
    exact (show replay old (lookup live) = _ from replay_applied hplan happlied)
  let F : List AnalysisInput → Prop := fun inputs => ∀ u,
    (inputs.find? (·.sourceUnit.id = u)).bind (·.publicApiFingerprint) = apiOf (afterPlan provenance (lookup live) current) u
  refine Triple.bind (query_holds hlive (F := F) fun new store live' hnew hstore hlookup u => ?_) fun inputs =>
    Triple.of_fact fun hinputs => ?_
  · rw [hstore.previousApi, hlookup, hmap new hnew]
  let I : List SourceUnit → List PlannedEntry → Index × Workers → Prop := fun done planned s =>
    Tracing start (Answered actions requested snapshots) s ∧
      Gathered provenance (lookup live) current snapshots done planned
  have hbegin : ∀ s, Tracing start (Answered actions requested snapshots) s → I [] [] s := fun _ h =>
    ⟨h, ⟨rfl, fun _ h => (nomatch h), fun _ h => (nomatch h)⟩⟩
  refine Triple.consequence (Triple.foldlM_done (I := I) ?_ []) hbegin (fun _ _ h => h) fun _ h => h
  intro done expected rest _ planned
  refine Triple.of_fact fun hplanned => ?_
  let G : Option PlannedEntry → Prop := fun entry => ∀ found, entry = some found →
    Gathered provenance (lookup live) current snapshots (done ++ [expected]) (planned ++ [found])
  refine Triple.bind (query_holds hlive (F := G) fun new store live' hnew hstore hlookup found hfound => ?_) fun entry =>
    Triple.of_fact fun hentry => ?_
  · obtain ⟨rfl, hfind, hdependents⟩ := planEntry_some hfound
    refine hplanned.append hfind fun u => ?_
    rw [hdependents, mem_apiDependentInvalidations, hinputs, hstore.mem_dependentSourceUnits_map, hlookup, hmap new hnew]
  · cases entry with
    | none => exact Triple.fail fun _ h => h
    | some entry => exact Triple.pure fun _ h => ⟨h, hentry entry rfl⟩

theorem afterPlan_discovered {m : SnapshotMap} {u : SourceUnitId} (h : u ∈ current.map (·.id)) :
    afterPlan provenance m current u = m u := by
  unfold afterPlan
  rw [if_neg fun hu => hu.1 h]

theorem Plans.stale_discovered {m : SnapshotMap} (hplan : Plans provenance m current actions) {source : SourceUnit}
    (h : source ∈ staleUnits actions) : source.id ∈ current.map (·.id) :=
  List.mem_map_of_mem (lastOf_some _ ((hplan.reanalyze source).1 h).1).1

end

namespace IndexPath

section
variable {start : Index} {live : List FileAnalysisSnapshot} {env : Environment} {manifest : ProjectManifest}
  {executionPlan : OpaqueExecutionPlan} {current : List SourceUnit} {actions : List IndexAction}

/-- A run that stopped anywhere. -/
def Stopped (path : IndexPath) (m : SnapshotMap) (current : List SourceUnit) (log : List IndexEvent) : Prop :=
  ∃ actions, Plans path.provenance m current actions ∧ path.Steps m current actions log

/-- A run that returned. -/
def Finished (path : IndexPath) (m : SnapshotMap) (current : List SourceUnit) (log : List IndexEvent) : Prop :=
  ∃ actions, Plans path.provenance m current actions ∧ path.Completed m current actions log

/-- The batch is committed and some of its dependents are removed. -/
structure Invalidating (path : IndexPath) (m : SnapshotMap) (current : List SourceUnit) (actions : List IndexAction)
    (dependents done : List SourceUnitId) (log : List IndexEvent) : Prop where
  progress : path.Progress m current actions [staleUnits actions] log
  iff_dependent : ∀ u, path.Invalidated m current actions log u ↔
    u ∉ (staleUnits actions).map (·.id) ∧ u ∈ dependents
  removed : ∀ u ∈ done, u ∉ (staleUnits actions).map (·.id) → .removed u ∈ log

variable {launch : WorkerLaunch} {provenance : Option Provenance}

theorem Invalidating.begin {m : SnapshotMap} {snapshots : List FileAnalysisSnapshot} {planned : List PlannedEntry}
    {new : List IndexEvent} (hplan : Plans provenance m current actions)
    (hvalidated : validateBatch (staleUnits actions) snapshots = .ok snapshots)
    (hplanned : Gathered provenance m current snapshots (staleUnits actions) planned)
    (hvalid : ∀ entry ∈ planned.map fun entry => (entry.expected, entry.snapshot), ValidSnapshot entry.1 entry.2)
    (hnew : Answered actions (staleUnits actions) snapshots new) :
    Invalidating (.singleBatch launch provenance) m current actions (planned.flatMap (·.apiDependents)) []
      (.committed (staleUnits actions) snapshots (planned.map fun entry => (entry.expected, entry.snapshot)) :: new) := by
  obtain ⟨old, rfl, happlied⟩ := hnew
  have hentries : (singleBatch launch provenance).Entries (staleUnits actions) snapshots
      (planned.map fun entry => (entry.expected, entry.snapshot)) := by
    refine ⟨by rw [List.map_map]; exact hplanned.expected, fun entry hentry => ?_⟩
    obtain ⟨found, hfound, rfl⟩ := List.mem_map.1 hentry
    exact hplanned.snapshot found hfound
  have happlied' : (singleBatch launch provenance).Progress m current actions [] old := progress_of_applied _ hplan happlied
  refine ⟨happlied'.exchanged (List.mem_singleton.2 rfl) hvalidated hentries hvalid, fun u => and_congr_right fun _ => ?_,
    fun _ h => (nomatch h)⟩
  -- the plan keeps the snapshots of the units asked for
  have hapi : ∀ entry ∈ planned, apiOf (afterPlan provenance m current) entry.expected.id = apiOf m entry.expected.id := by
    intro entry hentry
    have hstale : entry.expected ∈ staleUnits actions := hplanned.expected ▸ List.mem_map_of_mem hentry
    rw [apiOf, apiOf, afterPlan_discovered (hplan.stale_discovered hstale)]
  rw [List.mem_flatMap]
  constructor
  · rintro ⟨requested, answer, entries, hmem, entry, hentry, hchanged, hdepends⟩
    rcases List.mem_cons.1 hmem with hmem | hmem
    · cases hmem
      obtain ⟨found, hfound, rfl⟩ := List.mem_map.1 hentry
      exact ⟨found, hfound, (hplanned.dependents found hfound u).2 ⟨hapi found hfound ▸ hchanged, hdepends⟩⟩
    · have hmem' := (List.mem_cons.1 hmem).resolve_left (by simp)
      obtain ⟨u', hu', -⟩ := happlied.removed _ hmem'
      cases hu'
  · rintro ⟨found, hfound, hu⟩
    obtain ⟨hchanged, hdepends⟩ := (hplanned.dependents found hfound u).1 hu
    exact ⟨_, _, _, List.mem_cons_self, _, List.mem_map_of_mem hfound, hapi found hfound ▸ hchanged, hdepends⟩

theorem Invalidating.remove {path : IndexPath} {m : SnapshotMap} {dependents done : List SourceUnitId}
    {log : List IndexEvent} {u : SourceUnitId} (h : path.Invalidating m current actions dependents done log)
    (hu : u ∈ dependents) (hstale : u ∉ (staleUnits actions).map (·.id)) :
    path.Invalidating m current actions dependents (done ++ [u]) (.removed u :: log) := by
  refine ⟨h.progress.remove ((h.iff_dependent u).2 ⟨hstale, hu⟩), fun v => ?_, fun v hv hv' => ?_⟩
  · rw [← h.iff_dependent v]
    exact ⟨fun hv => hv.of_cons (by simp), fun hv => hv.cons⟩
  · rcases List.mem_append.1 hv with hv | hv
    · exact List.mem_cons_of_mem _ (h.removed v hv hv')
    · rw [List.mem_singleton.1 hv]
      exact List.mem_cons_self

theorem Invalidating.keep {path : IndexPath} {m : SnapshotMap} {dependents done : List SourceUnitId}
    {log : List IndexEvent} {u : SourceUnitId} (h : path.Invalidating m current actions dependents done log)
    (hstale : u ∈ (staleUnits actions).map (·.id)) :
    path.Invalidating m current actions dependents (done ++ [u]) log := by
  refine ⟨h.progress, h.iff_dependent, fun v hv hv' => ?_⟩
  rcases List.mem_append.1 hv with hv | hv
  · exact h.removed v hv hv'
  · rw [List.mem_singleton.1 hv] at hv'
    exact absurd hstale hv'

theorem Invalidating.completed {m : SnapshotMap} {dependents : List SourceUnitId} {log : List IndexEvent}
    (h : (singleBatch launch provenance).Invalidating m current actions dependents dependents log) :
    (singleBatch launch provenance).Completed m current actions log :=
  ⟨h.progress, fun u hu => h.removed u ((h.iff_dependent u).1 hu).2 ((h.iff_dependent u).1 hu).1⟩

theorem invalidateDependents_traced {path : IndexPath} {m : SnapshotMap} (dependents : List SourceUnitId)
    (run : IndexRun) :
    Triple (Tracing start (path.Invalidating m current actions dependents []))
      (invalidateDependents env (staleUnits actions) dependents run)
      (fun _ => Tracing start (path.Invalidating m current actions dependents dependents))
      (Tracing start (path.Steps m current actions)) := by
  refine Triple.foldlM_done (I := fun done _ => Tracing start (path.Invalidating m current actions dependents done))
    (fun done u rest hdone run => ?_) run
  refine Triple.ite (fun hu => ?_) fun hu => ?_
  · exact Triple.pure fun _ h => h.mono fun new hnew => hnew.keep hu
  · have hmem : u ∈ dependents := hdone ▸ List.mem_append_right _ List.mem_cons_self
    have hremove : Triple (Tracing start (path.Invalidating m current actions dependents done)) (removeSnapshot env u)
        (fun _ => Tracing start (path.Invalidating m current actions dependents (done ++ [u])))
        (Tracing start (path.Invalidating m current actions dependents done)) :=
      removeSnapshot_traced env fun new hnew => hnew.remove hmem hu
    exact Triple.bind (hremove.weaken fun _ h => h.mono fun new hnew => hnew.progress.toSteps) fun _ =>
      Triple.pure fun _ h => h

theorem analyzeAndCommit_traced (hlive : Holds start.store live)
    (hplan : Plans provenance (lookup live) current actions) (run : IndexRun) :
    Triple (Tracing start (Applied actions)) (analyzeAndCommit env manifest executionPlan launch (staleUnits actions) run)
      (fun _ => Tracing start ((singleBatch launch provenance).Completed (lookup live) current actions))
      (Tracing start ((singleBatch launch provenance).Steps (lookup live) current actions)) := by
  let path := singleBatch launch provenance
  have happlied : ∀ s, Tracing start (Applied actions) s → Tracing start (path.Steps (lookup live) current actions) s :=
    fun _ h => h.mono fun new hnew => (path.progress_of_applied hplan hnew).toSteps
  have hanswered : ∀ answer new, Answered actions (staleUnits actions) answer new →
      path.Steps (lookup live) current actions new := by
    rintro answer _ ⟨old, rfl, hold⟩
    exact (path.progress_of_applied hplan hold).toSteps.ask (List.mem_singleton.2 rfl)
  refine Triple.bind (second_traced.weaken happlied) fun supervisor => ?_
  refine Triple.bind (onWorkers_traced.weaken happlied) fun _ => ?_
  have hpre : Triple (Tracing start (Applied actions))
      (analyzeBatch env manifest executionPlan supervisor "index-batch" (staleUnits actions))
      (fun snapshots s => Tracing start (Answered actions (staleUnits actions) snapshots) s ∧
        validateBatch (staleUnits actions) snapshots = .ok snapshots)
      (Tracing start (path.Steps (lookup live) current actions)) := by
    refine Triple.consequence (analyzeBatch_traced env manifest executionPlan (Q := path.Steps (lookup live) current actions)
      fun answer new hnew => hanswered answer _ ⟨new, rfl, hnew⟩) (fun _ h => h)
      (fun snapshots s hs => ⟨hs.2.mono ?_, hs.1⟩) fun _ h => h.mono ?_
    · rintro new ⟨old, rfl, hold, -⟩
      exact ⟨old, rfl, hold⟩
    · rintro new (hnew | hnew)
      · exact (path.progress_of_applied hplan hnew).toSteps
      · exact hnew
  refine Triple.bind hpre fun snapshots => Triple.of_fact fun hvalidated => ?_
  refine Triple.bind (Triple.weaken (planEntries_traced hlive hplan (staleUnits actions))
    fun _ h => h.mono (hanswered snapshots)) fun planned => Triple.of_fact fun hplanned => ?_
  have hcommit : Triple (Tracing start (Answered actions (staleUnits actions) snapshots))
      (commitBatch env (staleUnits actions) snapshots (planned.map fun entry => (entry.expected, entry.snapshot)))
      (fun _ => Tracing start (path.Invalidating (lookup live) current actions (planned.flatMap (·.apiDependents)) []))
      (Tracing start (Answered actions (staleUnits actions) snapshots)) :=
    commitBatch_traced env fun hvalid new hnew => Invalidating.begin hplan hvalidated hplanned hvalid hnew
  refine Triple.bind (hcommit.weaken fun _ h => h.mono (hanswered snapshots)) fun _ => ?_
  refine Triple.bind (invalidateDependents_traced _ _) fun _ => Triple.pure fun _ h => ?_
  exact h.mono fun new hnew => hnew.completed

/-- The queries a path plans from, and the plan it applies. -/
theorem indexBatch_traced (hlive : Holds start.store live) :
    Triple (Tracing start (· = [])) (indexBatch env manifest executionPlan current launch provenance)
      (fun _ => Tracing start ((singleBatch launch provenance).Finished (lookup live) current))
      (Tracing start ((singleBatch launch provenance).Stopped (lookup live) current)) := by
  let path := singleBatch launch provenance
  let m := lookup live
  have hstart : ∀ s, Tracing start (· = []) s → Tracing start (path.Stopped m current) s := by
    intro s hs
    refine hs.mono ?_
    rintro _ rfl
    exact ⟨_, hlive.planFor_plans provenance, steps_of_removedBy _ (hlive.planFor_plans provenance) fun _ h => (nomatch h)⟩
  have hquery : ∀ {α : Type} {question : IndexStore → α},
      Triple (Tracing start (· = [])) (onIndex (Index.query env.index question)) (fun _ => Tracing start (· = []))
        (Tracing start (path.Stopped m current)) := fun {_ _} =>
    (query_traced.consequence (fun _ h => h) (fun _ _ h => h.mono fun _ hnew => hnew.1) fun _ h => hstart _ h)
  have hplanned : ∀ {p : Option Provenance} {question : IndexStore → List IndexAction},
      (∀ store live', Holds store live' → Plans p (lookup live') current (question store)) →
      Triple (Tracing start (· = [])) (onIndex (Index.query env.index question))
        (fun actions s => Tracing start (· = []) s ∧ Plans p m current actions)
        (Tracing start (path.Stopped m current)) := by
    intro p question h
    refine (query_holds hlive fun new store live' hnew hstore hmap => ?_).weaken hstart
    subst hnew
    exact (show lookup live' = m from hmap) ▸ h store live' hstore
  refine Triple.bind (hplanned fun store live' hstore => hstore.planSources_plans) fun bySource =>
    Triple.of_fact fun hbySource => ?_
  refine Triple.bind hquery fun latest => ?_
  have hactions : Triple (Tracing start (· = [])) (planActions env current bySource provenance)
      (fun actions s => Tracing start (· = []) s ∧ Plans provenance m current actions)
      (Tracing start (path.Stopped m current)) := by
    cases provenance with
    | none => exact Triple.pure fun _ h => ⟨h, hbySource⟩
    | some provenance => exact hplanned fun store live' hstore => hstore.planAnalysis_plans provenance
  refine Triple.bind hactions fun actions => Triple.of_fact fun hplan => ?_
  have hstopped : ∀ s, Tracing start (path.Steps m current actions) s → Tracing start (path.Stopped m current) s :=
    fun _ h => h.mono fun new hnew => ⟨actions, hplan, hnew⟩
  have happlied : ∀ s, Tracing start (Applied actions) s → Tracing start (path.Stopped m current) s :=
    fun _ h => hstopped _ (h.mono fun new hnew => (path.progress_of_applied hplan hnew).toSteps)
  have hremoved : ∀ s, Tracing start (RemovedBy actions) s → Tracing start (path.Stopped m current) s :=
    fun _ h => hstopped _ (h.mono fun new hnew => path.steps_of_removedBy hplan hnew)
  have hcompleted : ∀ s, Tracing start (path.Completed m current actions) s → Tracing start (path.Stopped m current) s :=
    fun _ h => hstopped _ (h.mono fun new hnew => hnew.toSteps)
  refine Triple.bind ((applyActions_traced env actions).weaken hremoved) ?_
  rintro ⟨run, stale⟩
  refine Triple.of_fact fun hstale => ?_
  obtain rfl : stale = staleUnits actions := hstale
  refine Triple.bind (R := fun _ => Tracing start (Applied actions)) ?_ fun lane => ?_
  · exact Triple.ite (fun _ => (spawnDependencyLane_traced env manifest executionPlan launch).weaken happlied) fun _ =>
      Triple.pure fun _ h => h
  refine Triple.ite (fun hnone => ?_) fun _ => ?_
  · -- nothing to analyze: the plan was all there is to do
    have hdone : ∀ new, Applied actions new → path.Completed m current actions new := by
      intro new hnew
      have hprogress := path.progress_of_applied hplan hnew
      have hcommitted : ∀ requested answer entries, .committed requested answer entries ∉ new := by
        intro requested answer entries hmem
        obtain ⟨u, hu, -⟩ := hnew.removed _ hmem
        cases hu
      refine ⟨⟨hprogress.toSteps, hprogress.planned, fun requested hrequested hne => ?_, hprogress.paired⟩, ?_⟩
      · exact absurd ((List.mem_singleton.1 hrequested).trans hnone) hne
      · rintro u ⟨-, requested, answer, entries, hmem, -⟩
        exact absurd hmem (hcommitted requested answer entries)
    refine Triple.bind ((joinDependencyLane_traced env lane run).weaken happlied) fun run => ?_
    refine Triple.bind ((putManifest_traced env manifest).weaken happlied) fun _ => Triple.pure fun _ h => ?_
    exact h.mono fun new hnew => ⟨actions, hplan, hdone new hnew⟩
  · refine Triple.bind ((analyzeAndCommit_traced hlive hplan run).weaken hstopped) ?_
    rintro ⟨run, supervisor⟩
    refine Triple.bind ((joinDependencyLane_traced env lane run).weaken hcompleted) fun run => ?_
    refine Triple.bind ((putManifest_traced env manifest).weaken hcompleted) fun _ => ?_
    refine Triple.bind (second_traced.weaken hcompleted) fun workers => Triple.pure fun _ h => ?_
    exact h.mono fun new hnew => ⟨actions, hplan, hnew⟩

/-! ## The selected-batches path -/

variable {selection : WorkerSelection}

theorem supervisorFor_traced {P : List IndexEvent → Prop} (supervisors : Supervisors) (launch : WorkerLaunch) :
    Triple (Tracing start P) (supervisorFor supervisors launch) (fun _ => Tracing start P) (Tracing start P) := by
  unfold supervisorFor
  split
  · exact Triple.pure fun _ h => h
  · exact Triple.bind second_traced fun _ => Triple.pure fun _ h => h

theorem ensureCompatible_traced {P : List IndexEvent → Prop} (batch : WorkerBatch) (batchIndex : Nat)
    (supervisor : Handle) :
    Triple (Tracing start P) (ensureCompatible env batch batchIndex supervisor) (fun _ => Tracing start P)
      (Tracing start P) := by
  refine Triple.bind onWorkers_traced fun running => Triple.ite (fun _ => Triple.pure fun _ h => h) fun _ => ?_
  exact Triple.bind onWorkers_traced fun capabilities =>
    Triple.ite (fun _ => Triple.pure fun _ h => h) fun _ => Triple.fail fun _ h => h

/-- The request a batch turns into. -/
def selectedRequest (stale : List SourceUnit) (batch : WorkerBatch) : List SourceUnit :=
  batch.sourceUnits.filter fun source => source.id ∈ stale.map (·.id)

theorem analyzeSelectedBatch_traced {m : SnapshotMap} {done : List (List SourceUnit)} {requested : List SourceUnit}
    (hrequested : requested ∈ (selectedBatches selection).requests (staleUnits actions)) (batch : WorkerBatch)
    (batchIndex : Nat) (supervisor : Handle) (run : IndexRun) :
    Triple (Tracing start ((selectedBatches selection).Progress m current actions done))
      (analyzeSelectedBatch env manifest executionPlan batch requested batchIndex supervisor run)
      (fun _ => Tracing start ((selectedBatches selection).Progress m current actions (done ++ [requested])))
      (Tracing start ((selectedBatches selection).Steps m current actions)) := by
  let path := selectedBatches selection
  have hsteps : ∀ s, Tracing start (path.Progress m current actions done) s →
      Tracing start (path.Steps m current actions) s := fun _ h => h.mono fun new hnew => hnew.toSteps
  refine Triple.bind ((ensureCompatible_traced batch batchIndex supervisor).weaken hsteps) fun _ => ?_
  refine Triple.bind (Triple.weaken (analyzeBatch_traced env manifest executionPlan (Q := path.Steps m current actions)
    fun answer new hnew => hnew.toSteps.ask hrequested) fun _ h => h.mono ?_) fun snapshots => ?_
  · rintro new (hnew | hnew)
    · exact hnew.toSteps
    · exact hnew
  refine Triple.of_pre fun s hs => ?_
  let answered := fun new => ∃ old, new = .answered requested snapshots :: old ∧ path.Progress m current actions done old ∧
    path.Steps m current actions new
  have hcommit : Triple (Tracing start answered)
      (commitBatch env requested snapshots (snapshots.map fun snapshot => (snapshot.sourceUnit, snapshot)))
      (fun _ => Tracing start (path.Progress m current actions (done ++ [requested]))) (Tracing start answered) := by
    refine commitBatch_traced env ?_
    rintro hvalid _ ⟨old, rfl, hold, -⟩
    exact hold.exchanged hrequested hs.1 rfl hvalid
  refine Triple.bind (hcommit.consequence (fun _ h => h ▸ hs.2) (fun _ _ h => h) fun _ h => h.mono ?_) fun _ =>
    Triple.pure fun _ h => h
  rintro new ⟨_, _, _, hnew⟩
  exact hnew

theorem runSelectedBatch_traced {m : SnapshotMap} {done : List (List SourceUnit)} {batch : WorkerBatch} {batchIndex : Nat}
    (hbatch : batch ∈ selection.batches) (state : IndexRun × Supervisors) :
    Triple (Tracing start ((selectedBatches selection).Progress m current actions done))
      (runSelectedBatch env manifest executionPlan (staleUnits actions) state (batch, batchIndex))
      (fun _ => Tracing start ((selectedBatches selection).Progress m current actions
        (done ++ [selectedRequest (staleUnits actions) batch])))
      (Tracing start ((selectedBatches selection).Steps m current actions)) := by
  refine Triple.ite (fun hnone => Triple.pure fun _ h => h.mono fun new hnew => ?_) fun _ => ?_
  · rw [show selectedRequest (staleUnits actions) batch = [] from hnone]
    exact hnew.skip
  · refine Triple.bind ((supervisorFor_traced _ _).weaken fun _ h => h.mono fun new hnew => hnew.toSteps) ?_
    rintro ⟨supervisors, supervisor⟩
    exact Triple.bind (analyzeSelectedBatch_traced (List.mem_map_of_mem hbatch) _ _ _ _) fun _ => Triple.pure fun _ h => h

theorem selectedLane_traced {P : List IndexEvent → Prop} (needed : Bool) :
    Triple (Tracing start P) (selectedLane env manifest executionPlan selection needed) (fun _ => Tracing start P)
      (Tracing start P) := by
  refine Triple.ite (fun _ => ?_) fun _ => Triple.pure fun _ h => h
  split
  · exact spawnDependencyLane_traced env manifest executionPlan _
  · exact Triple.fail fun _ h => h

theorem indexSelectedBatches_traced (hlive : Holds start.store live) :
    Triple (Tracing start (· = [])) (indexSelectedBatches env manifest executionPlan current selection)
      (fun _ => Tracing start ((selectedBatches selection).Finished (lookup live) current))
      (Tracing start ((selectedBatches selection).Stopped (lookup live) current)) := by
  let path := selectedBatches selection
  let m := lookup live
  have hstart : ∀ s, Tracing start (· = []) s → Tracing start (path.Stopped m current) s := by
    intro s hs
    refine hs.mono ?_
    rintro _ rfl
    exact ⟨_, hlive.planSources_plans, steps_of_removedBy _ hlive.planSources_plans fun _ h => (nomatch h)⟩
  refine Triple.bind (R := fun _ => Tracing start (· = [])) (Triple.lift (fun _ _ _ h => h) hstart) fun _ => ?_
  refine Triple.ite (fun _ => Triple.fail hstart) fun _ => ?_
  have hplanned : Triple (Tracing start (· = [])) (onIndex (Index.query env.index fun store => store.planSources current))
      (fun actions s => Tracing start (· = []) s ∧ Plans none m current actions) (Tracing start (path.Stopped m current)) := by
    refine (query_holds hlive fun new store live' hnew hstore hmap => ?_).weaken hstart
    subst hnew
    exact (show lookup live' = m from hmap) ▸ hstore.planSources_plans
  refine Triple.bind hplanned fun actions => Triple.of_fact fun hplan => ?_
  have hlatest : Triple (Tracing start (· = [])) (onIndex (Index.query env.index (·.latestManifest)))
      (fun _ => Tracing start (· = [])) (Tracing start (path.Stopped m current)) :=
    query_traced.consequence (fun _ h => h) (fun _ _ h => h.mono fun _ hnew => hnew.1) hstart
  refine Triple.bind hlatest fun latest => ?_
  have hstopped : ∀ s, Tracing start (path.Steps m current actions) s → Tracing start (path.Stopped m current) s :=
    fun _ h => h.mono fun new hnew => ⟨actions, hplan, hnew⟩
  have hprogress : ∀ done s, Tracing start (path.Progress m current actions done) s →
      Tracing start (path.Stopped m current) s := fun done _ h => hstopped _ (h.mono fun new hnew => hnew.toSteps)
  have hremoved : ∀ s, Tracing start (RemovedBy actions) s → Tracing start (path.Stopped m current) s :=
    fun _ h => hstopped _ (h.mono fun new hnew => path.steps_of_removedBy hplan hnew)
  refine Triple.bind ((applyActions_traced env actions).weaken hremoved) ?_
  rintro ⟨run, stale⟩
  refine Triple.of_fact fun hstale => ?_
  obtain rfl : stale = staleUnits actions := hstale
  have hbegin : Triple (Tracing start (Applied actions))
      (selectedLane env manifest executionPlan selection
        (dependencyCatalogNeeded manifest latest || staleUnits actions ≠ []))
      (fun _ => Tracing start (path.Progress m current actions [])) (Tracing start (path.Stopped m current)) :=
    (selectedLane_traced _).consequence (fun _ h => h)
      (fun _ _ h => h.mono fun new hnew => path.progress_of_applied hplan hnew)
      fun _ h => hprogress [] _ (h.mono fun new hnew => path.progress_of_applied hplan hnew)
  refine Triple.bind hbegin fun lane => ?_
  have hloop := Triple.foldlM_done (l := selection.batches.zipIdx)
    (f := runSelectedBatch env manifest executionPlan (staleUnits actions))
    (E := Tracing start (path.Steps m current actions))
    (I := fun done _ => Tracing start (path.Progress m current actions
      (done.map fun indexed => selectedRequest (staleUnits actions) indexed.1)))
    (fun done indexed rest hdone state => by
      have hbatch : indexed.1 ∈ selection.batches :=
        List.fst_mem_of_mem_zipIdx (hdone ▸ List.mem_append_right _ List.mem_cons_self)
      rw [List.map_append]
      exact runSelectedBatch_traced hbatch state) (run, [])
  have hrequests : (selection.batches.zipIdx.map fun indexed => selectedRequest (staleUnits actions) indexed.1) =
      path.requests (staleUnits actions) := by
    rw [show (fun indexed : WorkerBatch × Nat => selectedRequest (staleUnits actions) indexed.1) =
      selectedRequest (staleUnits actions) ∘ Prod.fst from rfl, ← List.map_map, List.zipIdx_map_fst]
    rfl
  rw [hrequests] at hloop
  refine Triple.bind (hloop.weaken hstopped) ?_
  rintro ⟨run, supervisors⟩
  refine Triple.bind ((joinDependencyLane_traced env lane run).weaken (hprogress _)) fun run => ?_
  refine Triple.bind (second_traced.weaken (hprogress _)) fun workers => ?_
  refine Triple.bind ((putManifest_traced env manifest).weaken (hprogress _)) fun _ => Triple.pure fun _ h => ?_
  exact h.mono fun new hnew => ⟨actions, hplan, hnew, fun u hu => (nomatch hu)⟩

variable (env manifest executionPlan current)

/-- **Runs.** Every run of either path has done `Steps`, and a run that returns has done all of them;
the snapshots stored afterwards are those of the start, replayed. -/
theorem run_traced (path : IndexPath) (hlive : Holds start.store live) :
    Triple (Tracing start (· = [])) (path.run env manifest executionPlan current)
      (fun _ => Tracing start (path.Finished (lookup live) current))
      (Tracing start (path.Stopped (lookup live) current)) := by
  cases path with
  | selectedBatches selection => exact indexSelectedBatches_traced hlive
  | singleBatch launch provenance =>
    cases provenance with
    | none => exact indexBatch_traced hlive
    | some provenance =>
      refine Triple.bind (R := fun _ => Tracing start (· = [])) (Triple.lift (fun _ _ _ h => h) fun _ h => ?_) fun _ =>
        indexBatch_traced hlive
      refine h.mono ?_
      rintro _ rfl
      exact ⟨_, hlive.planFor_plans _, steps_of_removedBy _ (hlive.planFor_plans _) fun _ h => (nomatch h)⟩

/-- `run_traced`, read off the outcome: what the log grew by, and the snapshots stored now. -/
theorem run_outcome (path : IndexPath) {index : Index} (hlive : Holds index.store live) (workers : Workers) :
    ∃ new live', (path.run env manifest executionPlan current (index, workers)).2.1.log = new ++ index.log ∧
      Holds (path.run env manifest executionPlan current (index, workers)).2.1.store live' ∧
      lookup live' = replay new (lookup live) ∧ path.Stopped (lookup live) current new ∧
      ∀ run, (path.run env manifest executionPlan current (index, workers)).1 = .ok run →
        path.Finished (lookup live) current new := by
  have hinit : Tracing index (· = []) (index, workers) := Traced.init rfl
  have hrun := run_traced env manifest executionPlan current path hlive (index, workers) hinit
  rcases houtcome : path.run env manifest executionPlan current (index, workers) with ⟨e | run, state⟩ <;>
    rw [houtcome] at hrun <;> obtain ⟨new, hnew, hP, hstore⟩ := hrun.exists_log <;>
    obtain ⟨live', hlive', hmap⟩ := hstore live hlive
  · exact ⟨new, live', hnew, hlive', hmap, hP, fun _ h => (nomatch h)⟩
  · obtain ⟨actions, hplan, hcompleted⟩ := hP
    exact ⟨new, live', hnew, hlive', hmap, ⟨actions, hplan, hcompleted.toSteps⟩, fun _ _ => ⟨actions, hplan, hcompleted⟩⟩

end

/-! ## What is committed of an answer -/

section
variable {path : IndexPath} {requested : List SourceUnit} {answer : List FileAnalysisSnapshot}
  {entries : List (SourceUnit × FileAnalysisSnapshot)}

/-- A committed snapshot comes from the answer, under its own id, and that id was requested. -/
theorem Entries.entry (h : path.Entries requested answer entries) (hvalidated : validateBatch requested answer = .ok answer)
    {entry : SourceUnit × FileAnalysisSnapshot} (hentry : entry ∈ entries) :
    entry.2 ∈ answer ∧ entry.2.id = entry.1.id ∧ entry.1.id ∈ requested.map (·.id) := by
  cases path with
  | selectedBatches selection =>
    rw [show entries = answer.map fun snapshot => (snapshot.sourceUnit, snapshot) from h] at hentry
    obtain ⟨snapshot, hs, rfl⟩ := List.mem_map.1 hentry
    exact ⟨hs, rfl, (validateBatch_ok_iff.1 hvalidated _).1 (List.mem_map_of_mem hs)⟩
  | singleBatch launch provenance =>
    have hfind := h.2 entry hentry
    have hid := List.find?_some hfind
    exact ⟨List.mem_of_find?_eq_some hfind, of_decide_eq_true hid,
      List.mem_map_of_mem (h.1 ▸ List.mem_map_of_mem hentry)⟩

/-- Each requested unit has an entry. -/
theorem Entries.exists_entry (h : path.Entries requested answer entries)
    (hvalidated : validateBatch requested answer = .ok answer) {unit : SourceUnit} (hunit : unit ∈ requested) :
    ∃ entry ∈ entries, entry.1.id = unit.id := by
  cases path with
  | selectedBatches selection =>
    obtain ⟨snapshot, hs, hid⟩ := List.mem_map.1 ((validateBatch_ok_iff.1 hvalidated _).2 (List.mem_map_of_mem hunit))
    rw [show entries = answer.map fun snapshot => (snapshot.sourceUnit, snapshot) from h]
    exact ⟨_, List.mem_map_of_mem hs, hid⟩
  | singleBatch launch provenance =>
    obtain ⟨entry, hentry, rfl⟩ := List.mem_map.1 (h.1 ▸ hunit)
    exact ⟨entry, hentry, rfl⟩

end

end IndexPath

end Kide
