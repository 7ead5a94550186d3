import Kide.Index.Commits
import Kide.Index.Effects
import Kide.Store.Batch

/-!
# Dependents of changed and removed units

After a run that returns, a unit with an edge to a symbol of a unit whose public API changed, or which
the plan removed, should have been analyzed again or be gone (`InvalidatesDependents`).

* `HasEdge`: the edges a unit records to the symbols of another one; `FoundEdge`: those that
  `dependentSourceUnits` leads back to the unit that records them;
* `IndexPath.Covers`: what has to hold of the stored edges, the plan and the answers;
* `runs_invalidate_iff`: over every run that returns, the two are equivalent.
-/

namespace Kide
open Runs Collects Checks

/-! ## Edges -/

section
variable (m : SnapshotMap) (dependent source : SourceUnitId)

def HasEdge : Prop :=
  ∃ owner snapshot, m source = some owner ∧ m dependent = some snapshot ∧
    ((∃ reference ∈ snapshot.references, reference.target ∈ owner.symbolIds) ∨
      (∃ call ∈ snapshot.calls, call.target ∈ owner.symbolIds) ∨
      ∃ edge ∈ snapshot.hierarchy, edge.supertype ∈ owner.symbolIds)

/-- A hierarchy edge counts where its subtype is declared. -/
def FoundEdge : Prop :=
  ∃ owner snapshot, m source = some owner ∧ m dependent = some snapshot ∧
    ((∃ reference ∈ snapshot.references, reference.target ∈ owner.symbolIds) ∨
      (∃ call ∈ snapshot.calls, call.target ∈ owner.symbolIds) ∨
      ∃ edge ∈ snapshot.hierarchy, edge.supertype ∈ owner.symbolIds ∧ edge.subtype ∈ snapshot.symbolIds)

end

section
variable {m : SnapshotMap} {dependent source : SourceUnitId}

theorem HasEdge.stored (h : HasEdge m dependent source) : ∃ snapshot, m dependent = some snapshot := by
  obtain ⟨_, snapshot, _, hsnapshot, _⟩ := h
  exact ⟨snapshot, hsnapshot⟩

/-- The query finds the recording unit, as validated ranges lie in their own unit. -/
theorem FoundEdge.dependsOn (h : FoundEdge m dependent source) (hne : dependent ≠ source)
    (hids : ∀ u snapshot, m u = some snapshot → snapshot.id = u) (hvalid : m.Valid) : DependsOn m source dependent := by
  obtain ⟨owner, snapshot, howner, hsnapshot, hedge⟩ := h
  have hunit := hids dependent snapshot hsnapshot
  have hvalid' := hvalid dependent snapshot hsnapshot
  refine ⟨hne, owner, howner, ?_⟩
  rcases hedge with ⟨r, hr, htarget⟩ | ⟨c, hc, htarget⟩ | ⟨e, he, htarget, hsubtype⟩
  · have hrange := (hvalid'.references r hr).2.1
    exact ⟨_, htarget, .inl ⟨dependent, snapshot, hsnapshot, r, hr, rfl, hrange.trans hunit⟩⟩
  · have hrange := (hvalid'.calls c hc).2.1
    exact ⟨_, htarget, .inr (.inl ⟨dependent, snapshot, hsnapshot, c, hc, rfl, hrange.trans hunit⟩)⟩
  · exact ⟨_, htarget, .inr (.inr ⟨dependent, snapshot, hsnapshot, e, he, rfl, snapshot, hsnapshot, hsubtype⟩)⟩

theorem FoundEdge.of_kept {m' : SnapshotMap} (h : FoundEdge m dependent source) (hsource : m' source = m source)
    (hdependent : m' dependent = m dependent) : FoundEdge m' dependent source := by
  obtain ⟨owner, snapshot, howner, hsnapshot, hedge⟩ := h
  exact ⟨owner, snapshot, hsource.trans howner, hdependent.trans hsnapshot, hedge⟩

end

/-! ## The property and its condition -/

/-- The run committed the unit with another public API than it had. -/
def ApiChanged (m : SnapshotMap) (log : List IndexEvent) (u : SourceUnitId) : Prop :=
  ∃ requested answer entries, .committed requested answer entries ∈ log ∧
    ∃ entry ∈ entries, entry.1.id = u ∧ apiOf m u ≠ entry.2.publicApiFingerprint

def InvalidatesDependents (provenance : Option Provenance) (m : SnapshotMap) (current : List SourceUnit)
    (log : List IndexEvent) (final : SnapshotMap) : Prop :=
  ∀ source, ApiChanged m log source ∨ .removed source ∈ log ∧ Undiscovered provenance m current source →
    ∀ dependent, dependent ≠ source → HasEdge m dependent source → Commits log dependent ∨ final dependent = none

/-- The edges to a changed unit that a path does not follow. -/
def IndexPath.Misses (m : SnapshotMap) (dependent source : SourceUnitId) : IndexPath → Prop
  | selectedBatches _ => True
  | singleBatch _ _ => ¬ FoundEdge m dependent source

/-- A unit with an edge to a removed unit, or with an edge the path does not follow to a changed one, is
asked for, undiscovered or dropped anyway. -/
def IndexPath.Covers (path : IndexPath) (m : SnapshotMap) (current : List SourceUnit) (log : List IndexEvent) : Prop :=
  ∀ source dependent, dependent ≠ source → HasEdge m dependent source →
    Undiscovered path.provenance m current source ∨ path.Changes m log source ∧ path.Misses m dependent source →
      path.Asks m current dependent ∨ Undiscovered path.provenance m current dependent ∨
        path.Drops m current log dependent

section
variable {path : IndexPath} {m : SnapshotMap} {current : List SourceUnit} {actions : List IndexAction}
  {log : List IndexEvent}

/-- Which stored units are fresh or gone after a run that returned. -/
theorem IndexPath.Completed.covered_iff (h : path.Completed m current actions log)
    (hplan : Plans path.provenance m current actions) {u : SourceUnitId} {snapshot : FileAnalysisSnapshot}
    (hu : m u = some snapshot) : (Commits log u ∨ replay log m u = none) ↔
      path.Asks m current u ∨ Undiscovered path.provenance m current u ∨ path.Drops m current log u := by
  rw [h.commits_iff hplan]
  by_cases hasks : path.Asks m current u
  · exact ⟨fun _ => .inl hasks, fun _ => .inl hasks⟩
  · have hcommits : ¬ Commits log u := fun hcommits => hasks ((h.commits_iff hplan).1 hcommits)
    have hremoved := h.removed_iff (u := u) hplan
    rw [and_iff_left hasks] at hremoved
    rw [or_iff_right hasks, or_iff_right hasks, ← hremoved]
    refine ⟨fun hnone => ?_, fun hmem => replay_removed hmem hcommits⟩
    by_contra hmem
    rw [replay_untouched hmem hcommits, hu] at hnone
    cases hnone

/-- An edge to a changed unit that the single-batch path follows gets its dependent. -/
theorem IndexPath.Completed.dropped_of_found (h : path.Completed m current actions log)
    (hplan : Plans path.provenance m current actions) (hids : ∀ u snapshot, m u = some snapshot → snapshot.id = u)
    (hvalid : m.Valid) {source dependent : SourceUnitId} (hne : dependent ≠ source)
    (hchanges : path.Changes m log source) (hmisses : ¬ path.Misses m dependent source) :
    Undiscovered path.provenance m current dependent ∨ path.Drops m current log dependent := by
  cases path with
  | selectedBatches selection => exact absurd trivial hmisses
  | singleBatch launch provenance =>
    by_cases hundiscovered : Undiscovered provenance m current dependent
    · exact .inl hundiscovered
    · obtain ⟨requested, answer, entries, hmem, entry, hentry, hid, -⟩ := h.changes_iff.1 hchanges
      have hasks := h.toSteps.asks_of_commits hplan ⟨requested, answer, entries, hmem, List.mem_map.2 ⟨entry, hentry, hid⟩⟩
      have hkept : ∀ u snapshot, afterPlan provenance m current u = some snapshot → m u = some snapshot := by
        intro u snapshot hu
        unfold afterPlan at hu
        split at hu
        · cases hu
        · exact hu
      have hfound : FoundEdge (afterPlan provenance m current) dependent source :=
        (not_not.1 hmisses).of_kept (afterPlan_discovered hasks.discovered) (if_neg hundiscovered)
      have hdepends := hfound.dependsOn hne (fun u snapshot hu => hids u snapshot (hkept u snapshot hu))
        fun u snapshot hu => hvalid u snapshot (hkept u snapshot hu)
      exact .inr ⟨source, hchanges, hdepends⟩

theorem IndexPath.Completed.invalidates_iff (h : path.Completed m current actions log)
    (hplan : Plans path.provenance m current actions) (hids : ∀ u snapshot, m u = some snapshot → snapshot.id = u)
    (hvalid : m.Valid) :
    InvalidatesDependents path.provenance m current log (replay log m) ↔ path.Covers m current log := by
  constructor
  · intro hinvalidates source dependent hne hedge hsource
    obtain ⟨snapshot, hsnapshot⟩ := hedge.stored
    refine (h.covered_iff hplan hsnapshot).1 (hinvalidates source ?_ dependent hne hedge)
    rcases hsource with hundiscovered | ⟨hchanges, -⟩
    · exact .inr ⟨h.planned source hundiscovered, hundiscovered⟩
    · exact .inl (h.changes_iff.1 hchanges)
  · intro hcovers source hsource dependent hne hedge
    obtain ⟨snapshot, hsnapshot⟩ := hedge.stored
    rw [h.covered_iff hplan hsnapshot]
    rcases hsource with hchanged | ⟨-, hundiscovered⟩
    · have hchanges := h.changes_iff.2 hchanged
      by_cases hmisses : path.Misses m dependent source
      · exact hcovers source dependent hne hedge (.inr ⟨hchanges, hmisses⟩)
      · exact .inr (h.dropped_of_found hplan hids hvalid hne hchanges hmisses)
    · exact hcovers source dependent hne hedge (.inl hundiscovered)

end

/-- **Invalidation.** For every environment and every run of either path that returns, from any store
of validated snapshots: the units with an edge to a unit of changed API or to a removed unit are
analyzed again or gone if and only if the path covers them. -/
theorem runs_invalidate_iff (env : Environment) (manifest : ProjectManifest) (executionPlan : OpaqueExecutionPlan)
    (current : List SourceUnit) (path : IndexPath) (index : Index) (workers : Workers)
    (live : List FileAnalysisSnapshot) (hlive : Holds index.store live) (hvalid : SnapshotMap.Valid (lookup live)) :
    let outcome := path.run env manifest executionPlan current (index, workers)
    ∃ new live', outcome.2.1.log = new ++ index.log ∧ Holds outcome.2.1.store live' ∧
      ∀ run, outcome.1 = .ok run →
        (InvalidatesDependents path.provenance (lookup live) current new (lookup live') ↔
          path.Covers (lookup live) current new) := by
  intro outcome
  obtain ⟨new, live', hlog, hlive', hmap, -, hfinished⟩ :=
    path.run_outcome env manifest executionPlan current hlive workers
  refine ⟨new, live', hlog, hlive', fun run hok => ?_⟩
  obtain ⟨actions, hplan, hcompleted⟩ := hfinished run hok
  rw [hmap]
  exact hcompleted.invalidates_iff hplan (fun u snapshot hu => (hlive.lookup_eq_some.1 hu).2) hvalid

/-! ## A dependent the selected path leaves -/

/-- `A.kt` declares `Service`. -/
def service (content api : String) : FileAnalysisSnapshot :=
  { declaring (sampleUnit "A.kt" content) ["Service"] with publicApiFingerprint := some ⟨api⟩ }

/-- `B.kt` refers to `Service`. -/
def client : FileAnalysisSnapshot :=
  { emptySnapshot (sampleUnit "B.kt" "sha256:b") with
    references := [⟨sampleCall (sampleUnit "B.kt" "sha256:b") "Service", ⟨"Service"⟩, .exact⟩] }

def storedPair : List FileAnalysisSnapshot := [service "sha256:a1" "api:1", client]

def pairEntries : List BatchEntry := storedPair.map fun snapshot => (snapshot.sourceUnit, snapshot)

def pairIndex : Index := ⟨(({} : IndexStore).replaceSnapshotsBatch Disk.sound pairEntries).2, 0, []⟩

theorem pairEntries_ok : (({} : IndexStore).replaceSnapshotsBatch Disk.sound pairEntries).1 = .ok () := by
  decide +kernel

theorem pairIndex_holds : Holds pairIndex.store storedPair :=
  (Holds.empty {}).batch (replaceSnapshotsBatch_ok pairEntries_ok).2

theorem storedPair_valid : SnapshotMap.Valid (lookup storedPair) := by
  intro u snapshot hsnapshot
  have hmem := List.mem_of_find?_eq_some hsnapshot
  exact (replaceSnapshotsBatch_ok pairEntries_ok).1 _ (List.mem_map_of_mem hmem)

/-- A run after `A.kt` changed and `B.kt` did not; the worker finds another public API. -/
def runAfterChange (path : IndexPath) : Except IndexOrchestratorError IndexRun × Index × Workers :=
  path.run (sampleEnvironment (answering fun _ => [service "sha256:a2" "api:2"])) sampleManifest samplePlan
    [sampleUnit "A.kt" "sha256:a2", sampleUnit "B.kt" "sha256:b"] (pairIndex, noWorkers)

def bothFiles : IndexPath :=
  .selectedBatches (sampleSelection [sampleUnit "A.kt" "sha256:a2", sampleUnit "B.kt" "sha256:b"])

/-- The log of that run on either path, up to the removal of the dependent. -/
def serviceCommitted : List IndexEvent :=
  [.committed [sampleUnit "A.kt" "sha256:a2"] [service "sha256:a2" "api:2"]
      [(sampleUnit "A.kt" "sha256:a2", service "sha256:a2" "api:2")],
    .answered [sampleUnit "A.kt" "sha256:a2"] [service "sha256:a2" "api:2"]]

theorem client_hasEdge : HasEdge (lookup storedPair) client.id (service "sha256:a1" "api:1").id :=
  ⟨service "sha256:a1" "api:1", client, rfl, rfl, .inl ⟨_, List.mem_cons_self, List.mem_cons_self⟩⟩

theorem service_apiChanged : ApiChanged (lookup storedPair) serviceCommitted (service "sha256:a1" "api:1").id :=
  ⟨_, _, _, List.mem_cons_self, _, List.mem_cons_self, rfl, by decide +kernel⟩

/-- The run returns, the API has changed and the snapshot of `B.kt` is neither new nor gone. -/
theorem selectedBatches_leaves_dependent :
    ¬ ∀ (env : Environment) (manifest : ProjectManifest) (executionPlan : OpaqueExecutionPlan)
      (current : List SourceUnit) (path : IndexPath) (index : Index) (workers : Workers)
      (live : List FileAnalysisSnapshot), Holds index.store live → SnapshotMap.Valid (lookup live) →
        ∃ new live', (path.run env manifest executionPlan current (index, workers)).2.1.log = new ++ index.log ∧
          Holds (path.run env manifest executionPlan current (index, workers)).2.1.store live' ∧
          ∀ run, (path.run env manifest executionPlan current (index, workers)).1 = .ok run →
            InvalidatesDependents path.provenance (lookup live) current new (lookup live') := by
  intro h
  have hlogged : (runAfterChange bothFiles).2.1.log = serviceCommitted := by decide +kernel
  have hreturned : (runAfterChange bothFiles).1.isOk = true := by decide +kernel
  have hstored : client.input ∈ (runAfterChange bothFiles).2.1.store.analysisInputs := by decide +kernel
  unfold runAfterChange at hlogged hreturned hstored
  obtain ⟨new, live', hlog, hlive', hinvalidates⟩ := h _ _ _ _ _ _ _ _ pairIndex_holds storedPair_valid
  rw [hlogged, show pairIndex.log = [] from rfl, List.append_nil] at hlog
  subst hlog
  obtain ⟨run, hrun⟩ := exists_ok_of_isOk hreturned
  rcases hinvalidates run hrun _ (.inl service_apiChanged) client.id (by decide) client_hasEdge with hcommits | hnone
  · obtain ⟨requested, answer, entries, hmem, hu⟩ := hcommits
    obtain ⟨-, -, rfl⟩ : requested = _ ∧ answer = _ ∧ entries = _ := by simpa [serviceCommitted] using hmem
    exact absurd hu (by decide +kernel)
  · obtain ⟨snapshot, hs, hinput⟩ := hlive'.mem_analysisInputs.1 hstored
    have hid : snapshot.id = client.id := congrArg (fun input => input.sourceUnit.id) hinput
    rw [← hid, hlive'.lookup_eq_some.2 ⟨hs, rfl⟩] at hnone
    cases hnone

/-- `B.kt` refers to `A.kt`, and that is the only edge. -/
theorem storedPair_edges {dependent source : SourceUnitId} (h : HasEdge (lookup storedPair) dependent source) :
    source = (service "sha256:a1" "api:1").id ∧ FoundEdge (lookup storedPair) dependent source := by
  obtain ⟨owner, snapshot, howner, hsnapshot, hedge⟩ := h
  obtain ⟨hownerMem, rfl⟩ := pairIndex_holds.lookup_eq_some.1 howner
  obtain ⟨hsnapshotMem, rfl⟩ := pairIndex_holds.lookup_eq_some.1 hsnapshot
  simp only [storedPair, List.mem_cons, List.not_mem_nil, or_false] at hownerMem hsnapshotMem
  rcases hownerMem with rfl | rfl
  · refine ⟨rfl, _, _, howner, hsnapshot, hedge.imp_right (Or.imp_right fun hfound => ?_)⟩
    obtain ⟨edge, hedge, -⟩ := hfound
    rcases hsnapshotMem with rfl | rfl <;> exact absurd hedge List.not_mem_nil
  · have hnone : ∀ symbolId, symbolId ∉ client.symbolIds := fun _ => List.not_mem_nil
    rcases hedge with ⟨r, -, hr⟩ | ⟨c, -, hc⟩ | ⟨e, -, he⟩
    · exact absurd hr (hnone _)
    · exact absurd hc (hnone _)
    · exact absurd he (hnone _)

theorem singleBatch_drops_dependent :
    ∃ new live', Holds (runAfterChange (.singleBatch sampleLaunch (some sampleProvenance))).2.1.store live' ∧
      InvalidatesDependents (some sampleProvenance) (lookup storedPair)
        [sampleUnit "A.kt" "sha256:a2", sampleUnit "B.kt" "sha256:b"] new (lookup live') := by
  have hreturned : (runAfterChange (.singleBatch sampleLaunch (some sampleProvenance))).1.isOk = true := by
    decide +kernel
  unfold runAfterChange at hreturned ⊢
  obtain ⟨run, hrun⟩ := exists_ok_of_isOk hreturned
  obtain ⟨new, live', -, hlive', hiff⟩ := runs_invalidate_iff _ _ _ _ _ _ _ _ pairIndex_holds storedPair_valid
  refine ⟨new, live', hlive', (hiff run hrun).2 fun source dependent _ hedge hsource => ?_⟩
  obtain ⟨rfl, hfound⟩ := storedPair_edges hedge
  rcases hsource with hundiscovered | ⟨-, hmisses⟩
  · exact absurd (by decide +kernel) hundiscovered.1
  · exact absurd hfound hmisses

end Kide
