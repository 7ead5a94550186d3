import Kide.Index.Paths

/-!
# Core commits what it asked for

A batch answer is `Exact` for a request when it names each requested unit once, names no other, and
carries the fingerprints Core requested.

* `CommitsExactly`: every committed batch was answered exactly, and what is committed of it are its
  snapshots;
* `runs_commit_exactly`: over every run of either path, returned or failed, that follows from what the
  set comparison of `validateBatch` and the vacuous check of the selected path leave open
  (`IndexPath.Faithful`).
-/

namespace Kide
open Runs Checks

structure Exact (requested : List SourceUnit) (answer : List FileAnalysisSnapshot) : Prop where
  once : (answer.map (·.id)).Nodup
  units : ∀ id, id ∈ answer.map (·.id) ↔ id ∈ requested.map (·.id)
  fingerprints : ∀ snapshot ∈ answer, ∀ unit ∈ requested, unit.id = snapshot.id →
    snapshot.sourceUnit.content = unit.content ∧ snapshot.sourceUnit.context = unit.context

/-- Every batch a log commits was answered exactly, and its entries are snapshots of the answer. -/
structure CommitsExactly (log : List IndexEvent) : Prop where
  exact : ∀ requested answer entries, .committed requested answer entries ∈ log → Exact requested answer
  answered : ∀ requested answer entries, .committed requested answer entries ∈ log → .answered requested answer ∈ log
  entries : ∀ requested answer entries, .committed requested answer entries ∈ log → ∀ entry ∈ entries,
    entry.2 ∈ answer ∧ entry.2.id = entry.1.id ∧ entry.1.id ∈ requested.map (·.id)

/-- Every batch that was answered is committed, with exactly one snapshot for each requested unit. -/
def CommitsEachOnce (log : List IndexEvent) : Prop :=
  ∀ requested answer, .answered requested answer ∈ log → ∃ entries, .committed requested answer entries ∈ log ∧
    ∀ unit ∈ requested, ∃! snapshot, snapshot ∈ entries.map (·.2) ∧ snapshot.id = unit.id

/-- What the checks of a path take for granted in an answer. -/
def IndexPath.Faithful (requested : List SourceUnit) (answer : List FileAnalysisSnapshot) : IndexPath → Prop
  | selectedBatches _ => (answer.map (·.id)).Nodup ∧ ∀ snapshot ∈ answer, ∀ unit ∈ requested, unit.id = snapshot.id →
      snapshot.sourceUnit.content = unit.content ∧ snapshot.sourceUnit.context = unit.context
  | singleBatch _ _ => (answer.map (·.id)).Nodup

section
variable {path : IndexPath} {m : SnapshotMap} {current : List SourceUnit} {actions : List IndexAction}
  {log : List IndexEvent} {requested : List SourceUnit} {answer : List FileAnalysisSnapshot}
  {entries : List (SourceUnit × FileAnalysisSnapshot)}

/-- Two snapshots of an answer without repetition that name one unit are the same. -/
theorem eq_of_once (honce : (answer.map (·.id)).Nodup) {a b : FileAnalysisSnapshot} (ha : a ∈ answer) (hb : b ∈ answer)
    (hid : a.id = b.id) : a = b := List.inj_on_of_nodup_map honce ha hb hid

/-- A batch that was committed was answered exactly if and only if it was answered faithfully. -/
theorem IndexPath.Steps.exact_iff_faithful (h : path.Steps m current actions log)
    (hmem : .committed requested answer entries ∈ log) : Exact requested answer ↔ path.Faithful requested answer := by
  have hunits := validateBatch_ok_iff.1 (h.validated _ _ _ hmem)
  have hentries := h.entries _ _ _ hmem
  cases path with
  | selectedBatches selection => exact ⟨fun he => ⟨he.once, he.fingerprints⟩, fun hf => ⟨hf.1, hunits, hf.2⟩⟩
  | singleBatch launch provenance =>
    refine ⟨fun he => he.once, fun hf => ⟨hf, hunits, fun snapshot hs unit hunit hid => ?_⟩⟩
    -- the store compared the entry of the unit with what was requested
    obtain ⟨entry, hentry, rfl⟩ := List.mem_map.1 (hentries.1 ▸ hunit)
    have hvalid := h.valid _ _ _ hmem entry hentry
    obtain ⟨hanswer, hid', -⟩ := hentries.entry (h.validated _ _ _ hmem) hentry
    obtain rfl := eq_of_once hf hs hanswer (hid.symm.trans hid'.symm)
    exact ⟨hvalid.content, hvalid.context⟩

theorem IndexPath.Steps.commitsExactly (h : path.Steps m current actions log)
    (hfaithful : ∀ requested answer entries, .committed requested answer entries ∈ log → path.Faithful requested answer) :
    CommitsExactly log :=
  ⟨fun r a e hmem => (h.exact_iff_faithful hmem).2 (hfaithful r a e hmem), h.exchange,
    fun r a e hmem _ hentry => (h.entries r a e hmem).entry (h.validated r a e hmem) hentry⟩

theorem IndexPath.Completed.commitsEachOnce (h : path.Completed m current actions log) (hexact : CommitsExactly log) :
    CommitsEachOnce log := by
  intro requested answer hanswered
  obtain ⟨entries, hmem⟩ := h.paired requested answer hanswered
  refine ⟨entries, hmem, fun unit hunit => ?_⟩
  have hvalidated := h.validated _ _ _ hmem
  obtain ⟨entry, hentry, hid⟩ := (h.entries _ _ _ hmem).exists_entry hvalidated hunit
  obtain ⟨hanswer, hid', -⟩ := hexact.entries _ _ _ hmem entry hentry
  refine ⟨entry.2, ⟨List.mem_map_of_mem hentry, hid'.trans hid⟩, ?_⟩
  rintro other ⟨hother, hotherId⟩
  obtain ⟨entry', hentry', rfl⟩ := List.mem_map.1 hother
  obtain ⟨hanswer', -⟩ := hexact.entries _ _ _ hmem entry' hentry'
  exact eq_of_once (hexact.exact _ _ _ hmem).once hanswer' hanswer (hotherId.trans (hid'.trans hid).symm)

end

/-- **Commits.** For every environment, every run of either path from any store: if every answer that
names just the requested units names each of them once and, on the selected path, carries the
requested fingerprints, then all that is committed was requested and is exactly as requested, each
requested unit gets exactly one snapshot when the run returns, and no snapshot is stored that was not
stored before or committed so. A committed batch that was not answered like that is a violation. -/
theorem runs_commit_exactly (env : Environment) (manifest : ProjectManifest) (executionPlan : OpaqueExecutionPlan)
    (current : List SourceUnit) (path : IndexPath) (index : Index) (workers : Workers)
    (live : List FileAnalysisSnapshot) (hlive : Holds index.store live) :
    let outcome := path.run env manifest executionPlan current (index, workers)
    ∃ new live', outcome.2.1.log = new ++ index.log ∧ Holds outcome.2.1.store live' ∧
      (∀ snapshot ∈ live', snapshot ∈ live ∨
        ∃ requested answer entries, .committed requested answer entries ∈ new ∧ snapshot ∈ entries.map (·.2)) ∧
      ((∀ requested answer, .answered requested answer ∈ new → validateBatch requested answer = .ok answer →
          path.Faithful requested answer) →
        CommitsExactly new ∧ ∀ run, outcome.1 = .ok run → CommitsEachOnce new) ∧
      (CommitsExactly new → ∀ requested answer entries, .committed requested answer entries ∈ new →
        path.Faithful requested answer) := by
  intro outcome
  obtain ⟨new, live', hlog, hlive', hmap, ⟨actions, -, hsteps⟩, hfinished⟩ :=
    path.run_outcome env manifest executionPlan current hlive workers
  refine ⟨new, live', hlog, hlive', fun snapshot hs => ?_, fun hfaithful => ?_, fun hexact r a e hmem => ?_⟩
  · have hlookup : replay new (lookup live) snapshot.id = some snapshot :=
      hmap ▸ hlive'.lookup_eq_some.2 ⟨hs, rfl⟩
    exact (replay_origin hlookup).imp (fun h => (hlive.lookup_eq_some.1 h).1) fun h => h
  · have hexact : CommitsExactly new := hsteps.commitsExactly fun r a e hmem =>
      hfaithful r a (hsteps.exchange r a e hmem) (hsteps.validated r a e hmem)
    refine ⟨hexact, fun run hok => ?_⟩
    obtain ⟨actions, -, hcompleted⟩ := hfinished run hok
    exact hcompleted.commitsEachOnce hexact
  · exact (hsteps.exact_iff_faithful hmem).1 (hexact.exact r a e hmem)

/-! ## An answer with another fingerprint -/

def sampleLaunch : WorkerLaunch := ⟨"kide-kotlin-jvm", [], none, [], 600000, 60000⟩

def sampleCapabilities : WorkerCapabilities :=
  ⟨⟨"kide-kotlin-jvm", "0.1.0"⟩, WORKER_PROTOCOL_VERSION, [.kotlin], [.handshake, .fileAnalysisSnapshot], []⟩

/-- A worker that never fails and answers a batch with `answer`. -/
def answering (answer : AnalyzeBatchRequest → List FileAnalysisSnapshot) : WorkerEnvironment where
  now _ := 0
  exited _ := false
  spawns _ := true
  writes _ := .written
  receives _ request := .envelope (.new request.requestId (
    match request.message with
    | .handshakeRequest _ => .handshakeResponse sampleCapabilities
    | .artifactDiscoveryRequest _ => .artifactDiscoveryResponse ⟨[], none, []⟩
    | .analyzeBatchRequest request => .analysisBatchResponse ⟨answer request⟩
    | message => message))

def sampleEnvironment (workers : WorkerEnvironment) : Environment :=
  ⟨workers, ⟨fun _ => none, fun _ => Disk.sound⟩, 1⟩

def sampleManifest : ProjectManifest := ⟨⟨"workspace"⟩, ⟨"."⟩, [], [], ⟨"sha256:manifest"⟩, sampleProvenance⟩

def samplePlan : OpaqueExecutionPlan := ⟨"gradle", sampleManifest.fingerprint, []⟩

/-- All sources in one batch. -/
def sampleSelection (sources : List SourceUnit) : WorkerSelection :=
  { batches := [⟨⟨⟨"kotlin", sampleLaunch, [.gradle]⟩, sampleCapabilities⟩, ⟨"app:main"⟩, .kotlin, sources⟩] }

def emptyIndex : Index := ⟨{}, 0, []⟩

def noWorkers : Workers := ⟨fun _ => .new sampleLaunch, 0, 0, 0, []⟩

/-- The selected path over one file, with a worker that returns `answered` for it. -/
def runOnce (answered : SourceUnit) : Except IndexOrchestratorError IndexRun × Index × Workers :=
  (IndexPath.selectedBatches (sampleSelection [sampleUnit "A.kt" "sha256:a"])).run
    (sampleEnvironment (answering fun _ => [emptySnapshot answered])) sampleManifest samplePlan
    [sampleUnit "A.kt" "sha256:a"] (emptyIndex, noWorkers)

/-- What that run logs, whatever the content of the file is in the answer. -/
def runOnceLog (answered : SourceUnit) : List IndexEvent :=
  [.committed [sampleUnit "A.kt" "sha256:a"] [emptySnapshot answered] [(answered, emptySnapshot answered)],
    .answered [sampleUnit "A.kt" "sha256:a"] [emptySnapshot answered]]

/-- The worker was asked for one content of the file and answered for another. -/
theorem other_fingerprint_committed :
    ¬ ∀ (env : Environment) (manifest : ProjectManifest) (executionPlan : OpaqueExecutionPlan)
      (current : List SourceUnit) (path : IndexPath) (index : Index) (workers : Workers)
      (live : List FileAnalysisSnapshot), Holds index.store live →
        ∃ new, (path.run env manifest executionPlan current (index, workers)).2.1.log = new ++ index.log ∧
          CommitsExactly new ∧ ∀ run, (path.run env manifest executionPlan current (index, workers)).1 = .ok run →
            CommitsEachOnce new := by
  intro h
  have hcomputed : (runOnce (sampleUnit "A.kt" "sha256:b")).2.1.log = runOnceLog (sampleUnit "A.kt" "sha256:b") := by
    decide +kernel
  unfold runOnce at hcomputed
  obtain ⟨new, hlog, hexact, -⟩ := h _ _ _ _ _ emptyIndex _ [] (Holds.empty {})
  rw [hcomputed, show emptyIndex.log = [] from rfl, List.append_nil] at hlog
  subst hlog
  have hfingerprints := (hexact.exact _ _ _ List.mem_cons_self).fingerprints _ List.mem_cons_self _ List.mem_cons_self rfl
  exact absurd hfingerprints.1 (by decide)

theorem runOnce_commits_exactly :
    CommitsExactly (runOnce (sampleUnit "A.kt" "sha256:a")).2.1.log ∧
      CommitsEachOnce (runOnce (sampleUnit "A.kt" "sha256:a")).2.1.log := by
  have hcomputed : (runOnce (sampleUnit "A.kt" "sha256:a")).2.1.log = runOnceLog (sampleUnit "A.kt" "sha256:a") := by
    decide +kernel
  have hreturned : (runOnce (sampleUnit "A.kt" "sha256:a")).1.isOk = true := by decide +kernel
  unfold runOnce at hcomputed hreturned ⊢
  obtain ⟨new, -, hlog, -, -, hexact, -⟩ := runs_commit_exactly _ _ _ _ _ emptyIndex _ [] (Holds.empty {})
  rw [hcomputed, show emptyIndex.log = [] from rfl, List.append_nil] at hlog
  subst hlog
  rw [hcomputed]
  obtain ⟨hcommits, hok⟩ := hexact fun requested answer hmem _ => by
    obtain ⟨rfl, rfl⟩ : requested = [sampleUnit "A.kt" "sha256:a"] ∧
        answer = [emptySnapshot (sampleUnit "A.kt" "sha256:a")] := by simpa [runOnceLog] using hmem
    refine ⟨List.nodup_singleton _, fun snapshot hs unit hunit _ => ?_⟩
    rw [List.mem_singleton.1 hs, List.mem_singleton.1 hunit]
    exact ⟨rfl, rfl⟩
  obtain ⟨run, hrun⟩ := exists_ok_of_isOk hreturned
  exact ⟨hcommits, hok run hrun⟩

end Kide
