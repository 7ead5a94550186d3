import Kide.Freshness
import Kide.Store.Publication

/-!
# The planning calls

Three callers plan source work: the selected-batches path and the provenance path of
`orchestrator.rs`, and `kide index --plan`. The first and the last compare source metadata only
(`plan_incremental_index`), the second also the worker that made the snapshot
(`plan_incremental_analysis_index`).

`planners_reuse_exactly_iff` says on which stores all three reuse exactly what is current.
-/

namespace Kide
open Collects

/-! ## The calls -/

namespace IndexStore
variable (store : IndexStore)

/-- The stored units a metadata plan compares with. -/
def persistedSources : List SourceUnit := store.sourceUnits.filter (·.origin ≠ .dependency)

def planSources (current : List SourceUnit) : List IndexAction :=
  planInvalidation current store.persistedSources

/-- The plan against a negotiated worker: every stored input takes part. -/
def planAnalysis (current : List SourceUnit) (provenance : Provenance) : List IndexAction :=
  planAnalysisInvalidation (current.map fun sourceUnit => ⟨sourceUnit, provenance, none⟩) store.analysisInputs

end IndexStore

/-- The context of a source is the configuration of its resolved component. -/
def ProjectManifest.contextualize (manifest : ProjectManifest) (source : SourceUnit) : SourceUnit :=
  match manifest.components.find? (·.id = source.component) with
  | some component => { source with context := component.configuration }
  | none => source

/-- The sources `--plan` compares: a stored manifest counts while no tracked input changed. -/
def IndexStore.previewSources (store : IndexStore) (inputs : List ConfigurationInput)
    (discovered : List SourceUnit) : List SourceUnit :=
  match if (store.configurationInputStatus inputs).allCurrent then store.latestManifest else none with
  | some manifest => discovered.map manifest.contextualize
  | none => discovered

/-- Source actions of `plan_with_source_metadata`. -/
def IndexStore.planPreview (store : IndexStore) (inputs : List ConfigurationInput)
    (discovered : List SourceUnit) : List IndexAction :=
  store.planSources (store.previewSources inputs discovered)

/-! ## What they reuse -/

section
variable {store : IndexStore} {live : List FileAnalysisSnapshot}

theorem Holds.sourceUnits_perm (h : Holds store live) :
    store.sourceUnits.Perm (live.map (·.sourceUnit)) := by
  have hperm := (List.perm_insertionSort (fun a b => a.sourceUnitId.le b.sourceUnitId) store.sourceSnapshots).map
    (·.sourceUnitJson)
  rw [h.sourceSnapshots, List.map_map] at hperm
  rw [IndexStore.sourceUnits, IndexStore.orderedSnapshots, h.sourceSnapshots]
  exact hperm

theorem Holds.analysisInputs_perm (h : Holds store live) : store.analysisInputs.Perm (live.map (·.input)) := by
  have hperm := (List.perm_insertionSort (fun a b => a.sourceUnitId.le b.sourceUnitId) store.sourceSnapshots).map
    fun row => (⟨row.sourceUnitJson, row.provenanceBlob, row.publicApiFingerprint⟩ : AnalysisInput)
  rw [h.sourceSnapshots, List.map_map] at hperm
  rw [IndexStore.analysisInputs, IndexStore.orderedSnapshots, h.sourceSnapshots]
  exact hperm

theorem Holds.persistedSources_nodup (h : Holds store live) : (store.persistedSources.map (·.id)).Nodup := by
  have hids : (store.sourceUnits.map (·.id)).Nodup := by
    rw [(h.sourceUnits_perm.map (·.id)).nodup_iff, List.map_map]
    exact h.ids_nodup
  exact hids.sublist (List.filter_sublist.map _)

theorem Holds.analysisInputs_nodup (h : Holds store live) :
    (store.analysisInputs.map (·.sourceUnit.id)).Nodup := by
  rw [(h.analysisInputs_perm.map (·.sourceUnit.id)).nodup_iff, List.map_map]
  exact h.ids_nodup

theorem Holds.mem_persistedSources (h : Holds store live) {source : SourceUnit} :
    source ∈ store.persistedSources ↔
      ∃ snapshot ∈ live, snapshot.sourceUnit = source ∧ source.origin ≠ .dependency := by
  rw [IndexStore.persistedSources, List.mem_filter, h.mem_sourceUnits]
  simp only [decide_eq_true_eq]
  constructor
  · rintro ⟨⟨snapshot, hs, hsource⟩, horigin⟩
    exact ⟨snapshot, hs, hsource, horigin⟩
  · rintro ⟨snapshot, hs, hsource, horigin⟩
    exact ⟨⟨snapshot, hs, hsource⟩, horigin⟩

variable {current : List SourceUnit} {source : SourceUnit}

/-- A stored snapshot of the unit with the requested content and context. -/
def SameInputs (snapshot : FileAnalysisSnapshot) (source : SourceUnit) : Prop :=
  snapshot.id = source.id ∧ snapshot.sourceUnit.content = source.content ∧
    snapshot.sourceUnit.context = source.context

/-- A metadata plan reuses whatever source snapshot has the requested content and context. -/
theorem Holds.planSources_reuse_iff (h : Holds store live) (hsource : Requested id current source) :
    .reuse source ∈ store.planSources current ↔
      ∃ snapshot ∈ live, SameInputs snapshot source ∧ snapshot.sourceUnit.origin ≠ .dependency := by
  rw [IndexStore.planSources, planInvalidation, mem_planWith_reuse]
  constructor
  · rintro ⟨input, -, rfl, previous, hlast, hchange⟩
    obtain ⟨hprevious, hid⟩ := (lastOf_eq_some_iff _ h.persistedSources_nodup).1 hlast
    obtain ⟨snapshot, hs, rfl, horigin⟩ := h.mem_persistedSources.1 hprevious
    have heq := sourceChange_eq_none.1 hchange
    exact ⟨snapshot, hs, ⟨hid, heq⟩, horigin⟩
  · rintro ⟨snapshot, hs, ⟨hid, heq⟩, horigin⟩
    have hprevious := h.mem_persistedSources.2 ⟨snapshot, hs, rfl, horigin⟩
    exact ⟨source, hsource, rfl, snapshot.sourceUnit, (lastOf_eq_some_iff _ h.persistedSources_nodup).2 ⟨hprevious, hid⟩,
      sourceChange_eq_none.2 heq⟩

theorem requested_analysisInput (provenance : Provenance) (hsource : Requested id current source) :
    Requested AnalysisInput.sourceUnit
      (current.map fun sourceUnit => (⟨sourceUnit, provenance, none⟩ : AnalysisInput)) ⟨source, provenance, none⟩ := by
  unfold Requested
  rw [lastOf_map]
  have hlast : lastOf (fun unit : SourceUnit => unit.id) current source.id = some source := hsource
  rw [hlast]
  rfl

/-- The provenance plan reuses exactly what is current. -/
theorem Holds.planAnalysis_reuse_iff (h : Holds store live) {provenance : Provenance}
    (hsource : Requested id current source) :
    .reuse source ∈ store.planAnalysis current provenance ↔
      ∃ snapshot ∈ live, SameInputs snapshot source ∧ snapshot.provenance = provenance := by
  rw [IndexStore.planAnalysis, planAnalysisInvalidation, mem_planWith_reuse]
  constructor
  · rintro ⟨input, hinput, rfl, previous, hlast, hchange⟩
    obtain ⟨hprevious, hid⟩ := (lastOf_eq_some_iff _ h.analysisInputs_nodup).1 hlast
    obtain ⟨snapshot, hs, rfl⟩ := h.mem_analysisInputs.1 hprevious
    obtain ⟨hcontent, hcontext, hprovenance⟩ := analysisChange_eq_none.1 hchange
    have hmade : input.provenance = provenance := by
      obtain ⟨unit, -, hunit⟩ := List.mem_map.1 (lastOf_some _ hinput).1
      rw [← hunit]
    exact ⟨snapshot, hs, ⟨hid, hcontent, hcontext⟩, hprovenance.trans hmade⟩
  · rintro ⟨snapshot, hs, ⟨hid, hcontent, hcontext⟩, hprovenance⟩
    have hprevious := h.mem_analysisInputs.2 ⟨snapshot, hs, rfl⟩
    exact ⟨_, requested_analysisInput provenance hsource, rfl, snapshot.input,
      (lastOf_eq_some_iff _ h.analysisInputs_nodup).2 ⟨hprevious, hid⟩,
      analysisChange_eq_none.2 ⟨hcontent, hcontext, hprovenance⟩⟩

/-! ## Agreement -/

/-- The stored snapshot of a unit is current: it was made from the requested inputs by the
negotiated worker. -/
def IndexStore.IsCurrent (store : IndexStore) (provenance : Provenance) (source : SourceUnit) : Prop :=
  ∃ input ∈ store.analysisInputs, input.sourceUnit.id = source.id ∧ input.sourceUnit.content = source.content ∧
    input.sourceUnit.context = source.context ∧ input.provenance = provenance

/-- A plan reuses the units whose snapshot is current and analyzes every other one again. -/
def ReusesExactly (store : IndexStore) (provenance : Provenance) (current : List SourceUnit)
    (actions : List IndexAction) : Prop :=
  ∀ source, Requested id current source →
    (.reuse source ∈ actions ↔ store.IsCurrent provenance source) ∧
      ((∃ reason, .reanalyze source reason ∈ actions) ↔ ¬ store.IsCurrent provenance source)

/-- A stored snapshot with the requested content and context is a source snapshot exactly if the
negotiated worker made it. -/
def MadeByNegotiated (store : IndexStore) (provenance : Provenance) (current : List SourceUnit) : Prop :=
  ∀ source, Requested id current source → ∀ input ∈ store.analysisInputs, input.sourceUnit.id = source.id →
    input.sourceUnit.content = source.content → input.sourceUnit.context = source.context →
      (input.sourceUnit.origin ≠ .dependency ↔ input.provenance = provenance)

theorem Holds.isCurrent_iff (h : Holds store live) {provenance : Provenance} :
    store.IsCurrent provenance source ↔
      ∃ snapshot ∈ live, SameInputs snapshot source ∧ snapshot.provenance = provenance := by
  unfold IndexStore.IsCurrent
  constructor
  · rintro ⟨_, hinput, hid, hcontent, hcontext, hprovenance⟩
    obtain ⟨snapshot, hs, rfl⟩ := h.mem_analysisInputs.1 hinput
    exact ⟨snapshot, hs, ⟨hid, hcontent, hcontext⟩, hprovenance⟩
  · rintro ⟨snapshot, hs, ⟨hid, hcontent, hcontext⟩, hprovenance⟩
    exact ⟨snapshot.input, h.mem_analysisInputs.2 ⟨snapshot, hs, rfl⟩, hid, hcontent, hcontext, hprovenance⟩

/-- What is not reused is analyzed again, so reuse decides. -/
theorem reusesExactly_planWith_iff {α : Type} {unit : α → SourceUnit} {changed : α → α → Option InvalidationReason}
    {inputs persisted : List α} {provenance : Provenance}
    (hinputs : ∀ source, Requested id current source → ∃ input, Requested unit inputs input ∧ unit input = source) :
    ReusesExactly store provenance current (planWith unit changed inputs persisted) ↔
      ∀ source, Requested id current source →
        (.reuse source ∈ planWith unit changed inputs persisted ↔ store.IsCurrent provenance source) := by
  refine forall_congr' fun source => forall_congr' fun hsource => and_iff_left_of_imp fun hreuse => ?_
  obtain ⟨input, hinput, rfl⟩ := hinputs source hsource
  rw [← hreuse, reanalyze_iff_not_reuse hinput]

theorem Holds.planAnalysis_reusesExactly (h : Holds store live) (provenance : Provenance) (current : List SourceUnit) :
    ReusesExactly store provenance current (store.planAnalysis current provenance) := by
  refine (reusesExactly_planWith_iff fun source hsource => ?_).2 fun source hsource => ?_
  · exact ⟨_, requested_analysisInput provenance hsource, rfl⟩
  · rw [h.isCurrent_iff]
    exact h.planAnalysis_reuse_iff hsource

theorem Holds.planSources_reusesExactly_iff (h : Holds store live) {provenance : Provenance} :
    ReusesExactly store provenance current (store.planSources current) ↔
      MadeByNegotiated store provenance current := by
  have hreuse : ReusesExactly store provenance current (store.planSources current) ↔
      ∀ source, Requested id current source →
        (.reuse source ∈ store.planSources current ↔ store.IsCurrent provenance source) :=
    reusesExactly_planWith_iff fun source hsource => ⟨source, hsource, rfl⟩
  refine hreuse.trans (forall_congr' fun source => forall_congr' fun hsource => ?_)
  rw [h.planSources_reuse_iff hsource, h.isCurrent_iff]
  constructor
  · intro hiff _ hinput hid hcontent hcontext
    obtain ⟨snapshot, hs, rfl⟩ := h.mem_analysisInputs.1 hinput
    have hunique : ∀ other ∈ live, SameInputs other source → other = snapshot := fun other ho hsame =>
      List.inj_on_of_nodup_map h.ids_nodup ho hs (hsame.1.trans hid.symm)
    constructor
    · intro horigin
      obtain ⟨other, ho, hsame, hmade⟩ := hiff.1 ⟨snapshot, hs, ⟨hid, hcontent, hcontext⟩, horigin⟩
      exact hunique other ho hsame ▸ hmade
    · intro hmade
      obtain ⟨other, ho, hsame, horigin⟩ := hiff.2 ⟨snapshot, hs, ⟨hid, hcontent, hcontext⟩, hmade⟩
      exact hunique other ho hsame ▸ horigin
  · intro hmade
    refine exists_congr fun snapshot => and_congr_right fun hs => and_congr_right fun hsame => ?_
    exact hmade snapshot.input (h.mem_analysisInputs.2 ⟨snapshot, hs, rfl⟩) hsame.1 hsame.2.1 hsame.2.2

end

/-- **Reuse.** All three plans reuse exactly the current snapshots if and only if a stored snapshot
with requested content and context is a source snapshot exactly if the negotiated worker made it. -/
theorem planners_reuse_exactly_iff {store : IndexStore} (hstore : store.Reachable) (provenance : Provenance)
    (current discovered : List SourceUnit) (inputs : List ConfigurationInput) :
    (ReusesExactly store provenance current (store.planSources current) ∧
      ReusesExactly store provenance current (store.planAnalysis current provenance) ∧
      ReusesExactly store provenance (store.previewSources inputs discovered) (store.planPreview inputs discovered)) ↔
    MadeByNegotiated store provenance current ∧
      MadeByNegotiated store provenance (store.previewSources inputs discovered) := by
  obtain ⟨live, hlive⟩ := hstore.holds
  have hpreview : ReusesExactly store provenance (store.previewSources inputs discovered)
      (store.planPreview inputs discovered) ↔
        MadeByNegotiated store provenance (store.previewSources inputs discovered) :=
    hlive.planSources_reusesExactly_iff
  rw [hpreview, hlive.planSources_reusesExactly_iff]
  exact and_congr_right fun _ => and_iff_right (hlive.planAnalysis_reusesExactly provenance current)

/-! ## A worker upgrade -/

/-- An index that worker version 0.1.0 filled with one file. -/
def indexedOnce : IndexStore :=
  (({} : IndexStore).replaceSnapshot Disk.sound (sampleUnit "A.kt" "sha256:a")
    (emptySnapshot (sampleUnit "A.kt" "sha256:a"))).2

theorem indexedOnce_reachable : indexedOnce.Reachable :=
  (IndexStore.reachable_empty {}).run Disk.sound
    (.replaceSnapshot (sampleUnit "A.kt" "sha256:a") (emptySnapshot (sampleUnit "A.kt" "sha256:a")))

theorem indexedOnce_inputs :
    indexedOnce.analysisInputs = [(emptySnapshot (sampleUnit "A.kt" "sha256:a")).input] := by rfl

def upgradedWorker : Provenance := { sampleProvenance with backendVersion := "0.2.0" }

/-- After the upgrade the unchanged file is analyzed again by the provenance path only. -/
theorem planners_disagree_after_upgrade :
    ¬ ∀ (store : IndexStore), store.Reachable → ∀ (provenance : Provenance) (current discovered : List SourceUnit)
      (inputs : List ConfigurationInput),
      ReusesExactly store provenance current (store.planSources current) ∧
        ReusesExactly store provenance current (store.planAnalysis current provenance) ∧
        ReusesExactly store provenance (store.previewSources inputs discovered)
          (store.planPreview inputs discovered) := by
  intro h
  obtain ⟨live, hlive⟩ := indexedOnce_reachable.holds
  have hselected := (h indexedOnce indexedOnce_reachable upgradedWorker [sampleUnit "A.kt" "sha256:a"] [] []).1
  have hmade := hlive.planSources_reusesExactly_iff.1 hselected (sampleUnit "A.kt" "sha256:a") rfl
    (emptySnapshot (sampleUnit "A.kt" "sha256:a")).input (by rw [indexedOnce_inputs]; exact List.mem_cons_self)
    rfl rfl rfl
  exact absurd (hmade.1 (by decide)) (by decide)

theorem indexedOnce_same_worker :
    ReusesExactly indexedOnce sampleProvenance [sampleUnit "A.kt" "sha256:a"]
        (indexedOnce.planSources [sampleUnit "A.kt" "sha256:a"]) ∧
      ReusesExactly indexedOnce sampleProvenance [sampleUnit "A.kt" "sha256:a"]
        (indexedOnce.planAnalysis [sampleUnit "A.kt" "sha256:a"] sampleProvenance) ∧
      ReusesExactly indexedOnce sampleProvenance (indexedOnce.previewSources [] [sampleUnit "A.kt" "sha256:a"])
        (indexedOnce.planPreview [] [sampleUnit "A.kt" "sha256:a"]) := by
  have hmade : ∀ current, MadeByNegotiated indexedOnce sampleProvenance current := by
    intro current source _ input hinput _ _ _
    rw [indexedOnce_inputs, List.mem_singleton] at hinput
    subst hinput
    exact ⟨fun _ => rfl, fun _ => by decide⟩
  exact (planners_reuse_exactly_iff indexedOnce_reachable sampleProvenance _ _ []).2 ⟨hmade _, hmade _⟩

end Kide
