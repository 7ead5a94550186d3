import Kide.Index.BlobReferences
import Kide.Lib.OrderFree

/-!
# The incremental plan

`incremental_plan.rs`: source actions and dependency actions of one index generation, from what is there now and what is
persisted.

* `PartitionsSources`, `PartitionsDependencies`: one action for each unit and each artifact, and no other action;
* `incremental_plan_exact`: the plan is such a partition, in whatever order the four lists are.
-/

namespace Kide
open Collects

inductive ManifestAction where
  | reuse | resolve
deriving DecidableEq, Repr

structure IncrementalIndexPlan where
  manifest : ManifestAction
  sources : List IndexAction
  dependencies : List DependencyAction
deriving DecidableEq, Repr

/-! ## The planners -/

section
variable (manifest : ManifestAction) (currentDependencies persistedDependencies : List ArtifactDescriptor)
  (blobIsAvailable : ResolvedDependencyIdentity → Bool)

def planWithSourceActions (sources : List IndexAction) : IncrementalIndexPlan :=
  ⟨manifest, sources, planDependencies blobIsAvailable currentDependencies persistedDependencies⟩

def planIncrementalIndex (currentSources persistedSources : List SourceUnit) : IncrementalIndexPlan :=
  planWithSourceActions manifest currentDependencies persistedDependencies blobIsAvailable
    (planInvalidation currentSources persistedSources)

/-- The worker is part of the invalidation boundary. -/
def planIncrementalAnalysisIndex (currentSources persistedSources : List AnalysisInput) : IncrementalIndexPlan :=
  planWithSourceActions manifest currentDependencies persistedDependencies blobIsAvailable
    (planAnalysisInvalidation currentSources persistedSources)

end

/-! ## Partitions -/

/-- The unit that an action is about. -/
def IndexAction.sourceUnitId : IndexAction → SourceUnitId
  | .reuse sourceUnit => sourceUnit.id
  | .reanalyze sourceUnit _ => sourceUnit.id
  | .remove sourceUnit => sourceUnit

/-- The artifact that an action is about. -/
def DependencyAction.descriptor : DependencyAction → ArtifactDescriptor
  | .cacheHit descriptor => descriptor
  | .cacheMiss descriptor => descriptor
  | .removed descriptor => descriptor

/-- Persisted from the same content, in the same context, by the same worker under the same options. -/
def AnalysisInput.Persisted (persisted : List AnalysisInput) (input : AnalysisInput) : Prop :=
  ∃ previous ∈ persisted, previous.sourceUnit.id = input.sourceUnit.id ∧
    previous.sourceUnit.content = input.sourceUnit.content ∧
    previous.sourceUnit.context = input.sourceUnit.context ∧ previous.provenance = input.provenance

structure PartitionsSources (current persisted : List AnalysisInput) (actions : List IndexAction) : Prop where
  action : ∀ input ∈ current, ∃ action, actions.filter (·.sourceUnitId = input.sourceUnit.id) = [action] ∧
    (input.Persisted persisted → action = .reuse input.sourceUnit) ∧
    (¬ input.Persisted persisted → ∃ reason, action = .reanalyze input.sourceUnit reason)
  removed : ∀ previous ∈ persisted, previous.sourceUnit.id ∉ current.map (·.sourceUnit.id) →
    actions.filter (·.sourceUnitId = previous.sourceUnit.id) = [.remove previous.sourceUnit.id]
  only : ∀ action ∈ actions, action.sourceUnitId ∈ current.map (·.sourceUnit.id) ++ persisted.map (·.sourceUnit.id)

/-- Cataloged under the same identity, and its blob is there. -/
def ArtifactDescriptor.Available (blobIsAvailable : ResolvedDependencyIdentity → Bool) (persisted : List ArtifactDescriptor)
    (descriptor : ArtifactDescriptor) : Prop :=
  (∃ previous ∈ persisted, previous.sourceUnit.id = descriptor.sourceUnit.id ∧ previous.identity = descriptor.identity) ∧
    blobIsAvailable descriptor.identity = true

structure PartitionsDependencies (blobIsAvailable : ResolvedDependencyIdentity → Bool) (current persisted : List ArtifactDescriptor)
    (actions : List DependencyAction) : Prop where
  action : ∀ descriptor ∈ current, ∃ action,
    actions.filter (·.descriptor.sourceUnit.id = descriptor.sourceUnit.id) = [action] ∧
    (descriptor.Available blobIsAvailable persisted → action = .cacheHit descriptor) ∧
    (¬ descriptor.Available blobIsAvailable persisted → action = .cacheMiss descriptor)
  removed : ∀ previous ∈ persisted, previous.sourceUnit.id ∉ current.map (·.sourceUnit.id) →
    actions.filter (·.descriptor.sourceUnit.id = previous.sourceUnit.id) = [.removed previous]
  only : ∀ action ∈ actions,
    action.descriptor.sourceUnit.id ∈ current.map (·.sourceUnit.id) ++ persisted.map (·.sourceUnit.id)

/-! ## Source actions -/

instance : Std.Total SourceUnitId.le := ⟨fun _ _ => String.le_total _ _⟩

instance : IsTrans SourceUnitId SourceUnitId.le := ⟨fun _ _ _ => String.le_trans⟩

instance : Std.Antisymm SourceUnitId.le := ⟨fun a b hab hba => by
  cases a
  cases b
  exact congrArg _ (String.le_antisymm hab hba)⟩

section
variable {α : Type} {unit : α → SourceUnit} {changed : α → α → Option InvalidationReason} {current persisted : List α}

theorem actionFor_sourceUnitId (input : α) : (actionFor unit changed persisted input).sourceUnitId = (unit input).id := by
  unfold actionFor
  dsimp only
  split <;> rfl

theorem planWith_ids : (planWith unit changed current persisted).map (·.sourceUnitId) =
    sortedKeys (fun a => (unit a).id) SourceUnitId.le current
      ++ (sortedKeys (fun a => (unit a).id) SourceUnitId.le persisted).filter fun id => id ∉ current.map fun a => (unit a).id := by
  have hkeys := collect_keys (fun a => (unit a).id) SourceUnitId.le current
  unfold planWith
  rw [List.map_append, List.map_map, List.map_map, ← hkeys]
  congr 1
  · exact List.map_congr_left fun input _ => actionFor_sourceUnitId input
  · exact List.map_id _

theorem sortedKeys_nodup (key : α → SourceUnitId) (l : List α) : (sortedKeys key SourceUnitId.le l).Nodup := by
  rw [← collect_keys]
  exact collect_keys_nodup _ _ l

theorem planWith_ids_nodup : ((planWith unit changed current persisted).map (·.sourceUnitId)).Nodup := by
  rw [planWith_ids, List.nodup_append']
  refine ⟨sortedKeys_nodup _ current, (sortedKeys_nodup _ persisted).filter _, fun id hid hfilter => ?_⟩
  exact absurd ((mem_sortedKeys _ _).1 hid) (by simpa using (List.mem_filter.1 hfilter).2)

theorem planWith_filter {action : IndexAction} (h : action ∈ planWith unit changed current persisted) :
    (planWith unit changed current persisted).filter (·.sourceUnitId = action.sourceUnitId) = [action] :=
  filter_key_eq_singleton IndexAction.sourceUnitId planWith_ids_nodup h

/-- Neither list has to be in any order. -/
theorem planWith_perm {current' persisted' : List α} (hcurrent : (current.map fun a => (unit a).id).Nodup)
    (hpersisted : (persisted.map fun a => (unit a).id).Nodup) (h : current.Perm current') (h' : persisted.Perm persisted') :
    planWith unit changed current persisted = planWith unit changed current' persisted' := by
  have hids : ∀ id, id ∉ current.map (fun a => (unit a).id) ↔ id ∉ current'.map fun a => (unit a).id :=
    fun id => not_congr (h.map _).mem_iff
  unfold planWith
  rw [collect_perm _ _ hcurrent h, sortedKeys_perm _ _ h']
  congr 1
  · refine List.map_congr_left fun input _ => ?_
    unfold actionFor
    rw [lastOf_perm _ hpersisted h']
  · refine congrArg _ (List.filter_congr fun id _ => ?_)
    exact decide_eq_decide.2 (hids id)

end

section
variable {current persisted : List AnalysisInput}

theorem planAnalysisInvalidation_partitions (hcurrent : (current.map (·.sourceUnit.id)).Nodup)
    (hpersisted : (persisted.map (·.sourceUnit.id)).Nodup) :
    PartitionsSources current persisted (planAnalysisInvalidation current persisted) := by
  have hreused : ∀ input ∈ current, .reuse input.sourceUnit ∈ planAnalysisInvalidation current persisted ↔
      input.Persisted persisted := by
    intro input hinput
    unfold planAnalysisInvalidation AnalysisInput.Persisted
    rw [mem_planWith_reuse]
    constructor
    · rintro ⟨other, hother, hunit, previous, hlast, hchanged⟩
      obtain ⟨hprevious, hid⟩ := (lastOf_eq_some_iff _ hpersisted).1 hlast
      obtain rfl : other = input := by
        refine List.inj_on_of_nodup_map hcurrent (lastOf_some _ hother).1 hinput ?_
        rw [hunit]
      exact ⟨previous, hprevious, hid, analysisChange_eq_none.1 hchanged⟩
    · rintro ⟨previous, hprevious, hid, hsame⟩
      refine ⟨input, (lastOf_eq_some_iff _ hcurrent).2 ⟨hinput, rfl⟩, rfl, previous, ?_, analysisChange_eq_none.2 hsame⟩
      exact (lastOf_eq_some_iff _ hpersisted).2 ⟨hprevious, hid⟩
  refine ⟨fun input hinput => ?_, fun previous hprevious hgone => ?_, fun action haction => ?_⟩
  · have hrequested : Requested AnalysisInput.sourceUnit current input := (lastOf_eq_some_iff _ hcurrent).2 ⟨hinput, rfl⟩
    by_cases h : input.Persisted persisted
    · exact ⟨_, planWith_filter ((hreused input hinput).2 h), fun _ => rfl, fun hnot => absurd h hnot⟩
    · obtain ⟨reason, hreanalyze⟩ := (reanalyze_iff_not_reuse hrequested).2 fun hreuse => h ((hreused input hinput).1 hreuse)
      exact ⟨_, planWith_filter hreanalyze, fun hpersists => absurd hpersists h, fun _ => ⟨reason, rfl⟩⟩
  · exact planWith_filter (mem_planWith_remove.2 ⟨List.mem_map_of_mem hprevious, hgone⟩)
  · have hid : action.sourceUnitId ∈ (planAnalysisInvalidation current persisted).map (·.sourceUnitId) :=
      List.mem_map_of_mem haction
    unfold planAnalysisInvalidation at hid
    rw [planWith_ids, List.mem_append, List.mem_filter, mem_sortedKeys, mem_sortedKeys] at hid
    exact List.mem_append.2 (hid.imp_right And.left)

/-- Under one provenance the worker takes no part. -/
theorem planInvalidation_eq_planAnalysisInvalidation {provenance : Provenance}
    (h : ∀ input ∈ current ++ persisted, input.provenance = provenance) :
    planInvalidation (current.map (·.sourceUnit)) (persisted.map (·.sourceUnit)) =
      planAnalysisInvalidation current persisted := by
  have hchange : ∀ input ∈ current, ∀ previous ∈ persisted,
      sourceChange previous.sourceUnit input.sourceUnit = analysisChange previous input := by
    intro input hinput previous hprevious
    have hsame : previous.provenance = input.provenance :=
      (h previous (List.mem_append_right _ hprevious)).trans (h input (List.mem_append_left _ hinput)).symm
    unfold sourceChange analysisChange
    rw [hsame]
    simp
  have hkeys : ∀ l : List AnalysisInput, sortedKeys (fun source : SourceUnit => source.id) SourceUnitId.le (l.map (·.sourceUnit)) =
      sortedKeys (fun input : AnalysisInput => input.sourceUnit.id) SourceUnitId.le l := by
    intro l
    unfold sortedKeys
    rw [List.map_map]
    rfl
  have hcollect : collect (fun source : SourceUnit => source.id) SourceUnitId.le (current.map (·.sourceUnit)) =
      (collect (fun input : AnalysisInput => input.sourceUnit.id) SourceUnitId.le current).map (·.sourceUnit) := by
    unfold collect
    rw [hkeys, List.map_filterMap]
    exact List.filterMap_congr fun id _ => lastOf_map _ _ _ _
  unfold planInvalidation planAnalysisInvalidation planWith
  simp only [id]
  simp only [hcollect, hkeys, List.map_map]
  congr 1
  refine List.map_congr_left fun input hinput => ?_
  have hmem : input ∈ current := (lastOf_some _ ((mem_collect _ _).1 hinput)).1
  unfold actionFor
  simp only [id, Function.comp_apply]
  rw [lastOf_map]
  cases hlast : lastOf (fun a : AnalysisInput => a.sourceUnit.id) persisted input.sourceUnit.id with
  | none => rfl
  | some previous => simp only [Option.map_some, hchange input hmem previous (lastOf_some _ hlast).1]

end

/-! ## Dependency actions -/

section
variable {blobIsAvailable : ResolvedDependencyIdentity → Bool} {current persisted : List ArtifactDescriptor}

theorem planDependencies_ids : (planDependencies blobIsAvailable current persisted).map (·.descriptor.sourceUnit.id) =
    sortedKeys (·.sourceUnit.id) SourceUnitId.le current
      ++ (sortedKeys (·.sourceUnit.id) SourceUnitId.le persisted).filter fun id => id ∉ current.map (·.sourceUnit.id) := by
  unfold planDependencies
  rw [List.map_append, List.map_map, List.map_map, ← collect_keys, ← collect_keys, List.filter_map]
  congr 1
  refine List.map_congr_left fun descriptor _ => ?_
  simp only [Function.comp_apply]
  split <;> rfl

theorem planDependencies_filter {action : DependencyAction} (h : action ∈ planDependencies blobIsAvailable current persisted) :
    (planDependencies blobIsAvailable current persisted).filter
      (·.descriptor.sourceUnit.id = action.descriptor.sourceUnit.id) = [action] := by
  refine filter_key_eq_singleton (fun action : DependencyAction => action.descriptor.sourceUnit.id) ?_ h
  rw [planDependencies_ids, List.nodup_append']
  refine ⟨sortedKeys_nodup _ current, (sortedKeys_nodup _ persisted).filter _, fun id hid hfilter => ?_⟩
  exact absurd ((mem_sortedKeys _ _).1 hid) (by simpa using (List.mem_filter.1 hfilter).2)

theorem planDependencies_partitions (hcurrent : (current.map (·.sourceUnit.id)).Nodup)
    (hpersisted : (persisted.map (·.sourceUnit.id)).Nodup) :
    PartitionsDependencies blobIsAvailable current persisted (planDependencies blobIsAvailable current persisted) := by
  have havailable : ∀ descriptor : ArtifactDescriptor,
      ((lastOf (·.sourceUnit.id) persisted descriptor.sourceUnit.id).any (·.identity = descriptor.identity)
        && blobIsAvailable descriptor.identity) = true ↔ descriptor.Available blobIsAvailable persisted := by
    intro descriptor
    unfold ArtifactDescriptor.Available
    rw [Bool.and_eq_true, Option.any_eq_true]
    refine and_congr_left fun _ => exists_congr fun previous => ?_
    rw [lastOf_eq_some_iff _ hpersisted, decide_eq_true_eq, and_assoc]
  refine ⟨fun descriptor hdescriptor => ?_, fun previous hprevious hgone => ?_, fun action haction => ?_⟩
  · have hmem := (mem_collect _ SourceUnitId.le).2 ((lastOf_eq_some_iff _ hcurrent).2 ⟨hdescriptor, rfl⟩)
    have haction := List.mem_append_left (((collect (·.sourceUnit.id) SourceUnitId.le persisted).filter fun descriptor =>
      descriptor.sourceUnit.id ∉ current.map (·.sourceUnit.id)).map DependencyAction.removed)
        (List.mem_map_of_mem (f := fun descriptor : ArtifactDescriptor =>
          if ((lastOf (·.sourceUnit.id) persisted descriptor.sourceUnit.id).any (·.identity = descriptor.identity)
            && blobIsAvailable descriptor.identity) = true then DependencyAction.cacheHit descriptor else .cacheMiss descriptor) hmem)
    by_cases h : descriptor.Available blobIsAvailable persisted
    · rw [if_pos ((havailable descriptor).2 h)] at haction
      exact ⟨_, planDependencies_filter haction, fun _ => rfl, fun hnot => absurd h hnot⟩
    · rw [if_neg fun hyes => h ((havailable descriptor).1 hyes)] at haction
      exact ⟨_, planDependencies_filter haction, fun hyes => absurd hyes h, fun _ => rfl⟩
  · refine planDependencies_filter (List.mem_append_right _ (List.mem_map_of_mem (List.mem_filter.2 ⟨?_, by simpa using hgone⟩)))
    exact (mem_collect _ SourceUnitId.le).2 ((lastOf_eq_some_iff _ hpersisted).2 ⟨hprevious, rfl⟩)
  · have hid : action.descriptor.sourceUnit.id ∈
        (planDependencies blobIsAvailable current persisted).map (·.descriptor.sourceUnit.id) := List.mem_map_of_mem haction
    rw [planDependencies_ids, List.mem_append, List.mem_filter, mem_sortedKeys, mem_sortedKeys] at hid
    exact List.mem_append.2 (hid.imp_right And.left)

theorem planDependencies_perm {current' persisted' : List ArtifactDescriptor} (hcurrent : (current.map (·.sourceUnit.id)).Nodup)
    (hpersisted : (persisted.map (·.sourceUnit.id)).Nodup) (h : current.Perm current') (h' : persisted.Perm persisted') :
    planDependencies blobIsAvailable current persisted = planDependencies blobIsAvailable current' persisted' := by
  unfold planDependencies
  rw [collect_perm _ _ hcurrent h, collect_perm _ _ hpersisted h']
  congr 1
  · refine List.map_congr_left fun descriptor _ => ?_
    rw [lastOf_perm _ hpersisted h']
  · refine congrArg _ (List.filter_congr fun descriptor _ => ?_)
    exact decide_eq_decide.2 (not_congr (h.map _).mem_iff)

end

/-! ## The plan -/

/-- **Plan.** For lists of distinct ids the plan has one action for each unit and for each artifact, the right one, and no
other; it does not depend on the order of the lists, nor on the worker while there is only one. -/
theorem incremental_plan_exact (manifest : ManifestAction) (currentSources persistedSources : List AnalysisInput)
    (currentDependencies persistedDependencies : List ArtifactDescriptor)
    (blobIsAvailable : ResolvedDependencyIdentity → Bool)
    (hcurrent : (currentSources.map (·.sourceUnit.id)).Nodup) (hpersisted : (persistedSources.map (·.sourceUnit.id)).Nodup)
    (hdependencies : (currentDependencies.map (·.sourceUnit.id)).Nodup)
    (hcataloged : (persistedDependencies.map (·.sourceUnit.id)).Nodup) :
    let plan := planIncrementalAnalysisIndex manifest currentDependencies persistedDependencies blobIsAvailable
      currentSources persistedSources
    PartitionsSources currentSources persistedSources plan.sources ∧
      PartitionsDependencies blobIsAvailable currentDependencies persistedDependencies plan.dependencies ∧
      (∀ currentSources' persistedSources' currentDependencies' persistedDependencies',
        currentSources.Perm currentSources' → persistedSources.Perm persistedSources' →
        currentDependencies.Perm currentDependencies' → persistedDependencies.Perm persistedDependencies' →
          planIncrementalAnalysisIndex manifest currentDependencies' persistedDependencies' blobIsAvailable
            currentSources' persistedSources' = plan) ∧
      ∀ provenance, (∀ input ∈ currentSources ++ persistedSources, input.provenance = provenance) →
        planIncrementalIndex manifest currentDependencies persistedDependencies blobIsAvailable
          (currentSources.map (·.sourceUnit)) (persistedSources.map (·.sourceUnit)) = plan := by
  refine ⟨planAnalysisInvalidation_partitions hcurrent hpersisted, planDependencies_partitions hdependencies hcataloged, ?_, ?_⟩
  · intro _ _ _ _ h₁ h₂ h₃ h₄
    unfold planIncrementalAnalysisIndex planWithSourceActions planAnalysisInvalidation
    rw [planWith_perm hcurrent hpersisted h₁ h₂, planDependencies_perm hdependencies hcataloged h₃ h₄]
  · intro provenance h
    unfold planIncrementalIndex
    rw [planInvalidation_eq_planAnalysisInvalidation h]
    rfl

/-- A file that an older worker has analyzed, a file that is gone and a library that is new. -/
theorem upgraded_worker_plan :
    PartitionsSources [⟨sampleUnit "A.kt" "sha256:a", upgradedWorker, none⟩]
        [⟨sampleUnit "A.kt" "sha256:a", sampleProvenance, none⟩, ⟨sampleUnit "B.kt" "sha256:b", sampleProvenance, none⟩]
        [.reanalyze (sampleUnit "A.kt" "sha256:a") .backendChanged, .remove (sampleUnit "B.kt" "sha256:b").id] ∧
      PartitionsDependencies (fun _ => true) [BlobOperation.sampleArtifact "sha256:library"] []
        [.cacheMiss (BlobOperation.sampleArtifact "sha256:library")] := by
  have hplan : planIncrementalAnalysisIndex .reuse [BlobOperation.sampleArtifact "sha256:library"] [] (fun _ => true)
      [⟨sampleUnit "A.kt" "sha256:a", upgradedWorker, none⟩]
      [⟨sampleUnit "A.kt" "sha256:a", sampleProvenance, none⟩, ⟨sampleUnit "B.kt" "sha256:b", sampleProvenance, none⟩] =
        ⟨.reuse, [.reanalyze (sampleUnit "A.kt" "sha256:a") .backendChanged, .remove (sampleUnit "B.kt" "sha256:b").id],
          [.cacheMiss (BlobOperation.sampleArtifact "sha256:library")]⟩ := by decide +kernel
  obtain ⟨hsources, hdependencies, -⟩ := incremental_plan_exact .reuse
    [⟨sampleUnit "A.kt" "sha256:a", upgradedWorker, none⟩]
    [⟨sampleUnit "A.kt" "sha256:a", sampleProvenance, none⟩, ⟨sampleUnit "B.kt" "sha256:b", sampleProvenance, none⟩]
    [BlobOperation.sampleArtifact "sha256:library"] [] (fun _ => true) (by decide) (by decide) (by decide) (by decide)
  rw [hplan] at hsources hdependencies
  exact ⟨hsources, hdependencies⟩

end Kide
