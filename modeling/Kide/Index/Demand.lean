import Kide.Artifact.Readers
import Kide.Artifact.Adapter
import Kide.Index.ArtifactLinks
import Mathlib.Data.List.Induction

/-!
# Materialization on demand

`materialize_catalog_artifact`: one cataloged artifact is materialized, its blob referenced, decoded, and
every snapshot of it stored. The reference is written before the blob is looked into, and each snapshot
is a transaction of its own, so a call may fail with some of its writes done.

`demand_touches_only`: the call keeps to the unit it was asked for exactly if the payload `Fits` what the
store has.
-/

namespace Kide
open Runs Collects Tables Transactions Checks

/-! ## The call -/

/-- What `load` hands out under a key. -/
inductive BlobLoad where
  | payload (bytes : Bytes)
  | absent
  | failed

/-- The snapshots in the graph section of a payload. -/
def graphSnapshots (reader : BlobReader) (payload : Bytes) : Except IndexOrchestratorError (List FileAnalysisSnapshot) :=
  match ArtifactBlobLayout.validate reader payload with
  | .error _ => .error .invalidStagedArtifact
  | .ok layout =>
    match layout.graphFacts reader with
    | .error _ => .error .invalidStagedArtifact
    | .ok graph =>
      match ArtifactAdapter.decodeGraphArtifact graph with
      | .error _ => .error .invalidStagedArtifact
      | .ok snapshots => .ok snapshots

/-- Where a call stands before its first write. -/
inductive Demand where
  | answered (outcome : MaterializationOutcome)
  | fetched (descriptor : ArtifactDescriptor) (payload : Bytes)

section
variable (cache : ArtifactBlobCache) (loads : Nat → ResolvedDependencyIdentity → BlobLoad) (reader : BlobReader)
  (env : Environment) (supervisor : Handle) (workspaceRoot : WorkspacePath) (stagingDirectory : String)

/-- Materializes the artifact without a locator and loads its blob. -/
def fetchPayload (descriptor : ArtifactDescriptor) (sourceUnit : SourceUnitId) : Orchestration Bytes := do
  let _ ← materializeArtifact cache env supervisor workspaceRoot stagingDirectory descriptor none
    ("demand-materialize-" ++ sourceUnit.asStr)
  let tick ← first Index.tick
  match loads tick descriptor.identity with
  | .payload bytes => pure bytes
  | .absent => fail .invalidStagedArtifact
  | .failed => fail .artifactBlobCache

def demandArtifact (sourceUnit : SourceUnitId) (remainingArtifacts : Nat) : Orchestration Demand := do
  let stored ← onIndex (Index.query env.index (·.sourceUnit sourceUnit))
  if stored.isSome then pure (.answered .alreadyMaterialized)
  else do
    let descriptor ← onIndex (Index.query env.index (·.artifactDescriptor sourceUnit))
    match descriptor with
    | none => pure (.answered .notCataloged)
    | some descriptor =>
      if remainingArtifacts = 0 then pure (.answered .budgetExhausted)
      else do
        let payload ← fetchPayload cache loads env supervisor workspaceRoot stagingDirectory descriptor sourceUnit
        pure (.fetched descriptor payload)

def storeSnapshot (snapshot : FileAnalysisSnapshot) : Orchestration Unit :=
  onIndex (Index.write env.index (fun disk store => store.replaceSnapshot disk snapshot.sourceUnit snapshot)
    (some (.committed [snapshot.sourceUnit] [snapshot] [(snapshot.sourceUnit, snapshot)])))

/-- References the blob, looks into it and stores its snapshots one after another. -/
def deliverPayload (descriptor : ArtifactDescriptor) (payload : Bytes) : Orchestration Unit := do
  onIndex (Index.write env.index
    (fun disk store => store.recordArtifactBlob cache.cacheKey disk descriptor payload.length) none)
  let snapshots ← lift (graphSnapshots reader payload)
  snapshots.forM (storeSnapshot env)

/-- Resolves one catalog descriptor on demand; returns the budget that is left. -/
def materializeCatalogArtifact (sourceUnit : SourceUnitId) (remainingArtifacts : Nat) :
    Orchestration (MaterializationOutcome × Nat) := do
  let demand ← demandArtifact cache loads env supervisor workspaceRoot stagingDirectory sourceUnit remainingArtifacts
  match demand with
  | .answered outcome => pure (outcome, remainingArtifacts)
  | .fetched descriptor payload => do
    deliverPayload cache reader env descriptor payload
    pure (.materialized, remainingArtifacts - 1)

end

/-! ## What a call may touch -/

/-- The rows of the fact tables that a unit owns. -/
def IndexStore.factsOf (store : IndexStore) (sourceUnit : SourceUnitId) : List FactRow :=
  store.facts.filter (ownedBy store.facts sourceUnit)

/-- Every unit refers to the blob it referred to. -/
def SameReferences (store store' : IndexStore) : Prop :=
  ∀ sourceUnit, store'.artifactBlobFor sourceUnit = store.artifactBlobFor sourceUnit

/-- The snapshot is of the unit that the catalog describes, in its content and its context. -/
def Describes (descriptor : ArtifactDescriptor) (snapshot : FileAnalysisSnapshot) : Prop :=
  snapshot.id = descriptor.sourceUnit.id ∧ snapshot.sourceUnit.content = descriptor.sourceUnit.content ∧
    snapshot.sourceUnit.context = descriptor.sourceUnit.context

instance (descriptor : ArtifactDescriptor) (snapshot : FileAnalysisSnapshot) : Decidable (Describes descriptor snapshot) :=
  inferInstanceAs (Decidable (_ ∧ _ ∧ _))

/-- A call that materialized the unit has stored its snapshot and no other; any other call has stored none, and
a call that failed has left the references too. -/
def TouchesOnly (sourceUnit : SourceUnitId) (store store' : IndexStore) :
    Except IndexOrchestratorError (MaterializationOutcome × Nat) → Prop
  | .ok (.materialized, _) =>
    (∃ descriptor snapshot, store.artifactDescriptor sourceUnit = some descriptor ∧ Describes descriptor snapshot ∧
        store'.factsOf sourceUnit = snapshot.rows) ∧
      ∀ other, other ≠ sourceUnit → store'.factsOf other = store.factsOf other
  | .ok _ => ∀ other, store'.factsOf other = store.factsOf other
  | .error _ => (∀ other, store'.factsOf other = store.factsOf other) ∧ SameReferences store store'

/-! ## The condition -/

/-- The snapshots that the store takes before it refuses one. -/
def takenSnapshots (env : IndexEnvironment) : Nat → IndexStore → List FileAnalysisSnapshot → List FileAnalysisSnapshot
  | _, _, [] => []
  | clock, store, snapshot :: snapshots =>
    match store.replaceSnapshot (env.disk clock) snapshot.sourceUnit snapshot with
    | (.ok (), store') => snapshot :: takenSnapshots env (clock + 1) store' snapshots
    | (.error _, _) => []

/-- The unit's last snapshot in the list is what the store has for it already. -/
def Repeats (store : IndexStore) (snapshots : List FileAnalysisSnapshot) (sourceUnit : SourceUnitId) : Prop :=
  ∀ snapshot, lastOf (·.id) snapshots sourceUnit = some snapshot → store.factsOf sourceUnit = snapshot.rows

/-- The unit refers to this blob already. -/
def AlreadyReferenced (cache : ArtifactBlobCache) (store : IndexStore) (descriptor : ArtifactDescriptor) (payload : Bytes) :
    Prop :=
  store.artifactBlobFor descriptor.sourceUnit.id =
    some ⟨cache.cacheKey descriptor.identity, descriptor.identity, some payload.length⟩

instance (cache : ArtifactBlobCache) (store : IndexStore) (descriptor : ArtifactDescriptor) (payload : Bytes) :
    Decidable (AlreadyReferenced cache store descriptor payload) := inferInstanceAs (Decidable (_ = _))

/-- What a payload has to be for a store whose reference has just been recorded at `clock`. A payload that is
delivered whole describes the unit and at most repeats the others; one that is not only repeats what is there. -/
def Fits (cache : ArtifactBlobCache) (reader : BlobReader) (env : IndexEnvironment) (store : IndexStore) (clock : Nat)
    (descriptor : ArtifactDescriptor) (payload : Bytes) : Prop :=
  match store.recordArtifactBlob cache.cacheKey (env.disk clock) descriptor payload.length with
  | (.error _, _) => True
  | (.ok (), recorded) =>
    match graphSnapshots reader payload with
    | .error _ => AlreadyReferenced cache store descriptor payload
    | .ok snapshots =>
      let taken := takenSnapshots env (clock + 1) recorded snapshots
      if taken = snapshots then
        (∃ snapshot, lastOf (·.id) snapshots descriptor.sourceUnit.id = some snapshot ∧ Describes descriptor snapshot) ∧
          ∀ other, other ≠ descriptor.sourceUnit.id → Repeats store snapshots other
      else AlreadyReferenced cache store descriptor payload ∧ ∀ other, Repeats store taken other

/-! ## Rows of one unit -/

section
variable {store store' : IndexStore} {live : List FileAnalysisSnapshot}

theorem Holds.factsOf (h : Holds store live) (sourceUnit : SourceUnitId) :
    store.factsOf sourceUnit = (lookup live sourceUnit).toList.flatMap (·.rows) := by
  unfold IndexStore.factsOf
  have howned : ∀ snapshot ∈ live, ∀ row ∈ snapshot.rows,
      ownedBy store.facts sourceUnit row = decide (snapshot.id = sourceUnit) :=
    fun snapshot hs row hr => h.ownedBy_iff hs hr sourceUnit
  generalize ownedBy store.facts sourceUnit = owned at howned ⊢
  rw [h.facts]
  exact filter_flatMap_owner h.ids_nodup howned

/-- The rows of a snapshot carry its unit. -/
theorem sourceUnit_of_rows {a b : FileAnalysisSnapshot} (h : a.rows = b.rows) : a.sourceUnit = b.sourceUnit := by
  have hmem : FactRow.sourceSnapshots a.snapshotRow ∈ b.rows := h ▸ mem_rows_iff.2 (.inl rfl)
  have hrow : a.snapshotRow ∈ b.rows.filterMap FactRow.inSourceSnapshots := List.mem_filterMap.2 ⟨_, hmem, rfl⟩
  rw [rows_inSourceSnapshots] at hrow
  exact congrArg SourceSnapshotRow.sourceUnitJson (List.mem_singleton.1 hrow)

theorem rows_ne_nil (snapshot : FileAnalysisSnapshot) : snapshot.rows ≠ [] := by
  intro h
  have hmem : FactRow.sourceSnapshots snapshot.snapshotRow ∈ snapshot.rows := mem_rows_iff.2 (.inl rfl)
  rw [h] at hmem
  exact List.not_mem_nil hmem

/-- A unit that the store does not know owns nothing. -/
theorem Holds.factsOf_unknown (h : Holds store live) {sourceUnit : SourceUnitId} (hnone : store.sourceUnit sourceUnit = none) :
    store.factsOf sourceUnit = [] := by
  rw [h.factsOf]
  cases hlookup : lookup live sourceUnit with
  | none => rfl
  | some snapshot =>
    have hrows := h.refines.sourceSnapshots sourceUnit
    rw [hlookup] at hrows
    have hfound : snapshot.snapshotRow ∈ store.sourceSnapshots.filter (·.sourceUnitId = sourceUnit) := by
      rw [hrows]
      exact List.mem_singleton_self _
    have hmissing := List.find?_eq_none.1 (Option.map_eq_none_iff.1 hnone) _ (List.mem_filter.1 hfound).1
    exact absurd (List.mem_filter.1 hfound).2 hmissing

/-- After a list of snapshots was committed a unit has its last one there, or what it had. -/
theorem lookup_committed (snapshots : List FileAnalysisSnapshot) (sourceUnit : SourceUnitId) :
    lookup ((snapshots.map fun snapshot => (snapshot.sourceUnit, snapshot)).foldl commitLive live) sourceUnit =
      (lastOf (·.id) snapshots sourceUnit).or (lookup live sourceUnit) := by
  rw [lookup_batch fun entry hentry => by
    obtain ⟨snapshot, -, rfl⟩ := List.mem_map.1 hentry
    rfl]
  induction snapshots using List.reverseRecOn with
  | nil => rfl
  | append_singleton snapshots snapshot ih =>
    rw [List.map_append, List.foldl_append, List.map_singleton, List.foldl_cons, List.foldl_nil, SnapshotMap.replace]
    unfold lastOf at ih ⊢
    rw [List.reverse_append, List.reverse_singleton, List.singleton_append, List.find?_cons]
    by_cases hid : snapshot.id = sourceUnit
    · subst hid
      rw [decide_eq_true rfl]
      exact Function.update_self ..
    · rw [decide_eq_false hid]
      exact (Function.update_of_ne (fun h => hid h.symm) _ _).trans ih

theorem Holds.factsOf_committed {snapshots : List FileAnalysisSnapshot} (h : Holds store live)
    (h' : Holds store' ((snapshots.map fun snapshot => (snapshot.sourceUnit, snapshot)).foldl commitLive live))
    (sourceUnit : SourceUnitId) :
    store'.factsOf sourceUnit = match lastOf (·.id) snapshots sourceUnit with
      | some snapshot => snapshot.rows
      | none => store.factsOf sourceUnit := by
  rw [h'.factsOf, h.factsOf, lookup_committed]
  cases lastOf (·.id) snapshots sourceUnit with
  | none => rfl
  | some snapshot => exact List.append_nil _

theorem Holds.repeats_iff {snapshots : List FileAnalysisSnapshot} (h : Holds store live)
    (h' : Holds store' ((snapshots.map fun snapshot => (snapshot.sourceUnit, snapshot)).foldl commitLive live))
    (sourceUnit : SourceUnitId) :
    store'.factsOf sourceUnit = store.factsOf sourceUnit ↔ Repeats store snapshots sourceUnit := by
  rw [h.factsOf_committed h']
  unfold Repeats
  cases lastOf (·.id) snapshots sourceUnit with
  | none => exact ⟨fun _ _ hnone => (nomatch hnone), fun _ => rfl⟩
  | some snapshot =>
    refine ⟨fun hrows other hother => ?_, fun hrepeats => (hrepeats snapshot rfl).symm⟩
    cases hother
    exact hrows.symm

end

/-! ## The reference -/

section
variable {cache : ArtifactBlobCache} {store recorded : IndexStore} {disk : Disk} {descriptor : ArtifactDescriptor} {payload : Bytes}

/-- Recording a blob changes no reference exactly if the unit refers to it already. -/
theorem sameReferences_iff
    (hrecord : store.recordArtifactBlob cache.cacheKey disk descriptor payload.length = (.ok (), recorded)) :
    SameReferences store recorded ↔ AlreadyReferenced cache store descriptor payload := by
  obtain ⟨blobs, hstore, -, hfind⟩ := recordArtifactBlob_ok (congrArg Prod.fst hrecord)
  rw [hrecord] at hstore
  change recorded = _ at hstore
  have hself : recorded.artifactBlobFor descriptor.sourceUnit.id =
      some ⟨cache.cacheKey descriptor.identity, descriptor.identity, some payload.length⟩ := by
    rw [hstore]
    unfold IndexStore.artifactBlobFor
    simp only [find_upsert, if_pos, hfind, bind, Option.bind]
  constructor
  · exact fun hsame => (hsame _).symm.trans hself
  intro halready sourceUnit
  unfold AlreadyReferenced at halready
  by_cases hunit : descriptor.sourceUnit.id = sourceUnit
  · rw [← hunit, hself, halready]
  obtain ⟨reference, hreference, hentry⟩ := Option.bind_eq_some_iff.1 halready
  obtain ⟨row, hrow, hentry⟩ := Option.bind_eq_some_iff.1 hentry
  obtain ⟨hkey, hidentity, hlength⟩ := ArtifactBlobCatalogEntry.mk.inj (Option.some.inj hentry)
  have hblobs : ∀ k, blobs.find? (·.blobKey = k) = store.artifactBlobCatalog.find? (·.blobKey = k) := by
    intro k
    rw [hfind]
    split
    · next hk =>
      have hsame : row.blobKey = reference.2 := by simpa using List.find?_some hrow
      rw [← hk, ← hkey, hsame, hrow, ← hsame, ← hidentity, ← Option.some.inj hlength]
    · rfl
  rw [hstore]
  unfold IndexStore.artifactBlobFor
  simp only [find_upsert, if_neg hunit, hblobs]

end

/-! ## The loop over the snapshots -/

section
variable {env : Environment}

/-- Storing a snapshot leaves the references. -/
theorem replaceSnapshot_references {store store' : IndexStore} {disk : Disk} {snapshot : FileAnalysisSnapshot}
    (h : store.replaceSnapshot disk snapshot.sourceUnit snapshot = (.ok (), store')) : SameReferences store store' := by
  have hframe := @IndexStore.replaceSnapshot_publication store disk snapshot.sourceUnit snapshot
  rw [h] at hframe
  have htables : store'.publication = store.publication := hframe
  intro sourceUnit
  have hsame := congrArg (·.artifactBlobFor sourceUnit) htables
  exact hsame

/-- **Run.** What the store takes is committed in order; the loop succeeds exactly if it takes everything. -/
theorem storeSnapshots_run {snapshots : List FileAnalysisSnapshot} {state : Index × Workers} {live : List FileAnalysisSnapshot}
    (h : Holds state.1.store live) :
    let taken := takenSnapshots env.index state.1.clock state.1.store snapshots
    let run := snapshots.forM (storeSnapshot env) state
    (run.1 = .ok () ↔ taken = snapshots) ∧
      Holds run.2.1.store ((taken.map fun snapshot => (snapshot.sourceUnit, snapshot)).foldl commitLive live) ∧
      SameReferences state.1.store run.2.1.store := by
  induction snapshots generalizing state live with
  | nil => exact ⟨⟨fun _ => rfl, fun _ => rfl⟩, h, fun _ => rfl⟩
  | cons snapshot snapshots ih =>
    rcases hresult : state.1.store.replaceSnapshot (env.index.disk state.1.clock) snapshot.sourceUnit snapshot with ⟨e | u, store⟩
    · have hsame : store = state.1.store := by
        have hkept := replaceSnapshot_error (congrArg Prod.fst hresult)
        rwa [hresult] at hkept
      have hrun : storeSnapshot env snapshot state = _ := onIndex_write_eq_error hresult
      have hloop : (snapshot :: snapshots).forM (storeSnapshot env) state = _ := (run_bind ..).trans (by rw [hrun])
      simp only [takenSnapshots, hresult, hloop, hsame]
      exact ⟨⟨fun h => (nomatch h), fun h => (nomatch h)⟩, h, fun _ => rfl⟩
    · let committed : Index × Workers := (⟨store, state.1.clock + 1,
        .committed [snapshot.sourceUnit] [snapshot] [(snapshot.sourceUnit, snapshot)] :: state.1.log⟩, state.2)
      have hrun : storeSnapshot env snapshot state = (.ok (), committed) := onIndex_write_eq_ok hresult
      have hloop : (snapshot :: snapshots).forM (storeSnapshot env) state = snapshots.forM (storeSnapshot env) committed :=
        (run_bind ..).trans (by rw [hrun])
      have hcommitted := (replaceSnapshot_ok (congrArg Prod.fst hresult)).2
      rw [hresult] at hcommitted
      have hnext := @ih committed _ (h.replaced hcommitted)
      simp only [takenSnapshots, hresult, hloop, List.cons.injEq, true_and, List.map_cons, List.foldl_cons]
      refine ⟨hnext.1, hnext.2.1, fun sourceUnit => ?_⟩
      exact (hnext.2.2 sourceUnit).trans (replaceSnapshot_references hresult sourceUnit)

end

/-! ## Before the first write -/

section
variable {cache : ArtifactBlobCache} {loads : Nat → ResolvedDependencyIdentity → BlobLoad} {env : Environment}
  {supervisor : Handle} {workspaceRoot : WorkspacePath} {stagingDirectory : String}

theorem onIndex_query_waited {α : Type} (question : IndexStore → α) :
    Within (fun s s' : Index × Workers => Waited s.1 s'.1) (onIndex (Index.query env.index question)) := by
  refine Within.first (Within.mapError fun index => ?_)
  unfold Index.query
  cases env.index.reads index.clock with
  | some e => exact ⟨rfl, Nat.le_succ _⟩
  | none => exact ⟨rfl, Nat.le_succ _⟩

theorem fetchPayload_waited (descriptor : ArtifactDescriptor) (sourceUnit : SourceUnitId) :
    Within (fun s s' : Index × Workers => Waited s.1 s'.1)
      (fetchPayload cache loads env supervisor workspaceRoot stagingDirectory descriptor sourceUnit) := by
  have htrans : ∀ a b c : Index × Workers, Waited a.1 b.1 → Waited b.1 c.1 → Waited a.1 c.1 := fun _ _ _ => Waited.trans
  refine Within.bind htrans (materializeArtifact_waited descriptor none _) fun _ => ?_
  refine Within.bind htrans (Within.first tick_waited) fun tick => ?_
  cases loads tick descriptor.identity with
  | payload bytes => exact fun s => Waited.refl s.1
  | absent => exact fun s => Waited.refl s.1
  | failed => exact fun s => Waited.refl s.1

/-- Nothing is written before the payload is there. -/
theorem demandArtifact_waited (sourceUnit : SourceUnitId) (remainingArtifacts : Nat) :
    Within (fun s s' : Index × Workers => Waited s.1 s'.1)
      (demandArtifact cache loads env supervisor workspaceRoot stagingDirectory sourceUnit remainingArtifacts) := by
  have htrans : ∀ a b c : Index × Workers, Waited a.1 b.1 → Waited b.1 c.1 → Waited a.1 c.1 := fun _ _ _ => Waited.trans
  refine Within.bind htrans (onIndex_query_waited _) fun stored => ?_
  split
  · exact fun s => Waited.refl s.1
  refine Within.bind htrans (onIndex_query_waited _) fun descriptor => ?_
  cases descriptor with
  | none => exact fun s => Waited.refl s.1
  | some descriptor =>
    dsimp only
    split
    · exact fun s => Waited.refl s.1
    · exact Within.bind htrans (fetchPayload_waited descriptor sourceUnit) fun payload => fun s => Waited.refl s.1

/-- An early answer is not that the unit was materialized; a payload is fetched for a cataloged unit only that has
no snapshot. -/
theorem demandArtifact_ok {sourceUnit : SourceUnitId} {remainingArtifacts : Nat} {demand : Demand} {state state' : Index × Workers}
    (h : demandArtifact cache loads env supervisor workspaceRoot stagingDirectory sourceUnit remainingArtifacts state =
      (.ok demand, state')) :
    match demand with
    | .answered outcome => outcome ≠ .materialized
    | .fetched descriptor _ =>
      state.1.store.sourceUnit sourceUnit = none ∧ state.1.store.artifactDescriptor sourceUnit = some descriptor := by
  obtain ⟨stored, s₁, hquery, h⟩ := run_bind_ok.1 h
  obtain ⟨rfl, rfl⟩ := onIndex_query_ok hquery
  split at h
  · cases h
    exact fun hsame => (nomatch hsame)
  next hstored =>
    have hnone := Option.not_isSome_iff_eq_none.1 hstored
    obtain ⟨found, s₂, hquery, h⟩ := run_bind_ok.1 h
    obtain ⟨rfl, rfl⟩ := onIndex_query_ok hquery
    cases hcatalog : state.1.store.artifactDescriptor sourceUnit with
    | none =>
      simp only [hcatalog] at h
      cases h
      exact fun hsame => (nomatch hsame)
    | some descriptor =>
      simp only [hcatalog] at h
      split at h
      · cases h
        exact fun hsame => (nomatch hsame)
      · obtain ⟨payload, s₃, -, h⟩ := run_bind_ok.1 h
        cases h
        exact ⟨hnone, rfl⟩

end

/-! ## The whole call -/

section
variable {cache : ArtifactBlobCache} {loads : Nat → ResolvedDependencyIdentity → BlobLoad} {reader : BlobReader}
  {env : Environment} {supervisor : Handle} {workspaceRoot : WorkspacePath} {stagingDirectory : String}

theorem SameReferences.trans {a b c : IndexStore} (hab : SameReferences a b) (hbc : SameReferences b c) : SameReferences a c :=
  fun sourceUnit => (hbc sourceUnit).trans (hab sourceUnit)

theorem recordArtifactBlob_holds {store recorded : IndexStore} {live : List FileAnalysisSnapshot} {disk : Disk}
    {descriptor : ArtifactDescriptor} {byteLength : Nat} (h : Holds store live)
    (hrecord : store.recordArtifactBlob cache.cacheKey disk descriptor byteLength = (.ok (), recorded)) :
    Holds recorded live ∧ recorded.facts = store.facts := by
  have hfacts : FactsKept store (store.recordArtifactBlob cache.cacheKey disk descriptor byteLength).2 :=
    IndexStore.recordArtifactBlob_facts store disk cache.cacheKey descriptor byteLength
  rw [hrecord] at hfacts
  have hsame : recorded.facts = store.facts := hfacts
  exact ⟨⟨hsame.trans h.facts, hsame ▸ h.unique⟩, hsame⟩

/-- A delivery that was stopped leaves the facts only if what was taken repeats them. -/
theorem deliverPayload_touches_only {sourceUnit : SourceUnitId} {descriptor : ArtifactDescriptor} {payload : Bytes}
    {state : Index × Workers} {live : List FileAnalysisSnapshot} {left : Nat} (h : Holds state.1.store live)
    (hunknown : state.1.store.sourceUnit sourceUnit = none)
    (hcatalog : state.1.store.artifactDescriptor sourceUnit = some descriptor) :
    TouchesOnly sourceUnit state.1.store (deliverPayload cache reader env descriptor payload state).2.1.store
        ((deliverPayload cache reader env descriptor payload state).1.map fun _ => (.materialized, left)) ↔
      Fits cache reader env.index state.1.store state.1.clock descriptor payload := by
  unfold Fits
  rcases hrecord : state.1.store.recordArtifactBlob cache.cacheKey (env.index.disk state.1.clock) descriptor payload.length with
    ⟨e | u, recorded⟩
  · have hsame : recorded = state.1.store := by
      have hkept := transact_error (congrArg Prod.fst hrecord)
      exact (congrArg Prod.snd hrecord).symm.trans hkept
    have hrun : deliverPayload cache reader env descriptor payload state = _ :=
      (run_bind ..).trans (by rw [onIndex_write_eq_error hrecord])
    rw [hrun, hsame]
    exact iff_of_true ⟨fun _ => rfl, fun _ => rfl⟩ trivial
  obtain ⟨hrecorded, hfacts⟩ := recordArtifactBlob_holds h hrecord
  have hreferences := sameReferences_iff hrecord
  have hkept : ∀ other, recorded.factsOf other = state.1.store.factsOf other := by
    intro other
    unfold IndexStore.factsOf
    rw [hfacts]
  let written : Index × Workers := (⟨recorded, state.1.clock + 1, state.1.log⟩, state.2)
  have hrun : deliverPayload cache reader env descriptor payload state =
      (lift (graphSnapshots reader payload) >>= fun snapshots => snapshots.forM (storeSnapshot env)) written :=
    (run_bind ..).trans (by rw [onIndex_write_eq_ok hrecord]; rfl)
  cases hsnapshots : graphSnapshots reader payload with
  | error e =>
    have hstopped : deliverPayload cache reader env descriptor payload state = (.error e, written) := by
      rw [hrun, hsnapshots]
      rfl
    rw [hstopped]
    dsimp only
    rw [← hreferences]
    exact and_iff_right hkept
  | ok snapshots =>
    have hloop : deliverPayload cache reader env descriptor payload state = snapshots.forM (storeSnapshot env) written := by
      rw [hrun, hsnapshots]
      rfl
    have hid := artifactDescriptor_id hcatalog
    obtain ⟨hall, hholds, hsame⟩ := @storeSnapshots_run env snapshots written live hrecorded
    rw [hloop]
    dsimp only
    generalize hresult : snapshots.forM (storeSnapshot env) written = run at hall hholds hsame ⊢
    obtain ⟨result, final⟩ := run
    change (result = .ok () ↔ takenSnapshots env.index (state.1.clock + 1) recorded snapshots = snapshots) at hall
    change Holds final.1.store (((takenSnapshots env.index (state.1.clock + 1) recorded snapshots).map _).foldl _ _) at hholds
    generalize takenSnapshots env.index (state.1.clock + 1) recorded snapshots = taken at hall hholds ⊢
    have hrepeats : ∀ other, final.1.store.factsOf other = state.1.store.factsOf other ↔ Repeats state.1.store taken other :=
      fun other => h.repeats_iff hholds other
    by_cases htaken : taken = snapshots
    · rw [if_pos htaken, hall.2 htaken, ← htaken]
      refine and_congr ?_ ?_
      · constructor
        · rintro ⟨found, snapshot, hfound, hdescribes, hrows⟩
          rw [hcatalog] at hfound
          cases hfound
          change final.1.store.factsOf sourceUnit = _ at hrows
          rw [h.factsOf_committed hholds, ← hid] at hrows
          cases hlast : lastOf (·.id) taken descriptor.sourceUnit.id with
          | none =>
            rw [hlast] at hrows
            rw [← hid] at hunknown
            exact absurd (hrows.symm.trans (h.factsOf_unknown hunknown)) (rows_ne_nil snapshot)
          | some last =>
            rw [hlast] at hrows
            have hsource := sourceUnit_of_rows hrows
            unfold Describes FileAnalysisSnapshot.id at hdescribes ⊢
            exact ⟨last, rfl, hsource ▸ hdescribes⟩
        · rintro ⟨snapshot, hlast, hdescribes⟩
          refine ⟨descriptor, snapshot, hcatalog, hdescribes, ?_⟩
          change final.1.store.factsOf sourceUnit = _
          rw [h.factsOf_committed hholds, ← hid, hlast]
      · rw [hid]
        exact forall₂_congr fun other _ => hrepeats other
    · rw [if_neg htaken]
      cases result with
      | ok u => exact absurd (hall.1 rfl) htaken
      | error e =>
        rw [← hreferences]
        refine Iff.trans and_comm ?_
        refine and_congr ⟨fun hfinal other => ?_, fun hrecorded => hrecorded.trans hsame⟩ (forall_congr' hrepeats)
        exact (hsame other).symm.trans (hfinal other)

end

/-- A cache that holds an empty payload for every artifact. -/
def emptyPayloads : Nat → ResolvedDependencyIdentity → BlobLoad := fun _ _ => .payload []

def emptyPayloadCall (store : IndexStore) : Except IndexOrchestratorError (MaterializationOutcome × Nat) × Index × Workers :=
  materializeCatalogArtifact (fillingCache 0) emptyPayloads ArtifactLayout.wireReader (sampleEnvironment libraryWorker) 0 ⟨"."⟩
    "staging" ⟨"jar:library"⟩ 1 (⟨store, 0, []⟩, noWorkers)

def catalogedLibrary : IndexStore := { artifactCatalog := [BlobOperation.sampleArtifact "sha256:library"] }

/-- The library with the reference that a failed call has left. -/
def referencedLibrary : IndexStore :=
  { catalogedLibrary with
    artifactBlobCatalog := [⟨⟨"sha256:library"⟩, (BlobOperation.sampleArtifact "sha256:library").identity, 0⟩]
    projectArtifactBlobRefs := [(⟨"jar:library"⟩, ⟨"sha256:library"⟩)] }

end Kide
