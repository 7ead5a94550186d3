import Kide.Index.Materialize

/-!
# References to blobs

The dependency catalog and the references of its artifacts to blobs are tables of their own: a write of
the catalog drops the references of the units that are no longer in it and keeps the others as they are.

`Linked` is what a sequence of writes keeps as long as no unit is rediscovered with another identity
while it has a reference (`KeepsIdentity`).
-/

namespace Kide
open Transactions Checks

structure ArtifactBlobCatalogEntry where
  blobKey : Fingerprint
  identity : ResolvedDependencyIdentity
  byteLength : Option Nat
deriving DecidableEq, Repr

namespace IndexStore
variable (store : IndexStore)

/-! ## Operations -/

/-- Records a dependency identity; no transaction holds the statements together. -/
def putArtifactDescriptor (disk : Disk) (descriptor : ArtifactDescriptor) : Except IndexStoreError Unit × IndexStore :=
  autocommit disk
    ((fun store => .ok { store with artifactCatalog := upsert (·.sourceUnit.id) store.artifactCatalog descriptor })
    :: (fun store => .ok { store with
        symbolLocators := store.symbolLocators.filter (·.sourceUnitId ≠ descriptor.sourceUnit.id) })
    :: descriptor.symbolLocators.map fun locator =>
      insertSymbolLocator ⟨descriptor.sourceUnit.id, locator.qualifiedName, locator.symbol⟩) store

def artifactBlobFor (sourceUnit : SourceUnitId) : Option ArtifactBlobCatalogEntry := do
  let reference ← store.projectArtifactBlobRefs.find? (·.1 = sourceUnit)
  let catalog ← store.artifactBlobCatalog.find? (·.blobKey = reference.2)
  some ⟨catalog.blobKey, catalog.identityJson, some catalog.byteLength⟩

/-- The references with the identity of their blob. -/
def blobReferences : List (SourceUnitId × ResolvedDependencyIdentity) :=
  store.projectArtifactBlobRefs.filterMap fun reference =>
    (store.artifactBlobCatalog.find? (·.blobKey = reference.2)).map fun catalog => (reference.1, catalog.identityJson)

/-- The units whose blob is gone or malformed; `opens n` is what the `n`-th reference finds in the cache. -/
def missingBlobs (opens : Nat → ResolvedDependencyIdentity → BlobAnswer) : List SourceUnitId :=
  store.blobReferences.zipIdx.filterMap fun reference =>
    match opens reference.2 reference.1.2 with
    | .present _ => none
    | .absent => some reference.1.1
    | .invalid => some reference.1.1
    | .failed => none

def deleteBlobReference (sourceUnit : SourceUnitId) : IndexStatement := fun store =>
  .ok { store with projectArtifactBlobRefs := store.projectArtifactBlobRefs.filter (·.1 ≠ sourceUnit) }

/-- Drops references to blobs which are no longer readable. -/
def reconcileArtifactBlobRefs (disk : Disk) (opens : Nat → ResolvedDependencyIdentity → BlobAnswer) :
    Except IndexStoreError Nat × IndexStore :=
  let missing := store.missingBlobs opens
  let (result, store) := transact disk (missing.map deleteBlobReference) store
  (result.map fun _ => missing.length, store)

end IndexStore

/-! ## What references rest on -/

/-- Every reference names a blob of the identity that the catalog has for its unit. -/
def Linked (store : IndexStore) : Prop :=
  ∀ reference ∈ store.projectArtifactBlobRefs, ∃ catalog descriptor,
    store.artifactBlobCatalog.find? (·.blobKey = reference.2) = some catalog ∧
      store.artifactDescriptor reference.1 = some descriptor ∧ catalog.identityJson = descriptor.identity

/-- What `artifact_blob_for` answers is of the identity that the catalog has. -/
def BlobRefsAgree (store : IndexStore) : Prop :=
  ∀ sourceUnit entry, store.artifactBlobFor sourceUnit = some entry →
    ∃ descriptor, store.artifactDescriptor sourceUnit = some descriptor ∧ descriptor.identity = entry.identity

variable {store : IndexStore}

theorem Linked.agree (h : Linked store) : BlobRefsAgree store := by
  intro sourceUnit entry hentry
  obtain ⟨reference, hfind, hentry⟩ := Option.bind_eq_some_iff.1 hentry
  obtain ⟨catalog, hcatalog, hentry⟩ := Option.bind_eq_some_iff.1 hentry
  have hunit : reference.1 = sourceUnit := by simpa using List.find?_some hfind
  obtain ⟨catalog', descriptor, hcatalog', hdescriptor, hidentity⟩ := h reference (List.mem_of_find?_eq_some hfind)
  rw [hcatalog] at hcatalog'
  cases hcatalog'
  cases hentry
  exact ⟨descriptor, hunit ▸ hdescriptor, hidentity.symm⟩

theorem linked_empty : Linked {} := fun _ hreference => (nomatch hreference)

/-- Only the catalog, the blobs and the references matter, and fewer references are linked as well. -/
theorem Linked.of_tables {store' : IndexStore} (h : Linked store)
    (hrefs : ∀ reference ∈ store'.projectArtifactBlobRefs, reference ∈ store.projectArtifactBlobRefs)
    (hblobs : store'.artifactBlobCatalog = store.artifactBlobCatalog)
    (hcatalog : store'.artifactCatalog = store.artifactCatalog) : Linked store' := by
  intro reference hreference
  unfold IndexStore.artifactDescriptor
  rw [hblobs, hcatalog]
  exact h reference (hrefs reference hreference)

theorem find_upsert {α κ : Type} [DecidableEq κ] (key : α → κ) (rows : List α) (row : α) (k : κ) :
    (IndexStore.upsert key rows row).find? (key · = k) = if key row = k then some row else rows.find? (key · = k) := by
  unfold IndexStore.upsert
  rw [List.find?_append]
  by_cases hrow : key row = k
  · have hnone : (rows.filter (key · ≠ key row)).find? (key · = k) = none := by
      rw [List.find?_eq_none]
      intro r hr
      have hne : key r ≠ key row := by simpa using (List.mem_filter.1 hr).2
      simpa [← hrow] using hne
    rw [hnone, if_pos hrow]
    simp [hrow]
  · have hsame : (rows.filter (key · ≠ key row)).find? (key · = k) = rows.find? (key · = k) := by
      rw [List.find?_filter]
      congr 1
      funext r
      by_cases hr : key r = k
      · simp [hr, Ne.symm hrow]
      · simp [hr]
    rw [hsame, if_neg hrow]
    simp [hrow]

/-! ## One write -/

/-- Whatever is written for a unit with a reference is of the identity the catalog has. -/
def Rediscovers (store : IndexStore) (descriptors : List ArtifactDescriptor) : Prop :=
  ∀ descriptor ∈ descriptors, descriptor.sourceUnit.id ∈ store.projectArtifactBlobRefs.map Prod.fst →
    ∀ previous ∈ store.artifactDescriptor descriptor.sourceUnit.id, previous.identity = descriptor.identity

instance (store : IndexStore) (descriptors : List ArtifactDescriptor) : Decidable (Rediscovers store descriptors) := by
  unfold Rediscovers
  infer_instance

theorem putArtifactDescriptor_linked {disk : Disk} {descriptor : ArtifactDescriptor} (h : Linked store)
    (hsame : Rediscovers store [descriptor]) : Linked (store.putArtifactDescriptor disk descriptor).2 := by
  apply autocommit_cons_keeps h
  · rintro _ ⟨⟩ reference hreference
    obtain ⟨catalog, previous, hcatalog, hprevious, hidentity⟩ := h reference hreference
    unfold IndexStore.artifactDescriptor
    by_cases hunit : descriptor.sourceUnit.id = reference.1
    · refine ⟨catalog, descriptor, hcatalog, ?_, ?_⟩
      · rw [find_upsert, if_pos hunit]
      · rw [hidentity]
        exact hsame descriptor List.mem_cons_self (hunit ▸ List.mem_map_of_mem hreference) previous (hunit ▸ hprevious)
    · refine ⟨catalog, previous, hcatalog, ?_, hidentity⟩
      rw [find_upsert, if_neg hunit]
      exact hprevious
  · intro stmt hstmt s s' hrun hs
    rcases List.mem_cons.1 hstmt with rfl | hlocator
    · cases hrun
      exact hs
    · obtain ⟨locator, -, rfl⟩ := List.mem_map.1 hlocator
      unfold IndexStore.insertSymbolLocator at hrun
      split at hrun <;> cases hrun
      exact hs

theorem artifactStatements_refs {descriptor : ArtifactDescriptor} {stmt : IndexStatement}
    (hstmt : stmt ∈ IndexStore.artifactStatements descriptor) {s s' : IndexStore} (h : stmt s = .ok s') :
    s'.projectArtifactBlobRefs = s.projectArtifactBlobRefs ∧ s'.artifactBlobCatalog = s.artifactBlobCatalog := by
  rcases List.mem_cons.1 hstmt with rfl | hlocator
  · unfold IndexStore.insertArtifactDescriptor at h
    split at h <;> cases h
    exact ⟨rfl, rfl⟩
  · obtain ⟨locator, -, rfl⟩ := List.mem_map.1 hlocator
    unfold IndexStore.insertSymbolLocator at h
    split at h <;> cases h
    exact ⟨rfl, rfl⟩

theorem replaceArtifactDescriptors_refs {disk : Disk} {descriptors : List ArtifactDescriptor}
    (h : (store.replaceArtifactDescriptors disk descriptors).1 = .ok ()) :
    (store.replaceArtifactDescriptors disk descriptors).2.projectArtifactBlobRefs =
        store.projectArtifactBlobRefs.filter (fun row => row.1 ∈ descriptors.map (·.sourceUnit.id)) ∧
      (store.replaceArtifactDescriptors disk descriptors).2.artifactBlobCatalog = store.artifactBlobCatalog := by
  have hcatalog := IndexStore.replaceArtifactDescriptors_ok h
  obtain ⟨stored, hinsert, hstore⟩ := IndexStore.replaceArtifactDescriptors_run h
  have hkept : stored.projectArtifactBlobRefs = store.projectArtifactBlobRefs ∧
      stored.artifactBlobCatalog = store.artifactBlobCatalog := by
    refine runStatements_keeps (I := fun s => s.projectArtifactBlobRefs = store.projectArtifactBlobRefs ∧
      s.artifactBlobCatalog = store.artifactBlobCatalog) ?_ hinsert ⟨rfl, rfl⟩
    intro stmt hstmt s s' hs hkept
    obtain ⟨descriptor, -, hstmt⟩ := List.mem_flatMap.1 hstmt
    obtain ⟨hrefs, hblobs⟩ := artifactStatements_refs hstmt hs
    exact ⟨hrefs.trans hkept.1, hblobs.trans hkept.2⟩
  rw [hstore] at hcatalog ⊢
  have hstored : stored.artifactCatalog = descriptors := hcatalog
  refine ⟨?_, hkept.2⟩
  show stored.projectArtifactBlobRefs.filter (fun row => row.1 ∈ stored.artifactCatalog.map (·.sourceUnit.id)) = _
  rw [hkept.1, hstored]

theorem replaceArtifactDescriptors_linked {disk : Disk} {descriptors : List ArtifactDescriptor} (h : Linked store)
    (hsame : Rediscovers store descriptors) : Linked (store.replaceArtifactDescriptors disk descriptors).2 := by
  cases hresult : (store.replaceArtifactDescriptors disk descriptors).1 with
  | error e => rwa [IndexStore.replaceArtifactDescriptors_error hresult]
  | ok u =>
    obtain ⟨hrefs, hblobs⟩ := replaceArtifactDescriptors_refs hresult
    intro reference hreference
    rw [hrefs] at hreference
    obtain ⟨hreference, hunit⟩ := List.mem_filter.1 hreference
    obtain ⟨catalog, previous, hcatalog, hprevious, hidentity⟩ := h reference hreference
    obtain ⟨d, hd, hid⟩ := List.mem_map.1 (of_decide_eq_true hunit)
    unfold IndexStore.artifactDescriptor
    rw [hblobs, IndexStore.replaceArtifactDescriptors_ok hresult]
    cases hfind : descriptors.find? (·.sourceUnit.id = reference.1) with
    | none =>
      have hnone := List.find?_eq_none.1 hfind d hd
      exact absurd hid (by simpa using hnone)
    | some descriptor =>
      have hfound : descriptor.sourceUnit.id = reference.1 := by simpa using List.find?_some hfind
      refine ⟨catalog, descriptor, hcatalog, rfl, ?_⟩
      rw [hidentity]
      exact hsame descriptor (List.mem_of_find?_eq_some hfind) (hfound ▸ List.mem_map_of_mem hreference) previous
        (hfound ▸ hprevious)

/-- A blob row is only ever replaced by one of its identity. -/
theorem insertArtifactBlob_ok {row : ArtifactBlobRow} {store' : IndexStore}
    (h : IndexStore.insertArtifactBlob row store = .ok store') :
    store' = { store with artifactBlobCatalog := store'.artifactBlobCatalog } ∧
      (∀ stored, store.artifactBlobCatalog.find? (·.blobKey = row.blobKey) = some stored →
        stored.identityJson = row.identityJson) ∧
      ∀ k, store'.artifactBlobCatalog.find? (·.blobKey = k) =
        if row.blobKey = k then some row else store.artifactBlobCatalog.find? (·.blobKey = k) := by
  unfold IndexStore.insertArtifactBlob at h
  cases hfind : store.artifactBlobCatalog.find? (·.blobKey = row.blobKey) with
  | some stored =>
    rw [hfind] at h
    by_cases hidentity : stored.identityJson = row.identityJson
    · simp only [if_pos hidentity] at h
      cases h
      refine ⟨rfl, ?_, fun k => find_upsert _ _ _ _⟩
      rintro _ ⟨⟩
      exact hidentity
    · simp only [if_neg hidentity] at h
      cases h
  | none =>
    rw [hfind] at h
    cases h
    refine ⟨rfl, ?_, fun k => ?_⟩
    · rintro _ ⟨⟩
    rw [List.find?_append]
    by_cases hk : row.blobKey = k
    · subst hk
      simp [hfind]
    · simp [hk]

/-- A recorded blob is the one its key names, and the reference of its unit. -/
theorem recordArtifactBlob_ok {cacheKey : ResolvedDependencyIdentity → Fingerprint} {disk : Disk}
    {descriptor : ArtifactDescriptor} {byteLength : Nat}
    (h : (store.recordArtifactBlob cacheKey disk descriptor byteLength).1 = .ok ()) :
    ∃ blobs, (store.recordArtifactBlob cacheKey disk descriptor byteLength).2 =
        { store with
          artifactBlobCatalog := blobs
          projectArtifactBlobRefs :=
            IndexStore.upsert Prod.fst store.projectArtifactBlobRefs (descriptor.sourceUnit.id, cacheKey descriptor.identity) } ∧
      (∀ stored, store.artifactBlobCatalog.find? (·.blobKey = cacheKey descriptor.identity) = some stored →
        stored.identityJson = descriptor.identity) ∧
      ∀ k, blobs.find? (·.blobKey = k) =
        if cacheKey descriptor.identity = k then some ⟨cacheKey descriptor.identity, descriptor.identity, byteLength⟩
        else store.artifactBlobCatalog.find? (·.blobKey = k) := by
  have hrun := transact_ok h
  rw [runStatements_cons] at hrun
  obtain ⟨store₁, hblob, hrun⟩ := bind_eq_ok_iff.1 hrun
  obtain ⟨length, hlength, hinsert⟩ := bind_eq_ok_iff.1 hblob
  obtain ⟨-, rfl⟩ := sqliteOffset_ok_iff.1 hlength
  obtain ⟨hframe, hidentity, hfind⟩ := insertArtifactBlob_ok hinsert
  refine ⟨store₁.artifactBlobCatalog, ?_, hidentity, hfind⟩
  rw [hframe] at hrun
  exact (Except.ok.inj hrun).symm

theorem recordArtifactBlob_linked {cacheKey : ResolvedDependencyIdentity → Fingerprint} {disk : Disk}
    {descriptor : ArtifactDescriptor} {byteLength : Nat} (h : Linked store)
    (hcurrent : store.artifactDescriptor descriptor.sourceUnit.id = some descriptor) :
    Linked (store.recordArtifactBlob cacheKey disk descriptor byteLength).2 := by
  cases hresult : (store.recordArtifactBlob cacheKey disk descriptor byteLength).1 with
  | error e =>
    have hkept : (store.recordArtifactBlob cacheKey disk descriptor byteLength).2 = store := transact_error hresult
    rwa [hkept]
  | ok u =>
    obtain ⟨blobs, hstore, hidentity, hfind⟩ := recordArtifactBlob_ok hresult
    rw [hstore]
    intro reference hreference
    rcases List.mem_append.1 hreference with hold | hnew
    · obtain ⟨catalog, previous, hcatalog, hprevious, hsame⟩ := h reference (List.mem_filter.1 hold).1
      by_cases hkey : cacheKey descriptor.identity = reference.2
      · refine ⟨_, previous, (hfind reference.2).trans (if_pos hkey), hprevious, ?_⟩
        exact (hidentity catalog (hkey ▸ hcatalog)).symm.trans hsame
      · exact ⟨catalog, previous, ((hfind reference.2).trans (if_neg hkey)).trans hcatalog, hprevious, hsame⟩
    · rw [List.mem_singleton.1 hnew]
      exact ⟨_, descriptor, (hfind _).trans (if_pos rfl), hcurrent, rfl⟩

theorem reconcileArtifactBlobRefs_linked {disk : Disk} {opens : Nat → ResolvedDependencyIdentity → BlobAnswer}
    (h : Linked store) : Linked (store.reconcileArtifactBlobRefs disk opens).2 := by
  show Linked (transact disk ((store.missingBlobs opens).map IndexStore.deleteBlobReference) store).2
  refine transact_keeps ?_ h
  intro stmt hstmt s s' hrun hs
  obtain ⟨sourceUnit, -, rfl⟩ := List.mem_map.1 hstmt
  cases hrun
  exact hs.of_tables (fun reference hreference => List.mem_of_mem_filter hreference) rfl rfl

/-! ## Sequences -/

inductive BlobOperation where
  | putArtifactDescriptor (descriptor : ArtifactDescriptor)
  | replaceArtifactDescriptors (descriptors : List ArtifactDescriptor)
  /-- Called with the catalog's current descriptor. -/
  | recordArtifactBlob (sourceUnit : SourceUnitId) (byteLength : Nat)
  | reconcileArtifactBlobRefs (opens : Nat → ResolvedDependencyIdentity → BlobAnswer)

namespace BlobOperation

def apply (cacheKey : ResolvedDependencyIdentity → Fingerprint) (store : IndexStore) : Disk × BlobOperation → IndexStore
  | (disk, putArtifactDescriptor descriptor) => (store.putArtifactDescriptor disk descriptor).2
  | (disk, replaceArtifactDescriptors descriptors) => (store.replaceArtifactDescriptors disk descriptors).2
  | (disk, recordArtifactBlob sourceUnit byteLength) =>
    match store.artifactDescriptor sourceUnit with
    | some descriptor => (store.recordArtifactBlob cacheKey disk descriptor byteLength).2
    | none => store
  | (disk, reconcileArtifactBlobRefs opens) => (store.reconcileArtifactBlobRefs disk opens).2

/-- No unit with a reference is rediscovered with another identity. -/
def KeepsIdentity (store : IndexStore) : BlobOperation → Prop
  | putArtifactDescriptor descriptor => Rediscovers store [descriptor]
  | replaceArtifactDescriptors descriptors => Rediscovers store descriptors
  | _ => True

instance (store : IndexStore) (operation : BlobOperation) : Decidable (operation.KeepsIdentity store) := by
  cases operation <;> unfold KeepsIdentity <;> infer_instance

variable {cacheKey : ResolvedDependencyIdentity → Fingerprint}

theorem apply_linked {call : Disk × BlobOperation} (h : Linked store) (hkeeps : call.2.KeepsIdentity store) :
    Linked (apply cacheKey store call) := by
  obtain ⟨disk, operation⟩ := call
  cases operation with
  | putArtifactDescriptor descriptor => exact putArtifactDescriptor_linked h hkeeps
  | replaceArtifactDescriptors descriptors => exact replaceArtifactDescriptors_linked h hkeeps
  | recordArtifactBlob sourceUnit byteLength =>
    show Linked (match store.artifactDescriptor sourceUnit with
      | some descriptor => (store.recordArtifactBlob cacheKey disk descriptor byteLength).2
      | none => store)
    cases hcurrent : store.artifactDescriptor sourceUnit with
    | none => exact h
    | some descriptor =>
      have hunit : descriptor.sourceUnit.id = sourceUnit := by simpa using List.find?_some hcurrent
      exact recordArtifactBlob_linked h (hunit ▸ hcurrent)
  | reconcileArtifactBlobRefs opens => exact reconcileArtifactBlobRefs_linked h

/-- The condition at every step of the sequence. -/
def AllKeepIdentity (cacheKey : ResolvedDependencyIdentity → Fingerprint) :
    IndexStore → List (Disk × BlobOperation) → Prop
  | _, [] => True
  | store, call :: calls => call.2.KeepsIdentity store ∧ AllKeepIdentity cacheKey (apply cacheKey store call) calls

instance decidableAllKeepIdentity (store : IndexStore) (calls : List (Disk × BlobOperation)) :
    Decidable (AllKeepIdentity cacheKey store calls) :=
  match calls with
  | [] => isTrue trivial
  | call :: calls =>
    have := decidableAllKeepIdentity (apply cacheKey store call) calls
    inferInstanceAs (Decidable (_ ∧ _))

/-- The states a sequence goes through, the first one included. -/
def states (cacheKey : ResolvedDependencyIdentity → Fingerprint) (store : IndexStore) (calls : List (Disk × BlobOperation)) :
    List IndexStore := calls.scanl (apply cacheKey) store

theorem states_linked {calls : List (Disk × BlobOperation)} (h : Linked store)
    (hkeeps : AllKeepIdentity cacheKey store calls) : ∀ state ∈ states cacheKey store calls, Linked state := by
  induction calls generalizing store with
  | nil =>
    intro state hstate
    rw [List.mem_singleton.1 hstate]
    exact h
  | cons call calls ih =>
    intro state hstate
    unfold states at hstate
    rw [List.scanl_cons] at hstate
    rcases List.mem_cons.1 hstate with rfl | hrest
    · exact h
    · exact ih (apply_linked h hkeeps.1) hkeeps.2 state hrest

/-- **References agree with the catalog** in every state of a sequence that rediscovers no referenced unit
with another identity. -/
theorem blobRefs_agree (cacheKey : ResolvedDependencyIdentity → Fingerprint) (calls : List (Disk × BlobOperation))
    (h : AllKeepIdentity cacheKey {} calls) : ∀ state ∈ states cacheKey {} calls, BlobRefsAgree state := by
  intro state hstate
  exact (states_linked linked_empty h state hstate).agree

/-! ### Rediscovery -/

def sampleArtifact (content : String) : ArtifactDescriptor :=
  ⟨⟨⟨"jar:library"⟩, ⟨"app:main"⟩, ⟨"library.jar"⟩, .java, .dependency, ⟨content⟩, ⟨"sha256:context"⟩⟩,
    sampleProvenance, none, []⟩

/-- A blob is recorded and its unit found again in every way that keeps the identity. -/
def refreshed : List (Disk × BlobOperation) :=
  [(Disk.sound, putArtifactDescriptor (sampleArtifact "sha256:old")),
    (Disk.sound, recordArtifactBlob ⟨"jar:library"⟩ 10),
    (Disk.sound, replaceArtifactDescriptors [sampleArtifact "sha256:old"]),
    (Disk.sound, reconcileArtifactBlobRefs fun _ _ => .present 10),
    (Disk.sound, putArtifactDescriptor (sampleArtifact "sha256:old"))]

theorem refreshed_agree : BlobRefsAgree (refreshed.foldl (apply (·.content)) {}) :=
  blobRefs_agree (·.content) refreshed (by decide) _ (by decide)

/-- The artifact of a unit changes after its blob has been recorded. -/
def rediscovery : List (Disk × BlobOperation) :=
  [(Disk.sound, replaceArtifactDescriptors [sampleArtifact "sha256:old"]),
    (Disk.sound, recordArtifactBlob ⟨"jar:library"⟩ 10),
    (Disk.sound, replaceArtifactDescriptors [sampleArtifact "sha256:new"])]

theorem rediscovery_keeps_reference : ¬ ∀ state ∈ states (·.content) {} rediscovery, BlobRefsAgree state := by
  intro h
  have hlast : rediscovery.foldl (apply (·.content)) {} ∈ states (·.content) {} rediscovery := by decide
  have hentry : (rediscovery.foldl (apply (·.content)) {}).artifactBlobFor ⟨"jar:library"⟩ =
      some ⟨⟨"sha256:old"⟩, (sampleArtifact "sha256:old").identity, some 10⟩ := by decide
  have hcurrent : (rediscovery.foldl (apply (·.content)) {}).artifactDescriptor ⟨"jar:library"⟩ =
      some (sampleArtifact "sha256:new") := by decide
  obtain ⟨descriptor, hdescriptor, hidentity⟩ := h _ hlast _ _ hentry
  rw [hcurrent] at hdescriptor
  cases hdescriptor
  exact absurd hidentity (by decide)

end BlobOperation

end Kide
