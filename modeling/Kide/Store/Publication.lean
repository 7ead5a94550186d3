import Kide.Store.Queries

/-!
# Publication

The tables of `store.rs` that a workspace owns once: the resolved manifest, the checkpoint that closes
an index run, the configuration inputs, the dependency catalog with its blobs. None of the writes
here touches a fact table (`FactsKept`).
-/

namespace Kide
open Tables Transactions Checks Collects

def WorkspaceId.le (a b : WorkspaceId) : Prop := a.asStr ≤ b.asStr

instance : DecidableRel WorkspaceId.le := fun a b => inferInstanceAs (Decidable (a.asStr ≤ b.asStr))

namespace IndexStore
variable (store : IndexStore)

/-! ## Manifest and checkpoint -/

/-- `INSERT … ON CONFLICT(workspace_id) DO UPDATE SET …` -/
def upsert {α : Type} {κ : Type} [DecidableEq κ] (key : α → κ) (rows : List α) (row : α) : List α :=
  rows.filter (key · ≠ key row) ++ [row]

def putManifest (disk : Disk) (manifest : ProjectManifest) : Except IndexStoreError Unit × IndexStore :=
  match validateProvenance manifest.provenance with
  | .error e => (.error e, store)
  | .ok () =>
    transact disk
      [fun store => .ok { store with projectManifests := upsert (·.workspace) store.projectManifests manifest }] store

/-- `SELECT record_json FROM project_manifests ORDER BY workspace_id LIMIT 1` -/
def latestManifest : Option ProjectManifest :=
  (store.projectManifests.insertionSort fun a b => WorkspaceId.le a.workspace b.workspace).head?

def putWorkspaceCheckpoint (disk : Disk) (checkpoint : WorkspaceCheckpoint) :
    Except IndexStoreError Unit × IndexStore :=
  transact disk
    [fun store => .ok { store with
      workspaceCheckpoints := upsert (·.workspace) store.workspaceCheckpoints checkpoint }] store

def workspaceCheckpoint : Option WorkspaceCheckpoint :=
  (store.workspaceCheckpoints.insertionSort fun a b => WorkspaceId.le a.workspace b.workspace).head?

/-! ## Configuration inputs -/

def configurationInputStatus (current : List ConfigurationInput) : ConfigurationInputReconciliation :=
  reconcileConfigurationInputs store.configurationInputs current

def insertConfigurationInput (input : ConfigurationInput) : IndexStatement := fun store =>
  match insertRow (fun row => some row.path) store.configurationInputs input with
  | some configurationInputs => .ok { store with configurationInputs }
  | none => .error (.sqlite .constraint)

def replaceConfigurationInputs (disk : Disk) (current : List ConfigurationInput) :
    Except IndexStoreError Unit × IndexStore :=
  transact disk
    ((fun store => .ok { store with configurationInputs := [] }) :: current.map insertConfigurationInput) store

/-! ## Dependency catalog -/

def insertArtifactDescriptor (descriptor : ArtifactDescriptor) : IndexStatement := fun store =>
  match insertRow (fun row => some row.sourceUnit.id) store.artifactCatalog descriptor with
  | some artifactCatalog => .ok { store with artifactCatalog }
  | none => .error (.sqlite .constraint)

def insertSymbolLocator (row : SymbolLocatorRow) : IndexStatement := fun store =>
  match insertRow (fun row => some (row.sourceUnitId, row.qualifiedName, row.symbolId)) store.symbolLocators row with
  | some symbolLocators => .ok { store with symbolLocators }
  | none => .error (.sqlite .constraint)

def artifactStatements (descriptor : ArtifactDescriptor) : List IndexStatement :=
  insertArtifactDescriptor descriptor :: descriptor.symbolLocators.map fun locator =>
    insertSymbolLocator ⟨descriptor.sourceUnit.id, locator.qualifiedName, locator.symbol⟩

/-- Atomically replaces the dependency catalog discovered for a workspace. -/
def replaceArtifactDescriptors (disk : Disk) (descriptors : List ArtifactDescriptor) :
    Except IndexStoreError Unit × IndexStore :=
  transact disk
    ([fun store => .ok { store with
        symbolLocators := store.symbolLocators.filter fun row =>
          row.sourceUnitId ∉ store.artifactCatalog.map (·.sourceUnit.id) },
      fun store => .ok { store with artifactCatalog := [] }]
    ++ descriptors.flatMap artifactStatements
    ++ [fun store => .ok { store with
        projectArtifactBlobRefs := store.projectArtifactBlobRefs.filter fun row =>
          row.1 ∈ store.artifactCatalog.map (·.sourceUnit.id) }]) store

def artifactDescriptor (sourceUnit : SourceUnitId) : Option ArtifactDescriptor :=
  store.artifactCatalog.find? (·.sourceUnit.id = sourceUnit)

def artifactDescriptors : List ArtifactDescriptor :=
  store.artifactCatalog.insertionSort fun a b => a.sourceUnit.id.le b.sourceUnit.id

/-- The upsert on `blob_key` updates a row of the same identity and leaves any other alone. -/
def insertArtifactBlob (row : ArtifactBlobRow) : IndexStatement := fun store =>
  match store.artifactBlobCatalog.find? (·.blobKey = row.blobKey) with
  | some stored =>
    if stored.identityJson = row.identityJson then
      .ok { store with artifactBlobCatalog := upsert (·.blobKey) store.artifactBlobCatalog row }
    else .error (.artifactBlobIdentityMismatch row.blobKey.asStr)
  | none => .ok { store with artifactBlobCatalog := store.artifactBlobCatalog ++ [row] }

/-- Binds one project artifact to its blob; `cacheKey` is the digest of the identity. -/
def recordArtifactBlob (cacheKey : ResolvedDependencyIdentity → Fingerprint) (disk : Disk)
    (descriptor : ArtifactDescriptor) (byteLength : Nat) : Except IndexStoreError Unit × IndexStore :=
  let blobKey := cacheKey descriptor.identity
  transact disk
    [fun store => do
      let byteLength ← sqliteOffset byteLength
      insertArtifactBlob ⟨blobKey, descriptor.identity, byteLength⟩ store,
    fun store => .ok { store with
      projectArtifactBlobRefs := upsert Prod.fst store.projectArtifactBlobRefs (descriptor.sourceUnit.id, blobKey) }]
    store

end IndexStore

/-! ## Frame -/

/-- A write that leaves the facts, and with them every snapshot, as they are. -/
def FactsKept (store store' : IndexStore) : Prop := store'.facts = store.facts

theorem transact_frame {β : Type} {f : IndexStore → β} {disk : Disk} {stmts : List IndexStatement} {store : IndexStore}
    (h : ∀ stmt ∈ stmts, ∀ s s', stmt s = .ok s' → f s' = f s) : f (transact disk stmts store).2 = f store := by
  have hkeeps : ∀ stmt ∈ stmts, ∀ s s', stmt s = .ok s' → f s = f store → f s' = f store :=
    fun stmt hstmt s s' hrun hs => (h stmt hstmt s s' hrun).trans hs
  exact transact_keeps hkeeps rfl

theorem transact_factsKept {disk : Disk} {stmts : List IndexStatement} {store : IndexStore}
    (h : ∀ stmt ∈ stmts, ∀ s s', stmt s = .ok s' → s'.facts = s.facts) : FactsKept store (transact disk stmts store).2 :=
  transact_frame h

namespace IndexStore
variable (store : IndexStore) (disk : Disk)

theorem putManifest_facts (manifest : ProjectManifest) :
    FactsKept store (store.putManifest disk manifest).2 := by
  unfold putManifest
  cases validateProvenance manifest.provenance with
  | error e => rfl
  | ok u =>
    apply transact_factsKept
    intro stmt hstmt s s' hrun
    rw [List.mem_singleton.1 hstmt] at hrun
    cases hrun
    rfl

theorem putWorkspaceCheckpoint_facts (checkpoint : WorkspaceCheckpoint) :
    FactsKept store (store.putWorkspaceCheckpoint disk checkpoint).2 := by
  apply transact_factsKept
  intro stmt hstmt s s' hrun
  rw [List.mem_singleton.1 hstmt] at hrun
  cases hrun
  rfl

theorem insertConfigurationInput_facts {input : ConfigurationInput} {s s' : IndexStore}
    (h : insertConfigurationInput input s = .ok s') : s'.facts = s.facts := by
  unfold insertConfigurationInput at h
  split at h <;> cases h
  rfl

theorem replaceConfigurationInputs_facts (current : List ConfigurationInput) :
    FactsKept store (store.replaceConfigurationInputs disk current).2 := by
  apply transact_factsKept
  intro stmt hstmt s s' hrun
  rcases List.mem_cons.1 hstmt with rfl | hinsert
  · cases hrun
    rfl
  · obtain ⟨input, -, rfl⟩ := List.mem_map.1 hinsert
    exact insertConfigurationInput_facts hrun

end IndexStore

namespace IndexStore
variable {store : IndexStore} {disk : Disk}

/-- The tables of the dependency catalog and its blobs are emptied. -/
def uncataloged (store : IndexStore) : IndexStore :=
  { store with artifactCatalog := [], symbolLocators := [], artifactBlobCatalog := [], projectArtifactBlobRefs := [] }

theorem artifactStatements_uncataloged {descriptor : ArtifactDescriptor} {stmt : IndexStatement}
    (hstmt : stmt ∈ artifactStatements descriptor) {s s' : IndexStore} (h : stmt s = .ok s') :
    s'.uncataloged = s.uncataloged := by
  rcases List.mem_cons.1 hstmt with rfl | hlocator
  · unfold insertArtifactDescriptor at h
    split at h <;> cases h
    rfl
  · obtain ⟨locator, -, rfl⟩ := List.mem_map.1 hlocator
    unfold insertSymbolLocator at h
    split at h <;> cases h
    rfl

theorem replaceArtifactDescriptors_uncataloged (descriptors : List ArtifactDescriptor) :
    (store.replaceArtifactDescriptors disk descriptors).2.uncataloged = store.uncataloged := by
  apply transact_frame
  intro stmt hstmt s s' hrun
  rcases List.mem_append.1 hstmt with hstmt | hlast
  · rcases List.mem_append.1 hstmt with hdelete | hinsert
    · rcases List.mem_pair.1 hdelete with rfl | rfl <;> cases hrun <;> rfl
    · obtain ⟨descriptor, -, hstmt⟩ := List.mem_flatMap.1 hinsert
      exact artifactStatements_uncataloged hstmt hrun
  · rw [List.mem_singleton.1 hlast] at hrun
    cases hrun
    rfl

theorem recordArtifactBlob_uncataloged (cacheKey : ResolvedDependencyIdentity → Fingerprint)
    (descriptor : ArtifactDescriptor) (byteLength : Nat) :
    (store.recordArtifactBlob cacheKey disk descriptor byteLength).2.uncataloged = store.uncataloged := by
  apply transact_frame
  intro stmt hstmt s s' hrun
  rcases List.mem_pair.1 hstmt with rfl | rfl
  · obtain ⟨_, -, hinsert⟩ := bind_eq_ok_iff.1 hrun
    unfold insertArtifactBlob at hinsert
    split at hinsert
    · split at hinsert <;> cases hinsert
      rfl
    · cases hinsert
      rfl
  · cases hrun
    rfl

theorem facts_of_uncataloged {store' : IndexStore} (h : store'.uncataloged = store.uncataloged) : FactsKept store store' := by
  have hfacts : store'.uncataloged.facts = store.uncataloged.facts := by rw [h]
  exact hfacts

theorem replaceArtifactDescriptors_facts (store : IndexStore) (disk : Disk) (descriptors : List ArtifactDescriptor) :
    FactsKept store (store.replaceArtifactDescriptors disk descriptors).2 :=
  facts_of_uncataloged (replaceArtifactDescriptors_uncataloged descriptors)

theorem recordArtifactBlob_facts (store : IndexStore) (disk : Disk) (cacheKey : ResolvedDependencyIdentity → Fingerprint)
    (descriptor : ArtifactDescriptor) (byteLength : Nat) :
    FactsKept store (store.recordArtifactBlob cacheKey disk descriptor byteLength).2 :=
  facts_of_uncataloged (recordArtifactBlob_uncataloged cacheKey descriptor byteLength)

end IndexStore

/-! ## What each write leaves in the tables -/

namespace IndexStore
variable {store : IndexStore} {disk : Disk}

/-- The tables of the workspace. -/
def publication (store : IndexStore) : IndexStore := { store with facts := [] }

theorem deleteFileOwnedFacts_publication {sourceUnit : SourceUnitId} {stmt : IndexStatement}
    (hstmt : stmt ∈ deleteFileOwnedFacts sourceUnit) {s s' : IndexStore} (h : stmt s = .ok s') :
    s'.publication = s.publication := by
  obtain ⟨delete, hdelete, hrun⟩ := List.mem_map.1 hstmt
  rw [← hrun] at h
  cases h
  rcases List.mem_cons.1 hdelete with rfl | hdelete
  · rfl
  · obtain ⟨table, -, hfrom⟩ := List.mem_map.1 hdelete
    rw [← hfrom]
    rfl

theorem insertSnapshot_publication {snapshot : FileAnalysisSnapshot} {stmt : IndexStatement}
    (hstmt : stmt ∈ insertSnapshot snapshot) {s s' : IndexStore} (h : stmt s = .ok s') : s'.publication = s.publication := by
  obtain ⟨bound, -, hbound⟩ := List.mem_map.1 hstmt
  rw [← hbound] at h
  obtain ⟨row, -, hrow⟩ := bind_eq_ok_iff.1 h
  split at hrow <;> cases hrow
  rfl

theorem removeSnapshot_publication (sourceUnit : SourceUnitId) :
    (store.removeSnapshot disk sourceUnit).2.publication = store.publication := by
  apply transact_frame
  intro stmt hstmt s s' hrun
  exact deleteFileOwnedFacts_publication hstmt hrun

theorem replaceSnapshotsBatch_publication (entries : List (SourceUnit × FileAnalysisSnapshot)) :
    (store.replaceSnapshotsBatch disk entries).2.publication = store.publication := by
  unfold replaceSnapshotsBatch
  split
  · rfl
  apply transact_frame
  intro stmt hstmt s s' hrun
  obtain ⟨entry, -, hstmt⟩ := List.mem_flatMap.1 hstmt
  rcases List.mem_append.1 hstmt with hdelete | hinsert
  · exact deleteFileOwnedFacts_publication hdelete hrun
  · exact insertSnapshot_publication hinsert hrun

theorem replaceSnapshot_publication (expected : SourceUnit) (snapshot : FileAnalysisSnapshot) :
    (store.replaceSnapshot disk expected snapshot).2.publication = store.publication := by
  unfold replaceSnapshot
  split
  · rfl
  apply transact_frame
  intro stmt hstmt s s' hrun
  rcases List.mem_append.1 hstmt with hdelete | hinsert
  · exact deleteFileOwnedFacts_publication hdelete hrun
  · exact insertSnapshot_publication hinsert hrun

theorem putManifest_ok {manifest : ProjectManifest} (h : (store.putManifest disk manifest).1 = .ok ()) :
    (store.putManifest disk manifest).2 =
      { store with projectManifests := upsert (·.workspace) store.projectManifests manifest } := by
  unfold putManifest at h ⊢
  split at h
  · cases h
  · exact (Except.ok.inj (transact_ok h)).symm

theorem putManifest_error {manifest : ProjectManifest} {e : IndexStoreError}
    (h : (store.putManifest disk manifest).1 = .error e) : (store.putManifest disk manifest).2 = store := by
  unfold putManifest at h ⊢
  split at h
  · rfl
  · exact transact_error h

theorem putWorkspaceCheckpoint_ok {checkpoint : WorkspaceCheckpoint}
    (h : (store.putWorkspaceCheckpoint disk checkpoint).1 = .ok ()) :
    (store.putWorkspaceCheckpoint disk checkpoint).2 =
      { store with workspaceCheckpoints := upsert (·.workspace) store.workspaceCheckpoints checkpoint } :=
  (Except.ok.inj (transact_ok h)).symm

theorem putWorkspaceCheckpoint_error {checkpoint : WorkspaceCheckpoint} {e : IndexStoreError}
    (h : (store.putWorkspaceCheckpoint disk checkpoint).1 = .error e) :
    (store.putWorkspaceCheckpoint disk checkpoint).2 = store := transact_error h

theorem insertConfigurationInputs_run {current : List ConfigurationInput} {store store' : IndexStore}
    (h : runStatements (current.map insertConfigurationInput) store = .ok store') :
    store' = { store with configurationInputs := store.configurationInputs ++ current } := by
  induction current generalizing store with
  | nil =>
    cases h
    rw [List.append_nil]
  | cons input current ih =>
    rw [List.map_cons, runStatements_cons] at h
    obtain ⟨store₁, hinsert, hrest⟩ := bind_eq_ok_iff.1 h
    unfold insertConfigurationInput at hinsert
    split at hinsert <;> cases hinsert
    next rows hrows =>
      obtain ⟨-, rfl⟩ := (insertRow_eq_some_iff _).1 hrows
      rw [ih hrest, List.append_assoc]
      rfl

theorem replaceConfigurationInputs_ok {current : List ConfigurationInput}
    (h : (store.replaceConfigurationInputs disk current).1 = .ok ()) :
    (store.replaceConfigurationInputs disk current).2 = { store with configurationInputs := current } := by
  have hrun := transact_ok h
  rw [runStatements_cons] at hrun
  exact insertConfigurationInputs_run hrun

theorem replaceConfigurationInputs_error {current : List ConfigurationInput} {e : IndexStoreError}
    (h : (store.replaceConfigurationInputs disk current).1 = .error e) :
    (store.replaceConfigurationInputs disk current).2 = store := transact_error h

/-- The statements of the artifacts leave them as the catalog, after what was there. -/
theorem artifactStatements_run {descriptors : List ArtifactDescriptor} {store store' : IndexStore}
    (h : runStatements (descriptors.flatMap artifactStatements) store = .ok store') :
    store'.artifactCatalog = store.artifactCatalog ++ descriptors := by
  induction descriptors generalizing store with
  | nil =>
    cases h
    rw [List.append_nil]
  | cons descriptor descriptors ih =>
    rw [List.flatMap_cons, runStatements_append] at h
    obtain ⟨store₁, hfirst, hrest⟩ := bind_eq_ok_iff.1 h
    unfold artifactStatements at hfirst
    rw [runStatements_cons] at hfirst
    obtain ⟨store₀, hinsert, hlocators⟩ := bind_eq_ok_iff.1 hfirst
    unfold insertArtifactDescriptor at hinsert
    split at hinsert <;> cases hinsert
    next rows hrows =>
      obtain ⟨-, rfl⟩ := (insertRow_eq_some_iff _).1 hrows
      have hkept : store₁.artifactCatalog = store.artifactCatalog ++ [descriptor] := by
        refine runStatements_keeps (I := fun s => s.artifactCatalog = store.artifactCatalog ++ [descriptor]) ?_ hlocators rfl
        intro stmt hstmt s s' hrun hs
        obtain ⟨locator, -, rfl⟩ := List.mem_map.1 hstmt
        unfold insertSymbolLocator at hrun
        split at hrun <;> cases hrun
        exact hs
      rw [ih hrest, hkept, List.append_assoc]
      rfl

/-- No artifact is catalogued, and only the locators are left that belonged to none. -/
def withoutCatalog (store : IndexStore) : IndexStore :=
  { store with
    symbolLocators := store.symbolLocators.filter fun row => row.sourceUnitId ∉ store.artifactCatalog.map (·.sourceUnit.id)
    artifactCatalog := [] }

/-- A discovery that succeeds has inserted its artifacts into an empty catalog, and then dropped the references of the others. -/
theorem replaceArtifactDescriptors_run {descriptors : List ArtifactDescriptor}
    (h : (store.replaceArtifactDescriptors disk descriptors).1 = .ok ()) :
    ∃ stored, runStatements (descriptors.flatMap artifactStatements) store.withoutCatalog = .ok stored ∧
      (store.replaceArtifactDescriptors disk descriptors).2 = { stored with
        projectArtifactBlobRefs := stored.projectArtifactBlobRefs.filter fun row =>
          row.1 ∈ stored.artifactCatalog.map (·.sourceUnit.id) } := by
  have hrun := transact_ok h
  rw [runStatements_append, runStatements_append] at hrun
  obtain ⟨stored, hrun, hlast⟩ := bind_eq_ok_iff.1 hrun
  obtain ⟨cleared, hdelete, hinsert⟩ := bind_eq_ok_iff.1 hrun
  cases hdelete
  exact ⟨stored, hinsert, (Except.ok.inj hlast).symm⟩

theorem replaceArtifactDescriptors_ok {descriptors : List ArtifactDescriptor}
    (h : (store.replaceArtifactDescriptors disk descriptors).1 = .ok ()) :
    (store.replaceArtifactDescriptors disk descriptors).2.artifactCatalog = descriptors := by
  obtain ⟨stored, hinsert, hstore⟩ := replaceArtifactDescriptors_run h
  rw [hstore]
  exact artifactStatements_run hinsert

theorem replaceArtifactDescriptors_error {descriptors : List ArtifactDescriptor} {e : IndexStoreError}
    (h : (store.replaceArtifactDescriptors disk descriptors).1 = .error e) :
    (store.replaceArtifactDescriptors disk descriptors).2 = store := transact_error h

end IndexStore

end Kide
