import Kide.Index.ArtifactPages
import Kide.Index.Command

/-!
# Materializing what is catalogued

An artifact of the catalog has the hash of its bytes for an identity; the classpath has paths. Core keeps the last descriptor and
the last path of an identity, `--materialize-only` refuses a second path (`insertLocator`), and the worker that is asked without a
path looks for the one artifact that has the identity (`ArtifactMaterializer.materialize`).

* `materialize_eq_ok_iff` : what a materialization needs;
* `discoverArtifactLocators_runs` : the paths of artifacts that differ in their bytes are accepted;
* `catalog_materializes_iff` : every catalogued artifact is materialized with and without its path exactly where the classpath has
  jars only, which differ in their bytes, hold readable classes and fit an array.
-/

namespace Kide
open Runs Collects Checks JvmBytecodeExtractor ArtifactProto

namespace JvmWorker

/-! ## The worker -/

/-- `singleOrNull` with a predicate that may throw. -/
def singleOrNull {α : Type} (predicate : α → Except String Bool) : List α → Option α → Except String (Option α)
  | [], single => .ok single
  | a :: rest, single => do
    if ← predicate a then
      match single with
      | some _ => .ok none
      | none => singleOrNull predicate rest (some a)
    else singleOrNull predicate rest single

/-- A message of the worker, or an array longer than the virtual machine has. -/
inductive MaterializationFailure where
  | refused (message : String)
  | tooLong
deriving DecidableEq, Repr

/-- `ClassReader` on every class entry; the message is that of the reader. -/
def readClasses (unreadable : Bytes → Option String) (resolved : ResolvedJvmArtifact) : Except String Unit :=
  (classEntries resolved.artifact).forM fun entry =>
    match unreadable entry.2 with
    | some message => .error message
    | none => .ok ()

namespace Session

variable (session : Session)

def isRegularFile (path : String) : Bool :=
  match session.files path with
  | some (.jar _ _) => true
  | _ => false

def descriptorId (candidate : ResolvedPath) : Except String SourceUnitId := (session.descriptor candidate).map (·.sourceUnit.id)

/-- The artifact at the locator, or the resolved one that has the identity. -/
def requested (request : ArtifactMaterializationRequest) : Except String ResolvedPath :=
  match request.artifactLocator with
  | some locator => do
    reject (session.isRegularFile locator = false) "requested artifact locator is not a regular file"
    .ok ⟨locator, request.artifact.sourceUnit.component.asStr, request.artifact.sourceUnit.context.asStr, "unknown", none, none⟩
  | none => do
    let artifacts ← session.resolvedArtifacts
    let single ← singleOrNull (fun candidate => (session.descriptorId candidate).map (decide <| · = request.artifact.sourceUnit.id))
      artifacts none
    match single with
    | some artifact => .ok artifact
    | none => .error "requested artifact is not resolved by this workspace"

variable {reader : BlobReader} (writer : BlobWriter reader) (asm : Asm) (text : JsonText) (unreadable : Bytes → Option String)

/-- What is extracted for a request. -/
def materialized (request : ArtifactMaterializationRequest) : Except String ResolvedJvmArtifact := do
  reject (request.blobFormatVersion ≠ ARTIFACT_BLOB_LAYOUT_VERSION) "unsupported artifact blob format"
  let artifact ← session.requested request
  let id ← session.descriptorId artifact
  reject (id ≠ request.artifact.sourceUnit.id) "requested artifact locator does not match descriptor identity"
  let resolved ← session.opened artifact
  readClasses unreadable resolved
  .ok resolved

/-- The bytes that are staged. -/
def materialize (request : ArtifactMaterializationRequest) : Except MaterializationFailure Bytes := do
  let resolved ← (session.materialized unreadable request).mapError .refused
  match ArtifactMaterializer.stage writer asm text resolved with
  | some bytes => .ok bytes
  | none => .error .tooLong

end Session

/-! ## What a materialization needs -/

section
variable {α : Type} {predicate : α → Except String Bool} {p : α → Bool}

/-- The predicate is asked until a second element has it. -/
theorem singleOrNull_eq {l : List α} (h : ∀ a ∈ l, predicate a = .ok (p a)) (single : Option α) :
    singleOrNull predicate l single = .ok (match single.toList ++ l.filter p with
      | [a] => some a
      | _ => none) := by
  induction l generalizing single with
  | nil => cases single <;> rfl
  | cons a rest ih =>
    obtain ⟨ha, hrest⟩ := List.forall_mem_cons.1 h
    unfold singleOrNull
    rw [ha, ok_bind]
    cases hp : p a with
    | false =>
      rw [List.filter_cons_of_neg (by simp [hp])]
      exact ih hrest single
    | true =>
      rw [List.filter_cons_of_pos hp]
      cases single with
      | some b => rfl
      | none => exact ih hrest (some a)

end

section
variable {session : Session} {reader : BlobReader} {writer : BlobWriter reader} {asm : Asm} {text : JsonText}
  {unreadable : Bytes → Option String} {request : ArtifactMaterializationRequest} {artifact : ResolvedPath}
  {resolved : ResolvedJvmArtifact}

theorem opened_eq_ok_iff : session.opened artifact = .ok resolved ↔ ∃ file, session.files artifact.path = some file ∧
    resolved = ⟨file, artifact.component, artifact.context, artifact.ecosystem, artifact.coordinate, artifact.version⟩ := by
  rw [Session.opened]
  cases session.files artifact.path with
  | none => exact ⟨fun h => (by cases h), fun ⟨_, h, _⟩ => (by cases h)⟩
  | some file => exact ⟨fun h => ⟨file, rfl, (Except.ok.inj h).symm⟩, fun ⟨_, hfile, h⟩ => by cases hfile; exact h ▸ rfl⟩

/-- The identity that a path has. -/
def idAt (session : Session) (path : String) : Option SourceUnitId :=
  (session.files path).map fun file => ⟨"jvm:" ++ artifactHash file⟩

theorem descriptorId_of_idAt {id : SourceUnitId} (h : idAt session artifact.path = some id) : session.descriptorId artifact = .ok id := by
  obtain ⟨file, hfile, rfl⟩ := Option.map_eq_some_iff.1 h
  rw [Session.descriptorId, Session.descriptor, opened_eq_ok_iff.2 ⟨file, hfile, rfl⟩]
  rfl

theorem descriptorId_eq_ok_iff {id : SourceUnitId} : session.descriptorId artifact = .ok id ↔ idAt session artifact.path = some id := by
  refine ⟨fun h => ?_, descriptorId_of_idAt⟩
  rw [Session.descriptorId, Session.descriptor, Session.opened] at h
  rw [idAt]
  cases hfile : session.files artifact.path with
  | none =>
    rw [hfile] at h
    cases h
  | some file =>
    rw [hfile] at h
    exact congrArg some (Except.ok.inj h)

theorem materialize_eq_ok_iff {bytes : Bytes} : session.materialize writer asm text unreadable request = .ok bytes ↔
    request.blobFormatVersion = ARTIFACT_BLOB_LAYOUT_VERSION ∧ ∃ artifact resolved, session.requested request = .ok artifact ∧
      idAt session artifact.path = some request.artifact.sourceUnit.id ∧ session.opened artifact = .ok resolved ∧
      readClasses unreadable resolved = .ok () ∧ ArtifactMaterializer.stage writer asm text resolved = some bytes := by
  rw [Session.materialize, bind_eq_ok_iff]
  simp only [mapError_eq_ok_iff, Session.materialized, bind_eq_ok_iff, reject_eq_ok_iff, not_not]
  constructor
  · rintro ⟨resolved, ⟨_, hversion, artifact, hrequested, id, hid, _, rfl, found, hopened, _, hread, hresolved⟩, hstage⟩
    obtain rfl := Except.ok.inj hresolved
    refine ⟨hversion, artifact, found, hrequested, descriptorId_eq_ok_iff.1 hid, hopened, hread, ?_⟩
    cases hbytes : ArtifactMaterializer.stage writer asm text found with
    | none =>
      rw [hbytes] at hstage
      cases hstage
    | some staged =>
      rw [hbytes] at hstage
      exact congrArg some (Except.ok.inj hstage)
  · rintro ⟨hversion, artifact, resolved, hrequested, hid, hopened, hread, hstage⟩
    exact ⟨resolved, ⟨(), hversion, artifact, hrequested, _, descriptorId_of_idAt hid, (), rfl, resolved, hopened, (), hread, rfl⟩,
      by rw [hstage]⟩

end

/-! ## The staged unit -/

/-- Core reads one snapshot from the blob, and its source unit is that of the descriptor. -/
def HoldsUnit (reader : BlobReader) (bytes : Bytes) (descriptor : ArtifactDescriptor) : Prop :=
  ∃ layout facts snapshot unit, ArtifactBlobLayout.validate reader bytes = .ok layout ∧ layout.graphFacts reader = .ok facts ∧
    facts.snapshots = [snapshot] ∧ snapshot.sourceUnit = some unit ∧ unit.id = descriptor.sourceUnit.id.asStr ∧
    unit.component = descriptor.sourceUnit.component.asStr ∧ unit.contentFingerprint = descriptor.sourceUnit.content.asStr ∧
    unit.contextFingerprint = descriptor.sourceUnit.context.asStr

/-- The blob fits a byte array. -/
def Fits {reader : BlobReader} (writer : BlobWriter reader) (asm : Asm) (text : JsonText) (resolved : ResolvedJvmArtifact) : Prop :=
  let sections := JvmArtifactBlobLayout.sections writer (extractedGraph asm text resolved)
  (extractedGraph asm text resolved).symbols.length ≤ JvmArtifactBlobLayout.INT_MAX ∧
    (ArtifactLayout.blobBytes (ArtifactLayout.stableToc reader.sha256 sections) sections).length ≤ JvmArtifactBlobLayout.INT_MAX

section
variable {reader : BlobReader} {writer : BlobWriter reader} {asm : Asm} {text : JsonText} {resolved : ResolvedJvmArtifact}

theorem stages_iff : (∃ bytes, ArtifactMaterializer.stage writer asm text resolved = some bytes) ↔ Fits writer asm text resolved := by
  have hone : (extractedGraph asm text resolved).snapshots.length ≤ JvmArtifactBlobLayout.INT_MAX := by
    show 1 ≤ _
    decide
  show (∃ bytes, JvmArtifactBlobLayout.encode writer (extractedGraph asm text resolved) = some bytes) ↔ _
  unfold JvmArtifactBlobLayout.encode Fits
  dsimp only
  split
  · next hfits => exact iff_of_true ⟨_, rfl⟩ hfits.2
  · next hlong => exact iff_of_false (fun ⟨_, h⟩ => by cases h) fun hfits => hlong ⟨hone, hfits⟩

theorem stage_holdsUnit {bytes : Bytes} (h : ArtifactMaterializer.stage writer asm text resolved = some bytes) :
    HoldsUnit reader bytes resolved.descriptor := by
  have hencoded := JvmArtifactBlobLayout.encode_encoded h
  refine ⟨_, JvmArtifactBlobLayout.ordinalizeLocalGraphFacts (extractedGraph asm text resolved), _,
    ArtifactAdapter.sourceUnit resolved.sourceUnit, hencoded.validate, ?_, rfl, rfl, rfl, rfl, rfl, rfl⟩
  rw [ArtifactLayout.graphFacts_eq hencoded.accepts]
  exact hencoded.graphFacts writer (List.mem_append_right _ List.mem_cons_self)

end

end JvmWorker

/-! ## The paths of an artifact list -/

section Locators
open JvmWorker
variable {env : CommandEnvironment} {answer : WorkerMessage → WorkerMessage} {session : Session} {executionPlan : OpaqueExecutionPlan}
  {supervisor : Handle}

theorem insertLocators_ok {locators new : List ArtifactLocator} (h : ((locators ++ new).map (·.sourceUnit)).Nodup) :
    new.foldlM insertLocator locators = .ok (locators ++ new) := by
  induction new generalizing locators with
  | nil => exact congrArg Except.ok (List.append_nil _).symm
  | cons locator new ih =>
    have hnone : lastOf (·.sourceUnit) locators locator.sourceUnit = none := by
      refine Option.not_isSome_iff_eq_none.1 fun hsome => ?_
      rw [List.map_append, List.nodup_append] at h
      exact h.2.2 _ ((lastOf_isSome_iff _).1 hsome) _ (List.mem_map_of_mem List.mem_cons_self) rfl
    have hfirst : insertLocator locators locator = .ok (locators ++ [locator]) := by
      rw [insertLocator, hnone]
    rw [List.append_cons] at h ⊢
    rw [List.foldlM_cons, hfirst, ok_bind, ih h]

def locatorPageId (page : Nat) : String := "materialize-only-artifact-descriptors-" ++ toString page

theorem locatorPageId_injective : Function.Injective locatorPageId :=
  fun _ _ h => Fields.toString_inj.1 ((String.append_right_inj _).1 h)

/-- **Run.** Over a reliable worker no path is refused, if the crawl ends and finds an identity once. -/
theorem discoverArtifactLocators_runs (hreliable : Reliable env.workers) (hanswers : AnswersWith env.workers answer)
    (hdispatch : session.Dispatches answer) {fuel page : Nat} {cursor : Option String} {locators : List ArtifactLocator}
    {found : List (List ArtifactDescriptor × List ArtifactLocator)} {ids : List String} (index : Index) {workers : Workers}
    (hcrawl : Pages.crawl (session.ask 64 executionPlan) fuel cursor = .ok found)
    (hdistinct : ((locators ++ found.flatMap Prod.snd).map (·.sourceUnit)).Nodup)
    (hused : Workers.Used ids supervisor workers) (hfresh : ∀ n ≥ page, locatorPageId n ∉ ids) :
    ∃ after, discoverArtifactLocators env supervisor executionPlan fuel page cursor locators (index, workers) =
      (.ok (locators ++ found.flatMap Prod.snd), after) := by
  induction fuel generalizing page cursor locators found ids workers with
  | zero => cases hcrawl
  | succ fuel ih =>
    obtain ⟨response, rest, after, hanswered, hused', rfl, hpages⟩ :=
      page_answered hreliable hanswers hdispatch hcrawl hused (hfresh page le_rfl)
    have hrequest : onOrchestrator (onWorkers (Workers.request env.workers supervisor
        (.new ("materialize-only-artifact-descriptors-" ++ toString page) (artifactDiscoveryRequest cursor executionPlan))))
          (index, workers) = (.ok (.new (locatorPageId page) (.artifactDiscoveryResponse response)), index, after) := by
      have hworkers : Workers.request env.workers supervisor (.new ("materialize-only-artifact-descriptors-" ++ toString page)
          (artifactDiscoveryRequest cursor executionPlan)) workers =
            (.ok (.new (locatorPageId page) (.artifactDiscoveryResponse response)), after) := hanswered
      unfold onOrchestrator onWorkers second mapError
      dsimp only
      rw [hworkers]
    rw [List.flatMap_cons, ← List.append_assoc] at hdistinct ⊢
    have hinserted : (lift (response.artifactLocators.foldlM insertLocator locators) : CommandRun _) (index, after) =
        (.ok (locators ++ response.artifactLocators), index, after) := by
      rw [List.map_append] at hdistinct
      rw [lift, insertLocators_ok (List.nodup_append.1 hdistinct).1]
    unfold discoverArtifactLocators
    rw [bind_of_ok hrequest]
    dsimp only [WorkerEnvelope.new]
    rw [bind_of_ok hinserted]
    rcases hpages with ⟨hnext, rfl⟩ | ⟨next, hnext, hrest⟩
    · rw [hnext, List.flatMap_nil, List.append_nil]
      exact ⟨_, rfl⟩
    · rw [hnext]
      exact ih hrest hdistinct hused' (fresh_behind locatorPageId_injective hfresh)

end Locators

/-! ## The catalog -/

section Catalog
open JvmWorker
variable {session : Session} {executionPlan : OpaqueExecutionPlan} {artifacts : List ResolvedPath}
  {entries : List (ArtifactDescriptor × ArtifactLocator)} {catalog : DependencyCatalog}

theorem entry_spec {artifact : ResolvedPath} {e : ArtifactDescriptor × ArtifactLocator} : session.entry artifact = some e ↔
    ∃ resolved, session.opened artifact = .ok resolved ∧
      e = (resolved.descriptor, ⟨resolved.descriptor.sourceUnit.id, artifact.path⟩) := by
  rw [Session.entry, Session.descriptor]
  cases session.opened artifact with
  | error message =>
    constructor
    · intro h
      cases h
    · rintro ⟨_, h, -⟩
      cases h
  | ok resolved =>
    constructor
    · exact fun h => ⟨resolved, rfl, (Option.some.inj h).symm⟩
    · rintro ⟨_, hr, rfl⟩
      cases hr
      rfl

theorem idAt_of_opened {artifact : ResolvedPath} {resolved : ResolvedJvmArtifact} (h : session.opened artifact = .ok resolved) :
    idAt session artifact.path = some resolved.descriptor.sourceUnit.id := by
  obtain ⟨file, hfile, rfl⟩ := opened_eq_ok_iff.1 h
  rw [idAt, hfile]
  rfl

/-- Two paths have one identity exactly if they have one hash. -/
theorem idAt_eq (session : Session) (path : String) :
    idAt session path = ((session.files path).map artifactHash).map fun hash => ⟨"jvm:" ++ hash⟩ := by
  rw [idAt, Option.map_map]
  rfl

theorem id_injective : Function.Injective fun hash : String => (⟨"jvm:" ++ hash⟩ : SourceUnitId) :=
  fun _ _ h => (String.append_right_inj _).1 (SourceUnitId.mk.inj h)

section Entries
variable (hentries : artifacts.mapM session.entry = some entries)
include hentries

theorem mem_entries {e : ArtifactDescriptor × ArtifactLocator} (he : e ∈ entries) : ∃ artifact ∈ artifacts, ∃ resolved,
    session.opened artifact = .ok resolved ∧ e = (resolved.descriptor, ⟨resolved.descriptor.sourceUnit.id, artifact.path⟩) := by
  obtain ⟨artifact, hartifact, hentry⟩ := forall₂_exists_mem (mapM_eq_some_iff.1 hentries).flip he
  obtain ⟨resolved, hopened, rfl⟩ := entry_spec.1 hentry
  exact ⟨artifact, hartifact, resolved, hopened, rfl⟩

theorem entry_mem {artifact : ResolvedPath} (hartifact : artifact ∈ artifacts) : ∃ resolved,
    session.opened artifact = .ok resolved ∧ (resolved.descriptor, ⟨resolved.descriptor.sourceUnit.id, artifact.path⟩) ∈ entries := by
  obtain ⟨e, he, hentry⟩ := forall₂_exists_mem (mapM_eq_some_iff.1 hentries) hartifact
  obtain ⟨resolved, hopened, rfl⟩ := entry_spec.1 hentry
  exact ⟨resolved, hopened, he⟩

theorem entry_ids : (entries.map fun e => e.1.sourceUnit.id).map some = artifacts.map fun artifact => idAt session artifact.path := by
  have hforall := mapM_eq_some_iff.1 hentries
  clear hentries
  induction hforall with
  | nil => rfl
  | cons hentry _ ih =>
    obtain ⟨resolved, hopened, rfl⟩ := entry_spec.1 hentry
    rw [List.map_cons, List.map_cons, List.map_cons, ih, idAt_of_opened hopened]

theorem entry_ids_nodup_iff : (entries.map fun e => e.1.sourceUnit.id).Nodup ↔
    (artifacts.map fun artifact => (session.files artifact.path).map artifactHash).Nodup := by
  have hids : (artifacts.map fun artifact => idAt session artifact.path) =
      (artifacts.map fun artifact => (session.files artifact.path).map artifactHash).map
        (Option.map fun hash => (⟨"jvm:" ++ hash⟩ : SourceUnitId)) := by
    rw [List.map_map]
    exact List.map_congr_left fun artifact _ => idAt_eq session artifact.path
  rw [← List.nodup_map_iff (Option.some_injective _), entry_ids hentries, hids,
    List.nodup_map_iff (Option.map_injective id_injective)]

theorem locator_keys : (entries.map Prod.snd).map (·.sourceUnit) = entries.map fun e => e.1.sourceUnit.id := by
  rw [List.map_map]
  refine List.map_congr_left fun e he => ?_
  obtain ⟨artifact, -, resolved, -, rfl⟩ := mem_entries hentries he
  rfl

variable (hcatalog : CatalogOf entries catalog)
include hcatalog

theorem mem_descriptors {descriptor : ArtifactDescriptor} (hd : descriptor ∈ catalog.descriptors) :
    ∃ artifact ∈ artifacts, ∃ resolved, session.opened artifact = .ok resolved ∧ descriptor = resolved.descriptor := by
  rw [hcatalog.1, mem_collect] at hd
  obtain ⟨e, he, rfl⟩ := List.mem_map.1 (lastOf_some _ hd).1
  obtain ⟨artifact, hartifact, resolved, hopened, rfl⟩ := mem_entries hentries he
  exact ⟨artifact, hartifact, resolved, hopened, rfl⟩

/-- Every identity is kept once. -/
theorem descriptor_kept {artifact : ResolvedPath} (hartifact : artifact ∈ artifacts) :
    ∃ descriptor ∈ catalog.descriptors, idAt session artifact.path = some descriptor.sourceUnit.id := by
  obtain ⟨resolved, hopened, he⟩ := entry_mem hentries hartifact
  have hkey : resolved.descriptor.sourceUnit.id ∈ catalog.descriptors.map (·.sourceUnit.id) := by
    rw [hcatalog.1, collect_keys, mem_sortedKeys]
    exact List.mem_map_of_mem (List.mem_map_of_mem (f := Prod.fst) he)
  obtain ⟨descriptor, hd, hid⟩ := List.mem_map.1 hkey
  exact ⟨descriptor, hd, by rw [idAt_of_opened hopened, hid]⟩

/-- Where the identities are distinct, an artifact is catalogued with its own path. -/
theorem catalogued_path (hnodup : (entries.map fun e => e.1.sourceUnit.id).Nodup) {artifact : ResolvedPath}
    (hartifact : artifact ∈ artifacts) {resolved : ResolvedJvmArtifact} (hopened : session.opened artifact = .ok resolved) :
    resolved.descriptor ∈ catalog.descriptors ∧ locatorFor catalog.artifactLocators resolved.descriptor = some artifact.path := by
  obtain ⟨found, hfound, he⟩ := entry_mem hentries hartifact
  obtain rfl : found = resolved := Except.ok.inj (hfound.symm.trans hopened)
  constructor
  · have hkeys : ((entries.map Prod.fst).map (·.sourceUnit.id)).Nodup := by rwa [List.map_map]
    rw [hcatalog.1, mem_collect, lastOf_eq_some_iff _ hkeys]
    exact ⟨List.mem_map_of_mem (f := Prod.fst) he, rfl⟩
  · have hkeys : ((entries.map Prod.snd).map (·.sourceUnit)).Nodup := by rwa [locator_keys hentries]
    have hlocator : lastOf (·.sourceUnit) catalog.artifactLocators found.descriptor.sourceUnit.id =
        some ⟨found.descriptor.sourceUnit.id, artifact.path⟩ := by
      rw [hcatalog.2, lastOf_eq_some_iff _ (collect_keys_nodup _ _ _), mem_collect, lastOf_eq_some_iff _ hkeys]
      exact ⟨⟨List.mem_map_of_mem (f := Prod.snd) he, rfl⟩, rfl⟩
    rw [locatorFor, hlocator]
    rfl

end Entries

/-! ### Both ways -/

section Condition
variable (session) {reader : BlobReader} (writer : BlobWriter reader) (asm : Asm) (text : JsonText) (unreadable : Bytes → Option String)

/-- The artifact is staged under its catalogued path and without one, each time as the unit of its descriptor. -/
def MaterializesBothWays (catalog : DependencyCatalog) (descriptor : ArtifactDescriptor) : Prop :=
  ∀ (root : WorkspacePath) (staging : String), ∃ locator, locatorFor catalog.artifactLocators descriptor = some locator ∧
    ∀ asked ∈ [some locator, none], ∃ bytes, session.materialize writer asm text unreadable
      ⟨root, descriptor, staging, ARTIFACT_BLOB_LAYOUT_VERSION, asked⟩ = .ok bytes ∧ HoldsUnit reader bytes descriptor

/-- The locator discovery of `--materialize-only` returns over every reliable worker of the session. -/
def LocatorsAccepted (executionPlan : OpaqueExecutionPlan) (artifacts : List ResolvedPath) : Prop :=
  ∀ (env : CommandEnvironment) (answer : WorkerMessage → WorkerMessage), Reliable env.workers → AnswersWith env.workers answer →
    session.Dispatches answer → ∀ (supervisor : Handle) (ids : List String) (index : Index) (workers : Workers) (fuel : Nat),
      Workers.Used ids supervisor workers → (∀ n, locatorPageId n ∉ ids) → artifacts.length < fuel →
        ∃ locators after, discoverArtifactLocators env supervisor executionPlan fuel 0 none [] (index, workers) = (.ok locators, after)

/-- Regular files with different bytes, whose classes can be read and whose blobs fit an array. -/
structure DistinctJars (artifacts : List ResolvedPath) : Prop where
  distinct : (artifacts.map fun artifact => (session.files artifact.path).map artifactHash).Nodup
  regular : ∀ artifact ∈ artifacts, session.isRegularFile artifact.path = true
  readable : ∀ artifact ∈ artifacts, ∀ resolved, session.opened artifact = .ok resolved → readClasses unreadable resolved = .ok ()
  fits : ∀ artifact ∈ artifacts, ∀ resolved, session.opened artifact = .ok resolved → JvmWorker.Fits writer asm text resolved

end Condition

section Both
variable {reader : BlobReader} {writer : BlobWriter reader} {asm : Asm} {text : JsonText} {unreadable : Bytes → Option String}

/-- Without a path exactly one resolved artifact has the identity. -/
theorem requested_unique (hresolved : session.resolvedArtifacts = .ok artifacts)
    (hexist : ∀ artifact ∈ artifacts, ∃ resolved, session.opened artifact = .ok resolved) {request : ArtifactMaterializationRequest}
    (hasked : request.artifactLocator = none) {artifact : ResolvedPath} : session.requested request = .ok artifact ↔
      (artifacts.filter fun candidate => idAt session candidate.path = some request.artifact.sourceUnit.id) = [artifact] := by
  have hpredicate : ∀ candidate ∈ artifacts, (session.descriptorId candidate).map (decide <| · = request.artifact.sourceUnit.id) =
      .ok (decide (idAt session candidate.path = some request.artifact.sourceUnit.id)) := by
    intro candidate hcandidate
    obtain ⟨resolved, hopened⟩ := hexist candidate hcandidate
    have hid := idAt_of_opened hopened
    rw [descriptorId_of_idAt hid, hid]
    exact congrArg Except.ok (decide_eq_decide.2 Option.some_inj.symm)
  unfold Session.requested
  rw [hasked]
  dsimp only
  rw [hresolved, ok_bind, singleOrNull_eq hpredicate, ok_bind, Option.toList_none, List.nil_append]
  rcases artifacts.filter _ with _ | ⟨a, _ | ⟨b, rest⟩⟩
  · exact ⟨fun h => (by cases h), fun h => (by cases h)⟩
  · exact ⟨fun h => congrArg (fun a => [a]) (Except.ok.inj h), fun h => congrArg Except.ok (List.head_eq_of_cons_eq h)⟩
  · exact ⟨fun h => (by cases h), fun h => (by cases h)⟩

theorem filter_key {α κ : Type} [DecidableEq κ] {key : α → κ} {l : List α} (h : (l.map key).Nodup) {a : α} (ha : a ∈ l) :
    l.filter (fun b => key b = key a) = [a] := by
  induction l with
  | nil => cases ha
  | cons b l ih =>
    rw [List.map_cons, List.nodup_cons] at h
    rcases List.mem_cons.1 ha with rfl | ha
    · rw [List.filter_cons_of_pos (by exact decide_eq_true rfl), List.filter_eq_nil_iff.2]
      exact fun c hc hkey => h.1 (List.mem_map.2 ⟨c, hc, of_decide_eq_true hkey⟩)
    · rw [List.filter_cons_of_neg, ih h.2 ha]
      exact fun hkey => h.1 (List.mem_map.2 ⟨a, ha, (of_decide_eq_true hkey).symm⟩)

/-- Another name for an artifact changes neither its classes nor its blob. -/
theorem readClasses_congr {r s : ResolvedJvmArtifact} (h : r.artifact = s.artifact) : readClasses unreadable r = readClasses unreadable s := by
  rw [readClasses, readClasses, h]

theorem materializes_of_distinct (hresolved : session.resolvedArtifacts = .ok artifacts)
    (hentries : artifacts.mapM session.entry = some entries) (hcatalog : CatalogOf entries catalog)
    (h : DistinctJars session writer asm text unreadable artifacts) :
    ∀ descriptor ∈ catalog.descriptors, MaterializesBothWays session writer asm text unreadable catalog descriptor := by
  intro descriptor hd root staging
  obtain ⟨artifact, hartifact, resolved, hopened, rfl⟩ := mem_descriptors hentries hcatalog hd
  have hid := idAt_of_opened hopened
  have hlocator := (catalogued_path hentries hcatalog ((entry_ids_nodup_iff hentries).2 h.distinct) hartifact hopened).2
  refine ⟨artifact.path, hlocator, fun asked hasked => ?_⟩
  rcases List.mem_cons.1 hasked with rfl | hasked
  · obtain ⟨file, hfile, rfl⟩ := opened_eq_ok_iff.1 hopened
    have hread := h.readable artifact hartifact _ hopened
    obtain ⟨bytes, hstage⟩ := stages_iff.2 (h.fits artifact hartifact _ hopened)
    refine ⟨bytes, materialize_eq_ok_iff.2 ⟨rfl, ⟨artifact.path, artifact.component, artifact.context, "unknown", none, none⟩,
      ⟨file, artifact.component, artifact.context, "unknown", none, none⟩, ?_, hid, opened_eq_ok_iff.2 ⟨file, hfile, rfl⟩,
      (readClasses_congr rfl).trans hread, hstage⟩, stage_holdsUnit hstage⟩
    have hregular : session.isRegularFile artifact.path = true := h.regular artifact hartifact
    rw [Session.requested]
    dsimp only
    rw [hregular]
    rfl
  · obtain rfl := List.mem_singleton.1 hasked
    obtain ⟨bytes, hstage⟩ := stages_iff.2 (h.fits artifact hartifact _ hopened)
    refine ⟨bytes, materialize_eq_ok_iff.2 ⟨rfl, artifact, resolved, ?_, hid, hopened, h.readable artifact hartifact _ hopened,
      hstage⟩, stage_holdsUnit hstage⟩
    have hkeys : (artifacts.map fun candidate => idAt session candidate.path).Nodup := by
      rw [← entry_ids hentries]
      exact ((entry_ids_nodup_iff hentries).2 h.distinct).map (Option.some_injective _)
    refine (requested_unique hresolved (fun other hother => ?_) rfl).2 ?_
    · obtain ⟨found, hfound, -⟩ := entry_mem hentries hother
      exact ⟨found, hfound⟩
    · rw [← hid]
      exact filter_key hkeys hartifact

theorem locators_accepted (hlist : session.artifacts executionPlan = .ok artifacts) (hdistinct : (artifacts.map session.cursor).Nodup)
    (hentries : artifacts.mapM session.entry = some entries)
    (h : (artifacts.map fun artifact => (session.files artifact.path).map artifactHash).Nodup) :
    LocatorsAccepted session executionPlan artifacts := by
  intro env answer hreliable hanswers hdispatch supervisor ids index workers fuel hused hfresh hfuel
  obtain ⟨found, hcrawl, -, hsnd⟩ := crawl_found hlist hdistinct (by decide : 1 ≤ 64) le_rfl hfuel hentries
  have hkeys : (([] ++ found.flatMap Prod.snd).map ArtifactLocator.sourceUnit).Nodup := by
    rw [List.nil_append, hsnd, locator_keys hentries]
    exact (entry_ids_nodup_iff hentries).2 h
  obtain ⟨after, hrun⟩ := discoverArtifactLocators_runs hreliable hanswers hdispatch index hcrawl hkeys hused
    fun n _ => hfresh n
  exact ⟨_, after, hrun⟩

/-- A catalog that is materialized both ways comes from different jars. -/
theorem distinct_of_materializes (hresolved : session.resolvedArtifacts = .ok artifacts)
    (hentries : artifacts.mapM session.entry = some entries) (hcatalog : CatalogOf entries catalog)
    (h : ∀ descriptor ∈ catalog.descriptors, MaterializesBothWays session writer asm text unreadable catalog descriptor) :
    DistinctJars session writer asm text unreadable artifacts := by
  have hexist : ∀ artifact ∈ artifacts, ∃ resolved, session.opened artifact = .ok resolved := fun artifact hartifact =>
    (entry_mem hentries hartifact).imp fun _ hfound => hfound.1
  have hdistinct : (artifacts.map fun artifact => (session.files artifact.path).map artifactHash).Nodup := by
    refine List.nodup_iff_count_le_one.2 fun key => ?_
    by_cases hmem : key ∈ artifacts.map fun artifact => (session.files artifact.path).map artifactHash
    · obtain ⟨artifact, hartifact, rfl⟩ := List.mem_map.1 hmem
      obtain ⟨descriptor, hd, hid⟩ := descriptor_kept hentries hcatalog hartifact
      obtain ⟨locator, -, hboth⟩ := h descriptor hd ⟨"."⟩ ""
      obtain ⟨bytes, hbytes, -⟩ := hboth none (List.mem_cons_of_mem _ List.mem_cons_self)
      obtain ⟨-, found, -, hrequested, -⟩ := materialize_eq_ok_iff.1 hbytes
      have hone := (requested_unique hresolved hexist rfl).1 hrequested
      rw [List.count, List.countP_map, List.countP_eq_length_filter]
      have hsame : artifacts.filter ((fun hash => hash == (session.files artifact.path).map artifactHash) ∘
          fun artifact => (session.files artifact.path).map artifactHash) = [found] := by
        rw [← hone]
        refine List.filter_congr fun candidate _ => ?_
        rw [Function.comp_apply, Bool.eq_iff_iff, beq_iff_eq, decide_eq_true_eq]
        dsimp only
        rw [← hid, idAt_eq, idAt_eq, (Option.map_injective id_injective).eq_iff]
      rw [hsame]
      exact le_rfl
    · rw [List.count_eq_zero_of_not_mem hmem]
      exact Nat.zero_le 1
  have hids := (entry_ids_nodup_iff hentries).2 hdistinct
  have hown : ∀ artifact ∈ artifacts, ∀ resolved, session.opened artifact = .ok resolved → ∃ bytes found,
      session.isRegularFile artifact.path = true ∧ found.artifact = resolved.artifact ∧
        found.extractArtifact asm text = resolved.extractArtifact asm text ∧ readClasses unreadable found = .ok () ∧
        ArtifactMaterializer.stage writer asm text found = some bytes := by
    intro artifact hartifact resolved hopened
    obtain ⟨hd, hpath⟩ := catalogued_path hentries hcatalog hids hartifact hopened
    obtain ⟨locator, hlocator, hboth⟩ := h _ hd ⟨"."⟩ ""
    obtain rfl := Option.some.inj (hlocator.symm.trans hpath)
    obtain ⟨bytes, hbytes, -⟩ := hboth (some artifact.path) List.mem_cons_self
    obtain ⟨-, asked, found, hrequested, -, hfound, hread, hstage⟩ := materialize_eq_ok_iff.1 hbytes
    obtain ⟨_, hregular, hasked⟩ := bind_eq_ok_iff.1 hrequested
    obtain rfl := Except.ok.inj hasked
    obtain ⟨file, hfile, rfl⟩ := opened_eq_ok_iff.1 hopened
    obtain ⟨file', hfile', rfl⟩ := opened_eq_ok_iff.1 hfound
    obtain rfl : file' = file := Option.some.inj (hfile'.symm.trans hfile)
    exact ⟨bytes, _, Bool.not_eq_false _ ▸ reject_eq_ok_iff.1 hregular, rfl, rfl, hread, hstage⟩
  refine ⟨hdistinct, fun artifact hartifact => ?_, fun artifact hartifact resolved hopened => ?_,
    fun artifact hartifact resolved hopened => ?_⟩
  · obtain ⟨resolved, hopened⟩ := hexist artifact hartifact
    obtain ⟨-, -, hregular, -⟩ := hown artifact hartifact resolved hopened
    exact hregular
  · obtain ⟨-, found, -, hsame, -, hread, -⟩ := hown artifact hartifact resolved hopened
    rw [← readClasses_congr hsame, hread]
  · obtain ⟨bytes, found, -, -, hsame, -, hstage⟩ := hown artifact hartifact resolved hopened
    refine stages_iff.1 ⟨bytes, ?_⟩
    rw [← hstage, ArtifactMaterializer.stage, ArtifactMaterializer.stage, hsame]

end Both

end Catalog

/-- **Materialization.** After a discovery that returned, every artifact of the catalog is staged with and without its path as the unit
of its descriptor, and `--materialize-only` accepts the paths, exactly if the classpath has different jars only. -/
theorem catalog_materializes_iff (session : JvmWorker.Session) (executionPlan : OpaqueExecutionPlan)
    (artifacts : List JvmWorker.ResolvedPath) (hlist : session.artifacts executionPlan = .ok artifacts)
    (hresolved : session.resolvedArtifacts = .ok artifacts) (hdistinct : (artifacts.map session.cursor).Nodup)
    (env : WorkerEnvironment) (answer : WorkerMessage → WorkerMessage) (hanswers : AnswersWith env answer)
    (hdispatch : session.Dispatches answer) (manifest : ProjectManifest) (launch : WorkerLaunch) (workers : Workers) (pages : Nat)
    (hpages : artifacts.length < pages) (catalog : DependencyCatalog)
    (hcatalog : (discoverDependencyCatalog env pages launch manifest executionPlan workers).1 = .ok catalog)
    {reader : BlobReader} (writer : BlobWriter reader) (asm : Asm) (text : JsonText) (unreadable : Bytes → Option String) :
    ((∀ descriptor ∈ catalog.descriptors, MaterializesBothWays session writer asm text unreadable catalog descriptor) ∧
      LocatorsAccepted session executionPlan artifacts) ↔ DistinctJars session writer asm text unreadable artifacts := by
  rw [← discoverDependencyCatalogOf_64] at hcatalog
  obtain ⟨entries, hentries, hentriesOf⟩ :=
    catalog_entries hlist hdistinct (by decide : 1 ≤ 64) le_rfl hanswers hdispatch hpages hcatalog
  constructor
  · exact fun h => distinct_of_materializes hresolved hentries hentriesOf h.1
  · intro h
    exact ⟨materializes_of_distinct hresolved hentries hentriesOf h, locators_accepted hlist hdistinct hentries h.distinct⟩

/-! ## Two copies of a jar -/

namespace CrossArtifact
open JvmWorker

section
variable (session : Session)

def answer : WorkerMessage → WorkerMessage
  | .handshakeRequest _ => .handshakeResponse sampleCapabilities
  | .artifactDiscoveryRequest request => session.discover request
  | message => message

/-- A worker that always answers. -/
def serving : WorkerEnvironment where
  now _ := 0
  exited _ := false
  spawns _ := true
  writes _ := .written
  receives _ request := .envelope (.new request.requestId (answer session request.message))

theorem serving_reliable : Reliable (serving session) := ⟨fun _ => rfl, fun _ => rfl, fun _ _ => ⟨_, rfl⟩⟩

theorem serving_answers : AnswersWith (serving session) (answer session) := fun _ _ _ h => (Received.envelope.inj h).symm

theorem answer_dispatches : session.Dispatches (answer session) := ⟨fun _ => rfl, sampleCapabilities, rfl, rfl⟩

/-- A manifest with these components. -/
def manifestOf (components : List String) : ProjectManifest :=
  { sampleManifest with components := components.map fun name => { mainComponent "sha256:context" with id := ⟨name⟩ } }

def cachedPlan : OpaqueExecutionPlan := ⟨"cached", sampleManifest.fingerprint, []⟩

theorem serving_discovers {artifacts : List ResolvedPath} (components : List String)
    (hlist : session.artifacts cachedPlan = .ok artifacts) (hdistinct : (artifacts.map session.cursor).Nodup)
    {entries : List (ArtifactDescriptor × ArtifactLocator)} (hentries : artifacts.mapM session.entry = some entries)
    (hcontext : ∀ e ∈ entries, InContext (manifestOf components) e.1) : ∃ catalog, (discoverDependencyCatalog (serving session)
      (artifacts.length + 1) sampleLaunch (manifestOf components) cachedPlan noWorkers).1 = .ok catalog := by
  obtain ⟨found, hfound, hfst, -⟩ := crawl_found hlist hdistinct (by decide : 1 ≤ 64) le_rfl (Nat.lt_succ_self _) hentries
  rw [← discoverDependencyCatalogOf_64]
  refine discoverDependencyCatalogOf_runs (serving_reliable session) (serving_answers session) (answer_dispatches session) noWorkers
    hfound ?_
  rw [hfst]
  exact List.forall_mem_map.2 hcontext

end

/-- The classpath of two directories. -/
theorem classpath_materializes_iff : ∃ catalog, (discoverDependencyCatalog (serving session) 3 sampleLaunch
      (manifestOf ["client", "library"]) cachedPlan noWorkers).1 = .ok catalog ∧
    (((∀ descriptor ∈ catalog.descriptors, MaterializesBothWays session ArtifactLayout.wireWriter asm plainText (fun _ => none) catalog
        descriptor) ∧ LocatorsAccepted session cachedPlan classpath) ↔
      DistinctJars session ArtifactLayout.wireWriter asm plainText (fun _ => none) classpath) := by
  have hlist : session.artifacts cachedPlan = .ok classpath := rfl
  have hdistinct : (classpath.map session.cursor).Nodup := by decide
  have hentries : classpath.mapM session.entry = some [(client.descriptor, ⟨client.descriptor.sourceUnit.id, "/classes/client"⟩),
      (library.descriptor, ⟨library.descriptor.sourceUnit.id, "/classes/library"⟩)] := by rfl
  obtain ⟨catalog, hcatalog⟩ := serving_discovers session ["client", "library"] hlist hdistinct hentries
    (List.forall_mem_cons.2 ⟨⟨_, rfl, rfl⟩, List.forall_mem_singleton.2 ⟨_, rfl, rfl⟩⟩)
  exact ⟨catalog, hcatalog, catalog_materializes_iff session cachedPlan classpath hlist rfl hdistinct (serving session) (answer session)
    (serving_answers session) (answer_dispatches session) _ _ _ 3 (by decide) catalog hcatalog _ _ _ _⟩

/-- A zip archive without entries. -/
def emptyJar : Artifact := .jar ([0x50, 0x4b, 5, 6] ++ List.replicate 18 0) []

/-- A copy of the jar in each of two components. -/
def copies : List ResolvedPath :=
  [⟨"/app/libs/util.jar", "app", "sha256:context", "unknown", none, none⟩,
    ⟨"/tool/libs/util.jar", "tool", "sha256:context", "unknown", none, none⟩]

def copiesSession : Session where
  files _ := some emptyJar
  normalized := id
  decodeExecutionPlan _ := .ok copies
  resolvedArtifacts := .ok copies

/-- The jar is catalogued, but without its path the worker finds it twice. -/
theorem copied_jar_lost : ∃ catalog, (discoverDependencyCatalog (serving copiesSession) 3 sampleLaunch (manifestOf ["app", "tool"])
      cachedPlan noWorkers).1 = .ok catalog ∧
    ¬ ((∀ descriptor ∈ catalog.descriptors, MaterializesBothWays copiesSession ArtifactLayout.wireWriter asm plainText (fun _ => none)
      catalog descriptor) ∧ LocatorsAccepted copiesSession cachedPlan copies) := by
  have hlist : copiesSession.artifacts cachedPlan = .ok copies := rfl
  have hdistinct : (copies.map copiesSession.cursor).Nodup := by decide
  let jar (component : String) : ResolvedJvmArtifact := ⟨emptyJar, component, "sha256:context", "unknown", none, none⟩
  have hentries : copies.mapM copiesSession.entry = some
      [((jar "app").descriptor, ⟨(jar "app").descriptor.sourceUnit.id, "/app/libs/util.jar"⟩),
        ((jar "tool").descriptor, ⟨(jar "tool").descriptor.sourceUnit.id, "/tool/libs/util.jar"⟩)] := rfl
  obtain ⟨catalog, hcatalog⟩ := serving_discovers copiesSession ["app", "tool"] hlist hdistinct hentries
    (List.forall_mem_cons.2 ⟨⟨_, rfl, rfl⟩, List.forall_mem_singleton.2 ⟨_, rfl, rfl⟩⟩)
  refine ⟨catalog, hcatalog, fun h => ?_⟩
  have hok := hcatalog
  rw [← discoverDependencyCatalogOf_64] at hok
  obtain ⟨entries, hmapped, hof⟩ := catalog_entries hlist hdistinct (by decide : 1 ≤ 64) le_rfl (serving_answers copiesSession)
    (answer_dispatches copiesSession) (by decide) hok
  have hjars := (distinct_of_materializes rfl hmapped hof h.1).distinct
  rw [copies, List.map_cons, List.nodup_cons] at hjars
  exact hjars.1 List.mem_cons_self

end CrossArtifact

end Kide
