import Kide.Index.CatalogContexts
import Kide.Index.CrossArtifact
import Kide.Kotlin.StructuralExtractor
import Kide.Lib.Fields
import Kide.Lib.Pages
import Kide.Lib.Raises
import Kide.Workers.Answering

/-!
# The pages of artifact discovery

`artifactDescriptors` (`Main.kt`) hands out the resolved artifacts page by page, `discover_dependency_catalog` follows the cursors.
Core asks for pages of 64; here the size is a parameter (`discoverPagesOf`, `discoverDependencyCatalogOf_64`).

* `ask_eq` : the worker's pages are those of `Pages`, with the artifacts of a page described;
* `discoverPagesOf_returns`, `discoverPagesOf_raises`, `discoverPagesOf_runs` : the loop of Core collects what a crawl finds;
* `catalog_of_pages` : every page size gives the whole list, each artifact once, and with it one catalog.
-/

namespace Kide
open Runs Collects Checks JvmBytecodeExtractor

namespace JvmWorker

/-! ## The worker -/

def WORKER_NAME : String := "kide-kotlin-jvm"

/-- `ResolvedJvmArtifact`, which names an artifact by its path. -/
structure ResolvedPath where
  path : String
  component : String
  context : String
  ecosystem : String
  coordinate : Option String
  version : Option String
deriving DecidableEq, Repr

/-- What a worker learns from its host and the build tool, fixed while the session lasts. -/
structure Session where
  /-- A regular file is a jar. -/
  files : String → Option Artifact
  /-- `toAbsolutePath().normalize().toString()` -/
  normalized : String → String
  /-- The artifacts of the decoded plan. -/
  decodeExecutionPlan : OpaqueExecutionPlan → Except String (List ResolvedPath)
  resolvedArtifacts : Except String (List ResolvedPath)

def unsupported (message : String) : WorkerMessage :=
  .error ⟨.unsupportedCapability, message, false, WORKER_PROTOCOL_VERSION, none⟩

def failureMessage (message fallback : String) : String :=
  if KotlinStructuralExtractor.isNotBlank message then message else fallback

namespace Session

variable (session : Session)

def cursor (artifact : ResolvedPath) : String := session.normalized artifact.path

/-- The artifact at the path, which has to be a file or a directory. -/
def opened (artifact : ResolvedPath) : Except String ResolvedJvmArtifact :=
  match session.files artifact.path with
  | some file => .ok ⟨file, artifact.component, artifact.context, artifact.ecosystem, artifact.coordinate, artifact.version⟩
  | none => .error ("artifact does not exist: " ++ artifact.path)

def descriptor (artifact : ResolvedPath) : Except String ArtifactDescriptor := (session.opened artifact).map (·.descriptor)

def locator (artifact : ResolvedPath) : Except String ArtifactLocator :=
  (session.descriptor artifact).map fun descriptor => ⟨descriptor.sourceUnit.id, artifact.path⟩

/-- `ifEmpty { resolvedArtifacts(workspaceRoot) }` -/
def candidates (artifactCandidates : List ResolvedPath) : Except String (List ResolvedPath) :=
  if artifactCandidates = [] then session.resolvedArtifacts else .ok artifactCandidates

def describe (batch : List ResolvedPath) (nextCursor : Option String) : Except String ArtifactDiscoveryResponse := do
  let descriptors ← batch.mapM session.descriptor
  let locators ← batch.mapM session.locator
  .ok ⟨descriptors, nextCursor, locators⟩

def artifactDescriptors (maxArtifacts : Nat) (cursor : Option String) (artifactCandidates : List ResolvedPath) :
    Except String ArtifactDiscoveryResponse := do
  let artifacts ← session.candidates artifactCandidates
  match Pages.page session.cursor artifacts maxArtifacts cursor with
  | none => .error "artifact cursor is not valid for this workspace"
  | some (batch, nextCursor) => session.describe batch nextCursor

/-- The artifacts of a plan; the backend has to be this worker, or the plan a reference. -/
def planned (executionPlan : OpaqueExecutionPlan) : Except String (List ResolvedPath) := do
  reject (executionPlan.backend ∉ [WORKER_NAME, "cached"])
    ("execution plan belongs to " ++ executionPlan.backend ++ ", not " ++ WORKER_NAME)
  session.decodeExecutionPlan executionPlan

/-- The branch of `dispatch` for discovery requests. -/
def discover (request : ArtifactDiscoveryRequest) : WorkerMessage :=
  if ¬ KotlinStructuralExtractor.isNotBlank request.workspaceRoot.asStr then
    unsupported "artifact_discovery_request requires workspace_root"
  else if ¬ (1 ≤ request.maxArtifacts ∧ request.maxArtifacts ≤ 64) then unsupported "max_artifacts must be between 1 and 64"
  else
    match session.planned request.executionPlan >>= session.artifactDescriptors request.maxArtifacts request.cursor with
    | .ok response => .artifactDiscoveryResponse response
    | .error message => unsupported (failureMessage message "JVM dependency discovery failed")

/-- The messages of the worker, as far as discovery goes. -/
structure Dispatches (answer : WorkerMessage → WorkerMessage) : Prop where
  discovery : ∀ request, answer (.artifactDiscoveryRequest request) = session.discover request
  handshake : ∃ capabilities, answer (.handshakeRequest Workers.CORE_VERSION) = .handshakeResponse capabilities ∧
    capabilities.protocolVersion = WORKER_PROTOCOL_VERSION

/-- The list that the pages of a plan are cut from. -/
def artifacts (executionPlan : OpaqueExecutionPlan) : Except String (List ResolvedPath) :=
  session.planned executionPlan >>= session.candidates

/-- An artifact in the catalog. -/
def entry (artifact : ResolvedPath) : Option (ArtifactDescriptor × ArtifactLocator) :=
  match session.descriptor artifact with
  | .ok descriptor => some (descriptor, ⟨descriptor.sourceUnit.id, artifact.path⟩)
  | .error _ => none

/-- How both importers end `resolvedArtifacts`. -/
def distinctArtifacts (found : List ResolvedPath) : List ResolvedPath :=
  sortedBy ResolvedPath.path (KotlinStructuralExtractor.distinctBy session.cursor found)

def described (batch : List ResolvedPath) : Option (List ArtifactDescriptor × List ArtifactLocator) :=
  (batch.mapM session.entry).map List.unzip

end Session

end JvmWorker

/-! ## Core -/

/-- `artifactDiscoveryRequest` with pages of another size. -/
def artifactDiscoveryRequestOf (maxArtifacts : Nat) (cursor : Option String) (executionPlan : OpaqueExecutionPlan) : WorkerMessage :=
  .artifactDiscoveryRequest ⟨⟨"."⟩, maxArtifacts, cursor, executionPlan⟩

section
variable (env : WorkerEnvironment) (maxArtifacts : Nat) (supervisor : Handle) (manifest : ProjectManifest)
  (executionPlan : OpaqueExecutionPlan)

/-- `discoverPages` with pages of another size. -/
def discoverPagesOf : Nat → Nat → Option String → List ArtifactDescriptor → List ArtifactLocator →
    Run Workers IndexOrchestratorError DependencyCatalog
  | 0, _, _, _, _ => fail .stillPaging
  | fuel + 1, page, cursor, descriptors, locators => do
    let response ← mapError .worker (Workers.request env supervisor
      (.new ("index-artifact-descriptors-" ++ toString page) (artifactDiscoveryRequestOf maxArtifacts cursor executionPlan)))
    match response.message with
    | .artifactDiscoveryResponse response => do
      lift (response.artifacts.forM (checkDescriptor manifest))
      let descriptors := descriptors ++ response.artifacts
      let locators := locators ++ response.artifactLocators
      match response.nextCursor with
      | some next => discoverPagesOf fuel (page + 1) (some next) descriptors locators
      | none => do
        let workers ← read
        pure {
          descriptors := collect (·.sourceUnit.id) SourceUnitId.le descriptors
          artifactLocators := collect (·.sourceUnit) SourceUnitId.le locators
          workerStarts := (workers.supervisors supervisor).starts }
    | received => fail (.invalidResponse received)

/-- `discoverDependencyCatalog` with pages of another size. -/
def discoverDependencyCatalogOf (pages : Nat) (launch : WorkerLaunch) : Run Workers IndexOrchestratorError DependencyCatalog := do
  let supervisor ← Workers.newSupervisor launch
  let _ ← mapError .worker (Workers.handshake env supervisor "index-dependency-catalog")
  discoverPagesOf env maxArtifacts supervisor manifest executionPlan pages 0 none [] []

theorem discoverPagesOf_64 (fuel page : Nat) (cursor : Option String) (descriptors : List ArtifactDescriptor)
    (locators : List ArtifactLocator) :
    discoverPagesOf env 64 supervisor manifest executionPlan fuel page cursor descriptors locators =
      discoverPages env supervisor manifest executionPlan fuel page cursor descriptors locators := by
  induction fuel generalizing page cursor descriptors locators with
  | zero => rfl
  | succ fuel ih =>
    unfold discoverPagesOf discoverPages
    simp only [ih]
    rfl

theorem discoverDependencyCatalogOf_64 (pages : Nat) (launch : WorkerLaunch) :
    discoverDependencyCatalogOf env 64 manifest executionPlan pages launch =
      discoverDependencyCatalog env pages launch manifest executionPlan := by
  unfold discoverDependencyCatalogOf discoverDependencyCatalog
  simp only [discoverPagesOf_64]

end

namespace JvmWorker.Session

/-- What a request for a page brings, and the cursor of the next page. -/
def ask (session : Session) (maxArtifacts : Nat) (executionPlan : OpaqueExecutionPlan) (cursor : Option String) :
    Option ((List ArtifactDescriptor × List ArtifactLocator) × Option String) :=
  match session.discover ⟨⟨"."⟩, maxArtifacts, cursor, executionPlan⟩ with
  | .artifactDiscoveryResponse response => some ((response.artifacts, response.artifactLocators), response.nextCursor)
  | _ => none

end JvmWorker.Session

/-- The catalog of these artifacts, the last one under an identity. -/
def CatalogOf (entries : List (ArtifactDescriptor × ArtifactLocator)) (catalog : DependencyCatalog) : Prop :=
  catalog.descriptors = collect (·.sourceUnit.id) SourceUnitId.le (entries.map Prod.fst) ∧
    catalog.artifactLocators = collect (·.sourceUnit) SourceUnitId.le (entries.map Prod.snd)

/-! ## The pages of the worker -/

section Worker
open JvmWorker
variable {session : Session} {artifacts batch : List ResolvedPath} {executionPlan : OpaqueExecutionPlan} {maxArtifacts : Nat}

/-- What an importer resolves has distinct cursors. -/
theorem distinctArtifacts_nodup (found : List ResolvedPath) : ((session.distinctArtifacts found).map session.cursor).Nodup := by
  have hkeep : ∀ kept : List ResolvedPath, (kept.map session.cursor).Nodup →
      ((found.foldl (KotlinStructuralExtractor.keepDistinct session.cursor) kept).map session.cursor).Nodup := by
    induction found with
    | nil => exact fun _ hkept => hkept
    | cons artifact found ih =>
      intro kept hkept
      refine ih _ ?_
      unfold KotlinStructuralExtractor.keepDistinct
      split
      · exact hkept
      · next hnew =>
        rw [List.map_append, List.map_singleton, List.nodup_append]
        refine ⟨hkept, List.nodup_singleton _, ?_⟩
        rintro cursor hcursor other hother rfl
        obtain ⟨earlier, hearlier, hsame⟩ := List.mem_map.1 hcursor
        exact hnew (List.any_eq_true.2 ⟨earlier, hearlier, decide_eq_true (hsame.trans (List.mem_singleton.1 hother))⟩)
  exact (((List.perm_insertionSort _ _).map _).nodup_iff).2 (hkeep [] List.nodup_nil)

theorem entry_eq_some_iff {artifact : ResolvedPath} {e : ArtifactDescriptor × ArtifactLocator} :
    session.entry artifact = some e ↔ session.descriptor artifact = .ok e.1 ∧ session.locator artifact = .ok e.2 := by
  rw [Session.entry, Session.locator]
  cases session.descriptor artifact with
  | error message => exact ⟨fun h => (by cases h), fun h => (by cases h.1)⟩
  | ok descriptor =>
    rw [Option.some.injEq, Except.ok.injEq, Prod.ext_iff]
    exact and_congr_right fun _ => (Except.ok.injEq _ _).symm ▸ Iff.rfl

theorem describe_some {nextCursor : Option String} {entries : List (ArtifactDescriptor × ArtifactLocator)}
    (h : batch.mapM session.entry = some entries) :
    session.describe batch nextCursor = .ok ⟨entries.map Prod.fst, nextCursor, entries.map Prod.snd⟩ := by
  have hentries := mapM_eq_some_iff.1 h
  have hdescriptors : batch.mapM session.descriptor = .ok (entries.map Prod.fst) :=
    mapM_eq_ok_iff.2 (List.forall₂_map_right_iff.2 (hentries.imp fun _ _ he => (entry_eq_some_iff.1 he).1))
  have hlocators : batch.mapM session.locator = .ok (entries.map Prod.snd) :=
    mapM_eq_ok_iff.2 (List.forall₂_map_right_iff.2 (hentries.imp fun _ _ he => (entry_eq_some_iff.1 he).2))
  rw [Session.describe, hdescriptors, ok_bind, hlocators]
  rfl

theorem describe_none (nextCursor : Option String) (h : batch.mapM session.entry = none) :
    ∃ message, session.describe batch nextCursor = .error message := by
  cases hdescribe : session.describe batch nextCursor with
  | error message => exact ⟨message, rfl⟩
  | ok response =>
    obtain ⟨descriptors, hdescriptors, -⟩ := bind_eq_ok_iff.1 hdescribe
    have hall : ∀ artifact ∈ batch, ∃ e, session.entry artifact = some e := by
      intro artifact hartifact
      obtain ⟨descriptor, -, hdescriptor⟩ := forall₂_exists_mem (mapM_eq_ok_iff.1 hdescriptors) hartifact
      exact ⟨(descriptor, ⟨descriptor.sourceUnit.id, artifact.path⟩),
        entry_eq_some_iff.2 ⟨hdescriptor, by rw [Session.locator, hdescriptor]; rfl⟩⟩
    rw [mapM_eq_some_filterMap hall] at h
    cases h

/-- The worker describes the artifacts of a page. -/
theorem ask_eq (hlist : session.artifacts executionPlan = .ok artifacts) (hmin : 1 ≤ maxArtifacts) (hmax : maxArtifacts ≤ 64) :
    session.ask maxArtifacts executionPlan = Pages.through (Pages.page session.cursor artifacts maxArtifacts) session.described := by
  funext cursor
  have hblank : KotlinStructuralExtractor.isNotBlank "." = true := by decide
  have hplanned : session.planned executionPlan >>= session.artifactDescriptors maxArtifacts cursor =
      match Pages.page session.cursor artifacts maxArtifacts cursor with
      | none => .error "artifact cursor is not valid for this workspace"
      | some (batch, nextCursor) => session.describe batch nextCursor := by
    obtain ⟨planned, hplan, hcandidates⟩ := bind_eq_ok_iff.1 hlist
    rw [hplan]
    show session.artifactDescriptors maxArtifacts cursor planned = _
    rw [Session.artifactDescriptors, hcandidates]
    rfl
  unfold Session.ask Session.discover
  rw [if_neg (not_not.2 hblank), if_neg (not_not.2 ⟨hmin, hmax⟩), hplanned, Pages.through]
  rcases Pages.page session.cursor artifacts maxArtifacts cursor with _ | ⟨batch, next⟩
  · rfl
  · rw [Option.bind_some, Session.described]
    dsimp only
    cases hentries : batch.mapM session.entry with
    | none =>
      obtain ⟨message, hmessage⟩ := describe_none next hentries
      rw [hmessage]
      rfl
    | some entries =>
      rw [describe_some hentries, Option.map_some, Option.map_some, List.unzip_eq_map]

/-! ### All pages -/

/-- The described pages, taken together. -/
theorem described_pages {pages : List (List ResolvedPath)} {answers : List (List ArtifactDescriptor × List ArtifactLocator)}
    (h : pages.mapM session.described = some answers) : ∃ entries, pages.flatten.mapM session.entry = some entries ∧
      answers.flatMap Prod.fst = entries.map Prod.fst ∧ answers.flatMap Prod.snd = entries.map Prod.snd := by
  induction pages generalizing answers with
  | nil =>
    cases h
    exact ⟨[], rfl, rfl, rfl⟩
  | cons page pages ih =>
    obtain ⟨answer, rest, hanswer, hrest, rfl⟩ := List.forall₂_cons_left_iff.1 (mapM_eq_some_iff.1 h)
    obtain ⟨first, hfirst, rfl⟩ := Option.map_eq_some_iff.1 hanswer
    obtain ⟨entries, hentries, hdescriptors, hlocators⟩ := ih (mapM_eq_some_iff.2 hrest)
    refine ⟨first ++ entries, ?_, ?_, ?_⟩
    · rw [List.flatten_cons, List.mapM_append, hfirst, hentries]
      rfl
    · rw [List.flatMap_cons, hdescriptors, List.map_append, List.unzip_eq_map]
    · rw [List.flatMap_cons, hlocators, List.map_append, List.unzip_eq_map]

theorem pages_described {pages : List (List ResolvedPath)} {entries : List (ArtifactDescriptor × ArtifactLocator)}
    (h : pages.flatten.mapM session.entry = some entries) : ∃ answers, pages.mapM session.described = some answers := by
  refine ⟨_, mapM_eq_some_filterMap fun page hpage => ?_⟩
  have hall : ∀ artifact ∈ page, ∃ e, session.entry artifact = some e := by
    intro artifact hartifact
    obtain ⟨e, -, he⟩ := forall₂_exists_mem (mapM_eq_some_iff.1 h) (List.mem_flatten.2 ⟨page, hpage, hartifact⟩)
    exact ⟨e, he⟩
  exact ⟨_, by rw [Session.described, mapM_eq_some_filterMap hall]; rfl⟩

end Worker

/-! ## The loop of Core -/

section Core
open JvmWorker
variable {env : WorkerEnvironment} {answer : WorkerMessage → WorkerMessage} {session : Session} {executionPlan : OpaqueExecutionPlan}
  {maxArtifacts : Nat} {supervisor : Handle} {manifest : ProjectManifest}

theorem ask_of_response (hdispatch : session.Dispatches answer) {cursor : Option String} {response : ArtifactDiscoveryResponse}
    (h : answer (artifactDiscoveryRequestOf maxArtifacts cursor executionPlan) = .artifactDiscoveryResponse response) :
    session.ask maxArtifacts executionPlan cursor =
      some ((response.artifacts, response.artifactLocators), response.nextCursor) := by
  rw [artifactDiscoveryRequestOf, hdispatch.discovery] at h
  rw [Session.ask, h]

theorem response_of_ask (hdispatch : session.Dispatches answer) {cursor next : Option String}
    {page : List ArtifactDescriptor × List ArtifactLocator} (h : session.ask maxArtifacts executionPlan cursor = some (page, next)) :
    ∃ response, answer (artifactDiscoveryRequestOf maxArtifacts cursor executionPlan) = .artifactDiscoveryResponse response ∧
      page = (response.artifacts, response.artifactLocators) ∧ next = response.nextCursor := by
  rw [artifactDiscoveryRequestOf, hdispatch.discovery]
  rw [Session.ask] at h
  split at h
  · next response hresponse =>
    cases h
    exact ⟨response, hresponse, rfl, rfl⟩
  · cases h

/-- **Step.** A reliable worker answers the request for the next page of a crawl that ends with that page. -/
theorem page_answered (hreliable : Reliable env) (hanswers : AnswersWith env answer) (hdispatch : session.Dispatches answer)
    {fuel : Nat} {cursor : Option String} {found : List (List ArtifactDescriptor × List ArtifactLocator)} {ids : List String}
    {id : String} {workers : Workers} (hcrawl : Pages.crawl (session.ask maxArtifacts executionPlan) (fuel + 1) cursor = .ok found)
    (hused : Workers.Used ids supervisor workers) (hfresh : id ∉ ids) :
    ∃ response rest after,
      Workers.request env supervisor (.new id (artifactDiscoveryRequestOf maxArtifacts cursor executionPlan)) workers =
          (.ok (.new id (.artifactDiscoveryResponse response)), after) ∧
        Workers.Used (id :: ids) supervisor after ∧ found = (response.artifacts, response.artifactLocators) :: rest ∧
        (response.nextCursor = none ∧ rest = [] ∨
          ∃ next, response.nextCursor = some next ∧ Pages.crawl (session.ask maxArtifacts executionPlan) fuel (some next) = .ok rest) := by
  obtain ⟨page, next, rest, hask, rfl, hpages⟩ := Pages.crawl_succ_eq_ok_iff.1 hcrawl
  obtain ⟨response, hresponse, rfl, rfl⟩ := response_of_ask hdispatch hask
  have hregular : (answer (artifactDiscoveryRequestOf maxArtifacts cursor executionPlan)).Regular := by
    rw [hresponse]
    exact fun error h => (by cases h)
  obtain ⟨after, hanswered, hused'⟩ := Workers.request_reliable hreliable hanswers hregular hused hfresh
  rw [hresponse] at hanswered
  exact ⟨response, rest, after, hanswered, hused', rfl, hpages⟩

/-- The ids of the pages from `page` on are fresh behind it. -/
theorem fresh_behind {id : Nat → String} (hid : Function.Injective id) {ids : List String} {page : Nat}
    (hfresh : ∀ n ≥ page, id n ∉ ids) : ∀ n ≥ page + 1, id n ∉ id page :: ids := by
  intro n hn hmem
  rcases List.mem_cons.1 hmem with hsame | hold
  · have := hid hsame
    omega
  · exact hfresh n (by omega) hold

theorem checkDescriptors_paging (descriptors : List ArtifactDescriptor) :
    descriptors.forM (checkDescriptor manifest) ≠ .error .stillPaging := by
  induction descriptors with
  | nil => exact fun h => (by cases h)
  | cons descriptor rest ih =>
    intro h
    rcases bind_eq_error_iff.1 h with hfirst | ⟨_, -, hrest⟩
    · unfold checkDescriptor at hfirst
      split at hfirst
      · cases hfirst
      · split at hfirst <;> cases hfirst
    · exact ih hrest

theorem checkDescriptors_inContext {descriptors : List ArtifactDescriptor}
    (h : ∀ descriptor ∈ descriptors, InContext manifest descriptor) : descriptors.forM (checkDescriptor manifest) = .ok () := by
  induction descriptors with
  | nil => rfl
  | cons descriptor rest ih =>
    obtain ⟨⟨component, hcomponent, hcontext⟩, hrest⟩ := List.forall_mem_cons.1 h
    have hfirst : checkDescriptor manifest descriptor = .ok () := by
      unfold checkDescriptor
      rw [hcomponent]
      exact if_neg (not_not.2 hcontext)
    exact bind_eq_ok_iff.2 ⟨(), hfirst, ih hrest⟩

/-- **Run.** What a loop returns is collected from the pages of a crawl. -/
theorem discoverPagesOf_returns (hanswers : AnswersWith env answer) (hdispatch : session.Dispatches answer) (fuel page : Nat)
    (cursor : Option String) (descriptors : List ArtifactDescriptor) (locators : List ArtifactLocator) :
    Returns (fun catalog => ∃ found, Pages.crawl (session.ask maxArtifacts executionPlan) fuel cursor = .ok found ∧
        catalog.descriptors = collect (·.sourceUnit.id) SourceUnitId.le (descriptors ++ found.flatMap Prod.fst) ∧
        catalog.artifactLocators = collect (·.sourceUnit) SourceUnitId.le (locators ++ found.flatMap Prod.snd))
      (discoverPagesOf env maxArtifacts supervisor manifest executionPlan fuel page cursor descriptors locators) := by
  induction fuel generalizing page cursor descriptors locators with
  | zero => exact Returns.fail
  | succ fuel ih =>
    refine Returns.bind (Returns.mapError (Workers.request_returns hanswers _ _)) ?_
    rintro _ ⟨rfl, -⟩
    split
    · next response hresponse =>
      have hask := ask_of_response hdispatch hresponse
      refine Returns.bind (Returns.trivial _) fun _ _ => ?_
      dsimp only
      rw [Pages.crawl, hask]
      cases response.nextCursor with
      | some next =>
        refine (ih _ _ _ _).mono ?_
        rintro catalog ⟨found, hfound, hdescriptors, hlocators⟩
        dsimp only
        rw [hfound]
        refine ⟨_, rfl, ?_, ?_⟩
        · rw [hdescriptors, List.flatMap_cons, List.append_assoc]
        · rw [hlocators, List.flatMap_cons, List.append_assoc]
      | none =>
        refine Returns.bind (Returns.trivial _) fun workers _ => Returns.pure ⟨_, rfl, ?_, ?_⟩
        · rw [List.flatMap_singleton]
        · rw [List.flatMap_singleton]
    · exact Returns.fail

/-- **Run.** The loop runs out of pages only where a crawl does. -/
theorem discoverPagesOf_raises (hanswers : AnswersWith env answer) (hdispatch : session.Dispatches answer) (fuel page : Nat)
    (cursor : Option String) (descriptors : List ArtifactDescriptor) (locators : List ArtifactLocator) :
    Raises (fun e => e = .stillPaging → Pages.crawl (session.ask maxArtifacts executionPlan) fuel cursor = .error .stillPaging)
      (discoverPagesOf env maxArtifacts supervisor manifest executionPlan fuel page cursor descriptors locators) := by
  induction fuel generalizing page cursor descriptors locators with
  | zero => exact Raises.fail fun _ => rfl
  | succ fuel ih =>
    refine Raises.bind_returns (Raises.mapError (fun _ h => (by cases h)) _)
      (Returns.mapError (Workers.request_returns hanswers _ _)) ?_
    rintro _ ⟨rfl, -⟩
    split
    · next response hresponse =>
      have hask := ask_of_response hdispatch hresponse
      refine Raises.bind (Raises.lift fun e herror hpaging => absurd (hpaging ▸ herror) (checkDescriptors_paging _)) fun _ => ?_
      dsimp only
      rw [Pages.crawl, hask]
      cases response.nextCursor with
      | some next =>
        refine (ih _ _ _ _).mono ?_
        intro e h hpaging
        dsimp only
        rw [h hpaging]
        rfl
      | none => exact Raises.bind Raises.read fun workers => Raises.pure _
    · exact Raises.fail fun h => (by cases h)

/-- The id of a page's request. -/
def pageId (page : Nat) : String := "index-artifact-descriptors-" ++ toString page

theorem pageId_injective : Function.Injective pageId :=
  fun _ _ h => Fields.toString_inj.1 ((String.append_right_inj _).1 h)

theorem pageId_ne (n : Nat) : pageId n ≠ "index-dependency-catalog" := by
  have hlengths : ∀ a b c : String, b.length < a.length → a ++ c ≠ b := by
    intro a b c hlt h
    have hlength := congrArg String.length h
    rw [String.length_append] at hlength
    omega
  exact hlengths _ _ _ (by decide)

/-- **Run.** Over a reliable worker the loop returns, if the crawl ends and finds nothing out of context. -/
theorem discoverPagesOf_runs (hreliable : Reliable env) (hanswers : AnswersWith env answer) (hdispatch : session.Dispatches answer)
    {fuel page : Nat} {cursor : Option String} (descriptors : List ArtifactDescriptor) (locators : List ArtifactLocator)
    {found : List (List ArtifactDescriptor × List ArtifactLocator)} {ids : List String} {workers : Workers}
    (hcrawl : Pages.crawl (session.ask maxArtifacts executionPlan) fuel cursor = .ok found)
    (hcontext : ∀ descriptor ∈ found.flatMap Prod.fst, InContext manifest descriptor)
    (hused : Workers.Used ids supervisor workers) (hfresh : ∀ n ≥ page, pageId n ∉ ids) :
    ∃ catalog after, discoverPagesOf env maxArtifacts supervisor manifest executionPlan fuel page cursor descriptors locators workers =
      (.ok catalog, after) := by
  induction fuel generalizing page cursor descriptors locators found ids workers with
  | zero => cases hcrawl
  | succ fuel ih =>
    obtain ⟨response, rest, after, hanswered, hused', rfl, hpages⟩ :=
      page_answered hreliable hanswers hdispatch hcrawl hused (hfresh page le_rfl)
    have hrequest : (mapError .worker (Workers.request env supervisor (.new ("index-artifact-descriptors-" ++ toString page)
        (artifactDiscoveryRequestOf maxArtifacts cursor executionPlan))) : Run Workers IndexOrchestratorError _) workers =
          (.ok (.new (pageId page) (.artifactDiscoveryResponse response)), after) := run_mapError_ok.2 hanswered
    rw [List.flatMap_cons, List.forall_mem_append] at hcontext
    have hchecked : (lift (response.artifacts.forM (checkDescriptor manifest)) : Run Workers IndexOrchestratorError Unit) after =
        (.ok (), after) := congrArg (·, after) (checkDescriptors_inContext hcontext.1)
    unfold discoverPagesOf
    rw [bind_of_ok hrequest]
    dsimp only [WorkerEnvelope.new]
    rw [bind_of_ok hchecked]
    rcases hpages with ⟨hnext, rfl⟩ | ⟨next, hnext, hrest⟩
    · rw [hnext]
      exact ⟨⟨collect (·.sourceUnit.id) SourceUnitId.le (descriptors ++ response.artifacts),
        collect (·.sourceUnit) SourceUnitId.le (locators ++ response.artifactLocators), (after.supervisors supervisor).starts⟩,
        after, rfl⟩
    · rw [hnext]
      exact ih _ _ hrest hcontext.2 hused' (fresh_behind pageId_injective hfresh)

section Lane
variable {pages : Nat} {launch : WorkerLaunch}

theorem discoverDependencyCatalogOf_returns (hanswers : AnswersWith env answer) (hdispatch : session.Dispatches answer) :
    Returns (fun catalog => ∃ found, Pages.crawl (session.ask maxArtifacts executionPlan) pages none = .ok found ∧
        catalog.descriptors = collect (·.sourceUnit.id) SourceUnitId.le (found.flatMap Prod.fst) ∧
        catalog.artifactLocators = collect (·.sourceUnit) SourceUnitId.le (found.flatMap Prod.snd))
      (discoverDependencyCatalogOf env maxArtifacts manifest executionPlan pages launch) :=
  Returns.bind (Returns.trivial _) fun _ _ => Returns.bind (Returns.trivial _) fun _ _ =>
    discoverPagesOf_returns hanswers hdispatch _ _ _ _ _

theorem discoverDependencyCatalogOf_raises (hanswers : AnswersWith env answer) (hdispatch : session.Dispatches answer) :
    Raises (fun e => e = .stillPaging → Pages.crawl (session.ask maxArtifacts executionPlan) pages none = .error .stillPaging)
      (discoverDependencyCatalogOf env maxArtifacts manifest executionPlan pages launch) := by
  refine Raises.bind (fun s e h => ?_) fun supervisor => ?_
  · cases h
  · exact Raises.bind (Raises.mapError (fun _ h => (by cases h)) _) fun _ => discoverPagesOf_raises hanswers hdispatch _ _ _ _ _

theorem discoverDependencyCatalogOf_runs (hreliable : Reliable env) (hanswers : AnswersWith env answer)
    (hdispatch : session.Dispatches answer) {found : List (List ArtifactDescriptor × List ArtifactLocator)} (workers : Workers)
    (hcrawl : Pages.crawl (session.ask maxArtifacts executionPlan) pages none = .ok found)
    (hcontext : ∀ descriptor ∈ found.flatMap Prod.fst, InContext manifest descriptor) :
    ∃ catalog, (discoverDependencyCatalogOf env maxArtifacts manifest executionPlan pages launch workers).1 = .ok catalog := by
  obtain ⟨capabilities, hcapabilities, hversion⟩ := hdispatch.handshake
  let started : Workers := { workers with
    supervisors := Function.update workers.supervisors workers.created (.new launch)
    created := workers.created + 1 }
  have hnone : Workers.Used [] workers.created started := Workers.used_of_none (by
    show (Function.update workers.supervisors workers.created (WorkerSupervisor.new launch) workers.created).running = none
    rw [Function.update_self]
    rfl)
  obtain ⟨greeted, hhandshake, hused⟩ := Workers.handshake_runs hreliable hanswers hcapabilities hversion hnone
    (List.not_mem_nil (a := "index-dependency-catalog"))
  have hfresh : ∀ n ≥ 0, pageId n ∉ ["index-dependency-catalog"] := fun n _ hmem => pageId_ne n (List.mem_singleton.1 hmem)
  obtain ⟨catalog, after, hrun⟩ := discoverPagesOf_runs hreliable hanswers hdispatch [] [] hcrawl
    hcontext hused hfresh
  refine ⟨catalog, ?_⟩
  unfold discoverDependencyCatalogOf
  rw [bind_of_ok (by rfl : (Workers.newSupervisor launch : Run Workers IndexOrchestratorError Handle) workers =
    (.ok workers.created, started)), bind_of_ok (run_mapError_ok.2 hhandshake), hrun]

/-! ### The lists of a session -/

variable {artifacts : List ResolvedPath} (hlist : session.artifacts executionPlan = .ok artifacts)
  (hdistinct : (artifacts.map session.cursor).Nodup) (hmin : 1 ≤ maxArtifacts) (hmax : maxArtifacts ≤ 64)
include hlist hdistinct hmin hmax

/-- A crawl takes the list in batches and describes one after another. -/
theorem crawl_batches {fuel : Nat} (hfuel : artifacts.length < fuel) :
    ∃ batches : List (List ResolvedPath), batches.flatten = artifacts ∧ (∀ batch ∈ batches, batch.length ≤ maxArtifacts) ∧
      Pages.crawl (session.ask maxArtifacts executionPlan) fuel none = (batches.mapM session.described).elim (.error .refused) .ok := by
  obtain ⟨batches, hbatches, hflatten, hlength⟩ := Pages.crawl_page hdistinct hmin (Nat.zero_le _) (by rwa [Nat.sub_zero])
  refine ⟨batches, hflatten, hlength, ?_⟩
  rw [ask_eq hlist hmin hmax]
  exact Pages.crawl_through hbatches

/-- A crawl that ends has found the entries of the whole list. -/
theorem crawl_entries {fuel : Nat} (hfuel : artifacts.length < fuel)
    {found : List (List ArtifactDescriptor × List ArtifactLocator)}
    (h : Pages.crawl (session.ask maxArtifacts executionPlan) fuel none = .ok found) :
    ∃ entries, artifacts.mapM session.entry = some entries ∧ found.flatMap Prod.fst = entries.map Prod.fst ∧
      found.flatMap Prod.snd = entries.map Prod.snd := by
  obtain ⟨batches, rfl, -, hcrawl⟩ := crawl_batches hlist hdistinct hmin hmax hfuel
  rw [hcrawl] at h
  cases hdescribed : batches.mapM session.described with
  | none =>
    rw [hdescribed] at h
    cases h
  | some answers =>
    rw [hdescribed] at h
    cases h
    exact described_pages hdescribed

/-- It ends where all artifacts exist. -/
theorem crawl_found {fuel : Nat} (hfuel : artifacts.length < fuel) {entries : List (ArtifactDescriptor × ArtifactLocator)}
    (hentries : artifacts.mapM session.entry = some entries) :
    ∃ found, Pages.crawl (session.ask maxArtifacts executionPlan) fuel none = .ok found ∧
      found.flatMap Prod.fst = entries.map Prod.fst ∧ found.flatMap Prod.snd = entries.map Prod.snd := by
  obtain ⟨batches, hflatten, -, hcrawl⟩ := crawl_batches hlist hdistinct hmin hmax hfuel
  obtain ⟨answers, hdescribed⟩ := pages_described (hflatten ▸ hentries)
  obtain ⟨entries', hentries', hfst, hsnd⟩ := described_pages hdescribed
  obtain rfl : entries = entries' := Option.some.inj (hentries.symm.trans (hflatten ▸ hentries'))
  exact ⟨answers, by rw [hcrawl, hdescribed]; rfl, hfst, hsnd⟩

/-- The catalog a lane returns is that of the whole list. -/
theorem catalog_entries (hanswers : AnswersWith env answer) (hdispatch : session.Dispatches answer) (hpages : artifacts.length < pages)
    {workers : Workers} {catalog : DependencyCatalog}
    (hok : (discoverDependencyCatalogOf env maxArtifacts manifest executionPlan pages launch workers).1 = .ok catalog) :
    ∃ entries, artifacts.mapM session.entry = some entries ∧ CatalogOf entries catalog := by
  obtain ⟨found, hcrawled, hdescriptors, hlocators⟩ :=
    discoverDependencyCatalogOf_returns hanswers hdispatch workers catalog _ (Prod.ext hok rfl)
  obtain ⟨entries, hentries, hfst, hsnd⟩ := crawl_entries hlist hdistinct hmin hmax hpages hcrawled
  exact ⟨entries, hentries, hdescriptors.trans (by rw [hfst]), hlocators.trans (by rw [hsnd])⟩

end Lane

end Core

/-- **Discovery.** Whatever the page size, the pages are the list cut into pieces, the loop ends, and the catalog it returns is that
of the whole list. It does return over a reliable worker, if every artifact exists and belongs to a component of the manifest. -/
theorem catalog_of_pages (session : JvmWorker.Session) (executionPlan : OpaqueExecutionPlan) (artifacts : List JvmWorker.ResolvedPath)
    (hlist : session.artifacts executionPlan = .ok artifacts) (hdistinct : (artifacts.map session.cursor).Nodup) (maxArtifacts : Nat)
    (hmin : 1 ≤ maxArtifacts) (hmax : maxArtifacts ≤ 64) :
    (∀ fuel, artifacts.length < fuel → ∃ batches : List (List JvmWorker.ResolvedPath), batches.flatten = artifacts ∧
      (∀ batch ∈ batches, batch.length ≤ maxArtifacts) ∧
      Pages.crawl (session.ask maxArtifacts executionPlan) fuel none =
        (batches.mapM session.described).elim (.error .refused) .ok) ∧
    ∀ (env : WorkerEnvironment) (answer : WorkerMessage → WorkerMessage), AnswersWith env answer → session.Dispatches answer →
      ∀ (manifest : ProjectManifest) (launch : WorkerLaunch) (workers : Workers) (pages : Nat), artifacts.length < pages →
        let outcome := (discoverDependencyCatalogOf env maxArtifacts manifest executionPlan pages launch workers).1
        outcome ≠ .error .stillPaging ∧
        (∀ catalog, outcome = .ok catalog → ∃ entries, artifacts.mapM session.entry = some entries ∧ CatalogOf entries catalog) ∧
        (Reliable env → ∀ entries, artifacts.mapM session.entry = some entries →
          (∀ entry ∈ entries, InContext manifest entry.1) → ∃ catalog, outcome = .ok catalog) := by
  refine ⟨fun fuel hfuel => crawl_batches hlist hdistinct hmin hmax hfuel, ?_⟩
  intro env answer hanswers hdispatch manifest launch workers pages hpages
  dsimp only
  refine ⟨fun hpaging => ?_, fun catalog hok => catalog_entries hlist hdistinct hmin hmax hanswers hdispatch hpages hok,
    fun hreliable entries hentries hcontext => ?_⟩
  · obtain ⟨batches, -, -, hcrawl⟩ := crawl_batches hlist hdistinct hmin hmax hpages
    have hstill := discoverDependencyCatalogOf_raises hanswers hdispatch _ _ hpaging rfl
    rw [hcrawl] at hstill
    cases hdescribed : batches.mapM session.described <;> rw [hdescribed] at hstill <;> cases hstill
  · obtain ⟨found, hfound, hfst, -⟩ := crawl_found hlist hdistinct hmin hmax hpages hentries
    refine discoverDependencyCatalogOf_runs hreliable hanswers hdispatch workers hfound ?_
    rw [hfst]
    exact List.forall_mem_map.2 hcontext

namespace CrossArtifact
open JvmWorker

/-- The client and the library as they are resolved. -/
def classpath : List ResolvedPath :=
  [⟨"/classes/client", "client", "sha256:context", "unknown", none, none⟩,
    ⟨"/classes/library", "library", "sha256:context", "unknown", none, none⟩]

def session : Session where
  files path := if path = "/classes/client" then some client.artifact else if path = "/classes/library" then some library.artifact else none
  normalized := id
  decodeExecutionPlan _ := .ok classpath
  resolvedArtifacts := .ok classpath

/-- Pages of one artifact. -/
theorem classpath_paged : ∃ batches : List (List ResolvedPath), batches.flatten = classpath ∧ (∀ batch ∈ batches, batch.length ≤ 1) ∧
    Pages.crawl (session.ask 1 ⟨"cached", ⟨"sha256:manifest"⟩, []⟩) 3 none = (batches.mapM session.described).elim (.error .refused) .ok :=
  (catalog_of_pages session ⟨"cached", ⟨"sha256:manifest"⟩, []⟩ classpath (by rfl) (by decide) 1 (by decide) (by decide)).1 3 (by decide)

end CrossArtifact

end Kide
