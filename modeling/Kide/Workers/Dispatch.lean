import Kide.Index.ArtifactPages
import Kide.Kotlin.CompilationContexts
import Kide.Proto.Envelope
import Mathlib.Data.Countable.Basic
import Mathlib.Logic.Equiv.List

/-!
# What the Kotlin worker answers

`dispatch` (`Main.kt`) with the execution plans that it keeps below the workspace, so that Core can refer to a plan by its
fingerprint instead of sending it back. The importers, the extractors and the disk are what a `Turn` says for one request.

* `decode_encode`: a plan comes back as it was imported, with the Kotlin contexts in the order of their components;
* `dispatch_answers`: the response to a request, under its id;
* `run_plans`: the files are determined by the requests and responses alone;
* `plan_by_reference`: a reference to a plan is answered like the plan itself.
-/

namespace Kide
open Checks Collects JvmBytecodeExtractor ComponentContextDigest

namespace JvmServer
open JvmWorker (ResolvedPath WORKER_NAME)
open GradleProjectImporter (KotlinCompilationContext)
open WorkerProto (Envelope Message)

def WORKER_VERSION : String := "0.1.0"

/-- An exception: its message and those of its causes, from the outermost. -/
structure Thrown where
  message : Option String
  causes : List (Option String)
  qualifiedName : String
deriving DecidableEq, Repr

def illegalArgument (message : String) : Thrown := ⟨some message, [], "java.lang.IllegalArgumentException"⟩

def failureMessage (error : Thrown) (fallback : String) : String :=
  let text := "; ".intercalate (distinct (((error.message :: error.causes).filterMap id).filter KotlinStructuralExtractor.isNotBlank))
  if KotlinStructuralExtractor.isNotBlank text then text else fallback

/-! ## Execution plans -/

structure ExecutionPlan (Manifest : Type) where
  manifest : Manifest
  artifacts : List ResolvedPath
  javaContexts : List JavaCompilationContext
  /-- The entries of the map by component. -/
  kotlinContexts : List KotlinCompilationContext
deriving DecidableEq

structure ArtifactJson where
  path : String
  component : String
  context : String
  ecosystem : Option String
  coordinate : Option String
  version : Option String
deriving DecidableEq, Repr

structure PlanJson (Manifest : Type) where
  format : Nat
  manifest : Manifest
  artifacts : List ArtifactJson
  javaContexts : List JavaCompilationContext
  kotlinContexts : List KotlinCompilationContext
deriving DecidableEq

/-- The text of a plan, which is an object and so never empty, and the manifest in it. -/
structure PlanText (Manifest : Type) where
  write : PlanJson Manifest → List UInt8
  read : List UInt8 → Except Thrown (PlanJson Manifest)
  fingerprint : Manifest → String
  read_write : ∀ plan, read (write plan) = .ok plan
  write_ne_nil : ∀ plan, write plan ≠ []

def artifactJson (artifact : ResolvedPath) : ArtifactJson :=
  ⟨artifact.path, artifact.component, artifact.context, some artifact.ecosystem, artifact.coordinate, artifact.version⟩

def resolvedArtifact (json : ArtifactJson) : ResolvedPath :=
  ⟨json.path, json.component, json.context, json.ecosystem.getD "unknown", json.coordinate, json.version⟩

/-- The context with its set of dependencies in order. -/
def kotlinContextJson (context : KotlinCompilationContext) : KotlinCompilationContext :=
  { context with projectDependencyModuleNames := sorted context.projectDependencyModuleNames }

def kotlinContext (json : KotlinCompilationContext) : KotlinCompilationContext :=
  { json with projectDependencyModuleNames := distinct json.projectDependencyModuleNames }

section
variable {Manifest : Type} (text : PlanText Manifest)

def encodeExecutionPlan (manifest : Manifest) (artifacts : List ResolvedPath) (javaContexts : List JavaCompilationContext)
    (kotlinContexts : List KotlinCompilationContext) : List UInt8 :=
  text.write {
    format := 1
    manifest
    artifacts := artifacts.map artifactJson
    javaContexts
    kotlinContexts := (sortedBy (·.component) kotlinContexts).map kotlinContextJson }

def planOfJson (resolvedFingerprint : String) (json : PlanJson Manifest) : Except Thrown (ExecutionPlan Manifest) := do
  reject (text.fingerprint json.manifest ≠ resolvedFingerprint)
    (illegalArgument "execution plan cache key does not match its resolved manifest")
  .ok {
    manifest := json.manifest
    artifacts := json.artifacts.map resolvedArtifact
    javaContexts := json.javaContexts
    kotlinContexts := associateBy (·.component) (json.kotlinContexts.map kotlinContext) }

/-! ## The files of plans -/

/-- The files below `.kide/worker-plans` of the workspaces, by their paths. -/
abbrev Plans := String → Option (List UInt8)

def Plans.set (plans : Plans) (path : String) (content : Option (List UInt8)) : Plans := Function.update plans path content

/-- `[0-9a-f]{64}` -/
def isHexKey (hex : List Char) : Bool := hex.length = 64 && hex.all fun c => ('0' ≤ c && c ≤ '9') || ('a' ≤ c && c ≤ 'f')

/-- What the process knows of its host. -/
structure Host where
  workspaceRoot : String
  resolveWorkspacePath : String → Except Thrown String
  /-- `workspace.resolve(".kide/worker-plans")` -/
  plansDirectory : String → String
  /-- The three innermost frames of an exception. -/
  stackTrace : Thrown → String

variable (host : Host)

def executionPlanCachePath (workspace fingerprint : String) : Except Thrown String :=
  match (stripSha256 ⟨fingerprint⟩).filter isHexKey with
  | none => .error (illegalArgument "resolved fingerprint is not a SHA-256 cache key")
  | some hex => .ok (host.plansDirectory workspace ++ "/" ++ String.ofList hex ++ ".json")

def loadExecutionPlan (plans : Plans) (workspace fingerprint : String) : Except Thrown (List UInt8) := do
  let cache ← executionPlanCachePath host workspace fingerprint
  match plans cache with
  | none => .error (illegalArgument ("no cached execution plan is available for resolved fingerprint " ++ fingerprint))
  | some payload => .ok payload

def decodeExecutionPlan (plans : Plans) (workspace resolvedFingerprint : String) (payload : List UInt8) :
    Except Thrown (ExecutionPlan Manifest) := do
  let effectivePayload ← if payload = [] then loadExecutionPlan host plans workspace resolvedFingerprint else .ok payload
  let json ← text.read effectivePayload
  planOfJson text resolvedFingerprint json

/-! ## Requests -/

/-- What the importers, the extractors and the disk do for one request. -/
structure Turn (Manifest : Type) where
  projectManifest : String → Except Thrown Manifest
  manifestMessage : Manifest → Except Thrown WorkerProto.ProjectManifest
  resolvedArtifacts : String → Except Thrown (List ResolvedPath)
  sourceExecutionContexts : String → Except Thrown (List JavaCompilationContext × List KotlinCompilationContext)
  /-- The batch without the reference to its plan. -/
  structuralBatch : WorkerProto.AnalyzeBatchRequest → ExecutionPlan Manifest → Except Thrown WorkerProto.AnalysisBatchResponse
  artifactBatch : String → Nat → Option String → Except Thrown WorkerProto.ArtifactAnalysisResponse
  artifactDescriptors : String → Nat → Option String → List ResolvedPath → Except Thrown WorkerProto.ArtifactDiscoveryResponse
  materialize : WorkerProto.ArtifactMaterializationRequest → Except Thrown WorkerProto.ArtifactMaterializationResponse
  /-- A write that fails can leave anything in the file. -/
  writeFailure : String → List UInt8 → Option (Thrown × Option (List UInt8))

def respond (requestId : String) (message : Message) : Envelope := ⟨WORKER_PROTOCOL_VERSION, requestId, some message⟩

def protocolError (requestId code message : String) (receivedVersion : Option Nat) : Envelope :=
  respond requestId (.error ⟨code, message, false, WORKER_PROTOCOL_VERSION, receivedVersion⟩)

def unsupported (requestId message : String) : Envelope := protocolError requestId "unsupported_capability" message none

def answer {α : Type} (requestId fallback : String) (message : α → Message) : Except Thrown α → Envelope
  | .ok response => respond requestId (message response)
  | .error error => unsupported requestId (failureMessage error fallback)

def handshakeEnvelope (requestId : String) : Envelope :=
  respond requestId (.handshakeResponse {
    backend := WORKER_NAME
    backendVersion := WORKER_VERSION
    protocolVersion := WORKER_PROTOCOL_VERSION
    capabilities := ["handshake", "project_manifest", "file_analysis_snapshot", "dependency_analysis"]
    languages := ["kotlin", "java"]
    semanticQueryCapabilities := [
      ⟨"applications.resolved_target", 1, [⟨"target", "symbol_id", true⟩], "normalized_facts"⟩,
      ⟨"hierarchy.direct", 1, [⟨"supertype", "symbol_id", true⟩], "candidate_symbols"⟩] })

variable (turn : Turn Manifest)

/-- What an import finds, and the file of its plan. -/
structure Imported (Manifest : Type) where
  manifest : Manifest
  payload : List UInt8
  cache : String

def importProject (workspaceRoot : String) : Except Thrown (Imported Manifest) := do
  let workspace ← host.resolveWorkspacePath workspaceRoot
  let manifest ← turn.projectManifest workspace
  let candidates ← turn.resolvedArtifacts workspace
  let (javaContexts, kotlinContexts) ← turn.sourceExecutionContexts workspace
  let cache ← executionPlanCachePath host workspace (text.fingerprint manifest)
  .ok ⟨manifest, encodeExecutionPlan text manifest candidates javaContexts kotlinContexts, cache⟩

def manifestResponse (imported : Imported Manifest) : Except Thrown WorkerProto.ProjectManifestResponse := do
  let message ← turn.manifestMessage imported.manifest
  .ok ⟨some message, some ⟨WORKER_NAME, text.fingerprint imported.manifest, imported.payload⟩⟩

def importFailure (requestId : String) (error : Thrown) : Envelope :=
  unsupported requestId
    (failureMessage error ("build project import failed (" ++ error.qualifiedName ++ ")") ++ " at " ++ host.stackTrace error)

/-- The plan is on the disk before the response is built. -/
def projectManifestRequest (plans : Plans) (requestId workspaceRoot : String) : Plans × Envelope :=
  if ¬ KotlinStructuralExtractor.isNotBlank workspaceRoot then
    (plans, unsupported requestId "project_manifest_request requires workspace_root")
  else
    match importProject text host turn workspaceRoot with
    | .error error => (plans, importFailure host requestId error)
    | .ok imported =>
      match turn.writeFailure imported.cache imported.payload with
      | some (error, left) => (plans.set imported.cache left, importFailure host requestId error)
      | none => (plans.set imported.cache (some imported.payload),
          match manifestResponse text turn imported with
          | .ok response => respond requestId (.projectManifestResponse response)
          | .error error => importFailure host requestId error)

/-- The backends whose plans this worker takes. -/
def checkBackend (executionPlan : WorkerProto.OpaqueExecutionPlan) : Except Thrown Unit :=
  reject (executionPlan.backend ∉ [WORKER_NAME, "cached"])
    (illegalArgument ("execution plan belongs to " ++ executionPlan.backend ++ ", not " ++ WORKER_NAME))

def analyzeBatch (plans : Plans) (request : WorkerProto.AnalyzeBatchRequest) : Except Thrown WorkerProto.AnalysisBatchResponse := do
  match request.executionPlan with
  | none => .error (illegalArgument "analyze_batch_request requires an execution plan")
  | some executionPlan => do
    checkBackend executionPlan
    let plan ← decodeExecutionPlan text host plans host.workspaceRoot executionPlan.resolvedFingerprint executionPlan.payload
    reject (executionPlan.resolvedFingerprint ≠ text.fingerprint plan.manifest)
      (illegalArgument "execution plan fingerprint does not match its resolved manifest")
    turn.structuralBatch { request with executionPlan := none } plan

/-- A plan that is left out is one with default fields. -/
def discoverArtifacts (plans : Plans) (request : WorkerProto.ArtifactDiscoveryRequest) :
    Except Thrown WorkerProto.ArtifactDiscoveryResponse := do
  let executionPlan := request.executionPlan.getD ⟨"", "", []⟩
  checkBackend executionPlan
  let workspace ← host.resolveWorkspacePath request.workspaceRoot
  let plan ← decodeExecutionPlan text host plans workspace executionPlan.resolvedFingerprint executionPlan.payload
  turn.artifactDescriptors workspace request.maxArtifacts request.cursor plan.artifacts

def artifactAnalysisRequest (requestId : String) (request : WorkerProto.ArtifactAnalysisRequest) : Envelope :=
  if ¬ KotlinStructuralExtractor.isNotBlank request.workspaceRoot then
    unsupported requestId "artifact_analysis_request requires workspace_root"
  else if ¬ (1 ≤ request.maxArtifacts ∧ request.maxArtifacts ≤ 64) then
    unsupported requestId "max_artifacts must be between 1 and 64"
  else answer requestId "JVM dependency analysis failed" .artifactAnalysisResponse do
    let workspace ← host.resolveWorkspacePath request.workspaceRoot
    turn.artifactBatch workspace request.maxArtifacts request.cursor

def artifactDiscoveryRequest (plans : Plans) (requestId : String) (request : WorkerProto.ArtifactDiscoveryRequest) : Envelope :=
  if ¬ KotlinStructuralExtractor.isNotBlank request.workspaceRoot then
    unsupported requestId "artifact_discovery_request requires workspace_root"
  else if ¬ (1 ≤ request.maxArtifacts ∧ request.maxArtifacts ≤ 64) then
    unsupported requestId "max_artifacts must be between 1 and 64"
  else answer requestId "JVM dependency discovery failed" .artifactDiscoveryResponse (discoverArtifacts text host turn plans request)

def semanticQueryRequest (requestId : String) (query : WorkerProto.SemanticQueryRequest) : Envelope :=
  respond requestId (.semanticQueryResponse {
    capabilityName := query.capabilityName
    capabilityVersion := query.capabilityVersion
    state := "unsupported"
    candidateSymbolIds := []
    snapshots := []
    provenance := some ⟨WORKER_NAME, WORKER_VERSION, WORKER_PROTOCOL_VERSION, "sha256:semantic-query-unavailable"⟩
    visitedNodes := 0
    producedBytes := 0 })

/-- The name of the kind in lower case. -/
def messageCase : Option Message → String
  | none => "message_not_set"
  | some (.handshakeRequest _) => "handshake_request"
  | some (.handshakeResponse _) => "handshake_response"
  | some (.artifactDiscoveryRequest _) => "artifact_discovery_request"
  | some (.artifactDiscoveryResponse _) => "artifact_discovery_response"
  | some (.error _) => "error"
  | some (.projectManifestRequest _) => "project_manifest_request"
  | some (.projectManifestResponse _) => "project_manifest_response"
  | some (.analyzeBatchRequest _) => "analyze_batch_request"
  | some (.analysisBatchResponse _) => "analysis_batch_response"
  | some (.artifactMaterializationRequest _) => "artifact_materialization_request"
  | some (.artifactMaterializationResponse _) => "artifact_materialization_response"
  | some (.analysisDelta _) => "analysis_delta"
  | some (.artifactAnalysisRequest _) => "artifact_analysis_request"
  | some (.artifactAnalysisResponse _) => "artifact_analysis_response"
  | some (.semanticQueryRequest _) => "semantic_query_request"
  | some (.semanticQueryResponse _) => "semantic_query_response"

/-- A `uint32` as the worker prints it. -/
def signed (value : Nat) : Int := if value < 2 ^ 31 then value else value - 2 ^ 32

def dispatch (plans : Plans) (request : Envelope) : Plans × Envelope :=
  if request.protocolVersion ≠ WORKER_PROTOCOL_VERSION then
    (plans, protocolError request.requestId "incompatible_protocol_version"
      ("worker protocol version " ++ toString (signed request.protocolVersion) ++ " is incompatible; supported version is "
        ++ toString WORKER_PROTOCOL_VERSION) (some request.protocolVersion))
  else
    match request.message with
    | some (.handshakeRequest _) => (plans, handshakeEnvelope request.requestId)
    | some (.projectManifestRequest workspaceRoot) => projectManifestRequest text host turn plans request.requestId workspaceRoot
    | some (.analyzeBatchRequest batch) =>
      (plans, answer request.requestId "Kotlin structural analysis failed" .analysisBatchResponse (analyzeBatch text host turn plans batch))
    | some (.artifactAnalysisRequest analysis) => (plans, artifactAnalysisRequest host turn request.requestId analysis)
    | some (.artifactDiscoveryRequest discovery) => (plans, artifactDiscoveryRequest text host turn plans request.requestId discovery)
    | some (.artifactMaterializationRequest materialization) =>
      (plans, answer request.requestId "JVM artifact materialization failed" .artifactMaterializationResponse
        (turn.materialize materialization))
    | some (.semanticQueryRequest query) => (plans, semanticQueryRequest request.requestId query)
    | message => (plans, unsupported request.requestId ("worker does not implement " ++ messageCase message))

/-- The requests one after the other, each with its turn. -/
def run (turns : Nat → Turn Manifest) : Nat → Plans → List Envelope → List (Envelope × Envelope) × Plans
  | _, plans, [] => ([], plans)
  | index, plans, request :: requests =>
    let answered := dispatch text host (turns index) plans request
    let rest := run turns (index + 1) answered.1 requests
    ((request, answered.2) :: rest.1, rest.2)

end

/-! ## Plans come back -/

section
variable {Manifest : Type} {text : PlanText Manifest} {host : Host} {manifest : Manifest} {artifacts : List ResolvedPath}
  {javaContexts : List JavaCompilationContext} {kotlinContexts : List KotlinCompilationContext}

/-- The entries of a map by component, with sets of dependencies. -/
structure ContextMap (contexts : List KotlinCompilationContext) : Prop where
  components : (contexts.map (·.component)).Nodup
  dependencies : ∀ context ∈ contexts, context.projectDependencyModuleNames.Nodup

/-- What is decoded of an import. -/
def importedPlan (manifest : Manifest) (artifacts : List ResolvedPath) (javaContexts : List JavaCompilationContext)
    (kotlinContexts : List KotlinCompilationContext) : ExecutionPlan Manifest :=
  ⟨manifest, artifacts, javaContexts, (sortedBy (·.component) kotlinContexts).map kotlinContextJson⟩

theorem distinct_eq_self {l : List String} (h : l.Nodup) : distinct l = l :=
  retainNew_eq_self (fun a => a) [] l (by rwa [List.map_id']) fun _ _ hmem => absurd hmem List.not_mem_nil

theorem kotlinContext_json {context : KotlinCompilationContext} (h : context.projectDependencyModuleNames.Nodup) :
    kotlinContext (kotlinContextJson context) = kotlinContextJson context := by
  have hsorted : (sorted context.projectDependencyModuleNames).Nodup := (sortedBy_perm _ _).nodup_iff.2 h
  unfold kotlinContext kotlinContextJson
  dsimp only
  rw [distinct_eq_self hsorted]

/-- What is written of an import is read as the import. -/
theorem decode_encode (h : ContextMap kotlinContexts) (plans : Plans) (workspace : String) :
    decodeExecutionPlan text host plans workspace (text.fingerprint manifest)
        (encodeExecutionPlan text manifest artifacts javaContexts kotlinContexts) =
      .ok (importedPlan manifest artifacts javaContexts kotlinContexts) := by
  have hartifacts : (artifacts.map artifactJson).map resolvedArtifact = artifacts :=
    WorkerAdapter.list_map_round_trip (fun _ => rfl) _
  have hperm := sortedBy_perm (·.component) kotlinContexts
  have hcontexts : ((sortedBy (·.component) kotlinContexts).map kotlinContextJson).map kotlinContext =
      (sortedBy (·.component) kotlinContexts).map kotlinContextJson := by
    rw [List.map_map]
    exact List.map_congr_left fun context hcontext => kotlinContext_json (h.dependencies context (hperm.mem_iff.1 hcontext))
  have hkeys : (((sortedBy (·.component) kotlinContexts).map kotlinContextJson).map (·.component)).Nodup := by
    rw [List.map_map]
    exact (hperm.map _).nodup_iff.2 h.components
  have hsame : reject (text.fingerprint manifest ≠ text.fingerprint manifest)
      (illegalArgument "execution plan cache key does not match its resolved manifest") = .ok () := reject_eq_ok_iff.2 (not_not_intro rfl)
  unfold decodeExecutionPlan encodeExecutionPlan
  rw [if_neg (text.write_ne_nil _), ok_bind]
  dsimp only
  rw [text.read_write, ok_bind, planOfJson, hsame, ok_bind]
  dsimp only
  rw [hartifacts, hcontexts, associateBy_eq_self hkeys]
  rfl

end

/-! ## Responses -/

section
variable {Manifest : Type} {text : PlanText Manifest} {host : Host} {turn : Turn Manifest}

/-- The response that a kind of request can have besides an error. -/
def Message.Answers : Message → Message → Prop
  | .handshakeRequest _, .handshakeResponse _ => True
  | .projectManifestRequest _, .projectManifestResponse response =>
    ∃ manifest plan, response = ⟨some manifest, some plan⟩ ∧ plan.backend = WORKER_NAME ∧ plan.payload ≠ []
  | .analyzeBatchRequest _, .analysisBatchResponse _ => True
  | .artifactAnalysisRequest _, .artifactAnalysisResponse _ => True
  | .artifactDiscoveryRequest _, .artifactDiscoveryResponse _ => True
  | .artifactMaterializationRequest _, .artifactMaterializationResponse _ => True
  | .semanticQueryRequest query, .semanticQueryResponse response => response.capabilityName = query.capabilityName ∧
      response.capabilityVersion = query.capabilityVersion ∧ response.state = "unsupported"
  | _, _ => False

/-- The response to a request: its id, the version of the worker, and a message of the kind that was asked for or an error. Another
version is refused, whatever the message. -/
structure Answered (request response : Envelope) : Prop where
  requestId : response.requestId = request.requestId
  protocolVersion : response.protocolVersion = WORKER_PROTOCOL_VERSION
  message : ∃ message, response.message = some message ∧ ((∃ error, message = .error error) ∨
    request.protocolVersion = WORKER_PROTOCOL_VERSION ∧ ∃ asked, request.message = some asked ∧ Message.Answers asked message)

theorem answered_error {request : Envelope} (code text : String) (received : Option Nat) :
    Answered request (protocolError request.requestId code text received) := ⟨rfl, rfl, _, rfl, .inl ⟨_, rfl⟩⟩

theorem answered {request : Envelope} {asked message : Message} (hversion : request.protocolVersion = WORKER_PROTOCOL_VERSION)
    (hasked : request.message = some asked) (h : Message.Answers asked message) : Answered request (respond request.requestId message) :=
  ⟨rfl, rfl, message, rfl, .inr ⟨hversion, asked, hasked, h⟩⟩

theorem answered_result {α : Type} {request : Envelope} {asked : Message} {fallback : String} (message : α → Message)
    (hversion : request.protocolVersion = WORKER_PROTOCOL_VERSION) (hasked : request.message = some asked)
    (h : ∀ response, Message.Answers asked (message response)) (result : Except Thrown α) :
    Answered request (answer request.requestId fallback message result) := by
  cases result with
  | error error => exact answered_error _ _ _
  | ok response => exact answered hversion hasked (h response)

variable (text host turn) in
/-- What a manifest request does: it leaves the files alone, or it writes the file of the plan. -/
theorem projectManifestRequest_cases (plans : Plans) (requestId workspaceRoot : String) :
    (∃ message, projectManifestRequest text host turn plans requestId workspaceRoot = (plans, unsupported requestId message)) ∨
      ∃ imported, importProject text host turn workspaceRoot = .ok imported ∧
        ((∃ error left, turn.writeFailure imported.cache imported.payload = some (error, left) ∧
            projectManifestRequest text host turn plans requestId workspaceRoot =
              (plans.set imported.cache left, importFailure host requestId error)) ∨
          turn.writeFailure imported.cache imported.payload = none ∧
            ((∃ error, turn.manifestMessage imported.manifest = .error error ∧
                projectManifestRequest text host turn plans requestId workspaceRoot =
                  (plans.set imported.cache (some imported.payload), importFailure host requestId error)) ∨
              ∃ message, turn.manifestMessage imported.manifest = .ok message ∧
                projectManifestRequest text host turn plans requestId workspaceRoot = (plans.set imported.cache (some imported.payload),
                  respond requestId (.projectManifestResponse ⟨some message,
                    some ⟨WORKER_NAME, text.fingerprint imported.manifest, imported.payload⟩⟩)))) := by
  unfold projectManifestRequest
  split
  · exact .inl ⟨_, rfl⟩
  · cases himport : importProject text host turn workspaceRoot with
    | error error => exact .inl ⟨_, rfl⟩
    | ok imported =>
      refine .inr ⟨imported, rfl, ?_⟩
      dsimp only
      cases hwrite : turn.writeFailure imported.cache imported.payload with
      | some failure => exact .inl ⟨failure.1, failure.2, rfl, rfl⟩
      | none =>
        refine .inr ⟨rfl, ?_⟩
        dsimp only
        unfold manifestResponse
        cases hmessage : turn.manifestMessage imported.manifest with
        | error error => exact .inl ⟨error, rfl, rfl⟩
        | ok message => exact .inr ⟨message, rfl, rfl⟩

theorem projectManifestRequest_ok {plans : Plans} {requestId workspaceRoot : String} {imported : Imported Manifest}
    {message : WorkerProto.ProjectManifest} (hroot : KotlinStructuralExtractor.isNotBlank workspaceRoot = true)
    (himport : importProject text host turn workspaceRoot = .ok imported) (hwrite : turn.writeFailure imported.cache imported.payload = none)
    (hmessage : turn.manifestMessage imported.manifest = .ok message) :
    projectManifestRequest text host turn plans requestId workspaceRoot = (plans.set imported.cache (some imported.payload),
      respond requestId (.projectManifestResponse ⟨some message,
        some ⟨WORKER_NAME, text.fingerprint imported.manifest, imported.payload⟩⟩)) := by
  have hresponse : manifestResponse text turn imported =
      .ok ⟨some message, some ⟨WORKER_NAME, text.fingerprint imported.manifest, imported.payload⟩⟩ := by
    unfold manifestResponse
    rw [hmessage, ok_bind]
  unfold projectManifestRequest
  rw [if_neg (not_not_intro hroot), himport]
  dsimp only
  rw [hwrite, hresponse]

theorem dispatch_import_ok {plans : Plans} {requestId workspaceRoot : String} {imported : Imported Manifest}
    {message : WorkerProto.ProjectManifest} (hroot : KotlinStructuralExtractor.isNotBlank workspaceRoot = true)
    (himport : importProject text host turn workspaceRoot = .ok imported) (hwrite : turn.writeFailure imported.cache imported.payload = none)
    (hmessage : turn.manifestMessage imported.manifest = .ok message) :
    dispatch text host turn plans ⟨WORKER_PROTOCOL_VERSION, requestId, some (.projectManifestRequest workspaceRoot)⟩ =
      (plans.set imported.cache (some imported.payload), respond requestId (.projectManifestResponse ⟨some message,
        some ⟨WORKER_NAME, text.fingerprint imported.manifest, imported.payload⟩⟩)) := by
  unfold dispatch
  rw [if_neg (not_not_intro rfl)]
  exact projectManifestRequest_ok hroot himport hwrite hmessage

theorem importProject_payload {workspaceRoot : String} {imported : Imported Manifest}
    (h : importProject text host turn workspaceRoot = .ok imported) : imported.payload ≠ [] := by
  obtain ⟨workspace, -, h⟩ := bind_eq_ok_iff.1 h
  obtain ⟨manifest, -, h⟩ := bind_eq_ok_iff.1 h
  obtain ⟨candidates, -, h⟩ := bind_eq_ok_iff.1 h
  obtain ⟨contexts, -, h⟩ := bind_eq_ok_iff.1 h
  obtain ⟨cache, -, h⟩ := bind_eq_ok_iff.1 h
  obtain rfl := Except.ok.inj h
  exact text.write_ne_nil _

theorem dispatch_answers (plans : Plans) (request : Envelope) : Answered request (dispatch text host turn plans request).2 := by
  unfold dispatch
  split
  · exact answered_error _ _ _
  · next hsame =>
    have hversion : request.protocolVersion = WORKER_PROTOCOL_VERSION := not_not.1 hsame
    split
    · next hasked => exact answered hversion hasked trivial
    · next workspaceRoot hasked =>
      obtain ⟨message, h⟩ | ⟨imported, himport, ⟨error, left, -, h⟩ | ⟨-, ⟨error, -, h⟩ | ⟨message, -, h⟩⟩⟩ :=
        projectManifestRequest_cases text host turn plans request.requestId workspaceRoot
      · rw [h]
        exact answered_error _ _ _
      · rw [h]
        exact answered_error _ _ _
      · rw [h]
        exact answered_error _ _ _
      · rw [h]
        exact answered hversion hasked ⟨message, _, rfl, rfl, importProject_payload himport⟩
    · next hasked => exact answered_result Message.analysisBatchResponse hversion hasked (fun _ => trivial) _
    · next hasked =>
      unfold artifactAnalysisRequest
      split
      · exact answered_error _ _ _
      · split
        · exact answered_error _ _ _
        · exact answered_result Message.artifactAnalysisResponse hversion hasked (fun _ => trivial) _
    · next hasked =>
      unfold artifactDiscoveryRequest
      split
      · exact answered_error _ _ _
      · split
        · exact answered_error _ _ _
        · exact answered_result Message.artifactDiscoveryResponse hversion hasked (fun _ => trivial) _
    · next hasked => exact answered_result Message.artifactMaterializationResponse hversion hasked (fun _ => trivial) _
    · next hasked => exact answered hversion hasked ⟨rfl, rfl, rfl⟩
    · exact answered_error _ _ _

end

/-! ## What is left on the disk -/

section
variable {Manifest : Type} {text : PlanText Manifest} {host : Host} {turn : Turn Manifest}

/-- The disk takes what it is given, a manifest can be sent, and the contexts of a project are a map. -/
structure Turn.Regular (turn : Turn Manifest) : Prop where
  writes : ∀ path payload, turn.writeFailure path payload = none
  messages : ∀ manifest, ∃ message, turn.manifestMessage manifest = .ok message
  contexts : ∀ workspace javaContexts kotlinContexts,
    turn.sourceExecutionContexts workspace = .ok (javaContexts, kotlinContexts) → ContextMap kotlinContexts

/-- The plan that a response brings. -/
def planOf (response : Envelope) : Option WorkerProto.OpaqueExecutionPlan :=
  match response.message with
  | some (.projectManifestResponse response) => response.executionPlan
  | _ => none

/-- The file that an import leaves, as far as it can be told from the outside. -/
def fileOf (host : Host) (exchange : Envelope × Envelope) : Option (String × List UInt8) :=
  match exchange.1.message, planOf exchange.2 with
  | some (.projectManifestRequest workspaceRoot), some plan =>
    match host.resolveWorkspacePath workspaceRoot >>= fun workspace => executionPlanCachePath host workspace plan.resolvedFingerprint with
    | .ok cache => some (cache, plan.payload)
    | .error _ => none
  | _, _ => none

def remember (host : Host) (plans : Plans) (exchange : Envelope × Envelope) : Plans :=
  match fileOf host exchange with
  | some (cache, payload) => plans.set cache (some payload)
  | none => plans

theorem remember_error {plans : Plans} {exchange : Envelope × Envelope} (h : planOf exchange.2 = none) :
    remember host plans exchange = plans := by
  unfold remember fileOf
  rw [h]
  cases exchange.1.message with
  | none => rfl
  | some message => cases message <;> rfl

theorem planOf_answer {α : Type} {requestId fallback : String} {message : α → Message}
    (h : ∀ response, planOf (respond requestId (message response)) = none) (result : Except Thrown α) :
    planOf (answer requestId fallback message result) = none := by
  cases result with
  | error error => rfl
  | ok response => exact h response

/-- An import that got as far as the disk. -/
structure ImportOf (text : PlanText Manifest) (host : Host) (turn : Turn Manifest) (workspace : String) (manifest : Manifest)
    (artifacts : List ResolvedPath) (javaContexts : List JavaCompilationContext) (kotlinContexts : List KotlinCompilationContext)
    (cache : String) : Prop where
  imports : turn.projectManifest workspace = .ok manifest
  resolves : turn.resolvedArtifacts workspace = .ok artifacts
  plans : turn.sourceExecutionContexts workspace = .ok (javaContexts, kotlinContexts)
  keeps : executionPlanCachePath host workspace (text.fingerprint manifest) = .ok cache

theorem importProject_eq_ok {workspaceRoot : String} {imported : Imported Manifest}
    (h : importProject text host turn workspaceRoot = .ok imported) :
    ∃ workspace artifacts javaContexts kotlinContexts, host.resolveWorkspacePath workspaceRoot = .ok workspace ∧
      ImportOf text host turn workspace imported.manifest artifacts javaContexts kotlinContexts imported.cache ∧
        imported.payload = encodeExecutionPlan text imported.manifest artifacts javaContexts kotlinContexts := by
  obtain ⟨workspace, hworkspace, h⟩ := bind_eq_ok_iff.1 h
  obtain ⟨manifest, hmanifest, h⟩ := bind_eq_ok_iff.1 h
  obtain ⟨artifacts, hartifacts, h⟩ := bind_eq_ok_iff.1 h
  obtain ⟨⟨javaContexts, kotlinContexts⟩, hcontexts, h⟩ := bind_eq_ok_iff.1 h
  obtain ⟨cache, hcache, h⟩ := bind_eq_ok_iff.1 h
  obtain rfl := Except.ok.inj h
  exact ⟨workspace, artifacts, javaContexts, kotlinContexts, hworkspace, ⟨hmanifest, hartifacts, hcontexts, hcache⟩, rfl⟩

variable (text host turn) in
/-- Only an import touches the files or answers with a plan. -/
theorem dispatch_cases (plans : Plans) (request : Envelope) :
    (∃ response, dispatch text host turn plans request = (plans, response) ∧ planOf response = none) ∨
      ∃ workspaceRoot, request.message = some (.projectManifestRequest workspaceRoot) ∧
        dispatch text host turn plans request = projectManifestRequest text host turn plans request.requestId workspaceRoot := by
  unfold dispatch
  split
  · exact .inl ⟨_, rfl, rfl⟩
  · split
    · exact .inl ⟨_, rfl, rfl⟩
    · next workspaceRoot hasked => exact .inr ⟨workspaceRoot, hasked, rfl⟩
    · exact .inl ⟨_, rfl, planOf_answer (fun _ => rfl) _⟩
    · refine .inl ⟨_, rfl, ?_⟩
      unfold artifactAnalysisRequest
      split
      · rfl
      · split
        · rfl
        · exact planOf_answer (fun _ => rfl) _
    · refine .inl ⟨_, rfl, ?_⟩
      unfold artifactDiscoveryRequest
      split
      · rfl
      · split
        · rfl
        · exact planOf_answer (fun _ => rfl) _
    · exact .inl ⟨_, rfl, planOf_answer (fun _ => rfl) _⟩
    · exact .inl ⟨_, rfl, rfl⟩
    · exact .inl ⟨_, rfl, rfl⟩

/-- A plan that is answered is that of an import. -/
theorem dispatch_imported {plans : Plans} {request : Envelope} {plan : WorkerProto.OpaqueExecutionPlan}
    (h : planOf (dispatch text host turn plans request).2 = some plan) : ∃ workspaceRoot imported,
      request.message = some (.projectManifestRequest workspaceRoot) ∧ importProject text host turn workspaceRoot = .ok imported ∧
        plan = ⟨WORKER_NAME, text.fingerprint imported.manifest, imported.payload⟩ := by
  obtain ⟨response, hresponse, hnone⟩ | ⟨workspaceRoot, hasked, hdispatch⟩ := dispatch_cases text host turn plans request
  · rw [hresponse, hnone] at h
    cases h
  · rw [hdispatch] at h
    obtain ⟨message, hcase⟩ | ⟨imported, himport, ⟨error, left, -, hcase⟩ | ⟨-, ⟨error, -, hcase⟩ | ⟨message, -, hcase⟩⟩⟩ :=
      projectManifestRequest_cases text host turn plans request.requestId workspaceRoot
    · rw [hcase] at h
      cases h
    · rw [hcase] at h
      cases h
    · rw [hcase] at h
      cases h
    · rw [hcase] at h
      exact ⟨workspaceRoot, imported, hasked, himport, (Option.some.inj h).symm⟩

/-- **One request.** The files change as the exchange tells. -/
theorem dispatch_plans (hregular : turn.Regular) (plans : Plans) (request : Envelope) :
    (dispatch text host turn plans request).1 = remember host plans (request, (dispatch text host turn plans request).2) := by
  obtain ⟨response, hresponse, hnone⟩ | ⟨workspaceRoot, hasked, hdispatch⟩ := dispatch_cases text host turn plans request
  · rw [hresponse]
    exact (remember_error hnone).symm
  · rw [hdispatch]
    obtain ⟨message, hcase⟩ | ⟨imported, himport, ⟨error, left, hwrite, -⟩ | ⟨-, ⟨error, hmessage, -⟩ | ⟨message, -, hcase⟩⟩⟩ :=
      projectManifestRequest_cases text host turn plans request.requestId workspaceRoot
    · rw [hcase]
      exact (remember_error rfl).symm
    · rw [hregular.writes] at hwrite
      cases hwrite
    · obtain ⟨message, hok⟩ := hregular.messages imported.manifest
      rw [hok] at hmessage
      cases hmessage
    · obtain ⟨workspace, _, _, _, hworkspace, himports, -⟩ := importProject_eq_ok himport
      have hfile : fileOf host (request, respond request.requestId (.projectManifestResponse ⟨some message,
          some ⟨WORKER_NAME, text.fingerprint imported.manifest, imported.payload⟩⟩)) = some (imported.cache, imported.payload) := by
        have hcache : (host.resolveWorkspacePath workspaceRoot >>= fun workspace =>
            executionPlanCachePath host workspace (text.fingerprint imported.manifest)) = .ok imported.cache := by
          rw [hworkspace, ok_bind, himports.keeps]
        unfold fileOf
        rw [hasked]
        dsimp only [planOf, respond]
        rw [hcache]
      rw [hcase]
      unfold remember
      rw [hfile]

/-! ## Runs -/

variable {turns : Nat → Turn Manifest}

theorem run_cons {index : Nat} {plans after : Plans} {request response : Envelope}
    (h : dispatch text host (turns index) plans request = (after, response)) (requests : List Envelope) :
    (run text host turns index plans (request :: requests)).1 = (request, response) :: (run text host turns (index + 1) after requests).1 := by
  rw [run, h]

/-- Each exchange of a run is one of `dispatch`. -/
theorem run_exchange {index : Nat} {plans : Plans} {requests : List Envelope} {exchange : Envelope × Envelope}
    (h : exchange ∈ (run text host turns index plans requests).1) :
    ∃ number before, exchange.2 = (dispatch text host (turns number) before exchange.1).2 := by
  induction requests generalizing index plans with
  | nil => cases h
  | cons request requests ih =>
    rw [run] at h
    rcases List.mem_cons.1 h with rfl | h
    · exact ⟨index, plans, rfl⟩
    · exact ih h

/-- Every request is answered, in the order of the requests. -/
theorem run_requests (index : Nat) (plans : Plans) (requests : List Envelope) :
    (run text host turns index plans requests).1.map Prod.fst = requests := by
  induction requests generalizing index plans with
  | nil => rfl
  | cons request requests ih =>
    rw [run, List.map_cons, ih]

/-- **Files.** What is on the disk after a run is what the responses said. -/
theorem run_plans (hregular : ∀ number, (turns number).Regular) (index : Nat) (plans : Plans) (requests : List Envelope) :
    (run text host turns index plans requests).2 = (run text host turns index plans requests).1.foldl (remember host) plans := by
  induction requests generalizing index plans with
  | nil => rfl
  | cons request requests ih =>
    rw [run]
    dsimp only
    rw [ih, List.foldl_cons, ← dispatch_plans (hregular index)]

/-! ## Plans by reference -/

theorem executionPlanCachePath_eq_ok_iff {workspace fingerprint cache : String} :
    executionPlanCachePath host workspace fingerprint = .ok cache ↔ ∃ hex, stripSha256 ⟨fingerprint⟩ = some hex ∧ isHexKey hex ∧
      host.plansDirectory workspace ++ "/" ++ String.ofList hex ++ ".json" = cache := by
  unfold executionPlanCachePath
  cases hstrip : (stripSha256 ⟨fingerprint⟩).filter isHexKey with
  | none =>
    constructor
    · intro h
      cases h
    · rintro ⟨hex, hhex, hkey, -⟩
      rw [hhex, Option.filter_some, if_pos hkey] at hstrip
      cases hstrip
  | some hex =>
    obtain ⟨hhex, hkey⟩ := Option.filter_eq_some_iff.1 hstrip
    constructor
    · intro h
      exact ⟨hex, hhex, hkey, Except.ok.inj h⟩
    · rintro ⟨other, hother, -, hcache⟩
      obtain rfl := Option.some.inj (hhex.symm.trans hother)
      exact congrArg Except.ok hcache

/-- Plans with two fingerprints have two files, in whatever workspaces. -/
theorem executionPlanCachePath_inj {workspace other fingerprint different cache : String}
    (h : executionPlanCachePath host workspace fingerprint = .ok cache) (h' : executionPlanCachePath host other different = .ok cache) :
    fingerprint = different := by
  obtain ⟨hex, hhex, hkey, rfl⟩ := executionPlanCachePath_eq_ok_iff.1 h
  obtain ⟨hex', hhex', hkey', hsame⟩ := executionPlanCachePath_eq_ok_iff.1 h'
  have hlength : hex'.length = hex.length := by
    unfold isHexKey at hkey hkey'
    rw [Bool.and_eq_true, decide_eq_true_iff] at hkey hkey'
    rw [hkey.1, hkey'.1]
  have htexts := congrArg String.toList hsame
  simp only [String.toList_append, String.toList_ofList] at htexts
  have hdigits : hex' = hex := List.append_inj_right' (List.append_cancel_right htexts) hlength
  subst hdigits
  exact String.toList_injective ((stripSha256_eq_some_iff.1 hhex).trans (stripSha256_eq_some_iff.1 hhex').symm)

theorem fileOf_eq_some {exchange : Envelope × Envelope} {cache : String} {payload : List UInt8}
    (h : fileOf host exchange = some (cache, payload)) : ∃ plan workspace, planOf exchange.2 = some plan ∧ plan.payload = payload ∧
      executionPlanCachePath host workspace plan.resolvedFingerprint = .ok cache := by
  unfold fileOf at h
  split at h
  · next plan _ hplan =>
    split at h
    · next found hfound =>
      obtain ⟨workspace, -, hcache⟩ := bind_eq_ok_iff.1 hfound
      cases h
      exact ⟨plan, workspace, hplan, rfl, hcache⟩
    · cases h
  · cases h

/-- A plan stays on the disk while no other one is imported under its fingerprint. -/
theorem remember_kept {workspace cache : String} {plan : WorkerProto.OpaqueExecutionPlan} {later : List (Envelope × Envelope)}
    (hcache : executionPlanCachePath host workspace plan.resolvedFingerprint = .ok cache)
    (hlater : ∀ exchange ∈ later, ∀ other, planOf exchange.2 = some other →
      other.resolvedFingerprint = plan.resolvedFingerprint → other.payload = plan.payload)
    {plans : Plans} (hkept : plans cache = some plan.payload) : later.foldl (remember host) plans cache = some plan.payload := by
  induction later generalizing plans with
  | nil => exact hkept
  | cons exchange later ih =>
    obtain ⟨hfirst, hrest⟩ := List.forall_mem_cons.1 hlater
    refine ih hrest ?_
    unfold remember
    cases hfile : fileOf host exchange with
    | none => exact hkept
    | some file =>
      obtain ⟨path, payload⟩ := file
      obtain ⟨other, otherWorkspace, hother, hpayload, hpath⟩ := fileOf_eq_some hfile
      dsimp only
      unfold Plans.set
      by_cases hsame : cache = path
      · subst hsame
        rw [Function.update_self, ← hpayload, hfirst other hother (executionPlanCachePath_inj hpath hcache)]
      · rw [Function.update_of_ne hsame]
        exact hkept

/-- What Core sends for a plan: the plan, or a reference to it. -/
structure Refers (plan sent : WorkerProto.OpaqueExecutionPlan) : Prop where
  backend : sent.backend ∈ [WORKER_NAME, "cached"]
  resolvedFingerprint : sent.resolvedFingerprint = plan.resolvedFingerprint
  payload : sent.payload = [] ∨ sent.payload = plan.payload

/-- Requests for the plan are answered with what was imported. -/
structure ServesPlan (text : PlanText Manifest) (host : Host) (plans : Plans) (workspace : String)
    (plan : WorkerProto.OpaqueExecutionPlan) (imported : ExecutionPlan Manifest) : Prop where
  batch : ∀ turn requestId sent request, Refers plan sent → workspace = host.workspaceRoot → request.executionPlan = some sent →
    dispatch text host turn plans ⟨WORKER_PROTOCOL_VERSION, requestId, some (.analyzeBatchRequest request)⟩ =
      (plans, answer requestId "Kotlin structural analysis failed" .analysisBatchResponse
        (turn.structuralBatch { request with executionPlan := none } imported))
  discovery : ∀ turn requestId sent request, Refers plan sent → host.resolveWorkspacePath request.workspaceRoot = .ok workspace →
    KotlinStructuralExtractor.isNotBlank request.workspaceRoot → 1 ≤ request.maxArtifacts → request.maxArtifacts ≤ 64 →
    request.executionPlan = some sent →
    dispatch text host turn plans ⟨WORKER_PROTOCOL_VERSION, requestId, some (.artifactDiscoveryRequest request)⟩ =
      (plans, answer requestId "JVM dependency discovery failed" .artifactDiscoveryResponse
        (turn.artifactDescriptors workspace request.maxArtifacts request.cursor imported.artifacts))

variable (text) in
theorem decode_sent {plans : Plans} {workspace cache : String} {plan sent : WorkerProto.OpaqueExecutionPlan}
    (hcache : executionPlanCachePath host workspace plan.resolvedFingerprint = .ok cache) (hkept : plans cache = some plan.payload)
    (hne : plan.payload ≠ []) (h : Refers plan sent) :
    decodeExecutionPlan text host plans workspace sent.resolvedFingerprint sent.payload =
      decodeExecutionPlan text host plans workspace plan.resolvedFingerprint plan.payload := by
  rw [h.resolvedFingerprint]
  obtain hempty | hsame := h.payload
  · have hload : loadExecutionPlan host plans workspace plan.resolvedFingerprint = .ok plan.payload := by
      unfold loadExecutionPlan
      rw [hcache, ok_bind, hkept]
    unfold decodeExecutionPlan
    rw [hempty, if_pos rfl, if_neg hne, hload]
  · rw [hsame]

theorem servesPlan {plans : Plans} {workspace cache : String} {plan : WorkerProto.OpaqueExecutionPlan} {imported : ExecutionPlan Manifest}
    (hcache : executionPlanCachePath host workspace plan.resolvedFingerprint = .ok cache) (hkept : plans cache = some plan.payload)
    (hne : plan.payload ≠ []) (hfingerprint : plan.resolvedFingerprint = text.fingerprint imported.manifest)
    (hdecode : decodeExecutionPlan text host plans workspace plan.resolvedFingerprint plan.payload = .ok imported) :
    ServesPlan text host plans workspace plan imported where
  batch turn requestId sent request h hworkspace hsent := by
    have hbackend : checkBackend sent = .ok () := reject_eq_ok_iff.2 (not_not_intro h.backend)
    have hplan := (decode_sent text hcache hkept hne h).trans hdecode
    have hsame : reject (sent.resolvedFingerprint ≠ text.fingerprint imported.manifest)
        (illegalArgument "execution plan fingerprint does not match its resolved manifest") = .ok () :=
      reject_eq_ok_iff.2 (not_not_intro (h.resolvedFingerprint.trans hfingerprint))
    have hbatch : analyzeBatch text host turn plans request = turn.structuralBatch { request with executionPlan := none } imported := by
      unfold analyzeBatch
      rw [hsent]
      dsimp only
      rw [hbackend, ok_bind, ← hworkspace, hplan, ok_bind, hsame, ok_bind]
    unfold dispatch
    rw [if_neg (not_not_intro rfl)]
    dsimp only
    rw [hbatch]
  discovery turn requestId sent request h hroot hblank hlow hhigh hsent := by
    have hbackend : checkBackend sent = .ok () := reject_eq_ok_iff.2 (not_not_intro h.backend)
    have hplan := (decode_sent text hcache hkept hne h).trans hdecode
    have hdiscover : discoverArtifacts text host turn plans request =
        turn.artifactDescriptors workspace request.maxArtifacts request.cursor imported.artifacts := by
      unfold discoverArtifacts
      dsimp only
      rw [hsent, Option.getD_some, hbackend, ok_bind, hroot, ok_bind, hplan, ok_bind]
    unfold dispatch
    rw [if_neg (not_not_intro rfl)]
    dsimp only
    unfold artifactDiscoveryRequest
    rw [if_neg (not_not_intro hblank), if_neg (not_not_intro ⟨hlow, hhigh⟩), hdiscover]

/-- **Plans by reference.** After an answered import, and while no other plan is imported under its fingerprint, a request for the
plan is answered with what the build tool said then, whether the plan is sent or only named. -/
theorem plan_by_reference (hregular : ∀ number, (turns number).Regular) {initial : Plans} {requests : List Envelope}
    {earlier later : List (Envelope × Envelope)} {importing imported : Envelope} {plan : WorkerProto.OpaqueExecutionPlan}
    (hrun : (run text host turns 0 initial requests).1 = earlier ++ (importing, imported) :: later) (hplan : planOf imported = some plan)
    (hlater : ∀ exchange ∈ later, ∀ other, planOf exchange.2 = some other →
      other.resolvedFingerprint = plan.resolvedFingerprint → other.payload = plan.payload) :
    ∃ number workspaceRoot workspace manifest artifacts javaContexts kotlinContexts cache,
      importing.message = some (.projectManifestRequest workspaceRoot) ∧ host.resolveWorkspacePath workspaceRoot = .ok workspace ∧
        ImportOf text host (turns number) workspace manifest artifacts javaContexts kotlinContexts cache ∧
          ServesPlan text host (run text host turns 0 initial requests).2 workspace plan
            (importedPlan manifest artifacts javaContexts kotlinContexts) := by
  have hmem : (importing, imported) ∈ (run text host turns 0 initial requests).1 := by
    rw [hrun]
    exact List.mem_append_right _ List.mem_cons_self
  obtain ⟨number, before, hdispatch⟩ := run_exchange hmem
  dsimp only at hdispatch
  rw [hdispatch] at hplan
  obtain ⟨workspaceRoot, project, hasked, himport, rfl⟩ := dispatch_imported hplan
  obtain ⟨workspace, artifacts, javaContexts, kotlinContexts, hworkspace, himports, hpayload⟩ := importProject_eq_ok himport
  refine ⟨number, workspaceRoot, workspace, project.manifest, artifacts, javaContexts, kotlinContexts, project.cache, hasked, hworkspace,
    himports, ?_⟩
  apply servesPlan
  · exact himports.keeps
  · have hfile : fileOf host (importing, imported) = some (project.cache, project.payload) := by
      unfold fileOf
      dsimp only
      rw [hasked, hdispatch, hplan]
      dsimp only
      rw [hworkspace, ok_bind, himports.keeps]
    rw [run_plans hregular, hrun, List.foldl_append, List.foldl_cons]
    apply remember_kept ?_ hlater
    · unfold remember
      rw [hfile]
      exact Function.update_self ..
    · exact workspace
    · exact himports.keeps
  · exact importProject_payload himport
  · rfl
  · dsimp only
    rw [hpayload]
    exact decode_encode ((hregular number).contexts workspace _ _ himports.plans) _ _

end

/-! ## A project with two modules -/

section Sample

/-- An injective text has a reader. -/
noncomputable def PlanText.ofInjective {Manifest : Type} (write : PlanJson Manifest → List UInt8) (fingerprint : Manifest → String)
    (hinj : Function.Injective write) (hne : ∀ plan, write plan ≠ []) : PlanText Manifest where
  write := write
  read payload :=
    open Classical in
    if h : ∃ plan, write plan = payload then .ok h.choose else .error (illegalArgument "Unexpected JSON token")
  fingerprint := fingerprint
  read_write plan := by
    have h : ∃ other, write other = write plan := ⟨plan, rfl⟩
    rw [dif_pos h, hinj h.choose_spec]
  write_ne_nil := hne

theorem exists_planNumber : ∃ number : PlanJson String → Nat, Function.Injective number := by
  have hjson : Function.Injective fun json : ArtifactJson =>
      (json.path, json.component, json.context, json.ecosystem, json.coordinate, json.version) := by
    rintro ⟨_, _, _, _, _, _⟩ ⟨_, _, _, _, _, _⟩ h
    simpa using h
  have hjava : Function.Injective fun context : JavaCompilationContext =>
      (context.component.asStr, context.sourceFiles, context.ownedSourceFiles, context.sourceRoots, context.classpath, context.jdkHome,
        context.languageLevel, context.unresolvedDependencies, context.artifactContext) := by
    rintro ⟨⟨_⟩, _, _, _, _, _, _, _, _⟩ ⟨⟨_⟩, _, _, _, _, _, _, _, _⟩ h
    simpa using h
  have hkotlin : Function.Injective fun context : KotlinCompilationContext =>
      (context.component, context.moduleName, context.gradlePath, context.sourceFiles, context.classpath, context.jdkHome,
        context.projectDependencyModuleNames) := by
    rintro ⟨_, _, _, _, _, _, _⟩ ⟨_, _, _, _, _, _, _⟩ h
    simpa using h
  have hplan : Function.Injective fun plan : PlanJson String =>
      (plan.format, plan.manifest, plan.artifacts, plan.javaContexts, plan.kotlinContexts) := by
    rintro ⟨_, _, _, _, _⟩ ⟨_, _, _, _, _⟩ h
    simpa using h
  have hchar : Function.Injective Char.toNat := fun a b h => Char.ext (UInt32.toNat_inj.1 h)
  have := hchar.countable
  have htext : Function.Injective String.toList := fun _ _ h => String.toList_injective h
  have := htext.countable
  have := hjson.countable
  have := hjava.countable
  have := hkotlin.countable
  have := hplan.countable
  exact Countable.exists_injective_nat _

def sampleFingerprint : String := "sha256:aaaaaaaaaaaaaaaaaaaaaaaaaaaaaaaaaaaaaaaaaaaaaaaaaaaaaaaaaaaaaaaa"

def sampleContexts : List KotlinCompilationContext :=
  [⟨"gradle:lib:main", "lib", ":lib", [], [], "/jdk", []⟩, ⟨"gradle:app:main", "app", ":app", [], [], "/jdk", ["lib"]⟩]

def samplePlan : PlanJson String :=
  ⟨1, sampleFingerprint, [⟨"/jars/a.jar", "gradle:app:main", "sha256:c", some "unknown", none, none⟩], [],
    [⟨"gradle:app:main", "app", ":app", [], [], "/jdk", ["lib"]⟩, ⟨"gradle:lib:main", "lib", ":lib", [], [], "/jdk", []⟩]⟩

def sampleJson : String :=
  "\x7b\"format\":1,\"manifest\":\x7b\"fingerprint\":\"" ++ sampleFingerprint
    ++ "\"\x7d,\"artifacts\":[\x7b\"path\":\"/jars/a.jar\",\"component\":\"gradle:app:main\","
    ++ "\"context\":\"sha256:c\",\"ecosystem\":\"unknown\"\x7d],\"java_contexts\":[],\"kotlin_contexts\":["
    ++ "\x7b\"component\":\"gradle:app:main\",\"module_name\":\"app\",\"gradle_path\":\":app\",\"s"
    ++ "ource_files\":[],\"classpath\":[],\"jdk_home\":\"/jdk\",\"project_dependencies\":[\"lib\"]\x7d,"
    ++ "\x7b\"component\":\"gradle:lib:main\",\"module_name\":\"lib\",\"gradle_path\":\":lib\",\"s"
    ++ "ource_files\":[],\"classpath\":[],\"jdk_home\":\"/jdk\",\"project_dependencies\":[]\x7d]\x7d"

/-- The text of the sample plan; other plans have a number. -/
noncomputable def sampleWrite (plan : PlanJson String) : List UInt8 :=
  open Classical in
  if plan = samplePlan then sampleJson.toList.map fun c => UInt8.ofNat c.toNat
  else List.replicate (exists_planNumber.choose plan + 1) 0

theorem sampleJson_head : (sampleJson.toList.map fun c => UInt8.ofNat c.toNat).head? = some 123 := by
  have hopen : "\x7b\"format\":1,\"manifest\":\x7b\"fingerprint\":\"".toList.head? = some (Char.ofNat 0x7b) := by decide
  have hfirst : sampleJson.toList.head? = some (Char.ofNat 0x7b) := by
    unfold sampleJson
    simp only [String.toList_append, List.append_assoc, List.head?_append, hopen, Option.some_or]
  rw [List.head?_map, hfirst]
  rfl

theorem sampleWrite_injective : Function.Injective sampleWrite := by
  have hnumber := exists_planNumber.choose_spec
  have hbrace := sampleJson_head
  have hapart : ∀ count, (sampleJson.toList.map fun c => UInt8.ofNat c.toNat) ≠ List.replicate (count + 1) 0 := by
    intro count h
    rw [h, List.replicate_succ, List.head?_cons] at hbrace
    exact absurd hbrace (by decide)
  intro a b h
  unfold sampleWrite at h
  split at h
  · next ha =>
    split at h
    · next hb => rw [ha, hb]
    · exact absurd h (hapart _)
  · split at h
    · exact absurd h.symm (hapart _)
    · have hlength := congrArg List.length h
      rw [List.length_replicate, List.length_replicate] at hlength
      exact hnumber (Nat.succ_inj.1 hlength)

theorem sampleWrite_ne_nil (plan : PlanJson String) : sampleWrite plan ≠ [] := by
  unfold sampleWrite
  split
  · intro h
    have hhead := sampleJson_head
    rw [h] at hhead
    cases hhead
  · exact List.cons_ne_nil _ _

noncomputable def sampleText : PlanText String := .ofInjective sampleWrite id sampleWrite_injective sampleWrite_ne_nil

def sampleHost : Host := ⟨"/w", fun _ => .ok "/w", (· ++ "/.kide/worker-plans"), fun _ => ""⟩

def sampleArtifact : ResolvedPath := ⟨"/jars/a.jar", "gradle:app:main", "sha256:c", "unknown", none, none⟩

def sampleTurn : Turn String where
  projectManifest _ := .ok sampleFingerprint
  manifestMessage manifest := .ok ⟨"w", ".", [], [], manifest, none⟩
  resolvedArtifacts _ := .ok [sampleArtifact]
  sourceExecutionContexts _ := .ok ([], sampleContexts)
  structuralBatch _ _ := .ok ⟨[], [], [], []⟩
  artifactBatch _ _ _ := .ok ⟨[], none⟩
  artifactDescriptors _ _ _ _ := .ok ⟨[], none, []⟩
  materialize _ := .error (illegalArgument "artifact does not exist")
  writeFailure _ _ := none

def sampleRequest : Envelope := ⟨WORKER_PROTOCOL_VERSION, "1", some (.projectManifestRequest ".")⟩

theorem sample_regular : sampleTurn.Regular where
  writes _ _ := rfl
  messages _ := ⟨_, rfl⟩
  contexts _ _ _ h := by
    obtain rfl := (Prod.mk.inj (Except.ok.inj h)).2
    exact ⟨by decide, by decide⟩

def sampleCache : String := "/w/.kide/worker-plans/aaaaaaaaaaaaaaaaaaaaaaaaaaaaaaaaaaaaaaaaaaaaaaaaaaaaaaaaaaaaaaaa.json"

noncomputable def sampleImported : Imported String :=
  ⟨sampleFingerprint, encodeExecutionPlan sampleText sampleFingerprint [sampleArtifact] [] sampleContexts, sampleCache⟩

noncomputable def sampleReference : WorkerProto.OpaqueExecutionPlan :=
  ⟨WORKER_NAME, sampleText.fingerprint sampleImported.manifest, sampleImported.payload⟩

noncomputable def sampleResponse : Envelope :=
  respond "1" (.projectManifestResponse ⟨some ⟨"w", ".", [], [], sampleFingerprint, none⟩, some sampleReference⟩)

def emptyRequest : Envelope := ⟨WORKER_PROTOCOL_VERSION, "2", none⟩

theorem sample_run : (run sampleText sampleHost (fun _ => sampleTurn) 0 (fun _ => none) [sampleRequest, emptyRequest]).1 =
    [] ++ (sampleRequest, sampleResponse) :: [(emptyRequest, unsupported "2" "worker does not implement message_not_set")] := by
  have hcache : executionPlanCachePath sampleHost "/w" sampleFingerprint = .ok sampleCache := by decide +kernel
  have himport : importProject sampleText sampleHost sampleTurn "." = .ok sampleImported := by
    change (executionPlanCachePath sampleHost "/w" sampleFingerprint >>= fun cache => Except.ok _) = _
    rw [hcache]
    rfl
  have hmessage : sampleTurn.manifestMessage sampleImported.manifest = .ok ⟨"w", ".", [], [], sampleFingerprint, none⟩ := rfl
  have hfirst := @dispatch_import_ok String sampleText sampleHost sampleTurn (fun _ => none) "1" "." sampleImported _ (by decide)
    himport rfl hmessage
  have hsecond : dispatch sampleText sampleHost sampleTurn (Plans.set (fun _ => none) sampleImported.cache (some sampleImported.payload)) emptyRequest =
      (_, unsupported "2" "worker does not implement message_not_set") := rfl
  have hstart := @run_cons String sampleText sampleHost (fun _ => sampleTurn) 0 _ _ sampleRequest _ hfirst [emptyRequest]
  have hrest := @run_cons String sampleText sampleHost (fun _ => sampleTurn) 1 _ _ emptyRequest _ hsecond []
  rw [hstart, hrest, run]
  rfl

theorem sample_by_reference : ∃ number workspaceRoot workspace manifest artifacts javaContexts kotlinContexts cache,
    sampleRequest.message = some (.projectManifestRequest workspaceRoot) ∧ sampleHost.resolveWorkspacePath workspaceRoot = .ok workspace ∧
      ImportOf sampleText sampleHost ((fun _ : Nat => sampleTurn) number) workspace manifest artifacts javaContexts kotlinContexts cache ∧
        ServesPlan sampleText sampleHost
          (run sampleText sampleHost (fun _ => sampleTurn) 0 (fun _ => none) [sampleRequest, emptyRequest]).2 workspace
          sampleReference (importedPlan manifest artifacts javaContexts kotlinContexts) :=
  plan_by_reference (fun _ => sample_regular) sample_run rfl (by
    intro exchange hexchange other hother
    rw [List.mem_singleton.1 hexchange] at hother
    cases hother)

end Sample

end JvmServer

end Kide
