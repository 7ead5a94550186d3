import Kide.Index.FingerprintParsers
import Kide.Proto.Manifest
import Kide.Workers.Responses

/-!
# Envelopes

The only place where Core turns a message into protobuf and back (`envelope`, `decode_envelope` in `worker_proto_adapter.rs`), with
all kinds of messages and all their fields; `Message.control` is what the other modules see of one.

* `descriptor_round_trip_iff`, `sha256_round_trip_iff`, `executionPlan_round_trip_iff`: the parts that some values do not survive;
* `envelope_round_trip_iff`: the envelopes that arrive as they were sent, and none makes the adapter panic.
-/

namespace Kide
open Checks Panics Text

/-! ## The generated messages -/

namespace WorkerProto

structure SemanticQueryParameter where
  name : String
  type : String
  required : Bool
deriving DecidableEq, Repr

structure SemanticQueryCapability where
  name : String
  version : Nat
  parameters : List SemanticQueryParameter
  resultKind : String
deriving DecidableEq, Repr

structure HandshakeResponse where
  backend : String
  backendVersion : String
  protocolVersion : Nat
  capabilities : List String
  languages : List String
  semanticQueryCapabilities : List SemanticQueryCapability
deriving DecidableEq, Repr

inductive SemanticQueryArgumentValue where
  | symbolId (value : String)
  | componentId (value : String)
  | stringValue (value : String)
  | integerValue (value : Int)
deriving DecidableEq, Repr

structure SemanticQueryArgument where
  name : String
  value : Option SemanticQueryArgumentValue
deriving DecidableEq, Repr

structure SemanticQueryBudget where
  maxCandidates : Nat
  maxNodes : Nat
  maxBytes : Nat
  deadlineMillis : Nat
deriving DecidableEq, Repr

structure SemanticQueryRequest where
  capabilityName : String
  capabilityVersion : Nat
  arguments : List SemanticQueryArgument
  candidateSymbolIds : List String
  candidateSourceUnitIds : List String
  budget : Option SemanticQueryBudget
deriving DecidableEq, Repr

structure OpaqueExecutionPlan where
  backend : String
  resolvedFingerprint : String
  payload : List UInt8
deriving DecidableEq, Repr

structure ProjectManifestResponse where
  manifest : Option ProjectManifest
  executionPlan : Option OpaqueExecutionPlan
deriving DecidableEq, Repr

structure AnalyzeBatchRequest where
  workspace : String
  projectFingerprint : String
  requestedFacts : List String
  sourceUnits : List SourceUnit
  executionPlan : Option OpaqueExecutionPlan
deriving DecidableEq, Repr

structure PhaseTiming where
  phase : String
  elapsedMillis : Nat
deriving DecidableEq, Repr

structure WorkerMetric where
  name : String
  value : Nat
deriving DecidableEq, Repr

structure ArtifactCandidate where
  locator : String
  componentId : String
  contextFingerprint : String
deriving DecidableEq, Repr

structure AnalysisBatchResponse where
  snapshots : List FileAnalysisSnapshot
  timings : List PhaseTiming
  artifactCandidates : List ArtifactCandidate
  metrics : List WorkerMetric
deriving DecidableEq, Repr

structure AnalysisDelta where
  sourceUnitId : String
  previousContentFingerprint : Option String
  snapshot : Option FileAnalysisSnapshot
deriving DecidableEq, Repr

structure ArtifactAnalysisRequest where
  workspaceRoot : String
  maxArtifacts : Nat
  cursor : Option String
deriving DecidableEq, Repr

structure ArtifactAnalysisResponse where
  snapshots : List FileAnalysisSnapshot
  nextCursor : Option String
deriving DecidableEq, Repr

structure ArtifactDiscoveryRequest where
  workspaceRoot : String
  maxArtifacts : Nat
  cursor : Option String
  executionPlan : Option OpaqueExecutionPlan
deriving DecidableEq, Repr

structure SymbolLocator where
  qualifiedName : String
  symbolId : String
deriving DecidableEq, Repr

structure ArtifactDescriptor where
  sourceUnitId : String
  componentId : String
  workspacePath : String
  contentFingerprint : String
  contextFingerprint : String
  backend : String
  backendVersion : String
  workerProtocolVersion : Nat
  analysisOptionsFingerprint : String
  language : String
  origin : String
  ecosystem : String
  canonicalCoordinate : Option String
  resolvedVersion : Option String
  symbolLocators : List SymbolLocator
deriving DecidableEq, Repr

structure ArtifactLocator where
  sourceUnitId : String
  locator : String
deriving DecidableEq, Repr

structure ArtifactDiscoveryResponse where
  artifacts : List ArtifactDescriptor
  nextCursor : Option String
  artifactLocators : List ArtifactLocator
deriving DecidableEq, Repr

structure ArtifactMaterializationRequest where
  workspaceRoot : String
  artifact : Option ArtifactDescriptor
  stagingDirectory : String
  blobFormatVersion : Nat
  artifactLocator : Option String
deriving DecidableEq, Repr

structure ArtifactMaterializationResponse where
  stagedFilename : String
  byteLength : Nat
  sha256 : List UInt8
  blobFormatVersion : Nat
  timings : List PhaseTiming
  metrics : List WorkerMetric
deriving DecidableEq, Repr

structure Error where
  code : String
  message : String
  retryable : Bool
  supportedProtocolVersion : Nat
  receivedProtocolVersion : Option Nat
deriving DecidableEq, Repr

inductive Message where
  | handshakeRequest (coreVersion : String)
  | handshakeResponse (response : HandshakeResponse)
  | artifactDiscoveryRequest (request : ArtifactDiscoveryRequest)
  | artifactDiscoveryResponse (response : ArtifactDiscoveryResponse)
  | error (error : Error)
  | projectManifestRequest (workspaceRoot : String)
  | projectManifestResponse (response : ProjectManifestResponse)
  | analyzeBatchRequest (request : AnalyzeBatchRequest)
  | analysisBatchResponse (response : AnalysisBatchResponse)
  | artifactMaterializationRequest (request : ArtifactMaterializationRequest)
  | artifactMaterializationResponse (response : ArtifactMaterializationResponse)
  | analysisDelta (delta : AnalysisDelta)
  | artifactAnalysisRequest (request : ArtifactAnalysisRequest)
  | artifactAnalysisResponse (response : ArtifactAnalysisResponse)
  | semanticQueryRequest (request : SemanticQueryRequest)
  | semanticQueryResponse (response : SemanticQueryResponse)
deriving DecidableEq, Repr

structure Envelope where
  protocolVersion : Nat
  requestId : String
  message : Option Message
deriving DecidableEq, Repr

end WorkerProto

/-! ## The canonical messages -/

namespace Transport

structure PhaseTiming where
  phase : String
  elapsedMillis : Nat
deriving DecidableEq, Repr

structure WorkerMetric where
  name : String
  value : Nat
deriving DecidableEq, Repr

structure ArtifactCandidate where
  locator : String
  component : ComponentId
  context : Fingerprint
deriving DecidableEq, Repr

structure AnalysisBatchResponse extends Kide.AnalysisBatchResponse where
  timings : List PhaseTiming
  artifactCandidates : List ArtifactCandidate
  metrics : List WorkerMetric
deriving DecidableEq

structure AnalysisDelta where
  sourceUnit : SourceUnitId
  previousContent : Option Fingerprint
  snapshot : Option FileAnalysisSnapshot
deriving DecidableEq

structure ArtifactAnalysisRequest where
  workspaceRoot : WorkspacePath
  maxArtifacts : Nat
  cursor : Option String
deriving DecidableEq

structure ArtifactAnalysisResponse where
  snapshots : List FileAnalysisSnapshot
  nextCursor : Option String
deriving DecidableEq

structure ArtifactMaterializationResponse extends Kide.ArtifactMaterializationResponse where
  timings : List PhaseTiming
  metrics : List WorkerMetric
deriving DecidableEq

/-- `WorkerMessage` -/
inductive Message where
  | handshakeRequest (coreVersion : String)
  | handshakeResponse (capabilities : WorkerCapabilities)
  | projectManifestRequest (workspaceRoot : WorkspacePath)
  | projectManifestResponse (response : ProjectManifestResponse)
  | analyzeBatchRequest (request : AnalyzeBatchRequest)
  | analysisBatchResponse (response : AnalysisBatchResponse)
  | artifactAnalysisRequest (request : ArtifactAnalysisRequest)
  | artifactAnalysisResponse (response : ArtifactAnalysisResponse)
  | artifactDiscoveryRequest (request : ArtifactDiscoveryRequest)
  | artifactDiscoveryResponse (response : ArtifactDiscoveryResponse)
  | artifactMaterializationRequest (request : ArtifactMaterializationRequest)
  | artifactMaterializationResponse (response : ArtifactMaterializationResponse)
  | semanticQueryRequest (request : SemanticQueryRequest)
  | semanticQueryResponse (response : SemanticQueryResponse)
  | analysisDelta (delta : AnalysisDelta)
  | error (error : WorkerError)
deriving DecidableEq

structure Envelope where
  protocolVersion : Nat
  requestId : String
  message : Message
deriving DecidableEq

/-- The message without the fields that only the log and the profile read. -/
def Message.control : Message → WorkerMessage
  | .handshakeRequest coreVersion => .handshakeRequest coreVersion
  | .handshakeResponse capabilities => .handshakeResponse capabilities
  | .projectManifestRequest workspaceRoot => .projectManifestRequest workspaceRoot
  | .projectManifestResponse response => .projectManifestResponse response
  | .analyzeBatchRequest request => .analyzeBatchRequest request
  | .analysisBatchResponse response => .analysisBatchResponse response.toAnalysisBatchResponse
  | .artifactAnalysisRequest _ => .other "artifact_analysis_request"
  | .artifactAnalysisResponse _ => .other "artifact_analysis_response"
  | .artifactDiscoveryRequest request => .artifactDiscoveryRequest request
  | .artifactDiscoveryResponse response => .artifactDiscoveryResponse response
  | .artifactMaterializationRequest request => .artifactMaterializationRequest request
  | .artifactMaterializationResponse response => .artifactMaterializationResponse response.toArtifactMaterializationResponse
  | .semanticQueryRequest request => .semanticQueryRequest request
  | .semanticQueryResponse response => .semanticQueryResponse response
  | .analysisDelta _ => .other "analysis_delta"
  | .error failure => .error failure

def Envelope.control (envelope : Envelope) : WorkerEnvelope :=
  ⟨envelope.protocolVersion, envelope.requestId, envelope.message.control⟩

end Transport

/-! ## The adapter -/

namespace WorkerAdapter
open Transport (PhaseTiming WorkerMetric ArtifactCandidate)

def workerCapability : WorkerCapability → String
  | .handshake => "handshake"
  | .projectManifest => "project_manifest"
  | .fileAnalysisSnapshot => "file_analysis_snapshot"
  | .dependencyAnalysis => "dependency_analysis"
  | .analysisDelta => "analysis_delta"

def decodeWorkerCapability (value : String) : Except AdapterError WorkerCapability :=
  match value with
  | "handshake" => .ok .handshake
  | "project_manifest" => .ok .projectManifest
  | "file_analysis_snapshot" => .ok .fileAnalysisSnapshot
  | "dependency_analysis" => .ok .dependencyAnalysis
  | "analysis_delta" => .ok .analysisDelta
  | other => .error (.unsupported ("worker capability " ++ other))

def semanticParameterType : SemanticQueryParameterType → String
  | .symbolId => "symbol_id"
  | .componentId => "component_id"
  | .string => "string"
  | .integer => "integer"

def decodeSemanticParameterType (value : String) : Except AdapterError SemanticQueryParameterType :=
  match value with
  | "symbol_id" => .ok .symbolId
  | "component_id" => .ok .componentId
  | "string" => .ok .string
  | "integer" => .ok .integer
  | other => .error (.unsupported ("semantic query parameter type " ++ other))

def semanticResultKind : SemanticQueryResultKind → String
  | .candidateSymbols => "candidate_symbols"
  | .normalizedFacts => "normalized_facts"

def decodeSemanticResultKind (value : String) : Except AdapterError SemanticQueryResultKind :=
  match value with
  | "candidate_symbols" => .ok .candidateSymbols
  | "normalized_facts" => .ok .normalizedFacts
  | other => .error (.unsupported ("semantic query result kind " ++ other))

def semanticQueryParameter (value : SemanticQueryParameter) : WorkerProto.SemanticQueryParameter :=
  ⟨value.name, semanticParameterType value.ty, value.required⟩

def decodeSemanticQueryParameter (value : WorkerProto.SemanticQueryParameter) : Except AdapterError SemanticQueryParameter := do
  let ty ← decodeSemanticParameterType value.type
  .ok ⟨value.name, ty, value.required⟩

def semanticQueryCapability (value : SemanticQueryCapability) : WorkerProto.SemanticQueryCapability :=
  ⟨value.name, value.version, value.parameters.map semanticQueryParameter, semanticResultKind value.result⟩

def decodeSemanticQueryCapability (value : WorkerProto.SemanticQueryCapability) : Except AdapterError SemanticQueryCapability := do
  reject (value.name = "" ∨ value.version = 0) (.invalid "semantic_query_capability")
  let parameters ← value.parameters.mapM decodeSemanticQueryParameter
  let result ← decodeSemanticResultKind value.resultKind
  .ok ⟨value.name, value.version, parameters, result⟩

def handshakeResponse (value : WorkerCapabilities) : WorkerProto.HandshakeResponse where
  backend := value.identity.backend
  backendVersion := value.identity.backendVersion
  protocolVersion := value.protocolVersion
  capabilities := value.capabilities.map workerCapability
  languages := value.languages.map protoLanguage
  semanticQueryCapabilities := value.semanticQueryCapabilities.map semanticQueryCapability

def decodeHandshakeResponse (value : WorkerProto.HandshakeResponse) : Except AdapterError WorkerCapabilities := do
  let capabilities ← value.capabilities.mapM decodeWorkerCapability
  let semanticQueryCapabilities ← value.semanticQueryCapabilities.mapM decodeSemanticQueryCapability
  .ok ⟨⟨value.backend, value.backendVersion⟩, value.protocolVersion, value.languages.map language, capabilities,
    semanticQueryCapabilities⟩

/-! ### Queries -/

def semanticQueryArgumentValue : SemanticQueryArgumentValue → WorkerProto.SemanticQueryArgumentValue
  | .symbolId value => .symbolId value.asStr
  | .componentId value => .componentId value.asStr
  | .string value => .stringValue value
  | .integer value => .integerValue value

def decodeSemanticQueryArgumentValue : WorkerProto.SemanticQueryArgumentValue → SemanticQueryArgumentValue
  | .symbolId value => .symbolId ⟨value⟩
  | .componentId value => .componentId ⟨value⟩
  | .stringValue value => .string value
  | .integerValue value => .integer value

def semanticQueryArgument (value : SemanticQueryArgument) : WorkerProto.SemanticQueryArgument :=
  ⟨value.name, some (semanticQueryArgumentValue value.value)⟩

def decodeSemanticQueryArgument (value : WorkerProto.SemanticQueryArgument) : Except AdapterError SemanticQueryArgument := do
  let decoded ← required "semantic_query_argument.value" value.value
  .ok ⟨value.name, decodeSemanticQueryArgumentValue decoded⟩

def semanticQueryBudget (value : SemanticQueryBudget) : WorkerProto.SemanticQueryBudget :=
  ⟨value.maxCandidates, value.maxNodes, value.maxBytes, value.deadlineMillis⟩

def decodeSemanticQueryBudget (value : WorkerProto.SemanticQueryBudget) : SemanticQueryBudget :=
  ⟨value.maxCandidates, value.maxNodes, value.maxBytes, value.deadlineMillis⟩

def semanticQueryRequest (value : SemanticQueryRequest) : WorkerProto.SemanticQueryRequest where
  capabilityName := value.capabilityName
  capabilityVersion := value.capabilityVersion
  arguments := value.arguments.map semanticQueryArgument
  candidateSymbolIds := value.candidateSymbols.map (·.asStr)
  candidateSourceUnitIds := value.candidateSourceUnits.map (·.asStr)
  budget := some (semanticQueryBudget value.budget)

def decodeSemanticQueryRequest (value : WorkerProto.SemanticQueryRequest) : Except AdapterError SemanticQueryRequest := do
  let arguments ← value.arguments.mapM decodeSemanticQueryArgument
  let budget ← required "semantic_query_request.budget" value.budget
  .ok {
    capabilityName := value.capabilityName
    capabilityVersion := value.capabilityVersion
    arguments
    candidateSymbols := value.candidateSymbolIds.map SymbolId.mk
    candidateSourceUnits := value.candidateSourceUnitIds.map SourceUnitId.mk
    budget := decodeSemanticQueryBudget budget }

def decodeSemanticQueryResponseState (value : String) : Except AdapterError SemanticQueryResponseState :=
  match value with
  | "complete" => .ok .complete
  | "partial" => .ok .partially
  | "unsupported" => .ok .unsupported
  | other => .error (.unsupported ("semantic query response state " ++ other))

def decodeSemanticQueryResponse (value : WorkerProto.SemanticQueryResponse) : Except AdapterError SemanticQueryResponse := do
  let state ← decodeSemanticQueryResponseState value.state
  let snapshots ← value.snapshots.mapM decodeFileAnalysisSnapshot
  let provenanceMessage ← required "semantic_query_response.provenance" value.provenance
  .ok {
    capabilityName := value.capabilityName
    capabilityVersion := value.capabilityVersion
    state
    candidateSymbols := value.candidateSymbolIds.map SymbolId.mk
    snapshots
    provenance := provenance provenanceMessage
    visitedNodes := value.visitedNodes
    producedBytes := value.producedBytes }

/-! ### Analysis -/

def executionPlan (value : OpaqueExecutionPlan) : WorkerProto.OpaqueExecutionPlan :=
  ⟨value.backend, value.resolvedFingerprint.asStr, value.payload⟩

def decodeExecutionPlan (value : WorkerProto.OpaqueExecutionPlan) : Except AdapterError OpaqueExecutionPlan := do
  reject (value.backend = "" ∨ value.resolvedFingerprint = "") (.invalid "opaque execution plan")
  .ok ⟨value.backend, ⟨value.resolvedFingerprint⟩, value.payload⟩

def projectManifestResponse (data : Unicode.Data) (value : ProjectManifestResponse) : WorkerProto.ProjectManifestResponse :=
  ⟨some (manifest data value.manifest), some (executionPlan value.executionPlan)⟩

def decodeProjectManifestResponse (value : WorkerProto.ProjectManifestResponse) : Except AdapterError ProjectManifestResponse := do
  let manifestMessage ← required "project_manifest_response.manifest" value.manifest
  let manifest ← decodeManifest manifestMessage
  let planMessage ← required "project_manifest_response.execution_plan" value.executionPlan
  let executionPlan ← decodeExecutionPlan planMessage
  .ok ⟨manifest, executionPlan⟩

def analysisFactDebug : AnalysisFact → String
  | .symbols => "Symbols"
  | .occurrences => "Occurrences"
  | .references => "References"
  | .calls => "Calls"
  | .hierarchy => "Hierarchy"
  | .types => "Types"

def analysisFact (value : String) : Except AdapterError AnalysisFact :=
  match value with
  | "symbols" => .ok .symbols
  | "occurrences" => .ok .occurrences
  | "references" => .ok .references
  | "calls" => .ok .calls
  | "hierarchy" => .ok .hierarchy
  | "types" => .ok .types
  | other => .error (.unsupported ("analysis fact " ++ other))

def analyzeBatchRequest (data : Unicode.Data) (value : AnalyzeBatchRequest) : WorkerProto.AnalyzeBatchRequest where
  workspace := value.workspace.asStr
  projectFingerprint := value.projectFingerprint.asStr
  requestedFacts := value.requestedFacts.map fun fact => Unicode.toLowercase data (analysisFactDebug fact)
  sourceUnits := value.sourceUnits.map sourceUnit
  executionPlan := some (executionPlan value.executionPlan)

def decodeAnalyzeBatchRequest (value : WorkerProto.AnalyzeBatchRequest) : Except AdapterError AnalyzeBatchRequest := do
  let requestedFacts ← value.requestedFacts.mapM analysisFact
  let sourceUnits ← value.sourceUnits.mapM decodeSourceUnit
  let planMessage ← required "analyze_batch_request.execution_plan" value.executionPlan
  let executionPlan ← decodeExecutionPlan planMessage
  .ok ⟨⟨value.workspace⟩, ⟨value.projectFingerprint⟩, requestedFacts, sourceUnits, executionPlan⟩

def phaseTiming (value : PhaseTiming) : WorkerProto.PhaseTiming := ⟨value.phase, value.elapsedMillis⟩

def decodePhaseTiming (value : WorkerProto.PhaseTiming) : PhaseTiming := ⟨value.phase, value.elapsedMillis⟩

def workerMetric (value : WorkerMetric) : WorkerProto.WorkerMetric := ⟨value.name, value.value⟩

def decodeWorkerMetric (value : WorkerProto.WorkerMetric) : WorkerMetric := ⟨value.name, value.value⟩

def artifactCandidate (value : ArtifactCandidate) : WorkerProto.ArtifactCandidate :=
  ⟨value.locator, value.component.asStr, value.context.asStr⟩

def decodeArtifactCandidate (value : WorkerProto.ArtifactCandidate) : Except AdapterError ArtifactCandidate := do
  reject (value.locator = "" ∨ value.componentId = "" ∨ value.contextFingerprint = "") (.invalid "artifact candidate")
  .ok ⟨value.locator, ⟨value.componentId⟩, ⟨value.contextFingerprint⟩⟩

def analysisBatchResponse (value : Transport.AnalysisBatchResponse) : Except AdapterError WorkerProto.AnalysisBatchResponse := do
  let snapshots ← value.snapshots.mapM fileAnalysisSnapshot
  .ok ⟨snapshots, value.timings.map phaseTiming, value.artifactCandidates.map artifactCandidate, value.metrics.map workerMetric⟩

def decodeAnalysisBatchResponse (value : WorkerProto.AnalysisBatchResponse) :
    Except AdapterError Transport.AnalysisBatchResponse := do
  let snapshots ← value.snapshots.mapM decodeFileAnalysisSnapshot
  let artifactCandidates ← value.artifactCandidates.mapM decodeArtifactCandidate
  .ok ⟨⟨snapshots⟩, value.timings.map decodePhaseTiming, artifactCandidates, value.metrics.map decodeWorkerMetric⟩

def analysisDelta (value : Transport.AnalysisDelta) : Except AdapterError WorkerProto.AnalysisDelta := do
  let snapshot ← value.snapshot.mapM fileAnalysisSnapshot
  .ok ⟨value.sourceUnit.asStr, value.previousContent.map (·.asStr), snapshot⟩

def decodeAnalysisDelta (value : WorkerProto.AnalysisDelta) : Except AdapterError Transport.AnalysisDelta := do
  let snapshot ← value.snapshot.mapM decodeFileAnalysisSnapshot
  .ok ⟨⟨value.sourceUnitId⟩, value.previousContentFingerprint.map Fingerprint.mk, snapshot⟩

/-! ### Artifacts -/

def artifactAnalysisRequest (value : Transport.ArtifactAnalysisRequest) : WorkerProto.ArtifactAnalysisRequest :=
  ⟨value.workspaceRoot.asStr, value.maxArtifacts, value.cursor⟩

def decodeArtifactAnalysisRequest (value : WorkerProto.ArtifactAnalysisRequest) :
    Except AdapterError Transport.ArtifactAnalysisRequest := do
  reject (value.maxArtifacts = 0) (.invalid "artifact analysis max artifacts")
  .ok ⟨⟨value.workspaceRoot⟩, value.maxArtifacts, value.cursor⟩

def artifactAnalysisResponse (value : Transport.ArtifactAnalysisResponse) :
    Except AdapterError WorkerProto.ArtifactAnalysisResponse := do
  let snapshots ← value.snapshots.mapM fileAnalysisSnapshot
  .ok ⟨snapshots, value.nextCursor⟩

def decodeArtifactAnalysisResponse (value : WorkerProto.ArtifactAnalysisResponse) :
    Except AdapterError Transport.ArtifactAnalysisResponse := do
  let snapshots ← value.snapshots.mapM decodeFileAnalysisSnapshot
  .ok ⟨snapshots, value.nextCursor⟩

def discoveryRequest (value : ArtifactDiscoveryRequest) : WorkerProto.ArtifactDiscoveryRequest :=
  ⟨value.workspaceRoot.asStr, value.maxArtifacts, value.cursor, some (executionPlan value.executionPlan)⟩

def decodeDiscoveryRequest (value : WorkerProto.ArtifactDiscoveryRequest) : Except AdapterError ArtifactDiscoveryRequest := do
  let planMessage ← required "artifact_discovery_request.execution_plan" value.executionPlan
  let executionPlan ← decodeExecutionPlan planMessage
  .ok ⟨⟨value.workspaceRoot⟩, value.maxArtifacts, value.cursor, executionPlan⟩

def symbolLocator (value : SymbolLocator) : WorkerProto.SymbolLocator := ⟨value.qualifiedName, value.symbol.asStr⟩

def decodeSymbolLocator (value : WorkerProto.SymbolLocator) : SymbolLocator := ⟨value.qualifiedName, ⟨value.symbolId⟩⟩

def descriptor (value : ArtifactDescriptor) : WorkerProto.ArtifactDescriptor where
  sourceUnitId := value.sourceUnit.id.asStr
  componentId := value.sourceUnit.component.asStr
  workspacePath := value.sourceUnit.path.asStr
  contentFingerprint := value.sourceUnit.content.asStr
  contextFingerprint := value.sourceUnit.context.asStr
  backend := value.provenance.backend
  backendVersion := value.provenance.backendVersion
  workerProtocolVersion := value.provenance.protocolVersion
  analysisOptionsFingerprint := value.provenance.analysisOptions.asStr
  language := protoLanguage value.sourceUnit.language
  origin := protoSourceOrigin value.sourceUnit.origin
  ecosystem := (value.resolvedIdentity.map (·.ecosystem)).getD ""
  canonicalCoordinate := value.resolvedIdentity.bind (·.canonicalCoordinate)
  resolvedVersion := value.resolvedIdentity.bind (·.resolvedVersion)
  symbolLocators := value.symbolLocators.map symbolLocator

/-- `ResolvedDependencyIdentity::new` -/
def resolvedDependencyIdentity (ecosystem : String) (canonicalCoordinate resolvedVersion : Option String)
    (content context : Fingerprint) (provenance : Provenance) (blobFormatVersion : Nat) : ResolvedDependencyIdentity where
  identityVersion := DEPENDENCY_IDENTITY_VERSION
  ecosystem
  canonicalCoordinate
  resolvedVersion
  content
  context
  provenance
  canonicalSchemaVersion := CANONICAL_SCHEMA_VERSION
  blobFormatVersion

/-- The identity that a descriptor is given when it arrives. -/
def identityOf (unit : SourceUnit) (provenance : Provenance) (ecosystem : String) (coordinate version : Option String) :
    Option ResolvedDependencyIdentity :=
  if ecosystem = "" then none
  else some (resolvedDependencyIdentity ecosystem coordinate version unit.content unit.context provenance ARTIFACT_BLOB_FORMAT_VERSION)

def decodeDescriptor (value : WorkerProto.ArtifactDescriptor) : Except AdapterError ArtifactDescriptor := do
  let origin ← sourceOrigin value.origin
  let sourceUnit : SourceUnit :=
    { id := ⟨value.sourceUnitId⟩
      component := ⟨value.componentId⟩
      path := ⟨value.workspacePath⟩
      language := language value.language
      origin
      content := ⟨value.contentFingerprint⟩
      context := ⟨value.contextFingerprint⟩ }
  let provenance : Provenance :=
    ⟨value.backend, value.backendVersion, value.workerProtocolVersion, ⟨value.analysisOptionsFingerprint⟩⟩
  .ok {
    sourceUnit
    provenance
    resolvedIdentity := identityOf sourceUnit provenance value.ecosystem value.canonicalCoordinate value.resolvedVersion
    symbolLocators := value.symbolLocators.map decodeSymbolLocator }

def artifactLocator (value : ArtifactLocator) : WorkerProto.ArtifactLocator := ⟨value.sourceUnit.asStr, value.locator⟩

def decodeArtifactLocator (value : WorkerProto.ArtifactLocator) : ArtifactLocator := ⟨⟨value.sourceUnitId⟩, value.locator⟩

def discoveryResponse (value : ArtifactDiscoveryResponse) : WorkerProto.ArtifactDiscoveryResponse :=
  ⟨value.artifacts.map descriptor, value.nextCursor, value.artifactLocators.map artifactLocator⟩

def decodeDiscoveryResponse (value : WorkerProto.ArtifactDiscoveryResponse) : Except AdapterError ArtifactDiscoveryResponse := do
  let artifacts ← value.artifacts.mapM decodeDescriptor
  .ok ⟨artifacts, value.nextCursor, value.artifactLocators.map decodeArtifactLocator⟩

def materializationRequest (value : ArtifactMaterializationRequest) : WorkerProto.ArtifactMaterializationRequest where
  workspaceRoot := value.workspaceRoot.asStr
  artifact := some (descriptor value.artifact)
  stagingDirectory := value.stagingDirectory
  blobFormatVersion := value.blobFormatVersion
  artifactLocator := value.artifactLocator

def decodeMaterializationRequest (value : WorkerProto.ArtifactMaterializationRequest) :
    Except AdapterError ArtifactMaterializationRequest := do
  reject (value.stagingDirectory = "") (.invalid "staging directory")
  reject (value.blobFormatVersion = 0) (.invalid "blob format version")
  let artifactMessage ← required "materialization.artifact" value.artifact
  let artifact ← decodeDescriptor artifactMessage
  .ok ⟨⟨value.workspaceRoot⟩, artifact, value.stagingDirectory, value.blobFormatVersion, value.artifactLocator⟩

def materializationResponse (value : Transport.ArtifactMaterializationResponse) :
    Fallible AdapterError WorkerProto.ArtifactMaterializationResponse := do
  returning (reject (value.stagedFilename = "" ∨ value.byteLength = 0 ∨ value.blobFormatVersion = 0)
    (.invalid "materialization completion metadata"))
  let sha256 ← sha256Bytes value.sha256
  pure ⟨value.stagedFilename, value.byteLength, sha256, value.blobFormatVersion, value.timings.map phaseTiming,
    value.metrics.map workerMetric⟩

def decodeMaterializationResponse (value : WorkerProto.ArtifactMaterializationResponse) :
    Except AdapterError Transport.ArtifactMaterializationResponse := do
  reject (value.stagedFilename = "" ∨ value.byteLength = 0 ∨ value.blobFormatVersion = 0)
    (.invalid "materialization completion metadata")
  let sha256 ← sha256Fingerprint value.sha256
  .ok ⟨⟨value.stagedFilename, value.byteLength, sha256, value.blobFormatVersion⟩, value.timings.map decodePhaseTiming,
    value.metrics.map decodeWorkerMetric⟩

/-! ### Errors -/

def workerErrorCode : WorkerErrorCode → String
  | .incompatibleProtocolVersion => "incompatible_protocol_version"
  | .invalidRequest => "invalid_request"
  | .unsupportedCapability => "unsupported_capability"
  | .analysisFailed => "analysis_failed"
  | .internal => "internal"

def decodeWorkerErrorCode (value : String) : Except AdapterError WorkerErrorCode :=
  match value with
  | "incompatible_protocol_version" => .ok .incompatibleProtocolVersion
  | "invalid_request" => .ok .invalidRequest
  | "unsupported_capability" => .ok .unsupportedCapability
  | "analysis_failed" => .ok .analysisFailed
  | "internal" => .ok .internal
  | other => .error (.unsupported ("worker error code " ++ other))

def workerError (value : WorkerError) : WorkerProto.Error :=
  ⟨workerErrorCode value.code, value.message, value.retryable, value.supportedProtocolVersion, value.receivedProtocolVersion⟩

def decodeWorkerError (value : WorkerProto.Error) : Except AdapterError WorkerError := do
  let code ← decodeWorkerErrorCode value.code
  .ok ⟨code, value.message, value.retryable, value.supportedProtocolVersion, value.receivedProtocolVersion⟩

/-! ### Envelopes -/

/-- The dispatch of `envelope`. Only the bytes of a digest are sliced out of a text. -/
def message (data : Unicode.Data) : Transport.Message → Fallible AdapterError WorkerProto.Message
  | .handshakeRequest coreVersion => pure (.handshakeRequest coreVersion)
  | .handshakeResponse capabilities => pure (.handshakeResponse (handshakeResponse capabilities))
  | .projectManifestRequest workspaceRoot => pure (.projectManifestRequest workspaceRoot.asStr)
  | .projectManifestResponse response => pure (.projectManifestResponse (projectManifestResponse data response))
  | .analyzeBatchRequest request => pure (.analyzeBatchRequest (analyzeBatchRequest data request))
  | .analysisBatchResponse response => returning ((analysisBatchResponse response).map .analysisBatchResponse)
  | .artifactAnalysisRequest request => pure (.artifactAnalysisRequest (artifactAnalysisRequest request))
  | .artifactAnalysisResponse response => returning ((artifactAnalysisResponse response).map .artifactAnalysisResponse)
  | .artifactDiscoveryRequest request => pure (.artifactDiscoveryRequest (discoveryRequest request))
  | .artifactDiscoveryResponse response => pure (.artifactDiscoveryResponse (discoveryResponse response))
  | .artifactMaterializationRequest request => pure (.artifactMaterializationRequest (materializationRequest request))
  | .artifactMaterializationResponse response => do
    let response ← materializationResponse response
    pure (.artifactMaterializationResponse response)
  | .semanticQueryRequest request => pure (.semanticQueryRequest (semanticQueryRequest request))
  | .semanticQueryResponse response => returning ((semanticQueryResponse response).map .semanticQueryResponse)
  | .analysisDelta delta => returning ((analysisDelta delta).map .analysisDelta)
  | .error error => pure (.error (workerError error))

def envelope (data : Unicode.Data) (value : Transport.Envelope) : Fallible AdapterError WorkerProto.Envelope := do
  let message ← message data value.message
  pure ⟨value.protocolVersion, value.requestId, some message⟩

/-- The dispatch of `decode_envelope`. -/
def decodeMessage : WorkerProto.Message → Except AdapterError Transport.Message
  | .handshakeRequest coreVersion => .ok (.handshakeRequest coreVersion)
  | .handshakeResponse response => (decodeHandshakeResponse response).map .handshakeResponse
  | .projectManifestRequest workspaceRoot => .ok (.projectManifestRequest ⟨workspaceRoot⟩)
  | .projectManifestResponse response => (decodeProjectManifestResponse response).map .projectManifestResponse
  | .analyzeBatchRequest request => (decodeAnalyzeBatchRequest request).map .analyzeBatchRequest
  | .analysisBatchResponse response => (decodeAnalysisBatchResponse response).map .analysisBatchResponse
  | .artifactAnalysisRequest request => (decodeArtifactAnalysisRequest request).map .artifactAnalysisRequest
  | .artifactAnalysisResponse response => (decodeArtifactAnalysisResponse response).map .artifactAnalysisResponse
  | .artifactDiscoveryRequest request => (decodeDiscoveryRequest request).map .artifactDiscoveryRequest
  | .artifactDiscoveryResponse response => (decodeDiscoveryResponse response).map .artifactDiscoveryResponse
  | .artifactMaterializationRequest request => (decodeMaterializationRequest request).map .artifactMaterializationRequest
  | .artifactMaterializationResponse response => (decodeMaterializationResponse response).map .artifactMaterializationResponse
  | .semanticQueryRequest request => (decodeSemanticQueryRequest request).map .semanticQueryRequest
  | .semanticQueryResponse response => (decodeSemanticQueryResponse response).map .semanticQueryResponse
  | .analysisDelta delta => (decodeAnalysisDelta delta).map .analysisDelta
  | .error error => (decodeWorkerError error).map .error

def decodeEnvelope (value : WorkerProto.Envelope) : Except AdapterError Transport.Envelope := do
  let proto ← required "envelope.message" value.message
  let message ← decodeMessage proto
  .ok ⟨value.protocolVersion, value.requestId, message⟩

/-! ## Values that do not come back -/

section
variable {α β : Type}

theorem map_self_iff {f : α → α} {l : List α} : l.map f = l ↔ ∀ a ∈ l, f a = a := by
  have hself := List.map_inj_left (l := l) (f := f) (g := id)
  rwa [List.map_id] at hself

theorem map_eq_ok_iff {x : Except AdapterError α} {f : α → β} {b : β} : x.map f = .ok b ↔ ∃ a, x = .ok a ∧ f a = b := by
  cases x with
  | error e =>
    constructor
    · intro h
      cases h
    · rintro ⟨a, h, -⟩
      cases h
  | ok a =>
    constructor
    · intro h
      exact ⟨a, rfl, Except.ok.inj h⟩
    · rintro ⟨_, h, rfl⟩
      cases h
      rfl

end

/-- The worker can be told by it what to do. -/
def PlanNamed (plan : OpaqueExecutionPlan) : Prop := plan.backend ≠ "" ∧ plan.resolvedFingerprint.asStr ≠ ""

theorem decodeExecutionPlan_iff {plan : OpaqueExecutionPlan} :
    decodeExecutionPlan (executionPlan plan) = .ok plan ↔ PlanNamed plan := by
  unfold decodeExecutionPlan
  rw [bind_eq_ok_iff]
  constructor
  · rintro ⟨_, hnot, -⟩
    exact not_or.1 (reject_eq_ok_iff.1 hnot)
  · intro h
    exact ⟨(), reject_eq_ok_iff.2 (not_or.2 h), rfl⟩

theorem semanticQueryCapability_iff {capability : SemanticQueryCapability} :
    decodeSemanticQueryCapability (semanticQueryCapability capability) = .ok capability ↔ capability.name ≠ "" ∧ capability.version ≠ 0 := by
  have hparameters : (capability.parameters.map semanticQueryParameter).mapM decodeSemanticQueryParameter = .ok capability.parameters :=
    mapM_map_eq_ok_self_iff.2 fun ⟨name, ty, required⟩ _ => by cases ty <;> rfl
  have hresult : decodeSemanticResultKind (semanticResultKind capability.result) = .ok capability.result := by
    cases capability.result <;> rfl
  unfold decodeSemanticQueryCapability
  rw [bind_eq_ok_iff]
  constructor
  · rintro ⟨_, hnot, -⟩
    exact not_or.1 (reject_eq_ok_iff.1 hnot)
  · intro h
    refine ⟨(), reject_eq_ok_iff.2 (not_or.2 h), ?_⟩
    dsimp only [semanticQueryCapability]
    rw [hparameters, ok_bind, hresult, ok_bind]

theorem handshakeResponse_iff {capabilities : WorkerCapabilities} :
    decodeHandshakeResponse (handshakeResponse capabilities) = .ok capabilities ↔
      (∀ language ∈ capabilities.languages, language.Canonical) ∧
        ∀ capability ∈ capabilities.semanticQueryCapabilities, capability.name ≠ "" ∧ capability.version ≠ 0 := by
  have hcapabilities : (capabilities.capabilities.map workerCapability).mapM decodeWorkerCapability = .ok capabilities.capabilities :=
    mapM_map_eq_ok_self_iff.2 fun capability _ => by cases capability <;> rfl
  have hlanguages : (capabilities.languages.map protoLanguage).map language = capabilities.languages ↔
      ∀ language ∈ capabilities.languages, language.Canonical := by
    rw [List.map_map, map_self_iff]
    exact forall₂_congr fun value _ => language_proto_iff value
  unfold decodeHandshakeResponse
  dsimp only [handshakeResponse]
  rw [hcapabilities, ok_bind, ← hlanguages, bind_eq_ok_iff]
  constructor
  · rintro ⟨queries, hqueries, h⟩
    have heq := Except.ok.inj h
    have hsame : queries = capabilities.semanticQueryCapabilities := congrArg WorkerCapabilities.semanticQueryCapabilities heq
    subst hsame
    exact ⟨congrArg WorkerCapabilities.languages heq, fun capability hcapability =>
      semanticQueryCapability_iff.1 (mapM_map_eq_ok_self_iff.1 hqueries capability hcapability)⟩
  · rintro ⟨hnames, hqueries⟩
    refine ⟨_, mapM_map_eq_ok_self_iff.2 fun capability hcapability => semanticQueryCapability_iff.2 (hqueries capability hcapability), ?_⟩
    rw [hnames]

theorem semanticQueryRequest_decodes (request : SemanticQueryRequest) :
    decodeSemanticQueryRequest (semanticQueryRequest request) = .ok request := by
  have harguments : (request.arguments.map semanticQueryArgument).mapM decodeSemanticQueryArgument = .ok request.arguments :=
    mapM_map_eq_ok_self_iff.2 fun ⟨name, value⟩ _ => by cases value <;> rfl
  have hsymbols : (request.candidateSymbols.map (·.asStr)).map SymbolId.mk = request.candidateSymbols :=
    list_map_round_trip (fun _ => rfl) _
  have hunits : (request.candidateSourceUnits.map (·.asStr)).map SourceUnitId.mk = request.candidateSourceUnits :=
    list_map_round_trip (fun _ => rfl) _
  unfold decodeSemanticQueryRequest
  dsimp only [semanticQueryRequest]
  rw [harguments, ok_bind, hsymbols, hunits]
  rfl

/-- The snapshot comes back from its message; `decode_fileAnalysisSnapshot_iff` says which of the valid ones do. -/
def SnapshotArrives (value : FileAnalysisSnapshot) : Prop := (fileAnalysisSnapshot value >>= decodeFileAnalysisSnapshot) = .ok value

theorem semanticQueryResponse_iff {response : SemanticQueryResponse} :
    (semanticQueryResponse response >>= decodeSemanticQueryResponse) = .ok response ↔
      ∀ snapshot ∈ response.snapshots, SnapshotArrives snapshot := by
  have hstate : decodeSemanticQueryResponseState (semanticQueryResponseState response.state) = .ok response.state := by
    cases response.state <;> rfl
  have hsymbols : (response.candidateSymbols.map (·.asStr)).map SymbolId.mk = response.candidateSymbols :=
    list_map_round_trip (fun _ => rfl) _
  have hdecode : ∀ messages : List WorkerProto.FileAnalysisSnapshot, decodeSemanticQueryResponse
      { capabilityName := response.capabilityName, capabilityVersion := response.capabilityVersion
        state := semanticQueryResponseState response.state, candidateSymbolIds := response.candidateSymbols.map (·.asStr)
        snapshots := messages, provenance := some (protoProvenance response.provenance), visitedNodes := response.visitedNodes
        producedBytes := response.producedBytes } =
      (messages.mapM decodeFileAnalysisSnapshot).map fun snapshots => { response with snapshots } := by
    intro messages
    unfold decodeSemanticQueryResponse
    rw [hstate, ok_bind]
    dsimp only
    rw [hsymbols]
    cases messages.mapM decodeFileAnalysisSnapshot <;> rfl
  unfold SnapshotArrives
  rw [← mapM_round_trip_iff, semanticQueryResponse, bind_assoc, bind_eq_ok_iff]
  refine exists_congr fun messages => and_congr_right fun _ => ?_
  rw [pure_bind, hdecode, map_eq_ok_iff]
  constructor
  · rintro ⟨snapshots, hsnapshots, heq⟩
    rw [hsnapshots, ← congrArg SemanticQueryResponse.snapshots heq]
  · intro h
    exact ⟨_, h, rfl⟩

/-! ### Manifests and batches -/

section
variable (data : Unicode.Data)

theorem manifest_iff {value : ProjectManifest} :
    decodeManifest (manifest data value) = .ok value ↔ ∀ component ∈ value.components, component.BuiltIn := by
  have hdependencies : (value.dependencies.map protoDependencyEdge).mapM decodeDependencyEdge = .ok value.dependencies :=
    mapM_map_eq_ok_self_iff.2 fun edge _ => decodeDependencyEdge_proto edge
  have hcomponents : (value.components.map (protoComponent data)).map decodeComponent = value.components ↔
      ∀ component ∈ value.components, component.BuiltIn := by
    rw [List.map_map, map_self_iff]
    exact forall₂_congr fun component _ => decodeComponent_proto_iff data component
  rw [← hcomponents]
  unfold decodeManifest manifest
  dsimp only [required]
  rw [ok_bind, hdependencies, ok_bind]
  constructor
  · intro h
    exact congrArg ProjectManifest.components (Except.ok.inj h)
  · intro h
    rw [h]
    rfl

theorem projectManifestResponse_iff {response : ProjectManifestResponse} :
    decodeProjectManifestResponse (projectManifestResponse data response) = .ok response ↔
      (∀ component ∈ response.manifest.components, component.BuiltIn) ∧ PlanNamed response.executionPlan := by
  rw [← manifest_iff data, ← decodeExecutionPlan_iff]
  unfold decodeProjectManifestResponse
  dsimp only [projectManifestResponse, required]
  rw [ok_bind, bind_eq_ok_iff]
  constructor
  · rintro ⟨decoded, hmanifest, h⟩
    rw [ok_bind, bind_eq_ok_iff] at h
    obtain ⟨plan, hplan, h⟩ := h
    obtain rfl := Except.ok.inj h
    exact ⟨hmanifest, hplan⟩
  · rintro ⟨hmanifest, hplan⟩
    exact ⟨_, hmanifest, bind_eq_ok_iff.2 ⟨_, rfl, bind_eq_ok_iff.2 ⟨_, hplan, rfl⟩⟩⟩

theorem analyzeBatchRequest_iff {request : AnalyzeBatchRequest} :
    decodeAnalyzeBatchRequest (analyzeBatchRequest data request) = .ok request ↔
      (∀ unit ∈ request.sourceUnits, unit.language.Canonical) ∧ PlanNamed request.executionPlan := by
  have hfacts : (request.requestedFacts.map fun fact => Unicode.toLowercase data (analysisFactDebug fact)).mapM analysisFact =
      .ok request.requestedFacts := by
    refine mapM_map_eq_ok_self_iff.2 fun fact _ => ?_
    cases fact <;> rw [analysisFactDebug, Unicode.toLowercase_ascii data (by decide)] <;> rfl
  rw [← forall₂_congr fun unit _ => decodeSourceUnit_round_trip unit, ← mapM_map_eq_ok_self_iff, ← decodeExecutionPlan_iff]
  unfold decodeAnalyzeBatchRequest
  dsimp only [analyzeBatchRequest, required]
  rw [hfacts, ok_bind, bind_eq_ok_iff]
  constructor
  · rintro ⟨units, hunits, h⟩
    rw [ok_bind, bind_eq_ok_iff] at h
    obtain ⟨plan, hplan, h⟩ := h
    have heq := Except.ok.inj h
    exact ⟨congrArg AnalyzeBatchRequest.sourceUnits heq ▸ hunits, congrArg AnalyzeBatchRequest.executionPlan heq ▸ hplan⟩
  · rintro ⟨hunits, hplan⟩
    exact ⟨_, hunits, bind_eq_ok_iff.2 ⟨_, rfl, bind_eq_ok_iff.2 ⟨_, hplan, rfl⟩⟩⟩

end

def CandidateNamed (candidate : ArtifactCandidate) : Prop :=
  candidate.locator ≠ "" ∧ candidate.component.asStr ≠ "" ∧ candidate.context.asStr ≠ ""

theorem artifactCandidate_iff {candidate : ArtifactCandidate} :
    decodeArtifactCandidate (artifactCandidate candidate) = .ok candidate ↔ CandidateNamed candidate := by
  unfold decodeArtifactCandidate CandidateNamed
  rw [bind_eq_ok_iff, ← not_or, ← not_or]
  constructor
  · rintro ⟨_, hnot, -⟩
    exact reject_eq_ok_iff.1 hnot
  · intro h
    exact ⟨(), reject_eq_ok_iff.2 h, rfl⟩

theorem timings_decode (timings : List PhaseTiming) : (timings.map phaseTiming).map decodePhaseTiming = timings :=
  list_map_round_trip (fun _ => rfl) _

theorem metrics_decode (metrics : List WorkerMetric) : (metrics.map workerMetric).map decodeWorkerMetric = metrics :=
  list_map_round_trip (fun _ => rfl) _

theorem analysisBatchResponse_iff {response : Transport.AnalysisBatchResponse} :
    (analysisBatchResponse response >>= decodeAnalysisBatchResponse) = .ok response ↔
      (∀ snapshot ∈ response.snapshots, SnapshotArrives snapshot) ∧ ∀ candidate ∈ response.artifactCandidates, CandidateNamed candidate := by
  unfold SnapshotArrives
  rw [← forall₂_congr fun candidate _ => artifactCandidate_iff, ← mapM_map_eq_ok_self_iff, ← mapM_round_trip_iff,
    analysisBatchResponse, bind_assoc, bind_eq_ok_iff, ← exists_and_right]
  refine exists_congr fun messages => ?_
  rw [and_assoc, ok_bind, decodeAnalysisBatchResponse, bind_eq_ok_iff, timings_decode, metrics_decode]
  refine and_congr_right fun _ => ?_
  constructor
  · rintro ⟨snapshots, hsnapshots, h⟩
    obtain ⟨candidates, hcandidates, h⟩ := bind_eq_ok_iff.1 h
    have heq := Except.ok.inj h
    exact ⟨congrArg (·.snapshots) heq ▸ hsnapshots, congrArg Transport.AnalysisBatchResponse.artifactCandidates heq ▸ hcandidates⟩
  · rintro ⟨hsnapshots, hcandidates⟩
    exact ⟨_, hsnapshots, bind_eq_ok_iff.2 ⟨_, hcandidates, rfl⟩⟩

theorem artifactAnalysisResponse_iff {response : Transport.ArtifactAnalysisResponse} :
    (artifactAnalysisResponse response >>= decodeArtifactAnalysisResponse) = .ok response ↔
      ∀ snapshot ∈ response.snapshots, SnapshotArrives snapshot := by
  unfold SnapshotArrives
  rw [← mapM_round_trip_iff, artifactAnalysisResponse, bind_assoc, bind_eq_ok_iff]
  refine exists_congr fun messages => and_congr_right fun _ => ?_
  rw [ok_bind, decodeArtifactAnalysisResponse, bind_eq_ok_iff]
  constructor
  · rintro ⟨snapshots, hsnapshots, h⟩
    exact congrArg Transport.ArtifactAnalysisResponse.snapshots (Except.ok.inj h) ▸ hsnapshots
  · intro h
    exact ⟨_, h, rfl⟩

theorem analysisDelta_iff {delta : Transport.AnalysisDelta} :
    (analysisDelta delta >>= decodeAnalysisDelta) = .ok delta ↔ ∀ snapshot, delta.snapshot = some snapshot → SnapshotArrives snapshot := by
  have hprevious : (delta.previousContent.map (·.asStr)).map Fingerprint.mk = delta.previousContent :=
    option_map_round_trip (fun _ => rfl) _
  obtain ⟨unit, previous, snapshot⟩ := delta
  cases snapshot with
  | none =>
    refine iff_of_true ?_ fun snapshot h => ?_
    · change Except.ok _ = Except.ok _
      dsimp only at hprevious
      rw [hprevious]
    · cases h
  | some snapshot =>
    have hwritten : (analysisDelta ⟨unit, previous, some snapshot⟩ >>= decodeAnalysisDelta) =
        (fileAnalysisSnapshot snapshot >>= decodeFileAnalysisSnapshot).map fun decoded =>
          ⟨unit, (previous.map (·.asStr)).map Fingerprint.mk, some decoded⟩ := by
      rw [analysisDelta]
      dsimp only [Option.mapM]
      cases fileAnalysisSnapshot snapshot with
      | error e => rfl
      | ok message =>
        change decodeAnalysisDelta ⟨unit.asStr, previous.map (·.asStr), some message⟩ = (decodeFileAnalysisSnapshot message).map _
        rw [decodeAnalysisDelta]
        dsimp only [Option.mapM]
        cases decodeFileAnalysisSnapshot message <;> rfl
    dsimp only at hprevious
    rw [hwritten, hprevious, map_eq_ok_iff]
    constructor
    · rintro ⟨decoded, hdecoded, heq⟩ other hother
      obtain rfl := Option.some.inj hother
      obtain rfl := Option.some.inj (congrArg Transport.AnalysisDelta.snapshot heq)
      exact hdecoded
    · intro h
      exact ⟨snapshot, h snapshot rfl, rfl⟩

/-! ### Artifacts -/

/-- The identity says of the artifact what its descriptor says, under the versions of this Core. -/
def IdentityFits (value : ArtifactDescriptor) : Prop :=
  ∀ identity, value.resolvedIdentity = some identity → identity.ecosystem ≠ "" ∧
    identity = resolvedDependencyIdentity identity.ecosystem identity.canonicalCoordinate identity.resolvedVersion
      value.sourceUnit.content value.sourceUnit.context value.provenance ARTIFACT_BLOB_FORMAT_VERSION

def DescriptorArrives (value : ArtifactDescriptor) : Prop := value.sourceUnit.language.Canonical ∧ IdentityFits value

theorem identityOf_iff (value : ArtifactDescriptor) : identityOf value.sourceUnit value.provenance
    ((value.resolvedIdentity.map (·.ecosystem)).getD "") (value.resolvedIdentity.bind (·.canonicalCoordinate))
      (value.resolvedIdentity.bind (·.resolvedVersion)) = value.resolvedIdentity ↔ IdentityFits value := by
  unfold IdentityFits identityOf
  cases value.resolvedIdentity with
  | none =>
    refine iff_of_true rfl fun identity h => ?_
    cases h
  | some identity =>
    rw [Option.map_some, Option.getD_some, Option.bind_some, Option.bind_some]
    constructor
    · intro h other hother
      obtain rfl := Option.some.inj hother
      split at h
      · cases h
      · next hne => exact ⟨hne, (Option.some.inj h).symm⟩
    · intro h
      obtain ⟨hne, heq⟩ := h identity rfl
      rw [if_neg hne, ← heq]

theorem decodeDescriptor_descriptor (value : ArtifactDescriptor) : decodeDescriptor (descriptor value) =
    .ok { sourceUnit := { value.sourceUnit with language := language (protoLanguage value.sourceUnit.language) }
          provenance := value.provenance
          resolvedIdentity := identityOf value.sourceUnit value.provenance ((value.resolvedIdentity.map (·.ecosystem)).getD "")
            (value.resolvedIdentity.bind (·.canonicalCoordinate)) (value.resolvedIdentity.bind (·.resolvedVersion))
          symbolLocators := value.symbolLocators } := by
  have hlocators : (value.symbolLocators.map symbolLocator).map decodeSymbolLocator = value.symbolLocators :=
    list_map_round_trip (fun _ => rfl) _
  unfold decodeDescriptor
  dsimp only [descriptor]
  rw [sourceOrigin_proto, ok_bind, hlocators]
  rfl

theorem descriptor_round_trip_iff {value : ArtifactDescriptor} :
    decodeDescriptor (descriptor value) = .ok value ↔ DescriptorArrives value := by
  rw [decodeDescriptor_descriptor, DescriptorArrives, ← identityOf_iff, ← language_proto_iff]
  constructor
  · intro h
    have heq := Except.ok.inj h
    exact ⟨congrArg (fun v : ArtifactDescriptor => v.sourceUnit.language) heq, congrArg ArtifactDescriptor.resolvedIdentity heq⟩
  · rintro ⟨hlanguage, hidentity⟩
    rw [hlanguage, hidentity]

theorem discoveryRequest_iff {request : ArtifactDiscoveryRequest} :
    decodeDiscoveryRequest (discoveryRequest request) = .ok request ↔ PlanNamed request.executionPlan := by
  rw [← decodeExecutionPlan_iff]
  unfold decodeDiscoveryRequest
  dsimp only [discoveryRequest, required]
  rw [ok_bind, bind_eq_ok_iff]
  constructor
  · rintro ⟨plan, hplan, h⟩
    exact congrArg ArtifactDiscoveryRequest.executionPlan (Except.ok.inj h) ▸ hplan
  · intro h
    exact ⟨_, h, rfl⟩

theorem discoveryResponse_iff {response : ArtifactDiscoveryResponse} :
    decodeDiscoveryResponse (discoveryResponse response) = .ok response ↔ ∀ value ∈ response.artifacts, DescriptorArrives value := by
  have hlocators : (response.artifactLocators.map artifactLocator).map decodeArtifactLocator = response.artifactLocators :=
    list_map_round_trip (fun _ => rfl) _
  rw [← forall₂_congr fun value _ => descriptor_round_trip_iff, ← mapM_map_eq_ok_self_iff]
  unfold decodeDiscoveryResponse
  dsimp only [discoveryResponse]
  rw [hlocators, bind_eq_ok_iff]
  constructor
  · rintro ⟨artifacts, hartifacts, h⟩
    exact congrArg ArtifactDiscoveryResponse.artifacts (Except.ok.inj h) ▸ hartifacts
  · intro h
    exact ⟨_, h, rfl⟩

theorem materializationRequest_iff {request : ArtifactMaterializationRequest} :
    decodeMaterializationRequest (materializationRequest request) = .ok request ↔
      request.stagingDirectory ≠ "" ∧ request.blobFormatVersion ≠ 0 ∧ DescriptorArrives request.artifact := by
  rw [← descriptor_round_trip_iff]
  unfold decodeMaterializationRequest
  dsimp only [materializationRequest, required]
  constructor
  · intro h
    obtain ⟨_, hdirectory, h⟩ := bind_eq_ok_iff.1 h
    obtain ⟨_, hversion, h⟩ := bind_eq_ok_iff.1 h
    rw [ok_bind, bind_eq_ok_iff] at h
    obtain ⟨artifact, hartifact, h⟩ := h
    exact ⟨reject_eq_ok_iff.1 hdirectory, reject_eq_ok_iff.1 hversion,
      congrArg ArtifactMaterializationRequest.artifact (Except.ok.inj h) ▸ hartifact⟩
  · rintro ⟨hdirectory, hversion, hartifact⟩
    exact bind_eq_ok_iff.2 ⟨(), reject_eq_ok_iff.2 hdirectory, bind_eq_ok_iff.2 ⟨(), reject_eq_ok_iff.2 hversion,
      bind_eq_ok_iff.2 ⟨_, rfl, bind_eq_ok_iff.2 ⟨_, hartifact, rfl⟩⟩⟩⟩

/-! ### Digests -/

/-- What `sha256_fingerprint` writes. -/
def digestOf (bytes : List UInt8) : Fingerprint := ⟨"sha256:" ++ String.ofList (bytes.flatMap BlobFile.hexByte)⟩

/-- The digest of a blob in lower case. -/
def IsDigest (value : Fingerprint) : Prop := ∃ bytes, bytes.length = 32 ∧ value = digestOf bytes

theorem hexByte_digits {byte : UInt8} {c : Char} (h : c ∈ BlobFile.hexByte byte) : IsHex c ∧ c.toLower = c := by
  have hall : ∀ n : Fin 16, IsHex (Nat.digitChar n) ∧ (Nat.digitChar n).toLower = Nat.digitChar n := by decide
  have hbyte := byte.toNat_lt
  rcases List.mem_pair.1 h with rfl | rfl
  · exact hall ⟨byte.toNat / 16, by omega⟩
  · exact hall ⟨byte.toNat % 16, by omega⟩

theorem sha256Bytes_digestOf {bytes : List UInt8} (h : bytes.length = 32) : sha256Bytes (digestOf bytes) = returning (.ok bytes) := by
  have hdigits : ∀ c ∈ bytes.flatMap BlobFile.hexByte, IsHex c ∧ c.toLower = c := by
    intro c hc
    obtain ⟨byte, -, hbyte⟩ := List.mem_flatMap.1 hc
    exact hexByte_digits hbyte
  have hhex : ∀ c ∈ bytes.flatMap BlobFile.hexByte, IsHex c := fun c hc => (hdigits c hc).1
  have hlength : (bytes.flatMap BlobFile.hexByte).length = 2 * 32 := by rw [BlobFile.flatMap_hexByte_length, h]
  obtain ⟨read, hread, -, hwritten⟩ := readPairs_of_digits hlength hhex
  rw [map_self_iff.2 fun c hc => (hdigits c hc).2] at hwritten
  obtain rfl := BlobFile.flatMap_hexByte_inj hwritten
  exact sha256Bytes_of_digits (prefixed_toList _) (by rw [byteLength_of_digits hhex, hlength]) hhex hread

/-- No text makes the adapter panic. -/
theorem sha256Bytes_returns (value : Fingerprint) : ∃ result, sha256Bytes value = returning result := by
  cases hstrip : stripSha256 value with
  | none => exact ⟨.error (.invalid "sha256 fingerprint prefix"), by rw [sha256Bytes, hstrip]⟩
  | some hex =>
    have hvalue := stripSha256_eq_some_iff.1 hstrip
    by_cases hdigits : ∀ c ∈ hex, IsHex c
    · by_cases hlength : byteLength hex = 64
      · have hcount : hex.length = 2 * 32 := by rw [← byteLength_of_digits hdigits, hlength]
        obtain ⟨bytes, hread, -⟩ := readPairs_of_digits hcount hdigits
        exact ⟨_, sha256Bytes_of_digits hvalue hlength hdigits hread⟩
      · refine ⟨.error (.invalid "sha256 fingerprint encoding"), ?_⟩
        rw [sha256Bytes, hstrip]
        exact if_pos (.inl hlength)
    · exact ⟨_, sha256Bytes_of_not_digits hvalue hdigits⟩

theorem sha256_round_trip_iff {value : Fingerprint} {result : Except AdapterError (List UInt8)} (h : sha256Bytes value = returning result) :
    (result >>= sha256Fingerprint) = .ok value ↔ IsDigest value := by
  constructor
  · intro hvalue
    obtain ⟨bytes, -, hwritten⟩ := bind_eq_ok_iff.1 hvalue
    unfold sha256Fingerprint at hwritten
    split at hwritten
    · cases hwritten
    · next hlength => exact ⟨bytes, not_not.1 hlength, (Except.ok.inj hwritten).symm⟩
  · rintro ⟨bytes, hlength, rfl⟩
    rw [← returning_inj ((sha256Bytes_digestOf hlength).symm.trans h), ok_bind]
    exact if_neg (not_not_intro hlength)

def CompletionNamed (response : Transport.ArtifactMaterializationResponse) : Prop :=
  response.stagedFilename ≠ "" ∧ response.byteLength ≠ 0 ∧ response.blobFormatVersion ≠ 0

theorem materializationResponse_returns (response : Transport.ArtifactMaterializationResponse) :
    ∃ written, materializationResponse response = returning written ∧
      ((written >>= decodeMaterializationResponse) = .ok response ↔ CompletionNamed response ∧ IsDigest response.sha256) := by
  obtain ⟨digest, hdigest⟩ := sha256Bytes_returns response.sha256
  refine ⟨do
    reject (response.stagedFilename = "" ∨ response.byteLength = 0 ∨ response.blobFormatVersion = 0)
      (.invalid "materialization completion metadata")
    let sha256 ← digest
    .ok ⟨response.stagedFilename, response.byteLength, sha256, response.blobFormatVersion, response.timings.map phaseTiming,
      response.metrics.map workerMetric⟩, ?_, ?_⟩
  · unfold materializationResponse
    rw [hdigest]
    exact returning_bind fun _ _ => returning_bind fun _ _ => rfl
  · rw [← sha256_round_trip_iff hdigest, CompletionNamed, ← not_or, ← not_or]
    constructor
    · intro h
      obtain ⟨message, hmessage, h⟩ := bind_eq_ok_iff.1 h
      obtain ⟨_, hnamed, hmessage⟩ := bind_eq_ok_iff.1 hmessage
      obtain ⟨bytes, hbytes, hmessage⟩ := bind_eq_ok_iff.1 hmessage
      obtain rfl := Except.ok.inj hmessage
      obtain ⟨_, -, h⟩ := bind_eq_ok_iff.1 h
      obtain ⟨written, hwritten, h⟩ := bind_eq_ok_iff.1 h
      have hsame : written = response.sha256 := congrArg (·.sha256) (Except.ok.inj h)
      exact ⟨reject_eq_ok_iff.1 hnamed, bind_eq_ok_iff.2 ⟨bytes, hbytes, hsame ▸ hwritten⟩⟩
    · rintro ⟨hnamed, hwritten⟩
      obtain ⟨bytes, hbytes, hwritten⟩ := bind_eq_ok_iff.1 hwritten
      have hreject : ∀ error : AdapterError, reject _ error = .ok () := fun error => reject_eq_ok_iff.2 hnamed
      refine bind_eq_ok_iff.2 ⟨_, bind_eq_ok_iff.2 ⟨(), hreject _, bind_eq_ok_iff.2 ⟨bytes, hbytes, rfl⟩⟩,
        bind_eq_ok_iff.2 ⟨(), hreject _, bind_eq_ok_iff.2 ⟨_, hwritten, ?_⟩⟩⟩
      dsimp only
      rw [timings_decode, metrics_decode]

/-! ## Every kind of message -/

/-- The messages that arrive as they were sent. -/
def Survives : Transport.Message → Prop
  | .handshakeRequest _ => True
  | .handshakeResponse capabilities => (∀ language ∈ capabilities.languages, language.Canonical) ∧
      ∀ capability ∈ capabilities.semanticQueryCapabilities, capability.name ≠ "" ∧ capability.version ≠ 0
  | .projectManifestRequest _ => True
  | .projectManifestResponse response => (∀ component ∈ response.manifest.components, component.BuiltIn) ∧
      PlanNamed response.executionPlan
  | .analyzeBatchRequest request => (∀ unit ∈ request.sourceUnits, unit.language.Canonical) ∧ PlanNamed request.executionPlan
  | .analysisBatchResponse response => (∀ snapshot ∈ response.snapshots, SnapshotArrives snapshot) ∧
      ∀ candidate ∈ response.artifactCandidates, CandidateNamed candidate
  | .artifactAnalysisRequest request => request.maxArtifacts ≠ 0
  | .artifactAnalysisResponse response => ∀ snapshot ∈ response.snapshots, SnapshotArrives snapshot
  | .artifactDiscoveryRequest request => PlanNamed request.executionPlan
  | .artifactDiscoveryResponse response => ∀ value ∈ response.artifacts, DescriptorArrives value
  | .artifactMaterializationRequest request => request.stagingDirectory ≠ "" ∧ request.blobFormatVersion ≠ 0 ∧
      DescriptorArrives request.artifact
  | .artifactMaterializationResponse response => CompletionNamed response ∧ IsDigest response.sha256
  | .semanticQueryRequest _ => True
  | .semanticQueryResponse response => ∀ snapshot ∈ response.snapshots, SnapshotArrives snapshot
  | .analysisDelta delta => ∀ snapshot, delta.snapshot = some snapshot → SnapshotArrives snapshot
  | .error _ => True

section
variable {α β : Type} {x : Except AdapterError α} {b : α}

/-- The constructor of a kind changes nothing. -/
theorem map_injective_iff {f : α → β} (hf : Function.Injective f) : x.map f = .ok (f b) ↔ x = .ok b := by
  rw [map_eq_ok_iff]
  constructor
  · rintro ⟨a, ha, hab⟩
    rw [ha, hf hab]
  · intro h
    exact ⟨b, h, rfl⟩

theorem map_bind (f : α → β) {γ : Type} (g : β → Except AdapterError γ) : (x.map f >>= g) = x >>= fun a => g (f a) := by
  cases x <;> rfl

theorem bind_map {γ δ : Type} {g : α → Except AdapterError γ} (f : γ → δ) : (x >>= fun a => (g a).map f) = (x >>= g).map f := by
  cases x <;> rfl

end

theorem artifactAnalysisRequest_iff {request : Transport.ArtifactAnalysisRequest} :
    decodeArtifactAnalysisRequest (artifactAnalysisRequest request) = .ok request ↔ request.maxArtifacts ≠ 0 := by
  unfold decodeArtifactAnalysisRequest
  rw [bind_eq_ok_iff]
  constructor
  · rintro ⟨_, hnot, -⟩
    exact reject_eq_ok_iff.1 hnot
  · intro h
    exact ⟨(), reject_eq_ok_iff.2 h, rfl⟩

theorem workerError_decodes (error : WorkerError) : decodeWorkerError (workerError error) = .ok error := by
  obtain ⟨code, text, retryable, supported, received⟩ := error
  cases code <;> rfl

/-- A message is written without a panic, and read as what it was exactly if it survives. -/
theorem message_returns (data : Unicode.Data) (value : Transport.Message) :
    ∃ written, message data value = returning written ∧ ((written >>= decodeMessage) = .ok value ↔ Survives value) := by
  cases value with
  | handshakeRequest coreVersion => exact ⟨_, rfl, iff_of_true rfl trivial⟩
  | projectManifestRequest workspaceRoot => exact ⟨_, rfl, iff_of_true rfl trivial⟩
  | handshakeResponse capabilities =>
    exact ⟨_, rfl, (map_injective_iff fun _ _ => Transport.Message.handshakeResponse.inj).trans handshakeResponse_iff⟩
  | projectManifestResponse response =>
    exact ⟨_, rfl, (map_injective_iff fun _ _ => Transport.Message.projectManifestResponse.inj).trans (projectManifestResponse_iff data)⟩
  | analyzeBatchRequest request =>
    exact ⟨_, rfl, (map_injective_iff fun _ _ => Transport.Message.analyzeBatchRequest.inj).trans (analyzeBatchRequest_iff data)⟩
  | artifactAnalysisRequest request =>
    exact ⟨_, rfl, (map_injective_iff fun _ _ => Transport.Message.artifactAnalysisRequest.inj).trans artifactAnalysisRequest_iff⟩
  | artifactDiscoveryRequest request =>
    exact ⟨_, rfl, (map_injective_iff fun _ _ => Transport.Message.artifactDiscoveryRequest.inj).trans discoveryRequest_iff⟩
  | artifactDiscoveryResponse response =>
    exact ⟨_, rfl, (map_injective_iff fun _ _ => Transport.Message.artifactDiscoveryResponse.inj).trans discoveryResponse_iff⟩
  | artifactMaterializationRequest request =>
    exact ⟨_, rfl, (map_injective_iff fun _ _ => Transport.Message.artifactMaterializationRequest.inj).trans materializationRequest_iff⟩
  | semanticQueryRequest request =>
    exact ⟨_, rfl, iff_of_true ((map_injective_iff fun _ _ => Transport.Message.semanticQueryRequest.inj).2
      (semanticQueryRequest_decodes request)) trivial⟩
  | error error =>
    exact ⟨_, rfl, iff_of_true ((map_injective_iff fun _ _ => Transport.Message.error.inj).2 (workerError_decodes error)) trivial⟩
  -- The messages with snapshots can fail to be written.
  | analysisBatchResponse response =>
    refine ⟨_, rfl, ?_⟩
    rw [map_bind]
    refine Iff.trans ?_ analysisBatchResponse_iff
    exact (iff_of_eq (congrArg (· = _) (bind_map _))).trans (map_injective_iff fun _ _ => Transport.Message.analysisBatchResponse.inj)
  | artifactAnalysisResponse response =>
    refine ⟨_, rfl, ?_⟩
    rw [map_bind]
    refine Iff.trans ?_ artifactAnalysisResponse_iff
    exact (iff_of_eq (congrArg (· = _) (bind_map _))).trans (map_injective_iff fun _ _ => Transport.Message.artifactAnalysisResponse.inj)
  | semanticQueryResponse response =>
    refine ⟨_, rfl, ?_⟩
    rw [map_bind]
    refine Iff.trans ?_ semanticQueryResponse_iff
    exact (iff_of_eq (congrArg (· = _) (bind_map _))).trans (map_injective_iff fun _ _ => Transport.Message.semanticQueryResponse.inj)
  | analysisDelta delta =>
    refine ⟨_, rfl, ?_⟩
    rw [map_bind]
    refine Iff.trans ?_ analysisDelta_iff
    exact (iff_of_eq (congrArg (· = _) (bind_map _))).trans (map_injective_iff fun _ _ => Transport.Message.analysisDelta.inj)
  | artifactMaterializationResponse response =>
    obtain ⟨written, hwritten, hiff⟩ := materializationResponse_returns response
    refine ⟨written.map .artifactMaterializationResponse, ?_, ?_⟩
    · change (materializationResponse response >>= fun response => pure (WorkerProto.Message.artifactMaterializationResponse response)) = _
      rw [hwritten]
      exact returning_bind fun _ _ => rfl
    · rw [map_bind]
      refine Iff.trans ?_ hiff
      exact (iff_of_eq (congrArg (· = _) (bind_map _))).trans
        (map_injective_iff fun _ _ => Transport.Message.artifactMaterializationResponse.inj)

end WorkerAdapter

end Kide
