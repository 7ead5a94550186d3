import Kide.Canonical

/-!
# Worker protocol

The control-plane messages Core writes to a worker and reads back (`protocol.rs`), with the fields
the orchestrator, the supervisor and the commands look at.
-/

namespace Kide

/-! ## Handshake -/

inductive WorkerCapability where
  | handshake | projectManifest | fileAnalysisSnapshot | dependencyAnalysis | analysisDelta
deriving DecidableEq, Repr

structure WorkerIdentity where
  backend : String
  backendVersion : String
deriving DecidableEq, Repr

inductive SemanticQueryParameterType where
  | symbolId | componentId | string | integer
deriving DecidableEq, Repr

inductive SemanticQueryResultKind where
  | candidateSymbols | normalizedFacts
deriving DecidableEq, Repr

structure SemanticQueryParameter where
  name : String
  ty : SemanticQueryParameterType
  required : Bool
deriving DecidableEq, Repr

/-- A typed relation capability advertised as static handshake data. -/
structure SemanticQueryCapability where
  name : String
  version : Nat
  parameters : List SemanticQueryParameter
  result : SemanticQueryResultKind
deriving DecidableEq, Repr

structure WorkerCapabilities where
  identity : WorkerIdentity
  protocolVersion : Nat
  languages : List Language
  capabilities : List WorkerCapability
  semanticQueryCapabilities : List SemanticQueryCapability
deriving DecidableEq, Repr

/-! ## Project manifest and analysis -/

/-- Backend-owned, run-local execution inputs; Core compares the resolved fingerprint only. -/
structure OpaqueExecutionPlan where
  backend : String
  resolvedFingerprint : Fingerprint
  payload : List UInt8
deriving DecidableEq

structure ProjectManifestResponse where
  manifest : ProjectManifest
  executionPlan : OpaqueExecutionPlan
deriving DecidableEq

inductive AnalysisFact where
  | symbols | occurrences | references | calls | hierarchy | types
deriving DecidableEq, Repr

structure AnalyzeBatchRequest where
  workspace : WorkspaceId
  projectFingerprint : Fingerprint
  requestedFacts : List AnalysisFact
  sourceUnits : List SourceUnit
  executionPlan : OpaqueExecutionPlan
deriving DecidableEq

structure AnalysisBatchResponse where
  snapshots : List FileAnalysisSnapshot
deriving DecidableEq

/-! ## Dependency artifacts -/

def CANONICAL_SCHEMA_VERSION : Nat := 1

def DEPENDENCY_IDENTITY_VERSION : Nat := 1

def ARTIFACT_BLOB_FORMAT_VERSION : Nat := 1

def ARTIFACT_BLOB_LAYOUT_VERSION : Nat := 1

/-- Compatibility identity of one resolved dependency artifact. -/
structure ResolvedDependencyIdentity where
  identityVersion : Nat
  ecosystem : String
  canonicalCoordinate : Option String
  resolvedVersion : Option String
  content : Fingerprint
  context : Fingerprint
  provenance : Provenance
  canonicalSchemaVersion : Nat
  blobFormatVersion : Nat
deriving DecidableEq, Repr

/-- Lightweight catalog entry; it carries no graph facts. -/
structure SymbolLocator where
  qualifiedName : String
  symbol : SymbolId
deriving DecidableEq, Repr

/-- A resolved artifact identity without its semantic payload. -/
structure ArtifactDescriptor where
  sourceUnit : SourceUnit
  provenance : Provenance
  resolvedIdentity : Option ResolvedDependencyIdentity
  symbolLocators : List SymbolLocator
deriving DecidableEq, Repr

/-- The identity of an artifact whose coordinate is not known. -/
def ResolvedDependencyIdentity.unattributed (content context : Fingerprint) (provenance : Provenance)
    (blobFormatVersion : Nat) : ResolvedDependencyIdentity :=
  { identityVersion := DEPENDENCY_IDENTITY_VERSION, ecosystem := "unknown", canonicalCoordinate := none
    resolvedVersion := none, content, context, provenance
    canonicalSchemaVersion := CANONICAL_SCHEMA_VERSION, blobFormatVersion }

def ArtifactDescriptor.identity (descriptor : ArtifactDescriptor) : ResolvedDependencyIdentity :=
  descriptor.resolvedIdentity.getD
    (.unattributed descriptor.sourceUnit.content descriptor.sourceUnit.context descriptor.provenance
      ARTIFACT_BLOB_FORMAT_VERSION)

/-- Ephemeral mapping returned with a catalog page. -/
structure ArtifactLocator where
  sourceUnit : SourceUnitId
  locator : String
deriving DecidableEq, Repr

structure ArtifactDiscoveryRequest where
  workspaceRoot : WorkspacePath
  maxArtifacts : Nat
  cursor : Option String
  executionPlan : OpaqueExecutionPlan
deriving DecidableEq

structure ArtifactDiscoveryResponse where
  artifacts : List ArtifactDescriptor
  nextCursor : Option String
  artifactLocators : List ArtifactLocator
deriving DecidableEq

/-- Instructs a worker to materialize an artifact into a Core-provided staging location. -/
structure ArtifactMaterializationRequest where
  workspaceRoot : WorkspacePath
  artifact : ArtifactDescriptor
  stagingDirectory : String
  blobFormatVersion : Nat
  artifactLocator : Option String
deriving DecidableEq

/-- Metadata for a staged artifact blob. -/
structure ArtifactMaterializationResponse where
  stagedFilename : String
  byteLength : Nat
  sha256 : Fingerprint
  blobFormatVersion : Nat
deriving DecidableEq

/-! ## Semantic queries -/

inductive SemanticQueryArgumentValue where
  | symbolId (value : SymbolId)
  | componentId (value : ComponentId)
  | string (value : String)
  | integer (value : Int)
deriving DecidableEq, Repr

structure SemanticQueryArgument where
  name : String
  value : SemanticQueryArgumentValue
deriving DecidableEq, Repr

structure SemanticQueryBudget where
  maxCandidates : Nat
  maxNodes : Nat
  maxBytes : Nat
  deadlineMillis : Nat
deriving DecidableEq, Repr

structure SemanticQueryRequest where
  capabilityName : String
  capabilityVersion : Nat
  arguments : List SemanticQueryArgument
  candidateSymbols : List SymbolId
  candidateSourceUnits : List SourceUnitId
  budget : SemanticQueryBudget
deriving DecidableEq

inductive SemanticQueryResponseState where
  | complete | partially | unsupported
deriving DecidableEq, Repr

structure SemanticQueryResponse where
  capabilityName : String
  capabilityVersion : Nat
  state : SemanticQueryResponseState
  candidateSymbols : List SymbolId
  snapshots : List FileAnalysisSnapshot
  provenance : Provenance
  visitedNodes : Nat
  producedBytes : Nat
deriving DecidableEq

/-! ## Envelopes -/

inductive WorkerErrorCode where
  | incompatibleProtocolVersion | invalidRequest | unsupportedCapability | analysisFailed | internal
deriving DecidableEq, Repr

structure WorkerError where
  code : WorkerErrorCode
  message : String
  retryable : Bool
  supportedProtocolVersion : Nat
  receivedProtocolVersion : Option Nat
deriving DecidableEq, Repr

/-- Canonical control-plane message. `other` stands for the kinds Core neither sends nor expects on
the paths modelled here (artifact analysis and deltas). -/
inductive WorkerMessage where
  | handshakeRequest (coreVersion : String)
  | handshakeResponse (capabilities : WorkerCapabilities)
  | projectManifestRequest (workspaceRoot : WorkspacePath)
  | projectManifestResponse (response : ProjectManifestResponse)
  | analyzeBatchRequest (request : AnalyzeBatchRequest)
  | analysisBatchResponse (response : AnalysisBatchResponse)
  | artifactDiscoveryRequest (request : ArtifactDiscoveryRequest)
  | artifactDiscoveryResponse (response : ArtifactDiscoveryResponse)
  | artifactMaterializationRequest (request : ArtifactMaterializationRequest)
  | artifactMaterializationResponse (response : ArtifactMaterializationResponse)
  | semanticQueryRequest (request : SemanticQueryRequest)
  | semanticQueryResponse (response : SemanticQueryResponse)
  | error (error : WorkerError)
  | other (kind : String)
deriving DecidableEq

structure WorkerEnvelope where
  protocolVersion : Nat
  requestId : String
  message : WorkerMessage
deriving DecidableEq

def WorkerEnvelope.new (requestId : String) (message : WorkerMessage) : WorkerEnvelope :=
  ⟨WORKER_PROTOCOL_VERSION, requestId, message⟩

end Kide
