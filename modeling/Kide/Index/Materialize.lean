import Kide.Index.Orchestrator

/-!
# Materializing artifacts

A cache miss of a cataloged artifact is staged by a worker and promoted into the shared blob cache by
Core (`orchestrator.rs`, from `materialize_artifact` on).

The blob cache is a directory other processes use too: `ArtifactBlobCache` says what an operation finds
at each tick of `Index.clock`.
-/

namespace Kide
open Runs Collects

/-! ## The blob cache -/

/-- What `open_blob` finds under a key. -/
inductive BlobAnswer where
  | present (byteLength : Nat)
  | absent
  /-- A wrong header or a truncated payload. -/
  | invalid
  | failed
deriving DecidableEq, Repr

structure ArtifactBlobCache where
  opens : Nat → ResolvedDependencyIdentity → BlobAnswer
  /-- Whether an invalid blob can be deleted. -/
  removes : Nat → Bool
  /-- Whether a staged file was new, or `none` when it does not pass verification. -/
  promotes : Nat → ArtifactMaterializationResponse → Option Bool
  /-- Whether the staged file can be deleted. -/
  cleans : Nat → Bool
  cacheKey : ResolvedDependencyIdentity → Fingerprint

section
variable (cache : ArtifactBlobCache)

/-- A malformed blob is never a hit; it is deleted so that a verified one can take its place. -/
def cacheHitOrRemoveInvalid (key : ResolvedDependencyIdentity) : Run Index IndexOrchestratorError Bool := do
  let tick ← Index.tick
  match cache.opens tick key with
  | .present _ => pure true
  | .absent => pure false
  | .invalid =>
    if cache.removes tick then pure false else fail .artifactBlobCache
  | .failed => fail .artifactBlobCache

def hexDigit (c : Char) : Option Nat :=
  if '0' ≤ c ∧ c ≤ '9' then some (c.toNat - '0'.toNat)
  else if 'a' ≤ c ∧ c ≤ 'f' then some (c.toNat - 'a'.toNat + 10)
  else if 'A' ≤ c ∧ c ≤ 'F' then some (c.toNat - 'A'.toNat + 10)
  else none

/-- `u8::from_str_radix(_, 16)` on two characters; it takes a plus sign. -/
def hexByte (high low : Char) : Option Nat :=
  if high = '+' then hexDigit low
  else do
    let high ← hexDigit high
    let low ← hexDigit low
    some (16 * high + low)

def hexBytes : List Char → Option (List Nat)
  | [] => some []
  | high :: low :: rest => do
    let byte ← hexByte high low
    let bytes ← hexBytes rest
    some (byte :: bytes)
  | [_] => none

/-- The digest of a `sha256:` fingerprint. Text outside ASCII, which the source slices, is refused. -/
def sha256Bytes (value : Fingerprint) : Option (List Nat) :=
  match value.asStr.toList with
  | 's' :: 'h' :: 'a' :: '2' :: '5' :: '6' :: ':' :: hex =>
    if hex.length = 64 ∧ hex.all (·.toNat < 128) then hexBytes hex else none
  | _ => none

/-- `staging_directory.join(name).file_name() == name` -/
def isStagedFilename (name : String) : Bool :=
  name ≠ "" ∧ name ≠ "." ∧ name ≠ ".." ∧ '/' ∉ name.toList

/-- Verifies what the worker staged and promotes it; returns whether the blob was new. -/
def promoteStaged (response : ArtifactMaterializationResponse) : Run Index IndexOrchestratorError Bool :=
  if (sha256Bytes response.sha256).isNone then fail .invalidStagedArtifact
  else if isStagedFilename response.stagedFilename then do
    let tick ← Index.tick
    match cache.promotes tick response with
    | none => fail .artifactBlobCache
    | some promoted => if cache.cleans tick then pure promoted else fail .artifactBlobCache
  else fail .invalidStagedArtifact

variable (env : Environment) (supervisor : Handle) (workspaceRoot : WorkspacePath) (stagingDirectory : String)

/-- Materializes a cache miss through the worker; a blob that is there by now is taken as it is. -/
def materializeArtifact (artifact : ArtifactDescriptor) (artifactLocator : Option String) (requestId : String) :
    Orchestration Bool := do
  let cached ← first (cacheHitOrRemoveInvalid cache artifact.identity)
  if cached then pure false
  else do
    let response ← onWorkers (Workers.request env.workers supervisor (.new requestId
      (.artifactMaterializationRequest
        ⟨workspaceRoot, artifact, stagingDirectory, ARTIFACT_BLOB_LAYOUT_VERSION, artifactLocator⟩)))
    match response.message with
    | .artifactMaterializationResponse response => first (promoteStaged cache response)
    | received => fail (.invalidResponse received)

inductive MaterializationOutcome where
  | alreadyMaterialized | notCataloged | budgetExhausted | materialized
deriving DecidableEq, Repr

/-- Promotes exactly one cataloged artifact; returns the budget that is left. -/
def cacheCatalogArtifact (sourceUnit : SourceUnitId) (artifactLocator : Option String) (remainingArtifacts : Nat) :
    Orchestration (MaterializationOutcome × Nat) := do
  let descriptor ← onIndex (Index.query env.index (·.artifactDescriptor sourceUnit))
  match descriptor with
  | none => pure (.notCataloged, remainingArtifacts)
  | some descriptor => do
    let cached ← first (cacheHitOrRemoveInvalid cache descriptor.identity)
    if cached then pure (.alreadyMaterialized, remainingArtifacts)
    else if remainingArtifacts = 0 then pure (.budgetExhausted, remainingArtifacts)
    else do
      let promoted ← materializeArtifact cache env supervisor workspaceRoot stagingDirectory descriptor artifactLocator
        ("cache-materialize-" ++ sourceUnit.asStr)
      let tick ← first Index.tick
      match cache.opens tick descriptor.identity with
      | .present byteLength => do
        onIndex (Index.write env.index
          (fun disk store => store.recordArtifactBlob cache.cacheKey disk descriptor byteLength) none)
        pure (if promoted then .materialized else .alreadyMaterialized, remainingArtifacts - 1)
      | .absent => fail .invalidStagedArtifact
      | _ => fail .artifactBlobCache

end

/-! ## Planning -/

inductive DependencyAction where
  | cacheHit (descriptor : ArtifactDescriptor)
  | cacheMiss (descriptor : ArtifactDescriptor)
  | removed (descriptor : ArtifactDescriptor)
deriving DecidableEq, Repr

/-- The dependency part of an incremental plan. -/
def planDependencies (blobIsAvailable : ResolvedDependencyIdentity → Bool) (current persisted : List ArtifactDescriptor) :
    List DependencyAction :=
  (collect (·.sourceUnit.id) SourceUnitId.le current).map (fun descriptor =>
    let unchanged := (lastOf (·.sourceUnit.id) persisted descriptor.sourceUnit.id).any fun previous =>
      previous.identity = descriptor.identity
    if unchanged && blobIsAvailable descriptor.identity then .cacheHit descriptor else .cacheMiss descriptor)
  ++ ((collect (·.sourceUnit.id) SourceUnitId.le persisted).filter fun descriptor =>
      descriptor.sourceUnit.id ∉ current.map (·.sourceUnit.id)).map .removed

end Kide
