import Kide.Lib.Collect
import Kide.Protocol

/-!
# Input inventory

The records that say which inputs one published index generation was made from, and the
fingerprints over them (`input_inventory.rs`). SHA-256 is the parameter `sha256`: the hex digest of
the text Core feeds it.
-/

namespace Kide
open Collects

/-- One individually verifiable configuration or dependency-resolution input. -/
structure ConfigurationInput where
  path : WorkspacePath
  fingerprint : Fingerprint
  components : List ComponentId
deriving DecidableEq, Repr

/-- The final marker of one completely published workspace index generation. -/
structure WorkspaceCheckpoint where
  workspace : WorkspaceId
  manifest : Fingerprint
  configurationInputs : Fingerprint
  sourceInputs : Fingerprint
  artifactCatalog : Fingerprint
  committed : Bool
deriving DecidableEq, Repr

section Fingerprints
variable (sha256 : String → String)

/-- The text the digest reads: every entry, each followed by a NUL. -/
def digestInput (entries : List String) : String := entries.foldr (fun entry rest => entry ++ "\x00" ++ rest) ""

def fingerprintEntries (entries : List String) : Fingerprint :=
  ⟨"sha256:" ++ sha256 (digestInput entries)⟩

def sortEntries (entries : List String) : List String := entries.insertionSort (· ≤ ·)

def configurationEntry (input : ConfigurationInput) : String :=
  input.path.asStr ++ "\x00" ++ input.fingerprint.asStr ++ "\x00"
    ++ ",".intercalate (input.components.map (·.asStr))

def sourceEntry (source : SourceUnit) : String :=
  source.id.asStr ++ "\x00" ++ source.content.asStr ++ "\x00" ++ source.path.asStr

def artifactEntry (descriptor : ArtifactDescriptor) : String :=
  descriptor.sourceUnit.id.asStr ++ "\x00" ++ descriptor.sourceUnit.content.asStr ++ "\x00"
    ++ descriptor.sourceUnit.context.asStr

def fingerprintConfigurationInputs (inputs : List ConfigurationInput) : Fingerprint :=
  fingerprintEntries sha256 (sortEntries (inputs.map configurationEntry))

def fingerprintSourceInputs (sources : List SourceUnit) : Fingerprint :=
  fingerprintEntries sha256 (sortEntries (sources.map sourceEntry))

def fingerprintArtifactCatalog (descriptors : List ArtifactDescriptor) : Fingerprint :=
  fingerprintEntries sha256 (sortEntries (descriptors.map artifactEntry))

end Fingerprints

/-! ## Reconciliation -/

inductive ConfigurationInputState where
  | current | added | changed | missing
deriving DecidableEq, Repr

structure ConfigurationInputStatus where
  path : WorkspacePath
  state : ConfigurationInputState
  persistedFingerprint : Option Fingerprint
  currentFingerprint : Option Fingerprint
  components : List ComponentId
deriving DecidableEq, Repr

structure ConfigurationInputReconciliation where
  inputs : List ConfigurationInputStatus
  affectedComponents : List ComponentId
deriving DecidableEq, Repr

def WorkspacePath.le (a b : WorkspacePath) : Prop := a.asStr ≤ b.asStr

instance : DecidableRel WorkspacePath.le := fun a b => inferInstanceAs (Decidable (a.asStr ≤ b.asStr))

def ComponentId.le (a b : ComponentId) : Prop := a.asStr ≤ b.asStr

instance : DecidableRel ComponentId.le := fun a b => inferInstanceAs (Decidable (a.asStr ≤ b.asStr))

def configurationInputState : Option ConfigurationInput → Option ConfigurationInput → ConfigurationInputState
  | none, _ => .added
  | some _, none => .missing
  | some previous, some next =>
    if previous.fingerprint ≠ next.fingerprint ∨ previous.components ≠ next.components then .changed
    else .current

/-- The status of every path that is persisted or current, in path order. -/
def reconcileConfigurationInputs (persisted current : List ConfigurationInput) : ConfigurationInputReconciliation :=
  let inputs := (sortedKeys ConfigurationInput.path WorkspacePath.le (persisted ++ current)).map fun path =>
    let previous := lastOf ConfigurationInput.path persisted path
    let next := lastOf ConfigurationInput.path current path
    { path, state := configurationInputState previous next
      persistedFingerprint := previous.map (·.fingerprint), currentFingerprint := next.map (·.fingerprint)
      components := ((next.or previous).map (·.components)).getD [] : ConfigurationInputStatus }
  { inputs
    affectedComponents :=
      ((inputs.filter (·.state ≠ .current)).flatMap (·.components)).dedup.insertionSort ComponentId.le }

def ConfigurationInputReconciliation.allCurrent (reconciliation : ConfigurationInputReconciliation) : Bool :=
  reconciliation.inputs.all fun input => input.state = .current

end Kide
