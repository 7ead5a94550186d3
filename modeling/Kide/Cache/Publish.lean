import Kide.Cache.BlobFile

/-!
# Publishing a blob

`publish_stream`, one file operation a step: look for the blob, make the directory, create the
temporary file exclusively, write header and payload, sync, link the blob's name, remove the temporary
name. `StepOutcome` says what the file system makes of a step; a process that stops takes no more steps.

`publicationStep_effect` says once what a step can do to the directory.
-/

namespace Kide.BlobFile
open Directories

/-- What reading the payload gives: bytes, and then the end or a read error. -/
structure PayloadStream where
  bytes : Bytes
  fails : Bool
deriving DecidableEq, Repr

structure Publication where
  key : ArtifactBlobKey
  pid : Nat
  payloadLen : Nat
  stream : PayloadStream
  payloadLen_lt : payloadLen < 2 ^ 64

inductive StepOutcome where
  /-- A write goes through for `chunk + 1` bytes. -/
  | proceeds (chunk : Nat)
  /-- A write fails after `written` bytes. -/
  | fails (written : Nat)
deriving DecidableEq, Repr

inductive PublishStage where
  | check
  | makeDirectory
  | create
  | write (inode : Nat) (rest : Bytes)
  | sync (inode : Nat)
  | link (inode : Nat)
  | unlink (inode : Nat) (published : Bool)
  /-- Best-effort removal after a failed link. -/
  | discard (inode : Nat)
  | done (result : Except ArtifactBlobCacheError Bool)

namespace Publication
variable (p : Publication)

def destination : String := filename p.key

def temporary : String := temporaryName p.key p.pid

/-- `payload.take(payload_len)` -/
def payload : Bytes := p.stream.bytes.take p.payloadLen

def content : Bytes := blobHeader p.key p.payloadLen ++ p.payload

/-- The stream holds the declared payload. -/
def Full : Prop := p.payloadLen ≤ p.stream.bytes.length

instance : Decidable p.Full := inferInstanceAs (Decidable (_ ≤ _))

end Publication

/-- `destination.exists()` takes an error for an absence. -/
def publicationStep (p : Publication) (outcome : StepOutcome) (directory : CacheDirectory) :
    PublishStage → PublishStage × CacheDirectory
  | .check =>
    match outcome with
    | .proceeds _ =>
      if (directory.entries p.destination).isSome then (.done (.ok false), directory) else (.makeDirectory, directory)
    | .fails _ => (.makeDirectory, directory)
  | .makeDirectory =>
    match outcome with
    | .proceeds _ => (.create, directory)
    | .fails _ => (.done (.error .io), directory)
  | .create =>
    match outcome with
    | .proceeds _ =>
      if (directory.entries p.temporary).isSome then (.done (.ok false), directory)
      else (.write directory.next p.content, directory.createNew p.temporary)
    | .fails _ => (.done (.error .io), directory)
  | .write inode rest =>
    match outcome with
    | .proceeds chunk =>
      if rest ≠ [] then (.write inode (rest.drop (chunk + 1)), directory.append inode (rest.take (chunk + 1)))
      else if p.Full then (.sync inode, directory)
      else if p.stream.fails then (.done (.error .io), directory)
      else (.done (.error (.truncatedPayload p.payloadLen)), directory)
    | .fails written => (.done (.error .io), directory.append inode (rest.take written))
  | .sync inode =>
    match outcome with
    | .proceeds _ => (.link inode, directory)
    | .fails _ => (.done (.error .io), directory)
  | .link inode =>
    match outcome with
    | .proceeds _ =>
      if (directory.entries p.temporary).isNone then (.discard inode, directory)
      else if (directory.entries p.destination).isSome then (.unlink inode false, directory)
      else (.unlink inode true, directory.hardLink p.temporary p.destination)
    | .fails _ => (.discard inode, directory)
  | .unlink _ published =>
    match outcome with
    | .proceeds _ =>
      if (directory.entries p.temporary).isNone then (.done (.error .io), directory)
      else (.done (.ok published), directory.unlink p.temporary)
    | .fails _ => (.done (.error .io), directory)
  | .discard _ =>
    match outcome with
    | .proceeds _ => (.done (.error .io), directory.unlink p.temporary)
    | .fails _ => (.done (.error .io), directory)
  | .done result => (.done result, directory)

/-! ## What a stage knows -/

/-- The file under the temporary name, while the publisher has one. -/
def PublishStage.file : PublishStage → Option Nat
  | .write inode _ => some inode
  | .sync inode => some inode
  | .link inode => some inode
  | .unlink inode _ => some inode
  | .discard inode => some inode
  | _ => none

/-- No blob's name is bound to the file. -/
def Unpublished (directory : CacheDirectory) (inode : Nat) : Prop :=
  ∀ key, directory.entries (filename key) ≠ some inode

def Consistent (p : Publication) (directory : CacheDirectory) : PublishStage → Prop
  | .write inode rest =>
    directory.entries p.temporary = some inode ∧ Unpublished directory inode ∧ directory.files inode ++ rest = p.content
  | .sync inode =>
    directory.entries p.temporary = some inode ∧ Unpublished directory inode ∧ directory.files inode = p.content ∧ p.Full
  | .link inode =>
    directory.entries p.temporary = some inode ∧ Unpublished directory inode ∧ directory.files inode = p.content ∧ p.Full
  | .unlink inode _ => directory.entries p.temporary = some inode
  | .discard inode => directory.entries p.temporary = some inode
  | _ => True

theorem Consistent.bound {p : Publication} {directory : CacheDirectory} {stage : PublishStage} {inode : Nat}
    (h : Consistent p directory stage) (hfile : stage.file = some inode) : directory.entries p.temporary = some inode := by
  cases stage with
  | write i rest => cases hfile; exact h.1
  | sync i => cases hfile; exact h.1
  | link i => cases hfile; exact h.1
  | unlink i published => cases hfile; exact h
  | discard i => cases hfile; exact h
  | _ => cases hfile

theorem Publication.destination_ne_temporary (p q : Publication) : p.destination ≠ q.temporary :=
  fun h => temporaryName_ne_filename q.key p.key q.pid h.symm

theorem Publication.payload_length {p : Publication} (h : p.Full) : p.payload.length = p.payloadLen :=
  List.length_take_of_le h

/-- What is linked opens, with the publisher's payload. -/
theorem Publication.openContent_content {p : Publication} (h : p.Full) : openContent p.content p.key = .ok p.payload := by
  refine openContent_eq_ok_iff.2 ⟨?_, ?_⟩
  · rw [p.payload_length h]
    exact p.payloadLen_lt
  · rw [p.payload_length h]
    rfl

/-! ## What a step does -/

/-- What a step of a publisher in `stage` can make of the directory. -/
inductive Effect (p : Publication) (directory : CacheDirectory) (stage : PublishStage) : CacheDirectory → Prop
  | unchanged : Effect p directory stage directory
  | created (habsent : directory.entries p.temporary = none) : Effect p directory stage (directory.createNew p.temporary)
  | appended (inode : Nat) (rest bytes : Bytes) (hstage : stage = .write inode rest) :
      Effect p directory stage (directory.append inode bytes)
  | linked (inode : Nat) (hstage : stage = .link inode) (habsent : directory.entries p.destination = none) :
      Effect p directory stage (directory.hardLink p.temporary p.destination)
  | removed (inode : Nat) (hstage : stage.file = some inode) : Effect p directory stage (directory.unlink p.temporary)

/-- A new file is the one just created. -/
def Created (directory directory' : CacheDirectory) (inode : Nat) : Prop :=
  inode = directory.next ∧ directory.next < directory'.next

/-- The file of the next stage is the one there was, or a new one; only a file that is being written is
written on. -/
structure FileKept (directory directory' : CacheDirectory) (stage stage' : PublishStage) : Prop where
  file : ∀ inode, stage'.file = some inode → stage.file = some inode ∨ Created directory directory' inode
  written : ∀ inode rest, stage' = .write inode rest →
    (∃ rest', stage = .write inode rest') ∨ Created directory directory' inode

/-- The three things to know of a step. -/
structure StepSpec (p : Publication) (directory : CacheDirectory) (stage : PublishStage) (next : PublishStage × CacheDirectory) :
    Prop where
  effect : Effect p directory stage next.2
  consistent : Consistent p next.2 next.1
  file : FileKept directory next.2 stage next.1

/-- A step that ends the call, the directory being consistent with anything by then. -/
theorem StepSpec.finished {p : Publication} {directory directory' : CacheDirectory} {stage : PublishStage}
    {result : Except ArtifactBlobCacheError Bool} (heffect : Effect p directory stage directory') :
    StepSpec p directory stage (.done result, directory') :=
  ⟨heffect, trivial, fun _ h => (nomatch h), fun _ _ h => (nomatch h)⟩

/-- A step to a stage with the same file that leaves the directory alone. -/
theorem StepSpec.quiet {p : Publication} {directory : CacheDirectory} {stage stage' : PublishStage}
    (hconsistent : Consistent p directory stage') (hfile : stage'.file = none ∨ stage'.file = stage.file)
    (hunwritten : ∀ inode rest, stage' ≠ .write inode rest) : StepSpec p directory stage (stage', directory) := by
  refine ⟨.unchanged, hconsistent, fun inode hinode => .inl ?_, fun inode rest h => absurd h (hunwritten inode rest)⟩
  rcases hfile with hnone | hsame
  · rw [hnone] at hinode
    cases hinode
  · rwa [hsame] at hinode

theorem createStep_spec {p : Publication} {directory : CacheDirectory} (habsent : directory.entries p.temporary = none) :
    StepSpec p directory .create (.write directory.next p.content, directory.createNew p.temporary) := by
  refine ⟨.created habsent, ⟨Directory.createNew_entries_self, fun key hkey => ?_, ?_⟩, ?_⟩
  · have hkept : (directory.createNew p.temporary).entries (filename key) = directory.entries (filename key) :=
      Directory.createNew_entries_ne (temporaryName_ne_filename p.key key p.pid).symm
    exact Nat.lt_irrefl _ (directory.fresh _ _ (hkept.symm.trans hkey))
  · rw [Directory.createNew_files_next]
    rfl
  · constructor
    · rintro inode ⟨⟩
      exact .inr ⟨rfl, Nat.lt_succ_self _⟩
    · rintro inode rest ⟨⟩
      exact .inr ⟨rfl, Nat.lt_succ_self _⟩

theorem writeStep_spec {p : Publication} {directory : CacheDirectory} {inode : Nat} {rest : Bytes} (chunk : Nat)
    (h : Consistent p directory (.write inode rest)) :
    StepSpec p directory (.write inode rest)
      (.write inode (rest.drop (chunk + 1)), directory.append inode (rest.take (chunk + 1))) := by
  obtain ⟨hbound, hunpublished, hcontent⟩ := h
  refine ⟨.appended inode rest _ rfl, ⟨hbound, hunpublished, ?_⟩, ?_⟩
  · rw [Directory.append_files_self, List.append_assoc, List.take_append_drop, hcontent]
  · constructor
    · rintro _ ⟨⟩
      exact .inl rfl
    · rintro _ _ ⟨⟩
      exact .inl ⟨rest, rfl⟩

theorem linkStep_spec {p : Publication} {directory : CacheDirectory} {inode : Nat} (h : Consistent p directory (.link inode))
    (habsent : directory.entries p.destination = none) :
    StepSpec p directory (.link inode) (.unlink inode true, directory.hardLink p.temporary p.destination) := by
  refine ⟨.linked inode rfl habsent, ?_, ?_⟩
  · show (directory.hardLink p.temporary p.destination).entries p.temporary = some inode
    rw [Directory.hardLink_entries_ne (p.destination_ne_temporary p).symm]
    exact h.1
  · constructor
    · rintro _ ⟨⟩
      exact .inl rfl
    · exact fun _ _ h => (nomatch h)

theorem publicationStep_spec {p : Publication} {directory : CacheDirectory} {stage : PublishStage} (outcome : StepOutcome)
    (h : Consistent p directory stage) : StepSpec p directory stage (publicationStep p outcome directory stage) := by
  cases stage with
  | check =>
    cases outcome with
    | proceeds chunk =>
      unfold publicationStep
      dsimp only
      split
      · exact .finished .unchanged
      · exact .quiet trivial (.inl rfl) fun _ _ h => (nomatch h)
    | fails written => exact .quiet trivial (.inl rfl) fun _ _ h => (nomatch h)
  | makeDirectory =>
    cases outcome with
    | proceeds chunk => exact .quiet trivial (.inl rfl) fun _ _ h => (nomatch h)
    | fails written => exact .finished .unchanged
  | create =>
    cases outcome with
    | proceeds chunk =>
      unfold publicationStep
      dsimp only
      split
      · exact .finished .unchanged
      · next habsent => exact createStep_spec (by simpa using habsent)
    | fails written => exact .finished .unchanged
  | write inode rest =>
    cases outcome with
    | proceeds chunk =>
      unfold publicationStep
      dsimp only
      split
      · exact writeStep_spec chunk h
      next hrest =>
      split
      · next hfull =>
        obtain ⟨hbound, hunpublished, hcontent⟩ := h
        rw [not_not.1 hrest, List.append_nil] at hcontent
        exact .quiet ⟨hbound, hunpublished, hcontent, hfull⟩ (.inr rfl) fun _ _ h => (nomatch h)
      · split
        · exact .finished .unchanged
        · exact .finished .unchanged
    | fails written => exact .finished (.appended inode rest _ rfl)
  | sync inode =>
    cases outcome with
    | proceeds chunk => exact .quiet h (.inr rfl) fun _ _ h => (nomatch h)
    | fails written => exact .finished .unchanged
  | link inode =>
    cases outcome with
    | proceeds chunk =>
      unfold publicationStep
      dsimp only
      split
      · exact .quiet h.1 (.inr rfl) fun _ _ h => (nomatch h)
      split
      · exact .quiet h.1 (.inr rfl) fun _ _ h => (nomatch h)
      · next habsent => exact linkStep_spec h (by simpa using habsent)
    | fails written => exact .quiet h.1 (.inr rfl) fun _ _ h => (nomatch h)
  | unlink inode published =>
    cases outcome with
    | proceeds chunk =>
      unfold publicationStep
      dsimp only
      split
      · exact .finished .unchanged
      · exact .finished (.removed inode rfl)
    | fails written => exact .finished .unchanged
  | discard inode =>
    cases outcome with
    | proceeds chunk => exact .finished (.removed inode rfl)
    | fails written => exact .finished .unchanged
  | done result => exact .finished .unchanged

end Kide.BlobFile
