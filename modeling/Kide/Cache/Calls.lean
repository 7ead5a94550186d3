import Kide.Cache.Publish
import Kide.Lib.Sha256
import Mathlib.Data.List.Induction

/-!
# Calls on the artifact cache, one after another

`publish`, `publish_stream` and `promote_staged`, each by a process with its id, as the file operations
of `publicationStep`. A call whose outcomes run out before the last stage is one in which the process
stopped; what it had done to the directory stays.

`Progress` says, for each stage of a call, how far the directory is from the one the call found.
-/

namespace Kide.BlobFile
open Directories

/-! ## Requests -/

/-- The worker's staged file: what `metadata`, the read for the checksum and the second `open` find. -/
structure StagedFile where
  length : Option Nat
  content : Option Bytes
  reopened : Option PayloadStream

inductive CacheRequest where
  | publish (payload : Bytes) (hlength : payload.length < 2 ^ 64)
  | publishStream (payloadLen : UInt64) (payload : PayloadStream)
  | promoteStaged (staged : StagedFile) (expectedLength : UInt64) (expectedSha256 : Bytes)

/-- The arguments of `publish_stream`. -/
structure PayloadSource where
  payloadLen : Nat
  stream : PayloadStream
  payloadLen_lt : payloadLen < 2 ^ 64

/-- What a request does ahead of `publish_stream`; it only reads. -/
def CacheRequest.source : CacheRequest → Except ArtifactBlobCacheError PayloadSource
  | .publish payload hlength => .ok ⟨payload.length, ⟨payload, false⟩, hlength⟩
  | .publishStream payloadLen payload => .ok ⟨payloadLen.toNat, payload, payloadLen.toNat_lt⟩
  | .promoteStaged staged expectedLength expectedSha256 =>
    match staged.length with
    | none => .error .io
    | some actual =>
      if actual ≠ expectedLength.toNat then .error (.stagedLengthMismatch expectedLength.toNat actual)
      else
        match staged.content with
        | none => .error .io
        | some content =>
          if Sha256.digest content ≠ expectedSha256 then .error .stagedChecksumMismatch
          else
            match staged.reopened with
            | none => .error .io
            | some stream => .ok ⟨expectedLength.toNat, stream, expectedLength.toNat_lt⟩

/-! ## Calls -/

def runPublication (p : Publication) (outcomes : List StepOutcome) (directory : CacheDirectory) :
    PublishStage × CacheDirectory :=
  outcomes.foldl (fun now outcome => publicationStep p outcome now.2 now.1) (.check, directory)

/-- What the call returned, if the process got that far. -/
def PublishStage.result : PublishStage → Option (Except ArtifactBlobCacheError Bool)
  | .done result => some result
  | _ => none

structure CacheCall where
  key : ArtifactBlobKey
  pid : Nat
  request : CacheRequest
  outcomes : List StepOutcome

namespace CacheCall
variable (call : CacheCall)

def publication (source : PayloadSource) : Publication :=
  ⟨call.key, call.pid, source.payloadLen, source.stream, source.payloadLen_lt⟩

def temporary : String := temporaryName call.key call.pid

def run (directory : CacheDirectory) : Option (Except ArtifactBlobCacheError Bool) × CacheDirectory :=
  match call.request.source with
  | .error e => (some (.error e), directory)
  | .ok source =>
    let last := runPublication (call.publication source) call.outcomes directory
    (last.1.result, last.2)

def result (directory : CacheDirectory) : Option (Except ArtifactBlobCacheError Bool) := (call.run directory).1

def after (directory : CacheDirectory) : CacheDirectory := (call.run directory).2

end CacheCall

def directoryAfter (calls : List CacheCall) : CacheDirectory :=
  calls.foldl (fun directory call => call.after directory) Directories.empty

/-- The cache holds a complete valid blob. -/
def Held (directory : CacheDirectory) (key : ArtifactBlobKey) : Prop := ∃ payload, openBlob directory key = .ok (some payload)

/-- The temporary name could not be removed after the blob was linked. -/
def CutAfterLink (p : Publication) (outcomes : List StepOutcome) (directory : CacheDirectory) : Prop :=
  ∃ before written later inode, outcomes = before ++ .fails written :: later ∧
    (runPublication p before directory).1 = .unlink inode true

/-- A call that is given what it announces, and that no operation fails. -/
structure CacheCall.Correct (call : CacheCall) (source : PayloadSource) : Prop where
  requested : call.request.source = .ok source
  full : (call.publication source).Full
  proceeds : ∀ outcome ∈ call.outcomes, ∃ chunk, outcome = .proceeds chunk
  finishes : HEADER_SIZE + source.payloadLen + 7 ≤ call.outcomes.length

/-! ## How far a call is -/

section Progress
variable {p : Publication} {d d' : CacheDirectory} {stage : PublishStage}

/-- No blob's name or content is other than before. -/
def Untouched (d d' : CacheDirectory) : Prop := ∀ key, d'.read (filename key) = d.read (filename key)

/-- The publication's content is under the blob's name, which was free before. -/
structure Published (p : Publication) (d d' : CacheDirectory) : Prop where
  absent : d.entries p.destination = none
  full : p.Full
  content : d'.read p.destination = some p.content
  others : ∀ key ≠ p.key, d'.read (filename key) = d.read (filename key)

/-- `cut` stands for a failure after the link. -/
def Progress (p : Publication) (cut : Prop) (d d' : CacheDirectory) : PublishStage → Prop
  | .check | .makeDirectory | .create => d' = d
  | .write _ _ | .sync _ | .link _ | .discard _ => Untouched d d' ∧ d.entries p.temporary = none
  | .unlink _ true => Published p d d' ∧ d.entries p.temporary = none
  | .unlink _ false => Untouched d d' ∧ d.entries p.destination ≠ none ∧ d.entries p.temporary = none
  | .done (.ok true) => Published p d d' ∧ d.entries p.temporary = none ∧ d'.entries p.temporary = none
  | .done (.ok false) =>
    Untouched d d' ∧ (d.entries p.destination ≠ none ∨ d.entries p.temporary ≠ none) ∧ d'.entries p.temporary = d.entries p.temporary
  | .done (.error _) => Untouched d d' ∨ cut

theorem Untouched.createNew (h : Untouched d d') : Untouched d (d'.createNew p.temporary) := fun key =>
  (Directory.createNew_read (temporaryName_ne_filename p.key key p.pid).symm).trans (h key)

theorem Untouched.append (h : Untouched d d') {inode : Nat} (hunpublished : Unpublished d' inode) (bytes : Bytes) :
    Untouched d (d'.append inode bytes) := fun key => (Directory.append_read (hunpublished key)).trans (h key)

theorem unlink_temporary_read (key : ArtifactBlobKey) : (d'.unlink p.temporary).read (filename key) = d'.read (filename key) :=
  Directory.unlink_read_ne (temporaryName_ne_filename p.key key p.pid).symm

theorem Untouched.unlink (h : Untouched d d') : Untouched d (d'.unlink p.temporary) := fun key =>
  (unlink_temporary_read key).trans (h key)

theorem Published.unlink (h : Published p d d') : Published p d (d'.unlink p.temporary) where
  absent := h.absent
  full := h.full
  content := (unlink_temporary_read p.key).trans h.content
  others key hkey := (unlink_temporary_read key).trans (h.others key hkey)

theorem read_eq_none_iff {name : String} : d.read name = none ↔ d.entries name = none := by
  unfold Directory.read
  rw [Option.map_eq_none_iff]

/-- The names of blobs are as they were. -/
theorem Untouched.destination (h : Untouched d d') : d'.entries p.destination = none ↔ d.entries p.destination = none := by
  rw [← read_eq_none_iff, ← read_eq_none_iff, show d'.read p.destination = d.read p.destination from h p.key]

theorem Untouched.link (h : Untouched d d') {inode : Nat} (hc : Consistent p d' (.link inode))
    (habsent : d'.entries p.destination = none) : Published p d (d'.hardLink p.temporary p.destination) := by
  obtain ⟨hbound, -, hcontent, hfull⟩ := hc
  refine ⟨h.destination.1 habsent, hfull, ?_, fun key hkey => ?_⟩
  · rw [Directory.hardLink_read_self]
    unfold Directory.read
    rw [hbound, Option.map_some, hcontent]
  · have hname : filename key ≠ p.destination := fun heq => hkey (filename_inj heq)
    rw [Directory.hardLink_read_ne hname]
    exact h key

theorem Progress.step {cut cut' : Prop} (outcome : StepOutcome) (hc : Consistent p d' stage) (h : Progress p cut d d' stage)
    (hkept : cut → cut') (hcut : ∀ inode written, stage = .unlink inode true → outcome = .fails written → cut') :
    Progress p cut' d (publicationStep p outcome d' stage).2 (publicationStep p outcome d' stage).1 := by
  have hsame : Untouched d d := fun _ => rfl
  cases stage with
  | check =>
    obtain rfl : d' = d := h
    cases outcome with
    | proceeds chunk =>
      unfold publicationStep
      dsimp only
      split
      · next hbound => exact ⟨hsame, .inl (Option.isSome_iff_ne_none.1 hbound), rfl⟩
      · exact rfl
    | fails written => exact rfl
  | makeDirectory =>
    obtain rfl : d' = d := h
    cases outcome with
    | proceeds chunk => exact rfl
    | fails written => exact .inl hsame
  | create =>
    obtain rfl : d' = d := h
    cases outcome with
    | proceeds chunk =>
      unfold publicationStep
      dsimp only
      split
      · next hbound => exact ⟨hsame, .inr (Option.isSome_iff_ne_none.1 hbound), rfl⟩
      · next habsent => exact ⟨hsame.createNew, by simpa using habsent⟩
    | fails written => exact .inl hsame
  | write inode rest =>
    obtain ⟨huntouched, hfree⟩ := h
    cases outcome with
    | proceeds chunk =>
      unfold publicationStep
      dsimp only
      split
      · exact ⟨huntouched.append hc.2.1 _, hfree⟩
      split
      · exact ⟨huntouched, hfree⟩
      split
      · exact .inl huntouched
      · exact .inl huntouched
    | fails written => exact .inl (huntouched.append hc.2.1 _)
  | sync inode =>
    cases outcome with
    | proceeds chunk => exact h
    | fails written => exact .inl h.1
  | link inode =>
    obtain ⟨huntouched, hfree⟩ := h
    cases outcome with
    | proceeds chunk =>
      unfold publicationStep
      dsimp only
      split
      · exact ⟨huntouched, hfree⟩
      split
      · next hbound =>
        have hdestination := Option.isSome_iff_ne_none.1 hbound
        exact ⟨huntouched, fun hnone => hdestination (huntouched.destination.2 hnone), hfree⟩
      · next habsent => exact ⟨huntouched.link hc (by simpa using habsent), hfree⟩
    | fails written => exact ⟨huntouched, hfree⟩
  | unlink inode published =>
    have hbound : (d'.entries p.temporary).isNone = false := by rw [show d'.entries p.temporary = some inode from hc]; rfl
    cases outcome with
    | proceeds chunk =>
      unfold publicationStep
      dsimp only
      rw [hbound, if_neg Bool.false_ne_true]
      cases published with
      | true => exact ⟨h.1.unlink, h.2, Directory.unlink_entries_self⟩
      | false => exact ⟨h.1.unlink, .inl h.2.1, Directory.unlink_entries_self.trans h.2.2.symm⟩
    | fails written =>
      cases published with
      | true => exact .inr (hcut inode written rfl rfl)
      | false => exact .inl h.1
  | discard inode =>
    cases outcome with
    | proceeds chunk => exact .inl h.1.unlink
    | fails written => exact .inl h.1
  | done result =>
    cases result with
    | ok published =>
      cases published with
      | true => exact h
      | false => exact h
    | error e => exact h.imp id hkept

end Progress

/-! ## Whole calls -/

section Runs
variable {p : Publication} {d : CacheDirectory} {outcomes : List StepOutcome}

theorem runPublication_append (outcome : StepOutcome) : runPublication p (outcomes ++ [outcome]) d =
    publicationStep p outcome (runPublication p outcomes d).2 (runPublication p outcomes d).1 := by
  unfold runPublication
  rw [List.foldl_append, List.foldl_cons, List.foldl_nil]

theorem CutAfterLink.append (h : CutAfterLink p outcomes d) (outcome : StepOutcome) : CutAfterLink p (outcomes ++ [outcome]) d := by
  obtain ⟨before, written, later, inode, rfl, hstage⟩ := h
  exact ⟨before, written, later ++ [outcome], inode, by rw [List.append_assoc, List.cons_append], hstage⟩

theorem runPublication_progress (p : Publication) (outcomes : List StepOutcome) (d : CacheDirectory) :
    Consistent p (runPublication p outcomes d).2 (runPublication p outcomes d).1 ∧
      Progress p (CutAfterLink p outcomes d) d (runPublication p outcomes d).2 (runPublication p outcomes d).1 := by
  induction outcomes using List.reverseRecOn with
  | nil => exact ⟨trivial, rfl⟩
  | append_singleton outcomes outcome ih =>
    rw [runPublication_append]
    refine ⟨(publicationStep_spec outcome ih.1).consistent, ih.2.step outcome ih.1 (·.append outcome) ?_⟩
    rintro inode written hstage rfl
    exact ⟨outcomes, written, [], inode, rfl, hstage⟩

theorem runPublication_done {result : Except ArtifactBlobCacheError Bool} (later : List StepOutcome) :
    later.foldl (fun now outcome => publicationStep p outcome now.2 now.1) (.done result, d) = (.done result, d) := by
  induction later with
  | nil => rfl
  | cons outcome later ih => exact ih

/-- The one way for a call to fail with the blob in place. -/
theorem CutAfterLink.published (h : CutAfterLink p outcomes d) :
    (runPublication p outcomes d).1 = .done (.error .io) ∧ Published p d (runPublication p outcomes d).2 := by
  obtain ⟨before, written, later, inode, rfl, hstage⟩ := h
  have hprogress := (runPublication_progress p before d).2
  rw [hstage] at hprogress
  have hcut : runPublication p (before ++ .fails written :: later) d = (.done (.error .io), (runPublication p before d).2) := by
    have hstep : publicationStep p (.fails written) (runPublication p before d).2 (runPublication p before d).1 =
        (.done (.error .io), (runPublication p before d).2) := by
      rw [hstage]
      rfl
    unfold runPublication at hstep ⊢
    rw [List.foldl_append, List.foldl_cons, hstep]
    exact runPublication_done later
  rw [hcut]
  exact ⟨rfl, hprogress.1⟩

/-! ### Calls that nothing goes wrong in -/

/-- How many operations are left at most. -/
def PublishStage.rank (p : Publication) : PublishStage → Nat
  | .check => p.content.length + 7
  | .makeDirectory => p.content.length + 6
  | .create => p.content.length + 5
  | .write _ rest => rest.length + 4
  | .sync _ => 3
  | .link _ => 2
  | .unlink _ _ | .discard _ => 1
  | .done _ => 0

/-- The stages of a call that goes well. -/
def PublishStage.Well : PublishStage → Prop
  | .discard _ | .done (.error _) => False
  | _ => True

theorem publicationStep_well {stage : PublishStage} (chunk : Nat) (hc : Consistent p d stage) (hfull : p.Full) (h : stage.Well) :
    (publicationStep p (.proceeds chunk) d stage).1.Well ∧
      (publicationStep p (.proceeds chunk) d stage).1.rank p ≤ stage.rank p - 1 := by
  have hbound : ∀ inode, stage.file = some inode → (d.entries p.temporary).isNone = false := by
    intro inode hfile
    rw [hc.bound hfile]
    rfl
  cases stage with
  | check =>
    unfold publicationStep
    dsimp only
    split
    · exact ⟨trivial, Nat.zero_le _⟩
    · exact ⟨trivial, Nat.le_refl _⟩
  | makeDirectory => exact ⟨trivial, Nat.le_refl _⟩
  | create =>
    unfold publicationStep
    dsimp only
    split
    · exact ⟨trivial, Nat.zero_le _⟩
    · exact ⟨trivial, Nat.le_refl _⟩
  | write inode rest =>
    unfold publicationStep
    dsimp only
    split
    · next hrest =>
      have hlength := List.length_pos_of_ne_nil hrest
      refine ⟨trivial, ?_⟩
      show (rest.drop (chunk + 1)).length + 4 ≤ rest.length + 4 - 1
      rw [List.length_drop]
      omega
    · refine ⟨trivial, ?_⟩
      show 3 ≤ rest.length + 4 - 1
      omega
  | sync inode => exact ⟨trivial, Nat.le_refl _⟩
  | link inode =>
    unfold publicationStep
    dsimp only
    rw [hbound inode rfl, if_neg Bool.false_ne_true]
    split
    · exact ⟨trivial, Nat.le_refl _⟩
    · exact ⟨trivial, Nat.le_refl _⟩
  | unlink inode published =>
    unfold publicationStep
    dsimp only
    rw [hbound inode rfl, if_neg Bool.false_ne_true]
    exact ⟨trivial, Nat.zero_le _⟩
  | discard inode => exact absurd h id
  | done result => exact ⟨h, Nat.zero_le _⟩

theorem runPublication_well (hfull : p.Full) (hproceeds : ∀ outcome ∈ outcomes, ∃ chunk, outcome = .proceeds chunk) :
    (runPublication p outcomes d).1.Well ∧ (runPublication p outcomes d).1.rank p ≤ p.content.length + 7 - outcomes.length := by
  induction outcomes using List.reverseRecOn with
  | nil => exact ⟨trivial, Nat.le_refl _⟩
  | append_singleton outcomes outcome ih =>
    obtain ⟨chunk, rfl⟩ := hproceeds outcome (List.mem_append_right _ List.mem_cons_self)
    obtain ⟨hwell, hrank⟩ := ih fun other hother => hproceeds other (List.mem_append_left _ hother)
    obtain ⟨hwell', hrank'⟩ := publicationStep_well chunk (runPublication_progress p outcomes d).1 hfull hwell
    rw [runPublication_append, List.length_append, List.length_singleton]
    exact ⟨hwell', by omega⟩

theorem runPublication_returns (hfull : p.Full) (hproceeds : ∀ outcome ∈ outcomes, ∃ chunk, outcome = .proceeds chunk)
    (hfinishes : p.content.length + 7 ≤ outcomes.length) : ∃ published, (runPublication p outcomes d).1 = .done (.ok published) := by
  obtain ⟨hwell, hrank⟩ := @runPublication_well p d outcomes hfull hproceeds
  have hzero : (runPublication p outcomes d).1.rank p = 0 := by omega
  cases hstage : (runPublication p outcomes d).1 with
  | done result =>
    cases result with
    | ok published => exact ⟨published, rfl⟩
    | error e =>
      rw [hstage] at hwell
      exact absurd hwell id
  | _ =>
    rw [hstage] at hzero
    exact absurd hzero (Nat.succ_ne_zero _)

/-- An operation of a publisher touches its own temporary name and the name of its blob. -/
theorem Effect.entries {directory directory' : CacheDirectory} {stage : PublishStage} (h : Effect p directory stage directory')
    {name : String} (htemporary : name ≠ p.temporary) (hdestination : name ≠ p.destination) :
    directory'.entries name = directory.entries name := by
  cases h with
  | unchanged => rfl
  | created => exact Directory.createNew_entries_ne htemporary
  | appended => rfl
  | linked => exact Directory.hardLink_entries_ne hdestination
  | removed => exact Directory.unlink_entries_ne htemporary

theorem runPublication_entries {name : String} (htemporary : name ≠ p.temporary) (hdestination : name ≠ p.destination) :
    (runPublication p outcomes d).2.entries name = d.entries name := by
  induction outcomes using List.reverseRecOn with
  | nil => rfl
  | append_singleton outcomes outcome ih =>
    rw [runPublication_append]
    exact ((publicationStep_spec outcome (runPublication_progress p outcomes d).1).effect.entries htemporary hdestination).trans ih

end Runs

/-! ## The publish law -/

section Law
variable {d : CacheDirectory} {key : ArtifactBlobKey} {call : CacheCall}

/-- Every blob's name has a complete file. -/
def Complete (d : CacheDirectory) : Prop :=
  ∀ key content, d.read (filename key) = some content → ∃ payload, openContent content key = .ok payload

theorem Complete.empty : Complete Directories.empty := fun _ _ h => (nomatch h)

theorem held_iff (h : Complete d) : Held d key ↔ d.entries (filename key) ≠ none := by
  rw [ne_eq, ← read_eq_none_iff]
  unfold Held openBlob
  cases hread : d.read (filename key) with
  | none => exact ⟨fun ⟨_, hpayload⟩ => (nomatch hpayload), fun hne => absurd rfl hne⟩
  | some content =>
    obtain ⟨payload, hpayload⟩ := h key content hread
    exact ⟨fun _ hnone => (nomatch hnone), fun _ => ⟨payload, congrArg (Except.map some) hpayload⟩⟩

theorem Untouched.openBlob {d' : CacheDirectory} (h : Untouched d d') (key : ArtifactBlobKey) :
    openBlob d' key = BlobFile.openBlob d key := by
  unfold BlobFile.openBlob
  rw [h key]

theorem Untouched.held {d' : CacheDirectory} (h : Untouched d d') : Held d' key ↔ Held d key := by
  unfold Held
  rw [h.openBlob]

theorem Published.openBlob {p : Publication} {d' : CacheDirectory} (h : Published p d d') :
    openBlob d' p.key = .ok (some p.payload) ∧ BlobFile.openBlob d p.key = .ok none := by
  unfold BlobFile.openBlob
  rw [show d'.read (filename p.key) = some p.content from h.content, show d.read (filename p.key) = none from read_eq_none_iff.2 h.absent]
  exact ⟨congrArg (Except.map some) (p.openContent_content h.full), rfl⟩

theorem Progress.complete {p : Publication} {cut : Prop} {d' : CacheDirectory} {stage : PublishStage} (hd : Complete d)
    (h : Progress p cut d d' stage) (hcut : cut → Published p d d') : Complete d' := by
  have huntouched : Untouched d d' → Complete d' := fun hu key content hread => hd key content ((hu key).symm.trans hread)
  have hpublished : Published p d d' → Complete d' := by
    intro hp key content hread
    by_cases hkey : key = p.key
    · subst hkey
      have hcontent : some p.content = some content := hp.content.symm.trans hread
      cases hcontent
      exact ⟨p.payload, p.openContent_content hp.full⟩
    · exact hd key content ((hp.others key hkey).symm.trans hread)
  cases stage with
  | check | makeDirectory | create => rwa [show d' = d from h]
  | write inode rest => exact huntouched h.1
  | sync inode => exact huntouched h.1
  | link inode => exact huntouched h.1
  | discard inode => exact huntouched h.1
  | unlink inode published =>
    cases published with
    | true => exact hpublished h.1
    | false => exact huntouched h.1
  | done result =>
    rcases result with e | published
    · exact h.elim huntouched fun hc => hpublished (hcut hc)
    cases published with
    | true => exact hpublished h.1
    | false => exact huntouched h.1

/-- What a call does: nothing before `publish_stream`, and then a publication. -/
theorem CacheCall.run_cases (call : CacheCall) (d : CacheDirectory) :
    (∃ e, call.request.source = .error e ∧ call.result d = some (.error e) ∧ call.after d = d) ∨
      ∃ source, call.request.source = .ok source ∧
        call.result d = (runPublication (call.publication source) call.outcomes d).1.result ∧
        call.after d = (runPublication (call.publication source) call.outcomes d).2 := by
  unfold CacheCall.result CacheCall.after CacheCall.run
  cases call.request.source with
  | error e => exact .inl ⟨e, rfl, rfl, rfl⟩
  | ok source => exact .inr ⟨source, rfl, rfl, rfl⟩

theorem result_eq_some {stage : PublishStage} {result : Except ArtifactBlobCacheError Bool} (h : stage.result = some result) :
    stage = .done result := by
  cases stage with
  | done found => cases h; rfl
  | _ => cases h

theorem CacheCall.after_complete (call : CacheCall) (h : Complete d) : Complete (call.after d) := by
  rcases call.run_cases d with ⟨e, -, -, hafter⟩ | ⟨source, -, -, hafter⟩
  · rwa [hafter]
  · rw [hafter]
    exact (runPublication_progress _ _ d).2.complete h fun hcut => hcut.published.2

theorem directoryAfter_append (calls : List CacheCall) (call : CacheCall) :
    directoryAfter (calls ++ [call]) = call.after (directoryAfter calls) := by
  unfold directoryAfter
  rw [List.foldl_append, List.foldl_cons, List.foldl_nil]

theorem directoryAfter_complete (calls : List CacheCall) : Complete (directoryAfter calls) := by
  induction calls using List.reverseRecOn with
  | nil => exact Complete.empty
  | append_singleton calls call ih =>
    rw [directoryAfter_append]
    exact call.after_complete ih

/-- A call that returns `Ok` leaves a blob, unless it took a file of another call for one. -/
theorem CacheCall.held_of_ok (hd : Complete d) {published : Bool} (h : call.result d = some (.ok published)) :
    (Held (call.after d) call.key ↔ Held d call.key ∨ d.entries call.temporary = none) ∧
      (call.after d).entries call.temporary = d.entries call.temporary := by
  rcases call.run_cases d with ⟨e, -, hresult, -⟩ | ⟨source, -, hresult, hafter⟩
  · rw [hresult] at h
    cases h
  have hprogress := (runPublication_progress (call.publication source) call.outcomes d).2
  rw [result_eq_some (hresult.symm.trans h), ← hafter] at hprogress
  cases published with
  | true =>
    obtain ⟨hpublished, hfree, hgone⟩ := hprogress
    exact ⟨⟨fun _ => .inr hfree, fun _ => ⟨_, hpublished.openBlob.1⟩⟩, hgone.trans hfree.symm⟩
  | false =>
    obtain ⟨huntouched, hfound, hsame⟩ := hprogress
    refine ⟨⟨fun hheld => .inl (huntouched.held.1 hheld), fun hor => huntouched.held.2 ?_⟩, hsame⟩
    rcases hor with hheld | hfree
    · exact hheld
    · exact (held_iff hd).2 (hfound.resolve_right fun hne => hne hfree)

theorem CacheCall.openBlob_of_error {e : ArtifactBlobCacheError} (h : call.result d = some (.error e)) :
    openBlob (call.after d) call.key = openBlob d call.key ↔
      ¬ ∃ source, call.request.source = .ok source ∧ CutAfterLink (call.publication source) call.outcomes d := by
  rcases call.run_cases d with ⟨e, hsource, -, hafter⟩ | ⟨source, hsource, hresult, hafter⟩
  · rw [hafter, hsource]
    exact ⟨fun _ ⟨_, hok, _⟩ => (nomatch hok), fun _ => rfl⟩
  have hprogress := (runPublication_progress (call.publication source) call.outcomes d).2
  rw [result_eq_some (hresult.symm.trans h)] at hprogress
  rw [hafter]
  constructor
  · rintro hsame ⟨_, hsource', hcut⟩
    rw [hsource] at hsource'
    cases hsource'
    obtain ⟨hafter', hbefore⟩ := hcut.published.2.openBlob
    have himpossible := hafter'.symm.trans (hsame.trans hbefore)
    cases himpossible
  · intro hnone
    exact (hprogress.resolve_right fun hcut => hnone ⟨source, hsource, hcut⟩).openBlob call.key

theorem CacheCall.Correct.returns {source : PayloadSource} (h : call.Correct source) (d : CacheDirectory) :
    ∃ published, call.result d = some (.ok published) := by
  rcases call.run_cases d with ⟨e, hsource, -, -⟩ | ⟨source', hsource, hresult, -⟩
  · rw [h.requested] at hsource
    cases hsource
  rw [h.requested] at hsource
  cases hsource
  have hcontent : (call.publication source).content.length = HEADER_SIZE + source.payloadLen := by
    unfold Publication.content
    rw [List.length_append, blobHeader_length, Publication.payload_length h.full]
    rfl
  obtain ⟨published, hdone⟩ := @runPublication_returns (call.publication source) d call.outcomes h.full h.proceeds
    (by rw [hcontent]; exact h.finishes)
  exact ⟨published, by rw [hresult, hdone]; rfl⟩

theorem CacheCall.entries_of_ne {name : String} (htemporary : name ≠ call.temporary) (hblob : ∀ key, name ≠ filename key) :
    (call.after d).entries name = d.entries name := by
  rcases call.run_cases d with ⟨e, -, -, hafter⟩ | ⟨source, -, -, hafter⟩
  · rw [hafter]
  · rw [hafter]
    exact runPublication_entries htemporary (hblob _)

/-- A temporary name is left by a call for the same key in a process of the same id that failed or stopped. -/
theorem leftover {calls : List CacheCall} {key : ArtifactBlobKey} {pid : Nat}
    (h : (directoryAfter calls).entries (temporaryName key pid) ≠ none) :
    ∃ before failed later, calls = before ++ failed :: later ∧ failed.key = key ∧ failed.pid = pid ∧
      ∀ published, failed.result (directoryAfter before) ≠ some (.ok published) := by
  induction calls using List.reverseRecOn with
  | nil => exact absurd rfl h
  | append_singleton calls call ih =>
    rw [directoryAfter_append] at h
    have hearlier : (directoryAfter calls).entries (temporaryName key pid) ≠ none →
        ∃ before failed later, calls ++ [call] = before ++ failed :: later ∧ failed.key = key ∧ failed.pid = pid ∧
          ∀ published, failed.result (directoryAfter before) ≠ some (.ok published) := by
      intro hleft
      obtain ⟨before, failed, later, rfl, hkey, hpid, hfailed⟩ := ih hleft
      exact ⟨before, failed, later ++ [call], by rw [List.append_assoc, List.cons_append], hkey, hpid, hfailed⟩
    by_cases hname : temporaryName key pid = call.temporary
    · obtain ⟨rfl, rfl⟩ := temporaryName_inj hname
      by_cases hok : ∃ published, call.result (directoryAfter calls) = some (.ok published)
      · obtain ⟨published, hok⟩ := hok
        exact hearlier ((call.held_of_ok (directoryAfter_complete calls) hok).2 ▸ h)
      · exact ⟨calls, call, [], rfl, rfl, rfl, fun published h => hok ⟨published, h⟩⟩
    · exact hearlier (call.entries_of_ne hname (temporaryName_ne_filename key · pid) ▸ h)

/-- **The publish law.** After any calls, a call that returns `Ok` leaves a valid blob if and only if one
was in place or its temporary name was free; a call that fails leaves the blob as it was if and only if it
did not fail after the link; a correct call returns `Ok`, with a blob in place under the same condition;
and a temporary name is taken only after an earlier call of that process id that failed or stopped. -/
theorem publish_law (calls : List CacheCall) (call : CacheCall) :
    (∀ published, call.result (directoryAfter calls) = some (.ok published) →
      (Held (call.after (directoryAfter calls)) call.key ↔
        Held (directoryAfter calls) call.key ∨ (directoryAfter calls).entries call.temporary = none)) ∧
    (∀ e, call.result (directoryAfter calls) = some (.error e) →
      (openBlob (call.after (directoryAfter calls)) call.key = openBlob (directoryAfter calls) call.key ↔
        ¬ ∃ source, call.request.source = .ok source ∧
          CutAfterLink (call.publication source) call.outcomes (directoryAfter calls))) ∧
    (∀ source, call.Correct source →
      ((∃ published, call.result (directoryAfter calls) = some (.ok published)) ∧
          Held (call.after (directoryAfter calls)) call.key ↔
        Held (directoryAfter calls) call.key ∨ (directoryAfter calls).entries call.temporary = none)) ∧
    ((directoryAfter calls).entries call.temporary ≠ none →
      ∃ before failed later, calls = before ++ failed :: later ∧ failed.key = call.key ∧ failed.pid = call.pid ∧
        ∀ published, failed.result (directoryAfter before) ≠ some (.ok published)) := by
  have hcomplete := directoryAfter_complete calls
  refine ⟨fun published hok => (call.held_of_ok hcomplete hok).1, fun e herror => call.openBlob_of_error herror,
    fun source hcorrect => ?_, leftover⟩
  obtain ⟨published, hok⟩ := hcorrect.returns (directoryAfter calls)
  rw [← (call.held_of_ok hcomplete hok).1]
  exact ⟨And.right, fun hheld => ⟨⟨published, hok⟩, hheld⟩⟩

end Law

/-- A stream that ends early, and the same payload in full from the same process. -/
def truncatedCall : CacheCall := ⟨⟨List.replicate 32 7, rfl⟩, 1, .publishStream 3 ⟨[1, 2], false⟩, List.replicate 62 (.proceeds 0)⟩

def retriedCall : CacheCall :=
  { truncatedCall with request := .publish [1, 2, 3] (by decide) }

theorem retry_publishes_nothing :
    ∃ calls call, (∃ source, CacheCall.Correct call source) ∧ call.result (directoryAfter calls) = some (.ok false) ∧
      ¬ Held (call.after (directoryAfter calls)) call.key := by
  refine ⟨[truncatedCall], retriedCall, ⟨⟨3, ⟨[1, 2, 3], false⟩, by decide⟩, rfl, by decide, ?_, by decide⟩, by decide +kernel, ?_⟩
  · intro outcome houtcome
    exact ⟨0, List.eq_of_mem_replicate houtcome⟩
  · have hnone : openBlob (retriedCall.after (directoryAfter [truncatedCall])) retriedCall.key = .ok none := by decide +kernel
    rintro ⟨payload, hpayload⟩
    rw [hnone] at hpayload
    cases hpayload

end Kide.BlobFile
