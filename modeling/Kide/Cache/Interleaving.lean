import Kide.Cache.Publish
import Kide.Lib.Trace

/-!
# Publishers and readers of one directory

Any number of processes on one cache directory, each taking its file operations one at a time in any
order of all: publishers, readers that open a blob, and removals of a blob's name. A process may stop
at any point and leaves behind what it has done.

`Sound` is the invariant. It rests on the order of a publication (a file is complete before it gets a
blob's name and is never written again) and on names: a temporary name is no blob's name.
-/

namespace Kide.BlobFile
open Directories Traces

/-! ## Readers -/

/-- `open_blob`, operation by operation; a blob is its open file with the payload's length. -/
inductive ReadStage where
  | start
  | opened (inode : Nat)
  | validated (inode payloadLen : Nat)
  | returned (result : Except ArtifactBlobCacheError (Option (Nat × Nat)))
deriving DecidableEq

def readStep (key : ArtifactBlobKey) (outcome : StepOutcome) (directory : CacheDirectory) : ReadStage → ReadStage
  | .start =>
    match outcome with
    | .proceeds _ =>
      match directory.entries (filename key) with
      | none => .returned (.ok none)
      | some inode => .opened inode
    | .fails _ => .returned (.error .io)
  | .opened inode =>
    match outcome with
    | .proceeds _ =>
      if (directory.files inode).length < HEADER_SIZE then .returned (.error .invalidHeader)
      else
        match validateHeader ((directory.files inode).take HEADER_SIZE) key with
        | .ok payloadLen => .validated inode payloadLen
        | .error e => .returned (.error e)
    | .fails _ => .returned (.error .io)
  | .validated inode payloadLen =>
    match outcome with
    | .proceeds _ =>
      if (directory.files inode).length ≠ HEADER_SIZE + payloadLen then .returned (.error .invalidHeader)
      else .returned (.ok (some (inode, payloadLen)))
    | .fails _ => .returned (.error .io)
  | .returned result => .returned result

/-! ## The system -/

structure CacheSystem where
  directory : CacheDirectory
  publishers : Nat → Option (Publication × PublishStage)
  readers : Nat → Option (ArtifactBlobKey × ReadStage)
  /-- Every publication there ever was. -/
  started : List Publication

/-- One operation of one process; the label is the key of a removal. -/
inductive CacheStep : Option ArtifactBlobKey → CacheSystem → CacheSystem → Prop
  | startPublish {s : CacheSystem} (handle : Nat) (p : Publication) (hfree : s.publishers handle = none) :
      CacheStep none s { s with
        publishers := Function.update s.publishers handle (some (p, .check)), started := p :: s.started }
  | publish {s : CacheSystem} (handle : Nat) (p : Publication) (stage : PublishStage) (outcome : StepOutcome)
      (hrunning : s.publishers handle = some (p, stage)) :
      CacheStep none s { s with
        directory := (publicationStep p outcome s.directory stage).2
        publishers := Function.update s.publishers handle (some (p, (publicationStep p outcome s.directory stage).1)) }
  | stopPublish {s : CacheSystem} (handle : Nat) :
      CacheStep none s { s with publishers := Function.update s.publishers handle none }
  | startRead {s : CacheSystem} (handle : Nat) (key : ArtifactBlobKey) :
      CacheStep none s { s with readers := Function.update s.readers handle (some (key, .start)) }
  | read {s : CacheSystem} (handle : Nat) (key : ArtifactBlobKey) (stage : ReadStage) (outcome : StepOutcome)
      (hrunning : s.readers handle = some (key, stage)) :
      CacheStep none s { s with
        readers := Function.update s.readers handle (some (key, readStep key outcome s.directory stage)) }
  | removeInvalid {s : CacheSystem} (key : ArtifactBlobKey) :
      CacheStep (some key) s { s with directory := s.directory.unlink (filename key) }

/-- A step of any kind. -/
def AnyStep (s s' : CacheSystem) : Prop := ∃ label, CacheStep label s s'

/-- A step that does not remove the blob of `key`. -/
def KeepingStep (key : ArtifactBlobKey) (s s' : CacheSystem) : Prop := ∃ label, label ≠ some key ∧ CacheStep label s s'

def CacheSystem.on (directory : CacheDirectory) : CacheSystem := ⟨directory, fun _ => none, fun _ => none, []⟩

/-! ## What is never written again -/

/-- No publisher writes the file. -/
structure Settled (s : CacheSystem) (inode : Nat) : Prop where
  known : inode < s.directory.next
  unwritten : ∀ handle p rest, s.publishers handle ≠ some (p, .write inode rest)

/-- The file holds the full payload of one publication for the key. -/
def PublishedBy (s : CacheSystem) (key : ArtifactBlobKey) (inode : Nat) : Prop :=
  ∃ p ∈ s.started, p.key = key ∧ p.Full ∧ s.directory.files inode = p.content

theorem Effect.next_le {p : Publication} {directory directory' : CacheDirectory} {stage : PublishStage}
    (h : Effect p directory stage directory') : directory.next ≤ directory'.next := by
  cases h with
  | created => exact Nat.le_succ _
  | _ => exact Nat.le_refl _

/-- Only the file of a publisher that writes changes. -/
theorem Effect.files {p : Publication} {directory directory' : CacheDirectory} {stage : PublishStage}
    (h : Effect p directory stage directory') {inode : Nat} (hknown : inode < directory.next)
    (hunwritten : ∀ rest, stage ≠ .write inode rest) : directory'.files inode = directory.files inode := by
  cases h with
  | unchanged => rfl
  | created => exact Function.update_of_ne (Nat.ne_of_lt hknown) ..
  | appended i rest bytes hstage =>
    refine Directory.append_files_ne fun heq => ?_
    subst heq
    exact hunwritten rest hstage
  | linked => rfl
  | removed => rfl

/-- The names of blobs: bound to a complete file at a link, and otherwise as they were. -/
theorem Effect.filename {p : Publication} {directory directory' : CacheDirectory} {stage : PublishStage}
    (h : Effect p directory stage directory') (key : ArtifactBlobKey) :
    directory'.entries (filename key) = directory.entries (filename key) ∨
      directory.entries (filename key) = none ∧ key = p.key ∧ (∃ inode, stage = .link inode) ∧
        directory'.entries (filename key) = directory.entries p.temporary := by
  cases h with
  | unchanged => exact .inl rfl
  | created => exact .inl (Directory.createNew_entries_ne (temporaryName_ne_filename p.key key p.pid).symm)
  | appended => exact .inl rfl
  | linked inode hstage habsent =>
    by_cases hkey : BlobFile.filename key = p.destination
    · right
      have hsame := filename_inj hkey
      subst hsame
      exact ⟨habsent, rfl, ⟨inode, hstage⟩, Directory.hardLink_entries_self⟩
    · exact .inl (Directory.hardLink_entries_ne hkey)
  | removed => exact .inl (Directory.unlink_entries_ne (temporaryName_ne_filename p.key key p.pid).symm)

theorem update_cases {α β : Type} [DecidableEq α] {f : α → β} {a b : α} {v x : β} (h : Function.update f a v b = x) :
    b = a ∧ v = x ∨ b ≠ a ∧ f b = x := by
  by_cases hb : b = a
  · subst hb
    rw [Function.update_self] at h
    exact .inl ⟨rfl, h⟩
  · rw [Function.update_of_ne hb] at h
    exact .inr ⟨hb, h⟩

theorem CacheStep.settled {label : Option ArtifactBlobKey} {s s' : CacheSystem} {inode : Nat} (h : CacheStep label s s')
    (hconsistent : ∀ handle p stage, s.publishers handle = some (p, stage) → Consistent p s.directory stage)
    (hsettled : Settled s inode) : Settled s' inode ∧ s'.directory.files inode = s.directory.files inode := by
  obtain ⟨hknown, hunwritten⟩ := hsettled
  cases h with
  | startPublish handle p hfree =>
    refine ⟨⟨hknown, fun other q rest heq => ?_⟩, rfl⟩
    rcases update_cases heq with ⟨-, heq⟩ | ⟨-, heq⟩
    · cases heq
    · exact hunwritten other q rest heq
  | publish handle p stage outcome hrunning =>
    have hspec := publicationStep_spec outcome (hconsistent handle p stage hrunning)
    have hstage : ∀ rest, stage ≠ .write inode rest := fun rest heq => hunwritten handle p rest (heq ▸ hrunning)
    refine ⟨⟨Nat.lt_of_lt_of_le hknown hspec.effect.next_le, fun other q rest heq => ?_⟩, hspec.effect.files hknown hstage⟩
    rcases update_cases heq with ⟨-, heq⟩ | ⟨-, heq⟩
    · obtain ⟨-, heq⟩ := Prod.mk.inj (Option.some.inj heq)
      rcases hspec.file.written inode rest heq with ⟨rest', hwrote⟩ | ⟨hnew, -⟩
      · exact hstage rest' hwrote
      · exact absurd hnew (Nat.ne_of_lt hknown)
    · exact hunwritten other q rest heq
  | stopPublish handle =>
    refine ⟨⟨hknown, fun other q rest heq => ?_⟩, rfl⟩
    rcases update_cases heq with ⟨-, heq⟩ | ⟨-, heq⟩
    · cases heq
    · exact hunwritten other q rest heq
  | startRead handle key => exact ⟨⟨hknown, hunwritten⟩, rfl⟩
  | read handle key stage outcome hrunning => exact ⟨⟨hknown, hunwritten⟩, rfl⟩
  | removeInvalid key => exact ⟨⟨hknown, hunwritten⟩, rfl⟩

/-! ## The publishers beside one that steps -/

/-- What one publisher knows stays true while another one steps on a file of its own. -/
theorem Consistent.beside {p q : Publication} {directory directory' : CacheDirectory} {stage other : PublishStage}
    (h : Consistent q directory other) (hp : Consistent p directory stage) (heffect : Effect p directory stage directory')
    (hapart : ∀ inode, stage.file = some inode → other.file ≠ some inode) : Consistent q directory' other := by
  have hbound : ∀ inode, other.file = some inode → directory'.entries q.temporary = some inode := by
    intro inode hfile
    have hq := h.bound hfile
    cases heffect with
    | unchanged => exact hq
    | created habsent =>
      rw [Directory.createNew_entries_ne fun heq => ?_]
      · exact hq
      · rw [heq, habsent] at hq
        cases hq
    | appended i rest bytes hstage => exact hq
    | linked i hstage habsent =>
      rw [Directory.hardLink_entries_ne (p.destination_ne_temporary q).symm]
      exact hq
    | removed i hstage =>
      rw [Directory.unlink_entries_ne fun heq => ?_]
      · exact hq
      · rw [heq, hp.bound hstage] at hq
        cases hq
        exact hapart _ hstage hfile
  have hunpublished : ∀ inode, other.file = some inode → Unpublished directory inode → Unpublished directory' inode := by
    intro inode hfile hold key
    rcases heffect.filename key with hsame | ⟨-, -, ⟨i, rfl⟩, hlinked⟩
    · rw [hsame]
      exact hold key
    · rw [hlinked, hp.bound rfl]
      rintro ⟨⟩
      exact hapart _ rfl hfile
  have hfiles : ∀ inode, other.file = some inode → directory'.files inode = directory.files inode := by
    intro inode hfile
    refine heffect.files (directory.fresh _ _ (h.bound hfile)) fun rest heq => ?_
    subst heq
    exact hapart _ rfl hfile
  cases other with
  | write inode rest => exact ⟨hbound inode rfl, hunpublished inode rfl h.2.1, hfiles inode rfl ▸ h.2.2⟩
  | sync inode => exact ⟨hbound inode rfl, hunpublished inode rfl h.2.1, hfiles inode rfl ▸ h.2.2⟩
  | link inode => exact ⟨hbound inode rfl, hunpublished inode rfl h.2.1, hfiles inode rfl ▸ h.2.2⟩
  | unlink inode published => exact hbound inode rfl
  | discard inode => exact hbound inode rfl
  | _ => trivial

/-- Removing a blob's name is no matter of a publisher. -/
theorem Consistent.unlink_filename {q : Publication} {directory : CacheDirectory} {stage : PublishStage}
    (h : Consistent q directory stage) (key : ArtifactBlobKey) : Consistent q (directory.unlink (filename key)) stage := by
  have hbound : ∀ inode, stage.file = some inode → (directory.unlink (filename key)).entries q.temporary = some inode := by
    intro inode hfile
    have hname : q.temporary ≠ filename key := temporaryName_ne_filename q.key key q.pid
    rw [Directory.unlink_entries_ne hname]
    exact h.bound hfile
  have hunpublished : ∀ inode, Unpublished directory inode → Unpublished (directory.unlink (filename key)) inode := by
    intro inode hold other
    by_cases hkey : filename other = filename key
    · rw [hkey, Directory.unlink_entries_self]
      intro h
      cases h
    · rw [Directory.unlink_entries_ne hkey]
      exact hold other
  cases stage with
  | write inode rest => exact ⟨hbound inode rfl, hunpublished inode h.2.1, h.2.2⟩
  | sync inode => exact ⟨hbound inode rfl, hunpublished inode h.2.1, h.2.2⟩
  | link inode => exact ⟨hbound inode rfl, hunpublished inode h.2.1, h.2.2⟩
  | unlink inode published => exact hbound inode rfl
  | discard inode => exact hbound inode rfl
  | _ => trivial

/-! ## The invariant -/

/-- The file a reader has open. -/
def ReadStage.file : ReadStage → Option Nat
  | .opened inode => some inode
  | .validated inode _ => some inode
  | .returned (.ok (some blob)) => some blob.1
  | _ => none

/-- What a reader has found out about its file. -/
def ReadStage.Agrees (directory : CacheDirectory) (key : ArtifactBlobKey) : ReadStage → Prop
  | .validated inode payloadLen => validateHeader ((directory.files inode).take HEADER_SIZE) key = .ok payloadLen
  | .returned (.ok (some (inode, payloadLen))) =>
    ∃ payload, openContent (directory.files inode) key = .ok payload ∧ payload.length = payloadLen
  | _ => True

/-- A file that is in place from before, or one publication's. -/
def Placed (initial : CacheDirectory) (s : CacheSystem) (key : ArtifactBlobKey) (inode : Nat) : Prop :=
  initial.entries (filename key) = some inode ∨ PublishedBy s key inode

structure Sound (initial : CacheDirectory) (s : CacheSystem) : Prop where
  consistent : ∀ handle p stage, s.publishers handle = some (p, stage) → Consistent p s.directory stage
  started : ∀ handle p stage, s.publishers handle = some (p, stage) → p ∈ s.started
  apart : ∀ handle other p q stage stage' inode, s.publishers handle = some (p, stage) → s.publishers other = some (q, stage') →
    handle ≠ other → stage.file = some inode → stage'.file ≠ some inode
  newer : ∀ handle p stage inode, s.publishers handle = some (p, stage) → stage.file = some inode → initial.next ≤ inode
  grown : initial.next ≤ s.directory.next
  old : ∀ inode < initial.next, s.directory.files inode = initial.files inode
  placed : ∀ key inode, s.directory.entries (filename key) = some inode → Placed initial s key inode
  readers : ∀ handle key stage, s.readers handle = some (key, stage) → stage.Agrees s.directory key ∧
    ∀ inode, stage.file = some inode → Settled s inode ∧ Placed initial s key inode

theorem Sound.start (initial : CacheDirectory) : Sound initial (CacheSystem.on initial) where
  consistent _ _ _ h := nomatch h
  started _ _ _ h := nomatch h
  apart _ _ _ _ _ _ _ h := nomatch h
  newer _ _ _ _ h := nomatch h
  grown := Nat.le_refl _
  old _ _ := rfl
  placed _ _ h := .inl h
  readers _ _ _ h := nomatch h

theorem Sound.settled_old {initial : CacheDirectory} {s : CacheSystem} (h : Sound initial s) {inode : Nat}
    (hold : inode < initial.next) : Settled s inode := by
  refine ⟨Nat.lt_of_lt_of_le hold h.grown, fun handle p rest hrunning => ?_⟩
  exact Nat.not_le_of_lt hold (h.newer handle p _ inode hrunning rfl)

/-- No file under a blob's name is being written. -/
theorem Sound.settled_bound {initial : CacheDirectory} {s : CacheSystem} (h : Sound initial s) {key : ArtifactBlobKey} {inode : Nat}
    (hbound : s.directory.entries (filename key) = some inode) : Settled s inode := by
  refine ⟨s.directory.fresh _ _ hbound, fun handle p rest hrunning => ?_⟩
  exact (h.consistent handle p _ hrunning).2.1 key hbound

theorem CacheStep.started_subset {label : Option ArtifactBlobKey} {s s' : CacheSystem} (h : CacheStep label s s') {p : Publication}
    (hp : p ∈ s.started) : p ∈ s'.started := by
  cases h with
  | startPublish handle q hfree => exact List.mem_cons_of_mem _ hp
  | _ => exact hp

theorem Placed.step {initial : CacheDirectory} {label : Option ArtifactBlobKey} {s s' : CacheSystem} {key : ArtifactBlobKey}
    {inode : Nat} (h : CacheStep label s s') (hfiles : s'.directory.files inode = s.directory.files inode)
    (hplaced : Placed initial s key inode) : Placed initial s' key inode := by
  rcases hplaced with hold | ⟨p, hp, hkey, hfull, hcontent⟩
  · exact .inl hold
  · exact .inr ⟨p, h.started_subset hp, hkey, hfull, hfiles.trans hcontent⟩

theorem ReadStage.Agrees.congr {directory directory' : CacheDirectory} {key : ArtifactBlobKey} {stage : ReadStage}
    (h : stage.Agrees directory key)
    (hfiles : ∀ inode, stage.file = some inode → directory'.files inode = directory.files inode) : stage.Agrees directory' key := by
  cases stage with
  | validated inode payloadLen =>
    show validateHeader ((directory'.files inode).take HEADER_SIZE) key = .ok payloadLen
    rw [hfiles inode rfl]
    exact h
  | returned result =>
    cases result with
    | error e => trivial
    | ok blob =>
      cases blob with
      | none => trivial
      | some blob =>
        show ∃ payload, openContent (directory'.files blob.1) key = .ok payload ∧ payload.length = blob.2
        rw [hfiles blob.1 rfl]
        exact h
  | _ => trivial

/-- What a reader knows outlives every step. -/
theorem Sound.readers_step {initial : CacheDirectory} {label : Option ArtifactBlobKey} {s s' : CacheSystem}
    (hs : Sound initial s) (h : CacheStep label s s') {handle : Nat} {key : ArtifactBlobKey} {stage : ReadStage}
    (hreader : s.readers handle = some (key, stage)) :
    stage.Agrees s'.directory key ∧ ∀ inode, stage.file = some inode → Settled s' inode ∧ Placed initial s' key inode := by
  obtain ⟨hagrees, hfile⟩ := hs.readers handle key stage hreader
  refine ⟨hagrees.congr fun inode hinode => (h.settled hs.consistent (hfile inode hinode).1).2, fun inode hinode => ?_⟩
  obtain ⟨hsettled, hplaced⟩ := hfile inode hinode
  obtain ⟨hsettled', hfiles⟩ := h.settled hs.consistent hsettled
  exact ⟨hsettled', hplaced.step h hfiles⟩

/-- A blob's name that stays bound keeps what is known of its file. -/
theorem Sound.placed_step {initial : CacheDirectory} {label : Option ArtifactBlobKey} {s s' : CacheSystem}
    (hs : Sound initial s) (h : CacheStep label s s') {key : ArtifactBlobKey} {inode : Nat}
    (hbound : s.directory.entries (filename key) = some inode) : Placed initial s' key inode :=
  (hs.placed key inode hbound).step h (h.settled hs.consistent (hs.settled_bound hbound)).2

theorem readStep_spec {initial : CacheDirectory} {s : CacheSystem} (hs : Sound initial s) {key : ArtifactBlobKey} {stage : ReadStage}
    (outcome : StepOutcome) (hagrees : stage.Agrees s.directory key)
    (hfile : ∀ inode, stage.file = some inode → Settled s inode ∧ Placed initial s key inode) :
    (readStep key outcome s.directory stage).Agrees s.directory key ∧
      ∀ inode, (readStep key outcome s.directory stage).file = some inode → Settled s inode ∧ Placed initial s key inode := by
  have hended : ∀ e, (ReadStage.returned (.error e)).Agrees s.directory key ∧
      ∀ inode, (ReadStage.returned (.error e)).file = some inode → Settled s inode ∧ Placed initial s key inode :=
    fun e => ⟨trivial, fun inode h => (nomatch h)⟩
  cases stage with
  | start =>
    cases outcome with
    | proceeds chunk =>
      unfold readStep
      dsimp only
      cases hentry : s.directory.entries (filename key) with
      | none => exact ⟨trivial, fun inode h => (nomatch h)⟩
      | some inode =>
        refine ⟨trivial, ?_⟩
        rintro _ ⟨⟩
        exact ⟨hs.settled_bound hentry, hs.placed key inode hentry⟩
    | fails written => exact hended _
  | opened inode =>
    cases outcome with
    | proceeds chunk =>
      unfold readStep
      dsimp only
      split
      · exact hended _
      · cases hvalid : validateHeader ((s.directory.files inode).take HEADER_SIZE) key with
        | error e => exact hended e
        | ok payloadLen => exact ⟨hvalid, hfile⟩
    | fails written => exact hended _
  | validated inode payloadLen =>
    cases outcome with
    | proceeds chunk =>
      unfold readStep
      dsimp only
      split
      · exact hended _
      next hlength =>
      have hlength := not_not.1 hlength
      refine ⟨⟨(s.directory.files inode).drop HEADER_SIZE, ?_, ?_⟩, hfile⟩
      · unfold openContent
        rw [if_neg (by omega), show validateHeader _ key = _ from hagrees]
        simp [hlength, bind, Except.bind]
      · rw [List.length_drop]
        omega
    | fails written => exact hended _
  | returned result => exact ⟨hagrees, hfile⟩

theorem Sound.step {initial : CacheDirectory} {label : Option ArtifactBlobKey} {s s' : CacheSystem} (hs : Sound initial s)
    (h : CacheStep label s s') : Sound initial s' := by
  have hold : ∀ inode < initial.next, s'.directory.files inode = initial.files inode := fun inode hinode =>
    (h.settled hs.consistent (hs.settled_old hinode)).2.trans (hs.old inode hinode)
  have hreaders : ∀ handle key stage, s.readers handle = some (key, stage) → stage.Agrees s'.directory key ∧
      ∀ inode, stage.file = some inode → Settled s' inode ∧ Placed initial s' key inode :=
    fun _ _ _ hreader => hs.readers_step h hreader
  have hplaced : ∀ key inode, s.directory.entries (filename key) = some inode → Placed initial s' key inode :=
    fun _ _ hbound => hs.placed_step h hbound
  cases h with
  | startPublish handle p hfree =>
    refine ⟨fun other q stage hother => ?_, fun other q stage hother => ?_, fun first second q r stage stage' inode hfirst hsecond
      hne hfile => ?_, fun other q stage inode hother hfile => ?_, hs.grown, hold, hplaced, hreaders⟩
    · rcases update_cases hother with ⟨-, ⟨⟩⟩ | ⟨-, hother⟩
      · trivial
      · exact hs.consistent other q stage hother
    · rcases update_cases hother with ⟨-, ⟨⟩⟩ | ⟨-, hother⟩
      · exact List.mem_cons_self
      · exact List.mem_cons_of_mem _ (hs.started other q stage hother)
    · rcases update_cases hfirst with ⟨-, ⟨⟩⟩ | ⟨-, hfirst⟩
      · cases hfile
      rcases update_cases hsecond with ⟨-, ⟨⟩⟩ | ⟨-, hsecond⟩
      · exact fun h => (nomatch h)
      · exact hs.apart first second q r stage stage' inode hfirst hsecond hne hfile
    · rcases update_cases hother with ⟨-, ⟨⟩⟩ | ⟨-, hother⟩
      · cases hfile
      · exact hs.newer other q stage inode hother hfile
  | publish handle p stage outcome hrunning =>
    have hspec := publicationStep_spec outcome (hs.consistent handle p stage hrunning)
    have hbeside : ∀ other q stage', s.publishers other = some (q, stage') → other ≠ handle →
        ∀ inode, (publicationStep p outcome s.directory stage).1.file = some inode → stage'.file ≠ some inode := by
      intro other q stage' hother hne inode hfile hother'
      rcases hspec.file.file inode hfile with hkept | ⟨hnew, -⟩
      · exact hs.apart handle other p q stage stage' inode hrunning hother hne.symm hkept hother'
      · have hbound := s.directory.fresh _ _ ((hs.consistent other q stage' hother).bound hother')
        exact absurd hnew (Nat.ne_of_lt hbound)
    refine ⟨fun other q stage' hother => ?_, fun other q stage' hother => ?_, fun first second q r stage₁ stage₂ inode hfirst hsecond
      hne hfile => ?_, fun other q stage' inode hother hfile => ?_, hs.grown.trans hspec.effect.next_le, hold,
      fun key inode hbound => ?_, hreaders⟩
    · rcases update_cases hother with ⟨-, ⟨⟩⟩ | ⟨hne, hother⟩
      · exact hspec.consistent
      · exact (hs.consistent other q stage' hother).beside (hs.consistent handle p stage hrunning) hspec.effect
          fun inode hfile => hs.apart handle other p q stage stage' inode hrunning hother hne.symm hfile
    · rcases update_cases hother with ⟨-, ⟨⟩⟩ | ⟨-, hother⟩
      · exact hs.started handle p stage hrunning
      · exact hs.started other q stage' hother
    · rcases update_cases hfirst with ⟨hwho, ⟨⟩⟩ | ⟨hfirstNe, hfirst'⟩
      · rcases update_cases hsecond with ⟨hwho', -⟩ | ⟨hsecondNe, hsecond'⟩
        · exact absurd (hwho.trans hwho'.symm) hne
        · exact hbeside second r stage₂ hsecond' hsecondNe inode hfile
      · rcases update_cases hsecond with ⟨-, ⟨⟩⟩ | ⟨-, hsecond'⟩
        · exact fun hother => hbeside first q stage₁ hfirst' hfirstNe inode hother hfile
        · exact hs.apart first second q r stage₁ stage₂ inode hfirst' hsecond' hne hfile
    · rcases update_cases hother with ⟨-, ⟨⟩⟩ | ⟨-, hother⟩
      · rcases hspec.file.file inode hfile with hkept | ⟨hnew, -⟩
        · exact hs.newer handle p stage inode hrunning hkept
        · rw [hnew]
          exact hs.grown
      · exact hs.newer other q stage' inode hother hfile
    · rcases hspec.effect.filename key with hsame | ⟨-, hkey, ⟨i, hstage⟩, hlinked⟩
      · exact hplaced key inode (hsame ▸ hbound)
      · -- the link: the file of a publisher that has written all
        subst hstage hkey
        obtain ⟨htemporary, -, hcontent, hfull⟩ := hs.consistent handle p _ hrunning
        have hinode : i = inode := Option.some.inj ((htemporary.symm.trans hlinked.symm).trans hbound)
        subst hinode
        refine .inr ⟨p, hs.started handle p _ hrunning, rfl, hfull, ?_⟩
        have hfiles := hspec.effect.files (s.directory.fresh _ _ htemporary) fun rest h => (nomatch h)
        exact hfiles.trans hcontent
  | stopPublish handle =>
    refine ⟨fun other q stage hother => ?_, fun other q stage hother => ?_, fun first second q r stage stage' inode hfirst hsecond
      hne hfile => ?_, fun other q stage inode hother hfile => ?_, hs.grown, hold, hplaced, hreaders⟩
    · rcases update_cases hother with ⟨-, ⟨⟩⟩ | ⟨-, hother⟩
      exact hs.consistent other q stage hother
    · rcases update_cases hother with ⟨-, ⟨⟩⟩ | ⟨-, hother⟩
      exact hs.started other q stage hother
    · rcases update_cases hfirst with ⟨-, ⟨⟩⟩ | ⟨-, hfirst⟩
      rcases update_cases hsecond with ⟨-, ⟨⟩⟩ | ⟨-, hsecond⟩
      exact hs.apart first second q r stage stage' inode hfirst hsecond hne hfile
    · rcases update_cases hother with ⟨-, ⟨⟩⟩ | ⟨-, hother⟩
      exact hs.newer other q stage inode hother hfile
  | startRead handle key =>
    refine ⟨hs.consistent, hs.started, hs.apart, hs.newer, hs.grown, hold, hplaced, fun other key' stage hother => ?_⟩
    rcases update_cases hother with ⟨-, ⟨⟩⟩ | ⟨-, hother⟩
    · exact ⟨trivial, fun inode h => (nomatch h)⟩
    · exact hreaders other key' stage hother
  | read handle key stage outcome hrunning =>
    refine ⟨hs.consistent, hs.started, hs.apart, hs.newer, hs.grown, hold, hplaced, fun other key' stage' hother => ?_⟩
    rcases update_cases hother with ⟨-, ⟨⟩⟩ | ⟨-, hother⟩
    · obtain ⟨hagrees, hfile⟩ := readStep_spec hs outcome (hs.readers handle key stage hrunning).1
        (hs.readers handle key stage hrunning).2
      refine ⟨hagrees, fun inode hinode => ?_⟩
      obtain ⟨⟨hknown, hunwritten⟩, hplace⟩ := hfile inode hinode
      exact ⟨⟨hknown, hunwritten⟩, hplace⟩
    · exact hreaders other key' stage' hother
  | removeInvalid key =>
    refine ⟨fun other q stage hother => (hs.consistent other q stage hother).unlink_filename key, hs.started, hs.apart, hs.newer,
      hs.grown, hold, fun other inode hbound => ?_, hreaders⟩
    by_cases hkey : filename other = filename key
    · rw [show (s.directory.unlink (filename key)).entries (filename other) = none by
        rw [hkey, Directory.unlink_entries_self]] at hbound
      cases hbound
    · exact hplaced other inode ((Directory.unlink_entries_ne hkey).symm.trans hbound)

theorem reachable_sound {initial : CacheDirectory} {s : CacheSystem} (h : Reachable AnyStep (CacheSystem.on initial) s) :
    Sound initial s :=
  h.invariant (Sound.start initial) fun _ _ ⟨_, hstep⟩ hs => hs.step hstep

/-! ## Publication is atomic and final -/

/-- A file from an empty cache is one publication's. -/
theorem Placed.published {s : CacheSystem} {key : ArtifactBlobKey} {inode : Nat} (h : Placed Directories.empty s key inode) :
    PublishedBy s key inode :=
  h.resolve_left fun hnone => nomatch hnone

theorem PublishedBy.openContent {s : CacheSystem} {key : ArtifactBlobKey} {inode : Nat} (h : PublishedBy s key inode) :
    ∃ p ∈ s.started, p.key = key ∧ p.Full ∧ openContent (s.directory.files inode) key = .ok p.payload := by
  obtain ⟨p, hp, rfl, hfull, hcontent⟩ := h
  exact ⟨p, hp, rfl, hfull, hcontent ▸ p.openContent_content hfull⟩

theorem openBlob_eq_some_iff {directory : CacheDirectory} {key : ArtifactBlobKey} {payload : Bytes} :
    openBlob directory key = .ok (some payload) ↔
      ∃ inode, directory.entries (filename key) = some inode ∧ openContent (directory.files inode) key = .ok payload := by
  unfold openBlob Directory.read
  cases directory.entries (filename key) with
  | none =>
    constructor
    · intro h
      cases h
    · rintro ⟨_, h, -⟩
      cases h
  | some inode =>
    rw [Option.map_some]
    constructor
    · intro h
      cases hcontent : openContent (directory.files inode) key with
      | error e =>
        simp only [hcontent] at h
        cases h
      | ok found =>
        simp only [hcontent] at h
        cases h
        exact ⟨inode, rfl, hcontent⟩
    · rintro ⟨_, ⟨⟩, hcontent⟩
      simp only [hcontent]
      rfl

theorem Settled.reachable {initial : CacheDirectory} {s s' : CacheSystem} {inode : Nat} (hs : Sound initial s)
    (hsettled : Settled s inode) (h : Reachable AnyStep s s') :
    Sound initial s' ∧ Settled s' inode ∧ s'.directory.files inode = s.directory.files inode := by
  refine h.invariant (I := fun t => Sound initial t ∧ Settled t inode ∧ t.directory.files inode = s.directory.files inode)
    ⟨hs, hsettled, rfl⟩ ?_
  rintro t t' ⟨label, hstep⟩ ⟨ht, htsettled, hfiles⟩
  obtain ⟨htsettled', hsame⟩ := hstep.settled ht.consistent htsettled
  exact ⟨ht.step hstep, htsettled', hsame.trans hfiles⟩

/-- A blob's name stays with its file until it is removed. -/
theorem KeepingStep.bound {s s' : CacheSystem} {key : ArtifactBlobKey} {inode : Nat} (h : KeepingStep key s s')
    (hconsistent : ∀ handle p stage, s.publishers handle = some (p, stage) → Consistent p s.directory stage)
    (hbound : s.directory.entries (filename key) = some inode) : s'.directory.entries (filename key) = some inode := by
  obtain ⟨label, hlabel, hstep⟩ := h
  cases hstep with
  | publish handle p stage outcome hrunning =>
    rcases (publicationStep_spec outcome (hconsistent handle p stage hrunning)).effect.filename key with hsame | ⟨hnone, -⟩
    · exact hsame.trans hbound
    · rw [hnone] at hbound
      cases hbound
  | removeInvalid other =>
    have hkey : filename key ≠ filename other := fun heq => hlabel (congrArg some (filename_inj heq).symm)
    exact (Directory.unlink_entries_ne hkey).trans hbound
  | _ => exact hbound

theorem Sound.openBlob_kept {initial : CacheDirectory} {s s' : CacheSystem} (hs : Sound initial s) {key : ArtifactBlobKey}
    {payload : Bytes} (hopen : openBlob s.directory key = .ok (some payload)) (h : Reachable (KeepingStep key) s s') :
    openBlob s'.directory key = .ok (some payload) := by
  have hboth : Sound initial s' ∧ openBlob s'.directory key = .ok (some payload) := by
    refine h.invariant (I := fun t => Sound initial t ∧ openBlob t.directory key = .ok (some payload)) ⟨hs, hopen⟩ ?_
    rintro t t' hkeeping ⟨ht, htopen⟩
    obtain ⟨inode, hbound, hcontent⟩ := openBlob_eq_some_iff.1 htopen
    have hbound' := hkeeping.bound ht.consistent hbound
    obtain ⟨label, -, hstep⟩ := hkeeping
    have hfiles := (hstep.settled ht.consistent (ht.settled_bound hbound)).2
    exact ⟨ht.step hstep, openBlob_eq_some_iff.2 ⟨inode, hbound', hfiles ▸ hcontent⟩⟩
  exact hboth.2

/-- **Publication is atomic and final.** What `open_blob` has returned is one publication's full payload,
in a file that never changes; and the payload under a key stays until the key is removed. -/
theorem publication_atomic {s : CacheSystem} (h : Reachable AnyStep (CacheSystem.on Directories.empty) s) :
    (∀ handle key inode payloadLen, s.readers handle = some (key, .returned (.ok (some (inode, payloadLen)))) →
      (∃ p ∈ s.started, p.key = key ∧ p.Full ∧ p.payloadLen = payloadLen ∧
        openContent (s.directory.files inode) key = .ok p.payload) ∧
      ∀ s', Reachable AnyStep s s' → s'.directory.files inode = s.directory.files inode) ∧
    ∀ key payload, openBlob s.directory key = .ok (some payload) →
      (∃ p ∈ s.started, p.key = key ∧ p.Full ∧ p.payload = payload) ∧
      ∀ s', Reachable (KeepingStep key) s s' → openBlob s'.directory key = .ok (some payload) := by
  have hs := reachable_sound h
  refine ⟨fun handle key inode payloadLen hreader => ?_, fun key payload hopen => ?_⟩
  · obtain ⟨⟨payload, hpayload, hlength⟩, hfile⟩ := hs.readers handle key _ hreader
    obtain ⟨hsettled, hplaced⟩ := hfile inode rfl
    obtain ⟨p, hp, hkey, hfull, hcontent⟩ := hplaced.published.openContent
    refine ⟨⟨p, hp, hkey, hfull, ?_, hcontent⟩, fun s' hreach => (hsettled.reachable hs hreach).2.2⟩
    rw [← p.payload_length hfull, ← hlength, Except.ok.inj (hcontent.symm.trans hpayload)]
  · obtain ⟨inode, hbound, hcontent⟩ := openBlob_eq_some_iff.1 hopen
    obtain ⟨p, hp, hkey, hfull, hpublished⟩ := (hs.placed key inode hbound).published.openContent
    exact ⟨⟨p, hp, hkey, hfull, Except.ok.inj (hpublished.symm.trans hcontent)⟩, fun s' hreach => hs.openBlob_kept hopen hreach⟩

/-! ### One publication and one reader -/

/-- The publisher's next operation. -/
def CacheSystem.publishNext (s : CacheSystem) (handle : Nat) (outcome : StepOutcome) : CacheSystem :=
  match s.publishers handle with
  | some (p, stage) => { s with
      directory := (publicationStep p outcome s.directory stage).2
      publishers := Function.update s.publishers handle (some (p, (publicationStep p outcome s.directory stage).1)) }
  | none => s

/-- The reader's next operation. -/
def CacheSystem.readNext (s : CacheSystem) (handle : Nat) (outcome : StepOutcome) : CacheSystem :=
  match s.readers handle with
  | some (key, stage) => { s with
      readers := Function.update s.readers handle (some (key, readStep key outcome s.directory stage)) }
  | none => s

theorem reachable_publishNext {initial s : CacheSystem} (h : Reachable AnyStep initial s) (handle : Nat) (outcome : StepOutcome) :
    Reachable AnyStep initial (s.publishNext handle outcome) := by
  unfold CacheSystem.publishNext
  split
  · next p stage hrunning => exact h.next ⟨_, .publish handle p stage outcome hrunning⟩
  · exact h

theorem reachable_readNext {initial s : CacheSystem} (h : Reachable AnyStep initial s) (handle : Nat) (outcome : StepOutcome) :
    Reachable AnyStep initial (s.readNext handle outcome) := by
  unfold CacheSystem.readNext
  split
  · next key stage hrunning => exact h.next ⟨_, .read handle key stage outcome hrunning⟩
  · exact h

theorem reachable_replicate {initial s : CacheSystem} {f : CacheSystem → CacheSystem}
    (hf : ∀ s, Reachable AnyStep initial s → Reachable AnyStep initial (f s)) (h : Reachable AnyStep initial s) (n : Nat) :
    Reachable AnyStep initial (f^[n] s) := by
  induction n generalizing s with
  | zero => exact h
  | succ n ih => exact ih (hf s h)

def sampleKey : ArtifactBlobKey := ⟨List.replicate 32 8, rfl⟩

def samplePublication (pid : Nat) (bytes : Bytes) : Publication := ⟨sampleKey, pid, 3, ⟨bytes, false⟩, by decide⟩

def samplePublished : CacheSystem :=
  (fun s => s.publishNext 0 (.proceeds 54))^[8] { CacheSystem.on Directories.empty with
    publishers := Function.update (fun _ => none) 0 (some (samplePublication 1 [1, 2, 3], .check))
    started := [samplePublication 1 [1, 2, 3]] }

def sampleRead : CacheSystem :=
  (fun s => s.readNext 0 (.proceeds 0))^[3] { samplePublished with
    readers := Function.update samplePublished.readers 0 (some (sampleKey, .start)) }

theorem sampleRead_reachable : Reachable AnyStep (CacheSystem.on Directories.empty) sampleRead := by
  have hpublished : Reachable AnyStep (CacheSystem.on Directories.empty) samplePublished :=
    reachable_replicate (fun s h => reachable_publishNext h 0 _) (Reachable.start.next ⟨_, .startPublish 0 _ rfl⟩) 8
  exact reachable_replicate (fun s h => reachable_readNext h 0 _) (hpublished.next ⟨_, .startRead 0 sampleKey⟩) 3

theorem sampleRead_atomic :
    ((∃ p ∈ sampleRead.started, p.key = sampleKey ∧ p.Full ∧ p.payloadLen = 3 ∧
        openContent (sampleRead.directory.files 0) sampleKey = .ok p.payload) ∧
      ∀ s', Reachable AnyStep sampleRead s' → s'.directory.files 0 = sampleRead.directory.files 0) ∧
    (∃ p ∈ sampleRead.started, p.key = sampleKey ∧ p.Full ∧ p.payload = [1, 2, 3]) ∧
      ∀ s', Reachable (KeepingStep sampleKey) sampleRead s' → openBlob s'.directory sampleKey = .ok (some [1, 2, 3]) := by
  obtain ⟨hreaders, hblobs⟩ := publication_atomic sampleRead_reachable
  exact ⟨hreaders 0 sampleKey 0 3 (by decide), hblobs sampleKey [1, 2, 3] (by decide)⟩

end Kide.BlobFile
