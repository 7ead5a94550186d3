import Kide.Cache.Calls
import Kide.Cache.Interleaving

/-!
# Repairing a cache file

Any number of processes, each running `materialize_artifact` for one key, operation by operation in any
order of all: `cache_hit_or_remove_invalid` opens the blob and removes it by name when it found it
invalid, the worker stages a payload, and `promote_staged` publishes it. A process may stop at any point,
and a later one may get its id.

The cache side of each step is a step of `CacheSystem`, so `Sound` holds throughout. A step that acts on
the directory as an earlier step of its process found it carries what it assumes as its label.
-/

namespace Kide.BlobFile
open Directories Traces

inductive RepairStage where
  | checking
  /-- The blob was found invalid in this file. -/
  | removing (rejected : Option Nat)
  | staging
  | promoting
  | hit
  | failed
deriving DecidableEq

structure RepairSystem where
  cache : CacheSystem
  processes : Nat → Option RepairStage

/-- The answers of `open_blob` in `cache_hit_or_remove_invalid`; `stage` had the file open. -/
def afterCheck (stage : ReadStage) : ReadStage → RepairStage
  | .returned (.ok (some _)) => .hit
  | .returned (.ok none) => .staging
  | .returned (.error .invalidHeader) => .removing stage.file
  | .returned (.error (.truncatedPayload _)) => .removing stage.file
  | .returned (.error _) => .failed
  | _ => .checking

/-- What a step takes the directory for. -/
inductive RepairLabel where
  | quiet
  | removes (rejected : Option Nat)
  | creates (name : String)
deriving DecidableEq

def promoteLabel (p : Publication) : PublishStage → RepairLabel
  | .create => .creates p.temporary
  | _ => .quiet

inductive RepairStep (key : ArtifactBlobKey) : RepairLabel → RepairSystem → RepairSystem → Prop
  | start {s : RepairSystem} (pid : Nat) (hfree : s.processes pid = none) :
      RepairStep key .quiet s
        { cache := { s.cache with readers := Function.update s.cache.readers pid (some (key, .start)) }
          processes := Function.update s.processes pid (some .checking) }
  | check {s : RepairSystem} (pid : Nat) (stage : ReadStage) (outcome : StepOutcome) (hprocess : s.processes pid = some .checking)
      (hreader : s.cache.readers pid = some (key, stage)) :
      RepairStep key .quiet s
        { cache := { s.cache with
            readers := Function.update s.cache.readers pid (some (key, readStep key outcome s.cache.directory stage)) }
          processes := Function.update s.processes pid (some (afterCheck stage (readStep key outcome s.cache.directory stage))) }
  | remove {s : RepairSystem} (pid : Nat) (rejected : Option Nat) (hprocess : s.processes pid = some (.removing rejected)) :
      RepairStep key (.removes rejected) s
        { cache := { s.cache with directory := s.cache.directory.unlink (filename key) }
          processes := Function.update s.processes pid (some .staging) }
  | stage {s : RepairSystem} (pid : Nat) (staged : StagedFile) (expectedLength : UInt64) (expectedSha256 : Bytes)
      (source : PayloadSource) (hprocess : s.processes pid = some .staging)
      (hsource : (CacheRequest.promoteStaged staged expectedLength expectedSha256).source = .ok source) :
      RepairStep key .quiet s
        { cache := { s.cache with
            publishers := Function.update s.cache.publishers pid
              (some (⟨key, pid, source.payloadLen, source.stream, source.payloadLen_lt⟩, .check))
            started := ⟨key, pid, source.payloadLen, source.stream, source.payloadLen_lt⟩ :: s.cache.started }
          processes := Function.update s.processes pid (some .promoting) }
  | promote {s : RepairSystem} (pid : Nat) (p : Publication) (stage : PublishStage) (outcome : StepOutcome)
      (hprocess : s.processes pid = some .promoting) (hpublisher : s.cache.publishers pid = some (p, stage)) :
      RepairStep key (promoteLabel p stage) s
        { cache := { s.cache with
            directory := (publicationStep p outcome s.cache.directory stage).2
            publishers := Function.update s.cache.publishers pid
              (some (p, (publicationStep p outcome s.cache.directory stage).1)) }
          processes := s.processes }
  | fail {s : RepairSystem} (pid : Nat) (stage : RepairStage) (hprocess : s.processes pid = some stage) (hstage : stage ≠ .promoting) :
      RepairStep key .quiet s { s with processes := Function.update s.processes pid (some .failed) }
  | stop {s : RepairSystem} (pid : Nat) :
      RepairStep key .quiet s
        { cache := { s.cache with publishers := Function.update s.cache.publishers pid none }
          processes := Function.update s.processes pid none }

/-- The directory is as the step takes it: a removal finds no other file than the rejected one, and a new
temporary name is free. -/
def Careful (key : ArtifactBlobKey) (s : RepairSystem) : RepairLabel → Prop
  | .quiet => True
  | .removes rejected => ∀ inode, s.cache.directory.entries (filename key) = some inode → rejected = some inode
  | .creates name => s.cache.directory.entries name = none

def AnyRepair (key : ArtifactBlobKey) (s s' : RepairSystem) : Prop := ∃ label, RepairStep key label s s'

def CarefulRepair (key : ArtifactBlobKey) (s s' : RepairSystem) : Prop := ∃ label, Careful key s label ∧ RepairStep key label s s'

def RepairSystem.on (directory : CacheDirectory) : RepairSystem := ⟨CacheSystem.on directory, fun _ => none⟩

theorem CarefulRepair.any {key : ArtifactBlobKey} {s s' : RepairSystem} (h : CarefulRepair key s s') : AnyRepair key s s' :=
  h.imp fun _ => And.right

/-! ## What a check finds -/

/-- The file is no blob for the key. -/
def Rejected (directory : CacheDirectory) (key : ArtifactBlobKey) (inode : Nat) : Prop :=
  ∀ payload, openContent (directory.files inode) key ≠ .ok payload

/-- What one operation of the check comes to. -/
inductive Checked (directory : CacheDirectory) (key : ArtifactBlobKey) (stage : ReadStage) : ReadStage → RepairStage → Prop
  | more {next : ReadStage} (hrunning : ∀ result, next ≠ .returned result) : Checked directory key stage next .checking
  | hit {next : ReadStage} : Checked directory key stage next .hit
  | failed {next : ReadStage} : Checked directory key stage next .failed
  | absent {next : ReadStage} (hfree : directory.entries (filename key) = none) : Checked directory key stage next .staging
  | rejected {next : ReadStage} (inode : Nat) (hfile : stage.file = some inode) (hrejected : Rejected directory key inode) :
      Checked directory key stage next (.removing (some inode))

theorem readStep_checked {directory : CacheDirectory} {key : ArtifactBlobKey} {stage : ReadStage} (outcome : StepOutcome)
    (hagrees : stage.Agrees directory key) (hrunning : ∀ result, stage ≠ .returned result) :
    Checked directory key stage (readStep key outcome directory stage)
      (afterCheck stage (readStep key outcome directory stage)) := by
  cases outcome with
  | fails written =>
    cases stage with
    | returned result => exact absurd rfl (hrunning result)
    | _ => exact .failed
  | proceeds chunk =>
    cases stage with
    | start =>
      unfold readStep
      dsimp only
      split
      · next hfree => exact .absent hfree
      · exact .more fun result h => (nomatch h)
    | opened inode =>
      unfold readStep
      dsimp only
      split
      · next hshort =>
        refine .rejected inode rfl fun payload hpayload => ?_
        unfold openContent at hpayload
        rw [if_pos hshort] at hpayload
        cases hpayload
      next hlong =>
      split
      · exact .more fun result h => (nomatch h)
      · next e hheader =>
        obtain rfl := validateHeader_error hheader
        refine .rejected inode rfl fun payload hpayload => ?_
        unfold openContent at hpayload
        rw [if_neg hlong, hheader] at hpayload
        cases hpayload
    | validated inode payloadLen =>
      unfold readStep
      dsimp only
      split
      · next hlength =>
        refine .rejected inode rfl fun payload hpayload => ?_
        have hheader : validateHeader ((directory.files inode).take HEADER_SIZE) key = .ok payloadLen := hagrees
        unfold openContent at hpayload
        rw [hheader] at hpayload
        split at hpayload
        · cases hpayload
        · simp only [bind, Except.bind] at hpayload
          rw [if_pos hlength] at hpayload
          cases hpayload
      · exact .hit
    | returned result => exact absurd rfl (hrunning result)

/-! ## Files from before -/

/-- No step binds a name to a file from before. -/
theorem CacheStep.bound_old {initial : CacheDirectory} {label : Option ArtifactBlobKey} {s s' : CacheSystem} (hs : Sound initial s)
    (h : CacheStep label s s') {key : ArtifactBlobKey} {inode : Nat} (hold : inode < initial.next)
    (hbound : s'.directory.entries (filename key) = some inode) : s.directory.entries (filename key) = some inode := by
  cases h with
  | publish handle p stage outcome hrunning =>
    have hconsistent := hs.consistent handle p stage hrunning
    rcases (publicationStep_spec outcome hconsistent).effect.filename key with hsame | ⟨-, -, ⟨i, rfl⟩, hlinked⟩
    · exact hsame.symm.trans hbound
    · have hfile : some i = some inode := (hconsistent.bound rfl).symm.trans (hlinked.symm.trans hbound)
      cases hfile
      exact absurd (hs.newer handle p _ inode hrunning rfl) (Nat.not_le_of_lt hold)
  | removeInvalid other =>
    by_cases hkey : filename key = filename other
    · rw [show (s.directory.unlink (filename other)).entries (filename key) = none by
        rw [hkey, Directory.unlink_entries_self]] at hbound
      cases hbound
    · exact (Directory.unlink_entries_ne hkey).symm.trans hbound
  | _ => exact hbound

/-- The blob's name is free, or has a blob. -/
def Cleared (key : ArtifactBlobKey) (directory : CacheDirectory) : Prop :=
  ∀ inode, directory.entries (filename key) = some inode → ¬ Rejected directory key inode

theorem not_rejected {directory : CacheDirectory} {key : ArtifactBlobKey} {inode : Nat} :
    ¬ Rejected directory key inode ↔ ∃ payload, openContent (directory.files inode) key = .ok payload := by
  unfold Rejected
  push Not
  rfl

theorem held_iff_bound {directory : CacheDirectory} {key : ArtifactBlobKey} :
    Held directory key ↔ ∃ inode, directory.entries (filename key) = some inode ∧ ¬ Rejected directory key inode := by
  unfold Held
  constructor
  · rintro ⟨payload, hopen⟩
    obtain ⟨inode, hbound, hcontent⟩ := openBlob_eq_some_iff.1 hopen
    exact ⟨inode, hbound, not_rejected.2 ⟨payload, hcontent⟩⟩
  · rintro ⟨inode, hbound, hvalid⟩
    obtain ⟨payload, hcontent⟩ := not_rejected.1 hvalid
    exact ⟨payload, openBlob_eq_some_iff.2 ⟨inode, hbound, hcontent⟩⟩

/-- A file that is no blob has been there from the start. -/
theorem Placed.rejected_old {initial : CacheDirectory} {s : CacheSystem} {key : ArtifactBlobKey} {inode : Nat}
    (hplaced : Placed initial s key inode) (hrejected : Rejected s.directory key inode) :
    initial.entries (filename key) = some inode := by
  rcases hplaced with hold | hpublished
  · exact hold
  · obtain ⟨p, -, -, -, hcontent⟩ := hpublished.openContent
    exact absurd hcontent (hrejected p.payload)

/-- Once the name is free or has a blob, it stays so. -/
theorem CacheStep.cleared {initial : CacheDirectory} {label : Option ArtifactBlobKey} {s s' : CacheSystem} (hs : Sound initial s)
    (h : CacheStep label s s') {key : ArtifactBlobKey} (hcleared : Cleared key s.directory) : Cleared key s'.directory := by
  intro inode hbound hrejected
  have hs' := hs.step h
  have hinitial := (hs'.placed key inode hbound).rejected_old hrejected
  have hbefore := h.bound_old hs (initial.fresh _ _ hinitial) hbound
  have hfiles := (h.settled hs.consistent (hs.settled_bound hbefore)).2
  refine hcleared inode hbefore fun payload hpayload => hrejected payload ?_
  rw [hfiles]
  exact hpayload

/-! ## The invariant of any run -/

/-- A blob is in place from here on. -/
def PublishStage.Announces : PublishStage → Prop
  | .unlink _ _ | .done (.ok _) => True
  | _ => False

/-- What one process, its check and its publication have to do with each other. -/
inductive Proper (key : ArtifactBlobKey) (initial directory : CacheDirectory) :
    Option RepairStage → Option (ArtifactBlobKey × ReadStage) → Option (Publication × PublishStage) → Prop
  | absent {reader : Option (ArtifactBlobKey × ReadStage)} : Proper key initial directory none reader none
  | checking (stage : ReadStage) (hrunning : ∀ result, stage ≠ .returned result) :
      Proper key initial directory (some .checking) (some (key, stage)) none
  | removing {reader : Option (ArtifactBlobKey × ReadStage)} (inode : Nat) (hold : initial.entries (filename key) = some inode)
      (hrejected : Rejected initial key inode) : Proper key initial directory (some (.removing (some inode))) reader none
  | staging {reader : Option (ArtifactBlobKey × ReadStage)} (hcleared : Cleared key directory) :
      Proper key initial directory (some .staging) reader none
  | promoting {reader : Option (ArtifactBlobKey × ReadStage)} (p : Publication) (stage : PublishStage) (hkey : p.key = key)
      (hcleared : Cleared key directory) : Proper key initial directory (some .promoting) reader (some (p, stage))
  | hit {reader : Option (ArtifactBlobKey × ReadStage)} : Proper key initial directory (some .hit) reader none
  | failed {reader : Option (ArtifactBlobKey × ReadStage)} : Proper key initial directory (some .failed) reader none

structure Repairing (key : ArtifactBlobKey) (initial : CacheDirectory) (s : RepairSystem) : Prop where
  sound : Sound initial s.cache
  proper : ∀ pid, Proper key initial s.cache.directory (s.processes pid) (s.cache.readers pid) (s.cache.publishers pid)

section Invariant
variable {key : ArtifactBlobKey} {initial : CacheDirectory} {label : RepairLabel} {s s' : RepairSystem}

theorem Proper.directory {directory directory' : CacheDirectory} {process : Option RepairStage}
    {reader : Option (ArtifactBlobKey × ReadStage)} {publisher : Option (Publication × PublishStage)}
    (h : Proper key initial directory process reader publisher) (hkept : Cleared key directory → Cleared key directory') :
    Proper key initial directory' process reader publisher := by
  cases h with
  | absent => exact .absent
  | checking stage hrunning => exact .checking stage hrunning
  | removing inode hold hrejected => exact .removing inode hold hrejected
  | staging hcleared => exact .staging (hkept hcleared)
  | promoting p stage hkey hcleared => exact .promoting p stage hkey (hkept hcleared)
  | hit => exact .hit
  | failed => exact .failed

theorem Repairing.start : Repairing key initial (RepairSystem.on initial) where
  sound := Sound.start initial
  proper _ := .absent

/-- The publication of a process, and that it runs for the key. -/
theorem Repairing.publisher (hs : Repairing key initial s) {pid : Nat} {p : Publication} {stage : PublishStage}
    (h : s.cache.publishers pid = some (p, stage)) : p.key = key ∧ Cleared key s.cache.directory := by
  have hproper := hs.proper pid
  rw [h] at hproper
  generalize s.processes pid = process at hproper
  generalize s.cache.readers pid = reader at hproper
  cases hproper with
  | promoting p stage hkey hcleared => exact ⟨hkey, hcleared⟩

/-- The cache side of a step. -/
theorem RepairStep.cacheStep (h : RepairStep key label s s') (hs : Repairing key initial s) :
    s'.cache = s.cache ∨ ∃ cacheLabel, CacheStep cacheLabel s.cache s'.cache := by
  cases h with
  | start pid hfree => exact .inr ⟨none, .startRead pid key⟩
  | check pid stage outcome hprocess hreader => exact .inr ⟨none, .read pid key stage outcome hreader⟩
  | remove pid rejected hprocess => exact .inr ⟨some key, .removeInvalid key⟩
  | stage pid staged expectedLength expectedSha256 source hprocess hsource =>
    have hproper := hs.proper pid
    rw [hprocess] at hproper
    have hnone : s.cache.publishers pid = none := by
      generalize s.cache.publishers pid = publisher at hproper
      cases hproper
      rfl
    exact .inr ⟨none, .startPublish pid _ hnone⟩
  | promote pid p stage outcome hprocess hpublisher => exact .inr ⟨none, .publish pid p stage outcome hpublisher⟩
  | fail pid stage hprocess hstage => exact .inl rfl
  | stop pid => exact .inr ⟨none, .stopPublish pid⟩

theorem Repairing.sound_step (hs : Repairing key initial s) (h : RepairStep key label s s') : Sound initial s'.cache := by
  rcases h.cacheStep hs with hsame | ⟨cacheLabel, hcache⟩
  · rw [hsame]
    exact hs.sound
  · exact hs.sound.step hcache

theorem Repairing.cleared_step (hs : Repairing key initial s) (h : RepairStep key label s s')
    (hcleared : Cleared key s.cache.directory) : Cleared key s'.cache.directory := by
  rcases h.cacheStep hs with hsame | ⟨cacheLabel, hcache⟩
  · rwa [hsame]
  · exact hcache.cleared hs.sound hcleared

/-- A step of one process is to be checked at that process. -/
theorem Repairing.update (hs : Repairing key initial s) (h : RepairStep key label s s') (pid : Nat)
    (hothers : ∀ other ≠ pid, s'.processes other = s.processes other ∧ s'.cache.readers other = s.cache.readers other ∧
      s'.cache.publishers other = s.cache.publishers other)
    (hpid : Proper key initial s'.cache.directory (s'.processes pid) (s'.cache.readers pid) (s'.cache.publishers pid)) :
    Repairing key initial s' := by
  refine ⟨hs.sound_step h, fun other => ?_⟩
  by_cases hother : other = pid
  · rwa [hother]
  · obtain ⟨hprocess, hreader, hpublisher⟩ := hothers other hother
    rw [hprocess, hreader, hpublisher]
    exact (hs.proper other).directory (hs.cleared_step h)

theorem Cleared.unbound {directory : CacheDirectory} (h : directory.entries (filename key) = none) : Cleared key directory := by
  intro inode hbound
  rw [h] at hbound
  cases hbound

/-- What was rejected is no blob of the start. -/
theorem Repairing.rejected (hs : Repairing key initial s) {pid inode : Nat} {stage : ReadStage}
    (hreader : s.cache.readers pid = some (key, stage)) (hfile : stage.file = some inode)
    (hrejected : Rejected s.cache.directory key inode) :
    initial.entries (filename key) = some inode ∧ Rejected initial key inode := by
  have hplaced := ((hs.sound.readers pid key stage hreader).2 inode hfile).2
  have hold := hplaced.rejected_old hrejected
  refine ⟨hold, fun payload hpayload => hrejected payload ?_⟩
  rwa [hs.sound.old inode (initial.fresh _ _ hold)]

theorem Repairing.step (hs : Repairing key initial s) (h : RepairStep key label s s') : Repairing key initial s' := by
  cases h with
  | start pid hfree =>
    refine hs.update (.start pid hfree) pid (fun other hne => ⟨Function.update_of_ne hne .., Function.update_of_ne hne .., rfl⟩) ?_
    have hproper := hs.proper pid
    rw [hfree] at hproper
    simp only [Function.update_self]
    generalize s.cache.publishers pid = publisher at hproper ⊢
    cases hproper
    exact .checking .start fun result h => (nomatch h)
  | check pid stage outcome hprocess hreader =>
    refine hs.update (.check pid stage outcome hprocess hreader) pid
      (fun other hne => ⟨Function.update_of_ne hne .., Function.update_of_ne hne .., rfl⟩) ?_
    have hproper := hs.proper pid
    rw [hprocess, hreader] at hproper
    simp only [Function.update_self]
    generalize s.cache.publishers pid = publisher at hproper ⊢
    cases hproper with
    | checking stage hrunning =>
    have hchecked := readStep_checked outcome (hs.sound.readers pid key stage hreader).1 hrunning
    revert hchecked
    generalize readStep key outcome s.cache.directory stage = next
    generalize afterCheck stage next = process
    intro hchecked
    cases hchecked with
    | more hrunning => exact .checking next hrunning
    | hit => exact .hit
    | failed => exact .failed
    | absent hfree => exact .staging (.unbound hfree)
    | rejected inode hfile hrejected =>
      obtain ⟨hold, hrejected⟩ := hs.rejected hreader hfile hrejected
      exact .removing inode hold hrejected
  | remove pid rejected hprocess =>
    refine hs.update (.remove pid rejected hprocess) pid (fun other hne => ⟨Function.update_of_ne hne .., rfl, rfl⟩) ?_
    have hproper := hs.proper pid
    rw [hprocess] at hproper
    simp only [Function.update_self]
    generalize s.cache.publishers pid = publisher at hproper ⊢
    cases hproper
    exact .staging (.unbound Directory.unlink_entries_self)
  | stage pid staged expectedLength expectedSha256 source hprocess hsource =>
    refine hs.update (.stage pid staged expectedLength expectedSha256 source hprocess hsource) pid
      (fun other hne => ⟨Function.update_of_ne hne .., rfl, Function.update_of_ne hne ..⟩) ?_
    have hproper := hs.proper pid
    rw [hprocess] at hproper
    simp only [Function.update_self]
    generalize s.cache.publishers pid = publisher at hproper
    cases hproper with
    | staging hcleared => exact .promoting _ _ rfl hcleared
  | promote pid p stage outcome hprocess hpublisher =>
    have hstep := @RepairStep.promote key s pid p stage outcome hprocess hpublisher
    refine hs.update hstep pid (fun other hne => ⟨rfl, rfl, Function.update_of_ne hne ..⟩) ?_
    obtain ⟨hkey, hcleared⟩ := hs.publisher hpublisher
    simp only [Function.update_self, hprocess]
    exact .promoting _ _ hkey (hs.cleared_step hstep hcleared)
  | fail pid stage hprocess hstage =>
    refine hs.update (.fail pid stage hprocess hstage) pid (fun other hne => ⟨Function.update_of_ne hne .., rfl, rfl⟩) ?_
    have hproper := hs.proper pid
    rw [hprocess] at hproper
    simp only [Function.update_self]
    generalize s.cache.publishers pid = publisher at hproper ⊢
    generalize s.cache.readers pid = reader at hproper ⊢
    cases hproper with
    | promoting => exact absurd rfl hstage
    | _ => exact .failed
  | stop pid =>
    refine hs.update (.stop pid) pid (fun other hne => ⟨Function.update_of_ne hne .., rfl, Function.update_of_ne hne ..⟩) ?_
    simp only [Function.update_self]
    exact .absent

theorem reachable_repairing (h : Reachable (AnyRepair key) (RepairSystem.on initial) s) : Repairing key initial s :=
  h.invariant Repairing.start fun _ _ ⟨_, hstep⟩ hs => hs.step hstep

/-! ## What a step does to a blob -/

/-- Whether the blob of `key` is there after a step. -/
theorem RepairStep.held (h : RepairStep key label s s') (hs : Repairing key initial s)
    (hquiet : ∀ rejected, label ≠ .removes rejected) (hheld : Held s.cache.directory key) : Held s'.cache.directory key := by
  obtain ⟨payload, hopen⟩ := hheld
  have hkeeping : KeepingStep key s.cache s'.cache → Held s'.cache.directory key := fun hstep =>
    ⟨payload, hs.sound.openBlob_kept hopen (Reachable.start.next hstep)⟩
  cases h with
  | start pid hfree => exact ⟨payload, hopen⟩
  | check pid stage outcome hprocess hreader => exact ⟨payload, hopen⟩
  | remove pid rejected hprocess => exact absurd rfl (hquiet rejected)
  | stage pid staged expectedLength expectedSha256 source hprocess hsource => exact ⟨payload, hopen⟩
  | promote pid p stage outcome hprocess hpublisher =>
    exact hkeeping ⟨none, fun h => (nomatch h), .publish pid p stage outcome hpublisher⟩
  | fail pid stage hprocess hstage => exact ⟨payload, hopen⟩
  | stop pid => exact ⟨payload, hopen⟩

/-- A removal destroys a blob exactly when it finds another file than the rejected one. -/
theorem RepairStep.removal {rejected : Option Nat} (h : RepairStep key (.removes rejected) s s') (hs : Repairing key initial s) :
    (Held s.cache.directory key → Held s'.cache.directory key) ↔ Careful key s (.removes rejected) := by
  have hnone : ∀ directory : CacheDirectory, ¬ Held (directory.unlink (filename key)) key := by
    intro directory hheld
    obtain ⟨inode, hbound, -⟩ := held_iff_bound.1 hheld
    rw [Directory.unlink_entries_self] at hbound
    cases hbound
  generalize hlabel : RepairLabel.removes rejected = label at h
  cases h with
  | remove pid found hprocess =>
    cases hlabel
    have hproper := hs.proper pid
    rw [hprocess] at hproper
    generalize s.cache.publishers pid = publisher at hproper
    generalize s.cache.readers pid = reader at hproper
    cases hproper with
    | removing inode hold hrejected =>
    have hfiles := hs.sound.old inode (initial.fresh _ _ hold)
    constructor
    · intro hkept other hbound
      by_contra hother
      refine hnone _ (hkept (held_iff_bound.2 ⟨other, hbound, fun hinvalid => hother ?_⟩))
      -- the only file that is no blob is the one from the start
      exact hold.symm.trans ((hs.sound.placed key other hbound).rejected_old hinvalid)
    · intro hcareful hheld
      obtain ⟨other, hbound, hvalid⟩ := held_iff_bound.1 hheld
      obtain rfl := Option.some.inj (hcareful other hbound)
      refine absurd (fun payload hpayload => hrejected payload ?_) hvalid
      rwa [hfiles] at hpayload
  | promote pid p stage outcome hprocess hpublisher =>
    cases stage with
    | create => cases hlabel
    | _ => cases hlabel
  | _ => cases hlabel

/-- A publication that is past its link, or took another's blob for its own, has one in place. -/
theorem publicationStep_announces {p : Publication} {directory : CacheDirectory} {stage : PublishStage} (outcome : StepOutcome)
    (hconsistent : Consistent p directory stage) (hcleared : Cleared p.key directory)
    (hfree : stage = .create → directory.entries p.temporary = none) (hbefore : stage.Announces → Held directory p.key)
    (h : (publicationStep p outcome directory stage).1.Announces) : Held (publicationStep p outcome directory stage).2 p.key := by
  have hfound : (directory.entries p.destination).isSome → Held directory p.key := by
    intro hsome
    obtain ⟨inode, hbound⟩ := Option.isSome_iff_exists.1 hsome
    exact held_iff_bound.2 ⟨inode, hbound, hcleared inode hbound⟩
  have hunlinked : Held directory p.key → Held (directory.unlink p.temporary) p.key := by
    rintro ⟨payload, hopen⟩
    refine ⟨payload, ?_⟩
    unfold openBlob at hopen ⊢
    rwa [unlink_temporary_read]
  cases outcome with
  | fails written =>
    cases stage with
    | unlink inode published => exact absurd h id
    | done result => exact hbefore h
    | _ => exact absurd h id
  | proceeds chunk =>
    cases stage with
    | check =>
      unfold publicationStep at h ⊢
      dsimp only at h ⊢
      split at h
      · next hsome =>
        rw [if_pos hsome]
        exact hfound hsome
      · exact absurd h id
    | makeDirectory => exact absurd h id
    | create =>
      unfold publicationStep at h
      dsimp only at h
      rw [hfree rfl] at h
      exact absurd h id
    | write inode rest =>
      unfold publicationStep at h
      dsimp only at h
      split at h
      · exact absurd h id
      split at h
      · exact absurd h id
      split at h
      · exact absurd h id
      · exact absurd h id
    | sync inode => exact absurd h id
    | link inode =>
      unfold publicationStep at h ⊢
      dsimp only at h ⊢
      split at h
      · exact absurd h id
      next hbound =>
      split at h
      · next hsome =>
        rw [if_neg hbound, if_pos hsome]
        exact hfound hsome
      · next hnone =>
        rw [if_neg hbound, if_neg hnone]
        have huntouched : Untouched directory directory := fun _ => rfl
        exact ⟨_, (huntouched.link hconsistent (by simpa using hnone)).openBlob.1⟩
    | unlink inode published =>
      unfold publicationStep at h ⊢
      dsimp only at h ⊢
      split at h
      · exact absurd h id
      · next hbound =>
        rw [if_neg hbound]
        exact hunlinked (hbefore trivial)
    | discard inode => exact absurd h id
    | done result => exact hbefore h

/-- A blob is in place wherever a publication says so. -/
def Announced (key : ArtifactBlobKey) (s : RepairSystem) : Prop :=
  ∀ pid p stage, s.cache.publishers pid = some (p, stage) → stage.Announces → Held s.cache.directory key

theorem CarefulRepair.held (h : CarefulRepair key s s') (hs : Repairing key initial s) (hheld : Held s.cache.directory key) :
    Held s'.cache.directory key := by
  obtain ⟨label, hcareful, hstep⟩ := h
  cases label with
  | removes rejected => exact (hstep.removal hs).2 hcareful hheld
  | quiet => exact hstep.held hs (fun _ h => (nomatch h)) hheld
  | creates name => exact hstep.held hs (fun _ h => (nomatch h)) hheld

theorem CarefulRepair.announced (h : CarefulRepair key s s') (hs : Repairing key initial s) (hannounced : Announced key s) :
    Announced key s' := by
  have hheld := h.held hs
  obtain ⟨label, hcareful, hstep⟩ := h
  intro other q stage' hother hannounces
  have hsame : s.cache.publishers other = some (q, stage') → Held s'.cache.directory key := fun hbefore =>
    hheld (hannounced other q stage' hbefore hannounces)
  cases hstep with
  | promote pid p stage outcome hprocess hpublisher =>
    rcases update_cases hother with ⟨-, ⟨⟩⟩ | ⟨-, hother⟩
    · obtain ⟨hkey, hcleared⟩ := hs.publisher hpublisher
      subst hkey
      refine publicationStep_announces outcome (hs.sound.consistent pid q stage hpublisher) hcleared (fun hcreate => ?_)
        (hannounced pid q stage hpublisher) hannounces
      subst hcreate
      exact hcareful
    · exact hsame hother
  | stage pid staged expectedLength expectedSha256 source hprocess hsource =>
    rcases update_cases hother with ⟨-, ⟨⟩⟩ | ⟨-, hother⟩
    · exact absurd hannounces id
    · exact hsame hother
  | stop pid =>
    rcases update_cases hother with ⟨-, ⟨⟩⟩ | ⟨-, hother⟩
    exact hsame hother
  | _ => exact hsame hother

/-- **Repair and good blobs.** A step from any reachable state keeps a blob that is in place if and only
if it is no removal of another file than its process rejected; and in a run of careful steps, once a
promotion has returned `Ok` the blob is in place for good. -/
theorem repair_keeps_blobs {key : ArtifactBlobKey} {initial : CacheDirectory} {s : RepairSystem}
    (h : Reachable (AnyRepair key) (RepairSystem.on initial) s) :
    (∀ label s', RepairStep key label s s' →
      ((Held s.cache.directory key → Held s'.cache.directory key) ↔
        ∀ rejected, label = .removes rejected → Careful key s (.removes rejected))) ∧
    (Reachable (CarefulRepair key) (RepairSystem.on initial) s →
      ∀ pid p published, s.cache.publishers pid = some (p, .done (.ok published)) →
        ∀ s', Reachable (CarefulRepair key) s s' → Held s'.cache.directory key) := by
  have hs := reachable_repairing h
  refine ⟨fun label s' hstep => ?_, fun hcareful pid p published hdone s' hreach => ?_⟩
  · cases label with
    | removes rejected =>
      refine (hstep.removal hs).trans ⟨fun hcareful found hfound => ?_, fun hcareful => hcareful rejected rfl⟩
      cases hfound
      exact hcareful
    | quiet => exact ⟨fun _ _ h => (nomatch h), fun _ => hstep.held hs fun _ h => (nomatch h)⟩
    | creates name => exact ⟨fun _ _ h => (nomatch h), fun _ => hstep.held hs fun _ h => (nomatch h)⟩
  · have hannounced : Repairing key initial s ∧ Announced key s := by
      refine hcareful.invariant (I := fun t => Repairing key initial t ∧ Announced key t) ⟨.start, fun _ _ _ h => (nomatch h)⟩ ?_
      rintro t t' hstep ⟨ht, htannounced⟩
      obtain ⟨label, hany⟩ := hstep.any
      exact ⟨ht.step hany, hstep.announced ht htannounced⟩
    have hheld := hannounced.2 pid p _ hdone trivial
    have hlater : Repairing key initial s' ∧ Held s'.cache.directory key := by
      refine hreach.invariant (I := fun t => Repairing key initial t ∧ Held t.cache.directory key) ⟨hs, hheld⟩ ?_
      rintro t t' hstep ⟨ht, htheld⟩
      obtain ⟨label, hany⟩ := hstep.any
      exact ⟨ht.step hany, hstep.held ht htheld⟩
    exact hlater.2

end Invariant

/-! ### Two repairs of one file -/

instance (key : ArtifactBlobKey) (s : RepairSystem) (label : RepairLabel) : Decidable (Careful key s label) :=
  match label with
  | .quiet => isTrue trivial
  | .removes rejected => inferInstanceAs (Decidable (∀ inode ∈ s.cache.directory.entries (filename key), rejected = some inode))
  | .creates name => inferInstanceAs (Decidable (s.cache.directory.entries name = none))

def sampleStaged : StagedFile := ⟨some 3, some [1, 2, 3], some ⟨[1, 2, 3], false⟩⟩

/-- The next operation of a process that nothing goes wrong in. -/
def RepairSystem.turn (s : RepairSystem) (pid : Nat) : RepairLabel × RepairSystem :=
  match s.processes pid, s.cache.readers pid, s.cache.publishers pid with
  | none, _, _ => (.quiet,
    { cache := { s.cache with readers := Function.update s.cache.readers pid (some (sampleKey, .start)) }
      processes := Function.update s.processes pid (some .checking) })
  | some .checking, some (key, stage), _ =>
    if key = sampleKey then (.quiet,
      { cache := { s.cache with
          readers := Function.update s.cache.readers pid (some (sampleKey, readStep sampleKey (.proceeds 0) s.cache.directory stage)) }
        processes := Function.update s.processes pid
          (some (afterCheck stage (readStep sampleKey (.proceeds 0) s.cache.directory stage))) })
    else (.quiet, s)
  | some (.removing rejected), _, _ => (.removes rejected,
    { cache := { s.cache with directory := s.cache.directory.unlink (filename sampleKey) }
      processes := Function.update s.processes pid (some .staging) })
  | some .staging, _, _ =>
    match (CacheRequest.promoteStaged sampleStaged 3 (Sha256.digest [1, 2, 3])).source with
    | .error _ => (.quiet, s)
    | .ok source => (.quiet,
      { cache := { s.cache with
          publishers := Function.update s.cache.publishers pid
            (some (⟨sampleKey, pid, source.payloadLen, source.stream, source.payloadLen_lt⟩, .check))
          started := ⟨sampleKey, pid, source.payloadLen, source.stream, source.payloadLen_lt⟩ :: s.cache.started }
        processes := Function.update s.processes pid (some .promoting) })
  | some .promoting, _, some (p, stage) => (promoteLabel p stage,
    { cache := { s.cache with
        directory := (publicationStep p (.proceeds 54) s.cache.directory stage).2
        publishers := Function.update s.cache.publishers pid
          (some (p, (publicationStep p (.proceeds 54) s.cache.directory stage).1)) }
      processes := s.processes })
  | _, _, _ => (.quiet, s)

theorem turn_step (s : RepairSystem) (pid : Nat) : (s.turn pid).2 = s ∨ RepairStep sampleKey (s.turn pid).1 s (s.turn pid).2 := by
  unfold RepairSystem.turn
  split
  · next hfree => exact .inr (.start pid hfree)
  · next key stage hprocess hreader =>
    split
    · next hkey =>
      subst hkey
      exact .inr (.check pid stage _ hprocess hreader)
    · exact .inl rfl
  · next rejected hprocess => exact .inr (.remove pid rejected hprocess)
  · next hprocess =>
    split
    · exact .inl rfl
    · next source hsource => exact .inr (.stage pid _ _ _ source hprocess hsource)
  · next p stage hprocess hpublisher => exact .inr (.promote pid p stage _ hprocess hpublisher)
  · exact .inl rfl

def RepairSystem.turns (s : RepairSystem) : List Nat → RepairSystem
  | [] => s
  | pid :: pids => (s.turn pid).2.turns pids

def RepairSystem.careful (s : RepairSystem) : List Nat → Bool
  | [] => true
  | pid :: pids => decide (Careful sampleKey s (s.turn pid).1) && (s.turn pid).2.careful pids

theorem reachable_turns {initial s : RepairSystem} (h : Reachable (AnyRepair sampleKey) initial s) (pids : List Nat) :
    Reachable (AnyRepair sampleKey) initial (s.turns pids) := by
  induction pids generalizing s with
  | nil => exact h
  | cons pid pids ih =>
    refine ih ?_
    rcases turn_step s pid with hsame | hstep
    · rwa [hsame]
    · exact h.next ⟨_, hstep⟩

theorem reachable_careful {initial s : RepairSystem} (h : Reachable (CarefulRepair sampleKey) initial s) (pids : List Nat)
    (hcareful : s.careful pids = true) : Reachable (CarefulRepair sampleKey) initial (s.turns pids) := by
  induction pids generalizing s with
  | nil => exact h
  | cons pid pids ih =>
    obtain ⟨hfirst, hrest⟩ := (Bool.and_eq_true ..).mp hcareful
    refine ih ?_ hrest
    rcases turn_step s pid with hsame | hstep
    · rwa [hsame]
    · exact h.next ⟨_, of_decide_eq_true hfirst, hstep⟩

/-- An empty file under the name of the sample blob. -/
def corruptDirectory : CacheDirectory := Directories.empty.createNew (filename sampleKey)

def RepairSystem.promoted (s : RepairSystem) (pid : Nat) : Bool :=
  match s.cache.publishers pid with
  | some (_, .done (.ok true)) => true
  | _ => false

theorem RepairSystem.promoted_eq {s : RepairSystem} {pid : Nat} (h : s.promoted pid = true) :
    ∃ p, s.cache.publishers pid = some (p, .done (.ok true)) := by
  unfold RepairSystem.promoted at h
  split at h
  · next p hpublisher => exact ⟨p, hpublisher⟩
  · cases h

def repairedAlone : RepairSystem := (RepairSystem.on corruptDirectory).turns (List.replicate 13 1)

theorem repairedAlone_keeps_blob : Held repairedAlone.cache.directory sampleKey := by
  obtain ⟨p, hdone⟩ := @RepairSystem.promoted_eq repairedAlone 1 (by decide +kernel)
  have hreach : Reachable (AnyRepair sampleKey) (RepairSystem.on corruptDirectory) repairedAlone := reachable_turns .start _
  have hcareful : Reachable (CarefulRepair sampleKey) (RepairSystem.on corruptDirectory) repairedAlone :=
    reachable_careful .start _ (by decide +kernel)
  exact (repair_keeps_blobs hreach).2 hcareful 1 p true hdone _ .start

/-- Both processes have found the file invalid when the first one repairs it. -/
def repairedUnderRemoval : RepairSystem := (RepairSystem.on corruptDirectory).turns ([2, 2, 2] ++ List.replicate 13 1)

theorem second_removal_destroys_blob :
    ∃ initial s s', Reachable (AnyRepair sampleKey) (RepairSystem.on initial) s ∧ AnyRepair sampleKey s s' ∧
      (∃ p, s.cache.publishers 1 = some (p, .done (.ok true))) ∧ Held s.cache.directory sampleKey ∧
      openBlob s'.cache.directory sampleKey = .ok none := by
  refine ⟨corruptDirectory, repairedUnderRemoval, (repairedUnderRemoval.turn 2).2, reachable_turns .start _, ?_,
    RepairSystem.promoted_eq (by decide +kernel), ⟨[1, 2, 3], by decide +kernel⟩, by decide +kernel⟩
  rcases turn_step repairedUnderRemoval 2 with hsame | hstep
  · have hprocess : (repairedUnderRemoval.turn 2).2.processes 2 = repairedUnderRemoval.processes 2 := by rw [hsame]
    have hdiffer : (repairedUnderRemoval.turn 2).2.processes 2 ≠ repairedUnderRemoval.processes 2 := by decide +kernel
    exact absurd hprocess hdiffer
  · exact ⟨_, hstep⟩

end Kide.BlobFile
