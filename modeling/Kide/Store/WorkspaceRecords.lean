import Mathlib.Data.List.Induction
import Kide.Store.Publication

/-!
# The records of a workspace

`project_manifests` and `workspace_checkpoints` hold one row for each workspace id, and their readers
take the row of the smallest id. After any puts a table holds the last put of each id
(`mem_upserts_iff`), so what is read is the last put of the smallest id ever put.
-/

namespace Kide
open Transactions

namespace IndexStore

/-! ## A table of upserts -/

section Upserts
variable {α κ : Type} [DecidableEq κ] (key : α → κ)

/-- The table after the puts, on a table that was empty. -/
def upserts (puts : List α) : List α := puts.foldl (upsert key) []

theorem upserts_append_one (puts : List α) (row : α) : upserts key (puts ++ [row]) = upsert key (upserts key puts) row := by
  unfold upserts
  rw [List.foldl_append]
  rfl

theorem mem_upsert_iff {rows : List α} {row r : α} :
    r ∈ upsert key rows row ↔ (r ∈ rows ∧ key r ≠ key row) ∨ r = row := by
  unfold upsert
  rw [List.mem_append, List.mem_filter, List.mem_singleton]
  simp

theorem upsert_nodup {rows : List α} (h : (rows.map key).Nodup) (row : α) : ((upsert key rows row).map key).Nodup := by
  unfold upsert
  rw [List.map_append, List.nodup_append']
  refine ⟨h.sublist (List.filter_sublist.map key), by simp, ?_⟩
  intro k hk hrow
  obtain ⟨r, hr, rfl⟩ := List.mem_map.1 hk
  have hne : key r ≠ key row := by simpa using (List.mem_filter.1 hr).2
  exact hne (by simpa using hrow)

theorem upserts_nodup (puts : List α) : ((upserts key puts).map key).Nodup := by
  induction puts using List.reverseRecOn with
  | nil => exact List.nodup_nil
  | append_singleton puts row ih =>
    rw [upserts_append_one]
    exact upsert_nodup key ih row

/-- A row of the table is the last put of its key. -/
theorem mem_upserts_iff {puts : List α} {r : α} :
    r ∈ upserts key puts ↔ ∃ before after, puts = before ++ r :: after ∧ ∀ s ∈ after, key s ≠ key r := by
  induction puts using List.reverseRecOn with
  | nil => simp [upserts]
  | append_singleton puts row ih =>
    rw [upserts_append_one, mem_upsert_iff, ih]
    constructor
    · rintro (⟨⟨before, after, rfl, hafter⟩, hne⟩ | rfl)
      · refine ⟨before, after ++ [row], by simp, fun s hs => ?_⟩
        rcases List.mem_append.1 hs with hs | hs
        · exact hafter s hs
        · rw [List.mem_singleton.1 hs]
          exact hne.symm
      · exact ⟨puts, [], rfl, by simp⟩
    · rintro ⟨before, after, hputs, hafter⟩
      rcases List.eq_nil_or_concat after with rfl | ⟨after, last, rfl⟩
      · right
        exact (List.append_inj_right' hputs rfl |> List.cons.inj).1.symm
      · left
        rw [List.concat_eq_append] at hputs hafter
        have hsplit : puts ++ [row] = (before ++ r :: after) ++ [last] := by rw [hputs]; simp
        obtain ⟨rfl, hrow⟩ := List.append_inj' hsplit rfl
        obtain ⟨rfl, -⟩ := List.cons.inj hrow
        refine ⟨⟨before, after, rfl, fun s hs => hafter s (List.mem_append_left _ hs)⟩, ?_⟩
        exact (hafter row (by simp)).symm

/-- Every id ever put has a row. -/
theorem exists_mem_upserts {puts : List α} {r : α} (h : r ∈ puts) : ∃ s ∈ upserts key puts, key s = key r := by
  induction puts using List.reverseRecOn with
  | nil => cases h
  | append_singleton puts row ih =>
    rw [upserts_append_one]
    by_cases hrow : key r = key row
    · exact ⟨row, (mem_upsert_iff key).2 (.inr rfl), hrow.symm⟩
    · have hmem : r ∈ puts := by
        rcases List.mem_append.1 h with hmem | hmem
        · exact hmem
        · exact absurd (congrArg key (List.mem_singleton.1 hmem)) hrow
      obtain ⟨s, hs, hkey⟩ := ih hmem
      exact ⟨s, (mem_upsert_iff key).2 (.inl ⟨hs, fun heq => hrow (hkey.symm.trans heq)⟩), hkey⟩

end Upserts

/-! ## The row of the smallest workspace id -/

section Smallest
variable {α : Type} (workspace : α → WorkspaceId)

/-- `ORDER BY workspace_id LIMIT 1` -/
abbrev smallest (rows : List α) : Option α :=
  (rows.insertionSort fun a b => WorkspaceId.le (workspace a) (workspace b)).head?

theorem smallest_mem {rows : List α} {r : α} (h : smallest workspace rows = some r) : r ∈ rows :=
  (List.mem_insertionSort _).1 (List.mem_of_head? h)

theorem smallest_le {rows : List α} {r : α} (h : smallest workspace rows = some r) {s : α} (hs : s ∈ rows) :
    WorkspaceId.le (workspace r) (workspace s) := by
  have htotal : Std.Total fun a b : α => WorkspaceId.le (workspace a) (workspace b) := ⟨fun a b => String.le_total _ _⟩
  have htrans : IsTrans α fun a b => WorkspaceId.le (workspace a) (workspace b) := ⟨fun a b c => String.le_trans⟩
  have hsorted := List.pairwise_insertionSort (fun a b => WorkspaceId.le (workspace a) (workspace b)) rows
  have hmem := (List.mem_insertionSort (fun a b => WorkspaceId.le (workspace a) (workspace b))).2 hs
  unfold smallest at h
  cases hrows : rows.insertionSort fun a b => WorkspaceId.le (workspace a) (workspace b) with
  | nil => rw [hrows] at h; cases h
  | cons first rest =>
    rw [hrows] at h hsorted hmem
    cases h
    rcases List.mem_cons.1 hmem with rfl | hrest
    · exact String.le_refl _
    · exact (List.pairwise_cons.1 hsorted).1 s hrest

theorem smallest_eq_some_iff {rows : List α} (hnd : (rows.map workspace).Nodup) {r : α} (hr : r ∈ rows) :
    smallest workspace rows = some r ↔ ∀ s ∈ rows, WorkspaceId.le (workspace r) (workspace s) := by
  constructor
  · intro h s hs
    exact smallest_le workspace h hs
  · intro h
    cases hsmallest : smallest workspace rows with
    | none =>
      have hlength := congrArg List.length (List.head?_eq_none_iff.1 hsmallest)
      rw [List.length_insertionSort] at hlength
      rw [List.length_eq_zero_iff.1 hlength] at hr
      cases hr
    | some s =>
      have hs := smallest_mem workspace hsmallest
      have hsame : (workspace s).asStr = (workspace r).asStr :=
        String.le_antisymm (smallest_le workspace hsmallest hr) (h s hs)
      have hkey : workspace s = workspace r := by
        cases hws : workspace s
        cases hwr : workspace r
        rw [hws, hwr] at hsame
        exact congrArg _ hsame
      rw [List.inj_on_of_nodup_map hnd hs hr hkey]

/-- An upsert is what is read, if no row is smaller, or else does not change it. -/
theorem smallest_upsert {rows : List α} (hnd : (rows.map workspace).Nodup) (row : α) :
    smallest workspace (upsert workspace rows row) =
      if ∀ r ∈ rows, WorkspaceId.le (workspace row) (workspace r) then some row else smallest workspace rows := by
  have hrow : row ∈ upsert workspace rows row := (mem_upsert_iff workspace).2 (.inr rfl)
  by_cases hleast : ∀ r ∈ rows, WorkspaceId.le (workspace row) (workspace r)
  · rw [if_pos hleast, smallest_eq_some_iff workspace (upsert_nodup workspace hnd row) hrow]
    intro s hs
    rcases (mem_upsert_iff workspace).1 hs with ⟨hs, -⟩ | rfl
    · exact hleast s hs
    · exact String.le_refl _
  · rw [if_neg hleast]
    obtain ⟨r, hr, hless⟩ : ∃ r ∈ rows, ¬ WorkspaceId.le (workspace row) (workspace r) := by
      simpa only [not_forall, exists_prop] using hleast
    cases hsmallest : smallest workspace rows with
    | none =>
      have hlength := congrArg List.length (List.head?_eq_none_iff.1 hsmallest)
      rw [List.length_insertionSort] at hlength
      rw [List.length_eq_zero_iff.1 hlength] at hr
      cases hr
    | some first =>
      have hfirst := smallest_mem workspace hsmallest
      have hbelow : ¬ WorkspaceId.le (workspace row) (workspace first) := fun hle =>
        hless (String.le_trans hle (smallest_le workspace hsmallest hr))
      have hkept : first ∈ upsert workspace rows row :=
        (mem_upsert_iff workspace).2 (.inl ⟨hfirst, fun heq => hbelow (heq ▸ String.le_refl _)⟩)
      rw [smallest_eq_some_iff workspace (upsert_nodup workspace hnd row) hkept]
      intro s hs
      rcases (mem_upsert_iff workspace).1 hs with ⟨hs, -⟩ | rfl
      · exact smallest_le workspace hsmallest hs
      · exact (String.le_total _ _).resolve_left hbelow

/-- The reader answers the last put exactly if no id put before is smaller. -/
theorem smallest_upserts_iff (puts : List α) :
    smallest workspace (upserts workspace puts) = puts.getLast? ↔
      ∀ last ∈ puts.getLast?, ∀ put ∈ puts, WorkspaceId.le (workspace last) (workspace put) := by
  rcases List.eq_nil_or_concat puts with rfl | ⟨before, last, rfl⟩
  · exact ⟨fun _ last hlast => (nomatch hlast), fun _ => rfl⟩
  rw [List.concat_eq_append, List.getLast?_append, List.getLast?_singleton, Option.some_or]
  have hlast : last ∈ upserts workspace (before ++ [last]) :=
    (mem_upserts_iff workspace).2 ⟨before, [], rfl, by simp⟩
  rw [smallest_eq_some_iff workspace (upserts_nodup workspace _) hlast]
  constructor
  · rintro h _ ⟨⟩ put hput
    obtain ⟨row, hrow, hkey⟩ := exists_mem_upserts workspace hput
    exact hkey ▸ h row hrow
  · intro h row hrow
    obtain ⟨prior, after, hputs, -⟩ := (mem_upserts_iff workspace).1 hrow
    exact h last rfl row (hputs ▸ by simp)

end Smallest

end IndexStore

/-! ## Sequences of puts -/

inductive WorkspaceRecord
  | manifest (manifest : ProjectManifest)
  | checkpoint (checkpoint : WorkspaceCheckpoint)
deriving Repr

namespace WorkspaceRecord

/-- One call of the store on the disk as it is then. -/
def put (disk : Disk) (store : IndexStore) : WorkspaceRecord → Except IndexStoreError Unit × IndexStore
  | manifest m => store.putManifest disk m
  | checkpoint c => store.putWorkspaceCheckpoint disk c

/-- The call is made with valid provenance and the disk writes its one row. -/
def Succeeds (disk : Disk) : WorkspaceRecord → Prop
  | manifest m => validateProvenance m.provenance = .ok () ∧ disk 0 = none ∧ disk 1 = none
  | checkpoint _ => disk 0 = none ∧ disk 1 = none

instance (disk : Disk) (record : WorkspaceRecord) : Decidable (record.Succeeds disk) := by
  cases record <;> unfold Succeeds <;> infer_instance

variable {disk : Disk}

theorem put_manifest (store : IndexStore) (m : ProjectManifest) :
    ((manifest m).put disk store).2 =
      if (manifest m).Succeeds disk then
        { store with projectManifests := IndexStore.upsert (·.workspace) store.projectManifests m }
      else store := by
  show (store.putManifest disk m).2 =
    if validateProvenance m.provenance = .ok () ∧ disk 0 = none ∧ disk 1 = none then _ else _
  unfold IndexStore.putManifest
  cases hprovenance : validateProvenance m.provenance with
  | error e => simp
  | ok u => simp only [transact_one, true_and]

theorem put_checkpoint (store : IndexStore) (c : WorkspaceCheckpoint) :
    ((checkpoint c).put disk store).2 =
      if (checkpoint c).Succeeds disk then
        { store with workspaceCheckpoints := IndexStore.upsert (·.workspace) store.workspaceCheckpoints c }
      else store :=
  transact_one disk _ store

end WorkspaceRecord

section Sequences

/-- The store after the calls, each on its disk, from the empty store. -/
def putRecords (calls : List (Disk × WorkspaceRecord)) : IndexStore :=
  calls.foldl (fun store call => (call.2.put call.1 store).2) {}

def putManifests (calls : List (Disk × WorkspaceRecord)) : List ProjectManifest :=
  calls.filterMap fun call =>
    match call.2 with
    | .manifest m => if call.2.Succeeds call.1 then some m else none
    | .checkpoint _ => none

def putCheckpoints (calls : List (Disk × WorkspaceRecord)) : List WorkspaceCheckpoint :=
  calls.filterMap fun call =>
    match call.2 with
    | .manifest _ => none
    | .checkpoint c => if call.2.Succeeds call.1 then some c else none

theorem putRecords_tables (calls : List (Disk × WorkspaceRecord)) :
    (putRecords calls).projectManifests = IndexStore.upserts (·.workspace) (putManifests calls) ∧
      (putRecords calls).workspaceCheckpoints = IndexStore.upserts (·.workspace) (putCheckpoints calls) := by
  induction calls using List.reverseRecOn with
  | nil => exact ⟨rfl, rfl⟩
  | append_singleton calls call ih =>
    obtain ⟨hmanifests, hcheckpoints⟩ := ih
    have hstep : putRecords (calls ++ [call]) = (call.2.put call.1 (putRecords calls)).2 := by
      unfold putRecords
      rw [List.foldl_append]
      rfl
    rw [hstep]
    unfold putManifests putCheckpoints at *
    rw [List.filterMap_append, List.filterMap_append]
    obtain ⟨disk, record⟩ := call
    cases record with
    | manifest m =>
      rw [WorkspaceRecord.put_manifest]
      by_cases h : (WorkspaceRecord.manifest m).Succeeds disk
      · simp [h, hmanifests, hcheckpoints, IndexStore.upserts_append_one]
      · simp [h, hmanifests, hcheckpoints]
    | checkpoint c =>
      rw [WorkspaceRecord.put_checkpoint]
      by_cases h : (WorkspaceRecord.checkpoint c).Succeeds disk
      · simp [h, hmanifests, hcheckpoints, IndexStore.upserts_append_one]
      · simp [h, hmanifests, hcheckpoints]

/-- The workspace of the last record is no greater than that of any before it. -/
def LastSmallest {α : Type} (workspace : α → WorkspaceId) (puts : List α) : Prop :=
  ∀ last ∈ puts.getLast?, ∀ put ∈ puts, WorkspaceId.le (workspace last) (workspace put)

instance {α : Type} (workspace : α → WorkspaceId) (puts : List α) : Decidable (LastSmallest workspace puts) :=
  match h : puts.getLast? with
  | none => isTrue fun last hlast => by rw [h] at hlast; cases hlast
  | some last => decidable_of_iff (∀ put ∈ puts, WorkspaceId.le (workspace last) (workspace put)) (by
      unfold LastSmallest
      rw [h]
      simp)

theorem latestManifest_iff (calls : List (Disk × WorkspaceRecord)) :
    (putRecords calls).latestManifest = (putManifests calls).getLast? ↔ LastSmallest (·.workspace) (putManifests calls) := by
  unfold IndexStore.latestManifest
  rw [(putRecords_tables calls).1]
  exact IndexStore.smallest_upserts_iff _ _

theorem workspaceCheckpoint_iff (calls : List (Disk × WorkspaceRecord)) :
    (putRecords calls).workspaceCheckpoint = (putCheckpoints calls).getLast? ↔
      LastSmallest (·.workspace) (putCheckpoints calls) := by
  unfold IndexStore.workspaceCheckpoint
  rw [(putRecords_tables calls).2]
  exact IndexStore.smallest_upserts_iff _ _

/-- **Last write.** The two readers answer the last records put exactly if no record put before names
a smaller workspace. -/
theorem records_lastWrite_iff (calls : List (Disk × WorkspaceRecord)) :
    ((putRecords calls).latestManifest = (putManifests calls).getLast? ∧
        (putRecords calls).workspaceCheckpoint = (putCheckpoints calls).getLast?) ↔
      LastSmallest (·.workspace) (putManifests calls) ∧ LastSmallest (·.workspace) (putCheckpoints calls) :=
  and_congr (latestManifest_iff calls) (workspaceCheckpoint_iff calls)

/-- Two completed runs of a worker that reports another workspace at the second. -/
def renamedRuns : List (Disk × WorkspaceRecord) :=
  ["a", "b"].flatMap fun workspace => [
    (Disk.sound, .manifest ⟨⟨workspace⟩, ⟨"."⟩, [], [], ⟨"sha256:" ++ workspace⟩, sampleProvenance⟩),
    (Disk.sound, .checkpoint ⟨⟨workspace⟩, ⟨"sha256:" ++ workspace⟩, ⟨"c"⟩, ⟨"s"⟩, ⟨"t"⟩, true⟩)]

theorem renamedRuns_read_first :
    ¬ ((putRecords renamedRuns).latestManifest = (putManifests renamedRuns).getLast? ∧
        (putRecords renamedRuns).workspaceCheckpoint = (putCheckpoints renamedRuns).getLast?) := by
  decide

end Sequences

end Kide
