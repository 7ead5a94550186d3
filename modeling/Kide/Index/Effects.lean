import Kide.Index.Paths

/-!
# Which units a run touches

Over the snapshots `m` stored at the start and the answers of the workers:

* `IndexPath.Asks`: the units a path asks workers for;
* `IndexPath.Changes`: the units an answer gives another public API;
* `IndexPath.Drops`: the dependents of those, where a path looks for them.

A run removes and commits no other unit (`Steps.removed_cases`, `Steps.asks_of_commits`), and a run that returns
has touched exactly these (`Completed.removed_iff`, `Completed.commits_iff`).
-/

namespace Kide
open Collects

namespace IndexPath

section
variable (m : SnapshotMap) (current : List SourceUnit) (log : List IndexEvent) (u : SourceUnitId)

/-- The plan analyzes the unit again, and a batch has it. -/
def Asks : IndexPath → Prop
  | selectedBatches selection => (∃ source, Stale none m current source ∧ source.id = u) ∧
      ∃ batch ∈ selection.batches, u ∈ batch.sourceUnits.map (·.id)
  | singleBatch _ provenance => ∃ source, Stale provenance m current source ∧ source.id = u

/-- The snapshot a path takes from an answer for its unit. -/
def Takes (answer : List FileAnalysisSnapshot) (snapshot : FileAnalysisSnapshot) : IndexPath → Prop
  | selectedBatches _ => snapshot ∈ answer
  | singleBatch _ _ => answer.find? (·.id = snapshot.id) = some snapshot

def Changes (path : IndexPath) : Prop :=
  ∃ requested answer, .answered requested answer ∈ log ∧
    ∃ snapshot, path.Takes answer snapshot ∧ snapshot.id = u ∧ apiOf m u ≠ snapshot.publicApiFingerprint

/-- A dependent of a changed unit that the single-batch path finds. -/
def Drops (path : IndexPath) : Prop :=
  match path with
  | selectedBatches _ => False
  | singleBatch _ provenance =>
    ∃ changed, path.Changes m log changed ∧ DependsOn (afterPlan provenance m current) changed u

end

section
variable {path : IndexPath} {m : SnapshotMap} {current : List SourceUnit} {actions : List IndexAction}
  {log : List IndexEvent} {requested : List SourceUnit} {answer : List FileAnalysisSnapshot}
  {entries : List (SourceUnit × FileAnalysisSnapshot)} {u : SourceUnitId}

/-- The units asked for, batch by batch. -/
theorem asks_iff (hplan : Plans path.provenance m current actions) :
    path.Asks m current u ↔ ∃ requested ∈ path.requests (staleUnits actions), u ∈ requested.map (·.id) := by
  cases path with
  | selectedBatches selection =>
    have hsources : Plans none m current actions := hplan
    rw [Asks, ← hsources.mem_staleIds]
    constructor
    · rintro ⟨hstale, batch, hbatch, hu⟩
      obtain ⟨unit, hunit, rfl⟩ := List.mem_map.1 hu
      have hmem : unit ∈ selectedRequest (staleUnits actions) batch := List.mem_filter.2 ⟨hunit, decide_eq_true hstale⟩
      exact ⟨_, List.mem_map_of_mem hbatch, List.mem_map_of_mem hmem⟩
    · rintro ⟨requested, hrequested, hu⟩
      obtain ⟨batch, hbatch, rfl⟩ := List.mem_map.1 hrequested
      obtain ⟨unit, hunit, rfl⟩ := List.mem_map.1 hu
      obtain ⟨hunit, hstale⟩ := List.mem_filter.1 hunit
      exact ⟨of_decide_eq_true hstale, batch, hbatch, List.mem_map_of_mem hunit⟩
  | singleBatch launch provenance =>
    have hanalysis : Plans provenance m current actions := hplan
    rw [Asks, ← hanalysis.mem_staleIds]
    constructor
    · exact fun hu => ⟨_, List.mem_singleton.2 rfl, hu⟩
    · rintro ⟨requested, hrequested, hu⟩
      rw [List.mem_singleton.1 hrequested] at hu
      exact hu

/-- What is asked for was requested. -/
theorem Asks.discovered (h : path.Asks m current u) : u ∈ current.map (·.id) := by
  have hstale : ∀ {provenance : Option Provenance} {source : SourceUnit}, Stale provenance m current source →
      source.id ∈ current.map (·.id) := fun hs => List.mem_map_of_mem (lastOf_some _ hs.1).1
  cases path with
  | selectedBatches selection =>
    obtain ⟨⟨source, hs, rfl⟩, -⟩ := h
    exact hstale hs
  | singleBatch launch provenance =>
    obtain ⟨source, hs, rfl⟩ := h
    exact hstale hs

/-- A committed entry is the snapshot its path takes for the unit. -/
theorem Entries.takes (h : path.Entries requested answer entries) {entry : SourceUnit × FileAnalysisSnapshot}
    (hentry : entry ∈ entries) : path.Takes answer entry.2 ∧ entry.2.id = entry.1.id := by
  cases path with
  | selectedBatches selection =>
    rw [show entries = answer.map fun snapshot => (snapshot.sourceUnit, snapshot) from h] at hentry
    obtain ⟨snapshot, hs, rfl⟩ := List.mem_map.1 hentry
    exact ⟨hs, rfl⟩
  | singleBatch launch provenance =>
    have hfind := h.2 entry hentry
    have hfound := List.find?_some hfind
    have hid : entry.2.id = entry.1.id := of_decide_eq_true hfound
    refine ⟨?_, hid⟩
    rw [Takes, hid]
    exact hfind

/-- Each snapshot a path takes is committed. -/
theorem Entries.of_takes (h : path.Entries requested answer entries)
    (hvalidated : validateBatch requested answer = .ok answer) {snapshot : FileAnalysisSnapshot}
    (htakes : path.Takes answer snapshot) : ∃ entry ∈ entries, entry.2 = snapshot := by
  cases path with
  | selectedBatches selection =>
    rw [show entries = answer.map fun snapshot => (snapshot.sourceUnit, snapshot) from h]
    exact ⟨_, List.mem_map_of_mem htakes, rfl⟩
  | singleBatch launch provenance =>
    have hmem := List.mem_of_find?_eq_some htakes
    obtain ⟨unit, hunit, hid⟩ := List.mem_map.1 ((validateBatch_ok_iff.1 hvalidated _).1 (List.mem_map_of_mem hmem))
    obtain ⟨entry, hentry, rfl⟩ := List.mem_map.1 (h.1 ▸ hunit)
    have hfind := h.2 entry hentry
    rw [hid] at hfind
    exact ⟨entry, hentry, Option.some.inj (hfind.symm.trans htakes)⟩

theorem Entries.mem_ids (h : path.Entries requested answer entries)
    (hvalidated : validateBatch requested answer = .ok answer) :
    u ∈ entries.map (·.1.id) ↔ u ∈ requested.map (·.id) := by
  constructor
  · intro hu
    obtain ⟨entry, hentry, rfl⟩ := List.mem_map.1 hu
    exact (h.entry hvalidated hentry).2.2
  · intro hu
    obtain ⟨unit, hunit, rfl⟩ := List.mem_map.1 hu
    obtain ⟨entry, hentry, hid⟩ := h.exists_entry hvalidated hunit
    exact hid ▸ List.mem_map_of_mem hentry

/-! ## What any run touches -/

theorem Steps.asks_of_commits (h : path.Steps m current actions log) (hplan : Plans path.provenance m current actions)
    (hcommits : Commits log u) : path.Asks m current u := by
  obtain ⟨requested, answer, entries, hmem, hu⟩ := hcommits
  have hids := (h.entries _ _ _ hmem).mem_ids (u := u) (h.validated _ _ _ hmem)
  exact (asks_iff hplan).2 ⟨requested, h.answered _ _ (h.exchange _ _ _ hmem), hids.1 hu⟩

theorem Steps.drops_of_invalidated (h : path.Steps m current actions log)
    (hplan : Plans path.provenance m current actions) (hu : path.Invalidated m current actions log u) :
    path.Drops m current log u ∧ ¬ path.Asks m current u := by
  cases path with
  | selectedBatches selection => exact hu.elim
  | singleBatch launch provenance =>
    obtain ⟨hstale, requested, answer, entries, hmem, entry, hentry, hchanged, hdepends⟩ := hu
    obtain ⟨htakes, hid⟩ := (h.entries _ _ _ hmem).takes hentry
    refine ⟨⟨entry.1.id, ⟨requested, answer, h.exchange _ _ _ hmem, entry.2, htakes, hid, hchanged⟩, hdepends⟩, ?_⟩
    exact fun hasks => hstale ((Plans.mem_staleIds hplan).2 hasks)

theorem Steps.removed_cases (h : path.Steps m current actions log) (hplan : Plans path.provenance m current actions)
    (hu : .removed u ∈ log) : Undiscovered path.provenance m current u ∨
      path.Drops m current log u ∧ ¬ path.Asks m current u :=
  (h.removed u hu).imp_right (h.drops_of_invalidated hplan)

/-! ## What a completed run has touched -/

theorem Completed.commits_iff (h : path.Completed m current actions log)
    (hplan : Plans path.provenance m current actions) : Commits log u ↔ path.Asks m current u := by
  refine ⟨h.toSteps.asks_of_commits hplan, fun hasks => ?_⟩
  obtain ⟨requested, hrequested, hu⟩ := (asks_iff hplan).1 hasks
  have hne : requested ≠ [] := by
    rintro rfl
    exact absurd hu List.not_mem_nil
  obtain ⟨answer, hanswered⟩ := h.asked requested hrequested hne
  obtain ⟨entries, hmem⟩ := h.paired requested answer hanswered
  have hids := (h.entries _ _ _ hmem).mem_ids (u := u) (h.validated _ _ _ hmem)
  exact ⟨requested, answer, entries, hmem, hids.2 hu⟩

theorem Completed.changes_iff (h : path.Completed m current actions log) : path.Changes m log u ↔
    ∃ requested answer entries, .committed requested answer entries ∈ log ∧
      ∃ entry ∈ entries, entry.1.id = u ∧ apiOf m u ≠ entry.2.publicApiFingerprint := by
  constructor
  · rintro ⟨requested, answer, hanswered, snapshot, htakes, rfl, hchanged⟩
    obtain ⟨entries, hmem⟩ := h.paired requested answer hanswered
    obtain ⟨entry, hentry, rfl⟩ := (h.entries _ _ _ hmem).of_takes (h.validated _ _ _ hmem) htakes
    exact ⟨requested, answer, entries, hmem, entry, hentry, ((h.entries _ _ _ hmem).takes hentry).2.symm, hchanged⟩
  · rintro ⟨requested, answer, entries, hmem, entry, hentry, rfl, hchanged⟩
    obtain ⟨htakes, hid⟩ := (h.entries _ _ _ hmem).takes hentry
    exact ⟨requested, answer, h.exchange _ _ _ hmem, entry.2, htakes, hid, hchanged⟩

theorem Completed.removed_iff (h : path.Completed m current actions log)
    (hplan : Plans path.provenance m current actions) : .removed u ∈ log ↔
      Undiscovered path.provenance m current u ∨ path.Drops m current log u ∧ ¬ path.Asks m current u := by
  refine ⟨h.toSteps.removed_cases hplan, ?_⟩
  rintro (hu | ⟨hdrops, hasks⟩)
  · exact h.planned u hu
  · refine h.invalidated u ?_
    cases path with
    | selectedBatches selection => exact hdrops.elim
    | singleBatch launch provenance =>
      obtain ⟨changed, hchanges, hdepends⟩ := hdrops
      obtain ⟨requested, answer, entries, hmem, entry, hentry, rfl, hchanged⟩ := h.changes_iff.1 hchanges
      exact ⟨fun hstale => hasks ((Plans.mem_staleIds hplan).1 hstale), requested, answer, entries, hmem, entry, hentry,
        hchanged, hdepends⟩

/-- A unit is removed or committed, never both. -/
theorem Steps.not_commits_of_removed (h : path.Steps m current actions log)
    (hplan : Plans path.provenance m current actions) (hu : .removed u ∈ log) : ¬ Commits log u := by
  intro hcommits
  have hasks := h.asks_of_commits hplan hcommits
  rcases h.removed_cases hplan hu with hundiscovered | ⟨-, hnot⟩
  · exact hundiscovered.1 hasks.discovered
  · exact hnot hasks

end

end IndexPath

end Kide
