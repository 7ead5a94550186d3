import Kide.Lib.Chunks
import Kide.Lib.Collect
import Kide.Store.Publication
import Kide.Workers.Supervisor

/-!
# The worker registry

Discovery and selection of workers (`worker_registry.rs`): every installation is started just long
enough to answer a handshake, and each `(component, language)` group of sources goes to the first
compatible worker, cut into batches of bounded size.

`selectDiscovered_covers`: a selection without unsupported groups routes exactly the given sources.
-/

namespace Kide
open Runs Collects Chunks

structure WorkerInstallation where
  name : String
  launch : WorkerLaunch
  buildSystems : List BuildSystem
deriving DecidableEq, Repr

structure DiscoveredWorker where
  installation : WorkerInstallation
  capabilities : WorkerCapabilities
deriving DecidableEq, Repr

/-- A cold batch has exactly one worker and one component build context. -/
structure WorkerBatch where
  worker : DiscoveredWorker
  component : ComponentId
  language : Language
  sourceUnits : List SourceUnit
deriving DecidableEq, Repr

structure UnsupportedBatch where
  component : ComponentId
  language : Language
  buildSystem : BuildSystem
  sourceUnits : List SourceUnit
deriving DecidableEq, Repr

structure WorkerSelection where
  batches : List WorkerBatch := []
  unsupported : List UnsupportedBatch := []
deriving DecidableEq, Repr

/-- A failed handshake, with the worker it belongs to. -/
structure WorkerRegistryError where
  worker : String
  source : WorkerSupervisorError
deriving DecidableEq

/-! ## Discovery -/

/-- Starts each candidate only long enough to obtain static capabilities. -/
def discover (env : WorkerEnvironment) (installations : List WorkerInstallation) :
    Run Workers WorkerRegistryError (List DiscoveredWorker) :=
  installations.foldlM (fun discovered installation => do
    let supervisor ← Workers.newSupervisor installation.launch
    let capabilities ← mapError (WorkerRegistryError.mk installation.name)
      (Workers.handshake env supervisor "worker-registry-handshake")
    pure (discovered ++ [⟨installation, capabilities⟩])) []

/-! ## Selection -/

/-- A batch limit; zero is refused by an assertion. -/
abbrev BatchLimit := Chunks.Size

def DEFAULT_MAX_SOURCE_UNITS_PER_WORKER_BATCH : BatchLimit := ⟨128, by decide⟩

def languageKey : Language → String
  | .kotlin => "kotlin"
  | .java => "java"
  | .rust => "rust"
  | .typeScript => "typescript"
  | .other value => "other:" ++ value

/-- Order of `(String, String)` keys. -/
def pairLe (a b : String × String) : Prop := a.1 < b.1 ∨ (a.1 = b.1 ∧ a.2 ≤ b.2)

instance : DecidableRel pairLe := fun a b => inferInstanceAs (Decidable (a.1 < b.1 ∨ (a.1 = b.1 ∧ a.2 ≤ b.2)))

def sourceOrderKey (source : SourceUnit) : String × String := (source.component.asStr, source.path.asStr)

def groupKey (source : SourceUnit) : String × String := (source.component.asStr, languageKey source.language)

/-- The groups in key order, each with its sources in component and path order. -/
def groupSources (sources : List SourceUnit) : List (List SourceUnit) :=
  let sorted := sources.insertionSort fun a b => pairLe (sourceOrderKey a) (sourceOrderKey b)
  (sortedKeys groupKey pairLe sorted).map fun key => sorted.filter (groupKey · = key)

def ProjectManifest.buildSystemOf (manifest : ProjectManifest) (component : ComponentId) : BuildSystem :=
  ((lastOf (·.id) manifest.components component).map (·.buildSystem)).getD .filesystem

def DiscoveredWorker.supports (worker : DiscoveredWorker) (buildSystem : BuildSystem) (language : Language)
    (required : List WorkerCapability) : Bool :=
  buildSystem ∈ worker.installation.buildSystems ∧ language ∈ worker.capabilities.languages ∧
    ∀ capability ∈ required, capability ∈ worker.capabilities.capabilities

/-- The batches of one group, or its place among the unsupported ones. -/
def selectGroup (manifest : ProjectManifest) (required : List WorkerCapability) (workers : List DiscoveredWorker)
    (maxSourceUnitsPerBatch : BatchLimit) (selection : WorkerSelection) : List SourceUnit → WorkerSelection
  | [] => selection
  | first :: rest =>
    let buildSystem := manifest.buildSystemOf first.component
    match workers.find? (·.supports buildSystem first.language required) with
    | some worker =>
      { selection with
        batches := selection.batches ++ (chunks maxSourceUnitsPerBatch (first :: rest).length (first :: rest)).map fun chunk =>
          ⟨worker, first.component, first.language, chunk⟩ }
    | none =>
      { selection with
        unsupported := selection.unsupported ++ [⟨first.component, first.language, buildSystem, first :: rest⟩] }

def selectDiscovered (manifest : ProjectManifest) (sources : List SourceUnit) (required : List WorkerCapability)
    (workers : List DiscoveredWorker) (maxSourceUnitsPerBatch : BatchLimit) : WorkerSelection :=
  let workers := workers.insertionSort fun a b => a.installation.name ≤ b.installation.name
  (groupSources sources).foldl (selectGroup manifest required workers maxSourceUnitsPerBatch) {}

/-- Negotiates with every installation, then selects. -/
def selectWithBatchLimit (env : WorkerEnvironment) (installations : List WorkerInstallation) (manifest : ProjectManifest)
    (sources : List SourceUnit) (required : List WorkerCapability) (maxSourceUnitsPerBatch : BatchLimit) :
    Run Workers WorkerRegistryError WorkerSelection := do
  let discovered ← discover env installations
  pure (selectDiscovered manifest sources required discovered maxSourceUnitsPerBatch)

/-! ## Coverage -/

theorem mem_groupSources {sources : List SourceUnit} {source : SourceUnit} :
    (∃ group ∈ groupSources sources, source ∈ group) ↔ source ∈ sources := by
  unfold groupSources
  simp only [List.mem_map, mem_sortedKeys]
  constructor
  · rintro ⟨_, ⟨key, -, rfl⟩, hsource⟩
    exact (List.mem_insertionSort _).1 (List.mem_filter.1 hsource).1
  · intro h
    have hsorted := (List.mem_insertionSort fun a b => pairLe (sourceOrderKey a) (sourceOrderKey b)).2 h
    exact ⟨_, ⟨groupKey source, ⟨source, hsorted, rfl⟩, rfl⟩, List.mem_filter.2 ⟨hsorted, decide_eq_true rfl⟩⟩

/-- The sources a selection routes to a worker. -/
def WorkerSelection.Routes (selection : WorkerSelection) (source : SourceUnit) : Prop :=
  ∃ batch ∈ selection.batches, source ∈ batch.sourceUnits

theorem selectGroup_routes {manifest : ProjectManifest} {required : List WorkerCapability}
    {workers : List DiscoveredWorker} {limit : BatchLimit} {selection : WorkerSelection} {group : List SourceUnit}
    (h : (selectGroup manifest required workers limit selection group).unsupported = []) (source : SourceUnit) :
    selection.unsupported = [] ∧
      ((selectGroup manifest required workers limit selection group).Routes source ↔
        selection.Routes source ∨ source ∈ group) := by
  cases group with
  | nil => exact ⟨h, by simp [selectGroup]⟩
  | cons first rest =>
    unfold selectGroup at h ⊢
    dsimp only at h ⊢
    split at h
    · refine ⟨h, ?_⟩
      have hflatten : (∃ chunk ∈ chunks limit (first :: rest).length (first :: rest), source ∈ chunk) ↔ source ∈ first :: rest := by
        rw [← List.mem_flatten, chunks_flatten limit le_rfl]
      rw [← hflatten]
      simp only [WorkerSelection.Routes, List.mem_append, List.mem_map, or_and_right, exists_or]
      refine or_congr_right ⟨?_, ?_⟩
      · rintro ⟨_, ⟨chunk, hchunk, rfl⟩, hsource⟩
        exact ⟨chunk, hchunk, hsource⟩
      · rintro ⟨chunk, hchunk, hsource⟩
        exact ⟨_, ⟨chunk, hchunk, rfl⟩, hsource⟩
    · exact absurd h (List.append_ne_nil_of_right_ne_nil _ (List.cons_ne_nil _ _))

theorem foldl_selectGroup_routes {manifest : ProjectManifest} {required : List WorkerCapability}
    {workers : List DiscoveredWorker} {limit : BatchLimit} {groups : List (List SourceUnit)} {selection : WorkerSelection}
    (h : (groups.foldl (selectGroup manifest required workers limit) selection).unsupported = [])
    (source : SourceUnit) :
    selection.unsupported = [] ∧
      ((groups.foldl (selectGroup manifest required workers limit) selection).Routes source ↔
        selection.Routes source ∨ ∃ group ∈ groups, source ∈ group) := by
  induction groups generalizing selection with
  | nil => exact ⟨h, by simp⟩
  | cons group groups ih =>
    obtain ⟨hunsupported, hroutes⟩ := ih h
    obtain ⟨hfirst, hgroup⟩ := selectGroup_routes hunsupported source
    refine ⟨hfirst, ?_⟩
    rw [List.foldl_cons, hroutes, hgroup]
    simp only [List.mem_cons, exists_eq_or_imp, or_assoc]

/-- **Coverage.** Without unsupported groups every source is in some batch, and nothing else is. -/
theorem selectDiscovered_covers {manifest : ProjectManifest} {sources : List SourceUnit}
    {required : List WorkerCapability} {workers : List DiscoveredWorker} {limit : BatchLimit}
    (h : (selectDiscovered manifest sources required workers limit).unsupported = []) (source : SourceUnit) :
    (selectDiscovered manifest sources required workers limit).Routes source ↔ source ∈ sources := by
  have hroutes := (foldl_selectGroup_routes h source).2
  refine hroutes.trans ?_
  rw [mem_groupSources, or_iff_right]
  rintro ⟨batch, hbatch, -⟩
  cases hbatch

end Kide
