import Mathlib.Data.String.Basic
import Kide.Lib.Grouping
import Kide.Lib.OrderFree
import Kide.Workers.Registry

/-!
# What a selection routes where

`WorkerSelection.Partitions`: each source is in one batch of one worker that supports it, or in one unsupported group if
there is no such worker.

`selectDiscovered_partitions`: what `selectDiscovered` returns is such a partition, whatever the order of the sources and
of the workers.
-/

namespace Kide
open Collects Chunks Grouping

/-! ## Keys -/

theorem languageKey_other_ne {value key : String} (hkey : key ∈ ["kotlin", "java", "rust", "typescript"]) :
    languageKey (.other value) ≠ key := by
  intro h
  have hhead : (languageKey (.other value)).toList.head? = some 'o' := by
    unfold languageKey
    rw [String.toList_append]
    rfl
  rw [h] at hhead
  simp only [List.mem_cons, List.not_mem_nil, or_false] at hkey
  rcases hkey with rfl | rfl | rfl | rfl <;> exact absurd hhead (by decide)

theorem languageKey_injective {a b : Language} (h : languageKey a = languageKey b) : a = b := by
  cases a <;> cases b
  case other.other x y =>
    have hlist := congrArg String.toList h
    unfold languageKey at hlist
    rw [String.toList_append, String.toList_append] at hlist
    rw [String.toList_inj.1 (List.append_cancel_left hlist)]
  case other.kotlin | other.java | other.rust | other.typeScript => exact absurd h (languageKey_other_ne (by simp [languageKey]))
  case kotlin.other | java.other | rust.other | typeScript.other =>
    exact absurd h.symm (languageKey_other_ne (by simp [languageKey]))
  all_goals first | rfl | exact absurd h (by decide)

theorem groupKey_eq_iff {a b : SourceUnit} : groupKey a = groupKey b ↔ a.component = b.component ∧ a.language = b.language := by
  unfold groupKey
  rw [Prod.mk.injEq]
  constructor
  · rintro ⟨hcomponent, hlanguage⟩
    exact ⟨by cases ha : a.component; cases hb : b.component; simp_all, languageKey_injective hlanguage⟩
  · rintro ⟨hcomponent, hlanguage⟩
    rw [hcomponent, hlanguage]
    exact ⟨rfl, rfl⟩

instance : Std.Total pairLe := ⟨fun a b => by
  rcases lt_trichotomy a.1 b.1 with h | h | h
  · exact .inl (.inl h)
  · exact (le_total a.2 b.2).imp (fun h' => .inr ⟨h, h'⟩) fun h' => .inr ⟨h.symm, h'⟩
  · exact .inr (.inl h)⟩

instance : IsTrans (String × String) pairLe := ⟨by
  rintro a b c (hab | ⟨hab, hab'⟩) (hbc | ⟨hbc, hbc'⟩)
  · exact .inl (hab.trans hbc)
  · exact .inl (hbc ▸ hab)
  · exact .inl (hab ▸ hbc)
  · exact .inr ⟨hab.trans hbc, hab'.trans hbc'⟩⟩

theorem pairLe_antisymm {a b : String × String} (hab : pairLe a b) (hba : pairLe b a) : a = b := by
  rcases hab with hab | ⟨hab, hab'⟩ <;> rcases hba with hba | ⟨hba, hba'⟩
  · exact absurd hba (lt_asymm hab)
  · exact absurd hab (hba ▸ lt_irrefl _)
  · exact absurd hba (hab ▸ lt_irrefl _)
  · exact Prod.ext hab (le_antisymm hab' hba')

/-! ## Groups -/

section
variable {sources : List SourceUnit}

/-- A group holds the sources of one component and one language. -/
theorem mem_group {group : List SourceUnit} (h : group ∈ groupSources sources) :
    group ≠ [] ∧ ∀ a ∈ group, ∀ b ∈ group, groupKey a = groupKey b := by
  unfold groupSources at h
  obtain ⟨key, hkey, rfl⟩ := List.mem_map.1 h
  refine ⟨?_, fun a ha b hb => ?_⟩
  · obtain ⟨source, hsource, hsame⟩ := List.mem_map.1 ((mem_sortedKeys _ _).1 hkey)
    exact List.ne_nil_of_mem (List.mem_filter.2 ⟨hsource, decide_eq_true hsame⟩)
  · exact (of_decide_eq_true (List.mem_filter.1 ha).2).trans (of_decide_eq_true (List.mem_filter.1 hb).2).symm

theorem groupSources_flatten_perm : (groupSources sources).flatten.Perm sources := by
  have hkeys : ∀ l : List SourceUnit, (sortedKeys groupKey pairLe l).Nodup := by
    intro l
    rw [← collect_keys]
    exact collect_keys_nodup _ _ l
  unfold groupSources
  dsimp only
  rw [← List.flatMap_def]
  refine (groups_perm groupKey (hkeys _) fun source hsource => ?_).trans (List.perm_insertionSort _ sources)
  exact (mem_sortedKeys _ _).2 (List.mem_map_of_mem hsource)

theorem groupSources_perm {sources' : List SourceUnit} (hdistinct : (sources.map sourceOrderKey).Nodup)
    (h : sources.Perm sources') : groupSources sources = groupSources sources' := by
  have htotal : Std.Total fun a b : SourceUnit => pairLe (sourceOrderKey a) (sourceOrderKey b) := ⟨fun _ _ => total_of pairLe _ _⟩
  have htrans : IsTrans SourceUnit fun a b => pairLe (sourceOrderKey a) (sourceOrderKey b) := ⟨fun _ _ _ => trans_of pairLe⟩
  unfold groupSources
  rw [insertionSort_eq_of_perm (fun a ha b hb hab hba => ?_) h]
  exact List.inj_on_of_nodup_map hdistinct ha hb (pairLe_antisymm hab hba)

end

/-! ## One group -/

section
variable (manifest : ProjectManifest) (required : List WorkerCapability) (workers : List DiscoveredWorker) (limit : BatchLimit)

/-- What becomes of one group alone. -/
abbrev selected (group : List SourceUnit) : WorkerSelection := selectGroup manifest required workers limit {} group

/-- The sources of a selection, batch after batch and group after group. -/
def WorkerSelection.sources (selection : WorkerSelection) : List SourceUnit :=
  selection.batches.flatMap (·.sourceUnits) ++ selection.unsupported.flatMap (·.sourceUnits)

/-- Some worker can analyze the source. -/
def Supported (source : SourceUnit) : Prop :=
  ∃ worker ∈ workers, worker.supports (manifest.buildSystemOf source.component) source.language required = true

variable {manifest required workers limit} {group : List SourceUnit}

theorem selectGroup_eq (selection : WorkerSelection) : selectGroup manifest required workers limit selection group =
    ⟨selection.batches ++ (selected manifest required workers limit group).batches,
      selection.unsupported ++ (selected manifest required workers limit group).unsupported⟩ := by
  cases group with
  | nil => simp [selectGroup]
  | cons first rest =>
    unfold selected selectGroup
    dsimp only
    split <;> simp

theorem selected_cases (hgroup : group ≠ []) (hkey : ∀ a ∈ group, ∀ b ∈ group, groupKey a = groupKey b) :
    ∃ first ∈ group,
      (∃ worker ∈ workers, worker.supports (manifest.buildSystemOf first.component) first.language required = true ∧
        selected manifest required workers limit group =
          ⟨(chunks limit group.length group).map fun chunk => ⟨worker, first.component, first.language, chunk⟩, []⟩) ∨
      ¬ Supported manifest required workers first ∧ selected manifest required workers limit group =
          ⟨[], [⟨first.component, first.language, manifest.buildSystemOf first.component, group⟩]⟩ := by
  cases group with
  | nil => exact absurd rfl hgroup
  | cons first rest =>
    refine ⟨first, List.mem_cons_self, ?_⟩
    unfold selected selectGroup
    dsimp only
    cases hfind : workers.find? (·.supports (manifest.buildSystemOf first.component) first.language required) with
    | some worker =>
      left
      have hsupports := List.find?_some hfind
      exact ⟨worker, List.mem_of_find?_eq_some hfind, hsupports, rfl⟩
    | none =>
      right
      refine ⟨?_, rfl⟩
      rintro ⟨worker, hworker, hsupports⟩
      exact List.find?_eq_none.1 hfind worker hworker hsupports

theorem selected_sources (hgroup : group ≠ []) (hkey : ∀ a ∈ group, ∀ b ∈ group, groupKey a = groupKey b) :
    (selected manifest required workers limit group).sources = group := by
  obtain ⟨first, -, ⟨worker, -, -, hselected⟩ | ⟨-, hselected⟩⟩ := @selected_cases manifest required workers limit _ hgroup hkey <;>
    rw [hselected] <;> unfold WorkerSelection.sources
  · rw [List.flatMap_nil, List.append_nil, List.flatMap_map]
    show List.flatMap id (chunks limit group.length group) = group
    rw [← List.flatten_eq_flatMap, chunks_flatten limit le_rfl]
  · simp

end

/-! ## All groups -/

section
variable {manifest : ProjectManifest} {required : List WorkerCapability} {workers : List DiscoveredWorker} {limit : BatchLimit}

theorem foldl_selectGroup_eq (groups : List (List SourceUnit)) (selection : WorkerSelection) :
    groups.foldl (selectGroup manifest required workers limit) selection =
      ⟨selection.batches ++ groups.flatMap fun group => (selected manifest required workers limit group).batches,
        selection.unsupported ++ groups.flatMap fun group => (selected manifest required workers limit group).unsupported⟩ := by
  induction groups generalizing selection with
  | nil => simp
  | cons group groups ih => rw [List.foldl_cons, ih, selectGroup_eq selection, List.flatMap_cons, List.flatMap_cons,
      List.append_assoc, List.append_assoc]

theorem foldl_selectGroup_sources (groups : List (List SourceUnit))
    (h : ∀ group ∈ groups, group ≠ [] ∧ ∀ a ∈ group, ∀ b ∈ group, groupKey a = groupKey b) :
    (groups.foldl (selectGroup manifest required workers limit) {}).sources.Perm groups.flatten := by
  rw [foldl_selectGroup_eq]
  unfold WorkerSelection.sources
  simp only [List.nil_append]
  induction groups with
  | nil => exact .nil
  | cons group groups ih =>
    obtain ⟨hne, hkey⟩ := h group List.mem_cons_self
    have hfirst := @selected_sources manifest required workers limit group hne hkey
    unfold WorkerSelection.sources at hfirst
    have hrest := ih fun group hgroup => h group (List.mem_cons_of_mem _ hgroup)
    rw [List.flatMap_cons, List.flatMap_cons, List.flatMap_append, List.flatMap_append, List.flatten_cons]
    have hboth := hrest.append_left group
    nth_rewrite 1 [← hfirst] at hboth
    refine List.Perm.trans ?_ hboth
    simp only [List.append_assoc]
    refine List.Perm.append_left _ ?_
    rw [← List.append_assoc, ← List.append_assoc]
    exact List.perm_append_comm.append_right _

end

/-! ## The selection -/

/-- Each source is in one batch of one worker that supports it, or in one group if no worker does. -/
structure WorkerSelection.Partitions (selection : WorkerSelection) (manifest : ProjectManifest) (sources : List SourceUnit)
    (required : List WorkerCapability) (workers : List DiscoveredWorker) (limit : BatchLimit) : Prop where
  batched : ∀ source ∈ sources, Supported manifest required workers source →
    (∃ batch, selection.batches.filter (source ∈ ·.sourceUnits) = [batch]) ∧
      ∀ group ∈ selection.unsupported, source ∉ group.sourceUnits
  unsupported : ∀ source ∈ sources, ¬ Supported manifest required workers source →
    (∃ group, selection.unsupported.filter (source ∈ ·.sourceUnits) = [group]) ∧
      ∀ batch ∈ selection.batches, source ∉ batch.sourceUnits
  once : selection.sources.Nodup ∧ ∀ source ∈ selection.sources, source ∈ sources
  batch : ∀ batch ∈ selection.batches, batch.worker ∈ workers ∧
    batch.worker.supports (manifest.buildSystemOf batch.component) batch.language required = true ∧
    (∀ source ∈ batch.sourceUnits, source.component = batch.component ∧ source.language = batch.language) ∧
    batch.sourceUnits ≠ [] ∧ batch.sourceUnits.length ≤ limit
  group : ∀ group ∈ selection.unsupported, group.buildSystem = manifest.buildSystemOf group.component ∧
    (∀ source ∈ group.sourceUnits, source.component = group.component ∧ source.language = group.language) ∧
    group.sourceUnits ≠ []

section
variable {manifest : ProjectManifest} {sources : List SourceUnit} {required : List WorkerCapability}
  {workers : List DiscoveredWorker} {limit : BatchLimit}

theorem selectDiscovered_sources : (selectDiscovered manifest sources required workers limit).sources.Perm sources :=
  (foldl_selectGroup_sources _ fun _ hgroup => mem_group hgroup).trans groupSources_flatten_perm

theorem Supported.sorted {source : SourceUnit} :
    Supported manifest required (workers.insertionSort fun a b => a.installation.name ≤ b.installation.name) source ↔
      Supported manifest required workers source := by
  unfold Supported
  simp only [List.mem_insertionSort]

theorem mem_batches {batch : WorkerBatch} (h : batch ∈ (selectDiscovered manifest sources required workers limit).batches) :
    batch.worker ∈ workers ∧
      batch.worker.supports (manifest.buildSystemOf batch.component) batch.language required = true ∧
      (∀ source ∈ batch.sourceUnits, source.component = batch.component ∧ source.language = batch.language) ∧
      batch.sourceUnits ≠ [] ∧ batch.sourceUnits.length ≤ limit := by
  unfold selectDiscovered at h
  rw [foldl_selectGroup_eq] at h
  simp only [List.nil_append, List.mem_flatMap] at h
  obtain ⟨group, hgroup, hbatch⟩ := h
  obtain ⟨hne, hkey⟩ := mem_group hgroup
  obtain ⟨first, hfirst, ⟨worker, hworker, hsupports, hselected⟩ | ⟨-, hselected⟩⟩ := selected_cases hne hkey <;>
    rw [hselected] at hbatch
  · obtain ⟨chunk, hchunk, rfl⟩ := List.mem_map.1 hbatch
    obtain ⟨hpositive, hshort⟩ := chunk_length limit hchunk
    refine ⟨(List.mem_insertionSort _).1 hworker, hsupports, fun source hsource => ?_, List.length_pos_iff.1 hpositive, hshort⟩
    have hmem : source ∈ group := by
      rw [← chunks_flatten limit (le_refl group.length)]
      exact List.mem_flatten.2 ⟨chunk, hchunk, hsource⟩
    exact groupKey_eq_iff.1 (hkey source hmem first hfirst)
  · cases hbatch

theorem mem_unsupported {group : UnsupportedBatch}
    (h : group ∈ (selectDiscovered manifest sources required workers limit).unsupported) :
    group.buildSystem = manifest.buildSystemOf group.component ∧
      (∀ source ∈ group.sourceUnits, source.component = group.component ∧ source.language = group.language) ∧
      group.sourceUnits ≠ [] ∧ ∀ source ∈ group.sourceUnits, ¬ Supported manifest required workers source := by
  unfold selectDiscovered at h
  rw [foldl_selectGroup_eq] at h
  simp only [List.nil_append, List.mem_flatMap] at h
  obtain ⟨units, hunits, hgroup⟩ := h
  obtain ⟨hne, hkey⟩ := mem_group hunits
  obtain ⟨first, hfirst, ⟨worker, -, -, hselected⟩ | ⟨hnone, hselected⟩⟩ := selected_cases hne hkey <;>
    rw [hselected] at hgroup
  · cases hgroup
  · obtain rfl := List.mem_singleton.1 hgroup
    have hsame : ∀ source ∈ units, source.component = first.component ∧ source.language = first.language :=
      fun source hsource => groupKey_eq_iff.1 (hkey source hsource first hfirst)
    refine ⟨rfl, hsame, hne, fun source hsource hsupported => hnone (Supported.sorted.2 ?_)⟩
    obtain ⟨worker, hworker, hsupports⟩ := hsupported
    obtain ⟨hcomponent, hlanguage⟩ := hsame source hsource
    exact ⟨worker, hworker, hcomponent ▸ hlanguage ▸ hsupports⟩

theorem selectDiscovered_is_partition (hsources : sources.Nodup) :
    (selectDiscovered manifest sources required workers limit).Partitions manifest sources required workers limit := by
  have hperm := @selectDiscovered_sources manifest sources required workers limit
  have hnodup : (selectDiscovered manifest sources required workers limit).sources.Nodup := hperm.nodup_iff.2 hsources
  obtain ⟨hbatches, hunsupported, -⟩ := List.nodup_append'.1 hnodup
  have hsupports : ∀ batch ∈ (selectDiscovered manifest sources required workers limit).batches,
      ∀ source ∈ batch.sourceUnits, Supported manifest required workers source := by
    intro batch hbatch source hsource
    obtain ⟨hworker, hsupports, hsame, -⟩ := mem_batches hbatch
    obtain ⟨hcomponent, hlanguage⟩ := hsame source hsource
    exact ⟨batch.worker, hworker, by rw [hcomponent, hlanguage]; exact hsupports⟩
  have hplace : ∀ source ∈ sources,
      (∃ batch ∈ (selectDiscovered manifest sources required workers limit).batches, source ∈ batch.sourceUnits) ∨
        ∃ group ∈ (selectDiscovered manifest sources required workers limit).unsupported, source ∈ group.sourceUnits := by
    intro source hsource
    have hmem := List.mem_append.1 (hperm.mem_iff.2 hsource)
    rwa [List.mem_flatMap, List.mem_flatMap] at hmem
  refine ⟨fun source hsource hsupported => ?_, fun source hsource hnot => ?_, ⟨hnodup, fun _ => hperm.mem_iff.1⟩,
    fun _ => mem_batches, fun group hgroup => ?_⟩
  · have hgroups : ∀ group ∈ (selectDiscovered manifest sources required workers limit).unsupported,
        source ∉ group.sourceUnits := fun group hgroup hmem => (mem_unsupported hgroup).2.2.2 source hmem hsupported
    rcases hplace source hsource with ⟨batch, hbatch, hmem⟩ | ⟨group, hgroup, hmem⟩
    · exact ⟨⟨batch, filter_mem_eq_singleton _ hbatches hbatch hmem⟩, hgroups⟩
    · exact absurd hmem (hgroups group hgroup)
  · have hnone : ∀ batch ∈ (selectDiscovered manifest sources required workers limit).batches,
        source ∉ batch.sourceUnits := fun batch hbatch hmem => hnot (hsupports batch hbatch source hmem)
    rcases hplace source hsource with ⟨batch, hbatch, hmem⟩ | ⟨group, hgroup, hmem⟩
    · exact absurd hmem (hnone batch hbatch)
    · exact ⟨⟨group, filter_mem_eq_singleton _ hunsupported hgroup hmem⟩, hnone⟩
  · obtain ⟨hsystem, hsame, hne, -⟩ := mem_unsupported hgroup
    exact ⟨hsystem, hsame, hne⟩

theorem selectDiscovered_perm {sources' : List SourceUnit} {workers' : List DiscoveredWorker}
    (hsources : (sources.map sourceOrderKey).Nodup) (hworkers : (workers.map (·.installation.name)).Nodup)
    (h : sources.Perm sources') (h' : workers.Perm workers') :
    selectDiscovered manifest sources required workers limit = selectDiscovered manifest sources' required workers' limit := by
  have htotal : Std.Total fun a b : DiscoveredWorker => a.installation.name ≤ b.installation.name :=
    ⟨fun a b => le_total a.installation.name b.installation.name⟩
  have htrans : IsTrans DiscoveredWorker fun a b => a.installation.name ≤ b.installation.name := ⟨fun _ _ _ => le_trans⟩
  unfold selectDiscovered
  rw [groupSources_perm hsources h, insertionSort_eq_of_perm (fun a ha b hb hab hba => ?_) h']
  exact List.inj_on_of_nodup_map hworkers ha hb (le_antisymm hab hba)

end

/-- **Selection.** The sources, of distinct components and paths, are partitioned into batches of workers that support them
and into unsupported groups, whatever the order of the sources and of the workers, whose names are distinct. -/
theorem selectDiscovered_partitions (manifest : ProjectManifest) (sources : List SourceUnit)
    (required : List WorkerCapability) (workers : List DiscoveredWorker) (limit : BatchLimit)
    (hsources : (sources.map fun source => (source.component, source.path)).Nodup)
    (hworkers : (workers.map (·.installation.name)).Nodup) :
    (selectDiscovered manifest sources required workers limit).Partitions manifest sources required workers limit ∧
      ∀ sources' workers', sources.Perm sources' → workers.Perm workers' →
        selectDiscovered manifest sources' required workers' limit = selectDiscovered manifest sources required workers limit := by
  refine ⟨selectDiscovered_is_partition hsources.of_map, fun _ _ h h' => (selectDiscovered_perm ?_ hworkers h h').symm⟩
  have hkeys : sources.map sourceOrderKey =
      (sources.map fun source => (source.component, source.path)).map fun key => (key.1.asStr, key.2.asStr) := by
    rw [List.map_map]
    rfl
  rw [hkeys]
  refine hsources.map_on ?_
  rintro ⟨⟨a⟩, ⟨a'⟩⟩ - ⟨⟨b⟩, ⟨b'⟩⟩ - h
  cases h
  rfl

/-! ## Two languages, one worker -/

def kotlinWorker : DiscoveredWorker where
  installation := ⟨"kotlin", ⟨"kide-kotlin-jvm", [], none, [], 600000, 60000⟩, [.gradle, .filesystem]⟩
  capabilities := ⟨⟨"kide-kotlin-jvm", "0.1.0"⟩, WORKER_PROTOCOL_VERSION, [.kotlin], [.handshake, .fileAnalysisSnapshot], []⟩

def emptyManifest : ProjectManifest := ⟨⟨"workspace"⟩, ⟨"."⟩, [], [], ⟨"sha256:manifest"⟩, sampleProvenance⟩

def mixedSources : List SourceUnit :=
  [sampleUnit "B.kt" "sha256:b", { sampleUnit "C.java" "sha256:c" with language := .java }, sampleUnit "A.kt" "sha256:a"]

theorem mixedSources_partitioned :
    (selectDiscovered emptyManifest mixedSources [.fileAnalysisSnapshot] [kotlinWorker] ⟨1, by decide⟩).Partitions emptyManifest
      mixedSources [.fileAnalysisSnapshot] [kotlinWorker] ⟨1, by decide⟩ :=
  (selectDiscovered_partitions emptyManifest mixedSources [.fileAnalysisSnapshot] [kotlinWorker] ⟨1, by decide⟩ (by decide)
    (by decide)).1

example : (selectDiscovered emptyManifest mixedSources [.fileAnalysisSnapshot] [kotlinWorker] ⟨1, by decide⟩).batches.map
    (·.sourceUnits.map (·.path.asStr)) = [["src/A.kt"], ["src/B.kt"]] := by decide +kernel

end Kide
