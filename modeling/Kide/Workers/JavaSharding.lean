import Kide.Artifact.Bytecode
import Kide.Lib.Checks
import Kide.Lib.Collect
import Kide.Store.Storable
import Mathlib.Data.Finset.Dedup

/-!
# Java shards

A batch of Java sources is analyzed shard by shard, one for each compilation context that claims a source
(`JavaCompilationPlanner`, `JavaSemanticExtractor.analyze`). The compiler is a parameter.

* `count_shards` : a selected source is in as many shards as contexts claim it;
* `sharding_partitions_iff` : the code requires that the contexts cover the batch. They partition it, and the answer has one
  snapshot for each source, exactly if no two sources are one file and no source is claimed twice.
-/

namespace Kide
open Checks Collects

/-! ## Contexts and shards -/

/-- Build-neutral inputs for one Java component. Paths are absolute. -/
structure JavaCompilationContext where
  component : ComponentId
  sourceFiles : List String
  ownedSourceFiles : List String
  sourceRoots : List String
  classpath : List String
  jdkHome : String
  languageLevel : Option String
  unresolvedDependencies : List String
  artifactContext : String
deriving DecidableEq, Repr

/-- The selected sources of a shard, under their canonical paths. -/
structure Shard where
  selected : List SourceUnit
  context : JavaCompilationContext
deriving DecidableEq, Repr

section
variable (canonical : WorkspacePath → String)

namespace JavaCompilationPlanner

/-- The context owns the file, or the source names its component. -/
def claims (context : JavaCompilationContext) (source : SourceUnit) : Bool :=
  canonical source.path ∈ context.ownedSourceFiles ∨ source.component = context.component

def shard (selected : List SourceUnit) (context : JavaCompilationContext) : Option Shard :=
  let requested := selected.filter (claims canonical context)
  if requested = [] then none else some ⟨requested, context⟩

def shards (selected : List SourceUnit) (contexts : List JavaCompilationContext) : Except String (List Shard) := do
  let found := contexts.filterMap (shard canonical selected)
  reject (((found.flatMap (·.selected)).map fun source => canonical source.path).toFinset ≠
      (selected.map fun source => canonical source.path).toFinset)
    "Java source units do not belong to a discovered compilation context"
  .ok found

end JavaCompilationPlanner

namespace JavaSemanticExtractor
open JavaCompilationPlanner

/-- The snapshots of a shard, in the order of their paths. -/
def analyzePartition (javac : Shard → Except String (String → FileAnalysisSnapshot)) (shard : Shard) :
    Except String (List FileAnalysisSnapshot) := do
  let facts ← javac shard
  .ok ((shard.selected.insertionSort fun a b => JvmBytecodeExtractor.codeUnitsLe (canonical a.path) (canonical b.path)).map fun source =>
    { facts (canonical source.path) with sourceUnit := source })

def selectedSources (sourceUnits : List SourceUnit) : List SourceUnit := associateBy (fun source => canonical source.path) sourceUnits

def analyze (javac : Shard → Except String (String → FileAnalysisSnapshot)) (sourceUnits : List SourceUnit)
    (contexts : List JavaCompilationContext) : Except String (List FileAnalysisSnapshot) := do
  let selected := selectedSources canonical sourceUnits
  reject (selected = []) "Java analysis requires source files"
  reject (contexts = []) "execution plan contains no Java compilation contexts"
  let found ← shards canonical selected contexts
  let answers ← found.mapM (analyzePartition canonical javac)
  .ok answers.flatten

end JavaSemanticExtractor

end

/-! ## Shards of a batch -/

section
variable {canonical : WorkspacePath → String} {selected : List SourceUnit} {contexts : List JavaCompilationContext}

namespace JavaCompilationPlanner

theorem mem_of_shard {context : JavaCompilationContext} {found : Shard} (h : shard canonical selected context = some found) :
    found.selected = selected.filter (claims canonical context) := by
  unfold shard at h
  dsimp only at h
  split at h
  · cases h
  · obtain rfl := Option.some.inj h
    rfl

/-- A selected source is in as many shards as contexts claim it. -/
theorem count_shards {source : SourceUnit} (h : source ∈ selected) (contexts : List JavaCompilationContext) :
    (contexts.filterMap (shard canonical selected)).countP (fun found => source ∈ found.selected) =
      contexts.countP fun context => claims canonical context source := by
  induction contexts with
  | nil => rfl
  | cons context contexts ih =>
    cases hshard : shard canonical selected context with
    | none =>
      have hnone : claims canonical context source = false := by
        unfold shard at hshard
        dsimp only at hshard
        split at hshard
        · next hempty => simpa using List.filter_eq_nil_iff.1 hempty source h
        · cases hshard
      rw [List.filterMap_cons_none hshard, ih, List.countP_cons, hnone]
      rfl
    | some found =>
      have hmem : source ∈ found.selected ↔ claims canonical context source = true := by
        rw [mem_of_shard hshard, List.mem_filter, and_iff_right h]
      rw [List.filterMap_cons_some hshard, List.countP_cons, List.countP_cons, ih]
      simp only [hmem, decide_eq_true_eq]

theorem nodup_of_shard (hselected : selected.Nodup) {found : Shard} (h : found ∈ contexts.filterMap (shard canonical selected)) :
    found.selected.Nodup := by
  obtain ⟨context, -, hshard⟩ := List.mem_filterMap.1 h
  rw [mem_of_shard hshard]
  exact hselected.filter _

theorem subset_of_shard {found : Shard} (h : found ∈ contexts.filterMap (shard canonical selected)) : ∀ source ∈ found.selected, source ∈ selected := by
  obtain ⟨context, -, hshard⟩ := List.mem_filterMap.1 h
  rw [mem_of_shard hshard]
  exact fun source hmem => (List.mem_filter.1 hmem).1

end JavaCompilationPlanner

/-- Among lists without duplicates an element is as often as there are lists that have it. -/
theorem count_flatMap {α β : Type} [DecidableEq β] {f : α → List β} {l : List α} (h : ∀ a ∈ l, (f a).Nodup) (b : β) :
    (l.flatMap f).count b = l.countP fun a => b ∈ f a := by
  induction l with
  | nil => rfl
  | cons a l ih =>
    obtain ⟨ha, hl⟩ := List.forall_mem_cons.1 h
    rw [List.flatMap_cons, List.count_append, ih hl, List.countP_cons, ha.count, Nat.add_comm]
    simp only [decide_eq_true_eq]

namespace JavaSemanticExtractor
open JavaCompilationPlanner

/-- The shards that an answer is made of. -/
def shardsOf (canonical : WorkspacePath → String) (sourceUnits : List SourceUnit) (contexts : List JavaCompilationContext) : List Shard :=
  contexts.filterMap (shard canonical (selectedSources canonical sourceUnits))

variable {javac : Shard → Except String (String → FileAnalysisSnapshot)} {sourceUnits : List SourceUnit}
  {snapshots : List FileAnalysisSnapshot}

theorem analyzePartition_units {found : Shard} {answer : List FileAnalysisSnapshot}
    (h : analyzePartition canonical javac found = .ok answer) : (answer.map (·.sourceUnit)).Perm found.selected := by
  obtain ⟨facts, -, h⟩ := bind_eq_ok_iff.1 h
  obtain rfl := Except.ok.inj h
  rw [List.map_map]
  have hid : ((fun snapshot : FileAnalysisSnapshot => snapshot.sourceUnit) ∘ fun source : SourceUnit =>
      ({ facts (canonical source.path) with sourceUnit := source } : FileAnalysisSnapshot)) = id := rfl
  rw [hid, List.map_id]
  exact List.perm_insertionSort _ _

/-- The units of the answer are those of the shards, one after the other. -/
theorem analyze_units (h : analyze canonical javac sourceUnits contexts = .ok snapshots) :
    (snapshots.map (·.sourceUnit)).Perm ((shardsOf canonical sourceUnits contexts).flatMap (·.selected)) := by
  obtain ⟨_, -, h⟩ := bind_eq_ok_iff.1 h
  obtain ⟨_, -, h⟩ := bind_eq_ok_iff.1 h
  obtain ⟨found, hfound, h⟩ := bind_eq_ok_iff.1 h
  obtain ⟨answers, hanswers, h⟩ := bind_eq_ok_iff.1 h
  obtain rfl := Except.ok.inj h
  obtain ⟨_, -, hshards⟩ := bind_eq_ok_iff.1 hfound
  obtain rfl := Except.ok.inj hshards
  rw [List.map_flatten, List.flatMap_def]
  refine List.Perm.flatten_congr ?_
  rw [List.forall₂_map_left_iff, List.forall₂_map_right_iff]
  exact ((mapM_eq_ok_iff.1 hanswers).imp fun _ _ hpart => analyzePartition_units hpart).flip

/-- Every selected source is in one shard, and the answer has one snapshot for each and no other. -/
def Partitions (canonical : WorkspacePath → String) (sourceUnits : List SourceUnit) (contexts : List JavaCompilationContext)
    (snapshots : List FileAnalysisSnapshot) : Prop :=
  (∀ source ∈ sourceUnits, (shardsOf canonical sourceUnits contexts).countP (fun found => source ∈ found.selected) = 1) ∧
    (snapshots.map (·.sourceUnit)).Perm sourceUnits

/-- **Sharding.** -/
theorem sharding_partitions_iff (h : analyze canonical javac sourceUnits contexts = .ok snapshots) :
    Partitions canonical sourceUnits contexts snapshots ↔
      (sourceUnits.map fun source => canonical source.path).Nodup ∧
        ∀ source ∈ sourceUnits, contexts.countP (fun context => claims canonical context source) = 1 := by
  have hselected : (selectedSources canonical sourceUnits).Nodup := associateBy_nodup _ _
  have hcount : ∀ source, ((shardsOf canonical sourceUnits contexts).flatMap (·.selected)).count source =
      (shardsOf canonical sourceUnits contexts).countP fun found => source ∈ found.selected :=
    fun source => count_flatMap (fun _ hfound => nodup_of_shard hselected hfound) source
  have hsubset : ∀ source ∈ (shardsOf canonical sourceUnits contexts).flatMap (·.selected),
      source ∈ selectedSources canonical sourceUnits := by
    intro source hmem
    obtain ⟨found, hfound, hin⟩ := List.mem_flatMap.1 hmem
    exact subset_of_shard hfound source hin
  constructor
  · rintro ⟨hone, hperm⟩
    have hunits := (analyze_units h).symm.trans hperm
    have hkept : ∀ source ∈ sourceUnits, source ∈ selectedSources canonical sourceUnits := fun source hmem =>
      hsubset source (hunits.mem_iff.2 hmem)
    have hnodup : sourceUnits.Nodup := by
      refine List.nodup_iff_count_le_one.2 fun source => ?_
      by_cases hmem : source ∈ sourceUnits
      · rw [← hunits.count_eq, hcount, hone source hmem]
      · rw [List.count_eq_zero_of_not_mem hmem]
        exact Nat.zero_le 1
    refine ⟨hnodup.map_on fun a ha b hb => associateBy_inj _ (hkept a ha) (hkept b hb), fun source hmem => ?_⟩
    rw [← count_shards (hkept source hmem)]
    exact hone source hmem
  · rintro ⟨hpaths, hclaims⟩
    have hkept : ∀ source ∈ sourceUnits, source ∈ selectedSources canonical sourceUnits := fun source hmem =>
      (mem_associateBy _).2 ((lastOf_eq_some_iff _ hpaths).2 ⟨hmem, rfl⟩)
    have hone : ∀ source ∈ sourceUnits, (shardsOf canonical sourceUnits contexts).countP (fun found => source ∈ found.selected) = 1 := by
      intro source hmem
      rw [shardsOf, count_shards (hkept source hmem)]
      exact hclaims source hmem
    refine ⟨hone, (analyze_units h).trans (List.perm_iff_count.2 fun source => ?_)⟩
    by_cases hmem : source ∈ sourceUnits
    · rw [hcount, hone source hmem, List.count_eq_one_of_mem hpaths.of_map hmem]
    · rw [List.count_eq_zero_of_not_mem hmem, List.count_eq_zero_of_not_mem]
      exact fun hin => hmem (mem_of_mem_associateBy _ (hsubset source hin))

/-! ## A source of two components -/

def sharedSource : SourceUnit :=
  ⟨⟨"app:Shared.java"⟩, ⟨"app"⟩, ⟨"Shared.java"⟩, .java, .source, ⟨"sha256:shared"⟩, ⟨"sha256:context"⟩⟩

/-- A component that owns the file. -/
def owning (component : String) : JavaCompilationContext :=
  ⟨⟨component⟩, ["/w/Shared.java"], ["/w/Shared.java"], ["/w"], [], "/jdk", none, [], ""⟩

def inRoot (path : WorkspacePath) : String := "/w/" ++ path.asStr

def nothingFound : Shard → Except String (String → FileAnalysisSnapshot) := fun _ => .ok fun _ => emptySnapshot sharedSource

/-- The file is a source of its component and of a test component: two shards, and two snapshots of one source. -/
theorem shared_source_twice :
    analyze inRoot nothingFound [sharedSource] [owning "app", owning "app:test"] =
        .ok [emptySnapshot sharedSource, emptySnapshot sharedSource] ∧
      ¬ Partitions inRoot [sharedSource] [owning "app", owning "app:test"] [emptySnapshot sharedSource, emptySnapshot sharedSource] := by
  refine ⟨by decide +kernel, fun h => ?_⟩
  have hlength := h.2.length_eq
  exact absurd hlength (by decide)

theorem owned_source_once :
    Partitions inRoot [sharedSource] [owning "app"] [emptySnapshot sharedSource] := by
  have hrun : analyze inRoot nothingFound [sharedSource] [owning "app"] = .ok [emptySnapshot sharedSource] := by decide +kernel
  exact (sharding_partitions_iff hrun).2 ⟨by decide +kernel, by decide +kernel⟩

end JavaSemanticExtractor

end

end Kide
