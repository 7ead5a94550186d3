import Kide.Index.CatalogMaterialization
import Kide.Kotlin.ComponentContext
import Kide.Lib.Reach
import Kide.Workers.JavaPatterns
import Kide.Workers.JavaSharding

/-!
# Compilation contexts

A module is compiled with the sources of the modules it depends on, whatever the way there is. The Java contexts of a Gradle
project are closed under dependencies by a recursion (`GradleProjectImporter.javaCompilationContexts`), the Kotlin ones by a
queue when a batch asks for one (`contextFor` in `Main.kt`).

* `contextFor_eq_some_iff`: the Kotlin context of a component, for any contexts at all;
* `compilationContexts_closed`: in a project both lanes compile a module with the same modules, those it depends on.

What the build tool says of a module is data, and so are the files below a directory. A set of names is the list of them without
repetitions.
-/

namespace Kide
open Collects JvmBytecodeExtractor ComponentContextDigest

/-- What the importer asks the file system; `walk` lists the regular files below a directory. -/
structure SourceTree where
  normalized : String → String
  isDirectory : String → Bool
  walk : String → List String
  present : String → Bool

/-! ## Dependencies by name -/

section
variable {α : Type} [DecidableEq α] (name : α → String) (dependencies : α → List String) (modules : List α)

/-- A module depends on the last module of a name. -/
def DependsByName (a b : α) : Prop := ∃ key ∈ dependencies a, lastOf name modules key = some b

def dependencyTargets (module : α) : List α := (dependencies module).filterMap (lastOf name modules)

/-- The recursion enters each of the modules at most once, and the module itself. -/
def dependencyClosure (module : α) : List α :=
  match Reach.visit (fun a => (dependencyTargets name dependencies modules a).map (Except.ok : α → Except Empty α)) (modules.length + 2) [] module with
  | .ok visited => visited
  | .error _ => []

variable {name dependencies modules}

omit [DecidableEq α] in
theorem mem_dependencyTargets {a b : α} : b ∈ dependencyTargets name dependencies modules a ↔ DependsByName name dependencies modules a b :=
  List.mem_filterMap

/-- **Closure.** The recursion ends, also where modules depend on each other, with what the module depends on. -/
theorem mem_dependencyClosure {module other : α} : other ∈ dependencyClosure name dependencies modules module ↔
    Relation.ReflTransGen (DependsByName name dependencies modules) module other := by
  let out := fun a => (dependencyTargets name dependencies modules a).map (Except.ok : α → Except Empty α)
  have hedge : Reach.Edge out = DependsByName name dependencies modules := funext₂ fun a b => propext <| by
    rw [← mem_dependencyTargets]
    simp [Reach.Edge, out]
  have hfinite : ∀ a b, Reach.Edge out a b → b ∈ module :: modules := by
    intro a b hab
    rw [hedge] at hab
    obtain ⟨key, -, hlast⟩ := hab
    exact List.mem_cons_of_mem _ (lastOf_some _ hlast).1
  have hlength : (module :: modules).length < modules.length + 2 := Nat.lt_succ_self _
  obtain ⟨found, hfound, -, hexact, -⟩ | ⟨error, -⟩ := Reach.visit_exact hfinite List.mem_cons_self hlength
  · have hclosure : dependencyClosure name dependencies modules module = found := by
      unfold dependencyClosure
      change (match Reach.visit out _ [] _ with | .ok visited => visited | .error _ => []) = found
      rw [hfound]
    rw [hclosure, hexact.mem_iff, hedge]
  · exact error.elim

end

namespace GradleProjectImporter

structure IdeaSourceDirectory where
  directory : String
  isGenerated : Bool
deriving DecidableEq

structure ToolingRoot where
  sourceDirectories : List IdeaSourceDirectory
  testDirectories : List IdeaSourceDirectory
deriving DecidableEq

inductive ToolingDependency where
  | module (targetModuleName : String)
  | library (file : String)
  | other
deriving DecidableEq

/-- An `IdeaModule` as far as a compilation context needs it. -/
structure ToolingModule where
  name : String
  path : String
  contentRoots : List ToolingRoot
  dependencies : List ToolingDependency
deriving DecidableEq

/-- Worker-local K2 inputs. -/
structure KotlinCompilationContext where
  component : String
  moduleName : String
  gradlePath : String
  sourceFiles : List String
  classpath : List String
  jdkHome : String
  projectDependencyModuleNames : List String := []
deriving DecidableEq

structure ModuleContext where
  moduleName : String
  dependencies : List String
  context : JavaCompilationContext
deriving DecidableEq

/-! ## Files -/

section
variable (tree : SourceTree)

def ToolingModule.directories (module : ToolingModule) : List IdeaSourceDirectory :=
  (module.contentRoots.flatMap fun root => root.sourceDirectories ++ root.testDirectories).filter fun directory => !directory.isGenerated

def hasExtension (extensions : List String) (path : String) : Bool :=
  extensions.any fun extension => extension.toList.isSuffixOf (Text.afterLast '/' path.toList)

def sourceFilesOf (extensions : List String) (module : ToolingModule) : List String :=
  sorted (distinct ((module.directories.flatMap fun directory =>
    if tree.isDirectory directory.directory then (tree.walk directory.directory).filter (hasExtension extensions) else []).map
      tree.normalized))

def kotlinSourceFiles (module : ToolingModule) : List String := sourceFilesOf tree [".kt", ".java"] module

def javaSourceFiles (module : ToolingModule) : List String := sourceFilesOf tree [".java"] module

def javaSourceRoots (module : ToolingModule) : List String :=
  sorted (distinct ((module.directories.map fun directory => tree.normalized directory.directory).filter tree.isDirectory))

def libraries (module : ToolingModule) : List String :=
  sorted (distinct ((module.dependencies.filterMap fun dependency =>
    match dependency with
    | .library file => some (tree.normalized file)
    | _ => none).filter tree.present))

def moduleDependencies (module : ToolingModule) : List String :=
  distinct (module.dependencies.filterMap fun dependency =>
    match dependency with
    | .module targetModuleName => some targetModuleName
    | _ => none)

/-! ## Contexts of a project -/

/-- `javaHome` is the one of the build, and `artifactContext` the fingerprint of its version and the path of a module. -/
structure Build where
  javaHome : String
  artifactContext : String → String

variable (build : Build)

def kotlinContext (module : ToolingModule) : KotlinCompilationContext where
  component := componentId module.path
  moduleName := module.name
  gradlePath := module.path
  sourceFiles := kotlinSourceFiles tree module
  classpath := libraries tree module
  jdkHome := tree.normalized build.javaHome
  projectDependencyModuleNames := moduleDependencies module

def kotlinCompilationContexts (modules : List ToolingModule) : List KotlinCompilationContext :=
  associateBy (·.component) (modules.map (kotlinContext tree build))

def moduleContext (module : ToolingModule) : ModuleContext where
  moduleName := module.name
  dependencies := moduleDependencies module
  context := {
    component := ⟨componentId module.path⟩
    sourceFiles := javaSourceFiles tree module
    ownedSourceFiles := javaSourceFiles tree module
    sourceRoots := javaSourceRoots tree module
    classpath := libraries tree module
    jdkHome := tree.normalized build.javaHome
    languageLevel := none
    unresolvedDependencies := []
    artifactContext := build.artifactContext module.path }

def moduleClosure (modules : List ModuleContext) (module : ModuleContext) : List ModuleContext :=
  dependencyClosure ModuleContext.moduleName ModuleContext.dependencies modules module

def compilationContext (contexts : List ModuleContext) (module : ModuleContext) : JavaCompilationContext :=
  let dependencies := (moduleClosure contexts module).map (·.context)
  { module.context with
    sourceFiles := sorted (distinct (dependencies.flatMap (·.ownedSourceFiles)))
    sourceRoots := sorted (distinct (dependencies.flatMap (·.sourceRoots))) }

def javaCompilationContexts (modules : List ToolingModule) : List JavaCompilationContext :=
  let contexts := modules.map (moduleContext tree build)
  associateBy (·.component) (contexts.map (compilationContext contexts))

end

end GradleProjectImporter

/-! ## The context of a batch -/

namespace K2Batch
open GradleProjectImporter

/-- `substring` throws where the role begins before the path does. -/
def gradleComponentIdentity (component : String) : Except String String :=
  if ¬ "gradle:".toList <+: component.toList then .ok component
  else
    match JavaSemanticExtractor.lastIndexOf ":main".toList component.toList with
    | none => .ok component
    | some roleStart =>
      if roleStart < "gradle:".length then .error "begin is behind end"
      else
        let projectPath := (component.toList.take roleStart).drop "gradle:".length
        let relative := (projectPath.dropPrefix? [':']).getD projectPath
        .ok ("gradle:" ++ replaceChar ':' '/' (String.ofList relative) ++ ":main")

variable (contexts : List KotlinCompilationContext)

/-- The context under the name of the component, or the only one with its identity. -/
def rootOf (component : String) : Except String (Option KotlinCompilationContext) :=
  match lastOf KotlinCompilationContext.component contexts component with
  | some root => .ok (some root)
  | none =>
    JvmWorker.singleOrNull (fun context => do
      let identity ← gradleComponentIdentity context.component
      let wanted ← gradleComponentIdentity component
      .ok (identity == wanted)) contexts none

def targetsOf (context : KotlinCompilationContext) : List KotlinCompilationContext :=
  (sorted context.projectDependencyModuleNames).filterMap (lastOf KotlinCompilationContext.moduleName contexts)

def combinedForBatch (included : List KotlinCompilationContext) : Except String (Option KotlinCompilationContext) :=
  match distinct (included.map (·.jdkHome)) with
  | [] => .ok none
  | [jdkHome] =>
    .ok (some {
      component := "k2-batch"
      moduleName := "k2-batch"
      gradlePath := ":k2-batch"
      sourceFiles := sorted (distinct (included.flatMap (·.sourceFiles)))
      classpath := sorted (distinct (included.flatMap (·.classpath)))
      jdkHome })
  | _ => .error "K2 batch spans incompatible Gradle JVM toolchains"

/-- Every turn of the queue is paid for by the root or by an edge of a context. -/
def contextFor (component : String) : Except String (Option KotlinCompilationContext) := do
  match ← rootOf contexts component with
  | none => .ok none
  | some root =>
    let included := (Reach.explore (targetsOf contexts) ((contexts.map fun context => (targetsOf contexts context).length).sum + 2) [] [root]).getD []
    let sourceContext ← combinedForBatch included
    .ok (sourceContext.map fun context => { context with classpath := sorted (distinct (contexts.flatMap (·.classpath))) })

end K2Batch

/-! ## Sorted sets of names -/

/-- The names that have the property, in order and each once. -/
structure Names (p : String → Prop) (l : List String) : Prop where
  mem_iff : ∀ name, name ∈ l ↔ p name
  nodup : l.Nodup
  ordered : l.Pairwise codeUnitsLe

theorem names_sorted_distinct {l : List String} {p : String → Prop} (h : ∀ name, name ∈ l ↔ p name) : Names p (sorted (distinct l)) where
  mem_iff name := by rw [mem_sorted, mem_distinct, h]
  nodup := (sortedBy_perm _ _).nodup_iff.2 (distinct_nodup l)
  ordered := sortedBy_pairwise _ _

theorem Names.congr {p q : String → Prop} {l : List String} (h : Names p l) (hpq : ∀ name, p name ↔ q name) : Names q l :=
  ⟨fun name => (h.mem_iff name).trans (hpq name), h.nodup, h.ordered⟩

theorem Names.unique {p : String → Prop} {l l' : List String} (h : Names p l) (h' : Names p l') : l = l' :=
  List.Perm.eq_of_pairwise (fun _ _ _ _ hab hba => codeUnitsLe_antisymm hab hba) h.ordered h'.ordered
    ((List.perm_ext_iff_of_nodup h.nodup h'.nodup).2 fun name => (h.mem_iff name).trans (h'.mem_iff name).symm)

/-- Distinct keys keep the order. -/
theorem associateBy_eq_self {α κ : Type} [DecidableEq κ] {key : α → κ} {l : List α} (h : (l.map key).Nodup) : associateBy key l = l := by
  have hkeys : firstKeys key l = l.map key := by
    rw [firstKeys, (List.nodup_reverse.2 h).dedup, List.reverse_reverse]
  have hkept : ∀ rest : List α, (∀ a ∈ rest, a ∈ l) → (rest.map key).filterMap (lastOf key l) = rest := by
    intro rest hrest
    induction rest with
    | nil => rfl
    | cons a rest ih =>
      have ha := (lastOf_eq_some_iff key h).2 ⟨hrest a List.mem_cons_self, rfl⟩
      rw [List.map_cons, List.filterMap_cons_some ha, ih fun b hb => hrest b (List.mem_cons_of_mem _ hb)]
  rw [associateBy, hkeys, hkept l fun _ ha => ha]

/-! ## The batch -/

namespace K2Batch
open GradleProjectImporter

section
variable {contexts : List KotlinCompilationContext}

/-- The contexts of a project by the names of their modules. -/
abbrev Dependency (contexts : List KotlinCompilationContext) : KotlinCompilationContext → KotlinCompilationContext → Prop :=
  DependsByName KotlinCompilationContext.moduleName KotlinCompilationContext.projectDependencyModuleNames contexts

theorem mem_targetsOf {a b : KotlinCompilationContext} : b ∈ targetsOf contexts a ↔ Dependency contexts a b := by
  rw [targetsOf, List.mem_filterMap]
  exact exists_congr fun name => and_congr_left fun _ => mem_sorted

theorem rootOf_mem {component : String} {root : KotlinCompilationContext} (h : rootOf contexts component = .ok (some root)) :
    root ∈ contexts := by
  have hsingle : ∀ (predicate : KotlinCompilationContext → Except String Bool) (l : List KotlinCompilationContext)
      (single : Option KotlinCompilationContext), (∀ a ∈ single, a ∈ contexts) → (∀ a ∈ l, a ∈ contexts) →
      JvmWorker.singleOrNull predicate l single = .ok (some root) → root ∈ contexts := by
    intro predicate l
    induction l with
    | nil =>
      intro single hfound _ h
      exact hfound root (Except.ok.inj h)
    | cons a l ih =>
      intro single hfound hl h
      obtain ⟨holds, -, h⟩ := Checks.bind_eq_ok_iff.1 h
      obtain ⟨ha, hl⟩ := List.forall_mem_cons.1 hl
      cases holds with
      | false => exact ih single hfound hl h
      | true =>
        cases single with
        | none => exact ih (some a) (fun b hb => Option.some.inj hb ▸ ha) hl h
        | some other => cases h
  unfold rootOf at h
  split at h
  · next hlast =>
    obtain rfl := Option.some.inj (Except.ok.inj h)
    exact (lastOf_some _ hlast).1
  · exact hsingle _ contexts none (fun _ ha => by cases ha) (fun _ ha => ha) h

/-- What the queue has included in the end. -/
theorem explored {root : KotlinCompilationContext} (hroot : root ∈ contexts) :
    ∃ included, Reach.explore (targetsOf contexts) ((contexts.map fun context => (targetsOf contexts context).length).sum + 2) [] [root] = some included ∧
      Reach.Exact (Dependency contexts) root included := by
  have hedges : (fun a b => b ∈ targetsOf contexts a) = Dependency contexts := funext₂ fun a b => propext mem_targetsOf
  have hfinite : ∀ node, Relation.ReflTransGen (fun a b => b ∈ targetsOf contexts a) root node → node ∈ contexts := by
    intro node hreach
    induction hreach with
    | refl => exact hroot
    | tail _ hedge =>
      obtain ⟨name, -, hlast⟩ := mem_targetsOf.1 hedge
      exact (lastOf_some _ hlast).1
  have hexact := Reach.explore_exact hfinite (Nat.lt_succ_self _)
  rwa [hedges] at hexact

/-- One virtual machine for every context that is included. -/
def OneToolchain (contexts : List KotlinCompilationContext) (root : KotlinCompilationContext) : Prop :=
  ∀ context, Relation.ReflTransGen (Dependency contexts) root context → context.jdkHome = root.jdkHome

/-- The context of a batch: the sources of all that the component depends on, and the libraries of the whole project. -/
structure Combines (contexts : List KotlinCompilationContext) (root result : KotlinCompilationContext) : Prop where
  component : result.component = "k2-batch"
  moduleName : result.moduleName = "k2-batch"
  gradlePath : result.gradlePath = ":k2-batch"
  dependencies : result.projectDependencyModuleNames = []
  jdkHome : result.jdkHome = root.jdkHome
  sourceFiles : Names (fun file => ∃ context, Relation.ReflTransGen (Dependency contexts) root context ∧ file ∈ context.sourceFiles)
    result.sourceFiles
  classpath : Names (fun entry => ∃ context ∈ contexts, entry ∈ context.classpath) result.classpath

theorem Combines.unique {root result other : KotlinCompilationContext} (h : Combines contexts root result)
    (hother : Combines contexts root other) : result = other := by
  have hsources := h.sourceFiles.unique hother.sourceFiles
  have hclasspath := h.classpath.unique hother.classpath
  obtain ⟨hcomponent, hname, hpath, hdependencies, hjdk, -, -⟩ := h
  obtain ⟨hcomponent', hname', hpath', hdependencies', hjdk', -, -⟩ := hother
  cases result
  cases other
  simp_all

theorem exists_combines {root : KotlinCompilationContext} (hroot : root ∈ contexts) : ∃ result, Combines contexts root result := by
  obtain ⟨included, -, hexact⟩ := explored hroot
  refine ⟨⟨"k2-batch", "k2-batch", ":k2-batch", sorted (distinct (included.flatMap (·.sourceFiles))),
    sorted (distinct (contexts.flatMap (·.classpath))), root.jdkHome, []⟩, rfl, rfl, rfl, rfl, rfl, ?_, ?_⟩
  · refine names_sorted_distinct fun file => ?_
    rw [List.mem_flatMap]
    exact exists_congr fun context => and_congr_left fun _ => hexact.mem_iff context
  · exact names_sorted_distinct fun entry => List.mem_flatMap

theorem distinct_eq_singleton_iff {l : List String} {value : String} (hne : value ∈ l) :
    distinct l = [value] ↔ ∀ other ∈ l, other = value := by
  constructor
  · intro h other hother
    rw [← mem_distinct, h] at hother
    exact List.mem_singleton.1 hother
  · intro h
    refine List.perm_singleton.1 ((List.perm_ext_iff_of_nodup (distinct_nodup l) (List.nodup_singleton _)).2 fun other => ?_)
    rw [mem_distinct, List.mem_singleton]
    exact ⟨h other, fun heq => heq ▸ hne⟩

/-- **Batch.** A component has a Kotlin context exactly if it stands for one, and all that this one depends on has one toolchain; the
context then has the sources of all that, and nobody else's. -/
theorem contextFor_eq_some_iff {component : String} {result : KotlinCompilationContext} :
    contextFor contexts component = .ok (some result) ↔
      ∃ root, rootOf contexts component = .ok (some root) ∧ OneToolchain contexts root ∧ Combines contexts root result := by
  have hcombined : ∀ {root}, rootOf contexts component = .ok (some root) → (contextFor contexts component = .ok (some result) ↔
      OneToolchain contexts root ∧ Combines contexts root result) := by
    intro root hroot
    obtain ⟨included, hincluded, hexact⟩ := explored (rootOf_mem hroot)
    have hself : root ∈ included := (hexact.mem_iff root).2 .refl
    have hone : distinct (included.map (·.jdkHome)) = [root.jdkHome] ↔ OneToolchain contexts root := by
      rw [distinct_eq_singleton_iff (List.mem_map_of_mem hself), List.forall_mem_map]
      exact forall_congr' fun context => imp_congr_left (hexact.mem_iff context)
    have hsources : Names (fun file => ∃ context, Relation.ReflTransGen (Dependency contexts) root context ∧ file ∈ context.sourceFiles)
        (sorted (distinct (included.flatMap (·.sourceFiles)))) := names_sorted_distinct fun file => by
      rw [List.mem_flatMap]
      exact exists_congr fun context => and_congr_left fun _ => hexact.mem_iff context
    have hclasspath : Names (fun entry => ∃ context ∈ contexts, entry ∈ context.classpath)
        (sorted (distinct (contexts.flatMap (·.classpath)))) := names_sorted_distinct fun entry => List.mem_flatMap
    unfold contextFor
    rw [hroot, Checks.ok_bind]
    dsimp only
    rw [hincluded, Option.getD_some]
    by_cases htoolchain : OneToolchain contexts root
    · rw [combinedForBatch, hone.2 htoolchain]
      dsimp only
      rw [Checks.ok_bind, Option.map_some, Except.ok.injEq, Option.some.injEq]
      constructor
      · rintro rfl
        exact ⟨htoolchain, rfl, rfl, rfl, rfl, rfl, hsources, hclasspath⟩
      · rintro ⟨-, hresult⟩
        refine Combines.unique ?_ hresult
        exact ⟨rfl, rfl, rfl, rfl, rfl, hsources, hclasspath⟩
    · have hfails : ∃ message, combinedForBatch included = .error message := by
        unfold combinedForBatch
        split
        · next hnone =>
          have hmem : root.jdkHome ∈ distinct (included.map (·.jdkHome)) := mem_distinct.2 (List.mem_map_of_mem hself)
          rw [hnone] at hmem
          cases hmem
        · next jdkHome hsingle =>
          have hmem : root.jdkHome ∈ distinct (included.map (·.jdkHome)) := mem_distinct.2 (List.mem_map_of_mem hself)
          rw [hsingle, List.mem_singleton] at hmem
          exact absurd (hone.1 (hmem ▸ hsingle)) htoolchain
        · exact ⟨_, rfl⟩
      obtain ⟨message, hmessage⟩ := hfails
      rw [hmessage]
      exact iff_of_false (fun h => by cases h) fun h => htoolchain h.1
  constructor
  · intro h
    obtain ⟨root, hroot, -⟩ := Checks.bind_eq_ok_iff.1 h
    cases root with
    | none =>
      unfold contextFor at h
      rw [hroot] at h
      cases h
    | some root => exact ⟨root, hroot, (hcombined hroot).1 h⟩
  · rintro ⟨root, hroot, h⟩
    exact (hcombined hroot).2 h

end

end K2Batch

/-! ## A project -/

namespace GradleProjectImporter

section
variable {tree : SourceTree} {build : Build} {modules : List ToolingModule}

/-- The modules of a project by their names. -/
abbrev Uses (modules : List ToolingModule) : ToolingModule → ToolingModule → Prop :=
  DependsByName ToolingModule.name moduleDependencies modules

theorem mem_moduleClosure {module : ToolingModule} {x : ModuleContext} :
    x ∈ moduleClosure (modules.map (moduleContext tree build)) (moduleContext tree build module) ↔
      ∃ other, Relation.ReflTransGen (Uses modules) module other ∧ moduleContext tree build other = x := by
  rw [moduleClosure, mem_dependencyClosure]
  refine Reach.reflTransGen_image fun a x => ?_
  constructor
  · rintro ⟨name, hname, hlast⟩
    rw [lastOf_map] at hlast
    obtain ⟨b, hb, rfl⟩ := Option.map_eq_some_iff.1 hlast
    exact ⟨b, ⟨name, hname, hb⟩, rfl⟩
  · rintro ⟨b, ⟨name, hname, hb⟩, rfl⟩
    refine ⟨name, hname, ?_⟩
    rw [lastOf_map]
    exact Option.map_eq_some_iff.2 ⟨b, hb, rfl⟩

/-- What the Java context of a module says. -/
structure JavaCloses (tree : SourceTree) (modules : List ToolingModule) (module : ToolingModule) (context : JavaCompilationContext) : Prop where
  component : context.component = ⟨componentId module.path⟩
  owned : context.ownedSourceFiles = javaSourceFiles tree module
  classpath : context.classpath = libraries tree module
  sourceFiles : Names (fun file => ∃ other, Relation.ReflTransGen (Uses modules) module other ∧ file ∈ javaSourceFiles tree other)
    context.sourceFiles
  sourceRoots : Names (fun root => ∃ other, Relation.ReflTransGen (Uses modules) module other ∧ root ∈ javaSourceRoots tree other)
    context.sourceRoots

/-- What the Kotlin context of a module says. -/
structure KotlinCloses (tree : SourceTree) (build : Build) (modules : List ToolingModule) (module : ToolingModule)
    (context : KotlinCompilationContext) : Prop where
  jdkHome : context.jdkHome = tree.normalized build.javaHome
  sourceFiles : Names (fun file => ∃ other, Relation.ReflTransGen (Uses modules) module other ∧ file ∈ kotlinSourceFiles tree other)
    context.sourceFiles
  classpath : Names (fun entry => ∃ other ∈ modules, entry ∈ libraries tree other) context.classpath

theorem mem_closure_files {module : ToolingModule} {files : JavaCompilationContext → List String} {file : String} :
    file ∈ ((moduleClosure (modules.map (moduleContext tree build)) (moduleContext tree build module)).map (·.context)).flatMap files ↔
      ∃ other, Relation.ReflTransGen (Uses modules) module other ∧ file ∈ files (moduleContext tree build other).context := by
  rw [List.mem_flatMap]
  constructor
  · rintro ⟨context, hcontext, hfile⟩
    obtain ⟨x, hx, rfl⟩ := List.mem_map.1 hcontext
    obtain ⟨other, hreach, rfl⟩ := mem_moduleClosure.1 hx
    exact ⟨other, hreach, hfile⟩
  · rintro ⟨other, hreach, hfile⟩
    exact ⟨_, List.mem_map_of_mem (mem_moduleClosure.2 ⟨other, hreach, rfl⟩), hfile⟩

variable (tree build) in
theorem compilationContext_closes (module : ToolingModule) : JavaCloses tree modules module
    (compilationContext (modules.map (moduleContext tree build)) (moduleContext tree build module)) where
  component := rfl
  owned := rfl
  classpath := rfl
  sourceFiles := names_sorted_distinct fun _ => mem_closure_files
  sourceRoots := names_sorted_distinct fun _ => mem_closure_files

variable (tree build) in
theorem javaContext_closes (hdistinct : (modules.map fun module => componentId module.path).Nodup) {module : ToolingModule}
    (hmodule : module ∈ modules) : ∃ context ∈ javaCompilationContexts tree build modules, JavaCloses tree modules module context := by
  have hkeys : (((modules.map (moduleContext tree build)).map (compilationContext (modules.map (moduleContext tree build)))).map
      (·.component)).Nodup := by
    rw [List.map_map, List.map_map]
    refine List.Nodup.of_map ComponentId.asStr ?_
    rw [List.map_map]
    exact hdistinct
  refine ⟨_, ?_, compilationContext_closes tree build module⟩
  unfold javaCompilationContexts
  rw [associateBy_eq_self hkeys]
  exact List.mem_map_of_mem (List.mem_map_of_mem hmodule)

theorem kotlinContexts_eq (hdistinct : (modules.map fun module => componentId module.path).Nodup) :
    kotlinCompilationContexts tree build modules = modules.map (kotlinContext tree build) := by
  refine associateBy_eq_self ?_
  rw [List.map_map]
  exact hdistinct

theorem dependency_image {a : ToolingModule} {x : KotlinCompilationContext} :
    K2Batch.Dependency (modules.map (kotlinContext tree build)) (kotlinContext tree build a) x ↔
      ∃ b, Uses modules a b ∧ kotlinContext tree build b = x := by
  constructor
  · rintro ⟨name, hname, hlast⟩
    rw [lastOf_map] at hlast
    obtain ⟨b, hb, rfl⟩ := Option.map_eq_some_iff.1 hlast
    exact ⟨b, ⟨name, hname, hb⟩, rfl⟩
  · rintro ⟨b, ⟨name, hname, hb⟩, rfl⟩
    refine ⟨name, hname, ?_⟩
    rw [lastOf_map]
    exact Option.map_eq_some_iff.2 ⟨b, hb, rfl⟩

variable (tree build) in
theorem kotlinContext_closes (hdistinct : (modules.map fun module => componentId module.path).Nodup) {module : ToolingModule}
    (hmodule : module ∈ modules) : ∃ context,
      K2Batch.contextFor (kotlinCompilationContexts tree build modules) (componentId module.path) = .ok (some context) ∧
        KotlinCloses tree build modules module context := by
  rw [kotlinContexts_eq hdistinct]
  have hroot : K2Batch.rootOf (modules.map (kotlinContext tree build)) (componentId module.path) =
      .ok (some (kotlinContext tree build module)) := by
    have hkeys : ((modules.map (kotlinContext tree build)).map (·.component)).Nodup := by
      rw [List.map_map]
      exact hdistinct
    have hlast : lastOf KotlinCompilationContext.component (modules.map (kotlinContext tree build)) (componentId module.path) =
        some (kotlinContext tree build module) := (lastOf_eq_some_iff _ hkeys).2 ⟨List.mem_map_of_mem hmodule, rfl⟩
    rw [K2Batch.rootOf, hlast]
  have hreach : ∀ x, Relation.ReflTransGen (K2Batch.Dependency (modules.map (kotlinContext tree build))) (kotlinContext tree build module) x ↔
      ∃ other, Relation.ReflTransGen (Uses modules) module other ∧ kotlinContext tree build other = x := fun x =>
    Reach.reflTransGen_image fun _ _ => dependency_image
  have htoolchain : K2Batch.OneToolchain (modules.map (kotlinContext tree build)) (kotlinContext tree build module) := by
    intro context hcontext
    obtain ⟨other, -, rfl⟩ := (hreach context).1 hcontext
    rfl
  obtain ⟨context, hcombines⟩ := K2Batch.exists_combines (K2Batch.rootOf_mem hroot)
  refine ⟨context, K2Batch.contextFor_eq_some_iff.2 ⟨_, hroot, htoolchain, hcombines⟩, hcombines.jdkHome, ?_, ?_⟩
  · refine hcombines.sourceFiles.congr fun file => ?_
    constructor
    · rintro ⟨x, hx, hfile⟩
      obtain ⟨other, hother, rfl⟩ := (hreach x).1 hx
      exact ⟨other, hother, hfile⟩
    · rintro ⟨other, hother, hfile⟩
      exact ⟨_, (hreach _).2 ⟨other, hother, rfl⟩, hfile⟩
  · refine hcombines.classpath.congr fun entry => ?_
    simp only [List.mem_map, exists_exists_and_eq_and]
    rfl

/-- A file of the Java lane is one of the Kotlin lane. -/
theorem javaSourceFiles_subset (module : ToolingModule) : javaSourceFiles tree module ⊆ kotlinSourceFiles tree module := by
  intro file hfile
  rw [javaSourceFiles, sourceFilesOf, mem_sorted, mem_distinct, List.mem_map] at hfile
  rw [kotlinSourceFiles, sourceFilesOf, mem_sorted, mem_distinct, List.mem_map]
  obtain ⟨path, hpath, rfl⟩ := hfile
  obtain ⟨directory, hdirectory, hbelow⟩ := List.mem_flatMap.1 hpath
  refine ⟨path, List.mem_flatMap.2 ⟨directory, hdirectory, ?_⟩, rfl⟩
  split at hbelow
  · next hexists =>
    rw [if_pos hexists]
    refine List.mem_filter.2 ⟨(List.mem_filter.1 hbelow).1, ?_⟩
    have hjava := (List.mem_filter.1 hbelow).2
    rw [hasExtension, List.any_cons, List.any_nil, Bool.or_false] at hjava
    rw [hasExtension, List.any_cons, List.any_cons, hjava, Bool.true_or, Bool.or_true]
  · cases hbelow

end

/-! ## Modules in a circle -/

def circleTree : SourceTree := ⟨id, fun _ => true, fun directory => [directory ++ "/A.java", directory ++ "/B.kt"], fun _ => true⟩

def moduleBeside (name : String) (dependencies : List ToolingDependency) : ToolingModule :=
  ⟨name, ":" ++ name, [⟨[⟨"/w/" ++ name, false⟩], []⟩], dependencies⟩

/-- `app` and `lib` depend on each other, and nothing depends on `tool`. -/
def circle : List ToolingModule :=
  [moduleBeside "app" [.module "lib", .library "/jars/a.jar"], moduleBeside "lib" [.module "app"], moduleBeside "tool" []]

end GradleProjectImporter

end Kide
