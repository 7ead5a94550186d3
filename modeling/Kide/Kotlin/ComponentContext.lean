import Kide.Kotlin.ContextDigest
import Kide.Lib.Paths

/-!
# Component contexts

What the Gradle and the Maven importer of the worker say of a component to the digest of its context
(`GradleProjectImporter.kt`, `MavenProjectImporter.kt`). The build tool gives directories, dependencies and resolved
artifacts in some order; an importer writes each source set as one text, with commas and colons.

* `Same` : one identity, the same directories, artifacts, edges and settings, in any order;
* `alike_iff` : the texts agree exactly if all of that does once the roots and the edges are joined (`SameJoined`);
* `contextDigest_faithful_iff` : the components that the digest tells apart rightly.
-/

namespace Kide

open Fields Collects Paths JvmBytecodeExtractor ComponentContextDigest

/-! ## Lists and source sets -/

section Distinct
variable {α : Type} [DecidableEq α]

/-- `distinct` -/
def distinct (l : List α) : List α := retainNew (fun a => a) [] l

theorem mem_distinct {l : List α} {a : α} : a ∈ distinct l ↔ a ∈ l := by
  have h := mem_retainNew_key (fun a : α => a) [] l a
  rwa [List.map_id', List.map_id', and_iff_left List.not_mem_nil] at h

theorem distinct_nodup (l : List α) : (distinct l).Nodup := by
  have h := retainNew_keys_nodup (fun a : α => a) [] l
  rwa [List.map_id'] at h

theorem distinct_perm_iff {l l' : List α} : (distinct l).Perm (distinct l') ↔ ∀ a, a ∈ l ↔ a ∈ l' := by
  rw [List.perm_ext_iff_of_nodup (distinct_nodup l) (distinct_nodup l')]
  simp only [mem_distinct]

end Distinct

theorem sortedDistinct_perm_iff {l l' : List String} :
    (sorted (distinct l)).Perm (sorted (distinct l')) ↔ ∀ a, a ∈ l ↔ a ∈ l' :=
  ((sortedBy_perm _ _).congr_left _).trans (((sortedBy_perm _ _).congr_right _).trans distinct_perm_iff)

/-- `joinToString(",")` -/
def joined (texts : List String) : String := ",".intercalate texts

theorem joined_eq_empty_iff {α : Type} {text : α → String} (h : ∀ a, text a ≠ "") {l : List α} :
    joined (l.map text) = "" ↔ l = [] :=
  (@intercalate_eq_empty_iff ',' _ (List.forall_mem_map.2 fun a _ => h a)).trans List.map_eq_nil_iff

theorem text_ne_empty (path : RelPath) : path.text ≠ "" := by
  intro h
  have hpos := utf8ByteSize_pos path
  rw [h] at hpos
  cases hpos

def setName (test : Bool) : String := if test then "test" else "main"

/-- What the text of a source set begins with. -/
def setHead (test : Bool) : String := setName test ++ ":" ++ toString test ++ ":"

/-- The texts of the source sets there are. -/
def setTexts (text : Bool → Option String) : List String := (text false).toList ++ (text true).toList

theorem setTexts_perm_iff {text other : Bool → Option String} (h : ∀ test, ∀ t ∈ text test, ∃ rest, t = setHead test ++ rest)
    (h' : ∀ test, ∀ t ∈ other test, ∃ rest, t = setHead test ++ rest) :
    (setTexts text).Perm (setTexts other) ↔ ∀ test, text test = other test := by
  let p : String → Bool := fun t => t.toList.head? = some 'm'
  have hmain : ∀ {f : Bool → Option String}, (∀ test, ∀ t ∈ f test, ∃ rest, t = setHead test ++ rest) →
      ∀ t ∈ (f false).toList, p t := by
    intro f hf t ht
    obtain ⟨rest, rfl⟩ := hf false t (Option.mem_toList.1 ht)
    simp [p, setHead, setName]
  have htest : ∀ {f : Bool → Option String}, (∀ test, ∀ t ∈ f test, ∃ rest, t = setHead test ++ rest) →
      ∀ t ∈ (f true).toList, ¬ p t := by
    intro f hf t ht
    obtain ⟨rest, rfl⟩ := hf true t (Option.mem_toList.1 ht)
    simp [p, setHead, setName]
  have hoption : ∀ a b : Option String, a.toList.Perm b.toList ↔ a = b := by
    intro a b
    cases a <;> cases b <;> simp
  rw [setTexts, setTexts, append_perm_append_iff p (hmain h) (hmain h') (htest h) (htest h'), hoption, hoption, Bool.forall_bool]

/-! ## Gradle -/

namespace GradleProjectImporter

@[ext] structure SourceDirectoryFact where
  path : RelPath
  generated : Bool
deriving DecidableEq

structure IdeaContentRoot where
  sourceDirectories : List SourceDirectoryFact
  testDirectories : List SourceDirectoryFact

/-- A library has the fingerprint of its file. -/
inductive IdeaDependency where
  | module (scope targetModuleName : String)
  | library (scope artifact : String)
  | other

structure IdeaModule where
  path : String
  contentRoots : List IdeaContentRoot
  dependencies : List IdeaDependency

structure BuildEnvironment where
  gradleVersion : String
  javaVersion : String
  javaHome : String
  kotlinVersion : String

def componentId (path : String) : String :=
  let name := replaceChar ':' '/' (if path.toList.head? = some ':' then String.ofList path.toList.tail else path)
  "gradle:" ++ (if KotlinStructuralExtractor.isNotBlank name then name else "root") ++ ":main"

def gradleJvmVersion (environment : BuildEnvironment) : String := environment.javaVersion ++ "@" ++ environment.javaHome

/-- The directories of the content roots, as they come. -/
def listed (module : IdeaModule) (test : Bool) : List SourceDirectoryFact :=
  module.contentRoots.flatMap fun root => if test then root.testDirectories else root.sourceDirectories

def directories (module : IdeaModule) (test : Bool) : List SourceDirectoryFact :=
  sortedBy (fun directory => directory.path.text) (distinct (listed module test))

structure SourceSetFact where
  name : String
  directories : List SourceDirectoryFact
  test : Bool

namespace SourceSetFact

def sourceRoots (set : SourceSetFact) : List String := (set.directories.filter fun d => ¬ d.generated).map (·.path.text)

def generatedRoots (set : SourceSetFact) : List String := (set.directories.filter fun d => d.generated).map (·.path.text)

def canonicalText (set : SourceSetFact) : String :=
  set.name ++ ":" ++ toString set.test ++ ":" ++ joined set.sourceRoots ++ ":" ++ joined set.generatedRoots

end SourceSetFact

def sourceSets (module : IdeaModule) : List SourceSetFact :=
  let main := directories module false
  let test := directories module true
  (if main ≠ [] then [⟨"main", main, false⟩] else []) ++ (if test ≠ [] then [⟨"test", test, true⟩] else [])

structure DependencyFact where
  scope : String
  target : String
deriving DecidableEq

def DependencyFact.text (fact : DependencyFact) : String := fact.scope ++ ":" ++ fact.target

/-- Nothing for a module that the project does not have. -/
def dependencyFact (componentIds : String → Option String) : IdeaDependency → Option DependencyFact
  | .module scope targetModuleName => (componentIds targetModuleName).map fun target => ⟨scope, "component:" ++ target⟩
  | .library scope artifact => some ⟨scope, "artifact:" ++ artifact⟩
  | .other => none

def artifactOf : IdeaDependency → Option String
  | .library _ artifact => some artifact
  | _ => none

/-- What `moduleFacts` reads. -/
structure Component where
  environment : BuildEnvironment
  componentIds : String → Option String
  module : IdeaModule

variable (component : Component)

def Component.artifacts : List String := component.module.dependencies.filterMap artifactOf

def Component.edges : List DependencyFact := component.module.dependencies.filterMap (dependencyFact component.componentIds)

def dependencyLe (a b : DependencyFact) : Prop :=
  (a.scope ≠ b.scope ∧ codeUnitsLe a.scope b.scope) ∨ (a.scope = b.scope ∧ codeUnitsLe a.target b.target)

instance : DecidableRel dependencyLe := fun _ _ => inferInstanceAs (Decidable (_ ∨ _))

def contextTexts : Texts where
  component := componentId component.module.path
  sourceSets := (sourceSets component.module).map SourceSetFact.canonicalText
  artifacts := sorted (distinct component.artifacts)
  dependencyEdges := (component.edges.insertionSort dependencyLe).map DependencyFact.text
  toolchain := [
    "build-tool=gradle:" ++ component.environment.gradleVersion,
    "jvm=" ++ gradleJvmVersion component.environment,
    "module=" ++ component.module.path,
    "kotlin=" ++ component.environment.kotlinVersion]

end GradleProjectImporter

/-! ## Maven -/

namespace MavenProjectImporter

structure Dependency where
  scope : Option String
  optional : Option String
  groupId : String
  artifactId : String
  classifier : Option String
  type : Option String
  version : Option String

/-- A module, with the source directories it has below the workspace root and the names of the files below each. -/
structure Module where
  directory : RelPath
  roots : Bool → List RelPath
  filesBelow : RelPath → List String
  property : String → Option String
  dependencies : List Dependency

def modelVersion : String := "3.9.9"

def workspacePath (path : RelPath) : String :=
  let relative := replaceChar '\\' '/' ("/".intercalate path.names)
  if KotlinStructuralExtractor.isNotBlank relative then relative else "."

def componentId (module : Module) : String :=
  let relative := workspacePath module.directory
  "maven:" ++ (if relative = "." then "root" else relative) ++ ":main"

/-- `substringAfterLast('.', "")` -/
def extension (fileName : String) : String :=
  if '.' ∈ fileName.toList then String.ofList (Text.afterLast '.' fileName.toList) else ""

def languageOf (fileName : String) : Option String :=
  if extension fileName = "java" then some "java"
  else if extension fileName = "kt" ∨ extension fileName = "kts" then some "kotlin"
  else none

def languages (module : Module) (root : RelPath) : List String :=
  sorted (distinct ((module.filesBelow root).filterMap languageOf))

/-- The text of the absolute path, what stands before the workspace root left out. -/
def pathText (path : RelPath) : String := "/".intercalate ("" :: path.names)

structure SourceSet where
  name : String
  test : Bool
  roots : List String
  languages : List String

def sortedRoots (module : Module) (test : Bool) : List RelPath := sortedBy pathText (distinct (module.roots test))

def sourceSet (module : Module) (test : Bool) : SourceSet where
  name := setName test
  test := test
  roots := (sortedRoots module test).map workspacePath
  languages := sorted (distinct ((sortedRoots module test).flatMap (languages module)))

def sourceSets (module : Module) : List SourceSet :=
  [sourceSet module false, sourceSet module true].filter fun set => set.roots ≠ []

def SourceSet.text (set : SourceSet) : String :=
  set.name ++ ":" ++ toString set.test ++ ":" ++ joined set.roots ++ ":" ++ joined set.languages

/-- `value.matches(Regex("\\d+"))` -/
def isNumber (value : String) : Bool := value ≠ "" ∧ value.toList.all Char.isDigit

def javaLanguageLevel (module : Module) : Option String :=
  (["maven.compiler.release", "maven.compiler.source", "java.version"].filterMap module.property).find? isNumber

def Dependency.kept (dependency : Dependency) : Bool :=
  dependency.scope ≠ some "import" ∧ dependency.optional ≠ some "true"

def Dependency.text (dependency : Dependency) : String :=
  let classifier := ((dependency.classifier.filter KotlinStructuralExtractor.isNotBlank).map (":" ++ ·)).getD ""
  dependency.scope.getD "compile" ++ ":" ++ dependency.groupId ++ ":" ++ dependency.artifactId ++ classifier ++ ":" ++
    dependency.type.getD "jar" ++ ":" ++ dependency.version.getD "managed"

/-- What `component` reads: a module, with the fingerprints of its resolved artifacts and the edges the resolver found. -/
structure Component where
  javaVersion : String
  module : Module
  artifacts : List String
  resolvedEdges : List String

variable (component : Component)

def contextTexts : Texts where
  component := componentId component.module
  sourceSets := (sourceSets component.module).map SourceSet.text
  artifacts := sorted (distinct component.artifacts)
  dependencyEdges := (component.module.dependencies.filter Dependency.kept).map Dependency.text ++ component.resolvedEdges
  toolchain := [
    "build-tool=maven-model-" ++ modelVersion,
    "jvm=" ++ component.javaVersion,
    "language-level=" ++ (javaLanguageLevel component.module).getD "default"]

end MavenProjectImporter

/-! ## Gradle: what the texts keep -/

namespace GradleProjectImporter

/-- The roots of a source set, joined. -/
def Component.rootsText (component : Component) (test : Bool) : String :=
  let set : SourceSetFact := ⟨setName test, directories component.module test, test⟩
  joined set.sourceRoots ++ ":" ++ joined set.generatedRoots

/-- The same component, in whatever order the build tool lists its parts. -/
structure Component.Same (a b : Component) : Prop where
  path : a.module.path = b.module.path
  directories : ∀ test directory, directory ∈ listed a.module test ↔ directory ∈ listed b.module test
  artifacts : ∀ artifact, artifact ∈ a.artifacts ↔ artifact ∈ b.artifacts
  edges : a.edges.Perm b.edges
  gradleVersion : a.environment.gradleVersion = b.environment.gradleVersion
  jvmVersion : gradleJvmVersion a.environment = gradleJvmVersion b.environment
  kotlinVersion : a.environment.kotlinVersion = b.environment.kotlinVersion

/-- The same component once roots and edges are joined. -/
structure Component.SameJoined (a b : Component) : Prop where
  path : a.module.path = b.module.path
  roots : ∀ test, a.rootsText test = b.rootsText test
  artifacts : ∀ artifact, artifact ∈ a.artifacts ↔ artifact ∈ b.artifacts
  edges : (a.edges.map DependencyFact.text).Perm (b.edges.map DependencyFact.text)
  gradleVersion : a.environment.gradleVersion = b.environment.gradleVersion
  jvmVersion : gradleJvmVersion a.environment = gradleJvmVersion b.environment
  kotlinVersion : a.environment.kotlinVersion = b.environment.kotlinVersion

theorem rootsText_congr {a b : Component} {test : Bool}
    (h : ∀ directory, directory ∈ listed a.module test ↔ directory ∈ listed b.module test) : a.rootsText test = b.rootsText test := by
  have hperm := distinct_perm_iff.2 h
  have hfilter : ∀ generated : Bool, (directories a.module test).filter (fun d => d.generated = generated) =
      (directories b.module test).filter (fun d => d.generated = generated) := by
    intro generated
    refine sortedBy_filter_eq (fun x y hx hy hxy => ?_) hperm
    exact SourceDirectoryFact.ext (text_injective hxy) ((of_decide_eq_true hx).trans (of_decide_eq_true hy).symm)
  have hsource := hfilter false
  have hgenerated := hfilter true
  simp only [Bool.decide_eq_true, Bool.decide_eq_false] at hsource hgenerated
  simp only [Component.rootsText, SourceSetFact.sourceRoots, SourceSetFact.generatedRoots, Bool.not_eq_true,
    Bool.decide_eq_false, hsource, hgenerated]

/-- Only a source set without directories has no roots. -/
theorem rootsText_eq_colon_iff (component : Component) (test : Bool) :
    component.rootsText test = ":" ↔ directories component.module test = [] := by
  constructor
  · intro h
    have hlength := congrArg String.length h
    simp only [Component.rootsText, String.length_append] at hlength
    have hcolon : (":" : String).length = 1 := rfl
    have hsource : joined (SourceSetFact.sourceRoots ⟨setName test, directories component.module test, test⟩) = "" :=
      String.length_eq_zero_iff.1 (by omega)
    have hgenerated : joined (SourceSetFact.generatedRoots ⟨setName test, directories component.module test, test⟩) = "" :=
      String.length_eq_zero_iff.1 (by omega)
    have hplain := List.filter_eq_nil_iff.1 ((joined_eq_empty_iff fun d : SourceDirectoryFact => text_ne_empty d.path).1 hsource)
    have hmade := List.filter_eq_nil_iff.1 ((joined_eq_empty_iff fun d : SourceDirectoryFact => text_ne_empty d.path).1 hgenerated)
    refine List.eq_nil_iff_forall_not_mem.2 fun directory hmem => ?_
    have h1 := hplain directory hmem
    have h2 := hmade directory hmem
    simp only [decide_not, Bool.not_eq_true', decide_eq_false_iff_not, Decidable.not_not] at h1
    exact h2 (by simpa using h1)
  · intro h
    simp [Component.rootsText, SourceSetFact.sourceRoots, SourceSetFact.generatedRoots, h, joined]

def Component.setText (component : Component) (test : Bool) : Option String :=
  if directories component.module test = [] then none else some (setHead test ++ component.rootsText test)

theorem sourceSets_texts (component : Component) :
    (sourceSets component.module).map SourceSetFact.canonicalText = setTexts component.setText := by
  unfold sourceSets setTexts Component.setText
  by_cases hmain : directories component.module false = [] <;> by_cases htest : directories component.module true = [] <;>
    simp [hmain, htest, SourceSetFact.canonicalText, Component.rootsText, setHead, setName, String.append_assoc]

theorem setTexts_iff {a b : Component} : (setTexts a.setText).Perm (setTexts b.setText) ↔ ∀ test, a.rootsText test = b.rootsText test := by
  have hhead : ∀ (c : Component) (test : Bool), ∀ t ∈ c.setText test, ∃ rest, t = setHead test ++ rest := by
    intro c test t ht
    unfold Component.setText at ht
    split at ht
    · cases ht
    · exact ⟨_, (Option.some.inj ht).symm⟩
  rw [setTexts_perm_iff (hhead a) (hhead b)]
  refine forall_congr' fun test => ?_
  unfold Component.setText
  by_cases ha : directories a.module test = [] <;> by_cases hb : directories b.module test = []
  · rw [if_pos ha, if_pos hb, (rootsText_eq_colon_iff a test).2 ha, (rootsText_eq_colon_iff b test).2 hb]
    exact iff_of_true rfl rfl
  · rw [if_pos ha, if_neg hb, (rootsText_eq_colon_iff a test).2 ha]
    exact iff_of_false (by simp) fun h => hb ((rootsText_eq_colon_iff b test).1 h.symm)
  · rw [if_neg ha, if_pos hb, (rootsText_eq_colon_iff b test).2 hb]
    exact iff_of_false (by simp) fun h => ha ((rootsText_eq_colon_iff a test).1 h)
  · rw [if_neg ha, if_neg hb, Option.some.injEq, String.append_right_inj]

/-- The toolchain as settings. -/
def Component.settings (component : Component) : List (String × String) :=
  [("build-tool", "gradle:" ++ component.environment.gradleVersion), ("jvm", gradleJvmVersion component.environment),
    ("module", component.module.path), ("kotlin", component.environment.kotlinVersion)]

theorem toolchain_eq (component : Component) : (contextTexts component).toolchain = component.settings.map settingLine := by
  have hbuild : "build-tool=gradle:" = "build-tool" ++ "=" ++ "gradle:" := rfl
  simp only [contextTexts, Component.settings, List.map_cons, List.map_nil, settingLine, hbuild, String.append_assoc]
  rfl

/-- **Gradle.** The texts of two components agree exactly if the components do, roots and edges joined. -/
theorem alike_iff {a b : Component} : (contextTexts a).Alike (contextTexts b) ↔ a.SameJoined b := by
  have hsettings : (contextTexts a).toolchain.Perm (contextTexts b).toolchain ↔ a.settings = b.settings := by
    rw [toolchain_eq, toolchain_eq]
    exact settingLines_perm_iff rfl (by simp [Component.settings]) (by simp [Component.settings])
  have hartifacts : (contextTexts a).artifacts.Perm (contextTexts b).artifacts ↔ ∀ artifact, artifact ∈ a.artifacts ↔ artifact ∈ b.artifacts :=
    sortedDistinct_perm_iff
  have hedges : (contextTexts a).dependencyEdges.Perm (contextTexts b).dependencyEdges ↔
      (a.edges.map DependencyFact.text).Perm (b.edges.map DependencyFact.text) :=
    (((List.perm_insertionSort _ _).map _).congr_left _).trans (((List.perm_insertionSort _ _).map _).congr_right _)
  have hsets : (contextTexts a).sourceSets.Perm (contextTexts b).sourceSets ↔ ∀ test, a.rootsText test = b.rootsText test := by
    rw [← setTexts_iff, ← sourceSets_texts, ← sourceSets_texts]
    rfl
  constructor
  · rintro ⟨-, hs, ha, he, ht⟩
    have hvalues := hsettings.1 ht
    simp only [Component.settings, List.cons.injEq, Prod.mk.injEq, true_and, String.append_right_inj, and_true] at hvalues
    obtain ⟨hgradle, hjvm, hpath, hkotlin⟩ := hvalues
    exact ⟨hpath, hsets.1 hs, hartifacts.1 ha, hedges.1 he, hgradle, hjvm, hkotlin⟩
  · rintro ⟨hpath, hroots, ha, he, hgradle, hjvm, hkotlin⟩
    refine ⟨congrArg componentId hpath, hsets.2 hroots, hartifacts.2 ha, hedges.2 he, hsettings.2 ?_⟩
    rw [Component.settings, Component.settings, hgradle, hjvm, hpath, hkotlin]

theorem Component.Same.joined {a b : Component} (h : a.Same b) : a.SameJoined b :=
  ⟨h.path, fun test => rootsText_congr (h.directories test), h.artifacts, h.edges.map _, h.gradleVersion, h.jvmVersion,
    h.kotlinVersion⟩

end GradleProjectImporter

/-! ## Maven: what the texts keep -/

namespace MavenProjectImporter

/-- A declared dependency with its defaults, or an edge as the resolver writes it. -/
inductive Edge where
  | declared (scope groupId artifactId : String) (classifier : Option String) (type : String) (version : Option String)
  | resolved (text : String)
deriving DecidableEq

def Edge.text : Edge → String
  | .declared scope groupId artifactId classifier type version =>
    scope ++ ":" ++ groupId ++ ":" ++ artifactId ++ (classifier.map (":" ++ ·)).getD "" ++ ":" ++ type ++ ":" ++
      version.getD "managed"
  | .resolved edge => edge

def Dependency.edge (dependency : Dependency) : Edge :=
  .declared (dependency.scope.getD "compile") dependency.groupId dependency.artifactId
    (dependency.classifier.filter KotlinStructuralExtractor.isNotBlank) (dependency.type.getD "jar") dependency.version

def Component.edges (component : Component) : List Edge :=
  (component.module.dependencies.filter Dependency.kept).map Dependency.edge ++ component.resolvedEdges.map Edge.resolved

theorem dependencyEdges_eq (component : Component) :
    (contextTexts component).dependencyEdges = component.edges.map Edge.text := by
  rw [Component.edges, List.map_append, List.map_map, List.map_map]
  exact congrArg₂ _ rfl (List.map_id _).symm

/-- The languages of the files below the roots. -/
def listedLanguages (module : Module) (test : Bool) : List String :=
  (module.roots test).flatMap fun root => (module.filesBelow root).filterMap languageOf

def Component.rootsText (component : Component) (test : Bool) : String :=
  joined ((sortedRoots component.module test).map workspacePath)

/-- The same component, in whatever order the build tool lists its parts. -/
structure Component.Same (a b : Component) : Prop where
  identity : componentId a.module = componentId b.module
  roots : ∀ test root, root ∈ a.module.roots test ↔ root ∈ b.module.roots test
  languages : ∀ test language, language ∈ listedLanguages a.module test ↔ language ∈ listedLanguages b.module test
  artifacts : ∀ artifact, artifact ∈ a.artifacts ↔ artifact ∈ b.artifacts
  edges : a.edges.Perm b.edges
  javaVersion : a.javaVersion = b.javaVersion
  languageLevel : javaLanguageLevel a.module = javaLanguageLevel b.module

/-- The same component once roots and edges are joined. -/
structure Component.SameJoined (a b : Component) : Prop where
  identity : componentId a.module = componentId b.module
  roots : ∀ test, a.rootsText test = b.rootsText test
  languages : ∀ test language, language ∈ listedLanguages a.module test ↔ language ∈ listedLanguages b.module test
  artifacts : ∀ artifact, artifact ∈ a.artifacts ↔ artifact ∈ b.artifacts
  edges : (a.edges.map Edge.text).Perm (b.edges.map Edge.text)
  javaVersion : a.javaVersion = b.javaVersion
  languageLevel : javaLanguageLevel a.module = javaLanguageLevel b.module

theorem pathText_injective : Function.Injective pathText := by
  intro a b h
  have hslash : ∀ path : RelPath, ∀ part ∈ "" :: path.names, '/' ∉ part.toList := by
    intro path part hpart
    rcases List.mem_cons.1 hpart with rfl | hpart
    · exact List.not_mem_nil
    · obtain ⟨name, -, rfl⟩ := List.mem_map.1 hpart
      exact name.valid.2.2.2.1
  have hnames := (@intercalate_inj '/' _ _ (hslash a) (hslash b) (List.cons_ne_nil _ _) (List.cons_ne_nil _ _)).1 h
  exact RelPath.names_injective (List.cons.inj hnames).2

theorem workspacePath_ne_empty (path : RelPath) : workspacePath path ≠ "" := by
  unfold workspacePath
  simp only
  split
  next h =>
    intro hempty
    rw [hempty] at h
    cases h
  next => decide

theorem rootsText_congr {a b : Component} {test : Bool} (h : ∀ root, root ∈ a.module.roots test ↔ root ∈ b.module.roots test) :
    a.rootsText test = b.rootsText test := by
  rw [Component.rootsText, Component.rootsText, sortedRoots, sortedRoots,
    sortedBy_eq_of_perm pathText_injective (distinct_perm_iff.2 h)]

theorem rootsText_eq_empty_iff (component : Component) (test : Bool) :
    component.rootsText test = "" ↔ sortedRoots component.module test = [] := joined_eq_empty_iff workspacePath_ne_empty

theorem mem_sortedRoots {module : Module} {test : Bool} {root : RelPath} :
    root ∈ sortedRoots module test ↔ root ∈ module.roots test := by
  rw [sortedRoots, (sortedBy_perm _ _).mem_iff, mem_distinct]

theorem mem_languages {module : Module} {test : Bool} {language : String} :
    language ∈ (sortedRoots module test).flatMap (languages module) ↔ language ∈ listedLanguages module test := by
  simp only [listedLanguages, List.mem_flatMap, mem_sortedRoots, languages, mem_sorted, mem_distinct]

theorem language_cases {fileName language : String} (h : languageOf fileName = some language) :
    language = "java" ∨ language = "kotlin" := by
  unfold languageOf at h
  split at h
  · exact .inl (Option.some.inj h).symm
  · split at h
    · exact .inr (Option.some.inj h).symm
    · cases h

theorem listedLanguages_cases {module : Module} {test : Bool} {language : String} (h : language ∈ listedLanguages module test) :
    language = "java" ∨ language = "kotlin" := by
  obtain ⟨root, -, hmem⟩ := List.mem_flatMap.1 h
  obtain ⟨fileName, -, hlanguage⟩ := List.mem_filterMap.1 hmem
  exact language_cases hlanguage

theorem mem_sourceSet_languages {module : Module} {test : Bool} {language : String} :
    language ∈ (sourceSet module test).languages ↔ language ∈ listedLanguages module test := by
  rw [sourceSet, mem_sorted, mem_distinct, mem_languages]

/-- The languages of a source set are read back. -/
theorem joined_languages_iff {a b : Module} {test : Bool} :
    joined (sourceSet a test).languages = joined (sourceSet b test).languages ↔
      ∀ language, language ∈ listedLanguages a test ↔ language ∈ listedLanguages b test := by
  have hplain : ∀ module : Module, ∀ part ∈ (sourceSet module test).languages, part ≠ "" ∧ ',' ∉ part.toList := by
    intro module part hpart
    rcases listedLanguages_cases (mem_sourceSet_languages.1 hpart) with rfl | rfl <;> decide
  rw [show joined = (String.singleton ',').intercalate from rfl, join_inj (hplain a) (hplain b), sourceSet, sourceSet]
  refine (sortedBy_eq_iff Function.injective_id).trans (distinct_perm_iff.trans (forall_congr' fun language => ?_))
  rw [mem_languages, mem_languages]

theorem colon_notMem_languages (module : Module) (test : Bool) : ':' ∉ (joined (sourceSet module test).languages).toList := by
  intro hmem
  rw [joined, String.toList_intercalate] at hmem
  rcases mem_intercalate hmem with h | ⟨part, hpart, h⟩
  · cases h
  · obtain ⟨language, hlanguage, rfl⟩ := List.mem_map.1 hpart
    revert h
    rcases listedLanguages_cases (mem_sourceSet_languages.1 hlanguage) with rfl | rfl <;> decide

def Component.setText (component : Component) (test : Bool) : Option String :=
  if sortedRoots component.module test = [] then none
  else some (setHead test ++ (component.rootsText test ++ String.singleton ':' ++ joined (sourceSet component.module test).languages))

theorem sourceSets_texts (component : Component) :
    (sourceSets component.module).map SourceSet.text = setTexts component.setText := by
  have htext : ∀ test, (sourceSet component.module test).text =
      setHead test ++ (component.rootsText test ++ String.singleton ':' ++ joined (sourceSet component.module test).languages) := by
    intro test
    have hcolon : String.singleton ':' = ":" := rfl
    simp only [SourceSet.text, setHead, Component.rootsText, hcolon, String.append_assoc]
    rfl
  have hroots : ∀ test, (sourceSet component.module test).roots = [] ↔ sortedRoots component.module test = [] := fun test =>
    List.map_eq_nil_iff
  unfold sourceSets setTexts Component.setText
  by_cases hmain : sortedRoots component.module false = [] <;> by_cases htest : sortedRoots component.module true = [] <;>
    simp [hroots, hmain, htest, htext]

theorem setTexts_iff {a b : Component} : (setTexts a.setText).Perm (setTexts b.setText) ↔
    ∀ test, a.rootsText test = b.rootsText test ∧
      ∀ language, language ∈ listedLanguages a.module test ↔ language ∈ listedLanguages b.module test := by
  have hhead : ∀ (c : Component) (test : Bool), ∀ t ∈ c.setText test, ∃ rest, t = setHead test ++ rest := by
    intro c test t ht
    unfold Component.setText at ht
    split at ht
    · cases ht
    · exact ⟨_, (Option.some.inj ht).symm⟩
  have hnone : ∀ c : Component, ∀ test, sortedRoots c.module test = [] → ∀ language, language ∉ listedLanguages c.module test := by
    intro c test hnil language hmem
    have h := mem_languages.2 hmem
    rw [hnil] at h
    cases h
  rw [setTexts_perm_iff (hhead a) (hhead b)]
  refine forall_congr' fun test => ?_
  unfold Component.setText
  by_cases ha : sortedRoots a.module test = [] <;> by_cases hb : sortedRoots b.module test = []
  · rw [if_pos ha, if_pos hb, (rootsText_eq_empty_iff a test).2 ha, (rootsText_eq_empty_iff b test).2 hb]
    exact iff_of_true rfl ⟨rfl, fun language => iff_of_false (hnone a test ha language) (hnone b test hb language)⟩
  · rw [if_pos ha, if_neg hb, (rootsText_eq_empty_iff a test).2 ha]
    exact iff_of_false (by simp) fun h => hb ((rootsText_eq_empty_iff b test).1 h.1.symm)
  · rw [if_neg ha, if_pos hb, (rootsText_eq_empty_iff b test).2 hb]
    exact iff_of_false (by simp) fun h => ha ((rootsText_eq_empty_iff a test).1 h.1)
  · rw [if_neg ha, if_neg hb, Option.some.injEq, String.append_right_inj,
      trailing_inj (colon_notMem_languages a.module test) (colon_notMem_languages b.module test), joined_languages_iff]

/-- A language level is a number, so it is not the default's text. -/
theorem languageLevel_inj {a b : Module} :
    (javaLanguageLevel a).getD "default" = (javaLanguageLevel b).getD "default" ↔ javaLanguageLevel a = javaLanguageLevel b := by
  have hnumber : ∀ {module : Module} {level : String}, javaLanguageLevel module = some level → level ≠ "default" := by
    intro module level h heq
    have hdigits : isNumber level = true := List.find?_some h
    rw [heq] at hdigits
    revert hdigits
    decide
  refine ⟨fun h => ?_, fun h => by rw [h]⟩
  cases ha : javaLanguageLevel a with
  | none =>
    cases hb : javaLanguageLevel b with
    | none => rfl
    | some level =>
      rw [ha, hb] at h
      exact absurd h.symm (hnumber hb)
  | some level =>
    cases hb : javaLanguageLevel b with
    | none =>
      rw [ha, hb] at h
      exact absurd h (hnumber ha)
    | some other =>
      rw [ha, hb] at h
      exact congrArg some h

def Component.settings (component : Component) : List (String × String) :=
  [("build-tool", "maven-model-" ++ modelVersion), ("jvm", component.javaVersion),
    ("language-level", (javaLanguageLevel component.module).getD "default")]

theorem toolchain_eq (component : Component) : (contextTexts component).toolchain = component.settings.map settingLine := rfl

/-- **Maven.** The texts of two components agree exactly if the components do, roots and edges joined. -/
theorem alike_iff {a b : Component} : (contextTexts a).Alike (contextTexts b) ↔ a.SameJoined b := by
  have hsettings : (contextTexts a).toolchain.Perm (contextTexts b).toolchain ↔ a.settings = b.settings := by
    rw [toolchain_eq, toolchain_eq]
    exact settingLines_perm_iff rfl (by simp [Component.settings]) (by simp [Component.settings])
  have hartifacts : (contextTexts a).artifacts.Perm (contextTexts b).artifacts ↔ ∀ artifact, artifact ∈ a.artifacts ↔ artifact ∈ b.artifacts :=
    sortedDistinct_perm_iff
  have hsets := @setTexts_iff a b
  rw [← sourceSets_texts, ← sourceSets_texts] at hsets
  constructor
  · rintro ⟨hidentity, hs, ha, he, ht⟩
    have hvalues := hsettings.1 ht
    simp only [Component.settings, List.cons.injEq, Prod.mk.injEq, true_and, and_true] at hvalues
    rw [dependencyEdges_eq, dependencyEdges_eq] at he
    exact ⟨hidentity, fun test => (hsets.1 hs test).1, fun test => (hsets.1 hs test).2, hartifacts.1 ha, he, hvalues.1,
      languageLevel_inj.1 hvalues.2⟩
  · rintro ⟨hidentity, hroots, hlanguages, ha, he, hjava, hlevel⟩
    refine ⟨hidentity, hsets.2 fun test => ⟨hroots test, hlanguages test⟩, hartifacts.2 ha, ?_, hsettings.2 ?_⟩
    · rwa [dependencyEdges_eq, dependencyEdges_eq]
    · rw [Component.settings, Component.settings, hjava, hlevel]

theorem Component.Same.joined {a b : Component} (h : a.Same b) : a.SameJoined b :=
  ⟨h.identity, fun test => rootsText_congr (h.roots test), h.languages, h.artifacts, h.edges.map _, h.javaVersion, h.languageLevel⟩

end MavenProjectImporter

/-! ## In any order -/

namespace GradleProjectImporter

structure IdeaContentRoot.Reordered (root other : IdeaContentRoot) : Prop where
  sourceDirectories : root.sourceDirectories.Perm other.sourceDirectories
  testDirectories : root.testDirectories.Perm other.testDirectories

/-- Content roots, their directories and the dependencies in another order. -/
structure Component.Reordered (a b : Component) : Prop where
  environment : a.environment = b.environment
  componentIds : a.componentIds = b.componentIds
  path : a.module.path = b.module.path
  contentRoots : Reorders IdeaContentRoot.Reordered a.module.contentRoots b.module.contentRoots
  dependencies : a.module.dependencies.Perm b.module.dependencies

theorem Component.Reordered.same {a b : Component} (h : a.Reordered b) : a.Same b := by
  refine ⟨h.path, fun test directory => ?_, fun artifact => (h.dependencies.filterMap _).mem_iff, ?_, ?_, ?_, ?_⟩
  · have hnone := h.contentRoots.forall_iff
      (p := fun root => directory ∉ if test then root.testDirectories else root.sourceDirectories) fun x y hxy => by
        cases test
        · exact not_congr hxy.sourceDirectories.mem_iff
        · exact not_congr hxy.testDirectories.mem_iff
    rw [listed, listed, List.mem_flatMap, List.mem_flatMap, ← not_iff_not]
    simpa only [not_exists, not_and] using hnone
  · rw [Component.edges, Component.edges, h.componentIds]
    exact h.dependencies.filterMap _
  · rw [h.environment]
  · rw [h.environment]
  · rw [h.environment]

end GradleProjectImporter

namespace MavenProjectImporter

/-- Source directories, the files below them, dependencies, artifacts and resolved edges in another order. -/
structure Component.Reordered (a b : Component) : Prop where
  javaVersion : a.javaVersion = b.javaVersion
  directory : a.module.directory = b.module.directory
  property : a.module.property = b.module.property
  roots : ∀ test, (a.module.roots test).Perm (b.module.roots test)
  filesBelow : ∀ root, (a.module.filesBelow root).Perm (b.module.filesBelow root)
  dependencies : a.module.dependencies.Perm b.module.dependencies
  artifacts : a.artifacts.Perm b.artifacts
  resolvedEdges : a.resolvedEdges.Perm b.resolvedEdges

theorem Component.Reordered.same {a b : Component} (h : a.Reordered b) : a.Same b := by
  refine ⟨?_, fun test root => (h.roots test).mem_iff, fun test language => ?_, fun artifact => h.artifacts.mem_iff, ?_,
    h.javaVersion, ?_⟩
  · rw [componentId, componentId, h.directory]
  · simp only [listedLanguages, List.mem_flatMap, (h.roots test).mem_iff, List.mem_filterMap, (h.filesBelow _).mem_iff]
  · exact ((h.dependencies.filter _).map _).append (h.resolvedEdges.map _)
  · rw [javaLanguageLevel, javaLanguageLevel, h.property]

end MavenProjectImporter

/-! ## The context of a component -/

inductive ImportedComponent where
  | gradle (component : GradleProjectImporter.Component)
  | maven (component : MavenProjectImporter.Component)

namespace ImportedComponent

def contextTexts : ImportedComponent → Texts
  | gradle component => GradleProjectImporter.contextTexts component
  | maven component => MavenProjectImporter.contextTexts component

def contextDigest (component : ImportedComponent) : String := fingerprint component.contextTexts

def Same : ImportedComponent → ImportedComponent → Prop
  | gradle a, gradle b => a.Same b
  | maven a, maven b => a.Same b
  | _, _ => False

def SameJoined : ImportedComponent → ImportedComponent → Prop
  | gradle a, gradle b => a.SameJoined b
  | maven a, maven b => a.SameJoined b
  | _, _ => False

def Reordered : ImportedComponent → ImportedComponent → Prop
  | gradle a, gradle b => a.Reordered b
  | maven a, maven b => a.Reordered b
  | _, _ => False

variable {a b : ImportedComponent}

theorem alike_iff : a.contextTexts.Alike b.contextTexts ↔ a.SameJoined b := by
  -- one importer writes four settings and the other three
  cases a with
  | gradle a =>
    cases b with
    | gradle b => exact GradleProjectImporter.alike_iff
    | maven b => exact iff_of_false (fun h => absurd (show 4 = 3 from h.toolchain.length_eq) (by decide)) not_false
  | maven a =>
    cases b with
    | gradle b => exact iff_of_false (fun h => absurd (show 3 = 4 from h.toolchain.length_eq) (by decide)) not_false
    | maven b => exact MavenProjectImporter.alike_iff

theorem Same.joined (h : a.Same b) : a.SameJoined b := by
  cases a with
  | gradle a =>
    cases b with
    | gradle b => exact GradleProjectImporter.Component.Same.joined h
    | maven b => exact h.elim
  | maven a =>
    cases b with
    | gradle b => exact h.elim
    | maven b => exact MavenProjectImporter.Component.Same.joined h

theorem Reordered.same (h : a.Reordered b) : a.Same b := by
  cases a with
  | gradle a =>
    cases b with
    | gradle b => exact GradleProjectImporter.Component.Reordered.same h
    | maven b => exact h.elim
  | maven a =>
    cases b with
    | gradle b => exact h.elim
    | maven b => exact MavenProjectImporter.Component.Reordered.same h

theorem contextDigest_eq_of_same (h : a.Same b) : a.contextDigest = b.contextDigest :=
  fingerprint_eq_of_alike (alike_iff.2 h.joined)

/-- One digest for the same component and no other, whatever the order its parts are listed in. -/
structure Faithful (a b : ImportedComponent) : Prop where
  same : a.contextDigest = b.contextDigest ↔ a.Same b
  order : ∀ component ∈ [a, b], ∀ other, component.Reordered other → other.contextDigest = component.contextDigest

/-- Two components that differ, and no more do once the roots and the edges are joined. -/
def DifferInSeparators (a b : ImportedComponent) : Prop := a.SameJoined b ∧ ¬ a.Same b

end ImportedComponent

/-! ## Names without NUL -/

def NoNul (text : String) : Prop := '\x00' ∉ text.toList

instance (text : String) : Decidable (NoNul text) := inferInstanceAs (Decidable (¬ _))

theorem noNul_append {x y : String} : NoNul (x ++ y) ↔ NoNul x ∧ NoNul y := by
  rw [NoNul, String.toList_append, List.mem_append, not_or]
  rfl

theorem noNul_joined {sep : Char} (hsep : sep ≠ '\x00') {texts : List String} (h : ∀ text ∈ texts, NoNul text) :
    NoNul ((String.singleton sep).intercalate texts) := by
  intro hmem
  rw [String.toList_intercalate, String.toList_singleton] at hmem
  rcases mem_intercalate hmem with heq | ⟨part, hpart, hmem⟩
  · exact hsep heq.symm
  · obtain ⟨text, htext, rfl⟩ := List.mem_map.1 hpart
    exact h text htext hmem

theorem noNul_replaceChar {old new : Char} (hnew : new ≠ '\x00') {text : String} (h : NoNul text) : NoNul (replaceChar old new text) := by
  intro hmem
  rw [replaceChar, String.toList_ofList, List.mem_map] at hmem
  obtain ⟨c, hc, heq⟩ := hmem
  split at heq
  · exact hnew heq
  · exact h (heq ▸ hc)

theorem noNul_getD {value : Option String} {default : String} (hdefault : NoNul default) (h : ∀ text ∈ value, NoNul text) :
    NoNul (value.getD default) := by
  cases value with
  | none => exact hdefault
  | some text => exact h text rfl

theorem noNul_setHead (test : Bool) : NoNul (setHead test) := by
  cases test <;> decide

theorem noNul_setTexts {text : Bool → Option String} (h : ∀ test, ∀ t ∈ text test, NoNul t) : ∀ t ∈ setTexts text, NoNul t := by
  intro t ht
  rcases List.mem_append.1 ht with ht | ht
  · exact h false t (Option.mem_toList.1 ht)
  · exact h true t (Option.mem_toList.1 ht)

namespace GradleProjectImporter

def IdeaDependency.NoNul : IdeaDependency → Prop
  | .module scope _ => Kide.NoNul scope
  | .library scope artifact => Kide.NoNul scope ∧ Kide.NoNul artifact
  | .other => True

structure Component.NoNul (component : Component) : Prop where
  path : Kide.NoNul component.module.path
  componentIds : ∀ name id, component.componentIds name = some id → Kide.NoNul id
  dependencies : ∀ dependency ∈ component.module.dependencies, dependency.NoNul
  gradleVersion : Kide.NoNul component.environment.gradleVersion
  javaVersion : Kide.NoNul component.environment.javaVersion
  javaHome : Kide.NoNul component.environment.javaHome
  kotlinVersion : Kide.NoNul component.environment.kotlinVersion

theorem noNul_componentId {path : String} (h : Kide.NoNul path) : Kide.NoNul (componentId path) := by
  have hstripped : Kide.NoNul (if path.toList.head? = some ':' then String.ofList path.toList.tail else path) := by
    split
    · rw [Kide.NoNul, String.toList_ofList]
      exact fun hmem => h (List.mem_of_mem_tail hmem)
    · exact h
  have hname := @noNul_replaceChar ':' '/' (by decide) _ hstripped
  unfold componentId
  dsimp only
  generalize replaceChar ':' '/' _ = name at hname ⊢
  refine noNul_append.2 ⟨noNul_append.2 ⟨by decide, ?_⟩, by decide⟩
  split
  · exact hname
  · decide

theorem noNul_roots (l : List SourceDirectoryFact) : Kide.NoNul (joined (l.map (·.path.text))) := by
  refine @noNul_joined ',' (by decide) _ fun text htext => ?_
  obtain ⟨directory, -, rfl⟩ := List.mem_map.1 htext
  exact text_nul directory.path

theorem noNul_edge {component : Component} (h : component.NoNul) {fact : DependencyFact} (hfact : fact ∈ component.edges) :
    Kide.NoNul fact.text := by
  obtain ⟨dependency, hmem, hdependency⟩ := List.mem_filterMap.1 hfact
  have hnul := h.dependencies dependency hmem
  cases dependency with
  | module scope name =>
    obtain ⟨target, htarget, rfl⟩ := Option.map_eq_some_iff.1 hdependency
    simp only [DependencyFact.text, noNul_append]
    exact ⟨⟨hnul, by decide⟩, by decide, h.componentIds name target htarget⟩
  | library scope artifact =>
    cases hdependency
    simp only [DependencyFact.text, noNul_append]
    exact ⟨⟨hnul.1, by decide⟩, by decide, hnul.2⟩
  | other => cases hdependency

theorem Component.NoNul.texts {component : Component} (h : component.NoNul) : (contextTexts component).NulFree := by
  refine ⟨noNul_componentId h.path, ?_, fun text htext => ?_, fun text htext => ?_, fun text htext => ?_⟩
  · rw [show (contextTexts component).sourceSets = _ from sourceSets_texts component]
    refine noNul_setTexts fun test t ht => ?_
    unfold Component.setText at ht
    split at ht
    · cases ht
    · cases ht
      simp only [noNul_append, Component.rootsText]
      exact ⟨noNul_setHead test, ⟨noNul_roots _, by decide⟩, noNul_roots _⟩
  · obtain ⟨dependency, hmem, hartifact⟩ := List.mem_filterMap.1 (mem_distinct.1 (mem_sorted.1 htext))
    have hnul := h.dependencies dependency hmem
    cases dependency with
    | library scope artifact =>
      cases hartifact
      exact hnul.2
    | module scope name => cases hartifact
    | other => cases hartifact
  · obtain ⟨fact, hfact, rfl⟩ := List.mem_map.1 htext
    exact noNul_edge h ((List.mem_insertionSort _).1 hfact)
  · simp only [contextTexts, List.mem_cons, List.not_mem_nil, or_false] at htext
    rcases htext with rfl | rfl | rfl | rfl
    · exact noNul_append.2 ⟨by decide, h.gradleVersion⟩
    · exact noNul_append.2 ⟨by decide, noNul_append.2 ⟨noNul_append.2 ⟨h.javaVersion, by decide⟩, h.javaHome⟩⟩
    · exact noNul_append.2 ⟨by decide, h.path⟩
    · exact noNul_append.2 ⟨by decide, h.kotlinVersion⟩

end GradleProjectImporter

namespace MavenProjectImporter

structure Dependency.NoNul (dependency : Dependency) : Prop where
  scope : ∀ text ∈ dependency.scope, Kide.NoNul text
  groupId : Kide.NoNul dependency.groupId
  artifactId : Kide.NoNul dependency.artifactId
  classifier : ∀ text ∈ dependency.classifier, Kide.NoNul text
  type : ∀ text ∈ dependency.type, Kide.NoNul text
  version : ∀ text ∈ dependency.version, Kide.NoNul text

structure Component.NoNul (component : Component) : Prop where
  javaVersion : Kide.NoNul component.javaVersion
  dependencies : ∀ dependency ∈ component.module.dependencies, dependency.NoNul
  artifacts : ∀ artifact ∈ component.artifacts, Kide.NoNul artifact
  resolvedEdges : ∀ edge ∈ component.resolvedEdges, Kide.NoNul edge

theorem noNul_workspacePath (path : RelPath) : Kide.NoNul (workspacePath path) := by
  unfold workspacePath
  simp only
  split
  · refine noNul_replaceChar (by decide) (@noNul_joined '/' (by decide) _ fun text htext => ?_)
    obtain ⟨name, -, rfl⟩ := List.mem_map.1 htext
    exact name.valid.2.2.2.2
  · decide

theorem noNul_componentId (module : Module) : Kide.NoNul (componentId module) := by
  refine noNul_append.2 ⟨noNul_append.2 ⟨by decide, ?_⟩, by decide⟩
  split
  · decide
  · exact noNul_workspacePath _

theorem noNul_languages (module : Module) (test : Bool) : Kide.NoNul (joined (sourceSet module test).languages) := by
  refine @noNul_joined ',' (by decide) _ fun text htext => ?_
  rcases listedLanguages_cases (mem_sourceSet_languages.1 htext) with rfl | rfl <;> decide

theorem noNul_dependency {dependency : Dependency} (h : dependency.NoNul) : Kide.NoNul dependency.text := by
  have hclassifier : ∀ text ∈ (dependency.classifier.filter KotlinStructuralExtractor.isNotBlank).map (":" ++ ·), Kide.NoNul text := by
    intro text htext
    obtain ⟨classifier, hkept, rfl⟩ := Option.map_eq_some_iff.1 htext
    exact noNul_append.2 ⟨by decide, h.classifier classifier (Option.filter_eq_some_iff.1 hkept).1⟩
  simp only [Dependency.text, noNul_append, and_assoc]
  exact ⟨noNul_getD (by decide) h.scope, by decide, h.groupId, by decide, h.artifactId, noNul_getD (by decide) hclassifier,
    by decide, noNul_getD (by decide) h.type, by decide, noNul_getD (by decide) h.version⟩

theorem noNul_languageLevel {module : Module} {level : String} (h : javaLanguageLevel module = some level) : Kide.NoNul level := by
  have hdigits : isNumber level = true := List.find?_some h
  unfold isNumber at hdigits
  simp only [Bool.decide_and, Bool.and_eq_true, decide_eq_true_eq, List.all_eq_true] at hdigits
  intro hmem
  exact absurd (hdigits.2 _ hmem) (by decide)

theorem Component.NoNul.texts {component : Component} (h : component.NoNul) : (contextTexts component).NulFree := by
  refine ⟨noNul_componentId component.module, ?_, fun text htext => ?_, fun text htext => ?_, fun text htext => ?_⟩
  · rw [show (contextTexts component).sourceSets = _ from sourceSets_texts component]
    refine noNul_setTexts fun test t ht => ?_
    unfold Component.setText at ht
    split at ht
    · cases ht
    · cases ht
      simp only [noNul_append, Component.rootsText]
      refine ⟨noNul_setHead test, ⟨@noNul_joined ',' (by decide) _ fun text htext => ?_, by decide⟩, noNul_languages _ _⟩
      obtain ⟨root, -, rfl⟩ := List.mem_map.1 htext
      exact noNul_workspacePath root
  · exact h.artifacts text (mem_distinct.1 (mem_sorted.1 htext))
  · rcases List.mem_append.1 htext with htext | htext
    · obtain ⟨dependency, hmem, rfl⟩ := List.mem_map.1 htext
      exact noNul_dependency (h.dependencies dependency (List.mem_filter.1 hmem).1)
    · exact h.resolvedEdges text htext
  · simp only [contextTexts, List.mem_cons, List.not_mem_nil, or_false] at htext
    rcases htext with rfl | rfl | rfl
    · decide
    · exact noNul_append.2 ⟨by decide, h.javaVersion⟩
    · exact noNul_append.2 ⟨by decide, noNul_getD (by decide) fun level hlevel => noNul_languageLevel hlevel⟩

end MavenProjectImporter

/-! ## Names without separators -/

theorem notMem_joined {sep c : Char} (hsep : c ≠ sep) {texts : List String} (h : ∀ text ∈ texts, c ∉ text.toList) :
    c ∉ ((String.singleton sep).intercalate texts).toList := by
  intro hmem
  rw [String.toList_intercalate, String.toList_singleton] at hmem
  rcases mem_intercalate hmem with heq | ⟨part, hpart, hmem⟩
  · exact hsep heq
  · obtain ⟨text, htext, rfl⟩ := List.mem_map.1 hpart
    exact h text htext hmem

namespace GradleProjectImporter

/-- No comma and no colon in a directory, no colon in a scope. -/
structure Component.Plain (component : Component) : Prop where
  comma : ∀ test, ∀ directory ∈ listed component.module test, ',' ∉ directory.path.text.toList
  colon : ∀ test, ∀ directory ∈ listed component.module test, ':' ∉ directory.path.text.toList
  scopes : ∀ fact ∈ component.edges, ':' ∉ fact.scope.toList

theorem mem_directories {module : IdeaModule} {test : Bool} {directory : SourceDirectoryFact} :
    directory ∈ directories module test ↔ directory ∈ listed module test := by
  rw [directories, (sortedBy_perm _ _).mem_iff, mem_distinct]

/-- Plain components that are one once joined are one. -/
theorem Component.Plain.same {a b : Component} (ha : a.Plain) (hb : b.Plain) (h : a.SameJoined b) : a.Same b := by
  have hparts : ∀ c : Component, c.Plain → ∀ test, ∀ p : SourceDirectoryFact → Bool,
      ∀ part ∈ ((directories c.module test).filter p).map (·.path.text), part ≠ "" ∧ ',' ∉ part.toList := by
    intro c hc test p part hpart
    obtain ⟨directory, hmem, rfl⟩ := List.mem_map.1 hpart
    exact ⟨text_ne_empty _, hc.comma test directory (mem_directories.1 (List.mem_filter.1 hmem).1)⟩
  have hcolon : ∀ c : Component, c.Plain → ∀ test,
      ':' ∉ (joined (SourceSetFact.sourceRoots ⟨setName test, directories c.module test, test⟩)).toList := by
    intro c hc test
    refine @notMem_joined ',' ':' (by decide) _ fun part hpart => ?_
    obtain ⟨directory, hmem, rfl⟩ := List.mem_map.1 hpart
    exact hc.colon test directory (mem_directories.1 (List.mem_filter.1 hmem).1)
  refine ⟨h.path, fun test directory => ?_, h.artifacts, perm_of_map_perm (fun x hx y hy hxy => ?_) h.edges, h.gradleVersion,
    h.jvmVersion, h.kotlinVersion⟩
  · obtain ⟨hsource, hgenerated⟩ := (@separated_inj ':' _ _ _ _ (hcolon a ha test) (hcolon b hb test)).1 (h.roots test)
    have hlists := And.intro ((@join_inj ',' _ _ (hparts a ha test _) (hparts b hb test _)).1 hsource)
      ((@join_inj ',' _ _ (hparts a ha test _) (hparts b hb test _)).1 hgenerated)
    have hmem : ∀ (l : List SourceDirectoryFact) (p : SourceDirectoryFact → Bool), (∀ x y, p x → p y → x.generated = y.generated) →
        p directory → (directory ∈ l ↔ directory.path.text ∈ (l.filter p).map (·.path.text)) := by
      intro l p hp hdirectory
      refine ⟨fun hd => List.mem_map.2 ⟨directory, List.mem_filter.2 ⟨hd, hdirectory⟩, rfl⟩, fun hd => ?_⟩
      obtain ⟨other, hother, htext⟩ := List.mem_map.1 hd
      obtain ⟨hother, hpother⟩ := List.mem_filter.1 hother
      rwa [← SourceDirectoryFact.ext (text_injective htext) (hp other directory hpother hdirectory)]
    rw [← mem_directories, ← mem_directories]
    by_cases hgen : directory.generated = true
    · rw [hmem _ (fun d => d.generated) (fun x y hx hy => hx.trans hy.symm) hgen,
        hmem (directories b.module test) (fun d => d.generated) (fun x y hx hy => hx.trans hy.symm) hgen]
      exact (congrArg (directory.path.text ∈ ·) hlists.2).to_iff
    · have hfalse : ∀ x y : SourceDirectoryFact, decide (¬ x.generated = true) = true → decide (¬ y.generated = true) = true →
          x.generated = y.generated := by
        intro x y hx hy
        rw [Bool.eq_false_iff.2 (of_decide_eq_true hx), Bool.eq_false_iff.2 (of_decide_eq_true hy)]
      rw [hmem _ _ hfalse (decide_eq_true hgen), hmem (directories b.module test) _ hfalse (decide_eq_true hgen)]
      exact (congrArg (directory.path.text ∈ ·) hlists.1).to_iff
  · obtain ⟨hscope, htarget⟩ := (@separated_inj ':' _ _ _ _ (ha.scopes x hx) (hb.scopes y hy)).1 hxy
    cases x
    cases y
    cases hscope
    cases htarget
    rfl

end GradleProjectImporter

namespace ImportedComponent

def NoNul : ImportedComponent → Prop
  | gradle component => component.NoNul
  | maven component => component.NoNul

theorem NoNul.texts {component : ImportedComponent} (h : component.NoNul) : component.contextTexts.NulFree := by
  cases component with
  | gradle component => exact GradleProjectImporter.Component.NoNul.texts h
  | maven component => exact MavenProjectImporter.Component.NoNul.texts h

/-- **Component contexts.** For names without NUL and a hash without a collision on the two inputs, the digest tells two
components apart rightly, except for two that differ only in where their roots or edges are separated. -/
theorem contextDigest_faithful_iff (a b : ImportedComponent) (ha : a.NoNul) (hb : b.NoNul)
    (hcollision : hexDigest (input a.contextTexts) = hexDigest (input b.contextTexts) →
      input a.contextTexts = input b.contextTexts) :
    a.Faithful b ↔ ¬ a.DifferInSeparators b := by
  have hdigest : a.contextDigest = b.contextDigest ↔ a.SameJoined b :=
    (fingerprint_eq_iff ha.texts hb.texts hcollision).trans alike_iff
  constructor
  · rintro ⟨hsame, -⟩ ⟨hjoined, hdiffer⟩
    exact hdiffer (hsame.1 (hdigest.2 hjoined))
  · intro h
    refine ⟨⟨fun heq => ?_, contextDigest_eq_of_same⟩, fun component _ other hother =>
      (contextDigest_eq_of_same hother.same).symm⟩
    by_contra hdiffer
    exact h ⟨hdigest.1 heq, hdiffer⟩

end ImportedComponent

/-! ## A directory with a comma -/

/-- A Gradle project at the workspace root, with these source directories. -/
def rootProject (paths : List RelPath) : GradleProjectImporter.Component where
  environment := ⟨"8.14", "21.0.2", "jdk-21", "2.2.0"⟩
  componentIds := fun _ => none
  module := ⟨":", [⟨paths.map fun path => ⟨path, false⟩, []⟩], []⟩

theorem rootProject_noNul (paths : List RelPath) : (rootProject paths).NoNul :=
  ⟨show NoNul ":" by decide, fun _ _ h => (by cases h), fun _ h => (by cases h), show NoNul "8.14" by decide,
    show NoNul "21.0.2" by decide, show NoNul "jdk-21" by decide, show NoNul "2.2.0" by decide⟩

theorem plainRoots_faithful :
    (ImportedComponent.gradle (rootProject [[FileName.of "a"]])).Faithful
      (.gradle (rootProject [[FileName.of "a"], [FileName.of "b"]])) := by
  have hplain : (rootProject [[FileName.of "a"]]).Plain ∧ (rootProject [[FileName.of "a"], [FileName.of "b"]]).Plain := by
    refine ⟨⟨fun test => ?_, fun test => ?_, fun _ h => (by cases h)⟩, ⟨fun test => ?_, fun test => ?_, fun _ h => (by cases h)⟩⟩ <;>
      cases test <;> decide
  refine (ImportedComponent.contextDigest_faithful_iff (.gradle _) (.gradle _) (rootProject_noNul [[FileName.of "a"]])
    (rootProject_noNul [[FileName.of "a"], [FileName.of "b"]]) (by decide +kernel)).2 ?_
  rintro ⟨hjoined, hdiffer⟩
  exact hdiffer (hplain.1.same hplain.2 hjoined)

/-- One directory `a,b`, or two directories `a` and `b`. -/
theorem commaRoot_unfaithful :
    ¬ ∀ a b : ImportedComponent, a.NoNul → b.NoNul →
      (hexDigest (input a.contextTexts) = hexDigest (input b.contextTexts) → input a.contextTexts = input b.contextTexts) →
      a.Faithful b := by
  intro h
  have htexts : GradleProjectImporter.contextTexts (rootProject [[FileName.of "a,b"]]) =
      GradleProjectImporter.contextTexts (rootProject [[FileName.of "a"], [FileName.of "b"]]) := by decide
  have hfaithful := h (.gradle (rootProject [[FileName.of "a,b"]])) (.gradle (rootProject [[FileName.of "a"], [FileName.of "b"]]))
    (rootProject_noNul _) (rootProject_noNul _) fun _ => congrArg input htexts
  have hsame : (rootProject [[FileName.of "a,b"]]).Same (rootProject [[FileName.of "a"], [FileName.of "b"]]) :=
    hfaithful.same.1 (congrArg ComponentContextDigest.fingerprint htexts)
  exact absurd ((hsame.directories false ⟨[FileName.of "a"], false⟩).2 (by decide)) (by decide)

end Kide
