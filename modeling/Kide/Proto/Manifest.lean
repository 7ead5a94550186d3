import Kide.Proto.RoundTrip
import Kide.Lib.Unicode

/-!
# The project manifest on the wire

`manifest` and `decode_manifest` (`worker_proto_adapter.rs`). The languages and the build system of a component
are written as their lower-case debug print and read back by a table of names; a constructor with a payload is
printed with its name, so it does not come back (`decodeManifest_manifest_iff`). `proto_language`, which the
source units use, writes the payload alone.
-/

namespace Kide

open Checks

namespace WorkerProto

structure Toolchain where
  jvmVersion : String
  buildToolVersion : String
  kotlinVersion : Option String
deriving DecidableEq, Repr

structure SourceSet where
  name : String
  sourceRoots : List String
  generatedRoots : List String
  test : Bool
deriving DecidableEq, Repr

structure Component where
  id : String
  name : String
  buildSystem : String
  root : String
  languages : List String
  configurationFingerprint : String
  sourceSets : List SourceSet
  classpathFingerprints : List String
  toolchain : Option Toolchain
  compilerConfigurationFingerprint : Option String
deriving DecidableEq, Repr

inductive DependencyEdgeTarget where
  | componentId (component : String)
  | artifactFingerprint (content : String)
deriving DecidableEq, Repr

structure DependencyEdge where
  fromComponentId : String
  scope : String
  target : Option DependencyEdgeTarget
deriving DecidableEq, Repr

structure ProjectManifest where
  workspace : String
  root : String
  components : List Component
  dependencies : List DependencyEdge
  fingerprint : String
  provenance : Option Provenance
deriving DecidableEq, Repr

end WorkerProto

namespace WorkerAdapter

/-! ## Writing -/

section
variable (data : Unicode.Data)

/-- `format!("{:?}", value)` -/
def languageDebug : Language → String
  | .kotlin => "Kotlin"
  | .java => "Java"
  | .rust => "Rust"
  | .typeScript => "TypeScript"
  | .other value => "Other(" ++ Unicode.debug data value ++ ")"

def buildSystemDebug : BuildSystem → String
  | .gradle => "Gradle"
  | .maven => "Maven"
  | .cargo => "Cargo"
  | .npm => "Npm"
  | .bazel => "Bazel"
  | .filesystem => "Filesystem"
  | .other value => "Other(" ++ Unicode.debug data value ++ ")"

def protoSourceSet (set : SourceSet) : WorkerProto.SourceSet where
  name := set.name
  sourceRoots := set.sourceRoots.map (·.asStr)
  generatedRoots := set.generatedRoots.map (·.asStr)
  test := set.test

def protoToolchain (toolchain : Toolchain) : WorkerProto.Toolchain where
  jvmVersion := toolchain.jvmVersion
  buildToolVersion := toolchain.buildToolVersion
  kotlinVersion := toolchain.kotlinVersion

def protoComponent (component : Component) : WorkerProto.Component where
  id := component.id.asStr
  name := component.name
  buildSystem := Unicode.toLowercase data (buildSystemDebug data component.buildSystem)
  root := component.root.asStr
  languages := component.languages.map fun language => Unicode.toLowercase data (languageDebug data language)
  configurationFingerprint := component.configuration.asStr
  sourceSets := component.sourceSets.map protoSourceSet
  classpathFingerprints := component.classpath.map (·.asStr)
  toolchain := component.toolchain.map protoToolchain
  compilerConfigurationFingerprint := component.compilerConfiguration.map (·.asStr)

def protoDependencyEdge (edge : DependencyEdge) : WorkerProto.DependencyEdge where
  fromComponentId := edge.source.asStr
  scope := edge.scope
  target := some (match edge.target with
    | .component component => .componentId component.asStr
    | .artifact content => .artifactFingerprint content.asStr)

def manifest (value : ProjectManifest) : WorkerProto.ProjectManifest where
  workspace := value.workspace.asStr
  root := value.root.asStr
  components := value.components.map (protoComponent data)
  dependencies := value.dependencies.map protoDependencyEdge
  fingerprint := value.fingerprint.asStr
  provenance := some (protoProvenance value.provenance)

end

/-! ## Reading -/

def buildSystem (value : String) : BuildSystem :=
  match value with
  | "gradle" => .gradle
  | "maven" => .maven
  | "cargo" => .cargo
  | "npm" => .npm
  | "bazel" => .bazel
  | "filesystem" => .filesystem
  | other => .other other

def decodeSourceSet (set : WorkerProto.SourceSet) : SourceSet where
  name := set.name
  sourceRoots := set.sourceRoots.map (⟨·⟩)
  generatedRoots := set.generatedRoots.map (⟨·⟩)
  test := set.test

def decodeToolchain (toolchain : WorkerProto.Toolchain) : Toolchain where
  jvmVersion := toolchain.jvmVersion
  buildToolVersion := toolchain.buildToolVersion
  kotlinVersion := toolchain.kotlinVersion

def decodeComponent (component : WorkerProto.Component) : Component where
  id := ⟨component.id⟩
  name := component.name
  buildSystem := buildSystem component.buildSystem
  root := ⟨component.root⟩
  languages := component.languages.map language
  configuration := ⟨component.configurationFingerprint⟩
  sourceSets := component.sourceSets.map decodeSourceSet
  classpath := component.classpathFingerprints.map (⟨·⟩)
  toolchain := component.toolchain.map decodeToolchain
  compilerConfiguration := component.compilerConfigurationFingerprint.map (⟨·⟩)

def decodeDependencyEdge (edge : WorkerProto.DependencyEdge) : Except AdapterError DependencyEdge := do
  let target ← required "dependency.target" edge.target
  pure
    { source := ⟨edge.fromComponentId⟩
      target := match target with
        | .componentId component => .component ⟨component⟩
        | .artifactFingerprint content => .artifact ⟨content⟩
      scope := edge.scope }

def decodeManifest (value : WorkerProto.ProjectManifest) : Except AdapterError ProjectManifest := do
  let workerProvenance ← required "manifest.provenance" value.provenance
  let dependencies ← value.dependencies.mapM decodeDependencyEdge
  pure
    { workspace := ⟨value.workspace⟩
      root := ⟨value.root⟩
      components := value.components.map decodeComponent
      dependencies
      fingerprint := ⟨value.fingerprint⟩
      provenance := provenance workerProvenance }

end WorkerAdapter

/-! ## Names -/

/-- The language has a name of its own. -/
def Language.BuiltIn : Language → Prop
  | .other _ => False
  | _ => True

def BuildSystem.BuiltIn : BuildSystem → Prop
  | .other _ => False
  | _ => True

def Component.BuiltIn (component : Component) : Prop :=
  component.buildSystem.BuiltIn ∧ ∀ language ∈ component.languages, language.BuiltIn

namespace WorkerAdapter

section
variable (data : Unicode.Data)

/-- A printed payload is longer than the payload. -/
theorem length_lt_otherDebug (name : String) :
    name.length < (Unicode.toLowercase data ("Other(" ++ Unicode.debug data name ++ ")")).length := by
  have hlower := Unicode.length_le_toLowercase data ("Other(" ++ Unicode.debug data name ++ ")")
  have hdebug := Unicode.length_le_debug data name
  rw [String.length_append, String.length_append] at hlower
  have hother : "Other(".length = 6 := by decide
  omega

theorem language_eq_other {value name : String} (h : language value = .other name) : value = name := by
  unfold language at h
  split at h <;> simp_all

theorem buildSystem_eq_other {value name : String} (h : buildSystem value = .other name) : value = name := by
  unfold buildSystem at h
  split at h <;> simp_all

theorem language_lowerDebug_iff (value : Language) :
    language (Unicode.toLowercase data (languageDebug data value)) = value ↔ value.BuiltIn := by
  cases value with
  | other name =>
    refine iff_of_false (fun h => ?_) id
    have hlength := congrArg String.length (language_eq_other h)
    exact (length_lt_otherDebug data name).ne' hlength
  | _ =>
    refine iff_of_true ?_ True.intro
    rw [languageDebug, Unicode.toLowercase_ascii data (by decide)]
    rfl

theorem buildSystem_lowerDebug_iff (value : BuildSystem) :
    buildSystem (Unicode.toLowercase data (buildSystemDebug data value)) = value ↔ value.BuiltIn := by
  cases value with
  | other name =>
    refine iff_of_false (fun h => ?_) id
    have hlength := congrArg String.length (buildSystem_eq_other h)
    exact (length_lt_otherDebug data name).ne' hlength
  | _ =>
    refine iff_of_true ?_ True.intro
    rw [buildSystemDebug, Unicode.toLowercase_ascii data (by decide)]
    rfl

/-! ## A manifest read back -/

theorem decodeComponent_proto_iff (component : Component) :
    decodeComponent (protoComponent data component) = component ↔ component.BuiltIn := by
  have hsets : (component.sourceSets.map protoSourceSet).map decodeSourceSet = component.sourceSets := by
    refine list_map_round_trip (fun set => ?_) _
    unfold decodeSourceSet protoSourceSet
    rw [list_map_round_trip (fun _ => rfl), list_map_round_trip (fun _ => rfl)]
  have hclasspath : (component.classpath.map (·.asStr)).map Fingerprint.mk = component.classpath :=
    list_map_round_trip (fun _ => rfl) _
  have htoolchain : (component.toolchain.map protoToolchain).map decodeToolchain = component.toolchain :=
    option_map_round_trip (fun _ => rfl) _
  have hcompiler : (component.compilerConfiguration.map (·.asStr)).map Fingerprint.mk = component.compilerConfiguration :=
    option_map_round_trip (fun _ => rfl) _
  have hlanguages : (component.languages.map fun value => Unicode.toLowercase data (languageDebug data value)).map language =
      component.languages ↔ ∀ value ∈ component.languages, value.BuiltIn := by
    have hself := List.map_inj_left (l := component.languages)
      (f := language ∘ fun value => Unicode.toLowercase data (languageDebug data value)) (g := id)
    rw [List.map_id, ← List.map_map] at hself
    exact hself.trans (forall₂_congr fun value _ => language_lowerDebug_iff data value)
  have hbuild := buildSystem_lowerDebug_iff data component.buildSystem
  unfold decodeComponent protoComponent Component.BuiltIn
  rw [hsets, hclasspath, htoolchain, hcompiler, ← hlanguages, ← hbuild]
  rcases component with ⟨id, name, system, root, languages, configuration, sets, classpath, toolchain, compiler⟩
  simp only [Component.mk.injEq, and_true, true_and]

theorem decodeDependencyEdge_proto (edge : DependencyEdge) : decodeDependencyEdge (protoDependencyEdge edge) = .ok edge := by
  rcases edge with ⟨source, target, scope⟩
  cases target <;> rfl

/-- **Manifest codec.** A manifest comes back exactly if no component has a build system or a language without a
name of its own. -/
theorem decodeManifest_manifest_iff (value : ProjectManifest) :
    decodeManifest (manifest data value) = .ok value ↔ ∀ component ∈ value.components, component.BuiltIn := by
  have hdependencies : (value.dependencies.map protoDependencyEdge).mapM decodeDependencyEdge = .ok value.dependencies :=
    mapM_map_eq_ok_self_iff.2 fun edge _ => decodeDependencyEdge_proto edge
  have hcomponents : (value.components.map (protoComponent data)).map decodeComponent = value.components ↔
      ∀ component ∈ value.components, component.BuiltIn := by
    have hself := List.map_inj_left (l := value.components) (f := decodeComponent ∘ protoComponent data) (g := id)
    rw [List.map_id, ← List.map_map] at hself
    exact hself.trans (forall₂_congr fun component _ => decodeComponent_proto_iff data component)
  rw [← hcomponents]
  unfold decodeManifest manifest
  simp only [required, ok_bind, hdependencies, pure_eq_ok, Except.ok.injEq]
  rcases value with ⟨workspace, root, components, dependencies, fingerprint, provenance⟩
  simp only [ProjectManifest.mk.injEq, provenance_proto, and_true, true_and]

end

/-! ## A build system without a name -/

/-- Built by Mill, which has no constructor. -/
def millComponent : Component where
  id := ⟨"app"⟩
  name := "app"
  buildSystem := .other "mill"
  root := ⟨"."⟩
  languages := [.kotlin]
  configuration := ⟨"sha256:configuration"⟩

def millManifest : ProjectManifest :=
  ⟨⟨"workspace"⟩, ⟨"."⟩, [millComponent], [], ⟨"sha256:manifest"⟩, sampleProvenance⟩

theorem other_buildSystem_not_read_back :
    ¬ ∀ (data : Unicode.Data) (value : ProjectManifest),
      (∀ component ∈ value.components, (∀ name, component.buildSystem = .other name →
          name ∉ ["gradle", "maven", "cargo", "npm", "bazel", "filesystem"]) ∧
        ∀ language ∈ component.languages, language.Canonical) →
      decodeManifest (manifest data value) = .ok value := by
  intro h
  have hread := h Unicode.ascii millManifest (by
    intro component hcomponent
    obtain rfl := List.mem_singleton.1 hcomponent
    refine ⟨fun name hname => ?_, by decide⟩
    obtain rfl := BuildSystem.other.inj hname
    decide)
  exact absurd hread (by decide)

end WorkerAdapter

end Kide
