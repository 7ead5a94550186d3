import Kide.Index.FreshnessGate
import Kide.Lib.Bytes
import Kide.Lib.Paths

/-!
# Discovery

The generic inventory of a workspace (`discovery.rs`, `component_scope` and `component_context_fingerprint` of
`input_inventory.rs`): a walk of the tree, its configuration inputs, a component for each build file's directory and for the
root, and a source unit for each Kotlin or Java file.

* `Entry`, `Entries`: a workspace tree; `Walk`: what the walk collects of it.
* Paths below the root are `RelPath`s; `WorkspacePath`s are their texts.
* Errors of the file system are left out. `.kide/config.toml`, whose directory the walk leaves out, is beside the tree.
-/

namespace Kide.Discovery
open Paths Collects ByteStrings

/-! ## The tree -/

mutual

inductive Entry where
  | file (contents : Bytes)
  | symlink
  | directory (entries : Entries)

/-- The entries of a directory, one after the other. -/
inductive Entries where
  | nil
  | cons (name : FileName) (entry : Entry) (rest : Entries)

end

def Entries.names : Entries → List FileName
  | .nil => []
  | .cons name _ rest => name :: rest.names

mutual

/-- No directory has two entries of one name. -/
def Entry.Distinct : Entry → Prop
  | .directory entries => entries.Distinct
  | _ => True

def Entries.Distinct : Entries → Prop
  | .nil => True
  | .cons name entry rest => name ∉ rest.names ∧ entry.Distinct ∧ rest.Distinct

end

structure WorkspaceTree where
  entries : Entries
  distinct : entries.Distinct
  /-- What `.kide/config.toml` holds, if it is a file. -/
  kideConfig : Option Bytes

/-- A file with its contents. -/
structure WalkedFile where
  path : RelPath
  contents : Bytes
deriving DecidableEq, Repr

structure Walk where
  files : List WalkedFile := []
  skippedSymlinks : List RelPath := []

def EXCLUDED_DIRECTORIES : List String :=
  [".git", ".gradle", ".idea", ".kide", "build", "node_modules", "out", "target"]

mutual

def collectFiles (path : RelPath) : Entry → Walk
  | .file contents => { files := [⟨path, contents⟩] }
  | .symlink => { skippedSymlinks := [path] }
  | .directory entries => if (path.getLast?.map (·.asStr)).any (· ∈ EXCLUDED_DIRECTORIES) then {} else collectEntries path entries

def collectEntries (path : RelPath) : Entries → Walk
  | .nil => {}
  | .cons name entry rest =>
    let first := collectFiles (path ++ [name]) entry
    let others := collectEntries path rest
    ⟨first.files ++ others.files, first.skippedSymlinks ++ others.skippedSymlinks⟩

end

namespace Entries

def find (name : FileName) : Entries → Option Entry
  | .nil => none
  | .cons other entry rest => if other = name then some entry else rest.find name

/-- The directory at a path below. -/
def directory : Entries → RelPath → Option Entries
  | entries, [] => some entries
  | entries, name :: path =>
    match entries.find name with
    | some (.directory below) => below.directory path
    | _ => none

def hasRegularFile (name : FileName) (entries : Entries) : Bool :=
  match entries.find name with
  | some (.file _) => true
  | _ => false

end Entries

/-! ## Configuration inputs -/

def workspacePath (path : RelPath) : WorkspacePath := ⟨path.text⟩

def WalkedFile.le (a b : WalkedFile) : Prop := a.path.le b.path

instance : DecidableRel WalkedFile.le := fun a b => inferInstanceAs (Decidable (a.path.le b.path))

def KIDE_CONFIG : RelPath := [.of ".kide", .of "config.toml"]

def BUILD_GRADLE : FileName := .of "build.gradle"

namespace WorkspaceTree
variable (tree : WorkspaceTree)

def walk : Walk := collectEntries [] tree.entries

def files : List WalkedFile := tree.walk.files.insertionSort WalkedFile.le

def configurationPaths : List WalkedFile :=
  let inputs := tree.files.filter fun file => isConfigurationInput (workspacePath file.path)
  match tree.kideConfig with
  | some contents =>
    let kideConfig : WalkedFile := ⟨KIDE_CONFIG, contents⟩
    ((inputs ++ [kideConfig]).insertionSort WalkedFile.le).dedup
  | none => inputs

end WorkspaceTree

/-! ## Components -/

def COMPONENT_MARKERS : List String := ["build.gradle", "build.gradle.kts", "pom.xml", "Cargo.toml", "package.json"]

/-- The directories of the build files. -/
def componentRoots (configurationPaths : List RelPath) : List RelPath :=
  ((configurationPaths.filter fun path => (path.getLast?.map (·.asStr)).any (· ∈ COMPONENT_MARKERS)).map
    (·.dropLast)).dedup.insertionSort RelPath.le

/-- The same with the root of the workspace. -/
def discoveredRoots (configurationPaths : List RelPath) : List RelPath :=
  let roots := componentRoots configurationPaths
  ((if [] ∈ roots then roots else roots ++ [[]]).insertionSort RelPath.le).dedup

def buildSystemFor (tree : WorkspaceTree) (root : RelPath) : BuildSystem :=
  match tree.entries.directory root with
  | none => .filesystem
  | some entries =>
    if entries.hasRegularFile (.of "build.gradle") || entries.hasRegularFile (.of "build.gradle.kts") then .gradle
    else if entries.hasRegularFile (.of "pom.xml") then .maven
    else if entries.hasRegularFile (.of "Cargo.toml") then .cargo
    else if entries.hasRegularFile (.of "package.json") then .npm
    else .filesystem

def idPrefix : BuildSystem → String
  | .gradle => "gradle"
  | .maven => "maven"
  | .cargo => "cargo"
  | .npm => "npm"
  | .bazel => "bazel"
  | .filesystem => "filesystem"
  | .other _ => "filesystem"

def rootKey (root : WorkspacePath) : String := if root.asStr = "." then "root" else root.asStr

def componentId (buildSystem : BuildSystem) (root : WorkspacePath) : ComponentId :=
  ⟨idPrefix buildSystem ++ ":" ++ rootKey root ++ ":main"⟩

def makeComponent (buildSystem : BuildSystem) (root : RelPath) (configuration : Fingerprint) : Component where
  id := componentId buildSystem (workspacePath root)
  name := (rootKey (workspacePath root)).map fun c => if c = '/' then '-' else c
  buildSystem := buildSystem
  root := workspacePath root
  languages := [.kotlin, .java]
  configuration := configuration

/-- `path.starts_with(root.join(..))`, name by name. -/
def startsWith (path : RelPath) (root : WorkspacePath) : Bool := (Paths.components root.asStr).isPrefixOf path.names

/-- The components that an input can invalidate. -/
def scopeOf (components : List Component) (path : RelPath) : List Component :=
  if path.length = 1 ∨ path = KIDE_CONFIG then components
  else
    let deepest := ((components.filter fun component => startsWith path component.root).map
      fun component => component.root.asStr.utf8ByteSize).foldl max 0
    components.filter fun component => startsWith path component.root && component.root.asStr.utf8ByteSize = deepest

def componentScope (components : List Component) (path : RelPath) : List ComponentId := (scopeOf components path).map (·.id)

section
variable (sha256 : Bytes → String)

/-- The text that the context of a component is the digest of. -/
def contextInput (component : ComponentId) (inputs : List ConfigurationInput) : String :=
  (inputs.filter (component ∈ ·.components)).foldr
    (fun input rest => input.path.asStr ++ "\x00" ++ input.fingerprint.asStr ++ "\x00" ++ rest) ""

def componentContextFingerprint (component : ComponentId) (inputs : List ConfigurationInput) : Fingerprint :=
  fingerprintBytes sha256 (contextInput component inputs).toByteArray.data.toList

/-- The contents of the inputs, each after its path and its length. -/
def fingerprintFiles (files : List WalkedFile) : Fingerprint :=
  fingerprintBytes sha256 (files.flatMap fun file =>
    file.path.text.toByteArray.data.toList ++ [0] ++ (toLeBytes 8 file.contents.length).reverse ++ file.contents)

/-! ## Source units -/

/-- What follows the last dot, if a name stands before it. -/
def extension (name : String) : Option String :=
  let after := (name.toList.reverse.takeWhile (· ≠ '.')).reverse
  if after.length + 1 < name.toList.length then some (String.ofList after) else none

def languageFor (path : RelPath) : Option Language :=
  match path.getLast?.bind fun name => extension name.asStr with
  | some "kt" => some .kotlin
  | some "kts" => some .kotlin
  | some "java" => some .java
  | _ => none

def isGeneratedSource (path : RelPath) : Bool := path.any (·.asStr = "generated")

/-- The component of the deepest root that a file is below. -/
def sourceOwner (components : List Component) (roots : List RelPath) (path : RelPath) : Option Component :=
  let rootsAndComponents := (roots.filterMap fun root =>
    (components.find? (·.root = workspacePath root)).map fun component => (root, component)).insertionSort
      fun a b => b.1.length ≤ a.1.length
  match rootsAndComponents.find? fun entry => entry.1.isPrefixOf path with
  | some entry => some entry.2
  | none => components.find? (·.root.asStr = ".")

def sourceUnit (component : Component) (file : WalkedFile) (language : Language) : SourceUnit where
  id := ⟨component.id.asStr ++ ":" ++ file.path.text⟩
  component := component.id
  path := workspacePath file.path
  language := language
  origin := if isGeneratedSource file.path then .generated else .source
  content := fingerprintBytes sha256 file.contents
  context := component.configuration

/-- `none` is a failed `expect` of the root component. -/
def sourceUnits (files : List WalkedFile) (components : List Component) (roots : List RelPath) : Option (List SourceUnit) := do
  let _ ← components.find? (·.root.asStr = ".")
  let units := files.filterMap fun file => do
    guard ¬ isConfigurationInput (workspacePath file.path)
    let language ← languageFor file.path
    let component ← sourceOwner components roots file.path
    pure (sourceUnit sha256 component file language)
  pure (units.insertionSort fun a b => a.path.le b.path)

end

/-! ## Discovery -/

structure WorkspaceDiscovery where
  manifest : ProjectManifest
  sourceUnits : List SourceUnit
  configurationInputs : List WorkspacePath
  configurationInputRecords : List ConfigurationInput
  skippedSymlinks : List WorkspacePath

namespace WorkspaceTree
variable (sha256 : Bytes → String) (tree : WorkspaceTree)

def roots : List RelPath := discoveredRoots (tree.configurationPaths.map (·.path))

def workspaceConfiguration : Fingerprint := fingerprintFiles sha256 tree.configurationPaths

/-- The components before they have their own contexts. -/
def preliminaryComponents : List Component :=
  tree.roots.map fun root => makeComponent (buildSystemFor tree root) root (tree.workspaceConfiguration sha256)

def configurationInputRecords : List ConfigurationInput :=
  tree.configurationPaths.map fun file =>
    ⟨workspacePath file.path, fingerprintBytes sha256 file.contents,
      componentScope (tree.preliminaryComponents sha256) file.path⟩

def components : List Component :=
  (tree.preliminaryComponents sha256).map fun component =>
    { component with configuration := componentContextFingerprint sha256 component.id (tree.configurationInputRecords sha256) }

/-- `discover_workspace_with_source_fingerprints` in a workspace whose root is written `root`. -/
def discoverWorkspace (root backendVersion : String) : Option WorkspaceDiscovery := do
  let units ← Discovery.sourceUnits sha256 tree.files (tree.components sha256) tree.roots
  pure {
    manifest := {
      workspace := ⟨"filesystem:" ++ (fingerprintBytes sha256 root.toByteArray.data.toList).asStr⟩
      root := ⟨"."⟩
      components := tree.components sha256
      dependencies := []
      fingerprint := tree.workspaceConfiguration sha256
      provenance := ⟨"kide-filesystem-discovery", backendVersion, WORKER_PROTOCOL_VERSION, tree.workspaceConfiguration sha256⟩ }
    sourceUnits := units
    configurationInputs := tree.configurationPaths.map fun file => workspacePath file.path
    configurationInputRecords := tree.configurationInputRecords sha256
    skippedSymlinks := (tree.walk.skippedSymlinks.insertionSort RelPath.le).map workspacePath }

end WorkspaceTree

end Kide.Discovery
