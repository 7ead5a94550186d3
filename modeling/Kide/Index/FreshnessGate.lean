import Mathlib.Data.List.ReduceOption
import Kide.Lib.Sha256
import Kide.Proto.Artifact
import Kide.Store.Publication

/-!
# The freshness gate

`freshness_problem` of the semantic commands (`freshness_gate.rs`), with what it calls of `text_index.rs`, and the
configuration inputs of `discover_workspace`. The gate reads the files of the persisted inputs and of the owners it
finds in the payload: an input that was added is not among them, and an owner's file is read as a text document.

`freshnessProblem_exact_iff`: the states in which the gate lets through exactly the answers whose inputs are current.
-/

namespace Kide

open Collects Checks

/-! ## Files -/

def EFFECTIVE_CONFIG : WorkspacePath := ⟨".kide/effective-config"⟩

def CONFIG_TOML : WorkspacePath := ⟨".kide/config.toml"⟩

/-- The workspace as the file system shows it: what `fs::read` finds at a path, the files the discovery walk
collects, whether a path is a file, and the components whose scope a path is in. -/
structure WorkspaceFiles where
  read : WorkspacePath → Option Bytes
  walk : List WorkspacePath
  isFile : WorkspacePath → Bool
  componentScope : WorkspacePath → List ComponentId
  components : List ComponentId

def CONFIGURATION_FILE_NAMES : List String :=
  ["settings.gradle", "settings.gradle.kts", "build.gradle", "build.gradle.kts", "gradle.properties",
    "libs.versions.toml", "gradle.lockfile", "maven.config", "maven-wrapper.properties", "pom.xml", "Cargo.toml",
    "package.json", "package-lock.json", "npm-shrinkwrap.json", "pnpm-lock.yaml", "pnpm-workspace.yaml", "yarn.lock",
    ".yarnrc.yml", "bun.lock", "bun.lockb", ".npmrc"]

def CONFIGURATION_FILE_SUFFIXES : List String := [".lockfile"]

/-- What follows the last slash. -/
def fileName (path : WorkspacePath) : String :=
  String.ofList ((path.asStr.toList.reverse.takeWhile (· ≠ '/')).reverse)

def isConfigurationInput (path : WorkspacePath) : Bool :=
  fileName path ∈ CONFIGURATION_FILE_NAMES
    || path.asStr = "gradle/wrapper/gradle-wrapper.properties"
    || path.asStr = ".kide/config.toml"
    || CONFIGURATION_FILE_SUFFIXES.any fun suffix => suffix.toList.isSuffixOf (fileName path).toList

section
variable (sha256 : Bytes → String)

def fingerprintBytes (bytes : Bytes) : Fingerprint := ⟨"sha256:" ++ sha256 bytes⟩

/-- `fingerprint_file(..).ok()` -/
def fingerprintFile (files : WorkspaceFiles) (path : WorkspacePath) : Option Fingerprint :=
  (files.read path).map (fingerprintBytes sha256)

/-- The configuration files of the walk, and `.kide/config.toml`, whose directory the walk leaves out. -/
def configurationPaths (files : WorkspaceFiles) : List WorkspacePath :=
  let walked := files.walk.filter isConfigurationInput
  if files.isFile CONFIG_TOML then
    ((walked ++ [CONFIG_TOML]).insertionSort WorkspacePath.le).dedup
  else walked

/-- `configuration_input_records` of a discovery; `none` where a file cannot be read. -/
def configurationInputRecords (files : WorkspaceFiles) : Option (List ConfigurationInput) :=
  (configurationPaths files).mapM fun path =>
    (fingerprintFile sha256 files path).map fun fingerprint => ⟨path, fingerprint, files.componentScope path⟩

/-! ## Text documents -/

def MAX_TEXT_DOCUMENT_BYTES : Nat := 1048576

structure TextDocument where
  path : WorkspacePath
  content : String
  fingerprint : Fingerprint
deriving DecidableEq, Repr

inductive TextDocumentSkip where
  | oversized (bytes : Nat)
  | binary
  | invalidUtf8
deriving DecidableEq, Repr

def documentFromBytes (path : WorkspacePath) (bytes : Bytes) : Except TextDocumentSkip TextDocument :=
  if MAX_TEXT_DOCUMENT_BYTES < bytes.length then .error (.oversized bytes.length)
  else if 0 ∈ bytes then .error .binary
  else
    match String.fromUTF8? bytes.toByteArray with
    | none => .error .invalidUtf8
    | some content => .ok ⟨path, content, fingerprintBytes sha256 content.toByteArray.data.toList⟩

end

/-! ## Configuration and payloads -/

inductive FreshnessStrategy where
  | freshOnly | allowStale
deriving DecidableEq, Repr

/-- The effective configuration with its JSON form, which stands for the fields that only it reads. -/
structure EffectiveConfiguration where
  freshnessStrategy : FreshnessStrategy
  json : Bytes
deriving DecidableEq, Repr

def effectiveConfigurationInput (sha256 : Bytes → String) (configuration : EffectiveConfiguration)
    (components : List ComponentId) : ConfigurationInput :=
  ⟨EFFECTIVE_CONFIG, fingerprintBytes sha256 configuration.json, components⟩

/-- The answers of the commands. The results of `index` and `status` have no facts. -/
inductive QueryPayload where
  | index
  | status
  | symbols (symbols : List SymbolRecord)
  | selector (records : List SymbolRecord)
  | definition (symbol : SymbolRecord)
  | refs (references : List SourceOccurrence)
  | implementations (symbols : List SymbolRecord)
  | callers (calls : List SourceOccurrence)
  | typeAt (occurrence : SourceOccurrence) (ty : TypeRecord)
deriving DecidableEq, Repr

structure QueryProblem where
  code : String
  message : String
  retryable : Bool
deriving DecidableEq, Repr

/-! ## The gate -/

def staleSourceProblem : QueryProblem :=
  ⟨"stale_source_snapshot", "a source owning this result changed after indexing; run kide index", true⟩

def staleConfigurationInput : QueryProblem :=
  ⟨"stale_configuration_input",
    "a build or workspace configuration input changed after indexing; run kide index", true⟩

def missingWorkspaceManifest : QueryProblem :=
  ⟨"missing_workspace_manifest", "the index has no resolved workspace manifest; run kide index", true⟩

def staleEffectiveConfiguration : QueryProblem :=
  ⟨"stale_effective_configuration", "the effective KIDE configuration changed after indexing; run kide index", true⟩

/-- The owners the gate takes from a payload. -/
def ownerIds : QueryPayload → List SourceUnitId
  | .symbols symbols | .implementations symbols => symbols.map fun symbol => symbol.declaration.sourceUnit
  | .definition symbol => [symbol.declaration.sourceUnit]
  | .refs references => references.map fun reference => reference.range.sourceUnit
  | .callers calls => calls.map fun call => call.range.sourceUnit
  | .typeAt occurrence _ => [occurrence.range.sourceUnit]
  | _ => []

section
variable (sha256 : Bytes → String) (configuration : EffectiveConfiguration) (files : WorkspaceFiles) (store : IndexStore)

/-- `configuration_inputs`, `ORDER BY workspace_path` -/
def persistedInputs : List ConfigurationInput :=
  store.configurationInputs.insertionSort fun a b => a.path.le b.path

def configurationProblem : Option QueryProblem :=
  if (persistedInputs store).any fun input =>
      input.path ≠ EFFECTIVE_CONFIG ∧ fingerprintFile sha256 files input.path ≠ some input.fingerprint then
    some staleConfigurationInput
  else
    match (persistedInputs store).find? (·.path = EFFECTIVE_CONFIG) with
    | none => none
    | some persisted =>
      match store.latestManifest with
      | none => some missingWorkspaceManifest
      | some manifest =>
        let current := effectiveConfigurationInput sha256 configuration (manifest.components.map (·.id))
        if current.fingerprint ≠ persisted.fingerprint then some staleEffectiveConfiguration else none

/-- The file of an owner is a text document with the persisted fingerprint. -/
def sourceVerified (source : SourceUnit) : Bool :=
  match files.read source.path with
  | none => false
  | some bytes =>
    match documentFromBytes sha256 source.path bytes with
    | .error _ => false
    | .ok document => document.fingerprint = source.content

def owners (payload : QueryPayload) : List SourceUnit :=
  (((ownerIds payload).dedup.insertionSort SourceUnitId.le).map store.sourceUnit).reduceOption

def freshnessProblem (payload : QueryPayload) : Option QueryProblem :=
  if configuration.freshnessStrategy ≠ .freshOnly then none
  else
    match configurationProblem sha256 configuration files store with
    | some problem => some problem
    | none =>
      if (owners store payload).any fun source =>
          source.origin ≠ .dependency ∧ ¬ sourceVerified sha256 files source then
        some staleSourceProblem
      else none

/-! ## Fresh answers -/

/-- The owners of the facts of a payload. -/
def factOwners : QueryPayload → List SourceUnitId
  | .selector records => records.map fun symbol => symbol.declaration.sourceUnit
  | payload => ownerIds payload

/-- Every configuration input is current: none changed, missing or added. -/
def InputsCurrent : Prop :=
  ∃ records, configurationInputRecords sha256 files = some records ∧
    (store.configurationInputStatus (records ++ [effectiveConfigurationInput sha256 configuration files.components])).allCurrent

/-- The files of these owners that are no dependencies have the persisted content. -/
def OwnersUnchanged (ids : List SourceUnitId) : Prop :=
  ∀ id ∈ ids, ∀ source, store.sourceUnit id = some source → source.origin ≠ .dependency →
    fingerprintFile sha256 files source.path = some source.content

def Fresh (payload : QueryPayload) : Prop :=
  InputsCurrent sha256 configuration files store ∧ OwnersUnchanged sha256 files store (factOwners payload)

/-! ## What the gate tests -/

def PersistedUnchanged : Prop :=
  ∀ input ∈ store.configurationInputs,
    if input.path = EFFECTIVE_CONFIG then fingerprintBytes sha256 configuration.json = input.fingerprint
    else fingerprintFile sha256 files input.path = some input.fingerprint

/-- The inventory of today lists the persisted inputs, with the components they had, and no other. -/
def SameInventory : Prop :=
  ∃ records, configurationInputRecords sha256 files = some records ∧
    let current := records ++ [effectiveConfigurationInput sha256 configuration files.components]
    (∀ input ∈ current, input.path ∈ store.configurationInputs.map (·.path)) ∧
      ∀ input ∈ store.configurationInputs, ∃ next ∈ current, next.path = input.path ∧ next.components = input.components

def ManifestStored : Prop := EFFECTIVE_CONFIG ∈ store.configurationInputs.map (·.path) → store.latestManifest.isSome

/-- Indexing takes a file of any bytes. -/
def IsText (bytes : Bytes) : Prop :=
  bytes.length ≤ MAX_TEXT_DOCUMENT_BYTES ∧ 0 ∉ bytes ∧ bytes.toByteArray.IsValidUTF8

def OwnersText (ids : List SourceUnitId) : Prop :=
  ∀ id ∈ ids, ∀ source, store.sourceUnit id = some source → source.origin ≠ .dependency →
    ∀ bytes, files.read source.path = some bytes → IsText bytes

/-- The gate sees nothing wrong although an input was added, left the inventory or changed its components, or although
the facts are those of a selector, whose owners it does not look at. -/
def LetThrough (payload : QueryPayload) : Prop :=
  PersistedUnchanged sha256 configuration files store ∧ ManifestStored store ∧
    OwnersUnchanged sha256 files store (ownerIds payload) ∧ OwnersText files store (ownerIds payload) ∧
    ¬ (SameInventory sha256 configuration files store ∧ OwnersUnchanged sha256 files store (factOwners payload))

/-- Nothing changed, but an owner's file is too large, has a NUL or is no UTF-8, or there is no manifest. -/
def HeldBack (payload : QueryPayload) : Prop :=
  PersistedUnchanged sha256 configuration files store ∧ SameInventory sha256 configuration files store ∧
    OwnersUnchanged sha256 files store (factOwners payload) ∧
    ¬ (ManifestStored store ∧ OwnersText files store (ownerIds payload))

end

/-! ## The gate, branch by branch -/

section
variable {sha256 : Bytes → String} {configuration : EffectiveConfiguration} {files : WorkspaceFiles} {store : IndexStore}

theorem documentFromBytes_ok_iff {path : WorkspacePath} {bytes : Bytes} {document : TextDocument} :
    documentFromBytes sha256 path bytes = .ok document ↔ IsText bytes ∧ document.path = path ∧
      document.content.toByteArray = bytes.toByteArray ∧ document.fingerprint = fingerprintBytes sha256 bytes := by
  unfold documentFromBytes IsText
  by_cases hlarge : MAX_TEXT_DOCUMENT_BYTES < bytes.length
  · rw [if_pos hlarge]
    exact ⟨fun h => (by cases h), fun h => absurd h.1.1 (Nat.not_le.2 hlarge)⟩
  rw [if_neg hlarge]
  by_cases hnul : 0 ∈ bytes
  · rw [if_pos hnul]
    exact ⟨fun h => (by cases h), fun h => absurd hnul h.1.2.1⟩
  rw [if_neg hnul]
  by_cases hutf8 : bytes.toByteArray.IsValidUTF8
  · rw [show String.fromUTF8? bytes.toByteArray = some ⟨bytes.toByteArray, hutf8⟩ from dif_pos hutf8]
    show Except.ok (TextDocument.mk path ⟨bytes.toByteArray, hutf8⟩ (fingerprintBytes sha256 bytes.toByteArray.data.toList))
      = Except.ok document ↔ _
    rw [List.data_toByteArray, Except.ok.injEq]
    constructor
    · rintro rfl
      exact ⟨⟨Nat.not_lt.1 hlarge, hnul, hutf8⟩, rfl, rfl, rfl⟩
    · rintro ⟨-, hpath, hcontent, hfingerprint⟩
      obtain ⟨documentPath, content, fingerprint⟩ := document
      obtain rfl : documentPath = path := hpath
      obtain rfl : fingerprint = fingerprintBytes sha256 bytes := hfingerprint
      rw [TextDocument.mk.injEq]
      exact ⟨rfl, String.toByteArray_inj.1 hcontent.symm, rfl⟩
  · rw [show String.fromUTF8? bytes.toByteArray = none from dif_neg hutf8]
    exact ⟨fun h => (by cases h), fun h => absurd h.1.2.2 hutf8⟩

theorem sourceVerified_iff {source : SourceUnit} : sourceVerified sha256 files source = true ↔
    fingerprintFile sha256 files source.path = some source.content ∧
      ∀ bytes, files.read source.path = some bytes → IsText bytes := by
  unfold sourceVerified fingerprintFile
  cases hread : files.read source.path with
  | none => simp
  | some bytes =>
    simp only [Option.map_some, Option.some.injEq, forall_eq']
    cases hdocument : documentFromBytes sha256 source.path bytes with
    | error skip =>
      refine ⟨fun h => (by cases h), fun ⟨_, htext⟩ => ?_⟩
      have hok : documentFromBytes sha256 source.path bytes =
          .ok ⟨source.path, ⟨bytes.toByteArray, htext.2.2⟩, fingerprintBytes sha256 bytes⟩ :=
        documentFromBytes_ok_iff.2 ⟨htext, rfl, rfl, rfl⟩
      rw [hdocument] at hok
      cases hok
    | ok document =>
      obtain ⟨htext, -, -, hfingerprint⟩ := documentFromBytes_ok_iff.1 hdocument
      show decide (document.fingerprint = source.content) = true ↔ _
      rw [decide_eq_true_eq, hfingerprint]
      exact ⟨fun h => ⟨h, htext⟩, And.left⟩

theorem mem_owners {payload : QueryPayload} {source : SourceUnit} :
    source ∈ owners store payload ↔ ∃ id ∈ ownerIds payload, store.sourceUnit id = some source := by
  rw [owners, List.reduceOption_mem_iff, List.mem_map]
  simp only [List.mem_insertionSort, List.mem_dedup]

theorem ownersVerified_iff {payload : QueryPayload} :
    (∀ source ∈ owners store payload, source.origin ≠ .dependency → sourceVerified sha256 files source = true) ↔
      OwnersUnchanged sha256 files store (ownerIds payload) ∧ OwnersText files store (ownerIds payload) := by
  constructor
  · intro h
    have hverified : ∀ id ∈ ownerIds payload, ∀ source, store.sourceUnit id = some source →
        source.origin ≠ .dependency → sourceVerified sha256 files source = true :=
      fun id hid source hsource => h source (mem_owners.2 ⟨id, hid, hsource⟩)
    exact ⟨fun id hid source hsource horigin => (sourceVerified_iff.1 (hverified id hid source hsource horigin)).1,
      fun id hid source hsource horigin => (sourceVerified_iff.1 (hverified id hid source hsource horigin)).2⟩
  · rintro ⟨hunchanged, htext⟩ source hsource horigin
    obtain ⟨id, hid, hstored⟩ := mem_owners.1 hsource
    exact sourceVerified_iff.2 ⟨hunchanged id hid source hstored horigin, htext id hid source hstored horigin⟩

theorem mem_persistedInputs {input : ConfigurationInput} : input ∈ persistedInputs store ↔ input ∈ store.configurationInputs :=
  List.mem_insertionSort _

/-- The row of the effective configuration, the only one under its path. -/
theorem find?_persistedInputs (hkeys : (store.configurationInputs.map (·.path)).Nodup) {input : ConfigurationInput}
    (hmem : input ∈ store.configurationInputs) (hpath : input.path = EFFECTIVE_CONFIG) :
    (persistedInputs store).find? (·.path = EFFECTIVE_CONFIG) = some input := by
  have hsome : ((persistedInputs store).find? (·.path = EFFECTIVE_CONFIG)).isSome :=
    List.find?_isSome.2 ⟨input, mem_persistedInputs.2 hmem, decide_eq_true hpath⟩
  obtain ⟨found, hfound⟩ := Option.isSome_iff_exists.1 hsome
  have hfoundPath : found.path = EFFECTIVE_CONFIG := by simpa using List.find?_some hfound
  have hfoundMem := mem_persistedInputs.1 (List.mem_of_find?_eq_some hfound)
  rw [hfound, List.inj_on_of_nodup_map hkeys hfoundMem hmem (hfoundPath.trans hpath.symm)]

theorem configurationProblem_eq_none_iff (hkeys : (store.configurationInputs.map (·.path)).Nodup) :
    configurationProblem sha256 configuration files store = none ↔
      PersistedUnchanged sha256 configuration files store ∧ ManifestStored store := by
  unfold configurationProblem
  by_cases hany : (persistedInputs store).any (fun input =>
      input.path ≠ EFFECTIVE_CONFIG ∧ fingerprintFile sha256 files input.path ≠ some input.fingerprint) = true
  · rw [if_pos hany]
    refine ⟨fun h => (by cases h), fun ⟨hunchanged, _⟩ => ?_⟩
    obtain ⟨input, hinput, hstale⟩ := List.any_eq_true.1 hany
    obtain ⟨hpath, hstale⟩ := of_decide_eq_true hstale
    have hinput := hunchanged input (mem_persistedInputs.1 hinput)
    rw [if_neg hpath] at hinput
    exact absurd hinput hstale
  rw [if_neg hany]
  have hfiles : ∀ input ∈ store.configurationInputs, input.path ≠ EFFECTIVE_CONFIG →
      fingerprintFile sha256 files input.path = some input.fingerprint := by
    intro input hinput hpath
    by_contra hstale
    exact hany (List.any_eq_true.2 ⟨input, mem_persistedInputs.2 hinput, decide_eq_true ⟨hpath, hstale⟩⟩)
  by_cases hstored : EFFECTIVE_CONFIG ∈ store.configurationInputs.map (·.path)
  · obtain ⟨persisted, hpersisted, hpath⟩ := List.mem_map.1 hstored
    have hunchanged : PersistedUnchanged sha256 configuration files store ↔
        fingerprintBytes sha256 configuration.json = persisted.fingerprint := by
      constructor
      · intro h
        have := h persisted hpersisted
        rwa [if_pos hpath] at this
      · intro h input hinput
        by_cases heffective : input.path = EFFECTIVE_CONFIG
        · rw [if_pos heffective, List.inj_on_of_nodup_map hkeys hinput hpersisted (heffective.trans hpath.symm), h]
        · rw [if_neg heffective]
          exact hfiles input hinput heffective
    have hmanifest : ManifestStored store ↔ store.latestManifest.isSome := ⟨fun h => h hstored, fun h _ => h⟩
    rw [find?_persistedInputs hkeys hpersisted hpath, hunchanged, hmanifest]
    cases store.latestManifest with
    | none => simp
    | some manifest =>
      show (if fingerprintBytes sha256 configuration.json ≠ persisted.fingerprint then _ else none) = none ↔ _
      by_cases hsame : fingerprintBytes sha256 configuration.json = persisted.fingerprint <;> simp [hsame]
  · have hnone : (persistedInputs store).find? (·.path = EFFECTIVE_CONFIG) = none := by
      refine List.find?_eq_none.2 fun input hinput hpath => hstored ?_
      exact List.mem_map.2 ⟨input, mem_persistedInputs.1 hinput, of_decide_eq_true hpath⟩
    rw [hnone]
    refine ⟨fun _ => ⟨fun input hinput => ?_, fun h => absurd h hstored⟩, fun _ => rfl⟩
    have hpath : input.path ≠ EFFECTIVE_CONFIG := fun h => hstored (List.mem_map.2 ⟨input, hinput, h⟩)
    rw [if_neg hpath]
    exact hfiles input hinput hpath

theorem freshnessProblem_eq_none_iff (hkeys : (store.configurationInputs.map (·.path)).Nodup)
    (hstrategy : configuration.freshnessStrategy = .freshOnly) (payload : QueryPayload) :
    freshnessProblem sha256 configuration files store payload = none ↔
      (PersistedUnchanged sha256 configuration files store ∧ ManifestStored store) ∧
        OwnersUnchanged sha256 files store (ownerIds payload) ∧ OwnersText files store (ownerIds payload) := by
  unfold freshnessProblem
  rw [if_neg (not_not.2 hstrategy), ← configurationProblem_eq_none_iff hkeys, ← ownersVerified_iff]
  cases hproblem : configurationProblem sha256 configuration files store with
  | some problem => simp
  | none =>
    by_cases hany : (owners store payload).any (fun source =>
        source.origin ≠ .dependency ∧ ¬ sourceVerified sha256 files source) = true
    · obtain ⟨source, hsource, hstale⟩ := List.any_eq_true.1 hany
      obtain ⟨horigin, hstale⟩ := of_decide_eq_true hstale
      simp only [hany, if_true, true_and]
      exact ⟨fun h => (by cases h), fun h => absurd (h source hsource horigin) hstale⟩
    · simp only [hany, true_and]
      refine ⟨fun _ source hsource horigin => ?_, fun _ => rfl⟩
      by_contra hstale
      exact hany (List.any_eq_true.2 ⟨source, hsource, decide_eq_true ⟨horigin, hstale⟩⟩)

/-! ## The inventory of today -/

theorem configurationInputState_eq_current_iff {previous next : Option ConfigurationInput} :
    configurationInputState previous next = .current ↔ ∃ before ∈ previous, ∃ now ∈ next,
      before.fingerprint = now.fingerprint ∧ before.components = now.components := by
  cases previous with
  | none => simp [configurationInputState]
  | some before =>
    cases next with
    | none => simp [configurationInputState]
    | some now =>
      simp only [configurationInputState, Option.mem_def, Option.some.injEq, exists_eq_left']
      by_cases hchanged : before.fingerprint ≠ now.fingerprint ∨ before.components ≠ now.components
      · rw [if_pos hchanged]
        refine ⟨fun h => (by cases h), fun ⟨hfingerprint, hcomponents⟩ => ?_⟩
        exact absurd hchanged (not_or.2 ⟨not_not.2 hfingerprint, not_not.2 hcomponents⟩)
      · rw [if_neg hchanged]
        exact ⟨fun _ => by simpa only [not_or, not_not] using hchanged, fun _ => rfl⟩

theorem allCurrent_iff {persisted current : List ConfigurationInput} :
    (reconcileConfigurationInputs persisted current).allCurrent = true ↔
      ∀ path ∈ (persisted ++ current).map (·.path), ∃ before ∈ lastOf (·.path) persisted path,
        ∃ now ∈ lastOf (·.path) current path,
          before.fingerprint = now.fingerprint ∧ before.components = now.components := by
  unfold ConfigurationInputReconciliation.allCurrent reconcileConfigurationInputs
  simp only [List.all_map, List.all_eq_true, Function.comp_apply, decide_eq_true_eq,
    configurationInputState_eq_current_iff, mem_sortedKeys]

theorem isConfigurationInput_effective : isConfigurationInput EFFECTIVE_CONFIG = false := by decide

theorem mem_configurationPaths {path : WorkspacePath} (h : path ∈ configurationPaths files) :
    isConfigurationInput path = true := by
  unfold configurationPaths at h
  by_cases hfile : files.isFile CONFIG_TOML = true
  · simp only [hfile, if_true, List.mem_dedup, List.mem_insertionSort, List.mem_append, List.mem_singleton] at h
    rcases h with h | rfl
    · exact (List.mem_filter.1 h).2
    · decide
  · simp only [hfile] at h
    exact (List.mem_filter.1 h).2

/-- A record holds what its path says. -/
theorem mem_configurationInputRecords {records : List ConfigurationInput}
    (h : configurationInputRecords sha256 files = some records) {input : ConfigurationInput} (hinput : input ∈ records) :
    input.path ≠ EFFECTIVE_CONFIG ∧ fingerprintFile sha256 files input.path = some input.fingerprint ∧
      input.components = files.componentScope input.path := by
  obtain ⟨path, hpath, hrecord⟩ := forall₂_exists_mem (mapM_eq_some_iff.1 h).flip hinput
  obtain ⟨fingerprint, hfingerprint, rfl⟩ := Option.map_eq_some_iff.1 hrecord
  refine ⟨?_, hfingerprint, rfl⟩
  rintro rfl
  have := mem_configurationPaths hpath
  rw [isConfigurationInput_effective] at this
  cases this

/-- The inputs of today, and what each of them holds. -/
theorem mem_currentInputs {records : List ConfigurationInput}
    (h : configurationInputRecords sha256 files = some records) {input : ConfigurationInput}
    (hinput : input ∈ records ++ [effectiveConfigurationInput sha256 configuration files.components]) :
    (if input.path = EFFECTIVE_CONFIG then fingerprintBytes sha256 configuration.json = input.fingerprint
      else fingerprintFile sha256 files input.path = some input.fingerprint) ∧
    input.components = if input.path = EFFECTIVE_CONFIG then files.components else files.componentScope input.path := by
  rcases List.mem_append.1 hinput with hrecord | heffective
  · obtain ⟨hpath, hfingerprint, hcomponents⟩ := mem_configurationInputRecords h hrecord
    rw [if_neg hpath, if_neg hpath]
    exact ⟨hfingerprint, hcomponents⟩
  · obtain rfl := List.mem_singleton.1 heffective
    exact ⟨rfl, rfl⟩

/-- Two inputs of one path that hold what the workspace has there have one fingerprint. -/
theorem fingerprint_eq_of_path {a b : ConfigurationInput} (hpath : a.path = b.path)
    (ha : if a.path = EFFECTIVE_CONFIG then fingerprintBytes sha256 configuration.json = a.fingerprint
      else fingerprintFile sha256 files a.path = some a.fingerprint)
    (hb : if b.path = EFFECTIVE_CONFIG then fingerprintBytes sha256 configuration.json = b.fingerprint
      else fingerprintFile sha256 files b.path = some b.fingerprint) : a.fingerprint = b.fingerprint := by
  rw [hpath] at ha
  by_cases heffective : b.path = EFFECTIVE_CONFIG
  · rw [if_pos heffective] at ha hb
    exact ha.symm.trans hb
  · rw [if_neg heffective] at ha hb
    exact Option.some.inj (ha.symm.trans hb)

/-- Of the inputs of today any one of a path is the last. -/
theorem lastOf_currentInputs {records : List ConfigurationInput}
    (h : configurationInputRecords sha256 files = some records) {input : ConfigurationInput}
    (hinput : input ∈ records ++ [effectiveConfigurationInput sha256 configuration files.components]) :
    lastOf (·.path) (records ++ [effectiveConfigurationInput sha256 configuration files.components]) input.path =
      some input := by
  obtain ⟨last, hlast⟩ := Option.isSome_iff_exists.1 ((lastOf_isSome_iff (·.path)).2 (List.mem_map_of_mem hinput))
  obtain ⟨hmem, hpath⟩ := lastOf_some ConfigurationInput.path hlast
  have hpath : last.path = input.path := hpath
  obtain ⟨hlastFile, hlastComponents⟩ := mem_currentInputs h hmem
  obtain ⟨hfile, hcomponents⟩ := mem_currentInputs h hinput
  have hfingerprint := fingerprint_eq_of_path hpath hlastFile hfile
  rw [hpath, ← hcomponents] at hlastComponents
  rw [hlast]
  obtain ⟨lastPath, lastFingerprint, lastComponents⟩ := last
  obtain ⟨path, fingerprint, components⟩ := input
  simp only at hpath hfingerprint hlastComponents
  rw [hpath, hfingerprint, hlastComponents]

theorem inputsCurrent_iff (hkeys : (store.configurationInputs.map (·.path)).Nodup) :
    InputsCurrent sha256 configuration files store ↔
      PersistedUnchanged sha256 configuration files store ∧ SameInventory sha256 configuration files store := by
  unfold InputsCurrent IndexStore.configurationInputStatus
  constructor
  · rintro ⟨records, hrecords, hcurrent⟩
    rw [allCurrent_iff] at hcurrent
    have hinput : ∀ input ∈ store.configurationInputs,
        ∃ next ∈ records ++ [effectiveConfigurationInput sha256 configuration files.components],
          next.path = input.path ∧ next.fingerprint = input.fingerprint ∧ next.components = input.components := by
      intro input hinput
      obtain ⟨before, hbefore, now, hnow, hfingerprint, hcomponents⟩ :=
        hcurrent input.path (List.mem_map_of_mem (List.mem_append_left _ hinput))
      rw [Option.mem_def, (lastOf_eq_some_iff (·.path) hkeys).2 ⟨hinput, rfl⟩, Option.some.injEq] at hbefore
      obtain ⟨hmem, hpath⟩ := lastOf_some ConfigurationInput.path hnow
      exact ⟨now, hmem, hpath, hbefore ▸ hfingerprint.symm, hbefore ▸ hcomponents.symm⟩
    refine ⟨fun input hmem => ?_, records, hrecords, fun input hmem => ?_, fun input hmem => ?_⟩
    · obtain ⟨next, hnext, hpath, hfingerprint, -⟩ := hinput input hmem
      have hfile := (mem_currentInputs hrecords hnext).1
      rwa [hpath, hfingerprint] at hfile
    · obtain ⟨before, hbefore, -⟩ := hcurrent input.path (List.mem_map_of_mem (List.mem_append_right _ hmem))
      obtain ⟨hbefore, hpath⟩ := lastOf_some ConfigurationInput.path hbefore
      exact List.mem_map.2 ⟨before, hbefore, hpath⟩
    · obtain ⟨next, hnext, hpath, -, hcomponents⟩ := hinput input hmem
      exact ⟨next, hnext, hpath, hcomponents⟩
  · rintro ⟨hunchanged, records, hrecords, hlisted, hkept⟩
    refine ⟨records, hrecords, allCurrent_iff.2 fun path hpath => ?_⟩
    have hpersisted : path ∈ store.configurationInputs.map (·.path) := by
      rw [List.map_append, List.mem_append] at hpath
      rcases hpath with hpath | hpath
      · exact hpath
      · obtain ⟨input, hinput, rfl⟩ := List.mem_map.1 hpath
        exact hlisted input hinput
    obtain ⟨input, hinput, rfl⟩ := List.mem_map.1 hpersisted
    obtain ⟨next, hnext, hpath, hcomponents⟩ := hkept input hinput
    have hfingerprint := fingerprint_eq_of_path hpath (mem_currentInputs hrecords hnext).1 (hunchanged input hinput)
    refine ⟨input, (lastOf_eq_some_iff (·.path) hkeys).2 ⟨hinput, rfl⟩, next, ?_, hfingerprint.symm, hcomponents.symm⟩
    show lastOf (·.path) _ input.path = some next
    rw [← hpath]
    exact lastOf_currentInputs hrecords hnext

/-- The gate looks at no owner that has no fact. -/
theorem ownersUnchanged_of_facts {payload : QueryPayload} (h : OwnersUnchanged sha256 files store (factOwners payload)) :
    OwnersUnchanged sha256 files store (ownerIds payload) := by
  cases payload with
  | selector records => exact fun id hid => absurd hid List.not_mem_nil
  | _ => exact h

end

/-- **Freshness gate.** Under the fresh-only strategy the gate lets through exactly the fresh answers if and only if
the state is neither let through wrongly nor held back wrongly. -/
theorem freshnessProblem_exact_iff (sha256 : Bytes → String) (configuration : EffectiveConfiguration)
    (files : WorkspaceFiles) (store : IndexStore) (payload : QueryPayload)
    (hkeys : (store.configurationInputs.map (·.path)).Nodup)
    (hstrategy : configuration.freshnessStrategy = .freshOnly) :
    (freshnessProblem sha256 configuration files store payload = none ↔ Fresh sha256 configuration files store payload) ↔
      ¬ LetThrough sha256 configuration files store payload ∧ ¬ HeldBack sha256 configuration files store payload := by
  have howners : OwnersUnchanged sha256 files store (factOwners payload) →
      OwnersUnchanged sha256 files store (ownerIds payload) := ownersUnchanged_of_facts
  rw [freshnessProblem_eq_none_iff hkeys hstrategy, Fresh, inputsCurrent_iff hkeys]
  unfold LetThrough HeldBack
  tauto

/-! ## A build file that was added -/

def hexDigest (bytes : Bytes) : String :=
  String.ofList ((Sha256.digest bytes).flatMap fun byte =>
    [Nat.digitChar (byte.toNat / 16), Nat.digitChar (byte.toNat % 16)])

/-- `class Main` -/
def mainBytes : Bytes := [99, 108, 97, 115, 115, 32, 77, 97, 105, 110]

def mainSource : SourceUnit := sampleUnit "Main.kt" ("sha256:" ++ hexDigest mainBytes)

def freshOnlyConfiguration : EffectiveConfiguration := ⟨.freshOnly, [123, 125]⟩

/-- The index of a workspace with one source file and no build file. -/
def indexedMain : IndexStore where
  facts := (emptySnapshot mainSource).rows
  projectManifests := [⟨⟨"workspace"⟩, ⟨"."⟩, [], [], ⟨"sha256:manifest"⟩, sampleProvenance⟩]
  configurationInputs := [effectiveConfigurationInput hexDigest freshOnlyConfiguration []]

/-- The workspace as it was indexed. -/
def mainFiles : WorkspaceFiles where
  read := fun path => if path = mainSource.path then some mainBytes else none
  walk := [mainSource.path]
  isFile := fun path => path = mainSource.path
  componentScope := fun _ => []
  components := []

/-- The same workspace after a `pom.xml` was added. -/
def mainFilesWithPom : WorkspaceFiles :=
  { mainFiles with
    read := fun path => if path = ⟨"pom.xml"⟩ then some [] else mainFiles.read path
    walk := [⟨"pom.xml"⟩, mainSource.path] }

def mainSymbols : QueryPayload := .symbols [sampleSymbol mainSource "Main"]

theorem indexedMain_keys : (indexedMain.configurationInputs.map (·.path)).Nodup := List.nodup_singleton _

theorem indexedMain_sourceUnit {id : SourceUnitId} (hid : id ∈ ownerIds mainSymbols) {source : SourceUnit}
    (h : indexedMain.sourceUnit id = some source) : source = mainSource := by
  obtain rfl := List.mem_singleton.1 hid
  exact (Option.some.inj h).symm

theorem indexedMain_gate_passes {files : WorkspaceFiles} (hread : files.read mainSource.path = some mainBytes) :
    (PersistedUnchanged hexDigest freshOnlyConfiguration files indexedMain ∧ ManifestStored indexedMain) ∧
      OwnersUnchanged hexDigest files indexedMain (ownerIds mainSymbols) ∧
        OwnersText files indexedMain (ownerIds mainSymbols) := by
  refine ⟨⟨fun input hinput => ?_, fun _ => rfl⟩, fun id hid source hsource _ => ?_, fun id hid source hsource _ bytes hbytes => ?_⟩
  · obtain rfl := List.mem_singleton.1 hinput
    have hpath : (effectiveConfigurationInput hexDigest freshOnlyConfiguration []).path = EFFECTIVE_CONFIG := rfl
    rw [if_pos hpath]
    rfl
  · obtain rfl := indexedMain_sourceUnit hid hsource
    rw [fingerprintFile, hread]
    rfl
  · obtain rfl := indexedMain_sourceUnit hid hsource
    obtain rfl := Option.some.inj (hread.symm.trans hbytes)
    exact ⟨by decide, by decide, by decide⟩

theorem indexed_workspace_answered :
    (freshnessProblem hexDigest freshOnlyConfiguration mainFiles indexedMain mainSymbols = none ↔
      Fresh hexDigest freshOnlyConfiguration mainFiles indexedMain mainSymbols) := by
  obtain ⟨⟨-, hmanifest⟩, howners, htext⟩ := @indexedMain_gate_passes mainFiles rfl
  have hrecords : configurationInputRecords hexDigest mainFiles = some [] := rfl
  have hsame : SameInventory hexDigest freshOnlyConfiguration mainFiles indexedMain := by
    refine ⟨[], hrecords, fun input hinput => List.mem_map_of_mem hinput, fun input hinput => ⟨input, hinput, rfl, rfl⟩⟩
  exact (freshnessProblem_exact_iff hexDigest freshOnlyConfiguration mainFiles indexedMain mainSymbols indexedMain_keys rfl).2
    ⟨fun h => h.2.2.2.2 ⟨hsame, howners⟩, fun h => h.2.2.2 ⟨hmanifest, htext⟩⟩

theorem added_pom_unnoticed :
    ¬ ∀ (sha256 : Bytes → String) (configuration : EffectiveConfiguration) (files : WorkspaceFiles)
      (store : IndexStore) (payload : QueryPayload), (store.configurationInputs.map (·.path)).Nodup →
      configuration.freshnessStrategy = .freshOnly →
      (freshnessProblem sha256 configuration files store payload = none ↔
        Fresh sha256 configuration files store payload) := by
  intro h
  have hiff := h hexDigest freshOnlyConfiguration mainFilesWithPom indexedMain mainSymbols indexedMain_keys rfl
  have hpassed : freshnessProblem hexDigest freshOnlyConfiguration mainFilesWithPom indexedMain mainSymbols = none :=
    (freshnessProblem_eq_none_iff indexedMain_keys rfl mainSymbols).2 (indexedMain_gate_passes rfl)
  obtain ⟨-, records, hrecords, hlisted, -⟩ := (inputsCurrent_iff indexedMain_keys).1 (hiff.1 hpassed).1
  have hpom : configurationInputRecords hexDigest mainFilesWithPom =
      some [⟨⟨"pom.xml"⟩, fingerprintBytes hexDigest [], []⟩] := rfl
  obtain rfl := Option.some.inj (hpom.symm.trans hrecords)
  have hmem : (⟨"pom.xml"⟩ : WorkspacePath) ∈ indexedMain.configurationInputs.map (·.path) :=
    hlisted _ List.mem_cons_self
  obtain hpath := List.mem_singleton.1 hmem
  revert hpath
  decide

end Kide
