import Kide.Discovery.ComponentIds
import Kide.Lib.StampCache

/-!
# Source metadata

`index`, `status` and `plan` discover the workspace without reading a source again whose size and modification time are those of
the last run (`observe_source_file`, `index_with_source_metadata`, `plan_with_source_metadata`, `replace_source_file_metadata`).

* `Snapshot`: a workspace tree with the modification times of its files, as one command finds them;
* `Snapshot.assumed`: what a file held when the runs began to see its present size and time;
* `discovery_since`: the discovery after any history, and when it is the one that reads every file.
-/

namespace Kide.Discovery
open Paths Collects Checks

structure SourceFileMetadata where
  path : WorkspacePath
  byteSize : Nat
  modifiedNanos : Nat
  content : Fingerprint
deriving DecidableEq, Repr

/-- The modification times are in nanoseconds since the epoch, those before it are left out. -/
structure Snapshot where
  tree : WorkspaceTree
  modified : RelPath → Option Nat

inductive ObserveError where
  | beforeEpoch
  | outOfRange
deriving DecidableEq, Repr

/-! ## Discovery with any source fingerprints -/

structure SourceFile where
  file : WalkedFile
  language : Language
  component : Component

/-- What `source_units` goes through. -/
def sourceFiles (files : List WalkedFile) (components : List Component) (roots : List RelPath) : List SourceFile :=
  files.filterMap fun file => do
    guard ¬ isConfigurationInput (workspacePath file.path)
    let language ← languageFor file.path
    let component ← sourceOwner components roots file.path
    pure ⟨file, language, component⟩

def SourceFile.unit (source : SourceFile) (content : Fingerprint) : SourceUnit where
  id := ⟨source.component.id.asStr ++ ":" ++ source.file.path.text⟩
  component := source.component.id
  path := workspacePath source.file.path
  language := source.language
  origin := if isGeneratedSource source.file.path then .generated else .source
  content := content
  context := source.component.configuration

section
variable {σ ε : Type} (sourceFingerprint : WalkedFile → StateT σ (Except ε) Fingerprint)

/-- An error of the fingerprint comes with the path. -/
def fingerprintedUnit (source : SourceFile) : StateT σ (Except (RelPath × ε)) SourceUnit := fun state => do
  let (content, state) ← (sourceFingerprint source.file state).mapError fun error => (source.file.path, error)
  .ok (source.unit content, state)

/-- `source_units`. The `expect` of the root component is the `none` of `sourceUnits`. -/
def sourceUnitsWithSourceFingerprints (files : List WalkedFile) (components : List Component) (roots : List RelPath) :
    Option (StateT σ (Except (RelPath × ε)) (List SourceUnit)) := do
  let _ ← components.find? (·.root.asStr = ".")
  some do
    let units ← (sourceFiles files components roots).mapM (fingerprintedUnit sourceFingerprint)
    pure (units.insertionSort fun a b => a.path.le b.path)

namespace WorkspaceTree
variable (sha256 : Bytes → String) (tree : WorkspaceTree) (root backendVersion : String)

/-- The discovery with its source units. -/
def discovered (units : List SourceUnit) : WorkspaceDiscovery where
  manifest := {
    workspace := ⟨"filesystem:" ++ (fingerprintBytes sha256 root.toByteArray.data.toList).asStr⟩
    root := ⟨"."⟩
    components := tree.components sha256
    dependencies := []
    fingerprint := tree.workspaceConfiguration sha256
    provenance := ⟨"kide-filesystem-discovery", backendVersion, WORKER_PROTOCOL_VERSION, tree.workspaceConfiguration sha256⟩ }
  sourceUnits := units
  configurationInputs := tree.configurationPaths.map fun file => workspacePath file.path
  configurationInputRecords := tree.configurationInputRecords sha256
  skippedSymlinks := (tree.walk.skippedSymlinks.insertionSort RelPath.le).map workspacePath

def discoverWorkspaceWithSourceFingerprints : Option (StateT σ (Except (RelPath × ε)) WorkspaceDiscovery) := do
  let units ← sourceUnitsWithSourceFingerprints sourceFingerprint tree.files (tree.components sha256) tree.roots
  some do
    let units ← units
    pure (tree.discovered sha256 root backendVersion units)

/-- Its source files with their components. -/
def sources : List SourceFile := sourceFiles tree.files (tree.components sha256) tree.roots

end WorkspaceTree

end

/-! ## Observing -/

section
variable (sha256 : Bytes → String)

/-- The path below the workspace, written with slashes. -/
def metadataKey (path : RelPath) : WorkspacePath := ⟨path.text.map fun c => if c = '\\' then '/' else c⟩

def tryFrom (bits value : Nat) : Except ObserveError Nat := if value < 2 ^ (bits - 1) then .ok value else .error .outOfRange

/-- Size and time decide whether the fingerprint of the last run is taken. -/
def observeSourceFile (modified : RelPath → Option Nat) (cached : List SourceFileMetadata) (file : WalkedFile) :
    Except ObserveError SourceFileMetadata := do
  let key := metadataKey file.path
  let modifiedNanos ← (modified file.path).elim (.error .beforeEpoch) .ok
  let modifiedNanos ← tryFrom 128 modifiedNanos
  let byteSize ← tryFrom 64 file.contents.length
  let previous := (lastOf (·.path) cached key).filter fun previous =>
    previous.byteSize = byteSize && previous.modifiedNanos = modifiedNanos
  let content :=
    match previous with
    | some previous => previous.content
    | none => fingerprintBytes sha256 file.contents
  .ok ⟨key, byteSize, modifiedNanos, content⟩

/-! ## The commands -/

inductive Command where
  /-- What the rest of `index` makes of the discovery. -/
  | index (publishes : WorkspaceDiscovery → Bool)
  | status
  | plan

structure Visit where
  snapshot : Snapshot
  root : String
  backendVersion : String
  command : Command

/-- The rows of `source_file_metadata`, and the snapshots that they were written of, the last one first. -/
structure MetadataTable where
  rows : List SourceFileMetadata := []
  recorded : List Snapshot := []

/-- `SELECT .. ORDER BY workspace_path` -/
def MetadataTable.sourceFileMetadata (table : MetadataTable) : List SourceFileMetadata :=
  table.rows.insertionSort fun a b => a.path.le b.path

/-- A path that comes twice violates the primary key, and the transaction leaves the rows as they were. -/
def MetadataTable.replaceSourceFileMetadata (table : MetadataTable) (snapshot : Snapshot) (current : List SourceFileMetadata) :
    Option MetadataTable :=
  if (current.map (·.path)).Nodup then some ⟨current, snapshot :: table.recorded⟩ else none

/-- The closure of `index`, which keeps what it observes. -/
def recordingFingerprint (modified : RelPath → Option Nat) (cached : List SourceFileMetadata) (file : WalkedFile) :
    StateT (List SourceFileMetadata) (Except ObserveError) Fingerprint := do
  let observation ← observeSourceFile sha256 modified cached file
  modify (· ++ [observation])
  pure observation.content

/-- The closure of `status` and `plan`. -/
def observedFingerprint (modified : RelPath → Option Nat) (cached : List SourceFileMetadata) (file : WalkedFile) :
    StateT Unit (Except ObserveError) Fingerprint := do
  let observation ← observeSourceFile sha256 modified cached file
  pure observation.content

/-- The discovery of `index`, with what it observed. -/
def discoverRecording (table : MetadataTable) (snapshot : Snapshot) (root backendVersion : String) :
    Option (Except (RelPath × ObserveError) (WorkspaceDiscovery × List SourceFileMetadata)) := do
  let discovery ← snapshot.tree.discoverWorkspaceWithSourceFingerprints
    (recordingFingerprint sha256 snapshot.modified table.sourceFileMetadata) sha256 root backendVersion
  some (discovery [])

def discoverObserved (table : MetadataTable) (snapshot : Snapshot) (root backendVersion : String) :
    Option (Except (RelPath × ObserveError) WorkspaceDiscovery) := do
  let discovery ← snapshot.tree.discoverWorkspaceWithSourceFingerprints
    (observedFingerprint sha256 snapshot.modified table.sourceFileMetadata) sha256 root backendVersion
  some ((discovery ()).map Prod.fst)

/-- What a command discovers. -/
def discoverFor (table : MetadataTable) (visit : Visit) : Option (Except (RelPath × ObserveError) WorkspaceDiscovery) :=
  match visit.command with
  | .index _ => (discoverRecording sha256 table visit.snapshot visit.root visit.backendVersion).map fun found => found.map Prod.fst
  | .status | .plan => discoverObserved sha256 table visit.snapshot visit.root visit.backendVersion

/-- `index` replaces the rows once everything else is published. -/
def afterVisit (table : MetadataTable) (visit : Visit) : MetadataTable :=
  match visit.command with
  | .index publishes =>
    match discoverRecording sha256 table visit.snapshot visit.root visit.backendVersion with
    | some (.ok (discovery, observed)) =>
      if publishes discovery then (table.replaceSourceFileMetadata visit.snapshot observed).getD table else table
    | _ => table
  | .status | .plan => table

def afterVisits (visits : List Visit) : MetadataTable := visits.foldl (afterVisit sha256) {}

end

/-! ## What a file held first -/

/-- What `source_units` fingerprints. -/
def isSource (file : WalkedFile) : Bool := ¬ isConfigurationInput (workspacePath file.path) && (languageFor file.path).isSome

def WorkspaceTree.sourceContents (tree : WorkspaceTree) : List WalkedFile := tree.files.filter isSource

namespace Snapshot

/-- The size and the time of a file, where they are numbers of their types. -/
def stamp (snapshot : Snapshot) (file : WalkedFile) : Option (Nat × Nat) := do
  let modifiedNanos ← snapshot.modified file.path
  if modifiedNanos < 2 ^ 127 ∧ file.contents.length < 2 ^ 63 then some (file.contents.length, modifiedNanos) else none

def sight (snapshot : Snapshot) (file : WalkedFile) : Option (StampCache.Sight WorkspacePath (Nat × Nat) Bytes) :=
  (snapshot.stamp file).map fun stamp => ⟨metadataKey file.path, stamp, file.contents⟩

/-- The sources as `index` sees them. -/
def sights (snapshot : Snapshot) : List (StampCache.Sight WorkspacePath (Nat × Nat) Bytes) :=
  snapshot.tree.sourceContents.filterMap snapshot.sight

/-- What a file is taken to hold: what it held when the recorded runs began to see it as it is seen now. -/
def assumed (snapshot : Snapshot) (recorded : List Snapshot) (file : WalkedFile) : Bytes :=
  ((snapshot.stamp file).bind (StampCache.first (recorded.map sights) (metadataKey file.path))).getD file.contents

end Snapshot

/-- The discovery with fingerprints of other contents. -/
def WorkspaceTree.discoveredAs (sha256 : Bytes → String) (tree : WorkspaceTree) (root backendVersion : String)
    (contents : WalkedFile → Bytes) : WorkspaceDiscovery :=
  tree.discovered sha256 root backendVersion
    (((tree.sources sha256).map fun source => source.unit (fingerprintBytes sha256 (contents source.file))).insertionSort
      fun a b => a.path.le b.path)

/-! ## Discovering -/

section
variable {sha256 : Bytes → String} {tree : WorkspaceTree}

theorem owner_found (path : RelPath) : ∃ component, sourceOwner (tree.components sha256) tree.roots path = some component := by
  obtain ⟨root, hroot, hdeepest⟩ := @exists_deepest tree.roots path root_mem
  rw [components_eq]
  exact ⟨_, sourceOwner_eq hroot hdeepest⟩

theorem sources_files : (tree.sources sha256).map (·.file) = tree.sourceContents := by
  unfold WorkspaceTree.sources sourceFiles WorkspaceTree.sourceContents
  rw [List.map_filterMap, ← List.filterMap_eq_filter]
  refine List.filterMap_congr fun file _ => ?_
  obtain ⟨component, hcomponent⟩ := @owner_found sha256 tree file.path
  rw [hcomponent]
  cases hconfiguration : isConfigurationInput (workspacePath file.path) with
  | true => simp [isSource, hconfiguration, Option.guard]
  | false => cases hlanguage : languageFor file.path <;> simp [isSource, hconfiguration, hlanguage, Option.guard]

/-- Discovery that reads every file. -/
theorem discoverWorkspace_eq (root backendVersion : String) :
    tree.discoverWorkspace sha256 root backendVersion = some (tree.discoveredAs sha256 root backendVersion (·.contents)) := by
  obtain ⟨component, hfind⟩ := @root_component sha256 tree
  have hunits : tree.files.filterMap (unitOf sha256 tree) =
      (tree.sources sha256).map fun source => source.unit (fingerprintBytes sha256 source.file.contents) := by
    unfold WorkspaceTree.sources sourceFiles
    rw [List.map_filterMap]
    refine List.filterMap_congr fun file _ => ?_
    unfold unitOf
    cases isConfigurationInput (workspacePath file.path) with
    | true => simp
    | false =>
      cases languageFor file.path with
      | none => simp
      | some language => cases sourceOwner (tree.components sha256) tree.roots file.path <;> rfl
  unfold WorkspaceTree.discoveredAs
  rw [← hunits]
  unfold WorkspaceTree.discoverWorkspace sourceUnits
  rw [hfind]
  rfl

/-- Contents of the same fingerprints. -/
theorem discoveredAs_eq_iff {root backendVersion : String} {contents others : WalkedFile → Bytes} :
    tree.discoveredAs sha256 root backendVersion contents = tree.discoveredAs sha256 root backendVersion others ↔
      ∀ file ∈ tree.sourceContents, fingerprintBytes sha256 (contents file) = fingerprintBytes sha256 (others file) := by
  -- the order is that of the paths, whatever the contents are
  have hsorted : ∀ contents : WalkedFile → Bytes,
      ((tree.sources sha256).map fun source => source.unit (fingerprintBytes sha256 (contents source.file))).insertionSort
          (fun a b => a.path.le b.path) =
        ((tree.sources sha256).insertionSort fun a b => (workspacePath a.file.path).le (workspacePath b.file.path)).map
          fun source => source.unit (fingerprintBytes sha256 (contents source.file)) :=
    fun contents => (List.map_insertionSort (fun a b : SourceFile => (workspacePath a.file.path).le (workspacePath b.file.path))
      (fun a b : SourceUnit => a.path.le b.path) (fun source => source.unit (fingerprintBytes sha256 (contents source.file)))
      (tree.sources sha256) fun _ _ _ _ => Iff.rfl).symm
  have hunits : tree.discoveredAs sha256 root backendVersion contents = tree.discoveredAs sha256 root backendVersion others ↔
      ∀ source ∈ tree.sources sha256,
        source.unit (fingerprintBytes sha256 (contents source.file)) = source.unit (fingerprintBytes sha256 (others source.file)) := by
    unfold WorkspaceTree.discoveredAs
    rw [hsorted, hsorted]
    constructor
    · intro h source hsource
      have hlists := congrArg WorkspaceDiscovery.sourceUnits h
      exact List.map_inj_left.1 hlists source ((List.mem_insertionSort _).2 hsource)
    · intro h
      rw [List.map_congr_left fun source hsource => h source ((List.mem_insertionSort _).1 hsource)]
  rw [hunits, ← @sources_files sha256, List.forall_mem_map]
  refine forall₂_congr fun source _ => ⟨congrArg SourceUnit.content, fun h => by rw [h]⟩

end

/-! ## Observations -/

section
variable {sha256 : Bytes → String}

def SourceFileMetadata.row (metadata : SourceFileMetadata) : StampCache.Row WorkspacePath (Nat × Nat) Fingerprint :=
  ⟨metadata.path, (metadata.byteSize, metadata.modifiedNanos), metadata.content⟩

/-- What is written for a file with a stamp. -/
def Snapshot.observation (sha256 : Bytes → String) (snapshot : Snapshot) (cached : List SourceFileMetadata) (file : WalkedFile) :
    SourceFileMetadata :=
  let stamp := (snapshot.stamp file).getD (0, 0)
  ⟨metadataKey file.path, stamp.1, stamp.2,
    (StampCache.lookup (cached.map SourceFileMetadata.row) (metadataKey file.path) stamp).getD (fingerprintBytes sha256 file.contents)⟩

theorem lookup_row (cached : List SourceFileMetadata) (key : WorkspacePath) (byteSize modifiedNanos : Nat) :
    StampCache.lookup (cached.map SourceFileMetadata.row) key (byteSize, modifiedNanos) =
      ((lastOf (·.path) cached key).filter fun previous =>
        previous.byteSize = byteSize && previous.modifiedNanos = modifiedNanos).map (·.content) := by
  have hkey : (fun metadata : SourceFileMetadata => metadata.row.key) = (·.path) := rfl
  rw [StampCache.lookup, lastOf_map, hkey]
  cases lastOf (·.path) cached key with
  | none => rfl
  | some previous =>
    have hstamp : decide (previous.row.stamp = (byteSize, modifiedNanos)) =
        (previous.byteSize = byteSize && previous.modifiedNanos = modifiedNanos : Bool) := by
      rw [Bool.eq_iff_iff]
      simp [SourceFileMetadata.row]
    rw [Option.map_some, Option.filter_some, Option.filter_some, hstamp]
    split <;> rfl

theorem stamp_eq (snapshot : Snapshot) (file : WalkedFile) :
    snapshot.stamp file = (snapshot.modified file.path).bind fun modifiedNanos =>
      if modifiedNanos < 2 ^ 127 ∧ file.contents.length < 2 ^ 63 then some (file.contents.length, modifiedNanos) else none := rfl

theorem observeSourceFile_eq_ok_iff (snapshot : Snapshot) (cached : List SourceFileMetadata) (file : WalkedFile)
    (observed : SourceFileMetadata) :
    observeSourceFile sha256 snapshot.modified cached file = .ok observed ↔
      (snapshot.stamp file).isSome ∧ snapshot.observation sha256 cached file = observed := by
  unfold observeSourceFile Snapshot.observation
  rw [stamp_eq]
  cases snapshot.modified file.path with
  | none => simp [Except.bind, bind]
  | some modifiedNanos =>
    rw [Option.bind_some]
    dsimp only [Option.elim_some]
    rw [ok_bind]
    unfold tryFrom
    by_cases hstamp : modifiedNanos < 2 ^ 127 ∧ file.contents.length < 2 ^ 63
    · rw [if_pos hstamp.1, ok_bind, if_pos hstamp.2, ok_bind, if_pos hstamp, Option.getD_some]
      dsimp only
      rw [lookup_row, Option.isSome_some, and_iff_right rfl, Except.ok.injEq]
      cases (lastOf (·.path) cached (metadataKey file.path)).filter fun previous =>
        previous.byteSize = file.contents.length && previous.modifiedNanos = modifiedNanos <;> rfl
    · rw [if_neg hstamp]
      refine iff_of_false (fun h => ?_) fun h => absurd h.1 (by decide)
      obtain ⟨_, hmodified, h⟩ := bind_eq_ok_iff.1 h
      obtain ⟨_, hsize, -⟩ := bind_eq_ok_iff.1 h
      split at hmodified
      · split at hsize
        · next hm hs => exact hstamp ⟨hm, hs⟩
        · cases hsize
      · cases hmodified

/-! ## What a command discovers -/

theorem fingerprintedUnit_recording (snapshot : Snapshot) (cached : List SourceFileMetadata) (source : SourceFile)
    (log : List SourceFileMetadata) :
    fingerprintedUnit (recordingFingerprint sha256 snapshot.modified cached) source log =
      ((observeSourceFile sha256 snapshot.modified cached source.file).mapError fun error => (source.file.path, error)).map
        fun observed => (source.unit observed.content, log ++ [observed]) := by
  have hclosure : recordingFingerprint sha256 snapshot.modified cached source.file log =
      (observeSourceFile sha256 snapshot.modified cached source.file).map fun observed => (observed.content, log ++ [observed]) := by
    unfold recordingFingerprint
    cases observeSourceFile sha256 snapshot.modified cached source.file <;> rfl
  unfold fingerprintedUnit
  rw [hclosure]
  cases observeSourceFile sha256 snapshot.modified cached source.file <;> rfl

theorem fingerprintedUnit_observed (snapshot : Snapshot) (cached : List SourceFileMetadata) (source : SourceFile) (state : Unit) :
    fingerprintedUnit (observedFingerprint sha256 snapshot.modified cached) source state =
      ((observeSourceFile sha256 snapshot.modified cached source.file).mapError fun error => (source.file.path, error)).map
        fun observed => (source.unit observed.content, ()) := by
  have hclosure : observedFingerprint sha256 snapshot.modified cached source.file state =
      (observeSourceFile sha256 snapshot.modified cached source.file).map fun observed => (observed.content, ()) := by
    unfold observedFingerprint
    cases observeSourceFile sha256 snapshot.modified cached source.file <;> rfl
  unfold fingerprintedUnit
  rw [hclosure]
  cases observeSourceFile sha256 snapshot.modified cached source.file <;> rfl

/-- What is observed of the sources, in the order of the walk. -/
def Snapshot.observe (sha256 : Bytes → String) (snapshot : Snapshot) (cached : List SourceFileMetadata) :
    Except (RelPath × ObserveError) (List SourceFileMetadata) :=
  (snapshot.tree.sources sha256).mapM fun source =>
    (observeSourceFile sha256 snapshot.modified cached source.file).mapError fun error => (source.file.path, error)

/-- The discovery with what is observed. -/
def Snapshot.discoveredWith (sha256 : Bytes → String) (snapshot : Snapshot) (root backendVersion : String)
    (observed : List SourceFileMetadata) : WorkspaceDiscovery :=
  snapshot.tree.discovered sha256 root backendVersion
    ((List.zipWith (fun source observed => SourceFile.unit source observed.content) (snapshot.tree.sources sha256) observed).insertionSort
      fun a b => a.path.le b.path)

/-- A closure that observes, and does something with what it observes. -/
theorem discoverWith_eq {σ : Type} {sourceFingerprint : WalkedFile → StateT σ (Except ObserveError) Fingerprint}
    {push : σ → SourceFileMetadata → σ} {snapshot : Snapshot} {cached : List SourceFileMetadata} {root backendVersion : String}
    (hclosure : ∀ source state, fingerprintedUnit sourceFingerprint source state =
      ((observeSourceFile sha256 snapshot.modified cached source.file).mapError fun error => (source.file.path, error)).map
        fun observed => (source.unit observed.content, push state observed)) (state : σ) :
    (snapshot.tree.discoverWorkspaceWithSourceFingerprints sourceFingerprint sha256 root backendVersion).map (· state) =
      some ((snapshot.observe sha256 cached).map fun observed =>
        (snapshot.discoveredWith sha256 root backendVersion observed, observed.foldl push state)) := by
  obtain ⟨component, hfind⟩ := @root_component sha256 snapshot.tree
  have hunits := mapM_threaded hclosure (snapshot.tree.sources sha256) state
  unfold WorkspaceTree.discoverWorkspaceWithSourceFingerprints sourceUnitsWithSourceFingerprints
  rw [hfind]
  change some (((snapshot.tree.sources sha256).mapM (fingerprintedUnit sourceFingerprint) state >>= fun units =>
    Except.ok (units.1.insertionSort fun a b => a.path.le b.path, units.2)) >>= fun units =>
      Except.ok (snapshot.tree.discovered sha256 root backendVersion units.1, units.2)) = _
  rw [hunits]
  unfold Snapshot.observe Snapshot.discoveredWith
  cases (snapshot.tree.sources sha256).mapM fun source =>
    (observeSourceFile sha256 snapshot.modified cached source.file).mapError fun error => (source.file.path, error) <;> rfl

theorem foldl_concat (observed log : List SourceFileMetadata) : observed.foldl (fun log one => log ++ [one]) log = log ++ observed := by
  induction observed generalizing log with
  | nil => exact (List.append_nil log).symm
  | cons one observed ih => exact (ih (log ++ [one])).trans (List.append_assoc log [one] observed)

theorem discoverRecording_eq (table : MetadataTable) (snapshot : Snapshot) (root backendVersion : String) :
    discoverRecording sha256 table snapshot root backendVersion =
      some ((snapshot.observe sha256 table.sourceFileMetadata).map fun observed =>
        (snapshot.discoveredWith sha256 root backendVersion observed, observed)) := by
  have hfound := @discoverWith_eq sha256 _ _ _ snapshot table.sourceFileMetadata root backendVersion
    (@fingerprintedUnit_recording sha256 snapshot table.sourceFileMetadata) []
  rw [Option.map_eq_bind] at hfound
  refine hfound.trans ?_
  simp only [foldl_concat, List.nil_append]

theorem discoverObserved_eq (table : MetadataTable) (snapshot : Snapshot) (root backendVersion : String) :
    discoverObserved sha256 table snapshot root backendVersion =
      some ((snapshot.observe sha256 table.sourceFileMetadata).map (snapshot.discoveredWith sha256 root backendVersion)) := by
  have hfound := @discoverWith_eq sha256 Unit _ (fun _ _ => ()) snapshot table.sourceFileMetadata root backendVersion
    (@fingerprintedUnit_observed sha256 snapshot table.sourceFileMetadata) ()
  have hmap : discoverObserved sha256 table snapshot root backendVersion =
      ((snapshot.tree.discoverWorkspaceWithSourceFingerprints
        (observedFingerprint sha256 snapshot.modified table.sourceFileMetadata) sha256 root backendVersion).map (· ())).map
          (Except.map Prod.fst) := by
    rw [Option.map_map, Option.map_eq_bind]
    rfl
  rw [hmap, hfound, Option.map_some]
  cases snapshot.observe sha256 table.sourceFileMetadata <;> rfl

/-- Whatever the command, its discovery is the one of what it observes. -/
theorem discoverFor_eq (table : MetadataTable) (visit : Visit) :
    discoverFor sha256 table visit =
      some ((visit.snapshot.observe sha256 table.sourceFileMetadata).map
        (visit.snapshot.discoveredWith sha256 visit.root visit.backendVersion)) := by
  unfold discoverFor
  cases visit.command with
  | index publishes =>
    dsimp only
    rw [discoverRecording_eq, Option.map_some]
    cases visit.snapshot.observe sha256 table.sourceFileMetadata <;> rfl
  | status => exact discoverObserved_eq table visit.snapshot visit.root visit.backendVersion
  | plan => exact discoverObserved_eq table visit.snapshot visit.root visit.backendVersion

/-- The files can be observed. -/
def Snapshot.Stamped (snapshot : Snapshot) : Prop := ∀ file ∈ snapshot.tree.sourceContents, (snapshot.stamp file).isSome

theorem observe_eq_ok_iff {snapshot : Snapshot} {cached observed : List SourceFileMetadata} :
    snapshot.observe sha256 cached = .ok observed ↔
      snapshot.Stamped ∧ snapshot.tree.sourceContents.map (snapshot.observation sha256 cached) = observed := by
  unfold Snapshot.observe
  rw [mapM_eq_ok_checked_iff (p := fun source => (snapshot.stamp source.file).isSome)
    (g := fun source => snapshot.observation sha256 cached source.file)]
  · unfold Snapshot.Stamped
    rw [← @sources_files sha256, List.forall_mem_map, List.map_map]
    rfl
  · exact fun source observed => mapError_eq_ok_iff.trans (observeSourceFile_eq_ok_iff snapshot cached source.file observed)

/-! ## The rows -/

/-- The rows have distinct keys, and the fingerprints of what was there first. -/
structure MetadataTable.Faithful (sha256 : Bytes → String) (table : MetadataTable) : Prop where
  keys : (table.rows.map (·.path)).Nodup
  represents : StampCache.Represents (fingerprintBytes sha256) (table.rows.map SourceFileMetadata.row)
    (table.recorded.map Snapshot.sights)

theorem faithful_empty : MetadataTable.Faithful sha256 {} where
  keys := List.nodup_nil
  represents := StampCache.represents_nil

/-- Rows are read in order, which makes no difference. -/
theorem MetadataTable.Faithful.sorted {table : MetadataTable} (h : table.Faithful sha256) :
    StampCache.Represents (fingerprintBytes sha256) (table.sourceFileMetadata.map SourceFileMetadata.row)
      (table.recorded.map Snapshot.sights) := by
  have hperm : (table.sourceFileMetadata.map SourceFileMetadata.row).Perm (table.rows.map SourceFileMetadata.row) :=
    (List.perm_insertionSort _ _).map _
  have hkeys : ((table.rows.map SourceFileMetadata.row).map StampCache.Row.key).Nodup := by
    rw [List.map_map]
    exact h.keys
  intro key stamp
  rw [← h.represents key stamp]
  unfold StampCache.lookup
  rw [lastOf_perm StampCache.Row.key hkeys hperm.symm]

theorem observation_row {snapshot : Snapshot} {cached : List SourceFileMetadata} {file : WalkedFile} {stamp : Nat × Nat}
    (hstamp : snapshot.stamp file = some stamp) :
    (snapshot.observation sha256 cached file).row =
      StampCache.refresh (fingerprintBytes sha256) (cached.map SourceFileMetadata.row) ⟨metadataKey file.path, stamp, file.contents⟩ := by
  unfold Snapshot.observation StampCache.refresh SourceFileMetadata.row
  rw [hstamp]
  rfl

theorem MetadataTable.Faithful.content {table : MetadataTable} (h : table.Faithful sha256) {snapshot : Snapshot} {file : WalkedFile}
    (hstamp : (snapshot.stamp file).isSome) :
    (snapshot.observation sha256 table.sourceFileMetadata file).content =
      fingerprintBytes sha256 (snapshot.assumed table.recorded file) := by
  obtain ⟨stamp, hstamp⟩ := Option.isSome_iff_exists.1 hstamp
  have hrow := congrArg StampCache.Row.digest (@observation_row sha256 snapshot table.sourceFileMetadata file stamp hstamp)
  refine hrow.trans ?_
  unfold StampCache.refresh Snapshot.assumed
  rw [hstamp, Option.bind_some]
  dsimp only
  rw [h.sorted]
  cases StampCache.first (table.recorded.map Snapshot.sights) (metadataKey file.path) stamp <;> rfl

theorem sights_rows {snapshot : Snapshot} {cached : List SourceFileMetadata} (hstamped : snapshot.Stamped) :
    (snapshot.tree.sourceContents.map (snapshot.observation sha256 cached)).map SourceFileMetadata.row =
      snapshot.sights.map (StampCache.refresh (fingerprintBytes sha256) (cached.map SourceFileMetadata.row)) := by
  unfold Snapshot.sights
  rw [List.map_map, List.map_filterMap, ← List.filterMap_eq_map]
  refine List.filterMap_congr fun file hfile => ?_
  obtain ⟨stamp, hstamp⟩ := Option.isSome_iff_exists.1 (hstamped file hfile)
  unfold Snapshot.sight
  rw [hstamp]
  exact congrArg some (observation_row hstamp)

/-- What one command leaves. -/
theorem MetadataTable.Faithful.afterVisit {table : MetadataTable} (h : table.Faithful sha256) (visit : Visit) :
    (Discovery.afterVisit sha256 table visit).Faithful sha256 := by
  unfold Discovery.afterVisit
  cases visit.command with
  | status => exact h
  | plan => exact h
  | index publishes =>
    dsimp only
    rw [discoverRecording_eq]
    cases hobserve : visit.snapshot.observe sha256 table.sourceFileMetadata with
    | error error => exact h
    | ok observed =>
      obtain ⟨hstamped, rfl⟩ := observe_eq_ok_iff.1 hobserve
      change (if publishes _ then (table.replaceSourceFileMetadata visit.snapshot _).getD table else table).Faithful sha256
      unfold replaceSourceFileMetadata
      split
      · split
        · next hnodup =>
          have hrows := @sights_rows sha256 visit.snapshot table.sourceFileMetadata hstamped
          refine ⟨hnodup, ?_⟩
          rw [Option.getD_some]
          dsimp only
          rw [hrows]
          refine h.sorted.refresh ?_
          have hkeys := congrArg (List.map StampCache.Row.key) hrows
          rw [List.map_map, List.map_map (f := StampCache.refresh _ _)] at hkeys
          exact hkeys ▸ hnodup
        · exact h
      · exact h

theorem faithful_afterVisits (visits : List Visit) : (afterVisits sha256 visits).Faithful sha256 := by
  have hrun : ∀ table : MetadataTable, table.Faithful sha256 → (visits.foldl (afterVisit sha256) table).Faithful sha256 := by
    induction visits with
    | nil => exact fun _ h => h
    | cons visit visits ih => exact fun _ h => ih _ (h.afterVisit visit)
  exact hrun {} faithful_empty

/-- Rows are written of snapshots that were visited. -/
theorem recorded_visited {visits : List Visit} {snapshot : Snapshot} (h : snapshot ∈ (afterVisits sha256 visits).recorded) :
    ∃ visit ∈ visits, visit.snapshot = snapshot := by
  have hstep : ∀ (table : MetadataTable) (visit : Visit), snapshot ∈ (afterVisit sha256 table visit).recorded →
      visit.snapshot = snapshot ∨ snapshot ∈ table.recorded := by
    intro table visit hmem
    unfold afterVisit at hmem
    split at hmem
    · split at hmem
      · split at hmem
        · unfold MetadataTable.replaceSourceFileMetadata at hmem
          split at hmem
          · obtain hself | hbefore := List.mem_cons.1 hmem
            · exact .inl hself.symm
            · exact .inr hbefore
          · exact .inr hmem
        · exact .inr hmem
      · exact .inr hmem
    · exact .inr hmem
    · exact .inr hmem
  have hrun : ∀ table : MetadataTable, snapshot ∈ (visits.foldl (afterVisit sha256) table).recorded →
      (∃ visit ∈ visits, visit.snapshot = snapshot) ∨ snapshot ∈ table.recorded := by
    clear h
    induction visits with
    | nil => exact fun _ hmem => .inr hmem
    | cons visit visits ih =>
      intro table hmem
      obtain ⟨other, hother, hsame⟩ | hbefore := ih (afterVisit sha256 table visit) hmem
      · exact .inl ⟨other, List.mem_cons_of_mem _ hother, hsame⟩
      · obtain hself | hbefore := hstep table visit hbefore
        · exact .inl ⟨visit, List.mem_cons_self, hself⟩
        · exact .inr hbefore
  exact (hrun {} h).resolve_right List.not_mem_nil

/-! ## Over a history -/

/-- No source was changed behind the back of its size and its time. -/
def Honest (visits : List Visit) (snapshot : Snapshot) : Prop :=
  ∀ visit ∈ visits, ∀ file ∈ visit.snapshot.tree.sourceContents, ∀ other ∈ snapshot.tree.sourceContents,
    metadataKey file.path = metadataKey other.path → visit.snapshot.stamp file = snapshot.stamp other → file.contents = other.contents

theorem Honest.assumed {visits : List Visit} {snapshot : Snapshot} (h : Honest visits snapshot) {file : WalkedFile}
    (hfile : file ∈ snapshot.tree.sourceContents) :
    snapshot.assumed (afterVisits sha256 visits).recorded file = file.contents := by
  unfold Snapshot.assumed
  cases hstamp : snapshot.stamp file with
  | none => rfl
  | some stamp =>
    rw [Option.bind_some]
    cases hfirst : StampCache.first ((afterVisits sha256 visits).recorded.map Snapshot.sights) (metadataKey file.path) stamp with
    | none => rfl
    | some contents =>
      obtain ⟨sights, hsights, sight, hsight, hkey, hstamps, rfl⟩ := StampCache.first_eq_some hfirst
      obtain ⟨before, hbefore, rfl⟩ := List.mem_map.1 hsights
      obtain ⟨visit, hvisit, rfl⟩ := recorded_visited hbefore
      obtain ⟨seen, hseen, hseensight⟩ := List.mem_filterMap.1 hsight
      obtain ⟨seenStamp, hseenStamp, rfl⟩ := Option.map_eq_some_iff.1 hseensight
      dsimp only at hstamps
      subst hstamps
      exact h visit hvisit seen hseen file hfile hkey (hseenStamp.trans hstamp.symm)

theorem discoveredWith_eq {table : MetadataTable} (h : table.Faithful sha256) {snapshot : Snapshot} (hstamped : snapshot.Stamped)
    (root backendVersion : String) :
    snapshot.discoveredWith sha256 root backendVersion
        (snapshot.tree.sourceContents.map (snapshot.observation sha256 table.sourceFileMetadata)) =
      snapshot.tree.discoveredAs sha256 root backendVersion (snapshot.assumed table.recorded) := by
  unfold Snapshot.discoveredWith WorkspaceTree.discoveredAs
  rw [← @sources_files sha256, List.map_map, List.zipWith_map_right, List.zipWith_self]
  congr 2
  refine List.map_congr_left fun source hsource => congrArg source.unit (h.content (hstamped source.file ?_))
  rw [← @sources_files sha256]
  exact List.mem_map_of_mem hsource

/-- **Source metadata.** After any history of commands, a command discovers the workspace exactly if the times and sizes of all
sources can be kept, and then with the fingerprints of what the files held when the recorded runs began to see them as they are
now. It is the discovery that reads every file exactly if these are the fingerprints of what they hold, as they are where no
source was changed behind the back of its size and its time. -/
theorem discovery_since (visits : List Visit) (visit : Visit) :
    (∀ discovery, discoverFor sha256 (afterVisits sha256 visits) visit = some (.ok discovery) ↔ visit.snapshot.Stamped ∧
      discovery = visit.snapshot.tree.discoveredAs sha256 visit.root visit.backendVersion
        (visit.snapshot.assumed (afterVisits sha256 visits).recorded)) ∧
    (discoverFor sha256 (afterVisits sha256 visits) visit =
        (visit.snapshot.tree.discoverWorkspace sha256 visit.root visit.backendVersion).map .ok ↔
      visit.snapshot.Stamped ∧ ∀ file ∈ visit.snapshot.tree.sourceContents,
        fingerprintBytes sha256 (visit.snapshot.assumed (afterVisits sha256 visits).recorded file) =
          fingerprintBytes sha256 file.contents) ∧
    (visit.snapshot.Stamped → Honest visits visit.snapshot → discoverFor sha256 (afterVisits sha256 visits) visit =
      (visit.snapshot.tree.discoverWorkspace sha256 visit.root visit.backendVersion).map .ok) := by
  have hfaithful := @faithful_afterVisits sha256 visits
  have hexact : ∀ discovery, discoverFor sha256 (afterVisits sha256 visits) visit = some (.ok discovery) ↔ visit.snapshot.Stamped ∧
      discovery = visit.snapshot.tree.discoveredAs sha256 visit.root visit.backendVersion
        (visit.snapshot.assumed (afterVisits sha256 visits).recorded) := by
    intro discovery
    rw [discoverFor_eq, Option.some.injEq]
    constructor
    · intro h
      cases hobserve : visit.snapshot.observe sha256 (afterVisits sha256 visits).sourceFileMetadata with
      | error error =>
        rw [hobserve] at h
        cases h
      | ok observed =>
        obtain ⟨hstamped, rfl⟩ := observe_eq_ok_iff.1 hobserve
        rw [hobserve] at h
        cases h
        exact ⟨hstamped, discoveredWith_eq hfaithful hstamped _ _⟩
    · rintro ⟨hstamped, rfl⟩
      rw [observe_eq_ok_iff.2 ⟨hstamped, rfl⟩]
      exact congrArg Except.ok (discoveredWith_eq hfaithful hstamped _ _)
  have hplain : discoverFor sha256 (afterVisits sha256 visits) visit =
        (visit.snapshot.tree.discoverWorkspace sha256 visit.root visit.backendVersion).map .ok ↔
      visit.snapshot.Stamped ∧ ∀ file ∈ visit.snapshot.tree.sourceContents,
        fingerprintBytes sha256 (visit.snapshot.assumed (afterVisits sha256 visits).recorded file) =
          fingerprintBytes sha256 file.contents := by
    rw [discoverWorkspace_eq, Option.map_some, hexact, eq_comm (b := visit.snapshot.tree.discoveredAs _ _ _ _), discoveredAs_eq_iff]
  exact ⟨hexact, hplain, fun hstamped hhonest => hplain.2 ⟨hstamped, fun file hfile => by rw [hhonest.assumed hfile]⟩⟩

end

end Kide.Discovery
