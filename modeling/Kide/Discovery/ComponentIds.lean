import Kide.Discovery.ComponentScope
import Kide.Lib.Fields

/-!
# Component ids

The id of a component has the path of its root in it, and `root` for the root of the workspace; that of a source unit, the id
of its component and its path behind a colon; and the context of a component is a digest of the inputs it is in the scope of.

* `collectEntries_apart`: no walked file is a directory of another one, so a build file is in the scope of its own directory;
* `contextInput_eq_iff`: equal contexts are those of the same inputs;
* `components_apart_iff`: the trees whose components are told apart, by three conditions on the names (`WellNamed`).
-/

namespace Kide.Discovery
open Paths Collects Fields

/-! ## The walk -/

mutual

/-- What is walked below a path is below it. -/
theorem collectFiles_below (path : RelPath) (entry : Entry) {file : WalkedFile} (h : file ∈ (collectFiles path entry).files) :
    path <+: file.path := by
  cases entry with
  | file contents =>
    unfold collectFiles at h
    obtain rfl := List.mem_singleton.1 h
    exact List.prefix_refl path
  | symlink =>
    unfold collectFiles at h
    cases h
  | directory entries =>
    unfold collectFiles at h
    split at h
    · cases h
    · obtain ⟨name, -, hname⟩ := collectEntries_below path entries h
      exact (List.prefix_append path [name]).trans hname

theorem collectEntries_below (path : RelPath) (entries : Entries) {file : WalkedFile}
    (h : file ∈ (collectEntries path entries).files) : ∃ name ∈ entries.names, path ++ [name] <+: file.path := by
  cases entries with
  | nil =>
    unfold collectEntries at h
    cases h
  | cons name entry rest =>
    unfold collectEntries at h
    rcases List.mem_append.1 h with h | h
    · exact ⟨name, List.mem_cons_self, collectFiles_below (path ++ [name]) entry h⟩
    · obtain ⟨other, hother, hbelow⟩ := collectEntries_below path rest h
      exact ⟨other, List.mem_cons_of_mem _ hother, hbelow⟩

end

theorem name_eq {path file : RelPath} {a b : FileName} (ha : path ++ [a] <+: file) (hb : path ++ [b] <+: file) : a = b := by
  have hsame := (List.prefix_of_prefix_length_le ha hb (by simp)).eq_of_length (by simp)
  simpa using hsame

mutual

/-- No walked file is a directory of another one. -/
theorem collectFiles_apart (path : RelPath) (entry : Entry) (hdistinct : entry.Distinct) {a b : WalkedFile}
    (ha : a ∈ (collectFiles path entry).files) (hb : b ∈ (collectFiles path entry).files) (h : a.path <+: b.path) :
    a.path = b.path := by
  cases entry with
  | file contents =>
    unfold collectFiles at ha hb
    rw [List.mem_singleton.1 ha, List.mem_singleton.1 hb]
  | symlink =>
    unfold collectFiles at ha
    cases ha
  | directory entries =>
    unfold collectFiles at ha hb
    unfold Entry.Distinct at hdistinct
    split at ha
    · cases ha
    · next hkept =>
      rw [if_neg hkept] at hb
      exact collectEntries_apart path entries hdistinct ha hb h

theorem collectEntries_apart (path : RelPath) (entries : Entries) (hdistinct : entries.Distinct) {a b : WalkedFile}
    (ha : a ∈ (collectEntries path entries).files) (hb : b ∈ (collectEntries path entries).files) (h : a.path <+: b.path) :
    a.path = b.path := by
  cases entries with
  | nil =>
    unfold collectEntries at ha
    cases ha
  | cons name entry rest =>
    unfold collectEntries at ha hb
    unfold Entries.Distinct at hdistinct
    obtain ⟨hname, hentry, hrest⟩ := hdistinct
    rcases List.mem_append.1 ha with ha | ha <;> rcases List.mem_append.1 hb with hb | hb
    · exact collectFiles_apart (path ++ [name]) entry hentry ha hb h
    · obtain ⟨other, hother, hbelow⟩ := collectEntries_below path rest hb
      exact absurd (name_eq ((collectFiles_below _ entry ha).trans h) hbelow ▸ hother) hname
    · obtain ⟨other, hother, hbelow⟩ := collectEntries_below path rest ha
      exact absurd (name_eq (collectFiles_below _ entry hb) (hbelow.trans h) ▸ hother) hname
    · exact collectEntries_apart path rest hrest ha hb h

end

/-! ## Configuration paths and roots -/

section
variable {tree : WorkspaceTree}

theorem mem_files {file : WalkedFile} : file ∈ tree.files ↔ file ∈ tree.walk.files := List.mem_insertionSort _

theorem mem_configurationPaths {file : WalkedFile} (h : file ∈ tree.configurationPaths) :
    file ∈ tree.walk.files ∨ file.path = KIDE_CONFIG := by
  unfold WorkspaceTree.configurationPaths at h
  dsimp only at h
  split at h
  · rw [List.mem_dedup, List.mem_insertionSort, List.mem_append, List.mem_singleton] at h
    rcases h with h | rfl
    · exact .inl (mem_files.1 (List.mem_filter.1 h).1)
    · exact .inr rfl
  · exact .inl (mem_files.1 (List.mem_filter.1 h).1)

/-- The root of the workspace, and the directories of the build files. -/
theorem mem_roots {root : RelPath} : root ∈ tree.roots ↔
    root = [] ∨ ∃ marker ∈ tree.configurationPaths, ∃ name, name.asStr ∈ COMPONENT_MARKERS ∧ marker.path = root ++ [name] := by
  have hmarkers : root ∈ componentRoots (tree.configurationPaths.map (·.path)) ↔
      ∃ marker ∈ tree.configurationPaths, ∃ name, name.asStr ∈ COMPONENT_MARKERS ∧ marker.path = root ++ [name] := by
    unfold componentRoots
    simp only [List.mem_insertionSort, List.mem_dedup, List.mem_map, List.mem_filter]
    constructor
    · rintro ⟨_, ⟨⟨marker, hmarker, rfl⟩, hname⟩, rfl⟩
      cases hlast : marker.path.getLast? with
      | none =>
        rw [hlast] at hname
        cases hname
      | some name =>
        rw [hlast] at hname
        exact ⟨marker, hmarker, name, of_decide_eq_true hname, (List.dropLast_append_getLast? name hlast).symm⟩
    · rintro ⟨marker, hmarker, name, hin, hpath⟩
      exact ⟨marker.path, ⟨⟨marker, hmarker, rfl⟩, by simp [hpath, hin]⟩, by simp [hpath]⟩
  unfold WorkspaceTree.roots discoveredRoots
  simp only [List.mem_dedup, List.mem_insertionSort]
  rw [← hmarkers]
  split
  · next hroot => exact ⟨.inr, fun h => h.elim (fun heq => heq ▸ hroot) id⟩
  · rw [List.mem_append, List.mem_singleton, or_comm]

theorem root_mem : [] ∈ tree.roots := mem_roots.2 (.inl rfl)

theorem marker_walked {marker : WalkedFile} {root : RelPath} {name : FileName} (h : marker ∈ tree.configurationPaths)
    (hname : name.asStr ∈ COMPONENT_MARKERS) (hpath : marker.path = root ++ [name]) : marker ∈ tree.walk.files := by
  refine (mem_configurationPaths h).resolve_right fun hconfig => ?_
  have hlast : (root ++ [name]).getLast? = KIDE_CONFIG.getLast? := by rw [← hpath, hconfig]
  rw [List.getLast?_concat] at hlast
  obtain rfl : name = .of "config.toml" := Option.some.inj hlast
  revert hname
  decide

/-- A build file is in the directory that it makes a component of, and in no deeper one. -/
theorem marker_deepest {marker : WalkedFile} {root : RelPath} {name : FileName} (h : marker ∈ tree.configurationPaths)
    (hname : name.asStr ∈ COMPONENT_MARKERS) (hpath : marker.path = root ++ [name]) :
    Deepest tree.roots marker.path root := by
  refine ⟨hpath ▸ List.prefix_append root [name], fun other hother hcontains => ?_⟩
  rw [hpath, List.prefix_concat_iff] at hcontains
  rcases hcontains with hsame | hbelow
  · exfalso
    rcases mem_roots.1 hother with hroot | ⟨deeper, hdeeper, name', hname', hpath'⟩
    · rw [hroot] at hsame
      exact absurd hsame (by simp)
    · have hbelow : marker.path <+: deeper.path := by
        rw [hpath', hsame, hpath]
        exact List.prefix_append _ _
      have heq := collectEntries_apart [] tree.entries tree.distinct (marker_walked h hname hpath)
        (marker_walked hdeeper hname' hpath') hbelow
      rw [hpath', hsame, hpath] at heq
      exact absurd heq (by simp)
  · exact hbelow.length_le

end

/-! ## Ids -/

theorem idPrefix_colon (buildSystem : BuildSystem) : ':' ∉ (idPrefix buildSystem).toList := by
  cases buildSystem <;> simp [idPrefix]

theorem componentId_eq_iff {a b : BuildSystem} {root other : WorkspacePath} :
    componentId a root = componentId b other ↔ idPrefix a = idPrefix b ∧ rootKey root = rootKey other := by
  have hsplit : ∀ (buildSystem : BuildSystem) (path : WorkspacePath), idPrefix buildSystem ++ ":" ++ rootKey path ++ ":main" =
      idPrefix buildSystem ++ String.singleton ':' ++ (rootKey path ++ ":main") := fun _ _ => String.append_assoc
  unfold componentId
  rw [ComponentId.mk.injEq, hsplit, hsplit, separated_inj (idPrefix_colon a) (idPrefix_colon b)]
  refine and_congr_right fun _ => ⟨fun h => ?_, fun h => by rw [h]⟩
  have hlist := congrArg String.toList h
  rw [String.toList_append, String.toList_append, List.append_left_inj] at hlist
  exact String.toList_injective hlist

theorem rootKey_root : rootKey (workspacePath []) = "root" := rfl

theorem rootKey_cons {root : RelPath} (h : root ≠ []) : rootKey (workspacePath root) = root.text :=
  if_neg fun hdot => h (text_injective hdot)

/-- The key of the workspace root is also that of a directory named like it. -/
theorem rootKey_eq_iff {a b : RelPath} : rootKey (workspacePath a) = rootKey (workspacePath b) ↔
    a = b ∨ a = [] ∧ b.text = "root" ∨ b = [] ∧ a.text = "root" := by
  have hroot : RelPath.text [] ≠ "root" := by decide
  by_cases ha : a = []
  · by_cases hb : b = []
    · simp [ha, hb]
    · rw [ha, rootKey_root, rootKey_cons hb]
      constructor
      · exact fun h => .inr (.inl ⟨rfl, h.symm⟩)
      · rintro (h | ⟨-, h⟩ | ⟨h, -⟩)
        · exact absurd h.symm hb
        · exact h.symm
        · exact absurd h hb
  · by_cases hb : b = []
    · rw [hb, rootKey_root, rootKey_cons ha]
      constructor
      · exact fun h => .inr (.inr ⟨rfl, h⟩)
      · rintro (h | ⟨h, -⟩ | ⟨-, h⟩)
        · exact absurd h ha
        · exact absurd h ha
        · exact h
    · rw [rootKey_cons ha, rootKey_cons hb]
      constructor
      · exact fun h => .inl (text_injective h)
      · rintro (rfl | ⟨h, -⟩ | ⟨h, -⟩)
        · rfl
        · exact absurd h ha
        · exact absurd h hb

/-- A key that goes on as another one does with its `:main:` and the path behind it. -/
def Continues (key key' path path' : String) : Prop :=
  ∃ rest, key' = key ++ ":main" ++ rest ∧ ":" ++ path = rest ++ ":main:" ++ path'

/-- What stands before a second `:main:` begins with the first one, all but its last colon. -/
theorem main_overlap {u p p' : List Char} (hu : u ≠ []) (h : ":main:".toList ++ p = u ++ (":main:".toList ++ p')) :
    ∃ rest, u = ":main".toList ++ rest ∧ ':' :: p = rest ++ (":main:".toList ++ p') := by
  have hmain : ":main:".toList = [':', 'm', 'a', 'i', 'n', ':'] := by decide
  have hmain' : ":main".toList = [':', 'm', 'a', 'i', 'n'] := by decide
  rw [hmain] at h ⊢
  rw [hmain']
  obtain _ | ⟨a, u⟩ := u
  · exact absurd rfl hu
  obtain _ | ⟨b, u⟩ := u
  · simp at h
  obtain _ | ⟨c, u⟩ := u
  · simp at h
  obtain _ | ⟨d, u⟩ := u
  · simp at h
  obtain _ | ⟨e, u⟩ := u
  · simp at h
  simp only [List.cons_append, List.cons.injEq] at h
  obtain ⟨rfl, rfl, rfl, rfl, rfl, hrest⟩ := h
  exact ⟨u, rfl, by simpa using hrest⟩

theorem unitText_eq_iff {key key' path path' : String} (hne : key ≠ key') :
    key ++ ":main:" ++ path = key' ++ ":main:" ++ path' ↔ Continues key key' path path' ∨ Continues key' key path' path := by
  have honward : ∀ {k k' p p' : String}, Continues k k' p p' → k ++ ":main:" ++ p = k' ++ ":main:" ++ p' := by
    rintro k _ p p' ⟨rest, rfl, hpath⟩
    have hsplit : k ++ ":main:" ++ p = k ++ ":main" ++ (":" ++ p) := by
      rw [show ":main:" = ":main" ++ ":" by decide]
      simp only [String.append_assoc]
    rw [hsplit, hpath]
    simp only [String.append_assoc]
  have hback : ∀ {k k' p p' : String}, k ≠ k' → (∃ u, k'.toList = k.toList ++ u ∧
      ":main:".toList ++ p.toList = u ++ (":main:".toList ++ p'.toList)) → Continues k k' p p' := by
    rintro k k' p p' hdiffer ⟨u, hkey, hpath⟩
    have hu : u ≠ [] := fun hnil => hdiffer (String.toList_injective (by rw [hkey, hnil, List.append_nil]))
    obtain ⟨rest, rfl, hrest⟩ := main_overlap hu hpath
    refine ⟨String.ofList rest, String.toList_injective ?_, String.toList_injective ?_⟩
    · simpa using hkey
    · simpa using hrest
  constructor
  · intro h
    have hlist := congrArg String.toList h
    simp only [String.toList_append, List.append_assoc] at hlist
    rcases List.append_eq_append_iff.1 hlist with ⟨u, hkey, hpath⟩ | ⟨u, hkey, hpath⟩
    · exact .inl (hback hne ⟨u, hkey, hpath⟩)
    · exact .inr (hback hne.symm ⟨u, hkey, hpath⟩)
  · rintro (h | h)
    · exact honward h
    · exact (honward h).symm

/-! ## Components -/

section
variable {sha256 : Bytes → String} {tree : WorkspaceTree}

def idAt (tree : WorkspaceTree) (root : RelPath) : ComponentId := componentId (buildSystemFor tree root) (workspacePath root)

/-- The component that discovery makes of a root. -/
def discoveredAt (sha256 : Bytes → String) (tree : WorkspaceTree) : RelPath → Component :=
  componentAt (buildSystemFor tree) fun root => componentContextFingerprint sha256 (idAt tree root)
    (tree.configurationInputRecords sha256)

theorem components_eq : tree.components sha256 = tree.roots.map (discoveredAt sha256 tree) := by
  unfold WorkspaceTree.components WorkspaceTree.preliminaryComponents
  rw [List.map_map]
  rfl

/-- The sources of the component at a root. -/
structure Owns (tree : WorkspaceTree) (root : RelPath) (file : WalkedFile) : Prop where
  mem : file ∈ tree.files
  source : isConfigurationInput (workspacePath file.path) = false ∧ (languageFor file.path).isSome
  isRoot : root ∈ tree.roots
  deepest : Deepest tree.roots file.path root

theorem root_component : ∃ component, (tree.components sha256).find? (·.root.asStr = ".") = some component := by
  refine Option.isSome_iff_exists.1 (List.find?_isSome.2 ⟨discoveredAt sha256 tree [], ?_, rfl⟩)
  rw [components_eq]
  exact List.mem_map_of_mem root_mem

/-- The unit of a file, if it is a source. -/
def unitOf (sha256 : Bytes → String) (tree : WorkspaceTree) (file : WalkedFile) : Option SourceUnit := do
  guard ¬ isConfigurationInput (workspacePath file.path)
  let language ← languageFor file.path
  let component ← sourceOwner (tree.components sha256) tree.roots file.path
  pure (sourceUnit sha256 component file language)

theorem discovers (root backendVersion : String) : ∃ discovery, tree.discoverWorkspace sha256 root backendVersion = some discovery ∧
    discovery.manifest.components = tree.components sha256 ∧
    discovery.sourceUnits = (tree.files.filterMap (unitOf sha256 tree)).insertionSort fun a b => a.path.le b.path := by
  obtain ⟨component, hfind⟩ := @root_component sha256 tree
  unfold WorkspaceTree.discoverWorkspace sourceUnits
  rw [hfind]
  exact ⟨_, rfl, rfl, rfl⟩

theorem unitOf_eq_some_iff {file : WalkedFile} (hfile : file ∈ tree.files) {unit : SourceUnit} :
    unitOf sha256 tree file = some unit ↔ ∃ root language, Owns tree root file ∧ languageFor file.path = some language ∧
      unit = sourceUnit sha256 (discoveredAt sha256 tree root) file language := by
  obtain ⟨root, hroot, hdeepest⟩ := @exists_deepest tree.roots file.path root_mem
  have howner : sourceOwner (tree.components sha256) tree.roots file.path = some (discoveredAt sha256 tree root) := by
    rw [components_eq]
    exact sourceOwner_eq hroot hdeepest
  unfold unitOf
  rw [howner]
  constructor
  · intro h
    cases hconfiguration : isConfigurationInput (workspacePath file.path) with
    | true => simp [hconfiguration] at h
    | false =>
      cases hlanguage : languageFor file.path with
      | none => simp [hlanguage] at h
      | some language =>
        simp [hconfiguration, hlanguage] at h
        exact ⟨root, language, ⟨hfile, ⟨hconfiguration, by rw [hlanguage]; rfl⟩, hroot, hdeepest⟩, rfl, h.symm⟩
  · rintro ⟨other, language, howns, hlanguage, rfl⟩
    rw [howns.deepest.eq howns.isRoot hroot hdeepest]
    simp [howns.source.1, hlanguage]

theorem mem_units_iff {unit : SourceUnit} :
    unit ∈ (tree.files.filterMap (unitOf sha256 tree)).insertionSort (fun a b => a.path.le b.path) ↔
      ∃ file root language, Owns tree root file ∧ languageFor file.path = some language ∧
        unit = sourceUnit sha256 (discoveredAt sha256 tree root) file language := by
  rw [List.mem_insertionSort, List.mem_filterMap]
  constructor
  · rintro ⟨file, hfile, hunit⟩
    obtain ⟨root, language, h⟩ := (unitOf_eq_some_iff hfile).1 hunit
    exact ⟨file, root, language, h⟩
  · rintro ⟨file, root, language, h⟩
    exact ⟨file, h.1.mem, (unitOf_eq_some_iff h.1.mem).2 ⟨root, language, h⟩⟩

/-! ## Contexts -/

/-- A root that an input can invalidate. -/
def InScope (tree : WorkspaceTree) (path root : RelPath) : Prop :=
  path.length = 1 ∨ path = KIDE_CONFIG ∨
    ∃ deepest ∈ tree.roots, Deepest tree.roots path deepest ∧ (root = deepest ∨ root = [] ∧ deepest.text.utf8ByteSize = 1)

/-- Distinct roots have distinct ids. -/
def IdsApart (tree : WorkspaceTree) : Prop := ∀ a ∈ tree.roots, ∀ b ∈ tree.roots, idAt tree a = idAt tree b → a = b

theorem mem_scope_iff (hids : IdsApart tree) {path root : RelPath} (hroot : root ∈ tree.roots) :
    idAt tree root ∈ componentScope (tree.preliminaryComponents sha256) path ↔ InScope tree path root := by
  have hmem : ∀ {l : List RelPath}, (∀ a ∈ l, a ∈ tree.roots) →
      (idAt tree root ∈ (l.map (componentAt (buildSystemFor tree) fun _ => tree.workspaceConfiguration sha256)).map (·.id) ↔
        root ∈ l) := by
    intro l hl
    rw [List.map_map, List.mem_map]
    constructor
    · rintro ⟨other, hother, hsame⟩
      rwa [← hids other (hl other hother) root hroot hsame]
    · exact fun h => ⟨root, h, rfl⟩
  have hprelim : tree.preliminaryComponents sha256 =
      tree.roots.map (componentAt (buildSystemFor tree) fun _ => tree.workspaceConfiguration sha256) := rfl
  unfold InScope componentScope
  rw [hprelim]
  by_cases hroot' : path.length = 1 ∨ path = KIDE_CONFIG
  · unfold scopeOf
    rw [if_pos hroot', hmem fun _ h => h]
    exact iff_of_true hroot (hroot'.elim .inl fun h => .inr (.inl h))
  · obtain ⟨deepest, hin, hdeepest⟩ := @exists_deepest tree.roots path root_mem
    obtain ⟨hlength, hconfig⟩ := not_or.1 hroot'
    rw [scopeOf_eq hin hdeepest hlength hconfig, hmem fun _ h => (List.mem_filter.1 h).1, List.mem_filter, decide_eq_true_eq]
    constructor
    · exact fun h => .inr (.inr ⟨deepest, hin, hdeepest, h.2⟩)
    · rintro (h | h | ⟨other, hother, hdeepest', h⟩)
      · exact absurd h hlength
      · exact absurd h hconfig
      · rw [hdeepest.eq hin hother hdeepest']
        exact ⟨hroot, h⟩

theorem contextInput_eq (component : ComponentId) (inputs : List ConfigurationInput) :
    contextInput component inputs = terminated '\x00' ((inputs.filter (component ∈ ·.components)).flatMap
      fun input => [input.path.asStr, input.fingerprint.asStr]) := by
  unfold contextInput
  generalize inputs.filter (component ∈ ·.components) = kept
  induction kept with
  | nil => rfl
  | cons input kept ih =>
    rw [List.foldr_cons, ih, List.flatMap_cons, terminated_append, terminated_cons, terminated_cons, terminated_nil,
      String.append_empty, ← String.append_assoc]
    rfl

/-- The hashed texts of two components are those of the same inputs. -/
theorem contextInput_eq_iff (hhex : ∀ bytes, '\x00' ∉ (sha256 bytes).toList) (hids : IdsApart tree) {a b : RelPath}
    (ha : a ∈ tree.roots) (hb : b ∈ tree.roots) :
    contextInput (idAt tree a) (tree.configurationInputRecords sha256) =
        contextInput (idAt tree b) (tree.configurationInputRecords sha256) ↔
      ∀ file ∈ tree.configurationPaths, InScope tree file.path a ↔ InScope tree file.path b := by
  have hfree : ∀ (component : ComponentId), ∀ field ∈ ((tree.configurationInputRecords sha256).filter
      (component ∈ ·.components)).flatMap (fun input => [input.path.asStr, input.fingerprint.asStr]),
        '\x00' ∉ field.toList := by
    intro component field hfield
    obtain ⟨input, hinput, hfield⟩ := List.mem_flatMap.1 hfield
    obtain ⟨file, -, rfl⟩ := List.mem_map.1 (List.mem_filter.1 hinput).1
    rcases List.mem_cons.1 hfield with rfl | hfield
    · exact text_nul file.path
    · rw [List.mem_singleton.1 hfield, fingerprintBytes, String.toList_append, List.mem_append, not_or]
      exact ⟨by decide, hhex _⟩
  have hscope : ∀ {root : RelPath}, root ∈ tree.roots → ∀ file : WalkedFile, (idAt tree root ∈
      componentScope (tree.preliminaryComponents sha256) file.path ↔ InScope tree file.path root) :=
    fun hroot file => mem_scope_iff hids hroot
  rw [contextInput_eq, contextInput_eq, terminated_inj (hfree _) (hfree _), flatMap_inj Nat.two_pos fun _ => rfl]
  constructor
  · have honward : ∀ {a b : RelPath}, a ∈ tree.roots → b ∈ tree.roots →
        ((tree.configurationInputRecords sha256).filter (idAt tree a ∈ ·.components)).map
            (fun input => [input.path.asStr, input.fingerprint.asStr]) =
          ((tree.configurationInputRecords sha256).filter (idAt tree b ∈ ·.components)).map
            (fun input => [input.path.asStr, input.fingerprint.asStr]) →
        ∀ file ∈ tree.configurationPaths, InScope tree file.path a → InScope tree file.path b := by
      intro a b ha hb hsame file hfile hin
      have hmem : [file.path.text, (fingerprintBytes sha256 file.contents).asStr] ∈
          ((tree.configurationInputRecords sha256).filter (idAt tree a ∈ ·.components)).map
            fun input => [input.path.asStr, input.fingerprint.asStr] := by
        refine List.mem_map.2 ⟨_, List.mem_filter.2 ⟨List.mem_map.2 ⟨file, hfile, rfl⟩, ?_⟩, rfl⟩
        exact decide_eq_true ((hscope ha file).2 hin)
      rw [hsame] at hmem
      obtain ⟨input, hinput, hfields⟩ := List.mem_map.1 hmem
      obtain ⟨hrecord, hcomponent⟩ := List.mem_filter.1 hinput
      obtain ⟨other, -, rfl⟩ := List.mem_map.1 hrecord
      have hpath : other.path = file.path := text_injective (List.cons.inj hfields).1
      have hin' := (hscope hb other).1 (of_decide_eq_true hcomponent)
      rwa [hpath] at hin'
    exact fun h file hfile => ⟨honward ha hb h file hfile, honward hb ha h.symm file hfile⟩
  · intro h
    congr 1
    refine List.filter_congr fun input hinput => ?_
    obtain ⟨file, hfile, rfl⟩ := List.mem_map.1 hinput
    rw [decide_eq_decide]
    exact ((hscope ha file).trans (h file hfile)).trans (hscope hb file).symm

/-- A build file tells its component from any other but, if the name of its directory has one byte, from that of the root. -/
theorem marker_apart {root other : RelPath} (hroot : root ∈ tree.roots) (hne : root ≠ []) (hother : other ≠ root)
    (hlong : other = [] → root.text.utf8ByteSize ≠ 1) :
    ∃ file ∈ tree.configurationPaths, InScope tree file.path root ∧ ¬ InScope tree file.path other := by
  obtain ⟨marker, hmarker, name, hname, hpath⟩ := (mem_roots.1 hroot).resolve_left hne
  have hdeepest := marker_deepest hmarker hname hpath
  refine ⟨marker, hmarker, .inr (.inr ⟨root, hroot, hdeepest, .inl rfl⟩), ?_⟩
  rintro (hlength | hconfig | ⟨deepest, hin, hdeepest', hsame⟩)
  · rw [hpath, List.length_append, List.length_singleton] at hlength
    exact hne (List.length_eq_zero_iff.1 (by omega))
  · have hlast : (root ++ [name]).getLast? = KIDE_CONFIG.getLast? := by rw [← hpath, hconfig]
    rw [List.getLast?_concat] at hlast
    obtain rfl : name = .of "config.toml" := Option.some.inj hlast
    revert hname
    decide
  · obtain rfl := hdeepest'.eq hin hroot hdeepest
    rcases hsame with hsame | ⟨hempty, hsize⟩
    · exact hother hsame
    · exact hlong hempty hsize

/-- Some input below the root is in the scope of the root, and not in that of the short directory. -/
def ToldApart (tree : WorkspaceTree) (short : RelPath) : Prop :=
  ∃ file ∈ tree.configurationPaths, file.path.length ≠ 1 ∧ file.path ≠ KIDE_CONFIG ∧
    ∃ deepest ∈ tree.roots, Deepest tree.roots file.path deepest ∧ deepest ≠ short ∧
      (deepest = [] ∨ deepest.text.utf8ByteSize = 1)

theorem sameScope_iff {short : RelPath} (hne : short ≠ []) (hsize : short.text.utf8ByteSize = 1) :
    (∀ file ∈ tree.configurationPaths, InScope tree file.path short ↔ InScope tree file.path []) ↔ ¬ ToldApart tree short := by
  constructor
  · rintro hsame ⟨file, hfile, hlength, hconfig, deepest, hin, hdeepest, hother, hroot⟩
    have hshort := (hsame file hfile).2 (.inr (.inr ⟨deepest, hin, hdeepest, ?_⟩))
    · obtain ⟨deepest', hin', hdeepest', h⟩ := (hshort.resolve_left hlength).resolve_left hconfig
      rw [hdeepest'.eq hin' hin hdeepest] at h
      rcases h with h | ⟨h, -⟩
      · exact hother h.symm
      · exact hne h
    · exact hroot.elim (fun h => .inl h.symm) fun h => .inr ⟨rfl, h⟩
  · intro hapart file hfile
    constructor
    · rintro (hlength | hconfig | ⟨deepest, hin, hdeepest, h⟩)
      · exact .inl hlength
      · exact .inr (.inl hconfig)
      · obtain rfl := h.resolve_right fun h => hne h.1
        exact .inr (.inr ⟨short, hin, hdeepest, .inr ⟨rfl, hsize⟩⟩)
    · rintro (hlength | hconfig | ⟨deepest, hin, hdeepest, h⟩)
      · exact .inl hlength
      · exact .inr (.inl hconfig)
      · by_cases hnested : file.path.length = 1 ∨ file.path = KIDE_CONFIG
        · exact hnested.elim .inl fun h => .inr (.inl h)
        · obtain ⟨hlength, hconfig⟩ := not_or.1 hnested
          refine .inr (.inr ⟨deepest, hin, hdeepest, .inl ?_⟩)
          by_contra hother
          refine hapart ⟨file, hfile, hlength, hconfig, deepest, hin, hdeepest, fun heq => hother heq.symm, ?_⟩
          exact h.elim (fun heq => .inl heq.symm) fun h => .inr h.2

end

/-! ## Components apart -/

/-- Components of distinct roots have distinct ids, and their source units distinct ids and contexts. -/
structure ComponentsApart (discovery : WorkspaceDiscovery) : Prop where
  ids : ∀ a ∈ discovery.manifest.components, ∀ b ∈ discovery.manifest.components, a.root ≠ b.root → a.id ≠ b.id
  units : ∀ u ∈ discovery.sourceUnits, ∀ v ∈ discovery.sourceUnits, u.component ≠ v.component →
    u.id ≠ v.id ∧ u.context ≠ v.context

/-- No component is at a directory `root` beside one of the same build system at the root; no component is at a directory whose
path goes on as the ids of another one's sources do; and some input tells a component of a one-byte name from that of the root. -/
structure WellNamed (tree : WorkspaceTree) : Prop where
  root : ∀ root ∈ tree.roots, root.text = "root" → idPrefix (buildSystemFor tree root) ≠ idPrefix (buildSystemFor tree [])
  continued : ∀ a b file other, Owns tree a file → Owns tree b other → a ≠ b →
    idPrefix (buildSystemFor tree a) = idPrefix (buildSystemFor tree b) →
      ¬ Continues (rootKey (workspacePath a)) (rootKey (workspacePath b)) file.path.text other.path.text
  short : ∀ short ∈ tree.roots, short ≠ [] → short.text.utf8ByteSize = 1 → (∃ file, Owns tree short file) →
    (∃ file, Owns tree [] file) → ToldApart tree short

section
variable {sha256 : Bytes → String} {tree : WorkspaceTree}

theorem idsApart_iff : IdsApart tree ↔
    ∀ root ∈ tree.roots, root.text = "root" → idPrefix (buildSystemFor tree root) ≠ idPrefix (buildSystemFor tree []) := by
  unfold IdsApart idAt
  simp only [componentId_eq_iff, rootKey_eq_iff]
  constructor
  · intro h root hroot htext hbelow
    rw [h root hroot [] root_mem ⟨hbelow, .inr (.inr ⟨rfl, htext⟩)⟩] at htext
    revert htext
    decide
  · rintro h a ha b hb ⟨hbelow, hsame | ⟨rfl, htext⟩ | ⟨rfl, htext⟩⟩
    · exact hsame
    · exact absurd hbelow.symm (h b hb htext)
    · exact absurd hbelow (h a ha htext)

theorem unitId_eq_iff {a b : RelPath} {file other : WalkedFile} {language language' : Language} :
    (sourceUnit sha256 (discoveredAt sha256 tree a) file language).id =
        (sourceUnit sha256 (discoveredAt sha256 tree b) other language').id ↔
      idPrefix (buildSystemFor tree a) = idPrefix (buildSystemFor tree b) ∧
        rootKey (workspacePath a) ++ ":main:" ++ file.path.text = rootKey (workspacePath b) ++ ":main:" ++ other.path.text := by
  have hsplit : ∀ (root : RelPath) (file : WalkedFile) (language : Language),
      (sourceUnit sha256 (discoveredAt sha256 tree root) file language).id =
        ⟨idPrefix (buildSystemFor tree root) ++ String.singleton ':' ++
          (rootKey (workspacePath root) ++ ":main:" ++ file.path.text)⟩ := by
    intro root file language
    refine SourceUnitId.mk.injEq _ _ ▸ ?_
    show idPrefix (buildSystemFor tree root) ++ ":" ++ rootKey (workspacePath root) ++ ":main" ++ ":" ++ file.path.text = _
    rw [show ":main:" = ":main" ++ ":" by decide, show String.singleton ':' = ":" by decide]
    simp only [String.append_assoc]
  rw [hsplit, hsplit, SourceUnitId.mk.injEq, separated_inj (idPrefix_colon _) (idPrefix_colon _)]

theorem ids_iff {discovery : WorkspaceDiscovery}
    (hcomponents : discovery.manifest.components = tree.components sha256) :
    (∀ a ∈ discovery.manifest.components, ∀ b ∈ discovery.manifest.components, a.root ≠ b.root → a.id ≠ b.id) ↔
      IdsApart tree := by
  rw [hcomponents, components_eq]
  simp only [List.forall_mem_map]
  constructor
  · intro h a ha b hb hid
    by_contra hne
    exact h a ha b hb (fun hroot => hne (text_injective (WorkspacePath.mk.inj hroot))) hid
  · intro h a ha b hb hroot hid
    exact hroot (congrArg workspacePath (h a ha b hb hid))

/-- Under well-named directories no two components with sources have the same inputs in scope. -/
theorem WellNamed.scopes (h : WellNamed tree) {a b : RelPath} (hne : a ≠ b) (ha : ∃ file, Owns tree a file)
    (hb : ∃ file, Owns tree b file) :
    ¬ ∀ file ∈ tree.configurationPaths, InScope tree file.path a ↔ InScope tree file.path b := by
  have hone : ∀ {a b : RelPath}, a ≠ b → a ≠ [] → (∃ file, Owns tree a file) → (∃ file, Owns tree b file) →
      ¬ ∀ file ∈ tree.configurationPaths, InScope tree file.path a ↔ InScope tree file.path b := by
    intro a b hne hroot ha hb hsame
    have hin : a ∈ tree.roots := ha.elim fun _ howns => howns.isRoot
    by_cases hlong : b = [] → a.text.utf8ByteSize ≠ 1
    · obtain ⟨file, hfile, hscope, hother⟩ := marker_apart hin hroot (fun heq => hne heq.symm) hlong
      exact hother ((hsame file hfile).1 hscope)
    · rw [Classical.not_imp, not_not] at hlong
      obtain ⟨rfl, hsize⟩ := hlong
      exact (sameScope_iff hroot hsize).1 hsame (h.short a hin hroot hsize ha hb)
  by_cases hroot : a = []
  · have hb' : b ≠ [] := fun heq => hne (hroot.trans heq.symm)
    exact fun hsame => hone hne.symm hb' hb ha fun file hfile => (hsame file hfile).symm
  · exact hone hne hroot ha hb

end

theorem hexDigest_nul (bytes : Bytes) : '\x00' ∉ (hexDigest bytes).toList := by
  have hdigit : ∀ n < 16, '\x00' ≠ Nat.digitChar n := by decide
  unfold hexDigest
  rw [String.toList_ofList]
  intro hmem
  obtain ⟨byte, -, hchar⟩ := List.mem_flatMap.1 hmem
  have hbyte := byte.toNat_lt
  rcases List.mem_cons.1 hchar with h | h
  · exact hdigit _ (by omega) h
  · exact hdigit _ (by omega) (List.mem_singleton.1 h)

/-- **Component ids.** For a hash without collisions on the contexts of a workspace, its components and their source units are
told apart if and only if its directories are well named. -/
theorem components_apart_iff (tree : WorkspaceTree) (root backendVersion : String)
    (hcollision : ∀ a ∈ tree.roots, ∀ b ∈ tree.roots,
      componentContextFingerprint hexDigest (idAt tree a) (tree.configurationInputRecords hexDigest) =
        componentContextFingerprint hexDigest (idAt tree b) (tree.configurationInputRecords hexDigest) →
      contextInput (idAt tree a) (tree.configurationInputRecords hexDigest) =
        contextInput (idAt tree b) (tree.configurationInputRecords hexDigest)) :
    ∃ discovery, tree.discoverWorkspace hexDigest root backendVersion = some discovery ∧
      (ComponentsApart discovery ↔ WellNamed tree) := by
  obtain ⟨discovery, hdiscovered, hcomponents, hunits⟩ := @discovers hexDigest tree root backendVersion
  refine ⟨discovery, hdiscovered, ?_⟩
  have hunit : ∀ {a file language}, Owns tree a file → languageFor file.path = some language →
      sourceUnit hexDigest (discoveredAt hexDigest tree a) file language ∈ discovery.sourceUnits := by
    intro a file language howns hlanguage
    rw [hunits]
    exact mem_units_iff.2 ⟨file, a, language, howns, hlanguage, rfl⟩
  have hcontext : IdsApart tree → ∀ a ∈ tree.roots, ∀ b ∈ tree.roots,
      ((discoveredAt hexDigest tree a).configuration = (discoveredAt hexDigest tree b).configuration ↔
        ∀ file ∈ tree.configurationPaths, InScope tree file.path a ↔ InScope tree file.path b) := by
    intro hids a ha b hb
    rw [← contextInput_eq_iff hexDigest_nul hids ha hb]
    refine ⟨hcollision a ha b hb, fun h => ?_⟩
    exact congrArg (fun text : String => fingerprintBytes hexDigest text.toByteArray.data.toList) h
  have hkey : IdsApart tree → ∀ {a b : RelPath}, a ∈ tree.roots → b ∈ tree.roots → a ≠ b →
      idPrefix (buildSystemFor tree a) = idPrefix (buildSystemFor tree b) →
        rootKey (workspacePath a) ≠ rootKey (workspacePath b) :=
    fun hids a b ha hb hne hbelow hkeys => hne (hids a ha b hb (componentId_eq_iff.2 ⟨hbelow, hkeys⟩))
  constructor
  · rintro ⟨hapart, hfacts⟩
    have hids := (ids_iff hcomponents).1 hapart
    refine ⟨idsApart_iff.1 hids, fun a b file other hfile hother hne hbelow hcontinues => ?_,
      fun short hshort hne hsize hfile hother => ?_⟩
    · obtain ⟨language, hlanguage⟩ := Option.isSome_iff_exists.1 hfile.source.2
      obtain ⟨language', hlanguage'⟩ := Option.isSome_iff_exists.1 hother.source.2
      refine (hfacts _ (hunit hfile hlanguage) _ (hunit hother hlanguage')
        fun heq => hne (hids a hfile.isRoot b hother.isRoot heq)).1 (unitId_eq_iff.2 ⟨hbelow, ?_⟩)
      exact (unitText_eq_iff (hkey hids hfile.isRoot hother.isRoot hne hbelow)).2 (.inl hcontinues)
    · obtain ⟨file, howns⟩ := hfile
      obtain ⟨other, howns'⟩ := hother
      obtain ⟨language, hlanguage⟩ := Option.isSome_iff_exists.1 howns.source.2
      obtain ⟨language', hlanguage'⟩ := Option.isSome_iff_exists.1 howns'.source.2
      by_contra hapart'
      refine (hfacts _ (hunit howns hlanguage) _ (hunit howns' hlanguage')
        fun heq => hne (hids short hshort [] root_mem heq)).2 ?_
      exact (hcontext hids short hshort [] root_mem).2 ((sameScope_iff hne hsize).2 hapart')
  · intro hnamed
    have hids := idsApart_iff.2 hnamed.root
    refine ⟨(ids_iff hcomponents).2 hids, fun u hu v hv hcomponent => ?_⟩
    rw [hunits] at hu hv
    obtain ⟨file, a, language, hfile, hlanguage, rfl⟩ := mem_units_iff.1 hu
    obtain ⟨other, b, language', hother, hlanguage', rfl⟩ := mem_units_iff.1 hv
    have hne : a ≠ b := fun heq => hcomponent (by rw [heq]; rfl)
    refine ⟨fun hid => ?_, fun heq => ?_⟩
    · obtain ⟨hbelow, htext⟩ := unitId_eq_iff.1 hid
      obtain h | h := (unitText_eq_iff (hkey hids hfile.isRoot hother.isRoot hne hbelow)).1 htext
      · exact hnamed.continued a b file other hfile hother hne hbelow h
      · exact hnamed.continued b a other file hother hfile hne.symm hbelow.symm h
    · exact hnamed.scopes hne ⟨file, hfile⟩ ⟨other, hother⟩ ((hcontext hids a hfile.isRoot b hother.isRoot).1 heq)

/-! ## A module beside the root -/

/-- A directory of a Gradle module with one source file. -/
def gradleModule : Entry :=
  .directory (.cons BUILD_GRADLE (.file []) (.cons (.of "Main.kt") (.file []) .nil))

/-- The module in a directory of this name, beside a file. -/
def besideModule (file name : FileName) (hname : file ≠ name) : WorkspaceTree where
  entries := .cons file (.file []) (.cons name gradleModule .nil)
  distinct := by
    simp only [Entries.Distinct, Entry.Distinct, Entries.names, gradleModule, and_true, true_and, List.mem_singleton,
      List.not_mem_nil, not_false_eq_true]
    exact ⟨hname, by decide⟩
  kideConfig := none

def appModule : WorkspaceTree := besideModule (.of "settings.gradle") (.of "app") (by decide)

theorem appModule_roots : appModule.roots = [[], [.of "app"]] := by decide +kernel

theorem appModule_wellNamed : WellNamed appModule where
  root := by
    rw [appModule_roots]
    decide
  continued := by
    intro a b file other hfile hother hne hbelow
    have ha := hfile.isRoot
    have hb := hother.isRoot
    rw [appModule_roots] at ha hb
    have hdiffer : idPrefix (buildSystemFor appModule []) ≠ idPrefix (buildSystemFor appModule [.of "app"]) := by decide +kernel
    rcases List.mem_pair.1 ha with rfl | rfl <;> rcases List.mem_pair.1 hb with rfl | rfl
    · exact absurd rfl hne
    · exact absurd hbelow hdiffer
    · exact absurd hbelow.symm hdiffer
    · exact absurd rfl hne
  short := by
    intro short hshort hne hsize
    rw [appModule_roots] at hshort
    rcases List.mem_pair.1 hshort with rfl | rfl
    · exact absurd rfl hne
    · exact absurd hsize (by decide)

theorem appModule_apart :
    ∃ discovery, appModule.discoverWorkspace hexDigest "/workspace" "0.1.0" = some discovery ∧ ComponentsApart discovery := by
  have hcollision : ∀ a ∈ appModule.roots, ∀ b ∈ appModule.roots,
      componentContextFingerprint hexDigest (idAt appModule a) (appModule.configurationInputRecords hexDigest) =
        componentContextFingerprint hexDigest (idAt appModule b) (appModule.configurationInputRecords hexDigest) → a = b := by
    decide +kernel
  obtain ⟨discovery, hdiscovered, hiff⟩ := components_apart_iff appModule "/workspace" "0.1.0"
    fun a ha b hb heq => by rw [hcollision a ha b hb heq]
  exact ⟨discovery, hdiscovered, hiff.2 appModule_wellNamed⟩

/-- The module is at `root`, and the workspace a Gradle build too. -/
theorem rootModule_together :
    ¬ ∀ (tree : WorkspaceTree) (discovery : WorkspaceDiscovery),
      tree.discoverWorkspace hexDigest "/workspace" "0.1.0" = some discovery → ComponentsApart discovery := by
  intro h
  obtain ⟨discovery, hdiscovered, hcomponents, -⟩ := @discovers hexDigest
    (besideModule BUILD_GRADLE (.of "root") (by decide)) "/workspace" "0.1.0"
  have hids := (ids_iff hcomponents).1 (h _ discovery hdiscovered).ids
  have hroot : [FileName.of "root"] ∈ (besideModule BUILD_GRADLE (.of "root") (by decide)).roots := by decide +kernel
  have hsame := hids _ hroot [] root_mem (by decide +kernel)
  cases hsame

end Kide.Discovery
