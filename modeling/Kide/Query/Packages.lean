import Kide.Lib.Distinct
import Kide.Lib.Paths
import Kide.Lib.Split
import Kide.Query.ProjectQuery

/-!
# Query packages

The registry of declarative query packages (`query_package.rs`): manifests are checked, registered under their identity and
found again by the names they export. The text of a manifest is already parsed, and its canonical digest is a parameter.

* `validateManifest_eq_ok_iff` : what an accepted manifest looks like;
* `resolveExport_eq_ok_iff` : a name belongs to the longest package identity it begins with;
* `insertion_atomic_iff` : the map is written before the duplicate is noticed, so a refused insertion leaves the registry
  alone only where it brings nothing new.
-/

namespace Kide
open Checks Collects Splits

def PACKAGE_MANIFEST_FORMAT : Nat := 1

def PACKAGE_CORE_API_VERSION : String := "^1"

structure PackageExports where
  macros : List String
  commands : List String
deriving DecidableEq, Repr

/-- The identity and the exports of a query package. -/
structure PackageManifest where
  format : Nat
  id : String
  version : String
  requiresCore : String
  exports : PackageExports
  capabilities : List PackageCapability
deriving DecidableEq, Repr

inductive PackageSource where
  | builtIn
  | workspace (manifestPath : String)
deriving DecidableEq, Repr

/-- The errors without those of the file system and of the TOML reader. -/
inductive PackageRegistryError where
  | invalidManifest (path reason : String)
  | directoryIdMismatch (directory id : String)
  | duplicatePackage (id : String)
  | unknownExport (name : String)
deriving DecidableEq, Repr

/-! ## Manifests -/

/-- Segments between dots, none of them empty, of the allowed characters. -/
def dottedName (allowed : Char → Bool) (value : List Char) : Bool :=
  value ≠ [] ∧ (split ['.'] value).all fun segment => segment ≠ [] ∧ segment.all allowed

def nameChar (c : Char) : Bool := c.isLower || c.isDigit || c == '-'

def isDottedName (value : String) : Bool := dottedName nameChar value.toList

def isCapabilityName (value : String) : Bool := dottedName (fun c => nameChar c || c == '_') value.toList

def isSemver (value : String) : Bool :=
  (split ['.'] value.toList).length = 3 ∧ (split ['.'] value.toList).all fun part => part ≠ [] ∧ part.all Char.isDigit

/-- The loop over the names, with those already seen. -/
def validateNames (label : String) (seen : List String) : List String → Except String Unit
  | [] => .ok ()
  | name :: names =>
    if !isDottedName name then .error (label ++ " name `" ++ name ++ "` must be an ASCII lower-case dotted name")
    else if name ∈ seen then .error (label ++ " name `" ++ name ++ "` is declared more than once")
    else validateNames label (name :: seen) names

def validateCapabilities (seen : List String) : List PackageCapability → Except String Unit
  | [] => .ok ()
  | capability :: capabilities =>
    if !isCapabilityName capability.name then
      .error ("capability `" ++ capability.name ++ "` must be an ASCII lower-case dotted name")
    else if capability.name ∈ seen then .error ("capability `" ++ capability.name ++ "` is declared more than once")
    else if capability.version = 0 then .error ("capability `" ++ capability.name ++ "` version must be positive")
    else validateCapabilities (capability.name :: seen) capabilities

def validateManifest (manifest : PackageManifest) : Except String Unit := do
  reject (manifest.format ≠ PACKAGE_MANIFEST_FORMAT) "format must be 1"
  reject (manifest.requiresCore ≠ PACKAGE_CORE_API_VERSION) "requires_core must be `^1`"
  reject (isDottedName manifest.id = false) "id must be an ASCII lower-case dotted name"
  reject (isSemver manifest.version = false) "version must be a semantic version such as `1.0.0`"
  validateNames "exports.macros" [] manifest.exports.macros
  validateNames "exports.commands" [] manifest.exports.commands
  validateCapabilities [] manifest.capabilities

/-- An accepted manifest. -/
structure PackageManifest.Valid (manifest : PackageManifest) : Prop where
  format : manifest.format = PACKAGE_MANIFEST_FORMAT
  requiresCore : manifest.requiresCore = PACKAGE_CORE_API_VERSION
  id : isDottedName manifest.id = true
  version : isSemver manifest.version = true
  macros : (∀ name ∈ manifest.exports.macros, isDottedName name = true) ∧ manifest.exports.macros.Nodup
  commands : (∀ name ∈ manifest.exports.commands, isDottedName name = true) ∧ manifest.exports.commands.Nodup
  capabilities : (∀ capability ∈ manifest.capabilities, isCapabilityName capability.name = true ∧ capability.version ≠ 0) ∧
    (manifest.capabilities.map (·.name)).Nodup

theorem validateNames_eq_ok_iff {label : String} {seen names : List String} : validateNames label seen names = .ok () ↔
    (∀ name ∈ names, isDottedName name = true) ∧ names.Nodup ∧ ∀ name ∈ names, name ∉ seen := by
  induction names generalizing seen with
  | nil => simp [validateNames]
  | cons name names ih =>
    rw [validateNames]
    by_cases hname : isDottedName name = true
    · rw [if_neg (by simp [hname])]
      by_cases hseen : name ∈ seen
      · rw [if_pos hseen]
        exact ⟨(by intro h; cases h), fun h => absurd hseen (h.2.2 name List.mem_cons_self)⟩
      · rw [if_neg hseen, ih]
        grind
    · rw [if_pos (by simpa using hname)]
      exact ⟨(by intro h; cases h), fun h => absurd (h.1 name List.mem_cons_self) hname⟩

theorem validateCapabilities_eq_ok_iff {seen : List String} {capabilities : List PackageCapability} :
    validateCapabilities seen capabilities = .ok () ↔
      (∀ capability ∈ capabilities, isCapabilityName capability.name = true ∧ capability.version ≠ 0) ∧
        (capabilities.map (·.name)).Nodup ∧ ∀ capability ∈ capabilities, capability.name ∉ seen := by
  induction capabilities generalizing seen with
  | nil => simp [validateCapabilities]
  | cons capability capabilities ih =>
    rw [validateCapabilities]
    by_cases hname : isCapabilityName capability.name = true
    · rw [if_neg (by simp [hname])]
      by_cases hseen : capability.name ∈ seen
      · rw [if_pos hseen]
        exact ⟨(by intro h; cases h), fun h => absurd hseen (h.2.2 capability List.mem_cons_self)⟩
      · rw [if_neg hseen]
        by_cases hversion : capability.version = 0
        · rw [if_pos hversion]
          exact ⟨(by intro h; cases h), fun h => absurd hversion (h.1 capability List.mem_cons_self).2⟩
        · rw [if_neg hversion, ih]
          simp only [List.map_cons, List.nodup_cons, List.mem_map, List.mem_cons, not_or]
          grind
    · rw [if_pos (by simpa using hname)]
      exact ⟨(by intro h; cases h), fun h => absurd (h.1 capability List.mem_cons_self).1 hname⟩

theorem validateManifest_eq_ok_iff {manifest : PackageManifest} : validateManifest manifest = .ok () ↔ manifest.Valid := by
  simp only [validateManifest, then_eq_ok_iff, reject_eq_ok_iff, not_not, Bool.not_eq_false, validateNames_eq_ok_iff,
    validateCapabilities_eq_ok_iff, List.not_mem_nil, not_false_eq_true, implies_true, and_true]
  constructor
  · rintro ⟨hformat, hcore, hid, hversion, hmacros, hcommands, hcapabilities⟩
    exact ⟨hformat, hcore, hid, hversion, hmacros, hcommands, hcapabilities⟩
  · rintro ⟨hformat, hcore, hid, hversion, hmacros, hcommands, hcapabilities⟩
    exact ⟨hformat, hcore, hid, hversion, hmacros, hcommands, hcapabilities⟩

/-! ## The registry -/

/-- Validated package data. -/
structure RegisteredPackage where
  manifest : PackageManifest
  manifestDigest : Fingerprint
  source : PackageSource
  valid : validateManifest manifest = .ok ()
deriving DecidableEq

def RegisteredPackage.id (package : RegisteredPackage) : String := package.manifest.id

/-- The values of the map in the order of their identities. -/
structure PackageRegistry where
  packages : List RegisteredPackage
  sorted : packages.Pairwise fun a b => a.id < b.id
deriving DecidableEq

namespace PackageRegistry

def empty : PackageRegistry := ⟨[], List.Pairwise.nil⟩

def package (registry : PackageRegistry) (id : String) : Option RegisteredPackage := lastOf RegisteredPackage.id registry.packages id

/-- `BTreeMap::insert` -/
def put (registry : PackageRegistry) (package : RegisteredPackage) : PackageRegistry where
  packages := collect RegisteredPackage.id stringLe (registry.packages ++ [package])
  sorted := (collect_pairwise _ stringLe _).imp fun h => lt_of_le_of_ne h.1 h.2

def insert (package : RegisteredPackage) (registry : PackageRegistry) : Except PackageRegistryError Unit × PackageRegistry :=
  (if (registry.package package.id).isSome then .error (.duplicatePackage package.id) else .ok (), registry.put package)

variable (digest : PackageManifest → Fingerprint)

def registerBuiltin (manifest : PackageManifest) (registry : PackageRegistry) : Except PackageRegistryError Unit × PackageRegistry :=
  match h : validateManifest manifest with
  | .error reason => (.error (.invalidManifest "<builtin>" reason), registry)
  | .ok () => insert ⟨manifest, digest manifest, .builtIn, h⟩ registry

end PackageRegistry

/-- A directory below `.kide/query-packages` with its manifest. -/
structure PackageDirectory where
  path : String
  fileName : String
  manifest : PackageManifest
deriving DecidableEq, Repr

def PackageDirectory.manifestPath (directory : PackageDirectory) : String := directory.path ++ "/package.toml"

namespace PackageRegistry

variable (digest : PackageManifest → Fingerprint)

/-- One round of `load_workspace_into`. -/
def loadDirectory (directory : PackageDirectory) (registry : PackageRegistry) : Except PackageRegistryError Unit × PackageRegistry :=
  match h : validateManifest directory.manifest with
  | .error reason => (.error (.invalidManifest directory.manifestPath reason), registry)
  | .ok () =>
    if directory.fileName ≠ directory.manifest.id then
      (.error (.directoryIdMismatch directory.path directory.manifest.id), registry)
    else insert ⟨directory.manifest, digest directory.manifest, .workspace directory.manifestPath, h⟩ registry

end PackageRegistry

structure ResolvedPackageExport where
  package : RegisteredPackage
  exportName : String
deriving DecidableEq

/-- The rest of a name behind a package identity and a dot. -/
def exportSuffix (id name : String) : Option String :=
  ((name.toList.dropPrefix? id.toList).bind fun suffix => suffix.dropPrefix? ['.']).map String.ofList

/-- The longer identity first. -/
def ResolvedPackageExport.longerFirst (a b : ResolvedPackageExport) : Prop :=
  b.package.id.utf8ByteSize ≤ a.package.id.utf8ByteSize

instance : DecidableRel ResolvedPackageExport.longerFirst := fun a b =>
  inferInstanceAs (Decidable (b.package.id.utf8ByteSize ≤ a.package.id.utf8ByteSize))

namespace PackageRegistry

variable (registry : PackageRegistry)

def candidates (name : String) (exported : PackageExports → List String) : List ResolvedPackageExport :=
  registry.packages.filterMap fun package =>
    ((exportSuffix package.id name).filter fun suffix => suffix ≠ "" ∧ suffix ∈ exported package.manifest.exports).map
      fun suffix => ⟨package, suffix⟩

def resolveExport (name : String) (exported : PackageExports → List String) : Except PackageRegistryError ResolvedPackageExport :=
  match ((registry.candidates name exported).insertionSort ResolvedPackageExport.longerFirst).head? with
  | some found => .ok found
  | none => .error (.unknownExport name)

def resolveMacro (name : String) : Except PackageRegistryError ResolvedPackageExport := registry.resolveExport name (·.macros)

def resolveCommand (name : String) : Except PackageRegistryError ResolvedPackageExport := registry.resolveExport name (·.commands)

end PackageRegistry

/-! ## Lookup -/

theorem exportSuffix_eq_some_iff {id name suffix : String} : exportSuffix id name = some suffix ↔ name = id ++ "." ++ suffix := by
  simp only [exportSuffix, Option.map_eq_some_iff, Option.bind_eq_some_iff, dropPrefix?_eq_some_iff]
  constructor
  · rintro ⟨rest, ⟨_, hname, rfl⟩, rfl⟩
    rw [← String.toList_inj, hname]
    simp
  · rintro rfl
    refine ⟨suffix.toList, ⟨['.'] ++ suffix.toList, ?_, rfl⟩, String.ofList_toList⟩
    rw [String.toList_append, String.toList_append, List.append_assoc]
    rfl

namespace PackageRegistry

/-- The package exports what follows its identity in the name, and no longer identity does. -/
structure Longest (registry : PackageRegistry) (exported : PackageExports → List String) (name : String)
    (found : ResolvedPackageExport) : Prop where
  mem : found.package ∈ registry.packages
  name_eq : name = found.package.id ++ "." ++ found.exportName
  exports : found.exportName ∈ exported found.package.manifest.exports
  longest : ∀ package ∈ registry.packages, ∀ rest ∈ exported package.manifest.exports, name = package.id ++ "." ++ rest →
    package.id.utf8ByteSize ≤ found.package.id.utf8ByteSize

theorem ids_nodup (registry : PackageRegistry) : (registry.packages.map RegisteredPackage.id).Nodup := by
  rw [List.Nodup, List.pairwise_map]
  exact registry.sorted.imp fun h => ne_of_lt h

theorem eq_of_id_eq {registry : PackageRegistry} {a b : RegisteredPackage} (ha : a ∈ registry.packages)
    (hb : b ∈ registry.packages) (h : a.id = b.id) : a = b := List.inj_on_of_nodup_map registry.ids_nodup ha hb h

/-- A registry is known by its packages. -/
theorem ext_mem {registry other : PackageRegistry} (h : ∀ package, package ∈ registry.packages ↔ package ∈ other.packages) :
    registry = other := by
  have hperm : registry.packages.Perm other.packages :=
    (List.perm_ext_iff_of_nodup (List.Nodup.of_map _ registry.ids_nodup) (List.Nodup.of_map _ other.ids_nodup)).2 h
  have heq := hperm.eq_of_pairwise (fun a b _ _ hab hba => absurd hba (not_lt_of_gt hab)) registry.sorted other.sorted
  cases registry
  cases other
  congr

section
variable {registry : PackageRegistry} {exported : PackageExports → List String} {name : String}

theorem mem_candidates {found : ResolvedPackageExport}
    (hexported : ∀ package ∈ registry.packages, "" ∉ exported package.manifest.exports) :
    found ∈ registry.candidates name exported ↔ found.package ∈ registry.packages ∧
      name = found.package.id ++ "." ++ found.exportName ∧ found.exportName ∈ exported found.package.manifest.exports := by
  simp only [candidates, List.mem_filterMap, Option.map_eq_some_iff, Option.filter_eq_some_iff, exportSuffix_eq_some_iff,
    decide_eq_true_eq]
  constructor
  · rintro ⟨package, hpackage, suffix, ⟨hname, -, hsuffix⟩, rfl⟩
    exact ⟨hpackage, hname, hsuffix⟩
  · rintro ⟨hpackage, hname, hsuffix⟩
    exact ⟨found.package, hpackage, found.exportName, ⟨hname, fun h => hexported _ hpackage (h ▸ hsuffix), hsuffix⟩, rfl⟩

/-- Two identities of one length before one name are the same. -/
theorem Longest.unique {found other : ResolvedPackageExport} (h : Longest registry exported name found)
    (hother : Longest registry exported name other) : found = other := by
  have hlength := le_antisymm (hother.longest _ h.mem _ h.exports h.name_eq) (h.longest _ hother.mem _ hother.exports hother.name_eq)
  have hname := congrArg String.toList (h.name_eq.symm.trans hother.name_eq)
  rw [String.toList_append, String.toList_append, String.toList_append, String.toList_append, List.append_assoc,
    List.append_assoc] at hname
  rw [Paths.utf8ByteSize_eq, Paths.utf8ByteSize_eq] at hlength
  obtain ⟨hid, hrest⟩ := Text.append_inj_of_byteLength hname hlength
  have hpackage := eq_of_id_eq h.mem hother.mem (String.toList_inj.1 hid)
  have hsuffix := String.toList_inj.1 (List.append_cancel_left hrest)
  cases found
  cases other
  exact congrArg₂ ResolvedPackageExport.mk hpackage hsuffix

theorem resolveExport_eq_ok_iff {found : ResolvedPackageExport}
    (hexported : ∀ package ∈ registry.packages, "" ∉ exported package.manifest.exports) :
    registry.resolveExport name exported = .ok found ↔ Longest registry exported name found := by
  have : Std.Total ResolvedPackageExport.longerFirst := ⟨fun _ _ => Nat.le_total _ _⟩
  have : IsTrans _ ResolvedPackageExport.longerFirst := ⟨fun _ _ _ hab hbc => Nat.le_trans hbc hab⟩
  have hmem : ∀ c, c ∈ (registry.candidates name exported).insertionSort ResolvedPackageExport.longerFirst ↔
      c.package ∈ registry.packages ∧ name = c.package.id ++ "." ++ c.exportName ∧
        c.exportName ∈ exported c.package.manifest.exports := fun c => by rw [List.mem_insertionSort, mem_candidates hexported]
  have hsorted := List.pairwise_insertionSort ResolvedPackageExport.longerFirst (registry.candidates name exported)
  unfold resolveExport
  revert hmem hsorted
  generalize (registry.candidates name exported).insertionSort ResolvedPackageExport.longerFirst = sorted
  intro hmem hsorted
  cases sorted with
  | nil =>
    refine ⟨(by intro h; cases h), fun h => ?_⟩
    cases (hmem found).2 ⟨h.mem, h.name_eq, h.exports⟩
  | cons first rest =>
    have hfirst : Longest registry exported name first := by
      obtain ⟨hpackage, hname, hsuffix⟩ := (hmem first).1 List.mem_cons_self
      refine ⟨hpackage, hname, hsuffix, fun package hpackage suffix hsuffix hname => ?_⟩
      rcases List.mem_cons.1 ((hmem ⟨package, suffix⟩).2 ⟨hpackage, hname, hsuffix⟩) with heq | hrest
      · rw [← heq]
      · exact (List.pairwise_cons.1 hsorted).1 _ hrest
    rw [List.head?_cons, Except.ok.injEq]
    constructor
    · rintro rfl
      exact hfirst
    · exact fun h => hfirst.unique h

theorem not_isDottedName_empty : isDottedName "" = false := by decide

theorem macros_nonempty (package : RegisteredPackage) : "" ∉ package.manifest.exports.macros := fun h => by
  have hname := (validateManifest_eq_ok_iff.1 package.valid).macros.1 "" h
  rw [not_isDottedName_empty] at hname
  cases hname

theorem commands_nonempty (package : RegisteredPackage) : "" ∉ package.manifest.exports.commands := fun h => by
  have hname := (validateManifest_eq_ok_iff.1 package.valid).commands.1 "" h
  rw [not_isDottedName_empty] at hname
  cases hname

theorem resolveMacro_eq_ok_iff {found : ResolvedPackageExport} :
    registry.resolveMacro name = .ok found ↔ Longest registry (·.macros) name found :=
  resolveExport_eq_ok_iff fun package _ => macros_nonempty package

theorem resolveCommand_eq_ok_iff {found : ResolvedPackageExport} :
    registry.resolveCommand name = .ok found ↔ Longest registry (·.commands) name found :=
  resolveExport_eq_ok_iff fun package _ => commands_nonempty package

end

/-! ## Insertions -/

section
variable {registry : PackageRegistry} {package other : RegisteredPackage}

theorem mem_put : other ∈ (registry.put package).packages ↔ other = package ∨ (other ∈ registry.packages ∧ other.id ≠ package.id) := by
  rw [put, mem_collect, lastOf_append_singleton]
  by_cases h : package.id = other.id
  · rw [if_pos h, Option.some.injEq, eq_comm]
    simp [h]
  · rw [if_neg h, lastOf_eq_some_iff _ registry.ids_nodup]
    constructor
    · exact fun hmem => .inr ⟨hmem.1, fun heq => h heq.symm⟩
    · rintro (rfl | ⟨hmem, -⟩)
      · exact absurd rfl h
      · exact ⟨hmem, rfl⟩

theorem put_eq_self_iff : registry.put package = registry ↔ package ∈ registry.packages := by
  constructor
  · intro h
    rw [← h]
    exact mem_put.2 (.inl rfl)
  · refine fun hmem => ext_mem fun other => ⟨?_, fun hother => ?_⟩
    · intro hother
      rcases mem_put.1 hother with rfl | ⟨hother, -⟩
      · exact hmem
      · exact hother
    · by_cases hid : other.id = package.id
      · exact mem_put.2 (.inl (eq_of_id_eq hother hmem hid))
      · exact mem_put.2 (.inr ⟨hother, hid⟩)

theorem insert_isOk_iff : (insert package registry).1.isOk = true ↔ package.id ∉ registry.packages.map RegisteredPackage.id := by
  rw [← lastOf_isSome_iff, insert, PackageRegistry.package]
  cases (lastOf RegisteredPackage.id registry.packages package.id).isSome <;> simp [Except.isOk, Except.toBool]

end

end PackageRegistry

inductive Insertion where
  | builtin (manifest : PackageManifest)
  | workspace (directory : PackageDirectory)
deriving DecidableEq

namespace Insertion

open PackageRegistry

variable (digest : PackageManifest → Fingerprint)

def run (registry : PackageRegistry) : Insertion → Except PackageRegistryError Unit × PackageRegistry
  | .builtin manifest => registerBuiltin digest manifest registry
  | .workspace directory => loadDirectory digest directory registry

/-- What an insertion brings, if its manifest is accepted and its directory has its name. -/
def accepted : Insertion → Option RegisteredPackage
  | .builtin manifest =>
    if h : validateManifest manifest = .ok () then some ⟨manifest, digest manifest, .builtIn, h⟩ else none
  | .workspace directory =>
    if h : validateManifest directory.manifest = .ok () then
      if directory.fileName = directory.manifest.id then
        some ⟨directory.manifest, digest directory.manifest, .workspace directory.manifestPath, h⟩
      else none
    else none

theorem registerBuiltin_of_valid {manifest : PackageManifest} (h : validateManifest manifest = .ok ()) (registry : PackageRegistry) :
    registerBuiltin digest manifest registry = insert ⟨manifest, digest manifest, .builtIn, h⟩ registry := by
  unfold registerBuiltin
  split
  · next hreason =>
    rw [h] at hreason
    cases hreason
  · rfl

theorem registerBuiltin_of_invalid {manifest : PackageManifest} (h : ¬ validateManifest manifest = .ok ())
    (registry : PackageRegistry) : ∃ error, registerBuiltin digest manifest registry = (.error error, registry) := by
  unfold registerBuiltin
  split
  · exact ⟨_, rfl⟩
  · next hvalid => exact absurd hvalid h

theorem loadDirectory_of_valid {directory : PackageDirectory} (h : validateManifest directory.manifest = .ok ())
    (hname : directory.fileName = directory.manifest.id) (registry : PackageRegistry) :
    loadDirectory digest directory registry =
      insert ⟨directory.manifest, digest directory.manifest, .workspace directory.manifestPath, h⟩ registry := by
  unfold loadDirectory
  split
  · next hreason =>
    rw [h] at hreason
    cases hreason
  · rw [if_neg (not_not.2 hname)]

theorem loadDirectory_of_invalid {directory : PackageDirectory}
    (h : ¬ (validateManifest directory.manifest = .ok () ∧ directory.fileName = directory.manifest.id)) (registry : PackageRegistry) :
    ∃ error, loadDirectory digest directory registry = (.error error, registry) := by
  unfold loadDirectory
  split
  · exact ⟨_, rfl⟩
  · next hvalid =>
    rw [if_pos fun hname => h ⟨hvalid, hname⟩]
    exact ⟨_, rfl⟩

/-- An insertion writes the package it brings, or nothing. -/
theorem run_eq (registry : PackageRegistry) (insertion : Insertion) :
    (∃ package, insertion.accepted digest = some package ∧ insertion.run digest registry = insert package registry) ∨
    (insertion.accepted digest = none ∧ ∃ error, insertion.run digest registry = (.error error, registry)) := by
  cases insertion with
  | builtin manifest =>
    by_cases h : validateManifest manifest = .ok ()
    · exact .inl ⟨_, dif_pos h, registerBuiltin_of_valid digest h registry⟩
    · exact .inr ⟨dif_neg h, registerBuiltin_of_invalid digest h registry⟩
  | workspace directory =>
    by_cases h : validateManifest directory.manifest = .ok ()
    · by_cases hname : directory.fileName = directory.manifest.id
      · exact .inl ⟨_, (dif_pos h).trans (if_pos hname), loadDirectory_of_valid digest h hname registry⟩
      · exact .inr ⟨(dif_pos h).trans (if_neg hname), loadDirectory_of_invalid digest (fun hboth => hname hboth.2) registry⟩
    · exact .inr ⟨dif_neg h, loadDirectory_of_invalid digest (fun hboth => h hboth.1) registry⟩

end Insertion

/-! ## Runs of insertions -/

namespace PackageRegistry

/-- The packages one after the other, over an empty registry. -/
def ofPackages (packages : List RegisteredPackage) : PackageRegistry := packages.foldl put empty

theorem mem_ofPackages {packages : List RegisteredPackage} {package : RegisteredPackage} :
    package ∈ (ofPackages packages).packages ↔ lastOf RegisteredPackage.id packages package.id = some package := by
  induction packages using List.reverseRecOn with
  | nil => simp [ofPackages, empty, lastOf]
  | append_singleton packages last ih =>
    rw [ofPackages, List.foldl_append, List.foldl_cons, List.foldl_nil, mem_put, lastOf_append_singleton]
    change _ ∨ (package ∈ (ofPackages packages).packages ∧ _) ↔ _
    rw [ih]
    by_cases h : last.id = package.id
    · rw [if_pos h, Option.some.injEq, eq_comm]
      simp [h]
    · rw [if_neg h]
      constructor
      · rintro (rfl | ⟨hlast, -⟩)
        · exact absurd rfl h
        · exact hlast
      · exact fun hlast => .inr ⟨hlast, fun heq => h heq.symm⟩

variable (digest : PackageManifest → Fingerprint)

def after (insertions : List Insertion) : PackageRegistry :=
  insertions.foldl (fun registry insertion => (insertion.run digest registry).2) empty

/-- The packages of the accepted manifests. -/
def inserted (insertions : List Insertion) : List RegisteredPackage := insertions.filterMap (Insertion.accepted digest)

/-- The packages whose insertion returned `Ok`. -/
def succeeded (registry : PackageRegistry) : List Insertion → List RegisteredPackage
  | [] => []
  | insertion :: insertions =>
    (if (insertion.run digest registry).1.isOk then (insertion.accepted digest).toList else []) ++
      succeeded (insertion.run digest registry).2 insertions

theorem after_append (insertions : List Insertion) (last : Insertion) :
    after digest (insertions ++ [last]) = (last.run digest (after digest insertions)).2 := by
  rw [after, List.foldl_append]
  rfl

/-- Also an insertion that fails writes its package. -/
theorem after_eq (insertions : List Insertion) : after digest insertions = ofPackages (inserted digest insertions) := by
  induction insertions using List.reverseRecOn with
  | nil => rfl
  | append_singleton insertions last ih =>
    rw [after_append, inserted, List.filterMap_append]
    rcases last.run_eq digest (after digest insertions) with ⟨package, haccepted, hrun⟩ | ⟨haccepted, error, hrun⟩
    · rw [hrun, List.filterMap_cons_some haccepted, ofPackages, List.foldl_append]
      change (after digest insertions).put package = (ofPackages (inserted digest insertions)).put package
      rw [ih]
    · rw [hrun, List.filterMap_cons_none haccepted, List.filterMap_nil, List.append_nil]
      exact ih

theorem put_ids {registry : PackageRegistry} {package : RegisteredPackage} (id : String) :
    id ∈ (registry.put package).packages.map RegisteredPackage.id ↔
      id = package.id ∨ id ∈ registry.packages.map RegisteredPackage.id := by
  simp only [List.mem_map, mem_put]
  constructor
  · rintro ⟨other, rfl | ⟨hmem, -⟩, rfl⟩
    · exact .inl rfl
    · exact .inr ⟨other, hmem, rfl⟩
  · rintro (rfl | ⟨other, hmem, rfl⟩)
    · exact ⟨package, .inl rfl, rfl⟩
    · by_cases h : other.id = package.id
      · exact ⟨package, .inl rfl, h.symm⟩
      · exact ⟨other, .inr ⟨hmem, h⟩, rfl⟩

/-- An insertion succeeds where its identity is new. -/
theorem succeeded_eq {seen : List String} {registry : PackageRegistry}
    (hseen : ∀ id, id ∈ seen ↔ id ∈ registry.packages.map RegisteredPackage.id) (insertions : List Insertion) :
    succeeded digest registry insertions = retainNew RegisteredPackage.id seen (inserted digest insertions) := by
  induction insertions generalizing registry seen with
  | nil => rfl
  | cons insertion insertions ih =>
    rw [succeeded]
    rcases insertion.run_eq digest registry with ⟨package, haccepted, hrun⟩ | ⟨haccepted, error, hrun⟩
    · rw [hrun, haccepted, inserted, List.filterMap_cons_some haccepted, retainNew]
      by_cases hnew : package.id ∈ seen
      · have hold : ¬ (insert package registry).1.isOk = true := by
          rw [insert_isOk_iff, not_not]
          exact (hseen _).1 hnew
        rw [if_neg hold, if_pos hnew, List.nil_append]
        refine ih fun id => ?_
        rw [insert, put_ids, ← hseen]
        exact ⟨.inr, fun h => h.elim (fun heq => heq ▸ hnew) fun hold => hold⟩
      · have hok : (insert package registry).1.isOk = true := by
          rw [insert_isOk_iff]
          exact fun h => hnew ((hseen _).2 h)
        rw [if_pos hok, if_neg hnew, Option.toList_some, List.singleton_append, List.cons.injEq]
        refine ⟨rfl, ih fun id => ?_⟩
        rw [insert, put_ids, ← hseen, List.mem_cons]
    · rw [hrun, inserted, List.filterMap_cons_none haccepted]
      exact ih hseen

/-- No insertion that fails changes the registry. -/
def Atomic (insertions : List Insertion) : Prop :=
  ∀ before insertion rest, insertions = before ++ insertion :: rest → ∀ error,
    (insertion.run digest (after digest before)).1 = .error error →
      (insertion.run digest (after digest before)).2 = after digest before

/-- A name means the longest registered identity that exports its rest. -/
def ResolvesLongest (registry : PackageRegistry) : Prop :=
  ∀ name found, (registry.resolveMacro name = .ok found ↔ Longest registry (·.macros) name found) ∧
    (registry.resolveCommand name = .ok found ↔ Longest registry (·.commands) name found)

/-- The successful insertions make the registry in every order. -/
def OrderFree (insertions : List Insertion) : Prop :=
  ∀ packages, packages.Perm (succeeded digest empty insertions) → ofPackages packages = after digest insertions

/-- No two accepted manifests bring different packages under one identity. -/
def OneEach (insertions : List Insertion) : Prop :=
  ∀ a ∈ inserted digest insertions, ∀ b ∈ inserted digest insertions, a.id = b.id → a = b

variable {digest} {insertions : List Insertion}

theorem OneEach.mem_after (h : OneEach digest insertions) {package : RegisteredPackage} :
    package ∈ (after digest insertions).packages ↔ package ∈ inserted digest insertions := by
  rw [after_eq, mem_ofPackages]
  constructor
  · exact fun hlast => (lastOf_some _ hlast).1
  · intro hmem
    obtain ⟨last, hlast⟩ := Option.isSome_iff_exists.1 ((lastOf_isSome_iff RegisteredPackage.id).2 (List.mem_map_of_mem hmem))
    obtain ⟨hin, hid⟩ := lastOf_some _ hlast
    rw [hlast, h last hin package hmem hid]

theorem OneEach.of_append {rest : List Insertion} (h : OneEach digest (insertions ++ rest)) : OneEach digest insertions := by
  have hsub : ∀ a ∈ inserted digest insertions, a ∈ inserted digest (insertions ++ rest) := fun a ha => by
    rw [inserted, List.filterMap_append]
    exact List.mem_append_left _ ha
  exact fun a ha b hb => h a (hsub a ha) b (hsub b hb)

theorem Atomic.of_append {rest : List Insertion} (h : Atomic digest (insertions ++ rest)) : Atomic digest insertions := by
  rintro before insertion others rfl
  exact h before insertion (others ++ rest) (by simp)

theorem OneEach.atomic (h : OneEach digest insertions) : Atomic digest insertions := by
  rintro before insertion rest rfl error herror
  have hbefore := h.of_append
  rcases insertion.run_eq digest (after digest before) with ⟨package, haccepted, hrun⟩ | ⟨-, _, hrun⟩
  · rw [hrun] at herror ⊢
    have hfails : ¬ (insert package (after digest before)).1.isOk = true := by simp [herror, Except.isOk, Except.toBool]
    rw [insert_isOk_iff, not_not] at hfails
    obtain ⟨other, hother, hid⟩ := List.mem_map.1 hfails
    refine put_eq_self_iff.2 ?_
    have hin : other ∈ inserted digest (before ++ insertion :: rest) := by
      rw [inserted, List.filterMap_append]
      exact List.mem_append_left _ (hbefore.mem_after.1 hother)
    have hnew : package ∈ inserted digest (before ++ insertion :: rest) :=
      List.mem_filterMap.2 ⟨insertion, by simp, haccepted⟩
    rwa [← h other hin package hnew hid]
  · rw [hrun]

/-- The first package that differs from the one registered under its identity is written all the same. -/
theorem Atomic.oneEach (h : Atomic digest insertions) : OneEach digest insertions := by
  induction insertions using List.reverseRecOn with
  | nil => exact fun a ha => by cases ha
  | append_singleton insertions last ih =>
    have hbefore := ih h.of_append
    rcases last.run_eq digest (after digest insertions) with ⟨package, haccepted, hrun⟩ | ⟨haccepted, -⟩
    · have hinserted : inserted digest (insertions ++ [last]) = inserted digest insertions ++ [package] := by
        rw [inserted, List.filterMap_append, List.filterMap_cons_some haccepted]
        rfl
      have hsame : ∀ other ∈ inserted digest insertions, other.id = package.id → other = package := by
        intro other hother hid
        have hregistered := hbefore.mem_after.2 hother
        have hfails : ¬ (insert package (after digest insertions)).1.isOk = true := by
          rw [insert_isOk_iff, not_not, ← hid]
          exact List.mem_map_of_mem hregistered
        obtain ⟨error, herror⟩ : ∃ error, (insert package (after digest insertions)).1 = .error error := by
          cases hresult : (insert package (after digest insertions)).1 with
          | error error => exact ⟨error, rfl⟩
          | ok _ => simp [hresult, Except.isOk, Except.toBool] at hfails
        have hunchanged := h insertions last [] rfl error (by rw [hrun]; exact herror)
        rw [hrun] at hunchanged
        exact eq_of_id_eq hregistered (put_eq_self_iff.1 hunchanged) hid
      intro a ha b hb hid
      rw [hinserted, List.mem_append, List.mem_singleton] at ha hb
      rcases ha with ha | rfl <;> rcases hb with hb | rfl
      · exact hbefore a ha b hb hid
      · exact hsame a ha hid
      · exact (hsame b hb hid.symm).symm
      · rfl
    · have hinserted : inserted digest (insertions ++ [last]) = inserted digest insertions := by
        rw [inserted, List.filterMap_append, List.filterMap_cons_none haccepted, List.filterMap_nil, List.append_nil]
        rfl
      intro a ha b hb
      rw [hinserted] at ha hb
      exact hbefore a ha b hb

theorem OneEach.orderFree (h : OneEach digest insertions) : OrderFree digest insertions := by
  intro packages hperm
  have hseen : ∀ id, id ∈ ([] : List String) ↔ id ∈ empty.packages.map RegisteredPackage.id := fun id => by simp [empty]
  have hsucceeded := succeeded_eq digest hseen insertions
  have hnodup : (packages.map RegisteredPackage.id).Nodup := by
    rw [(hperm.map _).nodup_iff, hsucceeded]
    exact retainNew_keys_nodup _ _ _
  refine ext_mem fun package => ?_
  rw [mem_ofPackages, lastOf_eq_some_iff _ hnodup, and_iff_left rfl, h.mem_after, hperm.mem_iff, hsucceeded]
  constructor
  · exact fun hmem => (retainNew_sublist _ _ _).subset hmem
  · intro hmem
    obtain ⟨kept, hkept, hid⟩ := List.mem_map.1 ((mem_retainNew_key RegisteredPackage.id [] _ package.id).2
      ⟨List.mem_map_of_mem hmem, List.not_mem_nil⟩)
    rwa [← h kept ((retainNew_sublist _ _ _).subset hkept) package hmem hid]

/-- **Registration.** A refused insertion leaves the registry alone, a name resolves to the longest identity, and the order
of the successful insertions does not matter, exactly in runs that bring one package under each identity. -/
theorem insertion_atomic_iff (digest : PackageManifest → Fingerprint) (insertions : List Insertion) :
    (Atomic digest insertions ∧ ResolvesLongest (after digest insertions) ∧ OrderFree digest insertions) ↔
      OneEach digest insertions :=
  ⟨fun h => h.1.oneEach, fun h => ⟨h.atomic, fun _ _ => ⟨resolveMacro_eq_ok_iff, resolveCommand_eq_ok_iff⟩, h.orderFree⟩⟩

/-- A built-in package in the given version. -/
def builtinVersion (version : String) : Insertion :=
  .builtin ⟨1, "spring.web", version, "^1", ⟨["controller"], []⟩, []⟩

/-- The second version is refused as a duplicate and registered. -/
theorem refused_version_registered :
    ¬ Atomic (fun manifest => ⟨manifest.version⟩) [builtinVersion "1.0.0", builtinVersion "2.0.0"] := by
  intro h
  have hsame : ∀ a ∈ inserted (fun manifest => ⟨manifest.version⟩) [builtinVersion "1.0.0", builtinVersion "2.0.0"],
      ∀ b ∈ inserted (fun manifest => ⟨manifest.version⟩) [builtinVersion "1.0.0", builtinVersion "2.0.0"],
        a.id = b.id → a = b := h.oneEach
  revert hsame
  decide +kernel

end PackageRegistry

end Kide
