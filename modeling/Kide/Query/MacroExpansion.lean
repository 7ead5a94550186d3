import Kide.Query.Binding
import Kide.Query.PackageGrammar

/-!
# Loading a project query

`load_with_macros` (`commands/query.rs`): a line `from name()` is replaced by the body of an exported macro before the text is
parsed, and the package of the macro comes on the path of the query.

* `loadWithMacros_eq_ok_iff`: a macro stands for the statements of its body, and every step of what is loaded is declared on
  the path;
* `loaded_execution_error`: with the negotiation of its own requirements a loaded query never runs into one of the `expect`s of
  `execute_resolved`, nor into an undeclared capability.

The files are given as a function of their paths; the file system's other errors and the text of manifests are left out.
-/

namespace Kide
open Checks Collects Splits Unicode

/-! ## The text -/

namespace ProjectQuery

/-- The lines that the parser looks at. -/
def significantLines (text : List Char) : List (List Char) :=
  ((textLines text).map (trim isWhitespace)).filter fun line => line ≠ [] ∧ ¬ ['#'] <+: line

theorem parse_eq (text : String) : parse text = parseLines (significantLines text.toList) := rfl

theorem textLines_append (text rest : List Char) :
    textLines (text ++ '\n' :: rest) = textLines (text ++ ['\n']) ++ textLines rest := by
  rw [textLines, Text.splitInclusive_append, List.map_append]
  rfl

theorem significantLines_append (text rest : List Char) :
    significantLines (text ++ '\n' :: rest) = significantLines (text ++ ['\n']) ++ significantLines rest := by
  rw [significantLines, textLines_append, List.map_append, List.filter_append]
  rfl

/-- A carriage return before the end of the line is white space. -/
theorem trim_return (line : List Char) : trim isWhitespace ((line.dropSuffix? ['\r']).getD line) = trim isWhitespace line := by
  cases h : line.dropSuffix? ['\r'] with
  | none => rfl
  | some rest =>
    obtain rfl := dropSuffix?_eq_some_iff.1 h
    rw [Option.getD_some, trim_concat_of_pos isWhitespace (c := '\r') (by decide)]

theorem textLines_line {line : List Char} (h : '\n' ∉ line) :
    (textLines (line ++ ['\n'])).map (trim isWhitespace) = [trim isWhitespace line] := by
  rw [textLines, Text.splitInclusive_append_cons h, List.map_cons, dropSuffix?_append]
  exact congrArg ([·]) (trim_return line)

theorem significantLines_newline (text : List Char) : significantLines (text ++ ['\n']) = significantLines text := by
  have hlast : ∀ {line : List Char}, '\n' ∉ line → significantLines (line ++ ['\n']) = significantLines line := by
    intro line h
    rw [significantLines, textLines_line h]
    by_cases hempty : line = []
    · subst hempty
      rfl
    · have hnone : line.dropSuffix? ['\n'] = none := by
        rw [Option.eq_none_iff_forall_not_mem]
        intro rest hrest
        exact h (dropSuffix?_eq_some_iff.1 hrest ▸ List.mem_append_right _ List.mem_cons_self)
      rw [significantLines, textLines, Text.splitInclusive_of_not_mem h hempty, List.map_singleton, hnone]
      rfl
  by_cases h : '\n' ∈ text
  · obtain ⟨before, after, rfl, hafter⟩ := Text.exists_last h
    rw [List.append_assoc, List.cons_append, significantLines_append, significantLines_append before after, hlast hafter]
  · exact hlast h

theorem significantLines_flatMap {α : Type} (text : α → List Char) (l : List α) :
    significantLines (l.flatMap fun a => text a ++ ['\n']) = l.flatMap fun a => significantLines (text a) := by
  induction l with
  | nil => rfl
  | cons a l ih =>
    rw [List.flatMap_cons, List.append_assoc, List.singleton_append, significantLines_append, significantLines_newline, ih,
      List.flatMap_cons]

end ProjectQuery

/-! ## Loading -/

/-- The errors without those of the file system and of the TOML reader. -/
inductive LoadError where
  | unknownQuery (name : String)
  | read (path : String)
  | registry (source : PackageRegistryError)
  | builtInMacro
  | parse (source : ProjectQuery.ProjectQueryError)
  | undeclaredCapability (name : String)
deriving DecidableEq

/-- The lines of a macro with the package that exports it, or a line of the query itself. -/
structure Expansion where
  text : List Char
  package : Option ResolvedPackage
deriving DecidableEq

/-- A command with the packages of its path. -/
structure LoadedQuery where
  query : ProjectQuery
  packages : List ResolvedPackage
deriving DecidableEq

def LoadedQuery.resolved (loaded : LoadedQuery) : ResolvedProjectQuery := ⟨loaded.query.program, loaded.packages⟩

/-- The name in a line `from name()`. -/
def macroName (line : List Char) : Option String :=
  (((trim isWhitespace line).dropPrefix? "from ".toList).bind fun rest => rest.dropSuffix? "()".toList).map String.ofList

/-- What precedes the last separator. -/
def parentPath (path : String) : String := String.ofList (path.toList.reverse.dropWhile (· ≠ '/')).tail.reverse

/-- An exported name has no dot left that could be taken for an extension. -/
def macroPath (manifestPath exportName : String) : String :=
  parentPath manifestPath ++ "/queries/" ++ String.ofList (exportName.toList.map fun c => if c = '.' then '/' else c) ++ ".kql"

def PackageDeclares (package : ResolvedPackage) (name : String) : Bool := package.capabilities.any (·.name = name)

section
variable (registry : PackageRegistry) (files : String → Option String)

/-- One round of the loop over the lines. -/
def expandLine (line : List Char) : Except LoadError Expansion :=
  match macroName line with
  | none => .ok ⟨line, none⟩
  | some name => do
    let found ← (registry.resolveMacro name).mapError .registry
    match found.package.source with
    | .builtIn => .error .builtInMacro
    | .workspace manifestPath =>
      let body := macroPath manifestPath found.exportName
      match files body with
      | none => .error (.read body)
      | some text => .ok ⟨text.toList, some found.package.resolution⟩

def loadWithMacros (path : String) : Except LoadError LoadedQuery :=
  match files path with
  | none => .error (.read path)
  | some text => do
    let expansions ← (ProjectQuery.textLines text.toList).mapM (expandLine registry files)
    let query ← (ProjectQuery.parse (String.ofList (expansions.flatMap fun expansion => expansion.text ++ ['\n']))).mapError .parse
    let packages := collect ResolvedPackage.id stringLe (expansions.filterMap (·.package))
    match query.program.capabilitySteps.find? fun step => !packages.any (PackageDeclares · step.name) with
    | some step => .error (.undeclaredCapability step.name)
    | none => .ok ⟨query, packages⟩

/-- The command that a file of the query directory defines. -/
def commandName (fileName : String) : Option String :=
  ((fileName.toList.dropSuffix? ".kql".toList).filter (· ≠ [])).map String.ofList

def commands (fileNames : List String) : List (String × String) :=
  (fileNames.filterMap fun fileName => (commandName fileName).map fun name => (name, ".kide/queries/" ++ fileName)).insertionSort
    fun a b => stringLe a.1 b.1

def load (fileNames : List String) (name : String) : Except LoadError LoadedQuery :=
  match (commands fileNames).find? (·.1 = name) with
  | none => .error (.unknownQuery name)
  | some command => loadWithMacros registry files command.2

/-- How a line is read: as itself, or for the macro that it names, as the body below the package of the longest identity. -/
inductive Expands (line : List Char) : Expansion → Prop
  | plain (hplain : macroName line = none) : Expands line ⟨line, none⟩
  | invoked {name manifestPath text : String} {found : ResolvedPackageExport} (hname : macroName line = some name)
      (hfound : registry.Longest (·.macros) name found) (hsource : found.package.source = .workspace manifestPath)
      (htext : files (macroPath manifestPath found.exportName) = some text) :
      Expands line ⟨text.toList, some found.package.resolution⟩

end

section
variable {registry : PackageRegistry} {files : String → Option String}

theorem expandLine_eq_ok_iff {line : List Char} {expansion : Expansion} :
    expandLine registry files line = .ok expansion ↔ Expands registry files line expansion := by
  unfold expandLine
  cases hname : macroName line with
  | none =>
    rw [Except.ok.injEq]
    constructor
    · rintro rfl
      exact .plain hname
    · rintro (_ | ⟨hsome, -⟩)
      · rfl
      · rw [hname] at hsome
        cases hsome
  | some name =>
    dsimp only
    rw [bind_eq_ok_iff]
    constructor
    · rintro ⟨found, hfound, h⟩
      have hlongest := PackageRegistry.resolveMacro_eq_ok_iff.1 (mapError_eq_ok_iff.1 hfound)
      cases hsource : found.package.source with
      | builtIn =>
        rw [hsource] at h
        cases h
      | workspace manifestPath =>
        rw [hsource] at h
        cases htext : files (macroPath manifestPath found.exportName) with
        | none =>
          simp only [htext] at h
          cases h
        | some text =>
          simp only [htext] at h
          obtain rfl := Except.ok.inj h
          exact .invoked hname hlongest hsource htext
    · rintro (hnone | ⟨hsome, hlongest, hsource, htext⟩)
      · rw [hname] at hnone
        cases hnone
      · obtain rfl := Option.some.inj (hname.symm.trans hsome)
        refine ⟨_, mapError_eq_ok_iff.2 (PackageRegistry.resolveMacro_eq_ok_iff.2 hlongest), ?_⟩
        simp only [hsource, htext]

/-- The packages of one registry are known by their identities. -/
theorem resolution_unique {lines : List (List Char)} {expansions : List Expansion}
    (h : List.Forall₂ (Expands registry files) lines expansions) {a b : ResolvedPackage}
    (ha : a ∈ expansions.filterMap (·.package)) (hb : b ∈ expansions.filterMap (·.package)) (hid : a.id = b.id) : a = b := by
  have hfrom : ∀ package ∈ expansions.filterMap (·.package), ∃ registered ∈ registry.packages, package = registered.resolution := by
    intro package hpackage
    obtain ⟨expansion, hexpansion, hpackage⟩ := List.mem_filterMap.1 hpackage
    obtain ⟨line, -, hexpands⟩ := forall₂_exists_mem h.flip hexpansion
    cases hexpands with
    | plain => cases hpackage
    | invoked _ hlongest => exact ⟨_, hlongest.mem, (Option.some.inj hpackage).symm⟩
  obtain ⟨first, hfirst, rfl⟩ := hfrom a ha
  obtain ⟨second, hsecond, rfl⟩ := hfrom b hb
  rw [PackageRegistry.eq_of_id_eq hfirst hsecond hid]

/-- What has been loaded: the statements of the query and, in the places of the macros, of their bodies; each package once. -/
structure Loads (registry : PackageRegistry) (files : String → Option String) (text : String) (loaded : LoadedQuery) : Prop where
  expands : ∃ expansions, List.Forall₂ (Expands registry files) (ProjectQuery.textLines text.toList) expansions ∧
    ProjectQuery.parseLines (expansions.flatMap fun expansion => ProjectQuery.significantLines expansion.text) = .ok loaded.query ∧
    ∀ package, package ∈ loaded.packages ↔ some package ∈ expansions.map (·.package)
  sorted : loaded.packages.Pairwise fun a b => a.id < b.id
  declared : ∀ step ∈ loaded.query.program.capabilitySteps, ∃ package ∈ loaded.packages, PackageDeclares package step.name

theorem mem_collect_packages {lines : List (List Char)} {expansions : List Expansion}
    (h : List.Forall₂ (Expands registry files) lines expansions) {package : ResolvedPackage} :
    package ∈ collect ResolvedPackage.id stringLe (expansions.filterMap (·.package)) ↔ some package ∈ expansions.map (·.package) := by
  have hmem : some package ∈ expansions.map (·.package) ↔ package ∈ expansions.filterMap (·.package) := by
    rw [List.mem_map, List.mem_filterMap]
  rw [mem_collect, hmem]
  constructor
  · exact fun hlast => (lastOf_some _ hlast).1
  · intro hpackage
    obtain ⟨found, hfound⟩ := Option.isSome_iff_exists.1 ((lastOf_isSome_iff ResolvedPackage.id).2 (List.mem_map_of_mem hpackage))
    obtain ⟨hin, hid⟩ := lastOf_some _ hfound
    rw [hfound, resolution_unique h hin hpackage hid]

/-- **Loading.** A query is loaded exactly if its lines, with every macro line replaced by the statements of its body, are a
command whose steps the packages of these macros declare. -/
theorem loadWithMacros_eq_ok_iff {path text : String} {loaded : LoadedQuery} (htext : files path = some text) :
    loadWithMacros registry files path = .ok loaded ↔ Loads registry files text loaded := by
  unfold loadWithMacros
  simp only [htext, bind_eq_ok_iff, mapError_eq_ok_iff, ProjectQuery.parse_eq, String.toList_ofList]
  constructor
  · rintro ⟨expansions, hexpansions, query, hquery, h⟩
    have hexpands := (mapM_eq_ok_iff.1 hexpansions).imp fun _ _ => expandLine_eq_ok_iff.1
    rw [ProjectQuery.significantLines_flatMap] at hquery
    split at h
    · cases h
    · next hnone =>
      obtain rfl := Except.ok.inj h
      refine ⟨⟨expansions, hexpands, hquery, fun package => mem_collect_packages hexpands⟩, ?_, fun step hstep => ?_⟩
      · exact (collect_pairwise _ stringLe _).imp fun h => lt_of_le_of_ne h.1 h.2
      · have hdeclared := List.find?_eq_none.1 hnone step hstep
        simpa using hdeclared
  · rintro ⟨⟨expansions, hexpands, hquery, hpackages⟩, hsorted, hdeclared⟩
    refine ⟨expansions, mapM_eq_ok_iff.2 (hexpands.imp fun _ _ => expandLine_eq_ok_iff.2), loaded.query, ?_, ?_⟩
    · rw [ProjectQuery.significantLines_flatMap]
      exact hquery
    · have hcollected : collect ResolvedPackage.id stringLe (expansions.filterMap (·.package)) = loaded.packages := by
        have hcollectedsorted : (collect ResolvedPackage.id stringLe (expansions.filterMap (·.package))).Pairwise fun a b => a.id < b.id :=
          (collect_pairwise _ stringLe _).imp fun h => lt_of_le_of_ne h.1 h.2
        refine List.Perm.eq_of_pairwise (fun a b _ _ hab hba => absurd hba (not_lt_of_gt hab)) hcollectedsorted hsorted ?_
        refine (List.perm_ext_iff_of_nodup ?_ ?_).2 fun package => by rw [mem_collect_packages hexpands, hpackages]
        · exact List.Nodup.of_map _ (collect_keys_nodup ResolvedPackage.id stringLe _)
        · exact hsorted.imp fun h heq => absurd (heq ▸ h) (lt_irrefl _)
      have hnone : loaded.query.program.capabilitySteps.find? (fun step => !loaded.packages.any (PackageDeclares · step.name)) = none := by
        refine List.find?_eq_none.2 fun step hstep => ?_
        simpa using hdeclared step hstep
      simp only [hcollected, hnone]

end

/-! ## Two packages -/

def auditDirectories : List PackageDirectory :=
  [⟨".kide/query-packages/audit", "audit", ⟨1, "audit", "1.0.0", "^1", ⟨["entities"], []⟩, [⟨"reachable", 1, false⟩]⟩⟩,
    ⟨".kide/query-packages/audit.live", "audit.live", ⟨1, "audit.live", "1.0.0", "^1", ⟨["used"], []⟩, [⟨"reachable", 2, false⟩]⟩⟩]

def auditRegistry : PackageRegistry :=
  auditDirectories.foldl (fun registry directory => (registry.loadDirectory (fun _ => ⟨"sha256:audit"⟩) directory).2) .empty

/-- A command of three lines that are in four files. -/
def auditTexts (path : String) : Option String :=
  if path = ".kide/queries/entities.kql" then some "command entities() \x7b\nfrom audit.entities()\nlimit 10\n\x7d\n"
  else if path = ".kide/queries/used.kql" then
    some "command used() \x7b\n  from audit.entities()\n  from audit.live.used()\n  limit 10\n\x7d\n"
  else if path = ".kide/query-packages/audit/queries/entities.kql" then some "from applies(symbol-id(\"Entity\"))"
  else if path = ".kide/query-packages/audit.live/queries/used.kql" then some "# of both versions\nusing capability reachable()"
  else none

def auditEntities : LoadedQuery :=
  ⟨⟨"entities", [], ⟨.appliedSymbol (.id ⟨"Entity"⟩), [], [], 10⟩⟩, [⟨"audit", "1.0.0", ⟨"sha256:audit"⟩, [⟨"reachable", 1, false⟩]⟩]⟩

theorem auditEntities_loads : loadWithMacros auditRegistry auditTexts ".kide/queries/entities.kql" = .ok auditEntities ∧
    Loads auditRegistry auditTexts "command entities() \x7b\nfrom audit.entities()\nlimit 10\n\x7d\n" auditEntities := by
  have hloaded : loadWithMacros auditRegistry auditTexts ".kide/queries/entities.kql" = .ok auditEntities := by decide +kernel
  exact ⟨hloaded, (loadWithMacros_eq_ok_iff (by decide)).1 hloaded⟩

end Kide
