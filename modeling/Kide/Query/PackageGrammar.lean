import Kide.Query.ProjectQueryLaw

/-!
# The names of packages in queries

The names that a manifest may declare and the names that a query may use have grammars of their own: a capability name may
have `_` in it (`isCapabilityName`), and the parser of queries does not accept it there (`validName`).

* `steps_valid_of_parse` : the steps of a parsed query have valid names;
* `requirementForStep_of_unique` : a step means the one declaration of its name on the path;
* `grammars_agree_iff` : what a package declares can be named exactly if no capability has `_` in its name. Its exports can
  always be named, by the id of the package.
-/

namespace Kide
open Checks Splits Unicode

namespace ProjectQuery

/-! ## Names of parsed queries -/

theorem parseCapabilityStep_valid {value : List Char} {step : QueryCapabilityStep} (h : parseCapabilityStep value = .ok step) :
    validName step.name.toList = true := by
  obtain ⟨cut, -, h⟩ := bind_eq_ok_iff.1 h
  obtain ⟨arguments, -, h⟩ := bind_eq_ok_iff.1 h
  obtain ⟨_, hvalid, h⟩ := bind_eq_ok_iff.1 h
  obtain ⟨_, -, h⟩ := bind_eq_ok_iff.1 h
  obtain rfl := Except.ok.inj h
  rw [String.toList_ofList]
  simpa using reject_eq_ok_iff.1 hvalid

/-- A statement adds at most one step, and that with a valid name. -/
theorem parseStatement_steps {read next : Statements} {line : List Char} (h : parseStatement read line = .ok next) :
    next.capabilitySteps = read.capabilitySteps ∨
      ∃ step, validName step.name.toList = true ∧ next.capabilitySteps = read.capabilitySteps ++ [step] := by
  unfold parseStatement at h
  split at h
  · obtain ⟨symbol, -, h⟩ := bind_eq_ok_iff.1 h
    obtain ⟨_, -, h⟩ := bind_eq_ok_iff.1 h
    exact .inl (congrArg Statements.capabilitySteps (Except.ok.inj h)).symm
  split at h
  · obtain ⟨terms, -, rfl⟩ := map_eq_ok_iff.1 h
    exact .inl rfl
  split at h
  · obtain ⟨step, hstep, rfl⟩ := map_eq_ok_iff.1 h
    exact .inr ⟨step, parseCapabilityStep_valid hstep, rfl⟩
  split at h
  · exact .inl (congrArg Statements.capabilitySteps (Except.ok.inj h)).symm
  split at h
  · obtain ⟨limit, -, rfl⟩ := map_eq_ok_iff.1 h
    exact .inl rfl
  · cases h

theorem parseStatements_valid {lines : List (List Char)} {read result : Statements} (h : lines.foldlM parseStatement read = .ok result)
    (hread : ∀ step ∈ read.capabilitySteps, validName step.name.toList = true) :
    ∀ step ∈ result.capabilitySteps, validName step.name.toList = true := by
  induction lines generalizing read with
  | nil =>
    obtain rfl := Except.ok.inj h
    exact hread
  | cons line lines ih =>
    obtain ⟨next, hnext, h⟩ := bind_eq_ok_iff.1 h
    refine ih h ?_
    rcases parseStatement_steps hnext with hsteps | ⟨step, hstep, hsteps⟩
    · rwa [hsteps]
    · rw [hsteps]
      exact List.forall_mem_append.2 ⟨hread, List.forall_mem_singleton.2 hstep⟩

theorem parseLines_valid {lines : List (List Char)} {query : ProjectQuery} (h : parseLines lines = .ok query) :
    ∀ step ∈ query.program.capabilitySteps, validName step.name.toList = true := by
  cases lines with
  | nil => cases h
  | cons header body =>
    obtain ⟨command, -, h⟩ := bind_eq_ok_iff.1 h
    obtain ⟨_, -, h⟩ := bind_eq_ok_iff.1 h
    obtain ⟨read, hread, h⟩ := bind_eq_ok_iff.1 h
    obtain ⟨start, -, h⟩ := bind_eq_ok_iff.1 h
    obtain ⟨limit, -, h⟩ := bind_eq_ok_iff.1 h
    obtain rfl := Except.ok.inj h
    exact parseStatements_valid hread (fun step hmem => absurd hmem List.not_mem_nil)

theorem steps_valid_of_parse {text : String} {query : ProjectQuery} (h : parse text = .ok query) :
    ∀ step ∈ query.program.capabilitySteps, validName step.name.toList = true := parseLines_valid h

/-! ## Names of capabilities -/

theorem dottedName_iff {allowed : Char → Bool} {value : List Char} : dottedName allowed value = true ↔
    value ≠ [] ∧ ∀ segment ∈ split ['.'] value, segment ≠ [] ∧ ∀ c ∈ segment, allowed c = true := by
  simp only [dottedName, Bool.decide_and, Bool.and_eq_true, decide_eq_true_eq, List.all_eq_true]

/-- Every character of a segment is one of the name. -/
theorem mem_of_mem_segment {value segment : List Char} (hsegment : segment ∈ split ['.'] value) {c : Char} (hc : c ∈ segment) :
    c ∈ value := by
  rw [split_singleton] at hsegment
  have hjoin : ['.'].intercalate (value.splitOn '.') = value := List.intercalate_splitOn '.'
  rw [← hjoin]
  exact mem_intercalate_of_mem hsegment hc

/-- The two grammars differ in one character. -/
theorem validName_iff_of_capability {name : String} (h : isCapabilityName name = true) :
    validName name.toList = true ↔ '_' ∉ name.toList := by
  constructor
  · exact fun hvalid => notMem_of_valid hvalid (by decide)
  · intro hnot
    obtain ⟨hne, hsegments⟩ := dottedName_iff.1 h
    refine dottedName_iff.2 ⟨hne, fun segment hsegment => ⟨(hsegments segment hsegment).1, fun c hc => ?_⟩⟩
    rcases Bool.or_eq_true_iff.1 ((hsegments segment hsegment).2 c hc) with hname | hunder
    · exact hname
    · rw [beq_iff_eq] at hunder
      exact absurd (hunder ▸ mem_of_mem_segment hsegment hc) hnot

end ProjectQuery

/-! ## Declarations on a path -/

/-- A step means the one declaration of its name. -/
theorem requirementForStep_of_unique {resolved : ResolvedProjectQuery} {capability : PackageCapability}
    (h : (resolved.packages.flatMap (·.capabilities)).filter (·.name = capability.name) = [capability]) :
    requirementForStep (requirements resolved) capability.name = .ok capability := by
  have hdeclared : ∀ declared, declared ∈ resolved.packages.flatMap (·.capabilities) ∧ declared.name = capability.name ↔
      declared = capability := fun declared => by
    have hmem : declared ∈ [capability] ↔ declared = capability := List.mem_singleton
    rw [← hmem, ← h, List.mem_filter, decide_eq_true_eq]
  have hfound : (requirements resolved).filter (·.name = capability.name) = [capability] := by
    unfold requirements
    generalize resolved.packages.flatMap (·.capabilities) = capabilities at hdeclared
    have hkeys : ((capabilities.map fun capability => (capability.name, capability.version)).dedup.insertionSort capabilityKeyLe).filter
        (fun key => key.1 = capability.name) = [(capability.name, capability.version)] := by
      refine List.perm_singleton.1 ((List.perm_ext_iff_of_nodup ?_ (List.nodup_singleton _)).2 fun key => ?_)
      · exact ((List.perm_insertionSort _ _).nodup_iff.2 (List.nodup_dedup _)).filter _
      · rw [List.mem_filter, List.mem_insertionSort, List.mem_dedup, List.mem_map, List.mem_singleton, decide_eq_true_eq]
        constructor
        · rintro ⟨⟨declared, hmem, rfl⟩, hname⟩
          rw [(hdeclared declared).1 ⟨hmem, hname⟩]
        · rintro rfl
          exact ⟨⟨capability, ((hdeclared capability).2 rfl).1, rfl⟩, rfl⟩
    have hrequired : (capabilities.any fun declared =>
        declared.name = capability.name ∧ declared.version = capability.version ∧ declared.required) = capability.required := by
      rw [Bool.eq_iff_iff, List.any_eq_true]
      constructor
      · rintro ⟨declared, hmem, hsame⟩
        rw [decide_eq_true_eq] at hsame
        rw [← (hdeclared declared).1 ⟨hmem, hsame.1⟩]
        exact hsame.2.2
      · exact fun hrequired => ⟨capability, ((hdeclared capability).2 rfl).1, by simpa using hrequired⟩
    rw [List.filter_map]
    change ((List.filter (fun key : String × Nat => decide (key.1 = capability.name)) _).map _) = _
    rw [hkeys, List.map_singleton]
    change [(⟨capability.name, capability.version, _⟩ : PackageCapability)] = _
    rw [hrequired]
  rw [requirementForStep, hfound]

namespace RegisteredPackage

variable (package : RegisteredPackage)

/-- `package_resolution` -/
def resolution : ResolvedPackage :=
  ⟨package.manifest.id, package.manifest.version, package.manifestDigest, package.manifest.capabilities⟩

/-- The package is on the path of a query, and no other package there declares the capability. -/
def OnlyDeclarer (name : String) (path : List ResolvedPackage) : Prop :=
  ∃ before after, path = before ++ package.resolution :: after ∧
    ∀ other ∈ before ++ after, ∀ declared ∈ other.capabilities, declared.name ≠ name

/-- Some query that is parsed has a step that means this declaration. -/
def Nameable (capability : PackageCapability) : Prop :=
  ∃ text query step, ProjectQuery.parse text = .ok query ∧ step ∈ query.program.capabilitySteps ∧
    ∀ path, package.OnlyDeclarer capability.name path →
      requirementForStep (requirements ⟨query.program, path⟩) step.name = .ok capability

/-- The name of an export behind the id of its package: it means this export, unless a longer id exports its rest. -/
def Resolves (exported : PackageExports → List String)
    (resolve : PackageRegistry → String → Except PackageRegistryError ResolvedPackageExport) : Prop :=
  ∀ registry : PackageRegistry, package ∈ registry.packages → ∀ name ∈ exported package.manifest.exports,
    (¬ ∃ longer ∈ registry.packages, package.id.utf8ByteSize < longer.id.utf8ByteSize ∧
      ∃ rest ∈ exported longer.manifest.exports, package.id ++ "." ++ name = longer.id ++ "." ++ rest) →
    resolve registry (package.id ++ "." ++ name) = .ok ⟨package, name⟩

def ExportsResolve : Prop :=
  package.Resolves (·.macros) PackageRegistry.resolveMacro ∧ package.Resolves (·.commands) PackageRegistry.resolveCommand

variable {package}

theorem exportsResolve : package.ExportsResolve := by
  have hlongest : ∀ exported : PackageExports → List String, ∀ registry : PackageRegistry, package ∈ registry.packages →
      ∀ name ∈ exported package.manifest.exports,
      (¬ ∃ longer ∈ registry.packages, package.id.utf8ByteSize < longer.id.utf8ByteSize ∧
        ∃ rest ∈ exported longer.manifest.exports, package.id ++ "." ++ name = longer.id ++ "." ++ rest) →
      registry.Longest exported (package.id ++ "." ++ name) ⟨package, name⟩ := by
    intro exported registry hpackage name hname hlonger
    refine ⟨hpackage, rfl, hname, fun longer hmem rest hrest heq => ?_⟩
    by_contra hnot
    exact hlonger ⟨longer, hmem, not_le.1 hnot, rest, hrest, heq⟩
  constructor
  · intro registry hpackage name hname hlonger
    exact PackageRegistry.resolveMacro_eq_ok_iff.2 (hlongest (·.macros) registry hpackage name hname hlonger)
  · intro registry hpackage name hname hlonger
    exact PackageRegistry.resolveCommand_eq_ok_iff.2 (hlongest (·.commands) registry hpackage name hname hlonger)

/-- The declarations of one package have different names. -/
theorem filter_capabilities {capability : PackageCapability} (h : capability ∈ package.manifest.capabilities)
    {path : List ResolvedPackage} (hpath : package.OnlyDeclarer capability.name path) :
    (path.flatMap (·.capabilities)).filter (·.name = capability.name) = [capability] := by
  have hnames := (validateManifest_eq_ok_iff.1 package.valid).capabilities.2
  obtain ⟨before, after, rfl, hothers⟩ := hpath
  obtain ⟨hbefore, hafter⟩ := List.forall_mem_append.1 hothers
  have hnone : ∀ others : List ResolvedPackage, (∀ other ∈ others, ∀ declared ∈ other.capabilities, declared.name ≠ capability.name) →
      (others.flatMap (·.capabilities)).filter (·.name = capability.name) = [] := by
    intro others hothers
    rw [List.filter_eq_nil_iff]
    intro declared hdeclared
    obtain ⟨other, hother, hmem⟩ := List.mem_flatMap.1 hdeclared
    simpa using hothers other hother declared hmem
  have hown : package.manifest.capabilities.filter (·.name = capability.name) = [capability] := by
    refine List.perm_singleton.1 ((List.perm_ext_iff_of_nodup (hnames.of_map.filter _) (List.nodup_singleton _)).2 fun declared => ?_)
    rw [List.mem_filter, List.mem_singleton, decide_eq_true_eq]
    constructor
    · exact fun hdeclared => List.inj_on_of_nodup_map hnames hdeclared.1 h hdeclared.2
    · rintro rfl
      exact ⟨h, rfl⟩
  rw [List.flatMap_append, List.flatMap_cons, List.filter_append, List.filter_append, hnone before hbefore, hnone after hafter,
    List.nil_append, List.append_nil]
  exact hown

/-- A query with a step for the capability. -/
def querying (capability : PackageCapability) : ProjectQuery :=
  ⟨"q", [⟨"target", .qualifiedSymbol⟩], ⟨.appliedSymbol (.parameter "target"), [], [⟨capability.name, []⟩], 1⟩⟩

theorem querying_parsed {capability : PackageCapability} (h : ProjectQuery.validName capability.name.toList = true) :
    ProjectQuery.parse (ProjectQuery.write (querying capability)) = .ok (querying capability) := by
  have hname : ProjectQuery.validName "q".toList = true := by decide +kernel
  have htarget : ProjectQuery.validName "target".toList = true ∧ '.' ∉ "target".toList := by decide +kernel
  have hwritable : ProjectQuery.Writable (querying capability) :=
    ⟨hname, List.forall_mem_singleton.2 htarget, htarget.1, fun _ hmem => absurd hmem List.not_mem_nil,
      List.forall_mem_singleton.2 ⟨h, fun _ hmem => absurd hmem List.not_mem_nil⟩, show 1 < 2 ^ 32 by decide⟩
  refine (ProjectQuery.parse_write_iff hwritable).2 ⟨fun _ hmem => absurd hmem List.not_mem_nil, List.forall_mem_singleton.2 ?_⟩
  exact fun _ hmem => absurd hmem List.not_mem_nil

theorem nameable_iff {capability : PackageCapability} (h : capability ∈ package.manifest.capabilities) :
    package.Nameable capability ↔ '_' ∉ capability.name.toList := by
  have hname := ((validateManifest_eq_ok_iff.1 package.valid).capabilities.1 capability h).1
  rw [← ProjectQuery.validName_iff_of_capability hname]
  constructor
  · rintro ⟨text, query, step, hparse, hstep, hresolved⟩
    have hpath : package.OnlyDeclarer capability.name [package.resolution] :=
      ⟨[], [], rfl, fun other hmem => absurd hmem List.not_mem_nil⟩
    rw [requirementForStep_name (hresolved _ hpath)]
    exact ProjectQuery.steps_valid_of_parse hparse step hstep
  · intro hvalid
    refine ⟨_, querying capability, ⟨capability.name, []⟩, querying_parsed hvalid, List.mem_singleton_self _, fun path hpath => ?_⟩
    exact requirementForStep_of_unique (filter_capabilities h hpath)

/-- **The grammars.** What an accepted manifest declares and exports can be named in queries exactly if no capability has
`_` in its name. -/
theorem grammars_agree_iff (package : RegisteredPackage) :
    ((∀ capability ∈ package.manifest.capabilities, package.Nameable capability) ∧ package.ExportsResolve) ↔
      ∀ capability ∈ package.manifest.capabilities, '_' ∉ capability.name.toList := by
  rw [and_iff_left exportsResolve]
  exact forall₂_congr fun _ h => nameable_iff h

/-- `spring.web` with the capability that every framework package requires. -/
def springWeb : PackageManifest :=
  ⟨1, "spring.web", "1.0.0", "^1", ⟨["controller"], []⟩, [⟨"applications.resolved_target", 1, true⟩]⟩

/-- The manifest is accepted and no query names its capability. -/
theorem resolved_target_not_nameable :
    ∃ package : RegisteredPackage, package.manifest = springWeb ∧
      ∃ capability ∈ package.manifest.capabilities, ¬ package.Nameable capability := by
  have hvalid : validateManifest springWeb = .ok () := by decide +kernel
  refine ⟨⟨springWeb, ⟨"digest"⟩, .builtIn, hvalid⟩, rfl, ⟨"applications.resolved_target", 1, true⟩, List.mem_singleton_self _, ?_⟩
  rw [nameable_iff (List.mem_singleton_self _)]
  decide +kernel

end RegisteredPackage

end Kide
