import Kide.Kotlin.CompilationContexts

/-!
# The Maven reactor

The modules of a Maven workspace (`MavenProjectImporter.kt`): a recursion over the module lists of POMs, the effective model of
each module, and the Java context of each with the sources of the modules it depends on.

* `reactor_exact`: the recursion ends, also where POMs list each other, with each POM that can be reached, once; it fails exactly
  where one of them cannot be read or lists a module that is not there or outside of the workspace;
* `javaCompilationContexts_closed`: the contexts of an import, from the reactor to the sources.

What Maven says (`effectiveModels`), what is resolved of a module and the files below its source sets are parameters.
-/

namespace Kide
open Checks Collects JvmBytecodeExtractor ComponentContextDigest

namespace MavenProjectImporter

/-- A POM as far as the reactor needs it. -/
structure Model where
  groupId : Option String
  parentGroupId : Option String
  artifactId : Option String
  modules : List String
  dependencies : List (String × String)
deriving DecidableEq

/-- What the importer asks the file system. There are finitely many canonical paths. -/
structure PomFiles where
  toRealPath : String → Except String String
  isRegularFile : String → Bool
  inWorkspace : String → Bool
  workspacePath : String → String
  directory : String → String
  /-- The POM below a directory that is given relative to the directory of a POM. -/
  childPom : String → String → String
  read : String → Except String Model
  poms : List String
  canonical : ∀ path pom, toRealPath path = .ok pom → pom ∈ poms

/-- A module of the reactor; its directory is the one of its POM. -/
structure ReactorModule where
  pom : String
  model : Model
deriving DecidableEq

def modelKey (model : Model) : Except String String :=
  match model.artifactId with
  | none => .error "Required value was null."
  | some artifactId => .ok ((model.groupId.orElse fun _ => model.parentGroupId).getD "local" ++ ":" ++ artifactId)

/-! ## The recursion -/

section
variable (files : PomFiles)

def canonicalPath (path description : String) : Except String String := do
  let canonical ← files.toRealPath path
  reject (files.inWorkspace canonical = false) (description ++ " escapes workspace root")
  .ok canonical

/-- The module that a POM lists, visited by its canonical path. -/
def listedModule (pom child : String) : Except String String := do
  let childPom := files.childPom pom child
  reject (files.isRegularFile childPom = false)
    ("Maven reactor module `" ++ child ++ "` declared by " ++ files.workspacePath pom ++ " has no pom.xml")
  let canonical ← canonicalPath files childPom ("Maven reactor module `" ++ child ++ "`")
  files.toRealPath canonical

/-- What a visit of a POM leads to; a POM that cannot be read leads to its error. -/
def listedModules (pom : String) : List (Except String String) :=
  match files.read pom with
  | .error message => [.error message]
  | .ok model => (sorted model.modules).map (listedModule files pom)

def readModule (pom : String) : Except String ReactorModule := (files.read pom).map (ReactorModule.mk pom)

def reactor (pom : String) : Except String (List ReactorModule) := do
  let root ← files.toRealPath pom
  match Reach.visit (listedModules files) (files.poms.length + 1) [] root with
  | .error (.failed message) => .error message
  | .error .outOfFuel => .error "out of fuel"
  | .ok seen => do
    let modules ← seen.mapM (readModule files)
    .ok (sortedBy (fun module => files.workspacePath (files.directory module.pom)) modules)

/-! ## Effective models -/

variable (effectiveModels : String → Except String (List Model))

/-- The models by their keys; a later one replaces an earlier one. -/
def modelOf (effective : List Model) (key : String) : Option Model := lastOf modelKey effective (.ok key)

/-- Fills the entries that the call for the root left out. -/
def fillModels (effective : List Model) (module : ReactorModule) : Except String (List Model) := do
  let key ← modelKey module.model
  match modelOf effective key with
  | some _ => .ok effective
  | none => do
    let more ← effectiveModels module.pom
    let _ ← more.mapM modelKey
    .ok (effective ++ more)

def effectiveModule (effective : List Model) (module : ReactorModule) : Except String ReactorModule := do
  let key ← modelKey module.model
  match modelOf effective key with
  | some model => .ok { module with model }
  | none => .error ("Maven effective model omitted " ++ key)

def effectiveReactor (rootPom : String) : Except String (List ReactorModule) := do
  let raw ← reactor files rootPom
  let start ← effectiveModels rootPom
  let _ ← start.mapM modelKey
  let effective ← raw.foldlM (fillModels effectiveModels) start
  raw.mapM (effectiveModule effective)

end

/-! ## Contexts -/

/-- A module under its coordinate. -/
structure KeyedModule where
  key : String
  module : ReactorModule
deriving DecidableEq

def keyed (module : ReactorModule) : Except String KeyedModule := (modelKey module.model).map fun key => ⟨key, module⟩

def KeyedModule.coordinates (module : KeyedModule) : List String :=
  module.module.model.dependencies.map fun dependency => dependency.1 ++ ":" ++ dependency.2

/-- What the importer reads of a module: its source sets, its resolution, and its context in the manifest. -/
structure ModuleReader where
  component : ReactorModule → String
  sources : ReactorModule → List String
  sourceRoots : ReactorModule → List String
  resolve : List String → ReactorModule → Except String (List String × List String)
  languageLevel : ReactorModule → Option String
  artifactContext : ReactorModule → Except String String
  javaHome : String

section
variable (reader : ModuleReader)

def reactorClosure (modules : List KeyedModule) (module : KeyedModule) : List KeyedModule :=
  dependencyClosure KeyedModule.key KeyedModule.coordinates modules module

def moduleCompilationContext (modules : List KeyedModule) (module : KeyedModule) : Except String JavaCompilationContext := do
  let compilationSources := sorted (distinct ((reactorClosure modules module).flatMap fun m => reader.sources m.module))
  let compilationRoots := sorted (distinct ((reactorClosure modules module).flatMap fun m => reader.sourceRoots m.module))
  let (classpath, unresolvedDependencies) ← reader.resolve (modules.map (·.key)) module.module
  let artifactContext ← reader.artifactContext module.module
  .ok {
    component := ⟨reader.component module.module⟩
    sourceFiles := compilationSources
    ownedSourceFiles := reader.sources module.module
    sourceRoots := compilationRoots
    classpath
    jdkHome := reader.javaHome
    languageLevel := reader.languageLevel module.module
    unresolvedDependencies
    artifactContext }

def javaCompilationContexts (files : PomFiles) (effectiveModels : String → Except String (List Model)) (rootPom : String) :
    Except String (List JavaCompilationContext) := do
  let pom ← canonicalPath files rootPom "Maven workspace POM"
  let modules ← effectiveReactor files effectiveModels pom
  let keyedModules ← modules.mapM keyed
  keyedModules.mapM (moduleCompilationContext reader keyedModules)

end

/-! ## What the reactor lists -/

section
variable {files : PomFiles}

/-- One POM lists the other. -/
def Lists (files : PomFiles) (a b : String) : Prop :=
  ∃ model, files.read a = .ok model ∧ ∃ child ∈ model.modules, listedModule files a child = .ok b

/-- A POM that can be reached cannot be read, or lists a module that is not there or outside of the workspace. -/
def Broken (files : PomFiles) (root message : String) : Prop :=
  ∃ pom, Relation.ReflTransGen (Lists files) root pom ∧ (files.read pom = .error message ∨
    ∃ model, files.read pom = .ok model ∧ ∃ child ∈ model.modules, listedModule files pom child = .error message)

theorem mem_listedModules {pom : String} {edge : Except String String} : edge ∈ listedModules files pom ↔
    (∃ message, files.read pom = .error message ∧ edge = .error message) ∨
      ∃ model, files.read pom = .ok model ∧ ∃ child ∈ model.modules, listedModule files pom child = edge := by
  unfold listedModules
  cases files.read pom with
  | error message =>
    rw [List.mem_singleton]
    constructor
    · exact fun h => .inl ⟨message, rfl, h⟩
    · rintro (⟨_, hmessage, rfl⟩ | ⟨_, hmodel, -⟩)
      · rw [Except.error.inj hmessage]
      · cases hmodel
  | ok model =>
    rw [List.mem_map]
    constructor
    · rintro ⟨child, hchild, hedge⟩
      exact .inr ⟨model, rfl, child, mem_sorted.1 hchild, hedge⟩
    · rintro (⟨_, hmessage, -⟩ | ⟨_, hmodel, child, hchild, hedge⟩)
      · cases hmessage
      · obtain rfl := Except.ok.inj hmodel
        exact ⟨child, mem_sorted.2 hchild, hedge⟩

theorem edge_eq_lists : Reach.Edge (listedModules files) = Lists files := funext₂ fun a b => propext <| by
  rw [Reach.Edge, mem_listedModules]
  constructor
  · rintro (⟨_, -, h⟩ | h)
    · cases h
    · exact h
  · exact .inr

theorem fails_iff_broken {root message : String} : Reach.Fails (listedModules files) root message ↔ Broken files root message := by
  unfold Reach.Fails Broken
  rw [edge_eq_lists]
  refine exists_congr fun pom => and_congr_right fun _ => ?_
  rw [mem_listedModules]
  refine or_congr ⟨?_, fun h => ⟨message, h, rfl⟩⟩ Iff.rfl
  rintro ⟨_, h, heq⟩
  rw [h, Except.error.inj heq]

theorem listedModule_mem {pom child target : String} (h : listedModule files pom child = .ok target) : target ∈ files.poms := by
  obtain ⟨_, -, h⟩ := bind_eq_ok_iff.1 h
  obtain ⟨canonical, -, h⟩ := bind_eq_ok_iff.1 h
  exact files.canonical canonical target h

/-- The reactor of a workspace: the POMs that can be reached from the root, each once. -/
structure ReactorOf (files : PomFiles) (root : String) (modules : List ReactorModule) : Prop where
  nodup : (modules.map (·.pom)).Nodup
  mem_iff : ∀ module, module ∈ modules ↔ Relation.ReflTransGen (Lists files) root module.pom ∧ files.read module.pom = .ok module.model
  readable : ∀ pom, Relation.ReflTransGen (Lists files) root pom → ∃ model, files.read pom = .ok model
  ordered : modules.Pairwise fun a b =>
    codeUnitsLe (files.workspacePath (files.directory a.pom)) (files.workspacePath (files.directory b.pom))

theorem readModules {seen : List String} (h : ∀ pom ∈ seen, ∃ model, files.read pom = .ok model) :
    ∃ modules, seen.mapM (readModule files) = .ok modules ∧ modules.map (·.pom) = seen ∧
      ∀ module, module ∈ modules ↔ module.pom ∈ seen ∧ files.read module.pom = .ok module.model := by
  have hread : ∀ {pom module}, readModule files pom = .ok module ↔ module.pom = pom ∧ files.read pom = .ok module.model := by
    intro pom module
    unfold readModule
    cases files.read pom with
    | error message => exact iff_of_false (fun h => by cases h) fun h => by cases h.2
    | ok model =>
      constructor
      · intro h
        obtain rfl := Except.ok.inj h
        exact ⟨rfl, rfl⟩
      · rintro ⟨rfl, h⟩
        rw [Except.ok.inj h]
        rfl
  obtain ⟨modules, hmodules⟩ := exists_mapM_eq_ok_iff.2 fun pom hpom => by
    obtain ⟨model, hmodel⟩ := h pom hpom
    exact ⟨⟨pom, model⟩, hread.2 ⟨rfl, hmodel⟩⟩
  have hforall := mapM_eq_ok_iff.1 hmodules
  have hpoms : modules.map (·.pom) = seen := by
    refine List.forall₂_eq_eq_eq.le _ _ (List.forall₂_map_left_iff.2 ?_)
    exact (hforall.imp fun _ _ h => (hread.1 h).1).flip
  refine ⟨modules, hmodules, hpoms, fun module => ⟨fun hmodule => ?_, fun ⟨hpom, hmodel⟩ => ?_⟩⟩
  · obtain ⟨pom, hpom, hok⟩ := forall₂_exists_mem hforall.flip hmodule
    obtain ⟨rfl, hmodel⟩ := hread.1 hok
    exact ⟨hpom, hmodel⟩
  · obtain ⟨other, hother, hok⟩ := forall₂_exists_mem hforall hpom
    obtain ⟨hsame, hread⟩ := hread.1 hok
    have heq : other = module := by
      cases other
      cases module
      cases hsame
      cases Except.ok.inj (hread.symm.trans hmodel)
      rfl
    exact heq ▸ hother

/-- **Reactor.** -/
theorem reactor_exact (files : PomFiles) {pom root : String} (hroot : files.toRealPath pom = .ok root) :
    (∃ modules, reactor files pom = .ok modules ∧ ReactorOf files root modules ∧ ∀ message, ¬ Broken files root message) ∨
      ∃ message, reactor files pom = .error message ∧ Broken files root message := by
  have hfinite : ∀ a b, Reach.Edge (listedModules files) a b → b ∈ files.poms := by
    intro a b hab
    rw [edge_eq_lists] at hab
    obtain ⟨model, -, child, -, hlisted⟩ := hab
    exact listedModule_mem hlisted
  unfold reactor
  rw [hroot, ok_bind]
  obtain ⟨seen, hseen, -, hexact, hsound⟩ | ⟨message, hmessage, hfails⟩ :=
    Reach.visit_exact hfinite (files.canonical pom root hroot) (Nat.lt_succ_self _)
  · left
    rw [edge_eq_lists] at hexact
    have hbroken : ∀ message, ¬ Broken files root message := fun message h => hsound message (fails_iff_broken.2 h)
    have hreadable : ∀ pom, Relation.ReflTransGen (Lists files) root pom → ∃ model, files.read pom = .ok model := by
      intro pom hreach
      cases hread : files.read pom with
      | error message => exact absurd ⟨pom, hreach, .inl hread⟩ (hbroken message)
      | ok model => exact ⟨model, rfl⟩
    obtain ⟨modules, hmodules, hpoms, hmem⟩ := readModules fun pom hpom => hreadable pom ((hexact.mem_iff pom).1 hpom)
    refine ⟨sortedBy (fun module => files.workspacePath (files.directory module.pom)) modules, ?_,
      ⟨?_, fun module => ?_, hreadable, sortedBy_pairwise _ _⟩, hbroken⟩
    · rw [hseen]
      dsimp only
      rw [hmodules]
      rfl
    · rw [((sortedBy_perm _ modules).map _).nodup_iff, hpoms]
      exact hexact.nodup
    · rw [(sortedBy_perm _ modules).mem_iff, hmem, hexact.mem_iff]
  · right
    rw [hmessage]
    exact ⟨message, rfl, fails_iff_broken.1 hfails⟩

end

/-! ## What the contexts say -/

section
variable {files : PomFiles} {effectiveModels : String → Except String (List Model)} {reader : ModuleReader}

/-- An effective module: the POM and the coordinate of the module, and whatever else Maven says of it. -/
structure EffectiveOf (module : ReactorModule) (effective : KeyedModule) : Prop where
  pom : effective.module.pom = module.pom
  key : modelKey module.model = .ok effective.key
  effectiveKey : modelKey effective.module.model = .ok effective.key

theorem forall₂_comp {α β γ : Type} {R : α → β → Prop} {S : β → γ → Prop} {T : α → γ → Prop} (h : ∀ a b c, R a b → S b c → T a c)
    {as : List α} {bs : List β} {cs : List γ} (hfirst : List.Forall₂ R as bs) (hsecond : List.Forall₂ S bs cs) : List.Forall₂ T as cs := by
  induction hfirst generalizing cs with
  | nil =>
    cases hsecond
    exact .nil
  | cons hab _ ih =>
    cases hsecond with
    | cons hbc hrest => exact .cons (h _ _ _ hab hbc) (ih hrest)

theorem effectiveModule_key {effective : List Model} {module result : ReactorModule} (h : effectiveModule effective module = .ok result) :
    result.pom = module.pom ∧ ∃ key, modelKey module.model = .ok key ∧ modelKey result.model = .ok key := by
  obtain ⟨key, hkey, h⟩ := bind_eq_ok_iff.1 h
  split at h
  · next model hmodel =>
    obtain rfl := Except.ok.inj h
    exact ⟨rfl, key, hkey, (lastOf_some _ hmodel).2⟩
  · cases h

/-- What a Java context says of its module. -/
structure MavenCloses (reader : ModuleReader) (modules : List KeyedModule) (module : KeyedModule) (context : JavaCompilationContext) :
    Prop where
  component : context.component = ⟨reader.component module.module⟩
  owned : context.ownedSourceFiles = reader.sources module.module
  sourceFiles : Names (fun file => ∃ other, Relation.ReflTransGen (DependsByName KeyedModule.key KeyedModule.coordinates modules) module other ∧
    file ∈ reader.sources other.module) context.sourceFiles
  sourceRoots : Names (fun root => ∃ other, Relation.ReflTransGen (DependsByName KeyedModule.key KeyedModule.coordinates modules) module other ∧
    root ∈ reader.sourceRoots other.module) context.sourceRoots
  resolved : reader.resolve (modules.map (·.key)) module.module = .ok (context.classpath, context.unresolvedDependencies)

theorem mem_reactorClosure_files {modules : List KeyedModule} {module : KeyedModule} {filesOf : ReactorModule → List String} {file : String} :
    file ∈ (reactorClosure modules module).flatMap (fun m => filesOf m.module) ↔
      ∃ other, Relation.ReflTransGen (DependsByName KeyedModule.key KeyedModule.coordinates modules) module other ∧
        file ∈ filesOf other.module := by
  rw [List.mem_flatMap]
  exact exists_congr fun other => and_congr_left fun _ => mem_dependencyClosure

theorem moduleCompilationContext_closes {modules : List KeyedModule} {module : KeyedModule} {context : JavaCompilationContext}
    (h : moduleCompilationContext reader modules module = .ok context) : MavenCloses reader modules module context := by
  obtain ⟨resolved, hresolved, h⟩ := bind_eq_ok_iff.1 h
  obtain ⟨artifactContext, -, h⟩ := bind_eq_ok_iff.1 h
  obtain rfl := Except.ok.inj h
  exact ⟨rfl, rfl, names_sorted_distinct fun _ => mem_reactorClosure_files, names_sorted_distinct fun _ => mem_reactorClosure_files, hresolved⟩

/-- **Import.** The Java contexts of a Maven workspace are those of its reactor, one for each POM that can be reached from the root, and
each has the sources of the modules that its own depends on by coordinates. -/
theorem javaCompilationContexts_closed {rootPom : String} {contexts : List JavaCompilationContext}
    (h : javaCompilationContexts reader files effectiveModels rootPom = .ok contexts) :
    ∃ pom root raw modules, canonicalPath files rootPom "Maven workspace POM" = .ok pom ∧ files.toRealPath pom = .ok root ∧
      ReactorOf files root raw ∧ List.Forall₂ EffectiveOf raw modules ∧ List.Forall₂ (MavenCloses reader modules) modules contexts := by
  obtain ⟨pom, hpom, h⟩ := bind_eq_ok_iff.1 h
  obtain ⟨effective, heffective, h⟩ := bind_eq_ok_iff.1 h
  obtain ⟨modules, hmodules, hcontexts⟩ := bind_eq_ok_iff.1 h
  obtain ⟨raw, hraw, heffective⟩ := bind_eq_ok_iff.1 heffective
  obtain ⟨start, -, heffective⟩ := bind_eq_ok_iff.1 heffective
  obtain ⟨_, -, heffective⟩ := bind_eq_ok_iff.1 heffective
  obtain ⟨models, -, heffective⟩ := bind_eq_ok_iff.1 heffective
  obtain ⟨root, hroot, -⟩ := bind_eq_ok_iff.1 hraw
  refine ⟨pom, root, raw, modules, hpom, hroot, ?_, ?_, (mapM_eq_ok_iff.1 hcontexts).imp fun _ _ => moduleCompilationContext_closes⟩
  · obtain ⟨found, hfound, hof, -⟩ | ⟨message, hmessage, -⟩ := reactor_exact files hroot
    · exact Except.ok.inj (hraw.symm.trans hfound) ▸ hof
    · cases hraw.symm.trans hmessage
  · have hfirst := mapM_eq_ok_iff.1 heffective
    have hsecond := mapM_eq_ok_iff.1 hmodules
    refine forall₂_comp (fun a b c hab hbc => ?_) hfirst hsecond
    obtain ⟨hpom, key, hkey, heffectivekey⟩ := effectiveModule_key hab
    unfold keyed at hbc
    rw [heffectivekey] at hbc
    obtain rfl := Except.ok.inj hbc
    exact ⟨hpom, hkey, heffectivekey⟩

end

/-! ## Two modules that list each other -/

def listingFiles (poms : List (String × Model)) : PomFiles where
  toRealPath path := if path ∈ poms.map Prod.fst then .ok path else .error "no such file"
  isRegularFile path := path ∈ poms.map Prod.fst
  inWorkspace _ := true
  workspacePath path := path
  directory pom := pom
  childPom _ child := "/w/" ++ child ++ "/pom.xml"
  read pom := ((poms.find? fun entry => entry.1 = pom).map fun entry => Except.ok entry.2).getD (.error "no such file")
  poms := poms.map Prod.fst
  canonical path pom h := by
    split at h
    · next hmem => exact Except.ok.inj h ▸ hmem
    · cases h

def listingModel (name : String) (modules : List String) (dependencies : List (String × String)) : Model :=
  ⟨none, some "demo", some name, modules, dependencies⟩

/-- Each of the two lists the other, and `app` depends on `lib`. -/
def mutualFiles : PomFiles := listingFiles
  [("/w/app/pom.xml", listingModel "app" ["lib"] [("demo", "lib")]), ("/w/lib/pom.xml", listingModel "lib" ["app"] [])]

def mutualReader : ModuleReader where
  component module := module.pom
  sources module := [module.pom ++ "/A.java"]
  sourceRoots module := [module.pom]
  resolve _ _ := .ok ([], [])
  languageLevel _ := none
  artifactContext _ := .ok "context"
  javaHome := "/jdk"

theorem mutual_reactor :
    (∃ modules, reactor mutualFiles "/w/app/pom.xml" = .ok modules ∧ ReactorOf mutualFiles "/w/app/pom.xml" modules ∧
        ∀ message, ¬ Broken mutualFiles "/w/app/pom.xml" message) ∨
      ∃ message, reactor mutualFiles "/w/app/pom.xml" = .error message ∧ Broken mutualFiles "/w/app/pom.xml" message :=
  reactor_exact mutualFiles (by decide +kernel)

theorem mutual_contexts : ∃ pom root raw modules contexts,
    canonicalPath mutualFiles "/w/app/pom.xml" "Maven workspace POM" = .ok pom ∧ mutualFiles.toRealPath pom = .ok root ∧
      ReactorOf mutualFiles root raw ∧ List.Forall₂ EffectiveOf raw modules ∧
        List.Forall₂ (MavenCloses mutualReader modules) modules contexts := by
  obtain ⟨contexts, hcontexts⟩ := exists_ok_of_isOk (by decide +kernel : (javaCompilationContexts mutualReader mutualFiles
    (fun _ => .ok [listingModel "app" [] [("demo", "lib")], listingModel "lib" [] []]) "/w/app/pom.xml").isOk = true)
  obtain ⟨pom, root, raw, modules, h⟩ := javaCompilationContexts_closed hcontexts
  exact ⟨pom, root, raw, modules, contexts, h⟩

end MavenProjectImporter

end Kide
