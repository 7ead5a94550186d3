import Kide.Query.MacroExpansion

/-!
# Invoking a project query

`invoke` (`commands/query.rs`): a query is loaded and its values bound, the worker is asked what it offers where a capability
could be needed, and the query is executed with the negotiation of its own requirements.

* `invoke_failure`: what can go wrong. The `expect`s of `execute_resolved` never do: `negotiated` and `provided` carry from the
  loader to the loop what they rely on, and `StepFailure` is preserved by the loop because the selection only gets smaller.
* `invoke_workerFree`: without steps and required capabilities no worker is asked, whatever there is to be asked.
-/

namespace Kide
open Checks Collects

inductive InvokeError where
  | load (source : LoadError)
  | bind (source : ProjectQuery.BindError)
  | discovery (source : WorkerRegistryError)
  | execution (source : ProjectQueryError)
deriving DecidableEq

def needsDiscovery (resolved : ResolvedProjectQuery) : Bool :=
  (requirements resolved).any fun requirement => requirement.required || requirement.name ∈ usedCapabilities resolved

/-- What an invocation finds: the packages and files of the workspace, the index, and what the one worker says. -/
structure Surroundings where
  registry : PackageRegistry
  queries : List String
  texts : String → Option String
  store : IndexStore
  handshake : Except WorkerRegistryError DiscoveredWorker
  answers : Nat → Except String SemanticQueryResponse
  sha256 : Bytes → String
  configuration : EffectiveConfiguration
  files : WorkspaceFiles

namespace Surroundings

variable (surroundings : Surroundings)

def workers (loaded : LoadedQuery) : Except WorkerRegistryError (List DiscoveredWorker) :=
  if needsDiscovery loaded.resolved then (fun worker => [worker]) <$> surroundings.handshake else .ok []

def execute (loaded : LoadedQuery) (bound : QueryParameters) (workers : List DiscoveredWorker) : Except ProjectQueryError QueryOutput :=
  executeResolved surroundings.store loaded.resolved bound workers (negotiateQueryCapabilities (requirements loaded.resolved) workers)
    surroundings.answers surroundings.sha256 surroundings.configuration surroundings.files

def invoke (name : String) (params : List (String × String)) : Except InvokeError QueryOutput := do
  let loaded ← (load surroundings.registry surroundings.texts surroundings.queries name).mapError .load
  let bound ← (loaded.query.bind params).mapError .bind
  let workers ← (surroundings.workers loaded).mapError .discovery
  (surroundings.execute loaded bound workers).mapError .execution

end Surroundings

/-! ## Requirements -/

section
variable {resolved : ResolvedProjectQuery}

/-- A package of the path declares a capability of this name. -/
def Declared (resolved : ResolvedProjectQuery) (name : String) : Prop :=
  ∃ capability ∈ resolved.packages.flatMap (·.capabilities), capability.name = name

theorem mem_requirements_declares {requirement : PackageCapability} (h : requirement ∈ requirements resolved) :
    ∃ capability ∈ resolved.packages.flatMap (·.capabilities),
      capability.name = requirement.name ∧ capability.version = requirement.version := by
  obtain ⟨key, hkey, rfl⟩ := List.mem_map.1 h
  rw [List.mem_insertionSort, List.mem_dedup] at hkey
  obtain ⟨capability, hcapability, rfl⟩ := List.mem_map.1 hkey
  exact ⟨capability, hcapability, rfl, rfl⟩

theorem exists_requirement {capability : PackageCapability} (h : capability ∈ resolved.packages.flatMap (·.capabilities)) :
    ∃ requirement ∈ requirements resolved, requirement.name = capability.name ∧ requirement.version = capability.version ∧
      (capability.required → requirement.required) := by
  refine ⟨_, List.mem_map.2 ⟨(capability.name, capability.version), ?_, rfl⟩, rfl, rfl, fun hrequired => ?_⟩
  · rw [List.mem_insertionSort, List.mem_dedup]
    exact List.mem_map_of_mem h
  · exact List.any_eq_true.2 ⟨capability, h, by simpa using hrequired⟩

theorem requirements_nodup (resolved : ResolvedProjectQuery) :
    ((requirements resolved).map fun requirement => (requirement.name, requirement.version)).Nodup := by
  unfold requirements
  rw [List.map_map]
  have hkeys : ∀ keys : List (String × Nat), keys.map ((fun requirement : PackageCapability => (requirement.name, requirement.version)) ∘
      fun key => ⟨key.1, key.2, (resolved.packages.flatMap (·.capabilities)).any fun capability =>
        capability.name = key.1 ∧ capability.version = key.2 ∧ capability.required⟩) = keys := fun keys => List.map_id'' (fun _ => rfl) keys
  rw [hkeys]
  exact (List.perm_insertionSort _ _).nodup_iff.2 (List.nodup_dedup _)

/-- Two packages of the path declare different versions. -/
def Conflicting (resolved : ResolvedProjectQuery) (name : String) : Prop :=
  ∃ a ∈ resolved.packages.flatMap (·.capabilities), ∃ b ∈ resolved.packages.flatMap (·.capabilities),
    a.name = name ∧ b.name = name ∧ a.version ≠ b.version

/-- The requirement of a declared name is only missed where its versions are in conflict. -/
theorem requirementForStep_error {name : String} {error : ProjectQueryError} (hdeclared : Declared resolved name)
    (h : requirementForStep (requirements resolved) name = .error error) :
    error = .conflictingVersions name ∧ Conflicting resolved name := by
  unfold requirementForStep at h
  split at h
  · next hnone =>
    obtain ⟨capability, hcapability, rfl⟩ := hdeclared
    obtain ⟨requirement, hrequirement, hname, -⟩ := exists_requirement hcapability
    have hmem : requirement ∈ (requirements resolved).filter (·.name = capability.name) :=
      List.mem_filter.2 ⟨hrequirement, decide_eq_true hname⟩
    rw [hnone] at hmem
    cases hmem
  · cases h
  · next hnot hsingle =>
    refine ⟨(Except.error.inj h).symm, ?_⟩
    have hnodup := ((requirements_nodup resolved).of_map).filter fun requirement => decide (requirement.name = name)
    cases hfound : (requirements resolved).filter (·.name = name) with
    | nil => exact absurd hfound hnot
    | cons first rest =>
      cases rest with
      | nil => exact absurd hfound (hsingle first)
      | cons second rest =>
        have hfirst : first ∈ (requirements resolved).filter (·.name = name) := hfound ▸ List.mem_cons_self
        have hsecond : second ∈ (requirements resolved).filter (·.name = name) :=
          hfound ▸ List.mem_cons_of_mem _ List.mem_cons_self
        rw [hfound] at hnodup
        have hdistinct : first ≠ second := fun heq => (List.nodup_cons.1 hnodup).1 (heq ▸ List.mem_cons_self)
        obtain ⟨hfirst, hfirstname⟩ := List.mem_filter.1 hfirst
        obtain ⟨hsecond, hsecondname⟩ := List.mem_filter.1 hsecond
        rw [decide_eq_true_eq] at hfirstname hsecondname
        obtain ⟨a, ha, haname, haversion⟩ := mem_requirements_declares hfirst
        obtain ⟨b, hb, hbname, hbversion⟩ := mem_requirements_declares hsecond
        refine ⟨a, ha, b, hb, haname.trans hfirstname, hbname.trans hsecondname, fun hversion => hdistinct ?_⟩
        refine List.inj_on_of_nodup_map (requirements_nodup resolved) hfirst hsecond (Prod.ext (hfirstname.trans hsecondname.symm) ?_)
        exact haversion.symm.trans (hversion.trans hbversion)

/-! ## Negotiation -/

variable {workers : List DiscoveredWorker}

/-- The worker offers the capability. -/
def Offers (worker : DiscoveredWorker) (name : String) (version : Nat) : Prop :=
  ∃ capability ∈ worker.capabilities.semanticQueryCapabilities, capability.name = name ∧ capability.version = version

variable (workers) in
theorem exists_negotiation {all : List PackageCapability} {requirement : PackageCapability} (h : requirement ∈ all) :
    ∃ item ∈ negotiateQueryCapabilities all workers, item.name = requirement.name ∧ item.version = requirement.version :=
  ⟨_, List.mem_map_of_mem ((List.mem_insertionSort _).2 h), rfl, rfl⟩

/-- A supported capability has a provider, and every provider offers it. -/
theorem supported_providers {all : List PackageCapability} {item : QueryCapabilityNegotiation}
    (h : item ∈ negotiateQueryCapabilities all workers) (hsupported : item.status = .supported) : item.providers ≠ [] ∧
      ∀ provider ∈ item.providers, ∃ worker ∈ workers, worker.installation.name = provider ∧ Offers worker item.name item.version := by
  obtain ⟨requirement, -, rfl⟩ := List.mem_map.1 h
  dsimp only at hsupported ⊢
  refine ⟨fun hempty => ?_, fun provider hprovider => ?_⟩
  · rw [if_neg (not_not.2 hempty)] at hsupported
    split at hsupported <;> cases hsupported
  · rw [List.mem_insertionSort, List.mem_dedup] at hprovider
    obtain ⟨advertised, hadvertised, rfl⟩ := List.mem_map.1 hprovider
    obtain ⟨hadvertised, hversion⟩ := List.mem_filter.1 hadvertised
    obtain ⟨worker, hworker, hoffered⟩ := List.mem_flatMap.1 hadvertised
    obtain ⟨capability, hcapability, rfl⟩ := List.mem_map.1 hoffered
    obtain ⟨hcapability, hname⟩ := List.mem_filter.1 hcapability
    exact ⟨worker, hworker, rfl, capability, hcapability, by simpa using hname, by simpa using hversion⟩

/-- **Negotiated.** The first `expect`: what a step requires has been negotiated. -/
theorem negotiated {step : QueryCapabilityStep} {error : ProjectQueryError} (hdeclared : Declared resolved step.name)
    (h : negotiatedStep (requirements resolved) (negotiateQueryCapabilities (requirements resolved) workers) step = .error error) :
    error = .conflictingVersions step.name ∧ Conflicting resolved step.name := by
  rcases bind_eq_error_iff.1 h with hrequirement | ⟨requirement, hrequirement, h⟩
  · exact requirementForStep_error hdeclared hrequirement
  · have hname := requirementForStep_name hrequirement
    have hmem : requirement ∈ requirements resolved := by
      unfold requirementForStep at hrequirement
      split at hrequirement
      · cases hrequirement
      · next found heq =>
        obtain rfl := Except.ok.inj hrequirement
        exact List.mem_of_mem_filter (heq ▸ List.mem_cons_self : found ∈ (requirements resolved).filter (·.name = step.name))
      · cases hrequirement
    obtain ⟨item, hitem, hitemname, hversion⟩ := exists_negotiation workers hmem
    split at h
    · next hnone =>
      have hnot := List.find?_eq_none.1 hnone item hitem
      rw [hitemname, hname, hversion] at hnot
      simp at hnot
    · cases h

/-- **Provided.** The other two: a supported capability has a provider, and it is the worker that offers it. -/
theorem provided {all : List PackageCapability} {item : QueryCapabilityNegotiation}
    (hnames : (workers.map (·.installation.name)).Nodup) (hitem : item ∈ negotiateQueryCapabilities all workers)
    (hsupported : item.status = .supported) :
    ∃ worker ∈ workers, negotiatedWorker workers item = .ok worker ∧ Offers worker item.name item.version := by
  obtain ⟨hne, hproviders⟩ := supported_providers hitem hsupported
  obtain ⟨provider, rest, hcons⟩ := List.exists_cons_of_ne_nil hne
  obtain ⟨worker, hworker, hname, hoffers⟩ := hproviders provider (hcons ▸ List.mem_cons_self)
  have hfind : workers.find? (·.installation.name = provider) = some worker := by
    cases hfound : workers.find? (·.installation.name = provider) with
    | none => exact absurd (decide_eq_true hname) (by simpa using List.find?_eq_none.1 hfound worker hworker)
    | some found =>
      have hfoundname := List.find?_some hfound
      rw [decide_eq_true_eq] at hfoundname
      rw [List.inj_on_of_nodup_map hnames (List.mem_of_find?_eq_some hfound) hworker (hfoundname.trans hname.symm)]
  refine ⟨worker, hworker, ?_, hoffers⟩
  unfold negotiatedWorker
  simp only [hcons, List.head?_cons, hfind]

end

/-! ## Planning a step -/

/-- A plan for an offered capability fails for its arguments or because two symbols share a source. -/
theorem planSemanticCapability_failure {worker : DiscoveredWorker} {name : String} {version : Nat}
    {arguments : List SemanticQueryArgument} {result : QueryResult} {error : SemanticCapabilityError}
    (hbounded : result.symbols.length ≤ MAX_RESULT_LIMIT) (hoffers : Offers worker name version)
    (h : planSemanticCapability worker name version arguments result.symbolIds result.sourceUnits (capabilityBudget result) = .error error) :
    (∃ reason, error = .invalidArguments reason) ∨ error = .budgetExceeded "source input" ∧ ¬ result.sourceUnits.Nodup := by
  unfold planSemanticCapability at h
  rw [validateBudget_capabilityBudget hbounded, ok_bind] at h
  rcases bind_eq_error_iff.1 h with hcandidates | ⟨_, -, h⟩
  · have hlt := (reject_eq_error_iff.1 hcandidates).1
    rw [capabilityBudget, saturatedLen_of_le hbounded, QueryResult.symbolIds, List.length_map] at hlt
    exact absurd hlt (le_max_left _ _).not_gt
  rcases bind_eq_error_iff.1 h with hnodes | ⟨_, -, h⟩
  · obtain ⟨hlt, rfl⟩ := reject_eq_error_iff.1 hnodes
    exact .inr ⟨rfl, fun hnodup => (maxNodes_suffice_iff hbounded).2 hnodup hlt⟩
  split at h
  · next hnone =>
    obtain ⟨capability, hcapability, hname, hversion⟩ := hoffers
    exact absurd (decide_eq_true ⟨hname, hversion⟩) (List.find?_eq_none.1 hnone capability hcapability)
  · rcases bind_eq_error_iff.1 h with harguments | ⟨_, -, h⟩
    · exact .inl (validateArguments_error harguments)
    · cases h

theorem planSemanticCapability_offered {worker : DiscoveredWorker} {name : String} {version : Nat}
    {arguments : List SemanticQueryArgument} {symbols : List SymbolId} {units : List SourceUnitId} {budget : SemanticQueryBudget}
    {plan : SemanticCapabilityPlan} (h : planSemanticCapability worker name version arguments symbols units budget = .ok plan) :
    plan.capability ∈ worker.capabilities.semanticQueryCapabilities ∧ plan.capability.name = name := by
  unfold planSemanticCapability at h
  obtain ⟨_, -, h⟩ := bind_eq_ok_iff.1 h
  obtain ⟨_, -, h⟩ := bind_eq_ok_iff.1 h
  obtain ⟨_, -, h⟩ := bind_eq_ok_iff.1 h
  split at h
  · cases h
  · next capability hfind =>
    obtain ⟨_, -, h⟩ := bind_eq_ok_iff.1 h
    obtain rfl := Except.ok.inj h
    have hfound := List.find?_some hfind
    rw [decide_eq_true_eq] at hfound
    exact ⟨List.mem_of_find?_eq_some hfind, hfound.1⟩

/-! ## Compiling -/

section
variable {store : IndexStore} {bound : QueryParameters} {program : QueryProgram}

/-- Not an error of the selector. -/
def QueryCompileError.Bounded : QueryCompileError → Prop
  | .selector _ => False
  | _ => True

theorem QueryCompileError.OfParameter.bounded {error : QueryCompileError} (h : error.OfParameter) : error.Bounded := by
  cases error with
  | selector source => exact h
  | _ => trivial

/-- The relation that a query starts from bounds its selector. -/
theorem compiled_bounded {plan : CompiledQuery} (h : compileQuery store bound program = .ok plan) :
    ∃ selected, select store plan.selector = .ok selected := by
  obtain ⟨_, -, h⟩ := bind_eq_ok_iff.1 h
  obtain ⟨start, hstart, h⟩ := bind_eq_ok_iff.1 h
  obtain ⟨predicates, -, h⟩ := bind_eq_ok_iff.1 h
  obtain rfl := Except.ok.inj h
  cases hset : startingSet store (normalizedPredicates ⟨[], start.2.1 :: predicates⟩) with
  | some set =>
    unfold select
    simp only [hset]
    exact ⟨_, rfl⟩
  | none =>
    -- Without a starting set the selector has neither a supertype nor an annotation.
    unfold startingSet at hset
    split at hset
    · cases hset
    next hsupertypes =>
    split at hset
    · cases hset
    next happlied =>
    have hstarting : start.2.1 ∈ normalizedPredicates ⟨[], start.2.1 :: predicates⟩ := List.mem_append_left _ List.mem_cons_self
    have hnone : ∀ {relation : SelectorPredicate → Option SymbolId},
        (normalizedPredicates ⟨[], start.2.1 :: predicates⟩).filterMap relation = [] → relation start.2.1 = none := fun hempty =>
      List.filterMap_eq_nil_iff.1 hempty _ hstarting
    unfold resolveFrom at hstart
    split at hstart
    · obtain ⟨symbol, -, hsymbol⟩ := bind_eq_ok_iff.1 hstart
      obtain rfl := Except.ok.inj hsymbol
      cases hnone (leastSymbol_eq_none_iff.1 happlied)
    · obtain ⟨symbol, -, hsymbol⟩ := bind_eq_ok_iff.1 hstart
      obtain rfl := Except.ok.inj hsymbol
      cases hnone (leastSymbol_eq_none_iff.1 hsupertypes)

theorem resolveQualifiedSymbol_bounded {name : String} {error : QueryCompileError}
    (h : resolveQualifiedSymbol store name = .error error) : error.Bounded := by
  unfold resolveQualifiedSymbol at h
  split at h
  · split at h
    · cases h
    · cases h
      trivial
  · cases h
  · cases h
    trivial

theorem parameter_bounded {name : String} {error : QueryCompileError} (h : parameter bound name = .error error) : error.Bounded := by
  unfold parameter at h
  split at h
  · cases h
    trivial
  · cases h

theorem resolveFrom_bounded {start : QueryFrom} {error : QueryCompileError} (h : resolveFrom store bound start = .error error) :
    error.Bounded := by
  have hsymbol : ∀ symbol, resolveSymbol store bound symbol = .error error → error.Bounded := by
    intro symbol h
    cases symbol with
    | id value => cases h
    | qualifiedName value => exact resolveQualifiedSymbol_bounded h
    | parameter name =>
      rcases bind_eq_error_iff.1 h with hparameter | ⟨value, -, h⟩
      · exact parameter_bounded hparameter
      · split at h
        · cases h
        · exact resolveQualifiedSymbol_bounded h
        · cases h
          trivial
  cases start with
  | appliedSymbol symbol =>
    rcases bind_eq_error_iff.1 h with h | ⟨_, -, h⟩
    · exact hsymbol symbol h
    · cases h
  | subtypeOf symbol =>
    rcases bind_eq_error_iff.1 h with h | ⟨_, -, h⟩
    · exact hsymbol symbol h
    · cases h

theorem compileQuery_bounded {error : QueryCompileError} (h : compileQuery store bound program = .error error) : error.Bounded := by
  rcases bind_eq_error_iff.1 h with hlimit | ⟨_, -, h⟩
  · rw [← (reject_eq_error_iff.1 hlimit).2]
    trivial
  rcases bind_eq_error_iff.1 h with hstart | ⟨_, -, h⟩
  · exact resolveFrom_bounded hstart
  rcases bind_eq_error_iff.1 h with hpredicates | ⟨_, -, h⟩
  · obtain ⟨predicate, -, hpredicate⟩ := exists_of_mapM_eq_error hpredicates
    obtain ⟨failed, hfailed, hof⟩ | ⟨_, hok⟩ : OnlyByParameter (resolvePredicate bound predicate) :=
      resolvePredicate_only predicate
    · obtain rfl := Except.error.inj (hpredicate.symm.trans hfailed)
      exact hof.bounded
    · rw [hpredicate] at hok
      cases hok
  · cases h

theorem bindCapabilityArguments_bounded {step : QueryCapabilityStep} {error : QueryCompileError}
    (h : bindCapabilityArguments store bound step = .error error) : error.Bounded := by
  obtain ⟨argument, -, h⟩ := exists_of_mapM_eq_error h
  rcases bind_eq_error_iff.1 h with h | ⟨_, -, h⟩
  · cases hvalue : argument.value with
    | parameter name =>
      rw [hvalue] at h
      rcases bind_eq_error_iff.1 h with hparameter | ⟨value, -, h⟩
      · exact parameter_bounded hparameter
      · cases value with
        | qualifiedSymbol name =>
          dsimp only at h
          cases hname : resolveQualifiedSymbol store name with
          | error failed =>
            rw [hname] at h
            obtain rfl := Except.error.inj h
            exact resolveQualifiedSymbol_bounded hname
          | ok symbol =>
            rw [hname] at h
            cases h
        | _ => cases h
    | _ =>
      rw [hvalue] at h
      cases h
  · cases h

end

/-! ## The loop -/

section
variable (store : IndexStore) (loaded : LoadedQuery) (bound : QueryParameters) (workers : List DiscoveredWorker)
  (answers : Nat → Except String SemanticQueryResponse)

/-- What can go wrong when a loaded query is executed. -/
inductive StepFailure : ProjectQueryError → Prop
  | compile {source : QueryCompileError} (hblameless : loaded.query.WellTyped → ¬ source.OfParameter)
      (hbounded : source.Bounded) : StepFailure (.compile source)
  | conflictingVersions {name : String} (hused : name ∈ usedCapabilities loaded.resolved) (hconflicting : Conflicting loaded.resolved name) :
      StepFailure (.conflictingVersions name)
  | invalidArguments {reason : String} : StepFailure (.capability (.invalidArguments reason))
  | sharedSource (hshared : ¬ ((selection store loaded.resolved bound).map (·.declaration.sourceUnit)).Nodup) :
      StepFailure (.capability (.budgetExceeded "source input"))
  | normalizedFacts {name : String} {worker : DiscoveredWorker} {capability : SemanticQueryCapability}
      (hused : name ∈ usedCapabilities loaded.resolved) (hworker : worker ∈ workers)
      (hcapability : capability ∈ worker.capabilities.semanticQueryCapabilities) (hname : capability.name = name)
      (hfacts : capability.result ≠ .candidateSymbols) : StepFailure (.normalizedFacts name)
  | worker {message : String} {index : Nat} (hanswer : answers index = .error message) : StepFailure (.worker message)

end

section
variable {store : IndexStore} {loaded : LoadedQuery} {bound : QueryParameters} {workers : List DiscoveredWorker}
  {answers : Nat → Except String SemanticQueryResponse}

/-- What the loop leaves of the selection. -/
structure Within (store : IndexStore) (loaded : LoadedQuery) (bound : QueryParameters) (progress : QueryProgress) : Prop where
  sublist : progress.result.symbols.Sublist (selection store loaded.resolved bound)
  bounded : progress.result.symbols.length ≤ MAX_RESULT_LIMIT

theorem Within.of_refines {negotiations : List QueryCapabilityNegotiation} {entries : List (QueryCapabilityStep × Nat)}
    {progress next : QueryProgress} (h : Within store loaded bound progress)
    (hrefine : StepsRefine loaded.resolved negotiations answers entries progress next) : Within store loaded bound next := by
  have hsublist : next.result.symbols.Sublist progress.result.symbols := hrefine.symbols ▸ List.filter_sublist
  exact ⟨hsublist.trans h.sublist, hsublist.length_le.trans h.bounded⟩

/-- **Step.** -/
theorem runCapabilityStep_failure {progress : QueryProgress} {entry : QueryCapabilityStep × Nat} {error : ProjectQueryError}
    (hnames : (workers.map (·.installation.name)).Nodup) (hbind : loaded.query.Fits bound)
    (hentry : entry.1 ∈ loaded.query.program.capabilitySteps) (hdeclared : Declared loaded.resolved entry.1.name)
    (hwithin : Within store loaded bound progress)
    (h : runCapabilityStep store loaded.resolved bound workers (negotiateQueryCapabilities (requirements loaded.resolved) workers)
      answers progress entry = .error error) : StepFailure store loaded bound workers answers error := by
  have hused : entry.1.name ∈ usedCapabilities loaded.resolved := List.mem_map_of_mem hentry
  rcases bind_eq_error_iff.1 h with hnegotiated | ⟨⟨requirement, item⟩, hnegotiated, h⟩
  · obtain ⟨rfl, hconflicting⟩ := negotiated hdeclared hnegotiated
    exact .conflictingVersions hused hconflicting
  dsimp only at h
  split at h
  · cases h
  next hstatus =>
  obtain ⟨-, hitem, hitemname⟩ := negotiatedStep_ok hnegotiated
  have hversion : item.version = requirement.version := by
    obtain ⟨found, hfound, hrest⟩ := bind_eq_ok_iff.1 hnegotiated
    split at hrest
    · cases hrest
    · next hfind =>
      obtain ⟨rfl, rfl⟩ := Prod.mk.inj (Except.ok.inj hrest)
      have hsome := List.find?_some hfind
      rw [decide_eq_true_eq] at hsome
      exact hsome.2
  obtain ⟨worker, hworker, hprovided, hoffers⟩ := provided hnames hitem (not_not.1 hstatus)
  rw [hprovided, ok_bind] at h
  rcases bind_eq_error_iff.1 h with harguments | ⟨arguments, -, h⟩
  · obtain ⟨source, hsource, rfl⟩ := mapError_eq_error_iff.1 harguments
    refine .compile (fun htyped hof => bindCapabilityArguments_blameless (fun use huse => ?_) ⟨source, hsource, hof⟩)
      (bindCapabilityArguments_bounded hsource)
    exact (hbind.admitted_iff use).2 (htyped use (List.mem_append_right _ (List.mem_flatMap.2 ⟨entry.1, hentry, huse⟩)))
  rcases bind_eq_error_iff.1 h with hplan | ⟨plan, hplan, h⟩
  · obtain ⟨source, hsource, rfl⟩ := mapError_eq_error_iff.1 hplan
    rw [hitemname, hversion] at hoffers
    obtain ⟨reason, rfl⟩ | ⟨rfl, hshared⟩ := planSemanticCapability_failure hwithin.bounded hoffers hsource
    · exact .invalidArguments
    · exact .sharedSource fun hnodup => hshared (hnodup.sublist (hwithin.sublist.map _))
  rcases bind_eq_error_iff.1 h with hfacts | ⟨_, -, h⟩
  · obtain ⟨hresult, rfl⟩ := reject_eq_error_iff.1 hfacts
    obtain ⟨hcapability, hname⟩ := planSemanticCapability_offered (mapError_eq_ok_iff.1 hplan)
    exact .normalizedFacts hused hworker hcapability hname hresult
  rcases bind_eq_error_iff.1 h with hanswer | ⟨_, -, h⟩
  · obtain ⟨message, hmessage, rfl⟩ := mapError_eq_error_iff.1 hanswer
    exact .worker hmessage
  · cases h

/-- **Run.** -/
theorem runCapabilitySteps_failure {progress : QueryProgress} {entries : List (QueryCapabilityStep × Nat)} {error : ProjectQueryError}
    (hnames : (workers.map (·.installation.name)).Nodup) (hbind : loaded.query.Fits bound)
    (hentries : ∀ entry ∈ entries, entry.1 ∈ loaded.query.program.capabilitySteps)
    (hdeclared : ∀ step ∈ loaded.query.program.capabilitySteps, Declared loaded.resolved step.name)
    (hwithin : Within store loaded bound progress)
    (h : runCapabilitySteps store loaded.resolved bound workers (negotiateQueryCapabilities (requirements loaded.resolved) workers)
      answers progress entries = .error error) : StepFailure store loaded bound workers answers error := by
  induction entries generalizing progress with
  | nil => cases h
  | cons entry entries ih =>
    obtain ⟨hentry, hentries⟩ := List.forall_mem_cons.1 hentries
    rcases bind_eq_error_iff.1 h with hstep | ⟨outcome, hstep, h⟩
    · exact runCapabilityStep_failure hnames hbind hentry (hdeclared _ hentry) hwithin hstep
    cases outcome with
    | unsupported plan => cases h
    | refined next => exact ih hentries (hwithin.of_refines (runCapabilityStep_refines hstep)) h

theorem within_selection {result : QueryResult} {plan : QueryPlanRecord} {capabilityPartial : Bool}
    (h : executeQuery store bound loaded.resolved.program = .ok result) :
    Within store loaded bound ⟨result, plan, capabilityPartial, []⟩ := by
  constructor
  · rw [selection, h]
  · obtain ⟨selected, hplan, -, hsymbols, -⟩ := executeQuery_ok_iff.1 h
    obtain ⟨hlimit, -, hmax⟩ := compileQuery_limit hplan
    have hlength := List.length_take_le loaded.resolved.program.limit selected.symbols
    rw [← hsymbols] at hlength
    show result.symbols.length ≤ _
    omega

end

/-! ## The command -/

section
variable {registry : PackageRegistry} {files : String → Option String}

theorem loadWithMacros_declared {path : String} {loaded : LoadedQuery} (h : loadWithMacros registry files path = .ok loaded) :
    ∀ step ∈ loaded.query.program.capabilitySteps, Declared loaded.resolved step.name := by
  unfold loadWithMacros at h
  split at h
  · cases h
  obtain ⟨expansions, -, h⟩ := bind_eq_ok_iff.1 h
  obtain ⟨query, -, h⟩ := bind_eq_ok_iff.1 h
  dsimp only at h
  split at h
  · cases h
  · next hnone =>
    obtain rfl := Except.ok.inj h
    intro step hstep
    have hfound := List.find?_eq_none.1 hnone step hstep
    simp only [Bool.not_eq_true', Bool.not_eq_false, List.any_eq_true, PackageDeclares, decide_eq_true_eq] at hfound
    obtain ⟨package, hpackage, capability, hcapability, hname⟩ := hfound
    exact ⟨capability, List.mem_flatMap.2 ⟨package, hpackage, hcapability⟩, hname⟩

theorem load_declared {fileNames : List String} {name : String} {loaded : LoadedQuery}
    (h : load registry files fileNames name = .ok loaded) :
    ∀ step ∈ loaded.query.program.capabilitySteps, Declared loaded.resolved step.name := by
  unfold load at h
  split at h
  · cases h
  · exact loadWithMacros_declared h

end

section
variable {surroundings : Surroundings} {loaded : LoadedQuery}

theorem workers_names {workers : List DiscoveredWorker} (h : surroundings.workers loaded = .ok workers) :
    (workers.map (·.installation.name)).Nodup ∧ workers.length ≤ 1 := by
  unfold Surroundings.workers at h
  split at h
  · cases hworker : surroundings.handshake with
    | error e =>
      rw [hworker] at h
      cases h
    | ok worker =>
      rw [hworker] at h
      obtain rfl := Except.ok.inj h
      exact ⟨List.nodup_singleton _, le_refl 1⟩
  · obtain rfl := Except.ok.inj h
    exact ⟨List.nodup_nil, Nat.zero_le 1⟩

theorem executeResolved_failure {bound : QueryParameters} {workers : List DiscoveredWorker} {error : ProjectQueryError}
    (hnames : (workers.map (·.installation.name)).Nodup) (hbind : loaded.query.Fits bound)
    (hdeclared : ∀ step ∈ loaded.query.program.capabilitySteps, Declared loaded.resolved step.name)
    (h : surroundings.execute loaded bound workers = .error error) :
    StepFailure surroundings.store loaded bound workers surroundings.answers error := by
  unfold Surroundings.execute executeResolved at h
  dsimp only at h
  split at h
  · cases h
  rcases bind_eq_error_iff.1 h with hselect | ⟨result, hselect, h⟩
  · obtain ⟨source, hsource, rfl⟩ := mapError_eq_error_iff.1 hselect
    rcases bind_eq_error_iff.1 hsource with hplan | ⟨plan, hplan, hselected⟩
    · refine .compile (fun htyped hof => compileQuery_blameless (fun use huse => ?_) ⟨source, hplan, hof⟩)
        (compileQuery_bounded hplan)
      exact (hbind.admitted_iff use).2 (htyped use (List.mem_append_left _ huse))
    · obtain ⟨selected, hok⟩ := compiled_bounded hplan
      rw [hok] at hselected
      cases hselected
  rcases bind_eq_error_iff.1 h with hsteps | ⟨outcome, -, h⟩
  · exact runCapabilitySteps_failure hnames hbind (fun entry hentry => List.fst_mem_of_mem_zipIdx hentry) hdeclared
      (within_selection (mapError_eq_ok_iff.1 hselect)) hsteps
  · cases outcome <;> cases h

/-- What can go wrong with a command: before it is loaded and bound, with the one handshake it needs, or with its execution. -/
inductive Failure (surroundings : Surroundings) (name : String) (params : List (String × String)) : InvokeError → Prop
  | load {source : LoadError} (hload : load surroundings.registry surroundings.texts surroundings.queries name = .error source) :
      Failure surroundings name params (.load source)
  | bind {loaded : LoadedQuery} {source : ProjectQuery.BindError}
      (hload : load surroundings.registry surroundings.texts surroundings.queries name = .ok loaded)
      (hbind : loaded.query.bind params = .error source) : Failure surroundings name params (.bind source)
  | discovery {loaded : LoadedQuery} {source : WorkerRegistryError}
      (hload : load surroundings.registry surroundings.texts surroundings.queries name = .ok loaded)
      (hneeded : needsDiscovery loaded.resolved = true) (hhandshake : surroundings.handshake = .error source) :
      Failure surroundings name params (.discovery source)
  | execution {loaded : LoadedQuery} {bound : QueryParameters} {workers : List DiscoveredWorker} {source : ProjectQueryError}
      (hload : load surroundings.registry surroundings.texts surroundings.queries name = .ok loaded)
      (hbind : loaded.query.bind params = .ok bound) (hworkers : surroundings.workers loaded = .ok workers)
      (hstep : StepFailure surroundings.store loaded bound workers surroundings.answers source) :
      Failure surroundings name params (.execution source)

/-- **Safety.** A command that is loaded from its file never panics in `execute_resolved` and never misses a declaration, a
negotiation, a provider or a capability; what is left to go wrong is named. -/
theorem invoke_failure {name : String} {params : List (String × String)} {error : InvokeError}
    (h : surroundings.invoke name params = .error error) : Failure surroundings name params error := by
  rcases bind_eq_error_iff.1 h with hload | ⟨loaded, hload, h⟩
  · obtain ⟨source, hsource, rfl⟩ := mapError_eq_error_iff.1 hload
    exact .load hsource
  have hload := mapError_eq_ok_iff.1 hload
  rcases bind_eq_error_iff.1 h with hbind | ⟨bound, hbind, h⟩
  · obtain ⟨source, hsource, rfl⟩ := mapError_eq_error_iff.1 hbind
    exact .bind hload hsource
  have hbind := mapError_eq_ok_iff.1 hbind
  rcases bind_eq_error_iff.1 h with hworkers | ⟨workers, hworkers, h⟩
  · obtain ⟨source, hsource, rfl⟩ := mapError_eq_error_iff.1 hworkers
    unfold Surroundings.workers at hsource
    split at hsource
    · next hneeded =>
      cases hhandshake : surroundings.handshake with
      | error failed =>
        rw [hhandshake] at hsource
        obtain rfl := Except.error.inj hsource
        exact .discovery hload hneeded hhandshake
      | ok worker =>
        rw [hhandshake] at hsource
        cases hsource
    · cases hsource
  have hworkers := mapError_eq_ok_iff.1 hworkers
  obtain ⟨source, hsource, rfl⟩ := mapError_eq_error_iff.1 h
  exact .execution hload hbind hworkers
    (executeResolved_failure (workers_names hworkers).1 (ProjectQuery.fits_of_bind hbind) (load_declared hload) hsource)

/-! ## Without a worker -/

/-- Steps need a worker, and so do required capabilities. -/
theorem needsDiscovery_eq_false_iff {fileNames : List String} {name : String} {registry : PackageRegistry}
    {texts : String → Option String} (hload : load registry texts fileNames name = .ok loaded) :
    needsDiscovery loaded.resolved = false ↔ loaded.query.program.capabilitySteps = [] ∧
      ∀ package ∈ loaded.packages, ∀ capability ∈ package.capabilities, capability.required = false := by
  unfold needsDiscovery
  rw [List.any_eq_false]
  constructor
  · intro h
    refine ⟨List.eq_nil_iff_forall_not_mem.2 fun step hstep => ?_, fun package hpackage capability hcapability => ?_⟩
    · obtain ⟨capability, hcapability, hname⟩ := load_declared hload step hstep
      obtain ⟨requirement, hrequirement, hrequirementname, -⟩ := exists_requirement hcapability
      have hused : requirement.name ∈ usedCapabilities loaded.resolved := by
        rw [hrequirementname, hname]
        exact List.mem_map_of_mem hstep
      exact h requirement hrequirement (by simp [hused])
    · have hmem : capability ∈ loaded.resolved.packages.flatMap (·.capabilities) := List.mem_flatMap.2 ⟨package, hpackage, hcapability⟩
      obtain ⟨requirement, hrequirement, -, -, hrequired⟩ := exists_requirement hmem
      rw [Bool.eq_false_iff]
      exact fun hneeded => h requirement hrequirement (by simp [hrequired hneeded])
  · rintro ⟨hsteps, hoptional⟩ requirement hrequirement
    have hused : requirement.name ∉ usedCapabilities loaded.resolved := by
      rw [usedCapabilities, LoadedQuery.resolved, hsteps]
      exact List.not_mem_nil
    have hnot : requirement.required = false := by
      obtain ⟨key, -, rfl⟩ := List.mem_map.1 hrequirement
      refine List.any_eq_false.2 fun capability hcapability => ?_
      obtain ⟨package, hpackage, hcapability⟩ := List.mem_flatMap.1 hcapability
      simp [hoptional package hpackage capability hcapability]
    simp [hused, hnot]

/-- The answers belong to the steps. -/
theorem execute_answers {bound : QueryParameters} {workers : List DiscoveredWorker} (h : loaded.query.program.capabilitySteps = [])
    (handshake : Except WorkerRegistryError DiscoveredWorker) (answers : Nat → Except String SemanticQueryResponse) :
    { surroundings with handshake, answers }.execute loaded bound workers = surroundings.execute loaded bound workers := by
  unfold Surroundings.execute executeResolved
  simp only [LoadedQuery.resolved, h, List.zipIdx_nil]
  rfl

theorem invoke_loaded (surroundings : Surroundings) {name : String} {params : List (String × String)} {bound : QueryParameters}
    (hload : load surroundings.registry surroundings.texts surroundings.queries name = .ok loaded)
    (hbind : loaded.query.bind params = .ok bound) : surroundings.invoke name params =
      (surroundings.workers loaded).mapError .discovery >>= fun workers => (surroundings.execute loaded bound workers).mapError .execution := by
  unfold Surroundings.invoke
  rw [hload]
  change (loaded.query.bind params).mapError InvokeError.bind >>= _ = _
  rw [hbind]
  rfl

/-- **Without a worker.** What a command prints does not depend on the worker, however it answers, exactly if the command has
no steps and its packages require no capability. -/
theorem invoke_workerFree_iff {name : String} {params : List (String × String)} {bound : QueryParameters}
    (hload : load surroundings.registry surroundings.texts surroundings.queries name = .ok loaded)
    (hbind : loaded.query.bind params = .ok bound) :
    (∀ handshake answers, { surroundings with handshake, answers }.invoke name params = surroundings.invoke name params) ↔
      loaded.query.program.capabilitySteps = [] ∧
        ∀ package ∈ loaded.packages, ∀ capability ∈ package.capabilities, capability.required = false := by
  rw [← needsDiscovery_eq_false_iff hload]
  constructor
  · intro h
    by_contra hneeded
    have hfails : ∀ source, { surroundings with handshake := .error source }.invoke name params = .error (.discovery source) := by
      intro source
      rw [invoke_loaded { surroundings with handshake := .error source } hload hbind, Surroundings.workers,
        if_pos (Bool.eq_true_of_not_eq_false hneeded)]
      rfl
    have hsame := (hfails ⟨"one", .exited⟩).symm.trans ((h _ _).trans ((h _ _).symm.trans (hfails ⟨"other", .exited⟩)))
    simp at hsame
  · intro hfree handshake answers
    have hworkers : ∀ other : Surroundings, other.workers loaded = .ok [] := fun other => by
      rw [Surroundings.workers, if_neg (by rw [hfree]; decide)]
    rw [invoke_loaded { surroundings with handshake, answers } hload hbind, invoke_loaded surroundings hload hbind, hworkers, hworkers]
    change ({ surroundings with handshake, answers }.execute loaded bound []).mapError _ = (surroundings.execute loaded bound []).mapError _
    rw [execute_answers ((needsDiscovery_eq_false_iff hload).1 hfree).1]

end

/-! ## A workspace with two packages -/

def auditSurroundings : Surroundings where
  registry := auditRegistry
  queries := ["used.kql", "entities.kql"]
  texts := auditTexts
  store := entityStoreOfA
  handshake := .ok reachableWorker
  answers := namingEntities ["First"]
  sha256 := hexDigest
  configuration := allowStaleConfiguration
  files := noFiles

/-- Two packages declare `reachable` in different versions. -/
theorem used_conflicts : Failure auditSurroundings "used" [] (.execution (.conflictingVersions "reachable")) :=
  invoke_failure (by decide +kernel)

/-- An optional capability that no step uses leaves the worker alone. -/
theorem entities_workerFree : auditEntities.query.program.capabilitySteps = [] ∧ ∀ handshake answers,
    { auditSurroundings with handshake, answers }.invoke "entities" [] = auditSurroundings.invoke "entities" [] := by
  have hload : load auditRegistry auditTexts ["used.kql", "entities.kql"] "entities" = .ok auditEntities := by decide +kernel
  have hbind : auditEntities.query.bind [] = .ok (fun name => (lastOf Prod.fst [] name).map Prod.snd) := rfl
  exact ⟨rfl, (invoke_workerFree_iff hload hbind).2 ⟨rfl, by decide⟩⟩

end Kide
