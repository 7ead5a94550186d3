import Kide.Query.Capabilities
import Kide.Query.Navigation
import Kide.Store.Migrations
import Kide.Workers.Registry

/-!
# Project queries

`execute_resolved` (`query.rs`): the indexed selection, the worker steps that refine it, the freshness gate, and one status
for what is printed. What a worker answers at a step is a parameter, whatever the worker reads of the plan it is given.

The state of the selection is fixed before the steps. `executeResolved_status_iff`: status and printed symbols agree exactly
where the steps leave a symbol of a selection that had one.
-/

namespace Kide
open Checks

/-! ## Packages and negotiation -/

structure PackageCapability where
  name : String
  version : Nat
  required : Bool
deriving DecidableEq, Repr

structure ResolvedPackage where
  id : String
  version : String
  manifestDigest : Fingerprint
  capabilities : List PackageCapability
deriving DecidableEq, Repr

/-- A query with the packages of its path. Of the command only the program is executed. -/
structure ResolvedProjectQuery where
  program : QueryProgram
  packages : List ResolvedPackage
deriving DecidableEq, Repr

inductive QueryCapabilityStatus where
  | supported | missing | incompatibleVersion
deriving DecidableEq, Repr

structure QueryCapabilityNegotiation where
  name : String
  version : Nat
  required : Bool
  status : QueryCapabilityStatus
  providers : List String
  availableVersions : List Nat
deriving DecidableEq, Repr

def capabilityKeyLe (a b : String × Nat) : Prop := a.1 < b.1 ∨ (a.1 = b.1 ∧ a.2 ≤ b.2)

instance : DecidableRel capabilityKeyLe := fun a b => inferInstanceAs (Decidable (a.1 < b.1 ∨ (a.1 = b.1 ∧ a.2 ≤ b.2)))

/-- The capabilities of the packages by name and version, required where one package requires them. -/
def requirements (resolved : ResolvedProjectQuery) : List PackageCapability :=
  let capabilities := resolved.packages.flatMap (·.capabilities)
  (((capabilities.map fun capability => (capability.name, capability.version)).dedup).insertionSort capabilityKeyLe).map
    fun key => ⟨key.1, key.2, capabilities.any fun capability =>
      capability.name = key.1 ∧ capability.version = key.2 ∧ capability.required⟩

def usedCapabilities (resolved : ResolvedProjectQuery) : List String := resolved.program.capabilitySteps.map (·.name)

/-- By name, version, and `false` before `true`. -/
def PackageCapability.le (a b : PackageCapability) : Prop :=
  a.name < b.name ∨ (a.name = b.name ∧
    (a.version < b.version ∨ (a.version = b.version ∧ (a.required = false ∨ b.required = true))))

instance : DecidableRel PackageCapability.le := fun a b => inferInstanceAs (Decidable (a.name < b.name ∨ (a.name = b.name ∧
  (a.version < b.version ∨ (a.version = b.version ∧ (a.required = false ∨ b.required = true))))))

def negotiateQueryCapabilities (requirements : List PackageCapability) (workers : List DiscoveredWorker) :
    List QueryCapabilityNegotiation :=
  (requirements.insertionSort PackageCapability.le).map fun requirement =>
    let advertised := workers.flatMap fun worker =>
      (worker.capabilities.semanticQueryCapabilities.filter (·.name = requirement.name)).map fun capability =>
        (worker.installation.name, capability.version)
    let providers := (((advertised.filter (·.2 = requirement.version)).map (·.1)).dedup).insertionSort stringLe
    let availableVersions := ((advertised.map (·.2)).dedup).insertionSort (· ≤ ·)
    let status :=
      if providers ≠ [] then .supported else if availableVersions = [] then .missing else .incompatibleVersion
    ⟨requirement.name, requirement.version, requirement.required, status, providers, availableVersions⟩

/-! ## The printed plan -/

structure PackagePlanRecord where
  id : String
  version : String
  manifestDigest : Fingerprint
deriving DecidableEq, Repr

structure CapabilityProviderRecord where
  installation : String
  backend : String
  backendVersion : String
  protocolVersion : Nat
deriving DecidableEq, Repr

structure CapabilityPlanRecord where
  name : String
  version : Nat
  required : Bool
  used : Bool
  status : QueryCapabilityStatus
  providers : List CapabilityProviderRecord
  availableVersions : List Nat
  budget : Option SemanticQueryBudget
  executionState : Option SemanticQueryResponseState
deriving DecidableEq, Repr

structure QueryPlanRecord where
  packages : List PackagePlanRecord
  capabilities : List CapabilityPlanRecord
deriving DecidableEq, Repr

def providerRecord (worker : DiscoveredWorker) : CapabilityProviderRecord :=
  ⟨worker.installation.name, worker.capabilities.identity.backend, worker.capabilities.identity.backendVersion,
    worker.capabilities.protocolVersion⟩

def negotiatedPlan (resolved : ResolvedProjectQuery) (negotiations : List QueryCapabilityNegotiation)
    (workers : List DiscoveredWorker) : QueryPlanRecord where
  packages := resolved.packages.map fun package => ⟨package.id, package.version, package.manifestDigest⟩
  capabilities := negotiations.map fun negotiation => {
    name := negotiation.name
    version := negotiation.version
    required := negotiation.required
    used := negotiation.name ∈ usedCapabilities resolved
    status := negotiation.status
    providers := (negotiation.providers.filterMap fun name => workers.find? (·.installation.name = name)).map providerRecord
    availableVersions := negotiation.availableVersions
    budget := none
    executionState := none }

/-- Notes the execution in the first record of the capability. -/
def recordExecution (name : String) (version : Nat) (budget : SemanticQueryBudget) (state : SemanticQueryResponseState) :
    List CapabilityPlanRecord → List CapabilityPlanRecord
  | [] => []
  | record :: records =>
    if record.name = name ∧ record.version = version then
      { record with budget := some budget, executionState := some state } :: records
    else record :: recordExecution name version budget state records

structure ResultMetadata where
  freshness : Freshness
  completeness : Completeness
  precision : Precision
  indexFormatVersion : Nat
  sourceSnapshot : Option Fingerprint
  provenance : List Provenance
deriving DecidableEq, Repr

/-- A printed line: a symbol with its metadata, or only the status. -/
inductive QueryLine where
  | record (symbol : SymbolRecord) (metadata : ResultMetadata) (status : QueryStatus) (plan : QueryPlanRecord)
  | statusRecord (status : QueryStatus) (plan : QueryPlanRecord)
deriving DecidableEq

structure QueryOutput where
  status : QueryStatus
  lines : List QueryLine
deriving DecidableEq

def QueryLine.printed : QueryLine → Option SymbolRecord
  | .record symbol _ _ _ => some symbol
  | .statusRecord _ _ => none

def QueryOutput.symbols (output : QueryOutput) : List SymbolRecord := output.lines.filterMap (·.printed)

def statusOnly (status : QueryStatus) (plan : QueryPlanRecord) : QueryOutput := ⟨status, [.statusRecord status plan]⟩

def printRecords (result : QueryResult) (status : QueryStatus) (plan : QueryPlanRecord)
    (capabilityProvenance : List Provenance) : QueryOutput :=
  if result.symbols = [] then statusOnly status plan
  else
    ⟨status, result.symbols.map fun symbol =>
      .record symbol
        ⟨symbol.freshness, symbol.completeness, .exact, Migrations.INDEX_FORMAT_VERSION, none, symbol.provenance :: capabilityProvenance⟩
        status plan⟩

/-! ## The steps -/

inductive ProjectQueryError where
  | compile (source : QueryCompileError)
  | undeclaredCapability (name : String)
  | conflictingVersions (name : String)
  | capability (source : SemanticCapabilityError)
  | normalizedFacts (name : String)
  | worker (message : String)
  | panicked (message : String)
deriving DecidableEq

def requirementForStep (requirements : List PackageCapability) (name : String) :
    Except ProjectQueryError PackageCapability :=
  match requirements.filter (·.name = name) with
  | [] => .error (.undeclaredCapability name)
  | [requirement] => .ok requirement
  | _ => .error (.conflictingVersions name)

/-- The requirement of a step and how it was negotiated. -/
def negotiatedStep (requirements : List PackageCapability) (negotiations : List QueryCapabilityNegotiation)
    (step : QueryCapabilityStep) : Except ProjectQueryError (PackageCapability × QueryCapabilityNegotiation) := do
  let requirement ← requirementForStep requirements step.name
  match negotiations.find? fun item => item.name = step.name ∧ item.version = requirement.version with
  | none => .error (.panicked "every requirement is negotiated")
  | some negotiation => .ok (requirement, negotiation)

def negotiatedWorker (workers : List DiscoveredWorker) (negotiation : QueryCapabilityNegotiation) :
    Except ProjectQueryError DiscoveredWorker :=
  match negotiation.providers.head? with
  | none => .error (.panicked "supported negotiation has a provider")
  | some providerName =>
    match workers.find? (·.installation.name = providerName) with
    | none => .error (.panicked "negotiation provider is discovered")
    | some worker => .ok worker

def bindCapabilityValue (store : IndexStore) (parameters : QueryParameters) :
    QueryCapabilityValue → Except QueryCompileError SemanticQueryArgumentValue
  | .parameter name => do
    match ← parameter parameters name with
    | .symbolId value => .ok (.symbolId value)
    | .qualifiedSymbol value => SemanticQueryArgumentValue.symbolId <$> resolveQualifiedSymbol store value
    | .componentId value => .ok (.componentId value)
    | .string value => .ok (.string value)
    | .integer value => .ok (.integer value)
  | .symbolId value => .ok (.symbolId value)
  | .componentId value => .ok (.componentId value)
  | .string value => .ok (.string value)
  | .integer value => .ok (.integer value)

def bindCapabilityArguments (store : IndexStore) (parameters : QueryParameters) (step : QueryCapabilityStep) :
    Except QueryCompileError (List SemanticQueryArgument) :=
  step.arguments.mapM fun argument => do
    let value ← bindCapabilityValue store parameters argument.value
    .ok ⟨argument.name, value⟩

/-- What the loop over the steps changes. -/
structure QueryProgress where
  result : QueryResult
  plan : QueryPlanRecord
  capabilityPartial : Bool
  capabilityProvenance : List Provenance
deriving DecidableEq

inductive StepOutcome where
  | unsupported (plan : QueryPlanRecord)
  | refined (progress : QueryProgress)
deriving DecidableEq

/-- The symbols that a response names. -/
def QueryResult.retain (result : QueryResult) (response : SemanticQueryResponse) : QueryResult :=
  { result with symbols := result.symbols.filter (·.id ∈ response.candidateSymbols) }

def QueryProgress.answered (progress : QueryProgress) (requirement : PackageCapability) (response : SemanticQueryResponse) :
    StepOutcome :=
  let plan := { progress.plan with
    capabilities := recordExecution requirement.name requirement.version (capabilityBudget progress.result) response.state
      progress.plan.capabilities }
  if response.state = .unsupported ∧ requirement.required then .unsupported plan
  else
    .refined {
      result := if response.state = .unsupported then progress.result else progress.result.retain response
      plan
      capabilityPartial := progress.capabilityPartial || response.state ≠ .complete
      capabilityProvenance := progress.capabilityProvenance ++ [response.provenance] }

section
variable (store : IndexStore) (resolved : ResolvedProjectQuery) (bound : QueryParameters) (workers : List DiscoveredWorker)
  (negotiations : List QueryCapabilityNegotiation) (answers : Nat → Except String SemanticQueryResponse)

/-- One step, by its place in the program. -/
def runCapabilityStep (progress : QueryProgress) (entry : QueryCapabilityStep × Nat) : Except ProjectQueryError StepOutcome := do
  let (step, index) := entry
  let (requirement, negotiation) ← negotiatedStep (requirements resolved) negotiations step
  if negotiation.status ≠ .supported then .ok (.refined progress)
  else do
    let worker ← negotiatedWorker workers negotiation
    let arguments ← (bindCapabilityArguments store bound step).mapError .compile
    let capabilityPlan ← (planSemanticCapability worker step.name requirement.version arguments progress.result.symbolIds
      progress.result.sourceUnits (capabilityBudget progress.result)).mapError .capability
    reject (capabilityPlan.capability.result ≠ .candidateSymbols) (.normalizedFacts step.name)
    let response ← (answers index).mapError .worker
    .ok (progress.answered requirement response)

def runCapabilitySteps (progress : QueryProgress) : List (QueryCapabilityStep × Nat) → Except ProjectQueryError StepOutcome
  | [] => .ok (.refined progress)
  | entry :: entries => do
    match ← runCapabilityStep store resolved bound workers negotiations answers progress entry with
    | .unsupported plan => .ok (.unsupported plan)
    | .refined progress => runCapabilitySteps progress entries

def selectorStatus : SelectorState → QueryStatus
  | .complete => .ok
  | .partially => .stale
  | .noResult => .noResult

/-- The end of the command: the gate, and the status of the state. -/
def answerProgress (sha256 : Bytes → String) (configuration : EffectiveConfiguration) (files : WorkspaceFiles)
    (progress : QueryProgress) : QueryOutput :=
  let state := if progress.capabilityPartial ∧ progress.result.state = .complete then .partially else progress.result.state
  match freshnessProblem sha256 configuration files store (.symbols progress.result.symbols) with
  | some _ => statusOnly .stale progress.plan
  | none =>
    printRecords { progress.result with state } (selectorStatus state) progress.plan progress.capabilityProvenance

def executeResolved (sha256 : Bytes → String) (configuration : EffectiveConfiguration) (files : WorkspaceFiles) :
    Except ProjectQueryError QueryOutput := do
  let plan := negotiatedPlan resolved negotiations workers
  if negotiations.any fun item => item.required ∧ item.status ≠ .supported then .ok (statusOnly .unsupported plan)
  else do
    let result ← (executeQuery store bound resolved.program).mapError .compile
    let capabilityPartial := negotiations.any fun item =>
      !item.required ∧ item.name ∈ usedCapabilities resolved ∧ item.status ≠ .supported
    match ← runCapabilitySteps store resolved bound workers negotiations answers ⟨result, plan, capabilityPartial, []⟩
        resolved.program.capabilitySteps.zipIdx with
    | .unsupported plan => .ok (statusOnly .unsupported plan)
    | .refined progress => .ok (answerProgress store sha256 configuration files progress)

end

/-! ## The law -/

section
variable (store : IndexStore) (resolved : ResolvedProjectQuery) (bound : QueryParameters)
  (negotiations : List QueryCapabilityNegotiation) (answers : Nat → Except String SemanticQueryResponse)

/-- The step is run: the package requires its capability, and a worker offers it. -/
def StepRuns (step : QueryCapabilityStep) : Prop :=
  ∃ requirement negotiation, negotiatedStep (requirements resolved) negotiations step = .ok (requirement, negotiation) ∧
    negotiation.status = .supported

/-- A required capability is not offered, or answers that it is not supported. -/
def RequiredUnsupported : Prop :=
  (∃ item ∈ negotiations, item.required ∧ item.status ≠ .supported) ∨
    ∃ entry ∈ resolved.program.capabilitySteps.zipIdx, StepRuns resolved negotiations entry.1 ∧
      (∃ requirement, requirementForStep (requirements resolved) entry.1.name = .ok requirement ∧ requirement.required) ∧
      ∃ response, answers entry.2 = .ok response ∧ response.state = .unsupported

/-- The answer at this place does not leave the symbol out. -/
def keptBy (symbol : SymbolRecord) (entry : QueryCapabilityStep × Nat) : Bool :=
  match negotiatedStep (requirements resolved) negotiations entry.1, answers entry.2 with
  | .ok (_, negotiation), .ok response =>
    negotiation.status ≠ .supported || response.state = .unsupported || symbol.id ∈ response.candidateSymbols
  | _, _ => true

/-- The symbols that the index selects, up to the limit. -/
def selection : List SymbolRecord :=
  match executeQuery store bound resolved.program with
  | .ok result => result.symbols
  | .error _ => []

/-- The symbols of the selection that every answer names. -/
def remaining : List SymbolRecord :=
  (selection store resolved bound).filter fun symbol =>
    resolved.program.capabilitySteps.zipIdx.all (keptBy resolved negotiations answers symbol)

/-- The limit cuts nothing off. -/
def Unlimited : Prop :=
  ∃ plan selected, compileQuery store bound resolved.program = .ok plan ∧ select store plan.selector = .ok selected ∧
    selected.symbols.length ≤ resolved.program.limit

/-- Every step of the query is run and completely answered. -/
def StepsComplete : Prop :=
  ∀ entry ∈ resolved.program.capabilitySteps.zipIdx, StepRuns resolved negotiations entry.1 ∧
    ∃ response, answers entry.2 = .ok response ∧ response.state = .complete

/-- The gate finds a problem with the remaining symbols. -/
def StaleSource (sha256 : Bytes → String) (configuration : EffectiveConfiguration) (files : WorkspaceFiles) : Prop :=
  freshnessProblem sha256 configuration files store (.symbols (remaining store resolved bound negotiations answers)) ≠ none

/-- What status and printed symbols say about each other. -/
structure StatusLaw (stale : Prop) (output : QueryOutput) : Prop where
  ok : output.status = .ok → output.symbols ≠ [] ∧
    (∀ symbol ∈ output.symbols, symbol.freshness = .fresh ∧ symbol.completeness = .complete) ∧
    Unlimited store resolved bound ∧ StepsComplete resolved negotiations answers
  noResult : output.status = .noResult ↔ ¬ RequiredUnsupported resolved negotiations answers ∧ ¬ stale ∧
    remaining store resolved bound negotiations answers = []
  others : output.status = .ok ∨ output.status = .noResult ∨ output.status = .stale ∨ output.status = .unsupported

end

/-! ## The loop -/

section
variable {store : IndexStore} {resolved : ResolvedProjectQuery} {bound : QueryParameters} {workers : List DiscoveredWorker}
  {negotiations : List QueryCapabilityNegotiation} {answers : Nat → Except String SemanticQueryResponse}

theorem requirementForStep_name {all : List PackageCapability} {name : String} {requirement : PackageCapability}
    (h : requirementForStep all name = .ok requirement) : requirement.name = name := by
  unfold requirementForStep at h
  split at h
  · cases h
  · next found heq =>
    obtain rfl := Except.ok.inj h
    have hmem : found ∈ all.filter (·.name = name) := by rw [heq]; exact List.mem_singleton.2 rfl
    simpa using (List.mem_filter.1 hmem).2
  · cases h

theorem negotiatedStep_ok {all : List PackageCapability} {step : QueryCapabilityStep} {requirement : PackageCapability}
    {negotiation : QueryCapabilityNegotiation} (h : negotiatedStep all negotiations step = .ok (requirement, negotiation)) :
    requirementForStep all step.name = .ok requirement ∧ negotiation ∈ negotiations ∧ negotiation.name = step.name := by
  obtain ⟨found, hfound, h⟩ := bind_eq_ok_iff.1 h
  split at h
  · cases h
  · next item hitem =>
    obtain ⟨rfl, rfl⟩ := Prod.mk.inj (Except.ok.inj h)
    have hname := List.find?_some hitem
    exact ⟨hfound, List.mem_of_find?_eq_some hitem, (by simpa using hname : _ ∧ _).1⟩

/-- **Step.** -/
theorem runCapabilityStep_cases {progress : QueryProgress} {entry : QueryCapabilityStep × Nat} {outcome : StepOutcome}
    (h : runCapabilityStep store resolved bound workers negotiations answers progress entry = .ok outcome) :
    ∃ requirement negotiation,
      negotiatedStep (requirements resolved) negotiations entry.1 = .ok (requirement, negotiation) ∧
      ((negotiation.status ≠ .supported ∧ outcome = .refined progress) ∨
        negotiation.status = .supported ∧ ∃ response, answers entry.2 = .ok response ∧
          outcome = progress.answered requirement response) := by
  obtain ⟨⟨requirement, negotiation⟩, hnegotiated, h⟩ := bind_eq_ok_iff.1 h
  refine ⟨requirement, negotiation, hnegotiated, ?_⟩
  dsimp only at h
  split at h
  · next hstatus => exact .inl ⟨hstatus, (Except.ok.inj h).symm⟩
  · next hstatus =>
    obtain ⟨worker, -, h⟩ := bind_eq_ok_iff.1 h
    obtain ⟨arguments, -, h⟩ := bind_eq_ok_iff.1 h
    obtain ⟨plan, -, h⟩ := bind_eq_ok_iff.1 h
    obtain ⟨_, -, h⟩ := bind_eq_ok_iff.1 h
    obtain ⟨response, hresponse, h⟩ := bind_eq_ok_iff.1 h
    exact .inr ⟨not_not.1 hstatus, response, mapError_eq_ok_iff.1 hresponse, (Except.ok.inj h).symm⟩

/-- The loop ends early only at a required capability. -/
theorem runCapabilitySteps_unsupported {progress : QueryProgress} {entries : List (QueryCapabilityStep × Nat)}
    {plan : QueryPlanRecord}
    (h : runCapabilitySteps store resolved bound workers negotiations answers progress entries = .ok (.unsupported plan)) :
    ∃ entry ∈ entries, StepRuns resolved negotiations entry.1 ∧
      (∃ requirement, requirementForStep (requirements resolved) entry.1.name = .ok requirement ∧ requirement.required) ∧
      ∃ response, answers entry.2 = .ok response ∧ response.state = .unsupported := by
  induction entries generalizing progress with
  | nil => cases h
  | cons entry entries ih =>
    obtain ⟨outcome, hstep, h⟩ := bind_eq_ok_iff.1 h
    obtain ⟨requirement, negotiation, hnegotiated, hcases⟩ := runCapabilityStep_cases hstep
    cases outcome with
    | refined next =>
      obtain ⟨found, hfound, hsays⟩ := ih h
      exact ⟨found, List.mem_cons_of_mem _ hfound, hsays⟩
    | unsupported stopped =>
      obtain ⟨-, hnone⟩ | ⟨hstatus, response, hresponse, hanswered⟩ := hcases
      · cases hnone
      · unfold QueryProgress.answered at hanswered
        split_ifs at hanswered with hunsupported
        exact ⟨entry, List.mem_cons_self, ⟨requirement, negotiation, hnegotiated, hstatus⟩,
          ⟨requirement, (negotiatedStep_ok hnegotiated).1, hunsupported.2⟩, response, hresponse, hunsupported.1⟩

/-- What the entries of a loop that does not end early say. -/
structure StepsRefine (resolved : ResolvedProjectQuery) (negotiations : List QueryCapabilityNegotiation)
    (answers : Nat → Except String SemanticQueryResponse) (entries : List (QueryCapabilityStep × Nat))
    (progress next : QueryProgress) : Prop where
  state : next.result.state = progress.result.state
  symbols : next.result.symbols =
    progress.result.symbols.filter fun symbol => entries.all (keptBy resolved negotiations answers symbol)
  capabilityPartial : next.capabilityPartial = false → progress.capabilityPartial = false ∧
    ∀ entry ∈ entries, StepRuns resolved negotiations entry.1 → ∃ response, answers entry.2 = .ok response ∧ response.state = .complete
  supported : ∀ entry ∈ entries, StepRuns resolved negotiations entry.1 →
    ∀ requirement, requirementForStep (requirements resolved) entry.1.name = .ok requirement → requirement.required →
      ∀ response, answers entry.2 = .ok response → response.state ≠ .unsupported
  negotiated : ∀ entry ∈ entries, ∃ requirement negotiation,
    negotiatedStep (requirements resolved) negotiations entry.1 = .ok (requirement, negotiation)

theorem StepsRefine.cons {entry : QueryCapabilityStep × Nat} {entries : List (QueryCapabilityStep × Nat)}
    {progress middle next : QueryProgress} (hfirst : StepsRefine resolved negotiations answers [entry] progress middle)
    (hrest : StepsRefine resolved negotiations answers entries middle next) :
    StepsRefine resolved negotiations answers (entry :: entries) progress next := by
  refine ⟨hrest.state.trans hfirst.state, ?_, fun hcomplete => ?_, ?_, ?_⟩
  · rw [hrest.symbols, hfirst.symbols, List.filter_filter]
    refine List.filter_congr fun symbol _ => ?_
    rw [List.all_cons, List.all_cons, List.all_nil, Bool.and_true, Bool.and_comm]
  · obtain ⟨hmiddle, hlater⟩ := hrest.capabilityPartial hcomplete
    obtain ⟨hstart, hentry⟩ := hfirst.capabilityPartial hmiddle
    exact ⟨hstart, List.forall_mem_cons.2 ⟨hentry entry List.mem_cons_self, hlater⟩⟩
  · exact List.forall_mem_cons.2 ⟨hfirst.supported entry List.mem_cons_self, hrest.supported⟩
  · exact List.forall_mem_cons.2 ⟨hfirst.negotiated entry List.mem_cons_self, hrest.negotiated⟩

theorem answered_refined {progress next : QueryProgress} {requirement : PackageCapability} {response : SemanticQueryResponse}
    (h : progress.answered requirement response = .refined next) : ¬ (response.state = .unsupported ∧ requirement.required) ∧
      next.result = (if response.state = .unsupported then progress.result else progress.result.retain response) ∧
      next.capabilityPartial = (progress.capabilityPartial || response.state ≠ .complete) := by
  unfold QueryProgress.answered at h
  by_cases hstopped : response.state = .unsupported ∧ requirement.required
  · rw [if_pos hstopped] at h
    cases h
  · rw [if_neg hstopped] at h
    obtain rfl := StepOutcome.refined.inj h
    exact ⟨hstopped, rfl, rfl⟩

theorem runCapabilityStep_refines {progress next : QueryProgress} {entry : QueryCapabilityStep × Nat}
    (h : runCapabilityStep store resolved bound workers negotiations answers progress entry = .ok (.refined next)) :
    StepsRefine resolved negotiations answers [entry] progress next := by
  obtain ⟨requirement, negotiation, hnegotiated, hcases⟩ := runCapabilityStep_cases h
  have hruns : StepRuns resolved negotiations entry.1 → negotiation.status = .supported := by
    rintro ⟨requirement', negotiation', hother, hstatus⟩
    obtain ⟨-, rfl⟩ := Prod.mk.inj (Except.ok.inj (hother.symm.trans hnegotiated))
    exact hstatus
  obtain ⟨hstatus, hsame⟩ | ⟨hstatus, response, hresponse, hanswered⟩ := hcases
  · obtain rfl := StepOutcome.refined.inj hsame
    have hkept : ∀ symbol, keptBy resolved negotiations answers symbol entry = true := by
      intro symbol
      unfold keptBy
      rw [hnegotiated]
      cases answers entry.2 with
      | error e => rfl
      | ok response => simp [hstatus]
    refine ⟨rfl, ?_, fun hcomplete => ⟨hcomplete, ?_⟩, ?_, ?_⟩
    · simp [hkept]
    · exact List.forall_mem_singleton.2 fun hentry => absurd (hruns hentry) hstatus
    · exact List.forall_mem_singleton.2 fun hentry => absurd (hruns hentry) hstatus
    · exact List.forall_mem_singleton.2 ⟨requirement, negotiation, hnegotiated⟩
  · have hkept : ∀ symbol, keptBy resolved negotiations answers symbol entry =
        (response.state = .unsupported || symbol.id ∈ response.candidateSymbols) := by
      intro symbol
      unfold keptBy
      rw [hnegotiated, hresponse]
      simp [hstatus]
    obtain ⟨hstopped, hresult, hflag⟩ := answered_refined hanswered.symm
    refine ⟨?_, ?_, fun hcomplete => ?_, ?_, ?_⟩
    · rw [hresult]
      split_ifs <;> rfl
    · rw [hresult]
      split_ifs with hunsupported
      · simp [hkept, hunsupported]
      · simp [hkept, hunsupported, QueryResult.retain]
    · rw [hflag] at hcomplete
      obtain ⟨hstart, hstate⟩ := Bool.or_eq_false_iff.1 hcomplete
      refine ⟨hstart, List.forall_mem_singleton.2 fun _ => ⟨response, hresponse, ?_⟩⟩
      simpa using hstate
    · refine List.forall_mem_singleton.2 fun _ requirement' hrequirement hrequired response' hresponse' hunsupported => ?_
      obtain rfl := Except.ok.inj (hresponse.symm.trans hresponse')
      obtain rfl := Except.ok.inj ((negotiatedStep_ok hnegotiated).1.symm.trans hrequirement)
      exact hstopped ⟨hunsupported, hrequired⟩
    · exact List.forall_mem_singleton.2 ⟨requirement, negotiation, hnegotiated⟩

/-- **Run.** -/
theorem runCapabilitySteps_refines {progress next : QueryProgress} {entries : List (QueryCapabilityStep × Nat)}
    (h : runCapabilitySteps store resolved bound workers negotiations answers progress entries = .ok (.refined next)) :
    StepsRefine resolved negotiations answers entries progress next := by
  induction entries generalizing progress with
  | nil =>
    obtain rfl := StepOutcome.refined.inj (Except.ok.inj h)
    exact ⟨rfl, by simp, fun h => ⟨h, by simp⟩, by simp, by simp⟩
  | cons entry entries ih =>
    obtain ⟨outcome, hstep, h⟩ := bind_eq_ok_iff.1 h
    cases outcome with
    | unsupported stopped => cases Except.ok.inj h
    | refined middle => exact (runCapabilityStep_refines hstep).cons (ih h)

/-! ## The status -/

variable {sha256 : Bytes → String} {configuration : EffectiveConfiguration} {files : WorkspaceFiles} {output : QueryOutput}

theorem printRecords_spec (result : QueryResult) (status : QueryStatus) (plan : QueryPlanRecord) (provenance : List Provenance) :
    (printRecords result status plan provenance).status = status ∧
      (printRecords result status plan provenance).symbols = result.symbols := by
  unfold printRecords
  split_ifs with hempty
  · exact ⟨rfl, hempty.symm⟩
  · refine ⟨rfl, ?_⟩
    rw [QueryOutput.symbols, List.filterMap_map]
    exact List.filterMap_some

/-- A run to its end: the steps refined the selection, and nothing that is required was missing. -/
structure Refined (store : IndexStore) (resolved : ResolvedProjectQuery) (bound : QueryParameters)
    (negotiations : List QueryCapabilityNegotiation) (answers : Nat → Except String SemanticQueryResponse)
    (result : QueryResult) (progress : QueryProgress) : Prop where
  selected : executeQuery store bound resolved.program = .ok result
  supported : ¬ RequiredUnsupported resolved negotiations answers
  state : progress.result.state = result.state
  symbols : progress.result.symbols = remaining store resolved bound negotiations answers
  complete : progress.capabilityPartial = false → StepsComplete resolved negotiations answers

theorem executeResolved_cases
    (h : executeResolved store resolved bound workers negotiations answers sha256 configuration files = .ok output) :
    (RequiredUnsupported resolved negotiations answers ∧ ∃ plan, output = statusOnly .unsupported plan) ∨
      ∃ result progress, Refined store resolved bound negotiations answers result progress ∧
        output = answerProgress store sha256 configuration files progress := by
  unfold executeResolved at h
  dsimp only at h
  split at h
  · next hrequired =>
    obtain ⟨item, hitem, hsays⟩ := List.any_eq_true.1 hrequired
    exact .inl ⟨.inl ⟨item, hitem, by simpa using hsays⟩, _, (Except.ok.inj h).symm⟩
  · next hrequired =>
    obtain ⟨result, hresult, h⟩ := bind_eq_ok_iff.1 h
    have hselected := mapError_eq_ok_iff.1 hresult
    obtain ⟨outcome, hsteps, h⟩ := bind_eq_ok_iff.1 h
    cases outcome with
    | unsupported plan => exact .inl ⟨.inr (runCapabilitySteps_unsupported hsteps), _, (Except.ok.inj h).symm⟩
    | refined progress =>
      have hrefine := runCapabilitySteps_refines hsteps
      have hitems : ∀ item ∈ negotiations, item.required → item.status = .supported := by
        intro item hitem hneeded
        by_contra hstatus
        exact hrequired (List.any_eq_true.2 ⟨item, hitem, by simp [hneeded, hstatus]⟩)
      refine .inr ⟨result, progress, ⟨hselected, ?_, hrefine.state, ?_, fun hcomplete => ?_⟩, (Except.ok.inj h).symm⟩
      · rintro (⟨item, hitem, hneeded, hstatus⟩ | ⟨entry, hentry, hruns, ⟨requirement, hrequirement, hneeded⟩, response,
          hresponse, hunsupported⟩)
        · exact hstatus (hitems item hitem hneeded)
        · exact hrefine.supported entry hentry hruns requirement hrequirement hneeded response hresponse hunsupported
      · rw [hrefine.symbols, remaining, selection, hselected]
      · obtain ⟨hstart, hall⟩ := hrefine.capabilityPartial hcomplete
        intro entry hentry
        have hruns : StepRuns resolved negotiations entry.1 := by
          obtain ⟨requirement, negotiation, hnegotiated⟩ := hrefine.negotiated entry hentry
          obtain ⟨-, hmem, hname⟩ := negotiatedStep_ok hnegotiated
          refine ⟨requirement, negotiation, hnegotiated, ?_⟩
          by_cases hneeded : negotiation.required
          · exact hitems negotiation hmem hneeded
          · -- An optional capability that a step uses and no worker offers makes the answer partial from the start.
            have hused : negotiation.name ∈ usedCapabilities resolved := by
              rw [hname]
              exact List.mem_map_of_mem (List.fst_mem_of_mem_zipIdx hentry)
            have hnot := List.any_eq_false.1 hstart negotiation hmem
            simpa [hneeded, hused] using hnot
        exact ⟨hruns, hall entry hentry hruns⟩

/-- The selection ends up with its own state, or is partial because a step was. -/
def QueryProgress.state (progress : QueryProgress) : SelectorState :=
  if progress.capabilityPartial ∧ progress.result.state = .complete then .partially else progress.result.state

theorem answerProgress_spec (store : IndexStore) (sha256 : Bytes → String) (configuration : EffectiveConfiguration) (files : WorkspaceFiles)
    (progress : QueryProgress) :
    if freshnessProblem sha256 configuration files store (.symbols progress.result.symbols) = none then
      (answerProgress store sha256 configuration files progress).status = selectorStatus progress.state ∧
        (answerProgress store sha256 configuration files progress).symbols = progress.result.symbols
    else answerProgress store sha256 configuration files progress = statusOnly .stale progress.plan := by
  unfold answerProgress
  cases freshnessProblem sha256 configuration files store (.symbols progress.result.symbols) with
  | some problem => rfl
  | none => exact printRecords_spec _ _ _ _

theorem selectorStatus_eq_ok_iff {state : SelectorState} : selectorStatus state = .ok ↔ state = .complete := by
  cases state <;> decide

theorem selectorStatus_eq_noResult_iff {state : SelectorState} : selectorStatus state = .noResult ↔ state = .noResult := by
  cases state <;> decide

theorem QueryProgress.state_eq_complete_iff {progress : QueryProgress} :
    progress.state = .complete ↔ progress.capabilityPartial = false ∧ progress.result.state = .complete := by
  unfold QueryProgress.state
  cases progress.capabilityPartial <;> cases progress.result.state <;> decide

theorem QueryProgress.state_eq_noResult_iff {progress : QueryProgress} :
    progress.state = .noResult ↔ progress.result.state = .noResult := by
  unfold QueryProgress.state
  cases progress.capabilityPartial <;> cases progress.result.state <;> decide

theorem executeQuery_state {result : QueryResult} (h : executeQuery store bound resolved.program = .ok result) :
    (result.state = .noResult ↔ result.symbols = []) ∧
      (result.state = .complete → Unlimited store resolved bound ∧
        ∀ symbol ∈ result.symbols, symbol.freshness = .fresh ∧ symbol.completeness = .complete) := by
  obtain ⟨selected, hplan, hselected, hsymbols, hstate⟩ := executeQuery_ok_iff.1 h
  obtain ⟨hlimit, hpositive, -⟩ := compileQuery_limit hplan
  rw [hstate, hsymbols, select_state hselected]
  split_ifs with htruncated
  · refine ⟨iff_of_false (by decide) fun hempty => ?_, fun hcomplete => by cases hcomplete⟩
    have hlength := congrArg List.length hempty
    rw [List.length_take, List.length_nil] at hlength
    omega
  · rw [List.take_of_length_le (not_lt.1 htruncated)]
    exact ⟨selectorState_eq_noResult_iff, fun hcomplete => ⟨⟨_, selected, hplan, hselected, not_lt.1 htruncated⟩,
      (selectorState_eq_complete_iff.1 hcomplete).2⟩⟩

/-- **Status.** The status of a query fits what it prints exactly if a required capability or the gate stopped it, or the
steps left a symbol of a selection that had one. -/
theorem executeResolved_status_iff
    (h : executeResolved store resolved bound workers negotiations answers sha256 configuration files = .ok output) :
    StatusLaw store resolved bound negotiations answers
        (StaleSource store resolved bound negotiations answers sha256 configuration files) output ↔
      RequiredUnsupported resolved negotiations answers ∨
        StaleSource store resolved bound negotiations answers sha256 configuration files ∨
        selection store resolved bound = [] ∨ remaining store resolved bound negotiations answers ≠ [] := by
  obtain ⟨hrequired, plan, rfl⟩ | ⟨result, progress, hrefined, rfl⟩ := executeResolved_cases h
  · refine iff_of_true ⟨fun hok => ?_, ?_, .inr (.inr (.inr rfl))⟩ (.inl hrequired)
    · cases hok
    · exact iff_of_false (fun hnone => by cases hnone) fun hnone => hnone.1 hrequired
  have hspec := answerProgress_spec store sha256 configuration files progress
  have hselection : selection store resolved bound = result.symbols := by rw [selection, hrefined.selected]
  obtain ⟨hnoResult, hcomplete⟩ := executeQuery_state hrefined.selected
  rw [hrefined.symbols] at hspec
  by_cases hstale : StaleSource store resolved bound negotiations answers sha256 configuration files
  · rw [if_neg hstale] at hspec
    rw [hspec]
    refine iff_of_true ⟨fun hok => ?_, ?_, .inr (.inr (.inl rfl))⟩ (.inr (.inl hstale))
    · cases hok
    · exact iff_of_false (fun hnone => by cases hnone) fun hnone => hnone.2.1 hstale
  rw [if_pos (not_not.1 hstale)] at hspec
  obtain ⟨hstatus, hsymbols⟩ := hspec
  have hempty : progress.state = .noResult ↔ selection store resolved bound = [] := by
    rw [QueryProgress.state_eq_noResult_iff, hrefined.state, hnoResult, hselection]
  constructor
  · intro hlaw
    by_cases hremaining : remaining store resolved bound negotiations answers = []
    · have hnone := hlaw.noResult.2 ⟨hrefined.supported, hstale, hremaining⟩
      rw [hstatus, selectorStatus_eq_noResult_iff, hempty] at hnone
      exact .inr (.inr (.inl hnone))
    · exact .inr (.inr (.inr hremaining))
  · intro hcondition
    have hleft : remaining store resolved bound negotiations answers = [] → selection store resolved bound = [] := by
      intro hremaining
      obtain hrequired | hstopped | hselected | hkept := hcondition
      · exact absurd hrequired hrefined.supported
      · exact absurd hstopped hstale
      · exact hselected
      · exact absurd hremaining hkept
    refine ⟨fun hok => ?_, ?_, ?_⟩
    · rw [hstatus, selectorStatus_eq_ok_iff] at hok
      obtain ⟨hflag, hstate⟩ := QueryProgress.state_eq_complete_iff.1 hok
      obtain ⟨hunlimited, hfresh⟩ := hcomplete (hrefined.state.symm.trans hstate)
      rw [hsymbols]
      refine ⟨fun hremaining => ?_, fun symbol hsymbol => ?_, hunlimited, hrefined.complete hflag⟩
      · rw [hempty.2 (hleft hremaining)] at hok
        cases hok
      · exact hfresh symbol (hselection ▸ (List.mem_filter.1 hsymbol).1)
    · rw [hstatus, selectorStatus_eq_noResult_iff, hempty]
      refine ⟨fun hselected => ⟨hrefined.supported, hstale, ?_⟩, fun hnone => hleft hnone.2.2⟩
      rw [remaining, hselected, List.filter_nil]
    · rw [hstatus]
      cases progress.state with
      | complete => exact .inl rfl
      | partially => exact .inr (.inr (.inl rfl))
      | noResult => exact .inr (.inl rfl)

end

/-! ## A worker that leaves nothing -/

/-- The entities that `reachable` names, a required capability of the package. -/
def reachableQuery : ResolvedProjectQuery :=
  ⟨entityQuery [⟨"reachable", []⟩], [⟨"demo", "1", ⟨"sha256:demo"⟩, [⟨"reachable", 1, true⟩]⟩]⟩

def namingEntities (names : List String) : Nat → Except String SemanticQueryResponse := fun _ =>
  .ok ⟨"reachable", 1, .complete, names.map SymbolId.mk, [], sampleProvenance, 0, 0⟩

def entityStoreOfA : IndexStore := entityStore [entityFile "A.kt" ["First"]]

def reachableNegotiations : List QueryCapabilityNegotiation :=
  negotiateQueryCapabilities (requirements reachableQuery) [reachableWorker]

def runReachable (names : List String) : Except ProjectQueryError QueryOutput :=
  executeResolved entityStoreOfA reachableQuery noParameters [reachableWorker] reachableNegotiations (namingEntities names)
    hexDigest allowStaleConfiguration noFiles

theorem nothing_left_is_ok :
    ¬ ∀ (store : IndexStore) (resolved : ResolvedProjectQuery) (bound : QueryParameters) (workers : List DiscoveredWorker)
        (answers : Nat → Except String SemanticQueryResponse) (sha256 : Bytes → String) (configuration : EffectiveConfiguration)
        (files : WorkspaceFiles) (output : QueryOutput),
      let negotiations := negotiateQueryCapabilities (requirements resolved) workers
      executeResolved store resolved bound workers negotiations answers sha256 configuration files = .ok output →
        StatusLaw store resolved bound negotiations answers
          (StaleSource store resolved bound negotiations answers sha256 configuration files) output := by
  intro h
  obtain ⟨output, houtput⟩ := exists_ok_of_isOk (by decide : (runReachable []).isOk = true)
  have hprinted : (runReachable []).map (fun output => (output.status, output.symbols)) = .ok (.ok, []) := by decide
  rw [houtput] at hprinted
  obtain ⟨hstatus, hsymbols⟩ := Prod.mk.inj (Except.ok.inj hprinted)
  exact ((h _ _ _ _ _ _ _ _ _ houtput).ok hstatus).1 hsymbols

theorem entity_left_is_ok : ∃ output, runReachable ["First"] = .ok output ∧
    (StatusLaw entityStoreOfA reachableQuery noParameters reachableNegotiations (namingEntities ["First"])
        (StaleSource entityStoreOfA reachableQuery noParameters reachableNegotiations (namingEntities ["First"]) hexDigest
          allowStaleConfiguration noFiles) output ↔
      RequiredUnsupported reachableQuery reachableNegotiations (namingEntities ["First"]) ∨
        StaleSource entityStoreOfA reachableQuery noParameters reachableNegotiations (namingEntities ["First"]) hexDigest
          allowStaleConfiguration noFiles ∨
        selection entityStoreOfA reachableQuery noParameters = [] ∨
        remaining entityStoreOfA reachableQuery noParameters reachableNegotiations (namingEntities ["First"]) ≠ []) := by
  obtain ⟨output, houtput⟩ := exists_ok_of_isOk (by decide : (runReachable ["First"]).isOk = true)
  exact ⟨output, houtput, executeResolved_status_iff houtput⟩

end Kide
