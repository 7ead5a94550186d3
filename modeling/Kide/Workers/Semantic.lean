import Kide.Proto.WorkerAdapter
import Kide.Workers.Discipline
import Kide.Workers.Registry
import Mathlib.Data.String.Basic

/-!
# Semantic capabilities

Planning and bounded execution of negotiated worker query capabilities (`semantic_capability.rs`).
A plan is made from what a worker advertised; execution checks it against a new handshake before it
writes the query. The size of an encoded response is the parameter `encodedLen`, and a response need not have a message.
-/

namespace Kide
open Runs Collects Checks

def MAX_CAPABILITY_CANDIDATES : Nat := 1000

def MAX_CAPABILITY_NODES : Nat := 10000

def MAX_CAPABILITY_BYTES : Nat := 16 * 1024 * 1024

def MAX_CAPABILITY_DEADLINE_MILLIS : Nat := 30000

structure SemanticCapabilityPlan where
  worker : WorkerIdentity
  capability : SemanticQueryCapability
  request : SemanticQueryRequest
deriving DecidableEq

inductive SemanticCapabilityError where
  | unavailable (name : String) (version : Nat)
  | invalidArguments (reason : String)
  | invalidBudget (field : String)
  | supervisor (source : WorkerSupervisorError)
  | adapter (source : AdapterError)
  | invalidResponse (reason : String)
  | budgetExceeded (field : String)
deriving DecidableEq

/-! ## Planning -/

def validateBudget (budget : SemanticQueryBudget) : Except SemanticCapabilityError Unit :=
  if budget.maxCandidates = 0 ∨ MAX_CAPABILITY_CANDIDATES < budget.maxCandidates then
    .error (.invalidBudget "max_candidates")
  else if budget.maxNodes = 0 ∨ MAX_CAPABILITY_NODES < budget.maxNodes then
    .error (.invalidBudget "max_nodes")
  else if budget.maxBytes = 0 ∨ MAX_CAPABILITY_BYTES < budget.maxBytes then
    .error (.invalidBudget "max_bytes")
  else if budget.deadlineMillis = 0 ∨ MAX_CAPABILITY_DEADLINE_MILLIS < budget.deadlineMillis then
    .error (.invalidBudget "deadline_millis")
  else .ok ()

def argumentMatches : SemanticQueryParameterType → SemanticQueryArgumentValue → Bool
  | .symbolId, .symbolId _ => true
  | .componentId, .componentId _ => true
  | .string, .string _ => true
  | .integer, .integer _ => true
  | _, _ => false

def supplyArgument (declared : List SemanticQueryParameter) (supplied : List SemanticQueryArgument)
    (argument : SemanticQueryArgument) : Except SemanticCapabilityError (List SemanticQueryArgument) :=
  match lastOf (·.name) declared argument.name with
  | none => .error (.invalidArguments ("unknown argument `" ++ argument.name ++ "`"))
  | some parameter =>
    if argument.name ∈ supplied.map (·.name) then
      .error (.invalidArguments ("argument `" ++ argument.name ++ "` is supplied more than once"))
    else if !argumentMatches parameter.ty argument.value then
      .error (.invalidArguments ("argument `" ++ argument.name ++ "` has the wrong type"))
    else .ok (supplied ++ [argument])

def stringLe (a b : String) : Prop := a ≤ b

instance : DecidableRel stringLe := fun a b => inferInstanceAs (Decidable (a ≤ b))

instance : Std.Total stringLe := ⟨fun a b => le_total a b⟩

instance : IsTrans String stringLe := ⟨fun _ _ _ => le_trans⟩

instance : Std.Antisymm stringLe := ⟨fun _ _ => le_antisymm⟩

def validateArguments (capability : SemanticQueryCapability) (arguments : List SemanticQueryArgument) :
    Except SemanticCapabilityError (List SemanticQueryArgument) := do
  reject (¬ (capability.parameters.map (·.name)).Nodup)
    (.invalidArguments "advertised contract contains duplicate parameter names")
  let supplied ← arguments.foldlM (supplyArgument capability.parameters) []
  match capability.parameters.find? fun parameter =>
      parameter.required && parameter.name ∉ supplied.map (·.name) with
  | some parameter => .error (.invalidArguments ("required argument `" ++ parameter.name ++ "` is missing"))
  | none => .ok (collect (·.name) stringLe supplied)

def planSemanticCapability (worker : DiscoveredWorker) (capabilityName : String) (capabilityVersion : Nat)
    (arguments : List SemanticQueryArgument) (candidateSymbols : List SymbolId)
    (candidateSourceUnits : List SourceUnitId) (budget : SemanticQueryBudget) :
    Except SemanticCapabilityError SemanticCapabilityPlan := do
  validateBudget budget
  reject (budget.maxCandidates < candidateSymbols.length) (.budgetExceeded "candidate input")
  reject (budget.maxNodes < candidateSourceUnits.length) (.budgetExceeded "source input")
  match worker.capabilities.semanticQueryCapabilities.find? fun capability =>
      capability.name = capabilityName ∧ capability.version = capabilityVersion with
  | none => .error (.unavailable capabilityName capabilityVersion)
  | some capability => do
    let arguments ← validateArguments capability arguments
    .ok {
      worker := worker.capabilities.identity
      capability
      request := {
        capabilityName, capabilityVersion, arguments
        candidateSymbols := (candidateSymbols.insertionSort SymbolId.le).dedup
        candidateSourceUnits := (candidateSourceUnits.insertionSort SourceUnitId.le).dedup
        budget } }

/-- The request of a plan names the capability of the plan. -/
def SemanticCapabilityPlan.Consistent (plan : SemanticCapabilityPlan) : Prop :=
  plan.capability.name = plan.request.capabilityName ∧ plan.capability.version = plan.request.capabilityVersion

theorem planSemanticCapability_consistent {worker : DiscoveredWorker} {name : String} {version : Nat}
    {arguments : List SemanticQueryArgument} {symbols : List SymbolId} {units : List SourceUnitId}
    {budget : SemanticQueryBudget} {plan : SemanticCapabilityPlan}
    (h : planSemanticCapability worker name version arguments symbols units budget = .ok plan) :
    plan.Consistent := by
  unfold planSemanticCapability at h
  obtain ⟨_, -, h⟩ := bind_eq_ok_iff.1 h
  obtain ⟨_, -, h⟩ := bind_eq_ok_iff.1 h
  obtain ⟨_, -, h⟩ := bind_eq_ok_iff.1 h
  split at h
  · cases h
  · next capability hfind =>
    obtain ⟨_, -, h⟩ := bind_eq_ok_iff.1 h
    cases h
    have hname := List.find?_some hfind
    simpa [SemanticCapabilityPlan.Consistent] using hname

/-! ## Execution -/

def Provenance.isFrom (provenance : Provenance) (worker : WorkerIdentity) : Bool :=
  provenance.backend = worker.backend ∧ provenance.backendVersion = worker.backendVersion ∧
    provenance.protocolVersion = WORKER_PROTOCOL_VERSION

def validateSemanticCapabilityResponse (encodedLen : SemanticQueryResponse → Except AdapterError Nat)
    (plan : SemanticCapabilityPlan) (response : SemanticQueryResponse) (elapsedMillis : Nat) :
    Except SemanticCapabilityError SemanticQueryResponse := do
  let budget := plan.request.budget
  reject (response.capabilityName ≠ plan.request.capabilityName
      ∨ response.capabilityVersion ≠ plan.request.capabilityVersion)
    (.invalidResponse "capability identity does not match the request")
  reject (!response.provenance.isFrom plan.worker)
    (.invalidResponse "provenance does not match the negotiated worker")
  reject (budget.deadlineMillis < elapsedMillis) (.budgetExceeded "deadline")
  reject (budget.maxNodes < response.visitedNodes) (.budgetExceeded "node")
  reject (budget.maxBytes < response.producedBytes) (.budgetExceeded "reported byte")
  reject (budget.maxCandidates < response.candidateSymbols.length) (.budgetExceeded "candidate output")
  reject (budget.maxNodes < response.snapshots.length) (.budgetExceeded "snapshot output")
  let encodedBytes ← (encodedLen response).mapError .adapter
  reject (budget.maxBytes < encodedBytes) (.budgetExceeded "encoded byte")
  reject (plan.capability.result = .candidateSymbols ∧ response.snapshots ≠ [])
    (.invalidResponse "candidate-symbol capability returned normalized facts")
  reject (plan.capability.result = .normalizedFacts ∧ response.candidateSymbols ≠ [])
    (.invalidResponse "normalized-facts capability returned candidate symbols")
  reject (response.state = .unsupported ∧ (response.candidateSymbols ≠ [] ∨ response.snapshots ≠ []))
    (.invalidResponse "unsupported response contains results")
  reject (∃ snapshot ∈ response.snapshots, snapshot.sourceUnit.id ∉ plan.request.candidateSourceUnits)
    (.invalidResponse "response contains a snapshot outside the bounded source set")
  reject (∃ snapshot ∈ response.snapshots, (!snapshot.provenance.isFrom plan.worker) = true)
    (.invalidResponse "snapshot provenance does not match the negotiated worker")
  reject (¬ (response.snapshots.map (·.sourceUnit.id)).Nodup)
    (.invalidResponse "response contains duplicate source snapshots")
  let state :=
    if response.state = .complete ∧ ∃ snapshot ∈ response.snapshots, snapshot.completeness ≠ .complete then
      .partially
    else response.state
  .ok { response with
    state
    candidateSymbols := (response.candidateSymbols.insertionSort SymbolId.le).dedup
    snapshots := response.snapshots.insertionSort fun a b => a.sourceUnit.id.le b.sourceUnit.id }

def executeSemanticCapability (env : WorkerEnvironment) (encodedLen : SemanticQueryResponse → Except AdapterError Nat)
    (supervisor : Handle) (plan : SemanticCapabilityPlan) (requestId : String) :
    Run Workers SemanticCapabilityError SemanticQueryResponse := do
  let capabilities ← mapError .supervisor (Workers.handshake env supervisor (requestId ++ "-handshake"))
  if capabilities.identity ≠ plan.worker ∨ plan.capability ∉ capabilities.semanticQueryCapabilities then
    fail (.unavailable plan.capability.name plan.capability.version)
  else do
    let started ← Workers.tick
    let envelope ← mapError .supervisor
      (Workers.requestWithTimeout env supervisor (.new requestId (.semanticQueryRequest plan.request))
        plan.request.budget.deadlineMillis)
    let answered ← Workers.tick
    match envelope.message with
    | .semanticQueryResponse response =>
      lift (validateSemanticCapabilityResponse encodedLen plan response (env.now answered - env.now started))
    | _ => fail (.invalidResponse "expected semantic_query_response")

/-- A query of a plan goes to a worker that has just advertised its capability. -/
theorem executeSemanticCapability_disciplined (env : WorkerEnvironment) (encodedLen : SemanticQueryResponse → Except AdapterError Nat)
    (supervisor : Handle) {plan : SemanticCapabilityPlan} (hplan : plan.Consistent) (requestId : String) :
    Triple Disciplined (executeSemanticCapability env encodedLen supervisor plan requestId)
      (fun _ => Disciplined) Disciplined := by
  refine Triple.bind (Triple.mapError (Workers.handshake_qualified env _)) fun capabilities => ?_
  refine Triple.ite (fun _ => Triple.fail fun _ h => h.2) fun hcompatible => ?_
  have hcapability : plan.capability ∈ capabilities.semanticQueryCapabilities :=
    not_not.1 fun h => hcompatible (.inr h)
  refine Triple.bind (R := fun _ => Qualified (· = capabilities) supervisor) (fun _ h => h) fun started => ?_
  have hrequest : Triple (Qualified (· = capabilities) supervisor)
      (Workers.requestWithTimeout env supervisor (.new requestId (.semanticQueryRequest plan.request))
        plan.request.budget.deadlineMillis) (fun _ => Disciplined) Disciplined := by
    refine (Workers.requestWithTimeout_qualified env _ _ rfl ?_).consequence (fun _ h => h) (fun _ _ h => h.2) fun _ h => h
    rintro _ rfl
    exact .inl ⟨plan.capability, hcapability, hplan⟩
  refine Triple.bind (Triple.mapError hrequest) fun envelope => ?_
  refine Triple.bind (R := fun _ => Disciplined) (fun _ h => h) fun answered => ?_
  split
  · exact Triple.lift (fun _ _ _ h => h) fun _ h => h
  · exact Triple.fail fun _ h => h

end Kide
