import Kide.Query.SemanticQuery
import Kide.Workers.Semantic
import Mathlib.Algebra.Order.Ring.Nat

/-!
# Capability budgets

`capability_budget` (`query.rs`): a candidate for each symbol of a result and a node for each of their sources. The plan
is asked for with a source for each symbol, which the planner counts before it removes the duplicates.

`capability_budget_admits_iff`: the budget admits its own query exactly where no two symbols share a source.
-/

namespace Kide
open Checks

def QUERY_CAPABILITY_MAX_BYTES : Nat := 1024 * 1024

def QUERY_CAPABILITY_DEADLINE_MILLIS : Nat := 5000

/-! ## The budget -/

/-- `u32::try_from(length).unwrap_or(u32::MAX)` -/
def saturatedLen (length : Nat) : Nat := if length < 2 ^ 32 then length else 2 ^ 32 - 1

namespace QueryResult
variable (result : QueryResult)

def symbolIds : List SymbolId := result.symbols.map (·.id)

def sourceUnits : List SourceUnitId := result.symbols.map (·.declaration.sourceUnit)

end QueryResult

def capabilityBudget (result : QueryResult) : SemanticQueryBudget where
  maxCandidates := max (saturatedLen result.symbols.length) 1
  maxNodes := max (saturatedLen result.sourceUnits.dedup.length) 1
  maxBytes := QUERY_CAPABILITY_MAX_BYTES
  deadlineMillis := QUERY_CAPABILITY_DEADLINE_MILLIS

def SemanticCapabilityError.OfBudget (error : SemanticCapabilityError) : Prop :=
  (∃ field, error = .budgetExceeded field) ∨ ∃ field, error = .invalidBudget field

/-! ## Errors of the planner -/

theorem supplyArgument_error {declared : List SemanticQueryParameter} {supplied : List SemanticQueryArgument}
    {argument : SemanticQueryArgument} {error : SemanticCapabilityError}
    (h : supplyArgument declared supplied argument = .error error) : ∃ reason, error = .invalidArguments reason := by
  unfold supplyArgument at h
  split at h
  · exact ⟨_, (Except.error.inj h).symm⟩
  · split_ifs at h
    · exact ⟨_, (Except.error.inj h).symm⟩
    · exact ⟨_, (Except.error.inj h).symm⟩

theorem supplyArguments_error {declared : List SemanticQueryParameter} {arguments supplied : List SemanticQueryArgument}
    {error : SemanticCapabilityError} (h : arguments.foldlM (supplyArgument declared) supplied = .error error) :
    ∃ reason, error = .invalidArguments reason := by
  induction arguments generalizing supplied with
  | nil => cases h
  | cons argument arguments ih =>
    rw [List.foldlM_cons] at h
    rcases bind_eq_error_iff.1 h with hfirst | ⟨_, -, hrest⟩
    · exact supplyArgument_error hfirst
    · exact ih hrest

theorem validateArguments_error {capability : SemanticQueryCapability} {arguments : List SemanticQueryArgument}
    {error : SemanticCapabilityError} (h : validateArguments capability arguments = .error error) :
    ∃ reason, error = .invalidArguments reason := by
  rcases bind_eq_error_iff.1 h with hreject | ⟨_, -, h⟩
  · exact ⟨_, (reject_eq_error_iff.1 hreject).2.symm⟩
  · rcases bind_eq_error_iff.1 h with hsupplied | ⟨supplied, -, h⟩
    · exact supplyArguments_error hsupplied
    · split at h
      · exact ⟨_, (Except.error.inj h).symm⟩
      · cases h

section
variable {worker : DiscoveredWorker} {name : String} {version : Nat} {arguments : List SemanticQueryArgument}
  {symbols : List SymbolId} {units : List SourceUnitId} {budget : SemanticQueryBudget}

/-- **Planning.** The planner turns a valid budget down exactly if it has too few candidates or nodes. -/
theorem plan_ofBudget_iff (hvalid : validateBudget budget = .ok ()) :
    (∃ error, planSemanticCapability worker name version arguments symbols units budget = .error error ∧ error.OfBudget) ↔
      budget.maxCandidates < symbols.length ∨ budget.maxNodes < units.length := by
  unfold planSemanticCapability
  rw [hvalid, ok_bind]
  by_cases hcandidates : budget.maxCandidates < symbols.length
  · rw [reject, if_pos hcandidates]
    exact iff_of_true ⟨_, rfl, .inl ⟨_, rfl⟩⟩ (.inl hcandidates)
  by_cases hnodes : budget.maxNodes < units.length
  · rw [reject, if_neg hcandidates, ok_bind, reject, if_pos hnodes]
    exact iff_of_true ⟨_, rfl, .inl ⟨_, rfl⟩⟩ (.inr hnodes)
  rw [reject, if_neg hcandidates, ok_bind, reject, if_neg hnodes, ok_bind]
  refine iff_of_false ?_ (not_or_intro hcandidates hnodes)
  -- What is left to fail is the capability or its arguments.
  rintro ⟨error, herror, hbudget⟩
  split at herror
  · obtain rfl := Except.error.inj herror
    rcases hbudget with ⟨_, h⟩ | ⟨_, h⟩ <;> cases h
  · rcases bind_eq_error_iff.1 herror with harguments | ⟨_, -, hplan⟩
    · obtain ⟨reason, rfl⟩ := validateArguments_error harguments
      rcases hbudget with ⟨_, h⟩ | ⟨_, h⟩ <;> cases h
    · cases hplan

end

/-! ## The budget of a result -/

section
variable {result : QueryResult}

theorem saturatedLen_of_le {length : Nat} (h : length ≤ MAX_RESULT_LIMIT) : saturatedLen length = length := by
  have hlimit : MAX_RESULT_LIMIT = 1000 := rfl
  exact if_pos (by omega)

theorem length_dedup_le (result : QueryResult) : result.sourceUnits.dedup.length ≤ result.symbols.length := by
  have hle := (List.dedup_sublist result.sourceUnits).length_le
  rwa [QueryResult.sourceUnits, List.length_map] at hle

theorem validateBudget_capabilityBudget (hbounded : result.symbols.length ≤ MAX_RESULT_LIMIT) :
    validateBudget (capabilityBudget result) = .ok () := by
  have hnodes := length_dedup_le result
  have hcandidates := saturatedLen_of_le hbounded
  have hunits := saturatedLen_of_le (hnodes.trans hbounded)
  simp only [validateBudget, capabilityBudget, hcandidates, hunits, MAX_CAPABILITY_CANDIDATES, MAX_CAPABILITY_NODES,
    MAX_CAPABILITY_BYTES, MAX_CAPABILITY_DEADLINE_MILLIS, QUERY_CAPABILITY_MAX_BYTES, QUERY_CAPABILITY_DEADLINE_MILLIS,
    MAX_RESULT_LIMIT] at *
  rw [if_neg (by omega), if_neg (by omega), if_neg (by omega), if_neg (by omega)]

/-- The nodes of the budget suffice where no source is counted twice. -/
theorem maxNodes_suffice_iff (hbounded : result.symbols.length ≤ MAX_RESULT_LIMIT) :
    ¬ (capabilityBudget result).maxNodes < result.sourceUnits.length ↔ result.sourceUnits.Nodup := by
  have hunits := saturatedLen_of_le ((length_dedup_le result).trans hbounded)
  have hmax : (capabilityBudget result).maxNodes = max result.sourceUnits.dedup.length 1 := by rw [capabilityBudget, hunits]
  have hsublist := List.dedup_sublist result.sourceUnits
  rw [hmax]
  constructor
  · intro hle
    have hempty : result.sourceUnits.dedup.length = 0 → result.sourceUnits.length = 0 := fun h =>
      List.length_eq_zero_iff.2 ((List.dedup_eq_nil _).1 (List.length_eq_zero_iff.1 h))
    have hlength : result.sourceUnits.length ≤ result.sourceUnits.dedup.length := by omega
    rw [← hsublist.eq_of_length_le hlength]
    exact List.nodup_dedup _
  · intro hnodup
    rw [hnodup.dedup]
    omega

end

/-- **Budget.** Planning with the budget of the result never fails for the budget exactly if no two symbols of the result
share a source. -/
theorem capability_budget_admits_iff (result : QueryResult) (hbounded : result.symbols.length ≤ MAX_RESULT_LIMIT) :
    (∀ (worker : DiscoveredWorker) (name : String) (version : Nat) (arguments : List SemanticQueryArgument)
        (error : SemanticCapabilityError),
      planSemanticCapability worker name version arguments result.symbolIds result.sourceUnits (capabilityBudget result) =
        .error error → ¬ error.OfBudget) ↔ result.sourceUnits.Nodup := by
  have hvalid := validateBudget_capabilityBudget hbounded
  have hcandidates : ¬ (capabilityBudget result).maxCandidates < result.symbolIds.length := by
    rw [capabilityBudget, saturatedLen_of_le hbounded, QueryResult.symbolIds, List.length_map]
    exact (le_max_left _ _).not_gt
  rw [← maxNodes_suffice_iff hbounded]
  constructor
  · intro hnever hnodes
    obtain ⟨error, herror, hbudget⟩ := (plan_ofBudget_iff hvalid).2 (.inr hnodes)
    exact hnever ⟨⟨"", ⟨"", [], none, [], 0, 0⟩, []⟩, ⟨⟨"", ""⟩, 0, [], [], []⟩⟩ "" 0 [] error herror hbudget
  · intro hnodes worker name version arguments error herror hbudget
    exact ((plan_ofBudget_iff hvalid).1 ⟨error, herror, hbudget⟩).elim hcandidates hnodes

/-! ## Two symbols of one file -/

/-- A file whose classes are annotated with `Entity`. -/
def entityFile (path : String) (names : List String) : FileAnalysisSnapshot :=
  let file := declaring (sampleUnit path "sha256:a") names
  { file with symbols := file.symbols.map fun symbol => { symbol with appliedSymbols := [⟨"Entity"⟩] } }

def entityStore (files : List FileAnalysisSnapshot) : IndexStore := { facts := files.flatMap (·.rows) }

def entityQuery (steps : List QueryCapabilityStep) : QueryProgram := ⟨.appliedSymbol (.id ⟨"Entity"⟩), [], steps, 10⟩

def entityPlan : CompiledQuery := ⟨⟨[], [.appliedSymbol ⟨"Entity"⟩]⟩, ⟨"Entity"⟩, .appliedSymbolPosting ⟨"Entity"⟩, 10⟩

def entitiesOf (files : List FileAnalysisSnapshot) : QueryResult := ⟨.complete, entityPlan, files.flatMap (·.symbols)⟩

def noParameters : QueryParameters := fun _ => none

/-- A worker that advertises `reachable`. -/
def reachableWorker : DiscoveredWorker :=
  ⟨⟨"kotlin", ⟨"kide-worker", [], none, [], 0, 0⟩, []⟩,
    ⟨⟨"kotlin", "1"⟩, WORKER_PROTOCOL_VERSION, [.kotlin], [], [⟨"reachable", 1, [], .candidateSymbols⟩]⟩⟩

theorem shared_source_over_budget :
    ¬ ∀ (store : IndexStore) (parameters : QueryParameters) (program : QueryProgram) (result : QueryResult),
      executeQuery store parameters program = .ok result → result.symbols.length ≤ MAX_RESULT_LIMIT →
      ∀ (worker : DiscoveredWorker) (name : String) (version : Nat) (arguments : List SemanticQueryArgument)
        (error : SemanticCapabilityError),
      planSemanticCapability worker name version arguments result.symbolIds result.sourceUnits (capabilityBudget result) =
        .error error → ¬ error.OfBudget := by
  intro h
  have hresult : executeQuery (entityStore [entityFile "A.kt" ["First", "Second"]]) noParameters (entityQuery []) =
      .ok (entitiesOf [entityFile "A.kt" ["First", "Second"]]) := by decide
  have hplan : planSemanticCapability reachableWorker "reachable" 1 []
      (entitiesOf [entityFile "A.kt" ["First", "Second"]]).symbolIds
      (entitiesOf [entityFile "A.kt" ["First", "Second"]]).sourceUnits
      (capabilityBudget (entitiesOf [entityFile "A.kt" ["First", "Second"]])) = .error (.budgetExceeded "source input") := by
    decide
  exact h _ _ _ _ hresult (by decide) _ _ _ _ _ hplan (.inl ⟨_, rfl⟩)

theorem two_files_within_budget :
    (∀ (worker : DiscoveredWorker) (name : String) (version : Nat) (arguments : List SemanticQueryArgument)
        (error : SemanticCapabilityError),
      planSemanticCapability worker name version arguments
        (entitiesOf [entityFile "A.kt" ["First"], entityFile "B.kt" ["Second"]]).symbolIds
        (entitiesOf [entityFile "A.kt" ["First"], entityFile "B.kt" ["Second"]]).sourceUnits
        (capabilityBudget (entitiesOf [entityFile "A.kt" ["First"], entityFile "B.kt" ["Second"]])) = .error error →
          ¬ error.OfBudget) ↔
      (entitiesOf [entityFile "A.kt" ["First"], entityFile "B.kt" ["Second"]]).sourceUnits.Nodup :=
  capability_budget_admits_iff (entitiesOf [entityFile "A.kt" ["First"], entityFile "B.kt" ["Second"]]) (by decide)

end Kide
