import Kide.Query.Selector

/-!
# Semantic queries

`semantic_query.rs`: a typed program is compiled to a selector with one starting relation, and its answer is cut at the
limit of the program.

`executeQuery_ok_iff`: the answer is the one of the selector up to the limit, and a cut answer is partial.
-/

namespace Kide
open Checks

def MAX_RESULT_LIMIT : Nat := 1000

/-! ## Programs -/

inductive QuerySymbol where
  | id (value : SymbolId)
  | qualifiedName (value : String)
  | parameter (name : String)
deriving DecidableEq, Repr

inductive QueryComponent where
  | id (value : ComponentId)
  | parameter (name : String)
deriving DecidableEq, Repr

inductive QueryString where
  | literal (value : String)
  | parameter (name : String)
deriving DecidableEq, Repr

inductive QueryFrom where
  | appliedSymbol (symbol : QuerySymbol)
  | subtypeOf (symbol : QuerySymbol)
deriving DecidableEq, Repr

inductive QueryPredicate where
  | kind (kind : SymbolKind)
  | language (language : Language)
  | component (component : QueryComponent)
  | qualifiedNamePrefix (start : QueryString)
deriving DecidableEq, Repr

inductive QueryCapabilityValue where
  | parameter (name : String)
  | symbolId (value : SymbolId)
  | componentId (value : ComponentId)
  | string (value : String)
  | integer (value : Int)
deriving DecidableEq, Repr

structure QueryCapabilityArgument where
  name : String
  value : QueryCapabilityValue
deriving DecidableEq, Repr

structure QueryCapabilityStep where
  name : String
  arguments : List QueryCapabilityArgument
deriving DecidableEq, Repr

structure QueryProgram where
  start : QueryFrom
  predicates : List QueryPredicate
  capabilitySteps : List QueryCapabilityStep
  limit : Nat
deriving DecidableEq, Repr

inductive QueryValue where
  | symbolId (value : SymbolId)
  | qualifiedSymbol (value : String)
  | componentId (value : ComponentId)
  | string (value : String)
  | integer (value : Nat)
deriving DecidableEq, Repr

/-- `BTreeMap<String, QueryValue>` -/
def QueryParameters : Type := String → Option QueryValue

structure CompiledQuery where
  selector : Selector
  startingSymbol : SymbolId
  selectorPlan : SelectorPlan
  limit : Nat
deriving DecidableEq, Repr

structure QueryResult where
  state : SelectorState
  plan : CompiledQuery
  symbols : List SymbolRecord
deriving DecidableEq

inductive QueryCompileError where
  | invalidLimit
  | missingParameter (name : String)
  | invalidParameterType (name expected : String)
  | unknownQualifiedSymbol (name : String)
  | ambiguousQualifiedSymbol (name : String) (count : Nat)
  | selector (source : SelectorError)
deriving DecidableEq, Repr

/-! ## Compilation -/

/-- `ORDER BY symbol_id` -/
def IndexStore.symbolsWithQualifiedName (store : IndexStore) (qualifiedName : String) : List SymbolId :=
  ((store.symbolLocators.filter (·.qualifiedName = qualifiedName)).map (·.symbolId)).insertionSort SymbolId.le

section
variable (store : IndexStore) (parameters : QueryParameters)

def parameter (name : String) : Except QueryCompileError QueryValue :=
  match parameters name with
  | none => .error (.missingParameter name)
  | some value => .ok value

/-- A name with a dot and without a locator is taken for a JVM type outside of the index. -/
def resolveQualifiedSymbol (name : String) : Except QueryCompileError SymbolId :=
  match store.symbolsWithQualifiedName name with
  | [] => if '.' ∈ name.toList then .ok ⟨"jvm:type:" ++ name⟩ else .error (.unknownQualifiedSymbol name)
  | [symbol] => .ok symbol
  | values => .error (.ambiguousQualifiedSymbol name values.length)

def resolveSymbol : QuerySymbol → Except QueryCompileError SymbolId
  | .id value => .ok value
  | .qualifiedName value => resolveQualifiedSymbol store value
  | .parameter name => do
    match ← parameter parameters name with
    | .symbolId value => .ok value
    | .qualifiedSymbol value => resolveQualifiedSymbol store value
    | _ => .error (.invalidParameterType name "symbol-id or qualified-symbol")

def resolveComponent : QueryComponent → Except QueryCompileError ComponentId
  | .id value => .ok value
  | .parameter name => do
    match ← parameter parameters name with
    | .componentId value => .ok value
    | _ => .error (.invalidParameterType name "component-id")

def resolveString : QueryString → Except QueryCompileError String
  | .literal value => .ok value
  | .parameter name => do
    match ← parameter parameters name with
    | .string value => .ok value
    | _ => .error (.invalidParameterType name "string")

def resolvePredicate : QueryPredicate → Except QueryCompileError SelectorPredicate
  | .kind kind => .ok (.kind kind)
  | .language language => .ok (.language language)
  | .component component => SelectorPredicate.component <$> resolveComponent parameters component
  | .qualifiedNamePrefix start => SelectorPredicate.qualifiedNamePrefix <$> resolveString parameters start

/-- The symbol, the predicate and the posting that a query starts from. -/
def resolveFrom : QueryFrom → Except QueryCompileError (SymbolId × SelectorPredicate × SelectorPlan)
  | .appliedSymbol symbol => do
    let symbol ← resolveSymbol store parameters symbol
    .ok (symbol, .appliedSymbol symbol, .appliedSymbolPosting symbol)
  | .subtypeOf symbol => do
    let symbol ← resolveSymbol store parameters symbol
    .ok (symbol, .subtypeOf symbol, .hierarchyPosting symbol)

def compileQuery (program : QueryProgram) : Except QueryCompileError CompiledQuery := do
  reject (program.limit = 0 ∨ MAX_RESULT_LIMIT < program.limit) .invalidLimit
  let (startingSymbol, startingPredicate, selectorPlan) ← resolveFrom store parameters program.start
  let predicates ← program.predicates.mapM (resolvePredicate parameters)
  .ok { selector := ⟨[], startingPredicate :: predicates⟩, startingSymbol, selectorPlan, limit := program.limit }

def executeQuery (program : QueryProgram) : Except QueryCompileError QueryResult := do
  let plan ← compileQuery store parameters program
  let selected ← (select store plan.selector).mapError .selector
  .ok {
    state := if plan.limit < selected.symbols.length then .partially else selected.state
    plan
    symbols := selected.symbols.take plan.limit }

end

/-! ## What a query answers -/

section
variable {store : IndexStore} {parameters : QueryParameters} {program : QueryProgram}

theorem compileQuery_limit {plan : CompiledQuery} (h : compileQuery store parameters program = .ok plan) :
    plan.limit = program.limit ∧ 0 < plan.limit ∧ plan.limit ≤ MAX_RESULT_LIMIT := by
  obtain ⟨_, hlimit, h⟩ := bind_eq_ok_iff.1 h
  obtain ⟨start, -, h⟩ := bind_eq_ok_iff.1 h
  obtain ⟨predicates, -, h⟩ := bind_eq_ok_iff.1 h
  obtain rfl := Except.ok.inj h
  have hreject := reject_eq_ok_iff.1 hlimit
  refine ⟨rfl, ?_, ?_⟩
  · show 0 < program.limit
    omega
  · show program.limit ≤ MAX_RESULT_LIMIT
    omega

theorem executeQuery_ok_iff {result : QueryResult} :
    executeQuery store parameters program = .ok result ↔
      ∃ selected, compileQuery store parameters program = .ok result.plan ∧ select store result.plan.selector = .ok selected ∧
        result.symbols = selected.symbols.take program.limit ∧
        result.state = if program.limit < selected.symbols.length then .partially else selected.state := by
  unfold executeQuery
  simp only [bind_eq_ok_iff, mapError_eq_ok_iff]
  constructor
  · rintro ⟨plan, hplan, selected, hselected, hresult⟩
    obtain rfl := Except.ok.inj hresult
    rw [← (compileQuery_limit hplan).1]
    exact ⟨selected, hplan, hselected, rfl, rfl⟩
  · rintro ⟨selected, hplan, hselected, hsymbols, hstate⟩
    refine ⟨result.plan, hplan, selected, hselected, ?_⟩
    rw [(compileQuery_limit hplan).1, ← hsymbols, ← hstate]

theorem select_state {selector : Selector} {selected : SelectorResult} (h : select store selector = .ok selected) :
    selected.state = selectorState selected.symbols := by
  cases hstart : startingSet store (normalizedPredicates selector) with
  | none =>
    simp only [select, hstart] at h
    cases h
  | some start =>
    simp only [select, hstart] at h
    obtain rfl := Except.ok.inj h
    rfl

theorem selectorState_eq_noResult_iff {symbols : List SymbolRecord} : selectorState symbols = .noResult ↔ symbols = [] := by
  unfold selectorState
  split_ifs with hempty hall
  · exact iff_of_true rfl hempty
  · exact iff_of_false (by decide) hempty
  · exact iff_of_false (by decide) hempty

theorem selectorState_eq_complete_iff {symbols : List SymbolRecord} : selectorState symbols = .complete ↔
    symbols ≠ [] ∧ ∀ symbol ∈ symbols, symbol.freshness = .fresh ∧ symbol.completeness = .complete := by
  unfold selectorState
  split_ifs with hempty hall
  · exact iff_of_false (by decide) fun h => h.1 hempty
  · exact iff_of_true rfl ⟨hempty, hall⟩
  · exact iff_of_false (by decide) fun h => hall h.2

end

end Kide
