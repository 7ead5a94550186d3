import Kide.Query.ProjectQueryText
import Kide.Query.QualifiedNames

/-!
# Parameters of a project query

`ProjectQuery::bind` (`project_query.rs`), the types at which a program uses its parameters, and the program with the values
in their places.

* `wellTyped_iff`: a query uses its parameters at their types exactly if no values that it accepts, in no index, make one of
  them the error of the compilation or of the arguments of a step;
* `executeResolved_instantiate`: a value is never read as syntax. The command with its values answers as the program that has
  them in the places of the parameters and is otherwise the same. Only a qualified symbol in an argument of a step stays a
  parameter, as there is no literal for it.
-/

namespace Kide
open Checks Collects

/-! ## Binding -/

namespace ProjectQuery

inductive BindError where
  | unknownParameter (name : String)
  | missingParameter (name : String)
  | invalidParameter (name expected : String)
deriving DecidableEq, Repr

def bindValue (parameter : QueryParameter) (value : String) : Except BindError QueryValue :=
  match parameter.ty with
  | .symbolId => .ok (.symbolId ⟨value⟩)
  | .qualifiedSymbol => .ok (.qualifiedSymbol value)
  | .componentId => .ok (.componentId ⟨value⟩)
  | .string => .ok (.string value)
  | .integer =>
    match parseU32 value.toList with
    | some value => .ok (.integer value)
    | none => .error (.invalidParameter parameter.name "integer")

def bindParameter (values : List (String × String)) (parameter : QueryParameter) : Except BindError (String × QueryValue) :=
  match lastOf Prod.fst values parameter.name with
  | none => .error (.missingParameter parameter.name)
  | some entry => do
    let value ← bindValue parameter entry.2
    .ok (parameter.name, value)

/-- The values are a map, as the command collects them, and so is the result: of two entries of a name the last one counts. -/
def bind (query : ProjectQuery) (values : List (String × String)) : Except BindError QueryParameters := do
  (sortedKeys Prod.fst stringLe values).forM fun name =>
    reject (¬ query.parameters.any (·.name = name)) (.unknownParameter name)
  let bound ← query.parameters.mapM (bindParameter values)
  .ok fun name => (lastOf Prod.fst bound name).map Prod.snd

end ProjectQuery

/-! ## Uses -/

/-- A parameter that is referred to, with the types that its place takes. -/
structure ParameterUse where
  name : String
  types : List QueryParameterType
deriving DecidableEq, Repr

def QuerySymbol.uses : QuerySymbol → List ParameterUse
  | .parameter name => [⟨name, [.symbolId, .qualifiedSymbol]⟩]
  | _ => []

def QueryComponent.uses : QueryComponent → List ParameterUse
  | .parameter name => [⟨name, [.componentId]⟩]
  | _ => []

def QueryString.uses : QueryString → List ParameterUse
  | .parameter name => [⟨name, [.string]⟩]
  | _ => []

def QueryFrom.symbol : QueryFrom → QuerySymbol
  | .appliedSymbol symbol => symbol
  | .subtypeOf symbol => symbol

def QueryPredicate.uses : QueryPredicate → List ParameterUse
  | .component value => value.uses
  | .qualifiedNamePrefix start => start.uses
  | _ => []

def QueryCapabilityValue.uses : QueryCapabilityValue → List ParameterUse
  | .parameter name => [⟨name, [.symbolId, .qualifiedSymbol, .componentId, .string, .integer]⟩]
  | _ => []

def QueryCapabilityStep.uses (step : QueryCapabilityStep) : List ParameterUse := step.arguments.flatMap (·.value.uses)

def QueryProgram.selectionUses (program : QueryProgram) : List ParameterUse :=
  program.start.symbol.uses ++ program.predicates.flatMap (·.uses)

def QueryProgram.uses (program : QueryProgram) : List ParameterUse :=
  program.selectionUses ++ program.capabilitySteps.flatMap (·.uses)

namespace ProjectQuery

/-- Of two declarations of a name the last one counts, as its value does. -/
def typeOf (query : ProjectQuery) (name : String) : Option QueryParameterType :=
  (lastOf QueryParameter.name query.parameters name).map (·.ty)

def WellTyped (query : ProjectQuery) : Prop := ∀ use ∈ query.program.uses, ∃ ty ∈ use.types, query.typeOf use.name = some ty

instance (query : ProjectQuery) : Decidable query.WellTyped := inferInstanceAs (Decidable (∀ use ∈ query.program.uses, _))

end ProjectQuery

/-! ## Values in the places of parameters -/

section
variable (bound : QueryParameters)

def QuerySymbol.instantiate : QuerySymbol → QuerySymbol
  | .parameter name =>
    match bound name with
    | some (.symbolId value) => .id value
    | some (.qualifiedSymbol value) => .qualifiedName value
    | _ => .parameter name
  | symbol => symbol

def QueryComponent.instantiate : QueryComponent → QueryComponent
  | .parameter name =>
    match bound name with
    | some (.componentId value) => .id value
    | _ => .parameter name
  | component => component

def QueryString.instantiate : QueryString → QueryString
  | .parameter name =>
    match bound name with
    | some (.string value) => .literal value
    | _ => .parameter name
  | start => start

def QueryFrom.instantiate : QueryFrom → QueryFrom
  | .appliedSymbol symbol => .appliedSymbol (symbol.instantiate bound)
  | .subtypeOf symbol => .subtypeOf (symbol.instantiate bound)

def QueryPredicate.instantiate : QueryPredicate → QueryPredicate
  | .component value => .component (value.instantiate bound)
  | .qualifiedNamePrefix start => .qualifiedNamePrefix (start.instantiate bound)
  | predicate => predicate

def QueryCapabilityValue.instantiate : QueryCapabilityValue → QueryCapabilityValue
  | .parameter name =>
    match bound name with
    | some (.symbolId value) => .symbolId value
    | some (.componentId value) => .componentId value
    | some (.string value) => .string value
    | some (.integer value) => .integer value
    | _ => .parameter name
  | value => value

def QueryCapabilityStep.instantiate (step : QueryCapabilityStep) : QueryCapabilityStep :=
  { step with arguments := step.arguments.map fun argument => { argument with value := argument.value.instantiate bound } }

def QueryProgram.instantiate (program : QueryProgram) : QueryProgram where
  start := program.start.instantiate bound
  predicates := program.predicates.map (·.instantiate bound)
  capabilitySteps := program.capabilitySteps.map (·.instantiate bound)
  limit := program.limit

end

/-- The other parameters have the qualified symbols of these. -/
def QueryParameters.KeepsQualified (bound other : QueryParameters) : Prop :=
  ∀ name value, bound name = some (.qualifiedSymbol value) → other name = some (.qualifiedSymbol value)

def QueryValue.type : QueryValue → QueryParameterType
  | .symbolId _ => .symbolId
  | .qualifiedSymbol _ => .qualifiedSymbol
  | .componentId _ => .componentId
  | .string _ => .string
  | .integer _ => .integer

/-! ## Blame -/

/-- The errors that types are there to exclude. -/
def QueryCompileError.OfParameter : QueryCompileError → Prop
  | .missingParameter _ => True
  | .invalidParameterType _ _ => True
  | _ => False

def ByParameter {α : Type} (x : Except QueryCompileError α) : Prop := ∃ error, x = .error error ∧ error.OfParameter

/-- The value of the parameter has one of the types of the place. -/
def ParameterUse.Admitted (bound : QueryParameters) (use : ParameterUse) : Prop :=
  ∃ ty ∈ use.types, (bound use.name).map QueryValue.type = some ty

section
variable {store : IndexStore} {bound : QueryParameters}

theorem not_byParameter_ok {α : Type} {a : α} : ¬ ByParameter (.ok a) := fun ⟨_, h, _⟩ => by cases h

theorem byParameter_error_iff {α : Type} {error : QueryCompileError} :
    ByParameter (.error error : Except QueryCompileError α) ↔ error.OfParameter := by
  constructor
  · rintro ⟨_, h, hof⟩
    cases h
    exact hof
  · exact fun hof => ⟨error, rfl, hof⟩

theorem ByParameter.map {α β : Type} {x : Except QueryCompileError α} {f : α → β} : ByParameter (f <$> x) ↔ ByParameter x := by
  cases x with
  | error error => exact byParameter_error_iff.trans byParameter_error_iff.symm
  | ok a => exact iff_of_false not_byParameter_ok not_byParameter_ok

theorem resolveQualifiedSymbol_blameless (name : String) : ¬ ByParameter (resolveQualifiedSymbol store name) := by
  unfold resolveQualifiedSymbol
  split
  · split
    · exact not_byParameter_ok
    · exact fun h => byParameter_error_iff.1 h
  · exact not_byParameter_ok
  · exact fun h => byParameter_error_iff.1 h

theorem resolveSymbol_byParameter_iff (symbol : QuerySymbol) :
    ByParameter (resolveSymbol store bound symbol) ↔ ∃ use ∈ symbol.uses, ¬ use.Admitted bound := by
  cases symbol with
  | id value => exact iff_of_false not_byParameter_ok (by simp [QuerySymbol.uses])
  | qualifiedName value => exact iff_of_false (resolveQualifiedSymbol_blameless value) (by simp [QuerySymbol.uses])
  | parameter name =>
    simp only [QuerySymbol.uses, List.mem_singleton, exists_eq_left, ParameterUse.Admitted, resolveSymbol, parameter]
    cases hvalue : bound name with
    | none => exact iff_of_true (byParameter_error_iff.2 trivial) (by simp)
    | some value =>
      cases value with
      | symbolId value => exact iff_of_false not_byParameter_ok (by simp [QueryValue.type])
      | qualifiedSymbol value => exact iff_of_false (resolveQualifiedSymbol_blameless value) (by simp [QueryValue.type])
      | _ => exact iff_of_true (byParameter_error_iff.2 trivial) (by simp [QueryValue.type])

theorem resolveComponent_byParameter_iff (component : QueryComponent) :
    ByParameter (resolveComponent bound component) ↔ ∃ use ∈ component.uses, ¬ use.Admitted bound := by
  cases component with
  | id value => exact iff_of_false not_byParameter_ok (by simp [QueryComponent.uses])
  | parameter name =>
    simp only [QueryComponent.uses, List.mem_singleton, exists_eq_left, ParameterUse.Admitted, resolveComponent, parameter]
    cases hvalue : bound name with
    | none => exact iff_of_true (byParameter_error_iff.2 trivial) (by simp)
    | some value =>
      cases value with
      | componentId value => exact iff_of_false not_byParameter_ok (by simp [QueryValue.type])
      | _ => exact iff_of_true (byParameter_error_iff.2 trivial) (by simp [QueryValue.type])

theorem resolveString_byParameter_iff (start : QueryString) :
    ByParameter (resolveString bound start) ↔ ∃ use ∈ start.uses, ¬ use.Admitted bound := by
  cases start with
  | literal value => exact iff_of_false not_byParameter_ok (by simp [QueryString.uses])
  | parameter name =>
    simp only [QueryString.uses, List.mem_singleton, exists_eq_left, ParameterUse.Admitted, resolveString, parameter]
    cases hvalue : bound name with
    | none => exact iff_of_true (byParameter_error_iff.2 trivial) (by simp)
    | some value =>
      cases value with
      | string value => exact iff_of_false not_byParameter_ok (by simp [QueryValue.type])
      | _ => exact iff_of_true (byParameter_error_iff.2 trivial) (by simp [QueryValue.type])

theorem resolvePredicate_byParameter_iff (predicate : QueryPredicate) :
    ByParameter (resolvePredicate bound predicate) ↔ ∃ use ∈ predicate.uses, ¬ use.Admitted bound := by
  cases predicate with
  | kind kind => exact iff_of_false not_byParameter_ok (by simp [QueryPredicate.uses])
  | language language => exact iff_of_false not_byParameter_ok (by simp [QueryPredicate.uses])
  | component component => exact ByParameter.map.trans (resolveComponent_byParameter_iff component)
  | qualifiedNamePrefix start => exact ByParameter.map.trans (resolveString_byParameter_iff start)

theorem bindCapabilityValue_byParameter_iff (value : QueryCapabilityValue) :
    ByParameter (bindCapabilityValue store bound value) ↔ ∃ use ∈ value.uses, ¬ use.Admitted bound := by
  cases value with
  | parameter name =>
    simp only [QueryCapabilityValue.uses, List.mem_singleton, exists_eq_left, ParameterUse.Admitted, bindCapabilityValue, parameter]
    cases hvalue : bound name with
    | none => exact iff_of_true (byParameter_error_iff.2 trivial) (by simp)
    | some value =>
      cases value with
      | qualifiedSymbol value =>
        exact iff_of_false (fun h => resolveQualifiedSymbol_blameless value (ByParameter.map.1 h)) (by simp [QueryValue.type])
      | _ => exact iff_of_false not_byParameter_ok (by simp [QueryValue.type])
  | _ => exact iff_of_false not_byParameter_ok (by simp [QueryCapabilityValue.uses])

/-! Nothing else fails at a predicate, and at a symbol only a name that the index does not resolve. -/

/-- It does not fail but by a parameter. -/
def OnlyByParameter {α : Type} (x : Except QueryCompileError α) : Prop := ByParameter x ∨ ∃ a, x = .ok a

theorem OnlyByParameter.map {α β : Type} {x : Except QueryCompileError α} {f : α → β} (h : OnlyByParameter x) :
    OnlyByParameter (f <$> x) := by
  obtain h | ⟨a, rfl⟩ := h
  · exact .inl (ByParameter.map.2 h)
  · exact .inr ⟨f a, rfl⟩

theorem resolvePredicate_only (predicate : QueryPredicate) : OnlyByParameter (resolvePredicate bound predicate) := by
  cases predicate with
  | kind kind => exact .inr ⟨_, rfl⟩
  | language language => exact .inr ⟨_, rfl⟩
  | component component =>
    refine OnlyByParameter.map ?_
    cases component with
    | id value => exact .inr ⟨_, rfl⟩
    | parameter name =>
      simp only [resolveComponent, parameter]
      rcases bound name with _ | _ | _ | _ | _ | _
      case some.componentId => exact .inr ⟨_, rfl⟩
      all_goals exact .inl ⟨_, rfl, trivial⟩
  | qualifiedNamePrefix start =>
    refine OnlyByParameter.map ?_
    cases start with
    | literal value => exact .inr ⟨_, rfl⟩
    | parameter name =>
      simp only [resolveString, parameter]
      rcases bound name with _ | _ | _ | _ | _ | _
      case some.string => exact .inr ⟨_, rfl⟩
      all_goals exact .inl ⟨_, rfl, trivial⟩

/-- A list whose elements only fail by a parameter fails by a parameter as soon as one of them does. -/
theorem byParameter_mapM_iff {α β : Type} {f : α → Except QueryCompileError β} {l : List α} (h : ∀ a ∈ l, OnlyByParameter (f a)) :
    ByParameter (l.mapM f) ↔ ∃ a ∈ l, ByParameter (f a) := by
  constructor
  · rintro ⟨error, herror, hof⟩
    obtain ⟨a, ha, hfails⟩ := exists_of_mapM_eq_error herror
    exact ⟨a, ha, error, hfails, hof⟩
  · rintro ⟨a, ha, error, hfails, -⟩
    cases hall : l.mapM f with
    | ok bs =>
      obtain ⟨b, hb⟩ := exists_mapM_eq_ok_iff.1 ⟨bs, hall⟩ a ha
      rw [hb] at hfails
      cases hfails
    | error first =>
      obtain ⟨b, hb, hfirst⟩ := exists_of_mapM_eq_error hall
      obtain hby | ⟨c, hc⟩ := h b hb
      · rw [hfirst] at hby
        exact byParameter_error_iff.2 (byParameter_error_iff.1 hby)
      · rw [hfirst] at hc
        cases hc

end

/-! ## Compilation -/

section
variable {store : IndexStore} {bound : QueryParameters} {program : QueryProgram}

theorem resolveFrom_byParameter_iff (start : QueryFrom) :
    ByParameter (resolveFrom store bound start) ↔ ∃ use ∈ start.symbol.uses, ¬ use.Admitted bound := by
  rw [← @resolveSymbol_byParameter_iff store]
  cases start <;> exact ByParameter.map (f := fun symbol => (symbol, _, _))

/-- Only uses at other types are blamed on a parameter. -/
theorem compileQuery_blameless (h : ∀ use ∈ program.selectionUses, use.Admitted bound) :
    ¬ ByParameter (compileQuery store bound program) := by
  rintro ⟨error, herror, hof⟩
  rcases bind_eq_error_iff.1 herror with hlimit | ⟨_, -, herror⟩
  · obtain ⟨-, rfl⟩ := reject_eq_error_iff.1 hlimit
    exact hof
  rcases bind_eq_error_iff.1 herror with hstart | ⟨_, -, herror⟩
  · obtain ⟨use, huse, hnot⟩ := (resolveFrom_byParameter_iff program.start).1 ⟨error, hstart, hof⟩
    exact hnot (h use (List.mem_append_left _ huse))
  rcases bind_eq_error_iff.1 herror with hpredicates | ⟨_, -, herror⟩
  · obtain ⟨predicate, hpredicate, hfails⟩ := exists_of_mapM_eq_error hpredicates
    obtain ⟨use, huse, hnot⟩ := (resolvePredicate_byParameter_iff predicate).1 ⟨error, hfails, hof⟩
    exact hnot (h use (List.mem_append_right _ (List.mem_flatMap.2 ⟨predicate, hpredicate, huse⟩)))
  · cases herror

/-- Every such use is, where the limit is valid and the starting symbol resolves. -/
theorem compileQuery_blames (hlimit : 0 < program.limit ∧ program.limit ≤ MAX_RESULT_LIMIT)
    (hstart : OnlyByParameter (resolveFrom store bound program.start)) {use : ParameterUse} (huse : use ∈ program.selectionUses)
    (hnot : ¬ use.Admitted bound) : ByParameter (compileQuery store bound program) := by
  have hreject : reject (program.limit = 0 ∨ MAX_RESULT_LIMIT < program.limit) QueryCompileError.invalidLimit = .ok () :=
    reject_eq_ok_iff.2 (by omega)
  unfold compileQuery
  rw [hreject, ok_bind]
  obtain ⟨error, herror, hof⟩ | ⟨start, hresolved⟩ := hstart
  · rw [herror]
    exact ⟨error, rfl, hof⟩
  rw [hresolved, ok_bind]
  obtain huse | huse := List.mem_append.1 huse
  · obtain ⟨error, herror, -⟩ := (resolveFrom_byParameter_iff program.start).2 ⟨use, huse, hnot⟩
    rw [hresolved] at herror
    cases herror
  · obtain ⟨predicate, hpredicate, huse⟩ := List.mem_flatMap.1 huse
    obtain ⟨error, herror, hof⟩ := (byParameter_mapM_iff fun predicate _ => resolvePredicate_only predicate).2
      ⟨predicate, hpredicate, (resolvePredicate_byParameter_iff predicate).2 ⟨use, huse, hnot⟩⟩
    exact ⟨error, bind_eq_error_iff.2 (.inl herror), hof⟩

theorem bindCapabilityArgument_byParameter_iff (argument : QueryCapabilityArgument) :
    ByParameter (do
      let value ← bindCapabilityValue store bound argument.value
      Except.ok (⟨argument.name, value⟩ : SemanticQueryArgument)) ↔ ∃ use ∈ argument.value.uses, ¬ use.Admitted bound := by
  rw [← @bindCapabilityValue_byParameter_iff store]
  exact ByParameter.map (f := fun value => (⟨argument.name, value⟩ : SemanticQueryArgument))

theorem bindCapabilityArguments_blameless {step : QueryCapabilityStep} (h : ∀ use ∈ step.uses, use.Admitted bound) :
    ¬ ByParameter (bindCapabilityArguments store bound step) := by
  rintro ⟨error, herror, hof⟩
  obtain ⟨argument, hargument, hfails⟩ := exists_of_mapM_eq_error herror
  obtain ⟨use, huse, hnot⟩ := (bindCapabilityArgument_byParameter_iff argument).1 ⟨error, hfails, hof⟩
  exact hnot (h use (List.mem_flatMap.2 ⟨argument, hargument, huse⟩))

end

/-! ## Bound values -/

namespace ProjectQuery

/-- Every parameter is bound to a value of its type, and nothing else is. -/
def Fits (query : ProjectQuery) (bound : QueryParameters) : Prop := ∀ name, (bound name).map QueryValue.type = query.typeOf name

theorem bindValue_type {parameter : QueryParameter} {text : String} {value : QueryValue}
    (h : bindValue parameter text = .ok value) : value.type = parameter.ty := by
  unfold bindValue at h
  split at h
  case h_5 hty =>
    split at h
    · obtain rfl := Except.ok.inj h
      exact hty.symm
    · cases h
  all_goals next hty =>
    obtain rfl := Except.ok.inj h
    exact hty.symm

theorem bindParameter_ok {values : List (String × String)} {parameter : QueryParameter} {entry : String × QueryValue}
    (h : bindParameter values parameter = .ok entry) : entry.1 = parameter.name ∧ entry.2.type = parameter.ty := by
  unfold bindParameter at h
  split at h
  · cases h
  · obtain ⟨value, hvalue, h⟩ := bind_eq_ok_iff.1 h
    obtain rfl := Except.ok.inj h
    exact ⟨rfl, bindValue_type hvalue⟩

theorem fits_of_bind {query : ProjectQuery} {values : List (String × String)} {bound : QueryParameters}
    (h : query.bind values = .ok bound) : query.Fits bound := by
  obtain ⟨_, -, h⟩ := bind_eq_ok_iff.1 h
  obtain ⟨entries, hentries, h⟩ := bind_eq_ok_iff.1 h
  obtain rfl := Except.ok.inj h
  have hsame : entries.map (fun entry => (entry.1, entry.2.type)) = query.parameters.map fun parameter => (parameter.name, parameter.ty) := by
    refine List.forall₂_eq_eq_eq.le _ _ (List.forall₂_map_left_iff.2 (List.forall₂_map_right_iff.2 ?_))
    exact ((mapM_eq_ok_iff.1 hentries).imp fun _ _ h => Prod.ext (bindParameter_ok h).1 (bindParameter_ok h).2).flip
  intro name
  have hlast := congrArg (fun l => (lastOf Prod.fst l name).map Prod.snd) hsame
  rw [lastOf_map, lastOf_map, Option.map_map, Option.map_map] at hlast
  change ((lastOf Prod.fst entries name).map Prod.snd).map QueryValue.type = _
  rw [Option.map_map]
  exact hlast

theorem Fits.admitted_iff {query : ProjectQuery} {bound : QueryParameters} (h : query.Fits bound) (use : ParameterUse) :
    use.Admitted bound ↔ ∃ ty ∈ use.types, query.typeOf use.name = some ty := by
  rw [ParameterUse.Admitted, h use.name]

/-! ### Values for every query -/

/-- A zero is a value of every type. -/
def zeros (query : ProjectQuery) : List (String × String) := query.parameters.map fun parameter => (parameter.name, "0")

theorem bindValue_zero (parameter : QueryParameter) : ∃ value, bindValue parameter "0" = .ok value ∧
    ∀ name, value = .qualifiedSymbol name → name = "0" := by
  unfold bindValue
  rcases parameter with ⟨name, _ | _ | _ | _ | _⟩
  · exact ⟨_, rfl, fun _ h => by cases h⟩
  · exact ⟨_, rfl, fun _ h => by cases h; rfl⟩
  · exact ⟨_, rfl, fun _ h => by cases h⟩
  · exact ⟨_, rfl, fun _ h => by cases h⟩
  · exact ⟨.integer 0, rfl, fun _ h => by cases h⟩

theorem bindParameter_zero (query : ProjectQuery) {parameter : QueryParameter} (h : parameter ∈ query.parameters) :
    ∃ entry, bindParameter query.zeros parameter = .ok entry ∧ ∀ name, entry.2 = .qualifiedSymbol name → name = "0" := by
  have hlast : lastOf Prod.fst query.zeros parameter.name = some (parameter.name, "0") := by
    obtain ⟨entry, hentry⟩ := Option.isSome_iff_exists.1 ((lastOf_isSome_iff Prod.fst).2
      (show parameter.name ∈ query.zeros.map Prod.fst from
        List.mem_map.2 ⟨(parameter.name, "0"), List.mem_map.2 ⟨parameter, h, rfl⟩, rfl⟩))
    obtain ⟨hmem, hname⟩ := lastOf_some Prod.fst hentry
    obtain ⟨other, -, rfl⟩ := List.mem_map.1 hmem
    rw [hentry, ← hname]
  obtain ⟨value, hvalue, hzero⟩ := bindValue_zero parameter
  refine ⟨(parameter.name, value), ?_, hzero⟩
  rw [bindParameter, hlast]
  exact bind_eq_ok_iff.2 ⟨value, hvalue, rfl⟩

theorem exists_bind_zeros (query : ProjectQuery) : ∃ bound, query.bind query.zeros = .ok bound ∧
    ∀ name value, bound name = some (.qualifiedSymbol value) → value = "0" := by
  have hnames : (sortedKeys Prod.fst stringLe query.zeros).forM (fun name =>
      reject (¬ query.parameters.any (·.name = name)) (BindError.unknownParameter name)) = .ok () := by
    refine forM_eq_ok_iff.2 fun name hname => reject_eq_ok_iff.2 ?_
    rw [mem_sortedKeys, zeros, List.map_map, List.mem_map] at hname
    obtain ⟨parameter, hparameter, rfl⟩ := hname
    simpa using ⟨parameter, hparameter, rfl⟩
  obtain ⟨entries, hentries⟩ := exists_mapM_eq_ok_iff.2 fun parameter hparameter =>
    (bindParameter_zero query hparameter).imp fun _ h => h.1
  refine ⟨_, bind_eq_ok_iff.2 ⟨_, hnames, bind_eq_ok_iff.2 ⟨entries, hentries, rfl⟩⟩, fun name value hvalue => ?_⟩
  obtain ⟨entry, hentry, hsecond⟩ := Option.map_eq_some_iff.1 hvalue
  obtain ⟨parameter, hparameter, hbinds⟩ := forall₂_exists_mem (mapM_eq_ok_iff.1 hentries).flip (lastOf_some Prod.fst hentry).1
  obtain ⟨found, hfound, hzero⟩ := bindParameter_zero query hparameter
  obtain rfl := Except.ok.inj (hfound.symm.trans hbinds)
  exact hzero value hsecond

end ProjectQuery

/-- One symbol for each of the names. -/
def locating (names : List String) : IndexStore := { symbolLocators := names.dedup.map fun name => ⟨⟨"located"⟩, name, ⟨name⟩⟩ }

theorem resolveQualifiedSymbol_locating {names : List String} {name : String} (h : name ∈ names) :
    resolveQualifiedSymbol (locating names) name = .ok ⟨name⟩ := by
  refine (resolvers_of_singleton ?_).1
  have hfilter : names.dedup.filter (· = name) = [name] := by
    rw [List.filter_eq, List.count_eq_one_of_mem (List.nodup_dedup _) (List.mem_dedup.2 h), List.replicate_one]
  rw [IndexStore.locatedSymbols, locating, List.filter_map, List.map_map]
  change (names.dedup.filter (· = name)).map _ = _
  rw [hfilter]
  rfl

theorem resolveFrom_only {names : List String} {bound : QueryParameters} {start : QueryFrom}
    (hliteral : ∀ value, start.symbol = .qualifiedName value → value ∈ names)
    (hvalues : ∀ name value, bound name = some (.qualifiedSymbol value) → value ∈ names) :
    OnlyByParameter (resolveFrom (locating names) bound start) := by
  have hsymbol : OnlyByParameter (resolveSymbol (locating names) bound start.symbol) := by
    cases hs : start.symbol with
    | id value => exact .inr ⟨_, rfl⟩
    | qualifiedName value => exact .inr ⟨_, resolveQualifiedSymbol_locating (hliteral value hs)⟩
    | parameter name =>
      simp only [resolveSymbol, parameter]
      cases hvalue : bound name with
      | none => exact .inl ⟨_, rfl, trivial⟩
      | some value =>
        cases value with
        | symbolId value => exact .inr ⟨_, rfl⟩
        | qualifiedSymbol value => exact .inr ⟨_, resolveQualifiedSymbol_locating (hvalues name value hvalue)⟩
        | _ => exact .inl ⟨_, rfl, trivial⟩
  cases start <;> exact OnlyByParameter.map (f := fun symbol => (symbol, _, _)) hsymbol

theorem bindCapabilityValue_only {names : List String} {bound : QueryParameters}
    (hvalues : ∀ name value, bound name = some (.qualifiedSymbol value) → value ∈ names) (value : QueryCapabilityValue) :
    OnlyByParameter (bindCapabilityValue (locating names) bound value) := by
  cases value with
  | parameter name =>
    simp only [bindCapabilityValue, parameter]
    cases hvalue : bound name with
    | none => exact .inl ⟨_, rfl, trivial⟩
    | some value =>
      cases value with
      | qualifiedSymbol value => exact OnlyByParameter.map (.inr ⟨_, resolveQualifiedSymbol_locating (hvalues name value hvalue)⟩)
      | _ => exact .inr ⟨_, rfl⟩
  | _ => exact .inr ⟨_, rfl⟩

theorem bindCapabilityArguments_blames {names : List String} {bound : QueryParameters} {step : QueryCapabilityStep}
    (hvalues : ∀ name value, bound name = some (.qualifiedSymbol value) → value ∈ names) {use : ParameterUse} (huse : use ∈ step.uses)
    (hnot : ¬ use.Admitted bound) : ByParameter (bindCapabilityArguments (locating names) bound step) := by
  obtain ⟨argument, hargument, huse⟩ := List.mem_flatMap.1 huse
  refine (byParameter_mapM_iff fun argument _ => ?_).2
    ⟨argument, hargument, (bindCapabilityArgument_byParameter_iff argument).2 ⟨use, huse, hnot⟩⟩
  exact OnlyByParameter.map (f := fun value => (⟨argument.name, value⟩ : SemanticQueryArgument))
    (bindCapabilityValue_only hvalues argument.value)

/-- **Types.** A query uses its parameters at their types if and only if no parameter is ever to blame: whatever values the
query accepts, and whatever the index holds. -/
theorem wellTyped_iff {query : ProjectQuery} (hlimit : 0 < query.program.limit ∧ query.program.limit ≤ MAX_RESULT_LIMIT) :
    query.WellTyped ↔ ∀ values bound store, query.bind values = .ok bound →
      ¬ ByParameter (compileQuery store bound query.program) ∧
        ∀ step ∈ query.program.capabilitySteps, ¬ ByParameter (bindCapabilityArguments store bound step) := by
  constructor
  · intro htyped values bound store hbind
    have hadmitted : ∀ use ∈ query.program.uses, use.Admitted bound := fun use huse =>
      ((ProjectQuery.fits_of_bind hbind).admitted_iff use).2 (htyped use huse)
    refine ⟨compileQuery_blameless fun use huse => hadmitted use (List.mem_append_left _ huse), fun step hstep => ?_⟩
    exact bindCapabilityArguments_blameless fun use huse =>
      hadmitted use (List.mem_append_right _ (List.mem_flatMap.2 ⟨step, hstep, huse⟩))
  · intro h use huse
    obtain ⟨bound, hbind, hzero⟩ := query.exists_bind_zeros
    by_contra hnot
    rw [← (ProjectQuery.fits_of_bind hbind).admitted_iff use] at hnot
    -- an index in which every name that can come up has one symbol
    obtain ⟨names, hvalue, hliteral⟩ : ∃ names : List String, "0" ∈ names ∧
        ∀ value, query.program.start.symbol = .qualifiedName value → value ∈ names := by
      cases query.program.start.symbol with
      | qualifiedName name => exact ⟨["0", name], by simp, fun value h => by cases h; simp⟩
      | _ => exact ⟨["0"], by simp, fun value h => by cases h⟩
    have hvalues : ∀ name value, bound name = some (.qualifiedSymbol value) → value ∈ names := fun name value hsome =>
      hzero name value hsome ▸ hvalue
    obtain ⟨hcompiles, hsteps⟩ := h query.zeros bound (locating names) hbind
    obtain huse | huse := List.mem_append.1 huse
    · exact hcompiles (compileQuery_blames hlimit (resolveFrom_only hliteral hvalues) huse hnot)
    · obtain ⟨step, hstep, huse⟩ := List.mem_flatMap.1 huse
      exact hsteps step hstep (bindCapabilityArguments_blames hvalues huse hnot)

def childrenQuery : ProjectQuery :=
  ⟨"api.children", [⟨"api", .symbolId⟩],
    ⟨.subtypeOf (.parameter "api"), [], [⟨"hierarchy.direct", [⟨"supertype", .parameter "api"⟩]⟩], 25⟩⟩

theorem childrenQuery_blameless : childrenQuery.WellTyped ∧ ∀ values bound store, childrenQuery.bind values = .ok bound →
    ¬ ByParameter (compileQuery store bound childrenQuery.program) ∧
      ∀ step ∈ childrenQuery.program.capabilitySteps, ¬ ByParameter (bindCapabilityArguments store bound step) :=
  ⟨by decide, (@wellTyped_iff childrenQuery (by decide)).1 (by decide)⟩

/-! ## Instantiation -/

section
variable {store : IndexStore} {bound other : QueryParameters}

theorem resolveSymbol_instantiate {symbol : QuerySymbol} (h : ∀ use ∈ symbol.uses, use.Admitted bound) :
    resolveSymbol store other (symbol.instantiate bound) = resolveSymbol store bound symbol := by
  cases symbol with
  | parameter name =>
    simp only [QuerySymbol.uses, List.mem_singleton, forall_eq, ParameterUse.Admitted] at h
    simp only [QuerySymbol.instantiate, resolveSymbol, parameter]
    rcases hvalue : bound name with _ | _ | _ | _ | _ | _
    case some.symbolId => rfl
    case some.qualifiedSymbol => rfl
    all_goals simp [hvalue, QueryValue.type] at h
  | _ => rfl

theorem resolveComponent_instantiate {component : QueryComponent} (h : ∀ use ∈ component.uses, use.Admitted bound) :
    resolveComponent other (component.instantiate bound) = resolveComponent bound component := by
  cases component with
  | parameter name =>
    simp only [QueryComponent.uses, List.mem_singleton, forall_eq, ParameterUse.Admitted] at h
    simp only [QueryComponent.instantiate, resolveComponent, parameter]
    rcases hvalue : bound name with _ | _ | _ | _ | _ | _
    case some.componentId => rfl
    all_goals simp [hvalue, QueryValue.type] at h
  | _ => rfl

theorem resolveString_instantiate {start : QueryString} (h : ∀ use ∈ start.uses, use.Admitted bound) :
    resolveString other (start.instantiate bound) = resolveString bound start := by
  cases start with
  | parameter name =>
    simp only [QueryString.uses, List.mem_singleton, forall_eq, ParameterUse.Admitted] at h
    simp only [QueryString.instantiate, resolveString, parameter]
    rcases hvalue : bound name with _ | _ | _ | _ | _ | _
    case some.string => rfl
    all_goals simp [hvalue, QueryValue.type] at h
  | _ => rfl

theorem resolvePredicate_instantiate {predicate : QueryPredicate} (h : ∀ use ∈ predicate.uses, use.Admitted bound) :
    resolvePredicate other (predicate.instantiate bound) = resolvePredicate bound predicate := by
  cases predicate with
  | component component => exact congrArg (SelectorPredicate.component <$> ·) (resolveComponent_instantiate h)
  | qualifiedNamePrefix start => exact congrArg (SelectorPredicate.qualifiedNamePrefix <$> ·) (resolveString_instantiate h)
  | _ => rfl

theorem bindCapabilityValue_instantiate (hkeeps : bound.KeepsQualified other) {value : QueryCapabilityValue}
    (h : ∀ use ∈ value.uses, use.Admitted bound) :
    bindCapabilityValue store other (value.instantiate bound) = bindCapabilityValue store bound value := by
  cases value with
  | parameter name =>
    simp only [QueryCapabilityValue.uses, List.mem_singleton, forall_eq, ParameterUse.Admitted] at h
    rcases hvalue : bound name with _ | _ | qualified | _ | _ | _
    case none => simp [hvalue] at h
    all_goals simp only [QueryCapabilityValue.instantiate, bindCapabilityValue, parameter, hvalue]
    case some.qualifiedSymbol => rw [hkeeps name qualified hvalue]
    all_goals rfl
  | _ => rfl

theorem compileQuery_instantiate {program : QueryProgram} (h : ∀ use ∈ program.selectionUses, use.Admitted bound) :
    compileQuery store other (program.instantiate bound) = compileQuery store bound program := by
  have hstart : resolveFrom store other (program.start.instantiate bound) = resolveFrom store bound program.start := by
    have hsymbol : ∀ use ∈ program.start.symbol.uses, use.Admitted bound := fun use huse => h use (List.mem_append_left _ huse)
    revert hsymbol
    cases program.start with
    | appliedSymbol symbol =>
      intro hsymbol
      have hresolved : resolveSymbol store other (symbol.instantiate bound) = _ := resolveSymbol_instantiate hsymbol
      rw [QueryFrom.instantiate, resolveFrom, resolveFrom, hresolved]
    | subtypeOf symbol =>
      intro hsymbol
      have hresolved : resolveSymbol store other (symbol.instantiate bound) = _ := resolveSymbol_instantiate hsymbol
      rw [QueryFrom.instantiate, resolveFrom, resolveFrom, hresolved]
  have hpredicates : (program.predicates.map (·.instantiate bound)).mapM (resolvePredicate other) =
      program.predicates.mapM (resolvePredicate bound) := by
    rw [List.mapM_map]
    exact mapM_congr fun predicate hpredicate => resolvePredicate_instantiate fun use huse =>
      h use (List.mem_append_right _ (List.mem_flatMap.2 ⟨predicate, hpredicate, huse⟩))
  unfold compileQuery
  rw [QueryProgram.instantiate, hstart, hpredicates]

theorem bindCapabilityArguments_instantiate (hkeeps : bound.KeepsQualified other) {step : QueryCapabilityStep}
    (h : ∀ use ∈ step.uses, use.Admitted bound) :
    bindCapabilityArguments store other (step.instantiate bound) = bindCapabilityArguments store bound step := by
  unfold bindCapabilityArguments
  rw [QueryCapabilityStep.instantiate, List.mapM_map]
  refine mapM_congr fun argument hargument => ?_
  change (do
    let value ← bindCapabilityValue store other (argument.value.instantiate bound)
    Except.ok (⟨argument.name, value⟩ : SemanticQueryArgument)) = _
  rw [bindCapabilityValue_instantiate hkeeps fun use huse => h use (List.mem_flatMap.2 ⟨argument, hargument, huse⟩)]

end

/-! ### What is left to refer to -/

section
variable {bound : QueryParameters}

theorem QuerySymbol.uses_instantiate {symbol : QuerySymbol} (h : ∀ use ∈ symbol.uses, use.Admitted bound) :
    (symbol.instantiate bound).uses = [] := by
  cases symbol with
  | parameter name =>
    simp only [QuerySymbol.uses, List.mem_singleton, forall_eq, ParameterUse.Admitted] at h
    rcases hvalue : bound name with _ | _ | _ | _ | _ | _
    case some.symbolId => rw [QuerySymbol.instantiate, hvalue, QuerySymbol.uses]; simp
    case some.qualifiedSymbol => rw [QuerySymbol.instantiate, hvalue, QuerySymbol.uses]; simp
    all_goals simp [hvalue, QueryValue.type] at h
  | _ => rfl

theorem QueryPredicate.uses_instantiate {predicate : QueryPredicate} (h : ∀ use ∈ predicate.uses, use.Admitted bound) :
    (predicate.instantiate bound).uses = [] := by
  cases predicate with
  | component value =>
    cases value with
    | id value => rfl
    | parameter name =>
      simp only [QueryPredicate.uses, QueryComponent.uses, List.mem_singleton, forall_eq, ParameterUse.Admitted] at h
      rcases hvalue : bound name with _ | _ | _ | _ | _ | _
      case some.componentId => simp [QueryPredicate.instantiate, QueryComponent.instantiate, hvalue, QueryPredicate.uses, QueryComponent.uses]
      all_goals simp [hvalue, QueryValue.type] at h
  | qualifiedNamePrefix start =>
    cases start with
    | literal value => rfl
    | parameter name =>
      simp only [QueryPredicate.uses, QueryString.uses, List.mem_singleton, forall_eq, ParameterUse.Admitted] at h
      rcases hvalue : bound name with _ | _ | _ | _ | _ | _
      case some.string => simp [QueryPredicate.instantiate, QueryString.instantiate, hvalue, QueryPredicate.uses, QueryString.uses]
      all_goals simp [hvalue, QueryValue.type] at h
  | _ => rfl

theorem QueryCapabilityValue.uses_instantiate {value : QueryCapabilityValue} (h : ∀ use ∈ value.uses, use.Admitted bound) :
    ∀ use ∈ (value.instantiate bound).uses, ∃ qualified, bound use.name = some (.qualifiedSymbol qualified) := by
  cases value with
  | parameter name =>
    simp only [QueryCapabilityValue.uses, List.mem_singleton, forall_eq, ParameterUse.Admitted] at h
    rcases hvalue : bound name with _ | _ | qualified | _ | _ | _
    case none => simp [hvalue] at h
    case some.qualifiedSymbol =>
      simp only [QueryCapabilityValue.instantiate, hvalue, QueryCapabilityValue.uses, List.mem_singleton, forall_eq]
      exact ⟨qualified, rfl⟩
    all_goals simp [QueryCapabilityValue.instantiate, hvalue, QueryCapabilityValue.uses]
  | _ => simp [QueryCapabilityValue.instantiate, QueryCapabilityValue.uses]

end

/-- A program without parameters, but for those qualified symbols that a step is given. -/
structure QueryProgram.Closed (program : QueryProgram) (bound : QueryParameters) : Prop where
  selection : program.selectionUses = []
  steps : ∀ step ∈ program.capabilitySteps, ∀ use ∈ step.uses, ∃ value, bound use.name = some (.qualifiedSymbol value)

/-! The same clauses, whatever their values are. -/

def QueryFrom.SameClause : QueryFrom → QueryFrom → Prop
  | .appliedSymbol _, .appliedSymbol _ => True
  | .subtypeOf _, .subtypeOf _ => True
  | _, _ => False

def QueryPredicate.SameClause : QueryPredicate → QueryPredicate → Prop
  | .kind a, .kind b => a = b
  | .language a, .language b => a = b
  | .component _, .component _ => True
  | .qualifiedNamePrefix _, .qualifiedNamePrefix _ => True
  | _, _ => False

def QueryCapabilityStep.SameClause (step other : QueryCapabilityStep) : Prop :=
  step.name = other.name ∧ step.arguments.map (·.name) = other.arguments.map (·.name)

structure QueryProgram.SameClauses (program other : QueryProgram) : Prop where
  start : program.start.SameClause other.start
  predicates : List.Forall₂ QueryPredicate.SameClause program.predicates other.predicates
  capabilitySteps : List.Forall₂ QueryCapabilityStep.SameClause program.capabilitySteps other.capabilitySteps
  limit : program.limit = other.limit

theorem QueryProgram.instantiate_closed {program : QueryProgram} {bound : QueryParameters}
    (h : ∀ use ∈ program.uses, use.Admitted bound) : (program.instantiate bound).Closed bound := by
  refine ⟨?_, fun step hstep => ?_⟩
  · have hselection : ∀ use ∈ program.selectionUses, use.Admitted bound := fun use huse => h use (List.mem_append_left _ huse)
    refine List.append_eq_nil_iff.2 ⟨?_, List.flatMap_eq_nil_iff.2 fun predicate hpredicate => ?_⟩
    · have hsymbol : (program.start.instantiate bound).symbol = program.start.symbol.instantiate bound := by
        cases program.start <;> rfl
      change (program.start.instantiate bound).symbol.uses = []
      rw [hsymbol]
      exact QuerySymbol.uses_instantiate fun use huse => hselection use (List.mem_append_left _ huse)
    · obtain ⟨predicate, hmem, rfl⟩ := List.mem_map.1 hpredicate
      exact QueryPredicate.uses_instantiate fun use huse =>
        hselection use (List.mem_append_right _ (List.mem_flatMap.2 ⟨predicate, hmem, huse⟩))
  · obtain ⟨step, hmem, rfl⟩ := List.mem_map.1 hstep
    intro use huse
    obtain ⟨written, hwritten, huse⟩ := List.mem_flatMap.1 huse
    obtain ⟨argument, hargument, rfl⟩ := List.mem_map.1 hwritten
    refine QueryCapabilityValue.uses_instantiate (fun other hother => h other ?_) use huse
    exact List.mem_append_right _ (List.mem_flatMap.2 ⟨step, hmem, List.mem_flatMap.2 ⟨argument, hargument, hother⟩⟩)

theorem QueryProgram.sameClauses_instantiate (program : QueryProgram) (bound : QueryParameters) :
    program.SameClauses (program.instantiate bound) := by
  refine ⟨?_, ?_, ?_, rfl⟩
  · change program.start.SameClause (program.start.instantiate bound)
    cases program.start <;> trivial
  · refine List.forall₂_map_right_iff.2 (List.forall₂_same.2 fun predicate _ => ?_)
    cases predicate <;> first | rfl | trivial
  · refine List.forall₂_map_right_iff.2 (List.forall₂_same.2 fun step _ => ⟨rfl, ?_⟩)
    rw [QueryCapabilityStep.instantiate, List.map_map]
    rfl

section
variable {store : IndexStore} {bound other : QueryParameters} {workers : List DiscoveredWorker}
  {negotiations : List QueryCapabilityNegotiation} {answers : Nat → Except String SemanticQueryResponse}
  {program : QueryProgram} {packages : List ResolvedPackage}

theorem runCapabilitySteps_instantiate (hkeeps : bound.KeepsQualified other) {entries : List (QueryCapabilityStep × Nat)}
    (h : ∀ entry ∈ entries, ∀ use ∈ entry.1.uses, use.Admitted bound) (progress : QueryProgress) :
    runCapabilitySteps store ⟨program.instantiate bound, packages⟩ other workers negotiations answers progress
        (entries.map (Prod.map (·.instantiate bound) id)) =
      runCapabilitySteps store ⟨program, packages⟩ bound workers negotiations answers progress entries := by
  induction entries generalizing progress with
  | nil => rfl
  | cons entry entries ih =>
    obtain ⟨hentry, hentries⟩ := List.forall_mem_cons.1 h
    have hstep : runCapabilityStep store ⟨program.instantiate bound, packages⟩ other workers negotiations answers progress
        (Prod.map (·.instantiate bound) id entry) =
        runCapabilityStep store ⟨program, packages⟩ bound workers negotiations answers progress entry := by
      unfold runCapabilityStep
      simp only [Prod.map, id_eq, bindCapabilityArguments_instantiate hkeeps hentry]
      rfl
    rw [List.map_cons, runCapabilitySteps, runCapabilitySteps, hstep]
    refine congrArg (_ >>= ·) (funext fun outcome => ?_)
    cases outcome with
    | unsupported plan => rfl
    | refined progress => exact ih hentries progress

theorem executeResolved_congr (hkeeps : bound.KeepsQualified other) (h : ∀ use ∈ program.uses, use.Admitted bound)
    (sha256 : Bytes → String) (configuration : EffectiveConfiguration) (files : WorkspaceFiles) :
    executeResolved store ⟨program.instantiate bound, packages⟩ other workers negotiations answers sha256 configuration files =
      executeResolved store ⟨program, packages⟩ bound workers negotiations answers sha256 configuration files := by
  have hused : usedCapabilities ⟨program.instantiate bound, packages⟩ = usedCapabilities ⟨program, packages⟩ := by
    rw [usedCapabilities, usedCapabilities, QueryProgram.instantiate, List.map_map]
    rfl
  have hplan : negotiatedPlan ⟨program.instantiate bound, packages⟩ negotiations workers =
      negotiatedPlan ⟨program, packages⟩ negotiations workers := by
    unfold negotiatedPlan
    rw [hused]
  have hquery : executeQuery store other (program.instantiate bound) = executeQuery store bound program := by
    unfold executeQuery
    rw [compileQuery_instantiate fun use huse => h use (List.mem_append_left _ huse)]
  have hsteps : ∀ progress, runCapabilitySteps store ⟨program.instantiate bound, packages⟩ other workers negotiations answers progress
      (program.instantiate bound).capabilitySteps.zipIdx =
      runCapabilitySteps store ⟨program, packages⟩ bound workers negotiations answers progress program.capabilitySteps.zipIdx := by
    intro progress
    rw [QueryProgram.instantiate, List.zipIdx_map]
    refine runCapabilitySteps_instantiate hkeeps (fun entry hentry use huse => h use (List.mem_append_right _ ?_)) progress
    exact List.mem_flatMap.2 ⟨entry.1, List.fst_mem_of_mem_zipIdx hentry, huse⟩
  unfold executeResolved
  simp only [hplan, hused, hquery, hsteps]

end

/-- **Values are no syntax.** A well-typed command with its values answers, whatever the index, the workers and the files are,
as the program with the values in the places of the parameters: the same clauses, with no parameter to be bound. -/
theorem executeResolved_instantiate {query : ProjectQuery} {values : List (String × String)} {bound other : QueryParameters}
    (hbind : query.bind values = .ok bound) (htyped : query.WellTyped) (hkeeps : bound.KeepsQualified other) :
    (∀ packages store workers negotiations answers sha256 configuration files,
      executeResolved store ⟨query.program.instantiate bound, packages⟩ other workers negotiations answers sha256 configuration files =
        executeResolved store ⟨query.program, packages⟩ bound workers negotiations answers sha256 configuration files) ∧
      query.program.SameClauses (query.program.instantiate bound) ∧ (query.program.instantiate bound).Closed bound := by
  have hadmitted : ∀ use ∈ query.program.uses, use.Admitted bound := fun use huse =>
    ((ProjectQuery.fits_of_bind hbind).admitted_iff use).2 (htyped use huse)
  exact ⟨fun _ _ _ _ _ _ _ _ => executeResolved_congr hkeeps hadmitted _ _ _, query.program.sameClauses_instantiate bound,
    QueryProgram.instantiate_closed hadmitted⟩

def childrenOfBase : QueryParameters := fun name =>
  (lastOf Prod.fst [("api", QueryValue.symbolId ⟨"Base"⟩)] name).map Prod.snd

theorem childrenOfBase_instantiate :
    (∀ packages store workers negotiations answers sha256 configuration files,
      executeResolved store ⟨childrenQuery.program.instantiate childrenOfBase, packages⟩ noParameters workers negotiations answers
          sha256 configuration files =
        executeResolved store ⟨childrenQuery.program, packages⟩ childrenOfBase workers negotiations answers sha256 configuration
          files) ∧
      childrenQuery.program.SameClauses (childrenQuery.program.instantiate childrenOfBase) ∧
      (childrenQuery.program.instantiate childrenOfBase).Closed childrenOfBase := by
  have hbind : childrenQuery.bind [("api", "Base")] = .ok childrenOfBase := rfl
  have hkeeps : childrenOfBase.KeepsQualified noParameters := by
    intro name value h
    obtain ⟨entry, hentry, hsecond⟩ := Option.map_eq_some_iff.1 h
    obtain ⟨hmem, -⟩ := lastOf_some Prod.fst hentry
    rw [List.mem_singleton.1 hmem] at hsecond
    cases hsecond
  exact executeResolved_instantiate hbind (by decide) hkeeps

end Kide
