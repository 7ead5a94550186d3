import Kide.Lib.OrderFree
import Kide.Query.Capabilities

/-!
# Arguments of a capability

`validate_arguments` (`semantic_capability.rs`) against what a contract asks of a list of arguments (`Admits`).

* `supplyArgument_eq_ok_iff` : one argument is taken if it is declared, of its parameter's type and new;
* `supplyArguments_eq_ok_iff` : the loop takes all of them or none;
* `validateArguments_exact` : it accepts exactly the admitted lists, returns them by name, and their order does not matter.
-/

namespace Kide
open Checks Collects

/-! ## What a contract asks for -/

def SemanticQueryArgumentValue.type : SemanticQueryArgumentValue → SemanticQueryParameterType
  | .symbolId _ => .symbolId
  | .componentId _ => .componentId
  | .string _ => .string
  | .integer _ => .integer

theorem argumentMatches_iff {expected : SemanticQueryParameterType} {value : SemanticQueryArgumentValue} :
    argumentMatches expected value = true ↔ value.type = expected := by
  cases expected <;> cases value <;> simp [argumentMatches, SemanticQueryArgumentValue.type]

/-- The argument has a parameter, and its type. -/
def Declares (declared : List SemanticQueryParameter) (argument : SemanticQueryArgument) : Prop :=
  ∃ parameter ∈ declared, parameter.name = argument.name ∧ argument.value.type = parameter.ty

structure Admits (capability : SemanticQueryCapability) (arguments : List SemanticQueryArgument) : Prop where
  distinct : (capability.parameters.map (·.name)).Nodup
  supplied : ∀ parameter ∈ capability.parameters, parameter.required = true → parameter.name ∈ arguments.map (·.name)
  declared : ∀ argument ∈ arguments, Declares capability.parameters argument
  once : (arguments.map (·.name)).Nodup

theorem Admits.perm {capability : SemanticQueryCapability} {arguments permuted : List SemanticQueryArgument}
    (h : Admits capability arguments) (hperm : arguments.Perm permuted) : Admits capability permuted where
  distinct := h.distinct
  supplied parameter hparameter hrequired := (hperm.map _).mem_iff.1 (h.supplied parameter hparameter hrequired)
  declared argument hargument := h.declared argument (hperm.mem_iff.2 hargument)
  once := (hperm.map _).nodup_iff.1 h.once

/-! ## The loop over the arguments -/

section
variable {declared : List SemanticQueryParameter}

theorem supplyArgument_eq_ok_iff (hdistinct : (declared.map (·.name)).Nodup) {supplied next : List SemanticQueryArgument}
    {argument : SemanticQueryArgument} : supplyArgument declared supplied argument = .ok next ↔
      Declares declared argument ∧ argument.name ∉ supplied.map (·.name) ∧ supplied ++ [argument] = next := by
  have hfind : ∀ parameter : SemanticQueryParameter, lastOf (·.name) declared argument.name = some parameter ↔
      parameter ∈ declared ∧ parameter.name = argument.name := fun _ => lastOf_eq_some_iff _ hdistinct
  unfold supplyArgument
  cases hfound : lastOf (·.name) declared argument.name with
  | none =>
    rw [hfound] at hfind
    constructor
    · intro h
      cases h
    · rintro ⟨⟨parameter, hparameter, hname, -⟩, -⟩
      cases (hfind parameter).2 ⟨hparameter, hname⟩
  | some parameter =>
    rw [hfound] at hfind
    have hparameter := (hfind parameter).1 rfl
    have hdeclares : Declares declared argument ↔ argumentMatches parameter.ty argument.value = true := by
      rw [argumentMatches_iff]
      constructor
      · rintro ⟨other, hother, hname, htype⟩
        rw [htype, Option.some.inj ((hfind other).2 ⟨hother, hname⟩)]
      · exact fun htype => ⟨parameter, hparameter.1, hparameter.2, htype⟩
    dsimp only
    rw [hdeclares]
    by_cases hnew : argument.name ∈ supplied.map (·.name)
    · rw [if_pos hnew]
      exact ⟨(by intro h; cases h), fun h => absurd hnew h.2.1⟩
    · rw [if_neg hnew]
      by_cases htype : argumentMatches parameter.ty argument.value = true
      · rw [if_neg (by simp [htype]), Except.ok.injEq]
        exact ⟨fun h => ⟨htype, hnew, h⟩, fun h => h.2.2⟩
      · rw [if_pos (by simp [htype])]
        exact ⟨(by intro h; cases h), fun h => absurd h.1 htype⟩

/-- The loop takes the arguments as they come, and all of them. -/
theorem supplyArguments_eq_ok_iff (hdistinct : (declared.map (·.name)).Nodup)
    {arguments supplied result : List SemanticQueryArgument} (hsupplied : (supplied.map (·.name)).Nodup) :
    arguments.foldlM (supplyArgument declared) supplied = .ok result ↔
      (∀ argument ∈ arguments, Declares declared argument) ∧ ((supplied ++ arguments).map (·.name)).Nodup ∧
        supplied ++ arguments = result := by
  induction arguments generalizing supplied with
  | nil =>
    rw [List.foldlM_nil, pure_eq_ok, Except.ok.injEq, List.append_nil]
    exact ⟨fun h => ⟨by simp, hsupplied, h⟩, fun h => h.2.2⟩
  | cons argument arguments ih =>
    have hone : (supplied ++ [argument]).map (·.name) = supplied.map (·.name) ++ [argument.name] := by simp
    rw [List.foldlM_cons, bind_eq_ok_iff, List.forall_mem_cons]
    constructor
    · rintro ⟨next, hnext, hrest⟩
      obtain ⟨hdeclared, hnew, rfl⟩ := (supplyArgument_eq_ok_iff hdistinct).1 hnext
      have hnodup : ((supplied ++ [argument]).map (·.name)).Nodup := by
        rw [hone]
        exact hsupplied.append (List.nodup_singleton _) (by simpa using hnew)
      obtain ⟨hothers, hall, hresult⟩ := (ih hnodup).1 hrest
      rw [List.append_assoc, List.singleton_append] at hall hresult
      exact ⟨⟨hdeclared, hothers⟩, hall, hresult⟩
    · rintro ⟨⟨hdeclared, hothers⟩, hall, hresult⟩
      rw [← List.singleton_append, ← List.append_assoc] at hall hresult
      have hnodup : ((supplied ++ [argument]).map (·.name)).Nodup := by
        rw [List.map_append] at hall
        exact hall.of_append_left
      have hnew : argument.name ∉ supplied.map (·.name) := by
        rw [hone, List.nodup_append'] at hnodup
        exact fun hmem => hnodup.2.2 hmem (List.mem_singleton_self _)
      exact ⟨_, (supplyArgument_eq_ok_iff hdistinct).2 ⟨hdeclared, hnew, rfl⟩, (ih hnodup).2 ⟨hothers, hall, hresult⟩⟩

end

/-! ## By name -/

theorem byName_sorted (arguments : List SemanticQueryArgument) :
    (collect (·.name) stringLe arguments).Pairwise fun a b => a.name < b.name :=
  (collect_pairwise (·.name) stringLe arguments).imp fun h => lt_of_le_of_ne h.1 h.2

/-! ## Validation -/

variable (capability : SemanticQueryCapability) (arguments : List SemanticQueryArgument)

/-- No required parameter is left out. -/
theorem missing_eq_none_iff {parameters : List SemanticQueryParameter} {supplied : List SemanticQueryArgument} :
    (parameters.find? fun parameter => parameter.required && parameter.name ∉ supplied.map (·.name)) = none ↔
      ∀ parameter ∈ parameters, parameter.required = true → parameter.name ∈ supplied.map (·.name) := by
  rw [List.find?_eq_none]
  refine forall₂_congr fun parameter _ => ?_
  rw [Bool.and_eq_true, decide_eq_true_eq, not_and, not_not]

theorem validateArguments_eq_ok_iff {result : List SemanticQueryArgument} :
    validateArguments capability arguments = .ok result ↔
      Admits capability arguments ∧ collect (·.name) stringLe arguments = result := by
  have hnil : (([] : List SemanticQueryArgument).map (·.name)).Nodup := List.nodup_nil
  unfold validateArguments
  constructor
  · intro h
    obtain ⟨_, hdistinct, h⟩ := bind_eq_ok_iff.1 h
    obtain ⟨supplied, hsupplied, h⟩ := bind_eq_ok_iff.1 h
    have hdistinct := not_not.1 (reject_eq_ok_iff.1 hdistinct)
    obtain ⟨hdeclared, honce, rfl⟩ := (supplyArguments_eq_ok_iff hdistinct hnil).1 hsupplied
    split at h
    · cases h
    · next hmissing => exact ⟨⟨hdistinct, missing_eq_none_iff.1 hmissing, hdeclared, honce⟩, Except.ok.inj h⟩
  · rintro ⟨h, hresult⟩
    have hsupplied := (supplyArguments_eq_ok_iff h.distinct hnil).2 ⟨h.declared, h.once, rfl⟩
    rw [(reject_eq_ok_iff (u := ())).2 (not_not.2 h.distinct), ok_bind, hsupplied, ok_bind, List.nil_append,
      missing_eq_none_iff.2 h.supplied]
    exact congrArg Except.ok hresult

/-- **Arguments.** The arguments are accepted exactly if the contract admits them. They come back in the order of their
names, whatever the order they came in. -/
theorem validateArguments_exact :
    ((∃ result, validateArguments capability arguments = .ok result) ↔ Admits capability arguments) ∧
    (∀ result, validateArguments capability arguments = .ok result →
      result.Perm arguments ∧ result.Pairwise fun a b => a.name < b.name) ∧
    ∀ permuted, arguments.Perm permuted →
      (validateArguments capability permuted).toOption = (validateArguments capability arguments).toOption := by
  refine ⟨⟨?_, fun h => ⟨_, (validateArguments_eq_ok_iff capability arguments).2 ⟨h, rfl⟩⟩⟩, ?_, ?_⟩
  · rintro ⟨result, hresult⟩
    exact ((validateArguments_eq_ok_iff capability arguments).1 hresult).1
  · intro result hresult
    obtain ⟨hadmits, rfl⟩ := (validateArguments_eq_ok_iff capability arguments).1 hresult
    exact ⟨collect_perm_self _ stringLe hadmits.once, byName_sorted arguments⟩
  · intro permuted hperm
    refine Option.ext fun result => ?_
    have hok : ∀ {r : Except SemanticCapabilityError (List SemanticQueryArgument)}, r.toOption = some result ↔ r = .ok result := by
      intro r
      cases r <;> simp [Except.toOption]
    rw [hok, hok, validateArguments_eq_ok_iff, validateArguments_eq_ok_iff]
    constructor
    · rintro ⟨hadmits, rfl⟩
      exact ⟨hadmits.perm hperm.symm, collect_perm _ _ (hadmits.perm hperm.symm).once hperm⟩
    · rintro ⟨hadmits, rfl⟩
      exact ⟨hadmits.perm hperm, collect_perm _ _ (hadmits.perm hperm).once hperm.symm⟩

end Kide
