import Mathlib.Data.String.Basic
import Mathlib.Data.Prod.Lex
import Mathlib.Order.WithBot
import Mathlib.Data.List.Destutter
import Kide.Canonical
import Kide.Lib.Checks
import Kide.Lib.Distinct
import Kide.Lib.Fields

/-!
# Framework results

The envelope of a framework query (`framework_query.rs`): candidates, each with its reasons, evidence and assumptions,
and the boundaries of a partial answer. `normalize` checks a result and sorts every list of it.

* `normalize_eq_ok_iff` : what is accepted (`Acceptable`) and what it becomes (`normalForm`);
* `Reordered` : the same result with its lists in another order, at every depth;
* `evidenceKey_eq_iff` : the evidence records that one key stands for;
* `normalize_canonical_iff` : the results that have one normal form, keep every record and are left alone when normalized
  again.
-/

namespace Kide

open Checks Collects

/-! ## Records -/

inductive FrameworkQueryState where
  | complete | partially | unsupported
deriving DecidableEq, Repr

inductive CandidateDisposition where
  | selected | excluded | unresolved
deriving DecidableEq, Repr

inductive FrameworkEvidenceTarget where
  | symbol (symbol : SymbolId)
  | source (range : SourceRange)
deriving DecidableEq, Repr

structure FrameworkEvidence where
  code : String
  target : FrameworkEvidenceTarget
  provenance : Provenance
deriving DecidableEq, Repr

@[ext] structure FrameworkAssumption where
  code : String
  value : Option String
  evidence : List FrameworkEvidence
deriving DecidableEq, Repr

@[ext] structure FrameworkBoundary where
  code : String
  message : String
  evidence : List FrameworkEvidence
deriving DecidableEq, Repr

@[ext] structure FrameworkCandidate where
  symbol : SymbolRecord
  disposition : CandidateDisposition
  reasons : List String
  evidence : List FrameworkEvidence
  assumptions : List FrameworkAssumption
deriving DecidableEq, Repr

@[ext] structure FrameworkQueryResult where
  state : FrameworkQueryState
  candidates : List FrameworkCandidate
  boundaries : List FrameworkBoundary
deriving DecidableEq, Repr

inductive FrameworkQueryResultError where
  | invalidCode (code : String)
  | missingReasons (candidate : String)
  | missingEvidence (candidate : String)
  | duplicateCandidate (candidate : String)
  | invalidCompleteState
  | missingPartialBoundary
  | invalidUnsupportedState
deriving DecidableEq, Repr

/-! ## Codes -/

def isCodeChar (c : Char) : Bool := ('a' ≤ c && c ≤ 'z') || ('0' ≤ c && c ≤ '9') || c == '-'

def ValidCode (code : String) : Prop :=
  '.' ∈ code.toList ∧ ∀ part ∈ code.toList.splitOn '.', part ≠ [] ∧ ∀ c ∈ part, isCodeChar c = true

instance (part : List Char) : Decidable (∀ c ∈ part, isCodeChar c = true) := List.decidableBAll _ part

instance (code : String) : Decidable (ValidCode code) := inferInstanceAs (Decidable (_ ∧ _))

def validateCode (code : String) : Except FrameworkQueryResultError Unit :=
  if ValidCode code then .ok () else .error (.invalidCode code)

theorem validateCode_eq_ok_iff {code : String} {u : Unit} : validateCode code = .ok u ↔ ValidCode code := ite_ok_eq_ok_iff

/-! ## Normalizing -/

/-- The text two evidence records are compared by. -/
def evidenceKey (evidence : FrameworkEvidence) : String :=
  let target := match evidence.target with
    | .symbol symbol => "symbol:" ++ symbol.asStr
    | .source range => "source:" ++ range.sourceUnit.asStr ++ ":" ++ toString range.bytes.start ++ ":" ++ toString range.bytes.stop
  evidence.code ++ "|" ++ target ++ "|" ++ evidence.provenance.backend ++ "|" ++ evidence.provenance.backendVersion ++ "|" ++
    evidence.provenance.analysisOptions.asStr

/-- Sorted by key; of the records with one key the first stays. -/
def normalizeEvidence (evidence : List FrameworkEvidence) :
    Except FrameworkQueryResultError (List FrameworkEvidence) := do
  evidence.forM fun item => validateCode item.code
  return sortDistinct evidenceKey evidence

def FrameworkAssumption.sortKey (assumption : FrameworkAssumption) : Lex (String × WithBot String) :=
  toLex (assumption.code, assumption.value)

def FrameworkBoundary.sortKey (boundary : FrameworkBoundary) : Lex (String × String) :=
  toLex (boundary.code, boundary.message)

def normalizeAssumption (assumption : FrameworkAssumption) : Except FrameworkQueryResultError FrameworkAssumption := do
  validateCode assumption.code
  let evidence ← normalizeEvidence assumption.evidence
  return { assumption with evidence }

def normalizeCandidate (candidate : FrameworkCandidate) : Except FrameworkQueryResultError FrameworkCandidate := do
  reject (candidate.reasons = []) (.missingReasons candidate.symbol.id.asStr)
  candidate.reasons.forM validateCode
  let reasons := (candidate.reasons.insertionSort (· ≤ ·)).destutter (· ≠ ·)
  reject (candidate.evidence = []) (.missingEvidence candidate.symbol.id.asStr)
  let evidence ← normalizeEvidence candidate.evidence
  let assumptions ← candidate.assumptions.mapM normalizeAssumption
  let assumptions := assumptions.insertionSort fun left right => left.sortKey ≤ right.sortKey
  return { candidate with reasons, evidence, assumptions }

def normalizeBoundary (boundary : FrameworkBoundary) : Except FrameworkQueryResultError FrameworkBoundary := do
  validateCode boundary.code
  let evidence ← normalizeEvidence boundary.evidence
  return { boundary with evidence }

def FrameworkCandidate.idText (candidate : FrameworkCandidate) : String := candidate.symbol.id.asStr

/-- The first candidate whose id its neighbour repeats. -/
def rejectDuplicates (candidates : List FrameworkCandidate) : Except FrameworkQueryResultError Unit :=
  match (candidates.zip candidates.tail).find? fun pair => pair.1.idText = pair.2.idText with
  | some pair => .error (.duplicateCandidate pair.1.idText)
  | none => .ok ()

def checkState (state : FrameworkQueryState) (candidates : List FrameworkCandidate) (boundaries : List FrameworkBoundary) :
    Except FrameworkQueryResultError Unit :=
  match state with
  | .complete =>
    reject (boundaries ≠ [] ∨ ∃ candidate ∈ candidates, candidate.disposition = .unresolved) .invalidCompleteState
  | .partially => reject (boundaries = []) .missingPartialBoundary
  | .unsupported => reject (boundaries = [] ∨ candidates ≠ []) .invalidUnsupportedState

def FrameworkQueryResult.normalize (result : FrameworkQueryResult) :
    Except FrameworkQueryResultError FrameworkQueryResult := do
  let candidates ← result.candidates.mapM normalizeCandidate
  let candidates := candidates.insertionSort fun left right => left.idText ≤ right.idText
  rejectDuplicates candidates
  let boundaries ← result.boundaries.mapM normalizeBoundary
  let boundaries := boundaries.insertionSort fun left right => left.sortKey ≤ right.sortKey
  checkState result.state candidates boundaries
  return { result with candidates, boundaries }

instance : IsTrans FrameworkAssumption fun left right => left.sortKey ≤ right.sortKey := ⟨fun _ _ _ => le_trans⟩

instance : Std.Total fun left right : FrameworkAssumption => left.sortKey ≤ right.sortKey := ⟨fun _ _ => le_total _ _⟩

instance : IsTrans FrameworkBoundary fun left right => left.sortKey ≤ right.sortKey := ⟨fun _ _ _ => le_trans⟩

instance : Std.Total fun left right : FrameworkBoundary => left.sortKey ≤ right.sortKey := ⟨fun _ _ => le_total _ _⟩

instance : IsTrans FrameworkCandidate fun left right => left.idText ≤ right.idText := ⟨fun _ _ _ => le_trans⟩

instance : Std.Total fun left right : FrameworkCandidate => left.idText ≤ right.idText := ⟨fun _ _ => le_total _ _⟩

/-! ## What is accepted and what it becomes -/

theorem normalizeEvidence_eq_ok_iff {evidence out : List FrameworkEvidence} :
    normalizeEvidence evidence = .ok out ↔
      (∀ item ∈ evidence, ValidCode item.code) ∧ sortDistinct evidenceKey evidence = out := by
  unfold normalizeEvidence
  rw [bind_eq_ok_iff]
  constructor
  · rintro ⟨_, hcodes, hout⟩
    exact ⟨fun item hitem => validateCode_eq_ok_iff.1 (forM_eq_ok_iff.1 hcodes item hitem), Except.ok.inj hout⟩
  · rintro ⟨hcodes, rfl⟩
    exact ⟨⟨⟩, forM_eq_ok_iff.2 fun item hitem => validateCode_eq_ok_iff.2 (hcodes item hitem), rfl⟩

/-- A named entry with evidence. -/
def NamedEvidence (code : String) (evidence : List FrameworkEvidence) : Prop :=
  ValidCode code ∧ ∀ item ∈ evidence, ValidCode item.code

instance (code : String) (evidence : List FrameworkEvidence) : Decidable (NamedEvidence code evidence) :=
  inferInstanceAs (Decidable (_ ∧ _))

def FrameworkAssumption.normalForm (assumption : FrameworkAssumption) : FrameworkAssumption :=
  { assumption with evidence := sortDistinct evidenceKey assumption.evidence }

def FrameworkBoundary.normalForm (boundary : FrameworkBoundary) : FrameworkBoundary :=
  { boundary with evidence := sortDistinct evidenceKey boundary.evidence }

theorem normalizeAssumption_eq_ok_iff (assumption out : FrameworkAssumption) :
    normalizeAssumption assumption = .ok out ↔
      NamedEvidence assumption.code assumption.evidence ∧ assumption.normalForm = out := by
  unfold normalizeAssumption
  simp only [bind_eq_ok_iff, validateCode_eq_ok_iff, normalizeEvidence_eq_ok_iff, pure_eq_ok, Except.ok.injEq]
  constructor
  · rintro ⟨_, hcode, _, ⟨hevidence, rfl⟩, rfl⟩
    exact ⟨⟨hcode, hevidence⟩, rfl⟩
  · rintro ⟨⟨hcode, hevidence⟩, rfl⟩
    exact ⟨⟨⟩, hcode, _, ⟨hevidence, rfl⟩, rfl⟩

theorem normalizeBoundary_eq_ok_iff (boundary out : FrameworkBoundary) :
    normalizeBoundary boundary = .ok out ↔ NamedEvidence boundary.code boundary.evidence ∧ boundary.normalForm = out := by
  unfold normalizeBoundary
  simp only [bind_eq_ok_iff, validateCode_eq_ok_iff, normalizeEvidence_eq_ok_iff, pure_eq_ok, Except.ok.injEq]
  constructor
  · rintro ⟨_, hcode, _, ⟨hevidence, rfl⟩, rfl⟩
    exact ⟨⟨hcode, hevidence⟩, rfl⟩
  · rintro ⟨⟨hcode, hevidence⟩, rfl⟩
    exact ⟨⟨⟩, hcode, _, ⟨hevidence, rfl⟩, rfl⟩

structure FrameworkCandidate.Acceptable (candidate : FrameworkCandidate) : Prop where
  reasons : candidate.reasons ≠ []
  reasonCodes : ∀ reason ∈ candidate.reasons, ValidCode reason
  evidence : candidate.evidence ≠ []
  evidenceCodes : ∀ item ∈ candidate.evidence, ValidCode item.code
  assumptions : ∀ assumption ∈ candidate.assumptions, NamedEvidence assumption.code assumption.evidence

def FrameworkCandidate.normalForm (candidate : FrameworkCandidate) : FrameworkCandidate :=
  { candidate with
    reasons := (candidate.reasons.insertionSort (· ≤ ·)).destutter (· ≠ ·)
    evidence := sortDistinct evidenceKey candidate.evidence
    assumptions := (candidate.assumptions.map (·.normalForm)).insertionSort fun left right => left.sortKey ≤ right.sortKey }

theorem validateCodes_eq_ok_iff {codes : List String} {u : Unit} :
    codes.forM validateCode = .ok u ↔ ∀ code ∈ codes, ValidCode code := by
  rw [forM_eq_ok_iff]
  exact forall₂_congr fun _ _ => validateCode_eq_ok_iff

theorem normalizeCandidate_eq_ok_iff (candidate out : FrameworkCandidate) :
    normalizeCandidate candidate = .ok out ↔ candidate.Acceptable ∧ candidate.normalForm = out := by
  unfold normalizeCandidate
  simp only [bind_eq_ok_iff, reject_eq_ok_iff, validateCodes_eq_ok_iff, normalizeEvidence_eq_ok_iff,
    mapM_eq_ok_checked_iff normalizeAssumption_eq_ok_iff, pure_eq_ok, Except.ok.injEq]
  constructor
  · rintro ⟨_, hreasons, _, hcodes, _, hevidence, _, ⟨hevidenceCodes, rfl⟩, _, ⟨hassumptions, rfl⟩, rfl⟩
    exact ⟨⟨hreasons, hcodes, hevidence, hevidenceCodes, hassumptions⟩, rfl⟩
  · rintro ⟨⟨hreasons, hcodes, hevidence, hevidenceCodes, hassumptions⟩, rfl⟩
    exact ⟨⟨⟩, hreasons, ⟨⟩, hcodes, ⟨⟩, hevidence, _, ⟨hevidenceCodes, rfl⟩, _, ⟨hassumptions, rfl⟩, rfl⟩

/-- What the state of a result says of its candidates and boundaries. -/
def StateAllows (state : FrameworkQueryState) (candidates : List FrameworkCandidate) (boundaries : List FrameworkBoundary) : Prop :=
  match state with
  | .complete => boundaries = [] ∧ ∀ candidate ∈ candidates, candidate.disposition ≠ .unresolved
  | .partially => boundaries ≠ []
  | .unsupported => boundaries ≠ [] ∧ candidates = []

theorem checkState_eq_ok_iff {state : FrameworkQueryState} {candidates : List FrameworkCandidate}
    {boundaries : List FrameworkBoundary} :
    checkState state candidates boundaries = .ok () ↔ StateAllows state candidates boundaries := by
  cases state <;> rw [checkState, reject_eq_ok_iff, StateAllows] <;> simp [not_or]

theorem stateAllows_congr {state : FrameworkQueryState} {candidates candidates' : List FrameworkCandidate}
    {boundaries boundaries' : List FrameworkBoundary}
    (hcandidates : (candidates.map (·.disposition)).Perm (candidates'.map (·.disposition)))
    (hboundaries : boundaries = [] ↔ boundaries' = []) :
    StateAllows state candidates boundaries ↔ StateAllows state candidates' boundaries' := by
  have hnil : candidates = [] ↔ candidates' = [] := by
    rw [← List.map_eq_nil_iff (f := (·.disposition)), ← List.map_eq_nil_iff (f := (·.disposition)) (l := candidates')]
    exact ⟨fun h => (h ▸ hcandidates).symm.eq_nil, fun h => (h ▸ hcandidates).eq_nil⟩
  have hall : (∀ candidate ∈ candidates, candidate.disposition ≠ .unresolved) ↔
      ∀ candidate ∈ candidates', candidate.disposition ≠ .unresolved := by
    rw [← List.forall_mem_map (P := (· ≠ CandidateDisposition.unresolved)),
      ← List.forall_mem_map (l := candidates') (P := (· ≠ CandidateDisposition.unresolved))]
    exact forall_congr' fun d => by rw [hcandidates.mem_iff]
  cases state with
  | complete => exact and_congr hboundaries hall
  | partially => exact not_congr hboundaries
  | unsupported => exact and_congr (not_congr hboundaries) hnil

theorem rejectDuplicates_eq_ok_iff {candidates : List FrameworkCandidate}
    (h : candidates.Pairwise fun left right => left.idText ≤ right.idText) :
    rejectDuplicates candidates = .ok () ↔ (candidates.map (·.idText)).Nodup := by
  rw [nodup_iff_neighbours _ h, rejectDuplicates]
  split
  next pair hfound =>
    refine iff_of_false (fun h => by cases h) fun hdistinct => ?_
    exact hdistinct pair (List.mem_of_find?_eq_some hfound) (by simpa using List.find?_some hfound)
  next hnone =>
    refine iff_of_true rfl fun pair hpair heq => ?_
    exact List.find?_eq_none.1 hnone pair hpair (by simpa using heq)

namespace FrameworkQueryResult

structure Acceptable (result : FrameworkQueryResult) : Prop where
  candidates : ∀ candidate ∈ result.candidates, candidate.Acceptable
  ids : (result.candidates.map (·.idText)).Nodup
  boundaries : ∀ boundary ∈ result.boundaries, NamedEvidence boundary.code boundary.evidence
  state : StateAllows result.state result.candidates result.boundaries

def normalForm (result : FrameworkQueryResult) : FrameworkQueryResult :=
  { result with
    candidates := (result.candidates.map (·.normalForm)).insertionSort fun left right => left.idText ≤ right.idText
    boundaries := (result.boundaries.map (·.normalForm)).insertionSort fun left right => left.sortKey ≤ right.sortKey }

theorem candidates_perm (result : FrameworkQueryResult) :
    result.normalForm.candidates.Perm (result.candidates.map (·.normalForm)) := List.perm_insertionSort _ _

theorem boundaries_perm (result : FrameworkQueryResult) :
    result.normalForm.boundaries.Perm (result.boundaries.map (·.normalForm)) := List.perm_insertionSort _ _

theorem candidates_sorted (result : FrameworkQueryResult) :
    result.normalForm.candidates.Pairwise fun left right => left.idText ≤ right.idText := List.pairwise_insertionSort _ _

theorem normalForm_ids_nodup {result : FrameworkQueryResult} :
    (result.normalForm.candidates.map (·.idText)).Nodup ↔ (result.candidates.map (·.idText)).Nodup := by
  rw [((candidates_perm result).map (·.idText)).nodup_iff, List.map_map]
  rfl

theorem normalForm_stateAllows {result : FrameworkQueryResult} :
    StateAllows result.state result.normalForm.candidates result.normalForm.boundaries ↔
      StateAllows result.state result.candidates result.boundaries := by
  refine stateAllows_congr ?_ ?_
  · have hperm := (candidates_perm result).map (·.disposition)
    rwa [List.map_map] at hperm
  · rw [← List.length_eq_zero_iff, (boundaries_perm result).length_eq, List.length_map, List.length_eq_zero_iff]

theorem normalize_eq_ok_iff {result out : FrameworkQueryResult} :
    result.normalize = .ok out ↔ result.Acceptable ∧ result.normalForm = out := by
  unfold normalize
  simp only [bind_eq_ok_iff, mapM_eq_ok_checked_iff normalizeCandidate_eq_ok_iff,
    mapM_eq_ok_checked_iff normalizeBoundary_eq_ok_iff, pure_eq_ok, Except.ok.injEq]
  constructor
  · rintro ⟨_, ⟨hcandidates, rfl⟩, _, hduplicates, _, ⟨hboundaries, rfl⟩, _, hstate, rfl⟩
    have hids := (rejectDuplicates_eq_ok_iff (candidates_sorted result)).1 hduplicates
    exact ⟨⟨hcandidates, normalForm_ids_nodup.1 hids, hboundaries,
      normalForm_stateAllows.1 (checkState_eq_ok_iff.1 hstate)⟩, rfl⟩
  · rintro ⟨⟨hcandidates, hids, hboundaries, hstate⟩, rfl⟩
    exact ⟨_, ⟨hcandidates, rfl⟩, ⟨⟩, (rejectDuplicates_eq_ok_iff (candidates_sorted result)).2 (normalForm_ids_nodup.2 hids),
      _, ⟨hboundaries, rfl⟩, ⟨⟩, checkState_eq_ok_iff.2 (normalForm_stateAllows.2 hstate), rfl⟩

end FrameworkQueryResult

/-! ## The same result in another order -/

structure FrameworkAssumption.Reordered (assumption other : FrameworkAssumption) : Prop where
  code : assumption.code = other.code
  value : assumption.value = other.value
  evidence : assumption.evidence.Perm other.evidence

structure FrameworkBoundary.Reordered (boundary other : FrameworkBoundary) : Prop where
  code : boundary.code = other.code
  message : boundary.message = other.message
  evidence : boundary.evidence.Perm other.evidence

structure FrameworkCandidate.Reordered (candidate other : FrameworkCandidate) : Prop where
  symbol : candidate.symbol = other.symbol
  disposition : candidate.disposition = other.disposition
  reasons : candidate.reasons.Perm other.reasons
  evidence : candidate.evidence.Perm other.evidence
  assumptions : Reorders FrameworkAssumption.Reordered candidate.assumptions other.assumptions

structure FrameworkQueryResult.Reordered (result other : FrameworkQueryResult) : Prop where
  state : result.state = other.state
  candidates : Reorders FrameworkCandidate.Reordered result.candidates other.candidates
  boundaries : Reorders FrameworkBoundary.Reordered result.boundaries other.boundaries

theorem FrameworkAssumption.Reordered.refl (assumption : FrameworkAssumption) : assumption.Reordered assumption :=
  ⟨rfl, rfl, List.Perm.refl _⟩

theorem FrameworkBoundary.Reordered.refl (boundary : FrameworkBoundary) : boundary.Reordered boundary :=
  ⟨rfl, rfl, List.Perm.refl _⟩

theorem FrameworkCandidate.Reordered.refl (candidate : FrameworkCandidate) : candidate.Reordered candidate :=
  ⟨rfl, rfl, List.Perm.refl _, List.Perm.refl _, Reorders.of_perm FrameworkAssumption.Reordered.refl (List.Perm.refl _)⟩

theorem perm_forall_iff {α : Type} {p : α → Prop} {l l' : List α} (h : l.Perm l') : (∀ a ∈ l, p a) ↔ ∀ a ∈ l', p a :=
  forall_congr' fun _ => by rw [h.mem_iff]

theorem perm_nil_iff {α : Type} {l l' : List α} (h : l.Perm l') : l = [] ↔ l' = [] := by
  rw [← List.length_eq_zero_iff, h.length_eq, List.length_eq_zero_iff]

theorem namedEvidence_congr {code code' : String} {evidence evidence' : List FrameworkEvidence} (hcode : code = code')
    (h : evidence.Perm evidence') : NamedEvidence code evidence ↔ NamedEvidence code' evidence' := by
  rw [NamedEvidence, NamedEvidence, hcode, perm_forall_iff h]

theorem FrameworkCandidate.Reordered.acceptable_iff {candidate other : FrameworkCandidate} (h : candidate.Reordered other) :
    candidate.Acceptable ↔ other.Acceptable := by
  have hassumptions := h.assumptions.forall_iff fun a b hab => namedEvidence_congr hab.code hab.evidence
  constructor
  · rintro ⟨hreasons, hcodes, hevidence, hevidenceCodes, hall⟩
    exact ⟨fun hnil => hreasons ((perm_nil_iff h.reasons).2 hnil), (perm_forall_iff h.reasons).1 hcodes,
      fun hnil => hevidence ((perm_nil_iff h.evidence).2 hnil), (perm_forall_iff h.evidence).1 hevidenceCodes,
      hassumptions.1 hall⟩
  · rintro ⟨hreasons, hcodes, hevidence, hevidenceCodes, hall⟩
    exact ⟨fun hnil => hreasons ((perm_nil_iff h.reasons).1 hnil), (perm_forall_iff h.reasons).2 hcodes,
      fun hnil => hevidence ((perm_nil_iff h.evidence).1 hnil), (perm_forall_iff h.evidence).2 hevidenceCodes,
      hassumptions.2 hall⟩

/-- Acceptance does not look at the order. -/
theorem FrameworkQueryResult.Reordered.acceptable_iff {result other : FrameworkQueryResult} (h : result.Reordered other) :
    result.Acceptable ↔ other.Acceptable := by
  have hcandidates := h.candidates.forall_iff fun _ _ hab => hab.acceptable_iff
  have hboundaries := h.boundaries.forall_iff fun a b hab => namedEvidence_congr hab.code hab.evidence
  have hids : (result.candidates.map (·.idText)).Nodup ↔ (other.candidates.map (·.idText)).Nodup :=
    (h.candidates.map_perm fun a _ b hab => by rw [FrameworkCandidate.idText, FrameworkCandidate.idText, hab.symbol]).nodup_iff
  have hstate : StateAllows result.state result.candidates result.boundaries ↔
      StateAllows other.state other.candidates other.boundaries := by
    rw [h.state]
    exact stateAllows_congr (h.candidates.map_perm fun _ _ _ hab => hab.disposition) h.boundaries.nil_iff
  constructor
  · rintro ⟨h₁, h₂, h₃, h₄⟩
    exact ⟨hcandidates.1 h₁, hids.1 h₂, hboundaries.1 h₃, hstate.1 h₄⟩
  · rintro ⟨h₁, h₂, h₃, h₄⟩
    exact ⟨hcandidates.2 h₁, hids.2 h₂, hboundaries.2 h₃, hstate.2 h₄⟩

/-! ## What a key stands for -/

def FrameworkEvidenceTarget.isSymbol : FrameworkEvidenceTarget → Bool
  | .symbol _ => true
  | .source _ => false

def FrameworkEvidenceTarget.text : FrameworkEvidenceTarget → String
  | .symbol id => id.asStr
  | .source range => range.sourceUnit.asStr ++ ":" ++ toString range.bytes.start ++ ":" ++ toString range.bytes.stop

/-- Everything of the key that stands behind the kind of target. -/
def FrameworkEvidence.details (evidence : FrameworkEvidence) : String :=
  evidence.target.text ++ "|" ++ evidence.provenance.backend ++ "|" ++ evidence.provenance.backendVersion ++ "|" ++
    evidence.provenance.analysisOptions.asStr

/-- One code and kind of target, and the same text for all the rest. -/
structure FrameworkEvidence.Alike (a b : FrameworkEvidence) : Prop where
  code : a.code = b.code
  kind : a.target.isSymbol = b.target.isSymbol
  details : a.details = b.details

theorem bar_notMem_code {code : String} (h : ValidCode code) : '|' ∉ code.toList := by
  intro hbar
  have hparts : ['.'].intercalate (code.toList.splitOn '.') = code.toList := List.intercalate_splitOn '.'
  rw [← hparts] at hbar
  rcases Fields.mem_intercalate hbar with heq | ⟨part, hpart, hbar⟩
  · cases heq
  · have hchar := (h.2 part hpart).2 '|' hbar
    revert hchar
    decide

theorem evidenceKey_eq (evidence : FrameworkEvidence) :
    evidenceKey evidence = evidence.code ++ String.singleton '|' ++
      ((if evidence.target.isSymbol then "symbol:" else "source:") ++ evidence.details) := by
  have hbar : String.singleton '|' = "|" := rfl
  unfold evidenceKey FrameworkEvidence.details FrameworkEvidenceTarget.isSymbol FrameworkEvidenceTarget.text
  cases evidence.target with
  | symbol symbol => simp only [hbar, String.append_assoc, if_true]
  | source range => simp only [hbar, String.append_assoc, Bool.false_eq_true, if_false]

/-- One key for the records that are alike. -/
theorem evidenceKey_eq_iff {a b : FrameworkEvidence} (ha : ValidCode a.code) (hb : ValidCode b.code) :
    evidenceKey a = evidenceKey b ↔ a.Alike b := by
  have hkind : (if a.target.isSymbol then "symbol:" else "source:") ++ a.details =
      (if b.target.isSymbol then "symbol:" else "source:") ++ b.details ↔
      a.target.isSymbol = b.target.isSymbol ∧ a.details = b.details := by
    cases a.target.isSymbol <;> cases b.target.isSymbol <;>
      simp [← String.toList_inj]
  rw [evidenceKey_eq, evidenceKey_eq, Fields.separated_inj (bar_notMem_code ha) (bar_notMem_code hb), hkind]
  exact ⟨fun ⟨hcode, hk, hdetails⟩ => ⟨hcode, hk, hdetails⟩, fun ⟨hcode, hk, hdetails⟩ => ⟨hcode, hk, hdetails⟩⟩

/-- No `|` before the options. -/
structure FrameworkEvidence.Plain (evidence : FrameworkEvidence) : Prop where
  target : '|' ∉ evidence.target.text.toList
  backend : '|' ∉ evidence.provenance.backend.toList
  backendVersion : '|' ∉ evidence.provenance.backendVersion.toList

theorem sourceText_inj {a b : SourceRange} :
    (FrameworkEvidenceTarget.source a).text = (FrameworkEvidenceTarget.source b).text ↔ a = b := by
  have hdigits : ∀ n : Nat, ':' ∉ (toString n).toList := Fields.notMem_toString rfl
  refine ⟨fun h => ?_, fun h => by rw [h]⟩
  obtain ⟨⟨unitA⟩, ⟨startA, stopA⟩⟩ := a
  obtain ⟨⟨unitB⟩, ⟨startB, stopB⟩⟩ := b
  obtain ⟨h, hstop⟩ := (@Fields.trailing_inj ':' _ _ _ _ (hdigits stopA) (hdigits stopB)).1 h
  obtain ⟨hunit, hstart⟩ := (@Fields.trailing_inj ':' _ _ _ _ (hdigits startA) (hdigits startB)).1 h
  rw [Fields.toString_inj] at hstart hstop
  simp only at hunit
  rw [hunit, hstart, hstop]

theorem targetText_inj {a b : FrameworkEvidenceTarget} (hkind : a.isSymbol = b.isSymbol) : a.text = b.text ↔ a = b := by
  cases a with
  | symbol a =>
    cases b with
    | symbol b => exact ⟨fun h => congrArg (fun text => FrameworkEvidenceTarget.symbol ⟨text⟩) h, fun h => by rw [h]⟩
    | source b => cases hkind
  | source a =>
    cases b with
    | symbol b => cases hkind
    | source b => exact sourceText_inj.trans ⟨congrArg _, FrameworkEvidenceTarget.source.inj⟩

theorem details_eq (evidence : FrameworkEvidence) :
    evidence.details = evidence.target.text ++ String.singleton '|' ++ (evidence.provenance.backend ++ String.singleton '|' ++
      (evidence.provenance.backendVersion ++ String.singleton '|' ++ evidence.provenance.analysisOptions.asStr)) := by
  have hbar : String.singleton '|' = "|" := rfl
  simp only [FrameworkEvidence.details, hbar, String.append_assoc]

/-- Plain records that are alike differ in the protocol version only. -/
theorem FrameworkEvidence.Plain.alike_iff {a b : FrameworkEvidence} (ha : a.Plain) (hb : b.Plain) :
    a.Alike b ↔ { a with provenance.protocolVersion := b.provenance.protocolVersion } = b := by
  constructor
  · rintro ⟨hcode, hkind, hdetails⟩
    rw [details_eq, details_eq, Fields.separated_inj ha.target hb.target, Fields.separated_inj ha.backend hb.backend,
      Fields.separated_inj ha.backendVersion hb.backendVersion, targetText_inj hkind] at hdetails
    obtain ⟨htarget, hbackend, hversion, hoptions⟩ := hdetails
    obtain ⟨codeA, targetA, ⟨backendA, versionA, protocolA, ⟨optionsA⟩⟩⟩ := a
    obtain ⟨codeB, targetB, ⟨backendB, versionB, protocolB, ⟨optionsB⟩⟩⟩ := b
    simp only at hcode htarget hbackend hversion hoptions
    rw [hcode, htarget, hbackend, hversion, hoptions]
  · intro h
    rw [← h]
    exact ⟨rfl, rfl, rfl⟩

/-! ## One normal form -/

/-- The records of the list that are alike are equal. -/
def Apart (evidence : List FrameworkEvidence) : Prop := ∀ a ∈ evidence, ∀ b ∈ evidence, a.Alike b → a = b

theorem Apart.key_inj {evidence : List FrameworkEvidence} (h : Apart evidence) (hcodes : ∀ item ∈ evidence, ValidCode item.code) :
    ∀ a ∈ evidence, ∀ b ∈ evidence, evidenceKey a = evidenceKey b → a = b := fun a ha b hb heq =>
  h a ha b hb ((evidenceKey_eq_iff (hcodes a ha) (hcodes b hb)).1 heq)

theorem apart_iff_kept {evidence : List FrameworkEvidence} (hcodes : ∀ item ∈ evidence, ValidCode item.code) :
    Apart evidence ↔ ∀ item ∈ evidence, item ∈ sortDistinct evidenceKey evidence := by
  rw [subset_sortDistinct_iff]
  exact ⟨fun h => h.key_inj hcodes, fun h a ha b hb halike =>
    h a ha b hb ((evidenceKey_eq_iff (hcodes a ha) (hcodes b hb)).2 halike)⟩

/-- The normal form of a list whose records are apart is its set. -/
theorem normalEvidence_eq_iff {evidence other : List FrameworkEvidence} (hcodes : ∀ item ∈ evidence, ValidCode item.code)
    (hcodes' : ∀ item ∈ other, ValidCode item.code) (h : Apart evidence) (h' : Apart other) :
    sortDistinct evidenceKey evidence = sortDistinct evidenceKey other ↔ ∀ item, item ∈ evidence ↔ item ∈ other :=
  sortDistinct_eq_iff evidenceKey (h.key_inj hcodes) (h'.key_inj hcodes')

theorem normalEvidence_congr {evidence other : List FrameworkEvidence} (hcodes : ∀ item ∈ evidence, ValidCode item.code)
    (h : Apart evidence) (hsame : ∀ item, item ∈ evidence ↔ item ∈ other) :
    sortDistinct evidenceKey evidence = sortDistinct evidenceKey other :=
  (normalEvidence_eq_iff hcodes (fun item hitem => hcodes item ((hsame item).2 hitem)) h
    fun a ha b hb => h a ((hsame a).2 ha) b ((hsame b).2 hb)).2 hsame

def FrameworkCandidate.evidenceLists (candidate : FrameworkCandidate) : List (List FrameworkEvidence) :=
  candidate.evidence :: candidate.assumptions.map (·.evidence)

/-- Nothing the sort keys leave out tells two entries of a candidate apart. -/
structure FrameworkCandidate.Distinguishable (candidate : FrameworkCandidate) : Prop where
  evidence : ∀ evidence ∈ candidate.evidenceLists, Apart evidence
  assumptions : ∀ a ∈ candidate.assumptions, ∀ b ∈ candidate.assumptions, a.code = b.code → a.value = b.value →
    ∀ item, item ∈ a.evidence ↔ item ∈ b.evidence

theorem sortKey_le_antisymm {a b : FrameworkAssumption} (hab : a.sortKey ≤ b.sortKey) (hba : b.sortKey ≤ a.sortKey) :
    a.code = b.code ∧ a.value = b.value := by
  have h : a.sortKey = b.sortKey := le_antisymm hab hba
  exact Prod.mk.inj (toLex.injective h)

theorem boundarySortKey_le_antisymm {a b : FrameworkBoundary} (hab : a.sortKey ≤ b.sortKey) (hba : b.sortKey ≤ a.sortKey) :
    a.code = b.code ∧ a.message = b.message := by
  have h : a.sortKey = b.sortKey := le_antisymm hab hba
  exact Prod.mk.inj (toLex.injective h)

/-- One normal form for the orders of a distinguishable candidate. -/
theorem FrameworkCandidate.Reordered.normalForm_eq {candidate other : FrameworkCandidate} (h : candidate.Reordered other)
    (hacc : candidate.Acceptable) (hdist : candidate.Distinguishable) : candidate.normalForm = other.normalForm := by
  have hreasons : candidate.reasons.insertionSort (· ≤ ·) = other.reasons.insertionSort (· ≤ ·) :=
    insertionSort_eq_of_perm (fun _ _ _ _ => le_antisymm) h.reasons
  have hevidence := normalEvidence_congr hacc.evidenceCodes (hdist.evidence _ List.mem_cons_self) fun item => h.evidence.mem_iff
  have hapart : ∀ a ∈ candidate.assumptions, Apart a.evidence := fun a ha =>
    hdist.evidence _ (List.mem_cons_of_mem _ (List.mem_map_of_mem ha))
  have hassumptions : (candidate.assumptions.map (·.normalForm)).Perm (other.assumptions.map (·.normalForm)) := by
    refine h.assumptions.map_perm fun a ha b hab => FrameworkAssumption.ext hab.code hab.value ?_
    exact normalEvidence_congr (hacc.assumptions a ha).2 (hapart a ha) fun item => hab.evidence.mem_iff
  have hsort := insertionSort_eq_of_perm (r := fun left right : FrameworkAssumption => left.sortKey ≤ right.sortKey)
    (fun x hx y hy hxy hyx => by
      obtain ⟨a, ha, rfl⟩ := List.mem_map.1 hx
      obtain ⟨b, hb, rfl⟩ := List.mem_map.1 hy
      obtain ⟨hcode, hvalue⟩ := sortKey_le_antisymm hxy hyx
      exact FrameworkAssumption.ext hcode hvalue
        (normalEvidence_congr (hacc.assumptions a ha).2 (hapart a ha) (hdist.assumptions a ha b hb hcode hvalue)))
    hassumptions
  exact FrameworkCandidate.ext h.symbol h.disposition (congrArg (List.destutter (· ≠ ·)) hreasons) hevidence hsort

theorem FrameworkCandidate.normalForm_idem (candidate : FrameworkCandidate) :
    candidate.normalForm.normalForm = candidate.normalForm := by
  refine FrameworkCandidate.ext rfl rfl ?_ (sortDistinct_idem _) ?_
  · have hsorted : ((candidate.reasons.insertionSort (· ≤ ·)).destutter (· ≠ ·)).Pairwise (· ≤ ·) :=
      (List.pairwise_insertionSort (· ≤ ·) candidate.reasons).sublist (List.destutter_sublist _ _)
    show (((candidate.reasons.insertionSort (· ≤ ·)).destutter (· ≠ ·)).insertionSort (· ≤ ·)).destutter (· ≠ ·) = _
    rw [hsorted.insertionSort_eq]
    exact List.destutter_idem _ _
  · exact sort_map_idem fun assumption => FrameworkAssumption.ext rfl rfl (sortDistinct_idem _)

theorem FrameworkCandidate.Acceptable.normalForm {candidate : FrameworkCandidate} (h : candidate.Acceptable) :
    candidate.normalForm.Acceptable := by
  refine ⟨fun hnil => h.reasons ?_, fun reason hreason => h.reasonCodes reason ?_, fun hnil => h.evidence ?_,
    fun item hitem => h.evidenceCodes item (mem_of_mem_sortDistinct _ hitem), fun assumption hassumption => ?_⟩
  · have hsort : candidate.reasons.insertionSort (· ≤ ·) = [] := (List.destutter_eq_nil _).1 hnil
    exact (perm_nil_iff (List.perm_insertionSort (· ≤ ·) candidate.reasons)).1 hsort
  · exact (List.mem_insertionSort _).1 ((List.destutter_sublist _ _).subset hreason)
  · exact (sortDistinct_eq_nil_iff evidenceKey).1 hnil
  · obtain ⟨source, hsource, rfl⟩ := List.mem_map.1 ((List.mem_insertionSort _).1 hassumption)
    obtain ⟨hcode, hcodes⟩ := h.assumptions source hsource
    exact ⟨hcode, fun item hitem => hcodes item (mem_of_mem_sortDistinct _ hitem)⟩

namespace FrameworkQueryResult

def evidenceLists (result : FrameworkQueryResult) : List (List FrameworkEvidence) :=
  result.candidates.flatMap (·.evidenceLists) ++ result.boundaries.map (·.evidence)

/-- One normal form whatever the order, with every evidence record in it, and left alone when normalized again. -/
structure Canonical (result : FrameworkQueryResult) : Prop where
  order : ∀ other, result.Reordered other → result.normalize.toOption = other.normalize.toOption
  kept : ∀ out, result.normalize = .ok out → ∀ evidence ∈ result.evidenceLists,
    ∀ normal, normalizeEvidence evidence = .ok normal → ∀ item ∈ evidence, item ∈ normal
  again : ∀ out, result.normalize = .ok out → out.normalize = .ok out

/-- Nothing the sort keys leave out tells two entries apart. -/
structure Distinguishable (result : FrameworkQueryResult) : Prop where
  candidates : ∀ candidate ∈ result.candidates, candidate.Distinguishable
  evidence : ∀ boundary ∈ result.boundaries, Apart boundary.evidence
  boundaries : ∀ a ∈ result.boundaries, ∀ b ∈ result.boundaries, a.code = b.code → a.message = b.message →
    ∀ item, item ∈ a.evidence ↔ item ∈ b.evidence

variable {result other : FrameworkQueryResult}

theorem Acceptable.normalForm (h : result.Acceptable) : result.normalForm.Acceptable := by
  refine ⟨fun candidate hcandidate => ?_, normalForm_ids_nodup.2 h.ids, fun boundary hboundary => ?_,
    normalForm_stateAllows.2 h.state⟩
  · obtain ⟨source, hsource, rfl⟩ := List.mem_map.1 ((List.mem_insertionSort _).1 hcandidate)
    exact (h.candidates source hsource).normalForm
  · obtain ⟨source, hsource, rfl⟩ := List.mem_map.1 ((List.mem_insertionSort _).1 hboundary)
    obtain ⟨hcode, hcodes⟩ := h.boundaries source hsource
    exact ⟨hcode, fun item hitem => hcodes item (mem_of_mem_sortDistinct _ hitem)⟩

theorem normalForm_idem (result : FrameworkQueryResult) : result.normalForm.normalForm = result.normalForm :=
  FrameworkQueryResult.ext rfl (sort_map_idem FrameworkCandidate.normalForm_idem)
    (sort_map_idem fun _ => FrameworkBoundary.ext rfl rfl (sortDistinct_idem _))

/-- A normal form is normalized to itself. -/
theorem normalize_again {out : FrameworkQueryResult} (h : result.normalize = .ok out) : out.normalize = .ok out := by
  obtain ⟨hacc, rfl⟩ := normalize_eq_ok_iff.1 h
  exact normalize_eq_ok_iff.2 ⟨hacc.normalForm, normalForm_idem result⟩

theorem normalize_toOption_of_acceptable (h : result.Acceptable) : result.normalize.toOption = some result.normalForm := by
  rw [normalize_eq_ok_iff.2 ⟨h, rfl⟩]
  rfl

theorem normalize_toOption_of_not (h : ¬ result.Acceptable) : result.normalize.toOption = none := by
  cases hnormal : result.normalize with
  | error e => rfl
  | ok out => exact absurd (normalize_eq_ok_iff.1 hnormal).1 h

/-- One normal form for the orders of a distinguishable result. -/
theorem Reordered.normalForm_eq (h : result.Reordered other) (hacc : result.Acceptable) (hdist : result.Distinguishable) :
    result.normalForm = other.normalForm := by
  have hcandidates : (result.candidates.map (·.normalForm)).Perm (other.candidates.map (·.normalForm)) :=
    h.candidates.map_perm fun a ha b hab => hab.normalForm_eq (hacc.candidates a ha) (hdist.candidates a ha)
  have hboundaries : (result.boundaries.map (·.normalForm)).Perm (other.boundaries.map (·.normalForm)) := by
    refine h.boundaries.map_perm fun a ha b hab => FrameworkBoundary.ext hab.code hab.message ?_
    exact normalEvidence_congr (hacc.boundaries a ha).2 (hdist.evidence a ha) fun item => hab.evidence.mem_iff
  refine FrameworkQueryResult.ext h.state (insertionSort_eq_of_perm (fun x hx y hy hxy hyx => ?_) hcandidates)
    (insertionSort_eq_of_perm (fun x hx y hy hxy hyx => ?_) hboundaries)
  · have hids : ((result.candidates.map (·.normalForm)).map (·.idText)).Nodup := by
      rw [List.map_map]
      exact hacc.ids
    exact List.inj_on_of_nodup_map hids hx hy (le_antisymm hxy hyx)
  · obtain ⟨a, ha, rfl⟩ := List.mem_map.1 hx
    obtain ⟨b, hb, rfl⟩ := List.mem_map.1 hy
    obtain ⟨hcode, hmessage⟩ := boundarySortKey_le_antisymm hxy hyx
    exact FrameworkBoundary.ext hcode hmessage
      (normalEvidence_congr (hacc.boundaries a ha).2 (hdist.evidence a ha) (hdist.boundaries a ha b hb hcode hmessage))

theorem mem_evidenceLists {evidence : List FrameworkEvidence} :
    evidence ∈ result.evidenceLists ↔
      (∃ candidate ∈ result.candidates, evidence ∈ candidate.evidenceLists) ∨
        ∃ boundary ∈ result.boundaries, evidence = boundary.evidence := by
  rw [evidenceLists, List.mem_append, List.mem_flatMap, List.mem_map]
  simp only [eq_comm]

theorem Acceptable.codes (h : result.Acceptable) {evidence : List FrameworkEvidence} (hmem : evidence ∈ result.evidenceLists) :
    ∀ item ∈ evidence, ValidCode item.code := by
  rcases mem_evidenceLists.1 hmem with ⟨candidate, hcandidate, hevidence⟩ | ⟨boundary, hboundary, rfl⟩
  · rcases List.mem_cons.1 hevidence with rfl | hevidence
    · exact (h.candidates candidate hcandidate).evidenceCodes
    · obtain ⟨assumption, hassumption, rfl⟩ := List.mem_map.1 hevidence
      exact ((h.candidates candidate hcandidate).assumptions assumption hassumption).2
  · exact (h.boundaries boundary hboundary).2

theorem Distinguishable.apart (h : result.Distinguishable) {evidence : List FrameworkEvidence}
    (hmem : evidence ∈ result.evidenceLists) : Apart evidence := by
  rcases mem_evidenceLists.1 hmem with ⟨candidate, hcandidate, hevidence⟩ | ⟨boundary, hboundary, rfl⟩
  · exact (h.candidates candidate hcandidate).evidence evidence hevidence
  · exact h.evidence boundary hboundary

/-- Records that are apart all stay. -/
theorem apart_of_kept (hacc : result.Acceptable) (h : result.Canonical) {evidence : List FrameworkEvidence}
    (hmem : evidence ∈ result.evidenceLists) : Apart evidence :=
  (apart_iff_kept (hacc.codes hmem)).2 fun item hitem => h.kept _ (normalize_eq_ok_iff.2 ⟨hacc, rfl⟩) evidence hmem _
    (normalizeEvidence_eq_ok_iff.2 ⟨hacc.codes hmem, rfl⟩) item hitem

/-- In a canonical result another order of a candidate has the candidate's normal form. -/
theorem Canonical.candidate_eq (h : result.Canonical) (hacc : result.Acceptable) {candidate other : FrameworkCandidate}
    (hcandidate : candidate ∈ result.candidates) (hother : candidate.Reordered other) :
    candidate.normalForm = other.normalForm := by
  let replace : FrameworkCandidate → FrameworkCandidate := fun c => if c = candidate then other else c
  let swapped : FrameworkQueryResult := { result with candidates := result.candidates.map replace }
  have hreplace : ∀ c ∈ result.candidates, c.Reordered (replace c) := by
    intro c _
    simp only [replace]
    split
    next heq => rw [heq]; exact hother
    next => exact FrameworkCandidate.Reordered.refl c
  have hswapped : result.Reordered swapped :=
    ⟨rfl, Reorders.of_map hreplace, Reorders.of_perm FrameworkBoundary.Reordered.refl (List.Perm.refl _)⟩
  have hacc' : swapped.Acceptable := hswapped.acceptable_iff.1 hacc
  have hsame := h.order swapped hswapped
  rw [normalize_toOption_of_acceptable hacc, normalize_toOption_of_acceptable hacc', Option.some.injEq] at hsame
  -- both stand in the one normal form, under one id
  have hmem : candidate.normalForm ∈ result.normalForm.candidates :=
    (candidates_perm result).mem_iff.2 (List.mem_map_of_mem hcandidate)
  have hmem' : other.normalForm ∈ result.normalForm.candidates := by
    rw [hsame]
    refine (candidates_perm swapped).mem_iff.2 (List.mem_map_of_mem ?_)
    exact List.mem_map.2 ⟨candidate, hcandidate, if_pos rfl⟩
  refine List.inj_on_of_nodup_map (normalForm_ids_nodup.2 hacc.ids) hmem hmem' ?_
  exact congrArg (fun symbol : SymbolRecord => symbol.id.asStr) hother.symbol

theorem Canonical.assumptions (h : result.Canonical) (hacc : result.Acceptable) {candidate : FrameworkCandidate}
    (hcandidate : candidate ∈ result.candidates) {a b : FrameworkAssumption} (ha : a ∈ candidate.assumptions)
    (hb : b ∈ candidate.assumptions) (hcode : a.code = b.code) (hvalue : a.value = b.value) :
    a.normalForm = b.normalForm := by
  have hkey : a.normalForm.sortKey = b.normalForm.sortKey := congrArg toLex (Prod.ext hcode hvalue)
  refine eq_of_sort_orderFree (r := fun left right : FrameworkAssumption => left.sortKey ≤ right.sortKey)
    (fun assumptions hperm => ?_) ha hb hkey.le hkey.ge
  have hother : candidate.Reordered { candidate with assumptions } :=
    ⟨rfl, rfl, List.Perm.refl _, List.Perm.refl _, Reorders.of_perm FrameworkAssumption.Reordered.refl hperm⟩
  exact congrArg FrameworkCandidate.assumptions (h.candidate_eq hacc hcandidate hother)

theorem Canonical.boundaries (h : result.Canonical) (hacc : result.Acceptable) {a b : FrameworkBoundary}
    (ha : a ∈ result.boundaries) (hb : b ∈ result.boundaries) (hcode : a.code = b.code) (hmessage : a.message = b.message) :
    a.normalForm = b.normalForm := by
  have hkey : a.normalForm.sortKey = b.normalForm.sortKey := congrArg toLex (Prod.ext hcode hmessage)
  refine eq_of_sort_orderFree (r := fun left right : FrameworkBoundary => left.sortKey ≤ right.sortKey)
    (fun boundaries hperm => ?_) ha hb hkey.le hkey.ge
  have hother : result.Reordered { result with boundaries } :=
    ⟨rfl, Reorders.of_perm FrameworkCandidate.Reordered.refl (List.Perm.refl _),
      Reorders.of_perm FrameworkBoundary.Reordered.refl hperm⟩
  have hsame := h.order _ hother
  rw [normalize_toOption_of_acceptable hacc, normalize_toOption_of_acceptable (hother.acceptable_iff.1 hacc),
    Option.some.injEq] at hsame
  exact congrArg FrameworkQueryResult.boundaries hsame

theorem Canonical.distinguishable (h : result.Canonical) (hacc : result.Acceptable) : result.Distinguishable := by
  have hcandidate : ∀ candidate ∈ result.candidates, ∀ evidence ∈ candidate.evidenceLists, Apart evidence :=
    fun candidate hmem evidence hevidence => apart_of_kept hacc h (mem_evidenceLists.2 (.inl ⟨candidate, hmem, hevidence⟩))
  have hboundary : ∀ boundary ∈ result.boundaries, Apart boundary.evidence := fun boundary hmem =>
    apart_of_kept hacc h (mem_evidenceLists.2 (.inr ⟨boundary, hmem, rfl⟩))
  refine ⟨fun candidate hmem => ⟨hcandidate candidate hmem, fun a ha b hb hcode hvalue => ?_⟩, hboundary,
    fun a ha b hb hcode hmessage => ?_⟩
  · have hassumptions := (hacc.candidates candidate hmem).assumptions
    have hapart : ∀ assumption ∈ candidate.assumptions, Apart assumption.evidence := fun assumption hassumption =>
      hcandidate candidate hmem _ (List.mem_cons_of_mem _ (List.mem_map_of_mem hassumption))
    exact (normalEvidence_eq_iff (hassumptions a ha).2 (hassumptions b hb).2 (hapart a ha) (hapart b hb)).1
      (congrArg FrameworkAssumption.evidence (h.assumptions hacc hmem ha hb hcode hvalue))
  · exact (normalEvidence_eq_iff (hacc.boundaries a ha).2 (hacc.boundaries b hb).2 (hboundary a ha) (hboundary b hb)).1
      (congrArg FrameworkBoundary.evidence (h.boundaries hacc ha hb hcode hmessage))

theorem canonical_of_distinguishable (h : result.Acceptable → result.Distinguishable) : result.Canonical := by
  refine ⟨fun other hother => ?_, fun out hout evidence hevidence normal hnormal => ?_, fun out => normalize_again⟩
  · by_cases hacc : result.Acceptable
    · rw [normalize_toOption_of_acceptable hacc, normalize_toOption_of_acceptable (hother.acceptable_iff.1 hacc),
        hother.normalForm_eq hacc (h hacc)]
    · rw [normalize_toOption_of_not hacc, normalize_toOption_of_not fun hacc' => hacc (hother.acceptable_iff.2 hacc')]
  · have hacc := (normalize_eq_ok_iff.1 hout).1
    obtain ⟨hcodes, rfl⟩ := normalizeEvidence_eq_ok_iff.1 hnormal
    exact (apart_iff_kept hcodes).1 ((h hacc).apart hevidence)

/-- **Framework results.** The accepted results with one normal form are those whose entries are told apart by what they are
sorted by. -/
theorem normalize_canonical_iff (result : FrameworkQueryResult) :
    result.Canonical ↔ (result.Acceptable → result.Distinguishable) :=
  ⟨fun h hacc => h.distinguishable hacc, canonical_of_distinguishable⟩

end FrameworkQueryResult

/-! ## A worker upgraded between two facts -/

def upgradedEvidence (protocolVersion : Nat) : FrameworkEvidence :=
  ⟨"spring.beans.declaration", .symbol ⟨"bean:a"⟩, ⟨"jvm", "1.0.0", protocolVersion, ⟨"sha256:options"⟩⟩⟩

def upgradedCandidate : FrameworkCandidate where
  symbol := {
    id := ⟨"bean:a"⟩, backendKey := ⟨"jvm", 1, "bean:a"⟩, language := .kotlin, kind := .class_, name := "a",
    qualifiedName := none, signature := none, component := ⟨"app"⟩, declaration := ⟨⟨"app:a"⟩, ⟨0, 9⟩⟩,
    nameRange := ⟨⟨"app:a"⟩, ⟨6, 7⟩⟩, owner := none, modifiers := [], appliedSymbols := [], freshness := .fresh,
    completeness := .complete, provenance := ⟨"jvm", "1.0.0", 2, ⟨"sha256:options"⟩⟩ }
  disposition := .selected
  reasons := ["spring.beans.type-compatible"]
  evidence := [upgradedEvidence 1, upgradedEvidence 2]
  assumptions := []

theorem upgradedEvidence_merged : ¬ (FrameworkQueryResult.mk .complete [upgradedCandidate] []).Canonical := by
  intro h
  have hacc : (FrameworkQueryResult.mk .complete [upgradedCandidate] []).Acceptable := by
    refine ⟨?_, List.nodup_singleton _, fun _ hmem => (by cases hmem), rfl, ?_⟩
    · intro candidate hmem
      rw [List.mem_singleton.1 hmem]
      refine ⟨by decide, by decide +kernel, by decide, by decide +kernel, fun _ hmem => by cases hmem⟩
    · intro candidate hmem
      rw [List.mem_singleton.1 hmem]
      decide
  have hapart : Apart [upgradedEvidence 1, upgradedEvidence 2] :=
    FrameworkQueryResult.apart_of_kept hacc h (FrameworkQueryResult.mem_evidenceLists.2
      (.inl ⟨upgradedCandidate, List.mem_singleton_self _, List.mem_cons_self⟩))
  have hsame : upgradedEvidence 1 = upgradedEvidence 2 :=
    hapart _ List.mem_cons_self _ (List.mem_cons_of_mem _ List.mem_cons_self) ⟨rfl, rfl, rfl⟩
  exact absurd (congrArg (·.provenance.protocolVersion) hsame) (by decide)

end Kide
