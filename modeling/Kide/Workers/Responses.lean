import Kide.Lib.Wire
import Kide.Proto.RoundTrip
import Kide.Workers.Semantic
import Mathlib.Algebra.Order.BigOperators.Group.List

/-!
# Capability responses

What `validate_semantic_capability_response` (`semantic_capability.rs`) lets through, for a worker that may send
anything. The size it compares is that of the message the response is turned into (`worker_proto_adapter.rs`,
`worker.proto`), of which only the size of an embedded snapshot is the parameter `snapshotLen`.

`capability_response_checked`: the checks look at the lists of a response as sets with their sizes, so their order plays
no part; sorting, taking out duplicates and reporting an incomplete answer as partial never make a message longer, so
what is let through is let through again as it is.
-/

namespace Kide
open Checks

/-! ## The message -/

namespace WorkerProto

structure SemanticQueryResponse where
  capabilityName : String
  capabilityVersion : Nat
  state : String
  candidateSymbolIds : List String
  snapshots : List FileAnalysisSnapshot
  provenance : Option Provenance
  visitedNodes : Nat
  producedBytes : Nat
deriving DecidableEq, Repr

/-! ### Its size

The keys of the fields take a byte each; a field with its default value is left out, an element of a list never. -/

def delimitedLen (length : Nat) : Nat := 1 + (Wire.varint length).length + length

def stringLen (value : String) : Nat := if value = "" then 0 else delimitedLen value.utf8ByteSize

def numberLen (value : Nat) : Nat := if value = 0 then 0 else 1 + (Wire.varint value).length

def Provenance.encodedLen (value : Provenance) : Nat :=
  stringLen value.backend + stringLen value.backendVersion + numberLen value.protocolVersion
    + stringLen value.analysisOptionsFingerprint

def SemanticQueryResponse.encodedLen (snapshotLen : FileAnalysisSnapshot → Nat) (value : SemanticQueryResponse) : Nat :=
  stringLen value.capabilityName + numberLen value.capabilityVersion + stringLen value.state
    + (value.candidateSymbolIds.map fun id => delimitedLen id.utf8ByteSize).sum
    + (value.snapshots.map fun snapshot => delimitedLen (snapshotLen snapshot)).sum
    + (value.provenance.map fun provenance => delimitedLen provenance.encodedLen).getD 0
    + numberLen value.visitedNodes + numberLen value.producedBytes

end WorkerProto

namespace WorkerAdapter

def semanticQueryResponseState : SemanticQueryResponseState → String
  | .complete => "complete"
  | .partially => "partial"
  | .unsupported => "unsupported"

def semanticQueryResponse (value : SemanticQueryResponse) : Except AdapterError WorkerProto.SemanticQueryResponse := do
  let snapshots ← value.snapshots.mapM fileAnalysisSnapshot
  pure
    { capabilityName := value.capabilityName
      capabilityVersion := value.capabilityVersion
      state := semanticQueryResponseState value.state
      candidateSymbolIds := value.candidateSymbols.map (·.asStr)
      snapshots
      provenance := some (protoProvenance value.provenance)
      visitedNodes := value.visitedNodes
      producedBytes := value.producedBytes }

end WorkerAdapter

/-- `worker_proto_adapter::semantic_query_response(&response)?.encoded_len()` -/
def encodedResponseLen (snapshotLen : WorkerProto.FileAnalysisSnapshot → Nat) (response : SemanticQueryResponse) :
    Except AdapterError Nat := do
  let message ← WorkerAdapter.semanticQueryResponse response
  pure (message.encodedLen snapshotLen)

/-! ## What a response must satisfy -/

section
variable (snapshotLen : WorkerProto.FileAnalysisSnapshot → Nat) (plan : SemanticCapabilityPlan) (elapsedMillis : Nat)

/-- What does not depend on the order of the lists. -/
structure AdmissibleResponse (response : SemanticQueryResponse) : Prop where
  identity : response.capabilityName = plan.request.capabilityName ∧
    response.capabilityVersion = plan.request.capabilityVersion
  provenance : response.provenance.isFrom plan.worker = true
  deadline : elapsedMillis ≤ plan.request.budget.deadlineMillis
  nodes : response.visitedNodes ≤ plan.request.budget.maxNodes
  reportedBytes : response.producedBytes ≤ plan.request.budget.maxBytes
  candidates : response.candidateSymbols.length ≤ plan.request.budget.maxCandidates
  snapshots : response.snapshots.length ≤ plan.request.budget.maxNodes
  encodedBytes : ∃ length, encodedResponseLen snapshotLen response = .ok length ∧ length ≤ plan.request.budget.maxBytes
  noSnapshots : plan.capability.result = .candidateSymbols → response.snapshots = []
  noSymbols : plan.capability.result = .normalizedFacts → response.candidateSymbols = []
  unsupported : response.state = .unsupported → response.candidateSymbols = [] ∧ response.snapshots = []
  allowed : ∀ snapshot ∈ response.snapshots, snapshot.sourceUnit.id ∈ plan.request.candidateSourceUnits
  snapshotProvenance : ∀ snapshot ∈ response.snapshots, snapshot.provenance.isFrom plan.worker = true
  sources : (response.snapshots.map (·.sourceUnit.id)).Nodup

/-- So is a response that went through: admissible, strictly ordered, and complete only if its snapshots are. -/
structure CheckedResponse (response : SemanticQueryResponse) : Prop where
  admissible : AdmissibleResponse snapshotLen plan elapsedMillis response
  symbolOrder : response.candidateSymbols.Pairwise fun a b => a.asStr < b.asStr
  snapshotOrder : response.snapshots.Pairwise fun a b => a.sourceUnit.id.asStr < b.sourceUnit.id.asStr
  complete : response.state = .complete → ∀ snapshot ∈ response.snapshots, snapshot.completeness = .complete

end

/-- The response as it is returned. -/
def SemanticQueryResponse.normalized (response : SemanticQueryResponse) : SemanticQueryResponse :=
  { response with
    state :=
      if response.state = .complete ∧ ∃ snapshot ∈ response.snapshots, snapshot.completeness ≠ .complete then .partially
      else response.state
    candidateSymbols := (response.candidateSymbols.insertionSort SymbolId.le).dedup
    snapshots := response.snapshots.insertionSort fun a b => a.sourceUnit.id.le b.sourceUnit.id }

section
variable {snapshotLen : WorkerProto.FileAnalysisSnapshot → Nat} {plan : SemanticCapabilityPlan} {elapsedMillis : Nat}
  {response : SemanticQueryResponse}

/-- **Validation.** Exactly the admissible responses go through, and they come out normalized. -/
theorem validate_ok_iff {result : SemanticQueryResponse} :
    validateSemanticCapabilityResponse (encodedResponseLen snapshotLen) plan response elapsedMillis = .ok result ↔
      AdmissibleResponse snapshotLen plan elapsedMillis response ∧ response.normalized = result := by
  unfold validateSemanticCapabilityResponse
  simp only [bind_eq_ok_iff, reject_eq_ok_iff, mapError_eq_ok_iff, exists_const]
  constructor
  · rintro ⟨hidentity, hprovenance, hdeadline, hnodes, hreported, hcandidates, hsnapshots, length, hlength, hencoded, hkind,
      hkind', hunsupported, hallowed, hfrom, hnodup, hresult⟩
    refine ⟨⟨?_, by simpa using hprovenance, by omega, by omega, by omega, by omega, by omega, ⟨length, hlength, by omega⟩,
      ?_, ?_, ?_, ?_, ?_, not_not.1 hnodup⟩, Except.ok.inj hresult⟩
    · exact ⟨not_not.1 fun h => hidentity (.inl h), not_not.1 fun h => hidentity (.inr h)⟩
    · exact fun hresult => not_not.1 fun h => hkind ⟨hresult, h⟩
    · exact fun hresult => not_not.1 fun h => hkind' ⟨hresult, h⟩
    · exact fun hstate => ⟨not_not.1 fun h => hunsupported ⟨hstate, .inl h⟩, not_not.1 fun h => hunsupported ⟨hstate, .inr h⟩⟩
    · exact fun snapshot hs => not_not.1 fun h => hallowed ⟨snapshot, hs, h⟩
    · exact fun snapshot hs => by simpa using fun h => hfrom ⟨snapshot, hs, h⟩
  · rintro ⟨h, hresult⟩
    obtain ⟨length, hlength, hencoded⟩ := h.encodedBytes
    refine ⟨?_, by simp [h.provenance], by have := h.deadline; omega, by have := h.nodes; omega,
      by have := h.reportedBytes; omega, by have := h.candidates; omega, by have := h.snapshots; omega, length, hlength,
      by omega, fun hkind => hkind.2 (h.noSnapshots hkind.1), fun hkind => hkind.2 (h.noSymbols hkind.1), ?_, ?_, ?_,
      not_not.2 h.sources, congrArg Except.ok hresult⟩
    · rintro (hname | hversion)
      · exact hname h.identity.1
      · exact hversion h.identity.2
    · rintro ⟨hstate, hsymbols | hsnapshots⟩
      · exact hsymbols (h.unsupported hstate).1
      · exact hsnapshots (h.unsupported hstate).2
    · rintro ⟨snapshot, hs, hnot⟩
      exact hnot (h.allowed snapshot hs)
    · rintro ⟨snapshot, hs, hnot⟩
      simp [h.snapshotProvenance snapshot hs] at hnot

/-! ## The size of the message -/

/-- The edges of the snapshot start at its own occurrences. -/
def HasMessage (snapshot : FileAnalysisSnapshot) : Prop :=
  (∀ edge ∈ snapshot.references, edge.source ∈ snapshot.occurrences) ∧
    ∀ edge ∈ snapshot.calls, edge.source ∈ snapshot.occurrences

instance : DecidablePred HasMessage := fun _ => inferInstanceAs (Decidable (_ ∧ _))

theorem occurrenceIndex_error {occurrences : List SourceOccurrence} {value : SourceOccurrence} {reason : AdapterError}
    (h : WorkerAdapter.occurrenceIndex occurrences value = .error reason) :
    reason = .missing "relation.source_occurrence" := by
  unfold WorkerAdapter.occurrenceIndex at h
  split at h
  · cases h
  · exact (Except.error.inj h).symm

/-- There is one reason for a snapshot to have no message. -/
theorem fileAnalysisSnapshot_error {snapshot : FileAnalysisSnapshot} {reason : AdapterError}
    (h : WorkerAdapter.fileAnalysisSnapshot snapshot = .error reason) : reason = .missing "relation.source_occurrence" := by
  have hindexed : ∀ {α β : Type} (edges : List α) (source : α → SourceOccurrence) (encode : α → Nat → β),
      (edges.mapM fun edge => do
        let index ← WorkerAdapter.occurrenceIndex snapshot.occurrences (source edge)
        pure (encode edge index)) = .error reason → reason = .missing "relation.source_occurrence" := by
    intro α β edges source encode herror
    obtain ⟨edge, -, hedge⟩ := exists_of_mapM_eq_error herror
    rcases bind_eq_error_iff.1 hedge with hindex | ⟨_, -, hpure⟩
    · exact occurrenceIndex_error hindex
    · cases hpure
  unfold WorkerAdapter.fileAnalysisSnapshot at h
  dsimp only at h
  rcases bind_eq_error_iff.1 h with hreferences | ⟨_, -, h⟩
  · exact hindexed _ _ _ hreferences
  · rcases bind_eq_error_iff.1 h with hcalls | ⟨_, -, h⟩
    · exact hindexed _ _ _ hcalls
    · cases h

/-- The message of a response whose snapshots have one. -/
def responseMessage (response : SemanticQueryResponse) : WorkerProto.SemanticQueryResponse where
  capabilityName := response.capabilityName
  capabilityVersion := response.capabilityVersion
  state := WorkerAdapter.semanticQueryResponseState response.state
  candidateSymbolIds := response.candidateSymbols.map (·.asStr)
  snapshots := response.snapshots.map WorkerAdapter.encodedSnapshot
  provenance := some (WorkerAdapter.protoProvenance response.provenance)
  visitedNodes := response.visitedNodes
  producedBytes := response.producedBytes

theorem encodedResponseLen_eq (snapshotLen : WorkerProto.FileAnalysisSnapshot → Nat) (response : SemanticQueryResponse) :
    encodedResponseLen snapshotLen response =
      if ∀ snapshot ∈ response.snapshots, HasMessage snapshot then .ok ((responseMessage response).encodedLen snapshotLen)
      else .error (.missing "relation.source_occurrence") := by
  have hmessages : ∀ {messages}, response.snapshots.mapM WorkerAdapter.fileAnalysisSnapshot = .ok messages ↔
      (∀ snapshot ∈ response.snapshots, HasMessage snapshot) ∧
        response.snapshots.map WorkerAdapter.encodedSnapshot = messages :=
    mapM_eq_ok_checked_iff fun snapshot message => by
      rw [WorkerAdapter.fileAnalysisSnapshot_ok_iff, HasMessage, and_assoc]
  unfold encodedResponseLen WorkerAdapter.semanticQueryResponse
  split
  · next hall =>
    rw [hmessages.2 ⟨hall, rfl⟩]
    rfl
  · next hnot =>
    cases hmapped : response.snapshots.mapM WorkerAdapter.fileAnalysisSnapshot with
    | ok messages => exact absurd (hmessages.1 hmapped).1 hnot
    | error reason =>
      obtain ⟨snapshot, -, herror⟩ := exists_of_mapM_eq_error hmapped
      rw [fileAnalysisSnapshot_error herror]
      rfl

/-! ## Order -/

theorem SourceUnitId.eq_of_le {a b : SourceUnitId} (hab : a.le b) (hba : b.le a) : a = b := by
  obtain ⟨a⟩ := a
  obtain ⟨b⟩ := b
  exact congrArg SourceUnitId.mk (String.le_antisymm hab hba)

theorem string_lt_of_le {a b : String} (hle : a ≤ b) (hne : a ≠ b) : a < b :=
  String.not_le.1 fun hba => hne (String.le_antisymm hle hba)

theorem string_le_of_lt {a b : String} (h : a < b) : a ≤ b :=
  String.not_lt.1 (String.lt_asymm h)

theorem pairwise_sortedSnapshots (snapshots : List FileAnalysisSnapshot) :
    (snapshots.insertionSort fun a b => a.sourceUnit.id.le b.sourceUnit.id).Pairwise
      fun a b => a.sourceUnit.id.le b.sourceUnit.id := by
  have htotal : Std.Total fun a b : FileAnalysisSnapshot => a.sourceUnit.id.le b.sourceUnit.id :=
    ⟨fun a b => String.le_total _ _⟩
  have htrans : IsTrans FileAnalysisSnapshot fun a b => a.sourceUnit.id.le b.sourceUnit.id :=
    ⟨fun a b c => String.le_trans⟩
  exact List.pairwise_insertionSort _ snapshots

theorem sortedSnapshots_perm {snapshots others : List FileAnalysisSnapshot} (h : others.Perm snapshots)
    (hnodup : (snapshots.map (·.sourceUnit.id)).Nodup) :
    (others.insertionSort fun a b => a.sourceUnit.id.le b.sourceUnit.id) =
      snapshots.insertionSort fun a b => a.sourceUnit.id.le b.sourceUnit.id := by
  refine List.Perm.eq_of_pairwise (fun a b ha hb hab hba => ?_) (pairwise_sortedSnapshots _) (pairwise_sortedSnapshots _) ?_
  · exact List.inj_on_of_nodup_map hnodup (h.subset ((List.mem_insertionSort _).1 ha)) ((List.mem_insertionSort _).1 hb)
      (SourceUnitId.eq_of_le hab hba)
  · exact (List.perm_insertionSort _ _).trans (h.trans (List.perm_insertionSort _ _).symm)

theorem encodedResponseLen_perm {symbols : List SymbolId} {snapshots : List FileAnalysisSnapshot}
    (hsymbols : symbols.Perm response.candidateSymbols) (hsnapshots : snapshots.Perm response.snapshots) :
    encodedResponseLen snapshotLen { response with candidateSymbols := symbols, snapshots := snapshots } =
      encodedResponseLen snapshotLen response := by
  have hsymbolSum := ((hsymbols.map (·.asStr)).map fun id => WorkerProto.delimitedLen id.utf8ByteSize).sum_nat
  have hsnapshotSum := ((hsnapshots.map WorkerAdapter.encodedSnapshot).map fun snapshot =>
    WorkerProto.delimitedLen (snapshotLen snapshot)).sum_nat
  have hlength : (responseMessage { response with candidateSymbols := symbols, snapshots := snapshots }).encodedLen snapshotLen =
      (responseMessage response).encodedLen snapshotLen := by
    unfold responseMessage WorkerProto.SemanticQueryResponse.encodedLen
    dsimp only
    rw [hsymbolSum, hsnapshotSum]
  rw [encodedResponseLen_eq, encodedResponseLen_eq, hlength]
  simp only [hsnapshots.mem_iff]

/-- **Order.** Validation does not see the order of the lists. -/
theorem validate_perm {symbols : List SymbolId} {snapshots : List FileAnalysisSnapshot}
    (hsymbols : symbols.Perm response.candidateSymbols) (hsnapshots : snapshots.Perm response.snapshots) :
    validateSemanticCapabilityResponse (encodedResponseLen snapshotLen) plan
        { response with candidateSymbols := symbols, snapshots := snapshots } elapsedMillis =
      validateSemanticCapabilityResponse (encodedResponseLen snapshotLen) plan response elapsedMillis := by
  have hnoSymbols : symbols = [] ↔ response.candidateSymbols = [] :=
    ⟨fun h => (h ▸ hsymbols).nil_eq.symm, fun h => (h ▸ hsymbols).eq_nil⟩
  have hnoSnapshots : snapshots = [] ↔ response.snapshots = [] :=
    ⟨fun h => (h ▸ hsnapshots).nil_eq.symm, fun h => (h ▸ hsnapshots).eq_nil⟩
  have hnodup := (hsnapshots.map (·.sourceUnit.id)).nodup_iff
  unfold validateSemanticCapabilityResponse
  dsimp only
  rw [encodedResponseLen_perm hsymbols hsnapshots]
  by_cases hsources : (response.snapshots.map (·.sourceUnit.id)).Nodup
  · simp only [hsymbols.length_eq, hsnapshots.length_eq, ne_eq, hnoSymbols, hnoSnapshots, hsnapshots.mem_iff, hnodup,
      sortedSymbols_perm hsymbols, sortedSnapshots_perm hsnapshots hsources]
  · have hreject : ∀ next : Except SemanticCapabilityError SemanticQueryResponse,
        (reject (¬ (response.snapshots.map (·.sourceUnit.id)).Nodup)
          (SemanticCapabilityError.invalidResponse "response contains duplicate source snapshots") >>= fun _ => next) =
            .error (.invalidResponse "response contains duplicate source snapshots") := by
      intro next
      rw [reject, if_pos hsources]
      rfl
    simp only [hsymbols.length_eq, hsnapshots.length_eq, ne_eq, hnoSymbols, hnoSnapshots, hsnapshots.mem_iff, hnodup, hreject]

/-! ## The normal form -/

theorem mem_normalized_snapshots {snapshot : FileAnalysisSnapshot} :
    snapshot ∈ response.normalized.snapshots ↔ snapshot ∈ response.snapshots :=
  List.mem_insertionSort _

theorem normalized_snapshots_perm (response : SemanticQueryResponse) : response.normalized.snapshots.Perm response.snapshots := List.perm_insertionSort _ _

theorem normalized_state_cases (response : SemanticQueryResponse) : response.normalized.state = response.state ∨
    (response.state = .complete ∧ response.normalized.state = .partially) := by
  unfold SemanticQueryResponse.normalized
  dsimp only
  split
  · next h => exact .inr ⟨h.1, rfl⟩
  · exact .inl rfl

theorem normalized_complete (h : response.normalized.state = .complete) :
    ∀ snapshot ∈ response.snapshots, snapshot.completeness = .complete := by
  unfold SemanticQueryResponse.normalized at h
  dsimp only at h
  split at h
  · cases h
  · next hnot => exact fun snapshot hs => not_not.1 fun hincomplete => hnot ⟨h, snapshot, hs, hincomplete⟩

theorem normalized_symbols_lt : response.normalized.candidateSymbols.Pairwise fun a b => a.asStr < b.asStr := by
  have hle := (pairwise_sortedSymbols response.candidateSymbols).sublist (List.dedup_sublist _)
  refine (hle.and (List.nodup_dedup _)).imp fun {a b} h => ?_
  exact string_lt_of_le h.1 fun heq => h.2 (congrArg SymbolId.mk heq)

theorem normalized_snapshots_lt (hnodup : (response.snapshots.map (·.sourceUnit.id)).Nodup) :
    response.normalized.snapshots.Pairwise fun a b => a.sourceUnit.id.asStr < b.sourceUnit.id.asStr := by
  have hne := List.pairwise_map.1 (((normalized_snapshots_perm response).map (·.sourceUnit.id)).nodup_iff.2 hnodup)
  refine ((pairwise_sortedSnapshots response.snapshots).and hne).imp fun {a b} h => ?_
  exact string_lt_of_le h.1 fun heq => h.2 (congrArg SourceUnitId.mk heq)

/-- Normalizing takes symbols out and shortens the state. -/
theorem encodedLen_normalized_le : (responseMessage response.normalized).encodedLen snapshotLen ≤
    (responseMessage response).encodedLen snapshotLen := by
  have hstate : WorkerProto.stringLen (WorkerAdapter.semanticQueryResponseState response.normalized.state) ≤
      WorkerProto.stringLen (WorkerAdapter.semanticQueryResponseState response.state) := by
    rcases normalized_state_cases response with hsame | ⟨hcomplete, hflag⟩
    · rw [hsame]
    · rw [hcomplete, hflag]
      have hshort : WorkerProto.stringLen "partial" = 1 + 1 + 7 := by
        rw [WorkerProto.stringLen, if_neg (by decide), WorkerProto.delimitedLen, Wire.varint_of_lt (by decide)]
        rfl
      have hlong : WorkerProto.stringLen "complete" = 1 + 1 + 8 := by
        rw [WorkerProto.stringLen, if_neg (by decide), WorkerProto.delimitedLen, Wire.varint_of_lt (by decide)]
        rfl
      exact hshort.le.trans (by rw [WorkerAdapter.semanticQueryResponseState, hlong]; omega)
  have hsymbols : (response.normalized.candidateSymbols.map fun id => WorkerProto.delimitedLen id.asStr.utf8ByteSize).sum ≤
      (response.candidateSymbols.map fun id => WorkerProto.delimitedLen id.asStr.utf8ByteSize).sum := by
    have hsub : response.normalized.candidateSymbols.Sublist (response.candidateSymbols.insertionSort SymbolId.le) :=
      List.dedup_sublist _
    have hperm := ((List.perm_insertionSort SymbolId.le response.candidateSymbols).map fun id =>
      WorkerProto.delimitedLen id.asStr.utf8ByteSize).sum_nat
    exact ((hsub.map _).sum_le_sum fun _ _ => Nat.zero_le _).trans hperm.le
  have hsnapshots := ((normalized_snapshots_perm response).map fun snapshot =>
    WorkerProto.delimitedLen (snapshotLen (WorkerAdapter.encodedSnapshot snapshot))).sum_nat
  unfold WorkerProto.SemanticQueryResponse.encodedLen responseMessage
  simp only [List.map_map, Function.comp_def] at hsnapshots ⊢
  have hrest : response.normalized.capabilityName = response.capabilityName ∧
      response.normalized.capabilityVersion = response.capabilityVersion ∧
      response.normalized.provenance = response.provenance ∧ response.normalized.visitedNodes = response.visitedNodes ∧
      response.normalized.producedBytes = response.producedBytes := ⟨rfl, rfl, rfl, rfl, rfl⟩
  rw [hrest.1, hrest.2.1, hrest.2.2.1, hrest.2.2.2.1, hrest.2.2.2.2]
  omega

theorem AdmissibleResponse.normalized (h : AdmissibleResponse snapshotLen plan elapsedMillis response) :
    AdmissibleResponse snapshotLen plan elapsedMillis response.normalized where
  identity := h.identity
  provenance := h.provenance
  deadline := h.deadline
  nodes := h.nodes
  reportedBytes := h.reportedBytes
  candidates := by
    have hsub := (List.dedup_sublist (response.candidateSymbols.insertionSort SymbolId.le)).length_le
    rw [List.length_insertionSort] at hsub
    exact hsub.trans h.candidates
  snapshots := (normalized_snapshots_perm response).length_eq.le.trans h.snapshots
  encodedBytes := by
    obtain ⟨length, hlength, hle⟩ := h.encodedBytes
    rw [encodedResponseLen_eq] at hlength
    split at hlength
    · next hall =>
      have hnormalized : ∀ snapshot ∈ response.normalized.snapshots, HasMessage snapshot :=
        fun snapshot hs => hall snapshot (mem_normalized_snapshots.1 hs)
      refine ⟨_, by rw [encodedResponseLen_eq, if_pos hnormalized], ?_⟩
      exact encodedLen_normalized_le.trans ((Except.ok.inj hlength).le.trans hle)
    · cases hlength
  noSnapshots := fun hkind => by
    have hempty := h.noSnapshots hkind
    exact (hempty ▸ normalized_snapshots_perm response).eq_nil
  noSymbols := fun hkind => by
    have hempty := h.noSymbols hkind
    unfold SemanticQueryResponse.normalized
    rw [hempty]
    rfl
  unsupported := fun hstate => by
    have hunsupported : response.state = .unsupported := by
      rcases normalized_state_cases response with hsame | ⟨-, hflag⟩
      · exact hsame.symm.trans hstate
      · rw [hflag] at hstate
        cases hstate
    obtain ⟨hsymbols, hsnapshots⟩ := h.unsupported hunsupported
    unfold SemanticQueryResponse.normalized
    rw [hsymbols, hsnapshots]
    exact ⟨rfl, rfl⟩
  allowed := fun snapshot hs => h.allowed snapshot (mem_normalized_snapshots.1 hs)
  snapshotProvenance := fun snapshot hs => h.snapshotProvenance snapshot (mem_normalized_snapshots.1 hs)
  sources := ((normalized_snapshots_perm response).map (·.sourceUnit.id)).nodup_iff.2 h.sources

theorem AdmissibleResponse.checked (h : AdmissibleResponse snapshotLen plan elapsedMillis response) :
    CheckedResponse snapshotLen plan elapsedMillis response.normalized where
  admissible := h.normalized
  symbolOrder := normalized_symbols_lt
  snapshotOrder := normalized_snapshots_lt h.sources
  complete := fun hstate snapshot hs => normalized_complete hstate snapshot (mem_normalized_snapshots.1 hs)

theorem CheckedResponse.normalized_eq (h : CheckedResponse snapshotLen plan elapsedMillis response) :
    response.normalized = response := by
  have hstate : response.normalized.state = response.state := by
    rcases normalized_state_cases response with hsame | ⟨hcomplete, hflag⟩
    · exact hsame
    · unfold SemanticQueryResponse.normalized at hflag
      dsimp only at hflag
      split at hflag
      · next hincomplete =>
        obtain ⟨-, snapshot, hs, hnot⟩ := hincomplete
        exact absurd (h.complete hcomplete snapshot hs) hnot
      · rw [hcomplete] at hflag
        cases hflag
  have hsymbols : response.normalized.candidateSymbols = response.candidateSymbols := by
    have hsorted : response.candidateSymbols.insertionSort SymbolId.le = response.candidateSymbols :=
      (h.symbolOrder.imp fun {a b} hlt => string_le_of_lt hlt).insertionSort_eq
    show (response.candidateSymbols.insertionSort SymbolId.le).dedup = _
    rw [hsorted]
    have hnodup : response.candidateSymbols.Nodup :=
      h.symbolOrder.imp fun {a b} hlt (heq : a = b) => String.lt_irrefl _ (heq ▸ hlt)
    exact hnodup.dedup
  have hsnapshots : response.normalized.snapshots = response.snapshots :=
    (h.snapshotOrder.imp fun {a b} hlt => string_le_of_lt hlt).insertionSort_eq
  obtain ⟨name, version, state, symbols, snapshots, provenance, visited, produced⟩ := response
  unfold SemanticQueryResponse.normalized at hstate hsymbols hsnapshots ⊢
  dsimp only at hstate hsymbols hsnapshots ⊢
  rw [hstate, hsymbols, hsnapshots]

/-- **Capability responses.** What goes through satisfies every condition, the order of the lists makes no difference,
and a response that went through goes through again as it is. -/
theorem capability_response_checked (snapshotLen : WorkerProto.FileAnalysisSnapshot → Nat) (plan : SemanticCapabilityPlan)
    (elapsedMillis : Nat) (response : SemanticQueryResponse) :
    (∀ result, validateSemanticCapabilityResponse (encodedResponseLen snapshotLen) plan response elapsedMillis = .ok result →
      CheckedResponse snapshotLen plan elapsedMillis result ∧
        validateSemanticCapabilityResponse (encodedResponseLen snapshotLen) plan result elapsedMillis = .ok result) ∧
    ∀ symbols snapshots, symbols.Perm response.candidateSymbols → snapshots.Perm response.snapshots →
      validateSemanticCapabilityResponse (encodedResponseLen snapshotLen) plan
          { response with candidateSymbols := symbols, snapshots := snapshots } elapsedMillis =
        validateSemanticCapabilityResponse (encodedResponseLen snapshotLen) plan response elapsedMillis := by
  refine ⟨fun result hresult => ?_, fun symbols snapshots => validate_perm⟩
  obtain ⟨hadmissible, rfl⟩ := validate_ok_iff.1 hresult
  have hchecked := hadmissible.checked
  exact ⟨hchecked, validate_ok_iff.2 ⟨hchecked.admissible, hchecked.normalized_eq⟩⟩

end

end Kide
