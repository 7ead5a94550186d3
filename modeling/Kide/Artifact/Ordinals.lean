import Kide.Artifact.Details

/-!
# Ordinals without a declaration

`decode_graph_artifact` replaces an ordinal by the id of the declaration at its position. An ordinal past
the last one is replaced by the inline id, which is empty where the writer used an ordinal, and is no error:
which artifacts are read does not depend on the ordinals (`decodeSnapshot_ok_iff`).
-/

namespace Kide

open Checks ArtifactProto

namespace ArtifactAdapter

/-! ## What is read -/

/-- A provenance index of a record's own names a provenance. -/
def OwnIndex (provenances : Nat) (index : Option Nat) : Prop := ∀ own, index = some own → own < provenances

def ReadableSymbol (symbol : ArtifactSymbol) : Prop :=
  (∃ range, symbol.declaration = some range) ∧ (∃ range, symbol.nameRange = some range) ∧
    (∃ kind, WorkerAdapter.symbolKind symbol.kind = .ok kind) ∧
    (∃ state, WorkerAdapter.freshness symbol.freshness = .ok state) ∧
    ∃ state, WorkerAdapter.completeness symbol.completeness = .ok state

def ReadableOccurrence (occurrence : ArtifactOccurrence) : Prop :=
  (∃ location range, occurrence.location = some location ∧ location.range = some range ∧ location.sourceUnitIndex = 0) ∧
    (∃ kind, WorkerAdapter.occurrenceKind occurrence.kind = .ok kind) ∧
    (∃ precision, WorkerAdapter.precision occurrence.precision = .ok precision) ∧
    (∃ state, WorkerAdapter.freshness occurrence.freshness = .ok state) ∧
    ∃ state, WorkerAdapter.completeness occurrence.completeness = .ok state

def ReadableHierarchy (edge : ArtifactHierarchy) : Prop := ∃ precision, WorkerAdapter.precision edge.precision = .ok precision

def ReadableType (record : ArtifactType) : Prop :=
  (∃ state, WorkerAdapter.freshness record.freshness = .ok state) ∧
    ∃ state, WorkerAdapter.completeness record.completeness = .ok state

def ReadableDiagnostic (diagnostic : ArtifactDiagnostic) : Prop :=
  diagnostic.sourceUnitIndex = 0 ∧ (∃ severity, WorkerAdapter.severity diagnostic.severity = .ok severity) ∧
    (∃ state, WorkerAdapter.freshness diagnostic.freshness = .ok state) ∧
    ∃ state, WorkerAdapter.completeness diagnostic.completeness = .ok state

/-- A reference or a call: its occurrence is one of `occurrences`. -/
def ReadableEdge (occurrences sourceOccurrenceIndex : Nat) (precision : String) : Prop :=
  sourceOccurrenceIndex < occurrences ∧ ∃ value, WorkerAdapter.precision precision = .ok value

/-- The snapshot is read, whatever its ordinals: the indexes other than ordinals exist, the required parts are
there and the spellings are known. -/
structure Readable (value : GraphSnapshot) : Prop where
  provenance : ∃ index, value.provenanceIndex = some index ∧ index < value.provenances.length
  sourceUnit : ∃ unit, value.sourceUnit = some unit ∧ ∃ origin, WorkerAdapter.sourceOrigin unit.origin = .ok origin
  symbols : ∀ symbol ∈ value.symbols, OwnIndex value.provenances.length symbol.provenanceIndex ∧ ReadableSymbol symbol
  occurrences : ∀ occurrence ∈ value.occurrences,
    OwnIndex value.provenances.length occurrence.provenanceIndex ∧ ReadableOccurrence occurrence
  references : ∀ edge ∈ value.references, ReadableEdge value.occurrences.length edge.sourceOccurrenceIndex edge.precision
  calls : ∀ edge ∈ value.calls, ReadableEdge value.occurrences.length edge.sourceOccurrenceIndex edge.precision
  hierarchy : ∀ edge ∈ value.hierarchy, OwnIndex value.provenances.length edge.provenanceIndex ∧ ReadableHierarchy edge
  types : ∀ record ∈ value.types, OwnIndex value.provenances.length record.provenanceIndex ∧ ReadableType record
  diagnostics : ∀ diagnostic ∈ value.diagnostics,
    OwnIndex value.provenances.length diagnostic.provenanceIndex ∧ ReadableDiagnostic diagnostic
  completeness : ∃ state, WorkerAdapter.completeness value.completeness = .ok state

/-- Records of one kind are read if each of them is. -/
theorem decodeIndexed_ok_iff {γ α β : Type} {field : String} {indexOf : α → Nat} {decode : α → Provenance → Except AdapterError β}
    {provenances : List Provenance} (write : γ → α) (own : γ → Option Nat) {index : Nat} {Q : γ → Prop}
    (hindex : index < provenances.length) (hown : ∀ record, indexOf (write record) = (own record).getD index)
    (hdecode : ∀ record p, (∃ b, decode (write record) p = .ok b) ↔ Q record) {records : List γ} :
    (∃ bs, WorkerAdapter.decodeIndexed field indexOf decode provenances (records.map write) = .ok bs) ↔
      ∀ record ∈ records, OwnIndex provenances.length (own record) ∧ Q record := by
  unfold WorkerAdapter.decodeIndexed
  rw [exists_mapM_eq_ok_iff, List.forall_mem_map]
  refine forall₂_congr fun record _ => ?_
  simp only [WorkerAdapter.indexedProvenance, bind_eq_ok_iff, WorkerAdapter.required_eq_ok_iff]
  rw [exists_comm]
  simp only [exists_and_left, hdecode, exists_and_right]
  refine and_congr ?_ Iff.rfl
  rw [hown]
  constructor
  · rintro ⟨p, hp⟩ i hi
    rw [hi] at hp
    exact (List.getElem?_eq_some_iff.1 hp).1
  · intro h
    have hlt : (own record).getD index < provenances.length := by
      cases hrecord : own record with
      | none => exact hindex
      | some i => exact h i hrecord
    exact ⟨_, List.getElem?_eq_getElem hlt⟩

section
variable {unit : SourceUnit} {index : Nat} {ids : List String}

theorem decodeSymbol_ok_iff (symbol : ArtifactSymbol) (p : Provenance) :
    (∃ record, WorkerAdapter.decodeSymbolDeclaration (decodeSymbol symbol index ids) unit p = .ok record) ↔
      ReadableSymbol symbol := by
  rw [WorkerAdapter.decodeSymbolDeclaration_ok_iff]
  simp [decodeSymbol, ReadableSymbol]

theorem ownSource_eq_ok_iff {record : String} {index : Nat} {u : Unit} :
    WorkerAdapter.ownSource record index = .ok u ↔ index = 0 := by
  cases u
  unfold WorkerAdapter.ownSource
  by_cases h : index = 0 <;> simp [h]

theorem decodeOccurrence_ok_iff (occurrence : ArtifactOccurrence) (p : Provenance) :
    (∃ record, WorkerAdapter.decodeOccurrence (decodeOccurrence occurrence index ids) unit p = .ok record) ↔
      ReadableOccurrence occurrence := by
  unfold WorkerAdapter.decodeOccurrence decodeOccurrence
  simp only [bind_eq_ok_iff, WorkerAdapter.required_eq_ok_iff, ownSource_eq_ok_iff, pure_eq_ok, Except.ok.injEq]
  constructor
  · rintro ⟨_, location, hlocation, range, hrange, _, hunit, kind, hkind, precision, hprecision, state, hstate, whole, hwhole, -⟩
    obtain ⟨stored, hstored, rfl⟩ := Option.map_eq_some_iff.1 hlocation
    obtain ⟨bytes, hbytes, rfl⟩ := Option.map_eq_some_iff.1 hrange
    exact ⟨⟨stored, bytes, hstored, hbytes, hunit⟩, ⟨kind, hkind⟩, ⟨precision, hprecision⟩, ⟨state, hstate⟩, ⟨whole, hwhole⟩⟩
  · rintro ⟨⟨location, range, hlocation, hrange, hunit⟩, ⟨kind, hkind⟩, ⟨precision, hprecision⟩, ⟨state, hstate⟩, ⟨whole, hwhole⟩⟩
    exact ⟨_, decodeLocation location, by rw [hlocation, Option.map_some], decodeRange range,
      by rw [decodeLocation, hrange, Option.map_some], (), hunit, kind, hkind, precision, hprecision, state, hstate, whole,
      hwhole, rfl⟩

theorem decodeHierarchy_ok_iff (edge : ArtifactHierarchy) (p : Provenance) :
    (∃ record, WorkerAdapter.decodeHierarchyEdge (decodeHierarchy edge index ids) p = .ok record) ↔ ReadableHierarchy edge := by
  unfold WorkerAdapter.decodeHierarchyEdge decodeHierarchy ReadableHierarchy
  simp only [bind_eq_ok_iff, pure_eq_ok, Except.ok.injEq]
  rw [exists_comm]
  simp

theorem decodeType_ok_iff (record : ArtifactType) (p : Provenance) :
    (∃ value, WorkerAdapter.decodeTypeRecord (decodeType record index) p = .ok value) ↔ ReadableType record := by
  unfold WorkerAdapter.decodeTypeRecord decodeType
  simp only [bind_eq_ok_iff, pure_eq_ok, Except.ok.injEq]
  constructor
  · rintro ⟨_, state, hstate, whole, hwhole, -⟩
    exact ⟨⟨state, hstate⟩, ⟨whole, hwhole⟩⟩
  · rintro ⟨⟨state, hstate⟩, ⟨whole, hwhole⟩⟩
    exact ⟨_, state, hstate, whole, hwhole, rfl⟩

theorem decodeDiagnostic_ok_iff (diagnostic : ArtifactDiagnostic) (p : Provenance) :
    (∃ record, WorkerAdapter.decodeDiagnostic (decodeDiagnostic diagnostic index) unit p = .ok record) ↔
      ReadableDiagnostic diagnostic := by
  unfold WorkerAdapter.decodeDiagnostic decodeDiagnostic
  simp only [bind_eq_ok_iff, ownSource_eq_ok_iff, pure_eq_ok, Except.ok.injEq]
  constructor
  · rintro ⟨_, _, hunit, severity, hseverity, state, hstate, whole, hwhole, -⟩
    exact ⟨hunit, ⟨severity, hseverity⟩, ⟨state, hstate⟩, ⟨whole, hwhole⟩⟩
  · rintro ⟨hunit, ⟨severity, hseverity⟩, ⟨state, hstate⟩, ⟨whole, hwhole⟩⟩
    exact ⟨_, (), hunit, severity, hseverity, state, hstate, whole, hwhole, rfl⟩

theorem decodeReference_ok_iff {edge : ArtifactReference} {occurrences : List SourceOccurrence} :
    (∃ record, WorkerAdapter.decodeReferenceEdge (decodeReference edge ids) occurrences = .ok record) ↔
      ReadableEdge occurrences.length edge.sourceOccurrenceIndex edge.precision := by
  unfold WorkerAdapter.decodeReferenceEdge decodeReference
  simp only [bind_eq_ok_iff, WorkerAdapter.required_eq_ok_iff, pure_eq_ok, Except.ok.injEq]
  constructor
  · rintro ⟨_, source, hsource, precision, hprecision, -⟩
    exact ⟨(List.getElem?_eq_some_iff.1 hsource).1, precision, hprecision⟩
  · rintro ⟨hlt, precision, hprecision⟩
    exact ⟨_, _, List.getElem?_eq_getElem hlt, precision, hprecision, rfl⟩

theorem decodeCall_ok_iff {edge : ArtifactCall} {occurrences : List SourceOccurrence} :
    (∃ record, WorkerAdapter.decodeCallEdge (decodeCall edge ids) occurrences = .ok record) ↔
      ReadableEdge occurrences.length edge.sourceOccurrenceIndex edge.precision := by
  unfold WorkerAdapter.decodeCallEdge decodeCall
  simp only [bind_eq_ok_iff, WorkerAdapter.required_eq_ok_iff, pure_eq_ok, Except.ok.injEq]
  constructor
  · rintro ⟨_, source, hsource, precision, hprecision, -⟩
    exact ⟨(List.getElem?_eq_some_iff.1 hsource).1, precision, hprecision⟩
  · rintro ⟨hlt, precision, hprecision⟩
    exact ⟨_, _, List.getElem?_eq_getElem hlt, precision, hprecision, rfl⟩

theorem decodeSourceUnit_ok_iff {unit : ArtifactSourceUnit} :
    (∃ source, WorkerAdapter.decodeSourceUnit (decodeSourceUnit unit) = .ok source) ↔
      ∃ origin, WorkerAdapter.sourceOrigin unit.origin = .ok origin := by
  unfold WorkerAdapter.decodeSourceUnit decodeSourceUnit
  simp only [bind_eq_ok_iff, pure_eq_ok, Except.ok.injEq]
  rw [exists_comm]
  simp

end

/-- The records of one kind that were decoded are as many as there were. -/
theorem decodeIndexed_length {α β : Type} {field : String} {indexOf : α → Nat} {decode : α → Provenance → Except AdapterError β}
    {provenances : List Provenance} {records : List α} {bs : List β}
    (h : WorkerAdapter.decodeIndexed field indexOf decode provenances records = .ok bs) : bs.length = records.length :=
  (mapM_eq_ok_iff.1 h).length_eq.symm

section
variable {value : GraphSnapshot} {provenances : List Provenance} {index : Nat} (hindex : index < provenances.length)
  (unit : SourceUnit) (ids : List String)
include hindex

theorem symbols_ok_iff :
    (∃ bs, WorkerAdapter.decodeIndexed "symbol.provenance_index" WorkerProto.SymbolDeclaration.provenanceIndex
      (fun record => WorkerAdapter.decodeSymbolDeclaration record unit) provenances (workerSnapshot value index ids).symbols = .ok bs) ↔
    ∀ symbol ∈ value.symbols, OwnIndex provenances.length symbol.provenanceIndex ∧ ReadableSymbol symbol :=
  decodeIndexed_ok_iff (fun record => decodeSymbol record index ids) ArtifactSymbol.provenanceIndex hindex (fun _ => rfl) decodeSymbol_ok_iff

theorem occurrences_ok_iff :
    (∃ bs, WorkerAdapter.decodeIndexed "occurrence.provenance_index" WorkerProto.Occurrence.provenanceIndex
      (fun record => WorkerAdapter.decodeOccurrence record unit) provenances (workerSnapshot value index ids).occurrences = .ok bs) ↔
    ∀ occurrence ∈ value.occurrences, OwnIndex provenances.length occurrence.provenanceIndex ∧ ReadableOccurrence occurrence :=
  decodeIndexed_ok_iff (fun record => decodeOccurrence record index ids) ArtifactOccurrence.provenanceIndex hindex (fun _ => rfl) decodeOccurrence_ok_iff

theorem hierarchy_ok_iff :
    (∃ bs, WorkerAdapter.decodeIndexed "hierarchy.provenance_index" WorkerProto.HierarchyEdge.provenanceIndex
      WorkerAdapter.decodeHierarchyEdge provenances (workerSnapshot value index ids).hierarchy = .ok bs) ↔
    ∀ edge ∈ value.hierarchy, OwnIndex provenances.length edge.provenanceIndex ∧ ReadableHierarchy edge :=
  decodeIndexed_ok_iff (fun record => decodeHierarchy record index ids) ArtifactHierarchy.provenanceIndex hindex (fun _ => rfl) decodeHierarchy_ok_iff

theorem types_ok_iff :
    (∃ bs, WorkerAdapter.decodeIndexed "type.provenance_index" WorkerProto.TypeRecord.provenanceIndex
      WorkerAdapter.decodeTypeRecord provenances (workerSnapshot value index ids).types = .ok bs) ↔
    ∀ record ∈ value.types, OwnIndex provenances.length record.provenanceIndex ∧ ReadableType record :=
  decodeIndexed_ok_iff (fun record => decodeType record index) ArtifactType.provenanceIndex hindex (fun _ => rfl) decodeType_ok_iff

theorem diagnostics_ok_iff :
    (∃ bs, WorkerAdapter.decodeIndexed "diagnostic.provenance_index" WorkerProto.Diagnostic.provenanceIndex
      (fun record => WorkerAdapter.decodeDiagnostic record unit) provenances (workerSnapshot value index ids).diagnostics = .ok bs) ↔
    ∀ diagnostic ∈ value.diagnostics, OwnIndex provenances.length diagnostic.provenanceIndex ∧ ReadableDiagnostic diagnostic :=
  decodeIndexed_ok_iff (fun record => decodeDiagnostic record index) ArtifactDiagnostic.provenanceIndex hindex (fun _ => rfl) decodeDiagnostic_ok_iff

end

theorem references_ok_iff {value : GraphSnapshot} {index : Nat} {ids : List String} {occurrences : List SourceOccurrence} :
    (∃ bs, ((workerSnapshot value index ids).references.mapM fun edge => WorkerAdapter.decodeReferenceEdge edge occurrences) = .ok bs) ↔
    ∀ edge ∈ value.references, ReadableEdge occurrences.length edge.sourceOccurrenceIndex edge.precision := by
  rw [exists_mapM_eq_ok_iff, workerSnapshot, List.forall_mem_map]
  exact forall₂_congr fun _ _ => decodeReference_ok_iff

theorem calls_ok_iff {value : GraphSnapshot} {index : Nat} {ids : List String} {occurrences : List SourceOccurrence} :
    (∃ bs, ((workerSnapshot value index ids).calls.mapM fun edge => WorkerAdapter.decodeCallEdge edge occurrences) = .ok bs) ↔
    ∀ edge ∈ value.calls, ReadableEdge occurrences.length edge.sourceOccurrenceIndex edge.precision := by
  rw [exists_mapM_eq_ok_iff, workerSnapshot, List.forall_mem_map]
  exact forall₂_congr fun _ _ => decodeCall_ok_iff

/-- Whether a snapshot is read does not depend on its ordinals. -/
theorem decodeSnapshot_ok_iff {value : GraphSnapshot} {ids : List String} :
    (∃ snapshot, decodeSnapshot value ids = .ok snapshot) ↔ Readable value := by
  simp only [decodeSnapshot_eq_ok_iff]
  let provenances := (value.provenances.map decodeProvenance).map WorkerAdapter.provenance
  have hlength : provenances.length = value.provenances.length := by simp [provenances]
  constructor
  · rintro ⟨snapshot, index, hindex, h⟩
    obtain ⟨proto, hproto, hsource⟩ := h.sourceUnit
    obtain ⟨unit, hunit, rfl⟩ := Option.map_eq_some_iff.1 hproto
    have hlt : index < provenances.length := (List.getElem?_eq_some_iff.1 (WorkerAdapter.required_eq_ok_iff.1 h.provenance)).1
    have hoccurrences : snapshot.occurrences.length = value.occurrences.length :=
      (decodeIndexed_length h.occurrences).trans (List.length_map _)
    exact
      { provenance := ⟨index, hindex, hlt.trans_eq hlength⟩
        sourceUnit := ⟨unit, hunit, decodeSourceUnit_ok_iff.1 ⟨_, hsource⟩⟩
        symbols := hlength ▸ (symbols_ok_iff hlt _ ids).1 ⟨_, h.symbols⟩
        occurrences := hlength ▸ (occurrences_ok_iff hlt _ ids).1 ⟨_, h.occurrences⟩
        references := hoccurrences ▸ references_ok_iff.1 ⟨_, h.references⟩
        calls := hoccurrences ▸ calls_ok_iff.1 ⟨_, h.calls⟩
        hierarchy := hlength ▸ (hierarchy_ok_iff hlt ids).1 ⟨_, h.hierarchy⟩
        types := hlength ▸ (types_ok_iff hlt ids).1 ⟨_, h.types⟩
        diagnostics := hlength ▸ (diagnostics_ok_iff hlt _ ids).1 ⟨_, h.diagnostics⟩
        completeness := ⟨_, h.completeness⟩ }
  · intro h
    obtain ⟨index, hindex, hlt⟩ := h.provenance
    obtain ⟨proto, hunit, horigin⟩ := h.sourceUnit
    obtain ⟨unit, hsource⟩ := decodeSourceUnit_ok_iff.2 horigin
    rw [← hlength] at hlt
    obtain ⟨symbols, hsymbols⟩ := (symbols_ok_iff hlt unit ids).2 (hlength ▸ h.symbols)
    obtain ⟨occurrences, hoccurrences⟩ := (occurrences_ok_iff hlt unit ids).2 (hlength ▸ h.occurrences)
    obtain ⟨hierarchy, hhierarchy⟩ := (hierarchy_ok_iff hlt ids).2 (hlength ▸ h.hierarchy)
    obtain ⟨types, htypes⟩ := (types_ok_iff hlt ids).2 (hlength ▸ h.types)
    obtain ⟨diagnostics, hdiagnostics⟩ := (diagnostics_ok_iff hlt unit ids).2 (hlength ▸ h.diagnostics)
    have hcount : occurrences.length = value.occurrences.length := (decodeIndexed_length hoccurrences).trans (List.length_map _)
    obtain ⟨references, hreferences⟩ := references_ok_iff.2 (hcount ▸ h.references)
    obtain ⟨calls, hcalls⟩ := calls_ok_iff.2 (hcount ▸ h.calls)
    obtain ⟨state, hstate⟩ := h.completeness
    exact ⟨⟨unit, _, _, symbols, [], occurrences, references, calls, hierarchy, types, diagnostics, state, provenances[index]⟩,
      index, hindex,
      { sourceUnit := ⟨_, congrArg (Option.map decodeSourceUnit) hunit, hsource⟩
        structuralFingerprint := rfl
        publicApiFingerprint := rfl
        provenance := WorkerAdapter.required_eq_ok_iff.2 (List.getElem?_eq_getElem hlt)
        symbols := hsymbols
        applications := rfl
        occurrences := hoccurrences
        references := hreferences
        calls := hcalls
        hierarchy := hhierarchy
        types := htypes
        diagnostics := hdiagnostics
        completeness := hstate }⟩

theorem decodeGraphArtifact_ok_iff {artifact : GraphArtifact} :
    (∃ snapshots, decodeGraphArtifact artifact = .ok snapshots) ↔ ∀ snapshot ∈ artifact.snapshots, Readable snapshot := by
  rw [decodeGraphArtifact, exists_mapM_eq_ok_iff]
  exact forall₂_congr fun _ _ => decodeSnapshot_ok_iff

/-! ## What the ordinals give -/

/-- An ordinal, where there is one, is the position of a symbol. -/
def Within (count : Nat) (ordinal : Option Nat) : Prop := ∀ position, ordinal = some position → position < count

/-- The ordinals of a snapshot are positions of the artifact's symbols. -/
structure OrdinalsWithin (count : Nat) (value : GraphSnapshot) : Prop where
  owners : ∀ symbol ∈ value.symbols, Within count symbol.ownerSymbolOrdinal
  occurrences : ∀ occurrence ∈ value.occurrences,
    Within count occurrence.enclosingSymbolOrdinal ∧ Within count occurrence.targetSymbolOrdinal
  references : ∀ edge ∈ value.references, Within count edge.targetSymbolOrdinal
  calls : ∀ edge ∈ value.calls, Within count edge.targetSymbolOrdinal ∧ Within count edge.callerSymbolOrdinal
  hierarchy : ∀ edge ∈ value.hierarchy, Within count edge.subtypeSymbolOrdinal ∧ Within count edge.supertypeSymbolOrdinal

/-- An ordinal, where there is one, is the position of a symbol, whose id the decoded fact carries. -/
def Carries (symbols : List ArtifactSymbol) (ordinal : Option Nat) (id : Option SymbolId) : Prop :=
  ∀ position, ordinal = some position → ∃ symbol, symbols[position]? = some symbol ∧ id = some ⟨symbol.id⟩

/-- Each fact of the snapshot carries the ids of the symbols its ordinals refer to. -/
structure Resolved (symbols : List ArtifactSymbol) (graph : GraphSnapshot) (value : FileAnalysisSnapshot) : Prop where
  owners : List.Forall₂ (fun symbol record => Carries symbols symbol.ownerSymbolOrdinal record.owner) graph.symbols value.symbols
  occurrences : List.Forall₂ (fun occurrence record => Carries symbols occurrence.enclosingSymbolOrdinal record.enclosingSymbol ∧
    Carries symbols occurrence.targetSymbolOrdinal record.target) graph.occurrences value.occurrences
  references : List.Forall₂ (fun edge record => Carries symbols edge.targetSymbolOrdinal (some record.target))
    graph.references value.references
  calls : List.Forall₂ (fun edge record => Carries symbols edge.targetSymbolOrdinal (some record.target) ∧
    Carries symbols edge.callerSymbolOrdinal record.caller) graph.calls value.calls
  hierarchy : List.Forall₂ (fun edge record => Carries symbols edge.subtypeSymbolOrdinal (some record.subtype) ∧
    Carries symbols edge.supertypeSymbolOrdinal (some record.supertype)) graph.hierarchy value.hierarchy

section
variable {symbols : List ArtifactSymbol} {ordinal : Option Nat} (h : Within symbols.length ordinal)
include h

theorem localOptional_carries (inline : Option String) :
    Carries symbols ordinal ((localOptional inline ordinal (symbols.map ArtifactSymbol.id)).map (⟨·⟩)) := by
  rintro position rfl
  have hlt := h position rfl
  refine ⟨symbols[position], List.getElem?_eq_getElem hlt, ?_⟩
  simp [localOptional, hlt]

theorem localIdOrDefault_carries (inline : String) :
    Carries symbols ordinal (some ⟨localIdOrDefault inline ordinal (symbols.map ArtifactSymbol.id)⟩) := by
  rintro position rfl
  have hlt := h position rfl
  refine ⟨symbols[position], List.getElem?_eq_getElem hlt, ?_⟩
  simp [localIdOrDefault, localId, hlt]

end

section
variable {unit : SourceUnit} {p : Provenance} {index : Nat} {ids : List String} {occurrences : List SourceOccurrence}

theorem decodeSymbol_owner {symbol : ArtifactSymbol} {record : SymbolRecord}
    (h : WorkerAdapter.decodeSymbolDeclaration (decodeSymbol symbol index ids) unit p = .ok record) :
    record.owner = (localOptional symbol.ownerId symbol.ownerSymbolOrdinal ids).map (⟨·⟩) := by
  unfold WorkerAdapter.decodeSymbolDeclaration at h
  simp only [bind_eq_ok_iff, pure_eq_ok, Except.ok.injEq] at h
  obtain ⟨_, -, _, -, _, -, _, -, _, -, rfl⟩ := h
  rfl

theorem decodeOccurrence_ids {occurrence : ArtifactOccurrence} {record : SourceOccurrence}
    (h : WorkerAdapter.decodeOccurrence (decodeOccurrence occurrence index ids) unit p = .ok record) :
    record.enclosingSymbol = (localOptional occurrence.enclosingSymbolId occurrence.enclosingSymbolOrdinal ids).map (⟨·⟩) ∧
      record.target = (localOptional occurrence.targetSymbolId occurrence.targetSymbolOrdinal ids).map (⟨·⟩) := by
  unfold WorkerAdapter.decodeOccurrence at h
  simp only [bind_eq_ok_iff, pure_eq_ok, Except.ok.injEq] at h
  obtain ⟨_, -, _, -, _, -, _, -, _, -, _, -, _, -, rfl⟩ := h
  exact ⟨rfl, rfl⟩

theorem decodeReference_target {edge : ArtifactReference} {record : ReferenceEdge}
    (h : WorkerAdapter.decodeReferenceEdge (decodeReference edge ids) occurrences = .ok record) :
    record.target = ⟨localIdOrDefault edge.targetSymbolId edge.targetSymbolOrdinal ids⟩ := by
  unfold WorkerAdapter.decodeReferenceEdge at h
  simp only [bind_eq_ok_iff, pure_eq_ok, Except.ok.injEq] at h
  obtain ⟨_, -, _, -, rfl⟩ := h
  rfl

theorem decodeCall_ids {edge : ArtifactCall} {record : CallEdge}
    (h : WorkerAdapter.decodeCallEdge (decodeCall edge ids) occurrences = .ok record) :
    record.target = ⟨localIdOrDefault edge.targetSymbolId edge.targetSymbolOrdinal ids⟩ ∧
      record.caller = (localOptional edge.callerSymbolId edge.callerSymbolOrdinal ids).map (⟨·⟩) := by
  unfold WorkerAdapter.decodeCallEdge at h
  simp only [bind_eq_ok_iff, pure_eq_ok, Except.ok.injEq] at h
  obtain ⟨_, -, _, -, rfl⟩ := h
  exact ⟨rfl, rfl⟩

theorem decodeHierarchy_ids {edge : ArtifactHierarchy} {record : HierarchyEdge}
    (h : WorkerAdapter.decodeHierarchyEdge (decodeHierarchy edge index ids) p = .ok record) :
    record.subtype = ⟨localIdOrDefault edge.subtypeSymbolId edge.subtypeSymbolOrdinal ids⟩ ∧
      record.supertype = ⟨localIdOrDefault edge.supertypeSymbolId edge.supertypeSymbolOrdinal ids⟩ := by
  unfold WorkerAdapter.decodeHierarchyEdge at h
  simp only [bind_eq_ok_iff, pure_eq_ok, Except.ok.injEq] at h
  obtain ⟨_, -, rfl⟩ := h
  exact ⟨rfl, rfl⟩

end

/-- Records of one kind with their decodings. -/
theorem decodeIndexed_forall₂ {γ α β : Type} {field : String} {indexOf : α → Nat} {decode : α → Provenance → Except AdapterError β}
    {provenances : List Provenance} {write : γ → α} {records : List γ} {bs : List β}
    (h : WorkerAdapter.decodeIndexed field indexOf decode provenances (records.map write) = .ok bs) :
    List.Forall₂ (fun record b => ∃ p, decode (write record) p = .ok b) records bs := by
  have hall := mapM_eq_ok_iff.1 h
  rw [List.forall₂_map_left_iff] at hall
  refine hall.imp fun record b hb => ?_
  obtain ⟨p, -, hp⟩ := bind_eq_ok_iff.1 hb
  exact ⟨p, hp⟩

/-- A fact about each record and one about its decoding. -/
theorem forall₂_of_mem {α β : Type} {P : α → Prop} {R S : α → β → Prop} {as : List α} {bs : List β} (hP : ∀ a ∈ as, P a)
    (hR : List.Forall₂ R as bs) (h : ∀ a b, P a → R a b → S a b) : List.Forall₂ S as bs :=
  ((List.forall₂_and_left as bs).2 ⟨hP, hR⟩).imp fun a b hab => h a b hab.1 hab.2

theorem decodeSnapshot_resolved {symbols : List ArtifactSymbol} {graph : GraphSnapshot} {value : FileAnalysisSnapshot}
    (hwithin : OrdinalsWithin symbols.length graph) (h : decodeSnapshot graph (symbols.map ArtifactSymbol.id) = .ok value) :
    Resolved symbols graph value := by
  obtain ⟨index, -, hd⟩ := decodeSnapshot_eq_ok_iff.1 h
  constructor
  case owners =>
    refine forall₂_of_mem hwithin.owners (decodeIndexed_forall₂ hd.symbols) fun symbol record hs hdecoded => ?_
    obtain ⟨p, hp⟩ := hdecoded
    exact decodeSymbol_owner hp ▸ localOptional_carries hs _
  case occurrences =>
    refine forall₂_of_mem hwithin.occurrences (decodeIndexed_forall₂ hd.occurrences) fun occurrence record hs hdecoded => ?_
    obtain ⟨p, hp⟩ := hdecoded
    rw [(decodeOccurrence_ids hp).1, (decodeOccurrence_ids hp).2]
    exact ⟨localOptional_carries hs.1 _, localOptional_carries hs.2 _⟩
  case references =>
    have hall := mapM_eq_ok_iff.1 hd.references
    rw [workerSnapshot, List.forall₂_map_left_iff] at hall
    refine forall₂_of_mem hwithin.references hall fun edge record hs hp => ?_
    rw [decodeReference_target hp]
    exact localIdOrDefault_carries hs _
  case calls =>
    have hall := mapM_eq_ok_iff.1 hd.calls
    rw [workerSnapshot, List.forall₂_map_left_iff] at hall
    refine forall₂_of_mem hwithin.calls hall fun edge record hs hp => ?_
    rw [(decodeCall_ids hp).1, (decodeCall_ids hp).2]
    exact ⟨localIdOrDefault_carries hs.1 _, localOptional_carries hs.2 _⟩
  case hierarchy =>
    refine forall₂_of_mem hwithin.hierarchy (decodeIndexed_forall₂ hd.hierarchy) fun edge record hs hdecoded => ?_
    obtain ⟨p, hp⟩ := hdecoded
    rw [(decodeHierarchy_ids hp).1, (decodeHierarchy_ids hp).2]
    exact ⟨localIdOrDefault_carries hs.1 _, localIdOrDefault_carries hs.2 _⟩

/-- **Ordinals.** Facts with an ordinal carry the id of its symbol, and an ordinal without a symbol makes the
artifact unreadable, exactly for the artifacts that have no such ordinal or are unreadable without it. -/
theorem decodeGraphArtifact_rejects_dangling_iff (artifact : GraphArtifact) :
    ((∀ snapshots, decodeGraphArtifact artifact = .ok snapshots →
        List.Forall₂ (Resolved artifact.symbols) artifact.snapshots snapshots) ∧
      (¬ (∀ snapshot ∈ artifact.snapshots, OrdinalsWithin artifact.symbols.length snapshot) →
        ∃ error, decodeGraphArtifact artifact = .error error)) ↔
    (∀ snapshot ∈ artifact.snapshots, OrdinalsWithin artifact.symbols.length snapshot) ∨
      ∃ snapshot ∈ artifact.snapshots, ¬ Readable snapshot := by
  by_cases hreadable : ∀ snapshot ∈ artifact.snapshots, Readable snapshot
  · obtain ⟨read, hread⟩ := decodeGraphArtifact_ok_iff.2 hreadable
    have hnone : ¬ ∃ snapshot ∈ artifact.snapshots, ¬ Readable snapshot := by
      rintro ⟨snapshot, hs, hnot⟩
      exact hnot (hreadable snapshot hs)
    rw [or_iff_left hnone]
    constructor
    · rintro ⟨-, hrejected⟩
      by_contra hdangling
      obtain ⟨error, herror⟩ := hrejected hdangling
      rw [hread] at herror
      cases herror
    · intro hwithin
      refine ⟨fun snapshots hsnapshots => ?_, fun h => absurd hwithin h⟩
      exact forall₂_of_mem hwithin (mapM_eq_ok_iff.1 hsnapshots) fun _ _ => decodeSnapshot_resolved
  · have hfails : ∃ error, decodeGraphArtifact artifact = .error error := by
      cases hread : decodeGraphArtifact artifact with
      | ok snapshots => exact absurd (decodeGraphArtifact_ok_iff.1 ⟨_, hread⟩) hreadable
      | error error => exact ⟨error, rfl⟩
    obtain ⟨error, herror⟩ := hfails
    have hsome : ∃ snapshot ∈ artifact.snapshots, ¬ Readable snapshot := by
      simpa only [not_forall, exists_prop] using hreadable
    refine ⟨fun _ => .inr hsome, fun _ => ⟨fun snapshots hsnapshots => ?_, fun _ => ⟨error, herror⟩⟩⟩
    rw [herror] at hsnapshots
    cases hsnapshots

/-! ## An edge past the last symbol -/

/-- A file that declares nothing, with an edge from its sixth symbol to its seventh. -/
def danglingArtifact : GraphArtifact where
  snapshots :=
    [{ sourceUnit := some ⟨"unit:A", "app:main", "A.class", "java", "dependency", "sha256:a", "sha256:context"⟩
       structuralFingerprint := none
       publicApiFingerprint := none
       provenances := [⟨"kide-jvm-bytecode", "0.1.0", 1, "sha256:options"⟩]
       symbols := []
       occurrences := []
       references := []
       calls := []
       hierarchy := [⟨"", "", "exact", none, some 5, some 6⟩]
       types := []
       diagnostics := []
       completeness := "complete"
       provenanceIndex := some 0 }]

theorem dangling_ordinal_read_as_empty_id :
    ¬ ∀ artifact : GraphArtifact,
      (∀ snapshots, decodeGraphArtifact artifact = .ok snapshots →
        List.Forall₂ (Resolved artifact.symbols) artifact.snapshots snapshots) ∧
      (¬ (∀ snapshot ∈ artifact.snapshots, OrdinalsWithin artifact.symbols.length snapshot) →
        ∃ error, decodeGraphArtifact artifact = .error error) := by
  intro h
  have hdangling : ¬ ∀ snapshot ∈ danglingArtifact.snapshots, OrdinalsWithin danglingArtifact.symbols.length snapshot := by
    intro hwithin
    have hlt := (hwithin _ List.mem_cons_self).hierarchy _ List.mem_cons_self |>.1 5 rfl
    exact absurd hlt (by decide)
  obtain ⟨error, herror⟩ := (h danglingArtifact).2 hdangling
  have hread : (decodeGraphArtifact danglingArtifact).isOk = true := by decide
  rw [herror] at hread
  cases hread

end ArtifactAdapter

end Kide
