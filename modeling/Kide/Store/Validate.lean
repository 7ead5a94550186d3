import Kide.Lib.Checks
import Kide.Store.Schema

/-!
# Snapshot validation

`validate_snapshot` of `store.rs`: what Core checks of a worker's snapshot before it opens a
transaction. `validateSnapshot_ok_iff` reads a passing validation as the record `ValidSnapshot`.
-/

namespace Kide
open Checks

def validateProvenance (provenance : Provenance) : Except IndexStoreError Unit :=
  if provenance.protocolVersion ≠ WORKER_PROTOCOL_VERSION then
    .error (.incompatibleWorkerProtocol provenance.protocolVersion WORKER_PROTOCOL_VERSION)
  else .ok ()

def ensureFactSource (record : String) (expected : SourceUnitId) (actual : SourceUnitId) :
    Except IndexStoreError Unit :=
  if actual.asStr = expected.asStr then .ok ()
  else .error (.factOwnedByOtherSource record expected.asStr actual.asStr)

def validateRange (record : String) (range : ByteRange) : Except IndexStoreError Unit :=
  if range.start ≤ range.stop then .ok () else .error (.invalidRange record range.start range.stop)

def validateOccurrence (sourceId : SourceUnitId) (occurrence : SourceOccurrence) :
    Except IndexStoreError Unit := do
  validateProvenance occurrence.provenance
  ensureFactSource "occurrence" sourceId occurrence.range.sourceUnit
  validateRange "occurrence" occurrence.range.bytes

def validateSymbol (sourceId : SourceUnitId) (symbol : SymbolRecord) : Except IndexStoreError Unit := do
  validateProvenance symbol.provenance
  ensureFactSource "symbol declaration" sourceId symbol.declaration.sourceUnit
  ensureFactSource "symbol name range" sourceId symbol.nameRange.sourceUnit
  validateRange "symbol declaration" symbol.declaration.bytes
  validateRange "symbol name range" symbol.nameRange.bytes

def validateApplication (sourceId : SourceUnitId) (application : ApplicationFact) :
    Except IndexStoreError Unit := do
  validateProvenance application.provenance
  ensureFactSource "application" sourceId application.range.sourceUnit
  validateRange "application" application.range.bytes

def validateDiagnostic (sourceId : SourceUnitId) (diagnostic : DiagnosticRecord) :
    Except IndexStoreError Unit := do
  validateProvenance diagnostic.provenance
  ensureFactSource "diagnostic" sourceId diagnostic.sourceUnit
  match diagnostic.range with
  | some range => validateRange "diagnostic" range
  | none => .ok ()

def validateSnapshot (expected : SourceUnit) (snapshot : FileAnalysisSnapshot) :
    Except IndexStoreError Unit :=
  if snapshot.sourceUnit.id ≠ expected.id then .error .sourceUnitMismatch
  else if snapshot.sourceUnit.content ≠ expected.content ∨ snapshot.sourceUnit.context ≠ expected.context then
    .error .snapshotInputMismatch
  else do
    validateProvenance snapshot.provenance
    snapshot.symbols.forM (validateSymbol expected.id)
    snapshot.applications.forM (validateApplication expected.id)
    snapshot.occurrences.forM (validateOccurrence expected.id)
    snapshot.references.forM fun reference => validateOccurrence expected.id reference.source
    snapshot.calls.forM fun call => validateOccurrence expected.id call.source
    snapshot.hierarchy.forM fun edge => validateProvenance edge.provenance
    snapshot.types.forM fun ty => validateProvenance ty.provenance
    snapshot.diagnostics.forM (validateDiagnostic expected.id)

/-! ## What each check tests -/

def Provenance.Supported (provenance : Provenance) : Prop :=
  provenance.protocolVersion = WORKER_PROTOCOL_VERSION

def SourceRange.Within (range : SourceRange) (sourceId : SourceUnitId) : Prop :=
  range.sourceUnit = sourceId ∧ range.bytes.start ≤ range.bytes.stop

theorem validateProvenance_ok_iff {provenance : Provenance} :
    validateProvenance provenance = .ok () ↔ provenance.Supported := by
  simp [validateProvenance, Provenance.Supported]

theorem ensureFactSource_ok_iff {record : String} {expected actual : SourceUnitId} :
    ensureFactSource record expected actual = .ok () ↔ actual = expected := by
  rw [ensureFactSource, ite_ok_eq_ok_iff, SourceUnitId.mk.injEq]

theorem validateRange_ok_iff {record : String} {range : ByteRange} :
    validateRange record range = .ok () ↔ range.start ≤ range.stop := ite_ok_eq_ok_iff

def SourceOccurrence.ValidIn (occurrence : SourceOccurrence) (sourceId : SourceUnitId) : Prop :=
  occurrence.provenance.Supported ∧ occurrence.range.Within sourceId

def SymbolRecord.ValidIn (symbol : SymbolRecord) (sourceId : SourceUnitId) : Prop :=
  symbol.provenance.Supported ∧ symbol.declaration.Within sourceId ∧ symbol.nameRange.Within sourceId

def ApplicationFact.ValidIn (application : ApplicationFact) (sourceId : SourceUnitId) : Prop :=
  application.provenance.Supported ∧ application.range.Within sourceId

def DiagnosticRecord.ValidIn (diagnostic : DiagnosticRecord) (sourceId : SourceUnitId) : Prop :=
  diagnostic.provenance.Supported ∧ diagnostic.sourceUnit = sourceId ∧
    ∀ range ∈ diagnostic.range, range.start ≤ range.stop

theorem validateOccurrence_ok_iff {sourceId : SourceUnitId} {occurrence : SourceOccurrence} :
    validateOccurrence sourceId occurrence = .ok () ↔ occurrence.ValidIn sourceId := by
  simp only [validateOccurrence, then_eq_ok_iff, validateProvenance_ok_iff, ensureFactSource_ok_iff,
    validateRange_ok_iff, SourceOccurrence.ValidIn, SourceRange.Within]

theorem validateSymbol_ok_iff {sourceId : SourceUnitId} {symbol : SymbolRecord} :
    validateSymbol sourceId symbol = .ok () ↔ symbol.ValidIn sourceId := by
  simp only [validateSymbol, then_eq_ok_iff, validateProvenance_ok_iff, ensureFactSource_ok_iff,
    validateRange_ok_iff, SymbolRecord.ValidIn, SourceRange.Within]
  tauto

theorem validateApplication_ok_iff {sourceId : SourceUnitId} {application : ApplicationFact} :
    validateApplication sourceId application = .ok () ↔ application.ValidIn sourceId := by
  simp only [validateApplication, then_eq_ok_iff, validateProvenance_ok_iff, ensureFactSource_ok_iff,
    validateRange_ok_iff, ApplicationFact.ValidIn, SourceRange.Within]

theorem validateDiagnostic_ok_iff {sourceId : SourceUnitId} {diagnostic : DiagnosticRecord} :
    validateDiagnostic sourceId diagnostic = .ok () ↔ diagnostic.ValidIn sourceId := by
  unfold validateDiagnostic DiagnosticRecord.ValidIn
  cases hrange : diagnostic.range with
  | none => simp [then_eq_ok_iff, validateProvenance_ok_iff, ensureFactSource_ok_iff]
  | some range =>
    simp [then_eq_ok_iff, validateProvenance_ok_iff, ensureFactSource_ok_iff, validateRange_ok_iff]

/-- What validation establishes of a snapshot Core asked for as `expected`. -/
structure ValidSnapshot (expected : SourceUnit) (snapshot : FileAnalysisSnapshot) : Prop where
  id : snapshot.sourceUnit.id = expected.id
  content : snapshot.sourceUnit.content = expected.content
  context : snapshot.sourceUnit.context = expected.context
  provenance : snapshot.provenance.Supported
  symbols : ∀ symbol ∈ snapshot.symbols, symbol.ValidIn expected.id
  applications : ∀ application ∈ snapshot.applications, application.ValidIn expected.id
  occurrences : ∀ occurrence ∈ snapshot.occurrences, occurrence.ValidIn expected.id
  references : ∀ reference ∈ snapshot.references, reference.source.ValidIn expected.id
  calls : ∀ call ∈ snapshot.calls, call.source.ValidIn expected.id
  hierarchy : ∀ edge ∈ snapshot.hierarchy, edge.provenance.Supported
  types : ∀ ty ∈ snapshot.types, ty.provenance.Supported
  diagnostics : ∀ diagnostic ∈ snapshot.diagnostics, diagnostic.ValidIn expected.id

theorem validateSnapshot_ok_iff {expected : SourceUnit} {snapshot : FileAnalysisSnapshot} :
    validateSnapshot expected snapshot = .ok () ↔ ValidSnapshot expected snapshot := by
  unfold validateSnapshot
  simp only [ite_error_eq_ok_iff, then_eq_ok_iff, forM_eq_ok_iff, validateProvenance_ok_iff,
    validateSymbol_ok_iff, validateApplication_ok_iff, validateOccurrence_ok_iff,
    validateDiagnostic_ok_iff, ne_eq, not_not, not_or]
  constructor
  · rintro ⟨h1, ⟨h2, h3⟩, h4, h5, h6, h7, h8, h9, h10, h11, h12⟩
    exact ⟨h1, h2, h3, h4, h5, h6, h7, h8, h9, h10, h11, h12⟩
  · rintro ⟨h1, h2, h3, h4, h5, h6, h7, h8, h9, h10, h11, h12⟩
    exact ⟨h1, ⟨h2, h3⟩, h4, h5, h6, h7, h8, h9, h10, h11, h12⟩

/-- Validation of what the worker sent against its own source unit: the id and the fingerprints
cannot fail. -/
theorem ValidSnapshot.self {expected : SourceUnit} {snapshot : FileAnalysisSnapshot}
    (h : ValidSnapshot expected snapshot) : ValidSnapshot snapshot.sourceUnit snapshot := by
  obtain ⟨h1, -, -, h4, h5, h6, h7, h8, h9, h10, h11, h12⟩ := h
  rw [← h1] at h5 h6 h7 h8 h9 h12
  exact ⟨rfl, rfl, rfl, h4, h5, h6, h7, h8, h9, h10, h11, h12⟩

end Kide
