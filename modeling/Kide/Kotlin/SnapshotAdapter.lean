import Kide.Kotlin.SnapshotJson
import Kide.Proto.RoundTrip

/-!
# The snapshot writer of the JVM worker

The worker writes a JSON snapshot as a message (`ProtobufAnalysisSnapshotAdapter.kt`), and Core reads the message by its own
tables (`WorkerAdapter`).

* `indexed_decodes`: the records of one kind, each with the position of its provenance, come back one by one;
* `snapshot_decodes_iff`: Core reads what the JSON says, unless this has a type alias or an empty list of strings in it.
-/

namespace Kide

namespace AnalysisSnapshotAdapter
open Checks Interns WorkerAdapter

/-! ## The writer -/

inductive WriteError where
  | notANumber (value : Int)
  | requirement (message : String)
deriving DecidableEq, Repr

/-- `jsonPrimitive.int` -/
def int (value : Nat) : Except WriteError Nat := if value < 2147483648 then .ok value else .error (.notANumber value)

/-- `jsonPrimitive.long` of an offset. -/
def long (value : Nat) : Except WriteError Nat :=
  if value < 9223372036854775808 then .ok value else .error (.notANumber value)

/-- `jsonPrimitive.long` of a literal. -/
def longLiteral (value : Int) : Except WriteError Int :=
  if -9223372036854775808 ≤ value ∧ value < 9223372036854775808 then .ok value else .error (.notANumber value)

def provenance (value : Provenance) : Except WriteError WorkerProto.Provenance := do
  let protocolVersion ← int value.protocolVersion
  pure ⟨value.backend, value.backendVersion, protocolVersion, value.analysisOptions.asStr⟩

def range (value : ByteRange) : Except WriteError WorkerProto.ByteRange := do
  let start ← long value.start
  let stop ← long value.stop
  pure ⟨start, stop⟩

/-- `ProtobufManifestAdapter.sourceUnit` -/
def sourceUnit (value : SourceUnitJson) : WorkerProto.SourceUnit :=
  ⟨value.id, value.component, value.path, value.language, value.origin, value.content, value.context⟩

def symbol (value : SymbolJson) : Except WriteError WorkerProto.SymbolDeclaration := do
  let backendSchemaVersion ← int value.backendKey.schemaVersion
  let declaration ← range value.declaration.bytes
  let nameRange ← range value.nameRange.bytes
  pure
    { id := value.id
      sourceUnitIndex := 0
      provenanceIndex := 0
      backendKey := value.backendKey.value
      backendSchemaVersion
      language := value.language
      kind := value.kind
      name := value.name
      qualifiedName := value.qualifiedName.contentOrNull
      signature := value.signature.contentOrNull
      declaration := some declaration
      nameRange := some nameRange
      ownerId := value.owner.contentOrNull
      modifiers := value.modifiers
      appliedSymbolIds := value.appliedSymbols.getD []
      freshness := value.freshness
      completeness := value.completeness
      componentId := value.component }

def occurrence (value : OccurrenceJson) : Except WriteError WorkerProto.Occurrence := do
  let range ← range value.range.bytes
  pure
    { location := some ⟨0, some range⟩
      kind := value.kind
      enclosingSymbolId := value.enclosingSymbol.contentOrNull
      targetSymbolId := value.target.contentOrNull
      typeId := value.typeId.contentOrNull
      precision := value.precision
      freshness := value.freshness
      completeness := value.completeness
      provenanceIndex := 0 }

def reference (value : ReferenceJson) (occurrenceIndex : Nat) : WorkerProto.ReferenceEdge :=
  ⟨occurrenceIndex, value.target, value.precision⟩

def call (value : CallJson) (occurrenceIndex : Nat) : WorkerProto.CallEdge :=
  ⟨occurrenceIndex, value.target, value.caller.contentOrNull, value.precision⟩

def hierarchy (value : HierarchyJson) : Except WriteError WorkerProto.HierarchyEdge :=
  .ok ⟨value.subtype, value.supertype, value.precision, 0⟩

/-- A list of strings goes beside an empty string. -/
def applicationArgument (value : ArgumentJson) : Except WriteError WorkerProto.ApplicationArgument := do
  let position ← int value.position
  let written : WorkerProto.ApplicationArgument := ⟨value.name.contentOrNull, position, none, []⟩
  match value.value with
  | .string text => pure { written with value := some (.stringValue text) }
  | .stringList texts => pure { written with value := some (.stringValue ""), stringListValue := texts }
  | .boolean flag => pure { written with value := some (.booleanValue flag) }
  | .integer number => do
    let number ← longLiteral number
    pure { written with value := some (.integerValue number) }

def application (value : ApplicationJson) : Except WriteError WorkerProto.ApplicationFact := do
  let range ← range value.range.bytes
  let arguments ← value.arguments.mapM applicationArgument
  pure
    { id := value.id
      subjectSymbolId := value.subject
      targetSymbolId := value.target
      range := some range
      arguments
      precision := value.precision
      freshness := value.freshness
      completeness := value.completeness
      provenanceIndex := 0 }

/-- The version of a key, if there is one. -/
def backendSchemaVersion : Option BackendKey → Except WriteError Nat
  | some key => int key.schemaVersion
  | none => .ok 0

def type (value : TypeJson) : Except WriteError WorkerProto.TypeRecord := do
  let backendSchemaVersion ← backendSchemaVersion value.backendKey.contentOrNull
  pure
    { id := value.id
      language := value.language
      display := value.display
      backendKey := value.backendKey.contentOrNull.map BackendKey.value
      backendSchemaVersion
      freshness := value.freshness
      completeness := value.completeness
      provenanceIndex := 0 }

def diagnostic (value : DiagnosticJson) : Except WriteError WorkerProto.Diagnostic := do
  let written ← value.range.contentOrNull.mapM range
  pure
    { sourceUnitIndex := 0
      range := written
      severity := value.severity
      code := value.code.contentOrNull
      message := value.message
      freshness := value.freshness
      completeness := value.completeness
      provenanceIndex := 0 }

/-- The position of a provenance among the collected ones, which gain it when it is new. -/
def provenanceIndex (values : List Provenance) (fact : Provenance) : Nat × List Provenance :=
  let existing := values.idxOf fact
  if existing < values.length then (existing, values) else (values.length, values ++ [fact])

/-- The records of one kind in order, each with the position of its provenance. -/
def indexed {α β : Type} (provenanceOf : α → Provenance) (write : α → Except WriteError β) (setIndex : β → Nat → β) :
    List Provenance → List α → Except WriteError (List β × List Provenance)
  | values, [] => pure ([], values)
  | values, record :: records => do
    let message ← write record
    let position := provenanceIndex values (provenanceOf record)
    let rest ← indexed provenanceOf write setIndex position.2 records
    pure (setIndex message position.1 :: rest.1, rest.2)

/-- The edges of one kind, each with the position of its occurrence. -/
def edges {α β : Type} (message : String) (sourceOf : α → OccurrenceJson) (write : α → Nat → β)
    (occurrences : List OccurrenceJson) (records : List α) : Except WriteError (List β) :=
  records.mapM fun record =>
    let index := occurrences.idxOf (sourceOf record)
    if index < occurrences.length then .ok (write record index) else .error (.requirement message)

def snapshot (value : SnapshotJson) : Except WriteError WorkerProto.FileAnalysisSnapshot := do
  let symbols ← indexed (fun record => factProvenance value.provenance record.provenance) symbol
    (fun message provenanceIndex => { message with provenanceIndex }) [value.provenance] value.symbols
  let occurrences ← indexed (fun record => factProvenance value.provenance record.provenance) occurrence
    (fun message provenanceIndex => { message with provenanceIndex }) symbols.2 value.occurrences
  let references ← edges "reference source occurrence is absent from snapshot" ReferenceJson.source reference
    value.occurrences value.references
  let calls ← edges "call source occurrence is absent from snapshot" CallJson.source call value.occurrences value.calls
  let hierarchy ← indexed (fun record => factProvenance value.provenance record.provenance) hierarchy
    (fun message provenanceIndex => { message with provenanceIndex }) occurrences.2 value.hierarchy
  let types ← indexed (fun record => factProvenance value.provenance record.provenance) type
    (fun message provenanceIndex => { message with provenanceIndex }) hierarchy.2 value.types
  let diagnostics ← indexed (fun record => factProvenance value.provenance record.provenance) diagnostic
    (fun message provenanceIndex => { message with provenanceIndex }) types.2 value.diagnostics
  let applications ← indexed (fun record => factProvenance value.provenance record.provenance) application
    (fun message provenanceIndex => { message with provenanceIndex }) diagnostics.2 (value.applications.getD [])
  let provenances ← applications.2.mapM provenance
  pure
    { sourceUnit := some (sourceUnit value.sourceUnit)
      structuralFingerprint := value.structuralFingerprint.contentOrNull
      publicApiFingerprint := value.publicApiFingerprint.contentOrNull
      provenances
      symbols := symbols.1
      applications := applications.1
      occurrences := occurrences.1
      references
      calls
      hierarchy := hierarchy.1
      types := types.1
      diagnostics := diagnostics.1
      completeness := value.completeness
      provenanceIndex := 0 }

/-! ## What the worker builds -/

/-- The languages of the worker. -/
def LANGUAGES : List String := ["kotlin", "java"]

def Provenance.Fits (value : Provenance) : Prop := value.protocolVersion < 2147483648

def ByteRange.Fits (value : ByteRange) : Prop := value.start < 9223372036854775808 ∧ value.stop < 9223372036854775808

/-- A range of its own source unit. -/
def Own (unit : String) (value : SourceRange) : Prop := value.sourceUnit.asStr = unit ∧ ByteRange.Fits value.bytes

/-- A key of the backend that supplied its fact. -/
def KeyOf (backend : String) (key : BackendKey) : Prop := key.backend = backend ∧ key.schemaVersion < 2147483648

def ArgumentJson.Fits (json : ArgumentJson) : Prop :=
  json.position < 2147483648 ∧
    ∀ number, json.value = .integer number → -9223372036854775808 ≤ number ∧ number < 9223372036854775808

structure SymbolJson.BuiltIn (unit : String) (snapshot : Provenance) (json : SymbolJson) : Prop where
  provenance : Provenance.Fits (factProvenance snapshot json.provenance)
  backendKey : KeyOf (factProvenance snapshot json.provenance).backend json.backendKey
  language : json.language ∈ LANGUAGES
  declaration : Own unit json.declaration
  nameRange : Own unit json.nameRange

structure OccurrenceJson.BuiltIn (unit : String) (snapshot : Provenance) (json : OccurrenceJson) : Prop where
  provenance : Provenance.Fits (factProvenance snapshot json.provenance)
  range : Own unit json.range

structure ApplicationJson.BuiltIn (unit : String) (snapshot : Provenance) (json : ApplicationJson) : Prop where
  provenance : Provenance.Fits (factProvenance snapshot json.provenance)
  range : Own unit json.range
  arguments : ∀ argument ∈ json.arguments, argument.Fits

structure TypeJson.Built (snapshot : Provenance) (json : TypeJson) : Prop where
  provenance : Provenance.Fits (factProvenance snapshot json.provenance)
  backendKey : ∀ key ∈ json.backendKey.contentOrNull, KeyOf (factProvenance snapshot json.provenance).backend key
  language : json.language ∈ LANGUAGES

structure DiagnosticJson.BuiltIn (unit : String) (snapshot : Provenance) (json : DiagnosticJson) : Prop where
  provenance : Provenance.Fits (factProvenance snapshot json.provenance)
  sourceUnit : json.sourceUnit = unit
  range : ∀ range ∈ json.range.contentOrNull, ByteRange.Fits range

/-- What the extractors put into a snapshot: facts of one source unit in a language of the worker, with keys of the backend of
their provenance, edges from its occurrences, and numbers of the JVM. -/
structure SnapshotJson.Built (json : SnapshotJson) : Prop where
  provenance : Provenance.Fits json.provenance
  language : json.sourceUnit.language ∈ LANGUAGES
  symbols : ∀ symbol ∈ json.symbols, symbol.BuiltIn json.sourceUnit.id json.provenance
  occurrences : ∀ occurrence ∈ json.occurrences, occurrence.BuiltIn json.sourceUnit.id json.provenance
  references : ∀ reference ∈ json.references, reference.source ∈ json.occurrences
  calls : ∀ call ∈ json.calls, call.source ∈ json.occurrences
  hierarchy : ∀ edge ∈ json.hierarchy, Provenance.Fits (factProvenance json.provenance edge.provenance)
  types : ∀ type ∈ json.types, type.Built json.provenance
  diagnostics : ∀ diagnostic ∈ json.diagnostics, diagnostic.BuiltIn json.sourceUnit.id json.provenance
  applications : ∀ application ∈ json.applications.getD [], application.BuiltIn json.sourceUnit.id json.provenance

/-! ## The two tables -/

theorem language_named {text : String} {value : Language} (h : Language.named text = some value) (hknown : text ∈ LANGUAGES) :
    language text = value := by
  simp only [LANGUAGES, List.mem_cons, List.not_mem_nil, or_false] at hknown
  rcases hknown with rfl | rfl <;> cases h <;> rfl

theorem sourceOrigin_named {text : String} {value : SourceOrigin} (h : SourceOrigin.named text = some value) :
    sourceOrigin text = .ok value := by
  unfold SourceOrigin.named at h
  split at h <;> cases h <;> rfl

theorem freshness_named {text : String} {value : Freshness} (h : Freshness.named text = some value) :
    freshness text = .ok value := by
  unfold Freshness.named at h
  split at h <;> cases h <;> rfl

theorem completeness_named {text : String} {value : Completeness} (h : Completeness.named text = some value) :
    completeness text = .ok value := by
  unfold Completeness.named at h
  split at h <;> cases h <;> rfl

theorem precision_named {text : String} {value : Precision} (h : Precision.named text = some value) :
    precision text = .ok value := by
  unfold Precision.named at h
  split at h <;> cases h <;> rfl

theorem occurrenceKind_named {text : String} {value : OccurrenceKind} (h : OccurrenceKind.named text = some value) :
    occurrenceKind text = .ok value := by
  unfold OccurrenceKind.named at h
  split at h <;> cases h <;> rfl

theorem severity_named {text : String} {value : DiagnosticSeverity} (h : DiagnosticSeverity.named text = some value) :
    severity text = .ok value := by
  unfold DiagnosticSeverity.named at h
  split at h <;> cases h <;> rfl

/-- Core knows a type alias by its `Debug` name alone. -/
theorem symbolKind_named_iff {text : String} {value : SymbolKind} (h : SymbolKind.named text = some value) :
    symbolKind text = .ok value ↔ text ≠ "type_alias" := by
  unfold SymbolKind.named at h
  split at h <;> cases h <;> decide

/-! ## Numbers -/

theorem int_eq {value : Nat} (h : value < 2147483648) : int value = .ok value := if_pos h

theorem provenance_eq {value : Provenance} (h : Provenance.Fits value) : provenance value = .ok (protoProvenance value) := by
  unfold provenance
  rw [int_eq h]
  rfl

theorem range_eq {value : ByteRange} (h : ByteRange.Fits value) : range value = .ok (protoRange value) := by
  unfold range long
  rw [if_pos h.1, if_pos h.2]
  rfl

theorem own_eq {unit : SourceUnit} {value : SourceRange} (h : Own unit.id.asStr value) :
    (⟨unit.id, decodeRange (protoRange value.bytes)⟩ : SourceRange) = value := by
  rcases value with ⟨⟨source⟩, bytes⟩
  obtain rfl : source = unit.id.asStr := h.1
  rfl

/-! ## Facts -/

section Facts

variable {unit : SourceUnit} {snapshotProvenance : Provenance}

theorem symbol_decodes {json : SymbolJson} (h : json.BuiltIn unit.id.asStr snapshotProvenance) :
    ∃ message, symbol json = .ok message ∧ ∀ index value, json.denote snapshotProvenance = some value →
      (decodeSymbolDeclaration { message with provenanceIndex := index } unit
        (factProvenance snapshotProvenance json.provenance) = .ok value ↔ json.kind ≠ "type_alias") := by
  unfold symbol
  rw [int_eq h.backendKey.2, range_eq h.declaration.2, range_eq h.nameRange.2]
  refine ⟨_, rfl, fun index value hvalue => ?_⟩
  simp only [SymbolJson.denote, Option.bind_eq_bind, Option.bind_eq_some_iff, Option.pure_def, Option.some.injEq] at hvalue
  obtain ⟨written, hwritten, kind, hkind, state, hstate, whole, hwhole, rfl⟩ := hvalue
  unfold decodeSymbolDeclaration
  simp only [required, freshness_named hstate, completeness_named hwhole, language_named hwritten h.language, ok_bind, pure_eq_ok,
    own_eq h.declaration, own_eq h.nameRange, ← h.backendKey.1]
  rw [bind_eq_ok_iff, ← symbolKind_named_iff hkind]
  constructor
  · rintro ⟨decoded, hdecoded, heq⟩
    cases heq
    exact hdecoded
  · intro hdecoded
    exact ⟨kind, hdecoded, rfl⟩

theorem occurrence_decodes {json : OccurrenceJson} (h : json.BuiltIn unit.id.asStr snapshotProvenance) :
    ∃ message, occurrence json = .ok message ∧ ∀ index value, json.denote snapshotProvenance = some value →
      decodeOccurrence { message with provenanceIndex := index } unit
        (factProvenance snapshotProvenance json.provenance) = .ok value := by
  unfold occurrence
  rw [range_eq h.range.2]
  refine ⟨_, rfl, fun index value hvalue => ?_⟩
  simp only [OccurrenceJson.denote, Option.bind_eq_bind, Option.bind_eq_some_iff, Option.pure_def, Option.some.injEq] at hvalue
  obtain ⟨kind, hkind, written, hwritten, state, hstate, whole, hwhole, rfl⟩ := hvalue
  unfold decodeOccurrence
  simp only [required, ownSource, occurrenceKind_named hkind, precision_named hwritten, freshness_named hstate,
    completeness_named hwhole, ok_bind, pure_eq_ok, own_eq h.range, ne_eq, not_true_eq_false, if_false]

theorem hierarchy_decodes {json : HierarchyJson} :
    ∃ message, hierarchy json = .ok message ∧ ∀ index value, json.denote snapshotProvenance = some value →
      decodeHierarchyEdge { message with provenanceIndex := index } (factProvenance snapshotProvenance json.provenance) =
        .ok value := by
  refine ⟨_, rfl, fun index value hvalue => ?_⟩
  simp only [HierarchyJson.denote, Option.bind_eq_bind, Option.bind_eq_some_iff, Option.pure_def, Option.some.injEq] at hvalue
  obtain ⟨written, hwritten, rfl⟩ := hvalue
  unfold decodeHierarchyEdge
  simp only [precision_named hwritten, ok_bind, pure_eq_ok]

theorem type_decodes {json : TypeJson} (h : json.Built snapshotProvenance) :
    ∃ message, type json = .ok message ∧ ∀ index value, json.denote snapshotProvenance = some value →
      decodeTypeRecord { message with provenanceIndex := index } (factProvenance snapshotProvenance json.provenance) =
        .ok value := by
  have hkey := h.backendKey
  unfold type
  cases hread : json.backendKey.contentOrNull with
  | none =>
    refine ⟨_, rfl, fun index value hvalue => ?_⟩
    simp only [TypeJson.denote, Option.bind_eq_bind, Option.bind_eq_some_iff, Option.pure_def, Option.some.injEq, hread] at hvalue
    obtain ⟨written, hwritten, state, hstate, whole, hwhole, rfl⟩ := hvalue
    unfold decodeTypeRecord
    simp only [freshness_named hstate, completeness_named hwhole, language_named hwritten h.language, ok_bind, pure_eq_ok,
      Option.map_none]
  | some key =>
    obtain ⟨hbackend, hversion⟩ := hkey key hread
    rw [backendSchemaVersion, int_eq hversion]
    refine ⟨_, rfl, fun index value hvalue => ?_⟩
    simp only [TypeJson.denote, Option.bind_eq_bind, Option.bind_eq_some_iff, Option.pure_def, Option.some.injEq, hread] at hvalue
    obtain ⟨written, hwritten, state, hstate, whole, hwhole, rfl⟩ := hvalue
    unfold decodeTypeRecord
    simp only [freshness_named hstate, completeness_named hwhole, language_named hwritten h.language, ok_bind, pure_eq_ok,
      Option.map_some, ← hbackend]

theorem diagnostic_decodes {json : DiagnosticJson} (h : json.BuiltIn unit.id.asStr snapshotProvenance) :
    ∃ message, diagnostic json = .ok message ∧ ∀ index value, json.denote snapshotProvenance = some value →
      decodeDiagnostic { message with provenanceIndex := index } unit
        (factProvenance snapshotProvenance json.provenance) = .ok value := by
  have hrange : json.range.contentOrNull.mapM range = Except.ok (json.range.contentOrNull.map protoRange) := by
    cases hread : json.range.contentOrNull with
    | none => rfl
    | some bytes =>
      rw [Option.mapM_some, range_eq (h.range bytes hread)]
      rfl
  unfold diagnostic
  rw [hrange]
  refine ⟨_, rfl, fun index value hvalue => ?_⟩
  simp only [DiagnosticJson.denote, Option.bind_eq_bind, Option.bind_eq_some_iff, Option.pure_def, Option.some.injEq] at hvalue
  obtain ⟨written, hwritten, state, hstate, whole, hwhole, rfl⟩ := hvalue
  unfold decodeDiagnostic
  simp only [ownSource, severity_named hwritten, freshness_named hstate, completeness_named hwhole, ok_bind, pure_eq_ok,
    option_map_round_trip decodeRange_proto, h.sourceUnit, ne_eq, not_true_eq_false, if_false]

/-- An empty list of strings is read as the empty string beside it. -/
theorem argument_decodes {json : ArgumentJson} (h : json.Fits) :
    ∃ message, applicationArgument json = .ok message ∧
      (decodeApplicationArgument message = .ok json.denote ↔ json.value ≠ .stringList []) := by
  rcases json with ⟨name, position, value⟩
  obtain ⟨hposition, hnumber⟩ := h
  unfold applicationArgument
  rw [int_eq hposition]
  cases value with
  | string text => exact ⟨_, rfl, iff_of_true rfl (by simp)⟩
  | stringList texts =>
    refine ⟨_, rfl, ?_⟩
    cases texts with
    | nil => simp [decodeApplicationArgument, required, ok_bind, pure_eq_ok, decodeArgumentValue, ArgumentJson.denote]
    | cons text texts => simp [decodeApplicationArgument, ArgumentJson.denote]
  | boolean flag => exact ⟨_, rfl, iff_of_true rfl (by simp)⟩
  | integer number =>
    have hlong : longLiteral number = .ok number := if_pos (hnumber number rfl)
    simp only [ok_bind, hlong]
    exact ⟨_, rfl, iff_of_true rfl (by simp)⟩

theorem arguments_decode {json : List ArgumentJson} (h : ∀ argument ∈ json, argument.Fits) :
    ∃ messages, json.mapM applicationArgument = .ok messages ∧
      (messages.mapM decodeApplicationArgument = .ok (json.map ArgumentJson.denote) ↔
        ∀ argument ∈ json, argument.value ≠ .stringList []) := by
  induction json with
  | nil => exact ⟨[], rfl, iff_of_true rfl (by simp)⟩
  | cons argument rest ih =>
    obtain ⟨hargument, hrest⟩ := List.forall_mem_cons.1 h
    obtain ⟨message, hmessage, hdecode⟩ := argument_decodes hargument
    obtain ⟨messages, hmessages, hdecodes⟩ := ih hrest
    refine ⟨message :: messages, ?_, ?_⟩
    · rw [List.mapM_cons, hmessage, ok_bind, hmessages]
      rfl
    · rw [mapM_eq_ok_iff, List.map_cons, List.forall₂_cons, ← mapM_eq_ok_iff, hdecode, hdecodes, List.forall_mem_cons]

theorem application_decodes {json : ApplicationJson} (h : json.BuiltIn unit.id.asStr snapshotProvenance) :
    ∃ message, application json = .ok message ∧ ∀ index value, json.denote snapshotProvenance = some value →
      (decodeApplicationFact { message with provenanceIndex := index } unit
        (factProvenance snapshotProvenance json.provenance) = .ok value ↔
          ∀ argument ∈ json.arguments, argument.value ≠ .stringList []) := by
  obtain ⟨arguments, harguments, hdecode⟩ := arguments_decode h.arguments
  unfold application
  rw [range_eq h.range.2, harguments]
  refine ⟨_, rfl, fun index value hvalue => ?_⟩
  simp only [ApplicationJson.denote, Option.bind_eq_bind, Option.bind_eq_some_iff, Option.pure_def, Option.some.injEq] at hvalue
  obtain ⟨written, hwritten, state, hstate, whole, hwhole, rfl⟩ := hvalue
  unfold decodeApplicationFact
  simp only [required, precision_named hwritten, freshness_named hstate, completeness_named hwhole, ok_bind, pure_eq_ok,
    own_eq h.range]
  rw [bind_eq_ok_iff, ← hdecode]
  constructor
  · rintro ⟨decoded, hdecoded, heq⟩
    cases heq
    exact hdecoded
  · intro hdecoded
    exact ⟨_, hdecoded, rfl⟩

end Facts

/-! ## Lists of facts -/

theorem provenanceIndex_eq (values : List Provenance) (fact : Provenance) :
    provenanceIndex values fact = ((intern values fact).idxOf fact, intern values fact) := by
  unfold provenanceIndex intern
  by_cases h : fact ∈ values
  · rw [if_pos (List.idxOf_lt_length_iff.2 h), if_pos h]
  · rw [if_neg fun hlt => h (List.idxOf_lt_length_iff.1 hlt), if_neg h, List.idxOf_append_of_notMem h, List.idxOf_cons_self,
      Nat.add_zero]

section Lists

variable {α β γ : Type} {provenanceOf : α → Provenance} {write : α → Except WriteError β} {setIndex : β → Nat → β}
  {field : String} {indexOf : β → Nat} {decode : β → Provenance → Except AdapterError γ} {denote : α → Option γ}

theorem decodeIndexed_cons_iff {provenances : List Provenance} {message : β} {messages : List β} {value : γ} {values : List γ} :
    decodeIndexed field indexOf decode provenances (message :: messages) = .ok (value :: values) ↔
      (∃ fact, provenances[indexOf message]? = some fact ∧ decode message fact = .ok value) ∧
        decodeIndexed field indexOf decode provenances messages = .ok values := by
  unfold decodeIndexed
  simp only [mapM_eq_ok_iff, List.forall₂_cons, bind_eq_ok_iff, indexedProvenance, required_eq_ok_iff]

/-- A record comes back as what it says exactly if `fits` holds of it, with its provenance at its place in the end. -/
theorem indexed_decodes {fits : α → Prop} {provenances : List Provenance}
    (hindex : ∀ message index, indexOf (setIndex message index) = index) {records : List α}
    (hwrite : ∀ record ∈ records, ∃ message, write record = .ok message ∧ ∀ index value, denote record = some value →
      (decode (setIndex message index) (provenanceOf record) = .ok value ↔ fits record))
    {out : List γ} (hdenote : records.mapM denote = some out) {values : List Provenance}
    (hall : internAll values (records.map provenanceOf) <+: provenances) :
    ∃ messages, indexed provenanceOf write setIndex values records =
        .ok (messages, internAll values (records.map provenanceOf)) ∧
      (decodeIndexed field indexOf decode provenances messages = .ok out ↔ ∀ record ∈ records, fits record) := by
  induction records generalizing out values with
  | nil =>
    cases hdenote
    exact ⟨[], rfl, iff_of_true rfl (by simp)⟩
  | cons record records ih =>
    obtain ⟨hrecord, hrecords⟩ := List.forall_mem_cons.1 hwrite
    obtain ⟨message, hmessage, hdecode⟩ := hrecord
    rw [mapM_eq_some_iff, List.forall₂_cons_left_iff] at hdenote
    obtain ⟨value, rest, hvalue, hrest, rfl⟩ := hdenote
    obtain ⟨messages, hmessages, hdecodes⟩ := ih hrecords (mapM_eq_some_iff.2 hrest) hall
    refine ⟨setIndex message ((intern values (provenanceOf record)).idxOf (provenanceOf record)) :: messages, ?_, ?_⟩
    · unfold indexed
      simp only [hmessage, ok_bind, provenanceIndex_eq, hmessages]
      rfl
    · have hhere : intern values (provenanceOf record) <+: provenances :=
        (prefix_internAll _ (records.map provenanceOf)).trans hall
      have hmem := mem_intern_self values (provenanceOf record)
      rw [← idxOf_stable hhere hmem, decodeIndexed_cons_iff, hdecodes, hindex, getElem?_idxOf (hhere.subset hmem),
        List.forall_mem_cons]
      refine and_congr_left' ?_
      rw [← hdecode _ value hvalue]
      constructor
      · rintro ⟨fact, hfact, hvalue⟩
        cases hfact
        exact hvalue
      · intro hvalue
        exact ⟨_, rfl, hvalue⟩

theorem indexed_decodes_all {provenances : List Provenance} (hindex : ∀ message index, indexOf (setIndex message index) = index)
    {records : List α} (hwrite : ∀ record ∈ records, ∃ message, write record = .ok message ∧
      ∀ index value, denote record = some value → decode (setIndex message index) (provenanceOf record) = .ok value)
    {out : List γ} (hdenote : records.mapM denote = some out) {values : List Provenance}
    (hall : internAll values (records.map provenanceOf) <+: provenances) :
    ∃ messages, indexed provenanceOf write setIndex values records =
        .ok (messages, internAll values (records.map provenanceOf)) ∧
      decodeIndexed field indexOf decode provenances messages = .ok out := by
  have hfits : ∀ record ∈ records, ∃ message, write record = .ok message ∧ ∀ index value, denote record = some value →
      (decode (setIndex message index) (provenanceOf record) = .ok value ↔ True) := by
    intro record hrecord
    obtain ⟨message, hmessage, hdecode⟩ := hwrite record hrecord
    exact ⟨message, hmessage, fun index value hvalue => iff_true_intro (hdecode index value hvalue)⟩
  obtain ⟨messages, hmessages, hdecodes⟩ := indexed_decodes hindex hfits hdenote hall
  exact ⟨messages, hmessages, hdecodes.2 fun _ _ => trivial⟩

/-- The results of a list of computations at the position of an argument. -/
theorem getElem?_of_mapM [DecidableEq α] {records : List α} {out : List γ} (h : records.mapM denote = some out) {record : α}
    (hmem : record ∈ records) {value : γ} (hvalue : denote record = some value) :
    out[records.idxOf record]? = some value := by
  rw [mapM_eq_some_iff] at h
  have hlt := List.idxOf_lt_length_of_mem hmem
  have hat := h.get hlt (h.length_eq ▸ hlt)
  rw [List.get_eq_getElem, List.getElem_idxOf, hvalue] at hat
  rw [List.getElem?_eq_getElem (h.length_eq ▸ hlt)]
  exact hat.symm

/-- Edges come back with the occurrences they start at. -/
theorem edges_decode (message : String) {snapshotProvenance : Provenance} {sourceOf : α → OccurrenceJson} {write : α → Nat → β}
    {decode : β → List SourceOccurrence → Except AdapterError γ} {occurrences : List OccurrenceJson}
    {decoded : List SourceOccurrence} (hdecoded : occurrences.mapM (OccurrenceJson.denote snapshotProvenance) = some decoded)
    {records : List α} (hsource : ∀ record ∈ records, sourceOf record ∈ occurrences) {out : List γ}
    (hdenote : records.mapM denote = some out)
    (hdecode : ∀ record value, denote record = some value → ∃ source,
      (sourceOf record).denote snapshotProvenance = some source ∧
        ∀ index, decoded[index]? = some source → decode (write record index) decoded = .ok value) :
    ∃ messages, edges message sourceOf write occurrences records = .ok messages ∧
      (messages.mapM fun edge => decode edge decoded) = .ok out := by
  refine ⟨records.map fun record => write record (occurrences.idxOf (sourceOf record)), ?_, ?_⟩
  · refine mapM_eq_ok_map_iff.2 fun record hrecord => ?_
    exact if_pos (List.idxOf_lt_length_of_mem (hsource record hrecord))
  · rw [mapM_eq_some_iff] at hdenote
    rw [mapM_eq_ok_iff, List.forall₂_map_left_iff]
    induction hdenote with
    | nil => exact List.Forall₂.nil
    | cons hvalue _ ih =>
      obtain ⟨hrecord, hrecords⟩ := List.forall_mem_cons.1 hsource
      obtain ⟨source, hread, hedge⟩ := hdecode _ _ hvalue
      exact List.Forall₂.cons (hedge _ (getElem?_of_mapM hdecoded hrecord hread)) (ih hrecords)

end Lists

theorem reference_decodes {snapshotProvenance : Provenance} {decoded : List SourceOccurrence} (json : ReferenceJson)
    (value : ReferenceEdge) (h : json.denote snapshotProvenance = some value) :
    ∃ source, json.source.denote snapshotProvenance = some source ∧
      ∀ index, decoded[index]? = some source → decodeReferenceEdge (reference json index) decoded = .ok value := by
  simp only [ReferenceJson.denote, Option.bind_eq_bind, Option.bind_eq_some_iff, Option.pure_def, Option.some.injEq] at h
  obtain ⟨source, hsource, written, hwritten, rfl⟩ := h
  refine ⟨source, hsource, fun index hat => ?_⟩
  unfold decodeReferenceEdge
  simp only [reference, hat, required, precision_named hwritten, ok_bind, pure_eq_ok]

theorem call_decodes {snapshotProvenance : Provenance} {decoded : List SourceOccurrence} (json : CallJson) (value : CallEdge)
    (h : json.denote snapshotProvenance = some value) :
    ∃ source, json.source.denote snapshotProvenance = some source ∧
      ∀ index, decoded[index]? = some source → decodeCallEdge (call json index) decoded = .ok value := by
  simp only [CallJson.denote, Option.bind_eq_bind, Option.bind_eq_some_iff, Option.pure_def, Option.some.injEq] at h
  obtain ⟨source, hsource, written, hwritten, rfl⟩ := h
  refine ⟨source, hsource, fun index hat => ?_⟩
  unfold decodeCallEdge
  simp only [call, hat, required, precision_named hwritten, ok_bind, pure_eq_ok]

/-! ## Snapshots -/

namespace SnapshotJson

variable (json : SnapshotJson)

/-! The distinct provenances after each kind of facts, in the order the writer goes through them. -/

def provenancesOf {α : Type} (provenance : α → Member Provenance) (records : List α) : List Provenance :=
  records.map fun record => factProvenance json.provenance (provenance record)

def symbolProvenances : List Provenance := internAll [json.provenance] (json.provenancesOf SymbolJson.provenance json.symbols)

def occurrenceProvenances : List Provenance :=
  internAll json.symbolProvenances (json.provenancesOf OccurrenceJson.provenance json.occurrences)

def hierarchyProvenances : List Provenance :=
  internAll json.occurrenceProvenances (json.provenancesOf HierarchyJson.provenance json.hierarchy)

def typeProvenances : List Provenance :=
  internAll json.hierarchyProvenances (json.provenancesOf TypeJson.provenance json.types)

def diagnosticProvenances : List Provenance :=
  internAll json.typeProvenances (json.provenancesOf DiagnosticJson.provenance json.diagnostics)

def provenances : List Provenance :=
  internAll json.diagnosticProvenances (json.provenancesOf ApplicationJson.provenance (json.applications.getD []))

variable {json}

theorem Built.fits (h : json.Built) : ∀ fact ∈ json.provenances, Provenance.Fits fact := by
  intro fact hmem
  simp only [provenances, diagnosticProvenances, typeProvenances, hierarchyProvenances, occurrenceProvenances, symbolProvenances,
    provenancesOf, mem_internAll, List.mem_singleton, List.mem_map, or_assoc] at hmem
  rcases hmem with rfl | ⟨r, hr, rfl⟩ | ⟨r, hr, rfl⟩ | ⟨r, hr, rfl⟩ | ⟨r, hr, rfl⟩ | ⟨r, hr, rfl⟩ | ⟨r, hr, rfl⟩
  · exact h.provenance
  · exact (h.symbols r hr).provenance
  · exact (h.occurrences r hr).provenance
  · exact h.hierarchy r hr
  · exact (h.types r hr).provenance
  · exact (h.diagnostics r hr).provenance
  · exact (h.applications r hr).provenance

end SnapshotJson

theorem sourceUnit_decodes {json : SourceUnitJson} {value : SourceUnit} (h : json.denote = some value)
    (hlanguage : json.language ∈ LANGUAGES) : decodeSourceUnit (sourceUnit json) = .ok value := by
  simp only [SourceUnitJson.denote, Option.bind_eq_bind, Option.bind_eq_some_iff, Option.pure_def, Option.some.injEq] at h
  obtain ⟨written, hwritten, origin, horigin, rfl⟩ := h
  unfold decodeSourceUnit sourceUnit
  simp only [sourceOrigin_named horigin, language_named hwritten hlanguage, ok_bind, pure_eq_ok]

theorem sourceUnit_id {json : SourceUnitJson} {value : SourceUnit} (h : json.denote = some value) : json.id = value.id.asStr := by
  simp only [SourceUnitJson.denote, Option.bind_eq_bind, Option.bind_eq_some_iff, Option.pure_def, Option.some.injEq] at h
  obtain ⟨written, -, origin, -, rfl⟩ := h
  rfl

section Snapshot

variable {json : SnapshotJson} {unit : SourceUnit}

/-! Every list of provenances on the way is a prefix of the last one. -/

theorem diagnosticProvenances_prefix : json.diagnosticProvenances <+: json.provenances := prefix_internAll _ _

theorem typeProvenances_prefix : json.typeProvenances <+: json.provenances :=
  (prefix_internAll _ _).trans diagnosticProvenances_prefix

theorem hierarchyProvenances_prefix : json.hierarchyProvenances <+: json.provenances :=
  (prefix_internAll _ _).trans typeProvenances_prefix

theorem occurrenceProvenances_prefix : json.occurrenceProvenances <+: json.provenances :=
  (prefix_internAll _ _).trans hierarchyProvenances_prefix

theorem symbolProvenances_prefix : json.symbolProvenances <+: json.provenances :=
  (prefix_internAll _ _).trans occurrenceProvenances_prefix

theorem provenances_first : json.provenances[0]? = some json.provenance := by
  have hprefix : [json.provenance] <+: json.provenances := (prefix_internAll _ _).trans symbolProvenances_prefix
  obtain ⟨rest, hrest⟩ := hprefix
  rw [← hrest]
  rfl

theorem symbols_decode (h : json.Built) (hunit : json.sourceUnit.denote = some unit) {symbols : List SymbolRecord}
    (hsymbols : json.symbols.mapM (SymbolJson.denote json.provenance) = some symbols) :
    ∃ messages, indexed (fun record => factProvenance json.provenance record.provenance) symbol
        (fun message provenanceIndex => { message with provenanceIndex }) [json.provenance] json.symbols =
          .ok (messages, json.symbolProvenances) ∧
      (decodeIndexed "symbol.provenance_index" WorkerProto.SymbolDeclaration.provenanceIndex
        (fun record => decodeSymbolDeclaration record unit) json.provenances messages = .ok symbols ↔
          ∀ symbol ∈ json.symbols, symbol.kind ≠ "type_alias") :=
  indexed_decodes (fun _ _ => rfl) (fun record hrecord => symbol_decodes (sourceUnit_id hunit ▸ h.symbols record hrecord))
    hsymbols symbolProvenances_prefix

theorem applications_decode (h : json.Built) (hunit : json.sourceUnit.denote = some unit) {applications : List ApplicationFact}
    (happlications : (json.applications.getD []).mapM (ApplicationJson.denote json.provenance) = some applications) :
    ∃ messages, indexed (fun record => factProvenance json.provenance record.provenance) application
        (fun message provenanceIndex => { message with provenanceIndex }) json.diagnosticProvenances
          (json.applications.getD []) = .ok (messages, json.provenances) ∧
      (decodeIndexed "application.provenance_index" WorkerProto.ApplicationFact.provenanceIndex
        (fun record => decodeApplicationFact record unit) json.provenances messages = .ok applications ↔
          ∀ application ∈ json.applications.getD [], ∀ argument ∈ application.arguments, argument.value ≠ .stringList []) :=
  indexed_decodes (fun _ _ => rfl)
    (fun record hrecord => application_decodes (sourceUnit_id hunit ▸ h.applications record hrecord)) happlications
    List.prefix_rfl

theorem occurrences_decode (h : json.Built) (hunit : json.sourceUnit.denote = some unit) {occurrences : List SourceOccurrence}
    (hoccurrences : json.occurrences.mapM (OccurrenceJson.denote json.provenance) = some occurrences) :
    ∃ messages, indexed (fun record => factProvenance json.provenance record.provenance) occurrence
        (fun message provenanceIndex => { message with provenanceIndex }) json.symbolProvenances json.occurrences =
          .ok (messages, json.occurrenceProvenances) ∧
      decodeIndexed "occurrence.provenance_index" WorkerProto.Occurrence.provenanceIndex
        (fun record => decodeOccurrence record unit) json.provenances messages = .ok occurrences :=
  indexed_decodes_all (fun _ _ => rfl)
    (fun record hrecord => occurrence_decodes (sourceUnit_id hunit ▸ h.occurrences record hrecord)) hoccurrences
    occurrenceProvenances_prefix

theorem hierarchy_decode {hierarchy : List HierarchyEdge}
    (hhierarchy : json.hierarchy.mapM (HierarchyJson.denote json.provenance) = some hierarchy) :
    ∃ messages, indexed (fun record => factProvenance json.provenance record.provenance)
        AnalysisSnapshotAdapter.hierarchy (fun message provenanceIndex => { message with provenanceIndex })
          json.occurrenceProvenances json.hierarchy = .ok (messages, json.hierarchyProvenances) ∧
      decodeIndexed "hierarchy.provenance_index" WorkerProto.HierarchyEdge.provenanceIndex decodeHierarchyEdge
        json.provenances messages = .ok hierarchy :=
  indexed_decodes_all (fun _ _ => rfl) (fun _ _ => hierarchy_decodes) hhierarchy hierarchyProvenances_prefix

theorem types_decode (h : json.Built) {types : List TypeRecord}
    (htypes : json.types.mapM (TypeJson.denote json.provenance) = some types) :
    ∃ messages, indexed (fun record => factProvenance json.provenance record.provenance) type
        (fun message provenanceIndex => { message with provenanceIndex }) json.hierarchyProvenances json.types =
          .ok (messages, json.typeProvenances) ∧
      decodeIndexed "type.provenance_index" WorkerProto.TypeRecord.provenanceIndex decodeTypeRecord json.provenances messages =
        .ok types :=
  indexed_decodes_all (fun _ _ => rfl) (fun record hrecord => type_decodes (h.types record hrecord)) htypes
    typeProvenances_prefix

theorem diagnostics_decode (h : json.Built) (hunit : json.sourceUnit.denote = some unit) {diagnostics : List DiagnosticRecord}
    (hdiagnostics : json.diagnostics.mapM (DiagnosticJson.denote json.provenance) = some diagnostics) :
    ∃ messages, indexed (fun record => factProvenance json.provenance record.provenance) diagnostic
        (fun message provenanceIndex => { message with provenanceIndex }) json.typeProvenances json.diagnostics =
          .ok (messages, json.diagnosticProvenances) ∧
      decodeIndexed "diagnostic.provenance_index" WorkerProto.Diagnostic.provenanceIndex
        (fun record => decodeDiagnostic record unit) json.provenances messages = .ok diagnostics :=
  indexed_decodes_all (fun _ _ => rfl)
    (fun record hrecord => diagnostic_decodes (sourceUnit_id hunit ▸ h.diagnostics record hrecord)) hdiagnostics
    diagnosticProvenances_prefix

/-- **The snapshot adapter.** Core reads the message of a snapshot the worker builds as what the snapshot says, unless this has
a type alias or an empty list of strings in it. -/
theorem snapshot_decodes_iff {value : FileAnalysisSnapshot} (h : json.Built) (hdenote : json.denote = some value) :
    (∃ message, snapshot json = .ok message ∧ decodeFileAnalysisSnapshot message = .ok value) ↔
      (∀ symbol ∈ json.symbols, symbol.kind ≠ "type_alias") ∧
        ∀ application ∈ json.applications.getD [], ∀ argument ∈ application.arguments, argument.value ≠ .stringList [] := by
  simp only [SnapshotJson.denote, Option.bind_eq_bind, Option.bind_eq_some_iff, Option.pure_def, Option.some.injEq] at hdenote
  obtain ⟨unit, hunit, symbols, hsymbols, applications, happlications, occurrences, hoccurrences, references, hreferences, calls,
    hcalls, hierarchy, hhierarchy, types, htypes, diagnostics, hdiagnostics, whole, hwhole, rfl⟩ := hdenote
  obtain ⟨symbolMessages, hwriteSymbols, hreadSymbols⟩ := symbols_decode h hunit hsymbols
  obtain ⟨applicationMessages, hwriteApplications, hreadApplications⟩ := applications_decode h hunit happlications
  obtain ⟨occurrenceMessages, hwriteOccurrences, hreadOccurrences⟩ := occurrences_decode h hunit hoccurrences
  obtain ⟨hierarchyMessages, hwriteHierarchy, hreadHierarchy⟩ := hierarchy_decode hhierarchy
  obtain ⟨typeMessages, hwriteTypes, hreadTypes⟩ := types_decode h htypes
  obtain ⟨diagnosticMessages, hwriteDiagnostics, hreadDiagnostics⟩ := diagnostics_decode h hunit hdiagnostics
  obtain ⟨referenceMessages, hwriteReferences, hreadReferences⟩ := edges_decode
    "reference source occurrence is absent from snapshot" hoccurrences h.references hreferences reference_decodes
  obtain ⟨callMessages, hwriteCalls, hreadCalls⟩ := edges_decode
    "call source occurrence is absent from snapshot" hoccurrences h.calls hcalls call_decodes
  have hprovenances : json.provenances.mapM provenance = .ok (json.provenances.map protoProvenance) :=
    mapM_eq_ok_map_iff.2 fun fact hfact => provenance_eq (h.fits fact hfact)
  unfold snapshot
  simp only [hwriteSymbols, hwriteOccurrences, hwriteReferences, hwriteCalls, hwriteHierarchy, hwriteTypes, hwriteDiagnostics,
    hwriteApplications, hprovenances, ok_bind, pure_eq_ok, Except.ok.injEq, exists_eq_left']
  rw [decode_ok_iff]
  have hread : (json.provenances.map protoProvenance).map WorkerAdapter.provenance = json.provenances :=
    list_map_round_trip provenance_proto _
  constructor
  · intro hto
    have hsymbol := hto.symbols
    have happlication := hto.applications
    dsimp only at hsymbol happlication
    rw [hread] at hsymbol happlication
    exact ⟨hreadSymbols.1 hsymbol, hreadApplications.1 happlication⟩
  · rintro ⟨hsymbol, happlication⟩
    refine ⟨⟨_, rfl, sourceUnit_decodes hunit h.language⟩, rfl, rfl, ?_, ?_, ?_, ?_, hreadReferences, hreadCalls, ?_, ?_, ?_,
      completeness_named hwhole⟩ <;> dsimp only <;> rw [hread]
    · exact required_eq_ok_iff.2 provenances_first
    · exact hreadSymbols.2 hsymbol
    · exact hreadApplications.2 happlication
    · exact hreadOccurrences
    · exact hreadHierarchy
    · exact hreadTypes
    · exact hreadDiagnostics

end Snapshot

end AnalysisSnapshotAdapter

end Kide
