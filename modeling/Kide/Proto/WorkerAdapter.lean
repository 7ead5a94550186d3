import Kide.Proto.Worker

/-!
# The worker snapshot adapter

Conversion between canonical snapshots and worker messages (`worker_proto_adapter.rs`). Core spells an
enumeration by its `Debug` name in lower case and reads it back by a table of literals; provenances are
collected in a list of distinct records and occurrences are referred to by position.
-/

namespace Kide

inductive AdapterError where
  | missing (field : String)
  | unsupported (value : String)
  | invalid (field : String)
deriving DecidableEq, Repr

namespace WorkerAdapter

/-! ## Enumerations -/

def symbolKind (value : String) : Except AdapterError SymbolKind :=
  match value with
  | "package" => .ok .package
  | "module" => .ok .module
  | "class" => .ok .class_
  | "interface" => .ok .interface
  | "object" => .ok .object
  | "enum" => .ok .enum
  | "function" => .ok .function
  | "method" => .ok .method
  | "constructor" => .ok .constructor
  | "property" => .ok .property
  | "field" => .ok .field
  | "parameter" => .ok .parameter
  | "typealias" => .ok .typeAlias
  | "other" => .ok .other
  | other => .error (.unsupported ("symbol kind " ++ other))

def freshness (value : String) : Except AdapterError Freshness :=
  match value with
  | "fresh" => .ok .fresh
  | "stale" => .ok .stale
  | "unknown" => .ok .unknown
  | "unsupported" => .ok .unsupported
  | other => .error (.unsupported ("freshness " ++ other))

def completeness (value : String) : Except AdapterError Completeness :=
  match value with
  | "complete" => .ok .complete
  | "partial" => .ok .partially
  | "failed" => .ok .failed
  | other => .error (.unsupported ("completeness " ++ other))

def precision (value : String) : Except AdapterError Precision :=
  match value with
  | "exact" => .ok .exact
  | "approximate" => .ok .approximate
  | other => .error (.unsupported ("precision " ++ other))

def occurrenceKind (value : String) : Except AdapterError OccurrenceKind :=
  match value with
  | "declaration" => .ok .declaration
  | "reference" => .ok .reference
  | "call" => .ok .call
  | "type_reference" => .ok .typeReference
  | "import" => .ok .import_
  | other => .error (.unsupported ("occurrence kind " ++ other))

def severity (value : String) : Except AdapterError DiagnosticSeverity :=
  match value with
  | "error" => .ok .error
  | "warning" => .ok .warning
  | "information" => .ok .information
  | "hint" => .ok .hint
  | other => .error (.unsupported ("diagnostic severity " ++ other))

def language (value : String) : Language :=
  match value with
  | "kotlin" => .kotlin
  | "java" => .java
  | "rust" => .rust
  | "typescript" => .typeScript
  | other => .other other

def protoLanguage : Language → String
  | .kotlin => "kotlin"
  | .java => "java"
  | .rust => "rust"
  | .typeScript => "typescript"
  | .other value => value

def sourceOrigin (value : String) : Except AdapterError SourceOrigin :=
  match value with
  | "source" => .ok .source
  | "generated" => .ok .generated
  | "dependency" => .ok .dependency
  | other => .error (.unsupported ("source origin " ++ other))

def protoSourceOrigin : SourceOrigin → String
  | .source => "source"
  | .generated => "generated"
  | .dependency => "dependency"

/-! ## Source units and provenances -/

def sourceUnit (value : SourceUnit) : WorkerProto.SourceUnit where
  id := value.id.asStr
  component := value.component.asStr
  path := value.path.asStr
  language := protoLanguage value.language
  origin := protoSourceOrigin value.origin
  content := value.content.asStr
  context := value.context.asStr

def decodeSourceUnit (value : WorkerProto.SourceUnit) : Except AdapterError SourceUnit := do
  let origin ← sourceOrigin value.origin
  pure
    { id := ⟨value.id⟩
      component := ⟨value.component⟩
      path := ⟨value.path⟩
      language := language value.language
      origin
      content := ⟨value.content⟩
      context := ⟨value.context⟩ }

def protoProvenance (value : Provenance) : WorkerProto.Provenance where
  backend := value.backend
  backendVersion := value.backendVersion
  protocolVersion := value.protocolVersion
  analysisOptionsFingerprint := value.analysisOptions.asStr

def provenance (value : WorkerProto.Provenance) : Provenance where
  backend := value.backend
  backendVersion := value.backendVersion
  protocolVersion := value.protocolVersion
  analysisOptions := ⟨value.analysisOptionsFingerprint⟩

def protoRange (value : ByteRange) : WorkerProto.ByteRange := ⟨value.start, value.stop⟩

def decodeRange (value : WorkerProto.ByteRange) : ByteRange := ⟨value.start, value.stop⟩

/-- `ok_or(AdapterError::Missing(field))` -/
def required {α : Type} (field : String) : Option α → Except AdapterError α
  | some value => .ok value
  | none => .error (.missing field)

/-! ## Facts -/

def symbolDeclaration (value : SymbolRecord) : WorkerProto.SymbolDeclaration where
  id := value.id.asStr
  sourceUnitIndex := 0
  provenanceIndex := 0
  backendKey := value.backendKey.value
  backendSchemaVersion := value.backendKey.schemaVersion
  language := protoLanguage value.language
  kind := value.kind.debug.toLower
  name := value.name
  qualifiedName := value.qualifiedName
  signature := value.signature
  declaration := some (protoRange value.declaration.bytes)
  nameRange := some (protoRange value.nameRange.bytes)
  ownerId := value.owner.map (·.asStr)
  modifiers := value.modifiers
  appliedSymbolIds := value.appliedSymbols.map (·.asStr)
  freshness := value.freshness.debug.toLower
  completeness := value.completeness.debug.toLower
  componentId := value.component.asStr

def decodeSymbolDeclaration (value : WorkerProto.SymbolDeclaration) (sourceUnit : SourceUnit) (provenance : Provenance) :
    Except AdapterError SymbolRecord := do
  let declaration ← required "symbol.declaration" value.declaration
  let nameRange ← required "symbol.name_range" value.nameRange
  let kind ← symbolKind value.kind
  let freshness ← freshness value.freshness
  let completeness ← completeness value.completeness
  pure
    { id := ⟨value.id⟩
      backendKey := ⟨provenance.backend, value.backendSchemaVersion, value.backendKey⟩
      language := language value.language
      kind
      name := value.name
      qualifiedName := value.qualifiedName
      signature := value.signature
      component := ⟨value.componentId⟩
      declaration := ⟨sourceUnit.id, decodeRange declaration⟩
      nameRange := ⟨sourceUnit.id, decodeRange nameRange⟩
      owner := value.ownerId.map (⟨·⟩)
      modifiers := value.modifiers
      appliedSymbols := value.appliedSymbolIds.map (⟨·⟩)
      freshness
      completeness
      provenance }

def occurrence (value : SourceOccurrence) : WorkerProto.Occurrence where
  location := some ⟨0, some (protoRange value.range.bytes)⟩
  kind := value.kind.debug.toLower
  enclosingSymbolId := value.enclosingSymbol.map (·.asStr)
  targetSymbolId := value.target.map (·.asStr)
  typeId := value.typeId.map (·.asStr)
  precision := value.precision.debug.toLower
  freshness := value.freshness.debug.toLower
  completeness := value.completeness.debug.toLower
  provenanceIndex := 0

/-- A source unit index other than the snapshot's own. -/
def ownSource (record : String) (sourceUnitIndex : Nat) : Except AdapterError Unit :=
  if sourceUnitIndex ≠ 0 then .error (.unsupported ("cross-snapshot " ++ record ++ " source")) else .ok ()

def decodeOccurrence (value : WorkerProto.Occurrence) (sourceUnit : SourceUnit) (provenance : Provenance) :
    Except AdapterError SourceOccurrence := do
  let location ← required "occurrence.location" value.location
  let range ← required "occurrence.location.range" location.range
  ownSource "occurrence" location.sourceUnitIndex
  let kind ← occurrenceKind value.kind
  let precision ← precision value.precision
  let freshness ← freshness value.freshness
  let completeness ← completeness value.completeness
  pure
    { range := ⟨sourceUnit.id, decodeRange range⟩
      kind
      enclosingSymbol := value.enclosingSymbolId.map (⟨·⟩)
      target := value.targetSymbolId.map (⟨·⟩)
      typeId := value.typeId.map (⟨·⟩)
      precision
      freshness
      completeness
      provenance }

def referenceEdge (value : ReferenceEdge) (sourceOccurrenceIndex : Nat) : WorkerProto.ReferenceEdge where
  sourceOccurrenceIndex
  targetSymbolId := value.target.asStr
  precision := value.precision.debug.toLower

def decodeReferenceEdge (value : WorkerProto.ReferenceEdge) (occurrences : List SourceOccurrence) :
    Except AdapterError ReferenceEdge := do
  let source ← required "reference.source_occurrence" occurrences[value.sourceOccurrenceIndex]?
  let precision ← precision value.precision
  pure { source, target := ⟨value.targetSymbolId⟩, precision }

def callEdge (value : CallEdge) (sourceOccurrenceIndex : Nat) : WorkerProto.CallEdge where
  sourceOccurrenceIndex
  targetSymbolId := value.target.asStr
  callerSymbolId := value.caller.map (·.asStr)
  precision := value.precision.debug.toLower

def decodeCallEdge (value : WorkerProto.CallEdge) (occurrences : List SourceOccurrence) : Except AdapterError CallEdge := do
  let source ← required "call.source_occurrence" occurrences[value.sourceOccurrenceIndex]?
  let precision ← precision value.precision
  pure { source, target := ⟨value.targetSymbolId⟩, caller := value.callerSymbolId.map (⟨·⟩), precision }

def hierarchyEdge (value : HierarchyEdge) : WorkerProto.HierarchyEdge where
  subtypeSymbolId := value.subtype.asStr
  supertypeSymbolId := value.supertype.asStr
  precision := value.precision.debug.toLower
  provenanceIndex := 0

def decodeHierarchyEdge (value : WorkerProto.HierarchyEdge) (provenance : Provenance) : Except AdapterError HierarchyEdge := do
  let precision ← precision value.precision
  pure { subtype := ⟨value.subtypeSymbolId⟩, supertype := ⟨value.supertypeSymbolId⟩, precision, provenance }

def typeRecord (value : TypeRecord) : WorkerProto.TypeRecord where
  id := value.id.asStr
  language := protoLanguage value.language
  display := value.display
  backendKey := value.backendKey.map (·.value)
  backendSchemaVersion := (value.backendKey.map (·.schemaVersion)).getD 0
  freshness := value.freshness.debug.toLower
  completeness := value.completeness.debug.toLower
  provenanceIndex := 0

def decodeTypeRecord (value : WorkerProto.TypeRecord) (provenance : Provenance) : Except AdapterError TypeRecord := do
  let freshness ← freshness value.freshness
  let completeness ← completeness value.completeness
  pure
    { id := ⟨value.id⟩
      language := language value.language
      display := value.display
      backendKey := value.backendKey.map fun key => ⟨provenance.backend, value.backendSchemaVersion, key⟩
      freshness
      completeness
      provenance }

def diagnostic (value : DiagnosticRecord) : WorkerProto.Diagnostic where
  sourceUnitIndex := 0
  range := value.range.map protoRange
  severity := value.severity.debug.toLower
  code := value.code
  message := value.message
  freshness := value.freshness.debug.toLower
  completeness := value.completeness.debug.toLower
  provenanceIndex := 0

def decodeDiagnostic (value : WorkerProto.Diagnostic) (sourceUnit : SourceUnit) (provenance : Provenance) :
    Except AdapterError DiagnosticRecord := do
  ownSource "diagnostic" value.sourceUnitIndex
  let severity ← severity value.severity
  let freshness ← freshness value.freshness
  let completeness ← completeness value.completeness
  pure
    { sourceUnit := sourceUnit.id
      range := value.range.map decodeRange
      severity
      code := value.code
      message := value.message
      freshness
      completeness
      provenance }

/-- A list of strings travels beside the `oneof`, which then holds an empty string. -/
def applicationArgument (value : ApplicationArgument) : WorkerProto.ApplicationArgument where
  name := value.name
  position := value.position
  value := some (match value.value with
    | .string value => .stringValue value
    | .stringList _ => .stringValue ""
    | .boolean value => .booleanValue value
    | .integer value => .integerValue value)
  stringListValue := match value.value with
    | .stringList values => values
    | _ => []

def decodeArgumentValue : WorkerProto.ArgumentValue → ApplicationValue
  | .stringValue value => .string value
  | .booleanValue value => .boolean value
  | .integerValue value => .integer value

def decodeApplicationArgument (value : WorkerProto.ApplicationArgument) : Except AdapterError ApplicationArgument :=
  if value.stringListValue ≠ [] then
    .ok { name := value.name, position := value.position, value := .stringList value.stringListValue }
  else do
    let argument ← required "application.argument.value" value.value
    pure { name := value.name, position := value.position, value := decodeArgumentValue argument }

def applicationFact (value : ApplicationFact) : WorkerProto.ApplicationFact where
  id := value.id.asStr
  subjectSymbolId := value.subject.asStr
  targetSymbolId := value.target.asStr
  range := some (protoRange value.range.bytes)
  arguments := value.arguments.map applicationArgument
  precision := value.precision.debug.toLower
  freshness := value.freshness.debug.toLower
  completeness := value.completeness.debug.toLower
  provenanceIndex := 0

def decodeApplicationFact (value : WorkerProto.ApplicationFact) (source : SourceUnit) (provenance : Provenance) :
    Except AdapterError ApplicationFact := do
  let range ← required "application.range" value.range
  let arguments ← value.arguments.mapM decodeApplicationArgument
  let precision ← precision value.precision
  let freshness ← freshness value.freshness
  let completeness ← completeness value.completeness
  pure
    { id := ⟨value.id⟩
      subject := ⟨value.subjectSymbolId⟩
      target := ⟨value.targetSymbolId⟩
      range := ⟨source.id, decodeRange range⟩
      arguments
      precision
      freshness
      completeness
      provenance }

/-! ## Snapshots -/

/-- The position of a provenance among the collected ones, which gain it when it is new. -/
def provenanceIndex (values : List Provenance) (value : Provenance) : Nat × List Provenance :=
  match values.findIdx? (· = value) with
  | some index => (asU32 index, values)
  | none => (asU32 values.length, values ++ [value])

/-- Encodes the records of one kind in order, each with the index of its provenance. -/
def indexProvenances {α β : Type} (provenanceOf : α → Provenance) (encode : α → Nat → β) :
    List Provenance → List α → List β × List Provenance
  | values, [] => ([], values)
  | values, record :: records =>
    let indexed := provenanceIndex values (provenanceOf record)
    let rest := indexProvenances provenanceOf encode indexed.2 records
    (encode record indexed.1 :: rest.1, rest.2)

def occurrenceIndex (occurrences : List SourceOccurrence) (occurrence : SourceOccurrence) : Except AdapterError Nat :=
  match occurrences.findIdx? (· = occurrence) with
  | some index => .ok (asU32 index)
  | none => .error (.missing "relation.source_occurrence")

def fileAnalysisSnapshot (value : FileAnalysisSnapshot) : Except AdapterError WorkerProto.FileAnalysisSnapshot := do
  let symbols := indexProvenances SymbolRecord.provenance
    (fun record provenanceIndex => { symbolDeclaration record with provenanceIndex }) [value.provenance] value.symbols
  let applications := indexProvenances ApplicationFact.provenance
    (fun record provenanceIndex => { applicationFact record with provenanceIndex }) symbols.2 value.applications
  let occurrences := indexProvenances SourceOccurrence.provenance
    (fun record provenanceIndex => { occurrence record with provenanceIndex }) applications.2 value.occurrences
  let references ← value.references.mapM fun edge => do
    let index ← occurrenceIndex value.occurrences edge.source
    pure (referenceEdge edge index)
  let calls ← value.calls.mapM fun edge => do
    let index ← occurrenceIndex value.occurrences edge.source
    pure (callEdge edge index)
  let hierarchy := indexProvenances HierarchyEdge.provenance
    (fun record provenanceIndex => { hierarchyEdge record with provenanceIndex }) occurrences.2 value.hierarchy
  let types := indexProvenances TypeRecord.provenance
    (fun record provenanceIndex => { typeRecord record with provenanceIndex }) hierarchy.2 value.types
  let diagnostics := indexProvenances DiagnosticRecord.provenance
    (fun record provenanceIndex => { diagnostic record with provenanceIndex }) types.2 value.diagnostics
  pure
    { sourceUnit := some (sourceUnit value.sourceUnit)
      structuralFingerprint := value.structuralFingerprint.map (·.asStr)
      publicApiFingerprint := value.publicApiFingerprint.map (·.asStr)
      provenances := diagnostics.2.map protoProvenance
      symbols := symbols.1
      applications := applications.1
      occurrences := occurrences.1
      references
      calls
      hierarchy := hierarchy.1
      types := types.1
      diagnostics := diagnostics.1
      completeness := value.completeness.debug.toLower
      provenanceIndex := 0 }

def indexedProvenance (values : List Provenance) (index : Nat) (field : String) : Except AdapterError Provenance :=
  required field values[index]?

/-- Decodes the records of one kind, each with the provenance its index names. -/
def decodeIndexed {α β : Type} (field : String) (indexOf : α → Nat) (decode : α → Provenance → Except AdapterError β)
    (provenances : List Provenance) (records : List α) : Except AdapterError (List β) :=
  records.mapM fun record => do
    let provenance ← indexedProvenance provenances (indexOf record) field
    decode record provenance

def decodeFileAnalysisSnapshot (value : WorkerProto.FileAnalysisSnapshot) : Except AdapterError FileAnalysisSnapshot := do
  let proto ← required "snapshot.source_unit" value.sourceUnit
  let sourceUnit ← decodeSourceUnit proto
  let provenances := value.provenances.map provenance
  let snapshotProvenance ← indexedProvenance provenances value.provenanceIndex "snapshot.provenance_index"
  let symbols ← decodeIndexed "symbol.provenance_index" WorkerProto.SymbolDeclaration.provenanceIndex
    (fun record => decodeSymbolDeclaration record sourceUnit) provenances value.symbols
  let applications ← decodeIndexed "application.provenance_index" WorkerProto.ApplicationFact.provenanceIndex
    (fun record => decodeApplicationFact record sourceUnit) provenances value.applications
  let occurrences ← decodeIndexed "occurrence.provenance_index" WorkerProto.Occurrence.provenanceIndex
    (fun record => decodeOccurrence record sourceUnit) provenances value.occurrences
  let references ← value.references.mapM fun edge => decodeReferenceEdge edge occurrences
  let calls ← value.calls.mapM fun edge => decodeCallEdge edge occurrences
  let hierarchy ← decodeIndexed "hierarchy.provenance_index" WorkerProto.HierarchyEdge.provenanceIndex
    decodeHierarchyEdge provenances value.hierarchy
  let types ← decodeIndexed "type.provenance_index" WorkerProto.TypeRecord.provenanceIndex decodeTypeRecord
    provenances value.types
  let diagnostics ← decodeIndexed "diagnostic.provenance_index" WorkerProto.Diagnostic.provenanceIndex
    (fun record => decodeDiagnostic record sourceUnit) provenances value.diagnostics
  let completeness ← completeness value.completeness
  pure
    { sourceUnit
      structuralFingerprint := value.structuralFingerprint.map (⟨·⟩)
      publicApiFingerprint := value.publicApiFingerprint.map (⟨·⟩)
      symbols
      applications
      occurrences
      references
      calls
      hierarchy
      types
      diagnostics
      completeness
      provenance := snapshotProvenance }

end WorkerAdapter

end Kide
