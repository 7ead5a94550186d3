import Mathlib.Data.String.Basic
import Kide.Kotlin.PublicApi
import Kide.Kotlin.SnapshotAdapter

/-!
# Messages of structural snapshots

The snapshot of a Kotlin file by its structure (`KotlinStructuralExtractor`) is one the adapter is made for: `analyze_built` and
`analyze_canonical`. A file with a type alias has one Core does not read.
-/

namespace Kide

/-- `put(name, value)` of a `String?`. -/
def Member.ofNullable {α : Type} : Option α → Member α
  | some value => .present value
  | none => .null

namespace KotlinStructuralExtractor
open AnalysisSnapshotAdapter Checks

/-! ## The JSON of the extractor -/

def SymbolJson.toJson (json : SymbolJson) : AnalysisSnapshotAdapter.SymbolJson where
  id := json.id
  backendKey := json.backendKey
  language := json.language
  kind := json.kind
  name := json.name
  qualifiedName := .present json.qualifiedName
  signature := .ofNullable json.signature
  component := json.component
  declaration := json.declaration
  nameRange := json.nameRange
  owner := .ofNullable json.owner
  modifiers := json.modifiers
  appliedSymbols := some json.appliedSymbols
  freshness := json.freshness
  completeness := json.completeness
  provenance := .present json.provenance

def OccurrenceJson.toJson (json : OccurrenceJson) : AnalysisSnapshotAdapter.OccurrenceJson where
  range := json.range
  kind := json.kind
  enclosingSymbol := .ofNullable json.enclosingSymbol
  target := .ofNullable json.target
  typeId := .ofNullable json.typeId
  precision := json.precision
  freshness := json.freshness
  completeness := json.completeness
  provenance := .present json.provenance

def DiagnosticJson.toJson (json : DiagnosticJson) : AnalysisSnapshotAdapter.DiagnosticJson where
  sourceUnit := json.sourceUnit
  range := .present json.range
  severity := json.severity
  code := .present json.code
  message := json.message
  freshness := json.freshness
  completeness := json.completeness
  provenance := .present json.provenance

/-- `ProtobufManifestAdapter.json` of the source unit Core sends. -/
def sourceUnitJson (value : SourceUnit) : SourceUnitJson :=
  ⟨value.id.asStr, value.component.asStr, value.path.asStr, WorkerAdapter.protoLanguage value.language,
    WorkerAdapter.protoSourceOrigin value.origin, value.content.asStr, value.context.asStr⟩

def SnapshotJson.toJson (json : SnapshotJson) : AnalysisSnapshotAdapter.SnapshotJson where
  sourceUnit := sourceUnitJson json.sourceUnit
  structuralFingerprint := .present json.structuralFingerprint
  publicApiFingerprint := .present json.publicApiFingerprint
  symbols := json.symbols.map SymbolJson.toJson
  occurrences := json.occurrences.map OccurrenceJson.toJson
  references := []
  calls := []
  hierarchy := []
  types := []
  diagnostics := json.diagnostics.map DiagnosticJson.toJson
  applications := none
  completeness := json.completeness
  provenance := json.provenance

/-! ## Offsets -/

theorem utf8OffsetIn_le {chars : List Char} {utf16Offset offset : Nat} (h : utf8OffsetIn chars utf16Offset = some offset) :
    offset ≤ String.utf8Len chars := by
  induction chars generalizing utf16Offset offset with
  | nil =>
    cases utf16Offset with
    | zero =>
      cases h
      exact Nat.zero_le _
    | succ _ => cases h
  | cons c rest ih =>
    cases utf16Offset with
    | zero =>
      cases h
      exact Nat.zero_le _
    | succ utf16Offset =>
      unfold utf8OffsetIn at h
      split at h
      · obtain ⟨inner, hinner, rfl⟩ := Option.map_eq_some_iff.1 h
        have hle := ih hinner
        rw [String.utf8Len_cons]
        omega
      · cases h

section Facts

variable {file : KtFile} {source : SourceUnit} {contents : String}

theorem byteRange_fits {range : TextRange} {bytes : ByteRange} (h : byteRange contents range = some bytes)
    (hlength : contents.utf8ByteSize < 9223372036854775808) : ByteRange.Fits bytes := by
  simp only [byteRange, Option.bind_eq_bind, Option.bind_eq_some_iff, Option.pure_def, Option.some.injEq] at h
  obtain ⟨start, hstart, stop, hstop, rfl⟩ := h
  have hstart := utf8OffsetIn_le hstart
  have hstop := utf8OffsetIn_le hstop
  rw [String.utf8Len_toList] at hstart hstop
  exact ⟨lt_of_le_of_lt hstart hlength, lt_of_le_of_lt hstop hlength⟩

theorem sourceRange_own {range : TextRange} {value : SourceRange} (h : sourceRange source contents range = some value)
    (hlength : contents.utf8ByteSize < 9223372036854775808) : Own source.id.asStr value := by
  simp only [sourceRange, Option.bind_eq_bind, Option.bind_eq_some_iff, Option.pure_def, Option.some.injEq] at h
  obtain ⟨bytes, hbytes, rfl⟩ := h
  exact ⟨rfl, byteRange_fits hbytes hlength⟩

/-! ## Symbols -/

/-- The kinds a declaration can have. -/
def KINDS : List String :=
  ["interface", "enum", "class", "object", "method", "function", "constructor", "field", "property", "parameter", "type_alias",
    "other"]

theorem symbolKind_mem (declaration : Located) : symbolKind declaration ∈ KINDS := by
  unfold symbolKind
  split <;> first | decide | (split <;> first | decide | (split <;> decide))

/-- What the three kinds of declarations give: a fact of the file in Kotlin. -/
structure FactOf (source : SourceUnit) (contents : String) (json : SymbolJson) : Prop where
  backendKey : json.backendKey.backend = "kide-kotlin-jvm" ∧ json.backendKey.schemaVersion = 1
  language : json.language = "kotlin"
  kind : json.kind ∈ KINDS
  declaration : ∃ range, sourceRange source contents range = some json.declaration
  nameRange : ∃ range, sourceRange source contents range = some json.nameRange
  states : json.freshness = "fresh" ∧ json.completeness = "partial"
  provenance : json.provenance = provenance source.context.asStr

theorem symbolFact_of {kind name key : String} {offset : Nat} {qualifiedName : String} {signature owner : Option String}
    {range nameRange : TextRange} {modifiers : List String} {fact : SymbolFact} (hkind : kind ∈ KINDS)
    (h : symbolFact source contents kind name key offset qualifiedName signature owner range nameRange modifiers = some fact) :
    FactOf source contents fact.json := by
  simp only [symbolFact, Option.bind_eq_bind, Option.bind_eq_some_iff, Option.pure_def, Option.some.injEq] at h
  obtain ⟨declaration, hdeclaration, nameBytes, hname, rfl⟩ := h
  exact ⟨⟨rfl, rfl⟩, rfl, hkind, ⟨range, hdeclaration⟩, ⟨nameRange, hname⟩, ⟨rfl, rfl⟩, rfl⟩

theorem namedFact_of {declaration : Located} {read : Option SymbolFact} {fact : SymbolFact}
    (h : namedFact file source contents declaration = some read) (hread : read = some fact) : FactOf source contents fact.json := by
  unfold namedFact at h
  split at h
  · cases h
    exact symbolFact_of (symbolKind_mem declaration) hread
  · cases h

theorem primaryConstructorFact_of {owner : Located} {read : Option SymbolFact} {fact : SymbolFact}
    (h : primaryConstructorFact file source contents owner = some read) (hread : read = some fact) :
    FactOf source contents fact.json := by
  unfold primaryConstructorFact at h
  split at h
  · cases h
    exact symbolFact_of (by decide) hread
  · cases h

theorem constructorFact_of {constructor : Located} {read : Option SymbolFact} {fact : SymbolFact}
    (h : constructorFact file source contents constructor = some read) (hread : read = some fact) :
    FactOf source contents fact.json := by
  unfold constructorFact at h
  split at h
  · cases h
    exact symbolFact_of (by decide) hread
  · cases h

theorem facts_of {read : Located → Option (Option SymbolFact)} {all : List SymbolFact} (h : facts read file = some all)
    {fact : SymbolFact} (hmem : fact ∈ all) : ∃ located value, read located = some value ∧ value = some fact := by
  unfold facts at h
  rw [mapM_eq_some_iff] at h
  obtain ⟨value, hvalue, heq⟩ := forall₂_exists_mem h.flip hmem
  obtain ⟨located, -, hread⟩ := List.mem_filterMap.1 hvalue
  exact ⟨located, value, hread, heq⟩

theorem symbols_of {text : JsonText} {all : List SymbolFact} (h : symbols text file source contents = some all) {fact : SymbolFact}
    (hmem : fact ∈ all) : FactOf source contents fact.json := by
  simp only [symbols, Option.bind_eq_bind, Option.bind_eq_some_iff, Option.pure_def, Option.some.injEq] at h
  obtain ⟨named, hnamed, primary, hprimary, secondary, hsecondary, rfl⟩ := h
  rw [List.mem_insertionSort, List.mem_append, List.mem_append] at hmem
  rcases hmem with hmem | hmem | hmem
  · obtain ⟨located, value, hread, heq⟩ := facts_of hnamed hmem
    exact namedFact_of hread heq
  · obtain ⟨located, value, hread, heq⟩ := facts_of hprimary hmem
    exact primaryConstructorFact_of hread heq
  · obtain ⟨located, value, hread, heq⟩ := facts_of hsecondary hmem
    exact constructorFact_of hread heq

/-! ## Occurrences and diagnostics -/

def OCCURRENCE_KINDS : List String := ["import", "type_reference", "call", "reference"]

theorem occurrence_of {kind : String} {ranges : List TextRange} {all : List OccurrenceJson}
    (h : ranges.mapM (occurrence source contents kind) = some all) {json : OccurrenceJson} (hmem : json ∈ all) :
    ∃ range value, sourceRange source contents range = some value ∧
      json = ⟨value, kind, none, none, none, "approximate", "fresh", "partial", provenance source.context.asStr⟩ := by
  rw [mapM_eq_some_iff] at h
  obtain ⟨range, -, heq⟩ := forall₂_exists_mem h.flip hmem
  simp only [occurrence, Option.bind_eq_bind, Option.bind_eq_some_iff, Option.pure_def, Option.some.injEq] at heq
  obtain ⟨value, hvalue, heq⟩ := heq
  exact ⟨range, value, hvalue, heq.symm⟩

theorem occurrences_of {text : JsonText} {declarationRanges : List (Nat × Nat)} {all : List OccurrenceJson}
    (h : occurrences text file source contents declarationRanges = some all) {json : OccurrenceJson} (hmem : json ∈ all) :
    ∃ kind ∈ OCCURRENCE_KINDS, ∃ range value, sourceRange source contents range = some value ∧
      json = ⟨value, kind, none, none, none, "approximate", "fresh", "partial", provenance source.context.asStr⟩ := by
  simp only [occurrences, Option.bind_eq_bind, Option.bind_eq_some_iff, Option.pure_def, Option.some.injEq] at h
  obtain ⟨imports, himports, types, htypes, calls, hcalls, references, hreferences, rfl⟩ := h
  rw [List.mem_insertionSort] at hmem
  have hmem := (mem_foldl_distinct [] hmem).resolve_left List.not_mem_nil
  simp only [List.mem_append, or_assoc] at hmem
  rcases hmem with hmem | hmem | hmem | hmem
  · exact ⟨_, by decide, occurrence_of himports hmem⟩
  · exact ⟨_, by decide, occurrence_of htypes hmem⟩
  · exact ⟨_, by decide, occurrence_of hcalls hmem⟩
  · exact ⟨_, by decide, occurrence_of hreferences hmem⟩

theorem diagnostics_of {all : List DiagnosticJson} (h : diagnostics file source contents = some all) {json : DiagnosticJson}
    (hmem : json ∈ all) : ∃ range bytes message, byteRange contents range = some bytes ∧
      json = ⟨source.id.asStr, bytes, "error", "kotlin_parse_error", message, "fresh", "partial", provenance source.context.asStr⟩ := by
  unfold diagnostics at h
  rw [mapM_eq_some_iff] at h
  obtain ⟨error, -, heq⟩ := forall₂_exists_mem h.flip hmem
  simp only [Option.bind_eq_bind, Option.bind_eq_some_iff, Option.pure_def, Option.some.injEq] at heq
  obtain ⟨bytes, hbytes, heq⟩ := heq
  exact ⟨error.2, bytes, error.1, hbytes, heq.symm⟩

/-! ## Snapshots -/

theorem analyze_parts {text : JsonText} {json : SnapshotJson} (h : analyze text file source contents = some json) :
    json.sourceUnit = source ∧ json.completeness = "partial" ∧ json.provenance = provenance source.context.asStr ∧
      (∀ symbol ∈ json.symbols, FactOf source contents symbol) ∧
      (∃ ranges, occurrences text file source contents ranges = some json.occurrences) ∧
      diagnostics file source contents = some json.diagnostics := by
  simp only [analyze, Option.bind_eq_bind, Option.bind_eq_some_iff, Option.pure_def, Option.some.injEq] at h
  obtain ⟨symbols, hsymbols, occurrences, hoccurrences, diagnostics, hdiagnostics, rfl⟩ := h
  refine ⟨rfl, rfl, rfl, fun symbol hmem => ?_, ⟨_, hoccurrences⟩, hdiagnostics⟩
  obtain ⟨fact, hfact, rfl⟩ := List.mem_map.1 hmem
  exact symbols_of hsymbols hfact

/-- The extractor builds what the adapter is made for. -/
theorem analyze_built {text : JsonText} {json : SnapshotJson} (h : analyze text file source contents = some json)
    (hlanguage : source.language = .kotlin) (hlength : contents.utf8ByteSize < 9223372036854775808) : json.toJson.Built := by
  obtain ⟨hsource, -, hprovenance, hsymbols, ⟨ranges, hoccurrences⟩, hdiagnostics⟩ := analyze_parts h
  have hfits (fact : Provenance) : Provenance.Fits (factProvenance fact (.present (provenance source.context.asStr))) :=
    show (3 : Nat) < 2147483648 by decide
  refine ⟨?_, ?_, ?_, ?_, ?_, ?_, ?_, ?_, ?_, ?_⟩ <;>
    simp only [SnapshotJson.toJson, List.not_mem_nil, List.forall_mem_map, false_implies, implies_true, hsource, hprovenance,
      Option.getD_none]
  · exact hfits (provenance source.context.asStr)
  · rw [sourceUnitJson, hlanguage]
    exact List.mem_cons_self
  · intro symbol hmem
    obtain ⟨hkey, hkotlin, -, ⟨_, hdeclaration⟩, ⟨_, hname⟩, -, hown⟩ := hsymbols symbol hmem
    refine ⟨?_, ?_, ?_, sourceRange_own hdeclaration hlength, sourceRange_own hname hlength⟩ <;>
      simp only [SymbolJson.toJson, hown, hkotlin]
    · exact hfits _
    · exact ⟨hkey.1, by rw [hkey.2]; decide⟩
    · decide
  · intro occurrence hmem
    obtain ⟨_, -, _, _, hvalue, rfl⟩ := occurrences_of hoccurrences hmem
    exact ⟨hfits _, sourceRange_own hvalue hlength⟩
  · intro diagnostic hmem
    obtain ⟨_, bytes, _, hbytes, rfl⟩ := diagnostics_of hdiagnostics hmem
    refine ⟨hfits _, rfl, fun range hrange => ?_⟩
    cases hrange
    exact byteRange_fits hbytes hlength

theorem symbol_canonical {json : SymbolJson} (h : FactOf source contents json) (snapshot : Provenance) :
    ∃ value, json.toJson.denote snapshot = some value := by
  have hknown : ∀ kind ∈ KINDS, (SymbolKind.named kind).isSome := by decide
  obtain ⟨kind, hkind⟩ := Option.isSome_iff_exists.1 (hknown json.kind h.kind)
  simp only [SymbolJson.toJson, AnalysisSnapshotAdapter.SymbolJson.denote, h.language, hkind, h.states.1, h.states.2]
  exact ⟨_, rfl⟩

theorem occurrence_canonical {kind : String} (hkind : kind ∈ OCCURRENCE_KINDS) (range : SourceRange) (fact snapshot : Provenance) :
    ∃ value, (OccurrenceJson.toJson ⟨range, kind, none, none, none, "approximate", "fresh", "partial", fact⟩).denote snapshot =
      some value := by
  have hknown : ∀ kind ∈ OCCURRENCE_KINDS, (OccurrenceKind.named kind).isSome := by decide
  obtain ⟨value, hvalue⟩ := Option.isSome_iff_exists.1 (hknown kind hkind)
  simp only [OccurrenceJson.toJson, AnalysisSnapshotAdapter.OccurrenceJson.denote, hvalue]
  exact ⟨_, rfl⟩

theorem sourceUnitJson_denote (value : SourceUnit) (h : value.language = .kotlin) : (sourceUnitJson value).denote = some value := by
  rcases value with ⟨id, component, path, language, origin, content, context⟩
  obtain rfl : language = .kotlin := h
  cases origin <;> rfl

/-- It builds a canonical snapshot. -/
theorem analyze_canonical {text : JsonText} {json : SnapshotJson} (h : analyze text file source contents = some json)
    (hlanguage : source.language = .kotlin) : ∃ value, json.toJson.denote = some value := by
  obtain ⟨hsource, hcompleteness, -, hsymbols, ⟨ranges, hoccurrences⟩, hdiagnostics⟩ := analyze_parts h
  have hsymbol : ∀ symbol ∈ json.toJson.symbols, ∃ value, symbol.denote json.provenance = some value := by
    intro symbol hmem
    obtain ⟨fact, hfact, rfl⟩ := List.mem_map.1 hmem
    exact symbol_canonical (hsymbols fact hfact) _
  have hoccurrence : ∀ occurrence ∈ json.toJson.occurrences, ∃ value, occurrence.denote json.provenance = some value := by
    intro occurrence hmem
    obtain ⟨fact, hfact, rfl⟩ := List.mem_map.1 hmem
    obtain ⟨kind, hkind, range, value, -, rfl⟩ := occurrences_of hoccurrences hfact
    exact occurrence_canonical hkind value _ _
  have hdiagnostic : ∀ diagnostic ∈ json.toJson.diagnostics, ∃ value, diagnostic.denote json.provenance = some value := by
    intro diagnostic hmem
    obtain ⟨fact, hfact, rfl⟩ := List.mem_map.1 hmem
    obtain ⟨range, bytes, message, -, rfl⟩ := diagnostics_of hdiagnostics hfact
    exact ⟨_, rfl⟩
  have hunit : json.toJson.sourceUnit.denote = some source := by
    rw [SnapshotJson.toJson, hsource]
    exact sourceUnitJson_denote source hlanguage
  have hwhole : Completeness.named json.toJson.completeness = some .partially := by
    rw [SnapshotJson.toJson, hcompleteness]
    rfl
  unfold AnalysisSnapshotAdapter.SnapshotJson.denote
  rw [hunit, hwhole, show json.toJson.provenance = json.provenance from rfl, mapM_eq_some_filterMap hsymbol,
    mapM_eq_some_filterMap hoccurrence, mapM_eq_some_filterMap hdiagnostic]
  exact ⟨_, rfl⟩

end Facts

end KotlinStructuralExtractor

/-! ## A class and a type alias -/

namespace AnalysisSnapshotAdapter
open KotlinStructuralExtractor PublicApi

/-- The file of `class A : B` and `internal fun f() {}`. -/
theorem sampleVersion_decodes :
    ∃ json value, analyze plainText (sampleVersion "B" "f" "\x7b\x7d").file (sampleVersion "B" "f" "\x7b\x7d").source
        (sampleVersion "B" "f" "\x7b\x7d").contents = some json ∧ json.toJson.denote = some value ∧
      ∃ message, snapshot json.toJson = .ok message ∧ WorkerAdapter.decodeFileAnalysisSnapshot message = .ok value := by
  obtain ⟨hfacts, _, hpublished⟩ := sampled_versions.1
  obtain ⟨json, hjson, -⟩ := Option.map_eq_some_iff.1 hpublished
  obtain ⟨value, hvalue⟩ := analyze_canonical hjson rfl
  refine ⟨json, value, hjson, hvalue, (snapshot_decodes_iff (analyze_built hjson rfl (by decide)) hvalue).2 ⟨?_, ?_⟩⟩
  · obtain ⟨facts, hsymbols, hrecords, -⟩ := analyze_eq_some plainText hjson
    obtain rfl : sortedFacts "f" = facts := Option.some.inj (hfacts.symm.trans hsymbols)
    intro symbol hmem
    obtain ⟨record, hrecord, rfl⟩ := List.mem_map.1 hmem
    rw [hrecords, mem_map_sortedFacts] at hrecord
    clear hmem
    revert record
    decide
  · intro application hmem
    cases hmem

/-- `typealias A = B` -/
def aliasFile : KtFile where
  packageFqName := ""
  tree := .node ⟨.psiElement, none, none, ⟨0, 15⟩, []⟩
    [.node ⟨.ktTypeAlias (some "B"), some "A", some ⟨10, 11⟩, ⟨0, 15⟩, []⟩
      [.node ⟨.ktTypeReference, none, none, ⟨14, 15⟩, []⟩ [leaf .ktNameReferenceExpression 14 15]]]

theorem aliasFile_unsupported :
    (analyze plainText aliasFile (sampleUnit "A.kt" "sha256:content") "typealias A = B").map (fun json =>
      (snapshot json.toJson).toOption.map WorkerAdapter.decodeFileAnalysisSnapshot) =
        some (some (.error (.unsupported "symbol kind type_alias"))) := by
  decide +kernel

theorem typeAlias_undecodable :
    ¬ ∀ (json : AnalysisSnapshotAdapter.SnapshotJson) (value : FileAnalysisSnapshot), json.Built → json.denote = some value →
      ∃ message, snapshot json = .ok message ∧ WorkerAdapter.decodeFileAnalysisSnapshot message = .ok value := by
  intro h
  obtain ⟨json, hjson, hresult⟩ := Option.map_eq_some_iff.1 aliasFile_unsupported
  obtain ⟨value, hvalue⟩ := analyze_canonical hjson rfl
  obtain ⟨message, hmessage, hdecode⟩ := h _ value (analyze_built hjson rfl (by decide)) hvalue
  rw [hmessage] at hresult
  have herror := Option.some.inj hresult
  rw [hdecode] at herror
  cases herror

end AnalysisSnapshotAdapter

end Kide
