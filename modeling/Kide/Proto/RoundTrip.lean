import Kide.Lib.Checks
import Kide.Lib.Intern
import Kide.Proto.WorkerAdapter
import Kide.Store.Storable

/-!
# Round trip of the worker snapshot adapter

`decode_ok_iff` reads a successful decoding back field by field; it is what every later result about the
messages uses. Encoded records carry the position of their provenance in the list of distinct ones, so a
record comes back exactly when that position fits the index and its own fields survive the two tables
(`fileAnalysisSnapshot_round_trip`).
-/

namespace Kide
open Checks Interns WorkerAdapter

/-! ## Enumerations -/

/-- The language is not spelled as `other` although it has a case of its own. -/
def Language.Canonical : Language → Prop
  | .other name => name ∉ ["kotlin", "java", "rust", "typescript"]
  | _ => True

instance (value : Language) : Decidable value.Canonical := by
  cases value <;> unfold Language.Canonical <;> infer_instance

namespace WorkerAdapter

/-- `toLower` on the characters, which reduces. -/
theorem toLower_eq (s : String) : s.toLower = String.ofList (s.toList.map Char.toLower) := by
  change s.map Char.toLower = _
  rw [String.ext_iff, String.toList_map, String.toList_ofList]

theorem symbolKind_debug (kind : SymbolKind) : symbolKind kind.debug.toLower = .ok kind := by
  rw [toLower_eq]
  cases kind <;> rfl

theorem freshness_debug (value : Freshness) : freshness value.debug.toLower = .ok value := by
  rw [toLower_eq]
  cases value <;> rfl

theorem completeness_debug (value : Completeness) : completeness value.debug.toLower = .ok value := by
  rw [toLower_eq]
  cases value <;> rfl

theorem precision_debug (value : Precision) : precision value.debug.toLower = .ok value := by
  rw [toLower_eq]
  cases value <;> rfl

theorem severity_debug (value : DiagnosticSeverity) : severity value.debug.toLower = .ok value := by
  rw [toLower_eq]
  cases value <;> rfl

theorem sourceOrigin_proto (value : SourceOrigin) : sourceOrigin (protoSourceOrigin value) = .ok value := by
  cases value <;> rfl

/-- `TypeReference` is the one kind whose lower case name the reader does not know. -/
theorem occurrenceKind_debug_iff (kind : OccurrenceKind) :
    occurrenceKind kind.debug.toLower = .ok kind ↔ kind ≠ .typeReference := by
  rw [toLower_eq]
  cases kind <;> decide

theorem language_proto_iff (value : Language) : language (protoLanguage value) = value ↔ value.Canonical := by
  cases value with
  | other name =>
    unfold protoLanguage Language.Canonical language
    split <;> simp_all
  | _ => exact iff_of_true rfl True.intro

/-! A spelling that is read is the one that is written. -/

theorem symbolKind_eq_ok {value : String} {kind : SymbolKind} (h : symbolKind value = .ok kind) : kind.debug.toLower = value := by
  rw [toLower_eq]
  unfold symbolKind at h
  split at h <;> cases h <;> rfl

theorem freshness_eq_ok {value : String} {state : Freshness} (h : freshness value = .ok state) : state.debug.toLower = value := by
  rw [toLower_eq]
  unfold freshness at h
  split at h <;> cases h <;> rfl

theorem completeness_eq_ok {value : String} {state : Completeness} (h : completeness value = .ok state) :
    state.debug.toLower = value := by
  rw [toLower_eq]
  unfold completeness at h
  split at h <;> cases h <;> rfl

theorem protoLanguage_language (value : String) : protoLanguage (language value) = value := by
  unfold language
  split <;> rfl

/-! ## Records -/

theorem required_eq_ok_iff {α : Type} {field : String} {value : Option α} {a : α} :
    required field value = .ok a ↔ value = some a := by
  cases value with
  | none => exact ⟨fun h => (nomatch h), fun h => (nomatch h)⟩
  | some b => exact ⟨fun h => by cases h; rfl, fun h => by cases h; rfl⟩

theorem decodeRange_proto (range : ByteRange) : decodeRange (protoRange range) = range := rfl

theorem provenance_proto (value : Provenance) : provenance (protoProvenance value) = value := rfl

theorem option_map_round_trip {α β : Type} {write : α → β} {read : β → α} (h : ∀ a, read (write a) = a)
    (value : Option α) : (value.map write).map read = value := by
  rw [Option.map_map, show read ∘ write = id from funext h, Option.map_id_fun]
  rfl

theorem list_map_round_trip {α β : Type} {write : α → β} {read : β → α} (h : ∀ a, read (write a) = a)
    (values : List α) : (values.map write).map read = values := by
  rw [List.map_map, show read ∘ write = id from funext h, List.map_id]

theorem decodeSourceUnit_round_trip (value : SourceUnit) :
    decodeSourceUnit (sourceUnit value) = .ok value ↔ value.language.Canonical := by
  unfold decodeSourceUnit
  rw [show (sourceUnit value).origin = protoSourceOrigin value.origin from rfl, sourceOrigin_proto,
    ← language_proto_iff]
  constructor
  · intro h
    exact congrArg SourceUnit.language (Except.ok.inj h)
  · intro h
    change Except.ok { value with language := language (protoLanguage value.language) } = _
    rw [h]

variable {u : SourceUnit} {p : Provenance} {index : Nat}

theorem decodeSymbolDeclaration_round_trip {value : SymbolRecord} (hvalid : value.ValidIn u.id)
    (hkey : value.backendKey.backend = value.provenance.backend) :
    decodeSymbolDeclaration { symbolDeclaration value with provenanceIndex := index } u p = .ok value ↔
      p = value.provenance ∧ value.language.Canonical := by
  obtain ⟨-, ⟨hdeclaration, -⟩, hname, -⟩ := hvalid
  rcases value with ⟨id, ⟨backend, version, key⟩, language, kind, name, qualified, signature, component,
    ⟨declaration, bytes⟩, ⟨nameRange, nameBytes⟩, owner, modifiers, applied, freshness, completeness, provenance⟩
  dsimp only at hdeclaration hname hkey
  subst hdeclaration hname hkey
  unfold decodeSymbolDeclaration
  simp only [symbolDeclaration, required, symbolKind_debug, freshness_debug, completeness_debug, ok_bind,
    pure_eq_ok, decodeRange_proto]
  rw [option_map_round_trip fun _ => rfl, list_map_round_trip fun _ => rfl, ← language_proto_iff]
  simp only [Except.ok.injEq, SymbolRecord.mk.injEq, BackendKey.mk.injEq, and_true, true_and]
  constructor
  · rintro ⟨-, hlanguage, hp⟩
    exact ⟨hp, hlanguage⟩
  · rintro ⟨hp, hlanguage⟩
    exact ⟨congrArg _ hp, hlanguage, hp⟩

/-- A declaration is read if its ranges are present and its spellings known. -/
theorem decodeSymbolDeclaration_ok_iff {value : WorkerProto.SymbolDeclaration} :
    (∃ record, decodeSymbolDeclaration value u p = .ok record) ↔ (∃ range, value.declaration = some range) ∧
      (∃ range, value.nameRange = some range) ∧ (∃ kind, symbolKind value.kind = .ok kind) ∧
      (∃ state, freshness value.freshness = .ok state) ∧ ∃ state, completeness value.completeness = .ok state := by
  unfold decodeSymbolDeclaration
  simp only [bind_eq_ok_iff, required_eq_ok_iff, pure_eq_ok, Except.ok.injEq]
  constructor
  · rintro ⟨_, declaration, hdeclaration, nameRange, hnameRange, kind, hkind, state, hstate, whole, hwhole, -⟩
    exact ⟨⟨declaration, hdeclaration⟩, ⟨nameRange, hnameRange⟩, ⟨kind, hkind⟩, ⟨state, hstate⟩, ⟨whole, hwhole⟩⟩
  · rintro ⟨⟨declaration, hdeclaration⟩, ⟨nameRange, hnameRange⟩, ⟨kind, hkind⟩, ⟨state, hstate⟩, ⟨whole, hwhole⟩⟩
    exact ⟨_, declaration, hdeclaration, nameRange, hnameRange, kind, hkind, state, hstate, whole, hwhole, rfl⟩

/-- A declaration that is read is written back as it was, up to its two indexes. -/
theorem symbolDeclaration_decode {value : WorkerProto.SymbolDeclaration} {provenance : Provenance} {record : SymbolRecord}
    (h : decodeSymbolDeclaration value u provenance = .ok record) :
    { symbolDeclaration record with sourceUnitIndex := value.sourceUnitIndex, provenanceIndex := value.provenanceIndex } = value ∧
      record.provenance = provenance := by
  unfold decodeSymbolDeclaration at h
  simp only [bind_eq_ok_iff, required_eq_ok_iff, pure_eq_ok, Except.ok.injEq] at h
  obtain ⟨declaration, hdeclaration, nameRange, hnameRange, kind, hkind, state, hstate, whole, hwhole, rfl⟩ := h
  refine ⟨?_, rfl⟩
  unfold symbolDeclaration
  simp only [symbolKind_eq_ok hkind, freshness_eq_ok hstate, completeness_eq_ok hwhole, protoLanguage_language, Option.map_map,
    List.map_map]
  rw [show (SymbolId.asStr ∘ SymbolId.mk) = id from rfl, Option.map_id, List.map_id]
  cases value
  simp_all [protoRange, decodeRange]

/-- Two declarations that are read as one record differ in their indexes at most. -/
theorem decodeSymbolDeclaration_same {value other : WorkerProto.SymbolDeclaration} {provenance otherProvenance : Provenance}
    {record : SymbolRecord} (h : decodeSymbolDeclaration value u provenance = .ok record) :
    decodeSymbolDeclaration other u otherProvenance = .ok record ↔ otherProvenance = provenance ∧
      { other with sourceUnitIndex := value.sourceUnitIndex, provenanceIndex := value.provenanceIndex } = value := by
  obtain ⟨hvalue, hprovenance⟩ := symbolDeclaration_decode h
  constructor
  · intro hother
    obtain ⟨hsame, rfl⟩ := symbolDeclaration_decode hother
    refine ⟨hprovenance, ?_⟩
    rw [← hsame]
    exact hvalue
  · rintro ⟨rfl, hsame⟩
    rw [← h, ← hsame]
    rfl

theorem decodeOccurrence_round_trip {value : SourceOccurrence} (hvalid : value.ValidIn u.id) :
    decodeOccurrence { occurrence value with provenanceIndex := index } u p = .ok value ↔
      p = value.provenance ∧ value.kind ≠ .typeReference := by
  obtain ⟨-, hsource, -⟩ := hvalid
  rcases value with ⟨⟨source, bytes⟩, kind, enclosing, target, typeId, precision, freshness, completeness, provenance⟩
  dsimp only at hsource
  subst hsource
  unfold decodeOccurrence
  simp only [occurrence, required, ownSource, precision_debug, freshness_debug, completeness_debug, ok_bind,
    pure_eq_ok, decodeRange_proto, ne_eq, not_true_eq_false, if_false]
  rw [option_map_round_trip fun _ => rfl, option_map_round_trip fun _ => rfl, option_map_round_trip fun _ => rfl, bind_eq_ok_iff,
    ← ne_eq, ← occurrenceKind_debug_iff]
  simp only [Except.ok.injEq, SourceOccurrence.mk.injEq, true_and]
  constructor
  · rintro ⟨decoded, hdecoded, rfl, hp⟩
    exact ⟨hp, hdecoded⟩
  · rintro ⟨hp, hkind⟩
    exact ⟨kind, hkind, rfl, hp⟩

/-- An empty list of strings comes back as the empty string. -/
theorem decodeApplicationArgument_round_trip (value : ApplicationArgument) :
    decodeApplicationArgument (applicationArgument value) = .ok value ↔ value.value ≠ .stringList [] := by
  rcases value with ⟨name, position, value⟩
  unfold decodeApplicationArgument applicationArgument
  cases value with
  | stringList values =>
    cases values with
    | nil => simp [required, ok_bind, pure_eq_ok, decodeArgumentValue]
    | cons value values => simp
  | string value => simp [required, ok_bind, pure_eq_ok, decodeArgumentValue]
  | boolean value => simp [required, ok_bind, pure_eq_ok, decodeArgumentValue]
  | integer value => simp [required, ok_bind, pure_eq_ok, decodeArgumentValue]

theorem decodeApplicationFact_round_trip {value : ApplicationFact} (hvalid : value.ValidIn u.id) :
    decodeApplicationFact { applicationFact value with provenanceIndex := index } u p = .ok value ↔
      p = value.provenance ∧ ∀ argument ∈ value.arguments, argument.value ≠ .stringList [] := by
  obtain ⟨-, hsource, -⟩ := hvalid
  rcases value with ⟨id, subject, target, ⟨source, bytes⟩, arguments, precision, freshness, completeness, provenance⟩
  dsimp only at hsource
  subst hsource
  unfold decodeApplicationFact
  simp only [applicationFact, required, precision_debug, freshness_debug, completeness_debug, ok_bind, pure_eq_ok,
    decodeRange_proto]
  simp only [← decodeApplicationArgument_round_trip]
  rw [bind_eq_ok_iff, ← mapM_map_eq_ok_self_iff]
  simp only [Except.ok.injEq, ApplicationFact.mk.injEq, true_and]
  constructor
  · rintro ⟨decoded, hdecoded, rfl, hp⟩
    exact ⟨hp, hdecoded⟩
  · rintro ⟨hp, harguments⟩
    exact ⟨arguments, harguments, rfl, hp⟩

theorem decodeHierarchyEdge_round_trip {value : HierarchyEdge} :
    decodeHierarchyEdge { hierarchyEdge value with provenanceIndex := index } p = .ok value ↔ p = value.provenance := by
  rcases value with ⟨subtype, supertype, precision, provenance⟩
  unfold decodeHierarchyEdge
  simp only [hierarchyEdge, precision_debug, ok_bind, pure_eq_ok, Except.ok.injEq, HierarchyEdge.mk.injEq, true_and]

theorem decodeTypeRecord_round_trip {value : TypeRecord}
    (hkey : ∀ key ∈ value.backendKey, key.backend = value.provenance.backend) :
    decodeTypeRecord { typeRecord value with provenanceIndex := index } p = .ok value ↔
      p = value.provenance ∧ value.language.Canonical := by
  rcases value with ⟨id, language, display, key, freshness, completeness, provenance⟩
  unfold decodeTypeRecord
  rw [← language_proto_iff]
  cases key with
  | none =>
    simp only [typeRecord, freshness_debug, completeness_debug, ok_bind, pure_eq_ok, Except.ok.injEq,
      TypeRecord.mk.injEq, Option.map_none, true_and]
    exact and_comm
  | some key =>
    rcases key with ⟨backend, version, key⟩
    have hbackend := hkey _ rfl
    dsimp only at hbackend
    subst hbackend
    simp only [typeRecord, freshness_debug, completeness_debug, ok_bind, pure_eq_ok, Except.ok.injEq,
      TypeRecord.mk.injEq, Option.map_some, Option.getD_some, Option.some.injEq, BackendKey.mk.injEq, and_true, true_and]
    constructor
    · rintro ⟨hlanguage, -, hp⟩
      exact ⟨hp, hlanguage⟩
    · rintro ⟨hp, hlanguage⟩
      exact ⟨hlanguage, congrArg _ hp, hp⟩

theorem decodeDiagnostic_round_trip {value : DiagnosticRecord} (hvalid : value.ValidIn u.id) :
    decodeDiagnostic { diagnostic value with provenanceIndex := index } u p = .ok value ↔ p = value.provenance := by
  obtain ⟨-, hsource, -⟩ := hvalid
  rcases value with ⟨source, range, severity, code, message, freshness, completeness, provenance⟩
  dsimp only at hsource
  subst hsource
  have hrange : (range.map protoRange).map decodeRange = range := by
    cases range <;> rfl
  unfold decodeDiagnostic
  simp only [diagnostic, ownSource, severity_debug, freshness_debug, completeness_debug, ok_bind, pure_eq_ok, hrange,
    ne_eq, not_true_eq_false, if_false, Except.ok.injEq, DiagnosticRecord.mk.injEq, true_and]

theorem decodeReferenceEdge_round_trip {value : ReferenceEdge} {occurrences : List SourceOccurrence} :
    decodeReferenceEdge (referenceEdge value index) occurrences = .ok value ↔ occurrences[index]? = some value.source := by
  rcases value with ⟨source, target, precision⟩
  unfold decodeReferenceEdge
  simp only [referenceEdge, precision_debug, bind_eq_ok_iff, required_eq_ok_iff, pure_eq_ok, Except.ok.injEq,
    ReferenceEdge.mk.injEq, true_and]
  constructor
  · rintro ⟨found, hfound, decoded, rfl, rfl, -⟩
    exact hfound
  · intro h
    exact ⟨source, h, precision, rfl, rfl, rfl⟩

theorem decodeCallEdge_round_trip {value : CallEdge} {occurrences : List SourceOccurrence} :
    decodeCallEdge (callEdge value index) occurrences = .ok value ↔ occurrences[index]? = some value.source := by
  rcases value with ⟨source, target, caller, precision⟩
  have hcaller : (caller.map (·.asStr)).map (fun s => (⟨s⟩ : SymbolId)) = caller := option_map_round_trip (fun _ => rfl) caller
  unfold decodeCallEdge
  simp only [callEdge, precision_debug, bind_eq_ok_iff, required_eq_ok_iff, pure_eq_ok, Except.ok.injEq,
    CallEdge.mk.injEq, hcaller, true_and]
  constructor
  · rintro ⟨found, hfound, decoded, rfl, rfl, -⟩
    exact hfound
  · intro h
    exact ⟨source, h, precision, rfl, rfl, rfl⟩

/-! ## Provenances -/

theorem provenanceIndex_eq (values : List Provenance) (value : Provenance) :
    provenanceIndex values value = (asU32 ((intern values value).idxOf value), intern values value) := by
  unfold provenanceIndex
  rw [findIdx?_eq]
  by_cases h : value ∈ values
  · rw [if_pos h, intern, if_pos h]
  · rw [if_neg h, intern, if_neg h, List.idxOf_append_of_notMem h, List.idxOf_cons_self, Nat.add_zero]

variable {α β : Type} {provenanceOf : α → Provenance} {encode : α → Nat → β}

theorem indexProvenances_snd (values : List Provenance) (records : List α) :
    (indexProvenances provenanceOf encode values records).2 = internAll values (records.map provenanceOf) := by
  induction records generalizing values with
  | nil => rfl
  | cons record records ih =>
    unfold indexProvenances
    simp only [provenanceIndex_eq]
    exact ih _

/-- Every record has the index its provenance has in the list that is complete in the end. -/
theorem indexProvenances_fst (all : List Provenance) {values : List Provenance} {records : List α}
    (h : internAll values (records.map provenanceOf) <+: all) :
    (indexProvenances provenanceOf encode values records).1 =
      records.map fun record => encode record (asU32 (all.idxOf (provenanceOf record))) := by
  induction records generalizing values with
  | nil => rfl
  | cons record records ih =>
    unfold indexProvenances
    simp only [provenanceIndex_eq, List.map_cons]
    have hthis : intern values (provenanceOf record) <+: all :=
      (prefix_internAll _ (records.map provenanceOf)).trans h
    rw [idxOf_stable hthis (mem_intern_self values _)]
    exact congrArg _ (ih h)

/-- A narrowed position still points at its value exactly if nothing was cut off. -/
theorem asU32_points_iff {γ : Type} [DecidableEq γ] {values : List γ} {value : γ} (h : value ∈ values) :
    values[asU32 (values.idxOf value)]? = some value ↔ values.idxOf value < U32_LIMIT := by
  rw [getElem?_eq_iff_of_le h (asU32_le _)]
  exact ⟨fun heq => heq ▸ asU32_lt _, asU32_of_lt⟩

theorem indexedProvenance_ok_iff {values : List Provenance} {field : String} {value : Provenance} (h : value ∈ values) :
    indexedProvenance values (asU32 (values.idxOf value)) field = .ok value ↔ values.idxOf value < U32_LIMIT := by
  rw [indexedProvenance, required_eq_ok_iff, asU32_points_iff h]

/-- A record of one kind comes back when its own fields and the index of its provenance do. -/
theorem decodeIndexed_round_trip (provenanceOf : α → Provenance) (encode : α → Nat → β) {field : String}
    {indexOf : β → Nat} {decode : β → Provenance → Except AdapterError α} {provenances : List Provenance} {records : List α} {fits : α → Prop}
    (hindex : ∀ record index, indexOf (encode record index) = index)
    (hdecode : ∀ record ∈ records, ∀ index p, decode (encode record index) p = .ok record ↔
      p = provenanceOf record ∧ fits record)
    (hmem : ∀ record ∈ records, provenanceOf record ∈ provenances) :
    decodeIndexed field indexOf decode provenances
        (records.map fun record => encode record (asU32 (provenances.idxOf (provenanceOf record)))) = .ok records ↔
      ∀ record ∈ records, provenances.idxOf (provenanceOf record) < U32_LIMIT ∧ fits record := by
  unfold decodeIndexed
  rw [mapM_map_eq_ok_self_iff]
  refine forall₂_congr fun record hrecord => ?_
  rw [hindex, bind_eq_ok_iff, ← indexedProvenance_ok_iff (hmem record hrecord)]
  constructor
  · rintro ⟨p, hp, hrest⟩
    obtain ⟨rfl, hfits⟩ := (hdecode record hrecord _ p).1 hrest
    exact ⟨hp, hfits⟩
  · rintro ⟨hp, hfits⟩
    exact ⟨provenanceOf record, hp, (hdecode record hrecord _ _).2 ⟨rfl, hfits⟩⟩

/-! ## Reading a snapshot back -/

/-- The message is read as the snapshot, part by part. -/
structure DecodesTo (message : WorkerProto.FileAnalysisSnapshot) (value : FileAnalysisSnapshot) : Prop where
  sourceUnit : ∃ proto, message.sourceUnit = some proto ∧ decodeSourceUnit proto = .ok value.sourceUnit
  structuralFingerprint : message.structuralFingerprint.map (⟨·⟩) = value.structuralFingerprint
  publicApiFingerprint : message.publicApiFingerprint.map (⟨·⟩) = value.publicApiFingerprint
  provenance : indexedProvenance (message.provenances.map provenance) message.provenanceIndex
    "snapshot.provenance_index" = .ok value.provenance
  symbols : decodeIndexed "symbol.provenance_index" WorkerProto.SymbolDeclaration.provenanceIndex
    (fun record => decodeSymbolDeclaration record value.sourceUnit) (message.provenances.map WorkerAdapter.provenance)
    message.symbols = .ok value.symbols
  applications : decodeIndexed "application.provenance_index" WorkerProto.ApplicationFact.provenanceIndex
    (fun record => decodeApplicationFact record value.sourceUnit) (message.provenances.map WorkerAdapter.provenance)
    message.applications = .ok value.applications
  occurrences : decodeIndexed "occurrence.provenance_index" WorkerProto.Occurrence.provenanceIndex
    (fun record => decodeOccurrence record value.sourceUnit) (message.provenances.map WorkerAdapter.provenance)
    message.occurrences = .ok value.occurrences
  references : (message.references.mapM fun edge => decodeReferenceEdge edge value.occurrences) = .ok value.references
  calls : (message.calls.mapM fun edge => decodeCallEdge edge value.occurrences) = .ok value.calls
  hierarchy : decodeIndexed "hierarchy.provenance_index" WorkerProto.HierarchyEdge.provenanceIndex
    decodeHierarchyEdge (message.provenances.map WorkerAdapter.provenance) message.hierarchy = .ok value.hierarchy
  types : decodeIndexed "type.provenance_index" WorkerProto.TypeRecord.provenanceIndex decodeTypeRecord
    (message.provenances.map WorkerAdapter.provenance) message.types = .ok value.types
  diagnostics : decodeIndexed "diagnostic.provenance_index" WorkerProto.Diagnostic.provenanceIndex
    (fun record => decodeDiagnostic record value.sourceUnit) (message.provenances.map WorkerAdapter.provenance)
    message.diagnostics = .ok value.diagnostics
  completeness : WorkerAdapter.completeness message.completeness = .ok value.completeness

theorem decode_ok_iff {message : WorkerProto.FileAnalysisSnapshot} {value : FileAnalysisSnapshot} :
    decodeFileAnalysisSnapshot message = .ok value ↔ DecodesTo message value := by
  unfold decodeFileAnalysisSnapshot
  simp only [bind_eq_ok_iff, required_eq_ok_iff, pure_eq_ok, Except.ok.injEq]
  constructor
  · rintro ⟨proto, hproto, unit, hunit, prov, hprov, symbols, hsymbols, applications, happlications, occurrences,
      hoccurrences, references, hreferences, calls, hcalls, hierarchy, hhierarchy, types, htypes, diagnostics,
      hdiagnostics, whole, hwhole, rfl⟩
    exact ⟨⟨proto, hproto, hunit⟩, rfl, rfl, hprov, hsymbols, happlications, hoccurrences, hreferences, hcalls,
      hhierarchy, htypes, hdiagnostics, hwhole⟩
  · intro h
    obtain ⟨proto, hproto, hunit⟩ := h.sourceUnit
    refine ⟨proto, hproto, _, hunit, _, h.provenance, _, h.symbols, _, h.applications, _, h.occurrences, _, h.references,
      _, h.calls, _, h.hierarchy, _, h.types, _, h.diagnostics, _, h.completeness, ?_⟩
    rw [h.structuralFingerprint, h.publicApiFingerprint]

/-! ## Writing a snapshot and reading it back -/

/-! The distinct provenances of a snapshot, in the order the message collects them. -/

def symbolProvenances (value : FileAnalysisSnapshot) : List Provenance :=
  internAll [value.provenance] (value.symbols.map SymbolRecord.provenance)

def applicationProvenances (value : FileAnalysisSnapshot) : List Provenance :=
  internAll (symbolProvenances value) (value.applications.map ApplicationFact.provenance)

def occurrenceProvenances (value : FileAnalysisSnapshot) : List Provenance :=
  internAll (applicationProvenances value) (value.occurrences.map SourceOccurrence.provenance)

def hierarchyProvenances (value : FileAnalysisSnapshot) : List Provenance :=
  internAll (occurrenceProvenances value) (value.hierarchy.map HierarchyEdge.provenance)

def typeProvenances (value : FileAnalysisSnapshot) : List Provenance :=
  internAll (hierarchyProvenances value) (value.types.map TypeRecord.provenance)

def snapshotProvenances (value : FileAnalysisSnapshot) : List Provenance :=
  internAll (typeProvenances value) (value.diagnostics.map DiagnosticRecord.provenance)

theorem mem_snapshotProvenances {value : FileAnalysisSnapshot} {p : Provenance} :
    p ∈ snapshotProvenances value ↔ p = value.provenance ∨ p ∈ value.symbols.map SymbolRecord.provenance ∨
      p ∈ value.applications.map ApplicationFact.provenance ∨ p ∈ value.occurrences.map SourceOccurrence.provenance ∨
      p ∈ value.hierarchy.map HierarchyEdge.provenance ∨ p ∈ value.types.map TypeRecord.provenance ∨
      p ∈ value.diagnostics.map DiagnosticRecord.provenance := by
  simp only [snapshotProvenances, typeProvenances, hierarchyProvenances, occurrenceProvenances, applicationProvenances,
    symbolProvenances, mem_internAll, List.mem_singleton, or_assoc]

theorem snapshotProvenances_first (value : FileAnalysisSnapshot) : (snapshotProvenances value).idxOf value.provenance = 0 := by
  have hprefix : [value.provenance] <+: snapshotProvenances value :=
    (prefix_internAll _ _).trans ((prefix_internAll _ _).trans ((prefix_internAll _ _).trans ((prefix_internAll _ _).trans
      ((prefix_internAll _ _).trans (prefix_internAll _ _)))))
  rw [idxOf_stable hprefix (List.mem_singleton_self _), List.idxOf_cons_self]

/-- The message of a snapshot whose edges start at its own occurrences. -/
def encodedSnapshot (value : FileAnalysisSnapshot) : WorkerProto.FileAnalysisSnapshot :=
  let indexOf := fun p => asU32 ((snapshotProvenances value).idxOf p)
  { sourceUnit := some (sourceUnit value.sourceUnit)
    structuralFingerprint := value.structuralFingerprint.map (·.asStr)
    publicApiFingerprint := value.publicApiFingerprint.map (·.asStr)
    provenances := (snapshotProvenances value).map protoProvenance
    symbols := value.symbols.map fun r => { symbolDeclaration r with provenanceIndex := indexOf r.provenance }
    applications := value.applications.map fun r => { applicationFact r with provenanceIndex := indexOf r.provenance }
    occurrences := value.occurrences.map fun r => { occurrence r with provenanceIndex := indexOf r.provenance }
    references := value.references.map fun edge => referenceEdge edge (asU32 (value.occurrences.idxOf edge.source))
    calls := value.calls.map fun edge => callEdge edge (asU32 (value.occurrences.idxOf edge.source))
    hierarchy := value.hierarchy.map fun r => { hierarchyEdge r with provenanceIndex := indexOf r.provenance }
    types := value.types.map fun r => { typeRecord r with provenanceIndex := indexOf r.provenance }
    diagnostics := value.diagnostics.map fun r => { diagnostic r with provenanceIndex := indexOf r.provenance }
    completeness := value.completeness.debug.toLower
    provenanceIndex := 0 }

/-- Backend keys name the backend of their record's provenance, and edges start at occurrences. -/
structure SelfContained (value : FileAnalysisSnapshot) : Prop where
  symbolKeys : ∀ symbol ∈ value.symbols, symbol.backendKey.backend = symbol.provenance.backend
  typeKeys : ∀ ty ∈ value.types, ∀ key ∈ ty.backendKey, key.backend = ty.provenance.backend
  references : ∀ edge ∈ value.references, edge.source ∈ value.occurrences
  calls : ∀ edge ∈ value.calls, edge.source ∈ value.occurrences

theorem occurrenceIndex_ok_iff {occurrences : List SourceOccurrence} {value : SourceOccurrence} {index : Nat} :
    occurrenceIndex occurrences value = .ok index ↔ value ∈ occurrences ∧ asU32 (occurrences.idxOf value) = index := by
  unfold occurrenceIndex
  rw [findIdx?_eq]
  by_cases h : value ∈ occurrences
  · rw [if_pos h]
    simp [h]
  · rw [if_neg h]
    simp [h]

/-- A snapshot has a message exactly if its edges start at its own occurrences. -/
theorem fileAnalysisSnapshot_ok_iff {value : FileAnalysisSnapshot} {message : WorkerProto.FileAnalysisSnapshot} :
    fileAnalysisSnapshot value = .ok message ↔ (∀ edge ∈ value.references, edge.source ∈ value.occurrences) ∧
      (∀ edge ∈ value.calls, edge.source ∈ value.occurrences) ∧ encodedSnapshot value = message := by
  have hreferences : ∀ edges, (value.references.mapM fun edge => do
      let index ← occurrenceIndex value.occurrences edge.source
      pure (referenceEdge edge index)) = .ok edges ↔ (∀ edge ∈ value.references, edge.source ∈ value.occurrences) ∧
      (value.references.map fun edge => referenceEdge edge (asU32 (value.occurrences.idxOf edge.source))) = edges := by
    refine fun edges => mapM_eq_ok_checked_iff fun edge found => ?_
    simp only [bind_eq_ok_iff, occurrenceIndex_ok_iff, pure_eq_ok, Except.ok.injEq]
    exact ⟨fun ⟨_, ⟨hmem, rfl⟩, h⟩ => ⟨hmem, h⟩, fun ⟨hmem, h⟩ => ⟨_, ⟨hmem, rfl⟩, h⟩⟩
  have hcalls : ∀ edges, (value.calls.mapM fun edge => do
      let index ← occurrenceIndex value.occurrences edge.source
      pure (callEdge edge index)) = .ok edges ↔ (∀ edge ∈ value.calls, edge.source ∈ value.occurrences) ∧
      (value.calls.map fun edge => callEdge edge (asU32 (value.occurrences.idxOf edge.source))) = edges := by
    refine fun edges => mapM_eq_ok_checked_iff fun edge found => ?_
    simp only [bind_eq_ok_iff, occurrenceIndex_ok_iff, pure_eq_ok, Except.ok.injEq]
    exact ⟨fun ⟨_, ⟨hmem, rfl⟩, h⟩ => ⟨hmem, h⟩, fun ⟨hmem, h⟩ => ⟨_, ⟨hmem, rfl⟩, h⟩⟩
  unfold fileAnalysisSnapshot
  dsimp only
  simp only [bind_eq_ok_iff, hreferences, hcalls, indexProvenances_snd]
  simp only [pure_eq_ok, Except.ok.injEq]
  rw [← symbolProvenances, ← applicationProvenances, ← occurrenceProvenances, ← hierarchyProvenances,
    ← typeProvenances]
  -- every list of provenances on the way is a prefix of the last one
  have htypes : typeProvenances value <+: snapshotProvenances value := prefix_internAll _ _
  have hhierarchy : hierarchyProvenances value <+: snapshotProvenances value := (prefix_internAll _ _).trans htypes
  have hoccurrences : occurrenceProvenances value <+: snapshotProvenances value := (prefix_internAll _ _).trans hhierarchy
  have happlications : applicationProvenances value <+: snapshotProvenances value :=
    (prefix_internAll _ _).trans hoccurrences
  have hsymbols : symbolProvenances value <+: snapshotProvenances value := (prefix_internAll _ _).trans happlications
  rw [indexProvenances_fst (snapshotProvenances value) hsymbols,
    indexProvenances_fst (snapshotProvenances value) happlications,
    indexProvenances_fst (snapshotProvenances value) hoccurrences,
    indexProvenances_fst (snapshotProvenances value) hhierarchy,
    indexProvenances_fst (snapshotProvenances value) htypes,
    indexProvenances_fst (snapshotProvenances value) List.prefix_rfl]
  constructor
  · rintro ⟨references, ⟨hreference, rfl⟩, calls, ⟨hcall, rfl⟩, h⟩
    exact ⟨hreference, hcall, h⟩
  · rintro ⟨hreference, hcall, h⟩
    exact ⟨_, ⟨hreference, rfl⟩, _, ⟨hcall, rfl⟩, h⟩

theorem fileAnalysisSnapshot_eq {value : FileAnalysisSnapshot} (h : SelfContained value) :
    fileAnalysisSnapshot value = .ok (encodedSnapshot value) :=
  fileAnalysisSnapshot_ok_iff.2 ⟨h.references, h.calls, rfl⟩

/-- What the message can carry: no type reference occurrence, no empty list of strings as an argument, no
language spelled as `other`, and positions that fit their index. -/
structure SurvivesTransport (value : FileAnalysisSnapshot) : Prop where
  occurrences : ∀ occurrence ∈ value.occurrences, occurrence.kind ≠ .typeReference
  arguments : ∀ application ∈ value.applications, ∀ argument ∈ application.arguments, argument.value ≠ .stringList []
  unitLanguage : value.sourceUnit.language.Canonical
  symbolLanguages : ∀ symbol ∈ value.symbols, symbol.language.Canonical
  typeLanguages : ∀ ty ∈ value.types, ty.language.Canonical
  provenances : ∀ p ∈ snapshotProvenances value, (snapshotProvenances value).idxOf p < U32_LIMIT
  references : ∀ edge ∈ value.references, value.occurrences.idxOf edge.source < U32_LIMIT
  calls : ∀ edge ∈ value.calls, value.occurrences.idxOf edge.source < U32_LIMIT

theorem encodedSnapshot_decodes_iff {value : FileAnalysisSnapshot} {expected : SourceUnit}
    (hvalid : ValidSnapshot expected value) (hself : SelfContained value) :
    DecodesTo (encodedSnapshot value) value ↔ SurvivesTransport value := by
  have hown := hvalid.self
  have hprovenances : (encodedSnapshot value).provenances.map provenance = snapshotProvenances value :=
    list_map_round_trip provenance_proto _
  have hmem := @mem_snapshotProvenances value
  have hunit : (∃ proto, (encodedSnapshot value).sourceUnit = some proto ∧ decodeSourceUnit proto = .ok value.sourceUnit) ↔
      value.sourceUnit.language.Canonical := by
    rw [← decodeSourceUnit_round_trip]
    exact ⟨fun ⟨_, heq, h⟩ => by cases heq; exact h, fun h => ⟨_, rfl, h⟩⟩
  have hsymbols : decodeIndexed "symbol.provenance_index" WorkerProto.SymbolDeclaration.provenanceIndex
      (fun record => decodeSymbolDeclaration record value.sourceUnit) (snapshotProvenances value)
      (encodedSnapshot value).symbols = .ok value.symbols ↔
      ∀ record ∈ value.symbols, (snapshotProvenances value).idxOf record.provenance < U32_LIMIT ∧ record.language.Canonical :=
    decodeIndexed_round_trip SymbolRecord.provenance (fun r provenanceIndex => { symbolDeclaration r with provenanceIndex }) (fun _ _ => rfl)
      (fun record hrecord _ _ => decodeSymbolDeclaration_round_trip (hown.symbols record hrecord) (hself.symbolKeys record hrecord))
      fun _ hrecord => hmem.2 (.inr (.inl (List.mem_map_of_mem hrecord)))
  have happlications : decodeIndexed "application.provenance_index" WorkerProto.ApplicationFact.provenanceIndex
      (fun record => decodeApplicationFact record value.sourceUnit) (snapshotProvenances value)
      (encodedSnapshot value).applications = .ok value.applications ↔
      ∀ record ∈ value.applications, (snapshotProvenances value).idxOf record.provenance < U32_LIMIT ∧
        ∀ argument ∈ record.arguments, argument.value ≠ .stringList [] :=
    decodeIndexed_round_trip ApplicationFact.provenance (fun r provenanceIndex => { applicationFact r with provenanceIndex }) (fun _ _ => rfl)
      (fun record hrecord _ _ => decodeApplicationFact_round_trip (hown.applications record hrecord))
      fun _ hrecord => hmem.2 (.inr (.inr (.inl (List.mem_map_of_mem hrecord))))
  have hoccurrences : decodeIndexed "occurrence.provenance_index" WorkerProto.Occurrence.provenanceIndex
      (fun record => decodeOccurrence record value.sourceUnit) (snapshotProvenances value)
      (encodedSnapshot value).occurrences = .ok value.occurrences ↔
      ∀ record ∈ value.occurrences, (snapshotProvenances value).idxOf record.provenance < U32_LIMIT ∧
        record.kind ≠ .typeReference :=
    decodeIndexed_round_trip SourceOccurrence.provenance (fun r provenanceIndex => { occurrence r with provenanceIndex }) (fun _ _ => rfl)
      (fun record hrecord _ _ => decodeOccurrence_round_trip (hown.occurrences record hrecord))
      fun _ hrecord => hmem.2 (.inr (.inr (.inr (.inl (List.mem_map_of_mem hrecord)))))
  have hhierarchy : decodeIndexed "hierarchy.provenance_index" WorkerProto.HierarchyEdge.provenanceIndex
      decodeHierarchyEdge (snapshotProvenances value) (encodedSnapshot value).hierarchy = .ok value.hierarchy ↔
      ∀ record ∈ value.hierarchy, (snapshotProvenances value).idxOf record.provenance < U32_LIMIT ∧ True :=
    decodeIndexed_round_trip HierarchyEdge.provenance (fun r provenanceIndex => { hierarchyEdge r with provenanceIndex }) (fun _ _ => rfl)
      (fun record hrecord _ _ => decodeHierarchyEdge_round_trip.trans (iff_of_eq (and_true _)).symm)
      fun _ hrecord => hmem.2 (.inr (.inr (.inr (.inr (.inl (List.mem_map_of_mem hrecord))))))
  have htypes : decodeIndexed "type.provenance_index" WorkerProto.TypeRecord.provenanceIndex decodeTypeRecord
      (snapshotProvenances value) (encodedSnapshot value).types = .ok value.types ↔
      ∀ record ∈ value.types, (snapshotProvenances value).idxOf record.provenance < U32_LIMIT ∧ record.language.Canonical :=
    decodeIndexed_round_trip TypeRecord.provenance (fun r provenanceIndex => { typeRecord r with provenanceIndex }) (fun _ _ => rfl)
      (fun record hrecord _ _ => decodeTypeRecord_round_trip (hself.typeKeys record hrecord))
      fun _ hrecord => hmem.2 (.inr (.inr (.inr (.inr (.inr (.inl (List.mem_map_of_mem hrecord)))))))
  have hdiagnostics : decodeIndexed "diagnostic.provenance_index" WorkerProto.Diagnostic.provenanceIndex
      (fun record => decodeDiagnostic record value.sourceUnit) (snapshotProvenances value)
      (encodedSnapshot value).diagnostics = .ok value.diagnostics ↔
      ∀ record ∈ value.diagnostics, (snapshotProvenances value).idxOf record.provenance < U32_LIMIT ∧ True :=
    decodeIndexed_round_trip DiagnosticRecord.provenance (fun r provenanceIndex => { diagnostic r with provenanceIndex }) (fun _ _ => rfl)
      (fun record hrecord _ _ => (decodeDiagnostic_round_trip (hown.diagnostics record hrecord)).trans (iff_of_eq (and_true _)).symm)
      fun _ hrecord => hmem.2 (.inr (.inr (.inr (.inr (.inr (.inr (List.mem_map_of_mem hrecord)))))))
  have hfirst : (snapshotProvenances value).idxOf value.provenance = 0 := snapshotProvenances_first value
  have hprovenance : indexedProvenance (snapshotProvenances value) (encodedSnapshot value).provenanceIndex
      "snapshot.provenance_index" = .ok value.provenance := by
    have hat := getElem?_idxOf (hmem.2 (.inl rfl))
    rw [hfirst] at hat
    exact required_eq_ok_iff.2 hat
  have hreferences : ((encodedSnapshot value).references.mapM fun edge => decodeReferenceEdge edge value.occurrences) =
      .ok value.references ↔ ∀ edge ∈ value.references, value.occurrences.idxOf edge.source < U32_LIMIT := by
    refine mapM_map_eq_ok_self_iff.trans (forall₂_congr fun edge hedge => ?_)
    rw [decodeReferenceEdge_round_trip, asU32_points_iff (hself.references edge hedge)]
  have hcalls : ((encodedSnapshot value).calls.mapM fun edge => decodeCallEdge edge value.occurrences) =
      .ok value.calls ↔ ∀ edge ∈ value.calls, value.occurrences.idxOf edge.source < U32_LIMIT := by
    refine mapM_map_eq_ok_self_iff.trans (forall₂_congr fun edge hedge => ?_)
    rw [decodeCallEdge_round_trip, asU32_points_iff (hself.calls edge hedge)]
  constructor
  · rintro ⟨hu, -, -, -, hs, ha, ho, hr, hc, hh, ht, hd, -⟩
    rw [hprovenances] at hs ha ho hh ht hd
    have hs := hsymbols.1 hs
    have ha := happlications.1 ha
    have ho := hoccurrences.1 ho
    have hh := hhierarchy.1 hh
    have ht := htypes.1 ht
    have hd := hdiagnostics.1 hd
    refine ⟨fun o hmem => (ho o hmem).2, fun a hmem => (ha a hmem).2, hunit.1 hu, fun s hmem => (hs s hmem).2,
      fun t hmem => (ht t hmem).2, ?_, hreferences.1 hr, hcalls.1 hc⟩
    intro p hp
    simp only [hmem, List.mem_map] at hp
    rcases hp with rfl | ⟨r, hr, rfl⟩ | ⟨r, hr, rfl⟩ | ⟨r, hr, rfl⟩ | ⟨r, hr, rfl⟩ | ⟨r, hr, rfl⟩ | ⟨r, hr, rfl⟩
    · rw [hfirst]
      decide
    · exact (hs r hr).1
    · exact (ha r hr).1
    · exact (ho r hr).1
    · exact (hh r hr).1
    · exact (ht r hr).1
    · exact (hd r hr).1
  · intro h
    have hindex : ∀ {α : Type} {provenanceOf : α → Provenance} {records : List α},
        (∀ p ∈ records.map provenanceOf, p ∈ snapshotProvenances value) →
        ∀ record ∈ records, (snapshotProvenances value).idxOf (provenanceOf record) < U32_LIMIT :=
      fun hall record hrecord => h.provenances _ (hall _ (List.mem_map_of_mem hrecord))
    refine ⟨hunit.2 h.unitLanguage, option_map_round_trip (fun _ => rfl) _, option_map_round_trip (fun _ => rfl) _, ?_,
      ?_, ?_, ?_, hreferences.2 h.references, hcalls.2 h.calls, ?_, ?_, ?_, completeness_debug _⟩ <;> rw [hprovenances]
    · exact hprovenance
    · exact hsymbols.2 fun r hr => ⟨hindex (fun p hp => hmem.2 (.inr (.inl hp))) r hr, h.symbolLanguages r hr⟩
    · exact happlications.2 fun r hr => ⟨hindex (fun p hp => hmem.2 (.inr (.inr (.inl hp)))) r hr, h.arguments r hr⟩
    · exact hoccurrences.2 fun r hr => ⟨hindex (fun p hp => hmem.2 (.inr (.inr (.inr (.inl hp))))) r hr, h.occurrences r hr⟩
    · exact hhierarchy.2 fun r hr => ⟨hindex (fun p hp => hmem.2 (.inr (.inr (.inr (.inr (.inl hp)))))) r hr, trivial⟩
    · exact htypes.2 fun r hr =>
        ⟨hindex (fun p hp => hmem.2 (.inr (.inr (.inr (.inr (.inr (.inl hp))))))) r hr, h.typeLanguages r hr⟩
    · exact hdiagnostics.2 fun r hr => ⟨hindex (fun p hp => hmem.2 (.inr (.inr (.inr (.inr (.inr (.inr hp))))))) r hr, trivial⟩

theorem decode_fileAnalysisSnapshot_iff {value : FileAnalysisSnapshot} {expected : SourceUnit}
    (hvalid : ValidSnapshot expected value) (hself : SelfContained value) :
    (fileAnalysisSnapshot value >>= decodeFileAnalysisSnapshot) = .ok value ↔ SurvivesTransport value := by
  rw [fileAnalysisSnapshot_eq hself, ok_bind, decode_ok_iff]
  exact encodedSnapshot_decodes_iff hvalid hself

/-- A valid snapshot comes back from its message exactly if the message can carry it. -/
theorem fileAnalysisSnapshot_round_trip {value : FileAnalysisSnapshot} {expected : SourceUnit}
    (hvalid : validateSnapshot expected value = .ok ()) (hself : SelfContained value) :
    (fileAnalysisSnapshot value >>= decodeFileAnalysisSnapshot) = .ok value ↔ SurvivesTransport value :=
  decode_fileAnalysisSnapshot_iff (validateSnapshot_ok_iff.1 hvalid) hself

theorem twoTargets_selfContained : SelfContained twoTargets :=
  ⟨fun _ h => (nomatch h), fun _ h => (nomatch h), fun _ h => (nomatch h), fun _ h => (nomatch h)⟩

theorem twoTargets_survives : SurvivesTransport twoTargets where
  occurrences := by decide
  arguments _ h := (nomatch h)
  unitLanguage := trivial
  symbolLanguages _ h := (nomatch h)
  typeLanguages _ h := (nomatch h)
  provenances := by decide +kernel
  references _ h := (nomatch h)
  calls _ h := (nomatch h)

theorem twoTargets_valid : ValidSnapshot twoTargets.sourceUnit twoTargets := validateSnapshot_ok_iff.1 rfl

theorem twoTargets_round_trip : (fileAnalysisSnapshot twoTargets >>= decodeFileAnalysisSnapshot) = .ok twoTargets :=
  (@fileAnalysisSnapshot_round_trip twoTargets twoTargets.sourceUnit rfl twoTargets_selfContained).2 twoTargets_survives

/-- One type reference. -/
def typeReferenceSnapshot : FileAnalysisSnapshot :=
  { emptySnapshot (sampleUnit "A.kt" "sha256:a") with
    occurrences := [{ sampleCall (sampleUnit "A.kt" "sha256:a") "Service" with kind := .typeReference }] }

theorem typeReference_not_decodable :
    ¬ ∀ (expected : SourceUnit) (value : FileAnalysisSnapshot), validateSnapshot expected value = .ok () →
      SelfContained value → (fileAnalysisSnapshot value >>= decodeFileAnalysisSnapshot) = .ok value := by
  intro h
  have hok := h typeReferenceSnapshot.sourceUnit typeReferenceSnapshot rfl
    ⟨fun _ h => (nomatch h), fun _ h => (nomatch h), fun _ h => (nomatch h), fun _ h => (nomatch h)⟩
  have herror : (fileAnalysisSnapshot typeReferenceSnapshot >>= decodeFileAnalysisSnapshot) =
      .error (.unsupported "occurrence kind typereference") := by decide +kernel
  rw [herror] at hok
  cases hok

end WorkerAdapter

end Kide
