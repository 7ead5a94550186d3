import Kide.Artifact.Adapter
import Kide.Proto.ArtifactWire
import Kide.Proto.RoundTrip
import Kide.Lib.Sha256

/-!
# Graph artifacts read back

An ordinal stands for the identity at its position (`Resolves`), so a graph snapshot gives the worker
message it was written from, without the applications. A list of snapshots that survive the worker
codec therefore survives the artifact up to its applications.
-/

namespace Kide

open Checks ArtifactProto

namespace ArtifactAdapter

/-! ## Ordinals -/

/-- Every ordinal is the position of its identity. -/
def Resolves (ordinals : Ordinals) (ids : List String) : Prop :=
  ∀ id ordinal, localOrdinal id ordinals = some ordinal → ids[ordinal]? = some id

def ordinalsOf (ids : List String) : Ordinals := ids.zipIdx.map fun entry => (entry.1, asU32 entry.2)

theorem localOrdinal_ordinalsOf {ids : List String} {id : String} {ordinal : Nat}
    (h : localOrdinal id (ordinalsOf ids) = some ordinal) : ∃ position, ids[position]? = some id ∧ asU32 position = ordinal := by
  obtain ⟨entry, hentry, rfl⟩ := Option.map_eq_some_iff.1 h
  obtain ⟨hmem, rfl⟩ := Collects.lastOf_some Prod.fst hentry
  obtain ⟨⟨id, position⟩, hzip, rfl⟩ := List.mem_map.1 hmem
  exact ⟨position, List.mem_zipIdx_iff_getElem?.1 hzip, rfl⟩

theorem resolves_ordinalsOf {ids : List String} (h : ids.length ≤ U32_LIMIT) : Resolves (ordinalsOf ids) ids := by
  intro id ordinal hordinal
  obtain ⟨position, hposition, rfl⟩ := localOrdinal_ordinalsOf hordinal
  obtain ⟨hlt, -⟩ := List.getElem?_eq_some_iff.1 hposition
  rwa [asU32_of_lt (hlt.trans_le h)]

theorem localOrdinals_eq (snapshots : List FileAnalysisSnapshot) :
    localOrdinals snapshots = ordinalsOf ((snapshots.flatMap FileAnalysisSnapshot.symbols).map fun symbol => symbol.id.asStr) := by
  rw [localOrdinals, ordinalsOf, List.zipIdx_map, List.map_map]
  rfl

section Identities

variable {ordinals : Ordinals} {ids : List String} (h : Resolves ordinals ids)
include h

theorem localIdOrDefault_inlineId (value : String) :
    localIdOrDefault (inlineId value ordinals) (localOrdinal value ordinals) ids = value := by
  unfold localIdOrDefault localId inlineId
  cases hordinal : localOrdinal value ordinals with
  | none => rfl
  | some ordinal => simp only [h value ordinal hordinal]

theorem localOptional_inlineOptional (value : Option String) :
    localOptional (inlineOptional value ordinals) (optionalOrdinal value ordinals) ids = value := by
  unfold localOptional inlineOptional optionalOrdinal
  cases value with
  | none => rfl
  | some id =>
    cases hordinal : localOrdinal id ordinals with
    | none => simp [hordinal]
    | some ordinal => simp [hordinal, h id ordinal hordinal]

end Identities

theorem inheritedProvenanceIndex_getD (value snapshot : Nat) :
    (inheritedProvenanceIndex value snapshot).getD snapshot = value := by
  unfold inheritedProvenanceIndex
  by_cases h : value = snapshot
  · rw [if_neg (by simpa using h), Option.getD_none, h]
  · rw [if_pos h, Option.getD_some]

/-! ## Facts -/

theorem decodeRange_range (value : Option WorkerProto.ByteRange) : (value.map range).map decodeRange = value :=
  WorkerAdapter.option_map_round_trip (fun _ => rfl) value

theorem decodeLocation_location (value : Option WorkerProto.SourceLocation) :
    (value.map location).map decodeLocation = value := by
  refine WorkerAdapter.option_map_round_trip (fun value => ?_) value
  rw [location, decodeLocation, decodeRange_range]

section Facts

variable {ordinals : Ordinals} {ids : List String} (h : Resolves ordinals ids) (index : Nat)
include h

theorem decodeSymbol_symbol {value : WorkerProto.SymbolDeclaration} (hunit : value.sourceUnitIndex = 0) :
    decodeSymbol (symbol value index ordinals) index ids = value := by
  unfold decodeSymbol symbol
  simp only [decodeRange_range, localOptional_inlineOptional h, inheritedProvenanceIndex_getD, ← hunit]

theorem decodeOccurrence_occurrence (value : WorkerProto.Occurrence) :
    decodeOccurrence (occurrence value index ordinals) index ids = value := by
  unfold decodeOccurrence occurrence
  simp only [decodeLocation_location, localOptional_inlineOptional h, inheritedProvenanceIndex_getD]

theorem decodeReference_reference (value : WorkerProto.ReferenceEdge) : decodeReference (reference value ordinals) ids = value := by
  unfold decodeReference reference
  simp only [localIdOrDefault_inlineId h]

theorem decodeCall_call (value : WorkerProto.CallEdge) : decodeCall (call value ordinals) ids = value := by
  unfold decodeCall call
  simp only [localIdOrDefault_inlineId h, localOptional_inlineOptional h]

theorem decodeHierarchy_hierarchy (value : WorkerProto.HierarchyEdge) :
    decodeHierarchy (hierarchy value index ordinals) index ids = value := by
  unfold decodeHierarchy hierarchy
  simp only [localIdOrDefault_inlineId h, inheritedProvenanceIndex_getD]

omit h in
theorem decodeType_type (value : WorkerProto.TypeRecord) : decodeType (type value index) index = value := by
  unfold decodeType type
  simp only [inheritedProvenanceIndex_getD]

omit h in
theorem decodeDiagnostic_diagnostic (value : WorkerProto.Diagnostic) :
    decodeDiagnostic (diagnostic value index) index = value := by
  unfold decodeDiagnostic diagnostic
  simp only [decodeRange_range, inheritedProvenanceIndex_getD]

end Facts

/-- A graph snapshot stands for the message it was written from, without its applications. -/
theorem workerSnapshot_graphSnapshot {ordinals : Ordinals} {ids : List String} (h : Resolves ordinals ids)
    {proto : WorkerProto.FileAnalysisSnapshot} (hunit : ∀ symbol ∈ proto.symbols, symbol.sourceUnitIndex = 0) :
    workerSnapshot (graphSnapshot proto ordinals) proto.provenanceIndex ids = { proto with applications := [] } := by
  have hsource : (proto.sourceUnit.map sourceUnit).map decodeSourceUnit = proto.sourceUnit :=
    WorkerAdapter.option_map_round_trip (fun _ => rfl) _
  have hprovenances : (proto.provenances.map provenance).map decodeProvenance = proto.provenances :=
    WorkerAdapter.list_map_round_trip (fun _ => rfl) _
  have hsymbols : (proto.symbols.map fun value => symbol value proto.provenanceIndex ordinals).map
      (fun symbol => decodeSymbol symbol proto.provenanceIndex ids) = proto.symbols := by
    rw [List.map_map]
    exact List.map_congr_left (g := id) (fun value hvalue => decodeSymbol_symbol h _ (hunit value hvalue)) |>.trans (List.map_id _)
  unfold workerSnapshot graphSnapshot
  simp only [WorkerProto.FileAnalysisSnapshot.mk.injEq, hsource, hprovenances, hsymbols, true_and, and_true]
  exact ⟨WorkerAdapter.list_map_round_trip (decodeOccurrence_occurrence h _) _,
    WorkerAdapter.list_map_round_trip (decodeReference_reference h) _,
    WorkerAdapter.list_map_round_trip (decodeCall_call h) _,
    WorkerAdapter.list_map_round_trip (decodeHierarchy_hierarchy h _) _,
    WorkerAdapter.list_map_round_trip (decodeType_type _) _,
    WorkerAdapter.list_map_round_trip (decodeDiagnostic_diagnostic _) _⟩

/-! ## Artifacts -/

/-- The snapshot as an artifact keeps it. -/
def withoutApplications (value : FileAnalysisSnapshot) : FileAnalysisSnapshot := { value with applications := [] }

theorem decodesTo_withoutApplications {message : WorkerProto.FileAnalysisSnapshot} {value : FileAnalysisSnapshot}
    (h : WorkerAdapter.DecodesTo message value) :
    WorkerAdapter.DecodesTo { message with applications := [] } (withoutApplications value) :=
  { h with applications := rfl }

/-- The graph artifact of a list of snapshots, before its encoding. -/
def graphArtifact (snapshots : List FileAnalysisSnapshot) : GraphArtifact where
  snapshots := snapshots.map fun value => graphSnapshot (WorkerAdapter.encodedSnapshot value) (localOrdinals snapshots)

/-- The snapshot comes back from its worker message. -/
def RoundTrips (value : FileAnalysisSnapshot) : Prop :=
  (WorkerAdapter.fileAnalysisSnapshot value >>= WorkerAdapter.decodeFileAnalysisSnapshot) = .ok value

theorem RoundTrips.encoded {value : FileAnalysisSnapshot} (h : RoundTrips value) :
    WorkerAdapter.fileAnalysisSnapshot value = .ok (WorkerAdapter.encodedSnapshot value) ∧
      WorkerAdapter.DecodesTo (WorkerAdapter.encodedSnapshot value) value := by
  obtain ⟨message, hmessage, hdecode⟩ := bind_eq_ok_iff.1 h
  obtain ⟨-, -, rfl⟩ := WorkerAdapter.fileAnalysisSnapshot_ok_iff.1 hmessage
  exact ⟨hmessage, WorkerAdapter.decode_ok_iff.1 hdecode⟩

theorem localIds_graphArtifact (snapshots : List FileAnalysisSnapshot) :
    localIds (graphArtifact snapshots) = (snapshots.flatMap FileAnalysisSnapshot.symbols).map fun symbol => symbol.id.asStr := by
  rw [localIds, GraphArtifact.symbols, graphArtifact, List.flatMap_map, List.map_flatMap, List.map_flatMap]
  refine List.flatMap_congr fun value _ => ?_
  rw [graphSnapshot, WorkerAdapter.encodedSnapshot, List.map_map, List.map_map]
  rfl

theorem resolves_graphArtifact {snapshots : List FileAnalysisSnapshot}
    (hcount : (snapshots.flatMap FileAnalysisSnapshot.symbols).length ≤ U32_LIMIT) :
    Resolves (localOrdinals snapshots) (localIds (graphArtifact snapshots)) := by
  rw [localOrdinals_eq, localIds_graphArtifact]
  exact resolves_ordinalsOf (by rwa [List.length_map])

theorem decodeSnapshot_graphSnapshot {ordinals : Ordinals} {ids : List String} (h : Resolves ordinals ids)
    {value : FileAnalysisSnapshot} (hround : RoundTrips value) :
    decodeSnapshot (graphSnapshot (WorkerAdapter.encodedSnapshot value) ordinals) ids = .ok (withoutApplications value) := by
  have hunit : ∀ symbol ∈ (WorkerAdapter.encodedSnapshot value).symbols, symbol.sourceUnitIndex = 0 := by
    intro symbol hsymbol
    obtain ⟨record, -, hrecord⟩ := List.mem_map.1 hsymbol
    rw [← hrecord]
    rfl
  unfold decodeSnapshot
  rw [show (graphSnapshot (WorkerAdapter.encodedSnapshot value) ordinals).provenanceIndex =
    some (WorkerAdapter.encodedSnapshot value).provenanceIndex from rfl, present, ok_bind,
    workerSnapshot_graphSnapshot h hunit, WorkerAdapter.decode_ok_iff.2 (decodesTo_withoutApplications hround.encoded.2)]
  rfl

theorem decodeGraphArtifact_graphArtifact {snapshots : List FileAnalysisSnapshot} (hround : ∀ value ∈ snapshots, RoundTrips value)
    (hcount : (snapshots.flatMap FileAnalysisSnapshot.symbols).length ≤ U32_LIMIT) :
    decodeGraphArtifact (graphArtifact snapshots) = .ok (snapshots.map withoutApplications) := by
  rw [decodeGraphArtifact, mapM_eq_ok_iff, show (graphArtifact snapshots).snapshots = snapshots.map fun value =>
    graphSnapshot (WorkerAdapter.encodedSnapshot value) (localOrdinals snapshots) from rfl,
    List.forall₂_map_left_iff, List.forall₂_map_right_iff, List.forall₂_same]
  intro value hvalue
  exact decodeSnapshot_graphSnapshot (resolves_graphArtifact hcount) (hround value hvalue)

section Envelope

variable (codec : EnvelopeCodec)

theorem encodeSnapshots_ok {snapshots : List FileAnalysisSnapshot} (hround : ∀ value ∈ snapshots, RoundTrips value) :
    encodeSnapshots codec snapshots = .ok (codec.envelope.encode
      { formatVersion := ARTIFACT_FORMAT_VERSION
        payloadLength := (codec.encodeArtifact (graphArtifact snapshots)).length
        payloadSha256 := codec.sha256 (codec.encodeArtifact (graphArtifact snapshots))
        artifact := some (graphArtifact snapshots) }) := by
  have hvalues : (snapshots.mapM fun value => snapshot value (localOrdinals snapshots)) = .ok (graphArtifact snapshots).snapshots := by
    refine mapM_eq_ok_map_iff.2 fun value hvalue => ?_
    rw [snapshot, (hround value hvalue).encoded.1]
    rfl
  rw [encodeSnapshots, hvalues, ok_bind]
  rfl

/-- The envelope of an artifact passes its own checks. -/
theorem decodeSnapshots_envelope (artifact : GraphArtifact) :
    decodeSnapshots codec (codec.envelope.encode
      { formatVersion := ARTIFACT_FORMAT_VERSION
        payloadLength := (codec.encodeArtifact artifact).length
        payloadSha256 := codec.sha256 (codec.encodeArtifact artifact)
        artifact := some artifact }) = decodeGraphArtifact artifact := by
  rw [decodeSnapshots, decodeEnvelope, codec.envelope.decode_encode, ok_bind, if_neg (by simp), present, ok_bind,
    if_neg (by simp), if_neg (by simp)]

/-- Snapshots that survive the worker codec come back from the artifact without their applications. -/
theorem decodeSnapshots_encodeSnapshots {snapshots : List FileAnalysisSnapshot}
    (hround : ∀ value ∈ snapshots, RoundTrips value)
    (hcount : (snapshots.flatMap FileAnalysisSnapshot.symbols).length ≤ U32_LIMIT) :
    (encodeSnapshots codec snapshots >>= decodeSnapshots codec) = .ok (snapshots.map withoutApplications) := by
  rw [encodeSnapshots_ok codec hround, ok_bind, decodeSnapshots_envelope, decodeGraphArtifact_graphArtifact hround hcount]

end Envelope

/-- The envelope as prost and sha2 write it. -/
def wireCodec : EnvelopeCodec where
  encodeArtifact := GraphArtifact.wire.encode
  decodeEnvelope := ArtifactEnvelope.wire.decode
  envelope := ArtifactEnvelope.wire.encoder
  sha256 := Sha256.digest

theorem twoTargets_in_artifact :
    (encodeSnapshots wireCodec [twoTargets] >>= decodeSnapshots wireCodec) = .ok ([twoTargets].map withoutApplications) := by
  have hround : ∀ value ∈ [twoTargets], RoundTrips value := by
    intro value h
    rw [List.mem_singleton.1 h]
    exact (WorkerAdapter.decode_fileAnalysisSnapshot_iff WorkerAdapter.twoTargets_valid
      WorkerAdapter.twoTargets_selfContained).2 WorkerAdapter.twoTargets_survives
  exact decodeSnapshots_encodeSnapshots wireCodec hround (by decide)

/-! ## What an artifact loses -/

/-- One annotation applied to a declaration. -/
def appliedSnapshot : FileAnalysisSnapshot :=
  let unit := sampleUnit "A.kt" "sha256:a"
  { emptySnapshot unit with
    applications := [⟨⟨"application"⟩, ⟨"Service"⟩, ⟨"Component"⟩, ⟨unit.id, ⟨0, 10⟩⟩, [], .exact, .fresh, .complete,
      sampleProvenance⟩] }

/-- A declaration of its own name, many times, and one more that owns itself. -/
def crowdedSnapshot (count : Nat) : FileAnalysisSnapshot :=
  let unit := sampleUnit "Many.kt" "sha256:a"
  { emptySnapshot unit with
    symbols := List.replicate count (sampleSymbol unit "First") ++ [{ sampleSymbol unit "Last" with owner := some ⟨"Last"⟩ }] }

theorem crowdedSnapshot_symbol {count : Nat} {symbol : SymbolRecord} (h : symbol ∈ (crowdedSnapshot count).symbols) :
    symbol.ValidIn (crowdedSnapshot count).sourceUnit.id ∧ symbol.backendKey.backend = symbol.provenance.backend ∧
      symbol.language.Canonical ∧ symbol.provenance = sampleProvenance := by
  rcases List.mem_append.1 h with h | h
  · rw [List.eq_of_mem_replicate h]
    exact ⟨⟨rfl, ⟨rfl, Nat.zero_le _⟩, rfl, by decide⟩, rfl, trivial, rfl⟩
  · rw [List.mem_singleton.1 h]
    exact ⟨⟨rfl, ⟨rfl, Nat.zero_le _⟩, rfl, by decide⟩, rfl, trivial, rfl⟩

theorem crowdedSnapshot_roundTrips (count : Nat) : RoundTrips (crowdedSnapshot count) := by
  have hvalid : ValidSnapshot (crowdedSnapshot count).sourceUnit (crowdedSnapshot count) :=
    ⟨rfl, rfl, rfl, rfl, fun symbol h => (crowdedSnapshot_symbol h).1, fun _ h => (nomatch h), fun _ h => (nomatch h),
      fun _ h => (nomatch h), fun _ h => (nomatch h), fun _ h => (nomatch h), fun _ h => (nomatch h), fun _ h => (nomatch h)⟩
  have hself : WorkerAdapter.SelfContained (crowdedSnapshot count) :=
    ⟨fun symbol h => (crowdedSnapshot_symbol h).2.1, fun _ h => (nomatch h), fun _ h => (nomatch h), fun _ h => (nomatch h)⟩
  refine (WorkerAdapter.decode_fileAnalysisSnapshot_iff hvalid hself).2 ?_
  refine ⟨fun _ h => (nomatch h), fun _ h => (nomatch h), trivial, fun symbol h => (crowdedSnapshot_symbol h).2.2.1,
    fun _ h => (nomatch h), fun p hp => ?_, fun _ h => (nomatch h), fun _ h => (nomatch h)⟩
  -- one provenance throughout
  have hone : p = (crowdedSnapshot count).provenance := by
    rcases WorkerAdapter.mem_snapshotProvenances.1 hp with rfl | h | h | h | h | h | h
    · rfl
    · obtain ⟨symbol, hsymbol, rfl⟩ := List.mem_map.1 h
      exact (crowdedSnapshot_symbol hsymbol).2.2.2
    all_goals cases h
  rw [hone, WorkerAdapter.snapshotProvenances_first]
  decide

theorem ordinal_of_last {ids : List String} {id : String} :
    localOrdinal id (ordinalsOf (ids ++ [id])) = some (asU32 ids.length) := by
  unfold localOrdinal Collects.lastOf ordinalsOf
  simp [List.zipIdx_append]

/-- The owners a message names are the owners of the decoded declarations. -/
theorem decodesTo_owners {message : WorkerProto.FileAnalysisSnapshot} {value : FileAnalysisSnapshot}
    (h : WorkerAdapter.DecodesTo message value) :
    value.symbols.map (fun symbol => symbol.owner.map (·.asStr)) = message.symbols.map (·.ownerId) := by
  have hsymbols := mapM_eq_ok_iff.1 h.symbols
  have hright : List.Forall₂ (fun (record : WorkerProto.SymbolDeclaration) (symbol : SymbolRecord) =>
      symbol.owner.map (·.asStr) = record.ownerId) message.symbols value.symbols := by
    refine hsymbols.imp fun record symbol hsymbol => ?_
    obtain ⟨p, -, hdecode⟩ := bind_eq_ok_iff.1 hsymbol
    unfold WorkerAdapter.decodeSymbolDeclaration at hdecode
    simp only [bind_eq_ok_iff, pure_eq_ok, Except.ok.injEq] at hdecode
    obtain ⟨_, _, _, _, _, _, _, _, _, _, rfl⟩ := hdecode
    exact WorkerAdapter.option_map_round_trip (fun _ => rfl) record.ownerId
  have := List.forall₂_map_right_iff.2 (List.forall₂_map_left_iff.2 (hright.imp fun record symbol h => h.symm))
  exact (List.forall₂_eq_eq_eq ▸ this : _ = _).symm

theorem canonical_eq_ok_iff {α : Type} {r : Except AdapterError α} {a : α} : canonical r = .ok a ↔ r = .ok a := by
  cases r with
  | error e => exact ⟨fun h => (nomatch h), fun h => (nomatch h)⟩
  | ok b => rw [canonical, Except.ok.injEq, Except.ok.injEq]

/-- The ordinal of the last declaration wraps to that of the first, and the last one's owner with it. -/
theorem crowdedSnapshot_owner {count : Nat} (hcount : 0 < count) (hwraps : asU32 count = 0) :
    decodeGraphArtifact (graphArtifact [crowdedSnapshot count]) ≠ .ok [withoutApplications (crowdedSnapshot count)] := by
  intro h
  have hids : localIds (graphArtifact [crowdedSnapshot count]) = List.replicate count "First" ++ ["Last"] := by
    rw [localIds_graphArtifact, List.flatMap_singleton, crowdedSnapshot, List.map_append, List.map_replicate]
    rfl
  have hordinals : localOrdinals [crowdedSnapshot count] = ordinalsOf (List.replicate count "First" ++ ["Last"]) := by
    rw [localOrdinals_eq, ← localIds_graphArtifact, hids]
  obtain ⟨hsnapshot, -⟩ := List.forall₂_cons.1 (mapM_eq_ok_iff.1 h)
  have howners := decodesTo_owners (WorkerAdapter.decode_ok_iff.1 (canonical_eq_ok_iff.1 hsnapshot))
  have hlast := congrArg List.getLast? howners
  have hfirst : (List.replicate count "First" ++ ["Last"])[0]? = some "First" := by
    rw [List.getElem?_append_left (by rwa [List.length_replicate]), List.getElem?_replicate, if_pos hcount]
  rw [hids, hordinals] at hlast
  simp only [withoutApplications, crowdedSnapshot, workerSnapshot, graphSnapshot, WorkerAdapter.encodedSnapshot,
    List.map_append, List.map_cons, List.map_nil, List.getLast?_concat, decodeSymbol, symbol,
    WorkerAdapter.symbolDeclaration, Option.map_some, optionalOrdinal, Option.bind_some, ordinal_of_last,
    List.length_replicate, hwraps, localOptional, hfirst, Option.some_or, Option.some.injEq] at hlast
  revert hlast
  decide

/-- An application is lost, and past the ordinals of 32 bits an owner is replaced. -/
theorem artifact_loses_facts :
    (¬ ∀ snapshots : List FileAnalysisSnapshot, (∀ value ∈ snapshots, RoundTrips value) →
      (encodeSnapshots wireCodec snapshots >>= decodeSnapshots wireCodec) = .ok snapshots) ∧
    ¬ ∀ snapshots : List FileAnalysisSnapshot, (∀ value ∈ snapshots, RoundTrips value) →
      (encodeSnapshots wireCodec snapshots >>= decodeSnapshots wireCodec) = .ok (snapshots.map withoutApplications) := by
  constructor
  · intro h
    have hround : ∀ value ∈ [appliedSnapshot], RoundTrips value := by
      intro value hvalue
      rw [List.mem_singleton.1 hvalue]
      unfold RoundTrips
      decide +kernel
    have hdecoded := h [appliedSnapshot] hround
    rw [encodeSnapshots_ok wireCodec hround, ok_bind, decodeSnapshots_envelope,
      decodeGraphArtifact_graphArtifact hround (by decide)] at hdecoded
    revert hdecoded
    decide
  · intro h
    have hround : ∀ value ∈ [crowdedSnapshot U32_LIMIT], RoundTrips value := by
      intro value hvalue
      rw [List.mem_singleton.1 hvalue]
      exact crowdedSnapshot_roundTrips _
    have hdecoded := h [crowdedSnapshot U32_LIMIT] hround
    rw [encodeSnapshots_ok wireCodec hround, ok_bind, decodeSnapshots_envelope] at hdecoded
    exact crowdedSnapshot_owner (by decide) (by decide) hdecoded

end ArtifactAdapter

end Kide
