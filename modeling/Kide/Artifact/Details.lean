import Kide.Artifact.Typed
import Kide.Artifact.GraphRoundTrip

/-!
# Detail blocks read by ordinal

A detail block carries the defaults, the provenances and the strings of its declarations, so that one
declaration is decoded without the graph (`decode_symbol_detail`). The block gives back what it was made
of (`detailSymbol_symbolDetail`), but it has no owner ordinals, and a declaration without a provenance
index of its own takes the first provenance of its snapshot.

`details_agree_iff`: the detail of every ordinal is the declaration of the graph exactly where that makes
no difference.
-/

namespace Kide

open Checks ArtifactProto ArtifactLayout

namespace ArtifactLayout

/-! ## The string table -/

namespace StringTable

variable (table : StringTable)

/-- The string that the index of a value stands for, or the value where it has none. -/
def read (value : String) : String :=
  if value ∈ table.values then (table.values[asU32 (table.values.idxOf value)]?).getD "" else value

/-- The same for a list, which has indexes only if every value has one. -/
def readMany (values : List String) : List String :=
  if ∀ value ∈ values, value ∈ table.values then values.map table.read else values

variable {table}

theorem getElem?_index {value : String} (h : value ∈ table.values) :
    table.values[asU32 (table.values.idxOf value)]? = some (table.read value) := by
  have hlt : asU32 (table.values.idxOf value) < table.values.length := (asU32_le _).trans_lt (List.idxOf_lt_length_of_mem h)
  rw [read, if_pos h, List.getElem?_eq_getElem hlt, Option.getD_some]

theorem index_of_mem {value : String} (h : value ∈ table.values) : table.index value = some (asU32 (table.values.idxOf value)) := if_pos h

theorem index_of_notMem {value : String} (h : value ∉ table.values) : table.index value = none := if_neg h

theorem indexes_eq (values : List String) : table.indexes values =
    if ∀ value ∈ values, value ∈ table.values then values.map fun value => asU32 (table.values.idxOf value) else [] := by
  have hmapM : values.mapM table.index =
      if ∀ value ∈ values, value ∈ table.values then some (values.map fun value => asU32 (table.values.idxOf value)) else none := by
    induction values with
    | nil => rfl
    | cons value values ih =>
      rw [List.mapM_cons, ih]
      by_cases hvalue : value ∈ table.values
      · rw [index_of_mem hvalue]
        by_cases hvalues : ∀ value ∈ values, value ∈ table.values
        · rw [if_pos hvalues, if_pos (List.forall_mem_cons.2 ⟨hvalue, hvalues⟩)]
          rfl
        · rw [if_neg hvalues, if_neg (fun h => hvalues (List.forall_mem_cons.1 h).2)]
          rfl
      · rw [index_of_notMem hvalue, if_neg (fun h => hvalue (List.forall_mem_cons.1 h).1)]
        rfl
  rw [indexes, hmapM]
  split <;> rfl

/-- A table of at most as many strings as there are indexes gives every string back. -/
theorem read_eq (h : table.values.length ≤ U32_LIMIT) (value : String) : table.read value = value := by
  by_cases hvalue : value ∈ table.values
  · have hlt := List.idxOf_lt_length_of_mem hvalue
    have hread := getElem?_index hvalue
    rw [asU32_of_lt (hlt.trans_le h), List.getElem?_eq_getElem hlt, List.getElem_idxOf hlt] at hread
    exact (Option.some.inj hread).symm
  · exact if_neg hvalue

theorem readMany_eq (h : table.values.length ≤ U32_LIMIT) (values : List String) : table.readMany values = values := by
  rw [readMany, List.map_congr_left (g := id) fun value _ => read_eq h value, List.map_id, ite_self]

end StringTable

end ArtifactLayout

namespace ArtifactAdapter

theorem present_eq_ok_iff {α : Type} {value : Option α} {a : α} : present value = .ok a ↔ value = some a := by
  cases value with
  | none => exact ⟨fun h => (nomatch h), fun h => (nomatch h)⟩
  | some b => rw [present, Except.ok.injEq, Option.some.injEq]

section Strings

variable (table : StringTable)

theorem detailString_index (value : String) :
    detailString table.values (table.inline value) (table.index value) = .ok (table.read value) := by
  by_cases h : value ∈ table.values
  · rw [StringTable.index_of_mem h, detailString, StringTable.getElem?_index h, present]
  · rw [StringTable.inline, StringTable.index_of_notMem h, detailString, StringTable.read, if_neg h]
    rfl

theorem detailOptional_index (value : Option String) :
    detailOptional table.values (table.inlineOptional value) (value.bind table.index) = .ok (value.map table.read) := by
  cases value with
  | none => rfl
  | some value =>
    rw [StringTable.inlineOptional, Option.bind_some, Option.map_some]
    by_cases h : value ∈ table.values
    · rw [StringTable.index_of_mem h, detailOptional, StringTable.getElem?_index h]
      rfl
    · rw [Option.filter_some, StringTable.index_of_notMem h, detailOptional, StringTable.read, if_neg h]
      rfl

theorem detailStrings_indexes (values : List String) :
    detailStrings table.values (table.inlineMany values) (table.indexes values) = .ok (table.readMany values) := by
  rw [detailStrings, StringTable.inlineMany, StringTable.indexes_eq, StringTable.readMany]
  by_cases h : ∀ value ∈ values, value ∈ table.values
  · rw [if_pos h, if_pos h]
    cases values with
    | nil => rfl
    | cons value values =>
      rw [if_neg (by simp), mapM_eq_ok_iff, List.forall₂_map_left_iff, List.forall₂_map_right_iff, List.forall₂_same]
      exact fun other hother => present_eq_ok_iff.2 (StringTable.getElem?_index (h other hother))
  · rw [if_neg h, if_neg h, if_pos rfl, if_pos rfl]

end Strings

/-! ## One declaration -/

theorem unlessDefault_getD {α : Type} [DecidableEq α] (value default : α) : (unlessDefault value default).getD default = value := by
  unfold unlessDefault
  by_cases h : value = default
  · rw [if_neg (not_not.2 h), Option.getD_none, h]
  · rw [if_pos h, Option.getD_some]

/-- The declaration Core's detail stands for: its strings are those of the table, and the ordinal of its
owner and its provenance index are left out. -/
def restored (table : StringTable) (symbol : ArtifactSymbol) : ArtifactSymbol :=
  { symbol with
    backendKey := table.read symbol.backendKey
    kind := table.read symbol.kind
    name := table.read symbol.name
    qualifiedName := symbol.qualifiedName.map table.read
    signature := symbol.signature.map table.read
    ownerId := symbol.ownerId.map table.read
    modifiers := table.readMany symbol.modifiers
    appliedSymbolIds := table.readMany symbol.appliedSymbolIds
    provenanceIndex := none
    ownerSymbolOrdinal := none }

theorem detailSymbol_symbolDetail {table : StringTable} {defaults : ArtifactSymbolSnapshotDefaults}
    (htable : defaults.stringTable = table.values) (symbol : ArtifactSymbol) :
    detailSymbol defaults (symbolDetail symbol defaults table) = .ok (restored table symbol) := by
  unfold detailSymbol symbolDetail
  simp only [htable, detailString_index, detailOptional_index, detailStrings_indexes, ok_bind, unlessDefault_getD]
  rfl

/-- The declaration the worker's detail stands for. -/
theorem detailSymbol_jvm (defaults : ArtifactSymbolSnapshotDefaults) (symbol : ArtifactSymbol) :
    detailSymbol defaults (JvmArtifactBlobLayout.symbolDetail defaults symbol) =
      .ok { symbol with provenanceIndex := none, ownerSymbolOrdinal := none } := by
  unfold detailSymbol JvmArtifactBlobLayout.symbolDetail
  simp only [detailString, detailOptional, detailStrings, if_true, ok_bind, unlessDefault_getD]
  rfl

/-! The provenance index of a block is none or that of all its declarations. -/

theorem commonSymbolOption_none_or (symbols : List ArtifactSymbol) (field : ArtifactSymbol → Option Nat) :
    commonSymbolOption symbols field = none ∨ ∀ symbol ∈ symbols, field symbol = commonSymbolOption symbols field := by
  unfold commonSymbolOption
  dsimp only
  split
  · next hall => exact .inr hall
  · exact .inl rfl

theorem commonProvenance_none_or (symbols : List ArtifactSymbol) : JvmArtifactBlobLayout.commonProvenance symbols = none ∨
    ∀ symbol ∈ symbols, symbol.provenanceIndex = JvmArtifactBlobLayout.commonProvenance symbols := by
  unfold JvmArtifactBlobLayout.commonProvenance
  cases symbols with
  | nil => exact .inl rfl
  | cons first rest =>
    dsimp only
    split
    · next hall => exact .inr hall
    · exact .inl rfl

theorem provenanceIndex_of_common {own common : Option Nat} (h : common = none ∨ own = common) :
    ((if own ≠ common then own else none).or common).getD 0 = own.getD 0 := by
  rcases h with rfl | rfl
  · rw [Option.or_none]
    cases own <;> rfl
  · rw [if_neg (not_not.2 rfl), Option.none_or]

theorem unlessDefault_join (own common : Option Nat) :
    (unlessDefault own common).join = if own ≠ common then own else none := by
  unfold unlessDefault
  split <;> rfl

theorem decodeSnapshot_detailSnapshot {unit : ArtifactSourceUnit} {source : SourceUnit}
    (hsource : WorkerAdapter.decodeSourceUnit (decodeSourceUnit unit) = .ok source) (provenance : ArtifactProvenance)
    {symbol : ArtifactSymbol} (hprovenance : symbol.provenanceIndex = none) (ids : List String) :
    (decodeSnapshot (detailSnapshot unit provenance symbol) ids >>= fun snapshot => present snapshot.symbols.head?) =
      canonical (WorkerAdapter.decodeSymbolDeclaration (decodeSymbol symbol 0 ids) source
        (WorkerAdapter.provenance (decodeProvenance provenance))) := by
  have hindex : (decodeSymbol symbol 0 ids).provenanceIndex = 0 := by
    rw [decodeSymbol, hprovenance]
    rfl
  unfold decodeSnapshot detailSnapshot workerSnapshot WorkerAdapter.decodeFileAnalysisSnapshot
  simp only [present, ok_bind, Option.map_some, WorkerAdapter.required, hsource, List.map_cons, List.map_nil,
    WorkerAdapter.indexedProvenance, List.getElem?_cons_zero, WorkerAdapter.decodeIndexed, List.mapM_cons, List.mapM_nil, hindex]
  cases WorkerAdapter.decodeSymbolDeclaration (decodeSymbol symbol 0 ids) source
    (WorkerAdapter.provenance (decodeProvenance provenance)) <;> rfl

/-- The record of a detail: the declaration is read as a snapshot of its own, with its first provenance. -/
theorem decodeSymbolDetail_eq_ok_iff {block : ArtifactSymbolDetailBlock} {position : Nat} {detail : ArtifactSymbolDetail}
    {defaults : ArtifactSymbolSnapshotDefaults} {unit : ArtifactSourceUnit} {symbol : ArtifactSymbol}
    (hentry : block.entries[position]? = some detail) (hdefaults : block.defaults = some defaults)
    (hunit : defaults.sourceUnit = some unit) (hsymbol : detailSymbol defaults detail = .ok symbol)
    {source : SourceUnit} (hsource : WorkerAdapter.decodeSourceUnit (decodeSourceUnit unit) = .ok source)
    (howner : symbol.ownerSymbolOrdinal = none) (hprovenance : symbol.provenanceIndex = none) {record : SymbolRecord} :
    decodeSymbolDetail block (block.firstSymbolOrdinal + position) = .ok record ↔
      ∃ provenance, defaults.provenances[(detail.provenanceIndex.or defaults.provenanceIndex).getD 0]? = some provenance ∧
        WorkerAdapter.decodeSymbolDeclaration (decodeSymbol symbol 0 []) source
          (WorkerAdapter.provenance (decodeProvenance provenance)) = .ok record := by
  unfold decodeSymbolDetail
  have hids : decodeSymbol symbol 0 [symbol.id] = decodeSymbol symbol 0 [] := by
    unfold decodeSymbol localOptional
    rw [howner]
    rfl
  rw [if_neg (by omega), Nat.add_sub_cancel_left, hentry, hdefaults, present, ok_bind, present, ok_bind, hunit, present, ok_bind,
    hsymbol, bind_eq_ok_iff]
  refine exists_congr fun provenance => and_congr present_eq_ok_iff ?_
  rw [ok_bind, decodeSnapshot_detailSnapshot hsource provenance hprovenance, canonical_eq_ok_iff, hids]

/-! ## Declarations of a graph -/

/-- The record is what the graph decoder makes of a declaration in its snapshot. -/
def DecodedFrom (ids : List String) (snapshot : GraphSnapshot) (symbol : ArtifactSymbol) (record : SymbolRecord) : Prop :=
  ∃ unit source index provenance, snapshot.sourceUnit = some unit ∧
    WorkerAdapter.decodeSourceUnit (decodeSourceUnit unit) = .ok source ∧ snapshot.provenanceIndex = some index ∧
    snapshot.provenances[symbol.provenanceIndex.getD index]? = some provenance ∧
    WorkerAdapter.decodeSymbolDeclaration (decodeSymbol symbol index ids) source
      (WorkerAdapter.provenance (decodeProvenance provenance)) = .ok record

theorem decodeSnapshot_eq_ok_iff {snapshot : GraphSnapshot} {ids : List String} {value : FileAnalysisSnapshot} :
    decodeSnapshot snapshot ids = .ok value ↔ ∃ index, snapshot.provenanceIndex = some index ∧
      WorkerAdapter.DecodesTo (workerSnapshot snapshot index ids) value := by
  rw [decodeSnapshot, bind_eq_ok_iff]
  refine exists_congr fun index => and_congr present_eq_ok_iff ?_
  rw [canonical_eq_ok_iff, WorkerAdapter.decode_ok_iff]

theorem decodeSnapshot_symbols {snapshot : GraphSnapshot} {ids : List String} {value : FileAnalysisSnapshot}
    (h : decodeSnapshot snapshot ids = .ok value) : List.Forall₂ (DecodedFrom ids snapshot) snapshot.symbols value.symbols := by
  obtain ⟨index, hindex, hdecodes⟩ := decodeSnapshot_eq_ok_iff.1 h
  obtain ⟨proto, hproto, hsource⟩ := hdecodes.sourceUnit
  obtain ⟨unit, hunit, rfl⟩ := Option.map_eq_some_iff.1 hproto
  have hsymbols := mapM_eq_ok_iff.1 hdecodes.symbols
  rw [show (workerSnapshot snapshot index ids).symbols = snapshot.symbols.map fun symbol => decodeSymbol symbol index ids from rfl,
    List.forall₂_map_left_iff] at hsymbols
  refine hsymbols.imp fun symbol record hrecord => ?_
  obtain ⟨p, hp, hdecode⟩ := bind_eq_ok_iff.1 hrecord
  have hlookup := WorkerAdapter.required_eq_ok_iff.1 hp
  rw [show (workerSnapshot snapshot index ids).provenances = snapshot.provenances.map decodeProvenance from rfl, List.map_map,
    List.getElem?_map] at hlookup
  obtain ⟨provenance, hprovenance, rfl⟩ := Option.map_eq_some_iff.1 hlookup
  exact ⟨unit, value.sourceUnit, index, provenance, hunit, hsource, hindex, hprovenance, hdecode⟩

theorem decodeGraphArtifact_symbols {graph : GraphArtifact} {snapshots : List FileAnalysisSnapshot}
    (h : decodeGraphArtifact graph = .ok snapshots) :
    List.Forall₂ (fun entry record => DecodedFrom (localIds graph) entry.1 entry.2 record) (located graph.snapshots)
      (snapshots.flatMap FileAnalysisSnapshot.symbols) := by
  refine List.rel_flatMap (mapM_eq_ok_iff.1 h) fun snapshot value hsnapshot => ?_
  rw [List.forall₂_map_left_iff]
  exact decodeSnapshot_symbols hsnapshot

theorem map_snd_located (snapshots : List GraphSnapshot) :
    (located snapshots).map Prod.snd = snapshots.flatMap GraphSnapshot.symbols := by
  rw [located, List.map_flatMap]
  refine List.flatMap_congr fun snapshot _ => ?_
  rw [List.map_map]
  exact List.map_id _

theorem decodeGraphArtifact_length {graph : GraphArtifact} {snapshots : List FileAnalysisSnapshot}
    (h : decodeGraphArtifact graph = .ok snapshots) :
    (snapshots.flatMap FileAnalysisSnapshot.symbols).length = graph.symbols.length := by
  rw [← (decodeGraphArtifact_symbols h).length_eq, GraphArtifact.symbols, ← map_snd_located, List.length_map]

/-- The declaration with its owner looked up, without its indexes. -/
def resolved (ids : List String) (symbol : ArtifactSymbol) : ArtifactSymbol :=
  { symbol with
    ownerId := localOptional symbol.ownerId symbol.ownerSymbolOrdinal ids
    provenanceIndex := none
    ownerSymbolOrdinal := none }

theorem decodeRange_injective : Function.Injective decodeRange := by
  rintro ⟨a, b⟩ ⟨c, d⟩ h
  simp only [decodeRange, WorkerProto.ByteRange.mk.injEq] at h
  rw [h.1, h.2]

theorem decodeProvenance_injective : Function.Injective fun value => WorkerAdapter.provenance (decodeProvenance value) := by
  rintro ⟨a, b, c, d⟩ ⟨a', b', c', d'⟩ h
  simp only [WorkerAdapter.provenance, decodeProvenance, Provenance.mk.injEq, Fingerprint.mk.injEq] at h
  simp only [h]

theorem decodeSymbol_eq_iff {stored symbol : ArtifactSymbol} {index : Nat} {ids : List String}
    (howner : stored.ownerSymbolOrdinal = none) (hprovenance : stored.provenanceIndex = none) :
    { decodeSymbol stored 0 [] with
        sourceUnitIndex := (decodeSymbol symbol index ids).sourceUnitIndex
        provenanceIndex := (decodeSymbol symbol index ids).provenanceIndex } = decodeSymbol symbol index ids ↔
      stored = resolved ids symbol := by
  cases stored
  simp only at howner hprovenance
  subst howner hprovenance
  simp only [decodeSymbol, resolved, localOptional, WorkerProto.SymbolDeclaration.mk.injEq, ArtifactSymbol.mk.injEq, true_and,
    and_true, Option.bind_none, Option.none_or, (Option.map_injective decodeRange_injective).eq_iff]

/-- A declaration without a provenance index of its own has the first provenance of its snapshot. -/
def FirstProvenance (snapshot : GraphSnapshot) (symbol : ArtifactSymbol) : Prop :=
  symbol.provenanceIndex = none →
    snapshot.provenances[0]? = snapshot.provenanceIndex.bind fun index => snapshot.provenances[index]?

/-- When the detail of a declaration gives the record of the graph. -/
theorem decodeSymbolDetail_iff {block : ArtifactSymbolDetailBlock} {position : Nat} {detail : ArtifactSymbolDetail}
    {defaults : ArtifactSymbolSnapshotDefaults} {stored symbol : ArtifactSymbol} {snapshot : GraphSnapshot} {ids : List String}
    {record : SymbolRecord} (hrecord : DecodedFrom ids snapshot symbol record)
    (hentry : block.entries[position]? = some detail) (hdefaults : block.defaults = some defaults)
    (hunit : ∀ unit, snapshot.sourceUnit = some unit → defaults.sourceUnit = some unit)
    (hprovenances : defaults.provenances = snapshot.provenances)
    (hindex : (detail.provenanceIndex.or defaults.provenanceIndex).getD 0 = symbol.provenanceIndex.getD 0)
    (hstored : detailSymbol defaults detail = .ok stored) (howner : stored.ownerSymbolOrdinal = none)
    (hprovenance : stored.provenanceIndex = none) :
    decodeSymbolDetail block (block.firstSymbolOrdinal + position) = .ok record ↔
      FirstProvenance snapshot symbol ∧ stored = resolved ids symbol := by
  obtain ⟨unit, source, index, own, hsnapshotUnit, hsource, hsnapshotIndex, hown, hdecode⟩ := hrecord
  have hfirst : snapshot.provenances[symbol.provenanceIndex.getD 0]? = some own ↔ FirstProvenance snapshot symbol := by
    unfold FirstProvenance
    rw [hsnapshotIndex, Option.bind_some]
    cases hsymbol : symbol.provenanceIndex with
    | none =>
      rw [hsymbol, Option.getD_none] at hown
      rw [Option.getD_none, hown]
      exact ⟨fun h _ => h, fun h => h rfl⟩
    | some given =>
      rw [hsymbol, Option.getD_some] at hown
      rw [Option.getD_some]
      exact iff_of_true hown fun h => (nomatch h)
  rw [decodeSymbolDetail_eq_ok_iff hentry hdefaults (hunit unit hsnapshotUnit) hstored hsource howner hprovenance, hprovenances,
    hindex, ← hfirst]
  simp only [WorkerAdapter.decodeSymbolDeclaration_same hdecode, decodeSymbol_eq_iff howner hprovenance]
  constructor
  · rintro ⟨other, hother, hsame, hstored⟩
    rw [decodeProvenance_injective hsame] at hother
    exact ⟨hother, hstored⟩
  · rintro ⟨hother, hstored⟩
    exact ⟨own, hother, rfl, hstored⟩

end ArtifactAdapter

namespace ArtifactLayout

open ArtifactAdapter

/-! ## Blobs -/

/-- One detail section has the ordinal, its block is no larger than the encoders cut it, and the detail
is the record. -/
structure DetailIs (reader : BlobReader) (bytes : Bytes) (toc : ArtifactBlobToc) (ordinal : Nat) (record : SymbolRecord) : Prop where
  one : (toc.sections.filter fun value => SectionHolds value ordinal).length = 1
  read : ∃ block, ArtifactBlobSections.symbolDetailBlock reader ⟨toc⟩ ⟨bytes⟩ ordinal = .ok block ∧ block.entries.length ≤ 256 ∧
    decodeSymbolDetail block ordinal = .ok record

/-- The detail of every ordinal is the record of the graph. -/
def DetailsAgree (reader : BlobReader) (bytes : Bytes) (toc : ArtifactBlobToc) (records : List SymbolRecord) : Prop :=
  ∀ ordinal record, records[ordinal]? = some record → DetailIs reader bytes toc ordinal record

variable {reader : BlobReader}

theorem Encoded.detailIs_iff {contents : List SectionContent} {bytes : Bytes} {toc : ArtifactBlobToc}
    (h : Encoded reader contents bytes toc) {content : SectionContent} (hcontent : content ∈ contents) {ordinal : Nat}
    (hholds : content.Holds ordinal) (hplain : content.compression = 0) {block : ArtifactSymbolDetailBlock}
    (hblock : reader.symbolDetailBlock content.bytes = some block) (hsize : block.entries.length ≤ 256) {record : SymbolRecord} :
    DetailIs reader bytes toc ordinal record ↔ decodeSymbolDetail block ordinal = .ok record := by
  have hread : ArtifactBlobSections.symbolDetailBlock reader ⟨toc⟩ ⟨bytes⟩ ordinal = .ok block := by
    rw [h.symbolDetailBlock hcontent hholds hplain, hblock]
    rfl
  constructor
  · rintro ⟨-, other, hother, -, hdetail⟩
    obtain rfl := Except.ok.inj (hread.symm.trans hother)
    exact hdetail
  · exact fun hdetail => ⟨h.one_detailSection hcontent hholds, block, hread, hsize, hdetail⟩

/-- The record of an entry of a block. -/
theorem block_record {graph : GraphArtifact} {snapshots : List FileAnalysisSnapshot} (hvalid : decodeGraphArtifact graph = .ok snapshots)
    {block : SymbolBlock} (hblock : block ∈ symbolBlocks 0 graph.snapshots) {position : Nat} {symbol : ArtifactSymbol}
    (hentry : block.entries[position]? = some symbol) :
    ∃ record, (snapshots.flatMap FileAnalysisSnapshot.symbols)[block.first + position]? = some record ∧
      DecodedFrom (localIds graph) block.snapshot symbol record := by
  have hsymbols := decodeGraphArtifact_symbols hvalid
  obtain ⟨offset, hfirst, hlocated⟩ := block_entry hblock hentry
  rw [Nat.zero_add] at hfirst
  obtain ⟨hlt, hget⟩ := List.getElem?_eq_some_iff.1 hlocated
  have hdecoded := hsymbols.get hlt (hsymbols.length_eq ▸ hlt)
  rw [List.get_eq_getElem, hget] at hdecoded
  rw [hfirst]
  exact ⟨_, List.getElem?_eq_getElem _, hdecoded⟩

/-- The ordinals are the entries of the blocks. -/
theorem detailsAgree_iff {graph : GraphArtifact} {snapshots : List FileAnalysisSnapshot} {bytes : Bytes} {toc : ArtifactBlobToc}
    {keeps : SymbolBlock → ArtifactSymbol → Prop} (hvalid : decodeGraphArtifact graph = .ok snapshots)
    (hblocks : ∀ block ∈ symbolBlocks 0 graph.snapshots, ∀ position symbol record, block.entries[position]? = some symbol →
      DecodedFrom (localIds graph) block.snapshot symbol record →
      (DetailIs reader bytes toc (block.first + position) record ↔ keeps block symbol)) :
    DetailsAgree reader bytes toc (snapshots.flatMap FileAnalysisSnapshot.symbols) ↔
      ∀ block ∈ symbolBlocks 0 graph.snapshots, ∀ symbol ∈ block.entries, keeps block symbol := by
  constructor
  · intro hagree block hblock symbol hsymbol
    obtain ⟨position, hentry⟩ := List.mem_iff_getElem?.1 hsymbol
    obtain ⟨record, hget, hdecoded⟩ := block_record hvalid hblock hentry
    exact (hblocks block hblock position symbol record hentry hdecoded).1 (hagree _ record hget)
  · intro hkeeps ordinal record hget
    have hlt : ordinal < (graph.snapshots.flatMap GraphSnapshot.symbols).length := by
      rw [← GraphArtifact.symbols, ← decodeGraphArtifact_length hvalid]
      exact (List.getElem?_eq_some_iff.1 hget).1
    obtain ⟨block, hblock, hcontains, hentry⟩ := @exists_block 0 _ _ _ (List.getElem?_eq_getElem hlt)
    rw [Nat.zero_add] at hcontains hentry
    obtain ⟨same, hsame, hdecoded⟩ := block_record hvalid hblock hentry
    have hordinal : block.first + (ordinal - block.first) = ordinal := by
      have := hcontains.1
      omega
    rw [hordinal, hget] at hsame
    obtain rfl := Option.some.inj hsame
    have := (hblocks block hblock _ _ _ hentry hdecoded).2 (hkeeps block hblock _ (List.mem_of_getElem? hentry))
    rwa [hordinal] at this

/-! ## Core -/

/-- The strings of the declaration are read back from the table, its owner apart. -/
structure StringTable.Keeps (table : StringTable) (symbol : ArtifactSymbol) : Prop where
  backendKey : table.read symbol.backendKey = symbol.backendKey
  kind : table.read symbol.kind = symbol.kind
  name : table.read symbol.name = symbol.name
  qualifiedName : symbol.qualifiedName.map table.read = symbol.qualifiedName
  signature : symbol.signature.map table.read = symbol.signature
  modifiers : table.readMany symbol.modifiers = symbol.modifiers
  appliedSymbolIds : table.readMany symbol.appliedSymbolIds = symbol.appliedSymbolIds

/-- A table of at most `2^32` strings keeps them all. -/
theorem StringTable.keeps {table : StringTable} (h : table.values.length ≤ U32_LIMIT) (symbol : ArtifactSymbol) :
    table.Keeps symbol := by
  have hread : table.read = id := funext fun value => read_eq h value
  constructor
  case modifiers => exact readMany_eq h _
  case appliedSymbolIds => exact readMany_eq h _
  all_goals simp [hread]

/-- When Core's detail of a declaration is its record. -/
structure CoreKeeps (ids : List String) (block : SymbolBlock) (symbol : ArtifactSymbol) : Prop where
  provenance : FirstProvenance block.snapshot symbol
  owner : symbol.ownerId.map (StringTable.fromSymbols block.entries).read =
    localOptional symbol.ownerId symbol.ownerSymbolOrdinal ids
  strings : (StringTable.fromSymbols block.entries).Keeps symbol

theorem restored_eq_resolved_iff {table : StringTable} {symbol : ArtifactSymbol} {ids : List String} :
    restored table symbol = resolved ids symbol ↔
      symbol.ownerId.map table.read = localOptional symbol.ownerId symbol.ownerSymbolOrdinal ids ∧ table.Keeps symbol := by
  simp only [restored, resolved, ArtifactSymbol.mk.injEq, true_and, and_true]
  constructor
  · rintro ⟨hkey, hkind, hname, hqualified, hsignature, howner, hmodifiers, happlied⟩
    exact ⟨howner, hkey, hkind, hname, hqualified, hsignature, hmodifiers, happlied⟩
  · rintro ⟨howner, hkeeps⟩
    exact ⟨hkeeps.backendKey, hkeeps.kind, hkeeps.name, hkeeps.qualifiedName, hkeeps.signature, howner, hkeeps.modifiers,
      hkeeps.appliedSymbolIds⟩

theorem core_provenanceIndex {block : SymbolBlock} {symbol : ArtifactSymbol} (hsymbol : symbol ∈ block.entries) (table : StringTable) :
    ((symbolDetail symbol { snapshotDefaults block.snapshot block.entries with stringTable := table.values } table).provenanceIndex.or
      (snapshotDefaults block.snapshot block.entries).provenanceIndex).getD 0 = symbol.provenanceIndex.getD 0 := by
  rw [symbolDetail, unlessDefault_join]
  exact provenanceIndex_of_common ((commonSymbolOption_none_or block.entries _).imp_right fun hall => hall symbol hsymbol)

theorem core_entry {block : SymbolBlock} {position : Nat} {symbol : ArtifactSymbol} (hentry : block.entries[position]? = some symbol)
    (start : Nat) : (detailBlock block.snapshot start block.entries).entries[position]? =
      some (symbolDetail symbol
        { snapshotDefaults block.snapshot block.entries with stringTable := (StringTable.fromSymbols block.entries).values }
        (StringTable.fromSymbols block.entries)) := by
  rw [detailBlock, List.getElem?_map, hentry]
  rfl

theorem core_detail_iff {writer : BlobWriter reader} {graph : GraphArtifact} (hcount : graph.symbols.length < U32_LIMIT)
    {layout : ArtifactBlobLayout} (h : ArtifactBlobLayout.encode writer graph = some layout) {block : SymbolBlock}
    (hblock : block ∈ symbolBlocks 0 graph.snapshots) {position : Nat} {symbol : ArtifactSymbol} {record : SymbolRecord}
    (hentry : block.entries[position]? = some symbol) (hdecoded : DecodedFrom (localIds graph) block.snapshot symbol record) :
    DetailIs reader layout.bytes layout.toc (block.first + position) record ↔ CoreKeeps (localIds graph) block symbol := by
  have hlt := (List.getElem?_eq_some_iff.1 hentry).1
  have hcontains : block.Contains (block.first + position) := ⟨by omega, Nat.add_lt_add_left hlt _⟩
  have hstart : asU32 block.first = block.first := (blockSection_interval writer hcount hblock).1
  have hdetail : decodeSymbolDetail (detailBlock block.snapshot (asU32 block.first) block.entries) (asU32 block.first + position) =
      .ok record ↔ FirstProvenance block.snapshot symbol ∧
        restored (StringTable.fromSymbols block.entries) symbol = resolved (localIds graph) symbol :=
    decodeSymbolDetail_iff hdecoded (core_entry hentry _) rfl (fun _ hunit => hunit) rfl
      (core_provenanceIndex (List.mem_of_getElem? hentry) _) (detailSymbol_symbolDetail rfl symbol) rfl rfl
  rw [(encode_encoded hcount h).detailIs_iff (blockSection_mem writer hblock) (blockSection_holds writer hcount hblock hcontains) rfl
    (writer.symbolDetailBlock.decode_encode _) (by rw [detailBlock, List.length_map]; exact (block_length hblock).2)]
  rw [hstart, restored_eq_resolved_iff] at hdetail
  rw [hstart, hdetail]
  exact ⟨fun ⟨hprovenance, howner, hstrings⟩ => ⟨hprovenance, howner, hstrings⟩, fun h => ⟨h.provenance, h.owner, h.strings⟩⟩

/-- Where an index or the default in its place is within a list, so is the index or 0. -/
theorem exists_first_or_own {α : Type} {l : List α} {index : Option Nat} {fallback : Nat} {own : α}
    (hown : l[index.getD fallback]? = some own) : ∃ first, l[index.getD 0]? = some first := by
  cases index with
  | some given => exact ⟨own, hown⟩
  | none =>
    have hpos := (Nat.zero_le _).trans_lt (List.getElem?_eq_some_iff.1 hown).1
    exact ⟨_, List.getElem?_eq_getElem hpos⟩

/-- What Core's detail of an entry decodes to, if anything, has its identity. -/
theorem core_detail_decodes_iff {ids : List String} {block : SymbolBlock} {position : Nat} {symbol : ArtifactSymbol}
    {record : SymbolRecord} (hentry : block.entries[position]? = some symbol)
    (hdecoded : DecodedFrom ids block.snapshot symbol record) (start : Nat) :
    ((∃ found, decodeSymbolDetail (detailBlock block.snapshot start block.entries) (start + position) = .ok found) ↔
      ∃ kind, WorkerAdapter.symbolKind ((StringTable.fromSymbols block.entries).read symbol.kind) = .ok kind) ∧
    ∀ found, decodeSymbolDetail (detailBlock block.snapshot start block.entries) (start + position) = .ok found →
      found.id = ⟨symbol.id⟩ := by
  obtain ⟨unit, source, index, own, hunit, hsource, hindex, hown, hdecode⟩ := hdecoded
  have hread : ∀ found, decodeSymbolDetail (detailBlock block.snapshot start block.entries) (start + position) = .ok found ↔
      ∃ provenance, block.snapshot.provenances[symbol.provenanceIndex.getD 0]? = some provenance ∧
        WorkerAdapter.decodeSymbolDeclaration (decodeSymbol (restored (StringTable.fromSymbols block.entries) symbol) 0 []) source
          (WorkerAdapter.provenance (decodeProvenance provenance)) = .ok found := by
    intro found
    rw [← core_provenanceIndex (List.mem_of_getElem? hentry) (StringTable.fromSymbols block.entries)]
    exact decodeSymbolDetail_eq_ok_iff (core_entry hentry start) rfl hunit (detailSymbol_symbolDetail rfl symbol) hsource rfl rfl
  have hprovenance := exists_first_or_own hown
  have hfields := WorkerAdapter.decodeSymbolDeclaration_ok_iff.1 ⟨record, hdecode⟩
  constructor
  · constructor
    · rintro ⟨found, hfound⟩
      obtain ⟨provenance, -, hdetail⟩ := (hread found).1 hfound
      exact (WorkerAdapter.decodeSymbolDeclaration_ok_iff.1 ⟨found, hdetail⟩).2.2.1
    · intro hkind
      obtain ⟨provenance, hprovenance⟩ := hprovenance
      obtain ⟨found, hfound⟩ : ∃ found, WorkerAdapter.decodeSymbolDeclaration
          (decodeSymbol (restored (StringTable.fromSymbols block.entries) symbol) 0 []) source
          (WorkerAdapter.provenance (decodeProvenance provenance)) = .ok found :=
        WorkerAdapter.decodeSymbolDeclaration_ok_iff.2 ⟨hfields.1, hfields.2.1, hkind, hfields.2.2.2⟩
      exact ⟨found, (hread found).2 ⟨provenance, hprovenance, hfound⟩⟩
  · intro found hfound
    obtain ⟨provenance, -, hdetail⟩ := (hread found).1 hfound
    exact congrArg SymbolId.mk (congrArg WorkerProto.SymbolDeclaration.id (WorkerAdapter.symbolDeclaration_decode hdetail).1)

theorem core_details_iff {writer : BlobWriter reader} {graph : GraphArtifact} {snapshots : List FileAnalysisSnapshot}
    (hvalid : decodeGraphArtifact graph = .ok snapshots) {layout : ArtifactBlobLayout}
    (h : ArtifactBlobLayout.encode writer graph = some layout) :
    DetailsAgree reader layout.bytes layout.toc (snapshots.flatMap FileAnalysisSnapshot.symbols) ↔
      graph.symbols.length < U32_LIMIT ∧
        ∀ block ∈ symbolBlocks 0 graph.snapshots, ∀ symbol ∈ block.entries, CoreKeeps (localIds graph) block symbol := by
  by_cases hcount : graph.symbols.length < U32_LIMIT
  · rw [and_iff_right hcount]
    exact detailsAgree_iff hvalid fun block hblock position symbol record hentry hdecoded =>
      core_detail_iff hcount h hblock hentry hdecoded
  · refine iff_of_false (fun hagree => ?_) fun hkeeps => hcount hkeeps.1
    -- no section has the last ordinal of 32 bits
    have hlast : U32_LIMIT - 1 < (snapshots.flatMap FileAnalysisSnapshot.symbols).length := by
      rw [decodeGraphArtifact_length hvalid]
      have : 0 < U32_LIMIT := by decide
      omega
    have hone := (hagree _ _ (List.getElem?_eq_getElem hlast)).one
    obtain ⟨value, hvalue⟩ := List.exists_mem_of_length_pos (hone ▸ Nat.one_pos)
    obtain ⟨hmem, hholds⟩ := List.mem_filter.1 hvalue
    have hend := (of_decide_eq_true hholds).2.2
    have := ordinalEnd_lt h hmem
    omega

/-! ## The worker -/

open JvmArtifactBlobLayout (ordinals ordinalizeOptional ordinalizeSymbol ordinalizeSnapshot ordinalizeLocalGraphFacts)

/-- When the worker's detail of a declaration is its record: its owner has no ordinal. -/
structure WorkerKeeps (ids : List String) (snapshot : GraphSnapshot) (symbol : ArtifactSymbol) : Prop where
  provenance : FirstProvenance snapshot symbol
  owner : symbol.ownerId = localOptional symbol.ownerId symbol.ownerSymbolOrdinal ids
  foreign : ∀ id ∈ symbol.ownerId, id ∉ ids

theorem localOrdinal_isNone_iff {graph : GraphArtifact} {id : String} :
    localOrdinal id (ordinals graph) = none ↔ id ∉ localIds graph := by
  rw [localOrdinal, Option.map_eq_none_iff, ← Option.not_isSome_iff_eq_none, Collects.lastOf_isSome_iff, ordinals, List.zipIdx_map_fst]
  rfl

theorem ordinalized_owner_iff {graph : GraphArtifact} {symbol : ArtifactSymbol} :
    (ordinalizeOptional symbol.ownerId symbol.ownerSymbolOrdinal (ordinals graph)).1 =
        localOptional symbol.ownerId symbol.ownerSymbolOrdinal (localIds graph) ↔
      symbol.ownerId = localOptional symbol.ownerId symbol.ownerSymbolOrdinal (localIds graph) ∧
        ∀ id ∈ symbol.ownerId, id ∉ localIds graph := by
  unfold ordinalizeOptional
  cases howner : symbol.ownerId with
  | none => simp
  | some id =>
    rw [Option.bind_some]
    cases hordinal : localOrdinal id (ordinals graph) with
    | none => simp [localOrdinal_isNone_iff.1 hordinal]
    | some ordinal =>
      have hlocal : id ∈ localIds graph := by
        by_contra hforeign
        rw [localOrdinal_isNone_iff.2 hforeign] at hordinal
        cases hordinal
      refine iff_of_false (fun h => ?_) fun h => h.2 id rfl hlocal
      rw [localOptional] at h
      cases hfound : symbol.ownerSymbolOrdinal.bind fun ordinal => (localIds graph)[ordinal]? <;> simp [hfound] at h

theorem worker_detail_iff {writer : BlobWriter reader} {graph : GraphArtifact} {bytes : Bytes}
    (h : JvmArtifactBlobLayout.encode writer graph = some bytes) {block : SymbolBlock}
    (hblock : block ∈ symbolBlocks 0 graph.snapshots) {position : Nat} {symbol : ArtifactSymbol} {record : SymbolRecord}
    (hentry : block.entries[position]? = some symbol) (hdecoded : DecodedFrom (localIds graph) block.snapshot symbol record) :
    DetailIs reader bytes (stableToc reader.sha256 (JvmArtifactBlobLayout.sections writer graph)) (block.first + position) record ↔
      WorkerKeeps (localIds graph) block.snapshot symbol := by
  have hlt := (List.getElem?_eq_some_iff.1 hentry).1
  let stored : SymbolBlock :=
    ⟨block.first, ordinalizeSnapshot (ordinals graph) block.snapshot, block.entries.map (ordinalizeSymbol (ordinals graph))⟩
  have hstored : stored ∈ symbolBlocks 0 (ordinalizeLocalGraphFacts graph).snapshots := by
    rw [ordinalizeLocalGraphFacts, symbolBlocks_map fun _ => rfl]
    exact List.mem_map_of_mem hblock
  have hholds : (JvmArtifactBlobLayout.blockSection writer stored).Holds (block.first + position) := by
    refine ⟨rfl, Nat.le_add_right _ _, ?_⟩
    rw [JvmArtifactBlobLayout.blockSection, List.length_map]
    exact Nat.add_lt_add_left hlt _
  have hdetail : decodeSymbolDetail (JvmArtifactBlobLayout.detailBlock stored.snapshot stored.first stored.entries)
      (block.first + position) = .ok record ↔ FirstProvenance block.snapshot symbol ∧
        { ordinalizeSymbol (ordinals graph) symbol with provenanceIndex := none, ownerSymbolOrdinal := none } =
          resolved (localIds graph) symbol :=
    decodeSymbolDetail_iff hdecoded (by rw [JvmArtifactBlobLayout.detailBlock, List.getElem?_map, List.getElem?_map, hentry]; rfl)
      rfl (fun unit hunit => by
        rw [JvmArtifactBlobLayout.snapshotDefaults]
        exact congrArg (fun found : Option ArtifactSourceUnit => some (found.getD JvmArtifactBlobLayout.emptySourceUnit)) hunit) rfl
      (provenanceIndex_of_common ((commonProvenance_none_or stored.entries).imp_right fun hall =>
        hall _ (List.mem_map_of_mem (List.mem_of_getElem? hentry))))
      (detailSymbol_jvm _ _) rfl rfl
  rw [(JvmArtifactBlobLayout.encode_encoded h).detailIs_iff (JvmArtifactBlobLayout.blockSection_mem writer hstored) hholds rfl
    (writer.symbolDetailBlock.decode_encode _)
    (by rw [JvmArtifactBlobLayout.detailBlock, List.length_map, List.length_map]; exact (block_length hblock).2), hdetail]
  have howner : { ordinalizeSymbol (ordinals graph) symbol with provenanceIndex := none, ownerSymbolOrdinal := none } =
      resolved (localIds graph) symbol ↔ (ordinalizeOptional symbol.ownerId symbol.ownerSymbolOrdinal (ordinals graph)).1 =
        localOptional symbol.ownerId symbol.ownerSymbolOrdinal (localIds graph) := by
    simp only [ordinalizeSymbol, resolved, ArtifactSymbol.mk.injEq, true_and, and_true]
  rw [howner, ordinalized_owner_iff]
  exact ⟨fun ⟨hprovenance, howner, hforeign⟩ => ⟨hprovenance, howner, hforeign⟩,
    fun h => ⟨h.provenance, h.owner, h.foreign⟩⟩

theorem worker_details_iff {writer : BlobWriter reader} {graph : GraphArtifact} {snapshots : List FileAnalysisSnapshot}
    (hvalid : decodeGraphArtifact graph = .ok snapshots) {bytes : Bytes} (h : JvmArtifactBlobLayout.encode writer graph = some bytes)
    {layout : ArtifactBlobLayout} (hlayout : ArtifactBlobLayout.validate reader bytes = .ok layout) :
    DetailsAgree reader layout.bytes layout.toc (snapshots.flatMap FileAnalysisSnapshot.symbols) ↔
      ∀ block ∈ symbolBlocks 0 graph.snapshots, ∀ symbol ∈ block.entries, WorkerKeeps (localIds graph) block.snapshot symbol := by
  obtain rfl := Except.ok.inj ((JvmArtifactBlobLayout.encode_encoded h).validate.symm.trans hlayout)
  exact detailsAgree_iff hvalid fun block hblock position symbol record hentry hdecoded =>
    worker_detail_iff h hblock hentry hdecoded

/-- The details of a blob are the declarations of its graph exactly if every declaration takes its owner
inline, and its provenance from its own index or from the first of its snapshot. The worker replaces an
inline owner that the artifact declares; Core keeps it, as far as its indexes have 32 bits. -/
theorem details_agree_iff (core worker : BlobWriter reader) {graph : GraphArtifact} {snapshots : List FileAnalysisSnapshot}
    (hvalid : decodeGraphArtifact graph = .ok snapshots) :
    (∀ layout, ArtifactBlobLayout.encode core graph = some layout →
      (DetailsAgree reader layout.bytes layout.toc (snapshots.flatMap FileAnalysisSnapshot.symbols) ↔
        graph.symbols.length < U32_LIMIT ∧
          ∀ block ∈ symbolBlocks 0 graph.snapshots, ∀ symbol ∈ block.entries, CoreKeeps (localIds graph) block symbol)) ∧
    (∀ bytes, JvmArtifactBlobLayout.encode worker graph = some bytes →
      ∀ layout, ArtifactBlobLayout.validate reader bytes = .ok layout →
        (DetailsAgree reader layout.bytes layout.toc (snapshots.flatMap FileAnalysisSnapshot.symbols) ↔
          ∀ block ∈ symbolBlocks 0 graph.snapshots, ∀ symbol ∈ block.entries,
            WorkerKeeps (localIds graph) block.snapshot symbol)) :=
  ⟨fun _ h => core_details_iff hvalid h, fun _ h _ hlayout => worker_details_iff hvalid h hlayout⟩

/-- Two declarations of a file, as Core writes them to an artifact. -/
def declaringSnapshot (owner : Option SymbolId) : FileAnalysisSnapshot :=
  let unit := sampleUnit "A.kt" "sha256:a"
  { emptySnapshot unit with symbols := [sampleSymbol unit "A", { sampleSymbol unit "A.run" with owner }] }

def declaringGraph (owner : Option SymbolId) : GraphArtifact := graphArtifact [declaringSnapshot owner]

theorem encode_eq_of_toc {graph : GraphArtifact} {toc : ArtifactBlobToc}
    (htoc : stableToc wireReader.sha256 (sections wireWriter graph) = toc)
    (hsize : (blobBytes toc (sections wireWriter graph)).length ≤ ISIZE_MAX) :
    ArtifactBlobLayout.encode wireWriter graph = some ⟨blobBytes toc (sections wireWriter graph), toc⟩ := by
  unfold ArtifactBlobLayout.encode
  dsimp only
  rw [htoc, if_pos hsize]

theorem jvm_encode_eq_of_toc {graph : GraphArtifact} {toc : ArtifactBlobToc}
    (htoc : stableToc wireReader.sha256 (JvmArtifactBlobLayout.sections wireWriter graph) = toc)
    (hsize : graph.snapshots.length ≤ JvmArtifactBlobLayout.INT_MAX ∧ graph.symbols.length ≤ JvmArtifactBlobLayout.INT_MAX ∧
      (blobBytes toc (JvmArtifactBlobLayout.sections wireWriter graph)).length ≤ JvmArtifactBlobLayout.INT_MAX) :
    JvmArtifactBlobLayout.encode wireWriter graph = some (blobBytes toc (JvmArtifactBlobLayout.sections wireWriter graph)) := by
  unfold JvmArtifactBlobLayout.encode
  dsimp only
  rw [htoc, if_pos hsize]


theorem declaringGraph_blobs (owner : Option SymbolId) (howner : owner = none ∨ owner = some ⟨"A"⟩) :
    (∃ layout, ArtifactBlobLayout.encode wireWriter (declaringGraph owner) = some layout) ∧
      ∃ bytes, JvmArtifactBlobLayout.encode wireWriter (declaringGraph owner) = some bytes := by
  have htoc : stableToc wireReader.sha256 (sections wireWriter (declaringGraph owner)) =
      (nextToc wireReader.sha256 (sections wireWriter (declaringGraph owner)))^[3] emptyToc :=
    stableToc_eq_iterate _ (by rcases howner with rfl | rfl <;> decide +kernel)
  have hjvm : stableToc wireReader.sha256 (JvmArtifactBlobLayout.sections wireWriter (declaringGraph owner)) =
      (nextToc wireReader.sha256 (JvmArtifactBlobLayout.sections wireWriter (declaringGraph owner)))^[3] emptyToc :=
    stableToc_eq_iterate _ (by rcases howner with rfl | rfl <;> decide +kernel)
  exact ⟨⟨_, encode_eq_of_toc htoc (by rcases howner with rfl | rfl <;> decide +kernel)⟩,
    ⟨_, jvm_encode_eq_of_toc hjvm (by rcases howner with rfl | rfl <;> decide +kernel)⟩⟩

theorem declaringGraph_valid (owner : Option SymbolId) (howner : owner = none ∨ owner = some ⟨"A"⟩) :
    decodeGraphArtifact (declaringGraph owner) = .ok [declaringSnapshot owner] := by
  rcases howner with rfl | rfl <;> decide +kernel

/-- One block of both declarations. -/
def declaringBlock (owner : Option SymbolId) : SymbolBlock :=
  ⟨0, graphSnapshot (WorkerAdapter.encodedSnapshot (declaringSnapshot owner)) (localOrdinals [declaringSnapshot owner]),
    (declaringGraph owner).symbols⟩

theorem symbolBlocks_declaringGraph (owner : Option SymbolId) :
    symbolBlocks 0 (declaringGraph owner).snapshots = [declaringBlock owner] := by
  rw [show (declaringGraph owner).snapshots = [(declaringBlock owner).snapshot] from rfl, symbolBlocks, symbolBlocks, List.append_nil]
  exact snapshotBlocks_of_short (List.cons_ne_nil _ _) (show 2 ≤ 256 by decide)

theorem declaringGraph_keeps : ∀ block ∈ symbolBlocks 0 (declaringGraph none).snapshots, ∀ symbol ∈ block.entries,
    CoreKeeps (localIds (declaringGraph none)) block symbol ∧
      WorkerKeeps (localIds (declaringGraph none)) block.snapshot symbol := by
  intro block hblock symbol hsymbol
  rw [symbolBlocks_declaringGraph, List.mem_singleton] at hblock
  subst hblock
  have htable : (StringTable.fromSymbols (declaringBlock none).entries).values.length ≤ U32_LIMIT := by decide +kernel
  have howner : symbol.ownerId = none ∧ symbol.ownerSymbolOrdinal = none := by
    rcases List.mem_cons.1 hsymbol with rfl | hsymbol
    · exact ⟨rfl, rfl⟩
    · rw [List.mem_singleton.1 hsymbol]
      exact ⟨rfl, rfl⟩
  refine ⟨⟨fun _ => rfl, ?_, StringTable.keeps htable symbol⟩, fun _ => rfl, ?_, ?_⟩
  · rw [howner.1, howner.2]
    rfl
  · rw [howner.1, howner.2]
    rfl
  · rw [howner.1]
    exact fun id h => (nomatch h)

theorem declaringGraph_details :
    (∃ layout, ArtifactBlobLayout.encode wireWriter (declaringGraph none) = some layout ∧
      DetailsAgree wireReader layout.bytes layout.toc (declaringSnapshot none).symbols) ∧
    (∃ layout : ArtifactBlobLayout, JvmArtifactBlobLayout.encode wireWriter (declaringGraph none) = some layout.bytes ∧
      DetailsAgree wireReader layout.bytes layout.toc (declaringSnapshot none).symbols) := by
  obtain ⟨hcore, hworker⟩ := details_agree_iff wireWriter wireWriter (declaringGraph_valid none (.inl rfl))
  obtain ⟨⟨layout, hlayout⟩, bytes, hbytes⟩ := declaringGraph_blobs none (.inl rfl)
  have hvalidate := (JvmArtifactBlobLayout.encode_encoded hbytes).validate
  refine ⟨⟨layout, hlayout, (hcore layout hlayout).2 ⟨by decide, fun block hblock symbol hsymbol => ?_⟩⟩,
    ⟨_, hbytes, (hworker bytes hbytes _ hvalidate).2 fun block hblock symbol hsymbol => ?_⟩⟩
  · exact (declaringGraph_keeps block hblock symbol hsymbol).1
  · exact (declaringGraph_keeps block hblock symbol hsymbol).2

/-- The owner of a method is missing from its detail in the blob of either encoder. -/
theorem declaringGraph_owner_missing :
    (¬ ∀ (graph : GraphArtifact) (snapshots : List FileAnalysisSnapshot), decodeGraphArtifact graph = .ok snapshots →
      ∀ layout, ArtifactBlobLayout.encode wireWriter graph = some layout →
        DetailsAgree wireReader layout.bytes layout.toc (snapshots.flatMap FileAnalysisSnapshot.symbols)) ∧
    ¬ ∀ (graph : GraphArtifact) (snapshots : List FileAnalysisSnapshot), decodeGraphArtifact graph = .ok snapshots →
      ∀ bytes, JvmArtifactBlobLayout.encode wireWriter graph = some bytes →
        ∀ layout, ArtifactBlobLayout.validate wireReader bytes = .ok layout →
          DetailsAgree wireReader layout.bytes layout.toc (snapshots.flatMap FileAnalysisSnapshot.symbols) := by
  have hvalid := declaringGraph_valid (some ⟨"A"⟩) (.inr rfl)
  obtain ⟨⟨layout, hlayout⟩, bytes, hbytes⟩ := declaringGraph_blobs (some ⟨"A"⟩) (.inr rfl)
  have hblock : declaringBlock (some ⟨"A"⟩) ∈ symbolBlocks 0 (declaringGraph (some ⟨"A"⟩)).snapshots := by
    rw [symbolBlocks_declaringGraph]
    exact List.mem_singleton_self _
  constructor
  · intro h
    have hkeeps := (core_details_iff hvalid hlayout).1 (h _ _ hvalid layout hlayout)
    have howner := (hkeeps.2 _ hblock _ (List.mem_cons_of_mem _ List.mem_cons_self)).owner
    revert howner
    decide +kernel
  · intro h
    have hvalidate := (JvmArtifactBlobLayout.encode_encoded hbytes).validate
    have hkeeps := (worker_details_iff hvalid hbytes hvalidate).1 (h _ _ hvalid bytes hbytes _ hvalidate)
    have howner := (hkeeps _ hblock _ (List.mem_cons_of_mem _ List.mem_cons_self)).owner
    revert howner
    decide +kernel

end ArtifactLayout

end Kide
