import Kide.Artifact.Toc
import Kide.Lib.Chunks
import Kide.Lib.Collect

/-!
# The blob layout

The encoder of Core and its two readers (`artifact_blob_layout.rs`): `ArtifactBlobLayout` holds the whole
blob in memory, `ArtifactBlobSections` reads ranges of a cache file. Both parse the same table of contents.

Protobuf decoding, gzip and SHA-256 are third-party code. `BlobReader` is what the readers use of them,
and `BlobWriter` an encoder for each message a reader decodes; the table of contents is written in the
wire format itself, whose lengths the encoder depends on.

Ordinals are `u32`, so additions of ordinals wrap as they do in a release build. Addresses have 64 bits.
-/

namespace Kide

open ArtifactProto ByteStrings

/-- The only error of a cache file that its ranges can give. -/
inductive ArtifactBlobCacheError where
  | invalidHeader
deriving DecidableEq, Repr

inductive ArtifactBlobLayoutError where
  | invalidHeader
  | unsupportedVersion (version : Nat)
  | decode
  | missingSection (kind : ArtifactBlobSectionKind)
  | checksumMismatch
  | unsupportedCompression (value : Int32)
  | gzip
  | cache (error : ArtifactBlobCacheError)
deriving DecidableEq, Repr

/-- What the readers use of prost, flate2 and sha2. -/
structure BlobReader where
  sha256 : Bytes → Bytes
  gunzip : Bytes → Option Bytes
  toc : Bytes → Option ArtifactBlobToc
  symbolDictionary : Bytes → Option ArtifactSymbolDictionary
  symbolPostings : Bytes → Option ArtifactSymbolPostings
  hierarchyPostings : Bytes → Option ArtifactHierarchyPostings
  qualifiedSymbolDirectory : Bytes → Option ArtifactQualifiedSymbolDirectory
  graphFacts : Bytes → Option GraphArtifact
  symbolDetailBlock : Bytes → Option ArtifactSymbolDetailBlock
  sha256_length : ∀ bytes, (sha256 bytes).length = 32
  toc_encode : ∀ value, toc (ArtifactBlobToc.wire.encode value) = some value

/-- What an encoder uses of its protobuf and gzip libraries. -/
structure BlobWriter (reader : BlobReader) where
  gzip : Encoder reader.gunzip
  symbolDictionary : Encoder reader.symbolDictionary
  symbolPostings : Encoder reader.symbolPostings
  hierarchyPostings : Encoder reader.hierarchyPostings
  qualifiedSymbolDirectory : Encoder reader.qualifiedSymbolDirectory
  graphFacts : Encoder reader.graphFacts
  symbolDetailBlock : Encoder reader.symbolDetailBlock

namespace ArtifactLayout

/-- `?` on a protobuf decoder. -/
def decoded {α : Type} : Option α → Except ArtifactBlobLayoutError α
  | some value => .ok value
  | none => .error .decode

/-- `u64::checked_add` -/
def checkedAdd (a b : Nat) : Option Nat := if a + b < U64_LIMIT then some (a + b) else none

/-! ## The table of contents -/

structure TocLocation where
  offset : Nat
  length : Nat
deriving DecidableEq, Repr

def tocLocation (header : Bytes) : Except ArtifactBlobLayoutError TocLocation :=
  if header.length ≠ HEADER_SIZE ∨ header.take 8 ≠ MAGIC then .error .invalidHeader
  else
    let version := fromLeBytes (slice header 8 4)
    if version ≠ ARTIFACT_BLOB_LAYOUT_VERSION then .error (.unsupportedVersion version)
    else
      let tocOffset := fromLeBytes (slice header 12 8)
      if tocOffset ≠ HEADER_SIZE then .error .invalidHeader
      else .ok ⟨tocOffset, fromLeBytes (slice header 20 8)⟩

def checkSection (tocEnd payloadLen : Nat) (value : ArtifactBlobSection) : Except ArtifactBlobLayoutError Unit :=
  match checkedAdd value.offset value.length with
  | none => .error .invalidHeader
  | some sectionEnd =>
    if value.offset < tocEnd ∨ payloadLen < sectionEnd ∨ value.sha256.length ≠ 32 then .error .invalidHeader else .ok ()

def parseToc (reader : BlobReader) (location : TocLocation) (payloadLen : Nat) (tocBytes : Bytes) :
    Except ArtifactBlobLayoutError ArtifactBlobToc :=
  match checkedAdd location.offset location.length with
  | none => .error .invalidHeader
  | some tocEnd =>
    if tocBytes.length ≠ location.length ∨ payloadLen < tocEnd then .error .invalidHeader
    else do
      let toc ← decoded (reader.toc tocBytes)
      if toc.layoutVersion ≠ ARTIFACT_BLOB_LAYOUT_VERSION then .error (.unsupportedVersion toc.layoutVersion)
      else do
        toc.sections.forM (checkSection tocEnd payloadLen)
        pure toc

def findSection (toc : ArtifactBlobToc) (kind : ArtifactBlobSectionKind) : Except ArtifactBlobLayoutError ArtifactBlobSection :=
  match toc.sections.find? fun value => value.kind = kind.number with
  | some value => .ok value
  | none => .error (.missingSection kind)

/-- The first detail block whose ordinal interval contains the ordinal. -/
def detailSection (toc : ArtifactBlobToc) (ordinal : Nat) : Except ArtifactBlobLayoutError ArtifactBlobSection :=
  match toc.sections.find? fun value =>
    value.kind = ArtifactBlobSectionKind.symbolDetailBlock.number ∧ value.symbolOrdinalStart ≤ ordinal ∧
      ordinal < value.symbolOrdinalEnd with
  | some value => .ok value
  | none => .error (.missingSection .symbolDetailBlock)

def decompressSection (reader : BlobReader) (bytes : Bytes) (compression : Int32) : Except ArtifactBlobLayoutError Bytes :=
  if compression = 0 then .ok bytes
  else if compression = 1 then
    match reader.gunzip bytes with
    | some decoded => .ok decoded
    | none => .error .gzip
  else .error (.unsupportedCompression compression)

end ArtifactLayout

open ArtifactLayout

/-! ## The reader of a whole blob -/

structure ArtifactBlobLayout where
  bytes : Bytes
  toc : ArtifactBlobToc
deriving DecidableEq, Repr

namespace ArtifactBlobLayout

def validate (reader : BlobReader) (bytes : Bytes) : Except ArtifactBlobLayoutError ArtifactBlobLayout :=
  if bytes.length < HEADER_SIZE then .error .invalidHeader
  else do
    let location ← tocLocation (bytes.take HEADER_SIZE)
    match checkedAdd location.offset location.length with
    | none => .error .invalidHeader
    | some tocEnd =>
      if bytes.length < tocEnd then .error .invalidHeader
      else do
        let toc ← parseToc reader location bytes.length (slice bytes location.offset location.length)
        pure ⟨bytes, toc⟩

variable (reader : BlobReader) (layout : ArtifactBlobLayout)

/-- The slice is inside the bytes of a validated blob. -/
def sectionByDescriptor (value : ArtifactBlobSection) : Except ArtifactBlobLayoutError Bytes :=
  let bytes := slice layout.bytes value.offset value.length
  if value.sha256 ≠ reader.sha256 bytes then .error .checksumMismatch else .ok bytes

/-- `section` -/
def sectionBytes (kind : ArtifactBlobSectionKind) : Except ArtifactBlobLayoutError Bytes := do
  let value ← findSection layout.toc kind
  layout.sectionByDescriptor reader value

def symbolPostings : Except ArtifactBlobLayoutError ArtifactSymbolPostings := do
  let bytes ← layout.sectionBytes reader .symbolPostings
  decoded (reader.symbolPostings bytes)

def hierarchyPostings : Except ArtifactBlobLayoutError ArtifactHierarchyPostings := do
  let bytes ← layout.sectionBytes reader .hierarchyPostings
  decoded (reader.hierarchyPostings bytes)

def qualifiedSymbolDirectory : Except ArtifactBlobLayoutError ArtifactQualifiedSymbolDirectory := do
  let bytes ← layout.sectionBytes reader .qualifiedSymbolDirectory
  decoded (reader.qualifiedSymbolDirectory bytes)

def graphFacts : Except ArtifactBlobLayoutError GraphArtifact := do
  let value ← findSection layout.toc .graphFacts
  let bytes ← layout.sectionBytes reader .graphFacts
  let payload ← decompressSection reader bytes value.compression
  decoded (reader.graphFacts payload)

def symbolDetailBlock (ordinal : Nat) : Except ArtifactBlobLayoutError ArtifactSymbolDetailBlock := do
  let value ← detailSection layout.toc ordinal
  let bytes ← layout.sectionByDescriptor reader value
  let payload ← decompressSection reader bytes value.compression
  decoded (reader.symbolDetailBlock payload)

end ArtifactBlobLayout

/-! ## The reader of a cache file -/

/-- A cache file whose header has been checked. -/
structure ArtifactBlob where
  payload : Bytes
deriving DecidableEq, Repr

def ArtifactBlob.readRange (blob : ArtifactBlob) (offset length : Nat) : Except ArtifactBlobLayoutError Bytes :=
  match checkedAdd offset length with
  | none => .error (.cache .invalidHeader)
  | some rangeEnd =>
    if blob.payload.length < rangeEnd then .error (.cache .invalidHeader) else .ok (slice blob.payload offset length)

structure ArtifactBlobSections where
  toc : ArtifactBlobToc
deriving DecidableEq, Repr

namespace ArtifactBlobSections

variable (reader : BlobReader)

/-- `open` -/
def openBlob (blob : ArtifactBlob) : Except ArtifactBlobLayoutError ArtifactBlobSections := do
  let header ← blob.readRange 0 HEADER_SIZE
  let location ← tocLocation header
  let tocBytes ← blob.readRange location.offset location.length
  let toc ← parseToc reader location blob.payload.length tocBytes
  pure ⟨toc⟩

variable (sections : ArtifactBlobSections) (blob : ArtifactBlob)

def readDescriptor (value : ArtifactBlobSection) : Except ArtifactBlobLayoutError Bytes := do
  let bytes ← blob.readRange value.offset value.length
  if value.sha256 ≠ reader.sha256 bytes then .error .checksumMismatch
  else decompressSection reader bytes value.compression

def readSection (kind : ArtifactBlobSectionKind) : Except ArtifactBlobLayoutError Bytes := do
  let value ← findSection sections.toc kind
  readDescriptor reader blob value

def symbolPostings : Except ArtifactBlobLayoutError ArtifactSymbolPostings := do
  let bytes ← sections.readSection reader blob .symbolPostings
  decoded (reader.symbolPostings bytes)

def symbolDictionary : Except ArtifactBlobLayoutError ArtifactSymbolDictionary := do
  let bytes ← sections.readSection reader blob .symbolDictionary
  decoded (reader.symbolDictionary bytes)

def hierarchyPostings : Except ArtifactBlobLayoutError ArtifactHierarchyPostings := do
  let bytes ← sections.readSection reader blob .hierarchyPostings
  decoded (reader.hierarchyPostings bytes)

def qualifiedSymbolDirectory : Except ArtifactBlobLayoutError ArtifactQualifiedSymbolDirectory := do
  let bytes ← sections.readSection reader blob .qualifiedSymbolDirectory
  decoded (reader.qualifiedSymbolDirectory bytes)

def graphFacts : Except ArtifactBlobLayoutError GraphArtifact := do
  let bytes ← sections.readSection reader blob .graphFacts
  decoded (reader.graphFacts bytes)

def symbolDetailBlock (ordinal : Nat) : Except ArtifactBlobLayoutError ArtifactSymbolDetailBlock := do
  let value ← detailSection sections.toc ordinal
  let bytes ← readDescriptor reader blob value
  decoded (reader.symbolDetailBlock bytes)

def symbolDetailBlockStart (ordinal : Nat) : Except ArtifactBlobLayoutError Nat := do
  let value ← detailSection sections.toc ordinal
  pure value.symbolOrdinalStart

end ArtifactBlobSections

/-! ## The string table of a detail block -/

namespace ArtifactLayout

def STRING_INTERN_MIN_OCCURRENCES : Nat := 3
def STRING_INTERN_MIN_BYTES : Nat := 8

/-- The interned values; a value's index is its position. -/
structure StringTable where
  values : List String
deriving DecidableEq, Repr

namespace StringTable

def symbolStrings (symbol : ArtifactSymbol) : List String :=
  [symbol.backendKey, symbol.kind, symbol.name] ++ symbol.qualifiedName.toList ++ symbol.signature.toList ++
    symbol.ownerId.toList ++ symbol.modifiers ++ symbol.appliedSymbolIds

def fromSymbols (symbols : List ArtifactSymbol) : StringTable :=
  let strings := symbols.flatMap symbolStrings
  ⟨(Collects.sortedKeys id (· ≤ ·) strings).filter fun value =>
    STRING_INTERN_MIN_OCCURRENCES ≤ strings.count value ∧ STRING_INTERN_MIN_BYTES ≤ value.utf8ByteSize⟩

variable (table : StringTable)

def index (value : String) : Option Nat :=
  if value ∈ table.values then some (asU32 (table.values.idxOf value)) else none

/-- No index at all unless every value has one. -/
def indexes (values : List String) : List Nat := (values.mapM table.index).getD []

def inline (value : String) : String := if (table.index value).isNone then value else ""

def inlineOptional (value : Option String) : Option String := value.filter fun text => (table.index text).isNone

def inlineMany (values : List String) : List String := if table.indexes values = [] then values else []

end StringTable

/-! ## The encoder -/

def SYMBOL_DETAIL_BLOCK_ENTRY_CAPACITY : Chunks.Size := ⟨256, by decide⟩

/-- The value all symbols have, or the empty string. -/
def commonSymbolField (symbols : List ArtifactSymbol) (field : ArtifactSymbol → String) : String :=
  match symbols with
  | [] => ""
  | first :: _ => if ∀ symbol ∈ symbols, field symbol = field first then field first else ""

def commonSymbolOption (symbols : List ArtifactSymbol) (field : ArtifactSymbol → Option Nat) : Option Nat :=
  let value := symbols.head?.bind field
  if ∀ symbol ∈ symbols, field symbol = value then value else none

def snapshotDefaults (snapshot : GraphSnapshot) (symbols : List ArtifactSymbol) : ArtifactSymbolSnapshotDefaults where
  sourceUnit := snapshot.sourceUnit
  provenances := snapshot.provenances
  language := commonSymbolField symbols (·.language)
  freshness := commonSymbolField symbols (·.freshness)
  completeness := commonSymbolField symbols (·.completeness)
  componentId := commonSymbolField symbols (·.componentId)
  provenanceIndex := commonSymbolOption symbols (·.provenanceIndex)
  stringTable := []

/-- A value that differs from the block's default. -/
def unlessDefault {α : Type} [DecidableEq α] (value default : α) : Option α := if value ≠ default then some value else none

def symbolDetail (symbol : ArtifactSymbol) (defaults : ArtifactSymbolSnapshotDefaults) (table : StringTable) :
    ArtifactSymbolDetail where
  id := symbol.id
  backendKey := table.inline symbol.backendKey
  backendSchemaVersion := symbol.backendSchemaVersion
  kind := table.inline symbol.kind
  name := table.inline symbol.name
  qualifiedName := table.inlineOptional symbol.qualifiedName
  signature := table.inlineOptional symbol.signature
  declaration := symbol.declaration
  nameRange := symbol.nameRange
  ownerId := table.inlineOptional symbol.ownerId
  modifiers := table.inlineMany symbol.modifiers
  appliedSymbolIds := table.inlineMany symbol.appliedSymbolIds
  language := unlessDefault symbol.language defaults.language
  freshness := unlessDefault symbol.freshness defaults.freshness
  completeness := unlessDefault symbol.completeness defaults.completeness
  componentId := unlessDefault symbol.componentId defaults.componentId
  provenanceIndex := (unlessDefault symbol.provenanceIndex defaults.provenanceIndex).join
  backendKeyStringIndex := table.index symbol.backendKey
  kindStringIndex := table.index symbol.kind
  nameStringIndex := table.index symbol.name
  qualifiedNameStringIndex := symbol.qualifiedName.bind table.index
  signatureStringIndex := symbol.signature.bind table.index
  ownerIdStringIndex := symbol.ownerId.bind table.index
  modifierStringIndexes := table.indexes symbol.modifiers
  appliedSymbolStringIndexes := table.indexes symbol.appliedSymbolIds

def detailBlock (snapshot : GraphSnapshot) (chunkStart : Nat) (entries : List ArtifactSymbol) : ArtifactSymbolDetailBlock :=
  let table := StringTable.fromSymbols entries
  let defaults := { snapshotDefaults snapshot entries with stringTable := table.values }
  { firstSymbolOrdinal := chunkStart
    defaults := some defaults
    entries := entries.map fun symbol => symbolDetail symbol defaults table }

def symbolChunks (snapshot : GraphSnapshot) : List (List ArtifactSymbol) :=
  Chunks.chunks SYMBOL_DETAIL_BLOCK_ENTRY_CAPACITY snapshot.symbols.length snapshot.symbols

def symbolDictionary (artifact : GraphArtifact) : ArtifactSymbolDictionary :=
  ⟨artifact.symbols.map fun symbol => ⟨symbol.id, symbol.name⟩⟩

def symbolPostingEntries : Nat → Nat → List GraphSnapshot → List ArtifactSymbolPosting
  | _, _, [] => []
  | sourceUnitIndex, firstOrdinal, snapshot :: rest =>
    (snapshot.symbols.zipIdx.map fun entry => ⟨asU32 sourceUnitIndex, asU32 (firstOrdinal + asU32 entry.2)⟩) ++
      symbolPostingEntries (sourceUnitIndex + 1) (asU32 (firstOrdinal + asU32 snapshot.symbols.length)) rest

def symbolPostings (artifact : GraphArtifact) : ArtifactSymbolPostings := ⟨symbolPostingEntries 0 0 artifact.snapshots⟩

def hierarchyPostings (artifact : GraphArtifact) : ArtifactHierarchyPostings :=
  ⟨(artifact.snapshots.flatMap GraphSnapshot.hierarchy).map fun edge =>
    ⟨edge.subtypeSymbolId, edge.supertypeSymbolId, edge.precision⟩⟩

def directoryLe (a b : ArtifactQualifiedSymbolEntry) : Prop :=
  a.qualifiedName < b.qualifiedName ∨ (a.qualifiedName = b.qualifiedName ∧ a.symbolOrdinal ≤ b.symbolOrdinal)

instance : DecidableRel directoryLe := fun a b =>
  inferInstanceAs (Decidable (a.qualifiedName < b.qualifiedName ∨ (a.qualifiedName = b.qualifiedName ∧ a.symbolOrdinal ≤ b.symbolOrdinal)))

def directoryEntries (artifact : GraphArtifact) : List ArtifactQualifiedSymbolEntry :=
  artifact.symbols.zipIdx.filterMap fun entry => entry.1.qualifiedName.map fun name => ⟨name, asU32 entry.2⟩

def qualifiedSymbolDirectory (artifact : GraphArtifact) : ArtifactQualifiedSymbolDirectory :=
  ⟨(directoryEntries artifact).insertionSort directoryLe⟩

variable {reader : BlobReader} (writer : BlobWriter reader)

def snapshotSections (firstOrdinal : Nat) (snapshot : GraphSnapshot) : List SectionContent :=
  (symbolChunks snapshot).zipIdx.map fun chunk =>
    let chunkStart := asU32 (firstOrdinal + asU32 (chunk.2 * SYMBOL_DETAIL_BLOCK_ENTRY_CAPACITY))
    { kind := .symbolDetailBlock
      bytes := writer.symbolDetailBlock.encode (detailBlock snapshot chunkStart chunk.1)
      compression := 0
      ordinalStart := chunkStart
      ordinalEnd := asU32 (chunkStart + asU32 chunk.1.length) }

def detailSections : Nat → List GraphSnapshot → List SectionContent
  | _, [] => []
  | firstOrdinal, snapshot :: rest =>
    snapshotSections writer firstOrdinal snapshot ++
      detailSections (asU32 (firstOrdinal + asU32 snapshot.symbols.length)) rest

/-- A section that is not a detail block. -/
def plainSection (kind : ArtifactBlobSectionKind) (bytes : Bytes) (compression : Int32) : SectionContent :=
  ⟨kind, bytes, compression, 0, 0⟩

def sections (artifact : GraphArtifact) : List SectionContent :=
  [plainSection .symbolDictionary (writer.symbolDictionary.encode (symbolDictionary artifact)) 0,
    plainSection .symbolPostings (writer.symbolPostings.encode (symbolPostings artifact)) 0,
    plainSection .hierarchyPostings (writer.hierarchyPostings.encode (hierarchyPostings artifact)) 0,
    plainSection .qualifiedSymbolDirectory (writer.qualifiedSymbolDirectory.encode (qualifiedSymbolDirectory artifact)) 0,
    plainSection .graphFacts (writer.gzip.encode (writer.graphFacts.encode artifact)) 1] ++
    detailSections writer 0 artifact.snapshots

/-- The largest allocation. -/
def ISIZE_MAX : Nat := 9223372036854775807

end ArtifactLayout

/-- The allocation of the blob fails past `isize::MAX` bytes. -/
def ArtifactBlobLayout.encode {reader : BlobReader} (writer : BlobWriter reader) (artifact : GraphArtifact) :
    Option ArtifactBlobLayout :=
  let sections := ArtifactLayout.sections writer artifact
  let toc := stableToc reader.sha256 sections
  let bytes := blobBytes toc sections
  if bytes.length ≤ ISIZE_MAX then some ⟨bytes, toc⟩ else none

end Kide
