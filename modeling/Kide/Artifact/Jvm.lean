import Kide.Artifact.Adapter
import Kide.Artifact.Layout

/-!
# The blob encoder of the JVM worker

`JvmArtifactBlobLayout.kt` writes the layout Core reads. It first replaces the identities declared in the
artifact by ordinals (`ordinalizeLocalGraphFacts`); its detail blocks have no string table, and its
directory is sorted by UTF-16 code units.

A list or an array of the JVM holds at most `Int.MAX_VALUE` elements, and a longer one is an exception.
-/

namespace Kide

open ArtifactProto ArtifactLayout

namespace JvmArtifactBlobLayout

open ArtifactAdapter

/-- `Int.MAX_VALUE` -/
def INT_MAX : Nat := 2147483647

/-! ## Ordinals for identities -/

def ordinals (artifact : GraphArtifact) : Ordinals := (artifact.symbols.map ArtifactSymbol.id).zipIdx

/-- An optional identity field and its ordinal: a declared identity is cleared and its ordinal set. -/
def ordinalizeOptional (id : Option String) (ordinal : Option Nat) (ordinals : Ordinals) : Option String × Option Nat :=
  match id.bind fun id => localOrdinal id ordinals with
  | some found => (none, some found)
  | none => (id, ordinal)

def ordinalizeId (id : String) (ordinal : Option Nat) (ordinals : Ordinals) : String × Option Nat :=
  match localOrdinal id ordinals with
  | some found => ("", some found)
  | none => (id, ordinal)

def ordinalizeSymbol (ordinals : Ordinals) (symbol : ArtifactSymbol) : ArtifactSymbol :=
  let owner := ordinalizeOptional symbol.ownerId symbol.ownerSymbolOrdinal ordinals
  { symbol with ownerId := owner.1, ownerSymbolOrdinal := owner.2 }

def ordinalizeOccurrence (ordinals : Ordinals) (occurrence : ArtifactOccurrence) : ArtifactOccurrence :=
  let enclosing := ordinalizeOptional occurrence.enclosingSymbolId occurrence.enclosingSymbolOrdinal ordinals
  let target := ordinalizeOptional occurrence.targetSymbolId occurrence.targetSymbolOrdinal ordinals
  { occurrence with
    enclosingSymbolId := enclosing.1
    enclosingSymbolOrdinal := enclosing.2
    targetSymbolId := target.1
    targetSymbolOrdinal := target.2 }

def ordinalizeReference (ordinals : Ordinals) (edge : ArtifactReference) : ArtifactReference :=
  let target := ordinalizeId edge.targetSymbolId edge.targetSymbolOrdinal ordinals
  { edge with targetSymbolId := target.1, targetSymbolOrdinal := target.2 }

def ordinalizeCall (ordinals : Ordinals) (edge : ArtifactCall) : ArtifactCall :=
  let target := ordinalizeId edge.targetSymbolId edge.targetSymbolOrdinal ordinals
  let caller := ordinalizeOptional edge.callerSymbolId edge.callerSymbolOrdinal ordinals
  { edge with
    targetSymbolId := target.1
    targetSymbolOrdinal := target.2
    callerSymbolId := caller.1
    callerSymbolOrdinal := caller.2 }

def ordinalizeHierarchy (ordinals : Ordinals) (edge : ArtifactHierarchy) : ArtifactHierarchy :=
  let subtype := ordinalizeId edge.subtypeSymbolId edge.subtypeSymbolOrdinal ordinals
  let supertype := ordinalizeId edge.supertypeSymbolId edge.supertypeSymbolOrdinal ordinals
  { edge with
    subtypeSymbolId := subtype.1
    subtypeSymbolOrdinal := subtype.2
    supertypeSymbolId := supertype.1
    supertypeSymbolOrdinal := supertype.2 }

def ordinalizeSnapshot (ordinals : Ordinals) (snapshot : GraphSnapshot) : GraphSnapshot :=
  { snapshot with
    symbols := snapshot.symbols.map (ordinalizeSymbol ordinals)
    occurrences := snapshot.occurrences.map (ordinalizeOccurrence ordinals)
    references := snapshot.references.map (ordinalizeReference ordinals)
    calls := snapshot.calls.map (ordinalizeCall ordinals)
    hierarchy := snapshot.hierarchy.map (ordinalizeHierarchy ordinals) }

def ordinalizeLocalGraphFacts (artifact : GraphArtifact) : GraphArtifact :=
  ⟨artifact.snapshots.map (ordinalizeSnapshot (ordinals artifact))⟩

/-! ## Sections -/

def postingEntries : Nat → Nat → List GraphSnapshot → List ArtifactSymbolPosting
  | _, _, [] => []
  | sourceUnitIndex, firstOrdinal, snapshot :: rest =>
    (snapshot.symbols.zipIdx.map fun entry => ⟨sourceUnitIndex, firstOrdinal + entry.2⟩) ++
      postingEntries (sourceUnitIndex + 1) (firstOrdinal + snapshot.symbols.length) rest

/-- The UTF-16 code units of a string. -/
def codeUnits (text : String) : List Nat :=
  text.toList.flatMap fun c =>
    if c.toNat < 0x10000 then [c.toNat]
    else [0xd800 + (c.toNat - 0x10000) / 0x400, 0xdc00 + (c.toNat - 0x10000) % 0x400]

def directoryLe (a b : ArtifactQualifiedSymbolEntry) : Prop :=
  codeUnits a.qualifiedName < codeUnits b.qualifiedName ∨
    (codeUnits a.qualifiedName = codeUnits b.qualifiedName ∧ a.symbolOrdinal ≤ b.symbolOrdinal)

instance : DecidableRel directoryLe := fun a b =>
  inferInstanceAs (Decidable (codeUnits a.qualifiedName < codeUnits b.qualifiedName ∨
    (codeUnits a.qualifiedName = codeUnits b.qualifiedName ∧ a.symbolOrdinal ≤ b.symbolOrdinal)))

def directoryEntries (graph : GraphArtifact) : List ArtifactQualifiedSymbolEntry :=
  graph.symbols.zipIdx.filterMap fun entry => entry.1.qualifiedName.map fun name => ⟨name, entry.2⟩

/-- What an absent source unit reads as. -/
def emptySourceUnit : ArtifactSourceUnit := ⟨"", "", "", "", "", "", ""⟩

def commonProvenance (symbols : List ArtifactSymbol) : Option Nat :=
  match symbols with
  | [] => none
  | first :: _ =>
    let candidate := first.provenanceIndex.getD 0
    if ∀ symbol ∈ symbols, symbol.provenanceIndex = some candidate then some candidate else none

def snapshotDefaults (snapshot : GraphSnapshot) (symbols : List ArtifactSymbol) : ArtifactSymbolSnapshotDefaults where
  sourceUnit := some (snapshot.sourceUnit.getD emptySourceUnit)
  provenances := snapshot.provenances
  language := commonSymbolField symbols (·.language)
  freshness := commonSymbolField symbols (·.freshness)
  completeness := commonSymbolField symbols (·.completeness)
  componentId := commonSymbolField symbols (·.componentId)
  provenanceIndex := commonProvenance symbols
  stringTable := []

def symbolDetail (defaults : ArtifactSymbolSnapshotDefaults) (symbol : ArtifactSymbol) : ArtifactSymbolDetail where
  id := symbol.id
  backendKey := symbol.backendKey
  backendSchemaVersion := symbol.backendSchemaVersion
  kind := symbol.kind
  name := symbol.name
  qualifiedName := symbol.qualifiedName
  signature := symbol.signature
  declaration := symbol.declaration
  nameRange := symbol.nameRange
  ownerId := symbol.ownerId
  modifiers := symbol.modifiers
  appliedSymbolIds := symbol.appliedSymbolIds
  language := unlessDefault symbol.language defaults.language
  freshness := unlessDefault symbol.freshness defaults.freshness
  completeness := unlessDefault symbol.completeness defaults.completeness
  componentId := unlessDefault symbol.componentId defaults.componentId
  provenanceIndex := if symbol.provenanceIndex ≠ defaults.provenanceIndex then symbol.provenanceIndex else none
  backendKeyStringIndex := none
  kindStringIndex := none
  nameStringIndex := none
  qualifiedNameStringIndex := none
  signatureStringIndex := none
  ownerIdStringIndex := none
  modifierStringIndexes := []
  appliedSymbolStringIndexes := []

def detailBlock (snapshot : GraphSnapshot) (chunkStart : Nat) (symbols : List ArtifactSymbol) : ArtifactSymbolDetailBlock :=
  let defaults := snapshotDefaults snapshot symbols
  { firstSymbolOrdinal := chunkStart, defaults := some defaults, entries := symbols.map (symbolDetail defaults) }

variable {reader : BlobReader} (writer : BlobWriter reader)

def snapshotSections (firstOrdinal : Nat) (snapshot : GraphSnapshot) : List SectionContent :=
  (symbolChunks snapshot).zipIdx.map fun chunk =>
    let chunkStart := firstOrdinal + chunk.2 * SYMBOL_DETAIL_BLOCK_ENTRY_CAPACITY
    { kind := .symbolDetailBlock
      bytes := writer.symbolDetailBlock.encode (detailBlock snapshot chunkStart chunk.1)
      compression := 0
      ordinalStart := chunkStart
      ordinalEnd := chunkStart + chunk.1.length }

def detailSections : Nat → List GraphSnapshot → List SectionContent
  | _, [] => []
  | firstOrdinal, snapshot :: rest =>
    snapshotSections writer firstOrdinal snapshot ++ detailSections (firstOrdinal + snapshot.symbols.length) rest

def sections (artifact : GraphArtifact) : List SectionContent :=
  let graph := ordinalizeLocalGraphFacts artifact
  [plainSection .symbolDictionary (writer.symbolDictionary.encode (symbolDictionary graph)) 0,
    plainSection .symbolPostings (writer.symbolPostings.encode ⟨postingEntries 0 0 graph.snapshots⟩) 0,
    -- the postings are taken from the artifact as it was given
    plainSection .hierarchyPostings (writer.hierarchyPostings.encode (hierarchyPostings artifact)) 0,
    plainSection .qualifiedSymbolDirectory
      (writer.qualifiedSymbolDirectory.encode ⟨(directoryEntries graph).insertionSort directoryLe⟩) 0] ++
    detailSections writer 0 graph.snapshots ++
    [plainSection .graphFacts (writer.gzip.encode (writer.graphFacts.encode graph)) 1]

def encode (artifact : GraphArtifact) : Option Bytes :=
  let sections := sections writer artifact
  let bytes := blobBytes (stableToc reader.sha256 sections) sections
  if artifact.snapshots.length ≤ INT_MAX ∧ artifact.symbols.length ≤ INT_MAX ∧ bytes.length ≤ INT_MAX then some bytes
  else none

end JvmArtifactBlobLayout

end Kide
