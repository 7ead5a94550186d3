import Kide.Proto.Worker

/-!
# Artifact messages

The messages of `artifact.proto`, as the generated structures hold them. A blob keeps its graph facts
per snapshot; an identity that belongs to a declaration of the same artifact may be replaced by the
declaration's ordinal in the artifact's symbol sequence.
-/

namespace Kide

abbrev Bytes := List UInt8

namespace ArtifactProto

structure ArtifactSourceUnit where
  id : String
  component : String
  path : String
  language : String
  origin : String
  contentFingerprint : String
  contextFingerprint : String
deriving DecidableEq, Repr

structure ArtifactProvenance where
  backend : String
  backendVersion : String
  workerProtocolVersion : Nat
  analysisOptionsFingerprint : String
deriving DecidableEq, Repr

structure ArtifactRange where
  start : Nat
  stop : Nat
deriving DecidableEq, Repr

structure ArtifactLocation where
  sourceUnitIndex : Nat
  range : Option ArtifactRange
deriving DecidableEq, Repr

structure ArtifactSymbol where
  id : String
  backendKey : String
  backendSchemaVersion : Nat
  language : String
  kind : String
  name : String
  qualifiedName : Option String
  signature : Option String
  declaration : Option ArtifactRange
  nameRange : Option ArtifactRange
  ownerId : Option String
  modifiers : List String
  appliedSymbolIds : List String
  freshness : String
  completeness : String
  componentId : String
  provenanceIndex : Option Nat
  ownerSymbolOrdinal : Option Nat
deriving DecidableEq, Repr

structure ArtifactOccurrence where
  location : Option ArtifactLocation
  kind : String
  enclosingSymbolId : Option String
  targetSymbolId : Option String
  typeId : Option String
  precision : String
  freshness : String
  completeness : String
  provenanceIndex : Option Nat
  enclosingSymbolOrdinal : Option Nat
  targetSymbolOrdinal : Option Nat
deriving DecidableEq, Repr

structure ArtifactReference where
  sourceOccurrenceIndex : Nat
  targetSymbolId : String
  precision : String
  targetSymbolOrdinal : Option Nat
deriving DecidableEq, Repr

structure ArtifactCall where
  sourceOccurrenceIndex : Nat
  targetSymbolId : String
  callerSymbolId : Option String
  precision : String
  targetSymbolOrdinal : Option Nat
  callerSymbolOrdinal : Option Nat
deriving DecidableEq, Repr

structure ArtifactHierarchy where
  subtypeSymbolId : String
  supertypeSymbolId : String
  precision : String
  provenanceIndex : Option Nat
  subtypeSymbolOrdinal : Option Nat
  supertypeSymbolOrdinal : Option Nat
deriving DecidableEq, Repr

structure ArtifactType where
  id : String
  language : String
  display : String
  backendKey : Option String
  backendSchemaVersion : Nat
  freshness : String
  completeness : String
  provenanceIndex : Option Nat
deriving DecidableEq, Repr

structure ArtifactDiagnostic where
  sourceUnitIndex : Nat
  range : Option ArtifactRange
  severity : String
  code : Option String
  message : String
  freshness : String
  completeness : String
  provenanceIndex : Option Nat
deriving DecidableEq, Repr

structure GraphSnapshot where
  sourceUnit : Option ArtifactSourceUnit
  structuralFingerprint : Option String
  publicApiFingerprint : Option String
  provenances : List ArtifactProvenance
  symbols : List ArtifactSymbol
  occurrences : List ArtifactOccurrence
  references : List ArtifactReference
  calls : List ArtifactCall
  hierarchy : List ArtifactHierarchy
  types : List ArtifactType
  diagnostics : List ArtifactDiagnostic
  completeness : String
  provenanceIndex : Option Nat
deriving DecidableEq, Repr

structure GraphArtifact where
  snapshots : List GraphSnapshot
deriving DecidableEq, Repr

/-- The symbols of an artifact in ordinal order. -/
def GraphArtifact.symbols (artifact : GraphArtifact) : List ArtifactSymbol := artifact.snapshots.flatMap GraphSnapshot.symbols

structure ArtifactEnvelope where
  formatVersion : Nat
  payloadLength : Nat
  payloadSha256 : Bytes
  artifact : Option GraphArtifact
deriving DecidableEq, Repr

structure ArtifactSymbolDictionaryEntry where
  id : String
  name : String
deriving DecidableEq, Repr

structure ArtifactSymbolDictionary where
  entries : List ArtifactSymbolDictionaryEntry
deriving DecidableEq, Repr

structure ArtifactSymbolPosting where
  sourceUnitIndex : Nat
  symbolOrdinal : Nat
deriving DecidableEq, Repr

structure ArtifactSymbolPostings where
  entries : List ArtifactSymbolPosting
deriving DecidableEq, Repr

structure ArtifactHierarchyPosting where
  subtypeSymbolId : String
  supertypeSymbolId : String
  precision : String
deriving DecidableEq, Repr

structure ArtifactHierarchyPostings where
  entries : List ArtifactHierarchyPosting
deriving DecidableEq, Repr

structure ArtifactQualifiedSymbolEntry where
  qualifiedName : String
  symbolOrdinal : Nat
deriving DecidableEq, Repr

structure ArtifactQualifiedSymbolDirectory where
  entries : List ArtifactQualifiedSymbolEntry
deriving DecidableEq, Repr

structure ArtifactSymbolSnapshotDefaults where
  sourceUnit : Option ArtifactSourceUnit
  provenances : List ArtifactProvenance
  language : String
  freshness : String
  completeness : String
  componentId : String
  provenanceIndex : Option Nat
  stringTable : List String
deriving DecidableEq, Repr

structure ArtifactSymbolDetail where
  id : String
  backendKey : String
  backendSchemaVersion : Nat
  kind : String
  name : String
  qualifiedName : Option String
  signature : Option String
  declaration : Option ArtifactRange
  nameRange : Option ArtifactRange
  ownerId : Option String
  modifiers : List String
  appliedSymbolIds : List String
  language : Option String
  freshness : Option String
  completeness : Option String
  componentId : Option String
  provenanceIndex : Option Nat
  backendKeyStringIndex : Option Nat
  kindStringIndex : Option Nat
  nameStringIndex : Option Nat
  qualifiedNameStringIndex : Option Nat
  signatureStringIndex : Option Nat
  ownerIdStringIndex : Option Nat
  modifierStringIndexes : List Nat
  appliedSymbolStringIndexes : List Nat
deriving DecidableEq, Repr

structure ArtifactSymbolDetailBlock where
  firstSymbolOrdinal : Nat
  defaults : Option ArtifactSymbolSnapshotDefaults
  entries : List ArtifactSymbolDetail
deriving DecidableEq, Repr

inductive ArtifactBlobSectionKind where
  | unspecified
  | symbolDictionary
  | graphFacts
  | symbolPostings
  | hierarchyPostings
  | qualifiedSymbolDirectory
  | symbolDetailBlock
deriving DecidableEq, Repr

/-- The number of a section kind in the schema. -/
def ArtifactBlobSectionKind.number : ArtifactBlobSectionKind → Int32
  | .unspecified => 0
  | .symbolDictionary => 1
  | .graphFacts => 2
  | .symbolPostings => 3
  | .hierarchyPostings => 4
  | .qualifiedSymbolDirectory => 5
  | .symbolDetailBlock => 6

theorem ArtifactBlobSectionKind.number_injective : Function.Injective ArtifactBlobSectionKind.number := by
  intro a b h
  cases a <;> cases b <;> revert h <;> decide

/-- A section of the table of contents. `kind` and `compression` are open enumerations. -/
structure ArtifactBlobSection where
  kind : Int32
  offset : Nat
  length : Nat
  sha256 : Bytes
  compression : Int32
  symbolOrdinalStart : Nat
  symbolOrdinalEnd : Nat
deriving DecidableEq, Repr

structure ArtifactBlobToc where
  layoutVersion : Nat
  sections : List ArtifactBlobSection
deriving DecidableEq, Repr

end ArtifactProto

end Kide
