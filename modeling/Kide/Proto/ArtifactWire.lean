import Kide.Proto.Artifact
import Kide.Lib.Wire

/-!
# Artifact messages on the wire

The field numbers of `artifact.proto`. Each message is its slots, written in the order of their numbers.
-/

namespace Kide

namespace ArtifactProto

open Wire Wire.Slot

abbrev text : Slot String := implicit string ""
abbrev number : Slot Nat := implicit uint 0
abbrev content : Slot Bytes := implicit bytes []
abbrev enumeration : Slot Int32 := implicit int32 0
abbrev optionalText : Slot (Option String) := optional string
abbrev optionalNumber : Slot (Option Nat) := optional uint
abbrev texts : Slot (List String) := repeated string

def ArtifactSourceUnit.wire : Message ArtifactSourceUnit where
  toFields m :=
    text.field 1 m.id ++ text.field 2 m.component ++ text.field 3 m.path ++ text.field 4 m.language ++
      text.field 5 m.origin ++ text.field 6 m.contentFingerprint ++ text.field 7 m.contextFingerprint
  ofFields fields := do
    let id ← text.find 1 fields
    let component ← text.find 2 fields
    let path ← text.find 3 fields
    let language ← text.find 4 fields
    let origin ← text.find 5 fields
    let contentFingerprint ← text.find 6 fields
    let contextFingerprint ← text.find 7 fields
    pure { id, component, path, language, origin, contentFingerprint, contextFingerprint }
  ofFields_toFields m := by simp

def ArtifactProvenance.wire : Message ArtifactProvenance where
  toFields m :=
    text.field 1 m.backend ++ text.field 2 m.backendVersion ++ number.field 3 m.workerProtocolVersion ++
      text.field 4 m.analysisOptionsFingerprint
  ofFields fields := do
    let backend ← text.find 1 fields
    let backendVersion ← text.find 2 fields
    let workerProtocolVersion ← number.find 3 fields
    let analysisOptionsFingerprint ← text.find 4 fields
    pure { backend, backendVersion, workerProtocolVersion, analysisOptionsFingerprint }
  ofFields_toFields m := by simp

def ArtifactRange.wire : Message ArtifactRange where
  toFields m :=
    number.field 1 m.start ++ number.field 2 m.stop
  ofFields fields := do
    let start ← number.find 1 fields
    let stop ← number.find 2 fields
    pure { start, stop }
  ofFields_toFields m := by simp

def ArtifactLocation.wire : Message ArtifactLocation where
  toFields m :=
    number.field 1 m.sourceUnitIndex ++ (optional ArtifactRange.wire.scalar).field 2 m.range
  ofFields fields := do
    let sourceUnitIndex ← number.find 1 fields
    let range ← (optional ArtifactRange.wire.scalar).find 2 fields
    pure { sourceUnitIndex, range }
  ofFields_toFields m := by simp

def ArtifactSymbol.wire : Message ArtifactSymbol where
  toFields m :=
    text.field 1 m.id ++ text.field 2 m.backendKey ++ number.field 3 m.backendSchemaVersion ++
      text.field 4 m.language ++ text.field 5 m.kind ++ text.field 6 m.name ++
      optionalText.field 7 m.qualifiedName ++ optionalText.field 8 m.signature ++
      (optional ArtifactRange.wire.scalar).field 9 m.declaration ++
      (optional ArtifactRange.wire.scalar).field 10 m.nameRange ++ optionalText.field 11 m.ownerId ++
      texts.field 12 m.modifiers ++ texts.field 13 m.appliedSymbolIds ++ text.field 14 m.freshness ++
      text.field 15 m.completeness ++ text.field 16 m.componentId ++ optionalNumber.field 17 m.provenanceIndex ++
      optionalNumber.field 18 m.ownerSymbolOrdinal
  ofFields fields := do
    let id ← text.find 1 fields
    let backendKey ← text.find 2 fields
    let backendSchemaVersion ← number.find 3 fields
    let language ← text.find 4 fields
    let kind ← text.find 5 fields
    let name ← text.find 6 fields
    let qualifiedName ← optionalText.find 7 fields
    let signature ← optionalText.find 8 fields
    let declaration ← (optional ArtifactRange.wire.scalar).find 9 fields
    let nameRange ← (optional ArtifactRange.wire.scalar).find 10 fields
    let ownerId ← optionalText.find 11 fields
    let modifiers ← texts.find 12 fields
    let appliedSymbolIds ← texts.find 13 fields
    let freshness ← text.find 14 fields
    let completeness ← text.find 15 fields
    let componentId ← text.find 16 fields
    let provenanceIndex ← optionalNumber.find 17 fields
    let ownerSymbolOrdinal ← optionalNumber.find 18 fields
    pure
      { id, backendKey, backendSchemaVersion, language, kind, name, qualifiedName, signature, declaration,
        nameRange, ownerId, modifiers, appliedSymbolIds, freshness, completeness, componentId, provenanceIndex,
        ownerSymbolOrdinal }
  ofFields_toFields m := by simp

def ArtifactOccurrence.wire : Message ArtifactOccurrence where
  toFields m :=
    (optional ArtifactLocation.wire.scalar).field 1 m.location ++ text.field 2 m.kind ++
      optionalText.field 3 m.enclosingSymbolId ++ optionalText.field 4 m.targetSymbolId ++
      optionalText.field 5 m.typeId ++ text.field 6 m.precision ++ text.field 7 m.freshness ++
      text.field 8 m.completeness ++ optionalNumber.field 9 m.provenanceIndex ++
      optionalNumber.field 10 m.enclosingSymbolOrdinal ++ optionalNumber.field 11 m.targetSymbolOrdinal
  ofFields fields := do
    let location ← (optional ArtifactLocation.wire.scalar).find 1 fields
    let kind ← text.find 2 fields
    let enclosingSymbolId ← optionalText.find 3 fields
    let targetSymbolId ← optionalText.find 4 fields
    let typeId ← optionalText.find 5 fields
    let precision ← text.find 6 fields
    let freshness ← text.find 7 fields
    let completeness ← text.find 8 fields
    let provenanceIndex ← optionalNumber.find 9 fields
    let enclosingSymbolOrdinal ← optionalNumber.find 10 fields
    let targetSymbolOrdinal ← optionalNumber.find 11 fields
    pure
      { location, kind, enclosingSymbolId, targetSymbolId, typeId, precision, freshness, completeness,
        provenanceIndex, enclosingSymbolOrdinal, targetSymbolOrdinal }
  ofFields_toFields m := by simp

def ArtifactReference.wire : Message ArtifactReference where
  toFields m :=
    number.field 1 m.sourceOccurrenceIndex ++ text.field 2 m.targetSymbolId ++ text.field 3 m.precision ++
      optionalNumber.field 4 m.targetSymbolOrdinal
  ofFields fields := do
    let sourceOccurrenceIndex ← number.find 1 fields
    let targetSymbolId ← text.find 2 fields
    let precision ← text.find 3 fields
    let targetSymbolOrdinal ← optionalNumber.find 4 fields
    pure { sourceOccurrenceIndex, targetSymbolId, precision, targetSymbolOrdinal }
  ofFields_toFields m := by simp

def ArtifactCall.wire : Message ArtifactCall where
  toFields m :=
    number.field 1 m.sourceOccurrenceIndex ++ text.field 2 m.targetSymbolId ++
      optionalText.field 3 m.callerSymbolId ++ text.field 4 m.precision ++
      optionalNumber.field 5 m.targetSymbolOrdinal ++ optionalNumber.field 6 m.callerSymbolOrdinal
  ofFields fields := do
    let sourceOccurrenceIndex ← number.find 1 fields
    let targetSymbolId ← text.find 2 fields
    let callerSymbolId ← optionalText.find 3 fields
    let precision ← text.find 4 fields
    let targetSymbolOrdinal ← optionalNumber.find 5 fields
    let callerSymbolOrdinal ← optionalNumber.find 6 fields
    pure
      { sourceOccurrenceIndex, targetSymbolId, callerSymbolId, precision, targetSymbolOrdinal, callerSymbolOrdinal }
  ofFields_toFields m := by simp

def ArtifactHierarchy.wire : Message ArtifactHierarchy where
  toFields m :=
    text.field 1 m.subtypeSymbolId ++ text.field 2 m.supertypeSymbolId ++ text.field 3 m.precision ++
      optionalNumber.field 4 m.provenanceIndex ++ optionalNumber.field 5 m.subtypeSymbolOrdinal ++
      optionalNumber.field 6 m.supertypeSymbolOrdinal
  ofFields fields := do
    let subtypeSymbolId ← text.find 1 fields
    let supertypeSymbolId ← text.find 2 fields
    let precision ← text.find 3 fields
    let provenanceIndex ← optionalNumber.find 4 fields
    let subtypeSymbolOrdinal ← optionalNumber.find 5 fields
    let supertypeSymbolOrdinal ← optionalNumber.find 6 fields
    pure
      { subtypeSymbolId, supertypeSymbolId, precision, provenanceIndex, subtypeSymbolOrdinal,
        supertypeSymbolOrdinal }
  ofFields_toFields m := by simp

def ArtifactType.wire : Message ArtifactType where
  toFields m :=
    text.field 1 m.id ++ text.field 2 m.language ++ text.field 3 m.display ++ optionalText.field 4 m.backendKey ++
      number.field 5 m.backendSchemaVersion ++ text.field 6 m.freshness ++ text.field 7 m.completeness ++
      optionalNumber.field 8 m.provenanceIndex
  ofFields fields := do
    let id ← text.find 1 fields
    let language ← text.find 2 fields
    let display ← text.find 3 fields
    let backendKey ← optionalText.find 4 fields
    let backendSchemaVersion ← number.find 5 fields
    let freshness ← text.find 6 fields
    let completeness ← text.find 7 fields
    let provenanceIndex ← optionalNumber.find 8 fields
    pure { id, language, display, backendKey, backendSchemaVersion, freshness, completeness, provenanceIndex }
  ofFields_toFields m := by simp

def ArtifactDiagnostic.wire : Message ArtifactDiagnostic where
  toFields m :=
    number.field 1 m.sourceUnitIndex ++ (optional ArtifactRange.wire.scalar).field 2 m.range ++
      text.field 3 m.severity ++ optionalText.field 4 m.code ++ text.field 5 m.message ++ text.field 6 m.freshness ++
      text.field 7 m.completeness ++ optionalNumber.field 8 m.provenanceIndex
  ofFields fields := do
    let sourceUnitIndex ← number.find 1 fields
    let range ← (optional ArtifactRange.wire.scalar).find 2 fields
    let severity ← text.find 3 fields
    let code ← optionalText.find 4 fields
    let message ← text.find 5 fields
    let freshness ← text.find 6 fields
    let completeness ← text.find 7 fields
    let provenanceIndex ← optionalNumber.find 8 fields
    pure { sourceUnitIndex, range, severity, code, message, freshness, completeness, provenanceIndex }
  ofFields_toFields m := by simp

def GraphSnapshot.wire : Message GraphSnapshot where
  toFields m :=
    (optional ArtifactSourceUnit.wire.scalar).field 1 m.sourceUnit ++
      optionalText.field 2 m.structuralFingerprint ++ optionalText.field 3 m.publicApiFingerprint ++
      (repeated ArtifactProvenance.wire.scalar).field 4 m.provenances ++
      (repeated ArtifactSymbol.wire.scalar).field 5 m.symbols ++
      (repeated ArtifactOccurrence.wire.scalar).field 6 m.occurrences ++
      (repeated ArtifactReference.wire.scalar).field 7 m.references ++
      (repeated ArtifactCall.wire.scalar).field 8 m.calls ++
      (repeated ArtifactHierarchy.wire.scalar).field 9 m.hierarchy ++
      (repeated ArtifactType.wire.scalar).field 10 m.types ++
      (repeated ArtifactDiagnostic.wire.scalar).field 11 m.diagnostics ++ text.field 12 m.completeness ++
      optionalNumber.field 13 m.provenanceIndex
  ofFields fields := do
    let sourceUnit ← (optional ArtifactSourceUnit.wire.scalar).find 1 fields
    let structuralFingerprint ← optionalText.find 2 fields
    let publicApiFingerprint ← optionalText.find 3 fields
    let provenances ← (repeated ArtifactProvenance.wire.scalar).find 4 fields
    let symbols ← (repeated ArtifactSymbol.wire.scalar).find 5 fields
    let occurrences ← (repeated ArtifactOccurrence.wire.scalar).find 6 fields
    let references ← (repeated ArtifactReference.wire.scalar).find 7 fields
    let calls ← (repeated ArtifactCall.wire.scalar).find 8 fields
    let hierarchy ← (repeated ArtifactHierarchy.wire.scalar).find 9 fields
    let types ← (repeated ArtifactType.wire.scalar).find 10 fields
    let diagnostics ← (repeated ArtifactDiagnostic.wire.scalar).find 11 fields
    let completeness ← text.find 12 fields
    let provenanceIndex ← optionalNumber.find 13 fields
    pure
      { sourceUnit, structuralFingerprint, publicApiFingerprint, provenances, symbols, occurrences, references,
        calls, hierarchy, types, diagnostics, completeness, provenanceIndex }
  ofFields_toFields m := by simp

def GraphArtifact.wire : Message GraphArtifact where
  toFields m :=
    (repeated GraphSnapshot.wire.scalar).field 1 m.snapshots
  ofFields fields := do
    let snapshots ← (repeated GraphSnapshot.wire.scalar).find 1 fields
    pure { snapshots }
  ofFields_toFields m := by simp

def ArtifactEnvelope.wire : Message ArtifactEnvelope where
  toFields m :=
    number.field 1 m.formatVersion ++ number.field 2 m.payloadLength ++ content.field 3 m.payloadSha256 ++
      (optional GraphArtifact.wire.scalar).field 4 m.artifact
  ofFields fields := do
    let formatVersion ← number.find 1 fields
    let payloadLength ← number.find 2 fields
    let payloadSha256 ← content.find 3 fields
    let artifact ← (optional GraphArtifact.wire.scalar).find 4 fields
    pure { formatVersion, payloadLength, payloadSha256, artifact }
  ofFields_toFields m := by simp

def ArtifactSymbolDictionaryEntry.wire : Message ArtifactSymbolDictionaryEntry where
  toFields m :=
    text.field 1 m.id ++ text.field 2 m.name
  ofFields fields := do
    let id ← text.find 1 fields
    let name ← text.find 2 fields
    pure { id, name }
  ofFields_toFields m := by simp

def ArtifactSymbolDictionary.wire : Message ArtifactSymbolDictionary where
  toFields m :=
    (repeated ArtifactSymbolDictionaryEntry.wire.scalar).field 1 m.entries
  ofFields fields := do
    let entries ← (repeated ArtifactSymbolDictionaryEntry.wire.scalar).find 1 fields
    pure { entries }
  ofFields_toFields m := by simp

def ArtifactSymbolPosting.wire : Message ArtifactSymbolPosting where
  toFields m :=
    number.field 1 m.sourceUnitIndex ++ number.field 2 m.symbolOrdinal
  ofFields fields := do
    let sourceUnitIndex ← number.find 1 fields
    let symbolOrdinal ← number.find 2 fields
    pure { sourceUnitIndex, symbolOrdinal }
  ofFields_toFields m := by simp

def ArtifactSymbolPostings.wire : Message ArtifactSymbolPostings where
  toFields m :=
    (repeated ArtifactSymbolPosting.wire.scalar).field 1 m.entries
  ofFields fields := do
    let entries ← (repeated ArtifactSymbolPosting.wire.scalar).find 1 fields
    pure { entries }
  ofFields_toFields m := by simp

def ArtifactHierarchyPosting.wire : Message ArtifactHierarchyPosting where
  toFields m :=
    text.field 1 m.subtypeSymbolId ++ text.field 2 m.supertypeSymbolId ++ text.field 3 m.precision
  ofFields fields := do
    let subtypeSymbolId ← text.find 1 fields
    let supertypeSymbolId ← text.find 2 fields
    let precision ← text.find 3 fields
    pure { subtypeSymbolId, supertypeSymbolId, precision }
  ofFields_toFields m := by simp

def ArtifactHierarchyPostings.wire : Message ArtifactHierarchyPostings where
  toFields m :=
    (repeated ArtifactHierarchyPosting.wire.scalar).field 1 m.entries
  ofFields fields := do
    let entries ← (repeated ArtifactHierarchyPosting.wire.scalar).find 1 fields
    pure { entries }
  ofFields_toFields m := by simp

def ArtifactQualifiedSymbolEntry.wire : Message ArtifactQualifiedSymbolEntry where
  toFields m :=
    text.field 1 m.qualifiedName ++ number.field 2 m.symbolOrdinal
  ofFields fields := do
    let qualifiedName ← text.find 1 fields
    let symbolOrdinal ← number.find 2 fields
    pure { qualifiedName, symbolOrdinal }
  ofFields_toFields m := by simp

def ArtifactQualifiedSymbolDirectory.wire : Message ArtifactQualifiedSymbolDirectory where
  toFields m :=
    (repeated ArtifactQualifiedSymbolEntry.wire.scalar).field 1 m.entries
  ofFields fields := do
    let entries ← (repeated ArtifactQualifiedSymbolEntry.wire.scalar).find 1 fields
    pure { entries }
  ofFields_toFields m := by simp

def ArtifactSymbolSnapshotDefaults.wire : Message ArtifactSymbolSnapshotDefaults where
  toFields m :=
    (optional ArtifactSourceUnit.wire.scalar).field 1 m.sourceUnit ++
      (repeated ArtifactProvenance.wire.scalar).field 2 m.provenances ++ text.field 3 m.language ++
      text.field 4 m.freshness ++ text.field 5 m.completeness ++ text.field 6 m.componentId ++
      optionalNumber.field 7 m.provenanceIndex ++ texts.field 8 m.stringTable
  ofFields fields := do
    let sourceUnit ← (optional ArtifactSourceUnit.wire.scalar).find 1 fields
    let provenances ← (repeated ArtifactProvenance.wire.scalar).find 2 fields
    let language ← text.find 3 fields
    let freshness ← text.find 4 fields
    let completeness ← text.find 5 fields
    let componentId ← text.find 6 fields
    let provenanceIndex ← optionalNumber.find 7 fields
    let stringTable ← texts.find 8 fields
    pure { sourceUnit, provenances, language, freshness, completeness, componentId, provenanceIndex, stringTable }
  ofFields_toFields m := by simp

def ArtifactSymbolDetail.wire : Message ArtifactSymbolDetail where
  toFields m :=
    text.field 1 m.id ++ text.field 2 m.backendKey ++ number.field 3 m.backendSchemaVersion ++ text.field 4 m.kind ++
      text.field 5 m.name ++ optionalText.field 6 m.qualifiedName ++ optionalText.field 7 m.signature ++
      (optional ArtifactRange.wire.scalar).field 8 m.declaration ++
      (optional ArtifactRange.wire.scalar).field 9 m.nameRange ++ optionalText.field 10 m.ownerId ++
      texts.field 11 m.modifiers ++ texts.field 12 m.appliedSymbolIds ++ optionalText.field 13 m.language ++
      optionalText.field 14 m.freshness ++ optionalText.field 15 m.completeness ++
      optionalText.field 16 m.componentId ++ optionalNumber.field 17 m.provenanceIndex ++
      optionalNumber.field 18 m.backendKeyStringIndex ++ optionalNumber.field 19 m.kindStringIndex ++
      optionalNumber.field 20 m.nameStringIndex ++ optionalNumber.field 21 m.qualifiedNameStringIndex ++
      optionalNumber.field 22 m.signatureStringIndex ++ optionalNumber.field 23 m.ownerIdStringIndex ++
      packed.field 24 m.modifierStringIndexes ++ packed.field 25 m.appliedSymbolStringIndexes
  ofFields fields := do
    let id ← text.find 1 fields
    let backendKey ← text.find 2 fields
    let backendSchemaVersion ← number.find 3 fields
    let kind ← text.find 4 fields
    let name ← text.find 5 fields
    let qualifiedName ← optionalText.find 6 fields
    let signature ← optionalText.find 7 fields
    let declaration ← (optional ArtifactRange.wire.scalar).find 8 fields
    let nameRange ← (optional ArtifactRange.wire.scalar).find 9 fields
    let ownerId ← optionalText.find 10 fields
    let modifiers ← texts.find 11 fields
    let appliedSymbolIds ← texts.find 12 fields
    let language ← optionalText.find 13 fields
    let freshness ← optionalText.find 14 fields
    let completeness ← optionalText.find 15 fields
    let componentId ← optionalText.find 16 fields
    let provenanceIndex ← optionalNumber.find 17 fields
    let backendKeyStringIndex ← optionalNumber.find 18 fields
    let kindStringIndex ← optionalNumber.find 19 fields
    let nameStringIndex ← optionalNumber.find 20 fields
    let qualifiedNameStringIndex ← optionalNumber.find 21 fields
    let signatureStringIndex ← optionalNumber.find 22 fields
    let ownerIdStringIndex ← optionalNumber.find 23 fields
    let modifierStringIndexes ← packed.find 24 fields
    let appliedSymbolStringIndexes ← packed.find 25 fields
    pure
      { id, backendKey, backendSchemaVersion, kind, name, qualifiedName, signature, declaration, nameRange,
        ownerId, modifiers, appliedSymbolIds, language, freshness, completeness, componentId, provenanceIndex,
        backendKeyStringIndex, kindStringIndex, nameStringIndex, qualifiedNameStringIndex, signatureStringIndex,
        ownerIdStringIndex, modifierStringIndexes, appliedSymbolStringIndexes }
  ofFields_toFields m := by simp

def ArtifactSymbolDetailBlock.wire : Message ArtifactSymbolDetailBlock where
  toFields m :=
    number.field 1 m.firstSymbolOrdinal ++
      (optional ArtifactSymbolSnapshotDefaults.wire.scalar).field 2 m.defaults ++
      (repeated ArtifactSymbolDetail.wire.scalar).field 3 m.entries
  ofFields fields := do
    let firstSymbolOrdinal ← number.find 1 fields
    let defaults ← (optional ArtifactSymbolSnapshotDefaults.wire.scalar).find 2 fields
    let entries ← (repeated ArtifactSymbolDetail.wire.scalar).find 3 fields
    pure { firstSymbolOrdinal, defaults, entries }
  ofFields_toFields m := by simp

def ArtifactBlobSection.wire : Message ArtifactBlobSection where
  toFields m :=
    enumeration.field 1 m.kind ++ number.field 2 m.offset ++ number.field 3 m.length ++ content.field 4 m.sha256 ++
      enumeration.field 5 m.compression ++ number.field 6 m.symbolOrdinalStart ++ number.field 7 m.symbolOrdinalEnd
  ofFields fields := do
    let kind ← enumeration.find 1 fields
    let offset ← number.find 2 fields
    let length ← number.find 3 fields
    let sha256 ← content.find 4 fields
    let compression ← enumeration.find 5 fields
    let symbolOrdinalStart ← number.find 6 fields
    let symbolOrdinalEnd ← number.find 7 fields
    pure { kind, offset, length, sha256, compression, symbolOrdinalStart, symbolOrdinalEnd }
  ofFields_toFields m := by simp

def ArtifactBlobToc.wire : Message ArtifactBlobToc where
  toFields m :=
    number.field 1 m.layoutVersion ++ (repeated ArtifactBlobSection.wire.scalar).field 2 m.sections
  ofFields fields := do
    let layoutVersion ← number.find 1 fields
    let sections ← (repeated ArtifactBlobSection.wire.scalar).find 2 fields
    pure { layoutVersion, sections }
  ofFields_toFields m := by simp

end ArtifactProto

end Kide
