import Kide.Artifact.Jvm
import Kide.Cache.BlobFile
import Kide.Lib.Intern
import Kide.Lib.Sha256
import Kide.Protocol

/-!
# Facts of JVM artifacts

`JvmBytecodeExtractor.kt` reads the declarations of the class files of an artifact and the locators its descriptor
lists, `ArtifactMaterializer.kt` writes them to a blob. An identity is minted with the hash of the artifact it is
found in, also the identity of a parent class or of an annotation, which another artifact may declare.

ASM reads class files and descriptors (`Asm`), the JSON library prints elements (`JsonText`); both are third-party.
-/

namespace Kide

open ArtifactProto

namespace JvmBytecodeExtractor

/-! ## Class files -/

/-- The binary name of a class as class files have it, with slashes and without dots. -/
structure InternalName where
  text : String
  noDot : '.' ∉ text.toList
deriving DecidableEq

structure Member where
  access : Nat
  name : String
  descriptor : String
  signature : Option String

/-- What a class visitor is told. The annotations are descriptors. -/
structure ClassFile where
  access : Nat
  name : InternalName
  signature : Option String
  superName : Option InternalName
  interfaces : List InternalName
  annotations : List String
  fields : List Member
  methods : List Member

/-- `ClassReader`, and `internalName` and `className` of `Type.getType`. -/
structure Asm where
  classFile : Bytes → ClassFile
  internalName : String → InternalName
  className : String → String

structure JarEntry where
  name : String
  isDirectory : Bool
  bytes : Bytes

/-- A jar with the entries it has, or a directory with its files in path order, named by their relative paths. -/
inductive Artifact where
  | jar (bytes : Bytes) (entries : List JarEntry)
  | directory (files : List (String × Bytes))

def replaceChar (old new : Char) (text : String) : String :=
  String.ofList (text.toList.map fun c => if c = old then new else c)

def codeUnitsLe (a b : String) : Prop := ¬ JvmArtifactBlobLayout.codeUnits b < JvmArtifactBlobLayout.codeUnits a

instance : DecidableRel codeUnitsLe := fun a b =>
  inferInstanceAs (Decidable (¬ JvmArtifactBlobLayout.codeUnits b < JvmArtifactBlobLayout.codeUnits a))

/-- `sortedBy` -/
def sortedBy {α : Type} (text : α → String) (values : List α) : List α :=
  values.insertionSort fun a b => codeUnitsLe (text a) (text b)

def classEntries : Artifact → List (String × Bytes)
  | .jar _ entries =>
    (sortedBy JarEntry.name (entries.filter fun entry =>
      ¬ entry.isDirectory ∧ ".class".toList.isSuffixOf entry.name.toList ∧
        ¬ "module-info.class".toList.isSuffixOf entry.name.toList ∧
        ¬ "META-INF/versions/".toList.isPrefixOf entry.name.toList)).map fun entry => (entry.name, entry.bytes)
  | .directory files =>
    (files.filter fun file => ".class".toList.isSuffixOf file.1.toList).map fun file => (replaceChar '\\' '/' file.1, file.2)

def utf8 (text : String) : Bytes := text.toByteArray.data.toList

def artifactBytes : Artifact → List Bytes
  | .jar bytes _ => [bytes]
  | .directory files => files.map fun file => utf8 file.1 ++ [0] ++ file.2

def hexDigest (bytes : Bytes) : String := String.ofList ((Sha256.digest bytes).flatMap BlobFile.hexByte)

def fingerprint (parts : List Bytes) : String :=
  "sha256:" ++ hexDigest (parts.flatMap fun part => utf8 (toString part.length) ++ [0] ++ part)

def artifactHash (artifact : Artifact) : String := fingerprint (artifactBytes artifact)

/-! ## Facts -/

def ACC_PUBLIC : Nat := 0x1

def ACC_PRIVATE : Nat := 0x2

def ACC_PROTECTED : Nat := 0x4

def ACC_STATIC : Nat := 0x8

def ACC_FINAL : Nat := 0x10

def ACC_INTERFACE : Nat := 0x200

def ACC_ABSTRACT : Nat := 0x400

def ACC_ANNOTATION : Nat := 0x2000

def ACC_ENUM : Nat := 0x4000

def classKind (access : Nat) : String :=
  if access &&& ACC_ANNOTATION ≠ 0 then "interface"
  else if access &&& ACC_INTERFACE ≠ 0 then "interface"
  else if access &&& ACC_ENUM ≠ 0 then "enum"
  else "class"

def modifiers (access : Nat) : List String :=
  [(ACC_PUBLIC, "public"), (ACC_PROTECTED, "protected"), (ACC_PRIVATE, "private"), (ACC_STATIC, "static"),
    (ACC_FINAL, "final"), (ACC_ABSTRACT, "abstract")].filterMap fun modifier =>
    if access &&& modifier.1 ≠ 0 then some modifier.2 else none

def provenance (analysisOptions : String) : Provenance := ⟨"kide-kotlin-jvm", "0.1.0", 3, ⟨analysisOptions⟩⟩

/-- A symbol as JSON; its backend key is its identity. -/
structure SymbolJson where
  id : String
  schemaVersion : Nat
  language : String
  kind : String
  name : String
  qualifiedName : String
  signature : Option String
  component : String
  range : SourceRange
  owner : Option String
  modifiers : List String
  appliedSymbols : List String
  freshness : String
  completeness : String
  provenance : Provenance
deriving DecidableEq

structure HierarchyJson where
  subtype : String
  supertype : String
  precision : String
  provenance : Provenance
deriving DecidableEq

/-- `JsonElement.toString`; two of these elements have one text exactly if they are equal. -/
structure JsonText where
  symbol : SymbolJson → String
  hierarchy : HierarchyJson → String

/-- What one class visitor knows besides the class. -/
structure ClassContext where
  unitId : String
  artifactHash : String
  component : String
  language : String

/-- `replace('/', '.')` -/
def InternalName.dotted (name : InternalName) : String := replaceChar '/' '.' name.text

def symbolId (artifactHash : String) (name : InternalName) : String := "jvm:" ++ artifactHash ++ ":" ++ name.dotted

/-- What follows the last dot. -/
def simpleName (className : String) : String :=
  String.ofList ((className.toList.reverse.takeWhile (· ≠ '.')).reverse)

namespace ClassFile

variable (asm : Asm) (text : JsonText) (context : ClassContext) (file : ClassFile)

def classId : String := symbolId context.artifactHash file.name

def symbol (id kind name qualifiedName : String) (signature owner : Option String) (access : Nat)
    (annotationTargets : List String) : SymbolJson where
  id
  schemaVersion := 1
  language := context.language
  kind
  name
  qualifiedName
  signature
  component := context.component
  range := ⟨⟨context.unitId⟩, ⟨0, 0⟩⟩
  owner
  modifiers := modifiers access
  appliedSymbols := annotationTargets
  freshness := "fresh"
  completeness := "partial"
  provenance := provenance context.artifactHash

def fieldSymbol (field : Member) : SymbolJson :=
  symbol context (classId context file ++ "#field:" ++ field.name ++ ":" ++ field.descriptor) "field" field.name
    (file.name.dotted ++ "." ++ field.name) (some (field.signature.getD (asm.className field.descriptor)))
    (some (classId context file)) field.access []

def methodSymbol (method : Member) : SymbolJson :=
  let kind := if method.name = "<init>" then "constructor" else "method"
  symbol context (classId context file ++ "#" ++ kind ++ ":" ++ method.name ++ method.descriptor) kind method.name
    (file.name.dotted ++ "." ++ method.name) (some (method.signature.getD method.descriptor))
    (some (classId context file)) method.access []

def annotationTargets : List String :=
  file.annotations.map fun descriptor => symbolId context.artifactHash (asm.internalName descriptor)

def classSymbol : SymbolJson :=
  symbol context (classId context file) (classKind file.access) (simpleName file.name.dotted) file.name.dotted
    file.signature none file.access (sortedBy id (annotationTargets asm context file))

def symbols : List SymbolJson :=
  sortedBy text.symbol
    (file.fields.map (fieldSymbol asm context file) ++ file.methods.map (methodSymbol context file) ++
      [classSymbol asm context file])

/-- The parents that have an edge. -/
def parents : List InternalName :=
  sortedBy InternalName.text ((file.superName.toList ++ file.interfaces).filter fun parent => parent.text ≠ "java/lang/Object")

def hierarchy : List HierarchyJson :=
  (parents file).map fun parent =>
    ⟨classId context file, symbolId context.artifactHash parent, "exact", provenance context.artifactHash⟩

def hasKotlinMetadata : Bool := "Lkotlin/Metadata;" ∈ file.annotations

end ClassFile

/-- The snapshot of an artifact; its other lists are empty. -/
structure SnapshotJson where
  sourceUnit : WorkerProto.SourceUnit
  symbols : List SymbolJson
  hierarchy : List HierarchyJson
  completeness : String
  provenance : Provenance

/-- An artifact of the classpath with its component and context. -/
structure ResolvedJvmArtifact where
  artifact : Artifact
  component : String
  context : String
  ecosystem : String
  coordinate : Option String
  version : Option String

def removePrefix (start text : String) : String :=
  if start.toList.isPrefixOf text.toList then String.ofList (text.toList.drop start.toList.length) else text

def removeSuffix (stop text : String) : String :=
  if stop.toList.isSuffixOf text.toList then String.ofList (text.toList.take (text.toList.length - stop.toList.length)) else text

namespace ResolvedJvmArtifact

variable (asm : Asm) (text : JsonText) (resolved : ResolvedJvmArtifact)

def hash : String := artifactHash resolved.artifact

def unitId : String := "jvm:" ++ resolved.hash

def sourceUnit : WorkerProto.SourceUnit where
  id := resolved.unitId
  component := resolved.component
  path := ".kide/dependencies/" ++ removePrefix "sha256:" resolved.hash
  language := "java"
  origin := "dependency"
  content := resolved.hash
  context := resolved.context

def classFiles : List ClassFile := (classEntries resolved.artifact).map fun entry => asm.classFile entry.2

def classContext (file : ClassFile) : ClassContext :=
  ⟨resolved.unitId, resolved.hash, resolved.component, if file.hasKotlinMetadata then "kotlin" else "java"⟩

def extractArtifact : SnapshotJson where
  sourceUnit := resolved.sourceUnit
  symbols := sortedBy text.symbol
    ((resolved.classFiles asm).flatMap fun file => file.symbols asm text (resolved.classContext file)).dedup
  hierarchy := sortedBy text.hierarchy
    ((resolved.classFiles asm).flatMap fun file => file.hierarchy (resolved.classContext file)).dedup
  completeness := "partial"
  provenance := provenance resolved.context

/-- The class names of the locators. -/
def locatorNames : List String :=
  sortedBy id ((((classEntries resolved.artifact).map fun entry => replaceChar '/' '.' (removeSuffix ".class" entry.1)).filter
    fun name => name ≠ "" ∧ ¬ "module-info".toList.isSuffixOf name.toList ∧ ¬ "package-info".toList.isSuffixOf name.toList).dedup)

/-- The descriptor as Core reads it. -/
def descriptor : ArtifactDescriptor where
  sourceUnit := ⟨⟨resolved.unitId⟩, ⟨resolved.component⟩, ⟨".kide/dependencies/" ++ removePrefix "sha256:" resolved.hash⟩, .java,
    .dependency, ⟨resolved.hash⟩, ⟨resolved.context⟩⟩
  provenance := provenance resolved.context
  resolvedIdentity :=
    if resolved.ecosystem = "" then none
    else some ⟨DEPENDENCY_IDENTITY_VERSION, resolved.ecosystem, resolved.coordinate, resolved.version, ⟨resolved.hash⟩,
      ⟨resolved.context⟩, provenance resolved.context, CANONICAL_SCHEMA_VERSION, ARTIFACT_BLOB_FORMAT_VERSION⟩
  symbolLocators := resolved.locatorNames.map fun name => ⟨name, ⟨"jvm:" ++ resolved.hash ++ ":" ++ name⟩⟩

end ResolvedJvmArtifact

end JvmBytecodeExtractor

/-! ## Messages -/

namespace ProtobufAnalysisSnapshotAdapter

open JvmBytecodeExtractor Interns

def symbol (provenances : List Provenance) (value : SymbolJson) : WorkerProto.SymbolDeclaration where
  id := value.id
  sourceUnitIndex := 0
  provenanceIndex := provenances.idxOf value.provenance
  backendKey := value.id
  backendSchemaVersion := value.schemaVersion
  language := value.language
  kind := value.kind
  name := value.name
  qualifiedName := some value.qualifiedName
  signature := value.signature
  declaration := some ⟨value.range.bytes.start, value.range.bytes.stop⟩
  nameRange := some ⟨value.range.bytes.start, value.range.bytes.stop⟩
  ownerId := value.owner
  modifiers := value.modifiers
  appliedSymbolIds := value.appliedSymbols
  freshness := value.freshness
  completeness := value.completeness
  componentId := value.component

def hierarchy (provenances : List Provenance) (value : HierarchyJson) : WorkerProto.HierarchyEdge where
  subtypeSymbolId := value.subtype
  supertypeSymbolId := value.supertype
  precision := value.precision
  provenanceIndex := provenances.idxOf value.provenance

/-- The distinct provenances, that of the snapshot first; an index does not change when others follow. -/
def provenanceValues (value : SnapshotJson) : List Provenance :=
  internAll [value.provenance] (value.symbols.map SymbolJson.provenance ++ value.hierarchy.map HierarchyJson.provenance)

def snapshot (value : SnapshotJson) : WorkerProto.FileAnalysisSnapshot where
  sourceUnit := some value.sourceUnit
  structuralFingerprint := none
  publicApiFingerprint := none
  provenances := (provenanceValues value).map WorkerAdapter.protoProvenance
  symbols := value.symbols.map (symbol (provenanceValues value))
  applications := []
  occurrences := []
  references := []
  calls := []
  hierarchy := value.hierarchy.map (hierarchy (provenanceValues value))
  types := []
  diagnostics := []
  completeness := value.completeness
  provenanceIndex := 0

end ProtobufAnalysisSnapshotAdapter

namespace ArtifactMaterializer

def artifactSymbol (s : WorkerProto.SymbolDeclaration) : ArtifactSymbol where
  id := s.id
  backendKey := s.backendKey
  backendSchemaVersion := s.backendSchemaVersion
  language := s.language
  kind := s.kind
  name := s.name
  qualifiedName := s.qualifiedName
  signature := s.signature
  declaration := s.declaration.map ArtifactAdapter.range
  nameRange := s.nameRange.map ArtifactAdapter.range
  ownerId := s.ownerId
  modifiers := s.modifiers
  appliedSymbolIds := s.appliedSymbolIds
  freshness := s.freshness
  completeness := s.completeness
  componentId := s.componentId
  provenanceIndex := some s.provenanceIndex
  ownerSymbolOrdinal := none

def artifactHierarchy (h : WorkerProto.HierarchyEdge) : ArtifactHierarchy where
  subtypeSymbolId := h.subtypeSymbolId
  supertypeSymbolId := h.supertypeSymbolId
  precision := h.precision
  provenanceIndex := some h.provenanceIndex
  subtypeSymbolOrdinal := none
  supertypeSymbolOrdinal := none

def graph (snapshot : WorkerProto.FileAnalysisSnapshot) : GraphArtifact :=
  ⟨[{ sourceUnit := some (ArtifactAdapter.sourceUnit (snapshot.sourceUnit.getD ⟨"", "", "", "", "", "", ""⟩))
      structuralFingerprint := none
      publicApiFingerprint := none
      provenances := snapshot.provenances.map ArtifactAdapter.provenance
      symbols := snapshot.symbols.map artifactSymbol
      occurrences := []
      references := []
      calls := []
      hierarchy := snapshot.hierarchy.map artifactHierarchy
      types := []
      diagnostics := []
      completeness := snapshot.completeness
      provenanceIndex := some snapshot.provenanceIndex }]⟩

/-- The bytes `stage` writes; `none` where the encoder throws. -/
def stage {reader : BlobReader} (writer : BlobWriter reader) (asm : JvmBytecodeExtractor.Asm) (text : JvmBytecodeExtractor.JsonText)
    (resolved : JvmBytecodeExtractor.ResolvedJvmArtifact) : Option Bytes :=
  JvmArtifactBlobLayout.encode writer (graph (ProtobufAnalysisSnapshotAdapter.snapshot (resolved.extractArtifact asm text)))

end ArtifactMaterializer

end Kide
