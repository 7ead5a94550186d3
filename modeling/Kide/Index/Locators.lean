import Kide.Index.CrossArtifact
import Kide.Kotlin.ContextDigest

/-!
# Locators and the symbols they name

`JvmBytecodeExtractor.descriptor` spells the locators of an artifact from the paths of its class entries, `extractArtifact`
spells the identities of its symbols from the names in the class files.

* `ids_nodup_iff` : the identities of a snapshot are distinct exactly if declarations that are spelled alike have equal facts;
* `locators_iff` : the locators are those of the classes exactly if the class entries are named by their classes;
* `locators_name_symbols_iff` : both.
-/

namespace Kide

namespace JvmBytecodeExtractor

/-! ## Declarations -/

/-- What a class file declares. -/
inductive Declaration where
  | ofClass (file : ClassFile)
  | ofField (file : ClassFile) (field : Member)
  | ofMethod (file : ClassFile) (method : Member)

namespace ClassFile

def declarations (file : ClassFile) : List Declaration :=
  file.fields.map (.ofField file) ++ file.methods.map (.ofMethod file) ++ [.ofClass file]

end ClassFile

namespace Declaration

def file : Declaration → ClassFile
  | .ofClass file => file
  | .ofField file _ => file
  | .ofMethod file _ => file

def kind : Declaration → String
  | .ofClass file => classKind file.access
  | .ofField _ _ => "field"
  | .ofMethod _ method => if method.name = "<init>" then "constructor" else "method"

/-- The identity in the artifact. -/
def spelling : Declaration → String
  | .ofClass file => file.name.dotted
  | .ofField file field => file.name.dotted ++ ("#field:" ++ (field.name ++ (":" ++ field.descriptor)))
  | .ofMethod file method => file.name.dotted ++ ("#" ++ (kind (.ofMethod file method) ++ (":" ++ (method.name ++ method.descriptor))))

def name : Declaration → String
  | .ofClass file => simpleName file.name.dotted
  | .ofField _ field => field.name
  | .ofMethod _ method => method.name

def qualifiedName : Declaration → String
  | .ofClass file => file.name.dotted
  | .ofField file field => file.name.dotted ++ "." ++ field.name
  | .ofMethod file method => file.name.dotted ++ "." ++ method.name

def signature (asm : Asm) : Declaration → Option String
  | .ofClass file => file.signature
  | .ofField _ field => some (field.signature.getD (asm.className field.descriptor))
  | .ofMethod _ method => some (method.signature.getD method.descriptor)

def owner : Declaration → Option InternalName
  | .ofClass _ => none
  | .ofField file _ => some file.name
  | .ofMethod file _ => some file.name

def access : Declaration → Nat
  | .ofClass file => file.access
  | .ofField _ field => field.access
  | .ofMethod _ method => method.access

def annotations (asm : Asm) : Declaration → List InternalName
  | .ofClass file => file.annotations.map asm.internalName
  | .ofField _ _ => []
  | .ofMethod _ _ => []

/-- The symbol under the identity spelled so. -/
def symbol (asm : Asm) (context : ClassContext) (d : Declaration) : SymbolJson :=
  ClassFile.symbol context ("jvm:" ++ context.artifactHash ++ ":" ++ d.spelling) d.kind d.name d.qualifiedName (d.signature asm)
    (d.owner.map (symbolId context.artifactHash)) d.access (sortedBy id ((d.annotations asm).map (symbolId context.artifactHash)))

/-- What a symbol has besides its identity is equal, the order of the annotations aside. -/
structure SameFacts (asm : Asm) (d e : Declaration) : Prop where
  language : d.file.hasKotlinMetadata = e.file.hasKotlinMetadata
  kind : d.kind = e.kind
  name : d.name = e.name
  qualifiedName : d.qualifiedName = e.qualifiedName
  signature : d.signature asm = e.signature asm
  owner : d.owner = e.owner
  modifiers : modifiers d.access = modifiers e.access
  annotations : (d.annotations asm).Perm (e.annotations asm)

end Declaration

/-! ## Class names -/

/-- `module-info` or `package-info`, which declare no class. -/
def Descriptive (className : String) : Prop := simpleName className = "module-info" ∨ simpleName className = "package-info"

/-- The class name that the path of a class entry spells. -/
def pathName (entry : String) : String := replaceChar '/' '.' (removeSuffix ".class" entry)

/-- The descriptor keeps the name. -/
def Listed (name : String) : Prop :=
  name ≠ "" ∧ ¬ "module-info".toList.isSuffixOf name.toList ∧ ¬ "package-info".toList.isSuffixOf name.toList

instance (name : String) : Decidable (Listed name) :=
  inferInstanceAs (Decidable (name ≠ "" ∧ ¬ "module-info".toList.isSuffixOf name.toList ∧
    ¬ "package-info".toList.isSuffixOf name.toList))

def SymbolJson.ClassLike (symbol : SymbolJson) : Prop := symbol.kind ∈ ["class", "interface", "enum"]

section
variable (asm : Asm) (artifact : Artifact)

def declarations : List Declaration := (classEntries artifact).flatMap fun entry => (asm.classFile entry.2).declarations

/-- Declarations that are spelled alike have equal facts. -/
def Consistent : Prop :=
  ∀ d ∈ declarations asm artifact, ∀ e ∈ declarations asm artifact, d.spelling = e.spelling → d.SameFacts asm e

/-- The paths of the class entries and the classes in them are the same, as far as the descriptor keeps them. -/
structure NamedByPath : Prop where
  entries : ∀ entry ∈ classEntries artifact, Listed (pathName entry.1) →
    ∃ other ∈ classEntries artifact, (asm.classFile other.2).name.dotted = pathName entry.1
  classes : ∀ entry ∈ classEntries artifact, ¬ Descriptive (asm.classFile entry.2).name.dotted →
    Listed (asm.classFile entry.2).name.dotted ∧
      ∃ other ∈ classEntries artifact, pathName other.1 = (asm.classFile entry.2).name.dotted

end

/-! ## Symbols of declarations -/

theorem artifactId_inj {hash a b : String} : "jvm:" ++ hash ++ ":" ++ a = "jvm:" ++ hash ++ ":" ++ b ↔ a = b :=
  ⟨fun h => String.append_right_inj _ |>.1 h, fun h => h ▸ rfl⟩

theorem symbolId_injective (hash : String) : Function.Injective (symbolId hash) :=
  fun _ _ h => dotted_injective (artifactId_inj.1 h)

section
variable {asm : Asm} {text : JsonText} {context context' : ClassContext} {file : ClassFile} {resolved : ResolvedJvmArtifact}
  {d e : Declaration} {symbol : SymbolJson}

theorem classSymbol_eq : file.classSymbol asm context = (Declaration.ofClass file).symbol asm context := by
  rw [Declaration.symbol, Declaration.annotations, List.map_map]
  rfl

variable (asm context file) in
theorem fieldSymbol_eq (field : Member) :
    file.fieldSymbol asm context field = (Declaration.ofField file field).symbol asm context := by
  rw [Declaration.symbol, Declaration.spelling, ← String.append_assoc, ← String.append_assoc, ← String.append_assoc,
    ← String.append_assoc]
  rfl

variable (asm context file) in
theorem methodSymbol_eq (method : Member) :
    file.methodSymbol context method = (Declaration.ofMethod file method).symbol asm context := by
  rw [Declaration.symbol, Declaration.spelling, ← String.append_assoc, ← String.append_assoc, ← String.append_assoc,
    ← String.append_assoc, ← String.append_assoc]
  rfl

theorem mem_file_symbols : symbol ∈ file.symbols asm text context ↔ ∃ d ∈ file.declarations, d.symbol asm context = symbol := by
  rw [ClassFile.symbols, mem_sortedBy, ClassFile.declarations, ← List.mem_map, List.map_append, List.map_append, List.map_map,
    List.map_map, List.map_singleton, ← classSymbol_eq, funext (fieldSymbol_eq asm context file),
    funext (methodSymbol_eq asm context file)]
  rfl

theorem file_eq (h : d ∈ file.declarations) : d.file = file := by
  rw [ClassFile.declarations, List.mem_append, List.mem_append] at h
  rcases h with (h | h) | h
  · obtain ⟨field, -, rfl⟩ := List.mem_map.1 h
    rfl
  · obtain ⟨method, -, rfl⟩ := List.mem_map.1 h
    rfl
  · obtain rfl := List.mem_singleton.1 h
    rfl

theorem mem_declarations {artifact : Artifact} :
    d ∈ declarations asm artifact ↔ ∃ entry ∈ classEntries artifact, d ∈ (asm.classFile entry.2).declarations := List.mem_flatMap

/-- The symbols of an artifact are those of its declarations. -/
theorem mem_artifact_symbols : symbol ∈ (resolved.extractArtifact asm text).symbols ↔
    ∃ d ∈ declarations asm resolved.artifact, d.symbol asm (resolved.classContext d.file) = symbol := by
  rw [mem_symbols]
  constructor
  · rintro ⟨file, hfile, hsymbol⟩
    obtain ⟨d, hd, rfl⟩ := mem_file_symbols.1 hsymbol
    obtain ⟨entry, hentry, rfl⟩ := List.mem_map.1 hfile
    exact ⟨d, mem_declarations.2 ⟨entry, hentry, hd⟩, by rw [file_eq hd]⟩
  · rintro ⟨d, hd, rfl⟩
    obtain ⟨entry, hentry, hd⟩ := mem_declarations.1 hd
    refine ⟨_, List.mem_map_of_mem hentry, mem_file_symbols.2 ⟨d, hd, ?_⟩⟩
    rw [file_eq hd]

/-- Two declarations of an artifact have one record exactly if they are spelled alike and have equal facts. -/
theorem symbol_eq_iff : d.symbol asm (resolved.classContext d.file) = e.symbol asm (resolved.classContext e.file) ↔
    d.spelling = e.spelling ∧ d.SameFacts asm e := by
  have howner : Function.Injective (Option.map (symbolId resolved.hash)) := Option.map_injective (symbolId_injective _)
  constructor
  · intro h
    refine ⟨artifactId_inj.1 (congrArg SymbolJson.id h), ?_, congrArg SymbolJson.kind h, congrArg SymbolJson.name h,
      congrArg SymbolJson.qualifiedName h, congrArg SymbolJson.signature h, howner (congrArg SymbolJson.owner h),
      congrArg SymbolJson.modifiers h, ?_⟩
    · have hlanguage : (if d.file.hasKotlinMetadata then "kotlin" else "java") =
          if e.file.hasKotlinMetadata then "kotlin" else "java" := congrArg SymbolJson.language h
      cases hd : d.file.hasKotlinMetadata <;> cases he : e.file.hasKotlinMetadata <;> rw [hd, he] at hlanguage <;>
        first | rfl | (exact absurd hlanguage (by decide))
    · have hannotations := (sortedBy_eq_iff Function.injective_id).1 (congrArg SymbolJson.appliedSymbols h)
      exact (List.map_perm_map_iff (symbolId_injective _)).1 hannotations
  · rintro ⟨hspelling, hfacts⟩
    have hannotations := sortedBy_eq_of_perm Function.injective_id (hfacts.annotations.map (symbolId resolved.hash))
    have hcontext : resolved.classContext d.file = resolved.classContext e.file := by
      rw [ResolvedJvmArtifact.classContext, ResolvedJvmArtifact.classContext, hfacts.language]
    rw [Declaration.symbol, Declaration.symbol, hcontext, hspelling, hfacts.kind, hfacts.name, hfacts.qualifiedName,
      hfacts.signature, hfacts.owner]
    show ClassFile.symbol _ _ _ _ _ _ _ _ (sortedBy id (List.map (symbolId resolved.hash) _)) = _
    rw [hannotations, ClassFile.symbol, hfacts.modifiers]
    rfl

/-! ## Identities of symbols -/

theorem ids_nodup_iff : ((resolved.extractArtifact asm text).symbols.map SymbolJson.id).Nodup ↔ Consistent asm resolved.artifact := by
  have hnodup : (resolved.extractArtifact asm text).symbols.Nodup :=
    (sortedBy_perm _ _).nodup_iff.2 (List.nodup_dedup _)
  rw [List.nodup_map_iff_inj_on hnodup]
  constructor
  · intro hinj d hd e he hspelling
    have hsymbols := hinj _ (mem_artifact_symbols.2 ⟨d, hd, rfl⟩) _ (mem_artifact_symbols.2 ⟨e, he, rfl⟩)
      (artifactId_inj.2 hspelling)
    exact (symbol_eq_iff.1 hsymbols).2
  · intro hconsistent a ha b hb hid
    obtain ⟨d, hd, rfl⟩ := mem_artifact_symbols.1 ha
    obtain ⟨e, he, rfl⟩ := mem_artifact_symbols.1 hb
    have hspelling := artifactId_inj.1 hid
    exact symbol_eq_iff.2 ⟨hspelling, hconsistent d hd e he hspelling⟩

/-! ## Locators -/

theorem isSuffixOf_of_simpleName {name word : String} (h : simpleName name = word) : word.toList.isSuffixOf name.toList := by
  rw [List.isSuffixOf_iff_suffix, ← h, simpleName, String.toList_ofList]
  have hsuffix := List.reverse_suffix.2 (List.takeWhile_prefix (fun c : Char => decide (c ≠ '.')) (l := name.toList.reverse))
  rwa [List.reverse_reverse] at hsuffix

theorem Listed.not_descriptive {name : String} (h : Listed name) : ¬ Descriptive name := by
  rintro (hmodule | hpackage)
  · exact h.2.1 (isSuffixOf_of_simpleName hmodule)
  · exact h.2.2 (isSuffixOf_of_simpleName hpackage)

theorem mem_locatorNames {name : String} : name ∈ resolved.locatorNames ↔
    (∃ entry ∈ classEntries resolved.artifact, pathName entry.1 = name) ∧ Listed name := by
  rw [ResolvedJvmArtifact.locatorNames, mem_sortedBy, List.mem_dedup, List.mem_filter, List.mem_map, decide_eq_true_eq]
  rfl

/-- The class-like symbols are the classes. -/
theorem classLike_iff {name id : String} :
    (∃ symbol ∈ (resolved.extractArtifact asm text).symbols, symbol.ClassLike ∧ ¬ Descriptive symbol.qualifiedName ∧
      symbol.qualifiedName = name ∧ symbol.id = id) ↔
    (∃ entry ∈ classEntries resolved.artifact, (asm.classFile entry.2).name.dotted = name) ∧ ¬ Descriptive name ∧
      id = "jvm:" ++ resolved.hash ++ ":" ++ name := by
  constructor
  · rintro ⟨symbol, hsymbol, hclass, haside, rfl, rfl⟩
    obtain ⟨file, hfile, hsymbol⟩ := mem_symbols.1 hsymbol
    obtain ⟨entry, hentry, rfl⟩ := List.mem_map.1 hfile
    obtain ⟨-, -, ⟨hkind, -⟩ | rfl⟩ := symbol_cases hsymbol
    · have hother : ∀ kind ∈ ["class", "interface", "enum"], kind ∉ ["field", "constructor", "method"] := by decide
      exact absurd hkind (hother _ hclass)
    · exact ⟨⟨entry, hentry, rfl⟩, haside, rfl⟩
  · rintro ⟨⟨entry, hentry, rfl⟩, haside, rfl⟩
    refine ⟨_, classSymbol_mem (List.mem_map_of_mem hentry), ?_, haside, rfl, rfl⟩
    show classKind _ ∈ _
    unfold classKind
    split_ifs <;> decide

theorem locators_iff : (∀ name id : String, ⟨name, ⟨id⟩⟩ ∈ resolved.descriptor.symbolLocators ↔
      ∃ symbol ∈ (resolved.extractArtifact asm text).symbols, symbol.ClassLike ∧ ¬ Descriptive symbol.qualifiedName ∧
        symbol.qualifiedName = name ∧ symbol.id = id) ↔ NamedByPath asm resolved.artifact := by
  have hnames : ∀ name id : String, ⟨name, ⟨id⟩⟩ ∈ resolved.descriptor.symbolLocators ↔
      ((∃ entry ∈ classEntries resolved.artifact, pathName entry.1 = name) ∧ Listed name) ∧
        id = "jvm:" ++ resolved.hash ++ ":" ++ name := by
    intro name id
    rw [mem_locators, mem_locatorNames, SymbolId.mk.injEq]
  simp only [hnames, classLike_iff]
  constructor
  · intro h
    refine ⟨fun entry hentry hlisted => ?_, fun entry hentry haside => ?_⟩
    · exact ((h _ _).1 ⟨⟨⟨entry, hentry, rfl⟩, hlisted⟩, rfl⟩).1
    · obtain ⟨⟨hpath, hlisted⟩, -⟩ := (h _ _).2 ⟨⟨entry, hentry, rfl⟩, haside, rfl⟩
      exact ⟨hlisted, hpath⟩
  · rintro ⟨hentries, hclasses⟩ name id
    constructor
    · rintro ⟨⟨⟨entry, hentry, rfl⟩, hlisted⟩, rfl⟩
      exact ⟨hentries entry hentry hlisted, hlisted.not_descriptive, rfl⟩
    · rintro ⟨⟨entry, hentry, rfl⟩, haside, rfl⟩
      obtain ⟨hlisted, hpath⟩ := hclasses entry hentry haside
      exact ⟨⟨hpath, hlisted⟩, rfl⟩

end

/-- Where declarations that are spelled alike have equal facts and class entries are named by their classes, and only there, the
identities of a snapshot are distinct and the locators are those of its classes. -/
theorem locators_name_symbols_iff (asm : Asm) (text : JsonText) (resolved : ResolvedJvmArtifact) :
    ((resolved.extractArtifact asm text).symbols.map SymbolJson.id).Nodup ∧
      (∀ name id : String, ⟨name, ⟨id⟩⟩ ∈ resolved.descriptor.symbolLocators ↔
        ∃ symbol ∈ (resolved.extractArtifact asm text).symbols, symbol.ClassLike ∧ ¬ Descriptive symbol.qualifiedName ∧
          symbol.qualifiedName = name ∧ symbol.id = id) ↔
    Consistent asm resolved.artifact ∧ NamedByPath asm resolved.artifact :=
  and_congr ids_nodup_iff locators_iff

namespace MultiRelease

/-- `package app; public class Main` -/
def mainBytes : Bytes :=
  [0xca, 0xfe, 0xba, 0xbe, 0, 0, 0, 0x34, 0, 5, 7, 0, 2, 1, 0, 8] ++ utf8 "app/Main" ++ [7, 0, 4, 1, 0, 16] ++
    utf8 "java/lang/Object" ++ [0, 0x21, 0, 1, 0, 3, 0, 0, 0, 0, 0, 0, 0, 0]

/-- ASM on this class. -/
def asm : Asm := { CrossArtifact.asm with classFile := fun _ => CrossArtifact.classFile "app/Main" "java/lang/Object" }

/-- A class directory with a copy for Java 9. -/
def classDirectory : ResolvedJvmArtifact :=
  ⟨.directory [("META-INF/versions/9/app/Main.class", mainBytes), ("app/Main.class", mainBytes)], "app", "sha256:context",
    "gradle", none, none⟩

/-- The directory lists `META-INF.versions.9.app.Main`, which no class is called. -/
theorem versioned_class_mislocated :
    ¬ (((classDirectory.extractArtifact asm CrossArtifact.plainText).symbols.map SymbolJson.id).Nodup ∧
      ∀ name id : String, ⟨name, ⟨id⟩⟩ ∈ classDirectory.descriptor.symbolLocators ↔
        ∃ symbol ∈ (classDirectory.extractArtifact asm CrossArtifact.plainText).symbols, symbol.ClassLike ∧
          ¬ Descriptive symbol.qualifiedName ∧ symbol.qualifiedName = name ∧ symbol.id = id) := by
  rintro ⟨-, hlocators⟩
  have hentries : classEntries classDirectory.artifact =
      [("META-INF/versions/9/app/Main.class", mainBytes), ("app/Main.class", mainBytes)] := by decide +kernel
  obtain ⟨other, -, hname⟩ := (locators_iff.1 hlocators).entries _ (by rw [hentries]; exact List.mem_cons_self)
    (by decide +kernel)
  have hname : (CrossArtifact.classFile "app/Main" "java/lang/Object").name.dotted =
      pathName "META-INF/versions/9/app/Main.class" := hname
  exact absurd hname (by decide +kernel)

end MultiRelease

end JvmBytecodeExtractor

end Kide
