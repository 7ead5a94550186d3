import Kide.Artifact.Bytecode

/-!
# Declarations of a Kotlin file

`KotlinStructuralExtractor.kt` reads declarations, occurrences and parse errors from the syntax tree of a file. The
fingerprint of the public API is a hash over the texts of its symbol records.

The Kotlin compiler parses the file (`Psi`), the JSON library prints elements (`JsonText`); both are third-party.
-/

namespace Kide

namespace KotlinStructuralExtractor

/-! ## Syntax trees -/

/-- Offsets in UTF-16 code units. -/
structure TextRange where
  startOffset : Nat
  endOffset : Nat
deriving DecidableEq

/-- A child of a modifier list. -/
structure ModifierChild where
  text : String
  isWhiteSpace : Bool
  isAnnotationEntry : Bool

structure PrimaryConstructor where
  textRange : TextRange
  modifierList : List ModifierChild
  valueParameters : List (Option String)

/-- The types the extractor asks for, with what it reads of each. Type references are their texts. -/
inductive PsiType where
  | ktClass (isInterface isEnum : Bool) (primaryConstructor : Option PrimaryConstructor)
  | ktObjectDeclaration
  | ktNamedFunction (valueParameters : List (Option String)) (typeReference : Option String)
  | ktPrimaryConstructor
  | ktSecondaryConstructor (constructorKeyword : TextRange) (valueParameters : List (Option String))
  | ktProperty (typeReference : Option String)
  | ktParameter
  | ktTypeAlias (typeReference : Option String)
  | ktNamedDeclaration
  | ktClassBody
  | ktImportDirective (importedReference : Option TextRange)
  | ktTypeReference
  | ktCallExpression (calleeExpression : Option TextRange)
  | ktNameReferenceExpression
  | psiErrorElement (errorDescription : String)
  | psiElement

/-- `is KtNamedDeclaration` -/
def PsiType.isNamedDeclaration : PsiType → Bool
  | .ktClass .. | .ktObjectDeclaration | .ktNamedFunction .. | .ktPrimaryConstructor | .ktSecondaryConstructor ..
  | .ktProperty _ | .ktParameter | .ktTypeAlias _ | .ktNamedDeclaration => true
  | _ => false

structure PsiElement where
  type : PsiType
  name : Option String
  nameIdentifier : Option TextRange
  textRange : TextRange
  modifierList : List ModifierChild

inductive Psi where
  | node (element : PsiElement) (children : List Psi)

/-- An element with the elements around it, the nearest one first. -/
structure Located where
  element : PsiElement
  parents : List PsiElement

mutual

/-- The elements of a tree, each after its children. -/
def elements (parents : List PsiElement) : Psi → List Located
  | .node element children => elementsAll (element :: parents) children ++ [⟨element, parents⟩]

def elementsAll (parents : List PsiElement) : List Psi → List Located
  | [] => []
  | child :: rest => elements parents child ++ elementsAll parents rest

end

structure KtFile where
  packageFqName : String
  tree : Psi

def KtFile.descendants (file : KtFile) : List Located := elements [] file.tree

/-! ## Records -/

/-- A symbol as JSON. -/
structure SymbolJson where
  id : String
  backendKey : BackendKey
  language : String
  kind : String
  name : String
  qualifiedName : String
  signature : Option String
  component : String
  declaration : SourceRange
  nameRange : SourceRange
  owner : Option String
  modifiers : List String
  appliedSymbols : List String
  freshness : String
  completeness : String
  provenance : Provenance
deriving DecidableEq

structure OccurrenceJson where
  range : SourceRange
  kind : String
  enclosingSymbol : Option String
  target : Option String
  typeId : Option String
  precision : String
  freshness : String
  completeness : String
  provenance : Provenance
deriving DecidableEq

structure DiagnosticJson where
  sourceUnit : String
  range : ByteRange
  severity : String
  code : String
  message : String
  freshness : String
  completeness : String
  provenance : Provenance
deriving DecidableEq

/-- `JsonElement.toString` -/
structure JsonText where
  symbol : SymbolJson → String
  occurrence : OccurrenceJson → String
  hierarchy : JvmBytecodeExtractor.HierarchyJson → String

structure SymbolFact where
  nameStart : Nat
  nameEnd : Nat
  json : SymbolJson

structure SnapshotJson where
  sourceUnit : SourceUnit
  structuralFingerprint : String
  publicApiFingerprint : String
  symbols : List SymbolJson
  occurrences : List OccurrenceJson
  diagnostics : List DiagnosticJson
  completeness : String
  provenance : Provenance

def provenance (context : String) : Provenance := JvmBytecodeExtractor.provenance context

def fingerprint (parts : List Bytes) : String := JvmBytecodeExtractor.fingerprint parts

/-! ## Offsets -/

def utf16Size (c : Char) : Nat := if c.toNat < 0x10000 then 1 else 2

/-- The UTF-8 offset of a UTF-16 offset, unless this is outside of the text or inside of a surrogate pair. -/
def utf8OffsetIn : List Char → Nat → Option Nat
  | _, 0 => some 0
  | [], _ + 1 => none
  | c :: rest, utf16Offset =>
    if utf16Size c ≤ utf16Offset then (utf8OffsetIn rest (utf16Offset - utf16Size c)).map (c.utf8Size + ·) else none

def utf8Offset (contents : String) (utf16Offset : Nat) : Option Nat := utf8OffsetIn contents.toList utf16Offset

def byteRange (contents : String) (range : TextRange) : Option ByteRange := do
  let start ← utf8Offset contents range.startOffset
  let stop ← utf8Offset contents range.endOffset
  pure ⟨start, stop⟩

def sourceRange (source : SourceUnit) (contents : String) (range : TextRange) : Option SourceRange := do
  let bytes ← byteRange contents range
  pure ⟨source.id, bytes⟩

/-! ## Names, kinds and signatures -/

/-- `Char.isWhitespace` -/
def isWhitespace (c : Char) : Bool :=
  (9 ≤ c.toNat ∧ c.toNat ≤ 13) ∨ (0x1c ≤ c.toNat ∧ c.toNat ≤ 0x20) ∨ (0x2000 ≤ c.toNat ∧ c.toNat ≤ 0x200a) ∨
    c.toNat ∈ [0xa0, 0x1680, 0x2028, 0x2029, 0x202f, 0x205f, 0x3000]

def isNotBlank (text : String) : Bool := text.toList.any fun c => ¬ isWhitespace c

def modifiers (modifierList : List ModifierChild) : List String :=
  ((modifierList.filter fun child => ¬ (child.isWhiteSpace ∨ child.isAnnotationEntry)).map ModifierChild.text).filter isNotBlank

def Located.inClassBody (located : Located) : Bool :=
  match located.parents with
  | ⟨.ktClassBody, _, _, _, _⟩ :: _ => true
  | _ => false

def symbolKind (declaration : Located) : String :=
  match declaration.element.type with
  | .ktClass isInterface isEnum _ => if isInterface then "interface" else if isEnum then "enum" else "class"
  | .ktObjectDeclaration => "object"
  | .ktNamedFunction _ _ => if declaration.inClassBody then "method" else "function"
  | .ktPrimaryConstructor | .ktSecondaryConstructor _ _ => "constructor"
  | .ktProperty _ => if declaration.inClassBody then "field" else "property"
  | .ktParameter => "parameter"
  | .ktTypeAlias _ => "type_alias"
  | _ => "other"

/-- The nearest named declaration. -/
def nearestDeclaration : List PsiElement → Option Located
  | [] => none
  | element :: parents => if element.type.isNamedDeclaration then some ⟨element, parents⟩ else nearestDeclaration parents

def qualifiedName (file : KtFile) (declaration : Located) : String :=
  let owners := ((declaration.parents.filter (·.type.isNamedDeclaration)).filterMap PsiElement.name).reverse
  ".".intercalate ([file.packageFqName].filter (· ≠ "") ++ owners ++ declaration.element.name.toList)

def parameterTypes (valueParameters : List (Option String)) : String :=
  "(" ++ ",".intercalate (valueParameters.map (·.getD "?")) ++ ")"

def structuralSignature (declaration : PsiElement) : Option String :=
  match declaration.type with
  | .ktNamedFunction valueParameters typeReference => some (parameterTypes valueParameters ++ ":" ++ typeReference.getD "?")
  | .ktProperty typeReference => typeReference
  | .ktTypeAlias typeReference => typeReference
  | _ => none

def symbolId (source : SourceUnit) (kind name : String) (offset : Nat) : String :=
  "kotlin:" ++ source.component.asStr ++ ":" ++ source.path.asStr ++ "#" ++ kind ++ ":" ++ name ++ ":" ++ toString offset

def ownerSymbolId (source : SourceUnit) (declaration : Located) : Option String := do
  let owner ← nearestDeclaration declaration.parents
  let name ← owner.element.name
  pure (symbolId source (symbolKind owner) name
    ((owner.element.nameIdentifier.map TextRange.startOffset).getD owner.element.textRange.startOffset))

/-! ## Facts -/

section Facts

variable (file : KtFile) (source : SourceUnit) (contents : String)

/-- What the three kinds of declarations have in common. -/
def symbolFact (kind name key : String) (offset : Nat) (qualifiedName : String) (signature owner : Option String)
    (range nameRange : TextRange) (modifiers : List String) : Option SymbolFact := do
  let declaration ← sourceRange source contents range
  let nameBytes ← sourceRange source contents nameRange
  pure {
    nameStart := nameRange.startOffset
    nameEnd := nameRange.endOffset
    json := {
      id := symbolId source kind name offset
      backendKey := ⟨"kide-kotlin-jvm", 1, source.path.asStr ++ ":" ++ toString offset ++ ":" ++ key⟩
      language := "kotlin"
      kind := kind
      name := name
      qualifiedName := qualifiedName
      signature := signature
      component := source.component.asStr
      declaration := declaration
      nameRange := nameBytes
      owner := owner
      modifiers := modifiers
      appliedSymbols := []
      freshness := "fresh"
      completeness := "partial"
      provenance := provenance source.context.asStr } }

/-- Nothing if the declaration has no name or no name identifier. -/
def namedFact (declaration : Located) : Option (Option SymbolFact) :=
  match declaration.element.type.isNamedDeclaration, declaration.element.name, declaration.element.nameIdentifier with
  | true, some name, some nameIdentifier =>
    let kind := symbolKind declaration
    some (symbolFact source contents kind name kind nameIdentifier.startOffset (qualifiedName file declaration)
      (structuralSignature declaration.element) (ownerSymbolId source declaration) declaration.element.textRange nameIdentifier
      (modifiers declaration.element.modifierList))
  | _, _, _ => none

/-- The constructor of a class with a name, without a primary constructor too. -/
def primaryConstructorFact (owner : Located) : Option (Option SymbolFact) :=
  match owner.element.type, owner.element.nameIdentifier with
  | .ktClass _ _ constructor, some nameRange =>
    let range := (constructor.map PrimaryConstructor.textRange).getD nameRange
    some (symbolFact source contents "constructor" "<init>" "primary_constructor" range.startOffset
      (file.packageFqName ++ "." ++ owner.element.name.getD "anonymous" ++ ".<init>")
      (some ((constructor.map fun constructor => parameterTypes constructor.valueParameters).getD "()"))
      (ownerSymbolId source owner) range nameRange
      ((constructor.map fun constructor => modifiers constructor.modifierList).getD []))
  | _, _ => none

def constructorFact (constructor : Located) : Option (Option SymbolFact) :=
  match constructor.element.type with
  | .ktSecondaryConstructor keyword valueParameters =>
    let range := constructor.element.textRange
    let owner := nearestDeclaration constructor.parents
    let ownerName := (owner.bind (·.element.name)).getD "anonymous"
    let ownerOffset := ((owner.bind (·.element.nameIdentifier)).map TextRange.startOffset).getD range.startOffset
    some (symbolFact source contents "constructor" "<init>" "constructor" keyword.startOffset
      (file.packageFqName ++ "." ++ ownerName ++ ".<init>") (some (parameterTypes valueParameters))
      (some (symbolId source "class" ownerName ownerOffset)) range keyword (modifiers constructor.element.modifierList))
  | _ => none

end Facts

section Snapshot

variable (text : JsonText)

/-- By name range, then by text. -/
def factLe (a b : SymbolFact) : Prop :=
  a.nameStart < b.nameStart ∨ (a.nameStart = b.nameStart ∧ (a.nameEnd < b.nameEnd ∨
    (a.nameEnd = b.nameEnd ∧ JvmBytecodeExtractor.codeUnitsLe (text.symbol a.json) (text.symbol b.json))))

instance : DecidableRel (factLe text) := fun a b =>
  inferInstanceAs (Decidable (a.nameStart < b.nameStart ∨ (a.nameStart = b.nameStart ∧ (a.nameEnd < b.nameEnd ∨
    (a.nameEnd = b.nameEnd ∧ JvmBytecodeExtractor.codeUnitsLe (text.symbol a.json) (text.symbol b.json))))))

/-- The facts of all elements, unless some offset is outside of the text. -/
def facts (read : Located → Option (Option SymbolFact)) (file : KtFile) : Option (List SymbolFact) :=
  (file.descendants.filterMap read).mapM id

def symbols (file : KtFile) (source : SourceUnit) (contents : String) : Option (List SymbolFact) := do
  let named ← facts (namedFact file source contents) file
  let primary ← facts (primaryConstructorFact file source contents) file
  let secondary ← facts (constructorFact file source contents) file
  pure ((named ++ (primary ++ secondary)).insertionSort (factLe text))

def keepDistinct {α : Type} (key : α → String) (kept : List α) (value : α) : List α :=
  if kept.any (key · = key value) then kept else kept ++ [value]

/-- `distinctBy`: the first value of each key. -/
def distinctBy {α : Type} (key : α → String) (values : List α) : List α := values.foldl (keepDistinct key) []

theorem mem_foldl_distinct {α : Type} {key : α → String} {a : α} {values : List α} (kept : List α)
    (h : a ∈ values.foldl (keepDistinct key) kept) :
    a ∈ kept ∨ a ∈ values := by
  induction values generalizing kept with
  | nil => exact .inl h
  | cons value values ih =>
    rcases ih _ h with hkept | hvalues
    · unfold keepDistinct at hkept
      split at hkept
      · exact .inl hkept
      · rw [List.mem_append, List.mem_singleton] at hkept
        rcases hkept with hkept | rfl
        · exact .inl hkept
        · exact .inr List.mem_cons_self
    · exact .inr (List.mem_cons_of_mem value hvalues)

theorem exists_foldl_distinct {α : Type} {key : α → String} {a : α} {values : List α} (kept : List α)
    (h : (∃ b ∈ kept, key b = key a) ∨ a ∈ values) :
    ∃ b ∈ values.foldl (keepDistinct key) kept, key b = key a := by
  induction values generalizing kept with
  | nil => exact h.resolve_right List.not_mem_nil
  | cons value values ih =>
    apply ih
    rcases h with ⟨b, hb, hkey⟩ | hmem
    · refine .inl ⟨b, ?_, hkey⟩
      unfold keepDistinct
      split
      · exact hb
      · exact List.mem_append_left _ hb
    · rcases List.mem_cons.1 hmem with rfl | hvalues
      · left
        unfold keepDistinct
        split
        · next hany => simpa using hany
        · exact ⟨a, List.mem_append_right _ List.mem_cons_self, rfl⟩
      · exact .inr hvalues

theorem mem_distinctBy {α : Type} {key : α → String} {values : List α}
    (hinj : ∀ a ∈ values, ∀ b ∈ values, key a = key b → a = b) {a : α} : a ∈ distinctBy key values ↔ a ∈ values := by
  constructor
  · intro h
    exact (mem_foldl_distinct [] h).resolve_left List.not_mem_nil
  · intro h
    obtain ⟨b, hb, hkey⟩ : ∃ b ∈ values.foldl (keepDistinct key) [], key b = key a := exists_foldl_distinct [] (.inr h)
    have hvalues := (mem_foldl_distinct [] hb).resolve_left List.not_mem_nil
    exact hinj b hvalues a h hkey ▸ hb

def occurrence (source : SourceUnit) (contents kind : String) (range : TextRange) : Option OccurrenceJson := do
  let range ← sourceRange source contents range
  pure ⟨range, kind, none, none, none, "approximate", "fresh", "partial", provenance source.context.asStr⟩

/-- Imports, type references, calls, and names outside of `declarationRanges`. -/
def occurrences (file : KtFile) (source : SourceUnit) (contents : String) (declarationRanges : List (Nat × Nat)) :
    Option (List OccurrenceJson) := do
  let imports ← (file.descendants.filterMap fun located =>
    match located.element.type with
    | .ktImportDirective importedReference => importedReference
    | _ => none).mapM (occurrence source contents "import")
  let types ← (file.descendants.filterMap fun located =>
    match located.element.type with
    | .ktTypeReference => some located.element.textRange
    | _ => none).mapM (occurrence source contents "type_reference")
  let calls ← (file.descendants.filterMap fun located =>
    match located.element.type with
    | .ktCallExpression calleeExpression => calleeExpression
    | _ => none).mapM (occurrence source contents "call")
  let references ← (file.descendants.filterMap fun located =>
    match located.element.type with
    | .ktNameReferenceExpression =>
      let range := located.element.textRange
      if (range.startOffset, range.endOffset) ∈ declarationRanges then none else some range
    | _ => none).mapM (occurrence source contents "reference")
  pure ((distinctBy text.occurrence (imports ++ types ++ calls ++ references)).insertionSort
    fun a b => a.range.bytes.start ≤ b.range.bytes.start)

def diagnostics (file : KtFile) (source : SourceUnit) (contents : String) : Option (List DiagnosticJson) :=
  (file.descendants.filterMap fun located =>
    match located.element.type with
    | .psiErrorElement errorDescription => some (errorDescription, located.element.textRange)
    | _ => none).mapM fun error => do
      let range ← byteRange contents error.2
      pure ⟨source.id.asStr, range, "error", "kotlin_parse_error", error.1, "fresh", "partial", provenance source.context.asStr⟩

def visible (symbol : SymbolJson) : Bool := "private" ∉ symbol.modifiers ∧ "internal" ∉ symbol.modifiers

def publicApiParts (symbols : List SymbolFact) : List Bytes :=
  (symbols.map fun symbol => if visible symbol.json then JvmBytecodeExtractor.utf8 (text.symbol symbol.json) else []).filter
    (· ≠ [])

def publicApiFingerprint (symbols : List SymbolFact) : String := fingerprint (publicApiParts text symbols)

def analyze (file : KtFile) (source : SourceUnit) (contents : String) : Option SnapshotJson := do
  let symbols ← symbols text file source contents
  let occurrences ← occurrences text file source contents (symbols.map fun symbol => (symbol.nameStart, symbol.nameEnd))
  let diagnostics ← diagnostics file source contents
  pure {
    sourceUnit := source
    structuralFingerprint := fingerprint [JvmBytecodeExtractor.utf8 contents]
    publicApiFingerprint := publicApiFingerprint text symbols
    symbols := symbols.map SymbolFact.json
    occurrences := occurrences
    diagnostics := diagnostics
    completeness := "partial"
    provenance := provenance source.context.asStr }

theorem analyze_eq_some {file : KtFile} {source : SourceUnit} {contents : String} {snapshot : SnapshotJson}
    (h : analyze text file source contents = some snapshot) :
    ∃ facts, symbols text file source contents = some facts ∧ snapshot.symbols = facts.map SymbolFact.json ∧
      snapshot.publicApiFingerprint = publicApiFingerprint text facts ∧ snapshot.provenance = provenance source.context.asStr := by
  simp only [analyze, Option.bind_eq_bind, Option.bind_eq_some_iff] at h
  obtain ⟨facts, hfacts, occurrences, -, diagnostics, -, hsnapshot⟩ := h
  cases hsnapshot
  exact ⟨facts, hfacts, rfl, rfl, rfl⟩

end Snapshot

end KotlinStructuralExtractor

end Kide
