import Kide.Freshness
import Kide.Kotlin.StructuralExtractor
import Kide.Lib.Parts

/-!
# The fingerprint of the public API

Core skips the dependents of a file whose fingerprint is the same after a change. `K2SnapshotEnricher.kt` adds the
hierarchy to a snapshot and keeps its fingerprint.

* `fingerprint_inj`: if SHA-256 does not collide, equal fingerprints have equal parts;
* `public_api_same_iff`: then the public and protected declarations are the same; the internal ones and the supertypes
  of classes need not be.
-/

namespace Kide

open KotlinStructuralExtractor

namespace K2SnapshotEnricher

structure K2HierarchyEdge where
  subtypeKey : String
  supertypeKey : String

structure K2ResolvedAnnotation where
  ownerKey : String
  targetKey : String

/-- What the compiler resolved: the symbols of keys, the hierarchy, and the annotations of one file. -/
structure K2SemanticFacts where
  targets : String → Option String
  hierarchy : List K2HierarchyEdge
  annotations : List K2ResolvedAnnotation

/-- The keys of a published snapshot that tell about its declarations. -/
structure EnrichedJson where
  publicApiFingerprint : String
  symbols : List SymbolJson
  hierarchy : List JvmBytecodeExtractor.HierarchyJson

def singleOrNull {α : Type} : List α → Option α
  | [value] => some value
  | _ => none

/-- The only symbol with the name of a callable key. -/
def symbolForLooseCallableKey (symbols : List SymbolJson) (key : String) : Option String :=
  let beforeParameters := key.toList.takeWhile (· ≠ '#')
  let name := String.ofList (beforeParameters.reverse.takeWhile (· ≠ '.')).reverse
  if "callable:".toList.isPrefixOf key.toList then
    singleOrNull ((symbols.filter (·.name = name)).map SymbolJson.id).dedup
  else none

variable (text : JsonText) (facts : K2SemanticFacts)

/-- The symbols applied to `id`. -/
def annotationTargets (symbols : List SymbolJson) (id : String) : List String :=
  let applied := facts.annotations.filterMap fun annotation => do
    let owner ← (facts.targets annotation.ownerKey).or (symbolForLooseCallableKey symbols annotation.ownerKey)
    let target ← facts.targets annotation.targetKey
    if owner = id then some target else none
  JvmBytecodeExtractor.sortedBy (fun target => target) applied.dedup

/-- The edges whose two symbols are known, the lower one in the snapshot. -/
def resolvedEdges (snapshotSymbols : List String) (provenance : Provenance) : List JvmBytecodeExtractor.HierarchyJson :=
  facts.hierarchy.filterMap fun edge => do
    let subtype ← facts.targets edge.subtypeKey
    let supertype ← facts.targets edge.supertypeKey
    if subtype ∈ snapshotSymbols then some ⟨subtype, supertype, "exact", provenance⟩ else none

def hierarchyFacts (snapshot : SnapshotJson) : List JvmBytecodeExtractor.HierarchyJson :=
  distinctBy text.hierarchy (resolvedEdges facts (snapshot.symbols.map SymbolJson.id) snapshot.provenance)

def enrichSnapshot (snapshot : SnapshotJson) : EnrichedJson where
  publicApiFingerprint := snapshot.publicApiFingerprint
  symbols := snapshot.symbols.map fun symbol => { symbol with appliedSymbols := annotationTargets facts snapshot.symbols symbol.id }
  hierarchy := hierarchyFacts text facts snapshot

end K2SnapshotEnricher

namespace PublicApi

open K2SnapshotEnricher

/-! ## The hashed text -/

def framedParts (parts : List Bytes) : Bytes := Parts.framed (fun size => JvmBytecodeExtractor.utf8 (toString size)) 0 parts

theorem utf8_inj {a b : String} (h : JvmBytecodeExtractor.utf8 a = JvmBytecodeExtractor.utf8 b) : a = b := by
  have hdata : a.toByteArray.data = b.toByteArray.data := Array.toList_inj.1 h
  exact String.toByteArray_inj.1 (ByteArray.ext hdata)

theorem utf8_eq (s : String) : JvmBytecodeExtractor.utf8 s = s.toList.flatMap String.utf8EncodeChar := by
  rw [JvmBytecodeExtractor.utf8, ← String.utf8Encode_toList, List.utf8Encode, List.toList_data_toByteArray]

theorem utf8_digit {c : Char} (h : c.isDigit) : ∀ byte ∈ String.utf8EncodeChar c, byte ≠ 0 := by
  have hrange : 48 ≤ c.toNat ∧ c.toNat ≤ 57 := Char.isDigit_iff_toNat.1 h
  have hsize : c.utf8Size = 1 := Char.utf8Size_eq_one_iff.2 (UInt32.le_iff_toNat_le.2 (show c.toNat ≤ 127 by omega))
  intro byte hbyte hzero
  rw [String.utf8EncodeChar_eq_singleton hsize, List.mem_singleton] at hbyte
  have hnat : c.toNat % 256 = 0 := by
    have := congrArg UInt8.toNat (hbyte.symm.trans hzero)
    exact (UInt32.toNat_toUInt8 c.val).symm.trans this
  omega

theorem zero_notMem_utf8_digits (size : Nat) : (0 : UInt8) ∉ JvmBytecodeExtractor.utf8 (toString size) := by
  rw [utf8_eq, List.mem_flatMap]
  rintro ⟨c, hc, hzero⟩
  rw [show toString size = size.repr from rfl, Nat.toList_repr] at hc
  exact utf8_digit (Nat.isDigit_of_mem_toDigits (by decide) (by decide) hc) 0 hzero rfl

theorem framedParts_inj {parts others : List Bytes} (h : framedParts parts = framedParts others) : parts = others :=
  Parts.framed_inj (fun hsize => Nat.repr_injective (utf8_inj hsize)) zero_notMem_utf8_digits h

theorem fingerprint_inj {parts others : List Bytes}
    (hdigest : Sha256.digest (framedParts parts) = Sha256.digest (framedParts others) → framedParts parts = framedParts others)
    (h : fingerprint parts = fingerprint others) : parts = others := by
  have hhex : JvmBytecodeExtractor.hexDigest (framedParts parts) = JvmBytecodeExtractor.hexDigest (framedParts others) :=
    (String.append_right_inj _).1 h
  exact framedParts_inj (hdigest (BlobFile.flatMap_hexByte_inj (String.ofList_injective hhex)))

/-! ## What other source units depend on -/

inductive Visibility where
  | everywhere | subclasses | component
deriving DecidableEq

def visibility (modifiers : List String) : Option Visibility :=
  if "private" ∈ modifiers then none
  else if "internal" ∈ modifiers then some .component
  else if "protected" ∈ modifiers then some .subclasses
  else some .everywhere

/-- A declaration that other files see. -/
structure ApiDeclaration where
  visibility : Visibility
  id : String
  kind : String
  signature : Option String
  declaration : SourceRange
  nameRange : SourceRange
deriving DecidableEq

def apiDeclaration (symbol : SymbolJson) : Option ApiDeclaration :=
  (visibility symbol.modifiers).map fun visibility =>
    ⟨visibility, symbol.id, symbol.kind, symbol.signature, symbol.declaration, symbol.nameRange⟩

def classKinds : List String := ["class", "interface", "enum", "object"]

/-- A class that other files see, by its identity. -/
def ApiClass (symbols : List SymbolJson) (id : String) : Prop :=
  ∃ symbol ∈ symbols, (apiDeclaration symbol).isSome ∧ symbol.kind ∈ classKinds ∧ symbol.id = id

def declarations (snapshot : EnrichedJson) : Set ApiDeclaration :=
  {declaration | ∃ symbol ∈ snapshot.symbols, apiDeclaration symbol = some declaration}

/-- Classes with their direct supertypes. -/
def supertypes (snapshot : EnrichedJson) : Set (String × String) :=
  {edge | ApiClass snapshot.symbols edge.1 ∧ ∃ fact ∈ snapshot.hierarchy, (fact.subtype, fact.supertype) = edge}

/-- Nothing that another source unit may depend on differs. -/
def SameApi (before after : EnrichedJson) : Prop :=
  declarations before = declarations after ∧ supertypes before = supertypes after

/-! ## Versions of a file -/

/-- A text with its syntax tree, and what the compiler resolved in it. -/
structure Version where
  source : SourceUnit
  contents : String
  file : KtFile
  facts : K2SemanticFacts

variable (text : JsonText)

namespace Version

variable (version : Version)

def symbols : Option (List SymbolFact) := KotlinStructuralExtractor.symbols text version.file version.source version.contents

def published : Option EnrichedJson :=
  (analyze text version.file version.source version.contents).map (enrichSnapshot text version.facts)

/-- The records of all declarations. -/
def records : List SymbolJson := ((version.symbols text).getD []).map SymbolFact.json

/-- What the fingerprint is the hash of. -/
def hashed : Bytes := framedParts (publicApiParts text ((version.symbols text).getD []))

/-- The declarations inside of the component. -/
def internals : Set ApiDeclaration :=
  {declaration | declaration.visibility = .component ∧ ∃ record ∈ version.records text, apiDeclaration record = some declaration}

/-- The classes with the direct supertypes that the compiler found. -/
def classSupertypes : Set (String × String) :=
  {edge | ApiClass (version.records text) edge.1 ∧
    ∃ found ∈ version.facts.hierarchy, version.facts.targets found.subtypeKey = some edge.1 ∧
      version.facts.targets found.supertypeKey = some edge.2}

/-- The edges of the hierarchy, repeated ones too. -/
def edges : List JvmBytecodeExtractor.HierarchyJson :=
  resolvedEdges version.facts ((version.records text).map SymbolJson.id) (provenance version.source.context.asStr)

end Version

/-- Different records have different texts, and no text is empty. -/
structure Distinguishes (before after : Version) : Prop where
  symbol_inj : ∀ a ∈ before.records text, ∀ b ∈ after.records text, text.symbol a = text.symbol b → a = b
  symbol_ne : ∀ version ∈ [before, after], ∀ record ∈ version.records text, text.symbol record ≠ ""
  hierarchy_inj : ∀ version ∈ [before, after], ∀ a ∈ version.edges text, ∀ b ∈ version.edges text,
    text.hierarchy a = text.hierarchy b → a = b

variable {text}

/-! ## What a version publishes -/

theorem mem_resolvedEdges {facts : K2SemanticFacts} {ids : List String} {provenance : Provenance}
    {edge : JvmBytecodeExtractor.HierarchyJson} : edge ∈ resolvedEdges facts ids provenance ↔
      edge.subtype ∈ ids ∧ edge.precision = "exact" ∧ edge.provenance = provenance ∧
        ∃ found ∈ facts.hierarchy, facts.targets found.subtypeKey = some edge.subtype ∧
          facts.targets found.supertypeKey = some edge.supertype := by
  unfold resolvedEdges
  rw [List.mem_filterMap]
  constructor
  · rintro ⟨found, hfound, hedge⟩
    simp only [Option.bind_eq_bind, Option.bind_eq_some_iff] at hedge
    obtain ⟨subtype, hsubtype, supertype, hsupertype, hedge⟩ := hedge
    split at hedge
    · next hid =>
      cases hedge
      exact ⟨hid, rfl, rfl, found, hfound, hsubtype, hsupertype⟩
    · cases hedge
  · rintro ⟨hid, hprecision, hprovenance, found, hfound, hsubtype, hsupertype⟩
    refine ⟨found, hfound, ?_⟩
    rw [hsubtype, hsupertype]
    show (if edge.subtype ∈ ids then some _ else none) = _
    rw [if_pos hid, ← hprecision, ← hprovenance]

theorem published_records {version : Version} {snapshot : EnrichedJson} (h : version.published text = some snapshot) :
    snapshot.publicApiFingerprint = fingerprint (publicApiParts text ((version.symbols text).getD [])) ∧
      (∀ P : SymbolJson → Prop, (∀ symbol applied, P { symbol with appliedSymbols := applied } ↔ P symbol) →
        ((∃ symbol ∈ snapshot.symbols, P symbol) ↔ ∃ record ∈ version.records text, P record)) ∧
      snapshot.hierarchy = distinctBy text.hierarchy (version.edges text) := by
  obtain ⟨structural, hstructural, hsnapshot⟩ := Option.map_eq_some_iff.1 h
  obtain ⟨facts, hfacts, hsymbols, hfingerprint, hprovenance⟩ := analyze_eq_some text hstructural
  have hrecords : version.records text = structural.symbols := by
    rw [Version.records, Version.symbols, hfacts, hsymbols]
    rfl
  subst hsnapshot
  refine ⟨?_, ?_, ?_⟩
  · rw [Version.symbols, hfacts]
    exact hfingerprint
  · intro P hP
    rw [hrecords]
    constructor
    · rintro ⟨symbol, hsymbol, hsome⟩
      obtain ⟨record, hrecord, rfl⟩ := List.mem_map.1 hsymbol
      exact ⟨record, hrecord, (hP record _).1 hsome⟩
    · rintro ⟨record, hrecord, hsome⟩
      exact ⟨_, List.mem_map_of_mem hrecord, (hP record _).2 hsome⟩
  · rw [Version.edges, hrecords, ← hprovenance]
    rfl

theorem published_declarations {version : Version} {snapshot : EnrichedJson} (h : version.published text = some snapshot) :
    declarations snapshot = {declaration | ∃ record ∈ version.records text, apiDeclaration record = some declaration} := by
  ext declaration
  exact (published_records h).2.1 (fun symbol => apiDeclaration symbol = some declaration) fun _ _ => Iff.rfl

theorem published_supertypes {version : Version} {snapshot : EnrichedJson} (h : version.published text = some snapshot)
    (hinj : ∀ a ∈ version.edges text, ∀ b ∈ version.edges text, text.hierarchy a = text.hierarchy b → a = b) :
    supertypes snapshot = version.classSupertypes text := by
  obtain ⟨-, hsymbols, hhierarchy⟩ := published_records h
  ext ⟨subtype, supertype⟩
  have hclass : ApiClass snapshot.symbols subtype ↔ ApiClass (version.records text) subtype :=
    hsymbols (fun symbol => (apiDeclaration symbol).isSome ∧ symbol.kind ∈ classKinds ∧ symbol.id = subtype) fun _ _ => Iff.rfl
  show (ApiClass snapshot.symbols subtype ∧ _) ↔ (ApiClass (version.records text) subtype ∧ _)
  rw [hclass]
  refine and_congr_right fun hdeclared => ?_
  rw [hhierarchy]
  constructor
  · rintro ⟨fact, hfact, heq⟩
    cases heq
    exact (mem_resolvedEdges.1 ((mem_distinctBy hinj).1 hfact)).2.2.2
  · rintro ⟨found, hfound, hsubtype, hsupertype⟩
    obtain ⟨record, hrecord, -, -, hid⟩ := hdeclared
    refine ⟨⟨subtype, supertype, "exact", provenance version.source.context.asStr⟩, (mem_distinctBy hinj).2 ?_, rfl⟩
    exact mem_resolvedEdges.2 ⟨hid ▸ List.mem_map_of_mem hrecord, rfl, rfl, found, hfound, hsubtype, hsupertype⟩

/-! ## Equal fingerprints -/

theorem publicApiParts_eq {facts : List SymbolFact} (h : ∀ record ∈ facts.map SymbolFact.json, text.symbol record ≠ "") :
    publicApiParts text facts =
      ((facts.map SymbolFact.json).filter visible).map fun record => JvmBytecodeExtractor.utf8 (text.symbol record) := by
  unfold publicApiParts
  induction facts with
  | nil => rfl
  | cons fact facts ih =>
    have hfacts := ih fun record hrecord => h record (List.mem_cons_of_mem _ hrecord)
    rw [List.map_cons, List.map_cons, List.filter_cons, List.filter_cons, hfacts]
    have hutf8 : JvmBytecodeExtractor.utf8 (text.symbol fact.json) ≠ [] := by
      intro hnil
      exact h fact.json List.mem_cons_self (utf8_inj hnil)
    by_cases hvisible : visible fact.json
    · simp [hvisible, hutf8]
    · simp [hvisible]

theorem map_inj_on {α β : Type} {f : α → β} {l m : List α} (hinj : ∀ a ∈ l, ∀ b ∈ m, f a = f b → a = b)
    (h : l.map f = m.map f) : l = m := by
  induction l generalizing m with
  | nil => exact (List.map_eq_nil_iff.1 h.symm).symm
  | cons a l ih =>
    cases m with
    | nil => cases h
    | cons b m =>
      obtain ⟨hhead, htail⟩ := List.cons.inj h
      have hrest := ih (fun a ha b hb => hinj a (List.mem_cons_of_mem _ ha) b (List.mem_cons_of_mem _ hb)) htail
      rw [hinj a List.mem_cons_self b List.mem_cons_self hhead, hrest]

/-- The records that are hashed are the same in both versions. -/
theorem visible_records_eq {before after : Version} (htext : Distinguishes text before after)
    (hdigest : Sha256.digest (before.hashed text) = Sha256.digest (after.hashed text) → before.hashed text = after.hashed text)
    (hapi : fingerprint (publicApiParts text ((before.symbols text).getD [])) =
      fingerprint (publicApiParts text ((after.symbols text).getD []))) :
    (before.records text).filter visible = (after.records text).filter visible := by
  have hparts := fingerprint_inj hdigest hapi
  rw [publicApiParts_eq (htext.symbol_ne before (by simp)), publicApiParts_eq (htext.symbol_ne after (by simp))] at hparts
  refine map_inj_on (fun a ha b hb hutf8 => ?_) hparts
  exact htext.symbol_inj a (List.mem_filter.1 ha).1 b (List.mem_filter.1 hb).1 (utf8_inj hutf8)

theorem visible_iff {symbol : SymbolJson} {declaration : ApiDeclaration} (h : apiDeclaration symbol = some declaration) :
    visible symbol ↔ declaration.visibility ≠ .component := by
  obtain ⟨found, hfound, rfl⟩ := Option.map_eq_some_iff.1 h
  unfold visibility at hfound
  unfold visible
  split at hfound
  · cases hfound
  · next hprivate =>
    split at hfound
    · next hinternal =>
      cases hfound
      simp [hinternal]
    · next hinternal =>
      have hvisible : found ≠ .component := by
        split at hfound <;> cases hfound <;> decide
      simp [hprivate, hinternal, hvisible]

theorem mem_declarations_iff {version : Version} {snapshot : EnrichedJson} (h : version.published text = some snapshot)
    {declaration : ApiDeclaration} : declaration ∈ declarations snapshot ↔
      declaration ∈ version.internals text ∨
        (declaration.visibility ≠ .component ∧
          ∃ record ∈ (version.records text).filter visible, apiDeclaration record = some declaration) := by
  rw [published_declarations h]
  constructor
  · rintro ⟨record, hrecord, hdeclaration⟩
    by_cases hvisibility : declaration.visibility = .component
    · exact .inl ⟨hvisibility, record, hrecord, hdeclaration⟩
    · exact .inr ⟨hvisibility, record, List.mem_filter.2 ⟨hrecord, (visible_iff hdeclaration).2 hvisibility⟩, hdeclaration⟩
  · rintro (⟨-, record, hrecord, hdeclaration⟩ | ⟨-, record, hrecord, hdeclaration⟩)
    · exact ⟨record, hrecord, hdeclaration⟩
    · exact ⟨record, (List.mem_filter.1 hrecord).1, hdeclaration⟩

theorem declarations_eq_iff {before after : Version} {old new : EnrichedJson} (hbefore : before.published text = some old)
    (hafter : after.published text = some new)
    (hvisible : (before.records text).filter visible = (after.records text).filter visible) :
    declarations old = declarations new ↔ before.internals text = after.internals text := by
  rw [Set.ext_iff, Set.ext_iff]
  refine forall_congr' fun declaration => ?_
  rw [mem_declarations_iff hbefore, mem_declarations_iff hafter, hvisible]
  by_cases hvisibility : declaration.visibility = .component
  · simp [hvisibility]
  · have hbefore : declaration ∉ before.internals text := fun hmem => hvisibility hmem.1
    have hafter : declaration ∉ after.internals text := fun hmem => hvisibility hmem.1
    simp [hvisibility, hbefore, hafter]

end PublicApi

open PublicApi in
/-- For versions with one fingerprint. -/
theorem public_api_same_iff {text : JsonText} {before after : Version} {old new : K2SnapshotEnricher.EnrichedJson}
    (hbefore : before.published text = some old) (hafter : after.published text = some new)
    (htext : Distinguishes text before after)
    (hdigest : Sha256.digest (before.hashed text) = Sha256.digest (after.hashed text) → before.hashed text = after.hashed text)
    (hapi : old.publicApiFingerprint = new.publicApiFingerprint) :
    SameApi old new ↔
      before.internals text = after.internals text ∧ before.classSupertypes text = after.classSupertypes text := by
  rw [(published_records hbefore).1, (published_records hafter).1] at hapi
  have hvisible := visible_records_eq htext hdigest hapi
  unfold SameApi
  rw [declarations_eq_iff hbefore hafter hvisible, published_supertypes hbefore (htext.hierarchy_inj before (by simp)),
    published_supertypes hafter (htext.hierarchy_inj after (by simp))]

/-! ## An internal function and a superclass -/

namespace PublicApi

open K2SnapshotEnricher

/-- The JSON texts where no character needs an escape. -/
def plainText : JsonText :=
  let text (value : String) := "\"" ++ value ++ "\""
  let optional (value : Option String) := (value.map text).getD "null"
  let array (values : List String) := "[" ++ ",".intercalate (values.map text) ++ "]"
  let object (members : List (String × String)) :=
    "\x7b" ++ ",".intercalate (members.map fun member => text member.1 ++ ":" ++ member.2) ++ "\x7d"
  let provenance (value : Provenance) := object
    [("backend", text value.backend), ("backend_version", text value.backendVersion),
      ("protocol_version", toString value.protocolVersion), ("analysis_options", text value.analysisOptions.asStr)]
  let range (value : SourceRange) := object
    [("source_unit", text value.sourceUnit.asStr),
      ("bytes", object [("start", toString value.bytes.start), ("end", toString value.bytes.stop)])]
  let afterId (value : SymbolJson) := ",".intercalate
    ("" :: ([("backend_key", object [("backend", text value.backendKey.backend),
        ("schema_version", toString value.backendKey.schemaVersion), ("value", text value.backendKey.value)]),
      ("language", text value.language), ("kind", text value.kind), ("name", text value.name),
      ("qualified_name", text value.qualifiedName), ("signature", optional value.signature), ("component", text value.component),
      ("declaration", range value.declaration), ("name_range", range value.nameRange), ("owner", optional value.owner),
      ("modifiers", array value.modifiers), ("applied_symbols", array value.appliedSymbols), ("freshness", text value.freshness),
      ("completeness", text value.completeness), ("provenance", provenance value.provenance)].map fun member =>
        text member.1 ++ ":" ++ member.2))
  { symbol := fun value => "\x7b\"id\":\"" ++ (value.id ++ ("\"" ++ (afterId value ++ "\x7d")))
    occurrence := fun value => object
      [("range", range value.range), ("kind", text value.kind), ("enclosing_symbol", optional value.enclosingSymbol),
        ("target", optional value.target), ("type_id", optional value.typeId), ("precision", text value.precision),
        ("freshness", text value.freshness), ("completeness", text value.completeness), ("provenance", provenance value.provenance)]
    hierarchy := fun value => object
      [("subtype", text value.subtype), ("supertype", text value.supertype), ("precision", text value.precision),
        ("provenance", provenance value.provenance)] }

def leaf (type : PsiType) (start stop : Nat) : Psi := .node ⟨type, none, none, ⟨start, stop⟩, []⟩ []

/-- `class A : B` and `internal fun f() {}` on two lines, with any letters and any body of two characters. -/
def sampleVersion (superclass function body : String) : Version where
  source := sampleUnit "A.kt" "sha256:content"
  contents := "class A : " ++ superclass ++ "\ninternal fun " ++ function ++ "() " ++ body
  file :=
    { packageFqName := ""
      tree := .node ⟨.psiElement, none, none, ⟨0, 31⟩, []⟩
        [.node ⟨.ktClass false false none, some "A", some ⟨6, 7⟩, ⟨0, 11⟩, []⟩
            [.node ⟨.ktTypeReference, none, none, ⟨10, 11⟩, []⟩ [leaf .ktNameReferenceExpression 10 11]],
          .node ⟨.ktNamedFunction [] none, some function, some ⟨25, 26⟩, ⟨12, 31⟩, [⟨"internal", false, false⟩]⟩
            [leaf .psiElement 12 20, leaf .psiElement 29 31]] }
  facts :=
    { targets := fun key =>
        if key = "class:A" then some "kotlin:app:main:src/A.kt#class:A:6"
        else if key = "class:B" then some "kotlin:app:main:src/B.kt#interface:B:10"
        else if key = "class:C" then some "kotlin:app:main:src/C.kt#interface:C:10"
        else none
      hierarchy := [⟨"class:A", "class:" ++ superclass⟩]
      annotations := [] }

theorem quoted_inj {start a b : String} {rest others : String} (ha : '"' ∉ a.toList) (hb : '"' ∉ b.toList)
    (h : start ++ (a ++ ("\"" ++ rest)) = start ++ (b ++ ("\"" ++ others))) : a = b := by
  have hlist := congrArg String.toList ((String.append_right_inj _).1 h)
  rw [String.toList_append, String.toList_append, String.toList_append, String.toList_append] at hlist
  exact String.toList_injective (Parts.append_stop_inj ha hb hlist).1

theorem plainText_id {a b : SymbolJson} (ha : '"' ∉ a.id.toList) (hb : '"' ∉ b.id.toList)
    (h : plainText.symbol a = plainText.symbol b) : a.id = b.id := quoted_inj ha hb h

def sampleFact (id key kind name qualifiedName : String) (signature : Option String) (declaration nameRange : ByteRange)
    (modifiers : List String) : SymbolFact :=
  ⟨nameRange.start, nameRange.stop, ⟨"kotlin:app:main:src/A.kt#" ++ id, ⟨"kide-kotlin-jvm", 1, "src/A.kt:" ++ key⟩, "kotlin", kind,
    name, qualifiedName, signature, "app:main", ⟨⟨"unit:A.kt"⟩, declaration⟩, ⟨⟨"unit:A.kt"⟩, nameRange⟩, none, modifiers, [], "fresh",
    "partial", provenance "sha256:context"⟩⟩

def classFact : SymbolFact := sampleFact "class:A:6" "6:class" "class" "A" "A" none ⟨0, 11⟩ ⟨6, 7⟩ []

def initFact : SymbolFact :=
  sampleFact "constructor:<init>:6" "6:primary_constructor" "constructor" "<init>" ".A.<init>" (some "()") ⟨6, 7⟩ ⟨6, 7⟩ []

def functionFact (function : String) : SymbolFact :=
  sampleFact ("function:" ++ function ++ ":25") "25:function" "function" function function (some "():?") ⟨12, 31⟩ ⟨25, 26⟩ ["internal"]

/-- The order of the first two is that of their texts. -/
def sortedFacts (function : String) : List SymbolFact :=
  (if JvmBytecodeExtractor.codeUnitsLe (plainText.symbol classFact.json) (plainText.symbol initFact.json) then [classFact, initFact]
    else [initFact, classFact]) ++ [functionFact function]

theorem sorted (function : String) :
    [classFact, functionFact function, initFact].insertionSort (factLe plainText) = sortedFacts function := by
  have hfunction : ¬ factLe plainText (functionFact function) initFact := by
    have hfirst : (functionFact function).nameStart = 25 := rfl
    have hsecond : initFact.nameStart = 6 := rfl
    rintro (h | ⟨h, -⟩) <;> omega
  have hclass : factLe plainText classFact initFact ↔
      JvmBytecodeExtractor.codeUnitsLe (plainText.symbol classFact.json) (plainText.symbol initFact.json) :=
    ⟨fun h => ((h.resolve_left (by decide)).2.resolve_left (by decide)).2, fun h => .inr ⟨rfl, .inr ⟨rfl, h⟩⟩⟩
  have hlast : factLe plainText classFact (functionFact function) := .inl (Nat.lt_of_sub_eq_succ rfl)
  rw [List.insertionSort_cons, List.insertionSort_cons, List.insertionSort_cons, List.insertionSort_nil, List.orderedInsert_nil,
    List.orderedInsert_cons, if_neg hfunction, List.orderedInsert_nil, List.orderedInsert_cons, sortedFacts]
  by_cases hle : JvmBytecodeExtractor.codeUnitsLe (plainText.symbol classFact.json) (plainText.symbol initFact.json)
  · rw [if_pos (hclass.2 hle), if_pos hle]
    rfl
  · rw [if_neg (fun h => hle (hclass.1 h)), if_neg hle, List.orderedInsert_cons, if_pos hlast]
    rfl

theorem sortedFacts_ranges (function : String) :
    (sortedFacts function).map (fun symbol => (symbol.nameStart, symbol.nameEnd)) = [(6, 7), (6, 7), (25, 26)] := by
  unfold sortedFacts
  split <;> rfl

def sampleRecords (function : String) : List SymbolJson := [classFact.json, initFact.json, (functionFact function).json]

theorem mem_map_sortedFacts {function : String} {record : SymbolJson} :
    record ∈ (sortedFacts function).map SymbolFact.json ↔ record ∈ sampleRecords function := by
  unfold sortedFacts sampleRecords
  split <;> simp [or_left_comm]

theorem publicApiParts_sortedFacts (function other : String) :
    publicApiParts plainText (sortedFacts function) = publicApiParts plainText (sortedFacts other) := by
  have hhidden : ∀ name, publicApiParts plainText [functionFact name] = [] := fun _ => rfl
  have happend : ∀ facts name, publicApiParts plainText (facts ++ [functionFact name]) = publicApiParts plainText facts := by
    intro facts name
    rw [publicApiParts, List.map_append, List.filter_append]
    show publicApiParts plainText facts ++ publicApiParts plainText [functionFact name] = _
    rw [hhidden, List.append_nil]
  rw [sortedFacts, sortedFacts, happend, happend]

theorem published_of_symbols {version : Version} {facts : List SymbolFact} {occurrences : List OccurrenceJson}
    {diagnostics : List DiagnosticJson} (hsymbols : version.symbols text = some facts)
    (hoccurrences : KotlinStructuralExtractor.occurrences text version.file version.source version.contents
      (facts.map fun symbol => (symbol.nameStart, symbol.nameEnd)) = some occurrences)
    (hdiagnostics : KotlinStructuralExtractor.diagnostics version.file version.source version.contents = some diagnostics) :
    ∃ snapshot, version.published text = some snapshot := by
  have hanalyze : ∃ snapshot, analyze text version.file version.source version.contents = some snapshot := by
    rw [Version.symbols] at hsymbols
    simp only [analyze, Option.bind_eq_bind, hsymbols, Option.bind_some, hoccurrences, hdiagnostics]
    exact ⟨_, rfl⟩
  obtain ⟨snapshot, hsnapshot⟩ := hanalyze
  exact ⟨_, Option.map_eq_some_iff.2 ⟨snapshot, hsnapshot, rfl⟩⟩

def Sampled (superclass function body : String) : Prop :=
  (sampleVersion superclass function body).symbols plainText = some (sortedFacts function) ∧
    ∃ snapshot, (sampleVersion superclass function body).published plainText = some snapshot

theorem sampled {superclass function body : String} (hsymbols : (sampleVersion superclass function body).symbols plainText =
      some ([classFact, functionFact function, initFact].insertionSort (factLe plainText)))
    (hoccurrences : ∃ found, occurrences plainText (sampleVersion superclass function body).file
      (sampleVersion superclass function body).source (sampleVersion superclass function body).contents
      [(6, 7), (6, 7), (25, 26)] = some found)
    (hdiagnostics : diagnostics (sampleVersion superclass function body).file
      (sampleVersion superclass function body).source (sampleVersion superclass function body).contents = some []) :
    Sampled superclass function body := by
  rw [sorted] at hsymbols
  obtain ⟨found, hfound⟩ := hoccurrences
  rw [← sortedFacts_ranges function] at hfound
  exact ⟨hsymbols, published_of_symbols hsymbols hfound hdiagnostics⟩

theorem sampled_versions : Sampled "B" "f" "\x7b\x7d" ∧ Sampled "B" "f" "=1" ∧ Sampled "C" "g" "\x7b\x7d" :=
  ⟨sampled rfl ⟨_, rfl⟩ rfl, sampled rfl ⟨_, rfl⟩ rfl, sampled rfl ⟨_, rfl⟩ rfl⟩

section Sampled

variable {superclass function body : String} (h : Sampled superclass function body)
include h

theorem Sampled.mem_records {record : SymbolJson} :
    record ∈ (sampleVersion superclass function body).records plainText ↔ record ∈ sampleRecords function := by
  rw [Version.records, h.1, Option.getD_some, mem_map_sortedFacts]

theorem Sampled.hashed_eq : (sampleVersion superclass function body).hashed plainText =
    framedParts (publicApiParts plainText (sortedFacts "")) := by
  rw [Version.hashed, h.1, Option.getD_some, publicApiParts_sortedFacts function ""]

theorem Sampled.fingerprint_eq {snapshot : EnrichedJson}
    (hsnapshot : (sampleVersion superclass function body).published plainText = some snapshot) :
    snapshot.publicApiFingerprint = fingerprint (publicApiParts plainText (sortedFacts "")) := by
  rw [(published_records hsnapshot).1, h.1, Option.getD_some, publicApiParts_sortedFacts function ""]

end Sampled

/-- One edge at most. -/
theorem sample_edges_eq {superclass function body : String} :
    ∀ a ∈ (sampleVersion superclass function body).edges plainText, ∀ b ∈ (sampleVersion superclass function body).edges plainText,
      a = b := by
  intro a ha b hb
  obtain ⟨-, hprecisionA, hprovenanceA, found, hfound, hsubtypeA, hsupertypeA⟩ := mem_resolvedEdges.1 ha
  obtain ⟨-, hprecisionB, hprovenanceB, other, hother, hsubtypeB, hsupertypeB⟩ := mem_resolvedEdges.1 hb
  rw [List.mem_singleton.1 hfound] at hsubtypeA hsupertypeA
  rw [List.mem_singleton.1 hother] at hsubtypeB hsupertypeB
  have hsubtype := Option.some.inj (hsubtypeA.symm.trans hsubtypeB)
  have hsupertype := Option.some.inj (hsupertypeA.symm.trans hsupertypeB)
  cases a
  cases b
  simp_all

theorem sample_ids : ∀ other ∈ ["f", "g"], ((sampleRecords "f").all fun a => (sampleRecords other).all fun b =>
    decide ('"' ∉ a.id.toList ∧ '"' ∉ b.id.toList ∧ (a.id = b.id → a = b))) = true := by
  decide +kernel

theorem sample_distinguishes {superclass other body : String} (h : Sampled superclass other body) (hother : other ∈ ["f", "g"]) :
    Distinguishes plainText (sampleVersion "B" "f" "\x7b\x7d") (sampleVersion superclass other body) := by
  refine ⟨?_, ?_, ?_⟩
  · intro a ha b hb htext
    have hall := List.all_eq_true.1 (sample_ids other hother) a (sampled_versions.1.mem_records.1 ha)
    obtain ⟨hquoteA, hquoteB, hid⟩ := of_decide_eq_true (List.all_eq_true.1 hall b (h.mem_records.1 hb))
    exact hid (plainText_id hquoteA hquoteB htext)
  · intro version _ record _ hempty
    exact absurd (String.append_eq_empty_iff.1 hempty).1 (by decide)
  · intro version hversion a ha b hb _
    rcases List.mem_pair.1 hversion with rfl | rfl
    · exact sample_edges_eq a ha b hb
    · exact sample_edges_eq a ha b hb

/-- The declaration of the internal function. -/
def functionDeclaration (function : String) : ApiDeclaration :=
  ⟨.component, "kotlin:app:main:src/A.kt#function:" ++ function ++ ":25", "function", some "():?", ⟨⟨"unit:A.kt"⟩, ⟨12, 31⟩⟩,
    ⟨⟨"unit:A.kt"⟩, ⟨25, 26⟩⟩⟩

theorem sample_declarations_ne {old new : EnrichedJson} (hold : (sampleVersion "B" "f" "\x7b\x7d").published plainText = some old)
    (hnew : (sampleVersion "C" "g" "\x7b\x7d").published plainText = some new) : declarations old ≠ declarations new := by
  intro heq
  have hdeclared : functionDeclaration "f" ∈ declarations old := by
    rw [published_declarations hold]
    exact ⟨_, sampled_versions.1.mem_records.2 (List.mem_cons_of_mem _ (List.mem_cons_of_mem _ List.mem_cons_self)), rfl⟩
  rw [heq, published_declarations hnew] at hdeclared
  obtain ⟨record, hrecord, hdeclaration⟩ := hdeclared
  have hnone : (sampleRecords "g").all (fun record => decide (apiDeclaration record ≠ some (functionDeclaration "f"))) = true := by
    decide +kernel
  exact of_decide_eq_true (List.all_eq_true.1 hnone record (sampled_versions.2.2.mem_records.1 hrecord)) hdeclaration

theorem sample_supertypes_ne {old new : EnrichedJson} (hold : (sampleVersion "B" "f" "\x7b\x7d").published plainText = some old)
    (hnew : (sampleVersion "C" "g" "\x7b\x7d").published plainText = some new) : supertypes old ≠ supertypes new := by
  intro heq
  have hdeclared : ("kotlin:app:main:src/A.kt#class:A:6", "kotlin:app:main:src/B.kt#interface:B:10") ∈ supertypes old := by
    rw [published_supertypes hold fun a ha b hb _ => sample_edges_eq a ha b hb]
    exact ⟨⟨_, sampled_versions.1.mem_records.2 List.mem_cons_self, rfl, List.mem_cons_self, rfl⟩, _, List.mem_cons_self, rfl, rfl⟩
  rw [heq, published_supertypes hnew fun a ha b hb _ => sample_edges_eq a ha b hb] at hdeclared
  obtain ⟨-, found, hfound, -, hsupertype⟩ := hdeclared
  rw [List.mem_singleton.1 hfound] at hsupertype
  revert hsupertype
  decide

end PublicApi

open PublicApi in
/-- `internal fun f` and `class A : B` become `internal fun g` and `class A : C`. -/
theorem renamed_internal_unnoticed :
    ∃ old new, (sampleVersion "B" "f" "\x7b\x7d").published plainText = some old ∧
      (sampleVersion "C" "g" "\x7b\x7d").published plainText = some new ∧
      Distinguishes plainText (sampleVersion "B" "f" "\x7b\x7d") (sampleVersion "C" "g" "\x7b\x7d") ∧
      (Sha256.digest ((sampleVersion "B" "f" "\x7b\x7d").hashed plainText) =
          Sha256.digest ((sampleVersion "C" "g" "\x7b\x7d").hashed plainText) →
        (sampleVersion "B" "f" "\x7b\x7d").hashed plainText = (sampleVersion "C" "g" "\x7b\x7d").hashed plainText) ∧
      old.publicApiFingerprint = new.publicApiFingerprint ∧
      (∀ dependents, apiDependentInvalidations (some ⟨old.publicApiFingerprint⟩) (some ⟨new.publicApiFingerprint⟩) dependents = []) ∧
      declarations old ≠ declarations new ∧ supertypes old ≠ supertypes new ∧ ¬ SameApi old new := by
  obtain ⟨hbefore, -, hafter⟩ := sampled_versions
  obtain ⟨old, hold⟩ := hbefore.2
  obtain ⟨new, hnew⟩ := hafter.2
  have hfingerprint : old.publicApiFingerprint = new.publicApiFingerprint :=
    (hbefore.fingerprint_eq hold).trans (hafter.fingerprint_eq hnew).symm
  have hdeclarations := sample_declarations_ne hold hnew
  exact ⟨old, new, hold, hnew, sample_distinguishes hafter (by decide), fun _ => hbefore.hashed_eq.trans hafter.hashed_eq.symm,
    hfingerprint, fun _ => if_pos (by rw [hfingerprint]), hdeclarations, sample_supertypes_ne hold hnew,
    fun hsame => hdeclarations hsame.1⟩

open PublicApi in
/-- Another body. -/
theorem edited_body_same_api :
    ∃ old new, (sampleVersion "B" "f" "\x7b\x7d").published plainText = some old ∧
      (sampleVersion "B" "f" "=1").published plainText = some new ∧ SameApi old new := by
  obtain ⟨hbefore, hafter, -⟩ := sampled_versions
  obtain ⟨old, hold⟩ := hbefore.2
  obtain ⟨new, hnew⟩ := hafter.2
  have hrecords : (sampleVersion "B" "f" "\x7b\x7d").records plainText = (sampleVersion "B" "f" "=1").records plainText := by
    rw [Version.records, Version.records, hbefore.1, hafter.1]
  refine ⟨old, new, hold, hnew, (public_api_same_iff hold hnew (sample_distinguishes hafter (by decide))
    (fun _ => hbefore.hashed_eq.trans hafter.hashed_eq.symm)
    ((hbefore.fingerprint_eq hold).trans (hafter.fingerprint_eq hnew).symm)).2 ⟨?_, ?_⟩⟩
  · rw [Version.internals, Version.internals, hrecords]
  · rw [Version.classSupertypes, Version.classSupertypes, hrecords]
    rfl

end Kide
