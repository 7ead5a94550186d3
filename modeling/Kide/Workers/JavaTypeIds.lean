import Kide.Lib.Fields
import Kide.Lib.FirstWins
import Kide.Workers.JavaPatterns

/-!
# Java type ids

The ids of the types of Java sources: the symbol collector computes them from the syntax tree (`elementId`), and `sourceTypeIds`
finds them by patterns in the texts, for types whose tree the compiler does not have.

* `lookup_sourceTypeIds` : the id under a qualified name is that of the first words that give the name;
* `sourceTypeIds_agree_iff` : the two ids of every type that the compiler reports are one exactly if the first words that give its
  qualified name are those of its declaration.
-/

namespace Kide
open Scans FirstWins

namespace JavaSemanticExtractor

/-! ## Type ids from the texts -/

/-- A source file that the batch knows, under the path at which it is read. -/
structure JavaSource where
  location : String
  component : String
  path : String
  text : Option String
deriving DecidableEq, Repr

/-- A match of the declaration pattern, with what is before it. -/
structure TypeMatch where
  source : JavaSource
  packageName : List Char
  before : List Char
  words : TypeWords
deriving DecidableEq, Repr

def qualified (packageName name : List Char) : String :=
  ".".intercalate ([String.ofList packageName, String.ofList name].filter fun part => part ≠ "")

def typeId (source : JavaSource) (kind name : String) (nameOffset : Nat) : String :=
  "java:" ++ source.component ++ ":" ++ source.path ++ "#" ++ kind ++ ":" ++ name ++ ":" ++ toString nameOffset

def Keyword.kind : Keyword → String
  | .interface => "interface"
  | .enum => "enum"
  | .class_ => "class"

namespace TypeMatch

def qualifiedName (declaration : TypeMatch) : String := qualified declaration.packageName declaration.words.name

def nameOffset (declaration : TypeMatch) : Nat :=
  units declaration.before + (lastIndexOf declaration.words.name declaration.words.value).getD 0

def id (declaration : TypeMatch) : String :=
  typeId declaration.source declaration.words.keyword.kind (String.ofList declaration.words.name) declaration.nameOffset

end TypeMatch

section
variable (marked : List Char → Char → Bool)

/-- The matches in a source, in the order in which they stand in its text. A text that cannot be read has none. -/
def typeMatches (source : JavaSource) : List TypeMatch :=
  match source.text with
  | none => []
  | some text => (findAll (typeWords marked) 0 [] text.toList).map fun found => ⟨source, packageName text.toList, found.1, found.2⟩

/-- The ids under their qualified names, and under a simple name that one type has. -/
def sourceTypeIds (sources : List JavaSource) : List (String × String) :=
  let declarations := sources.flatMap (typeMatches marked)
  let types := putAll TypeMatch.qualifiedName TypeMatch.id declarations []
  let simpleTypeIds := addAll (fun declaration => String.ofList declaration.words.name) TypeMatch.id declarations []
  putAll Prod.fst Prod.snd (singles simpleTypeIds) types

/-! ## Type ids from the syntax tree -/

inductive ElementKind where
  | class_ | interface | enum | annotationType | record
deriving DecidableEq, Repr

/-- `kind` of the elements that are types -/
def ElementKind.kind : ElementKind → String
  | .class_ => "class"
  | .interface => "interface"
  | .enum => "enum"
  | .annotationType => "interface"
  | .record => "property"

/-- Where the tree of a declaration stands: the file, and the offsets of its first letter and behind its last one, which are in the
text of the file. The compiler gives -1 for an offset it does not have. -/
structure TreePlace where
  location : String
  start : Int
  stop : Int
deriving DecidableEq, Repr

/-- A type as the compiler has it. Its simple name is a Java identifier. -/
structure TypeElement where
  kind : ElementKind
  simpleName : String
  qualifiedName : String
  tree : Option TreePlace
  plain : ':' ∉ simpleName.toList
deriving DecidableEq, Repr

def sourceIdentity (sources : List JavaSource) (location : String) : Option JavaSource := sources.find? (·.location = location)

/-- `elementId` of an element at a place -/
def elementIdAt (sources : List JavaSource) (element : TypeElement) (place : TreePlace) : Option String :=
  if place.start < 0 ∨ place.stop < place.start then none
  else do
    let source ← sourceIdentity sources place.location
    let text ← source.text
    some (typeId source element.kind.kind element.simpleName
      (nameOffset marked text.toList element.simpleName.toList place.start.toNat place.stop.toNat))

/-- The id of the symbol that `declaration` emits. -/
def declarationId (sources : List JavaSource) (element : TypeElement) : Option String :=
  element.tree.bind (elementIdAt marked sources element)

def elementKey (element : TypeElement) : ElementKind × String := (element.kind, element.qualifiedName)

/-- What a collector knows of the elements it meets. -/
structure FactCollector where
  elementIds : List (TypeElement × String)
  stagedDeclarationIds : List ((ElementKind × String) × String)
  sourceTypeIds : List (String × String)

def FactCollector.elementId (collector : FactCollector) (sources : List JavaSource) (element : TypeElement) : Option String :=
  (collector.elementIds.lookup element).or ((collector.stagedDeclarationIds.lookup (elementKey element)).or
    ((collector.sourceTypeIds.lookup element.qualifiedName).or (declarationId marked sources element)))

end

section
variable {marked : List Char → Char → Bool}

/-! ## The two ids of a type -/

theorem typeId_inj {a b : JavaSource} {kind kind' name name' : String} {m n : Nat} (hkind : '#' ∉ kind.toList)
    (hkind' : '#' ∉ kind'.toList) (hname : ':' ∉ name.toList) (hname' : ':' ∉ name'.toList) :
    typeId a kind name m = typeId b kind' name' n ↔
      a.component ++ ":" ++ a.path = b.component ++ ":" ++ b.path ∧ kind = kind' ∧ name = name' ∧ m = n := by
  have hform : ∀ (source : JavaSource) (kind name : String) (n : Nat), typeId source kind name n =
      "java:" ++ (source.component ++ ":" ++ source.path) ++ String.singleton '#' ++ kind ++ String.singleton ':' ++ name ++
        String.singleton ':' ++ toString n := by
    intro source kind name n
    rw [typeId, ← String.append_assoc, ← String.append_assoc]
    rfl
  rw [hform, hform, Fields.trailing_inj (Fields.notMem_toString (by decide) _) (Fields.notMem_toString (by decide) _),
    Fields.trailing_inj hname hname', Fields.trailing_inj hkind hkind', String.append_right_inj, Fields.toString_inj, and_assoc, and_assoc]

/-- What `declaration.range.first + declaration.value.lastIndexOf(name)` is. -/
theorem TypeMatch.nameOffset_eq {declaration : TypeMatch} (hgap : Gap declaration.words.gap) :
    declaration.nameOffset = units (declaration.before ++ declaration.words.keyword.word ++ declaration.words.gap) := by
  have hunits : units (declaration.words.keyword.word ++ declaration.words.gap) =
      (declaration.words.keyword.word ++ declaration.words.gap).length := by
    refine units_of_ascii fun c hc => ?_
    rcases List.mem_append.1 hc with hword | hspace
    · exact word_ascii (word_isWord _ c hword)
    · exact space_ascii (hgap.2 c hspace)
  rw [nameOffset, TypeWords.value, lastIndexOf_append, Option.getD_some, List.append_assoc, units_append, hunits]

theorem Keyword.kind_plain (keyword : Keyword) : '#' ∉ keyword.kind.toList := by cases keyword <;> decide

theorem ElementKind.kind_plain (kind : ElementKind) : '#' ∉ kind.kind.toList := by cases kind <;> decide

theorem Name.plain {name : List Char} (h : Name name) : ':' ∉ (String.ofList name).toList := by
  rw [String.toList_ofList]
  intro hmem
  have := h.2 _ hmem
  revert this
  decide

theorem mem_typeMatches {source : JavaSource} {declaration : TypeMatch} : declaration ∈ typeMatches marked source ↔
    declaration.source = source ∧ ∃ text, source.text = some text ∧ declaration.packageName = packageName text.toList ∧
      Declares marked text.toList declaration.before declaration.words := by
  unfold typeMatches
  cases htext : source.text with
  | none => exact iff_of_false List.not_mem_nil (by rintro ⟨-, text, h, -⟩; cases h)
  | some text =>
    dsimp only
    rw [List.mem_map]
    constructor
    · rintro ⟨found, hfound, rfl⟩
      exact ⟨rfl, text, rfl, rfl, mem_typeWords.1 hfound⟩
    · rintro ⟨rfl, text', h, hpackage, hdeclares⟩
      cases h
      exact ⟨(declaration.before, declaration.words), mem_typeWords.2 hdeclares, by rw [← hpackage]⟩

theorem typeMatches_pairwise (source : JavaSource) :
    (typeMatches marked source).Pairwise fun a b => a.before.length < b.before.length := by
  unfold typeMatches
  cases source.text with
  | none => exact .nil
  | some text => exact List.pairwise_map.2 (findAll_pairwise _ _ _)

variable (marked) in
/-- In the text of the source the words behind `before` declare a type with the qualified name. -/
def Gives (source : JavaSource) (qualifiedName : String) (before : List Char) (words : TypeWords) : Prop :=
  ∃ text name, source.text = some text ∧ Declares marked text.toList before words ∧ InPackage text.toList name ∧
    qualified name words.name = qualifiedName

theorem gives_iff {source : JavaSource} {qualifiedName : String} {before : List Char} {words : TypeWords} :
    Gives marked source qualifiedName before words ↔ ∃ declaration ∈ typeMatches marked source,
      declaration.qualifiedName = qualifiedName ∧ declaration.before = before ∧ declaration.words = words := by
  constructor
  · rintro ⟨text, name, htext, hdeclares, hpackage, hname⟩
    refine ⟨⟨source, packageName text.toList, before, words⟩, mem_typeMatches.2 ⟨rfl, text, htext, rfl, hdeclares⟩, ?_, rfl, rfl⟩
    rw [TypeMatch.qualifiedName, inPackage_iff.1 hpackage, hname]
  · rintro ⟨declaration, hmem, hname, rfl, rfl⟩
    obtain ⟨-, text, htext, hpackage, hdeclares⟩ := mem_typeMatches.1 hmem
    exact ⟨text, _, htext, hdeclares, inPackage_iff.2 hpackage.symm, hname⟩

/-! ### What the map gives -/

/-- The first declaration of a qualified name. -/
theorem find?_typeMatches {source : JavaSource} {qualifiedName : String} {declaration : TypeMatch} :
    (typeMatches marked source).find? (fun declaration => declaration.qualifiedName = qualifiedName) = some declaration ↔
      declaration ∈ typeMatches marked source ∧ declaration.qualifiedName = qualifiedName ∧
        ∀ before words, Gives marked source qualifiedName before words → declaration.before.length ≤ before.length := by
  rw [find?_eq_some_iff_least (typeMatches_pairwise source), decide_eq_true_eq]
  refine and_congr_right fun _ => and_congr_right fun _ => ?_
  constructor
  · intro h before words hgives
    obtain ⟨other, hmem, hname, rfl, -⟩ := gives_iff.1 hgives
    exact h other hmem (decide_eq_true hname)
  · exact fun h other hmem hname => h _ _ (gives_iff.2 ⟨other, hmem, of_decide_eq_true hname, rfl, rfl⟩)

theorem find?_typeMatches_none {source : JavaSource} {qualifiedName : String} :
    (typeMatches marked source).find? (fun declaration => declaration.qualifiedName = qualifiedName) = none ↔
      ∀ before words, ¬ Gives marked source qualifiedName before words := by
  rw [List.find?_eq_none]
  constructor
  · intro h before words hgives
    obtain ⟨declaration, hmem, hname, -, -⟩ := gives_iff.1 hgives
    exact h declaration hmem (decide_eq_true hname)
  · exact fun h declaration hmem hname => h _ _ (gives_iff.2 ⟨declaration, hmem, of_decide_eq_true hname, rfl, rfl⟩)

theorem lookup_sourceTypeIds {sources : List JavaSource} {qualifiedName id : String} :
    (sourceTypeIds marked sources).lookup qualifiedName = some id ↔
      (∃ earlier source later declaration, sources = earlier ++ source :: later ∧
        (∀ source ∈ earlier, ∀ before words, ¬ Gives marked source qualifiedName before words) ∧
        declaration ∈ typeMatches marked source ∧ declaration.qualifiedName = qualifiedName ∧
        (∀ before words, Gives marked source qualifiedName before words → declaration.before.length ≤ before.length) ∧
        declaration.id = id) ∨
      ((∀ source ∈ sources, ∀ before words, ¬ Gives marked source qualifiedName before words) ∧
        (∃ source ∈ sources, ∃ declaration ∈ typeMatches marked source, String.ofList declaration.words.name = qualifiedName) ∧
        ∀ source ∈ sources, ∀ declaration ∈ typeMatches marked source,
          String.ofList declaration.words.name = qualifiedName → declaration.id = id) := by
  have hfirst : (∃ earlier source later declaration, sources = earlier ++ source :: later ∧
        (∀ source ∈ earlier, ∀ before words, ¬ Gives marked source qualifiedName before words) ∧
        declaration ∈ typeMatches marked source ∧ declaration.qualifiedName = qualifiedName ∧
        (∀ before words, Gives marked source qualifiedName before words → declaration.before.length ≤ before.length) ∧
        declaration.id = id) ↔
      ∃ declaration, (sources.findSome? fun source => (typeMatches marked source).find? fun declaration =>
        declaration.qualifiedName = qualifiedName) = some declaration ∧ declaration.id = id := by
    simp only [List.findSome?_eq_some_iff, find?_typeMatches, find?_typeMatches_none]
    constructor
    · rintro ⟨earlier, source, later, declaration, hsources, hearlier, hmem, hname, hleast, hid⟩
      exact ⟨declaration, ⟨earlier, source, later, hsources, ⟨hmem, hname, hleast⟩, hearlier⟩, hid⟩
    · rintro ⟨declaration, ⟨earlier, source, later, hsources, ⟨hmem, hname, hleast⟩, hearlier⟩, hid⟩
      exact ⟨earlier, source, later, declaration, hsources, hearlier, hmem, hname, hleast, hid⟩
  have hnone : (∀ source ∈ sources, ∀ before words, ¬ Gives marked source qualifiedName before words) ↔
      (sources.findSome? fun source => (typeMatches marked source).find? fun declaration =>
        declaration.qualifiedName = qualifiedName) = none := by
    simp only [List.findSome?_eq_none_iff, find?_typeMatches_none]
  have hone := find?_singles (fun declaration : TypeMatch => String.ofList declaration.words.name) TypeMatch.id
    (sources.flatMap (typeMatches marked)) qualifiedName id
  simp only [List.mem_flatMap, forall_exists_index, and_imp] at hone
  rw [hfirst, hnone]
  unfold sourceTypeIds
  dsimp only
  rw [lookup_putAll, lookup_putAll, List.lookup_nil, Option.none_or, List.find?_flatMap]
  cases sources.findSome? fun source =>
      (typeMatches marked source).find? fun declaration => declaration.qualifiedName = qualifiedName with
  | some declaration =>
    rw [Option.map_some, Option.some_or]
    simp
  | none =>
    rw [Option.map_none, Option.none_or, hone]
    constructor
    · rintro ⟨⟨declaration, ⟨source, hsource, hmem⟩, hname⟩, hall⟩
      exact .inr ⟨rfl, ⟨source, hsource, declaration, hmem, hname⟩, fun source hsource declaration hmem => hall declaration source hsource hmem⟩
    · rintro (⟨_, heq, -⟩ | ⟨-, ⟨source, hsource, declaration, hmem, hname⟩, hall⟩)
      · cases heq
      · exact ⟨⟨declaration, ⟨source, hsource, hmem⟩, hname⟩, fun declaration source hsource hmem => hall source hsource declaration hmem⟩

/-! ### Agreement -/

/-- The compiler knows where the declaration stands, in a source that can be read. -/
def Located (sources : List JavaSource) (element : TypeElement) : Prop :=
  ∃ place own text, element.tree = some place ∧ 0 ≤ place.start ∧ place.start ≤ place.stop ∧
    sourceIdentity sources place.location = some own ∧ own.text = some text

variable (marked) in
/-- The words are those of the declaration: in a source of its component and path, with its kind and name, and where its name
stands. -/
def Own (sources : List JavaSource) (element : TypeElement) (source : JavaSource) (before : List Char) (words : TypeWords) : Prop :=
  ∃ place own text, element.tree = some place ∧ sourceIdentity sources place.location = some own ∧ own.text = some text ∧
    source.component ++ ":" ++ source.path = own.component ++ ":" ++ own.path ∧ words.keyword.kind = element.kind.kind ∧
    String.ofList words.name = element.simpleName ∧
    NameAt marked text.toList element.simpleName.toList place.start.toNat place.stop.toNat
      (units (before ++ words.keyword.word ++ words.gap))

theorem declarationId_eq_some_iff {sources : List JavaSource} {element : TypeElement} {id : String} :
    declarationId marked sources element = some id ↔ ∃ place own text, element.tree = some place ∧ 0 ≤ place.start ∧
      place.start ≤ place.stop ∧ sourceIdentity sources place.location = some own ∧ own.text = some text ∧
      id = typeId own element.kind.kind element.simpleName
        (nameOffset marked text.toList element.simpleName.toList place.start.toNat place.stop.toNat) := by
  constructor
  · intro h
    obtain ⟨place, hplace, hat⟩ := Option.bind_eq_some_iff.1 h
    unfold elementIdAt at hat
    split_ifs at hat with hbounds
    obtain ⟨own, hown, hrest⟩ := Option.bind_eq_some_iff.1 hat
    obtain ⟨text, htext, heq⟩ := Option.bind_eq_some_iff.1 hrest
    rw [not_or, not_lt, not_lt] at hbounds
    exact ⟨place, own, text, hplace, hbounds.1, hbounds.2, hown, htext, (Option.some.inj heq).symm⟩
  · rintro ⟨place, own, text, hplace, hstart, hstop, hown, htext, rfl⟩
    rw [declarationId, hplace, Option.bind_some, elementIdAt, if_neg (not_or.2 ⟨not_lt.2 hstart, not_lt.2 hstop⟩)]
    exact Option.bind_eq_some_iff.2 ⟨own, hown, Option.bind_eq_some_iff.2 ⟨text, htext, rfl⟩⟩

variable (marked) in
theorem located_iff {sources : List JavaSource} {element : TypeElement} :
    Located sources element ↔ ∃ id, declarationId marked sources element = some id := by
  constructor
  · rintro ⟨place, own, text, hplace, hstart, hstop, hown, htext⟩
    exact ⟨_, declarationId_eq_some_iff.2 ⟨place, own, text, hplace, hstart, hstop, hown, htext, rfl⟩⟩
  · rintro ⟨id, hid⟩
    obtain ⟨place, own, text, hplace, hstart, hstop, hown, htext, -⟩ := declarationId_eq_some_iff.1 hid
    exact ⟨place, own, text, hplace, hstart, hstop, hown, htext⟩

theorem id_eq_iff {sources : List JavaSource} {element : TypeElement} {id : String} {source : JavaSource} {declaration : TypeMatch}
    (hid : declarationId marked sources element = some id) (hmem : declaration ∈ typeMatches marked source) :
    declaration.id = id ↔ Own marked sources element source declaration.before declaration.words := by
  obtain ⟨place, own, text, hplace, -, -, hown, htext, rfl⟩ := declarationId_eq_some_iff.1 hid
  obtain ⟨hsource, _, -, -, hdeclares⟩ := mem_typeMatches.1 hmem
  rw [TypeMatch.id, typeId_inj declaration.words.keyword.kind_plain element.kind.kind_plain hdeclares.name.plain element.plain,
    TypeMatch.nameOffset_eq hdeclares.gap, hsource]
  constructor
  · rintro ⟨hfile, hkind, hname, hoffset⟩
    exact ⟨place, own, text, hplace, hown, htext, hfile, hkind, hname, nameAt_iff.2 hoffset.symm⟩
  · rintro ⟨place', own', text', hplace', hown', htext', hfile, hkind, hname, hoffset⟩
    obtain rfl := Option.some.inj (hplace.symm.trans hplace')
    obtain rfl := Option.some.inj (hown.symm.trans hown')
    obtain rfl := Option.some.inj (htext.symm.trans htext')
    exact ⟨hfile, hkind, hname, (nameAt_iff.1 hoffset).symm⟩

variable (marked) in
/-- The first words that give the qualified name of the type are those of its declaration. Where none give it, it is a simple name,
and all words with this name are those of the declaration. -/
def FirstWordsOwn (sources : List JavaSource) (element : TypeElement) : Prop :=
  (∃ earlier source later before words, sources = earlier ++ source :: later ∧
    (∀ source ∈ earlier, ∀ before words, ¬ Gives marked source element.qualifiedName before words) ∧
    Gives marked source element.qualifiedName before words ∧
    (∀ before' words', Gives marked source element.qualifiedName before' words' → before.length ≤ before'.length) ∧
    Own marked sources element source before words) ∨
  ((∀ source ∈ sources, ∀ before words, ¬ Gives marked source element.qualifiedName before words) ∧
    (∃ source ∈ sources, ∃ name before words, Gives marked source name before words ∧
      String.ofList words.name = element.qualifiedName) ∧
    ∀ source ∈ sources, ∀ name before words, Gives marked source name before words →
      String.ofList words.name = element.qualifiedName → Own marked sources element source before words)

variable (marked) in
/-- The ids of the types that the compiler reports are those that the texts give for their qualified names. -/
def TypeIdsAgree (sources : List JavaSource) (reported : List TypeElement) : Prop :=
  ∀ element ∈ reported, ∀ id, declarationId marked sources element = some id →
    (sourceTypeIds marked sources).lookup element.qualifiedName = some id

variable (marked) in
/-- The collector has the ids of declarations that the compiler reports, and those of the texts. -/
structure FactCollector.Knows (collector : FactCollector) (sources : List JavaSource) (reported : List TypeElement) : Prop where
  elements : ∀ e ∈ collector.elementIds, ∃ declared ∈ reported, declarationId marked sources declared = some e.2
  staged : ∀ e ∈ collector.stagedDeclarationIds, ∃ declared ∈ reported, declarationId marked sources declared = some e.2
  texts : collector.sourceTypeIds = JavaSemanticExtractor.sourceTypeIds marked sources

variable (marked) in
/-- Whatever type of the sources an edge names, it points to a symbol. -/
def PointsToSymbols (sources : List JavaSource) (reported : List TypeElement) : Prop :=
  ∀ collector : FactCollector, collector.Knows marked sources reported → ∀ element : TypeElement,
    (∃ declared ∈ reported, declared.qualifiedName = element.qualifiedName ∧ Located sources declared) →
      ∃ id, collector.elementId marked sources element = some id ∧
        ∃ declared ∈ reported, declarationId marked sources declared = some id

theorem firstWordsOwn_iff {sources : List JavaSource} {element : TypeElement} {id : String}
    (hid : declarationId marked sources element = some id) :
    (sourceTypeIds marked sources).lookup element.qualifiedName = some id ↔ FirstWordsOwn marked sources element := by
  rw [lookup_sourceTypeIds]
  refine or_congr ?_ (and_congr_right fun _ => ?_)
  · constructor
    · rintro ⟨earlier, source, later, declaration, hsources, hearlier, hmem, hname, hleast, heq⟩
      exact ⟨earlier, source, later, _, _, hsources, hearlier, gives_iff.2 ⟨declaration, hmem, hname, rfl, rfl⟩, hleast,
        (id_eq_iff hid hmem).1 heq⟩
    · rintro ⟨earlier, source, later, before, words, hsources, hearlier, hgives, hleast, hown⟩
      obtain ⟨declaration, hmem, hname, rfl, rfl⟩ := gives_iff.1 hgives
      exact ⟨earlier, source, later, declaration, hsources, hearlier, hmem, hname, hleast, (id_eq_iff hid hmem).2 hown⟩
  · refine and_congr (exists_congr fun source => and_congr_right fun _ => ?_) (forall₂_congr fun source _ => ?_)
    · constructor
      · rintro ⟨declaration, hmem, hname⟩
        exact ⟨_, _, _, gives_iff.2 ⟨declaration, hmem, rfl, rfl, rfl⟩, hname⟩
      · rintro ⟨name, before, words, hgives, hname⟩
        obtain ⟨declaration, hmem, -, -, rfl⟩ := gives_iff.1 hgives
        exact ⟨declaration, hmem, hname⟩
    · constructor
      · intro h name before words hgives hname
        obtain ⟨declaration, hmem, -, rfl, rfl⟩ := gives_iff.1 hgives
        exact (id_eq_iff hid hmem).1 (h declaration hmem hname)
      · exact fun h declaration hmem hname =>
          (id_eq_iff hid hmem).2 (h _ _ _ (gives_iff.2 ⟨declaration, hmem, rfl, rfl, rfl⟩) hname)

theorem pointsToSymbols_of_agree {sources : List JavaSource} {reported : List TypeElement}
    (h : TypeIdsAgree marked sources reported) : PointsToSymbols marked sources reported := by
  rintro collector hknows element ⟨declared, hdeclared, hname, hlocated⟩
  obtain ⟨id, hid⟩ := (located_iff marked).1 hlocated
  unfold FactCollector.elementId
  cases helement : collector.elementIds.lookup element with
  | some found =>
    obtain ⟨l₁, l₂, hlist, -⟩ := List.lookup_eq_some_iff.1 helement
    exact ⟨found, rfl, hknows.elements (element, found) (hlist ▸ List.mem_append_right _ List.mem_cons_self)⟩
  | none =>
    cases hstaged : collector.stagedDeclarationIds.lookup (elementKey element) with
    | some found =>
      obtain ⟨l₁, l₂, hlist, -⟩ := List.lookup_eq_some_iff.1 hstaged
      exact ⟨found, rfl, hknows.staged (elementKey element, found) (hlist ▸ List.mem_append_right _ List.mem_cons_self)⟩
    | none =>
      refine ⟨id, ?_, declared, hdeclared, hid⟩
      rw [hknows.texts, ← hname, h declared hdeclared id hid]
      rfl

end

/-- **Type ids.** The types that the compiler reports have the ids that the texts give, and the edges to them point to symbols,
exactly if for each one the first words that give its qualified name are those of its declaration. -/
theorem sourceTypeIds_agree_iff (marked : List Char → Char → Bool) (sources : List JavaSource) (reported : List TypeElement) :
    (TypeIdsAgree marked sources reported ∧ PointsToSymbols marked sources reported) ↔
      ∀ element ∈ reported, Located sources element → FirstWordsOwn marked sources element := by
  rw [and_iff_left_of_imp pointsToSymbols_of_agree]
  constructor
  · intro h element helement hlocated
    obtain ⟨id, hid⟩ := (located_iff marked).1 hlocated
    exact (firstWordsOwn_iff hid).1 (h element helement id hid)
  · intro h element helement id hid
    exact (firstWordsOwn_iff hid).2 (h element helement ((located_iff marked).2 ⟨id, hid⟩))

/-! ## A comment -/

/-- A class behind a comment that speaks of it. -/
def shapeSource : JavaSource :=
  ⟨"/w/Shape.java", "app", "Shape.java", some "// class Shape has no corners\nclass Shape {}\n"⟩

def shapeClass : TypeElement := ⟨.class_, "Shape", "Shape", some ⟨"/w/Shape.java", 30, 44⟩, by decide⟩

/-- The id of the class has the offset of its name in the comment. -/
theorem commented_class_mislocated :
    ¬ (TypeIdsAgree (fun _ _ => false) [shapeSource] [shapeClass] ∧ PointsToSymbols (fun _ _ => false) [shapeSource] [shapeClass]) := by
  intro h
  have hid : declarationId (fun _ _ => false) [shapeSource] shapeClass = some "java:app:Shape.java#class:Shape:36" := by decide +kernel
  have hagree := h.1 shapeClass List.mem_cons_self _ hid
  revert hagree
  decide +kernel

end JavaSemanticExtractor

end Kide

