import Mathlib.Data.List.Destutter
import Kide.Artifact.Bytecode
import Kide.Artifact.WorkerPostings
import Kide.Index.DescriptorWrites
import Kide.Workers.Semantic
import Kide.Artifact.ReadBack

/-!
# Symbols across artifacts

`cached_dependency_implementations` (`navigation.rs`) asks the artifacts whose locators have the identity of a
supertype (`artifact_candidates_with_symbol`) for their direct implementations. An identity holds the hash of the
artifact it was minted for, so the identity a class records for its parent is the declared one only inside one
artifact: `symbol_identity_crosses_iff`.
-/

namespace Kide

open Checks Tables Transactions ArtifactProto ArtifactAdapter ArtifactQuery JvmBytecodeExtractor

namespace IndexStore

/-- `ORDER BY artifact_catalog.source_unit_id` -/
def artifactCandidatesWithSymbol (store : IndexStore) (symbol : SymbolId) : List ArtifactDescriptor :=
  ((store.symbolLocators.filter (·.symbolId = symbol)).flatMap fun row =>
    store.artifactCatalog.filter (·.sourceUnit.id = row.sourceUnitId)).insertionSort fun a b => a.sourceUnit.id.le b.sourceUnit.id

end IndexStore

section Query
variable (reader : BlobReader) (openBlob : ArtifactDescriptor → Option ArtifactBlob)

/-- `direct_implementations` of a descriptor; an artifact without a cached blob has none. -/
def candidateImplementations (supertype : SymbolId) (artifact : ArtifactDescriptor) : Except ArtifactQueryError (List SymbolRecord) :=
  match openBlob artifact with
  | none => .ok []
  | some blob => directImplementations reader blob supertype

def cachedDependencyImplementations (store : IndexStore) (supertype : SymbolId) : Except ArtifactQueryError (List SymbolRecord) := do
  let symbols ← (store.artifactCandidatesWithSymbol supertype).mapM (candidateImplementations reader openBlob supertype)
  pure ((symbols.flatten.insertionSort fun a b => a.id.le b.id).destutter fun a b => a.id ≠ b.id)

end Query

/-! ## Classes of different artifacts -/

/-- The catalog lists these artifacts with their locators. -/
structure Catalogued (store : IndexStore) (artifacts : List ResolvedJvmArtifact) : Prop where
  distinct : (artifacts.map ResolvedJvmArtifact.unitId).Nodup
  catalog : store.artifactCatalog = artifacts.map ResolvedJvmArtifact.descriptor
  locators : store.symbolLocators = artifacts.flatMap fun artifact => artifact.descriptor.locatorRows

def Inherits (x y : ClassFile) : Prop := x.superName = some y.name ∨ y.name ∈ x.interfaces

def AnnotatedWith (asm : Asm) (x y : ClassFile) : Prop := ∃ descriptor ∈ x.annotations, asm.internalName descriptor = y.name

section Facts
variable {reader : BlobReader} (writer : BlobWriter reader) (asm : Asm) (text : JsonText)
  (openBlob : ArtifactDescriptor → Option ArtifactBlob) (store : IndexStore)

/-- The cache has the blob the worker writes for the artifact. -/
def BlobCached (artifact : ResolvedJvmArtifact) : Prop :=
  ∃ bytes, ArtifactMaterializer.stage writer asm text artifact = some bytes ∧ openBlob artifact.descriptor = some ⟨bytes⟩

/-- The identity of a class in the facts and among the locators of an artifact. -/
def DeclaredAs (b : ResolvedJvmArtifact) (y : ClassFile) (id : String) : Prop :=
  (∃ symbol ∈ (b.extractArtifact asm text).symbols, symbol.id = id ∧ symbol.qualifiedName = y.name.dotted ∧
    symbol.kind = classKind y.access) ∧
  ⟨y.name.dotted, ⟨id⟩⟩ ∈ b.descriptor.symbolLocators

variable (reader) in
/-- The edge of `x` in the facts of `a` names the identity of `y` in `b`, and the query for it returns `x`. -/
def SupertypeCrosses (a b : ResolvedJvmArtifact) (x y : ClassFile) : Prop :=
  ∃ id, DeclaredAs asm text b y id ∧
    (∃ edge ∈ (a.extractArtifact asm text).hierarchy, edge.subtype = symbolId a.hash x.name ∧ edge.supertype = id) ∧
    ∃ found, cachedDependencyImplementations reader openBlob store ⟨id⟩ = .ok found ∧
      ⟨symbolId a.hash x.name⟩ ∈ found.map SymbolRecord.id

def AnnotationCrosses (a b : ResolvedJvmArtifact) (x y : ClassFile) : Prop :=
  ∃ id, DeclaredAs asm text b y id ∧
    ∃ symbol ∈ (a.extractArtifact asm text).symbols, symbol.id = symbolId a.hash x.name ∧ id ∈ symbol.appliedSymbols

/-- A class entry of the artifact is named as the class, so that the class is among the locators. -/
def Located (b : ResolvedJvmArtifact) (y : ClassFile) : Prop :=
  (∃ entry ∈ classEntries b.artifact, replaceChar '/' '.' (removeSuffix ".class" entry.1) = y.name.dotted) ∧
    y.name.dotted ≠ "" ∧ ¬ "module-info".toList.isSuffixOf y.name.dotted.toList ∧
    ¬ "package-info".toList.isSuffixOf y.name.dotted.toList

end Facts

/-! ## The catalog -/

theorem artifactStatements_catalog {descriptors : List ArtifactDescriptor} {store store' : IndexStore}
    (hdistinct : (store.artifactCatalog.map (·.sourceUnit.id)).Nodup)
    (h : runStatements (descriptors.flatMap IndexStore.artifactStatements) store = .ok store') :
    (store'.artifactCatalog.map (·.sourceUnit.id)).Nodup ∧
      store'.symbolLocators = store.symbolLocators ++ descriptors.flatMap ArtifactDescriptor.locatorRows := by
  induction descriptors generalizing store with
  | nil =>
    cases h
    exact ⟨hdistinct, (List.append_nil _).symm⟩
  | cons descriptor rest ih =>
    rw [List.flatMap_cons, runStatements_append, bind_eq_ok_iff] at h
    obtain ⟨middle, hfirst, hrest⟩ := h
    rw [IndexStore.artifactStatements, runStatements_cons, bind_eq_ok_iff] at hfirst
    obtain ⟨inserted, hinsert, hlocators⟩ := hfirst
    have hrows : runStatements (descriptor.locatorRows.map IndexStore.insertSymbolLocator) inserted = .ok middle := by
      rw [ArtifactDescriptor.locatorRows, List.map_map]
      exact hlocators
    obtain ⟨rfl, -⟩ := insertLocators_run hrows
    unfold IndexStore.insertArtifactDescriptor at hinsert
    cases hrow : insertRow (fun row : ArtifactDescriptor => some row.sourceUnit.id) store.artifactCatalog descriptor with
    | none =>
      rw [hrow] at hinsert
      cases hinsert
    | some catalog =>
      rw [hrow] at hinsert
      cases hinsert
      obtain ⟨hnew, rfl⟩ := (insertRow_eq_some_iff _).1 hrow
      have hfresh : descriptor.sourceUnit.id ∉ store.artifactCatalog.map (·.sourceUnit.id) := by
        intro hmem
        obtain ⟨other, hother, hid⟩ := List.mem_map.1 hmem
        exact hnew _ rfl ((mem_keys _).2 ⟨other, hother, congrArg some hid⟩)
      have hnodup : ((store.artifactCatalog ++ [descriptor]).map (·.sourceUnit.id)).Nodup := by
        rw [List.map_append, List.nodup_append]
        refine ⟨hdistinct, List.nodup_singleton _, ?_⟩
        rintro id hid other hother rfl
        obtain rfl := List.mem_singleton.1 hother
        exact hfresh hid
      obtain ⟨hcatalog, hall⟩ := ih hnodup hrest
      refine ⟨hcatalog, ?_⟩
      rw [hall, List.flatMap_cons, List.append_assoc]

/-- A discovery that succeeds leaves a catalog of the artifacts it found. -/
theorem replaceArtifactDescriptors_catalogued {store : IndexStore} {disk : Disk} {artifacts : List ResolvedJvmArtifact}
    (howned : ∀ row ∈ store.symbolLocators, row.sourceUnitId ∈ store.artifactCatalog.map (·.sourceUnit.id))
    (h : (store.replaceArtifactDescriptors disk (artifacts.map ResolvedJvmArtifact.descriptor)).1 = .ok ()) :
    Catalogued (store.replaceArtifactDescriptors disk (artifacts.map ResolvedJvmArtifact.descriptor)).2 artifacts := by
  have hcatalog := IndexStore.replaceArtifactDescriptors_ok h
  obtain ⟨stored, hinsert, hstore⟩ := IndexStore.replaceArtifactDescriptors_run h
  have hdeleted : store.withoutCatalog.symbolLocators = [] := by
    refine List.filter_eq_nil_iff.2 fun row hrow => ?_
    rw [decide_eq_true_eq, not_not]
    exact howned row hrow
  have hempty : (store.withoutCatalog.artifactCatalog.map (·.sourceUnit.id)).Nodup := List.nodup_nil
  obtain ⟨hdistinct, hlocators⟩ := artifactStatements_catalog hempty hinsert
  rw [hstore] at hcatalog ⊢
  have hstored : stored.artifactCatalog = artifacts.map ResolvedJvmArtifact.descriptor := hcatalog
  refine ⟨?_, hcatalog, ?_⟩
  · have hunits : (artifacts.map ResolvedJvmArtifact.descriptor).map (·.sourceUnit.id) =
        (artifacts.map ResolvedJvmArtifact.unitId).map SourceUnitId.mk := by
      rw [List.map_map, List.map_map]
      rfl
    rw [hstored, hunits] at hdistinct
    exact hdistinct.of_map _
  · show stored.symbolLocators = _
    rw [hlocators, hdeleted, List.nil_append, List.flatMap_map]

/-! ## Identities -/

theorem hexDigest_length (bytes : Bytes) : (JvmBytecodeExtractor.hexDigest bytes).toList.length = 64 := by
  rw [JvmBytecodeExtractor.hexDigest, String.toList_ofList, BlobFile.flatMap_hexByte_length, Sha256.digest_length]

theorem hash_length (a b : ResolvedJvmArtifact) : a.hash.toList.length = b.hash.toList.length := by
  have hlength : ∀ artifact : ResolvedJvmArtifact, artifact.hash.toList.length = "sha256:".toList.length + 64 := by
    intro artifact
    rw [ResolvedJvmArtifact.hash, artifactHash, fingerprint, String.toList_append, List.length_append, hexDigest_length]
  rw [hlength, hlength]

/-- An identity determines the artifact hash and the class name in it. -/
theorem identity_inj {a b : ResolvedJvmArtifact} {m n : String} (h : "jvm:" ++ a.hash ++ ":" ++ m = "jvm:" ++ b.hash ++ ":" ++ n) :
    a.hash = b.hash ∧ m = n := by
  have hlist := congrArg String.toList h
  simp only [String.toList_append] at hlist
  have hlength : ("jvm:".toList ++ a.hash.toList ++ ":".toList).length = ("jvm:".toList ++ b.hash.toList ++ ":".toList).length := by
    simp only [List.length_append, hash_length a b]
  obtain ⟨hstart, hname⟩ := List.append_inj hlist hlength
  have hhash := List.append_cancel_left (List.append_cancel_right hstart)
  exact ⟨String.toList_inj.1 hhash, String.toList_inj.1 hname⟩

theorem dotted_injective : Function.Injective InternalName.dotted := by
  rintro ⟨m, hm⟩ ⟨n, hn⟩ h
  have hlist : m.toList.map (fun c => if c = '/' then '.' else c) = n.toList.map fun c => if c = '/' then '.' else c :=
    String.ofList_injective h
  have hchars : ∀ as bs : List Char, '.' ∉ as → '.' ∉ bs →
      (as.map fun c => if c = '/' then '.' else c) = (bs.map fun c => if c = '/' then '.' else c) → as = bs := by
    intro as
    induction as with
    | nil =>
      intro bs _ _ hmap
      exact (List.map_eq_nil_iff.1 hmap.symm).symm
    | cons a as ih =>
      intro bs ha hb hmap
      cases bs with
      | nil => cases hmap
      | cons b bs =>
        rw [List.map_cons, List.map_cons, List.cons.injEq] at hmap
        rw [List.mem_cons, not_or] at ha hb
        rw [ih bs ha.2 hb.2 hmap.2]
        have hsame : a = b := by
          have hhead := hmap.1
          by_cases hslash : a = '/' <;> by_cases hslash' : b = '/'
          · rw [hslash, hslash']
          · rw [if_pos hslash, if_neg hslash'] at hhead
            exact absurd hhead hb.1
          · rw [if_neg hslash, if_pos hslash'] at hhead
            exact absurd hhead.symm ha.1
          · rwa [if_neg hslash, if_neg hslash'] at hhead
        rw [hsame]
  obtain rfl : m = n := String.toList_inj.1 (hchars _ _ hm hn hlist)
  rfl

theorem symbolId_inj {a b : ResolvedJvmArtifact} {m n : InternalName} (h : symbolId a.hash m = symbolId b.hash n) :
    a.hash = b.hash ∧ m = n :=
  ⟨(identity_inj h).1, dotted_injective (identity_inj h).2⟩

/-! ## What is extracted -/

theorem mem_sortedBy {α : Type} {text : α → String} {values : List α} {a : α} : a ∈ sortedBy text values ↔ a ∈ values :=
  List.mem_insertionSort _

section Extracted
variable {asm : Asm} {text : JsonText} {a b : ResolvedJvmArtifact} {x y : ClassFile}

theorem mem_symbols {symbol : SymbolJson} : symbol ∈ (a.extractArtifact asm text).symbols ↔
    ∃ file ∈ a.classFiles asm, symbol ∈ file.symbols asm text (a.classContext file) := by
  rw [ResolvedJvmArtifact.extractArtifact, mem_sortedBy, List.mem_dedup, List.mem_flatMap]

theorem mem_hierarchy {edge : HierarchyJson} : edge ∈ (a.extractArtifact asm text).hierarchy ↔
    ∃ file ∈ a.classFiles asm, edge ∈ file.hierarchy (a.classContext file) := by
  rw [ResolvedJvmArtifact.extractArtifact, mem_sortedBy, List.mem_dedup, List.mem_flatMap]

theorem classSymbol_mem (hx : x ∈ a.classFiles asm) :
    x.classSymbol asm (a.classContext x) ∈ (a.extractArtifact asm text).symbols :=
  mem_symbols.2 ⟨x, hx, mem_sortedBy.2 (List.mem_append_right _ List.mem_cons_self)⟩

/-- Three kinds of symbols: the kind says which, and a class alone applies others. -/
theorem symbol_cases {file : ClassFile} {context : ClassContext} {symbol : SymbolJson} (h : symbol ∈ file.symbols asm text context) :
    symbol.freshness = "fresh" ∧ symbol.completeness = "partial" ∧
      (symbol.kind ∈ ["field", "constructor", "method"] ∧ symbol.appliedSymbols = [] ∨ symbol = file.classSymbol asm context) := by
  rw [ClassFile.symbols, mem_sortedBy, List.mem_append, List.mem_append] at h
  rcases h with (h | h) | h
  · obtain ⟨field, -, rfl⟩ := List.mem_map.1 h
    exact ⟨rfl, rfl, .inl ⟨List.mem_cons_self, rfl⟩⟩
  · obtain ⟨method, -, rfl⟩ := List.mem_map.1 h
    refine ⟨rfl, rfl, .inl ⟨?_, rfl⟩⟩
    by_cases hconstructor : method.name = "<init>"
    · simp [ClassFile.methodSymbol, ClassFile.symbol, hconstructor]
    · simp [ClassFile.methodSymbol, ClassFile.symbol, hconstructor]
  · obtain rfl := List.mem_singleton.1 h
    exact ⟨rfl, rfl, .inr rfl⟩

theorem mem_file_hierarchy {file : ClassFile} {context : ClassContext} {edge : HierarchyJson} : edge ∈ file.hierarchy context ↔
    ∃ parent, (file.superName = some parent ∨ parent ∈ file.interfaces) ∧ parent.text ≠ "java/lang/Object" ∧
      edge = ⟨file.classId context, symbolId context.artifactHash parent, "exact", provenance context.artifactHash⟩ := by
  rw [ClassFile.hierarchy, List.mem_map]
  refine exists_congr fun parent => ?_
  rw [ClassFile.parents, mem_sortedBy, List.mem_filter, List.mem_append, Option.mem_toList, decide_eq_true_eq, and_assoc,
    @eq_comm _ _ edge]

theorem mem_annotationTargets {file : ClassFile} {context : ClassContext} {id : String} :
    id ∈ (file.classSymbol asm context).appliedSymbols ↔
      ∃ descriptor ∈ file.annotations, id = symbolId context.artifactHash (asm.internalName descriptor) := by
  show id ∈ sortedBy _ _ ↔ _
  rw [mem_sortedBy, ClassFile.annotationTargets, List.mem_map]
  exact exists_congr fun descriptor => and_congr_right fun _ => eq_comm

theorem mem_locators {name : String} {id : SymbolId} : ⟨name, id⟩ ∈ b.descriptor.symbolLocators ↔
    name ∈ b.locatorNames ∧ id = ⟨"jvm:" ++ b.hash ++ ":" ++ name⟩ := by
  rw [ResolvedJvmArtifact.descriptor, List.mem_map]
  constructor
  · rintro ⟨found, hfound, hlocator⟩
    obtain ⟨rfl, rfl⟩ := SymbolLocator.mk.inj hlocator
    exact ⟨hfound, rfl⟩
  · rintro ⟨hname, rfl⟩
    exact ⟨name, hname, rfl⟩

theorem located_iff : Located b y ↔ y.name.dotted ∈ b.locatorNames := by
  rw [Located, ResolvedJvmArtifact.locatorNames, mem_sortedBy, List.mem_dedup, List.mem_filter, List.mem_map, decide_eq_true_eq]

/-- A located class is declared under the identity with the hash of its artifact, and no other class is. -/
theorem declaredAs_iff (hy : y ∈ b.classFiles asm) {id : String} : DeclaredAs asm text b y id ↔ id = symbolId b.hash y.name ∧ Located b y := by
  rw [located_iff, DeclaredAs, mem_locators]
  constructor
  · rintro ⟨-, hname, hid⟩
    exact ⟨congrArg SymbolId.asStr hid, hname⟩
  · rintro ⟨rfl, hname⟩
    exact ⟨⟨_, classSymbol_mem hy, rfl, rfl, rfl⟩, hname, rfl⟩

end Extracted

/-! ## The blob of an artifact -/

section Blob
variable {asm : Asm} {text : JsonText} {a : ResolvedJvmArtifact}

/-- The graph the worker materializes. -/
def extractedGraph (asm : Asm) (text : JsonText) (a : ResolvedJvmArtifact) : GraphArtifact :=
  ArtifactMaterializer.graph (ProtobufAnalysisSnapshotAdapter.snapshot (a.extractArtifact asm text))

theorem mem_localIds {id : String} : id ∈ localIds (extractedGraph asm text a) ↔
    ∃ symbol ∈ (a.extractArtifact asm text).symbols, symbol.id = id := by
  have hsymbols : (extractedGraph asm text a).symbols = ((a.extractArtifact asm text).symbols.map
      (ProtobufAnalysisSnapshotAdapter.symbol (ProtobufAnalysisSnapshotAdapter.provenanceValues (a.extractArtifact asm text)))).map
        ArtifactMaterializer.artifactSymbol := List.flatMap_singleton GraphSnapshot.symbols _
  rw [localIds, hsymbols, List.map_map, List.map_map, List.mem_map]
  rfl

theorem inlineEdge_iff {subtype supertype : String} : InlineEdge (extractedGraph asm text a) subtype supertype ↔
    ∃ edge ∈ (a.extractArtifact asm text).hierarchy, edge.subtype = subtype ∧ edge.supertype = supertype := by
  have hedges : edges (extractedGraph asm text a) = ((a.extractArtifact asm text).hierarchy.map
      (ProtobufAnalysisSnapshotAdapter.hierarchy (ProtobufAnalysisSnapshotAdapter.provenanceValues (a.extractArtifact asm text)))).map
        ArtifactMaterializer.artifactHierarchy := List.flatMap_singleton GraphSnapshot.hierarchy _
  rw [InlineEdge, hedges]
  simp only [List.mem_map, exists_exists_and_eq_and]
  rfl

theorem symbolKind_known {file : ClassFile} {context : ClassContext} {symbol : SymbolJson}
    (h : symbol ∈ file.symbols asm text context) : ∃ kind, WorkerAdapter.symbolKind symbol.kind = .ok kind := by
  obtain ⟨-, -, ⟨hkind, -⟩ | rfl⟩ := symbol_cases h
  · simp only [List.mem_cons, List.not_mem_nil, or_false] at hkind
    rcases hkind with hkind | hkind | hkind <;> rw [hkind] <;> exact ⟨_, rfl⟩
  · show ∃ kind, WorkerAdapter.symbolKind (classKind file.access) = .ok kind
    unfold classKind
    split_ifs <;> exact ⟨_, rfl⟩

/-- Every extracted symbol is read back from the graph. -/
theorem extracted_decodes : ∀ snapshot ∈ (extractedGraph asm text a).snapshots, ∀ symbol ∈ snapshot.symbols,
    ∃ record, DecodedFrom (localIds (extractedGraph asm text a)) snapshot symbol record := by
  intro snapshot hsnapshot symbol hsymbol
  obtain rfl := List.mem_singleton.1 hsnapshot
  obtain ⟨message, hmessage, rfl⟩ := List.mem_map.1 hsymbol
  obtain ⟨value, hvalue, rfl⟩ := List.mem_map.1 hmessage
  obtain ⟨file, -, hfile⟩ := mem_symbols.1 hvalue
  obtain ⟨hfresh, hpartial, -⟩ := symbol_cases hfile
  let values := ProtobufAnalysisSnapshotAdapter.provenanceValues (a.extractArtifact asm text)
  have hmem : value.provenance ∈ values :=
    Interns.mem_internAll.2 (.inr (List.mem_append_left _ (List.mem_map_of_mem hvalue)))
  have hindex : values[values.idxOf value.provenance]? = some value.provenance :=
    List.getElem?_eq_some_iff.2 ⟨List.idxOf_lt_length_of_mem hmem, List.getElem_idxOf _⟩
  have hprovenance : ((values.map WorkerAdapter.protoProvenance).map ArtifactAdapter.provenance)[values.idxOf value.provenance]? =
      some (ArtifactAdapter.provenance (WorkerAdapter.protoProvenance value.provenance)) := by
    rw [List.getElem?_map, List.getElem?_map, hindex]
    rfl
  obtain ⟨record, hrecord⟩ : ∃ record, WorkerAdapter.decodeSymbolDeclaration
      (decodeSymbol (ArtifactMaterializer.artifactSymbol (ProtobufAnalysisSnapshotAdapter.symbol values value)) 0
        (localIds (extractedGraph asm text a)))
      (a.descriptor.sourceUnit) (WorkerAdapter.provenance (decodeProvenance
        (ArtifactAdapter.provenance (WorkerAdapter.protoProvenance value.provenance)))) = .ok record := by
    refine WorkerAdapter.decodeSymbolDeclaration_ok_iff.2 ⟨⟨_, rfl⟩, ⟨_, rfl⟩, symbolKind_known hfile, ?_, ?_⟩
    · exact ⟨.fresh, by rw [show (decodeSymbol _ 0 _).freshness = value.freshness from rfl, hfresh]; rfl⟩
    · exact ⟨.partially, by rw [show (decodeSymbol _ 0 _).completeness = value.completeness from rfl, hpartial]; rfl⟩
  exact ⟨record, _, a.descriptor.sourceUnit, 0, _, rfl, rfl, rfl, hprovenance, hrecord⟩

/-- The query on the blob of an artifact returns the classes that have an edge to the supertype. -/
theorem staged_implementations {reader : BlobReader} {writer : BlobWriter reader} {bytes : Bytes}
    (h : ArtifactMaterializer.stage writer asm text a = some bytes) (supertype : String) :
    ∃ found, directImplementations reader ⟨bytes⟩ ⟨supertype⟩ = .ok found ∧ ∀ id, id ∈ found.map SymbolRecord.id ↔
      (∃ symbol ∈ (a.extractArtifact asm text).symbols, symbol.id = id.asStr) ∧
        ∃ edge ∈ (a.extractArtifact asm text).hierarchy, edge.subtype = id.asStr ∧ edge.supertype = supertype := by
  obtain ⟨found, hfound, hids⟩ := worker_posted h extracted_decodes ⟨supertype⟩
  refine ⟨found, hfound, fun id => ?_⟩
  rw [hids]
  exact and_congr mem_localIds inlineEdge_iff

end Blob

/-! ## The query -/

theorem mem_destutter_ne {α : Type} [DecidableEq α] {l : List α} {c : α} : c ∈ l.destutter (· ≠ ·) ↔ c ∈ l := by
  have hmem : ∀ (l : List α) (b : α), c ∈ l.destutter' (· ≠ ·) b ↔ c ∈ b :: l := by
    intro l
    induction l with
    | nil => exact fun b => Iff.rfl
    | cons a l ih =>
      intro b
      by_cases hne : b ≠ a
      · rw [List.destutter'_cons_pos _ hne, List.mem_cons, ih, ← List.mem_cons]
      · rw [List.destutter'_cons_neg _ hne, ih, not_not.1 hne, List.mem_cons, List.mem_cons, List.mem_cons]
        tauto
  cases l with
  | nil => rfl
  | cons b l => rw [List.destutter_cons', hmem]

section Query
variable {reader : BlobReader} {writer : BlobWriter reader} {asm : Asm} {text : JsonText}
  {openBlob : ArtifactDescriptor → Option ArtifactBlob} {store : IndexStore} {artifacts : List ResolvedJvmArtifact}
  (hcatalog : Catalogued store artifacts)
include hcatalog

/-- The catalog lists an artifact once. -/
theorem Catalogued.eq_of_hash {a b : ResolvedJvmArtifact} (ha : a ∈ artifacts) (hb : b ∈ artifacts) (h : a.hash = b.hash) : a = b := by
  refine List.inj_on_of_nodup_map hcatalog.distinct ha hb ?_
  rw [ResolvedJvmArtifact.unitId, ResolvedJvmArtifact.unitId, h]

theorem Catalogued.mem_candidates {symbol : SymbolId} {descriptor : ArtifactDescriptor} :
    descriptor ∈ store.artifactCandidatesWithSymbol symbol ↔
      ∃ a ∈ artifacts, descriptor = a.descriptor ∧ ∃ name, ⟨name, symbol⟩ ∈ a.descriptor.symbolLocators := by
  rw [IndexStore.artifactCandidatesWithSymbol, List.mem_insertionSort, List.mem_flatMap]
  simp only [List.mem_filter, decide_eq_true_eq]
  rw [hcatalog.catalog, hcatalog.locators]
  constructor
  · rintro ⟨row, ⟨hrow, rfl⟩, hdescriptor, hunit⟩
    obtain ⟨a, ha, hrow⟩ := List.mem_flatMap.1 hrow
    obtain ⟨b, hb, rfl⟩ := List.mem_map.1 hdescriptor
    rw [locatorRows_unit hrow] at hunit
    obtain rfl : b = a := List.inj_on_of_nodup_map hcatalog.distinct hb ha (congrArg SourceUnitId.asStr hunit)
    obtain ⟨locator, hlocator, rfl⟩ := List.mem_map.1 hrow
    exact ⟨b, hb, rfl, locator.qualifiedName, hlocator⟩
  · rintro ⟨a, ha, rfl, name, hlocator⟩
    exact ⟨⟨a.descriptor.sourceUnit.id, name, symbol⟩, ⟨List.mem_flatMap.2 ⟨a, ha, List.mem_map.2 ⟨_, hlocator, rfl⟩⟩, rfl⟩,
      List.mem_map_of_mem ha, rfl⟩

/-- Asked for an identity that an artifact declares, the query looks at this artifact alone. -/
theorem Catalogued.query_returns {a : ResolvedJvmArtifact} (ha : a ∈ artifacts) (hcached : BlobCached writer asm text openBlob a)
    {name : InternalName} (hlocated : name.dotted ∈ a.locatorNames) :
    ∃ found, cachedDependencyImplementations reader openBlob store ⟨symbolId a.hash name⟩ = .ok found ∧
      ∀ id, id ∈ found.map SymbolRecord.id ↔ (∃ symbol ∈ (a.extractArtifact asm text).symbols, symbol.id = id.asStr) ∧
        ∃ edge ∈ (a.extractArtifact asm text).hierarchy, edge.subtype = id.asStr ∧ edge.supertype = symbolId a.hash name := by
  obtain ⟨bytes, hstage, hblob⟩ := hcached
  obtain ⟨direct, hdirect, hids⟩ := staged_implementations hstage (symbolId a.hash name)
  have hcandidates : ∀ descriptor ∈ store.artifactCandidatesWithSymbol ⟨symbolId a.hash name⟩,
      candidateImplementations reader openBlob ⟨symbolId a.hash name⟩ descriptor = .ok direct := by
    intro descriptor hdescriptor
    obtain ⟨b, hb, rfl, found, hlocator⟩ := hcatalog.mem_candidates.1 hdescriptor
    have hid := congrArg SymbolId.asStr (mem_locators.1 hlocator).2
    obtain rfl := hcatalog.eq_of_hash ha hb (identity_inj hid).1
    rw [candidateImplementations, hblob]
    exact hdirect
  have hmapM : (store.artifactCandidatesWithSymbol ⟨symbolId a.hash name⟩).mapM
      (candidateImplementations reader openBlob ⟨symbolId a.hash name⟩) =
        .ok ((store.artifactCandidatesWithSymbol ⟨symbolId a.hash name⟩).map fun _ => direct) :=
    mapM_eq_ok_map_iff.2 hcandidates
  have hown : a.descriptor ∈ store.artifactCandidatesWithSymbol ⟨symbolId a.hash name⟩ :=
    hcatalog.mem_candidates.2 ⟨a, ha, rfl, name.dotted, mem_locators.2 ⟨hlocated, rfl⟩⟩
  refine ⟨_, by rw [cachedDependencyImplementations, hmapM]; rfl, fun id => ?_⟩
  have hmap : ∀ l : List SymbolRecord, (l.destutter fun a b => a.id ≠ b.id).map SymbolRecord.id =
      (l.map SymbolRecord.id).destutter (· ≠ ·) := fun l => List.map_destutter fun _ _ _ _ => Iff.rfl
  rw [← hids, hmap, mem_destutter_ne, List.mem_map, List.mem_map]
  simp only [List.mem_insertionSort, List.mem_flatten, List.mem_map]
  constructor
  · rintro ⟨record, ⟨_, ⟨_, -, rfl⟩, hrecord⟩, hid⟩
    exact ⟨record, hrecord, hid⟩
  · rintro ⟨record, hrecord, hid⟩
    exact ⟨record, ⟨direct, ⟨_, hown, rfl⟩, hrecord⟩, hid⟩

end Query

/-! ## Where identities cross -/

theorem SupertypeCrosses.same {reader : BlobReader} {asm : Asm} {text : JsonText} {openBlob : ArtifactDescriptor → Option ArtifactBlob}
    {store : IndexStore} {a b : ResolvedJvmArtifact} {x y : ClassFile} (hy : y ∈ b.classFiles asm)
    (h : SupertypeCrosses reader asm text openBlob store a b x y) :
    a.hash = b.hash ∧ Located b y ∧ y.name.text ≠ "java/lang/Object" := by
  obtain ⟨id, hdeclared, ⟨edge, hedge, -, hsupertype⟩, -⟩ := h
  obtain ⟨rfl, hlocated⟩ := (declaredAs_iff hy).1 hdeclared
  obtain ⟨file, -, hfile⟩ := mem_hierarchy.1 hedge
  obtain ⟨parent, -, hparent, rfl⟩ := mem_file_hierarchy.1 hfile
  obtain ⟨hhash, rfl⟩ := @symbolId_inj a b _ _ hsupertype
  exact ⟨hhash, hlocated, hparent⟩

/-- **Identity across artifacts.** The identity recorded for a parent or an annotation is the declared one, and the
query finds the implementation, if and only if both classes are of one artifact, a class entry is named as the parent
or annotation, and the parent is not `java.lang.Object`. -/
theorem symbol_identity_crosses_iff {reader : BlobReader} (writer : BlobWriter reader) (asm : Asm) (text : JsonText)
    (openBlob : ArtifactDescriptor → Option ArtifactBlob) (store : IndexStore) (artifacts : List ResolvedJvmArtifact)
    (hcatalog : Catalogued store artifacts) {a b : ResolvedJvmArtifact} (ha : a ∈ artifacts) (hb : b ∈ artifacts)
    (hcached : ∀ artifact ∈ [a, b], BlobCached writer asm text openBlob artifact) {x y : ClassFile}
    (hx : x ∈ a.classFiles asm) (hy : y ∈ b.classFiles asm) :
    (Inherits x y → (SupertypeCrosses reader asm text openBlob store a b x y ↔
      a = b ∧ Located b y ∧ y.name.text ≠ "java/lang/Object")) ∧
    (AnnotatedWith asm x y → (AnnotationCrosses asm text a b x y ↔ a = b ∧ Located b y)) := by
  constructor
  · intro hinherits
    constructor
    · intro hcrosses
      obtain ⟨hhash, hlocated, hobject⟩ := hcrosses.same hy
      exact ⟨hcatalog.eq_of_hash ha hb hhash, hlocated, hobject⟩
    · rintro ⟨rfl, hlocated, hobject⟩
      have hedge : ⟨symbolId a.hash x.name, symbolId a.hash y.name, "exact", provenance a.hash⟩ ∈
          (a.extractArtifact asm text).hierarchy :=
        mem_hierarchy.2 ⟨x, hx, mem_file_hierarchy.2 ⟨y.name, hinherits, hobject, rfl⟩⟩
      obtain ⟨found, hfound, hids⟩ := hcatalog.query_returns ha (hcached a List.mem_cons_self) (located_iff.1 hlocated)
      exact ⟨_, (declaredAs_iff hy).2 ⟨rfl, hlocated⟩, ⟨_, hedge, rfl, rfl⟩, found, hfound,
        (hids _).2 ⟨⟨_, classSymbol_mem hx, rfl⟩, _, hedge, rfl, rfl⟩⟩
  · rintro ⟨descriptor, hdescriptor, hname⟩
    constructor
    · rintro ⟨id, hdeclared, symbol, hsymbol, -, happlied⟩
      obtain ⟨rfl, hlocated⟩ := (declaredAs_iff hy).1 hdeclared
      obtain ⟨file, -, hfile⟩ := mem_symbols.1 hsymbol
      obtain ⟨-, -, ⟨-, hnone⟩ | rfl⟩ := symbol_cases hfile
      · rw [hnone] at happlied
        cases happlied
      · obtain ⟨found, -, hid⟩ := mem_annotationTargets.1 happlied
        exact ⟨(hcatalog.eq_of_hash hb ha (@symbolId_inj b a _ _ hid).1).symm, hlocated⟩
    · rintro ⟨rfl, hlocated⟩
      exact ⟨_, (declaredAs_iff hy).2 ⟨rfl, hlocated⟩, _, classSymbol_mem hx, rfl,
        mem_annotationTargets.2 ⟨descriptor, hdescriptor, by rw [hname]; rfl⟩⟩

/-! ## A library and a client -/

namespace CrossArtifact

/-- The JSON texts where no character needs an escape. -/
def plainText : JsonText :=
  let text (value : String) := "\"" ++ value ++ "\""
  let optional (value : Option String) := (value.map text).getD "null"
  let array (values : List String) := "[" ++ ",".intercalate (values.map text) ++ "]"
  let object (members : List (String × String)) :=
    "\x7b" ++ ",".intercalate (members.map fun member => text member.1 ++ ":" ++ member.2) ++ "\x7d"
  let provenance (value : Provenance) := object
    [("backend", text value.backend), ("backend_version", text value.backendVersion),
      ("protocol_version", toString value.protocolVersion), ("analysis_options", text value.analysisOptions.asStr)]
  let range (value : SourceRange) := object
    [("source_unit", text value.sourceUnit.asStr),
      ("bytes", object [("start", toString value.bytes.start), ("end", toString value.bytes.stop)])]
  { symbol := fun value => object
      [("id", text value.id),
        ("backend_key", object
          [("backend", text value.provenance.backend), ("schema_version", toString value.schemaVersion), ("value", text value.id)]),
        ("language", text value.language), ("kind", text value.kind), ("name", text value.name),
        ("qualified_name", text value.qualifiedName), ("signature", optional value.signature), ("component", text value.component),
        ("declaration", range value.range), ("name_range", range value.range), ("owner", optional value.owner),
        ("modifiers", array value.modifiers), ("applied_symbols", array value.appliedSymbols), ("freshness", text value.freshness),
        ("completeness", text value.completeness), ("provenance", provenance value.provenance)]
    hierarchy := fun value => object
      [("subtype", text value.subtype), ("supertype", text value.supertype), ("precision", text value.precision),
        ("provenance", provenance value.provenance)] }

def internalName (text : String) : InternalName :=
  ⟨String.ofList (text.toList.filter (· ≠ '.')), by simp⟩

/-- `public class A` -/
def baseBytes : Bytes :=
  [0xca, 0xfe, 0xba, 0xbe, 0, 0, 0, 0x34, 0, 5, 7, 0, 2, 1, 0, 1, 0x41, 7, 0, 4, 1, 0, 16] ++ utf8 "java/lang/Object" ++
    [0, 0x21, 0, 1, 0, 3, 0, 0, 0, 0, 0, 0, 0, 0]

/-- `public class B extends A`, and the same with another letter for `B`. -/
def childBytes (letter : UInt8) : Bytes :=
  [0xca, 0xfe, 0xba, 0xbe, 0, 0, 0, 0x34, 0, 5, 7, 0, 2, 1, 0, 1, letter, 7, 0, 4, 1, 0, 1, 0x41, 0, 0x21, 0, 1, 0, 3, 0, 0, 0, 0,
    0, 0, 0, 0]

def classFile (name superName : String) : ClassFile := ⟨0x21, internalName name, none, some (internalName superName), [], [], [], []⟩

/-- ASM on these three classes. -/
def asm : Asm where
  classFile bytes :=
    if bytes = childBytes 0x42 then classFile "B" "A"
    else if bytes = childBytes 0x43 then classFile "C" "A"
    else classFile "A" "java/lang/Object"
  internalName descriptor := internalName (String.ofList (descriptor.toList.drop 1).dropLast)
  className descriptor := String.ofList ((descriptor.toList.drop 1).dropLast.map fun c => if c = '/' then '.' else c)

/-- `A` and `B`. -/
def library : ResolvedJvmArtifact :=
  ⟨.directory [("A.class", baseBytes), ("B.class", childBytes 0x42)], "library", "sha256:context", "unknown", none, none⟩

/-- `C`. -/
def client : ResolvedJvmArtifact := ⟨.directory [("C.class", childBytes 0x43)], "client", "sha256:context", "unknown", none, none⟩

def libraryHash : String := "sha256:b1449af219781a0730ac6af0d5432a445407e4824197fa97298b5abeba002c10"

def clientHash : String := "sha256:b370b44248513735a1f2068b4eee6b1cd74464f7633d522ec8066f390d950515"

theorem hashes : library.hash = libraryHash ∧ client.hash = clientHash := by
  constructor
  · decide +kernel
  · decide +kernel

/-- The graph of an artifact of public classes whose last one extends `A`. -/
def childGraph (hash component : String) (names : List String) (child : String) : GraphArtifact :=
  let symbol (name : String) : ArtifactSymbol :=
    ⟨"jvm:" ++ hash ++ ":" ++ name, "jvm:" ++ hash ++ ":" ++ name, 1, "java", "class", name, some name, none, some ⟨0, 0⟩, some ⟨0, 0⟩,
      none, ["public"], [], "fresh", "partial", component, some 1, none⟩
  let provenance (options : String) : ArtifactProvenance := ⟨"kide-kotlin-jvm", "0.1.0", 3, options⟩
  ⟨[{ sourceUnit := some ⟨"jvm:" ++ hash, component, ".kide/dependencies/" ++ removePrefix "sha256:" hash, "java", "dependency", hash,
        "sha256:context"⟩
      structuralFingerprint := none
      publicApiFingerprint := none
      provenances := [provenance "sha256:context", provenance hash]
      symbols := names.map symbol
      occurrences := []
      references := []
      calls := []
      hierarchy := [⟨"jvm:" ++ hash ++ ":" ++ child, "jvm:" ++ hash ++ ":A", "exact", some 1, none, none⟩]
      types := []
      diagnostics := []
      completeness := "partial"
      provenanceIndex := some 0 }]⟩

variable (text : JsonText)

def librarySymbol (name : String) : SymbolJson :=
  (classFile name "").classSymbol asm ⟨library.unitId, library.hash, "library", "java"⟩

/-- The order is that of the texts. -/
theorem library_symbols : (library.extractArtifact asm text).symbols = [librarySymbol "A", librarySymbol "B"] ∨
    (library.extractArtifact asm text).symbols = [librarySymbol "B", librarySymbol "A"] := by
  have hclasses : ((library.classFiles asm).flatMap fun file => file.symbols asm text (library.classContext file)) =
      [librarySymbol "A", librarySymbol "B"] := rfl
  have hdistinct : [librarySymbol "A", librarySymbol "B"].Nodup := by
    refine List.nodup_cons.2 ⟨fun h => ?_, List.nodup_singleton _⟩
    have hname := congrArg SymbolJson.name (List.mem_singleton.1 h)
    revert hname
    decide
  rw [ResolvedJvmArtifact.extractArtifact, hclasses, hdistinct.dedup, sortedBy, List.insertionSort_cons, List.insertionSort_cons,
    List.insertionSort_nil, List.orderedInsert_nil, List.orderedInsert_cons, List.orderedInsert_nil]
  by_cases hle : codeUnitsLe (text.symbol (librarySymbol "A")) (text.symbol (librarySymbol "B"))
  · exact .inl (if_pos hle)
  · exact .inr (if_neg hle)

theorem library_hierarchy : (library.extractArtifact asm text).hierarchy =
    [⟨symbolId library.hash (internalName "B"), symbolId library.hash (internalName "A"), "exact", provenance library.hash⟩] := by
  have hedges : ((library.classFiles asm).flatMap fun file => file.hierarchy (library.classContext file)) =
      [⟨symbolId library.hash (internalName "B"), symbolId library.hash (internalName "A"), "exact", provenance library.hash⟩] := rfl
  rw [ResolvedJvmArtifact.extractArtifact, hedges, (List.nodup_singleton _).dedup]
  rfl

theorem library_graph : extractedGraph asm text library = childGraph library.hash "library" ["A", "B"] "B" ∨
    extractedGraph asm text library = childGraph library.hash "library" ["B", "A"] "B" := by
  have hfacts : ∀ symbols, (library.extractArtifact asm text).symbols = symbols → library.extractArtifact asm text =
      ⟨library.sourceUnit, symbols,
        [⟨symbolId library.hash (internalName "B"), symbolId library.hash (internalName "A"), "exact", provenance library.hash⟩],
        "partial", provenance "sha256:context"⟩ := by
    rintro symbols rfl
    rw [← library_hierarchy text]
    have heta : ∀ value : SnapshotJson, value =
        ⟨value.sourceUnit, value.symbols, value.hierarchy, value.completeness, value.provenance⟩ := fun _ => rfl
    exact heta _
  unfold extractedGraph
  refine (library_symbols text).imp (fun hsymbols => ?_) fun hsymbols => ?_
  · rw [hfacts _ hsymbols]
    simp only [librarySymbol, ResolvedJvmArtifact.sourceUnit, ResolvedJvmArtifact.unitId, hashes.1]
    rfl
  · rw [hfacts _ hsymbols]
    simp only [librarySymbol, ResolvedJvmArtifact.sourceUnit, ResolvedJvmArtifact.unitId, hashes.1]
    rfl

theorem client_graph : extractedGraph asm text client = childGraph client.hash "client" ["C"] "C" := by
  have hfacts : client.extractArtifact asm text = ⟨client.sourceUnit,
      [(classFile "C" "A").classSymbol asm ⟨client.unitId, client.hash, "client", "java"⟩],
      [⟨symbolId client.hash (internalName "C"), symbolId client.hash (internalName "A"), "exact", provenance client.hash⟩],
      "partial", provenance "sha256:context"⟩ := rfl
  rw [extractedGraph, hfacts]
  simp only [ResolvedJvmArtifact.sourceUnit, ResolvedJvmArtifact.unitId, hashes.2]
  rfl

open ArtifactLayout in
/-- The table settles in two rounds, and the blob is small. -/
def Small (graph : GraphArtifact) : Prop :=
  let sections := JvmArtifactBlobLayout.sections wireWriter graph
  encodedLen ((nextToc wireReader.sha256 sections)^[3] emptyToc) = encodedLen ((nextToc wireReader.sha256 sections)^[2] emptyToc) ∧
    graph.snapshots.length ≤ JvmArtifactBlobLayout.INT_MAX ∧ graph.symbols.length ≤ JvmArtifactBlobLayout.INT_MAX ∧
    (blobBytes ((nextToc wireReader.sha256 sections)^[3] emptyToc) sections).length ≤ JvmArtifactBlobLayout.INT_MAX

instance (graph : GraphArtifact) : Decidable (Small graph) := instDecidableAnd

theorem Small.encodes {graph : GraphArtifact} (h : Small graph) :
    ∃ bytes, JvmArtifactBlobLayout.encode ArtifactLayout.wireWriter graph = some bytes :=
  ⟨_, ArtifactLayout.jvm_encode_eq_of_toc (ArtifactLayout.stableToc_eq_iterate _ h.1) h.2⟩

theorem small_library {names : List String} (h : names = ["A", "B"] ∨ names = ["B", "A"]) :
    Small (childGraph libraryHash "library" names "B") := by
  rcases h with rfl | rfl
  · decide +kernel
  · decide +kernel

theorem small_client : Small (childGraph clientHash "client" ["C"] "C") := by decide +kernel

theorem library_staged : ∃ bytes, ArtifactMaterializer.stage ArtifactLayout.wireWriter asm text library = some bytes := by
  have hsmall : Small (extractedGraph asm text library) := by
    rcases library_graph text with hgraph | hgraph
    · rw [hgraph, hashes.1]
      exact small_library (.inl rfl)
    · rw [hgraph, hashes.1]
      exact small_library (.inr rfl)
  exact hsmall.encodes

theorem client_staged : ∃ bytes, ArtifactMaterializer.stage ArtifactLayout.wireWriter asm text client = some bytes := by
  have hsmall : Small (extractedGraph asm text client) := by
    rw [client_graph, hashes.2]
    exact small_client
  exact hsmall.encodes

/-- A cache with both blobs. -/
def openBlob (descriptor : ArtifactDescriptor) : Option ArtifactBlob :=
  (ArtifactMaterializer.stage ArtifactLayout.wireWriter asm plainText
    (if descriptor.sourceUnit.component = ⟨"library"⟩ then library else client)).map ArtifactBlob.mk

def store : IndexStore where
  artifactCatalog := [library, client].map ResolvedJvmArtifact.descriptor
  symbolLocators := [library, client].flatMap fun artifact => artifact.descriptor.locatorRows

theorem store_catalogued : Catalogued store [library, client] := by
  refine ⟨List.nodup_cons.2 ⟨fun h => ?_, List.nodup_singleton _⟩, rfl, rfl⟩
  have hunit := List.mem_singleton.1 h
  rw [ResolvedJvmArtifact.unitId, ResolvedJvmArtifact.unitId, hashes.1, hashes.2] at hunit
  revert hunit
  decide

theorem blobs_cached : ∀ artifact ∈ [library, client], BlobCached ArtifactLayout.wireWriter asm plainText openBlob artifact := by
  intro artifact hartifact
  rcases List.mem_cons.1 hartifact with rfl | hartifact
  · obtain ⟨bytes, hbytes⟩ := library_staged plainText
    exact ⟨bytes, hbytes, (congrArg (Option.map ArtifactBlob.mk) hbytes :)⟩
  · obtain rfl := List.mem_singleton.1 hartifact
    obtain ⟨bytes, hbytes⟩ := client_staged plainText
    exact ⟨bytes, hbytes, (congrArg (Option.map ArtifactBlob.mk) hbytes :)⟩

theorem base_mem : classFile "A" "java/lang/Object" ∈ library.classFiles asm := List.mem_cons_self

theorem library_child_found :
    SupertypeCrosses ArtifactLayout.wireReader asm plainText openBlob store library library (classFile "B" "A")
      (classFile "A" "java/lang/Object") := by
  have hchild : classFile "B" "A" ∈ library.classFiles asm := List.mem_cons_of_mem _ List.mem_cons_self
  have hcached : ∀ artifact ∈ [library, library], BlobCached ArtifactLayout.wireWriter asm plainText openBlob artifact := by
    intro artifact hartifact
    simp only [List.mem_cons, List.not_mem_nil, or_false, or_self] at hartifact
    exact blobs_cached artifact (hartifact ▸ List.mem_cons_self)
  have hlocated : Located library (classFile "A" "java/lang/Object") := by
    refine ⟨⟨_, List.mem_cons_self, ?_⟩, ?_⟩
    · decide
    · decide
  exact ((symbol_identity_crosses_iff ArtifactLayout.wireWriter asm plainText openBlob store [library, client] store_catalogued
    List.mem_cons_self List.mem_cons_self hcached hchild base_mem).1 (.inl rfl)).2 ⟨rfl, hlocated, by decide⟩

theorem client_child_lost :
    ¬ ∀ (reader : BlobReader) (writer : BlobWriter reader) (asm : Asm) (text : JsonText)
      (openBlob : ArtifactDescriptor → Option ArtifactBlob) (store : IndexStore) (artifacts : List ResolvedJvmArtifact),
      Catalogued store artifacts → ∀ a ∈ artifacts, ∀ b ∈ artifacts,
      (∀ artifact ∈ [a, b], BlobCached writer asm text openBlob artifact) →
      ∀ x ∈ a.classFiles asm, ∀ y ∈ b.classFiles asm,
        (Inherits x y → SupertypeCrosses reader asm text openBlob store a b x y) ∧
        (AnnotatedWith asm x y → AnnotationCrosses asm text a b x y) := by
  intro h
  have hchild : classFile "C" "A" ∈ client.classFiles asm := List.mem_cons_self
  have hcached : ∀ artifact ∈ [client, library], BlobCached ArtifactLayout.wireWriter asm plainText openBlob artifact := by
    intro artifact hartifact
    refine blobs_cached artifact ?_
    simp only [List.mem_cons, List.not_mem_nil, or_false] at hartifact ⊢
    exact hartifact.symm
  have hcrosses := (h ArtifactLayout.wireReader ArtifactLayout.wireWriter asm plainText openBlob store [library, client]
    store_catalogued client (List.mem_cons_of_mem _ List.mem_cons_self) library List.mem_cons_self hcached _ hchild _ base_mem).1
      (.inl rfl)
  have hhash := (hcrosses.same base_mem).1
  rw [hashes.1, hashes.2] at hhash
  revert hhash
  decide

end CrossArtifact

end Kide
