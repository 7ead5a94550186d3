import Kide.Query.StoredSymbols
import Mathlib.Data.List.Pairwise

/-!
# Selectors

`selector.rs`: a conjunction of predicates over declaration facts, of which one relation must be indexed. The postings of
the least supertype, or where there is none of the least applied symbol, give the candidates; the rest are filters.

The filters take every candidate for a subtype and the postings may name a symbol twice. `select_conjunction_iff`: the
answer is the conjunction exactly where the other supertypes add nothing and one unit stores each edge.
-/

namespace Kide
open Tables

/-! ## The selector -/

inductive LanguageView where
  | kotlinClass | javaClass
deriving DecidableEq, Repr

inductive SelectorPredicate where
  | kind (kind : SymbolKind)
  | appliedSymbol (symbol : SymbolId)
  | subtypeOf (symbol : SymbolId)
  | qualifiedNamePrefix (start : String)
  | language (language : Language)
  | component (component : ComponentId)
  | backend (backend : String)
deriving DecidableEq, Repr

structure Selector where
  views : List LanguageView
  predicates : List SelectorPredicate
deriving DecidableEq, Repr

inductive SelectorPlan where
  | appliedSymbolPosting (appliedSymbol : SymbolId)
  | hierarchyPosting (supertypeSymbol : SymbolId)
deriving DecidableEq, Repr

inductive SelectorState where
  | complete | partially | noResult
deriving DecidableEq, Repr

structure SelectorResult where
  state : SelectorState
  plan : SelectorPlan
  symbols : List SymbolRecord
deriving DecidableEq

inductive SelectorError where
  | unbounded
deriving DecidableEq, Repr

namespace IndexStore

def symbolsWithAppliedSymbol (store : IndexStore) (applied : SymbolId) : List SymbolRecord :=
  (orderSymbols ((store.annotationEdges.filter (·.annotationSymbolId = applied)).flatMap fun edge =>
    store.symbols.filter (·.symbolId = edge.symbolId))).filterMap store.joinSymbol

end IndexStore

/-- The predicates a view is compiled to. -/
def LanguageView.predicates : LanguageView → List SelectorPredicate
  | .kotlinClass => [.language .kotlin, .kind .class_]
  | .javaClass => [.language .java, .kind .class_]

def normalizedPredicates (selector : Selector) : List SelectorPredicate :=
  selector.predicates ++ selector.views.flatMap (·.predicates)

/-- Of a supertype nothing is asked here: its posting supplies the candidates. -/
def SelectorPredicate.matches (symbol : SymbolRecord) : SelectorPredicate → Bool
  | .kind expected => symbol.kind = expected
  | .appliedSymbol applied => applied ∈ symbol.appliedSymbols
  | .subtypeOf _ => true
  | .qualifiedNamePrefix start => symbol.qualifiedName.any fun name => start.toList.isPrefixOf name.toList
  | .language expected => symbol.language = expected
  | .component expected => symbol.component = expected
  | .backend expected => symbol.provenance.backend = expected

def SelectorPredicate.supertype : SelectorPredicate → Option SymbolId
  | .subtypeOf symbol => some symbol
  | _ => none

def SelectorPredicate.applied : SelectorPredicate → Option SymbolId
  | .appliedSymbol symbol => some symbol
  | _ => none

/-- `min_by` on the text of the ids -/
def leastSymbol (symbols : List SymbolId) : Option SymbolId := (symbols.insertionSort SymbolId.le).head?

def selectorState (symbols : List SymbolRecord) : SelectorState :=
  if symbols = [] then .noResult
  else if ∀ symbol ∈ symbols, symbol.freshness = .fresh ∧ symbol.completeness = .complete then .complete
  else .partially

/-- The candidates of the starting relation. -/
def startingSet (store : IndexStore) (predicates : List SelectorPredicate) : Option (SelectorPlan × List SymbolRecord) :=
  match leastSymbol (predicates.filterMap (·.supertype)) with
  | some supertype =>
    some (.hierarchyPosting supertype, (store.implementationsOf supertype).filterMap fun edge => store.symbol edge.subtype)
  | none =>
    match leastSymbol (predicates.filterMap (·.applied)) with
    | some applied => some (.appliedSymbolPosting applied, store.symbolsWithAppliedSymbol applied)
    | none => none

def select (store : IndexStore) (selector : Selector) : Except SelectorError SelectorResult :=
  let predicates := normalizedPredicates selector
  match startingSet store predicates with
  | none => .error .unbounded
  | some (plan, candidates) =>
    let symbols := candidates.filter fun symbol => predicates.all (·.matches symbol)
    .ok ⟨selectorState symbols, plan, symbols⟩

/-! ## The conjunction -/

namespace IndexStore
variable (store : IndexStore)

/-- The unit stores that the one is a subtype of the other. -/
def SubtypeIn (sourceUnit : SourceUnitId) (subtype supertype : SymbolId) : Prop :=
  ∃ row ∈ store.hierarchyEdges, row.sourceUnitId = sourceUnit ∧ row.subtypeSymbolId = subtype ∧ row.supertypeSymbolId = supertype

def Subtype (subtype supertype : SymbolId) : Prop := ∃ sourceUnit, store.SubtypeIn sourceUnit subtype supertype

end IndexStore

/-- What a predicate says of a stored symbol. -/
def SelectorPredicate.Holds (store : IndexStore) (symbol : SymbolRecord) : SelectorPredicate → Prop
  | .kind expected => symbol.kind = expected
  | .appliedSymbol applied => applied ∈ symbol.appliedSymbols
  | .subtypeOf supertype => store.Subtype symbol.id supertype
  | .qualifiedNamePrefix start => ∃ name, symbol.qualifiedName = some name ∧ start.toList <+: name.toList
  | .language expected => symbol.language = expected
  | .component expected => symbol.component = expected
  | .backend expected => symbol.provenance.backend = expected

def LanguageView.Holds (symbol : SymbolRecord) : LanguageView → Prop
  | .kotlinClass => symbol.language = .kotlin ∧ symbol.kind = .class_
  | .javaClass => symbol.language = .java ∧ symbol.kind = .class_

/-- Every predicate and every view holds of the symbol. -/
def Selector.Selects (selector : Selector) (store : IndexStore) (symbol : SymbolRecord) : Prop :=
  (∀ predicate ∈ selector.predicates, predicate.Holds store symbol) ∧ ∀ view ∈ selector.views, view.Holds symbol

/-- So do those that are no supertypes. -/
def Selector.Filters (selector : Selector) (store : IndexStore) (symbol : SymbolRecord) : Prop :=
  (∀ predicate ∈ selector.predicates, predicate.supertype = none → predicate.Holds store symbol) ∧
    ∀ view ∈ selector.views, view.Holds symbol

/-- Exactly the stored symbols of the conjunction, each once. -/
def Selector.Exact (selector : Selector) (store : IndexStore) (symbols : List SymbolRecord) : Prop :=
  (∀ symbol, symbol ∈ symbols ↔ store.Stores symbol ∧ selector.Selects store symbol) ∧ symbols.Nodup

/-- A stored symbol that passes the filters and is a subtype of the least supertype is one of every supertype, and one
unit says so. -/
def Selector.LeastSuffices (selector : Selector) (store : IndexStore) : Prop :=
  ∀ least, .subtypeOf least ∈ selector.predicates → (∀ other, .subtypeOf other ∈ selector.predicates → least.le other) →
    ∀ symbol, store.Stores symbol → selector.Filters store symbol → store.Subtype symbol.id least →
      (∀ other, .subtypeOf other ∈ selector.predicates → store.Subtype symbol.id other) ∧
        ∀ first second, store.SubtypeIn first symbol.id least → store.SubtypeIn second symbol.id least → first = second

/-- A supertype or an applied symbol is among the predicates. -/
def Selector.Bounded (selector : Selector) : Prop :=
  ∃ predicate ∈ selector.predicates, predicate.supertype ≠ none ∨ predicate.applied ≠ none

/-! ## Filters -/

theorem SelectorPredicate.matches_iff {store : IndexStore} {symbol : SymbolRecord} {predicate : SelectorPredicate}
    (h : predicate.supertype = none) : predicate.matches symbol = true ↔ predicate.Holds store symbol := by
  cases predicate with
  | subtypeOf supertype => cases h
  | qualifiedNamePrefix start =>
    unfold SelectorPredicate.matches SelectorPredicate.Holds
    cases symbol.qualifiedName with
    | none => simp
    | some name => simp [List.isPrefixOf_iff_prefix]
  | _ => exact decide_eq_true_iff

theorem SelectorPredicate.matches_of_supertype {symbol : SymbolRecord} {predicate : SelectorPredicate}
    (h : predicate.supertype ≠ none) : predicate.matches symbol = true := by
  cases predicate with
  | subtypeOf supertype => rfl
  | _ => exact absurd rfl h

theorem LanguageView.matches_iff {symbol : SymbolRecord} (view : LanguageView) :
    (∀ predicate ∈ view.predicates, predicate.matches symbol = true) ↔ view.Holds symbol := by
  cases view <;> simp [LanguageView.predicates, LanguageView.Holds, SelectorPredicate.matches]

theorem all_matches_iff (store : IndexStore) (selector : Selector) {symbol : SymbolRecord} :
    (normalizedPredicates selector).all (·.matches symbol) = true ↔ selector.Filters store symbol := by
  rw [List.all_eq_true, normalizedPredicates, List.forall_mem_append, Selector.Filters]
  refine and_congr ?_ ?_
  · constructor
    · intro h predicate hmem hnone
      exact (SelectorPredicate.matches_iff hnone).1 (h predicate hmem)
    · intro h predicate hmem
      by_cases hnone : predicate.supertype = none
      · exact (SelectorPredicate.matches_iff hnone).2 (h predicate hmem hnone)
      · exact SelectorPredicate.matches_of_supertype hnone
  · simp only [List.mem_flatMap, forall_exists_index, and_imp]
    constructor
    · exact fun h view hview => view.matches_iff.1 fun predicate hmem => h predicate view hview hmem
    · exact fun h predicate view hview hmem => view.matches_iff.2 (h view hview) predicate hmem

/-! ## The starting relation -/

theorem leastSymbol_eq_none_iff {symbols : List SymbolId} : leastSymbol symbols = none ↔ symbols = [] := by
  rw [leastSymbol, List.head?_eq_none_iff]
  constructor
  · intro h
    exact List.length_eq_zero_iff.1 (by rw [← List.length_insertionSort SymbolId.le, h, List.length_nil])
  · rintro rfl
    rfl

theorem leastSymbol_spec {symbols : List SymbolId} {least : SymbolId} (h : leastSymbol symbols = some least) :
    least ∈ symbols ∧ ∀ other ∈ symbols, least.le other := by
  have hsorted := pairwise_sortedSymbols symbols
  unfold leastSymbol at h
  refine ⟨(List.mem_insertionSort _).1 (List.mem_of_head? h), fun other hother => ?_⟩
  have hmem := (List.mem_insertionSort SymbolId.le).2 hother
  cases hrows : symbols.insertionSort SymbolId.le with
  | nil =>
    rw [hrows] at h
    cases h
  | cons first rest =>
    rw [hrows] at h hsorted hmem
    cases h
    rcases List.mem_cons.1 hmem with rfl | hrest
    · exact String.le_refl _
    · exact (List.pairwise_cons.1 hsorted).1 other hrest

theorem leastSymbol_perm {symbols others : List SymbolId} (h : others.Perm symbols) :
    leastSymbol others = leastSymbol symbols := by
  rw [leastSymbol, leastSymbol, sortedSymbols_perm h]

theorem mem_supertypes {predicates : List SelectorPredicate} {symbol : SymbolId} :
    symbol ∈ predicates.filterMap (·.supertype) ↔ .subtypeOf symbol ∈ predicates := by
  rw [List.mem_filterMap]
  constructor
  · rintro ⟨predicate, hmem, hsupertype⟩
    cases predicate with
    | subtypeOf supertype => exact Option.some.inj hsupertype ▸ hmem
    | _ => cases hsupertype
  · exact fun hmem => ⟨_, hmem, rfl⟩

theorem mem_annotations {predicates : List SelectorPredicate} {symbol : SymbolId} :
    symbol ∈ predicates.filterMap (·.applied) ↔ .appliedSymbol symbol ∈ predicates := by
  rw [List.mem_filterMap]
  constructor
  · rintro ⟨predicate, hmem, hposting⟩
    cases predicate with
    | appliedSymbol applied => exact Option.some.inj hposting ▸ hmem
    | _ => cases hposting
  · exact fun hmem => ⟨_, hmem, rfl⟩

/-- A view asks for no relation. -/
theorem normalized_filterMap (selector : Selector) {relation : SelectorPredicate → Option SymbolId}
    (h : ∀ view : LanguageView, ∀ predicate ∈ view.predicates, relation predicate = none) :
    (normalizedPredicates selector).filterMap relation = selector.predicates.filterMap relation := by
  have hviews : (selector.views.flatMap (·.predicates)).filterMap relation = [] := by
    rw [List.filterMap_eq_nil_iff]
    intro predicate hmem
    obtain ⟨view, -, hview⟩ := List.mem_flatMap.1 hmem
    exact h view predicate hview
  rw [normalizedPredicates, List.filterMap_append, hviews, List.append_nil]

theorem view_no_relation (view : LanguageView) : ∀ predicate ∈ view.predicates,
    predicate.supertype = none ∧ predicate.applied = none := by
  cases view <;> simp [LanguageView.predicates, SelectorPredicate.supertype, SelectorPredicate.applied]

theorem normalized_supertypes (selector : Selector) :
    (normalizedPredicates selector).filterMap (·.supertype) = selector.predicates.filterMap (·.supertype) :=
  normalized_filterMap selector fun view predicate hmem => (view_no_relation view predicate hmem).1

theorem normalized_annotations (selector : Selector) :
    (normalizedPredicates selector).filterMap (·.applied) = selector.predicates.filterMap (·.applied) :=
  normalized_filterMap selector fun view predicate hmem => (view_no_relation view predicate hmem).2

/-! ## Candidates -/

section
variable {store : IndexStore} {live : List FileAnalysisSnapshot}

theorem Holds.mem_annotationEdges (h : Holds store live) {row : AnnotationEdgeRow} :
    row ∈ store.annotationEdges ↔ ∃ snapshot ∈ live, ∃ symbol ∈ snapshot.symbols, ∃ applied ∈ symbol.appliedSymbols,
      ⟨snapshot.id, symbol.id, applied⟩ = row := by
  rw [IndexStore.annotationEdges, h.table, List.mem_flatMap]
  simp only [rows_inAnnotationEdges, List.mem_flatMap, SymbolRecord.annotationRows, List.mem_map]
  rfl

theorem Holds.annotationEdges_nodup (h : Holds store live) : store.annotationEdges.Nodup := by
  refine h.unique.nodup_filterMap FactRow.key fun row other r hrow hother => ?_
  cases row <;> cases hrow
  cases other <;> cases hother
  exact ⟨rfl, fun hnone => by cases hnone⟩

theorem Holds.hierarchyEdges_nodup (h : Holds store live) : store.hierarchyEdges.Nodup := by
  refine h.unique.nodup_filterMap FactRow.key fun row other r hrow hother => ?_
  cases row <;> cases hrow
  cases other <;> cases hother
  exact ⟨rfl, fun hnone => by cases hnone⟩

/-- The symbol rows of the applied's posting. -/
theorem Holds.mem_annotated (h : Holds store live) {applied : SymbolId} {snapshot : FileAnalysisSnapshot}
    (hs : snapshot ∈ live) {symbol : SymbolRecord} (hsymbol : symbol ∈ snapshot.symbols) :
    (symbol.row snapshot.sourceUnit ∈ (store.annotationEdges.filter (·.annotationSymbolId = applied)).flatMap fun edge =>
      store.symbols.filter (·.symbolId = edge.symbolId)) ↔ applied ∈ symbol.appliedSymbols := by
  have hrow := h.mem_symbols_iff.2 ⟨snapshot, hs, symbol, hsymbol, rfl⟩
  simp only [List.mem_flatMap, List.mem_filter, decide_eq_true_eq]
  constructor
  · rintro ⟨edge, ⟨hedge, rfl⟩, -, hid⟩
    obtain ⟨owner, howner, other, hother, applied, hposting, rfl⟩ := h.mem_annotationEdges.1 hedge
    have hsame := h.symbolRow_unique howner hother hrow hid
    have happlied : symbol.appliedSymbols = other.appliedSymbols :=
      congrArg (fun row => row.recordBlob.appliedSymbols) hsame
    exact happlied ▸ hposting
  · intro happlied
    exact ⟨_, ⟨h.mem_annotationEdges.2 ⟨snapshot, hs, symbol, hsymbol, applied, happlied, rfl⟩, rfl⟩, hrow, rfl⟩

theorem Holds.mem_symbolsWithAppliedSymbol (h : Holds store live) {applied : SymbolId} {record : SymbolRecord} :
    record ∈ store.symbolsWithAppliedSymbol applied ↔ store.Stores record ∧ applied ∈ record.appliedSymbols := by
  unfold IndexStore.symbolsWithAppliedSymbol
  rw [h.mem_joined fun row hrow => ?_, h.stores_iff]
  · constructor
    · rintro ⟨snapshot, hs, symbol, hsymbol, hrow, rfl⟩
      exact ⟨⟨snapshot, hs, symbol, hsymbol, rfl⟩,
        (h.mem_annotated hs hsymbol).1 ((IndexStore.orderSymbols_perm _).mem_iff.1 hrow)⟩
    · rintro ⟨⟨snapshot, hs, symbol, hsymbol, rfl⟩, happlied⟩
      exact ⟨snapshot, hs, symbol, hsymbol,
        (IndexStore.orderSymbols_perm _).mem_iff.2 ((h.mem_annotated hs hsymbol).2 happlied), rfl⟩
  · obtain ⟨edge, -, hedge⟩ := List.mem_flatMap.1 ((IndexStore.orderSymbols_perm _).mem_iff.1 hrow)
    exact (List.mem_filter.1 hedge).1

/-- One unit declares a symbol and stores its annotations, so no symbol is in a posting twice. -/
theorem Holds.symbolsWithAppliedSymbol_nodup (h : Holds store live) (applied : SymbolId) :
    (store.symbolsWithAppliedSymbol applied).Nodup := by
  refine h.joined_nodup (fun row hrow => ?_) ((IndexStore.orderSymbols_perm _).nodup_iff.2 ?_)
  · obtain ⟨edge, -, hedge⟩ := List.mem_flatMap.1 ((IndexStore.orderSymbols_perm _).mem_iff.1 hrow)
    exact (List.mem_filter.1 hedge).1
  · refine List.nodup_flatMap.2 ⟨fun edge _ => h.symbols_nodup.filter _, ?_⟩
    refine ((h.annotationEdges_nodup).filter _).imp_of_mem fun {edge other} hedge hother hne row hrow hrow' => hne ?_
    obtain ⟨hedge, hposting⟩ := List.mem_filter.1 hedge
    obtain ⟨hother, hposting'⟩ := List.mem_filter.1 hother
    have hid : edge.symbolId = row.symbolId := (of_decide_eq_true (List.mem_filter.1 hrow).2).symm
    have hid' : other.symbolId = row.symbolId := (of_decide_eq_true (List.mem_filter.1 hrow').2).symm
    obtain ⟨first, hfirst, symbol, hsymbol, _, -, rfl⟩ := h.mem_annotationEdges.1 hedge
    obtain ⟨second, hsecond, symbol', hsymbol', _, -, rfl⟩ := h.mem_annotationEdges.1 hother
    have hrow₁ := h.symbolRow_unique hfirst hsymbol (List.mem_filter.1 hrow).1 hid.symm
    have hrow₂ := h.symbolRow_unique hsecond hsymbol' (List.mem_filter.1 hrow').1 hid'.symm
    have hunit : first.id = second.id := congrArg SymbolRow.sourceUnitId (hrow₁.symm.trans hrow₂)
    have hannotations := (of_decide_eq_true hposting).trans (of_decide_eq_true hposting').symm
    exact AnnotationEdgeRow.mk.injEq _ _ _ _ _ _ ▸ ⟨hunit, hid.trans hid'.symm, hannotations⟩

/-- Rows of one unit for one subtype and supertype are one row. -/
theorem Holds.hierarchyRow_unique (h : Holds store live) {row other : HierarchyEdgeRow} (hrow : row ∈ store.hierarchyEdges)
    (hother : other ∈ store.hierarchyEdges) (hunit : row.sourceUnitId = other.sourceUnitId)
    (hsubtype : row.subtypeSymbolId = other.subtypeSymbolId) (hsupertype : row.supertypeSymbolId = other.supertypeSymbolId) :
    row = other := by
  obtain ⟨fact, hfact, hrow⟩ := List.mem_filterMap.1 hrow
  obtain ⟨fact', hfact', hother⟩ := List.mem_filterMap.1 hother
  cases fact <;> cases hrow
  cases fact' <;> cases hother
  have hkey : FactRow.key (.hierarchyEdges row) =
      some (.hierarchyEdges other.sourceUnitId other.subtypeSymbolId other.supertypeSymbolId) := by
    rw [← hunit, ← hsubtype, ← hsupertype]
    rfl
  exact FactRow.hierarchyEdges.inj (h.unique.eq_of_key_eq FactRow.key hfact hfact' hkey rfl)

theorem Holds.recordJson_subtype (h : Holds store live) {row : HierarchyEdgeRow} (hrow : row ∈ store.hierarchyEdges) :
    row.recordJson.subtype = row.subtypeSymbolId := by
  obtain ⟨snapshot, -, edge, -, rfl⟩ := h.mem_hierarchyEdges.1 hrow
  rfl

/-- The candidates of a supertype's posting that pass a filter. -/
theorem Holds.mem_subtypes (h : Holds store live) {supertype : SymbolId} {p : SymbolRecord → Bool} {record : SymbolRecord} :
    record ∈ ((store.implementationsOf supertype).filterMap fun edge => store.symbol edge.subtype).filter p ↔
      store.Stores record ∧ store.Subtype record.id supertype ∧ p record = true := by
  unfold IndexStore.implementationsOf
  simp only [List.mem_filter, List.mem_filterMap, List.mem_map, mem_orderByUnitThen, decide_eq_true_eq,
    IndexStore.symbol_eq_some_iff]
  constructor
  · rintro ⟨⟨_, ⟨row, ⟨hrow, hsupertype⟩, rfl⟩, hstored, hid⟩, hp⟩
    exact ⟨hstored, ⟨row.sourceUnitId, row, hrow, rfl, by rw [hid, h.recordJson_subtype hrow], hsupertype⟩, hp⟩
  · rintro ⟨hstored, ⟨_, row, hrow, -, hsubtype, hsupertype⟩, hp⟩
    exact ⟨⟨_, ⟨row, ⟨hrow, hsupertype⟩, rfl⟩, hstored, by rw [h.recordJson_subtype hrow, hsubtype]⟩, hp⟩

/-- No candidate stands twice exactly if one unit stores its edge. -/
theorem Holds.subtypes_nodup_iff (h : Holds store live) {supertype : SymbolId} {p : SymbolRecord → Bool} :
    (((store.implementationsOf supertype).filterMap fun edge => store.symbol edge.subtype).filter p).Nodup ↔
      ∀ record, store.Stores record → p record = true → ∀ first second, store.SubtypeIn first record.id supertype →
        store.SubtypeIn second record.id supertype → first = second := by
  have hfound : ∀ (row : HierarchyEdgeRow) (record : SymbolRecord),
      ((store.symbol row.recordJson.subtype).filter p = some record ↔
        store.Stores record ∧ record.id = row.recordJson.subtype ∧ p record = true) := by
    intro row record
    rw [Option.filter_eq_some_iff, IndexStore.symbol_eq_some_iff, and_assoc]
  unfold IndexStore.implementationsOf
  rw [List.filterMap_map, List.filter_filterMap, List.Nodup, List.pairwise_filterMap]
  simp only [Function.comp_def, hfound]
  have hsymm : Std.Symm fun row other : HierarchyEdgeRow => ∀ record, store.Stores record ∧
      record.id = row.recordJson.subtype ∧ p record = true → ∀ record', store.Stores record' ∧
        record'.id = other.recordJson.subtype ∧ p record' = true → record ≠ record' :=
    ⟨fun row other h record hrecord record' hrecord' => (h record' hrecord' record hrecord).symm⟩
  have hmem : ∀ {row}, row ∈ orderByUnitThen (·.sourceUnitId)
      (fun a b : HierarchyEdgeRow => a.subtypeSymbolId.asStr ≤ b.subtypeSymbolId.asStr)
      (store.hierarchyEdges.filter (·.supertypeSymbolId = supertype)) ↔
        row ∈ store.hierarchyEdges ∧ row.supertypeSymbolId = supertype := by
    intro row
    rw [mem_orderByUnitThen, List.mem_filter, decide_eq_true_eq]
  constructor
  · rintro hpairwise record hstored hp _ _ ⟨row, hrow, rfl, hsubtype, hsupertype⟩ ⟨other, hother, rfl, hsubtype', hsupertype'⟩
    by_contra hunits
    refine hpairwise.forall (hmem.2 ⟨hrow, hsupertype⟩) (hmem.2 ⟨hother, hsupertype'⟩) (fun heq => hunits (heq ▸ rfl))
      record ⟨hstored, ?_, hp⟩ record ⟨hstored, ?_, hp⟩ rfl
    · rw [h.recordJson_subtype hrow, hsubtype]
    · rw [h.recordJson_subtype hother, hsubtype']
  · intro hunique
    have hnodup := (List.perm_insertionSort (fun a b : HierarchyEdgeRow => a.sourceUnitId.asStr < b.sourceUnitId.asStr ∨
      (a.sourceUnitId = b.sourceUnitId ∧ a.subtypeSymbolId.asStr ≤ b.subtypeSymbolId.asStr)) _).nodup_iff.2
        (h.hierarchyEdges_nodup.filter (·.supertypeSymbolId = supertype))
    refine List.Pairwise.imp_of_mem (fun {row other} hrow hother hne record hrecord record' hrecord' heq => hne ?_) hnodup
    obtain ⟨hrow, hsupertype⟩ := hmem.1 hrow
    obtain ⟨hother, hsupertype'⟩ := hmem.1 hother
    obtain ⟨hstored, hid, hp⟩ := hrecord
    have hsubtype : row.subtypeSymbolId = record.id := by rw [hid, h.recordJson_subtype hrow]
    have hsubtype' : other.subtypeSymbolId = record.id := by rw [heq, hrecord'.2.1, h.recordJson_subtype hother]
    exact h.hierarchyRow_unique hrow hother (hunique record hstored hp _ _ ⟨row, hrow, rfl, hsubtype, hsupertype⟩
      ⟨other, hother, rfl, hsubtype', hsupertype'⟩) (hsubtype.trans hsubtype'.symm) (hsupertype.trans hsupertype'.symm)

end

/-! ## The answer -/

theorem Selector.selects_iff {selector : Selector} {store : IndexStore} {symbol : SymbolRecord} :
    selector.Selects store symbol ↔ selector.Filters store symbol ∧
      ∀ supertype, .subtypeOf supertype ∈ selector.predicates → store.Subtype symbol.id supertype := by
  constructor
  · exact fun h => ⟨⟨fun predicate hmem _ => h.1 predicate hmem, h.2⟩, fun supertype hmem => h.1 _ hmem⟩
  · rintro ⟨hfilters, hsupertypes⟩
    refine ⟨fun predicate hmem => ?_, hfilters.2⟩
    by_cases hnone : predicate.supertype = none
    · exact hfilters.1 predicate hmem hnone
    · obtain ⟨supertype, hsome⟩ := Option.ne_none_iff_exists'.1 hnone
      have hsubtype : predicate = .subtypeOf supertype := by
        cases predicate with
        | subtypeOf other => exact congrArg SelectorPredicate.subtypeOf (Option.some.inj hsome)
        | _ => cases hsome
      subst hsubtype
      exact hsupertypes supertype hmem

/-- The order of predicates and views plays no part. -/
theorem select_perm (store : IndexStore) {selector other : Selector} (hpredicates : other.predicates.Perm selector.predicates)
    (hviews : other.views.Perm selector.views) : select store other = select store selector := by
  have hnormalized : (normalizedPredicates other).Perm (normalizedPredicates selector) :=
    hpredicates.append (hviews.flatMap_right _)
  have hstart : startingSet store (normalizedPredicates other) = startingSet store (normalizedPredicates selector) := by
    unfold startingSet
    rw [leastSymbol_perm (hnormalized.filterMap _), leastSymbol_perm (hnormalized.filterMap _)]
  have hall : ∀ symbol : SymbolRecord, (normalizedPredicates other).all (·.matches symbol) =
      (normalizedPredicates selector).all (·.matches symbol) := fun symbol => hnormalized.all_eq
  unfold select
  simp only [hstart, hall]

theorem select_of_start {store : IndexStore} {selector : Selector} {plan : SelectorPlan} {candidates : List SymbolRecord}
    (h : startingSet store (normalizedPredicates selector) = some (plan, candidates)) :
    select store selector =
      .ok ⟨selectorState (candidates.filter fun symbol => (normalizedPredicates selector).all (·.matches symbol)), plan,
        candidates.filter fun symbol => (normalizedPredicates selector).all (·.matches symbol)⟩ := by
  rw [select, h]

section
variable {store : IndexStore} {live : List FileAnalysisSnapshot} {selector : Selector}

/-- From a supertype's posting the answer is the conjunction if that supertype suffices. -/
theorem Holds.subtypes_exact_iff (h : Holds store live) {least : SymbolId} (hmem : .subtypeOf least ∈ selector.predicates)
    (hleast : ∀ other, .subtypeOf other ∈ selector.predicates → least.le other) :
    selector.Exact store (((store.implementationsOf least).filterMap fun edge => store.symbol edge.subtype).filter
      fun symbol => (normalizedPredicates selector).all (·.matches symbol)) ↔ selector.LeastSuffices store := by
  unfold Selector.Exact
  simp only [h.mem_subtypes, h.subtypes_nodup_iff, all_matches_iff store selector, Selector.selects_iff]
  constructor
  · rintro ⟨hexact, hunique⟩ other hother hleast' symbol hstored hfilters hsubtype
    obtain rfl : other = least := SymbolId.eq_of_le (hleast' _ hmem) (hleast _ hother)
    exact ⟨((hexact symbol).1 ⟨hstored, hsubtype, hfilters⟩).2.2, hunique symbol hstored hfilters⟩
  · intro hsuffices
    refine ⟨fun symbol => ⟨?_, ?_⟩, fun symbol hstored hfilters first second hfirst hsecond => ?_⟩
    · rintro ⟨hstored, hsubtype, hfilters⟩
      exact ⟨hstored, hfilters, (hsuffices least hmem hleast symbol hstored hfilters hsubtype).1⟩
    · rintro ⟨hstored, hfilters, hsupertypes⟩
      exact ⟨hstored, hsupertypes least hmem, hfilters⟩
    · exact (hsuffices least hmem hleast symbol hstored hfilters ⟨first, hfirst⟩).2 first second hfirst hsecond

/-- From an applied's posting it always is. -/
theorem Holds.annotated_exact (h : Holds store live) {applied : SymbolId}
    (hmem : .appliedSymbol applied ∈ selector.predicates) (hnone : ∀ other, .subtypeOf other ∉ selector.predicates) :
    selector.Exact store ((store.symbolsWithAppliedSymbol applied).filter
      fun symbol => (normalizedPredicates selector).all (·.matches symbol)) := by
  refine ⟨fun symbol => ?_, (h.symbolsWithAppliedSymbol_nodup applied).filter _⟩
  rw [List.mem_filter, h.mem_symbolsWithAppliedSymbol, all_matches_iff store selector, Selector.selects_iff]
  constructor
  · rintro ⟨⟨hstored, -⟩, hfilters⟩
    exact ⟨hstored, hfilters, fun other hother => absurd hother (hnone other)⟩
  · rintro ⟨hstored, hfilters, -⟩
    exact ⟨⟨hstored, hfilters.1 _ hmem rfl⟩, hfilters⟩

/-- **Selectors.** A bounded selector is answered, in whatever order its predicates stand, and the answer is the
conjunction exactly if the least supertype suffices. -/
theorem select_conjunction_iff (h : Holds store live) (hbounded : selector.Bounded) :
    ∃ result, select store selector = .ok result ∧
      (selector.Exact store result.symbols ↔ selector.LeastSuffices store) ∧
      ∀ other : Selector, other.predicates.Perm selector.predicates → other.views.Perm selector.views →
        select store other = .ok result := by
  cases hsupertype : leastSymbol (selector.predicates.filterMap (·.supertype)) with
  | some least =>
    obtain ⟨hmem, hleast⟩ := leastSymbol_spec hsupertype
    have hstart : startingSet store (normalizedPredicates selector) = some (.hierarchyPosting least,
        (store.implementationsOf least).filterMap fun edge => store.symbol edge.subtype) := by
      rw [startingSet, normalized_supertypes, hsupertype]
    refine ⟨_, select_of_start hstart, ?_, fun other hpredicates hviews =>
      (select_perm store hpredicates hviews).trans (select_of_start hstart)⟩
    exact h.subtypes_exact_iff (mem_supertypes.1 hmem) fun other hother => hleast other (mem_supertypes.2 hother)
  | none =>
    have hnone : ∀ other, .subtypeOf other ∉ selector.predicates := by
      intro other hother
      have hmem := mem_supertypes.2 hother
      rw [leastSymbol_eq_none_iff.1 hsupertype] at hmem
      cases hmem
    cases hposting : leastSymbol (selector.predicates.filterMap (·.applied)) with
    | none =>
      obtain ⟨predicate, hmem, hrelation⟩ := hbounded
      cases predicate with
      | subtypeOf other => exact absurd hmem (hnone other)
      | appliedSymbol applied =>
        have hannotated := mem_annotations.2 hmem
        rw [leastSymbol_eq_none_iff.1 hposting] at hannotated
        cases hannotated
      | _ => exact (hrelation.elim (fun h => h rfl) fun h => h rfl).elim
    | some applied =>
      have hstart : startingSet store (normalizedPredicates selector) =
          some (.appliedSymbolPosting applied, store.symbolsWithAppliedSymbol applied) := by
        rw [startingSet, normalized_supertypes, hsupertype]
        dsimp only
        rw [normalized_annotations, hposting]
      refine ⟨_, select_of_start hstart, ?_, fun other hpredicates hviews =>
        (select_perm store hpredicates hviews).trans (select_of_start hstart)⟩
      refine iff_of_true (h.annotated_exact (mem_annotations.1 (leastSymbol_spec hposting).1) hnone) ?_
      exact fun least hmem => absurd hmem (hnone least)

end

/-! ## Two supertypes -/

/-- `Derived` extends `Base`, and nothing extends `Other`. -/
def derivedFiles : List FileAnalysisSnapshot := [baseUnit, derivedUnit ["Derived"]]

def derivedStore : IndexStore := { facts := derivedFiles.flatMap (·.rows) }

theorem derivedStore_holds : Holds derivedStore derivedFiles := ⟨rfl, by decide⟩

def baseAndOther : Selector := ⟨[], [.subtypeOf ⟨"Base"⟩, .subtypeOf ⟨"Other"⟩]⟩

theorem second_supertype_ignored :
    ¬ ∀ (store : IndexStore) (live : List FileAnalysisSnapshot), Holds store live → ∀ selector : Selector, selector.Bounded →
      ∃ result, select store selector = .ok result ∧ selector.Exact store result.symbols ∧
        ∀ other : Selector, other.predicates.Perm selector.predicates → other.views.Perm selector.views →
          select store other = .ok result := by
  intro h
  obtain ⟨result, hrun, hexact, -⟩ := h _ _ derivedStore_holds baseAndOther ⟨.subtypeOf ⟨"Base"⟩, by decide, .inl (by decide)⟩
  have hanswer : select derivedStore baseAndOther = .ok ⟨.complete, .hierarchyPosting ⟨"Base"⟩,
      [sampleSymbol (sampleUnit "B.kt" "sha256:b") "Derived"]⟩ := by decide
  obtain rfl := Except.ok.inj (hrun.symm.trans hanswer)
  obtain ⟨sourceUnit, row, hrow, -, -, hother⟩ := ((hexact.1 _).1 (List.mem_singleton.2 rfl)).2.1 (.subtypeOf ⟨"Other"⟩) (by decide)
  have hrows : ∀ row ∈ derivedStore.hierarchyEdges, row.supertypeSymbolId = ⟨"Base"⟩ := by decide
  rw [hrows row hrow] at hother
  exact absurd hother (by decide)

theorem single_supertype_answered :
    ∃ result, select derivedStore ⟨[.kotlinClass], [.subtypeOf ⟨"Base"⟩]⟩ = .ok result ∧
      (Selector.Exact ⟨[.kotlinClass], [.subtypeOf ⟨"Base"⟩]⟩ derivedStore result.symbols ↔
        Selector.LeastSuffices ⟨[.kotlinClass], [.subtypeOf ⟨"Base"⟩]⟩ derivedStore) ∧
      ∀ other : Selector, other.predicates.Perm [.subtypeOf ⟨"Base"⟩] → other.views.Perm [.kotlinClass] →
        select derivedStore other = .ok result :=
  select_conjunction_iff derivedStore_holds ⟨.subtypeOf ⟨"Base"⟩, List.mem_singleton.2 rfl, .inl (by decide)⟩

end Kide
