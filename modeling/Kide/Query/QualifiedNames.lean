import Kide.Index.BlobReferences
import Kide.Query.SemanticQuery

/-!
# Qualified names

Two resolvers of a qualified name: the one of the query compiler (`semantic_query.rs`) and the one that binds the arguments of
a worker query (`commands/query.rs`). Both read the locators of the name, one row for each source unit and symbol.

`resolves_distinct_iff`: both go by the distinct symbols exactly if no symbol is located twice under the name.
-/

namespace Kide

/-- `resolve_qualified_symbol` of the query command. -/
def bindQualifiedSymbol (store : IndexStore) (name : String) : Except String SymbolId :=
  match store.symbolsWithQualifiedName name with
  | [] =>
    if '.' ∈ name.toList then .ok ⟨"jvm:type:" ++ name⟩
    else .error ("qualified symbol `" ++ name ++ "` did not resolve")
  | [symbol] => .ok symbol
  | symbols => .error ("qualified symbol `" ++ name ++ "` is ambiguous: " ++ toString symbols.length ++ " candidates")

/-- The symbols that the locators of the name are of, one for each source unit that has it. -/
def IndexStore.locatedSymbols (store : IndexStore) (name : String) : List SymbolId :=
  (store.symbolLocators.filter (·.qualifiedName = name)).map (·.symbolId)

/-- Both resolvers answer with the one symbol, with the number of symbols, or that there is none. -/
structure ResolvesDistinct (store : IndexStore) (name : String) : Prop where
  one : ∀ symbol, (store.locatedSymbols name).dedup = [symbol] →
    resolveQualifiedSymbol store name = .ok symbol ∧ bindQualifiedSymbol store name = .ok symbol
  several : ∀ count, (store.locatedSymbols name).dedup.length = count → 2 ≤ count →
    resolveQualifiedSymbol store name = .error (.ambiguousQualifiedSymbol name count) ∧
      bindQualifiedSymbol store name =
        .error ("qualified symbol `" ++ name ++ "` is ambiguous: " ++ toString count ++ " candidates")
  none : (store.locatedSymbols name).dedup = [] →
    ('.' ∈ name.toList → resolveQualifiedSymbol store name = .ok ⟨"jvm:type:" ++ name⟩ ∧
      bindQualifiedSymbol store name = .ok ⟨"jvm:type:" ++ name⟩) ∧
    ('.' ∉ name.toList → resolveQualifiedSymbol store name = .error (.unknownQualifiedSymbol name) ∧
      bindQualifiedSymbol store name = .error ("qualified symbol `" ++ name ++ "` did not resolve"))

section
variable {store : IndexStore} {name : String}

theorem symbolsWithQualifiedName_perm : (store.symbolsWithQualifiedName name).Perm (store.locatedSymbols name) :=
  List.perm_insertionSort _ _

theorem symbolsWithQualifiedName_of_length {count : Nat} (h : (store.locatedSymbols name).length = count) (hcount : 2 ≤ count) :
    ∃ a b rest, store.symbolsWithQualifiedName name = a :: b :: rest ∧ (a :: b :: rest).length = count := by
  have hlength := (@symbolsWithQualifiedName_perm store name).length_eq.trans h
  rcases hsymbols : store.symbolsWithQualifiedName name with _ | ⟨a, _ | ⟨b, rest⟩⟩ <;> rw [hsymbols] at hlength
  · simp only [List.length_nil] at hlength
    omega
  · simp only [List.length_singleton] at hlength
    omega
  · exact ⟨a, b, rest, rfl, hlength⟩

/-- From two rows on both report as many candidates as there are rows. -/
theorem resolvers_of_length {count : Nat} (h : (store.locatedSymbols name).length = count) (hcount : 2 ≤ count) :
    resolveQualifiedSymbol store name = .error (.ambiguousQualifiedSymbol name count) ∧
      bindQualifiedSymbol store name =
        .error ("qualified symbol `" ++ name ++ "` is ambiguous: " ++ toString count ++ " candidates") := by
  obtain ⟨a, b, rest, hsymbols, rfl⟩ := symbolsWithQualifiedName_of_length h hcount
  unfold resolveQualifiedSymbol bindQualifiedSymbol
  rw [hsymbols]
  exact ⟨rfl, rfl⟩

theorem resolvers_of_singleton {symbol : SymbolId} (h : store.locatedSymbols name = [symbol]) :
    resolveQualifiedSymbol store name = .ok symbol ∧ bindQualifiedSymbol store name = .ok symbol := by
  have hsymbols : store.symbolsWithQualifiedName name = [symbol] :=
    List.perm_singleton.1 (h ▸ @symbolsWithQualifiedName_perm store name)
  unfold resolveQualifiedSymbol bindQualifiedSymbol
  rw [hsymbols]
  exact ⟨rfl, rfl⟩

theorem resolvers_of_nil (h : store.locatedSymbols name = []) :
    ('.' ∈ name.toList → resolveQualifiedSymbol store name = .ok ⟨"jvm:type:" ++ name⟩ ∧
      bindQualifiedSymbol store name = .ok ⟨"jvm:type:" ++ name⟩) ∧
    ('.' ∉ name.toList → resolveQualifiedSymbol store name = .error (.unknownQualifiedSymbol name) ∧
      bindQualifiedSymbol store name = .error ("qualified symbol `" ++ name ++ "` did not resolve")) := by
  have hsymbols : store.symbolsWithQualifiedName name = [] := List.perm_nil.1 (h ▸ @symbolsWithQualifiedName_perm store name)
  unfold resolveQualifiedSymbol bindQualifiedSymbol
  rw [hsymbols]
  exact ⟨fun hdot => ⟨if_pos hdot, if_pos hdot⟩, fun hdot => ⟨if_neg hdot, if_neg hdot⟩⟩

end

/-- **Names.** The resolvers go by the distinct symbols of a name if and only if no symbol is located under the name in two
source units. -/
theorem resolves_distinct_iff (store : IndexStore) (name : String) :
    ResolvesDistinct store name ↔ (store.locatedSymbols name).Nodup := by
  constructor
  · intro h
    by_contra hnot
    have hshorter : (store.locatedSymbols name).dedup.length < (store.locatedSymbols name).length := by
      refine lt_of_le_of_ne (List.dedup_sublist _).length_le fun hsame => hnot ?_
      rw [← (List.dedup_sublist _).eq_of_length hsame]
      exact List.nodup_dedup _
    have hne : (store.locatedSymbols name).dedup ≠ [] := by
      intro hnil
      rw [List.dedup_eq_nil] at hnil
      rw [hnil] at hshorter
      exact absurd hshorter (by simp)
    have hpositive := List.length_pos_iff.2 hne
    obtain ⟨hreported, -⟩ := @resolvers_of_length store name _ rfl (by omega)
    by_cases hone : (store.locatedSymbols name).dedup.length = 1
    · obtain ⟨symbol, hsymbol⟩ := List.length_eq_one_iff.1 hone
      rw [(h.one symbol hsymbol).1] at hreported
      cases hreported
    · rw [(h.several _ rfl (by omega)).1] at hreported
      injection hreported with hreported
      injection hreported with _ hcount
      omega
  · intro h
    have hdedup := List.dedup_eq_self.2 h
    refine ⟨fun symbol hsymbol => ?_, fun count hcount => ?_, fun hnil => ?_⟩
    · exact resolvers_of_singleton (hdedup ▸ hsymbol)
    · exact resolvers_of_length (hdedup ▸ hcount)
    · exact resolvers_of_nil (hdedup ▸ hnil)

/-! ## One symbol in two units -/

/-- An artifact that locates the symbol `A`. -/
def locatingArtifact (id : String) : ArtifactDescriptor :=
  let descriptor := BlobOperation.sampleArtifact "sha256:library"
  { descriptor with
    sourceUnit := { descriptor.sourceUnit with id := ⟨id⟩ }
    symbolLocators := [⟨"library.A", ⟨"A"⟩⟩] }

def sharedCatalog : IndexStore :=
  (({} : IndexStore).replaceArtifactDescriptors Disk.sound [locatingArtifact "jar:first", locatingArtifact "jar:second"]).2

theorem sharedCatalog_ambiguous : ¬ ∀ (store : IndexStore) (name : String), ResolvesDistinct store name := by
  intro h
  have hone : (sharedCatalog.locatedSymbols "library.A").dedup = [⟨"A"⟩] := by decide +kernel
  have hresolved := ((h sharedCatalog "library.A").one _ hone).1
  exact absurd hresolved (by decide +kernel)

end Kide
