import Kide.Lib.BreadthFirst
import Kide.Store.Queries

/-!
# The hierarchy below a symbol

`implementations_of_transitive`: a breadth-first search along the stored hierarchy edges, from supertypes to
subtypes.
-/

namespace Kide

namespace IndexStore
variable (store : IndexStore)

/-- Direct and descendant hierarchy edges in breadth-first order; `fuel` bounds the turns of the loop. -/
def implementationsOfTransitive (fuel : Nat) (symbol : SymbolId) : Option (List HierarchyEdge) :=
  BreadthFirst.run store.implementationsOf (·.subtype) fuel (BreadthFirst.start symbol)

/-- Some unit stores an edge from the supertype to the subtype. -/
def HasSubtype (supertype subtype : SymbolId) : Prop :=
  ∃ row ∈ store.hierarchyEdges, row.supertypeSymbolId = supertype ∧ row.recordJson.subtype = subtype

/-- The least number of stored edges that lead down from one symbol to the other. -/
noncomputable def hierarchyDistance (supertype subtype : SymbolId) : Nat :=
  BreadthFirst.distance store.implementationsOf (·.subtype) supertype subtype

/-- One edge for each symbol below another one, the nearer symbols first. -/
structure TransitiveImplementations (symbol : SymbolId) (result : List HierarchyEdge) : Prop where
  once : (result.map (·.subtype)).Nodup
  subtypes : ∀ subtype, subtype ∈ result.map (·.subtype) ↔
    subtype ≠ symbol ∧ Relation.TransGen store.HasSubtype symbol subtype
  stored : ∀ edge ∈ result, ∃ row ∈ store.hierarchyEdges, row.recordJson = edge ∧
    (row.supertypeSymbolId = symbol ∨ Relation.TransGen store.HasSubtype symbol row.supertypeSymbolId)
  order : result.Pairwise fun a b => store.hierarchyDistance symbol a.subtype ≤ store.hierarchyDistance symbol b.subtype

variable {store}

theorem mem_implementationsOf {symbol : SymbolId} {edge : HierarchyEdge} :
    edge ∈ store.implementationsOf symbol ↔
      ∃ row ∈ store.hierarchyEdges, row.supertypeSymbolId = symbol ∧ row.recordJson = edge := by
  unfold implementationsOf
  simp only [List.mem_map, mem_orderByUnitThen, List.mem_filter, decide_eq_true_eq, and_assoc]

/-- The search follows the stored edges. -/
theorem edge_eq_hasSubtype : BreadthFirst.Edge store.implementationsOf (·.subtype) = store.HasSubtype := by
  funext supertype subtype
  apply propext
  unfold BreadthFirst.Edge HasSubtype
  simp only [mem_implementationsOf]
  constructor
  · rintro ⟨_, ⟨row, hrow, hsupertype, rfl⟩, hsubtype⟩
    exact ⟨row, hrow, hsupertype, hsubtype⟩
  · rintro ⟨row, hrow, hsupertype, hsubtype⟩
    exact ⟨_, ⟨row, hrow, hsupertype, rfl⟩, hsubtype⟩

/-- **Transitive implementations.** On any edges, cyclic or stored twice, the loop ends and is exact. -/
theorem implementationsOfTransitive_exact (store : IndexStore) (symbol : SymbolId) :
    ∃ result, (∀ fuel, store.hierarchyEdges.length + 2 ≤ fuel →
        store.implementationsOfTransitive fuel symbol = some result) ∧ store.TransitiveImplementations symbol result := by
  have hfinite : ∀ supertype, ∀ edge ∈ store.implementationsOf supertype,
      edge.subtype ∈ store.hierarchyEdges.map (·.recordJson.subtype) := by
    intro supertype edge hedge
    obtain ⟨row, hrow, -, rfl⟩ := mem_implementationsOf.1 hedge
    exact List.mem_map_of_mem hrow
  obtain ⟨result, hrun, hexact⟩ := BreadthFirst.run_exact hfinite symbol
  refine ⟨result, fun fuel hfuel => hrun fuel (by rwa [List.length_map]), ?_⟩
  have hreached := hexact.reached
  have hedges := hexact.edges
  rw [edge_eq_hasSubtype] at hreached hedges
  constructor
  case once => exact hexact.nodup
  case subtypes => exact hreached
  case stored =>
    intro edge hedge
    obtain ⟨supertype, hbelow, hout⟩ := hedges edge hedge
    obtain ⟨row, hrow, rfl, hrecord⟩ := mem_implementationsOf.1 hout
    exact ⟨row, hrow, hrecord, hbelow⟩
  case order => exact hexact.sorted

end IndexStore

end Kide
