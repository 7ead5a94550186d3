import Mathlib.Data.List.Nodup
import Mathlib.Logic.Relation
import Mathlib.Order.Lattice.Nat

/-!
# Breadth-first search

A queue of nodes whose edges are still to be followed, and the nodes seen so far. An edge is kept when it is
the first one to its target.

* `Walk`, `distance`: the least number of edges from the root to a node;
* `Searching`: the nodes seen are those done followed by those in the queue, in the order of their distance, and
  every edge of a node that is done leads to a node seen;
* `run_exact`: on finitely many targets the search ends, with one edge for each node that it reaches.
-/

namespace BreadthFirst

structure Search (ν ε : Type*) where
  pending : List ν
  visited : List ν
  result : List ε

variable {ν ε : Type*} (out : ν → List ε) (target : ε → ν)

section
variable [DecidableEq ν]

def visit (s : Search ν ε) (edge : ε) : Search ν ε :=
  if target edge ∈ s.visited then s
  else ⟨s.pending ++ [target edge], s.visited ++ [target edge], s.result ++ [edge]⟩

/-- The loop, for at most `fuel` turns. -/
def run : Nat → Search ν ε → Option (List ε)
  | 0, _ => none
  | fuel + 1, s =>
    match s.pending with
    | [] => some s.result
    | node :: pending => run fuel ((out node).foldl (visit target) { s with pending })

end

def start (root : ν) : Search ν ε := ⟨[root], [root], []⟩

/-! ## Walks -/

inductive Walk (root : ν) : Nat → ν → Prop
  | root : Walk root 0 root
  | next {n : Nat} {node : ν} {edge : ε} (walk : Walk root n node) (h : edge ∈ out node) : Walk root (n + 1) (target edge)

/-- The number of edges of a shortest walk, when there is a walk. -/
noncomputable def distance (root node : ν) : Nat := sInf {n | Walk out target root n node}

/-- One edge leads from `a` to `b`. -/
def Edge (a b : ν) : Prop := ∃ edge ∈ out a, target edge = b

variable {out target} {root node : ν} {n : Nat}

theorem Walk.distance_le (h : Walk out target root n node) : distance out target root node ≤ n := Nat.sInf_le h

theorem Walk.shortest (h : Walk out target root n node) : Walk out target root (distance out target root node) node :=
  Nat.sInf_mem (s := {n | Walk out target root n node}) ⟨n, h⟩

theorem Walk.eq_root_or (h : Walk out target root n node) : node = root ∨ Relation.TransGen (Edge out target) root node := by
  induction h with
  | root => exact .inl rfl
  | @next n middle edge walk hedge ih =>
    right
    rcases ih with rfl | hreach
    · exact .single ⟨edge, hedge, rfl⟩
    · exact hreach.tail ⟨edge, hedge, rfl⟩

theorem exists_walk_iff : (∃ n, Walk out target root n node) ↔ node = root ∨ Relation.TransGen (Edge out target) root node := by
  constructor
  · exact fun ⟨_, h⟩ => h.eq_root_or
  · rintro (rfl | hreach)
    · exact ⟨0, .root⟩
    · induction hreach with
      | single h =>
        obtain ⟨edge, hedge, rfl⟩ := h
        exact ⟨1, Walk.root.next hedge⟩
      | tail _ h ih =>
        obtain ⟨n, hwalk⟩ := ih
        obtain ⟨edge, hedge, rfl⟩ := h
        exact ⟨n + 1, hwalk.next hedge⟩

/-! ## The invariant -/

/-- The nodes seen, in the order they were seen: those whose edges were followed, then the queue. -/
structure Searching (out : ν → List ε) (target : ε → ν) (root : ν) (done pending visited : List ν) (result : List ε) :
    Prop where
  order : done ++ pending = root :: result.map target
  visited : ∀ node, node ∈ visited ↔ node ∈ done ++ pending
  nodup : (done ++ pending).Nodup
  walked : ∀ node ∈ done ++ pending, ∃ n, Walk out target root n node
  edges : ∀ edge ∈ result, ∃ node ∈ done ++ pending, edge ∈ out node
  closed : ∀ node ∈ done, ∀ edge ∈ out node, target edge ∈ done ++ pending
  sorted : (done ++ pending).Pairwise fun a b => distance out target root a ≤ distance out target root b
  near : ∀ head ∈ pending.head?, ∀ node ∈ done ++ pending, distance out target root node ≤ distance out target root head + 1

theorem Searching.start (root : ν) : Searching out target root [] [root] [root] [] where
  order := rfl
  visited _ := Iff.rfl
  nodup := List.nodup_singleton root
  walked node hnode := ⟨0, (List.mem_singleton.1 hnode).symm ▸ .root⟩
  edges _ h := by cases h
  closed _ h := by cases h
  sorted := List.pairwise_singleton _ root
  near head hhead node hnode := by
    obtain rfl : root = head := Option.some.inj hhead
    obtain rfl := List.mem_singleton.1 hnode
    exact Nat.le_succ _

section
variable {done pending visited : List ν} {result : List ε} {head : ν}

/-- A node nearer than the head of the queue is done. -/
theorem Searching.nearer_done (h : Searching out target root done (head :: pending) visited result)
    (hwalk : Walk out target root n node) (hn : n < distance out target root head) : node ∈ done := by
  have hseen : ∀ {node}, node ∈ done ++ head :: pending → distance out target root node < distance out target root head →
      node ∈ done := by
    intro node hnode hlt
    rcases List.mem_append.1 hnode with hdone | hpending
    · exact hdone
    rcases List.mem_cons.1 hpending with rfl | hlater
    · exact absurd hlt (Nat.lt_irrefl _)
    · have hsorted := (List.pairwise_cons.1 (List.pairwise_append.1 h.sorted).2.1).1 node hlater
      omega
  induction hwalk with
  | root =>
    have hroot : root ∈ done ++ head :: pending := h.order ▸ List.mem_cons_self
    have hle := Walk.distance_le (Walk.root : Walk out target root 0 root)
    exact hseen hroot (by omega)
  | @next m middle edge walk hedge ih =>
    have hmiddle := ih (by omega)
    have hle := (walk.next hedge).distance_le
    exact hseen (h.closed middle hmiddle edge hedge) (by omega)

/-- A new node is one edge further away than the head. -/
theorem Searching.distance_new (h : Searching out target root done (head :: pending) visited result) {edge : ε}
    (hedge : edge ∈ out head) (hnew : target edge ∉ done ++ head :: pending) :
    distance out target root (target edge) = distance out target root head + 1 := by
  obtain ⟨n, hwalk⟩ := h.walked head (List.mem_append_right _ List.mem_cons_self)
  have hnext := hwalk.shortest.next hedge
  have hle := hnext.distance_le
  have hshortest := hnext.shortest
  generalize hd : distance out target root (target edge) = d at hle hshortest ⊢
  generalize hw : target edge = w at hnew hshortest hd
  cases hshortest with
  | root => exact absurd (h.order ▸ List.mem_cons_self) hnew
  | @next m middle other walk hother =>
    by_contra hne
    have hmiddle := h.nearer_done walk (by omega)
    exact hnew (h.closed middle hmiddle other hother)

/-! ## One node -/

variable [DecidableEq ν]

/-- An edge of the head of the queue is looked at. -/
theorem Searching.visit {s : Search ν ε} (h : Searching out target root done (head :: s.pending) s.visited s.result)
    {edge : ε} (hedge : edge ∈ out head) :
    Searching out target root done (head :: (visit target s edge).pending) (visit target s edge).visited
        (visit target s edge).result ∧
      target edge ∈ (visit target s edge).visited ∧ ∀ node ∈ s.visited, node ∈ (visit target s edge).visited := by
  unfold BreadthFirst.visit
  by_cases hseen : target edge ∈ s.visited
  · rw [if_pos hseen]
    exact ⟨h, hseen, fun _ hnode => hnode⟩
  rw [if_neg hseen]
  have hnew : target edge ∉ done ++ head :: s.pending := fun hmem => hseen ((h.visited _).2 hmem)
  have hdistance := h.distance_new hedge hnew
  have hhead : head ∈ done ++ head :: s.pending := List.mem_append_right _ List.mem_cons_self
  obtain ⟨n, hwalk⟩ := h.walked head hhead
  have happend : done ++ head :: (s.pending ++ [target edge]) = (done ++ head :: s.pending) ++ [target edge] := by
    rw [← List.cons_append, List.append_assoc]
  refine ⟨?_, List.mem_append_right _ (List.mem_singleton_self _), fun _ hnode => List.mem_append_left _ hnode⟩
  dsimp only
  constructor
  case order => rw [happend, h.order, List.map_append, List.map_singleton, List.cons_append]
  case visited =>
    intro node
    rw [happend, List.mem_append, List.mem_append, h.visited]
  case nodup =>
    rw [happend]
    exact h.nodup.append (List.nodup_singleton _) (List.disjoint_singleton.2 hnew)
  case walked =>
    intro node hnode
    rw [happend] at hnode
    rcases List.mem_append.1 hnode with hold | hlast
    · exact h.walked node hold
    · exact ⟨n + 1, (List.mem_singleton.1 hlast).symm ▸ hwalk.next hedge⟩
  case edges =>
    intro other hother
    rw [happend]
    rcases List.mem_append.1 hother with hold | hlast
    · obtain ⟨node, hnode, hout⟩ := h.edges other hold
      exact ⟨node, List.mem_append_left _ hnode, hout⟩
    · exact ⟨head, List.mem_append_left _ hhead, (List.mem_singleton.1 hlast).symm ▸ hedge⟩
  case closed =>
    intro node hnode other hother
    rw [happend]
    exact List.mem_append_left _ (h.closed node hnode other hother)
  case sorted =>
    rw [happend]
    refine List.pairwise_append.2 ⟨h.sorted, List.pairwise_singleton _ _, fun a ha b hb => ?_⟩
    obtain rfl := List.mem_singleton.1 hb
    have hnear := h.near head rfl a ha
    omega
  case near =>
    intro other hother node hnode
    obtain rfl : head = other := Option.some.inj hother
    rw [happend] at hnode
    rcases List.mem_append.1 hnode with hold | hlast
    · exact h.near head rfl node hold
    · obtain rfl := List.mem_singleton.1 hlast
      omega

theorem Searching.visits {edges : List ε} {s : Search ν ε}
    (h : Searching out target root done (head :: s.pending) s.visited s.result) (hedges : ∀ edge ∈ edges, edge ∈ out head) :
    let s' := edges.foldl (BreadthFirst.visit target) s
    Searching out target root done (head :: s'.pending) s'.visited s'.result ∧
      (∀ edge ∈ edges, target edge ∈ s'.visited) ∧ ∀ node ∈ s.visited, node ∈ s'.visited := by
  induction edges generalizing s with
  | nil => exact ⟨h, fun _ hnone => (nomatch hnone), fun _ hnode => hnode⟩
  | cons edge edges ih =>
    obtain ⟨hvisited, htarget, hgrows⟩ := h.visit (hedges edge List.mem_cons_self)
    obtain ⟨hrest, htargets, hkeeps⟩ := ih hvisited fun other hother => hedges other (List.mem_cons_of_mem _ hother)
    refine ⟨hrest, fun other hother => ?_, fun node hnode => hkeeps node (hgrows node hnode)⟩
    rcases List.mem_cons.1 hother with rfl | hlater
    · exact hkeeps _ htarget
    · exact htargets other hlater

/-- **Step.** All edges of the head have been looked at, and it is done. -/
theorem Searching.step {s : Search ν ε} (h : Searching out target root done (head :: s.pending) s.visited s.result) :
    let s' := (out head).foldl (BreadthFirst.visit target) s
    Searching out target root (done ++ [head]) s'.pending s'.visited s'.result := by
  obtain ⟨hall, htargets, -⟩ := h.visits fun edge (hedge : edge ∈ out head) => hedge
  generalize (out head).foldl (BreadthFirst.visit target) s = s' at hall htargets ⊢
  have hsame : (done ++ [head]) ++ s'.pending = done ++ head :: s'.pending := by rw [List.append_assoc]; rfl
  constructor
  case order => exact hsame.trans hall.order
  case visited => exact fun node => (hall.visited node).trans (by rw [hsame])
  case nodup => exact hsame.symm ▸ hall.nodup
  case walked => exact hsame.symm ▸ hall.walked
  case edges => exact hsame.symm ▸ hall.edges
  case closed =>
    intro node hnode edge hedge
    rw [hsame]
    rcases List.mem_append.1 hnode with hdone | hhead
    · exact hall.closed node hdone edge hedge
    · obtain rfl := List.mem_singleton.1 hhead
      exact (hall.visited _).1 (htargets edge hedge)
  case sorted => exact hsame.symm ▸ hall.sorted
  case near =>
    intro next hnext node hnode
    rw [hsame] at hnode
    have hnear := hall.near head rfl node hnode
    have hpending : next ∈ s'.pending := List.mem_of_head? hnext
    have hlater := (List.pairwise_cons.1 (List.pairwise_append.1 hall.sorted).2.1).1 next hpending
    omega

end

/-! ## The whole search -/

/-- One edge for each node but the root that edges lead to, the nearer nodes first. -/
structure Exact (out : ν → List ε) (target : ε → ν) (root : ν) (result : List ε) : Prop where
  nodup : (result.map target).Nodup
  reached : ∀ node, node ∈ result.map target ↔ node ≠ root ∧ Relation.TransGen (Edge out target) root node
  edges : ∀ edge ∈ result, ∃ node, (node = root ∨ Relation.TransGen (Edge out target) root node) ∧ edge ∈ out node
  sorted : result.Pairwise fun a b => distance out target root (target a) ≤ distance out target root (target b)

theorem Searching.exact {done visited : List ν} {result : List ε} (h : Searching out target root done [] visited result) :
    Exact out target root result := by
  have horder : done = root :: result.map target := by rw [← h.order, List.append_nil]
  have hnodup := h.nodup
  have hsorted := h.sorted
  rw [List.append_nil, horder] at hnodup hsorted
  have hclosed : ∀ {n node}, Walk out target root n node → node ∈ done := by
    intro n node hwalk
    induction hwalk with
    | root => exact horder ▸ List.mem_cons_self
    | next walk hedge ih => simpa using h.closed _ ih _ hedge
  constructor
  case nodup => exact (List.nodup_cons.1 hnodup).2
  case reached =>
    intro node
    constructor
    · intro hnode
      have hseen : node ∈ done ++ [] := by
        rw [List.append_nil, horder]
        exact List.mem_cons_of_mem _ hnode
      have hne : node ≠ root := fun hroot => (List.nodup_cons.1 hnodup).1 (hroot ▸ hnode)
      exact ⟨hne, (exists_walk_iff.1 (h.walked node hseen)).resolve_left hne⟩
    · rintro ⟨hne, hreach⟩
      obtain ⟨n, hwalk⟩ := exists_walk_iff.2 (.inr hreach)
      have hseen := hclosed hwalk
      rw [horder] at hseen
      exact (List.mem_cons.1 hseen).resolve_left hne
  case edges =>
    intro edge hedge
    obtain ⟨node, hnode, hout⟩ := h.edges edge hedge
    exact ⟨node, exists_walk_iff.1 (h.walked node hnode), hout⟩
  case sorted =>
    have htargets := (List.pairwise_cons.1 hsorted).2
    rwa [List.pairwise_map] at htargets

section
variable [DecidableEq ν]

theorem run_succ {fuel : Nat} {s : Search ν ε} {result : List ε} (h : run out target fuel s = some result) :
    run out target (fuel + 1) s = some result := by
  induction fuel generalizing s with
  | zero => cases h
  | succ fuel ih =>
    unfold run at h ⊢
    split at h
    · exact h
    · exact ih h

/-- **Run.** Every turn ends with one more node that is done, and no node is done twice. -/
theorem Searching.run {nodes done : List ν} (hfinite : ∀ node, ∀ edge ∈ out node, target edge ∈ nodes) {fuel : Nat}
    {s : Search ν ε} (h : Searching out target root done s.pending s.visited s.result)
    (hfuel : nodes.length + 1 < fuel + done.length) :
    ∃ result, run out target fuel s = some result ∧ Exact out target root result := by
  induction fuel generalizing s done with
  | zero =>
    have hknown : ∀ node ∈ done, node ∈ root :: nodes := by
      intro node hnode
      have hseen : node ∈ root :: s.result.map target := h.order ▸ List.mem_append_left _ hnode
      rcases List.mem_cons.1 hseen with rfl | hresult
      · exact List.mem_cons_self
      · obtain ⟨edge, hedge, rfl⟩ := List.mem_map.1 hresult
        obtain ⟨source, -, hout⟩ := h.edges edge hedge
        exact List.mem_cons_of_mem _ (hfinite source edge hout)
    have hdone : done.Nodup := (List.nodup_append.1 h.nodup).1
    have hlength := (hdone.subperm hknown).length_le
    rw [List.length_cons] at hlength
    omega
  | succ fuel ih =>
    unfold BreadthFirst.run
    cases hpending : s.pending with
    | nil =>
      rw [hpending] at h
      exact ⟨s.result, rfl, h.exact⟩
    | cons head pending =>
      rw [hpending] at h
      have hstep := Searching.step (s := { s with pending }) h
      refine ih hstep ?_
      rw [List.length_append, List.length_singleton]
      omega

/-- **Breadth-first search.** On finitely many targets it ends, and it is exact. -/
theorem run_exact {nodes : List ν} (hfinite : ∀ node, ∀ edge ∈ out node, target edge ∈ nodes) (root : ν) :
    ∃ result, (∀ fuel, nodes.length + 2 ≤ fuel → run out target fuel (start root) = some result) ∧
      Exact out target root result := by
  have hstart : Searching out target root [] (start root : Search ν ε).pending (start root : Search ν ε).visited
      (start root : Search ν ε).result := .start root
  have hfuel : nodes.length + 1 < nodes.length + 2 + ([] : List ν).length := Nat.lt_succ_self _
  obtain ⟨result, hrun, hexact⟩ := hstart.run hfinite hfuel
  refine ⟨result, fun fuel hfuel => ?_, hexact⟩
  obtain ⟨extra, rfl⟩ := Nat.exists_eq_add_of_le hfuel
  induction extra with
  | zero => exact hrun
  | succ extra ih => exact run_succ (ih (Nat.le_add_right _ _))

end

end BreadthFirst
