import Mathlib.Algebra.Order.BigOperators.Group.List
import Mathlib.Algebra.Order.Ring.Nat
import Mathlib.Data.List.Nodup
import Mathlib.Logic.Relation

/-!
# Searching a graph

Two searches of what can be reached from a node, and both end with the same nodes.

* `visit`: depth first, by recursion with the nodes visited so far; an edge may fail, and the search with it;
* `explore`: a queue of nodes, each of them looked at when its turn comes;
* `visit_exact`, `explore_exact`: on finitely many nodes each of them ends with the nodes that can be reached, each once, and the
  first one fails exactly where an edge fails that can be reached.
-/

namespace Reach

variable {ν E : Type}

/-- The nodes that can be reached from the root, each once. -/
structure Exact (edge : ν → ν → Prop) (root : ν) (found : List ν) : Prop where
  nodup : found.Nodup
  mem_iff : ∀ node, node ∈ found ↔ Relation.ReflTransGen edge root node

theorem Exact.perm {edge : ν → ν → Prop} {root : ν} {found other : List ν} (h : Exact edge root found) (hother : Exact edge root other) :
    found.Perm other := (List.perm_ext_iff_of_nodup h.nodup hother.nodup).2 fun node => (h.mem_iff node).trans (hother.mem_iff node).symm

/-- A set with the root that edges do not leave has all that can be reached. -/
theorem mem_of_closed {edge : ν → ν → Prop} {root : ν} {found : List ν} (hroot : root ∈ found)
    (hclosed : ∀ a ∈ found, ∀ b, edge a b → b ∈ found) {node : ν} (h : Relation.ReflTransGen edge root node) : node ∈ found := by
  induction h with
  | refl => exact hroot
  | tail _ hedge ih => exact hclosed _ ih _ hedge

/-- What can be reached from an image, where the edges from an image are those to images. -/
theorem reflTransGen_image {α : Type} {edge : α → α → Prop} {edge' : ν → ν → Prop} {f : α → ν}
    (h : ∀ a x, edge' (f a) x ↔ ∃ b, edge a b ∧ f b = x) {a : α} {x : ν} :
    Relation.ReflTransGen edge' (f a) x ↔ ∃ b, Relation.ReflTransGen edge a b ∧ f b = x := by
  constructor
  · intro hreach
    induction hreach with
    | refl => exact ⟨a, .refl, rfl⟩
    | tail _ hedge ih =>
      obtain ⟨b, hb, rfl⟩ := ih
      obtain ⟨c, hc, rfl⟩ := (h b _).1 hedge
      exact ⟨c, hb.tail hc, rfl⟩
  · rintro ⟨b, hreach, rfl⟩
    induction hreach with
    | refl => exact .refl
    | tail _ hedge ih => exact ih.tail ((h _ _).2 ⟨_, hedge, rfl⟩)

/-- The nodes of a list that are not yet among these. -/
def unseen [DecidableEq ν] (nodes seen : List ν) : List ν := nodes.filter (· ∉ seen)

section
variable [DecidableEq ν] {nodes seen more : List ν}

theorem unseen_sublist (h : ∀ a ∈ seen, a ∈ more) : (unseen nodes more).Sublist (unseen nodes seen) := by
  refine List.monotone_filter_right nodes fun a ha => ?_
  rw [decide_eq_true_eq] at ha ⊢
  exact fun hseen => ha (h a hseen)

theorem unseen_length_lt {node : ν} (hnode : node ∈ nodes) (hnew : node ∉ seen) :
    (unseen nodes (seen ++ [node])).length < (unseen nodes seen).length := by
  have hsub : (unseen nodes (seen ++ [node])).Sublist (unseen nodes seen) := unseen_sublist fun a ha => List.mem_append_left _ ha
  refine lt_of_le_of_ne hsub.length_le fun hlength => ?_
  have heq := hsub.eq_of_length hlength
  have hmem : node ∈ unseen nodes seen := List.mem_filter.2 ⟨hnode, decide_eq_true hnew⟩
  rw [← heq] at hmem
  exact of_decide_eq_true (List.mem_filter.1 hmem).2 (List.mem_append_right _ (List.mem_singleton_self _))

end

/-! ## Depth first -/

/-- Why a search ends without a result. -/
inductive Stop (E : Type) where
  | outOfFuel
  | failed (error : E)
deriving DecidableEq

/-- An edge that is looked at by a call for its target. -/
def follow (call : List ν → ν → Except (Stop E) (List ν)) (visited : List ν) : Except E ν → Except (Stop E) (List ν)
  | .error error => .error (.failed error)
  | .ok next => call visited next

section
variable [DecidableEq ν] (out : ν → List (Except E ν))

/-- The recursion, for at most `fuel` nested calls. -/
def visit : Nat → List ν → ν → Except (Stop E) (List ν)
  | 0, _, _ => .error .outOfFuel
  | fuel + 1, visited, node =>
    if node ∈ visited then .ok visited
    else (out node).foldlM (follow (visit fuel)) (visited ++ [node])

end

/-- An edge that does not fail. -/
def Edge (out : ν → List (Except E ν)) (a b : ν) : Prop := .ok b ∈ out a

/-- An edge that fails can be reached. -/
def Fails (out : ν → List (Except E ν)) (root : ν) (error : E) : Prop :=
  ∃ node, Relation.ReflTransGen (Edge out) root node ∧ .error error ∈ out node

/-- What a call adds: nodes that can be reached from these ones, with all their edges. -/
structure Extends (out : ν → List (Except E ν)) (sources visited next : List ν) : Prop where
  isPrefix : visited <+: next
  nodup : visited.Nodup → next.Nodup
  reached : ∀ a ∈ next, a ∈ visited ∨ ∃ source ∈ sources, Relation.ReflTransGen (Edge out) source a
  closed : ∀ a ∈ next, a ∉ visited → ∀ edge ∈ out a, ∃ b ∈ next, edge = .ok b

section
variable {out : ν → List (Except E ν)}

theorem Extends.refl (sources visited : List ν) : Extends out sources visited visited :=
  ⟨List.prefix_refl visited, fun h => h, fun _ h => .inl h, fun _ h hnot => absurd h hnot⟩

theorem Extends.trans {sources visited middle next : List ν} (hfirst : Extends out sources visited middle)
    (hrest : Extends out sources middle next) : Extends out sources visited next where
  isPrefix := hfirst.isPrefix.trans hrest.isPrefix
  nodup h := hrest.nodup (hfirst.nodup h)
  reached a ha := by
    rcases hrest.reached a ha with hmiddle | hsource
    · exact hfirst.reached a hmiddle
    · exact .inr hsource
  closed a ha hnew edge hedge := by
    by_cases hmiddle : a ∈ middle
    · obtain ⟨b, hb, heq⟩ := hfirst.closed a hmiddle hnew edge hedge
      exact ⟨b, hrest.isPrefix.subset hb, heq⟩
    · exact hrest.closed a ha hmiddle edge hedge

theorem Extends.mono {sources more visited next : List ν} (h : Extends out sources visited next) (hsub : sources ⊆ more) :
    Extends out more visited next where
  isPrefix := h.isPrefix
  nodup := h.nodup
  reached a ha := (h.reached a ha).imp_right fun ⟨source, hsource, hreach⟩ => ⟨source, hsub hsource, hreach⟩
  closed := h.closed

section
variable [DecidableEq ν] {fuel : Nat}

/-- What is known of a call that succeeds, and of one that fails. -/
structure Visits (out : ν → List (Except E ν)) (fuel : Nat) : Prop where
  ok : ∀ {visited next node}, visit out fuel visited node = .ok next → Extends out [node] visited next ∧ node ∈ next
  failed : ∀ {visited node error}, visit out fuel visited node = .error (.failed error) → Fails out node error
  fueled : ∀ {nodes visited : List ν} {node}, (∀ a b, Edge out a b → b ∈ nodes) → node ∈ nodes →
    (unseen nodes visited).length < fuel → visit out fuel visited node ≠ .error .outOfFuel

/-- What is known of the loop over edges. -/
structure Loops (out : ν → List (Except E ν)) (fuel : Nat) (edges : List (Except E ν)) (visited : List ν) : Prop where
  ok : ∀ {next}, edges.foldlM (follow (visit out fuel)) visited = .ok next →
    Extends out (edges.filterMap Except.toOption) visited next ∧ ∀ edge ∈ edges, ∃ b ∈ next, edge = .ok b
  failed : ∀ {error}, edges.foldlM (follow (visit out fuel)) visited = .error (.failed error) →
    .error error ∈ edges ∨ ∃ source, .ok source ∈ edges ∧ Fails out source error
  fueled : ∀ {nodes : List ν}, (∀ a b, Edge out a b → b ∈ nodes) → (∀ b, .ok b ∈ edges → b ∈ nodes) →
    (unseen nodes visited).length < fuel → edges.foldlM (follow (visit out fuel)) visited ≠ .error .outOfFuel

theorem Visits.loops (h : Visits out fuel) (edges : List (Except E ν)) (visited : List ν) : Loops out fuel edges visited := by
  induction edges generalizing visited with
  | nil =>
    refine ⟨fun hnext => ?_, fun herror => (by cases herror), fun _ _ _ hfuel => (by cases hfuel)⟩
    obtain rfl := Except.ok.inj hnext
    exact ⟨.refl _ _, fun _ hnone => absurd hnone List.not_mem_nil⟩
  | cons edge edges ih =>
    cases edge with
    | error failure =>
      have hstops : ((.error failure :: edges).foldlM (follow (visit out fuel)) visited) = .error (.failed failure) := rfl
      constructor
      case ok => exact fun hnext => by cases hstops.symm.trans hnext
      case failed =>
        intro error herror
        obtain rfl := Stop.failed.inj (Except.error.inj (hstops.symm.trans herror))
        exact .inl List.mem_cons_self
      case fueled => exact fun _ _ _ hfuel => by cases hstops.symm.trans hfuel
    | ok source =>
      cases hcall : visit out fuel visited source with
      | error stop =>
        have hstops : ((.ok source :: edges).foldlM (follow (visit out fuel)) visited) = .error stop := by
          rw [List.foldlM_cons, follow, hcall]
          rfl
        constructor
        case ok => exact fun hnext => by cases hstops.symm.trans hnext
        case failed =>
          intro error herror
          obtain rfl := Except.error.inj (hstops.symm.trans herror)
          exact .inr ⟨source, List.mem_cons_self, h.failed hcall⟩
        case fueled =>
          intro nodes hfinite hnodes hlt hfuel
          obtain rfl := Except.error.inj (hstops.symm.trans hfuel)
          exact h.fueled hfinite (hnodes source List.mem_cons_self) hlt hcall
      | ok middle =>
        have hgoes : ((.ok source :: edges).foldlM (follow (visit out fuel)) visited) = edges.foldlM (follow (visit out fuel)) middle := by
          rw [List.foldlM_cons, follow, hcall]
          rfl
        obtain ⟨hextends, hsource⟩ := h.ok hcall
        constructor
        case ok =>
          intro next hnext
          obtain ⟨hrest, hedges⟩ := (ih middle).ok (hgoes.symm.trans hnext)
          refine ⟨.trans (hextends.mono ?_) (hrest.mono ?_), List.forall_mem_cons.2 ⟨⟨source, hrest.isPrefix.subset hsource, rfl⟩, hedges⟩⟩
          · exact List.cons_subset_cons _ (List.nil_subset _)
          · exact List.subset_cons_self _ _
        case failed =>
          intro error herror
          rcases (ih middle).failed (hgoes.symm.trans herror) with hedge | ⟨other, hother, hfails⟩
          · exact .inl (List.mem_cons_of_mem _ hedge)
          · exact .inr ⟨other, List.mem_cons_of_mem _ hother, hfails⟩
        case fueled =>
          intro nodes hfinite hnodes hlt
          rw [hgoes]
          refine (ih middle).fueled hfinite (fun b hb => hnodes b (List.mem_cons_of_mem _ hb)) (lt_of_le_of_lt ?_ hlt)
          exact (unseen_sublist hextends.isPrefix.subset).length_le

omit [DecidableEq ν] in
theorem mem_filterMap_toOption {edges : List (Except E ν)} {b : ν} : b ∈ edges.filterMap Except.toOption ↔ .ok b ∈ edges := by
  rw [List.mem_filterMap]
  constructor
  · rintro ⟨edge, hedge, heq⟩
    cases edge with
    | error e => cases heq
    | ok a => exact Option.some.inj heq ▸ hedge
  · exact fun h => ⟨.ok b, h, rfl⟩

/-- **Step.** One more nested call. -/
theorem visits (out : ν → List (Except E ν)) (fuel : Nat) : Visits out fuel := by
  induction fuel with
  | zero =>
    exact ⟨fun h => (by cases h), fun h => (by cases h), fun _ _ h => absurd h (Nat.not_lt_zero _)⟩
  | succ fuel ih =>
    constructor
    case ok =>
      intro visited next node h
      unfold visit at h
      split at h
      · next hmem =>
        obtain rfl := Except.ok.inj h
        exact ⟨.refl _ _, hmem⟩
      · next hnew =>
        obtain ⟨hextends, hedges⟩ := (ih.loops _ _).ok h
        have hnode : node ∈ next := hextends.isPrefix.subset (List.mem_append_right visited (List.mem_singleton_self node))
        refine ⟨⟨(List.prefix_append _ _).trans hextends.isPrefix, fun hnodup => hextends.nodup ?_, fun a ha => ?_, fun a ha hanew => ?_⟩,
          hnode⟩
        · exact hnodup.append (List.nodup_singleton _) (List.disjoint_singleton.2 hnew)
        · rcases hextends.reached a ha with hold | ⟨source, hsource, hreach⟩
          · rcases List.mem_append.1 hold with hvisited | hself
            · exact .inl hvisited
            · obtain rfl := List.mem_singleton.1 hself
              exact .inr ⟨a, List.mem_singleton_self _, .refl⟩
          · exact .inr ⟨node, List.mem_singleton_self _, .head (mem_filterMap_toOption.1 hsource) hreach⟩
        · by_cases hself : a = node
          · subst hself
            exact hedges
          · refine hextends.closed a ha fun hold => ?_
            rcases List.mem_append.1 hold with hvisited | hlast
            · exact hanew hvisited
            · exact hself (List.mem_singleton.1 hlast)
    case failed =>
      intro visited node error h
      unfold visit at h
      split at h
      · cases h
      · rcases (ih.loops _ _).failed h with hedge | ⟨source, hsource, middle, hreach, hfails⟩
        · exact ⟨node, .refl, hedge⟩
        · exact ⟨middle, .head hsource hreach, hfails⟩
    case fueled =>
      intro nodes visited node hfinite hnode hlt
      unfold visit
      split
      · exact fun h => by cases h
      · next hnew =>
        refine (ih.loops _ _).fueled hfinite (fun b hb => hfinite node b hb) ?_
        have hless := unseen_length_lt hnode hnew
        omega

theorem visit_head {fuel : Nat} {root : ν} {found : List ν} (h : visit out fuel [] root = .ok found) : found.head? = some root := by
  cases fuel with
  | zero => cases h
  | succ fuel =>
    have hprefix := ((visits out fuel).loops _ _).ok h |>.1.isPrefix
    obtain ⟨rest, rfl⟩ := hprefix
    rfl

/-- **Depth first search.** On finitely many nodes it ends with the nodes that can be reached, or with an edge that fails. -/
theorem visit_exact {nodes : List ν} (hfinite : ∀ a b, Edge out a b → b ∈ nodes) {root : ν} (hroot : root ∈ nodes) {fuel : Nat}
    (hfuel : nodes.length < fuel) :
    (∃ found, visit out fuel [] root = .ok found ∧ found.head? = some root ∧ Exact (Edge out) root found ∧ ∀ error, ¬ Fails out root error) ∨
      ∃ error, visit out fuel [] root = .error (.failed error) ∧ Fails out root error := by
  have hvisits := visits out fuel
  cases hresult : visit out fuel [] root with
  | ok found =>
    obtain ⟨hextends, hmem⟩ := hvisits.ok hresult
    have hedges : ∀ a ∈ found, ∀ edge ∈ out a, ∃ b ∈ found, edge = .ok b := fun a ha => hextends.closed a ha List.not_mem_nil
    have hclosed : ∀ {node}, Relation.ReflTransGen (Edge out) root node → node ∈ found := fun h =>
      mem_of_closed hmem (fun a ha b hb => by
        obtain ⟨c, hc, heq⟩ := hedges a ha _ hb
        exact Except.ok.inj heq ▸ hc) h
    refine .inl ⟨found, rfl, visit_head hresult, ⟨hextends.nodup List.nodup_nil, fun node => ⟨fun hnode => ?_, hclosed⟩⟩, ?_⟩
    · rcases hextends.reached node hnode with hnone | ⟨source, hsource, hreach⟩
      · cases hnone
      · exact List.mem_singleton.1 hsource ▸ hreach
    · rintro error ⟨node, hreach, hfails⟩
      obtain ⟨b, -, heq⟩ := hedges node (hclosed hreach) _ hfails
      cases heq
  | error stop =>
    cases stop with
    | outOfFuel =>
      refine absurd hresult (hvisits.fueled hfinite hroot (lt_of_le_of_lt ?_ hfuel))
      exact List.length_filter_le _ _
    | failed error => exact .inr ⟨error, rfl, hvisits.failed hresult⟩

end
end

/-! ## A queue -/

section
variable [DecidableEq ν] (next : ν → List ν)

/-- The loop, for at most `fuel` turns. -/
def explore : Nat → List ν → List ν → Option (List ν)
  | 0, _, _ => none
  | _ + 1, included, [] => some included
  | fuel + 1, included, node :: pending =>
    if node ∈ included then explore fuel included pending else explore fuel (included ++ [node]) (pending ++ next node)

end

/-- The nodes included can be reached, and their edges lead to nodes that are included or in the queue. -/
structure Exploring (next : ν → List ν) (root : ν) (included pending : List ν) : Prop where
  nodup : included.Nodup
  started : root ∈ included ++ pending
  reached : ∀ node ∈ included ++ pending, Relation.ReflTransGen (fun a b => b ∈ next a) root node
  closed : ∀ a ∈ included, ∀ b ∈ next a, b ∈ included ++ pending

section
variable {next : ν → List ν} {root : ν}

theorem Exploring.skip {included pending : List ν} {node : ν} (h : Exploring next root included (node :: pending))
    (hnode : node ∈ included) : Exploring next root included pending := by
  have hmem : ∀ a, a ∈ included ++ node :: pending → a ∈ included ++ pending := by
    intro a ha
    rcases List.mem_append.1 ha with hin | hpending
    · exact List.mem_append_left _ hin
    · rcases List.mem_cons.1 hpending with rfl | hrest
      · exact List.mem_append_left _ hnode
      · exact List.mem_append_right _ hrest
  refine ⟨h.nodup, hmem _ h.started, fun a ha => h.reached a ?_, fun a ha b hb => hmem b (h.closed a ha b hb)⟩
  exact (List.sublist_cons_self node pending).append_left included |>.subset ha

theorem Exploring.include {included pending : List ν} {node : ν} (h : Exploring next root included (node :: pending))
    (hnode : node ∉ included) : Exploring next root (included ++ [node]) (pending ++ next node) := by
  have hmem : ∀ a, a ∈ (included ++ [node]) ++ (pending ++ next node) ↔ a ∈ included ++ node :: pending ∨ a ∈ next node := by
    intro a
    simp only [List.mem_append, List.mem_cons]
    tauto
  have hreached := h.reached node (List.mem_append_right _ List.mem_cons_self)
  constructor
  case nodup => exact h.nodup.append (List.nodup_singleton _) (List.disjoint_singleton.2 hnode)
  case started => exact (hmem _).2 (.inl h.started)
  case reached =>
    intro a ha
    rcases (hmem a).1 ha with hold | hnext
    · exact h.reached a hold
    · exact hreached.tail hnext
  case closed =>
    intro a ha b hb
    rcases List.mem_append.1 ha with hold | hlast
    · exact (hmem b).2 (.inl (h.closed a hold b hb))
    · exact (hmem b).2 (.inr (List.mem_singleton.1 hlast ▸ hb))

variable [DecidableEq ν]

/-- The edges of the nodes that are still to be included. -/
def owed (next : ν → List ν) (nodes included : List ν) : Nat := ((unseen nodes included).map fun a => (next a).length).sum

variable (next) in
theorem owed_include {nodes included : List ν} {node : ν} (hnode : node ∈ nodes) (hnew : node ∉ included) :
    owed next nodes (included ++ [node]) + (next node).length ≤ owed next nodes included := by
  have hmem : node ∈ unseen nodes included := List.mem_filter.2 ⟨hnode, decide_eq_true hnew⟩
  have hsub : (unseen nodes (included ++ [node])).Sublist ((unseen nodes included).filter (· ≠ node)) := by
    unfold unseen
    rw [List.filter_filter]
    refine List.monotone_filter_right nodes fun a ha => ?_
    simpa [List.mem_append, not_or, and_comm] using ha
  have hsum := (hsub.map fun a => (next a).length).sum_le_sum fun _ _ => Nat.zero_le _
  have hsplit : ((unseen nodes included).map fun a => (next a).length).sum =
      (((unseen nodes included).filter (· = node)).map fun a => (next a).length).sum +
        (((unseen nodes included).filter (· ≠ node)).map fun a => (next a).length).sum := by
    rw [← List.sum_append, ← List.map_append]
    refine (List.Perm.map _ ?_).sum_eq
    simpa [decide_not] using (List.filter_append_perm (· = node) (unseen nodes included)).symm
  have hself : (next node).length ≤ (((unseen nodes included).filter (· = node)).map fun a => (next a).length).sum :=
    List.single_le_sum (fun _ _ => Nat.zero_le _) _ (List.mem_map_of_mem (List.mem_filter.2 ⟨hmem, decide_eq_true rfl⟩))
  unfold owed
  omega

/-- **Run.** Every turn takes a node from the queue, and a node brings its edges only once. -/
theorem Exploring.run {nodes : List ν} (hfinite : ∀ node, Relation.ReflTransGen (fun a b => b ∈ next a) root node → node ∈ nodes) {fuel : Nat}
    {included pending : List ν} (h : Exploring next root included pending) (hfuel : pending.length + owed next nodes included < fuel) :
    ∃ found, explore next fuel included pending = some found ∧ Exact (fun a b => b ∈ next a) root found := by
  induction fuel generalizing included pending with
  | zero => omega
  | succ fuel ih =>
    cases pending with
    | nil =>
      refine ⟨included, rfl, h.nodup, fun node => ⟨fun hnode => h.reached node (List.mem_append_left _ hnode), fun hreach => ?_⟩⟩
      have hclosed := h.closed
      have hroot := h.started
      rw [List.append_nil] at hclosed hroot
      exact mem_of_closed hroot hclosed hreach
    | cons node pending =>
      rw [List.length_cons] at hfuel
      rw [explore]
      by_cases hnode : node ∈ included
      · rw [if_pos hnode]
        exact ih (h.skip hnode) (by omega)
      · rw [if_neg hnode]
        have howed := owed_include next (hfinite node (h.reached node (List.mem_append_right _ List.mem_cons_self))) hnode
        refine ih (h.include hnode) ?_
        rw [List.length_append]
        omega

/-- **Search with a queue.** On finitely many nodes it ends with the nodes that can be reached. -/
theorem explore_exact {nodes : List ν} (hfinite : ∀ node, Relation.ReflTransGen (fun a b => b ∈ next a) root node → node ∈ nodes) {fuel : Nat}
    (hfuel : (nodes.map fun a => (next a).length).sum + 1 < fuel) :
    ∃ found, explore next fuel [] [root] = some found ∧ Exact (fun a b => b ∈ next a) root found := by
  have hstart : Exploring next root [] [root] :=
    ⟨List.nodup_nil, List.mem_singleton_self _, fun node hnode => List.mem_singleton.1 hnode ▸ .refl, fun _ h => absurd h List.not_mem_nil⟩
  refine hstart.run hfinite ?_
  have hall : unseen nodes ([] : List ν) = nodes := List.filter_eq_self.2 fun _ _ => decide_eq_true List.not_mem_nil
  rw [owed, hall, List.length_singleton]
  omega

end

end Reach
