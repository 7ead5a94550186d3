import Kide.Index.Plans

/-!
# The history of a run

What an orchestrated run did to the stored snapshots can be read off its log.

* `replay log m`: the finite map after the removals and commits of `log`; for a unit that the log affects it is `committedBy log`;
* `Traced start P index`: since `start` the log grew by a list with `P`, and the snapshots stored at
  `start`, replayed over that list, are the snapshots stored now;
* every function of the orchestrator has a triple that says how it extends the list
  (`applyActions_traced`, `commitBatch_traced`, …), whatever the workers do and whichever read or write
  of the database fails.
-/

namespace Kide
open Runs Collects

/-! ## Replaying a log -/

def IndexEvent.apply (event : IndexEvent) (m : SnapshotMap) : SnapshotMap :=
  match event with
  | .removed sourceUnit => Function.update m sourceUnit none
  | .answered _ _ => m
  | .committed _ _ entries => entries.foldl SnapshotMap.replace m

/-- The log is newest first. -/
def replay (log : List IndexEvent) (m : SnapshotMap) : SnapshotMap := log.foldr IndexEvent.apply m

theorem replay_cons (event : IndexEvent) (log : List IndexEvent) (m : SnapshotMap) :
    replay (event :: log) m = event.apply (replay log m) := rfl

/-! ## Replaying, unit by unit -/

section
variable {m : SnapshotMap} {u : SourceUnitId}

/-- The units a log commits. -/
def Commits (log : List IndexEvent) (u : SourceUnitId) : Prop :=
  ∃ requested answer entries, .committed requested answer entries ∈ log ∧ u ∈ entries.map (·.1.id)

variable {log : List IndexEvent}

theorem Commits.cons {event : IndexEvent} (h : Commits log u) : Commits (event :: log) u := by
  obtain ⟨requested, answer, entries, hmem, hu⟩ := h
  exact ⟨requested, answer, entries, List.mem_cons_of_mem _ hmem, hu⟩

theorem replay_untouched (hremoved : .removed u ∉ log) (hcommits : ¬ Commits log u) : replay log m u = m u := by
  induction log with
  | nil => rfl
  | cons event log ih =>
    have hrest := ih (fun h => hremoved (List.mem_cons_of_mem _ h)) fun h => hcommits h.cons
    rw [replay_cons, ← hrest]
    cases event with
    | removed other =>
      have hne : u ≠ other := fun h => hremoved (h ▸ List.mem_cons_self)
      exact Function.update_of_ne hne _ _
    | answered requested answer => rfl
    | committed requested answer entries =>
      exact foldl_replace_of_notMem fun h => hcommits ⟨requested, answer, entries, List.mem_cons_self, h⟩

theorem replay_removed (hremoved : .removed u ∈ log) (hcommits : ¬ Commits log u) : replay log m u = none := by
  induction log with
  | nil => exact absurd hremoved List.not_mem_nil
  | cons event log ih =>
    rw [replay_cons]
    by_cases hrest : .removed u ∈ log
    · have hnone := ih hrest fun h => hcommits h.cons
      cases event with
      | removed other =>
        by_cases hu : u = other
        · rw [hu]; exact Function.update_self _ _ _
        · exact (Function.update_of_ne hu _ _).trans hnone
      | answered requested answer => exact hnone
      | committed requested answer entries =>
        refine (foldl_replace_of_notMem fun h => ?_).trans hnone
        exact hcommits ⟨requested, answer, entries, List.mem_cons_self, h⟩
    · obtain rfl : .removed u = event := (List.mem_cons.1 hremoved).resolve_right hrest
      exact Function.update_self _ _ _

theorem replay_committed (hremoved : .removed u ∉ log) (hcommits : Commits log u) :
    ∃ requested answer entries, .committed requested answer entries ∈ log ∧
      ∃ entry ∈ entries, entry.1.id = u ∧ replay log m u = some entry.2 := by
  induction log with
  | nil =>
    obtain ⟨_, _, _, hmem, _⟩ := hcommits
    exact absurd hmem List.not_mem_nil
  | cons event log ih =>
    have hremoved' : .removed u ∉ log := fun h => hremoved (List.mem_cons_of_mem _ h)
    -- the newest commit of the unit decides
    by_cases hnewest : ∃ requested answer entries,
        event = .committed requested answer entries ∧ u ∈ entries.map (·.1.id)
    · obtain ⟨requested, answer, entries, rfl, hu⟩ := hnewest
      obtain ⟨entry, hentry, hid, hmap⟩ := foldl_replace_of_mem (m := replay log m) hu
      exact ⟨requested, answer, entries, List.mem_cons_self, entry, hentry, hid, hmap⟩
    · have hcommits' : Commits log u := by
        obtain ⟨requested, answer, entries, hmem, hu⟩ := hcommits
        rcases List.mem_cons.1 hmem with rfl | hmem
        · exact absurd ⟨requested, answer, entries, rfl, hu⟩ hnewest
        · exact ⟨requested, answer, entries, hmem, hu⟩
      obtain ⟨requested, answer, entries, hmem, entry, hentry, hid, hmap⟩ := ih hremoved' hcommits'
      refine ⟨requested, answer, entries, List.mem_cons_of_mem _ hmem, entry, hentry, hid, ?_⟩
      rw [replay_cons, ← hmap]
      cases event with
      | removed other =>
        have hne : u ≠ other := fun h => hremoved (h ▸ List.mem_cons_self)
        exact Function.update_of_ne hne _ _
      | answered requested answer => rfl
      | committed requested answer entries =>
        exact foldl_replace_of_notMem fun h => hnewest ⟨requested, answer, entries, rfl, h⟩

/-- A snapshot that is there afterwards was there before or is committed in between. -/
theorem replay_origin {snapshot : FileAnalysisSnapshot} (h : replay log m u = some snapshot) :
    m u = some snapshot ∨ ∃ requested answer entries, .committed requested answer entries ∈ log ∧
      snapshot ∈ entries.map (·.2) := by
  induction log with
  | nil => exact .inl h
  | cons event log ih =>
    have hrest : replay log m u = some snapshot → m u = some snapshot ∨
        ∃ requested answer entries, .committed requested answer entries ∈ event :: log ∧ snapshot ∈ entries.map (·.2) := by
      intro h
      refine (ih h).imp_right ?_
      rintro ⟨requested, answer, entries, hmem, hs⟩
      exact ⟨requested, answer, entries, List.mem_cons_of_mem _ hmem, hs⟩
    rw [replay_cons] at h
    cases event with
    | removed other =>
      by_cases hu : u = other
      · rw [hu, show IndexEvent.apply (.removed other) (replay log m) other = none from Function.update_self _ _ _] at h
        cases h
      · exact hrest ((Function.update_of_ne hu _ _).symm.trans h)
    | answered requested answer => exact hrest h
    | committed requested answer entries =>
      by_cases hu : u ∈ entries.map (·.1.id)
      · obtain ⟨entry, hentry, -, hmap⟩ := foldl_replace_of_mem (m := replay log m) hu
        have hsnapshot : entry.2 = snapshot := Option.some.inj (hmap.symm.trans h)
        exact .inr ⟨requested, answer, entries, List.mem_cons_self, hsnapshot ▸ List.mem_map_of_mem hentry⟩
      · exact hrest ((foldl_replace_of_notMem hu).symm.trans h)

end

/-- The log removes the unit or commits it. -/
def Affects (log : List IndexEvent) (u : SourceUnitId) : Prop := .removed u ∈ log ∨ Commits log u

section
variable {entries : List (SourceUnit × FileAnalysisSnapshot)} {m m' : SnapshotMap} {u : SourceUnitId} {log : List IndexEvent}

theorem replace_congr {entry : SourceUnit × FileAnalysisSnapshot} (h : m u = m' u) : m.replace entry u = m'.replace entry u := by
  unfold SnapshotMap.replace
  by_cases hu : u = entry.1.id
  · rw [hu, Function.update_self, Function.update_self]
  · rw [Function.update_of_ne hu, Function.update_of_ne hu, h]

theorem foldl_replace_congr (h : m u = m' u) :
    entries.foldl SnapshotMap.replace m u = entries.foldl SnapshotMap.replace m' u := by
  induction entries generalizing m m' with
  | nil => exact h
  | cons entry entries ih => exact ih (replace_congr h)

/-- What entries leave for a unit they name does not depend on what was there. -/
theorem foldl_replace_eq (h : u ∈ entries.map (·.1.id)) :
    entries.foldl SnapshotMap.replace m u = entries.foldl SnapshotMap.replace m' u := by
  induction entries generalizing m m' with
  | nil => exact absurd h List.not_mem_nil
  | cons entry entries ih =>
    rw [List.foldl_cons, List.foldl_cons]
    by_cases hu : u = entry.1.id
    · refine foldl_replace_congr ?_
      unfold SnapshotMap.replace
      rw [hu, Function.update_self, Function.update_self]
    · exact ih ((List.mem_cons.1 h).resolve_left hu)

theorem apply_removed (m : SnapshotMap) (u : SourceUnitId) : IndexEvent.apply (.removed u) m u = none := Function.update_self _ _ _

theorem apply_congr {event : IndexEvent} (h : m u = m' u) : event.apply m u = event.apply m' u := by
  cases event with
  | removed other =>
    by_cases hu : u = other
    · rw [hu, apply_removed, apply_removed]
    · exact ((Function.update_of_ne hu _ _).trans h).trans (Function.update_of_ne hu _ _).symm
  | answered requested answer => exact h
  | committed requested answer entries => exact foldl_replace_congr h

/-- What a log leaves for a unit it affects does not depend on what was there. -/
theorem replay_eq_of_affects (h : Affects log u) : replay log m u = replay log m' u := by
  induction log with
  | nil =>
    rcases h with h | ⟨_, _, _, h, -⟩
    · exact absurd h List.not_mem_nil
    · exact absurd h List.not_mem_nil
  | cons event log ih =>
    rw [replay_cons, replay_cons]
    by_cases hrest : Affects log u
    · exact apply_congr (ih hrest)
    rcases h with h | ⟨requested, answer, entries, h, hu⟩
    · obtain rfl := (List.mem_cons.1 h).resolve_right fun h => hrest (.inl h)
      rw [apply_removed, apply_removed]
    · obtain rfl := (List.mem_cons.1 h).resolve_right fun h => hrest (.inr ⟨requested, answer, entries, h, hu⟩)
      exact foldl_replace_eq hu

theorem replay_of_not_affects (h : ¬ Affects log u) : replay log m u = m u :=
  replay_untouched (fun hremoved => h (.inl hremoved)) fun hcommits => h (.inr hcommits)

theorem replay_append (after before : List IndexEvent) : replay (after ++ before) m = replay after (replay before m) :=
  List.foldr_append

theorem Affects.append_left (h : Affects log u) (before : List IndexEvent) : Affects (log ++ before) u := by
  rcases h with h | ⟨requested, answer, entries, h, hu⟩
  · exact .inl (List.mem_append_left _ h)
  · exact .inr ⟨requested, answer, entries, List.mem_append_left _ h, hu⟩

theorem Affects.append_right (h : Affects log u) (after : List IndexEvent) : Affects (after ++ log) u := by
  rcases h with h | ⟨requested, answer, entries, h, hu⟩
  · exact .inl (List.mem_append_right _ h)
  · exact .inr ⟨requested, answer, entries, List.mem_append_right _ h, hu⟩

/-- What the commits of a log leave for the unit. -/
def committedBy (log : List IndexEvent) : SnapshotMap := replay log fun _ => none

end

/-- `store` holds what the snapshots of `start` become over `log`. -/
def Replays (start : IndexStore) (log : List IndexEvent) (store : IndexStore) : Prop :=
  ∀ live, Holds start live → ∃ live', Holds store live' ∧ lookup live' = replay log (lookup live)

structure Traced (start : Index) (P : List IndexEvent → Prop) (index : Index) : Prop where
  exists_log : ∃ new, index.log = new ++ start.log ∧ P new ∧ Replays start.store new index.store

section
variable {ε α : Type} {start : Index} {P Q : List IndexEvent → Prop}

theorem Traced.init (h : P []) : Traced start P start :=
  ⟨⟨[], rfl, h, fun live hlive => ⟨live, hlive, rfl⟩⟩⟩

theorem Traced.mono {index : Index} (h : Traced start P index) (hPQ : ∀ new, P new → Q new) :
    Traced start Q index := by
  obtain ⟨new, hnew, hP, hstore⟩ := h.exists_log
  exact ⟨new, hnew, hPQ new hP, hstore⟩

theorem Replays.of_facts {start store store' : IndexStore} {log : List IndexEvent} (h : Replays start log store)
    (hkept : FactsKept store store') : Replays start log store' := by
  intro live hlive
  obtain ⟨live', hlive', hmap⟩ := h live hlive
  exact ⟨live', ⟨hkept.trans hlive'.facts, hkept ▸ hlive'.unique⟩, hmap⟩

/-- The index half of a state is traced. -/
abbrev Tracing (start : Index) (P : List IndexEvent → Prop) (state : Index × Workers) : Prop :=
  Traced start P state.1

/-! ## Elementary steps -/

/-- Workers have no access to the index. -/
theorem second_traced {x : Run Workers ε α} :
    Triple (Tracing start P) (second x) (fun _ => Tracing start P) (Tracing start P) := by
  have hx := Triple.second (F := fun index => Traced start P index) (Triple.trivial (P := fun _ => True) (x := x))
  exact hx.consequence (fun _ h => ⟨h, trivial⟩) (fun _ _ h => h.1) fun _ h => h.1

theorem onWorkers_traced {x : WorkerRun α} :
    Triple (Tracing start P) (onWorkers x) (fun _ => Tracing start P) (Tracing start P) := second_traced

theorem onIndex_traced {x : Run Index IndexStoreError α} {R : α → Index → Prop}
    (h : Triple (Traced start P) x R (Traced start P)) :
    Triple (Tracing start P) (onIndex x) (fun a state => R a state.1) (Tracing start P) := by
  have hx := Triple.first (F := fun _ : Workers => True) (Triple.mapError (g := IndexOrchestratorError.store) h)
  exact hx.consequence (fun _ h => ⟨h, trivial⟩) (fun _ _ h => h.1) fun _ h => h.1

/-- A read sees a store that replays the log so far. -/
theorem query_traced {env : IndexEnvironment} {question : IndexStore → α} :
    Triple (Tracing start P) (onIndex (Index.query env question))
      (fun a => Tracing start fun new => P new ∧ ∃ store, Replays start.store new store ∧ a = question store)
      (Tracing start P) := by
  refine onIndex_traced (R := fun a => Traced start fun new => P new ∧ ∃ store, Replays start.store new store ∧ a = question store) ?_
  intro index hindex
  obtain ⟨new, hnew, hP, hstore⟩ := hindex.exists_log
  unfold Index.query
  cases env.reads index.clock with
  | some e => exact ⟨new, hnew, hP, hstore⟩
  | none => exact ⟨new, hnew, ⟨hP, index.store, hstore, rfl⟩, hstore⟩

theorem write_traced_of_facts {env : IndexEnvironment}
    {operation : Disk → IndexStore → Except IndexStoreError Unit × IndexStore}
    (h : ∀ disk store, FactsKept store (operation disk store).2) :
    Triple (Tracing start P) (onIndex (Index.write env operation none)) (fun _ => Tracing start P)
      (Tracing start P) := by
  refine onIndex_traced (R := fun _ => Traced start P) ?_
  intro index hindex
  obtain ⟨new, hnew, hP, hstore⟩ := hindex.exists_log
  have hkept := h (env.disk index.clock) index.store
  unfold Index.write
  rcases hrun : operation (env.disk index.clock) index.store with ⟨_ | _, store⟩ <;> rw [hrun] at hkept <;>
    exact ⟨new, hnew, hP, hstore.of_facts hkept⟩

theorem write_traced {env : IndexEnvironment}
    {operation : Disk → IndexStore → Except IndexStoreError Unit × IndexStore} {event : IndexEvent}
    (herror : ∀ disk store e, (operation disk store).1 = .error e → (operation disk store).2 = store)
    (hok : ∀ disk store, (operation disk store).1 = .ok () → (∀ new, P new → Q (event :: new)) ∧
      ∀ live, Holds store live →
        ∃ live', Holds (operation disk store).2 live' ∧ lookup live' = event.apply (lookup live)) :
    Triple (Tracing start P) (onIndex (Index.write env operation (some event))) (fun _ => Tracing start Q)
      (Tracing start P) := by
  refine onIndex_traced (R := fun _ => Traced start Q) ?_
  intro index hindex
  obtain ⟨new, hnew, hP, hstore⟩ := hindex.exists_log
  have herror' := herror (env.disk index.clock) index.store
  have hok' := hok (env.disk index.clock) index.store
  unfold Index.write
  rcases hrun : operation (env.disk index.clock) index.store with ⟨e | _, store⟩ <;> rw [hrun] at herror' hok'
  · obtain rfl := herror' e rfl
    exact ⟨new, hnew, hP, hstore⟩
  · obtain ⟨hQ, hmap⟩ := hok' rfl
    refine ⟨event :: new, by rw [hnew]; rfl, hQ new hP, fun live hlive => ?_⟩
    obtain ⟨live₁, hlive₁, hmap₁⟩ := hstore live hlive
    obtain ⟨live₂, hlive₂, hmap₂⟩ := hmap live₁ hlive₁
    exact ⟨live₂, hlive₂, by rw [hmap₂, hmap₁, replay_cons]⟩

theorem record_traced {requested : List SourceUnit} {answer : List FileAnalysisSnapshot}
    (h : ∀ new, P new → Q (.answered requested answer :: new)) :
    Triple (Tracing start P) (first (Index.record (.answered requested answer)) : Orchestration Unit)
      (fun _ => Tracing start Q) (Tracing start P) := by
  intro state hstate
  obtain ⟨new, hnew, hP, hstore⟩ := hstate.exists_log
  exact ⟨.answered requested answer :: new, congrArg (IndexEvent.answered requested answer :: ·) hnew, h new hP, hstore⟩

end

/-! ## The functions of the orchestrator -/

section
variable {start : Index} {P Q : List IndexEvent → Prop} (env : Environment) (manifest : ProjectManifest)
  (executionPlan : OpaqueExecutionPlan)

theorem removeSnapshot_traced {sourceUnit : SourceUnitId} (h : ∀ new, P new → Q (.removed sourceUnit :: new)) :
    Triple (Tracing start P) (removeSnapshot env sourceUnit) (fun _ => Tracing start Q) (Tracing start P) := by
  refine write_traced (fun _ _ _ => removeSnapshot_error) fun disk store hrun => ⟨h, fun live hlive => ?_⟩
  refine ⟨live.filter (·.id ≠ sourceUnit), ?_, lookup_filter live sourceUnit⟩
  rw [removeSnapshot_ok hrun]
  exact hlive.without sourceUnit

theorem commitBatch_traced {requested : List SourceUnit} {answer : List FileAnalysisSnapshot}
    {entries : List (SourceUnit × FileAnalysisSnapshot)}
    (h : (∀ entry ∈ entries, ValidSnapshot entry.1 entry.2) →
      ∀ new, P new → Q (.committed requested answer entries :: new)) :
    Triple (Tracing start P) (commitBatch env requested answer entries) (fun _ => Tracing start Q)
      (Tracing start P) := by
  refine write_traced (fun _ _ _ => replaceSnapshotsBatch_error) fun disk store hrun => ?_
  obtain ⟨hvalid, hstatements⟩ := replaceSnapshotsBatch_ok hrun
  exact ⟨h hvalid, fun live hlive =>
    ⟨_, hlive.batch hstatements, lookup_batch fun entry he => (hvalid entry he).id⟩⟩

theorem putManifest_traced :
    Triple (Tracing start P) (putManifest env manifest) (fun _ => Tracing start P) (Tracing start P) :=
  write_traced_of_facts fun disk store => store.putManifest_facts disk manifest

theorem joinDependencyLane_traced (lane : DependencyLane) (run : IndexRun) :
    Triple (Tracing start P) (joinDependencyLane env lane run) (fun _ => Tracing start P) (Tracing start P) := by
  unfold joinDependencyLane
  cases lane with
  | none => exact Triple.pure fun _ h => h
  | some outcome =>
    refine Triple.bind (R := fun _ => Tracing start P) (Triple.lift (fun _ _ _ h => h) fun _ h => h) fun catalog => ?_
    have hwrite : Triple (Tracing start P) (onIndex (Index.write env.index
        (fun disk store => store.replaceArtifactDescriptors disk catalog.descriptors) none))
        (fun _ => Tracing start P) (Tracing start P) :=
      write_traced_of_facts fun disk store => store.replaceArtifactDescriptors_facts disk catalog.descriptors
    exact Triple.bind hwrite fun _ => Triple.pure fun _ h => h

theorem spawnDependencyLane_traced (launch : WorkerLaunch) :
    Triple (Tracing start P) (spawnDependencyLane env manifest executionPlan launch) (fun _ => Tracing start P)
      (Tracing start P) :=
  Triple.bind second_traced fun _ => Triple.pure fun _ h => h

/-- The removals of a plan, up to where it got. -/
def RemovedBy (actions : List IndexAction) (new : List IndexEvent) : Prop :=
  ∀ event ∈ new, ∃ sourceUnit, event = .removed sourceUnit ∧ .remove sourceUnit ∈ actions

/-- All removals of a plan are done. -/
structure Applied (actions : List IndexAction) (new : List IndexEvent) : Prop where
  removed : RemovedBy actions new
  complete : ∀ sourceUnit, .remove sourceUnit ∈ actions → .removed sourceUnit ∈ new

theorem RemovedBy.mono {actions actions' : List IndexAction} {new : List IndexEvent} (h : RemovedBy actions new)
    (hsub : ∀ action ∈ actions, action ∈ actions') : RemovedBy actions' new := by
  intro event hevent
  obtain ⟨sourceUnit, hremoved, haction⟩ := h event hevent
  exact ⟨sourceUnit, hremoved, hsub _ haction⟩

/-- An action that is no removal leaves the log. -/
theorem Applied.skip {done : List IndexAction} {action : IndexAction} {new : List IndexEvent} (h : Applied done new)
    (haction : ∀ sourceUnit, action ≠ .remove sourceUnit) : Applied (done ++ [action]) new := by
  refine ⟨h.removed.mono fun other hother => List.mem_append_left _ hother, fun unit hunit => h.complete unit ?_⟩
  rcases List.mem_append.1 hunit with hunit | hunit
  · exact hunit
  · exact absurd (List.mem_singleton.1 hunit).symm (haction unit)

theorem Applied.remove {done : List IndexAction} {sourceUnit : SourceUnitId} {new : List IndexEvent}
    (h : Applied done new) : Applied (done ++ [.remove sourceUnit]) (.removed sourceUnit :: new) := by
  have hsub : ∀ action ∈ done, action ∈ done ++ [.remove sourceUnit] := fun _ => List.mem_append_left _
  refine ⟨fun event hevent => ?_, fun unit hunit => ?_⟩
  · rcases List.mem_cons.1 hevent with rfl | hevent
    · exact ⟨sourceUnit, rfl, List.mem_append_right _ List.mem_cons_self⟩
    · exact h.removed.mono hsub event hevent
  · rcases List.mem_append.1 hunit with hunit | hunit
    · exact List.mem_cons_of_mem _ (h.complete unit hunit)
    · rw [List.mem_singleton, IndexAction.remove.injEq] at hunit
      rw [hunit]
      exact List.mem_cons_self

theorem applyAction_traced {done actions : List IndexAction} {action : IndexAction}
    (hsub : ∀ other ∈ done, other ∈ actions) (state : IndexRun × List SourceUnit) :
    Triple (fun s => Tracing start (Applied done) s ∧ state.2 = staleUnits done) (applyAction env state action)
      (fun state' s => Tracing start (Applied (done ++ [action])) s ∧ state'.2 = staleUnits (done ++ [action]))
      (Tracing start (RemovedBy actions)) := by
  have hstale : staleUnits (done ++ [action]) = staleUnits done ++ staleUnits [action] := List.filterMap_append
  rw [hstale]
  cases action with
  | reuse source =>
    exact Triple.pure fun _ h =>
      ⟨h.1.mono fun new hnew => hnew.skip fun _ => by simp, h.2.trans (List.append_nil _).symm⟩
  | reanalyze source reason =>
    exact Triple.pure fun _ h =>
      ⟨h.1.mono fun new hnew => hnew.skip fun _ => by simp, congrArg (· ++ [source]) h.2⟩
  | remove sourceUnit =>
    refine Triple.of_pre fun s hs => ?_
    have hremove : Triple (Tracing start (Applied done)) (removeSnapshot env sourceUnit)
        (fun _ => Tracing start (Applied (done ++ [.remove sourceUnit]))) (Tracing start (Applied done)) :=
      removeSnapshot_traced env fun new hnew => hnew.remove
    refine Triple.bind (hremove.consequence (fun _ h => h ▸ hs.1) (fun _ _ h => h) fun _ h => ?_) fun _ =>
      Triple.pure fun _ h => ⟨h, hs.2.trans (List.append_nil _).symm⟩
    exact h.mono fun new hnew => hnew.removed.mono hsub

/-- The removals of a plan are done in order; the rest of the plan is what to analyze. -/
theorem applyActions_traced (actions : List IndexAction) :
    Triple (Tracing start (· = [])) (applyActions env actions)
      (fun state s => Tracing start (Applied actions) s ∧ state.2 = staleUnits actions)
      (Tracing start (RemovedBy actions)) := by
  have hloop := Triple.foldlM_done (f := applyAction env) (l := actions) (E := Tracing start (RemovedBy actions))
    (I := fun done state s => Tracing start (Applied done) s ∧ state.2 = staleUnits done)
    (fun done action rest hdone state => applyAction_traced env
      (fun other hother => hdone ▸ List.mem_append_left _ hother) state) (({}, []) : IndexRun × List SourceUnit)
  refine hloop.consequence (fun _ h => ⟨h.mono ?_, rfl⟩) (fun _ _ h => h) fun _ h => h
  rintro _ rfl
  exact ⟨fun _ h => (nomatch h), fun _ h => (nomatch h)⟩

theorem validateBatch_returns {requested : List SourceUnit} {answer snapshots : List FileAnalysisSnapshot}
    (h : validateBatch requested answer = .ok snapshots) : snapshots = answer := by
  unfold validateBatch at h
  dsimp only at h
  split at h
  · cases h
  · split at h
    · cases h
    · exact (Except.ok.inj h).symm

/-- A batch is logged when its answer arrives, and returned when it names the units requested. -/
theorem analyzeBatch_traced {supervisor : Handle} {requestId : String} {requested : List SourceUnit}
    (h : ∀ answer new, P new → Q (.answered requested answer :: new)) :
    Triple (Tracing start P) (analyzeBatch env manifest executionPlan supervisor requestId requested)
      (fun snapshots state => validateBatch requested snapshots = .ok snapshots ∧
        Tracing start (fun new => ∃ old, new = .answered requested snapshots :: old ∧ P old ∧ Q new) state)
      (Tracing start fun new => P new ∨ Q new) := by
  have hweaken : ∀ state, Tracing start P state → Tracing start (fun new => P new ∨ Q new) state :=
    fun _ hP => hP.mono fun _ => .inl
  refine Triple.bind (onWorkers_traced.consequence (fun _ h => h) (fun _ _ h => h) hweaken) fun response => ?_
  split
  · next answer _ =>
    have hrecord : Triple (Tracing start P)
        (first (Index.record (.answered requested answer.snapshots)) : Orchestration Unit)
        (fun _ => Tracing start fun new => ∃ old, new = .answered requested answer.snapshots :: old ∧ P old ∧ Q new)
        (Tracing start P) := record_traced fun new hnew => ⟨new, rfl, hnew, h _ new hnew⟩
    refine Triple.bind (hrecord.consequence (fun _ h => h) (fun _ _ h => h) hweaken) fun _ => ?_
    refine Triple.lift (fun snapshots hsnapshots state hstate => ?_) fun state hstate => ?_
    · have hanswer := validateBatch_returns hsnapshots
      rw [← hanswer] at hsnapshots hstate
      exact ⟨hsnapshots, hstate⟩
    · exact hstate.mono fun _ ⟨_, _, _, hQ⟩ => .inr hQ
  · exact Triple.fail hweaken

/-- What passes the comparison: the two lists name the same units. -/
theorem validateBatch_ok_iff {requested : List SourceUnit} {snapshots : List FileAnalysisSnapshot} :
    validateBatch requested snapshots = .ok snapshots ↔
      ∀ id, id ∈ snapshots.map (·.id) ↔ id ∈ requested.map (·.id) := by
  have hmem : ∀ (ids : List SourceUnitId) id, id ∈ sortedIds ids ↔ id ∈ ids := fun ids id => by
    rw [sortedIds, List.mem_insertionSort, List.mem_dedup]
  have hfind : ∀ xs ys : List SourceUnitId,
      (sortedIds xs).find? (· ∉ sortedIds ys) = none ↔ ∀ id ∈ xs, id ∈ ys := fun xs ys => by
    simp only [List.find?_eq_none, decide_not, Bool.not_eq_true', decide_eq_false_iff_not, not_not, hmem]
  unfold validateBatch
  constructor
  · intro h
    dsimp only at h
    split at h
    · cases h
    · next hreceived =>
      split at h
      · cases h
      · next hexpected => exact fun id => ⟨(hfind _ _).1 hreceived id, (hfind _ _).1 hexpected id⟩
  · intro h
    have hreceived := (hfind _ _).2 fun id => (h id).1
    have hexpected := (hfind _ _).2 fun id => (h id).2
    simp only [hreceived, hexpected]

end

end Kide
