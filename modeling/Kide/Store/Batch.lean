import Kide.Store.Storable

/-!
# Batch commits and their order

`replace_snapshots_batch` deletes and inserts entry by entry, so an entry is inserted while the old
snapshots of later entries are still there.

* `Admissible live entries`: every insertion meets no id in use, in this order;
* `finalSnapshots`: the old snapshots with those of the batch replaced, whatever the order;
* `NoneHeld`: no entry uses an id that another unit of the batch held before the batch.

`replaceSnapshotsBatch_order_free_iff`: the order of the entries is immaterial exactly when the final
ids clash anyway or `NoneHeld`.
-/

namespace Kide
open Tables Transactions Checks

abbrev BatchEntry := SourceUnit × FileAnalysisSnapshot

/-- The entry alone can be stored. -/
def Acceptable (entry : BatchEntry) : Prop :=
  (({} : IndexStore).replaceSnapshot Disk.sound entry.1 entry.2).1 = .ok ()

/-- What an acceptable entry satisfies on its own. -/
structure Storable (entry : BatchEntry) : Prop where
  valid : ValidSnapshot entry.1 entry.2
  offsets : OffsetsFit entry.2
  symbols : entry.2.symbolIds.Nodup
  applications : entry.2.applicationIds.Nodup
  facts : DistinctFacts entry.2

theorem acceptable_iff {entry : BatchEntry} : Acceptable entry ↔ Storable entry := by
  rw [Acceptable, replaceSnapshot_ok_iff (Holds.empty {})]
  exact ⟨fun ⟨h1, h2, h3, h4, h5, _⟩ => ⟨h1, h2, h3, h4, h5⟩,
    fun ⟨h1, h2, h3, h4, h5⟩ => ⟨h1, h2, h3, h4, h5, fun _ h => (nomatch h)⟩⟩

theorem Storable.id {entry : BatchEntry} (h : Storable entry) : entry.2.id = entry.1.id := h.valid.id

/-! ## One order of the entries -/

/-- Each entry, inserted over the snapshots live at its turn, meets no id in use. -/
def Admissible : List FileAnalysisSnapshot → List BatchEntry → Prop
  | _, [] => True
  | live, entry :: entries =>
    (∀ other ∈ live, other.id ≠ entry.2.id → other.Apart entry.2) ∧ Admissible (commitLive live entry) entries

section
variable {store : IndexStore} {live : List FileAnalysisSnapshot} {entries : List BatchEntry}

theorem batchStatements_ok_iff (h : Holds store live) (hentries : ∀ entry ∈ entries, Storable entry) :
    (∃ store', runStatements (batchStatements entries) store = .ok store') ↔ Admissible live entries := by
  induction entries generalizing store live with
  | nil => exact ⟨fun _ => trivial, fun _ => ⟨store, rfl⟩⟩
  | cons entry entries ih =>
    have hentry := hentries entry List.mem_cons_self
    have hone := replaceStatements_ok_iff h hentry.id
    have hrest : ∀ e ∈ entries, Storable e := fun e he => hentries e (List.mem_cons_of_mem _ he)
    rw [batchStatements, List.flatMap_cons, runStatements_append]
    simp only [bind_eq_ok_iff]
    constructor
    · rintro ⟨store', middle, hmiddle, hrun⟩
      exact ⟨(hone.1 ⟨middle, hmiddle⟩).2.2.2.2, (ih (h.replaced hmiddle) hrest).1 ⟨store', hrun⟩⟩
    · rintro ⟨hapart, hadm⟩
      obtain ⟨middle, hmiddle⟩ := hone.2 ⟨hentry.offsets, hentry.symbols, hentry.applications, hentry.facts, hapart⟩
      obtain ⟨store', hrun⟩ := (ih (h.replaced hmiddle) hrest).2 hadm
      exact ⟨store', middle, hmiddle, hrun⟩

theorem insertSnapshot_error {snapshot : FileAnalysisSnapshot} (hfit : OffsetsFit snapshot) :
    ∀ stmt ∈ insertSnapshot snapshot, ∀ s e, stmt s = .error e → e = .sqlite .constraint := by
  intro stmt hstmt s e he
  rw [insertSnapshot, (bindSnapshot_yields snapshot _).2 ⟨hfit, rfl⟩, List.map_map] at hstmt
  obtain ⟨row, -, rfl⟩ := List.mem_map.1 hstmt
  have hinsert : insertRowStatement (.ok row) s = .error e := he
  simp only [insertRowStatement, bind, Except.bind] at hinsert
  split at hinsert
  · cases hinsert
  · exact (Except.error.inj hinsert).symm

theorem deleteFileOwnedFacts_error {sourceUnit : SourceUnitId} :
    ∀ stmt ∈ deleteFileOwnedFacts sourceUnit, ∀ s e, stmt s = .error e → e = .sqlite .constraint := by
  intro stmt hstmt s e he
  obtain ⟨f, -, rfl⟩ := List.mem_map.1 hstmt
  cases he

/-- The outcome of a batch of storable entries: `Ok`, or a violated key. -/
theorem replaceSnapshotsBatch_outcome (h : Holds store live) (hentries : ∀ entry ∈ entries, Storable entry) :
    (Admissible live entries ∧ (store.replaceSnapshotsBatch Disk.sound entries).1 = .ok ()) ∨
      (¬ Admissible live entries ∧
        (store.replaceSnapshotsBatch Disk.sound entries).1 = .error (.sqlite .constraint)) := by
  have hvalid : (entries.forM fun entry => validateSnapshot entry.1 entry.2) = .ok () :=
    forM_eq_ok_iff.2 fun entry he => validateSnapshot_ok_iff.2 (hentries entry he).valid
  have hbatch : store.replaceSnapshotsBatch Disk.sound entries =
      transact Disk.sound (batchStatements entries) store := by
    unfold IndexStore.replaceSnapshotsBatch
    rw [hvalid]; rfl
  rw [hbatch, ← batchStatements_ok_iff h hentries]
  by_cases hok : ∃ store', runStatements (batchStatements entries) store = .ok store'
  · exact .inl ⟨hok, (transact_noFault _ store).2 hok⟩
  · refine .inr ⟨hok, ?_⟩
    cases hrun : runStatements (batchStatements entries) store with
    | ok store' => exact absurd ⟨store', hrun⟩ hok
    | error e =>
      have he : e = .sqlite .constraint := by
        refine runStatements_error (P := (· = .sqlite .constraint)) (fun stmt hstmt => ?_) hrun
        obtain ⟨entry, hentry, hstmt⟩ := List.mem_flatMap.1 hstmt
        rcases List.mem_append.1 hstmt with hstmt | hstmt
        · exact deleteFileOwnedFacts_error stmt hstmt
        · exact insertSnapshot_error (hentries entry hentry).offsets stmt hstmt
      rw [← he]
      exact transact_noFault_error.2 hrun

end

/-! ## The final snapshots -/

/-- The old snapshots with the units of the batch replaced. -/
def finalSnapshots (live : List FileAnalysisSnapshot) (entries : List BatchEntry) : List FileAnalysisSnapshot :=
  live.filter (fun snapshot => entries.all fun entry => entry.1.id ≠ snapshot.id) ++ entries.map (·.2)

/-- Symbol ids and application ids are unique over all the snapshots. -/
structure UniqueIds (snapshots : List FileAnalysisSnapshot) : Prop where
  symbols : (snapshots.flatMap (·.symbolIds)).Nodup
  applications : (snapshots.flatMap (·.applicationIds)).Nodup

/-- No entry uses an id that another unit of the batch held before the batch. -/
def NoneHeld (live : List FileAnalysisSnapshot) (entries : List BatchEntry) : Prop :=
  ∀ entry ∈ entries, ∀ other ∈ entries, other.1.id ≠ entry.1.id →
    ∀ old ∈ live, old.id = other.1.id → old.Apart entry.2

section
variable {live : List FileAnalysisSnapshot} {entry : BatchEntry} {entries : List BatchEntry}

theorem finalSnapshots_commitLive (hid : entry.2.id = entry.1.id) (hnew : entry.1.id ∉ entries.map (·.1.id)) :
    finalSnapshots (commitLive live entry) entries = finalSnapshots live (entry :: entries) := by
  have hself : (entries.all fun e => decide (e.1.id ≠ entry.2.id)) = true := by
    rw [List.all_eq_true]
    intro e he
    rw [hid, decide_eq_true_iff]
    exact fun h => hnew (h ▸ List.mem_map_of_mem he)
  have hkept : [entry.2].filter (fun s => entries.all fun e => e.1.id ≠ s.id) = [entry.2] := by
    rw [List.filter_cons, if_pos hself, List.filter_nil]
  rw [finalSnapshots, finalSnapshots, commitLive, List.filter_append, List.filter_filter, hkept, List.map_cons,
    List.append_assoc, List.singleton_append]
  congr 1
  refine List.filter_congr fun snapshot _ => ?_
  rw [List.all_cons, Bool.and_comm]
  congr 1
  exact decide_eq_decide.2 ne_comm

theorem foldl_commitLive (hid : ∀ entry ∈ entries, entry.2.id = entry.1.id)
    (hnd : (entries.map (·.1.id)).Nodup) : entries.foldl commitLive live = finalSnapshots live entries := by
  induction entries generalizing live with
  | nil => simp [finalSnapshots]
  | cons entry entries ih =>
    rw [List.map_cons, List.nodup_cons] at hnd
    rw [List.foldl_cons, ih (fun e he => hid e (List.mem_cons_of_mem _ he)) hnd.2,
      finalSnapshots_commitLive (hid entry List.mem_cons_self) hnd.1]

theorem finalSnapshots_perm {entries' : List BatchEntry} (p : entries'.Perm entries) :
    (finalSnapshots live entries').Perm (finalSnapshots live entries) := by
  refine List.Perm.append (List.Perm.of_eq ?_) (p.map _)
  refine List.filter_congr fun snapshot _ => ?_
  rw [Bool.eq_iff_iff, List.all_eq_true, List.all_eq_true]
  exact ⟨fun h e he => h e (p.symm.subset he), fun h e he => h e (p.subset he)⟩

theorem UniqueIds.apart {as bs : List FileAnalysisSnapshot} (h : UniqueIds (as ++ bs)) {a b : FileAnalysisSnapshot}
    (ha : a ∈ as) (hb : b ∈ bs) : a.Apart b := by
  obtain ⟨hs, hp⟩ := h
  rw [List.flatMap_append, List.nodup_append'] at hs hp
  exact ⟨fun k hka hkb => hs.2.2 (List.mem_flatMap.2 ⟨a, ha, hka⟩) (List.mem_flatMap.2 ⟨b, hb, hkb⟩),
    fun k hka hkb => hp.2.2 (List.mem_flatMap.2 ⟨a, ha, hka⟩) (List.mem_flatMap.2 ⟨b, hb, hkb⟩)⟩

theorem Holds.uniqueIds {store : IndexStore} (h : Holds store live) : UniqueIds live := by
  have hu := h.unique
  rw [KeysUnique, h.facts, keys_flatMap, List.nodup_flatMap] at hu
  obtain ⟨hone, hpair⟩ := hu
  have happart : live.Pairwise FileAnalysisSnapshot.Apart := hpair.imp fun hdis => apart_of_keys_disjoint hdis
  refine ⟨List.nodup_flatMap.2 ⟨fun s hs => ?_, happart.imp And.left⟩,
    List.nodup_flatMap.2 ⟨fun s hs => ?_, happart.imp And.right⟩⟩
  · exact ((keysUnique_rows_iff s).1 (hone s hs)).1
  · exact ((keysUnique_rows_iff s).1 (hone s hs)).2.1

/-- With unique final ids and nothing held inside the batch, every insertion finds its ids free. -/
theorem admissible_of_noneHeld (hid : ∀ entry ∈ entries, entry.2.id = entry.1.id)
    (hnd : (entries.map (·.1.id)).Nodup) (hunique : UniqueIds (finalSnapshots live entries))
    (hheld : NoneHeld live entries) : Admissible live entries := by
  induction entries generalizing live with
  | nil => trivial
  | cons entry entries ih =>
    have hentry := hid entry List.mem_cons_self
    have hrest : ∀ e ∈ entries, e.2.id = e.1.id := fun e he => hid e (List.mem_cons_of_mem _ he)
    rw [List.map_cons, List.nodup_cons] at hnd
    refine ⟨fun other ho hne => ?_, ih hrest hnd.2 ?_ fun e he e' he' hne old hold holdid => ?_⟩
    · by_cases hlater : ∃ e ∈ entries, e.1.id = other.id
      · obtain ⟨e, he, heid⟩ := hlater
        exact hheld entry List.mem_cons_self e (List.mem_cons_of_mem _ he) (by rw [heid, ← hentry]; exact hne)
          other ho heid.symm
      · have hkept : other ∈ live.filter fun s => (entry :: entries).all fun e => e.1.id ≠ s.id := by
          refine List.mem_filter.2 ⟨ho, List.all_eq_true.2 fun e he => decide_eq_true ?_⟩
          rcases List.mem_cons.1 he with rfl | he
          · rw [← hentry]; exact hne.symm
          · exact fun heid => hlater ⟨e, he, heid⟩
        exact hunique.apart hkept (List.mem_map_of_mem List.mem_cons_self)
    · rw [finalSnapshots_commitLive hentry hnd.1]
      exact hunique
    · rcases List.mem_append.1 hold with hold | hold
      · exact hheld e (List.mem_cons_of_mem _ he) e' (List.mem_cons_of_mem _ he') hne old
          (List.mem_filter.1 hold).1 holdid
      · rw [List.mem_singleton.1 hold, hentry] at holdid
        exact absurd (holdid ▸ List.mem_map_of_mem he') hnd.1

end

/-! ## The order of the entries -/

/-- One index content, up to the order of rows inside the fact tables. -/
structure IndexStore.Same (a b : IndexStore) : Prop where
  facts : a.facts.Perm b.facts
  others : { a with facts := [] } = { b with facts := [] }

section
variable {store : IndexStore} {live : List FileAnalysisSnapshot} {entries : List BatchEntry}

theorem batchStatements_frame {store' : IndexStore}
    (hrun : runStatements (batchStatements entries) store = .ok store') :
    { store' with facts := [] } = { store with facts := [] } := by
  induction entries generalizing store with
  | nil => cases hrun; rfl
  | cons entry entries ih =>
    rw [batchStatements, List.flatMap_cons, runStatements_append, runStatements_append, deleteFileOwnedFacts_run,
      bind_eq_ok_iff] at hrun
    obtain ⟨middle, hmiddle, hrest⟩ := hrun
    obtain ⟨-, -, -, rfl⟩ := insertSnapshot_ok_iff.1 hmiddle
    exact (ih hrest).trans rfl

/-- A committed batch leaves the final snapshots. -/
theorem Holds.replaceSnapshotsBatch (h : Holds store live) (hentries : ∀ entry ∈ entries, Storable entry)
    (hnd : (entries.map (·.1.id)).Nodup)
    (hok : (store.replaceSnapshotsBatch Disk.sound entries).1 = .ok ()) :
    Holds (store.replaceSnapshotsBatch Disk.sound entries).2 (finalSnapshots live entries) := by
  rw [← foldl_commitLive (fun entry he => (hentries entry he).id) hnd]
  exact h.batch (replaceSnapshotsBatch_ok hok).2

theorem replaceSnapshotsBatch_same {entries' : List BatchEntry} (h : Holds store live)
    (hentries : ∀ entry ∈ entries, Storable entry) (hnd : (entries.map (·.1.id)).Nodup)
    (p : entries'.Perm entries) (hok : (store.replaceSnapshotsBatch Disk.sound entries).1 = .ok ())
    (hok' : (store.replaceSnapshotsBatch Disk.sound entries').1 = .ok ()) :
    (store.replaceSnapshotsBatch Disk.sound entries').2.Same (store.replaceSnapshotsBatch Disk.sound entries).2 := by
  have hentries' : ∀ entry ∈ entries', Storable entry := fun entry he => hentries entry (p.subset he)
  have hnd' : (entries'.map (·.1.id)).Nodup := ((p.map _).nodup_iff).2 hnd
  have hfinal := h.replaceSnapshotsBatch hentries hnd hok
  have hfinal' := h.replaceSnapshotsBatch hentries' hnd' hok'
  refine ⟨?_, ?_⟩
  · rw [hfinal.facts, hfinal'.facts]
    exact (finalSnapshots_perm p).flatMap_right _
  · rw [batchStatements_frame (replaceSnapshotsBatch_ok hok).2, batchStatements_frame (replaceSnapshotsBatch_ok hok').2]

/-- An entry that comes before the unit whose old ids it uses is refused. -/
theorem not_admissible_of_held {entry other : BatchEntry} {old : FileAnalysisSnapshot}
    (hid : entry.2.id = entry.1.id) (hne : other.1.id ≠ entry.1.id) (hold : old ∈ live) (holdid : old.id = other.1.id)
    (hmeet : ¬ old.Apart entry.2) : ¬ Admissible live (entry :: entries) := by
  rintro ⟨hapart, -⟩
  exact hmeet (hapart old hold (by rw [holdid, hid]; exact hne))

end

/-- **Order.** For entries over distinct units, each storable on its own: every order of the batch
gives the same outcome and content, and commits exactly when the final ids are unique, if and only
if the final ids clash or no entry uses an id that another unit of the batch held before. -/
theorem replaceSnapshotsBatch_order_free_iff {store : IndexStore} {live : List FileAnalysisSnapshot}
    (hstore : Holds store live) {entries : List BatchEntry} (hnd : (entries.map (·.1.id)).Nodup)
    (hacceptable : ∀ entry ∈ entries, Acceptable entry) :
    ((∀ entries' : List BatchEntry, entries'.Perm entries →
        (store.replaceSnapshotsBatch Disk.sound entries').1 = (store.replaceSnapshotsBatch Disk.sound entries).1 ∧
        (store.replaceSnapshotsBatch Disk.sound entries').2.Same (store.replaceSnapshotsBatch Disk.sound entries).2) ∧
      ((store.replaceSnapshotsBatch Disk.sound entries).1 = .ok () ↔ UniqueIds (finalSnapshots live entries))) ↔
    (UniqueIds (finalSnapshots live entries) → NoneHeld live entries) := by
  have hentries : ∀ entry ∈ entries, Storable entry := fun entry he => acceptable_iff.1 (hacceptable entry he)
  have hids : ∀ entry ∈ entries, entry.2.id = entry.1.id := fun entry he => (hentries entry he).id
  -- a committed batch has unique final ids
  have hsound : ∀ es : List BatchEntry, es.Perm entries →
      (store.replaceSnapshotsBatch Disk.sound es).1 = .ok () → UniqueIds (finalSnapshots live entries) := by
    intro es p hok
    have hfinal := (hstore.replaceSnapshotsBatch (fun e he => hentries e (p.subset he))
      (((p.map _).nodup_iff).2 hnd) hok).uniqueIds
    exact ⟨((finalSnapshots_perm p).flatMap_right _).nodup_iff.1 hfinal.symbols,
      ((finalSnapshots_perm p).flatMap_right _).nodup_iff.1 hfinal.applications⟩
  constructor
  · rintro ⟨horder, hok⟩ hunique entry he other ho hne old hold holdid
    by_contra hmeet
    -- the batch with `entry` in front fails, the given order commits
    have hperm := List.perm_cons_erase he
    rcases replaceSnapshotsBatch_outcome hstore (fun e h => hentries e (hperm.symm.subset h)) with hout | hout
    · exact not_admissible_of_held (hids entry he) hne hold holdid hmeet hout.1
    · have := (horder _ hperm.symm).1
      rw [hok.2 hunique, hout.2] at this
      cases this
  · intro hheld
    have houtcome : ∀ es : List BatchEntry, es.Perm entries →
        ((store.replaceSnapshotsBatch Disk.sound es).1 = .ok () ∧ UniqueIds (finalSnapshots live entries)) ∨
        ((store.replaceSnapshotsBatch Disk.sound es).1 = .error (.sqlite .constraint) ∧
          ¬ UniqueIds (finalSnapshots live entries)) := by
      intro es p
      have hes : ∀ e ∈ es, Storable e := fun e h => hentries e (p.subset h)
      rcases replaceSnapshotsBatch_outcome hstore hes with ⟨-, hok⟩ | ⟨hnot, herr⟩
      · exact .inl ⟨hok, hsound es p hok⟩
      · refine .inr ⟨herr, fun hunique => hnot ?_⟩
        refine admissible_of_noneHeld (fun e h => (hes e h).id) (((p.map _).nodup_iff).2 hnd) ?_ ?_
        · exact ⟨((finalSnapshots_perm p).flatMap_right _).nodup_iff.2 hunique.symbols,
            ((finalSnapshots_perm p).flatMap_right _).nodup_iff.2 hunique.applications⟩
        · exact fun e h o h' => hheld hunique e (p.subset h) o (p.subset h')
    refine ⟨fun entries' p => ?_, ?_⟩
    · rcases houtcome entries (.refl _) with ⟨hok, hu⟩ | ⟨herr, hu⟩ <;>
        rcases houtcome entries' p with ⟨hok', hu'⟩ | ⟨herr', hu'⟩
      · exact ⟨hok'.trans hok.symm, replaceSnapshotsBatch_same hstore hentries hnd p hok hok'⟩
      · exact absurd hu hu'
      · exact absurd hu' hu
      · rw [replaceSnapshotsBatch_error herr, replaceSnapshotsBatch_error herr', herr, herr']
        exact ⟨rfl, .refl _, rfl⟩
    · rcases houtcome entries (.refl _) with ⟨hok, hu⟩ | ⟨herr, hu⟩
      · exact ⟨fun _ => hu, fun _ => hok⟩
      · exact ⟨fun h => absurd (h.symm.trans herr) (by simp), fun h => absurd h hu⟩

/-! ## A symbol that moves to another file -/

def declaring (source : SourceUnit) (names : List String) : FileAnalysisSnapshot :=
  { emptySnapshot source with symbols := names.map (sampleSymbol source) }

/-- `Service` is declared in `A.kt`. -/
def moveStore : IndexStore :=
  (({} : IndexStore).replaceSnapshotsBatch Disk.sound
    [(sampleUnit "A.kt" "sha256:a1", declaring (sampleUnit "A.kt" "sha256:a1") ["Service"])]).2

/-- The batch that finds `Service` in `B.kt`, this file first. -/
def moveBatch : List BatchEntry :=
  [(sampleUnit "B.kt" "sha256:b2", declaring (sampleUnit "B.kt" "sha256:b2") ["Service"]),
    (sampleUnit "A.kt" "sha256:a2", declaring (sampleUnit "A.kt" "sha256:a2") [])]

theorem moveStore_holds : Holds moveStore [declaring (sampleUnit "A.kt" "sha256:a1") ["Service"]] := by
  have hentries : ∀ entry ∈ [(sampleUnit "A.kt" "sha256:a1", declaring (sampleUnit "A.kt" "sha256:a1") ["Service"])],
      Storable entry := fun entry he => acceptable_iff.1 (by rw [List.mem_singleton.1 he]; rfl)
  exact (Holds.empty {}).replaceSnapshotsBatch hentries (by simp) rfl

theorem moveBatch_acceptable : ∀ entry ∈ moveBatch, Acceptable entry := by
  intro entry he
  rcases List.mem_cons.1 he with rfl | he
  · rfl
  · rw [List.mem_singleton.1 he]; rfl

theorem moveBatch_nodup : (moveBatch.map (·.1.id)).Nodup := by decide

/-- The final ids are unique, one order fails and the other commits. -/
theorem moveBatch_depends_on_order :
    Holds moveStore [declaring (sampleUnit "A.kt" "sha256:a1") ["Service"]] ∧
      (moveBatch.map (·.1.id)).Nodup ∧ (∀ entry ∈ moveBatch, Acceptable entry) ∧
      UniqueIds (finalSnapshots [declaring (sampleUnit "A.kt" "sha256:a1") ["Service"]] moveBatch) ∧
      (moveStore.replaceSnapshotsBatch Disk.sound moveBatch).1 = .error (.sqlite .constraint) ∧
      moveBatch.reverse.Perm moveBatch ∧
      (moveStore.replaceSnapshotsBatch Disk.sound moveBatch.reverse).1 = .ok () :=
  ⟨moveStore_holds, moveBatch_nodup, moveBatch_acceptable, ⟨by decide, by decide⟩, rfl, List.reverse_perm _, rfl⟩

theorem moveBatch_order_iff :
    ((∀ entries' : List BatchEntry, entries'.Perm moveBatch →
        (moveStore.replaceSnapshotsBatch Disk.sound entries').1 =
          (moveStore.replaceSnapshotsBatch Disk.sound moveBatch).1 ∧
        (moveStore.replaceSnapshotsBatch Disk.sound entries').2.Same
          (moveStore.replaceSnapshotsBatch Disk.sound moveBatch).2) ∧
      ((moveStore.replaceSnapshotsBatch Disk.sound moveBatch).1 = .ok () ↔
        UniqueIds (finalSnapshots [declaring (sampleUnit "A.kt" "sha256:a1") ["Service"]] moveBatch))) ↔
    (UniqueIds (finalSnapshots [declaring (sampleUnit "A.kt" "sha256:a1") ["Service"]] moveBatch) →
      NoneHeld [declaring (sampleUnit "A.kt" "sha256:a1") ["Service"]] moveBatch) :=
  replaceSnapshotsBatch_order_free_iff moveStore_holds moveBatch_nodup moveBatch_acceptable

end Kide
