import Kide.Store.Migrations
import Mathlib.Data.List.Nodup

/-!
# Migrations that stop halfway

Where a stopped `migrate` is run again, the steps before the one it was stopped in have nothing left to
do (`migrate_lasting`). That one goes on as before, unless it has added a column and not recorded its
version: `ALTER TABLE .. ADD COLUMN` is no statement to run twice.
-/

namespace Kide.Migrations
open Transactions Sql Restart Checks

/-- A migration has added its column and is not recorded. -/
def HalfApplied (d : Database) : Prop :=
  ∃ m ∈ migrations, recorded d m.version = false ∧
    ∃ table added more, m.batch = .addColumn table added :: more ∧ ∃ t, d.tables table = some t ∧ t.has added.name = true

/-! ## Batches -/

/-- The kinds of batches there are. -/
inductive BatchKind : List SqlStatement → Prop
  | creations {batch : List SqlStatement} (h : ∀ stmt ∈ batch, stmt.creates = true) : BatchKind batch
  | adds (table : String) (added : Column) (more : List SqlStatement) (htable : table ∉ filled)
      (hadded : added.name ≠ "snapshot_json") : BatchKind (.addColumn table added :: more)
  | copies : BatchKind MIGRATION_15

theorem batchKind {m : Migration} (hm : m ∈ migrations) : BatchKind m.batch := by
  unfold migrations at hm
  simp only [List.mem_cons, List.not_mem_nil, or_false] at hm
  rcases hm with rfl | rfl | rfl | rfl | rfl | rfl | rfl | rfl | rfl | rfl | rfl | rfl | rfl | rfl
  · exact .adds _ _ _ (by decide) (by decide)
  · exact .creations (by decide)
  · exact .creations (by decide)
  · exact .creations (by decide)
  · exact .creations (by decide)
  · exact .creations (by decide)
  · exact .adds _ _ _ (by decide) (by decide)
  · exact .creations (by decide)
  · exact .creations (by decide)
  · exact .creations (by decide)
  · exact .creations (by decide)
  · exact .adds _ _ _ (by decide) (by decide)
  · exact .adds _ _ _ (by decide) (by decide)
  · exact .copies

theorem migration_version_inj {m m' : Migration} (hm : m ∈ migrations) (hm' : m' ∈ migrations) (h : m.version = m'.version) :
    m = m' :=
  List.inj_on_of_nodup_map (by decide : (migrations.map Migration.version).Nodup) hm hm' h

theorem migration_version_ne {m : Migration} (hm : m ∈ migrations) : m.version ≠ 1 :=
  (by decide : ∀ m ∈ migrations, m.version ≠ 1) m hm

/-! ## What is not recorded -/

theorem not_recorded {d : Database} {k : Nat} : recorded d k = false ↔
    ∀ t, d.tables "schema_migrations" = some t → ∀ row ∈ t.rows, row "version" ≠ .integer k := by
  rw [← Bool.not_eq_true, recorded_iff]
  push Not
  rfl

/-- A statement that leaves the versions' table alone records nothing. -/
theorem exec_not_recorded {stmt : SqlStatement} {d d' : Database} {k : Nat} (hrun : stmt.exec d = .ok d')
    (hfills : stmt.fills ≠ some "schema_migrations") (hrewrites : stmt.rewrites ≠ some "schema_migrations")
    (h : recorded d k = false) : recorded d' k = false := by
  refine not_recorded.2 fun t' ht' row hrow => ?_
  cases ht : d.tables "schema_migrations" with
  | none =>
    obtain ⟨columns, primaryKey, -, rfl⟩ := exec_new_table hrun ht ht'
    cases hrow
  | some t =>
    obtain rfl := Option.some.inj ((exec_frame hrun ht hfills hrewrites).symm.trans ht')
    exact not_recorded.1 h t ht row hrow

theorem insertVersion_not_recorded {orIgnore : Bool} {j k : Nat} {d d' : Database} (hrun : (insertVersion orIgnore j).exec d = .ok d')
    (hne : j ≠ k) (h : recorded d k = false) : recorded d' k = false := by
  unfold insertVersion at hrun
  cases exec_eq_ok_iff.1 hrun with
  | @inserted _ _ _ t ht =>
    refine not_recorded.2 fun t' ht' row hrow => ?_
    rw [put_tables_self] at ht'
    cases ht'
    rcases List.mem_append.1 hrow with hold | hnew
    · exact not_recorded.1 h t ht row hold
    · obtain rfl := List.mem_singleton.1 hnew
      intro hversion
      have hsame : Value.integer j = Value.integer k := hversion
      injection hsame with hsame
      exact hne (Int.ofNat.inj hsame)
  | ignored => exact h

/-- A batch leaves the versions' table alone. -/
theorem batch_quiet {m : Migration} (hm : m ∈ migrations) {stmt : SqlStatement} (hstmt : stmt ∈ m.batch) :
    stmt.fills ≠ some "schema_migrations" ∧ stmt.rewrites ≠ some "schema_migrations" := by
  have htame := batches_tame m hm stmt hstmt
  unfold Tame at htame
  simp only [Bool.and_eq_true] at htame
  obtain ⟨⟨hrewrites, hfills⟩, -⟩ := htame
  constructor
  · intro h
    rw [h] at hfills
    exact absurd (of_decide_eq_true hfills) (by decide)
  · intro h
    rw [h] at hrewrites
    exact absurd (of_decide_eq_true hrewrites) (by decide)

theorem creates_quiet {stmt : SqlStatement} (h : stmt.creates = true) : stmt.fills = none ∧ stmt.rewrites = none := by
  cases stmt with
  | createTable name columns primaryKey => exact ⟨rfl, rfl⟩
  | createIndex index => exact ⟨rfl, rfl⟩
  | _ => cases h

theorem batch_not_recorded {m : Migration} (hm : m ∈ migrations) {stmts : List SqlStatement} (hstmts : ∀ stmt ∈ stmts, stmt ∈ m.batch)
    {d d' : Database} {k : Nat} (hrun : runStatements (stmts.map sqlite) d = .ok d') (h : recorded d k = false) :
    recorded d' k = false := by
  refine runStatements_keeps (I := fun e => recorded e k = false) ?_ hrun h
  intro stmt hstmt e e' hexec he
  obtain ⟨issued, hissued, rfl⟩ := List.mem_map.1 hstmt
  obtain ⟨hfills, hrewrites⟩ := batch_quiet hm (hstmts issued hissued)
  exact exec_not_recorded (sqlite_eq_ok_iff.1 hexec) hfills hrewrites he

/-- Only the step of a migration records it. -/
theorem step_not_recorded {m : Migration} (hm : m ∈ migrations) {p : Step Database MigrateError} (hp : p ∈ migrate)
    (hne : p ≠ migration m) {d t t' : Database} {stmt : Statement Database MigrateError} (hstmt : stmt ∈ p.part d)
    (hrun : stmt t = .ok t') (h : recorded t m.version = false) : recorded t' m.version = false := by
  rcases mem_migrate hp with ⟨first, hfirst, rfl⟩ | rfl | rfl | ⟨other, hother, rfl⟩
  · obtain rfl := List.mem_singleton.1 hstmt
    obtain ⟨hfills, hrewrites⟩ := creates_quiet (migration_1_creates first hfirst)
    exact exec_not_recorded (sqlite_eq_ok_iff.1 hrun) (by rw [hfills]; exact fun h => (nomatch h))
      (by rw [hrewrites]; exact fun h => (nomatch h)) h
  · unfold formatCheck at hstmt
    dsimp only at hstmt
    split at hstmt
    · split at hstmt
      · cases hstmt
      · obtain rfl := List.mem_singleton.1 hstmt
        cases hrun
    · obtain rfl := List.mem_singleton.1 hstmt
      cases hrun
    · obtain rfl := List.mem_singleton.1 hstmt
      exact exec_not_recorded (sqlite_eq_ok_iff.1 hrun) (by decide) (fun h => (nomatch h)) h
  · obtain rfl := List.mem_singleton.1 hstmt
    exact insertVersion_not_recorded (sqlite_eq_ok_iff.1 hrun) (migration_version_ne hm).symm h
  · unfold migration at hstmt
    dsimp only at hstmt
    split at hstmt
    · cases hstmt
    rcases List.mem_append.1 hstmt with hbatch | hversion
    · obtain ⟨issued, hissued, rfl⟩ := List.mem_map.1 hbatch
      obtain ⟨hfills, hrewrites⟩ := batch_quiet hother hissued
      exact exec_not_recorded (sqlite_eq_ok_iff.1 hrun) hfills hrewrites h
    · obtain rfl := List.mem_singleton.1 hversion
      refine insertVersion_not_recorded (sqlite_eq_ok_iff.1 hrun) (fun hversion => hne ?_) h
      rw [migration_version_inj hother hm hversion]

/-! ## Stuck halfway -/

theorem part_carried {p : Step Database MigrateError} (hp : p ∈ migrate) {d t t' : Database} {stmt : Statement Database MigrateError}
    (hstmt : stmt ∈ p.part d) (hrun : stmt t = .ok t') : Carried t t' := by
  rcases part_issued hp hstmt with ⟨issued, hissued, rfl⟩ | hfails
  · exact hissued.carried (sqlite_eq_ok_iff.1 hrun)
  · exact absurd hrun (hfails t t')

theorem Carried.has {d d' : Database} {table added : String} (h : Carried d d') (htable : table ∉ filled)
    (hadded : added ≠ "snapshot_json") (hhas : ∃ t, d.tables table = some t ∧ t.has added = true) :
    ∃ t, d'.tables table = some t ∧ t.has added = true := by
  obtain ⟨t, ht, hcolumn⟩ := hhas
  obtain ⟨t', ht', hkept⟩ := h table t htable ht
  exact ⟨t', ht', hkept.columns added hcolumn hadded⟩

/-- A half applied migration is never finished. -/
theorem HalfApplied.stuck {d : Database} (h : HalfApplied d) (d' : Database) : runSteps migrate d ≠ .ok d' := by
  obtain ⟨m, hm, hmissing, table, added, more, hbatch, hhas⟩ := h
  have hkind := batchKind hm
  rw [hbatch] at hkind
  obtain ⟨htable, hadded⟩ : table ∉ filled ∧ added.name ≠ "snapshot_json" := by
    generalize hb : SqlStatement.addColumn table added :: more = batch at hkind
    cases hkind with
    | creations h =>
      subst hb
      exact absurd (h _ List.mem_cons_self) (fun h => (nomatch h))
    | adds table' added' more' htable hadded =>
      cases hb
      exact ⟨htable, hadded⟩
    | copies => cases hb
  obtain ⟨before, later, hsplit, hnot⟩ := List.eq_append_cons_of_mem (migration_mem hm)
  have hmem : ∀ p ∈ before, p ∈ migrate := by
    intro p hp
    rw [hsplit]
    exact List.mem_append_left _ hp
  intro hrun
  rw [hsplit, runSteps_append] at hrun
  obtain ⟨e, hbefore, hrest⟩ := bind_eq_ok_iff.1 hrun
  -- the steps before it change nothing about it
  have hkept : recorded e m.version = false ∧ ∃ t, e.tables table = some t ∧ t.has added.name = true := by
    clear hrest hrun hsplit
    induction before generalizing d with
    | nil =>
      cases hbefore
      exact ⟨hmissing, hhas⟩
    | cons p before ih =>
      rw [runSteps_cons] at hbefore
      obtain ⟨f, hp, hbefore⟩ := bind_eq_ok_iff.1 hbefore
      have hpmem := hmem p List.mem_cons_self
      have hpne : p ≠ migration m := fun heq => hnot (heq ▸ List.mem_cons_self)
      obtain ⟨hmissing', hhas'⟩ : recorded f m.version = false ∧ ∃ t, f.tables table = some t ∧ t.has added.name = true := by
        refine runStatements_keeps (I := fun g => recorded g m.version = false ∧ ∃ t, g.tables table = some t ∧ t.has added.name = true)
          ?_ hp ⟨hmissing, hhas⟩
        rintro stmt hstmt g g' hg ⟨hgmissing, hghas⟩
        exact ⟨step_not_recorded hm hpmem hpne hstmt hg hgmissing, (part_carried hpmem hstmt hg).has htable hadded hghas⟩
      exact ih hmissing' hhas' (fun h => hnot (List.mem_cons_of_mem _ h)) (fun q hq => hmem q (List.mem_cons_of_mem _ hq)) hbefore
  obtain ⟨hunrecorded, t, ht, hcolumn⟩ := hkept
  rw [runSteps_cons] at hrest
  obtain ⟨f, hstep, -⟩ := bind_eq_ok_iff.1 hrest
  unfold Step.run migration at hstep
  dsimp only at hstep
  rw [if_neg (by rw [hunrecorded]; exact Bool.false_ne_true), hbatch, List.map_cons, List.cons_append, runStatements_cons] at hstep
  obtain ⟨g, hadd, -⟩ := bind_eq_ok_iff.1 hstep
  cases exec_eq_ok_iff.1 (sqlite_eq_ok_iff.1 hadd) with
  | columnAdded htable hnew =>
    obtain rfl := Option.some.inj (ht.symm.trans htable)
    exact hnew hcolumn

/-! ## Going on -/

theorem creations_present {stmts : List SqlStatement} (hcreates : ∀ stmt ∈ stmts, stmt.creates = true) {d d' : Database}
    (hrun : runStatements (stmts.map sqlite) d = .ok d') : ∀ stmt ∈ stmts, stmt.Present d' := by
  induction stmts generalizing d with
  | nil => exact fun stmt h => (nomatch h)
  | cons first stmts ih =>
    rw [List.map_cons, runStatements_cons] at hrun
    obtain ⟨e, hfirst, hrest⟩ := bind_eq_ok_iff.1 hrun
    have hothers : ∀ stmt ∈ stmts, stmt.creates = true := fun stmt h => hcreates stmt (List.mem_cons_of_mem _ h)
    rintro stmt (_ | ⟨_, hstmt⟩)
    · have hhere := present_of_exec (hcreates first List.mem_cons_self) (sqlite_eq_ok_iff.1 hfirst)
      refine runStatements_keeps (I := first.Present) ?_ hrest hhere
      intro other hother f f' hf hfpresent
      obtain ⟨issued, hissued, rfl⟩ := List.mem_map.1 hother
      have hext := @exec_extends [] issued f f' (sqlite_eq_ok_iff.1 hf) fun table htable => by
        rw [(creates_quiet (hothers issued hissued)).2] at htable
        cases htable
      exact hext.present hfpresent
    · exact ih hothers hrest stmt hstmt

/-- Creations that have run find nothing left to do. -/
theorem creations_again {stmts : List SqlStatement} (hcreates : ∀ stmt ∈ stmts, stmt.creates = true) {d d' : Database}
    (hrun : runStatements (stmts.map sqlite) d = .ok d') : runStatements (stmts.map sqlite) d' = .ok d' := by
  have hpresent := creations_present hcreates hrun
  clear hrun
  induction stmts with
  | nil => rfl
  | cons first stmts ih =>
    rw [List.map_cons, runStatements_cons, sqlite_eq_ok_iff.2 (exec_of_present (hpresent first List.mem_cons_self))]
    exact ih (fun stmt h => hcreates stmt (List.mem_cons_of_mem _ h)) fun stmt h => hpresent stmt (List.mem_cons_of_mem _ h)

/-- The provenances that migration 15 copies, as rows of the new table. -/
def copied (t s : Table) : List Row := selected t s ["source_unit_id", "provenance_blob"] "provenance_blob"

theorem copied_id {t s : Table} : (copied t s).map (fun row => row "source_unit_id") =
    (s.rows.filter fun row => decide (row "provenance_blob" ≠ .null)).map fun row => row "source_unit_id" := by
  unfold copied selected
  rw [List.map_map]
  rfl

theorem copied_apart {d : Database} (hd : Sane d) {t s : Table} (hs : d.tables "source_snapshots" = some s)
    (hkey : t.primaryKey = ["source_unit_id"]) :
    (copied t s).Pairwise (fun row other => t.conflicts other row = false) ∧ ∀ row ∈ copied t s, t.conflicts row row = true := by
  obtain ⟨-, hnodup, hnull⟩ := hd.units s hs
  have hids : ((copied t s).map fun row => row "source_unit_id").Sublist (unitIds s) := by
    rw [copied_id]
    exact List.filter_sublist.map _
  have hconflicts : ∀ row other, t.conflicts row other =
      (decide (row "source_unit_id" ≠ .null) && decide (row "source_unit_id" = other "source_unit_id")) := by
    intro row other
    unfold Table.conflicts
    rw [hkey]
    simp
  constructor
  · have hpairwise : (copied t s).Pairwise fun row other => row "source_unit_id" ≠ other "source_unit_id" :=
      List.pairwise_map.1 (hids.nodup hnodup)
    refine hpairwise.imp fun {row other} hne => ?_
    rw [hconflicts, decide_eq_false hne.symm, Bool.and_false]
  · intro row hrow
    rw [hconflicts, decide_eq_true rfl, Bool.and_true]
    refine decide_eq_true fun hrowNull => hnull (hids.subset ?_)
    rw [← hrowNull]
    exact List.mem_map_of_mem hrow

def copyProvenance : SqlStatement :=
  .replaceFrom "source_provenance" "source_snapshots" ["source_unit_id", "provenance_blob"] "provenance_blob"

/-- Copying the provenances twice is copying them once. -/
theorem copy_again {d d' : Database} (hd : Sane d) (hrun : copyProvenance.exec d = .ok d') : copyProvenance.exec d' = .ok d' := by
  obtain ⟨t, s, ht, hs, hhas, hadmits, rfl⟩ := exec_replaceFrom_iff.1 hrun
  obtain ⟨hapart, hself⟩ := copied_apart hd hs (Prod.mk.inj (hd.provenances t ht)).2
  refine exec_replaceFrom_iff.2 ⟨_, s, put_tables_self, (put_tables_ne (by decide)).trans hs, hhas, hadmits, Eq.symm (put_eq_iff.2 ?_)⟩
  rw [put_tables_self]
  exact congrArg (fun rows => some { t with rows := rows }) (replaceAll_idem t hapart hself t.rows).symm

theorem runStatements_pair {first second : SqlStatement} {d d' : Database} :
    runStatements [sqlite first, sqlite second] d = .ok d' ↔ ∃ e, first.exec d = .ok e ∧ second.exec e = .ok d' := by
  rw [runStatements_cons, bind_eq_ok_iff]
  refine exists_congr fun e => ?_
  rw [sqlite_eq_ok_iff, runStatements_singleton, sqlite_eq_ok_iff]

def createProvenance : SqlStatement := .createTable "source_provenance" provenanceColumns ["source_unit_id"]

theorem createProvenance_issued : Issued createProvenance :=
  .batch ⟨15, MIGRATION_15⟩ (by simp [migrations]) _ List.mem_cons_self

theorem copies_again {stmts : List SqlStatement} (hstart : stmts <+: MIGRATION_15) {d d' : Database} (hd : Sane d)
    (hrun : runStatements (stmts.map sqlite) d = .ok d') : runStatements (stmts.map sqlite) d' = .ok d' := by
  have hstmts : stmts = [] ∨ stmts = [createProvenance] ∨ stmts = [createProvenance, copyProvenance] := by
    have hinits := (List.mem_inits _ _).2 hstart
    simpa [MIGRATION_15, createProvenance, copyProvenance, provenanceColumns] using hinits
  rcases hstmts with rfl | rfl | rfl
  · rfl
  · exact creations_again (by decide) hrun
  · obtain ⟨e, hcreate, hcopy⟩ := runStatements_pair.1 hrun
    refine runStatements_pair.2 ⟨d', exec_of_present ?_, copy_again (createProvenance_issued.sane hcreate hd) hcopy⟩
    obtain ⟨t, s, -, -, -, -, rfl⟩ := exec_replaceFrom_iff.1 hcopy
    exact ⟨_, put_tables_self⟩

/-- Where a migration can be stopped before it is recorded. -/
theorem stopped_batch {batch : List SqlStatement} {last : Statement Database MigrateError}
    {done rest : List (Statement Database MigrateError)} (hsplit : batch.map sqlite ++ [last] = done ++ rest) (hrest : rest ≠ []) :
    ∃ stmts more, batch = stmts ++ more ∧ done = stmts.map sqlite ∧ rest = more.map sqlite ++ [last] := by
  rcases List.append_eq_append_iff.1 hsplit with ⟨tail, hdone, htail⟩ | ⟨tail, hbatch, hlast⟩
  · cases tail with
    | nil => exact ⟨batch, [], (List.append_nil batch).symm, hdone.trans (List.append_nil _), htail.symm⟩
    | cons first tail =>
      obtain ⟨-, hnil⟩ := List.cons.inj htail
      exact absurd (List.append_eq_nil_iff.1 hnil.symm).2 hrest
  · obtain ⟨stmts, more, hall, hstmts, hmore⟩ := List.map_eq_append_iff.1 hbatch
    exact ⟨stmts, more, hall, hstmts.symm, by rw [hlast, hmore]⟩

/-- Run again in the middle of a migration, its statements do what the rest of them would have done. -/
theorem migration_goes_on {m : Migration} (hm : m ∈ migrations) {d d' : Database} (hd : Sane d)
    {done rest : List (Statement Database MigrateError)} (hpart : (migration m).part d = done ++ rest) (hrest : rest ≠ [])
    (hrun : runStatements done d = .ok d') : (migration m).run d' = runStatements rest d' ∨ HalfApplied d' := by
  have hmem : ∀ stmt ∈ done, stmt ∈ (migration m).part d := fun stmt hstmt => hpart ▸ List.mem_append_left _ hstmt
  have hcarried : ∀ {some : List (Statement Database MigrateError)}, (∀ stmt ∈ some, stmt ∈ done) → ∀ {e e' : Database},
      runStatements some e = .ok e' → Carried e e' := by
    intro some hsome e e' hsome'
    refine runStatements_keeps (I := fun f => Carried e f) ?_ hsome' (.refl e)
    intro stmt hstmt f f' hf hcarried
    exact hcarried.trans (part_carried (migration_mem hm) (hmem stmt (hsome stmt hstmt)) hf)
  unfold migration at hpart
  dsimp only at hpart
  split at hpart
  · exact absurd (List.append_eq_nil_iff.1 hpart.symm).2 hrest
  next hmissing =>
  obtain ⟨stmts, more, hbatch, rfl, rfl⟩ := stopped_batch hpart hrest
  have hstmts : ∀ stmt ∈ stmts, stmt ∈ m.batch := fun stmt hstmt => hbatch ▸ List.mem_append_left _ hstmt
  have hunrecorded := batch_not_recorded hm hstmts hrun (Bool.not_eq_true _ ▸ hmissing)
  have hagain : runStatements (stmts.map sqlite) d' = .ok d' →
      (migration m).run d' = runStatements (more.map sqlite ++ [sqlite (insertVersion false m.version)]) d' := by
    intro hsame
    unfold Step.run migration
    dsimp only
    rw [if_neg (by rw [hunrecorded]; exact Bool.false_ne_true), hbatch, List.map_append, List.append_assoc, runStatements_append, hsame]
    rfl
  have hkind := batchKind hm
  generalize hb : m.batch = batch at hkind hbatch
  cases hkind with
  | creations hcreates =>
    refine .inl (hagain (creations_again (fun stmt hstmt => hcreates stmt ?_) hrun))
    rw [hbatch]
    exact List.mem_append_left _ hstmt
  | adds table added others htable hadded =>
    cases stmts with
    | nil => exact .inl (hagain rfl)
    | cons first stmts =>
      right
      obtain ⟨rfl, -⟩ := List.cons.inj hbatch
      rw [List.map_cons, runStatements_cons] at hrun
      obtain ⟨e, hadd, hothers⟩ := bind_eq_ok_iff.1 hrun
      refine ⟨m, hm, hunrecorded, table, added, others, hb, ?_⟩
      refine (hcarried (fun stmt hstmt => List.mem_cons_of_mem _ hstmt) hothers).has htable hadded ?_
      cases exec_eq_ok_iff.1 (sqlite_eq_ok_iff.1 hadd) with
      | columnAdded => exact ⟨_, put_tables_self, by simp [Table.has]⟩
  | copies => exact .inl (hagain (copies_again ⟨more, hbatch.symm⟩ hd hrun))

/-- A step of one statement has nothing behind it when it is stopped. -/
theorem stopped_single {p : Step Database MigrateError} {d d' : Database} {done rest : List (Statement Database MigrateError)}
    (hsingle : (p.part d).length ≤ 1) (hpart : p.part d = done ++ rest) (hrest : rest ≠ []) (hrun : runStatements done d = .ok d') :
    p.run d' = runStatements rest d' := by
  have hlength := congrArg List.length hpart
  rw [List.length_append] at hlength
  have hpositive := List.length_pos_of_ne_nil hrest
  obtain rfl : done = [] := List.length_eq_zero_iff.1 (by omega)
  cases hrun
  unfold Step.run
  rw [hpart]
  rfl

/-- **Restart.** Unless a migration was left half applied, `migrate` run again after a stop ends as the
run that was not stopped; and if it was, it never ends well. -/
theorem migrate_again {d : Database} (hd : Sane d) (n : Nat) :
    runSteps migrate (stopAfter n migrate d) = runSteps migrate d ∨ HalfApplied (stopAfter n migrate d) := by
  rcases stopAfter_cases n migrate d with hall | ⟨before, p, later, e, done, rest, hsplit, hbefore, hpart, hrest, hrun⟩
  · left
    rw [hall]
    have hsane := migrate_lasting.steps_invariant (fun q hq => hq) hall hd
    exact migrate_lasting.steps_settled (fun q hq => hq) hsane (migrate_lasting.steps_done (fun q hq => hq) hall hd)
  · have hmem : ∀ q ∈ before, q ∈ migrate := by
      intro q hq
      rw [hsplit]
      exact List.mem_append_left _ hq
    have hp : p ∈ migrate := by
      rw [hsplit]
      exact List.mem_append_right _ List.mem_cons_self
    have he := migrate_lasting.steps_invariant hmem hbefore hd
    obtain ⟨hagain, hfirst⟩ := rerun_eq migrate_lasting hd hsplit hbefore hpart hrun
    have hgoes : p.run (stopAfter n migrate d) = runStatements rest (stopAfter n migrate d) ∨ HalfApplied (stopAfter n migrate d) := by
      rcases mem_migrate hp with ⟨stmt, -, rfl⟩ | rfl | rfl | ⟨m, hm, rfl⟩
      · exact .inl (stopped_single (Nat.le_refl 1) hpart hrest hrun)
      · refine .inl (stopped_single ?_ hpart hrest hrun)
        unfold formatCheck
        dsimp only
        split
        · split
          · exact Nat.zero_le _
          · exact Nat.le_refl _
        · exact Nat.le_refl _
        · exact Nat.le_refl _
      · exact .inl (stopped_single (Nat.le_refl 1) hpart hrest hrun)
      · exact migration_goes_on hm he hpart hrest hrun
    exact hgoes.imp_left fun hsame => by rw [hagain, hfirst, hsame]

end Kide.Migrations
