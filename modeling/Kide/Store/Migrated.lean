import Kide.Store.MigrationRestart

/-!
# Migrated databases

A database stored at version `v` has the schema of the first `v` migrations on no tables (`blank v`), the
versions up to `v` recorded, and any rows. `StoredAt` is carried through the migrations one by one; the
schema of a step does not depend on the rows (`exec_congr`).
-/

namespace Kide.Migrations
open Transactions Sql Restart Checks

/-! ## Stored versions -/

def batches (v : Nat) : List SqlStatement :=
  if v = 0 then [] else MIGRATION_1 ++ (migrations.filter fun m => decide (m.version ≤ v)).flatMap Migration.batch

/-- The tables of version `v`, without rows. -/
def blank (v : Nat) : Except MigrateError Database := runStatements ((batches v).map sqlite) noTables

structure StoredAt (v : Nat) (d : Database) : Prop where
  version : v ≤ 15
  schema : ∃ b, blank v = .ok b ∧ b.schema = d.schema
  recorded : ∀ k, recorded d k = true ↔ 1 ≤ k ∧ k ≤ v
  format : 0 < v → formatCheck.Done d
  units : ∀ t, d.tables "source_snapshots" = some t → (unitIds t).Nodup ∧ Value.null ∉ unitIds t

/-- A stored database also has the constraints of its columns. -/
structure Stored (v : Nat) (d : Database) : Prop extends StoredAt v d where
  admitted : ∀ t, d.tables "source_snapshots" = some t → ∀ row ∈ t.rows, t.admits row = true

/-- Where the snapshot of a row is read from: its JSON, then the provenance beside it, then the provenance
in a table of its own as well. -/
def Readable (d : Database) (row : Row) : Prop :=
  match d.tables "source_provenance" with
  | some t => row "provenance_blob" ≠ .null ∧
      ∃ provenance ∈ t.rows, provenance "source_unit_id" = row "source_unit_id" ∧ provenance "provenance_blob" = row "provenance_blob"
  | none =>
    match d.tables "source_snapshots" with
    | some s => if s.has "provenance_blob" then row "provenance_blob" ≠ .null else row "snapshot_json" ≠ .null
    | none => False

/-- The current schema, with every row carried over and every snapshot as readable as before. -/
structure Migrated (d d' : Database) : Prop where
  schema : ∃ b, blank 15 = .ok b ∧ b.schema = d'.schema
  carried : Carried d d'
  readable : ∀ s s', d.tables "source_snapshots" = some s → d'.tables "source_snapshots" = some s' →
    List.Forall₂ (fun row row' => Readable d row → Readable d' row') s.rows s'.rows

/-! ### The schemas -/

theorem batches_issued {v : Nat} : ∀ stmt ∈ batches v, Issued stmt := by
  intro stmt hstmt
  unfold batches at hstmt
  split at hstmt
  · cases hstmt
  rcases List.mem_append.1 hstmt with h | h
  · exact .first stmt h
  · obtain ⟨m, hm, hbatch⟩ := List.mem_flatMap.1 h
    exact .batch m (List.mem_filter.1 hm).1 stmt hbatch

theorem batches_succ {m : Migration} (hm : m ∈ migrations) {u : Nat} (h : m.version = u + 1) :
    batches (u + 1) = batches u ++ m.batch := by
  unfold migrations at hm
  simp only [List.mem_cons, List.not_mem_nil, or_false] at hm
  rcases hm with rfl | rfl | rfl | rfl | rfl | rfl | rfl | rfl | rfl | rfl | rfl | rfl | rfl | rfl
  all_goals
    injection h with h
    subst h
    rfl

/-- A table of a blank database and one of its columns. -/
def blankHas (v : Nat) (table column : String) : Bool :=
  match blank v with
  | .ok b => (b.tables table).any fun t => t.has column
  | .error _ => false

def blankColumns (v : Nat) (table : String) : List Column :=
  match blank v with
  | .ok b => ((b.tables table).map Table.columns).getD []
  | .error _ => []

def blankTable (v : Nat) (table : String) : Bool :=
  match blank v with
  | .ok b => (b.tables table).isSome
  | .error _ => false

theorem blank_ok {v : Nat} (h : v ≤ 15) : ∃ b, blank v = .ok b := by
  have hall : ∀ v ≤ 15, (match blank v with | .ok _ => true | .error _ => false) = true := by decide
  have hv := hall v h
  split at hv
  · next b hb => exact ⟨b, hb⟩
  · cases hv

theorem blank_sane {v : Nat} {b : Database} (h : blank v = .ok b) : Sane b := by
  refine runStatements_keeps (I := Sane) ?_ h ⟨fun _ h => (nomatch h), fun _ h => (nomatch h), fun _ h => (nomatch h)⟩
  intro stmt hstmt d d' hrun hd
  obtain ⟨issued, hissued, rfl⟩ := List.mem_map.1 hstmt
  exact (batches_issued issued hissued).sane (sqlite_eq_ok_iff.1 hrun) hd

section Stored
variable {v : Nat} {d : Database}

theorem StoredAt.sane (h : StoredAt v d) : Sane d := by
  obtain ⟨b, hb, hschema⟩ := h.schema
  have hsane := blank_sane hb
  refine ⟨fun t ht => ?_, fun t ht => ?_, fun t ht => ?_⟩
  · obtain ⟨u, hu, hshape⟩ := schema_some hschema.symm ht
    exact hshape.trans (hsane.versions u hu)
  · obtain ⟨u, hu, hshape⟩ := schema_some hschema.symm ht
    exact hshape.trans (hsane.provenances u hu)
  · obtain ⟨u, hu, hshape⟩ := schema_some hschema.symm ht
    rw [shape_has hshape]
    exact ⟨(hsane.units u hu).1, h.units t ht⟩

theorem StoredAt.has (h : StoredAt v d) {table column : String} (hhas : blankHas v table column = true) :
    ∃ t, d.tables table = some t ∧ t.has column = true := by
  obtain ⟨b, hb, hschema⟩ := h.schema
  unfold blankHas at hhas
  rw [hb] at hhas
  obtain ⟨u, hu, hcolumn⟩ := (Option.any_eq_true _ _).1 hhas
  obtain ⟨t, ht, hshape⟩ := schema_some hschema hu
  exact ⟨t, ht, by rw [← shape_has hshape]; exact hcolumn⟩

theorem StoredAt.lacks (h : StoredAt v d) {table column : String} (hhas : blankHas v table column = false) {t : Table}
    (ht : d.tables table = some t) : t.has column = false := by
  obtain ⟨b, hb, hschema⟩ := h.schema
  obtain ⟨u, hu, hshape⟩ := schema_some hschema.symm ht
  unfold blankHas at hhas
  rw [hb] at hhas
  simp only [hu, Option.any_some] at hhas
  rw [shape_has hshape, hhas]

theorem StoredAt.columns (h : StoredAt v d) {table : String} {t : Table} (ht : d.tables table = some t) :
    t.columns = blankColumns v table := by
  obtain ⟨b, hb, hschema⟩ := h.schema
  obtain ⟨u, hu, hshape⟩ := schema_some hschema.symm ht
  unfold blankColumns
  rw [hb]
  simp only [hu, Option.map_some, Option.getD_some]
  exact shape_columns hshape

theorem StoredAt.no_table (h : StoredAt v d) {table : String} (hnone : blankTable v table = false) : d.tables table = none := by
  obtain ⟨b, hb, hschema⟩ := h.schema
  unfold blankTable at hnone
  rw [hb] at hnone
  refine schema_none hschema ?_
  simpa using hnone

/-! ## The first steps -/

def firstSteps : List (Step Database MigrateError) := MIGRATION_1.map creation ++ [formatCheck, firstVersion]

theorem firstSteps_mem {p : Step Database MigrateError} (h : p ∈ firstSteps) : p ∈ migrate := List.mem_append_left _ h

theorem migrate_split : migrate = firstSteps ++ migrations.map migration := rfl

/-- A statement that any version has run leaves what it creates. -/
theorem StoredAt.present (h : StoredAt v d) (hv : 1 ≤ v) {stmt : SqlStatement} (hstmt : stmt ∈ MIGRATION_1) : stmt.Present d := by
  obtain ⟨b, hb, hschema⟩ := h.schema
  refine present_congr hschema ?_
  unfold blank batches at hb
  rw [if_neg (by omega), List.map_append, runStatements_append] at hb
  obtain ⟨e, hfirst, hrest⟩ := bind_eq_ok_iff.1 hb
  refine runStatements_keeps (I := stmt.Present) ?_ hrest (creations_present migration_1_creates hfirst stmt hstmt)
  intro other hother f f' hf hpresent
  obtain ⟨issued, hissued, rfl⟩ := List.mem_map.1 hother
  obtain ⟨m, hm, hbatch⟩ := List.mem_flatMap.1 hissued
  exact (exec_extends (sqlite_eq_ok_iff.1 hf) (Issued.batch m (List.mem_filter.1 hm).1 issued hbatch).rewrites).present hpresent

theorem StoredAt.first_steps (h : StoredAt v d) (hv : 1 ≤ v) : runSteps firstSteps d = .ok d := by
  refine migrate_lasting.steps_settled (fun p hp => firstSteps_mem hp) h.sane fun p hp => ?_
  rcases List.mem_append.1 hp with hp | hp
  · obtain ⟨stmt, hstmt, rfl⟩ := List.mem_map.1 hp
    exact h.present hv hstmt
  · rcases hp with _ | ⟨_, _ | ⟨_, ⟨⟩⟩⟩
    · exact h.format hv
    · exact (h.recorded 1).2 ⟨Nat.le_refl 1, hv⟩

theorem runSteps_creations {stmts : List SqlStatement} {d : Database} :
    runSteps (stmts.map creation) d = runStatements (stmts.map sqlite) d := by
  induction stmts generalizing d with
  | nil => rfl
  | cons first stmts ih =>
    rw [List.map_cons, List.map_cons, runSteps_cons, runStatements_cons]
    have hfirst : (creation first).run d = sqlite first d := runStatements_singleton
    rw [hfirst]
    exact congrArg _ (funext fun e => ih)

def blankRows (v : Nat) (table : String) : Bool :=
  match blank v with
  | .ok b => (b.tables table).any fun t => t.rows.isEmpty
  | .error _ => false

/-- A version that is not recorded can be. -/
theorem insertVersion_ok (orIgnore : Bool) {e : Database} (he : Sane e) {t : Table} (ht : e.tables "schema_migrations" = some t) {k : Nat}
    (hmissing : Migrations.recorded e k = false) :
    ∃ e', (insertVersion orIgnore k).exec e = .ok e' ∧ e'.schema = e.schema := by
  obtain ⟨hcolumns, hkey⟩ := Prod.mk.inj (he.versions t ht)
  have hadmits : t.admits (t.newRow [("version", .integer k)]) = true := by
    unfold Table.admits Table.newRow
    rw [hcolumns]
    rfl
  have hfree : t.rows.any (t.conflicts (t.newRow [("version", .integer k)])) = false := by
    rw [List.any_eq_false]
    intro row hrow hconflict
    refine not_recorded.1 hmissing t ht row hrow ?_
    unfold Table.conflicts at hconflict
    rw [hkey] at hconflict
    simp [Table.newRow] at hconflict
    exact hconflict.symm
  exact ⟨_, exec_insert_ok ht hadmits hfree, schema_put_rows ht _⟩

theorem formatCheck_fresh {b : Database} {metadata : Table} (hmetadata : b.tables "kide_metadata" = some metadata)
    (hcolumns : metadata.columns = [column "key", required "value"]) (hrows : metadata.rows = []) :
    ∃ e, formatCheck.run b = .ok e ∧ e.schema = b.schema ∧ ∀ name ≠ "kide_metadata", e.tables name = b.tables name := by
  have hunstored : storedVersion b = none := by
    unfold storedVersion
    rw [hmetadata, Option.bind_some, hrows]
    rfl
  refine ⟨b.put "kide_metadata" { metadata with rows := metadata.rows ++ [metadata.newRow
      [("key", .text "index_format_version"), ("value", .text (toString INDEX_FORMAT_VERSION))]] }, ?_, schema_put_rows hmetadata _,
    fun name hname => put_tables_ne hname⟩
  unfold Step.run formatCheck
  dsimp only
  rw [hunstored]
  refine runStatements_singleton.trans (sqlite_eq_ok_iff.2 (exec_insert_ok hmetadata ?_ (by rw [hrows]; rfl)))
  unfold Table.admits
  rw [hcolumns]
  rfl

/-- No tables at all: the first steps make a database of version 1. -/
theorem firstSteps_fresh : ∃ d', runSteps firstSteps noTables = .ok d' ∧ StoredAt 1 d' := by
  obtain ⟨b, hb⟩ := blank_ok (by decide : 1 ≤ 15)
  have hblank := hb
  unfold blank batches at hb
  rw [if_neg (by decide), show (migrations.filter fun m => decide (m.version ≤ 1)).flatMap Migration.batch = [] from rfl,
    List.append_nil] at hb
  have hempty : ∀ table, blankRows 1 table = true → ∃ t, b.tables table = some t ∧ t.rows = [] := by
    intro table htable
    unfold blankRows at htable
    rw [hblank] at htable
    obtain ⟨t, ht, hrows⟩ := (Option.any_eq_true _ _).1 htable
    exact ⟨t, ht, List.isEmpty_iff.1 hrows⟩
  obtain ⟨metadata, hmetadata, hnoMetadata⟩ := hempty "kide_metadata" (by decide)
  obtain ⟨versions, hversions, hnoVersions⟩ := hempty "schema_migrations" (by decide)
  obtain ⟨snapshots, hsnapshots, hnoSnapshots⟩ := hempty "source_snapshots" (by decide)
  have hcolumns : metadata.columns = [column "key", required "value"] := by
    have hall : blankColumns 1 "kide_metadata" = [column "key", required "value"] := by decide
    unfold blankColumns at hall
    rw [hblank] at hall
    simpa only [hmetadata, Option.map_some, Option.getD_some] using hall
  obtain ⟨e, hformat, hschema, hothers⟩ := formatCheck_fresh hmetadata hcolumns hnoMetadata
  rw [← hothers _ (by decide)] at hversions hsnapshots
  have hsane : Sane e := by
    have hpart : ∀ stmt ∈ formatCheck.part b, ∀ t t', stmt t = .ok t' → Sane t → Sane t' := fun stmt hstmt t t' ht hs =>
      (part_grows (firstSteps_mem (List.mem_append_right _ List.mem_cons_self)) hstmt hs ht).2.1
    exact runStatements_keeps hpart hformat (blank_sane hblank)
  have hmissing : Migrations.recorded e 1 = false := by
    refine not_recorded.2 fun t ht row hrow => ?_
    obtain rfl := Option.some.inj (hversions.symm.trans ht)
    rw [hnoVersions] at hrow
    cases hrow
  obtain ⟨d', hversion, hschema'⟩ := insertVersion_ok true hsane hversions hmissing
  refine ⟨d', ?_, by decide, ⟨b, hblank, (hschema'.trans hschema).symm⟩, fun k => ⟨fun hk => ?_, ?_⟩, fun _ => ?_, fun t ht => ?_⟩
  · unfold firstSteps
    rw [runSteps_append, runSteps_creations, hb]
    show runSteps [formatCheck, firstVersion] b = .ok d'
    rw [runSteps_cons, hformat]
    show runSteps [firstVersion] e = .ok d'
    rw [runSteps_cons, show firstVersion.run e = .ok d' from runStatements_singleton.trans (sqlite_eq_ok_iff.2 hversion)]
    rfl
  · by_contra hne
    have hk1 : (1 : Nat) ≠ k := fun heq => hne (by omega)
    have hnone : Migrations.recorded e k = false := by
      refine not_recorded.2 fun t ht row hrow => ?_
      obtain rfl := Option.some.inj (hversions.symm.trans ht)
      rw [hnoVersions] at hrow
      cases hrow
    rw [insertVersion_not_recorded hversion hk1 hnone] at hk
    cases hk
  · rintro ⟨hlow, hhigh⟩
    obtain rfl : k = 1 := by omega
    exact insertVersion_recorded hsane hversion
  · exact migrate_lasting.kept _ (firstSteps_mem (List.mem_append_right _ List.mem_cons_self)) _ _
      (exec_extends hversion (Issued.version true 1).rewrites) (formatCheck_done hformat)
  · obtain rfl := Option.some.inj ((exec_frame hversion hsnapshots (by decide) (fun h => (nomatch h))).symm.trans ht)
    unfold unitIds
    rw [hnoSnapshots]
    exact ⟨List.nodup_nil, List.not_mem_nil⟩

/-- The database of no version has no tables. -/
theorem StoredAt.fresh (h : StoredAt 0 d) : d = noTables := by
  obtain ⟨b, hb, hschema⟩ := h.schema
  cases hb
  have htables : d.tables = fun _ => none := funext fun name => schema_none hschema rfl
  have hindexes : d.indexes = [] := (schema_indexes hschema).symm
  cases d
  subst htables hindexes
  rfl

/-! ## One migration -/

theorem run_congr {stmts : List SqlStatement} (hallowed : ∀ stmt ∈ stmts, ∀ e, stmt.Allowed e) {b b' d : Database}
    (hrun : runStatements (stmts.map sqlite) b = .ok b') (hschema : b.schema = d.schema) :
    ∃ d', runStatements (stmts.map sqlite) d = .ok d' ∧ b'.schema = d'.schema := by
  induction stmts generalizing b d with
  | nil =>
    cases hrun
    exact ⟨d, rfl, hschema⟩
  | cons first stmts ih =>
    rw [List.map_cons, runStatements_cons] at hrun
    obtain ⟨c, hfirst, hrest⟩ := bind_eq_ok_iff.1 hrun
    obtain ⟨e, he, hmiddle⟩ := exec_congr (sqlite_eq_ok_iff.1 hfirst) hschema (hallowed first List.mem_cons_self d)
    obtain ⟨d', hd', hlast⟩ := ih (fun stmt hstmt => hallowed stmt (List.mem_cons_of_mem _ hstmt)) hrest hmiddle
    refine ⟨d', ?_, hlast⟩
    rw [List.map_cons, runStatements_cons, sqlite_eq_ok_iff.2 he]
    exact hd'

def plain : SqlStatement → Bool
  | .insert _ _ _ => false
  | .replaceFrom _ _ _ _ => false
  | _ => true

theorem plain_allowed {stmt : SqlStatement} (h : plain stmt = true) (e : Database) : stmt.Allowed e := by
  cases stmt with
  | insert | replaceFrom => cases h
  | _ => trivial

/-- The batch of a migration on a database of the version before. -/
theorem StoredAt.batch {u : Nat} (h : StoredAt u d) {m : Migration} (hm : m ∈ migrations) (hversion : m.version = u + 1)
    (hplain : ∀ stmt ∈ m.batch, plain stmt = true) :
    ∃ b e, blank (u + 1) = .ok b ∧ runStatements (m.batch.map sqlite) d = .ok e ∧ b.schema = e.schema := by
  obtain ⟨b, hb, hschema⟩ := h.schema
  have hle : u + 1 ≤ 15 := hversion ▸ (by decide : ∀ m ∈ migrations, m.version ≤ 15) m hm
  obtain ⟨b', hb'⟩ := blank_ok hle
  have hnext := hb'
  unfold blank at hb hb'
  rw [batches_succ hm hversion, List.map_append, runStatements_append, hb] at hb'
  obtain ⟨e, he, hschema'⟩ := run_congr (fun stmt hstmt e => plain_allowed (hplain stmt hstmt) e) hb' hschema
  exact ⟨b', e, hnext, he, hschema'⟩

/-- What is left of a migration when its batch has run. -/
theorem StoredAt.finish {u : Nat} (h : StoredAt u d) (hu : 1 ≤ u) {m : Migration} (hm : m ∈ migrations) (hversion : m.version = u + 1)
    {b e : Database} (hb : blank (u + 1) = .ok b) (hbatch : runStatements (m.batch.map sqlite) d = .ok e) (hschema : b.schema = e.schema) :
    ∃ d', (migration m).run d = .ok d' ∧ StoredAt (u + 1) d' ∧ d'.schema = e.schema ∧
      ∀ name, name ∉ ledgers → d'.tables name = e.tables name := by
  have hunrecorded : ∀ k, u < k → Migrations.recorded d k = false := by
    intro k hk
    rw [← Bool.not_eq_true, h.recorded k]
    omega
  have hmem : ∀ stmt ∈ m.batch, stmt ∈ m.batch := fun _ h => h
  have hmissing := batch_not_recorded hm hmem hbatch (hunrecorded m.version (by omega))
  have hsteps : ∀ stmt ∈ m.batch.map sqlite, ∀ t t', stmt t = .ok t' → Sane t → Extends ledgers t t' ∧ Sane t' := by
    intro stmt hstmt t t' ht hs
    obtain ⟨issued, hissued, rfl⟩ := List.mem_map.1 hstmt
    have hbatchIssued := Issued.batch m hm issued hissued
    exact ⟨exec_extends (sqlite_eq_ok_iff.1 ht) hbatchIssued.rewrites, hbatchIssued.sane (sqlite_eq_ok_iff.1 ht) hs⟩
  have hsane : Sane e := runStatements_keeps (fun stmt hstmt t t' ht hs => (hsteps stmt hstmt t t' ht hs).2) hbatch h.sane
  have hkept : ∀ k, Migrations.recorded d k = true → Migrations.recorded e k = true := by
    intro k hk
    refine (runStatements_keeps (I := fun t => Sane t ∧ Migrations.recorded t k = true) ?_ hbatch ⟨h.sane, hk⟩).2
    rintro stmt hstmt t t' ht ⟨hs, hrecorded⟩
    obtain ⟨hext, hs'⟩ := hsteps stmt hstmt t t' ht hs
    exact ⟨hs', recorded_extends hext hrecorded⟩
  have hformat : formatCheck.Done e := by
    refine (runStatements_keeps (I := fun t => Sane t ∧ formatCheck.Done t) ?_ hbatch ⟨h.sane, h.format hu⟩).2
    rintro stmt hstmt t t' ht ⟨hs, value, hstored, hsupported⟩
    obtain ⟨hext, hs'⟩ := hsteps stmt hstmt t t' ht hs
    exact ⟨hs', value, storedVersion_extends hext hstored, hsupported⟩
  obtain ⟨t, ht, -⟩ := recorded_iff.1 (hkept 1 ((h.recorded 1).2 ⟨Nat.le_refl 1, hu⟩))
  obtain ⟨d', hd', hschema'⟩ := insertVersion_ok false hsane ht hmissing
  have hext := exec_extends hd' (Issued.version false m.version).rewrites
  have htables : ∀ name, name ∉ ledgers → d'.tables name = e.tables name := by
    intro name hname
    have hfills : (insertVersion false m.version).fills ≠ some name := by
      rintro ⟨⟩
      exact hname (by decide)
    cases htable : e.tables name with
    | none => exact schema_none hschema'.symm htable
    | some found => exact exec_frame hd' htable hfills fun h => (nomatch h)
  refine ⟨d', ?_, ⟨hversion ▸ (by decide : ∀ m ∈ migrations, m.version ≤ 15) m hm, ⟨b, hb, hschema.trans hschema'.symm⟩,
    fun k => ⟨fun hk => ?_, ?_⟩, fun _ => ?_, fun found hfound => ?_⟩, hschema', htables⟩
  · unfold Step.run Migrations.migration
    dsimp only
    rw [if_neg (by rw [hunrecorded m.version (by omega)]; exact Bool.false_ne_true), runStatements_append, hbatch]
    exact runStatements_singleton.trans (sqlite_eq_ok_iff.2 hd')
  · by_contra hout
    have hnone : Migrations.recorded d k = false := by
      rw [← Bool.not_eq_true, h.recorded k]
      omega
    have hne : m.version ≠ k := by
      rw [hversion]
      intro heq
      exact hout ⟨by omega, by omega⟩
    rw [insertVersion_not_recorded hd' hne (batch_not_recorded hm hmem hbatch hnone)] at hk
    cases hk
  · rintro ⟨hlow, hhigh⟩
    by_cases hlast : k = m.version
    · rw [hlast]
      exact insertVersion_recorded hsane hd'
    · exact recorded_extends hext (hkept k ((h.recorded k).2 ⟨hlow, by omega⟩))
  · obtain ⟨value, hstored, hsupported⟩ := hformat
    exact ⟨value, storedVersion_extends hext hstored, hsupported⟩
  · rw [htables _ (by decide)] at hfound
    exact (hsane.units found hfound).2

/-- Each provenance beside a snapshot is in the table of its own. -/
def Provided (d : Database) : Prop :=
  ∀ s, d.tables "source_snapshots" = some s → ∀ row ∈ s.rows, row "provenance_blob" ≠ .null →
    ∃ t, d.tables "source_provenance" = some t ∧ ∃ provenance ∈ t.rows,
      provenance "source_unit_id" = row "source_unit_id" ∧ provenance "provenance_blob" = row "provenance_blob"

theorem selected_admitted {s : Table} {rows : List Row} :
    (selected ⟨provenanceColumns, ["source_unit_id"], rows⟩ s ["source_unit_id", "provenance_blob"] "provenance_blob").all
      (Table.admits ⟨provenanceColumns, ["source_unit_id"], rows⟩) = true := by
  refine List.all_eq_true.2 fun row hrow => ?_
  obtain ⟨source, hsource, rfl⟩ := List.mem_map.1 hrow
  have hnonNull := of_decide_eq_true (List.mem_filter.1 hsource).2
  unfold Table.admits
  show (true && ((false || decide (source "provenance_blob" ≠ .null)) && true)) = true
  rw [decide_eq_true hnonNull]
  rfl

theorem StoredAt.copies (h : StoredAt 14 d) :
    ∃ d', (migration ⟨15, MIGRATION_15⟩).run d = .ok d' ∧ StoredAt 15 d' ∧ Provided d' := by
  have hm : (⟨15, MIGRATION_15⟩ : Migration) ∈ migrations := by simp [migrations]
  obtain ⟨b, hb, hschema⟩ := h.schema
  obtain ⟨b', hb'⟩ := blank_ok (by decide : 15 ≤ 15)
  have hnext := hb'
  unfold blank at hb hb'
  rw [batches_succ hm rfl, List.map_append, runStatements_append, hb] at hb'
  obtain ⟨c, hcreate, hcopy⟩ := runStatements_pair.1 (show runStatements [sqlite createProvenance, sqlite copyProvenance] b = .ok b' from hb')
  have hnone := h.no_table (by decide : blankTable 14 "source_provenance" = false)
  obtain ⟨e, he, hmiddle⟩ := exec_congr hcreate hschema trivial
  obtain rfl : d.put "source_provenance" ⟨provenanceColumns, ["source_unit_id"], []⟩ = e :=
    Except.ok.inj ((Does.tableCreated hnone).exec.symm.trans he)
  have hallowed : copyProvenance.Allowed (d.put "source_provenance" ⟨provenanceColumns, ["source_unit_id"], []⟩) := by
    intro t s ht hs
    rw [put_tables_self] at ht
    cases ht
    exact selected_admitted
  obtain ⟨f, hf, hlast⟩ := exec_congr hcopy hmiddle hallowed
  obtain ⟨d', hrun, hstored, -, htables⟩ := h.finish (by decide) hm rfl hnext (runStatements_pair.2 ⟨_, he, hf⟩) hlast
  refine ⟨d', hrun, hstored, fun s hs row hrow hnonNull => ?_⟩
  obtain ⟨t, source, ht, hsource, -, -, rfl⟩ := exec_replaceFrom_iff.1 hf
  rw [put_tables_self] at ht
  cases ht
  rw [put_tables_ne (by decide)] at hsource
  rw [htables _ (by decide), put_tables_ne (by decide), put_tables_ne (by decide), hsource] at hs
  cases hs
  obtain ⟨hapart, -⟩ := copied_apart h.sane hsource (t := ⟨provenanceColumns, ["source_unit_id"], []⟩) rfl
  refine ⟨_, (htables _ (by decide)).trans put_tables_self, ?_⟩
  show ∃ provenance ∈ (copied ⟨provenanceColumns, ["source_unit_id"], []⟩ s).foldl _ [], _
  rw [replaceAll_eq _ hapart]
  refine ⟨_, List.mem_append_right _ (List.mem_map_of_mem (List.mem_filter.2 ⟨hrow, decide_eq_true hnonNull⟩)), rfl, rfl⟩

/-- Migrations of consecutive versions, those that have run first. -/
theorem StoredAt.chain {ms : List Migration} {j u : Nat} (hversions : ms.map Migration.version = List.range' j ms.length)
    (hms : ∀ m ∈ ms, m ∈ migrations ∧ ∀ stmt ∈ m.batch, plain stmt = true) (h : StoredAt u d) (hu : 1 ≤ u) (hj : j ≤ u + 1)
    (hend : u < j + ms.length) : ∃ e, runSteps (ms.map migration) d = .ok e ∧ StoredAt (j + ms.length - 1) e := by
  induction ms generalizing j u d with
  | nil =>
    obtain rfl : j = u + 1 := by
      rw [List.length_nil] at hend
      omega
    exact ⟨d, rfl, h⟩
  | cons m ms ih =>
    rw [List.map_cons, List.length_cons, List.range'_succ] at hversions
    obtain ⟨hversion, hversions⟩ := List.cons.inj hversions
    rw [List.length_cons] at hend ⊢
    obtain ⟨hm, hplain⟩ := hms m List.mem_cons_self
    have hothers : ∀ m ∈ ms, m ∈ migrations ∧ ∀ stmt ∈ m.batch, plain stmt = true := fun m hm => hms m (List.mem_cons_of_mem _ hm)
    rw [show j + (ms.length + 1) - 1 = j + 1 + ms.length - 1 by omega, List.map_cons, runSteps_cons]
    by_cases hle : j ≤ u
    · have hj1 : 1 ≤ m.version := by
        have := (by decide : ∀ m ∈ migrations, 1 ≤ m.version) m hm
        exact this
      have hdone : (migration m).run d = .ok d :=
        migrate_lasting.settled _ (migration_mem hm) d h.sane ((h.recorded m.version).2 ⟨hj1, by omega⟩)
      rw [hdone]
      exact ih hversions hothers h hu (by omega) (by omega)
    · have hnext : m.version = u + 1 := by omega
      obtain ⟨b, e, hb, hbatch, hschema⟩ := h.batch hm hnext hplain
      obtain ⟨d', hrun, hstored, -⟩ := h.finish hu hm hnext hb hbatch hschema
      rw [hrun]
      exact ih hversions hothers hstored (by omega) (by omega) (by omega)

/-- Migrations of any stored version but the last. -/
theorem StoredAt.all_migrations {u : Nat} (h : StoredAt u d) (hu : 1 ≤ u) (hlast : u ≤ 14) :
    ∃ d', runSteps (migrations.map migration) d = .ok d' ∧ StoredAt 15 d' ∧ Provided d' := by
  have hplain : ∀ m ∈ migrations.take 13, m ∈ migrations ∧ ∀ stmt ∈ m.batch, plain stmt = true := by
    intro m hm
    exact ⟨List.mem_of_mem_take hm, (by decide : ∀ m ∈ migrations.take 13, ∀ stmt ∈ m.batch, plain stmt = true) m hm⟩
  obtain ⟨e, he, hstored⟩ := StoredAt.chain (j := 2) rfl hplain h hu (by omega) (by show u < 2 + 13; omega)
  obtain ⟨d', hd', hstored', hprovided⟩ := StoredAt.copies (show StoredAt 14 e from hstored)
  refine ⟨d', ?_, hstored', hprovided⟩
  rw [show migrations = migrations.take 13 ++ [⟨15, MIGRATION_15⟩] from rfl, List.map_append, runSteps_append, he]
  show runSteps [migration ⟨15, MIGRATION_15⟩] e = .ok d'
  rw [runSteps_cons, hd']
  rfl

/-- The run that nothing stops. -/
theorem StoredAt.migrates (h : StoredAt v d) : ∃ d', runSteps migrate d = .ok d' ∧ StoredAt 15 d' ∧ (Provided d' ∨ d' = d) := by
  have hfrom : ∀ {u e}, StoredAt u e → 1 ≤ u → u ≤ 14 → runSteps firstSteps d = .ok e →
      ∃ d', runSteps migrate d = .ok d' ∧ StoredAt 15 d' ∧ (Provided d' ∨ d' = d) := by
    intro u e he hu hlast hfirst
    obtain ⟨d', hd', hstored, hprovided⟩ := he.all_migrations hu hlast
    refine ⟨d', ?_, hstored, .inl hprovided⟩
    rw [migrate_split, runSteps_append, hfirst]
    exact hd'
  by_cases hzero : v = 0
  · subst hzero
    obtain rfl := h.fresh
    obtain ⟨e, hfirst, he⟩ := firstSteps_fresh
    exact hfrom he (by decide) (by decide) hfirst
  by_cases hlast : v ≤ 14
  · exact hfrom h (by omega) hlast (h.first_steps (by omega))
  · have hversion := h.version
    obtain rfl : v = 15 := by omega
    refine ⟨d, ?_, h, .inr rfl⟩
    refine migrate_lasting.steps_settled (fun p hp => hp) h.sane fun p hp => ?_
    rcases mem_migrate hp with ⟨stmt, hstmt, rfl⟩ | rfl | rfl | ⟨m, hm, rfl⟩
    · exact h.present (by decide) hstmt
    · exact h.format (by decide)
    · exact (h.recorded 1).2 ⟨by decide, by decide⟩
    · exact (h.recorded m.version).2 ((by decide : ∀ m ∈ migrations, 1 ≤ m.version ∧ m.version ≤ 15) m hm)

/-! ## Snapshots -/

theorem steps_carried {ps : List (Step Database MigrateError)} (hps : ∀ p ∈ ps, p ∈ migrate) {d d' : Database}
    (hrun : runSteps ps d = .ok d') : Carried d d' := by
  induction ps generalizing d with
  | nil =>
    cases hrun
    exact .refl _
  | cons p ps ih =>
    rw [runSteps_cons] at hrun
    obtain ⟨e, hp, hrest⟩ := bind_eq_ok_iff.1 hrun
    have hfirst : Carried d e := by
      refine runStatements_keeps (I := fun f => Carried d f) ?_ hp (.refl d)
      intro stmt hstmt f f' hf hcarried
      exact hcarried.trans (part_carried (hps p List.mem_cons_self) hstmt hf)
    exact hfirst.trans (ih (fun q hq => hps q (List.mem_cons_of_mem _ hq)) hrest)

/-- The second migration leaves the snapshots of version 1 without a provenance. -/
theorem StoredAt.unprovided (h : StoredAt 1 d) {d' : Database} (hrun : runSteps migrate d = .ok d') {s' : Table}
    (hs' : d'.tables "source_snapshots" = some s') : ∀ row ∈ s'.rows, row "provenance_blob" = .null := by
  rw [migrate_split, runSteps_append, h.first_steps (by decide)] at hrun
  have hsecond : runSteps (migrations.map migration) d = .ok d' := hrun
  rw [show migrations = ⟨2, MIGRATION_2⟩ :: migrations.tail from rfl, List.map_cons, runSteps_cons] at hsecond
  obtain ⟨e, hmigration, hrest⟩ := bind_eq_ok_iff.1 hsecond
  have hm : (⟨2, MIGRATION_2⟩ : Migration) ∈ migrations := List.mem_cons_self
  have hunrecorded : Migrations.recorded d 2 = false := by
    rw [← Bool.not_eq_true, h.recorded 2]
    omega
  unfold Step.run Migrations.migration at hmigration
  dsimp only at hmigration
  rw [hunrecorded, if_neg Bool.false_ne_true, MIGRATION_2, List.map_cons, List.cons_append, runStatements_cons] at hmigration
  obtain ⟨added, hadd, hmore⟩ := bind_eq_ok_iff.1 hmigration
  have hcarried : Carried added d' := by
    have hpart : ∀ stmt ∈ [SqlStatement.dropColumn "source_snapshots" "snapshot_json", insertVersion false 2].map sqlite,
        ∃ issued, Issued issued ∧ stmt = sqlite issued := by
      intro stmt hstmt
      obtain ⟨issued, hissued, rfl⟩ := List.mem_map.1 hstmt
      rcases hissued with _ | ⟨_, _ | ⟨_, ⟨⟩⟩⟩
      · exact ⟨_, .batch _ hm _ (List.mem_cons_of_mem _ List.mem_cons_self), rfl⟩
      · exact ⟨_, .version false 2, rfl⟩
    have hfirst : Carried added e := by
      refine runStatements_keeps (I := fun f => Carried added f) ?_ hmore (.refl added)
      intro stmt hstmt f f' hf hcarried
      obtain ⟨issued, hissued, rfl⟩ := hpart stmt hstmt
      exact hcarried.trans (hissued.carried (sqlite_eq_ok_iff.1 hf))
    refine hfirst.trans (steps_carried (fun p hp => ?_) hrest)
    obtain ⟨m, hmem, rfl⟩ := List.mem_map.1 hp
    exact migration_mem (List.mem_of_mem_tail hmem)
  cases exec_eq_ok_iff.1 (sqlite_eq_ok_iff.1 hadd) with
  | columnAdded =>
    obtain ⟨u, hu, hkept⟩ := hcarried "source_snapshots" _ (by decide) put_tables_self
    obtain rfl := Option.some.inj (hu.symm.trans hs')
    intro row hrow
    have hcells := @RowsKept.cells "snapshot_json" "provenance_blob" _ _ hkept (by simp [Table.has, column]) (by decide)
    have hmember : row "provenance_blob" ∈ u.rows.map fun row => row "provenance_blob" := List.mem_map_of_mem hrow
    rw [hcells] at hmember
    obtain ⟨added, hadded, hvalue⟩ := List.mem_map.1 hmember
    obtain ⟨before, -, rfl⟩ := List.mem_map.1 hadded
    exact hvalue.symm.trans (Function.update_self ..)

/-- The schema of a stored version says where its snapshots are read from. -/
theorem Readable.provenance (h : StoredAt v d) (hv : 2 ≤ v) {row : Row} (hread : Readable d row) : row "provenance_blob" ≠ .null := by
  unfold Readable at hread
  have hhas : ∀ v ≤ 15, 2 ≤ v → blankHas v "source_snapshots" "provenance_blob" = true := by decide
  obtain ⟨s, hs, hcolumn⟩ := h.has (hhas v h.version hv)
  split at hread
  · exact hread.1
  · rw [hs] at hread
    simp only [hcolumn, if_true] at hread
    exact hread

theorem StoredAt.readable_first (h : StoredAt 1 d) {s : Table} (hs : d.tables "source_snapshots" = some s) {row : Row}
    (hrow : row "snapshot_json" ≠ .null) : Readable d row := by
  unfold Readable
  rw [h.no_table (by decide : blankTable 1 "source_provenance" = false), hs]
  dsimp only
  rw [h.lacks (by decide : blankHas 1 "source_snapshots" "provenance_blob" = false) hs]
  exact hrow

/-- A provenance that is carried over and provided can be read. -/
theorem Provided.readable {d' : Database} (h : Provided d') {s : Table}
    (hs : d'.tables "source_snapshots" = some s) {row : Row} (hrow : row ∈ s.rows) (hnonNull : row "provenance_blob" ≠ .null) :
    Readable d' row := by
  obtain ⟨t, ht, hprovenance⟩ := h s hs row hrow hnonNull
  unfold Readable
  rw [ht]
  exact ⟨hnonNull, hprovenance⟩

end Stored

/-- **Migrations and stops.** Let `migrate` stop anywhere on a database of any stored version. Opened again
it has the current schema, with every row carried over and every snapshot readable, if and only if no
migration was left half applied and no snapshot is stored in version 1. -/
theorem migration_crash_safe {v : Nat} {d : Database} (h : Stored v d) (n : Nat) :
    (∃ d', runSteps migrate (stopAfter n migrate d) = .ok d' ∧ Migrated d d') ↔
      ¬ HalfApplied (stopAfter n migrate d) ∧ ¬ (v = 1 ∧ ∃ s, d.tables "source_snapshots" = some s ∧ s.rows ≠ []) := by
  have hstored := h.toStoredAt
  obtain ⟨final, hfinal, hfinalStored, hprovided⟩ := hstored.migrates
  have hcarried := steps_carried (fun p hp => hp) hfinal
  constructor
  · rintro ⟨d', hrun, hmigrated⟩
    have hwhole : ¬ HalfApplied (stopAfter n migrate d) := fun hhalf => hhalf.stuck d' hrun
    refine ⟨hwhole, ?_⟩
    rintro ⟨rfl, s, hs, hrows⟩
    rw [(migrate_again hstored.sane n).resolve_right hwhole] at hrun
    obtain rfl := Except.ok.inj (hfinal.symm.trans hrun)
    obtain ⟨s', hs', -⟩ := hcarried "source_snapshots" s (by decide) hs
    have hreadable := hmigrated.readable s s' hs hs'
    cases hall : s.rows with
    | nil => exact hrows hall
    | cons row rows =>
      rw [hall] at hreadable
      generalize hall' : s'.rows = rows' at hreadable
      cases hreadable with
      | cons hrow hrest =>
        rename_i row' rows'
        have hjson : row "snapshot_json" ≠ .null := by
          have hadmits := h.admitted s hs row (hall ▸ List.mem_cons_self)
          unfold Table.admits at hadmits
          rw [hstored.columns hs] at hadmits
          have hcolumn : required "snapshot_json" ∈ blankColumns 1 "source_snapshots" := by decide
          have hcell : (!true || decide (row "snapshot_json" ≠ .null)) = true := List.all_eq_true.1 hadmits _ hcolumn
          exact of_decide_eq_true hcell
        have hread := hrow (hstored.readable_first hs hjson)
        refine hread.provenance hfinalStored (by decide) ?_
        exact hstored.unprovided hfinal hs' row' (hall' ▸ List.mem_cons_self)
  · rintro ⟨hwhole, hsnapshots⟩
    refine ⟨final, ?_, hfinalStored.schema, hcarried, fun s s' hs hs' => ?_⟩
    · rw [(migrate_again hstored.sane n).resolve_right hwhole]
      exact hfinal
    · rcases hprovided with hprovided | rfl
      · obtain ⟨u, hu, hkept⟩ := hcarried "source_snapshots" s (by decide) hs
        obtain rfl := Option.some.inj (hu.symm.trans hs')
        by_cases hv : 2 ≤ v
        · refine forall₂_imp_mem hkept.rows fun row row' hrow' hsame hread => hprovided.readable hs' hrow' ?_
          have hhas : ∀ v ≤ 15, 2 ≤ v → blankHas v "source_snapshots" "provenance_blob" = true := by decide
          obtain ⟨found, hfound, hcolumn⟩ := hstored.has (hhas v hstored.version hv)
          obtain rfl := Option.some.inj (hfound.symm.trans hs)
          rw [hsame _ hcolumn (by decide)]
          exact hread.provenance hstored hv
        · have hnone : s.rows = [] := by
            by_contra hrows
            have hone : v ≠ 0 := by
              rintro rfl
              rw [hstored.fresh] at hs
              cases hs
            exact hsnapshots ⟨by omega, s, hs, hrows⟩
          have hrows := hkept.rows
          rw [hnone] at hrows ⊢
          generalize u.rows = rows at hrows ⊢
          cases hrows
          exact .nil
      · obtain rfl := Option.some.inj (hs.symm.trans hs')
        exact List.forall₂_same.2 fun _ _ hread => hread

theorem noTables_stored : Stored 0 noTables where
  version := by decide
  schema := ⟨noTables, rfl, rfl⟩
  recorded k := ⟨fun h => (nomatch h), fun h => absurd h (by omega)⟩
  format h := absurd h (by decide)
  units _ h := nomatch h
  admitted _ h := nomatch h

def succeeds (d : Database) : Bool :=
  match runSteps migrate d with
  | .ok _ => true
  | .error _ => false

theorem succeeds_iff {d : Database} : succeeds d = true ↔ ∃ d', runSteps migrate d = .ok d' := by
  unfold succeeds
  cases runSteps migrate d with
  | ok d' => exact ⟨fun _ => ⟨d', rfl⟩, fun _ => rfl⟩
  | error e => exact ⟨fun h => (nomatch h), fun ⟨_, h⟩ => (nomatch h)⟩

/-- A first opening that stops among the tables of the first migration. -/
theorem stopped_creating_safe :
    ∃ d', runSteps migrate (stopAfter 5 migrate noTables) = .ok d' ∧ Migrated noTables d' := by
  obtain ⟨d', hrun⟩ := succeeds_iff.1 (by decide : succeeds (stopAfter 5 migrate noTables) = true)
  exact (migration_crash_safe noTables_stored 5).2 ⟨fun hhalf => hhalf.stuck d' hrun, fun h => (nomatch h.1)⟩

/-- One that stops between the two `ALTER TABLE` of the second migration. -/
theorem stopped_altering_stuck :
    ∃ v d n, Stored v d ∧ ∀ d', runSteps migrate (stopAfter n migrate d) ≠ .ok d' := by
  refine ⟨0, noTables, 20, noTables_stored, fun d' hrun => ?_⟩
  have hfails : succeeds (stopAfter 20 migrate noTables) = false := by decide
  rw [succeeds_iff.2 ⟨d', hrun⟩] at hfails
  cases hfails

end Kide.Migrations
