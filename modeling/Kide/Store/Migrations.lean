import Kide.Lib.Restart
import Kide.Lib.Sql
import Mathlib.Algebra.Order.Ring.Nat

/-!
# Migrations

`IndexStore::migrate`: the statements of `MIGRATION_1` to `MIGRATION_15`, each committed by itself, and the
queries between them that decide which of them run. The rows may be anything.

Column types are left out, and `CURRENT_TIMESTAMP` is a text. `ledgers` are the two tables `migrate` reads.
-/

namespace Kide.Migrations
open Transactions Sql Restart

def column (name : String) : Column := ⟨name, false, .null⟩

def required (name : String) : Column := ⟨name, true, .null⟩

/-! ## The statements -/

def MIGRATION_1 : List SqlStatement := [
  .createTable "kide_metadata" [column "key", required "value"] ["key"],
  .createTable "schema_migrations" [column "version", ⟨"applied_at", true, .text "CURRENT_TIMESTAMP"⟩] ["version"],
  .createTable "project_manifests"
    [column "workspace_id", required "fingerprint", required "protocol_version", required "record_json"] ["workspace_id"],
  .createTable "source_snapshots"
    [column "source_unit_id", required "component_id", required "workspace_path", required "content_fingerprint",
      required "context_fingerprint", required "protocol_version", required "source_unit_json", required "snapshot_json"]
    ["source_unit_id"],
  .createIndex ⟨"source_snapshots_by_path", "source_snapshots", ["workspace_path", "source_unit_id"]⟩,
  .createTable "symbols"
    [column "symbol_id", required "source_unit_id", required "name", required "name_start_byte", required "record_blob"]
    ["symbol_id"],
  .createIndex ⟨"symbols_by_name", "symbols", ["name", "source_unit_id", "name_start_byte", "symbol_id"]⟩,
  .createTable "occurrences"
    [required "source_unit_id", required "start_byte", required "end_byte", required "occurrence_kind",
      column "target_symbol_id", required "record_json"]
    ["source_unit_id", "start_byte", "end_byte", "occurrence_kind"],
  .createIndex ⟨"occurrences_by_source_interval", "occurrences", ["source_unit_id", "start_byte", "end_byte"]⟩,
  .createTable "reference_edges"
    [required "source_unit_id", required "start_byte", required "end_byte", required "target_symbol_id", required "record_json"]
    ["source_unit_id", "start_byte", "end_byte", "target_symbol_id"],
  .createIndex ⟨"references_by_target", "reference_edges", ["target_symbol_id", "source_unit_id", "start_byte"]⟩,
  .createTable "call_edges"
    [required "source_unit_id", required "start_byte", required "end_byte", required "target_symbol_id", required "record_json"]
    ["source_unit_id", "start_byte", "end_byte", "target_symbol_id"],
  .createIndex ⟨"calls_by_target", "call_edges", ["target_symbol_id", "source_unit_id", "start_byte"]⟩,
  .createTable "hierarchy_edges"
    [required "source_unit_id", required "subtype_symbol_id", required "supertype_symbol_id", required "record_json"]
    ["source_unit_id", "subtype_symbol_id", "supertype_symbol_id"],
  .createIndex ⟨"hierarchy_by_supertype", "hierarchy_edges", ["supertype_symbol_id", "source_unit_id", "subtype_symbol_id"]⟩,
  .createTable "type_records" [required "source_unit_id", required "type_id", required "record_json"] ["source_unit_id", "type_id"],
  .createTable "diagnostics"
    [required "source_unit_id", column "start_byte", column "end_byte", required "severity", required "record_json"]
    ["source_unit_id", "start_byte", "end_byte", "severity", "record_json"]]

def MIGRATION_2 : List SqlStatement := [
  .addColumn "source_snapshots" (column "provenance_blob"),
  .dropColumn "source_snapshots" "snapshot_json"]

def MIGRATION_3 : List SqlStatement := [
  .createTable "annotation_edges" [required "source_unit_id", required "symbol_id", required "annotation_symbol_id"]
    ["source_unit_id", "symbol_id", "annotation_symbol_id"],
  .createIndex ⟨"annotations_by_target", "annotation_edges", ["annotation_symbol_id", "source_unit_id", "symbol_id"]⟩]

def MIGRATION_4 : List SqlStatement := [
  .createTable "artifact_catalog" [column "source_unit_id", required "descriptor_json"] ["source_unit_id"]]

def MIGRATION_5 : List SqlStatement := [
  .createTable "symbol_locators" [required "source_unit_id", required "qualified_name", required "symbol_id"]
    ["source_unit_id", "qualified_name", "symbol_id"],
  .createIndex ⟨"symbol_locators_by_name", "symbol_locators", ["qualified_name", "symbol_id"]⟩]

def MIGRATION_6 : List SqlStatement := [
  .createTable "applications"
    [column "application_id", required "source_unit_id", required "subject_symbol_id", required "target_symbol_id",
      required "start_byte", required "end_byte", required "record_json"]
    ["application_id"],
  .createIndex ⟨"applications_by_target", "applications", ["target_symbol_id", "subject_symbol_id", "source_unit_id"]⟩,
  .createIndex ⟨"applications_by_subject", "applications", ["subject_symbol_id", "target_symbol_id", "source_unit_id"]⟩,
  .createTable "application_arguments"
    [required "application_id", column "name", required "position", required "value_kind", required "value_text"]
    ["application_id", "position"],
  .createIndex ⟨"application_arguments_by_name_value", "application_arguments",
    ["name", "value_kind", "value_text", "application_id"]⟩]

def MIGRATION_7 : List SqlStatement := [
  .createTable "workspace_text_documents" [column "workspace_path", required "content_fingerprint"] ["workspace_path"],
  .createIndex ⟨"workspace_text_documents_by_fingerprint", "workspace_text_documents", ["content_fingerprint"]⟩,
  .createTable "workspace_text_terms"
    [required "workspace_path", required "term", required "start_byte", required "end_byte"] ["workspace_path", "term", "start_byte"],
  .createIndex ⟨"workspace_text_terms_by_term", "workspace_text_terms", ["term", "workspace_path", "start_byte"]⟩]

def MIGRATION_8 : List SqlStatement := [.addColumn "source_snapshots" (column "public_api_fingerprint")]

def MIGRATION_9 : List SqlStatement := [
  .createTable "configuration_inputs" [column "workspace_path", required "content_fingerprint", required "component_ids_json"]
    ["workspace_path"]]

def MIGRATION_10 : List SqlStatement := [
  .createTable "artifact_blob_catalog"
    [column "blob_key", required "identity_json", column "byte_length", ⟨"created_at", true, .text "CURRENT_TIMESTAMP"⟩,
      ⟨"accessed_at", true, .text "CURRENT_TIMESTAMP"⟩]
    ["blob_key"],
  .createTable "project_artifact_blob_refs" [column "source_unit_id", required "blob_key"] ["source_unit_id"],
  .createIndex ⟨"project_artifact_blob_refs_by_blob", "project_artifact_blob_refs", ["blob_key", "source_unit_id"]⟩]

def MIGRATION_11 : List SqlStatement := [
  .createTable "source_file_metadata"
    [column "workspace_path", required "byte_size", required "modified_nanos", required "content_fingerprint"] ["workspace_path"]]

def MIGRATION_12 : List SqlStatement := [
  .createTable "workspace_checkpoints"
    [column "workspace_id", required "manifest_fingerprint", required "configuration_inputs_fingerprint",
      required "source_inputs_fingerprint"]
    ["workspace_id"]]

def MIGRATION_13 : List SqlStatement := [.addColumn "workspace_checkpoints" ⟨"artifact_catalog_fingerprint", true, .text ""⟩]

def MIGRATION_14 : List SqlStatement := [.addColumn "workspace_checkpoints" ⟨"publication_state", true, .text "committed"⟩]

def MIGRATION_15 : List SqlStatement := [
  .createTable "source_provenance" [column "source_unit_id", required "provenance_blob"] ["source_unit_id"],
  .replaceFrom "source_provenance" "source_snapshots" ["source_unit_id", "provenance_blob"] "provenance_blob"]

/-! ## The program -/

inductive MigrateError where
  | sqlite (e : SqlError)
  | invalidColumnType
  | incompatibleIndexFormat (found supported : Nat)
deriving DecidableEq, Repr

def INDEX_FORMAT_VERSION : Nat := 13

/-- `str::parse::<u32>` -/
def parseU32 (value : String) : Option Nat :=
  let digits : List Char := match value.toList with
    | '+' :: rest => rest
    | all => all
  let number := digits.foldl (fun n digit => 10 * n + (digit.toNat - '0'.toNat)) 0
  if digits ≠ [] ∧ digits.all Char.isDigit ∧ number < 2 ^ 32 then some number else none

def sqlite (stmt : SqlStatement) : Statement Database MigrateError := fun d => (stmt.exec d).mapError .sqlite

/-- `SELECT value FROM kide_metadata WHERE key = 'index_format_version'` -/
def storedVersion (d : Database) : Option Value :=
  (d.tables "kide_metadata").bind fun t => (t.rows.find? fun row => row "key" = .text "index_format_version").map fun row => row "value"

/-- `SELECT version FROM schema_migrations WHERE version = ..` finds a row. -/
def recorded (d : Database) (version : Nat) : Bool :=
  match d.tables "schema_migrations" with
  | none => false
  | some t => t.rows.any fun row => row "version" = .integer version

def insertVersion (orIgnore : Bool) (version : Nat) : SqlStatement :=
  .insert orIgnore "schema_migrations" [("version", .integer version)]

def supportedFormat (value : String) : Prop := (parseU32 value).getD (2 ^ 32 - 1) = INDEX_FORMAT_VERSION

instance (value : String) : Decidable (supportedFormat value) := inferInstanceAs (Decidable (_ = _))

structure Migration where
  version : Nat
  batch : List SqlStatement

def migrations : List Migration := [
  ⟨2, MIGRATION_2⟩, ⟨3, MIGRATION_3⟩, ⟨4, MIGRATION_4⟩, ⟨5, MIGRATION_5⟩, ⟨6, MIGRATION_6⟩, ⟨7, MIGRATION_7⟩, ⟨8, MIGRATION_8⟩,
  ⟨9, MIGRATION_9⟩, ⟨10, MIGRATION_10⟩, ⟨11, MIGRATION_11⟩, ⟨12, MIGRATION_12⟩, ⟨13, MIGRATION_13⟩, ⟨14, MIGRATION_14⟩,
  ⟨15, MIGRATION_15⟩]

def creation (stmt : SqlStatement) : Step Database MigrateError where
  part _ := [sqlite stmt]
  Done d := stmt.Present d

def formatCheck : Step Database MigrateError where
  part d :=
    match storedVersion d with
    | some (.text value) =>
      if supportedFormat value then []
      else [fun _ => .error (.incompatibleIndexFormat ((parseU32 value).getD (2 ^ 32 - 1)) INDEX_FORMAT_VERSION)]
    | some _ => [fun _ => .error .invalidColumnType]
    | none => [sqlite (.insert false "kide_metadata"
        [("key", .text "index_format_version"), ("value", .text (toString INDEX_FORMAT_VERSION))])]
  Done d := ∃ value, storedVersion d = some (.text value) ∧ supportedFormat value

def firstVersion : Step Database MigrateError where
  part _ := [sqlite (insertVersion true 1)]
  Done d := recorded d 1 = true

def migration (m : Migration) : Step Database MigrateError where
  part d := if recorded d m.version then [] else m.batch.map sqlite ++ [sqlite (insertVersion false m.version)]
  Done d := recorded d m.version = true

def migrate : List (Step Database MigrateError) :=
  MIGRATION_1.map creation ++ [formatCheck, firstVersion] ++ migrations.map migration

/-! ## What the statements have in common -/

def ledgers : List String := ["kide_metadata", "schema_migrations"]

/-- The tables that get rows. -/
def filled : List String := "source_provenance" :: ledgers

/-- Each statement there is. -/
inductive Issued : SqlStatement → Prop
  | first (stmt : SqlStatement) (h : stmt ∈ MIGRATION_1) : Issued stmt
  | batch (m : Migration) (hm : m ∈ migrations) (stmt : SqlStatement) (h : stmt ∈ m.batch) : Issued stmt
  | version (orIgnore : Bool) (k : Nat) : Issued (insertVersion orIgnore k)
  | format (values : List (String × Value)) : Issued (.insert false "kide_metadata" values)

/-- A statement of a batch: it leaves the ledgers alone, and drops but one column. -/
def Tame (stmt : SqlStatement) : Bool :=
  (match stmt.rewrites with
    | some table => decide (table ∉ ledgers)
    | none => true) &&
  (match stmt.fills with
    | some table => decide (table = "source_provenance")
    | none => true) &&
  (match stmt.drops with
    | some dropped => decide (dropped = "snapshot_json")
    | none => true)

theorem migration_1_creates : ∀ stmt ∈ MIGRATION_1, stmt.creates = true := by decide

theorem batches_tame : ∀ m ∈ migrations, ∀ stmt ∈ m.batch, Tame stmt = true := by decide

theorem creates_tame {stmt : SqlStatement} (h : stmt.creates = true) : Tame stmt = true := by
  cases stmt with
  | createTable name columns primaryKey => rfl
  | createIndex index => rfl
  | _ => cases h

theorem Issued.rewrites {stmt : SqlStatement} (h : Issued stmt) : ∀ table, stmt.rewrites = some table → table ∉ ledgers := by
  have htame : Tame stmt = true → ∀ table, stmt.rewrites = some table → table ∉ ledgers := by
    intro htame table htable
    unfold Tame at htame
    rw [htable] at htame
    simp only [Bool.and_eq_true, decide_eq_true_eq] at htame
    exact htame.1.1
  cases h with
  | first stmt h => exact htame (creates_tame (migration_1_creates stmt h))
  | batch m hm stmt h => exact htame (batches_tame m hm stmt h)
  | version orIgnore k => exact fun _ h => (nomatch h)
  | format values => exact fun _ h => (nomatch h)

theorem Issued.tame {stmt : SqlStatement} (h : Issued stmt) {name : String} (hname : name ∉ filled) :
    stmt.fills ≠ some name ∧ ∀ dropped, stmt.drops = some dropped → dropped = "snapshot_json" := by
  have htame : Tame stmt = true → stmt.fills ≠ some name ∧ ∀ dropped, stmt.drops = some dropped → dropped = "snapshot_json" := by
    intro htame
    unfold Tame at htame
    simp only [Bool.and_eq_true] at htame
    refine ⟨fun hfills => hname ?_, fun dropped hdropped => ?_⟩
    · have hprovenance := htame.1.2
      rw [hfills] at hprovenance
      rw [of_decide_eq_true hprovenance]
      exact List.mem_cons_self
    · have honly := htame.2
      rw [hdropped] at honly
      exact of_decide_eq_true honly
  cases h with
  | first stmt h => exact htame (creates_tame (migration_1_creates stmt h))
  | batch m hm stmt h => exact htame (batches_tame m hm stmt h)
  | version orIgnore k =>
    refine ⟨fun hfills => hname ?_, fun _ h => (nomatch h)⟩
    cases hfills
    decide
  | format values =>
    refine ⟨fun hfills => hname ?_, fun _ h => (nomatch h)⟩
    cases hfills
    decide

/-- The rows other than of `filled` are carried over. -/
def Carried (d d' : Database) : Prop :=
  ∀ name t, name ∉ filled → d.tables name = some t → ∃ t', d'.tables name = some t' ∧ RowsKept "snapshot_json" t t'

theorem Carried.refl (d : Database) : Carried d d := fun _ t _ h => ⟨t, h, .refl _ t⟩

theorem Carried.trans {d d' d'' : Database} (h : Carried d d') (h' : Carried d' d'') : Carried d d'' := by
  intro name t hname ht
  obtain ⟨t', ht', hkept⟩ := h name t hname ht
  obtain ⟨t'', ht'', hkept'⟩ := h' name t' hname ht'
  exact ⟨t'', ht'', hkept.trans hkept'⟩

theorem Issued.carried {stmt : SqlStatement} {d d' : Database} (h : Issued stmt) (hrun : stmt.exec d = .ok d') : Carried d d' :=
  fun _ _ hname ht => exec_rowsKept hrun ht (h.tame hname).1 (h.tame hname).2

/-! ### The invariant -/

def versionColumns : List Column := [column "version", ⟨"applied_at", true, .text "CURRENT_TIMESTAMP"⟩]

def unitIds (t : Table) : List Value := t.rows.map fun row => row "source_unit_id"

def provenanceColumns : List Column := [column "source_unit_id", required "provenance_blob"]

/-- The tables that are filled have their columns, and a snapshot has an id of its own. -/
structure Sane (d : Database) : Prop where
  versions : ∀ t, d.tables "schema_migrations" = some t → t.shape = (versionColumns, ["version"])
  provenances : ∀ t, d.tables "source_provenance" = some t → t.shape = (provenanceColumns, ["source_unit_id"])
  units : ∀ t, d.tables "source_snapshots" = some t → t.has "source_unit_id" ∧ (unitIds t).Nodup ∧ Value.null ∉ unitIds t

def wellCreated : SqlStatement → Bool
  | .createTable name columns primaryKey =>
    (decide (name ≠ "schema_migrations") || decide ((columns, primaryKey) = (versionColumns, ["version"]))) &&
      (decide (name ≠ "source_provenance") || decide ((columns, primaryKey) = (provenanceColumns, ["source_unit_id"]))) &&
      (decide (name ≠ "source_snapshots") || columns.any fun found => decide (found.name = "source_unit_id"))
  | _ => true

theorem Issued.wellCreated {stmt : SqlStatement} (h : Issued stmt) : wellCreated stmt = true := by
  cases h with
  | first stmt h => exact (by decide : ∀ stmt ∈ MIGRATION_1, Migrations.wellCreated stmt = true) stmt h
  | batch m hm stmt h => exact (by decide : ∀ m ∈ migrations, ∀ stmt ∈ m.batch, Migrations.wellCreated stmt = true) m hm stmt h
  | version orIgnore k => rfl
  | format values => rfl

theorem Issued.alters {stmt : SqlStatement} (h : Issued stmt) {name : String}
    (hname : name ≠ "source_snapshots" ∧ name ≠ "workspace_checkpoints") : stmt.alters ≠ some name := by
  have hall : ∀ table, stmt.alters = some table → table = "source_snapshots" ∨ table = "workspace_checkpoints" := by
    cases h with
    | first stmt h =>
      intro table htable
      have hcreates := migration_1_creates stmt h
      cases stmt with
      | createTable | createIndex => cases htable
      | _ => cases hcreates
    | batch m hm stmt h =>
      have hbatches : ∀ m ∈ migrations, ∀ stmt ∈ m.batch, ∀ table ∈ stmt.alters,
          table = "source_snapshots" ∨ table = "workspace_checkpoints" := by decide
      exact hbatches m hm stmt h
    | version orIgnore k => exact fun _ h => (nomatch h)
    | format values => exact fun _ h => (nomatch h)
  intro halters
  rcases hall name halters with h | h
  · exact hname.1 h
  · exact hname.2 h

/-- A table of its own columns that is only ever created with them. -/
theorem Issued.shape {stmt : SqlStatement} {d d' : Database} (h : Issued stmt) (hrun : stmt.exec d = .ok d') {name : String}
    {shape : List Column × List String} (hname : name ≠ "source_snapshots" ∧ name ≠ "workspace_checkpoints")
    (hcreated : ∀ columns primaryKey, stmt = .createTable name columns primaryKey → (columns, primaryKey) = shape)
    (hd : ∀ t, d.tables name = some t → t.shape = shape) : ∀ t, d'.tables name = some t → t.shape = shape := by
  intro t' ht'
  cases ht : d.tables name with
  | none =>
    obtain ⟨columns, primaryKey, hstmt, rfl⟩ := exec_new_table hrun ht ht'
    exact hcreated columns primaryKey hstmt
  | some t =>
    obtain ⟨u, hu, hshape⟩ := exec_shape hrun ht (h.alters hname)
    obtain rfl := Option.some.inj (hu.symm.trans ht')
    exact hshape.trans (hd t ht)

theorem Issued.sane {stmt : SqlStatement} {d d' : Database} (h : Issued stmt) (hrun : stmt.exec d = .ok d') (hd : Sane d) :
    Sane d' := by
  have hcreated := h.wellCreated
  refine ⟨h.shape hrun (by decide) ?_ hd.versions, h.shape hrun (by decide) ?_ hd.provenances, ?_⟩
  · rintro columns primaryKey rfl
    simpa [Migrations.wellCreated] using hcreated
  · rintro columns primaryKey rfl
    simpa [Migrations.wellCreated] using hcreated
  · intro t' ht'
    cases ht : d.tables "source_snapshots" with
    | none =>
      obtain ⟨columns, primaryKey, rfl, rfl⟩ := exec_new_table hrun ht ht'
      refine ⟨?_, List.nodup_nil, List.not_mem_nil⟩
      simpa [Migrations.wellCreated, Table.has] using hcreated
    | some t =>
      obtain ⟨hhas, hnodup, hnull⟩ := hd.units t ht
      obtain ⟨u, hu, hkept⟩ := h.carried hrun _ t (by decide) ht
      obtain rfl := Option.some.inj (hu.symm.trans ht')
      have hids : unitIds u = unitIds t := hkept.cells hhas (by decide)
      rw [hids]
      exact ⟨hkept.columns _ hhas (by decide), hnodup, hnull⟩

/-! ### Steps last -/

theorem sqlite_eq_ok_iff {stmt : SqlStatement} {d d' : Database} : sqlite stmt d = .ok d' ↔ stmt.exec d = .ok d' := by
  unfold sqlite
  cases stmt.exec d with
  | ok found => exact ⟨fun h => congrArg _ (Except.ok.inj h), fun h => congrArg _ (Except.ok.inj h)⟩
  | error e => exact ⟨fun h => (nomatch h), fun h => (nomatch h)⟩

/-- A statement of a step is an issued one, or an answer that ends the run. -/
theorem part_issued {p : Step Database MigrateError} (hp : p ∈ migrate) {d : Database} {stmt : Statement Database MigrateError}
    (hstmt : stmt ∈ p.part d) : (∃ issued, Issued issued ∧ stmt = sqlite issued) ∨ ∀ t t', stmt t ≠ .ok t' := by
  unfold migrate at hp
  rcases List.mem_append.1 hp with hp | hp
  · rcases List.mem_append.1 hp with hp | hp
    · obtain ⟨first, hfirst, rfl⟩ := List.mem_map.1 hp
      obtain rfl := List.mem_singleton.1 hstmt
      exact .inl ⟨first, .first first hfirst, rfl⟩
    · rcases hp with _ | ⟨_, _ | ⟨_, ⟨⟩⟩⟩
      · unfold formatCheck at hstmt
        dsimp only at hstmt
        split at hstmt
        · split at hstmt
          · cases hstmt
          · obtain rfl := List.mem_singleton.1 hstmt
            right
            intro _ _ h
            cases h
        · obtain rfl := List.mem_singleton.1 hstmt
          right
          intro _ _ h
          cases h
        · obtain rfl := List.mem_singleton.1 hstmt
          exact .inl ⟨_, .format _, rfl⟩
      · obtain rfl := List.mem_singleton.1 hstmt
        exact .inl ⟨_, .version true 1, rfl⟩
  · obtain ⟨m, hm, rfl⟩ := List.mem_map.1 hp
    unfold migration at hstmt
    dsimp only at hstmt
    split at hstmt
    · cases hstmt
    rcases List.mem_append.1 hstmt with hbatch | hversion
    · obtain ⟨issued, hissued, rfl⟩ := List.mem_map.1 hbatch
      exact .inl ⟨issued, .batch m hm issued hissued, rfl⟩
    · obtain rfl := List.mem_singleton.1 hversion
      exact .inl ⟨_, .version false m.version, rfl⟩

theorem recorded_iff {d : Database} {version : Nat} :
    recorded d version = true ↔ ∃ t, d.tables "schema_migrations" = some t ∧ ∃ row ∈ t.rows, row "version" = .integer version := by
  unfold recorded
  cases d.tables "schema_migrations" with
  | none => exact ⟨fun h => (nomatch h), fun ⟨_, h, _⟩ => (nomatch h)⟩
  | some t => simp

theorem recorded_extends {d d' : Database} {version : Nat} (h : Extends ledgers d d') (hrecorded : recorded d version = true) :
    recorded d' version = true := by
  obtain ⟨t, ht, row, hrow, hversion⟩ := recorded_iff.1 hrecorded
  obtain ⟨t', ht', hrows⟩ := h.tables _ t ht
  exact recorded_iff.2 ⟨t', ht', row, (hrows (by decide)).subset hrow, hversion⟩

theorem storedVersion_extends {d d' : Database} {value : Value} (h : Extends ledgers d d') (hstored : storedVersion d = some value) :
    storedVersion d' = some value := by
  unfold storedVersion at hstored ⊢
  obtain ⟨t, ht, hfound⟩ := Option.bind_eq_some_iff.1 hstored
  obtain ⟨row, hrow, hvalue⟩ := Option.map_eq_some_iff.1 hfound
  obtain ⟨t', ht', hrows⟩ := h.tables _ t ht
  obtain ⟨more, hmore⟩ := hrows (by decide)
  rw [ht', Option.bind_some, ← hmore, List.find?_append, hrow]
  exact congrArg some hvalue

/-- The version that is inserted is recorded. -/
theorem insertVersion_recorded {d d' : Database} {orIgnore : Bool} {k : Nat} (hd : Sane d)
    (hrun : (insertVersion orIgnore k).exec d = .ok d') : recorded d' k = true := by
  unfold insertVersion at hrun
  cases exec_eq_ok_iff.1 hrun with
  | inserted => exact recorded_iff.2 ⟨_, put_tables_self, _, List.mem_append_right _ List.mem_cons_self, rfl⟩
  | @ignored _ _ t ht hrefused =>
    -- not added: the columns are filled in, so it is there already
    obtain ⟨hcolumns, hkey⟩ := Prod.mk.inj (hd.versions t ht)
    have hadmits : t.admits (t.newRow [("version", .integer k)]) = true := by
      unfold Table.admits Table.newRow
      rw [hcolumns]
      rfl
    have hconflict : t.rows.any (t.conflicts (t.newRow [("version", .integer k)])) = true := by
      by_contra hfree
      exact hrefused ⟨hadmits, Bool.not_eq_true _ ▸ hfree⟩
    obtain ⟨row, hrow, hsame⟩ := List.any_eq_true.1 hconflict
    refine recorded_iff.2 ⟨t, ht, row, hrow, ?_⟩
    unfold Table.conflicts at hsame
    rw [hkey] at hsame
    simp [Table.newRow] at hsame
    exact hsame.symm

/-- A recorded version is not inserted again. -/
theorem insertVersion_ignored {d : Database} {k : Nat} (hd : Sane d) (hrecorded : recorded d k = true) :
    (insertVersion true k).exec d = .ok d := by
  obtain ⟨t, ht, row, hrow, hversion⟩ := recorded_iff.1 hrecorded
  obtain ⟨-, hkey⟩ := Prod.mk.inj (hd.versions t ht)
  have hconflict : t.rows.any (t.conflicts (t.newRow [("version", .integer k)])) = true := by
    refine List.any_eq_true.2 ⟨row, hrow, ?_⟩
    unfold Table.conflicts
    rw [hkey]
    simp [Table.newRow, hversion]
  exact (Does.ignored ht fun h => Bool.false_ne_true (h.2.symm.trans hconflict)).exec

theorem runStatements_singleton {stmt : Statement Database MigrateError} {d : Database} : runStatements [stmt] d = stmt d := by
  rw [runStatements_cons]
  cases stmt d <;> rfl

theorem formatCheck_done {d d' : Database} (hrun : formatCheck.run d = .ok d') : formatCheck.Done d' := by
  unfold Step.run formatCheck at hrun
  dsimp only at hrun
  split at hrun
  · next value hstored =>
    split at hrun
    · next hsupported =>
      cases hrun
      exact ⟨value, hstored, hsupported⟩
    · cases hrun
  · cases hrun
  · next hstored =>
    rw [runStatements_singleton, sqlite_eq_ok_iff] at hrun
    cases exec_eq_ok_iff.1 hrun with
    | inserted ht =>
      refine ⟨toString INDEX_FORMAT_VERSION, ?_, by decide⟩
      unfold storedVersion at hstored ⊢
      rw [ht, Option.bind_some, Option.map_eq_none_iff] at hstored
      rw [put_tables_self, Option.bind_some, List.find?_append, hstored]
      rfl

theorem migration_mem {m : Migration} (h : m ∈ migrations) : migration m ∈ migrate :=
  List.mem_append_right _ (List.mem_map_of_mem h)

/-- The steps of `migrate`, by kind. -/
theorem mem_migrate {p : Step Database MigrateError} (hp : p ∈ migrate) :
    (∃ stmt ∈ MIGRATION_1, p = creation stmt) ∨ p = formatCheck ∨ p = firstVersion ∨ ∃ m ∈ migrations, p = migration m := by
  unfold migrate at hp
  rcases List.mem_append.1 hp with hp | hp
  · rcases List.mem_append.1 hp with hp | hp
    · obtain ⟨stmt, hstmt, rfl⟩ := List.mem_map.1 hp
      exact .inl ⟨stmt, hstmt, rfl⟩
    · rcases hp with _ | ⟨_, _ | ⟨_, ⟨⟩⟩⟩
      · exact .inr (.inl rfl)
      · exact .inr (.inr (.inl rfl))
  · obtain ⟨m, hm, rfl⟩ := List.mem_map.1 hp
    exact .inr (.inr (.inr ⟨m, hm, rfl⟩))

theorem part_grows {p : Step Database MigrateError} (hp : p ∈ migrate) {d t t' : Database} {stmt : Statement Database MigrateError}
    (hstmt : stmt ∈ p.part d) (ht : Sane t) (hrun : stmt t = .ok t') : Extends ledgers t t' ∧ Sane t' ∧ Carried t t' := by
  rcases part_issued hp hstmt with ⟨issued, hissued, rfl⟩ | hfails
  · have hexec := sqlite_eq_ok_iff.1 hrun
    exact ⟨exec_extends hexec hissued.rewrites, hissued.sane hexec ht, hissued.carried hexec⟩
  · exact absurd hrun (hfails t t')

theorem migration_done {m : Migration} (hm : m ∈ migrations) {d d' : Database} (hd : Sane d) (hrun : (migration m).run d = .ok d') :
    recorded d' m.version = true := by
  have hpart : ∀ stmt ∈ (migration m).part d, ∀ t t', stmt t = .ok t' → Sane t → Sane t' :=
    fun stmt hstmt t t' ht hsane => (part_grows (migration_mem hm) hstmt hsane ht).2.1
  unfold Step.run migration at hrun
  unfold migration at hpart
  dsimp only at hrun hpart
  split at hrun
  · next hrecorded =>
    cases hrun
    exact hrecorded
  · next hmissing =>
    rw [if_neg hmissing] at hpart
    rw [runStatements_append] at hrun
    obtain ⟨e, hbatch, hversion⟩ := Checks.bind_eq_ok_iff.1 hrun
    have he : Sane e := runStatements_keeps (fun stmt hstmt => hpart stmt (List.mem_append_left _ hstmt)) hbatch hd
    rw [runStatements_singleton, sqlite_eq_ok_iff] at hversion
    exact insertVersion_recorded he hversion

theorem migrate_lasting : Lasting Sane (Extends ledgers) migrate where
  settled p hp d hd hdone := by
    rcases mem_migrate hp with ⟨stmt, hstmt, rfl⟩ | rfl | rfl | ⟨m, hm, rfl⟩
    · exact runStatements_singleton.trans (sqlite_eq_ok_iff.2 (exec_of_present hdone))
    · obtain ⟨value, hstored, hsupported⟩ := hdone
      unfold Step.run formatCheck
      dsimp only
      rw [hstored]
      dsimp only
      rw [if_pos hsupported]
      rfl
    · exact runStatements_singleton.trans (sqlite_eq_ok_iff.2 (insertVersion_ignored hd hdone))
    · unfold Step.run migration
      dsimp only
      rw [if_pos (show recorded d m.version = true from hdone)]
      rfl
  done p hp d d' hd hrun := by
    rcases mem_migrate hp with ⟨stmt, hstmt, rfl⟩ | rfl | rfl | ⟨m, hm, rfl⟩
    · exact present_of_exec (migration_1_creates stmt hstmt) (sqlite_eq_ok_iff.1 (runStatements_singleton.symm.trans hrun))
    · exact formatCheck_done hrun
    · exact insertVersion_recorded hd (sqlite_eq_ok_iff.1 (runStatements_singleton.symm.trans hrun))
    · exact migration_done hm hd hrun
  grows p hp d stmt hstmt t t' ht hrun := (part_grows hp hstmt ht hrun).imp_right And.left
  kept p hp d d' hext hdone := by
    rcases mem_migrate hp with ⟨stmt, hstmt, rfl⟩ | rfl | rfl | ⟨m, hm, rfl⟩
    · exact hext.present hdone
    · obtain ⟨value, hstored, hsupported⟩ := hdone
      exact ⟨value, storedVersion_extends hext hstored, hsupported⟩
    · exact recorded_extends hext hdone
    · exact recorded_extends hext hdone

end Kide.Migrations
