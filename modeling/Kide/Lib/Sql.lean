import Kide.Lib.Transaction
import Mathlib.Data.List.Forall2
import Mathlib.Data.List.Induction
import Mathlib.Data.List.Infix
import Mathlib.Logic.Function.Basic

/-!
# SQL tables and the statements that change them

A database is its tables by name, each with its columns, primary key and rows, and its indexes. The
statements are those of a schema migration: `CREATE TABLE` and `CREATE INDEX` with `IF NOT EXISTS`,
`ALTER TABLE`, `INSERT` with or without `OR IGNORE`, and `INSERT OR REPLACE .. SELECT`.

`exec_eq_ok_iff` says once what a statement can do (`Does`). Whether a statement that defines data works, and what schema it
leaves, depends on the schema alone (`exec_congr`).
-/

namespace Sql
open Transactions

inductive Value where
  | null
  | integer (value : Int)
  | text (value : String)
  | blob (value : List UInt8)
deriving DecidableEq, Repr

structure Column where
  name : String
  notNull : Bool
  default : Value
deriving DecidableEq, Repr

abbrev Row := String → Value

structure Table where
  columns : List Column
  primaryKey : List String
  rows : List Row

structure Index where
  name : String
  table : String
  columns : List String
deriving DecidableEq, Repr

structure Database where
  tables : String → Option Table
  indexes : List Index

inductive SqlError where
  | noSuchTable (name : String)
  | noSuchColumn (name : String)
  | duplicateColumn (name : String)
  | cannotDrop (name : String)
  | constraint
deriving DecidableEq, Repr

inductive SqlStatement where
  | createTable (name : String) (columns : List Column) (primaryKey : List String)
  | createIndex (index : Index)
  | addColumn (table : String) (column : Column)
  | dropColumn (table column : String)
  | insert (orIgnore : Bool) (table : String) (values : List (String × Value))
  /-- `INSERT OR REPLACE INTO target (columns) SELECT columns FROM source WHERE nonNull IS NOT NULL` -/
  | replaceFrom (target source : String) (columns : List String) (nonNull : String)

def noTables : Database := ⟨fun _ => none, []⟩

namespace Table
variable (t : Table)

def has (column : String) : Bool := t.columns.any (·.name = column)

/-- The row of an `INSERT`: a column that is not given has its default. -/
def newRow (values : List (String × Value)) : Row := fun column =>
  match values.lookup column with
  | some value => value
  | none =>
    match t.columns.find? (·.name = column) with
    | some found => found.default
    | none => .null

def admits (row : Row) : Bool := t.columns.all fun column => !column.notNull || decide (row column.name ≠ .null)

/-- `NULL` equals nothing. -/
def conflicts (row other : Row) : Bool :=
  !t.primaryKey.isEmpty && t.primaryKey.all fun column => decide (row column ≠ .null) && decide (row column = other column)

def replace (rows : List Row) (row : Row) : List Row := rows.filter (fun other => !t.conflicts row other) ++ [row]

end Table

def Table.shape (t : Table) : List Column × List String := (t.columns, t.primaryKey)

def Database.put (d : Database) (name : String) (t : Table) : Database :=
  { d with tables := Function.update d.tables name (some t) }

/-- The rows of the `SELECT`, as rows of the target. -/
def selected (target source : Table) (columns : List String) (nonNull : String) : List Row :=
  (source.rows.filter fun row => decide (row nonNull ≠ .null)).map fun row => target.newRow (columns.map fun column => (column, row column))

def SqlStatement.exec : SqlStatement → Statement Database SqlError
  | .createTable name columns primaryKey, d =>
    match d.tables name with
    | some _ => .ok d
    | none => .ok (d.put name ⟨columns, primaryKey, []⟩)
  | .createIndex index, d =>
    if d.indexes.any (·.name = index.name) then .ok d
    else
      match d.tables index.table with
      | none => .error (.noSuchTable index.table)
      | some t =>
        if index.columns.all t.has then .ok { d with indexes := d.indexes ++ [index] } else .error (.noSuchColumn index.name)
  | .addColumn table column, d =>
    match d.tables table with
    | none => .error (.noSuchTable table)
    | some t =>
      if t.has column.name then .error (.duplicateColumn column.name)
      else if column.notNull ∧ column.default = .null then .error .constraint
      else .ok (d.put table { t with
        columns := t.columns ++ [column]
        rows := t.rows.map fun row => Function.update row column.name column.default })
  | .dropColumn table column, d =>
    match d.tables table with
    | none => .error (.noSuchTable table)
    | some t =>
      if t.has column = false then .error (.noSuchColumn column)
      else if column ∈ t.primaryKey ∨ ∃ index ∈ d.indexes, index.table = table ∧ column ∈ index.columns then
        .error (.cannotDrop column)
      else .ok (d.put table { t with columns := t.columns.filter fun found => found.name ≠ column })
  | .insert orIgnore table values, d =>
    match d.tables table with
    | none => .error (.noSuchTable table)
    | some t =>
      if t.admits (t.newRow values) ∧ t.rows.any (t.conflicts (t.newRow values)) = false then
        .ok (d.put table { t with rows := t.rows ++ [t.newRow values] })
      else if orIgnore then .ok d else .error .constraint
  | .replaceFrom target source columns nonNull, d =>
    match d.tables target, d.tables source with
    | some t, some s =>
      if (nonNull :: columns).all s.has ∧ columns.all t.has then
        if (selected t s columns nonNull).all t.admits then
          .ok (d.put target { t with rows := (selected t s columns nonNull).foldl t.replace t.rows })
        else .error .constraint
      else .error (.noSuchColumn nonNull)
    | none, _ => .error (.noSuchTable target)
    | _, none => .error (.noSuchTable source)

/-! ## Tables after a statement -/

section Put
variable {d : Database} {name other : String} {t : Table}

@[simp] theorem put_tables_self : (d.put name t).tables name = some t := Function.update_self ..

theorem put_tables_ne (h : other ≠ name) : (d.put name t).tables other = d.tables other := Function.update_of_ne h ..

@[simp] theorem put_indexes : (d.put name t).indexes = d.indexes := rfl

theorem put_eq_iff : d.put name t = d ↔ d.tables name = some t := by
  constructor
  · intro h
    rw [← h]
    exact put_tables_self
  · intro h
    unfold Database.put
    rw [← h, Function.update_eq_self]

end Put

/-! ## What a statement does -/

/-- A statement that works, with the checks it has passed and the database it leaves. -/
inductive Does (d : Database) : SqlStatement → Database → Prop
  | tablePresent {name columns primaryKey t} (htable : d.tables name = some t) : Does d (.createTable name columns primaryKey) d
  | tableCreated {name columns primaryKey} (hnone : d.tables name = none) :
      Does d (.createTable name columns primaryKey) (d.put name ⟨columns, primaryKey, []⟩)
  | indexPresent {index} (hany : d.indexes.any (·.name = index.name) = true) : Does d (.createIndex index) d
  | indexCreated {index t} (hany : ¬ d.indexes.any (·.name = index.name) = true) (htable : d.tables index.table = some t)
      (hcolumns : index.columns.all t.has = true) : Does d (.createIndex index) { d with indexes := d.indexes ++ [index] }
  | columnAdded {table column t} (htable : d.tables table = some t) (hnew : ¬ t.has column.name = true)
      (hnull : ¬ (column.notNull ∧ column.default = .null)) :
      Does d (.addColumn table column) (d.put table { t with
        columns := t.columns ++ [column]
        rows := t.rows.map fun row => Function.update row column.name column.default })
  | columnDropped {table column t} (htable : d.tables table = some t) (hhas : ¬ t.has column = false)
      (hfree : ¬ (column ∈ t.primaryKey ∨ ∃ index ∈ d.indexes, index.table = table ∧ column ∈ index.columns)) :
      Does d (.dropColumn table column) (d.put table { t with columns := t.columns.filter fun found => found.name ≠ column })
  | inserted {orIgnore table values t} (htable : d.tables table = some t)
      (hallowed : t.admits (t.newRow values) ∧ t.rows.any (t.conflicts (t.newRow values)) = false) :
      Does d (.insert orIgnore table values) (d.put table { t with rows := t.rows ++ [t.newRow values] })
  | ignored {table values t} (htable : d.tables table = some t)
      (hrefused : ¬ (t.admits (t.newRow values) ∧ t.rows.any (t.conflicts (t.newRow values)) = false)) :
      Does d (.insert true table values) d
  | replaced {target source columns nonNull t s} (htable : d.tables target = some t) (hsource : d.tables source = some s)
      (hhas : (nonNull :: columns).all s.has ∧ columns.all t.has) (hadmits : (selected t s columns nonNull).all t.admits = true) :
      Does d (.replaceFrom target source columns nonNull)
        (d.put target { t with rows := (selected t s columns nonNull).foldl t.replace t.rows })

theorem Does.exec {stmt : SqlStatement} {d d' : Database} (h : Does d stmt d') : stmt.exec d = .ok d' := by
  cases h with
  | tablePresent htable =>
    simp only [SqlStatement.exec]
    rw [htable]
  | tableCreated hnone =>
    simp only [SqlStatement.exec]
    rw [hnone]
  | indexPresent hany => exact if_pos hany
  | indexCreated hany htable hcolumns =>
    simp only [SqlStatement.exec]
    rw [if_neg hany, htable]
    exact if_pos hcolumns
  | columnAdded htable hnew hnull =>
    simp only [SqlStatement.exec]
    rw [htable]
    dsimp only
    rw [if_neg hnew, if_neg hnull]
  | columnDropped htable hhas hfree =>
    simp only [SqlStatement.exec]
    rw [htable]
    dsimp only
    rw [if_neg hhas, if_neg hfree]
  | inserted htable hallowed =>
    simp only [SqlStatement.exec]
    rw [htable]
    exact if_pos hallowed
  | ignored htable hrefused =>
    simp only [SqlStatement.exec]
    rw [htable]
    exact if_neg hrefused
  | replaced htable hsource hhas hadmits =>
    simp only [SqlStatement.exec]
    rw [htable, hsource]
    dsimp only
    rw [if_pos hhas, if_pos hadmits]

/-- **Inversion.** -/
theorem exec_eq_ok_iff {stmt : SqlStatement} {d d' : Database} : stmt.exec d = .ok d' ↔ Does d stmt d' := by
  refine ⟨fun hrun => ?_, Does.exec⟩
  cases stmt with
  | createTable name columns primaryKey =>
    simp only [SqlStatement.exec] at hrun
    split at hrun
    · next htable =>
      cases hrun
      exact .tablePresent htable
    · next hnone =>
      cases hrun
      exact .tableCreated hnone
  | createIndex index =>
    simp only [SqlStatement.exec] at hrun
    split at hrun
    · next hany =>
      cases hrun
      exact .indexPresent hany
    next hany =>
    split at hrun
    · cases hrun
    next htable =>
    split at hrun
    · next hcolumns =>
      cases hrun
      exact .indexCreated hany htable hcolumns
    · cases hrun
  | addColumn table column =>
    simp only [SqlStatement.exec] at hrun
    split at hrun
    · cases hrun
    next htable =>
    split at hrun
    · cases hrun
    next hnew =>
    split at hrun
    · cases hrun
    next hnull =>
    cases hrun
    exact .columnAdded htable hnew hnull
  | dropColumn table column =>
    simp only [SqlStatement.exec] at hrun
    split at hrun
    · cases hrun
    next htable =>
    split at hrun
    · cases hrun
    next hhas =>
    split at hrun
    · cases hrun
    next hfree =>
    cases hrun
    exact .columnDropped htable hhas hfree
  | insert orIgnore table values =>
    simp only [SqlStatement.exec] at hrun
    split at hrun
    · cases hrun
    next htable =>
    split at hrun
    · next hallowed =>
      cases hrun
      exact .inserted htable hallowed
    next hrefused =>
    split at hrun
    · next hignore =>
      cases hrun
      rw [hignore]
      exact .ignored htable hrefused
    · cases hrun
  | replaceFrom target source columns nonNull =>
    simp only [SqlStatement.exec] at hrun
    split at hrun
    · next htable hsource =>
      split at hrun
      · next hhas =>
        split at hrun
        · next hadmits =>
          cases hrun
          exact .replaced htable hsource hhas hadmits
        · cases hrun
      · cases hrun
    · cases hrun
    · cases hrun

/-! ## What any statement keeps -/

/-- The table whose rows a statement may change otherwise than by adding one. -/
def SqlStatement.rewrites : SqlStatement → Option String
  | .addColumn table _ => some table
  | .dropColumn table _ => some table
  | .replaceFrom target _ _ _ => some target
  | _ => none

/-- No table and no index goes away, and the tables `ledgers` only get more rows. -/
structure Extends (ledgers : List String) (d d' : Database) : Prop where
  tables : ∀ name t, d.tables name = some t →
    ∃ t', d'.tables name = some t' ∧ (name ∈ ledgers → t.rows <+: t'.rows)
  indexes : ∀ index ∈ d.indexes, index ∈ d'.indexes

theorem Extends.refl (ledgers : List String) (d : Database) : Extends ledgers d d :=
  ⟨fun _ t h => ⟨t, h, fun _ => List.prefix_rfl⟩, fun _ h => h⟩

/-- A table that is put in the place of another. -/
theorem Extends.put {ledgers : List String} {d : Database} {name : String} {t t' : Table} (h : d.tables name = some t)
    (hrows : name ∈ ledgers → t.rows <+: t'.rows) : Extends ledgers d (d.put name t') := by
  refine ⟨fun other u hu => ?_, fun _ h => h⟩
  by_cases hother : other = name
  · subst hother
    obtain rfl := Option.some.inj (h.symm.trans hu)
    exact ⟨t', put_tables_self, hrows⟩
  · exact ⟨u, (put_tables_ne hother).trans hu, fun _ => List.prefix_rfl⟩

/-- A new table. -/
theorem Extends.create {ledgers : List String} {d : Database} {name : String} (hnone : d.tables name = none) (t : Table) :
    Extends ledgers d (d.put name t) := by
  refine ⟨fun other u hu => ?_, fun _ h => h⟩
  have hother : other ≠ name := by
    rintro rfl
    rw [hnone] at hu
    cases hu
  exact ⟨u, (put_tables_ne hother).trans hu, fun _ => List.prefix_rfl⟩

theorem exec_extends {ledgers : List String} {stmt : SqlStatement} {d d' : Database} (hrun : stmt.exec d = .ok d')
    (hledgers : ∀ table, stmt.rewrites = some table → table ∉ ledgers) : Extends ledgers d d' := by
  cases exec_eq_ok_iff.1 hrun with
  | tablePresent => exact .refl ledgers d
  | tableCreated hnone => exact .create hnone _
  | indexPresent => exact .refl ledgers d
  | indexCreated => exact ⟨fun _ t h => ⟨t, h, fun _ => List.prefix_rfl⟩, fun _ h => List.mem_append_left _ h⟩
  | columnAdded htable => exact .put htable fun h => absurd h (hledgers _ rfl)
  | columnDropped htable => exact .put htable fun h => absurd h (hledgers _ rfl)
  | inserted htable => exact .put htable fun _ => List.prefix_append _ _
  | ignored => exact .refl ledgers d
  | replaced htable => exact .put htable fun h => absurd h (hledgers _ rfl)

/-- A table that was not there is a created one. -/
theorem exec_new_table {stmt : SqlStatement} {d d' : Database} {name : String} {t : Table} (hrun : stmt.exec d = .ok d')
    (hnone : d.tables name = none) (hsome : d'.tables name = some t) :
    ∃ columns primaryKey, stmt = .createTable name columns primaryKey ∧ t = ⟨columns, primaryKey, []⟩ := by
  have hold : d.tables name ≠ some t := by
    rw [hnone]
    exact fun h => (by cases h)
  have hput : ∀ {table u v}, d.tables table = some u → (d.put table v).tables name ≠ some t := by
    intro table u v hu
    by_cases htable : name = table
    · rw [htable, hu] at hnone
      cases hnone
    · rwa [put_tables_ne htable]
  cases exec_eq_ok_iff.1 hrun with
  | tablePresent => exact absurd hsome hold
  | @tableCreated other columns primaryKey =>
    by_cases htable : name = other
    · subst htable
      rw [put_tables_self] at hsome
      cases hsome
      exact ⟨columns, primaryKey, rfl, rfl⟩
    · rw [put_tables_ne htable] at hsome
      exact absurd hsome hold
  | indexPresent => exact absurd hsome hold
  | indexCreated => exact absurd hsome hold
  | columnAdded htable => exact absurd hsome (hput htable)
  | columnDropped htable => exact absurd hsome (hput htable)
  | inserted htable => exact absurd hsome (hput htable)
  | ignored => exact absurd hsome hold
  | replaced htable => exact absurd hsome (hput htable)

/-! ## Creations -/

/-- What a `CREATE .. IF NOT EXISTS` is about is there. -/
def SqlStatement.Present (d : Database) : SqlStatement → Prop
  | .createTable name _ _ => ∃ t, d.tables name = some t
  | .createIndex index => ∃ found ∈ d.indexes, found.name = index.name
  | _ => False

def SqlStatement.creates : SqlStatement → Bool
  | .createTable _ _ _ => true
  | .createIndex _ => true
  | _ => false

theorem exec_of_present {stmt : SqlStatement} {d : Database} (h : stmt.Present d) : stmt.exec d = .ok d := by
  cases stmt with
  | createTable name columns primaryKey =>
    obtain ⟨t, ht⟩ := h
    exact (Does.tablePresent ht).exec
  | createIndex index =>
    obtain ⟨found, hfound, hname⟩ := h
    exact (Does.indexPresent (List.any_eq_true.2 ⟨found, hfound, decide_eq_true hname⟩)).exec
  | _ => exact absurd h id

theorem present_of_exec {stmt : SqlStatement} {d d' : Database} (hcreates : stmt.creates = true) (hrun : stmt.exec d = .ok d') :
    stmt.Present d' := by
  cases exec_eq_ok_iff.1 hrun with
  | tablePresent htable => exact ⟨_, htable⟩
  | tableCreated => exact ⟨_, put_tables_self⟩
  | indexPresent hany =>
    obtain ⟨found, hfound, hname⟩ := List.any_eq_true.1 hany
    exact ⟨found, hfound, of_decide_eq_true hname⟩
  | indexCreated => exact ⟨_, List.mem_append_right _ List.mem_cons_self, rfl⟩
  | _ => cases hcreates

theorem Extends.present {ledgers : List String} {stmt : SqlStatement} {d d' : Database} (h : Extends ledgers d d')
    (hpresent : stmt.Present d) : stmt.Present d' := by
  cases stmt with
  | createTable name columns primaryKey =>
    obtain ⟨t, ht⟩ := hpresent
    obtain ⟨t', ht', -⟩ := h.tables name t ht
    exact ⟨t', ht'⟩
  | createIndex index =>
    obtain ⟨found, hfound, hname⟩ := hpresent
    exact ⟨found, h.indexes found hfound, hname⟩
  | _ => exact absurd hpresent id

/-! ## Schemas -/

structure Schema where
  tables : String → Option (List Column × List String)
  indexes : List Index

def Database.schema (d : Database) : Schema := ⟨fun name => (d.tables name).map Table.shape, d.indexes⟩

/-- The rows a statement adds are allowed by the constraints. -/
def SqlStatement.Allowed (d : Database) : SqlStatement → Prop
  | .insert _ table values =>
    ∀ t, d.tables table = some t → t.admits (t.newRow values) ∧ t.rows.any (t.conflicts (t.newRow values)) = false
  | .replaceFrom target source columns nonNull =>
    ∀ t s, d.tables target = some t → d.tables source = some s → (selected t s columns nonNull).all t.admits
  | _ => True

section Congruence
variable {b d : Database} {name : String} {t u : Table}

theorem shape_columns (h : t.shape = u.shape) : t.columns = u.columns := congrArg Prod.fst h

theorem shape_primaryKey (h : t.shape = u.shape) : t.primaryKey = u.primaryKey := congrArg Prod.snd h

theorem shape_has (h : t.shape = u.shape) : t.has = u.has := by
  unfold Table.has
  rw [shape_columns h]

theorem schema_tables (h : b.schema = d.schema) (name : String) :
    (b.tables name).map Table.shape = (d.tables name).map Table.shape := congrFun (congrArg Schema.tables h) name

theorem schema_indexes (h : b.schema = d.schema) : b.indexes = d.indexes := congrArg Schema.indexes h

theorem schema_none (h : b.schema = d.schema) (hnone : b.tables name = none) : d.tables name = none := by
  have hname := schema_tables h name
  rw [hnone] at hname
  exact Option.map_eq_none_iff.1 hname.symm

theorem schema_some (h : b.schema = d.schema) (hsome : b.tables name = some t) : ∃ u, d.tables name = some u ∧ t.shape = u.shape := by
  have hname := schema_tables h name
  rw [hsome] at hname
  obtain ⟨u, hu, hshape⟩ := Option.map_eq_some_iff.1 hname.symm
  exact ⟨u, hu, hshape.symm⟩

theorem schema_put (h : b.schema = d.schema) (hshape : t.shape = u.shape) : (b.put name t).schema = (d.put name u).schema := by
  unfold Database.schema
  rw [put_indexes, put_indexes, schema_indexes h]
  congr 1
  funext other
  by_cases hother : other = name
  · rw [hother, put_tables_self, put_tables_self, Option.map_some, Option.map_some, hshape]
  · rw [put_tables_ne hother, put_tables_ne hother]
    exact schema_tables h other

/-- A table that only gets other rows. -/
theorem schema_put_rows (hname : d.tables name = some t) (rows : List Row) :
    (d.put name { t with rows := rows }).schema = d.schema := by
  have hshape : ({ t with rows := rows } : Table).shape = t.shape := rfl
  exact (schema_put rfl hshape).trans (congrArg Database.schema (put_eq_iff.2 hname))

theorem exec_congr {stmt : SqlStatement} {b b' d : Database} (hrun : stmt.exec b = .ok b') (hschema : b.schema = d.schema)
    (hallowed : stmt.Allowed d) : ∃ d', stmt.exec d = .ok d' ∧ b'.schema = d'.schema := by
  have hindexes := schema_indexes hschema
  cases exec_eq_ok_iff.1 hrun with
  | tablePresent htable =>
    obtain ⟨u, hu, -⟩ := schema_some hschema htable
    exact ⟨d, (Does.tablePresent hu).exec, hschema⟩
  | tableCreated hnone => exact ⟨_, (Does.tableCreated (schema_none hschema hnone)).exec, schema_put hschema rfl⟩
  | indexPresent hany =>
    rw [hindexes] at hany
    exact ⟨d, (Does.indexPresent hany).exec, hschema⟩
  | indexCreated hany htable hcolumns =>
    obtain ⟨u, hu, hshape⟩ := schema_some hschema htable
    rw [hindexes] at hany
    rw [shape_has hshape] at hcolumns
    refine ⟨_, (Does.indexCreated hany hu hcolumns).exec, ?_⟩
    unfold Database.schema
    rw [hindexes, show (fun name => (b.tables name).map Table.shape) = fun name => (d.tables name).map Table.shape from
      funext (schema_tables hschema)]
  | columnAdded htable hnew hnull =>
    obtain ⟨u, hu, hshape⟩ := schema_some hschema htable
    rw [shape_has hshape] at hnew
    refine ⟨_, (Does.columnAdded hu hnew hnull).exec, schema_put hschema ?_⟩
    unfold Table.shape
    rw [shape_columns hshape, shape_primaryKey hshape]
  | columnDropped htable hhas hfree =>
    obtain ⟨u, hu, hshape⟩ := schema_some hschema htable
    rw [shape_has hshape] at hhas
    rw [shape_primaryKey hshape, hindexes] at hfree
    refine ⟨_, (Does.columnDropped hu hhas hfree).exec, schema_put hschema ?_⟩
    unfold Table.shape
    rw [shape_columns hshape, shape_primaryKey hshape]
  | inserted htable =>
    obtain ⟨u, hu, -⟩ := schema_some hschema htable
    exact ⟨_, (Does.inserted hu (hallowed u hu)).exec,
      (schema_put_rows htable _).trans (hschema.trans (schema_put_rows hu _).symm)⟩
  | ignored htable =>
    obtain ⟨u, hu, -⟩ := schema_some hschema htable
    exact ⟨_, (Does.inserted hu (hallowed u hu)).exec, hschema.trans (schema_put_rows hu _).symm⟩
  | replaced htable hsource hhas =>
    obtain ⟨u, hu, hshape⟩ := schema_some hschema htable
    obtain ⟨v, hv, hsourceShape⟩ := schema_some hschema hsource
    rw [shape_has hshape, shape_has hsourceShape] at hhas
    exact ⟨_, (Does.replaced hu hv hhas (hallowed u v hu hv)).exec,
      (schema_put_rows htable _).trans (hschema.trans (schema_put_rows hu _).symm)⟩

theorem present_congr {stmt : SqlStatement} (hschema : b.schema = d.schema) (h : stmt.Present b) : stmt.Present d := by
  cases stmt with
  | createTable name columns primaryKey =>
    obtain ⟨t, ht⟩ := h
    obtain ⟨u, hu, -⟩ := schema_some hschema ht
    exact ⟨u, hu⟩
  | createIndex index =>
    obtain ⟨found, hfound, hname⟩ := h
    exact ⟨found, schema_indexes hschema ▸ hfound, hname⟩
  | _ => exact absurd h id

end Congruence

/-! ## Rows -/

/-- The rows of `t` are the rows of `t'`, column by column but for `dropped`. -/
structure RowsKept (dropped : String) (t t' : Table) : Prop where
  columns : ∀ column, t.has column → column ≠ dropped → t'.has column
  rows : List.Forall₂ (fun row row' : Row => ∀ column, t.has column → column ≠ dropped → row' column = row column) t.rows t'.rows

theorem RowsKept.refl (dropped : String) (t : Table) : RowsKept dropped t t :=
  ⟨fun _ h _ => h, List.forall₂_same.2 fun _ _ _ _ _ => rfl⟩

theorem RowsKept.trans {dropped : String} {t u v : Table} (h : RowsKept dropped t u) (h' : RowsKept dropped u v) :
    RowsKept dropped t v := by
  refine ⟨fun column hhas hne => h'.columns column (h.columns column hhas hne) hne, ?_⟩
  have hrows := h.rows
  have hrows' := h'.rows
  generalize t.rows = ts, u.rows = us, v.rows = vs at hrows hrows'
  induction hrows generalizing vs with
  | nil =>
    cases hrows'
    exact .nil
  | cons hrow hrows ih =>
    cases hrows' with
    | cons hrow' hrows' =>
      refine .cons (fun column hhas hne => ?_) (ih _ hrows')
      rw [hrow' column (h.columns column hhas hne) hne, hrow column hhas hne]

theorem forall₂_imp_mem {α β : Type} {R S : α → β → Prop} {as : List α} {bs : List β} (h : List.Forall₂ R as bs)
    (himp : ∀ a, ∀ b ∈ bs, R a b → S a b) : List.Forall₂ S as bs := by
  induction h with
  | nil => exact .nil
  | cons hfirst hrest ih =>
    exact .cons (himp _ _ List.mem_cons_self hfirst) (ih fun a b hb => himp a b (List.mem_cons_of_mem _ hb))

theorem RowsKept.cells {dropped column : String} {t t' : Table} (h : RowsKept dropped t t') (hhas : t.has column)
    (hne : column ≠ dropped) : t'.rows.map (fun row => row column) = t.rows.map fun row => row column := by
  have hrows := h.rows
  generalize t.rows = rows, t'.rows = rows' at hrows
  induction hrows with
  | nil => rfl
  | cons hrow hrows ih => rw [List.map_cons, List.map_cons, ih, hrow column hhas hne]

/-- The table a statement puts rows into. -/
def SqlStatement.fills : SqlStatement → Option String
  | .insert _ table _ => some table
  | .replaceFrom target _ _ _ => some target
  | _ => none

/-- The column a statement drops. -/
def SqlStatement.drops : SqlStatement → Option String
  | .dropColumn _ column => some column
  | _ => none

theorem put_rowsKept {dropped : String} {d : Database} {name other : String} {t u v : Table} (hname : d.tables name = some t)
    (hother : d.tables other = some v) (hkept : RowsKept dropped t u) :
    ∃ v', (d.put name u).tables other = some v' ∧ RowsKept dropped v v' := by
  by_cases hsame : other = name
  · subst hsame
    obtain rfl := Option.some.inj (hname.symm.trans hother)
    exact ⟨u, put_tables_self, hkept⟩
  · exact ⟨v, (put_tables_ne hsame).trans hother, .refl dropped v⟩

theorem exec_rowsKept {dropped : String} {stmt : SqlStatement} {d d' : Database} {name : String} {t : Table}
    (hrun : stmt.exec d = .ok d') (hname : d.tables name = some t) (hfills : stmt.fills ≠ some name)
    (hdrops : ∀ column, stmt.drops = some column → column = dropped) : ∃ t', d'.tables name = some t' ∧ RowsKept dropped t t' := by
  have hkept : ∃ t', d.tables name = some t' ∧ RowsKept dropped t t' := ⟨t, hname, .refl dropped t⟩
  have hput : ∀ {table v}, some table ≠ some name → ∃ t', (d.put table v).tables name = some t' ∧ RowsKept dropped t t' :=
    fun hne => ⟨t, (put_tables_ne fun heq => hne (congrArg some heq.symm)).trans hname, .refl dropped t⟩
  cases exec_eq_ok_iff.1 hrun with
  | tablePresent => exact hkept
  | tableCreated hnone =>
    refine hput fun heq => ?_
    rw [Option.some.inj heq, hname] at hnone
    cases hnone
  | indexPresent => exact hkept
  | indexCreated => exact hkept
  | columnAdded htable hnew =>
    refine put_rowsKept htable hname ⟨fun other hother _ => ?_, ?_⟩
    · unfold Table.has at hother ⊢
      rw [List.any_append, hother, Bool.true_or]
    · refine List.forall₂_map_right_iff.2 (List.forall₂_same.2 fun row _ other hother _ => ?_)
      refine Function.update_of_ne (fun heq => hnew ?_) ..
      rwa [← heq]
  | columnDropped htable =>
    refine put_rowsKept htable hname ⟨fun other hother hne => ?_, List.forall₂_same.2 fun _ _ _ _ _ => rfl⟩
    obtain ⟨found, hfound, hfoundName⟩ := List.any_eq_true.1 hother
    refine List.any_eq_true.2 ⟨found, List.mem_filter.2 ⟨hfound, decide_eq_true fun heq => hne ?_⟩, hfoundName⟩
    rw [← of_decide_eq_true hfoundName, heq, hdrops _ rfl]
  | inserted => exact hput hfills
  | ignored => exact hkept
  | replaced => exact hput hfills

/-- A table that a statement neither fills nor rewrites. -/
theorem exec_frame {stmt : SqlStatement} {d d' : Database} {name : String} {t : Table} (hrun : stmt.exec d = .ok d')
    (hname : d.tables name = some t) (hfills : stmt.fills ≠ some name) (hrewrites : stmt.rewrites ≠ some name) :
    d'.tables name = some t := by
  have hput : ∀ {table v}, some table ≠ some name → (d.put table v).tables name = some t :=
    fun hne => (put_tables_ne fun heq => hne (congrArg some heq.symm)).trans hname
  cases exec_eq_ok_iff.1 hrun with
  | tablePresent => exact hname
  | tableCreated hnone =>
    refine hput fun heq => ?_
    rw [Option.some.inj heq, hname] at hnone
    cases hnone
  | indexPresent => exact hname
  | indexCreated => exact hname
  | columnAdded => exact hput hrewrites
  | columnDropped => exact hput hrewrites
  | inserted => exact hput hfills
  | ignored => exact hname
  | replaced => exact hput hfills

/-- The table whose columns a statement changes. -/
def SqlStatement.alters : SqlStatement → Option String
  | .addColumn table _ => some table
  | .dropColumn table _ => some table
  | _ => none

theorem put_shape {d : Database} {name other : String} {t u v : Table} (hname : d.tables name = some t)
    (hother : d.tables other = some v) (hshape : u.shape = t.shape) :
    ∃ v', (d.put name u).tables other = some v' ∧ v'.shape = v.shape := by
  by_cases hsame : other = name
  · subst hsame
    obtain rfl := Option.some.inj (hname.symm.trans hother)
    exact ⟨u, put_tables_self, hshape⟩
  · exact ⟨v, (put_tables_ne hsame).trans hother, rfl⟩

/-- A table that is not altered keeps its columns. -/
theorem exec_shape {stmt : SqlStatement} {d d' : Database} {name : String} {t : Table} (hrun : stmt.exec d = .ok d')
    (hname : d.tables name = some t) (halters : stmt.alters ≠ some name) : ∃ t', d'.tables name = some t' ∧ t'.shape = t.shape := by
  have hnone : (none : Option String) ≠ some name := fun h => by cases h
  cases exec_eq_ok_iff.1 hrun with
  | tablePresent => exact ⟨t, hname, rfl⟩
  | tableCreated => exact ⟨t, exec_frame hrun hname hnone hnone, rfl⟩
  | indexPresent => exact ⟨t, hname, rfl⟩
  | indexCreated => exact ⟨t, hname, rfl⟩
  | columnAdded => exact ⟨t, exec_frame hrun hname hnone halters, rfl⟩
  | columnDropped => exact ⟨t, exec_frame hrun hname hnone halters, rfl⟩
  | inserted htable => exact put_shape htable hname rfl
  | ignored => exact ⟨t, hname, rfl⟩
  | replaced htable => exact put_shape htable hname rfl

theorem exec_insert_ok {orIgnore : Bool} {table : String} {values : List (String × Value)} {d : Database} {t : Table}
    (ht : d.tables table = some t) (hadmits : t.admits (t.newRow values) = true)
    (hfree : t.rows.any (t.conflicts (t.newRow values)) = false) :
    (SqlStatement.insert orIgnore table values).exec d = .ok (d.put table { t with rows := t.rows ++ [t.newRow values] }) :=
  (Does.inserted ht ⟨hadmits, hfree⟩).exec

/-! ## Copied rows -/

theorem exec_replaceFrom_iff {target source nonNull : String} {columns : List String} {d d' : Database} :
    (SqlStatement.replaceFrom target source columns nonNull).exec d = .ok d' ↔
      ∃ t s, d.tables target = some t ∧ d.tables source = some s ∧ ((nonNull :: columns).all s.has ∧ columns.all t.has) ∧
        (selected t s columns nonNull).all t.admits ∧
        d' = d.put target { t with rows := (selected t s columns nonNull).foldl t.replace t.rows } := by
  rw [exec_eq_ok_iff]
  constructor
  · rintro ⟨⟩
    next htable hsource hhas hadmits => exact ⟨_, _, htable, hsource, hhas, hadmits, rfl⟩
  · rintro ⟨t, s, ht, hs, hhas, hadmits, rfl⟩
    exact .replaced ht hs hhas hadmits

theorem replaceAll_eq (t : Table) {new : List Row} (hapart : new.Pairwise fun row other => t.conflicts other row = false) (rows : List Row) :
    new.foldl t.replace rows = rows.filter (fun other => !new.any fun row => t.conflicts row other) ++ new := by
  induction new using List.reverseRecOn with
  | nil => simp
  | append_singleton new row ih =>
    obtain ⟨hnew, -, hlast⟩ := List.pairwise_append.1 hapart
    have hkept : new.filter (fun other => !t.conflicts row other) = new := by
      refine List.filter_eq_self.2 fun other hother => ?_
      rw [hlast other hother row List.mem_cons_self]
      rfl
    rw [List.foldl_append, List.foldl_cons, List.foldl_nil, ih hnew]
    unfold Table.replace
    rw [List.filter_append, hkept, List.filter_filter, List.append_assoc]
    congr 2
    funext other
    rw [List.any_append, List.any_cons, List.any_nil, Bool.or_false, Bool.not_or, Bool.and_comm]

/-- Replacing by the same rows again changes nothing. -/
theorem replaceAll_idem (t : Table) {new : List Row} (hapart : new.Pairwise fun row other => t.conflicts other row = false)
    (hself : ∀ row ∈ new, t.conflicts row row = true) (rows : List Row) :
    new.foldl t.replace (new.foldl t.replace rows) = new.foldl t.replace rows := by
  rw [replaceAll_eq t hapart, replaceAll_eq t hapart, List.filter_append, List.filter_filter]
  have hnone : new.filter (fun other => !new.any fun row => t.conflicts row other) = [] := by
    refine List.filter_eq_nil_iff.2 fun other hother => ?_
    rw [Bool.not_eq_true', Bool.not_eq_false, List.any_eq_true]
    exact ⟨other, hother, hself other hother⟩
  rw [hnone, List.append_nil]
  congr 2
  funext other
  rw [Bool.and_self]

end Sql
