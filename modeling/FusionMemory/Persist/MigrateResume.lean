import FusionMemory.Lib.Crash
import FusionMemory.Persist.Columns
import FusionMemory.Persist.Migrate

/-!
Migrations that are cut off (`fm-persist/src/schema.rs`).

A process may die between any two statements of `migrate`, and the next start begins again with
whatever is there. Here a database has its rows: the one statement of a migration that touches
them is `ALTER TABLE .. ADD COLUMN`, and it writes the default of the new column to each row.

`migration_resumes` says that no rows and no values are lost on the way: from a database of any
version, and after any sequence of runs that were cut off, a run succeeds and leaves version 4,
with the old rows and the empty text in the columns that are new.
-/

namespace FusionMemory

open Lib

/-! ### A database with its rows -/

/-- Tables with rows; each row has the columns of its table. -/
structure Database (F : Type) where
  schema : Schema
  rows : String → List (Cells F)
  fits : ∀ table, ∀ row ∈ rows table, schema.columns table = some (row.map Prod.fst)

/-- `TEXT NOT NULL DEFAULT ''`, as every column that a migration adds is declared. -/
def ADDED_DEFAULT {F : Type} : SqlValue F := .text ""

/-- A statement that fails changes nothing. -/
theorem Schema.exec_error {db : Schema} {ddl : Ddl} {e : SqlError}
    (failed : (db.exec ddl).1 = .error e) : (db.exec ddl).2 = db := by
  unfold Schema.exec at failed ⊢
  cases ddl with
  | createTable name columns =>
      dsimp only at failed ⊢
      split at failed
      · cases failed
      · cases failed
  | createIndex name table columns =>
      dsimp only at failed ⊢
      split_ifs at failed ⊢
      cases found : db.columns table with
      | none => rfl
      | some existing =>
          rw [found] at failed
          dsimp only at failed ⊢
          cases missing : columns.find? fun c => !existing.contains c with
          | some c => rfl
          | none =>
              rw [missing] at failed
              cases failed
  | addColumn table column =>
      dsimp only at failed ⊢
      cases found : db.columns table with
      | none => rfl
      | some existing =>
          rw [found] at failed
          dsimp only at failed ⊢
          split_ifs at failed ⊢
          rfl
  | setUserVersion version => cases failed

/-- The columns that a table has after a statement that has succeeded. -/
def Ddl.columnsAfter : Ddl → String → List String → List String
  | .addColumn name column, table, existing =>
      if table = name then existing ++ [column] else existing
  | _, _, existing => existing

theorem Schema.columns_exec {db : Schema} {ddl : Ddl} (ok : (db.exec ddl).1 = .ok ())
    {table : String} {existing : List String} (found : db.columns table = some existing) :
    (db.exec ddl).2.columns table = some (ddl.columnsAfter table existing) := by
  unfold Ddl.columnsAfter
  unfold Schema.exec at ok ⊢
  cases ddl with
  | createTable name columns =>
      dsimp only
      cases present : db.columns name with
      | some _ => exact found
      | none =>
          dsimp only
          rw [Schema.columns_upsert, if_neg, found]
          rintro rfl
          cases found.symm.trans present
  | createIndex name table' columns =>
      dsimp only at ok ⊢
      split_ifs with there
      · exact found
      · split
        · exact found
        · split
          · exact found
          · exact found
  | addColumn name column =>
      dsimp only at ok ⊢
      cases present : db.columns name with
      | none =>
          rw [present] at ok
          cases ok
      | some columns =>
          rw [present] at ok
          dsimp only at ok ⊢
          split_ifs at ok ⊢ with there same
          · subst same
            cases found.symm.trans present
            rw [Schema.columns_upsert, if_pos rfl]
          · rw [Schema.columns_upsert, if_neg (Ne.symm same), found]
  | setUserVersion version => exact found

namespace Database

variable {F : Type}

/-- The rows after a statement that has succeeded. -/
def rowsAfter (db : Database F) : Ddl → String → List (Cells F)
  | .addColumn table column, name =>
      if name = table then (db.rows name).map (· ++ [(column, ADDED_DEFAULT)]) else db.rows name
  | _, name => db.rows name

theorem fits_exec (db : Database F) {ddl : Ddl} (ok : (db.schema.exec ddl).1 = .ok ()) :
    ∀ table, ∀ row ∈ db.rowsAfter ddl table,
      (db.schema.exec ddl).2.columns table = some (row.map Prod.fst) := by
  intro table row mem
  cases ddl with
  | addColumn name column =>
      unfold rowsAfter at mem
      dsimp only at mem
      split_ifs at mem with same
      · obtain ⟨old, there, rfl⟩ := List.mem_map.mp mem
        rw [Schema.columns_exec ok (db.fits table old there)]
        unfold Ddl.columnsAfter
        dsimp only
        rw [if_pos same, List.map_append]
        rfl
      · rw [Schema.columns_exec ok (db.fits table row mem)]
        unfold Ddl.columnsAfter
        dsimp only
        rw [if_neg same]
  | _ => exact Schema.columns_exec ok (db.fits table row mem)

/-- A statement, on the schema and on the rows. -/
def exec (db : Database F) (ddl : Ddl) : Except SqlError Unit × Database F :=
  match ok : (db.schema.exec ddl).1 with
  | .ok () => (.ok (), ⟨(db.schema.exec ddl).2, db.rowsAfter ddl, db.fits_exec ok⟩)
  | .error e => (.error e, db)

theorem exec_schema (db : Database F) (ddl : Ddl) :
    db.schema.exec ddl = ((db.exec ddl).1, (db.exec ddl).2.schema) := by
  unfold exec
  split
  · next ok => exact Prod.ext ok rfl
  · next e failed => exact Prod.ext failed (Schema.exec_error failed)

end Database

/-- Statements served on a database with its rows. -/
def sqliteRows {F : Type} : Machine sqlSignature (Database F) where
  ready _ _ := true
  exec
    | .userVersion, db => (db.schema.userVersion, db)
    | .hasColumn table column, db => (db.schema.countColumn table column, db)
    | .executeBatch ddl, db => db.exec ddl

theorem sqliteRows_covers {F : Type} :
    Program.Covers (sqliteRows (F := F)) sqlite Database.schema := by
  intro r db
  cases r with
  | executeBatch ddl => exact db.exec_schema ddl
  | _ => rfl

/-! ### Databases of the versions, and what is kept of them -/

/-- The columns of `memory_item` that are newer than version `v`. -/
def newerThan (v : Nat) : List String :=
  if v < 3 then ADDED else if v < 4 then ["namespace", "namespace_key"] else []

/-- The columns that a table of the program has in version `v`. -/
def columnsOf (v : Nat) (table : String) : List String :=
  (declared table).filter fun c => !(table == "memory_item" && (newerThan v).contains c)

/-- A database of version `v`: its tables have the columns of that version, in any order. What
else it has, tables of others and indexes, is up to it; a new database has version 0 and nothing. -/
structure Schema.OfVersion (db : Schema) (v : Nat) : Prop where
  version : db.userVersion = v
  known : v ≤ SCHEMA_VERSION
  distinct : ∀ table existing, db.columns table = some existing → existing.Nodup
  columns : ∀ table existing, db.columns table = some existing → ∀ c ∈ columnsOf v table, c ∈ existing
  main : v ≠ 0 → db.columns "memory_item" ≠ none

/-- Every row is kept with its values, and has the default in the columns that were added. -/
structure KeepsRows {F : Type} (db db' : Database F) : Prop where
  kept : ∀ table existing, db.schema.columns table = some existing → ∃ added : List String,
    (∀ c ∈ added, table = "memory_item" ∧ c ∈ ADDED) ∧
    db'.schema.columns table = some (existing ++ added) ∧
    db'.rows table = (db.rows table).map (· ++ added.map (·, ADDED_DEFAULT))
  created : ∀ table, db.schema.columns table = none → db'.rows table = []

section Kept

variable {F : Type}

/-- A table that does not exist has no rows. -/
theorem Database.rows_eq_nil {db : Database F} {table : String}
    (missing : db.schema.columns table = none) : db.rows table = [] := by
  rw [List.eq_nil_iff_forall_not_mem]
  intro row mem
  cases missing.symm.trans (db.fits table row mem)

theorem KeepsRows.refl (db : Database F) : KeepsRows db db := by
  refine ⟨fun table existing found => ⟨[], fun c mem => (by cases mem), ?_, ?_⟩,
    fun table missing => db.rows_eq_nil missing⟩
  · rw [List.append_nil]
    exact found
  · simp

theorem KeepsRows.trans {db db' db'' : Database F} (first : KeepsRows db db')
    (last : KeepsRows db' db'') : KeepsRows db db'' := by
  refine ⟨fun table existing found => ?_, fun table missing => ?_⟩
  · obtain ⟨added, these, found', rows⟩ := first.kept table existing found
    obtain ⟨added', those, found'', rows'⟩ := last.kept table _ found'
    refine ⟨added ++ added', fun c mem => ?_, ?_, ?_⟩
    · exact (List.mem_append.mp mem).elim (these c) (those c)
    · rw [found'', List.append_assoc]
    · rw [rows', rows, List.map_map, List.map_append]
      exact List.map_congr_left fun row _ => List.append_assoc ..
  · cases there : db'.schema.columns table with
    | none => exact last.created table there
    | some existing =>
        obtain ⟨added, -, -, rows⟩ := last.kept table existing there
        rw [rows, first.created table missing]
        rfl

/-- The statements of a migration: those that add a column add one of the three. -/
def OfMigration : Sql → Prop
  | .executeBatch (.addColumn table column) => table = "memory_item" ∧ column ∈ ADDED
  | _ => True

theorem keepsRows_exec (r : Sql) (db : Database F) (allowed : OfMigration r) :
    KeepsRows db (sqliteRows.exec r db).2 := by
  cases r with
  | executeBatch ddl =>
      change KeepsRows db (db.exec ddl).2
      unfold Database.exec
      split
      · next ok =>
        refine ⟨fun table existing found => ?_, fun table missing => ?_⟩
        · have after := Schema.columns_exec ok found
          unfold Ddl.columnsAfter at after
          cases ddl with
          | addColumn name column =>
              dsimp only at after
              unfold Database.rowsAfter
              dsimp only
              split_ifs at after ⊢ with same
              · refine ⟨[column], fun c mem => ?_, after, rfl⟩
                rw [List.mem_singleton.mp mem, same]
                exact allowed
              · exact ⟨[], fun c mem => (by cases mem), after.trans (by rw [List.append_nil]), by simp⟩
          | _ => exact ⟨[], fun c mem => (by cases mem), after.trans (by rw [List.append_nil]),
              by simp [Database.rowsAfter]⟩
        · have none := db.rows_eq_nil missing
          unfold Database.rowsAfter
          dsimp only
          split
          · rw [none]
            split_ifs
            · rfl
            · rfl
          · exact none
      · exact .refl db
  | _ => exact .refl db

end Kept

namespace Migration

/-! ### One run -/

section Run

variable {F : Type}

theorem executeBatch_only {ddl : Ddl} (allowed : OfMigration (.executeBatch ddl)) :
    Program.Only OfMigration (executeBatch ddl) :=
  (Program.Only.perform allowed).bind fun reply => Program.Only.ofExcept reply

/-- A run requests what a migration does. -/
theorem migrate_only : Program.Only OfMigration migrate := by
  refine migrate_induction trivial (fun first rest => first.bind fun _ => rest) (fun known => ?_)
    (fun ddl listed => executeBatch_only ?_) (fun c added => ?_) (executeBatch_only trivial)
  · exact ⟨trivial, known⟩
  · cases ddl with
    | addColumn table column => exact absurd (allDdl_wellDeclared _ listed) id
    | _ => trivial
  · refine ⟨trivial, fun count => ?_⟩
    change Program.Only OfMigration
      (if count = 0 then executeBatch (.addColumn "memory_item" c) else pure ())
    split_ifs
    · exact executeBatch_only ⟨rfl, added⟩
    · trivial

theorem executeBatch_checked {ddl : Ddl} {db : Schema} (meets : AddsMissing db (.executeBatch ddl)) :
    Program.Checked sqlite AddsMissing (executeBatch ddl) db := by
  refine ⟨meets, ?_⟩
  change Program.Checked sqlite AddsMissing (Program.ofExcept (db.exec ddl).1) (db.exec ddl).2
  cases (db.exec ddl).1 with
  | ok _ => trivial
  | error e => trivial

/-- Alone, a run adds only columns that are missing: it has looked. -/
theorem migrate_checked : ∀ db, Program.Checked sqlite AddsMissing migrate db := by
  refine migrate_induction (P := fun p => ∀ db, Program.Checked sqlite AddsMissing p db)
    (fun _ => trivial) (fun first rest db => (first db).bind fun _ => rest)
    (fun known db => ⟨trivial, known _ _⟩) (fun ddl listed db => executeBatch_checked ?_)
    (fun c added db => ?_) (fun db => executeBatch_checked trivial)
  · cases ddl with
    | addColumn table column => exact absurd (allDdl_wellDeclared _ listed) id
    | _ => trivial
  · refine ⟨trivial, ?_⟩
    change Program.Checked sqlite AddsMissing (if db.countColumn "memory_item" c = 0 then
      executeBatch (.addColumn "memory_item" c) else pure ()) db
    split_ifs with absent
    · exact executeBatch_checked (addsMissing_of (beq_iff_eq.mpr absent))
    · trivial

/-- A database of version 4 is left as it is. -/
theorem cut_migrate_of_current {db : Database F} (current : SCHEMA_VERSION ≤ db.schema.userVersion)
    (k : Nat) : migrate.cut sqliteRows k db = db := by
  cases k with
  | zero => rfl
  | succ k =>
      change (if db.schema.userVersion ≥ SCHEMA_VERSION then pure () else migrateFrom
        db.schema.userVersion : Migration Unit).cut sqliteRows k db = db
      rw [if_pos current]
      exact Program.cut_done sqliteRows k () db

theorem run_migrate_of_current {db : Database F} (current : SCHEMA_VERSION ≤ db.schema.userVersion) :
    migrate.run sqliteRows db = (.ok (), db) := by
  change (if db.schema.userVersion ≥ SCHEMA_VERSION then pure () else migrateFrom
    db.schema.userVersion : Migration Unit).run sqliteRows db = _
  rw [if_pos current]
  rfl

/-! ### After any runs that were cut off -/

/-- A database that a migration can begin with, be it for the first time or again. -/
structure Resumable (db : Schema) : Prop where
  coherent : db.Coherent
  known : db.userVersion ≤ SCHEMA_VERSION

theorem Resumable.grows {db db' : Schema} (resumable : Resumable db) (grows : db.Grows db') :
    Resumable db' := by
  refine ⟨grows.coherent resumable.coherent, ?_⟩
  rcases grows.version with same | new
  · rw [same]
    exact resumable.known
  · exact Nat.le_of_eq new

theorem resumable_of_version {db : Schema} {v : Nat} (of : db.OfVersion v) : Resumable db := by
  have old : ∀ table, ∀ c ∈ declared table, c ∉ ADDED → c ∈ columnsOf v table := by
    intro table c mem isOld
    refine List.mem_filter.mpr ⟨mem, ?_⟩
    have notNewer : c ∉ newerThan v := by
      intro newer
      unfold newerThan at newer
      split_ifs at newer
      · exact isOld newer
      · exact isOld (List.mem_cons_of_mem _ newer)
      · cases newer
    simp [notNewer]
  have reached : ∀ u, u ≤ db.userVersion → u ≤ v := fun u le => of.version ▸ le
  refine ⟨⟨of.distinct, fun table existing found c mem isOld =>
    of.columns table existing found c (old table c mem isOld), fun three existing found => ?_,
    fun four c mem => ?_⟩, of.version ▸ of.known⟩
  · refine of.columns _ existing found "tenant" (List.mem_filter.mpr ⟨by decide +kernel, ?_⟩)
    unfold newerThan
    rw [if_neg (Nat.not_lt.mpr (reached 3 three))]
    split_ifs
    · decide +kernel
    · rfl
  · obtain ⟨existing, found⟩ := Option.ne_none_iff_exists'.mp
      (of.main (Nat.pos_iff_ne_zero.mp (Nat.lt_of_lt_of_le (by decide) (reached 4 four))))
    refine ⟨existing, found, of.columns _ existing found c (List.mem_filter.mpr ⟨?_, ?_⟩)⟩
    · revert c
      decide +kernel
    · unfold newerThan
      rw [if_neg (Nat.not_lt.mpr (Nat.le_of_lt (reached 4 four))),
        if_neg (Nat.not_lt.mpr (reached 4 four))]
      simp

/-- A run that is cut off leaves what a run can begin with. -/
theorem resumable_cut (k : Nat) (db : Database F) (resumable : Resumable db.schema) :
    Resumable (migrate.cut sqliteRows k db).schema := by
  rcases Nat.lt_or_ge db.schema.userVersion SCHEMA_VERSION with older | current
  · rw [Program.view_cut sqliteRows_covers]
    exact resumable.grows ((leads_migrate resumable.coherent older).cut Schema.Grows.refl
      Schema.Grows.trans (migrate_checked _) k)
  · rw [cut_migrate_of_current current]
    exact resumable

/-- A run that is not cut off succeeds, and leaves version 4. -/
theorem run_of_resumable {db : Database F} (resumable : Resumable db.schema) :
    (migrate.run sqliteRows db).1 = .ok () ∧ (migrate.run sqliteRows db).2.schema.Current := by
  have reached : (migrate.run sqliteRows db).1 = .ok () ∧
      (migrate.run sqliteRows db).2.schema.userVersion = SCHEMA_VERSION := by
    rcases Nat.lt_or_ge db.schema.userVersion SCHEMA_VERSION with older | current
    · have ends := (leads_migrate resumable.coherent older).run Schema.Grows.refl (migrate_checked _)
      rw [Program.run_view sqliteRows_covers] at ends
      dsimp only at ends
      cases result : (migrate.run sqliteRows db).1 with
      | ok _ =>
          rw [result] at ends
          exact ⟨rfl, ends⟩
      | error e =>
          rw [result] at ends
          exact absurd ends id
    · rw [run_migrate_of_current current]
      exact ⟨rfl, Nat.le_antisymm resumable.known current⟩
  have after : Resumable (migrate.run sqliteRows db).2.schema := by
    obtain ⟨k, same⟩ := Program.exists_cut_eq_run sqliteRows migrate db
    rw [← same]
    exact resumable_cut k db resumable
  refine ⟨reached.1, reached.2, fun c mem => after.coherent.countColumn_eq_one ?_⟩
  exact after.coherent.current (Nat.le_of_eq reached.2.symm) c mem

/-- From a database of any version: runs that are cut off anywhere, then one that is not. It
succeeds and leaves the schema of version 4, with the old rows as they were and `''` in the new
columns; what is run after that changes nothing. -/
theorem migration_resumes {db : Database F} {v : Nat} (of : db.schema.OfVersion v) (ks : List Nat) :
    ∃ db', migrate.run sqliteRows (migrate.cuts sqliteRows ks db) = (.ok (), db') ∧
      db'.schema.Current ∧ KeepsRows db db' ∧ migrate.run sqliteRows db' = (.ok (), db') ∧
      ∀ k, migrate.cut sqliteRows k db' = db' := by
  have resumable : Resumable (migrate.cuts sqliteRows ks db).schema :=
    Program.cuts_induction (I := fun db : Database F => Resumable db.schema) resumable_cut ks
      (resumable_of_version of)
  have kept : KeepsRows db (migrate.cuts sqliteRows ks db) :=
    Program.cuts_induction (I := KeepsRows db) (fun k db' before => before.trans
      (migrate_only.cut KeepsRows.refl KeepsRows.trans keepsRows_exec k db')) ks (.refl db)
  obtain ⟨ok, current⟩ := run_of_resumable resumable
  have now := Nat.le_of_eq current.version.symm
  refine ⟨_, Prod.ext ok rfl, current, kept.trans ?_, run_migrate_of_current now,
    cut_migrate_of_current now⟩
  exact migrate_only.run KeepsRows.refl KeepsRows.trans keepsRows_exec _

end Run

/-! ### A database of version 2 with a row -/

/-- The values of a row as version 2 has written it. -/
def rowV2 : Cells Int :=
  memoryItemV2.zip
    [.text "m1", .text "i1", .integer 0, .text "s1", .text "Event", .text "Short", .text "hello",
     .text "7", .real 1, .integer 3, .integer 100, .integer 50, .null, .integer 0, .integer 1,
     .text "[]"]

theorem rowV2_fits : ∀ table, ∀ row ∈ (if table = "memory_item" then [rowV2] else []),
    schemaV2.columns table = some (row.map Prod.fst) := by
  intro table row mem
  split_ifs at mem with same
  · rw [same, List.mem_singleton.mp mem]
    decide +kernel
  · cases mem

def databaseV2 : Database Int where
  schema := schemaV2
  rows table := if table = "memory_item" then [rowV2] else []
  fits := rowV2_fits

theorem databaseV2_ofVersion : databaseV2.schema.OfVersion 2 where
  version := rfl
  known := by decide
  distinct := schemaV2_coherent.nodup
  columns := by
    intro table existing found c mem
    obtain ⟨rfl, rfl⟩ := schemaV2_only table existing found
    revert c
    decide +kernel
  main := fun _ => by decide +kernel

/-- Cut off in the middle of the columns, then before the version is written. -/
theorem migration_resumes_v2 : databaseV2.schema.OfVersion 2 ∧
    ∃ db', migrate.run sqliteRows (migrate.cuts sqliteRows [5, 0, 24] databaseV2) = (.ok (), db') ∧
      db'.schema.Current ∧ KeepsRows databaseV2 db' ∧
      migrate.run sqliteRows db' = (.ok (), db') ∧ ∀ k, migrate.cut sqliteRows k db' = db' :=
  ⟨databaseV2_ofVersion, migration_resumes databaseV2_ofVersion [5, 0, 24]⟩

end Migration

end FusionMemory
