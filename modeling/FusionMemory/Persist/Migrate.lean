import FusionMemory.Lib.Interference
import FusionMemory.Lib.Table

/-!
The migration of the database schema (`fm-persist/src/schema.rs`).

Each connection of the pool migrates when it is opened: it reads `user_version`, creates the
main table, adds the columns that are missing, creates the other tables and the indexes, and
writes the version. Each of these is a statement of its own and there is no transaction, so
connections that are opened together interleave. A column is added when a query before has
not found it; SQLite refuses to add it twice.

`migrations_succeed_iff` says that this is all that can go wrong: the migrations of a run all
succeed, and leave the schema of version 4, exactly when no column is added that another
connection has added between the query and the `ALTER TABLE`.
-/

namespace FusionMemory

open Lib

/-! ### Statements -/

/-- A statement that changes the schema. -/
inductive Ddl where
  /-- `CREATE TABLE IF NOT EXISTS`. -/
  | createTable (name : String) (columns : List String)
  /-- `CREATE INDEX IF NOT EXISTS`. -/
  | createIndex (name table : String) (columns : List String)
  /-- `ALTER TABLE .. ADD COLUMN`. -/
  | addColumn (table column : String)
  /-- `PRAGMA user_version = ..`. -/
  | setUserVersion (version : Nat)
deriving DecidableEq, Repr

inductive SqlError where
  | noSuchTable (table : String)
  | noSuchColumn (column : String)
  | duplicateColumn (column : String)
deriving DecidableEq, Repr

/-- What migration sees of a database: the version, the columns of each table, the indexes. -/
structure Schema where
  userVersion : Nat
  tables : Table String (String × List String) Prod.fst
  indexes : List String

namespace Schema

def columns (db : Schema) (table : String) : Option (List String) :=
  (db.tables.find? table).map Prod.snd

/-- A statement, all of it or nothing. -/
def exec (db : Schema) : Ddl → Except SqlError Unit × Schema
  | .createTable name columns =>
      match db.columns name with
      | some _ => (.ok (), db)
      | none => (.ok (), { db with tables := db.tables.upsert (name, columns) })
  | .createIndex name table columns =>
      if db.indexes.contains name then (.ok (), db)
      else match db.columns table with
        | none => (.error (.noSuchTable table), db)
        | some existing =>
            match columns.find? fun c => !existing.contains c with
            | some c => (.error (.noSuchColumn c), db)
            | none => (.ok (), { db with indexes := db.indexes ++ [name] })
  | .addColumn table column =>
      match db.columns table with
      | none => (.error (.noSuchTable table), db)
      | some existing =>
          if existing.contains column then (.error (.duplicateColumn column), db)
          else (.ok (), { db with tables := db.tables.upsert (table, existing ++ [column]) })
  | .setUserVersion version => (.ok (), { db with userVersion := version })

/-- `SELECT COUNT(*) FROM pragma_table_info(table) WHERE name = column`. -/
def countColumn (db : Schema) (table column : String) : Nat :=
  match db.columns table with
  | none => 0
  | some existing => existing.count column

end Schema

inductive Sql where
  | userVersion
  | hasColumn (table column : String)
  | executeBatch (ddl : Ddl)

@[reducible] def Sql.Reply : Sql → Type
  | .userVersion | .hasColumn _ _ => Nat
  | .executeBatch _ => Except SqlError Unit

abbrev sqlSignature : Signature := ⟨Sql, Sql.Reply⟩

/-- Statements served on a database, one at a time. -/
def sqlite : Machine sqlSignature Schema where
  ready _ _ := true
  exec
    | .userVersion, db => (db.userVersion, db)
    | .hasColumn table column, db => (db.countColumn table column, db)
    | .executeBatch ddl, db => db.exec ddl

abbrev Migration (α : Type) := Program sqlSignature SqlError α

def userVersion : Migration Nat := Program.perform (S := sqlSignature) .userVersion

def hasColumn (table column : String) : Migration Nat :=
  Program.perform (S := sqlSignature) (.hasColumn table column)

def executeBatch (ddl : Ddl) : Migration Unit := do
  let reply ← (Program.perform (S := sqlSignature) (.executeBatch ddl) : Migration _)
  Program.ofExcept reply

/-! ### The schema -/

def MEMORY_ITEM_DDL : Ddl := .createTable "memory_item"
  ["id", "interaction_id", "turn_idx", "session_id", "tenant", "memory_type", "tier", "content",
   "vector_ref", "weight", "access_count", "last_accessed_timestamp", "created_timestamp",
   "provenance", "tombstone", "entities_pending", "entities_json", "namespace", "namespace_key"]

def ENTITY_DDL : Ddl := .createTable "entity" ["id", "name", "aliases", "entity_type"]
def MEMORY_ENTITY_DDL : Ddl := .createTable "memory_entity" ["memory_id", "entity_id"]

def RELATION_DDL : Ddl :=
  .createTable "relation" ["src", "dst", "rel_type", "weight", "rule_priority", "first_seen"]

def CONSOLIDATION_LOG_DDL : Ddl := .createTable "consolidation_log"
  ["id", "started_at", "elapsed_ms", "dropped", "promoted", "merged", "summarized", "reextracted",
   "reconciled"]

def MERGE_LOG_DDL : Ddl := .createTable "merge_log" ["id", "at", "source_id", "target_id", "reason"]

def RECONCILE_REPORT_DDL : Ddl :=
  .createTable "reconcile_report" ["id", "at", "memory_id", "stage", "error"]

def WOP_LOG_DDL : Ddl := .createTable "wop_log" ["seq", "op", "payload", "at"]

def AUDIT_LOG_DDL : Ddl :=
  .createTable "audit_log" ["id", "at", "actor", "action", "target_id", "detail"]

def INDEX_INTERACTION : Ddl :=
  .createIndex "idx_memory_interaction" "memory_item" ["interaction_id"]

def INDEX_SESSION : Ddl := .createIndex "idx_memory_session" "memory_item" ["session_id"]
def INDEX_TIER : Ddl := .createIndex "idx_memory_tier" "memory_item" ["tier", "tombstone"]
def INDEX_WOP_SEQ : Ddl := .createIndex "idx_wop_at" "wop_log" ["at"]

def INDEX_MEMORY_ENTITY_EID : Ddl :=
  .createIndex "idx_memory_entity_eid" "memory_entity" ["entity_id"]

def INDEX_MEMORY_VECTOR_REF : Ddl :=
  .createIndex "idx_memory_vector_ref" "memory_item" ["vector_ref"]

def INDEX_MEMORY_TENANT : Ddl :=
  .createIndex "idx_memory_tenant" "memory_item" ["tenant", "tombstone"]

def INDEX_MEMORY_NAMESPACE : Ddl :=
  .createIndex "idx_memory_namespace" "memory_item" ["namespace", "namespace_key", "tombstone"]

def ALL_DDL : List Ddl :=
  [MEMORY_ITEM_DDL, ENTITY_DDL, MEMORY_ENTITY_DDL, RELATION_DDL, CONSOLIDATION_LOG_DDL,
   MERGE_LOG_DDL, RECONCILE_REPORT_DDL, WOP_LOG_DDL, AUDIT_LOG_DDL, INDEX_INTERACTION,
   INDEX_SESSION, INDEX_TIER, INDEX_WOP_SEQ, INDEX_MEMORY_ENTITY_EID, INDEX_MEMORY_VECTOR_REF,
   INDEX_MEMORY_TENANT, INDEX_MEMORY_NAMESPACE]

def SCHEMA_VERSION : Nat := 4

/-! ### Migrating -/

/-- `ALTER TABLE` has no `IF NOT EXISTS`, so the column is looked up first. -/
def addMissing (column : String) : Migration Unit := do
  let has ← hasColumn "memory_item" column
  if has = 0 then executeBatch (.addColumn "memory_item" column) else pure ()

/-- v2 to v3: the tenant. -/
def addTenant («from» : Nat) : Migration Unit :=
  if «from» < 3 then addMissing "tenant" else pure ()

/-- v3 to v4: the namespace and its key. -/
def addNamespace («from» : Nat) : Migration Unit :=
  if «from» < 4 then ["namespace", "namespace_key"].forM addMissing else pure ()

def migrateFrom («from» : Nat) : Migration Unit := do
  -- The main table comes first: a new database needs it, and indexes need its new columns.
  executeBatch MEMORY_ITEM_DDL
  addTenant «from»
  addNamespace «from»
  ALL_DDL.forM executeBatch
  executeBatch (.setUserVersion SCHEMA_VERSION)

def migrate : Migration Unit := do
  let «from» ← userVersion
  if «from» ≥ SCHEMA_VERSION then pure () else migrateFrom «from»

/-- The columns of `memory_item` that came with a later version. -/
def ADDED : List String := ["tenant", "namespace", "namespace_key"]

/-- What holds of the parts of a migration and of sequences holds of it all. -/
theorem migrate_induction {P : Migration Unit → Prop} (nothing : P (pure ()))
    (sequence : ∀ {p q : Migration Unit}, P p → P q → P (p >>= fun _ => q))
    (reading : (∀ v, P (if v ≥ SCHEMA_VERSION then pure () else migrateFrom v)) → P migrate)
    (statement : ∀ ddl ∈ ALL_DDL, P (executeBatch ddl)) (column : ∀ c ∈ ADDED, P (addMissing c))
    (version : P (executeBatch (.setUserVersion SCHEMA_VERSION))) : P migrate := by
  have every : ∀ ddls : List Ddl, (∀ ddl ∈ ddls, ddl ∈ ALL_DDL) → P (ddls.forM executeBatch) := by
    intro ddls listed
    induction ddls with
    | nil => exact nothing
    | cons ddl rest ih =>
        exact sequence (statement ddl (listed ddl List.mem_cons_self))
          (ih fun other mem => listed other (List.mem_cons_of_mem _ mem))
  have tenant : ∀ v, P (addTenant v) := by
    intro v
    unfold addTenant
    split_ifs
    · exact column "tenant" (by decide)
    · exact nothing
  have namespaces : ∀ v, P (addNamespace v) := by
    intro v
    unfold addNamespace
    split_ifs
    · exact sequence (column "namespace" (by decide))
        (sequence (column "namespace_key" (by decide)) nothing)
    · exact nothing
  refine reading fun v => ?_
  split_ifs
  · exact nothing
  · refine sequence (statement MEMORY_ITEM_DDL List.mem_cons_self) ?_
    refine sequence (tenant v) (sequence (namespaces v) ?_)
    exact sequence (every ALL_DDL fun _ mem => mem) version

/-! ### Databases of the versions -/

/-- The columns with which a table is created. -/
def declared (table : String) : List String :=
  ALL_DDL.flatMap fun ddl => match ddl with
    | .createTable name columns => if name = table then columns else []
    | _ => []

/-- A table is declared once, with distinct columns, `memory_item` with all that came later;
an index is over declared columns, and only `memory_item` has some that came later. -/
def Ddl.WellDeclared : Ddl → Prop
  | .createTable name columns => columns.Nodup ∧ declared name = columns ∧
      (name = "memory_item" → ∀ c ∈ ADDED, c ∈ columns)
  | .createIndex _ table columns => columns ≠ [] ∧
      ∀ c ∈ columns, c ∈ declared table ∧ (c ∈ ADDED → table = "memory_item")
  | _ => False

instance : (ddl : Ddl) → Decidable ddl.WellDeclared
  | .createTable name columns => inferInstanceAs (Decidable (columns.Nodup ∧
      declared name = columns ∧ (name = "memory_item" → ∀ c ∈ ADDED, c ∈ columns)))
  | .createIndex _ table columns => inferInstanceAs (Decidable (columns ≠ [] ∧
      ∀ c ∈ columns, c ∈ declared table ∧ (c ∈ ADDED → table = "memory_item")))
  | .addColumn _ _ => inferInstanceAs (Decidable False)
  | .setUserVersion _ => inferInstanceAs (Decidable False)

/-- Once an index is created, no table is. -/
def Ddl.Ordered : Ddl → Ddl → Bool
  | .createIndex _ _ _, .createTable _ _ => false
  | _, _ => true

theorem allDdl_ordered : ALL_DDL.Pairwise fun a b => a.Ordered b = true := by decide +kernel

theorem allDdl_wellDeclared : ∀ ddl ∈ ALL_DDL, ddl.WellDeclared := by decide +kernel

namespace Schema

def Has (db : Schema) (table column : String) : Prop :=
  ∃ existing, db.columns table = some existing ∧ column ∈ existing

/-- A database that some version of the program has left: its tables have the columns that
they were created with, and `memory_item` those that came with the versions up to its own. -/
structure Coherent (db : Schema) : Prop where
  nodup : ∀ table existing, db.columns table = some existing → existing.Nodup
  created : ∀ table existing, db.columns table = some existing →
    ∀ c ∈ declared table, c ∉ ADDED → c ∈ existing
  tenant : 3 ≤ db.userVersion → ∀ existing, db.columns "memory_item" = some existing →
    "tenant" ∈ existing
  current : 4 ≤ db.userVersion → ∀ c ∈ ADDED, db.Has "memory_item" c

/-- What a connection may do to the schema and rely on the others to do. -/
structure Grows (db db' : Schema) : Prop where
  coherent : db.Coherent → db'.Coherent
  columns : ∀ table existing, db.columns table = some existing →
    ∃ existing', db'.columns table = some existing' ∧ ∀ c ∈ existing, c ∈ existing'
  version : db'.userVersion = db.userVersion ∨ db'.userVersion = SCHEMA_VERSION

/-- Version 4, with each of the three columns once. -/
structure Current (db : Schema) : Prop where
  version : db.userVersion = SCHEMA_VERSION
  columns : ∀ c ∈ ADDED, db.countColumn "memory_item" c = 1

end Schema

/-- A column is added where it is missing. -/
def AddsMissing (db : Schema) : Sql → Prop
  | .executeBatch (.addColumn table column) => ¬ db.Has table column
  | _ => True

/-! ### What statements do -/

namespace Schema

variable {db db' db'' : Schema}

theorem columns_upsert (db : Schema) (name : String) (columns : List String) (table : String) :
    ({ db with tables := db.tables.upsert (name, columns) } : Schema).columns table =
      if name = table then some columns else db.columns table := by
  unfold Schema.columns
  rw [Table.find?_upsert]
  split_ifs
  · rfl
  · rfl

theorem Grows.refl (db : Schema) : db.Grows db :=
  ⟨id, fun _ existing found => ⟨existing, found, fun _ mem => mem⟩, .inl rfl⟩

theorem Grows.trans (db db' db'' : Schema) (first : db.Grows db') (last : db'.Grows db'') :
    db.Grows db'' := by
  refine ⟨fun c => last.coherent (first.coherent c), fun table existing found => ?_, ?_⟩
  · obtain ⟨existing', found', kept⟩ := first.columns table existing found
    obtain ⟨existing'', found'', kept'⟩ := last.columns table existing' found'
    exact ⟨existing'', found'', fun c mem => kept' c (kept c mem)⟩
  · rcases last.version with same | new
    · rw [same]
      exact first.version
    · exact .inr new

/-- A database does not fall back. -/
theorem Grows.notOlder (grows : db.Grows db') {v : Nat} (known : v ≤ SCHEMA_VERSION)
    (reached : v ≤ db.userVersion) : v ≤ db'.userVersion := by
  rcases grows.version with same | new
  · rw [same]
    exact reached
  · rw [new]
    exact known

/-- Columns stay. -/
theorem Has.grows {table column : String} (has : db.Has table column) (grows : db.Grows db') :
    db'.Has table column := by
  obtain ⟨existing, found, mem⟩ := has
  obtain ⟨existing', found', kept⟩ := grows.columns table existing found
  exact ⟨existing', found', kept column mem⟩

/-- A statement that changes neither columns nor version. -/
theorem grows_of_same (columns : ∀ table, db'.columns table = db.columns table)
    (version : db'.userVersion = db.userVersion) : db.Grows db' := by
  refine ⟨fun coherent => ⟨?_, ?_, ?_, ?_⟩, ?_, .inl version⟩
  · intro table existing found
    exact coherent.nodup table existing ((columns table).symm.trans found)
  · intro table existing found
    exact coherent.created table existing ((columns table).symm.trans found)
  · intro newer existing found
    exact coherent.tenant (version ▸ newer) existing ((columns _).symm.trans found)
  · intro newer c mem
    obtain ⟨existing, found, there⟩ := coherent.current (version ▸ newer) c mem
    exact ⟨existing, (columns _).trans found, there⟩
  · intro table existing found
    exact ⟨existing, (columns table).trans found, fun _ mem => mem⟩

theorem grows_createTable {name : String} {columns : List String}
    (listed : .createTable name columns ∈ ALL_DDL) (db : Schema) :
    db.Grows (db.exec (.createTable name columns)).2 := by
  obtain ⟨nodup, same, added⟩ := allDdl_wellDeclared _ listed
  unfold exec
  dsimp only
  cases missing : db.columns name with
  | some _ => exact .refl db
  | none =>
      dsimp only
      have other : ∀ table existing, db.columns table = some existing → name ≠ table := by
        rintro table existing found rfl
        cases missing.symm.trans found
      refine ⟨fun coherent => ⟨?_, ?_, ?_, ?_⟩, ?_, .inl rfl⟩
      · intro table existing found
        rw [columns_upsert] at found
        split_ifs at found
        · cases found
          exact nodup
        · exact coherent.nodup table existing found
      · intro table existing found c mem isOld
        rw [columns_upsert] at found
        split_ifs at found with isName
        · cases found
          rw [← isName, same] at mem
          exact mem
        · exact coherent.created table existing found c mem isOld
      · intro newer existing found
        rw [columns_upsert] at found
        split_ifs at found with isName
        · cases found
          exact added isName "tenant" (by decide)
        · exact coherent.tenant newer existing found
      · intro newer c mem
        obtain ⟨existing, found, there⟩ := coherent.current newer c mem
        exact ⟨existing, (columns_upsert db name columns _).trans
          ((if_neg (other _ _ found)).trans found), there⟩
      · intro table existing found
        exact ⟨existing, (columns_upsert db name columns _).trans
          ((if_neg (other _ _ found)).trans found), fun _ mem => mem⟩

theorem exec_createTable (db : Schema) (name : String) (columns : List String) :
    (db.exec (.createTable name columns)).1 = .ok () ∧
      ∃ existing, (db.exec (.createTable name columns)).2.columns name = some existing := by
  unfold exec
  dsimp only
  cases found : db.columns name with
  | some existing => exact ⟨rfl, existing, found⟩
  | none => exact ⟨rfl, columns, (columns_upsert db name columns name).trans (if_pos rfl)⟩

theorem grows_createIndex (db : Schema) (name table : String) (columns : List String) :
    db.Grows (db.exec (.createIndex name table columns)).2 := by
  unfold exec
  dsimp only
  split_ifs
  · exact .refl db
  · split
    · exact .refl db
    · split
      · exact .refl db
      · exact grows_of_same (fun _ => rfl) rfl

/-- An index over columns that are there is created. -/
theorem exec_createIndex {table : String} {columns : List String}
    (there : ∀ c ∈ columns, db.Has table c) (exist : db.columns table ≠ none) (name : String) :
    (db.exec (.createIndex name table columns)).1 = .ok () := by
  obtain ⟨existing, found⟩ := Option.ne_none_iff_exists'.mp exist
  have none : (columns.find? fun c => !existing.contains c) = none := by
    rw [List.find?_eq_none]
    intro c mem
    obtain ⟨existing', found', inside⟩ := there c mem
    cases found.symm.trans found'
    simpa using inside
  unfold exec
  dsimp only
  rw [found]
  dsimp only
  rw [none]
  split_ifs
  · rfl
  · rfl

/-- A column that is missing is added. -/
theorem exec_addColumn {table column : String} (missing : ¬ db.Has table column)
    (exist : db.columns table ≠ none) :
    (db.exec (.addColumn table column)).1 = .ok () ∧ db.Grows (db.exec (.addColumn table column)).2 ∧
      (db.exec (.addColumn table column)).2.Has table column := by
  obtain ⟨existing, found⟩ := Option.ne_none_iff_exists'.mp exist
  have absent : column ∉ existing := fun mem => missing ⟨existing, found, mem⟩
  unfold exec
  dsimp only
  rw [found]
  dsimp only
  rw [if_neg (by simpa using absent)]
  refine ⟨rfl, ⟨fun coherent => ⟨?_, ?_, ?_, ?_⟩, ?_, .inl rfl⟩, ?_⟩
  · intro table' existing' found'
    rw [columns_upsert] at found'
    split_ifs at found' with same
    · cases found'
      exact List.Nodup.append (coherent.nodup table existing found) (List.nodup_singleton _)
        (List.disjoint_singleton.mpr absent)
    · exact coherent.nodup table' existing' found'
  · intro table' existing' found' c mem isOld
    rw [columns_upsert] at found'
    split_ifs at found' with same
    · cases found'
      subst same
      exact List.mem_append_left _ (coherent.created table existing found c mem isOld)
    · exact coherent.created table' existing' found' c mem isOld
  · intro newer existing' found'
    rw [columns_upsert] at found'
    split_ifs at found' with same
    · cases found'
      subst same
      exact List.mem_append_left _ (coherent.tenant newer existing found)
    · exact coherent.tenant newer existing' found'
  · intro newer c mem
    obtain ⟨existing', found', there⟩ := coherent.current newer c mem
    unfold Has
    rw [columns_upsert]
    split_ifs with same
    · subst same
      cases found.symm.trans found'
      exact ⟨_, rfl, List.mem_append_left _ there⟩
    · exact ⟨existing', found', there⟩
  · intro table' existing' found'
    rw [columns_upsert]
    split_ifs with same
    · subst same
      cases found.symm.trans found'
      exact ⟨_, rfl, fun _ mem => List.mem_append_left _ mem⟩
    · exact ⟨existing', found', fun _ mem => mem⟩
  · exact ⟨existing ++ [column], (columns_upsert db table _ table).trans (if_pos rfl),
      List.mem_append_right _ List.mem_cons_self⟩

/-- The version is written once all columns are there. -/
theorem grows_setUserVersion (there : ∀ c ∈ ADDED, db.Has "memory_item" c) :
    db.Grows (db.exec (.setUserVersion SCHEMA_VERSION)).2 := by
  refine ⟨fun coherent => ⟨coherent.nodup, coherent.created, fun _ existing found => ?_,
    fun _ => there⟩, fun table existing found => ⟨existing, found, fun _ mem => mem⟩, .inr rfl⟩
  obtain ⟨existing', found', mem⟩ := there "tenant" (by decide)
  cases found.symm.trans found'
  exact mem

theorem countColumn_pos {table column : String} (found : db.countColumn table column ≠ 0) :
    db.Has table column := by
  unfold countColumn at found
  cases columns : db.columns table with
  | none =>
      rw [columns] at found
      exact absurd rfl found
  | some existing =>
      rw [columns] at found
      exact ⟨existing, columns, List.count_pos_iff.mp (Nat.pos_of_ne_zero found)⟩

theorem Coherent.countColumn_eq_one (coherent : db.Coherent) {table column : String}
    (has : db.Has table column) : db.countColumn table column = 1 := by
  obtain ⟨existing, found, mem⟩ := has
  unfold countColumn
  rw [found]
  exact List.count_eq_one_of_mem (coherent.nodup table existing found) mem

end Schema

namespace Migration

/-! ### One connection among others -/

/-- Where columns are added that are missing, the statements of `p` succeed, and `R` holds in
the end. -/
def Leads (R : Schema → Prop) (db : Schema) (p : Migration Unit) : Prop :=
  Program.Among sqlite Schema.Grows AddsMissing (fun t => Program.Ends (fun _ => R t) fun _ => False)
    db p

section Connection

variable {R R' : Schema → Prop} {db : Schema}

theorem Leads.bind {p q : Migration Unit} (first : Leads R db p)
    (rest : ∀ t, R t → Leads R' t q) : Leads R' db (p >>= fun _ => q) :=
  Program.Among.bind (R := fun t _ => R t) first fun t _ after => rest t (after t (.refl t))

theorem leads_pure (stays : ∀ t, db.Grows t → R t) : Leads R db (pure ()) := stays

theorem leads_executeBatch {ddl : Ddl} (works : ∀ t, db.Grows t → AddsMissing t (.executeBatch ddl) →
      (t.exec ddl).1 = .ok () ∧ t.Grows (t.exec ddl).2 ∧ ∀ u, (t.exec ddl).2.Grows u → R u) :
    Leads R db (executeBatch ddl) := by
  intro t moved meets
  obtain ⟨ok, grows, after⟩ := works t moved meets
  refine ⟨grows, ?_⟩
  change Leads R (t.exec ddl).2 (Program.ofExcept (t.exec ddl).1)
  rw [ok]
  exact after

/-- A migration from the version `v` is under way and has seen to the columns `cs`. -/
structure Underway (v : Nat) (cs : List String) (db : Schema) : Prop where
  coherent : db.Coherent
  version : 3 ≤ v → 3 ≤ db.userVersion
  created : db.columns "memory_item" ≠ none
  columns : ∀ c ∈ cs, db.Has "memory_item" c

theorem Underway.grows {v : Nat} {cs : List String} {t : Schema} (underway : Underway v cs db)
    (grows : db.Grows t) : Underway v cs t := by
  refine ⟨grows.coherent underway.coherent,
    fun newer => grows.notOlder (by decide) (underway.version newer), ?_,
    fun c mem => (underway.columns c mem).grows grows⟩
  · obtain ⟨existing, found⟩ := Option.ne_none_iff_exists'.mp underway.created
    obtain ⟨existing', found', -⟩ := grows.columns _ existing found
    rw [found']
    exact Option.some_ne_none _

theorem Underway.cons {v : Nat} {cs : List String} {c : String} (underway : Underway v cs db)
    (has : db.Has "memory_item" c) : Underway v (c :: cs) db :=
  ⟨underway.coherent, underway.version, underway.created,
    List.forall_mem_cons.mpr ⟨has, underway.columns⟩⟩

theorem leads_addMissing {v : Nat} {cs : List String} (underway : Underway v cs db) (c : String) :
    Leads (Underway v (c :: cs)) db (addMissing c) := by
  intro t moved _
  have there := underway.grows moved
  refine ⟨.refl t, ?_⟩
  change Leads _ t (if t.countColumn "memory_item" c = 0 then
    executeBatch (.addColumn "memory_item" c) else pure ())
  split_ifs with missing
  · refine leads_executeBatch fun u further absent => ?_
    obtain ⟨ok, grows, has⟩ := Schema.exec_addColumn absent (there.grows further).created
    exact ⟨ok, grows, fun u' later => (((there.grows further).grows grows).cons has).grows later⟩
  · have has := Schema.countColumn_pos missing
    exact leads_pure fun u further => (there.cons has).grows further

theorem leads_addTenant {v : Nat} (underway : Underway v [] db) :
    Leads (Underway v ["tenant"]) db (addTenant v) := by
  unfold addTenant
  split_ifs with older
  · exact leads_addMissing underway "tenant"
  · refine leads_pure fun t further => ?_
    have there := underway.grows further
    obtain ⟨existing, found⟩ := Option.ne_none_iff_exists'.mp there.created
    have tenant := there.coherent.tenant (there.version (Nat.not_lt.mp older)) existing found
    exact there.cons ⟨existing, found, tenant⟩

theorem leads_addNamespace {v : Nat} (before : v < 4) (underway : Underway v ["tenant"] db) :
    Leads (Underway v ["namespace_key", "namespace", "tenant"]) db (addNamespace v) := by
  unfold addNamespace
  rw [if_pos before]
  change Leads _ db (addMissing "namespace" >>= fun _ => addMissing "namespace_key" >>= fun _ => pure ())
  refine (leads_addMissing underway "namespace").bind fun t first => ?_
  refine (leads_addMissing first "namespace_key").bind fun u second => ?_
  exact leads_pure fun u' later => second.grows later

/-- All columns of `memory_item` are there. -/
structure Complete (db : Schema) : Prop where
  coherent : db.Coherent
  added : ∀ c ∈ ADDED, db.Has "memory_item" c

theorem Complete.grows {t : Schema} (complete : Complete db) (grows : db.Grows t) : Complete t :=
  ⟨grows.coherent complete.coherent, fun c mem => (complete.added c mem).grows grows⟩

theorem Underway.complete {v : Nat} (underway : Underway v ["namespace_key", "namespace", "tenant"] db) :
    Complete db := by
  refine ⟨underway.coherent, fun c mem => underway.columns c ?_⟩
  revert c
  decide

/-- A complete database has the declared columns in each of its tables. -/
theorem Complete.has (complete : Complete db) {name table : String} {columns : List String}
    (listed : .createIndex name table columns ∈ ALL_DDL) {existing : List String}
    (found : db.columns table = some existing) : ∀ c ∈ columns, db.Has table c := by
  intro c mem
  obtain ⟨isDeclared, added⟩ := (allDdl_wellDeclared _ listed).2 c mem
  by_cases later : c ∈ ADDED
  · rw [added later]
    exact complete.added c later
  · exact ⟨existing, found, complete.coherent.created table existing found c isDeclared later⟩

/-- What is left of the loop over all statements. -/
structure Remaining (rest : List Ddl) (db : Schema) : Prop where
  complete : Complete db
  listed : ∀ ddl ∈ rest, ddl ∈ ALL_DDL
  ordered : rest.Pairwise fun a b => a.Ordered b = true
  created : ∀ name columns, .createTable name columns ∈ ALL_DDL →
    .createTable name columns ∈ rest ∨ db.columns name ≠ none

theorem Remaining.grows {rest : List Ddl} {t : Schema} (remaining : Remaining rest db)
    (grows : db.Grows t) : Remaining rest t := by
  refine ⟨remaining.complete.grows grows, remaining.listed, remaining.ordered, ?_⟩
  intro name columns listed
  rcases remaining.created name columns listed with later | created
  · exact .inl later
  · obtain ⟨existing, found⟩ := Option.ne_none_iff_exists'.mp created
    obtain ⟨existing', found', -⟩ := grows.columns _ existing found
    rw [found']
    exact .inr (Option.some_ne_none _)

/-- A statement of the loop is done with. -/
theorem Remaining.tail {ddl : Ddl} {rest : List Ddl} (remaining : Remaining (ddl :: rest) db)
    (done : ∀ name columns, ddl = .createTable name columns → db.columns name ≠ none) :
    Remaining rest db := by
  refine ⟨remaining.complete, fun other mem => remaining.listed other (List.mem_cons_of_mem _ mem),
    (List.pairwise_cons.mp remaining.ordered).2, fun name columns listed => ?_⟩
  rcases remaining.created name columns listed with left | created
  · rcases List.mem_cons.mp left with same | later
    · exact .inr (done name columns same.symm)
    · exact .inl later
  · exact .inr created

/-- The table of an index exists by the time the index is created. -/
theorem Remaining.table {name table : String} {columns : List String} {rest : List Ddl}
    (remaining : Remaining (.createIndex name table columns :: rest) db) :
    db.columns table ≠ none := by
  obtain ⟨nonempty, covered⟩ := allDdl_wellDeclared _ (remaining.listed _ List.mem_cons_self)
  obtain ⟨c, mem⟩ := List.exists_mem_of_ne_nil _ nonempty
  obtain ⟨ddl, listed, inside⟩ := List.mem_flatMap.mp (covered c mem).1
  cases ddl with
  | createTable name' columns' =>
      dsimp only at inside
      split_ifs at inside with same
      · subst same
        rcases remaining.created _ _ listed with left | created
        · rcases List.mem_cons.mp left with itself | later
          · cases itself
          · cases (List.pairwise_cons.mp remaining.ordered).1 _ later
        · exact created
      · cases inside
  | _ => cases inside

theorem leads_statement {ddl : Ddl} {rest : List Ddl} (remaining : Remaining (ddl :: rest) db) :
    Leads (Remaining rest) db (executeBatch ddl) := by
  refine leads_executeBatch fun t moved _ => ?_
  have now := remaining.grows moved
  have listed := now.listed ddl List.mem_cons_self
  cases ddl with
  | createTable name columns =>
      obtain ⟨ok, existing, found⟩ := t.exec_createTable name columns
      have grows := Schema.grows_createTable listed t
      refine ⟨ok, grows, fun u later => ?_⟩
      refine ((now.grows grows).tail fun name' columns' same => ?_).grows later
      cases same
      rw [found]
      exact Option.some_ne_none _
  | createIndex name table columns =>
      have exist := now.table
      obtain ⟨existing, found⟩ := Option.ne_none_iff_exists'.mp exist
      have grows := t.grows_createIndex name table columns
      refine ⟨Schema.exec_createIndex (now.complete.has listed found) exist name, grows, fun u later => ?_⟩
      exact ((now.grows grows).tail fun _ _ same => by cases same).grows later
  | addColumn table column => exact absurd (allDdl_wellDeclared _ listed) id
  | setUserVersion version => exact absurd (allDdl_wellDeclared _ listed) id

theorem leads_allDdl (complete : Complete db) :
    Leads (Remaining []) db (ALL_DDL.forM executeBatch) := by
  have start : Remaining ALL_DDL db :=
    ⟨complete, fun _ mem => mem, allDdl_ordered, fun _ _ listed => .inl listed⟩
  exact Program.Among.forM (I := Remaining) Schema.Grows.refl
    (fun _ _ _ moved remaining => remaining.grows moved)
    (fun _ _ _ remaining => leads_statement remaining) ALL_DDL start

theorem leads_migrateFrom {v : Nat} (before : v < 4) (coherent : db.Coherent)
    (version : 3 ≤ v → 3 ≤ db.userVersion) :
    Leads (fun t => t.userVersion = SCHEMA_VERSION) db (migrateFrom v) := by
  have main : Leads (Underway v []) db (executeBatch MEMORY_ITEM_DDL) := by
    refine leads_executeBatch fun t moved _ => ?_
    obtain ⟨ok, existing, found⟩ := t.exec_createTable "memory_item" _
    have grows := Schema.grows_createTable (List.mem_cons_self : MEMORY_ITEM_DDL ∈ ALL_DDL) t
    refine ⟨ok, grows, fun u later => Underway.grows ⟨?_, fun newer => ?_, ?_, ?_⟩ later⟩
    · exact grows.coherent (moved.coherent coherent)
    · exact (moved.trans _ _ _ grows).notOlder (by decide) (version newer)
    · exact found ▸ Option.some_ne_none _
    · exact fun c mem => by cases mem
  unfold migrateFrom
  refine main.bind fun t₁ created => ?_
  refine (leads_addTenant created).bind fun t₂ tenant => ?_
  refine (leads_addNamespace before tenant).bind fun t₃ namespaces => ?_
  refine (leads_allDdl namespaces.complete).bind fun t₄ remaining => ?_
  refine leads_executeBatch fun t moved _ => ?_
  have complete := remaining.complete.grows moved
  refine ⟨rfl, Schema.grows_setUserVersion complete.added, fun u later => ?_⟩
  exact later.version.elim id id

theorem leads_migrate (coherent : db.Coherent) (older : db.userVersion < SCHEMA_VERSION) :
    Leads (fun t => t.userVersion = SCHEMA_VERSION) db migrate := by
  intro t moved _
  refine ⟨.refl t, ?_⟩
  change Leads _ t (if t.userVersion ≥ SCHEMA_VERSION then pure () else migrateFrom t.userVersion)
  split_ifs with current
  · refine leads_pure fun u further => ?_
    have reached : t.userVersion = SCHEMA_VERSION :=
      moved.version.resolve_left fun same => absurd (same ▸ current) (Nat.not_le.mpr older)
    exact further.version.elim (fun same => same.trans reached) id
  · exact leads_migrateFrom (Nat.not_le.mp current) (moved.coherent coherent) id

end Connection

/-! ### All connections -/

/-- The reply of a statement that has failed. -/
def Refused : (r : Sql) → r.Reply → Prop
  | .executeBatch _, reply => reply ≠ .ok ()
  | _, _ => False

theorem executeBatch_failsFast (ddl : Ddl) : Program.FailsFast Refused (executeBatch ddl) := by
  rintro (e | _)
  · exact ⟨fun _ => ⟨e, rfl⟩, trivial⟩
  · exact ⟨fun refused => absurd rfl refused, trivial⟩

theorem addMissing_failsFast (c : String) : Program.FailsFast Refused (addMissing c) := by
  intro count
  refine ⟨False.elim, ?_⟩
  change Program.FailsFast Refused (if count = 0 then executeBatch (.addColumn "memory_item" c) else pure ())
  split_ifs
  · exact executeBatch_failsFast _
  · trivial

/-- A migration ends with the first statement that fails. -/
theorem migrate_failsFast : Program.FailsFast Refused migrate :=
  migrate_induction trivial (fun first rest => first.bind fun _ => rest)
    (fun known version => ⟨False.elim, known version⟩) (fun ddl _ => executeBatch_failsFast ddl)
    (fun c _ => addMissing_failsFast c) (executeBatch_failsFast _)

/-- SQLite does not add a column twice. -/
theorem refused_of_not_addsMissing (db : Schema) (r : Sql) (present : ¬ AddsMissing db r) :
    Refused r (sqlite.exec r db).1 := by
  cases r with
  | executeBatch ddl =>
      cases ddl with
      | addColumn table column =>
          obtain ⟨existing, found, mem⟩ := not_not.mp present
          change (db.exec (.addColumn table column)).1 ≠ .ok ()
          unfold Schema.exec
          dsimp only
          rw [found]
          dsimp only
          rw [if_pos (by simpa using mem)]
          exact fun ok => by cases ok
      | _ => exact absurd trivial present
  | _ => exact absurd trivial present

/-- Connections that migrate one database together. -/
def connections (db : Schema) (n : Nat) : Pool sqlSignature SqlError Unit Schema :=
  .start db (List.replicate n migrate)

/-- All migrations of the pool have returned `Ok`, and left the schema of version 4. -/
structure Migrated (pool : Pool sqlSignature SqlError Unit Schema) : Prop where
  returned : ∀ thread ∈ pool.threads, thread.program = .done ()
  schema : pool.world.Current

/-- A complete run of one or more connections over a database of an older version succeeds
exactly when each `ALTER TABLE` of the run adds a column that is missing at that moment. -/
theorem migrations_succeed_iff {db : Schema} (coherent : db.Coherent)
    (older : db.userVersion < SCHEMA_VERSION) {n : Nat} (positive : 0 < n)
    {pool : Pool sqlSignature SqlError Unit Schema}
    (run : Pool.Reaches sqlite (fun _ _ => True) (connections db n) pool)
    (ended : ∀ thread ∈ pool.threads, thread.program.ended = true) :
    Migrated pool ↔ Pool.Reaches sqlite (Pool.Meets AddsMissing) (connections db n) pool := by
  constructor
  · intro migrated
    have fast : ∀ thread ∈ (connections db n).threads, Program.FailsFast Refused thread.program := by
      intro thread mem
      obtain ⟨p, listed, rfl⟩ := List.mem_map.mp mem
      rw [List.eq_of_mem_replicate listed]
      exact migrate_failsFast
    refine (Pool.Reaches.meets refused_of_not_addsMissing fast run fun thread mem e failed => ?_).1
    rw [migrated.returned thread mem] at failed
    cases failed
  · intro adds
    obtain ⟨grows, among⟩ := adds.among Schema.Grows.refl Schema.Grows.trans fun p listed => by
      rw [List.eq_of_mem_replicate listed]
      exact leads_migrate coherent older
    have returned : ∀ thread ∈ pool.threads,
        thread.program = .done () ∧ pool.world.userVersion = SCHEMA_VERSION := by
      intro thread mem
      have keeps := among thread mem
      have finished := ended thread mem
      cases program : thread.program with
      | done a =>
          rw [program] at keeps
          exact ⟨rfl, keeps _ (.refl _)⟩
      | fail e =>
          rw [program] at keeps
          exact absurd (keeps _ (.refl _)) id
      | request r next =>
          rw [program] at finished
          cases finished
    refine ⟨fun thread mem => (returned thread mem).1, ?_⟩
    have length : pool.threads.length = n := by
      rw [adds.length]
      unfold connections Pool.start
      rw [List.length_map, List.length_replicate]
    obtain ⟨thread, mem⟩ := List.exists_mem_of_length_pos (length ▸ positive)
    have version := (returned thread mem).2
    have now := grows.coherent coherent
    refine ⟨version, fun c added => now.countColumn_eq_one (now.current ?_ c added)⟩
    rw [version]
    exact Nat.le_refl _

/-! ### A database of version 2 -/

/-- `memory_item` as version 2 has it. -/
def memoryItemV2 : List String :=
  ["id", "interaction_id", "turn_idx", "session_id", "memory_type", "tier", "content", "vector_ref",
   "weight", "access_count", "last_accessed_timestamp", "created_timestamp", "provenance",
   "tombstone", "entities_pending", "entities_json"]

def schemaV2 : Schema := ⟨2, Table.empty.upsert ("memory_item", memoryItemV2), []⟩

theorem schemaV2_only (table : String) (existing : List String)
    (found : schemaV2.columns table = some existing) :
    "memory_item" = table ∧ memoryItemV2 = existing := by
  have columns : schemaV2.columns table = if "memory_item" = table then some memoryItemV2 else none :=
    Schema.columns_upsert ⟨2, .empty, []⟩ "memory_item" memoryItemV2 table
  rw [columns] at found
  split_ifs at found with same
  exact ⟨same, Option.some.inj found⟩

theorem schemaV2_coherent : schemaV2.Coherent := by
  refine ⟨fun table existing found => ?_, fun table existing found => ?_,
    fun newer => absurd newer (by decide), fun newer => absurd newer (by decide)⟩
  · obtain ⟨-, rfl⟩ := schemaV2_only table existing found
    decide +kernel
  · obtain ⟨rfl, rfl⟩ := schemaV2_only table existing found
    decide +kernel

/-- The check of `AddsMissing`. -/
def addsMissing (db : Schema) : Sql → Bool
  | .executeBatch (.addColumn table column) => db.countColumn table column == 0
  | _ => true

theorem addsMissing_of {db : Schema} {r : Sql} (checked : addsMissing db r = true) :
    AddsMissing db r := by
  unfold addsMissing at checked
  unfold AddsMissing
  split at checked
  · rintro ⟨existing, found, mem⟩
    unfold Schema.countColumn at checked
    rw [found] at checked
    exact List.count_eq_zero.mp (beq_iff_eq.mp checked) mem
  · trivial

/-- The run of two connections by a schedule. -/
def twoConnections (schedule : List Nat) : Pool sqlSignature SqlError Unit Schema :=
  Pool.runSchedule sqlite schedule (connections schemaV2 2)

/-- One connection after the other. -/
def inTurn : List Nat := List.replicate 26 0 ++ [1]

theorem migrations_succeed_in_turn : Migrated (twoConnections inTurn) := by
  refine (migrations_succeed_iff schemaV2_coherent (by decide) (Nat.zero_lt_two) ?_ ?_).mpr ?_
  · exact Pool.reaches_runSchedule (fun _ _ => true) (fun _ _ _ _ _ _ _ => trivial) inTurn _
      (by decide +kernel)
  · decide +kernel
  · exact Pool.reaches_runSchedule (fun pool r => addsMissing pool.world r)
      (fun pool i h r next found checked h' r' next' found' => by
        cases found.symm.trans found'
        exact addsMissing_of checked) inTurn _ (by decide +kernel)

/-- Both connections look for the tenant before one of them adds it. -/
def crossed : List Nat := [0, 0, 0, 1, 1, 1, 0, 1] ++ List.replicate 22 0

/-- The second connection adds the column again and fails. -/
theorem crossed_migrations_fail : ¬ ∀ (db : Schema) (n : Nat) (pool : Pool sqlSignature SqlError Unit
      Schema), db.Coherent → db.userVersion < SCHEMA_VERSION → 2 ≤ n →
    Pool.Reaches sqlite (fun _ _ => True) (connections db n) pool →
    (∀ thread ∈ pool.threads, thread.program.ended = true) → Migrated pool := by
  intro always
  have migrated := always schemaV2 2 (twoConnections crossed) schemaV2_coherent (by decide)
    (Nat.le_refl _) (Pool.reaches_runSchedule (fun _ _ => true) (fun _ _ _ _ _ _ _ => trivial)
      crossed _ (by decide +kernel)) (by decide +kernel)
  have results : (twoConnections crossed).threads.map (fun thread => thread.program.value?) =
      [some (), none] := by decide +kernel
  have failed : none ∈ (twoConnections crossed).threads.map fun thread => thread.program.value? := by
    rw [results]
    decide
  obtain ⟨thread, mem, stopped⟩ := List.mem_map.mp failed
  rw [migrated.returned thread mem] at stopped
  cases stopped

end Migration

end FusionMemory
