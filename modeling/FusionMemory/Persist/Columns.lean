import FusionMemory.Lib.DecimalJson
import FusionMemory.Persist.Encryption
import FusionMemory.Persist.EntityIndex

/-!
The columns of `memory_item` (`fm-persist/src/schema.rs` and `store.rs`): nineteen positional
parameters on the way in, names and casts on the way out.

A database here has the rows as SQLite has them, values of dynamic type under the names of
their columns, and its foreign keys as fields. `readItem_cells` says that reading the columns of
a row gives what `rowToMemory` makes of the row, so `put_memory` is read back as it was written.

A REAL column keeps every finite number (`-0.0` comes back as `0.0`, which `==` does not tell
apart), and NaN is stored as NULL.
-/

namespace FusionMemory

open Lib

/-! ### Values -/

/-- A value of SQLite. -/
inductive SqlValue (F : Type) where
  | null
  | integer (n : Int)
  | real (x : F)
  | text (s : String)
deriving Repr

namespace SqlValue

variable {F : Type}

/-- The name of the type in an error. -/
def typeName : SqlValue F → String
  | .null => "Null"
  | .integer _ => "Integer"
  | .real _ => "Real"
  | .text _ => "Text"

def isNull : SqlValue F → Bool
  | .null => true
  | _ => false

/-! What `row.get` accepts as a `String`, an `Option<String>`, an `i64` and an `f64`. -/

def asText : SqlValue F → Option String
  | .text s => some s
  | _ => none

def asOptText : SqlValue F → Option (Option String)
  | .null => some none
  | .text s => some (some s)
  | _ => none

def asInteger : SqlValue F → Option Int
  | .integer n => some n
  | _ => none

def asReal [FloatArith F] : SqlValue F → Option F
  | .real x => some x
  | .integer n =>
      some (if n < 0 then FloatArith.neg (FloatArith.ofNat n.natAbs) else FloatArith.ofNat n.natAbs)
  | _ => none

/-- Binding an `f64`: NaN becomes NULL. -/
def ofReal [FloatArith F] [NanTest F] (x : F) : SqlValue F :=
  if NanTest.isNan x then .null else .real x

def ofBool (b : Bool) : SqlValue F := .integer (if b then 1 else 0)

def ofOptText : Option String → SqlValue F
  | some s => .text s
  | none => .null

@[simp] theorem asOptText_ofOptText (s : Option String) :
    (ofOptText s : SqlValue F).asOptText = some s := by
  cases s <;> rfl

theorem ofReal_finite [FloatArith F] [NanTest F] {x : F} (finite : FloatArith.isFinite x = true) :
    ofReal x = .real x := by
  unfold ofReal
  rw [NanTest.isNan_of_isFinite finite]
  rfl

end SqlValue

/-- `i as u32` for an `i64`. -/
def asU32 (i : Int) : Nat := (i % 2 ^ 32).toNat

theorem asU32_natCast {n : Nat} (fits : n < 2 ^ 32) : asU32 n = n := by
  unfold asU32
  omega

/-! ### Rows -/

/-- A row: the values under the names of their columns, in the order of the table. -/
abbrev Cells (F : Type) : Type := List (String × SqlValue F)

namespace Cells

variable {F : Type}

/-- `row.get(name)`, read as the type that `read` accepts. -/
def get {T : Type} (cells : Cells F) (name : String) (read : SqlValue F → Option T) :
    Except PersistError T :=
  match cells.zipIdx.find? fun c => c.1.1 == name with
  | none => .error (.sqlite ("Invalid column name: " ++ name) false)
  | some ((_, value), i) =>
      match read value with
      | some t => .ok t
      | none => .error (.sqlite ("Invalid column type " ++ value.typeName ++ " at index: " ++
          toString i ++ ", name: " ++ name) false)

/-- `row.get(name).unwrap_or_default()` for a text. -/
def getOrDefault (cells : Cells F) (name : String) : String :=
  match cells.get name SqlValue.asText with
  | .ok s => s
  | .error _ => ""

end Cells

/-- A column as the table declares it. -/
structure Column (F : Type) where
  name : String
  notNull : Bool
  default : SqlValue F

section Item

variable {F : Type} [FloatArith F] [NanTest F] [JsonText F]

/-- The columns of `MEMORY_ITEM_DDL`. -/
def MEMORY_ITEM_COLUMNS : List (Column F) :=
  [⟨"id", false, .null⟩, ⟨"interaction_id", true, .null⟩, ⟨"turn_idx", true, .null⟩,
   ⟨"session_id", true, .null⟩, ⟨"tenant", true, .text ""⟩, ⟨"memory_type", true, .null⟩,
   ⟨"tier", true, .null⟩, ⟨"content", true, .null⟩, ⟨"vector_ref", true, .text ""⟩,
   ⟨"weight", true, .null⟩, ⟨"access_count", true, .integer 0⟩,
   ⟨"last_accessed_timestamp", true, .null⟩, ⟨"created_timestamp", true, .null⟩,
   ⟨"provenance", false, .null⟩, ⟨"tombstone", true, .integer 0⟩,
   ⟨"entities_pending", true, .integer 1⟩, ⟨"entities_json", true, .text "[]"⟩,
   ⟨"namespace", true, .text ""⟩, ⟨"namespace_key", true, .text ""⟩]

/-- The columns that `MEMORY_ITEM_DDL_INSERT` names, in the order of `?1` to `?19`. -/
def MEMORY_ITEM_DDL_INSERT : List String :=
  ["id", "interaction_id", "turn_idx", "session_id", "tenant", "memory_type", "tier", "content",
   "vector_ref", "weight", "access_count", "last_accessed_timestamp", "created_timestamp",
   "provenance", "tombstone", "entities_pending", "entities_json", "namespace", "namespace_key"]

/-- The row of an insert: each column has the parameter of its name, or its default. -/
def insertedCells (params : List (SqlValue F)) : Cells F :=
  MEMORY_ITEM_COLUMNS.map fun c =>
    (c.name, ((MEMORY_ITEM_DDL_INSERT.zip params).lookup c.name).getD c.default)

/-- The first column that must not be NULL and is. -/
def nullViolation (cells : Cells F) : Option String :=
  (MEMORY_ITEM_COLUMNS.find? fun c : Column F => c.notNull && cells.any fun cell =>
    cell.1 == c.name && cell.2.isNull).map (·.name)

/-- `row_to_memory`, column by column. -/
def readItem (aead : Aead) (cipher : Option Cipher) (cells : Cells F) :
    Except PersistError (MemoryItem F) := do
  let id ← cells.get "id" SqlValue.asText
  let memoryTypeStr ← cells.get "memory_type" SqlValue.asText
  let tierStr ← cells.get "tier" SqlValue.asText
  let rawEntities ← cells.get "entities_json" SqlValue.asText
  let tombstoneI ← cells.get "tombstone" SqlValue.asInteger
  let pendingI ← cells.get "entities_pending" SqlValue.asInteger
  let interactionId ← cells.get "interaction_id" SqlValue.asText
  let turnIdx ← cells.get "turn_idx" SqlValue.asInteger
  let sessionId ← cells.get "session_id" SqlValue.asText
  let content ← cells.get "content" SqlValue.asText
  let vectorRef ← cells.get "vector_ref" SqlValue.asText
  let weight ← cells.get "weight" SqlValue.asReal
  let accessCount ← cells.get "access_count" SqlValue.asInteger
  let lastAccessedTimestamp ← cells.get "last_accessed_timestamp" SqlValue.asInteger
  let createdTimestamp ← cells.get "created_timestamp" SqlValue.asInteger
  let provenance ← cells.get "provenance" SqlValue.asOptText
  return {
    id, interactionId
    turnIdx := asU32 turnIdx
    sessionId
    tenant := cells.getOrDefault "tenant"
    «namespace» := cells.getOrDefault "namespace"
    namespaceKey := cells.getOrDefault "namespace_key"
    memoryType := (MemoryType.parse memoryTypeStr).getD .episodic
    tier := (MemoryTier.parse tierStr).getD .short
    content := decryptField aead cipher content
    entities := readEntities F (decryptField aead cipher rawEntities)
    vectorRef, weight
    accessCount := asU64 accessCount
    lastAccessedTimestamp := asU64 lastAccessedTimestamp
    createdTimestamp := asU64 createdTimestamp
    provenance
    tombstone := tombstoneI != 0
    entitiesPending := pendingI != 0 }

/-- The columns of a row, as SQLite has them. -/
def MemoryRow.cells (row : MemoryRow F) : Cells F :=
  [("id", .text row.id), ("interaction_id", .text row.interactionId),
   ("turn_idx", .integer row.turnIdx), ("session_id", .text row.sessionId),
   ("tenant", .text row.tenant), ("memory_type", .text row.memoryType), ("tier", .text row.tier),
   ("content", .text row.content), ("vector_ref", .text row.vectorRef),
   ("weight", .ofReal row.weight), ("access_count", .integer (asI64 row.accessCount)),
   ("last_accessed_timestamp", .integer (asI64 row.lastAccessedTimestamp)),
   ("created_timestamp", .integer (asI64 row.createdTimestamp)),
   ("provenance", .ofOptText row.provenance), ("tombstone", .ofBool row.tombstone),
   ("entities_pending", .ofBool row.entitiesPending), ("entities_json", .text row.entitiesJson),
   ("namespace", .text row.namespace), ("namespace_key", .text row.namespaceKey)]

/-- The numbers of a row fit their columns. -/
structure MemoryRow.Fits (row : MemoryRow F) : Prop where
  turnIdx : row.turnIdx < 2 ^ 32
  accessCount : row.accessCount < u64Size
  lastAccessedTimestamp : row.lastAccessedTimestamp < u64Size
  createdTimestamp : row.createdTimestamp < u64Size
  weight : FloatArith.isFinite row.weight = true

/-- The columns are read as the row they were written from. -/
theorem readItem_cells (aead : Aead) (cipher : Option Cipher) {row : MemoryRow F}
    (fits : row.Fits) :
    readItem aead cipher row.cells = .ok (rowToMemory aead cipher row) := by
  have weight : row.cells.get "weight" SqlValue.asReal = .ok row.weight := by
    unfold MemoryRow.cells
    rw [SqlValue.ofReal_finite fits.weight]
    rfl
  have provenance : row.cells.get "provenance" SqlValue.asOptText = .ok row.provenance := by
    unfold MemoryRow.cells
    cases row.provenance <;> rfl
  have flag : ∀ b : Bool, ((if b then 1 else 0 : Int) != 0) = b := by decide
  unfold readItem
  simp only [weight, provenance]
  -- Every other column is found under its name by evaluation.
  change Except.ok _ = _
  unfold rowToMemory
  rw [asU32_natCast fits.turnIdx, asU64_asI64 fits.accessCount,
    asU64_asI64 fits.lastAccessedTimestamp, asU64_asI64 fits.createdTimestamp, flag, flag]
  rfl

/-! ### The database -/

/-- A row of `entity`. -/
structure EntityRow where
  id : String
  name : String
  aliases : String
  entityType : String
deriving DecidableEq, Repr

/-- The parameters of `INSERT OR IGNORE INTO entity`. -/
def EntityNode.row (F : Type) [FloatArith F] [JsonText F] (e : EntityNode) : EntityRow where
  id := e.id
  name := e.name
  aliases := JsonText.print (F := F) (.arr (e.aliases.map .str))
  entityType := e.entityType.asStr

end Item

/-- The primary key of a row. -/
def Cells.key {F : Type} (cells : Cells F) : Option String :=
  (cells.lookup "id").bind SqlValue.asText

/-- The tables that `put_memory` and `put_memory_with_wop` write. The key of `memory_entity` is
the pair, and its foreign keys point to a row of `memory_item` and one of `entity`. -/
structure ItemDb (F : Type) where
  memoryItem : Table (Option String) (Cells F) Cells.key
  entity : Table String EntityRow EntityRow.id
  memoryEntity : List (String × String)
  wopLog : List WopEntry
  wopSeq : Nat
  distinct : memoryEntity.Nodup
  memoryKey : ∀ p ∈ memoryEntity, (memoryItem.find? (some p.1)).isSome = true
  entityKey : ∀ p ∈ memoryEntity, (entity.find? p.2).isSome = true

namespace ItemDb

variable {F : Type}

def empty : ItemDb F where
  memoryItem := .empty
  entity := .empty
  memoryEntity := []
  wopLog := []
  wopSeq := 0
  distinct := List.nodup_nil
  memoryKey _ none := (by cases none)
  entityKey _ none := (by cases none)

/-- Replace the row of a key. The links of a row that goes are deleted with it, and without a
row of the key there are none. -/
def replaceRow (db : ItemDb F) (cells : Cells F) : ItemDb F :=
  { db with
    memoryItem := db.memoryItem.upsert cells
    memoryEntity := db.memoryEntity.filter fun p => cells.key != some p.1
    distinct := db.distinct.filter _
    memoryKey := by
      intro p mem
      obtain ⟨before, other⟩ := List.mem_filter.mp mem
      rw [Table.find?_upsert, if_neg (bne_iff_ne.mp other)]
      exact db.memoryKey p before
    entityKey := fun p mem => db.entityKey p (List.mem_filter.mp mem).1 }

/-- `INSERT OR IGNORE INTO entity`. -/
def insertEntity (db : ItemDb F) (row : EntityRow) : ItemDb F :=
  { db with
    entity := db.entity.insertIgnore row
    entityKey := by
      intro p mem
      rw [Table.find?_insertIgnore, Option.isSome_or, db.entityKey p mem, Bool.true_or] }

/-- `INSERT OR IGNORE INTO memory_entity`: a pair that stands is ignored, a pair without its rows
is an error. -/
def linkEntity (db : ItemDb F) (link : String × String) : Except PersistError (ItemDb F) :=
  if parents : (db.memoryItem.find? (some link.1)).isSome = true ∧
      (db.entity.find? link.2).isSome = true then
    .ok { db with
      memoryEntity := Db.linkEntity db.memoryEntity link
      distinct := Db.nodup_linkEntity db.distinct link
      memoryKey := fun p mem => (Db.mem_linkEntity.mp mem).elim (db.memoryKey p)
        fun same => same ▸ parents.1
      entityKey := fun p mem => (Db.mem_linkEntity.mp mem).elim (db.entityKey p)
        fun same => same ▸ parents.2 }
  else .error (.sqlite "FOREIGN KEY constraint failed" false)

/-- `INSERT INTO wop_log`, with `last_insert_rowid`. -/
def insertWop (db : ItemDb F) (op payload : String) («at» : Nat) : Nat × ItemDb F :=
  (db.wopSeq + 1, { db with
    wopLog := db.wopLog ++ [⟨db.wopSeq + 1, op, payload, «at»⟩], wopSeq := db.wopSeq + 1 })

/-- A transaction: on an error everything is as it was. -/
def transaction {T : Type} (db : ItemDb F) (tx : Except PersistError (T × ItemDb F)) :
    Except PersistError T × ItemDb F :=
  match tx with
  | .ok (t, db') => (.ok t, db')
  | .error e => (.error e, db)

variable [FloatArith F] [JsonText F]

/-- `INSERT OR REPLACE INTO memory_item`. -/
def insertItem (db : ItemDb F) (params : List (SqlValue F)) : Except PersistError (ItemDb F) :=
  match nullViolation (insertedCells params) with
  | some name => .error (.sqlite ("NOT NULL constraint failed: memory_item." ++ name) false)
  | none => .ok (db.replaceRow (insertedCells params))

/-- The loop over the entities of a row. -/
def attachEntities (id : String) (entities : List EntityNode) (db : ItemDb F) :
    Except PersistError (ItemDb F) :=
  entities.foldlM (fun db e => (db.insertEntity (e.row F)).linkEntity (id, e.id)) db

/-- The loop has linked the entities to the row of `id`, and left the rest. -/
structure Attached (id : String) (entities : List EntityNode) (db db' : ItemDb F) : Prop where
  memoryItem : db'.memoryItem = db.memoryItem
  entity : db'.entity = entities.foldl (fun t e => t.insertIgnore (e.row F)) db.entity
  memoryEntity : db'.memoryEntity =
    entities.foldl (fun links e => Db.linkEntity links (id, e.id)) db.memoryEntity
  wopLog : db'.wopLog = db.wopLog
  wopSeq : db'.wopSeq = db.wopSeq

theorem Attached.cons {id : String} {e : EntityNode} {rest : List EntityNode}
    {db db' db'' : ItemDb F} (first : Attached id [e] db db') (others : Attached id rest db' db'') :
    Attached id (e :: rest) db db'' where
  memoryItem := others.memoryItem.trans first.memoryItem
  entity := by
    rw [others.entity, first.entity]
    rfl
  memoryEntity := by
    rw [others.memoryEntity, first.memoryEntity]
    rfl
  wopLog := others.wopLog.trans first.wopLog
  wopSeq := others.wopSeq.trans first.wopSeq

theorem attachOne_ok {id : String} (e : EntityNode) {db : ItemDb F}
    (present : (db.memoryItem.find? (some id)).isSome = true) :
    ∃ db', (db.insertEntity (e.row F)).linkEntity (id, e.id) = .ok db' ∧
      Attached id [e] db db' := by
  have inserted : ((db.insertEntity (e.row F)).entity.find? e.id).isSome = true := by
    unfold insertEntity
    dsimp only
    rw [Table.find?_insertIgnore, Option.isSome_or]
    exact Bool.or_eq_true_iff.mpr (.inr (congrArg Option.isSome (if_pos rfl)))
  exact ⟨_, dif_pos ⟨present, inserted⟩, ⟨rfl, rfl, rfl, rfl, rfl⟩⟩

/-- With the row of `id` in its table, no link breaks a foreign key. -/
theorem attachEntities_ok {id : String} (entities : List EntityNode) {db : ItemDb F}
    (present : (db.memoryItem.find? (some id)).isSome = true) :
    ∃ db', db.attachEntities id entities = .ok db' ∧ Attached id entities db db' := by
  induction entities generalizing db with
  | nil => exact ⟨db, rfl, ⟨rfl, rfl, rfl, rfl, rfl⟩⟩
  | cons e rest ih =>
      obtain ⟨db₁, linked, first⟩ := attachOne_ok e present
      have still : (db₁.memoryItem.find? (some id)).isSome = true := by
        rw [first.memoryItem]
        exact present
      obtain ⟨db', done, others⟩ := ih still
      refine ⟨db', ?_, first.cons others⟩
      unfold attachEntities
      rw [List.foldlM_cons, linked]
      exact done

/-! ### The two puts -/

variable [NanTest F] (aead : Aead) (cipher : Option Cipher)

def putMemory (nonces : Nonce × Nonce) (db : ItemDb F) (item : MemoryItem F) :
    Except PersistError Unit × ItemDb F :=
  db.transaction do
    let encContent ← encryptField aead cipher nonces.1 item.content
    let encEntities ← encryptField aead cipher nonces.2 (entitiesText F item.entities)
    let tx ← db.insertItem
      [.text item.id,
       .text item.interactionId,
       .integer item.turnIdx,
       .text item.sessionId,
       .text item.tenant,
       .text item.memoryType.asStr,
       .text item.tier.asStr,
       .text encContent,
       .text item.vectorRef,
       .ofReal item.weight,
       .integer (asI64 item.accessCount),
       .integer (asI64 item.lastAccessedTimestamp),
       .integer (asI64 item.createdTimestamp),
       .ofOptText item.provenance,
       .ofBool item.tombstone,
       .ofBool item.entitiesPending,
       .text encEntities,
       .text item.namespace,
       .text item.namespaceKey]
    let tx ← tx.attachEntities item.id item.entities
    return ((), tx)

/-- Item and log entry in one transaction; the answer is the number of the entry. -/
def putMemoryWithWop (nonces : Nonce × Nonce) (db : ItemDb F) (item : MemoryItem F)
    (wopOp wopPayload : String) («at» : Nat) : Except PersistError Nat × ItemDb F :=
  db.transaction do
    let encContent ← encryptField aead cipher nonces.1 item.content
    let encEntities ← encryptField aead cipher nonces.2 (entitiesText F item.entities)
    let tx ← db.insertItem
      [.text item.id,
       .text item.interactionId,
       .integer item.turnIdx,
       .text item.sessionId,
       .text item.tenant,
       .text item.memoryType.asStr,
       .text item.tier.asStr,
       .text encContent,
       .text item.vectorRef,
       .ofReal item.weight,
       .integer (asI64 item.accessCount),
       .integer (asI64 item.lastAccessedTimestamp),
       .integer (asI64 item.createdTimestamp),
       .ofOptText item.provenance,
       .ofBool item.tombstone,
       .ofBool item.entitiesPending,
       .text encEntities,
       .text item.namespace,
       .text item.namespaceKey]
    let tx ← tx.attachEntities item.id item.entities
    return tx.insertWop wopOp wopPayload «at»

/-- `get_memory`: a row that cannot be read is an error. -/
def getMemory (db : ItemDb F) (id : String) : Except PersistError (Option (MemoryItem F)) :=
  match db.memoryItem.find? (some id) with
  | none => .ok none
  | some cells => (readItem aead cipher cells).map some

/-! ### What a put leaves -/

omit [JsonText F] in
/-- A finite row breaks no constraint of the table. -/
theorem insertItem_eq (db : ItemDb F) (row : MemoryRow F) {params : List (SqlValue F)}
    (given : insertedCells params = row.cells) (finite : FloatArith.isFinite row.weight = true) :
    db.insertItem params = .ok (db.replaceRow row.cells) := by
  have fits : nullViolation row.cells = none := by
    unfold MemoryRow.cells
    rw [SqlValue.ofReal_finite finite]
    rfl
  unfold insertItem
  rw [given, fits]

/-- The item is read back as it was put, its links are the ids of its entities, and the other
memories are as they were. -/
structure Put (db db' : ItemDb F) (item : MemoryItem F) : Prop where
  get : db'.getMemory aead cipher item.id = .ok (some item)
  links : ∀ entityId, (item.id, entityId) ∈ db'.memoryEntity ↔
    entityId ∈ item.entities.map (·.id)
  otherRows : ∀ key, key ≠ some item.id → db'.memoryItem.find? key = db.memoryItem.find? key
  otherLinks : ∀ p : String × String, p.1 ≠ item.id →
    (p ∈ db'.memoryEntity ↔ p ∈ db.memoryEntity)

/-- AES-GCM takes the two texts of the item, as it does any text below 64 GiB. -/
def Encrypts (nonces : Nonce × Nonce) (item : MemoryItem F) : Prop :=
  ∃ row, itemRow aead cipher nonces item = .ok row

variable {aead cipher}

/-- The statements of both puts: the row in its columns, then its entities. -/
theorem put_statements (lawful : aead.Lawful) {nonces : Nonce × Nonce} {item : MemoryItem F}
    (sized : item.Sized) (finite : FloatArith.isFinite item.weight = true) {row : MemoryRow F}
    (written : itemRow aead cipher nonces item = .ok row) (db : ItemDb F) :
    ∃ db', (db.replaceRow row.cells).attachEntities item.id item.entities = .ok db' ∧
      Attached item.id item.entities (db.replaceRow row.cells) db' ∧
      Put aead cipher db db' item := by
  have key : Cells.key row.cells = some item.id := congrArg some (itemRow_id written)
  have own : (db.replaceRow row.cells).memoryItem.find? (some item.id) = some row.cells := by
    unfold replaceRow
    dsimp only
    rw [Table.find?_upsert, if_pos key]
  have fits : row.Fits := by
    obtain ⟨_, _, _, _, rfl⟩ := itemRow_eq_ok_iff.mp written
    exact ⟨sized.turnIdx, sized.accessCount, sized.lastAccessedTimestamp, sized.createdTimestamp,
      finite⟩
  obtain ⟨db', done, attached⟩ := attachEntities_ok item.entities
    (congrArg Option.isSome own)
  have kept : ∀ p : String × String, p ∈ (db.replaceRow row.cells).memoryEntity ↔
      p ∈ db.memoryEntity ∧ p.1 ≠ item.id := by
    intro p
    unfold replaceRow
    dsimp only
    rw [List.mem_filter, key, bne_iff_ne, Ne, Option.some.injEq, eq_comm]
  refine ⟨db', done, attached, ?_, fun entityId => ?_, fun other apart => ?_, fun p apart => ?_⟩
  · unfold getMemory
    rw [attached.memoryItem, own]
    dsimp only
    rw [readItem_cells aead cipher fits, rowToMemory_itemRow lawful written]
    rfl
  · rw [attached.memoryEntity, Db.mem_foldl_linkEntity, kept]
    exact ⟨fun either => either.elim (fun old => absurd rfl old.2) And.right,
      fun has => .inr ⟨rfl, has⟩⟩
  · rw [attached.memoryItem]
    unfold replaceRow
    dsimp only
    rw [Table.find?_upsert, key, if_neg (Ne.symm apart)]
  · rw [attached.memoryEntity, Db.mem_foldl_linkEntity, kept]
    exact ⟨fun either => either.elim And.left fun own => absurd own.1 apart,
      fun old => .inl ⟨old, apart⟩⟩

theorem putMemory_eq {nonces : Nonce × Nonce} {item : MemoryItem F} {row : MemoryRow F}
    (written : itemRow aead cipher nonces item = .ok row)
    (finite : FloatArith.isFinite item.weight = true) {db db' : ItemDb F}
    (done : (db.replaceRow row.cells).attachEntities item.id item.entities = .ok db') :
    db.putMemory aead cipher nonces item = (.ok (), db') := by
  obtain ⟨encContent, encEntities, content, entities, rfl⟩ := itemRow_eq_ok_iff.mp written
  unfold putMemory
  rw [content, entities]
  change db.transaction (Except.bind (db.insertItem _) _) = _
  rw [insertItem_eq db (item.columns encContent encEntities) rfl finite]
  change db.transaction (Except.bind (attachEntities _ _ _) _) = _
  rw [done]
  rfl

theorem putMemoryWithWop_eq {nonces : Nonce × Nonce} {item : MemoryItem F} {row : MemoryRow F}
    (written : itemRow aead cipher nonces item = .ok row)
    (finite : FloatArith.isFinite item.weight = true) {db db' : ItemDb F}
    (done : (db.replaceRow row.cells).attachEntities item.id item.entities = .ok db')
    (wopOp wopPayload : String) («at» : Nat) :
    db.putMemoryWithWop aead cipher nonces item wopOp wopPayload «at» =
      (.ok (db'.insertWop wopOp wopPayload «at»).1, (db'.insertWop wopOp wopPayload «at»).2) := by
  obtain ⟨encContent, encEntities, content, entities, rfl⟩ := itemRow_eq_ok_iff.mp written
  unfold putMemoryWithWop
  rw [content, entities]
  change db.transaction (Except.bind (db.insertItem _) _) = _
  rw [insertItem_eq db (item.columns encContent encEntities) rfl finite]
  change db.transaction (Except.bind (attachEntities _ _ _) _) = _
  rw [done]
  rfl

/-- Whatever the database held and under whatever cipher: an item is read back as either put has
written it, linked to its entities alone, and no other memory has changed. -/
theorem put_get_round_trip (lawful : aead.Lawful) {nonces : Nonce × Nonce} {item : MemoryItem F}
    (sized : item.Sized) (finite : FloatArith.isFinite item.weight = true)
    (encrypts : Encrypts aead cipher nonces item) (db : ItemDb F) :
    (∃ db', db.putMemory aead cipher nonces item = (.ok (), db') ∧ Put aead cipher db db' item) ∧
      ∀ (wopOp wopPayload : String) («at» : Nat), ∃ seq db',
        db.putMemoryWithWop aead cipher nonces item wopOp wopPayload «at» = (.ok seq, db') ∧
          Put aead cipher db db' item := by
  obtain ⟨row, written⟩ := encrypts
  obtain ⟨db', done, -, put⟩ := put_statements lawful sized finite written db
  refine ⟨⟨db', putMemory_eq written finite done, put⟩, fun wopOp wopPayload «at» =>
    ⟨_, _, putMemoryWithWop_eq written finite done wopOp wopPayload «at», ?_⟩⟩
  exact ⟨put.get, put.links, put.otherRows, put.otherLinks⟩

/-- An encrypted put into an empty database. -/
theorem sealed_round_trip :
    let db : ItemDb Fixed := .empty
    let cipher := some (Cipher.ofByte 7)
    (∃ db', db.putMemory .labelled cipher (.zero, .zero) Db.linkedTwice = (.ok (), db') ∧
        Put .labelled cipher db db' Db.linkedTwice) ∧
      ∀ (wopOp wopPayload : String) («at» : Nat), ∃ seq db',
        db.putMemoryWithWop .labelled cipher (.zero, .zero) Db.linkedTwice wopOp wopPayload «at» =
            (.ok seq, db') ∧
          Put .labelled cipher db db' Db.linkedTwice :=
  put_get_round_trip Aead.labelled_lawful ⟨by decide, by decide, by decide, by decide⟩ rfl
    ⟨_, rfl⟩ _

/-! ### Typed rows -/

/-- The database has the rows of `s` in their columns. -/
structure Represents (db : ItemDb F) (s : SealedDb F) : Prop where
  memoryItem : db.memoryItem.rows = s.memoryItem.rows.map MemoryRow.cells
  entity : db.entity.rows = s.entity.map (EntityNode.row F)
  memoryEntity : db.memoryEntity = s.memoryEntity
  wopLog : db.wopLog = s.wopLog
  wopSeq : db.wopSeq = s.wopSeq

omit [NanTest F] in
theorem rows_insertIgnore {t : Table String EntityRow EntityRow.id} {entities : List EntityNode}
    (same : t.rows = entities.map (EntityNode.row F)) (e : EntityNode) :
    (t.insertIgnore (e.row F)).rows = (Db.insertEntity entities e).map (EntityNode.row F) := by
  have taken : (t.find? (e.row F).id).isSome = entities.any fun e' => e'.id == e.id := by
    unfold Table.find?
    rw [same, List.isSome_find?, List.any_map]
    rfl
  unfold Table.insertIgnore Db.insertEntity
  rw [taken]
  split_ifs with known
  · exact same
  · have absent : ∀ r ∈ t.rows, !decide (r.id = (e.row F).id) := by
      intro r mem
      have other := Table.find?_eq_none_iff.mp
        (Option.not_isSome_iff_eq_none.mp (taken ▸ known)) r mem
      simpa using other
    unfold Table.upsert
    dsimp only
    rw [List.filter_eq_self.mpr absent, same, List.map_append]
    rfl

omit [NanTest F] in
theorem rows_foldl_insertIgnore (added : List EntityNode) {t : Table String EntityRow EntityRow.id}
    {entities : List EntityNode} (same : t.rows = entities.map (EntityNode.row F)) :
    (added.foldl (fun t e => t.insertIgnore (e.row F)) t).rows =
      (added.foldl Db.insertEntity entities).map (EntityNode.row F) := by
  induction added generalizing t entities with
  | nil => exact same
  | cons e rest ih => exact ih (rows_insertIgnore same e)

/-- A put works on typed rows as it does on the columns. -/
theorem Represents.putMemory {db : ItemDb F} {s : SealedDb F} (represents : db.Represents s)
    {nonces : Nonce × Nonce} {item : MemoryItem F} (finite : FloatArith.isFinite item.weight = true)
    (encrypts : Encrypts aead cipher nonces item) :
    (db.putMemory aead cipher nonces item).2.Represents
      (s.putMemory aead cipher nonces item).2 := by
  obtain ⟨row, written⟩ := encrypts
  have key : ∀ r : MemoryRow F, Cells.key r.cells = some r.id := fun _ => rfl
  have own : ((db.replaceRow row.cells).memoryItem.find? (some item.id)).isSome = true := by
    unfold replaceRow
    dsimp only
    rw [Table.find?_upsert, if_pos ((key row).trans (congrArg some (itemRow_id written)))]
    rfl
  obtain ⟨db', done, attached⟩ := attachEntities_ok item.entities own
  rw [putMemory_eq written finite done]
  unfold SealedDb.putMemory
  rw [written]
  refine ⟨?_, ?_, ?_, attached.wopLog.trans represents.wopLog,
    attached.wopSeq.trans represents.wopSeq⟩
  · rw [attached.memoryItem]
    unfold replaceRow SealedDb.putRow Table.upsert
    dsimp only
    rw [represents.memoryItem, List.filter_map, List.map_append]
    refine congrArg (· ++ _) (congrArg _ (List.filter_congr fun r _ => ?_))
    rw [Function.comp_apply, key, key]
    simp
  · rw [attached.entity]
    exact rows_foldl_insertIgnore _ represents.entity
  · rw [attached.memoryEntity]
    unfold replaceRow SealedDb.putRow
    dsimp only
    have cascade : (fun p : String × String => Cells.key row.cells != some p.1) =
        fun p => p.1 != row.id := by
      funext p
      rw [key]
      simp [bne, eq_comm]
    rw [represents.memoryEntity, cascade, itemRow_id written]

end ItemDb

end FusionMemory
