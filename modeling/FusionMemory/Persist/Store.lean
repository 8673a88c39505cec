import FusionMemory.Lib.Table
import FusionMemory.Core.Memory
import Mathlib.Data.Int.Interval

/-!
The SQLite layer (`fm-persist/src/store.rs`).

`Db` is the content of the database: `memory_item` is a table with its primary
key, and the logs are lists in insertion order. Each function of `Persist` is a
pure function on it. Two readings of SQLite are fixed here. `INSERT OR REPLACE`
moves a row to the end of the table (it gets a new rowid) and cascades to
`memory_entity`; `ORDER BY` is stable, with ties in rowid order.

Integer columns hold 64-bit signed values: timestamps are compared as such, so
`asI64` and `asU64` appear wherever the code casts.
-/

namespace FusionMemory

open Lib

/-! ### Integer and text columns -/

/-- `2 ^ 64`. -/
def u64Size : Nat := 18446744073709551616

/-- `n as i64` for a `u64`. -/
def asI64 (n : Nat) : Int := Int.bmod n u64Size

/-- `i as u64` for an `i64`. -/
def asU64 (i : Int) : Nat := (i % (u64Size : Int)).toNat

/-- Casting a column to `u64` and back changes nothing. -/
theorem asI64_asU64 (n : Nat) : asI64 (asU64 (asI64 n)) = asI64 n := by
  have nonneg : 0 ≤ Int.bmod n u64Size % (u64Size : Int) := Int.emod_nonneg _ (by decide)
  have column : (asU64 (asI64 n) : Int) = Int.bmod n u64Size % (u64Size : Int) :=
    Int.toNat_of_nonneg nonneg
  unfold asI64 at column ⊢
  rw [column, Int.emod_bmod, Int.bmod_bmod]

/-- Casting a `u64` to a column and back changes nothing. -/
theorem asU64_asI64 {n : Nat} (fits : n < u64Size) : asU64 (asI64 n) = n := by
  unfold asU64 asI64
  rw [Int.bmod_emod, Int.emod_eq_of_lt (Int.natCast_nonneg n) (Int.ofNat_lt.mpr fits),
    Int.toNat_natCast]

theorem asI64_bounds (n : Nat) : -9223372036854775808 ≤ asI64 n ∧ asI64 n < 9223372036854775808 :=
  ⟨Int.le_bmod (by decide), Int.bmod_lt (by decide)⟩

@[simp] theorem asI64_zero : asI64 0 = 0 := by decide

@[simp] theorem asU64_zero : asU64 0 = 0 := by decide

/-- The digits of `s.parse::<u64>()`, most significant first. -/
def parseDigits : List Char → Nat → Option Nat
  | [], acc => some acc
  | c :: rest, acc =>
      if c.isDigit then parseDigits rest (acc * 10 + (c.toNat - '0'.toNat)) else none

/-- `s.parse::<u64>().ok()`: an optional plus sign and at least one decimal digit. -/
def parseU64 (s : String) : Option Nat :=
  match s.toList with
  | [] => none
  | ['+'] => none
  | '+' :: digits => (parseDigits digits 0).filter (· < u64Size)
  | digits => (parseDigits digits 0).filter (· < u64Size)

theorem parseDigits_eq {cs : List Char} (digits : ∀ c ∈ cs, c.isDigit = true) (acc : Nat) :
    parseDigits cs acc = some (Nat.ofDigitChars 10 cs acc) := by
  induction cs generalizing acc with
  | nil => simp [parseDigits]
  | cons c rest ih =>
      rw [parseDigits, if_pos (digits c List.mem_cons_self), Nat.ofDigitChars_cons, Nat.mul_comm]
      exact ih (fun c' mem => digits c' (List.mem_cons_of_mem _ mem)) _

/-- The decimal text of a number reads back as the number, if it fits. -/
theorem parseU64_toString (n : Nat) :
    parseU64 (toString n) = if n < u64Size then some n else none := by
  have digits : ∀ c ∈ Nat.toDigits 10 n, c.isDigit = true :=
    fun c mem => Nat.isDigit_of_mem_toDigits (by decide) (by decide) mem
  have parsed : parseDigits (Nat.toDigits 10 n) 0 = some n := by
    rw [parseDigits_eq digits, Nat.ofDigitChars_ten_toDigits]
  unfold parseU64
  rw [Nat.toString_eq_repr, Nat.toList_repr]
  split
  · rename_i empty
    exact absurd empty Nat.toDigits_ne_nil
  · rename_i sign
    rw [sign] at digits
    exact absurd (digits '+' List.mem_cons_self) (by decide)
  · rename_i rest sign
    rw [sign] at digits
    exact absurd (digits '+' List.mem_cons_self) (by decide)
  · rw [parsed]
    by_cases small : n < u64Size <;> simp [small, Option.filter]

/-- Rows in the order of a key, ties in the order they stand. -/
def orderBy {R : Type} (key : R → Int) (rows : List R) : List R :=
  rows.insertionSort fun a b => key a ≤ key b

theorem orderBy_perm {R : Type} (key : R → Int) (rows : List R) : (orderBy key rows).Perm rows :=
  List.perm_insertionSort _ rows

@[simp] theorem mem_orderBy {R : Type} {key : R → Int} {rows : List R} {r : R} :
    r ∈ orderBy key rows ↔ r ∈ rows := (orderBy_perm key rows).mem_iff

theorem pairwise_orderBy {R : Type} (key : R → Int) (rows : List R) :
    (orderBy key rows).Pairwise fun a b => key a ≤ key b :=
  List.pairwise_insertionSort (fun a b => key a ≤ key b) rows

/-- The largest number of a placeholder that SQLite accepts, as it is built by default. -/
def MAX_VARIABLE_NUMBER : Nat := 32766

/-! ### Errors (`error.rs`) -/

/-- `PersistError`; `busy` records whether the SQLite code is `SQLITE_BUSY` or
`SQLITE_LOCKED`. -/
inductive PersistError where
  | sqlite (msg : String) (busy : Bool)
  | serde (msg : String)
  | io (msg : String)
  | poisoned
  | pool (msg : String)
  | encrypt (msg : String)
  | invalidNamespace (ns : String)
deriving DecidableEq, Repr

namespace PersistError

def toString : PersistError → String
  | .sqlite m _ => "sqlite error: " ++ m
  | .serde m => "serde error: " ++ m
  | .io m => "io error: " ++ m
  | .poisoned => "persist conn lock poisoned (prior panic in critical section)"
  | .pool m => "connection pool error: " ++ m
  | .encrypt m => "encryption error: " ++ m
  | .invalidNamespace ns => "invalid namespace: " ++ ns

/-- `s.to_lowercase().contains(pattern)`, for a lower-case ASCII pattern. -/
def mentions (pattern s : String) : Bool := decide (pattern.toList <:+: s.toLower.toList)

def toMemory : PersistError → MemoryError
  | .serde m => .serde m
  | .io m => .io m
  | .poisoned => .poisoned
  | .pool m => if mentions "timed out" m || mentions "busy" m then .busy m else .sqlite m
  | .sqlite m busy => if busy then .busy m else .sqlite m
  | .encrypt m => .encrypt m
  | .invalidNamespace ns =>
      .unsupported ("invalid namespace: " ++ ns ++ " (expect user|project|local|empty)")

end PersistError

/-! ### Tables (`schema.rs`) -/

structure MergeLogEntry where
  id : Nat
  «at» : Nat
  sourceId : String
  targetId : String
  reason : String
deriving DecidableEq, Repr

structure WopEntry where
  seq : Nat
  op : String
  payload : String
  «at» : Nat
deriving DecidableEq, Repr

structure ConsolidationEntry where
  startedAt : Nat
  report : ConsolidationReport
deriving DecidableEq, Repr

structure ReconcileEntry where
  «at» : Nat
  memoryId : String
  stage : String
  error : String
deriving DecidableEq, Repr

structure AuditLogEntry where
  id : Nat
  «at» : Nat
  actor : String
  action : String
  targetId : String
  detail : String
deriving DecidableEq, Repr

/-- An edge of the entity graph; `n_hop_reachable` reads no other column. -/
structure Relation where
  src : String
  dst : String
deriving DecidableEq, Repr

/-- The content of the database. `mergeSeq`, `wopSeq` and `auditSeq` are the
high-water marks of the `AUTOINCREMENT` keys. -/
structure Db (F : Type) where
  memoryItem : Table String (MemoryItem F) MemoryItem.id
  entity : List EntityNode
  memoryEntity : List (String × String)
  relation : List Relation
  consolidationLog : List ConsolidationEntry
  mergeLog : List MergeLogEntry
  mergeSeq : Nat
  reconcileReport : List ReconcileEntry
  wopLog : List WopEntry
  wopSeq : Nat
  auditLog : List AuditLogEntry
  auditSeq : Nat

namespace Db

variable {F : Type}

def empty : Db F where
  memoryItem := .empty
  entity := []
  memoryEntity := []
  relation := []
  consolidationLog := []
  mergeLog := []
  mergeSeq := 0
  reconcileReport := []
  wopLog := []
  wopSeq := 0
  auditLog := []
  auditSeq := 0

/-! ### Namespace predicate -/

/-- The variables that `ns_predicate` binds. -/
def nsVariables (ns : NamespaceFilter) : Nat := if ns.isActive && !ns.key.isEmpty then 1 else 0

/-- `ns_predicate`: an unknown namespace is an error, not an empty result. -/
def nsPredicate (ns : NamespaceFilter) : Except PersistError (MemoryItem F → Bool) :=
  if !ns.isActive then .ok fun _ => true
  else if !isValidNamespace ns.namespace then .error (.invalidNamespace ns.namespace)
  else if ns.namespace = NS_USER then
    if ns.key.isEmpty then .ok fun m => m.namespace == "user"
    else .ok fun m => m.namespace == "user" && m.namespaceKey == ns.key
  else if ns.namespace = NS_PROJECT then
    if ns.key.isEmpty then .ok fun m => m.namespace == "project" || m.namespace == "user"
    else .ok fun m => (m.namespace == "project" && m.namespaceKey == ns.key) || m.namespace == "user"
  else if ns.namespace = NS_LOCAL then
    if ns.key.isEmpty then .ok fun m => m.namespace == "local"
    else .ok fun m => m.namespace == "local" && m.namespaceKey == ns.key
  else .error (.invalidNamespace ns.namespace)

/-- Where the SQL predicate exists, it is the in-memory visibility check. -/
theorem nsPredicate_visible {ns : NamespaceFilter} {pred : MemoryItem F → Bool}
    (h : nsPredicate ns = .ok pred) (m : MemoryItem F) :
    pred m = ns.visible m.namespace m.namespaceKey := by
  unfold nsPredicate at h
  unfold NamespaceFilter.visible
  generalize hkey : ns.key.isEmpty = noKey at h ⊢
  cases noKey <;> split_ifs at h ⊢ <;> cases h <;>
    simp_all [NS_USER, NS_PROJECT, NS_LOCAL]

@[simp] theorem nsPredicate_default :
    nsPredicate (F := F) NamespaceFilter.default = .ok fun _ => true := rfl

/-- A known namespace has a predicate, the visibility under the filter. -/
theorem nsPredicate_valid {ns : NamespaceFilter} (valid : isValidNamespace ns.namespace = true) :
    nsPredicate (F := F) ns = .ok fun m => ns.visible m.namespace m.namespaceKey := by
  cases h : nsPredicate (F := F) ns with
  | ok pred => exact congrArg _ (funext (nsPredicate_visible h))
  | error e =>
      unfold nsPredicate at h
      unfold isValidNamespace at valid
      split_ifs at h <;> simp_all [NamespaceFilter.isActive, isValidNamespace]

theorem nsPredicate_invalid {ns : NamespaceFilter} (bad : isValidNamespace ns.namespace = false) :
    nsPredicate (F := F) ns = .error (.invalidNamespace ns.namespace) := by
  have active : ns.isActive = true := by
    unfold isValidNamespace at bad
    unfold NamespaceFilter.isActive
    simp_all
  unfold nsPredicate
  rw [active, bad]
  rfl

/-! ### Reading memories -/

/-- `SELECT * FROM memory_item WHERE …`, in rowid order. -/
def select (db : Db F) (p : MemoryItem F → Bool) : List (MemoryItem F) := db.memoryItem.rows.filter p

def getMemory (db : Db F) (id : String) : Option (MemoryItem F) := db.memoryItem.find? id

def listByInteraction (db : Db F) (interactionId : String) : List (MemoryItem F) :=
  orderBy (fun m => m.turnIdx) (db.select fun m => m.interactionId == interactionId && !m.tombstone)

def listAllByTenantScoped (db : Db F) (tenant : String) (ns : NamespaceFilter) :
    Except PersistError (List (MemoryItem F)) := do
  let pred ← nsPredicate ns
  return orderBy (fun m => asI64 m.createdTimestamp)
    (db.select fun m => !m.tombstone && m.tenant == tenant && pred m)

/-- Every reference has a placeholder of its own, and SQLite numbers only so many. -/
def getByVectorRefsTenantScoped (db : Db F) (vecRefs : List Nat) (tenant : String)
    (ns : NamespaceFilter) : Except PersistError (List (MemoryItem F)) :=
  if vecRefs.isEmpty then .ok []
  else do
    let refsStr := vecRefs.map toString
    let pred ← nsPredicate ns
    if refsStr.length + 1 + nsVariables ns > MAX_VARIABLE_NUMBER then
      .error (.sqlite "variable number must be between ?1 and ?32766" false)
    else return db.select fun m =>
      !m.tombstone && m.tenant == tenant && pred m && refsStr.contains m.vectorRef

def listBySessionTenant (db : Db F) (sessionId tenant : String) : List (MemoryItem F) :=
  orderBy (fun m => m.turnIdx)
    (db.select fun m => m.sessionId == sessionId && m.tenant == tenant && !m.tombstone)

def countBySessionTenant (db : Db F) (sessionId : Option String) (tenant : String) : Nat :=
  (db.select fun m => !m.tombstone && m.tenant == tenant &&
    match sessionId with
    | some s => m.sessionId == s
    | none => true).length

def auditByEntities (db : Db F) (entityIds : List String) : List (MemoryItem F) :=
  orderBy (fun m => asI64 m.createdTimestamp)
    (db.memoryItem.rows.flatMap fun m =>
      (db.memoryEntity.filter fun me =>
        me.1 == m.id && entityIds.contains me.2 && !m.tombstone).map fun _ => m)

/-- Rows created or accessed after `since`, whatever their tenant. -/
def listChangedSinceScoped (db : Db F) (since : Nat) (ns : NamespaceFilter) :
    Except PersistError (List (MemoryItem F)) := do
  let pred ← nsPredicate ns
  return orderBy (fun m => asI64 m.createdTimestamp)
    (db.select fun m => !m.tombstone &&
      (decide (asI64 m.lastAccessedTimestamp > asI64 since) ||
        decide (asI64 m.createdTimestamp > asI64 since)) && pred m)

def listTombstoned (db : Db F) : List (MemoryItem F) := db.select fun m => m.tombstone

/-- `MAX(started_at)`, 0 when no run is recorded. -/
def lastConsolidateAt (db : Db F) : Nat :=
  asU64 (((db.consolidationLog.map fun e => asI64 e.startedAt).max?).getD 0)

def listMergeLog (db : Db F) : List MergeLogEntry := db.mergeLog.reverse

def listWopSince (db : Db F) (sinceSeq limit : Nat) : List WopEntry :=
  (db.wopLog.filter fun e => e.seq > sinceSeq).take limit

def listAudit (db : Db F) (limit : Option Nat) : List AuditLogEntry :=
  match limit with
  | some n => db.auditLog.reverse.take n
  | none => db.auditLog.reverse

/-! ### What the queries return -/

@[simp] theorem mem_select {db : Db F} {p : MemoryItem F → Bool} {m : MemoryItem F} :
    m ∈ db.select p ↔ m ∈ db.memoryItem.rows ∧ p m = true := List.mem_filter

theorem mem_listByInteraction {db : Db F} {ix : String} {m : MemoryItem F} :
    m ∈ db.listByInteraction ix ↔
      m ∈ db.memoryItem.rows ∧ m.interactionId = ix ∧ m.tombstone = false := by
  simp [listByInteraction]

@[simp] theorem auditByEntities_nil (db : Db F) : db.auditByEntities [] = [] := by
  have empty : ∀ rows : List (MemoryItem F), (rows.flatMap fun m =>
      (db.memoryEntity.filter fun me =>
        me.1 == m.id && List.contains [] me.2 && !m.tombstone).map fun _ => m) = [] := by
    intro rows
    simp
  unfold auditByEntities
  rw [empty]
  rfl

theorem mem_listTombstoned {db : Db F} {m : MemoryItem F} :
    m ∈ db.listTombstoned ↔ m ∈ db.memoryItem.rows ∧ m.tombstone = true := by
  simp [listTombstoned]

theorem mem_listAllByTenantScoped {db : Db F} {tenant : String} {ns : NamespaceFilter}
    {rows : List (MemoryItem F)} (h : db.listAllByTenantScoped tenant ns = .ok rows)
    {m : MemoryItem F} :
    m ∈ rows ↔ m ∈ db.memoryItem.rows ∧ m.tombstone = false ∧ m.tenant = tenant ∧
      ns.visible m.namespace m.namespaceKey = true := by
  unfold listAllByTenantScoped at h
  cases valid : isValidNamespace ns.namespace with
  | false =>
      rw [nsPredicate_invalid valid] at h
      cases h
  | true =>
      rw [nsPredicate_valid valid] at h
      cases h
      simp [and_assoc]

theorem getByVectorRefsTenantScoped_eq_ok {db : Db F} {vecRefs : List Nat} {tenant : String}
    {ns : NamespaceFilter} {rows : List (MemoryItem F)} (some : vecRefs ≠ [])
    (h : db.getByVectorRefsTenantScoped vecRefs tenant ns = .ok rows) :
    vecRefs.length + 1 + nsVariables ns ≤ MAX_VARIABLE_NUMBER ∧
      rows = db.select fun m => !m.tombstone && m.tenant == tenant &&
        ns.visible m.namespace m.namespaceKey && (vecRefs.map toString).contains m.vectorRef := by
  unfold getByVectorRefsTenantScoped at h
  rw [if_neg (mt List.isEmpty_iff.mp some)] at h
  cases valid : isValidNamespace ns.namespace with
  | false =>
      rw [nsPredicate_invalid valid] at h
      cases h
  | true =>
      rw [nsPredicate_valid valid] at h
      dsimp only [bind, Except.bind] at h
      split_ifs at h with large
      cases h
      rw [List.length_map] at large
      exact ⟨not_lt.mp large, rfl⟩

/-- A row changed since `since`. -/
def ChangedSince (since : Nat) (m : MemoryItem F) : Prop :=
  asI64 since < asI64 m.lastAccessedTimestamp ∨ asI64 since < asI64 m.createdTimestamp

theorem mem_listChangedSinceScoped {db : Db F} {since : Nat} {ns : NamespaceFilter}
    {rows : List (MemoryItem F)} (h : db.listChangedSinceScoped since ns = .ok rows)
    {m : MemoryItem F} :
    m ∈ rows ↔ m ∈ db.memoryItem.rows ∧ m.tombstone = false ∧ ChangedSince since m ∧
      ns.visible m.namespace m.namespaceKey = true := by
  unfold listChangedSinceScoped at h
  cases valid : isValidNamespace ns.namespace with
  | false =>
      rw [nsPredicate_invalid valid] at h
      cases h
  | true =>
      rw [nsPredicate_valid valid] at h
      cases h
      simp [ChangedSince, and_assoc]

/-! ### The entity graph -/

/-- Nodes one edge from `nodes`, in name order. -/
def successors (db : Db F) (nodes : List String) : List String :=
  ((nodes.flatMap fun n => (db.relation.filter fun r => r.src == n).map (·.dst)).dedup).insertionSort
    (· ≤ ·)

/-- The levels of the recursive query from `frontier`, with the nodes already listed. -/
def hopLevels (db : Db F) (start : String) :
    Nat → Nat → List String → List (String × Nat) → List (String × Nat)
  | 0, _, _, found => found
  | steps + 1, level, frontier, found =>
      let reached := db.successors frontier
      let fresh := reached.filter fun n => n != start && !found.any fun p => p.1 == n
      hopLevels db start steps (level + 1) reached (found ++ fresh.map fun n => (n, level + 1))

def N_HOP_RESULT_LIMIT : Nat := 256

def nHopReachable (db : Db F) (start : String) (hopLimit : Nat) : List (String × Nat) :=
  (db.hopLevels start hopLimit 0 [start] []).take N_HOP_RESULT_LIMIT

/-! ### Writing memories -/

/-- `INSERT OR IGNORE INTO entity`. -/
def insertEntity (entities : List EntityNode) (e : EntityNode) : List EntityNode :=
  if entities.any fun e' => e'.id == e.id then entities else entities ++ [e]

/-- `INSERT OR IGNORE INTO memory_entity`. -/
def linkEntity (links : List (String × String)) (link : String × String) : List (String × String) :=
  if links.contains link then links else links ++ [link]

def putMemory (db : Db F) (item : MemoryItem F) : Db F :=
  { db with
    memoryItem := db.memoryItem.upsert item
    entity := item.entities.foldl insertEntity db.entity
    -- Replacing the row cascades to its links before the new ones are written.
    memoryEntity := item.entities.foldl (fun links e => linkEntity links (item.id, e.id))
      (db.memoryEntity.filter fun link => link.1 != item.id) }

def appendWop (db : Db F) (op payload : String) («at» : Nat) : Db F :=
  { db with wopLog := db.wopLog ++ [⟨db.wopSeq + 1, op, payload, «at»⟩], wopSeq := db.wopSeq + 1 }

/-- Row and log entry in one transaction. -/
def putMemoryWithWop (db : Db F) (item : MemoryItem F) (wopOp wopPayload : String) («at» : Nat) :
    Db F :=
  (db.putMemory item).appendWop wopOp wopPayload «at»

def setTombstone (db : Db F) (id : String) (tombstone : Bool) : Db F :=
  { db with
    memoryItem := db.memoryItem.update (fun m => m.id == id)
      (fun m => { m with tombstone := tombstone }) fun _ => rfl }

def tombstoneMemory (db : Db F) (id : String) : Db F := db.setTombstone id true

def untombstoneMemory (db : Db F) (id : String) : Db F := db.setTombstone id false

/-- One more access for each distinct live id. -/
def touchAccessBatch (db : Db F) (ids : List String) (nowTs : Nat) : Db F :=
  { db with
    memoryItem := db.memoryItem.update (fun m => ids.contains m.id && !m.tombstone)
      (fun m => { m with accessCount := m.accessCount + 1, lastAccessedTimestamp := nowTs })
      fun _ => rfl }

def physicalDelete (db : Db F) (id : String) : Db F :=
  { db with
    memoryEntity := db.memoryEntity.filter fun link => link.1 != id
    memoryItem := db.memoryItem.delete fun m => m.id == id }

/-! ### Logs -/

/-- The first statement of `record_consolidation`. -/
def insertConsolidation (db : Db F) (report : ConsolidationReport) (startedAt : Nat) : Db F :=
  { db with consolidationLog := db.consolidationLog ++ [⟨startedAt, report⟩] }

def appendReconcile (db : Db F) («at» : Nat) (memoryId stage error : String) : Db F :=
  { db with reconcileReport := db.reconcileReport ++ [⟨«at», memoryId, stage, error⟩] }

/-- `record_consolidation`, cut off after its first `statements` statements. -/
def recordConsolidationPrefix (db : Db F) (report : ConsolidationReport) (startedAt : Nat) :
    Nat → Db F
  | 0 => db
  | statements + 1 => (report.failures.take statements).foldl
      (fun db f => db.appendReconcile startedAt f.memoryId f.stage f.error)
      (db.insertConsolidation report startedAt)

def recordConsolidation (db : Db F) (report : ConsolidationReport) (startedAt : Nat) : Db F :=
  db.recordConsolidationPrefix report startedAt (report.failures.length + 1)

def recordMerge (db : Db F) (sourceId targetId reason : String) («at» : Nat) : Db F :=
  { db with
    mergeLog := db.mergeLog ++ [⟨db.mergeSeq + 1, «at», sourceId, targetId, reason⟩]
    mergeSeq := db.mergeSeq + 1 }

/-- The pair of a merge, whose log row goes. -/
def unmerge (db : Db F) (mergeId : Nat) : Option (String × String) × Db F :=
  match db.mergeLog.find? fun e => asI64 e.id == asI64 mergeId with
  | none => (none, db)
  | some e =>
      (some (e.sourceId, e.targetId),
        { db with mergeLog := db.mergeLog.filter fun e => asI64 e.id != asI64 mergeId })

def appendAudit (db : Db F) («at» : Nat) (actor action targetId detail : String) : Db F :=
  { db with
    auditLog := db.auditLog ++ [⟨db.auditSeq + 1, «at», actor, action, targetId, detail⟩]
    auditSeq := db.auditSeq + 1 }

end Db

end FusionMemory
