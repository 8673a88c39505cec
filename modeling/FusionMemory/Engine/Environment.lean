import FusionMemory.Lib.Program
import FusionMemory.Lib.Json
import FusionMemory.Persist.Store
import FusionMemory.Store.Local

/-!
What the engine acts on.

The engine's methods are programs over the requests below. Each request is one
atomic action: a statement or transaction of the database, a call of the vector
store, a lock, or a question to the world outside (clock, embedder, extractor,
chat model). `Env` holds the answers of everything outside this repository as
functions of the time, `World` the whole state, and `machine` serves requests.

Every database and store call can fail: `persistFault` and `storeFault` say when,
with which error, and how many of the call's writes took effect before it.
-/

namespace FusionMemory

open Lib

/-- `ExtractResult` of the entity extractor. -/
structure ExtractResult where
  entities : List EntityNode
  success : Bool
deriving DecidableEq, Repr

/-! ### Requests -/

/-- One call of the database layer. -/
inductive PersistOp (F : Type) where
  | putMemory (item : MemoryItem F)
  | putMemoryWithWop (item : MemoryItem F) (wopOp wopPayload : String) («at» : Nat)
  | getMemory (id : String)
  | listByInteraction (interactionId : String)
  | listAllByTenantScoped (tenant : String) (ns : NamespaceFilter)
  | getByVectorRefsTenantScoped (vecRefs : List Nat) (tenant : String) (ns : NamespaceFilter)
  | nHopReachable (start : String) (hopLimit : Nat)
  | tombstoneMemory (id : String)
  | untombstoneMemory (id : String)
  | listBySessionTenant (sessionId tenant : String)
  | countBySessionTenant (sessionId : Option String) (tenant : String)
  | auditByEntities (entityIds : List String)
  | touchAccessBatch (ids : List String) (nowTs : Nat)
  | recordConsolidation (report : ConsolidationReport) (startedAt : Nat)
  | appendWop (op payload : String) («at» : Nat)
  | recordMerge (sourceId targetId reason : String) («at» : Nat)
  | lastConsolidateAt
  | listChangedSinceScoped (since : Nat) (ns : NamespaceFilter)
  | listTombstoned
  | physicalDelete (id : String)
  | listMergeLog
  | unmerge (mergeId : Nat)
  | appendReconcile («at» : Nat) (memoryId stage error : String)
  | appendAudit («at» : Nat) (actor action targetId detail : String)
  | listAudit (limit : Option Nat)

namespace PersistOp

variable {F : Type}

/-- What a call returns when it succeeds. -/
@[reducible] def Value : PersistOp F → Type
  | .getMemory _ => Option (MemoryItem F)
  | .listByInteraction _ | .listAllByTenantScoped _ _ | .getByVectorRefsTenantScoped _ _ _
  | .listBySessionTenant _ _ | .listChangedSinceScoped _ _ | .listTombstoned
  | .auditByEntities _ => List (MemoryItem F)
  | .nHopReachable _ _ => List (String × Nat)
  | .countBySessionTenant _ _ | .lastConsolidateAt => Nat
  | .listMergeLog => List MergeLogEntry
  | .listAudit _ => List AuditLogEntry
  | .unmerge _ => Option (String × String)
  | _ => Unit

/-- The call with no failure. -/
def exec (db : Db F) : (op : PersistOp F) → Except PersistError op.Value × Db F
  | .putMemory item => (.ok (), db.putMemory item)
  | .putMemoryWithWop item op payload «at» => (.ok (), db.putMemoryWithWop item op payload «at»)
  | .getMemory id => (.ok (db.getMemory id), db)
  | .listByInteraction ix => (.ok (db.listByInteraction ix), db)
  | .listAllByTenantScoped tenant ns => (db.listAllByTenantScoped tenant ns, db)
  | .getByVectorRefsTenantScoped refs tenant ns => (db.getByVectorRefsTenantScoped refs tenant ns, db)
  | .nHopReachable start limit => (.ok (db.nHopReachable start limit), db)
  | .tombstoneMemory id => (.ok (), db.tombstoneMemory id)
  | .untombstoneMemory id => (.ok (), db.untombstoneMemory id)
  | .listBySessionTenant session tenant => (.ok (db.listBySessionTenant session tenant), db)
  | .countBySessionTenant session tenant => (.ok (db.countBySessionTenant session tenant), db)
  | .auditByEntities ids => (.ok (db.auditByEntities ids), db)
  | .touchAccessBatch ids now => (.ok (), db.touchAccessBatch ids now)
  | .recordConsolidation report started => (.ok (), db.recordConsolidation report started)
  | .appendWop op payload «at» => (.ok (), db.appendWop op payload «at»)
  | .recordMerge src tgt reason «at» => (.ok (), db.recordMerge src tgt reason «at»)
  | .lastConsolidateAt => (.ok db.lastConsolidateAt, db)
  | .listChangedSinceScoped since ns => (db.listChangedSinceScoped since ns, db)
  | .listTombstoned => (.ok db.listTombstoned, db)
  | .physicalDelete id => (.ok (), db.physicalDelete id)
  | .listMergeLog => (.ok db.listMergeLog, db)
  | .unmerge id => (.ok (db.unmerge id).1, (db.unmerge id).2)
  | .appendReconcile «at» id stage error => (.ok (), db.appendReconcile «at» id stage error)
  | .appendAudit «at» actor action target detail =>
      (.ok (), db.appendAudit «at» actor action target detail)
  | .listAudit limit => (.ok (db.listAudit limit), db)

/-- The call with a failure after `writes` of its statements. Nearly all calls are
one statement or one transaction, so nothing of them stays. `record_consolidation`
is a sequence of inserts; `unmerge` takes a failed lookup for a missing row; a call
about no ids does not reach the database. -/
def fails (db : Db F) (e : PersistError) (writes : Nat) :
    (op : PersistOp F) → Except PersistError op.Value × Db F
  | .recordConsolidation report started =>
      (.error e, db.recordConsolidationPrefix report started (min writes report.failures.length))
  | .unmerge id =>
      match writes, (db.unmerge id).1 with
      | 0, _ => (.error e, db)
      | 1, _ => (.ok none, db)
      | _, none => (.ok none, db)
      | _, some _ => (.error e, db)
  | .getByVectorRefsTenantScoped [] _ _ => (.ok [], db)
  | .auditByEntities [] => (.ok [], db)
  | .touchAccessBatch [] _ => (.ok (), db)
  | _ => (.error e, db)

/-- The calls that change nothing. -/
def isRead : PersistOp F → Bool
  | .getMemory _ | .listByInteraction _ | .listAllByTenantScoped _ _
  | .getByVectorRefsTenantScoped _ _ _ | .nHopReachable _ _ | .listBySessionTenant _ _
  | .countBySessionTenant _ _ | .auditByEntities _ | .lastConsolidateAt
  | .listChangedSinceScoped _ _ | .listTombstoned | .listMergeLog | .listAudit _ => true
  | _ => false

theorem exec_isRead {db : Db F} {op : PersistOp F} (read : op.isRead = true) :
    (op.exec db).2 = db := by
  cases op <;> first | rfl | cases read

theorem fails_isRead {db : Db F} {e : PersistError} {writes : Nat} {op : PersistOp F}
    (read : op.isRead = true) : (op.fails db e writes).2 = db := by
  unfold fails
  split <;> first | rfl | cases read

/-- A failing read either reports the failure or, asked about no ids, answers as ever. -/
theorem fails_isRead_ok {db : Db F} {e : PersistError} {writes : Nat} {op : PersistOp F}
    (read : op.isRead = true) {a : op.Value} (h : (op.fails db e writes).1 = .ok a) :
    (op.exec db).1 = .ok a := by
  unfold fails at h
  split at h <;> first
    | exact h
    | (cases h; exact congrArg Except.ok (Db.auditByEntities_nil db))
    | cases h
    | cases read

end PersistOp

/-- One call of the vector store. -/
inductive StoreOp (F : Type) where
  | insertVector (id : Nat) (vec : List F)
  | searchKnn (query : List F) (topK : Nat)
  | getVector (id : Nat)
  | deleteVector (id : Nat)
  | listVectorIds

namespace StoreOp

variable {F : Type} [FloatArith F]

@[reducible] def Value : StoreOp F → Type
  | .searchKnn _ _ => List (Nat × F)
  | .getVector _ => Option (List F)
  | .listVectorIds => List Nat
  | _ => Unit

def exec (ann : AnnSearch F) (s : LocalStore F) :
    (op : StoreOp F) → Except StoreError op.Value × LocalStore F
  | .insertVector id vec => s.insertVector id vec
  | .searchKnn query k => (s.searchKnn ann query k, s)
  | .getVector id => (.ok (s.getVector id), s)
  | .deleteVector id => (.ok (), s.deleteVector id)
  | .listVectorIds => (.ok s.listVectorIds, s)

def fails (s : LocalStore F) (e : StoreError) (writes : Nat) :
    (op : StoreOp F) → Except StoreError op.Value × LocalStore F
  | .insertVector id vec => s.insertVectorFails id vec e writes
  | .searchKnn query _ =>
      if query.length ≠ s.dim then (.error (.dimension s.dim query.length), s) else (.error e, s)
  | .getVector _ => (.error e, s)
  | .deleteVector _ => (.error e, s)
  | .listVectorIds => (.error e, s)

end StoreOp

/-- The two mutexes of the engine. -/
inductive Lock where
  | consolidate
  | touch
deriving DecidableEq, Repr

inductive Request (F : Type) where
  | nowMs
  | newUlid
  | embed (text : String)
  | extract (text : String)
  | chatCompletion (system user : String)
  /-- The order in which a hash map with these keys is iterated. -/
  | iterationOrder (keys : List String)
  | acquire (lock : Lock)
  | release (lock : Lock)
  | loadStaleFlag
  | loadLastSyncAt
  | storeStaleFlag (stale : Bool)
  | storeLastSyncAt (atMs : Nat)
  | persist (op : PersistOp F)
  | store (op : StoreOp F)

@[reducible] def Request.Reply {F : Type} : Request F → Type
  | .nowMs | .loadLastSyncAt => Nat
  | .newUlid => String
  | .embed _ => Except String (List F)
  | .extract _ => ExtractResult
  | .chatCompletion _ _ => Option String
  | .iterationOrder _ => List String
  | .loadStaleFlag => Bool
  | .persist op => Except PersistError op.Value
  | .store op => Except StoreError op.Value
  | _ => Unit

/-- The requests of the engine. -/
abbrev engineSignature (F : Type) : Signature := ⟨Request F, Request.Reply⟩

/-! ### The world -/

/-- Everything outside the repository, and the failures of the storage, as functions
of the time of the request. A ULID is new to the world and has no tab in it; a hash
map is iterated in some order. -/
structure Env (F : Type) where
  clock : Nat → Nat
  ulid : Nat → (taken : List String) → {id : String // id ∉ taken ∧ '\t' ∉ id.toList}
  embed : Nat → String → Except String (List F)
  extract : Nat → String → ExtractResult
  chat : Nat → String → String → Option String
  order : Nat → (keys : List String) → {keys' : List String // keys'.Perm keys}
  ann : Nat → {ann : AnnSearch F // ann.Sound}
  persistFault : Nat → PersistOp F → Option (PersistError × Nat)
  storeFault : Nat → StoreOp F → Option (StoreError × Nat)

structure World (F : Type) where
  env : Env F
  tick : Nat
  db : Db F
  store : LocalStore F
  /-- The ULIDs handed out so far. -/
  issued : List String
  consolidateHeld : Bool
  touchHeld : Bool
  staleFlag : Bool
  lastSyncAt : Nat

namespace World

variable {F : Type} [FloatArith F]

def held (w : World F) : Lock → Bool
  | .consolidate => w.consolidateHeld
  | .touch => w.touchHeld

def setHeld (w : World F) (b : Bool) : Lock → World F
  | .consolidate => { w with consolidateHeld := b }
  | .touch => { w with touchHeld := b }

/-- The ids a new ULID differs from. -/
def taken (w : World F) : List String := w.issued ++ w.db.memoryItem.rows.map (·.id)

def ready : Request F → World F → Bool
  | .acquire lock, w => !w.held lock
  | _, _ => true

def execPersist (w : World F) (op : PersistOp F) : Except PersistError op.Value × Db F :=
  match w.env.persistFault w.tick op with
  | none => op.exec w.db
  | some (e, writes) => op.fails w.db e writes

def execStore (w : World F) (op : StoreOp F) : Except StoreError op.Value × LocalStore F :=
  match w.env.storeFault w.tick op with
  | none => op.exec (w.env.ann w.tick).1 w.store
  | some (e, writes) => op.fails w.store e writes

/-- Serve a request, one tick later. -/
def exec : (r : Request F) → World F → r.Reply × World F
  | .nowMs, w => (w.env.clock w.tick, { w with tick := w.tick + 1 })
  | .newUlid, w =>
      let id := (w.env.ulid w.tick w.taken).1
      (id, { w with tick := w.tick + 1, issued := id :: w.issued })
  | .embed text, w => (w.env.embed w.tick text, { w with tick := w.tick + 1 })
  | .extract text, w => (w.env.extract w.tick text, { w with tick := w.tick + 1 })
  | .chatCompletion system user, w =>
      (w.env.chat w.tick system user, { w with tick := w.tick + 1 })
  | .iterationOrder keys, w => ((w.env.order w.tick keys).1, { w with tick := w.tick + 1 })
  | .acquire lock, w => ((), { w.setHeld true lock with tick := w.tick + 1 })
  | .release lock, w => ((), { w.setHeld false lock with tick := w.tick + 1 })
  | .loadStaleFlag, w => (w.staleFlag, { w with tick := w.tick + 1 })
  | .loadLastSyncAt, w => (w.lastSyncAt, { w with tick := w.tick + 1 })
  | .storeStaleFlag stale, w => ((), { w with tick := w.tick + 1, staleFlag := stale })
  | .storeLastSyncAt atMs, w => ((), { w with tick := w.tick + 1, lastSyncAt := atMs })
  | .persist op, w => ((w.execPersist op).1, { w with tick := w.tick + 1, db := (w.execPersist op).2 })
  | .store op, w => ((w.execStore op).1, { w with tick := w.tick + 1, store := (w.execStore op).2 })

end World

/-- Requests served on a world. -/
def machine (F : Type) [FloatArith F] : Machine (engineSignature F) (World F) :=
  ⟨World.ready, World.exec⟩

/-- A method of the engine. -/
abbrev EngineM (F α : Type) := Program (engineSignature F) MemoryError α

/-- The fields of `MemoryEngine` that its methods read, apart from the shared state. -/
structure MemoryEngine where
  tenant : String
  /-- The PII redactor, when redaction is on. -/
  redact : Option (String → String)
  hasExtractor : Bool
  hasExtractConfig : Bool

/-! ### Calls -/

section Calls

variable {F : Type}

def nowMs : EngineM F Nat := Program.perform (S := engineSignature F) .nowMs
def newUlid : EngineM F String := Program.perform (S := engineSignature F) .newUlid

/-- `embedder.embed(text).await.map_err(|e| e.to_memory())`. -/
def embed (text : String) : EngineM F (Except MemoryError (List F)) := do
  let reply ← (Program.perform (S := engineSignature F) (.embed text) : EngineM F _)
  return reply.mapError .store

def extract (text : String) : EngineM F ExtractResult :=
  Program.perform (S := engineSignature F) (.extract text)

def chatCompletion (system user : String) : EngineM F (Option String) :=
  Program.perform (S := engineSignature F) (.chatCompletion system user)

def iterationOrder (keys : List String) : EngineM F (List String) :=
  Program.perform (S := engineSignature F) (.iterationOrder keys)

def acquire (lock : Lock) : EngineM F Unit := Program.perform (S := engineSignature F) (.acquire lock)
def release (lock : Lock) : EngineM F Unit := Program.perform (S := engineSignature F) (.release lock)

def loadStaleFlag : EngineM F Bool := Program.perform (S := engineSignature F) .loadStaleFlag
def loadLastSyncAt : EngineM F Nat := Program.perform (S := engineSignature F) .loadLastSyncAt

/-- A database call, its error returned as a value. -/
def persist (op : PersistOp F) : EngineM F (Except PersistError op.Value) :=
  Program.perform (S := engineSignature F) (.persist op)

/-- A database call whose error ends the method: `.map_err(|e| e.to_memory())?`. -/
def persistOrFail (op : PersistOp F) : EngineM F op.Value := do
  let reply ← persist op
  Program.ofExcept (reply.mapError PersistError.toMemory)

/-- A store call, its error returned as a value. -/
def store (op : StoreOp F) : EngineM F (Except MemoryError op.Value) := do
  let reply ← (Program.perform (S := engineSignature F) (.store op) : EngineM F _)
  return reply.mapError StoreError.toMemory

/-- A store call whose error ends the method. -/
def storeOrFail (op : StoreOp F) : EngineM F op.Value := do
  let reply ← store op
  Program.ofExcept reply

/-- Run `body` under a lock that is released however `body` ends. -/
def withLock {α : Type} (lock : Lock) (body : EngineM F α) : EngineM F α := do
  acquire lock
  let result ← body.attempt
  release lock
  Program.ofExcept result

end Calls

end FusionMemory
