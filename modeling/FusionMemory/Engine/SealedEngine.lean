import FusionMemory.Engine.RowFrame
import FusionMemory.Persist.Encryption

/-!
A process on a database file with encrypted columns.

A request of the engine reads and writes the file through the cipher of the process.
`run_plain` says that the process works as `machine` does on what it sees of the file,
with one more fault: a put whose text cannot be encrypted. This holds of every key, wrong
ones included; what another key sees of the file is another matter.
-/

namespace FusionMemory

open Lib

variable {F : Type} [FloatArith F] [JsonText F]

/-! ### Calls on the file -/

namespace SealedDb

/-- The rows of `memory_item` as they are, the other tables as in `db`. -/
def withTables (s : SealedDb F) (db : Db F) : SealedDb F where
  memoryItem := s.memoryItem
  entity := db.entity
  memoryEntity := db.memoryEntity
  relation := db.relation
  consolidationLog := db.consolidationLog
  mergeLog := db.mergeLog
  mergeSeq := db.mergeSeq
  reconcileReport := db.reconcileReport
  wopLog := db.wopLog
  wopSeq := db.wopSeq
  auditLog := db.auditLog
  auditSeq := db.auditSeq

def setTombstone (s : SealedDb F) (id : String) (tombstone : Bool) : SealedDb F :=
  { s with
    memoryItem := s.memoryItem.update (fun row => row.id == id)
      (fun row => { row with tombstone := tombstone }) fun _ => rfl }

def touchAccessBatch (s : SealedDb F) (ids : List String) (nowTs : Nat) : SealedDb F :=
  { s with
    memoryItem := s.memoryItem.update (fun row => ids.contains row.id && !row.tombstone)
      (fun row => { row with accessCount := row.accessCount + 1, lastAccessedTimestamp := nowTs })
      fun _ => rfl }

def physicalDelete (s : SealedDb F) (id : String) : SealedDb F :=
  { s with
    memoryEntity := s.memoryEntity.filter fun link => link.1 != id
    memoryItem := s.memoryItem.delete fun row => row.id == id }

variable (aead : Aead) (cipher : Option Cipher)

/-- The call with no failure. No call but a put writes an encrypted column. -/
def exec (nonces : Nonce × Nonce) (s : SealedDb F) :
    (op : PersistOp F) → Except PersistError op.Value × SealedDb F
  | .putMemory item => s.putMemory aead cipher nonces item
  | .putMemoryWithWop item op payload «at» =>
      s.putMemoryWithWop aead cipher nonces item op payload «at»
  | .tombstoneMemory id => (.ok (), s.setTombstone id true)
  | .untombstoneMemory id => (.ok (), s.setTombstone id false)
  | .touchAccessBatch ids now => (.ok (), s.touchAccessBatch ids now)
  | .physicalDelete id => (.ok (), s.physicalDelete id)
  | op => ((op.exec (s.view aead cipher)).1, s.withTables (op.exec (s.view aead cipher)).2)

def fails (s : SealedDb F) (e : PersistError) (writes : Nat) (op : PersistOp F) :
    Except PersistError op.Value × SealedDb F :=
  ((op.fails (s.view aead cipher) e writes).1,
    s.withTables (op.fails (s.view aead cipher) e writes).2)

/-- A put whose text cannot be encrypted fails before it writes. -/
def encryptFault (nonces : Nonce × Nonce) : PersistOp F → Option PersistError
  | .putMemory item | .putMemoryWithWop item _ _ _ =>
      match itemRow aead cipher nonces item with
      | .error e => some e
      | .ok _ => none
  | _ => none

/-! ### What the process sees of a call -/

variable {aead cipher}

theorem view_withTables {s : SealedDb F} {db : Db F}
    (rows : db.memoryItem = (s.view aead cipher).memoryItem) :
    (s.withTables db).view aead cipher = db := by
  cases db
  cases rows
  rfl

theorem view_setTombstone (s : SealedDb F) (id : String) (b : Bool) :
    (s.setTombstone id b).view aead cipher = (s.view aead cipher).setTombstone id b := by
  have rows : ((s.setTombstone id b).view aead cipher).memoryItem =
      ((s.view aead cipher).setTombstone id b).memoryItem := by
    apply Table.mapRows_update <;> exact fun _ => rfl
  exact congrArg (fun rows => ({ s.view aead cipher with memoryItem := rows } : Db F)) rows

theorem view_touchAccessBatch (s : SealedDb F) (ids : List String) (now : Nat) :
    (s.touchAccessBatch ids now).view aead cipher =
      (s.view aead cipher).touchAccessBatch ids now := by
  have rows : ((s.touchAccessBatch ids now).view aead cipher).memoryItem =
      ((s.view aead cipher).touchAccessBatch ids now).memoryItem := by
    apply Table.mapRows_update <;> exact fun _ => rfl
  exact congrArg (fun rows => ({ s.view aead cipher with memoryItem := rows } : Db F)) rows

theorem view_physicalDelete (s : SealedDb F) (id : String) :
    (s.physicalDelete id).view aead cipher = (s.view aead cipher).physicalDelete id := by
  have rows : ((s.physicalDelete id).view aead cipher).memoryItem =
      ((s.view aead cipher).physicalDelete id).memoryItem := by
    apply Table.mapRows_delete <;> exact fun _ => rfl
  exact congrArg (fun rows => ({ (s.view aead cipher).physicalDelete id with memoryItem := rows } : Db F))
    rows

/-- A put that cannot encrypt is a put that fails, any other call works on the file as it
works on what the process sees. -/
theorem view_exec (lawful : aead.Lawful) (cipher : Option Cipher) (nonces : Nonce × Nonce)
    (s : SealedDb F) (op : PersistOp F) :
    match encryptFault aead cipher nonces op with
    | none => (s.exec aead cipher nonces op).1 = (op.exec (s.view aead cipher)).1 ∧
        (s.exec aead cipher nonces op).2.view aead cipher = (op.exec (s.view aead cipher)).2
    | some e => s.exec aead cipher nonces op = (.error e, s) ∧
        op.fails (s.view aead cipher) e 0 = (.error e, s.view aead cipher) := by
  cases op with
  | putMemory item =>
      unfold encryptFault exec putMemory
      dsimp only
      cases written : itemRow aead cipher nonces item with
      | error e => exact ⟨rfl, rfl⟩
      | ok row => exact ⟨rfl, view_putRow lawful written s⟩
  | putMemoryWithWop item op payload «at» =>
      unfold encryptFault exec putMemoryWithWop
      dsimp only
      cases written : itemRow aead cipher nonces item with
      | error e => exact ⟨rfl, rfl⟩
      | ok row =>
          exact ⟨rfl, congrArg (fun db => db.appendWop op payload «at») (view_putRow lawful written s)⟩
  | tombstoneMemory id => exact ⟨rfl, view_setTombstone s id true⟩
  | untombstoneMemory id => exact ⟨rfl, view_setTombstone s id false⟩
  | touchAccessBatch ids now => exact ⟨rfl, view_touchAccessBatch s ids now⟩
  | physicalDelete id => exact ⟨rfl, view_physicalDelete s id⟩
  | recordConsolidation report started =>
      exact ⟨rfl, view_withTables ((s.view aead cipher).recordConsolidationPrefix_same report started _).1⟩
  | unmerge id =>
      refine ⟨rfl, view_withTables ?_⟩
      change ((s.view aead cipher).unmerge id).2.memoryItem = _
      unfold Db.unmerge
      split <;> rfl
  | _ => exact ⟨rfl, view_withTables rfl⟩

end SealedDb

/-! ### The process -/

/-- A process with a database file open. `nonces` are the random bytes that it draws at each
time, and the `db` of its world is what it sees of the file. -/
structure SealedWorld (aead : Aead) (F : Type) [FloatArith F] [JsonText F] where
  file : SealedDb F
  cipher : Option Cipher
  nonces : Nat → Nonce × Nonce
  world : World F
  seen : world.db = file.view aead cipher

namespace SealedWorld

variable {aead : Aead}

/-- The clock ticks. -/
def next (w : SealedWorld aead F) : SealedWorld aead F :=
  { w with world := w.world.next, seen := w.seen }

def withFile (w : SealedWorld aead F) (file : SealedDb F) : SealedWorld aead F :=
  { w with file := file, world := w.world.withDb (file.view aead w.cipher), seen := rfl }

def execPersist (w : SealedWorld aead F) (op : PersistOp F) :
    Except PersistError op.Value × SealedDb F :=
  match w.world.env.persistFault w.world.tick op with
  | none => w.file.exec aead w.cipher (w.nonces w.world.tick) op
  | some (e, writes) => w.file.fails aead w.cipher e writes op

/-- Serve a request, one tick later. -/
def exec : (r : Request F) → SealedWorld aead F → r.Reply × SealedWorld aead F
  | .persist op, w => ((w.execPersist op).1, w.withFile (w.execPersist op).2)
  | r, w =>
      -- No other request writes to the database.
      ((w.world.exec r).1,
        { w with world := { (w.world.exec r).2 with db := w.world.db }, seen := w.seen })

end SealedWorld

/-- Requests served by a process on its file. -/
def sealedMachine (aead : Aead) (F : Type) [FloatArith F] [JsonText F] :
    Machine (engineSignature F) (SealedWorld aead F) :=
  ⟨fun r w => World.ready r w.world, SealedWorld.exec⟩

namespace SealedWorld

variable {aead : Aead}

/-- The faults of the database, the puts that cannot encrypt among them. -/
def faults (w : SealedWorld aead F) (t : Nat) (op : PersistOp F) : Option (PersistError × Nat) :=
  match w.world.env.persistFault t op with
  | some fault => some fault
  | none => (SealedDb.encryptFault aead w.cipher (w.nonces t) op).map fun e => (e, 0)

/-- The world as the process sees it. -/
def plain (w : SealedWorld aead F) : World F :=
  w.world.withEnv { w.world.env with persistFault := w.faults }

/-- A process serves a request as `machine` does. -/
theorem exec_plain (lawful : aead.Lawful) (r : Request F) (w : SealedWorld aead F) :
    w.plain.exec r = ((w.exec r).1, (w.exec r).2.plain) := by
  cases r with
  | persist op =>
      have same : w.plain.execPersist op =
          ((w.execPersist op).1, (w.execPersist op).2.view aead w.cipher) := by
        have works := SealedDb.view_exec lawful w.cipher (w.nonces w.world.tick) w.file op
        unfold World.execPersist execPersist
        change (match w.faults w.world.tick op with
          | none => op.exec w.world.db
          | some (e, writes) => op.fails w.world.db e writes) = _
        unfold faults
        rw [w.seen]
        cases w.world.env.persistFault w.world.tick op with
        | some fault =>
            exact Prod.ext rfl (SealedDb.view_withTables (fails_memoryItem _ _ _ op)).symm
        | none =>
            cases unsealed : SealedDb.encryptFault aead w.cipher (w.nonces w.world.tick) op with
            | none =>
                rw [unsealed] at works
                exact Prod.ext works.1.symm works.2.symm
            | some e =>
                rw [unsealed] at works
                dsimp only [Option.map_some] at works ⊢
                rw [works.1, works.2]
      change ((w.plain.execPersist op).1, w.plain.withDb (w.plain.execPersist op).2) = _
      rw [same]
      rfl
  | acquire lock => cases lock <;> rfl
  | release lock => cases lock <;> rfl
  | _ => rfl

/-- A process runs a program as `machine` does on what it sees. -/
theorem run_plain {ε α : Type} (lawful : aead.Lawful) (p : Program (engineSignature F) ε α)
    (w : SealedWorld aead F) :
    Program.run (machine F) p w.plain =
      ((Program.run (sealedMachine aead F) p w).1, (Program.run (sealedMachine aead F) p w).2.plain) := by
  induction p generalizing w with
  | done a => rfl
  | fail e => rfl
  | request r next ih =>
      rw [Program.run_request, Program.run_request]
      change Program.run (machine F) (next (w.plain.exec r).1) (w.plain.exec r).2 = _
      rw [w.exec_plain lawful r]
      exact ih _ _

end SealedWorld

end FusionMemory
