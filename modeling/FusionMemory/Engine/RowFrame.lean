import FusionMemory.Engine.Execution

/-!
What a request does to one row.

`Avoids i` holds of the requests that do not write the row of id `i`; whether they
succeed or fail, the row stays as it is.
-/

namespace FusionMemory

open Lib

variable {F : Type}

/-- The calls that write no row under the id `i`. -/
def PersistOp.Avoids (i : String) : PersistOp F → Prop
  | .putMemory item | .putMemoryWithWop item _ _ _ => item.id ≠ i
  | .tombstoneMemory id | .untombstoneMemory id | .physicalDelete id => id ≠ i
  | .touchAccessBatch ids _ => i ∉ ids
  | _ => True

def Request.Avoids (i : String) : Request F → Prop
  | .persist op => op.Avoids i
  | _ => True

namespace Db

theorem getMemory_putMemory (db : Db F) (item : MemoryItem F) (i : String) :
    (db.putMemory item).getMemory i = if item.id = i then some item else db.getMemory i :=
  Table.find?_upsert _ _ _

theorem getMemory_setTombstone (db : Db F) (id : String) (b : Bool) (i : String) :
    (db.setTombstone id b).getMemory i =
      (db.getMemory i).map fun m => if id = i then { m with tombstone := b } else m := by
  unfold getMemory setTombstone
  rw [Table.find?_update]
  cases found : db.memoryItem.find? i with
  | none => rfl
  | some m =>
      have key : m.id = i := Table.find?_key found
      by_cases same : id = i
      · simp [key, same]
      · simp [key, same, Ne.symm same]

theorem getMemory_touchAccessBatch (db : Db F) (ids : List String) (now : Nat) (i : String) :
    (db.touchAccessBatch ids now).getMemory i = (db.getMemory i).map fun m =>
      if i ∈ ids ∧ m.tombstone = false then
        { m with accessCount := m.accessCount + 1, lastAccessedTimestamp := now }
      else m := by
  unfold getMemory touchAccessBatch
  rw [Table.find?_update]
  cases found : db.memoryItem.find? i with
  | none => rfl
  | some m =>
      have key : m.id = i := Table.find?_key found
      simp [key]

theorem getMemory_physicalDelete (db : Db F) (id i : String) :
    (db.physicalDelete id).getMemory i = if id = i then none else db.getMemory i := by
  unfold getMemory physicalDelete
  rw [Table.find?_delete]
  cases found : db.memoryItem.find? i with
  | none => simp
  | some m =>
      have key : m.id = i := Table.find?_key found
      by_cases same : id = i
      · simp [key, same]
      · simp [key, same, Ne.symm same]

/-- What neither a recorded run nor a reported failure changes is as before, however many
statements are carried out. -/
theorem recordConsolidationPrefix_keeps {α : Type} (g : Db F → α)
    (inserts : ∀ db report started, g (insertConsolidation db report started) = g db)
    (reports : ∀ db started id stage error, g (appendReconcile db started id stage error) = g db)
    (db : Db F) (report : ConsolidationReport) (started n : Nat) :
    g (db.recordConsolidationPrefix report started n) = g db := by
  have appended : ∀ (fs : List ConsolidationFailure) (db : Db F),
      g (fs.foldl (fun db f => db.appendReconcile started f.memoryId f.stage f.error) db) = g db := by
    intro fs
    induction fs with
    | nil => exact fun db => rfl
    | cons f rest ih => exact fun db => (ih _).trans (reports db started f.memoryId f.stage f.error)
  cases n with
  | zero => rfl
  | succ n => exact (appended _ _).trans (inserts db report started)

theorem recordConsolidationPrefix_same (db : Db F) (report : ConsolidationReport) (started n : Nat) :
    (db.recordConsolidationPrefix report started n).memoryItem = db.memoryItem ∧
      (db.recordConsolidationPrefix report started n).mergeLog = db.mergeLog :=
  ⟨recordConsolidationPrefix_keeps (·.memoryItem) (fun _ _ _ => rfl) (fun _ _ _ _ _ => rfl) db
      report started n,
    recordConsolidationPrefix_keeps (·.mergeLog) (fun _ _ _ => rfl) (fun _ _ _ _ _ => rfl) db
      report started n⟩

end Db

/-- What a failing call of the database can change is a prefix of a recorded run. -/
theorem fails_keeps {α : Type} (g : Db F → α)
    (inserts : ∀ db report started, g (Db.insertConsolidation db report started) = g db)
    (reports : ∀ db started id stage error, g (Db.appendReconcile db started id stage error) = g db)
    (db : Db F) (e : PersistError) (writes : Nat) (op : PersistOp F) :
    g (op.fails db e writes).2 = g db := by
  unfold PersistOp.fails
  split
  · exact Db.recordConsolidationPrefix_keeps g inserts reports db _ _ _
  · split <;> rfl
  · rfl
  · rfl
  · rfl
  · rfl

/-- A failing call of the database leaves the rows as they were. -/
theorem fails_memoryItem (db : Db F) (e : PersistError) (writes : Nat) (op : PersistOp F) :
    (op.fails db e writes).2.memoryItem = db.memoryItem :=
  fails_keeps (·.memoryItem) (fun _ _ _ => rfl) (fun _ _ _ _ _ => rfl) db e writes op

theorem fails_mergeLog (db : Db F) (e : PersistError) (writes : Nat) (op : PersistOp F) :
    (op.fails db e writes).2.mergeLog = db.mergeLog :=
  fails_keeps (·.mergeLog) (fun _ _ _ => rfl) (fun _ _ _ _ _ => rfl) db e writes op

theorem getMemory_exec_avoids {db : Db F} {op : PersistOp F} {i : String} (avoids : op.Avoids i) :
    (op.exec db).2.getMemory i = db.getMemory i := by
  cases op with
  | putMemory item | putMemoryWithWop item _ _ _ =>
      exact (db.getMemory_putMemory item i).trans (if_neg avoids)
  | tombstoneMemory id | untombstoneMemory id =>
      have other : ¬ id = i := avoids
      refine (db.getMemory_setTombstone id _ i).trans ?_
      simp [other]
  | physicalDelete id => exact (db.getMemory_physicalDelete id i).trans (if_neg avoids)
  | touchAccessBatch ids now =>
      have other : ¬ i ∈ ids := avoids
      refine (db.getMemory_touchAccessBatch ids now i).trans ?_
      simp [other]
  | recordConsolidation report started =>
      exact congrArg (fun t => Table.find? t i)
        (db.recordConsolidationPrefix_same report started _).1
  | unmerge id =>
      change (db.unmerge id).2.getMemory i = _
      unfold Db.unmerge
      split <;> rfl
  | _ => rfl

theorem getMemory_execPersist (w : World F) {op : PersistOp F} {i : String}
    (avoids : op.Avoids i) : (w.execPersist op).2.getMemory i = w.db.getMemory i := by
  rcases w.execPersist_cases op with done | ⟨e, n, failed⟩
  · rw [done]
    exact getMemory_exec_avoids avoids
  · rw [failed]
    exact congrArg (fun t => Table.find? t i) (fails_memoryItem w.db e n op)

variable [FloatArith F]

theorem getMemory_exec (w : World F) {r : Request F} {i : String} (avoids : r.Avoids i) :
    (w.exec r).2.db.getMemory i = w.db.getMemory i := by
  cases r with
  | persist op => exact getMemory_execPersist w avoids
  | acquire lock => cases lock <;> rfl
  | release lock => cases lock <;> rfl
  | _ => rfl

/-- A program that avoids a row leaves it as it is. -/
theorem getMemory_run {α : Type} {p : EngineM F α} {i : String}
    (only : Program.Only (Request.Avoids i) p) (w : World F) :
    (run p w).2.db.getMemory i = w.db.getMemory i :=
  only.run (R := fun w w' : World F => w'.db.getMemory i = w.db.getMemory i) (fun _ => rfl)
    (fun first last => Eq.trans last first) (fun _ w avoids => getMemory_exec w avoids) w

/-! ### What a step does to a row -/

/-- The request stores a whole row under `id`. -/
def Request.stores (id : String) : Request F → Bool
  | .persist (.putMemory item) | .persist (.putMemoryWithWop item _ _ _) => item.id == id
  | _ => false

/-- What a call that writes a row, and succeeds, makes of it. -/
def PersistOp.onRow : PersistOp F → Option (MemoryItem F) → Option (MemoryItem F)
  | .putMemory item, _ | .putMemoryWithWop item _ _ _, _ => some item
  | .tombstoneMemory _, row => row.map fun m => { m with tombstone := true }
  | .untombstoneMemory _, row => row.map fun m => { m with tombstone := false }
  | .touchAccessBatch _ now, row => row.map fun m => if m.tombstone = false then
      { m with accessCount := m.accessCount + 1, lastAccessedTimestamp := now } else m
  | .physicalDelete _, _ => none
  | _, row => row

omit [FloatArith F] in
theorem getMemory_exec_writes (db : Db F) {op : PersistOp F} {i : String} (writes : ¬ op.Avoids i) :
    (op.exec db).2.getMemory i = op.onRow (db.getMemory i) := by
  cases op with
  | putMemory item | putMemoryWithWop item _ _ _ =>
      exact (db.getMemory_putMemory item i).trans (if_pos (not_not.mp writes))
  | tombstoneMemory id | untombstoneMemory id =>
      have same : id = i := not_not.mp writes
      refine (db.getMemory_setTombstone id _ i).trans ?_
      simp [PersistOp.onRow, same]
  | physicalDelete id => exact (db.getMemory_physicalDelete id i).trans (if_pos (not_not.mp writes))
  | touchAccessBatch ids now =>
      have mem : i ∈ ids := not_not.mp writes
      refine (db.getMemory_touchAccessBatch ids now i).trans ?_
      simp [PersistOp.onRow, mem]
  | _ => exact absurd trivial writes

/-- The row of `i` after a step: as before if the step does not write it or fails, and
otherwise what the call makes of it. -/
theorem getMemory_exec_cases (w : World F) (r : Request F) (i : String) :
    r.Avoids i ∧ (w.exec r).2.db.getMemory i = w.db.getMemory i ∨
      ∃ op, r = .persist op ∧ ¬ op.Avoids i ∧
        ((∃ e, (w.execPersist op).1 = .error e) ∧
            (w.exec r).2.db.getMemory i = w.db.getMemory i ∨
          (w.execPersist op).1 = (op.exec w.db).1 ∧
            (w.exec r).2.db.getMemory i = op.onRow (w.db.getMemory i)) := by
  by_cases avoids : r.Avoids i
  · exact .inl ⟨avoids, getMemory_exec w avoids⟩
  cases r with
  | persist op =>
      refine .inr ⟨op, rfl, avoids, ?_⟩
      change (∃ e, (w.execPersist op).1 = .error e) ∧ (w.execPersist op).2.getMemory i = _ ∨
        _ ∧ (w.execPersist op).2.getMemory i = _
      rcases w.execPersist_cases op with done | ⟨e, n, failed⟩
      · rw [done]
        exact .inr ⟨rfl, getMemory_exec_writes w.db avoids⟩
      · rw [failed]
        refine .inl ⟨⟨e, ?_⟩, congrArg (fun t => Table.find? t i) (fails_memoryItem w.db e n op)⟩
        cases op with
        | putMemory _ | putMemoryWithWop _ _ _ _ | tombstoneMemory _ | untombstoneMemory _
        | physicalDelete _ => rfl
        | touchAccessBatch ids now =>
            cases ids with
            | nil => exact absurd (List.not_mem_nil) avoids
            | cons i rest => rfl
        | _ => exact absurd trivial avoids
  | _ => exact absurd trivial avoids

end FusionMemory
