import FusionMemory.Engine.Manage
import FusionMemory.Engine.RowFrame

/-!
Whether deleting is all or nothing (`MemoryEngine::delete_memory`).

The vector goes first, then the row, then the log entry for the followers, each in a
statement of its own that ends the call when it fails. What was done before stays done:
a failing `tombstone_memory` leaves a live row without its vector, a failing `append_wop`
a deleted memory that no follower hears of.

`delete_atomic_iff` says that these two are the only ways to end half-way, and that the
second call is harmless when there was nothing left to delete.
-/

namespace FusionMemory

open Lib

variable {F : Type}

/-- The tombstone flag of a row, if there is one. -/
def Db.tombstoneFlag (db : Db F) (id : String) : Option Bool :=
  (db.getMemory id).map fun m => m.tombstone

/-- The flag of the row, the live vectors and the log are as before. -/
structure NothingDeleted (id : String) (w w' : World F) : Prop where
  row : w'.db.tombstoneFlag id = w.db.tombstoneFlag id
  vectors : ∀ v, w'.store.getVector v = w.store.getVector v
  log : w'.db.wopLog = w.db.wopLog

/-- The row, when there is one, is tombstoned, and the log has one entry more. -/
structure Deleted (id : String) (w w' : World F) : Prop where
  row : w'.db.tombstoneFlag id = (w.db.tombstoneFlag id).map fun _ => true
  log : ∃ «at» : Nat, w'.db.wopLog = w.db.wopLog ++ [⟨w.db.wopSeq + 1, "delete", id, «at»⟩]

/-! ### When it is -/

/-- The vector that the row names. -/
def namedVector (w : World F) (id : String) : Option Nat :=
  (w.db.getMemory id).bind fun m => parseU64 m.vectorRef

/-- The time at which the row is tombstoned: the row is read first, then its vector, if it
names one, is deleted. -/
def rowTick (w : World F) (id : String) : Nat :=
  match namedVector w id with
  | none => w.tick + 1
  | some _ => w.tick + 2

def ReadFails (w : World F) (id : String) : Prop := w.env.persistFault w.tick (.getMemory id) ≠ none

def VectorFails (w : World F) (id : String) : Prop :=
  ∃ v, namedVector w id = some v ∧ w.env.storeFault (w.tick + 1) (.deleteVector v) ≠ none

def RowFails (w : World F) (id : String) : Prop :=
  w.env.persistFault (rowTick w id) (.tombstoneMemory id) ≠ none

/-- The clock is read between the row and the log. -/
def LogFails (w : World F) (id : String) : Prop :=
  w.env.persistFault (rowTick w id + 2)
    (.appendWop "delete" id (w.env.clock (rowTick w id + 1))) ≠ none

/-- The row names a vector that is there. -/
def HasVector (w : World F) (id : String) : Prop :=
  ∃ v, namedVector w id = some v ∧ w.store.getVector v ≠ none

def HasLiveRow (w : World F) (id : String) : Prop := w.db.tombstoneFlag id = some false

/-- A call that gets as far as the row, and fails there, finds no vector to delete; one
that gets as far as the log, and fails there, finds no live row either. -/
structure NothingAtStake (w : World F) (id : String) : Prop where
  row : RowFails w id → ¬ HasVector w id
  log : ¬ RowFails w id → LogFails w id → ¬ HasVector w id ∧ ¬ HasLiveRow w id

/-! ### The steps -/

namespace Db

theorem tombstoneFlag_tombstoneMemory (db : Db F) (id : String) :
    (db.tombstoneMemory id).tombstoneFlag id = (db.tombstoneFlag id).map fun _ => true := by
  unfold tombstoneFlag tombstoneMemory
  rw [getMemory_setTombstone]
  cases db.getMemory id with
  | none => rfl
  | some m => exact congrArg (fun r : MemoryItem F => some r.tombstone) (if_pos rfl)

/-- Tombstoning changes the flag of a live row only. -/
theorem tombstoneFlag_tombstoneMemory_eq_iff (db : Db F) (id : String) :
    (db.tombstoneMemory id).tombstoneFlag id = db.tombstoneFlag id ↔
      db.tombstoneFlag id ≠ some false := by
  rw [tombstoneFlag_tombstoneMemory]
  rcases db.tombstoneFlag id with _ | _ | _ <;> decide

end Db

variable [FloatArith F]

/-- What follows the vector. -/
def deleteRow (id : String) : EngineM F Unit := do
  let _ ← persistOrFail (.tombstoneMemory id)
  let now ← nowMs
  let _ ← persistOrFail (.appendWop "delete" id now)
  let _ ← persist (.appendAudit now "delete" "delete" id "tombstone")
  return ()

theorem run_deleteRow_rowFails {u : World F} {id : String} {fault : PersistError × Nat}
    (struck : u.env.persistFault u.tick (.tombstoneMemory id) = some fault) :
    run (deleteRow id) u = (.error fault.1.toMemory, u.withDb u.db) := by
  unfold deleteRow
  rw [run_persistOrFail_bind, World.execPersist_fault struck]
  rfl

theorem run_deleteRow_logFails {u : World F} {id : String} {fault : PersistError × Nat}
    (works : u.env.persistFault u.tick (.tombstoneMemory id) = none)
    (struck : u.env.persistFault (u.tick + 2)
      (.appendWop "delete" id (u.env.clock (u.tick + 1))) = some fault) :
    ∃ u', run (deleteRow id) u = (.error fault.1.toMemory, u') ∧
      u'.db = u.db.tombstoneMemory id ∧ u'.store = u.store := by
  let u₂ := (u.withDb (u.db.tombstoneMemory id)).next
  have buried : run (persistOrFail (.tombstoneMemory id)) u =
      (.ok (), u.withDb (u.db.tombstoneMemory id)) := by
    rw [run_persistOrFail, World.execPersist_works works]
    rfl
  have failed : run (persistOrFail (.appendWop "delete" id (u.env.clock (u.tick + 1)))) u₂ =
      (.error fault.1.toMemory, u₂.withDb u₂.db) := by
    rw [run_persistOrFail, World.execPersist_fault struck]
    rfl
  refine ⟨u₂.withDb u₂.db, ?_, rfl, rfl⟩
  unfold deleteRow
  rw [run_bind_ok buried, run_nowMs_bind]
  exact run_bind_error failed

theorem run_deleteRow_done {u : World F} {id : String}
    (works : u.env.persistFault u.tick (.tombstoneMemory id) = none)
    (works' : u.env.persistFault (u.tick + 2)
      (.appendWop "delete" id (u.env.clock (u.tick + 1))) = none) :
    ∃ u' : World F, run (deleteRow id) u = (.ok (), u') ∧
      u'.db.memoryItem = (u.db.tombstoneMemory id).memoryItem ∧
      u'.db.wopLog = u.db.wopLog ++
        [⟨u.db.wopSeq + 1, "delete", id, u.env.clock (u.tick + 1)⟩] := by
  let now := u.env.clock (u.tick + 1)
  let u₂ := (u.withDb (u.db.tombstoneMemory id)).next
  let u₃ := u₂.withDb (u₂.db.appendWop "delete" id now)
  -- The audit entry may fail; either way it touches neither the row nor the log.
  have audited : (u₃.execPersist (.appendAudit now "delete" "delete" id "tombstone")).2.memoryItem =
      u₃.db.memoryItem ∧
      (u₃.execPersist (.appendAudit now "delete" "delete" id "tombstone")).2.wopLog = u₃.db.wopLog := by
    rcases u₃.execPersist_cases (.appendAudit now "delete" "delete" id "tombstone") with
      done | ⟨e, n, failed⟩
    · rw [done]
      exact ⟨rfl, rfl⟩
    · rw [failed]
      exact ⟨rfl, rfl⟩
  refine ⟨u₃.withDb (u₃.execPersist (.appendAudit now "delete" "delete" id "tombstone")).2, ?_,
    audited⟩
  have buried : run (persistOrFail (.tombstoneMemory id)) u =
      (.ok (), u.withDb (u.db.tombstoneMemory id)) := by
    rw [run_persistOrFail, World.execPersist_works works]
    rfl
  have logged : run (persistOrFail (.appendWop "delete" id now)) u₂ = (.ok (), u₃) := by
    rw [run_persistOrFail, World.execPersist_works works']
    rfl
  unfold deleteRow
  rw [run_bind_ok buried, run_nowMs_bind]
  exact run_bind_ok logged

/-- `delete_memory(id)` is atomic. -/
structure DeleteAtomic (w : World F) (id : String) : Prop where
  failed : ∀ e, (run (deleteMemory id) w).1 = .error e →
    NothingDeleted id w (run (deleteMemory id) w).2
  done : (run (deleteMemory id) w).1 = .ok () → Deleted id w (run (deleteMemory id) w).2

theorem deleteAtomic_error {w w' : World F} {id : String} {e : MemoryError}
    (ran : run (deleteMemory id) w = (.error e, w')) :
    DeleteAtomic w id ↔ NothingDeleted id w w' := by
  constructor
  · intro atomic
    have kept := atomic.failed e (congrArg Prod.fst ran)
    rwa [ran] at kept
  · intro kept
    refine ⟨fun _ _ => by rwa [ran], fun ok => ?_⟩
    rw [ran] at ok
    cases ok

theorem deleteAtomic_ok {w w' : World F} {id : String}
    (ran : run (deleteMemory id) w = (.ok (), w')) : DeleteAtomic w id ↔ Deleted id w w' := by
  constructor
  · intro atomic
    have gone := atomic.done (congrArg Prod.fst ran)
    rwa [ran] at gone
  · intro gone
    refine ⟨fun e failed => ?_, fun _ => by rwa [ran]⟩
    rw [ran] at failed
    cases failed

/-- A call that fails before it gets to the row has changed nothing. -/
theorem run_deleteMemory_early {w : World F} {id : String}
    (early : ReadFails w id ∨ VectorFails w id) :
    ∃ e w', run (deleteMemory id) w = (.error e, w') ∧ w'.db = w.db ∧ w'.store = w.store := by
  unfold deleteMemory
  rw [run_persistOrFail_bind]
  rcases Option.eq_none_or_eq_some (w.env.persistFault w.tick (.getMemory id)) with
    works | ⟨fault, struck⟩
  · obtain ⟨v, names, struck⟩ := early.resolve_left (not_not.mpr works)
    obtain ⟨fault, struck⟩ := Option.ne_none_iff_exists'.mp struck
    rw [World.execPersist_works works]
    dsimp only [PersistOp.exec]
    rw [show (w.db.getMemory id).bind (fun m => parseU64 m.vectorRef) = some v from names]
    dsimp only
    have stuck : (w.withDb w.db).execStore (.deleteVector v) = (.error fault.1, w.store) :=
      World.execStore_fault struck
    rw [run_storeOrFail_bind, stuck]
    exact ⟨_, _, rfl, rfl, rfl⟩
  · rw [World.execPersist_fault struck]
    exact ⟨_, _, rfl, rfl, rfl⟩

/-- A call that gets to the row has deleted the vector that the row names. -/
theorem run_deleteMemory_row {w : World F} {id : String} (read : ¬ ReadFails w id)
    (vector : ¬ VectorFails w id) :
    ∃ u : World F, run (deleteMemory id) w = run (deleteRow id) u ∧ u.env = w.env ∧
      u.tick = rowTick w id ∧ u.db = w.db ∧
      ∀ v, u.store.getVector v = if namedVector w id = some v then none else w.store.getVector v := by
  unfold deleteMemory
  rw [run_persistOrFail_bind, World.execPersist_works (not_not.mp read)]
  dsimp only [PersistOp.exec]
  cases names : namedVector w id with
  | none =>
      rw [show (w.db.getMemory id).bind (fun m => parseU64 m.vectorRef) = none from names]
      refine ⟨w.withDb w.db, rfl, rfl, ?_, rfl, fun v => rfl⟩
      unfold rowTick
      rw [names]
      rfl
  | some v =>
      rw [show (w.db.getMemory id).bind (fun m => parseU64 m.vectorRef) = some v from names]
      have works : w.env.storeFault (w.tick + 1) (.deleteVector v) = none :=
        not_not.mp fun fails => vector ⟨v, names, fails⟩
      have gone : (w.withDb w.db).execStore (.deleteVector v) = (.ok (), w.store.deleteVector v) :=
        World.execStore_works works
      dsimp only
      rw [run_storeOrFail_bind, gone]
      refine ⟨(w.withDb w.db).withStore (w.store.deleteVector v), rfl, rfl, ?_, rfl, fun v' => ?_⟩
      · unfold rowTick
        rw [names]
        rfl
      · change (w.store.deleteVector v).getVector v' = _
        rw [LocalStore.getVector_deleteVector]
        simp

omit [FloatArith F] in
/-- The vectors are as before exactly when the row named none that was there. -/
theorem vectors_kept_iff {w : World F} {id : String} {s : LocalStore F}
    (left : ∀ v, s.getVector v = if namedVector w id = some v then none else w.store.getVector v) :
    (∀ v, s.getVector v = w.store.getVector v) ↔ ¬ HasVector w id := by
  constructor
  · rintro same ⟨v, names, there⟩
    rw [← same v, left v, if_pos names] at there
    exact there rfl
  · intro none v
    rw [left v]
    split_ifs with names
    · exact (not_not.mp fun there => none ⟨v, names, Ne.symm there⟩)
    · rfl

/-- Deleting is atomic exactly when the call fails before it gets to the row, or fails with
nothing at stake, or does not fail. -/
theorem delete_atomic_iff (w : World F) (id : String) :
    DeleteAtomic w id ↔ ReadFails w id ∨ VectorFails w id ∨ NothingAtStake w id := by
  by_cases early : ReadFails w id ∨ VectorFails w id
  · obtain ⟨e, w', ran, db, store⟩ := run_deleteMemory_early early
    refine iff_of_true ((deleteAtomic_error ran).mpr ⟨?_, fun v => by rw [store], ?_⟩)
      (or_assoc.mp (.inl early))
    · exact congrArg (fun db => Db.tombstoneFlag db id) db
    · exact congrArg Db.wopLog db
  · obtain ⟨read, vector⟩ := not_or.mp early
    rw [or_iff_right read, or_iff_right vector]
    obtain ⟨u, same, env, tick, db, vectors⟩ := run_deleteMemory_row read vector
    have kept := vectors_kept_iff vectors
    have rowAt : RowFails w id ↔ u.env.persistFault u.tick (.tombstoneMemory id) ≠ none := by
      unfold RowFails
      rw [env, tick]
    have logAt : LogFails w id ↔ u.env.persistFault (u.tick + 2)
        (.appendWop "delete" id (u.env.clock (u.tick + 1))) ≠ none := by
      unfold LogFails
      rw [env, tick]
    by_cases rowFails : RowFails w id
    · -- the row stays, the vector is gone
      obtain ⟨fault, struck⟩ := Option.ne_none_iff_exists'.mp (rowAt.mp rowFails)
      rw [deleteAtomic_error (same.trans (run_deleteRow_rowFails struck))]
      constructor
      · intro untouched
        exact ⟨fun _ => kept.mp untouched.vectors, fun works => absurd rowFails works⟩
      · intro nothing
        refine ⟨?_, kept.mpr (nothing.row rowFails), ?_⟩
        · exact congrArg (fun db => Db.tombstoneFlag db id) db
        · exact congrArg Db.wopLog db
    have buried := not_not.mp (mt rowAt.mpr rowFails)
    by_cases logFails : LogFails w id
    · -- row and vector are gone, and no follower is told
      obtain ⟨fault, struck⟩ := Option.ne_none_iff_exists'.mp (logAt.mp logFails)
      obtain ⟨u', ran, db', store'⟩ := run_deleteRow_logFails buried struck
      rw [deleteAtomic_error (same.trans ran)]
      have flag : u'.db.tombstoneFlag id = w.db.tombstoneFlag id ↔ ¬ HasLiveRow w id := by
        rw [db', db]
        exact w.db.tombstoneFlag_tombstoneMemory_eq_iff id
      constructor
      · intro untouched
        refine ⟨fun fails => absurd fails rowFails, fun _ _ => ⟨kept.mp ?_, flag.mp untouched.row⟩⟩
        rw [← store']
        exact untouched.vectors
      · intro nothing
        obtain ⟨noVector, noRow⟩ := nothing.log rowFails logFails
        refine ⟨flag.mpr noRow, ?_, ?_⟩
        · rw [store']
          exact kept.mpr noVector
        · rw [db', db]
          rfl
    · obtain ⟨u', ran, rows, log⟩ := run_deleteRow_done buried (not_not.mp (mt logAt.mpr logFails))
      rw [deleteAtomic_ok (same.trans ran)]
      refine iff_of_true ⟨?_, _, by rw [log, db]⟩
        ⟨fun fails => absurd fails rowFails, fun _ fails => absurd fails logFails⟩
      rw [db] at rows
      rw [← Db.tombstoneFlag_tombstoneMemory]
      unfold Db.tombstoneFlag Db.getMemory
      rw [rows]

/-! ### A row without its vector -/

/-- One call fails, at the time `t`, and it is a deletion of a vector, a tombstone or an
entry of the log. -/
structure Env.FailsOnce (env : Env F) (t : Nat) : Prop where
  persist : ∀ t' op, env.persistFault t' op ≠ none → t' = t ∧
    ((∃ id, op = .tombstoneMemory id) ∨ ∃ op' payload «at», op = .appendWop op' payload «at»)
  store : ∀ t' op, env.storeFault t' op ≠ none → t' = t ∧ ∃ v, op = .deleteVector v

/-- A database that is busy when a row is to be tombstoned at the time `t`. -/
def busyRow (t : Nat) : Env Fixed :=
  { (Env.quiet : Env Fixed) with
    persistFault := fun t' op => match op with
      | .tombstoneMemory _ => if t' = t then some (.sqlite "database is locked" true, 0) else none
      | _ => none }

theorem busyRow_failsOnce (t : Nat) : (busyRow t).FailsOnce t := by
  refine ⟨fun t' op fails => ?_, fun t' op fails => absurd rfl fails⟩
  cases op with
  | tombstoneMemory id =>
      by_cases now : t' = t
      · exact ⟨now, .inl ⟨id, rfl⟩⟩
      · exact absurd (if_neg now) fails
  | _ => exact absurd rfl fails

def notedMemory : MemoryItem Fixed :=
  { MemoryItem.newTurnSkeleton "m" "ix" 0 "s" "" .semantic "note" 5 with vectorRef := "7" }

def notedDb : Db Fixed := Db.empty.putMemory notedMemory

def notedStore : LocalStore Fixed := ((LocalStore.empty 0).insertVector 7 []).2

/-- The row stays when the database is busy, but its vector is gone. -/
theorem busy_delete_takes_vector : ¬ ∀ (w : World Fixed) (id : String) (t : Nat),
    w.env.FailsOnce t → DeleteAtomic w id := by
  intro always
  have atomic := always (.fresh (busyRow 2) notedDb notedStore) "m" 2 (busyRow_failsOnce 2)
  have kept := atomic.failed (.busy "database is locked") (by rfl)
  exact absurd (kept.vectors 7) (by decide +kernel)

end FusionMemory
