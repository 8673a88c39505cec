import FusionMemory.Engine.ConsolidateTenants
import FusionMemory.Engine.DeleteAtomic
import FusionMemory.Store.History

/-!
A merge that fails half-way (`consolidate_merge`).

A merge writes the row of the source, its vector, the merge log and the log for the
followers, in this order. A row that cannot be tombstoned sends the loop to the next
neighbour, a vector or a log entry that fails is let go, and a merge that cannot be recorded
is undone by two compensating calls. `merge_compensated` says that whatever fails, as long
as these two work, the source is merged and recorded once, or else kept as it was.
-/

namespace FusionMemory

open Lib

variable {F : Type}

/-- The source is tombstoned, and one row of the merge log says so. -/
structure SourceMerged (src : MemoryItem F) (w w' : World F) : Prop where
  row : w'.db.tombstoneFlag src.id = (w.db.tombstoneFlag src.id).map fun _ => true
  log : ∃ e, w'.db.mergeLog = w.db.mergeLog ++ [e] ∧ e.sourceId = src.id

/-- A live source stays live, the merge log is as before, and so is every live vector. -/
structure SourceKept (src : MemoryItem F) (w w' : World F) : Prop where
  row : w.db.tombstoneFlag src.id = some false → w'.db.tombstoneFlag src.id = some false
  log : w'.db.mergeLog = w.db.mergeLog
  vectors : ∀ v, w'.store.getVector v = w.store.getVector v

/-- The two calls that undo a half merge of `src` work, whenever they are made. -/
structure Env.Compensates (env : Env F) (src : MemoryItem F) : Prop where
  row : ∀ t, env.persistFault t (.untombstoneMemory src.id) = none
  vector : ∀ t vr vec, parseU64 src.vectorRef = some vr →
    env.storeFault t (.insertVector vr vec) = none

/-! ### The steps -/

namespace SourceKept

variable {src : MemoryItem F} {w w' w'' : World F}

theorem of_same (db : w'.db = w.db) (store : w'.store = w.store) : SourceKept src w w' :=
  ⟨fun live => by rw [db, live], by rw [db], fun v => by rw [store]⟩

end SourceKept

/-- Reviving a row makes it live. -/
theorem Db.tombstoneFlag_untombstoneMemory (db : Db F) (id : String) :
    (db.untombstoneMemory id).tombstoneFlag id = (db.tombstoneFlag id).map fun _ => false := by
  unfold tombstoneFlag untombstoneMemory
  rw [getMemory_setTombstone]
  cases db.getMemory id with
  | none => rfl
  | some m => exact congrArg (fun r : MemoryItem F => some r.tombstone) (if_pos rfl)

namespace LocalStore

variable {s : LocalStore F} {vr : Nat} {vec : List F}

/-- A vector that was there is there again once it is inserted again, deleted or not. -/
theorem getVector_reinsert (fits : vec.length = s.dim) (held : s.getVector vr = some vec) (v : Nat) :
    ((s.deleteVector vr).insertVector vr vec).2.getVector v = s.getVector v := by
  have fits' : vec.length = (s.deleteVector vr).dim := fits
  rw [getVector_insertVector _ fits', getVector_deleteVector, getVector_deleteVector]
  by_cases same : vr = v
  · subst same
    simp [held]
  · simp [same]

theorem getVector_insert_held (fits : vec.length = s.dim) (held : s.getVector vr = some vec) (v : Nat) :
    (s.insertVector vr vec).2.getVector v = s.getVector v := by
  rw [getVector_insertVector _ fits]
  simp [held]

end LocalStore

variable [FloatArith F]

/-- What follows the tombstone of a source that is merged into `tgt`. -/
def recordOrUndo («at» : Nat) (src tgt : MemoryItem F) (vr : Nat) (vec : List F) (acc : Progress) :
    EngineM F Progress := do
  let _ ← store (.deleteVector vr)
  match ← persist (.recordMerge src.id tgt.id MERGE_REASON «at») with
  | .error e =>
      let _ ← persist (.untombstoneMemory src.id)
      let _ ← store (.insertVector vr vec)
      return acc.fail src.id "merge-log" e.toString
  | .ok _ =>
      let payload := src.id ++ "\t" ++ tgt.id ++ "\t" ++ MERGE_REASON ++ "\t" ++ toString «at»
      let _ ← persist (.appendWop "merge" payload «at»)
      return acc.succeed

theorem mergeInto_target {all : List (MemoryItem F)} {src tgt : MemoryItem F} {vr : Nat}
    {hit : Nat × F} (found : mergeTarget all src vr hit = some tgt) («at» : Nat) (vec : List F)
    (rest : List (Nat × F)) (acc : Progress) :
    mergeInto all «at» src vr vec (hit :: rest) acc =
      persist (.tombstoneMemory src.id) >>= fun reply => match reply with
        | .error e => mergeInto all «at» src vr vec rest (acc.fail src.id "merge" e.toString)
        | .ok _ => recordOrUndo «at» src tgt vr vec acc := by
  rw [mergeInto, found]
  refine congrArg (persist (.tombstoneMemory src.id) >>= ·) (funext fun reply => ?_)
  cases reply <;> rfl

/-- Deleted or not, the vector of the source is there again after the reinsertion. -/
theorem reinserted {w : World F} {vr : Nat} {vec : List F} (fits : vec.length = w.store.dim)
    (held : w.store.getVector vr = some vec) (v : Nat) :
    ((w.execStore (.deleteVector vr)).2.insertVector vr vec).2.getVector v =
      w.store.getVector v := by
  rcases w.execStore_cases (.deleteVector vr) with done | ⟨e, n, failed⟩
  · rw [done]
    exact LocalStore.getVector_reinsert fits held v
  · rw [failed]
    exact LocalStore.getVector_insert_held fits held v

/-- Once its row is tombstoned, a source is recorded as merged or restored. -/
theorem run_recordOrUndo {w : World F} {src : MemoryItem F} (works : w.env.Compensates src)
    {vr : Nat} (parsed : parseU64 src.vectorRef = some vr) {vec : List F}
    (fits : vec.length = w.store.dim) (held : w.store.getVector vr = some vec) («at» : Nat)
    (tgt : MemoryItem F) (acc : Progress) :
    SourceMerged src w
        (run (recordOrUndo «at» src tgt vr vec acc) (w.withDb (w.db.tombstoneMemory src.id))).2 ∨
      SourceKept src w
        (run (recordOrUndo «at» src tgt vr vec acc) (w.withDb (w.db.tombstoneMemory src.id))).2 := by
  have restored := reinserted (w := w.withDb (w.db.tombstoneMemory src.id)) fits held
  unfold recordOrUndo
  rw [run_store_bind]
  generalize ((w.withDb (w.db.tombstoneMemory src.id)).execStore (.deleteVector vr)).2 = s at restored
  set u := (w.withDb (w.db.tombstoneMemory src.id)).withStore s with after
  rw [run_persist_bind]
  rcases Option.eq_none_or_eq_some (u.env.persistFault u.tick
    (.recordMerge src.id tgt.id MERGE_REASON «at»)) with records | ⟨fault, struck⟩
  · rw [World.execPersist_works records]
    dsimp only [PersistOp.exec]
    rw [run_persist_bind]
    left
    obtain ⟨same, rows⟩ := appendWop_rows
      (u.withDb (u.db.recordMerge src.id tgt.id MERGE_REASON «at»)) "merge"
      (src.id ++ "\t" ++ tgt.id ++ "\t" ++ MERGE_REASON ++ "\t" ++ toString «at») «at»
    refine ⟨?_, _, same.mergeLog, rfl⟩
    rw [← Db.tombstoneFlag_tombstoneMemory]
    exact congrArg (fun t => (Table.find? t src.id).map fun m => m.tombstone) rows
  · rw [World.execPersist_fault struck]
    dsimp only [PersistOp.fails]
    right
    have revived : (u.withDb u.db).execPersist (.untombstoneMemory src.id) =
        (.ok (), u.db.untombstoneMemory src.id) := World.execPersist_works (works.row _)
    rw [run_persist_bind, revived]
    have inserted : ((u.withDb u.db).withDb (u.db.untombstoneMemory src.id)).execStore
        (.insertVector vr vec) = s.insertVector vr vec :=
      World.execStore_works (works.vector _ _ _ parsed)
    rw [run_store_bind, inserted]
    refine ⟨fun live => ?_, rfl, restored⟩
    change ((w.db.tombstoneMemory src.id).untombstoneMemory src.id).tombstoneFlag src.id = _
    rw [Db.tombstoneFlag_untombstoneMemory, Db.tombstoneFlag_tombstoneMemory, live]
    rfl

/-- The loop over the neighbours of a source, any list of them. -/
theorem run_mergeInto_compensated {src : MemoryItem F} {vr : Nat}
    (parsed : parseU64 src.vectorRef = some vr) (all : List (MemoryItem F)) («at» : Nat)
    (vec : List F) (hits : List (Nat × F)) (acc : Progress) {w : World F}
    (works : w.env.Compensates src) (fits : vec.length = w.store.dim)
    (held : w.store.getVector vr = some vec) :
    SourceMerged src w (run (mergeInto all «at» src vr vec hits acc) w).2 ∨
      SourceKept src w (run (mergeInto all «at» src vr vec hits acc) w).2 := by
  induction hits generalizing acc w with
  | nil => exact .inr (.of_same rfl rfl)
  | cons hit rest ih =>
      cases found : mergeTarget all src vr hit with
      | none =>
          rw [mergeInto, found]
          exact ih acc works fits held
      | some tgt =>
          rw [mergeInto_target found, run_persist_bind]
          rcases Option.eq_none_or_eq_some (w.env.persistFault w.tick (.tombstoneMemory src.id)) with
            buries | ⟨fault, struck⟩
          · rw [World.execPersist_works buries]
            exact run_recordOrUndo works parsed fits held «at» tgt acc
          · -- nothing has changed, and the next neighbour is tried
            rw [World.execPersist_fault struck]
            rcases ih (acc.fail src.id "merge" fault.1.toString) (w := w.withDb w.db) works fits held with
              merged | kept
            · exact .inl ⟨merged.row, merged.log⟩
            · exact .inr ⟨kept.row, kept.log, kept.vectors⟩

/-- A search changes nothing, and one that succeeds was given a vector that fits. -/
theorem execStore_searchKnn (w : World F) (query : List F) (k : Nat) :
    (w.execStore (.searchKnn query k)).2 = w.store ∧
      ∀ knn, (w.execStore (.searchKnn query k)).1 = .ok knn → query.length = w.store.dim := by
  rcases w.execStore_cases (.searchKnn query k) with done | ⟨e, n, failed⟩
  · rw [done]
    refine ⟨rfl, fun knn found => ?_⟩
    by_contra unfit
    change w.store.searchKnn _ query k = _ at found
    unfold LocalStore.searchKnn at found
    rw [if_pos unfit] at found
    cases found
  · rw [failed]
    unfold StoreOp.fails
    dsimp only
    split_ifs
    · exact ⟨rfl, fun knn found => (by cases found)⟩
    · exact ⟨rfl, fun knn found => (by cases found)⟩

/-- Whatever fails while a source is processed, provided the compensating calls work: it is
tombstoned and recorded once in the merge log, or it is live as before, with its vector, and
not recorded. -/
theorem merge_compensated (all : List (MemoryItem F)) («at» : Nat) (acc : Progress)
    (src : MemoryItem F) (w : World F) (works : w.env.Compensates src) :
    SourceMerged src w (run (mergeSource all «at» acc src) w).2 ∨
      SourceKept src w (run (mergeSource all «at» acc src) w).2 := by
  unfold mergeSource
  split_ifs with buried
  · exact .inr (.of_same rfl rfl)
  · cases parsed : parseU64 src.vectorRef with
    | none => exact .inr (.of_same rfl rfl)
    | some vr =>
        dsimp only
        rw [run_store_bind]
        rcases Option.eq_none_or_eq_some (w.env.storeFault w.tick (.getVector vr)) with
          reads | ⟨fault, struck⟩
        · rw [World.execStore_works reads]
          dsimp only [StoreOp.exec]
          cases held : w.store.getVector vr with
          | none => exact .inr (.of_same rfl rfl)
          | some vec =>
              let w₁ := w.withStore w.store
              change SourceMerged src w (run (storeOrFail (.searchKnn vec MERGE_KNN) >>=
                fun knn => mergeInto all «at» src vr vec knn acc) w₁).2 ∨
                SourceKept src w (run (storeOrFail (.searchKnn vec MERGE_KNN) >>=
                  fun knn => mergeInto all «at» src vr vec knn acc) w₁).2
              have searched := execStore_searchKnn w₁ vec MERGE_KNN
              rw [run_storeOrFail_bind, searched.1]
              cases found : (w₁.execStore (.searchKnn vec MERGE_KNN)).1 with
              | error e => exact .inr (.of_same rfl rfl)
              | ok knn =>
                  -- The search has checked the length of the vector.
                  have fits : vec.length = w.store.dim := searched.2 knn found
                  rcases run_mergeInto_compensated parsed all «at» vec knn acc
                    (w := w₁.withStore w₁.store) works fits held with merged | kept
                  · exact .inl ⟨merged.row, merged.log⟩
                  · exact .inr ⟨kept.row, kept.log, kept.vectors⟩
        · rw [World.execStore_fault struck]
          exact .inr (.of_same rfl rfl)

/-! ### A merge log that is gone -/

def noMergeLog : Env Fixed :=
  { (Env.quiet : Env Fixed) with
    persistFault := fun _ op => match op with
      | .recordMerge _ _ _ _ => some (.sqlite "no such table: merge_log" false, 0)
      | _ => none }

theorem noMergeLog_compensates (src : MemoryItem Fixed) : noMergeLog.Compensates src :=
  ⟨fun _ => rfl, fun _ _ _ _ => rfl⟩

/-- The row `m1`, about to be merged into `m2`, cannot be recorded. -/
theorem merge_compensated_unrecorded :
    let source := factRow "m1" "b" "7"
    let w := twoTenants.withEnv noMergeLog
    let after := run (mergeSource twoTenantRows.rows 10 ⟨0, []⟩ source) w
    after.1.toOption = some ⟨0, [⟨"m1", "merge-log", "sqlite error: no such table: merge_log"⟩]⟩ ∧
      (SourceMerged source w after.2 ∨ SourceKept source w after.2) :=
  ⟨by decide +kernel, merge_compensated _ _ _ _ _ (noMergeLog_compensates _)⟩

end FusionMemory
