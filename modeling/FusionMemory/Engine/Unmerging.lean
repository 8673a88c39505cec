import FusionMemory.Engine.Execution
import FusionMemory.Engine.Manage

/-!
Whether undoing a merge is all or nothing (`MemoryEngine::unmerge`).

The row of the merge log goes first; reading the source, embedding its content, inserting
the vector and writing the row follow, each with its own way to fail. So a call that
stops half-way has used up the log row and restored nothing.
`unmerge_all_or_nothing_iff` says that this is the only way it goes wrong: the call is all
or nothing exactly when the log row stays or everything after it works.
-/

namespace FusionMemory

open Lib

variable {F : Type} [FloatArith F]

/-- The merge log, the rows and the live vectors are as before. -/
structure Untouched (w w' : World F) : Prop where
  mergeLog : w'.db.mergeLog = w.db.mergeLog
  rows : w'.db.memoryItem = w.db.memoryItem
  vectors : ∀ v, w'.store.getVector v = w.store.getVector v

/-- `unmerge(id)` restores the source or leaves everything as it was. -/
def AllOrNothing (w : World F) (id : Nat) : Prop :=
  (run (unmerge id) w).1 ≠ .ok true → Untouched w (run (unmerge id) w).2

/-! ### When it is -/

/-- The log has no such merge, or one of the two statements about it fails. -/
def LogRowStays (w : World F) (id : Nat) : Prop :=
  (w.db.unmerge id).1 = none ∨ w.env.persistFault w.tick (.unmerge id) ≠ none

/-- From `w` on, `n` requests see to it that the vector of `item` is in the store. -/
inductive VectorBack (w : World F) (item : MemoryItem F) : Nat → Prop where
  | noReference : parseU64 item.vectorRef = none → VectorBack w item 0
  | there {vr : Nat} {vec : List F} : parseU64 item.vectorRef = some vr →
      w.env.storeFault w.tick (.getVector vr) = none → w.store.getVector vr = some vec →
      VectorBack w item 1
  | rebuilt {vr : Nat} {vec : List F} : parseU64 item.vectorRef = some vr →
      w.env.storeFault w.tick (.getVector vr) = none → w.store.getVector vr = none →
      w.env.embed (w.tick + 1) item.content = .ok vec → vec.length = w.store.dim →
      w.env.storeFault (w.tick + 2) (.insertVector vr vec) = none → VectorBack w item 3

/-- The log row goes, and everything after it works: the source is there and is read, its
vector is or comes back, and its row is written. -/
inductive Restores (w : World F) (id : Nat) : Prop where
  | mk {source target : String} {item : MemoryItem F} {n : Nat}
      (logged : (w.db.unmerge id).1 = some (source, target))
      (taken : w.env.persistFault w.tick (.unmerge id) = none)
      (read : w.env.persistFault (w.tick + 1) (.getMemory source) = none)
      (found : w.db.getMemory source = some item)
      (vector : VectorBack (w.withDb (w.db.unmerge id).2).next { item with tombstone := false } n)
      (written : w.env.persistFault (w.tick + 2 + n)
        (.putMemory { item with tombstone := false }) = none)

/-! ### The steps -/

omit [FloatArith F] in
theorem VectorBack.unique {w : World F} {item : MemoryItem F} {n n' : Nat}
    (back : VectorBack w item n) (back' : VectorBack w item n') : n = n' := by
  cases back <;> cases back' <;> simp_all

omit [FloatArith F] in
@[simp] theorem getMemory_unmerge (db : Db F) (id : Nat) (source : String) :
    (db.unmerge id).2.getMemory source = db.getMemory source := by
  unfold Db.unmerge
  split <;> rfl

omit [FloatArith F] in
/-- Taking a merge out of the log shortens it. -/
theorem mergeLog_unmerge_ne {db : Db F} {id : Nat} (logged : (db.unmerge id).1 ≠ none) :
    (db.unmerge id).2.mergeLog ≠ db.mergeLog := by
  unfold Db.unmerge at logged ⊢
  split at logged
  · exact absurd rfl logged
  · rename_i e found
    intro same
    have kept : e ∈ db.mergeLog.filter fun e => asI64 e.id != asI64 id := by
      rw [show (db.mergeLog.filter fun e => asI64 e.id != asI64 id) = db.mergeLog from same]
      exact List.mem_of_find?_eq_some found
    have is := List.find?_some found
    have isNot := (List.mem_filter.mp kept).2
    simp_all

/-- An insertion is accepted if no fault strikes it and the vector fits. -/
theorem execStore_insertVector_ok_iff (w : World F) (vr : Nat) (vec : List F) :
    (w.execStore (.insertVector vr vec)).1 = .ok () ↔
      w.env.storeFault w.tick (.insertVector vr vec) = none ∧ vec.length = w.store.dim := by
  unfold World.execStore
  cases w.env.storeFault w.tick (.insertVector vr vec) with
  | none =>
      simp only [true_and]
      constructor
      · intro accepted
        by_contra unfit
        change (w.store.insertVector vr vec).1 = _ at accepted
        unfold LocalStore.insertVector at accepted
        rw [if_pos unfit] at accepted
        cases accepted
      · exact fun fits => LocalStore.insertVector_fst fits vr
  | some f =>
      refine ⟨fun accepted => ?_, fun both => by cases both.1⟩
      change (w.store.insertVectorFails vr vec f.1 f.2).1 = _ at accepted
      unfold LocalStore.insertVectorFails at accepted
      split_ifs at accepted

/-- A rebuilt vector: the rest of the call goes on exactly when it came back. -/
theorem run_rebuildVector (w : World F) (item : MemoryItem F) :
    (∃ n w', VectorBack w item n ∧ run (rebuildVector item) w = (.ok (), w') ∧
      w'.env = w.env ∧ w'.tick = w.tick + n ∧ w'.db = w.db) ∨
    (∀ n, ¬ VectorBack w item n) ∧ ∃ e w', run (rebuildVector item) w = (.error e, w') ∧
      w'.db = w.db := by
  unfold rebuildVector
  cases ref : parseU64 item.vectorRef with
  | none => exact .inl ⟨0, w, .noReference ref, rfl, rfl, rfl, rfl⟩
  | some vr =>
      dsimp only
      rw [run_storeOrFail_bind]
      unfold World.execStore
      cases getFault : w.env.storeFault w.tick (.getVector vr) with
      | some f =>
          refine .inr ⟨fun n back => ?_, _, _, rfl, rfl⟩
          cases back <;> simp_all
      | none =>
          dsimp only [StoreOp.exec]
          cases held : w.store.getVector vr with
          | some vec => exact .inl ⟨1, _, .there ref getFault held, rfl, rfl, rfl, rfl⟩
          | none =>
              rw [if_pos (show (none : Option (List F)).isNone = true from rfl), run_embed_bind]
              cases embedded : w.env.embed (w.tick + 1) item.content with
              | error e =>
                  have fails : (w.withStore w.store).env.embed (w.withStore w.store).tick
                      item.content = .error e := embedded
                  rw [fails]
                  refine .inr ⟨fun n back => ?_, _, _, rfl, rfl⟩
                  cases back <;> simp_all
              | ok vec =>
                  have works : (w.withStore w.store).env.embed (w.withStore w.store).tick
                      item.content = .ok vec := embedded
                  rw [works]
                  change (∃ n w', _ ∧ run (storeOrFail (.insertVector vr vec) >>= fun _ => pure ())
                    (w.withStore w.store).next = _ ∧ _) ∨ _ ∧ ∃ e w',
                    run (storeOrFail (.insertVector vr vec) >>= fun _ => pure ())
                      (w.withStore w.store).next = _ ∧ _
                  rw [run_storeOrFail_bind]
                  have accepts := execStore_insertVector_ok_iff (w.withStore w.store).next vr vec
                  cases reply : ((w.withStore w.store).next.execStore (.insertVector vr vec)).1 with
                  | error e =>
                      refine .inr ⟨fun n back => ?_, _, _, rfl, rfl⟩
                      cases back with
                      | noReference none => simp_all
                      | there some _ is => simp_all
                      | rebuilt some _ _ vector fits works =>
                          cases ref.symm.trans some
                          cases embedded.symm.trans vector
                          cases reply.symm.trans (accepts.mpr ⟨works, fits⟩)
                  | ok _ =>
                      obtain ⟨works, fits⟩ := accepts.mp reply
                      exact .inl ⟨3, _, .rebuilt ref getFault held embedded fits works, rfl, rfl, rfl,
                        rfl⟩

omit [FloatArith F] in
/-- While the log row stays, the call finds no merge to undo. -/
theorem execPersist_logRowStays {w : World F} {id : Nat} (stays : LogRowStays w id) :
    (w.execPersist (.unmerge id)).2 = w.db ∧
      ((w.execPersist (.unmerge id)).1 = .ok none ∨ ∃ e, (w.execPersist (.unmerge id)).1 = .error e) := by
  have missing : (w.db.unmerge id).1 = none → (w.db.unmerge id).2 = w.db := by
    unfold Db.unmerge
    split
    · exact fun _ => rfl
    · exact fun absent => by cases absent
  unfold World.execPersist
  cases fault : w.env.persistFault w.tick (.unmerge id) with
  | none =>
      rcases stays with absent | fails
      · exact ⟨missing absent, .inl (congrArg Except.ok absent)⟩
      · exact absurd fault fails
  | some f =>
      change (PersistOp.fails w.db f.1 f.2 (.unmerge id)).2 = _ ∧
        ((PersistOp.fails w.db f.1 f.2 (.unmerge id)).1 = _ ∨
          ∃ e, (PersistOp.fails w.db f.1 f.2 (.unmerge id)).1 = _)
      unfold PersistOp.fails
      dsimp only
      split
      · exact ⟨rfl, .inr ⟨_, rfl⟩⟩
      · exact ⟨rfl, .inl rfl⟩
      · exact ⟨rfl, .inl rfl⟩
      · exact ⟨rfl, .inr ⟨_, rfl⟩⟩

theorem run_unmerge_stays {w : World F} {id : Nat} (stays : LogRowStays w id) :
    (run (unmerge id) w).1 ≠ .ok true ∧ Untouched w (run (unmerge id) w).2 := by
  obtain ⟨same, absent | ⟨e, failed⟩⟩ := execPersist_logRowStays stays
  · unfold unmerge
    rw [run_persistOrFail_bind, absent, same]
    exact ⟨fun h => (by cases h), ⟨rfl, rfl, fun _ => rfl⟩⟩
  · unfold unmerge
    rw [run_persistOrFail_bind, failed, same]
    exact ⟨fun h => (by cases h), ⟨rfl, rfl, fun _ => rfl⟩⟩

/-- What follows once the log row of a merge is gone: the log stays as it is now, and the
call returns true exactly when everything works. -/
theorem run_unmerge_taken {w : World F} {id : Nat} {source target : String}
    (logged : (w.db.unmerge id).1 = some (source, target))
    (taken : w.env.persistFault w.tick (.unmerge id) = none) :
    (run (unmerge id) w).2.db.mergeLog = (w.db.unmerge id).2.mergeLog ∧
      ((run (unmerge id) w).1 = .ok true ↔ Restores w id) := by
  have first : w.execPersist (.unmerge id) = (.ok (some (source, target)), (w.db.unmerge id).2) :=
    (World.execPersist_works taken).trans (Prod.ext (congrArg Except.ok logged) rfl)
  unfold unmerge
  rw [run_persistOrFail_bind, first]
  dsimp only
  rw [run_persistOrFail_bind]
  set w₁ := w.withDb (w.db.unmerge id).2 with after
  have read : (w₁.execPersist (.getMemory source)).2 = w₁.db := w₁.execPersist_isRead rfl
  rw [read]
  cases readFault : w.env.persistFault (w.tick + 1) (.getMemory source) with
  | some f =>
      have struck : w₁.env.persistFault w₁.tick (.getMemory source) = some f := readFault
      have failed : (w₁.execPersist (.getMemory source)).1 = .error f.1 := by
        rw [World.execPersist_fault struck]
        rfl
      rw [failed]
      refine ⟨rfl, fun h => (by cases h), ?_⟩
      rintro ⟨logged', -, read, -⟩
      cases logged.symm.trans logged'
      cases readFault.symm.trans read
  | none =>
      have works : w₁.env.persistFault w₁.tick (.getMemory source) = none := readFault
      have answer : (w₁.execPersist (.getMemory source)).1 = .ok (w.db.getMemory source) := by
        rw [World.execPersist_works works]
        exact congrArg Except.ok (getMemory_unmerge w.db id source)
      rw [answer]
      cases found : w.db.getMemory source with
      | none =>
          refine ⟨rfl, fun h => (by cases h), ?_⟩
          rintro ⟨logged', -, -, found', -⟩
          cases logged.symm.trans logged'
          cases found.symm.trans found'
      | some item =>
          dsimp only
          rcases run_rebuildVector (w₁.withDb w₁.db) { item with tombstone := false } with
            ⟨n, w₂, back, ran, env, tick, db⟩ | ⟨never, e, w₂, ran, db⟩
          · rw [run_bind_ok ran, run_persistOrFail_bind]
            have at₂ : w₂.tick = w.tick + 2 + n := tick
            have log : w₂.db.mergeLog = (w.db.unmerge id).2.mergeLog := congrArg Db.mergeLog db
            cases putFault : w.env.persistFault (w.tick + 2 + n)
                (.putMemory { item with tombstone := false }) with
            | some f =>
                have failed : w₂.execPersist (.putMemory { item with tombstone := false }) =
                    (.error f.1, w₂.db) :=
                  World.execPersist_fault (by rw [env, at₂]; exact putFault)
                rw [failed]
                refine ⟨log, fun h => (by cases h), ?_⟩
                rintro ⟨logged', -, -, found', vector, written⟩
                cases logged.symm.trans logged'
                cases found.symm.trans found'
                rw [vector.unique back, putFault] at written
                cases written
            | none =>
                have written : w₂.execPersist (.putMemory { item with tombstone := false }) =
                    (.ok (), w₂.db.putMemory { item with tombstone := false }) :=
                  World.execPersist_works (by rw [env, at₂]; exact putFault)
                rw [written]
                exact ⟨log, iff_of_true rfl ⟨logged, taken, readFault, found, back, putFault⟩⟩
          · rw [run_bind_error ran]
            refine ⟨congrArg Db.mergeLog db, fun h => (by cases h), ?_⟩
            rintro ⟨logged', -, -, found', vector, -⟩
            cases logged.symm.trans logged'
            cases found.symm.trans found'
            exact absurd vector (never _)

/-- The call is all or nothing exactly when the row of the merge log stays, or everything
after its deletion works. -/
theorem unmerge_all_or_nothing_iff (w : World F) (id : Nat) :
    AllOrNothing w id ↔ LogRowStays w id ∨ Restores w id := by
  by_cases stays : LogRowStays w id
  · exact iff_of_true (fun _ => (run_unmerge_stays stays).2) (.inl stays)
  · unfold LogRowStays at stays
    push Not at stays
    obtain ⟨found, taken⟩ := stays
    obtain ⟨⟨source, target⟩, logged⟩ := Option.ne_none_iff_exists'.mp found
    obtain ⟨log, true_iff⟩ := run_unmerge_taken logged taken
    unfold AllOrNothing
    rw [Ne, true_iff]
    constructor
    · intro whole
      by_contra neither
      have restored : ¬ Restores w id := fun h => neither (.inr h)
      exact mergeLog_unmerge_ne found (log.symm.trans (whole restored).mergeLog)
    · rintro (stays | restores) notRestored
      · exact absurd stays fun h => h.elim found fun fails => fails taken
      · exact absurd restores notRestored

/-! ### A merge that is lost -/

/-- Nothing fails but the embedder. -/
def noEmbedder : Env Fixed := { (Env.quiet : Env Fixed) with embed := fun _ _ => .error "timeout" }

/-- A fact that was merged into another one. -/
def mergedFact : MemoryItem Fixed :=
  { MemoryItem.newTurnSkeleton "source" "ix" 0 "s" "" .semantic "fact" 5 with
    vectorRef := "7", tombstone := true }

def mergedDb : Db Fixed :=
  (Db.empty.putMemory mergedFact).recordMerge "source" "target" "ann-sim+shared-entity" 9

/-- The embedder times out, and the log row of the merge is gone all the same. -/
theorem failed_unmerge_uses_up_log : ¬ ∀ (w : World Fixed) (id : Nat), AllOrNothing w id := by
  intro always
  have untouched := always (.fresh noEmbedder mergedDb (.empty 1)) 1 fun h => by cases h
  exact absurd untouched.mergeLog (by decide)

end FusionMemory
