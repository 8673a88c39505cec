import FusionMemory.Engine.Commit
import FusionMemory.Engine.RowFrame
import FusionMemory.Lib.DecimalJson
import FusionMemory.Store.History

/-!
What a commit leaves of each of its turns.

A turn writes to the vector store and, in one transaction, to the rows and the log. When
the transaction fails its vector is deleted again; when the vector store refuses the vector
nothing is cleaned up. `commit_settles_each_turn_iff` says that every turn is committed or
failed as a whole exactly when no vector store call fails after it has written its vector.
-/

namespace FusionMemory

open Lib

variable {F : Type} [FloatArith F] [JsonText F]

/-! ### Fates -/

/-- The row that a turn is committed as. -/
def turnRow (sessionId : String) (interaction : Interaction) (now : Nat) (turn : Turn)
    (id content : String) : MemoryItem F :=
  { turnItem sessionId interaction now turn id content with
    vectorRef := toString (vectorIdFromUlid id), entitiesPending := true }

/-- The row that this engine commits a turn as. -/
def committedRow (eng : MemoryEngine) (sessionId : String) (interaction : Interaction) (now : Nat)
    (turn : Turn) (id : String) : MemoryItem F :=
  turnRow sessionId interaction now turn id (committedContent eng turn)

/-- What became of a turn, under the id it was handed. -/
inductive TurnFate where
  | committed (id : String)
  | failed (id : String) (failure : TurnFailure)
deriving DecidableEq, Repr

namespace TurnFate

def id : TurnFate → String
  | .committed id => id
  | .failed id _ => id

def memoryId? : TurnFate → Option String
  | .committed id => some id
  | .failed _ _ => none

def failure? : TurnFate → Option TurnFailure
  | .committed _ => none
  | .failed _ failure => some failure

/-- A committed turn has its row; a failed one is reported under its index, and has none. -/
def Settled (eng : MemoryEngine) (sessionId : String) (interaction : Interaction) (now : Nat)
    (db : Db F) (turn : Turn) : TurnFate → Prop
  | .committed id => ∃ entities pending, db.getMemory id = some
      { committedRow eng sessionId interaction now turn id with
        entities := entities, entitiesPending := pending }
  | .failed id failure => failure.turnIdx = turn.turnIdx ∧ db.getMemory id = none

/-- A committed turn has a live vector, a failed one has none. -/
def OneVector (s : LocalStore F) : TurnFate → Prop
  | .committed id => ∃ vec, s.getVector (vectorIdFromUlid id) = some vec
  | .failed id _ => s.getVector (vectorIdFromUlid id) = none

end TurnFate

/-- The log entry of the commit of a memory. -/
def CommitLogged (F : Type) [FloatArith F] [JsonText F] (id : String) (e : WopEntry) : Prop :=
  e.op = "commit" ∧ ∃ (item : MemoryItem F) (vec : List F), item.id = id ∧
    e.payload = JsonText.print (CommitEnvelope.mk item (some vec)).toJson

/-- From `w` to `w'` each turn was committed or failed as a whole, in order, and `outcome`
says so; nothing else changed among the rows and the vectors. -/
structure SettlesEachTurn (eng : MemoryEngine) (sessionId : String) (interaction : Interaction)
    (w w' : World F) (outcome : CommitOutcome) (fates : List TurnFate) : Prop where
  handed : w'.issued = (fates.map TurnFate.id).reverse ++ w.issued
  turns : List.Forall₂ (fun turn fate => fate.Settled eng sessionId interaction
    (w.env.clock w.tick) w'.db turn) interaction.turns fates
  vectors : ∀ fate ∈ fates, fate.OneVector w'.store
  memoryIds : outcome.memoryIds = fates.filterMap TurnFate.memoryId?
  failedTurns : outcome.failedTurns = fates.filterMap TurnFate.failure?
  wops : ∃ entries, w'.db.wopLog = w.db.wopLog ++ entries ∧
    List.Forall₂ (CommitLogged F) outcome.memoryIds entries
  otherRows : ∀ i, i ∉ fates.map TurnFate.id → w'.db.getMemory i = w.db.getMemory i
  otherVectors : ∀ v, v ∉ fates.map (fun fate => vectorIdFromUlid fate.id) →
    w'.store.getVector v = w.store.getVector v

/-- The ULIDs handed out between `w` and `w'` have vector ids of their own, which the store
of `w` does not hold. -/
def FreshVectors (w w' : World F) : Prop :=
  ∀ ids, w'.issued = ids ++ w.issued → (ids.map vectorIdFromUlid).Nodup ∧
    ∀ id ∈ ids, w.store.vecTree.find? (vectorIdFromUlid id) = none

/-- If the vector of a turn that starts in `w` fits and is refused, it is refused before it
is written. -/
def InsertsWhole (eng : MemoryEngine) (turn : Turn) (w : World F) : Prop :=
  ∀ vec e writes, w.env.embed (w.tick + 1) (committedContent eng turn) = .ok vec →
    vec.length = w.store.dim →
      w.env.storeFault (w.tick + 2) (.insertVector
        (vectorIdFromUlid (w.env.ulid w.tick w.taken).1) vec) = some (e, writes) → writes < 2

/-- `InsertsWhole` of each turn, in the world that the turns before it leave. -/
def AllInsertWhole (eng : MemoryEngine) (sessionId : String) (interaction : Interaction)
    (now : Nat) : List Turn → CommitOutcome → World F → Prop
  | [], _, _ => True
  | turn :: rest, acc, w => InsertsWhole eng turn w ∧
      ∀ acc' w', run (commitTurn eng sessionId interaction now acc turn) w = (.ok acc', w') →
        AllInsertWhole eng sessionId interaction now rest acc' w'

/-! ### The vector of a turn -/

/-- Outside `v` the store is as it was. -/
structure LocalStore.SameBut (v : Nat) (s s' : LocalStore F) : Prop where
  written : ∀ v', v' ≠ v → s'.vecTree.find? v' = s.vecTree.find? v'
  live : ∀ v', v' ≠ v → s'.getVector v' = s.getVector v'

omit [FloatArith F] [JsonText F] in
theorem LocalStore.SameBut.trans {v : Nat} {s s' s'' : LocalStore F} (first : s.SameBut v s')
    (last : s'.SameBut v s'') : s.SameBut v s'' :=
  ⟨fun v' other => (last.written v' other).trans (first.written v' other),
    fun v' other => (last.live v' other).trans (first.live v' other)⟩

omit [FloatArith F] [JsonText F] in
theorem LocalStore.sameBut_deleteVector (s : LocalStore F) (v : Nat) :
    s.SameBut v (s.deleteVector v) := by
  refine ⟨fun _ _ => rfl, fun v' other => ?_⟩
  rw [getVector_deleteVector, if_neg (Ne.symm other)]

omit [FloatArith F] [JsonText F] in
/-- The writes of an insertion, as far as they got. -/
theorem LocalStore.sameBut_insertWrites (s : LocalStore F) (v : Nat) (vec : List F) (writes : Nat) :
    s.SameBut v (s.insertWrites v vec writes) := by
  have written : ∀ v', v' ≠ v → (s.insertWrites v vec 2).vecTree.find? v' = s.vecTree.find? v' := by
    intro v' other
    change (s.vecTree.upsert (v, vec)).find? v' = _
    rw [Table.find?_upsert, if_neg (Ne.symm other)]
  have whole : s.SameBut v (s.insertWrites v vec 2) := by
    refine ⟨written, fun v' other => ?_⟩
    rw [getVector_insertWrites, if_neg (Ne.symm other)]
  rcases writes with _ | _ | writes
  · exact ⟨fun _ _ => rfl, fun _ _ => rfl⟩
  · refine ⟨fun _ _ => rfl, fun v' other => ?_⟩
    have live := whole.live v' other
    unfold getVector at live ⊢
    rwa [written v' other] at live
  · exact whole

omit [FloatArith F] [JsonText F] in
/-- The vector of an id that the store did not hold is there after two writes. -/
theorem LocalStore.getVector_insertWrites_eq_none {s : LocalStore F} {v : Nat}
    (unused : s.vecTree.find? v = none) (vec : List F) (writes : Nat) :
    (s.insertWrites v vec writes).getVector v = none ↔ writes < 2 := by
  have absent : ∀ s' : LocalStore F, s'.vecTree = s.vecTree → s'.getVector v = none := by
    intro s' same
    unfold getVector
    rw [same, unused]
    exact ite_self _
  rcases writes with _ | _ | writes
  · exact ⟨fun _ => by decide, fun _ => absent _ rfl⟩
  · exact ⟨fun _ => by decide, fun _ => absent _ rfl⟩
  · have stored : (s.insertWrites v vec (writes + 2)).getVector v = some vec :=
      (s.getVector_insertWrites v vec v).trans (if_pos rfl)
    rw [stored]
    constructor
    · rintro ⟨⟩
    · intro few
      omega

omit [JsonText F] in
/-- An insertion under an id that the store does not hold. -/
theorem execStore_insertVector_unused {w : World F} {v : Nat} (vec : List F)
    (unused : w.store.vecTree.find? v = none) :
    w.store.SameBut v (w.execStore (.insertVector v vec)).2 ∧
      ((w.execStore (.insertVector v vec)).1 = .ok () ∧
          (w.execStore (.insertVector v vec)).2.getVector v = some vec ∧
          (∀ e n, w.env.storeFault w.tick (.insertVector v vec) ≠ some (e, n)) ∨
        ∃ e, (w.execStore (.insertVector v vec)).1 = .error e ∧
          ((w.execStore (.insertVector v vec)).2.getVector v = none ↔
            (vec.length = w.store.dim → ∀ e n,
              w.env.storeFault w.tick (.insertVector v vec) = some (e, n) → n < 2))) := by
  have missing : w.store.alreadyPresent v = false := by
    unfold LocalStore.alreadyPresent
    rw [unused]
    rfl
  have whole := w.store.sameBut_insertWrites v vec 2
  unfold World.execStore
  by_cases fits : vec.length = w.store.dim
  · cases fault : w.env.storeFault w.tick (.insertVector v vec) with
    | none =>
        refine ⟨?_, .inl ⟨LocalStore.insertVector_fst fits v, ?_, fun _ _ h => by cases h⟩⟩
        · change w.store.SameBut v (w.store.insertVector v vec).2
          unfold LocalStore.insertVector
          rw [if_neg (not_not.mpr fits), if_neg (by simp [missing])]
          exact ⟨whole.written, whole.live⟩
        · refine (w.store.getVector_insertVector fits v v).trans (if_pos ⟨rfl, ?_⟩)
          exact (LocalStore.getVector_insertWrites_eq_none unused vec 0).mpr (by decide)
    | some f =>
        have stopped : w.store.insertVectorFails v vec f.1 f.2 =
            (.error f.1, w.store.insertWrites v vec f.2) := by
          unfold LocalStore.insertVectorFails
          rw [if_neg (not_not.mpr fits), if_neg (by simp [missing])]
        change w.store.SameBut v (w.store.insertVectorFails v vec f.1 f.2).2 ∧
          (_ ∨ ∃ e, (w.store.insertVectorFails v vec f.1 f.2).1 = _ ∧
            ((w.store.insertVectorFails v vec f.1 f.2).2.getVector v = _ ↔ _))
        rw [stopped]
        refine ⟨w.store.sameBut_insertWrites v vec f.2, .inr ⟨f.1, rfl, ?_⟩⟩
        rw [LocalStore.getVector_insertWrites_eq_none unused]
        constructor
        · rintro few - e n same
          cases same
          exact few
        · exact fun few => few fits f.1 f.2 rfl
  · have same : w.store.SameBut v w.store := ⟨fun _ _ => rfl, fun _ _ => rfl⟩
    have absent : w.store.getVector v = none :=
      (LocalStore.getVector_insertWrites_eq_none unused vec 0).mpr (by decide)
    have refused : w.store.insertVector v vec =
        (.error (.dimension w.store.dim vec.length), w.store) := if_pos fits
    have refused' : ∀ e n, w.store.insertVectorFails v vec e n =
        (.error (.dimension w.store.dim vec.length), w.store) := fun _ _ => if_pos fits
    cases w.env.storeFault w.tick (.insertVector v vec) with
    | none =>
        change w.store.SameBut v (w.store.insertVector v vec).2 ∧
          (_ ∨ ∃ e, (w.store.insertVector v vec).1 = _ ∧
            ((w.store.insertVector v vec).2.getVector v = _ ↔ _))
        rw [refused]
        exact ⟨same, .inr ⟨_, rfl, fun _ fits' => absurd fits' fits, fun _ => absent⟩⟩
    | some f =>
        change w.store.SameBut v (w.store.insertVectorFails v vec f.1 f.2).2 ∧
          (_ ∨ ∃ e, (w.store.insertVectorFails v vec f.1 f.2).1 = _ ∧
            ((w.store.insertVectorFails v vec f.1 f.2).2.getVector v = _ ↔ _))
        rw [refused']
        exact ⟨same, .inr ⟨_, rfl, fun _ fits' => absurd fits' fits, fun _ => absent⟩⟩

/-! ### One turn -/

/-- Only the row of `id` may have changed, and what hangs on it. -/
structure World.SameButRow (id : String) (w w' : World F) : Prop where
  env : w'.env = w.env
  issued : w'.issued = w.issued
  store : w'.store = w.store
  wopLog : w'.db.wopLog = w.db.wopLog
  rows : ∀ i, i ≠ id → w'.db.getMemory i = w.db.getMemory i

omit [JsonText F] in
/-- The entities of a committed memory are attached, or its row stays as it was. -/
theorem run_extractAndAttach {w : World F} {id : String} {item : MemoryItem F}
    (found : w.db.getMemory id = some item) (eng : MemoryEngine) (content : String) :
    ∃ w', run (extractAndAttach eng id content) w = (.ok (), w') ∧ w.SameButRow id w' ∧
      ∃ entities pending, w'.db.getMemory id =
        some { item with entities := entities, entitiesPending := pending } := by
  have unchanged : ∀ w' : World F, w'.env = w.env → w'.issued = w.issued → w'.store = w.store →
      w'.db = w.db → w.SameButRow id w' ∧ ∃ entities pending, w'.db.getMemory id =
        some { item with entities := entities, entitiesPending := pending } := by
    intro w' env issued store db
    refine ⟨⟨env, issued, store, by rw [db], fun i _ => by rw [db]⟩, item.entities,
      item.entitiesPending, ?_⟩
    rw [db, found]
  unfold extractAndAttach
  split_ifs
  · rw [run_extract_bind, run_persist_bind, w.next.execPersist_isRead rfl]
    cases reply : (w.next.execPersist (.getMemory id)).1 with
    | error e => exact ⟨_, rfl, unchanged _ rfl rfl rfl rfl⟩
    | ok row =>
        have read : (PersistOp.exec w.next.db (.getMemory id)).1 = .ok row :=
          World.execPersist_isRead_ok rfl reply
        have same : row = some item := (Except.ok.inj read).symm.trans found
        subst same
        dsimp only
        rw [run_persist_bind]
        refine ⟨_, rfl, ?_⟩
        have key : item.id = id := Table.find?_key found
        generalize hr : (w.env.extract w.tick content) = extracted
        rcases (w.next.withDb w.next.db).execPersist_cases (.putMemory { item with
            entities := extracted.entities, entitiesPending := !extracted.success })
          with done | ⟨e, n, failed⟩
        · rw [done]
          refine ⟨⟨rfl, rfl, rfl, rfl, fun i other => ?_⟩, extracted.entities,
            !extracted.success, ?_⟩
          · refine (w.db.getMemory_putMemory _ i).trans (if_neg fun same => ?_)
            exact other (same.symm.trans key)
          · exact (w.db.getMemory_putMemory _ id).trans (if_pos key)
        · rw [failed]
          exact unchanged _ rfl rfl rfl rfl
  · exact ⟨w, rfl, unchanged w rfl rfl rfl rfl⟩

/-- The outcome after one more turn. -/
def CommitOutcome.add (acc : CommitOutcome) (fate : TurnFate) : CommitOutcome :=
  ⟨acc.memoryIds ++ fate.memoryId?.toList, acc.failedTurns ++ fate.failure?.toList⟩

theorem CommitOutcome.add_failed (acc : CommitOutcome) (turn : Turn) (id stage : String)
    (e : MemoryError) :
    acc.add (.failed id ⟨turn.turnIdx, stage, e.toString⟩) = acc.fail turn stage e := by
  simp [add, fail, TurnFate.memoryId?, TurnFate.failure?]

theorem CommitOutcome.add_committed (acc : CommitOutcome) (id : String) :
    acc.add (.committed id) = { acc with memoryIds := acc.memoryIds ++ [id] } := by
  simp [add, TurnFate.memoryId?, TurnFate.failure?]

/-- From `w` to `w'` a turn met its fate, apart from its vector. -/
structure TurnRun (eng : MemoryEngine) (sessionId : String) (interaction : Interaction) (now : Nat)
    (turn : Turn) (fate : TurnFate) (w w' : World F) : Prop where
  env : w'.env = w.env
  settled : fate.Settled eng sessionId interaction now w'.db turn
  rows : ∀ i, i ≠ fate.id → w'.db.getMemory i = w.db.getMemory i
  vectors : w.store.SameBut (vectorIdFromUlid fate.id) w'.store
  wops : ∃ entries, w'.db.wopLog = w.db.wopLog ++ entries ∧
    List.Forall₂ (CommitLogged F) fate.memoryId?.toList entries

section Turn

variable {eng : MemoryEngine} {sessionId : String} {interaction : Interaction} {now : Nat}
  {turn : Turn}

/-- Before a turn has touched the database it has touched its vector at most. -/
theorem TurnRun.after {fate : TurnFate} {w w' : World F} (w₁ : World F) (env : w₁.env = w.env)
    (db : w₁.db = w.db) (store : w.store.SameBut (vectorIdFromUlid fate.id) w₁.store)
    (ran : TurnRun eng sessionId interaction now turn fate w₁ w') :
    TurnRun eng sessionId interaction now turn fate w w' :=
  ⟨ran.env.trans env, ran.settled, db ▸ ran.rows, store.trans ran.vectors, db ▸ ran.wops⟩

/-- A turn that fails changes nothing but perhaps its vector. -/
theorem TurnRun.failed {id : String} {w : World F} (new : w.db.getMemory id = none) (w' : World F)
    (env : w'.env = w.env) (db : w'.db = w.db)
    (store : w.store.SameBut (vectorIdFromUlid id) w'.store) (stage error : String) :
    TurnRun eng sessionId interaction now turn (.failed id ⟨turn.turnIdx, stage, error⟩) w w' :=
  ⟨env, ⟨rfl, by rw [db]; exact new⟩, fun i _ => by rw [db], store, [],
    by rw [db, List.append_nil], .nil⟩

/-- What a turn does once its vector is in the store. -/
def writeTurn (eng : MemoryEngine) (now : Nat) (acc : CommitOutcome) (turn : Turn)
    (item : MemoryItem F) (vec : List F) : EngineM F CommitOutcome := do
  match ← persist (.putMemoryWithWop item "commit"
      (JsonText.print (CommitEnvelope.mk item (some vec)).toJson) now) with
  | .error e =>
      let _ ← store (.deleteVector (vectorIdFromUlid item.id))
      return acc.fail turn "persist" e.toMemory
  | .ok _ =>
      extractAndAttach eng item.id (committedContent eng turn)
      return { acc with memoryIds := acc.memoryIds ++ [item.id] }

theorem run_writeTurn (eng : MemoryEngine) (sessionId : String) (interaction : Interaction)
    (now : Nat) (turn : Turn) {w : World F}
    (cleans : ∀ t v, w.env.storeFault t (.deleteVector v) = none) {id : String}
    (new : w.db.getMemory id = none) {vec : List F}
    (live : w.store.getVector (vectorIdFromUlid id) = some vec) (acc : CommitOutcome) :
    ∃ fate w', fate.id = id ∧ run (writeTurn eng now acc turn
        (committedRow eng sessionId interaction now turn id) vec) w = (.ok (acc.add fate), w') ∧
      w'.issued = w.issued ∧ TurnRun eng sessionId interaction now turn fate w w' ∧
      fate.OneVector w'.store := by
  unfold writeTurn
  rw [run_persist_bind]
  generalize payload : JsonText.print (CommitEnvelope.mk
    (committedRow eng sessionId interaction now turn id : MemoryItem F) (some vec)).toJson = text
  rcases w.execPersist_cases (.putMemoryWithWop (committedRow eng sessionId interaction now turn id)
    "commit" text now) with done | ⟨e, n, failed⟩
  · rw [done]
    have found : (w.db.putMemoryWithWop (committedRow eng sessionId interaction now turn id)
        "commit" text now).getMemory id = some (committedRow eng sessionId interaction now turn id) :=
      (w.db.getMemory_putMemory _ id).trans (if_pos rfl)
    obtain ⟨w', ran, same, entities, pending, row⟩ := run_extractAndAttach
      (w := w.withDb (w.db.putMemoryWithWop (committedRow eng sessionId interaction now turn id)
        "commit" text now)) found eng (committedContent eng turn)
    refine ⟨.committed id, w', rfl, ?_, same.issued,
      ⟨same.env, ⟨entities, pending, row⟩, ?_, ?_, ?_⟩, vec, ?_⟩
    · rw [acc.add_committed]
      exact run_bind_ok ran
    · intro i other
      refine (same.rows i other).trans ((w.db.getMemory_putMemory _ i).trans (if_neg fun eq => ?_))
      exact other eq.symm
    · rw [same.store]
      exact ⟨fun _ _ => rfl, fun _ _ => rfl⟩
    · exact ⟨_, same.wopLog, .cons ⟨rfl, _, vec, rfl, payload.symm⟩ .nil⟩
    · rw [same.store]
      exact live
  · rw [failed]
    dsimp only [PersistOp.fails]
    rw [run_store_bind]
    have deleted : (w.withDb w.db).execStore (.deleteVector (vectorIdFromUlid id)) =
        (.ok (), w.store.deleteVector (vectorIdFromUlid id)) :=
      World.execStore_works (by rw [World.withDb_env]; exact cleans _ _)
    change ∃ fate w', _ ∧ (Except.ok (acc.fail turn "persist" e.toMemory), (w.withDb w.db).withStore
      ((w.withDb w.db).execStore (.deleteVector (vectorIdFromUlid id))).2) = _ ∧ _
    rw [deleted, ← acc.add_failed turn id]
    refine ⟨_, _, rfl, rfl, rfl, ?_, (w.store.getVector_deleteVector _ _).trans (if_pos rfl)⟩
    exact .failed new ((w.withDb w.db).withStore (w.store.deleteVector _)) rfl rfl
      (w.store.sameBut_deleteVector _) _ _

theorem commitTurn_eq (acc : CommitOutcome) :
    commitTurn (F := F) eng sessionId interaction now acc turn = (do
      let id ← newUlid
      match ← embed (committedContent eng turn) with
      | .error e => return acc.fail turn "embed" e
      | .ok vec =>
          match ← store (.insertVector (vectorIdFromUlid id) vec) with
          | .error e => return acc.fail turn "insert_vector" e
          | .ok _ =>
              writeTurn eng now acc turn (committedRow eng sessionId interaction now turn id)
                vec) := by
  unfold commitTurn
  refine congrArg (newUlid >>= ·) (funext fun id => ?_)
  refine congrArg (embed (committedContent eng turn) >>= ·) (funext fun reply => ?_)
  cases reply with
  | error e => rfl
  | ok vec =>
      refine congrArg (store (.insertVector (vectorIdFromUlid id) vec) >>= ·)
        (funext fun reply => ?_)
      cases reply with
      | error e => rfl
      | ok _ =>
          unfold writeTurn
          refine congrArg (persist (.putMemoryWithWop
            (committedRow eng sessionId interaction now turn id) "commit" _ now) >>= ·) (funext fun reply => ?_)
          cases reply with
          | error e => rfl
          | ok _ => rfl

/-- A turn is committed or fails, and leaves one vector or none unless the vector store
refuses a vector that it has written. -/
theorem run_commitTurn (eng : MemoryEngine) (sessionId : String) (interaction : Interaction)
    (now : Nat) (turn : Turn) {w : World F}
    (cleans : ∀ t v, w.env.storeFault t (.deleteVector v) = none)
    (unused : w.store.vecTree.find? (vectorIdFromUlid (w.env.ulid w.tick w.taken).1) = none)
    (acc : CommitOutcome) :
    ∃ fate w', run (commitTurn eng sessionId interaction now acc turn) w =
        (.ok (acc.add fate), w') ∧
      w'.issued = fate.id :: w.issued ∧
      TurnRun eng sessionId interaction now turn fate w w' ∧
      (fate.OneVector w'.store ↔ InsertsWhole eng turn w) := by
  have new : w.db.getMemory (w.env.ulid w.tick w.taken).1 = none := by
    refine Table.find?_eq_none_iff.mpr fun m mem same => (w.env.ulid w.tick w.taken).2.1 ?_
    rw [← same]
    exact List.mem_append_right _ (List.mem_map_of_mem mem)
  unfold InsertsWhole
  rw [commitTurn_eq, run_newUlid_bind]
  generalize (w.env.ulid w.tick w.taken).1 = id at unused new
  rw [run_embed_bind]
  have absent : w.store.getVector (vectorIdFromUlid id) = none :=
    (LocalStore.getVector_insertWrites_eq_none unused [] 0).mpr (by decide)
  have same : w.store.SameBut (vectorIdFromUlid id) w.store := ⟨fun _ _ => rfl, fun _ _ => rfl⟩
  have answer : (w.withIssued id).env.embed (w.withIssued id).tick (committedContent eng turn) =
      w.env.embed (w.tick + 1) (committedContent eng turn) := rfl
  rw [answer]
  cases w.env.embed (w.tick + 1) (committedContent eng turn) with
  | error e =>
      change ∃ fate w', (Except.ok (acc.fail turn "embed" (.store e)), (w.withIssued id).next) =
        _ ∧ _
      rw [← acc.add_failed turn id]
      refine ⟨_, _, rfl, rfl, ?_, fun _ _ _ _ h => (by cases h), fun _ => absent⟩
      exact .failed new (w.withIssued id).next rfl rfl same _ _
  | ok vec =>
      change ∃ fate w', run (store (.insertVector (vectorIdFromUlid id) vec) >>= _) _ = _ ∧ _
      rw [run_store_bind]
      obtain ⟨store, inserted⟩ :=
        execStore_insertVector_unused (w := (w.withIssued id).next) vec unused
      rcases inserted with ⟨accepted, live, intact⟩ | ⟨e, refused, gone⟩
      · let w₁ := (w.withIssued id).next.withStore
          ((w.withIssued id).next.execStore (.insertVector (vectorIdFromUlid id) vec)).2
        obtain ⟨fate, w', rfl, ran, issued, turned, one⟩ := run_writeTurn eng sessionId
          interaction now turn (w := w₁) cleans new live acc
        rw [accepted]
        refine ⟨fate, w', ran, issued, turned.after w₁ rfl rfl store,
          fun _ vec' e writes same _ fault => ?_, fun _ => one⟩
        cases same
        exact absurd fault (intact e writes)
      · rw [refused]
        change ∃ fate w', (Except.ok (acc.fail turn "insert_vector" e.toMemory),
          (w.withIssued id).next.withStore ((w.withIssued id).next.execStore
            (.insertVector (vectorIdFromUlid id) vec)).2) = _ ∧ _
        rw [← acc.add_failed turn id]
        refine ⟨_, _, rfl, rfl, ?_, gone.trans
          ⟨fun early vec' e writes same fits fault => ?_, fun early fits e n fault => ?_⟩⟩
        · exact .failed new ((w.withIssued id).next.withStore _) rfl rfl store _ _
        · cases same
          exact early fits e writes fault
        · exact early vec e n rfl fits fault

end Turn

/-! ### All turns -/

omit [JsonText F] in
theorem issued_suffix {α : Type} (p : EngineM F α) (w : World F) :
    w.issued <:+ (run p w).2.issued := by
  induction p generalizing w with
  | done a => exact List.suffix_rfl
  | fail e => exact List.suffix_rfl
  | request r next ih =>
      have first : w.issued <:+ (w.exec r).2.issued := by
        cases r with
        | newUlid => exact List.suffix_cons _ _
        | acquire lock => cases lock <;> exact List.suffix_rfl
        | release lock => cases lock <;> exact List.suffix_rfl
        | _ => exact List.suffix_rfl
      exact first.trans (ih _ _)

section Fresh

variable {w w₁ w' : World F} {id : String}

omit [FloatArith F] [JsonText F] in
theorem FreshVectors.unused (fresh : FreshVectors w w') (handed : id :: w.issued <:+ w'.issued) :
    w.store.vecTree.find? (vectorIdFromUlid id) = none := by
  obtain ⟨ids, issued⟩ := handed
  refine (fresh (ids ++ [id]) ?_).2 id (List.mem_append_right _ List.mem_cons_self)
  rw [← issued, List.append_assoc]
  rfl

omit [FloatArith F] [JsonText F] in
/-- The ids handed out after `id` have other vector ids. -/
theorem FreshVectors.other (fresh : FreshVectors w w') (issued : w₁.issued = id :: w.issued)
    {ids : List String} (handed : w'.issued = ids ++ w₁.issued) :
    (ids.map vectorIdFromUlid).Nodup ∧ vectorIdFromUlid id ∉ ids.map vectorIdFromUlid ∧
      ∀ i ∈ ids, w.store.vecTree.find? (vectorIdFromUlid i) = none := by
  have split : w'.issued = (ids ++ [id]) ++ w.issued := by
    rw [handed, issued, List.append_assoc]
    rfl
  obtain ⟨nodup, unused⟩ := fresh _ split
  rw [List.map_append, List.nodup_append] at nodup
  obtain ⟨nodup, -, apart⟩ := nodup
  refine ⟨nodup, fun mem => ?_, fun i mem => unused i (List.mem_append_left _ mem)⟩
  exact apart _ mem _ (List.mem_singleton.mpr rfl) rfl

omit [FloatArith F] [JsonText F] in
theorem FreshVectors.tail (fresh : FreshVectors w w') (issued : w₁.issued = id :: w.issued)
    (same : w.store.SameBut (vectorIdFromUlid id) w₁.store) : FreshVectors w₁ w' := by
  intro ids handed
  obtain ⟨nodup, apart, unused⟩ := fresh.other issued handed
  refine ⟨nodup, fun i mem => ?_⟩
  have differs : vectorIdFromUlid i ≠ vectorIdFromUlid id := fun eq =>
    apart (eq ▸ List.mem_map_of_mem mem)
  exact (same.written _ differs).trans (unused i mem)

end Fresh

omit [FloatArith F] [JsonText F] in
theorem TurnFate.oneVector_congr {s s' : LocalStore F} {fate : TurnFate}
    (same : s'.getVector (vectorIdFromUlid fate.id) = s.getVector (vectorIdFromUlid fate.id)) :
    fate.OneVector s' ↔ fate.OneVector s := by
  cases fate with
  | committed id =>
      change (∃ vec, s'.getVector (vectorIdFromUlid id) = _) ↔ ∃ vec, s.getVector _ = _
      rw [show s'.getVector (vectorIdFromUlid id) = _ from same]
      rfl
  | failed id failure =>
      change s'.getVector (vectorIdFromUlid id) = none ↔ _
      rw [show s'.getVector (vectorIdFromUlid id) = _ from same]
      rfl

theorem CommitOutcome.foldl_add (fates : List TurnFate) : ∀ acc : CommitOutcome,
    (fates.foldl CommitOutcome.add acc).memoryIds =
        acc.memoryIds ++ fates.filterMap TurnFate.memoryId? ∧
      (fates.foldl CommitOutcome.add acc).failedTurns =
        acc.failedTurns ++ fates.filterMap TurnFate.failure? := by
  induction fates with
  | nil => exact fun acc => ⟨(List.append_nil _).symm, (List.append_nil _).symm⟩
  | cons fate rest ih =>
      intro acc
      obtain ⟨ids, failures⟩ := ih (acc.add fate)
      rw [List.foldl_cons, ids, failures]
      cases fate with
      | committed id =>
          simp [CommitOutcome.add, TurnFate.memoryId?, TurnFate.failure?, List.filterMap_cons]
      | failed id failure =>
          simp [CommitOutcome.add, TurnFate.memoryId?, TurnFate.failure?, List.filterMap_cons]

section Turns

variable {eng : MemoryEngine} {sessionId : String} {interaction : Interaction} {now : Nat}

omit [JsonText F] in
theorem TurnFate.Settled.congr {db db' : Db F} {turn : Turn} {fate : TurnFate}
    (same : db'.getMemory fate.id = db.getMemory fate.id)
    (settled : fate.Settled eng sessionId interaction now db turn) :
    fate.Settled eng sessionId interaction now db' turn := by
  cases fate with
  | committed id =>
      obtain ⟨entities, pending, row⟩ := settled
      exact ⟨entities, pending, same.trans row⟩
  | failed id failure => exact ⟨settled.1, same.trans settled.2⟩

omit [JsonText F] in
/-- Whether the turns left the vectors they should can be read off the ids they were handed. -/
theorem oneVector_iff {db : Db F} {turns : List Turn} {fates : List TurnFate} (s : LocalStore F)
    (settled : List.Forall₂ (fun turn fate => fate.Settled eng sessionId interaction now db turn)
      turns fates) : (∀ fate ∈ fates, fate.OneVector s) ↔ ∀ id ∈ fates.map TurnFate.id,
        ((s.getVector (vectorIdFromUlid id)).isSome ↔ (db.getMemory id).isSome) := by
  induction settled with
  | nil => simp
  | @cons turn fate turns fates first rest ih =>
      rw [List.map_cons, List.forall_mem_cons, List.forall_mem_cons, ih]
      refine and_congr_left fun _ => ?_
      cases fate with
      | committed id =>
          obtain ⟨entities, pending, row⟩ := first
          simp [TurnFate.OneVector, TurnFate.id, row, Option.isSome_iff_exists]
      | failed id failure =>
          simp [TurnFate.OneVector, TurnFate.id, first.2]

/-- From `w` to `w'` the turns met their fates, apart from their vectors. -/
structure TurnsRun (eng : MemoryEngine) (sessionId : String) (interaction : Interaction) (now : Nat)
    (turns : List Turn) (fates : List TurnFate) (w w' : World F) : Prop where
  env : w'.env = w.env
  handed : w'.issued = (fates.map TurnFate.id).reverse ++ w.issued
  settled : List.Forall₂ (fun turn fate => fate.Settled eng sessionId interaction now w'.db turn)
    turns fates
  rows : ∀ i, i ∉ fates.map TurnFate.id → w'.db.getMemory i = w.db.getMemory i
  vectors : ∀ v, v ∉ fates.map (fun fate => vectorIdFromUlid fate.id) →
    w'.store.getVector v = w.store.getVector v
  wops : ∃ entries, w'.db.wopLog = w.db.wopLog ++ entries ∧
    List.Forall₂ (CommitLogged F) (fates.filterMap TurnFate.memoryId?) entries

/-- What a turn left stays while the turns after it have other ids and vectors. -/
theorem TurnsRun.cons {turn : Turn} {rest : List Turn} {fate : TurnFate} {fates : List TurnFate}
    {w w₁ w' : World F} (first : TurnRun eng sessionId interaction now turn fate w w₁)
    (issued : w₁.issued = fate.id :: w.issued)
    (others : TurnsRun eng sessionId interaction now rest fates w₁ w')
    (apart : vectorIdFromUlid fate.id ∉ fates.map fun fate => vectorIdFromUlid fate.id) :
    TurnsRun eng sessionId interaction now (turn :: rest) (fate :: fates) w w' := by
  have distinct : fate.id ∉ fates.map TurnFate.id := by
    intro mem
    obtain ⟨fate', mem', same⟩ := List.mem_map.mp mem
    exact apart (List.mem_map.mpr ⟨fate', mem', congrArg vectorIdFromUlid same⟩)
  refine ⟨others.env.trans first.env, ?_, .cons (first.settled.congr (others.rows _ distinct))
    others.settled, fun i outside => ?_, fun v outside => ?_, ?_⟩
  · rw [others.handed, issued, List.map_cons, List.reverse_cons, List.append_assoc]
    rfl
  · rw [List.map_cons, List.mem_cons, not_or] at outside
    exact (others.rows i outside.2).trans (first.rows i outside.1)
  · rw [List.map_cons, List.mem_cons, not_or] at outside
    exact (others.vectors v outside.2).trans (first.vectors.live v outside.1)
  · obtain ⟨entries, log, logged⟩ := first.wops
    obtain ⟨entries', log', logged'⟩ := others.wops
    refine ⟨entries ++ entries', by rw [log', log, List.append_assoc], ?_⟩
    have ids : (fate :: fates).filterMap TurnFate.memoryId? =
        fate.memoryId?.toList ++ fates.filterMap TurnFate.memoryId? := by
      cases fate <;> rfl
    rw [ids]
    exact List.rel_append logged logged'

/-- The turns of an interaction, one after the other. -/
theorem run_commitTurns (turns : List Turn) : ∀ (acc : CommitOutcome) (w : World F),
    (∀ t v, w.env.storeFault t (.deleteVector v) = none) →
    FreshVectors w (run (turns.foldlM (commitTurn eng sessionId interaction now) acc) w).2 →
    ∃ fates w', run (turns.foldlM (commitTurn eng sessionId interaction now) acc) w =
        (.ok (fates.foldl CommitOutcome.add acc), w') ∧
      TurnsRun eng sessionId interaction now turns fates w w' ∧
      ((∀ fate ∈ fates, fate.OneVector w'.store) ↔
        AllInsertWhole eng sessionId interaction now turns acc w) := by
  induction turns with
  | nil =>
      intro acc w _ _
      refine ⟨[], w, rfl, ⟨rfl, rfl, .nil, fun _ _ => rfl, fun _ _ => rfl, [], ?_, .nil⟩, ?_⟩
      · exact (List.append_nil _).symm
      · exact ⟨fun _ => trivial, fun _ _ mem => (by cases mem)⟩
  | cons turn rest ih =>
      intro acc w cleans fresh
      rw [List.foldlM_cons] at fresh ⊢
      have unused :
          w.store.vecTree.find? (vectorIdFromUlid (w.env.ulid w.tick w.taken).1) = none := by
        refine fresh.unused ?_
        rw [commitTurn_eq, bind_assoc, run_newUlid_bind]
        exact issued_suffix _ (w.withIssued (w.env.ulid w.tick w.taken).1)
      obtain ⟨fate, w₁, ran, issued, turned, one⟩ :=
        run_commitTurn eng sessionId interaction now turn cleans unused acc
      rw [run_bind_ok ran] at fresh ⊢
      obtain ⟨fates, w', others, settled, whole⟩ := ih (acc.add fate) w₁ (turned.env ▸ cleans)
        (fresh.tail issued turned.vectors)
      rw [others] at fresh
      have apart : vectorIdFromUlid fate.id ∉ fates.map fun fate => vectorIdFromUlid fate.id := by
        have differs := (fresh.other issued settled.handed).2.1
        intro mem
        refine differs ?_
        rw [List.map_reverse, List.mem_reverse, List.map_map]
        exact mem
      refine ⟨fate :: fates, w', others, settled.cons turned issued apart, ?_⟩
      have stays := TurnFate.oneVector_congr (settled.vectors _ apart)
      rw [List.forall_mem_cons, stays, one, whole]
      refine and_congr_right fun _ => ⟨fun all acc' w'' ran' => ?_, fun all => all _ _ ran⟩
      rw [ran] at ran'
      cases ran'
      exact all

end Turns

/-! ### A whole commit -/

omit [FloatArith F] [JsonText F] in
theorem appendAudit_keeps (w : World F) («at» : Nat) (actor action target detail : String) :
    (w.execPersist (.appendAudit «at» actor action target detail)).2.memoryItem = w.db.memoryItem ∧
      (w.execPersist (.appendAudit «at» actor action target detail)).2.wopLog = w.db.wopLog := by
  rcases w.execPersist_cases (.appendAudit «at» actor action target detail) with
    done | ⟨e, n, failed⟩
  · rw [done]
    exact ⟨rfl, rfl⟩
  · rw [failed]
    exact ⟨rfl, rfl⟩

/-- `commit_inner` answers, with every turn committed or failed as a whole, exactly when
every insertion that fails, fails before it has written its vector. -/
theorem commit_settles_each_turn_iff (eng : MemoryEngine) (sessionId : String)
    (interaction : Interaction) {w : World F}
    (fresh : FreshVectors w (run (commitInner eng sessionId interaction) w).2)
    (cleans : ∀ t v, w.env.storeFault t (.deleteVector v) = none) :
    (∃ outcome fates, (run (commitInner eng sessionId interaction) w).1 = .ok outcome ∧
      SettlesEachTurn eng sessionId interaction w (run (commitInner eng sessionId interaction) w).2
        outcome fates) ↔
    AllInsertWhole eng sessionId interaction (w.env.clock w.tick) interaction.turns ⟨[], []⟩
      w.next := by
  have later : (run (commitInner eng sessionId interaction) w).2.issued =
      (run (interaction.turns.foldlM (commitTurn eng sessionId interaction (w.env.clock w.tick))
        ⟨[], []⟩) w.next).2.issued := by
    unfold commitInner
    rw [run_nowMs_bind]
    cases ran : run (interaction.turns.foldlM (commitTurn eng sessionId interaction
        (w.env.clock w.tick)) ⟨[], []⟩) w.next with
    | mk result w₁ =>
        cases result with
        | ok outcome => rw [run_bind_ok ran]; rfl
        | error e => rw [run_bind_error ran]
  obtain ⟨fates, w₁, ran, settled, whole⟩ := run_commitTurns interaction.turns ⟨[], []⟩ w.next
    cleans fun ids issued => fresh ids (later.trans issued)
  have audited : run (commitInner eng sessionId interaction) w =
      (.ok (fates.foldl CommitOutcome.add ⟨[], []⟩), w₁.withDb (w₁.execPersist (.appendAudit
        (w.env.clock w.tick) sessionId "commit" interaction.id ("turns=" ++
          toString interaction.turns.length ++ " committed=" ++
            toString (fates.foldl CommitOutcome.add ⟨[], []⟩).memoryIds.length ++ " failed=" ++
              toString (fates.foldl CommitOutcome.add ⟨[], []⟩).failedTurns.length))).2) := by
    unfold commitInner
    rw [run_nowMs_bind, run_bind_ok ran, run_persist_bind]
    rfl
  obtain ⟨rows, log⟩ := appendAudit_keeps w₁ (w.env.clock w.tick) sessionId "commit" interaction.id
    ("turns=" ++ toString interaction.turns.length ++ " committed=" ++
      toString (fates.foldl CommitOutcome.add ⟨[], []⟩).memoryIds.length ++ " failed=" ++
        toString (fates.foldl CommitOutcome.add ⟨[], []⟩).failedTurns.length)
  rw [audited]
  generalize (w₁.execPersist _).2 = db at rows log ⊢
  have kept : ∀ i, db.getMemory i = w₁.db.getMemory i := fun i => congrArg (Table.find? · i) rows
  rw [← whole, oneVector_iff w₁.store settled.settled]
  constructor
  · rintro ⟨outcome, fates', ok, settles⟩
    have handed : (fates'.map TurnFate.id).reverse ++ w.issued =
        (fates.map TurnFate.id).reverse ++ w.issued := settles.handed.symm.trans settled.handed
    have ids := List.reverse_injective (List.append_cancel_right handed)
    intro id mem
    rw [← kept]
    exact (oneVector_iff w₁.store settles.turns).mp settles.vectors id (ids ▸ mem)
  · intro vectors
    obtain ⟨ids, failures⟩ := CommitOutcome.foldl_add fates ⟨[], []⟩
    obtain ⟨entries, logged, each⟩ := settled.wops
    refine ⟨_, fates, rfl, settled.handed, ?_,
      (oneVector_iff w₁.store settled.settled).mpr vectors, ids, failures,
      ⟨entries, log.trans logged, ?_⟩, fun i outside => (kept i).trans (settled.rows i outside),
      settled.vectors⟩
    · exact settled.settled.imp fun turn fate settled => settled.congr (kept fate.id)
    · rw [ids]
      exact each

/-! ### A vector that is left behind -/

/-- The index is out of order: an insertion fails after it has written the vector. -/
def brokenIndex : Env Fixed :=
  { (Env.quiet : Env Fixed) with
    storeFault := fun _ op => match op with
      | .insertVector _ _ => some (.hnsw "hnsw lock poisoned", 2)
      | _ => none }

def greeting : Interaction := ⟨"ix", "s", "a", "", "", [⟨0, "hello", "hi", []⟩]⟩

def emptyWorld (env : Env Fixed) : World Fixed := World.fresh env .empty (.empty 0)

/-- The row of a second turn cannot be written. -/
def secondRefused : Env Fixed :=
  { (Env.quiet : Env Fixed) with
    persistFault := fun _ op => match op with
      | .putMemoryWithWop item _ _ _ => if item.turnIdx = 1 then some (.poisoned, 1) else none
      | _ => none }

def greetingTwice : Interaction :=
  ⟨"ix", "s", "a", "", "", [⟨0, "hello", "hi", []⟩, ⟨1, "how are you", "fine", []⟩]⟩

/-- One turn is committed; the other is taken back with its vector. -/
theorem commit_settles_each_turn_iff_secondRefused : ∃ outcome fates,
    (run (commitInner (plainEngine "a") "s" greetingTwice) (emptyWorld secondRefused)).1 = .ok outcome ∧
      outcome.memoryIds.length = 1 ∧ outcome.failedTurns.length = 1 ∧
      SettlesEachTurn (plainEngine "a") "s" greetingTwice (emptyWorld secondRefused)
        (run (commitInner (plainEngine "a") "s" greetingTwice) (emptyWorld secondRefused)).2
        outcome fates := by
  have issued : (run (commitInner (plainEngine "a") "s" greetingTwice)
      (emptyWorld secondRefused)).2.issued = ["xxx", "x"] := by decide +kernel
  have insertsWhole : ∀ (turn : Turn) (w : World Fixed), w.env = secondRefused →
      InsertsWhole (plainEngine "a") turn w := by
    intro turn w env vec e writes _ _ fault
    rw [env] at fault
    cases fault
  have whole : AllInsertWhole (plainEngine "a") "s" greetingTwice
      ((emptyWorld secondRefused).env.clock (emptyWorld secondRefused).tick) greetingTwice.turns ⟨[], []⟩
      (emptyWorld secondRefused).next := by
    refine ⟨insertsWhole _ _ rfl, fun acc' w' ran => ⟨insertsWhole _ _ ?_, fun _ _ _ => trivial⟩⟩
    have end' : w' = (run (commitTurn (plainEngine "a") "s" greetingTwice
      ((emptyWorld secondRefused).env.clock (emptyWorld secondRefused).tick) ⟨[], []⟩
      ⟨0, "hello", "hi", []⟩) (emptyWorld secondRefused).next).2 := by rw [ran]
    rw [end']
    rfl
  have counted : ((run (commitInner (plainEngine "a") "s" greetingTwice) (emptyWorld secondRefused)).1.map
      fun outcome => (outcome.memoryIds.length, outcome.failedTurns.length)) = .ok (1, 1) := by
    decide +kernel
  have fresh : FreshVectors (emptyWorld secondRefused)
      (run (commitInner (plainEngine "a") "s" greetingTwice) (emptyWorld secondRefused)).2 := by
    intro ids handed
    rw [issued] at handed
    obtain rfl : ids = ["xxx", "x"] := (handed.trans (List.append_nil ids)).symm
    exact ⟨by decide +kernel, fun _ _ => rfl⟩
  obtain ⟨outcome, fates, ran, settles⟩ :=
    (commit_settles_each_turn_iff (plainEngine "a") "s" greetingTwice fresh fun _ _ => rfl).mpr whole
  rw [ran] at counted
  obtain ⟨committed, failed⟩ := Prod.mk.inj (Except.ok.inj counted)
  exact ⟨outcome, fates, ran, committed, failed, settles⟩

/-- A turn that failed leaves its vector in the store. -/
theorem failed_turn_leaves_vector : ¬ ∃ outcome fates,
    (run (commitInner (plainEngine "a") "s" greeting) (emptyWorld brokenIndex)).1 = .ok outcome ∧
      SettlesEachTurn (plainEngine "a") "s" greeting (emptyWorld brokenIndex)
        (run (commitInner (plainEngine "a") "s" greeting) (emptyWorld brokenIndex)).2
        outcome fates := by
  rintro ⟨outcome, fates, -, settles⟩
  have issued : (run (commitInner (plainEngine "a") "s" greeting)
      (emptyWorld brokenIndex)).2.issued = ["x"] := by decide +kernel
  have row : (run (commitInner (plainEngine "a") "s" greeting)
      (emptyWorld brokenIndex)).2.db.getMemory "x" = none := by decide +kernel
  have vector : ((run (commitInner (plainEngine "a") "s" greeting)
      (emptyWorld brokenIndex)).2.store.getVector (vectorIdFromUlid "x")).isSome = true := by
    decide +kernel
  have handed : "x" ∈ fates.map TurnFate.id := by
    have all : ["x"] = (fates.map TurnFate.id).reverse ++ [] := issued.symm.trans settles.handed
    rw [List.append_nil] at all
    exact List.mem_reverse.mp (all ▸ List.mem_singleton.mpr rfl)
  have written := ((oneVector_iff _ settles.turns).mp settles.vectors "x" handed).mp vector
  rw [row] at written
  cases written

end FusionMemory
