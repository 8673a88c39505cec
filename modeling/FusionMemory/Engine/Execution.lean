import FusionMemory.Engine.Environment
import Mathlib.Algebra.Order.BigOperators.Group.List
import Mathlib.Algebra.Order.Group.Nat

/-!
Running engine programs.

Each lemma below runs one call and names what is left: the reply and the world in
which the rest of the program continues. A method run to its end is then a chain of
these steps. `NoFaults` is an environment whose storage never fails, and
`Env.quiet` a concrete one, in which nothing outside the engine says anything.
-/

namespace FusionMemory

open Lib

variable {F : Type} [FloatArith F] {α β : Type}

/-- Run a method on a world. -/
abbrev run (p : EngineM F α) (w : World F) : Except MemoryError α × World F :=
  Program.run (machine F) p w

theorem run_bind_ok {p : EngineM F α} {k : α → EngineM F β} {w w' : World F} {a : α}
    (h : run p w = (.ok a, w')) : run (p >>= k) w = run (k a) w' := Program.run_bind_ok _ h

theorem run_bind_error {p : EngineM F α} {k : α → EngineM F β} {w w' : World F} {e : MemoryError}
    (h : run p w = (.error e, w')) : run (p >>= k) w = (.error e, w') := Program.run_bind_error _ h

theorem run_bind_eq_ok {p : EngineM F α} {k : α → EngineM F β} {w w' : World F} {b : β}
    (h : run (p >>= k) w = (.ok b, w')) :
    ∃ a w₁, run p w = (.ok a, w₁) ∧ run (k a) w₁ = (.ok b, w') := Program.run_bind_eq_ok _ h

theorem run_mapM_eq_ok {f : α → EngineM F β} {I : World F → Prop} {R : α → β → Prop}
    (step : ∀ a w b w', I w → run (f a) w = (.ok b, w') → I w' ∧ R a b) {xs : List α}
    {ys : List β} {w w' : World F} (inv : I w) (h : run (xs.mapM f) w = (.ok ys, w')) :
    I w' ∧ ∀ b ∈ ys, ∃ a ∈ xs, R a b := Program.run_mapM_eq_ok _ step xs ys w w' inv h

theorem run_mapM_forall₂ {f : α → EngineM F β} {I : World F → Prop} {R : α → β → Prop}
    (step : ∀ a w b w', I w → run (f a) w = (.ok b, w') → I w' ∧ R a b) {xs : List α}
    {ys : List β} {w w' : World F} (inv : I w) (h : run (xs.mapM f) w = (.ok ys, w')) :
    I w' ∧ List.Forall₂ R xs ys := Program.run_mapM_forall₂ _ step xs ys w w' inv h

theorem run_mapM_ok {f : α → EngineM F β} {g : α → β} {I : World F → Prop}
    (step : ∀ a w, I w → ∃ w', run (f a) w = (.ok (g a), w') ∧ I w') (xs : List α) {w : World F}
    (inv : I w) : ∃ w', run (xs.mapM f) w = (.ok (xs.map g), w') ∧ I w' :=
  Program.run_mapM_ok _ step xs w inv

theorem run_mapM_exists {f : α → EngineM F β} {I : World F → Prop}
    (step : ∀ a w, I w → ∃ b w', run (f a) w = (.ok b, w') ∧ I w') (xs : List α) {w : World F}
    (inv : I w) : ∃ ys w', run (xs.mapM f) w = (.ok ys, w') ∧ I w' :=
  Program.run_mapM_exists _ step xs w inv

theorem run_bind_rel {R : World F → World F → Prop}
    (trans : ∀ {w w' w''}, R w w' → R w' w'' → R w w'') {p : EngineM F α} {k : α → EngineM F β}
    {w : World F} (first : R w (run p w).2)
    (rest : ∀ a w', run p w = (.ok a, w') → R w' (run (k a) w').2) : R w (run (p >>= k) w).2 :=
  Program.run_bind_rel (R := R) _ trans first rest

theorem run_foldlM_rel {R : World F → World F → Prop} (refl : ∀ w, R w w)
    (trans : ∀ {w w' w''}, R w w' → R w' w'' → R w w'') {f : α → β → EngineM F α} (xs : List β)
    (step : ∀ b ∈ xs, ∀ acc w, R w (run (f acc b) w).2) (acc : α) (w : World F) :
    R w (run (xs.foldlM f acc) w).2 := Program.run_foldlM_rel (R := R) _ refl trans xs step acc w

/-! ### The worlds after a call -/

namespace World

/-- The clock ticks. -/
def next (w : World F) : World F := { w with tick := w.tick + 1 }

def withDb (w : World F) (db : Db F) : World F := { w.next with db := db }

def withStore (w : World F) (s : LocalStore F) : World F := { w.next with store := s }

def withIssued (w : World F) (id : String) : World F := { w.next with issued := id :: w.issued }

section Fields

variable (w : World F) (db : Db F) (s : LocalStore F) (id : String) (b : Bool) (l : Lock)

omit [FloatArith F]

@[simp] theorem next_env : w.next.env = w.env := rfl
@[simp] theorem next_db : w.next.db = w.db := rfl
@[simp] theorem next_store : w.next.store = w.store := rfl
@[simp] theorem next_issued : w.next.issued = w.issued := rfl
@[simp] theorem withDb_env : (w.withDb db).env = w.env := rfl
@[simp] theorem withDb_db : (w.withDb db).db = db := rfl
@[simp] theorem withDb_store : (w.withDb db).store = w.store := rfl
@[simp] theorem withDb_issued : (w.withDb db).issued = w.issued := rfl
@[simp] theorem withStore_env : (w.withStore s).env = w.env := rfl
@[simp] theorem withStore_db : (w.withStore s).db = w.db := rfl
@[simp] theorem withStore_store : (w.withStore s).store = s := rfl
@[simp] theorem withStore_issued : (w.withStore s).issued = w.issued := rfl
@[simp] theorem withIssued_env : (w.withIssued id).env = w.env := rfl
@[simp] theorem withIssued_db : (w.withIssued id).db = w.db := rfl
@[simp] theorem withIssued_store : (w.withIssued id).store = w.store := rfl
@[simp] theorem withIssued_issued : (w.withIssued id).issued = id :: w.issued := rfl
@[simp] theorem setHeld_env : (w.setHeld b l).env = w.env := by cases l <;> rfl
@[simp] theorem setHeld_db : (w.setHeld b l).db = w.db := by cases l <;> rfl
@[simp] theorem setHeld_store : (w.setHeld b l).store = w.store := by cases l <;> rfl
@[simp] theorem setHeld_issued : (w.setHeld b l).issued = w.issued := by cases l <;> rfl

end Fields

end World

/-- Worlds that differ in their clocks at most. -/
structure World.Alike (w w' : World F) : Prop where
  env : w'.env = w.env
  db : w'.db = w.db
  store : w'.store = w.store

omit [FloatArith F] in
theorem World.Alike.refl (w : World F) : w.Alike w := ⟨rfl, rfl, rfl⟩

omit [FloatArith F] in
theorem World.Alike.trans {w w' w'' : World F} (first : w.Alike w') (last : w'.Alike w'') :
    w.Alike w'' :=
  ⟨last.env.trans first.env, last.db.trans first.db, last.store.trans first.store⟩

/-! ### One call at a time -/

section Calls

variable (w : World F)

@[simp] theorem run_nowMs_bind (k : Nat → EngineM F β) :
    run (nowMs >>= k) w = run (k (w.env.clock w.tick)) w.next := rfl

@[simp] theorem run_newUlid_bind (k : String → EngineM F β) :
    run (newUlid >>= k) w =
      run (k (w.env.ulid w.tick w.taken).1) (w.withIssued (w.env.ulid w.tick w.taken).1) := rfl

@[simp] theorem run_embed_bind (text : String) (k : Except MemoryError (List F) → EngineM F β) :
    run (embed text >>= k) w = run (k ((w.env.embed w.tick text).mapError .store)) w.next := rfl

@[simp] theorem run_extract_bind (text : String) (k : ExtractResult → EngineM F β) :
    run (extract text >>= k) w = run (k (w.env.extract w.tick text)) w.next := rfl

@[simp] theorem run_chatCompletion_bind (system user : String) (k : Option String → EngineM F β) :
    run (chatCompletion system user >>= k) w = run (k (w.env.chat w.tick system user)) w.next := rfl

@[simp] theorem run_iterationOrder_bind (keys : List String) (k : List String → EngineM F β) :
    run (iterationOrder keys >>= k) w = run (k (w.env.order w.tick keys).1) w.next := rfl

@[simp] theorem run_loadStaleFlag_bind (k : Bool → EngineM F β) :
    run (loadStaleFlag >>= k) w = run (k w.staleFlag) w.next := rfl

@[simp] theorem run_loadLastSyncAt_bind (k : Nat → EngineM F β) :
    run (loadLastSyncAt >>= k) w = run (k w.lastSyncAt) w.next := rfl

@[simp] theorem run_acquire_bind (l : Lock) (k : Unit → EngineM F β) :
    run (acquire l >>= k) w = run (k ()) (w.next.setHeld true l) := by
  cases l <;> rfl

@[simp] theorem run_release_bind (l : Lock) (k : Unit → EngineM F β) :
    run (release l >>= k) w = run (k ()) (w.next.setHeld false l) := by
  cases l <;> rfl

@[simp] theorem run_persist_bind (op : PersistOp F)
    (k : Except PersistError op.Value → EngineM F β) :
    run (persist op >>= k) w = run (k (w.execPersist op).1) (w.withDb (w.execPersist op).2) := rfl

@[simp] theorem run_store_bind (op : StoreOp F) (k : Except MemoryError op.Value → EngineM F β) :
    run (store op >>= k) w =
      run (k ((w.execStore op).1.mapError StoreError.toMemory)) (w.withStore (w.execStore op).2) :=
  rfl

theorem run_persistOrFail (op : PersistOp F) :
    run (persistOrFail op) w =
      ((w.execPersist op).1.mapError PersistError.toMemory, w.withDb (w.execPersist op).2) := by
  unfold persistOrFail
  rw [run_persist_bind]
  cases (w.execPersist op).1 <;> rfl

theorem run_storeOrFail (op : StoreOp F) :
    run (storeOrFail op) w =
      ((w.execStore op).1.mapError StoreError.toMemory, w.withStore (w.execStore op).2) := by
  unfold storeOrFail
  rw [run_store_bind]
  cases (w.execStore op).1 <;> rfl

theorem run_persistOrFail_bind (op : PersistOp F) (k : op.Value → EngineM F β) :
    run (persistOrFail op >>= k) w =
      match (w.execPersist op).1 with
      | .ok a => run (k a) (w.withDb (w.execPersist op).2)
      | .error e => (.error e.toMemory, w.withDb (w.execPersist op).2) := by
  unfold persistOrFail
  rw [bind_assoc, run_persist_bind]
  cases (w.execPersist op).1 <;> rfl

theorem run_storeOrFail_bind (op : StoreOp F) (k : op.Value → EngineM F β) :
    run (storeOrFail op >>= k) w =
      match (w.execStore op).1 with
      | .ok a => run (k a) (w.withStore (w.execStore op).2)
      | .error e => (.error e.toMemory, w.withStore (w.execStore op).2) := by
  unfold storeOrFail
  rw [bind_assoc, run_store_bind]
  cases (w.execStore op).1 <;> rfl

end Calls

/-! ### Storage that does not fail -/

namespace Env

/-- No call of the database or of the store fails. -/
structure NoFaults (env : Env F) : Prop where
  persist : ∀ t op, env.persistFault t op = none
  store : ∀ t op, env.storeFault t op = none

/-- An id longer than every taken one. -/
def freshId (taken : List String) : String :=
  String.ofList (List.replicate ((taken.map String.length).sum + 1) 'x')

theorem freshId_notMem (taken : List String) : freshId taken ∉ taken := by
  intro mem
  have le : (freshId taken).length ≤ (taken.map String.length).sum :=
    List.single_le_sum (fun _ _ => Nat.zero_le _) _ (List.mem_map.mpr ⟨_, mem, rfl⟩)
  simp only [freshId, String.length_ofList, List.length_replicate] at le
  omega

theorem freshId_noTab (taken : List String) : '\t' ∉ (freshId taken).toList := by
  simp [freshId]

/-- An environment whose storage never fails and in which the clock stands still. -/
def quiet : Env F where
  clock _ := 0
  ulid _ taken := ⟨freshId taken, freshId_notMem taken, freshId_noTab taken⟩
  embed _ _ := .ok []
  extract _ _ := ⟨[], false⟩
  chat _ _ _ := none
  order _ keys := ⟨keys, .refl _⟩
  ann _ := ⟨fun _ _ _ => [], fun _ _ _ => ⟨Nat.zero_le _, fun _ h => by cases h⟩⟩
  persistFault _ _ := none
  storeFault _ _ := none

omit [FloatArith F] in
theorem quiet_noFaults : (quiet : Env F).NoFaults := ⟨fun _ _ => rfl, fun _ _ => rfl⟩

end Env

/-! ### Choosing the future

A run looks at its environment tick by tick, so what has run does not depend on what
the environment does later. -/

namespace Env

/-- Two environments answer alike at time `t`. -/
structure AgreesAt (env env' : Env F) (t : Nat) : Prop where
  clock : env.clock t = env'.clock t
  ulid : env.ulid t = env'.ulid t
  embed : env.embed t = env'.embed t
  extract : env.extract t = env'.extract t
  chat : env.chat t = env'.chat t
  order : env.order t = env'.order t
  ann : env.ann t = env'.ann t
  persistFault : env.persistFault t = env'.persistFault t
  storeFault : env.storeFault t = env'.storeFault t

/-- `env` before the tick `t`, `env'` from then on. -/
def upTo (env : Env F) (t : Nat) (env' : Env F) : Env F where
  clock t' := if t' < t then env.clock t' else env'.clock t'
  ulid t' := if t' < t then env.ulid t' else env'.ulid t'
  embed t' := if t' < t then env.embed t' else env'.embed t'
  extract t' := if t' < t then env.extract t' else env'.extract t'
  chat t' := if t' < t then env.chat t' else env'.chat t'
  order t' := if t' < t then env.order t' else env'.order t'
  ann t' := if t' < t then env.ann t' else env'.ann t'
  persistFault t' := if t' < t then env.persistFault t' else env'.persistFault t'
  storeFault t' := if t' < t then env.storeFault t' else env'.storeFault t'

omit [FloatArith F] in
theorem upTo_before (env env' : Env F) {t t' : Nat} (before : t' < t) :
    (env.upTo t env').AgreesAt env t' := by
  constructor <;> exact if_pos before

omit [FloatArith F] in
theorem upTo_after (env env' : Env F) {t t' : Nat} (after : t ≤ t') :
    (env.upTo t env').AgreesAt env' t' := by
  constructor <;> exact if_neg (Nat.not_lt.mpr after)

end Env

namespace World

def withEnv (w : World F) (env : Env F) : World F := { w with env := env }

section Fields

variable (w : World F) (env : Env F)

omit [FloatArith F]

@[simp] theorem withEnv_env : (w.withEnv env).env = env := rfl
@[simp] theorem withEnv_tick : (w.withEnv env).tick = w.tick := rfl
@[simp] theorem withEnv_db : (w.withEnv env).db = w.db := rfl
@[simp] theorem withEnv_store : (w.withEnv env).store = w.store := rfl
@[simp] theorem withEnv_issued : (w.withEnv env).issued = w.issued := rfl

end Fields

theorem exec_tick (r : Request F) (w : World F) : (w.exec r).2.tick = w.tick + 1 := by
  cases r <;> rfl

theorem exec_env (r : Request F) (w : World F) : (w.exec r).2.env = w.env := by
  cases r with
  | acquire lock => cases lock <;> rfl
  | release lock => cases lock <;> rfl
  | _ => rfl

theorem exec_withEnv {w : World F} {env : Env F} (agree : env.AgreesAt w.env w.tick)
    (r : Request F) : (w.withEnv env).exec r = ((w.exec r).1, (w.exec r).2.withEnv env) := by
  cases r with
  | nowMs => exact congrArg (·, _) agree.clock
  | newUlid =>
      have same : env.ulid w.tick w.taken = w.env.ulid w.tick w.taken := congrFun agree.ulid _
      simp only [exec, withEnv, taken] at same ⊢
      rw [same]
  | embed text => exact congrArg (·, _) (congrFun agree.embed text)
  | extract text => exact congrArg (·, _) (congrFun agree.extract text)
  | chatCompletion system user => exact congrArg (·, _) (congrFun (congrFun agree.chat system) user)
  | iterationOrder keys =>
      have same : env.order w.tick keys = w.env.order w.tick keys := congrFun agree.order _
      simp only [exec, withEnv]
      rw [same]
  | acquire lock => cases lock <;> rfl
  | release lock => cases lock <;> rfl
  | persist op =>
      have same : (w.withEnv env).execPersist op = w.execPersist op := by
        unfold execPersist
        rw [withEnv_env, withEnv_tick, agree.persistFault]
        rfl
      simp only [exec, same]
      rfl
  | store op =>
      have same : (w.withEnv env).execStore op = w.execStore op := by
        unfold execStore
        rw [withEnv_env, withEnv_tick, agree.storeFault, agree.ann]
        rfl
      simp only [exec, same]
      rfl
  | loadStaleFlag | loadLastSyncAt | storeStaleFlag _ | storeLastSyncAt _ => rfl

end World

theorem run_env (p : EngineM F α) (w : World F) : (run p w).2.env = w.env := by
  induction p generalizing w with
  | done a => rfl
  | fail e => rfl
  | request r next ih => exact (ih _ _).trans (w.exec_env r)

theorem run_tick_le (p : EngineM F α) (w : World F) : w.tick ≤ (run p w).2.tick := by
  induction p generalizing w with
  | done a => exact Nat.le_refl _
  | fail e => exact Nat.le_refl _
  | request r next ih =>
      have first := w.exec_tick r
      have rest := ih (w.exec r).1 (w.exec r).2
      exact Nat.le_trans (by omega) rest

/-- An environment that agrees while a program runs makes it run alike. -/
theorem run_withEnv {env : Env F} (p : EngineM F α) (w : World F)
    (agree : ∀ t, w.tick ≤ t → t < (run p w).2.tick → env.AgreesAt w.env t) :
    run p (w.withEnv env) = ((run p w).1, (run p w).2.withEnv env) := by
  induction p generalizing w with
  | done a => rfl
  | fail e => rfl
  | request r next ih =>
      have first := w.exec_tick r
      have env₁ := w.exec_env r
      have rest := run_tick_le (next (w.exec r).1) (w.exec r).2
      have here : env.AgreesAt w.env w.tick := agree w.tick (Nat.le_refl _) (by
        change _ < (run (next (w.exec r).1) (w.exec r).2).2.tick
        omega)
      change run (next ((w.withEnv env).exec r).1) ((w.withEnv env).exec r).2 = _
      rw [World.exec_withEnv here]
      refine ih _ (w.exec r).2 fun t lower upper => ?_
      rw [env₁]
      exact agree t (by omega) upper

/-- What has run stays, whatever the environment does afterwards. -/
theorem run_upTo {p : EngineM F α} {w w' : World F} {result : Except MemoryError α}
    (h : run p w = (result, w')) (env : Env F) :
    run p (w.withEnv (w.env.upTo w'.tick env)) = (result, w'.withEnv (w.env.upTo w'.tick env)) := by
  rw [run_withEnv p w, h]
  intro t _ upper
  rw [h] at upper
  exact Env.upTo_before _ _ upper

/-- After `p` has run, the environment may still do anything: the rest of the run is the
one in `env`. -/
theorem run_bind_upTo {p : EngineM F α} {w w' : World F} {a : α} (h : run p w = (.ok a, w'))
    (k : α → EngineM F β) (env : Env F) :
    run (p >>= k) (w.withEnv (w.env.upTo w'.tick env)) =
      ((run (k a) (w'.withEnv env)).1,
        (run (k a) (w'.withEnv env)).2.withEnv (w.env.upTo w'.tick env)) := by
  rw [run_bind_ok (run_upTo h env)]
  exact run_withEnv (k a) (w'.withEnv env) fun t lower _ => Env.upTo_after _ _ lower

/-- A lock changes no result, and of the state only the lock. -/
theorem run_withLock (l : Lock) (body : EngineM F α) (w : World F) :
    run (withLock l body) w = ((run body (w.next.setHeld true l)).1,
      (run body (w.next.setHeld true l)).2.next.setHeld false l) := by
  unfold withLock
  rw [run_acquire_bind, run_bind_ok (Program.run_attempt (machine F) body _), run_release_bind]
  cases (run body (w.next.setHeld true l)).1 <;> rfl

/-- A world at rest: no lock is held and no ULID was handed out. -/
def World.fresh (env : Env F) (db : Db F) (s : LocalStore F) : World F where
  env := env
  tick := 0
  db := db
  store := s
  issued := []
  consolidateHeld := false
  touchHeld := false
  staleFlag := false
  lastSyncAt := 0

namespace World

variable {w : World F}

omit [FloatArith F] in
theorem execPersist_eq (h : w.env.NoFaults) (op : PersistOp F) :
    w.execPersist op = op.exec w.db := by
  unfold execPersist
  rw [h.persist]

theorem execStore_eq (h : w.env.NoFaults) (op : StoreOp F) :
    w.execStore op = op.exec (w.env.ann w.tick).1 w.store := by
  unfold execStore
  rw [h.store]

omit [FloatArith F] in
theorem execPersist_works {op : PersistOp F} (works : w.env.persistFault w.tick op = none) :
    w.execPersist op = op.exec w.db := by
  unfold execPersist
  rw [works]

omit [FloatArith F] in
theorem execPersist_fault {op : PersistOp F} {fault : PersistError × Nat}
    (struck : w.env.persistFault w.tick op = some fault) :
    w.execPersist op = op.fails w.db fault.1 fault.2 := by
  unfold execPersist
  rw [struck]

theorem execStore_works {op : StoreOp F} (works : w.env.storeFault w.tick op = none) :
    w.execStore op = op.exec (w.env.ann w.tick).1 w.store := by
  unfold execStore
  rw [works]

theorem execStore_fault {op : StoreOp F} {fault : StoreError × Nat}
    (struck : w.env.storeFault w.tick op = some fault) :
    w.execStore op = op.fails w.store fault.1 fault.2 := by
  unfold execStore
  rw [struck]

omit [FloatArith F] in
/-- A call of the database either succeeds or fails. -/
theorem execPersist_cases (w : World F) (op : PersistOp F) :
    w.execPersist op = op.exec w.db ∨ ∃ e writes, w.execPersist op = op.fails w.db e writes := by
  unfold execPersist
  cases w.env.persistFault w.tick op with
  | none => exact .inl rfl
  | some fault => exact .inr ⟨fault.1, fault.2, rfl⟩

theorem execStore_cases (w : World F) (op : StoreOp F) :
    w.execStore op = op.exec (w.env.ann w.tick).1 w.store ∨
      ∃ e writes, w.execStore op = op.fails w.store e writes := by
  unfold execStore
  cases w.env.storeFault w.tick op with
  | none => exact .inl rfl
  | some fault => exact .inr ⟨fault.1, fault.2, rfl⟩

omit [FloatArith F] in
/-- A read leaves the database alone, and what it returns is what the database holds. -/
theorem execPersist_isRead (w : World F) {op : PersistOp F} (read : op.isRead = true) :
    (w.execPersist op).2 = w.db := by
  rcases w.execPersist_cases op with done | ⟨e, n, failed⟩
  · rw [done, PersistOp.exec_isRead read]
  · rw [failed, PersistOp.fails_isRead read]

omit [FloatArith F] in
theorem execPersist_isRead_ok {w : World F} {op : PersistOp F} (read : op.isRead = true)
    {a : op.Value} (h : (w.execPersist op).1 = .ok a) : (op.exec w.db).1 = .ok a := by
  rcases w.execPersist_cases op with done | ⟨e, n, failed⟩
  · rwa [done] at h
  · rw [failed] at h
    exact PersistOp.fails_isRead_ok read h

end World

/-- A call of the database that cannot fail. -/
theorem run_persist_works {w : World F} (works : w.env.NoFaults) (op : PersistOp F)
    (k : Except PersistError op.Value → EngineM F β) :
    run (persist op >>= k) w = run (k (op.exec w.db).1) (w.withDb (op.exec w.db).2) := by
  rw [run_persist_bind, World.execPersist_eq works]

/-- A call of the store that cannot fail. -/
theorem run_store_works {w : World F} (works : w.env.NoFaults) (op : StoreOp F)
    (k : Except MemoryError op.Value → EngineM F β) :
    run (store op >>= k) w =
      run (k ((op.exec (w.env.ann w.tick).1 w.store).1.mapError StoreError.toMemory))
        (w.withStore (op.exec (w.env.ann w.tick).1 w.store).2) := by
  rw [run_store_bind, World.execStore_eq works]

/-- A read that ends well returned what the database holds, and changed nothing. -/
theorem run_persistOrFail_read {op : PersistOp F} (read : op.isRead = true) {w w' : World F}
    {a : op.Value} (h : run (persistOrFail op) w = (.ok a, w')) :
    (op.exec w.db).1 = .ok a ∧ w' = w.withDb w.db := by
  rw [run_persistOrFail, w.execPersist_isRead read, Prod.mk.injEq] at h
  refine ⟨World.execPersist_isRead_ok read ?_, h.2.symm⟩
  cases reply : (w.execPersist op).1 with
  | error e => rw [reply] at h; cases h.1
  | ok b => rw [reply] at h; cases h.1; rfl

/-- A read changes nothing, and returns what the database holds if it returns. -/
theorem run_read (w : World F) (op : PersistOp F) (read : op.isRead = true) :
    ∃ reply, run (persistOrFail op) w = (reply, w.withDb w.db) ∧
      ∀ a, reply = .ok a → (op.exec w.db).1 = .ok a := by
  have ran := run_persistOrFail w op
  rw [w.execPersist_isRead read] at ran
  refine ⟨_, ran, fun a ok => ?_⟩
  rw [ok] at ran
  exact (run_persistOrFail_read read ran).1

/-- A search that ends well returned what the store finds, and changed nothing. -/
theorem run_searchKnn_eq_ok {query : List F} {k : Nat} {w w' : World F} {knn : List (Nat × F)}
    (h : run (storeOrFail (.searchKnn query k)) w = (.ok knn, w')) :
    w.store.searchKnn (w.env.ann w.tick).1 query k = .ok knn ∧ w' = w.withStore w.store := by
  rw [run_storeOrFail, Prod.mk.injEq] at h
  obtain ⟨reply, rfl⟩ := h
  rcases w.execStore_cases (.searchKnn query k) with done | ⟨e, n, failed⟩
  · rw [done] at reply ⊢
    refine ⟨?_, rfl⟩
    change (w.store.searchKnn _ query k).mapError _ = _ at reply
    cases found : w.store.searchKnn (w.env.ann w.tick).1 query k with
    | error e => rw [found] at reply; cases reply
    | ok hits => rw [found] at reply; cases reply; rfl
  · rw [failed] at reply
    unfold StoreOp.fails at reply
    dsimp only at reply
    split_ifs at reply <;> cases reply

/-- An engine without extractor and redaction. -/
def plainEngine (tenant : String) : MemoryEngine := ⟨tenant, none, false, false⟩

end FusionMemory
