import FusionMemory.Engine.WrongKey
import FusionMemory.Lib.Permits
import FusionMemory.Server.Tasks

/-!
The two mutexes of the engine, with any calls of its handle side by side.

`consolidate_lock` is taken by a run and `touch_lock` by a retrieval, and neither is taken
while the other is held, so the calls are balanced programs over two locks of one permit
each. Runs exclude each other whatever else is called (`one_consolidation_at_a_time`), and
no calls can block each other for good (`calls_return`).
-/

namespace FusionMemory

open Lib

variable {F : Type} [FloatArith F] [JsonText F]

/-! ### The locks as permits -/

/-- What a request does to the locks. -/
def lockUse : Request F → PermitUse Lock
  | .acquire lock => .take lock
  | .release lock => .give lock
  | _ => .neither

/-- The request has to do with neither lock. -/
def Unlocked (r : Request F) : Prop := lockUse r = .neither

/-- Each mutex has one permit. -/
def lockCapacity (_ : Lock) : Nat := 1

def lockFree (w : World F) (lock : Lock) : Nat := if w.held lock then 0 else 1

omit [FloatArith F] [JsonText F] in
theorem lockFree_pos_iff {w : World F} {lock : Lock} : 0 < lockFree w lock ↔ w.held lock = false := by
  unfold lockFree
  cases w.held lock <;> simp

omit [FloatArith F] [JsonText F] in
theorem lockFree_setHeld (w : World F) (b : Bool) (lock lock' : Lock) :
    lockFree { w.setHeld b lock with tick := w.tick + 1 } lock' =
      if lock = lock' then if b then 0 else 1 else lockFree w lock' := by
  cases lock <;> cases lock' <;> rfl

omit [JsonText F] in
theorem held_exec_plain {r : Request F} (plain : lockUse r = .neither) (w : World F) (lock : Lock) :
    (w.exec r).2.held lock = w.held lock := by
  cases r with
  | acquire l => cases plain
  | release l => cases plain
  | _ => cases lock <;> rfl

omit [JsonText F] in
/-- The world keeps count of its locks. -/
theorem machine_counts : (machine F).Counts lockUse lockCapacity lockFree where
  ready r w there := by
    cases r with
    | acquire lock =>
        have free := lockFree_pos_iff.mp (there lock rfl)
        change (!w.held lock) = true
        rw [free]
        rfl
    | _ => rfl
  waits r w lock takes ready := by
    cases r with
    | acquire l =>
        cases takes
        change (!w.held lock) = true at ready
        exact lockFree_pos_iff.mpr (by simpa using ready)
    | _ => cases takes
  take r w lock lock' takes there := by
    cases r with
    | acquire l =>
        cases takes
        refine (lockFree_setHeld w true lock lock').trans ?_
        by_cases same : lock = lock'
        · subst same
          have free := lockFree_pos_iff.mp there
          simp [lockFree, free]
        · rw [if_neg same, if_neg same]
    | _ => cases takes
  give r w lock lock' gives taken := by
    cases r with
    | release l =>
        cases gives
        refine (lockFree_setHeld w false lock lock').trans ?_
        by_cases same : lock = lock'
        · subst same
          have none : lockFree w lock = 0 := Nat.lt_one_iff.mp taken
          simp [none]
        · rw [if_neg same, if_neg same]
    | _ => cases gives
  neither r w lock plain := by
    change (if (w.exec r).2.held lock then 0 else 1) = _
    rw [held_exec_plain plain]
    rfl

/-! ### The calls -/

section Balanced

variable {α : Type}

omit [FloatArith F] [JsonText F] in
theorem withLock_balanced (lock : Lock) {body : EngineM F α}
    (plain : Program.Only Unlocked body) : (withLock lock body).Balanced lockUse := by
  have takes : lockUse (.acquire lock : Request F) = .take lock := rfl
  have gives : lockUse (.release lock : Request F) = .give lock := rfl
  exact Program.Balanced.bracket takes gives plain id

/-- A row is stored without a lock. -/
theorem lockUse_storing : AllowsStoring (Unlocked (F := F)) where
  newUlid := rfl
  embed _ := rfl
  insert _ _ := rfl
  put _ _ _ _ := rfl
  drop _ := rfl

omit [FloatArith F] [JsonText F] in
theorem lockUse_simple : AllowsSimple (Unlocked (F := F)) where
  read _ _ := rfl
  clock := rfl
  bury _ := rfl
  purge _ := rfl
  log _ _ _ := rfl
  audit _ _ _ _ _ := rfl
  report _ _ _ _ := rfl
  drop _ := rfl
  getVector _ := rfl
  listVectors := rfl

theorem commitInner_plain (eng : MemoryEngine) (sessionId : String) (interaction : Interaction) :
    Program.Only (Unlocked (F := F))
      (commitInner eng sessionId interaction) := by
  refine Program.Only.bind (Program.Only.perform rfl) fun now => ?_
  refine Program.Only.bind (Program.Only.foldlM _ (fun turn _ acc => ?_) _) fun outcome => ?_
  · exact only_commitTurn lockUse_storing (fun _ => rfl) (fun _ => rfl) (fun _ => rfl) eng sessionId
      interaction now acc turn
  · exact Program.Only.bind (only_persist rfl) fun _ => trivial

theorem consolidateChanged_plain (eng : MemoryEngine) (ns : NamespaceFilter) (start : Nat)
    (changed : List (MemoryItem F)) :
    Program.Only (Unlocked (F := F))
      (consolidateChanged eng ns start changed) := by
  refine Program.Only.bind (Program.Only.foldlM _ (fun m listed acc => ?_) _) fun tally => ?_
  · exact (only_recycleOrPromote start listed acc).mono fun r request => by cases request <;> rfl
  refine Program.Only.bind (Program.Only.bind (only_persistOrFail rfl) fun all =>
    Program.Only.foldlM _ (fun src mem acc => ?_) _) fun merged => ?_
  · obtain ⟨listed, semantic⟩ := List.mem_filter.mp mem
    exact (only_mergeSource listed semantic acc).mono fun r request => by cases request <;> rfl
  refine Program.Only.bind (only_consolidateSummarize lockUse_storing (fun _ => rfl)
    (fun _ _ => rfl) eng changed start _ ns) fun summarized => ?_
  refine Program.Only.bind ((only_lateProgram eng ns start changed tally merged summarized).mono
    fun r request => by cases request <;> rfl) fun report => ?_
  refine Program.Only.bind (only_recordRun (P := Unlocked) (fun _ _ _ => rfl) rfl ns) fun _ => ?_
  exact Program.Only.bind (only_persist rfl) fun _ => trivial

/-- A run does everything under its lock. -/
theorem consolidateImpl_locked (eng : MemoryEngine) (ns : NamespaceFilter) :
    ∃ body : EngineM F ConsolidationReport, consolidateImpl eng ns = withLock .consolidate body ∧
      Program.Only Unlocked body := by
  refine ⟨_, consolidateImpl_eq eng ns, Program.Only.bind (Program.Only.perform rfl) fun start => ?_⟩
  refine Program.Only.bind (only_persistOrFail rfl) fun since => ?_
  refine Program.Only.bind (only_persistOrFail rfl) fun changed => ?_
  exact consolidateChanged_plain eng ns start changed

theorem consolidateImpl_balanced (eng : MemoryEngine) (ns : NamespaceFilter) :
    (consolidateImpl (F := F) eng ns).Balanced lockUse := by
  obtain ⟨body, locked, plain⟩ := consolidateImpl_locked (F := F) eng ns
  rw [locked]
  exact withLock_balanced .consolidate plain

theorem consolidateImpl_confined (eng : MemoryEngine) (ns : NamespaceFilter) :
    (consolidateImpl (F := F) eng ns).Confined lockUse .consolidate := by
  obtain ⟨body, locked, plain⟩ := consolidateImpl_locked (F := F) eng ns
  have takes : lockUse (.acquire .consolidate : Request F) = .take .consolidate := rfl
  rw [locked]
  exact Program.Confined.bracket takes plain id

omit [JsonText F] in
theorem retrieveContext_balanced (eng : MemoryEngine) (query : RetrieveQuery) :
    (retrieveContext (F := F) eng query).Balanced lockUse := by
  rw [retrieveContext_eq]
  refine Program.Balanced.bind (.ofOnly (Program.Only.perform rfl)) fun now => ?_
  refine Program.Balanced.bind (.ofOnly ((only_findHits eng query now).mono
    fun r request => by cases request <;> rfl)) fun found => ?_
  unfold answerHits
  refine Program.Balanced.bind ?_ fun _ => .ofOnly ?_
  · unfold touch
    split_ifs
    · exact .ofOnly trivial
    · exact withLock_balanced .touch (Program.Only.bind (only_persist rfl) fun _ => trivial)
  · refine Program.Only.bind (only_persist rfl) fun _ => ?_
    refine Program.Only.bind (Program.Only.perform rfl) fun _ => ?_
    exact Program.Only.bind (Program.Only.perform rfl) fun _ => trivial

omit [FloatArith F] [JsonText F] in
theorem unmerge_plain (mergeId : Nat) :
    Program.Only (Unlocked (F := F)) (unmerge mergeId) := by
  unfold unmerge
  refine Program.Only.bind (only_persistOrFail rfl) fun pair => ?_
  rcases pair with _ | ⟨sourceId, targetId⟩
  · trivial
  refine Program.Only.bind (only_persistOrFail rfl) fun found => ?_
  cases found with
  | none => trivial
  | some item =>
      refine Program.Only.bind (SealedWorld.only_rebuildVector (fun _ => rfl) (fun _ => rfl) _) fun _ => ?_
      exact Program.Only.bind (only_persistOrFail rfl) fun _ => trivial

/-- Every call takes one lock at a time and gives it back. -/
theorem EngineCall.program_balanced (eng : MemoryEngine) (call : EngineCall) :
    (call.program (F := F) eng).Balanced lockUse := by
  cases simple : call.isSimple with
  | true => exact .ofOnly (EngineCall.only_simple lockUse_simple eng simple)
  | false =>
      cases call with
      | commitEpisodicMemoryDetailed sessionId interaction =>
          exact .ofOnly (commitInner_plain eng sessionId interaction)
      | retrieveContext query => exact retrieveContext_balanced eng query
      | consolidateMemories => exact consolidateImpl_balanced eng .default
      | consolidateMemoriesScoped ns key => exact consolidateImpl_balanced eng ⟨ns, key⟩
      | unmerge mergeId => exact .ofOnly (unmerge_plain mergeId)
      | _ => cases simple

end Balanced

/-! ### Pools of calls -/

/-- The calls that are runs of the saga. -/
def EngineCall.isRun : EngineCall → Bool
  | .consolidateMemories | .consolidateMemoriesScoped _ _ => true
  | _ => false

theorem EngineCall.task_confined (eng : MemoryEngine) {call : EngineCall} (run : call.isRun = true) :
    (call.task (F := F) eng).Confined lockUse .consolidate := by
  cases call with
  | consolidateMemories => exact (consolidateImpl_confined eng .default).discard ()
  | consolidateMemoriesScoped ns key => exact (consolidateImpl_confined eng ⟨ns, key⟩).discard ()
  | _ => cases run

/-- No mutex is held. -/
def World.Idle (w : World F) : Prop := ∀ lock, w.held lock = false

omit [FloatArith F] [JsonText F] in
theorem World.Idle.free {w : World F} (idle : w.Idle) (lock : Lock) :
    lockFree w lock = lockCapacity lock := by
  unfold lockFree
  rw [idle lock]
  rfl

theorem Tasks.orderly (eng : MemoryEngine) (w : World F) (calls : List EngineCall) :
    Pool.Orderly lockUse (Tasks.start eng w calls) := by
  refine Pool.Orderly.start w fun p listed => ?_
  obtain ⟨call, -, rfl⟩ := List.mem_map.mp listed
  exact (EngineCall.program_balanced eng call).bind fun _ => .ofOnly trivial

section Runs

variable {eng : MemoryEngine} {w : World F} {calls : List EngineCall} {pool : Tasks F}

/-- Of two runs of the saga, all steps of one come before all steps of the other, however
they and other calls of the handle interleave. -/
theorem consolidations_serial {C : Tasks F → Nat → Prop} (idle : w.Idle)
    (reach : Pool.Reaches (machine F) C (Tasks.start eng w calls) pool) {i j : Nat} (ne : i ≠ j)
    {call call' : EngineCall} (listed : calls[i]? = some call) (listed' : calls[j]? = some call')
    (run : call.isRun = true) (run' : call'.isRun = true)
    {t t' : Thread (engineSignature F) MemoryError Unit}
    (found : pool.threads[i]? = some t) (found' : pool.threads[j]? = some t') :
    Pool.Before t.history t'.history ∨ Pool.Before t'.history t.history := by
  have serial := reach.serial machine_counts (k := .consolidate) rfl (Tasks.orderly eng w calls)
    idle.free ne (Tasks.listed eng listed) (Tasks.listed eng listed') (EngineCall.task_confined eng run)
    (EngineCall.task_confined eng run')
  exact serial.apart t t' found found'

end Runs

/-- Two runs of the saga, a retrieval between them. -/
def twoRuns : List EngineCall :=
  [.consolidateMemories, .retrieveContext ⟨"fact", 5, none, "a", "", "", none, 100⟩,
    .consolidateMemoriesScoped "work" ""]

/-- The second run asks for the lock, and gets it when the first is over. -/
def twoRunsMidway : Tasks Fixed :=
  Pool.runSchedule (machine Fixed) ([0, 0, 2, 1, 2] ++ List.replicate 11 0 ++ [2, 1, 2])
    (Tasks.start (plainEngine "a") (World.fresh .quiet .empty (.empty 0)) twoRuns)

theorem fresh_idle (env : Env Fixed) : (World.fresh env .empty (.empty 0)).Idle
  | .consolidate => rfl
  | .touch => rfl

theorem twoRunsMidway_reached : Pool.Reaches (machine Fixed) (fun _ _ => True)
    (Tasks.start (plainEngine "a") (World.fresh .quiet .empty (.empty 0)) twoRuns) twoRunsMidway := by
  refine Pool.reaches_runSchedule (fun _ _ => true) (fun _ _ _ _ _ _ _ => trivial) _ _ ?_
  decide +kernel

theorem consolidations_serial_twoRuns : ∃ t t', twoRunsMidway.threads[0]? = some t ∧
    twoRunsMidway.threads[2]? = some t' ∧ t.history.length = 13 ∧ t'.history.length = 2 ∧
      (Pool.Before t.history t'.history ∨ Pool.Before t'.history t.history) := by
  have first : twoRunsMidway.threads[0]?.map (·.history.length) = some 13 := by decide +kernel
  have third : twoRunsMidway.threads[2]?.map (·.history.length) = some 2 := by decide +kernel
  obtain ⟨t, found, whole⟩ := Option.map_eq_some_iff.mp first
  obtain ⟨t', found', begun⟩ := Option.map_eq_some_iff.mp third
  exact ⟨t, t', found, found', whole, begun, consolidations_serial (fresh_idle .quiet)
    twoRunsMidway_reached (by decide) rfl rfl rfl rfl found found'⟩

section Runs

variable {eng : MemoryEngine} {w : World F} {calls : List EngineCall} {pool : Tasks F}

/-- Every interleaving of calls comes to an end, as that of any programs does, and it ends only when
all calls have returned: the mutexes block no call for good, and both are free in the end. -/
theorem calls_return (idle : w.Idle)
    (reach : Pool.Reaches (machine F) (fun _ _ => True) (Tasks.start eng w calls) pool) :
    Acc (Pool.Moves (machine F)) pool ∧
      ((∀ pool', ¬ Pool.Moves (machine F) pool' pool) →
        (∀ t ∈ pool.threads, t.program.ended = true) ∧ pool.world.Idle) := by
  refine ⟨Pool.moves_wellFounded.apply pool, fun stuck => ?_⟩
  have orderly := Tasks.orderly eng w calls
  have init : ∀ lock, lockFree (Tasks.start eng w calls).world lock +
      Pool.heldBy lockUse lock (Tasks.start eng w calls).threads = lockCapacity lock :=
    Pool.conserved_start idle.free
  have ended : ∀ t ∈ pool.threads, t.program.ended = true := by
    intro t mem
    by_contra running
    obtain ⟨pool', moved⟩ := reach.progress machine_counts orderly init
      (fun _ _ _ => Nat.one_pos) mem (Bool.eq_false_iff.mpr running)
    exact stuck pool' moved
  refine ⟨ended, fun lock => ?_⟩
  have free := reach.returned machine_counts orderly init ended lock
  exact lockFree_pos_iff.mp (by rw [free]; exact Nat.one_pos)

end Runs

theorem calls_return_twoRuns : Acc (Pool.Moves (machine Fixed)) twoRunsMidway ∧
    ((∀ pool', ¬ Pool.Moves (machine Fixed) pool' twoRunsMidway) →
      (∀ t ∈ twoRunsMidway.threads, t.program.ended = true) ∧ twoRunsMidway.world.Idle) :=
  calls_return (fresh_idle .quiet) twoRunsMidway_reached

end FusionMemory
