import FusionMemory.Cluster.LeaderConsolidates
import FusionMemory.Engine.Jobs

/-!
Followers that replay the whole log of a leader.

Commits, deletions, unscoped consolidation runs and retrievals of a leader, in any order,
keep its database mirrored by its log, so that a follower who starts empty and replays the
log has the leader's live commits and its merges.
-/

namespace FusionMemory

open Lib

variable {F : Type} [FloatArith F] [JsonText F]

/-- The calls whose effects a follower sees in the log. A turn index is a 32-bit number. -/
def Call.Replicated : Call → Prop
  | .commit _ interaction => ∀ turn ∈ interaction.turns, turn.turnIdx < 2 ^ 32
  | .consolidate ns => ns.isActive = false
  | .deleteMemory _ | .retrieve _ => True

def Call.isRetrieve : Call → Bool
  | .retrieve _ => true
  | _ => false

/-- The retrievals of a history. -/
def retrievals (calls : List Call) : Nat := calls.countP Call.isRetrieve

section Leader

variable {env : Env F} (surroundings : env.Portable) {dim n : Nat}
include surroundings

theorem leads_call (eng : MemoryEngine) {c : Call} (replicated : c.Replicated)
    (few : n + retrievals [c] < 2 ^ 64) :
    Leads env dim (Db.Mirrored (!eng.hasExtractor) dim n)
      (Db.Mirrored (!eng.hasExtractor) dim (n + retrievals [c])) (c.program eng) := by
  cases c with
  | commit sessionId interaction =>
      exact leads_bind (leads_commitInner surroundings eng sessionId replicated)
        (fun _ mirrored => mirrored) fun _ => leads_done (fun _ mirrored => mirrored) ()
  | deleteMemory id => exact leads_deleteMemory surroundings.works id
  | consolidate ns =>
      have valid : isValidNamespace ns.namespace = true := by
        have unscoped : ns.isActive = false := replicated
        simp_all [isValidNamespace, NamespaceFilter.isActive]
      exact leads_bind (leads_consolidateImpl surroundings eng valid)
        (fun _ mirrored => mirrored) fun _ => leads_done (fun _ mirrored => mirrored) ()
  | retrieve query =>
      exact leads_bind (leads_retrieveContext surroundings few eng query)
        (fun _ mirrored => mirrored) fun _ => leads_done (fun _ mirrored => mirrored) ()

/-- A history of such calls leaves the leader's database mirrored by its log. -/
theorem serves_runCalls (eng : MemoryEngine) {calls : List Call}
    (replicated : ∀ c ∈ calls, c.Replicated) {w : World F}
    (serves : w.Serves env dim (Db.Mirrored (!eng.hasExtractor) dim n))
    (few : n + retrievals calls < 2 ^ 64) : (runCalls eng calls w).Serves env dim
      (Db.Mirrored (!eng.hasExtractor) dim (n + retrievals calls)) := by
  induction calls generalizing w n with
  | nil => exact serves
  | cons c rest ih =>
      have split : retrievals (c :: rest) = retrievals [c] + retrievals rest := by
        unfold retrievals
        rw [← List.countP_append]
        rfl
      rw [split, ← Nat.add_assoc] at few ⊢
      refine ih (fun c' mem => replicated c' (List.mem_cons_of_mem _ mem)) ?_ few
      exact leads_call surroundings eng (replicated c List.mem_cons_self) (by omega) w serves

end Leader

/-- A leader that starts empty is mirrored by its log. -/
theorem mirrored_runCalls {env : Env F} (surroundings : env.Portable) (eng : MemoryEngine)
    (dim : Nat) {calls : List Call} (replicated : ∀ c ∈ calls, c.Replicated)
    (few : retrievals calls < 2 ^ 64) :
    (runCalls eng calls (.fresh env .empty (.empty dim))).db.Mirrored (!eng.hasExtractor) dim
      (0 + retrievals calls) := by
  have started : (World.fresh env .empty (.empty dim)).Serves env dim
      (Db.Mirrored (!eng.hasExtractor) dim 0) := ⟨rfl, rfl, .empty⟩
  exact (serves_runCalls surroundings eng replicated started (by omega)).db

theorem Applied.getMemory_empty {log : List WopEntry} {w w' : World F} (applied : Applied log w w')
    (empty : w.db = .empty) (id : String) : w'.db.getMemory id = replica log id := by
  rw [applied.getMemory, empty]
  rfl

theorem Applied.mergeLog_empty {log : List WopEntry} {w w' : World F} (applied : Applied log w w')
    (empty : w.db = .empty) : w'.db.mergeLog.map (·.pair) = log.filterMap WopEntry.mergePair := by
  obtain ⟨added, merged, pairs⟩ := applied.mergeLog
  rw [merged, empty, ← pairs]
  rfl

/-- A follower who starts empty replays the whole log of a leader, and then has the live
commits of the leader and the pairs of its merge log. -/
theorem follower_converges {env : Env F} (surroundings : env.Portable) (eng : MemoryEngine)
    (dim : Nat) {calls : List Call} (replicated : ∀ c ∈ calls, c.Replicated)
    (few : retrievals calls < 2 ^ 64) {follower : World F} (works : follower.env.NoFaults)
    (empty : follower.db = .empty) (fits : follower.store.dim = dim) :
    let leader := runCalls eng calls (.fresh env .empty (.empty dim))
    ∃ outcome follower', runSink (replayBatch leader.db.wopLog) follower = (.ok outcome, follower') ∧
      outcome.failed = false ∧
      (∀ id, Option.Rel (MemoryItem.CopyOf (!eng.hasExtractor))
        ((follower'.db.getMemory id).filter MemoryItem.isLiveCommit)
        ((leader.db.getMemory id).filter MemoryItem.isLiveCommit)) ∧
      follower'.db.mergeLog.map (·.pair) = leader.db.mergeLog.map (·.pair) := by
  intro leader
  have mirrored := mirrored_runCalls surroundings eng dim replicated few
  obtain ⟨follower', applied, -⟩ := applied_of_logged mirrored.logged works fits
  obtain ⟨outcome, ran, fine⟩ := replayBatch_succeeds_iff.mpr applied
  refine ⟨outcome, follower', ran, fine, fun id => ?_, ?_⟩
  · rw [applied.getMemory_empty empty]
    exact (mirrored.rows id).live
  · rw [applied.mergeLog_empty empty]
    exact mirrored.merges.symm

/-! ### A history with merges -/

/-- ULIDs that tell the time. -/
def tickUlid (t : Nat) (taken : List String) : {id : String // id ∉ taken ∧ '\t' ∉ id.toList} :=
  let name := String.ofList (List.replicate t 'u')
  if new : name ∉ taken ∧ '\t' ∉ name.toList then ⟨name, new⟩
  else (Env.quiet : Env Fixed).ulid t taken

/-- Everything is alike, and answered at once; the chat model leaves after a while. -/
def teaEnv : Env Fixed :=
  { (Env.quiet : Env Fixed) with
    clock := fun t => 1000 + t % 1000
    ulid := tickUlid
    embed := fun _ _ => .ok [⟨1000000⟩]
    extract := fun _ _ => ⟨[⟨"ent-tea", "tea", [], .project⟩], true⟩
    chat := fun t _ _ => if t < 100 then some "tea" else none }

theorem survives_fixed (x : Fixed) : Survives x := ⟨rfl, rfl⟩

theorem teaEnv_portable : teaEnv.Portable where
  works := ⟨fun _ _ => rfl, fun _ _ => rfl⟩
  clock t := by
    change 1000 + t % 1000 < 2 ^ 64
    omega
  weight kind := survives_fixed _
  vector _ _ _ _ x _ := survives_fixed x

def teaTalk (session : String) : Call :=
  .commit session ⟨"ix-" ++ session, session, "a", "", "",
    [⟨0, "a", "b", []⟩, ⟨1, "a", "b", []⟩, ⟨2, "a", "b", []⟩]⟩

theorem teaTalk_replicated (session : String) : (teaTalk session).Replicated := by
  intro turn mem
  simp only [List.mem_cons, List.not_mem_nil, or_false] at mem
  rcases mem with rfl | rfl | rfl <;> decide

def teaQuery : RetrieveQuery where
  text := "tea"
  topK := 20
  sessionId := none
  tenant := "a"
  «namespace» := ""
  namespaceKey := ""
  tierFilter := none
  tokenBudget := 100000

/-- The summaries of two sessions are accessed until they are merged. -/
def mergingHistory : List Call :=
  [teaTalk "s", teaTalk "t", .consolidate .default, .retrieve teaQuery, .consolidate .default,
    .retrieve teaQuery, .consolidate .default]

/-- The start of a leader, and of a follower. -/
def teaStart : World Fixed := .fresh teaEnv .empty (.empty 1)

theorem teaStart_works : teaStart.env.NoFaults := teaEnv_portable.works

/-- The engine of a leader, with or without an extractor. -/
def teaEngine (hasExtractor : Bool) : MemoryEngine := ⟨"a", none, hasExtractor, true⟩

theorem mergingHistory_replicated : ∀ c ∈ mergingHistory, c.Replicated := by
  intro c mem
  simp only [mergingHistory, List.mem_cons, List.not_mem_nil, or_false] at mem
  rcases mem with rfl | rfl | rfl | rfl | rfl | rfl | rfl
  · exact teaTalk_replicated "s"
  · exact teaTalk_replicated "t"
  · rfl
  · trivial
  · rfl
  · trivial
  · rfl

theorem follower_converges_mergingHistory :
    ∃ outcome follower', runSink (replayBatch
        (runCalls (teaEngine true) mergingHistory teaStart).db.wopLog) teaStart =
          (.ok outcome, follower') ∧ outcome.failed = false ∧
      (∀ id, Option.Rel (MemoryItem.CopyOf (!(teaEngine true).hasExtractor))
        ((follower'.db.getMemory id).filter MemoryItem.isLiveCommit)
        (((runCalls (teaEngine true) mergingHistory teaStart).db.getMemory id).filter
          MemoryItem.isLiveCommit)) ∧
      follower'.db.mergeLog.map (·.pair) =
        (runCalls (teaEngine true) mergingHistory teaStart).db.mergeLog.map (·.pair) :=
  follower_converges teaEnv_portable (teaEngine true) 1 mergingHistory_replicated (by decide)
    ⟨fun _ _ => rfl, fun _ _ => rfl⟩ rfl rfl

/-! ### What a follower misses -/

theorem Applied.concat {log : List WopEntry} {e : WopEntry} {skipped : Bool} {w w' w'' : World F}
    (applied : Applied log w w') (last : runSink (replayOne e) w' = (.ok skipped, w'')) :
    Applied (log ++ [e]) w w'' := by
  induction applied with
  | nil w => exact .cons last (.nil w'')
  | cons first _ ih => exact .cons first (ih last)

/-- Logs from which a follower gets the same: what the one does the other does as well. -/
structure SameReplay (F : Type) [FloatArith F] [JsonText F] (log log' : List WopEntry) : Prop where
  replays : ∀ w w' : World F, Applied log w w' → Applied log' w w'
  rows : ∀ id, replica (F := F) log' id = replica log id
  merges : log'.filterMap WopEntry.mergePair = log.filterMap WopEntry.mergePair

namespace SameReplay

variable {log log' log'' : List WopEntry}

theorem refl (log : List WopEntry) : SameReplay F log log :=
  ⟨fun _ _ applied => applied, fun _ => rfl, rfl⟩

theorem trans (first : SameReplay F log log') (last : SameReplay F log' log'') :
    SameReplay F log log'' :=
  ⟨fun w w' applied => last.replays w w' (first.replays w w' applied),
    fun id => (last.rows id).trans (first.rows id), last.merges.trans first.merges⟩

theorem deleteScope (log : List WopEntry) (seq : Nat) (scope : String) («at» : Nat) :
    SameReplay F log (log ++ [⟨seq, "delete_scope", scope, «at»⟩]) where
  replays w w' applied :=
    applied.concat (show runSink (replayOne _) w' = (.ok false, w') from rfl)
  rows id := by
    rw [replica_append, changeAt_none rfl, RowChange.apply_none]
  merges := by
    rw [List.filterMap_append]
    exact List.append_nil _

end SameReplay

/-- A request that logs nothing, or something that no follower replays. -/
def Request.Silent : Request F → Prop
  | .persist (.appendWop op _ _) => op = "delete_scope"
  | .persist (.putMemoryWithWop _ _ _ _) => False
  | _ => True

omit [FloatArith F] [JsonText F] in
theorem fails_wopLog (db : Db F) (e : PersistError) (writes : Nat) (op : PersistOp F) :
    (op.fails db e writes).2.wopLog = db.wopLog :=
  fails_keeps (·.wopLog) (fun _ _ _ => rfl) (fun _ _ _ _ _ => rfl) db e writes op

theorem sameReplay_exec {db : Db F} {op : PersistOp F} (silent : Request.Silent (.persist op)) :
    SameReplay F db.wopLog (op.exec db).2.wopLog := by
  cases op with
  | appendWop op payload «at» =>
      obtain rfl : op = "delete_scope" := silent
      exact .deleteScope _ _ payload «at»
  | putMemoryWithWop item op payload «at» => cases silent
  | recordConsolidation report started =>
      have same : (db.recordConsolidation report started).wopLog = db.wopLog :=
        Db.recordConsolidationPrefix_keeps (·.wopLog) (fun _ _ _ => rfl) (fun _ _ _ _ _ => rfl)
          db report started _
      change SameReplay F _ (db.recordConsolidation report started).wopLog
      rw [same]
      exact .refl _
  | unmerge id =>
      have same : (db.unmerge id).2.wopLog = db.wopLog := by
        unfold Db.unmerge
        split <;> rfl
      change SameReplay F _ (db.unmerge id).2.wopLog
      rw [same]
      exact .refl _
  | _ => exact .refl _

/-- A follower gets nothing from a program of such requests, whatever fails. -/
theorem sameReplay_run {α : Type} {p : EngineM F α} (only : Program.Only Request.Silent p)
    (w : World F) : SameReplay F w.db.wopLog (run p w).2.db.wopLog := by
  refine only.run (R := fun w w' => SameReplay F w.db.wopLog w'.db.wopLog) (fun w => .refl _)
    (by intro w w' w'' first last; exact first.trans last) (fun r w silent => ?_) w
  cases r with
  | persist op =>
      change SameReplay F w.db.wopLog (w.execPersist op).2.wopLog
      rcases w.execPersist_cases op with done | ⟨e, n, failed⟩
      · rw [done]
        exact sameReplay_exec silent
      · rw [failed, fails_wopLog]
        exact .refl _
  | acquire lock => cases lock <;> exact .refl _
  | release lock => cases lock <;> exact .refl _
  | _ => exact .refl _

omit [FloatArith F] [JsonText F] in
/-- The deletion of a scope is logged under a name that no follower knows. -/
theorem silent_deleteScopeTenant (scope tenant : String) :
    Program.Only (Request.Silent (F := F)) (deleteScopeTenant scope tenant) :=
  only_deleteScopeTenant (fun _ _ => trivial) (fun _ => trivial) (fun _ => trivial) trivial
    (fun _ _ => rfl) scope tenant

omit [FloatArith F] [JsonText F] in
/-- Unmerging is not logged. -/
theorem only_unmerge (mergeId : Nat) :
    Program.Only (Request.Silent (F := F)) (unmerge mergeId) := by
  unfold unmerge
  refine Program.Only.bind (only_persistOrFail trivial) fun pair => ?_
  cases pair with
  | none => trivial
  | some pair =>
      refine Program.Only.bind (only_persistOrFail trivial) fun found => ?_
      cases found with
      | none => trivial
      | some item =>
          refine Program.Only.bind ?_ fun _ => Program.Only.bind (only_persistOrFail trivial) fun _ =>
            trivial
          unfold rebuildVector
          split
          · trivial
          · refine Program.Only.bind (only_storeOrFail trivial) fun existing => ?_
            dsimp only
            split_ifs
            · refine Program.Only.bind (Program.Only.bind (Program.Only.perform trivial) fun _ =>
                trivial) fun embedded => ?_
              refine Program.Only.bind (Program.Only.ofExcept _) fun vec => ?_
              exact Program.Only.bind (only_storeOrFail trivial) fun _ => trivial
            · trivial

/-! ### Histories that diverge -/

/-- An operation of a leader. -/
inductive LeaderOp where
  | call (c : Call)
  | deleteScope (sessionId : String)
  | unmerge (mergeId : Nat)

def LeaderOp.program (eng : MemoryEngine) : LeaderOp → EngineM F Unit
  | .call c => c.program eng
  | .deleteScope sessionId => do
      let _ ← FusionMemory.deleteScope eng sessionId
      return ()
  | .unmerge mergeId => do
      let _ ← FusionMemory.unmerge mergeId
      return ()

/-- An operation that is not a call. -/
theorem LeaderOp.silent (eng : MemoryEngine) (op : LeaderOp) (other : ∀ c, op ≠ .call c) :
    Program.Only (Request.Silent (F := F)) (op.program eng) := by
  cases op with
  | call c => exact absurd rfl (other c)
  | deleteScope sessionId =>
      unfold LeaderOp.program
      exact Program.Only.bind (silent_deleteScopeTenant sessionId eng.tenant) fun _ => trivial
  | unmerge mergeId =>
      unfold LeaderOp.program
      exact Program.Only.bind (only_unmerge mergeId) fun _ => trivial

def runOps (eng : MemoryEngine) (ops : List LeaderOp) (w : World F) : World F :=
  ops.foldl (fun w op => (run (op.program eng) w).2) w

theorem runOps_calls (eng : MemoryEngine) (calls : List Call) (op : LeaderOp) (w : World F) :
    runOps eng (calls.map .call ++ [op]) w = (run (op.program eng) (runCalls eng calls w)).2 := by
  unfold runOps runCalls
  rw [List.foldl_append, List.foldl_map]
  rfl

/-- The same live memories, by id, content, tier and entities, and the same merges. -/
structure SameMemories (leader follower : Db F) : Prop where
  rows : ∀ id, ((follower.getMemory id).filter (!·.tombstone)).map
      (fun m => (m.content, m.tier, m.entities)) =
    ((leader.getMemory id).filter (!·.tombstone)).map fun m => (m.content, m.tier, m.entities)
  merges : follower.mergeLog.map (·.pair) = leader.mergeLog.map (·.pair)

/-- A history after which a follower that has replayed the log does not have what the leader
has. -/
def Diverges (eng : MemoryEngine) (ops : List LeaderOp) : Prop :=
  ∃ outcome follower', runSink (replayBatch (runOps eng ops teaStart).db.wopLog) teaStart =
      (.ok outcome, follower') ∧ outcome.failed = false ∧
    ¬ SameMemories (runOps eng ops teaStart).db follower'.db

/-- It is enough to look at a replay of all entries. -/
theorem diverges_of_applied {eng : MemoryEngine} {ops : List LeaderOp} {follower' : World Fixed}
    (applied : Applied (runOps eng ops teaStart).db.wopLog teaStart follower')
    (other : ¬ SameMemories (runOps eng ops teaStart).db follower'.db) : Diverges eng ops := by
  obtain ⟨outcome, ran, fine⟩ := replayBatch_succeeds_iff.mpr applied
  exact ⟨outcome, follower', ran, fine, other⟩

namespace SameMemories

variable {leader follower : Db F}

omit [FloatArith F] [JsonText F] in
theorem symm (same : SameMemories leader follower) : SameMemories follower leader :=
  ⟨fun id => (same.rows id).symm, same.merges.symm⟩

omit [FloatArith F] [JsonText F] in
/-- A live row of the one that the other has to have. -/
theorem copied (same : SameMemories leader follower) {id : String} {m : MemoryItem F}
    (row : leader.getMemory id = some m) (live : m.tombstone = false) :
    ∃ m', follower.getMemory id = some m' ∧ m'.tombstone = false ∧ m'.entities = m.entities := by
  have alike := same.rows id
  rw [row] at alike
  cases found : follower.getMemory id with
  | none =>
      rw [found] at alike
      simp [live] at alike
  | some m' =>
      rw [found] at alike
      cases gone : m'.tombstone with
      | true => simp [Option.filter_some, live, gone] at alike
      | false =>
          simp only [Option.filter_some, live, gone, Bool.not_false, if_true, Option.map_some,
            Option.some.injEq, Prod.mk.injEq] at alike
          exact ⟨m', rfl, gone, alike.2.2⟩

end SameMemories

/-- A summary is not replayed. -/
theorem diverges_summary :
    Diverges (teaEngine false) [.call (teaTalk "s"), .call (.consolidate .default)] := by
  have replicated : ∀ c ∈ [teaTalk "s", .consolidate .default], c.Replicated := by
    intro c mem
    rcases List.mem_cons.mp mem with rfl | mem
    · exact teaTalk_replicated "s"
    · rw [List.mem_singleton.mp mem]
      rfl
  have mirrored : (runOps (teaEngine false) [.call (teaTalk "s"), .call (.consolidate .default)]
      teaStart).db.Mirrored true 1 0 :=
    mirrored_runCalls teaEnv_portable (teaEngine false) 1 replicated (by decide)
  have summary : ((runOps (teaEngine false) [.call (teaTalk "s"), .call (.consolidate .default)]
      teaStart).db.memoryItem.rows.any fun m => decide (m.memoryType ≠ .episodic) && !m.tombstone) =
        true := by decide +kernel
  have known : ((runOps (teaEngine false) [.call (teaTalk "s"), .call (.consolidate .default)]
      teaStart).db.wopLog.all fun e => e.op != "reextract") = true := by decide +kernel
  obtain ⟨follower', applied, -⟩ := applied_of_logged mirrored.logged teaStart_works rfl
  refine diverges_of_applied applied fun same => ?_
  generalize runOps (teaEngine false) _ teaStart = leader at *
  obtain ⟨m, stored, other⟩ := List.any_eq_true.mp summary
  rw [Bool.and_eq_true, decide_eq_true_iff, Bool.not_eq_true'] at other
  have row : leader.db.getMemory m.id = some m := Table.find?_of_mem stored
  obtain ⟨m', copied, live, -⟩ := same.copied row other.2
  rw [applied.getMemory_empty rfl] at copied
  have turn := replica_isTurn mirrored.logged (fun e mem => by simpa using List.all_eq_true.mp known e mem)
    m.id m' copied
  have gone := (mirrored.rows m.id).absent (fun m₀ found => by
    rw [row] at found
    cases found
    exact other.1) m' copied turn.episodic
  rw [live] at gone
  cases gone

/-- The deletion of a scope is not replayed. -/
theorem diverges_deleteScope :
    Diverges (teaEngine false) [.call (teaTalk "s"), .deleteScope "s"] := by
  have replicated : ∀ c ∈ [teaTalk "s"], c.Replicated := fun c mem => by
    rw [List.mem_singleton.mp mem]
    exact teaTalk_replicated "s"
  have mirrored : (runCalls (teaEngine false) [teaTalk "s"] teaStart).db.Mirrored true 1 0 :=
    mirrored_runCalls teaEnv_portable (teaEngine false) 1 replicated (by decide)
  have committed : ((runCalls (teaEngine false) [teaTalk "s"] teaStart).db.memoryItem.rows.any
    MemoryItem.isLiveCommit) = true := by decide +kernel
  have buried : ((runOps (teaEngine false) [.call (teaTalk "s"), .deleteScope "s"]
      teaStart).db.memoryItem.rows.all fun m => m.tombstone) = true := by decide +kernel
  have silent : SameReplay Fixed (runCalls (teaEngine false) [teaTalk "s"] teaStart).db.wopLog
      (runOps (teaEngine false) [.call (teaTalk "s"), .deleteScope "s"] teaStart).db.wopLog := by
    have last := runOps_calls (teaEngine false) [teaTalk "s"] (.deleteScope "s") teaStart
    rw [List.map_singleton, List.singleton_append] at last
    rw [last]
    exact sameReplay_run (LeaderOp.silent (teaEngine false) (.deleteScope "s") (by simp)) _
  obtain ⟨follower', replayed, -⟩ := applied_of_logged mirrored.logged teaStart_works rfl
  have applied := silent.replays teaStart follower' replayed
  refine diverges_of_applied applied fun same => ?_
  generalize runOps (teaEngine false) _ teaStart = leader at *
  generalize runCalls (teaEngine false) _ teaStart = before at *
  obtain ⟨m, stored, liveCommit⟩ := List.any_eq_true.mp committed
  rw [MemoryItem.isLiveCommit, Bool.and_eq_true, decide_eq_true_iff, Bool.not_eq_true'] at liveCommit
  have row : before.db.getMemory m.id = some m := Table.find?_of_mem stored
  obtain ⟨m', copied, copy⟩ := (mirrored.rows m.id).same m row liveCommit.1
  rw [← silent.rows, ← applied.getMemory_empty rfl] at copied
  have live : m'.tombstone = false := copy.tombstone.trans liveCommit.2
  obtain ⟨m₁, kept, alive, -⟩ := same.symm.copied copied live
  have gone := List.all_eq_true.mp buried m₁ (Table.find?_mem kept)
  rw [alive] at gone
  cases gone

/-- Entities that a commit attaches are not replayed. -/
theorem diverges_attach : Diverges (teaEngine true) [.call (teaTalk "s")] := by
  have replicated : ∀ c ∈ [teaTalk "s"], c.Replicated := fun c mem => by
    rw [List.mem_singleton.mp mem]
    exact teaTalk_replicated "s"
  have mirrored : (runOps (teaEngine true) [.call (teaTalk "s")] teaStart).db.Mirrored false 1 0 :=
    mirrored_runCalls teaEnv_portable (teaEngine true) 1 replicated (by decide)
  have attached : ((runOps (teaEngine true) [.call (teaTalk "s")] teaStart).db.memoryItem.rows.any
    fun m => !m.tombstone && !m.entities.isEmpty) = true := by decide +kernel
  have known : ((runOps (teaEngine true) [.call (teaTalk "s")]
      teaStart).db.wopLog.all fun e => e.op != "reextract") = true := by decide +kernel
  obtain ⟨follower', applied, -⟩ := applied_of_logged mirrored.logged teaStart_works rfl
  refine diverges_of_applied applied fun same => ?_
  generalize runOps (teaEngine true) _ teaStart = leader at *
  obtain ⟨m, stored, settled⟩ := List.any_eq_true.mp attached
  rw [Bool.and_eq_true, Bool.not_eq_true', Bool.not_eq_true'] at settled
  have row : leader.db.getMemory m.id = some m := Table.find?_of_mem stored
  obtain ⟨m', copied, -, entities⟩ := same.copied row settled.1
  rw [applied.getMemory_empty rfl] at copied
  have turn := replica_isTurn mirrored.logged (fun e mem => by simpa using List.all_eq_true.mp known e mem)
    m.id m' copied
  rw [← entities, turn.entities] at settled
  cases settled.2

/-- An unmerge is not replayed. -/
theorem diverges_unmerge :
    Diverges (teaEngine true) (mergingHistory.map .call ++ [.unmerge 1]) := by
  have mirrored : (runCalls (teaEngine true) mergingHistory teaStart).db.Mirrored false 1 2 :=
    mirrored_runCalls teaEnv_portable (teaEngine true) 1 mergingHistory_replicated (by decide)
  have last := runOps_calls (teaEngine true) mergingHistory (.unmerge 1) teaStart
  -- One evaluation of the history for the merges before and after the last operation.
  have lost : (runCalls (teaEngine true) mergingHistory teaStart).db.mergeLog.length = 2 ∧
      (run ((LeaderOp.unmerge 1).program (teaEngine true))
        (runCalls (teaEngine true) mergingHistory teaStart)).2.db.mergeLog.length = 1 := by
    decide +kernel
  have silent := sameReplay_run (LeaderOp.silent (teaEngine true) (.unmerge 1) (by simp))
    (runCalls (teaEngine true) mergingHistory teaStart)
  obtain ⟨follower', replayed, -⟩ := applied_of_logged mirrored.logged teaStart_works rfl
  have applied := silent.replays teaStart follower' replayed
  refine diverges_of_applied (last ▸ applied) fun same => ?_
  rw [last] at same
  generalize runCalls (teaEngine true) _ teaStart = before at *
  have pairs := congrArg List.length same.merges
  rw [applied.mergeLog_empty rfl, silent.merges, ← mirrored.merges, List.length_map,
    List.length_map, lost.1, lost.2] at pairs
  cases pairs

/-- Summaries, scope deletions, unmerges and the entities that commits attach are not
replicated. -/
theorem followers_diverge :
    Diverges (teaEngine false) [.call (teaTalk "s"), .call (.consolidate .default)] ∧
      Diverges (teaEngine false) [.call (teaTalk "s"), .deleteScope "s"] ∧
      Diverges (teaEngine true) [.call (teaTalk "s")] ∧
      Diverges (teaEngine true) (mergingHistory.map .call ++ [.unmerge 1]) :=
  ⟨diverges_summary, diverges_deleteScope, diverges_attach, diverges_unmerge⟩

end FusionMemory
