import FusionMemory.Cluster.ReplicationGap
import FusionMemory.Engine.DeletedStays
import FusionMemory.Server.Tasks

/-!
The logs of an engine only grow.

No call of the engine changes or removes what is in `wop_log` or `audit_log`, whether it
succeeds or not, and the numbers in `wop_log` go on without a gap. `logs_append_only` says so
of calls side by side, and what it means to followers: a page that was full when it was read
is the same page ever after.
-/

namespace FusionMemory

open Lib

variable {F : Type}

/-- What the logs of a database may become. -/
structure LogsOn (db db' : Db F) : Prop where
  wop : db.wopLog <+: db'.wopLog
  audit : db.auditLog <+: db'.auditLog
  numbered : Numbered db → Numbered db'

namespace LogsOn

variable {db db' db'' : Db F}

theorem same (wop : db'.wopLog = db.wopLog) (seq : db'.wopSeq = db.wopSeq)
    (audit : db'.auditLog = db.auditLog) : LogsOn db db' where
  wop := wop ▸ List.prefix_refl _
  audit := audit ▸ List.prefix_refl _
  numbered numbered := by
    unfold Numbered at numbered ⊢
    rw [wop, seq]
    exact numbered

theorem refl (db : Db F) : LogsOn db db := .same rfl rfl rfl

theorem trans (first : LogsOn db db') (later : LogsOn db' db'') : LogsOn db db'' where
  wop := first.wop.trans later.wop
  audit := first.audit.trans later.audit
  numbered numbered := later.numbered (first.numbered numbered)

theorem appendWop (db : Db F) (op payload : String) («at» : Nat) :
    LogsOn db (db.appendWop op payload «at») where
  wop := List.prefix_append _ _
  audit := List.prefix_refl _
  numbered numbered := numbered.appendWop op payload «at»

theorem recordConsolidationPrefix (db : Db F) (report : ConsolidationReport) (started n : Nat) :
    LogsOn db (db.recordConsolidationPrefix report started n) :=
  have kept {α : Type} (g : Db F → α)
      (inserts : ∀ db report started, g (Db.insertConsolidation db report started) = g db)
      (reports : ∀ db started id stage error, g (Db.appendReconcile db started id stage error) = g db) :=
    Db.recordConsolidationPrefix_keeps g inserts reports db report started n
  .same (kept (·.wopLog) (fun _ _ _ => rfl) fun _ _ _ _ _ => rfl)
    (kept (·.wopSeq) (fun _ _ _ => rfl) fun _ _ _ _ _ => rfl)
    (kept (·.auditLog) (fun _ _ _ => rfl) fun _ _ _ _ _ => rfl)

/-- A page that was full is the same ever after. -/
theorem page (logs : LogsOn db db') {since limit : Nat}
    (full : (db.listWopSince since limit).length = limit) :
    db'.listWopSince since limit = db.listWopSince since limit := by
  obtain ⟨more, grown⟩ := logs.wop
  unfold Db.listWopSince at full ⊢
  rw [← grown, List.filter_append, List.take_append_of_le_length]
  rw [List.length_take] at full
  omega

end LogsOn

/-! ### Calls of the engine -/

variable [FloatArith F]

omit [FloatArith F] in
theorem logsOn_exec (db : Db F) (op : PersistOp F) : LogsOn db (op.exec db).2 := by
  cases op with
  | appendWop op payload «at» => exact .appendWop db op payload «at»
  | putMemoryWithWop item op payload «at» =>
      have written : LogsOn db (db.putMemory item) := .same rfl rfl rfl
      exact written.trans (.appendWop _ op payload «at»)
  | recordConsolidation report started =>
      change LogsOn db (db.recordConsolidation report started)
      exact .recordConsolidationPrefix db report started _
  | unmerge id =>
      change LogsOn db (db.unmerge id).2
      unfold Db.unmerge
      split <;> exact .same rfl rfl rfl
  | appendAudit «at» actor action target detail =>
      exact ⟨List.prefix_refl _, List.prefix_append _ _, fun numbered => numbered⟩
  | _ => exact .same rfl rfl rfl

omit [FloatArith F] in
theorem logsOn_fails (db : Db F) (e : PersistError) (writes : Nat) (op : PersistOp F) :
    LogsOn db (op.fails db e writes).2 :=
  have kept {α : Type} (g : Db F → α)
      (inserts : ∀ db report started, g (Db.insertConsolidation db report started) = g db)
      (reports : ∀ db started id stage error, g (Db.appendReconcile db started id stage error) = g db) :=
    fails_keeps g inserts reports db e writes op
  .same (kept (·.wopLog) (fun _ _ _ => rfl) fun _ _ _ _ _ => rfl)
    (kept (·.wopSeq) (fun _ _ _ => rfl) fun _ _ _ _ _ => rfl)
    (kept (·.auditLog) (fun _ _ _ => rfl) fun _ _ _ _ _ => rfl)

theorem logsOn_request (r : Request F) (w : World F) :
    LogsOn w.db ((machine F).exec r w).2.db := by
  cases r with
  | persist op =>
      change LogsOn w.db (w.execPersist op).2
      rcases w.execPersist_cases op with done | ⟨e, n, failed⟩
      · rw [done]
        exact logsOn_exec w.db op
      · rw [failed]
        exact logsOn_fails w.db e n op
  | acquire lock => cases lock <;> exact .refl _
  | release lock => cases lock <;> exact .refl _
  | _ => exact .refl _

/-- One program alone. -/
theorem logsOn_run {α : Type} (p : EngineM F α) (w : World F) : LogsOn w.db (run p w).2.db := by
  induction p generalizing w with
  | done a => exact .refl _
  | fail e => exact .refl _
  | request r next ih => exact (logsOn_request r w).trans (ih _ _)

/-- Any programs, side by side. -/
theorem logsOn_reaches {α : Type} {C : Pool (engineSignature F) MemoryError α (World F) → Nat → Prop}
    {first pool : Pool (engineSignature F) MemoryError α (World F)}
    (reach : Pool.Reaches (machine F) C first pool) : LogsOn first.world.db pool.world.db := by
  induction reach with
  | start => exact .refl _
  | step _ _ moved ih =>
      obtain ⟨h, r, next, -, -, rfl⟩ := (Pool.step_eq_some_iff (machine F)).mp moved
      exact ih.trans (logsOn_request r _)

variable [JsonText F]

/-- However the calls of the handle interleave and whichever storage calls fail: what is logged
at one point of a run is logged at every later one, a log that starts out numbered from 1 without
gaps stays so, and a page of it that was full is read the same ever after. -/
theorem logs_append_only {eng : MemoryEngine} {w : World F} {calls : List EngineCall}
    {before after : Tasks F} (numbered : Numbered w.db)
    (reach : Pool.Reaches (machine F) (fun _ _ => True) (Tasks.start eng w calls) before)
    (later : Pool.Reaches (machine F) (fun _ _ => True) before after) :
    before.world.db.wopLog <+: after.world.db.wopLog ∧
      before.world.db.auditLog <+: after.world.db.auditLog ∧
      after.world.db.wopLog.map (·.seq) = List.range' 1 after.world.db.wopLog.length ∧
      ∀ since limit, (before.world.db.listWopSince since limit).length = limit →
        after.world.db.listWopSince since limit = before.world.db.listWopSince since limit := by
  have grown := logsOn_reaches later
  have counted : Numbered after.world.db := grown.numbered ((logsOn_reaches reach).numbered numbered)
  have count := congrArg List.length counted
  rw [List.length_map, List.length_range'] at count
  refine ⟨grown.wop, grown.audit, ?_, fun since limit full => grown.page full⟩
  rw [count]
  exact counted

/-- A consolidation run has read its change set, and the deletion of a memory is under way. -/
def deletionUnderWay : Tasks Fixed :=
  Pool.runSchedule (machine Fixed) [0, 0, 0, 0, 1, 1, 1, 1]
    (Tasks.start (plainEngine "a") shortFactWorld [.consolidateMemories, .deleteMemoryTenant "m1" "a"])

/-- Both have logged something. -/
def bothLogged : Tasks Fixed :=
  Pool.runSchedule (machine Fixed) [1, 1, 1, 1, 1, 1, 1, 0, 0, 0, 0] deletionUnderWay

theorem deletionUnderWay_reached : Pool.Reaches (machine Fixed) (fun _ _ => True)
    (Tasks.start (plainEngine "a") shortFactWorld [.consolidateMemories, .deleteMemoryTenant "m1" "a"])
    deletionUnderWay :=
  Pool.reaches_runSchedule (fun _ _ => true) (fun _ _ _ _ _ _ _ => trivial) _ _ (by decide +kernel)

theorem bothLogged_reached :
    Pool.Reaches (machine Fixed) (fun _ _ => True) deletionUnderWay bothLogged :=
  Pool.reaches_runSchedule (fun _ _ => true) (fun _ _ _ _ _ _ _ => trivial) _ _ (by decide +kernel)

theorem logs_append_only_bothLogged :
    deletionUnderWay.world.db.wopLog <+: bothLogged.world.db.wopLog ∧
      deletionUnderWay.world.db.auditLog <+: bothLogged.world.db.auditLog ∧
      bothLogged.world.db.wopLog.map (·.seq) =
        List.range' 1 bothLogged.world.db.wopLog.length ∧
      ∀ since limit, (deletionUnderWay.world.db.listWopSince since limit).length = limit →
        bothLogged.world.db.listWopSince since limit =
          deletionUnderWay.world.db.listWopSince since limit :=
  logs_append_only (by rfl) deletionUnderWay_reached bothLogged_reached

end FusionMemory
