import FusionMemory.Engine.Calls
import FusionMemory.Engine.RowFrame
import FusionMemory.Engine.Staging
import FusionMemory.Lib.DecimalJson

/-!
Whether a consolidation run sees every committed memory.

A run looks at the rows that changed after the start of the last recorded run. A commit
stamps its rows with a clock that it read before it embedded them. `changes_not_lost`
says that if each row is stored while its stamp is later than the watermark and the start
of every run in progress, some run that starts afterwards has it in its change set.
-/

namespace FusionMemory

open Lib

variable {F : Type} [FloatArith F] [JsonText F]

/-! ### Runs and commits in a pool -/

/-- A commit stored `item` at time `t`. -/
def WrittenAt (calls : List Call) (item : MemoryItem F) (pool : Calls F) (t : Nat) : Prop :=
  ∃ i : Nat, ∃ thread sessionId interaction op payload «at»,
    calls[i]? = some (.commit sessionId interaction) ∧ pool.threads[i]? = some thread ∧
      (⟨t, .persist (.putMemoryWithWop item op payload «at»), .ok ()⟩ : EngineEvent F) ∈
        thread.history

/-- Thread `k` is an unscoped consolidation run. -/
def IsRun (calls : List Call) (pool : Calls F) (k : Nat)
    (thread : Thread (engineSignature F) MemoryError Unit) : Prop :=
  (∃ c, calls[k]? = some c ∧ c.Unscoped) ∧ pool.threads[k]? = some thread

/-- A run that started after time `t` has a row of `id` in its change set. -/
def Covered (calls : List Call) (id : String) (t : Nat) (pool : Calls F) : Prop :=
  ∃ k thread s c rows, IsRun calls pool k thread ∧ (stage thread.history).start = some (s, c) ∧
    t < s ∧ (stage thread.history).changed = some rows ∧ ∃ m ∈ rows, m.id = id

/-- The stamp of a row is later than the watermark and the start of each run in progress. -/
structure Ahead (calls : List Call) (stamp : Nat) (pool : Calls F) : Prop where
  mark : asI64 pool.world.db.lastConsolidateAt < asI64 stamp
  running : ∀ k h r next, IsRun calls pool k ⟨h, .request r next⟩ →
    ∀ s c, (stage h).start = some (s, c) → asI64 c < asI64 stamp

/-- If this step is that of a commit which stores the memory `id`, its stamp is ahead. -/
def StoresAhead (calls : List Call) (id : String) (pool : Calls F) (i : Nat) : Prop :=
  ∀ sessionId interaction h item op payload «at» next,
    calls[i]? = some (.commit sessionId interaction) →
      pool.threads[i]? = some ⟨h, .request (.persist (.putMemoryWithWop item op payload «at»)) next⟩ →
        item.id = id → Ahead calls item.createdTimestamp pool

/-- Once a commit has stored the memory `id`, it is live before this step. -/
def LiveOnceWritten (calls : List Call) (id : String) (pool : Calls F) : Prop :=
  ∀ item t, item.id = id → WrittenAt calls item pool t →
    ∃ m, pool.world.db.getMemory id = some m ∧ m.tombstone = false

/-- In every run of the calls whose steps meet `C`, from a world whose memories all have
ids that were handed out, a committed memory `id` is in the change set of a run that
started after it was stored, as soon as any such run has read its change set. -/
def NoChangeLost (C : Calls F → Nat → Prop) (eng : MemoryEngine) (w : World F)
    (calls : List Call) (id : String) : Prop :=
  (∀ m ∈ w.db.memoryItem.rows, m.id ∈ w.issued) →
    ∀ pool, Pool.Reaches (machine F) C (Calls.start eng w calls) pool →
      ∀ item t, item.id = id → WrittenAt calls item pool t →
        ∀ k thread s c, IsRun calls pool k thread → (stage thread.history).start = some (s, c) →
          t < s → (stage thread.history).changed.isSome → Covered calls id t pool

/-! ### Stages -/

section Stages

omit [FloatArith F] [JsonText F]

theorem Stage.see_changed {s : Stage F} {rows : List (MemoryItem F)} (known : s.changed = some rows)
    (e : EngineEvent F) : (s.see e).changed = some rows := by
  unfold see
  split
  · split_ifs <;> exact known
  · split_ifs <;> exact known
  · simp [known]
  · exact known

/-- A call learns its watermark after its start, and its change set after that. -/
theorem stage_ordered (h : List (EngineEvent F)) :
    ((stage h).since.isSome → (stage h).start.isSome) ∧
      ((stage h).changed.isSome → (stage h).since.isSome) := by
  induction h with
  | nil => exact ⟨fun none => none, fun none => none⟩
  | cons e rest ih =>
      rw [stage_cons]
      generalize stage rest = s at ih
      unfold Stage.see
      split
      · split_ifs
        · exact ⟨fun _ => rfl, ih.2⟩
        · exact ih
      · split_ifs with fresh
        · exact ⟨fun _ => (Bool.and_eq_true_iff.mp fresh).1, fun _ => rfl⟩
        · exact ih
      · split_ifs with fresh
        · exact ⟨ih.1, fun _ => (Bool.and_eq_true_iff.mp fresh).1⟩
        · exact ih
      · exact ih

/-- A call that has not started has read nothing. -/
theorem stage_notStarted {h : List (EngineEvent F)} (begun : (stage h).start = none) :
    (stage h).since = none ∧ (stage h).changed = none := by
  obtain ⟨afterStart, afterSince⟩ := stage_ordered h
  have unmarked : (stage h).since = none := by
    cases known : (stage h).since with
    | none => rfl
    | some since =>
        have started := afterStart (by rw [known]; rfl)
        rw [begun] at started
        cases started
  refine ⟨unmarked, ?_⟩
  cases known : (stage h).changed with
  | none => rfl
  | some rows =>
      have marked := afterSince (by rw [known]; rfl)
      rw [unmarked] at marked
      cases marked

/-- The start of a call is an event of it. -/
theorem stage_start_mem {h : List (EngineEvent F)} {s c : Nat}
    (started : (stage h).start = some (s, c)) : (⟨s, .nowMs, c⟩ : EngineEvent F) ∈ h := by
  induction h with
  | nil => cases started
  | cons e rest ih =>
      rw [stage_cons] at started
      unfold Stage.see at started
      split at started
      · split_ifs at started
        · cases started
          exact List.mem_cons_self
        · exact List.mem_cons_of_mem _ (ih started)
      · split_ifs at started <;> exact List.mem_cons_of_mem _ (ih started)
      · split_ifs at started <;> exact List.mem_cons_of_mem _ (ih started)
      · exact List.mem_cons_of_mem _ (ih started)

end Stages

/-! ### The watermark -/

omit [FloatArith F] [JsonText F] in
/-- The watermark is the latest recorded start, and 0 if there is none. -/
theorem asI64_lastConsolidateAt (db : Db F) : asI64 db.lastConsolidateAt =
    ((db.consolidationLog.map fun e => asI64 e.startedAt).max?).getD 0 := by
  unfold Db.lastConsolidateAt
  cases latest : (db.consolidationLog.map fun e => asI64 e.startedAt).max? with
  | none => simp
  | some m =>
      obtain ⟨e, -, rfl⟩ := List.mem_map.mp (List.max?_mem latest)
      rw [Option.getD_some, asI64_asU64]

omit [FloatArith F] [JsonText F] in
/-- A watermark that was behind stays behind when a start that is behind is recorded. -/
theorem lastConsolidateAt_append {db db' : Db F} {e : ConsolidationEntry} {stamp : Nat}
    (log : db'.consolidationLog = db.consolidationLog ++ [e])
    (mark : asI64 db.lastConsolidateAt < asI64 stamp) (start : asI64 e.startedAt < asI64 stamp) :
    asI64 db'.lastConsolidateAt < asI64 stamp := by
  rw [asI64_lastConsolidateAt] at mark ⊢
  rw [log, List.map_append, List.map_singleton]
  generalize db.consolidationLog.map (fun e => asI64 e.startedAt) = starts at mark
  generalize asI64 e.startedAt = new at start
  generalize asI64 stamp = bound at mark start
  cases latest : (starts ++ [new]).max? with
  | none =>
      rw [List.max?_eq_none_iff] at latest
      simp at latest
  | some m =>
      rw [Option.getD_some]
      rcases List.mem_append.mp (List.max?_mem latest) with old | last
      · cases before : starts.max? with
        | none =>
            rw [List.max?_eq_none_iff.mp before] at old
            cases old
        | some m' =>
            rw [before, Option.getD_some] at mark
            exact lt_of_le_of_lt ((List.max?_le_iff before).mp (le_refl m') m old) mark
      · rwa [List.mem_singleton.mp last]

omit [FloatArith F] [JsonText F] in
theorem recordConsolidationPrefix_log (db : Db F) (report : ConsolidationReport) (start n : Nat) :
    (db.recordConsolidationPrefix report start n).consolidationLog = db.consolidationLog ∨
      (db.recordConsolidationPrefix report start n).consolidationLog =
        db.consolidationLog ++ [⟨start, report⟩] := by
  have appended : ∀ (fs : List ConsolidationFailure) (db : Db F),
      (fs.foldl (fun db f => db.appendReconcile start f.memoryId f.stage f.error) db).consolidationLog =
        db.consolidationLog := by
    intro fs
    induction fs with
    | nil => exact fun _ => rfl
    | cons f rest ih => exact fun db => ih (db.appendReconcile start f.memoryId f.stage f.error)
  cases n with
  | zero => exact .inl rfl
  | succ n => exact .inr (appended _ _)

omit [FloatArith F] [JsonText F] in
/-- Only the record of a run reaches the consolidation log. -/
theorem consolidationLog_execPersist (w : World F) (op : PersistOp F) :
    (w.execPersist op).2.consolidationLog = w.db.consolidationLog ∨
      ∃ report start, op = .recordConsolidation report start ∧
        (w.execPersist op).2.consolidationLog = w.db.consolidationLog ++ [⟨start, report⟩] := by
  rcases w.execPersist_cases op with done | ⟨e, n, failed⟩
  · rw [done]
    cases op with
    | recordConsolidation report start =>
        rcases recordConsolidationPrefix_log w.db report start (report.failures.length + 1)
          with same | new
        · exact .inl same
        · exact .inr ⟨report, start, rfl, new⟩
    | unmerge id =>
        left
        change (w.db.unmerge id).2.consolidationLog = _
        unfold Db.unmerge
        split <;> rfl
    | _ => exact .inl rfl
  · rw [failed]
    unfold PersistOp.fails
    split
    · rename_i report start
      rcases recordConsolidationPrefix_log w.db report start (min n report.failures.length)
        with same | new
      · exact .inl same
      · exact .inr ⟨report, start, rfl, new⟩
    · split <;> exact .inl rfl
    all_goals exact .inl rfl

omit [JsonText F] in
theorem consolidationLog_exec (w : World F) (r : Request F) :
    (w.exec r).2.db.consolidationLog = w.db.consolidationLog ∨
      ∃ report start, r = .persist (.recordConsolidation report start) ∧
        (w.exec r).2.db.consolidationLog = w.db.consolidationLog ++ [⟨start, report⟩] := by
  cases r with
  | persist op =>
      rcases consolidationLog_execPersist w op with same | ⟨report, start, rfl, new⟩
      · exact .inl same
      · exact .inr ⟨report, start, rfl, new⟩
  | acquire lock => cases lock <;> exact .inl rfl
  | release lock => cases lock <;> exact .inl rfl
  | _ => exact .inl rfl

/-! ### Stamps -/

/-- A call whose clock showed `c` was handed the ULID `id`. -/
def OwnedBy (c : Nat) (id : String) (pool : Calls F) : Prop :=
  ∃ i : Nat, ∃ thread, pool.threads[i]? = some thread ∧ Named thread.history id c

/-- The row of `id` and all copies of it are stamped by the one call that was handed the
id, which is known to the world. -/
structure StampHolds (calls : List Call) (id : String) (pool : Calls F) : Prop where
  past : ∀ e ∈ pool.events, e.time < pool.time
  row : ∀ m, pool.world.db.getMemory id = some m →
    id ∈ pool.world.issued ∧ ∀ c, OwnedBy c id pool → m.createdTimestamp = c
  copies : ∀ e ∈ pool.events, ∀ m ∈ rowsRead e, m.id = id →
    id ∈ pool.world.issued ∧ ∀ c, OwnedBy c id pool → m.createdTimestamp = c
  owner : ∀ c, OwnedBy c id pool → id ∈ pool.world.issued ∧ ∀ c', OwnedBy c' id pool → c' = c
  written : ∀ item t, item.id = id → WrittenAt calls item pool t →
    OwnedBy item.createdTimestamp id pool

section Step

variable {calls : List Call} {id : String} {pool : Calls F} {i : Nat} {h : List (EngineEvent F)}
  {r : Request F} {next : r.Reply → EngineM F Unit}

omit [JsonText F] in
theorem issued_exec (w : World F) (r : Request F) {id : String} (issued : id ∈ w.issued) :
    id ∈ (w.exec r).2.issued := by
  cases r with
  | newUlid => exact List.mem_cons_of_mem _ issued
  | acquire lock => cases lock <;> exact issued
  | release lock => cases lock <;> exact issued
  | _ => exact issued

omit [JsonText F] in
/-- A call that owns an id after a step owned it before, or is handed it, as one that the
world did not know. -/
theorem ownedBy_advance (found : pool.threads[i]? = some ⟨h, .request r next⟩) {c : Nat}
    (owned : OwnedBy c id (pool.advance (machine F) i h r next)) :
    OwnedBy c id pool ∨ id ∉ pool.world.taken ∧ id ∈ (pool.world.exec r).2.issued ∧
      ∃ s, (stage h).start = some (s, c) := by
  obtain ⟨j, thread, listed, named⟩ := owned
  rcases Pool.advance_threads_cases found listed with ⟨-, old⟩ | ⟨rfl, rfl⟩
  · exact .inl ⟨j, thread, old, named⟩
  · obtain ⟨t, s, before, suffix, started⟩ := named
    rcases List.suffix_cons_iff.mp suffix with now | earlier
    · injection now with event same
      injection event with _ request reply
      subst request
      have reply : id = (pool.world.env.ulid pool.world.tick pool.world.taken).1 := eq_of_heq reply
      refine .inr ⟨?_, ?_, s, same ▸ started⟩
      · rw [reply]
        exact (pool.world.env.ulid pool.world.tick pool.world.taken).2.1
      · rw [reply]
        exact List.mem_cons_self
    · exact .inl ⟨j, _, found, t, s, before, earlier, started⟩

omit [JsonText F] in
theorem OwnedBy.advance (found : pool.threads[i]? = some ⟨h, .request r next⟩) {c : Nat}
    (owned : OwnedBy c id pool) : OwnedBy c id (pool.advance (machine F) i h r next) := by
  obtain ⟨j, thread, listed, named⟩ := owned
  by_cases same : j = i
  · subst same
    rw [found] at listed
    cases listed
    exact ⟨j, _, Pool.advance_threads_self (List.getElem?_eq_some_iff.mp found).1, named.cons _⟩
  · exact ⟨j, thread, (Pool.advance_threads_ne (Ne.symm same)).trans listed, named⟩

omit [JsonText F] in
/-- A commit that stored a row by the end of a step stored it before, or in this step. -/
theorem writtenAt_advance (found : pool.threads[i]? = some ⟨h, .request r next⟩)
    {item : MemoryItem F} {t : Nat}
    (written : WrittenAt calls item (pool.advance (machine F) i h r next) t) :
    WrittenAt calls item pool t ∨ t = pool.time ∧ ∃ sessionId interaction op payload «at»,
      calls[i]? = some (.commit sessionId interaction) ∧
        r = .persist (.putMemoryWithWop item op payload «at») := by
  obtain ⟨j, thread, sessionId, interaction, op, payload, «at», call, listed, happened⟩ := written
  rcases Pool.advance_threads_cases found listed with ⟨-, old⟩ | ⟨rfl, rfl⟩
  · exact .inl ⟨j, thread, sessionId, interaction, op, payload, «at», call, old, happened⟩
  · rcases List.mem_cons.mp happened with now | earlier
    · injection now with time request reply
      exact .inr ⟨time, sessionId, interaction, op, payload, «at», call, request.symm⟩
    · exact .inl ⟨j, _, sessionId, interaction, op, payload, «at», call, found, earlier⟩

omit [JsonText F] in
/-- What a call may store under an id is stamped by the owner of the id. -/
theorem StampHolds.stored (holds : StampHolds calls id pool)
    (found : pool.threads[i]? = some ⟨h, .request r next⟩) {c : Call} (allowed : c.Allows h r)
    {m : MemoryItem F} (stored : (pool.world.exec r).2.db.getMemory id = some m) :
    id ∈ pool.world.issued ∧ ∀ c, OwnedBy c id pool → m.createdTimestamp = c := by
  have happened := Pool.history_happened found
  rcases getMemory_exec_cases pool.world r id
    with ⟨-, same⟩ | ⟨op, rfl, writes, ⟨-, same⟩ | ⟨-, done⟩⟩
  · exact holds.row m (same.symm.trans stored)
  · exact holds.row m (same.symm.trans stored)
  · rw [done] at stored
    cases op with
    | putMemory item =>
        have same : item.id = id := not_not.mp writes
        cases stored
        obtain ⟨e, mem, m₀, read, sameId, -, -, sameStamp⟩ := allowed
        rw [sameStamp]
        exact holds.copies e (happened e mem) m₀ read (sameId.symm.trans same)
    | putMemoryWithWop item _ _ _ =>
        have same : item.id = id := not_not.mp writes
        cases stored
        have owned : OwnedBy m.createdTimestamp id pool := ⟨i, _, found, same ▸ allowed⟩
        exact ⟨(holds.owner _ owned).1, fun c owned' => ((holds.owner _ owned').2 _ owned)⟩
    | tombstoneMemory _ | untombstoneMemory _ =>
        obtain ⟨m₀, old, rfl⟩ := Option.map_eq_some_iff.mp stored
        exact holds.row m₀ old
    | touchAccessBatch ids now =>
        obtain ⟨m₀, old, rfl⟩ := Option.map_eq_some_iff.mp stored
        split_ifs <;> exact holds.row m₀ old
    | physicalDelete _ => cases stored
    | _ => exact absurd trivial writes

omit [JsonText F] in
theorem StampHolds.advance (holds : StampHolds calls id pool)
    (found : pool.threads[i]? = some ⟨h, .request r next⟩) {c : Call} (allowed : c.Allows h r) :
    StampHolds calls id (pool.advance (machine F) i h r next) := by
  -- Whoever is handed the id now finds it in no row, no copy and no other call.
  have handed : id ∈ pool.world.issued → ∀ c,
      OwnedBy c id (pool.advance (machine F) i h r next) → OwnedBy c id pool := by
    intro issued c owned
    rcases ownedBy_advance found owned with old | ⟨new, -⟩
    · exact old
    · exact absurd (List.mem_append_left _ issued) new
  have kept : id ∈ pool.world.issued → id ∈ (pool.world.exec r).2.issued := issued_exec _ r
  constructor
  · exact Pool.past_advance holds.past found
  · intro m stored
    obtain ⟨issued, stamped⟩ := holds.stored found allowed (m := m) stored
    exact ⟨kept issued, fun c owned => stamped c (handed issued c owned)⟩
  · intro e mem m read same
    have known : id ∈ pool.world.issued ∧ ∀ c, OwnedBy c id pool → m.createdTimestamp = c := by
      rcases (Pool.mem_events_advance found).mp mem with rfl | old
      · have row := getMemory_rowsRead read
        rw [same] at row
        exact holds.row m row
      · exact holds.copies e old m read same
    exact ⟨kept known.1, fun c owned => known.2 c (handed known.1 c owned)⟩
  · intro c owned
    rcases ownedBy_advance found owned with old | ⟨new, issued, s, started⟩
    · obtain ⟨issued, only⟩ := holds.owner c old
      exact ⟨kept issued, fun c' owned' => only c' (handed issued c' owned')⟩
    · refine ⟨issued, fun c' owned' => ?_⟩
      rcases ownedBy_advance found owned' with old | ⟨-, -, s', started'⟩
      · exact absurd (List.mem_append_left _ (holds.owner c' old).1) new
      · rw [started] at started'
        exact (congrArg Prod.snd (Option.some.inj started')).symm
  · intro item t same written
    rcases writtenAt_advance found written with old | ⟨-, _, _, op, payload, «at», -, rfl⟩
    · exact (holds.written item t same old).advance found
    · exact OwnedBy.advance found ⟨i, _, found, same ▸ allowed⟩

/-! ### Changes that no run has seen -/

omit [FloatArith F] [JsonText F] in
theorem Stage.see_start_new {s : Stage F} (fresh : s.start = none) {e : EngineEvent F} {t c : Nat}
    (started : (s.see e).start = some (t, c)) :
    e = ⟨t, .nowMs, c⟩ ∧ (s.see e).since = s.since ∧ (s.see e).changed = s.changed := by
  unfold see at started ⊢
  split at started
  · rw [if_pos (by simp [fresh])] at started ⊢
    cases started
    exact ⟨rfl, rfl, rfl⟩
  · split_ifs at started <;> exact absurd (fresh.symm.trans started) (by simp)
  · split_ifs at started <;> exact absurd (fresh.symm.trans started) (by simp)
  · exact absurd (fresh.symm.trans started) (by simp)

omit [FloatArith F] [JsonText F] in
theorem Stage.see_since_cases (s : Stage F) (e : EngineEvent F) : (s.see e).since = s.since ∨
    ∃ t since, e = ⟨t, .persist .lastConsolidateAt, .ok since⟩ ∧ (s.see e).since = some since := by
  unfold see
  split
  · split_ifs <;> exact .inl rfl
  · split_ifs
    · exact .inr ⟨_, _, rfl, rfl⟩
    · exact .inl rfl
  · split_ifs <;> exact .inl rfl
  · exact .inl rfl

omit [FloatArith F] [JsonText F] in
theorem Stage.see_changed_cases (s : Stage F) (e : EngineEvent F) :
    (s.see e).changed = s.changed ∨ ∃ t since ns rows,
      e = ⟨t, .persist (.listChangedSinceScoped since ns), .ok rows⟩ ∧
        (s.see e).changed = some rows := by
  unfold see
  split
  · split_ifs <;> exact .inl rfl
  · split_ifs <;> exact .inl rfl
  · split_ifs
    · exact .inr ⟨_, _, _, _, rfl, rfl⟩
    · exact .inl rfl
  · exact .inl rfl

/-- No run that started after time `t` has read its change set, and a row stamped `stamp`
will be in it: the watermark, the starts that may still be recorded and the watermarks
already read are behind the stamp. -/
structure Pending (calls : List Call) (stamp t : Nat) (pool : Calls F) : Prop where
  mark : asI64 pool.world.db.lastConsolidateAt < asI64 stamp
  running : ∀ k h r next, IsRun calls pool k ⟨h, .request r next⟩ →
    ∀ s c, (stage h).start = some (s, c) → s ≤ t → asI64 c < asI64 stamp
  later : ∀ k thread, IsRun calls pool k thread →
    ∀ s c, (stage thread.history).start = some (s, c) → t < s →
      (stage thread.history).changed = none ∧
        ∀ since, (stage thread.history).since = some since → asI64 since < asI64 stamp

omit [JsonText F] in
theorem isRun_advance (found : pool.threads[i]? = some ⟨h, .request r next⟩) {k : Nat}
    {thread : Thread (engineSignature F) MemoryError Unit}
    (run : IsRun calls (pool.advance (machine F) i h r next) k thread) :
    k ≠ i ∧ IsRun calls pool k thread ∨ k = i ∧ IsRun calls pool i ⟨h, .request r next⟩ ∧
      thread = ⟨⟨pool.time, r, (pool.world.exec r).1⟩ :: h, next (pool.world.exec r).1⟩ := by
  obtain ⟨unscoped, listed⟩ := run
  rcases Pool.advance_threads_cases found listed with ⟨other, old⟩ | ⟨rfl, rfl⟩
  · exact .inl ⟨other, unscoped, old⟩
  · exact .inr ⟨rfl, ⟨unscoped, found⟩, rfl⟩

omit [JsonText F] in
theorem Covered.advance (found : pool.threads[i]? = some ⟨h, .request r next⟩) {t : Nat}
    (covered : Covered calls id t pool) : Covered calls id t (pool.advance (machine F) i h r next) := by
  obtain ⟨k, thread, s, c, rows, ⟨unscoped, listed⟩, started, late, changed, member⟩ := covered
  by_cases same : k = i
  · subst same
    rw [found] at listed
    cases listed
    refine ⟨k, _, s, c, rows, ⟨unscoped,
      Pool.advance_threads_self (List.getElem?_eq_some_iff.mp found).1⟩, ?_, late, ?_, member⟩
    · exact Stage.see_start started _
    · exact Stage.see_changed changed _
  · exact ⟨k, thread, s, c, rows, ⟨unscoped, (Pool.advance_threads_ne (Ne.symm same)).trans listed⟩,
      started, late, changed, member⟩

omit [JsonText F] in
/-- A recorded start is behind the stamp. -/
theorem Pending.mark_advance {stamp t : Nat} (pending : Pending calls stamp t pool)
    (found : pool.threads[i]? = some ⟨h, .request r next⟩) {c : Call} (call : calls[i]? = some c)
    (allowed : c.Allows h r) : asI64 (pool.world.exec r).2.db.lastConsolidateAt < asI64 stamp := by
  rcases consolidationLog_exec pool.world r with same | ⟨report, start, rfl, log⟩
  · unfold Db.lastConsolidateAt
    rw [same]
    exact pending.mark
  · obtain ⟨unscoped, read, s, started⟩ := allowed
    have run : IsRun calls pool i _ := ⟨⟨c, call, unscoped⟩, found⟩
    refine lastConsolidateAt_append log pending.mark ?_
    by_cases early : s ≤ t
    · exact pending.running i h (.persist (.recordConsolidation report start)) next run s start
        started early
    · have unread := (pending.later i _ run s start started (Nat.lt_of_not_le early)).1
      rw [unread] at read
      cases read

omit [JsonText F] in
/-- No run starts in the past. -/
theorem Pending.running_advance {stamp t : Nat} (pending : Pending calls stamp t pool)
    (found : pool.threads[i]? = some ⟨h, .request r next⟩) (past : t < pool.time) (k : Nat)
    (h' : List (EngineEvent F)) (r' : Request F)
    (next' : r'.Reply → Program (engineSignature F) MemoryError Unit)
    (run : IsRun calls (pool.advance (machine F) i h r next) k ⟨h', .request r' next'⟩) (s c : Nat)
    (started : (stage h').start = some (s, c)) (early : s ≤ t) : asI64 c < asI64 stamp := by
  rcases isRun_advance found run with ⟨-, old⟩ | ⟨rfl, old, same⟩
  · exact pending.running k h' r' next' old s c started early
  · injection same with history _
    subst history
    cases begun : (stage h).start with
    | some p =>
        rw [stage_cons, Stage.see_start begun] at started
        exact pending.running k h r next old s c (begun.trans started) early
    | none =>
        obtain ⟨event, -⟩ := Stage.see_start_new begun started
        injection event with time _ _
        omega

section Later

variable {stamp t s c : Nat}

omit [JsonText F] in
/-- The watermark that a run reads is behind the stamp. -/
theorem Pending.since_advance (pending : Pending calls stamp t pool)
    (run : IsRun calls pool i ⟨h, .request r next⟩) (started : (stage h).start = some (s, c))
    (late : t < s) {since : Nat}
    (known : ((stage h).see ⟨pool.time, r, (pool.world.exec r).1⟩).since = some since) :
    asI64 since < asI64 stamp := by
  obtain ⟨-, behind⟩ := pending.later i _ run s c started late
  rcases Stage.see_since_cases (stage h) ⟨pool.time, r, (pool.world.exec r).1⟩ with
    same | ⟨t', since', event, known'⟩
  · exact behind since (same.symm.trans known)
  · injection event with time request reply
    subst request
    have read : Except.ok pool.world.db.lastConsolidateAt = Except.ok since' :=
      World.execPersist_isRead_ok rfl (eq_of_heq reply)
    obtain rfl := Option.some.inj (known'.symm.trans known)
    rw [← Except.ok.inj read]
    exact pending.mark

omit [JsonText F] in
/-- A run that reads its change set covers the row. -/
theorem Pending.changed_advance (pending : Pending calls stamp t pool)
    (run : IsRun calls pool i ⟨h, .request r next⟩) (started : (stage h).start = some (s, c))
    (late : t < s) {call : Call} (listed : calls[i]? = some call) (allowed : call.Allows h r)
    {m : MemoryItem F} (stored : pool.world.db.getMemory id = some m) (live : m.tombstone = false)
    (stamped : m.createdTimestamp = stamp)
    (uncovered : ¬ Covered calls id t (pool.advance (machine F) i h r next)) :
    ((stage h).see ⟨pool.time, r, (pool.world.exec r).1⟩).changed = none := by
  obtain ⟨unread, behind⟩ := pending.later i _ run s c started late
  rcases Stage.see_changed_cases (stage h) ⟨pool.time, r, (pool.world.exec r).1⟩ with
    same | ⟨t', since, ns, rows, event, known⟩
  · exact same.trans unread
  · injection event with time request reply
    subst request
    have read : pool.world.db.listChangedSinceScoped since ns = .ok rows :=
      World.execPersist_isRead_ok rfl (eq_of_heq reply)
    obtain ⟨⟨call', listed', ns', isRun, inactive⟩, found⟩ := run
    obtain rfl := Option.some.inj (listed.symm.trans listed')
    obtain ⟨sameNs, marked⟩ := allowed
    obtain rfl : ns' = ns := by rw [isRun] at sameNs; exact Call.consolidate.inj sameNs
    have member : m ∈ rows := by
      refine (Db.mem_listChangedSinceScoped read).mpr ⟨Table.find?_mem stored, live, .inr ?_, ?_⟩
      · rw [stamped]
        exact behind since marked
      · unfold NamespaceFilter.visible
        simp [inactive]
    refine absurd ⟨i, _, s, c, rows, ⟨⟨call, listed, ns', isRun, inactive⟩,
      Pool.advance_threads_self (List.getElem?_eq_some_iff.mp found).1⟩, ?_, late, known, m, member,
      Table.find?_key stored⟩ uncovered
    exact Stage.see_start started _

end Later

omit [JsonText F] in
/-- The step lemma: while the row is live, a step keeps it pending, unless it hands the row to
a run. -/
theorem Pending.advance {stamp t : Nat} (pending : Pending calls stamp t pool)
    (found : pool.threads[i]? = some ⟨h, .request r next⟩) {c : Call} (call : calls[i]? = some c)
    (allowed : c.Allows h r) (past : t < pool.time) {m : MemoryItem F}
    (stored : pool.world.db.getMemory id = some m) (live : m.tombstone = false)
    (stamped : m.createdTimestamp = stamp)
    (uncovered : ¬ Covered calls id t (pool.advance (machine F) i h r next)) :
    Pending calls stamp t (pool.advance (machine F) i h r next) := by
  refine ⟨pending.mark_advance found call allowed, pending.running_advance found past, ?_⟩
  intro k thread run s c' started late
  rcases isRun_advance found run with ⟨-, old⟩ | ⟨rfl, old, rfl⟩
  · exact pending.later k thread old s c' started late
  · cases begun : (stage h).start with
    | none =>
        obtain ⟨-, since, changed⟩ := Stage.see_start_new begun started
        obtain ⟨unmarked, unread⟩ := stage_notStarted begun
        refine ⟨changed.trans unread, fun since' known => ?_⟩
        cases (since.trans unmarked).symm.trans known
    | some p =>
        have before : (stage h).start = some (s, c') := by
          change ((stage h).see _).start = some (s, c') at started
          rw [Stage.see_start begun] at started
          exact begun.trans started
        exact ⟨pending.changed_advance old before late call allowed stored live stamped uncovered,
          fun since known => pending.since_advance old before late known⟩

omit [JsonText F] in
/-- A row stored ahead of the watermark and of the runs in progress is pending. -/
theorem pending_of_ahead {sessionId : String} {interaction : Interaction} {stamp : Nat}
    (found : pool.threads[i]? = some ⟨h, .request r next⟩)
    (call : calls[i]? = some (.commit sessionId interaction)) (ahead : Ahead calls stamp pool)
    (past : ∀ e ∈ pool.events, e.time < pool.time)
    (log : (pool.world.exec r).2.db.consolidationLog = pool.world.db.consolidationLog) :
    Pending calls stamp pool.time (pool.advance (machine F) i h r next) := by
  -- A commit is no run, so the runs are those of before.
  have same : ∀ k thread, IsRun calls (pool.advance (machine F) i h r next) k thread →
      IsRun calls pool k thread := by
    intro k thread run
    rcases isRun_advance found run with ⟨-, old⟩ | ⟨-, ⟨⟨c, call', ns, isRun, -⟩, -⟩, -⟩
    · exact old
    · rw [call] at call'
      cases call'
      cases isRun
  constructor
  · change asI64 (pool.world.exec r).2.db.lastConsolidateAt < _
    unfold Db.lastConsolidateAt
    rw [log]
    exact ahead.mark
  · exact fun k h' r' next' run s c started _ => ahead.running k h' r' next' (same k _ run) s c started
  · intro k thread run s c started late
    have event := Pool.mem_events.mpr ⟨k, thread, (same k thread run).2, stage_start_mem started⟩
    exact absurd (past _ event) (Nat.lt_asymm late)

end Step

/-! ### All steps -/

/-- A stored row is in the change set of a run that started since, or it is pending. -/
structure WatermarkHolds (calls : List Call) (id : String) (pool : Calls F) : Prop where
  stamps : StampHolds calls id pool
  seen : ∀ item t, item.id = id → WrittenAt calls item pool t →
    Covered calls id t pool ∨ Pending calls item.createdTimestamp t pool

omit [JsonText F] in
theorem WatermarkHolds.advance {calls : List Call} {id : String} {pool : Calls F} {i : Nat}
    {h : List (EngineEvent F)} {r : Request F} {next : r.Reply → EngineM F Unit}
    (holds : WatermarkHolds calls id pool) (found : pool.threads[i]? = some ⟨h, .request r next⟩)
    {c : Call} (call : calls[i]? = some c) (allowed : c.Allows h r)
    (ahead : StoresAhead calls id pool i) (live : LiveOnceWritten calls id pool) :
    WatermarkHolds calls id (pool.advance (machine F) i h r next) := by
  refine ⟨holds.stamps.advance found allowed, fun item t same written => ?_⟩
  rcases writtenAt_advance found written
    with old | ⟨rfl, sessionId, interaction, op, payload, «at», commit, rfl⟩
  · by_cases covered : Covered calls id t (pool.advance (machine F) i h r next)
    · exact .inl covered
    · rcases holds.seen item t same old with before | pending
      · exact absurd (before.advance found) covered
      · obtain ⟨m, stored, alive⟩ := live item t same old
        have stamped := (holds.stamps.row m stored).2 _ (holds.stamps.written item t same old)
        obtain ⟨j, thread, _, _, _, _, _, -, listed, happened⟩ := old
        have past := holds.stamps.past _ (Pool.mem_events.mpr ⟨j, thread, listed, happened⟩)
        exact .inr (pending.advance found call allowed past stored alive stamped covered)
  · refine .inr (pending_of_ahead found commit
      (ahead sessionId interaction h item op payload «at» next commit found same) holds.stamps.past ?_)
    rcases consolidationLog_exec pool.world (.persist (.putMemoryWithWop item op payload «at»))
      with kept | ⟨_, _, isRecord, -⟩
    · exact kept
    · cases isRecord

theorem watermarkHolds_start (eng : MemoryEngine) {w : World F} (calls : List Call) (id : String)
    (known : ∀ m ∈ w.db.memoryItem.rows, m.id ∈ w.issued) :
    WatermarkHolds calls id (Calls.start eng w calls) := by
  have none : ∀ e, e ∉ (Calls.start eng w calls).events := by
    intro e happened
    have empty : (Calls.start eng w calls).events = [] := Pool.events_start w _
    rw [empty] at happened
    cases happened
  have noOwner : ∀ c, ¬ OwnedBy c id (Calls.start eng w calls) := by
    rintro c ⟨j, thread, listed, t, s, before, suffix, -⟩
    exact none _ (Pool.mem_events.mpr ⟨j, thread, listed, suffix.subset List.mem_cons_self⟩)
  have unwritten : ∀ item t, ¬ WrittenAt calls item (Calls.start eng w calls) t := by
    rintro item t ⟨j, thread, _, _, _, _, _, -, listed, happened⟩
    exact none _ (Pool.mem_events.mpr ⟨j, thread, listed, happened⟩)
  refine ⟨⟨fun e mem => absurd mem (none e), fun m stored => ?_, fun e mem => absurd mem (none e),
    fun c owned => absurd owned (noOwner c), fun item t _ written => absurd written (unwritten item t)⟩,
    fun item t _ written => absurd written (unwritten item t)⟩
  have issued := known m (Table.find?_mem stored)
  rw [(Table.find?_key stored : m.id = id)] at issued
  exact ⟨issued, fun c owned => absurd owned (noOwner c)⟩

/-- No change is lost in a run in which each committed row is stored ahead of the watermark
and of the consolidation runs in progress. -/
theorem changes_not_lost (eng : MemoryEngine) (w : World F) (calls : List Call) (id : String) :
    NoChangeLost (fun pool i => StoresAhead calls id pool i ∧ LiveOnceWritten calls id pool) eng w
      calls id := by
  intro known pool reach item t same written k thread s c run started late read
  have holds : WatermarkHolds calls id pool :=
    reach.invariant (Calls.keepsProtocol eng w calls) (watermarkHolds_start eng calls id known)
      fun pool i h r next holds found allowed cond _ => by
        obtain ⟨c, call, allowed⟩ := allowed
        exact holds.advance found call allowed cond.1 cond.2
  rcases holds.seen item t same written with covered | pending
  · exact covered
  · rw [(pending.later k thread run s c started late).1] at read
    cases read

/-! ### A memory that no run sees -/

/-- The row that an event stored, and when. -/
def stored? : EngineEvent F → Option (Nat × MemoryItem F)
  | ⟨t, .persist (.putMemoryWithWop item _ _ _), .ok _⟩ => some (t, item)
  | _ => none

omit [FloatArith F] [JsonText F] in
theorem stored?_eq_some {e : EngineEvent F} {t : Nat} {item : MemoryItem F}
    (stored : stored? e = some (t, item)) :
    ∃ op payload «at», e = ⟨t, .persist (.putMemoryWithWop item op payload «at»), .ok ()⟩ := by
  unfold stored? at stored
  split at stored
  · cases stored
    exact ⟨_, _, _, rfl⟩
  · cases stored

/-- An empty database, and a clock that goes on with every request. -/
def tickingWorld : World Fixed :=
  World.fresh { (Env.quiet : Env Fixed) with clock := fun t => t + 1 } .empty (.empty 0)

/-- A commit and two runs. -/
def commitAndRuns : List Call :=
  [.commit "s" ⟨"ix", "s", "a", "", "", [⟨0, "hello", "hi", []⟩]⟩, .consolidate .default,
    .consolidate .default]

/-- The commit reads the clock, the first run its change set, and the commit stores its row.
Then the first run ends and the second one follows. -/
def storedMidway : Calls Fixed :=
  Pool.runSchedule (machine Fixed) ([0, 1, 1, 1, 1, 0, 0, 0, 0] ++ List.replicate 20 1 ++ [2, 2, 2, 2])
    (Calls.start (plainEngine "a") tickingWorld commitAndRuns)

theorem commit_during_run_is_lost :
    ¬ NoChangeLost (fun pool _ => LiveOnceWritten commitAndRuns "x" pool) (plainEngine "a")
      tickingWorld commitAndRuns "x" := by
  intro notLost
  have reach : Pool.Reaches (machine Fixed) (fun pool _ => LiveOnceWritten commitAndRuns "x" pool)
      (Calls.start (plainEngine "a") tickingWorld commitAndRuns) storedMidway := by
    refine Pool.reaches_runSchedule (fun (pool : Calls Fixed) _ =>
      pool.events.all (fun e => (stored? e).isNone) ||
        (pool.world.db.getMemory "x").any fun m => !m.tombstone)
      (fun pool i h r next _ checked item t _ written => ?_) _ _ (by decide +kernel)
    obtain ⟨j, thread, _, _, op, payload, «at», -, listed, happened⟩ := written
    rcases Bool.or_eq_true_iff.mp checked with none | some
    · have event := Pool.mem_events.mpr ⟨j, thread, listed, happened⟩
      exact absurd (List.all_eq_true.mp none _ event) (by simp [stored?])
    · obtain ⟨m, stored, live⟩ := (Option.any_eq_true _ _).mp some
      exact ⟨m, stored, by simpa using live⟩
  -- The commit stored the row in step 8.
  have stores : (storedMidway.threads[0]?.bind fun thread =>
      thread.history.findSome? fun e => (stored? e).filter fun p => p.1 == 8 && p.2.id == "x").isSome =
        true := by decide +kernel
  obtain ⟨⟨t, item⟩, stores⟩ := Option.isSome_iff_exists.mp stores
  obtain ⟨writer, listed, stores⟩ := Option.bind_eq_some_iff.mp stores
  obtain ⟨e, happened, stores⟩ := List.exists_of_findSome?_eq_some stores
  obtain ⟨stores, here⟩ := Option.filter_eq_some_iff.mp stores
  obtain ⟨rfl, named⟩ : t = 8 ∧ item.id = "x" := by simpa using here
  obtain ⟨op, payload, «at», rfl⟩ := stored?_eq_some stores
  have written : WrittenAt commitAndRuns item storedMidway 8 :=
    ⟨0, writer, _, _, op, payload, «at», rfl, listed, happened⟩
  have first : (storedMidway.threads[1]?.bind fun thread => (stage thread.history).start) =
      some (2, 3) := by decide +kernel
  have second : (storedMidway.threads[2]?.bind fun thread => (stage thread.history).start) =
      some (20, 21) := by decide +kernel
  have unseen : (storedMidway.threads[2]?.bind fun thread => (stage thread.history).changed) =
      some [] := by decide +kernel
  obtain ⟨run, found, started⟩ := Option.bind_eq_some_iff.mp second
  rw [found, Option.bind_some] at unseen
  obtain ⟨k, thread, s, c, rows, ⟨⟨c', call, ns, isRun, -⟩, listed'⟩, started', late, changed, m,
      member, -⟩ := notLost (by simp [tickingWorld, World.fresh, Db.empty, Table.empty]) _ reach item 8
    named written 2 run 20 21 ⟨⟨_, rfl, .default, rfl, rfl⟩, found⟩ started (by decide)
    (by rw [unseen]; rfl)
  -- The first run started too early, and the change set of the second is empty.
  rcases k with _ | _ | _ | k
  · cases call
    cases isRun
  · rw [listed', Option.bind_some, started'] at first
    cases first
    exact absurd late (by decide)
  · rw [found] at listed'
    cases listed'
    rw [unseen] at changed
    cases changed
    cases member
  · cases call

end FusionMemory
