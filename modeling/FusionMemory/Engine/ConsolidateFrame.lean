import FusionMemory.Engine.ConsolidatePhases
import FusionMemory.Engine.RowFrame

/-!
Frames for the phases of a consolidation run.

`Evolves` bounds what a run may add: rows that satisfy `fresh`, merges that join ids in
`pair`. Each kind of request stays within its own bounds whether it succeeds or fails,
and `Only` lifts that to the phases.
-/

namespace FusionMemory

open Lib

variable {F : Type} [FloatArith F]

/-! ### What a run may do to rows and merges -/

/-- From `w` to `w'` the rows that are new satisfy `fresh`, and the merges that are new
join ids in `pair`. -/
structure World.Evolves (fresh : MemoryItem F → Prop) (pair : String → String → Prop)
    (w w' : World F) : Prop where
  env : w'.env = w.env
  rows : ∀ r ∈ w'.db.memoryItem.rows, r ∈ w.db.memoryItem.rows ∨ fresh r
  merges : ∃ new, w'.db.mergeLog = w.db.mergeLog ++ new ∧ ∀ e ∈ new, pair e.sourceId e.targetId

variable {fresh : MemoryItem F → Prop} {pair : String → String → Prop}

omit [FloatArith F] in
theorem World.Evolves.refl (w : World F) : w.Evolves fresh pair w :=
  ⟨rfl, fun _ mem => .inl mem, [], (List.append_nil _).symm, by simp⟩

omit [FloatArith F] in
theorem World.Evolves.trans {w w' w'' : World F} (first : w.Evolves fresh pair w')
    (last : w'.Evolves fresh pair w'') : w.Evolves fresh pair w'' := by
  obtain ⟨new, log, pairs⟩ := first.merges
  obtain ⟨new', log', pairs'⟩ := last.merges
  refine ⟨last.env.trans first.env, ?_, new ++ new', ?_, ?_⟩
  · intro r mem
    rcases last.rows r mem with old | isFresh
    · exact first.rows r old
    · exact .inr isFresh
  · rw [log', log, List.append_assoc]
  · intro e mem
    rcases List.mem_append.mp mem with old | isNew
    · exact pairs e old
    · exact pairs' e isNew

omit [FloatArith F] in
theorem World.Evolves.mono {fresh' : MemoryItem F → Prop} {pair' : String → String → Prop}
    {w w' : World F} (rows : ∀ r, fresh r → fresh' r) (merges : ∀ s t, pair s t → pair' s t)
    (evolves : w.Evolves fresh pair w') : w.Evolves fresh' pair' w' := by
  obtain ⟨new, log, pairs⟩ := evolves.merges
  exact ⟨evolves.env, fun r mem => (evolves.rows r mem).imp_right (rows r), new, log,
    fun e mem => merges _ _ (pairs e mem)⟩

omit [FloatArith F] in
/-- A step that leaves the merge log alone. -/
theorem World.Evolves.ofRows {w w' : World F} (env : w'.env = w.env)
    (log : w'.db.mergeLog = w.db.mergeLog)
    (rows : ∀ r ∈ w'.db.memoryItem.rows, r ∈ w.db.memoryItem.rows ∨ fresh r) :
    w.Evolves fresh pair w' :=
  ⟨env, rows, [], by rw [log, List.append_nil], by simp⟩

/-- The writes that `Evolves` allows. -/
def PersistOp.Within (fresh : MemoryItem F → Prop) (pair : String → String → Prop) :
    PersistOp F → Prop
  | .putMemory item | .putMemoryWithWop item _ _ _ => fresh item
  | .tombstoneMemory id | .untombstoneMemory id => ∀ r, r.id = id → fresh r
  | .recordMerge source target _ _ => pair source target
  | .unmerge _ | .touchAccessBatch _ _ => False
  | _ => True

def Request.Within (fresh : MemoryItem F → Prop) (pair : String → String → Prop) :
    Request F → Prop
  | .persist op => op.Within fresh pair
  | _ => True

omit [FloatArith F] in
theorem setTombstone_rows {db : Db F} {id : String} {b : Bool}
    (written : ∀ r : MemoryItem F, r.id = id → fresh r) {r : MemoryItem F}
    (mem : r ∈ (db.setTombstone id b).memoryItem.rows) : r ∈ db.memoryItem.rows ∨ fresh r := by
  obtain ⟨r', old, same⟩ := Memories.mem_setTombstone.mp mem
  split_ifs at same with hit
  · subst same
    exact .inr (written _ (beq_iff_eq.mp hit))
  · subst same
    exact .inl old

omit [FloatArith F] in
theorem putMemory_rows {db : Db F} {item : MemoryItem F} (written : fresh item)
    {r : MemoryItem F} (mem : r ∈ (db.putMemory item).memoryItem.rows) :
    r ∈ db.memoryItem.rows ∨ fresh r := by
  rcases Table.mem_upsert.mp mem with rfl | ⟨old, -⟩
  · exact .inr written
  · exact .inl old

omit [FloatArith F] in
/-- A call of the database within `fresh` and `pair`, whether it succeeds or fails. -/
theorem evolves_persist (w : World F) {op : PersistOp F} (within : op.Within fresh pair) :
    w.Evolves fresh pair (w.withDb (w.execPersist op).2) := by
  by_cases read : op.isRead = true
  · rw [w.execPersist_isRead read]
    exact .ofRows rfl rfl fun _ mem => .inl mem
  rcases w.execPersist_cases op with done | ⟨e, n, failed⟩
  · rw [done]
    cases op with
    | putMemory item => exact .ofRows rfl rfl fun _ mem => putMemory_rows within mem
    | putMemoryWithWop item _ _ _ => exact .ofRows rfl rfl fun _ mem => putMemory_rows within mem
    | tombstoneMemory id => exact .ofRows rfl rfl fun _ mem => setTombstone_rows within mem
    | untombstoneMemory id => exact .ofRows rfl rfl fun _ mem => setTombstone_rows within mem
    | recordMerge source target reason «at» =>
        refine ⟨rfl, fun _ mem => .inl mem, [_], rfl, fun e mem => ?_⟩
        rw [List.mem_singleton.mp mem]
        exact within
    | physicalDelete id => exact .ofRows rfl rfl fun _ mem => .inl (Table.mem_delete.mp mem).1
    | recordConsolidation report started =>
        obtain ⟨rows, log⟩ := w.db.recordConsolidationPrefix_same report started
          (report.failures.length + 1)
        exact .ofRows rfl log fun _ mem => .inl (rows ▸ mem)
    | appendWop _ _ _ | appendReconcile _ _ _ _ | appendAudit _ _ _ _ _ =>
        exact .ofRows rfl rfl fun _ mem => .inl mem
    | unmerge _ | touchAccessBatch _ _ => exact within.elim
    | _ => exact absurd rfl read
  · rw [failed]
    cases op with
    | recordConsolidation report started =>
        obtain ⟨rows, log⟩ := w.db.recordConsolidationPrefix_same report started
          (min n report.failures.length)
        exact .ofRows rfl log fun _ mem => .inl (rows ▸ mem)
    | unmerge _ | touchAccessBatch _ _ => exact within.elim
    | putMemory _ | putMemoryWithWop _ _ _ _ | tombstoneMemory _ | untombstoneMemory _
    | recordMerge _ _ _ _ | physicalDelete _ | appendWop _ _ _ | appendReconcile _ _ _ _
    | appendAudit _ _ _ _ _ => exact .ofRows rfl rfl fun _ mem => .inl mem
    | _ => exact absurd rfl read

theorem evolves_exec {r : Request F} (within : r.Within fresh pair) (w : World F) :
    w.Evolves fresh pair (w.exec r).2 := by
  cases r with
  | persist op => exact evolves_persist w within
  | acquire lock => cases lock <;> exact .ofRows rfl rfl fun _ mem => .inl mem
  | release lock => cases lock <;> exact .ofRows rfl rfl fun _ mem => .inl mem
  | _ => exact .ofRows rfl rfl fun _ mem => .inl mem

/-- A program whose requests are within `fresh` and `pair`. -/
theorem evolves_run {α : Type} {p : EngineM F α}
    (within : Program.Only (Request.Within fresh pair) p) (w : World F) :
    w.Evolves fresh pair (run p w).2 :=
  within.run World.Evolves.refl World.Evolves.trans (fun _ w within => evolves_exec within w) w

/-! ### The phases, within bounds -/

section Phases

variable [JsonText F]

omit [JsonText F] in
theorem within_merge {all changed : List (MemoryItem F)} {r : Request F}
    (request : MergeRequest all changed r)
    (known : ∀ src ∈ changed, ∀ r : MemoryItem F, r.id = src.id → fresh r)
    (pairs : ∀ src tgt, MergePair all changed src tgt → pair src.id tgt.id) :
    r.Within fresh pair := by
  cases request with
  | bury listed | revive listed _ => exact known _ listed
  | record _ merged => exact pairs _ _ merged
  | _ => trivial

omit [FloatArith F] [JsonText F] in
theorem within_late {eng : MemoryEngine} {changed : List (MemoryItem F)} {r : Request F}
    (request : LateRequest eng changed r)
    (puts : eng.hasExtractor = true → ∀ m ∈ changed, m.entitiesPending = true →
      ∀ entities, fresh (reextracted m entities)) : r.Within fresh pair := by
  cases request with
  | put entities able listed pending => exact puts able _ listed pending entities
  | _ => trivial

/-! ### Summaries -/

/-- `r` is a summary that the run made of the change set: its content is the chat
model's answer to the contents of the change set's rows of its session. -/
def SummaryOf (eng : MemoryEngine) (env : Env F) (changed : List (MemoryItem F))
    (r : MemoryItem F) : Prop :=
  r.tenant = eng.tenant ∧ eng.hasExtractConfig = true ∧
    SUMMARIZE_MIN_EPISODIC ≤ (sessionGroup changed r.sessionId).length ∧
    ∃ t, env.chat t SUMMARY_PROMPT (joinContents (sessionGroup changed r.sessionId)) =
      some r.content

/-- From `w` to `w'` rows that satisfy `made` were added under new ids. -/
structure World.Adds (made : MemoryItem F → Prop) (w w' : World F) : Prop where
  env : w'.env = w.env
  mergeLog : w'.db.mergeLog = w.db.mergeLog
  kept : ∀ r ∈ w.db.memoryItem.rows, r ∈ w'.db.memoryItem.rows
  added : ∀ r ∈ w'.db.memoryItem.rows, r ∈ w.db.memoryItem.rows ∨
    made r ∧ ∀ m ∈ w.db.memoryItem.rows, m.id ≠ r.id

variable {made : MemoryItem F → Prop}

omit [FloatArith F] [JsonText F] in
theorem World.Adds.refl (w : World F) : w.Adds made w :=
  ⟨rfl, rfl, fun _ mem => mem, fun _ mem => .inl mem⟩

omit [FloatArith F] [JsonText F] in
theorem World.Adds.trans {w w' w'' : World F} (first : w.Adds made w') (last : w'.Adds made w'') :
    w.Adds made w'' := by
  refine ⟨last.env.trans first.env, last.mergeLog.trans first.mergeLog,
    fun r mem => last.kept r (first.kept r mem), fun r mem => ?_⟩
  rcases last.added r mem with old | ⟨isMade, new⟩
  · exact first.added r old
  · exact .inr ⟨isMade, fun m mem => new m (first.kept m mem)⟩

omit [FloatArith F] [JsonText F] in
theorem World.Adds.ofRows {w w' : World F} (env : w'.env = w.env)
    (log : w'.db.mergeLog = w.db.mergeLog) (rows : w'.db.memoryItem = w.db.memoryItem) :
    w.Adds made w' :=
  ⟨env, log, fun r mem => by rwa [rows], fun r mem => .inl (by rwa [rows] at mem)⟩

omit [FloatArith F] [JsonText F] in
theorem World.Adds.evolves {w w' : World F} (adds : w.Adds made w')
    (allowed : ∀ r, made r → (∀ m ∈ w.db.memoryItem.rows, m.id ≠ r.id) → fresh r) :
    w.Evolves fresh pair w' := by
  refine .ofRows adds.env adds.mergeLog fun r mem => ?_
  rcases adds.added r mem with old | ⟨isMade, new⟩
  · exact .inl old
  · exact .inr (allowed r isMade new)

omit [FloatArith F] [JsonText F] in
/-- A row under a new id. -/
theorem adds_putMemory {w : World F} {item : MemoryItem F} (isMade : made item)
    (new : ∀ m ∈ w.db.memoryItem.rows, m.id ≠ item.id) (op payload : String) («at» : Nat) :
    w.Adds made (w.withDb (w.execPersist (.putMemoryWithWop item op payload «at»)).2) := by
  rcases w.execPersist_cases (.putMemoryWithWop item op payload «at») with done | ⟨e, n, failed⟩
  · rw [done]
    refine ⟨rfl, rfl, fun r mem => ?_, fun r mem => ?_⟩
    · exact Table.mem_upsert.mpr (.inr ⟨mem, new r mem⟩)
    · rcases Table.mem_upsert.mp mem with rfl | ⟨old, -⟩
      · exact .inr ⟨isMade, new⟩
      · exact .inl old
  · rw [failed]
    exact .ofRows rfl rfl rfl

/-- Storing a summary adds at most that summary. -/
theorem adds_storeSummary (eng : MemoryEngine) («at» : Nat) (ns : NamespaceFilter)
    (items : List (MemoryItem F)) (session summary : String) (acc : Progress)
    (isMade : ∀ id, made (summaryItem eng ns items session summary id «at»)) (w : World F) :
    w.Adds made (run (storeSummary eng «at» ns items session summary acc) w).2 := by
  have new : ∀ m ∈ w.db.memoryItem.rows, m.id ≠ (w.env.ulid w.tick w.taken).1 := by
    intro m mem same
    refine (w.env.ulid w.tick w.taken).2.1 ?_
    rw [← same]
    exact List.mem_append_right _ (List.mem_map_of_mem mem)
  unfold storeSummary
  rw [run_newUlid_bind]
  generalize (w.env.ulid w.tick w.taken).1 = id at new
  rw [run_embed_bind]
  have same : w.Adds made (w.withIssued id).next := .ofRows rfl rfl rfl
  generalize (w.withIssued id).env.embed (w.withIssued id).tick summary = reply
  cases reply with
  | error e => exact same
  | ok vec =>
      change w.Adds made (run (storeOrFail _ >>= _) (w.withIssued id).next).2
      rw [run_storeOrFail_bind]
      cases ((w.withIssued id).next.execStore (.insertVector (vectorIdFromUlid id) vec)).1 with
      | error e => exact same.trans (.ofRows rfl rfl rfl)
      | ok _ =>
          dsimp only
          have stored : w.Adds made ((w.withIssued id).next.withStore ((w.withIssued id).next.execStore
              (.insertVector (vectorIdFromUlid id) vec)).2) := .ofRows rfl rfl rfl
          have new' : ∀ m ∈ ((w.withIssued id).next.withStore ((w.withIssued id).next.execStore
              (.insertVector (vectorIdFromUlid id) vec)).2).db.memoryItem.rows, m.id ≠ id := new
          generalize (w.withIssued id).next.withStore _ = w₂ at stored new'
          rw [run_persist_bind]
          generalize JsonText.print (F := F) _ = payload
          refine stored.trans ((adds_putMemory (isMade id) new' "summarize" payload «at»).trans ?_)
          cases (w₂.execPersist (.putMemoryWithWop _ "summarize" payload «at»)).1 with
          | error e => exact .ofRows rfl rfl rfl
          | ok _ => exact .refl _

/-- Phase 3 for one session adds at most a summary of that session. -/
theorem adds_summarizeSession {eng : MemoryEngine} (configured : eng.hasExtractConfig = true)
    (changed : List (MemoryItem F)) («at» : Nat) (ns : NamespaceFilter) (acc : Progress)
    (session : String) (w : World F) :
    w.Adds (SummaryOf eng w.env changed)
      (run (summarizeSession eng changed «at» ns acc session) w).2 := by
  unfold summarizeSession
  dsimp only
  split_ifs with few
  · exact .refl w
  · rw [run_chatCompletion_bind]
    cases answer : w.env.chat w.tick SUMMARY_PROMPT (joinContents (sessionGroup changed session)) with
    | none => exact .ofRows rfl rfl rfl
    | some summary =>
        dsimp only
        split_ifs
        · exact .ofRows rfl rfl rfl
        · have answered : w.Adds (SummaryOf eng w.env changed) w.next := .ofRows rfl rfl rfl
          refine answered.trans (adds_storeSummary _ _ _ _ _ _ _ (fun id => ?_) w.next)
          exact ⟨rfl, configured, Nat.not_lt.mp few, w.tick, answer⟩

theorem adds_consolidateSummarize (eng : MemoryEngine) (changed : List (MemoryItem F))
    («at» : Nat) (failures : List ConsolidationFailure) (ns : NamespaceFilter) (w : World F) :
    w.Adds (SummaryOf eng w.env changed)
      (run (consolidateSummarize eng changed «at» failures ns) w).2 := by
  unfold consolidateSummarize
  split_ifs with configured
  · rw [run_iterationOrder_bind]
    have loop := run_foldlM_rel (R := fun w w' : World F =>
        ∀ env, w.env = env → w.Adds (SummaryOf eng env changed) w')
      (fun w _ _ => .refl w)
      (fun first last env same => (first env same).trans
        (last env ((first env same).env.trans same)))
      (w.env.order w.tick (sessionKeys changed)).1
      (fun session _ acc w env same => same ▸
        adds_summarizeSession configured changed «at» ns acc session w)
      ⟨0, failures⟩ w.next
    have ordered : w.Adds (SummaryOf eng w.env changed) w.next := .ofRows rfl rfl rfl
    exact ordered.trans (loop _ rfl)
  · exact .refl w

/-! ### After phase 2 -/

theorem evolves_afterMerge {eng : MemoryEngine} {changed : List (MemoryItem F)} {w : World F}
    (puts : eng.hasExtractor = true → ∀ m ∈ changed, m.entitiesPending = true →
      ∀ entities, fresh (reextracted m entities))
    (summaries : ∀ r, SummaryOf eng w.env changed r →
      (∀ m ∈ w.db.memoryItem.rows, m.id ≠ r.id) → fresh r)
    (ns : NamespaceFilter) (start : Nat) (tally : Tally) (merged : Progress) :
    w.Evolves fresh pair (run (afterMerge eng ns start changed tally merged) w).2 := by
  have late : ∀ r, LateRequest eng changed r → r.Within fresh pair :=
    fun r request => within_late request puts
  unfold afterMerge
  refine run_bind_rel (R := World.Evolves fresh pair) World.Evolves.trans
    ((adds_consolidateSummarize eng changed start merged.failures ns w).evolves summaries)
    fun summarized w₁ _ => evolves_run ?_ w₁
  refine Program.Only.bind ((only_lateProgram eng ns start changed tally merged summarized).mono
    late) fun report => ?_
  refine Program.Only.bind (only_recordRun (fun _ _ _ => trivial) trivial ns) fun _ => ?_
  exact Program.Only.bind (only_persist trivial) fun _ => trivial

end Phases

end FusionMemory
