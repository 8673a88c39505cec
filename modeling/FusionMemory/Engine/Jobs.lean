import FusionMemory.Engine.Calls
import FusionMemory.Engine.CommitTurns
import FusionMemory.Engine.RowFrame

/-!
Jobs that run beside a reconcile.

`reconcile` takes no lock, so it interleaves with commits, deletions, consolidation runs and
other reconciles. The rules below say what these programs ask for, in terms of what a
predicate on requests allows.
-/

namespace FusionMemory

open Lib

variable {F : Type} [FloatArith F] [JsonText F]

/-! ### Jobs -/

inductive Job where
  | commit (sessionId : String) (interaction : Interaction)
  | consolidate (ns : NamespaceFilter)
  | reconcile
  | deleteMemory (id : String)
  | deleteMemoryTenant (id tenant : String)
  | deleteScopeTenant (scope tenant : String)

/-- The method of a job. Only a commit has an outcome to report. -/
def Job.program (eng : MemoryEngine) : Job → EngineM F CommitOutcome
  | .commit sessionId interaction => commitInner eng sessionId interaction
  | .consolidate ns => do
      let _ ← consolidateImpl eng ns
      return ⟨[], []⟩
  | .reconcile => do
      let _ ← FusionMemory.reconcile eng
      return ⟨[], []⟩
  | .deleteMemory id => do
      let _ ← FusionMemory.deleteMemory id
      return ⟨[], []⟩
  | .deleteMemoryTenant id tenant => do
      let _ ← FusionMemory.deleteMemoryTenant id tenant
      return ⟨[], []⟩
  | .deleteScopeTenant scope tenant => do
      let _ ← FusionMemory.deleteScopeTenant scope tenant
      return ⟨[], []⟩

/-- A pool of jobs of one engine. -/
abbrev Jobs (F : Type) := Pool (engineSignature F) MemoryError CommitOutcome (World F)

/-- The jobs before any of them has begun. -/
def Jobs.start (eng : MemoryEngine) (w : World F) (jobs : List Job) : Jobs F :=
  Pool.start w (jobs.map (Job.program eng))

theorem Jobs.not_mem_events_start (eng : MemoryEngine) (w : World F) (jobs : List Job)
    (e : EngineEvent F) : e ∉ (Jobs.start eng w jobs).events := by
  intro happened
  have empty : (Jobs.start eng w jobs).events = [] := Pool.events_start w _
  rw [empty] at happened
  cases happened

/-- In a pool of jobs that all keep to a protocol, each thread keeps to it. -/
theorem Jobs.keepsProtocol {P : List (EngineEvent F) → Request F → Prop}
    {Q : List (EngineEvent F) → Except MemoryError CommitOutcome → Prop} {eng : MemoryEngine}
    {jobs : List Job} (obeys : ∀ job ∈ jobs, Program.Obeys P Q [] (job.program eng)) (w : World F) :
    Pool.KeepsProtocol (fun _ => P) (fun _ => Q) (Jobs.start eng w jobs) := by
  refine Pool.KeepsProtocol.start w fun i p listed => ?_
  rw [List.getElem?_map] at listed
  obtain ⟨job, found, rfl⟩ := Option.map_eq_some_iff.mp listed
  exact obeys job (List.mem_of_getElem? found)

/-! ### What the jobs ask for -/

section Requests

variable {P : Request F → Prop}

omit [FloatArith F] [JsonText F] in
/-- What `delete_scope_tenant` does with the memories that it finds. -/
theorem only_deleteItems (items : List (MemoryItem F)) (drop : ∀ v, P (.store (.deleteVector v)))
    (bury : ∀ m ∈ items, P (.persist (.tombstoneMemory m.id))) (clock : P .nowMs)
    (log : ∀ scope «at», P (.persist (.appendWop "delete_scope" scope «at»))) (scope : String) :
    Program.Only P (do
      let deleted ← items.foldlM deleteScoped 0
      if deleted > 0 then
        let now ← nowMs
        let _ ← persistOrFail (F := F) (.appendWop "delete_scope" scope now)
      return deleted) := by
  refine Program.Only.bind (Program.Only.foldlM items (fun m mem deleted => ?_) 0) fun deleted => ?_
  · have buries : Program.Only P (persist (.tombstoneMemory m.id)) := only_persist (bury m mem)
    unfold deleteScoped
    cases parseU64 m.vectorRef with
    | none =>
        refine Program.Only.bind buries fun reply => ?_
        cases reply <;> trivial
    | some v =>
        refine Program.Only.bind (only_store (drop v)) fun _ => ?_
        refine Program.Only.bind buries fun reply => ?_
        cases reply <;> trivial
  · dsimp only
    split_ifs
    · refine Program.Only.bind (Program.Only.perform clock) fun now => ?_
      exact Program.Only.bind (only_persistOrFail (log _ _)) fun _ => trivial
    · trivial

omit [FloatArith F] [JsonText F] in
theorem only_deleteScopeTenant (list : ∀ scope tenant, P (.persist (.listBySessionTenant scope tenant)))
    (drop : ∀ v, P (.store (.deleteVector v))) (bury : ∀ id, P (.persist (.tombstoneMemory id)))
    (clock : P .nowMs) (log : ∀ scope «at», P (.persist (.appendWop "delete_scope" scope «at»)))
    (scope tenant : String) : Program.Only P (deleteScopeTenant scope tenant) :=
  Program.Only.bind (only_persistOrFail (list _ _)) fun items =>
    only_deleteItems items drop (fun m _ => bury m.id) clock log scope

/-- The requests of a deletion that neither reads nor writes under another id. -/
structure AllowsDelete (P : Request F → Prop) (id : String) : Prop where
  get : P (.persist (.getMemory id))
  drop : ∀ v, P (.store (.deleteVector v))
  bury : P (.persist (.tombstoneMemory id))
  clock : P .nowMs
  log : ∀ «at», P (.persist (.appendWop "delete" id «at»))
  audit : ∀ «at», P (.persist (.appendAudit «at» "delete" "delete" id "tombstone"))

omit [FloatArith F] [JsonText F] in
theorem only_deleteMemory {id : String} (allows : AllowsDelete P id) :
    Program.Only P (deleteMemory id) := by
  have rest : Program.Only P (do
      let _ ← persistOrFail (F := F) (.tombstoneMemory id)
      let now ← nowMs
      let _ ← persistOrFail (.appendWop "delete" id now)
      let _ ← persist (.appendAudit now "delete" "delete" id "tombstone")
      return ()) := by
    refine Program.Only.bind (only_persistOrFail allows.bury) fun _ => ?_
    refine Program.Only.bind (Program.Only.perform allows.clock) fun now => ?_
    refine Program.Only.bind (only_persistOrFail (allows.log now)) fun _ => ?_
    exact Program.Only.bind (only_persist (allows.audit now)) fun _ => trivial
  unfold deleteMemory
  refine Program.Only.bind (only_persistOrFail allows.get) fun found => ?_
  dsimp only
  cases found.bind fun item => parseU64 item.vectorRef with
  | none => exact rest
  | some v => exact Program.Only.bind (only_storeOrFail (allows.drop v)) fun _ => rest

omit [FloatArith F] [JsonText F] in
theorem only_deleteMemoryTenant {id : String} (allows : AllowsDelete P id) (tenant : String) :
    Program.Only P (deleteMemoryTenant id tenant) := by
  unfold deleteMemoryTenant
  refine Program.Only.bind (only_persistOrFail allows.get) fun found => ?_
  cases found with
  | none => exact only_deleteMemory allows
  | some m =>
      dsimp only
      split_ifs
      · trivial
      · exact only_deleteMemory allows

/-- The requests that store a new row with its vector, and take the vector back. -/
structure AllowsStoring (P : Request F → Prop) : Prop where
  newUlid : P .newUlid
  embed : ∀ text, P (.embed text)
  insert : ∀ v vec, P (.store (.insertVector v vec))
  /-- A row is logged as an envelope with its vector. -/
  put : ∀ item vec op «at», P (.persist (.putMemoryWithWop item op
    (JsonText.print (CommitEnvelope.mk item (some vec)).toJson) «at»))
  drop : ∀ v, P (.store (.deleteVector v))

theorem only_commitTurn (storing : AllowsStoring P) (extract : ∀ text, P (.extract text))
    (get : ∀ id, P (.persist (.getMemory id))) (rewrite : ∀ item, P (.persist (.putMemory item)))
    (eng : MemoryEngine) (sessionId : String) (interaction : Interaction) (now : Nat)
    (acc : CommitOutcome) (turn : Turn) :
    Program.Only P (commitTurn eng sessionId interaction now acc turn) := by
  rw [commitTurn_eq]
  refine Program.Only.bind (Program.Only.perform storing.newUlid) fun id => ?_
  refine Program.Only.bind (Program.Only.bind (Program.Only.perform (storing.embed _)) fun _ =>
    trivial) fun embedded => ?_
  cases embedded with
  | error e => trivial
  | ok vec =>
      refine Program.Only.bind (only_store (storing.insert _ vec)) fun inserted => ?_
      cases inserted with
      | error e => trivial
      | ok _ =>
          refine Program.Only.bind (only_persist (storing.put _ _ _ _)) fun stored => ?_
          cases stored with
          | error e => exact Program.Only.bind (only_store (storing.drop _)) fun _ => trivial
          | ok _ =>
              refine Program.Only.bind ?_ fun _ => trivial
              unfold extractAndAttach
              split_ifs
              · refine Program.Only.bind (Program.Only.perform (extract _)) fun extracted => ?_
                refine Program.Only.bind (only_persist (get _)) fun found => ?_
                rcases found with e | (_ | item)
                · trivial
                · trivial
                · exact Program.Only.bind (only_persist (rewrite _)) fun _ => trivial
              · trivial

theorem only_consolidateSummarize (storing : AllowsStoring P)
    (order : ∀ keys, P (.iterationOrder keys)) (chat : ∀ system user, P (.chatCompletion system user))
    (eng : MemoryEngine) (changed : List (MemoryItem F)) («at» : Nat)
    (failures : List ConsolidationFailure) (ns : NamespaceFilter) :
    Program.Only P (consolidateSummarize eng changed «at» failures ns) := by
  unfold consolidateSummarize
  split_ifs
  · refine Program.Only.bind (Program.Only.perform (order _)) fun sessions =>
      Program.Only.foldlM sessions (fun session _ acc => ?_) _
    unfold summarizeSession
    dsimp only
    split_ifs
    · trivial
    · refine Program.Only.bind (Program.Only.perform (chat _ _)) fun answer => ?_
      cases answer with
      | none => trivial
      | some summary =>
          dsimp only
          split_ifs
          · trivial
          · refine Program.Only.bind (Program.Only.perform storing.newUlid) fun id => ?_
            refine Program.Only.bind (Program.Only.bind (Program.Only.perform (storing.embed _))
              fun _ => trivial) fun embedded => ?_
            refine Program.Only.bind (Program.Only.ofExcept _) fun vec => ?_
            refine Program.Only.bind (only_storeOrFail (storing.insert _ _)) fun _ => ?_
            refine Program.Only.bind (only_persist (storing.put _ _ _ _)) fun stored => ?_
            cases stored with
            | error e => exact Program.Only.bind (only_store (storing.drop _)) fun _ => trivial
            | ok _ => trivial
  · trivial

end Requests

/-! ### What a step does to a row -/

omit [JsonText F] in
/-- Only a purge takes a row away. -/
theorem getMemory_exec_isSome {w : World F} {r : Request F} {id : String}
    (found : (w.db.getMemory id).isSome) (t : Nat) : ((w.exec r).2.db.getMemory id).isSome ∨
      (⟨t, r, (w.exec r).1⟩ : EngineEvent F) = ⟨t, .persist (.physicalDelete id), .ok ()⟩ := by
  rcases getMemory_exec_cases w r id with ⟨-, same⟩ | ⟨op, rfl, writes, ⟨-, same⟩ | ⟨reply, done⟩⟩
  · exact .inl (same ▸ found)
  · exact .inl (same ▸ found)
  · rw [done]
    cases op with
    | physicalDelete id' =>
        obtain rfl : id' = id := not_not.mp writes
        refine .inr ?_
        change (⟨t, .persist (.physicalDelete id'), (w.execPersist (.physicalDelete id')).1⟩ :
          EngineEvent F) = _
        rw [reply]
        rfl
    | putMemory item | putMemoryWithWop item _ _ _ => exact .inl rfl
    | tombstoneMemory id' | untombstoneMemory id' | touchAccessBatch ids now =>
        refine .inl ?_
        change ((w.db.getMemory id).map _).isSome = true
        rwa [Option.isSome_map]
    | _ => exact absurd trivial writes

omit [JsonText F] in
/-- A row that has just been written is there. -/
theorem getMemory_exec_stored {w : World F} {r : Request F} {t s : Nat} {item : MemoryItem F}
    (stored : (⟨t, r, (w.exec r).1⟩ : EngineEvent F) = ⟨s, .persist (.putMemory item), .ok ()⟩ ∨
      ∃ op payload «at», (⟨t, r, (w.exec r).1⟩ : EngineEvent F) =
        ⟨s, .persist (.putMemoryWithWop item op payload «at»), .ok ()⟩) :
    ((w.exec r).2.db.getMemory item.id).isSome := by
  have wrote : ∀ op : PersistOp F, ¬ op.Avoids item.id → (∀ row, (op.onRow row).isSome) →
      (∀ e, (w.execPersist op).1 ≠ .error e) →
        ((w.exec (.persist op)).2.db.getMemory item.id).isSome := by
    intro op writes stores answered
    rcases getMemory_exec_cases w (.persist op) item.id
      with ⟨avoids, -⟩ | ⟨op', same, -, ⟨⟨e, failed⟩, -⟩ | ⟨-, done⟩⟩
    · exact absurd avoids writes
    · cases same
      exact absurd failed (answered e)
    · cases same
      rw [done]
      exact stores _
  rcases stored with now | ⟨op, payload, «at», now⟩
  · injection now with _ request reply
    subst request
    refine wrote _ (fun other => other rfl) (fun _ => rfl) fun e failed => ?_
    cases (eq_of_heq reply).symm.trans failed
  · injection now with _ request reply
    subst request
    refine wrote _ (fun other => other rfl) (fun _ => rfl) fun e failed => ?_
    cases (eq_of_heq reply).symm.trans failed

end FusionMemory
