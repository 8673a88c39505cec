import FusionMemory.Engine.Jobs
import FusionMemory.Server.Serving

/-!
Calls of the engine's handle side by side.

`Tasks` is a pool of any of the calls that the server makes on its `EngineHandle`. Nine of
them read, delete or reconcile and store no row: `EngineCall.only_simple` says what these ask
for, in terms of what a predicate on requests allows.
-/

namespace FusionMemory

open Lib

variable {F : Type} [FloatArith F] [JsonText F]

/-- A call of the handle, its result dropped. -/
def EngineCall.task (eng : MemoryEngine) (call : EngineCall) : EngineM F Unit := do
  let _ ← call.program eng
  return ()

/-- A pool of calls of one engine. -/
abbrev Tasks (F : Type) := Pool (engineSignature F) MemoryError Unit (World F)

/-- The calls before any of them has begun. -/
def Tasks.start (eng : MemoryEngine) (w : World F) (calls : List EngineCall) : Tasks F :=
  Pool.start w (calls.map (EngineCall.task eng))

theorem Tasks.listed (eng : MemoryEngine) {calls : List EngineCall} {i : Nat} {call : EngineCall}
    (listed : calls[i]? = some call) :
    (calls.map (EngineCall.task (F := F) eng))[i]? = some (call.task eng) := by
  rw [List.getElem?_map, listed]
  rfl

/-- In a pool of calls that all keep to a protocol, each thread keeps to it. -/
theorem Tasks.keepsProtocol {P : List (EngineEvent F) → Request F → Prop} {eng : MemoryEngine}
    (obeys : ∀ call : EngineCall, Program.Obeys P (fun _ _ => True) [] (call.program eng))
    (w : World F) (calls : List EngineCall) :
    Pool.KeepsProtocol (fun _ => P) (fun _ _ _ => True) (Tasks.start eng w calls) := by
  refine Pool.KeepsProtocol.start w fun i p listed => ?_
  rw [List.getElem?_map] at listed
  obtain ⟨call, -, rfl⟩ := Option.map_eq_some_iff.mp listed
  refine Program.Obeys.bind (R := fun _ _ => True) ((obeys call).mono (fun _ _ allowed => allowed)
    fun _ result _ => ?_) fun _ _ _ => trivial
  cases result <;> trivial

/-- The calls that store no row and take no lock. -/
def EngineCall.isSimple : EngineCall → Bool
  | .commitEpisodicMemoryDetailed _ _ | .retrieveContext _ | .consolidateMemories
  | .consolidateMemoriesScoped _ _ | .unmerge _ => false
  | _ => true

/-- The requests of the simple calls. -/
structure AllowsSimple (P : Request F → Prop) : Prop where
  read : ∀ op : PersistOp F, op.isRead = true → P (.persist op)
  clock : P .nowMs
  bury : ∀ id, P (.persist (.tombstoneMemory id))
  purge : ∀ id, P (.persist (.physicalDelete id))
  log : ∀ op payload «at», P (.persist (.appendWop op payload «at»))
  audit : ∀ «at» actor action target detail,
    P (.persist (.appendAudit «at» actor action target detail))
  report : ∀ «at» id stage error, P (.persist (.appendReconcile «at» id stage error))
  drop : ∀ v, P (.store (.deleteVector v))
  getVector : ∀ v, P (.store (.getVector v))
  listVectors : P (.store .listVectorIds)

omit [FloatArith F] [JsonText F] in
theorem only_listMemories {P : Request F → Prop}
    (read : ∀ op : PersistOp F, op.isRead = true → P (.persist op)) (query : ListQuery)
    (tenant : String) : Program.Only P (listMemories query tenant) := by
  unfold listMemories
  refine Program.Only.bind (only_persistOrFail (read _ rfl)) fun items => ?_
  cases query.includeTombstoned with
  | true => exact Program.Only.bind (only_persistOrFail (read _ rfl)) fun dead => trivial
  | false => trivial

theorem EngineCall.only_simple {P : Request F → Prop} (allows : AllowsSimple P) (eng : MemoryEngine)
    {call : EngineCall} (simple : call.isSimple = true) : Program.Only P (call.program eng) := by
  have deletes : ∀ id, AllowsDelete P id := fun id =>
    ⟨allows.read _ rfl, allows.drop, allows.bury id, allows.clock, allows.log "delete" id,
      fun «at» => allows.audit «at» _ _ _ _⟩
  have scans : ∀ «at», AllowsScans «at» P := fun «at» =>
    ⟨allows.report «at», fun _ _ => allows.read _ rfl, allows.read _ rfl, allows.read _ rfl,
      allows.getVector, allows.drop, allows.listVectors⟩
  cases call with
  | getMemoryTenant id tenant =>
      exact Program.Only.bind (only_persistOrFail (allows.read _ rfl)) fun _ => trivial
  | deleteMemoryTenant id tenant => exact only_deleteMemoryTenant (deletes id) tenant
  | deleteScopeTenant scope tenant =>
      exact only_deleteScopeTenant (fun _ _ => allows.read _ rfl) allows.drop allows.bury allows.clock
        (allows.log "delete_scope") scope tenant
  | countTenant scope tenant => exact only_persistOrFail (allows.read _ rfl)
  | auditMemoryAccess entityIds => exact only_persistOrFail (allows.read _ rfl)
  | listMemories query tenant => exact only_listMemories allows.read query tenant
  | listAuditLog limit => exact only_persistOrFail (allows.read _ rfl)
  | listMerges => exact only_persistOrFail (allows.read _ rfl)
  | reconcile =>
      refine Program.Only.bind (Program.Only.perform allows.clock) fun now => ?_
      exact Program.Only.bind (only_consolidateReconcile (scans now) allows.purge eng [] _)
        fun _ => trivial
  | _ => cases simple

end FusionMemory
