import FusionMemory.Lib.Program
import FusionMemory.Core.Codec
import FusionMemory.Persist.Store

/-!
The JSON-RPC surface (`fm-server/src/jsonrpc.rs`).

`dispatch` is a program over `ServerRequest`: a method checks its parameters and
makes one call of the engine. What a call answers is the engine's own result; the
serialization of results is not modelled. An `RpcError` is the kind of the failure
with the data its message shows, without the message's wording.
-/

namespace FusionMemory

open Lib

variable {F : Type} [FloatArith F]

/-! ### Calls of the engine -/

/-- A call that a method makes on its `EngineHandle`. -/
inductive EngineCall where
  | commitEpisodicMemoryDetailed (sessionId : String) (interaction : Interaction)
  | retrieveContext (query : RetrieveQuery)
  | consolidateMemories
  | consolidateMemoriesScoped («namespace» namespaceKey : String)
  | getMemoryTenant (id tenant : String)
  | deleteMemoryTenant (id tenant : String)
  | deleteScopeTenant (scope tenant : String)
  | countTenant (scope : Option String) (tenant : String)
  | auditMemoryAccess (entityIds : List String)
  | listMemories (query : ListQuery) (tenant : String)
  | listAuditLog (limit : Nat)
  | listMerges
  | unmerge (mergeId : Nat)
  | reconcile
deriving DecidableEq, Repr

@[reducible] def EngineCall.Value (F : Type) : EngineCall → Type
  | .commitEpisodicMemoryDetailed _ _ => CommitOutcome
  | .retrieveContext _ => FormattedContext F
  | .consolidateMemories | .consolidateMemoriesScoped _ _ => ConsolidationReport
  | .getMemoryTenant _ _ => Option (MemoryItem F)
  | .deleteMemoryTenant _ _ => Unit
  | .deleteScopeTenant _ _ | .countTenant _ _ | .reconcile => Nat
  | .auditMemoryAccess _ | .listMemories _ _ => List (MemoryItem F)
  | .listAuditLog _ => List AuditLogEntry
  | .listMerges => List MergeLogEntry
  | .unmerge _ => Bool

/-- An HTTP status and the error text of the body that goes with it. -/
structure Rejection where
  status : Nat
  error : String
deriving DecidableEq, Repr

/-- What a handler asks of the world: the identity service, the process environment,
the file system and the engine. -/
inductive ServerRequest where
  | verify (jwt : String)
  | home
  | pathExists (path : String)
  | engine (call : EngineCall)
  | runImport (sourceDb : String)

@[reducible] def ServerRequest.Reply (F : Type) : ServerRequest → Type
  | .verify _ => Except Rejection String
  | .home => Option String
  | .pathExists _ => Bool
  | .engine call => Except MemoryError (call.Value F)
  | .runImport _ => Except String ImportReport

abbrev serverSignature (F : Type) : Signature := ⟨ServerRequest, ServerRequest.Reply F⟩

/-! ### Errors -/

/-- `RpcError`. -/
inductive RpcError where
  | invalidRequest (jsonrpc : String)
  | methodNotFound (method : String)
  | malformedParams
  | invalidNamespace (ns : String)
  | unconfirmed (method : String)
  | limitOutOfRange (max : Nat)
  | invalidMemoryType (memoryType : String)
  | engine (e : MemoryError)
deriving DecidableEq, Repr

/-- `from_engine` and the constructors' codes. -/
def RpcError.code : RpcError → Int
  | .invalidRequest _ => -32600
  | .methodNotFound _ => -32601
  | .malformedParams | .invalidNamespace _ | .unconfirmed _ | .limitOutOfRange _
  | .invalidMemoryType _ => -32602
  | .engine e =>
      if e.isNotFound then -32001
      else if e = .poisoned then -32002
      else if e.retryable then -32003
      else -32603

def httpStatusForError (code : Int) : Nat :=
  if code = -32700 ∨ code = -32600 ∨ code = -32601 ∨ code = -32602 then 400
  else if code = -32001 then 404
  else if code = -32002 ∨ code = -32003 then 503
  else 500

/-- A method of the server: it ends with an `RpcError` or a result. -/
abbrev ServerM (F α : Type) := Program (serverSignature F) RpcError α

/-- `engine.call(..).await.map_err(|e| RpcError::from_engine(&e))?`. -/
def callEngine (call : EngineCall) : ServerM F (call.Value F) := do
  let reply ← (Program.perform (S := serverSignature F) (.engine call) : ServerM F _)
  Program.ofExcept (reply.mapError .engine)

/-- `serde_json::from_value(params)`. -/
def params {α : Type} (decoded : Option α) : ServerM F α :=
  match decoded with
  | some p => .done p
  | none => .fail .malformedParams

def validateNamespace (ns : String) : ServerM F Unit :=
  if isValidNamespace ns then .done () else .fail (.invalidNamespace ns)

/-- Destructive methods want `confirm: true`. -/
def requireConfirm (method : String) (confirm : Bool) : ServerM F Unit :=
  if confirm then .done () else .fail (.unconfirmed method)

/-! ### Results -/

inductive RpcResult (F : Type) where
  | committed (outcome : CommitOutcome)
  | context (ctx : FormattedContext F)
  | contract (context : String) (memoryIds : List String) (cacheHit : Bool)
  | report (report : ConsolidationReport)
  | memory (found : Option (MemoryItem F))
  | text (s : String)
  | memories (items : List (MemoryItem F))
  | deletedCount (n : Nat)
  | count (n : Nat)
  | auditEntries (rows : List AuditLogEntry)
  | merges (rows : List MergeLogEntry)
  | unmerged (existed : Bool)
  | reconciled (n : Nat)
  | apiVersion (version : Nat)

structure RpcRequest (F : Type) [FloatArith F] where
  jsonrpc : String
  method : String
  params : Json F
  id : Json F

structure RpcResponse (F : Type) [FloatArith F] where
  result : Except RpcError (RpcResult F)
  id : Json F

def RpcRequest.fromJson (j : Json F) : Option (RpcRequest F) := do
  let jsonrpc ← j.required 4 0 "jsonrpc" Json.asString
  let method ← j.required 4 1 "method" Json.asString
  let params ← j.defaulted 4 2 "params" .null some
  let id ← j.required 4 3 "id" some
  return { jsonrpc, method, params, id }

def API_VERSION : Nat := 1

/-! ### Methods -/

namespace Rpc

section Methods

variable (p : Json F) (tenant : String)

/-- An optional text parameter. -/
def optionalText (arity index : Nat) (name : String) : Option (Option String) :=
  p.defaulted arity index name none (Json.asOption Json.asString)

def confirmed (arity index : Nat) : Option Bool := p.defaulted arity index "confirm" false Json.asBool

def commit : ServerM F (RpcResult F) := do
  let (sessionId, interaction, ns, key) ← params (do
    let sessionId ← p.required 4 0 "session_id" Json.asString
    let interaction ← p.required 4 1 "interaction" Interaction.fromJson
    let ns ← optionalText p 4 2 "namespace"
    let key ← optionalText p 4 3 "namespace_key"
    return (sessionId, interaction, ns, key))
  -- The request's tenant is authoritative; an empty one leaves the client's.
  let interaction := if tenant.isEmpty then interaction else { interaction with tenant := tenant }
  let interaction ← match ns with
    | some ns => do
        validateNamespace ns
        pure { interaction with «namespace» := ns }
    | none => pure interaction
  validateNamespace interaction.namespace
  let interaction := match key with
    | some key => { interaction with namespaceKey := key }
    | none => interaction
  let outcome ← callEngine (.commitEpisodicMemoryDetailed sessionId interaction)
  return .committed outcome

def DEFAULT_TOP_K : Nat := 10
def DEFAULT_BUDGET : Nat := 4096

def retrieve : ServerM F (RpcResult F) := do
  let (text, topK, tokenBudget, sessionId, ns, key) ← params (do
    let text ← p.required 7 0 "text" Json.asString
    let topK ← p.defaulted 7 1 "top_k" DEFAULT_TOP_K (Json.asUnsigned 64)
    let tokenBudget ← p.defaulted 7 2 "token_budget" DEFAULT_BUDGET (Json.asUnsigned 64)
    let _ ← p.defaulted 7 3 "aggregate" true Json.asBool
    let sessionId ← optionalText p 7 4 "session_id"
    let ns ← optionalText p 7 5 "namespace"
    let key ← optionalText p 7 6 "namespace_key"
    return (text, topK, tokenBudget, sessionId, ns.getD "", key.getD ""))
  validateNamespace ns
  let ctx ← callEngine (.retrieveContext ⟨text, topK, sessionId, tenant, ns, key, none, tokenBudget⟩)
  return .context ctx

/-- The fusion-event contract: joined texts and the interactions they come from. -/
def retrieveContextContract : ServerM F (RpcResult F) := do
  let (query, topK, ns, key) ← params (do
    let _ ← p.defaulted 6 0 "trigger_id" "" Json.asString
    let query ← p.required 6 1 "query" Json.asString
    let topK ← p.defaulted 6 2 "top_k" DEFAULT_TOP_K (Json.asUnsigned 64)
    let _ ← p.defaulted 6 3 "node_id" "" Json.asString
    let ns ← optionalText p 6 4 "namespace"
    let key ← optionalText p 6 5 "namespace_key"
    return (query, topK, ns.getD "", key.getD ""))
  validateNamespace ns
  let ctx : FormattedContext F ←
    callEngine (.retrieveContext ⟨query, topK, none, tenant, ns, key, none, DEFAULT_BUDGET⟩)
  let context := "\n---\n".intercalate (ctx.blocks.map (·.turnsText))
  return .contract context ((ctx.blocks.map (·.interactionId)).reverse.dedup.reverse) false

def consolidate : ServerM F (RpcResult F) := do
  let (ns, key) ← params (match p with
    | .null => some ("", "")
    | _ => do
        let ns ← optionalText p 2 0 "namespace"
        let key ← optionalText p 2 1 "namespace_key"
        return (ns.getD "", key.getD ""))
  validateNamespace ns
  if ns.isEmpty then
    let report ← callEngine .consolidateMemories
    return .report report
  else
    let report ← callEngine (.consolidateMemoriesScoped ns key)
    return .report report

def get : ServerM F (RpcResult F) := do
  let id ← params (p.required 1 0 "id" Json.asString)
  let found ← callEngine (.getMemoryTenant id tenant)
  return .memory found

def delete : ServerM F (RpcResult F) := do
  let (id, confirm) ← params (do
    let id ← p.required 2 0 "id" Json.asString
    let confirm ← confirmed p 2 1
    return (id, confirm))
  requireConfirm "delete" confirm
  let _ ← callEngine (.deleteMemoryTenant id tenant)
  return .text "deleted"

def audit : ServerM F (RpcResult F) := do
  let entityIds ← params (p.required 1 0 "entity_ids" (Json.asList Json.asString))
  let items ← callEngine (.auditMemoryAccess entityIds)
  return .memories items

def deleteScope : ServerM F (RpcResult F) := do
  let (scope, confirm) ← params (do
    let scope ← p.required 2 0 "scope" Json.asString
    let confirm ← confirmed p 2 1
    return (scope, confirm))
  requireConfirm "delete_scope" confirm
  let n ← callEngine (.deleteScopeTenant scope tenant)
  return .deletedCount n

def count : ServerM F (RpcResult F) := do
  let scope ← params (optionalText p 1 0 "scope")
  let n ← callEngine (.countTenant scope tenant)
  return .count n

def DEFAULT_LIST_LIMIT : Nat := 50
def MAX_LIST_LIMIT : Nat := 200

def list : ServerM F (RpcResult F) := do
  let query ← params (do
    let offset ← p.defaulted 6 0 "offset" 0 (Json.asUnsigned 64)
    let limit ← p.defaulted 6 1 "limit" DEFAULT_LIST_LIMIT (Json.asUnsigned 64)
    let memoryType ← optionalText p 6 2 "memory_type"
    let ns ← p.defaulted 6 3 "namespace" "" Json.asString
    let namespaceKey ← p.defaulted 6 4 "namespace_key" "" Json.asString
    let includeTombstoned ← p.defaulted 6 5 "include_tombstoned" false Json.asBool
    return ({ offset, limit, memoryType, «namespace» := ns, namespaceKey, includeTombstoned } :
      ListQuery))
  if query.limit = 0 ∨ query.limit > MAX_LIST_LIMIT then .fail (.limitOutOfRange MAX_LIST_LIMIT)
  else
    match query.memoryType.filter fun t => !(["Episodic", "Semantic", "Procedural"].contains t) with
    | some t => .fail (.invalidMemoryType t)
    | none =>
        validateNamespace query.namespace
        let items ← callEngine (.listMemories query tenant)
        return .memories items

def DEFAULT_AUDIT_LOG_LIMIT : Nat := 100
def MAX_AUDIT_LOG_LIMIT : Nat := 500

def auditLog : ServerM F (RpcResult F) := do
  let limit ← params (p.defaulted 1 0 "limit" DEFAULT_AUDIT_LOG_LIMIT (Json.asUnsigned 64))
  if limit = 0 ∨ limit > MAX_AUDIT_LOG_LIMIT then .fail (.limitOutOfRange MAX_AUDIT_LOG_LIMIT)
  else
    let rows ← callEngine (.listAuditLog limit)
    return .auditEntries rows

def merges : ServerM F (RpcResult F) := do
  let rows ← callEngine .listMerges
  return .merges rows

def unmerge : ServerM F (RpcResult F) := do
  let (id, confirm) ← params (do
    let id ← p.required 2 0 "id" (Json.asUnsigned 64)
    let confirm ← confirmed p 2 1
    return (id, confirm))
  requireConfirm "unmerge" confirm
  let existed ← callEngine (.unmerge id)
  return .unmerged existed

def reconcile : ServerM F (RpcResult F) := do
  let confirm ← params (confirmed p 1 0)
  requireConfirm "reconcile" confirm
  let n ← callEngine .reconcile
  return .reconciled n

end Methods

/-- The method a name stands for; `v1.` in front of it pins the version. -/
def route (method : String) (p : Json F) (tenant : String) : ServerM F (RpcResult F) :=
  match (stripPrefix "v1." method).getD method with
  | "commit" => commit p tenant
  | "retrieve" => retrieve p tenant
  | "memory.retrieve_context" => retrieveContextContract p tenant
  | "consolidate" => consolidate p
  | "get" => get p tenant
  | "delete" => delete p tenant
  | "delete_scope" => deleteScope p tenant
  | "count" => count p tenant
  | "audit" => audit p
  | "list" => list p tenant
  | "audit_log" => auditLog p
  | "merges" => merges
  | "unmerge" => unmerge p
  | "reconcile" => reconcile p
  | "health" => .done (.text "ok")
  | "version" => .done (.apiVersion API_VERSION)
  | other => .fail (.methodNotFound other)

def dispatch (req : RpcRequest F) (tenant : String) :
    Program (serverSignature F) ε (RpcResponse F) := do
  if req.jsonrpc ≠ "2.0" then return ⟨.error (.invalidRequest req.jsonrpc), req.id⟩
  else
    let result ← (route req.method req.params tenant).attempt
    return ⟨result, req.id⟩

end Rpc

end FusionMemory
