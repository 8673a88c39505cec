import FusionMemory.Engine.Commit
import FusionMemory.Engine.Consolidate
import FusionMemory.Engine.Execution
import FusionMemory.Engine.Manage
import FusionMemory.Engine.Retrieve
import FusionMemory.Server.Rpc

/-!
The server over a `MemoryEngine`.

`EngineCall.program` is what the engine does for a call of its handle
(`impl FusionMemoryEngine for MemoryEngine`), and `served` runs the program of a
handler over a world of the engine. `Answers` is one request sent through `dispatch`.
-/

namespace FusionMemory

open Lib

variable {F : Type} [FloatArith F] [JsonText F]

/-- The engine's method behind a call. -/
def EngineCall.program (eng : MemoryEngine) : (call : EngineCall) → EngineM F (call.Value F)
  | .commitEpisodicMemoryDetailed sessionId interaction => commitInner eng sessionId interaction
  | .retrieveContext query => FusionMemory.retrieveContext eng query
  | .consolidateMemories => FusionMemory.consolidateMemories eng
  | .consolidateMemoriesScoped ns key => FusionMemory.consolidateMemoriesScoped eng ns key
  | .getMemoryTenant id tenant => FusionMemory.getMemoryTenant id tenant
  | .deleteMemoryTenant id tenant => FusionMemory.deleteMemoryTenant id tenant
  | .deleteScopeTenant scope tenant => FusionMemory.deleteScopeTenant scope tenant
  | .countTenant scope tenant => FusionMemory.countTenant scope tenant
  | .auditMemoryAccess entityIds => FusionMemory.auditMemoryAccess entityIds
  | .listMemories query tenant => FusionMemory.listMemories query tenant
  | .listAuditLog limit => FusionMemory.listAuditLog limit
  | .listMerges => FusionMemory.listMerges
  | .unmerge mergeId => FusionMemory.unmerge mergeId
  | .reconcile => FusionMemory.reconcile eng

/-- A server whose engine is `eng`; what is not the engine answers as it likes. -/
def served (eng : MemoryEngine) (outside : (r : ServerRequest) → r.Reply F) :
    Machine (serverSignature F) (World F) where
  ready _ _ := true
  exec r w := match r with
    | .engine call => run (call.program eng) w
    | .verify jwt => (outside (.verify jwt), w)
    | .home => (outside .home, w)
    | .pathExists path => (outside (.pathExists path), w)
    | .runImport source => (outside (.runImport source), w)

/-- Nothing outside the engine answers. -/
def ServerRequest.unanswered : (r : ServerRequest) → r.Reply F
  | .verify _ => .error ⟨503, "identity service unavailable"⟩
  | .home => none
  | .pathExists _ => false
  | .engine _ => .error .poisoned
  | .runImport _ => .error "import unavailable"

/-- `req`, sent in the world `w` for a tenant, is answered with `result` and leaves `w'`. -/
def Answers (eng : MemoryEngine) (tenant : String) (req : RpcRequest F) (w : World F)
    (result : Except RpcError (RpcResult F)) (w' : World F) : Prop :=
  ∃ outside, Program.run (served eng outside)
    (Rpc.dispatch req tenant : Program (serverSignature F) RpcError (RpcResponse F)) w =
      (.ok ⟨result, req.id⟩, w')

/-- The method that a request names, without its version. -/
def RpcRequest.name (req : RpcRequest F) : String :=
  (stripPrefix "v1." req.method).getD req.method

omit [JsonText F] in
theorem RpcRequest.name_plain {method : String} (plain : stripPrefix "v1." method = none)
    (jsonrpc : String) (params id : Json F) :
    (⟨jsonrpc, method, params, id⟩ : RpcRequest F).name = method := by
  unfold name
  rw [plain]
  rfl

omit [JsonText F] in
/-- A request is routed by its name alone. -/
theorem RpcRequest.route_eq {req : RpcRequest F} {name : String} (named : req.name = name)
    (plain : stripPrefix "v1." name = none) (tenant : String) :
    Rpc.route req.method req.params tenant = Rpc.route name req.params tenant := by
  have pinned : (stripPrefix "v1." req.method).getD req.method = name := named
  unfold Rpc.route
  rw [pinned, plain]
  rfl

section Runs

variable {eng : MemoryEngine} {outside : (r : ServerRequest) → r.Reply F} {α β : Type}

theorem run_params_bind (decoded : Option α) (k : α → ServerM F β) (w : World F) :
    Program.run (served eng outside) (params decoded >>= k) w =
      match decoded with
      | some a => Program.run (served eng outside) (k a) w
      | none => (.error .malformedParams, w) := by
  cases decoded <;> rfl

theorem run_callEngine (call : EngineCall) (w : World F) :
    Program.run (served eng outside) (callEngine call) w =
      ((run (call.program eng) w).1.mapError RpcError.engine, (run (call.program eng) w).2) := by
  change Program.run (served eng outside)
    (Program.ofExcept ((run (call.program eng) w).1.mapError RpcError.engine)) _ = _
  cases (run (call.program eng) w).1 <;> rfl

/-- A handler that ends with a call of the engine. -/
theorem run_callEngine_answer (call : EngineCall) (answer : call.Value F → RpcResult F)
    (w : World F) :
    Program.run (served eng outside) (do let a ← callEngine call; return answer a) w =
      (((run (call.program eng) w).1.mapError RpcError.engine).map answer,
        (run (call.program eng) w).2) := by
  rw [Program.run_bind, run_callEngine]
  cases (run (call.program eng) w).1 <;> rfl

theorem run_callEngine_answer_eq_ok {call : EngineCall} {answer : call.Value F → RpcResult F}
    {w w' : World F} {r : RpcResult F} :
    Program.run (served eng outside) (do let a ← callEngine call; return answer a) w =
      (.ok r, w') ↔ ∃ a, run (call.program eng) w = (.ok a, w') ∧ answer a = r := by
  rw [run_callEngine_answer]
  cases done : run (call.program eng) w with
  | mk reply w₁ =>
      cases reply with
      | error e =>
          constructor
          · intro ran
            cases ran
          · rintro ⟨a, ran, -⟩
            cases ran
      | ok a =>
          constructor
          · intro ran
            cases ran
            exact ⟨a, rfl, rfl⟩
          · rintro ⟨a', ran, rfl⟩
            cases ran
            rfl

/-- A method that decodes its parameters and answers with what one call returns. -/
theorem run_method_eq_ok {decoded : Option α} {call : α → EngineCall}
    {answer : (a : α) → (call a).Value F → RpcResult F} {w w' : World F} {r : RpcResult F} :
    Program.run (served eng outside)
        (params decoded >>= fun a => do let b ← callEngine (call a); return answer a b) w =
      (.ok r, w') ↔
    ∃ a b, decoded = some a ∧ run ((call a).program eng) w = (.ok b, w') ∧ answer a b = r := by
  rw [run_params_bind]
  cases decoded with
  | none =>
      constructor
      · intro ran
        cases ran
      · rintro ⟨a, b, given, -⟩
        cases given
  | some a =>
      dsimp only
      rw [run_callEngine_answer_eq_ok]
      constructor
      · rintro ⟨b, ran, same⟩
        exact ⟨a, b, rfl, ran, same⟩
      · rintro ⟨a', b, given, ran, same⟩
        cases given
        exact ⟨b, ran, same⟩

theorem run_requireConfirm_bind (method : String) (confirm : Bool) (k : Unit → ServerM F β)
    (w : World F) :
    Program.run (served eng outside) (requireConfirm method confirm >>= k) w =
      if confirm then Program.run (served eng outside) (k ()) w
      else (.error (.unconfirmed method), w) := by
  cases confirm <;> rfl

theorem run_validateNamespace_bind (ns : String) (k : Unit → ServerM F β) (w : World F) :
    Program.run (served eng outside) (validateNamespace ns >>= k) w =
      if isValidNamespace ns then Program.run (served eng outside) (k ()) w
      else (.error (.invalidNamespace ns), w) := by
  unfold validateNamespace
  split_ifs <;> rfl

end Runs

section Dispatch

variable {eng : MemoryEngine} {tenant : String} {req : RpcRequest F} {w w' : World F}
  {result : Except RpcError (RpcResult F)}

/-- A request of the protocol's version is answered by its method. -/
theorem answers_iff (version : req.jsonrpc = "2.0") : Answers eng tenant req w result w' ↔
    ∃ outside, Program.run (served eng outside) (Rpc.route req.method req.params tenant) w =
      (result, w') := by
  unfold Answers Rpc.dispatch
  refine exists_congr fun outside => ?_
  rw [if_neg (not_not.mpr version), Program.run_bind, Program.run_attempt]
  simp only [Program.pure_def, Program.run_done, Except.ok.injEq,
    RpcResponse.mk.injEq, and_true, Prod.ext_iff]

/-- Another version is refused, and nothing happens. -/
theorem Answers.refused (answers : Answers eng tenant req w result w')
    (version : req.jsonrpc ≠ "2.0") : result = .error (.invalidRequest req.jsonrpc) ∧ w' = w := by
  obtain ⟨outside, ran⟩ := answers
  unfold Rpc.dispatch at ran
  rw [if_pos version] at ran
  injection ran with response world
  injection response with response
  injection response with result
  exact ⟨result.symm, world.symm⟩

/-- An answer that is not a refusal comes from the method. -/
theorem Answers.route (answers : Answers eng tenant req w result w') :
    ((∃ e, result = .error e) ∧ w' = w) ∨
      ∃ outside, Program.run (served eng outside) (Rpc.route req.method req.params tenant) w =
        (result, w') := by
  by_cases version : req.jsonrpc = "2.0"
  · exact .inr ((answers_iff version).mp answers)
  · obtain ⟨refused, same⟩ := answers.refused version
    exact .inl ⟨⟨_, refused⟩, same⟩

end Dispatch

end FusionMemory
