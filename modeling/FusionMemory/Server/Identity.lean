import FusionMemory.Server.AuthGate
import FusionMemory.Lib.Evidence

/-!
The verifier that asks fusion-identity (`RealVerifier` in `fm-server/src/identity.rs`).

A token is looked up in a cache shared by all requests, and otherwise sent to the identity
service; a tenant that it vouches for is cached for half a minute. `verifying` puts the
verifier behind the handlers, which then run side by side: the service, and everything else
the handlers ask for, answers as it likes.

`data_requests_vouched` is about what then holds of each request that reaches the engine:
the service itself has vouched for its tenant, no longer ago than the cache remembers.
-/

namespace FusionMemory

open Lib

/-! ### The identity service -/

structure VerifyClaims where
  tid : String
  tenantStatus : String
  revoked : Bool
deriving DecidableEq, Repr

/-- What comes back: nothing, or a status and the claims that the body holds, if it can be
decoded. -/
inductive IdentityReply where
  | failed
  | response (status : Nat) (claims : Option VerifyClaims)
deriving DecidableEq, Repr

/-- What is posted to the service. -/
structure VerifyRequest where
  url : String
  authorization : String
  token : String
deriving DecidableEq, Repr

/-- A verifier, with the time that the cache remembers a token for, in nanoseconds. -/
structure RealVerifier where
  baseUrl : String
  serviceToken : String
  cacheTtl : Nat
deriving DecidableEq, Repr

def deny (msg : String) : Rejection := ⟨401, msg⟩

/-- The tenant that a reply vouches for. -/
def IdentityReply.tenant : IdentityReply → Except Rejection String
  | .failed => .error (deny "identity verification unavailable")
  | .response status claims =>
      if status < 200 ∨ 300 ≤ status then .error (deny "invalid token")
      else match claims with
        | none => .error (deny "invalid token")
        | some claims =>
            if claims.revoked then .error (deny "revoked token")
            else if claims.tenantStatus ≠ "active" then .error (deny "tenant not active")
            else .ok claims.tid

/-- The service vouches for active tenants and for tokens that are not revoked only. -/
theorem IdentityReply.tenant_eq_ok {reply : IdentityReply} {tid : String} :
    reply.tenant = .ok tid ↔ ∃ status, 200 ≤ status ∧ status < 300 ∧
      reply = .response status (some ⟨tid, "active", false⟩) := by
  constructor
  · intro vouched
    unfold tenant at vouched
    split at vouched
    · cases vouched
    · split_ifs at vouched with refused
      split at vouched
      · cases vouched
      · next status _ claims =>
          split_ifs at vouched with revoked inactive
          obtain ⟨name, standing, isRevoked⟩ := claims
          cases vouched
          obtain rfl := Bool.eq_false_iff.mpr revoked
          obtain rfl := not_not.mp inactive
          exact ⟨status, by omega, by omega, rfl⟩
  · rintro ⟨status, low, high, rfl⟩
    unfold tenant
    dsimp only
    rw [if_neg (by omega)]
    rfl

namespace RealVerifier

def new (baseUrl serviceToken : String) : RealVerifier where
  baseUrl := String.ofList (baseUrl.toList.rdropWhile (· == '/'))
  serviceToken := serviceToken
  cacheTtl := 30 * 1000000000

def request (verifier : RealVerifier) (jwt : String) : VerifyRequest where
  url := verifier.baseUrl ++ "/api/v1/auth/verify"
  authorization := "Bearer " ++ verifier.serviceToken
  token := jwt

end RealVerifier

/-! ### Verifying behind the handlers -/

/-- What a handler asks for when the verifier is a real one: the cache, the identity service
and everything else. -/
inductive GatewayOp where
  | cacheGet (jwt : String)
  | cachePut (jwt tid : String)
  | post (request : VerifyRequest)
  | server (r : ServerRequest)

@[reducible] def GatewayOp.Reply (F : Type) : GatewayOp → Type
  | .cacheGet _ => Option String
  | .cachePut _ _ => Unit
  | .post _ => IdentityReply
  | .server r => r.Reply F

abbrev gatewaySignature (F : Type) : Signature := ⟨GatewayOp, GatewayOp.Reply F⟩

def gatewayOp {F ε : Type} (op : GatewayOp) : Program (gatewaySignature F) ε (op.Reply F) :=
  Program.perform (S := gatewaySignature F) op

/-- `RealVerifier::verify`. -/
def RealVerifier.verify {F ε : Type} (verifier : RealVerifier) (jwt : String) :
    Program (gatewaySignature F) ε (Except Rejection String) := do
  match ← gatewayOp (.cacheGet jwt) with
  | some tid => return .ok tid
  | none => do
      let reply ← gatewayOp (.post (verifier.request jwt))
      match reply.tenant with
      | .error rejection => return .error rejection
      | .ok tid => do
          gatewayOp (.cachePut jwt tid)
          return .ok tid

/-- The verifier answers what handlers ask of the identity service. -/
def verifying {F ε : Type} (verifier : RealVerifier) :
    (r : ServerRequest) → Program (gatewaySignature F) ε (r.Reply F)
  | .verify jwt => verifier.verify jwt
  | .home => gatewayOp (.server .home)
  | .pathExists path => gatewayOp (.server (.pathExists path))
  | .engine call => gatewayOp (.server (.engine call))
  | .runImport source => gatewayOp (.server (.runImport source))

/-! ### The world of the handlers -/

/-- The clock, the service and what else the handlers ask, as functions of the time. -/
structure GatewayEnv (F : Type) where
  clock : Nat → Nat
  identity : Nat → VerifyRequest → IdentityReply
  server : Nat → (r : ServerRequest) → r.Reply F

structure GatewayWorld (F : Type) where
  env : GatewayEnv F
  tick : Nat
  ttl : Nat
  /-- For a token its tenant, and when that expires. -/
  cache : String → Option (String × Nat)

namespace GatewayWorld

variable {F : Type}

def new (verifier : RealVerifier) (env : GatewayEnv F) : GatewayWorld F where
  env := env
  tick := 0
  ttl := verifier.cacheTtl
  cache _ := none

def exec : (op : GatewayOp) → GatewayWorld F → op.Reply F × GatewayWorld F
  | .cacheGet jwt, w =>
      (((w.cache jwt).filter fun entry => w.env.clock w.tick < entry.2).map Prod.fst,
        { w with tick := w.tick + 1 })
  | .cachePut jwt tid, w =>
      ((), { w with tick := w.tick + 1
                    cache := Function.update w.cache jwt (some (tid, w.env.clock w.tick + w.ttl)) })
  | .post request, w => (w.env.identity w.tick request, { w with tick := w.tick + 1 })
  | .server r, w => (w.env.server w.tick r, { w with tick := w.tick + 1 })

/-- An entry after a step was there before, or has just been put. -/
theorem exec_entry {w : GatewayWorld F} {op : GatewayOp} {jwt tid : String} {expires : Nat}
    (after : (w.exec op).2.cache jwt = some (tid, expires)) :
    w.cache jwt = some (tid, expires) ∨
      op = .cachePut jwt tid ∧ expires = w.env.clock w.tick + w.ttl := by
  cases op with
  | cachePut jwt' tid' =>
      change Function.update w.cache jwt' _ jwt = _ at after
      by_cases same : jwt = jwt'
      · subst same
        rw [Function.update_self] at after
        cases after
        exact .inr ⟨rfl, rfl⟩
      · rw [Function.update_of_ne same] at after
        exact .inl after
  | _ => exact .inl after

/-- What a lookup answers is in the cache, and has not expired. -/
theorem exec_hit {w : GatewayWorld F} {jwt tid : String}
    (hit : (w.exec (.cacheGet jwt)).1 = some tid) :
    ∃ expires, w.cache jwt = some (tid, expires) ∧ w.env.clock w.tick < expires := by
  obtain ⟨⟨name, expires⟩, found, rfl⟩ := Option.map_eq_some_iff.mp hit
  obtain ⟨there, young⟩ := Option.filter_eq_some_iff.mp found
  exact ⟨expires, there, of_decide_eq_true young⟩

theorem exec_frame (w : GatewayWorld F) (op : GatewayOp) :
    (w.exec op).2.env = w.env ∧ (w.exec op).2.tick = w.tick + 1 ∧ (w.exec op).2.ttl = w.ttl := by
  cases op <;> exact ⟨rfl, rfl, rfl⟩

end GatewayWorld

def gatewayMachine (F : Type) : Machine (gatewaySignature F) (GatewayWorld F) :=
  ⟨fun _ _ => true, GatewayWorld.exec⟩

/-! ### What the verifier goes by -/

section Evidence

variable {F : Type} {verifier : RealVerifier} {jwt tid : String}
  {h : List (Event (gatewaySignature F))}

/-- The service has vouched for the token and the tenant, in an answer to this request. -/
def Posted (verifier : RealVerifier) (jwt tid : String) (h : List (Event (gatewaySignature F))) :
    Prop :=
  ∃ t reply, ⟨t, .post (verifier.request jwt), reply⟩ ∈ h ∧ reply.tenant = .ok tid

/-- The token was found in the cache. -/
def Cached (jwt tid : String) (h : List (Event (gatewaySignature F))) : Prop :=
  ∃ t, ⟨t, .cacheGet jwt, some tid⟩ ∈ h

/-- What the verifier goes by when it lets a token pass. -/
def Vouched (verifier : RealVerifier) (jwt tid : String) (h : List (Event (gatewaySignature F))) :
    Prop :=
  Posted verifier jwt tid h ∨ Cached jwt tid h

theorem Posted.cons (posted : Posted verifier jwt tid h) (e : Event (gatewaySignature F)) :
    Posted verifier jwt tid (e :: h) := by
  obtain ⟨t, reply, mem, vouched⟩ := posted
  exact ⟨t, reply, List.mem_cons_of_mem _ mem, vouched⟩

theorem Vouched.cons (vouched : Vouched verifier jwt tid h) (e : Event (gatewaySignature F)) :
    Vouched verifier jwt tid (e :: h) := by
  rcases vouched with posted | ⟨t, mem⟩
  · exact .inl (posted.cons e)
  · exact .inr ⟨t, List.mem_cons_of_mem _ mem⟩

/-- What a handler was told of tokens, the verifier has gone by. -/
def Backed (verifier : RealVerifier) (told : List (Event (serverSignature F)))
    (h : List (Event (gatewaySignature F))) : Prop :=
  ∀ t jwt tid, ⟨t, .verify jwt, .ok tid⟩ ∈ told → Vouched verifier jwt tid h

variable {told : List (Event (serverSignature F))}

theorem Backed.cons (backed : Backed verifier told h) (e : Event (gatewaySignature F)) :
    Backed verifier told (e :: h) :=
  fun t jwt tid mem => (backed t jwt tid mem).cons e

/-- An answer of the verifier. -/
theorem Backed.answer (backed : Backed verifier told h) {result : Except Rejection String}
    (vouched : ∀ tid, result = .ok tid → Vouched verifier jwt tid h) (t : Nat) :
    Backed verifier (⟨t, .verify jwt, result⟩ :: told) h := by
  intro t' jwt' tid mem
  rcases List.mem_cons.mp mem with same | old
  · injection same with _ request reply
    obtain rfl := ServerRequest.verify.inj request
    exact vouched tid reply.symm
  · exact backed t' jwt' tid old

/-- Any other answer. -/
theorem Backed.other (backed : Backed verifier told h) {r : ServerRequest}
    (plain : ∀ jwt, r ≠ .verify jwt) (t : Nat) (reply : r.Reply F) :
    Backed verifier (⟨t, r, reply⟩ :: told) h := by
  intro t' jwt' tid mem
  rcases List.mem_cons.mp mem with same | old
  · injection same with _ request _
    exact absurd request.symm (plain jwt')
  · exact backed t' jwt' tid old

end Evidence

/-! ### The handlers behind the verifier -/

variable {F : Type} [FloatArith F]

/-- A request to a server with a real verifier. -/
def gateway (st : HttpState) (verifier : RealVerifier) (route : Http.Route) (req : HttpRequest F) :
    Program (gatewaySignature F) (HttpResponse F) (HttpResponse F) :=
  (Http.app st route req).through (verifying verifier)

/-- What a request may ask for: a token is cached when the service has vouched for it, and on
every route but the import the engine is reached with a tenant that was vouched for. -/
def GatewayAllows (st : HttpState) (verifier : RealVerifier) (route : Http.Route)
    (headers : HeaderMap) (h : List (Event (gatewaySignature F))) : GatewayOp → Prop
  | .cachePut jwt tid => Posted verifier jwt tid h
  | .server r => route ≠ .import → r.reachesEngine = true → requestTenant st headers ≠ "" ∧
      ∃ jwt, bearerJwt headers = some jwt ∧ Vouched verifier jwt (requestTenant st headers) h
  | _ => True

section Handlers

variable {st : HttpState} {verifier : RealVerifier} {route : Http.Route} {headers : HeaderMap}
  {told : List (Event (serverSignature F))} {h : List (Event (gatewaySignature F))}

theorem app_gated (data : route ≠ .import) (req : HttpRequest F) :
    Gated st req.headers (Http.app st route req) := by
  unfold Http.app
  cases route with
  | get id => exact getMemory_gated id
  | «import» => exact absurd rfl data
  | _ =>
      cases req.body with
      | error status => trivial
      | ok body => exact handleRpc_gated body

omit [FloatArith F] in
theorem verify_obeys {ε : Type} (backed : Backed verifier told h) (jwt : String) :
    Program.Obeys (GatewayAllows st verifier route headers) (fun h' => Program.Ends
        (fun reply => ∃ t, Backed verifier (⟨t, .verify jwt, reply⟩ :: told) h') fun _ => True) h
      (verifier.verify jwt : Program (gatewaySignature F) ε (Except Rejection String)) := by
  refine ⟨trivial, fun t found => ?_⟩
  cases found with
  | some tid =>
      refine ⟨t, (backed.cons _).answer (fun tid' same => ?_) t⟩
      cases same
      exact .inr ⟨t, List.mem_cons_self⟩
  | none =>
      refine ⟨trivial, fun t₁ reply => ?_⟩
      change Program.Obeys _ _ _ ((match reply.tenant with
        | .error rejection => .done (.error rejection)
        | .ok tid => .request (GatewayOp.cachePut jwt tid) fun _ => .done (.ok tid)) :
          Program (gatewaySignature F) ε (Except Rejection String))
      have backed := (backed.cons ⟨t, .cacheGet jwt, none⟩).cons
        ⟨t₁, .post (verifier.request jwt), reply⟩
      cases vouched : reply.tenant with
      | error rejection => exact ⟨t₁, backed.answer (fun tid same => by cases same) t₁⟩
      | ok tid =>
          have posted : Posted verifier jwt tid (⟨t₁, .post (verifier.request jwt), reply⟩ ::
              ⟨t, .cacheGet jwt, none⟩ :: h) := ⟨t₁, reply, List.mem_cons_self, vouched⟩
          refine ⟨posted, fun t₂ _ => ⟨t₂, (backed.cons _).answer (fun tid' same => ?_) t₂⟩⟩
          cases same
          exact .inl (posted.cons _)

omit [FloatArith F] in
/-- What a handler asks of anything but the identity service goes through as it is. -/
theorem server_obeys {ε : Type} (multi : st.multiTenant = true) {r : ServerRequest}
    (plain : ∀ jwt, r ≠ .verify jwt) (backed : Backed verifier told h)
    (allowed : route ≠ .import → Guarded st headers told r) :
    Program.Obeys (GatewayAllows st verifier route headers) (fun h' => Program.Ends
        (fun reply => ∃ t, Backed verifier (⟨t, r, reply⟩ :: told) h') fun _ => True) h
      (gatewayOp (.server r) : Program (gatewaySignature F) ε (r.Reply F)) := by
  refine ⟨fun data reaches => ?_, fun t reply => ⟨t, (backed.cons _).other plain t reply⟩⟩
  have authenticated := allowed data reaches
  unfold Authenticated at authenticated
  rw [if_pos multi] at authenticated
  obtain ⟨nonempty, t, jwt, sent, verified⟩ := authenticated
  exact ⟨nonempty, jwt, sent, backed t jwt _ verified⟩

theorem gateway_obeys (multi : st.multiTenant = true) (req : HttpRequest F) :
    Program.Obeys (GatewayAllows st verifier route req.headers) (fun _ _ => True) []
      (gateway st verifier route req) := by
  refine Program.Obeys.through (R := Backed verifier) (Q := fun _ _ => True)
    (P := fun told r => route ≠ .import → Guarded st req.headers told r) ?_
    (fun _ _ _ _ _ => trivial) (h := []) (fun t jwt tid mem => by cases mem) ?_
  · intro told h r backed allowed
    cases r with
    | verify jwt => exact verify_obeys backed jwt
    | _ => exact server_obeys multi (fun jwt same => by cases same) backed allowed
  · by_cases data : route = .import
    · exact (Program.Obeys.unrestricted (P := fun _ _ => True) (I := fun _ => True)
        (fun _ _ _ => trivial) (fun _ _ _ => trivial) trivial _).mono
        (fun _ _ _ others => absurd data others) fun _ _ _ => trivial
    · exact (app_gated data req).mono (fun _ _ guarded _ => guarded) fun _ _ _ => trivial

end Handlers

/-! ### Requests side by side -/

abbrev Gateways (F : Type) [FloatArith F] :=
  Pool (gatewaySignature F) (HttpResponse F) (HttpResponse F) (GatewayWorld F)

/-- Some requests that reach a server, before any of them is handled. -/
def Gateways.start (st : HttpState) (verifier : RealVerifier) (env : GatewayEnv F)
    (requests : List (Http.Route × HttpRequest F)) : Gateways F :=
  Pool.start (GatewayWorld.new verifier env)
    (requests.map fun request => gateway st verifier request.1 request.2)

omit [FloatArith F] in
/-- The cache holds what was put there, and answers with what it holds. -/
theorem gatewayMachine_memory (verifier : RealVerifier) (env : GatewayEnv F) :
    (gatewayMachine F).Memory (fun w => w.env = env ∧ w.ttl = verifier.cacheTtl) GatewayWorld.tick
      (fun w (jwt, tid, expires) => w.cache jwt = some (tid, expires))
      (fun e (jwt, tid, expires) =>
        e.request = .cachePut jwt tid ∧ expires = env.clock e.time + verifier.cacheTtl)
      (fun e (jwt, tid, expires) => e.request = .cacheGet jwt ∧ HEq e.reply (some tid) ∧
        env.clock e.time < expires)
      (fun e => ∃ t jwt tid, e = ⟨t, .cacheGet jwt, some tid⟩) where
  keeps op w inv := by
    obtain ⟨same, -, ttl⟩ := w.exec_frame op
    exact ⟨same.trans inv.1, ttl.trans inv.2⟩
  ticks op w := (w.exec_frame op).2.1
  made op w fact inv after := by
    obtain ⟨jwt, tid, expires⟩ := fact
    rcases GatewayWorld.exec_entry after with old | ⟨rfl, rfl⟩
    · exact .inl old
    · refine .inr ⟨rfl, ?_⟩
      rw [inv.1, inv.2]
  shown op w inv asked := by
    obtain ⟨t, jwt, tid, same⟩ := asked
    injection same with _ request reply
    subst request
    obtain ⟨expires, there, young⟩ := GatewayWorld.exec_hit (eq_of_heq reply)
    rw [inv.1] at young
    exact ⟨(jwt, tid, expires), there, rfl, reply, young⟩

section Runs

variable {st : HttpState} {verifier : RealVerifier} {env : GatewayEnv F}
  {requests : List (Http.Route × HttpRequest F)} {pool : Gateways F}

theorem Gateways.start_quiet : (Gateways.start st verifier env requests).events = [] :=
  Pool.events_start _ _

/-- Why a request may ask for what it asks for. -/
def AllowedBy (st : HttpState) (verifier : RealVerifier)
    (requests : List (Http.Route × HttpRequest F)) (i : Nat) (h : List (Event (gatewaySignature F)))
    (op : GatewayOp) : Prop :=
  ∃ request, requests[i]? = some request ∧
    GatewayAllows st verifier request.1 request.2.headers h op

theorem Gateways.keepsProtocol (multi : st.multiTenant = true) (env : GatewayEnv F)
    (requests : List (Http.Route × HttpRequest F)) :
    Pool.KeepsProtocol (AllowedBy st verifier requests) (fun _ _ _ => True)
      (Gateways.start st verifier env requests) := by
  refine Pool.KeepsProtocol.start _ fun i p listed => ?_
  rw [List.getElem?_map] at listed
  obtain ⟨request, found, rfl⟩ := Option.map_eq_some_iff.mp listed
  exact (gateway_obeys multi request.2).mono (fun _ _ allowed => ⟨request, found, allowed⟩)
    fun _ _ _ => trivial

/-- A token in the cache was vouched for before it was put there. -/
theorem posted_of_put (multi : st.multiTenant = true)
    (reach : Pool.Reaches (gatewayMachine F) (fun _ _ => True)
      (Gateways.start st verifier env requests) pool) {e : Event (gatewaySignature F)}
    {jwt tid : String} (happened : e ∈ pool.events) (put : e.request = .cachePut jwt tid) :
    ∃ (j : Nat) (thread : Thread (gatewaySignature F) (HttpResponse F) (HttpResponse F)) (t₁ : Nat)
        (reply : IdentityReply), pool.threads[j]? = some thread ∧ e ∈ thread.history ∧
      ⟨t₁, .post (verifier.request jwt), reply⟩ ∈ thread.history ∧ reply.tenant = .ok tid ∧
      t₁ < e.time := by
  obtain ⟨j, thread, found, mine⟩ := Pool.mem_events.mp happened
  obtain ⟨earlier, ⟨request, -, allowed⟩, before⟩ :=
    reach.explained Gateways.start_quiet (Gateways.keepsProtocol multi env requests) j thread found e mine
  rw [put] at allowed
  obtain ⟨t₁, reply, mem, vouched⟩ := allowed
  obtain ⟨mem, earlier⟩ := before _ mem
  exact ⟨j, thread, t₁, reply, found, mine, mem, vouched, earlier⟩

/-- A token that is found in the cache was vouched for, and put there less than the time to live
before. -/
theorem vouched_of_cached (multi : st.multiTenant = true)
    (reach : Pool.Reaches (gatewayMachine F) (fun _ _ => True)
      (Gateways.start st verifier env requests) pool) {i : Nat}
    {thread : Thread (gatewaySignature F) (HttpResponse F) (HttpResponse F)}
    (found : pool.threads[i]? = some thread) {t₂ : Nat} {jwt tid : String}
    (mem : ⟨t₂, .cacheGet jwt, some tid⟩ ∈ thread.history) :
    ∃ (j : Nat) (other : Thread (gatewaySignature F) (HttpResponse F) (HttpResponse F))
        (t₁ status t₀ : Nat), pool.threads[j]? = some other ∧ 200 ≤ status ∧ status < 300 ∧
      ⟨t₁, .post (verifier.request jwt), .response status (some ⟨tid, "active", false⟩)⟩ ∈
        other.history ∧
      ⟨t₀, .cachePut jwt tid, ()⟩ ∈ other.history ∧ t₁ < t₀ ∧ t₀ < t₂ ∧
      env.clock t₂ < env.clock t₀ + verifier.cacheTtl := by
  have traced := reach.traced (gatewayMachine_memory verifier env) Gateways.start_quiet
    ⟨rfl, rfl⟩ rfl fun _ there => by cases there
  obtain ⟨⟨jwt', tid', expires⟩, ⟨token, answer, young⟩, e₀, happened, ⟨put, rfl⟩, put_first⟩ :=
    traced.told _ (Pool.mem_events.mpr ⟨i, thread, found, mem⟩) ⟨t₂, jwt, _, rfl⟩
  obtain rfl := GatewayOp.cacheGet.inj token
  obtain rfl := Option.some.inj (eq_of_heq answer)
  obtain ⟨j, other, t₁, post, there, mine, posted, vouched, post_first⟩ :=
    posted_of_put multi reach happened put
  obtain ⟨status, low, high, rfl⟩ := IdentityReply.tenant_eq_ok.mp vouched
  obtain ⟨t₀, op, done⟩ := e₀
  subst put
  exact ⟨j, other, t₁, status, t₀, there, low, high, posted, mine, post_first, put_first, young⟩

/-- A request that reaches the engine of a multi-tenant server, on any route but the import,
carries a token that the identity service itself has vouched for, as an active tenant's and not
revoked: in an answer to this request, or in one to another request that cached it less than
the time to live before this one looked it up. -/
theorem data_requests_vouched (multi : st.multiTenant = true)
    (reach : Pool.Reaches (gatewayMachine F) (fun _ _ => True)
      (Gateways.start st verifier env requests) pool) {i : Nat} {route : Http.Route}
    {req : HttpRequest F} (listed : requests[i]? = some (route, req)) (data : route ≠ .import)
    {thread : Thread (gatewaySignature F) (HttpResponse F) (HttpResponse F)}
    (found : pool.threads[i]? = some thread) {t : Nat} {r : ServerRequest} {reply : r.Reply F}
    (reaches : r.reachesEngine = true) (reached : ⟨t, .server r, reply⟩ ∈ thread.history) :
    requestTenant st req.headers ≠ "" ∧ ∃ jwt, bearerJwt req.headers = some jwt ∧
      ∃ (j : Nat) (other : Thread (gatewaySignature F) (HttpResponse F) (HttpResponse F))
          (t₁ status : Nat), pool.threads[j]? = some other ∧ 200 ≤ status ∧ status < 300 ∧
        ⟨t₁, .post (verifier.request jwt),
          .response status (some ⟨requestTenant st req.headers, "active", false⟩)⟩ ∈ other.history ∧
        t₁ < t ∧ (j = i ∨ ∃ t₀ t₂,
          ⟨t₀, .cachePut jwt (requestTenant st req.headers), ()⟩ ∈ other.history ∧ t₁ < t₀ ∧
          ⟨t₂, .cacheGet jwt, some (requestTenant st req.headers)⟩ ∈ thread.history ∧ t₀ < t₂ ∧
          t₂ < t ∧ env.clock t₂ < env.clock t₀ + verifier.cacheTtl) := by
  obtain ⟨earlier, ⟨request, listed', allowed⟩, before⟩ := reach.explained Gateways.start_quiet
    (Gateways.keepsProtocol multi env requests) i thread found _ reached
  obtain rfl := Option.some.inj (listed.symm.trans listed')
  obtain ⟨nonempty, jwt, sent, vouched⟩ := allowed data reaches
  refine ⟨nonempty, jwt, sent, ?_⟩
  rcases vouched with ⟨t₁, answer, mem, vouched⟩ | ⟨t₂, mem⟩
  · obtain ⟨status, low, high, rfl⟩ := IdentityReply.tenant_eq_ok.mp vouched
    obtain ⟨mem, earlier⟩ := before _ mem
    exact ⟨i, thread, t₁, status, found, low, high, mem, earlier, .inl rfl⟩
  · obtain ⟨mem, earlier⟩ := before _ mem
    obtain ⟨j, other, t₁, status, t₀, there, low, high, posted, put, post_first, put_first, young⟩ :=
      vouched_of_cached multi reach found mem
    exact ⟨j, other, t₁, status, there, low, high, posted, post_first.trans (put_first.trans earlier),
      .inr ⟨t₀, t₂, put, post_first, mem, put_first, earlier, young⟩⟩

end Runs

/-! ### A token in the cache -/

/-- A request for a memory of `acme`, with a token. -/
def acmeRequest : HttpRequest Fixed where
  headers := [("authorization", "Bearer jwt".toUTF8.data.toList),
    ("x-fusion-tenant", "acme".toUTF8.data.toList)]
  body := .ok .null

/-- The service vouches for `acme`, and the engine is poisoned. -/
def acmeEnv : GatewayEnv Fixed where
  clock t := t
  identity _ _ := .response 200 (some ⟨"acme", "active", false⟩)
  server _ r := match r with
    | .verify _ => .error (deny "")
    | .home => none
    | .pathExists _ => false
    | .engine _ => .error .poisoned
    | .runImport _ => .error ""

def acmeRequests : List (Http.Route × HttpRequest Fixed) :=
  [(.get "m", acmeRequest), (.get "m", acmeRequest)]

/-- The first request has its token verified; the second finds it in the cache. -/
def cachedToken : Gateways Fixed :=
  Pool.runSchedule (gatewayMachine Fixed) [0, 0, 0, 0, 1, 1]
    (Gateways.start openServer (RealVerifier.new "http://127.0.0.1:11470/" "st") acmeEnv acmeRequests)

theorem cachedToken_reached : Pool.Reaches (gatewayMachine Fixed) (fun _ _ => True)
    (Gateways.start openServer (RealVerifier.new "http://127.0.0.1:11470/" "st") acmeEnv acmeRequests)
    cachedToken :=
  Pool.reaches_runSchedule (fun _ _ => true) (fun _ _ _ _ _ _ _ => trivial) _ _ (by decide +kernel)

def GatewayOp.isEngineCall : GatewayOp → Bool
  | .server (.engine _) => true
  | _ => false

theorem GatewayOp.isEngineCall_iff {op : GatewayOp} :
    op.isEngineCall = true ↔ ∃ call, op = .server (.engine call) := by
  constructor
  · intro engine
    unfold GatewayOp.isEngineCall at engine
    split at engine
    · exact ⟨_, rfl⟩
    · cases engine
  · rintro ⟨call, rfl⟩
    rfl

theorem data_requests_vouched_cached : ∃ thread t call reply,
    cachedToken.threads[1]? = some thread ∧ ⟨t, .server (.engine call), reply⟩ ∈ thread.history ∧
    requestTenant openServer acmeRequest.headers ≠ "" ∧ ∃ jwt,
      bearerJwt acmeRequest.headers = some jwt ∧
      ∃ (j : Nat) (other : Thread (gatewaySignature Fixed) (HttpResponse Fixed) (HttpResponse Fixed))
          (t₁ status : Nat), cachedToken.threads[j]? = some other ∧ 200 ≤ status ∧ status < 300 ∧
        ⟨t₁, .post ((RealVerifier.new "http://127.0.0.1:11470/" "st").request jwt), .response status
          (some ⟨requestTenant openServer acmeRequest.headers, "active", false⟩)⟩ ∈ other.history ∧
        t₁ < t ∧ (j = 1 ∨ ∃ t₀ t₂,
          ⟨t₀, .cachePut jwt (requestTenant openServer acmeRequest.headers), ()⟩ ∈ other.history ∧
          t₁ < t₀ ∧ ⟨t₂, .cacheGet jwt, some (requestTenant openServer acmeRequest.headers)⟩ ∈
            thread.history ∧ t₀ < t₂ ∧ t₂ < t ∧
          acmeEnv.clock t₂ < acmeEnv.clock t₀ + 30 * 1000000000) := by
  have reached : (cachedToken.threads[1]?.any fun thread =>
      thread.history.head?.any fun e => e.request.isEngineCall) = true := by decide +kernel
  obtain ⟨⟨history, program⟩, found, last⟩ := (Option.any_eq_true _ _).mp reached
  obtain ⟨⟨t, op, reply⟩, newest, engine⟩ := (Option.any_eq_true _ _).mp last
  obtain ⟨call, rfl⟩ := GatewayOp.isEngineCall_iff.mp engine
  have mem : ⟨t, .server (.engine call), reply⟩ ∈ history := List.mem_of_head? newest
  exact ⟨_, t, call, reply, found, mem, data_requests_vouched rfl cachedToken_reached rfl
    (fun same => by cases same) found rfl mem⟩

end FusionMemory
