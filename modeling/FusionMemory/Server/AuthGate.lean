import FusionMemory.Server.Http

/-!
Which requests reach the engine.

A handler's run is seen as the requests it makes of the world, and the answers it
gets are left open: the identity service may vouch for anything, and every path may
exist. `data_routes_authenticated_iff` says exactly on which routes and in which
configurations no request reaches the engine before it was authenticated.
-/

namespace FusionMemory

open Lib

variable {F : Type} [FloatArith F]

/-! ### The Bearer check -/

/-- The Bearer check passes on exactly one header value. -/
theorem checkBearer_ok_iff {headers : HeaderMap} {apiKey : String} :
    (checkBearer headers apiKey : Except (HttpResponse F) Unit) = .ok () ↔
      headers.text "authorization" = some ("Bearer " ++ apiKey) := by
  have passes : (checkBearer headers apiKey : Except (HttpResponse F) Unit) = .ok () ↔
      (headers.text "authorization").getD "" = "Bearer " ++ apiKey := by
    unfold checkBearer
    dsimp only
    split_ifs with same
    · rw [constantTimeEq_iff] at same
      refine ⟨fun _ => ?_, fun _ => rfl⟩
      exact String.toByteArray_inj.mp (ByteArray.ext (Array.toList_inj.mp same))
    · constructor
      · intro h
        cases h
      · intro h
        rw [h, constantTimeEq_iff] at same
        exact absurd rfl same
  rw [passes]
  cases headers.text "authorization" with
  | some auth => simp
  | none =>
      have nonempty : ("" : String) ≠ "Bearer " ++ apiKey := by
        intro same
        have lengths : ("" : String).length = "Bearer ".length + apiKey.length := by
          rw [← String.length_append, ← same]
        have scheme : "Bearer ".length = 7 := rfl
        rw [scheme, String.length_empty] at lengths
        omega
      simp [nonempty]

/-! ### Authentication -/

/-- The tenant a request acts for. -/
def requestTenant (st : HttpState) (headers : HeaderMap) : String :=
  (headers.text TENANT_HEADER).getD st.defaultTenant

/-- The requests that reach the engine. -/
def ServerRequest.reachesEngine : ServerRequest → Bool
  | .engine _ | .runImport _ => true
  | _ => false

/-- What authenticates a request: the server's key or, in multi-tenant mode, a token of
its `Authorization` header that the identity service has vouched for. -/
def Authenticated (st : HttpState) (headers : HeaderMap) (h : List (Event (serverSignature F))) :
    Prop :=
  if st.multiTenant then
    requestTenant st headers ≠ "" ∧ ∃ time jwt, bearerJwt headers = some jwt ∧
      ⟨time, .verify jwt, .ok (requestTenant st headers)⟩ ∈ h
  else headers.text "authorization" = some ("Bearer " ++ st.apiKey)

/-- The engine is reached after authentication only. -/
def Guarded (st : HttpState) (headers : HeaderMap) (h : List (Event (serverSignature F)))
    (r : ServerRequest) : Prop :=
  r.reachesEngine = true → Authenticated st headers h

/-- Whatever the world answers, the engine is reached by authenticated requests only. -/
def Gated (st : HttpState) (headers : HeaderMap) (p : HttpM F (HttpResponse F)) : Prop :=
  Program.Obeys (Guarded st headers) (fun _ _ => True) [] p

variable {st : HttpState} {headers : HeaderMap}

omit [FloatArith F] in
theorem Authenticated.cons {h : List (Event (serverSignature F))} {e : Event (serverSignature F)}
    (auth : Authenticated st headers h) : Authenticated st headers (e :: h) := by
  unfold Authenticated at auth ⊢
  split_ifs at auth ⊢
  · obtain ⟨nonempty, time, jwt, sent, vouched⟩ := auth
    exact ⟨nonempty, time, jwt, sent, List.mem_cons_of_mem _ vouched⟩
  · exact auth

omit [FloatArith F] in
/-- Once authenticated, a request may do anything. -/
theorem Authenticated.gated {α ε : Type} {h : List (Event (serverSignature F))}
    (auth : Authenticated st headers h) (p : Program (serverSignature F) ε α) :
    Program.Obeys (Guarded st headers) (fun _ _ => True) h p :=
  (Program.Obeys.unrestricted (P := Guarded st headers) (fun _ _ => Authenticated.cons)
    (fun _ _ auth _ => auth) auth p).mono (fun _ _ guarded => guarded) (fun _ _ _ => trivial)

/-! ### The checks -/

/-- In single-tenant mode the first check authenticates. -/
theorem bearer_gated (st : HttpState) (headers : HeaderMap) (h : List (Event (serverSignature F))) :
    Program.Obeys (Guarded st headers) (fun h => Program.Ends
        (fun _ => st.multiTenant = false → Authenticated st headers h) fun _ => True) h
      (Program.ofExcept (if st.multiTenant then .ok () else checkBearer headers st.apiKey) :
        HttpM F Unit) := by
  apply Program.Obeys.ofExcept
  cases multi : st.multiTenant with
  | true =>
      intro single
      cases single
  | false =>
      cases checked : (checkBearer headers st.apiKey : Except (HttpResponse F) Unit) with
      | error response => trivial
      | ok _ =>
          intro _
          unfold Authenticated
          rw [multi]
          exact checkBearer_ok_iff.mp checked

/-- The tenant that the source check lets pass. -/
theorem checkGatewayOrigin_ok {tenant : String} (h : checkGatewayOrigin headers
    st.gatewayOriginRequired st.defaultTenant false = .ok tenant) :
    tenant = requestTenant st headers := by
  unfold checkGatewayOrigin at h
  dsimp only at h
  split_ifs at h
  exact (Except.ok.inj h).symm

omit [FloatArith F] in
/-- In multi-tenant mode the identity check authenticates. -/
theorem enforceMultiTenant_gated {h : List (Event (serverSignature F))}
    (single : st.multiTenant = false → Authenticated st headers h) :
    Program.Obeys (Guarded st headers)
      (fun h => Program.Ends (fun _ => Authenticated st headers h) fun _ => True) h
      (enforceMultiTenant headers (requestTenant st headers) st.multiTenant :
        Program (serverSignature F) Rejection String) := by
  unfold enforceMultiTenant
  cases multi : st.multiTenant with
  | false => exact single multi
  | true =>
      rw [if_neg (by simp)]
      split_ifs with empty
      · trivial
      · cases token : (bearerJwt headers).filter fun jwt => !jwt.isEmpty with
        | none => trivial
        | some jwt =>
            obtain ⟨sent, -⟩ := Option.filter_eq_some_iff.mp token
            refine ⟨(fun reaches => by cases reaches), fun time reply => ?_⟩
            cases reply with
            | error rejection => trivial
            | ok tid =>
                change Program.Obeys _ _ _ (if tid ≠ requestTenant st headers then _ else _)
                split_ifs with other
                · trivial
                · obtain rfl := not_not.mp other
                  show Authenticated st headers _
                  unfold Authenticated
                  rw [if_pos multi]
                  refine ⟨fun none => empty ?_, time, jwt, sent, List.mem_cons_self⟩
                  rw [none]
                  rfl


/-- The three checks of a handler in a row, and what follows them. -/
theorem checks_gated (rest : String → HttpM F (HttpResponse F)) :
    Gated st headers (do
      Program.ofExcept (if st.multiTenant then .ok () else checkBearer headers st.apiKey)
      let tenant ← Program.ofExcept ((checkGatewayOrigin headers st.gatewayOriginRequired
        st.defaultTenant false).mapError Rejection.response)
      let _ ← orReject (enforceMultiTenant headers tenant st.multiTenant)
      rest tenant) := by
  refine Program.Obeys.bind (bearer_gated st headers []) fun h _ single => ?_
  cases origin : checkGatewayOrigin headers st.gatewayOriginRequired st.defaultTenant false with
  | error rejection => trivial
  | ok tenant =>
      obtain rfl := checkGatewayOrigin_ok origin
      change Program.Obeys _ _ h (orReject _ >>= _)
      refine Program.Obeys.bind (R := fun h _ => Authenticated st headers h) ?_
        fun h' _ auth => auth.gated _
      unfold orReject
      refine Program.Obeys.bind
        (R := fun h => Program.Ends (fun _ => Authenticated st headers h) fun _ => True)
        (Program.Obeys.attempt ?_ (enforceMultiTenant_gated single)) ?_
      · exact fun _ _ post => post
      · intro h' result post
        refine Program.Obeys.ofExcept ?_
        cases result with
        | ok _ => exact post
        | error _ => trivial

/-! ### The routes -/

theorem handleRpc_gated (body : Json F) : Gated st headers (Http.handleRpc st headers body) :=
  checks_gated _

theorem getMemory_gated (id : String) : Gated st headers (Http.getMemory (F := F) st headers id) :=
  checks_gated _

/-- In single-tenant mode the import checks the key. -/
theorem importRoute_gated (body : Json F) (single : st.multiTenant = false) :
    Gated st headers (Http.importRoute st headers body) :=
  Program.Obeys.bind (bearer_gated st headers []) fun _ _ auth => (auth single).gated _

/-- In multi-tenant mode nothing stands between a gateway request and the import. -/
theorem importRoute_open {body : Json F} {tenant : String} (multi : st.multiTenant = true)
    (origin : checkGatewayOrigin headers st.gatewayOriginRequired st.defaultTenant false = .ok tenant)
    (concrete : st.concrete = true) : ¬ Gated st headers (Http.importRoute st headers body) := by
  intro gated
  -- A run in which the source exists reaches the engine, and no token was verified in it.
  have unverified : ∀ h : List (Event (serverSignature F)),
      (∀ e ∈ h, ∀ jwt, e.request ≠ .verify jwt) → ¬ Authenticated st headers h := by
    intro h noVerify auth
    unfold Authenticated at auth
    rw [if_pos multi] at auth
    obtain ⟨-, time, jwt, -, vouched⟩ := auth
    exact noVerify _ vouched jwt rfl
  unfold Gated Http.importRoute Http.sourceDb at gated
  rw [if_pos multi, origin, concrete] at gated
  cases source : Http.sourceParam body with
  | some path =>
      rw [source] at gated
      obtain ⟨-, next⟩ := gated
      obtain ⟨reached, -⟩ := next 0 true
      exact unverified _ (by simp) (reached rfl)
  | none =>
      rw [source] at gated
      obtain ⟨-, next⟩ := gated
      obtain ⟨-, next⟩ := next 0 (some "")
      obtain ⟨reached, -⟩ := next 1 true
      exact unverified _ (by simp) (reached rfl)

/-- The import reaches nothing without the concrete engine, or with a request that is
not from the gateway. -/
theorem importRoute_closed {body : Json F} (multi : st.multiTenant = true)
    (closed : ¬ (st.concrete = true ∧ ∃ tenant, checkGatewayOrigin headers st.gatewayOriginRequired
      st.defaultTenant false = .ok tenant)) : Gated st headers (Http.importRoute st headers body) := by
  unfold Gated Http.importRoute Http.sourceDb
  rw [if_pos multi]
  cases origin : checkGatewayOrigin headers st.gatewayOriginRequired st.defaultTenant false with
  | error rejection => trivial
  | ok tenant =>
      cases concrete : st.concrete with
      | true => exact absurd ⟨concrete, tenant, origin⟩ closed
      | false =>
          -- What is left asks for the home directory and the path only.
          cases Http.sourceParam body with
          | some path =>
              refine ⟨(fun reaches => by cases reaches), fun _ found => ?_⟩
              cases found <;> trivial
          | none =>
              refine ⟨(fun reaches => by cases reaches), fun _ home => ?_⟩
              cases home with
              | none => trivial
              | some dir =>
                  refine ⟨(fun reaches => by cases reaches), fun _ found => ?_⟩
                  cases found <;> trivial

/-- Every data route of every server is gated but one: the import of a multi-tenant
server, reached with a body, from the gateway where that is required, and with the
engine at hand. -/
theorem data_routes_authenticated_iff (st : HttpState) (route : Http.Route) (req : HttpRequest F) :
    Gated st req.headers (Http.app st route req) ↔
      ¬ (st.multiTenant = true ∧ route = .import ∧ st.concrete = true ∧
        (∃ body, req.body = .ok body) ∧
        ∃ tenant, checkGatewayOrigin req.headers st.gatewayOriginRequired st.defaultTenant false =
          .ok tenant) := by
  constructor
  · rintro gated ⟨multi, rfl, concrete, ⟨body, accepted⟩, tenant, origin⟩
    unfold Http.app at gated
    dsimp only at gated
    rw [accepted] at gated
    exact importRoute_open multi origin concrete gated
  · intro closed
    unfold Http.app
    cases route with
    | get id => exact getMemory_gated id
    | «import» =>
        cases accepted : req.body with
        | error status => trivial
        | ok body =>
            cases multi : st.multiTenant with
            | false => exact importRoute_gated body multi
            | true =>
                refine importRoute_closed multi fun ⟨concrete, origin⟩ => ?_
                exact closed ⟨multi, rfl, concrete, ⟨body, accepted⟩, origin⟩
    | _ =>
        cases req.body with
        | error status => trivial
        | ok body => exact handleRpc_gated body

/-! ### An unauthenticated import -/

/-- A multi-tenant server, its gateway not required. -/
def openServer : HttpState := ⟨"key", false, "", true, true⟩

/-- A request without any header. -/
def anonymousImport : HttpRequest Fixed := ⟨[], .ok (.obj [("source", .str "/tmp/studio.db")])⟩

/-- Anyone may import a database into a multi-tenant server. -/
theorem import_reaches_engine_unauthenticated :
    ¬ Gated openServer anonymousImport.headers (Http.app openServer .import anonymousImport) := by
  intro gated
  obtain ⟨-, next⟩ := gated
  obtain ⟨reached, -⟩ := next 0 true
  obtain ⟨nonempty, -⟩ := reached rfl
  exact nonempty (by decide)

end FusionMemory
