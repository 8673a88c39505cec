import FusionMemory.Server.Rpc

/-!
The HTTP surface (`http.rs`, `auth.rs`, `tenant.rs` and `enforce_multi_tenant` of
`fm-server/src/identity.rs`).

Every data route is a handler: a program that may stop early with a response. Most
routes share `handleRpc`; `getMemory` and `importRoute` make their own checks.
Counting requests and timing them is left out.
-/

namespace FusionMemory

open Lib

variable {F : Type} [FloatArith F]

/-! ### Requests and responses -/

/-- Header names, in lower case, and values. -/
abbrev HeaderMap := List (String × List UInt8)

namespace HeaderMap

def get (headers : HeaderMap) (name : String) : Option (List UInt8) :=
  (headers.find? fun header => header.1 == name.toLower).map Prod.snd

/-- `HeaderValue::to_str`: visible ASCII and tabs. -/
def toStr (value : List UInt8) : Option String :=
  if value.all fun b => b == 9 || (32 ≤ b && b < 127) then
    some (String.ofList (value.map fun b => Char.ofNat b.toNat))
  else none

/-- `headers.get(name).and_then(|v| v.to_str().ok())`. -/
def text (headers : HeaderMap) (name : String) : Option String := (headers.get name).bind toStr

end HeaderMap

inductive HttpBody (F : Type) [FloatArith F] where
  | text (s : String)
  | error (text : String)
  | rpc (response : RpcResponse F)
  | report (report : ImportReport)

structure HttpResponse (F : Type) [FloatArith F] where
  status : Nat
  body : HttpBody F

def Rejection.response (r : Rejection) : HttpResponse F := ⟨r.status, .error r.error⟩

/-- A request as the extractors hand it over: a body that is no JSON never reaches a
handler, and is answered with the status that `body` holds. -/
structure HttpRequest (F : Type) [FloatArith F] where
  headers : HeaderMap
  body : Except Nat (Json F)

/-- The state that handlers read. -/
structure HttpState where
  apiKey : String
  gatewayOriginRequired : Bool
  defaultTenant : String
  multiTenant : Bool
  /-- Whether the concrete engine is at hand; only test servers have none. -/
  concrete : Bool

/-- A handler: it ends with a response, early or not. -/
abbrev HttpM (F α : Type) [FloatArith F] := Program (serverSignature F) (HttpResponse F) α

/-! ### Checks -/

def checkBearer (headers : HeaderMap) (apiKey : String) : Except (HttpResponse F) Unit :=
  let auth := (headers.text "authorization").getD ""
  let expected := "Bearer " ++ apiKey
  if constantTimeEq auth.toUTF8.data.toList expected.toUTF8.data.toList then .ok ()
  else .error ⟨401, .text "unauthorized"⟩

def GATEWAY_ROUTE_HEADER : String := "X-Fusion-Route"
def GATEWAY_ROUTE_VALUE : String := "gateway-decision"
def TENANT_HEADER : String := "X-Fusion-Tenant"

/-- The source check, and the tenant of the request. -/
def checkGatewayOrigin (headers : HeaderMap) (gatewayOriginRequired : Bool)
    (defaultTenant : String) (isPublic : Bool) : Except Rejection String :=
  let routeOrigin := (headers.text GATEWAY_ROUTE_HEADER).getD ""
  if gatewayOriginRequired && !isPublic && routeOrigin != GATEWAY_ROUTE_VALUE then
    .error ⟨403, "gateway-origin required: missing or invalid X-Fusion-Route header"⟩
  else .ok ((headers.text TENANT_HEADER).getD defaultTenant)

/-- The JWT of an `Authorization: Bearer` header. -/
def bearerJwt (headers : HeaderMap) : Option String :=
  (headers.text "authorization").bind fun s => (stripPrefix "Bearer " s).map trim

/-- In multi-tenant mode the identity service vouches for the tenant. -/
def enforceMultiTenant (headers : HeaderMap) (tenant : String) (multiTenant : Bool) :
    Program (serverSignature F) Rejection String := do
  if !multiTenant then return tenant
  else if tenant.isEmpty then .fail ⟨401, "tenant required in multi-tenant mode"⟩
  else match (bearerJwt headers).filter fun jwt => !jwt.isEmpty with
    | none => .fail ⟨401, "missing bearer JWT for identity verification"⟩
    | some jwt => do
        let reply ← (Program.perform (S := serverSignature F) (.verify jwt) :
          Program (serverSignature F) Rejection _)
        let tid ← Program.ofExcept reply
        if tid ≠ tenant then
          .fail ⟨403, "cross-tenant access denied: token tid does not match request tenant"⟩
        else return tid

/-- Stop with the response of a rejection. -/
def orReject {α : Type} (p : Program (serverSignature F) Rejection α) : HttpM F α := do
  let result ← p.attempt
  Program.ofExcept (result.mapError Rejection.response)

/-! ### Handlers -/

namespace Http

def statusOf (response : RpcResponse F) : Nat :=
  match response.result with
  | .ok _ => 200
  | .error e => httpStatusForError e.code

def handleRpc (st : HttpState) (headers : HeaderMap) (body : Json F) : HttpM F (HttpResponse F) := do
  Program.ofExcept (if st.multiTenant then .ok () else checkBearer headers st.apiKey)
  let tenant ← Program.ofExcept ((checkGatewayOrigin headers st.gatewayOriginRequired
    st.defaultTenant false).mapError Rejection.response)
  let _ ← orReject (enforceMultiTenant headers tenant st.multiTenant)
  match RpcRequest.fromJson body with
  | none => .fail ⟨400, .error "invalid json-rpc request"⟩
  | some rpc => do
      let response ← Rpc.dispatch rpc tenant
      return ⟨statusOf response, .rpc response⟩

section Routes

variable (st : HttpState) (headers : HeaderMap) (body : Json F)

def commit : HttpM F (HttpResponse F) := handleRpc st headers body
def retrieve : HttpM F (HttpResponse F) := handleRpc st headers body
def consolidate : HttpM F (HttpResponse F) := handleRpc st headers body
def audit : HttpM F (HttpResponse F) := handleRpc st headers body
def delete : HttpM F (HttpResponse F) := handleRpc st headers body
def deleteScope : HttpM F (HttpResponse F) := handleRpc st headers body
def count : HttpM F (HttpResponse F) := handleRpc st headers body
def listRoute : HttpM F (HttpResponse F) := handleRpc st headers body
def auditLogRoute : HttpM F (HttpResponse F) := handleRpc st headers body
def mergesRoute : HttpM F (HttpResponse F) := handleRpc st headers body
def unmergeRoute : HttpM F (HttpResponse F) := handleRpc st headers body
def reconcileRoute : HttpM F (HttpResponse F) := handleRpc st headers body

/-- The `source` of an import request, when it is a string. -/
def sourceParam : Json F → Option String
  | .obj fields => ((fields.find? fun field => field.1 == "source").map Prod.snd).bind Json.asString
  | _ => none

/-- The database to import: the request's, or the one under `HOME`. -/
def sourceDb : HttpM F String :=
  match sourceParam body with
  | some source => .done source
  | none => do
      let home ← (Program.perform (S := serverSignature F) .home : HttpM F _)
      match home with
      | some home => .done (home ++ "/.fusion-agent-studio/memory.db")
      | none => .fail ⟨400, .error "source required when HOME unset"⟩

/-- The import of an agent-studio history, on the server's own engine. -/
def importRoute : HttpM F (HttpResponse F) := do
  Program.ofExcept (if st.multiTenant then .ok () else checkBearer headers st.apiKey)
  let _ ← Program.ofExcept ((checkGatewayOrigin headers st.gatewayOriginRequired
    st.defaultTenant false).mapError Rejection.response)
  let source ← sourceDb body
  let found ← (Program.perform (S := serverSignature F) (.pathExists source) : HttpM F _)
  if !found then .fail ⟨404, .error ("source db not found: " ++ source)⟩
  else if !st.concrete then
    .fail ⟨503, .error "import unavailable: engine is not the concrete MemoryEngine"⟩
  else
    let imported ← (Program.perform (S := serverSignature F) (.runImport source) : HttpM F _)
    match imported with
    | .ok report => return ⟨200, .report report⟩
    | .error e => .fail ⟨500, .error e⟩

def getMemory (id : String) : HttpM F (HttpResponse F) := do
  Program.ofExcept (if st.multiTenant then .ok () else checkBearer headers st.apiKey)
  let tenant ← Program.ofExcept ((checkGatewayOrigin headers st.gatewayOriginRequired
    st.defaultTenant false).mapError Rejection.response)
  let _ ← orReject (enforceMultiTenant headers tenant st.multiTenant)
  let response ← Rpc.dispatch ⟨"2.0", "get", .obj [("id", .str id)], .int 0⟩ tenant
  return ⟨statusOf response, .rpc response⟩

end Routes

/-- The data routes under `/v1/memory`. -/
inductive Route where
  | commit | retrieve | consolidate | audit | delete | deleteScope | count
  | list | auditLog | merges | unmerge | reconcile | «import»
  | get (id : String)
deriving DecidableEq, Repr

/-- `app`: the handler of a route, reached when the extractors accept the request. -/
def app (st : HttpState) (route : Route) (req : HttpRequest F) : HttpM F (HttpResponse F) :=
  let post (handler : HttpState → HeaderMap → Json F → HttpM F (HttpResponse F)) :=
    match req.body with
    | .ok body => handler st req.headers body
    | .error status => .fail ⟨status, .text ""⟩
  match route with
  | .commit => post commit
  | .retrieve => post retrieve
  | .consolidate => post consolidate
  | .audit => post audit
  | .delete => post delete
  | .deleteScope => post deleteScope
  | .count => post count
  | .list => post listRoute
  | .auditLog => post auditLogRoute
  | .merges => post mergesRoute
  | .unmerge => post unmergeRoute
  | .reconcile => post reconcileRoute
  | .import => post importRoute
  | .get id => getMemory st req.headers id

end Http

end FusionMemory
