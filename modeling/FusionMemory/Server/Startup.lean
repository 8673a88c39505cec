import FusionMemory.Server.Config

/-!
How a server starts (`main.rs`, `lib.rs`, `engine_builder.rs` and `cluster.rs` of fm-server, and
`bind` of `fm-cluster/src/transport.rs`).

`Host.main` loads the configuration, checks it, builds the engine and names the servers that are
spawned then. `started_http_authenticates` and `started_leader_authenticates` go from the
environment and the files of a host to the requests that are answered: whatever they hold, a
process that starts answers requests for data over HTTP, the import of a multi-tenant server
apart, and requests for the log of a leader only with a secret, or where its address passes for a
loopback address and the environment asks for none.
-/

namespace FusionMemory

open Lib

/-! ### The engine -/

structure ExtractConfig where
  mlxUrl : String
  apiKey : String
  chatModel : String
  timeoutSecs : Nat
deriving DecidableEq, Repr

structure ServerEngine where
  /-- Of the store. -/
  dim : Nat
  /-- The embedder; without one it is a stub of the store's dimension. -/
  embedder : Option EmbedConfig
  redact : Bool
  extractor : Option ExtractConfig
deriving DecidableEq, Repr

/-- How opening goes, and where the log ends that is found. -/
structure Resources where
  createDirAll : String → Except String Unit
  openStore : String → Nat → Except StoreError Unit
  openPersist : String → Except PersistError Unit
  mlxClient : Except EmbedError Unit
  extractorClient : Except String Unit
  lastWopSeq : Except MemoryError Nat

namespace Host

variable (host : Host)

/-- On, unless it is turned off. -/
def redactEnabledEnv : Bool := ((host.var "FUSION_MEMORY_REDACT_PII").map parseEnvBool).getD true

/-- `[embed]` of the TOML file, under the environment. -/
def embedConfig (cfg : ServerConfig) : EmbedConfig :=
  { EmbedConfig.default with
    mlxUrl := cfg.embedMlxUrl
    embedModel := cfg.embedModel
    apiKey := cfg.mlxApiKey }.overlayEnv host.var

/-- The extractor shares the embedder's server. -/
def extractConfig (e : EmbedConfig) : ExtractConfig where
  mlxUrl := e.mlxUrl
  apiKey := e.apiKey
  chatModel := (host.var "FUSION_MEMORY_CHAT_MODEL").getD "Qwen3.5-9B-4bit"
  timeoutSecs := 60

def buildServerEngine (res : Resources) (cfg : ServerConfig) (stub : Bool) :
    Except String ServerEngine := do
  (res.createDirAll cfg.dataDir).mapError ("create data dir: " ++ ·)
  let dim := if stub then 64 else cfg.dim
  (res.openStore (joinPath cfg.dataDir "store") dim).mapError ("store open: " ++ ·.toString)
  (res.openPersist (joinPath cfg.dataDir "memory.db")).mapError ("persist open: " ++ ·.toString)
  if stub then return ⟨dim, none, host.redactEnabledEnv, none⟩
  else do
    let ecfg := host.embedConfig cfg
    res.mlxClient.mapError ("mlx embedder: " ++ ·.toString)
    res.extractorClient.mapError ("extractor: " ++ ·)
    return ⟨dim, some ecfg, host.redactEnabledEnv, some (host.extractConfig ecfg)⟩

end Host

/-! ### The cluster -/

structure ClusterConfig where
  syncPort : Nat
  bindAddr : String
  clusterToken : Option String
  allowNoToken : Bool
  epoch : Nat
deriving DecidableEq, Repr

namespace Host

variable (host : Host)

/-- The role and epoch files of a data directory. -/
def home (dataDir : String) : Home where
  role := host.readToString (joinPath dataDir "role")
  epoch := host.readToString (joinPath dataDir "epoch")

/-- A token of the environment; an empty one is none. -/
def clusterToken : Option String := (host.var "FUSION_MEMORY_CLUSTER_TOKEN").filter (· ≠ "")

def clusterEpoch : Nat := ((host.var "FUSION_MEMORY_CLUSTER_EPOCH").bind parseU64).getD 0

/-- `ClusterConfig::with_home`. -/
def clusterConfig (dataDir : String) : ClusterConfig where
  syncPort := ((host.var "FUSION_MEMORY_SYNC_PORT").bind (parseBelow 65536)).getD 11436
  bindAddr := ((host.var "FUSION_MEMORY_CLUSTER_BIND_ADDR").filter (· ≠ "")).getD "127.0.0.1"
  clusterToken := host.clusterToken
  allowNoToken := ((host.var "FUSION_MEMORY_CLUSTER_ALLOW_NO_TOKEN").map parseEnvBool).getD false
  epoch := if host.clusterEpoch = 0 then (host.home dataDir).readEpochFile else host.clusterEpoch

def heartbeatSecs : Nat := ((host.var "FUSION_MEMORY_HEARTBEAT_SECS").bind parseU64).getD 5

def heartbeatFails : Nat :=
  ((host.var "FUSION_MEMORY_HEARTBEAT_FAILS").bind (parseBelow u32Size)).getD 3

/-- `SyncConfig::from_env`. -/
def syncConfig : Option SyncConfig :=
  (host.var "FUSION_MEMORY_LEADER").map fun leaderAddr =>
    { leaderAddr
      heartbeatSecs := host.heartbeatSecs
      heartbeatFails := host.heartbeatFails
      fetchLimit := ((host.var "FUSION_MEMORY_FETCH_LIMIT").bind parseU64).getD 256
      clusterToken := host.clusterToken
      epoch := host.clusterEpoch }

/-- `ElectionConfig::from_env`. -/
def electionConfig : Except ClusterError (Option ElectionConfig) :=
  match (host.var "FUSION_MEMORY_CLUSTER_NODES").filter fun s => trim s ≠ "" with
  | none => .ok none
  | some listed =>
      let nodes := ((listed.splitOn ",").map trim).filter (· ≠ "")
      if nodes.length < 2 then .ok none
      else match (host.var "FUSION_MEMORY_CLUSTER_NODE_ID").bind parseU64 with
        | none => .error (.transport ("FUSION_MEMORY_CLUSTER_NODE_ID missing/invalid " ++
            "(need 0-based index into FUSION_MEMORY_CLUSTER_NODES)"))
        | some selfId =>
            if nodes.length ≤ selfId then
              .error (.transport (s!"FUSION_MEMORY_CLUSTER_NODE_ID={selfId} out of range " ++
                s!"(nodes={nodes.length})"))
            else .ok (some ⟨nodes, selfId, host.heartbeatSecs, host.heartbeatFails,
              host.clusterToken⟩)

end Host

/-- `is_loopback`. -/
def isLoopback (addr : String) : Bool :=
  let a := trim addr
  a == "127.0.0.1" || a == "::1" || a.toLower == "localhost" || a == "[::1]" ||
    "127.".toList.isPrefixOf a.toList

/-- The check of `Leader::bind`, before the address is bound. -/
def checkBind (bindAddr : String) (token : Option String) : Except ClusterError Unit :=
  if !isLoopback bindAddr && token.isNone then .error (.bindRequiresToken bindAddr) else .ok ()

/-! ### The servers -/

structure HttpServer where
  port : Nat
  state : HttpState
  /-- Without one, whatever is asked for is vouched for. -/
  verifier : Option RealVerifier

inductive ServerTask where
  | leader (bindAddr : String) (port : Nat) (config : LeaderConfig)
  | votes (addr : String) (config : ElectionConfig)
  | follower (config : SyncConfig) (localLastSeq : Nat)
  | followerOrbit (config : SyncConfig) (localLastSeq : Nat) (election : ElectionConfig)
  | uds (sockPath udsToken : String)
  | http (server : HttpServer)

namespace Host

variable (host : Host)

/-- `spawn_vote_listener_with`. -/
def voteListener (ec : ElectionConfig) : ServerTask := .votes (ec.nodes.getD ec.selfId "") ec

def spawnCluster (res : Resources) (role : NodeRole) (dataDir : String) : List ServerTask :=
  let election := match host.electionConfig with
    | .ok ec => ec
    | .error _ => none
  match role with
  | .leader =>
      let cfg := host.clusterConfig dataDir
      .leader cfg.bindAddr cfg.syncPort ⟨cfg.clusterToken, cfg.allowNoToken, cfg.epoch⟩ ::
        (election.map voteListener).toList
  | .follower =>
      match host.syncConfig with
      | none => []
      | some cfg =>
          let localLastSeq := res.lastWopSeq.toOption.getD 0
          match election with
          | some ec => [voteListener ec, .followerOrbit cfg localLastSeq ec]
          | none => [.follower cfg localLastSeq]
  | .standalone => []

/-- The HTTP server of `serve`. -/
def httpServer (cfg : ServerConfig) : HttpServer where
  port := cfg.httpPort
  state := ⟨cfg.apiKey, cfg.gatewayOriginRequired, cfg.defaultTenant, cfg.multiTenant, true⟩
  verifier :=
    if cfg.multiTenant then some (RealVerifier.new cfg.identityUrl cfg.identityServiceToken)
    else none

/-- The tasks that `serve` spawns. -/
def spawned (res : Resources) (cfg : ServerConfig) : List ServerTask :=
  let role := Home.detectRoleWithHome (host.var "FUSION_MEMORY_ROLE") (host.home cfg.dataDir)
  host.spawnCluster res role cfg.dataDir ++
    (if cfg.udsEnabled then [.uds cfg.sockPath cfg.udsToken] else []) ++
    (if cfg.httpOk then [.http (httpServer cfg)] else [])

def serve (res : Resources) (cfg : ServerConfig) (stub : Bool) :
    Except String (ServerEngine × List ServerTask) := do
  let engine ← host.buildServerEngine res cfg stub
  let tasks := host.spawned res cfg
  if tasks.isEmpty then .error "no server enabled (UDS off + HTTP off/unconfigured)"
  else return (engine, tasks)

/-- `main`, up to where the servers run; an error ends the process. -/
def main (res : Resources) : Except String (ServerEngine × List ServerTask) := do
  let cfg := host.fromFileOrEnv
  cfg.validate
  host.serve res cfg (((host.var "FUSION_MEMORY_STUB").map parseEnvBool).getD false)

end Host

/-! ### What has started -/

theorem bind_ok {ε α β : Type} {x : Except ε α} {f : α → Except ε β} {b : β}
    (done : x >>= f = .ok b) : ∃ a, x = .ok a ∧ f a = .ok b := by
  cases x with
  | error e => cases done
  | ok a => exact ⟨a, rfl, done⟩

namespace Host

variable {host : Host} {res : Resources} {engine : ServerEngine} {tasks : List ServerTask}

theorem main_eq_ok (started : host.main res = .ok (engine, tasks)) :
    host.fromFileOrEnv.validate = .ok () ∧
      (∃ stub, host.buildServerEngine res host.fromFileOrEnv stub = .ok engine) ∧
      tasks = host.spawned res host.fromFileOrEnv := by
  obtain ⟨_, valid, started⟩ := bind_ok started
  obtain ⟨engine', built, started⟩ := bind_ok started
  dsimp only at started
  split_ifs at started
  cases started
  exact ⟨valid, ⟨_, built⟩, rfl⟩

theorem main_of_toBool (starts : (host.main res).toBool = true) :
    ∃ engine, host.main res = .ok (engine, host.spawned res host.fromFileOrEnv) := by
  cases started : host.main res with
  | error e =>
      rw [started] at starts
      cases starts
  | ok p =>
      obtain ⟨engine, tasks⟩ := p
      obtain ⟨-, -, rfl⟩ := main_eq_ok started
      exact ⟨engine, rfl⟩

/-- What a cluster needs: a leader as it is configured, or listeners and followers. -/
theorem mem_spawnCluster {role : NodeRole} {dataDir : String} {task : ServerTask}
    (listed : task ∈ host.spawnCluster res role dataDir) :
    task = .leader (host.clusterConfig dataDir).bindAddr (host.clusterConfig dataDir).syncPort
        ⟨(host.clusterConfig dataDir).clusterToken, (host.clusterConfig dataDir).allowNoToken,
          (host.clusterConfig dataDir).epoch⟩ ∨
      (∃ addr ec, task = .votes addr ec) ∨ (∃ cfg seq, task = .follower cfg seq) ∨
      ∃ cfg seq ec, task = .followerOrbit cfg seq ec := by
  unfold spawnCluster at listed
  generalize (match host.electionConfig with
    | .ok ec => ec
    | .error _ => none) = election at listed
  cases role with
  | standalone => cases listed
  | leader =>
      rcases List.mem_cons.mp listed with rfl | votes
      · exact .inl rfl
      · obtain ⟨ec, -, rfl⟩ := Option.map_eq_some_iff.mp (Option.mem_toList.mp votes)
        exact .inr (.inl ⟨_, _, rfl⟩)
  | follower =>
      cases follows : host.syncConfig with
      | none =>
          rw [follows] at listed
          cases listed
      | some cfg =>
          rw [follows] at listed
          cases election with
          | none =>
              obtain rfl := List.mem_singleton.mp listed
              exact .inr (.inr (.inl ⟨_, _, rfl⟩))
          | some ec =>
              rcases List.mem_cons.mp listed with rfl | orbit
              · exact .inr (.inl ⟨_, _, rfl⟩)
              · obtain rfl := List.mem_singleton.mp orbit
                exact .inr (.inr (.inr ⟨_, _, _, rfl⟩))

/-- The HTTP server that runs is that of the configuration, which has a key. -/
theorem http_started (started : host.main res = .ok (engine, tasks)) {server : HttpServer}
    (listed : .http server ∈ tasks) : server = httpServer host.fromFileOrEnv ∧
      host.fromFileOrEnv.apiKey ≠ "" ∧
      (host.fromFileOrEnv.multiTenant = true → host.fromFileOrEnv.identityServiceToken ≠ "") := by
  obtain ⟨valid, -, rfl⟩ := main_eq_ok started
  unfold spawned at listed
  rcases List.mem_append.mp listed with before | http
  · rcases List.mem_append.mp before with cluster | uds
    · rcases mem_spawnCluster cluster with no | ⟨_, _, no⟩ | ⟨_, _, no⟩ | ⟨_, _, _, no⟩ <;> cases no
    · split_ifs at uds
      · cases List.mem_singleton.mp uds
      · cases uds
  · split_ifs at http with ok
    · obtain ⟨-, -, -, token⟩ := ServerConfig.validate_eq_ok.mp valid
      cases List.mem_singleton.mp http
      exact ⟨rfl, (ServerConfig.httpOk_iff.mp ok).2, fun multi => (token multi).2⟩
    · cases http

end Host

/-! ### Requests to a started server -/

/-- `NoopVerifier` behind the handlers. -/
def unverified {F ε : Type} : (r : ServerRequest) → Program (gatewaySignature F) ε (r.Reply F)
  | .verify _ => return .ok ""
  | .home => gatewayOp (.server .home)
  | .pathExists path => gatewayOp (.server (.pathExists path))
  | .engine call => gatewayOp (.server (.engine call))
  | .runImport source => gatewayOp (.server (.runImport source))

namespace HttpServer

variable {F : Type} [FloatArith F]

def verifying {ε : Type} (server : HttpServer) :
    (r : ServerRequest) → Program (gatewaySignature F) ε (r.Reply F) :=
  match server.verifier with
  | some verifier => FusionMemory.verifying verifier
  | none => unverified

/-- Some requests that reach a server, before any of them is handled. -/
def start (server : HttpServer) (env : GatewayEnv F)
    (requests : List (Http.Route × HttpRequest F)) : Gateways F :=
  Pool.start { env, tick := 0, ttl := (server.verifier.map (·.cacheTtl)).getD 0, cache := fun _ => none }
    (requests.map fun request => (Http.app server.state request.1 request.2).through server.verifying)

theorem start_eq {server : HttpServer} {verifier : RealVerifier}
    (real : server.verifier = some verifier) (env : GatewayEnv F)
    (requests : List (Http.Route × HttpRequest F)) :
    server.start env requests = Gateways.start server.state verifier env requests := by
  unfold start verifying
  rw [real]
  rfl

end HttpServer

section Requests

variable {F : Type} [FloatArith F] {st : HttpState} {headers : HeaderMap}

/-- A request of a single-tenant server: at the engine, it has the key. -/
def KeyAllows (st : HttpState) (headers : HeaderMap) : GatewayOp → Prop
  | .server r => r.reachesEngine = true →
      headers.text "authorization" = some ("Bearer " ++ st.apiKey)
  | _ => True

theorem app_gated_single (single : st.multiTenant = false) (route : Http.Route)
    (req : HttpRequest F) : Gated st req.headers (Http.app st route req) := by
  by_cases data : route = .import
  · subst data
    unfold Http.app
    cases req.body with
    | error status => trivial
    | ok body => exact importRoute_gated body single
  · exact app_gated data req

theorem unverified_obeys (single : st.multiTenant = false) (route : Http.Route)
    (req : HttpRequest F) :
    Program.Obeys (fun _ => KeyAllows st req.headers) (fun _ _ => True) []
      ((Http.app st route req).through unverified) := by
  refine Program.Obeys.through (R := fun _ _ => True) (Q := fun _ _ => True)
    (P := Guarded st req.headers) ?_ (fun _ _ _ _ _ => trivial) trivial
    (app_gated_single single route req)
  intro told h r _ guarded
  have keyed : r.reachesEngine = true →
      req.headers.text "authorization" = some ("Bearer " ++ st.apiKey) := by
    intro reaches
    have authenticated := guarded reaches
    unfold Authenticated at authenticated
    rwa [if_neg (by rw [single]; exact Bool.false_ne_true)] at authenticated
  cases r with
  | verify jwt => exact ⟨0, trivial⟩
  | _ => exact ⟨keyed, fun t _ => ⟨t, trivial⟩⟩

variable {host : Host} {res : Resources} {engine : ServerEngine} {tasks : List ServerTask}
  {server : HttpServer} {env : GatewayEnv F} {requests : List (Http.Route × HttpRequest F)}
  {pool : Gateways F}

/-- Whatever the environment, the TOML file and the secret files of a host hold: a request on a
data route, the import in multi-tenant mode apart, that reaches the engine of an HTTP server that
was started there has the server's key, which is not empty; or, in multi-tenant mode, a token that
the identity service has vouched for before, asked with a service token that is not empty. -/
theorem started_http_authenticates (started : host.main res = .ok (engine, tasks))
    (listed : .http server ∈ tasks)
    (reach : Pool.Reaches (gatewayMachine F) (fun _ _ => True) (server.start env requests) pool)
    {i : Nat} {route : Http.Route} {req : HttpRequest F} (asked : requests[i]? = some (route, req))
    (data : server.state.multiTenant = true → route ≠ .import)
    {thread : Thread (gatewaySignature F) (HttpResponse F) (HttpResponse F)}
    (found : pool.threads[i]? = some thread) {t : Nat} {r : ServerRequest} {reply : r.Reply F}
    (reaches : r.reachesEngine = true) (reached : ⟨t, .server r, reply⟩ ∈ thread.history) :
    (server.state.multiTenant = false ∧ Host.firstOf (host.secretSources .apiKey) ≠ "" ∧
      req.headers.text "authorization" =
        some ("Bearer " ++ Host.firstOf (host.secretSources .apiKey))) ∨
    (server.state.multiTenant = true ∧ requestTenant server.state req.headers ≠ "" ∧
      Host.firstOf (host.secretSources .identityServiceToken) ≠ "" ∧
      ∃ jwt, bearerJwt req.headers = some jwt ∧
        ∃ (j : Nat) (other : Thread (gatewaySignature F) (HttpResponse F) (HttpResponse F))
            (t₁ status : Nat) (url : String), pool.threads[j]? = some other ∧ 200 ≤ status ∧
          status < 300 ∧ t₁ < t ∧
          ⟨t₁, .post ⟨url, "Bearer " ++ Host.firstOf (host.secretSources .identityServiceToken), jwt⟩,
            .response status (some ⟨requestTenant server.state req.headers, "active", false⟩)⟩ ∈
              other.history) := by
  obtain ⟨rfl, key, token⟩ := Host.http_started started listed
  have key_eq := Host.secret_resolved host .apiKey
  have token_eq := Host.secret_resolved host .identityServiceToken
  rw [← key_eq, ← token_eq]
  cases multi : host.fromFileOrEnv.multiTenant with
  | false =>
      have noop : (Host.httpServer host.fromFileOrEnv).verifying (F := F) (ε := HttpResponse F) =
          unverified := by
        unfold HttpServer.verifying Host.httpServer
        rw [multi]
        rfl
      have obeys : Pool.KeepsProtocol (fun i _ op => ∃ request, requests[i]? = some request ∧
            KeyAllows (Host.httpServer host.fromFileOrEnv).state request.2.headers op)
          (fun _ _ _ => True) ((Host.httpServer host.fromFileOrEnv).start env requests) := by
        refine Pool.KeepsProtocol.start _ fun i p listed => ?_
        rw [List.getElem?_map] at listed
        obtain ⟨request, there, rfl⟩ := Option.map_eq_some_iff.mp listed
        rw [noop]
        exact (unverified_obeys multi request.1 request.2).mono
          (fun _ _ allowed => ⟨request, there, allowed⟩) fun _ _ _ => trivial
      obtain ⟨-, ⟨request, there, keyed⟩, -⟩ :=
        reach.explained (Pool.events_start _ _) obeys i thread found _ reached
      obtain rfl := Option.some.inj (asked.symm.trans there)
      exact .inl ⟨multi, key, keyed reaches⟩
  | true =>
      have real : (Host.httpServer host.fromFileOrEnv).verifier =
          some (RealVerifier.new host.fromFileOrEnv.identityUrl
            host.fromFileOrEnv.identityServiceToken) := by
        unfold Host.httpServer
        dsimp only
        rw [multi]
        rfl
      rw [HttpServer.start_eq real] at reach
      obtain ⟨earlier, ⟨request, there, allowed⟩, before⟩ := reach.explained Gateways.start_quiet
        (Gateways.keepsProtocol multi env requests) i thread found _ reached
      obtain rfl := Option.some.inj (asked.symm.trans there)
      obtain ⟨nonempty, jwt, sent, vouched⟩ := allowed (data multi) reaches
      refine .inr ⟨multi, nonempty, token multi, jwt, sent, ?_⟩
      rcases vouched with ⟨t₁, answer, mem, vouched⟩ | ⟨t₂, mem⟩
      · obtain ⟨status, low, high, rfl⟩ := IdentityReply.tenant_eq_ok.mp vouched
        obtain ⟨mem, earlier⟩ := before _ mem
        exact ⟨i, thread, t₁, status, _, found, low, high, earlier, mem⟩
      · obtain ⟨mem, earlier⟩ := before _ mem
        obtain ⟨j, other, t₁, status, t₀, there, low, high, posted, -, post_first, put_first, -⟩ :=
          vouched_of_cached multi reach found mem
        exact ⟨j, other, t₁, status, _, there, low, high,
          post_first.trans (put_first.trans earlier), posted⟩

end Requests

/-! ### A key in a file -/

/-- A host whose TOML file names a file with the key. -/
def keyHost : Host where
  var name := if name = "HOME" then some "/home/u" else none
  readToString path :=
    if path = "/home/u/.fusion-memory/fusion-memory.toml" then some "api_key_file = \"/key\""
    else if path = "/key" then some " key\n"
    else none
  pathExists path := path == "/home/u/.fusion-memory/fusion-memory.toml"
  parseToml _ := some ⟨none, none, none, none, none, none, some "/key", none, none, none, none, none,
    none, none, none, none⟩

def workingResources : Resources :=
  ⟨fun _ => .ok (), fun _ _ => .ok (), fun _ => .ok (), .ok (), .ok (), .ok 0⟩

theorem keyHost_started : ∃ engine tasks, keyHost.main workingResources = .ok (engine, tasks) ∧
    .http (Host.httpServer keyHost.fromFileOrEnv) ∈ tasks := by
  obtain ⟨engine, started⟩ : ∃ engine, keyHost.main workingResources =
      .ok (engine, keyHost.spawned workingResources keyHost.fromFileOrEnv) :=
    Host.main_of_toBool (by decide +kernel)
  have ok : keyHost.fromFileOrEnv.httpOk = true := by decide +kernel
  refine ⟨engine, _, started, List.mem_append_right _ ?_⟩
  rw [if_pos ok]
  exact List.mem_singleton_self _

/-- A request for a memory, with the key. -/
def keyRequest : HttpRequest Fixed := ⟨[("authorization", "Bearer key".toUTF8.data.toList)], .ok .null⟩

def keyPool : Gateways Fixed :=
  Pool.runSchedule (gatewayMachine Fixed) [0]
    ((Host.httpServer keyHost.fromFileOrEnv).start acmeEnv [(.get "m", keyRequest)])

theorem keyPool_reached : Pool.Reaches (gatewayMachine Fixed) (fun _ _ => True)
    ((Host.httpServer keyHost.fromFileOrEnv).start acmeEnv [(.get "m", keyRequest)]) keyPool :=
  Pool.reaches_runSchedule (fun _ _ => true) (fun _ _ _ _ _ _ _ => trivial) _ _ (by decide +kernel)

theorem started_http_authenticates_keyHost : ∃ thread t call reply,
    keyPool.threads[0]? = some thread ∧ ⟨t, .server (.engine call), reply⟩ ∈ thread.history ∧
    HeaderMap.text keyRequest.headers "authorization" =
      some ("Bearer " ++ Host.firstOf (keyHost.secretSources .apiKey)) := by
  have reached : (keyPool.threads[0]?.any fun thread =>
      thread.history.head?.any fun e => e.request.isEngineCall) = true := by decide +kernel
  obtain ⟨⟨history, program⟩, found, last⟩ := (Option.any_eq_true _ _).mp reached
  obtain ⟨⟨t, op, reply⟩, newest, engine⟩ := (Option.any_eq_true _ _).mp last
  obtain ⟨call, rfl⟩ := GatewayOp.isEngineCall_iff.mp engine
  have mem : ⟨t, .server (.engine call), reply⟩ ∈ history := List.mem_of_head? newest
  obtain ⟨engine, tasks, started, listed⟩ := keyHost_started
  rcases started_http_authenticates started listed keyPool_reached (i := 0) rfl
    (fun _ same => by cases same) found rfl mem with ⟨-, -, keyed⟩ | ⟨multi, -⟩
  · exact ⟨_, t, call, reply, found, mem, keyed⟩
  · have single : (Host.httpServer keyHost.fromFileOrEnv).state.multiTenant = false := by
      decide +kernel
    rw [single] at multi
    cases multi

/-! ### Connections to a started leader -/

section Leaders

variable {F : Type} [FloatArith F] [JsonText F] {host : Host} {res : Resources}
  {engine : ServerEngine} {tasks : List ServerTask} {bindAddr : String} {port : Nat}
  {leader : LeaderConfig}

/-- The leader that runs is that of the environment. -/
theorem leader_started (started : host.main res = .ok (engine, tasks))
    (listed : .leader bindAddr port leader ∈ tasks) : leader.clusterToken = host.clusterToken ∧
      leader.allowNoToken =
        ((host.var "FUSION_MEMORY_CLUSTER_ALLOW_NO_TOKEN").map parseEnvBool).getD false := by
  obtain ⟨-, -, rfl⟩ := Host.main_eq_ok started
  unfold Host.spawned at listed
  rcases List.mem_append.mp listed with before | http
  · rcases List.mem_append.mp before with cluster | uds
    · rcases Host.mem_spawnCluster cluster with same | ⟨_, _, no⟩ | ⟨_, _, no⟩ | ⟨_, _, _, no⟩
      · injection same with _ _ same
        rw [same]
        exact ⟨rfl, rfl⟩
      · cases no
      · cases no
      · cases no
    · split_ifs at uds
      · cases List.mem_singleton.mp uds
      · cases uds
  · split_ifs at http
    · cases List.mem_singleton.mp http
    · cases http

/-- Whatever the environment and the files of a host hold: a leader that was started there and got
past the check of its address sends something only on a connection that began with the token of
the environment, which is not empty; or its address passes for a loopback address, and the
environment says that no token is needed. -/
theorem started_leader_authenticates (started : host.main res = .ok (engine, tasks))
    (listed : .leader bindAddr port leader ∈ tasks)
    (bound : checkBind bindAddr leader.clusterToken = .ok ()) {turns : List LeaderTurn}
    {conn conn' : LeaderConn} {report now : List LeaderEvent} {turn : LeaderTurn}
    (ran : (leaderConn F leader).Run StepSystem.Always .awaitsHello turns conn report)
    (moved : (leaderConn F leader).step conn turn = some (conn', now)) {frame : Frame}
    (sent : .sent frame ∈ now) :
    ∃ first rest hello, report = .received first :: rest ∧
      first.decodePayload (Hello.fromJson : Json F → Option Hello) = .ok hello ∧
      (hello.token ≠ "" ∧ host.var "FUSION_MEMORY_CLUSTER_TOKEN" = some hello.token ∨
        isLoopback bindAddr = true ∧
          ∃ v, host.var "FUSION_MEMORY_CLUSTER_ALLOW_NO_TOKEN" = some v ∧ parseEnvBool v = true) := by
  obtain ⟨token, allow⟩ := leader_started started listed
  have begun : conn.Begun F leader report :=
    ran.invariant (I := fun conn report => conn.Begun F leader report) rfl
      fun _ _ _ _ _ begun _ moved => begun.step moved
  have serves : ∃ hello rest, report = .received hello :: rest ∧ leader.Admits F hello := by
    rcases leader_step_cases moved with ⟨hello, -, -, rfl, -⟩ | ⟨request, rfl, -, -, -⟩ | ⟨-, silent⟩
    · cases List.mem_singleton.mp sent
    · exact begun
    · exact absurd sent (silent frame)
  obtain ⟨first, rest, same, -, hello, decoded, admitted⟩ := serves
  refine ⟨first, rest, hello, same, decoded, ?_⟩
  rcases admitted with known | ⟨none, open'⟩
  · rw [token] at known
    obtain ⟨given, nonempty⟩ := Option.filter_eq_some_iff.mp known
    exact .inl ⟨of_decide_eq_true nonempty, given⟩
  · refine .inr ⟨?_, ?_⟩
    · rw [none] at bound
      unfold checkBind at bound
      split_ifs at bound with refused
      simpa using refused
    · rw [allow] at open'
      cases given : host.var "FUSION_MEMORY_CLUSTER_ALLOW_NO_TOKEN" with
      | none =>
          rw [given] at open'
          cases open'
      | some v =>
          rw [given] at open'
          exact ⟨v, rfl, open'⟩

end Leaders

/-- A host of a leader with a token, in the third epoch. -/
def leaderHost : Host where
  var name := [("FUSION_MEMORY_ROLE", "leader"), ("FUSION_MEMORY_CLUSTER_TOKEN", "t"),
    ("FUSION_MEMORY_CLUSTER_EPOCH", "3"), ("FUSION_MEMORY_API_KEY", "k")].lookup name
  readToString _ := none
  pathExists _ := false
  parseToml _ := none

theorem leaderHost_started : ∃ engine tasks, leaderHost.main workingResources = .ok (engine, tasks) ∧
    .leader "127.0.0.1" 11436 tokenLeader ∈ tasks := by
  obtain ⟨engine, started⟩ : ∃ engine, leaderHost.main workingResources =
      .ok (engine, leaderHost.spawned workingResources leaderHost.fromFileOrEnv) :=
    Host.main_of_toBool (by decide +kernel)
  have role : Home.detectRoleWithHome (leaderHost.var "FUSION_MEMORY_ROLE")
      (leaderHost.home leaderHost.fromFileOrEnv.dataDir) = .leader := by decide +kernel
  have config : leaderHost.clusterConfig leaderHost.fromFileOrEnv.dataDir =
      ⟨11436, "127.0.0.1", some "t", false, 3⟩ := by decide +kernel
  refine ⟨engine, _, started, List.mem_append_left _ (List.mem_append_left _ ?_)⟩
  rw [role]
  unfold Host.spawnCluster
  dsimp only
  rw [config]
  exact List.mem_cons_self

theorem started_leader_authenticates_leaderHost : ∃ first rest hello,
    [LeaderEvent.received helloFrame] = .received first :: rest ∧
      first.decodePayload (Hello.fromJson : Json Fixed → Option Hello) = .ok hello ∧
      (hello.token ≠ "" ∧ leaderHost.var "FUSION_MEMORY_CLUSTER_TOKEN" = some hello.token ∨
        isLoopback "127.0.0.1" = true ∧ ∃ v,
          leaderHost.var "FUSION_MEMORY_CLUSTER_ALLOW_NO_TOKEN" = some v ∧ parseEnvBool v = true) := by
  obtain ⟨engine, tasks, started, listed⟩ := leaderHost_started
  exact started_leader_authenticates started listed rfl run_helloFrame step_sinceOne
    (List.mem_cons_of_mem _ List.mem_cons_self)

end FusionMemory
