import FusionMemory.Cluster.Failover
import FusionMemory.Cluster.LeaderConn
import FusionMemory.Embed.Mlx
import FusionMemory.Server.Identity

/-!
How a server is configured (`config.rs` of fm-server and of fm-cluster, and `from_env` of
`fm-cluster/src/election.rs`).

A `Host` is what a process finds when it starts: its environment and its files. The
configuration is put together from the defaults, a TOML file, the environment and files that
hold secrets, each over the one before; `Host.secret_resolved` says which of these a secret
comes from. What the parser of TOML makes of a text is left open.
-/

namespace FusionMemory

open Lib

/-! ### The host -/

structure EmbedFileConfig where
  mlxUrl : Option String
  embedModel : Option String
  mlxApiKey : Option String
  mlxApiKeyFile : Option String
deriving DecidableEq, Repr

/-- The TOML file; fields that are not in it are `none`. -/
structure ConfigFile where
  dataDir : Option String
  sockPath : Option String
  /-- A `u16`. -/
  httpPort : Option Nat
  dim : Option Nat
  udsEnabled : Option Bool
  apiKey : Option String
  apiKeyFile : Option String
  udsToken : Option String
  udsTokenFile : Option String
  gatewayOriginRequired : Option Bool
  defaultTenant : Option String
  multiTenant : Option Bool
  identityUrl : Option String
  identityServiceToken : Option String
  identityServiceTokenFile : Option String
  embed : Option EmbedFileConfig
deriving DecidableEq, Repr

structure Host where
  /-- `std::env::var(name).ok()`. -/
  var : String → Option String
  /-- `std::fs::read_to_string(path).ok()`. -/
  readToString : String → Option String
  pathExists : String → Bool
  /-- `toml::from_str::<ConfigFile>(text).ok()`. -/
  parseToml : String → Option ConfigFile

/-- `Path::join` with a relative name. -/
def joinPath (dir name : String) : String :=
  if dir = "" then name
  else if dir.toList.getLast? = some '/' then dir ++ name
  else dir ++ "/" ++ name

/-- `s.parse().ok()` for an unsigned type with so many values. -/
def parseBelow (size : Nat) (s : String) : Option Nat := (parseU64 s).filter (· < size)

/-- `s.parse::<bool>().ok()`. -/
def parseBool (s : String) : Option Bool :=
  if s = "true" then some true else if s = "false" then some false else none

/-- `v == "1" || v.eq_ignore_ascii_case("true")`. -/
def parseEnvBool (v : String) : Bool := v == "1" || v.toLower == "true"

/-! ### The server's configuration -/

structure ServerConfig where
  dataDir : String
  sockPath : String
  httpPort : Nat
  apiKey : String
  dim : Nat
  udsEnabled : Bool
  udsToken : String
  gatewayOriginRequired : Bool
  defaultTenant : String
  multiTenant : Bool
  identityUrl : String
  identityServiceToken : String
  embedMlxUrl : String
  embedModel : String
  mlxApiKey : String
deriving DecidableEq, Repr

namespace Host

variable (host : Host)

def defaultDataDir : String :=
  match host.var "FM_HOME", host.var "HOME" with
  | some d, _ => d
  | none, some home => joinPath home ".fusion-memory"
  | none, none => ".fusion-memory"

/-- `FM_CONFIG`, or a file in the data directory if there is one. -/
def configFilePath : Option String :=
  match host.var "FM_CONFIG" with
  | some p => some p
  | none =>
      let p := joinPath host.defaultDataDir "fusion-memory.toml"
      if host.pathExists p then some p else none

/-- A secret is the trimmed content of a file; a file with nothing in it holds none. -/
def readSecretFile (path : String) : Option String :=
  ((host.readToString path).map trim).filter (· ≠ "")

/-- A secret that is not there yet is read from a file, if one is named. -/
def orSecretFile (path : Option String) (secret : String) : String :=
  if secret = "" then (path.bind host.readSecretFile).getD secret else secret

/-- `ServerConfig::default()`. -/
def defaultConfig : ServerConfig where
  dataDir := host.defaultDataDir
  sockPath := joinPath host.defaultDataDir "fusion-memory.sock"
  httpPort := 11435
  apiKey := ""
  dim := 1024
  udsEnabled := true
  udsToken := ""
  gatewayOriginRequired := false
  defaultTenant := ""
  multiTenant := false
  identityUrl := "http://127.0.0.1:11470"
  identityServiceToken := ""
  embedMlxUrl := EmbedConfig.default.mlxUrl
  embedModel := EmbedConfig.default.embedModel
  mlxApiKey := ""

/-- The socket follows the data directory, unless it is given itself. -/
def sockOver (dataDir sockPath : Option String) (sock : String) : String :=
  sockPath.getD ((dataDir.map (joinPath · "fusion-memory.sock")).getD sock)

/-- The fields of the file over the defaults. -/
def applyFile (f : ConfigFile) (c : ServerConfig) : ServerConfig where
  dataDir := f.dataDir.getD c.dataDir
  sockPath := sockOver f.dataDir f.sockPath c.sockPath
  httpPort := f.httpPort.getD c.httpPort
  apiKey := host.orSecretFile f.apiKeyFile (f.apiKey.getD c.apiKey)
  dim := f.dim.getD c.dim
  udsEnabled := f.udsEnabled.getD c.udsEnabled
  udsToken := host.orSecretFile f.udsTokenFile (f.udsToken.getD c.udsToken)
  gatewayOriginRequired := f.gatewayOriginRequired.getD c.gatewayOriginRequired
  defaultTenant := f.defaultTenant.getD c.defaultTenant
  multiTenant := f.multiTenant.getD c.multiTenant
  identityUrl := f.identityUrl.getD c.identityUrl
  identityServiceToken := host.orSecretFile f.identityServiceTokenFile
    (f.identityServiceToken.getD c.identityServiceToken)
  embedMlxUrl := (f.embed.bind (·.mlxUrl)).getD c.embedMlxUrl
  embedModel := (f.embed.bind (·.embedModel)).getD c.embedModel
  mlxApiKey := host.orSecretFile (f.embed.bind (·.mlxApiKeyFile))
    ((f.embed.bind (·.mlxApiKey)).getD c.mlxApiKey)

/-- The environment over that. Numbers and truth values that cannot be read are passed over, and
so is a dimension of 0. -/
def applyEnv (c : ServerConfig) : ServerConfig where
  dataDir := (host.var "FM_HOME").getD c.dataDir
  sockPath := sockOver (host.var "FM_HOME") (host.var "FUSION_MEMORY_SOCK") c.sockPath
  httpPort := ((host.var "FUSION_MEMORY_HTTP_PORT").bind (parseBelow 65536)).getD c.httpPort
  apiKey := (host.var "FUSION_MEMORY_API_KEY").getD c.apiKey
  dim := (((host.var "FUSION_MEMORY_DIM").bind parseU64).filter (· > 0)).getD c.dim
  udsEnabled := c.udsEnabled
  udsToken := (host.var "FUSION_MEMORY_UDS_TOKEN").getD c.udsToken
  gatewayOriginRequired :=
    ((host.var "FUSION_MEMORY_GATEWAY_ORIGIN_REQUIRED").bind parseBool).getD c.gatewayOriginRequired
  defaultTenant := (host.var "FUSION_MEMORY_DEFAULT_TENANT").getD c.defaultTenant
  multiTenant := ((host.var "FUSION_MEMORY_MULTI_TENANT").bind parseBool).getD c.multiTenant
  identityUrl := (host.var "FUSION_MEMORY_IDENTITY_URL").getD c.identityUrl
  identityServiceToken :=
    (host.var "FUSION_MEMORY_IDENTITY_SERVICE_TOKEN").getD c.identityServiceToken
  embedMlxUrl := (host.var "FUSION_MLX_URL").getD c.embedMlxUrl
  embedModel := (host.var "FUSION_MEMORY_EMBED_MODEL").getD c.embedModel
  mlxApiKey := (host.var "FUSION_MEMORY_MLX_API_KEY").getD c.mlxApiKey

/-- Secrets that are still missing, from the files that the environment names. -/
def fillSecretsFromFiles (c : ServerConfig) : ServerConfig :=
  { c with
    apiKey := host.orSecretFile (host.var "FUSION_MEMORY_API_KEY_FILE") c.apiKey
    udsToken := host.orSecretFile (host.var "FUSION_MEMORY_UDS_TOKEN_FILE") c.udsToken
    identityServiceToken := host.orSecretFile
      (host.var "FUSION_MEMORY_IDENTITY_SERVICE_TOKEN_FILE") c.identityServiceToken
    mlxApiKey := host.orSecretFile (host.var "FUSION_MEMORY_MLX_API_KEY_FILE") c.mlxApiKey }

/-- `ServerConfig::from_env`. -/
def fromEnv : ServerConfig := host.applyEnv host.defaultConfig

/-- The file that is read; one that is missing or no TOML is passed over. -/
def configFile : Option ConfigFile :=
  (host.configFilePath.bind host.readToString).bind host.parseToml

def fromFileOrEnv : ServerConfig :=
  let c := match host.configFile with
    | some f => host.applyFile f host.defaultConfig
    | none => host.defaultConfig
  host.fillSecretsFromFiles (host.applyEnv c)

end Host

namespace ServerConfig

variable (c : ServerConfig)

def httpOk : Bool := c.httpPort > 0 && c.apiKey ≠ ""

def httpNeedsToken : Bool := c.httpPort > 0 && c.apiKey = ""

def validate : Except String Unit :=
  if c.dim = 0 then
    .error s!"dim=0 非法 (嵌入维度须 >0), config dim={c.dim}"
  else if c.udsEnabled && c.sockPath = "" then
    .error "uds_enabled=true 但 sock_path 空"
  else if c.httpPort > 0 && c.apiKey = "" then
    .error (s!"http_port={c.httpPort} 开但 api_key 未配 (B5 拒启 HTTP)。" ++
      "配 FUSION_MEMORY_API_KEY 或 api_key_file, 或关 HTTP (http_port=0)")
  else if c.multiTenant && !c.httpOk then
    .error "multi_tenant=true 须开 HTTP (identity 验在 HTTP 边界, UDS 本机可信免验)"
  else if c.multiTenant && c.identityServiceToken = "" then
    .error ("multi_tenant=true 须配 FUSION_MEMORY_IDENTITY_SERVICE_TOKEN 或 " ++
      "identity_service_token_file")
  else .ok ()

variable {c}

theorem httpOk_iff : c.httpOk = true ↔ 0 < c.httpPort ∧ c.apiKey ≠ "" := by
  unfold httpOk
  rw [Bool.and_eq_true, decide_eq_true_eq, decide_eq_true_eq]

theorem validate_eq_ok : c.validate = .ok () ↔ c.dim ≠ 0 ∧ (c.udsEnabled = true → c.sockPath ≠ "") ∧
    (0 < c.httpPort → c.apiKey ≠ "") ∧
    (c.multiTenant = true → c.httpOk = true ∧ c.identityServiceToken ≠ "") := by
  unfold validate
  split_ifs with dim sock key http token
  · exact ⟨nofun, fun all => absurd dim all.1⟩
  · simp only [Bool.and_eq_true, decide_eq_true_eq] at sock
    exact ⟨nofun, fun all => absurd sock.2 (all.2.1 sock.1)⟩
  · simp only [Bool.and_eq_true, decide_eq_true_eq] at key
    exact ⟨nofun, fun all => absurd key.2 (all.2.2.1 key.1)⟩
  · simp only [Bool.and_eq_true, Bool.not_eq_true'] at http
    refine ⟨nofun, fun all => ?_⟩
    rw [(all.2.2.2 http.1).1] at http
    cases http.2
  · simp only [Bool.and_eq_true, decide_eq_true_eq] at token
    exact ⟨nofun, fun all => absurd token.2 (all.2.2.2 token.1).2⟩
  · simp only [Bool.and_eq_true, decide_eq_true_eq, Bool.not_eq_true', not_and, Bool.not_eq_false]
      at sock key http token
    exact ⟨fun _ => ⟨dim, sock, key, fun multi => ⟨http multi, token multi⟩⟩, fun _ => rfl⟩

end ServerConfig

/-! ### Secrets -/

inductive Secret where
  | apiKey
  | udsToken
  | identityServiceToken
  | mlxApiKey
deriving DecidableEq, Repr

namespace Secret

def ofConfig (c : ServerConfig) : Secret → String
  | .apiKey => c.apiKey
  | .udsToken => c.udsToken
  | .identityServiceToken => c.identityServiceToken
  | .mlxApiKey => c.mlxApiKey

/-- The variable that holds the secret. -/
def envName : Secret → String
  | .apiKey => "FUSION_MEMORY_API_KEY"
  | .udsToken => "FUSION_MEMORY_UDS_TOKEN"
  | .identityServiceToken => "FUSION_MEMORY_IDENTITY_SERVICE_TOKEN"
  | .mlxApiKey => "FUSION_MEMORY_MLX_API_KEY"

/-- The field of the TOML file that holds it. -/
def field (f : ConfigFile) : Secret → Option String
  | .apiKey => f.apiKey
  | .udsToken => f.udsToken
  | .identityServiceToken => f.identityServiceToken
  | .mlxApiKey => f.embed.bind (·.mlxApiKey)

/-- The field that names a file with it. -/
def fileField (f : ConfigFile) : Secret → Option String
  | .apiKey => f.apiKeyFile
  | .udsToken => f.udsTokenFile
  | .identityServiceToken => f.identityServiceTokenFile
  | .mlxApiKey => f.embed.bind (·.mlxApiKeyFile)

end Secret

namespace Host

variable (host : Host)

/-- Where a secret may come from, the first choice in front. A variable that is set hides the
TOML file, also when it is set to nothing. -/
def secretSources (secret : Secret) : List (Option String) :=
  let named := (host.var (secret.envName ++ "_FILE")).bind host.readSecretFile
  match host.var secret.envName with
  | some v => [some v, named]
  | none => [host.configFile.bind secret.field,
      (host.configFile.bind secret.fileField).bind host.readSecretFile, named]

/-- What the first source with something in it holds. -/
def firstOf : List (Option String) → String
  | [] => ""
  | source :: rest => if source.getD "" = "" then firstOf rest else source.getD ""

variable {host}

theorem firstOf_singleton (source : Option String) : firstOf [source] = source.getD "" := by
  rw [firstOf]
  split_ifs with empty
  · exact empty.symm
  · rfl

/-- A file with the secret comes after all other sources. -/
theorem orSecretFile_firstOf (path : Option String) (sources : List (Option String)) :
    host.orSecretFile path (firstOf sources) =
      firstOf (sources ++ [path.bind host.readSecretFile]) := by
  induction sources with
  | nil =>
      rw [List.nil_append, firstOf_singleton]
      exact if_pos rfl
  | cons source rest ih =>
      rw [List.cons_append, firstOf, firstOf]
      split_ifs with empty
      · exact ih
      · exact if_neg empty

/-- A secret that the environment does not hold: the TOML file and the files that are named. -/
theorem orSecretFile_file (envPath : Option String) (file : Option ConfigFile)
    (field fileField : ConfigFile → Option String) :
    host.orSecretFile envPath (match file with
      | some f => host.orSecretFile (fileField f) ((field f).getD "")
      | none => "") =
      firstOf [file.bind field, (file.bind fileField).bind host.readSecretFile,
        envPath.bind host.readSecretFile] := by
  cases file with
  | none => exact orSecretFile_firstOf envPath [none, none]
  | some f =>
      dsimp only [Option.bind_some]
      rw [← firstOf_singleton, orSecretFile_firstOf, orSecretFile_firstOf]
      rfl

/-- Each secret comes from the first of its sources that holds something. -/
theorem secret_resolved (host : Host) (secret : Secret) :
    secret.ofConfig host.fromFileOrEnv = firstOf (host.secretSources secret) := by
  have resolved : ∀ (given : Option String) (envPath : Option String)
      (field fileField : ConfigFile → Option String),
      host.orSecretFile envPath (given.getD (match host.configFile with
        | some f => host.orSecretFile (fileField f) ((field f).getD "")
        | none => "")) = firstOf (match given with
        | some v => [some v, envPath.bind host.readSecretFile]
        | none => [host.configFile.bind field,
            (host.configFile.bind fileField).bind host.readSecretFile,
            envPath.bind host.readSecretFile]) := by
    intro given envPath field fileField
    cases given with
    | none => exact orSecretFile_file envPath host.configFile field fileField
    | some v =>
        have alone := @orSecretFile_firstOf host envPath [some v]
        rwa [firstOf_singleton] at alone
  have shape := resolved (host.var secret.envName) (host.var (secret.envName ++ "_FILE"))
    secret.field secret.fileField
  unfold secretSources
  rw [← shape]
  unfold fromFileOrEnv
  cases host.configFile <;> cases secret <;> rfl

end Host

end FusionMemory
