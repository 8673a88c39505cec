import FusionMemory.Embed.Cache
import FusionMemory.Engine.Commit
import FusionMemory.Lib.Evidence
import FusionMemory.Lib.Interference
import FusionMemory.Lib.Permits

/-!
The embedder that asks fusion-mlx (`fm-embed/src/mlx.rs`, `config.rs` and `error.rs`).

`embed` looks its text up in the cache of query embeddings and otherwise asks the server,
under a permit of the semaphore, and caches the answer. Calls run side by side: the cache and
the semaphore are shared, and the server answers as it likes, if it answers at all.

`mlx_backpressure` is about the semaphore, `embed_answers` about the cache: what a call
returns, the server has sent for a text with the same hash, no longer ago than the time to
live if it comes from the cache.
-/

namespace FusionMemory

open Lib

/-! ### Configuration -/

structure EmbedConfig where
  mlxUrl : String
  embedModel : String
  apiKey : String
  dimension : Nat
  mlxConcurrency : Nat
  cacheCapacity : Nat
  cacheTtlSecs : Nat
  timeoutSecs : Nat
deriving DecidableEq, Repr

namespace EmbedConfig

def default : EmbedConfig where
  mlxUrl := "http://127.0.0.1:11434/v1"
  embedModel := "BAAI/bge-m3"
  apiKey := ""
  dimension := 1024
  mlxConcurrency := 2
  cacheCapacity := 1024
  cacheTtlSecs := 3600
  timeoutSecs := 30

/-- The environment over the configuration; a concurrency that is no positive number is
passed over. -/
def overlayEnv (var : String → Option String) (config : EmbedConfig) : EmbedConfig :=
  let config := { config with mlxUrl := (var "FUSION_MLX_URL").getD config.mlxUrl }
  let config := { config with embedModel := (var "FUSION_MEMORY_EMBED_MODEL").getD config.embedModel }
  let config := { config with apiKey := (var "FUSION_MEMORY_MLX_API_KEY").getD config.apiKey }
  match (var "FUSION_MEMORY_MLX_CONCURRENCY").bind parseU64 with
  | some n => if n > 0 then { config with mlxConcurrency := n } else config
  | none => config

def fromEnv (var : String → Option String) : EmbedConfig := default.overlayEnv var

/-- `trim_end_matches('/')`. -/
def trimSlashes (url : String) : String :=
  String.ofList (url.toList.rdropWhile (· == '/'))

def embeddingsUrl (config : EmbedConfig) : String := trimSlashes config.mlxUrl ++ "/embeddings"

theorem overlayEnv_concurrency_pos {config : EmbedConfig} (positive : 0 < config.mlxConcurrency)
    (var : String → Option String) : 0 < (config.overlayEnv var).mlxConcurrency := by
  unfold overlayEnv
  cases (var "FUSION_MEMORY_MLX_CONCURRENCY").bind parseU64 with
  | none => exact positive
  | some n =>
      dsimp only
      split_ifs with given
      · exact given
      · exact positive

end EmbedConfig

/-! ### The server -/

inductive EmbedError where
  | http (text : String)
  | api (text : String)
  | parse (text : String)
  | dimension (expected got : Nat)
  | unavailable (text : String)
deriving DecidableEq, Repr

namespace EmbedError

def toString : EmbedError → String
  | .http text => "mlx http error: " ++ text
  | .api text => "mlx api error: " ++ text
  | .parse text => "mlx response parse error: " ++ text
  | .dimension expected got => "embedding dimension mismatch: expected " ++ ToString.toString expected ++
      ", got " ++ ToString.toString got
  | .unavailable text => "embedding unavailable: " ++ text

def toMemory (e : EmbedError) : MemoryError := .store e.toString

end EmbedError

/-- The request that is posted: where, for which model and text, and with which key. -/
structure MlxRequest where
  url : String
  model : String
  input : String
  bearer : Option String
deriving DecidableEq, Repr

/-- What comes back: nothing, or a response with its status, the status as text, its body
and the embeddings that the body holds as JSON. -/
inductive MlxReply (F : Type) where
  | failed (error : String)
  | response (status : Nat) (statusText body : String) (data : Except String (List (List F)))

def EmbedConfig.request (config : EmbedConfig) (text : String) : MlxRequest where
  url := config.embeddingsUrl
  model := config.embedModel
  input := text
  bearer := if config.apiKey.isEmpty then none else some config.apiKey

/-- The embedding in a reply. -/
def MlxReply.embedding {F : Type} (dimension : Nat) : MlxReply F → Except EmbedError (List F)
  | .failed error => .error (.http ("request: " ++ error))
  | .response status statusText body data =>
      if status < 200 ∨ 300 ≤ status then .error (.api ("status " ++ statusText ++ ": " ++ body))
      else match data with
        | .error e => .error (.parse ("response json: " ++ e))
        | .ok [] => .error (.parse "empty data array")
        | .ok (embedding :: _) =>
            if embedding.length ≠ dimension then .error (.dimension dimension embedding.length)
            else .ok embedding

theorem MlxReply.embedding_length {F : Type} {dimension : Nat} {reply : MlxReply F} {vec : List F}
    (sent : reply.embedding dimension = .ok vec) : vec.length = dimension := by
  unfold embedding at sent
  split at sent
  · cases sent
  · split_ifs at sent
    split at sent
    · cases sent
    · cases sent
    · split_ifs at sent with wrong
      cases sent
      exact not_not.mp wrong

/-! ### The embedder -/

/-- What a call of the embedder asks for. -/
inductive MlxOp (F : Type) where
  | cacheGet (key : UInt64)
  | cachePut (key : UInt64) (vec : List F)
  | acquire
  | release
  /-- The request leaves. -/
  | send (request : MlxRequest)
  /-- The reply to it is there. -/
  | receive (request : MlxRequest)

@[reducible] def MlxOp.Reply {F : Type} : MlxOp F → Type
  | .cacheGet _ => Option (List F)
  | .receive _ => MlxReply F
  | _ => Unit

abbrev mlxSignature (F : Type) : Signature := ⟨MlxOp F, MlxOp.Reply⟩

abbrev EmbedM (F α : Type) := Program (mlxSignature F) EmbedError α

section Embedder

variable {F : Type}

def mlxOp (op : MlxOp F) : EmbedM F op.Reply := Program.perform (S := mlxSignature F) op

/-- One request, sent and answered under a permit. -/
def askMlx (config : EmbedConfig) (text : String) : EmbedM F (List F) := do
  mlxOp (.send (config.request text))
  let reply ← mlxOp (.receive (config.request text))
  Program.ofExcept (reply.embedding config.dimension)

/-- The permit is dropped however the request ends. -/
def callMlx (config : EmbedConfig) (text : String) : EmbedM F (List F) := do
  mlxOp .acquire
  let result ← (askMlx config text).attempt
  mlxOp .release
  Program.ofExcept result

/-- The key of a text in the cache. -/
def cacheKey (text : String) : UInt64 := UInt64.ofNat (fnv1a64 text.toUTF8.toList)

def mlxEmbed (config : EmbedConfig) (text : String) : EmbedM F (List F) := do
  match ← mlxOp (.cacheGet (cacheKey text)) with
  | some cached => return cached
  | none => do
      let vec ← callMlx config text
      mlxOp (.cachePut (cacheKey text) vec)
      return vec

/-! ### Its world -/

/-- The clock, the order of the map and the server, as functions of the time of a request. -/
structure MlxEnv (F : Type) where
  clock : Nat → Nat
  order : Nat → MapOrder F
  server : Nat → MlxRequest → MlxReply F

structure MlxWorld (F : Type) where
  env : MlxEnv F
  tick : Nat
  cache : LruCache F
  permits : Nat

/-- `MlxEmbedder::new`. -/
def MlxWorld.new (config : EmbedConfig) (env : MlxEnv F) : MlxWorld F where
  env := env
  tick := 0
  cache := LruCache.new config.cacheCapacity config.cacheTtlSecs
  permits := config.mlxConcurrency

namespace MlxWorld

def ready : MlxOp F → MlxWorld F → Bool
  | .acquire, w => 0 < w.permits
  | _, _ => true

def exec : (op : MlxOp F) → MlxWorld F → op.Reply × MlxWorld F
  | .cacheGet key, w =>
      let (found, cache) := w.cache.get (w.env.clock w.tick) key
      (found, { w with tick := w.tick + 1, cache })
  | .cachePut key vec, w =>
      ((), { w with tick := w.tick + 1
                    cache := w.cache.put (w.env.order w.tick) (w.env.clock w.tick) key vec })
  | .acquire, w => ((), { w with tick := w.tick + 1, permits := w.permits - 1 })
  | .release, w => ((), { w with tick := w.tick + 1, permits := w.permits + 1 })
  | .send _, w => ((), { w with tick := w.tick + 1 })
  | .receive request, w => (w.env.server w.tick request, { w with tick := w.tick + 1 })

end MlxWorld

def mlxMachine (F : Type) : Machine (mlxSignature F) (MlxWorld F) := ⟨MlxWorld.ready, MlxWorld.exec⟩

/-! ### The semaphore -/

/-- What a request does to the semaphore. -/
def mlxUse : MlxOp F → PermitUse Unit
  | .acquire => .take ()
  | .release => .give ()
  | _ => .neither

def mlxCapacity (config : EmbedConfig) (_ : Unit) : Nat := config.mlxConcurrency

def mlxFree (w : MlxWorld F) (_ : Unit) : Nat := w.permits

theorem mlxMachine_counts (config : EmbedConfig) :
    (mlxMachine F).Counts mlxUse (mlxCapacity config) mlxFree where
  ready r w there := by
    cases r with
    | acquire => exact decide_eq_true (there () rfl)
    | _ => rfl
  waits r w k takes ready := by
    cases r with
    | acquire => exact of_decide_eq_true ready
    | _ => cases takes
  take r w k k' takes _ := by
    cases r with
    | acquire => exact (if_pos rfl).symm
    | _ => cases takes
  give r w k k' gives _ := by
    cases r with
    | release => exact (if_pos rfl).symm
    | _ => cases gives
  neither r w k plain := by
    cases r with
    | acquire => cases plain
    | release => cases plain
    | _ => rfl

/-- A request is sent under a permit only. -/
def SendsUnder (h : List (Event (mlxSignature F))) : MlxOp F → Prop
  | .send _ => 0 < held mlxUse () h
  | _ => True

theorem askMlx_plain (config : EmbedConfig) (text : String) :
    Program.Only (fun op : MlxOp F => mlxUse op = .neither) (askMlx config text) :=
  ⟨rfl, fun _ => ⟨rfl, fun reply => Program.Only.ofExcept (reply.embedding config.dimension)⟩⟩

theorem callMlx_balanced (config : EmbedConfig) (text : String) :
    (callMlx (F := F) config text).Balanced mlxUse := by
  have takes : mlxUse (.acquire : MlxOp F) = .take () := rfl
  have gives : mlxUse (.release : MlxOp F) = .give () := rfl
  exact Program.Balanced.bracket takes gives (askMlx_plain config text) id

theorem mlxEmbed_balanced (config : EmbedConfig) (text : String) :
    (mlxEmbed (F := F) config text).Balanced mlxUse := by
  refine Program.Balanced.bind (.ofOnly (Program.Only.perform rfl)) fun found => ?_
  cases found with
  | some cached => exact .ofOnly trivial
  | none =>
      refine (callMlx_balanced config text).bind fun vec => .ofOnly ?_
      exact Program.Only.bind (Program.Only.perform rfl) fun _ => trivial

/-- What a call does with the reply of the server. -/
def finishMlx (config : EmbedConfig) (text : String) (reply : MlxReply F) : EmbedM F (List F) := do
  mlxOp .release
  match reply.embedding config.dimension with
  | .ok vec => do
      mlxOp (.cachePut (cacheKey text) vec)
      return vec
  | .error e => .fail e

/-- All requests of a call that misses the cache. -/
theorem callMlx_eq (config : EmbedConfig) (text : String) :
    (callMlx (F := F) config text >>= fun vec => mlxOp (.cachePut (cacheKey text) vec) >>= fun _ =>
        pure vec) =
      (mlxOp .acquire >>= fun _ => mlxOp (.send (config.request text)) >>= fun _ =>
        mlxOp (.receive (config.request text)) >>= finishMlx config text) := by
  refine congrArg (Program.request (S := mlxSignature F) .acquire) (funext fun _ => ?_)
  refine congrArg (Program.request (S := mlxSignature F) (.send _)) (funext fun _ => ?_)
  refine congrArg (Program.request (S := mlxSignature F) (.receive _)) (funext fun reply => ?_)
  change (((Program.ofExcept (reply.embedding config.dimension) : EmbedM F (List F)).attempt :
    EmbedM F _) >>= fun result => mlxOp .release >>= fun _ => Program.ofExcept result) >>= _ =
      finishMlx config text reply
  unfold finishMlx
  cases reply.embedding config.dimension <;> rfl

theorem mlxEmbed_sendsUnder (config : EmbedConfig) (text : String) :
    Program.Obeys SendsUnder (fun _ _ => True) [] (mlxEmbed (F := F) config text) := by
  refine ⟨trivial, fun t found => ?_⟩
  cases found with
  | some cached => trivial
  | none =>
      change Program.Obeys _ _ _ (callMlx config text >>= fun vec => _)
      rw [callMlx_eq]
      refine ⟨trivial, fun t₁ _ => ⟨Nat.one_pos, fun t₂ _ => ⟨trivial, fun t₃ reply => ?_⟩⟩⟩
      refine ⟨trivial, fun t₄ _ => ?_⟩
      dsimp only
      cases reply.embedding config.dimension with
      | error e => trivial
      | ok vec => exact ⟨trivial, fun _ _ => trivial⟩

/-! ### Calls side by side -/

/-- Calls of one embedder. -/
abbrev Embeds (F : Type) := Pool (mlxSignature F) EmbedError (List F) (MlxWorld F)

/-- The calls for some texts, before any of them has begun. -/
def Embeds.start (config : EmbedConfig) (env : MlxEnv F) (texts : List String) : Embeds F :=
  Pool.start (MlxWorld.new config env) (texts.map (mlxEmbed config))

/-- The call has sent its request and has no answer yet. -/
def awaiting (thread : Thread (mlxSignature F) EmbedError (List F)) : Bool :=
  match thread.history with
  | ⟨_, .send _, _⟩ :: _ => true
  | _ => false

theorem Embeds.keepsProtocol {P : String → List (Event (mlxSignature F)) → MlxOp F → Prop}
    {Q : String → List (Event (mlxSignature F)) → Except EmbedError (List F) → Prop}
    {config : EmbedConfig}
    (obeys : ∀ text, Program.Obeys (P text) (Q text) [] (mlxEmbed config text)) (env : MlxEnv F)
    (texts : List String) :
    Pool.KeepsProtocol (fun i h r => ∃ text, texts[i]? = some text ∧ P text h r)
      (fun i h result => ∃ text, texts[i]? = some text ∧ Q text h result)
      (Embeds.start config env texts) := by
  refine Pool.KeepsProtocol.start _ fun i p listed => ?_
  rw [List.getElem?_map] at listed
  obtain ⟨text, found, rfl⟩ := Option.map_eq_some_iff.mp listed
  exact (obeys text).mono (fun _ _ allowed => ⟨text, found, allowed⟩)
    fun _ _ left => ⟨text, found, left⟩

section Runs

variable {config : EmbedConfig} {env : MlxEnv F} {texts : List String} {pool : Embeds F}

/-- A call that waits for the server holds a permit. -/
theorem held_of_awaiting (reach : Pool.Reaches (mlxMachine F) (fun _ _ => True)
    (Embeds.start config env texts) pool) :
    ∀ (i : Nat) thread, pool.threads[i]? = some thread → awaiting thread = true →
      0 < held mlxUse () thread.history := by
  refine Pool.Reaches.invariant (I := fun pool : Embeds F => ∀ (i : Nat) thread,
    pool.threads[i]? = some thread → awaiting thread = true → 0 < held mlxUse () thread.history)
    (Embeds.keepsProtocol (mlxEmbed_sendsUnder config) env texts) ?_ ?_ reach
  · intro i thread found waits
    unfold awaiting at waits
    rw [Pool.start_history found] at waits
    cases waits
  · rintro pool i h r next inv found ⟨text, -, allowed⟩ _ _ j thread found' waits
    rcases Pool.advance_threads_cases found found' with ⟨-, old⟩ | ⟨rfl, rfl⟩
    · exact inv j thread old waits
    · cases r with
      | send request => exact allowed
      | _ => cases waits

theorem Embeds.orderly (config : EmbedConfig) (env : MlxEnv F) (texts : List String) :
    Pool.Orderly mlxUse (Embeds.start config env texts) := by
  refine Pool.Orderly.start _ fun p listed => ?_
  obtain ⟨text, -, rfl⟩ := List.mem_map.mp listed
  exact mlxEmbed_balanced config text

/-- Never more requests are on their way to the server than the configuration allows; and every
interleaving of calls comes to an end, with all calls answered and all permits back. -/
theorem mlx_backpressure (positive : 0 < config.mlxConcurrency)
    (reach : Pool.Reaches (mlxMachine F) (fun _ _ => True) (Embeds.start config env texts) pool) :
    pool.threads.countP awaiting ≤ config.mlxConcurrency ∧ Acc (Pool.Moves (mlxMachine F)) pool ∧
      ((∀ pool', ¬ Pool.Moves (mlxMachine F) pool' pool) →
        (∀ thread ∈ pool.threads, thread.program.ended = true) ∧
          pool.world.permits = config.mlxConcurrency) := by
  have counts := mlxMachine_counts (F := F) config
  have orderly := Embeds.orderly config env texts
  have init : ∀ k, mlxFree (Embeds.start config env texts).world k +
      Pool.heldBy mlxUse k (Embeds.start config env texts).threads = mlxCapacity config k :=
    Pool.conserved_start fun _ => rfl
  refine ⟨?_, Pool.moves_wellFounded.apply pool, fun stuck => ?_⟩
  · refine Nat.le_trans (List.countP_mono_left fun thread mem waits => ?_)
      (reach.holders_le counts orderly init ())
    obtain ⟨i, found⟩ := List.getElem?_of_mem mem
    exact decide_eq_true (held_of_awaiting reach i thread found waits)
  have ended : ∀ thread ∈ pool.threads, thread.program.ended = true := by
    intro thread mem
    by_contra running
    obtain ⟨pool', moved⟩ := reach.progress counts orderly init (fun _ _ _ => positive) mem
      (Bool.eq_false_iff.mpr running)
    exact stuck pool' moved
  exact ⟨ended, reach.returned counts orderly init ended ()⟩

end Runs

/-! ### Three calls, two permits -/

def pairConfig : EmbedConfig :=
  EmbedConfig.overlayEnv (fun _ => none) { EmbedConfig.default with dimension := 2 }

/-- A clock that goes with the steps, and a server that knows one vector. -/
def oneVector : MlxEnv Int where
  clock t := t
  order _ := asWritten
  server _ _ := .response 200 "200 OK" "" (.ok [[3, 4]])

/-- All three calls miss the cache; two have sent their requests, and the third has to wait. -/
def threeCalls : Embeds Int :=
  Pool.runSchedule (mlxMachine Int) [0, 1, 2, 0, 1, 2, 0, 1, 2]
    (Embeds.start pairConfig oneVector ["a", "b", "c"])

theorem threeCalls_reached : Pool.Reaches (mlxMachine Int) (fun _ _ => True)
    (Embeds.start pairConfig oneVector ["a", "b", "c"]) threeCalls :=
  Pool.reaches_runSchedule (fun _ _ => true) (fun _ _ _ _ _ _ _ => trivial) _ _ (by decide +kernel)

theorem mlx_backpressure_threeCalls : threeCalls.threads.countP awaiting ≤ 2 ∧
    Acc (Pool.Moves (mlxMachine Int)) threeCalls ∧
      ((∀ pool', ¬ Pool.Moves (mlxMachine Int) pool' threeCalls) →
        (∀ thread ∈ threeCalls.threads, thread.program.ended = true) ∧
          threeCalls.world.permits = 2) :=
  mlx_backpressure (EmbedConfig.overlayEnv_concurrency_pos (Nat.succ_pos 1) _) threeCalls_reached

example : threeCalls.threads.countP awaiting = 2 := by decide +kernel

/-! ### What a call returns -/

/-- The server has answered the call with `vec`. -/
def Answered (config : EmbedConfig) (text : String) (vec : List F)
    (h : List (Event (mlxSignature F))) : Prop :=
  ∃ t reply, ⟨t, .receive (config.request text), reply⟩ ∈ h ∧
    reply.embedding config.dimension = .ok vec

theorem Answered.cons {config : EmbedConfig} {text : String} {vec : List F}
    {h : List (Event (mlxSignature F))} (answered : Answered config text vec h)
    (e : Event (mlxSignature F)) : Answered config text vec (e :: h) := by
  obtain ⟨t, reply, mem, sent⟩ := answered
  exact ⟨t, reply, List.mem_cons_of_mem _ mem, sent⟩

/-- What a call for `text` may ask for: it caches what it was answered. -/
def MlxAllows (config : EmbedConfig) (text : String) (h : List (Event (mlxSignature F))) :
    MlxOp F → Prop
  | .cacheGet key => key = cacheKey text
  | .cachePut key vec => key = cacheKey text ∧ Answered config text vec h
  | .receive request => request = config.request text
  | _ => True

/-- What it returns: the server's answer to it, or what was in the cache. -/
def MlxReturns (config : EmbedConfig) (text : String) (h : List (Event (mlxSignature F))) :
    Except EmbedError (List F) → Prop
  | .ok vec => Answered config text vec h ∨ ∃ t, ⟨t, .cacheGet (cacheKey text), some vec⟩ ∈ h
  | .error _ => True

theorem mlxEmbed_obeys (config : EmbedConfig) (text : String) :
    Program.Obeys (MlxAllows config text) (MlxReturns config text) []
      (mlxEmbed (F := F) config text) := by
  refine ⟨rfl, fun t found => ?_⟩
  cases found with
  | some cached => exact .inr ⟨t, List.mem_cons_self⟩
  | none =>
      change Program.Obeys _ _ _ (callMlx config text >>= fun vec => _)
      rw [callMlx_eq]
      refine ⟨trivial, fun t₁ _ => ⟨trivial, fun t₂ _ => ⟨rfl, fun t₃ reply => ⟨trivial, fun t₄ _ => ?_⟩⟩⟩⟩
      dsimp only
      cases sent : reply.embedding config.dimension with
      | error e => trivial
      | ok vec =>
          have answered : Answered config text vec
              [⟨t₄, .release, ()⟩, ⟨t₃, .receive (config.request text), reply⟩,
                ⟨t₂, .send (config.request text), ()⟩, ⟨t₁, .acquire, ()⟩,
                ⟨t, .cacheGet (cacheKey text), none⟩] :=
            ⟨t₃, reply, List.mem_cons_of_mem _ List.mem_cons_self, sent⟩
          exact ⟨⟨rfl, answered⟩, fun t₅ _ => .inl (answered.cons _)⟩

/-- A lookup brings nothing into the cache. -/
theorem LruCache.lookup_get {cache : LruCache F} {now : Nat} {key k : UInt64} {entry : CacheEntry F}
    (after : (cache.get now key).2.lookup k = some entry) :
    ∃ old, cache.lookup k = some old ∧ old.vec = entry.vec ∧ old.born = entry.born := by
  rcases cache.get_cases now key with ⟨-, same⟩ | ⟨old, found, ⟨-, same⟩ | ⟨-, same⟩⟩
  · rw [same] at after
    exact ⟨entry, after, rfl, rfl⟩
  · rw [same, lookup_remove] at after
    split_ifs at after
    exact ⟨entry, after, rfl, rfl⟩
  · rw [same, lookup_touch] at after
    split_ifs at after
    · obtain ⟨old', found', rfl⟩ := Option.map_eq_some_iff.mp after
      exact ⟨old', found', rfl, rfl⟩
    · exact ⟨entry, after, rfl, rfl⟩

theorem LruCache.ttl_get (cache : LruCache F) (now : Nat) (key : UInt64) :
    (cache.get now key).2.ttl = cache.ttl := by
  rcases cache.get_cases now key with ⟨-, same⟩ | ⟨old, found, ⟨-, same⟩ | ⟨-, same⟩⟩ <;>
    rw [same] <;> rfl

theorem LruCache.ttl_put (cache : LruCache F) (order : MapOrder F) (now : Nat) (key : UInt64)
    (vec : List F) : (cache.put order now key vec).ttl = cache.ttl := by
  unfold put
  cases cache.evictKey order now key <;> rfl

section Step

variable {config : EmbedConfig} {env : MlxEnv F} {texts : List String} {pool : Embeds F}

/-- An entry after a step was there before, or has just been put. -/
theorem MlxWorld.exec_entry {w : MlxWorld F} {op : MlxOp F} {key : UInt64} {entry : CacheEntry F}
    (after : (w.exec op).2.cache.lookup key = some entry) :
    (∃ old, w.cache.lookup key = some old ∧ old.vec = entry.vec ∧ old.born = entry.born) ∨
      op = .cachePut key entry.vec ∧ entry.born = w.env.clock w.tick := by
  cases op with
  | cacheGet k => exact .inl (LruCache.lookup_get after)
  | cachePut k vec =>
      change (w.cache.put _ _ k vec).lookup key = some entry at after
      rw [LruCache.lookup_put] at after
      split_ifs at after with same evicted
      · subst same
        cases after
        exact .inr ⟨rfl, rfl⟩
      · exact .inl ⟨entry, after, rfl, rfl⟩
  | _ => exact .inl ⟨entry, after, rfl, rfl⟩

/-- What a lookup answers is in the cache, and no older than the time to live. -/
theorem MlxWorld.exec_hit {w : MlxWorld F} {key : UInt64} {vec : List F}
    (hit : (w.exec (.cacheGet key)).1 = some vec) :
    ∃ entry, w.cache.lookup key = some entry ∧ entry.vec = vec ∧
      w.env.clock w.tick - entry.born ≤ w.cache.ttl := by
  change (w.cache.get (w.env.clock w.tick) key).1 = some vec at hit
  rcases w.cache.get_cases (w.env.clock w.tick) key
    with ⟨-, same⟩ | ⟨old, found, ⟨-, same⟩ | ⟨young, same⟩⟩
  · rw [same] at hit
    cases hit
  · rw [same] at hit
    cases hit
  · rw [same] at hit
    exact ⟨old, found, Option.some.inj hit, young⟩

theorem MlxWorld.exec_env (w : MlxWorld F) (op : MlxOp F) :
    (w.exec op).2.env = w.env ∧ (w.exec op).2.tick = w.tick + 1 ∧
      (w.exec op).2.cache.ttl = w.cache.ttl := by
  cases op with
  | cacheGet key => exact ⟨rfl, rfl, LruCache.ttl_get _ _ _⟩
  | cachePut key vec => exact ⟨rfl, rfl, LruCache.ttl_put _ _ _ _ _⟩
  | _ => exact ⟨rfl, rfl, rfl⟩

/-- A cached vector, and when it was cached. -/
structure CachedVec (F : Type) where
  key : UInt64
  vec : List F
  born : Nat

/-- The cache holds what was put there, and answers with what it holds. -/
theorem mlxMachine_memory (config : EmbedConfig) (env : MlxEnv F) :
    (mlxMachine F).Memory
      (fun w => w.env = env ∧ w.cache.ttl = config.cacheTtlSecs * 1000000000) MlxWorld.tick
      (fun w f => ∃ entry, w.cache.lookup f.key = some entry ∧ entry.vec = f.vec ∧
        entry.born = f.born)
      (fun e f => e.request = .cachePut f.key f.vec ∧ f.born = env.clock e.time)
      (fun e (f : CachedVec F) => e.request = .cacheGet f.key ∧ HEq e.reply (some f.vec) ∧
        env.clock e.time - f.born ≤ config.cacheTtlSecs * 1000000000)
      (fun e => ∃ t key vec, e = ⟨t, .cacheGet key, some vec⟩) where
  keeps op w inv := by
    obtain ⟨same, -, ttl⟩ := w.exec_env op
    exact ⟨same.trans inv.1, ttl.trans inv.2⟩
  ticks op w := (w.exec_env op).2.1
  made op w f inv after := by
    obtain ⟨entry, found, vec, born⟩ := after
    rcases MlxWorld.exec_entry found with ⟨old, before, vec', born'⟩ | ⟨rfl, now⟩
    · exact .inl ⟨old, before, vec'.trans vec, born'.trans born⟩
    · refine .inr ⟨congrArg (MlxOp.cachePut f.key) vec, ?_⟩
      rw [← born, now, inv.1]
  shown op w inv asked := by
    obtain ⟨t, key, vec, same⟩ := asked
    injection same with _ request reply
    subst request
    obtain ⟨entry, there, rfl, young⟩ := MlxWorld.exec_hit (eq_of_heq reply)
    rw [inv.1, inv.2] at young
    exact ⟨⟨key, entry.vec, entry.born⟩, ⟨entry, there, rfl, rfl⟩, rfl, reply, young⟩

theorem Embeds.start_quiet : (Embeds.start config env texts).events = [] := Pool.events_start _ _

/-- Whatever a call caches, it was answered. -/
theorem answered_of_put (reach : Pool.Reaches (mlxMachine F) (fun _ _ => True)
      (Embeds.start config env texts) pool) {j : Nat}
    {thread : Thread (mlxSignature F) EmbedError (List F)} (found : pool.threads[j]? = some thread)
    {e : Event (mlxSignature F)} (mine : e ∈ thread.history) {key : UInt64} {vec : List F}
    (put : e.request = .cachePut key vec) :
    ∃ text, texts[j]? = some text ∧ key = cacheKey text ∧ Answered config text vec thread.history := by
  obtain ⟨earlier, ⟨text, listed, allowed⟩, before⟩ := reach.explained Embeds.start_quiet
    (Embeds.keepsProtocol (mlxEmbed_obeys config) env texts) j thread found e mine
  rw [put] at allowed
  obtain ⟨key_eq, t, reply, mem, sent⟩ := allowed
  exact ⟨text, listed, key_eq, t, reply, (before _ mem).1, sent⟩

/-- The vector that a call returns comes from the server: it is the answer to the call's own
request, or the answer to another call for a text with the same hash, cached no longer ago
than the time to live. -/
theorem embed_answers (reach : Pool.Reaches (mlxMachine F) (fun _ _ => True)
      (Embeds.start config env texts) pool) {i : Nat} {text : String} {vec : List F}
    {h : List (Event (mlxSignature F))} (listed : texts[i]? = some text)
    (found : pool.threads[i]? = some ⟨h, .done vec⟩) :
    vec.length = config.dimension ∧ (Answered config text vec h ∨
      ∃ (j : Nat) (text' : String) (thread : Thread (mlxSignature F) EmbedError (List F)) (t₀ t : Nat),
        texts[j]? = some text' ∧ cacheKey text' = cacheKey text ∧ pool.threads[j]? = some thread ∧
        Answered config text' vec thread.history ∧
        ⟨t₀, .cachePut (cacheKey text) vec, ()⟩ ∈ thread.history ∧
        ⟨t, .cacheGet (cacheKey text), some vec⟩ ∈ h ∧ t₀ < t ∧
        env.clock t - env.clock t₀ ≤ config.cacheTtlSecs * 1000000000) := by
  have sized : ∀ {text : String} {h : List (Event (mlxSignature F))}, Answered config text vec h →
      vec.length = config.dimension := by
    rintro text h ⟨t, reply, -, sent⟩
    exact MlxReply.embedding_length sent
  obtain ⟨text', listed', returned⟩ := reach.keepsProtocol
    (Embeds.keepsProtocol (mlxEmbed_obeys config) env texts) i _ found
  obtain rfl := Option.some.inj (listed.symm.trans listed')
  rcases returned with answered | ⟨t, hit⟩
  · exact ⟨sized answered, .inl answered⟩
  · have traced := reach.traced (mlxMachine_memory config env) Embeds.start_quiet ⟨rfl, rfl⟩ rfl
      fun f there => by
        obtain ⟨entry, found, -⟩ := there
        cases found
    obtain ⟨f, ⟨key, same, young⟩, ⟨t₀, op, reply⟩, happened, ⟨put, born⟩, earlier⟩ :=
      traced.told _ (Pool.mem_events.mpr ⟨i, _, found, hit⟩) ⟨t, _, vec, rfl⟩
    obtain ⟨key', vec', made⟩ := f
    obtain rfl := MlxOp.cacheGet.inj key
    obtain rfl := Option.some.inj (eq_of_heq same)
    rw [born] at young
    obtain ⟨j, thread, there, mine⟩ := Pool.mem_events.mp happened
    obtain ⟨text', origin, key, answered⟩ := answered_of_put reach there mine put
    subst put
    exact ⟨sized answered, .inr ⟨j, text', thread, t₀, t, origin, key.symm, there, answered, mine, hit,
      earlier, young⟩⟩

end Step

/-- The second call for a text finds the answer to the first. -/
def secondCall : Embeds Int :=
  Pool.runSchedule (mlxMachine Int) [0, 0, 0, 0, 0, 0, 1]
    (Embeds.start pairConfig oneVector ["a", "a"])

theorem secondCall_reached : Pool.Reaches (mlxMachine Int) (fun _ _ => True)
    (Embeds.start pairConfig oneVector ["a", "a"]) secondCall :=
  Pool.reaches_runSchedule (fun _ _ => true) (fun _ _ _ _ _ _ _ => trivial) _ _ (by decide +kernel)

theorem embed_answers_secondCall : ∃ h, secondCall.threads[1]? = some ⟨h, .done [3, 4]⟩ ∧
    ([3, 4] : List Int).length = 2 ∧ (Answered pairConfig "a" [3, 4] h ∨
      ∃ (j : Nat) (text' : String) (thread : Thread (mlxSignature Int) EmbedError (List Int))
          (t₀ t : Nat), ["a", "a"][j]? = some text' ∧ cacheKey text' = cacheKey "a" ∧
        secondCall.threads[j]? = some thread ∧ Answered pairConfig text' [3, 4] thread.history ∧
        ⟨t₀, .cachePut (cacheKey "a") [3, 4], ()⟩ ∈ thread.history ∧
        ⟨t, .cacheGet (cacheKey "a"), some [3, 4]⟩ ∈ h ∧ t₀ < t ∧
        oneVector.clock t - oneVector.clock t₀ ≤ 3600 * 1000000000) := by
  have returned : secondCall.threads[1]?.any (fun t => t.program.value? == some [3, 4]) = true := by
    decide +kernel
  obtain ⟨⟨h, program⟩, found, value⟩ := (Option.any_eq_true _ _).mp returned
  obtain rfl := Program.value?_eq_some (by simpa using value)
  exact ⟨h, found, embed_answers secondCall_reached rfl found⟩

end Embedder

end FusionMemory
