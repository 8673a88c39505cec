import FusionMemory.Cluster.Leader
import FusionMemory.Engine.Unmerging
import FusionMemory.Server.Startup
import FusionMemory.Server.VectorContent

/-!
A store of another dimension than the embedder's.

`build_server_engine` opens the store with the configured dimension, and the embedder keeps its
own, which no environment and no file changes. A server whose two dimensions differ starts, and
`other_dimension_stores_nothing` says what it is good for: whatever calls it gets, in whatever
order, no memory and no vector is ever added to what its directory held.
-/

namespace FusionMemory

open Lib

variable {F : Type} [FloatArith F]

/-! ### Vectors that do not fit -/

/-- Nothing was added to the stores, and no call has anything that it could add. -/
structure Unfit (db : Db F) (store : LocalStore F) (pool : Tasks F) : Prop where
  dim : pool.world.store.dim = store.dim
  rows : ∀ id m, pool.world.db.getMemory id = some m →
    ∃ m₀, db.getMemory id = some m₀ ∧ m.fixed = m₀.fixed
  vectors : ∀ v vec, pool.world.store.vecTree.find? v = some (v, vec) →
    store.vecTree.find? v = some (v, vec)
  copies : ∀ e ∈ pool.events, ∀ m ∈ rowsRead e,
    ∃ m₀, db.getMemory m.id = some m₀ ∧ m.fixed = m₀.fixed
  shown : ∀ t v vec, (⟨t, .store (.getVector v), .ok (some vec)⟩ : EngineEvent F) ∈ pool.events →
    store.vecTree.find? v = some (v, vec)
  embedded : ∀ t text vec, (⟨t, .embed text, .ok vec⟩ : EngineEvent F) ∈ pool.events →
    vec.length ≠ store.dim
  inserted : ∀ t v vec, (⟨t, .store (.insertVector v vec), .ok ()⟩ : EngineEvent F) ∈ pool.events →
    vec.length = store.dim

omit [FloatArith F] in
theorem StoreOp.fails_dim (s : LocalStore F) (e : StoreError) (n : Nat) (op : StoreOp F) :
    (op.fails s e n).2.dim = s.dim := by
  cases op with
  | insertVector id vec =>
      change (s.insertVectorFails id vec e n).2.dim = _
      unfold LocalStore.insertVectorFails
      split_ifs
      · rfl
      · rfl
      · match n with
        | 0 | 1 | _ + 2 => rfl
  | searchKnn query k =>
      by_cases fits : query.length = s.dim
      · simp [StoreOp.fails, fits]
      · simp [StoreOp.fails, fits]
  | _ => rfl

section Steps

variable [JsonText F] {db : Db F} {store : LocalStore F} {pool : Tasks F} {i : Nat}
  {h : List (EngineEvent F)} {r : Request F} {next : r.Reply → EngineM F Unit}

omit [JsonText F] in
/-- The dimension of the store is that it was opened with. -/
theorem dim_exec (w : World F) (r : Request F) : (w.exec r).2.store.dim = w.store.dim := by
  cases r with
  | store op =>
      change (w.execStore op).2.dim = _
      rcases w.execStore_cases op with done | ⟨e, n, failed⟩
      · rw [done, StoreOp.exec_dim]
      · rw [failed, StoreOp.fails_dim]
  | acquire lock => cases lock <;> rfl
  | release lock => cases lock <;> rfl
  | _ => rfl

omit [JsonText F] in
theorem Unfit.advance (unfit : Unfit db store pool)
    (misfits : ∀ t text vec, pool.world.env.embed t text = .ok vec → vec.length ≠ store.dim)
    (found : pool.threads[i]? = some ⟨h, .request r next⟩) (allowed : Writes h r) :
    Unfit db store (pool.advance (machine F) i h r next) := by
  have happened := Pool.history_happened found
  refine ⟨(dim_exec pool.world r).trans unfit.dim, fun id m after => ?_, fun v vec after => ?_,
    fun e mem m read => ?_, fun t v vec mem => ?_, fun t text vec mem => ?_, fun t v vec mem => ?_⟩
  · rcases fixed_exec after with ⟨m₀, before, same⟩ | ⟨own, rfl | ⟨op, payload, «at», rfl⟩⟩
    · obtain ⟨m₁, there, same'⟩ := unfit.rows id m₀ before
      exact ⟨m₁, there, same.trans same'⟩
    · obtain ⟨e, mem, m₀, read, same⟩ := allowed
      obtain ⟨m₁, there, same'⟩ := unfit.copies e (happened e mem) m₀ read
      rw [← MemoryItem.id_eq_of_fixed same, own] at there
      exact ⟨m₁, there, same.trans same'⟩
    · obtain ⟨-, -, -, t, vec, ⟨t', answer⟩, accepted⟩ := allowed
      exact absurd (unfit.inserted t _ vec (happened _ accepted))
        (unfit.embedded t' _ vec (happened _ answer))
  · rcases vecTree_exec after with before | ⟨rfl, fits⟩
    · exact unfit.vectors v vec before
    · rw [unfit.dim] at fits
      rcases allowed with ⟨-, -, t, answer⟩ | ⟨-, -, -, t, answer⟩ | read
      · exact absurd fits (unfit.embedded t _ vec (happened _ answer))
      · exact absurd fits (unfit.embedded t _ vec (happened _ answer))
      · exact unfit.shown _ v vec (happened _ read)
  · rcases (Pool.mem_events_advance found).mp mem with rfl | old
    · exact unfit.rows m.id m (getMemory_rowsRead read)
    · exact unfit.copies e old m read
  · rcases (Pool.mem_events_advance found).mp mem with now | old
    · exact unfit.vectors v vec (find?_of_shown now)
    · exact unfit.shown t v vec old
  · rcases (Pool.mem_events_advance found).mp mem with now | old
    · injection now with _ request reply
      subst request
      exact misfits _ text vec (eq_of_heq reply).symm
    · exact unfit.embedded t text vec old
  · rcases (Pool.mem_events_advance found).mp mem with now | old
    · injection now with _ request reply
      subst request
      have accepted : (pool.world.execStore (.insertVector v vec)).1 = .ok () := (eq_of_heq reply).symm
      exact ((execStore_insertVector_ok_iff pool.world v vec).mp accepted).2.trans unfit.dim
    · exact unfit.inserted t v vec old

end Steps

/-! ### A server that has started -/

namespace Host

variable {host : Host} {res : Resources} {engine : ServerEngine} {tasks : List ServerTask}
  {config : EmbedConfig}

/-- Nothing that a host holds changes the dimension of the embedder. -/
theorem embedConfig_dimension (host : Host) (cfg : ServerConfig) :
    (host.embedConfig cfg).dimension = EmbedConfig.default.dimension := by
  unfold embedConfig EmbedConfig.overlayEnv
  cases (host.var "FUSION_MEMORY_MLX_CONCURRENCY").bind parseU64 with
  | none => rfl
  | some n =>
      dsimp only
      split_ifs
      · rfl
      · rfl

/-- With an embedder, the store has the configured dimension. -/
theorem buildServerEngine_dims {cfg : ServerConfig} {stub : Bool}
    (built : host.buildServerEngine res cfg stub = .ok engine) (live : engine.embedder = some config) :
    engine.dim = cfg.dim ∧ config.dimension = EmbedConfig.default.dimension := by
  unfold buildServerEngine at built
  obtain ⟨-, -, built⟩ := bind_ok built
  obtain ⟨-, -, built⟩ := bind_ok built
  obtain ⟨-, -, built⟩ := bind_ok built
  cases stub with
  | true =>
      cases built
      cases live
  | false =>
      obtain ⟨-, -, built⟩ := bind_ok built
      obtain ⟨-, -, built⟩ := bind_ok built
      cases built
      cases live
      exact ⟨rfl, host.embedConfig_dimension cfg⟩

end Host

section Runs

variable [JsonText F] {host : Host} {res : Resources} {engine : ServerEngine}
  {tasks : List ServerTask} {config : EmbedConfig} {eng : MemoryEngine} {w : World F}
  {calls : List EngineCall} {pool : Tasks F}

/-- An embedder whose vectors do not fit adds nothing to the stores. -/
theorem unfit_of_reaches
    (misfits : ∀ t text vec, w.env.embed t text = .ok vec → vec.length ≠ w.store.dim)
    (reach : Pool.Reaches (machine F) (fun _ _ => True) (Tasks.start eng w calls) pool) :
    Unfit w.db w.store pool := by
  have quiet : (Tasks.start eng w calls).events = [] := Pool.events_start w _
  have fresh : Unfit w.db w.store (Tasks.start eng w calls) := by
    refine ⟨rfl, fun id m there => ⟨m, there, rfl⟩, fun v vec there => there, fun e mem => ?_,
      fun t v vec mem => ?_, fun t text vec mem => ?_, fun t v vec mem => ?_⟩
    all_goals
      rw [quiet] at mem
      cases mem
  obtain ⟨unfit, -⟩ := Pool.Reaches.invariant
    (I := fun pool : Tasks F => Unfit w.db w.store pool ∧ pool.world.env = w.env)
    (Tasks.keepsProtocol (EngineCall.program_writes eng) w calls) ⟨fresh, rfl⟩
    (fun pool i h r next ⟨unfit, env⟩ found allowed _ _ =>
      ⟨unfit.advance (env ▸ misfits) found allowed, (World.exec_env r pool.world).trans env⟩) reach
  exact unfit

/-- A server that started with an embedder, and with another dimension configured than the
embedder's: however calls of the handle interleave, a memory that is there was there at the start,
the same but for its tier, entities and access counts, and so was every vector. -/
theorem other_dimension_stores_nothing (started : host.main res = .ok (engine, tasks))
    (live : engine.embedder = some config)
    (other : host.fromFileOrEnv.dim ≠ EmbedConfig.default.dimension)
    (opened : w.store.dim = engine.dim)
    (served : ∀ t text vec, w.env.embed t text = .ok vec → vec.length = config.dimension)
    (reach : Pool.Reaches (machine F) (fun _ _ => True) (Tasks.start eng w calls) pool) :
    (∀ id m, pool.world.db.getMemory id = some m →
      ∃ m₀, w.db.getMemory id = some m₀ ∧ m.fixed = m₀.fixed) ∧
    ∀ v vec, pool.world.store.getVector v = some vec → w.store.vecTree.find? v = some (v, vec) := by
  obtain ⟨-, ⟨stub, built⟩, -⟩ := Host.main_eq_ok started
  obtain ⟨dim, dimension⟩ := Host.buildServerEngine_dims built live
  have unfit := unfit_of_reaches (fun t text vec answer => ?_) reach
  · exact ⟨unfit.rows, fun v vec there => unfit.vectors v vec (LocalStore.find?_of_getVector there)⟩
  · rw [served t text vec answer, opened, dim, dimension]
    exact other.symm

end Runs

/-- A host that asks for a store of dimension 2. -/
def narrowHost : Host :=
  { keyHost with var := fun name => if name = "FUSION_MEMORY_DIM" then some "2" else keyHost.var name }

/-- An embedder of the usual dimension. -/
def wideEnv : Env Fixed :=
  { (Env.quiet : Env Fixed) with embed := fun _ _ => .ok (List.replicate 1024 (FloatArith.ofNat 1)) }

/-- A greeting was committed there, to the end. -/
def greetingLost : Tasks Fixed :=
  Pool.runSchedule (machine Fixed) [0, 0, 0, 0, 0]
    (Tasks.start (plainEngine "a") (World.fresh wideEnv .empty (.empty 2))
      [.commitEpisodicMemoryDetailed "s" greeting])

theorem other_dimension_stores_nothing_narrowHost :
    greetingLost.threads.all (fun t => t.program.ended) = true ∧ greetingLost.world.issued = ["x"] ∧
      ∀ id, greetingLost.world.db.getMemory id = none := by
  have starts : (narrowHost.main workingResources).toBool = true := by decide +kernel
  obtain ⟨engine, started⟩ := Host.main_of_toBool starts
  have reach : Pool.Reaches (machine Fixed) (fun _ _ => True)
      (Tasks.start (plainEngine "a") (World.fresh wideEnv .empty (.empty 2))
        [.commitEpisodicMemoryDetailed "s" greeting]) greetingLost :=
    Pool.reaches_runSchedule (fun _ _ => true) (fun _ _ _ _ _ _ _ => trivial) _ _ (by decide +kernel)
  have built : ((narrowHost.main workingResources).toOption.map fun p =>
      (p.1.dim, p.1.embedder.map (·.dimension))) = some (2, some 1024) := by decide +kernel
  rw [started] at built
  change some (engine.dim, engine.embedder.map (·.dimension)) = _ at built
  obtain ⟨dim, dimension⟩ := Prod.mk.inj (Option.some.inj built)
  obtain ⟨config, live, dimension⟩ := Option.map_eq_some_iff.mp dimension
  have narrow : narrowHost.fromFileOrEnv.dim = 2 := by decide +kernel
  have served : ∀ t text vec, (World.fresh wideEnv .empty (.empty 2)).env.embed t text = .ok vec →
      vec.length = config.dimension := by
    intro t text vec answer
    rw [dimension, ← Except.ok.inj answer]
    exact List.length_replicate
  obtain ⟨rows, -⟩ := other_dimension_stores_nothing started live (by rw [narrow]; decide) dim.symm
    served reach
  refine ⟨by decide +kernel, by decide +kernel, fun id => Option.eq_none_iff_forall_ne_some.mpr
    fun m there => ?_⟩
  obtain ⟨m₀, before, -⟩ := rows id m there
  cases before

end FusionMemory
