import FusionMemory.Engine.RankedBlocks

/-!
Whose rows a retrieved context shows.

The tenant and the namespace of a query select the vector hits. A block is then
assembled from every live row of a hit's interaction, and interaction ids are the
clients' own: `retrieve_context_scoped_iff` says exactly when no row of another
tenant or scope is shown.
-/

namespace FusionMemory

open Lib

variable {F : Type} [FloatArith F]

/-! ### One retrieval -/

/-- A block that shows the sources of its interaction. -/
def Assembled (db : Db F) (block : ContextBlock F) : Prop :=
  block = assembleBlock block.interactionId block.score (db.blockSources block.interactionId)

/-- What a query returns: blocks of the interactions of its hits. -/
theorem run_retrieveContext_eq_ok {eng : MemoryEngine} {query : RetrieveQuery} {w w' : World F}
    {ctx : FormattedContext F} (h : run (retrieveContext eng query) w = (.ok ctx, w')) :
    ∀ block ∈ ctx.blocks, Assembled w.db block ∧ ∃ v m, w.store.Searchable query v ∧
      w.db.hitRow query v = some m ∧ m.interactionId = block.interactionId := by
  obtain ⟨now, scored, w₁, found, answered⟩ := run_retrieveContext_halves h
  obtain ⟨cut, -⟩ := run_showHits_eq_ok answered
  obtain ⟨same, -⟩ := run_retrieveHits_eq_ok found
  intro block mem
  have kept : block ∈ (takeBudget query.tokenBudget
      (rankBlocks (groupBlocks w₁.db scored)) 0 []).1 := cut ▸ mem
  obtain ⟨ix, inIds, rfl⟩ : ∃ ix ∈ interactionIds scored, assembleBlock ix (bestScore scored ix)
      (w₁.db.blockSources ix) = block :=
    List.mem_map.mp ((rankBlocks_perm _).mem_iff.mp (takeBudget_subset _ _ block kept))
  obtain ⟨hit, inScored, own⟩ := mem_interactionIds.mp inIds
  obtain ⟨v, searchable, hitRow⟩ := hitRow_of_retrieveHits found inScored
  refine ⟨?_, v, hit.1, searchable, hitRow, own⟩
  rw [same]
  rfl

/-- A query with a large budget shows the interaction of every hit. -/
theorem retrieveContext_shows (eng : MemoryEngine) (query : RetrieveQuery) (db : Db F)
    (s : LocalStore F) (ann : {ann : AnnSearch F // ann.Sound}) {qvec : List F}
    {knn : List (Nat × F)} (searched : s.searchKnn ann.1 qvec query.knnK = .ok knn)
    (binds : query.Binds knn.length) (valid : isValidNamespace query.nsFilter.namespace = true) :
    ∃ tokenBudget ctx w', run (retrieveContext eng { query with tokenBudget := tokenBudget })
        (World.fresh (.searching ann qvec) db s) = (.ok ctx, w') ∧
      ∀ v ∈ knn.map Prod.fst, ∀ m, db.hitRow query v = some m →
        ∃ block ∈ ctx.blocks, block.interactionId = m.interactionId := by
  obtain ⟨hits, read⟩ := Db.getByVectorRefsTenantScoped_ok db binds valid
  obtain ⟨now, scored, w₁, found, quiet, db₁, memories⟩ :=
    run_retrieveHits_searching eng query db s ann searched read
  -- What is found does not depend on the budget, so the budget can be chosen to cover it.
  obtain ⟨tokenBudget, ctx, w', answered, all, -⟩ := showHits_all query now scored w₁ quiet
  refine ⟨tokenBudget, ctx, w', ?_, fun v inRefs m hitRow => ?_⟩
  · rw [retrieveContext_eq_halves]
    exact (run_bind_ok found).trans answered
  · obtain ⟨sim, inHits⟩ := (mem_matched read).mpr ⟨v, inRefs, hitRow⟩
    have inScored : m ∈ scored.map Prod.fst := memories ▸ List.mem_map_of_mem inHits
    obtain ⟨hit, mem, rfl⟩ := List.mem_map.mp inScored
    rw [all]
    exact ⟨_, (rankBlocks_perm _).mem_iff.mpr (List.mem_map_of_mem
      (mem_interactionIds.mpr ⟨hit, mem, rfl⟩)), rfl⟩

/-! ### The scope of the result -/

/-- Every block is assembled from live rows of the query's tenant and scope. -/
def ShowsOwnRows (db : Db F) (query : RetrieveQuery) (ctx : FormattedContext F) : Prop :=
  ∀ block ∈ ctx.blocks, Assembled db block ∧
    ∀ m ∈ db.blockSources block.interactionId, m ∈ db.memoryItem.rows ∧ OwnRow query m

/-- No interaction of a memory that the query can hit has first turns of another
tenant or scope. -/
def HitInteractionsOwn (db : Db F) (s : LocalStore F) (query : RetrieveQuery) : Prop :=
  ∀ v m, s.Searchable query v → db.hitRow query v = some m →
    ∀ r ∈ db.blockSources m.interactionId, OwnRow query r

omit [FloatArith F] in
theorem mem_blockSources {db : Db F} {ix : String} {m : MemoryItem F}
    (mem : m ∈ db.blockSources ix) : m ∈ db.memoryItem.rows := by
  have listed := List.mem_of_mem_take mem
  rw [mem_orderBy, Db.mem_listByInteraction] at listed
  exact listed.1

/-- For every budget, embedding and search, exactly the own interactions are shown in
scope. -/
theorem retrieve_context_scoped_iff (eng : MemoryEngine) (query : RetrieveQuery) (db : Db F)
    (s : LocalStore F) :
    (∀ tokenBudget (w : World F) ctx w', w.db = db → w.store = s →
      run (retrieveContext eng { query with tokenBudget := tokenBudget }) w = (.ok ctx, w') →
        ShowsOwnRows db query ctx) ↔ HitInteractionsOwn db s query := by
  constructor
  · rintro shows v m ⟨ann, qvec, knn, sound, searched, binds, inRefs⟩ hitRow r source
    have valid := isValidNamespace_of_visible (ownRow_of_hitRow hitRow).2.2
    obtain ⟨tokenBudget, ctx, w', ran, every⟩ :=
      retrieveContext_shows eng query db s ⟨ann, sound⟩ searched binds valid
    obtain ⟨block, inCtx, ix⟩ := every v inRefs m hitRow
    obtain ⟨-, own⟩ := shows tokenBudget _ ctx w' rfl rfl ran block inCtx
    exact (own r (ix ▸ source)).2
  · rintro own tokenBudget w ctx w' rfl rfl ran block inCtx
    obtain ⟨assembled, v, m, searchable, hitRow, ix⟩ := run_retrieveContext_eq_ok ran block inCtx
    refine ⟨assembled, fun r source => ⟨mem_blockSources source, ?_⟩⟩
    exact own v m searchable hitRow r (ix ▸ source)

/-! ### A shared interaction id -/

/-- A turn of tenant `a`, found by its vector. -/
def hitTurn : MemoryItem Fixed :=
  { MemoryItem.newTurnSkeleton "m1" "shared" 0 "s" "a" .episodic "mine" 1 with vectorRef := "7" }

/-- A turn of tenant `b` in an interaction of the same id. -/
def foreignTurn : MemoryItem Fixed :=
  MemoryItem.newTurnSkeleton "m2" "shared" 1 "s" "b" .episodic "secret" 1

def sharedDb : Db Fixed :=
  { (Db.empty : Db Fixed) with memoryItem := (Table.empty.upsert hitTurn).upsert foreignTurn }

def sharedStore : LocalStore Fixed :=
  { (LocalStore.empty 1 : LocalStore Fixed) with vecTree := Table.empty.upsert (7, [⟨1000000⟩]) }

def sharedWorld : World Fixed :=
  World.fresh { Env.quiet with embed := fun _ _ => .ok [⟨1000000⟩] } sharedDb sharedStore

def tenantQuery : RetrieveQuery := ⟨"mine?", 1, none, "a", "", "", none, 100⟩

/-- Tenant `a` is shown the secret of tenant `b`. -/
theorem retrieve_context_shows_foreign_turn :
    ¬ ∀ ctx w', run (retrieveContext (plainEngine "a") tenantQuery) sharedWorld = (.ok ctx, w') →
      ShowsOwnRows sharedDb tenantQuery ctx := by
  intro shows
  have foreign : foreignTurn ∈ sharedDb.blockSources "shared" := by decide
  have ended : ((run (retrieveContext (plainEngine "a") tenantQuery) sharedWorld).1.toOption.map
      fun ctx => ctx.blocks.map (·.interactionId)) = some ["shared"] := by decide
  cases ran : run (retrieveContext (plainEngine "a") tenantQuery) sharedWorld with
  | mk result w' =>
      rw [ran] at ended
      cases result with
      | error e => cases ended
      | ok ctx =>
          obtain ⟨block, inCtx, ix⟩ : ∃ block ∈ ctx.blocks, block.interactionId = "shared" := by
            have only : ctx.blocks.map (·.interactionId) = ["shared"] := Option.some.inj ended
            exact List.mem_map.mp (only ▸ List.mem_cons_self)
          have own := ((shows ctx w' ran block inCtx).2 foreignTurn (ix ▸ foreign)).2
          revert own
          decide

end FusionMemory
