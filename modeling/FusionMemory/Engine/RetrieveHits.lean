import FusionMemory.Engine.Execution
import FusionMemory.Engine.Retrieve

/-!
A retrieval in its two halves.

`retrieveHits` finds and scores the memories that pass the filters, `showHits` makes the
context of them; `retrieveContext_eq_halves` puts the two together. What a query shows and
counts is then a question about the second half, what it finds one about the first.
-/

namespace FusionMemory

open Lib

variable {F : Type} [FloatArith F]

/-! ### Two halves -/

/-- The memories that the search matched and that pass the filters, with their fused scores. -/
def retrieveHits (eng : MemoryEngine) (query : RetrieveQuery) :
    EngineM F (Nat × List (MemoryItem F × F)) := do
  let now ← nowMs
  let entityIds ← queryEntityIds eng query.text
  let embedded ← embed query.text
  let qvec ← Program.ofExcept embedded
  let knn : List (Nat × F) ← storeOrFail (.searchKnn qvec query.knnK)
  let hits : List (MemoryItem F) ← persistOrFail
    (.getByVectorRefsTenantScoped (knn.map Prod.fst) query.tenant query.nsFilter)
  let scored ← scoreHits entityIds now (matched query hits knn)
  return (now, scored)

/-- Blocks of the interactions of the hits, within the budget, and the touch of what they are
built on. -/
def showHits (query : RetrieveQuery) (now : Nat) (scored : List (MemoryItem F × F)) :
    EngineM F (FormattedContext F) := do
  let blocks ← buildBlocks scored
  let (kept, totalTokens) := takeBudget query.tokenBudget (rankBlocks blocks) 0 []
  touch (sortedGroupsTurnIds scored kept) now
  let detail := "blocks=" ++ toString kept.length ++ " tokens=" ++ toString totalTokens
  let _ ← persist (.appendAudit now "retrieve" "retrieve"
    (String.ofList (query.text.toList.take 64)) detail)
  let staleRead ← loadStaleFlag
  let lastSyncAt ← loadLastSyncAt
  return { blocks := kept, totalTokens, staleRead, lastSyncAt }

theorem retrieveContext_eq_halves (eng : MemoryEngine) (query : RetrieveQuery) :
    (retrieveContext eng query : EngineM F _) =
      retrieveHits eng query >>= fun found => showHits query found.1 found.2 := by
  unfold retrieveContext retrieveHits showHits
  simp only [bind_assoc, pure_bind]

/-- What a query finds does not depend on its budget. -/
theorem retrieveHits_budget (eng : MemoryEngine) (query : RetrieveQuery) (tokenBudget : Nat) :
    (retrieveHits eng { query with tokenBudget := tokenBudget } : EngineM F _) =
      retrieveHits eng query := by
  unfold retrieveHits
  rfl

/-- A query that succeeds has found its hits and answered them. -/
theorem run_retrieveContext_halves {eng : MemoryEngine} {query : RetrieveQuery} {w w' : World F}
    {ctx : FormattedContext F} (ran : run (retrieveContext eng query) w = (.ok ctx, w')) :
    ∃ now scored w₁, run (retrieveHits eng query) w = (.ok (now, scored), w₁) ∧
      run (showHits query now scored) w₁ = (.ok ctx, w') := by
  rw [retrieveContext_eq_halves] at ran
  obtain ⟨⟨now, scored⟩, w₁, found, answered⟩ := run_bind_eq_ok ran
  exact ⟨now, scored, w₁, found, answered⟩

/-! ### The rows of a query -/

/-- A live row of the query's tenant, visible under its filter. -/
def OwnRow (query : RetrieveQuery) (m : MemoryItem F) : Prop :=
  m.tombstone = false ∧ m.tenant = query.tenant ∧
    query.nsFilter.visible m.namespace m.namespaceKey = true

omit [FloatArith F] in
instance (query : RetrieveQuery) : DecidablePred (OwnRow (F := F) query) :=
  fun m => inferInstanceAs (Decidable (m.tombstone = false ∧ m.tenant = query.tenant ∧
    query.nsFilter.visible m.namespace m.namespaceKey = true))

/-- The rows that the block of an interaction is assembled from. -/
def Db.blockSources (db : Db F) (interactionId : String) : List (MemoryItem F) :=
  blockRows (db.listByInteraction interactionId)

/-- The memory that a neighbour stands for: the own row with this reference, the last
one when there are several. -/
def Db.hitRow (db : Db F) (query : RetrieveQuery) (v : Nat) : Option (MemoryItem F) :=
  ((db.select fun m => decide (OwnRow query m) && m.vectorRef == toString v &&
    decide (v < u64Size)).getLast?).filter query.passes

/-- The rows of so many neighbours can be asked for. -/
def RetrieveQuery.Binds (query : RetrieveQuery) (neighbours : Nat) : Prop :=
  neighbours + 1 + Db.nsVariables query.nsFilter ≤ MAX_VARIABLE_NUMBER

instance (query : RetrieveQuery) (n : Nat) : Decidable (query.Binds n) := Nat.decLe _ _

/-- Some search for the neighbours of a query finds the vector `v`, and does not find so many that
their rows cannot be asked for. -/
def LocalStore.Searchable (s : LocalStore F) (query : RetrieveQuery) (v : Nat) : Prop :=
  ∃ (ann : AnnSearch F) (qvec : List F) (knn : List (Nat × F)), ann.Sound ∧
    s.searchKnn ann qvec query.knnK = .ok knn ∧ query.Binds knn.length ∧ v ∈ knn.map Prod.fst

/-! ### Hits -/

omit [FloatArith F] in
/-- Among the rows of the neighbours, the row of a neighbour is its own row. -/
theorem byVecRef_rows {db : Db F} {query : RetrieveQuery} {knn : List (Nat × F)}
    {rows : List (MemoryItem F)} (h : db.getByVectorRefsTenantScoped (knn.map Prod.fst) query.tenant
      query.nsFilter = .ok rows) {hit : Nat × F} (mem : hit ∈ knn) :
    (byVecRef rows hit.1).filter query.passes = db.hitRow query hit.1 := by
  have inRefs : hit.1 ∈ knn.map Prod.fst := List.mem_map_of_mem mem
  obtain ⟨-, rfl⟩ := Db.getByVectorRefsTenantScoped_eq_ok (List.ne_nil_of_mem inRefs) h
  unfold byVecRef Db.hitRow Db.select
  rw [List.filter_filter]
  congr 3
  funext m
  rw [Bool.eq_iff_iff]
  simp only [Bool.and_eq_true, decide_eq_true_eq, beq_iff_eq, Bool.not_eq_true',
    List.contains_iff_mem, List.mem_map]
  constructor
  · rintro ⟨parsed, ⟨⟨live, owner⟩, visible⟩, v, inKnn, ref⟩
    rw [← ref, parseU64_toString] at parsed
    split_ifs at parsed with small
    cases parsed
    exact ⟨⟨⟨live, owner, visible⟩, ref.symm⟩, small⟩
  · rintro ⟨⟨⟨live, owner, visible⟩, ref⟩, small⟩
    refine ⟨?_, ⟨⟨live, owner⟩, visible⟩, hit.1, List.mem_map.mp inRefs, ref.symm⟩
    rw [ref, parseU64_toString, if_pos small]

omit [FloatArith F] in
theorem RetrieveQuery.Binds.mono {query : RetrieveQuery} {n n' : Nat} (binds : query.Binds n)
    (fewer : n' ≤ n) : query.Binds n' := by
  unfold Binds at *
  omega

omit [FloatArith F] in
/-- Rows that were read could be asked for. -/
theorem binds_of_read {db : Db F} {query : RetrieveQuery} {knn : List (Nat × F)}
    {rows : List (MemoryItem F)} (h : db.getByVectorRefsTenantScoped (knn.map Prod.fst) query.tenant
      query.nsFilter = .ok rows) {v : Nat} (inRefs : v ∈ knn.map Prod.fst) :
    query.Binds knn.length := by
  rw [RetrieveQuery.Binds, ← List.length_map Prod.fst]
  exact (Db.getByVectorRefsTenantScoped_eq_ok (List.ne_nil_of_mem inRefs) h).1

omit [FloatArith F] in
theorem mem_matched {db : Db F} {query : RetrieveQuery} {knn : List (Nat × F)}
    {rows : List (MemoryItem F)} (h : db.getByVectorRefsTenantScoped (knn.map Prod.fst) query.tenant
      query.nsFilter = .ok rows) {m : MemoryItem F} :
    (∃ sim, (m, sim) ∈ matched query rows knn) ↔
      ∃ v ∈ knn.map Prod.fst, db.hitRow query v = some m := by
  unfold matched
  constructor
  · rintro ⟨sim, mem⟩
    obtain ⟨hit, inKnn, found⟩ := List.mem_filterMap.mp mem
    rw [byVecRef_rows h inKnn] at found
    obtain ⟨m', hitRow, same⟩ := Option.map_eq_some_iff.mp found
    cases same
    exact ⟨hit.1, List.mem_map_of_mem inKnn, hitRow⟩
  · rintro ⟨v, inRefs, hitRow⟩
    obtain ⟨hit, inKnn, rfl⟩ := List.mem_map.mp inRefs
    refine ⟨hit.2, List.mem_filterMap.mpr ⟨hit, inKnn, ?_⟩⟩
    rw [byVecRef_rows h inKnn, hitRow]
    rfl

omit [FloatArith F] in
theorem mem_interactionIds {scored : List (MemoryItem F × F)} {ix : String} :
    ix ∈ interactionIds scored ↔ ∃ hit ∈ scored, hit.1.interactionId = ix := by
  simp [interactionIds]

omit [FloatArith F] in
/-- The rows of a known namespace can be read, if their vectors can be asked for. -/
theorem Db.getByVectorRefsTenantScoped_ok (db : Db F) {query : RetrieveQuery}
    {knn : List (Nat × F)} (binds : query.Binds knn.length)
    (valid : isValidNamespace query.nsFilter.namespace = true) :
    ∃ rows, db.getByVectorRefsTenantScoped (knn.map Prod.fst) query.tenant query.nsFilter =
      .ok rows := by
  unfold getByVectorRefsTenantScoped
  rw [nsPredicate_valid valid]
  split_ifs
  · exact ⟨_, rfl⟩
  · rw [RetrieveQuery.Binds, ← List.length_map Prod.fst, ← List.length_map toString] at binds
    exact ⟨_, if_neg (not_lt.mpr binds)⟩

/-! ### Finding -/

theorem run_graphAffinityFrom_db (candidateIds : List String) (hopLimit : Nat)
    (queryIds : List String) :
    ∀ (best a : F) (w w' : World F),
      run (graphAffinityFrom candidateIds hopLimit queryIds best) w = (.ok a, w') →
        w'.db = w.db := by
  induction queryIds with
  | nil =>
      intro best a w w' h
      cases h
      rfl
  | cons q rest ih =>
      intro best a w w' h
      unfold graphAffinityFrom at h
      split_ifs at h with shared
      · cases h
        rfl
      · have read : (PersistOp.nHopReachable q hopLimit : PersistOp F).isRead = true := rfl
        rw [run_persist_bind, w.execPersist_isRead read] at h
        obtain ⟨reachable, w₁, first, h⟩ := run_bind_eq_ok h
        have same : w₁.db = w.db := by
          cases reply : (w.execPersist (.nHopReachable q hopLimit)).1 with
          | error e => rw [reply] at first; cases first
          | ok found => rw [reply] at first; cases first; rfl
        exact (ih _ a w₁ w' h).trans same

/-- Scoring reads the database and keeps the memory of the hit. -/
theorem run_scoreHits_eq_ok {queryEntityIds : List String} {now : Nat}
    {hits scored : List (MemoryItem F × F)} {w w' : World F}
    (h : run (scoreHits queryEntityIds now hits) w = (.ok scored, w')) :
    w'.db = w.db ∧ ∀ hit ∈ scored, ∃ sim, (hit.1, sim) ∈ hits := by
  have step : ∀ (a : MemoryItem F × F) (s : World F) (b : MemoryItem F × F) (s' : World F),
      s.db = w.db → run (do
        let score ← scoreCandidate a.2 a.1 queryEntityIds now
        return (a.1, score)) s = (.ok b, s') → s'.db = w.db ∧ b.1 = a.1 := by
    intro a s b s' inv ran
    obtain ⟨score, s₁, scored, ran⟩ := run_bind_eq_ok ran
    cases ran
    refine ⟨?_, rfl⟩
    unfold scoreCandidate graphAffinity at scored
    dsimp only at scored
    split_ifs at scored
    · cases scored
      exact inv
    · obtain ⟨aff, s₂, graph, scored⟩ := run_bind_eq_ok scored
      cases scored
      exact (run_graphAffinityFrom_db _ _ _ _ _ _ _ graph).trans inv
  obtain ⟨same, related⟩ := run_mapM_eq_ok step rfl h
  refine ⟨same, fun hit mem => ?_⟩
  obtain ⟨a, inHits, fst⟩ := related hit mem
  exact ⟨a.2, fst ▸ inHits⟩

theorem run_queryEntityIds (eng : MemoryEngine) (text : String) (w : World F) :
    ∃ ids w', run (queryEntityIds eng text) w = (.ok ids, w') ∧ w'.env = w.env ∧ w'.db = w.db ∧
      w'.store = w.store ∧ ((∀ t, (w.env.extract t text).success = false) → ids = []) := by
  unfold queryEntityIds
  by_cases extractor : eng.hasExtractor = true
  · rw [if_pos extractor, run_extract_bind]
    refine ⟨_, _, rfl, rfl, rfl, rfl, fun fails => ?_⟩
    simp [fails]
  · rw [if_neg extractor]
    exact ⟨_, _, rfl, rfl, rfl, rfl, fun _ => rfl⟩

/-- Nothing fails, no entity is extracted, every text embeds to `qvec`, and the index
answers as `ann`. -/
def Env.searching (ann : {ann : AnnSearch F // ann.Sound}) (qvec : List F) : Env F :=
  { Env.quiet with
    embed := fun _ _ => .ok qvec
    ann := fun _ => ann }

omit [FloatArith F] in
theorem isValidNamespace_of_visible {ns : NamespaceFilter} {rowNs rowKey : String}
    (visible : ns.visible rowNs rowKey = true) : isValidNamespace ns.namespace = true := by
  unfold NamespaceFilter.visible at visible
  unfold isValidNamespace
  split_ifs at visible <;> simp_all [NamespaceFilter.isActive]

omit [FloatArith F] in
theorem ownRow_of_hitRow {db : Db F} {query : RetrieveQuery} {v : Nat} {m : MemoryItem F}
    (h : db.hitRow query v = some m) : OwnRow query m := by
  obtain ⟨last, -⟩ := Option.filter_eq_some_iff.mp h
  have mem := List.mem_of_getLast? last
  simp only [Db.mem_select, Bool.and_eq_true, decide_eq_true_eq] at mem
  exact mem.2.1.1

theorem run_scoreHits_noEntities (now : Nat) (hits : List (MemoryItem F × F)) (w : World F) :
    run (scoreHits [] now hits) w = (.ok (hits.map fun hit =>
      (hit.1, fuseScore hit.2 (freshnessOf hit.1 now) (FloatArith.ofNat 0))), w) := by
  have step : ∀ (hit : MemoryItem F × F) (s : World F), s = w → ∃ s', run (do
      let score ← scoreCandidate hit.2 hit.1 [] now
      return (hit.1, score)) s = (.ok (hit.1, fuseScore hit.2 (freshnessOf hit.1 now)
        (FloatArith.ofNat 0)), s') ∧ s' = w := fun hit s inv => ⟨s, rfl, inv⟩
  obtain ⟨w', ran, rfl⟩ := run_mapM_ok step hits rfl
  exact ran

theorem run_buildBlocks_noFaults (scored : List (MemoryItem F × F)) {w : World F}
    (quiet : w.env.NoFaults) :
    ∃ w', run (buildBlocks scored) w = (.ok ((interactionIds scored).map fun ix =>
      assembleBlock ix (bestScore scored ix) (w.db.blockSources ix)), w') ∧ w'.env.NoFaults := by
  have step : ∀ (ix : String) (s : World F), s.env.NoFaults ∧ s.db = w.db → ∃ s', run (do
      let rows : List (MemoryItem F) ← persistOrFail (.listByInteraction ix)
      return assembleBlock ix (bestScore scored ix) (blockRows rows)) s =
        (.ok (assembleBlock ix (bestScore scored ix) (w.db.blockSources ix)), s') ∧
          s'.env.NoFaults ∧ s'.db = w.db := by
    rintro ix s ⟨noFaults, same⟩
    rw [run_persistOrFail_bind, World.execPersist_eq noFaults, same]
    exact ⟨_, rfl, noFaults, rfl⟩
  obtain ⟨w', ran, noFaults, -⟩ := run_mapM_ok step (interactionIds scored) ⟨quiet, rfl⟩
  exact ⟨w', ran, noFaults⟩

/-- Scoring keeps the memories of the hits, in their order. -/
theorem run_scoreHits_memories {queryEntityIds : List String} {now : Nat}
    {hits scored : List (MemoryItem F × F)} {w w' : World F}
    (h : run (scoreHits queryEntityIds now hits) w = (.ok scored, w')) :
    scored.map Prod.fst = hits.map Prod.fst := by
  have step : ∀ (a : MemoryItem F × F) (s : World F) (b : MemoryItem F × F) (s' : World F),
      True → run (do
        let score ← scoreCandidate a.2 a.1 queryEntityIds now
        return (a.1, score)) s = (.ok b, s') → True ∧ a.1 = b.1 := by
    intro a s b s' _ ran
    obtain ⟨score, s₁, -, ran⟩ := run_bind_eq_ok ran
    cases ran
    exact ⟨trivial, rfl⟩
  obtain ⟨-, related⟩ := run_mapM_forall₂ step trivial h
  have same := List.forall₂_map_left_iff.mpr (List.forall₂_map_right_iff.mpr related)
  rw [List.forall₂_eq_eq_eq] at same
  exact same.symm

/-- What a query has found: the own rows of its neighbours that pass the filters. -/
theorem run_retrieveHits_eq_ok {eng : MemoryEngine} {query : RetrieveQuery} {w w₁ : World F}
    {now : Nat} {scored : List (MemoryItem F × F)}
    (ran : run (retrieveHits eng query) w = (.ok (now, scored), w₁)) :
    w₁.db = w.db ∧ ∃ t t' qvec knn hits, w.env.embed t' query.text = .ok qvec ∧
      w.store.searchKnn (w.env.ann t).1 qvec query.knnK = .ok knn ∧
      w.db.getByVectorRefsTenantScoped (knn.map Prod.fst) query.tenant query.nsFilter = .ok hits ∧
      scored.map Prod.fst = (matched query hits knn).map Prod.fst := by
  unfold retrieveHits at ran
  rw [run_nowMs_bind] at ran
  obtain ⟨ids, w₂, asked, env₂, db₂, store₂, -⟩ := run_queryEntityIds eng query.text w.next
  rw [run_bind_ok asked, run_embed_bind] at ran
  obtain ⟨qvec, w₃, embedded, ran⟩ := run_bind_eq_ok ran
  obtain ⟨reply, rfl⟩ : w₂.env.embed w₂.tick query.text = .ok qvec ∧ w₃ = w₂.next := by
    cases reply : w₂.env.embed w₂.tick query.text with
    | error e => rw [reply] at embedded; cases embedded
    | ok v => rw [reply] at embedded; cases embedded; exact ⟨rfl, rfl⟩
  obtain ⟨knn, w₄, searching, ran⟩ := run_bind_eq_ok ran
  obtain ⟨searched, rfl⟩ := run_searchKnn_eq_ok searching
  obtain ⟨hits, w₅, reading, ran⟩ := run_bind_eq_ok ran
  obtain ⟨read, rfl⟩ := run_persistOrFail_read rfl reading
  obtain ⟨scored', w₆, scoring, ran⟩ := run_bind_eq_ok ran
  obtain ⟨db₆, -⟩ := run_scoreHits_eq_ok scoring
  cases ran
  rw [World.next_store, store₂, World.next_store, World.next_env, env₂, World.next_env] at searched
  rw [World.withStore_db, World.next_db, db₂, World.next_db] at read
  rw [World.withDb_db, World.withStore_db, World.next_db, db₂, World.next_db] at db₆
  rw [env₂, World.next_env] at reply
  exact ⟨db₆, _, _, qvec, knn, hits, reply, searched, read, run_scoreHits_memories scoring⟩

/-- Every memory found is the own row of a vector that the search can find. -/
theorem hitRow_of_retrieveHits {eng : MemoryEngine} {query : RetrieveQuery} {w w₁ : World F}
    {now : Nat} {scored : List (MemoryItem F × F)}
    (ran : run (retrieveHits eng query) w = (.ok (now, scored), w₁)) {hit : MemoryItem F × F}
    (mem : hit ∈ scored) :
    ∃ v, w.store.Searchable query v ∧ w.db.hitRow query v = some hit.1 := by
  obtain ⟨-, t, -, qvec, knn, hits, -, searched, read, memories⟩ := run_retrieveHits_eq_ok ran
  have inMatched : hit.1 ∈ (matched query hits knn).map Prod.fst :=
    memories ▸ List.mem_map_of_mem mem
  obtain ⟨⟨m, sim⟩, listed, same⟩ := List.mem_map.mp inMatched
  obtain ⟨v, inRefs, hitRow⟩ := (mem_matched read).mp ⟨sim, listed⟩
  exact ⟨v, ⟨_, qvec, knn, (w.env.ann t).2, searched, binds_of_read read inRefs, inRefs⟩,
    same ▸ hitRow⟩

/-- With nothing failing, a query finds the own rows of whatever the search names. -/
theorem run_retrieveHits_searching (eng : MemoryEngine) (query : RetrieveQuery) (db : Db F)
    (s : LocalStore F) (ann : {ann : AnnSearch F // ann.Sound}) {qvec : List F}
    {knn : List (Nat × F)} (searched : s.searchKnn ann.1 qvec query.knnK = .ok knn)
    {hits : List (MemoryItem F)} (read : db.getByVectorRefsTenantScoped (knn.map Prod.fst)
      query.tenant query.nsFilter = .ok hits) :
    ∃ now scored w₁, run (retrieveHits eng query) (World.fresh (.searching ann qvec) db s) =
        (.ok (now, scored), w₁) ∧ w₁.env.NoFaults ∧ w₁.db = db ∧
      scored.map Prod.fst = (matched query hits knn).map Prod.fst := by
  have quiet : (Env.searching ann qvec).NoFaults := ⟨fun _ _ => rfl, fun _ _ => rfl⟩
  generalize start : World.fresh (.searching ann qvec) db s = w
  have env₀ : w.env = .searching ann qvec := start ▸ rfl
  have db₀ : w.db = db := start ▸ rfl
  have store₀ : w.store = s := start ▸ rfl
  obtain ⟨ids, w₁, asked, env₁, db₁, store₁, noIds⟩ := run_queryEntityIds eng query.text w.next
  obtain rfl : ids = [] := noIds fun t => by rw [World.next_env, env₀]; rfl
  have envs : w₁.env = .searching ann qvec := by rw [env₁, World.next_env, env₀]
  have embedded : w₁.env.embed w₁.tick query.text = .ok qvec := by
    rw [envs]
    rfl
  have searching : run (storeOrFail (.searchKnn qvec query.knnK)) w₁.next =
      (.ok knn, w₁.next.withStore s) := by
    rw [run_storeOrFail, World.execStore_eq (by rw [World.next_env, envs]; exact quiet),
      World.next_env, envs, World.next_store, store₁, World.next_store, store₀]
    change ((s.searchKnn ann.1 qvec query.knnK).mapError _, _) = _
    rw [searched]
    rfl
  have reading : run (persistOrFail (.getByVectorRefsTenantScoped (knn.map Prod.fst) query.tenant
      query.nsFilter)) (w₁.next.withStore s) = (.ok hits, (w₁.next.withStore s).withDb db) := by
    rw [run_persistOrFail, World.execPersist_eq (by
      rw [World.withStore_env, World.next_env, envs]; exact quiet), World.withStore_db,
      World.next_db, db₁, World.next_db, db₀]
    change ((db.getByVectorRefsTenantScoped _ _ _).mapError _, _) = _
    rw [read]
    rfl
  unfold retrieveHits
  rw [run_nowMs_bind, run_bind_ok asked, run_embed_bind, embedded]
  change ∃ now scored w₁', run (storeOrFail (.searchKnn qvec query.knnK) >>= _) w₁.next = _ ∧ _
  rw [run_bind_ok searching]
  change ∃ now scored w₁', run (persistOrFail (.getByVectorRefsTenantScoped _ query.tenant
    query.nsFilter) >>= _) _ = _ ∧ _
  rw [run_bind_ok reading]
  rw [run_bind_ok (run_scoreHits_noEntities _ _ _)]
  refine ⟨_, _, _, rfl, ?_, rfl, ?_⟩
  · rw [World.withDb_env, World.withStore_env, World.next_env, envs]
    exact quiet
  · rw [List.map_map]
    rfl

theorem run_graphAffinityFrom_noFaults (candidateIds : List String) (hopLimit : Nat)
    (queryIds : List String) :
    ∀ (best : F) (w : World F), w.env.NoFaults → ∃ a w',
      run (graphAffinityFrom candidateIds hopLimit queryIds best) w = (.ok a, w') ∧
        w'.env.NoFaults := by
  induction queryIds with
  | nil => exact fun best w quiet => ⟨best, w, rfl, quiet⟩
  | cons q rest ih =>
      intro best w quiet
      unfold graphAffinityFrom
      split_ifs with shared
      · exact ⟨_, w, rfl, quiet⟩
      · rw [run_persist_bind, World.execPersist_eq quiet]
        exact ih _ _ quiet

/-- With storage that does not fail and a text that can be embedded, a query finds its hits. -/
theorem run_retrieveHits_noFaults (eng : MemoryEngine) (query : RetrieveQuery) {w : World F}
    (quiet : w.env.NoFaults) (binds : query.Binds query.knnK)
    (embeds : ∀ t, ∃ qvec, w.env.embed t query.text = .ok qvec ∧ qvec.length = w.store.dim)
    (valid : isValidNamespace query.nsFilter.namespace = true) :
    ∃ now scored w₁, run (retrieveHits eng query) w = (.ok (now, scored), w₁) := by
  obtain ⟨ids, w₁, asked, env₁, db₁, store₁, -⟩ := run_queryEntityIds eng query.text w.next
  have quiet₁ : w₁.next.env.NoFaults := by
    rw [World.next_env, env₁]
    exact quiet
  obtain ⟨qvec, embedded, fits⟩ := embeds w₁.tick
  obtain ⟨knn, searched⟩ : ∃ knn, w₁.next.store.searchKnn (w₁.next.env.ann w₁.next.tick).1 qvec
      query.knnK = .ok knn := by
    unfold LocalStore.searchKnn
    rw [if_neg (by rw [World.next_store, store₁]; exact not_not.mpr fits)]
    dsimp only
    split_ifs <;> exact ⟨_, rfl⟩
  have searching : run (storeOrFail (.searchKnn qvec query.knnK)) w₁.next =
      (.ok knn, w₁.next.withStore w₁.next.store) := by
    rw [run_storeOrFail, World.execStore_eq quiet₁]
    change ((w₁.next.store.searchKnn _ qvec query.knnK).mapError _, _) = _
    rw [searched]
    rfl
  have fewer := LocalStore.length_searchKnn_le (w₁.next.env.ann w₁.next.tick).2 searched
  obtain ⟨hits, read⟩ := Db.getByVectorRefsTenantScoped_ok w₁.next.db (binds.mono fewer)
    valid
  have reading : run (persistOrFail (.getByVectorRefsTenantScoped (knn.map Prod.fst) query.tenant
      query.nsFilter)) (w₁.next.withStore w₁.next.store) =
        (.ok hits, (w₁.next.withStore w₁.next.store).withDb w₁.next.db) := by
    have works : (w₁.next.withStore w₁.next.store).env.NoFaults := quiet₁
    rw [run_persistOrFail, World.execPersist_eq works]
    change ((w₁.next.db.getByVectorRefsTenantScoped _ _ _).mapError _, _) = _
    rw [read]
    rfl
  have step : ∀ (hit : MemoryItem F × F) (s : World F), s.env.NoFaults → ∃ b s', run (do
      let score ← scoreCandidate hit.2 hit.1 ids (w.env.clock w.tick)
      return (hit.1, score)) s = (.ok b, s') ∧ s'.env.NoFaults := by
    intro hit s noFaults
    unfold scoreCandidate graphAffinity
    dsimp only
    split_ifs
    · exact ⟨_, s, rfl, noFaults⟩
    · obtain ⟨a, s', graph, left⟩ := run_graphAffinityFrom_noFaults (entityIds hit.1.entities)
        (max 1 (min GRAPH_HOP_LIMIT GRAPH_HOP_LIMIT)) ids (FloatArith.ofNat 0) s noFaults
      refine ⟨(hit.1, fuseScore hit.2 (freshnessOf hit.1 (w.env.clock w.tick)) a), s', ?_, left⟩
      rw [bind_assoc, run_bind_ok graph]
      rfl
  obtain ⟨scored, w₂, scoring, -⟩ := run_mapM_exists step (matched query hits knn)
    (w := (w₁.next.withStore w₁.next.store).withDb w₁.next.db) quiet₁
  unfold retrieveHits
  rw [run_nowMs_bind, run_bind_ok asked, run_embed_bind, env₁, World.next_env, embedded]
  change ∃ now scored w', run (storeOrFail (.searchKnn qvec query.knnK) >>= _) w₁.next = _
  rw [run_bind_ok searching]
  change ∃ now scored w', run (persistOrFail (.getByVectorRefsTenantScoped _ query.tenant
    query.nsFilter) >>= _) _ = _
  rw [run_bind_ok reading]
  exact ⟨_, scored, w₂, run_bind_ok scoring⟩

/-! ### Showing -/

/-- The blocks of the hits' interactions, as the database has them. -/
def groupBlocks (db : Db F) (scored : List (MemoryItem F × F)) : List (ContextBlock F) :=
  (interactionIds scored).map fun ix =>
    assembleBlock ix (bestScore scored ix) (db.blockSources ix)

/-- Every interaction has one block. -/
theorem groupBlocks_distinct (db : Db F) (scored : List (MemoryItem F × F)) :
    ((groupBlocks db scored).map (·.interactionId)).Nodup := by
  have ids : (groupBlocks db scored).map (·.interactionId) = interactionIds scored := by
    unfold groupBlocks
    rw [List.map_map]
    exact List.map_id _
  rw [ids]
  exact (List.perm_insertionSort _ _).nodup_iff.mpr (List.nodup_dedup _)

theorem run_buildBlocks_groupBlocks {scored : List (MemoryItem F × F)}
    {blocks : List (ContextBlock F)} {w w' : World F}
    (h : run (buildBlocks scored) w = (.ok blocks, w')) :
    blocks = groupBlocks w.db scored ∧ w'.db = w.db := by
  have step : ∀ (ix : String) (s : World F) (b : ContextBlock F) (s' : World F), s.db = w.db →
      run (do
        let rows : List (MemoryItem F) ← persistOrFail (.listByInteraction ix)
        return assembleBlock ix (bestScore scored ix) (blockRows rows)) s = (.ok b, s') →
      s'.db = w.db ∧ assembleBlock ix (bestScore scored ix) (w.db.blockSources ix) = b := by
    intro ix s b s' inv ran
    obtain ⟨rows, s₁, read, ran⟩ := run_bind_eq_ok ran
    obtain ⟨found, rfl⟩ := run_persistOrFail_read rfl read
    cases found
    cases ran
    refine ⟨inv, ?_⟩
    rw [inv]
    rfl
  obtain ⟨same, related⟩ := run_mapM_forall₂ step rfl h
  have all := List.forall₂_map_left_iff.mpr related
  rw [List.forall₂_eq_eq_eq] at all
  exact ⟨all.symm, same⟩

omit [FloatArith F] in
theorem Db.touchAccessBatch_nil (db : Db F) (now : Nat) : db.touchAccessBatch [] now = db := by
  have same : db.memoryItem.update (fun m => [].contains m.id && !m.tombstone)
      (fun m => { m with accessCount := m.accessCount + 1, lastAccessedTimestamp := now })
      (fun _ => rfl) = db.memoryItem := by
    apply Table.ext
    exact List.map_id _
  unfold touchAccessBatch
  rw [same]

/-- A touch leaves the counted accesses, or with a failing call nothing. -/
theorem run_touch_db (ids : List String) (now : Nat) (w : World F) :
    ∃ w', run (touch ids now) w = (.ok (), w') ∧
      (w'.db = w.db ∨ w'.db = w.db.touchAccessBatch ids now) ∧
      (w.env.NoFaults → w'.db = w.db.touchAccessBatch ids now) := by
  unfold touch
  by_cases none : ids.isEmpty = true
  · rw [if_pos none, List.isEmpty_iff.mp none, Db.touchAccessBatch_nil]
    exact ⟨w, rfl, .inl rfl, fun _ => rfl⟩
  · rw [if_neg none]
    refine ⟨_, rfl, ?_⟩
    have counted := (w.next.setHeld true .touch).execPersist_cases (.touchAccessBatch ids now)
    have written : (w.next.setHeld true .touch).db = w.db := World.setHeld_db _ _ _
    rw [written] at counted
    constructor
    · rcases counted with works | ⟨e, writes, fault⟩
      · exact .inr (congrArg Prod.snd works)
      · refine .inl ((congrArg Prod.snd fault).trans ?_)
        cases ids with
        | nil => rfl
        | cons id rest => rfl
    · intro quiet
      have works := World.execPersist_eq (w := w.next.setHeld true .touch) quiet
        (.touchAccessBatch ids now)
      rw [written] at works
      exact congrArg Prod.snd works

omit [FloatArith F] in
/-- The audit entry leaves the memories alone. -/
theorem memoryItem_appendAudit (w : World F) («at» : Nat) (actor action targetId detail : String) :
    (w.execPersist (.appendAudit «at» actor action targetId detail)).2.memoryItem =
      w.db.memoryItem := by
  rcases w.execPersist_cases (.appendAudit «at» actor action targetId detail) with
    works | ⟨e, writes, fault⟩
  · rw [works]
    rfl
  · rw [fault]
    rfl

/-- What a query answers: the ranked blocks within its budget. Of the memories, only those of
the hits behind these blocks can have one more access. -/
theorem run_showHits_eq_ok {query : RetrieveQuery} {now : Nat}
    {scored : List (MemoryItem F × F)} {w w' : World F} {ctx : FormattedContext F}
    (ran : run (showHits query now scored) w = (.ok ctx, w')) :
    (ctx.blocks, ctx.totalTokens) =
        takeBudget query.tokenBudget (rankBlocks (groupBlocks w.db scored)) 0 [] ∧
      (w'.db.memoryItem = w.db.memoryItem ∨ w'.db.memoryItem =
        (w.db.touchAccessBatch (sortedGroupsTurnIds scored ctx.blocks) now).memoryItem) := by
  unfold showHits at ran
  obtain ⟨blocks, w₁, building, ran⟩ := run_bind_eq_ok ran
  obtain ⟨rfl, db₁⟩ := run_buildBlocks_groupBlocks building
  generalize cut : takeBudget query.tokenBudget (rankBlocks (groupBlocks w.db scored)) 0 [] = kept
    at ran ⊢
  obtain ⟨w₂, touched, left, -⟩ := run_touch_db (sortedGroupsTurnIds scored kept.1) now w₁
  dsimp only at ran
  rw [run_bind_ok touched, run_persist_bind, run_loadStaleFlag_bind, run_loadLastSyncAt_bind] at ran
  cases ran
  refine ⟨rfl, ?_⟩
  rw [World.next_db, World.next_db, World.withDb_db, memoryItem_appendAudit]
  rw [db₁] at left
  exact left.imp (congrArg _) (congrArg _)

/-- With storage that does not fail, the query answers and counts the hits of its blocks. -/
theorem run_showHits_noFaults (query : RetrieveQuery) (now : Nat)
    (scored : List (MemoryItem F × F)) {w : World F} (quiet : w.env.NoFaults) :
    ∃ ctx w', run (showHits query now scored) w = (.ok ctx, w') ∧
      w'.db.memoryItem =
        (w.db.touchAccessBatch (sortedGroupsTurnIds scored ctx.blocks) now).memoryItem := by
  unfold showHits
  obtain ⟨w₁, building, env₁⟩ : ∃ w₁, run (buildBlocks scored) w =
      (.ok (groupBlocks w.db scored), w₁) ∧ w₁.env.NoFaults := run_buildBlocks_noFaults scored quiet
  obtain ⟨-, db₁⟩ := run_buildBlocks_groupBlocks building
  generalize cut : takeBudget query.tokenBudget (rankBlocks (groupBlocks w.db scored)) 0 [] = kept
  obtain ⟨w₂, touched, -, left⟩ := run_touch_db (sortedGroupsTurnIds scored kept.1) now w₁
  rw [run_bind_ok building, cut]
  dsimp only
  rw [run_bind_ok touched, run_persist_bind, run_loadStaleFlag_bind, run_loadLastSyncAt_bind]
  refine ⟨_, _, rfl, ?_⟩
  rw [World.next_db, World.next_db, World.withDb_db, memoryItem_appendAudit, left env₁, db₁]

end FusionMemory
