import FusionMemory.Engine.RetrieveHits
import FusionMemory.Store.Search

/-!
How many of its own memories a query finds.

The store searches the vectors of all tenants and namespaces together, for `top_k` neighbours,
or four times as many under a namespace filter; the filters come after. With a store that finds
the nearest vectors, a query finds `min k n` of the `n` memories it may see as long as not too
many other vectors are as near (`scoped_retrieval_fills`); other tenants' vectors can take all the
places (`foreign_vector_takes_place`).
-/

namespace FusionMemory

open Lib

variable {F : Type} [FloatArith F]

/-! ### Exact search -/

namespace LocalStore

/-- The similarity of a live vector to the query. -/
def simOf (s : LocalStore F) (query : List F) (id : Nat) : F :=
  cosineSim query ((s.getVector id).getD [])

/-- The `k` live vectors nearest to the query, or all of them, each once. -/
structure Nearest (s : LocalStore F) (query : List F) (k : Nat) (hits : List (Nat × F)) :
    Prop where
  distinct : (hits.map Prod.fst).Nodup
  live : ∀ id ∈ hits.map Prod.fst, id ∈ s.listVectorIds
  count : hits.length = min k s.listVectorIds.length
  nearest : ∀ id ∈ hits.map Prod.fst, ∀ other ∈ s.listVectorIds, other ∉ hits.map Prod.fst →
    FloatArith.lt (s.simOf query id) (s.simOf query other) = false

/-- Every search finds the nearest. -/
def SearchesNearest (s : LocalStore F) (ann : AnnSearch F) : Prop :=
  ∀ query k hits, s.searchKnn ann query k = .ok hits → s.Nearest query k hits

theorem sound_nothing {F : Type} : AnnSearch.Sound (F := F) fun _ _ _ => [] :=
  fun _ _ _ => ⟨Nat.zero_le _, fun _ none => (by cases none)⟩

/-- The index that answers nothing: the store scans its vectors. -/
def scanOnly : {ann : AnnSearch F // ann.Sound} := ⟨fun _ _ _ => [], sound_nothing⟩

variable {s : LocalStore F}

theorem sortBySim_sorted (asymm : ∀ a b : F, FloatArith.lt a b = true → FloatArith.lt b a = false)
    (trans : ∀ a b c : F, FloatArith.lt a b = false → FloatArith.lt b c = false →
      FloatArith.lt a c = false) (hits : List (Nat × F)) :
    (sortBySim hits).Pairwise fun a b => FloatArith.lt a.2 b.2 = false := by
  have total : Std.Total fun a b : Nat × F => FloatArith.descending a.2 b.2 = true := ⟨fun a b => by
    rw [FloatArith.descending_iff, FloatArith.descending_iff]
    cases lt : FloatArith.lt a.2 b.2 with
    | false => exact .inl rfl
    | true => exact .inr (asymm _ _ lt)⟩
  have transitive : IsTrans (Nat × F) fun a b => FloatArith.descending a.2 b.2 = true :=
    ⟨fun a b c ab bc => FloatArith.descending_iff.mpr
      (trans _ _ _ (FloatArith.descending_iff.mp ab) (FloatArith.descending_iff.mp bc))⟩
  exact (List.pairwise_insertionSort (fun a b : Nat × F =>
    FloatArith.descending a.2 b.2 = true) hits).imp FloatArith.descending_iff.mp

theorem others_simOf {query : List F} {out : List (Nat × F)} {hit : Nat × F}
    (mem : hit ∈ s.others query out) : hit.2 = s.simOf query hit.1 := by
  obtain ⟨p, kept, rfl⟩ := List.mem_map.mp mem
  obtain ⟨row, conditions⟩ := List.mem_filter.mp kept
  rw [Bool.and_eq_true, Bool.not_eq_true', Bool.not_eq_true'] at conditions
  have held : s.getVector p.1 = some p.2 :=
    getVector_eq_some.mpr ⟨(List.mem_insertionSort _).mp row, conditions.2⟩
  unfold simOf
  rw [held]
  rfl

/-- Without an index the store scans its vectors, and finds the nearest. -/
theorem searchesNearest_scan
    (asymm : ∀ a b : F, FloatArith.lt a b = true → FloatArith.lt b a = false)
    (trans : ∀ a b c : F, FloatArith.lt a b = false → FloatArith.lt b c = false →
      FloatArith.lt a c = false) (s : LocalStore F) : s.SearchesNearest scanOnly.1 := by
  intro query k hits found
  have fits : query.length = s.dim := by
    by_contra other
    unfold searchKnn at found
    rw [if_pos other] at found
    cases found
  set ranked := sortBySim (s.others query []) with rankedEq
  have sorted := sortBySim_sorted asymm trans (s.others query [])
  rw [← rankedEq] at sorted
  have ids : (ranked.map Prod.fst).Perm s.listVectorIds := by
    refine ((sortBySim_perm _).map _).trans ?_
    rw [others_ids]
    simp
  have answer : hits.Perm (ranked.take k) := by
    rw [searchKnn_eq fits] at found
    have none : s.nearby scanOnly.1 query k = [] := rfl
    rw [none, List.length_nil, Nat.sub_zero, List.nil_append, ← rankedEq] at found
    split_ifs at found with some
    · cases found
      exact sortBySim_perm _
    · cases found
      rw [Nat.eq_zero_of_not_pos some, List.take_zero]
  have named : ∀ id, id ∈ hits.map Prod.fst ↔ id ∈ (ranked.take k).map Prod.fst :=
    fun id => (answer.map Prod.fst).mem_iff
  refine ⟨?_, fun id mem => ?_, ?_, fun id mem other listed missed => ?_⟩
  · rw [(answer.map Prod.fst).nodup_iff]
    exact (ids.nodup_iff.mpr s.listVectorIds_nodup).sublist ((List.take_sublist _ _).map _)
  · exact ids.mem_iff.mp (((List.take_sublist _ _).map _).subset ((named id).mp mem))
  · rw [answer.length_eq, List.length_take, ← ids.length_eq, List.length_map]
  · obtain ⟨hit, taken, rfl⟩ := List.mem_map.mp ((named id).mp mem)
    obtain ⟨hit', inRanked, rfl⟩ := List.mem_map.mp (ids.mem_iff.mpr listed)
    have left : hit' ∈ ranked.drop k := by
      rw [← List.take_append_drop k ranked] at inRanked
      rcases List.mem_append.mp inRanked with first | last
      · exact absurd ((named _).mpr (List.mem_map_of_mem first)) missed
      · exact last
    rw [← List.take_append_drop k ranked] at sorted
    have order := (List.pairwise_append.mp sorted).2.2 hit taken hit' left
    rw [others_simOf (mem_sortBySim.mp (List.mem_of_mem_take taken)),
      others_simOf (mem_sortBySim.mp (List.mem_of_mem_drop left))] at order
    exact order

end LocalStore

/-! ### The memories of a query -/

/-- The query asks for no session and no tier. -/
def RetrieveQuery.Unfiltered (query : RetrieveQuery) : Prop :=
  query.sessionId = none ∧ query.tierFilter = none

/-- Live memories that the query may see, each with a live vector of its own. -/
structure OwnMemories (db : Db F) (s : LocalStore F) (query : RetrieveQuery)
    (ms : List (MemoryItem F)) : Prop where
  stored : ∀ m ∈ ms, m ∈ db.memoryItem.rows ∧ OwnRow query m
  vectors : ∀ m ∈ ms, ∃ v ∈ s.listVectorIds, v < u64Size ∧ m.vectorRef = toString v
  distinct : (ms.map (·.vectorRef)).Nodup

/-- The live vectors that stand for no memory of the query. -/
def foreignVectors (db : Db F) (s : LocalStore F) (query : RetrieveQuery) : List Nat :=
  s.listVectorIds.filter fun v => (db.hitRow query v).isNone

/-- The vector that a memory refers to. -/
def vectorOf (m : MemoryItem F) : Nat := (parseU64 m.vectorRef).getD 0

/-- There is room for `needed` of the memories among the `knn_k` nearest: some `needed` of them
have no more than `knn_k - needed` foreign vectors that are as near as one of theirs. -/
def HasRoom (db : Db F) (s : LocalStore F) (query : RetrieveQuery) (qvec : List F)
    (ms : List (MemoryItem F)) (needed : Nat) : Prop :=
  ∃ near : List (MemoryItem F), near.Subperm ms ∧ near.length = needed ∧
    ((foreignVectors db s query).filter fun v => near.any fun m =>
      !FloatArith.lt (s.simOf qvec v) (s.simOf qvec (vectorOf m))).length + needed ≤ query.knnK

section Own

omit [FloatArith F]

variable {db : Db F} {s : LocalStore F} {query : RetrieveQuery} {ms : List (MemoryItem F)}

theorem RetrieveQuery.Unfiltered.passes (unfiltered : query.Unfiltered) (m : MemoryItem F) :
    query.passes m = true := by
  unfold RetrieveQuery.passes
  rw [unfiltered.1, unfiltered.2]
  rfl

theorem OwnMemories.vectorOf_ref (own : OwnMemories db s query ms) {m : MemoryItem F}
    (mem : m ∈ ms) : vectorOf m ∈ s.listVectorIds ∧ vectorOf m < u64Size ∧
      m.vectorRef = toString (vectorOf m) := by
  obtain ⟨v, listed, small, ref⟩ := own.vectors m mem
  have same : vectorOf m = v := by
    unfold vectorOf
    rw [ref, parseU64_toString, if_pos small]
    rfl
  rw [same]
  exact ⟨listed, small, ref⟩

theorem OwnMemories.vectors_nodup (own : OwnMemories db s query ms) :
    (ms.map vectorOf).Nodup := by
  have refs : ms.map (·.vectorRef) = (ms.map vectorOf).map toString := by
    rw [List.map_map]
    exact List.map_congr_left fun m mem => (own.vectorOf_ref mem).2.2
  exact List.Nodup.of_map _ (refs ▸ own.distinct)

/-- The vector of an own memory stands for a memory of the query. -/
theorem OwnMemories.hitRow_isSome (own : OwnMemories db s query ms)
    (unfiltered : query.Unfiltered) {m : MemoryItem F} (mem : m ∈ ms) :
    (db.hitRow query (vectorOf m)).isSome = true := by
  obtain ⟨-, small, ref⟩ := own.vectorOf_ref mem
  obtain ⟨stored, owned⟩ := own.stored m mem
  unfold Db.hitRow
  cases last : (db.select fun r => decide (OwnRow query r) && r.vectorRef == toString (vectorOf m) &&
      decide (vectorOf m < u64Size)).getLast? with
  | none =>
      have empty := List.getLast?_eq_none_iff.mp last
      have selected : m ∈ db.select fun r => decide (OwnRow query r) &&
          r.vectorRef == toString (vectorOf m) && decide (vectorOf m < u64Size) := by
        simp [stored, owned, small, ← ref]
      rw [empty] at selected
      cases selected
  | some row =>
      rw [Option.filter_some, unfiltered.passes row]
      rfl

/-- The memories matched are those that the neighbours stand for. -/
theorem matched_vectors {rows : List (MemoryItem F)} {knn : List (Nat × F)}
    (read : db.getByVectorRefsTenantScoped (knn.map Prod.fst) query.tenant query.nsFilter =
      .ok rows) :
    (matched query rows knn).map Prod.fst = (knn.map Prod.fst).filterMap (db.hitRow query) := by
  unfold matched
  rw [List.map_filterMap, List.filterMap_map]
  refine List.filterMap_congr fun hit mem => ?_
  rw [byVecRef_rows read mem, Option.map_map]
  exact Option.map_id'

theorem row_of_hitRow {v : Nat} {m : MemoryItem F} (found : db.hitRow query v = some m) :
    m ∈ db.memoryItem.rows ∧ vectorOf m = v := by
  obtain ⟨last, -⟩ := Option.filter_eq_some_iff.mp found
  have mem := List.mem_of_getLast? last
  simp only [Db.mem_select, Bool.and_eq_true, decide_eq_true_eq, beq_iff_eq] at mem
  obtain ⟨row, ⟨-, ref⟩, small⟩ := mem
  refine ⟨row, ?_⟩
  unfold vectorOf
  rw [ref, parseU64_toString, if_pos small]
  rfl

/-- Distinct vectors stand for distinct memories. -/
theorem hitRows_nodup {ids : List Nat} (distinct : ids.Nodup) :
    (ids.filterMap (db.hitRow query)).Nodup :=
  distinct.filterMap fun _ _ _ found found' =>
    (row_of_hitRow found).2.symm.trans (row_of_hitRow found').2

end Own

/-! ### Filling the result -/

/-- With room for them, the nearest vectors have `needed` own ones. -/
theorem own_hits_of_room {db : Db F} {s : LocalStore F} {query : RetrieveQuery} {qvec : List F}
    {ms : List (MemoryItem F)} {needed : Nat} {knn : List (Nat × F)}
    (nearest : s.Nearest qvec query.knnK knn) (owns : OwnMemories db s query ms)
    (unfiltered : query.Unfiltered) (room : HasRoom db s query qvec ms needed) :
    needed ≤ ((knn.map Prod.fst).filter fun v => (db.hitRow query v).isSome).length := by
  obtain ⟨some, sub, size, crowd⟩ := room
  set near := some.map vectorOf with nearEq
  have distinct : near.Nodup := by
    obtain ⟨chosen, perm, sublist⟩ := sub
    exact (perm.map vectorOf).nodup_iff.mp (owns.vectors_nodup.sublist (sublist.map vectorOf))
  have own : ∀ v ∈ near, v ∈ s.listVectorIds ∧ (db.hitRow query v).isSome = true := by
    intro v mem
    obtain ⟨m, inSome, rfl⟩ := List.mem_map.mp mem
    exact ⟨(owns.vectorOf_ref (sub.subset inSome)).1,
      owns.hitRow_isSome unfiltered (sub.subset inSome)⟩
  have count : near.length = needed := by rw [nearEq, List.length_map, size]
  set ids := knn.map Prod.fst with idsEq
  by_contra few
  obtain ⟨o, isNear, missed⟩ : ∃ o ∈ near, o ∉ ids := by
    by_contra all
    push Not at all
    have sub : near.Subperm (ids.filter fun v => (db.hitRow query v).isSome) :=
      distinct.subperm fun v mem => List.mem_filter.mpr ⟨all v mem, (own v mem).2⟩
    have := sub.length_le
    omega
  -- One own vector was left out, so the search is full and all of it is as near.
  have full : ids.length = query.knnK := by
    have count := nearest.count
    rw [idsEq, List.length_map, count]
    by_contra short
    have covers : ids.length = s.listVectorIds.length := by
      rw [idsEq, List.length_map, count]
      omega
    have same : ids.Perm s.listVectorIds :=
      (nearest.distinct.subperm nearest.live).perm_of_length_le covers.ge
    exact missed (same.mem_iff.mpr (own o isNear).1)
  have crowded : (ids.filter fun v => !(db.hitRow query v).isSome).Subperm
      ((foreignVectors db s query).filter fun v => some.any fun m =>
        !FloatArith.lt (s.simOf qvec v) (s.simOf qvec (vectorOf m))) := by
    obtain ⟨m, inSome, rfl⟩ := List.mem_map.mp isNear
    refine (nearest.distinct.filter _).subperm fun v mem => ?_
    obtain ⟨listed, foreign⟩ := List.mem_filter.mp mem
    refine List.mem_filter.mpr ⟨List.mem_filter.mpr ⟨nearest.live v listed, ?_⟩, ?_⟩
    · simpa using foreign
    · exact List.any_eq_true.mpr ⟨m, inSome, by
        rw [nearest.nearest v listed _ (own _ isNear).1 missed]; rfl⟩
  have split := (List.filter_append_perm (fun v => (db.hitRow query v).isSome) ids).length_eq
  rw [List.length_append] at split
  have := crowded.length_le
  omega

/-- With a store that finds the nearest vectors, a query without session and tier filter scores
`min k n` of the `n` memories it may see, distinct ones, when there is room for them. -/
theorem scoped_retrieval_fills (eng : MemoryEngine) (query : RetrieveQuery) (w : World F)
    (ms : List (MemoryItem F)) (exact : ∀ t, w.store.SearchesNearest (w.env.ann t).1)
    (unfiltered : query.Unfiltered) (own : OwnMemories w.db w.store query ms)
    (room : ∀ t qvec, w.env.embed t query.text = .ok qvec →
      HasRoom w.db w.store query qvec ms (min query.topK ms.length)) :
    (∀ now scored w₁, run (retrieveHits eng query) w = (.ok (now, scored), w₁) →
      (scored.map Prod.fst).Nodup ∧
      (∀ hit ∈ scored, hit.1 ∈ w.db.memoryItem.rows ∧ OwnRow query hit.1) ∧
      min query.topK ms.length ≤ scored.length) ∧
    (w.env.NoFaults → isValidNamespace query.nsFilter.namespace = true → query.Binds query.knnK →
      (∀ t, ∃ qvec, w.env.embed t query.text = .ok qvec ∧ qvec.length = w.store.dim) →
      ∃ now scored w₁, run (retrieveHits eng query) w = (.ok (now, scored), w₁)) := by
  refine ⟨fun now scored w₁ ran => ?_, fun quiet valid binds embeds =>
    run_retrieveHits_noFaults eng query quiet binds embeds valid⟩
  obtain ⟨-, t, t', qvec, knn, rows, embedded, searched, read, memories⟩ :=
    run_retrieveHits_eq_ok ran
  have nearest := exact t qvec query.knnK knn searched
  have found : scored.map Prod.fst = (knn.map Prod.fst).filterMap (w.db.hitRow query) :=
    memories.trans (matched_vectors read)
  refine ⟨?_, fun hit mem => ?_, ?_⟩
  · rw [found]
    exact hitRows_nodup nearest.distinct
  · obtain ⟨v, -, hitRow⟩ := hitRow_of_retrieveHits ran mem
    exact ⟨(row_of_hitRow hitRow).1, ownRow_of_hitRow hitRow⟩
  · have enough := own_hits_of_room nearest own unfiltered (room t' qvec embedded)
    have count : scored.length = ((knn.map Prod.fst).filterMap (w.db.hitRow query)).length := by
      rw [← found, List.length_map]
    rw [count, List.length_filterMap_eq_countP]
    rwa [← List.countP_eq_length_filter] at enough

/-! ### A crowded search -/

/-- A memory of tenant `a`, and one of tenant `b` opposite to it. -/
def ownMemory : MemoryItem Fixed :=
  { MemoryItem.newTurnSkeleton "m1" "mine" 0 "s" "a" .episodic "mine" 1 with vectorRef := "7" }

def oppositeMemory : MemoryItem Fixed :=
  { MemoryItem.newTurnSkeleton "m2" "theirs" 0 "s" "b" .episodic "theirs" 1 with vectorRef := "8" }

def crowdedDb : Db Fixed :=
  { (Db.empty : Db Fixed) with
    memoryItem := (Table.empty.upsert ownMemory).upsert oppositeMemory }

def crowdedStore : LocalStore Fixed :=
  { (LocalStore.empty 1 : LocalStore Fixed) with
    vecTree := (Table.empty.upsert (7, [⟨1000000⟩])).upsert (8, [⟨-1000000⟩]) }

/-- Tenant `a` asks for one memory, in the direction `x`. -/
def crowdedWorld (x : Fixed) : World Fixed :=
  World.fresh (.searching LocalStore.scanOnly [x]) crowdedDb crowdedStore

def oneQuery : RetrieveQuery := ⟨"mine?", 1, none, "a", "", "", none, 100⟩

theorem crowdedWorld_exact (x : Fixed) (t : Nat) :
    (crowdedWorld x).store.SearchesNearest ((crowdedWorld x).env.ann t).1 :=
  LocalStore.searchesNearest_scan (fun a b lt => by
      simp only [FloatArith.lt, decide_eq_true_eq, decide_eq_false_iff_not] at lt ⊢
      omega) (fun a b c ab bc => by
      simp only [FloatArith.lt, decide_eq_false_iff_not] at ab bc ⊢
      omega) _

theorem crowdedWorld_own : OwnMemories crowdedDb crowdedStore oneQuery [ownMemory] where
  stored m mem := by
    obtain rfl := List.mem_singleton.mp mem
    exact ⟨by decide, by decide⟩
  vectors m mem := by
    obtain rfl := List.mem_singleton.mp mem
    exact ⟨7, by decide, by decide, by decide⟩
  distinct := by decide

/-- Asked for its own direction, the search has room for the memory of tenant `a`. -/
theorem own_memory_found : ∃ now scored w₁,
    run (retrieveHits (plainEngine "a") oneQuery) (crowdedWorld ⟨1000000⟩) =
      (.ok (now, scored), w₁) ∧ 1 ≤ scored.length := by
  have room : HasRoom crowdedDb crowdedStore oneQuery [⟨1000000⟩] [ownMemory] 1 :=
    ⟨[ownMemory], List.Subperm.refl _, rfl, by decide +kernel⟩
  obtain ⟨every, succeeds⟩ := scoped_retrieval_fills (plainEngine "a") oneQuery
    (crowdedWorld ⟨1000000⟩) [ownMemory] (crowdedWorld_exact _) ⟨rfl, rfl⟩ crowdedWorld_own
    fun _ _ embedded => Except.ok.inj embedded ▸ room
  obtain ⟨now, scored, w₁, ran⟩ := succeeds ⟨fun _ _ => rfl, fun _ _ => rfl⟩ rfl
    (by decide) fun _ => ⟨_, rfl, rfl⟩
  exact ⟨now, scored, w₁, ran, (every now scored w₁ ran).2.2⟩

/-- Asked for the opposite direction, it finds the vector of tenant `b` only. -/
theorem foreign_vector_takes_place : ¬ ∀ (query : RetrieveQuery) (w : World Fixed)
    (ms : List (MemoryItem Fixed)), (∀ t, w.store.SearchesNearest (w.env.ann t).1) →
      query.Unfiltered → OwnMemories w.db w.store query ms → ∀ now scored w₁,
        run (retrieveHits (plainEngine "a") query) w = (.ok (now, scored), w₁) →
          min query.topK ms.length ≤ scored.length := by
  intro fills
  have ended : ((run (retrieveHits (plainEngine "a") oneQuery)
      (crowdedWorld ⟨-1000000⟩)).1.toOption.map fun found => found.2.length) = some 0 := by
    decide +kernel
  have enough := fills oneQuery (crowdedWorld ⟨-1000000⟩) [ownMemory] (crowdedWorld_exact _)
    ⟨rfl, rfl⟩ crowdedWorld_own
  cases ran : run (retrieveHits (plainEngine "a") oneQuery) (crowdedWorld ⟨-1000000⟩) with
  | mk result w₁ =>
      rw [ran] at ended
      cases result with
      | error e => cases ended
      | ok found =>
          have none : found.2.length = 0 := Option.some.inj ended
          have one := enough found.1 found.2 w₁ ran
          rw [none] at one
          exact absurd one (by decide)

end FusionMemory
