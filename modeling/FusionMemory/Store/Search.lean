import FusionMemory.Store.History
import Mathlib.Data.List.Duplicate

/-!
What a search of the vector store finds (`search_knn` of `fm-store/src/local.rs`).

A search answers exactly when it names distinct live ids, as many as there are up to the
count asked for, each with the cosine of the vector that the store holds for it. The index
keeps the point of a deleted vector, and inserting the id again adds a second one; so
`search_knn_exact_iff` says that a store answers every search exactly if and only if no
live id stands in the index twice. The approximate search itself is a parameter, of which
`AnnSearch.Cosine` is assumed.
-/

namespace FusionMemory

open Lib

variable {F : Type} [FloatArith F]

/-- `DistCosine`. -/
def cosineDistance (a b : List F) : F :=
  FloatArith.sub (FloatArith.ofNat 1) (LocalStore.cosineSim a b)

/-- What `hnsw.search` promises: at most `k` of the indexed points, none twice, each with
its distance, nearest first. -/
structure AnnSearch.Cosine (ann : AnnSearch F) : Prop where
  bounded : ∀ points query k, (ann points query k).length ≤ k
  indexed : ∀ points query k, ∃ found : List (Nat × List F), found.Subperm points ∧
    ann points query k = found.map fun p => (p.1, cosineDistance query p.2)
  sorted : ∀ points query k,
    (ann points query k).Pairwise fun a b => FloatArith.lt b.2 a.2 = false

namespace LocalStore

variable {s : LocalStore F} {ann : AnnSearch F} {query : List F} {k : Nat}

/-- `x` is the cosine of the two vectors, taken directly or back from their distance. -/
def IsCosine (query vec : List F) (x : F) : Prop :=
  x = cosineSim query vec ∨ x = FloatArith.sub (FloatArith.ofNat 1) (cosineDistance query vec)

/-- The answer to a search: distinct live ids, all of them or `k`, with their cosines. -/
structure Answers (s : LocalStore F) (query : List F) (k : Nat) (hits : List (Nat × F)) :
    Prop where
  distinct : (hits.map Prod.fst).Nodup
  count : hits.length = min k s.listVectorIds.length
  similar : ∀ hit ∈ hits, ∃ vec, s.getVector hit.1 = some vec ∧ IsCosine query vec hit.2

/-- Every search, whatever the index answers, is answered. -/
def SearchesExactly (s : LocalStore F) : Prop :=
  ∀ ann : AnnSearch F, ann.Cosine → ∀ query, query.length = s.dim → ∀ k,
    ∃ hits, s.searchKnn ann query k = .ok hits ∧ s.Answers query k hits

omit [FloatArith F] in
/-- No live id stands in the index twice. -/
def IndexedOnce (s : LocalStore F) : Prop :=
  ((s.hnsw.filter fun p => !s.isTombstoned p.1).map Prod.fst).Nodup

/-! ### The index over a history -/

/-- Every live vector is in the index, and a point of the index whose id is not
tombstoned is live. -/
structure Indexed (s : LocalStore F) : Prop where
  vectors : ∀ id vec, s.getVector id = some vec → (id, vec) ∈ s.hnsw
  points : ∀ p ∈ s.hnsw, s.isTombstoned p.1 = false → s.getVector p.1 ≠ none

section Index

omit [FloatArith F]

theorem getVector_eq_some {id : Nat} {vec : List F} :
    s.getVector id = some vec ↔ (id, vec) ∈ s.vecTree.rows ∧ s.isTombstoned id = false := by
  unfold getVector
  cases s.isTombstoned id with
  | true => simp
  | false =>
      simp only [Bool.false_eq_true, if_false, Option.map_eq_some_iff, and_true]
      constructor
      · rintro ⟨p, found, rfl⟩
        have key : p.1 = id := Table.find?_key found
        exact key ▸ Table.find?_mem found
      · intro mem
        exact ⟨_, Table.find?_of_mem mem, rfl⟩

theorem indexed_rebuildFromSled (s : LocalStore F) : s.rebuildFromSled.Indexed where
  vectors id vec live := by
    obtain ⟨mem, notTombstoned⟩ := getVector_eq_some.mp live
    refine List.mem_filter.mpr ⟨(List.mem_insertionSort _).mpr mem, ?_⟩
    exact congrArg not notTombstoned
  points p mem notTombstoned := by
    have row := (List.mem_insertionSort _).mp (List.mem_filter.mp mem).1
    have live : s.rebuildFromSled.getVector p.1 = some p.2 :=
      getVector_eq_some.mpr ⟨row, notTombstoned⟩
    rw [live]
    simp

/-- An insertion indexes the vector that it binds. -/
theorem Indexed.insertVector (indexed : s.Indexed) (id : Nat) (vec : List F) :
    (s.insertVector id vec).2.Indexed := by
  unfold LocalStore.insertVector
  split_ifs with refused present
  · exact indexed
  · exact indexed
  constructor
  · intro id' vec' live
    have bound : (s.insertWrites id vec 2).getVector id' = some vec' := live
    rw [getVector_insertWrites] at bound
    split_ifs at bound with new
    · cases bound
      cases new
      exact List.mem_append_right _ (List.mem_singleton_self _)
    · exact List.mem_append_left _ (indexed.vectors id' vec' bound)
  · intro p mem notTombstoned
    change (s.insertWrites id vec 2).getVector p.1 ≠ none
    have kept : (s.insertWrites id vec 2).isTombstoned p.1 = false := notTombstoned
    rw [getVector_insertWrites]
    split_ifs with new
    · simp
    · rw [isTombstoned_insertWrites] at kept
      rcases List.mem_append.mp mem with old | added
      · exact indexed.points p old (by simpa [new] using kept)
      · obtain rfl := List.mem_singleton.mp added
        exact absurd rfl new

theorem Indexed.deleteVector (indexed : s.Indexed) (id : Nat) : (s.deleteVector id).Indexed := by
  constructor
  · intro id' vec' live
    rw [getVector_deleteVector] at live
    split_ifs at live
    exact indexed.vectors id' vec' live
  · intro p mem notTombstoned
    rw [isTombstoned_deleteVector, Bool.or_eq_false_iff, decide_eq_false_iff_not] at notTombstoned
    rw [getVector_deleteVector, if_neg notTombstoned.1]
    exact indexed.points p mem notTombstoned.2

theorem Indexed.perform {s' : LocalStore F} (indexed : s.Indexed) {a : StoreAction F}
    (done : s.perform a = .ok s') : s'.Indexed := by
  cases a with
  | insertVector id vec =>
      cases done
      exact indexed.insertVector id vec
  | deleteVector id =>
      cases done
      exact indexed.deleteVector id
  | compact =>
      cases done
      exact indexed_rebuildFromSled _
  | reopen =>
      unfold LocalStore.perform reopen LocalStore.open at done
      dsimp only at done
      split_ifs at done
      cases done
      exact indexed_rebuildFromSled _

theorem indexed_history {dim : Nat} {actions : List (StoreAction F)}
    (ran : history dim actions = .ok s) : s.Indexed := by
  have run : ∀ (actions : List (StoreAction F)) (s₀ : LocalStore F), s₀.Indexed →
      actions.foldlM LocalStore.perform s₀ = .ok s → s.Indexed := by
    intro actions
    induction actions with
    | nil =>
        intro s₀ indexed ran
        cases ran
        exact indexed
    | cons a rest ih =>
        intro s₀ indexed ran
        rw [List.foldlM_cons] at ran
        cases done : s₀.perform a with
        | error e =>
            rw [done] at ran
            cases ran
        | ok s₁ =>
            rw [done] at ran
            exact ih s₁ (indexed.perform done) ran
  unfold history LocalStore.open at ran
  split_ifs at ran
  · cases ran
  · exact run actions _ (indexed_rebuildFromSled _) ran

end Index

/-! ### The two parts of an answer -/

/-- The live neighbours that the index names. -/
def nearby (s : LocalStore F) (ann : AnnSearch F) (query : List F) (k : Nat) : List (Nat × F) :=
  ((ann s.hnsw query k).filter fun nb => !s.isTombstoned nb.1).map fun nb =>
    (nb.1, FloatArith.sub (FloatArith.ofNat 1) nb.2)

/-- The live vectors that are not in `out`, with their cosines. -/
def others (s : LocalStore F) (query : List F) (out : List (Nat × F)) : List (Nat × F) :=
  (s.vectors.filter fun p => !(out.any fun hit => hit.1 == p.1) && !s.isTombstoned p.1).map fun p =>
    (p.1, cosineSim query p.2)

theorem searchKnn_eq (fits : query.length = s.dim) : s.searchKnn ann query k =
    .ok (if (s.nearby ann query k).length < k then
      sortBySim (s.nearby ann query k ++
        (sortBySim (s.others query (s.nearby ann query k))).take (k - (s.nearby ann query k).length))
      else s.nearby ann query k) := by
  unfold searchKnn
  rw [if_neg (not_not.mpr fits)]
  exact (apply_ite Except.ok _ _ _).symm

theorem sortBySim_perm (hits : List (Nat × F)) : (sortBySim hits).Perm hits :=
  List.perm_insertionSort _ _

/-- The neighbours are indexed live points. -/
theorem nearby_points (s : LocalStore F) (cosine : ann.Cosine) (query : List F) (k : Nat) :
    ∃ found : List (Nat × List F), found.Subperm (s.hnsw.filter fun p => !s.isTombstoned p.1) ∧
      s.nearby ann query k = found.map fun p =>
        (p.1, FloatArith.sub (FloatArith.ofNat 1) (cosineDistance query p.2)) := by
  obtain ⟨found, sub, answer⟩ := cosine.indexed s.hnsw query k
  refine ⟨found.filter fun p => !s.isTombstoned p.1, sub.filter _, ?_⟩
  unfold nearby
  rw [answer, List.filter_map, List.map_map]
  rfl

theorem length_nearby_le (s : LocalStore F) (cosine : ann.Cosine) (query : List F) (k : Nat) :
    (s.nearby ann query k).length ≤ k := by
  unfold nearby
  rw [List.length_map]
  exact (List.length_filter_le _ _).trans (cosine.bounded _ _ _)

theorem others_ids (s : LocalStore F) (query : List F) (out : List (Nat × F)) :
    (s.others query out).map Prod.fst =
      s.listVectorIds.filter fun id => !(out.map Prod.fst).contains id := by
  have same : ∀ p : Nat × List F, (!(out.any fun hit => hit.1 == p.1) && !s.isTombstoned p.1) =
      (!s.isTombstoned p.1 && !(out.map Prod.fst).contains p.1) := by
    intro p
    have member : (out.any fun hit => hit.1 == p.1) = (out.map Prod.fst).contains p.1 := by
      rw [Bool.eq_iff_iff]
      simp only [List.any_eq_true, List.contains_iff_mem, List.mem_map, beq_iff_eq]
    rw [member, Bool.and_comm]
  unfold others listVectorIds
  rw [List.map_map, List.filter_map, List.filter_map, List.filter_filter]
  simp only [same, Function.comp_def]
  refine congrArg (List.map Prod.fst) (List.filter_congr fun p _ => ?_)
  exact Bool.and_comm _ _

/-- The other live vectors fill up what the index left. -/
theorem length_others (query : List F) {out : List (Nat × F)} (distinct : (out.map Prod.fst).Nodup)
    (live : ∀ hit ∈ out, hit.1 ∈ s.listVectorIds) :
    out.length + (s.others query out).length = s.listVectorIds.length := by
  have found : (s.listVectorIds.filter fun id => (out.map Prod.fst).contains id).Perm
      (out.map Prod.fst) := by
    refine (List.perm_ext_iff_of_nodup (s.listVectorIds_nodup.filter _) distinct).mpr fun id => ?_
    rw [List.mem_filter, List.contains_iff_mem]
    refine and_iff_right_of_imp fun mem => ?_
    obtain ⟨hit, listed, rfl⟩ := List.mem_map.mp mem
    exact live hit listed
  have split := (List.filter_append_perm (fun id => (out.map Prod.fst).contains id)
    s.listVectorIds).length_eq
  have rest := congrArg List.length (s.others_ids query out)
  rw [List.length_append, found.length_eq, List.length_map] at split
  rw [List.length_map] at rest
  rw [rest]
  exact split

/-- What fills up: distinct live ids that `out` does not name, with their cosines. -/
theorem others_nodup (out : List (Nat × F)) : ((s.others query out).map Prod.fst).Nodup := by
  rw [others_ids]
  exact s.listVectorIds_nodup.filter _

theorem others_disjoint {out : List (Nat × F)} {hit : Nat × F} (mem : hit ∈ s.others query out) :
    hit.1 ∉ out.map Prod.fst := by
  have listed : hit.1 ∈ (s.others query out).map Prod.fst := List.mem_map_of_mem mem
  rw [others_ids, List.mem_filter] at listed
  simpa using listed.2

theorem others_similar {out : List (Nat × F)} {hit : Nat × F} (mem : hit ∈ s.others query out) :
    ∃ vec, s.getVector hit.1 = some vec ∧ IsCosine query vec hit.2 := by
  obtain ⟨p, kept, rfl⟩ := List.mem_map.mp mem
  obtain ⟨row, conditions⟩ := List.mem_filter.mp kept
  rw [Bool.and_eq_true, Bool.not_eq_true', Bool.not_eq_true'] at conditions
  exact ⟨p.2, getVector_eq_some.mpr ⟨(List.mem_insertionSort _).mp row, conditions.2⟩, .inl rfl⟩

/-! ### Answers -/

/-- A store whose live ids stand in the index once answers every search. -/
theorem searchesExactly_of_indexedOnce (indexed : s.Indexed) (once : s.IndexedOnce) :
    s.SearchesExactly := by
  intro ann cosine query fits k
  obtain ⟨found, sub, answer⟩ := s.nearby_points cosine query k
  -- A live point of the index is the vector that the store holds.
  have current : ∀ p ∈ found, s.getVector p.1 = some p.2 := by
    intro p mem
    have listed := sub.subset mem
    obtain ⟨point, notTombstoned⟩ := List.mem_filter.mp listed
    cases live : s.getVector p.1 with
    | none => exact absurd live (indexed.points p point (by simpa using notTombstoned))
    | some vec =>
        have held : (p.1, vec) ∈ s.hnsw.filter fun p => !s.isTombstoned p.1 :=
          List.mem_filter.mpr ⟨indexed.vectors _ _ live, notTombstoned⟩
        have same : (p.1, vec) = p := List.inj_on_of_nodup_map once held listed rfl
        rw [← same]
  have distinct : ((s.nearby ann query k).map Prod.fst).Nodup := by
    obtain ⟨sorted, perm, sublist⟩ := sub
    rw [answer, List.map_map]
    exact (perm.map Prod.fst).nodup_iff.mp (once.sublist (sublist.map Prod.fst))
  have similar : ∀ hit ∈ s.nearby ann query k,
      ∃ vec, s.getVector hit.1 = some vec ∧ IsCosine query vec hit.2 := by
    intro hit mem
    rw [answer] at mem
    obtain ⟨p, listed, rfl⟩ := List.mem_map.mp mem
    exact ⟨p.2, current p listed, .inr rfl⟩
  have live : ∀ hit ∈ s.nearby ann query k, hit.1 ∈ s.listVectorIds := by
    intro hit mem
    obtain ⟨vec, held, -⟩ := similar hit mem
    exact mem_listVectorIds.mpr (by rw [held]; rfl)
  have total := length_others query distinct live
  refine ⟨_, searchKnn_eq fits, ?_⟩
  split_ifs with few
  · set near := s.nearby ann query k
    set rest := (sortBySim (s.others query near)).take (k - near.length) with filled
    have order := sortBySim_perm (near ++ rest)
    have restMem : ∀ hit ∈ rest, hit ∈ s.others query near := fun hit mem =>
      mem_sortBySim.mp (List.mem_of_mem_take mem)
    constructor
    · rw [(order.map Prod.fst).nodup_iff, List.map_append, List.nodup_append']
      refine ⟨distinct, ?_, ?_⟩
      · have all : ((sortBySim (s.others query near)).map Prod.fst).Nodup :=
          ((sortBySim_perm _).map Prod.fst).nodup_iff.mpr (others_nodup near)
        exact all.sublist ((List.take_sublist _ _).map Prod.fst)
      · intro id named again
        obtain ⟨hit, mem, rfl⟩ := List.mem_map.mp again
        exact others_disjoint (restMem hit mem) named
    · rw [order.length_eq, List.length_append, filled, List.length_take,
        (sortBySim_perm _).length_eq]
      omega
    · intro hit mem
      rcases List.mem_append.mp (mem_sortBySim.mp mem) with first | other
      · exact similar hit first
      · exact others_similar (restMem hit other)
  · have all := s.length_nearby_le cosine query k
    exact ⟨distinct, by omega, similar⟩

/-- An index that names the two points `p` and `q` when it is asked for two. -/
noncomputable def namesBoth (points : List (Nat × List F)) (p q : Nat × List F) : AnnSearch F :=
  open Classical in fun points' query k =>
    if points' = points ∧ k = 2 then
      (if FloatArith.lt (cosineDistance query q.2) (cosineDistance query p.2) then [q, p]
        else [p, q]).map fun p => (p.1, cosineDistance query p.2)
    else []

theorem namesBoth_cosine {points : List (Nat × List F)} {p q : Nat × List F}
    (asymm : ∀ a b : F, FloatArith.lt a b = true → FloatArith.lt b a = false)
    (both : [p, q].Sublist points) : (namesBoth points p q).Cosine := by
  constructor
  · intro points' query k
    unfold namesBoth
    split_ifs with asked
    · obtain ⟨-, rfl⟩ := asked
      exact Nat.le_refl 2
    · obtain ⟨-, rfl⟩ := asked
      exact Nat.le_refl 2
    · exact Nat.zero_le k
  · intro points' query k
    unfold namesBoth
    split_ifs with asked
    · obtain ⟨rfl, -⟩ := asked
      exact ⟨[q, p], ⟨[p, q], .swap q p [], both⟩, rfl⟩
    · obtain ⟨rfl, -⟩ := asked
      exact ⟨[p, q], both.subperm, rfl⟩
    · exact ⟨[], List.nil_subperm, rfl⟩
  · intro points' query k
    unfold namesBoth
    split_ifs with asked nearer
    · simpa using asymm _ _ nearer
    · simpa using nearer
    · exact .nil

/-- A live id that stands in the index twice is found twice. -/
theorem indexedOnce_of_searchesExactly
    (asymm : ∀ a b : F, FloatArith.lt a b = true → FloatArith.lt b a = false)
    (exactly : s.SearchesExactly) : s.IndexedOnce := by
  by_contra twice
  unfold IndexedOnce at twice
  rw [List.nodup_iff_sublist] at twice
  push Not at twice
  obtain ⟨id, pair⟩ := twice
  obtain ⟨found, sub, same⟩ := List.sublist_map_iff.mp pair
  obtain ⟨p, q, rfl⟩ : ∃ p q, found = [p, q] :=
    List.length_eq_two.mp (by simpa using (congrArg List.length same).symm)
  obtain ⟨rfl, again⟩ : id = p.1 ∧ id = q.1 := by simpa using same
  have live : ∀ r ∈ [p, q], s.isTombstoned r.1 = false := by
    intro r mem
    simpa using (List.mem_filter.mp (sub.subset mem)).2
  have query : (List.replicate s.dim (FloatArith.ofNat 0 : F)).length = s.dim :=
    List.length_replicate
  obtain ⟨hits, searched, answers⟩ := exactly (namesBoth s.hnsw p q)
    (namesBoth_cosine asymm (sub.trans List.filter_sublist)) _ query 2
  have named : (s.nearby (namesBoth s.hnsw p q) (List.replicate s.dim (FloatArith.ofNat 0)) 2).map
      Prod.fst = [p.1, p.1] := by
    unfold nearby namesBoth
    rw [if_pos ⟨rfl, rfl⟩]
    split_ifs <;> simp [live p, ← again]
  have two := congrArg List.length named
  rw [List.length_map] at two
  rw [searchKnn_eq query, if_neg (by rw [two]; exact Nat.lt_irrefl 2)] at searched
  cases searched
  have distinct := answers.distinct
  rw [named] at distinct
  simp at distinct

end LocalStore

/-- After any history, a store answers every search exactly if and only if none of its
live ids stands in the index twice. -/
theorem search_knn_exact_iff
    (asymm : ∀ a b : F, FloatArith.lt a b = true → FloatArith.lt b a = false) {dim : Nat}
    {actions : List (StoreAction F)} {s : LocalStore F}
    (ran : LocalStore.history dim actions = .ok s) : s.SearchesExactly ↔ s.IndexedOnce :=
  ⟨LocalStore.indexedOnce_of_searchesExactly asymm,
    LocalStore.searchesExactly_of_indexedOnce (LocalStore.indexed_history ran)⟩

theorem Fixed.lt_asymm (a b : Fixed) (lt : FloatArith.lt a b = true) : FloatArith.lt b a = false := by
  have less : a.micros < b.micros := of_decide_eq_true lt
  exact decide_eq_false (by omega)

/-- A store that forgot a vector for good takes another one under its id and answers every
search. -/
theorem search_knn_exact_iff_compacted : ∃ s : LocalStore Fixed,
    LocalStore.history 1 [.insertVector 7 [⟨1⟩], .deleteVector 7, .compact,
      .insertVector 7 [⟨2⟩]] = .ok s ∧ s.SearchesExactly := by
  have ran : LocalStore.history 1 ([.insertVector 7 [⟨1⟩], .deleteVector 7, .compact,
    .insertVector 7 [⟨2⟩]] : List (StoreAction Fixed)) = .ok _ := rfl
  refine ⟨_, ran, (search_knn_exact_iff Fixed.lt_asymm ran).mpr ?_⟩
  unfold LocalStore.IndexedOnce
  decide

/-- A vector that is deleted and inserted again is found twice. -/
theorem reinserted_id_found_twice : ¬ ∀ (dim : Nat) (actions : List (StoreAction Fixed))
    (s : LocalStore Fixed), LocalStore.history dim actions = .ok s → s.SearchesExactly := by
  intro always
  have exactly := always 1 [.insertVector 7 [⟨1⟩], .deleteVector 7, .insertVector 7 [⟨2⟩]] _ rfl
  have once := LocalStore.indexedOnce_of_searchesExactly Fixed.lt_asymm exactly
  unfold LocalStore.IndexedOnce at once
  exact absurd once (by decide)

end FusionMemory
