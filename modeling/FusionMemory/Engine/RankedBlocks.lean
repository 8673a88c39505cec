import FusionMemory.Engine.RetrieveHits
import FusionMemory.Lib.RealArith

/-!
The blocks of a retrieved context: their order and how many fit the budget.

`takeBudget_cut` is what the greedy loop over the ranked blocks does, and `budget_truncation`
says it of every list of blocks and of every query. The score that ranks a block is the best of
its hits' scores, accumulated from 0; `block_ranking_iff` says when that is their maximum.
-/

namespace FusionMemory

open Lib

variable {F : Type} [FloatArith F]

/-! ### The loop over the budget -/

/-- The loop keeps a prefix: it stops before the first block that does not fit, but for the very
first one, which is kept in any case. -/
theorem takeBudget_cut (tokenBudget : Nat) (blocks : List (ContextBlock F)) :
    ∀ (total : Nat) (kept : List (ContextBlock F)), ∃ more rest, blocks = more ++ rest ∧
      takeBudget tokenBudget blocks total kept =
        (kept ++ more, total + (more.map blockTokens).sum) ∧
      (more = [] ∨ total + (more.map blockTokens).sum ≤ tokenBudget ∨
        kept = [] ∧ more.length = 1) ∧
      ∀ next ∈ rest.head?, kept ++ more ≠ [] ∧
        tokenBudget < total + (more.map blockTokens).sum + blockTokens next := by
  induction blocks with
  | nil =>
      intro total kept
      refine ⟨[], [], rfl, ?_, .inl rfl, fun next none => (by cases none)⟩
      simp [takeBudget]
  | cons b rest ih =>
      intro total kept
      unfold takeBudget
      split_ifs with stop
      · simp only [Bool.and_eq_true, decide_eq_true_eq, Bool.not_eq_true',
          List.isEmpty_eq_false_iff] at stop
        refine ⟨[], b :: rest, rfl, by simp, .inl rfl, fun next first => ?_⟩
        cases first
        simpa using ⟨stop.2, stop.1⟩
      · obtain ⟨more, left, split, cut, bound, maximal⟩ := ih (total + blockTokens b) (kept ++ [b])
        have fits : total + blockTokens b ≤ tokenBudget ∨ kept = [] := by
          simp only [Bool.and_eq_true, decide_eq_true_eq, Bool.not_eq_true',
            List.isEmpty_eq_false_iff, not_and_or, not_not] at stop
          exact stop.imp_left Nat.le_of_not_lt
        refine ⟨b :: more, left, by rw [split, List.cons_append], ?_, ?_, fun next first => ?_⟩
        · rw [cut, List.map_cons, List.sum_cons, List.append_assoc, Nat.add_assoc]
          rfl
        · rw [List.map_cons, List.sum_cons]
          rcases bound with none | within | ⟨no, -⟩
          · subst none
            exact .inr (fits.imp (fun within => by simpa using within) fun first => ⟨first, rfl⟩)
          · exact .inr (.inl (by omega))
          · simp at no
        · obtain ⟨-, exceeds⟩ := maximal next first
          rw [List.map_cons, List.sum_cons]
          exact ⟨by simp, by omega⟩

/-- Only ranked blocks are kept. -/
theorem takeBudget_subset (tokenBudget : Nat) (blocks : List (ContextBlock F)) :
    ∀ block ∈ (takeBudget tokenBudget blocks 0 []).1, block ∈ blocks := by
  intro block mem
  obtain ⟨more, rest, split, cut, -⟩ := takeBudget_cut tokenBudget blocks 0 []
  rw [cut] at mem
  exact split ▸ List.mem_append_left rest mem

/-- A budget that covers all blocks keeps them all. -/
theorem takeBudget_all {tokenBudget : Nat} {blocks : List (ContextBlock F)}
    (covers : (blocks.map blockTokens).sum ≤ tokenBudget) :
    (takeBudget tokenBudget blocks 0 []).1 = blocks := by
  obtain ⟨more, rest, split, cut, -, maximal⟩ := takeBudget_cut tokenBudget blocks 0 []
  rw [cut, List.nil_append]
  cases rest with
  | nil => rw [split, List.append_nil]
  | cons next rest =>
      have exceeds := (maximal next rfl).2
      rw [split, List.map_append, List.sum_append, List.map_cons, List.sum_cons] at covers
      omega

/-! ### The order -/

/-- The scores of the blocks are comparable, as numbers are: none of them is NaN. -/
structure Comparable (blocks : List (ContextBlock F)) : Prop where
  total : ∀ a ∈ blocks, ∀ b ∈ blocks,
    FloatArith.lt a.score b.score = false ∨ FloatArith.lt b.score a.score = false
  trans : ∀ a ∈ blocks, ∀ b ∈ blocks, ∀ c ∈ blocks, FloatArith.lt a.score b.score = false →
    FloatArith.lt b.score c.score = false → FloatArith.lt a.score c.score = false

theorem rankBlocks_perm (blocks : List (ContextBlock F)) : (rankBlocks blocks).Perm blocks :=
  List.perm_insertionSort _ _

/-- Ranked, no block comes after one with a lower score. -/
theorem rankBlocks_sorted {blocks : List (ContextBlock F)} (comparable : Comparable blocks) :
    (rankBlocks blocks).Pairwise fun a b => FloatArith.lt a.score b.score = false := by
  -- The order is total on the members of the list, so they are sorted as such.
  have total : Std.Total fun a b : {b // b ∈ blocks} =>
      FloatArith.descending a.1.score b.1.score = true := ⟨fun a b =>
    (comparable.total a.1 a.2 b.1 b.2).imp FloatArith.descending_iff.mpr
      FloatArith.descending_iff.mpr⟩
  have trans : IsTrans {b // b ∈ blocks} fun a b =>
      FloatArith.descending a.1.score b.1.score = true := ⟨fun a b c ab bc =>
    FloatArith.descending_iff.mpr (comparable.trans a.1 a.2 b.1 b.2 c.1 c.2
      (FloatArith.descending_iff.mp ab) (FloatArith.descending_iff.mp bc))⟩
  have sorted := List.pairwise_insertionSort (fun a b : {b // b ∈ blocks} =>
    FloatArith.descending a.1.score b.1.score = true) blocks.attach
  have same := List.map_insertionSort (fun a b : {b // b ∈ blocks} =>
      FloatArith.descending a.1.score b.1.score = true)
    (fun a b => FloatArith.descending a.score b.score = true) Subtype.val blocks.attach
    fun _ _ _ _ => Iff.rfl
  rw [List.attach_map_subtype_val] at same
  unfold rankBlocks
  rw [← same, List.pairwise_map]
  exact sorted.imp FloatArith.descending_iff.mp

/-! ### The budget of a query -/

/-- What a query keeps of its blocks: as many of the first as the budget holds, and at least
one. -/
structure BudgetCut (tokenBudget : Nat) (blocks kept : List (ContextBlock F)) (totalTokens : Nat) :
    Prop where
  isPrefix : kept <+: rankBlocks blocks
  sorted : Comparable blocks → kept.Pairwise fun a b => FloatArith.lt a.score b.score = false
  distinct : (blocks.map (·.interactionId)).Nodup → (kept.map (·.interactionId)).Nodup
  nonempty : blocks ≠ [] → kept ≠ []
  total : totalTokens = (kept.map blockTokens).sum
  within : totalTokens ≤ tokenBudget ∨ kept.length = 1
  maximal : ∀ next rest, rankBlocks blocks = kept ++ next :: rest →
    tokenBudget < totalTokens + blockTokens next

theorem budgetCut_takeBudget (tokenBudget : Nat) (blocks : List (ContextBlock F)) :
    BudgetCut tokenBudget blocks (takeBudget tokenBudget (rankBlocks blocks) 0 []).1
      (takeBudget tokenBudget (rankBlocks blocks) 0 []).2 := by
  obtain ⟨more, rest, split, cut, bound, maximal⟩ :=
    takeBudget_cut tokenBudget (rankBlocks blocks) 0 []
  simp only [List.nil_append, Nat.zero_add, true_and] at cut bound maximal
  rw [cut]
  have isPrefix : more <+: rankBlocks blocks := ⟨rest, split.symm⟩
  refine ⟨isPrefix, fun comparable => (rankBlocks_sorted comparable).sublist isPrefix.sublist,
    fun distinct => ?_, fun some none => ?_, rfl, ?_, fun next others listed => ?_⟩
  · have ids := ((rankBlocks_perm blocks).map (·.interactionId)).nodup_iff.mpr distinct
    exact ids.sublist (isPrefix.sublist.map _)
  · cases rest with
    | nil =>
        rw [show more = [] from none, List.append_nil] at split
        exact some (List.Perm.eq_nil (split ▸ (rankBlocks_perm blocks).symm))
    | cons next others => exact (maximal next rfl).1 none
  · rcases bound with none | within | single
    · exact .inl (by simp [none])
    · exact .inl within
    · exact .inr single
  · have same : next :: others = rest := List.append_cancel_left (listed.symm.trans split)
    exact (maximal next (same ▸ rfl)).2

/-- The budget of every list of blocks, and of every query: it cuts the blocks of the hits'
interactions, of which each has one. -/
theorem budget_truncation :
    (∀ (tokenBudget : Nat) (blocks : List (ContextBlock F)), (rankBlocks blocks).Perm blocks ∧
      BudgetCut tokenBudget blocks (takeBudget tokenBudget (rankBlocks blocks) 0 []).1
        (takeBudget tokenBudget (rankBlocks blocks) 0 []).2) ∧
    ∀ (eng : MemoryEngine) (query : RetrieveQuery) (w w' : World F) (ctx : FormattedContext F),
      run (retrieveContext eng query) w = (.ok ctx, w') → ∃ now scored w₁,
        run (retrieveHits eng query) w = (.ok (now, scored), w₁) ∧
          ((groupBlocks w₁.db scored).map (·.interactionId)).Nodup ∧
          BudgetCut query.tokenBudget (groupBlocks w₁.db scored) ctx.blocks ctx.totalTokens := by
  refine ⟨fun tokenBudget blocks => ⟨rankBlocks_perm blocks, budgetCut_takeBudget tokenBudget blocks⟩,
    fun eng query w w' ctx ran => ?_⟩
  obtain ⟨now, scored, w₁, found, shown⟩ := run_retrieveContext_halves ran
  obtain ⟨cut, -⟩ := run_showHits_eq_ok shown
  refine ⟨now, scored, w₁, found, groupBlocks_distinct _ _, ?_⟩
  have all := budgetCut_takeBudget query.tokenBudget (groupBlocks w₁.db scored)
  rw [← cut] at all
  exact all

/-! ### The score of a block -/

/-- The fused scores of an interaction's hits. -/
def scoresOf (scored : List (MemoryItem ℝ × ℝ)) (interactionId : String) : Set ℝ :=
  {x | ∃ hit ∈ scored, hit.1.interactionId = interactionId ∧ hit.2 = x}

theorem isGreatest_foldl_best (hits : List (MemoryItem ℝ × ℝ)) :
    ∀ seed : ℝ, IsGreatest (insert seed {x | ∃ hit ∈ hits, hit.2 = x})
      (hits.foldl (fun best hit => if FloatArith.lt best hit.2 then hit.2 else best) seed) := by
  induction hits with
  | nil =>
      intro seed
      have none : {x | ∃ hit ∈ ([] : List (MemoryItem ℝ × ℝ)), hit.2 = x} = ∅ := by
        ext x
        simp
      rw [none, insert_empty_eq]
      exact isGreatest_singleton
  | cons hit rest ih =>
      intro seed
      rw [List.foldl_cons]
      set next : ℝ := if FloatArith.lt seed hit.2 then hit.2 else seed with nextEq
      obtain ⟨mem, upper⟩ := ih next
      have larger : seed ≤ next ∧ hit.2 ≤ next ∧ (next = seed ∨ next = hit.2) := by
        rw [nextEq]
        split_ifs with lt
        · exact ⟨((FloatArith.real_lt_iff _ _).mp lt).le, le_refl _, .inr rfl⟩
        · exact ⟨le_refl _, not_lt.mp fun less => lt ((FloatArith.real_lt_iff _ _).mpr less),
            .inl rfl⟩
      have atLeast := upper (Set.mem_insert _ _)
      constructor
      · rcases mem with same | ⟨best, listed, same⟩
        · rw [same]
          rcases larger.2.2 with old | new
          · exact .inl old
          · exact .inr ⟨hit, List.mem_cons_self, new.symm⟩
        · exact .inr ⟨best, List.mem_cons_of_mem _ listed, same⟩
      · rintro x (rfl | ⟨other, listed, rfl⟩)
        · exact larger.1.trans atLeast
        · rcases List.mem_cons.mp listed with rfl | later
          · exact larger.2.1.trans atLeast
          · exact upper (.inr ⟨other, later, rfl⟩)

/-- The score that the loop accumulates: the best of the hits' scores and 0. -/
theorem bestScore_isGreatest (scored : List (MemoryItem ℝ × ℝ)) (interactionId : String) :
    IsGreatest (insert 0 (scoresOf scored interactionId)) (bestScore scored interactionId) := by
  have best := isGreatest_foldl_best
    (scored.filter fun hit => hit.1.interactionId == interactionId) 0
  have same : {x | ∃ hit ∈ scored.filter fun hit => hit.1.interactionId == interactionId,
      hit.2 = x} = scoresOf scored interactionId := by
    ext x
    simp [scoresOf, and_assoc]
  rw [same] at best
  unfold bestScore
  rw [FloatArith.real_ofNat, Nat.cast_zero]
  exact best

theorem comparable_real (blocks : List (ContextBlock ℝ)) : Comparable blocks where
  total a _ b _ := by
    have either := le_total b.score a.score
    simpa [← Bool.not_eq_true] using either
  trans a _ b _ c _ ab bc := by
    simp only [← Bool.not_eq_true, FloatArith.real_lt_iff, not_lt] at ab bc ⊢
    exact bc.trans ab

/-- Each block has the best score of its interaction's hits, and they come best first. -/
structure RankedByBest (scored : List (MemoryItem ℝ × ℝ)) (blocks : List (ContextBlock ℝ)) :
    Prop where
  best : ∀ block ∈ blocks, IsGreatest (scoresOf scored block.interactionId) block.score
  ordered : blocks.Pairwise fun a b => ∀ x y, IsGreatest (scoresOf scored a.interactionId) x →
    IsGreatest (scoresOf scored b.interactionId) y → y ≤ x

theorem rankedByBest_of_nonneg {scored : List (MemoryItem ℝ × ℝ)}
    (nonneg : ∀ hit ∈ scored, ∃ best ∈ scored, best.1.interactionId = hit.1.interactionId ∧
      0 ≤ best.2) (db : Db ℝ) {tokenBudget total : Nat} {kept : List (ContextBlock ℝ)}
    (cut : BudgetCut tokenBudget (groupBlocks db scored) kept total) :
    RankedByBest scored kept := by
  have best : ∀ block ∈ kept, IsGreatest (scoresOf scored block.interactionId) block.score := by
    intro block mem
    have ranked := (rankBlocks_perm _).mem_iff.mp (cut.isPrefix.subset mem)
    obtain ⟨ix, inIds, rfl⟩ := List.mem_map.mp ranked
    obtain ⟨hit, listed, rfl⟩ := mem_interactionIds.mp inIds
    obtain ⟨top, inScored, same, positive⟩ := nonneg hit listed
    obtain ⟨mem, upper⟩ := bestScore_isGreatest scored hit.1.interactionId
    have some : top.2 ∈ scoresOf scored hit.1.interactionId := ⟨top, inScored, same, rfl⟩
    refine ⟨?_, fun x mem => upper (.inr mem)⟩
    rcases mem with zero | reached
    · have least := upper (.inr some)
      rw [zero] at least
      change bestScore scored hit.1.interactionId ∈ _
      rw [zero, ← le_antisymm least positive]
      exact some
    · exact reached
  refine ⟨best, (cut.sorted (comparable_real _)).imp_of_mem
    fun {a b} memA memB lower x y topX topY => ?_⟩
  rw [topX.unique (best a memA), topY.unique (best b memB)]
  exact not_lt.mp fun less => by simp [(FloatArith.real_lt_iff _ _).mpr less] at lower

/-- Every interaction of the hits is answered, with a large budget. -/
theorem showHits_all (query : RetrieveQuery) (now : Nat) (scored : List (MemoryItem F × F))
    (w : World F) (quiet : w.env.NoFaults) : ∃ tokenBudget ctx w',
      run (showHits { query with tokenBudget := tokenBudget } now scored) w = (.ok ctx, w') ∧
        ctx.blocks = rankBlocks (groupBlocks w.db scored) ∧ w'.db.memoryItem =
          (w.db.touchAccessBatch (sortedGroupsTurnIds scored ctx.blocks) now).memoryItem := by
  set budget := ((rankBlocks (groupBlocks w.db scored)).map blockTokens).sum
  obtain ⟨ctx, w', ran, counted⟩ :=
    run_showHits_noFaults { query with tokenBudget := budget } now scored quiet
  obtain ⟨cut, -⟩ := run_showHits_eq_ok ran
  exact ⟨budget, ctx, w', ran, (congrArg Prod.fst cut).trans (takeBudget_all (le_refl budget)),
    counted⟩

theorem nonneg_of_rankedByBest {db : Db ℝ} {scored : List (MemoryItem ℝ × ℝ)}
    (ranked : ∀ (query : RetrieveQuery) (now : Nat) (w w' : World ℝ) (ctx : FormattedContext ℝ),
      w.db = db → run (showHits query now scored) w = (.ok ctx, w') →
        RankedByBest scored ctx.blocks) {hit : MemoryItem ℝ × ℝ} (mem : hit ∈ scored) :
    ∃ best ∈ scored, best.1.interactionId = hit.1.interactionId ∧ 0 ≤ best.2 := by
  obtain ⟨tokenBudget, ctx, w', ran, all, -⟩ := showHits_all ⟨"", 0, none, "", "", "", none, 0⟩ 0
    scored (World.fresh .quiet db (.empty 0)) Env.quiet_noFaults
  have shown : assembleBlock hit.1.interactionId (bestScore scored hit.1.interactionId)
      (db.blockSources hit.1.interactionId) ∈ ctx.blocks := by
    rw [all]
    exact (rankBlocks_perm _).mem_iff.mpr (List.mem_map_of_mem (mem_interactionIds.mpr
      ⟨hit, mem, rfl⟩))
  obtain ⟨⟨best, listed, same, score⟩, -⟩ := (ranked _ _ _ _ _ rfl ran).best _ shown
  refine ⟨best, listed, same, ?_⟩
  rw [score]
  exact (bestScore_isGreatest scored hit.1.interactionId).2 (Set.mem_insert _ _)

/-- However the hits are scored: in every answer the blocks have the best scores of their hits,
and come in their order, exactly if no interaction has negative scores alone. -/
theorem block_ranking_iff (db : Db ℝ) (scored : List (MemoryItem ℝ × ℝ)) :
    (∀ (query : RetrieveQuery) (now : Nat) (w w' : World ℝ) (ctx : FormattedContext ℝ),
      w.db = db → run (showHits query now scored) w = (.ok ctx, w') →
        RankedByBest scored ctx.blocks) ↔
      ∀ hit ∈ scored, ∃ best ∈ scored, best.1.interactionId = hit.1.interactionId ∧
        0 ≤ best.2 := by
  refine ⟨fun ranked hit mem => nonneg_of_rankedByBest ranked mem,
    fun nonneg query now w w' ctx same ran => ?_⟩
  obtain ⟨cut, -⟩ := run_showHits_eq_ok ran
  have kept := budgetCut_takeBudget query.tokenBudget (groupBlocks w.db scored)
  rw [← cut] at kept
  exact rankedByBest_of_nonneg nonneg w.db kept

/-- A single hit with a negative score: its block is scored 0. -/
theorem negative_hit_scored_zero : ¬ ∀ (db : Db ℝ) (scored : List (MemoryItem ℝ × ℝ))
    (query : RetrieveQuery) (now : Nat) (w w' : World ℝ) (ctx : FormattedContext ℝ),
      w.db = db → run (showHits query now scored) w = (.ok ctx, w') →
        RankedByBest scored ctx.blocks := by
  intro ranked
  let m : MemoryItem ℝ :=
    .newTurnSkeleton "m1" "ix1" 0 "s1" "" .episodic "opposite" 1
  obtain ⟨best, mem, -, nonneg⟩ := nonneg_of_rankedByBest (ranked .empty [(m, -1 / 2)])
    List.mem_cons_self
  rw [List.mem_singleton.mp mem] at nonneg
  norm_num at nonneg

end FusionMemory
