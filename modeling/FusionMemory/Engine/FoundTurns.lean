import FusionMemory.Engine.RetrieveScope
import FusionMemory.Engine.RowFrame

/-!
Whether a retrieved block has the turns that were found.

A block is cut to the first turns of its interaction, whichever turn was hit, while the touch
counts an access of every hit. `retrieve_shows_found_iff` says that a query shows what it has
found, and counts only what it shows, exactly if no memory that it can hit comes late in its
interaction.
-/

namespace FusionMemory

open Lib

variable {F : Type} [FloatArith F]

/-! ### The first turns of an interaction -/

/-- The live turns that `list_by_interaction` has before `m`. -/
def Db.turnsBefore (db : Db F) (m : MemoryItem F) : List (MemoryItem F) :=
  (db.listByInteraction m.interactionId).takeWhile fun r => r.id != m.id

/-- Among elements with different keys, the first `n` are those with fewer than `n` before. -/
theorem mem_take_iff_takeWhile {α : Type} {key : α → String} {xs : List α}
    (distinct : (xs.map key).Nodup) {a : α} (mem : a ∈ xs) (n : Nat) :
    a ∈ xs.take n ↔ (xs.takeWhile fun x => key x != key a).length < n := by
  induction xs generalizing n with
  | nil => cases mem
  | cons x rest ih =>
      cases n with
      | zero => simp
      | succ n =>
          rw [List.map_cons, List.nodup_cons] at distinct
          by_cases same : key x = key a
          · have first : a = x := by
              rcases List.mem_cons.mp mem with here | later
              · exact here
              · exact absurd (same ▸ List.mem_map_of_mem later) distinct.1
            subst first
            simp
          · have later : a ∈ rest := by
              rcases List.mem_cons.mp mem with rfl | later
              · exact absurd rfl same
              · exact later
            have apart : a ≠ x := fun eq => same (eq ▸ rfl)
            rw [List.take_succ_cons, List.mem_cons, or_iff_right apart, ih distinct.2 later,
              List.takeWhile_cons_of_pos (by simpa using same), List.length_cons,
              Nat.add_lt_add_iff_right]

omit [FloatArith F] in
/-- A block's rows are the first that `list_by_interaction` has. -/
theorem Db.blockSources_eq (db : Db F) (ix : String) :
    db.blockSources ix = (db.listByInteraction ix).take AGG_MAX_TURNS := by
  unfold blockSources blockRows
  have sorted : (db.listByInteraction ix).Pairwise fun a b => (a.turnIdx : Int) ≤ b.turnIdx :=
    pairwise_orderBy _ _
  refine congrArg _ (List.Pairwise.insertionSort_eq ?_)
  exact sorted

omit [FloatArith F] in
theorem Db.mem_blockSources_iff {db : Db F} {m : MemoryItem F} (stored : m ∈ db.memoryItem.rows)
    (live : m.tombstone = false) :
    m ∈ db.blockSources m.interactionId ↔ (db.turnsBefore m).length < AGG_MAX_TURNS := by
  have listed : m ∈ db.listByInteraction m.interactionId :=
    mem_listByInteraction.mpr ⟨stored, rfl, live⟩
  have distinct : ((db.listByInteraction m.interactionId).map (·.id)).Nodup :=
    ((orderBy_perm _ _).map _).nodup_iff.mpr (db.memoryItem.nodup.sublist (List.filter_sublist.map _))
  rw [db.blockSources_eq]
  exact mem_take_iff_takeWhile distinct listed _

omit [FloatArith F] in
theorem interactionId_of_mem_blockSources {db : Db F} {ix : String} {m : MemoryItem F}
    (mem : m ∈ db.blockSources ix) : m.interactionId = ix := by
  rw [db.blockSources_eq] at mem
  exact (Db.mem_listByInteraction.mp (List.mem_of_mem_take mem)).2.1

/-! ### What is shown and what is counted -/

/-- The block has the turn of `m`. -/
def Shows (db : Db F) (block : ContextBlock F) (m : MemoryItem F) : Prop :=
  Assembled db block ∧ m ∈ db.blockSources block.interactionId

/-- Every block shows a memory that was found, and every memory with another access count is in
a block. -/
structure ShowsFound (db : Db F) (scored : List (MemoryItem F × F)) (ctx : FormattedContext F)
    (after : Db F) : Prop where
  found : ∀ block ∈ ctx.blocks, ∃ hit ∈ scored, Shows db block hit.1
  counted : ∀ m ∈ db.memoryItem.rows, ∀ m', after.getMemory m.id = some m' →
    m'.accessCount ≠ m.accessCount → ∃ block ∈ ctx.blocks, Shows db block m

omit [FloatArith F] in
theorem mem_rows_of_hitRow {db : Db F} {query : RetrieveQuery} {v : Nat} {m : MemoryItem F}
    (h : db.hitRow query v = some m) : m ∈ db.memoryItem.rows := by
  obtain ⟨last, -⟩ := Option.filter_eq_some_iff.mp h
  exact (Db.mem_select.mp (List.mem_of_getLast? last)).1

omit [FloatArith F] in
theorem mem_sortedGroupsTurnIds {scored : List (MemoryItem F × F)} {kept : List (ContextBlock F)}
    {id : String} : id ∈ sortedGroupsTurnIds scored kept ↔
      ∃ block ∈ kept, ∃ hit ∈ scored, hit.1.interactionId = block.interactionId ∧ hit.1.id = id := by
  simp [sortedGroupsTurnIds, and_assoc]

/-- Where no hit comes late, what is found is shown and nothing else is counted. -/
theorem showsFound_of_early {eng : MemoryEngine} {query : RetrieveQuery} {tokenBudget : Nat}
    {w w' : World F} {ctx : FormattedContext F}
    (ran : run (retrieveContext eng { query with tokenBudget := tokenBudget }) w = (.ok ctx, w'))
    (early : ∀ v m, w.store.Searchable query v → w.db.hitRow query v = some m →
      (w.db.turnsBefore m).length < AGG_MAX_TURNS) :
    ∃ now scored w₁, run (retrieveHits eng query) w = (.ok (now, scored), w₁) ∧
      ShowsFound w.db scored ctx w'.db := by
  obtain ⟨now, scored, w₁, finds, shown⟩ := run_retrieveContext_halves ran
  obtain ⟨cut, counts⟩ := run_showHits_eq_ok shown
  rw [retrieveHits_budget] at finds
  obtain ⟨same, -⟩ := run_retrieveHits_eq_ok finds
  rw [same] at cut counts
  have source : ∀ hit ∈ scored, hit.1 ∈ w.db.memoryItem.rows ∧
      hit.1 ∈ w.db.blockSources hit.1.interactionId := by
    intro hit mem
    obtain ⟨v, searchable, hitRow⟩ := hitRow_of_retrieveHits finds mem
    have stored := mem_rows_of_hitRow hitRow
    exact ⟨stored, (Db.mem_blockSources_iff stored (ownRow_of_hitRow hitRow).1).mpr
      (early v hit.1 searchable hitRow)⟩
  have assembled : ∀ block ∈ ctx.blocks, Assembled w.db block ∧
      ∃ hit ∈ scored, hit.1.interactionId = block.interactionId := by
    intro block mem
    have kept : block ∈ (takeBudget tokenBudget (rankBlocks (groupBlocks w.db scored)) 0 []).1 :=
      cut ▸ mem
    obtain ⟨ix, inIds, rfl⟩ :=
      List.mem_map.mp ((rankBlocks_perm _).mem_iff.mp (takeBudget_subset _ _ block kept))
    exact ⟨rfl, mem_interactionIds.mp inIds⟩
  refine ⟨now, scored, w₁, finds, fun block mem => ?_, fun m stored m' left bumped => ?_⟩
  · obtain ⟨shape, hit, listed, own⟩ := assembled block mem
    exact ⟨hit, listed, shape, own ▸ (source hit listed).2⟩
  · have found : w.db.getMemory m.id = some m := Table.find?_of_mem stored
    have after : w'.db.getMemory m.id = w'.db.memoryItem.find? m.id := rfl
    rcases counts with unchanged | touched
    · rw [after, unchanged] at left
      rw [Option.some.inj (found.symm.trans left)] at bumped
      exact absurd rfl bumped
    · rw [after, touched] at left
      change (w.db.touchAccessBatch _ now).getMemory m.id = some m' at left
      rw [Db.getMemory_touchAccessBatch, found] at left
      by_cases mine : m.id ∈ sortedGroupsTurnIds scored ctx.blocks
      · obtain ⟨block, kept, hit, listed, own, key⟩ := mem_sortedGroupsTurnIds.mp mine
        obtain rfl : hit.1 = m := Table.eq_of_key_eq (source hit listed).1 stored key
        exact ⟨block, kept, (assembled block kept).1, own ▸ (source hit listed).2⟩
      · cases left
        simp [mine] at bumped

/-- A hit that is shown is among the first turns of its interaction. -/
theorem early_of_showsFound {eng : MemoryEngine} {query : RetrieveQuery} {db : Db F}
    {s : LocalStore F}
    (shows : ∀ (tokenBudget : Nat) (w w' : World F) (ctx : FormattedContext F), w.db = db →
      w.store = s → run (retrieveContext eng { query with tokenBudget := tokenBudget }) w =
        (.ok ctx, w') → ∃ now scored w₁, run (retrieveHits eng query) w = (.ok (now, scored), w₁) ∧
          ShowsFound db scored ctx w'.db)
    {v : Nat} {m : MemoryItem F} (searchable : s.Searchable query v)
    (hitRow : db.hitRow query v = some m) : (db.turnsBefore m).length < AGG_MAX_TURNS := by
  obtain ⟨ann, qvec, knn, sound, searched, binds, inRefs⟩ := searchable
  have own := ownRow_of_hitRow hitRow
  have stored := mem_rows_of_hitRow hitRow
  obtain ⟨hits, read⟩ :=
    Db.getByVectorRefsTenantScoped_ok db binds (isValidNamespace_of_visible own.2.2)
  obtain ⟨now, scored, w₁, finds, quiet, db₁, memories⟩ :=
    run_retrieveHits_searching eng query db s ⟨ann, sound⟩ searched read
  obtain ⟨tokenBudget, ctx, w', answered, all, counted⟩ := showHits_all query now scored w₁ quiet
  have ran : run (retrieveContext eng { query with tokenBudget := tokenBudget })
      (World.fresh (.searching ⟨ann, sound⟩ qvec) db s) = (.ok ctx, w') := by
    rw [retrieveContext_eq_halves, retrieveHits_budget]
    exact (run_bind_ok finds).trans answered
  obtain ⟨-, scored', -, -, found⟩ := shows tokenBudget _ w' ctx rfl rfl ran
  -- The hit is behind one of the blocks, so its access is counted.
  obtain ⟨sim, inHits⟩ := (mem_matched read).mpr ⟨v, inRefs, hitRow⟩
  have inScored : m ∈ scored.map Prod.fst := memories ▸ List.mem_map_of_mem inHits
  obtain ⟨hit, mem, same⟩ := List.mem_map.mp inScored
  have touched : m.id ∈ sortedGroupsTurnIds scored ctx.blocks := by
    refine mem_sortedGroupsTurnIds.mpr ⟨assembleBlock m.interactionId
      (bestScore scored m.interactionId) (w₁.db.blockSources m.interactionId), ?_, hit, mem,
      congrArg _ same, congrArg _ same⟩
    rw [all]
    exact (rankBlocks_perm _).mem_iff.mpr (List.mem_map_of_mem
      (mem_interactionIds.mpr ⟨hit, mem, congrArg _ same⟩))
  have after : w'.db.getMemory m.id =
      some { m with accessCount := m.accessCount + 1, lastAccessedTimestamp := now } := by
    have row : w'.db.getMemory m.id =
        (w₁.db.touchAccessBatch (sortedGroupsTurnIds scored ctx.blocks) now).getMemory m.id :=
      congrArg (fun t => Table.find? t m.id) counted
    rw [row, Db.getMemory_touchAccessBatch, db₁,
      show db.getMemory m.id = some m from Table.find?_of_mem stored, Option.map_some,
      if_pos ⟨touched, own.1⟩]
  obtain ⟨block, -, -, source⟩ := found.counted m stored _ after (Nat.succ_ne_self _)
  rw [← interactionId_of_mem_blockSources source] at source
  exact (Db.mem_blockSources_iff stored own.1).mp source

/-- For every budget, embedding and search, a query shows what it has found and counts only what
it shows, exactly if every memory that it can hit has fewer than `AGG_MAX_TURNS` live turns of
its interaction before it. -/
theorem retrieve_shows_found_iff (eng : MemoryEngine) (query : RetrieveQuery) (db : Db F)
    (s : LocalStore F) :
    (∀ (tokenBudget : Nat) (w w' : World F) (ctx : FormattedContext F), w.db = db →
      w.store = s → run (retrieveContext eng { query with tokenBudget := tokenBudget }) w =
        (.ok ctx, w') → ∃ now scored w₁, run (retrieveHits eng query) w = (.ok (now, scored), w₁) ∧
          ShowsFound db scored ctx w'.db) ↔
      ∀ v m, s.Searchable query v → db.hitRow query v = some m →
        (db.turnsBefore m).length < AGG_MAX_TURNS := by
  constructor
  · intro shows v m searchable hitRow
    exact early_of_showsFound shows searchable hitRow
  · rintro early tokenBudget w w' ctx rfl rfl ran
    exact showsFound_of_early ran early

/-! ### A late turn -/

/-- Turn `i` of an interaction; only the last of 21 has a vector. -/
def longTurn (i : Nat) : MemoryItem Fixed :=
  { MemoryItem.newTurnSkeleton (String.ofList (List.replicate i 'm')) "long" i "s" "" .episodic
      "turn" 1 with vectorRef := if i = 20 then "7" else "" }

def longDb : Db Fixed :=
  { (Db.empty : Db Fixed) with
    memoryItem := (List.range 21).foldl (fun t i => t.upsert (longTurn i)) .empty }

def longQuery : RetrieveQuery := ⟨"turn?", 1, none, "", "", "", none, 100⟩

/-- The turn that is found is not in its block, and its access is counted. -/
theorem late_turn_not_shown : ¬ ∀ (tokenBudget : Nat) (w w' : World Fixed)
    (ctx : FormattedContext Fixed), w.db = longDb → w.store = sharedStore →
      run (retrieveContext (plainEngine "") { longQuery with tokenBudget := tokenBudget }) w =
        (.ok ctx, w') → ∃ now scored w₁,
          run (retrieveHits (plainEngine "") longQuery) w = (.ok (now, scored), w₁) ∧
            ShowsFound longDb scored ctx w'.db := by
  intro shows
  have searchable : sharedStore.Searchable longQuery 7 :=
    ⟨fun _ _ _ => [], [⟨1000000⟩], _, fun _ _ _ => ⟨Nat.zero_le _, fun _ none => (by cases none)⟩,
      rfl, by decide, by decide⟩
  have late := early_of_showsFound shows searchable (m := longTurn 20) (by decide)
  exact absurd late (by decide)

end FusionMemory
