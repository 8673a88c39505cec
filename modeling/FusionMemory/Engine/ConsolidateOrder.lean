import FusionMemory.Engine.ConsolidateFrame
import FusionMemory.Engine.Staging
import FusionMemory.Lib.DecimalJson

/-!
Whether the later phases of a run undo its earlier ones.

All phases write whole rows of the snapshot taken at the start. Re-extraction comes after
recycling, promoting and merging and writes the snapshot of a pending row back, with its
old tombstone and tier. `consolidate_keeps_work_iff` says exactly when no run, with
storage that does not fail, undoes its own work.
-/

namespace FusionMemory

open Lib

variable {F : Type} [FloatArith F]

/-! ### Phase 2, without failures -/

/-- A row of the change set may be merged in a store in which the vectors of `gone` are
deleted. -/
def MayMerge (all : List (MemoryItem F)) (gone : Nat → Bool) (src : MemoryItem F) : Prop :=
  isSemantic src = true ∧ ∃ vr v tgt, parseU64 src.vectorRef = some vr ∧ gone vr = false ∧
    gone v = false ∧ mergeTarget all src vr (v, FloatArith.ofNat 1) = some tgt

/-- From `w` to `w'` the rows `merged` were merged. -/
structure World.Merges (all changed merged : List (MemoryItem F)) (w w' : World F) : Prop where
  env : w'.env = w.env
  rows : w'.db.memoryItem =
    merged.foldl (fun t m => Memories.setTombstone t m.id true) w.db.memoryItem
  log : ∃ new, w'.db.mergeLog = w.db.mergeLog ++ new ∧
    new.map (·.sourceId) = merged.map (·.id)
  sources : ∀ src ∈ merged, src ∈ changed ∧ MayMerge all w.store.isTombstoned src
  store : ∀ v, w'.store.isTombstoned v = false → w.store.isTombstoned v = false

variable {all changed : List (MemoryItem F)}

theorem World.Merges.refl (w : World F) : w.Merges all changed [] w :=
  ⟨rfl, rfl, ⟨[], by simp, rfl⟩, by simp, fun _ h => h⟩

theorem World.Merges.trans {merged merged' : List (MemoryItem F)} {w w' w'' : World F}
    (first : w.Merges all changed merged w') (last : w'.Merges all changed merged' w'') :
    w.Merges all changed (merged ++ merged') w'' := by
  obtain ⟨new, log, ids⟩ := first.log
  obtain ⟨new', log', ids'⟩ := last.log
  refine ⟨last.env.trans first.env, ?_, ⟨new ++ new', ?_, ?_⟩, ?_, ?_⟩
  · rw [last.rows, first.rows, List.foldl_append]
  · rw [log', log, List.append_assoc]
  · rw [List.map_append, List.map_append, ids, ids']
  · intro src mem
    rcases List.mem_append.mp mem with early | late
    · exact first.sources src early
    · obtain ⟨listed, semantic, vr, v, tgt, parsed, own, hit, target⟩ := last.sources src late
      exact ⟨listed, semantic, vr, v, tgt, parsed, first.store vr own, first.store v hit, target⟩
  · exact fun v live => first.store v (last.store v live)

theorem merges_alike {w w' : World F} (alike : w.Alike w') : w.Merges all changed [] w' := by
  refine ⟨alike.env, congrArg Db.memoryItem alike.db, ⟨[], ?_, rfl⟩, by simp, ?_⟩
  · rw [alike.db, List.append_nil]
  · intro v live
    rwa [alike.store] at live

/-- One source is merged or left alone. -/
theorem merges_mergeSource {w : World F} (works : w.env.NoFaults) («at» : Nat) (acc : Progress)
    {src : MemoryItem F} (listed : src ∈ changed) (semantic : isSemantic src = true) :
    ∃ merged, w.Merges all changed merged (run (mergeSource all «at» acc src) w).2 := by
  obtain ⟨result, w', ran, alike | ⟨vr, hit, tgt, parsed, own, live, target, merge⟩⟩ :=
    run_mergeSource works all «at» acc src
  · exact ⟨[], by rw [ran]; exact merges_alike alike⟩
  · have env : w'.env = w.env := by
      have kept := run_env (mergeSource all «at» acc src) w
      rwa [ran] at kept
    obtain ⟨e, log, source, -⟩ := merge.log
    refine ⟨[src], ?_⟩
    rw [ran]
    refine ⟨env, merge.rows, ⟨[e], log, by simp [source]⟩, ?_, ?_⟩
    · intro src' mem
      obtain rfl := List.mem_singleton.mp mem
      exact ⟨listed, semantic, vr, hit.1, tgt, parsed, own, live, mergeTarget_best target⟩
    · intro v alive
      rw [merge.store, LocalStore.isTombstoned_deleteVector, Bool.or_eq_false_iff] at alive
      exact alive.2

/-- Phase 2 merges some rows of the change set. -/
theorem merges_consolidateMerge {w : World F} (works : w.env.NoFaults) {ns : NamespaceFilter}
    (valid : isValidNamespace ns.namespace = true) (eng : MemoryEngine) («at» : Nat)
    (failures : List ConsolidationFailure) :
    ∃ merged, w.Merges (tenantRows w.db.memoryItem eng.tenant ns) changed merged
      (run (consolidateMerge eng changed «at» failures ns) w).2 := by
  unfold consolidateMerge
  rw [run_bind_ok (run_listAllByTenantScoped works valid eng.tenant)]
  generalize tenantRows w.db.memoryItem eng.tenant ns = all
  let R : World F → World F → Prop := fun w w' =>
    w.env.NoFaults → w'.env = w.env ∧ ∃ merged, w.Merges all changed merged w'
  have refl : ∀ w, R w w := fun w _ => ⟨rfl, [], .refl w⟩
  have trans : ∀ {w w' w''}, R w w' → R w' w'' → R w w'' := by
    intro w w' w'' first last works
    obtain ⟨env, merged, merges⟩ := first works
    obtain ⟨env', merged', merges'⟩ := last (env ▸ works)
    exact ⟨env'.trans env, merged ++ merged', merges.trans merges'⟩
  have step : ∀ src ∈ changed.filter isSemantic, ∀ acc w,
      R w (run (mergeSource all «at» acc src) w).2 := by
    intro src mem acc w works
    obtain ⟨listed, semantic⟩ := List.mem_filter.mp mem
    exact ⟨run_env _ w, merges_mergeSource works «at» acc listed semantic⟩
  obtain ⟨-, merged, merges⟩ := run_foldlM_rel refl trans _ step ⟨0, failures⟩ (w.withDb w.db) works
  exact ⟨merged, merges.env, merges.rows, merges.log, merges.sources, merges.store⟩

/-! ### What becomes of the rows of the change set -/

omit [FloatArith F] in
/-- Merging rows tombstones them and changes no other row. -/
theorem find?_merged (merged : List (MemoryItem F)) (t : Memories F) (i : String) :
    (merged.foldl (fun t m => Memories.setTombstone t m.id true) t).find? i =
      (t.find? i).map fun r =>
        if merged.any (·.id == i) then { r with tombstone := true } else r := by
  induction merged generalizing t with
  | nil => simp
  | cons m rest ih =>
      rw [List.foldl_cons, ih, Memories.find?_setTombstone]
      cases found : t.find? i with
      | none => rfl
      | some r =>
          have key : r.id = i := Table.find?_key found
          subst key
          by_cases same : m.id = r.id
          · simp [same]
          · have other : r.id ≠ m.id := Ne.symm same
            simp [same, other]

/-- The vectors that phase 1 deletes. -/
def recycledVectors (now : Nat) (changed : List (MemoryItem F)) (v : Nat) : Bool :=
  changed.any fun m => recycledVector now m == some v

omit [FloatArith F] in
theorem isTombstoned_foldl_drop (ref : MemoryItem F → Option Nat) (rows : List (MemoryItem F))
    (s : LocalStore F) (v : Nat) :
    (rows.foldl (fun s m => s.drop true (ref m)) s).isTombstoned v =
      (rows.any (fun m => ref m == some v) || s.isTombstoned v) := by
  induction rows generalizing s with
  | nil => rfl
  | cons m rest ih =>
      rw [List.foldl_cons, ih, List.any_cons]
      cases ref m with
      | none => simp [LocalStore.drop]
      | some v' =>
          by_cases same : v' = v
          · simp [LocalStore.drop, same]
          · have other : (v' == v) = false := by simpa using same
            simp [LocalStore.drop, same, other]

variable [JsonText F]

/-- What follows phase 2 writes only pending rows and rows under new ids. -/
theorem evolves_consolidateChanged_merged (eng : MemoryEngine) (ns : NamespaceFilter) (now : Nat)
    {changed : List (MemoryItem F)} {w₁ w₂ : World F} {tally : Tally}
    (first : run (changed.foldlM (recycleOrPromote now) ⟨0, 0, []⟩) w₁ = (.ok tally, w₂))
    (fresh : MemoryItem F → Prop)
    (puts : eng.hasExtractor = true → ∀ m ∈ changed, m.entitiesPending = true →
      ∀ entities, fresh (reextracted m entities))
    (isNew : ∀ r, (∀ m ∈ (run (consolidateMerge eng changed now tally.failures ns)
      w₂).2.db.memoryItem.rows, m.id ≠ r.id) → fresh r) :
    (run (consolidateMerge eng changed now tally.failures ns) w₂).2.Evolves fresh
      (fun _ _ => False) (run (consolidateChanged eng ns now changed) w₁).2 := by
  unfold consolidateChanged
  rw [run_bind_ok first]
  cases ran : run (consolidateMerge eng changed now tally.failures ns) w₂ with
  | mk result w₃ =>
      rw [ran] at isNew
      cases result with
      | error e =>
          rw [run_bind_error ran]
          exact .refl w₃
      | ok progress =>
          rw [run_bind_ok ran]
          exact evolves_afterMerge puts (fun r _ new => isNew r new) ns now tally progress

omit [FloatArith F] [JsonText F] in
/-- The row is what re-extraction writes back of a pending row. -/
def WrittenBack (eng : MemoryEngine) (m r : MemoryItem F) : Prop :=
  eng.hasExtractor = true ∧ m.entitiesPending = true ∧ ∃ entities, r = reextracted m entities

/-- A run without failures: some rows were merged, and every row of the change set that
is not written back by re-extraction is what phases 1 and 2 made of it, or is gone. -/
theorem run_consolidateImpl_rows {w : World F} (works : w.env.NoFaults) {ns : NamespaceFilter}
    (valid : isValidNamespace ns.namespace = true) (eng : MemoryEngine) {now : Nat}
    (start : w.env.clock (w.tick + 1) = now) :
    ∃ merged : List (MemoryItem F),
      (∃ new, (run (consolidateImpl eng ns) w).2.db.mergeLog = w.db.mergeLog ++ new ∧
        new.map (·.sourceId) = merged.map (·.id)) ∧
      (∀ src ∈ merged, src ∈ w.db.changeSet ns ∧
        MayMerge (tenantRows (firstPhase (fun _ => true) now (w.db.changeSet ns) w.db.memoryItem)
          eng.tenant ns) (recycledVectors now (w.db.changeSet ns)) src) ∧
      ∀ m ∈ w.db.changeSet ns, ∀ r,
        (run (consolidateImpl eng ns) w).2.db.getMemory m.id = some r → ¬ WrittenBack eng m r →
          r = if merged.any (·.id == m.id) then { afterFirst now m with tombstone := true }
            else afterFirst now m := by
  obtain ⟨w₁, alike, -, ran⟩ := run_consolidateImpl_works works valid eng
  rw [ran, start]
  rw [← alike.env] at works
  rw [← alike.db]
  clear ran start alike
  have nodup := changeSet_nodup w₁.db ns
  have inDb : ∀ m ∈ w₁.db.changeSet ns, m ∈ w₁.db.memoryItem.rows := fun m mem => (mem_changeSet mem).1
  generalize w₁.db.changeSet ns = changed at nodup inDb
  have writes : ∀ t, ∀ m ∈ changed, (w₁.env.persistFault t (firstWrite now m)).isNone = true := by
    intro t m _
    rw [works.persist]
    rfl
  have deletions : ∀ t v, (w₁.env.storeFault t (.deleteVector v)).isNone = true := by
    intro t v
    rw [works.store]
    rfl
  obtain ⟨tally, w₂, first, same, rows₂, store₂⟩ := run_firstPhase (fun _ => true) true now changed w₁
    ⟨0, 0, []⟩ writes deletions
  rw [← same.env] at works
  obtain ⟨merged, merges⟩ := merges_consolidateMerge works valid eng now tally.failures
  have after := evolves_consolidateChanged_merged eng ns now first
  generalize (run (consolidateMerge eng changed now tally.failures ns) w₂).2 = w₃ at merges after
  generalize (run (consolidateChanged eng ns now changed) w₁).2 = w₄ at after
  refine ⟨merged, ?_, ?_, ?_⟩
  · obtain ⟨new, log, ids⟩ := merges.log
    obtain ⟨none, log', empty⟩ := (after (fun _ => True) (fun _ _ _ _ _ => trivial)
      fun _ _ => trivial).merges
    obtain rfl : none = [] := List.eq_nil_iff_forall_not_mem.mpr empty
    refine ⟨new, ?_, ids⟩
    rw [log', log, List.append_nil, same.mergeLog]
  · intro src mem
    obtain ⟨listed, semantic, vr, v, tgt, parsed, own, hit, target⟩ := merges.sources src mem
    rw [rows₂] at target
    rw [store₂, isTombstoned_foldl_drop, Bool.or_eq_false_iff] at own hit
    exact ⟨listed, semantic, vr, v, tgt, parsed, own.1, hit.1, target⟩
  · intro m listed r found settled
    have stored : w₁.db.memoryItem.find? m.id = some m := Table.find?_of_mem (inDb m listed)
    have row₃ : w₃.db.memoryItem.find? m.id = some (if merged.any (·.id == m.id) then
        { afterFirst now m with tombstone := true } else afterFirst now m) := by
      rw [merges.rows, find?_merged, rows₂, find?_firstPhase nodup listed stored]
      rfl
    have evolves := after (fun r => r.id = m.id → WrittenBack eng m r)
      (fun able m' mem pending entities sameId => ?_) (fun r new sameId => ?_)
    · have key : r.id = m.id := Table.find?_key found
      rcases evolves.rows r (Table.find?_mem found) with old | back
      · have same₃ := Table.find?_of_mem old
        rw [key, row₃] at same₃
        exact (Option.some.inj same₃).symm
      · exact absurd (back key) settled
    · obtain rfl := List.inj_on_of_nodup_map nodup mem listed sameId
      exact ⟨able, pending, entities, rfl⟩
    · exact absurd ((Table.find?_key row₃).trans sameId.symm) (new _ (Table.find?_mem row₃))

/-! ### The later phases and the earlier ones -/

/-- A run from `w` to `w'` over `changed` undid none of its own work. -/
structure KeepsWork (now : Nat) (changed : List (MemoryItem F)) (w w' : World F) : Prop where
  recycled : ∀ m ∈ changed, shouldRecycle m now = true →
    ∀ r, w'.db.getMemory m.id = some r → r.tombstone = true
  merged : ∀ m ∈ changed, (∃ e ∈ w'.db.mergeLog.drop w.db.mergeLog.length, e.sourceId = m.id) →
    ∀ r, w'.db.getMemory m.id = some r → r.tombstone = true
  promoted : ∀ m ∈ changed, shouldRecycle m now = false → mayPromote m now = true →
    ∀ r, w'.db.getMemory m.id = some r → r.tier = .long

/-- No row that re-extraction would write back is recycled, promoted or merged. -/
def NothingPending (db : Db F) (eng : MemoryEngine) (ns : NamespaceFilter) (now : Nat) : Prop :=
  eng.hasExtractor = true → ∀ m ∈ db.changeSet ns, m.entitiesPending = true →
    shouldRecycle m now = false ∧ mayPromote m now = false ∧
      ¬ MayMerge (tenantRows (firstPhase (fun _ => true) now (db.changeSet ns) db.memoryItem)
        eng.tenant ns) (recycledVectors now (db.changeSet ns)) m

theorem keepsWork_of_nothingPending {w : World F} (works : w.env.NoFaults) {ns : NamespaceFilter}
    {eng : MemoryEngine} {now : Nat} (start : w.env.clock (w.tick + 1) = now)
    (nothing : NothingPending w.db eng ns now) :
    KeepsWork now (w.db.changeSet ns) w (run (consolidateImpl eng ns) w).2 := by
  by_cases valid : isValidNamespace ns.namespace = true
  · obtain ⟨merged, ⟨new, log, ids⟩, sources, rows⟩ := run_consolidateImpl_rows works valid eng start
    constructor
    · intro m listed forgotten r found
      rw [rows m listed r found fun h => by simp [(nothing h.1 m listed h.2.1).1] at forgotten]
      unfold afterFirst
      split_ifs <;> rfl
    · rintro m listed ⟨e, logged, source⟩ r found
      rw [log, List.drop_left] at logged
      have inMerged : m.id ∈ merged.map (·.id) := by
        rw [← ids, ← source]
        exact List.mem_map_of_mem logged
      obtain ⟨src, mem, sameId⟩ := List.mem_map.mp inMerged
      obtain ⟨srcListed, possible⟩ := sources src mem
      obtain rfl := List.inj_on_of_nodup_map (changeSet_nodup w.db ns) srcListed listed sameId
      rw [rows src listed r found fun h => (nothing h.1 src listed h.2.1).2.2 possible,
        if_pos (List.any_eq_true.mpr ⟨src, mem, by simp⟩)]
    · intro m listed remembered worth r found
      have raised : afterFirst now m = promoted m := by
        unfold afterFirst
        rw [if_neg (by simp [remembered]), if_pos worth]
      rw [rows m listed r found fun h => by simp [(nothing h.1 m listed h.2.1).2.1] at worth, raised]
      split_ifs <;> rfl
  · have empty : ∀ m, m ∉ w.db.changeSet ns := fun m mem => valid (changeSet_valid mem)
    exact ⟨fun m mem => absurd mem (empty m), fun m mem => absurd mem (empty m),
      fun m mem => absurd mem (empty m)⟩

/-! ### Writing a pending row back -/

/-- An environment without failures in which the clock shows `now` and the extractor
succeeds on every text. -/
def Env.extracting (now : Nat) : Env F := { Env.stopped now with extract := fun _ _ => ⟨[], true⟩ }

omit [FloatArith F] [JsonText F] in
theorem Env.extracting_noFaults (now : Nat) : (Env.extracting now : Env F).NoFaults :=
  ⟨fun _ _ => rfl, fun _ _ => rfl⟩

/-- Without a chat model phase 3 does nothing. -/
theorem run_consolidateSummarize_silent {w : World F} (silent : ∀ t s u, w.env.chat t s u = none)
    (eng : MemoryEngine) (changed : List (MemoryItem F)) («at» : Nat)
    (failures : List ConsolidationFailure) (ns : NamespaceFilter) :
    ∃ acc w', run (consolidateSummarize eng changed «at» failures ns) w = (.ok acc, w') ∧
      w.Alike w' := by
  have loop : ∀ (sessions : List String) acc w', w.Alike w' → ∃ acc' w'',
      run (sessions.foldlM (summarizeSession eng changed «at» ns) acc) w' = (.ok acc', w'') ∧
        w.Alike w'' := by
    intro sessions
    induction sessions with
    | nil => exact fun acc w' alike => ⟨acc, w', rfl, alike⟩
    | cons session rest ih =>
        intro acc w' alike
        have first : ∃ acc' w'', run (summarizeSession eng changed «at» ns acc session) w' =
            (.ok acc', w'') ∧ w'.Alike w'' := by
          unfold summarizeSession
          dsimp only
          split_ifs
          · exact ⟨acc, w', rfl, .refl w'⟩
          · rw [run_chatCompletion_bind, alike.env, silent]
            exact ⟨_, _, rfl, rfl, rfl, rfl⟩
        obtain ⟨acc₁, w₁, ran₁, alike₁⟩ := first
        obtain ⟨acc₂, w₂, ran₂, alike₂⟩ := ih acc₁ w₁ (alike.trans alike₁)
        exact ⟨acc₂, w₂, by rw [List.foldlM_cons, run_bind_ok ran₁, ran₂], alike₂⟩
  unfold consolidateSummarize
  split_ifs
  · rw [run_iterationOrder_bind]
    exact loop _ _ _ ⟨rfl, rfl, rfl⟩
  · exact ⟨_, w, rfl, .refl w⟩

/-- Storage does not fail, and the extractor succeeds on every text. -/
structure Env.Extracts (env : Env F) : Prop where
  works : env.NoFaults
  succeeds : ∀ t text, (env.extract t text).success = true

omit [FloatArith F] [JsonText F] in
theorem Env.extracting_extracts (now : Nat) : (Env.extracting now : Env F).Extracts :=
  ⟨Env.extracting_noFaults now, fun _ _ => rfl⟩

/-- Phase 4 for one row, when the extractor succeeds. -/
theorem run_reextract {w : World F} (extracts : w.env.Extracts) (eng : MemoryEngine) (now : Nat)
    (acc : Progress) (m : MemoryItem F) :
    ∃ acc' w', run (reextract eng now acc m) w = (.ok acc', w') ∧ w'.env = w.env ∧
      w'.db.memoryItem = if m.entitiesPending && eng.hasExtractor then
        w.db.memoryItem.upsert (reextracted m (w.env.extract w.tick m.content).entities)
        else w.db.memoryItem := by
  unfold reextract
  split_ifs with wanted
  · rw [run_extract_bind, if_pos (extracts.succeeds _ _)]
    dsimp only
    rw [run_persist_works (w := w.next) extracts.works]
    dsimp only [PersistOp.exec]
    rw [run_persist_works]
    · exact ⟨_, _, rfl, rfl, rfl⟩
    · exact extracts.works
  · exact ⟨acc, w, rfl, rfl, rfl⟩

/-- Phase 4 leaves the rows outside its list alone. -/
theorem run_reextracts_other (eng : MemoryEngine) (now : Nat) {i : String}
    {rows : List (MemoryItem F)} (outside : ∀ m ∈ rows, m.id ≠ i) :
    ∀ {w : World F}, w.env.Extracts → ∀ acc, ∃ acc' w',
      run (rows.foldlM (reextract eng now) acc) w = (.ok acc', w') ∧ w'.env = w.env ∧
        w'.db.getMemory i = w.db.getMemory i := by
  induction rows with
  | nil => exact fun _ acc => ⟨acc, _, rfl, rfl, rfl⟩
  | cons m rest ih =>
      intro w extracts acc
      obtain ⟨acc₁, w₁, ran₁, env₁, rows₁⟩ := run_reextract extracts eng now acc m
      obtain ⟨acc₂, w₂, ran₂, env₂, found₂⟩ :=
        ih (fun m' mem => outside m' (List.mem_cons_of_mem _ mem)) (env₁ ▸ extracts) acc₁
      refine ⟨acc₂, w₂, by rw [List.foldlM_cons, run_bind_ok ran₁, ran₂], env₂.trans env₁,
        found₂.trans ?_⟩
      unfold Db.getMemory
      rw [rows₁]
      split_ifs
      · rw [Table.find?_upsert]
        exact if_neg (outside m List.mem_cons_self)
      · rfl

/-- Phase 4 writes a pending row back as it was in the snapshot, with what was extracted. -/
theorem run_reextracts {w : World F} (extracts : w.env.Extracts) {eng : MemoryEngine} (now : Nat)
    (able : eng.hasExtractor = true) {changed : List (MemoryItem F)}
    (nodup : (changed.map (·.id)).Nodup) {m : MemoryItem F} (listed : m ∈ changed)
    (pending : m.entitiesPending = true) (acc : Progress) :
    ∃ acc' w' t, run (changed.foldlM (reextract eng now) acc) w = (.ok acc', w') ∧
      w'.env = w.env ∧
        w'.db.getMemory m.id = some (reextracted m (w.env.extract t m.content).entities) := by
  obtain ⟨before, after, rfl⟩ := List.append_of_mem listed
  rw [List.map_append, List.map_cons, List.nodup_append] at nodup
  obtain ⟨-, nodup, apart⟩ := nodup
  rw [List.nodup_cons] at nodup
  have first : ∀ m' ∈ before, m'.id ≠ m.id := fun m' mem =>
    apart _ (List.mem_map_of_mem mem) _ List.mem_cons_self
  have last : ∀ m' ∈ after, m'.id ≠ m.id := fun m' mem same =>
    nodup.1 (same ▸ List.mem_map_of_mem mem)
  obtain ⟨acc₁, w₁, ran₁, env₁, -⟩ := run_reextracts_other eng now first extracts acc
  obtain ⟨acc₂, w₂, ran₂, env₂, rows₂⟩ := run_reextract (env₁ ▸ extracts) eng now acc₁ m
  have same : w₂.env = w.env := env₂.trans env₁
  obtain ⟨acc₃, w₃, ran₃, env₃, found₃⟩ :=
    run_reextracts_other eng now last (same ▸ extracts) acc₂
  refine ⟨acc₃, w₃, w₁.tick, ?_, env₃.trans same, found₃.trans ?_⟩
  · rw [List.foldlM_append, run_bind_ok ran₁, List.foldlM_cons, run_bind_ok ran₂, ran₃]
  · unfold Db.getMemory
    rw [rows₂, if_pos (by simp [pending, able]), Table.find?_upsert, env₁]
    exact if_pos rfl

omit [JsonText F] in
/-- Phase 5 keeps every live row. -/
theorem getMemory_consolidateReconcile {w : World F} {i : String} {r : MemoryItem F}
    (found : w.db.getMemory i = some r) (live : r.tombstone = false) (eng : MemoryEngine)
    («at» : Nat) (failures : List ConsolidationFailure) (ns : NamespaceFilter) :
    (run (consolidateReconcile eng «at» failures ns) w).2.db.getMemory i = some r := by
  have allows : AllowsScans «at» (Request.Avoids (F := F) i) :=
    ⟨fun _ _ _ => trivial, fun _ _ => trivial, trivial, trivial, fun _ => trivial,
      fun _ => trivial, trivial⟩
  refine keeps_consolidateReconcile allows (G := fun w => w.db.getMemory i = some r)
    (fun q w avoids found => (getMemory_exec w avoids).trans found) ?_ eng failures ns found
  intro w found t mem _ v _ sameId
  -- A tombstoned row is not the live one.
  obtain ⟨stored, dead⟩ := Db.mem_listTombstoned.mp mem
  have same := Table.find?_of_mem stored
  rw [show w.db.memoryItem.find? t.id = some r from sameId ▸ found] at same
  cases same
  rw [live] at dead
  cases dead

/-- Phase 4 writes a pending row back as it was in the snapshot, and nothing after it
changes that. -/
theorem run_afterMerge_restores {w : World F} {now : Nat} (env : w.env = .extracting now)
    {eng : MemoryEngine} (able : eng.hasExtractor = true) {changed : List (MemoryItem F)}
    (nodup : (changed.map (·.id)).Nodup) {m : MemoryItem F} (listed : m ∈ changed)
    (live : m.tombstone = false) (pending : m.entitiesPending = true) (ns : NamespaceFilter)
    (tally : Tally) (merged : Progress) :
    (run (afterMerge eng ns now changed tally merged) w).2.db.getMemory m.id =
      some (reextracted m []) := by
  let R : World F → World F → Prop := fun w w' =>
    w.db.getMemory m.id = some (reextracted m []) → w'.db.getMemory m.id = some (reextracted m [])
  have trans : ∀ {w w' w''}, R w w' → R w' w'' → R w w'' := fun first last h => last (first h)
  obtain ⟨summarized, w₁, ran₁, alike⟩ := run_consolidateSummarize_silent
    (fun t s u => by rw [env]; rfl) eng changed now merged.failures ns
  have env₁ : w₁.env = .extracting now := alike.env.trans env
  obtain ⟨progress, w₂, t, ran₂, -, found₂⟩ := run_reextracts (env₁ ▸ Env.extracting_extracts now)
    now able nodup listed pending ⟨0, summarized.failures⟩
  rw [env₁] at found₂
  unfold afterMerge lateProgram
  rw [run_bind_ok ran₁, bind_assoc, run_bind_ok ran₂, bind_assoc]
  refine run_bind_rel (R := R) trans (fun found => getMemory_consolidateReconcile found live eng now
    progress.failures ns) (fun reconciled w₃ _ => ?_) found₂
  intro found₃
  rw [bind_assoc, run_nowMs_bind]
  change (run (recordRun ns _ now >>= _) w₃.next).2.db.getMemory m.id = _
  refine (getMemory_run (Program.Only.bind (only_recordRun (fun _ _ _ => trivial) trivial ns)
    fun _ => ?_) _).trans found₃
  exact Program.Only.bind (only_persist trivial) fun _ => trivial

/-! ### Undoing phases 1 and 2 -/

omit [FloatArith F] [JsonText F] in
theorem vectors_foldl_drop (ref : MemoryItem F → Option Nat) (rows : List (MemoryItem F))
    (s : LocalStore F) :
    (rows.foldl (fun s m => s.drop true (ref m)) s).vecTree = s.vecTree ∧
      (rows.foldl (fun s m => s.drop true (ref m)) s).hnsw = s.hnsw ∧
      (rows.foldl (fun s m => s.drop true (ref m)) s).dim = s.dim := by
  induction rows generalizing s with
  | nil => exact ⟨rfl, rfl, rfl⟩
  | cons m rest ih =>
      obtain ⟨vectors, index, dim⟩ := ih (s.drop true (ref m))
      rw [List.foldl_cons, vectors, index, dim]
      cases ref m <;> exact ⟨rfl, rfl, rfl⟩

omit [JsonText F] in
/-- Phase 1 leaves the vectors of a merge there if it deletes neither of them. -/
theorem LocalStore.Holds.foldl_drop {s : LocalStore F} {vr v now : Nat} (holds : s.Holds vr v)
    {changed : List (MemoryItem F)} (own : recycledVectors now changed vr = false)
    (hit : recycledVectors now changed v = false) :
    (changed.foldl (fun s m => s.drop true (recycledVector now m)) s).Holds vr v := by
  obtain ⟨vectors, index, dim⟩ := vectors_foldl_drop (recycledVector now) changed s
  unfold recycledVectors at own hit
  refine ⟨by rw [vectors, holds.vectors], by rw [dim, holds.dim], ?_, by rw [index]; exact holds.indexed, ?_⟩
  · rw [isTombstoned_foldl_drop, own, holds.live]
    rfl
  · rw [isTombstoned_foldl_drop, hit, holds.indexLive]
    rfl

/-- An environment without failures whose clock shows `now`. -/
def Env.CalmAt (now : Nat) (env : Env F) : Prop := env.NoFaults ∧ ∀ t, env.clock t = now

omit [FloatArith F] [JsonText F] in
theorem Env.switchable_calmAt (now : Nat) : Env.Switchable (Env.CalmAt (F := F) now) := by
  intro env env' t first last
  refine ⟨Env.switchable_noFaults env env' t first.1 last.1, fun t' => ?_⟩
  unfold Env.upTo
  dsimp only
  split_ifs
  · exact first.2 t'
  · exact last.2 t'

section Undo

variable {db : Db F} {eng : MemoryEngine} {ns : NamespaceFilter} (now : Nat) {m : MemoryItem F}
  (able : eng.hasExtractor = true) (listed : m ∈ db.changeSet ns) (pending : m.entitiesPending = true)

include listed

/-- A run may go through phase 1 as it should. -/
theorem can_afterFirst {Q : Db F → Prop} (s : LocalStore F)
    (rest : ∀ tally w, w.db.mergeLog = db.mergeLog →
      w.db.memoryItem = firstPhase (fun _ => true) now (db.changeSet ns) db.memoryItem →
      w.store = (db.changeSet ns).foldl (fun s m => s.drop true (recycledVector now m)) s →
      Can (Env.CalmAt now) Q (consolidateMerge eng (db.changeSet ns) now tally.failures ns >>=
        fun merged => afterMerge eng ns now (db.changeSet ns) tally merged) w) :
    Can (Env.CalmAt now) Q (consolidateImpl eng ns) (World.fresh .quiet db s) := by
  refine Can.consolidate now (Env.switchable_calmAt now) (fun _ works clock => ⟨works, clock⟩)
    (changeSet_valid listed) fun w₁ db₁ store₁ => ?_
  change w₁.db = db at db₁
  obtain ⟨tally, w₂, ran, same, rows, store₂⟩ := run_firstPhase (fun _ => true) true now
    (db.changeSet ns) (w₁.withEnv (.stopped now)) ⟨0, 0, []⟩ (fun _ _ _ => rfl) fun _ _ => rfl
  refine Can.bind (Env.switchable_calmAt now) ⟨Env.stopped_noFaults now, fun _ => rfl⟩ ran
    (rest tally w₂ ?_ ?_ ?_)
  · rw [same.mergeLog, World.withEnv_db, db₁]
  · rw [rows, World.withEnv_db, db₁]
  · rw [store₂, World.withEnv_store, store₁]
    rfl

include able pending

/-- A pending row of the change set may end as it was, whatever phase 1 made of it. -/
theorem can_restore : Can (Env.CalmAt now) (fun db' => db'.getMemory m.id = some (reextracted m []))
    (consolidateImpl eng ns) (World.fresh .quiet db (.empty 0)) := by
  refine can_afterFirst now listed _ fun tally w₂ _ _ store₂ => ?_
  have empty : ∀ v, w₂.store.getVector v = none := by
    intro v
    unfold LocalStore.getVector
    rw [store₂, (vectors_foldl_drop (recycledVector now) (db.changeSet ns) (.empty 0)).1]
    exact ite_self _
  obtain ⟨w₃, ran, alike⟩ := run_consolidateMerge_empty (w := w₂.withEnv (.extracting now))
    (Env.extracting_noFaults now) (changeSet_valid listed) eng (db.changeSet ns) now tally.failures
    empty
  refine ⟨.extracting now, ⟨Env.extracting_noFaults now, fun _ => rfl⟩, ?_⟩
  rw [run_bind_ok ran]
  exact run_afterMerge_restores alike.env able (changeSet_nodup db ns) listed
    (mem_changeSet listed).2 pending ns tally _

/-- A pending row of the change set may be merged and still end as it was. -/
theorem can_restore_merged (possible : MayMerge
      (tenantRows (firstPhase (fun _ => true) now (db.changeSet ns) db.memoryItem) eng.tenant ns)
      (recycledVectors now (db.changeSet ns)) m) :
    ∃ s, Can (Env.CalmAt now) (fun db' => db'.getMemory m.id = some (reextracted m []) ∧
        ∃ e ∈ db'.mergeLog.drop db.mergeLog.length, e.sourceId = m.id)
      (consolidateImpl eng ns) (World.fresh .quiet db s) := by
  obtain ⟨semantic, vr, v, tgt, parsed, own, hit, target⟩ := possible
  refine ⟨.holding vr v, can_afterFirst now listed _ fun tally w₂ log₂ rows₂ store₂ => ?_⟩
  have holds : w₂.store.Holds vr v := by
    rw [store₂]
    exact (LocalStore.holding_holds vr v).foldl_drop own hit
  have calm : Env.CalmAt now (.extracting now : Env F) := ⟨Env.extracting_noFaults now, fun _ => rfl⟩
  refine Can.merge now (Env.switchable_calmAt now) (fun _ works clock => ⟨works, clock⟩)
    (changeSet_valid listed) listed semantic parsed holds (rows₂ ▸ target)
    fun others acc w₃ merged => ⟨.extracting now, calm, ?_⟩
  have empty : ∀ v', w₃.store.getVector v' = none := by
    intro v'
    rw [merged.store, LocalStore.getVector_deleteVector]
    split_ifs with same
    · rfl
    · exact holds.getVector_other (Ne.symm same)
  obtain ⟨w₄, ran, alike⟩ := run_mergeSources (w := w₃.withEnv (.extracting now)) others
    (fun src _ acc w' alike => run_mergeSource_idle (alike.env ▸ Env.extracting_noFaults now) _ now acc
      fun vr _ => alike.store ▸ empty vr) acc _ (.refl _)
  rw [run_bind_ok ran]
  refine ⟨run_afterMerge_restores alike.env able (changeSet_nodup db ns) listed
    (mem_changeSet listed).2 pending ns tally _, ?_⟩
  obtain ⟨e, log₃, source, -⟩ := merged.log
  have grows : w₄.Evolves (fun _ => True) (fun _ _ => True)
      (run (afterMerge eng ns now (db.changeSet ns) tally acc) w₄).2 :=
    evolves_afterMerge (fun _ _ _ _ _ => trivial) (fun _ _ _ => trivial) ns now tally acc
  obtain ⟨new, log₄, -⟩ := grows.merges
  refine ⟨e, ?_, source⟩
  rw [log₄, alike.db, World.withEnv_db, log₃, log₂, List.append_assoc, List.drop_left]
  simp

end Undo

/-- Exactly the runs over a change set without a row that is both pending and recycled,
promoted or merged keep their work, whatever the store and the world outside. -/
theorem consolidate_keeps_work_iff (eng : MemoryEngine) (ns : NamespaceFilter) (db : Db F)
    (now : Nat) :
    (∀ w : World F, w.db = db → w.env.NoFaults → w.env.clock (w.tick + 1) = now →
      KeepsWork now (db.changeSet ns) w (run (consolidateImpl eng ns) w).2) ↔
      NothingPending db eng ns now := by
  constructor
  · intro keeps able m listed pending
    have live : m.tombstone = false := (mem_changeSet listed).2
    obtain ⟨env, ⟨works, clock⟩, restored⟩ := can_restore now able listed pending
    have kept := keeps ((World.fresh .quiet db (.empty 0)).withEnv env) rfl works (clock _)
    have remembered : shouldRecycle m now = false := by
      by_contra forgotten
      have buried := kept.recycled m listed (by simpa using forgotten) _ restored
      exact absurd (live.symm.trans buried) (by decide)
    refine ⟨remembered, ?_, fun possible => ?_⟩
    · by_contra worth
      have worth : mayPromote m now = true := by simpa using worth
      have short : m.tier = .short := by
        unfold mayPromote at worth
        simp only [Bool.and_eq_true, decide_eq_true_eq] at worth
        exact worth.1
      have raised := kept.promoted m listed remembered worth _ restored
      exact absurd (short.symm.trans raised) (by decide)
    · obtain ⟨s, env, ⟨works, clock⟩, restored, logged⟩ :=
        can_restore_merged now able listed pending possible
      have kept := keeps ((World.fresh .quiet db s).withEnv env) rfl works (clock _)
      have buried := kept.merged m listed logged _ restored
      exact absurd (live.symm.trans buried) (by decide)
  · rintro nothing w rfl works start
    exact keepsWork_of_nothingPending works start nothing

/-! ### A forgotten memory written back -/

/-- A turn of time 5 whose entities were never extracted. -/
def pendingTurn : MemoryItem Fixed :=
  { MemoryItem.newTurnSkeleton "m1" "ix" 0 "s" "a" .episodic "hello" 5 with
    vectorRef := "7", entitiesPending := true }

/-- A database with that turn alone, at time 10000000. -/
def lateTurn : World Fixed :=
  World.fresh (.extracting 10000000)
    { (Db.empty : Db Fixed) with memoryItem := Table.empty.upsert pendingTurn } (.empty 0)

def extractingEngine (tenant : String) : MemoryEngine := ⟨tenant, none, true, false⟩

theorem consolidate_revives_recycled_row :
    (run (consolidateImpl (extractingEngine "a") .default) lateTurn).1.isOk = true ∧
      ¬ KeepsWork 10000000 (lateTurn.db.changeSet .default) lateTurn
        (run (consolidateImpl (extractingEngine "a") .default) lateTurn).2 := by
  constructor
  · decide +kernel
  · intro kept
    have listed : lateTurn.db.changeSet .default = [pendingTurn] := by decide +kernel
    have restored : (run (consolidateImpl (extractingEngine "a") .default)
        lateTurn).2.db.getMemory "m1" = some (reextracted pendingTurn []) := by decide +kernel
    have buried := kept.recycled pendingTurn (by rw [listed]; exact List.mem_singleton.mpr rfl)
      (by decide +kernel) _ restored
    exact absurd buried (by decide)

end FusionMemory
