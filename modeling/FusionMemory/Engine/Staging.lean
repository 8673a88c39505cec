import FusionMemory.Engine.ConsolidatePhases

/-!
Runs that an environment can bring about.

`Can E Q p w` says that some environment in `E` makes a run of `p` from `w` end with a
database in `Q`. What has run stays whatever comes later, so such a run is built one
call at a time, and the answers are chosen when they are asked for. The second half
brings about the merge of one source: the vector store knows its vector, and the index
answers its search with the vector of the target.
-/

namespace FusionMemory

open Lib

variable {F : Type} [FloatArith F] {α β : Type}

/-! ### Angelic environments -/

def Can (E : Env F → Prop) (Q : Db F → Prop) (p : EngineM F α) (w : World F) : Prop :=
  ∃ env, E env ∧ Q (run p (w.withEnv env)).2.db

/-- The environment may become another one of its kind at any time. -/
def Env.Switchable (E : Env F → Prop) : Prop :=
  ∀ env env' t, E env → E env' → E (env.upTo t env')

omit [FloatArith F] in
theorem Env.switchable_any : Env.Switchable fun _ : Env F => True := fun _ _ _ _ _ => trivial

omit [FloatArith F] in
theorem Env.switchable_noFaults : Env.Switchable (Env.NoFaults (F := F)) := by
  intro env env' t first last
  constructor
  · intro t' op
    unfold Env.upTo
    dsimp only
    split_ifs
    · exact first.persist t' op
    · exact last.persist t' op
  · intro t' op
    unfold Env.upTo
    dsimp only
    split_ifs
    · exact first.store t' op
    · exact last.store t' op

namespace Can

variable {E : Env F → Prop} {Q : Db F → Prop}

theorem bind (switch : Env.Switchable E) {p : EngineM F α} {k : α → EngineM F β} {w w' : World F}
    {env : Env F} {a : α} (allowed : E env) (ran : run p (w.withEnv env) = (.ok a, w'))
    (rest : Can E Q (k a) w') : Can E Q (p >>= k) w := by
  obtain ⟨env', allowed', holds⟩ := rest
  refine ⟨env.upTo w'.tick env', switch _ _ _ allowed allowed', ?_⟩
  have switched := run_bind_upTo ran k env'
  change Q (run (p >>= k) ((w.withEnv env).withEnv _)).2.db
  rw [show env.upTo w'.tick env' = (w.withEnv env).env.upTo w'.tick env' from rfl, switched]
  exact holds

theorem withLock (l : Lock) {body : EngineM F α} {w : World F}
    (inside : Can E Q body (w.next.setHeld true l)) : Can E Q (withLock l body) w := by
  obtain ⟨env, allowed, holds⟩ := inside
  refine ⟨env, allowed, ?_⟩
  rw [run_withLock, World.setHeld_db, World.next_db]
  cases l <;> exact holds

/-- A read that does not fail. -/
theorem read (switch : Env.Switchable E) {env : Env F} (allowed : E env) (works : env.NoFaults)
    (op : PersistOp F) (isRead : op.isRead = true) {w : World F} {a : op.Value}
    (reply : (op.exec w.db).1 = .ok a) {k : op.Value → EngineM F β}
    (rest : ∀ w', w'.db = w.db → w'.store = w.store → Can E Q (k a) w') :
    Can E Q (persistOrFail op >>= k) w := by
  have ran : run (persistOrFail op) (w.withEnv env) = (.ok a, (w.withEnv env).withDb w.db) := by
    rw [run_persistOrFail, World.execPersist_eq (w := w.withEnv env) works, World.withEnv_db, reply,
      PersistOp.exec_isRead isRead]
    rfl
  exact bind switch allowed ran (rest _ rfl rfl)

end Can

/-! ### Nothing works any more -/

/-- Every call of the storage fails before it writes anything. -/
def Env.dead : Env F :=
  { Env.quiet with
    persistFault := fun _ _ => some (.poisoned, 0)
    storeFault := fun _ _ => some (.sled "", 0) }

omit [FloatArith F] in
theorem fails_no_writes (db : Db F) (e : PersistError) (op : PersistOp F) :
    (op.fails db e 0).2 = db := by
  unfold PersistOp.fails
  split
  · rw [Nat.zero_min]
    rfl
  · rfl
  · rfl
  · rfl
  · rfl
  · rfl

theorem run_dead (p : EngineM F α) (w : World F) : (run p (w.withEnv .dead)).2.db = w.db := by
  have keep : ∀ w : World F, w.env = .dead → (run p w).2.db = w.db := by
    induction p with
    | done a => exact fun _ _ => rfl
    | fail e => exact fun _ _ => rfl
    | request r next ih =>
        intro w dead
        refine (ih _ (w.exec r).2 ((w.exec_env r).trans dead)).trans ?_
        cases r with
        | persist op =>
            change (w.execPersist op).2 = w.db
            unfold World.execPersist
            rw [dead]
            exact fails_no_writes w.db _ op
        | acquire lock => cases lock <;> rfl
        | release lock => cases lock <;> rfl
        | _ => rfl
  exact keep (w.withEnv .dead) rfl

/-- A database that satisfies `Q` may stay as it is. -/
theorem Can.now {Q : Db F → Prop} {w : World F} (holds : Q w.db) (p : EngineM F α) :
    Can (fun _ => True) Q p w := ⟨.dead, trivial, by rw [run_dead]; exact holds⟩

/-! ### Merges without failures -/

/-- From `w` to `w'` the memory `src` was merged into `tgt`, and its vector deleted. -/
structure World.Merged (src tgt : MemoryItem F) (vr : Nat) (w w' : World F) : Prop where
  rows : w'.db.memoryItem = Memories.setTombstone w.db.memoryItem src.id true
  store : w'.store = w.store.deleteVector vr
  log : ∃ e, w'.db.mergeLog = w.db.mergeLog ++ [e] ∧ e.sourceId = src.id ∧ e.targetId = tgt.id

/-- The search of one source goes through its hits up to the first target. -/
theorem run_mergeInto {w : World F} (works : w.env.NoFaults) {all : List (MemoryItem F)}
    {«at» vr : Nat} {src : MemoryItem F} {vec : List F} (hits : List (Nat × F)) (acc : Progress) :
    (run (mergeInto all «at» src vr vec hits acc) w = (.ok acc, w) ∧
        ∀ hit ∈ hits, mergeTarget all src vr hit = none) ∨
      ∃ hit ∈ hits, ∃ tgt acc' w', mergeTarget all src vr hit = some tgt ∧
        run (mergeInto all «at» src vr vec hits acc) w = (.ok acc', w') ∧ w.Merged src tgt vr w' := by
  induction hits with
  | nil => exact .inl ⟨rfl, by simp⟩
  | cons hit rest ih =>
      unfold mergeInto
      cases target : mergeTarget all src vr hit with
      | none =>
          rcases ih with ⟨ran, none⟩ | ⟨hit', mem, tgt, acc', w', found, ran, merged⟩
          · refine .inl ⟨ran, fun hit' mem => ?_⟩
            rcases List.mem_cons.mp mem with rfl | mem
            · exact target
            · exact none hit' mem
          · exact .inr ⟨hit', List.mem_cons_of_mem _ mem, tgt, acc', w', found, ran, merged⟩
      | some tgt =>
          have merged : w.Merged src tgt vr ((((w.withDb (w.db.tombstoneMemory src.id)).withStore
              (w.store.deleteVector vr)).withDb ((w.db.tombstoneMemory src.id).recordMerge src.id
                tgt.id MERGE_REASON «at»)).withDb (((w.db.tombstoneMemory src.id).recordMerge src.id
                tgt.id MERGE_REASON «at»).appendWop "merge" (src.id ++ "\t" ++ tgt.id ++ "\t" ++
                  MERGE_REASON ++ "\t" ++ toString «at») «at»)) :=
            ⟨rfl, rfl, _, rfl, rfl, rfl⟩
          refine .inr ⟨hit, List.mem_cons_self, tgt, acc.succeed, _, target, ?_, merged⟩
          rw [run_persist_works works]
          dsimp only [PersistOp.exec]
          rw [run_store_works, run_persist_works]
          · dsimp only [PersistOp.exec]
            rw [run_persist_works]
            · rfl
            · exact works
          · exact works
          · exact works

/-- A source without a vector is left alone. -/
theorem run_mergeSource_idle {w : World F} (works : w.env.NoFaults) (all : List (MemoryItem F))
    («at» : Nat) (acc : Progress) {src : MemoryItem F}
    (missing : ∀ vr, parseU64 src.vectorRef = some vr → w.store.getVector vr = none) :
    ∃ w', run (mergeSource all «at» acc src) w = (.ok acc, w') ∧ w.Alike w' := by
  unfold mergeSource
  split_ifs with buried
  · exact ⟨w, rfl, .refl w⟩
  · cases parsed : parseU64 src.vectorRef with
    | none => exact ⟨w, rfl, .refl w⟩
    | some vr =>
        dsimp only
        rw [run_store_works works]
        dsimp only [StoreOp.exec]
        rw [missing vr parsed]
        exact ⟨_, rfl, rfl, rfl, rfl⟩

/-- A source with a vector searches with it. -/
theorem run_mergeSource_search {w : World F} (works : w.env.NoFaults) (all : List (MemoryItem F))
    («at» : Nat) (acc : Progress) {src : MemoryItem F} (live : src.tombstone = false) {vr : Nat}
    (parsed : parseU64 src.vectorRef = some vr) {vec : List F}
    (own : w.store.getVector vr = some vec) :
    run (mergeSource all «at» acc src) w =
      match w.store.searchKnn (w.env.ann (w.tick + 1)).1 vec MERGE_KNN with
      | .ok knn => run (mergeInto all «at» src vr vec knn acc)
          ((w.withStore w.store).withStore w.store)
      | .error e => (.error e.toMemory, (w.withStore w.store).withStore w.store) := by
  unfold mergeSource
  rw [if_neg (by simp [live]), parsed]
  dsimp only
  rw [run_store_works works]
  dsimp only [StoreOp.exec]
  rw [own]
  dsimp only [Except.mapError]
  rw [run_storeOrFail_bind, World.execStore_eq (w := World.withStore _ _)]
  · dsimp only [StoreOp.exec, World.withStore_store]
    have now : (w.withStore w.store).env.ann (w.withStore w.store).tick = w.env.ann (w.tick + 1) :=
      rfl
    rw [now]
    cases w.store.searchKnn (w.env.ann (w.tick + 1)).1 vec MERGE_KNN <;> rfl
  · exact works

/-- A source of phase 2 is left alone, or merged into a row that a live hit stands for. -/
theorem run_mergeSource {w : World F} (works : w.env.NoFaults) (all : List (MemoryItem F))
    («at» : Nat) (acc : Progress) (src : MemoryItem F) :
    ∃ result w', run (mergeSource all «at» acc src) w = (result, w') ∧
      (w.Alike w' ∨
        ∃ vr hit tgt, parseU64 src.vectorRef = some vr ∧ w.store.isTombstoned vr = false ∧
          w.store.isTombstoned hit.1 = false ∧ mergeTarget all src vr hit = some tgt ∧
          w.Merged src tgt vr w') := by
  by_cases searches : src.tombstone = false ∧
      ∃ vr vec, parseU64 src.vectorRef = some vr ∧ w.store.getVector vr = some vec
  · obtain ⟨live, vr, vec, parsed, own⟩ := searches
    rw [run_mergeSource_search works all «at» acc live parsed own]
    cases found : w.store.searchKnn (w.env.ann (w.tick + 1)).1 vec MERGE_KNN with
    | error e => exact ⟨_, _, rfl, .inl ⟨rfl, rfl, rfl⟩⟩
    | ok knn =>
        rcases run_mergeInto (w := (w.withStore w.store).withStore w.store) works knn acc
          with ⟨ran, -⟩ | ⟨hit, mem, tgt, acc', w', target, ran, merged⟩
        · exact ⟨_, _, ran, .inl ⟨rfl, rfl, rfl⟩⟩
        · have stored : w.store.isTombstoned vr = false := by
            unfold LocalStore.getVector at own
            split_ifs at own with dead
            exact Bool.eq_false_iff.mpr dead
          refine ⟨_, _, ran, .inr ⟨vr, hit, tgt, parsed, stored,
            LocalStore.searchKnn_live found mem, target, ?_⟩⟩
          exact ⟨merged.rows, merged.store, merged.log⟩
  · by_cases live : src.tombstone = false
    · have missing : ∀ vr, parseU64 src.vectorRef = some vr → w.store.getVector vr = none := by
        intro vr parsed
        cases own : w.store.getVector vr with
        | none => rfl
        | some vec => exact absurd ⟨live, vr, vec, parsed, own⟩ searches
      obtain ⟨w', ran, same⟩ := run_mergeSource_idle works all «at» acc missing
      exact ⟨_, w', ran, .inl same⟩
    · unfold mergeSource
      rw [if_pos (by simpa using live)]
      exact ⟨_, w, rfl, .inl (.refl w)⟩

/-- Sources that are left alone, one after the other. -/
theorem run_mergeSources {all : List (MemoryItem F)} {«at» : Nat} {w : World F}
    (sources : List (MemoryItem F))
    (idle : ∀ src ∈ sources, ∀ acc w', w.Alike w' →
      ∃ w'', run (mergeSource all «at» acc src) w' = (.ok acc, w'') ∧ w'.Alike w'') :
    ∀ acc w', w.Alike w' →
      ∃ w'', run (sources.foldlM (mergeSource all «at») acc) w' = (.ok acc, w'') ∧ w.Alike w'' := by
  induction sources with
  | nil => exact fun acc w' alike => ⟨w', rfl, alike⟩
  | cons src rest ih =>
      intro acc w' alike
      obtain ⟨w₁, ran, same⟩ := idle src List.mem_cons_self acc w' alike
      obtain ⟨w₂, others, alike₂⟩ := ih (fun src' mem => idle src' (List.mem_cons_of_mem _ mem)) acc
        w₁ (alike.trans same)
      refine ⟨w₂, ?_, alike₂⟩
      rw [List.foldlM_cons, run_bind_ok ran, others]

theorem run_listAllByTenantScoped {w : World F} (works : w.env.NoFaults) {ns : NamespaceFilter}
    (valid : isValidNamespace ns.namespace = true) (tenant : String) :
    run (persistOrFail (.listAllByTenantScoped tenant ns)) w =
      (.ok (tenantRows w.db.memoryItem tenant ns), w.withDb w.db) := by
  rw [run_persistOrFail, World.execPersist_eq works]
  exact congrArg (fun reply => (Except.mapError PersistError.toMemory reply, w.withDb w.db))
    (listAllByTenantScoped_valid valid w.db tenant)

/-- Phase 2 over an empty store. -/
theorem run_consolidateMerge_empty {w : World F} (works : w.env.NoFaults)
    {ns : NamespaceFilter} (valid : isValidNamespace ns.namespace = true) (eng : MemoryEngine)
    (changed : List (MemoryItem F)) («at» : Nat) (failures : List ConsolidationFailure)
    (empty : ∀ v, w.store.getVector v = none) :
    ∃ w', run (consolidateMerge eng changed «at» failures ns) w = (.ok ⟨0, failures⟩, w') ∧
      w.Alike w' := by
  unfold consolidateMerge
  rw [run_bind_ok (run_listAllByTenantScoped works valid eng.tenant)]
  refine run_mergeSources _ (fun src _ acc w' alike => ?_) ⟨0, failures⟩ _ ⟨rfl, rfl, rfl⟩
  exact run_mergeSource_idle (alike.env ▸ works) _ «at» acc fun vr _ => alike.store ▸ empty vr

/-! ### Bringing about a merge -/

/-- An environment without failures whose clock shows `now`. -/
def Env.stopped (now : Nat) : Env F := { Env.quiet with clock := fun _ => now }

omit [FloatArith F] in
theorem Env.stopped_noFaults (now : Nat) : (Env.stopped now : Env F).NoFaults :=
  ⟨fun _ _ => rfl, fun _ _ => rfl⟩

/-- An environment in which the index answers every search with the point `v`, at
distance 0. -/
def Env.finds (now v : Nat) : Env F :=
  { Env.stopped now with
    ann := fun _ => ⟨fun points _ k => if v ∈ points.map Prod.fst ∧ 0 < k then
        [(v, FloatArith.ofNat 0)] else [], by
      intro points query k
      dsimp only
      split_ifs with found
      · exact ⟨found.2, by simpa using found.1⟩
      · exact ⟨Nat.zero_le k, by simp⟩⟩ }

theorem Env.finds_noFaults (now v : Nat) : (Env.finds now v : Env F).NoFaults :=
  ⟨fun _ _ => rfl, fun _ _ => rfl⟩

/-- `vr` is the only vector of the store, and `v` is in the index only. -/
structure LocalStore.Holds (s : LocalStore F) (vr v : Nat) : Prop where
  vectors : s.vecTree.rows = [(vr, [FloatArith.ofNat 1])]
  dim : s.dim = 1
  live : s.isTombstoned vr = false
  indexed : v ∈ s.hnsw.map Prod.fst
  indexLive : s.isTombstoned v = false

def LocalStore.holding (vr v : Nat) : LocalStore F where
  vecTree := ⟨[(vr, [FloatArith.ofNat 1])], by simp⟩
  tombTree := .empty
  hnsw := [(v, [FloatArith.ofNat 1])]
  dim := 1

theorem LocalStore.holding_holds (vr v : Nat) : (LocalStore.holding vr v : LocalStore F).Holds vr v :=
  ⟨rfl, rfl, rfl, by simp [holding], rfl⟩

namespace LocalStore.Holds

variable {s : LocalStore F} {vr v : Nat}

theorem getVector (holds : s.Holds vr v) : s.getVector vr = some [FloatArith.ofNat 1] := by
  unfold LocalStore.getVector Table.find?
  rw [if_neg (by simp [holds.live]), holds.vectors]
  simp

theorem getVector_other (holds : s.Holds vr v) {id : Nat} (other : id ≠ vr) :
    s.getVector id = none := by
  unfold LocalStore.getVector Table.find?
  rw [holds.vectors]
  simp [Ne.symm other]

/-- A search finds the live neighbours and perhaps the one vector there is. -/
theorem searchKnn (holds : s.Holds vr v) {ann : AnnSearch F} {near : List (Nat × F)}
    (answer : ann s.hnsw [FloatArith.ofNat 1] MERGE_KNN = near)
    (live : ∀ nb ∈ near, s.isTombstoned nb.1 = false) (few : near.length < MERGE_KNN) :
    ∃ hits, s.searchKnn ann [FloatArith.ofNat 1] MERGE_KNN = .ok hits ∧
      (∀ nb ∈ near, (nb.1, FloatArith.sub (FloatArith.ofNat 1) nb.2) ∈ hits) ∧
      ∀ hit ∈ hits, hit.1 = vr ∨
        ∃ nb ∈ near, hit = (nb.1, FloatArith.sub (FloatArith.ofNat 1) nb.2) := by
  have kept : near.filter (fun nb => !s.isTombstoned nb.1) = near := by
    rw [List.filter_eq_self]
    intro nb mem
    simp [live nb mem]
  unfold LocalStore.searchKnn
  rw [if_neg (by simp [holds.dim]), answer]
  dsimp only
  rw [kept, List.length_map, if_pos few]
  refine ⟨_, rfl, fun nb mem => ?_, fun hit mem => ?_⟩
  · rw [mem_sortBySim, List.mem_append]
    exact .inl (List.mem_map_of_mem mem)
  · rcases List.mem_append.mp (mem_sortBySim.mp mem) with found | filled
    · obtain ⟨nb, listed, rfl⟩ := List.mem_map.mp found
      exact .inr ⟨nb, listed, rfl⟩
    · obtain ⟨p, kept, rfl⟩ := List.mem_map.mp (mem_sortBySim.mp (List.mem_of_mem_take filled))
      have stored := (List.mem_insertionSort _).mp (List.mem_filter.mp kept).1
      rw [holds.vectors, List.mem_singleton] at stored
      exact .inl (congrArg Prod.fst stored)

end LocalStore.Holds

theorem mergeTarget_self (all : List (MemoryItem F)) (src : MemoryItem F) {vr : Nat}
    {hit : Nat × F} (self : hit.1 = vr) : mergeTarget all src vr hit = none := by
  unfold mergeTarget
  rw [if_pos (by simp [self])]

/-- The best hit: if any hit leads to a target, so does one at similarity 1. -/
theorem mergeTarget_best {all : List (MemoryItem F)} {src tgt : MemoryItem F} {vr : Nat}
    {hit : Nat × F} (target : mergeTarget all src vr hit = some tgt) :
    mergeTarget all src vr (hit.1, FloatArith.ofNat 1) = some tgt := by
  have similar : FloatArith.lt (FloatArith.ofNat 1 : F) MERGE_SIM_THRESHOLD = false :=
    FloatArith.not_lt_literal 1 92 2 (by decide)
  unfold mergeTarget at target ⊢
  split_ifs at target with refused
  rw [if_neg (by simp_all)]
  exact target

/-- Where the index finds nothing, a source is left alone. -/
theorem run_mergeSource_quiet {w : World F} {now vr v : Nat} (quiet : w.env = .stopped now)
    (holds : w.store.Holds vr v) (all : List (MemoryItem F)) («at» : Nat) (acc : Progress)
    (src : MemoryItem F) :
    ∃ w', run (mergeSource all «at» acc src) w = (.ok acc, w') ∧ w.Alike w' := by
  have works : w.env.NoFaults := quiet ▸ Env.stopped_noFaults now
  by_cases own : src.tombstone = false ∧ parseU64 src.vectorRef = some vr
  · have answer : (w.env.ann (w.tick + 1)).1 w.store.hnsw [FloatArith.ofNat 1] MERGE_KNN = [] := by
      rw [quiet]
      rfl
    obtain ⟨hits, found, -, all_hits⟩ := holds.searchKnn answer (by simp)
      (by simp [MERGE_KNN])
    rw [run_mergeSource_search works all «at» acc own.1 own.2 holds.getVector, found]
    rcases run_mergeInto (w := (w.withStore w.store).withStore w.store) works hits acc
      with ⟨ran, -⟩ | ⟨hit, mem, tgt, acc', w', target, -⟩
    · exact ⟨_, ran, rfl, rfl, rfl⟩
    · rcases all_hits hit mem with self | ⟨nb, mem, -⟩
      · rw [mergeTarget_self all src self] at target
        cases target
      · cases mem
  · by_cases live : src.tombstone = false
    · refine run_mergeSource_idle works all «at» acc fun vr' parsed => ?_
      refine holds.getVector_other fun same => own ⟨live, ?_⟩
      rw [parsed, same]
    · unfold mergeSource
      rw [if_pos (by simpa using live)]
      exact ⟨w, rfl, .refl w⟩

/-- Where the index finds the target's vector, the source is merged. -/
theorem run_mergeSource_finds {w : World F} {now vr v : Nat} (finds : w.env = .finds now v)
    (holds : w.store.Holds vr v) {all : List (MemoryItem F)} («at» : Nat) (acc : Progress)
    {src tgt : MemoryItem F} (live : src.tombstone = false)
    (parsed : parseU64 src.vectorRef = some vr)
    (target : mergeTarget all src vr (v, FloatArith.ofNat 1) = some tgt) :
    ∃ acc' w', run (mergeSource all «at» acc src) w = (.ok acc', w') ∧ w.Merged src tgt vr w' := by
  have works : w.env.NoFaults := finds ▸ Env.finds_noFaults now v
  have answer : (w.env.ann (w.tick + 1)).1 w.store.hnsw [FloatArith.ofNat 1] MERGE_KNN =
      [(v, FloatArith.ofNat 0)] := by
    rw [finds]
    exact if_pos ⟨holds.indexed, by decide⟩
  obtain ⟨hits, found, near, all_hits⟩ := holds.searchKnn answer (by simp [holds.indexLive])
    (by simp [MERGE_KNN])
  rw [run_mergeSource_search works all «at» acc live parsed holds.getVector, found]
  have hit : (v, FloatArith.ofNat 1) ∈ hits := by
    simpa [FloatArith.sub_zero] using near (v, FloatArith.ofNat 0) (by simp)
  rcases run_mergeInto (w := (w.withStore w.store).withStore w.store) works hits acc
    with ⟨-, none⟩ | ⟨hit', mem, tgt', acc', w', target', ran, merged⟩
  · rw [none _ hit] at target
    cases target
  · have best : hit' = (v, FloatArith.ofNat 1) := by
      rcases all_hits hit' mem with self | ⟨nb, mem, same⟩
      · rw [mergeTarget_self all src self] at target'
        cases target'
      · rw [List.mem_singleton.mp mem, FloatArith.sub_zero] at same
        exact same
    rw [best, target] at target'
    cases target'
    exact ⟨acc', w', ran, merged.rows, merged.store, merged.log⟩

/-! ### Bringing about a run -/

section Runs

variable {E : Env F → Prop} {Q : Db F → Prop} {eng : MemoryEngine} {ns : NamespaceFilter}
  (now : Nat)

/-- A run may start at any time. -/
theorem Can.consolidate [JsonText F] (switch : Env.Switchable E)
    (calm : ∀ env : Env F, env.NoFaults → (∀ t, env.clock t = now) → E env)
    (valid : isValidNamespace ns.namespace = true) {w : World F}
    (rest : ∀ w', w'.db = w.db → w'.store = w.store →
      Can E Q (consolidateChanged eng ns now (w.db.changeSet ns)) w') :
    Can E Q (consolidateImpl eng ns) w := by
  have allowed : E (.stopped now) := calm _ (Env.stopped_noFaults now) fun _ => rfl
  rw [consolidateImpl_eq]
  refine Can.withLock _ (Can.bind switch allowed (a := now) rfl ?_)
  have works : (Env.stopped now : Env F).NoFaults := Env.stopped_noFaults now
  refine Can.read switch allowed works .lastConsolidateAt rfl rfl fun w₁ db₁ store₁ => ?_
  change w₁.db = w.db at db₁
  change w₁.store = w.store at store₁
  refine Can.read switch allowed works (.listChangedSinceScoped _ ns) rfl
    (a := w.db.changeSet ns) ?_ fun w₂ db₂ store₂ => ?_
  · rw [db₁]
    exact listChangedSinceScoped_valid valid w.db
  · exact rest w₂ (db₂.trans db₁) (store₂.trans store₁)

/-- Where a source's vector is the only one of the store, and its target's the only one
of the index, phase 2 may merge it, and the other sources may be left alone. -/
theorem Can.merge (switch : Env.Switchable E)
    (calm : ∀ env : Env F, env.NoFaults → (∀ t, env.clock t = now) → E env)
    (valid : isValidNamespace ns.namespace = true) {w : World F} {changed : List (MemoryItem F)}
    {src tgt : MemoryItem F} (listed : src ∈ changed) (semantic : isSemantic src = true) {vr v : Nat}
    (parsed : parseU64 src.vectorRef = some vr) (holds : w.store.Holds vr v)
    (target : mergeTarget (tenantRows w.db.memoryItem eng.tenant ns) src vr
      (v, FloatArith.ofNat 1) = some tgt) {«at» : Nat} {failures : List ConsolidationFailure}
    {k : Progress → EngineM F β}
    (rest : ∀ (others : List (MemoryItem F)) acc w', w.Merged src tgt vr w' →
      Can E Q (others.foldlM (mergeSource (tenantRows w.db.memoryItem eng.tenant ns) «at») acc >>= k)
        w') :
    Can E Q (consolidateMerge eng changed «at» failures ns >>= k) w := by
  obtain ⟨before, others, split⟩ := List.append_of_mem (List.mem_filter.mpr ⟨listed, semantic⟩)
  unfold consolidateMerge
  rw [bind_assoc]
  have works : (Env.stopped now : Env F).NoFaults := Env.stopped_noFaults now
  have allowed : E (.stopped now) := calm _ works fun _ => rfl
  refine Can.read switch allowed works
    (.listAllByTenantScoped eng.tenant ns) rfl
    (listAllByTenantScoped_valid valid w.db eng.tenant) fun w₁ db₁ store₁ => ?_
  rw [split, List.foldlM_append, bind_assoc]
  obtain ⟨w₂, ran₂, alike⟩ := run_mergeSources (w := w₁.withEnv (.stopped now))
    before
    (fun src' _ acc w' alike => run_mergeSource_quiet alike.env
      (alike.store ▸ store₁ ▸ holds) (tenantRows w.db.memoryItem eng.tenant ns) «at» acc src')
    ⟨0, failures⟩ _ (.refl _)
  refine Can.bind switch allowed ran₂ ?_
  rw [List.foldlM_cons, bind_assoc]
  obtain ⟨acc', w₃, ran₃, merged⟩ := run_mergeSource_finds (w := w₂.withEnv (.finds now v)) rfl
    (alike.store ▸ store₁ ▸ holds) «at» ⟨0, failures⟩ (isSemantic_live semantic) parsed target
  refine Can.bind switch (calm _ (Env.finds_noFaults now v) fun _ => rfl) ran₃ (rest others acc' w₃ ?_)
  have db₂ : w₂.db = w.db := alike.db.trans db₁
  have store₂ : w₂.store = w.store := alike.store.trans store₁
  obtain ⟨rows, store₃, log⟩ := merged
  rw [World.withEnv_db, db₂] at rows log
  rw [World.withEnv_store, store₂] at store₃
  exact ⟨rows, store₃, log⟩

end Runs

end FusionMemory
