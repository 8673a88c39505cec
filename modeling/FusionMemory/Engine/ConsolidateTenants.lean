import FusionMemory.Engine.ConsolidateFrame
import FusionMemory.Engine.Staging
import FusionMemory.Lib.DecimalJson

/-!
Whose memories a consolidation run joins.

The change set of a run holds rows of all tenants, the candidates of a merge are the
rows of one tenant, and summaries are grouped by session alone.
`consolidate_contained_iff` says exactly when no run merges a row into another
tenant's row or stamps a tenant on a summary of another tenant's rows.
-/

namespace FusionMemory

open Lib

variable {F : Type} [FloatArith F]

variable {fresh : MemoryItem F → Prop} {pair : String → String → Prop} [JsonText F]

/-! ### Runs within bounds -/

/-- A run over the change set: its merges are pairs of phase 2 after some outcome of
phase 1, its new rows are versions of old ones and summaries. -/
theorem evolves_consolidateChanged {eng : MemoryEngine} {ns : NamespaceFilter}
    (valid : isValidNamespace ns.namespace = true) {changed : List (MemoryItem F)}
    (nodup : (changed.map (·.id)).Nodup) {w : World F} {start : Nat}
    (listed : ∀ m ∈ changed, m ∈ w.db.memoryItem.rows)
    (old : ∀ r ∈ w.db.memoryItem.rows, ∀ r' : MemoryItem F, r'.id = r.id → fresh r')
    (summaries : ∀ r, SummaryOf eng w.env changed r → fresh r)
    (pairs : ∀ succeeds src tgt,
      MergePair (tenantRows (firstPhase succeeds start changed w.db.memoryItem) eng.tenant ns)
        changed src tgt → pair src.id tgt.id) :
    w.Evolves fresh pair (run (consolidateChanged eng ns start changed) w).2 := by
  have known : ∀ src ∈ changed, ∀ r : MemoryItem F, r.id = src.id → fresh r :=
    fun src mem => old src (listed src mem)
  obtain ⟨succeeds, tally, w₁, first, same, rows⟩ :=
    run_firstPhase_any start changed nodup w ⟨0, 0, []⟩
  have evolves₁ : w.Evolves fresh pair w₁ := by
    refine .ofRows same.env same.mergeLog fun r mem => .inr ?_
    rw [rows] at mem
    obtain ⟨r₀, mem₀, sameId⟩ := firstPhase_forall
      (P := fun r => ∃ r₀ ∈ w.db.memoryItem.rows, r.id = r₀.id) (fun _ h => h) (fun _ h => h)
      (fun m mem => ⟨m, listed m mem, rfl⟩) (fun m mem => ⟨m, mem, rfl⟩) r mem
    exact old r₀ mem₀ r sameId
  unfold consolidateChanged
  rw [run_bind_ok first]
  refine evolves₁.trans ?_
  refine run_bind_rel (R := World.Evolves fresh pair) World.Evolves.trans ?_
    fun merged w₂ ran => ?_
  · unfold consolidateMerge
    obtain ⟨all, ran, read⟩ := run_read w₁ (.listAllByTenantScoped eng.tenant ns) rfl
    have unchanged : w₁.Evolves fresh pair (w₁.withDb w₁.db) := .ofRows rfl rfl fun _ mem => .inl mem
    cases all with
    | error e =>
        rw [run_bind_error ran]
        exact unchanged
    | ok all =>
        have found : w₁.db.listAllByTenantScoped eng.tenant ns = .ok all := read all rfl
        rw [listAllByTenantScoped_valid valid, rows] at found
        cases found
        rw [run_bind_ok ran]
        refine unchanged.trans (evolves_run ?_ _)
        refine Program.Only.foldlM _ (fun src mem acc => ?_) _
        obtain ⟨mem, semantic⟩ := List.mem_filter.mp mem
        exact (only_mergeSource mem semantic acc).mono fun r request =>
          within_merge request known (pairs succeeds)
  · refine evolves_afterMerge (fun _ m mem _ entities => known m mem _ rfl)
      (fun r made _ => summaries r ?_) ns start tally merged
    have env : w₂.env = w.env := by
      have kept := run_env (consolidateMerge eng changed start tally.failures ns) w₁
      rw [ran] at kept
      exact kept.trans same.env
    rwa [env] at made

/-! ### Containment -/

/-- The pairs of ids of two rows of one tenant. -/
def SameTenant (db : Db F) (s t : String) : Prop :=
  ∃ src ∈ db.memoryItem.rows, ∃ tgt ∈ db.memoryItem.rows, src.id = s ∧ tgt.id = t ∧
    src.tenant = tgt.tenant

/-- A run from `w` to `w'` joins no memories across tenants: the merges it logged are
between rows of one tenant, and each row it added is what the chat model made of rows of
its own tenant. -/
structure Contained (changed : List (MemoryItem F)) (w w' : World F) : Prop where
  merges : ∀ e ∈ w'.db.mergeLog.drop w.db.mergeLog.length, SameTenant w.db e.sourceId e.targetId
  summaries : ∀ r ∈ w'.db.memoryItem.rows, (∀ m ∈ w.db.memoryItem.rows, m.id ≠ r.id) →
    (∃ t, w.env.chat t SUMMARY_PROMPT (joinContents (sessionGroup changed r.sessionId)) =
      some r.content) ∧ ∀ m ∈ sessionGroup changed r.sessionId, m.tenant = r.tenant

/-- A row of the change set may be merged: after some outcome of phase 1 its best search
hit would lead to a target among the tenant's rows. -/
def MergeReachable (db : Db F) (eng : MemoryEngine) (ns : NamespaceFilter) (src : MemoryItem F) :
    Prop :=
  isSemantic src = true ∧ ∃ vr, parseU64 src.vectorRef = some vr ∧ ∃ succeeds now v tgt,
    mergeTarget (tenantRows (firstPhase succeeds now (db.changeSet ns) db.memoryItem) eng.tenant ns)
      src vr (v, FloatArith.ofNat 1) = some tgt

/-- When a run over `db` cannot join memories across tenants. -/
structure TenantsApart (db : Db F) (eng : MemoryEngine) (ns : NamespaceFilter) : Prop where
  sources : ∀ src ∈ db.changeSet ns, src.tenant ≠ eng.tenant → ¬ MergeReachable db eng ns src
  sessions : eng.hasExtractConfig = true → ∀ session,
    SUMMARIZE_MIN_EPISODIC ≤ (sessionGroup (db.changeSet ns) session).length →
    ∀ m ∈ sessionGroup (db.changeSet ns) session, m.tenant = eng.tenant

omit [JsonText F] in
/-- Phase 1 gives a row neither another id nor another tenant. -/
theorem tenantRows_firstPhase {db : Db F} {ns : NamespaceFilter} {tenant : String}
    {succeeds : String → Bool} {now : Nat} {r : MemoryItem F}
    (mem : r ∈ tenantRows (firstPhase succeeds now (db.changeSet ns) db.memoryItem) tenant ns) :
    ∃ r₀ ∈ db.memoryItem.rows, r₀.id = r.id ∧ r₀.tenant = tenant := by
  unfold tenantRows at mem
  rw [mem_orderBy, List.mem_filter] at mem
  obtain ⟨mem, conditions⟩ := mem
  simp only [Bool.and_eq_true, beq_iff_eq] at conditions
  obtain ⟨r₀, old, sameId, sameTenant⟩ := firstPhase_forall
    (P := fun r => ∃ r₀ ∈ db.memoryItem.rows, r₀.id = r.id ∧ r₀.tenant = r.tenant)
    (fun _ h => h) (fun _ h => h) (fun m mem => ⟨m, (mem_changeSet mem).1, rfl, rfl⟩)
    (fun m mem => ⟨m, mem, rfl, rfl⟩) r mem
  exact ⟨r₀, old, sameId, sameTenant.trans conditions.1.2⟩

omit [JsonText F] in
/-- Under `TenantsApart` phase 2 merges rows of the engine's tenant only. -/
theorem mergePair_sameTenant {db : Db F} {eng : MemoryEngine} {ns : NamespaceFilter}
    (apart : TenantsApart db eng ns) {succeeds : String → Bool} {now : Nat} {src tgt : MemoryItem F}
    (merged : MergePair
      (tenantRows (firstPhase succeeds now (db.changeSet ns) db.memoryItem) eng.tenant ns)
      (db.changeSet ns) src tgt) : SameTenant db src.id tgt.id := by
  obtain ⟨listed, semantic, vr, hit, parsed, target⟩ := merged
  have own : src.tenant = eng.tenant := by
    by_contra foreign
    exact apart.sources src listed foreign
      ⟨semantic, vr, parsed, succeeds, now, hit.1, tgt, mergeTarget_best target⟩
  obtain ⟨r, old, sameId, ofTenant⟩ := tenantRows_firstPhase (mergeTarget_mem target)
  exact ⟨src, (mem_changeSet listed).1, r, old, rfl, sameId, own.trans ofTenant.symm⟩

theorem contained_of_apart {eng : MemoryEngine} {ns : NamespaceFilter} {w : World F}
    (apart : TenantsApart w.db eng ns) :
    Contained (w.db.changeSet ns) w (run (consolidateImpl eng ns) w).2 := by
  rcases run_consolidateImpl eng ns w with unchanged | ⟨w₁, alike, valid, ran⟩
  · constructor
    · intro e mem
      rw [unchanged, List.drop_length] at mem
      cases mem
    · intro r mem isNew
      rw [unchanged] at mem
      exact absurd rfl (isNew r mem)
  · let fresh : MemoryItem F → Prop := fun r =>
      (∃ m ∈ w.db.memoryItem.rows, m.id = r.id) ∨ SummaryOf eng w.env (w.db.changeSet ns) r
    have evolves : w₁.Evolves fresh (SameTenant w.db) (run (consolidateChanged eng ns
        (w.env.clock (w.tick + 1)) (w.db.changeSet ns)) w₁).2 := by
      refine evolves_consolidateChanged valid (changeSet_nodup w.db ns) ?_ ?_ ?_ ?_
      · exact fun m mem => alike.db ▸ (mem_changeSet mem).1
      · exact fun r mem r' same => .inl ⟨r, alike.db ▸ mem, same.symm⟩
      · exact fun r made => .inr (alike.env ▸ made)
      · intro succeeds src tgt merged
        rw [alike.db] at merged
        exact mergePair_sameTenant apart merged
    constructor
    · intro e mem
      obtain ⟨new, log, pairs⟩ := evolves.merges
      rw [ran, log, alike.db, List.drop_left] at mem
      exact pairs e mem
    · intro r mem isNew
      rw [ran] at mem
      rcases evolves.rows r mem with old | ⟨m, mem', same⟩ | ⟨tenant, configured, enough, answer⟩
      · rw [alike.db] at old
        exact absurd rfl (isNew r old)
      · exact absurd same (isNew m mem')
      · refine ⟨answer, fun m inGroup => ?_⟩
        rw [tenant]
        exact apart.sessions configured r.sessionId enough m inGroup

/-! ### Joining memories across tenants -/

/-- An environment in which the writes of the rows in `succeeds` succeed and no vector
can be deleted. -/
def Env.sparing (succeeds : String → Bool) : Env F :=
  { Env.quiet with
    persistFault := fun _ op => match op with
      | .tombstoneMemory id => if succeeds id then none else some (.poisoned, 0)
      | .putMemory item => if succeeds item.id then none else some (.poisoned, 0)
      | _ => none
    storeFault := fun _ op => match op with
      | .deleteVector _ => some (.sled "", 0)
      | _ => none }

omit [FloatArith F] [JsonText F] in
theorem foldl_drop_false (vectors : List (MemoryItem F)) (ref : MemoryItem F → Option Nat)
    (s : LocalStore F) : vectors.foldl (fun s m => s.drop false (ref m)) s = s := by
  induction vectors generalizing s with
  | nil => rfl
  | cons m rest ih =>
      rw [List.foldl_cons, ih]
      cases ref m <;> rfl

omit [JsonText F] in
theorem sparing_firstWrite (succeeds : String → Bool) (now t : Nat) (m : MemoryItem F) :
    ((Env.sparing succeeds : Env F).persistFault t (firstWrite now m)).isNone = succeeds m.id := by
  unfold firstWrite Env.sparing
  split_ifs <;> cases holds : succeeds m.id <;> simp [holds, promoted]

/-- A reachable merge happens in some environment. -/
theorem can_merge {db : Db F} {eng : MemoryEngine} {ns : NamespaceFilter} {src : MemoryItem F}
    (listed : src ∈ db.changeSet ns) (reachable : MergeReachable db eng ns src) :
    ∃ s tgt, (∃ succeeds now,
        tgt ∈ tenantRows (firstPhase succeeds now (db.changeSet ns) db.memoryItem) eng.tenant ns) ∧
      Can (fun _ => True) (fun db' => ∃ e, db'.mergeLog = db.mergeLog ++ [e] ∧
        e.sourceId = src.id ∧ e.targetId = tgt.id) (consolidateImpl eng ns)
        (World.fresh .quiet db s) := by
  obtain ⟨semantic, vr, parsed, succeeds, now, v, tgt, target⟩ := reachable
  have valid := changeSet_valid listed
  refine ⟨.holding vr v, tgt, ⟨succeeds, now, mergeTarget_mem target⟩, ?_⟩
  refine Can.consolidate now Env.switchable_any (fun _ _ _ => trivial) valid fun w₁ db₁ store₁ => ?_
  change w₁.db = db at db₁
  obtain ⟨tally, w₂, ran, same, rows, store₂⟩ := run_firstPhase succeeds false now
    (db.changeSet ns) (w₁.withEnv (.sparing succeeds)) ⟨0, 0, []⟩
    (fun t m _ => sparing_firstWrite succeeds now t m) fun _ _ => rfl
  refine Can.bind Env.switchable_any trivial ran ?_
  rw [foldl_drop_false] at store₂
  rw [World.withEnv_db, db₁] at rows
  have holds : w₂.store.Holds vr v := by
    rw [store₂, World.withEnv_store, store₁]
    exact LocalStore.holding_holds vr v
  refine Can.merge now Env.switchable_any (fun _ _ _ => trivial) valid listed semantic parsed holds
    (by rw [rows]; exact target) fun others acc w₃ merged => Can.now ?_ _
  obtain ⟨e, log, source, target⟩ := merged.log
  refine ⟨e, ?_, source, target⟩
  rw [log, same.mergeLog, World.withEnv_db, db₁]

/-- An environment in which the chat model answers and `session` is summarized first. -/
def Env.summarizing (session : String) : Env F :=
  { Env.quiet with
    chat := fun _ _ _ => some "x"
    order := fun _ keys =>
      if listed : session ∈ keys then
        ⟨session :: keys.erase session, (List.perm_cons_erase listed).symm⟩
      else ⟨keys, .refl _⟩ }

omit [FloatArith F] [JsonText F] in
theorem mem_sessionKeys {changed : List (MemoryItem F)} {m : MemoryItem F} {session : String}
    (inGroup : m ∈ sessionGroup changed session) : session ∈ sessionKeys changed := by
  obtain ⟨listed, conditions⟩ := List.mem_filter.mp inGroup
  simp only [Bool.and_eq_true, beq_iff_eq] at conditions
  unfold sessionKeys
  rw [List.mem_dedup, List.mem_map]
  exact ⟨m, List.mem_filter.mpr ⟨listed, conditions.1⟩, conditions.2⟩

/-- A session of enough memories is summarized when the chat model answers. -/
theorem run_summarizeSession {w : World F} {session : String}
    (env : w.env = .summarizing session) (dim : w.store.dim = 0) (eng : MemoryEngine)
    {changed : List (MemoryItem F)}
    (enough : SUMMARIZE_MIN_EPISODIC ≤ (sessionGroup changed session).length) («at» : Nat)
    (ns : NamespaceFilter) (acc : Progress) :
    ∃ acc' w' r, run (summarizeSession eng changed «at» ns acc session) w = (.ok acc', w') ∧
      r ∈ w'.db.memoryItem.rows ∧ (∀ m ∈ w.db.memoryItem.rows, m.id ≠ r.id) ∧
      r.sessionId = session ∧ r.tenant = eng.tenant := by
  have works : w.env.NoFaults := env ▸ ⟨fun _ _ => rfl, fun _ _ => rfl⟩
  have answer : w.env.chat w.tick SUMMARY_PROMPT (joinContents (sessionGroup changed session)) =
      some "x" := by rw [env]; rfl
  have embedded : w.env.embed (w.next.withIssued (w.env.ulid w.next.tick w.next.taken).1).tick "x" =
      .ok [] := by rw [env]; rfl
  have isNew : ∀ m ∈ w.db.memoryItem.rows, m.id ≠ (w.env.ulid w.next.tick w.next.taken).1 := by
    intro m mem same
    refine (w.env.ulid w.next.tick w.next.taken).2.1 ?_
    rw [← same]
    exact List.mem_append_right _ (List.mem_map_of_mem mem)
  unfold summarizeSession
  dsimp only
  rw [if_neg (Nat.not_lt.mpr enough), run_chatCompletion_bind, answer]
  dsimp only
  rw [if_neg (by decide)]
  unfold storeSummary
  rw [run_newUlid_bind, run_embed_bind]
  dsimp only [World.next_env]
  rw [World.withIssued_env, World.next_env, embedded]
  generalize (w.env.ulid w.next.tick w.next.taken).1 = id at isNew
  dsimp only [Except.mapError, Program.ofExcept_ok]
  have works₁ : (w.next.withIssued id).next.env.NoFaults := works
  have dim₁ : ([] : List F).length = (w.next.withIssued id).next.store.dim := dim.symm
  generalize (w.next.withIssued id).next = w₁ at works₁ dim₁
  rw [Program.done_bind, run_storeOrFail_bind, World.execStore_eq works₁]
  dsimp only [StoreOp.exec]
  rw [LocalStore.insertVector_fst dim₁]
  dsimp only
  rw [run_persist_works]
  · exact ⟨_, _, _, rfl, Table.mem_upsert.mpr (.inl rfl), isNew, rfl, rfl⟩
  · exact works₁

/-- A session of enough memories is summarized in some environment. -/
theorem can_summarize {db : Db F} {eng : MemoryEngine} {ns : NamespaceFilter} {session : String}
    (configured : eng.hasExtractConfig = true)
    (enough : SUMMARIZE_MIN_EPISODIC ≤ (sessionGroup (db.changeSet ns) session).length) :
    Can (fun _ => True) (fun db' => ∃ r ∈ db'.memoryItem.rows,
      (∀ m ∈ db.memoryItem.rows, m.id ≠ r.id) ∧ r.sessionId = session ∧ r.tenant = eng.tenant)
      (consolidateImpl eng ns) (World.fresh .quiet db (.empty 0)) := by
  obtain ⟨m, inGroup⟩ := List.exists_mem_of_length_pos (Nat.lt_of_lt_of_le (by decide) enough)
  have valid := changeSet_valid (List.mem_filter.mp inGroup).1
  refine Can.consolidate 0 Env.switchable_any (fun _ _ _ => trivial) valid fun w₁ db₁ store₁ => ?_
  change w₁.db = db at db₁
  obtain ⟨tally, w₂, ran₂, -, rows₂, store₂⟩ := run_firstPhase (fun _ => false) false 0
    (db.changeSet ns) (w₁.withEnv .dead) ⟨0, 0, []⟩ (fun _ _ _ => rfl) fun _ _ => rfl
  refine Can.bind Env.switchable_any trivial ran₂ ?_
  rw [foldl_drop_false] at store₂
  rw [firstPhase_never, World.withEnv_db, db₁] at rows₂
  obtain ⟨w₃, ran₃, alike⟩ := run_consolidateMerge_empty (w := w₂.withEnv .quiet) Env.quiet_noFaults
    valid eng (db.changeSet ns) 0 tally.failures fun v => by
      rw [World.withEnv_store, store₂, World.withEnv_store, store₁]
      rfl
  refine Can.bind Env.switchable_any trivial ran₃ ?_
  unfold afterMerge consolidateSummarize
  rw [if_pos configured, bind_assoc]
  have first : run (iterationOrder (sessionKeys (db.changeSet ns)))
      (w₃.withEnv (.summarizing session)) = (.ok (session :: (sessionKeys (db.changeSet ns)).erase
        session), (w₃.withEnv (.summarizing session)).next) := by
    change (Except.ok ((Env.summarizing session).order w₃.tick _).1, _) = _
    unfold Env.summarizing
    dsimp only
    rw [dif_pos (mem_sessionKeys inGroup)]
    rfl
  refine Can.bind Env.switchable_any trivial first ?_
  rw [List.foldlM_cons, bind_assoc]
  have db₃ : w₃.db.memoryItem = db.memoryItem := (congrArg Db.memoryItem alike.db).trans rows₂
  have dim₃ : w₃.store.dim = 0 := by
    rw [alike.store, World.withEnv_store, store₂, World.withEnv_store, store₁]
    rfl
  obtain ⟨acc, w₄, r, ran₄, mem, isNew, ofSession, ofTenant⟩ := run_summarizeSession
    (w := (w₃.withEnv (.summarizing session)).next.withEnv (.summarizing session)) rfl dim₃ eng enough
    0 ns ⟨0, tally.failures⟩
  refine Can.bind Env.switchable_any trivial ran₄ (Can.now ?_ _)
  refine ⟨r, mem, fun m old => isNew m ?_, ofSession, ofTenant⟩
  change m ∈ w₃.db.memoryItem.rows
  rwa [db₃]

/-- Consolidation keeps tenants apart, over all stores, times, chat models, search answers
and failures, exactly when no row of another tenant in the change set can be merged and
no session that is summarized has a memory of another tenant. -/
theorem consolidate_contained_iff (eng : MemoryEngine) (ns : NamespaceFilter) (db : Db F) :
    (∀ w : World F, w.db = db →
      Contained (db.changeSet ns) w (run (consolidateImpl eng ns) w).2) ↔
      TenantsApart db eng ns := by
  constructor
  · intro contained
    constructor
    · intro src listed foreign reachable
      obtain ⟨s, tgt, ⟨succeeds, now, inTenant⟩, env, -, e, log, source, target⟩ :=
        can_merge listed reachable
      have joined := (contained ((World.fresh .quiet db s).withEnv env) rfl).merges e
      rw [log] at joined
      obtain ⟨src', mem, tgt', mem', sameSource, sameTarget, sameTenant⟩ := by
        refine joined ?_
        change e ∈ List.drop db.mergeLog.length _
        simp
      obtain ⟨tgt₀, old, sameId, ofTenant⟩ := tenantRows_firstPhase inTenant
      rw [source] at sameSource
      rw [target, ← sameId] at sameTarget
      obtain rfl := Table.eq_of_key_eq mem (mem_changeSet listed).1 sameSource
      obtain rfl := Table.eq_of_key_eq mem' old sameTarget
      exact foreign (sameTenant.trans ofTenant)
    · intro configured session enough m inGroup
      obtain ⟨env, -, r, mem, isNew, ofSession, ofTenant⟩ := can_summarize configured enough
      have made := (contained ((World.fresh .quiet db (.empty 0)).withEnv env) rfl).summaries r mem
        isNew
      rw [← ofTenant]
      exact made.2 m (ofSession.symm ▸ inGroup)
  · rintro apart w rfl
    exact contained_of_apart apart

/-! ### A row of one tenant merged into another's -/

def sharedEntity : EntityNode := ⟨"e", "e", [], .concept⟩

/-- A long-term fact about the entity `e`. -/
def factRow (id tenant vectorRef : String) : MemoryItem Fixed :=
  { MemoryItem.newTurnSkeleton id "ix" 0 "s" tenant .semantic "fact" 5 with
    tier := .long, entities := [sharedEntity], vectorRef := vectorRef, entitiesPending := false }

/-- A row of tenant `b` and one of tenant `a`. -/
def twoTenantRows : Memories Fixed :=
  (Table.empty.upsert (factRow "m1" "b" "7")).upsert (factRow "m2" "a" "8")

/-- The two rows, with the same vector. -/
def twoTenants : World Fixed :=
  World.fresh (.stopped 10) { (Db.empty : Db Fixed) with memoryItem := twoTenantRows }
    ⟨⟨[(7, [⟨1000000⟩]), (8, [⟨1000000⟩])], by decide⟩, .empty, [], 1⟩

theorem consolidate_merges_foreign_row :
    ¬ Contained (twoTenants.db.changeSet .default) twoTenants
      (run (consolidateImpl (plainEngine "a") .default) twoTenants).2 := by
  intro contained
  have logged : (run (consolidateImpl (plainEngine "a") .default) twoTenants).2.db.mergeLog =
      [⟨1, 10, "m1", "m2", MERGE_REASON⟩] := by decide +kernel
  obtain ⟨src, mem, tgt, mem', source, target, sameTenant⟩ := contained.merges
    ⟨1, 10, "m1", "m2", MERGE_REASON⟩ (by rw [logged]; exact List.mem_singleton.mpr rfl)
  have rows : ∀ r ∈ twoTenants.db.memoryItem.rows,
      r.id = "m1" ∧ r.tenant = "b" ∨ r.id = "m2" ∧ r.tenant = "a" := by decide
  rcases rows src mem with ⟨-, ofB⟩ | ⟨other, -⟩
  · rcases rows tgt mem' with ⟨other, -⟩ | ⟨-, ofA⟩
    · exact absurd (other.symm.trans target) (by decide)
    · exact absurd (ofB.symm.trans (sameTenant.trans ofA)) (by decide)
  · exact absurd (other.symm.trans source) (by decide)

end FusionMemory
