import FusionMemory.Engine.IncrementalScan
import FusionMemory.Engine.ReconcileVectors
import FusionMemory.Engine.Watermark

/-!
What a scoped consolidation run leaves alone.

The change set, the candidates of a merge and the forward scan of a run are confined to
its filter. The purge of phase 5 is not: it lists all tombstoned rows.
`scoped_consolidate_confined_iff` says exactly when a run leaves every row outside its
filter as it was. The watermark never moves.
-/

namespace FusionMemory

open Lib

variable {F : Type} [FloatArith F] [JsonText F]

/-- The rows that the filter does not show are as they were, and so is the watermark. -/
structure ConfinedTo (ns : NamespaceFilter) (db db' : Db F) : Prop where
  rows : ∀ m ∈ db.memoryItem.rows, ns.visible m.namespace m.namespaceKey = false →
    db'.getMemory m.id = some m
  watermark : db'.lastConsolidateAt = db.lastConsolidateAt

/-- No tombstoned row outside the filter may be purged, where the rows in `spared` are not. -/
def NothingToPurge (ns : NamespaceFilter) (db : Db F) (spared : List String) : Prop :=
  ∀ m ∈ db.memoryItem.rows, ns.visible m.namespace m.namespaceKey = false → m.tombstone = true →
    ∀ v, ¬ Purged spared m v

/-! ### The watermark -/

/-- Only an unscoped run is recorded. -/
theorem lastConsolidateAt_scoped {ns : NamespaceFilter} (active : ns.isActive = true)
    (eng : MemoryEngine) (w : World F) :
    (run (consolidateImpl eng ns) w).2.db.lastConsolidateAt = w.db.lastConsolidateAt := by
  have same : (run (consolidateImpl eng ns) w).2.db.consolidationLog = w.db.consolidationLog := by
    refine (consolidateImpl_obeys eng ns).only.run
      (R := fun w w' : World F => w'.db.consolidationLog = w.db.consolidationLog) (fun _ => rfl)
      (fun first last => last.trans first) ?_ w
    rintro r w ⟨h, allowed⟩
    rcases consolidationLog_exec w r with same | ⟨report, start, rfl, -⟩
    · exact same
    · obtain ⟨⟨ns', same, inactive⟩, -⟩ := allowed
      cases same
      rw [active] at inactive
      cases inactive
  unfold Db.lastConsolidateAt
  rw [same]

/-! ### Rows outside the filter -/

omit [FloatArith F] [JsonText F] in
/-- The change set is within the filter. -/
theorem changeSet_outside {db : Db F} {ns : NamespaceFilter} {m : MemoryItem F}
    (stored : m ∈ db.memoryItem.rows) (hidden : ns.visible m.namespace m.namespaceKey = false) :
    ∀ m' ∈ db.changeSet ns, m'.id ≠ m.id := by
  intro m' listed same
  have listed' := listChangedSinceScoped_valid (changeSet_valid listed) db
  obtain ⟨stored', -, -, visible⟩ := (Db.mem_listChangedSinceScoped listed').mp listed
  obtain rfl := Table.eq_of_key_eq stored' stored same
  rw [hidden] at visible
  cases visible

/-- A request that leaves the row of `i` alone, and every merge that is logged. -/
def Request.Guards (i : String) (r : Request F) : Prop :=
  r.Avoids i ∧ r.Within (fun _ => True) fun _ _ => True

/-- A world in which the row of `i` is `r`, and which spares it from the purge: it is live,
or it refers to no vector, or nothing fails and its merge is logged. -/
structure Spares (i : String) (r : MemoryItem F) (w : World F) : Prop where
  found : w.db.getMemory i = some r
  spared : r.tombstone = true → ∀ v, parseU64 r.vectorRef = some v →
    w.env.NoFaults ∧ i ∈ w.db.mergeSourceIds

section Spared

variable {i : String} {r : MemoryItem F}

omit [JsonText F] in
theorem mergeSourceIds_exec {w : World F} {q : Request F}
    (within : q.Within (fun _ => True) fun _ _ => True) (source : i ∈ w.db.mergeSourceIds) :
    i ∈ (w.exec q).2.db.mergeSourceIds := by
  obtain ⟨new, log, -⟩ := (evolves_exec within w).merges
  unfold Db.mergeSourceIds Db.listMergeLog at source ⊢
  rw [List.mem_map] at source ⊢
  obtain ⟨e, mem, same⟩ := source
  refine ⟨e, ?_, same⟩
  rw [log, List.mem_reverse, List.mem_append]
  exact .inl (List.mem_reverse.mp mem)

omit [JsonText F] in
theorem spares_exec (q : Request F) (w : World F) (guards : q.Guards i) (spares : Spares i r w) :
    Spares i r (w.exec q).2 := by
  refine ⟨(getMemory_exec w guards.1).trans spares.found, fun dead v parsed => ?_⟩
  obtain ⟨works, source⟩ := spares.spared dead v parsed
  exact ⟨(w.exec_env q).symm ▸ works, mergeSourceIds_exec guards.2 source⟩

omit [JsonText F] in
theorem allowsPhases_guards {changed : List (MemoryItem F)} (outside : ∀ m ∈ changed, m.id ≠ i) :
    AllowsPhases (Request.Guards i) changed := by
  have avoids := allowsPhases_avoids outside
  refine ⟨fun q request => ⟨avoids.first q request, ?_⟩,
    fun all q request => ⟨avoids.merge all q request, ?_⟩, fun tenant ns => ⟨trivial, trivial⟩,
    fun text => ⟨trivial, trivial⟩, fun m listed entities => ⟨outside m listed, trivial⟩,
    fun op payload «at» => ⟨trivial, trivial⟩⟩
  · cases request with
    | bury _ => exact fun _ _ => trivial
    | _ => trivial
  · exact within_merge request (fun _ _ _ _ => trivial) fun _ _ _ => trivial

omit [JsonText F] in
/-- Phase 5 purges no spared row. -/
theorem spares_consolidateReconcile {w : World F} (spares : Spares i r w) (eng : MemoryEngine)
    («at» : Nat) (failures : List ConsolidationFailure) (ns : NamespaceFilter) :
    Spares i r (run (consolidateReconcile eng «at» failures ns) w).2 := by
  have allows : AllowsScans «at» (Request.Guards (F := F) i) :=
    ⟨fun _ _ _ => ⟨trivial, trivial⟩, fun _ _ => ⟨trivial, trivial⟩, ⟨trivial, trivial⟩,
      ⟨trivial, trivial⟩, fun _ => ⟨trivial, trivial⟩, fun _ => ⟨trivial, trivial⟩,
      ⟨trivial, trivial⟩⟩
  refine keeps_consolidateReconcile allows spares_exec ?_ eng failures ns spares
  intro w spares t mem unlisted v parsed
  refine ⟨fun sameId => ?_, trivial⟩
  obtain ⟨stored, dead⟩ := Db.mem_listTombstoned.mp mem
  have same := Table.find?_of_mem stored
  rw [show w.db.memoryItem.find? t.id = some r from sameId ▸ spares.found] at same
  obtain rfl := Option.some.inj same
  obtain ⟨works, source⟩ := spares.spared dead v parsed
  have read := (sparedSources_listMergeLog w).read fun t => works.persist t _
  exact unlisted (by rw [World.readSources, read, sameId]; exact source)

/-- A run purges no spared row outside its change set. -/
theorem spares_consolidateChanged {changed : List (MemoryItem F)}
    (outside : ∀ m ∈ changed, m.id ≠ i) (eng : MemoryEngine) (ns : NamespaceFilter) (start : Nat)
    {w : World F} (spares : Spares i r w) :
    Spares i r (run (consolidateChanged eng ns start changed) w).2 := by
  refine keeps_consolidateChanged (allowsPhases_guards outside) spares_exec
    (fun failures w spares => ⟨?_, fun dead v parsed => ?_⟩)
    (fun tally merged summarized reextracted w spares => ?_) spares
  · exact getMemory_consolidateSummarize spares.found eng changed start failures ns
  · obtain ⟨works, source⟩ := spares.spared dead v parsed
    have adds := adds_consolidateSummarize eng changed start failures ns w
    refine ⟨adds.env ▸ works, ?_⟩
    unfold Db.mergeSourceIds Db.listMergeLog at source ⊢
    rwa [adds.mergeLog]
  · refine run_bind_rel (R := fun w w' => Spares i r w → Spares i r w')
      (fun first last h => last (first h))
      (fun spares => spares_consolidateReconcile spares eng start reextracted.failures ns)
      (fun reconciled w₁ _ => ?_) spares
    refine Program.Only.run (R := fun w w' => Spares i r w → Spares i r w')
      (P := Request.Guards i) ?_ (fun _ h => h) (fun first last h => last (first h))
      (fun q w guards => spares_exec q w guards) w₁
    refine Program.Only.bind (Program.Only.perform ⟨trivial, trivial⟩) fun finish => ?_
    refine Program.Only.bind (only_recordRun (fun _ _ _ => ⟨trivial, trivial⟩)
      ⟨trivial, trivial⟩ ns) fun _ => ?_
    exact Program.Only.bind (only_persist ⟨trivial, trivial⟩) fun _ => trivial

/-- A run leaves a spared row outside its filter as it was. -/
theorem spares_consolidateImpl {eng : MemoryEngine} {ns : NamespaceFilter} {w : World F}
    {m : MemoryItem F} (stored : m ∈ w.db.memoryItem.rows)
    (hidden : ns.visible m.namespace m.namespaceKey = false) (spares : Spares m.id m w) :
    (run (consolidateImpl eng ns) w).2.db.getMemory m.id = some m := by
  rcases run_consolidateImpl eng ns w with unchanged | ⟨w₁, alike, -, ran⟩
  · rw [unchanged]
    exact spares.found
  · have spares₁ : Spares m.id m w₁ := ⟨alike.db ▸ spares.found, fun dead v parsed =>
      alike.env ▸ alike.db ▸ spares.spared dead v parsed⟩
    rw [ran]
    exact (spares_consolidateChanged (changeSet_outside stored hidden) eng ns _ spares₁).found

end Spared

/-! ### Bringing about a purge -/

/-- Storage does not fail, apart perhaps from the reading of the merge log. -/
structure Env.Purges (env : Env F) : Prop where
  store : ∀ t op, env.storeFault t op = none
  purge : ∀ t id, env.persistFault t (.physicalDelete id) = none
  listTombstoned : ∀ t, env.persistFault t .listTombstoned = none
  listAll : ∀ t tenant ns, env.persistFault t (.listAllByTenantScoped tenant ns) = none

section Purging

variable {i : String}

omit [JsonText F] in
/-- A row that is gone stays away while no row is stored under its id. -/
theorem getMemory_exec_none {q : Request F} (keeps : q.stores i = false) {w : World F}
    (gone : w.db.getMemory i = none) : (w.exec q).2.db.getMemory i = none := by
  rcases getMemory_exec_cases w q i with ⟨-, same⟩ | ⟨op, rfl, writes, ⟨-, same⟩ | ⟨-, row⟩⟩
  · exact same.trans gone
  · exact same.trans gone
  · rw [row, gone]
    cases op with
    | putMemory item | putMemoryWithWop item _ _ _ =>
        have other : item.id ≠ i := by simpa [Request.stores] using keeps
        exact absurd other writes
    | _ => rfl

omit [JsonText F] in
theorem getMemory_run_none {α : Type} {p : EngineM F α}
    (only : Program.Only (fun q : Request F => q.stores i = false) p) {w : World F}
    (gone : w.db.getMemory i = none) : (run p w).2.db.getMemory i = none :=
  only.run (R := fun w w' : World F => w.db.getMemory i = none → w'.db.getMemory i = none)
    (fun _ h => h) (fun first last h => last (first h))
    (fun _ _ keeps gone => getMemory_exec_none keeps gone) w gone

omit [JsonText F] in
/-- The purge of one row. -/
theorem run_purgeTombstone_gone {w : World F} (purges : w.env.Purges) («at» : Nat)
    {sources : List String} {t : MemoryItem F} {v : Nat} (purged : Purged sources t v)
    (acc : Progress) :
    ∃ acc' w', run (purgeTombstone «at» sources acc t) w = (.ok acc', w') ∧
      w'.db.getMemory t.id = none := by
  unfold purgeTombstone
  rw [if_neg (fun listed => purged.1 (List.contains_iff_mem.mp listed)), purged.2]
  dsimp only
  have deleted : w.execStore (.deleteVector v) = (.ok (), w.store.deleteVector v) :=
    World.execStore_works (purges.store _ _)
  have removed : (w.withStore (w.store.deleteVector v)).execPersist (.physicalDelete t.id) =
      (.ok (), w.db.physicalDelete t.id) := World.execPersist_works (purges.purge _ _)
  rw [run_store_bind, deleted]
  dsimp only [Except.mapError]
  rw [run_persist_bind, removed]
  exact ⟨_, _, rfl, (w.db.getMemory_physicalDelete t.id t.id).trans (if_pos rfl)⟩

omit [JsonText F] in
theorem run_purgeTombstones_gone {w : World F} (purges : w.env.Purges) («at» : Nat)
    {sources : List String} {tombs : List (MemoryItem F)} {t : MemoryItem F} (listed : t ∈ tombs)
    {v : Nat} (purged : Purged sources t v) (acc : Progress) :
    (run (tombs.foldlM (purgeTombstone «at» sources) acc) w).2.db.getMemory t.id = none := by
  obtain ⟨before, after, rfl⟩ := List.append_of_mem listed
  obtain ⟨acc₁, w₁, ran₁, -⟩ := run_purgeTombstones «at» sources before acc w False.elim
  have env₁ : w₁.env = w.env := by
    have kept := run_env (before.foldlM (purgeTombstone «at» sources) acc) w
    rwa [ran₁] at kept
  obtain ⟨acc₂, w₂, ran₂, gone⟩ := run_purgeTombstone_gone (env₁ ▸ purges) «at» purged acc₁
  rw [List.foldlM_append, run_bind_ok ran₁, List.foldlM_cons, run_bind_ok ran₂]
  have scans : AllowsScans «at» fun q : Request F => q.stores t.id = false :=
    ⟨fun _ _ _ => rfl, fun _ _ => rfl, rfl, rfl, fun _ => rfl, fun _ => rfl, rfl⟩
  refine getMemory_run_none (Program.Only.foldlM _ (fun t' _ acc => ?_) _) gone
  exact only_purgeTombstone scans (fun _ _ _ => rfl) acc

omit [JsonText F] in
/-- A tombstoned row with a vector is purged when it is not known as a merge source. -/
theorem run_consolidateReconcile_gone {w : World F} (purges : w.env.Purges) {ns : NamespaceFilter}
    (valid : isValidNamespace ns.namespace = true) {m : MemoryItem F}
    (stored : m ∈ w.db.memoryItem.rows) (dead : m.tombstone = true) {v : Nat}
    (purged : ∀ sources, SparedSources w sources → Purged sources m v) (eng : MemoryEngine)
    («at» : Nat) (failures : List ConsolidationFailure) :
    (run (consolidateReconcile eng «at» failures ns) w).2.db.getMemory m.id = none := by
  have rows : run (persistOrFail (.listAllByTenantScoped eng.tenant ns)) w =
      (.ok (tenantRows w.db.memoryItem eng.tenant ns), w.withDb w.db) := by
    rw [run_persistOrFail, World.execPersist_works (purges.listAll _ _ _)]
    exact congrArg (fun reply => (Except.mapError PersistError.toMemory reply, w.withDb w.db))
      (listAllByTenantScoped_valid valid w.db eng.tenant)
  obtain ⟨w₁, checked, same₁, -⟩ := run_checkRefs «at» (tenantRows w.db.memoryItem eng.tenant ns) []
    (w.withDb w.db)
  obtain ⟨w₂, cleaned, same₂, -⟩ := run_cleanOrphans_all «at»
    ([] ++ vecRefs (tenantRows w.db.memoryItem eng.tenant ns)) w₁ False.elim
  have same : w.SameRows w₂ := ⟨same₂.env.trans same₁.env,
    same₂.memoryItem.trans same₁.memoryItem, same₂.mergeLog.trans same₁.mergeLog⟩
  have gone := purged _ ((sparedSources_listMergeLog w₂).ofSame same)
  have purges₂ : ((w₂.withDb w₂.db).withDb w₂.db).env.Purges := same.env ▸ purges
  have listed : m ∈ w₂.db.listTombstoned :=
    Db.mem_listTombstoned.mpr ⟨same.memoryItem ▸ stored, dead⟩
  have tombs : (w₂.withDb w₂.db).execPersist .listTombstoned = (.ok w₂.db.listTombstoned, w₂.db) :=
    World.execPersist_works (purges₂.listTombstoned _)
  unfold consolidateReconcile
  rw [run_bind_ok rows, run_bind_ok checked, run_bind_ok cleaned]
  unfold purgeTombstones
  rw [run_persist_bind, w₂.execPersist_isRead rfl, run_persistOrFail_bind, tombs]
  dsimp only
  exact run_purgeTombstones_gone purges₂ «at» listed gone ⟨0, failures⟩

omit [JsonText F] in
theorem getMemory_afterReextract_gone {w : World F} (purges : w.env.Purges) {ns : NamespaceFilter}
    (valid : isValidNamespace ns.namespace = true) {m : MemoryItem F}
    (stored : m ∈ w.db.memoryItem.rows) (dead : m.tombstone = true) {v : Nat}
    (purged : ∀ sources, SparedSources w sources → Purged sources m v) (eng : MemoryEngine)
    (start : Nat) (tally : Tally) (merged summarized reextracted : Progress) :
    (run (afterReextract eng ns start tally merged summarized reextracted) w).2.db.getMemory m.id =
      none := by
  have gone := run_consolidateReconcile_gone purges valid stored dead purged eng start
    reextracted.failures
  unfold afterReextract
  cases ran : run (consolidateReconcile eng start reextracted.failures ns) w with
  | mk result w₁ =>
      rw [ran] at gone
      cases result with
      | error e =>
          rw [run_bind_error ran]
          exact gone
      | ok reconciled =>
          rw [run_bind_ok ran]
          refine getMemory_run_none (Program.Only.bind (Program.Only.perform rfl) fun finish => ?_) gone
          refine Program.Only.bind (only_recordRun (P := fun q : Request F => q.stores m.id = false)
            (fun _ _ _ => rfl) rfl ns) fun _ => ?_
          exact Program.Only.bind (only_persist rfl) fun _ => trivial

/-- Where no text yields entities phase 4 does nothing. -/
theorem run_reextracts_silent (eng : MemoryEngine) (now : Nat) (acc : Progress)
    (rows : List (MemoryItem F)) :
    ∀ w : World F, (∀ t text, (w.env.extract t text).success = false) →
      ∃ w', run (rows.foldlM (reextract eng now) acc) w = (.ok acc, w') ∧ w.Alike w' := by
  induction rows with
  | nil => exact fun w _ => ⟨w, rfl, .refl w⟩
  | cons m rest ih =>
      intro w silent
      have first : ∃ w₁, run (reextract eng now acc m) w = (.ok acc, w₁) ∧ w.Alike w₁ := by
        unfold reextract
        split_ifs
        · rw [run_extract_bind, silent]
          exact ⟨_, rfl, rfl, rfl, rfl⟩
        · exact ⟨w, rfl, .refl w⟩
      obtain ⟨w₁, ran₁, alike₁⟩ := first
      obtain ⟨w₂, ran₂, alike₂⟩ := ih w₁ (alike₁.env ▸ silent)
      exact ⟨w₂, by rw [List.foldlM_cons, run_bind_ok ran₁, ran₂], alike₁.trans alike₂⟩

/-- A run over an empty store may come to phase 5 with the row of `m`, which is not in its
change set, and the merge log as they were. -/
theorem can_afterReextract {E : Env F → Prop} {Q : Db F → Prop} (switch : Env.Switchable E)
    (calm : ∀ env : Env F, env.NoFaults → E env) {ns : NamespaceFilter}
    (valid : isValidNamespace ns.namespace = true) {db : Db F} {m : MemoryItem F}
    (stored : m ∈ db.memoryItem.rows) (outside : ∀ m' ∈ db.changeSet ns, m'.id ≠ m.id)
    {eng : MemoryEngine}
    (rest : ∀ tally merged summarized reextracted w, m ∈ w.db.memoryItem.rows →
      w.db.mergeLog = db.mergeLog →
      Can E Q (afterReextract eng ns 0 tally merged summarized reextracted) w) :
    Can E Q (consolidateImpl eng ns) (World.fresh .quiet db (.empty 0)) := by
  have quiet : E .quiet := calm _ Env.quiet_noFaults
  refine Can.consolidate 0 switch (fun env works _ => calm env works) valid fun w₁ db₁ store₁ => ?_
  change w₁.db = db at db₁
  obtain ⟨tally, w₂, ran₂, same₂, rows₂, store₂⟩ := run_firstPhase (fun _ => true) true 0
    (db.changeSet ns) (w₁.withEnv .quiet) ⟨0, 0, []⟩ (fun _ _ _ => rfl) fun _ _ => rfl
  refine Can.bind switch quiet ran₂ ?_
  have empty : ∀ v, (w₂.withEnv .quiet).store.getVector v = none := by
    intro v
    unfold LocalStore.getVector
    rw [World.withEnv_store, store₂, World.withEnv_store, store₁,
      (vectors_foldl_drop (recycledVector 0) (db.changeSet ns) _).1]
    exact ite_self _
  obtain ⟨w₃, ran₃, alike₃⟩ := run_consolidateMerge_empty (w := w₂.withEnv .quiet)
    Env.quiet_noFaults valid eng (db.changeSet ns) 0 tally.failures empty
  refine Can.bind switch quiet ran₃ ?_
  rw [afterMerge_eq]
  obtain ⟨summarized, w₄, ran₄, alike₄⟩ := run_consolidateSummarize_silent (w := w₃.withEnv .quiet)
    (fun _ _ _ => rfl) eng (db.changeSet ns) 0 tally.failures ns
  refine Can.bind switch quiet ran₄ ?_
  obtain ⟨w₅, ran₅, alike₅⟩ := run_reextracts_silent eng 0 ⟨0, summarized.failures⟩
    (db.changeSet ns) (w₄.withEnv .quiet) fun _ _ => rfl
  refine Can.bind switch quiet ran₅ ?_
  have db₅ : w₅.db = w₂.db := alike₅.db.trans (alike₄.db.trans alike₃.db)
  refine rest _ _ _ _ w₅ ?_ ?_
  · have found : w₂.db.memoryItem.find? m.id = some m := by
      rw [rows₂, find?_firstPhase_other outside, World.withEnv_db, db₁]
      exact Table.find?_of_mem stored
    rw [db₅]
    exact Table.find?_mem found
  · rw [db₅, same₂.mergeLog, World.withEnv_db, db₁]

end Purging

/-! ### Confinement -/

/-- A tombstoned row outside the filter that has a vector, and is not known as a merge
source, may be purged. -/
theorem can_purge {E : Env F → Prop} (switch : Env.Switchable E)
    (calm : ∀ env : Env F, env.NoFaults → E env) {ns : NamespaceFilter}
    (valid : isValidNamespace ns.namespace = true) {db : Db F} {m : MemoryItem F}
    (stored : m ∈ db.memoryItem.rows) (hidden : ns.visible m.namespace m.namespaceKey = false)
    (dead : m.tombstone = true) {v : Nat} {last : Env F} (allowed : E last) (purges : last.Purges)
    (purged : ∀ (w : World F) sources, w.env = last → w.db.mergeLog = db.mergeLog →
      SparedSources w sources → Purged sources m v) (eng : MemoryEngine) :
    Can E (fun db' => db'.getMemory m.id = none) (consolidateImpl eng ns)
      (World.fresh .quiet db (.empty 0)) := by
  refine can_afterReextract switch calm valid stored (changeSet_outside stored hidden)
    fun tally merged summarized reextracted w stored' log => ⟨last, allowed, ?_⟩
  exact getMemory_afterReextract_gone (w := w.withEnv last) purges valid stored' dead
    (fun sources spared => purged (w.withEnv last) sources rfl log spared) eng 0 tally merged summarized
    reextracted

/-- Whatever happens in it, a scoped run leaves the rows outside its filter and the watermark
alone exactly when every tombstoned row outside the filter has a vector reference that is no
number. Where nothing fails, the sources of recorded merges are safe too. -/
theorem scoped_consolidate_confined_iff (eng : MemoryEngine) {ns : NamespaceFilter}
    (active : ns.isActive = true) (valid : isValidNamespace ns.namespace = true) (db : Db F) :
    ((∀ w : World F, w.db = db → ConfinedTo ns db
        (run (consolidateMemoriesScoped eng ns.namespace ns.key) w).2.db) ↔
      NothingToPurge ns db []) ∧
    ((∀ w : World F, w.db = db → w.env.NoFaults → ConfinedTo ns db
        (run (consolidateMemoriesScoped eng ns.namespace ns.key) w).2.db) ↔
      NothingToPurge ns db db.mergeSourceIds) := by
  change ((∀ w : World F, w.db = db → ConfinedTo ns db (run (consolidateImpl eng ns) w).2.db) ↔ _) ∧
    ((∀ w : World F, w.db = db → w.env.NoFaults →
      ConfinedTo ns db (run (consolidateImpl eng ns) w).2.db) ↔ _)
  refine ⟨⟨fun confined m stored hidden dead v purged => ?_, fun nothing w same => ?_⟩,
    ⟨fun confined m stored hidden dead v purged => ?_, fun nothing w same works => ?_⟩⟩
  · have purges : (Env.unreadableMergeLog : Env F).Purges :=
      ⟨fun _ _ => rfl, fun _ _ => rfl, fun _ => rfl, fun _ _ _ => rfl⟩
    have unread : ∀ (w : World F) sources, w.env = .unreadableMergeLog →
        w.db.mergeLog = db.mergeLog → SparedSources w sources → Purged sources m v := by
      intro w sources env _ spared
      rw [spared.unread (fun t => by rw [env]; exact fun h => by cases h)]
      exact purged
    obtain ⟨env, -, gone⟩ := can_purge Env.switchable_any (fun _ _ => trivial) valid stored hidden
      dead trivial purges unread eng
    have kept := (confined ((World.fresh .quiet db (.empty 0)).withEnv env) rfl).rows m stored hidden
    rw [gone] at kept
    cases kept
  · subst same
    refine ⟨fun m stored hidden => ?_, lastConsolidateAt_scoped active eng w⟩
    refine spares_consolidateImpl stored hidden ⟨Table.find?_of_mem stored, fun dead v parsed => ?_⟩
    exact absurd ⟨List.not_mem_nil, parsed⟩ (nothing m stored hidden dead v)
  · have purges : (Env.quiet : Env F).Purges :=
      ⟨fun _ _ => rfl, fun _ _ => rfl, fun _ => rfl, fun _ _ _ => rfl⟩
    have read : ∀ (w : World F) sources, w.env = .quiet →
        w.db.mergeLog = db.mergeLog → SparedSources w sources → Purged sources m v := by
      intro w sources env log spared
      rw [spared.read (fun t => by rw [env]; rfl)]
      unfold Db.mergeSourceIds Db.listMergeLog
      rw [log]
      exact purged
    obtain ⟨env, works, gone⟩ := can_purge Env.switchable_noFaults (fun _ works => works) valid stored
      hidden dead Env.quiet_noFaults purges read eng
    have kept := (confined ((World.fresh .quiet db (.empty 0)).withEnv env) rfl works).rows m stored
      hidden
    rw [gone] at kept
    cases kept
  · subst same
    refine ⟨fun m stored hidden => ?_, lastConsolidateAt_scoped active eng w⟩
    refine spares_consolidateImpl stored hidden ⟨Table.find?_of_mem stored, fun dead v parsed =>
      ⟨works, ?_⟩⟩
    by_contra unlisted
    exact nothing m stored hidden dead v ⟨unlisted, parsed⟩

/-! ### A deleted memory of another project -/

/-- A memory of project `p2` that was deleted. -/
def deletedFact : MemoryItem Fixed :=
  { MemoryItem.newTurnSkeleton "m1" "ix" 0 "s" "a" .semantic "fact" 5 with
    «namespace» := NS_PROJECT, namespaceKey := "p2", vectorRef := "7", tombstone := true }

def deletedFactDb : Db Fixed := { (Db.empty : Db Fixed) with memoryItem := Table.empty.upsert deletedFact }

/-- The same memory, without a vector. -/
def bareFactDb : Db Fixed :=
  { (Db.empty : Db Fixed) with memoryItem := Table.empty.upsert { deletedFact with vectorRef := "" } }

theorem scoped_consolidate_confined_iff_bare :
    ((∀ w : World Fixed, w.db = bareFactDb → ConfinedTo ⟨NS_PROJECT, "p1"⟩ bareFactDb
        (run (consolidateMemoriesScoped (plainEngine "a") NS_PROJECT "p1") w).2.db) ↔
      NothingToPurge ⟨NS_PROJECT, "p1"⟩ bareFactDb []) ∧
    ((∀ w : World Fixed, w.db = bareFactDb → w.env.NoFaults → ConfinedTo ⟨NS_PROJECT, "p1"⟩ bareFactDb
        (run (consolidateMemoriesScoped (plainEngine "a") NS_PROJECT "p1") w).2.db) ↔
      NothingToPurge ⟨NS_PROJECT, "p1"⟩ bareFactDb bareFactDb.mergeSourceIds) :=
  have active : NamespaceFilter.isActive ⟨NS_PROJECT, "p1"⟩ = true := rfl
  scoped_consolidate_confined_iff (plainEngine "a") active (by decide) bareFactDb

/-- Consolidating project `p1` deletes the row for good. -/
theorem scoped_consolidate_purges_foreign_row :
    ¬ ConfinedTo ⟨NS_PROJECT, "p1"⟩ deletedFactDb (run (consolidateMemoriesScoped (plainEngine "a")
      NS_PROJECT "p1") (World.fresh .quiet deletedFactDb (.empty 0))).2.db := by
  intro confined
  have kept := confined.rows deletedFact (by simp [deletedFactDb, Table.upsert]) (by decide)
  have gone : (run (consolidateMemoriesScoped (plainEngine "a") NS_PROJECT "p1")
      (World.fresh .quiet deletedFactDb (.empty 0))).2.db.getMemory deletedFact.id = none := by
    decide +kernel
  rw [gone] at kept
  cases kept

end FusionMemory
