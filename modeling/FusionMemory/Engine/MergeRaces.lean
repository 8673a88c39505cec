import FusionMemory.Engine.ConsolidateTenants
import FusionMemory.Engine.IncrementalScan
import FusionMemory.Engine.Jobs

/-!
Whether a merge can be undone while reconciles run.

A reconcile reads the merge log and the tombstoned rows in two queries, and spares the rows
that it found in the log. A merge tombstones its source first and is logged afterwards.
`merges_stay_undoable` says that each logged merge keeps its source row unless one of two
orders of events comes about.
-/

namespace FusionMemory

open Lib

variable {F : Type} [FloatArith F] [JsonText F]

/-! ### Events -/

/-- A merge of `src` was logged at time `t`. -/
def MergedAt (src : String) (pool : Jobs F) (t : Nat) : Prop :=
  ∃ tgt reason «at», (⟨t, .persist (.recordMerge src tgt reason «at»), .ok ()⟩ : EngineEvent F) ∈
    pool.events

/-- The row of `id` was deleted for good at time `t`. -/
def PurgedAt (id : String) (pool : Jobs F) (t : Nat) : Prop :=
  (⟨t, .persist (.physicalDelete id), .ok ()⟩ : EngineEvent F) ∈ pool.events

/-- The row of `id` was written at time `t`. -/
def StoredAt (id : String) (pool : Jobs F) (t : Nat) : Prop :=
  ∃ item : MemoryItem F, item.id = id ∧
    ((⟨t, .persist (.putMemory item), .ok ()⟩ : EngineEvent F) ∈ pool.events ∨
      ∃ op payload «at», (⟨t, .persist (.putMemoryWithWop item op payload «at»), .ok ()⟩ :
        EngineEvent F) ∈ pool.events)

/-- The row of `id` was deleted for good after time `t`, and has not been written since. -/
def PurgedSince (id : String) (t : Nat) (pool : Jobs F) : Prop :=
  ∃ p, t < p ∧ PurgedAt id pool p ∧ ∀ s, StoredAt id pool s → s < p

/-- If this step deletes the row of `id` for good, and succeeds, no merge of `id` was logged
after the job read the merge log; and if it could not read the log, no merge of `id` is in it. -/
def PurgesInTime (pool : Jobs F) (i : Nat) : Prop :=
  ∀ h id next, pool.threads[i]? = some ⟨h, .request (.persist (.physicalDelete id)) next⟩ →
    (pool.world.execPersist (.physicalDelete id)).1 = .ok () →
    (∀ t logs, (⟨t, .persist .listMergeLog, .ok logs⟩ : EngineEvent F) ∈ h →
      ∀ s, MergedAt id pool s → s < t) ∧
    ∀ t e, (⟨t, .persist .listMergeLog, .error e⟩ : EngineEvent F) ∈ h →
      ∀ merge ∈ pool.world.db.mergeLog, merge.sourceId ≠ id

/-- If this step logs a merge, and succeeds, its source was not deleted for good since the job
read it. -/
def MergesInTime (pool : Jobs F) (i : Nat) : Prop :=
  ∀ h src tgt reason «at» next,
    pool.threads[i]? = some ⟨h, .request (.persist (.recordMerge src tgt reason «at»)) next⟩ →
      (pool.world.execPersist (.recordMerge src tgt reason «at»)).1 = .ok () →
      ∀ e ∈ h, ∀ m ∈ rowsRead e, m.id = src → ¬ PurgedSince src e.time pool

/-- The row that a merge would bring back is there. -/
def Db.HasSource (db : Db F) (e : MergeLogEntry) : Prop := (db.getMemory e.sourceId).isSome

/-- In every run of the jobs whose steps meet `C`, each logged merge has its source row,
unless it had none at the start. -/
def MergesUndoable (C : Jobs F → Nat → Prop) (eng : MemoryEngine) (w : World F)
    (jobs : List Job) : Prop :=
  ∀ pool, Pool.Reaches (machine F) C (Jobs.start eng w jobs) pool →
    ∀ e ∈ pool.world.db.mergeLog, (e ∈ w.db.mergeLog → w.db.HasSource e) →
      pool.world.db.HasSource e

/-! ### What a job may ask for -/

/-- A job merges rows that it has read, and deletes a row for good once it has asked for the
merge log and not found the row there. -/
def Heeds (h : List (EngineEvent F)) : Request F → Prop
  | .persist (.recordMerge src _ _ _) => ∃ e ∈ h, ∃ m ∈ rowsRead e, m.id = src
  | .persist (.physicalDelete id) => ∃ t reply,
      (⟨t, .persist .listMergeLog, reply⟩ : EngineEvent F) ∈ h ∧
        ∀ logs, reply = .ok logs → id ∉ logs.map (·.sourceId)
  | .persist (.unmerge _) => False
  | _ => True

/-- A request that heeds the merge log whatever was read. -/
def Request.Harmless (r : Request F) : Prop := ∀ h, Heeds h r

/-- A harmless request, or a merge of one of these rows. -/
def Request.MergesOf (changed : List (MemoryItem F)) (r : Request F) : Prop :=
  r.Harmless ∨ ∃ src ∈ changed, ∃ tgt reason «at»,
    r = .persist (.recordMerge src.id tgt reason «at»)

section Protocol

variable {h : List (EngineEvent F)}

omit [FloatArith F] [JsonText F] in
theorem harmless_scans («at» : Nat) : AllowsScans «at» (Request.Harmless (F := F)) :=
  ⟨fun _ _ _ _ => trivial, fun _ _ _ => trivial, fun _ => trivial, fun _ => trivial,
    fun _ _ => trivial, fun _ _ => trivial, fun _ => trivial⟩

theorem harmless_storing : AllowsStoring (Request.Harmless (F := F)) :=
  ⟨fun _ => trivial, fun _ _ => trivial, fun _ _ _ => trivial, fun _ _ _ _ _ => trivial,
    fun _ _ => trivial⟩

omit [FloatArith F] [JsonText F] in
theorem harmless_delete (id : String) : AllowsDelete (Request.Harmless (F := F)) id :=
  ⟨fun _ => trivial, fun _ _ => trivial, fun _ => trivial, fun _ => trivial, fun _ _ => trivial,
    fun _ _ => trivial⟩

omit [FloatArith F] [JsonText F] in
theorem heeds_harmless {α : Type} {p : EngineM F α} (only : Program.Only Request.Harmless p) :
    Program.Obeys Heeds (fun _ _ => True) h p :=
  Program.Obeys.ofOnly (I := fun _ => True) only (fun _ _ _ => trivial)
    (fun h _ _ harmless => harmless h) trivial

omit [FloatArith F] [JsonText F] in
/-- A reconcile deletes no row for good that it found in the merge log. -/
theorem heeds_consolidateReconcile (eng : MemoryEngine) («at» : Nat)
    (failures : List ConsolidationFailure) (ns : NamespaceFilter) :
    Program.Obeys Heeds (fun _ _ => True) h
      (consolidateReconcile (F := F) eng «at» failures ns) := by
  rw [consolidateReconcile_eq]
  refine obeys_bind_keeps (heeds_harmless (only_scanVectors (harmless_scans «at») eng ns))
    fun h _ _ => ?_
  refine ⟨trivial, fun t logged => ?_⟩
  refine obeys_persistOrFail trivial (fun _ _ => trivial) fun t₁ tombs => ?_
  -- The rest asks for harmless things, and for purges of rows that are not in the log.
  let sources := (logged.toOption.getD []).map (·.sourceId)
  let Allowed : Request F → Prop := fun r =>
    r.Harmless ∨ ∃ id, r = .persist (.physicalDelete id) ∧ id ∉ sources
  have scans : AllowsScans «at» Allowed :=
    ⟨fun id stage error => .inl ((harmless_scans «at»).report id stage error),
      fun tenant ns => .inl ((harmless_scans «at»).list tenant ns),
      .inl (harmless_scans «at»).listMerges, .inl (harmless_scans «at»).listTombstoned,
      fun v => .inl ((harmless_scans «at»).getVector v),
      fun v => .inl ((harmless_scans «at»).delete v), .inl (harmless_scans «at»).listVectors⟩
  have purges : Program.Only Allowed (tombs.foldlM (purgeTombstone «at» sources) ⟨0, failures⟩) :=
    Program.Only.foldlM tombs (fun t _ acc => only_purgeTombstone scans
      (fun unlisted _ _ => .inr ⟨t.id, rfl, unlisted⟩) acc) _
  refine (Program.Obeys.ofOnly
    (I := fun h => (⟨t, .persist .listMergeLog, logged⟩ : EngineEvent F) ∈ h) purges
    (fun _ _ mem => List.mem_cons_of_mem _ mem) (fun h r mem allowed => ?_)
    (List.mem_cons_of_mem _ List.mem_cons_self)).mono (fun _ _ allowed => allowed)
      fun _ _ _ => trivial
  rcases allowed with harmless | ⟨id, rfl, unlisted⟩
  · exact harmless h
  · refine ⟨t, logged, mem, fun logs read => ?_⟩
    subst read
    exact unlisted

omit [JsonText F] in
/-- A run merges the rows of its change set. -/
theorem allowsPhases_mergesOf (changed : List (MemoryItem F)) :
    AllowsPhases (Request.MergesOf changed) changed := by
  refine ⟨fun q request => .inl ?_, fun all q request => ?_, fun _ _ => .inl fun _ => trivial,
    fun _ => .inl fun _ => trivial, fun _ _ _ => .inl fun _ => trivial,
    fun _ _ _ => .inl fun _ => trivial⟩
  · cases request <;> exact fun _ => trivial
  · cases request with
    | record «at» pair => exact .inr ⟨_, pair.1, _, _, _, rfl⟩
    | _ => exact .inl fun _ => trivial

theorem heeds_consolidateImpl (eng : MemoryEngine) (ns : NamespaceFilter) :
    Program.Obeys Heeds (fun _ _ => True) h (consolidateImpl (F := F) eng ns) := by
  rw [consolidateImpl_eq]
  refine obeys_withLock (fun _ => ⟨trivial, trivial⟩) fun t₀ => ⟨trivial, fun t start => ?_⟩
  refine obeys_persistOrFail trivial (fun _ _ => trivial) fun t₁ since => ?_
  refine obeys_persistOrFail trivial (fun _ _ => trivial) fun t₂ changed => ?_
  let Knows : List (EngineEvent F) → Prop := fun h => ∃ e ∈ h, rowsRead e = changed
  have allows := allowsPhases_mergesOf changed
  have phase : ∀ {α : Type} {p : EngineM F α} {h : List (EngineEvent F)}, Knows h →
      Program.Only (Request.MergesOf changed) p →
        Program.Obeys Heeds (fun h _ => Knows h) h p := by
    intro α p h knows only
    refine Program.Obeys.ofOnly only (fun h e knows => ?_) (fun h r knows allowed => ?_) knows
    · obtain ⟨e', mem, read⟩ := knows
      exact ⟨e', List.mem_cons_of_mem _ mem, read⟩
    · obtain ⟨e, mem, read⟩ := knows
      rcases allowed with harmless | ⟨src, listed, tgt, reason, «at», rfl⟩
      · exact harmless h
      · exact ⟨e, mem, src, read ▸ listed, rfl⟩
  unfold consolidateChanged
  refine obeys_bind_keeps (phase ⟨_, List.mem_cons_self, rfl⟩ (Program.Only.foldlM _
    (fun m listed acc => (only_recycleOrPromote start listed acc).mono allows.first) _))
    fun h tally knows => ?_
  refine obeys_bind_keeps (phase knows (Program.Only.bind (only_persistOrFail (allows.list _ _))
    fun all => Program.Only.foldlM _ (fun src mem acc => ?_) _)) fun h merged knows => ?_
  · obtain ⟨listed, semantic⟩ := List.mem_filter.mp mem
    exact (only_mergeSource listed semantic acc).mono (allows.merge all)
  rw [afterMerge_eq]
  refine obeys_bind_keeps (phase knows ((only_consolidateSummarize harmless_storing
    (fun _ _ => trivial) (fun _ _ _ => trivial) eng changed start merged.failures ns).mono
      fun _ => .inl)) fun h summarized knows => ?_
  refine obeys_bind_keeps (phase knows (Program.Only.foldlM _
    (fun m listed acc => allows.reextract listed eng start acc) _)) fun h reextracted _ => ?_
  refine obeys_bind_keeps (heeds_consolidateReconcile eng start _ ns) fun h reconciled _ => ?_
  refine heeds_harmless (Program.Only.bind (Program.Only.perform fun _ => trivial) fun finish => ?_)
  refine Program.Only.bind (only_recordRun (fun _ _ _ _ => trivial) (fun _ => trivial) ns)
    fun _ => ?_
  exact Program.Only.bind (only_persist fun _ => trivial) fun _ => trivial

theorem Job.heeds (eng : MemoryEngine) (job : Job) :
    Program.Obeys Heeds (fun _ _ => True) [] (job.program (F := F) eng) := by
  cases job with
  | commit sessionId interaction =>
      refine heeds_harmless (Program.Only.bind (Program.Only.perform fun _ => trivial)
        fun now => ?_)
      refine Program.Only.bind (Program.Only.foldlM _ (fun turn _ acc => ?_) _) fun outcome =>
        Program.Only.bind (only_persist fun _ => trivial) fun _ => trivial
      exact only_commitTurn harmless_storing (fun _ _ => trivial) (fun _ _ => trivial)
        (fun _ _ => trivial) eng sessionId interaction now acc turn
  | consolidate ns =>
      exact obeys_bind_keeps (heeds_consolidateImpl eng ns) fun _ _ _ => trivial
  | reconcile =>
      have reconciles : Program.Obeys Heeds (fun _ _ => True) []
          (FusionMemory.reconcile (F := F) eng) := by
        refine ⟨trivial, fun t now => ?_⟩
        change Program.Obeys _ _ _ (consolidateReconcile eng now [] .default >>= fun _ => _)
        exact obeys_bind_keeps (heeds_consolidateReconcile eng now [] .default) fun _ _ _ => trivial
      exact obeys_bind_keeps reconciles fun _ _ _ => trivial
  | deleteMemory id =>
      exact heeds_harmless (Program.Only.bind (only_deleteMemory (harmless_delete id))
        fun _ => trivial)
  | deleteMemoryTenant id tenant =>
      exact heeds_harmless (Program.Only.bind
        (only_deleteMemoryTenant (harmless_delete id) tenant) fun _ => trivial)
  | deleteScopeTenant scope tenant =>
      exact heeds_harmless (Program.Only.bind (only_deleteScopeTenant (fun _ _ _ => trivial)
        (fun _ _ => trivial) (fun _ _ => trivial) (fun _ => trivial) (fun _ _ _ => trivial) scope
          tenant) fun _ => trivial)

end Protocol

/-! ### One step -/

omit [JsonText F] in
/-- Only a merge that is logged adds to the merge log. -/
theorem mem_mergeLog_exec {w : World F} {r : Request F} (keeps : ∀ id, r ≠ .persist (.unmerge id))
    {e : MergeLogEntry} (mem : e ∈ (w.exec r).2.db.mergeLog) (t : Nat) : e ∈ w.db.mergeLog ∨
      ∃ tgt reason «at», (⟨t, r, (w.exec r).1⟩ : EngineEvent F) =
        ⟨t, .persist (.recordMerge e.sourceId tgt reason «at»), .ok ()⟩ := by
  cases r with
  | persist op =>
      change e ∈ (w.execPersist op).2.mergeLog at mem
      change _ ∨ ∃ tgt reason «at», (⟨t, .persist op, (w.execPersist op).1⟩ : EngineEvent F) = _
      rcases w.execPersist_cases op with done | ⟨e', n, failed⟩
      · rw [done] at mem ⊢
        cases op with
        | recordMerge src tgt reason «at» =>
            rcases List.mem_append.mp mem with old | new
            · exact .inl old
            · obtain rfl := List.mem_singleton.mp new
              exact .inr ⟨tgt, reason, «at», rfl⟩
        | recordConsolidation report started =>
            rw [← (w.db.recordConsolidationPrefix_same report started _).2]
            exact .inl mem
        | unmerge id => exact absurd rfl (keeps id)
        | _ => exact .inl mem
      · rw [failed] at mem
        exact .inl (fails_mergeLog w.db e' n op ▸ mem)
  | acquire lock => cases lock <;> exact .inl mem
  | release lock => cases lock <;> exact .inl mem
  | _ => exact .inl mem

/-! ### All steps -/

/-- What a job read of the merge log and of the rows still tells what they are, but for later
merges and purges; and each logged merge has its source row. -/
structure SparesSources (w : World F) (pool : Jobs F) : Prop where
  past : ∀ e ∈ pool.events, e.time < pool.time
  logged : ∀ t logs, (⟨t, .persist .listMergeLog, .ok logs⟩ : EngineEvent F) ∈ pool.events →
    ∀ e ∈ pool.world.db.mergeLog, e.sourceId ∈ logs.map (·.sourceId) ∨
      ∃ s, t < s ∧ MergedAt e.sourceId pool s
  read : ∀ e ∈ pool.events, ∀ m ∈ rowsRead e,
    (pool.world.db.getMemory m.id).isSome ∨ PurgedSince m.id e.time pool
  sources : ∀ e ∈ pool.world.db.mergeLog, (e ∈ w.db.mergeLog → w.db.HasSource e) →
    pool.world.db.HasSource e

theorem sparesSources_start (eng : MemoryEngine) (w : World F) (jobs : List Job) :
    SparesSources w (Jobs.start eng w jobs) := by
  have none : ∀ e, e ∉ (Jobs.start eng w jobs).events := Jobs.not_mem_events_start eng w jobs
  exact ⟨fun e happened => absurd happened (none e), fun t logs happened => absurd happened (none _),
    fun e happened => absurd happened (none e), fun e mem kept => kept mem⟩

section Step

variable {w : World F} {pool : Jobs F} {i : Nat} {h : List (EngineEvent F)} {r : Request F}
  {next : r.Reply → EngineM F CommitOutcome}

omit [JsonText F] in
/-- A row that was gone is still gone after a step, or it was written. -/
theorem PurgedSince.advance {id : String} {t : Nat} (purged : PurgedSince id t pool)
    (found : pool.threads[i]? = some ⟨h, .request r next⟩) :
    ((pool.advance (machine F) i h r next).world.db.getMemory id).isSome ∨
      PurgedSince id t (pool.advance (machine F) i h r next) := by
  obtain ⟨p, late, gone, last⟩ := purged
  by_cases written : ∃ s, StoredAt id (pool.advance (machine F) i h r next) s ∧ p ≤ s
  · obtain ⟨s, ⟨item, rfl, stored⟩, after⟩ := written
    refine .inl (getMemory_exec_stored (t := pool.time) (s := s) ?_)
    rcases stored with put | ⟨op, payload, «at», put⟩
    · rcases (Pool.mem_events_advance found).mp put with now | old
      · exact .inl now.symm
      · exact absurd (last s ⟨item, rfl, .inl old⟩) (Nat.not_lt.mpr after)
    · rcases (Pool.mem_events_advance found).mp put with now | old
      · exact .inr ⟨op, payload, «at», now.symm⟩
      · exact absurd (last s ⟨item, rfl, .inr ⟨op, payload, «at», old⟩⟩) (Nat.not_lt.mpr after)
  · refine .inr ⟨p, late, (Pool.mem_events_advance found).mpr (.inr gone), fun s stored => ?_⟩
    by_contra after
    exact written ⟨s, stored, Nat.le_of_not_lt after⟩

omit [JsonText F] in
/-- A row that was there before a step is there after it, or was purged in it. -/
theorem purgedSince_advance (past : ∀ e ∈ pool.events, e.time < pool.time) {id : String} {t : Nat}
    (early : t < pool.time) (present : (pool.world.db.getMemory id).isSome)
    (found : pool.threads[i]? = some ⟨h, .request r next⟩) :
    ((pool.advance (machine F) i h r next).world.db.getMemory id).isSome ∨
      PurgedSince id t (pool.advance (machine F) i h r next) := by
  rcases getMemory_exec_isSome (r := r) present pool.time with kept | purge
  · exact .inl kept
  · refine .inr ⟨pool.time, early, (Pool.mem_events_advance found).mpr (.inl (purge.symm)),
      fun s stored => ?_⟩
    obtain ⟨item, -, stored⟩ := stored
    rcases stored with put | ⟨op, payload, «at», put⟩
    · rcases (Pool.mem_events_advance found).mp put with now | old
      · cases now.trans purge
      · exact past _ old
    · rcases (Pool.mem_events_advance found).mp put with now | old
      · cases now.trans purge
      · exact past _ old

omit [JsonText F] in
/-- What was merged late enough stays so. -/
theorem MergedAt.advance {src : String} {s : Nat} (merged : MergedAt src pool s)
    (found : pool.threads[i]? = some ⟨h, .request r next⟩) :
    MergedAt src (pool.advance (machine F) i h r next) s := by
  obtain ⟨tgt, reason, «at», merge⟩ := merged
  exact ⟨tgt, reason, «at», (Pool.mem_events_advance found).mpr (.inr merge)⟩

omit [JsonText F] in
/-- A merge log that was read lists the merges of its time; the others came later. -/
theorem SparesSources.logged_advance (spares : SparesSources w pool)
    (found : pool.threads[i]? = some ⟨h, .request r next⟩)
    (keeps : ∀ id, r ≠ .persist (.unmerge id)) {t : Nat} {logs : List MergeLogEntry}
    (read : (⟨t, .persist .listMergeLog, .ok logs⟩ : EngineEvent F) ∈
      (pool.advance (machine F) i h r next).events) {e : MergeLogEntry}
    (mem : e ∈ (pool.advance (machine F) i h r next).world.db.mergeLog) :
    e.sourceId ∈ logs.map (·.sourceId) ∨
      ∃ s, t < s ∧ MergedAt e.sourceId (pool.advance (machine F) i h r next) s := by
  rcases (Pool.mem_events_advance found).mp read with now | old
  · injection now with time request reply
    subst request
    rcases mem_mergeLog_exec keeps mem t with logged | ⟨_, _, _, same⟩
    · left
      have answer : (pool.world.execPersist .listMergeLog).1 = .ok logs := (eq_of_heq reply).symm
      obtain rfl : pool.world.db.listMergeLog = logs :=
        Except.ok.inj (World.execPersist_isRead_ok rfl answer)
      exact List.mem_map_of_mem (List.mem_reverse.mpr logged)
    · cases same
  · rcases mem_mergeLog_exec keeps mem pool.time with logged | ⟨tgt, reason, «at», merge⟩
    · rcases spares.logged t logs old e logged with listed | ⟨s, late, merged⟩
      · exact .inl listed
      · exact .inr ⟨s, late, merged.advance found⟩
    · exact .inr ⟨pool.time, spares.past _ old, tgt, reason, «at»,
        (Pool.mem_events_advance found).mpr (.inl merge.symm)⟩

omit [JsonText F] in
/-- A row that was read is there, or it was purged since. -/
theorem SparesSources.read_advance (spares : SparesSources w pool)
    (found : pool.threads[i]? = some ⟨h, .request r next⟩) {e : EngineEvent F}
    (mem : e ∈ (pool.advance (machine F) i h r next).events) {m : MemoryItem F}
    (read : m ∈ rowsRead e) :
    ((pool.advance (machine F) i h r next).world.db.getMemory m.id).isSome ∨
      PurgedSince m.id e.time (pool.advance (machine F) i h r next) := by
  rcases (Pool.mem_events_advance found).mp mem with rfl | old
  · have present : (pool.world.db.getMemory m.id).isSome := by
      rw [getMemory_rowsRead read]
      rfl
    rcases getMemory_exec_isSome (r := r) present pool.time with kept | purge
    · exact .inl kept
    · rw [show (machine F).exec = World.exec from rfl, purge] at read
      cases read
  · rcases spares.read e old m read with present | purged
    · exact purgedSince_advance spares.past (spares.past e old) present found
    · exact purged.advance found

omit [JsonText F] in
/-- The source of a merge is not purged by a job that read the merge log in time, and a row
is merged while it is there. -/
theorem SparesSources.sources_advance (spares : SparesSources w pool)
    (found : pool.threads[i]? = some ⟨h, .request r next⟩) (heeds : Heeds h r)
    (keeps : ∀ id, r ≠ .persist (.unmerge id)) (purges : PurgesInTime pool i)
    (merges : MergesInTime pool i) {e : MergeLogEntry}
    (mem : e ∈ (pool.advance (machine F) i h r next).world.db.mergeLog)
    (kept : e ∈ w.db.mergeLog → w.db.HasSource e) :
    (pool.advance (machine F) i h r next).world.db.HasSource e := by
  have happened := Pool.history_happened found
  rcases mem_mergeLog_exec keeps mem pool.time with logged | ⟨tgt, reason, «at», merge⟩
  · rcases getMemory_exec_isSome (r := r) (spares.sources e logged kept) pool.time with still | purge
    · exact still
    · -- The purge of a source: the job read the merge log before the merge, or not at all.
      injection purge with _ request reply
      subst request
      obtain ⟨t, answer, read, unlisted⟩ := heeds
      obtain ⟨inTime, unread⟩ := purges h _ _ found (eq_of_heq reply)
      cases answer with
      | error err => exact absurd rfl (unread t err read e logged)
      | ok logs =>
          rcases spares.logged t logs (happened _ read) e logged with listed | ⟨s, late, merged⟩
          · exact absurd listed (unlisted logs rfl)
          · exact absurd (inTime t logs read s merged) (Nat.lt_asymm late)
  · injection merge with _ request reply
    subst request
    obtain ⟨e', seen, m, read, same⟩ := heeds
    rcases spares.read e' (happened e' seen) m read with present | purged
    · rcases getMemory_exec_isSome (r := .persist (.recordMerge e.sourceId tgt reason «at»))
        (same ▸ present) pool.time with still | purge
      · exact still
      · cases purge
    · exact absurd (same ▸ purged) (merges h _ _ _ _ _ found (eq_of_heq reply) e' seen m read same)

omit [JsonText F] in
/-- The step lemma: a job that heeds the merge log spares the sources of merges, unless it
purges or merges too late. -/
theorem SparesSources.advance (spares : SparesSources w pool)
    (found : pool.threads[i]? = some ⟨h, .request r next⟩) (heeds : Heeds h r)
    (purges : PurgesInTime pool i) (merges : MergesInTime pool i) :
    SparesSources w (pool.advance (machine F) i h r next) := by
  have keeps : ∀ id, r ≠ .persist (.unmerge id) := by
    rintro id rfl
    exact heeds
  constructor
  · exact Pool.past_advance spares.past found
  · exact fun t logs read e mem => spares.logged_advance found keeps read mem
  · exact fun e mem m read => spares.read_advance found mem read
  · exact fun e mem kept => spares.sources_advance found heeds keeps purges merges mem kept

end Step

/-- A merge keeps its source row in every run in which no job purges a row that was merged
after the job read the merge log, and no row is merged after it was purged. -/
theorem merges_stay_undoable (eng : MemoryEngine) (w : World F) (jobs : List Job) :
    MergesUndoable (fun pool i => PurgesInTime pool i ∧ MergesInTime pool i) eng w jobs := by
  intro pool reach
  have keeps := Jobs.keepsProtocol (fun job (_ : job ∈ jobs) => Job.heeds eng job) w
  have spares : SparesSources w pool := reach.invariant keeps (sparesSources_start eng w jobs)
    fun pool i h r next spares found heeds cond _ => spares.advance found heeds cond.1 cond.2
  exact spares.sources

/-! ### A merge whose source is purged -/

theorem twoVectors_nodup :
    ([(7, [⟨1000000⟩]), (8, [⟨1000000⟩])].map (Prod.fst : Nat × List Fixed → Nat)).Nodup := by decide

/-- Two rows of one tenant, with the same vector. -/
def mergeableWorld : World Fixed :=
  World.fresh (.stopped 10) { (Db.empty : Db Fixed) with
      memoryItem := (Table.empty.upsert (factRow "m1" "a" "7")).upsert (factRow "m2" "a" "8") }
    ⟨⟨[(7, [⟨1000000⟩]), (8, [⟨1000000⟩])], twoVectors_nodup⟩, .empty, [], 1⟩

def runAndReconcile : List Job := [.consolidate .default, .reconcile]

/-- The reconcile reads the merge log, the run merges the first row into the second, and the
reconcile deletes the first row for good. -/
def mergedMidway : Jobs Fixed :=
  Pool.runSchedule (machine Fixed) (List.replicate 6 1 ++ List.replicate 10 0 ++ List.replicate 3 1)
    (Jobs.start (plainEngine "a") mergeableWorld runAndReconcile)

theorem reconcile_purges_merged_source :
    ¬ MergesUndoable (fun _ _ => True) (plainEngine "a") mergeableWorld runAndReconcile := by
  intro undoable
  have reach : Pool.Reaches (machine Fixed) (fun _ _ => True)
      (Jobs.start (plainEngine "a") mergeableWorld runAndReconcile) mergedMidway :=
    Pool.reaches_runSchedule (fun _ _ => true) (fun _ _ _ _ _ _ _ => trivial) _ _
      (by decide +kernel)
  have logged : mergedMidway.world.db.mergeLog = [⟨1, 10, "m1", "m2", MERGE_REASON⟩] := by
    decide +kernel
  have gone : mergedMidway.world.db.getMemory "m1" = none := by decide +kernel
  have source := undoable _ reach ⟨1, 10, "m1", "m2", MERGE_REASON⟩
    (by rw [logged]; exact List.mem_singleton.mpr rfl) fun old => (by cases old)
  change (mergedMidway.world.db.getMemory "m1").isSome = true at source
  rw [gone] at source
  cases source

end FusionMemory
