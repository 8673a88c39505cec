import FusionMemory.Cluster.Leader

/-!
A leader's consolidation run.

Each phase keeps the database mirrored by its log. Phase 1 promotes the rows of its
snapshot as they were read, so what carries it is that the rows still to come are stored
as they were read (`Snapshot`); phase 5 forgets rows, so what carries it is that they are
tombstoned (`AllBuried`).
-/

namespace FusionMemory

open Lib

variable {F : Type} [FloatArith F] [JsonText F] {α : Type}

/-! ### Phase 1 -/

/-- The rows of a snapshot that a run has not come to are stored as they were read. -/
structure Snapshot (exact : Bool) (dim n : Nat) (rest : List (MemoryItem F)) (db : Db F) : Prop where
  mirrored : db.Mirrored exact dim n
  nodup : (rest.map (·.id)).Nodup
  stored : ∀ m ∈ rest, db.getMemory m.id = some m

namespace Snapshot

variable {exact : Bool} {dim n : Nat} {m : MemoryItem F} {rest : List (MemoryItem F)} {db db' : Db F}

/-- The row at the head is done with. -/
theorem tail (snapshot : Snapshot exact dim n (m :: rest) db) (mirrored : db'.Mirrored exact dim n)
    (others : ∀ id, m.id ≠ id → db'.getMemory id = db.getMemory id) :
    Snapshot exact dim n rest db' where
  mirrored := mirrored
  nodup := (List.nodup_cons.mp snapshot.nodup).2
  stored m' mem := by
    have new : m.id ∉ rest.map (·.id) := (List.nodup_cons.mp snapshot.nodup).1
    have other : m.id ≠ m'.id := fun same => new (List.mem_map.mpr ⟨m', mem, same.symm⟩)
    rw [others m'.id other]
    exact snapshot.stored m' (List.mem_cons_of_mem _ mem)

theorem recycle (snapshot : Snapshot exact dim n (m :: rest) db) (now : Nat) :
    Snapshot exact dim n rest ((db.tombstoneMemory m.id).appendWop "recycle" m.id now) := by
  refine snapshot.tail (snapshot.mirrored.tombstone (.recycle _ m.id now) change_recycle rfl)
    fun id other => ?_
  refine (db.getMemory_setTombstone m.id true id).trans ?_
  simp [other]

theorem promote (snapshot : Snapshot exact dim n (m :: rest) db) (now : Nat) :
    Snapshot exact dim n rest ((db.putMemory (promoted m)).appendWop "promote" (m.id ++ "\tLong") now) :=
  snapshot.tail (snapshot.mirrored.promote (snapshot.stored m List.mem_cons_self) now)
    fun id other => (db.getMemory_putMemory (promoted m) id).trans (if_neg other)

end Snapshot

section Phases

variable {env : Env F} {exact : Bool} {dim n : Nat}

section First

variable (works : env.NoFaults) {P Q : Db F → Prop}
include works

omit [JsonText F] in
theorem leads_recycleVector (acc : Tally) (m : MemoryItem F) :
    Leads env dim P P (recycleVector acc m) := by
  unfold recycleVector
  cases parseU64 m.vectorRef with
  | none => exact leads_done (fun _ inv => inv) acc
  | some vr =>
      refine leads_store works fun reply => ?_
      cases reply with
      | error e => exact leads_done (fun _ inv => inv) _
      | ok _ => exact leads_done (fun _ inv => inv) _

omit [JsonText F] in
theorem leads_recycleRow (acc : Tally) (m : MemoryItem F) {k : Tally → EngineM F α}
    (rest : Leads env dim (Unlogged (·.tombstoneMemory m.id) P) Q (k acc)) :
    Leads env dim P Q (recycleRow acc m >>= k) := by
  unfold recycleRow
  rw [bind_assoc]
  exact leads_write works (.tombstoneMemory m.id) (fun db => rfl) rest

/-- Phase 1 for the next row of the snapshot. -/
theorem leads_recycleOrPromote (now : Nat) (acc : Tally) (m : MemoryItem F)
    (rest : List (MemoryItem F)) :
    Leads env dim (Snapshot exact dim n (m :: rest)) (Snapshot exact dim n rest)
      (recycleOrPromote now acc m) := by
  have done : ∀ acc : Tally, Leads env dim (Snapshot exact dim n rest) (Snapshot exact dim n rest)
      (.done acc : EngineM F Tally) := leads_done fun _ snapshot => snapshot
  unfold recycleOrPromote
  split_ifs
  · have buries : ∀ acc, Leads env dim (Snapshot exact dim n (m :: rest)) (Snapshot exact dim n rest)
        (recycleRow acc m >>= fun acc => do
          let _ ← persist (.appendWop "recycle" m.id now)
          return { acc with dropped := acc.dropped + 1 }) := fun acc =>
      leads_recycleRow works acc m (leads_logWrite works (fun db snapshot => snapshot.recycle now)
        (done _))
    exact leads_bind (leads_recycleVector works acc m)
      (fun db snapshot => snapshot.tail snapshot.mirrored fun _ _ => rfl) buries
  · exact leads_write works (.putMemory (promoted m)) (fun db => rfl)
      (leads_logWrite works (fun db snapshot => snapshot.promote now) (done _))
  · exact leads_done (fun db snapshot => snapshot.tail snapshot.mirrored fun _ _ => rfl) acc

end First

/-! ### Phase 2 -/

section Merge

variable (works : env.NoFaults)
include works

theorem leads_mergeInto {all : List (MemoryItem F)} (portable : ∀ m ∈ all, m.Portable)
    {src : MemoryItem F} (portable' : src.Portable) («at» vr : Nat) (vec : List F)
    (hits : List (Nat × F)) : ∀ acc, Leads env dim (Db.Mirrored exact dim n) (Db.Mirrored exact dim n)
      (mergeInto all «at» src vr vec hits acc) := by
  induction hits with
  | nil => exact fun acc => leads_done (fun _ mirrored => mirrored) acc
  | cons hit rest ih =>
      intro acc
      unfold mergeInto
      cases target : mergeTarget all src vr hit with
      | none => exact ih acc
      | some tgt =>
          have noTab : '\t' ∉ tgt.id.toList := (portable tgt (mergeTarget_mem target)).noTab
          refine leads_write works (.tombstoneMemory src.id) (fun db => rfl) ?_
          refine leads_store works fun _ => ?_
          refine leads_write works (.recordMerge src.id tgt.id MERGE_REASON «at»)
            (fun db => rfl) ?_
          refine leads_logWrite works (R := Db.Mirrored exact dim n) (fun db buried => ?_)
            (leads_done (fun _ mirrored => mirrored) _)
          obtain ⟨db₀, mirrored, rfl⟩ := buried
          exact mirrored.merge portable'.noTab noTab «at»

theorem leads_mergeSource {all : List (MemoryItem F)} (portable : ∀ m ∈ all, m.Portable)
    {src : MemoryItem F} (portable' : src.Portable) («at» : Nat) (acc : Progress) :
    Leads env dim (Db.Mirrored exact dim n) (Db.Mirrored exact dim n)
      (mergeSource all «at» acc src) := by
  have done : Leads env dim (Db.Mirrored exact dim n) (Db.Mirrored exact dim n)
      (.done acc : EngineM F Progress) := leads_done (fun _ mirrored => mirrored) acc
  unfold mergeSource
  split_ifs
  · exact done
  · cases parseU64 src.vectorRef with
    | none => exact done
    | some vr =>
        refine leads_store works fun found => ?_
        rcases found with e | (_ | vec)
        · exact done
        · exact done
        · exact leads_storeOrFail works (fun _ mirrored => mirrored) fun knn =>
            leads_mergeInto works portable portable' «at» vr vec knn acc

theorem leads_consolidateMerge (eng : MemoryEngine) {changed : List (MemoryItem F)}
    (portable : ∀ m ∈ changed, m.Portable) («at» : Nat) (failures : List ConsolidationFailure)
    {ns : NamespaceFilter} (valid : isValidNamespace ns.namespace = true) :
    Leads env dim (Db.Mirrored exact dim n) (Db.Mirrored exact dim n)
      (consolidateMerge eng changed «at» failures ns) := by
  refine leads_persistOrFail works (R := fun all db => db.Mirrored exact dim n ∧
    ∀ m ∈ all, m.Portable) (fun db mirrored => ?_) fun all => leads_and fun listed => ?_
  · refine ⟨tenantRows db.memoryItem eng.tenant ns, listAllByTenantScoped_valid valid db _,
      mirrored, fun m mem => (mirrored.fits m ?_).portable⟩
    exact (List.mem_filter.mp (mem_orderBy.mp mem)).1
  · exact leads_loop _ (fun src mem acc => leads_mergeSource works listed
      (portable src (List.mem_filter.mp mem).1) «at» acc) _

end Merge

/-! ### Phase 3 -/

section Summarize

variable (surroundings : env.Portable)
include surroundings

theorem fits_summaryItem (eng : MemoryEngine) (ns : NamespaceFilter)
    (items : List (MemoryItem F)) (session summary : String) {id : String}
    (noTab : '\t' ∉ id.toList) {«at» : Nat} (small : «at» < 2 ^ 64) :
    (summaryItem eng ns items session summary id «at»).Fits n where
  portable := ⟨⟨Nat.two_pow_pos 32, Nat.two_pow_pos 64, small, small⟩,
    surroundings.weight .semantic, noTab⟩
  count := Nat.zero_le n

theorem leads_storeSummary (eng : MemoryEngine) {«at» : Nat} (small : «at» < 2 ^ 64)
    (ns : NamespaceFilter) (items : List (MemoryItem F)) (session summary : String)
    (acc : Progress) : Leads env dim (Db.Mirrored exact dim n) (Db.Mirrored exact dim n)
      (storeSummary eng «at» ns items session summary acc) := by
  refine leads_newUlid fun id noTab => ?_
  refine leads_embed fun t => ?_
  refine leads_ofExcept (fun _ inv => inv.1) fun vec _ => ?_
  refine leads_storeOrFail surroundings.works (fun _ inv => inv.1) fun _ => ?_
  refine leads_persist surroundings.works (R := fun _ => Db.Mirrored exact dim n)
    (fun db inv => ⟨(), rfl, ?_⟩) fun _ => leads_done (fun _ mirrored => mirrored) _
  exact inv.1.summarize inv.2 (fun episodic => by cases episodic)
    (fits_summaryItem surroundings eng ns items session summary noTab small) _ _

theorem leads_summarizeSession (eng : MemoryEngine) (changed : List (MemoryItem F)) {«at» : Nat}
    (small : «at» < 2 ^ 64) (ns : NamespaceFilter) (acc : Progress) (session : String) :
    Leads env dim (Db.Mirrored exact dim n) (Db.Mirrored exact dim n)
      (summarizeSession eng changed «at» ns acc session) := by
  have done : ∀ acc : Progress, Leads env dim (Db.Mirrored exact dim n) (Db.Mirrored exact dim n)
      (.done acc : EngineM F Progress) := leads_done fun _ mirrored => mirrored
  unfold summarizeSession
  dsimp only
  split_ifs
  · exact done acc
  · refine leads_ask (r := Request.chatCompletion SUMMARY_PROMPT _) trivial fun reply => ?_
    cases reply with
    | none => exact done _
    | some summary =>
        change Leads _ _ _ _ (if isBlank summary then _ else _)
        split_ifs
        · exact done _
        · exact leads_storeSummary surroundings eng small ns _ session summary acc

theorem leads_consolidateSummarize (eng : MemoryEngine) (changed : List (MemoryItem F))
    {«at» : Nat} (small : «at» < 2 ^ 64) (failures : List ConsolidationFailure)
    (ns : NamespaceFilter) : Leads env dim (Db.Mirrored exact dim n) (Db.Mirrored exact dim n)
      (consolidateSummarize eng changed «at» failures ns) := by
  unfold consolidateSummarize
  split_ifs
  · refine leads_ask (r := Request.iterationOrder _) trivial fun sessions => ?_
    exact leads_loop sessions (fun session _ acc =>
      leads_summarizeSession surroundings eng changed small ns acc session) _
  · exact leads_done (fun _ mirrored => mirrored) _

end Summarize

/-! ### Phase 4 -/

section Reextract

variable (works : env.NoFaults)
include works

theorem leads_reextract (eng : MemoryEngine) (now : Nat) (acc : Progress) {m : MemoryItem F}
    (fits : m.Fits n) : Leads env dim (Db.Mirrored exact dim n) (Db.Mirrored exact dim n)
      (reextract eng now acc m) := by
  have done : ∀ acc : Progress, Leads env dim (Db.Mirrored exact dim n) (Db.Mirrored exact dim n)
      (.done acc : EngineM F Progress) := leads_done fun _ mirrored => mirrored
  unfold reextract
  split_ifs
  · refine leads_ask (r := Request.extract m.content) trivial fun extracted => ?_
    change Leads _ _ _ _ (if extracted.success then _ else _)
    split_ifs
    · have portable : (reextracted m extracted.entities).Portable := fits.portable.entities _ _
      refine leads_write works (.putMemory (reextracted m extracted.entities))
        (fun db => rfl) ?_
      refine leads_logWrite works (R := Db.Mirrored exact dim n) (fun db mirrored => ?_) (done _)
      exact mirrored.put ⟨portable, fits.count⟩ (.reextract _ portable now) (change_reextract portable)
        rfl
    · exact done acc
  · exact done acc

end Reextract

/-! ### Phase 5 -/

/-- The rows that a run is about to forget are tombstoned. -/
structure AllBuried (exact : Bool) (dim n : Nat) (rest : List (MemoryItem F)) (db : Db F) : Prop where
  mirrored : db.Mirrored exact dim n
  buried : ∀ t ∈ rest, ∀ m, db.getMemory t.id = some m → m.tombstone = true

theorem AllBuried.tail {t : MemoryItem F} {rest : List (MemoryItem F)} {db : Db F}
    (inv : AllBuried exact dim n (t :: rest) db) : AllBuried exact dim n rest db :=
  ⟨inv.mirrored, fun t' mem => inv.buried t' (List.mem_cons_of_mem _ mem)⟩

theorem AllBuried.purge {t : MemoryItem F} {rest : List (MemoryItem F)} {db : Db F}
    (inv : AllBuried exact dim n (t :: rest) db) : AllBuried exact dim n rest (db.physicalDelete t.id) where
  mirrored := inv.mirrored.purge (inv.buried t List.mem_cons_self)
  buried t' mem m stored := by
    rw [Db.getMemory_physicalDelete] at stored
    split_ifs at stored
    exact inv.buried t' (List.mem_cons_of_mem _ mem) m stored

section Reconcile

variable (works : env.NoFaults)
include works

theorem leads_purgeTombstone («at» : Nat) (sources : List String) (acc : Progress)
    (t : MemoryItem F) (rest : List (MemoryItem F)) :
    Leads env dim (AllBuried exact dim n (t :: rest)) (AllBuried exact dim n rest)
      (purgeTombstone «at» sources acc t) := by
  have skip : ∀ acc : Progress, Leads env dim (AllBuried exact dim n (t :: rest))
      (AllBuried exact dim n rest) (.done acc : EngineM F Progress) := leads_done fun _ inv => inv.tail
  unfold purgeTombstone
  split_ifs
  · exact skip acc
  · cases parseU64 t.vectorRef with
    | none =>
        refine leads_persist works (R := fun _ => AllBuried exact dim n (t :: rest))
          (fun db inv => ⟨(), rfl, ?_⟩) fun _ => skip acc
        exact ⟨inv.mirrored.same rfl rfl rfl, inv.buried⟩
    | some vr =>
        refine leads_store works fun gone => ?_
        cases gone with
        | error e => exact skip acc
        | ok _ =>
            exact leads_persist works (R := fun _ => AllBuried exact dim n rest)
              (fun db inv => ⟨(), rfl, inv.purge⟩) fun _ => leads_done (fun _ inv => inv) _

theorem leads_purgeTombstones («at» : Nat) (failures : List ConsolidationFailure) :
    Leads env dim (Db.Mirrored exact dim n) (Db.Mirrored exact dim n)
      (purgeTombstones (F := F) «at» failures) := by
  refine leads_persist works (R := fun _ => Db.Mirrored exact dim n)
    (fun db mirrored => ⟨_, rfl, mirrored⟩) fun logged => ?_
  refine leads_persistOrFail works (R := fun tombs => AllBuried exact dim n tombs)
    (fun db mirrored => ⟨_, rfl, mirrored, fun t listed m stored => ?_⟩) fun tombs => ?_
  · obtain ⟨mem, buried⟩ := Db.mem_listTombstoned.mp listed
    have same : db.getMemory t.id = some t := Table.find?_of_mem mem
    obtain rfl : t = m := Option.some.inj (same.symm.trans stored)
    exact buried
  · exact leads_foldlM (fun _ _ inv => inv.mirrored)
      (fun acc t rest => leads_purgeTombstone works «at» _ acc t rest) tombs _

omit [FloatArith F] [JsonText F] works in
theorem unseen_allowsScans («at» : Nat) : AllowsScans «at» (Request.Unseen (F := F)) :=
  ⟨fun _ _ _ => trivial, fun _ _ => rfl, rfl, rfl, fun _ => trivial, fun _ => trivial, trivial⟩

theorem leads_consolidateReconcile (eng : MemoryEngine) («at» : Nat)
    (failures : List ConsolidationFailure) (ns : NamespaceFilter) :
    Leads env dim (Db.Mirrored exact dim n) (Db.Mirrored exact dim n)
      (consolidateReconcile (F := F) eng «at» failures ns) := by
  rw [consolidateReconcile_eq]
  exact leads_bind (leads_unseen works (only_scanVectors (unseen_allowsScans «at») eng ns))
    (fun _ mirrored => mirrored) fun _ => leads_purgeTombstones works «at» failures

end Reconcile

/-! ### The run -/

section Run

variable (surroundings : env.Portable)
include surroundings

theorem leads_afterMerge (eng : MemoryEngine) {ns : NamespaceFilter} {start : Nat}
    (small : start < 2 ^ 64) {changed : List (MemoryItem F)} (fits : ∀ m ∈ changed, m.Fits n)
    (tally : Tally) (merged : Progress) :
    Leads env dim (Db.Mirrored exact dim n) (Db.Mirrored exact dim n)
      (afterMerge eng ns start changed tally merged) := by
  have works := surroundings.works
  have reported : ∀ report, Program.Only Request.Unseen (do
      recordRun (F := F) ns report start
      let _ ← persist (.appendAudit start "system" "consolidate" "saga" (consolidationDetail report))
      return report) := fun report =>
    Program.Only.bind (only_recordRun (fun _ _ _ => trivial) trivial ns) fun _ =>
      Program.Only.bind (only_persist trivial) fun _ => trivial
  unfold afterMerge
  refine leads_bind (leads_consolidateSummarize surroundings eng changed small _ ns)
    (fun _ mirrored => mirrored) fun summarized => ?_
  refine leads_bind ?_ (fun _ mirrored => mirrored) fun report => leads_unseen works (reported report)
  unfold lateProgram
  refine leads_bind (leads_loop _ (fun m mem acc => leads_reextract works eng start acc
    (fits m mem)) _) (fun _ mirrored => mirrored) fun reextracted => ?_
  refine leads_bind (leads_consolidateReconcile works eng start _ ns) (fun _ mirrored => mirrored)
    fun reconciled => ?_
  exact leads_nowMs fun t => leads_done (fun _ mirrored => mirrored) _

/-- The phases over a snapshot that was just read. -/
theorem leads_consolidateChanged (eng : MemoryEngine) {ns : NamespaceFilter}
    (valid : isValidNamespace ns.namespace = true) {start : Nat} (small : start < 2 ^ 64)
    (changed : List (MemoryItem F)) :
    Leads env dim (Snapshot exact dim n changed) (Db.Mirrored exact dim n)
      (consolidateChanged eng ns start changed) := by
  have works := surroundings.works
  intro w serves
  have fits : ∀ m ∈ changed, m.Fits n := fun m mem =>
    serves.db.mirrored.fits m (Table.find?_mem (serves.db.stored m mem))
  refine (?_ : Leads env dim (Snapshot exact dim n changed) (Db.Mirrored exact dim n)
    (consolidateChanged eng ns start changed)) w serves
  unfold consolidateChanged
  refine leads_bind (leads_foldlM (Q := Db.Mirrored exact dim n) (fun _ _ inv => inv.mirrored)
    (fun acc m rest => leads_recycleOrPromote works start acc m rest) changed _)
    (fun _ mirrored => mirrored) fun tally => ?_
  exact leads_bind (leads_consolidateMerge works eng (fun m mem => (fits m mem).portable) start _ valid)
    (fun _ mirrored => mirrored) fun merged => leads_afterMerge surroundings eng small fits tally merged

/-- A run that fails stops after some of its writes, all of them logged. -/
theorem leads_consolidateImpl (eng : MemoryEngine) {ns : NamespaceFilter}
    (valid : isValidNamespace ns.namespace = true) :
    Leads env dim (Db.Mirrored exact dim n) (Db.Mirrored exact dim n) (consolidateImpl eng ns) := by
  rw [consolidateImpl_eq]
  refine leads_withLock .consolidate (leads_nowMs fun t => ?_)
  refine leads_persistOrFail surroundings.works (R := fun since db => db.Mirrored exact dim n ∧
    since = db.lastConsolidateAt) (fun db mirrored => ⟨_, rfl, mirrored, rfl⟩) fun since => ?_
  refine leads_persistOrFail surroundings.works (R := Snapshot exact dim n) (fun db inv => ?_)
    fun changed => leads_consolidateChanged surroundings eng valid (surroundings.clock t) changed
  obtain ⟨mirrored, rfl⟩ := inv
  refine ⟨db.changeSet ns, listChangedSinceScoped_valid valid db, mirrored, changeSet_nodup db ns,
    fun m mem => Table.find?_of_mem (mem_changeSet mem).1⟩

end Run

end Phases

end FusionMemory
