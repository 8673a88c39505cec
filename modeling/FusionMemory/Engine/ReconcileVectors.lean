import FusionMemory.Engine.Consolidate
import FusionMemory.Engine.Execution

/-!
Which vectors the reconcile step deletes.

The step lists the live rows of one tenant under one filter, deletes every store
vector that no listed row refers to, and then deletes the vectors of tombstoned
rows. The two scans look at different rows: the store holds the vectors of all
tenants and namespaces. `reconcile_keeps_live_vectors_iff` says exactly when no
live row loses its vector.
-/

namespace FusionMemory

open Lib

variable {F : Type} [FloatArith F]

/-! ### Worlds with the same rows -/

/-- The reports of a reconcile step change no memory row and no merge. -/
structure World.SameRows (w w' : World F) : Prop where
  env : w'.env = w.env
  memoryItem : w'.db.memoryItem = w.db.memoryItem
  mergeLog : w'.db.mergeLog = w.db.mergeLog

omit [FloatArith F] in
theorem World.SameRows.refl (w : World F) : w.SameRows w := ⟨rfl, rfl, rfl⟩

omit [FloatArith F] in
theorem World.SameRows.trans {w w' w'' : World F} (first : w.SameRows w') (last : w'.SameRows w'') :
    w.SameRows w'' :=
  ⟨last.env.trans first.env, last.memoryItem.trans first.memoryItem,
    last.mergeLog.trans first.mergeLog⟩

omit [FloatArith F] in
/-- A report leaves the rows alone whether it is written or fails. -/
theorem appendReconcile_sameRows (w : World F) («at» : Nat) (id stage error : String) :
    w.SameRows (w.withDb (w.execPersist (.appendReconcile «at» id stage error)).2) := by
  rcases w.execPersist_cases (.appendReconcile «at» id stage error) with done | ⟨e, n, failed⟩
  · rw [done]
    exact ⟨rfl, rfl, rfl⟩
  · rw [failed]
    exact ⟨rfl, rfl, rfl⟩

/-! ### The forward scan -/

/-- The references of a list of rows. -/
def vecRefs (rows : List (MemoryItem F)) : List Nat := rows.filterMap fun m => parseU64 m.vectorRef

theorem run_checkRef (w : World F) («at» : Nat) (refs : List Nat) (m : MemoryItem F) :
    ∃ w', run (checkRef «at» refs m) w = (.ok (refs ++ (parseU64 m.vectorRef).toList), w') ∧
      w.SameRows w' ∧ w'.store = w.store := by
  unfold checkRef
  cases parsed : parseU64 m.vectorRef with
  | none =>
      rw [Option.toList_none, List.append_nil]
      exact ⟨_, rfl, appendReconcile_sameRows w «at» m.id "bad-vector-ref" _, rfl⟩
  | some vr =>
      have looked : w.SameRows (w.withStore (w.execStore (.getVector vr)).2) := ⟨rfl, rfl, rfl⟩
      have kept : (w.execStore (.getVector vr)).2 = w.store := by
        rcases w.execStore_cases (.getVector vr) with done | ⟨e, n, failed⟩
        · rw [done]; rfl
        · rw [failed]; rfl
      rw [Option.toList_some]
      dsimp only
      rw [run_store_bind]
      split
      · exact ⟨_, rfl, looked, kept⟩
      · rw [run_persist_bind]
        exact ⟨_, rfl, looked.trans (appendReconcile_sameRows _ «at» m.id "dangling-vector" _),
          kept⟩

theorem run_checkRefs («at» : Nat) (rows : List (MemoryItem F)) :
    ∀ (refs : List Nat) (w : World F),
      ∃ w', run (rows.foldlM (checkRef «at») refs) w = (.ok (refs ++ vecRefs rows), w') ∧
        w.SameRows w' ∧ w'.store = w.store := by
  induction rows with
  | nil => exact fun refs w => ⟨w, by simp [vecRefs], .refl w, rfl⟩
  | cons m rest ih =>
      intro refs w
      obtain ⟨w₁, first, same₁, store₁⟩ := run_checkRef w «at» refs m
      obtain ⟨w₂, last, same₂, store₂⟩ := ih (refs ++ (parseU64 m.vectorRef).toList) w₁
      refine ⟨w₂, ?_, same₁.trans same₂, store₂.trans store₁⟩
      rw [List.foldlM_cons, run_bind_ok first, last]
      cases parsed : parseU64 m.vectorRef <;> simp [vecRefs, parsed]

/-! ### The orphan scan -/

/-- What a scan that deletes the vectors of `gone` leaves of a store. `exact` tells
whether the deletions are known to have succeeded. -/
structure LocalStore.Deletes (gone : Nat → Prop) (exact : Prop) (s s' : LocalStore F) : Prop where
  keeps : ∀ v, ¬ gone v → s'.getVector v = s.getVector v
  stays : ∀ v, s.getVector v = none → s'.getVector v = none
  deletes : exact → ∀ v, gone v → s'.getVector v = none

omit [FloatArith F] in
theorem LocalStore.Deletes.same {gone : Nat → Prop} {exact : Prop} (s : LocalStore F)
    (none : ∀ v, ¬ gone v) : LocalStore.Deletes gone exact s s :=
  ⟨fun _ _ => rfl, fun _ h => h, fun _ v h => absurd h (none v)⟩

omit [FloatArith F] in
theorem LocalStore.Deletes.trans {gone gone' both : Nat → Prop} {exact : Prop}
    {s s' s'' : LocalStore F} (first : LocalStore.Deletes gone exact s s')
    (last : LocalStore.Deletes gone' exact s' s'') (union : ∀ v, both v ↔ gone v ∨ gone' v) :
    LocalStore.Deletes both exact s s'' := by
  refine ⟨?_, ?_, ?_⟩
  · intro v outside
    rw [union, not_or] at outside
    exact (last.keeps v outside.2).trans (first.keeps v outside.1)
  · exact fun v h => last.stays v (first.stays v h)
  · intro known v inside
    rcases (union v).mp inside with h | h
    · exact last.stays v (first.deletes known v h)
    · exact last.deletes known v h

/-- One deletion, which may fail. -/
theorem deleteVector_deletes (w : World F) (vid : Nat) {exact : Prop}
    (known : exact → ∀ t op, w.env.storeFault t op = none) :
    LocalStore.Deletes (· = vid) exact w.store (w.execStore (.deleteVector vid)).2 := by
  have removed : LocalStore.Deletes (· = vid) exact w.store (w.store.deleteVector vid) := by
    refine ⟨?_, ?_, ?_⟩
    · intro v other
      rw [LocalStore.getVector_deleteVector, if_neg (Ne.symm other)]
    · intro v gone
      rw [LocalStore.getVector_deleteVector, gone, ite_self]
    · rintro - v rfl
      rw [LocalStore.getVector_deleteVector, if_pos rfl]
  cases fault : w.env.storeFault w.tick (.deleteVector vid) with
  | none => exact (World.execStore_works fault) ▸ removed
  | some f =>
      rw [World.execStore_fault fault]
      refine ⟨fun _ _ => rfl, fun _ h => h, fun h => ?_⟩
      rw [known h] at fault
      cases fault

theorem run_cleanOrphan (w : World F) («at» : Nat) (refs : List Nat) (vid : Nat) {exact : Prop}
    (known : exact → ∀ t op, w.env.storeFault t op = none) :
    ∃ w', run (cleanOrphan «at» refs () vid) w = (.ok (), w') ∧ w.SameRows w' ∧
      LocalStore.Deletes (fun v => v = vid ∧ v ∉ refs) exact w.store w'.store := by
  unfold cleanOrphan
  by_cases referred : vid ∈ refs
  · rw [if_pos (List.contains_iff_mem.mpr referred)]
    refine ⟨w, rfl, .refl w, .same _ ?_⟩
    rintro v ⟨rfl, orphan⟩
    exact orphan referred
  · rw [if_neg (fun h => referred (List.contains_iff_mem.mp h)), run_persist_bind, run_store_bind]
    have same := appendReconcile_sameRows w «at» ("orphan-vec-" ++ toString vid) "orphan-vector"
      "store has vector, sqlite missing metadata"
    refine ⟨_, rfl, same.trans ⟨rfl, rfl, rfl⟩, ?_⟩
    have deleted := deleteVector_deletes (w.withDb (w.execPersist
      (.appendReconcile «at» ("orphan-vec-" ++ toString vid) "orphan-vector"
        "store has vector, sqlite missing metadata")).2) vid known
    refine ⟨fun v outside => deleted.keeps v ?_, deleted.stays, fun h v inside =>
      deleted.deletes h v inside.1⟩
    rintro rfl
    exact outside ⟨rfl, referred⟩

theorem run_cleanOrphans («at» : Nat) (refs : List Nat) {exact : Prop} (ids : List Nat) :
    ∀ w : World F, (exact → ∀ t op, w.env.storeFault t op = none) →
      ∃ w', run (ids.foldlM (cleanOrphan «at» refs) ()) w = (.ok (), w') ∧ w.SameRows w' ∧
        LocalStore.Deletes (fun v => v ∈ ids ∧ v ∉ refs) exact w.store w'.store := by
  induction ids with
  | nil => exact fun w _ => ⟨w, rfl, .refl w, .same _ fun v h => absurd h.1 (by simp)⟩
  | cons vid rest ih =>
      intro w known
      obtain ⟨w₁, first, same₁, gone₁⟩ := run_cleanOrphan w «at» refs vid known
      obtain ⟨w₂, last, same₂, gone₂⟩ := ih w₁ (fun h => same₁.env ▸ known h)
      refine ⟨w₂, ?_, same₁.trans same₂, gone₁.trans gone₂ ?_⟩
      · rw [List.foldlM_cons, run_bind_ok first, last]
      · intro v
        rw [List.mem_cons]
        tauto

/-! ### The purge of tombstoned rows -/

/-- The vector of a row that the purge may delete. -/
def Purged (sources : List String) (t : MemoryItem F) (v : Nat) : Prop :=
  t.id ∉ sources ∧ parseU64 t.vectorRef = some v

theorem run_purgeTombstone (w : World F) («at» : Nat) (sources : List String) (acc : Progress)
    (t : MemoryItem F) {exact : Prop} (known : exact → ∀ t op, w.env.storeFault t op = none) :
    ∃ acc' w', run (purgeTombstone «at» sources acc t) w = (.ok acc', w') ∧ w'.env = w.env ∧
      LocalStore.Deletes (Purged sources t) exact w.store w'.store := by
  unfold purgeTombstone
  by_cases protect : t.id ∈ sources
  · rw [if_pos (List.contains_iff_mem.mpr protect)]
    exact ⟨acc, w, rfl, rfl, .same _ fun v h => h.1 protect⟩
  · rw [if_neg (fun h => protect (List.contains_iff_mem.mp h))]
    cases parsed : parseU64 t.vectorRef with
    | none =>
        rw [run_persist_bind]
        refine ⟨acc, _, rfl, rfl, .same _ fun v h => ?_⟩
        rw [Purged, parsed] at h
        cases h.2
    | some vr =>
        have deleted := deleteVector_deletes w vr known
        have purge : LocalStore.Deletes (Purged sources t) exact w.store
            (w.execStore (.deleteVector vr)).2 := by
          have only : ∀ v, Purged sources t v ↔ v = vr := by
            intro v
            rw [Purged, parsed, Option.some.injEq]
            exact ⟨fun h => h.2.symm, fun h => ⟨protect, h.symm⟩⟩
          refine ⟨fun v outside => deleted.keeps v ?_, deleted.stays, fun h v inside =>
            deleted.deletes h v ((only v).mp inside)⟩
          exact fun h => outside ((only v).mpr h)
        dsimp only
        rw [run_store_bind]
        split
        · exact ⟨acc, _, rfl, rfl, purge⟩
        · rw [run_persist_bind]
          split
          · exact ⟨_, _, rfl, rfl, purge⟩
          · exact ⟨_, _, rfl, rfl, purge⟩

theorem run_purgeTombstones («at» : Nat) (sources : List String) {exact : Prop}
    (tombs : List (MemoryItem F)) :
    ∀ (acc : Progress) (w : World F), (exact → ∀ t op, w.env.storeFault t op = none) →
      ∃ acc' w', run (tombs.foldlM (purgeTombstone «at» sources) acc) w = (.ok acc', w') ∧
        LocalStore.Deletes (fun v => ∃ t ∈ tombs, Purged sources t v) exact w.store w'.store := by
  induction tombs with
  | nil => exact fun acc w _ => ⟨acc, w, rfl, .same _ fun v h => by simp at h⟩
  | cons t rest ih =>
      intro acc w known
      obtain ⟨acc₁, w₁, first, env₁, gone₁⟩ := run_purgeTombstone w «at» sources acc t known
      obtain ⟨acc₂, w₂, last, gone₂⟩ := ih acc₁ w₁ (fun h => env₁ ▸ known h)
      refine ⟨acc₂, w₂, ?_, gone₁.trans gone₂ ?_⟩
      · rw [List.foldlM_cons, run_bind_ok first, last]
      · intro v
        simp

/-! ### The whole step -/

/-- The sources of the recorded merges, whose tombstones are kept. -/
def Db.mergeSourceIds (db : Db F) : List String := db.listMergeLog.map (·.sourceId)

/-- A live row of the tenant, visible under the filter, refers to vector `v`. -/
def ListedRef (db : Db F) (tenant : String) (ns : NamespaceFilter) (v : Nat) : Prop :=
  ∃ m ∈ db.memoryItem.rows, m.tombstone = false ∧ m.tenant = tenant ∧
    ns.visible m.namespace m.namespaceKey = true ∧ parseU64 m.vectorRef = some v

omit [FloatArith F] in
theorem mem_vecRefs_listed {db : Db F} {tenant : String} {ns : NamespaceFilter}
    {rows : List (MemoryItem F)} (listed : db.listAllByTenantScoped tenant ns = .ok rows) (v : Nat) :
    v ∈ vecRefs rows ↔ ListedRef db tenant ns v := by
  unfold vecRefs ListedRef
  rw [List.mem_filterMap]
  constructor
  · rintro ⟨m, mem, parsed⟩
    obtain ⟨inDb, live, owner, visible⟩ := (Db.mem_listAllByTenantScoped listed).mp mem
    exact ⟨m, inDb, live, owner, visible, parsed⟩
  · rintro ⟨m, inDb, live, owner, visible, parsed⟩
    exact ⟨m, (Db.mem_listAllByTenantScoped listed).mpr ⟨inDb, live, owner, visible⟩, parsed⟩

/-- The scan over the store deletes what no listed row refers to, as far as it can. -/
theorem run_cleanOrphans_all («at» : Nat) (refs : List Nat) (w : World F) {exact : Prop}
    (known : exact → ∀ t op, w.env.storeFault t op = none) :
    ∃ w', run (cleanOrphans «at» refs) w = (.ok (), w') ∧ w.SameRows w' ∧
      LocalStore.Deletes (· ∉ refs) exact w.store w'.store := by
  unfold cleanOrphans
  rw [run_store_bind]
  have kept : (w.execStore .listVectorIds).2 = w.store := by
    rcases w.execStore_cases .listVectorIds with done | ⟨e, n, failed⟩
    · rw [done]; rfl
    · rw [failed]; rfl
  have listed : exact → (w.execStore .listVectorIds).1 = .ok w.store.listVectorIds := by
    intro h
    rw [World.execStore_works (known h _ _)]
    rfl
  rw [kept]
  generalize (w.execStore .listVectorIds).1 = reply at listed
  obtain ⟨w', ran, same, gone⟩ := run_cleanOrphans «at» refs
    ((reply.mapError StoreError.toMemory).toOption.getD []) (w.withStore w.store) known
  have framed : w.SameRows w' := ⟨same.env, same.memoryItem, same.mergeLog⟩
  refine ⟨w', ran, framed, fun v inside => gone.keeps v fun h => inside h.2, gone.stays, ?_⟩
  intro h v orphan
  cases live : w.store.getVector v with
  | none => exact gone.stays v live
  | some x =>
      refine gone.deletes h v ⟨?_, orphan⟩
      rw [listed h]
      exact LocalStore.mem_listVectorIds.mpr (by simp [live])

/-- What the merge log is taken to hold. -/
structure SparedSources (w : World F) (sources : List String) : Prop where
  read : (∀ t, w.env.persistFault t .listMergeLog = none) → sources = w.db.mergeSourceIds
  unread : (∀ t, w.env.persistFault t .listMergeLog ≠ none) → sources = []
  cases : sources = w.db.mergeSourceIds ∨ sources = []

omit [FloatArith F] in
theorem SparedSources.ofSame {w w' : World F} {sources : List String} (same : w.SameRows w')
    (spared : SparedSources w' sources) : SparedSources w sources := by
  have log : w'.db.mergeSourceIds = w.db.mergeSourceIds := by
    unfold Db.mergeSourceIds Db.listMergeLog
    rw [same.mergeLog]
  refine ⟨fun h => ?_, fun h => spared.unread (same.env ▸ h), log ▸ spared.cases⟩
  rw [← log]
  exact spared.read (same.env ▸ h)

omit [FloatArith F] in
theorem sparedSources_listMergeLog (w : World F) :
    SparedSources w (((w.execPersist .listMergeLog).1.toOption.getD []).map (·.sourceId)) := by
  cases fault : w.env.persistFault w.tick .listMergeLog with
  | none =>
      rw [World.execPersist_works fault]
      exact ⟨fun _ => rfl, fun h => absurd fault (h _), .inl rfl⟩
  | some f =>
      rw [World.execPersist_fault fault]
      refine ⟨fun h => ?_, fun _ => rfl, .inr rfl⟩
      rw [h] at fault
      cases fault

theorem run_purgeTombstones_all («at» : Nat) (failures : List ConsolidationFailure) (w : World F) :
    ∃ sources, SparedSources w sources ∧
      LocalStore.Deletes (fun v => ∃ t ∈ w.db.listTombstoned, Purged sources t v)
        ((∀ t op, w.env.storeFault t op = none) ∧ ∀ t, w.env.persistFault t .listTombstoned = none)
        w.store (run (purgeTombstones «at» failures) w).2.store := by
  refine ⟨_, sparedSources_listMergeLog w, ?_⟩
  unfold purgeTombstones
  have kept : (w.execPersist .listMergeLog).2 = w.db := by
    rcases w.execPersist_cases .listMergeLog with done | ⟨e, n, failed⟩
    · rw [done]; rfl
    · rw [failed]; rfl
  rw [run_persist_bind, run_persistOrFail_bind, kept]
  cases fault : w.env.persistFault (w.withDb w.db).tick .listTombstoned with
  | some f =>
      have failed : (w.withDb w.db).execPersist .listTombstoned = (.error f.1, w.db) :=
        World.execPersist_fault fault
      rw [failed]
      refine ⟨fun _ _ => rfl, fun _ h => h, fun h => ?_⟩
      rw [h.2] at fault
      cases fault
  | none =>
      have listed : (w.withDb w.db).execPersist .listTombstoned = (.ok w.db.listTombstoned, w.db) :=
        World.execPersist_works fault
      rw [listed]
      obtain ⟨acc', w', ran, gone⟩ := run_purgeTombstones «at»
        (((w.execPersist .listMergeLog).1.toOption.getD []).map (·.sourceId)) w.db.listTombstoned
        ⟨0, failures⟩ ((w.withDb w.db).withDb w.db) And.left
      dsimp only
      rw [ran]
      exact gone

/-- What a reconcile step for `tenant` under `ns` leaves of the store of `w`. An
unknown namespace, or a listing that fails, ends the step before any deletion. -/
inductive Reconciled (tenant : String) (ns : NamespaceFilter) (w : World F) (s' : LocalStore F) :
    Prop where
  | stopped (same : s' = w.store)
      (why : isValidNamespace ns.namespace = true →
        ∃ t, w.env.persistFault t (.listAllByTenantScoped tenant ns) ≠ none)
  | cleaned (valid : isValidNamespace ns.namespace = true) (sources : List String)
      (spared : SparedSources w sources)
      (deletes : LocalStore.Deletes
        (fun v => ¬ ListedRef w.db tenant ns v ∨ ∃ t ∈ w.db.listTombstoned, Purged sources t v)
        ((∀ t op, w.env.storeFault t op = none) ∧ ∀ t, w.env.persistFault t .listTombstoned = none)
        w.store s')

theorem reconciled_consolidateReconcile (eng : MemoryEngine) («at» : Nat)
    (failures : List ConsolidationFailure) (ns : NamespaceFilter) (w : World F) :
    Reconciled eng.tenant ns w (run (consolidateReconcile eng «at» failures ns) w).2.store := by
  unfold consolidateReconcile
  rw [run_persistOrFail_bind]
  cases fault : w.env.persistFault w.tick (.listAllByTenantScoped eng.tenant ns) with
  | some f =>
      have failed : w.execPersist (.listAllByTenantScoped eng.tenant ns) = (.error f.1, w.db) :=
        World.execPersist_fault fault
      rw [failed]
      exact .stopped rfl fun _ => ⟨w.tick, by simp [fault]⟩
  | none =>
      have listed : w.execPersist (.listAllByTenantScoped eng.tenant ns) =
          (w.db.listAllByTenantScoped eng.tenant ns, w.db) := World.execPersist_works fault
      rw [listed]
      cases rows : w.db.listAllByTenantScoped eng.tenant ns with
      | error e =>
          refine .stopped rfl fun valid => ?_
          unfold Db.listAllByTenantScoped at rows
          rw [Db.nsPredicate_valid valid] at rows
          cases rows
      | ok sqliteAll =>
          dsimp only
          obtain ⟨w₁, scanned, same₁, store₁⟩ := run_checkRefs «at» sqliteAll [] (w.withDb w.db)
          have env₁ : w₁.env = w.env := same₁.env
          obtain ⟨w₂, cleaned, same₂, gone₂⟩ := run_cleanOrphans_all «at» ([] ++ vecRefs sqliteAll) w₁
            fun h : (∀ t op, w.env.storeFault t op = none) ∧
                ∀ t, w.env.persistFault t .listTombstoned = none => env₁ ▸ h.1
          obtain ⟨sources, spared, gone₃⟩ := run_purgeTombstones_all «at» failures w₂
          have same : w.SameRows w₂ := ⟨same₂.env.trans env₁,
            same₂.memoryItem.trans same₁.memoryItem, same₂.mergeLog.trans same₁.mergeLog⟩
          have tombs : w₂.db.listTombstoned = w.db.listTombstoned := by
            unfold Db.listTombstoned Db.select
            rw [same.memoryItem]
          rw [run_bind_ok scanned, run_bind_ok cleaned]
          rw [same.env, tombs] at gone₃
          rw [store₁] at gone₂
          cases valid : isValidNamespace ns.namespace with
          | false =>
              unfold Db.listAllByTenantScoped at rows
              rw [Db.nsPredicate_invalid valid] at rows
              cases rows
          | true =>
              refine .cleaned valid sources (spared.ofSame same) (gone₂.trans gone₃ fun v => ?_)
              rw [List.nil_append, mem_vecRefs_listed rows]

/-- `reconcile()` is the same step at the time it reads, unscoped. -/
theorem reconciled_reconcile (eng : MemoryEngine) (w : World F) :
    Reconciled eng.tenant .default w (run (reconcile eng) w).2.store := by
  have step := reconciled_consolidateReconcile eng (w.env.clock w.tick) [] .default w.next
  have same : (run (reconcile eng) w).2 =
      (run (consolidateReconcile eng (w.env.clock w.tick) [] .default) w.next).2 := by
    unfold reconcile
    rw [run_nowMs_bind]
    cases ran : run (consolidateReconcile eng (w.env.clock w.tick) [] .default) w.next with
    | mk result w' =>
        cases result with
        | ok p => rw [run_bind_ok ran]; rfl
        | error e => rw [run_bind_error ran]
  rw [same]
  cases step with
  | stopped kept why => exact .stopped kept why
  | cleaned valid sources spared deletes =>
      have same : w.SameRows w.next := ⟨rfl, rfl, rfl⟩
      exact .cleaned valid sources (spared.ofSame same) deletes

/-! ### Live rows keep their vectors -/

/-- Every live row, of whatever tenant and namespace, whose vector `s` holds still has
it in `s'`. -/
def KeepsLiveVectors (db : Db F) (s s' : LocalStore F) : Prop :=
  ∀ m ∈ db.memoryItem.rows, m.tombstone = false → ∀ v x, parseU64 m.vectorRef = some v →
    s.getVector v = some x → s'.getVector v = some x

/-- Every stored vector of a live row belongs to a live row of the tenant visible under
the filter, and to no tombstoned row other than those of `spared`. -/
def VectorsScoped (db : Db F) (s : LocalStore F) (tenant : String) (ns : NamespaceFilter)
    (spared : List String) : Prop :=
  ∀ m ∈ db.memoryItem.rows, m.tombstone = false → ∀ v x, parseU64 m.vectorRef = some v →
    s.getVector v = some x →
      ListedRef db tenant ns v ∧ ∀ t ∈ db.listTombstoned, ¬ Purged spared t v

omit [FloatArith F] in
/-- The vectors of live rows survive deletions that leave them out. -/
theorem keepsLiveVectors_iff {db : Db F} {s s' : LocalStore F} {gone : Nat → Prop} {exact : Prop}
    (deletes : LocalStore.Deletes gone exact s s') (known : exact) :
    KeepsLiveVectors db s s' ↔
      ∀ m ∈ db.memoryItem.rows, m.tombstone = false → ∀ v x, parseU64 m.vectorRef = some v →
        s.getVector v = some x → ¬ gone v := by
  constructor
  · intro keeps m mem live v x parsed stored lost
    have kept := keeps m mem live v x parsed stored
    rw [deletes.deletes known v lost] at kept
    cases kept
  · intro safe m mem live v x parsed stored
    rw [deletes.keeps v (safe m mem live v x parsed stored)]
    exact stored

/-- An environment in which the merge log, and nothing else, cannot be read. -/
def Env.unreadableMergeLog : Env F :=
  { Env.quiet with
    persistFault := fun _ op =>
      match op with
      | .listMergeLog => some (.poisoned, 0)
      | _ => none }

section Scoped

variable {tenant : String} {ns : NamespaceFilter} {out : World F → LocalStore F}
  (reconciled : ∀ w, Reconciled tenant ns w (out w))

include reconciled

omit [FloatArith F] in
/-- Whatever fails, exactly the scoped populations are safe; a tombstoned row that
shares a vector with a live one is a danger even when it is a merge source, since the
merge log may be unreadable. -/
theorem keepsLiveVectors_of_reconciled (db : Db F) (s : LocalStore F) :
    (∀ w, w.db = db → w.store = s → KeepsLiveVectors db s (out w)) ↔
      (isValidNamespace ns.namespace = true → VectorsScoped db s tenant ns []) := by
  constructor
  · intro keeps valid m mem live v x parsed stored
    cases reconciled (World.fresh .unreadableMergeLog db s) with
    | stopped _ why =>
        obtain ⟨t, fault⟩ := why valid
        exact absurd rfl fault
    | cleaned _ sources spared deletes =>
        have kept := (keepsLiveVectors_iff deletes ⟨fun _ _ => rfl, fun _ => rfl⟩).mp
          (keeps (World.fresh .unreadableMergeLog db s) rfl rfl) m mem live v x parsed stored
        have empty : sources = [] := spared.unread fun t h => by cases h
        subst empty
        rw [not_or, not_not, not_exists] at kept
        exact ⟨kept.1, fun t dead purged => kept.2 t ⟨dead, purged⟩⟩
  · rintro confined w rfl rfl
    cases reconciled w with
    | stopped same _ => exact fun m _ _ v x _ stored => same ▸ stored
    | cleaned valid sources spared deletes =>
        intro m mem live v x parsed stored
        obtain ⟨listed, alone⟩ := confined valid m mem live v x parsed stored
        rw [deletes.keeps v, stored]
        rintro (unlisted | ⟨t, dead, purged⟩)
        · exact unlisted listed
        · exact alone t dead ⟨by simp, purged.2⟩

omit [FloatArith F] in
/-- When nothing fails, a merge source may share its vector with a live row. -/
theorem keepsLiveVectors_of_noFaults {w : World F} (quiet : w.env.NoFaults) :
    KeepsLiveVectors w.db w.store (out w) ↔
      (isValidNamespace ns.namespace = true →
        VectorsScoped w.db w.store tenant ns w.db.mergeSourceIds) := by
  cases reconciled w with
  | stopped same why =>
      refine ⟨fun _ valid => ?_, fun _ m _ _ v x _ stored => same ▸ stored⟩
      obtain ⟨t, fault⟩ := why valid
      exact absurd (quiet.persist t _) fault
  | cleaned valid sources spared deletes =>
      have read := spared.read fun t => quiet.persist t _
      subst read
      rw [keepsLiveVectors_iff deletes ⟨quiet.store, fun t => quiet.persist t _⟩]
      constructor
      · intro kept _ m mem live v x parsed stored
        have safe := kept m mem live v x parsed stored
        rw [not_or, not_not, not_exists] at safe
        exact ⟨safe.1, fun t dead purged => safe.2 t ⟨dead, purged⟩⟩
      · intro confined m mem live v x parsed stored
        obtain ⟨listed, alone⟩ := confined valid m mem live v x parsed stored
        rintro (unlisted | ⟨t, dead, purged⟩)
        · exact unlisted listed
        · exact alone t dead purged

end Scoped

/-- The reconcile step of a run and `reconcile()` keep the vector of every live row
exactly when each stored vector of a live row is also referred to by a live row of the
engine's tenant that the filter shows, and by no tombstoned row that may be purged. -/
theorem reconcile_keeps_live_vectors_iff (eng : MemoryEngine) («at» : Nat)
    (failures : List ConsolidationFailure) (ns : NamespaceFilter) (db : Db F) (s : LocalStore F) :
    ((∀ w : World F, w.db = db → w.store = s → KeepsLiveVectors db s
        (run (consolidateReconcile eng «at» failures ns) w).2.store) ↔
      (isValidNamespace ns.namespace = true → VectorsScoped db s eng.tenant ns [])) ∧
    ((∀ w : World F, w.db = db → w.store = s →
        KeepsLiveVectors db s (run (reconcile eng) w).2.store) ↔
      VectorsScoped db s eng.tenant .default []) ∧
    (∀ w : World F, w.db = db → w.store = s → w.env.NoFaults →
      (KeepsLiveVectors db s (run (consolidateReconcile eng «at» failures ns) w).2.store ↔
        (isValidNamespace ns.namespace = true →
          VectorsScoped db s eng.tenant ns db.mergeSourceIds)) ∧
      (KeepsLiveVectors db s (run (reconcile eng) w).2.store ↔
        VectorsScoped db s eng.tenant .default db.mergeSourceIds)) := by
  have step := reconciled_consolidateReconcile (F := F) eng «at» failures ns
  have whole := reconciled_reconcile (F := F) eng
  have unscoped : isValidNamespace NamespaceFilter.default.namespace = true := rfl
  refine ⟨keepsLiveVectors_of_reconciled step db s, ?_, ?_⟩
  · rw [keepsLiveVectors_of_reconciled whole db s]
    exact ⟨fun h => h unscoped, fun h _ => h⟩
  · rintro w rfl rfl quiet
    refine ⟨keepsLiveVectors_of_noFaults step quiet, ?_⟩
    rw [keepsLiveVectors_of_noFaults whole quiet]
    exact ⟨fun h => h unscoped, fun h _ => h⟩

/-! ### A second tenant -/

/-- Tenant `b` owns the only row. -/
def foreignRow : MemoryItem Fixed :=
  { MemoryItem.newTurnSkeleton "m" "ix" 0 "s" "b" .episodic "c" 1 with vectorRef := "7" }

def foreignWorld : World Fixed :=
  World.fresh .quiet { (Db.empty : Db Fixed) with memoryItem := Table.empty.upsert foreignRow }
    { (LocalStore.empty 1 : LocalStore Fixed) with vecTree := Table.empty.upsert (7, [⟨1⟩]) }

/-- `reconcile()` for tenant `a` deletes the vector of tenant `b`'s live row. -/
theorem reconcile_deletes_foreign_vector :
    ¬ KeepsLiveVectors foreignWorld.db foreignWorld.store
      (run (reconcile (plainEngine "a")) foreignWorld).2.store := by
  intro keeps
  have kept := keeps foreignRow (by simp [foreignWorld, World.fresh, Table.upsert]) rfl 7 [⟨1⟩]
    (by decide) (by decide)
  revert kept
  decide

end FusionMemory
