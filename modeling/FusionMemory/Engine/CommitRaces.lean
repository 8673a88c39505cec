import FusionMemory.Engine.Jobs
import FusionMemory.Engine.ReconcileVectors

/-!
Whether commits keep their vectors while reconciles run.

A commit inserts the vector of a turn before it writes the row. A reconcile reads the rows,
lists the vectors, and deletes each vector that no row referred to. `commits_keep_vectors`
says which orders of these four steps are safe.
-/

namespace FusionMemory

open Lib

variable {F : Type} [FloatArith F] [JsonText F]

/-! ### Events -/

/-- The job was handed the ULID `id`. -/
def Handed (h : List (EngineEvent F)) (id : String) : Prop :=
  ∃ t, (⟨t, .newUlid, id⟩ : EngineEvent F) ∈ h

/-- A turn stored the row `item` at time `t`. -/
def TurnStored (h : List (EngineEvent F)) (item : MemoryItem F) (t : Nat) : Prop :=
  ∃ op payload «at»,
    (⟨t, .persist (.putMemoryWithWop item op payload «at»), .ok ()⟩ : EngineEvent F) ∈ h

/-- The vector of `v` was deleted at time `t`. -/
def VectorGone (h : List (EngineEvent F)) (v t : Nat) : Prop :=
  (⟨t, .store (.deleteVector v), .ok ()⟩ : EngineEvent F) ∈ h

/-- The ULIDs handed out since `w` have vector ids of their own, and no row of `w` has one of
these ULIDs or refers to one of these vectors. -/
def FreshIds (w w' : World F) : Prop :=
  ∀ ids, w'.issued = ids ++ w.issued → (ids.map vectorIdFromUlid).Nodup ∧
    ∀ id ∈ ids, ∀ m ∈ w.db.memoryItem.rows,
      m.id ≠ id ∧ parseU64 m.vectorRef ≠ some (vectorIdFromUlid id)

/-- If in this step a reconcile deletes the vector of a turn whose row is stored, and succeeds,
the row was stored before the reconcile read the rows, and under its tenant. -/
def CleansInTime (pool : Jobs F) (i : Nat) : Prop :=
  ∀ h v next, pool.threads[i]? = some ⟨h, .request (.store (.deleteVector v)) next⟩ →
    (pool.world.execStore (.deleteVector v)).1 = .ok () →
    ∀ (item : MemoryItem F) t, TurnStored pool.events item t → vectorIdFromUlid item.id = v →
      ∀ t' tenant ns rows,
        (⟨t', .persist (.listAllByTenantScoped tenant ns), .ok rows⟩ : EngineEvent F) ∈ h →
          t < t' ∧ item.tenant = tenant

/-- If in this step a turn stores its row, and succeeds, its vector was not deleted since the
turn inserted it. -/
def StoresInTime (pool : Jobs F) (i : Nat) : Prop :=
  ∀ h item op payload «at» next,
    pool.threads[i]? = some ⟨h, .request (.persist (.putMemoryWithWop item op payload «at»)) next⟩ →
    (pool.world.execPersist (.putMemoryWithWop item op payload «at»)).1 = .ok () →
    ∀ t vec,
      (⟨t, .store (.insertVector (vectorIdFromUlid item.id) vec), .ok ()⟩ : EngineEvent F) ∈ h →
        ∀ s, VectorGone pool.events (vectorIdFromUlid item.id) s → s < t

/-- Commits, by session and interaction, and a number of reconciles. -/
def commitsAndReconciles (commits : List (String × Interaction)) (reconciles : Nat) : List Job :=
  commits.map (fun c => .commit c.1 c.2) ++ List.replicate reconciles .reconcile

/-- In every run of the commits and reconciles whose steps meet `C`, once all have finished,
each turn that a commit reports as committed has a live vector. -/
def CommitsKeepVectors (C : Jobs F → Nat → Prop) (eng : MemoryEngine) (w : World F)
    (commits : List (String × Interaction)) (reconciles : Nat) : Prop :=
  ∀ pool, Pool.Reaches (machine F) C
      (Jobs.start eng w (commitsAndReconciles commits reconciles)) pool →
    (pool.threads.all fun thread => thread.program.ended) = true →
    ∀ (i : Nat) thread outcome, pool.threads[i]? = some thread →
      thread.program = .done outcome → ∀ id ∈ outcome.memoryIds,
        (pool.world.store.getVector (vectorIdFromUlid id)).isSome

/-! ### What a job may ask for -/

/-- The job stored a row under `id`. -/
def StoredIn (h : List (EngineEvent F)) (id : String) : Prop :=
  ∃ (item : MemoryItem F) (t : Nat), item.id = id ∧ TurnStored h item t

/-- The job was handed `id` and has not stored a row under it since. -/
def Working (h : List (EngineEvent F)) (id : String) : Prop :=
  ∃ t before, (⟨t, .newUlid, id⟩ : EngineEvent F) :: before <:+ h ∧
    (StoredIn h id → StoredIn before id)

/-- The row is live and refers to the vector of its own id. -/
def RefersToOwn (m : MemoryItem F) : Prop :=
  m.tombstone = false ∧ m.vectorRef = toString (vectorIdFromUlid m.id)

/-- A turn stores its row after its vector, and writes back only its own row; it takes back
the vector of a row that it could not store. A reconcile of `tenant` deletes the vectors that
no row it read refers to, and those of tombstoned rows, with these rows. -/
def Orderly (tenant : String) (h : List (EngineEvent F)) : Request F → Prop
  | .persist (.putMemoryWithWop item _ _ _) => Working h item.id ∧ RefersToOwn item ∧
      ∃ t vec, (⟨t, .store (.insertVector (vectorIdFromUlid item.id) vec), .ok ()⟩ :
        EngineEvent F) ∈ h
  | .persist (.putMemory item) => ∃ t id m, Handed h id ∧
      (⟨t, .persist (.getMemory id), .ok (some m)⟩ : EngineEvent F) ∈ h ∧ item.id = m.id ∧
        item.vectorRef = m.vectorRef ∧ item.tombstone = m.tombstone ∧ item.tenant = m.tenant
  | .persist (.physicalDelete id) => ∃ t tombs,
      (⟨t, .persist .listTombstoned, .ok tombs⟩ : EngineEvent F) ∈ h ∧ ∃ m ∈ tombs, m.id = id
  | .persist (.tombstoneMemory _) | .persist (.untombstoneMemory _)
  | .persist (.touchAccessBatch _ _) => False
  | .store (.deleteVector v) => (∃ id, Working h id ∧ vectorIdFromUlid id = v) ∨
      (∃ t rows, (⟨t, .persist (.listAllByTenantScoped tenant .default), .ok rows⟩ :
        EngineEvent F) ∈ h ∧ v ∉ vecRefs rows) ∨
      ∃ t tombs, (⟨t, .persist .listTombstoned, .ok tombs⟩ : EngineEvent F) ∈ h ∧
        v ∈ vecRefs tombs
  | _ => True

/-- What a commit has done when it returns. -/
def Reported (h : List (EngineEvent F)) (ids : List String) : Prop := ∀ id ∈ ids, StoredIn h id

section Protocol

variable {tenant : String} {h : List (EngineEvent F)}

omit [FloatArith F] [JsonText F] in
theorem StoredIn.cons {id : String} (stored : StoredIn h id) (e : EngineEvent F) :
    StoredIn (e :: h) id := by
  obtain ⟨item, t, same, op, payload, «at», mem⟩ := stored
  exact ⟨item, t, same, op, payload, «at», List.mem_cons_of_mem _ mem⟩

omit [FloatArith F] [JsonText F] in
theorem Reported.cons {ids : List String} (reported : Reported h ids) (e : EngineEvent F) :
    Reported (e :: h) ids := fun id mem => (reported id mem).cons e

omit [FloatArith F] [JsonText F] in
/-- An event that stores no row leaves the turn in progress. -/
theorem Working.cons {id : String} (working : Working h id) {e : EngineEvent F}
    (other : ∀ (item : MemoryItem F) t, ¬ TurnStored [e] item t) : Working (e :: h) id := by
  obtain ⟨t, before, suffix, unstored⟩ := working
  refine ⟨t, before, suffix.trans (List.suffix_cons e h), fun stored => unstored ?_⟩
  obtain ⟨item, s, same, op, payload, «at», mem⟩ := stored
  rcases List.mem_cons.mp mem with now | old
  · exact absurd ⟨op, payload, «at», List.mem_singleton.mpr now⟩ (other item s)
  · exact ⟨item, s, same, op, payload, «at», old⟩

omit [FloatArith F] [JsonText F] in
theorem Working.handed {id : String} (working : Working h id) : Handed h id := by
  obtain ⟨t, before, suffix, -⟩ := working
  exact ⟨t, suffix.subset List.mem_cons_self⟩

omit [FloatArith F] [JsonText F] in
theorem extractAndAttach_orderly (ids : List String) (eng : MemoryEngine) {id : String}
    (content : String) (handed : Handed h id) (reported : Reported h ids) :
    Program.Obeys (Orderly tenant) (fun h _ => Reported h ids) h
      (extractAndAttach eng id content) := by
  unfold extractAndAttach
  split_ifs
  · refine ⟨trivial, fun t extracted => ⟨trivial, fun t₁ found => ?_⟩⟩
    have kept := (reported.cons ⟨t, .extract content, extracted⟩).cons
      ⟨t₁, .persist (.getMemory id), found⟩
    rcases found with e | (_ | item)
    · exact kept
    · exact kept
    · obtain ⟨t₀, mem⟩ := handed
      refine ⟨⟨t₁, id, item, ⟨t₀, ?_⟩, List.mem_cons_self, rfl, rfl, rfl, rfl⟩, fun t₂ reply => ?_⟩
      · exact List.mem_cons_of_mem _ (List.mem_cons_of_mem _ mem)
      · exact kept.cons _
  · exact reported

theorem commitTurn_orderly (eng : MemoryEngine) (sessionId : String) (interaction : Interaction)
    (now : Nat) (turn : Turn) {acc : CommitOutcome} (reported : Reported h acc.memoryIds) :
    Program.Obeys (Orderly tenant)
      (fun h => Program.Ends (fun acc => Reported h acc.memoryIds) fun _ => True) h
      (commitTurn eng sessionId interaction now acc turn) := by
  rw [commitTurn_eq]
  refine ⟨trivial, fun t₁ id => ⟨trivial, fun t₂ embedded => ?_⟩⟩
  have working : Working (⟨t₁, .newUlid, id⟩ :: h) id := by
    refine ⟨t₁, h, List.suffix_refl _, ?_⟩
    rintro ⟨item, s, same, op, payload, «at», mem⟩
    rcases List.mem_cons.mp mem with now | old
    · cases now
    · exact ⟨item, s, same, op, payload, «at», old⟩
  have working := working.cons (e := ⟨t₂, .embed (committedContent eng turn), embedded⟩) (by
    rintro item s ⟨op, payload, «at», mem⟩
    cases List.mem_singleton.mp mem)
  have reported := (reported.cons ⟨t₁, .newUlid, id⟩).cons
    ⟨t₂, .embed (committedContent eng turn), embedded⟩
  cases embedded with
  | error e => exact reported
  | ok vec =>
      refine ⟨trivial, fun t₃ inserted => ?_⟩
      have working := working.cons
        (e := ⟨t₃, .store (.insertVector (vectorIdFromUlid id) vec), inserted⟩) (by
          rintro item s ⟨op, payload, «at», mem⟩
          cases List.mem_singleton.mp mem)
      have reported := reported.cons
        ⟨t₃, .store (.insertVector (vectorIdFromUlid id) vec), inserted⟩
      cases inserted with
      | error e => exact reported
      | ok _ =>
          refine ⟨⟨working, ⟨rfl, rfl⟩, t₃, vec, List.mem_cons_self⟩, fun t₄ stored => ?_⟩
          cases stored with
          | error e =>
              refine ⟨.inl ⟨id, working.cons ?_, rfl⟩, fun t₅ _ => (reported.cons _).cons _⟩
              rintro item s ⟨op, payload, «at», mem⟩
              cases List.mem_singleton.mp mem
          | ok _ =>
              change Program.Obeys _ _ _ (extractAndAttach eng id _ >>= fun _ => _)
              refine Program.Obeys.bind (R := fun h _ => Reported h (acc.memoryIds ++ [id])) ?_
                fun h _ all => all
              refine (extractAndAttach_orderly (acc.memoryIds ++ [id]) eng _ ?_ ?_).mono
                (fun _ _ allowed => allowed) fun h result all => ?_
              · obtain ⟨t, mem⟩ := working.handed
                exact ⟨t, List.mem_cons_of_mem _ mem⟩
              · intro i mem
                rcases List.mem_append.mp mem with old | new
                · exact (reported.cons _) i old
                · rw [List.mem_singleton.mp new]
                  exact ⟨_, t₄, rfl, _, _, _, List.mem_cons_self⟩
              · cases result with
                | ok _ => exact all
                | error e => trivial

omit [FloatArith F] [JsonText F] in
/-- The scan of the rows collects their references. -/
theorem checkRefs_orderly («at» : Nat) {I : List (EngineEvent F) → Prop}
    (stable : ∀ h e, I h → I (e :: h)) (rows : List (MemoryItem F)) :
    ∀ {h : List (EngineEvent F)} (refs : List Nat), I h →
      Program.Obeys (Orderly tenant)
        (fun h => Program.Ends (fun refs' => I h ∧ refs' = refs ++ vecRefs rows) fun _ => True) h
        (rows.foldlM (checkRef «at») refs) := by
  induction rows with
  | nil => exact fun refs kept => ⟨kept, (List.append_nil refs).symm⟩
  | cons m rest ih =>
      intro h refs kept
      rw [List.foldlM_cons]
      refine Program.Obeys.bind (R := fun h refs' => I h ∧
        refs' = refs ++ (parseU64 m.vectorRef).toList) ?_ fun h refs' known => ?_
      · unfold checkRef
        cases parseU64 m.vectorRef with
        | none => exact ⟨trivial, fun _ _ => ⟨stable _ _ kept, (List.append_nil refs).symm⟩⟩
        | some vr =>
            refine ⟨trivial, fun t found => ?_⟩
            have kept := stable _ ⟨t, .store (.getVector vr), found⟩ kept
            rcases found with e | (_ | vec)
            · exact ⟨trivial, fun _ _ => ⟨stable _ _ kept, rfl⟩⟩
            · exact ⟨trivial, fun _ _ => ⟨stable _ _ kept, rfl⟩⟩
            · exact ⟨kept, rfl⟩
      · obtain ⟨kept, rfl⟩ := known
        refine (ih _ kept).mono (fun _ _ allowed => allowed) fun h result ends => ?_
        cases result with
        | error e => trivial
        | ok refs'' =>
            obtain ⟨kept, same⟩ := ends
            refine ⟨kept, same.trans ?_⟩
            rw [List.append_assoc]
            cases parsed : parseU64 m.vectorRef <;> simp [vecRefs, parsed]

omit [FloatArith F] [JsonText F] in
theorem cleanOrphans_orderly («at» : Nat) {t : Nat} {rows : List (MemoryItem F)}
    (listed : (⟨t, .persist (.listAllByTenantScoped tenant .default), .ok rows⟩ :
      EngineEvent F) ∈ h) :
    Program.Obeys (Orderly tenant) (fun _ _ => True) h (cleanOrphans «at» (vecRefs rows)) := by
  let Cleans : Request F → Prop := fun r => (∀ h, Orderly tenant h r) ∨
    ∃ v, r = .store (.deleteVector v) ∧ v ∉ vecRefs rows
  have only : ∀ vid, Program.Only Cleans (cleanOrphan «at» (vecRefs rows) () vid) := by
    intro vid
    unfold cleanOrphan
    split_ifs with known
    · trivial
    · refine Program.Only.bind (only_persist (.inl fun _ => trivial)) fun _ => ?_
      refine Program.Only.bind (only_store (.inr ⟨vid, rfl, fun mem => ?_⟩)) fun _ => trivial
      exact known (List.contains_iff_mem.mpr mem)
  refine ⟨trivial, fun t₁ found => ?_⟩
  refine (Program.Obeys.ofOnly (I := fun h =>
      (⟨t, .persist (.listAllByTenantScoped tenant .default), .ok rows⟩ : EngineEvent F) ∈ h)
    (Program.Only.foldlM _ (fun vid _ _ => only vid) _) (fun _ _ mem => List.mem_cons_of_mem _ mem)
    (fun h r listed allowed => ?_) (List.mem_cons_of_mem _ listed)).mono
      (fun _ _ allowed => allowed) fun _ _ _ => trivial
  rcases allowed with harmless | ⟨v, rfl, outside⟩
  · exact harmless h
  · exact .inr (.inl ⟨t, rows, listed, outside⟩)

omit [FloatArith F] [JsonText F] in
theorem purgeTombstones_orderly («at» : Nat) (failures : List ConsolidationFailure) :
    Program.Obeys (Orderly tenant) (fun _ _ => True) h
      (purgeTombstones (F := F) «at» failures) := by
  refine ⟨trivial, fun t₁ logged => ?_⟩
  refine obeys_persistOrFail trivial (fun _ _ => trivial) fun t tombs => ?_
  let Purges : Request F → Prop := fun r => (∀ h, Orderly tenant h r) ∨ ∃ m ∈ tombs,
    (∃ v, r = .store (.deleteVector v) ∧ parseU64 m.vectorRef = some v) ∨
      r = .persist (.physicalDelete m.id)
  have only : ∀ sources, ∀ m ∈ tombs, ∀ acc,
      Program.Only Purges (purgeTombstone «at» sources acc m) := by
    intro sources m listed acc
    unfold purgeTombstone
    split_ifs
    · trivial
    · cases parsed : parseU64 m.vectorRef with
      | none => exact Program.Only.bind (only_persist (.inl fun _ => trivial)) fun _ => trivial
      | some v =>
          refine Program.Only.bind (only_store (.inr ⟨m, listed, .inl ⟨v, rfl, parsed⟩⟩))
            fun gone => ?_
          cases gone with
          | error e => trivial
          | ok _ =>
              refine Program.Only.bind (only_persist (.inr ⟨m, listed, .inr rfl⟩)) fun reply => ?_
              cases reply <;> trivial
  refine (Program.Obeys.ofOnly
    (I := fun h => (⟨t, .persist .listTombstoned, .ok tombs⟩ : EngineEvent F) ∈ h)
    (Program.Only.foldlM tombs (only _) _) (fun _ _ mem => List.mem_cons_of_mem _ mem)
    (fun h r listed allowed => ?_) List.mem_cons_self).mono (fun _ _ allowed => allowed)
      fun _ _ _ => trivial
  rcases allowed with harmless | ⟨m, mem, ⟨v, rfl, parsed⟩ | rfl⟩
  · exact harmless h
  · exact .inr (.inr ⟨t, tombs, listed, List.mem_filterMap.mpr ⟨m, mem, parsed⟩⟩)
  · exact ⟨t, tombs, listed, m, mem, rfl⟩

omit [FloatArith F] [JsonText F] in
theorem consolidateReconcile_orderly (eng : MemoryEngine) («at» : Nat)
    (failures : List ConsolidationFailure) :
    Program.Obeys (Orderly eng.tenant) (fun _ _ => True) h
      (consolidateReconcile (F := F) eng «at» failures .default) := by
  unfold consolidateReconcile
  refine obeys_persistOrFail trivial (fun _ _ => trivial) fun t rows => ?_
  let Listed : List (EngineEvent F) → Prop := fun h =>
    (⟨t, .persist (.listAllByTenantScoped eng.tenant .default), .ok rows⟩ : EngineEvent F) ∈ h
  have scanned : ∀ {h}, Listed h → Program.Obeys (Orderly eng.tenant)
      (fun h => Program.Ends (fun refs => Listed h ∧ refs = [] ++ vecRefs rows) fun _ => True) h
      (rows.foldlM (checkRef «at») []) := fun listed =>
    checkRefs_orderly «at» (I := Listed) (fun _ _ mem => List.mem_cons_of_mem _ mem) rows [] listed
  refine Program.Obeys.bind (R := fun h refs => Listed h ∧ refs = [] ++ vecRefs rows)
    ((scanned List.mem_cons_self).mono (fun _ _ allowed => allowed) fun h result ends => ?_)
    fun h refs known => ?_
  · cases result <;> exact ends
  obtain ⟨listed, rfl⟩ := known
  exact obeys_bind_keeps (cleanOrphans_orderly «at» listed) fun h _ _ =>
    purgeTombstones_orderly «at» failures

/-- A commit reports the turns that it stored; a reconcile reports none. -/
theorem commitsAndReconciles_orderly (eng : MemoryEngine) (commits : List (String × Interaction))
    (reconciles : Nat) : ∀ job ∈ commitsAndReconciles commits reconciles,
      Program.Obeys (Orderly eng.tenant)
        (fun h => Program.Ends (fun outcome => Reported h outcome.memoryIds) fun _ => True) []
        (job.program (F := F) eng) := by
  intro job mem
  rcases List.mem_append.mp mem with commit | reconcile
  · obtain ⟨⟨sessionId, interaction⟩, -, rfl⟩ := List.mem_map.mp commit
    refine ⟨trivial, fun t now => ?_⟩
    change Program.Obeys _ _ _ (interaction.turns.foldlM _ _ >>= fun outcome => _)
    refine Program.Obeys.bind (R := fun h outcome => Reported h outcome.memoryIds)
      ((Program.Obeys.foldlM (I := fun h acc => Reported h acc.memoryIds) (E := fun _ _ => True) _
        (fun turn _ h acc reported => commitTurn_orderly eng sessionId interaction now turn reported)
        (fun _ mem => (by cases mem))).mono (fun _ _ allowed => allowed)
          fun h result ends => by cases result <;> exact ends) fun h outcome reported => ?_
    exact ⟨trivial, fun _ _ => reported.cons _⟩
  · rw [List.eq_of_mem_replicate reconcile]
    have reconciles : Program.Obeys (Orderly eng.tenant) (fun _ _ => True) []
        (FusionMemory.reconcile (F := F) eng) := by
      refine ⟨trivial, fun t now => ?_⟩
      change Program.Obeys _ _ _ (consolidateReconcile eng now [] .default >>= fun _ => _)
      exact obeys_bind_keeps (consolidateReconcile_orderly eng now []) fun _ _ _ => trivial
    refine Program.Obeys.bind (R := fun _ _ => True) (reconciles.mono (fun _ _ allowed => allowed)
      fun h result _ => by cases result <;> trivial) fun h _ _ => ?_
    exact fun _ mem => (by cases mem)

end Protocol

/-! ### Who works on which memory -/

/-- The ULIDs `ids` were handed out, each to one job, and a job stores rows only under ULIDs
that it was handed before. -/
structure Owned (w : World F) (ids : List String) (pool : Jobs F) : Prop where
  issued : pool.world.issued = ids ++ w.issued
  handed : ∀ (i : Nat) thread id, pool.threads[i]? = some thread → Handed thread.history id →
    id ∈ ids
  once : ∀ (i j : Nat) thread thread' id, pool.threads[i]? = some thread →
    pool.threads[j]? = some thread' → Handed thread.history id → Handed thread'.history id → i = j
  unstored : ∀ (i : Nat) thread t id before, pool.threads[i]? = some thread →
    (⟨t, .newUlid, id⟩ : EngineEvent F) :: before <:+ thread.history → ¬ StoredIn before id
  own : ∀ (i : Nat) thread id, pool.threads[i]? = some thread → StoredIn thread.history id →
    Handed thread.history id

omit [JsonText F] in
/-- What a step hands out was not handed out before. -/
theorem handed_exec (w : World F) (r : Request F) (t : Nat) : ∃ new,
    (w.exec r).2.issued = new ++ w.issued ∧ (∀ id ∈ new, id ∉ w.issued) ∧
      ∀ h id, Handed ((⟨t, r, (w.exec r).1⟩ : EngineEvent F) :: h) id ↔ id ∈ new ∨ Handed h id := by
  have nothing : (w.exec r).2.issued = w.issued → r ≠ .newUlid → ∃ new,
      (w.exec r).2.issued = new ++ w.issued ∧ (∀ id ∈ new, id ∉ w.issued) ∧ ∀ h id,
        Handed ((⟨t, r, (w.exec r).1⟩ : EngineEvent F) :: h) id ↔ id ∈ new ∨ Handed h id := by
    intro same other
    refine ⟨[], same, fun _ mem => (by cases mem), fun h id => ⟨?_, ?_⟩⟩
    · rintro ⟨s, mem⟩
      rcases List.mem_cons.mp mem with now | old
      · injection now with _ request
        exact absurd request.symm other
      · exact .inr ⟨s, old⟩
    · rintro (none | ⟨s, mem⟩)
      · cases none
      · exact ⟨s, List.mem_cons_of_mem _ mem⟩
  cases r with
  | newUlid =>
      refine ⟨[(w.env.ulid w.tick w.taken).1], rfl, fun id mem => ?_, fun h id => ⟨?_, ?_⟩⟩
      · obtain rfl := List.mem_singleton.mp mem
        exact fun old => (w.env.ulid w.tick w.taken).2.1 (List.mem_append_left _ old)
      · rintro ⟨s, mem⟩
        rcases List.mem_cons.mp mem with now | old
        · cases now
          exact .inl (List.mem_singleton.mpr rfl)
        · exact .inr ⟨s, old⟩
      · rintro (new | ⟨s, mem⟩)
        · obtain rfl := List.mem_singleton.mp new
          exact ⟨t, List.mem_cons_self⟩
        · exact ⟨s, List.mem_cons_of_mem _ mem⟩
  | acquire lock => cases lock <;> exact nothing rfl (fun h => by cases h)
  | release lock => cases lock <;> exact nothing rfl (fun h => by cases h)
  | _ => exact nothing rfl (fun h => by cases h)

section Ownership

variable {w : World F} {ids : List String} {pool : Jobs F} {i : Nat} {h : List (EngineEvent F)}
  {r : Request F} {next : r.Reply → EngineM F CommitOutcome} {tenant : String}

omit [JsonText F] in
theorem Owned.advance (owned : Owned w ids pool)
    (found : pool.threads[i]? = some ⟨h, .request r next⟩) (orderly : Orderly tenant h r) :
    ∃ ids', Owned w ids' (pool.advance (machine F) i h r next) := by
  obtain ⟨new, issued, unissued, handed⟩ := handed_exec pool.world r pool.time
  have isNew : ∀ id ∈ new, id ∉ ids := fun id mem old =>
    unissued id mem (owned.issued ▸ List.mem_append_left _ old)
  refine ⟨new ++ ids, ?_, ?_, ?_, ?_, ?_⟩
  · refine issued.trans ?_
    rw [owned.issued, List.append_assoc]
  · intro j thread id member got
    rcases Pool.advance_threads_cases found member with ⟨-, old⟩ | ⟨-, rfl⟩
    · exact List.mem_append_right _ (owned.handed j thread id old got)
    · rcases (handed h id).mp got with fresh | got
      · exact List.mem_append_left _ fresh
      · exact List.mem_append_right _ (owned.handed i _ id found got)
  · intro j k thread thread' id member member' got got'
    rcases Pool.advance_threads_cases found member with ⟨-, old⟩ | ⟨rfl, rfl⟩
    · rcases Pool.advance_threads_cases found member' with ⟨-, old'⟩ | ⟨rfl, rfl⟩
      · exact owned.once j k thread thread' id old old' got got'
      · rcases (handed h id).mp got' with fresh | got'
        · exact absurd (owned.handed j thread id old got) (isNew id fresh)
        · exact owned.once j k thread _ id old found got got'
    · rcases Pool.advance_threads_cases found member' with ⟨-, old'⟩ | ⟨rfl, rfl⟩
      · rcases (handed h id).mp got with fresh | got
        · exact absurd (owned.handed k thread' id old' got') (isNew id fresh)
        · exact owned.once j k _ thread' id found old' got got'
      · rfl
  · intro j thread t id before member suffix
    rcases Pool.advance_threads_cases found member with ⟨-, old⟩ | ⟨-, rfl⟩
    · exact owned.unstored j thread t id before old suffix
    · rcases List.suffix_cons_iff.mp suffix with whole | part
      · injection whole with now same
        subst same
        intro stored
        have got : Handed ((⟨pool.time, r, (pool.world.exec r).1⟩ : EngineEvent F) :: []) id :=
          ⟨t, List.mem_singleton.mpr now⟩
        rcases (handed [] id).mp got with fresh | ⟨_, none⟩
        · exact isNew id fresh (owned.handed i _ id found (owned.own i _ id found stored))
        · cases none
      · exact owned.unstored i _ t id before found part
  · intro j thread id member stored
    rcases Pool.advance_threads_cases found member with ⟨-, old⟩ | ⟨-, rfl⟩
    · exact owned.own j thread id old stored
    · refine (handed h id).mpr (.inr ?_)
      obtain ⟨item, t, rfl, op, payload, «at», mem⟩ := stored
      rcases List.mem_cons.mp mem with now | old
      · injection now with _ request
        subst request
        exact orderly.1.handed
      · exact owned.own i _ _ found ⟨item, t, rfl, op, payload, «at», old⟩

omit [FloatArith F] [JsonText F] in
theorem TurnStored.thread {item : MemoryItem F} {t : Nat} (stored : TurnStored pool.events item t) :
    ∃ (j : Nat) (thread : _), pool.threads[j]? = some thread ∧ StoredIn thread.history item.id := by
  obtain ⟨op, payload, «at», mem⟩ := stored
  obtain ⟨j, thread, member, happened⟩ := Pool.mem_events.mp mem
  exact ⟨j, thread, member, item, t, rfl, op, payload, «at», happened⟩

omit [FloatArith F] [JsonText F] in
theorem Owned.stored (owned : Owned w ids pool) {item : MemoryItem F} {t : Nat}
    (stored : TurnStored pool.events item t) : item.id ∈ ids := by
  obtain ⟨j, thread, member, here⟩ := stored.thread
  exact owned.handed j thread _ member (owned.own j thread _ member here)

omit [FloatArith F] [JsonText F] in
/-- While a job works on a memory, no job has stored its row. -/
theorem Owned.working (owned : Owned w ids pool)
    (found : pool.threads[i]? = some ⟨h, .request r next⟩) {item : MemoryItem F} {t : Nat}
    (stored : TurnStored pool.events item t) : ¬ Working h item.id := by
  intro working
  obtain ⟨j, thread, member, here⟩ := stored.thread
  obtain rfl := owned.once j i thread _ _ member found (owned.own j thread _ member here)
    working.handed
  rw [found] at member
  cases member
  obtain ⟨s, before, suffix, unstored⟩ := working
  exact owned.unstored _ _ s _ before found suffix (unstored here)

end Ownership

/-! ### Rows -/

/-- The row is live, refers to the vector of its own id, and was stored by a turn of its
tenant. -/
def TurnRow (pool : Jobs F) (m : MemoryItem F) : Prop :=
  RefersToOwn m ∧ ∃ item t, TurnStored pool.events item t ∧ item.id = m.id ∧ m.tenant = item.tenant

/-- The rows are those of `w` and those of turns, and so is every row that a job has read. A
stored row is there, and every later list of the rows of its tenant has it. -/
structure RowsHold (w : World F) (pool : Jobs F) : Prop where
  past : ∀ e ∈ pool.events, e.time < pool.time
  rows : ∀ m ∈ pool.world.db.memoryItem.rows, m ∈ w.db.memoryItem.rows ∨ TurnRow pool m
  read : ∀ t id m, (⟨t, .persist (.getMemory id), .ok (some m)⟩ : EngineEvent F) ∈ pool.events →
    m.id = id ∧ (m ∈ w.db.memoryItem.rows ∨ TurnRow pool m)
  tombs : ∀ t tombs, (⟨t, .persist .listTombstoned, .ok tombs⟩ : EngineEvent F) ∈ pool.events →
    ∀ m ∈ tombs, m ∈ w.db.memoryItem.rows
  stored : ∀ item t, TurnStored pool.events item t → (pool.world.db.getMemory item.id).isSome
  listed : ∀ t' tenant rows,
    (⟨t', .persist (.listAllByTenantScoped tenant .default), .ok rows⟩ : EngineEvent F) ∈
      pool.events →
    ∀ item t, TurnStored pool.events item t → t < t' →
      ∃ item' s, TurnStored pool.events item' s ∧ item'.id = item.id ∧
        (item'.tenant = tenant → vectorIdFromUlid item.id ∈ vecRefs rows)

section Rows

variable {w : World F} {ids : List String} {pool : Jobs F} {i : Nat} {h : List (EngineEvent F)}
  {r : Request F} {next : r.Reply → EngineM F CommitOutcome} {tenant : String}

omit [JsonText F] in
theorem turnStored_advance (found : pool.threads[i]? = some ⟨h, .request r next⟩)
    {item : MemoryItem F} {t : Nat}
    (stored : TurnStored (pool.advance (machine F) i h r next).events item t) :
    TurnStored pool.events item t ∨ ∃ op payload «at»,
      (⟨pool.time, r, (pool.world.exec r).1⟩ : EngineEvent F) =
        ⟨t, .persist (.putMemoryWithWop item op payload «at»), .ok ()⟩ := by
  obtain ⟨op, payload, «at», mem⟩ := stored
  rcases (Pool.mem_events_advance found).mp mem with now | old
  · exact .inr ⟨op, payload, «at», now.symm⟩
  · exact .inl ⟨op, payload, «at», old⟩

omit [JsonText F] in
theorem TurnStored.advance (found : pool.threads[i]? = some ⟨h, .request r next⟩)
    {item : MemoryItem F} {t : Nat} (stored : TurnStored pool.events item t) :
    TurnStored (pool.advance (machine F) i h r next).events item t := by
  obtain ⟨op, payload, «at», mem⟩ := stored
  exact ⟨op, payload, «at», (Pool.mem_events_advance found).mpr (.inr mem)⟩

omit [JsonText F] in
theorem TurnRow.advance (found : pool.threads[i]? = some ⟨h, .request r next⟩)
    {m : MemoryItem F} (row : TurnRow pool m) : TurnRow (pool.advance (machine F) i h r next) m := by
  obtain ⟨refers, item, t, stored, same⟩ := row
  exact ⟨refers, item, t, stored.advance found, same⟩

omit [FloatArith F] [JsonText F] in
/-- A row of a memory that a turn stored is not a row of `w`. -/
theorem FreshIds.turnRow (fresh : FreshIds w pool.world) (owned : Owned w ids pool)
    {m : MemoryItem F} (mine : m.id ∈ ids)
    (known : m ∈ w.db.memoryItem.rows ∨ TurnRow pool m) : TurnRow pool m := by
  rcases known with old | row
  · exact absurd rfl ((fresh ids owned.issued).2 m.id mine m old).1
  · exact row

omit [JsonText F] in
/-- A row after a step was there before, or a turn has stored it or written it back. -/
theorem RowsHold.rows_advance (holds : RowsHold w pool) (owned : Owned w ids pool)
    (fresh : FreshIds w pool.world) (found : pool.threads[i]? = some ⟨h, .request r next⟩)
    (orderly : Orderly tenant h r) {m : MemoryItem F}
    (row : m ∈ (pool.advance (machine F) i h r next).world.db.memoryItem.rows) :
    m ∈ w.db.memoryItem.rows ∨ TurnRow (pool.advance (machine F) i h r next) m := by
  have before : pool.world.db.getMemory m.id = some m →
      m ∈ w.db.memoryItem.rows ∨ TurnRow (pool.advance (machine F) i h r next) m := by
    intro there
    exact (holds.rows m (Table.find?_eq_some_iff.mp there).1).imp_right (·.advance found)
  have after : (pool.world.exec r).2.db.getMemory m.id = some m := Table.find?_of_mem row
  rcases getMemory_exec_cases pool.world r m.id
    with ⟨-, same⟩ | ⟨op, rfl, -, ⟨-, same⟩ | ⟨reply, done⟩⟩
  · exact before (same.symm.trans after)
  · exact before (same.symm.trans after)
  · rw [done] at after
    cases op with
    | putMemoryWithWop item op payload «at» =>
        cases after
        have answer : (pool.world.exec (.persist (.putMemoryWithWop m op payload «at»))).1 =
            .ok () := reply
        refine .inr ⟨orderly.2.1, m, pool.time, ⟨op, payload, «at», ?_⟩, rfl, rfl⟩
        exact (Pool.mem_events_advance found).mpr (.inl (congrArg (Event.mk pool.time _) answer.symm))
    | putMemory item =>
        cases after
        obtain ⟨t, id, m', ⟨s, got⟩, read, sameId, sameRef, sameTomb, sameTenant⟩ := orderly
        obtain ⟨rfl, known⟩ := holds.read t id m' (Pool.history_happened found _ read)
        have mine : m'.id ∈ ids := owned.handed i _ _ found ⟨s, got⟩
        obtain ⟨⟨live, ref⟩, item, t', stored, same, ofTenant⟩ := fresh.turnRow owned mine known
        refine .inr ⟨⟨sameTomb.trans live, ?_⟩, item, t', stored.advance found,
          same.trans sameId.symm, sameTenant.trans ofTenant⟩
        rw [sameRef, ref, sameId]
    | physicalDelete id => cases after
    | tombstoneMemory id | untombstoneMemory id | touchAccessBatch _ _ => exact orderly.elim
    | _ => exact before after

omit [JsonText F] in
/-- A row that a job has read is known to be of `w` or of a turn. -/
theorem RowsHold.read_advance (holds : RowsHold w pool)
    (found : pool.threads[i]? = some ⟨h, .request r next⟩) {t : Nat} {id : String}
    {m : MemoryItem F} (mem : (⟨t, .persist (.getMemory id), .ok (some m)⟩ : EngineEvent F) ∈
      (pool.advance (machine F) i h r next).events) :
    m.id = id ∧
      (m ∈ w.db.memoryItem.rows ∨ TurnRow (pool.advance (machine F) i h r next) m) := by
  rcases (Pool.mem_events_advance found).mp mem with now | old
  · injection now with _ request reply
    subst request
    have answer : (pool.world.execPersist (.getMemory id)).1 = .ok (some m) := (eq_of_heq reply).symm
    have there : pool.world.db.getMemory id = some m :=
      Except.ok.inj (World.execPersist_isRead_ok rfl answer)
    obtain ⟨row, key⟩ := Table.find?_eq_some_iff.mp there
    exact ⟨key, (holds.rows m row).imp_right (·.advance found)⟩
  · obtain ⟨same, known⟩ := holds.read t id m old
    exact ⟨same, known.imp_right (·.advance found)⟩

omit [JsonText F] in
/-- The rows of turns are live, so what is listed as tombstoned is of `w`. -/
theorem RowsHold.tombs_advance (holds : RowsHold w pool)
    (found : pool.threads[i]? = some ⟨h, .request r next⟩) {t : Nat} {tombs : List (MemoryItem F)}
    (mem : (⟨t, .persist .listTombstoned, .ok tombs⟩ : EngineEvent F) ∈
      (pool.advance (machine F) i h r next).events) {m : MemoryItem F} (listed : m ∈ tombs) :
    m ∈ w.db.memoryItem.rows := by
  rcases (Pool.mem_events_advance found).mp mem with now | old
  · injection now with _ request reply
    subst request
    have answer : (pool.world.execPersist .listTombstoned).1 = .ok tombs := (eq_of_heq reply).symm
    obtain rfl : pool.world.db.listTombstoned = tombs :=
      Except.ok.inj (World.execPersist_isRead_ok rfl answer)
    obtain ⟨row, dead⟩ := Db.mem_listTombstoned.mp listed
    rcases holds.rows m row with old | ⟨⟨live, -⟩, -⟩
    · exact old
    · cases live.symm.trans dead
  · exact holds.tombs t tombs old m listed

omit [JsonText F] in
/-- A stored row stays. -/
theorem RowsHold.stored_advance (holds : RowsHold w pool) (owned : Owned w ids pool)
    (fresh : FreshIds w pool.world) (found : pool.threads[i]? = some ⟨h, .request r next⟩)
    (orderly : Orderly tenant h r) {item : MemoryItem F} {t : Nat}
    (stored : TurnStored (pool.advance (machine F) i h r next).events item t) :
    ((pool.advance (machine F) i h r next).world.db.getMemory item.id).isSome := by
  rcases turnStored_advance found stored with old | ⟨op, payload, «at», now⟩
  · rcases getMemory_exec_isSome (r := r) (holds.stored item t old) pool.time with kept | purge
    · exact kept
    · -- The purge of a stored row: the job found it tombstoned, so it is a row of `w`.
      injection purge with _ request
      subst request
      obtain ⟨s, tombs, read, m, listed, same⟩ := orderly
      have foreign := holds.tombs s tombs (Pool.history_happened found _ read) m listed
      exact absurd same ((fresh ids owned.issued).2 _ (owned.stored old) m foreign).1
  · exact getMemory_exec_stored (.inr ⟨op, payload, «at», now⟩)

omit [JsonText F] in
/-- A list of the rows of a tenant has the rows that turns of the tenant stored before. -/
theorem RowsHold.listed_advance (holds : RowsHold w pool) (owned : Owned w ids pool)
    (fresh : FreshIds w pool.world) (found : pool.threads[i]? = some ⟨h, .request r next⟩)
    {t t' : Nat} {tenant' : String} {rows : List (MemoryItem F)}
    (read : (⟨t', .persist (.listAllByTenantScoped tenant' .default), .ok rows⟩ : EngineEvent F) ∈
      (pool.advance (machine F) i h r next).events) {item : MemoryItem F}
    (stored : TurnStored (pool.advance (machine F) i h r next).events item t) (early : t < t') :
    ∃ item' s, TurnStored (pool.advance (machine F) i h r next).events item' s ∧
      item'.id = item.id ∧ (item'.tenant = tenant' → vectorIdFromUlid item.id ∈ vecRefs rows) := by
  rcases (Pool.mem_events_advance found).mp read with now | old
  · injection now with time request reply
    subst request
    rcases turnStored_advance found stored with before | ⟨_, _, _, put⟩
    · obtain ⟨m, there⟩ := Option.isSome_iff_exists.mp (holds.stored item t before)
      obtain ⟨row, key⟩ := Table.find?_eq_some_iff.mp there
      have mine : m.id ∈ ids := key ▸ owned.stored before
      obtain ⟨⟨live, ref⟩, item', s, stored', same, ofTenant⟩ :=
        fresh.turnRow owned mine (holds.rows m row)
      refine ⟨item', s, stored'.advance found, same.trans key, fun sameTenant => ?_⟩
      have answer : (pool.world.execPersist (.listAllByTenantScoped tenant' .default)).1 =
        .ok rows := (eq_of_heq reply).symm
      refine (mem_vecRefs_listed (World.execPersist_isRead_ok rfl answer) _).mpr
        ⟨m, row, live, ofTenant.trans sameTenant, rfl, ?_⟩
      rw [ref, parseU64_toString, if_pos (vectorIdFromUlid_lt m.id)]
      exact congrArg (fun id => some (vectorIdFromUlid id)) key
    · cases put
  · rcases turnStored_advance found stored with before | ⟨_, _, _, put⟩
    · obtain ⟨item', s, stored', known⟩ := holds.listed t' tenant' rows old item t before early
      exact ⟨item', s, stored'.advance found, known⟩
    · injection put with time
      exact absurd (holds.past _ old) (Nat.not_lt.mpr (Nat.le_of_lt (time ▸ early)))

omit [JsonText F] in
theorem RowsHold.advance (holds : RowsHold w pool) (owned : Owned w ids pool)
    (fresh : FreshIds w pool.world) (found : pool.threads[i]? = some ⟨h, .request r next⟩)
    (orderly : Orderly tenant h r) : RowsHold w (pool.advance (machine F) i h r next) where
  past := Pool.past_advance holds.past found
  rows _ row := holds.rows_advance owned fresh found orderly row
  read _ _ _ mem := holds.read_advance found mem
  tombs _ _ mem _ listed := holds.tombs_advance found mem listed
  stored _ _ stored := holds.stored_advance owned fresh found orderly stored
  listed _ _ _ read _ _ stored early := holds.listed_advance owned fresh found read stored early

end Rows

/-! ### Vectors -/

omit [FloatArith F] [JsonText F] in
theorem LocalStore.insertVector_keeps {s : LocalStore F} {v : Nat}
    (live : (s.getVector v).isSome) (v' : Nat) (vec : List F) :
    ((s.insertVector v' vec).2.getVector v).isSome := by
  by_cases fits : vec.length = s.dim
  · rw [s.getVector_insertVector fits v' v]
    split_ifs
    · rfl
    · exact live
  · unfold insertVector
    rw [if_pos fits]
    exact live

omit [FloatArith F] [JsonText F] in
theorem LocalStore.insertVectorFails_keeps {s : LocalStore F} {v : Nat}
    (live : (s.getVector v).isSome) (v' : Nat) (vec : List F) (e : StoreError) (writes : Nat) :
    ((s.insertVectorFails v' vec e writes).2.getVector v).isSome := by
  unfold insertVectorFails
  split_ifs with fits present
  · exact live
  · exact live
  · have other : v ≠ v' := by
      rintro rfl
      exact present (alreadyPresent_iff.mpr (Option.isSome_iff_ne_none.mp live))
    exact ((s.sameBut_insertWrites v' vec writes).live v other).symm ▸ live

omit [JsonText F] in
/-- Only a deletion takes a vector away. -/
theorem getVector_exec_isSome {w : World F} {r : Request F} {v : Nat}
    (live : (w.store.getVector v).isSome) (t : Nat) : ((w.exec r).2.store.getVector v).isSome ∨
      (⟨t, r, (w.exec r).1⟩ : EngineEvent F) = ⟨t, .store (.deleteVector v), .ok ()⟩ := by
  cases r with
  | store op =>
      change ((w.execStore op).2.getVector v).isSome ∨
        (⟨t, .store op, (w.execStore op).1⟩ : EngineEvent F) = _
      rcases w.execStore_cases op with done | ⟨e, n, failed⟩
      · rw [done]
        cases op with
        | insertVector v' vec => exact .inl (LocalStore.insertVector_keeps live v' vec)
        | deleteVector v' =>
            change ((w.store.deleteVector v').getVector v).isSome ∨ _
            rw [LocalStore.getVector_deleteVector]
            split_ifs with same
            · exact .inr (same ▸ rfl)
            · exact .inl live
        | _ => exact .inl live
      · rw [failed]
        cases op with
        | insertVector v' vec => exact .inl (LocalStore.insertVectorFails_keeps live v' vec e n)
        | searchKnn query k =>
            refine .inl ?_
            by_cases fits : query.length = w.store.dim
            · simpa [StoreOp.fails, fits] using live
            · simpa [StoreOp.fails, fits] using live
        | _ => exact .inl live
  | acquire lock => cases lock <;> exact .inl live
  | release lock => cases lock <;> exact .inl live
  | _ => exact .inl live

omit [JsonText F] in
/-- An insertion that succeeds leaves a live vector. -/
theorem getVector_exec_inserted {w : World F} {v : Nat} {vec : List F}
    (inserted : (w.execStore (.insertVector v vec)).1 = .ok ()) :
    ((w.execStore (.insertVector v vec)).2.getVector v).isSome := by
  rcases w.execStore_cases (.insertVector v vec) with done | ⟨e, n, failed⟩
  · rw [done] at inserted ⊢
    change (w.store.insertVector v vec).1 = .ok () at inserted
    change ((w.store.insertVector v vec).2.getVector v).isSome
    have fits : vec.length = w.store.dim := by
      by_contra unfit
      unfold LocalStore.insertVector at inserted
      rw [if_pos unfit] at inserted
      cases inserted
    rw [w.store.getVector_insertVector fits v v]
    split_ifs with absent
    · rfl
    · exact Option.isSome_iff_ne_none.mpr fun none => absent ⟨rfl, none⟩
  · rw [failed] at inserted
    change (w.store.insertVectorFails v vec e n).1 = _ at inserted
    unfold LocalStore.insertVectorFails at inserted
    split_ifs at inserted

/-- A vector that was inserted is live, or was deleted since; that of a stored row is live. -/
structure VectorsHold (pool : Jobs F) : Prop where
  inserted : ∀ t v vec, (⟨t, .store (.insertVector v vec), .ok ()⟩ : EngineEvent F) ∈ pool.events →
    (pool.world.store.getVector v).isSome ∨ ∃ s, t < s ∧ VectorGone pool.events v s
  live : ∀ item t, TurnStored pool.events item t →
    (pool.world.store.getVector (vectorIdFromUlid item.id)).isSome

section Vectors

variable {w : World F} {ids : List String} {pool : Jobs F} {i : Nat} {h : List (EngineEvent F)}
  {r : Request F} {next : r.Reply → EngineM F CommitOutcome} {tenant : String}

omit [JsonText F] in
/-- No step takes away the vector of a stored row, if the reconciles clean in time. -/
theorem RowsHold.no_deletion (holds : RowsHold w pool) (owned : Owned w ids pool)
    (fresh : FreshIds w pool.world) {item : MemoryItem F} {t : Nat}
    (stored : TurnStored pool.events item t) {next}
    (found : pool.threads[i]? =
      some ⟨h, .request (.store (.deleteVector (vectorIdFromUlid item.id))) next⟩)
    (orderly : Orderly tenant h (.store (.deleteVector (vectorIdFromUlid item.id))))
    (cleans : CleansInTime pool i)
    (deleted : (pool.world.execStore (.deleteVector (vectorIdFromUlid item.id))).1 = .ok ()) :
    False := by
  have happened := Pool.history_happened found
  obtain ⟨distinct, apart⟩ := fresh ids owned.issued
  rcases orderly with ⟨id, working, same⟩ | ⟨t', rows, read, outside⟩ | ⟨t', tombs, read, listed⟩
  · -- A failed turn: its ULID is that of no stored row.
    have mine : id ∈ ids := owned.handed i _ id found working.handed
    obtain rfl := List.inj_on_of_nodup_map distinct mine (owned.stored stored) same
    exact owned.working found stored working
  · -- An orphan: the rows that the reconcile read have the stored row.
    obtain ⟨early, -⟩ := cleans h _ _ found deleted item t stored rfl t' tenant .default rows read
    obtain ⟨item', s, stored', sameId, known⟩ :=
      holds.listed t' tenant rows (happened _ read) item t stored early
    obtain ⟨-, ofTenant⟩ := cleans h _ _ found deleted item' s stored'
      (congrArg vectorIdFromUlid sameId) t' tenant .default rows read
    exact outside (known ofTenant)
  · -- A tombstoned row: it is a row of `w`, which refers to no new vector.
    obtain ⟨m, mem, parsed⟩ := List.mem_filterMap.mp listed
    exact (apart _ (owned.stored stored) m (holds.tombs t' tombs (happened _ read) m mem)).2 parsed

omit [JsonText F] in
theorem VectorsHold.advance (vectors : VectorsHold pool) (holds : RowsHold w pool)
    (owned : Owned w ids pool) (fresh : FreshIds w pool.world)
    (found : pool.threads[i]? = some ⟨h, .request r next⟩) (orderly : Orderly tenant h r)
    (cleans : CleansInTime pool i) (stores : StoresInTime pool i) :
    VectorsHold (pool.advance (machine F) i h r next) := by
  have happened := Pool.history_happened found
  constructor
  · intro t v vec inserted
    rcases (Pool.mem_events_advance found).mp inserted with now | old
    · injection now with _ request reply
      subst request
      exact .inl (getVector_exec_inserted (eq_of_heq reply).symm)
    · rcases vectors.inserted t v vec old with live | ⟨s, late, gone⟩
      · rcases getVector_exec_isSome (r := r) live pool.time with kept | deletion
        · exact .inl kept
        · exact .inr ⟨pool.time, holds.past _ old,
            (Pool.mem_events_advance found).mpr (.inl (deletion.symm))⟩
      · exact .inr ⟨s, late, (Pool.mem_events_advance found).mpr (.inr gone)⟩
  · intro item t stored
    rcases turnStored_advance found stored with old | ⟨op, payload, «at», put⟩
    · rcases getVector_exec_isSome (r := r) (vectors.live item t old) pool.time with kept | deletion
      · exact kept
      · injection deletion with _ request reply
        subst request
        exact (holds.no_deletion owned fresh old found orderly cleans (eq_of_heq reply)).elim
    · injection put with _ request reply
      subst request
      obtain ⟨-, -, s, vec, inserted⟩ := orderly
      rcases vectors.inserted s _ vec (happened _ inserted) with live | ⟨s', late, gone⟩
      · rcases getVector_exec_isSome (r := .persist (.putMemoryWithWop item op payload «at»)) live
          pool.time with kept | deletion
        · exact kept
        · cases deletion
      · exact absurd (stores h item op payload «at» next found (eq_of_heq reply) s vec inserted s' gone)
          (Nat.lt_asymm late)

end Vectors

/-! ### Runs -/

theorem holds_start (eng : MemoryEngine) (w : World F) (jobs : List Job) :
    Owned w [] (Jobs.start eng w jobs) ∧ RowsHold w (Jobs.start eng w jobs) ∧
      VectorsHold (Jobs.start eng w jobs) := by
  have none : ∀ e, e ∉ (Jobs.start eng w jobs).events := Jobs.not_mem_events_start eng w jobs
  have unhanded : ∀ (i : Nat) (thread : Thread (engineSignature F) MemoryError CommitOutcome) id,
      (Jobs.start eng w jobs).threads[i]? = some thread → ¬ Handed thread.history id := by
    rintro i thread id member ⟨t, mem⟩
    exact none _ (Pool.mem_events.mpr ⟨i, thread, member, mem⟩)
  have unstored : ∀ item t, ¬ TurnStored (Jobs.start eng w jobs).events item t := by
    rintro item t ⟨_, _, _, mem⟩
    exact none _ mem
  refine ⟨⟨rfl, fun i thread id member got => absurd got (unhanded i thread id member),
    fun i _ thread _ id member _ got => absurd got (unhanded i thread id member),
    fun i thread t id before member suffix =>
      absurd ⟨t, suffix.subset List.mem_cons_self⟩ (unhanded i thread id member), ?_⟩,
    ⟨fun e mem => absurd mem (none e), fun m row => .inl row, fun _ _ _ mem => absurd mem (none _),
      fun _ _ mem => absurd mem (none _), fun item t stored => absurd stored (unstored item t),
      fun _ _ _ mem => absurd mem (none _)⟩,
    ⟨fun _ _ _ mem => absurd mem (none _), fun item t stored => absurd stored (unstored item t)⟩⟩
  rintro i thread id member ⟨item, t, -, op, payload, «at», mem⟩
  exact absurd (Pool.mem_events.mpr ⟨i, thread, member, mem⟩) (none _)

/-- A turn that is reported as committed has a live vector in every run in which no
reconcile deletes a vector whose row was stored after it read the rows, or under another
tenant, and no turn stores its row once its vector was deleted. -/
theorem commits_keep_vectors (eng : MemoryEngine) (w : World F)
    (commits : List (String × Interaction)) (reconciles : Nat) :
    CommitsKeepVectors (fun pool i => FreshIds w pool.world ∧ CleansInTime pool i ∧
      StoresInTime pool i) eng w commits reconciles := by
  intro pool reach _ i thread outcome found returned id reported
  have keeps := Jobs.keepsProtocol (commitsAndReconciles_orderly eng commits reconciles) w
  have holds : (∃ ids, Owned w ids pool) ∧ RowsHold w pool ∧ VectorsHold pool := by
    obtain ⟨owned, rows, vectors⟩ := holds_start eng w (commitsAndReconciles commits reconciles)
    refine reach.invariant (I := fun pool => (∃ ids, Owned w ids pool) ∧ RowsHold w pool ∧
      VectorsHold pool) keeps ⟨⟨[], owned⟩, rows, vectors⟩
        fun pool i h r next holds found orderly cond _ => ?_
    obtain ⟨⟨ids, owned⟩, rows, vectors⟩ := holds
    exact ⟨owned.advance found orderly, rows.advance owned cond.1 found orderly,
      vectors.advance rows owned cond.1 found orderly cond.2.1 cond.2.2⟩
  obtain ⟨history, program⟩ := thread
  obtain rfl : program = .done outcome := returned
  have stored : Reported history outcome.memoryIds := reach.keepsProtocol keeps i _ found
  obtain ⟨item, t, rfl, op, payload, «at», mem⟩ := stored id reported
  exact holds.2.2.live item t ⟨op, payload, «at», Pool.history_happened found _ mem⟩

/-! ### A fresh commit that loses its vector -/

/-- A commit of one turn and a reconcile. -/
def greetAndReconcile : List Job := commitsAndReconciles [("s", greeting)] 1

/-- The reconcile reads the rows, the turn is committed, and the reconcile deletes its vector. -/
def committedMidway : Jobs Fixed :=
  Pool.runSchedule (machine Fixed) (List.replicate 2 1 ++ List.replicate 6 0 ++ List.replicate 5 1)
    (Jobs.start (plainEngine "a") (emptyWorld .quiet) greetAndReconcile)

theorem reconcile_deletes_fresh_vector :
    ¬ CommitsKeepVectors (fun _ _ => True) (plainEngine "a") (emptyWorld .quiet) [("s", greeting)]
      1 := by
  intro keeps
  have reach : Pool.Reaches (machine Fixed) (fun _ _ => True)
      (Jobs.start (plainEngine "a") (emptyWorld .quiet) greetAndReconcile) committedMidway :=
    Pool.reaches_runSchedule (fun _ _ => true) (fun _ _ _ _ _ _ _ => trivial) _ _
      (by decide +kernel)
  have returned : (committedMidway.threads[0]?.bind fun thread => thread.program.value?) =
      some ⟨["x"], []⟩ := by decide +kernel
  obtain ⟨thread, found, done⟩ := Option.bind_eq_some_iff.mp returned
  have gone : committedMidway.world.store.getVector (vectorIdFromUlid "x") = none := by
    decide +kernel
  have ended : (committedMidway.threads.all fun thread => thread.program.ended) = true := by
    decide +kernel
  have live := keeps _ reach ended 0 thread _ found (Program.value?_eq_some done) "x"
    (List.mem_singleton.mpr rfl)
  rw [gone] at live
  cases live

end FusionMemory
