import FusionMemory.Engine.Calls
import FusionMemory.Engine.RowFrame
import FusionMemory.Engine.Staging
import FusionMemory.Lib.DecimalJson

/-!
Whether a deleted memory stays deleted.

A consolidation run and the end of a commit write whole rows back that they read
earlier. `deleted_stays_deleted` says that nothing else brings a deleted memory back:
in every interleaving in which no call writes back what it read of the memory before
the deletion, the memory stays deleted.
-/

namespace FusionMemory

open Lib

variable {F : Type} [FloatArith F] [JsonText F]

/-! ### Deletions and write-backs -/

/-- A call of `delete_memory` tombstoned the memory `id` at time `t`. -/
def DeletedAt (calls : List Call) (id : String) (pool : Calls F) (t : Nat) : Prop :=
  ∃ i : Nat, ∃ thread, calls[i]? = some (.deleteMemory id) ∧ pool.threads[i]? = some thread ∧
    (⟨t, .persist (.tombstoneMemory id), .ok ()⟩ : EngineEvent F) ∈ thread.history

/-- The request writes a live row under `id` over the one there is. -/
def Request.revives (id : String) : Request F → Bool
  | .persist (.putMemory item) => item.id == id && !item.tombstone
  | .persist (.untombstoneMemory id') => id' == id
  | _ => false

/-- The request stores a new memory under `id`. -/
def Request.creates (id : String) : Request F → Bool
  | .persist (.putMemoryWithWop item _ _ _) => item.id == id
  | _ => false

/-- The call read the row of `id` before time `t`. -/
def SawBefore (id : String) (t : Nat) (h : List (EngineEvent F)) : Prop :=
  ∃ e ∈ h, e.time < t ∧ ∃ m ∈ rowsRead e, m.id = id

/-- No new memory gets the id of a deleted one in this step. -/
def NoNewMemory (calls : List Call) (id : String) (pool : Calls F) (i : Nat) : Prop :=
  ∀ h r next, pool.threads[i]? = some ⟨h, .request r next⟩ → ∀ t, DeletedAt calls id pool t →
    r.creates id = false

/-- This step does not write back what its call read of the memory before a deletion. -/
def NoStaleRevival (calls : List Call) (id : String) (pool : Calls F) (i : Nat) : Prop :=
  ∀ h r next, pool.threads[i]? = some ⟨h, .request r next⟩ → ∀ t, DeletedAt calls id pool t →
    r.revives id = true → ¬ SawBefore id t h

/-- In every run of the calls whose steps meet `C`, once a `delete_memory` of `id` has
returned without an error, the row of `id` is tombstoned or gone. -/
def StaysDeleted (C : Calls F → Nat → Prop) (eng : MemoryEngine) (w : World F)
    (calls : List Call) (id : String) : Prop :=
  ∀ pool, Pool.Reaches (machine F) C (Calls.start eng w calls) pool →
    ∀ (i : Nat) thread, calls[i]? = some (.deleteMemory id) → pool.threads[i]? = some thread →
      thread.program = .done () →
        ∀ r, pool.world.db.getMemory id = some r → r.tombstone = true

/-! ### One step -/

/-- The memory is tombstoned or gone. -/
def Dead (db : Db F) (id : String) : Prop := ∀ r, db.getMemory id = some r → r.tombstone = true

omit [JsonText F] in
/-- Only a revival or a new memory of this id makes a dead row live. -/
theorem dead_exec {w : World F} {r : Request F} {id : String} (dead : Dead w.db id)
    (revives : r.revives id = false) (creates : r.creates id = false) : Dead (w.exec r).2.db id := by
  intro m found
  rcases getMemory_exec_cases w r id with ⟨-, same⟩ | ⟨op, rfl, writes, ⟨-, same⟩ | ⟨-, done⟩⟩
  · exact dead m (same.symm.trans found)
  · exact dead m (same.symm.trans found)
  · rw [done] at found
    cases op with
    | putMemory item =>
        have same : item.id = id := not_not.mp writes
        cases found
        simpa [Request.revives, same] using revives
    | putMemoryWithWop item _ _ _ =>
        have same : item.id = id := not_not.mp writes
        simp [Request.creates, same] at creates
    | untombstoneMemory id' =>
        have same : id' = id := not_not.mp writes
        simp [Request.revives, same] at revives
    | tombstoneMemory id' =>
        obtain ⟨m', -, rfl⟩ := Option.map_eq_some_iff.mp found
        rfl
    | touchAccessBatch ids now =>
        obtain ⟨m', stored, rfl⟩ := Option.map_eq_some_iff.mp found
        split_ifs <;> exact dead m' stored
    | physicalDelete id' => cases found
    | _ => exact absurd trivial writes

omit [JsonText F] in
/-- A tombstoning that succeeds leaves the row tombstoned or gone. -/
theorem dead_tombstone {w : World F} {id : String}
    (done : (w.exec (.persist (.tombstoneMemory id))).1 = .ok ()) :
    Dead (w.exec (.persist (.tombstoneMemory id))).2.db id := by
  change (w.execPersist (.tombstoneMemory id)).1 = _ at done
  intro m found
  rcases getMemory_exec_cases w (.persist (.tombstoneMemory id)) id
    with ⟨avoids, -⟩ | ⟨op, same, -, ⟨⟨e, failed⟩, -⟩ | ⟨-, buried⟩⟩
  · exact absurd rfl avoids
  · cases same
    rw [done] at failed
    cases failed
  · cases same
    rw [buried] at found
    obtain ⟨m', -, rfl⟩ := Option.map_eq_some_iff.mp found
    rfl

/-! ### All steps -/

/-- After a deletion the row is dead, and so is every copy of it that was read since. -/
structure DeletionHolds (calls : List Call) (id : String) (pool : Calls F) : Prop where
  past : ∀ e ∈ pool.events, e.time < pool.time
  dead : ∀ t, DeletedAt calls id pool t → Dead pool.world.db id
  copies : ∀ t, DeletedAt calls id pool t → ∀ e ∈ pool.events, t ≤ e.time →
    ∀ m ∈ rowsRead e, m.id = id → m.tombstone = true

variable {calls : List Call} {id : String} {pool : Calls F}

theorem deletionHolds_start (eng : MemoryEngine) (w : World F) (calls : List Call) (id : String) :
    DeletionHolds calls id (Calls.start eng w calls) := by
  have none : ∀ e, e ∉ (Calls.start eng w calls).events := by
    intro e happened
    have empty : (Calls.start eng w calls).events = [] := Pool.events_start w _
    rw [empty] at happened
    cases happened
  have kept : ∀ t, ¬ DeletedAt calls id (Calls.start eng w calls) t := by
    rintro t ⟨i, thread, -, found, mem⟩
    exact none _ (Pool.mem_events.mpr ⟨i, thread, found, mem⟩)
  exact ⟨fun e happened => absurd happened (none e), fun t deleted => absurd deleted (kept t),
    fun t deleted => absurd deleted (kept t)⟩

section Step

variable {i : Nat} {h : List (EngineEvent F)} {r : Request F}
  {next : r.Reply → EngineM F Unit}

omit [JsonText F] in
/-- A deletion after a step was one before it, or is the step. -/
theorem deletedAt_advance (found : pool.threads[i]? = some ⟨h, .request r next⟩) {t : Nat}
    (deleted : DeletedAt calls id (pool.advance (machine F) i h r next) t) :
    DeletedAt calls id pool t ∨
      t = pool.time ∧ r = .persist (.tombstoneMemory id) ∧
        Dead ((machine F).exec r pool.world).2.db id := by
  obtain ⟨j, thread, call, listed, happened⟩ := deleted
  rcases Pool.advance_threads_cases found listed with ⟨-, old⟩ | ⟨rfl, rfl⟩
  · exact .inl ⟨j, thread, call, old, happened⟩
  · rcases List.mem_cons.mp happened with now | earlier
    · injection now with time request reply
      subst request
      exact .inr ⟨time, rfl, dead_tombstone (eq_of_heq reply).symm⟩
    · exact .inl ⟨j, _, call, found, earlier⟩

omit [FloatArith F] [JsonText F] in
/-- A live copy that a call holds was read before the deletion. -/
theorem DeletionHolds.not_revives (holds : DeletionHolds calls id pool)
    (found : pool.threads[i]? = some ⟨h, .request r next⟩) {c : Call} (allowed : c.Allows h r)
    (noStale : NoStaleRevival calls id pool i) {t : Nat} (deleted : DeletedAt calls id pool t) :
    r.revives id = false := by
  by_contra revives
  have revives : r.revives id = true := by simpa using revives
  have late : ∀ e ∈ h, ∀ m ∈ rowsRead e, m.id = id → m.tombstone = true := by
    intro e mem m read same
    refine holds.copies t deleted e (Pool.history_happened found e mem) ?_ m read same
    by_contra early
    exact noStale h r next found t deleted revives ⟨e, mem, Nat.lt_of_not_le early, m, read, same⟩
  cases r with
  | persist op =>
      cases op with
      | putMemory item =>
          obtain ⟨e, mem, m, read, sameId, sameTombstone, -⟩ := allowed
          obtain ⟨same, live⟩ : item.id = id ∧ item.tombstone = false := by
            simpa [Request.revives] using revives
          have dead := late e mem m read (sameId.symm.trans same)
          rw [← sameTombstone, live] at dead
          cases dead
      | untombstoneMemory id' =>
          obtain ⟨e, mem, m, read, sameId, live⟩ := allowed
          have same : id' = id := by simpa [Request.revives] using revives
          have dead := late e mem m read (sameId.trans same)
          rw [live] at dead
          cases dead
      | _ => cases revives
  | _ => cases revives

omit [JsonText F] in
/-- The step lemma: a call that may ask for `r` keeps the deletion, unless it stores a new
memory under the id or writes back what it read before. -/
theorem DeletionHolds.advance (holds : DeletionHolds calls id pool)
    (found : pool.threads[i]? = some ⟨h, .request r next⟩) {c : Call} (allowed : c.Allows h r)
    (noNew : NoNewMemory calls id pool i) (noStale : NoStaleRevival calls id pool i) :
    DeletionHolds calls id (pool.advance (machine F) i h r next) := by
  constructor
  · exact Pool.past_advance holds.past found
  · intro t deleted
    rcases deletedAt_advance found deleted with old | ⟨-, -, dead⟩
    · exact dead_exec (holds.dead t old) (holds.not_revives found allowed noStale old)
        (noNew h r next found t old)
    · exact dead
  · intro t deleted e mem late m read same
    rcases (Pool.mem_events_advance found).mp mem with rfl | old
    · rcases deletedAt_advance found deleted with before | ⟨-, rfl, -⟩
      · refine holds.dead t before m ?_
        rw [← same]
        exact getMemory_rowsRead read
      · cases read
    · rcases deletedAt_advance found deleted with before | ⟨now, -⟩
      · exact holds.copies t before e old late m read same
      · exact absurd (holds.past e old) (Nat.not_lt.mpr (now ▸ late))

end Step

/-- A deleted memory stays deleted in every run in which no call writes back what it read
of it before the deletion, and no new memory gets its id. -/
theorem deleted_stays_deleted (eng : MemoryEngine) (w : World F) (calls : List Call)
    (id : String) :
    StaysDeleted (fun pool i => NoNewMemory calls id pool i ∧ NoStaleRevival calls id pool i) eng w
      calls id := by
  intro pool reach i thread call found returned
  have keeps := Calls.keepsProtocol eng w calls
  have holds : DeletionHolds calls id pool := reach.invariant keeps (deletionHolds_start eng w calls id)
    fun pool i h r next holds found allowed cond _ => by
      obtain ⟨c, -, allowed⟩ := allowed
      exact holds.advance found allowed cond.1 cond.2
  obtain ⟨history, program⟩ := thread
  obtain ⟨c, call', left⟩ := returned ▸ reach.keepsProtocol keeps i _ found
  rw [call] at call'
  cases call'
  obtain ⟨t, happened⟩ := left
  exact holds.dead t ⟨i, _, call, found, happened⟩

/-! ### A promotion that brings a deleted memory back -/

/-- A short-term fact that a run promotes. -/
def shortFact : MemoryItem Fixed :=
  { MemoryItem.newTurnSkeleton "m1" "ix" 0 "s" "a" .semantic "fact" 5 with
    tier := .short, vectorRef := "7", entitiesPending := false }

def shortFactWorld : World Fixed :=
  World.fresh (.stopped 10) { (Db.empty : Db Fixed) with memoryItem := Table.empty.upsert shortFact }
    (.empty 0)

/-- A run and a deletion of the fact. -/
def runAndDelete : List Call := [.consolidate .default, .deleteMemory "m1"]

/-- The run reads its change set, the deletion goes through, and the run promotes the fact. -/
def deletedMidway : Calls Fixed :=
  Pool.runSchedule (machine Fixed) [0, 0, 0, 0, 1, 1, 1, 1, 1, 1, 0]
    (Calls.start (plainEngine "a") shortFactWorld runAndDelete)

theorem consolidate_revives_deleted_memory :
    ¬ StaysDeleted (NoNewMemory runAndDelete "m1") (plainEngine "a") shortFactWorld runAndDelete
      "m1" := by
  intro stays
  have reach : Pool.Reaches (machine Fixed) (NoNewMemory runAndDelete "m1")
      (Calls.start (plainEngine "a") shortFactWorld runAndDelete) deletedMidway := by
    refine Pool.reaches_runSchedule (fun _ (r : Request Fixed) => !r.creates "m1")
      (fun pool i h r next found checked h' r' next' found' t _ => ?_) _ _ (by decide +kernel)
    rw [found] at found'
    cases found'
    simpa using checked
  have returned : (deletedMidway.threads[1]?.bind fun thread => thread.program.value?) = some () := by
    decide +kernel
  obtain ⟨thread, found, done⟩ := Option.bind_eq_some_iff.mp returned
  have live : deletedMidway.world.db.getMemory "m1" = some (promoted shortFact) := by decide +kernel
  have dead := stays _ reach 1 thread rfl found (Program.value?_eq_some done) _ live
  exact absurd dead (by decide)

end FusionMemory
