import FusionMemory.Engine.DeletedStays

/-!
Whether accesses are lost.

Each retrieval counts one access of what it returns, in the row. A call that writes a
whole row back writes the count it read. `access_counts_kept` says that in every
interleaving in which no memory is touched between the reading and the writing of its
row, the count is the number of touches.
-/

namespace FusionMemory

open Lib

variable {F : Type} [FloatArith F] [JsonText F]

/-! ### Touches -/

/-- The event counted an access of `id`. -/
def touched (id : String) : EngineEvent F → Bool
  | ⟨_, .persist (.touchAccessBatch ids _), .ok _⟩ => ids.contains id
  | _ => false

/-- How many accesses of `id` were counted. -/
def touches (id : String) (pool : Calls F) : Nat := pool.events.countP (touched id)

/-- The memory is live before this step. -/
def StaysLive (id : String) (pool : Calls F) : Prop :=
  ∃ m, pool.world.db.getMemory id = some m ∧ m.tombstone = false

/-- This step does not write back a row of `id` that was touched after its call read it. -/
def NoStaleCount (id : String) (pool : Calls F) (i : Nat) : Prop :=
  ∀ h item next, pool.threads[i]? = some ⟨h, .request (.persist (.putMemory item)) next⟩ →
    item.id = id → ∀ e ∈ h, (∃ m ∈ rowsRead e, m.id = id) →
      ∀ e' ∈ pool.events, touched id e' = true → e'.time < e.time

/-- In every run of the calls whose steps meet `C`, the access count of a live memory
`id` is the initial one and one more for each touch. -/
def CountsTouches (C : Calls F → Nat → Prop) (eng : MemoryEngine) (w : World F)
    (calls : List Call) (id : String) : Prop :=
  ∀ m₀, w.db.getMemory id = some m₀ →
    ∀ pool, Pool.Reaches (machine F) C (Calls.start eng w calls) pool →
      ∀ m, pool.world.db.getMemory id = some m → m.tombstone = false →
        m.accessCount = m₀.accessCount + touches id pool

/-! ### One step -/

omit [FloatArith F] [JsonText F] in
theorem touched_avoids {id : String} {t : Nat} {r : Request F} {reply : r.Reply}
    (avoids : r.Avoids id) : touched id ⟨t, r, reply⟩ = false := by
  cases r with
  | persist op =>
      cases op with
      | touchAccessBatch ids now =>
          cases reply with
          | ok _ =>
              have other : id ∉ ids := avoids
              simpa [touched] using other
          | error e => rfl
      | _ => rfl
  | _ => rfl

omit [JsonText F] in
/-- A step that stores no row under `id` changes its count by the touch that it is. -/
theorem accessCount_exec {w : World F} {r : Request F} {id : String} {m m' : MemoryItem F}
    (stored : w.db.getMemory id = some m) (live : m.tombstone = false)
    (found : (w.exec r).2.db.getMemory id = some m') (stores : r.stores id = false) (t : Nat) :
    m'.accessCount = m.accessCount + (touched id ⟨t, r, (w.exec r).1⟩).toNat := by
  have kept : (w.exec r).2.db.getMemory id = w.db.getMemory id → m' = m := fun same =>
    Option.some.inj (found.symm.trans (same.trans stored))
  rcases getMemory_exec_cases w r id
    with ⟨avoids, same⟩ | ⟨op, rfl, writes, ⟨⟨e, failed⟩, same⟩ | ⟨reply, done⟩⟩
  · rw [kept same, touched_avoids avoids]
    rfl
  · change _ = _ + (touched id ⟨t, .persist op, (w.execPersist op).1⟩).toNat
    rw [kept same, failed]
    cases op <;> rfl
  · change _ = _ + (touched id ⟨t, .persist op, (w.execPersist op).1⟩).toNat
    rw [reply]
    rw [done, stored] at found
    cases op with
    | putMemory item | putMemoryWithWop item _ _ _ =>
        have same : item.id = id := not_not.mp writes
        simp [Request.stores, same] at stores
    | tombstoneMemory id' | untombstoneMemory id' =>
        cases found
        rfl
    | touchAccessBatch ids now =>
        have mem : id ∈ ids := not_not.mp writes
        have counted : touched id (⟨t, .persist (.touchAccessBatch ids now), .ok ()⟩ :
            EngineEvent F) = true := by simpa [touched] using mem
        change _ = _ + (touched id ⟨t, .persist (.touchAccessBatch ids now), .ok ()⟩).toNat
        simp only [PersistOp.onRow, Option.map_some, live, if_true, Option.some.injEq] at found
        rw [counted, ← found]
        rfl
    | physicalDelete id' => cases found
    | _ => exact absurd trivial writes

/-! ### All steps -/

/-- The row of `id` and every copy of it counted the touches before them. -/
structure CountHolds (id : String) (count : Nat) (pool : Calls F) : Prop where
  past : ∀ e ∈ pool.events, e.time < pool.time
  row : ∀ m, pool.world.db.getMemory id = some m → m.accessCount = count + touches id pool
  copies : ∀ e ∈ pool.events, ∀ m ∈ rowsRead e, m.id = id →
    m.accessCount = count + pool.events.countP fun e' => touched id e' && decide (e'.time < e.time)
  old : ∀ t, (⟨t, .newUlid, id⟩ : EngineEvent F) ∉ pool.events

theorem countHolds_start (eng : MemoryEngine) {w : World F} (calls : List Call) {id : String}
    {m₀ : MemoryItem F} (stored : w.db.getMemory id = some m₀) :
    CountHolds id m₀.accessCount (Calls.start eng w calls) := by
  have none : (Calls.start eng w calls).events = [] := Pool.events_start w _
  constructor
  · intro e mem
    rw [none] at mem
    cases mem
  · intro m found
    have same : m₀ = m := Option.some.inj (stored.symm.trans found)
    unfold touches
    rw [none, ← same]
    rfl
  · intro e mem
    rw [none] at mem
    cases mem
  · intro t mem
    rw [none] at mem
    cases mem

section Step

variable {id : String} {count i : Nat} {pool : Calls F} {h : List (EngineEvent F)} {r : Request F}
  {next : r.Reply → EngineM F Unit}

omit [FloatArith F] [JsonText F] in
/-- A row written back without a touch since it was read holds all touches. -/
theorem CountHolds.writtenBack (holds : CountHolds id count pool) {item : MemoryItem F}
    (known : ∀ e ∈ h, e ∈ pool.events) (copy : WritesBack h item) (same : item.id = id)
    (fresh : ∀ e ∈ h, (∃ m ∈ rowsRead e, m.id = id) →
      ∀ e' ∈ pool.events, touched id e' = true → e'.time < e.time) :
    item.accessCount = count + touches id pool := by
  obtain ⟨e, mem, m, read, sameId, -, sameCount, -⟩ := copy
  have ofId : m.id = id := sameId.symm.trans same
  rw [sameCount, holds.copies e (known e mem) m read ofId]
  unfold touches
  congr 1
  refine List.countP_congr fun e' mem' => ?_
  have early := fresh e mem ⟨m, read, ofId⟩ e' mem'
  simpa using early

omit [JsonText F] in
/-- The row after a step counts the step's touch, if it is one. -/
theorem CountHolds.row_advance (holds : CountHolds id count pool)
    (found : pool.threads[i]? = some ⟨h, .request r next⟩) {c : Call} (allowed : c.Allows h r)
    (live : StaysLive id pool) (noStale : NoStaleCount id pool i) {m' : MemoryItem F}
    (found' : (pool.world.exec r).2.db.getMemory id = some m') :
    m'.accessCount = count + (touches id pool +
      (touched id ⟨pool.time, r, (pool.world.exec r).1⟩).toNat) := by
  have happened := Pool.history_happened found
  obtain ⟨m, stored, live⟩ := live
  cases stores : r.stores id with
  | false =>
      rw [accessCount_exec stored live found' stores pool.time, holds.row m stored]
      omega
  | true =>
      cases r with
      | persist op =>
          cases op with
          | putMemory item =>
              have same : item.id = id := by simpa [Request.stores] using stores
              have written := holds.writtenBack happened allowed same (noStale h item next found same)
              rcases getMemory_exec_cases pool.world (.persist (.putMemory item)) id
                with ⟨avoids, -⟩ | ⟨op, isPut, -, ⟨-, kept⟩ | ⟨-, done⟩⟩
              · exact absurd same avoids
              · exact holds.row m' (kept.symm.trans found')
              · cases isPut
                rw [done] at found'
                cases found'
                exact written
          | putMemoryWithWop item _ _ _ =>
              have same : item.id = id := by simpa [Request.stores] using stores
              obtain ⟨t, s, before, suffix, -⟩ := allowed
              have named := suffix.subset List.mem_cons_self
              rw [same] at named
              exact absurd (happened _ named) (holds.old t)
          | _ => cases stores
      | _ => cases stores

omit [JsonText F] in
/-- The step lemma: a call that may ask for `r` keeps the count while the memory is live,
unless it writes back a row that was touched since. -/
theorem CountHolds.advance (holds : CountHolds id count pool)
    (found : pool.threads[i]? = some ⟨h, .request r next⟩) {c : Call} (allowed : c.Allows h r)
    (live : StaysLive id pool) (noStale : NoStaleCount id pool i) :
    CountHolds id count (pool.advance (machine F) i h r next) := by
  have events := Pool.events_advance (M := machine F) found
  have ⟨m, stored, _⟩ := live
  -- What was counted before an old event is counted before it still.
  have before : ∀ t ≤ pool.time,
      (pool.advance (machine F) i h r next).events.countP
          (fun e' => touched id e' && decide (e'.time < t)) =
        pool.events.countP fun e' => touched id e' && decide (e'.time < t) := by
    intro t le
    rw [events.countP_eq, List.countP_cons_of_neg]
    simpa using fun _ => le
  constructor
  · exact Pool.past_advance holds.past found
  · intro m' found'
    have counted : touches id (pool.advance (machine F) i h r next) = touches id pool +
        (touched id ⟨pool.time, r, (pool.world.exec r).1⟩).toNat := by
      unfold touches
      rw [events.countP_eq, List.countP_cons]
      change _ + (if touched id ⟨pool.time, r, (pool.world.exec r).1⟩ = true then 1 else 0) = _
      cases touched id ⟨pool.time, r, (pool.world.exec r).1⟩ <;> rfl
    rw [counted]
    exact holds.row_advance found allowed live noStale found'
  · intro e mem m' read same
    rcases (Pool.mem_events_advance found).mp mem with rfl | old
    · have row := getMemory_rowsRead read
      rw [same, stored] at row
      cases row
      rw [before _ (Nat.le_refl _), holds.row m stored]
      unfold touches
      congr 1
      refine List.countP_congr fun e mem => ?_
      simpa using fun _ => holds.past e mem
    · rw [before _ (Nat.le_of_lt (holds.past e old))]
      exact holds.copies e old m' read same
  · intro t mem
    rcases (Pool.mem_events_advance found).mp mem with now | old
    · injection now with _ request reply
      subst request
      -- A live memory's id is taken.
      have reply : id = (pool.world.env.ulid pool.world.tick pool.world.taken).1 := eq_of_heq reply
      refine (pool.world.env.ulid pool.world.tick pool.world.taken).2.1 ?_
      rw [← reply, ← (Table.find?_key stored : m.id = id)]
      exact List.mem_append_right _ (List.mem_map_of_mem (Table.find?_mem stored))
    · exact holds.old t old

end Step

/-- The access count of a memory that stays live is the number of its touches, in every
run in which no call writes back a row that was touched since it read it. -/
theorem access_counts_kept (eng : MemoryEngine) (w : World F) (calls : List Call) (id : String) :
    CountsTouches (fun pool i => StaysLive id pool ∧ NoStaleCount id pool i) eng w calls id := by
  intro m₀ stored pool reach m found _
  have holds : CountHolds id m₀.accessCount pool :=
    reach.invariant (Calls.keepsProtocol eng w calls) (countHolds_start eng calls stored)
      fun pool i h r next holds found allowed cond _ => by
        obtain ⟨c, -, allowed⟩ := allowed
        exact holds.advance found allowed cond.1 cond.2
  exact holds.row m found

/-! ### A promotion that loses an access -/

def factStore : LocalStore Fixed := ⟨⟨[(7, [])], by decide⟩, .empty, [], 0⟩

/-- The short-term fact and its vector. -/
def storedFactWorld : World Fixed := { shortFactWorld with store := factStore }

def factQuery : RetrieveQuery := ⟨"fact", 5, none, "a", "", "", none, 100⟩

def runAndRetrieve : List Call := [.consolidate .default, .retrieve factQuery]

/-- The run reads its change set, the retrieval returns the fact, and the run promotes it. -/
def retrievedMidway : Calls Fixed :=
  Pool.runSchedule (machine Fixed) [0, 0, 0, 0, 1, 1, 1, 1, 1, 1, 1, 1, 1, 1, 1, 0]
    (Calls.start (plainEngine "a") storedFactWorld runAndRetrieve)

theorem consolidate_loses_access :
    ¬ CountsTouches (fun pool _ => StaysLive "m1" pool) (plainEngine "a") storedFactWorld
      runAndRetrieve "m1" := by
  intro counts
  have reach : Pool.Reaches (machine Fixed) (fun pool _ => StaysLive "m1" pool)
      (Calls.start (plainEngine "a") storedFactWorld runAndRetrieve) retrievedMidway := by
    refine Pool.reaches_runSchedule (fun (pool : Calls Fixed) _ =>
      (pool.world.db.getMemory "m1").any fun m => !m.tombstone)
      (fun pool i h r next _ checked => ?_) _ _ (by decide +kernel)
    obtain ⟨m, stored, live⟩ := (Option.any_eq_true _ _).mp checked
    exact ⟨m, stored, by simpa using live⟩
  have stored : storedFactWorld.db.getMemory "m1" = some shortFact := by decide +kernel
  have found : retrievedMidway.world.db.getMemory "m1" = some (promoted shortFact) := by
    decide +kernel
  have touched : touches "m1" retrievedMidway = 1 := by decide +kernel
  have counted := counts shortFact stored retrievedMidway reach _ found rfl
  rw [touched] at counted
  exact absurd counted (by decide)

end FusionMemory
