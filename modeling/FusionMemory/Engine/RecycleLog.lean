import FusionMemory.Engine.ConsolidatePhases
import FusionMemory.Engine.DeleteAtomic

/-!
What phase 1 of a run says it has recycled (`consolidate_impl`).

A memory that is forgotten loses its vector, its row is tombstoned and an entry of the log
tells the followers. A failure of one of the three is noted and the next is still made, and
the memory is counted in any case. So a row that could not be tombstoned is reported as
dropped, and followers drop it. A promotion, in the same loop, is counted and logged only
once its row is written.

`recycle_agrees_iff` says that the log, the rows and the count agree exactly when every
tombstone of the phase works; the other calls may fail as they like.
-/

namespace FusionMemory

open Lib

variable {F : Type}

/-- The ids of the rows that are live in `db` and tombstoned in `db'`. -/
def Db.buried (db db' : Db F) : List String :=
  (db.memoryItem.rows.map (·.id)).filter fun id =>
    db.tombstoneFlag id == some false && db'.tombstoneFlag id == some true

theorem Db.mem_buried {db db' : Db F} {id : String} :
    id ∈ db.buried db' ↔ db.tombstoneFlag id = some false ∧ db'.tombstoneFlag id = some true := by
  unfold buried
  rw [List.mem_filter]
  simp only [Bool.and_eq_true, beq_iff_eq]
  refine ⟨And.right, fun both => ⟨?_, both⟩⟩
  obtain ⟨m, found, -⟩ := Option.map_eq_some_iff.mp both.1
  exact List.mem_map.mpr ⟨m, Table.find?_mem found, Table.find?_key found⟩

theorem Db.buried_nodup (db db' : Db F) : (db.buried db').Nodup :=
  db.memoryItem.nodup.filter _

variable [FloatArith F]

/-! ### When the phase tombstones -/

/-- The time at which phase 1, at `t` when it comes to `m`, writes the row of `m`. -/
def recycleTick (t : Nat) (m : MemoryItem F) : Nat :=
  match parseU64 m.vectorRef with
  | none => t
  | some _ => t + 1

omit [FloatArith F] in
theorem recycleTick_eq (t : Nat) (m : MemoryItem F) :
    recycleTick t m = t + (parseU64 m.vectorRef).toList.length := by
  unfold recycleTick
  cases parseU64 m.vectorRef <;> rfl

/-- The time at which phase 1 is done with `m`. -/
def afterTick (env : Env F) (now t : Nat) (m : MemoryItem F) : Nat :=
  if shouldRecycle m now then recycleTick t m + 2
  else if mayPromote m now then
    -- A promotion that fails is not logged.
    match env.persistFault t (.putMemory (promoted m)) with
    | none => t + 2
    | some _ => t + 1
  else t

/-- The memories that phase 1 recycles, each with the time of its tombstone. -/
def recycledAt (env : Env F) (now : Nat) : Nat → List (MemoryItem F) → List (MemoryItem F × Nat)
  | _, [] => []
  | t, m :: rest =>
      if shouldRecycle m now then (m, recycleTick t m) :: recycledAt env now (afterTick env now t m) rest
      else recycledAt env now (afterTick env now t m) rest

/-- The tombstone of `m`, at its time, takes effect. -/
def Env.tombstones (env : Env F) (p : MemoryItem F × Nat) : Bool :=
  (env.persistFault p.2 (.tombstoneMemory p.1.id)).isNone

/-- No tombstone of the phase fails. -/
def TombstonesWork (now : Nat) (changed : List (MemoryItem F)) (w : World F) : Prop :=
  ∀ p ∈ recycledAt w.env now w.tick changed, w.env.tombstones p = true

/-! ### What the phase reports -/

/-- Phase 1 over a change set. -/
def phaseOne (now : Nat) (changed : List (MemoryItem F)) : EngineM F Tally :=
  changed.foldlM (recycleOrPromote now) ⟨0, 0, []⟩

/-- A `recycle` entry appended by the phase names a row that it tombstoned, and the phase
counts the rows that it tombstoned. -/
structure RecycleAgrees (now : Nat) (changed : List (MemoryItem F)) (w : World F) : Prop where
  logged : ∀ e ∈ (run (phaseOne now changed) w).2.db.wopLog.drop w.db.wopLog.length,
    e.op = "recycle" → e.payload ∈ w.db.buried (run (phaseOne now changed) w).2.db
  counted : ∀ tally, (run (phaseOne now changed) w).1 = .ok tally →
    tally.dropped = (w.db.buried (run (phaseOne now changed) w).2.db).length

/-! ### One memory -/

/-- What phase 1 over `changed` does from `w` to `w'`: the log grows, its `recycle` entries
name recycled memories, and the rows of those whose tombstone works are tombstoned. -/
structure Recycles (now : Nat) (changed : List (MemoryItem F)) (w w' : World F) : Prop where
  env : w'.env = w.env
  log : ∃ added, w'.db.wopLog = w.db.wopLog ++ added ∧ ∀ e ∈ added, e.op = "recycle" →
    ∃ p ∈ recycledAt w.env now w.tick changed, p.1.id = e.payload
  tombstoned : ∀ p ∈ recycledAt w.env now w.tick changed, w.env.tombstones p = true →
    w'.db.tombstoneFlag p.1.id = some true
  kept : ∀ id, (∀ p ∈ recycledAt w.env now w.tick changed, w.env.tombstones p = true →
    p.1.id ≠ id) → w'.db.tombstoneFlag id = w.db.tombstoneFlag id

omit [FloatArith F] in
/-- An entry is appended to the log or not. -/
theorem appendWop_log (w : World F) (op payload : String) («at» : Nat) :
    ∃ added, (w.execPersist (.appendWop op payload «at»)).2.wopLog = w.db.wopLog ++ added ∧
      ∀ e ∈ added, e.op = op ∧ e.payload = payload := by
  rcases w.execPersist_cases (.appendWop op payload «at») with done | ⟨e, n, failed⟩
  · rw [done]
    exact ⟨_, rfl, fun e mem => List.mem_singleton.mp mem ▸ ⟨rfl, rfl⟩⟩
  · rw [failed]
    exact ⟨[], (List.append_nil _).symm, fun e mem => (by cases mem)⟩

omit [FloatArith F] in
theorem Db.tombstoneFlag_congr {db db' : Db F} (rows : db'.memoryItem = db.memoryItem)
    (id : String) : db'.tombstoneFlag id = db.tombstoneFlag id := by
  unfold Db.tombstoneFlag Db.getMemory
  rw [rows]

omit [FloatArith F] in
/-- Tombstoning another row. -/
theorem Db.tombstoneFlag_tombstoneMemory_other (db : Db F) {id id' : String} (other : id ≠ id') :
    (db.tombstoneMemory id).tombstoneFlag id' = db.tombstoneFlag id' := by
  unfold tombstoneFlag tombstoneMemory
  rw [getMemory_setTombstone]
  simp only [if_neg other, Option.map_id']

/-- A memory that is recycled. -/
theorem run_recycle {now : Nat} {m : MemoryItem F} (forgotten : shouldRecycle m now = true)
    (w : World F) (acc : Tally) (live : w.db.tombstoneFlag m.id = some false) :
    ∃ acc' w', run (recycle now acc m) w = (.ok acc', w') ∧ Recycles now [m] w w' ∧
      w'.tick = recycleTick w.tick m + 2 ∧ acc'.dropped = acc.dropped + 1 := by
  obtain ⟨acc₁, w₁, dropped, count₁, env₁, db₁, tick₁, -⟩ := run_recycleVector w acc m
  obtain ⟨acc₂, w₂, buried, count₂, env₂, tick₂, -, db₂⟩ := run_recycleRow w₁ acc₁ m
  obtain ⟨added, log, named⟩ := appendWop_log w₂ "recycle" m.id now
  rw [← recycleTick_eq] at tick₁
  change w₂.db = if w₁.env.tombstones (m, w₁.tick) then _ else _ at db₂
  have only : recycledAt w.env now w.tick [m] = [(m, recycleTick w.tick m)] := by
    rw [recycledAt, if_pos forgotten]
    rfl
  have sameLog : w₂.db.wopLog = w.db.wopLog := by
    rw [db₂]
    split_ifs
    · exact congrArg (fun db => (db.tombstoneMemory m.id).wopLog) db₁
    · exact congrArg Db.wopLog db₁
  rw [env₁, tick₁, db₁] at db₂
  have flags : ∀ id, (w₂.execPersist (.appendWop "recycle" m.id now)).2.tombstoneFlag id =
      w₂.db.tombstoneFlag id :=
    fun id => Db.tombstoneFlag_congr (appendWop_rows w₂ "recycle" m.id now).2 id
  refine ⟨{ acc₂ with dropped := acc₂.dropped + 1 },
    w₂.withDb (w₂.execPersist (.appendWop "recycle" m.id now)).2, ?_, ?_, ?_, ?_⟩
  · unfold recycle
    rw [run_bind_ok dropped, run_bind_ok buried, run_persist_bind]
    rfl
  · constructor
    · exact env₂.trans env₁
    · refine ⟨added, by rw [← sameLog]; exact log, fun e mem _ => ⟨_, only ▸ List.mem_cons_self, ?_⟩⟩
      exact (named e mem).2.symm
    · intro p mem works
      rw [only, List.mem_singleton] at mem
      subst mem
      rw [World.withDb_db, flags, db₂, if_pos works, Db.tombstoneFlag_tombstoneMemory, live]
      rfl
    · intro id others
      rw [only] at others
      rw [World.withDb_db, flags, db₂]
      split_ifs with works
      · exact Db.tombstoneFlag_tombstoneMemory_other _ (others _ List.mem_cons_self works)
      · rfl
  · change w₂.tick + 1 = _
    rw [tick₂, tick₁]
  · change acc₂.dropped + 1 = _
    rw [count₂, count₁]

/-- A memory that is not recycled keeps its flag, promoted or not, and no entry of the log
is about a recycling. -/
theorem run_promoteOrSkip {now : Nat} {m : MemoryItem F} (remembered : shouldRecycle m now = false)
    (w : World F) (acc : Tally) (live : w.db.tombstoneFlag m.id = some false)
    (own : m.tombstone = false) :
    ∃ acc' w', run (if mayPromote m now then promote now acc m else pure acc) w = (.ok acc', w') ∧
      Recycles now [m] w w' ∧ w'.tick = afterTick w.env now w.tick m ∧ acc'.dropped = acc.dropped := by
  have none : recycledAt w.env now w.tick [m] = [] := by
    rw [recycledAt, remembered]
    rfl
  have quiet : ∀ w' : World F, w'.env = w.env →
      (∃ added, w'.db.wopLog = w.db.wopLog ++ added ∧ ∀ e ∈ added, e.op ≠ "recycle") →
      (∀ id, w'.db.tombstoneFlag id = w.db.tombstoneFlag id) → Recycles now [m] w w' := by
    rintro w' env ⟨added, log, other⟩ flags
    refine ⟨env, ⟨added, log, fun e mem op => absurd op (other e mem)⟩, fun p mem => ?_,
      fun id _ => flags id⟩
    rw [none] at mem
    cases mem
  have tick : afterTick w.env now w.tick m = if mayPromote m now then
      (match w.env.persistFault w.tick (.putMemory (promoted m)) with
      | .none => w.tick + 2
      | .some _ => w.tick + 1) else w.tick := if_neg (by rw [remembered]; decide)
  rw [tick]
  split_ifs with worth
  · unfold promote
    rw [run_persist_bind]
    rcases Option.eq_none_or_eq_some (w.env.persistFault w.tick (.putMemory (promoted m))) with
      works | ⟨fault, struck⟩
    · rw [World.execPersist_works works, works]
      let w₁ := w.withDb (w.db.putMemory (promoted m))
      obtain ⟨added, log, named⟩ := appendWop_log w₁ "promote" (m.id ++ "\tLong") now
      refine ⟨{ acc with promoted := acc.promoted + 1 },
        w₁.withDb (w₁.execPersist (.appendWop "promote" (m.id ++ "\tLong") now)).2, rfl, ?_, rfl, rfl⟩
      refine quiet _ rfl ⟨added, log, fun e mem op => ?_⟩ fun id => ?_
      · exact absurd ((named e mem).1.symm.trans op) (by decide)
      · refine (Db.tombstoneFlag_congr (appendWop_rows w₁ "promote" _ now).2 id).trans ?_
        change ((w.db.putMemory (promoted m)).getMemory id).map _ = _
        rw [Db.getMemory_putMemory]
        split_ifs with same
        · subst same
          exact (congrArg some own).trans live.symm
        · rfl
    · rw [World.execPersist_fault struck, struck]
      exact ⟨_, w.withDb w.db, rfl,
        quiet _ rfl ⟨[], (List.append_nil _).symm, fun e mem => (by cases mem)⟩ fun id => rfl, rfl, rfl⟩
  · exact ⟨acc, w, rfl,
      quiet w rfl ⟨[], (List.append_nil _).symm, fun e mem => (by cases mem)⟩ fun id => rfl, rfl, rfl⟩

theorem run_recycleOrPromote_at (now : Nat) {m : MemoryItem F} (w : World F) (acc : Tally)
    (live : w.db.tombstoneFlag m.id = some false) (own : m.tombstone = false) :
    ∃ acc' w', run (recycleOrPromote now acc m) w = (.ok acc', w') ∧ Recycles now [m] w w' ∧
      w'.tick = afterTick w.env now w.tick m ∧
      acc'.dropped = acc.dropped + (recycledAt w.env now w.tick [m]).length := by
  unfold recycleOrPromote
  cases forgotten : shouldRecycle m now with
  | true =>
      obtain ⟨acc', w', ran, recycles, tick, count⟩ := run_recycle forgotten w acc live
      refine ⟨acc', w', ran, recycles, ?_, ?_⟩
      · rw [tick, afterTick, if_pos forgotten]
      · rw [count, recycledAt, if_pos forgotten]
        rfl
  | false =>
      obtain ⟨acc', w', ran, recycles, tick, count⟩ := run_promoteOrSkip forgotten w acc live own
      refine ⟨acc', w', ran, recycles, tick, ?_⟩
      rw [count, recycledAt, forgotten]
      rfl

/-! ### The whole change set -/

theorem recycledAt_cons (env : Env F) (now t : Nat) (m : MemoryItem F) (rest : List (MemoryItem F)) :
    recycledAt env now t (m :: rest) =
      recycledAt env now t [m] ++ recycledAt env now (afterTick env now t m) rest := by
  rw [recycledAt, recycledAt]
  split_ifs
  · rfl
  · rfl

theorem recycledAt_listed {env : Env F} {now t : Nat} {changed : List (MemoryItem F)}
    {p : MemoryItem F × Nat} (mem : p ∈ recycledAt env now t changed) : p.1 ∈ changed := by
  induction changed generalizing t with
  | nil => cases mem
  | cons m rest ih =>
      rw [recycledAt] at mem
      split_ifs at mem
      · rcases List.mem_cons.mp mem with rfl | later
        · exact List.mem_cons_self
        · exact List.mem_cons_of_mem _ (ih later)
      · exact List.mem_cons_of_mem _ (ih mem)

theorem recycledAt_nodup (env : Env F) {now t : Nat} {changed : List (MemoryItem F)}
    (nodup : (changed.map (·.id)).Nodup) :
    ((recycledAt env now t changed).map fun p => p.1.id).Nodup := by
  induction changed generalizing t with
  | nil => exact List.nodup_nil
  | cons m rest ih =>
      rw [List.map_cons, List.nodup_cons] at nodup
      rw [recycledAt]
      split_ifs
      · rw [List.map_cons, List.nodup_cons]
        refine ⟨fun mem => ?_, ih nodup.2⟩
        obtain ⟨p, listed, same⟩ := List.mem_map.mp mem
        exact nodup.1 (same ▸ List.mem_map_of_mem (recycledAt_listed listed))
      · exact ih nodup.2

theorem Recycles.cons {now : Nat} {m : MemoryItem F} {rest : List (MemoryItem F)}
    {w w₁ w' : World F} (first : Recycles now [m] w w₁)
    (tick : w₁.tick = afterTick w.env now w.tick m) (last : Recycles now rest w₁ w') :
    Recycles now (m :: rest) w w' := by
  have split := recycledAt_cons w.env now w.tick m rest
  rw [← tick, ← first.env] at split
  obtain ⟨env, ⟨added, log, named⟩, tombstoned, kept⟩ := first
  obtain ⟨env', ⟨added', log', named'⟩, tombstoned', kept'⟩ := last
  rw [env] at named' tombstoned' kept' split
  refine ⟨env'.trans env, ⟨added ++ added', by rw [log', log, List.append_assoc], ?_⟩, ?_, ?_⟩
  · intro e mem op
    rw [split]
    rcases List.mem_append.mp mem with early | late
    · obtain ⟨p, listed, same⟩ := named e early op
      exact ⟨p, List.mem_append_left _ listed, same⟩
    · obtain ⟨p, listed, same⟩ := named' e late op
      exact ⟨p, List.mem_append_right _ listed, same⟩
  · intro p mem works
    rw [split] at mem
    rcases List.mem_append.mp mem with early | late
    · -- A later tombstone of the same row changes nothing.
      by_cases again : ∃ p' ∈ recycledAt w.env now w₁.tick rest,
          w.env.tombstones p' = true ∧ p'.1.id = p.1.id
      · obtain ⟨p', listed, works', same⟩ := again
        exact same ▸ tombstoned' p' listed works'
      · rw [kept' p.1.id fun p' listed works' same => again ⟨p', listed, works', same⟩]
        exact tombstoned p early works
    · exact tombstoned' p late works
  · intro id others
    rw [split] at others
    rw [kept' id fun p mem => others p (List.mem_append_right _ mem)]
    exact kept id fun p mem => others p (List.mem_append_left _ mem)

/-- Phase 1 over rows that are live. -/
theorem run_recycles (now : Nat) (changed : List (MemoryItem F)) :
    ∀ (w : World F) (acc : Tally), (changed.map (·.id)).Nodup →
      (∀ m ∈ changed, w.db.tombstoneFlag m.id = some false ∧ m.tombstone = false) →
      ∃ acc' w', run (changed.foldlM (recycleOrPromote now) acc) w = (.ok acc', w') ∧
        Recycles now changed w w' ∧
        acc'.dropped = acc.dropped + (recycledAt w.env now w.tick changed).length := by
  induction changed with
  | nil =>
      intro w acc _ _
      exact ⟨acc, w, rfl, ⟨rfl, ⟨[], (List.append_nil _).symm, fun e mem => (by cases mem)⟩,
        fun p mem => (by cases mem), fun id _ => rfl⟩, rfl⟩
  | cons m rest ih =>
      intro w acc nodup live
      rw [List.map_cons, List.nodup_cons] at nodup
      obtain ⟨row, own⟩ := live m List.mem_cons_self
      obtain ⟨acc₁, w₁, ran, first, tick, count⟩ := run_recycleOrPromote_at now w acc row own
      obtain ⟨acc', w', ran', last, count'⟩ := ih w₁ acc₁ nodup.2 fun m' mem => by
        obtain ⟨row', own'⟩ := live m' (List.mem_cons_of_mem _ mem)
        refine ⟨?_, own'⟩
        rw [first.kept m'.id fun p listed _ same => ?_]
        · exact row'
        · have isM : p.1 = m := List.mem_singleton.mp (recycledAt_listed listed)
          rw [isM] at same
          exact nodup.1 (same ▸ List.mem_map_of_mem mem)
      refine ⟨acc', w', ?_, first.cons tick last, ?_⟩
      · rw [List.foldlM_cons, run_bind_ok ran]
        exact ran'
      · rw [count', count, recycledAt_cons w.env now w.tick m rest, List.length_append, first.env, tick,
          Nat.add_assoc]

/-- The rows that the phase tombstones are those of the recycled memories whose tombstone
works. -/
theorem Recycles.buried_length {now : Nat} {changed : List (MemoryItem F)} {w w' : World F}
    (recycles : Recycles now changed w w') (nodup : (changed.map (·.id)).Nodup)
    (live : ∀ m ∈ changed, w.db.tombstoneFlag m.id = some false) :
    (w.db.buried w'.db).length =
      ((recycledAt w.env now w.tick changed).filter w.env.tombstones).length := by
  have ids : (((recycledAt w.env now w.tick changed).filter w.env.tombstones).map
      fun p => p.1.id).length = ((recycledAt w.env now w.tick changed).filter w.env.tombstones).length :=
    List.length_map _
  rw [← ids]
  refine ((List.perm_ext_iff_of_nodup (Db.buried_nodup _ _) ?_).mpr fun id => ?_).length_eq
  · exact (recycledAt_nodup w.env nodup).sublist (List.filter_sublist.map _)
  · rw [Db.mem_buried, List.mem_map]
    constructor
    · rintro ⟨before, after⟩
      by_contra missing
      rw [recycles.kept id fun p mem works same =>
        missing ⟨p, List.mem_filter.mpr ⟨mem, works⟩, same⟩, before] at after
      cases after
    · rintro ⟨p, mem, rfl⟩
      obtain ⟨listed, works⟩ := List.mem_filter.mp mem
      exact ⟨live p.1 (recycledAt_listed listed), recycles.tombstoned p listed works⟩

omit [FloatArith F] in
theorem tombstoneFlag_changeSet {db : Db F} {ns : NamespaceFilter} {m : MemoryItem F}
    (listed : m ∈ db.changeSet ns) : db.tombstoneFlag m.id = some false ∧ m.tombstone = false := by
  obtain ⟨stored, live⟩ := mem_changeSet listed
  refine ⟨?_, live⟩
  unfold Db.tombstoneFlag Db.getMemory
  rw [Table.find?_of_mem stored]
  exact congrArg some live

/-- What a run reports as dropped is the count of its phase 1. -/
theorem report_dropped [JsonText F] {eng : MemoryEngine} {ns : NamespaceFilter} {now : Nat}
    {changed : List (MemoryItem F)} {w w' : World F} {report : ConsolidationReport}
    (ran : run (consolidatePhases eng ns now changed) w = (.ok report, w')) :
    ∃ tally, (run (phaseOne now changed) w).1 = .ok tally ∧ report.dropped = tally.dropped := by
  unfold consolidatePhases at ran
  obtain ⟨tally, w₁, first, ran⟩ := run_bind_eq_ok ran
  obtain ⟨merged, w₂, -, ran⟩ := run_bind_eq_ok ran
  obtain ⟨summarized, w₃, -, ran⟩ := run_bind_eq_ok ran
  obtain ⟨reextracted, w₄, -, ran⟩ := run_bind_eq_ok ran
  obtain ⟨reconciled, w₅, -, ran⟩ := run_bind_eq_ok ran
  rw [run_nowMs_bind] at ran
  cases ran
  exact ⟨tally, congrArg Prod.fst first, rfl⟩

/-- In phase 1 over the change set of a database, the log entries, the rows and the count,
which is what the run reports, agree exactly when every tombstone works. -/
theorem recycle_agrees_iff [JsonText F] (eng : MemoryEngine) (ns : NamespaceFilter) (now : Nat)
    (w : World F) :
    (∀ report w', run (consolidatePhases eng ns now (w.db.changeSet ns)) w = (.ok report, w') →
      ∃ tally, (run (phaseOne now (w.db.changeSet ns)) w).1 = .ok tally ∧
        report.dropped = tally.dropped) ∧
    (RecycleAgrees now (w.db.changeSet ns) w ↔ TombstonesWork now (w.db.changeSet ns) w) := by
  refine ⟨fun report w' ran => report_dropped ran, ?_⟩
  have nodup := changeSet_nodup w.db ns
  obtain ⟨tally, w', ran, recycles, count⟩ := run_recycles now (w.db.changeSet ns) w ⟨0, 0, []⟩ nodup
    fun m listed => tombstoneFlag_changeSet listed
  have result : run (phaseOne now (w.db.changeSet ns)) w = (.ok tally, w') := ran
  have tombstoned := recycles.buried_length nodup fun m listed => (tombstoneFlag_changeSet listed).1
  rw [Nat.zero_add] at count
  constructor
  · intro agrees
    have counted := agrees.counted tally (congrArg Prod.fst result)
    rw [result, tombstoned, count] at counted
    exact List.length_filter_eq_length_iff.mp counted.symm
  · intro works
    refine ⟨fun e mem op => ?_, fun tally' ok => ?_⟩
    · obtain ⟨added, log, named⟩ := recycles.log
      rw [result] at mem ⊢
      rw [log, List.drop_left] at mem
      obtain ⟨p, listed, same⟩ := named e mem op
      rw [← same, Db.mem_buried]
      exact ⟨(tombstoneFlag_changeSet (recycledAt_listed listed)).1,
        recycles.tombstoned p listed (works p listed)⟩
    · rw [result] at ok ⊢
      cases ok
      rw [tombstoned, count]
      exact (List.length_filter_eq_length_iff.mpr works).symm

/-! ### A row that followers drop -/

/-- A note whose weight has gone, and which names no vector. -/
def forgottenMemory : MemoryItem Fixed :=
  { (MemoryItem.newTurnSkeleton "m" "ix" 0 "s" "" .episodic "note" 5 : MemoryItem Fixed) with
    weight := ⟨0⟩ }

/-- The database is busy when the row is to be tombstoned. -/
def forgottenWorld : World Fixed :=
  World.fresh (busyRow 0) (Db.empty.putMemory forgottenMemory) (.empty 0)

/-- The row stays live, and the log tells the followers that it was recycled. -/
theorem busy_recycle_logged : ¬ ∀ (ns : NamespaceFilter) (now : Nat) (w : World Fixed),
    RecycleAgrees now (w.db.changeSet ns) w := by
  intro always
  have agrees := always .default 10 forgottenWorld
  have logged : (run (phaseOne 10 (forgottenWorld.db.changeSet .default)) forgottenWorld).2.db.wopLog =
      [⟨1, "recycle", "m", 10⟩] := by decide +kernel
  have buried := agrees.logged ⟨1, "recycle", "m", 10⟩ (by rw [logged]; exact List.mem_cons_self) rfl
  exact absurd buried (by decide +kernel)

end FusionMemory
