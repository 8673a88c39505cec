import FusionMemory.Engine.Watermark
import FusionMemory.Server.Locking
import FusionMemory.Server.Writes

/-!
What the calls of the handle never change of a row.

Calls store a row under an id that they were handed and write back rows that they have read,
with other entities, another tier or without the tombstone; everything else of a row is
written once. So however calls interleave and whichever storage calls fail, a memory keeps
its content, its owner, its vector and its age as long as it is there, and also when it was
purged and a late writer has put it back.
-/

namespace FusionMemory

open Lib

variable {F : Type} [FloatArith F] [JsonText F]

section Rows

variable {id : String} {v : MemoryItem F} {env : Env F} {pool : Tasks F} {i : Nat}
  {h : List (EngineEvent F)} {r : Request F} {next : r.Reply → EngineM F Unit}

/-- The environment hands `id` to nobody. -/
def Env.Withholds (env : Env F) (id : String) : Prop := ∀ t taken, (env.ulid t taken).1 ≠ id

/-- The columns of `id` are settled: the row, if there is one, and every copy of it have those
of `v`, and nobody will store another row under `id`. -/
structure Settled (id : String) (v : MemoryItem F) (pool : Tasks F) : Prop where
  row : ∀ m, pool.world.db.getMemory id = some m → m.fixed = v
  copies : ∀ e ∈ pool.events, ∀ m ∈ rowsRead e, m.id = id → m.fixed = v
  spent : ∀ (i : Nat) thread, pool.threads[i]? = some thread → ¬ Unspent id thread.history
  given : id ∈ pool.world.issued ∨ pool.world.env.Withholds id

/-- No row was stored under `id`, and at most one call has been handed it. -/
structure Unwritten (id : String) (pool : Tasks F) : Prop where
  row : pool.world.db.getMemory id = none
  copies : ∀ e ∈ pool.events, ∀ m ∈ rowsRead e, m.id ≠ id
  owner : ∀ (i j : Nat) t t', pool.threads[i]? = some t → pool.threads[j]? = some t' →
    Unspent id t.history → Unspent id t'.history → i = j
  issued : ∀ (i : Nat) thread, pool.threads[i]? = some thread → Unspent id thread.history →
    id ∈ pool.world.issued

omit [FloatArith F] [JsonText F] in
/-- The step leaves the fixed columns of a row as they are. -/
theorem onRow_fixed {op : PersistOp F} {row : Option (MemoryItem F)} {m : MemoryItem F}
    (after : op.onRow row = some m) (storeless : (Request.persist op).Storeless) :
    ∃ m₀, row = some m₀ ∧ m.fixed = m₀.fixed := by
  cases op with
  | putMemory item | putMemoryWithWop item _ _ _ => exact storeless.elim
  | tombstoneMemory id | untombstoneMemory id =>
      obtain ⟨m₀, there, rfl⟩ := Option.map_eq_some_iff.mp after
      exact ⟨m₀, there, rfl⟩
  | touchAccessBatch ids now =>
      obtain ⟨m₀, there, rfl⟩ := Option.map_eq_some_iff.mp after
      refine ⟨m₀, there, ?_⟩
      split_ifs
      · rfl
      · rfl
  | physicalDelete id => cases after
  | _ => exact ⟨m, after, rfl⟩

omit [JsonText F] in
/-- The row of `id` after a step is the row before it, in other columns perhaps, or was
stored by the step. -/
theorem fixed_exec {w : World F} {r : Request F} {id : String} {m : MemoryItem F}
    (after : (w.exec r).2.db.getMemory id = some m) :
    (∃ m₀, w.db.getMemory id = some m₀ ∧ m.fixed = m₀.fixed) ∨ m.id = id ∧
      (r = .persist (.putMemory m) ∨
        ∃ op payload «at», r = .persist (.putMemoryWithWop m op payload «at»)) := by
  rcases getMemory_exec_cases w r id with ⟨-, same⟩ | ⟨op, rfl, writes, ⟨-, same⟩ | ⟨-, done⟩⟩
  · exact .inl ⟨m, same.symm.trans after, rfl⟩
  · exact .inl ⟨m, same.symm.trans after, rfl⟩
  · rw [done] at after
    cases op with
    | putMemory item =>
        cases after
        exact .inr ⟨not_not.mp writes, .inl rfl⟩
    | putMemoryWithWop item op payload «at» =>
        cases after
        exact .inr ⟨not_not.mp writes, .inr ⟨op, payload, «at», rfl⟩⟩
    | _ => exact .inl (onRow_fixed after trivial)

omit [JsonText F] in
/-- An id that is pending after a step was pending before, or has just been handed out. -/
theorem pending_advance (found : pool.threads[i]? = some ⟨h, .request r next⟩) {j : Nat}
    {thread : Thread (engineSignature F) MemoryError Unit}
    (found' : (pool.advance (machine F) i h r next).threads[j]? = some thread)
    (pending : Unspent id thread.history) :
    (∃ t, pool.threads[j]? = some t ∧ Unspent id t.history) ∨ j = i ∧ r = .newUlid ∧
      (pool.world.env.ulid pool.world.tick pool.world.taken).1 = id := by
  rcases Pool.advance_threads_cases found found' with ⟨-, old⟩ | ⟨rfl, rfl⟩
  · exact .inl ⟨thread, old, pending⟩
  · rcases pending.of_cons with ⟨t, now⟩ | ⟨before, -⟩
    · injection now with _ request reply
      subst request
      exact .inr ⟨rfl, rfl, eq_of_heq reply⟩
    · exact .inl ⟨_, found, before⟩

omit [FloatArith F] [JsonText F] in
/-- A new ULID has not been issued. -/
theorem World.ulid_fresh (w : World F) : (w.env.ulid w.tick w.taken).1 ∉ w.issued :=
  fun old => (w.env.ulid w.tick w.taken).2.1 (List.mem_append_left _ old)

omit [JsonText F] in
theorem Settled.advance (settled : Settled id v pool)
    (found : pool.threads[i]? = some ⟨h, .request r next⟩) (allowed : Writes h r) :
    Settled id v (pool.advance (machine F) i h r next) := by
  have happened := Pool.history_happened found
  refine ⟨fun m after => ?_, fun e mem m read own => ?_, fun j thread found' pending => ?_, ?_⟩
  · rcases fixed_exec after with ⟨m₀, before, same⟩ | ⟨own, rfl | ⟨op, payload, «at», rfl⟩⟩
    · rw [same]
      exact settled.row m₀ before
    · obtain ⟨e, mem, m₀, read, same⟩ := allowed
      rw [same]
      exact settled.copies e (happened e mem) m₀ read ((MemoryItem.id_eq_of_fixed same).symm.trans own)
    · rw [← own] at settled
      exact absurd allowed.1 (settled.spent i _ found)
  · rcases (Pool.mem_events_advance found).mp mem with rfl | old
    · have stored := getMemory_rowsRead read
      rw [own] at stored
      exact settled.row m stored
    · exact settled.copies e old m read own
  · rcases pending_advance found found' pending with ⟨t, old, pending⟩ | ⟨-, -, now⟩
    · exact settled.spent j t old pending
    · rcases settled.given with taken | withheld
      · exact pool.world.ulid_fresh (now ▸ taken)
      · exact withheld _ _ now
  · rcases settled.given with taken | withheld
    · exact .inl (issued_exec pool.world r taken)
    · refine .inr ?_
      change (pool.world.exec r).2.env.Withholds id
      rwa [World.exec_env]

omit [JsonText F] in
/-- A step either stores the row of `id`, and settles its columns, or leaves it unwritten. -/
theorem Unwritten.advance (unwritten : Unwritten id pool)
    (found : pool.threads[i]? = some ⟨h, .request r next⟩) (allowed : Writes h r) :
    Unwritten id (pool.advance (machine F) i h r next) ∨
      ∃ v, Settled id v (pool.advance (machine F) i h r next) := by
  have happened := Pool.history_happened found
  have copies : ∀ e ∈ (pool.advance (machine F) i h r next).events, ∀ m ∈ rowsRead e, m.id ≠ id := by
    intro e mem m read own
    rcases (Pool.mem_events_advance found).mp mem with rfl | old
    · have stored := getMemory_rowsRead read
      rw [own, unwritten.row] at stored
      cases stored
    · exact unwritten.copies e old m read own
  by_cases stores : ∃ item op payload «at», item.id = id ∧
      r = .persist (.putMemoryWithWop item op payload «at»)
  · obtain ⟨item, op, payload, «at», own, rfl⟩ := stores
    have mine : Unspent id h := own ▸ allowed.1
    have spent : ∀ (j : Nat) thread, (pool.advance (machine F) i h
        (.persist (.putMemoryWithWop item op payload «at»)) next).threads[j]? = some thread →
          ¬ Unspent id thread.history := by
      intro j thread found' pending
      rcases Pool.advance_threads_cases found found' with ⟨other, old⟩ | ⟨rfl, rfl⟩
      · exact other (unwritten.owner j i thread _ old found pending mine)
      · rcases pending.of_cons with ⟨t, now⟩ | ⟨-, unstored⟩
        · injection now with _ request
          cases request
        · exact unstored item op payload «at» rfl own
    refine .inr ⟨item.fixed, ⟨fun m after => ?_, fun e mem m read own => ?_, spent, ?_⟩⟩
    · rcases fixed_exec after with ⟨m₀, before, -⟩ | ⟨-, same | ⟨op, payload, «at», same⟩⟩
      · rw [unwritten.row] at before
        cases before
      · cases same
      · cases same
        rfl
    · exact absurd own (copies e mem m read)
    · exact .inl (issued_exec pool.world _ (unwritten.issued i _ found mine))
  · refine .inl ⟨?_, copies, ?_, ?_⟩
    · cases after : (pool.advance (machine F) i h r next).world.db.getMemory id with
      | none => rfl
      | some m =>
          rcases fixed_exec after with ⟨m₀, before, -⟩ | ⟨own, rfl | ⟨op, payload, «at», rfl⟩⟩
          · rw [unwritten.row] at before
            cases before
          · obtain ⟨e, mem, m₀, read, same⟩ := allowed
            exact absurd ((MemoryItem.id_eq_of_fixed same).symm.trans own)
              (unwritten.copies e (happened e mem) m₀ read)
          · exact absurd ⟨m, op, payload, «at», own, rfl⟩ stores
    · intro j k t t' found₁ found₂ pending₁ pending₂
      rcases pending_advance found found₁ pending₁ with ⟨s, old, before⟩ | ⟨rfl, rfl, now⟩
      · rcases pending_advance found found₂ pending₂ with ⟨s', old', before'⟩ | ⟨rfl, rfl, now⟩
        · exact unwritten.owner j k s s' old old' before before'
        · exact absurd (now ▸ unwritten.issued j s old before) pool.world.ulid_fresh
      · rcases pending_advance found found₂ pending₂ with ⟨s', old', before'⟩ | ⟨rfl, -, -⟩
        · exact absurd (now ▸ unwritten.issued k s' old' before') pool.world.ulid_fresh
        · rfl
    · intro j thread found' pending
      rcases pending_advance found found' pending with ⟨t, old, before⟩ | ⟨rfl, rfl, now⟩
      · exact issued_exec pool.world r (unwritten.issued j t old before)
      · rw [← now]
        exact List.mem_cons_self

end Rows

section Runs

variable {eng : MemoryEngine} {w : World F} {calls : List EngineCall} {before after : Tasks F}

/-- The columns of a memory are settled as soon as it is there. -/
theorem settled_of_reaches (unique : ∀ m ∈ w.db.memoryItem.rows, w.env.Withholds m.id)
    (reach : Pool.Reaches (machine F) (fun _ _ => True) (Tasks.start eng w calls) before) (id : String) :
    Unwritten id before ∨ ∃ v, Settled id v before := by
  have quiet : ∀ e, e ∉ (Tasks.start eng w calls).events := by
    intro e happened
    have empty : (Tasks.start eng w calls).events = [] := Pool.events_start w _
    rw [empty] at happened
    cases happened
  have idle : ∀ (i : Nat) thread, (Tasks.start eng w calls).threads[i]? = some thread →
      ¬ Unspent id thread.history := by
    rintro i thread found ⟨t, before, since, same, -⟩
    rw [Pool.start_history found] at same
    cases since <;> cases same
  refine Pool.Reaches.invariant (I := fun pool => Unwritten id pool ∨ ∃ v, Settled id v pool)
    (Tasks.keepsProtocol (EngineCall.program_writes eng) w calls) ?_ ?_ reach
  · cases stored : w.db.getMemory id with
    | none =>
        exact .inl ⟨stored, fun e happened => absurd happened (quiet e),
          fun i j t t' found _ pending => absurd pending (idle i t found),
          fun i thread found pending => absurd pending (idle i thread found)⟩
    | some m =>
        have key : m.id = id := Table.find?_key stored
        refine .inr ⟨m.fixed, ⟨fun m' again => ?_, fun e happened => absurd happened (quiet e), idle, ?_⟩⟩
        · rw [Option.some.inj (stored.symm.trans again)]
        · exact .inr (key ▸ unique m (Table.find?_mem stored))
  · rintro pool i h r next (unwritten | ⟨v, settled⟩) found allowed _ _
    · exact unwritten.advance found allowed
    · exact .inr ⟨v, settled.advance found allowed⟩

/-- However the calls of the handle interleave and whichever storage calls fail: if the ids that are
handed out are fresh, a memory that is there at two points of a run has the same content, owner,
session, type, vector and creation time at both, whatever happened to it in between. -/
theorem rows_keep_identity (unique : ∀ m ∈ w.db.memoryItem.rows, w.env.Withholds m.id)
    (reach : Pool.Reaches (machine F) (fun _ _ => True) (Tasks.start eng w calls) before)
    (later : Pool.Reaches (machine F) (fun _ _ => True) before after) {id : String} {m m' : MemoryItem F}
    (found : before.world.db.getMemory id = some m)
    (found' : after.world.db.getMemory id = some m') : m'.fixed = m.fixed := by
  rcases settled_of_reaches unique reach id with unwritten | ⟨v, settled⟩
  · rw [unwritten.row] at found
    cases found
  rw [settled.row m found]
  have keeps : Pool.KeepsProtocol (fun _ => Writes) (fun _ _ _ => True) before :=
    reach.keepsProtocol (Tasks.keepsProtocol (EngineCall.program_writes eng) w calls)
  have kept : Settled id v after := Pool.Reaches.invariant (I := Settled id v) keeps settled
    (fun pool i h r next settled found allowed _ _ => settled.advance found allowed) later
  exact kept.row m' found'

end Runs

/-- A run of the saga that has just promoted the fact. -/
def factPromoted : Tasks Fixed :=
  Pool.runSchedule (machine Fixed) [0, 0, 0, 0, 0]
    (Tasks.start (plainEngine "a") shortFactWorld [.consolidateMemories])

theorem freshId_withholds {id : String} {c : Char} {rest : List Char} (first : id.toList = c :: rest)
    (other : c ≠ 'x') (time : Nat) : (Env.stopped time : Env Fixed).Withholds id := by
  intro t taken same
  have ids : (Env.freshId taken).toList = id.toList := congrArg String.toList same
  unfold Env.freshId at ids
  rw [first, String.toList_ofList, List.replicate_succ] at ids
  exact other (List.cons.inj ids).1.symm

theorem rows_keep_identity_promoted : ∃ m, factPromoted.world.db.getMemory "m1" = some m ∧
    m.tier = .long ∧ m.fixed = shortFact.fixed := by
  have reach : Pool.Reaches (machine Fixed) (fun _ _ => True)
      (Tasks.start (plainEngine "a") shortFactWorld [.consolidateMemories]) factPromoted :=
    Pool.reaches_runSchedule (fun _ _ => true) (fun _ _ _ _ _ _ _ => trivial) _ _ (by decide +kernel)
  have stored : shortFactWorld.db.getMemory "m1" = some shortFact := by decide +kernel
  have stored' : factPromoted.world.db.getMemory "m1" = some (promoted shortFact) := by decide +kernel
  have rows : shortFactWorld.db.memoryItem.rows = [shortFact] := by decide +kernel
  refine ⟨_, stored', rfl, rows_keep_identity (fun m mem => ?_) .start reach stored stored'⟩
  rw [rows] at mem
  obtain rfl := List.mem_singleton.mp mem
  have first : shortFact.id.toList = ['m', '1'] := by decide +kernel
  exact freshId_withholds first (by decide) 10

end FusionMemory
