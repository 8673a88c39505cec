import FusionMemory.Engine.Consolidate
import FusionMemory.Engine.Execution

/-!
What the phases of a consolidation run leave behind.

Phase 1 is described exactly, down to which of its writes took effect: `firstPhase`
is its outcome on the rows. For the other phases the frame of a request suffices:
`Request.Frame` lists what a request may do to rows outside a set of ids and to the
merge log, and `Only` lifts it to whole phases.
-/

namespace FusionMemory

open Lib

variable {F : Type} [FloatArith F]

/-! ### The rows a run sees -/

/-- The rows of `memory_item`. -/
abbrev Memories (F : Type) := Table String (MemoryItem F) MemoryItem.id

/-- The change set of a run that starts now. -/
def Db.changeSet (db : Db F) (ns : NamespaceFilter) : List (MemoryItem F) :=
  (db.listChangedSinceScoped db.lastConsolidateAt ns).toOption.getD []

/-- The live rows of a tenant that a filter shows, as they are listed. -/
def tenantRows (t : Memories F) (tenant : String) (ns : NamespaceFilter) : List (MemoryItem F) :=
  orderBy (fun m => asI64 m.createdTimestamp) (t.rows.filter fun m =>
    !m.tombstone && m.tenant == tenant && ns.visible m.namespace m.namespaceKey)

omit [FloatArith F] in
theorem listAllByTenantScoped_valid {ns : NamespaceFilter}
    (valid : isValidNamespace ns.namespace = true) (db : Db F) (tenant : String) :
    db.listAllByTenantScoped tenant ns = .ok (tenantRows db.memoryItem tenant ns) := by
  unfold Db.listAllByTenantScoped
  rw [Db.nsPredicate_valid valid]
  rfl

omit [FloatArith F] in
theorem mem_changeSet {db : Db F} {ns : NamespaceFilter} {m : MemoryItem F}
    (mem : m ∈ db.changeSet ns) : m ∈ db.memoryItem.rows ∧ m.tombstone = false := by
  unfold Db.changeSet at mem
  cases listed : db.listChangedSinceScoped db.lastConsolidateAt ns with
  | error e =>
      rw [listed] at mem
      cases mem
  | ok rows =>
      rw [listed] at mem
      obtain ⟨inDb, live, -⟩ := (Db.mem_listChangedSinceScoped listed).mp mem
      exact ⟨inDb, live⟩

omit [FloatArith F] in
theorem changeSet_valid {db : Db F} {ns : NamespaceFilter} {m : MemoryItem F}
    (listed : m ∈ db.changeSet ns) : isValidNamespace ns.namespace = true := by
  cases valid : isValidNamespace ns.namespace with
  | true => rfl
  | false =>
      unfold Db.changeSet Db.listChangedSinceScoped at listed
      rw [Db.nsPredicate_invalid valid] at listed
      cases listed

omit [FloatArith F] in
theorem changeSet_nodup (db : Db F) (ns : NamespaceFilter) :
    ((db.changeSet ns).map (·.id)).Nodup := by
  unfold Db.changeSet Db.listChangedSinceScoped
  cases Db.nsPredicate (F := F) ns with
  | error e => exact List.nodup_nil
  | ok pred =>
      refine ((orderBy_perm _ _).map _).nodup_iff.mpr ?_
      exact db.memoryItem.nodup.sublist (List.filter_sublist.map _)

/-! ### Phase 1, exactly -/

omit [FloatArith F] in
theorem MemoryItem.id_withTombstone (tombstone : Bool) (m : MemoryItem F) :
    ({ m with tombstone := tombstone } : MemoryItem F).id = m.id := rfl

def Memories.setTombstone (t : Memories F) (id : String) (tombstone : Bool) : Memories F :=
  t.update (fun m => m.id == id) (fun m => { m with tombstone := tombstone })
    (MemoryItem.id_withTombstone tombstone)

omit [FloatArith F] in
theorem Memories.mem_setTombstone {t : Memories F} {id : String} {b : Bool} {r : MemoryItem F} :
    r ∈ (Memories.setTombstone t id b).rows ↔
      ∃ r' ∈ t.rows, (if r'.id == id then { r' with tombstone := b } else r') = r := List.mem_map

omit [FloatArith F] in
theorem Memories.find?_setTombstone (t : Memories F) (id : String) (b : Bool) (i : String) :
    (Memories.setTombstone t id b).find? i =
      (t.find? i).map fun r => if r.id == id then { r with tombstone := b } else r :=
  Table.find?_update _ _ _ _ _

/-- The write that phase 1 makes for a row, if it makes one. -/
def firstWrite (now : Nat) (m : MemoryItem F) : PersistOp F :=
  if shouldRecycle m now then .tombstoneMemory m.id else .putMemory (promoted m)

/-- What phase 1 does to the rows for one row of the change set. -/
def firstStep (succeeds : Bool) (now : Nat) (t : Memories F) (m : MemoryItem F) : Memories F :=
  if !succeeds then t
  else if shouldRecycle m now then Memories.setTombstone t m.id true
  else if mayPromote m now then t.upsert (promoted m)
  else t

/-- The rows after phase 1, when the writes of exactly the rows in `succeeds` take effect. -/
def firstPhase (succeeds : String → Bool) (now : Nat) (changed : List (MemoryItem F))
    (t : Memories F) : Memories F :=
  changed.foldl (fun t m => firstStep (succeeds m.id) now t m) t

theorem firstPhase_never (now : Nat) (changed : List (MemoryItem F)) (t : Memories F) :
    firstPhase (fun _ => false) now changed t = t := by
  induction changed with
  | nil => rfl
  | cons m rest ih => exact ih

/-- What holds of all rows, and is kept by tombstoning and promoting, holds after phase 1. -/
theorem firstPhase_forall {P : MemoryItem F → Prop} {succeeds : String → Bool} {now : Nat}
    (buried : ∀ m, P m → P { m with tombstone := true }) (raised : ∀ m, P m → P (promoted m))
    {changed : List (MemoryItem F)} (listed : ∀ m ∈ changed, P m) :
    ∀ {t : Memories F}, (∀ r ∈ t.rows, P r) →
      ∀ r ∈ (firstPhase succeeds now changed t).rows, P r := by
  induction changed with
  | nil => exact fun rows => rows
  | cons m rest ih =>
      intro t rows
      refine ih (fun m' mem => listed m' (List.mem_cons_of_mem _ mem)) fun r mem => ?_
      change r ∈ (firstStep (succeeds m.id) now t m).rows at mem
      unfold firstStep at mem
      split_ifs at mem
      · exact rows r mem
      · obtain ⟨r', old, rfl⟩ := Memories.mem_setTombstone.mp mem
        split_ifs
        · exact buried r' (rows r' old)
        · exact rows r' old
      · rcases Table.mem_upsert.mp mem with rfl | ⟨old, -⟩
        · exact raised m (listed m List.mem_cons_self)
        · exact rows r old
      · exact rows r mem

/-- The row that phase 1 makes of a row of the change set. -/
def afterFirst (now : Nat) (m : MemoryItem F) : MemoryItem F :=
  if shouldRecycle m now then { m with tombstone := true }
  else if mayPromote m now then promoted m
  else m

/-- Phase 1 leaves the rows outside the change set alone. -/
theorem find?_firstPhase_other {succeeds : String → Bool} {now : Nat} {i : String}
    {changed : List (MemoryItem F)} (outside : ∀ m ∈ changed, m.id ≠ i) (t : Memories F) :
    (firstPhase succeeds now changed t).find? i = t.find? i := by
  induction changed generalizing t with
  | nil => rfl
  | cons m rest ih =>
      have other : m.id ≠ i := outside m List.mem_cons_self
      refine (ih (fun m' mem => outside m' (List.mem_cons_of_mem _ mem)) _).trans ?_
      change (firstStep (succeeds m.id) now t m).find? i = t.find? i
      unfold firstStep
      split_ifs
      · rfl
      · rw [Memories.find?_setTombstone]
        cases found : t.find? i with
        | none => rfl
        | some r =>
            have key : r.id = i := Table.find?_key found
            simp [key, Ne.symm other]
      · rw [Table.find?_upsert]
        exact if_neg other
      · rfl

/-- Without failures each row of the change set becomes what phase 1 makes of it. -/
theorem find?_firstPhase {now : Nat} {changed : List (MemoryItem F)}
    (nodup : (changed.map (·.id)).Nodup) {m : MemoryItem F} (listed : m ∈ changed) {t : Memories F}
    (stored : t.find? m.id = some m) :
    (firstPhase (fun _ => true) now changed t).find? m.id = some (afterFirst now m) := by
  obtain ⟨before, after, rfl⟩ := List.append_of_mem listed
  rw [List.map_append, List.map_cons, List.nodup_append] at nodup
  obtain ⟨-, nodup, apart⟩ := nodup
  rw [List.nodup_cons] at nodup
  have first : ∀ m' ∈ before, m'.id ≠ m.id := fun m' mem =>
    apart _ (List.mem_map_of_mem mem) _ List.mem_cons_self
  have last : ∀ m' ∈ after, m'.id ≠ m.id := fun m' mem same =>
    nodup.1 (same ▸ List.mem_map_of_mem mem)
  have split : firstPhase (fun _ => true) now (before ++ m :: after) t =
      firstPhase (fun _ => true) now after
        (firstStep true now (firstPhase (fun _ => true) now before t) m) := by
    unfold firstPhase
    rw [List.foldl_append, List.foldl_cons]
  have kept : (firstPhase (fun _ => true) now before t).find? m.id = some m :=
    (find?_firstPhase_other first t).trans stored
  rw [split, find?_firstPhase_other last]
  unfold firstStep afterFirst
  rw [if_neg (by decide)]
  split_ifs
  · rw [Memories.find?_setTombstone, kept]
    simp
  · rw [Table.find?_upsert]
    exact if_pos rfl
  · exact kept

/-- The vector that phase 1 deletes for a row. -/
def recycledVector (now : Nat) (m : MemoryItem F) : Option Nat :=
  if shouldRecycle m now then parseU64 m.vectorRef else none

def LocalStore.drop (s : LocalStore F) (succeeds : Bool) : Option Nat → LocalStore F
  | some v => if succeeds then s.deleteVector v else s
  | none => s

/-- What the calls of a phase keep when they leave the merge log alone. -/
structure World.SameMerges (w w' : World F) : Prop where
  env : w'.env = w.env
  mergeLog : w'.db.mergeLog = w.db.mergeLog

omit [FloatArith F] in
theorem World.SameMerges.trans {w w' w'' : World F} (first : w.SameMerges w')
    (last : w'.SameMerges w'') : w.SameMerges w'' :=
  ⟨last.env.trans first.env, last.mergeLog.trans first.mergeLog⟩

omit [FloatArith F] in
/-- A log entry changes no row, whether it is written or fails. -/
theorem appendWop_rows (w : World F) (op payload : String) («at» : Nat) :
    w.SameMerges (w.withDb (w.execPersist (.appendWop op payload «at»)).2) ∧
      (w.execPersist (.appendWop op payload «at»)).2.memoryItem = w.db.memoryItem := by
  rcases w.execPersist_cases (.appendWop op payload «at») with done | ⟨e, n, failed⟩
  · rw [done]
    exact ⟨⟨rfl, rfl⟩, rfl⟩
  · rw [failed]
    exact ⟨⟨rfl, rfl⟩, rfl⟩

/-- Whether the deletion of a vector, if there is one to delete, takes effect at `t`. -/
def Env.deletes (env : Env F) (t : Nat) : Option Nat → Bool
  | some v => (env.storeFault t (.deleteVector v)).isNone
  | none => true

/-- The vector of a recycled memory goes, or a failure is noted. -/
theorem run_recycleVector (w : World F) (acc : Tally) (m : MemoryItem F) :
    ∃ acc' w', run (recycleVector acc m) w = (.ok acc', w') ∧ acc'.dropped = acc.dropped ∧
      w'.env = w.env ∧ w'.db = w.db ∧
      w'.tick = w.tick + (parseU64 m.vectorRef).toList.length ∧
      w'.store =
        w.store.drop (w.env.deletes w.tick (parseU64 m.vectorRef)) (parseU64 m.vectorRef) := by
  unfold recycleVector
  cases parsed : parseU64 m.vectorRef with
  | none => exact ⟨acc, w, rfl, rfl, rfl, rfl, rfl, rfl⟩
  | some v =>
      dsimp only [Env.deletes]
      rw [run_store_bind]
      cases fault : w.env.storeFault w.tick (.deleteVector v) with
      | none =>
          rw [World.execStore_works fault]
          exact ⟨acc, _, rfl, rfl, rfl, rfl, rfl, rfl⟩
      | some f =>
          rw [World.execStore_fault fault]
          exact ⟨_, _, rfl, rfl, rfl, rfl, rfl, rfl⟩

/-- Its row is tombstoned, or a failure is noted. -/
theorem run_recycleRow (w : World F) (acc : Tally) (m : MemoryItem F) :
    ∃ acc' w', run (recycleRow acc m) w = (.ok acc', w') ∧ acc'.dropped = acc.dropped ∧
      w'.env = w.env ∧ w'.tick = w.tick + 1 ∧ w'.store = w.store ∧
      w'.db = if (w.env.persistFault w.tick (.tombstoneMemory m.id)).isNone then
        w.db.tombstoneMemory m.id else w.db := by
  unfold recycleRow
  rw [run_persist_bind]
  cases fault : w.env.persistFault w.tick (.tombstoneMemory m.id) with
  | none =>
      rw [World.execPersist_works fault]
      exact ⟨acc, _, rfl, rfl, rfl, rfl, rfl, rfl⟩
  | some f =>
      rw [World.execPersist_fault fault]
      exact ⟨_, _, rfl, rfl, rfl, rfl, rfl, rfl⟩

theorem run_promote (w : World F) (now : Nat) (acc : Tally) (m : MemoryItem F) :
    ∃ acc' w', run (promote now acc m) w = (.ok acc', w') ∧ w.SameMerges w' ∧ w'.store = w.store ∧
      w'.db.memoryItem =
        if (w.env.persistFault w.tick (.putMemory (promoted m))).isNone then
          w.db.memoryItem.upsert (promoted m)
        else w.db.memoryItem := by
  unfold promote
  rw [run_persist_bind]
  cases fault : w.env.persistFault w.tick (.putMemory (promoted m)) with
  | some f =>
      rw [World.execPersist_fault fault]
      exact ⟨_, _, rfl, ⟨rfl, rfl⟩, rfl, rfl⟩
  | none =>
      rw [World.execPersist_works fault]
      obtain ⟨same, rows⟩ := appendWop_rows (w.withDb (w.db.putMemory (promoted m))) "promote"
        (m.id ++ "\tLong") now
      exact ⟨_, _, rfl, ⟨same.env, same.mergeLog⟩, rfl, rows⟩

/-- One row of phase 1: the row changes as `firstStep` says, and its vector goes when it
is recycled. -/
theorem run_recycleOrPromote (w : World F) (now : Nat) (acc : Tally) (m : MemoryItem F) :
    ∃ acc' w' t t', run (recycleOrPromote now acc m) w = (.ok acc', w') ∧ w.SameMerges w' ∧
      w'.db.memoryItem =
        firstStep (w.env.persistFault t (firstWrite now m)).isNone now w.db.memoryItem m ∧
      w'.store = w.store.drop (w.env.deletes t' (recycledVector now m)) (recycledVector now m) := by
  unfold recycleOrPromote firstStep firstWrite recycledVector
  by_cases forgotten : shouldRecycle m now = true
  · simp only [if_pos forgotten]
    obtain ⟨acc₁, w₁, dropped, -, env₁, db₁, -, store₁⟩ := run_recycleVector w acc m
    obtain ⟨acc₂, w₂, buried, -, env₂, -, store₂, db₂⟩ := run_recycleRow w₁ acc₁ m
    obtain ⟨same₃, rows₃⟩ := appendWop_rows w₂ "recycle" m.id now
    have ran : run (recycle now acc m) w = (.ok { acc₂ with dropped := acc₂.dropped + 1 },
        w₂.withDb (w₂.execPersist (.appendWop "recycle" m.id now)).2) := by
      unfold recycle
      rw [run_bind_ok dropped, run_bind_ok buried, run_persist_bind]
      rfl
    refine ⟨_, _, w₁.tick, w.tick, ran, ⟨same₃.env.trans (env₂.trans env₁), ?_⟩, ?_, ?_⟩
    · refine same₃.mergeLog.trans ?_
      rw [db₂, db₁]
      split_ifs <;> rfl
    · change (w₂.execPersist _).2.memoryItem = _
      rw [rows₃, db₂, db₁, env₁]
      cases w.env.persistFault w₁.tick (.tombstoneMemory m.id) <;> rfl
    · exact store₂.trans store₁
  · simp only [if_neg forgotten]
    by_cases worth : mayPromote m now = true
    · simp only [if_pos worth]
      obtain ⟨acc₁, w₁, ran, same, store, rows⟩ := run_promote w now acc m
      refine ⟨acc₁, w₁, w.tick, 0, ran, same, ?_, store⟩
      rw [rows]
      cases w.env.persistFault w.tick (.putMemory (promoted m)) <;> rfl
    · simp only [if_neg worth]
      exact ⟨acc, w, 0, 0, rfl, ⟨rfl, rfl⟩, by simp, rfl⟩

/-- Phase 1 in an environment that fails the same writes at all times. -/
theorem run_firstPhase (succeeds : String → Bool) (deletes : Bool) (now : Nat)
    (changed : List (MemoryItem F)) :
    ∀ (w : World F) (acc : Tally),
      (∀ t, ∀ m ∈ changed, (w.env.persistFault t (firstWrite now m)).isNone = succeeds m.id) →
      (∀ t v, (w.env.storeFault t (.deleteVector v)).isNone = deletes) →
      ∃ acc' w', run (changed.foldlM (recycleOrPromote now) acc) w = (.ok acc', w') ∧
        w.SameMerges w' ∧ w'.db.memoryItem = firstPhase succeeds now changed w.db.memoryItem ∧
        w'.store = changed.foldl (fun s m => s.drop deletes (recycledVector now m)) w.store := by
  induction changed with
  | nil => exact fun w acc _ _ => ⟨acc, w, rfl, ⟨rfl, rfl⟩, rfl, rfl⟩
  | cons m rest ih =>
      intro w acc writes deletions
      obtain ⟨acc₁, w₁, t, t', first, same₁, rows₁, store₁⟩ := run_recycleOrPromote w now acc m
      rw [writes t m List.mem_cons_self] at rows₁
      have dropped : w₁.store = w.store.drop deletes (recycledVector now m) := by
        rw [store₁]
        cases recycledVector now m with
        | none => rfl
        | some v => exact congrArg (fun b => w.store.drop b (some v)) (deletions t' v)
      obtain ⟨acc₂, w₂, last, same₂, rows₂, store₂⟩ := ih w₁ acc₁
        (fun t m' mem => same₁.env ▸ writes t m' (List.mem_cons_of_mem _ mem))
        (fun t v => same₁.env ▸ deletions t v)
      refine ⟨acc₂, w₂, ?_, same₁.trans same₂, ?_, ?_⟩
      · rw [List.foldlM_cons, run_bind_ok first, last]
      · rw [rows₂, rows₁]
        rfl
      · rw [store₂, dropped]
        rfl

/-- Phase 1 in any environment: some of its writes took effect. -/
theorem run_firstPhase_any (now : Nat) (changed : List (MemoryItem F)) :
    (changed.map (·.id)).Nodup → ∀ (w : World F) (acc : Tally), ∃ succeeds acc' w',
      run (changed.foldlM (recycleOrPromote now) acc) w = (.ok acc', w') ∧ w.SameMerges w' ∧
        w'.db.memoryItem = firstPhase succeeds now changed w.db.memoryItem := by
  induction changed with
  | nil => exact fun _ w acc => ⟨fun _ => true, acc, w, rfl, ⟨rfl, rfl⟩, rfl⟩
  | cons m rest ih =>
      intro nodup w acc
      rw [List.map_cons, List.nodup_cons] at nodup
      obtain ⟨acc₁, w₁, t, -, first, same₁, rows₁, -⟩ := run_recycleOrPromote w now acc m
      obtain ⟨succeeds, acc₂, w₂, last, same₂, rows₂⟩ := ih nodup.2 w₁ acc₁
      -- The ids are distinct, so the outcomes of the rows are one function of the id.
      refine ⟨fun id => if id = m.id then (w.env.persistFault t (firstWrite now m)).isNone
        else succeeds id, acc₂, w₂, ?_, same₁.trans same₂, ?_⟩
      · rw [List.foldlM_cons, run_bind_ok first, last]
      · rw [rows₂, rows₁]
        unfold firstPhase
        rw [List.foldl_cons]
        dsimp only
        rw [if_pos rfl]
        refine (List.foldl_ext _ _ _ fun t' m' mem => ?_).symm
        have other : m'.id ≠ m.id := fun same => nodup.1 (same ▸ List.mem_map_of_mem mem)
        rw [if_neg other]

/-! ### The requests of the other phases -/

variable [JsonText F]

section Calls

variable {P : Request F → Prop}

omit [FloatArith F]

theorem only_persist {op : PersistOp F} (allowed : P (.persist op)) :
    Program.Only P (persist op) := Program.Only.perform allowed

theorem only_persistOrFail {op : PersistOp F} (allowed : P (.persist op)) :
    Program.Only P (persistOrFail op) :=
  Program.Only.bind (only_persist allowed) fun _ => Program.Only.ofExcept _

theorem only_store {op : StoreOp F} (allowed : P (.store op)) : Program.Only P (store op) :=
  Program.Only.bind (Program.Only.perform allowed) fun _ => trivial

theorem only_storeOrFail {op : StoreOp F} (allowed : P (.store op)) :
    Program.Only P (storeOrFail op) :=
  Program.Only.bind (only_store allowed) fun _ => Program.Only.ofExcept _

end Calls

omit [FloatArith F] [JsonText F] in
theorem isSemantic_live {m : MemoryItem F} (semantic : isSemantic m = true) :
    m.tombstone = false := by
  unfold isSemantic at semantic
  simp only [Bool.and_eq_true, Bool.not_eq_true'] at semantic
  exact semantic.2

/-- What phase 1 asks for. -/
inductive FirstRequest (changed : List (MemoryItem F)) : Request F → Prop where
  | delete (v : Nat) : FirstRequest changed (.store (.deleteVector v))
  | bury {m : MemoryItem F} : m ∈ changed →
      FirstRequest changed (.persist (.tombstoneMemory m.id))
  | raise {m : MemoryItem F} : m ∈ changed →
      FirstRequest changed (.persist (.putMemory (promoted m)))
  | log (op payload : String) («at» : Nat) :
      FirstRequest changed (.persist (.appendWop op payload «at»))

omit [FloatArith F] [JsonText F] in
theorem only_recycle {P : Request F → Prop} {m : MemoryItem F}
    (delete : ∀ v, P (.store (.deleteVector v))) (bury : P (.persist (.tombstoneMemory m.id)))
    (log : ∀ op payload «at», P (.persist (.appendWop op payload «at»))) (now : Nat) (acc : Tally) :
    Program.Only P (recycle now acc m) := by
  unfold recycle
  refine Program.Only.bind ?_ fun acc => Program.Only.bind ?_ fun acc =>
    Program.Only.bind (only_persist (log _ _ _)) fun _ => trivial
  · unfold recycleVector
    cases parseU64 m.vectorRef with
    | none => trivial
    | some vr =>
        refine Program.Only.bind (only_store (delete vr)) fun reply => ?_
        cases reply <;> trivial
  · refine Program.Only.bind (only_persist bury) fun reply => ?_
    cases reply <;> trivial

omit [FloatArith F] [JsonText F] in
theorem only_promote {P : Request F → Prop} {m : MemoryItem F}
    (raise : P (.persist (.putMemory (promoted m))))
    (log : ∀ op payload «at», P (.persist (.appendWop op payload «at»))) (now : Nat) (acc : Tally) :
    Program.Only P (promote now acc m) := by
  refine Program.Only.bind (only_persist raise) fun reply => ?_
  cases reply with
  | error e => trivial
  | ok _ => exact Program.Only.bind (only_persist (log _ _ _)) fun _ => trivial

omit [JsonText F] in
theorem only_recycleOrPromote {changed : List (MemoryItem F)} (now : Nat) {m : MemoryItem F}
    (listed : m ∈ changed) (acc : Tally) :
    Program.Only (FirstRequest changed) (recycleOrPromote now acc m) := by
  unfold recycleOrPromote
  split_ifs
  · exact only_recycle .delete (.bury listed) .log now acc
  · exact only_promote (.raise listed) .log now acc
  · trivial

omit [JsonText F] in
theorem mergeTarget_mem {all : List (MemoryItem F)} {src tgt : MemoryItem F} {vr : Nat}
    {hit : Nat × F} (target : mergeTarget all src vr hit = some tgt) : tgt ∈ all := by
  unfold mergeTarget byVecRef at target
  split_ifs at target
  have found := (Option.filter_eq_some_iff.mp target).1
  exact (List.mem_filter.mp (List.mem_of_getLast? found)).1

/-- The pairs that phase 2 may merge, among the rows it has listed. -/
def MergePair (all changed : List (MemoryItem F)) (src tgt : MemoryItem F) : Prop :=
  src ∈ changed ∧ isSemantic src = true ∧
    ∃ vr hit, parseU64 src.vectorRef = some vr ∧ mergeTarget all src vr hit = some tgt

/-- What phase 2 asks for after it has listed the rows. -/
inductive MergeRequest (all changed : List (MemoryItem F)) : Request F → Prop where
  | getVector (v : Nat) : MergeRequest all changed (.store (.getVector v))
  | search (vec : List F) : MergeRequest all changed (.store (.searchKnn vec MERGE_KNN))
  | bury {src : MemoryItem F} : src ∈ changed →
      MergeRequest all changed (.persist (.tombstoneMemory src.id))
  | delete (v : Nat) : MergeRequest all changed (.store (.deleteVector v))
  | record {src tgt : MemoryItem F} («at» : Nat) : MergePair all changed src tgt →
      MergeRequest all changed (.persist (.recordMerge src.id tgt.id MERGE_REASON «at»))
  | revive {src : MemoryItem F} : src ∈ changed → isSemantic src = true →
      MergeRequest all changed (.persist (.untombstoneMemory src.id))
  | insert (v : Nat) (vec : List F) : MergeRequest all changed (.store (.insertVector v vec))
  | log (op payload : String) («at» : Nat) :
      MergeRequest all changed (.persist (.appendWop op payload «at»))

omit [JsonText F] in
theorem only_mergeInto {all changed : List (MemoryItem F)} {«at» vr : Nat} {src : MemoryItem F}
    {vec : List F} (listed : src ∈ changed) (semantic : isSemantic src = true)
    (parsed : parseU64 src.vectorRef = some vr) (hits : List (Nat × F)) :
    ∀ acc, Program.Only (MergeRequest all changed) (mergeInto all «at» src vr vec hits acc) := by
  induction hits with
  | nil => exact fun _ => trivial
  | cons hit rest ih =>
      intro acc
      unfold mergeInto
      cases target : mergeTarget all src vr hit with
      | none => exact ih acc
      | some tgt =>
          refine ⟨.bury listed, fun reply => ?_⟩
          cases reply with
          | error e => exact ih _
          | ok _ =>
              refine ⟨.delete vr, fun _ => ⟨.record «at» ⟨listed, semantic, vr, hit, parsed, target⟩,
                fun reply => ?_⟩⟩
              cases reply with
              | error e => exact ⟨.revive listed semantic, fun _ => ⟨.insert vr vec, fun _ => trivial⟩⟩
              | ok _ => exact ⟨.log _ _ _, fun _ => trivial⟩

omit [JsonText F] in
theorem only_mergeSource {all changed : List (MemoryItem F)} {«at» : Nat} {src : MemoryItem F}
    (listed : src ∈ changed) (semantic : isSemantic src = true) (acc : Progress) :
    Program.Only (MergeRequest all changed) (mergeSource all «at» acc src) := by
  unfold mergeSource
  split_ifs
  · trivial
  · cases parsed : parseU64 src.vectorRef with
    | none => trivial
    | some vr =>
        refine ⟨.getVector vr, fun reply => ?_⟩
        rcases reply with e | (_ | vec)
        · trivial
        · trivial
        · change Program.Only _ (storeOrFail (.searchKnn vec MERGE_KNN) >>= fun knn =>
            mergeInto all «at» src vr vec knn acc)
          exact Program.Only.bind (only_storeOrFail (.search vec)) fun knn =>
            only_mergeInto listed semantic parsed knn acc

/-- What a run asks for after phase 3. -/
inductive LateRequest (eng : MemoryEngine) (changed : List (MemoryItem F)) : Request F → Prop where
  | nowMs : LateRequest eng changed .nowMs
  | extract (text : String) : LateRequest eng changed (.extract text)
  | put {m : MemoryItem F} (entities : List EntityNode) : eng.hasExtractor = true → m ∈ changed →
      m.entitiesPending = true →
      LateRequest eng changed (.persist (.putMemory (reextracted m entities)))
  | log (op payload : String) («at» : Nat) :
      LateRequest eng changed (.persist (.appendWop op payload «at»))
  | list (tenant : String) (ns : NamespaceFilter) :
      LateRequest eng changed (.persist (.listAllByTenantScoped tenant ns))
  | getVector (v : Nat) : LateRequest eng changed (.store (.getVector v))
  | report («at» : Nat) (id stage error : String) :
      LateRequest eng changed (.persist (.appendReconcile «at» id stage error))
  | listVectors : LateRequest eng changed (.store .listVectorIds)
  | delete (v : Nat) : LateRequest eng changed (.store (.deleteVector v))
  | listMerges : LateRequest eng changed (.persist .listMergeLog)
  | listTombstoned : LateRequest eng changed (.persist .listTombstoned)
  | purge (id : String) : LateRequest eng changed (.persist (.physicalDelete id))

theorem only_reextract {changed : List (MemoryItem F)} (eng : MemoryEngine) (now : Nat)
    {m : MemoryItem F} (listed : m ∈ changed) (acc : Progress) :
    Program.Only (LateRequest eng changed) (reextract eng now acc m) := by
  unfold reextract
  split_ifs with wanted
  · obtain ⟨pending, able⟩ : m.entitiesPending = true ∧ eng.hasExtractor = true := by
      simpa using wanted
    refine Program.Only.bind (Program.Only.perform (.extract _)) fun extracted => ?_
    split_ifs
    · refine Program.Only.bind (only_persist (.put extracted.entities able listed pending)) fun reply => ?_
      cases reply with
      | error e => trivial
      | ok _ => exact Program.Only.bind (only_persist (.log _ _ _)) fun _ => trivial
    · trivial
  · trivial

/-- The requests of the reconcile step that leave all rows alone. -/
structure AllowsScans («at» : Nat) (P : Request F → Prop) : Prop where
  report : ∀ id stage error, P (.persist (.appendReconcile «at» id stage error))
  list : ∀ tenant ns, P (.persist (.listAllByTenantScoped tenant ns))
  listMerges : P (.persist .listMergeLog)
  listTombstoned : P (.persist .listTombstoned)
  getVector : ∀ v, P (.store (.getVector v))
  delete : ∀ v, P (.store (.deleteVector v))
  listVectors : P (.store .listVectorIds)

/-- The two scans of the reconcile step. -/
def scanVectors (eng : MemoryEngine) («at» : Nat) (ns : NamespaceFilter) : EngineM F Unit := do
  let sqliteAll : List (MemoryItem F) ← persistOrFail (.listAllByTenantScoped eng.tenant ns)
  let sqliteVecRefs ← sqliteAll.foldlM (checkRef «at») []
  cleanOrphans «at» sqliteVecRefs

omit [FloatArith F] [JsonText F] in
theorem consolidateReconcile_eq (eng : MemoryEngine) («at» : Nat)
    (failures : List ConsolidationFailure) (ns : NamespaceFilter) :
    consolidateReconcile (F := F) eng «at» failures ns =
      (scanVectors eng «at» ns >>= fun _ => purgeTombstones «at» failures) := by
  unfold consolidateReconcile scanVectors
  simp only [bind_assoc]

section Scans

variable {P : Request F → Prop} {«at» : Nat} (allows : AllowsScans «at» P)

include allows

omit [FloatArith F] [JsonText F] in
theorem only_scanVectors (eng : MemoryEngine) (ns : NamespaceFilter) :
    Program.Only P (scanVectors eng «at» ns) := by
  have report : ∀ (id stage error : String),
      Program.Only P (persist (.appendReconcile «at» id stage error)) :=
    fun id stage error => only_persist (allows.report id stage error)
  refine Program.Only.bind (only_persistOrFail (allows.list _ _)) fun rows => ?_
  refine Program.Only.bind (Program.Only.foldlM rows (fun m _ refs => ?_) _) fun refs => ?_
  · unfold checkRef
    split
    · refine Program.Only.bind (only_store (allows.getVector _)) fun found => ?_
      split
      · trivial
      · exact Program.Only.bind (report _ _ _) fun _ => trivial
    · exact Program.Only.bind (report _ _ _) fun _ => trivial
  · refine Program.Only.bind (only_store allows.listVectors) fun listed =>
      Program.Only.foldlM _ (fun vid _ _ => ?_) _
    unfold cleanOrphan
    split_ifs
    · trivial
    · exact Program.Only.bind (report _ _ _) fun _ =>
        Program.Only.bind (only_store (allows.delete _)) fun _ => trivial

omit [FloatArith F] [JsonText F] in
theorem only_purgeTombstone {t : MemoryItem F} {sources : List String}
    (purge : t.id ∉ sources → ∀ v, parseU64 t.vectorRef = some v → P (.persist (.physicalDelete t.id)))
    (acc : Progress) : Program.Only P (purgeTombstone «at» sources acc t) := by
  unfold purgeTombstone
  split_ifs with spared
  · trivial
  · cases parsed : parseU64 t.vectorRef with
    | none => exact Program.Only.bind (only_persist (allows.report _ _ _)) fun _ => trivial
    | some v =>
        have allowed := purge (fun listed => spared (List.contains_iff_mem.mpr listed)) v parsed
        refine Program.Only.bind (only_store (allows.delete v)) fun gone => ?_
        cases gone with
        | error e => trivial
        | ok _ =>
            refine Program.Only.bind (only_persist allowed) fun reply => ?_
            cases reply <;> trivial

omit [FloatArith F] [JsonText F] in
theorem only_consolidateReconcile (purge : ∀ id, P (.persist (.physicalDelete id)))
    (eng : MemoryEngine) (failures : List ConsolidationFailure) (ns : NamespaceFilter) :
    Program.Only P (consolidateReconcile eng «at» failures ns) := by
  rw [consolidateReconcile_eq]
  refine Program.Only.bind (only_scanVectors allows eng ns) fun _ => ?_
  refine Program.Only.bind (only_persist allows.listMerges) fun logged => ?_
  refine Program.Only.bind (only_persistOrFail allows.listTombstoned) fun tombs => ?_
  exact Program.Only.foldlM tombs
    (fun t _ acc => only_purgeTombstone allows (fun _ _ _ => purge t.id) acc) _

end Scans

/-- The sources of the merges that `list_merge_log` would return now. -/
def World.readSources (w : World F) : List String :=
  ((w.execPersist .listMergeLog).1.toOption.getD []).map (·.sourceId)

omit [JsonText F] in
/-- What the scans keep, and each purge keeps that phase 5 may make, phase 5 keeps. -/
theorem keeps_consolidateReconcile {P : Request F → Prop} {«at» : Nat} (allows : AllowsScans «at» P)
    {G : World F → Prop} (step : ∀ q w, P q → G w → G (w.exec q).2)
    (purge : ∀ w, G w → ∀ t ∈ w.db.listTombstoned, t.id ∉ w.readSources →
      ∀ v, parseU64 t.vectorRef = some v → P (.persist (.physicalDelete t.id)))
    (eng : MemoryEngine) (failures : List ConsolidationFailure) (ns : NamespaceFilter) {w : World F}
    (holds : G w) : G (run (consolidateReconcile eng «at» failures ns) w).2 := by
  let R : World F → World F → Prop := fun w w' => G w → G w'
  have trans : ∀ {w w' w''}, R w w' → R w' w'' → R w w'' := fun first last h => last (first h)
  have keeps : ∀ {α : Type} {p : EngineM F α}, Program.Only P p → ∀ w, R w (run p w).2 :=
    fun only w => only.run (R := R) (fun _ h => h) trans (fun q w allowed => step q w allowed) w
  rw [consolidateReconcile_eq]
  refine run_bind_rel (R := R) trans (keeps (only_scanVectors allows eng ns) w)
    (fun _ w₁ _ holds₁ => ?_) holds
  have kept₁ : (w₁.execPersist .listMergeLog).2 = w₁.db := w₁.execPersist_isRead rfl
  have holds₂ : G (w₁.withDb w₁.db) := by
    have kept := step (.persist .listMergeLog) w₁ allows.listMerges holds₁
    change G (w₁.withDb (w₁.execPersist .listMergeLog).2) at kept
    rwa [kept₁] at kept
  unfold purgeTombstones
  rw [run_persist_bind, kept₁]
  obtain ⟨tombs, ran, read⟩ := run_read (w₁.withDb w₁.db) .listTombstoned rfl
  have holds₃ := keeps (only_persistOrFail allows.listTombstoned) _ holds₂
  rw [ran] at holds₃
  cases tombs with
  | error e =>
      rw [run_bind_error ran]
      exact holds₃
  | ok tombs =>
      obtain ⟨rfl⟩ := read tombs rfl
      rw [run_bind_ok ran]
      exact keeps (Program.Only.foldlM _
        (fun t mem acc => only_purgeTombstone allows (purge w₁ holds₁ t mem) acc) _) _ holds₃

omit [FloatArith F] [JsonText F] in
theorem lateRequest_allowsScans (eng : MemoryEngine) (changed : List (MemoryItem F)) («at» : Nat) :
    AllowsScans «at» (LateRequest eng changed) :=
  ⟨.report «at», .list, .listMerges, .listTombstoned, .getVector, .delete, .listVectors⟩

omit [FloatArith F] [JsonText F] in
theorem only_recordRun {P : Request F → Prop} {report : ConsolidationReport} {start : Nat}
    (reports : ∀ id stage error, P (.persist (.appendReconcile start id stage error)))
    (records : P (.persist (.recordConsolidation report start))) (ns : NamespaceFilter) :
    Program.Only P (recordRun (F := F) ns report start) := by
  unfold recordRun
  split_ifs
  · refine Program.Only.foldlM _ (fun f _ _ => ?_) _
    exact Program.Only.bind (only_persist (reports _ _ _)) fun _ => trivial
  · exact Program.Only.bind (only_persistOrFail records) fun _ => trivial

/-- Everything after phase 3. -/
def lateProgram (eng : MemoryEngine) (ns : NamespaceFilter) (start : Nat)
    (changed : List (MemoryItem F)) (tally : Tally) (merged summarized : Progress) :
    EngineM F ConsolidationReport := do
  let reextracted ← changed.foldlM (reextract eng start) ⟨0, summarized.failures⟩
  let reconciled ← consolidateReconcile eng start reextracted.failures ns
  let finish ← nowMs
  return { dropped := tally.dropped, promoted := tally.promoted, merged := merged.count,
           summarized := summarized.count, reextracted := reextracted.count,
           reconciled := reconciled.count, elapsedMs := finish - start,
           failures := reconciled.failures }

theorem only_lateProgram (eng : MemoryEngine) (ns : NamespaceFilter) (start : Nat)
    (changed : List (MemoryItem F)) (tally : Tally) (merged summarized : Progress) :
    Program.Only (LateRequest eng changed)
      (lateProgram eng ns start changed tally merged summarized) := by
  refine Program.Only.bind (Program.Only.foldlM changed (fun m listed acc =>
    only_reextract eng start listed acc) _) fun reextracted => ?_
  refine Program.Only.bind (only_consolidateReconcile (lateRequest_allowsScans eng changed start)
    .purge eng _ ns) fun reconciled => ?_
  exact Program.Only.bind (Program.Only.perform .nowMs) fun _ => trivial

theorem consolidatePhases_eq (eng : MemoryEngine) (ns : NamespaceFilter) (start : Nat)
    (changed : List (MemoryItem F)) :
    consolidatePhases eng ns start changed = (do
      let tally ← changed.foldlM (recycleOrPromote start) ⟨0, 0, []⟩
      let merged ← consolidateMerge eng changed start tally.failures ns
      let summarized ← consolidateSummarize eng changed start merged.failures ns
      lateProgram eng ns start changed tally merged summarized) := rfl

/-- What follows phase 2. -/
def afterMerge (eng : MemoryEngine) (ns : NamespaceFilter) (start : Nat)
    (changed : List (MemoryItem F)) (tally : Tally) (merged : Progress) :
    EngineM F ConsolidationReport := do
  let summarized ← consolidateSummarize eng changed start merged.failures ns
  let report ← lateProgram eng ns start changed tally merged summarized
  recordRun ns report start
  let _ ← persist (.appendAudit start "system" "consolidate" "saga" (consolidationDetail report))
  return report

/-- A run whose change set is known. -/
def consolidateChanged (eng : MemoryEngine) (ns : NamespaceFilter) (start : Nat)
    (changed : List (MemoryItem F)) : EngineM F ConsolidationReport := do
  let tally ← changed.foldlM (recycleOrPromote start) ⟨0, 0, []⟩
  let merged ← consolidateMerge eng changed start tally.failures ns
  afterMerge eng ns start changed tally merged

theorem consolidateImpl_eq (eng : MemoryEngine) (ns : NamespaceFilter) :
    consolidateImpl (F := F) eng ns = withLock .consolidate (do
      let start ← nowMs
      let since : Nat ← persistOrFail .lastConsolidateAt
      let changed : List (MemoryItem F) ← persistOrFail (.listChangedSinceScoped since ns)
      consolidateChanged eng ns start changed) := by
  unfold consolidateImpl consolidateChanged afterMerge
  simp only [consolidatePhases_eq, bind_assoc]

omit [FloatArith F] [JsonText F] in
theorem listChangedSinceScoped_valid {ns : NamespaceFilter}
    (valid : isValidNamespace ns.namespace = true) (db : Db F) :
    db.listChangedSinceScoped db.lastConsolidateAt ns = .ok (db.changeSet ns) := by
  unfold Db.changeSet Db.listChangedSinceScoped
  rw [Db.nsPredicate_valid valid]
  rfl

/-- Where nothing fails, a run goes through the phases over the change set of its database. -/
theorem run_consolidateImpl_works {w : World F} (works : w.env.NoFaults) {ns : NamespaceFilter}
    (valid : isValidNamespace ns.namespace = true) (eng : MemoryEngine) :
    ∃ w₁, w.Alike w₁ ∧
      (run (consolidateImpl eng ns) w).1 =
        (run (consolidateChanged eng ns (w.env.clock (w.tick + 1)) (w.db.changeSet ns)) w₁).1 ∧
      (run (consolidateImpl eng ns) w).2.db =
        (run (consolidateChanged eng ns (w.env.clock (w.tick + 1)) (w.db.changeSet ns)) w₁).2.db := by
  have listed := listChangedSinceScoped_valid valid w.db
  rw [consolidateImpl_eq, run_withLock, World.setHeld_db, World.next_db, run_nowMs_bind,
    World.setHeld_env, World.next_env]
  have alike : w.Alike (w.next.setHeld true .consolidate).next := ⟨rfl, rfl, rfl⟩
  generalize (w.next.setHeld true .consolidate).next = w₀ at alike
  rw [← alike.db] at listed ⊢
  rw [← alike.env] at works
  refine ⟨(w₀.withDb w₀.db).withDb w₀.db, ⟨alike.env, alike.db, alike.store⟩, ?_⟩
  rw [run_persistOrFail_bind, World.execPersist_eq works]
  dsimp only [PersistOp.exec]
  rw [run_persistOrFail_bind, World.execPersist_eq (w := World.withDb _ _) works]
  dsimp only [PersistOp.exec, World.withDb_db]
  rw [listed]
  exact ⟨rfl, rfl⟩

/-- A run either fails before it has a change set, and changes nothing, or goes through
the phases over the change set of its database. -/
theorem run_consolidateImpl (eng : MemoryEngine) (ns : NamespaceFilter) (w : World F) :
    (run (consolidateImpl eng ns) w).2.db = w.db ∨
      ∃ w₁, w.Alike w₁ ∧ isValidNamespace ns.namespace = true ∧
        (run (consolidateImpl eng ns) w).2.db =
          (run (consolidateChanged eng ns (w.env.clock (w.tick + 1)) (w.db.changeSet ns)) w₁).2.db := by
  rw [consolidateImpl_eq, run_withLock, World.setHeld_db, World.next_db, run_nowMs_bind,
    World.setHeld_env, World.next_env]
  have alike : w.Alike (w.next.setHeld true .consolidate).next := ⟨rfl, rfl, rfl⟩
  generalize (w.next.setHeld true .consolidate).next = w₀ at alike
  obtain ⟨since, ran, mark⟩ := run_read w₀ .lastConsolidateAt rfl
  cases since with
  | error e =>
      rw [run_bind_error ran]
      exact .inl alike.db
  | ok since =>
      obtain ⟨rfl⟩ := mark since rfl
      rw [run_bind_ok ran]
      obtain ⟨changed, ran, listed⟩ := run_read (w₀.withDb w₀.db)
        (.listChangedSinceScoped w₀.db.lastConsolidateAt ns) rfl
      cases changed with
      | error e =>
          rw [run_bind_error ran]
          exact .inl alike.db
      | ok changed =>
          have found : w₀.db.listChangedSinceScoped w₀.db.lastConsolidateAt ns = .ok changed :=
            listed changed rfl
          have theChanged : w.db.changeSet ns = changed := by
            unfold Db.changeSet
            rw [← alike.db, found]
            rfl
          rw [run_bind_ok ran, theChanged]
          refine .inr ⟨(w₀.withDb w₀.db).withDb w₀.db, ⟨alike.env, alike.db, alike.store⟩, ?_, rfl⟩
          cases valid : isValidNamespace ns.namespace with
          | true => rfl
          | false =>
              unfold Db.listChangedSinceScoped at found
              rw [Db.nsPredicate_invalid valid] at found
              cases found

end FusionMemory
