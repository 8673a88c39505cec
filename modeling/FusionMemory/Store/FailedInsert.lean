import FusionMemory.Store.History

/-!
Insertions that fail (`insert_vector` of `fm-store/src/local.rs`).

`insert_vector` makes up to six calls that can fail, five on the trees and one on the lock
of the index, and its writes lie between them. `insertVectorM` is the function call by
call; `run_insertVectorM` says that a failing call stops it after the writes made so far,
and `failed_insert_hidden_iff` which failures nobody sees.
-/

namespace FusionMemory

open Lib

variable {F : Type}

/-- The calls of `insert_vector` that can fail. -/
inductive InsertCall where
  /-- `vec_tree.contains_key` -/
  | vecContains
  /-- `is_tombstoned`, of an id that has a vector -/
  | presentTombstoned
  /-- `is_tombstoned` -/
  | tombstoned
  /-- `tomb_tree.remove` -/
  | tombRemove
  /-- `vec_tree.insert` -/
  | vecInsert
  /-- `hnsw.read` -/
  | hnswRead
deriving DecidableEq, Repr

namespace InsertCall

/-- What a failing call becomes. -/
def error (msg : String) : InsertCall → StoreError
  | .hnswRead => .hnsw ("hnsw lock poisoned: " ++ msg)
  | _ => .sled msg

/-- The writes made before a call. -/
def writesBefore : InsertCall → Nat
  | .vecInsert => 1
  | .hnswRead => 2
  | _ => 0

end InsertCall

/-- Which calls fail, and with which message. -/
abbrev InsertFaults := InsertCall → Option String

/-- The single call `call` fails. -/
def InsertFaults.only (call : InsertCall) (msg : String) : InsertFaults :=
  fun c => if c = call then some msg else none

namespace LocalStore

/-- One call that can fail. -/
def attempt (faults : InsertFaults) (call : InsertCall) : EStateM StoreError (LocalStore F) Unit :=
  match faults call with
  | some msg => throw (call.error msg)
  | none => pure ()

/-- `insert_vector`, call by call. -/
def insertVectorM (faults : InsertFaults) (id : Nat) (vec : List F) :
    EStateM StoreError (LocalStore F) Unit := do
  let s ← get
  if vec.length ≠ s.dim then
    throw (.dimension s.dim vec.length)
  attempt faults .vecContains
  if (s.vecTree.find? id).isSome then
    attempt faults .presentTombstoned
    if !s.isTombstoned id then
      return ()
  attempt faults .tombstoned
  if s.isTombstoned id then
    attempt faults .tombRemove
    set { s with tombTree := s.tombTree.delete fun t => t == id }
  attempt faults .vecInsert
  modify fun s => { s with vecTree := s.vecTree.upsert (id, vec) }
  attempt faults .hnswRead
  modify fun s => { s with hnsw := s.hnsw ++ [(id, vec)] }

/-- Whether `insert_vector` of a vector of the right dimension makes the call. -/
def reaches (s : LocalStore F) (id : Nat) : InsertCall → Bool
  | .vecContains => true
  | .presentTombstoned => (s.vecTree.find? id).isSome
  | .tombRemove => s.isTombstoned id
  | _ => !s.alreadyPresent id

/-- An outcome with the state it leaves, as `EStateM` has it. -/
def outcome : Except StoreError Unit × LocalStore F → EStateM.Result StoreError (LocalStore F) Unit
  | (.ok a, s) => .ok a s
  | (.error e, s) => .error e s

variable {s s' : LocalStore F} {id : Nat} {vec : List F}

theorem delete_untombstoned (live : s.isTombstoned id = false) :
    (s.tombTree.delete fun t => t == id) = s.tombTree := by
  apply Table.ext
  change s.tombTree.rows.filter _ = _
  rw [List.filter_eq_self]
  rintro t mem
  have other : t ≠ id := by
    rintro rfl
    exact Bool.false_ne_true (live.symm.trans (isTombstoned_iff.mpr mem))
  simpa using other

theorem run_attempt (faults : InsertFaults) (call : InsertCall) (s : LocalStore F) :
    (attempt faults call).run s = match faults call with
      | some msg => .error (call.error msg) s
      | none => .ok () s := by
  unfold attempt
  cases faults call <;> rfl

/-- A single failure: a call that is made stops the insertion after the writes before it. -/
theorem run_insertVectorM (s : LocalStore F) (id : Nat) (vec : List F) (call : InsertCall)
    (msg : String) : (insertVectorM (.only call msg) id vec).run s = outcome (
      if s.reaches id call then s.insertVectorFails id vec (call.error msg) call.writesBefore
      else s.insertVector id vec) := by
  unfold insertVectorM insertVectorFails insertVector reaches alreadyPresent
  by_cases fits : vec.length = s.dim
  · rcases live : s.isTombstoned id <;> rcases held : (s.vecTree.find? id).isSome <;> cases call <;>
      simp [run_attempt, InsertFaults.only, outcome, live, held, fits, insertWrites,
        InsertCall.writesBefore, delete_untombstoned]
  · simp [outcome, fits]

/-- With no failure it is `insertVector`. -/
theorem run_insertVectorM_none (s : LocalStore F) (id : Nat) (vec : List F) :
    (insertVectorM (fun _ => none) id vec).run s = outcome (s.insertVector id vec) := by
  unfold insertVectorM insertVector alreadyPresent
  by_cases fits : vec.length = s.dim
  · rcases live : s.isTombstoned id <;> rcases held : (s.vecTree.find? id).isSome <;>
      simp [run_attempt, outcome, live, held, fits, insertWrites, delete_untombstoned]
  · simp [outcome, fits]

/-- The state after a failure. -/
theorem failed_insert_state {call : InsertCall} {msg : String} {e : StoreError}
    (failed : (insertVectorM (.only call msg) id vec).run s = .error e s') :
    (s' = s ∧ (vec.length ≠ s.dim ∨ call ≠ .hnswRead ∧ call ≠ .vecInsert)) ∨
      (vec.length = s.dim ∧ s.alreadyPresent id = false ∧
        s' = s.insertWrites id vec call.writesBefore) := by
  rw [run_insertVectorM] at failed
  unfold insertVectorFails insertVector at failed
  by_cases fits : vec.length = s.dim
  · cases present : s.alreadyPresent id with
    | false =>
        simp only [fits, present, ne_eq, not_true_eq_false, if_false, Bool.false_eq_true] at failed
        split_ifs at failed with reached
        · cases failed
          exact .inr ⟨fits, rfl, rfl⟩
        · cases failed
    | true =>
        simp only [fits, present, ne_eq, not_true_eq_false, if_false, if_true] at failed
        split_ifs at failed with reached
        · cases failed
          refine .inl ⟨rfl, .inr ⟨?_, ?_⟩⟩ <;> rintro rfl <;> simp [reaches, present] at reached
        · cases failed
  · simp only [fits, ne_eq, not_false_eq_true, if_true, ite_self] at failed
    cases failed
    exact .inl ⟨rfl, .inl fits⟩

/-- Without its tombstone the old vector of an id is back; where the tree has none, nothing
is. -/
theorem getVector_insertWrites_one (s : LocalStore F) (id : Nat) (vec : List F) :
    (s.insertWrites id vec 1).getVector id = (s.vecTree.find? id).map Prod.snd := by
  have cleared : (s.insertWrites id vec 1).isTombstoned id = false := by
    change ((s.tombTree.delete fun t => t == id).find? id).isSome = false
    rw [Table.find?_delete]
    cases found : s.tombTree.find? id with
    | none => rfl
    | some t =>
        have key : t = id := Table.find?_key found
        simp [key]
  exact if_neg (by simp [cleared])

/-- The writes of an insertion are about its id alone. -/
theorem getVector_insertWrites_of_ne (s : LocalStore F) (vec : List F) (writes : Nat) {id' : Nat}
    (other : id ≠ id') : (s.insertWrites id vec writes).getVector id' = s.getVector id' := by
  match writes with
  | 0 => rfl
  | 1 =>
      have tombs : (s.insertWrites id vec 1).isTombstoned id' = s.isTombstoned id' := by
        change ((s.tombTree.delete fun t => t == id).find? id').isSome = _
        rw [Table.find?_delete]
        unfold isTombstoned
        cases found : s.tombTree.find? id' with
        | none => rfl
        | some t =>
            have key : t = id' := Table.find?_key found
            simp [key, Ne.symm other]
      unfold getVector
      rw [tombs]
      rfl
  | _ + 2 => exact (getVector_insertWrites s id vec id').trans (if_neg other)

/-- A vector that the tree has and nobody sees is tombstoned. -/
theorem isTombstoned_of_held {p : Nat × List F} (absent : s.getVector id = none)
    (held : s.vecTree.find? id = some p) : s.isTombstoned id = true := by
  unfold getVector at absent
  split_ifs at absent with dead
  · exact dead
  · rw [held] at absent
    cases absent

/-- The writes of an insertion that nobody sees. -/
theorem insertWrites_hidden_iff (vec : List F) (absent : s.getVector id = none) (writes : Nat) :
    (∀ id', (s.insertWrites id vec writes).getVector id' = s.getVector id') ↔
      writes = 0 ∨ writes = 1 ∧
        ¬ (s.isTombstoned id = true ∧ (s.vecTree.find? id).isSome = true) := by
  have here : (∀ id', (s.insertWrites id vec writes).getVector id' = s.getVector id') ↔
      (s.insertWrites id vec writes).getVector id = none := by
    refine ⟨fun same => (same id).trans absent, fun same id' => ?_⟩
    by_cases other : id = id'
    · exact other ▸ same.trans absent.symm
    · exact getVector_insertWrites_of_ne s vec writes other
  rw [here]
  match writes with
  | 0 => simpa [insertWrites] using absent
  | 1 =>
      rw [getVector_insertWrites_one, Option.map_eq_none_iff]
      cases held : s.vecTree.find? id with
      | none => simp
      | some p => simp [isTombstoned_of_held absent held]
  | n + 2 =>
      have written : (s.insertWrites id vec (n + 2)).getVector id = some vec :=
        (getVector_insertWrites s id vec id).trans (if_pos rfl)
      simp [written]

/-- A tombstone with no vector behind it can go unseen. -/
theorem listVectorIds_insertWrites_one (absent : s.vecTree.find? id = none) :
    (s.insertWrites id vec 1).listVectorIds = s.listVectorIds := by
  refine List.filter_congr fun id' mem => ?_
  have other : id' ≠ id := by
    rintro rfl
    obtain ⟨p, held, key⟩ := List.mem_map.mp mem
    exact Table.find?_eq_none_iff.mp absent p ((List.mem_insertionSort _).mp held) key
  change (!((s.tombTree.delete fun t => t == id).find? id').isSome) = !(s.tombTree.find? id').isSome
  rw [Table.find?_delete]
  cases found : s.tombTree.find? id' with
  | none => rfl
  | some t =>
      have key : t = id' := Table.find?_key found
      simp [key, other]

end LocalStore

/-- A failed insertion shows nothing of itself exactly when it fails before its first write,
or at the write of the vector with no older vector behind a tombstone. -/
theorem failed_insert_hidden_iff {s s' : LocalStore F} {id : Nat} {vec : List F}
    {call : InsertCall} {msg : String} {e : StoreError}
    (failed : (LocalStore.insertVectorM (.only call msg) id vec).run s = .error e s') :
    (s'.getVector id = s.getVector id ∧ s'.listVectorIds = s.listVectorIds) ↔
      vec.length ≠ s.dim ∨ call ≠ .hnswRead ∧ (call = .vecInsert →
        ¬ (s.isTombstoned id = true ∧ (s.vecTree.find? id).isSome = true)) := by
  rcases LocalStore.failed_insert_state failed with ⟨rfl, early⟩ | ⟨fits, absent, rfl⟩
  · refine iff_of_true ⟨rfl, rfl⟩ (early.imp_right fun ⟨lock, write⟩ => ⟨lock, fun same => ?_⟩)
    exact absurd same write
  · have gone : s.getVector id = none :=
      not_not.mp (mt LocalStore.alreadyPresent_iff.mpr (by simp [absent]))
    rw [gone, or_iff_right (not_not.mpr fits)]
    cases call with
    | hnswRead =>
        have written : (s.insertWrites id vec 2).getVector id = some vec := by
          rw [LocalStore.getVector_insertWrites, if_pos rfl]
        refine iff_of_false (fun same => ?_) (fun kept => kept.1 rfl)
        exact Option.some_ne_none vec (written.symm.trans same.1)
    | vecInsert =>
        change (s.insertWrites id vec 1).getVector id = none ∧ _ ↔ _
        rw [LocalStore.getVector_insertWrites_one]
        cases held : s.vecTree.find? id with
        | none => simp [LocalStore.listVectorIds_insertWrites_one held, InsertCall.writesBefore]
        | some p => simp [LocalStore.isTombstoned_of_held gone held]
    | _ =>
        exact iff_of_true ⟨gone, rfl⟩
          ⟨fun lock => (by cases lock), fun write => (by cases write)⟩

/-- A store with the vectors of two ids, the second one deleted. -/
def oneLiveOneDead : LocalStore Nat :=
  (((LocalStore.empty 1).insertVector 3 [1]).2.insertVector 5 [2]).2.deleteVector 5

/-- Beside a live vector and a tombstoned one, the first vector of a third id fails at its write
and the second vector of the tombstoned id at the removal of the tombstone. -/
theorem failed_insert_hidden_beside : (∃ (e : StoreError) (s' : LocalStore Nat),
    (LocalStore.insertVectorM (.only .vecInsert "disk full") 7 [4]).run oneLiveOneDead =
        .error e s' ∧ s'.getVector 7 = none ∧ s'.listVectorIds = [3]) ∧
    ∃ (e : StoreError) (s' : LocalStore Nat),
      (LocalStore.insertVectorM (.only .tombRemove "disk full") 5 [6]).run oneLiveOneDead =
        .error e s' ∧ s'.getVector 5 = none ∧ s'.listVectorIds = [3] := by
  have listed : oneLiveOneDead.listVectorIds = [3] := by decide
  have fresh : (LocalStore.insertVectorM (.only .vecInsert "disk full") 7 [4]).run
      oneLiveOneDead = .error _ _ := rfl
  have dead : (LocalStore.insertVectorM (.only .tombRemove "disk full") 5 [6]).run
      oneLiveOneDead = .error _ _ := rfl
  obtain ⟨unread, unlisted⟩ :=
    (failed_insert_hidden_iff fresh).mpr (.inr ⟨nofun, fun _ => by decide⟩)
  obtain ⟨unread', unlisted'⟩ := (failed_insert_hidden_iff dead).mpr (.inr ⟨nofun, nofun⟩)
  exact ⟨⟨_, _, fresh, unread, unlisted.trans listed⟩, _, _, dead, unread', unlisted'.trans listed⟩

/-- The deleted vector is back when the write of its successor fails. -/
theorem failed_insert_revives : ¬ ∀ (s s' : LocalStore Nat) (id : Nat) (vec : List Nat)
    (call : InsertCall) (msg : String) (e : StoreError),
      (LocalStore.insertVectorM (.only call msg) id vec).run s = .error e s' →
        s'.getVector id = s.getVector id ∧ s'.listVectorIds = s.listVectorIds := by
  intro always
  have revived := (always (((LocalStore.empty 1).insertVector 7 [1]).2.deleteVector 7) _ 7 [2]
    .vecInsert "disk full" _ rfl).1
  exact absurd revived (by decide)

end FusionMemory
