import FusionMemory.Store.Local
import Mathlib.Data.Finmap
import Mathlib.Data.Finset.Sort

/-!
The vector store over its life (`fm-store/src/local.rs`).

A store is opened on a directory and then inserts, deletes, is compacted, is closed and
opened again. What it is for is a finite map from ids to vectors; the representation is
two trees, of which the tombstones hide vectors that are still there. `Represents` relates
the two, and `local_store_refines_map` says that no history tells them apart. The index
takes no part in this; what searches make of it is in `Store.Search`.
-/

namespace FusionMemory

open Lib

variable {F : Type}

namespace LocalStore

/-! ### Opening and compacting -/

/-- `rebuild_from_sled`: the index of the live vectors. -/
def rebuildFromSled (s : LocalStore F) : LocalStore F :=
  { s with hnsw := s.vectors.filter fun p => !s.isTombstoned p.1 }

/-- Tombstoned vectors go for good; their tombstones stay. -/
def compact (s : LocalStore F) : Nat × LocalStore F :=
  let removed := { s with vecTree := s.vecTree.delete fun p => s.isTombstoned p.1 }
  (s.tombTree.rows.length, removed.rebuildFromSled)

/-- `LocalStore::open` on a directory with these trees. -/
def «open» (vecTree : Table Nat (Nat × List F) Prod.fst) (tombTree : Table Nat Nat id) (dim : Nat) :
    Except StoreError (LocalStore F) :=
  if dim = 0 then .error (.dimension 1 0)
  else .ok (rebuildFromSled ⟨vecTree, tombTree, [], dim⟩)

/-- Dropping the store flushes the trees; opening the directory again finds them. -/
def reopen (s : LocalStore F) : Except StoreError (LocalStore F) :=
  LocalStore.open s.vecTree s.tombTree s.dim

end LocalStore

/-! ### Histories -/

inductive StoreAction (F : Type) where
  | insertVector (id : Nat) (vec : List F)
  | deleteVector (id : Nat)
  | compact
  | reopen

namespace LocalStore

/-- One action. An insertion that is refused leaves the store as it is. -/
def perform (s : LocalStore F) : StoreAction F → Except StoreError (LocalStore F)
  | .insertVector id vec => .ok (s.insertVector id vec).2
  | .deleteVector id => .ok (s.deleteVector id)
  | .compact => .ok s.compact.2
  | .reopen => s.reopen

/-- A history of a store that was opened on an empty directory. -/
def history (dim : Nat) (actions : List (StoreAction F)) : Except StoreError (LocalStore F) := do
  let s ← LocalStore.open .empty .empty dim
  actions.foldlM perform s

end LocalStore

/-! ### The map -/

/-- What a store is for: vectors by id. -/
abbrev VectorMap (F : Type) := Finmap fun _ : Nat => List F

namespace VectorMap

/-- A live id keeps its vector; a vector of another dimension is refused. -/
def perform (dim : Nat) (m : VectorMap F) : StoreAction F → VectorMap F
  | .insertVector id vec => if vec.length ≠ dim then m else if id ∈ m then m else m.insert id vec
  | .deleteVector id => m.erase id
  | .compact => m
  | .reopen => m

def history (dim : Nat) (actions : List (StoreAction F)) : VectorMap F :=
  actions.foldl (perform dim) ∅

end VectorMap

namespace LocalStore

variable {s s' : LocalStore F} {m : VectorMap F}

/-- A store stands for a map when they give every id the same vector. -/
def Represents (s : LocalStore F) (m : VectorMap F) : Prop := ∀ id, s.getVector id = m.lookup id

/-! ### What the actions leave -/

theorem isTombstoned_iff {id : Nat} : s.isTombstoned id = true ↔ id ∈ s.tombTree.rows := by
  unfold isTombstoned
  rw [Option.isSome_iff_exists]
  constructor
  · rintro ⟨t, found⟩
    exact Table.find?_key found ▸ Table.find?_mem found
  · exact fun mem => ⟨id, Table.find?_of_mem mem⟩

@[simp] theorem getVector_rebuildFromSled (s : LocalStore F) (id : Nat) :
    s.rebuildFromSled.getVector id = s.getVector id := rfl

/-- A compaction takes only what was hidden. -/
theorem getVector_compact (s : LocalStore F) (id : Nat) :
    s.compact.2.getVector id = s.getVector id := by
  change (if s.isTombstoned id then none else _) = if s.isTombstoned id then none else _
  cases live : s.isTombstoned id with
  | true => rfl
  | false =>
      simp only [Bool.false_eq_true, if_false]
      rw [show (s.compact.2).vecTree = s.vecTree.delete fun p => s.isTombstoned p.1 from rfl,
        Table.find?_delete]
      cases found : s.vecTree.find? id with
      | none => rfl
      | some p =>
          have key : p.1 = id := Table.find?_key found
          simp [Option.filter, key, live]

@[simp] theorem isTombstoned_insertWrites (s : LocalStore F) (id : Nat) (vec : List F) (id' : Nat) :
    (s.insertWrites id vec 2).isTombstoned id' = (!decide (id = id') && s.isTombstoned id') := by
  change ((s.tombTree.delete fun t => t == id).find? id').isSome =
    (!decide (id = id') && (s.tombTree.find? id').isSome)
  rw [Table.find?_delete]
  cases found : s.tombTree.find? id' with
  | none => simp
  | some t =>
      have key : t = id' := Table.find?_key found
      by_cases h : id = id'
      · simp [h, key]
      · simp [h, key, Ne.symm h]

theorem getVector_insertWrites (s : LocalStore F) (id : Nat) (vec : List F) (id' : Nat) :
    (s.insertWrites id vec 2).getVector id' = if id = id' then some vec else s.getVector id' := by
  unfold getVector
  rw [isTombstoned_insertWrites]
  by_cases h : id = id' <;> simp [h, insertWrites]

theorem alreadyPresent_iff {id : Nat} : s.alreadyPresent id = true ↔ s.getVector id ≠ none := by
  unfold alreadyPresent getVector
  cases s.isTombstoned id <;> cases s.vecTree.find? id <;> simp

/-- The vector of `id` after an insertion that is not refused. -/
theorem getVector_insertVector (s : LocalStore F) {vec : List F} (fits : vec.length = s.dim)
    (id id' : Nat) : (s.insertVector id vec).2.getVector id' =
      if id = id' ∧ s.getVector id = none then some vec else s.getVector id' := by
  unfold insertVector
  rw [if_neg (not_not.mpr fits)]
  split_ifs with present same same
  · exact absurd same.2 (alreadyPresent_iff.mp present)
  · rfl
  · exact (getVector_insertWrites s id vec id').trans (if_pos same.1)
  · have ne : id ≠ id' := by
      rintro rfl
      exact same ⟨rfl, not_not.mp (mt alreadyPresent_iff.mpr present)⟩
    exact (getVector_insertWrites s id vec id').trans (if_neg ne)

/-- The step lemma: an action keeps a store and its map together. -/
theorem Represents.perform (same : s.Represents m) (open_ : 0 < s.dim) (a : StoreAction F) :
    ∃ s', s.perform a = .ok s' ∧ s'.dim = s.dim ∧ s'.Represents (VectorMap.perform s.dim m a) := by
  cases a with
  | insertVector id vec =>
      refine ⟨_, rfl, by unfold LocalStore.insertVector; split_ifs <;> rfl, fun id' => ?_⟩
      change _ = Finmap.lookup id'
        (if vec.length ≠ s.dim then m else if id ∈ m then m else m.insert id vec)
      split_ifs with refused present
      · unfold LocalStore.insertVector
        rw [if_pos refused]
        exact same id'
      · have kept : s.getVector id ≠ none := by
          rw [same id]
          exact Option.isSome_iff_ne_none.mp (Finmap.lookup_isSome.mpr present)
        rw [getVector_insertVector s (not_not.mp refused), if_neg fun h => kept h.2]
        exact same id'
      · have absent : s.getVector id = none := (same id).trans (Finmap.lookup_eq_none.mpr present)
        rw [getVector_insertVector s (not_not.mp refused)]
        by_cases h : id = id'
        · subst h
          rw [if_pos ⟨rfl, absent⟩, Finmap.lookup_insert]
        · rw [if_neg fun both => h both.1, Finmap.lookup_insert_of_ne _ (Ne.symm h)]
          exact same id'
  | deleteVector id =>
      refine ⟨_, rfl, rfl, fun id' => ?_⟩
      rw [getVector_deleteVector]
      change _ = Finmap.lookup id' (m.erase id)
      by_cases h : id = id'
      · subst h
        rw [if_pos rfl, Finmap.lookup_erase]
      · rw [if_neg h, Finmap.lookup_erase_ne (Ne.symm h)]
        exact same id'
  | compact => exact ⟨_, rfl, rfl, fun id' => (s.getVector_compact id').trans (same id')⟩
  | reopen =>
      refine ⟨s.rebuildFromSled, ?_, rfl, same⟩
      exact if_neg (Nat.pos_iff_ne_zero.mp open_)

/-- The run lemma. -/
theorem Represents.foldlM (actions : List (StoreAction F)) (same : s.Represents m)
    (open_ : 0 < s.dim) : ∃ s', actions.foldlM LocalStore.perform s = .ok s' ∧ s'.dim = s.dim ∧
      s'.Represents (actions.foldl (VectorMap.perform s.dim) m) := by
  induction actions generalizing s m with
  | nil => exact ⟨s, rfl, rfl, same⟩
  | cons a rest ih =>
      obtain ⟨s₁, done, dim₁, same₁⟩ := same.perform open_ a
      obtain ⟨s', others, dim', same'⟩ := ih same₁ (dim₁ ▸ open_)
      refine ⟨s', ?_, dim'.trans dim₁, ?_⟩
      · rw [List.foldlM_cons, done]
        exact others
      · rw [List.foldl_cons, ← dim₁]
        exact dim₁ ▸ same'

theorem listVectorIds_nodup (s : LocalStore F) : s.listVectorIds.Nodup := by
  have ids : (s.vectors.map Prod.fst).Nodup :=
    ((List.perm_insertionSort _ _).map Prod.fst).nodup_iff.mpr s.vecTree.nodup
  exact ids.filter _

/-- The ids a store lists are those of the map, in order. -/
theorem Represents.listVectorIds (same : s.Represents m) : s.listVectorIds = m.keys.sort := by
  have sorted : s.listVectorIds.Pairwise (· ≤ ·) := by
    have keys : (s.vectors.map Prod.fst).Pairwise (· ≤ ·) := by
      rw [List.pairwise_map]
      exact List.pairwise_insertionSort (fun a b : Nat × List F => a.1 ≤ b.1) _
    exact keys.filter _
  have members : s.listVectorIds.toFinset = m.keys := by
    ext id
    rw [List.mem_toFinset, mem_listVectorIds, same id, Finmap.lookup_isSome, Finmap.mem_keys]
  rw [← members]
  exact ((List.toFinset_sort (· ≤ ·) s.listVectorIds_nodup).mpr sorted).symm

end LocalStore

/-- No history tells a store from its map: every lookup and every listing agrees. -/
theorem local_store_refines_map {dim : Nat} (opens : 0 < dim) (actions : List (StoreAction F)) :
    ∃ s, LocalStore.history dim actions = .ok s ∧
      (∀ id, s.getVector id = (VectorMap.history dim actions).lookup id) ∧
      s.listVectorIds = (VectorMap.history dim actions).keys.sort := by
  have first : (LocalStore.empty dim : LocalStore F).Represents ∅ := fun id => rfl
  obtain ⟨s, ran, -, same⟩ := first.foldlM actions opens
  refine ⟨s, ?_, same, same.listVectorIds⟩
  unfold LocalStore.history LocalStore.open
  rw [if_neg (Nat.pos_iff_ne_zero.mp opens)]
  exact ran

/-- A vector that is deleted, compacted away and inserted again is the new one. -/
theorem local_store_refines_map_reinserted : ∃ s : LocalStore Nat,
    LocalStore.history 1 [.insertVector 7 [1], .deleteVector 7, .compact, .insertVector 7 [2],
      .reopen] = .ok s ∧ s.getVector 7 = some [2] ∧ s.listVectorIds = [7] := by
  obtain ⟨s, ran, vectors, ids⟩ := local_store_refines_map (show 0 < 1 by decide)
    [.insertVector 7 [1], .deleteVector 7, .compact, .insertVector 7 [2], .reopen]
  refine ⟨s, ran, vectors 7, ids.trans ?_⟩
  exact Finset.sort_singleton _ 7

end FusionMemory
