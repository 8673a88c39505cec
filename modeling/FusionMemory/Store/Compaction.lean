import FusionMemory.Store.History

/-!
What a compaction reports (`compact` of `fm-store/src/local.rs`).

The count comes from the tombstones, the removals are made in the tree of the vectors,
and no compaction takes a tombstone away. `isTombstoned_foldlM` says which tombstones
stand after a history without deletions, `compact_removed_iff` when one count is that of
the vectors removed, and `compact_reports_iff` puts two compactions together.
-/

namespace FusionMemory

open Lib

variable {F : Type}

namespace LocalStore

variable {s s' : LocalStore F}

/-- The number of vectors in the tree of `s` that are gone from the tree of `s'`. -/
def physicallyRemoved (s s' : LocalStore F) : Nat :=
  (s.vecTree.rows.filter fun p => (s'.vecTree.find? p.1).isNone).length

/-! ### Tombstones -/

/-- An insertion of the right dimension takes the tombstone of its id. -/
theorem isTombstoned_insertVector (s : LocalStore F) (id : Nat) (vec : List F) (id' : Nat) :
    (s.insertVector id vec).2.isTombstoned id' =
      (!decide (vec.length = s.dim ∧ id = id') && s.isTombstoned id') := by
  unfold insertVector
  split_ifs with refused present
  · simp [refused]
  · have live : s.isTombstoned id = false := by
      unfold alreadyPresent at present
      rw [Bool.and_eq_true] at present
      simpa using present.2
    by_cases same : id = id'
    · subst same
      simp [live]
    · simp [same]
  · change (s.insertWrites id vec 2).isTombstoned id' = _
    rw [isTombstoned_insertWrites, not_not.mp refused]
    simp

theorem dim_insertVector (s : LocalStore F) (id : Nat) (vec : List F) :
    (s.insertVector id vec).2.dim = s.dim := by
  unfold insertVector
  split_ifs <;> rfl

/-- Which tombstones an action other than a deletion leaves. -/
theorem isTombstoned_perform {a : StoreAction F} (keeps : ∀ id, a ≠ .deleteVector id)
    (done : s.perform a = .ok s') (id : Nat) : s'.isTombstoned id = true ↔
      s.isTombstoned id = true ∧ ∀ vec, vec.length = s.dim → a ≠ .insertVector id vec := by
  cases a with
  | insertVector id' vec =>
      cases done
      rw [isTombstoned_insertVector, Bool.and_eq_true, and_comm]
      refine and_congr_right fun _ => ?_
      rw [Bool.not_eq_true', decide_eq_false_iff_not]
      constructor
      · rintro other vec' fits ⟨⟩
        exact other ⟨fits, rfl⟩
      · rintro other ⟨fits, rfl⟩
        exact other vec fits rfl
  | deleteVector id' => exact absurd rfl (keeps id')
  | compact =>
      cases done
      exact (and_iff_left fun _ _ => nofun).symm
  | reopen =>
      have same : s'.tombTree = s.tombTree := by
        change (if s.dim = 0 then _ else _) = _ at done
        split_ifs at done
        cases done
        rfl
      unfold isTombstoned
      rw [same]
      exact (and_iff_left fun _ _ => nofun).symm

theorem dim_perform {a : StoreAction F} (done : s.perform a = .ok s') : s'.dim = s.dim := by
  cases a with
  | insertVector id vec =>
      cases done
      exact s.dim_insertVector id vec
  | deleteVector id =>
      cases done
      rfl
  | compact =>
      cases done
      rfl
  | reopen =>
      change (if s.dim = 0 then _ else _) = _ at done
      split_ifs at done
      cases done
      rfl

/-- Without deletions a tombstone stands until its id is inserted. -/
theorem isTombstoned_foldlM {actions : List (StoreAction F)}
    (keeps : ∀ id, .deleteVector id ∉ actions) (done : actions.foldlM perform s = .ok s') (id : Nat) :
    s'.isTombstoned id = true ↔ s.isTombstoned id = true ∧
      ∀ vec, vec.length = s.dim → .insertVector id vec ∉ actions := by
  induction actions generalizing s with
  | nil =>
      cases done
      exact (and_iff_left fun _ _ => List.not_mem_nil).symm
  | cons a rest ih =>
      rw [List.foldlM_cons] at done
      cases acted : s.perform a with
      | error e => rw [acted] at done; cases done
      | ok s₁ =>
          rw [acted] at done
          have first := isTombstoned_perform (fun id same =>
            keeps id (same ▸ List.mem_cons_self)) acted id
          have others := ih (fun id mem => keeps id (List.mem_cons_of_mem _ mem)) done
          rw [others, first, dim_perform acted, and_assoc, ← forall_and]
          refine and_congr_right fun _ => forall_congr' fun vec => ?_
          rw [← imp_and]
          refine imp_congr_right fun _ => ?_
          rw [List.mem_cons, not_or, ne_comm]

/-! ### One compaction -/

/-- The vectors a compaction removes are those of the tombstones that have one. -/
theorem physicallyRemoved_compact (s : LocalStore F) : s.physicallyRemoved s.compact.2 =
    (s.tombTree.rows.filter fun id => (s.vecTree.find? id).isSome).length := by
  have gone : (s.vecTree.rows.filter fun p => (s.compact.2.vecTree.find? p.1).isNone) =
      s.vecTree.rows.filter fun p => s.isTombstoned p.1 := by
    refine List.filter_congr fun p mem => ?_
    rw [show s.compact.2.vecTree = s.vecTree.delete fun p => s.isTombstoned p.1 from rfl,
      Table.find?_delete, Table.find?_of_mem mem]
    cases dead : s.isTombstoned p.1 <;> simp [Option.filter, dead]
  have distinct : s.tombTree.rows.Nodup := by simpa using s.tombTree.nodup
  have same : ((s.vecTree.rows.filter fun p => s.isTombstoned p.1).map Prod.fst).Perm
      (s.tombTree.rows.filter fun id => (s.vecTree.find? id).isSome) := by
    refine (List.perm_ext_iff_of_nodup ?_ (distinct.filter _)).mpr fun id => ?_
    · exact s.vecTree.nodup.sublist (List.filter_sublist.map _)
    · rw [List.mem_map, List.mem_filter, ← isTombstoned_iff, Option.isSome_iff_exists]
      constructor
      · rintro ⟨p, mem, rfl⟩
        obtain ⟨held, dead⟩ := List.mem_filter.mp mem
        exact ⟨dead, p, Table.find?_of_mem held⟩
      · rintro ⟨dead, p, found⟩
        have key : p.1 = id := Table.find?_key found
        exact ⟨p, List.mem_filter.mpr ⟨Table.find?_mem found, key.symm ▸ dead⟩, key⟩
  unfold physicallyRemoved
  rw [gone, ← same.length_eq, List.length_map]

/-- The count is right when every tombstone still hides a vector. -/
theorem compact_removed_iff (s : LocalStore F) : s.compact.1 = s.physicallyRemoved s.compact.2 ↔
    ∀ id, s.isTombstoned id = true → (s.vecTree.find? id).isSome = true := by
  rw [physicallyRemoved_compact]
  change s.tombTree.rows.length = _ ↔ _
  rw [eq_comm, List.length_filter_eq_length_iff]
  exact forall_congr' fun id => imp_congr_left isTombstoned_iff.symm

theorem compact_eq_zero_iff (s : LocalStore F) :
    s.compact.1 = 0 ↔ ∀ id, s.isTombstoned id = false := by
  change s.tombTree.rows.length = 0 ↔ _
  rw [List.length_eq_zero_iff, List.eq_nil_iff_forall_not_mem]
  exact forall_congr' fun id => by rw [← isTombstoned_iff, Bool.not_eq_true]

theorem dim_foldlM {actions : List (StoreAction F)} (done : actions.foldlM perform s = .ok s') :
    s'.dim = s.dim := by
  induction actions generalizing s with
  | nil =>
      cases done
      rfl
  | cons a rest ih =>
      rw [List.foldlM_cons] at done
      cases acted : s.perform a with
      | error e => rw [acted] at done; cases done
      | ok s₁ =>
          rw [acted] at done
          exact (ih done).trans (dim_perform acted)

theorem dim_history {dim : Nat} {actions : List (StoreAction F)}
    (reached : history dim actions = .ok s) : s.dim = dim := by
  unfold history LocalStore.open at reached
  split_ifs at reached
  · cases reached
  · exact dim_foldlM reached

end LocalStore

/-- In every history: a compaction reports the vectors it removes, and the next one, with no
deletion between the two, reports none, exactly when every tombstone still hides a vector
and its id is inserted between the two. -/
theorem compact_reports_iff {dim : Nat} {actions between : List (StoreAction F)}
    {s s' : LocalStore F} (reached : LocalStore.history dim actions = .ok s)
    (keeps : ∀ id, .deleteVector id ∉ between)
    (later : between.foldlM LocalStore.perform s.compact.2 = .ok s') :
    (s.compact.1 = s.physicallyRemoved s.compact.2 ∧ s'.compact.1 = 0) ↔
      ∀ id, s.isTombstoned id = true → (s.vecTree.find? id).isSome = true ∧
        ∃ vec, vec.length = dim ∧ .insertVector id vec ∈ between := by
  have standing := LocalStore.isTombstoned_foldlM keeps later
  have width : s.compact.2.dim = dim :=
    (show s.compact.2.dim = s.dim from rfl).trans (LocalStore.dim_history reached)
  rw [width] at standing
  rw [LocalStore.compact_removed_iff, LocalStore.compact_eq_zero_iff, ← forall_and]
  refine forall_congr' fun id => ?_
  rw [imp_and]
  refine and_congr_right fun _ => ?_
  rw [← Bool.not_eq_true, standing id, not_and]
  refine imp_congr_right fun _ => ?_
  push Not
  rfl

/-- A vector that is deleted, removed and inserted again before the next compaction. -/
theorem compact_reports_reinserted : ∃ s s' : LocalStore Nat,
    LocalStore.history 1 [.insertVector 7 [1], .deleteVector 7] = .ok s ∧
      [StoreAction.insertVector 7 [2]].foldlM LocalStore.perform s.compact.2 = .ok s' ∧
      s.compact.1 = s.physicallyRemoved s.compact.2 ∧ s'.compact.1 = 0 := by
  have reached : LocalStore.history 1
      ([.insertVector 7 [1], .deleteVector 7] : List (StoreAction Nat)) = .ok _ := rfl
  have keeps : ∀ id, StoreAction.deleteVector id ∉ [StoreAction.insertVector 7 [2]] := by simp
  refine ⟨_, _, reached, rfl, (compact_reports_iff reached keeps rfl).mpr fun id dead => ?_⟩
  obtain rfl : id = 7 := List.mem_singleton.mp (LocalStore.isTombstoned_iff.mp dead)
  exact ⟨rfl, [2], rfl, List.mem_singleton_self _⟩

/-- The tombstone of a vector that was removed is counted again. -/
theorem compact_counts_again : ¬ ∀ (dim : Nat) (actions between : List (StoreAction Nat))
    (s s' : LocalStore Nat), LocalStore.history dim actions = .ok s →
      (∀ id, .deleteVector id ∉ between) →
      between.foldlM LocalStore.perform s.compact.2 = .ok s' →
      s.compact.1 = s.physicallyRemoved s.compact.2 ∧ s'.compact.1 = 0 := by
  intro always
  have twice := always 1 [.insertVector 7 [1], .deleteVector 7] [] _ _ rfl (by simp) rfl
  exact absurd twice.2 (by decide)

end FusionMemory
