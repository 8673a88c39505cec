import FusionMemory.Lib.Trace
import FusionMemory.Store.Sled

/-!
Sessions of a store of bytes.

A store is opened on the trees that a directory holds, whatever is in them. `sled_session` says
that it opens unless a live vector cannot be read, and that it then replies to every sequence of
calls as `LocalStore` does. The rows whose keys are no ids are left alone.
-/

namespace FusionMemory

open Lib

namespace SledStore

section Reading

variable {F : Type} [FloatBits F] {s : SledStore F}

/-! ### What stays readable -/

omit [FloatBits F] in
theorem isTombstoned_deleteVector (s : SledStore F) {id id' : Nat}
    (live : (s.deleteVector id).isTombstoned id' = false) : s.isTombstoned id' = false := by
  unfold isTombstoned SledTree.containsKey deleteVector SledTree.insert at *
  rw [Table.find?_upsert] at live
  split_ifs at live with same
  · cases live
  · exact live

omit [FloatBits F] in
theorem Intact.deleteVector (intact : s.Intact) (id : Nat) : (s.deleteVector id).Intact :=
  fun r mem id' parsed live => intact r mem id' parsed (s.isTombstoned_deleteVector live)

/-- The row of an insertion is new, and the others keep their tombstones. -/
theorem Intact.insertVector (intact : s.Intact) (id : Nat) (vec : List F) :
    (s.insertVector id vec).2.Intact := by
  unfold SledStore.insertVector
  split_ifs with unfit present dead
  · exact intact
  · exact intact
  · intro r mem id' parsed live
    rcases Table.mem_upsert.mp mem with rfl | ⟨old, other⟩
    · exact (congrArg (· % 4) (length_leWords vec)).trans (Nat.mul_mod_right 4 vec.length)
    · refine intact r old id' parsed ?_
      have key := (parseIdKey_eq_some.mp parsed).1
      change ((s.tombTree.delete fun t => t.1 == idKey id).find? (idKey id')).isSome = false at live
      rw [Table.find?_delete] at live
      unfold isTombstoned SledTree.containsKey
      cases found : s.tombTree.find? (idKey id') with
      | none => rfl
      | some t =>
          have kept : (t.1 == idKey id) = false := by
            rw [Table.find?_key found, ← key]
            exact beq_eq_false_iff_ne.mpr other
          rw [found, Option.filter_some, kept] at live
          cases live
  · intro r mem id' parsed live
    rcases Table.mem_upsert.mp mem with rfl | ⟨old, -⟩
    · exact (congrArg (· % 4) (length_leWords vec)).trans (Nat.mul_mod_right 4 vec.length)
    · exact intact r old id' parsed live

end Reading

end SledStore

/-! ### The rows that are no vectors -/

/-- The rows whose keys are no ids. -/
def SledTree.foreign (t : SledTree) : List (List UInt8 × List UInt8) :=
  t.rows.filter fun r => (parseIdKey r.1).isNone

theorem SledTree.foreign_delete (t : SledTree) {p : List UInt8 × List UInt8 → Bool}
    (ids : ∀ r, p r = true → (parseIdKey r.1).isNone = false) : SledTree.foreign (t.delete p) = t.foreign := by
  unfold SledTree.foreign Table.delete
  dsimp only
  rw [List.filter_filter]
  refine List.filter_congr fun r _ => ?_
  cases dropped : p r with
  | true =>
      rw [ids r dropped]
      rfl
  | false => exact Bool.and_true _

theorem SledTree.foreign_remove (t : SledTree) {id : Nat} (fits : id < 256 ^ 8) :
    SledTree.foreign (t.remove (idKey id)) = t.foreign := by
  refine t.foreign_delete fun r same => ?_
  rw [beq_iff_eq.mp same, parseIdKey_idKey fits]
  rfl

theorem SledTree.foreign_insert (t : SledTree) {id : Nat} (fits : id < 256 ^ 8) (value : List UInt8) :
    SledTree.foreign (t.insert (idKey id) value) = t.foreign := by
  have others : SledTree.foreign (t.delete fun r => decide (r.1 = idKey id)) = t.foreign := by
    refine t.foreign_delete fun r same => ?_
    rw [of_decide_eq_true same, parseIdKey_idKey fits]
    rfl
  have new : [(idKey id, value)].filter (fun r => (parseIdKey r.1).isNone) = [] := by
    rw [List.filter_singleton, parseIdKey_idKey fits]
    rfl
  change (((t.delete fun r => decide (r.1 = idKey id)).rows ++ [(idKey id, value)]).filter fun r =>
    (parseIdKey r.1).isNone) = t.foreign
  rw [List.filter_append, new, List.append_nil]
  exact others

namespace SledStore

variable {F : Type} [FloatBits F]

theorem foreign_insertVector (s : SledStore F) {id : Nat} (fits : id < 256 ^ 8) (vec : List F) :
    ((s.insertVector id vec).2.vecTree.foreign, (s.insertVector id vec).2.tombTree.foreign) =
      (s.vecTree.foreign, s.tombTree.foreign) := by
  unfold insertVector
  split_ifs with unfit present dead
  · rfl
  · rfl
  · exact congrArg₂ Prod.mk (s.vecTree.foreign_insert fits _) (s.tombTree.foreign_remove fits)
  · exact congrArg₂ Prod.mk (s.vecTree.foreign_insert fits _) rfl

omit [FloatBits F] in
theorem foreign_removeTombstoned (s : SledStore F) :
    s.removeTombstoned.vecTree.foreign = s.vecTree.foreign := by
  unfold removeTombstoned
  dsimp only
  rw [foldl_remove]
  refine s.vecTree.foreign_delete fun r dropped => ?_
  obtain ⟨id, mem, same⟩ := List.any_eq_true.mp dropped
  obtain ⟨r', -, parsed⟩ := List.mem_filterMap.mp mem
  rw [beq_iff_eq.mp same, parseIdKey_idKey (parseIdKey_eq_some.mp parsed).2]
  rfl

theorem dim_insertVector (s : SledStore F) (id : Nat) (vec : List F) :
    (s.insertVector id vec).2.dim = s.dim := by
  unfold insertVector
  split_ifs <;> rfl

/-! ### Opening -/

/-- Opening a directory that can be read rebuilds the index of its live vectors. -/
theorem Intact.open_eq {s : SledStore F} (intact : s.Intact) (opens : s.dim ≠ 0) :
    SledStore.open s.vecTree s.tombTree s.dim =
      .ok { s with hnsw := s.decoded.rebuildFromSled.hnsw } := by
  have bare : (⟨s.vecTree, s.tombTree, [], s.dim⟩ : SledStore F).Intact := intact
  unfold SledStore.open
  rw [if_neg opens, bare.rebuildFromSled_eq]
  rfl

theorem open_eq_ok {vecTree tombTree : SledTree} {dim : Nat} {s : SledStore F}
    (opened : SledStore.open vecTree tombTree dim = .ok s) :
    dim ≠ 0 ∧ (⟨vecTree, tombTree, [], dim⟩ : SledStore F).Intact := by
  unfold SledStore.open at opened
  split_ifs at opened with zero
  rw [rebuildFromSled_eq] at opened
  cases checked : checkVectors (⟨vecTree, tombTree, [], dim⟩ : SledStore F) vecTree.iter with
  | error e =>
      rw [checked] at opened
      cases opened
  | ok checked' =>
      refine ⟨zero, fun r mem => ?_⟩
      exact checkVectors_eq_ok.mp checked r ((List.mem_insertionSort _).mpr mem)

end SledStore

/-! ### Sessions -/

/-- The calls on a store. What the index finds for a search is part of the call. -/
inductive StoreCall (F : Type) where
  | insertVector (id : UInt64) (vec : List F)
  | deleteVector (id : UInt64)
  | getVector (id : UInt64)
  | listVectorIds
  | searchKnn (ann : AnnSearch F) (query : List F) (topK : Nat)
  | compact
  | reopen

inductive StoreReply (F : Type) where
  | done
  | vector (vec : Option (List F))
  | ids (ids : List Nat)
  | hits (hits : List (Nat × F))
  | removed (count : Nat)

section Sessions

variable {F : Type} [FloatArith F]

/-- One call on a store of vectors. -/
def LocalStore.serve : StoreCall F → LocalStore F → Except StoreError (StoreReply F) × LocalStore F
  | .insertVector id vec, s =>
      ((s.insertVector id.toNat vec).1.map fun _ => .done, (s.insertVector id.toNat vec).2)
  | .deleteVector id, s => (.ok .done, s.deleteVector id.toNat)
  | .getVector id, s => (.ok (.vector (s.getVector id.toNat)), s)
  | .listVectorIds, s => (.ok (.ids s.listVectorIds), s)
  | .searchKnn ann query topK, s => ((s.searchKnn ann query topK).map .hits, s)
  | .compact, s => (.ok (.removed s.compact.1), s.compact.2)
  | .reopen, s => match s.reopen with
      | .ok s' => (.ok .done, s')
      | .error e => (.error e, s)

variable [FloatBits F]

/-- One call on a store of bytes. -/
def SledStore.serve : StoreCall F → SledStore F → Except StoreError (StoreReply F) × SledStore F
  | .insertVector id vec, s =>
      ((s.insertVector id.toNat vec).1.map fun _ => .done, (s.insertVector id.toNat vec).2)
  | .deleteVector id, s => (.ok .done, s.deleteVector id.toNat)
  | .getVector id, s => ((s.getVector id.toNat).map .vector, s)
  | .listVectorIds, s => (.ok (.ids s.listVectorIds), s)
  | .searchKnn ann query topK, s => ((s.searchKnn ann query topK).map .hits, s)
  | .compact, s => (s.compact.1.map .removed, s.compact.2)
  | .reopen, s => match SledStore.open s.vecTree s.tombTree s.dim with
      | .ok s' => (.ok .done, s')
      | .error e => (.error e, s)

/-- The bytes can be read and stand for the vectors; what else is in the trees is `others`. -/
structure SledStore.Holds (others : List (List UInt8 × List UInt8) × List (List UInt8 × List UInt8))
    (s : SledStore F) (s₀ : LocalStore F) : Prop where
  intact : s.Intact
  opens : s.dim ≠ 0
  decoded : s.decoded = s₀
  foreign : (s.vecTree.foreign, s.tombTree.foreign) = others

namespace SledStore

variable {others : List (List UInt8 × List UInt8) × List (List UInt8 × List UInt8)} {s : SledStore F}
  {s₀ : LocalStore F}

/-- The step lemma: the two levels reply alike and stay together. -/
theorem Holds.serve (holds : s.Holds others s₀) (call : StoreCall F) :
    (SledStore.serve call s).1 = (LocalStore.serve call s₀).1 ∧
      (SledStore.serve call s).2.Holds others (LocalStore.serve call s₀).2 := by
  obtain ⟨intact, opens, rfl, foreign⟩ := holds
  have fits (id : UInt64) : id.toNat < 256 ^ 8 := id.toNat_lt
  cases call with
  | insertVector id vec =>
      rw [SledStore.serve, LocalStore.serve, intact.insertVector_eq (fits id) vec]
      refine ⟨rfl, intact.insertVector id.toNat vec, ?_, rfl, ?_⟩
      · rw [dim_insertVector]
        exact opens
      · exact (s.foreign_insertVector (fits id) vec).trans foreign
  | deleteVector id =>
      refine ⟨rfl, intact.deleteVector id.toNat, opens, s.deleteVector_decoded (fits id), ?_⟩
      exact (congrArg (s.vecTree.foreign, ·) (s.tombTree.foreign_insert (fits id) [1])).trans foreign
  | getVector id =>
      rw [SledStore.serve, LocalStore.serve, intact.getVector_eq (fits id)]
      exact ⟨rfl, intact, opens, rfl, foreign⟩
  | listVectorIds =>
      rw [SledStore.serve, LocalStore.serve, intact.listVectorIds_eq]
      exact ⟨rfl, intact, opens, rfl, foreign⟩
  | searchKnn ann query topK =>
      rw [SledStore.serve, LocalStore.serve, intact.searchKnn_eq]
      exact ⟨rfl, intact, opens, rfl, foreign⟩
  | compact =>
      rw [SledStore.serve, LocalStore.serve, intact.compact_eq]
      refine ⟨rfl, intact.removeTombstoned, opens, ?_, ?_⟩
      · change { s.removeTombstoned.decoded with hnsw := s.decoded.compact.2.hnsw } = s.decoded.compact.2
        rw [removeTombstoned_decoded]
        rfl
      · exact (congrArg (·, s.tombTree.foreign) s.foreign_removeTombstoned).trans foreign
  | reopen =>
      have reopened : s.decoded.reopen = .ok s.decoded.rebuildFromSled := if_neg opens
      rw [SledStore.serve, LocalStore.serve, intact.open_eq opens, reopened]
      exact ⟨rfl, intact, opens, rfl, foreign⟩

end SledStore

/-- A directory is opened unless one of its live vectors cannot be read, and from then on its store
answers as a store of vectors does. -/
theorem sled_session (vecTree tombTree : SledTree) (dim : Nat) (calls : List (StoreCall F)) :
    ((∃ s : SledStore F, SledStore.open vecTree tombTree dim = .ok s) ↔
      dim ≠ 0 ∧ ∀ r ∈ vecTree.rows, (parseIdKey r.1).isSome → tombTree.containsKey r.1 = false →
        r.2.length % 4 = 0) ∧
    ∀ s : SledStore F, SledStore.open vecTree tombTree dim = .ok s →
      ∃ s₀, LocalStore.open (decodeVecs vecTree) (decodeTombs tombTree) dim = .ok s₀ ∧
        (serveAll SledStore.serve calls s).1 = (serveAll LocalStore.serve calls s₀).1 ∧
        (serveAll SledStore.serve calls s).2.decoded = (serveAll LocalStore.serve calls s₀).2 ∧
        (serveAll SledStore.serve calls s).2.vecTree.foreign = vecTree.foreign ∧
        (serveAll SledStore.serve calls s).2.tombTree.foreign = tombTree.foreign := by
  have readable : (⟨vecTree, tombTree, [], dim⟩ : SledStore F).Intact ↔
      ∀ r ∈ vecTree.rows, (parseIdKey r.1).isSome → tombTree.containsKey r.1 = false →
        r.2.length % 4 = 0 := by
    refine forall₂_congr fun r _ => ?_
    constructor
    · intro here some live
      obtain ⟨id, parsed⟩ := Option.isSome_iff_exists.mp some
      exact here id parsed ((SledStore.isTombstoned_eq _ parsed).symm.trans live)
    · intro here id parsed live
      exact here (Option.isSome_iff_exists.mpr ⟨id, parsed⟩)
        ((SledStore.isTombstoned_eq _ parsed).trans live)
  rw [← readable]
  refine ⟨⟨fun ⟨s, opened⟩ => SledStore.open_eq_ok opened, fun ⟨opens, intact⟩ =>
    ⟨_, intact.open_eq opens⟩⟩, fun s opened => ?_⟩
  obtain ⟨opens, intact⟩ := SledStore.open_eq_ok opened
  obtain rfl := Except.ok.inj ((intact.open_eq opens).symm.trans opened)
  have holds : SledStore.Holds (vecTree.foreign, tombTree.foreign)
      (⟨vecTree, tombTree, (SledStore.decoded ⟨vecTree, tombTree, [], dim⟩).rebuildFromSled.hnsw, dim⟩ :
        SledStore F)
      (LocalStore.rebuildFromSled ⟨decodeVecs vecTree, decodeTombs tombTree, [], dim⟩) :=
    ⟨intact, opens, rfl, rfl⟩
  obtain ⟨replies, after⟩ :=
    serveAll_simulates (fun call s s₀ together => together.serve call) calls holds
  exact ⟨_, if_neg opens, replies, after.decoded, congrArg Prod.fst after.foreign,
    congrArg Prod.snd after.foreign⟩

end Sessions

end FusionMemory
