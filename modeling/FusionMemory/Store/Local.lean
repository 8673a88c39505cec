import FusionMemory.Lib.Table
import FusionMemory.Core.Memory

/-!
The vector store (`fm-store/src/local.rs`).

`LocalStore` is two sled trees and the in-memory index. A deleted vector stays in
`vecTree` and is marked in `tombTree`; the index holds every point that was ever
inserted. The approximate search of the `hnsw_rs` index is external: it is the
argument `ann` of `searchKnn`, which gets the indexed points, the query and the
count, and answers with ids and distances.

Single- and double-precision values both live in `F`.
-/

namespace FusionMemory

open Lib

/-- `StoreError`; the variants that no modelled path builds are left out. -/
inductive StoreError where
  | sled (msg : String)
  | hnsw (msg : String)
  | dimension (expected got : Nat)
deriving DecidableEq, Repr

namespace StoreError

def toString : StoreError → String
  | .sled m => "sled kv error: " ++ m
  | .hnsw m => "hnsw index error: " ++ m
  | .dimension expected got =>
      "dimension mismatch: expected " ++ ToString.toString expected ++ ", got " ++
        ToString.toString got

def toMemory (e : StoreError) : MemoryError := .store e.toString

end StoreError

/-- The answer of the index to a query: `(id, distance)` pairs. -/
abbrev AnnSearch (F : Type) := List (Nat × List F) → List F → Nat → List (Nat × F)

/-- What the index promises: no more answers than asked for, each an indexed point. -/
def AnnSearch.Sound {F : Type} (ann : AnnSearch F) : Prop :=
  ∀ points query k, (ann points query k).length ≤ k ∧
    ∀ hit ∈ ann points query k, hit.1 ∈ points.map Prod.fst

structure LocalStore (F : Type) where
  vecTree : Table Nat (Nat × List F) Prod.fst
  tombTree : Table Nat Nat id
  hnsw : List (Nat × List F)
  dim : Nat

namespace LocalStore

variable {F : Type}

def empty (dim : Nat) : LocalStore F := ⟨.empty, .empty, [], dim⟩

def isTombstoned (s : LocalStore F) (id : Nat) : Bool := (s.tombTree.find? id).isSome

/-- The `vec` tree in key order. -/
def vectors (s : LocalStore F) : List (Nat × List F) :=
  s.vecTree.rows.insertionSort fun a b => a.1 ≤ b.1

def listVectorIds (s : LocalStore F) : List Nat :=
  (s.vectors.map Prod.fst).filter fun id => !s.isTombstoned id

def getVector (s : LocalStore F) (id : Nat) : Option (List F) :=
  if s.isTombstoned id then none else (s.vecTree.find? id).map Prod.snd

def deleteVector (s : LocalStore F) (id : Nat) : LocalStore F :=
  { s with tombTree := s.tombTree.upsert id }

/-- The live vector of an id is kept; the caller is told that all is well. -/
def alreadyPresent (s : LocalStore F) (id : Nat) : Bool :=
  (s.vecTree.find? id).isSome && !s.isTombstoned id

/-- The writes of `insert_vector` before the index is reached: the tombstone goes,
then the vector is written. An I/O error can stop it after `writes` of them. -/
def insertWrites (s : LocalStore F) (id : Nat) (vec : List F) : Nat → LocalStore F
  | 0 => s
  | 1 => { s with tombTree := s.tombTree.delete fun t => t == id }
  | _ => { s with tombTree := s.tombTree.delete fun t => t == id
                  vecTree := s.vecTree.upsert (id, vec) }

def insertVector (s : LocalStore F) (id : Nat) (vec : List F) :
    Except StoreError Unit × LocalStore F :=
  if vec.length ≠ s.dim then (.error (.dimension s.dim vec.length), s)
  else if s.alreadyPresent id then (.ok (), s)
  else (.ok (), { s.insertWrites id vec 2 with hnsw := s.hnsw ++ [(id, vec)] })

/-- `insert_vector` that fails with an I/O error after `writes` of its writes. -/
def insertVectorFails (s : LocalStore F) (id : Nat) (vec : List F) (e : StoreError) (writes : Nat) :
    Except StoreError Unit × LocalStore F :=
  if vec.length ≠ s.dim then (.error (.dimension s.dim vec.length), s)
  else if s.alreadyPresent id then (.error e, s)
  else (.error e, s.insertWrites id vec writes)

variable [FloatArith F]

def cosineSim (a b : List F) : F :=
  let zero : F := FloatArith.ofNat 0
  let dot := (a.zip b).foldl (fun acc p => FloatArith.add acc (FloatArith.mul p.1 p.2)) zero
  let na := (a.zip b).foldl (fun acc p => FloatArith.add acc (FloatArith.mul p.1 p.1)) zero
  let nb := (a.zip b).foldl (fun acc p => FloatArith.add acc (FloatArith.mul p.2 p.2)) zero
  let denom := FloatArith.mul (FloatArith.sqrt na) (FloatArith.sqrt nb)
  if FloatArith.isZero denom then zero else FloatArith.div dot denom

/-- Scored ids, best first. -/
def sortBySim (hits : List (Nat × F)) : List (Nat × F) :=
  hits.insertionSort fun a b => FloatArith.descending a.2 b.2

/-- The index's live neighbours; when they are fewer than `topK`, the best of the
other live vectors fill up. -/
def searchKnn (s : LocalStore F) (ann : AnnSearch F) (query : List F) (topK : Nat) :
    Except StoreError (List (Nat × F)) :=
  if query.length ≠ s.dim then .error (.dimension s.dim query.length)
  else
    let neighbours := ann s.hnsw query topK
    let out := (neighbours.filter fun nb => !s.isTombstoned nb.1).map fun nb =>
      (nb.1, FloatArith.sub (FloatArith.ofNat 1) nb.2)
    if out.length < topK then
      let candidates := (s.vectors.filter fun p =>
        !(out.any fun hit => hit.1 == p.1) && !s.isTombstoned p.1).map fun p =>
          (p.1, cosineSim query p.2)
      .ok (sortBySim (out ++ (sortBySim candidates).take (topK - out.length)))
    else .ok out

/-! ### What the operations leave -/

omit [FloatArith F] in
/-- A vector of the right dimension is accepted. -/
theorem insertVector_fst {s : LocalStore F} {vec : List F} (fits : vec.length = s.dim) (id : Nat) :
    (s.insertVector id vec).1 = .ok () := by
  unfold insertVector
  rw [if_neg (by simp [fits])]
  split_ifs <;> rfl

omit [FloatArith F] in
@[simp] theorem isTombstoned_deleteVector (s : LocalStore F) (id id' : Nat) :
    (s.deleteVector id).isTombstoned id' = (decide (id = id') || s.isTombstoned id') := by
  unfold deleteVector isTombstoned
  rw [Table.find?_upsert]
  by_cases h : id = id' <;> simp [h]

omit [FloatArith F] in
/-- Deleting hides the vector of the id and of no other. -/
@[simp] theorem getVector_deleteVector (s : LocalStore F) (id id' : Nat) :
    (s.deleteVector id).getVector id' = if id = id' then none else s.getVector id' := by
  unfold getVector
  rw [isTombstoned_deleteVector]
  by_cases h : id = id' <;> simp [h, deleteVector]

omit [FloatArith F] in
theorem mem_listVectorIds {s : LocalStore F} {id : Nat} :
    id ∈ s.listVectorIds ↔ (s.getVector id).isSome := by
  unfold listVectorIds getVector vectors
  rw [List.mem_filter, List.mem_map]
  constructor
  · rintro ⟨⟨p, mem, rfl⟩, live⟩
    rw [List.mem_insertionSort] at mem
    simp only [Bool.not_eq_true'] at live
    simp [live, Table.find?_of_mem mem]
  · intro some
    cases live : s.isTombstoned id with
    | true => simp [live] at some
    | false =>
        cases found : s.vecTree.find? id with
        | none => simp [live, found] at some
        | some p =>
            obtain ⟨mem, key⟩ := Table.find?_eq_some_iff.mp found
            exact ⟨⟨p, (List.mem_insertionSort _).mpr mem, key⟩, by simp⟩

theorem mem_sortBySim {hits : List (Nat × F)} {hit : Nat × F} :
    hit ∈ sortBySim hits ↔ hit ∈ hits := List.mem_insertionSort _

/-- A search finds no more than were asked for. -/
theorem length_searchKnn_le {s : LocalStore F} {ann : AnnSearch F} (sound : ann.Sound)
    {query : List F} {k : Nat} {hits : List (Nat × F)} (found : s.searchKnn ann query k = .ok hits) :
    hits.length ≤ k := by
  have near := ((ann s.hnsw query k).length_filter_le fun nb => !s.isTombstoned nb.1).trans
    (sound s.hnsw query k).1
  unfold searchKnn at found
  dsimp only at found
  split_ifs at found with unfit few
  · cases found
    rw [sortBySim, List.length_insertionSort, List.length_append, List.length_take]
    omega
  · cases found
    rwa [List.length_map]

/-- A search finds no deleted vector. -/
theorem searchKnn_live {s : LocalStore F} {ann : AnnSearch F} {query : List F} {k : Nat}
    {hits : List (Nat × F)} (found : s.searchKnn ann query k = .ok hits) {hit : Nat × F}
    (mem : hit ∈ hits) : s.isTombstoned hit.1 = false := by
  unfold searchKnn at found
  dsimp only at found
  split_ifs at found
  · cases found
    rcases List.mem_append.mp (mem_sortBySim.mp mem) with near | filled
    · obtain ⟨nb, kept, rfl⟩ := List.mem_map.mp near
      simpa using (List.mem_filter.mp kept).2
    · obtain ⟨p, kept, rfl⟩ := List.mem_map.mp (mem_sortBySim.mp (List.mem_of_mem_take filled))
      have conditions := (List.mem_filter.mp kept).2
      simp only [Bool.and_eq_true, Bool.not_eq_true'] at conditions
      exact conditions.2
  · cases found
    obtain ⟨nb, kept, rfl⟩ := List.mem_map.mp mem
    simpa using (List.mem_filter.mp kept).2

end LocalStore

end FusionMemory
