import FusionMemory.Lib.Hops
import FusionMemory.Persist.Store

/-!
What the recursive query finds (`n_hop_reachable` of `fm-persist/src/store.rs`).

The query lists the entities within some hops of a start, nearest first and by name, and cuts
the list at `N_HOP_RESULT_LIMIT`. `mem_nHopReachable` says which entities are left.
-/

namespace FusionMemory

open Lib

namespace Db

variable {F : Type}

/-- A relation leads from `a` to `b`. -/
def Related (db : Db F) (a b : String) : Prop := ∃ r ∈ db.relation, r.src = a ∧ r.dst = b

theorem mem_successors {db : Db F} {nodes : List String} {b : String} :
    b ∈ db.successors nodes ↔ ∃ a ∈ nodes, db.Related a b := by
  unfold successors Related
  rw [List.mem_insertionSort, List.mem_dedup, List.mem_flatMap]
  refine exists_congr fun a => and_congr_right fun _ => ?_
  simp [List.mem_map, List.mem_filter, and_assoc]

theorem pairwise_successors (db : Db F) (nodes : List String) :
    (db.successors nodes).Pairwise (· < ·) := by
  have sorted : (db.successors nodes).Pairwise (· ≤ ·) := List.pairwise_insertionSort _ _
  have distinct : (db.successors nodes).Nodup :=
    (List.perm_insertionSort _ _).nodup_iff.mpr (List.nodup_dedup _)
  exact (sorted.and distinct).imp fun both => String.not_le.mp fun back =>
    both.2 (String.le_antisymm both.1 back)

/-- Nearer, or as near and first by name. -/
def Ahead (p q : String × Nat) : Prop := p.2 < q.2 ∨ p.2 = q.2 ∧ p.1 < q.1

instance : DecidableRel Ahead := fun p q =>
  inferInstanceAs (Decidable (p.2 < q.2 ∨ p.2 = q.2 ∧ p.1 < q.1))

theorem Ahead.asymm {p q : String × Nat} (ahead : Ahead p q) : ¬ Ahead q p := by
  rintro (closer | ⟨same, first⟩)
  · rcases ahead with closer' | ⟨same', -⟩
    · exact absurd closer (Nat.lt_asymm closer')
    · omega
  · rcases ahead with closer' | ⟨-, first'⟩
    · omega
    · exact absurd first (String.lt_asymm first')

/-- What is listed after some levels: the frontier has the ends of the paths of that length, the
list every node but the start with its distance, in order. -/
structure Levels (db : Db F) (start : String) (level : Nat) (frontier : List String)
    (found : List (String × Nat)) : Prop where
  frontier_iff : ∀ m, m ∈ frontier ↔ Path db.Related level start m
  found_iff : ∀ m d, (m, d) ∈ found ↔ m ≠ start ∧ d ≤ level ∧ Distance db.Related start m d
  sorted : found.Pairwise Ahead

theorem Levels.start (db : Db F) (start : String) : Levels db start 0 [start] [] := by
  refine ⟨fun m => ?_, fun m d => ?_, .nil⟩
  · rw [List.mem_singleton]
    exact eq_comm
  · refine iff_of_false (List.not_mem_nil) ?_
    rintro ⟨other, le, distance⟩
    obtain rfl := Nat.le_zero.mp le
    exact other (distance_zero_iff.mp distance).symm

/-- One more level. -/
theorem Levels.next {db : Db F} {start : String} {level : Nat} {frontier : List String}
    {found : List (String × Nat)} (levels : Levels db start level frontier found) :
    Levels db start (level + 1) (db.successors frontier) (found ++
      ((db.successors frontier).filter fun n => n != start && !found.any fun p => p.1 == n).map
        fun n => (n, level + 1)) := by
  have reached : ∀ m, m ∈ db.successors frontier ↔ Path db.Related (level + 1) start m := by
    intro m
    rw [mem_successors]
    exact exists_congr fun a => and_congr_left fun _ => levels.frontier_iff a
  -- A node is new exactly when no path is shorter.
  have fresh : ∀ m, (m != start && !found.any fun p => p.1 == m) = true ↔
      m ≠ start ∧ ∀ n ≤ level, ¬ Path db.Related n start m := by
    intro m
    simp only [Bool.and_eq_true, bne_iff_ne, Bool.not_eq_true', List.any_eq_false, beq_iff_eq]
    refine and_congr_right fun other => ⟨fun unlisted n le path => ?_, fun unreached p mem => ?_⟩
    · obtain ⟨d, short, distance⟩ := path.exists_distance
      exact unlisted (m, d) ((levels.found_iff m d).mpr ⟨other, by omega, distance⟩) rfl
    · rintro rfl
      obtain ⟨-, le, distance⟩ := (levels.found_iff p.1 p.2).mp mem
      exact unreached p.2 le distance.path
  refine ⟨reached, fun m d => ?_, ?_⟩
  · rw [List.mem_append, levels.found_iff, List.mem_map]
    constructor
    · rintro (⟨other, le, distance⟩ | ⟨n, mem, same⟩)
      · exact ⟨other, by omega, distance⟩
      · cases same
        obtain ⟨inside, new⟩ := List.mem_filter.mp mem
        obtain ⟨other, unreached⟩ := (fresh _).mp new
        refine ⟨other, Nat.le_refl _, (reached _).mp inside, fun n path => ?_⟩
        by_contra shorter
        exact unreached n (by omega) path
    · rintro ⟨other, le, distance⟩
      rcases Nat.le_succ_iff.mp le with old | rfl
      · exact .inl ⟨other, old, distance⟩
      · refine .inr ⟨m, List.mem_filter.mpr ⟨(reached m).mpr distance.path, (fresh m).mpr ⟨other, ?_⟩⟩, rfl⟩
        intro n le path
        have := distance.least n path
        omega
  · refine List.pairwise_append.mpr ⟨levels.sorted, ?_, ?_⟩
    · refine List.pairwise_map.mpr (((pairwise_successors db frontier).filter _).imp fun first => ?_)
      exact .inr ⟨rfl, first⟩
    · intro p mem q mem'
      obtain ⟨-, le, -⟩ := (levels.found_iff p.1 p.2).mp mem
      obtain ⟨n, -, rfl⟩ := List.mem_map.mp mem'
      exact .inl (Nat.lt_succ_of_le le)

theorem Levels.hopLevels {db : Db F} {start : String} (steps : Nat) :
    ∀ {level frontier found}, Levels db start level frontier found →
      ∃ frontier', Levels db start (level + steps) frontier'
        (db.hopLevels start steps level frontier found) := by
  induction steps with
  | zero => exact fun levels => ⟨_, levels⟩
  | succ steps ih =>
      intro level frontier found levels
      obtain ⟨frontier', done⟩ := ih levels.next
      rw [Nat.add_right_comm, Nat.add_assoc] at done
      exact ⟨frontier', done⟩

/-- Each node is listed once. -/
theorem Levels.nodup {db : Db F} {start : String} {level : Nat} {frontier : List String}
    {found : List (String × Nat)} (levels : Levels db start level frontier found) :
    (found.map Prod.fst).Nodup := by
  refine List.pairwise_map.mpr (levels.sorted.imp_of_mem fun {p q} mem mem' ahead same => ?_)
  obtain ⟨-, -, distance⟩ := (levels.found_iff p.1 p.2).mp mem
  obtain ⟨-, -, distance'⟩ := (levels.found_iff q.1 q.2).mp mem'
  rw [same] at distance
  have equal : p = q := Prod.ext same (distance.unique distance')
  rw [equal] at ahead
  exact ahead.asymm ahead

/-- The entities before one at distance `d` in the order of the query. -/
def before (db : Db F) (start c : String) (d : Nat) : Set String :=
  {m | m ≠ start ∧ ∃ d', Distance db.Related start m d' ∧ Ahead (m, d') (c, d)}

/-- An entity is left in the list when it is within the hops and less than
`N_HOP_RESULT_LIMIT` are before it. -/
theorem mem_nHopReachable {db : Db F} {start : String} {hopLimit : Nat} {c : String} {d : Nat} :
    (c, d) ∈ db.nHopReachable start hopLimit ↔ c ≠ start ∧ d ≤ hopLimit ∧
      Distance db.Related start c d ∧ (db.before start c d).ncard < N_HOP_RESULT_LIMIT := by
  obtain ⟨_, levels⟩ := (Levels.start db start).hopLevels hopLimit
  rw [Nat.zero_add] at levels
  unfold nHopReachable
  have cut : (c, d) ∈ db.hopLevels start hopLimit 0 [start] [] →
      ((c, d) ∈ (db.hopLevels start hopLimit 0 [start] []).take N_HOP_RESULT_LIMIT ↔
        (db.before start c d).ncard < N_HOP_RESULT_LIMIT) := by
    intro mem
    rw [mem_take_iff Ahead.asymm levels.sorted mem]
    generalize db.hopLevels start hopLimit 0 [start] [] = found at levels mem
    obtain ⟨-, le, -⟩ := (levels.found_iff c d).mp mem
    have ahead : ∀ m, m ∈ db.before start c d ↔ m ∈ (found.filter fun p => Ahead p (c, d)).map Prod.fst := by
      intro m
      simp only [before, Set.mem_ofPred_eq, List.mem_map, List.mem_filter, decide_eq_true_eq]
      constructor
      · rintro ⟨other, d', distance, first⟩
        have within : d' ≤ hopLimit := by
          rcases first with closer | ⟨same, -⟩
          · exact Nat.le_trans (Nat.le_of_lt closer) le
          · exact same.trans_le le
        exact ⟨(m, d'), ⟨(levels.found_iff m d').mpr ⟨other, within, distance⟩, first⟩, rfl⟩
      · rintro ⟨⟨_, d'⟩, ⟨listed, first⟩, rfl⟩
        obtain ⟨other, -, distance⟩ := (levels.found_iff _ d').mp listed
        exact ⟨other, d', distance, first⟩
    have nodup : ((found.filter fun p => Ahead p (c, d)).map Prod.fst).Nodup :=
      levels.nodup.sublist (List.filter_sublist.map _)
    rw [ncard_eq_length nodup ahead, List.length_map]
  constructor
  · intro taken
    have mem := List.mem_of_mem_take taken
    obtain ⟨other, le, distance⟩ := (levels.found_iff c d).mp mem
    exact ⟨other, le, distance, (cut mem).mp taken⟩
  · rintro ⟨other, le, distance, few⟩
    exact (cut ((levels.found_iff c d).mpr ⟨other, le, distance⟩)).mpr few

end Db

end FusionMemory
