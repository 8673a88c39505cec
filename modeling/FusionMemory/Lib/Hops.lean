import Mathlib.Data.Set.Card

/-!
Distances in a directed graph, and what is left of a sorted list that is cut off.

`Path edge n a b` is a path of `n` edges, `Distance` the length of a shortest one. `Least` is
the least member of a set of numbers, if it has one.
-/

namespace Lib

section Path

variable {α : Type} (edge : α → α → Prop)

/-- A path of `n` edges from `a` to `b`. -/
def Path : Nat → α → α → Prop
  | 0, a, b => a = b
  | n + 1, a, b => ∃ m, Path n a m ∧ edge m b

/-- The number of edges of a shortest path. -/
structure Distance (a b : α) (d : Nat) : Prop where
  path : Path edge d a b
  least : ∀ n, Path edge n a b → d ≤ n

variable {edge} {a b : α} {d d' n : Nat}

theorem Distance.unique (one : Distance edge a b d) (other : Distance edge a b d') : d = d' :=
  Nat.le_antisymm (one.least d' other.path) (other.least d one.path)

/-- Where there is a path, there is a shortest one. -/
theorem Path.exists_distance (path : Path edge n a b) : ∃ d ≤ n, Distance edge a b d := by
  classical
  have some : ∃ d, Path edge d a b := ⟨n, path⟩
  exact ⟨Nat.find some, Nat.find_min' some path, Nat.find_spec some, fun _ => Nat.find_min' some⟩

theorem distance_zero_iff : Distance edge a b 0 ↔ a = b :=
  ⟨fun h => h.path, fun same => ⟨same, fun _ _ => Nat.zero_le _⟩⟩

end Path

/-! ### The least of a set of numbers -/

/-- The least number with a property, if one has it. -/
def Least (S : Nat → Prop) : Option Nat → Prop
  | none => ∀ d, ¬ S d
  | some d => S d ∧ ∀ d', S d' → d ≤ d'

/-- The smaller of two numbers; none is above all. -/
def nearer : Option Nat → Option Nat → Option Nat
  | none, y => y
  | x, none => x
  | some a, some b => some (min a b)

theorem exists_least (S : Nat → Prop) : ∃ x, Least S x := by
  classical
  by_cases some : ∃ d, S d
  · exact ⟨.some (Nat.find some), Nat.find_spec some, fun _ => Nat.find_min' some⟩
  · exact ⟨none, not_exists.mp some⟩

theorem Least.unique {S : Nat → Prop} : ∀ {x y}, Least S x → Least S y → x = y
  | none, none, _, _ => rfl
  | none, some d, empty, least => (empty d least.1).elim
  | some d, none, least, empty => (empty d least.1).elim
  | some d, some d', least, least' =>
      congrArg some (Nat.le_antisymm (least.2 d' least'.1) (least'.2 d least.1))

theorem Least.congr {S T : Nat → Prop} (same : ∀ d, S d ↔ T d) {x : Option Nat} :
    Least S x ↔ Least T x := by
  have eq : S = T := funext fun d => propext (same d)
  rw [eq]

theorem Least.nearer {S T : Nat → Prop} : ∀ {x y}, Least S x → Least T y →
    Least (fun d => S d ∨ T d) (nearer x y)
  | none, none, empty, empty' => fun d has => has.elim (empty d) (empty' d)
  | none, some d, empty, least =>
      ⟨.inr least.1, fun d' has => has.elim (fun in_ => (empty d' in_).elim) (least.2 d')⟩
  | some d, none, least, empty =>
      ⟨.inl least.1, fun d' has => has.elim (least.2 d') fun in_ => (empty d' in_).elim⟩
  | some d, some d', least, least' => by
      refine ⟨?_, fun e has => has.elim (fun in_ => ?_) fun in_ => ?_⟩
      · rcases Nat.le_total d d' with le | le
        · rw [Nat.min_eq_left le]
          exact .inl least.1
        · rw [Nat.min_eq_right le]
          exact .inr least'.1
      · exact Nat.le_trans (Nat.min_le_left _ _) (least.2 e in_)
      · exact Nat.le_trans (Nat.min_le_right _ _) (least'.2 e in_)

/-- One more number. -/
theorem Least.insert {S : Nat → Prop} {x : Option Nat} (least : Least S x) (d : Nat) :
    Least (fun e => S e ∨ e = d) (Lib.nearer x (some d)) := by
  have own : Least (fun e => e = d) (some d) := ⟨rfl, fun e same => Nat.le_of_eq (Eq.symm same)⟩
  exact least.nearer own

/-! ### Sorted lists cut off -/

section Cut

variable {β : Type} {r : β → β → Prop} [DecidableRel r]

/-- The first `n` of a sorted list are those with fewer than `n` before them. -/
theorem mem_take_iff (asymm : ∀ {x y}, r x y → ¬ r y x) {l : List β} (sorted : l.Pairwise r) {x : β}
    (mem : x ∈ l) {n : Nat} : x ∈ l.take n ↔ (l.filter fun y => r y x).length < n := by
  obtain ⟨before, after, rfl⟩ := List.append_of_mem mem
  obtain ⟨-, tail, cross⟩ := List.pairwise_append.mp sorted
  have first : ∀ y ∈ before, r y x := fun y inside => cross y inside x List.mem_cons_self
  have rest : ∀ y ∈ x :: after, ¬ r y x := by
    intro y inside
    rcases List.mem_cons.mp inside with rfl | inside
    · exact fun self => asymm self self
    · exact asymm ((List.pairwise_cons.mp tail).1 y inside)
  have kept : (before ++ x :: after).filter (fun y => r y x) = before := by
    rw [List.filter_append, List.filter_eq_self.mpr fun y inside => decide_eq_true (first y inside),
      List.filter_eq_nil_iff.mpr fun y inside => by simp [rest y inside], List.append_nil]
  rw [kept]
  constructor
  · intro taken
    by_contra short
    rw [List.take_append_of_le_length (not_lt.mp short)] at taken
    have self := first x (List.mem_of_mem_take taken)
    exact asymm self self
  · intro long
    rw [List.take_append, List.take_of_length_le (Nat.le_of_lt long)]
    obtain ⟨k, more⟩ := Nat.exists_eq_add_of_lt long
    refine List.mem_append_right _ ?_
    rw [show n - before.length = k + 1 from by omega, List.take_succ_cons]
    exact List.mem_cons_self

end Cut

/-- A set that a list without repetition lists has as many members as the list. -/
theorem ncard_eq_length {β : Type} {S : Set β} {l : List β} (nodup : l.Nodup)
    (mem : ∀ x, x ∈ S ↔ x ∈ l) : S.ncard = l.length := by
  classical
  have listed : S = ↑l.toFinset := Set.ext fun x => by simp [mem x]
  rw [listed, Set.ncard_coe_finset, List.toFinset_card_of_nodup nodup]

end Lib
