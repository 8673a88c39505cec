import FusionMemory.Engine.TimeUnits

/-!
Forgetting over the reals (`fm-similarity/src/decay.rs`, `fm-engine/src/scoring.rs`).

The weight of a memory is its initial weight times a decay in `(0, 1]`, which falls with time,
times a reinforcement in `[1, 5]`, which grows with the recalls until it is capped. An age does
not go below zero, so before its creation a memory weighs what it weighs then.

`forgetting_monotone` puts them together: a memory that is forgotten stays so when it gets
older and is not recalled, and one that is kept was kept before.
-/

namespace FusionMemory

open Lib

/-- The memory with another count of recalls. -/
def MemoryItem.recalledTimes {F : Type} (m : MemoryItem F) (n : Nat) : MemoryItem F :=
  { m with accessCount := n }

noncomputable section

/-- What is left of a weight at `now`. -/
def decayAt (createdTimestamp now : Nat) (memType : MemoryType) : ℝ :=
  Real.exp (-((now - createdTimestamp : ℕ) : ℝ) / memType.tauSeconds)

/-! ### The two factors -/

theorem decayAt_nonneg (created now : Nat) (memType : MemoryType) :
    0 ≤ decayAt created now memType :=
  Real.exp_nonneg _

theorem decayAt_le_one (created now : Nat) (memType : MemoryType) :
    decayAt created now memType ≤ 1 := by
  unfold decayAt
  rw [Real.exp_le_one_iff]
  exact div_nonpos_of_nonpos_of_nonneg (neg_nonpos.mpr (Nat.cast_nonneg _)) (tauSeconds_pos _).le

/-- The decay falls with time, and begins with the creation. -/
theorem decayAt_antitone (created : Nat) (memType : MemoryType) {now later : Nat} (le : now ≤ later) :
    decayAt created later memType ≤ decayAt created now memType := by
  have older : ((now - created : ℕ) : ℝ) ≤ ((later - created : ℕ) : ℝ) :=
    Nat.cast_le.mpr (Nat.sub_le_sub_right le created)
  unfold decayAt
  apply Real.exp_le_exp.mpr
  exact div_le_div_of_nonneg_right (neg_le_neg older) (tauSeconds_pos _).le

theorem reinforceFactor_mono {n n' : Nat} (le : n ≤ n') :
    (reinforceFactor n : ℝ) ≤ reinforceFactor n' := by
  have count : (n : ℝ) + 1 ≤ n' + 1 := by exact_mod_cast Nat.succ_le_succ le
  have logs : Real.logb 2 (n + 1 : ℝ) ≤ Real.logb 2 (n' + 1) :=
    Real.logb_le_logb_of_le (by norm_num) (by positivity) count
  rw [reinforceFactor_real, reinforceFactor_real]
  exact min_le_min_right 5 (by linarith)

theorem reinforceFactor_le (n : Nat) : (reinforceFactor n : ℝ) ≤ 5 := by
  rw [reinforceFactor_real]
  exact min_le_right _ _

theorem one_le_reinforceFactor (n : Nat) : (1 : ℝ) ≤ reinforceFactor n := by
  have none : (reinforceFactor 0 : ℝ) = 1 := by
    rw [reinforceFactor_real]
    norm_num
  rw [← none]
  exact reinforceFactor_mono (Nat.zero_le n)

/-! ### The weight -/

theorem weightOf_eq_mul (m : MemoryItem ℝ) (now : Nat) : weightOf m now =
    m.weight * decayAt m.createdTimestamp now m.memoryType * reinforceFactor m.accessCount := rfl

variable {m : MemoryItem ℝ}

/-- A memory gets lighter with time, and heavier with recalls. -/
theorem weightOf_le (weighs : 0 ≤ m.weight) {now later n n' : Nat} (le : now ≤ later)
    (fewer : n' ≤ n) : weightOf (m.recalledTimes n') later ≤ weightOf (m.recalledTimes n) now := by
  rw [weightOf_eq_mul, weightOf_eq_mul]
  change m.weight * decayAt m.createdTimestamp later m.memoryType * reinforceFactor n' ≤
    m.weight * decayAt m.createdTimestamp now m.memoryType * reinforceFactor n
  have older := decayAt_antitone m.createdTimestamp m.memoryType le
  have start := decayAt_nonneg m.createdTimestamp now m.memoryType
  have factor : (0 : ℝ) ≤ reinforceFactor n' := zero_le_one.trans (one_le_reinforceFactor n')
  exact mul_le_mul (mul_le_mul_of_nonneg_left older weighs) (reinforceFactor_mono fewer) factor
    (mul_nonneg weighs start)

theorem weightOf_nonneg (weighs : 0 ≤ m.weight) (now : Nat) : 0 ≤ weightOf m now := by
  rw [weightOf_eq_mul]
  exact mul_nonneg (mul_nonneg weighs (decayAt_nonneg _ _ _))
    (zero_le_one.trans (one_le_reinforceFactor _))

theorem weightOf_le_cap (weighs : 0 ≤ m.weight) (now : Nat) : weightOf m now ≤ 5 * m.weight := by
  have decayed : m.weight * decayAt m.createdTimestamp now m.memoryType ≤ m.weight :=
    mul_le_of_le_one_right weighs (decayAt_le_one _ _ _)
  rw [weightOf_eq_mul]
  calc m.weight * decayAt m.createdTimestamp now m.memoryType * reinforceFactor m.accessCount
      ≤ m.weight * reinforceFactor m.accessCount :=
        mul_le_mul_of_nonneg_right decayed (zero_le_one.trans (one_le_reinforceFactor _))
    _ ≤ m.weight * 5 := mul_le_mul_of_nonneg_left (reinforceFactor_le _) weighs
    _ = 5 * m.weight := mul_comm _ _

theorem shouldRecycle_real (m : MemoryItem ℝ) (now : Nat) :
    shouldRecycle m now = true ↔ weightOf m now < THETA_DROP :=
  FloatArith.real_lt_iff _ _

/-! ### Forgetting -/

/-- How the decision to forget a memory depends on time and recalls. -/
structure ForgottenForGood (m : MemoryItem ℝ) : Prop where
  /-- What is forgotten stays forgotten, as long as it is not recalled. -/
  later : ∀ {now later n n' : Nat}, now ≤ later → n' ≤ n →
    shouldRecycle (m.recalledTimes n) now = true → shouldRecycle (m.recalledTimes n') later = true
  /-- What is kept was kept before, and would be with more recalls. -/
  earlier : ∀ {now earlier n n' : Nat}, earlier ≤ now → n ≤ n' →
    shouldRecycle (m.recalledTimes n) now = false → shouldRecycle (m.recalledTimes n') earlier = false

/-- Forgetting is monotone in time and in recalls, and at any time, before the creation too,
a memory weighs between nothing and five times its initial weight. -/
theorem forgetting_monotone (weighs : 0 ≤ m.weight) :
    ForgottenForGood m ∧ ∀ now, 0 ≤ weightOf m now ∧ weightOf m now ≤ 5 * m.weight := by
  have forward : ∀ {now later n n' : Nat}, now ≤ later → n' ≤ n →
      shouldRecycle (m.recalledTimes n) now = true →
        shouldRecycle (m.recalledTimes n') later = true := by
    intro now later n n' le fewer forgotten
    rw [shouldRecycle_real] at forgotten ⊢
    exact (weightOf_le weighs le fewer).trans_lt forgotten
  refine ⟨⟨forward, fun le more kept => ?_⟩,
    fun now => ⟨weightOf_nonneg weighs now, weightOf_le_cap weighs now⟩⟩
  rw [← Bool.not_eq_true] at kept ⊢
  exact mt (forward le more) kept

/-- The turn of a conversation, seen before it was created as well. -/
theorem forgetting_monotone_hourOld : 0 ≤ hourOld.weight ∧ ForgottenForGood hourOld ∧
    ∀ now, 0 ≤ weightOf hourOld now ∧ weightOf hourOld now ≤ 5 * hourOld.weight :=
  have weighs : 0 ≤ hourOld.weight := (initialWeight_pos .episodic).le
  ⟨weighs, forgetting_monotone weighs⟩

end

end FusionMemory
