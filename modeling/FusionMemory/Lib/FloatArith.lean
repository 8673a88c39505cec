import Mathlib.Algebra.Group.Int.Defs
import Mathlib.Algebra.Group.Nat.Defs
import Mathlib.Data.Nat.Log
import Mathlib.Data.Int.Order.Basic

/-!
Floating-point arithmetic as a parameter.

Code that computes on floats is modelled over a type `F` with the operations the
code uses. Results that need no law of arithmetic then hold for IEEE doubles and
for the reals alike. `Fixed` is a computable instance, decimal fixed point with
six places, on which models can be evaluated.
-/

namespace Lib

/-- The floating-point operations of a program. `literal m e` is the decimal
literal `m * 10 ^ (-e)`, `truncate` is `x as usize`, and `isFinite` is false on
NaN and infinities. The laws are few, and IEEE arithmetic has them: no value is below
itself (NaN is not either), taking away zero changes nothing, and rounding keeps the
order of an integer and a decimal. -/
class FloatArith (F : Type) where
  ofNat : Nat → F
  literal : Nat → Nat → F
  add : F → F → F
  sub : F → F → F
  mul : F → F → F
  div : F → F → F
  neg : F → F
  exp : F → F
  log2 : F → F
  sqrt : F → F
  truncate : F → Nat
  isFinite : F → Bool
  lt : F → F → Bool
  lt_irrefl : ∀ x, lt x x = false
  sub_zero : ∀ x, sub x (ofNat 0) = x
  not_lt_literal : ∀ n m e, m ≤ n * 10 ^ e → lt (ofNat n) (literal m e) = false

namespace FloatArith

variable {F : Type} [FloatArith F]

attribute [simp] lt_irrefl

/-- `x == 0.0`: false on NaN, like the two comparisons. -/
def isZero (x : F) : Bool := isFinite x && !lt x (ofNat 0) && !lt (ofNat 0) x

/-- `a.min(b)`. -/
def min (a b : F) : F := if lt b a then b else a

/-- `a >= b`, for operands that are not NaN. -/
def ge (a b : F) : Bool := !lt a b

@[simp] theorem ge_self (x : F) : ge x x = true := by simp [ge]

/-- The order of a descending `sort_by` over `partial_cmp` with ties, and
incomparable pairs, left as they are: `a` may stay before `b`. -/
def descending (a b : F) : Bool := !lt a b

theorem descending_iff {a b : F} : descending a b = true ↔ lt a b = false := by simp [descending]

end FloatArith

/-- `x.is_nan()`, for code that tells NaN from the infinities. -/
class NanTest (F : Type) [FloatArith F] where
  isNan : F → Bool
  isNan_of_isFinite : ∀ {x}, FloatArith.isFinite x = true → isNan x = false

/-- The order of floats: it is transitive, and nothing is below NaN. -/
class FloatOrder (F : Type) [FloatArith F] [NanTest F] : Prop where
  lt_trans : ∀ {a b c : F}, FloatArith.lt a b = true → FloatArith.lt b c = true →
    FloatArith.lt a c = true
  lt_of_isNan : ∀ {a b : F}, NanTest.isNan b = true → FloatArith.lt a b = false

namespace NanTest

variable {F : Type} [FloatArith F] [NanTest F]

/-- `a >= b`: false if either is NaN. -/
def ge (a b : F) : Bool := !isNan a && !isNan b && !FloatArith.lt a b

theorem ge_iff {a b : F} : ge a b = true ↔
    isNan a = false ∧ isNan b = false ∧ FloatArith.lt a b = false := by
  simp [ge, and_assoc]

/-- Below a bound, or NaN. -/
theorem ge_eq_false {a b : F} (real : isNan b = false) (below : ge a b = false) :
    isNan a = true ∨ FloatArith.lt a b = true := by
  simp only [ge, real, Bool.not_false, Bool.and_true, Bool.and_eq_false_iff, Bool.not_eq_false'] at below
  exact below

end NanTest

/-- Fixed point with six decimals: `⟨m⟩` stands for `m / 10 ^ 6`. -/
structure Fixed where
  micros : Int
deriving DecidableEq, Repr

namespace Fixed

def scale : Int := 1000000

/-- Square `n` times: `(1 + x / 2 ^ n) ^ (2 ^ n)` converges to `exp x`. -/
def squareTimes : Nat → Int → Int
  | 0, m => m
  | n + 1, m => squareTimes n (m * m / scale)

instance : FloatArith Fixed where
  ofNat n := ⟨n * scale⟩
  literal m e := ⟨m * scale / 10 ^ e⟩
  add a b := ⟨a.micros + b.micros⟩
  sub a b := ⟨a.micros - b.micros⟩
  mul a b := ⟨a.micros * b.micros / scale⟩
  div a b := ⟨a.micros * scale / b.micros⟩
  neg a := ⟨-a.micros⟩
  -- Below -14 the value is less than one unit in the last place.
  exp a := if a.micros < -14 * scale then ⟨0⟩ else ⟨squareTimes 10 (scale + a.micros / 1024)⟩
  log2 a := ⟨Nat.log2 (a.micros / scale).toNat * scale⟩
  sqrt a := ⟨Nat.sqrt (a.micros * scale).toNat⟩
  truncate a := (a.micros / scale).toNat
  isFinite _ := true
  lt a b := decide (a.micros < b.micros)
  lt_irrefl _ := by simp
  sub_zero x := by
    cases x
    simp
  not_lt_literal n m e small := by
    have cast : (m : Int) * scale ≤ n * scale * 10 ^ e := by
      have le : (m : Int) ≤ n * 10 ^ e := by exact_mod_cast small
      calc (m : Int) * scale ≤ n * 10 ^ e * scale := Int.mul_le_mul_of_nonneg_right le (by decide)
        _ = n * scale * 10 ^ e := by rw [Int.mul_assoc, Int.mul_comm (10 ^ e), ← Int.mul_assoc]
    have rounded : (m : Int) * scale / 10 ^ e ≤ n * scale :=
      Int.ediv_le_of_le_mul (Int.pow_pos (by decide)) cast
    simpa using rounded

instance : NanTest Fixed where
  isNan _ := false
  isNan_of_isFinite _ := rfl

instance : FloatOrder Fixed where
  lt_trans below above :=
    decide_eq_true (Int.lt_trans (of_decide_eq_true below) (of_decide_eq_true above))
  lt_of_isNan nan := (by cases nan)

end Fixed

end Lib
