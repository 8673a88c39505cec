import FusionMemory.Lib.Bytes
import Mathlib.Data.List.Induction
import Mathlib.Data.List.Sort
import Mathlib.Tactic.Ring

/-!
Numbers in a fixed number of bytes.

`beBytes k` writes a number in network order; byte strings of one width are compared, byte by
byte, as the numbers are. `FloatBits` is a float of 32 bits, and `leWords` and `fromLeWords` are a
list of such floats, each with its last byte first.
-/

namespace Lib

/-! ### Network order -/

/-- The last `k` digits to base 256, the first of them first. -/
def beBytes : Nat → Nat → List UInt8
  | 0, _ => []
  | k + 1, n => beBytes k (n / 256) ++ [UInt8.ofNat n]

@[simp] theorem length_beBytes (k n : Nat) : (beBytes k n).length = k := by
  induction k generalizing n with
  | zero => rfl
  | succ k ih => rw [beBytes, List.length_append, ih, List.length_singleton]

theorem fromBeBytes_concat (bytes : List UInt8) (byte : UInt8) :
    fromBeBytes (bytes ++ [byte]) = fromBeBytes bytes * 256 + byte.toNat := by
  unfold fromBeBytes
  rw [List.foldl_append, List.foldl_cons, List.foldl_nil]

theorem fromBeBytes_lt (bytes : List UInt8) : fromBeBytes bytes < 256 ^ bytes.length := by
  induction bytes using List.reverseRecOn with
  | nil => exact Nat.one_pos
  | append_singleton bytes byte ih =>
      have digit : byte.toNat < 256 := byte.toNat_lt
      rw [fromBeBytes_concat, List.length_append, List.length_singleton, pow_succ]
      omega

theorem fromBeBytes_beBytes {k n : Nat} (fits : n < 256 ^ k) : fromBeBytes (beBytes k n) = n := by
  induction k generalizing n with
  | zero => exact (Nat.lt_one_iff.mp fits).symm
  | succ k ih =>
      have high : n / 256 < 256 ^ k := Nat.div_lt_of_lt_mul (by rwa [pow_succ, Nat.mul_comm] at fits)
      rw [beBytes, fromBeBytes_concat, ih high, UInt8.toNat_ofNat']
      omega

theorem beBytes_fromBeBytes (bytes : List UInt8) :
    beBytes bytes.length (fromBeBytes bytes) = bytes := by
  induction bytes using List.reverseRecOn with
  | nil => rfl
  | append_singleton bytes byte ih =>
      have digit : byte.toNat < 256 := byte.toNat_lt
      have high : (fromBeBytes bytes * 256 + byte.toNat) / 256 = fromBeBytes bytes := by omega
      have low : UInt8.ofNat (fromBeBytes bytes * 256 + byte.toNat) = byte := by
        apply UInt8.toNat_inj.mp
        rw [UInt8.toNat_ofNat']
        omega
      rw [fromBeBytes_concat, List.length_append, List.length_singleton, beBytes, high, ih, low]

theorem fromBeBytes_cons (byte : UInt8) (bytes : List UInt8) :
    fromBeBytes (byte :: bytes) = byte.toNat * 256 ^ bytes.length + fromBeBytes bytes := by
  induction bytes using List.reverseRecOn with
  | nil => simp [fromBeBytes]
  | append_singleton bytes last ih =>
      rw [← List.cons_append, fromBeBytes_concat, fromBeBytes_concat, ih, List.length_append,
        List.length_singleton, pow_succ]
      ring

/-! ### The order of bytes -/

/-- `a <= b` of two byte strings. -/
def bytesLe : List UInt8 → List UInt8 → Bool
  | [], _ => true
  | _ :: _, [] => false
  | a :: as, b :: bs => decide (a < b) || (a == b && bytesLe as bs)

theorem bytesLe_cons {a b : UInt8} {as bs : List UInt8} : bytesLe (a :: as) (b :: bs) = true ↔
    a.toNat < b.toNat ∨ a.toNat = b.toNat ∧ bytesLe as bs = true := by
  rw [bytesLe, Bool.or_eq_true, decide_eq_true_eq, Bool.and_eq_true, beq_iff_eq, UInt8.lt_iff_toNat_lt,
    UInt8.toNat_inj]

theorem bytesLe_total (as bs : List UInt8) : bytesLe as bs = true ∨ bytesLe bs as = true := by
  induction as generalizing bs with
  | nil => exact .inl rfl
  | cons a as ih =>
      cases bs with
      | nil => exact .inr rfl
      | cons b bs =>
          rw [bytesLe_cons, bytesLe_cons]
          rcases Nat.lt_trichotomy a.toNat b.toNat with less | same | more
          · exact .inl (.inl less)
          · exact (ih bs).imp (fun le => .inr ⟨same, le⟩) fun le => .inr ⟨same.symm, le⟩
          · exact .inr (.inl more)

theorem bytesLe_trans {as bs cs : List UInt8} (first : bytesLe as bs = true)
    (second : bytesLe bs cs = true) : bytesLe as cs = true := by
  induction as generalizing bs cs with
  | nil => rfl
  | cons a as ih =>
      cases bs with
      | nil => cases first
      | cons b bs =>
          cases cs with
          | nil => cases second
          | cons c cs =>
              rw [bytesLe_cons] at first second ⊢
              rcases first with less | ⟨same, le⟩
              · rcases second with less' | ⟨same', -⟩
                · exact .inl (less.trans less')
                · exact .inl (same' ▸ less)
              · rcases second with less' | ⟨same', le'⟩
                · exact .inl (same ▸ less')
                · exact .inr ⟨same.trans same', ih le le'⟩

/-- Keys of one width are in the order of the numbers that they write. -/
theorem bytesLe_iff {as bs : List UInt8} (width : as.length = bs.length) :
    bytesLe as bs = true ↔ fromBeBytes as ≤ fromBeBytes bs := by
  induction as generalizing bs with
  | nil =>
      cases bs with
      | nil => exact iff_of_true rfl (Nat.le_refl _)
      | cons b bs => cases width
  | cons a as ih =>
      cases bs with
      | nil => cases width
      | cons b bs =>
          have width' : as.length = bs.length := Nat.succ.inj width
          have low := fromBeBytes_lt as
          have low' := fromBeBytes_lt bs
          rw [bytesLe_cons, ih width', fromBeBytes_cons, fromBeBytes_cons, width']
          rw [width'] at low
          generalize 256 ^ bs.length = unit at low low'
          constructor
          · rintro (less | ⟨same, le⟩)
            · have step : (a.toNat + 1) * unit ≤ b.toNat * unit := Nat.mul_le_mul_right unit less
              rw [Nat.succ_mul] at step
              omega
            · rw [same]
              omega
          · intro le
            rcases Nat.lt_trichotomy a.toNat b.toNat with less | same | more
            · exact .inl less
            · rw [same] at le
              exact .inr ⟨same, by omega⟩
            · have step : (b.toNat + 1) * unit ≤ a.toNat * unit := Nat.mul_le_mul_right unit more
              rw [Nat.succ_mul] at step
              omega

/-! ### Floats of 32 bits -/

/-- The bits of a float, as `to_bits` and `from_bits` of `f32` give and take them. -/
class FloatBits (F : Type) where
  toBits : F → Nat
  ofBits : Nat → F
  toBits_lt : ∀ x, toBits x < 4294967296
  ofBits_toBits : ∀ x, ofBits (toBits x) = x

/-- A word is its own bits. -/
instance : FloatBits UInt32 where
  toBits := UInt32.toNat
  ofBits := UInt32.ofNat
  toBits_lt := UInt32.toNat_lt
  ofBits_toBits := fun _ => UInt32.ofNat_toNat

section Floats

variable {F : Type} [FloatBits F]

/-- `f32::to_le_bytes`. -/
def toLeBytes (x : F) : List UInt8 := (beBytes 4 (FloatBits.toBits x)).reverse

/-- `f32::from_le_bytes`. -/
def fromLeBytes (bytes : List UInt8) : F := FloatBits.ofBits (fromBeBytes bytes.reverse)

theorem length_toLeBytes (x : F) : (toLeBytes x).length = 4 := by
  rw [toLeBytes, List.length_reverse, length_beBytes]

theorem fromLeBytes_toLeBytes (x : F) : fromLeBytes (toLeBytes x) = x := by
  unfold fromLeBytes toLeBytes
  rw [List.reverse_reverse, fromBeBytes_beBytes (FloatBits.toBits_lt x), FloatBits.ofBits_toBits]

/-- All floats of a list, one after the other. -/
def leWords (xs : List F) : List UInt8 := xs.flatMap toLeBytes

/-- The floats of the chunks of four bytes; what is left over is dropped. -/
def fromLeWords : List UInt8 → List F
  | a :: b :: c :: d :: rest => fromLeBytes [a, b, c, d] :: fromLeWords rest
  | _ => []

theorem length_leWords (xs : List F) : (leWords xs).length = 4 * xs.length := by
  induction xs with
  | nil => rfl
  | cons x xs ih =>
      rw [leWords, List.flatMap_cons, List.length_append, length_toLeBytes, ← leWords, ih,
        List.length_cons]
      omega

theorem fromLeWords_leWords (xs : List F) : fromLeWords (leWords xs) = xs := by
  induction xs with
  | nil => rfl
  | cons x xs ih =>
      have width := length_toLeBytes x
      rw [leWords, List.flatMap_cons, ← leWords]
      match bytes : toLeBytes x, width with
      | [a, b, c, d], _ =>
          change fromLeBytes [a, b, c, d] :: fromLeWords (leWords xs) = x :: xs
          rw [ih, ← bytes, fromLeBytes_toLeBytes]

end Floats

end Lib
