import Mathlib.Data.List.Basic

/-!
Texts and lengths as bytes.

`utf8` and `fromUtf8` are the encoding of a string; bytes that start with the encoding of
one string and are the encoding of another say that the first starts the second. A length
of 32 bits is written in network order.
-/

namespace Lib

/-! ### UTF-8 -/

def utf8 (s : String) : List UInt8 := s.toUTF8.data.toList

def fromUtf8 (bytes : List UInt8) : Option String := String.fromUTF8? bytes.toByteArray

theorem toByteArray_utf8 (s : String) : (utf8 s).toByteArray = s.toByteArray := by
  rw [utf8, String.toUTF8_eq_toByteArray]
  exact ByteArray.ext (by rw [List.data_toByteArray, Array.toArray_toList])

@[simp] theorem fromUtf8_utf8 (s : String) : fromUtf8 (utf8 s) = some s := by
  rw [fromUtf8, toByteArray_utf8, String.fromUTF8?, dif_pos s.isValidUTF8]
  rfl

theorem utf8_of_fromUtf8 {bytes : List UInt8} {s : String} (read : fromUtf8 bytes = some s) :
    utf8 s = bytes := by
  unfold fromUtf8 String.fromUTF8? at read
  split_ifs at read with valid
  cases read
  exact List.toList_data_toByteArray

theorem utf8_eq_flatMap (s : String) : utf8 s = s.toList.flatMap String.utf8EncodeChar := by
  rw [← List.toByteArray_inj, toByteArray_utf8, ← String.utf8Encode_toList]
  rfl

theorem utf8_append (s t : String) : utf8 (s ++ t) = utf8 s ++ utf8 t := by
  rw [utf8_eq_flatMap, String.toList_append, List.flatMap_append, utf8_eq_flatMap, utf8_eq_flatMap]

/-- The encoding of one string starts that of another only where the string does. -/
theorem append_of_utf8 {s t : String} {rest : List UInt8} (split : utf8 s ++ rest = utf8 t) :
    ∃ u, s ++ u = t ∧ utf8 u = rest := by
  have encoded : s.toList.utf8Encode ++ rest.toByteArray = t.toList.utf8Encode := by
    rw [String.utf8Encode_toList, String.utf8Encode_toList, ← toByteArray_utf8 s,
      ← toByteArray_utf8 t, ← split, List.toByteArray_append]
  obtain ⟨tail, chars⟩ := List.isPrefix_of_utf8Encode_append_eq_utf8Encode rest.toByteArray encoded
  have whole : s ++ String.ofList tail = t := by
    rw [← String.toList_inj, String.toList_append, String.toList_ofList, chars]
  rw [← whole, utf8_append] at split
  exact ⟨_, whole, (List.append_cancel_left split).symm⟩

theorem length_le_utf8 (s : String) : s.length ≤ (utf8 s).length := by
  rw [utf8_eq_flatMap, ← String.length_toList]
  induction s.toList with
  | nil => exact Nat.le_refl 0
  | cons c rest ih =>
      have one : 0 < (String.utf8EncodeChar c).length := by
        rw [String.length_utf8EncodeChar]
        exact c.utf8Size_pos
      rw [List.flatMap_cons, List.length_append, List.length_cons]
      omega

theorem length_utf8_le (s : String) : (utf8 s).length ≤ 4 * s.length := by
  rw [utf8_eq_flatMap, ← String.length_toList]
  induction s.toList with
  | nil => exact Nat.le_refl 0
  | cons c rest ih =>
      have four : (String.utf8EncodeChar c).length ≤ 4 := by
        rw [String.length_utf8EncodeChar]
        exact c.utf8Size_le_four
      rw [List.flatMap_cons, List.length_append, List.length_cons]
      omega
/-! ### Network order -/

/-- `u32::to_be_bytes`. -/
def toBeBytes (n : Nat) : List UInt8 :=
  [UInt8.ofNat (n / 16777216), UInt8.ofNat (n / 65536), UInt8.ofNat (n / 256), UInt8.ofNat n]

/-- `u32::from_be_bytes`. -/
def fromBeBytes (bytes : List UInt8) : Nat := bytes.foldl (fun n byte => n * 256 + byte.toNat) 0

theorem fromBeBytes_toBeBytes {n : Nat} (fits : n < 4294967296) : fromBeBytes (toBeBytes n) = n := by
  simp only [fromBeBytes, toBeBytes, List.foldl_cons, List.foldl_nil, UInt8.toNat_ofNat']
  omega

end Lib
