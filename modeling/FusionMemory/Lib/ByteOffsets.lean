import FusionMemory.Lib.Bytes

/-!
Byte offsets into a string.

A search for a character gives the number of bytes before it, and a slice between two offsets
is taken from the bytes, which may cut a character in two. `sliceInclusive_eq` says that it does
not between the offsets of whole characters.
-/

namespace Lib

/-- The bytes that characters take. -/
def byteLen : List Char → Nat
  | [] => 0
  | c :: rest => c.utf8Size + byteLen rest

theorem byteLen_append (cs ds : List Char) : byteLen (cs ++ ds) = byteLen cs + byteLen ds := by
  induction cs with
  | nil => exact (Nat.zero_add _).symm
  | cons c rest ih => rw [List.cons_append, byteLen, byteLen, ih, Nat.add_assoc]

theorem length_utf8 (s : String) : (utf8 s).length = byteLen s.toList := by
  rw [utf8_eq_flatMap]
  induction s.toList with
  | nil => rfl
  | cons c rest ih =>
      rw [List.flatMap_cons, List.length_append, ih, String.length_utf8EncodeChar, byteLen]

/-! ### Searching -/

/-- The offset of the first `c`, when the first character is at offset `i`. -/
def findFrom (c : Char) : Nat → List Char → Option Nat
  | _, [] => none
  | i, d :: rest => if d = c then some i else findFrom c (i + d.utf8Size) rest

/-- The offset of the last `c`. -/
def rfindFrom (c : Char) : Nat → List Char → Option Nat
  | _, [] => none
  | i, d :: rest => (rfindFrom c (i + d.utf8Size) rest).or (if d = c then some i else none)

/-- `s.find(c)`. -/
def findChar (c : Char) (s : String) : Option Nat := findFrom c 0 s.toList

/-- `s.rfind(c)`. -/
def rfindChar (c : Char) (s : String) : Option Nat := rfindFrom c 0 s.toList

section Search

variable {c : Char} {before after : List Char}

theorem findFrom_append (absent : c ∉ before) (i : Nat) :
    findFrom c i (before ++ c :: after) = some (i + byteLen before) := by
  induction before generalizing i with
  | nil => exact if_pos rfl
  | cons d rest ih =>
      obtain ⟨other, absent⟩ := not_or.mp (mt List.mem_cons.mpr absent)
      rw [List.cons_append, findFrom, if_neg (Ne.symm other), ih absent, byteLen, Nat.add_assoc]

theorem exists_of_findFrom {cs : List Char} {i k : Nat} (found : findFrom c i cs = some k) :
    ∃ before after, cs = before ++ c :: after ∧ c ∉ before ∧ k = i + byteLen before := by
  induction cs generalizing i with
  | nil => cases found
  | cons d rest ih =>
      unfold findFrom at found
      split_ifs at found with same
      · cases found
        subst same
        exact ⟨[], rest, rfl, List.not_mem_nil, rfl⟩
      · obtain ⟨before, after, rfl, absent, rfl⟩ := ih found
        refine ⟨d :: before, after, rfl, ?_, by rw [byteLen, Nat.add_assoc]⟩
        exact mt List.mem_cons.mp (not_or.mpr ⟨Ne.symm same, absent⟩)

theorem rfindFrom_eq_none (absent : c ∉ after) (i : Nat) : rfindFrom c i after = none := by
  induction after generalizing i with
  | nil => rfl
  | cons d rest ih =>
      obtain ⟨other, absent⟩ := not_or.mp (mt List.mem_cons.mpr absent)
      rw [rfindFrom, ih absent, if_neg (Ne.symm other), Option.none_or]

theorem rfindFrom_append (absent : c ∉ after) (i : Nat) :
    rfindFrom c i (before ++ c :: after) = some (i + byteLen before) := by
  induction before generalizing i with
  | nil =>
      rw [List.nil_append, rfindFrom, rfindFrom_eq_none absent, if_pos rfl, Option.none_or]
      rfl
  | cons d rest ih =>
      rw [List.cons_append, rfindFrom, ih, Option.some_or, byteLen, Nat.add_assoc]

theorem exists_of_rfindFrom {cs : List Char} {i k : Nat} (found : rfindFrom c i cs = some k) :
    ∃ before after, cs = before ++ c :: after ∧ c ∉ after ∧ k = i + byteLen before := by
  by_cases mem : c ∈ cs
  · -- The first `c` from the back.
    obtain ⟨after, before, backwards, absent⟩ :=
      List.eq_append_cons_of_mem (List.mem_reverse.mpr mem)
    have split : cs = before.reverse ++ c :: after.reverse := by
      rw [← cs.reverse_reverse, backwards]
      simp
    rw [← List.mem_reverse] at absent
    rw [split, rfindFrom_append absent] at found
    exact ⟨_, _, split, absent, (Option.some.inj found).symm⟩
  · rw [rfindFrom_eq_none mem] at found
    cases found

end Search

/-! ### Slicing -/

/-- `&s[i..=j]`, for `i ≤ j`: none where it panics, past the end or within a character. -/
def sliceInclusive (s : String) (i j : Nat) : Option String :=
  if j < (utf8 s).length then fromUtf8 (((utf8 s).take (j + 1)).drop i) else none

/-- From the offset of a character to the last byte of another. -/
theorem sliceInclusive_eq {s : String} {before mid after : List Char} {j : Nat}
    (split : s.toList = before ++ (mid ++ after)) (last : j + 1 = byteLen before + byteLen mid) :
    sliceInclusive s (byteLen before) j = some (String.ofList mid) := by
  have text : s = String.ofList before ++ (String.ofList mid ++ String.ofList after) := by
    rw [← String.toList_inj, split]
    simp
  have bytes : utf8 s = utf8 (String.ofList before) ++ utf8 (String.ofList mid) ++
      utf8 (String.ofList after) := by
    rw [text, utf8_append, utf8_append, List.append_assoc]
  have first : (utf8 (String.ofList before)).length = byteLen before := by
    rw [length_utf8, String.toList_ofList]
  have both : (utf8 (String.ofList before) ++ utf8 (String.ofList mid)).length = j + 1 := by
    rw [List.length_append, length_utf8, length_utf8, String.toList_ofList, String.toList_ofList, last]
  have inside : j < (utf8 s).length := by
    rw [bytes, List.length_append, both]
    omega
  unfold sliceInclusive
  rw [if_pos inside, bytes, List.take_left' both, List.drop_left' first, fromUtf8_utf8]

end Lib
