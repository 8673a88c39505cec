import FusionMemory.Lib.DecimalJson

/-!
Texts of decimal JSON.

The parser takes the same value from a longer text, with the addition left over
(`parseValue_append`), unless the value is a number that the addition goes on. An object
is no number, so a text that was cut off inside an object is not parsed
(`parse_truncated`).

A text is at least as long as the strings of its value (`size_le_printChars`), and a string
at most six times as long when escaped (`length_printString_le`).
-/

namespace Lib

namespace Json

/-! ### Longer texts -/

theorem readDigits_more {cs rest : List Char} {acc n : Nat} (read : readDigits cs acc = (n, rest))
    (stopped : rest ≠ []) (more : List Char) : readDigits (cs ++ more) acc = (n, rest ++ more) := by
  induction cs generalizing acc with
  | nil =>
      cases read
      exact absurd rfl stopped
  | cons c tail ih =>
      rw [List.cons_append]
      unfold readDigits at read ⊢
      split_ifs at read ⊢ with digit
      · exact ih read
      · cases read
        rfl

theorem readFraction_more {cs rest : List Char} {scale acc n : Nat}
    (read : readFraction cs scale acc = (n, rest)) (stopped : rest ≠ []) (more : List Char) :
    readFraction (cs ++ more) scale acc = (n, rest ++ more) := by
  induction cs generalizing scale acc with
  | nil =>
      cases read
      exact absurd rfl stopped
  | cons c tail ih =>
      rw [List.cons_append]
      unfold readFraction at read ⊢
      split_ifs at read ⊢ with digit
      · exact ih read
      · cases read
        rfl

theorem afterChar_more {expected : Char} {cs rest : List Char}
    (read : afterChar expected cs = some rest) (more : List Char) :
    afterChar expected (cs ++ more) = some (rest ++ more) := by
  cases cs with
  | nil => cases read
  | cons c tail =>
      simp only [List.cons_append, afterChar] at read ⊢
      split_ifs at read ⊢
      cases read
      rfl

theorem afterWord_more {word : String} {cs rest : List Char} (read : afterWord word cs = some rest)
    (more : List Char) : afterWord word (cs ++ more) = some (rest ++ more) := by
  unfold afterWord at read ⊢
  split_ifs at read with starts
  obtain ⟨tail, rfl⟩ := starts
  cases read
  rw [if_pos ((List.prefix_append _ _).trans (List.prefix_append _ _))]
  have length : word.length = word.toList.length := rfl
  rw [length, List.append_assoc, List.drop_left, List.drop_left]

theorem readNumber_more {negative : Bool} {cs rest : List Char} {j : Json Fixed}
    (read : readNumber negative cs = (j, rest)) (stopped : rest ≠ []) (more : List Char) :
    readNumber negative (cs ++ more) = (j, rest ++ more) := by
  unfold readNumber at read ⊢
  cases whole : readDigits cs 0 with
  | mk n after =>
      rw [whole] at read
      dsimp only at read
      cases point : afterChar '.' after with
      | some digits =>
          have nonempty : after ≠ [] := by
            rintro rfl
            cases point
          rw [point] at read
          dsimp only at read
          cases fraction : readFraction digits 100000 0 with
          | mk f left =>
              rw [fraction] at read
              cases read
              rw [readDigits_more whole nonempty]
              dsimp only
              rw [afterChar_more point]
              dsimp only
              rw [readFraction_more fraction stopped]
      | none =>
          rw [point] at read
          cases read
          rw [readDigits_more whole stopped]
          dsimp only
          have still : afterChar '.' (rest ++ more) = none := by
            cases rest with
            | nil => exact absurd rfl stopped
            | cons c tail =>
                simp only [List.cons_append, afterChar] at point ⊢
                split_ifs at point ⊢
                rfl
          rw [still]

theorem readString_more {cs read rest : List Char} (found : readString cs = some (read, rest))
    (more : List Char) : readString (cs ++ more) = some (read, rest ++ more) := by
  fun_induction readString cs generalizing read rest with
  | case1 => cases found
  | case2 tail =>
      cases found
      rfl
  | case3 a b c d tail ih =>
      simp only [Option.bind_eq_bind, Option.bind_eq_some_iff, Option.pure_def] at found
      obtain ⟨va, ha, vb, hb, vc, hc, vd, hd, ⟨inner, left⟩, later, same⟩ := found
      cases same
      simp only [List.cons_append, readString, ha, hb, hc, hd, ih later]
      rfl
  | case4 c tail notHex ih =>
      simp only [Option.bind_eq_bind, Option.bind_eq_some_iff, Option.pure_def] at found
      obtain ⟨c', letter, ⟨inner, left⟩, later, same⟩ := found
      cases same
      have notU : c ≠ 'u' := by
        rintro rfl
        cases letter
      rw [List.cons_append, List.cons_append, readString_unescape letter notU, ih later]
      rfl
  | case5 c tail notQuote notHex notEscape ih =>
      simp only [Option.bind_eq_bind, Option.bind_eq_some_iff, Option.pure_def] at found
      obtain ⟨⟨inner, left⟩, later, same⟩ := found
      cases same
      have notSlash : c ≠ '\\' := by
        intro slash
        cases tail with
        | nil => cases later
        | cons c' tail => exact notEscape c' tail slash rfl
      rw [List.cons_append, readString]
      · rw [ih later]
        rfl
      · exact notQuote
      · intro _ _ _ _ _ slash _
        exact notSlash slash
      · intro _ _ slash _
        exact notSlash slash

theorem readKey_more {cs rest : List Char} {key : String} (read : readKey cs = some (key, rest))
    (more : List Char) : readKey (cs ++ more) = some (key, rest ++ more) := by
  simp only [readKey, Option.bind_eq_bind, Option.bind_eq_some_iff, Option.pure_def] at read ⊢
  obtain ⟨opened, quote, ⟨chars, after⟩, string, rest', colon, same⟩ := read
  cases same
  exact ⟨_, afterChar_more quote more, _, readString_more string more, _,
    afterChar_more colon more, rfl⟩

/-- The value is read to its end: what follows, or a closing character of its own, says so. -/
def Ends (j : Json Fixed) (rest : List Char) : Prop :=
  rest ≠ [] ∨ match j with
    | .int _ | .float _ => False
    | _ => True

theorem Ends.of_number {negative : Bool} {cs rest : List Char} {j : Json Fixed} (ends : Ends j rest)
    (read : readNumber negative cs = (j, rest)) : rest ≠ [] := by
  rcases ends with stopped | closed
  · exact stopped
  · unfold readNumber at read
    dsimp only at read
    cases point : afterChar '.' (readDigits cs 0).2 with
    | none =>
        rw [point] at read
        cases read
        exact closed.elim
    | some digits =>
        rw [point] at read
        cases read
        exact closed.elim

section Nonempty

variable {fuel : Nat} {cs rest : List Char}

theorem nonempty_of_value {j : Json Fixed} (read : parseValue fuel cs = some (j, rest)) : cs ≠ [] := by
  rintro rfl
  cases fuel <;> cases read

theorem nonempty_of_items {items : List (Json Fixed)}
    (read : parseItems fuel cs = some (items, rest)) : cs ≠ [] := by
  rintro rfl
  cases fuel <;> cases read

theorem nonempty_of_fields {fields : List (String × Json Fixed)}
    (read : parseFields fuel cs = some (fields, rest)) : cs ≠ [] := by
  rintro rfl
  cases fuel <;> cases read

theorem nonempty_of_key {key : String} (read : readKey cs = some (key, rest)) : cs ≠ [] := by
  rintro rfl
  cases read

theorem head_append_ne {c : Char} {added : List Char} (other : cs.head? ≠ some c)
    (nonempty : cs ≠ []) : (cs ++ added).head? ≠ some c := by
  cases cs with
  | nil => exact absurd rfl nonempty
  | cons d tail => exact other

end Nonempty

/-- The longer text, and more fuel, do not change what is parsed with some fuel. -/
structure More (fuel : Nat) : Prop where
  value {fuel' : Nat} {cs rest : List Char} {j : Json Fixed} : parseValue fuel cs = some (j, rest) →
    Ends j rest → fuel ≤ fuel' → ∀ more, parseValue fuel' (cs ++ more) = some (j, rest ++ more)
  items {fuel' : Nat} {cs rest : List Char} {items : List (Json Fixed)} :
    parseItems fuel cs = some (items, rest) → fuel ≤ fuel' →
      ∀ more, parseItems fuel' (cs ++ more) = some (items, rest ++ more)
  fields {fuel' : Nat} {cs rest : List Char} {fields : List (String × Json Fixed)} :
    parseFields fuel cs = some (fields, rest) → fuel ≤ fuel' →
      ∀ more, parseFields fuel' (cs ++ more) = some (fields, rest ++ more)

namespace More

variable {fuel : Nat}

theorem valueStep (more : More fuel) {fuel' : Nat} {cs rest : List Char} {j : Json Fixed}
    (read : parseValue (fuel + 1) cs = some (j, rest)) (ends : Ends j rest) (enough : fuel ≤ fuel')
    (added : List Char) : parseValue (fuel' + 1) (cs ++ added) = some (j, rest ++ added) := by
  cases cs with
  | nil => cases read
  | cons c cs =>
      rw [List.cons_append]
      rw [parseValue] at read ⊢
      split_ifs at read with null true' false' quote minus digit number bracket empty brace empty'
      · obtain ⟨after, word, same⟩ := Option.map_eq_some_iff.mp read
        cases same
        rw [if_pos null, afterWord_more word]
        rfl
      · obtain ⟨after, word, same⟩ := Option.map_eq_some_iff.mp read
        cases same
        rw [if_neg null, if_pos true', afterWord_more word]
        rfl
      · obtain ⟨after, word, same⟩ := Option.map_eq_some_iff.mp read
        cases same
        rw [if_neg null, if_neg true', if_pos false', afterWord_more word]
        rfl
      · obtain ⟨⟨chars, after⟩, string, same⟩ := Option.map_eq_some_iff.mp read
        cases same
        rw [if_neg null, if_neg true', if_neg false', if_pos quote, readString_more string]
        rfl
      · have numeral : readNumber true cs = (j, rest) := Option.some.inj read
        have digit' : (cs ++ added).head?.any (·.isDigit) = true := by
          cases cs with
          | nil => cases digit
          | cons d tail => exact digit
        rw [if_neg null, if_neg true', if_neg false', if_neg quote, if_pos minus, if_pos digit',
          readNumber_more numeral (ends.of_number numeral)]
      · have numeral : readNumber false (c :: cs) = (j, rest) := Option.some.inj read
        rw [if_neg null, if_neg true', if_neg false', if_neg quote, if_neg minus, if_pos number,
          ← List.cons_append, readNumber_more numeral (ends.of_number numeral)]
      · cases read
        obtain ⟨tail, rfl⟩ := List.head?_eq_some_iff.mp empty
        rw [if_neg null, if_neg true', if_neg false', if_neg quote, if_neg minus, if_neg number,
          if_pos bracket]
        rfl
      · simp only [Option.bind_eq_bind, Option.bind_eq_some_iff, Option.pure_def] at read
        obtain ⟨⟨first, after⟩, value, ⟨others, left⟩, items, same⟩ := read
        cases same
        have stays : (cs ++ added).head? ≠ some ']' := head_append_ne empty (nonempty_of_value value)
        rw [if_neg null, if_neg true', if_neg false', if_neg quote, if_neg minus, if_neg number,
          if_pos bracket, if_neg stays, more.value value (.inl (nonempty_of_items items)) enough]
        simp only [Option.bind_eq_bind, Option.bind_some, more.items items enough]
        rfl
      · cases read
        obtain ⟨tail, rfl⟩ := List.head?_eq_some_iff.mp empty'
        rw [if_neg null, if_neg true', if_neg false', if_neg quote, if_neg minus, if_neg number,
          if_neg bracket, if_pos brace]
        rfl
      · simp only [Option.bind_eq_bind, Option.bind_eq_some_iff, Option.pure_def] at read
        obtain ⟨⟨name, named⟩, key, ⟨first, after⟩, value, ⟨others, left⟩, fields, same⟩ := read
        cases same
        have stays : (cs ++ added).head? ≠ some '}' := head_append_ne empty' (nonempty_of_key key)
        rw [if_neg null, if_neg true', if_neg false', if_neg quote, if_neg minus, if_neg number,
          if_neg bracket, if_pos brace, if_neg stays, readKey_more key]
        simp only [Option.bind_eq_bind, Option.bind_some, more.fields fields enough,
          more.value value (.inl (nonempty_of_fields fields)) enough]
        rfl

theorem itemsStep (more : More fuel) {fuel' : Nat} {cs rest : List Char} {items : List (Json Fixed)}
    (read : parseItems (fuel + 1) cs = some (items, rest)) (enough : fuel ≤ fuel')
    (added : List Char) : parseItems (fuel' + 1) (cs ++ added) = some (items, rest ++ added) := by
  cases cs with
  | nil => cases read
  | cons c cs =>
      rw [List.cons_append]
      rw [parseItems] at read ⊢
      split_ifs at read with close comma
      · cases read
        rw [if_pos close]
      · simp only [Option.bind_eq_bind, Option.bind_eq_some_iff, Option.pure_def] at read
        obtain ⟨⟨first, after⟩, value, ⟨others, left⟩, items, same⟩ := read
        cases same
        rw [if_neg close, if_pos comma]
        simp only [Option.bind_eq_bind, Option.bind_some, more.items items enough,
          more.value value (.inl (nonempty_of_items items)) enough]
        rfl

theorem fieldsStep (more : More fuel) {fuel' : Nat} {cs rest : List Char}
    {fields : List (String × Json Fixed)} (read : parseFields (fuel + 1) cs = some (fields, rest))
    (enough : fuel ≤ fuel') (added : List Char) :
    parseFields (fuel' + 1) (cs ++ added) = some (fields, rest ++ added) := by
  cases cs with
  | nil => cases read
  | cons c cs =>
      rw [List.cons_append]
      rw [parseFields] at read ⊢
      split_ifs at read with close comma
      · cases read
        rw [if_pos close]
      · simp only [Option.bind_eq_bind, Option.bind_eq_some_iff, Option.pure_def] at read
        obtain ⟨⟨name, named⟩, key, ⟨first, after⟩, value, ⟨others, left⟩, fields, same⟩ := read
        cases same
        rw [if_neg close, if_pos comma, readKey_more key]
        simp only [Option.bind_eq_bind, Option.bind_some, more.fields fields enough,
          more.value value (.inl (nonempty_of_fields fields)) enough]
        rfl

end More

theorem more (fuel : Nat) : More fuel := by
  induction fuel with
  | zero =>
      exact ⟨fun read => (by cases read), fun read => (by cases read), fun read => (by cases read)⟩
  | succ fuel ih =>
      refine ⟨?_, ?_, ?_⟩
      · intro fuel' cs rest j read ends enough added
        cases fuel' with
        | zero => exact absurd enough (Nat.not_succ_le_zero fuel)
        | succ fuel' => exact ih.valueStep read ends (Nat.le_of_succ_le_succ enough) added
      · intro fuel' cs rest items read enough added
        cases fuel' with
        | zero => exact absurd enough (Nat.not_succ_le_zero fuel)
        | succ fuel' => exact ih.itemsStep read (Nat.le_of_succ_le_succ enough) added
      · intro fuel' cs rest fields read enough added
        cases fuel' with
        | zero => exact absurd enough (Nat.not_succ_le_zero fuel)
        | succ fuel' => exact ih.fieldsStep read (Nat.le_of_succ_le_succ enough) added

/-! ### Truncated objects -/

/-- What starts as an object is one. -/
theorem ends_of_brace {fuel : Nat} {cs rest : List Char} {j : Json Fixed}
    (read : parseValue fuel ('{' :: cs) = some (j, rest)) : Ends j rest := by
  cases fuel with
  | zero => cases read
  | succ fuel =>
      rw [parseValue, if_neg (by decide), if_neg (by decide), if_neg (by decide),
        if_neg (by decide), if_neg (by decide), if_neg (by decide), if_neg (by decide),
        if_pos rfl] at read
      split_ifs at read with empty
      · cases read
        exact .inr trivial
      · simp only [Option.bind_eq_bind, Option.bind_eq_some_iff, Option.pure_def] at read
        obtain ⟨_, _, _, _, _, _, same⟩ := read
        cases same
        exact .inr trivial

theorem printChars_brace (fields : List (String × Json Fixed)) :
    ∃ tail, printChars (.obj fields) = '{' :: tail := by
  cases fields with
  | nil => exact ⟨_, rfl⟩
  | cons p rest => exact ⟨_, rfl⟩

theorem print_nonempty (fields : List (String × Json Fixed)) : print (.obj fields) ≠ "" := by
  obtain ⟨tail, brace⟩ := printChars_brace fields
  intro empty
  have chars := congrArg String.toList empty
  rw [print, String.toList_ofList, brace] at chars
  cases chars

/-- An object that was cut off is not parsed. -/
theorem parse_truncated (fields : List (String × Json Fixed)) {s t : String}
    (cut : s ++ t = print (.obj fields)) (nonempty : t ≠ "") : parse s = none := by
  have chars : s.toList ++ t.toList = printChars (.obj fields) := by
    rw [← String.toList_append, cut, print, String.toList_ofList]
  by_contra parsed
  obtain ⟨j, parsed⟩ := Option.ne_none_iff_exists'.mp parsed
  simp only [parse, Option.bind_eq_bind, Option.bind_eq_some_iff] at parsed
  obtain ⟨⟨value, rest⟩, read, all⟩ := parsed
  split_ifs at all with done
  rw [List.isEmpty_iff] at done
  dsimp only at done
  subst done
  have ends : Ends value [] := by
    obtain ⟨tail, brace⟩ := printChars_brace fields
    cases start : s.toList with
    | nil =>
        rw [start] at read
        cases read
    | cons c cs =>
        rw [start, brace] at chars
        rw [start, (List.cons.inj chars).1] at read
        exact ends_of_brace read
  -- The whole text would be read with `t` left over.
  have enough : s.toList.length + 1 ≤ (s.toList ++ t.toList).length + 1 := by
    rw [List.length_append]
    omega
  have longer := (more _).value read ends enough t.toList
  have whole := parseValue_printChars (.obj fields) ((printChars (.obj fields)).length + 1) []
    stops_nil (Nat.lt_succ_self _)
  rw [chars, List.nil_append] at longer
  rw [List.append_nil] at whole
  have empty : t.toList = [] := congrArg Prod.snd (Option.some.inj (longer.symm.trans whole))
  exact nonempty (String.toList_inj.mp empty)

/-! ### Lengths -/

theorem length_escapeChar (c : Char) :
    1 ≤ (escapeChar c).length ∧ (escapeChar c).length ≤ 6 := by
  unfold escapeChar
  split_ifs <;> simp

theorem length_flatMap_escapeChar (cs : List Char) : cs.length ≤ (cs.flatMap escapeChar).length ∧
    (cs.flatMap escapeChar).length ≤ 6 * cs.length := by
  induction cs with
  | nil => exact ⟨le_refl 0, le_refl 0⟩
  | cons c rest ih =>
      have one := length_escapeChar c
      rw [List.flatMap_cons, List.length_append, List.length_cons]
      omega

theorem length_le_printString (s : String) : s.length ≤ (printString s).length := by
  rw [printString, List.length_append, ← String.length_toList]
  exact (length_flatMap_escapeChar s.toList).1.trans (Nat.le_add_right _ _)

/-- Escaping makes a text at most six times as long. -/
theorem length_printString_le (s : String) : (printString s).length ≤ 6 * s.length + 1 := by
  rw [printString, List.length_append, ← String.length_toList]
  exact Nat.add_le_add_right (length_flatMap_escapeChar s.toList).2 1

/-- A number of 64 bits has at most 20 characters. -/
theorem length_printChars_int {i : Int} (small : i.natAbs < 10 ^ 19 ∨ 0 ≤ i ∧ i.natAbs < 10 ^ 20) :
    (printChars (.int i)).length ≤ 20 := by
  rw [printChars, List.length_append]
  rcases small with small | ⟨positive, small⟩
  · have digits := (Nat.length_toDigits_le_iff (by decide) (by decide)).mpr small
    split_ifs
    · exact Nat.add_le_add (Nat.le_refl 1) digits
    · exact (Nat.add_le_add (Nat.le_refl 0) digits).trans (by decide)
  · rw [if_neg (not_lt.mpr positive)]
    exact Nat.add_le_add (Nat.le_refl 0) ((Nat.length_toDigits_le_iff (by decide) (by decide)).mpr small)

theorem length_printChars_str (s : String) :
    (printChars (.str s)).length = (printString s).length + 1 := by
  rw [printChars, List.length_cons]

theorem length_printChars_arr (j : Json Fixed) (rest : List (Json Fixed)) :
    (printChars (.arr (j :: rest))).length = (printChars j).length + (printItems rest).length + 1 := by
  rw [printChars, List.length_append, List.length_cons]
  omega

theorem length_printItems_cons (j : Json Fixed) (rest : List (Json Fixed)) :
    (printItems (j :: rest)).length = (printChars j).length + (printItems rest).length + 1 := by
  rw [printItems, List.length_append, List.length_cons]
  omega

theorem length_printChars_obj (key : String) (j : Json Fixed) (rest : List (String × Json Fixed)) :
    (printChars (.obj ((key, j) :: rest))).length =
      (printString key).length + (printChars j).length + (printFields rest).length + 3 := by
  simp only [printChars, List.length_append, List.length_cons]
  omega

theorem length_printFields_cons (key : String) (j : Json Fixed)
    (rest : List (String × Json Fixed)) : (printFields ((key, j) :: rest)).length =
      (printString key).length + (printChars j).length + (printFields rest).length + 3 := by
  simp only [printFields, List.length_append, List.length_cons]
  omega

/-! ### Sizes -/

mutual

/-- The number of characters of the strings in a value. -/
def size : Json Fixed → Nat
  | .str s => s.length
  | .arr items => sizeItems items
  | .obj fields => sizeFields fields
  | _ => 0

def sizeItems : List (Json Fixed) → Nat
  | [] => 0
  | j :: rest => size j + sizeItems rest

def sizeFields : List (String × Json Fixed) → Nat
  | [] => 0
  | (_, j) :: rest => size j + sizeFields rest

end

mutual

theorem size_le_printChars : ∀ j : Json Fixed, size j ≤ (printChars j).length
  | .null | .bool _ | .int _ | .float _ => Nat.zero_le _
  | .str s => by
      have string := length_le_printString s
      rw [size, length_printChars_str]
      omega
  | .arr [] => Nat.zero_le _
  | .arr (j :: rest) => by
      have first := size_le_printChars j
      have others := sizeItems_le_printItems rest
      rw [size, sizeItems, length_printChars_arr]
      omega
  | .obj [] => Nat.zero_le _
  | .obj ((key, j) :: rest) => by
      have first := size_le_printChars j
      have others := sizeFields_le_printFields rest
      rw [size, sizeFields, length_printChars_obj]
      omega

theorem sizeItems_le_printItems : ∀ items : List (Json Fixed),
    sizeItems items ≤ (printItems items).length
  | [] => Nat.zero_le _
  | j :: rest => by
      have first := size_le_printChars j
      have others := sizeItems_le_printItems rest
      rw [sizeItems, length_printItems_cons]
      omega

theorem sizeFields_le_printFields : ∀ fields : List (String × Json Fixed),
    sizeFields fields ≤ (printFields fields).length
  | [] => Nat.zero_le _
  | (key, j) :: rest => by
      have first := size_le_printChars j
      have others := sizeFields_le_printFields rest
      rw [sizeFields, length_printFields_cons]
      omega

end

/-- A text is at least as long as the strings in its value. -/
theorem size_le_print (j : Json Fixed) : size j ≤ (print j).length := by
  rw [print, String.length_ofList]
  exact size_le_printChars j

end Json

instance : TruncatedText Fixed := ⟨Json.print_nonempty, Json.parse_truncated⟩

end Lib
