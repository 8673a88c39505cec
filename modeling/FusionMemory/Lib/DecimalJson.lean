import FusionMemory.Lib.Json

/-!
JSON text over fixed-point numbers.

A compact printer and a parser for what it prints: no white space, a number with a
point is a float and one without is an integer. Strings are escaped as serializers do,
and every escape of the standard but surrogate pairs is read. `parseChars_printChars` is
the round trip, and makes `Fixed` a `JsonText`.
-/

namespace Lib

namespace Json

/-! ### Numbers -/

/-- What follows a number: no digit and no point. -/
def Stops (rest : List Char) : Prop :=
  ∀ c tail, rest = c :: tail → c.isDigit = false ∧ c ≠ '.'

theorem stops_nil : Stops [] := by
  intro c tail same
  cases same

theorem stops_cons {c : Char} (rest : List Char) (digit : c.isDigit = false) (point : c ≠ '.') :
    Stops (c :: rest) := by
  intro c' tail same
  cases same
  exact ⟨digit, point⟩

def readDigits : List Char → Nat → Nat × List Char
  | [], acc => (acc, [])
  | c :: rest, acc =>
      if c.isDigit then readDigits rest (acc * 10 + (c.toNat - '0'.toNat)) else (acc, c :: rest)

theorem readDigits_append {digits rest : List Char} (all : ∀ c ∈ digits, c.isDigit = true)
    (stops : ∀ c tail, rest = c :: tail → c.isDigit = false) (acc : Nat) :
    readDigits (digits ++ rest) acc = (Nat.ofDigitChars 10 digits acc, rest) := by
  induction digits generalizing acc with
  | nil =>
      cases rest with
      | nil => simp [readDigits]
      | cons c tail => simp [readDigits, stops c tail rfl]
  | cons c tail ih =>
      rw [List.cons_append, readDigits, if_pos (all c List.mem_cons_self), Nat.ofDigitChars_cons,
        Nat.mul_comm]
      exact ih (fun c' mem => all c' (List.mem_cons_of_mem _ mem)) _

theorem isDigit_toDigits {n : Nat} {c : Char} (mem : c ∈ Nat.toDigits 10 n) : c.isDigit = true :=
  Nat.isDigit_of_mem_toDigits (by decide) (by decide) mem

theorem readDigits_toDigits (n : Nat) {rest : List Char}
    (stops : ∀ c tail, rest = c :: tail → c.isDigit = false) :
    readDigits (Nat.toDigits 10 n ++ rest) 0 = (n, rest) := by
  rw [readDigits_append (fun c mem => isDigit_toDigits mem) stops, Nat.ofDigitChars_ten_toDigits]

/-- The digits of a fraction; the first stands for `scale`. -/
def readFraction : List Char → Nat → Nat → Nat × List Char
  | [], _, acc => (acc, [])
  | c :: rest, scale, acc =>
      if c.isDigit then readFraction rest (scale / 10) (acc + (c.toNat - '0'.toNat) * scale)
      else (acc, c :: rest)

/-- The six digits of a fraction below `10 ^ 6`. -/
def fractionDigits (f : Nat) : List Char :=
  [Nat.digitChar (f / 100000), Nat.digitChar (f / 10000 % 10), Nat.digitChar (f / 1000 % 10),
    Nat.digitChar (f / 100 % 10), Nat.digitChar (f / 10 % 10), Nat.digitChar (f % 10)]

theorem readFraction_digit {d : Nat} (small : d < 10) (rest : List Char) (scale acc : Nat) :
    readFraction (Nat.digitChar d :: rest) scale acc =
      readFraction rest (scale / 10) (acc + d * scale) := by
  have digit : ∀ d < 10, (Nat.digitChar d).isDigit = true ∧
      (Nat.digitChar d).toNat - '0'.toNat = d := by decide
  obtain ⟨isDigit, value⟩ := digit d small
  rw [readFraction, if_pos isDigit, value]

theorem readFraction_fractionDigits {f : Nat} (small : f < 1000000) {rest : List Char}
    (stops : Stops rest) : readFraction (fractionDigits f ++ rest) 100000 0 = (f, rest) := by
  have done : ∀ acc, readFraction rest (100000 / 10 / 10 / 10 / 10 / 10 / 10) acc = (acc, rest) := by
    intro acc
    cases rest with
    | nil => rfl
    | cons c tail => simp [readFraction, (stops c tail rfl).1]
  simp only [fractionDigits, List.cons_append, List.nil_append]
  rw [readFraction_digit (by omega), readFraction_digit (by omega), readFraction_digit (by omega),
    readFraction_digit (by omega), readFraction_digit (by omega), readFraction_digit (by omega), done]
  congr 1
  omega

/-- What follows the character `expected`, where the text starts with it. -/
def afterChar (expected : Char) : List Char → Option (List Char)
  | [] => none
  | c :: rest => if c = expected then some rest else none

theorem afterChar_cons (c : Char) (rest : List Char) : afterChar c (c :: rest) = some rest :=
  if_pos rfl

theorem afterChar_stops {rest : List Char} (stops : Stops rest) : afterChar '.' rest = none := by
  cases rest with
  | nil => rfl
  | cons c tail => exact if_neg (stops c tail rfl).2

/-- A number without its sign, from its integer part on. -/
def readNumber (negative : Bool) (cs : List Char) : Json Fixed × List Char :=
  let whole := readDigits cs 0
  match afterChar '.' whole.2 with
  | some rest =>
      let fraction := readFraction rest 100000 0
      let micros : Int := whole.1 * 1000000 + fraction.1
      (.float ⟨⟨if negative then -micros else micros⟩, rfl⟩, fraction.2)
  | none => (.int (if negative then -whole.1 else whole.1), whole.2)

theorem readNumber_int (negative : Bool) (n : Nat) {rest : List Char} (stops : Stops rest) :
    readNumber negative (Nat.toDigits 10 n ++ rest) =
      (.int (if negative then -n else n), rest) := by
  unfold readNumber
  rw [readDigits_toDigits n fun c tail same => (stops c tail same).1]
  dsimp only
  rw [afterChar_stops stops]

theorem readNumber_float (negative : Bool) (micros : Nat) {rest : List Char} (stops : Stops rest) :
    readNumber negative
        (Nat.toDigits 10 (micros / 1000000) ++ '.' :: (fractionDigits (micros % 1000000) ++ rest)) =
      (.float ⟨⟨if negative then -micros else micros⟩, rfl⟩, rest) := by
  have point : ∀ c tail, ('.' :: (fractionDigits (micros % 1000000) ++ rest)) = c :: tail →
      c.isDigit = false := by
    intro c tail same
    cases same
    decide
  have fraction := readFraction_fractionDigits (Nat.mod_lt micros (by decide : 0 < 1000000)) stops
  have whole : ((micros / 1000000 : Nat) : Int) * 1000000 + (micros % 1000000 : Nat) = micros := by
    omega
  unfold readNumber
  rw [readDigits_toDigits _ point]
  dsimp only
  rw [afterChar_cons]
  dsimp only
  rw [fraction]
  simp only [whole]

/-! ### Strings -/

def hexValue (c : Char) : Option Nat :=
  if c.isDigit then some (c.toNat - '0'.toNat)
  else if 'a' ≤ c ∧ c ≤ 'f' then some (c.toNat - 'a'.toNat + 10)
  else if 'A' ≤ c ∧ c ≤ 'F' then some (c.toNat - 'A'.toNat + 10)
  else none

theorem hexValue_digitChar : ∀ d < 16, hexValue (Nat.digitChar d) = some d := by decide

def escapeChar (c : Char) : List Char :=
  if c = '"' then ['\\', '"']
  else if c = '\\' then ['\\', '\\']
  else if c = '\n' then ['\\', 'n']
  else if c = '\r' then ['\\', 'r']
  else if c = '\t' then ['\\', 't']
  else if c.toNat < 32 then
    ['\\', 'u', '0', '0', Nat.digitChar (c.toNat / 16), Nat.digitChar (c.toNat % 16)]
  else [c]

/-- The character of an escape of one letter. -/
def unescape (c : Char) : Option Char :=
  if c = '"' then some '"'
  else if c = '\\' then some '\\'
  else if c = '/' then some '/'
  else if c = 'b' then some '\x08'
  else if c = 'f' then some '\x0c'
  else if c = 'n' then some '\n'
  else if c = 'r' then some '\r'
  else if c = 't' then some '\t'
  else none

/-- The characters up to the closing quote. -/
def readString : List Char → Option (List Char × List Char)
  | [] => none
  | '"' :: rest => some ([], rest)
  | '\\' :: 'u' :: a :: b :: c :: d :: rest => do
      let a ← hexValue a
      let b ← hexValue b
      let c ← hexValue c
      let d ← hexValue d
      let read ← readString rest
      return (Char.ofNat (((a * 16 + b) * 16 + c) * 16 + d) :: read.1, read.2)
  | '\\' :: c :: rest => do
      let c ← unescape c
      let read ← readString rest
      return (c :: read.1, read.2)
  | c :: rest => do
      let read ← readString rest
      return (c :: read.1, read.2)

theorem readString_unescape {c c' : Char} (letter : unescape c = some c') (notHex : c ≠ 'u')
    (rest : List Char) : readString ('\\' :: c :: rest) =
      (readString rest).map fun read => (c' :: read.1, read.2) := by
  rw [readString]
  · rw [letter]
    cases readString rest <;> rfl
  · intro _ _ _ _ _ same _
    exact notHex same

theorem readString_escapeChar (c : Char) (rest : List Char) :
    readString (escapeChar c ++ rest) =
      (readString rest).map fun read => (c :: read.1, read.2) := by
  unfold escapeChar
  split_ifs with quote slash newline ret tab control
  · subst quote
    exact readString_unescape (by decide) (by decide) rest
  · subst slash
    exact readString_unescape (by decide) (by decide) rest
  · subst newline
    exact readString_unescape (by decide) (by decide) rest
  · subst ret
    exact readString_unescape (by decide) (by decide) rest
  · subst tab
    exact readString_unescape (by decide) (by decide) rest
  · have value : Char.ofNat (((0 * 16 + 0) * 16 + c.toNat / 16) * 16 + c.toNat % 16) = c := by
      have whole : ((0 * 16 + 0) * 16 + c.toNat / 16) * 16 + c.toNat % 16 = c.toNat := by omega
      rw [whole, Char.ofNat_toNat]
    have zero : hexValue '0' = some 0 := by decide
    simp only [List.cons_append, List.nil_append, readString, zero,
      hexValue_digitChar _ (show c.toNat / 16 < 16 by omega),
      hexValue_digitChar _ (show c.toNat % 16 < 16 by omega)]
    cases readString rest with
    | none => rfl
    | some read =>
        change some (Char.ofNat _ :: read.1, read.2) = some (c :: read.1, read.2)
        rw [value]
  · rw [List.singleton_append, readString]
    · cases readString rest <;> rfl
    · exact quote
    · intro _ _ _ _ _ same _
      exact slash same
    · intro _ _ same _
      exact slash same

/-- The escaped characters of a string, and its closing quote. -/
def printString (s : String) : List Char := s.toList.flatMap escapeChar ++ ['"']

theorem readString_printString (s : String) (rest : List Char) :
    readString (printString s ++ rest) = some (s.toList, rest) := by
  unfold printString
  generalize s.toList = cs
  induction cs with
  | nil => rfl
  | cons c tail ih =>
      rw [List.flatMap_cons, List.append_assoc, List.append_assoc, readString_escapeChar,
        ← List.append_assoc, ih]
      rfl

/-! ### Values -/

mutual

/-- A value, after its first character for strings, arrays and objects. -/
def printChars : Json Fixed → List Char
  | .null => "null".toList
  | .bool true => "true".toList
  | .bool false => "false".toList
  | .int i => (if i < 0 then ['-'] else []) ++ Nat.toDigits 10 i.natAbs
  | .float x =>
      (if x.1.micros < 0 then ['-'] else []) ++ Nat.toDigits 10 (x.1.micros.natAbs / 1000000) ++
        '.' :: fractionDigits (x.1.micros.natAbs % 1000000)
  | .str s => '"' :: printString s
  | .arr [] => ['[', ']']
  | .arr (j :: rest) => '[' :: printChars j ++ printItems rest
  | .obj [] => ['{', '}']
  | .obj ((key, j) :: rest) => '{' :: '"' :: printString key ++ ':' :: printChars j ++ printFields rest

/-- The items after the first, and the closing bracket. -/
def printItems : List (Json Fixed) → List Char
  | [] => [']']
  | j :: rest => ',' :: printChars j ++ printItems rest

def printFields : List (String × Json Fixed) → List Char
  | [] => ['}']
  | (key, j) :: rest => ',' :: '"' :: printString key ++ ':' :: printChars j ++ printFields rest

end

/-- `cs` without the prefix `word`. -/
def afterWord (word : String) (cs : List Char) : Option (List Char) :=
  if word.toList <+: cs then some (cs.drop word.length) else none

/-- A key with its quotes and the colon after it. -/
def readKey (cs : List Char) : Option (String × List Char) := do
  let opened ← afterChar '"' cs
  let key ← readString opened
  let rest ← afterChar ':' key.2
  return (String.ofList key.1, rest)

mutual

/-- The value at the start of the text. -/
def parseValue : Nat → List Char → Option (Json Fixed × List Char)
  | 0, _ => none
  | _ + 1, [] => none
  | fuel + 1, c :: rest =>
      if c = 'n' then (afterWord "ull" rest).map fun rest => (.null, rest)
      else if c = 't' then (afterWord "rue" rest).map fun rest => (.bool true, rest)
      else if c = 'f' then (afterWord "alse" rest).map fun rest => (.bool false, rest)
      else if c = '"' then
        (readString rest).map fun read => (.str (String.ofList read.1), read.2)
      else if c = '-' then
        if rest.head?.any (·.isDigit) then some (readNumber true rest) else none
      else if c.isDigit then some (readNumber false (c :: rest))
      else if c = '[' then
        if rest.head? = some ']' then some (.arr [], rest.tail)
        else do
          let first ← parseValue fuel rest
          let others ← parseItems fuel first.2
          return (.arr (first.1 :: others.1), others.2)
      else if c = '{' then
        if rest.head? = some '}' then some (.obj [], rest.tail)
        else do
          let key ← readKey rest
          let first ← parseValue fuel key.2
          let others ← parseFields fuel first.2
          return (.obj ((key.1, first.1) :: others.1), others.2)
      else none

def parseItems : Nat → List Char → Option (List (Json Fixed) × List Char)
  | 0, _ => none
  | _ + 1, [] => none
  | fuel + 1, c :: rest =>
      if c = ']' then some ([], rest)
      else if c = ',' then do
        let first ← parseValue fuel rest
        let others ← parseItems fuel first.2
        return (first.1 :: others.1, others.2)
      else none

def parseFields : Nat → List Char → Option (List (String × Json Fixed) × List Char)
  | 0, _ => none
  | _ + 1, [] => none
  | fuel + 1, c :: rest =>
      if c = '}' then some ([], rest)
      else if c = ',' then do
        let key ← readKey rest
        let first ← parseValue fuel key.2
        let others ← parseFields fuel first.2
        return ((key.1, first.1) :: others.1, others.2)
      else none

end

/-! ### The round trip -/

theorem toDigits_cons (n : Nat) : ∃ c tail, Nat.toDigits 10 n = c :: tail ∧ c.isDigit = true := by
  cases digits : Nat.toDigits 10 n with
  | nil => exact absurd digits Nat.toDigits_ne_nil
  | cons c tail => exact ⟨c, tail, rfl, isDigit_toDigits (digits ▸ List.mem_cons_self)⟩

theorem parseValue_negative (fuel : Nat) {c : Char} (digit : c.isDigit = true) (tail : List Char) :
    parseValue (fuel + 1) ('-' :: c :: tail) = some (readNumber true (c :: tail)) := by
  rw [parseValue]
  simp [digit]

theorem parseValue_digit (fuel : Nat) {c : Char} (digit : c.isDigit = true) (tail : List Char) :
    parseValue (fuel + 1) (c :: tail) = some (readNumber false (c :: tail)) := by
  have other : ∀ c', c'.isDigit = false → c ≠ c' := by
    rintro c' notDigit rfl
    rw [digit] at notDigit
    cases notDigit
  rw [parseValue, if_neg (other 'n' (by decide)), if_neg (other 't' (by decide)),
    if_neg (other 'f' (by decide)), if_neg (other '"' (by decide)), if_neg (other '-' (by decide)),
    if_pos digit]

/-- A signed number is read with its sign. -/
theorem parseValue_number (fuel : Nat) (negative : Bool) (n : Nat) (rest : List Char) :
    parseValue (fuel + 1) ((if negative then ['-'] else []) ++ Nat.toDigits 10 n ++ rest) =
      some (readNumber negative (Nat.toDigits 10 n ++ rest)) := by
  obtain ⟨c, tail, digits, digit⟩ := toDigits_cons n
  rw [digits]
  cases negative with
  | true => exact parseValue_negative fuel digit (tail ++ rest)
  | false => exact parseValue_digit fuel digit (tail ++ rest)

theorem afterWord_append (word : String) (rest : List Char) :
    afterWord word (word.toList ++ rest) = some rest := by
  unfold afterWord
  rw [if_pos (List.prefix_append _ _), ← String.length_toList, List.drop_left]

theorem printItems_stops (items : List (Json Fixed)) (rest : List Char) :
    Stops (printItems items ++ rest) := by
  cases items with
  | nil => exact stops_cons rest (by decide) (by decide)
  | cons j others =>
      rw [printItems]
      exact stops_cons _ (by decide) (by decide)

theorem printFields_stops (fields : List (String × Json Fixed)) (rest : List Char) :
    Stops (printFields fields ++ rest) := by
  cases fields with
  | nil => exact stops_cons rest (by decide) (by decide)
  | cons p others =>
      rw [printFields]
      exact stops_cons _ (by decide) (by decide)

theorem readKey_printString (key : String) (rest : List Char) :
    readKey ('"' :: (printString key ++ ':' :: rest)) = some (key, rest) := by
  unfold readKey
  rw [afterChar_cons, Option.bind_eq_bind, Option.bind_some, readString_printString,
    Option.bind_eq_bind, Option.bind_some, afterChar_cons]
  simp

theorem parseValue_array (fuel : Nat) {rest : List Char} (nonempty : rest.head? ≠ some ']') :
    parseValue (fuel + 1) ('[' :: rest) = do
      let first ← parseValue fuel rest
      let others ← parseItems fuel first.2
      return (.arr (first.1 :: others.1), others.2) := by
  rw [parseValue]
  simp [nonempty]

theorem parseValue_object (fuel : Nat) (rest : List Char) :
    parseValue (fuel + 1) ('{' :: '"' :: rest) = do
      let key ← readKey ('"' :: rest)
      let first ← parseValue fuel key.2
      let others ← parseFields fuel first.2
      return (.obj ((key.1, first.1) :: others.1), others.2) := by
  rw [parseValue]
  simp

theorem parseItems_cons (fuel : Nat) (rest : List Char) : parseItems (fuel + 1) (',' :: rest) = do
    let first ← parseValue fuel rest
    let others ← parseItems fuel first.2
    return (first.1 :: others.1, others.2) := by
  rw [parseItems, if_neg (by decide), if_pos rfl]

theorem parseFields_cons (fuel : Nat) (rest : List Char) :
    parseFields (fuel + 1) (',' :: rest) = do
      let key ← readKey rest
      let first ← parseValue fuel key.2
      let others ← parseFields fuel first.2
      return ((key.1, first.1) :: others.1, others.2) := by
  rw [parseFields, if_neg (by decide), if_pos rfl]

/-- No printed value looks like the end of an array. -/
theorem printChars_head (j : Json Fixed) (rest : List Char) :
    (printChars j ++ rest).head? ≠ some ']' := by
  have number : ∀ (b : Prop) [Decidable b] (n : Nat) (tail : List Char),
      ((if b then ['-'] else []) ++ Nat.toDigits 10 n ++ tail).head? ≠ some ']' := by
    intro b _ n tail
    obtain ⟨c, digits, same, digit⟩ := toDigits_cons n
    rw [same]
    split_ifs
    · simp
    · rintro ⟨⟩
      exact absurd digit (by decide)
  cases j with
  | null => simp [printChars]
  | bool b => cases b <;> simp [printChars]
  | int i => exact number _ _ _
  | float x =>
      rw [printChars, List.append_assoc]
      exact number _ _ _
  | str s => simp [printChars]
  | arr items => cases items <;> simp [printChars]
  | obj fields =>
      cases fields with
      | nil => simp [printChars]
      | cons p others => simp [printChars]

mutual

theorem parseValue_printChars : ∀ (j : Json Fixed) (fuel : Nat) (rest : List Char), Stops rest →
    (printChars j).length < fuel → parseValue fuel (printChars j ++ rest) = some (j, rest)
  | _, 0, _, _, short => absurd short (Nat.not_lt_zero _)
  | .null, fuel + 1, rest, _, _ => by
      change (afterWord "ull" ("ull".toList ++ rest)).map _ = _
      rw [afterWord_append]
      rfl
  | .bool true, fuel + 1, rest, _, _ => by
      change (afterWord "rue" ("rue".toList ++ rest)).map _ = _
      rw [afterWord_append]
      rfl
  | .bool false, fuel + 1, rest, _, _ => by
      change (afterWord "alse" ("alse".toList ++ rest)).map _ = _
      rw [afterWord_append]
      rfl
  | .int i, fuel + 1, rest, stops, _ => by
      have signed := parseValue_number fuel (decide (i < 0)) i.natAbs rest
      have whole : (if i < 0 then -(i.natAbs : Int) else i.natAbs) = i := by
        split_ifs <;> omega
      simp only [decide_eq_true_eq] at signed
      rw [printChars, signed, readNumber_int _ _ stops]
      simp only [decide_eq_true_eq, whole]
  | .float x, fuel + 1, rest, stops, _ => by
      have signed := parseValue_number fuel (decide (x.1.micros < 0)) (x.1.micros.natAbs / 1000000)
        ('.' :: (fractionDigits (x.1.micros.natAbs % 1000000) ++ rest))
      have whole : (if x.1.micros < 0 then -(x.1.micros.natAbs : Int) else x.1.micros.natAbs) =
          x.1.micros := by
        split_ifs <;> omega
      simp only [decide_eq_true_eq] at signed
      rw [printChars, List.append_assoc, List.cons_append, signed, readNumber_float _ _ stops]
      simp only [decide_eq_true_eq, whole]
  | .str s, fuel + 1, rest, _, _ => by
      change (readString (printString s ++ rest)).map _ = _
      rw [readString_printString]
      simp
  | .arr [], fuel + 1, rest, _, _ => rfl
  | .arr (j :: others), fuel + 1, rest, _, short => by
      simp only [printChars, List.length_cons, List.length_append] at short
      have first := parseValue_printChars j fuel (printItems others ++ rest)
        (printItems_stops others rest) (by omega)
      have tail := parseItems_printItems others fuel rest (by omega)
      have shape : printChars (.arr (j :: others)) ++ rest =
          '[' :: (printChars j ++ (printItems others ++ rest)) := by simp [printChars]
      rw [shape, parseValue_array _ (printChars_head j _), first]
      simp [tail]
  | .obj [], fuel + 1, rest, _, _ => rfl
  | .obj ((key, j) :: others), fuel + 1, rest, _, short => by
      simp only [printChars, List.length_cons, List.length_append] at short
      have first := parseValue_printChars j fuel (printFields others ++ rest)
        (printFields_stops others rest) (by omega)
      have tail := parseFields_printFields others fuel rest (by omega)
      have shape : printChars (.obj ((key, j) :: others)) ++ rest =
          '{' :: '"' :: (printString key ++ ':' :: (printChars j ++ (printFields others ++ rest))) := by
        simp [printChars]
      rw [shape, parseValue_object, readKey_printString]
      simp [first, tail]

theorem parseItems_printItems : ∀ (items : List (Json Fixed)) (fuel : Nat) (rest : List Char),
    (printItems items).length < fuel →
      parseItems fuel (printItems items ++ rest) = some (items, rest)
  | _, 0, _, short => absurd short (Nat.not_lt_zero _)
  | [], fuel + 1, rest, _ => rfl
  | j :: others, fuel + 1, rest, short => by
      simp only [printItems, List.length_cons, List.length_append] at short
      have first := parseValue_printChars j fuel (printItems others ++ rest)
        (printItems_stops others rest) (by omega)
      have tail := parseItems_printItems others fuel rest (by omega)
      have shape : printItems (j :: others) ++ rest =
          ',' :: (printChars j ++ (printItems others ++ rest)) := by simp [printItems]
      rw [shape, parseItems_cons, first]
      simp [tail]

theorem parseFields_printFields : ∀ (fields : List (String × Json Fixed)) (fuel : Nat)
    (rest : List Char), (printFields fields).length < fuel →
      parseFields fuel (printFields fields ++ rest) = some (fields, rest)
  | _, 0, _, short => absurd short (Nat.not_lt_zero _)
  | [], fuel + 1, rest, _ => rfl
  | (key, j) :: others, fuel + 1, rest, short => by
      simp only [printFields, List.length_cons, List.length_append] at short
      have first := parseValue_printChars j fuel (printFields others ++ rest)
        (printFields_stops others rest) (by omega)
      have tail := parseFields_printFields others fuel rest (by omega)
      have shape : printFields ((key, j) :: others) ++ rest =
          ',' :: '"' :: (printString key ++ ':' :: (printChars j ++ (printFields others ++ rest))) := by
        simp [printFields]
      rw [shape, parseFields_cons, readKey_printString]
      simp [first, tail]

end

/-! ### The library -/

def print (j : Json Fixed) : String := String.ofList (printChars j)

/-- The value of a text, all of which it takes. -/
def parse (s : String) : Option (Json Fixed) := do
  let read ← parseValue (s.toList.length + 1) s.toList
  if read.2.isEmpty then some read.1 else none

theorem parse_print (j : Json Fixed) : parse (print j) = some j := by
  have whole := parseValue_printChars j ((printChars j).length + 1) [] stops_nil (Nat.lt_succ_self _)
  unfold parse print
  rw [List.append_nil] at whole
  rw [String.toList_ofList, whole]
  rfl

mutual

theorem mapFloat_id : ∀ j : Json Fixed, j.mapFloat id = j
  | .null | .bool _ | .int _ | .float _ | .str _ => rfl
  | .arr items => congrArg arr (mapFloatList_id items)
  | .obj fields => congrArg obj (mapFloatFields_id fields)

theorem mapFloatList_id : ∀ items : List (Json Fixed), mapFloatList id items = items
  | [] => rfl
  | j :: rest => by rw [mapFloatList, mapFloat_id j, mapFloatList_id rest]

theorem mapFloatFields_id : ∀ fields : List (String × Json Fixed), mapFloatFields id fields = fields
  | [] => rfl
  | (key, j) :: rest => by rw [mapFloatFields, mapFloat_id j, mapFloatFields_id rest]

end

end Json

instance : JsonText Fixed where
  print := Json.print
  parse := Json.parse
  reread := id
  parse_print j := by rw [Json.parse_print, Json.mapFloat_id]

end Lib
