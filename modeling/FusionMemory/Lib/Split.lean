import FusionMemory.Lib.Separators

/-!
The parts of a text between matches.

`split` is to `replaceAll` what a text without the matches is to the text with a mark in their
place: the parts with the mark between them are the text in which the matches are replaced
(`replaceAll_eq_intercalate`).
-/

namespace Lib

namespace Regex

variable (isWord : Char → Bool)

/-- The parts of a text, after the next `skip` characters, between the matches that are taken. The
others stay in their part. -/
def splitFrom (re : Regex) (taken : List Char → Bool) :
    Nat → Option Char → List Char → List (List Char)
  | _, _, [] => [[]]
  | skip + 1, _, c :: rest => splitFrom re taken skip (some c) rest
  | 0, prev, c :: rest =>
      match re.matchLength isWord prev (c :: rest) with
      | some (n + 1) =>
          if taken ((c :: rest).take (n + 1)) then [] :: splitFrom re taken n (some c) rest
          else (splitFrom re taken n (some c) rest).modifyHead ((c :: rest).take (n + 1) ++ ·)
      | _ => (splitFrom re taken 0 (some c) rest).modifyHead ([c] ++ ·)

/-- `split`, at the matches that are taken. -/
def split (re : Regex) (taken : List Char → Bool) (text : List Char) : List (List Char) :=
  re.splitFrom isWord taken 0 none text

variable {isWord} {re : Regex} {taken : List Char → Bool} {f : List Char → List Char}
  {mark : List Char}

theorem modifyHead_ne_nil {α : Type} {g : α → α} {parts : List α} (some : parts ≠ []) :
    parts.modifyHead g ≠ [] := by
  cases parts with
  | nil => exact absurd rfl some
  | cons part parts => exact List.cons_ne_nil _ _

theorem splitFrom_ne_nil : ∀ (text : List Char) (skip : Nat) (prev : Option Char),
    re.splitFrom isWord taken skip prev text ≠ [] := by
  intro text
  induction text with
  | nil =>
      intro skip prev
      unfold splitFrom
      exact List.cons_ne_nil _ _
  | cons c text ih =>
      intro skip prev
      cases skip with
      | succ skip => exact ih skip (some c)
      | zero =>
          unfold splitFrom
          split
          · split_ifs
            · exact List.cons_ne_nil _ _
            · exact modifyHead_ne_nil (ih _ _)
          · exact modifyHead_ne_nil (ih _ _)

theorem split_ne_nil (text : List Char) : re.split isWord taken text ≠ [] :=
  splitFrom_ne_nil text 0 none

theorem intercalate_modifyHead (word : List Char) {parts : List (List Char)} (some : parts ≠ []) :
    mark.intercalate (parts.modifyHead (word ++ ·)) = word ++ mark.intercalate parts := by
  cases parts with
  | nil => exact absurd rfl some
  | cons part parts =>
      cases parts with
      | nil => simp
      | cons next parts => simp [List.intercalate_cons_cons]

theorem intercalate_nil_cons {parts : List (List Char)} (some : parts ≠ []) :
    mark.intercalate ([] :: parts) = mark ++ mark.intercalate parts := by
  cases parts with
  | nil => exact absurd rfl some
  | cons part parts => simp [List.intercalate_cons_cons]

/-- The parts with the mark between them. -/
theorem replaceFrom_eq_intercalate (marks : ∀ word, f word = if taken word then mark else word) :
    ∀ (text : List Char) (skip : Nat) (prev : Option Char), re.replaceFrom isWord f skip prev text =
      mark.intercalate (re.splitFrom isWord taken skip prev text) := by
  intro text
  induction text with
  | nil =>
      intro skip prev
      cases skip <;> simp [replaceFrom, splitFrom]
  | cons c text ih =>
      intro skip prev
      cases skip with
      | succ skip => exact ih skip (some c)
      | zero =>
          have kept : mark.intercalate ((re.splitFrom isWord taken 0 (some c) text).modifyHead
              ([c] ++ ·)) = [c] ++ mark.intercalate (re.splitFrom isWord taken 0 (some c) text) :=
            intercalate_modifyHead [c] (splitFrom_ne_nil text 0 (some c))
          rw [replaceFrom_cons]
          unfold splitFrom
          cases re.matchLength isWord prev (c :: text) with
          | none =>
              dsimp only
              rw [ih, kept]
              rfl
          | some n =>
              cases n with
              | zero =>
                  dsimp only
                  rw [ih, kept]
                  rfl
              | succ n =>
                  dsimp only
                  rw [marks, ih]
                  split_ifs
                  · exact (intercalate_nil_cons (splitFrom_ne_nil _ _ _)).symm
                  · exact (intercalate_modifyHead _ (splitFrom_ne_nil _ _ _)).symm

theorem replaceAll_eq_intercalate (marks : ∀ word, f word = if taken word then mark else word)
    (text : List Char) :
    re.replaceAll isWord f text = mark.intercalate (re.split isWord taken text) :=
  replaceFrom_eq_intercalate marks text 0 none

end Regex

end Lib
