import FusionMemory.Lib.Regex

/-!
What is left of a text in which words were replaced by a mark.

`Edits` goes through a text and keeps a character or cuts a word; `replaceAll` is such an edit
(`edits_replaceAll`). A word of the result that has none of the characters around the mark was in
the text before (`Edits.occurrence`); so a regular expression that did not match the text, or whose
matches were all cut, does not match the result (`Edits.matches_before`).
-/

namespace Lib

/-- What a word is replaced by: a text between two characters. -/
structure Mark where
  opening : Char
  inner : List Char
  closing : Char

def Mark.text (mark : Mark) : List Char := mark.opening :: (mark.inner ++ [mark.closing])

/-- The second text is the first with some words replaced by the mark. `Kept` holds where a
character is kept, `Cut` of the words that are replaced, between their neighbours. -/
inductive Edits (Kept : Option Char → List Char → Prop)
    (Cut : Option Char → List Char → Option Char → Prop) (mark : Mark) :
    Option Char → List Char → List Char → Prop where
  | nil {prev : Option Char} : Edits Kept Cut mark prev [] []
  | keep {prev : Option Char} {c : Char} {text out : List Char} :
      Kept prev (c :: text) → Edits Kept Cut mark (some c) text out →
      Edits Kept Cut mark prev (c :: text) (c :: out)
  | cut {prev : Option Char} {word text out : List Char} :
      word ≠ [] → Cut prev word text.head? →
      Edits Kept Cut mark (Regex.lastOf prev word) text out →
      Edits Kept Cut mark prev (word ++ text) (mark.text ++ out)

open Regex

variable {Kept : Option Char → List Char → Prop} {Cut : Option Char → List Char → Option Char → Prop}
  {mark : Mark} {prev : Option Char} {text out : List Char}

/-! ### Replacing is editing -/

section Replacing

variable {isWord : Char → Bool} {re : Regex} {f : List Char → List Char}

theorem replaceFrom_skip (n : Nat) : ∀ (prev : Option Char) (text : List Char),
    n ≤ text.length → re.replaceFrom isWord f n prev text =
      re.replaceFrom isWord f 0 (lastOf prev (text.take n)) (text.drop n) := by
  induction n with
  | zero => exact fun _ _ _ => rfl
  | succ n ih =>
      intro prev text short
      cases text with
      | nil => cases short
      | cons c text =>
          rw [replaceFrom, ih _ _ (Nat.le_of_succ_le_succ short), List.take_succ_cons, lastOf_cons]
          rfl

theorem Edits.keep_word (keeps : ∀ prev text, Kept prev text) {word : List Char} :
    ∀ {prev : Option Char}, Edits Kept Cut mark (lastOf prev word) text out →
      Edits Kept Cut mark prev (word ++ text) (word ++ out) := by
  induction word with
  | nil => exact fun rest => rest
  | cons c word ih =>
      intro prev rest
      rw [lastOf_cons] at rest
      exact .keep (keeps _ _) (ih rest)

/-- Matches are cut where `f` has the mark for them, and kept where it leaves them. -/
theorem edits_replaceFrom
    (keeps : ∀ prev text, (∀ n, re.matchLength isWord prev text ≠ some (n + 1)) → Kept prev text)
    (each : ∀ prev word next, word ≠ [] → re.Matches isWord prev word next →
      (f word = mark.text ∧ Cut prev word next) ∨ (f word = word ∧ ∀ prev text, Kept prev text))
    (size : Nat) : ∀ (prev : Option Char) (text : List Char), text.length = size →
      Edits Kept Cut mark prev text (re.replaceFrom isWord f 0 prev text) := by
  induction size using Nat.strongRecOn with
  | ind size ih =>
      rintro prev text rfl
      cases text with
      | nil => exact .nil
      | cons c text =>
          unfold replaceFrom
          split
          · rename_i n found
            obtain ⟨short, matched⟩ := matches_of_matchLength found
            rw [replaceFrom_skip n _ _ (Nat.le_of_succ_le_succ short), ← lastOf_cons prev,
              ← List.take_succ_cons]
            have rest := ih (text.drop n).length (by rw [List.length_drop, List.length_cons]; omega)
              (lastOf prev ((c :: text).take (n + 1))) (text.drop n) rfl
            have split := List.take_append_drop (n + 1) (c :: text)
            rw [List.drop_succ_cons] at split matched
            have some : (c :: text).take (n + 1) ≠ [] := by
              rw [List.take_succ_cons]
              exact List.cons_ne_nil _ _
            generalize (c :: text).take (n + 1) = word at *
            rw [← split]
            rcases each _ _ _ some matched with ⟨marked, isCut⟩ | ⟨left, all⟩
            · rw [marked]
              exact .cut some isCut rest
            · rw [left]
              exact .keep_word all rest
          · rename_i none
            exact .keep (keeps _ _ none) (ih text.length (Nat.lt_succ_self _) _ _ rfl)

theorem edits_replaceAll
    (keeps : ∀ prev text, (∀ n, re.matchLength isWord prev text ≠ some (n + 1)) → Kept prev text)
    (each : ∀ prev word next, word ≠ [] → re.Matches isWord prev word next →
      (f word = mark.text ∧ Cut prev word next) ∨ (f word = word ∧ ∀ prev text, Kept prev text))
    (text : List Char) : Edits Kept Cut mark none text (re.replaceAll isWord f text) :=
  edits_replaceFrom keeps each text.length none text rfl

theorem replaceFrom_cons (prev : Option Char) (c : Char) (text : List Char) :
    re.replaceFrom isWord f 0 prev (c :: text) =
      match re.matchLength isWord prev (c :: text) with
      | some (n + 1) => f ((c :: text).take (n + 1)) ++ re.replaceFrom isWord f n (some c) text
      | _ => c :: re.replaceFrom isWord f 0 (some c) text := by
  cases found : re.matchLength isWord prev (c :: text) with
  | none => simp only [replaceFrom, found]
  | some n => cases n <;> simp only [replaceFrom, found]

/-- A text is replaced in two parts if no match reaches from the first into the second. -/
theorem replaceFrom_append {b : List Char} : ∀ {a : List Char} {n : Nat} {prev : Option Char},
    n ≤ a.length →
    (∀ s₁ s₂, a = s₁ ++ s₂ → re.matchLength isWord (lastOf prev s₁) (s₂ ++ b) =
      re.matchLength isWord (lastOf prev s₁) s₂ ∨ s₂ = []) →
    re.replaceFrom isWord f n prev (a ++ b) =
      re.replaceFrom isWord f n prev a ++ re.replaceFrom isWord f 0 (lastOf prev a) b := by
  intro a
  induction a with
  | nil =>
      intro n prev short _
      obtain rfl := Nat.le_zero.mp short
      rfl
  | cons c a ih =>
      intro n prev short within
      have within' : ∀ s₁ s₂, a = s₁ ++ s₂ → re.matchLength isWord (lastOf (some c) s₁) (s₂ ++ b) =
          re.matchLength isWord (lastOf (some c) s₁) s₂ ∨ s₂ = [] := by
        intro s₁ s₂ split
        have here := within (c :: s₁) s₂ (congrArg (c :: ·) split)
        rwa [lastOf_cons] at here
      rw [lastOf_cons, List.cons_append]
      cases n with
      | succ n =>
          rw [replaceFrom, replaceFrom]
          exact ih (Nat.le_of_succ_le_succ short) within'
      | zero =>
          have here := (within [] (c :: a) rfl).resolve_right (List.cons_ne_nil _ _)
          rw [lastOf_nil, List.cons_append] at here
          rw [replaceFrom_cons prev c (a ++ b), replaceFrom_cons prev c a, here]
          cases found : re.matchLength isWord prev (c :: a) with
          | none =>
              dsimp only
              rw [ih (Nat.zero_le _) within', List.cons_append]
          | some k =>
              cases k with
              | zero =>
                  dsimp only
                  rw [ih (Nat.zero_le _) within', List.cons_append]
              | succ k =>
                  have bounded := (matches_of_matchLength found).1
                  rw [List.length_cons] at bounded
                  dsimp only
                  rw [ih (Nat.le_of_succ_le_succ bounded) within', ← List.append_assoc,
                    ← List.cons_append, List.take_append_of_le_length (by rw [List.length_cons]; omega)]

theorem replaceFrom_prev (same : ∀ prev prev' text, re.matchLength isWord prev text =
    re.matchLength isWord prev' text) : ∀ (text : List Char) (n : Nat) (prev prev' : Option Char),
      re.replaceFrom isWord f n prev text = re.replaceFrom isWord f n prev' text := by
  intro text
  cases text with
  | nil =>
      intro n prev prev'
      cases n <;> rfl
  | cons c text =>
      intro n prev prev'
      cases n with
      | zero =>
          rw [replaceFrom, replaceFrom, same prev prev']
      | succ n => rfl

end Replacing

/-! ### Words of the result -/

/-- A beginning of the result that does not reach a mark was kept. -/
theorem Edits.prefix_kept {word post : List Char} (plain : mark.opening ∉ word) :
    ∀ {prev : Option Char} {text : List Char}, Edits Kept Cut mark prev text (word ++ post) →
      ∃ post', text = word ++ post' ∧ Edits Kept Cut mark (lastOf prev word) post' post := by
  induction word with
  | nil => exact fun edits => ⟨_, rfl, edits⟩
  | cons c word ih =>
      intro prev text edits
      rw [List.mem_cons, not_or] at plain
      generalize whole : c :: word ++ post = out at edits
      cases edits with
      | nil => cases whole
      | keep _ rest =>
          obtain ⟨rfl, rfl⟩ := List.cons.inj whole
          obtain ⟨post', rfl, edits⟩ := ih plain.2 rest
          exact ⟨post', rfl, by rw [lastOf_cons]; exact edits⟩
      | cut _ _ _ => exact absurd (List.cons.inj whole).1.symm plain.1

/-- The place of a kept word: the same neighbour before it, or the end of a mark in place of that of
a word that was cut. -/
def SameBefore (Cut : Option Char → List Char → Option Char → Prop) (mark : Mark)
    (before before' next : Option Char) : Prop :=
  before' = before ∨ before' = some mark.closing ∧
    ∃ prev word, word ≠ [] ∧ Cut prev word next ∧ before = word.getLast?

/-- A word of the result without the characters around the mark is a part of the mark, or was kept
as a whole. -/
theorem Edits.occurrence {word : List Char} (some : word ≠ []) (plain : mark.opening ∉ word)
    (plain' : mark.closing ∉ word) (edits : Edits Kept Cut mark prev text out) :
    ∀ {prev' : Option Char} {pre post : List Char}, out = pre ++ (word ++ post) →
      SameBefore Cut mark prev prev' text.head? →
      (∃ x y, mark.text = x ++ (word ++ y)) ∨
      ∃ pre' post', text = pre' ++ (word ++ post') ∧ Kept (lastOf prev pre') (word ++ post') ∧
        SameBefore Cut mark (lastOf prev pre') (lastOf prev' pre) word.head? ∧
        Edits Kept Cut mark (lastOf prev (pre' ++ word)) post' post := by
  induction edits with
  | nil =>
      intro prev' pre post whole _
      exact absurd (List.append_eq_nil_iff.mp (List.append_eq_nil_iff.mp whole.symm).2).1 some
  | @keep prev c text out kept rest ih =>
      intro prev' pre post whole same
      cases pre with
      | nil =>
          have edits : Edits Kept Cut mark prev (c :: text) (word ++ post) := whole ▸ .keep kept rest
          obtain ⟨post', split, after⟩ := edits.prefix_kept plain
          rw [split] at kept same
          refine .inr ⟨[], post', split, kept, ?_, after⟩
          cases word with
          | nil => exact absurd rfl some
          | cons d word => exact same
      | cons d pre =>
          obtain ⟨rfl, tail⟩ := List.cons.inj whole
          rcases ih tail (.inl rfl) with inside | ⟨pre', post', split, kept', before, after⟩
          · exact .inl inside
          · refine .inr ⟨c :: pre', post', by rw [split]; rfl, ?_, ?_, ?_⟩
            · rw [lastOf_cons]
              exact kept'
            · rw [lastOf_cons, lastOf_cons]
              exact before
            · rw [List.cons_append, lastOf_cons]
              exact after
  | @cut prev cutWord text out nonempty isCut rest ih =>
      intro prev' pre post whole same
      have last := lastOf_eq_getLast? prev nonempty
      have closing : ∀ prev', lastOf prev' mark.text = Option.some mark.closing := fun prev' => by
        unfold Mark.text
        rw [lastOf_cons, lastOf_append]
        rfl
      have parts : (∃ pre₂, pre = mark.text ++ pre₂ ∧ out = pre₂ ++ (word ++ post)) ∨
          ∃ left, left ≠ [] ∧ mark.text = pre ++ left ∧ word ++ post = left ++ out := by
        rcases List.append_eq_append_iff.mp whole with first | ⟨left, split, tail⟩
        · exact .inl first
        · by_cases none : left = []
          · subst none
            exact .inl ⟨[], by rw [split, List.append_nil, List.append_nil], tail.symm⟩
          · exact .inr ⟨left, none, split, tail⟩
      rcases parts with ⟨pre₂, rfl, tail⟩ | ⟨left, more, split, tail⟩
      · rcases ih tail (.inr ⟨closing prev', prev, cutWord, nonempty, isCut, last⟩) with
          inside | ⟨pre', post', split, kept', before, after⟩
        · exact .inl inside
        · refine .inr ⟨cutWord ++ pre', post', by rw [split, List.append_assoc], ?_, ?_, ?_⟩
          · rw [lastOf_append]
            exact kept'
          · rw [lastOf_append, lastOf_append]
            exact before
          · rw [List.append_assoc, lastOf_append]
            exact after
      · -- The word starts in the mark, and cannot go beyond its end.
        rcases List.append_eq_append_iff.mp tail with ⟨rest', within, -⟩ | ⟨beyond, reaches, -⟩
        · exact .inl ⟨pre, rest', by rw [split, within]⟩
        · have ends := closing none
          rw [split, lastOf_append] at ends
          have inLeft : mark.closing ∈ left := by
            rw [lastOf_eq_getLast? _ more] at ends
            exact List.mem_of_getLast? ends
          exact absurd (reaches ▸ List.mem_append_left _ inLeft) plain'

/-- What comes first in the text and in the result: the same, or a word that is cut. -/
theorem Edits.head (edits : Edits Kept Cut mark prev text out) :
    text.head? = out.head? ∨ out.head? = some mark.opening ∧
      ∃ word rest, text = word ++ rest ∧ word ≠ [] ∧ Cut prev word rest.head? := by
  cases edits with
  | nil => exact .inl rfl
  | keep _ _ => exact .inl rfl
  | cut nonempty isCut _ => exact .inr ⟨rfl, _, _, rfl, nonempty, isCut⟩

/-- No word that is cut overlaps the word that comes after `pre`. -/
def Apart (Cut : Option Char → List Char → Option Char → Prop) (prev : Option Char)
    (text pre word : List Char) : Prop :=
  ∀ x cutWord y, text = x ++ (cutWord ++ y) → Cut (lastOf prev x) cutWord y.head? →
    x.length + cutWord.length ≤ pre.length ∨ pre.length + word.length ≤ x.length

theorem Apart.tail {c : Char} {text pre word : List Char}
    (apart : Apart Cut prev (c :: text) (c :: pre) word) : Apart Cut (some c) text pre word := by
  intro x cutWord y split isCut
  have place := apart (c :: x) cutWord y (by rw [split]; rfl) (by rw [lastOf_cons]; exact isCut)
  rw [List.length_cons, List.length_cons] at place
  omega

theorem Apart.skip {first text pre word : List Char}
    (apart : Apart Cut prev (first ++ text) (first ++ pre) word) :
    Apart Cut (lastOf prev first) text pre word := by
  induction first generalizing prev with
  | nil => exact apart
  | cons c first ih =>
      rw [lastOf_cons]
      exact ih apart.tail

/-- A beginning of the text that no cut meets is the beginning of the result. -/
theorem Edits.prefix_stays {word post : List Char} : ∀ {prev : Option Char} {out : List Char},
    Edits Kept Cut mark prev (word ++ post) out → Apart Cut prev (word ++ post) [] word →
      ∃ post', out = word ++ post' ∧ Edits Kept Cut mark (lastOf prev word) post post' := by
  induction word with
  | nil => exact fun edits _ => ⟨_, rfl, edits⟩
  | cons c word ih =>
      intro prev out edits apart
      generalize whole : c :: word ++ post = text at edits apart
      cases edits with
      | nil => cases whole
      | keep _ rest =>
          obtain ⟨rfl, rfl⟩ := List.cons.inj whole
          have apart' : Apart Cut (some c) (word ++ post) [] word := by
            intro x cutWord y split isCut
            have place := apart (c :: x) cutWord y (congrArg (c :: ·) split)
              (by rw [lastOf_cons]; exact isCut)
            rw [List.length_cons, List.length_cons, List.length_nil] at place
            rw [List.length_nil]
            omega
          obtain ⟨post', rfl, after⟩ := ih rest apart'
          exact ⟨post', rfl, by rw [lastOf_cons]; exact after⟩
      | @cut _ cutWord text' _ nonempty isCut _ =>
          have some := List.length_pos_iff.mpr nonempty
          rcases apart [] cutWord text' rfl isCut with short | short
          · rw [List.length_nil] at short
            omega
          · rw [List.length_cons, List.length_nil] at short
            omega

/-- A word of the text that no cut meets is a word of the result. -/
theorem Edits.stays {word : List Char} (some : word ≠ []) (edits : Edits Kept Cut mark prev text out) :
    ∀ {prev' : Option Char} {pre post : List Char}, text = pre ++ (word ++ post) →
      Apart Cut prev text pre word → SameBefore Cut mark prev prev' text.head? →
      ∃ pre' post', out = pre' ++ (word ++ post') ∧
        SameBefore Cut mark (lastOf prev pre) (lastOf prev' pre') word.head? ∧
        Edits Kept Cut mark (lastOf prev (pre ++ word)) post post' := by
  induction edits with
  | nil =>
      intro prev' pre post whole _ _
      exact absurd (List.append_eq_nil_iff.mp (List.append_eq_nil_iff.mp whole.symm).2).1 some
  | @keep prev c text out kept rest ih =>
      intro prev' pre post whole apart same
      cases pre with
      | nil =>
          rw [whole, List.nil_append] at apart same
          have edits : Edits Kept Cut mark prev (word ++ post) (c :: out) := by
            rw [List.nil_append] at whole
            rw [← whole]
            exact .keep kept rest
          obtain ⟨post', split, after⟩ := edits.prefix_stays apart
          refine ⟨[], post', split, ?_, after⟩
          cases word with
          | nil => exact absurd rfl some
          | cons d word => exact same
      | cons d pre =>
          obtain ⟨rfl, tail⟩ := List.cons.inj whole
          obtain ⟨pre', post', split, before, after⟩ := ih tail apart.tail (.inl rfl)
          refine ⟨c :: pre', post', by rw [split]; rfl, ?_, ?_⟩
          · rw [lastOf_cons, lastOf_cons]
            exact before
          · rw [List.cons_append, lastOf_cons]
            exact after
  | @cut prev cutWord text out nonempty isCut rest ih =>
      intro prev' pre post whole apart same
      have long := List.length_pos_iff.mpr some
      obtain ⟨pre₂, rfl, tail⟩ : ∃ pre₂, pre = cutWord ++ pre₂ ∧ text = pre₂ ++ (word ++ post) := by
        rcases apart [] cutWord text rfl isCut with short | short
        · rw [List.length_nil, Nat.zero_add] at short
          rcases List.append_eq_append_iff.mp whole with first | ⟨left, split, tail⟩
          · exact first
          · rw [split, List.length_append] at short
            have none : left = [] := List.eq_nil_of_length_eq_zero (by omega)
            subst none
            exact ⟨[], by rw [split, List.append_nil, List.append_nil], tail.symm⟩
        · rw [List.length_nil] at short
          omega
      have closing : lastOf prev' mark.text = Option.some mark.closing := by
        unfold Mark.text
        rw [lastOf_cons, lastOf_append]
        rfl
      obtain ⟨pre', post', split, before, after⟩ := ih tail
        apart.skip (.inr ⟨closing, prev, cutWord, nonempty, isCut, lastOf_eq_getLast? prev nonempty⟩)
      refine ⟨mark.text ++ pre', post', by rw [split, List.append_assoc], ?_, ?_⟩
      · rw [lastOf_append, lastOf_append]
        exact before
      · rw [List.append_assoc, lastOf_append]
        exact after

/-- An edit that changes something cuts a word. -/
theorem Edits.eq_or_cut (edits : Edits Kept Cut mark prev text out) :
    out = text ∨ ∃ pre word post, text = pre ++ (word ++ post) ∧
      Cut (lastOf prev pre) word post.head? := by
  induction edits with
  | nil => exact .inl rfl
  | @keep prev c text out _ _ ih =>
      rcases ih with same | ⟨pre, word, post, split, isCut⟩
      · exact .inl (congrArg _ same)
      · refine .inr ⟨c :: pre, word, post, by rw [split]; rfl, ?_⟩
        rw [lastOf_cons]
        exact isCut
  | @cut prev word text out _ isCut _ _ => exact .inr ⟨[], word, text, rfl, isCut⟩

/-! ### Matches in the result -/

section Matching

variable {isWord : Char → Bool} {re : Regex}

/-- The words that are cut do not begin or end between two word characters. -/
structure CutsAtEdges (isWord : Char → Bool)
    (Cut : Option Char → List Char → Option Char → Prop) : Prop where
  before : ∀ prev word next, Cut prev word next → prev.any isWord = true →
    word.head?.any isWord = false
  after : ∀ prev word next, Cut prev word next → word.getLast?.any isWord = true →
    next.any isWord = false

/-- A word that is cut and meets a word of word characters contains it. -/
theorem CutsAtEdges.apart_or_inside (edges : CutsAtEdges isWord Cut)
    {pre run post x cutWord y : List Char} (whole : pre ++ (run ++ post) = x ++ (cutWord ++ y))
    (nonempty : cutWord ≠ []) (all : ∀ c ∈ run, isWord c = true)
    (isCut : Cut (lastOf prev x) cutWord y.head?) :
    (x.length + cutWord.length ≤ pre.length ∨ pre.length + run.length ≤ x.length) ∨
      ∃ a b, cutWord = a ++ (run ++ b) ∧ pre = x ++ a ∧ post = b ++ y := by
  have within : ∀ a, pre = x ++ a → cutWord ++ y = a ++ (run ++ post) →
      (x.length + cutWord.length ≤ pre.length ∨ pre.length + run.length ≤ x.length) ∨
        ∃ a b, cutWord = a ++ (run ++ b) ∧ pre = x ++ a ∧ post = b ++ y := by
    rintro a rfl tail
    rcases List.append_eq_append_iff.mp tail with ⟨rest, rfl, -⟩ | ⟨rest, rfl, left⟩
    · left
      left
      rw [List.length_append, List.length_append]
      omega
    rcases List.append_eq_append_iff.mp left with ⟨b, rfl, rfl⟩ | ⟨beyond, rfl, rfl⟩
    · exact .inr ⟨a, b, rfl, rfl, rfl⟩
    · cases beyond with
      | nil => exact .inr ⟨a, [], by rw [List.append_nil, List.append_nil], rfl, rfl⟩
      | cons d beyond =>
          by_cases none : rest = []
          · subst none
            left
            left
            exact Nat.le_of_eq (by rw [List.append_nil, List.length_append])
          · have last : (a ++ rest).getLast?.any isWord = true := by
              rw [List.getLast?_append_of_ne_nil a none, List.getLast?_eq_some_getLast none]
              exact all _ (List.mem_append_left _ (List.getLast_mem none))
            have next := edges.after _ _ _ isCut last
            have first : isWord d = true := all d (List.mem_append_right _ List.mem_cons_self)
            exact absurd (first.symm.trans next) (by decide)
  rcases List.append_eq_append_iff.mp whole with ⟨a, rfl, tail⟩ | ⟨a, split, tail⟩
  · cases a with
    | nil => exact within [] (by rw [List.append_nil, List.append_nil]) tail.symm
    | cons c a =>
        rcases List.append_eq_append_iff.mp tail with ⟨rest, beyond, -⟩ | ⟨rest, rfl, left⟩
        · left
          right
          rw [beyond, List.length_append, List.length_append]
          omega
        · cases rest with
          | nil =>
              left
              right
              exact Nat.le_of_eq (by rw [List.append_nil, List.length_append])
          | cons d rest =>
              cases cutWord with
              | nil => exact absurd rfl nonempty
              | cons e cutWord =>
                  obtain ⟨rfl, -⟩ := List.cons.inj left
                  have last : (lastOf prev (pre ++ c :: a)).any isWord = true := by
                    rw [lastOf_append, lastOf_eq_getLast? _ (List.cons_ne_nil c a),
                      List.getLast?_eq_some_getLast (List.cons_ne_nil c a)]
                    exact all _ (List.mem_append_left _ (List.getLast_mem _))
                  have next := edges.before _ _ _ isCut last
                  have first : isWord e = true := all e (List.mem_append_right _ List.mem_cons_self)
                  exact absurd (first.symm.trans next) (by decide)
  · exact within a split tail

/-- An edit does not change what kind of word character comes after a word character. -/
theorem CutsAtEdges.head_any (edges : CutsAtEdges isWord Cut)
    (edits : Edits Kept Cut mark prev text out) (outside : isWord mark.opening = false)
    (before : prev.any isWord = true) {p : Char → Bool} (sub : ∀ c, p c = true → isWord c = true) :
    out.head?.any p = text.head?.any p := by
  have other : ∀ c, isWord c = false → p c = false := fun c nonword => by
    cases holds : p c with
    | false => rfl
    | true => rw [sub c holds] at nonword; cases nonword
  rcases edits.head with same | ⟨marked, word, rest, rfl, nonempty, isCut⟩
  · rw [same]
  · have first := edges.before _ _ _ isCut before
    cases word with
    | nil => exact absurd rfl nonempty
    | cons c word =>
        rw [marked, List.cons_append, List.head?_cons, Option.any_some, Option.any_some,
          other _ outside, other c first]

/-- Before a word character no mark stands, if the words that are cut end in word characters. -/
theorem CutsAtEdges.same_before (edges : CutsAtEdges isWord Cut)
    (ends : ∀ prev word next, Cut prev word next → word.getLast?.any isWord = true)
    {before before' next : Option Char} (same : SameBefore Cut mark before before' next)
    (after : next.any isWord = true) : before' = before := by
  rcases same with same | ⟨-, prev, word, -, isCut, -⟩
  · exact same
  · have other := edges.after _ _ _ isCut (ends _ _ _ isCut)
    exact absurd (after.symm.trans other) (by decide)

/-- A match in the result, outside of the marks, was a match in the text where it was kept. -/
theorem Edits.matches_before (edits : Edits Kept Cut mark none text out)
    (outside : isWord mark.opening = false ∧ isWord mark.closing = false)
    (edges : re.boundaryFree = true ∨ CutsAtEdges isWord Cut) {pre word post : List Char}
    (whole : out = pre ++ (word ++ post))
    (matched : re.Matches isWord (lastOf none pre) word post.head?) (nonempty : word ≠ [])
    (plain : mark.opening ∉ word ∧ mark.closing ∉ word)
    (other : ¬ ∃ x y, mark.text = x ++ (word ++ y)) :
    ∃ pre' post', text = pre' ++ (word ++ post') ∧ Kept (lastOf none pre') (word ++ post') ∧
      re.Matches isWord (lastOf none pre') word post'.head? := by
  rcases edits.occurrence nonempty plain.1 plain.2 whole (.inl rfl) with
    inside | ⟨pre', post', split, kept, before, after⟩
  · exact absurd inside other
  refine ⟨pre', post', split, kept, ?_⟩
  rcases edges with free | edges
  · exact change_of_boundaryFree re free matched
  refine matched.change_edges nonempty (fun found => ?_) fun found => ?_
  · rcases before with same | ⟨same, prev, cutWord, -, isCut, last⟩
    · rwa [same] at found
    · rw [same, isBoundary, Option.any_some, outside.2] at found
      have first : word.head?.any isWord = true := by
        cases head : word.head?.any isWord with
        | true => rfl
        | false => rw [head] at found; cases found
      rw [isBoundary, last, first]
      cases ends : cutWord.getLast?.any isWord with
      | false => rfl
      | true =>
          rw [edges.after _ _ _ isCut ends] at first
          cases first
  · rcases after.head with same | ⟨same, cutWord, rest, rfl, some, isCut⟩
    · rwa [same]
    · rw [same, isBoundary, Option.any_some, outside.1] at found
      rw [lastOf_append, lastOf_eq_getLast? _ nonempty] at isCut
      have isLast : word.getLast?.any isWord = true := by
        cases last : word.getLast?.any isWord with
        | true => rfl
        | false => rw [last] at found; cases found
      have first := edges.before _ _ _ isCut isLast
      rw [isBoundary, isLast]
      cases cutWord with
      | nil => exact absurd rfl some
      | cons d cutWord =>
          rw [List.cons_append, List.head?_cons]
          rw [List.head?_cons] at first
          rw [first]
          rfl

end Matching

/-! ### Counting -/

theorem Edits.countP_le {p : Char → Bool} (edits : Edits Kept Cut mark prev text out)
    (unmarked : mark.text.countP p = 0) : out.countP p ≤ text.countP p := by
  induction edits with
  | nil => exact Nat.le_refl _
  | keep _ _ ih =>
      rw [List.countP_cons, List.countP_cons]
      exact Nat.add_le_add_right ih _
  | cut _ _ _ ih =>
      rw [List.countP_append, List.countP_append, unmarked]
      omega

/-- An edit that cuts something takes characters away that the mark does not have. -/
theorem Edits.eq_or_countP_lt {p : Char → Bool} (edits : Edits Kept Cut mark prev text out)
    (unmarked : mark.text.countP p = 0)
    (each : ∀ prev word next, Cut prev word next → 0 < word.countP p) :
    out = text ∨ out.countP p < text.countP p := by
  induction edits with
  | nil => exact .inl rfl
  | keep _ _ ih =>
      rcases ih with same | less
      · exact .inl (congrArg _ same)
      · refine .inr ?_
        rw [List.countP_cons, List.countP_cons]
        exact Nat.add_lt_add_right less _
  | cut _ isCut _ ih =>
      refine .inr ?_
      have some := each _ _ _ isCut
      rw [List.countP_append, List.countP_append, unmarked]
      rcases ih with same | less
      · rw [same]
        omega
      · omega

end Lib
