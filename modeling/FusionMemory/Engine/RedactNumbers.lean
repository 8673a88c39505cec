import FusionMemory.Engine.RedactTwice
import Mathlib.Data.List.TakeWhile

/-!
Card numbers in a text (`redact_text` of `fm-engine/src/redact.rs`).

The bank card pass goes over each run of digits for itself; so it changes a text exactly if it
changes one of its runs (`bankcard_fixed_iff`).
-/

namespace FusionMemory

open Lib Regex

variable (u : CharClasses)

/-! ### Runs of digits -/

/-- A run of digits between characters that are none. -/
structure DigitRun (prev : Option Char) (run : List Char) (next : Option Char) : Prop where
  nonempty : run ≠ []
  digits : ∀ c ∈ run, u.isDigit c = true
  before : prev.any u.isDigit = false
  after : next.any u.isDigit = false

/-- The text has a run of digits with this property, between its neighbours. -/
def HasRun (text : List Char) (P : Option Char → List Char → Option Char → Prop) : Prop :=
  ∃ pre run post, text = pre ++ (run ++ post) ∧ DigitRun u (lastOf none pre) run post.head? ∧
    P (lastOf none pre) run post.head?

/-- The bank card pass finds a card number in the run. -/
def HoldsCard (run : List Char) : Prop := redactPass u run 3 ≠ run

section Runs

variable {u}

theorem takeWhile_edge {p : Char → Bool} {a b : List Char}
    (edge : a.getLast?.any p = false ∨ b.head?.any p = false) (some : a ≠ []) :
    (a ++ b).takeWhile p = a.takeWhile p := by
  rw [List.takeWhile_append]
  split_ifs with all
  · have whole : a.takeWhile p = a := (List.takeWhile_sublist p).eq_of_length all
    have every : ∀ c ∈ a, p c = true := List.takeWhile_eq_self_iff.mp whole
    rw [whole]
    rcases edge with last | first
    · rw [List.getLast?_eq_some_getLast some, Option.any_some,
        every _ (List.getLast_mem some)] at last
      cases last
    · cases b with
      | nil => rw [List.takeWhile_nil, List.append_nil]
      | cons c b =>
          have other : ¬ p c = true := fun inClass => absurd (inClass.symm.trans first) (by decide)
          rw [List.takeWhile_cons_of_neg other, List.append_nil]
  · rfl

/-- The bank card pass goes over two texts for themselves if no run reaches from the one into the
other. -/
theorem bankcard_append {a b : List Char}
    (edge : a.getLast?.any u.isDigit = false ∨ b.head?.any u.isDigit = false) :
    redactPass u (a ++ b) 3 = redactPass u a 3 ++ redactPass u b 3 := by
  let f := fun digits : List Char =>
    if luhnValid digits then (placeholder "bankcard").text else digits
  change (bankcardPattern u).replaceFrom u.isWord f 0 none (a ++ b) =
    (bankcardPattern u).replaceFrom u.isWord f 0 none a ++
      (bankcardPattern u).replaceFrom u.isWord f 0 none b
  have length : ∀ prev text, (bankcardPattern u).matchLength u.isWord prev text =
      if 13 ≤ (text.takeWhile u.isDigit).length then
        some (13 + min (19 - 13) ((text.takeWhile u.isDigit).length - 13)) else none :=
    matchLength_rep_set
  rw [replaceFrom_append (Nat.zero_le _) fun s₁ s₂ split => ?_,
    replaceFrom_prev (fun prev prev' text => by rw [length, length]) b 0 _ none]
  by_cases none : s₂ = []
  · exact .inr none
  · left
    rw [length, length, takeWhile_edge ?_ none]
    rw [split, List.getLast?_append_of_ne_nil _ none] at edge
    exact edge

theorem holdsCard_long {run : List Char} (holds : HoldsCard u run) : 13 ≤ run.length := by
  rcases edits_redactPass u run 3 with same | ⟨re, tag, pattern, -, -, edits⟩
  · exact absurd same holds
  obtain rfl : bankcardPattern u = re := Option.some.inj pattern
  rcases edits.eq_or_cut with same | ⟨pre, word, post, split, matched⟩
  · exact absurd same holds
  · have digits := (atLeast_digits u 13 19).sound matched
    have size : word.countP u.isDigit ≤ word.length := List.countP_le_length
    rw [split, List.length_append, List.length_append]
    omega

/-- A run of the second part is one of the whole text, if no run reaches over from the first. -/
theorem hasRun_append (first : List Char) {later : List Char} {Q : List Char → Prop}
    (edge : (lastOf none first).any u.isDigit = false ∨ later.head?.any u.isDigit = false)
    (found : HasRun u later fun _ run _ => Q run) :
    HasRun u (first ++ later) fun _ run _ => Q run := by
  obtain ⟨pre, run, post, rfl, isRun, holds⟩ := found
  refine ⟨first ++ pre, run, post, (List.append_assoc _ _ _).symm,
    ⟨isRun.nonempty, isRun.digits, ?_, isRun.after⟩, holds⟩
  rw [lastOf_append]
  by_cases none : pre = []
  · subst none
    refine edge.resolve_right fun other => ?_
    obtain ⟨c, rest, rfl⟩ := List.exists_cons_of_ne_nil isRun.nonempty
    exact absurd ((isRun.digits c List.mem_cons_self).symm.trans other) (by decide)
  · rw [lastOf_eq_getLast? _ none]
    exact lastOf_eq_getLast? _ none ▸ isRun.before

/-- The bank card pass changes nothing exactly if it changes no run of digits. -/
theorem bankcard_fixed_iff (text : List Char) :
    redactPass u text 3 = text ↔ ¬ HasRun u text fun _ run _ => HoldsCard u run := by
  constructor
  · rintro fixed ⟨pre, run, post, rfl, isRun, holds⟩
    have after : run.getLast?.any u.isDigit = false ∨ post.head?.any u.isDigit = false :=
      .inr isRun.after
    have before : pre.getLast?.any u.isDigit = false ∨ (run ++ post).head?.any u.isDigit = false := by
      by_cases none : pre = []
      · subst none
        exact .inl rfl
      · exact .inl (lastOf_eq_getLast? _ none ▸ isRun.before)
    rw [bankcard_append before, bankcard_append after] at fixed
    have count := congrArg (List.countP u.isDigit) fixed
    simp only [List.countP_append] at count
    have first := countP_digit_redactPass (u := u) pre 3
    have last := countP_digit_redactPass (u := u) post 3
    rcases bankcard_pass_eq_or_lt (u := u) run with same | less
    · exact holds same
    · omega
  · intro free
    induction size : text.length using Nat.strongRecOn generalizing text with
    | ind size ih =>
        subst size
        cases text with
        | nil => rfl
        | cons c text =>
            by_cases isDigit : u.isDigit c = true
            · have split := List.takeWhile_append_dropWhile (p := u.isDigit) (l := c :: text)
              have after : ((c :: text).dropWhile u.isDigit).head?.any u.isDigit = false := by
                have head := List.head?_dropWhile_not u.isDigit (c :: text)
                cases first : ((c :: text).dropWhile u.isDigit).head? with
                | none => rfl
                | some d => rw [first] at head; exact head
              have digits : ∀ d ∈ (c :: text).takeWhile u.isDigit, u.isDigit d = true :=
                fun d mem => List.mem_takeWhile_imp mem
              have some : (c :: text).takeWhile u.isDigit ≠ [] := by
                rw [List.takeWhile_cons_of_pos isDigit]
                exact List.cons_ne_nil _ _
              generalize (c :: text).takeWhile u.isDigit = run at split digits some
              generalize (c :: text).dropWhile u.isDigit = post at split after
              have shorter : post.length < (c :: text).length := by
                rw [← split, List.length_append]
                have := List.length_pos_iff.mpr some
                omega
              have fixed : redactPass u run 3 = run := by
                by_contra holds
                exact free ⟨[], run, post, split.symm, ⟨some, digits, rfl, after⟩, holds⟩
              rw [← split, bankcard_append (.inr after), fixed, ih post.length shorter post ?_ rfl]
              exact fun found => free (split ▸ hasRun_append run (.inr after) found)
            · have other : u.isDigit c = false := Bool.eq_false_iff.mpr isDigit
              have single : redactPass u [c] 3 = [c] := by
                by_contra holds
                exact absurd (holdsCard_long holds) (by rw [List.length_singleton]; decide)
              change redactPass u ([c] ++ text) 3 = [c] ++ text
              have edge : [c].getLast?.any u.isDigit = false := other
              rw [bankcard_append (.inl edge), single,
                ih text.length (Nat.lt_succ_self _) text ?_ rfl]
              exact fun found => free (hasRun_append [c] (.inl edge) found)

end Runs

end FusionMemory
