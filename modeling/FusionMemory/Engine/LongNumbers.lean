import FusionMemory.Engine.RedactIdempotent

/-!
Long numbers that are no card numbers (`redact_text` of `fm-engine/src/redact.rs`).

A blank is to every pattern what an end of the text is, so the passes go over a number between
blanks for itself (`redactPii_blank`). A number with a wrong check digit is left by the bank card
pass; of the others only the phone pass can take something out of it (`redactPii_number_iff`).
-/

namespace FusionMemory

open Lib Regex

variable {u : CharClasses}

/-! ### Between blanks -/

theorem isWord_blank : u.isWord ' ' = false := by
  rw [(u.ascii ' ' (by decide)).2]
  decide

/-- The passes go over the two sides of a blank for themselves. -/
theorem redactPii_blank (a b : List Char) :
    redactPii u (a ++ ' ' :: b) = redactPii u a ++ ' ' :: redactPii u b := by
  unfold redactPii
  induction ORDER generalizing a b with
  | nil => rfl
  | cons idx passes ih =>
      rw [List.foldl_cons, List.foldl_cons, List.foldl_cons,
        redactPass_separator (by decide) isWord_blank, ih]

/-! ### A number -/

/-- A number as long as that of a bank card, which it is not, without that of an id card. -/
structure LongNumber (u : CharClasses) (run : List Char) : Prop where
  digits : ∀ c ∈ run, u.isDigit c = true
  long : 13 ≤ run.length
  short : run.length ≤ 19
  invalid : luhnValid run = false
  noIdcard : (idcardPattern u).isMatch u.isWord run = false

/-- The number of a mobile phone within a run of digits: a one, a digit from three on, and nine
more. -/
def HoldsMobile (run : List Char) : Prop :=
  ∃ a c rest b, run = a ++ '1' :: c :: (rest ++ b) ∧ inRange '3' '9' c = true ∧ rest.length = 9

/-! ### The passes over a number -/

section Passes

variable {run : List Char}

/-- A pattern that needs a character that is no digit does not match a run of digits. -/
theorem noMatch_of_digits (digits : ∀ c ∈ run, u.isDigit c = true) {re : Regex} {p : Char → Bool}
    (needs : re.AtLeast p 1) (other : ∀ c, p c = true → u.isDigit c = false) :
    NoMatch u re run := by
  rintro pre word post rfl matched
  obtain ⟨c, mem, has⟩ := List.countP_pos_iff.mp (needs.sound matched)
  have inRun : c ∈ pre ++ (word ++ post) := List.mem_append_right _ (List.mem_append_left _ mem)
  exact absurd ((digits c inRun).symm.trans (other c has)) (by decide)

/-- The patterns after those of numbers need a character that is no digit. -/
theorem needs_other : ∀ idx ∈ [1, 4, 5, 6, 7], ∀ re, (PATTERNS u)[idx]? = some re →
    ∃ p, re.AtLeast p 1 ∧ ∀ c, p c = true → u.isDigit c = false := by
  have sign : ∀ {sep : Char}, sep.toNat < 128 ∧ sep.isDigit = false →
      ∀ c, (c == sep) = true → u.isDigit c = false := by
    rintro sep ⟨small, other⟩ c same
    rw [eq_of_beq same, isDigit_of_ascii u small, other]
  intro idx mem re pattern
  simp only [List.mem_cons, List.not_mem_nil, or_false] at mem
  rcases mem with rfl | rfl | rfl | rfl | rfl
  all_goals obtain rfl := Option.some.inj pattern
  · exact ⟨(· == '@'), .fewer (.seq .any (.seq (atLeast_chr '@') .any)) (by decide),
      sign (by decide)⟩
  · exact ⟨(· == '.'), .fewer (.seq .any (.seq (.rep (.seq .any (atLeast_chr '.'))) .any))
      (by decide), sign (by decide)⟩
  · refine ⟨isPassportLetter, .fewer (.seq .any (.seq (.set fun _ => id) .any)) (by decide), ?_⟩
    intro c letter
    simp only [isPassportLetter, Bool.or_eq_true] at letter
    rcases letter with ((((same | same) | same) | same) | same) | same
    all_goals exact sign (by decide) c same
  · exact ⟨(· == ':'), .alt (.fewer (.seq .any (.seq .any (.seq (.rep (.seq (atLeast_chr ':')
      .any)) .any))) (by decide)) (.fewer (.seq (atLeast_chr ':') .any) (by decide)),
      sign (by decide)⟩
  · exact ⟨(· == '+'), .fewer (.seq (atLeast_chr '+') .any) (by decide), sign (by decide)⟩

/-- The bank card pass takes the number as a whole, and leaves it for its wrong check digit. -/
theorem bankcard_pass_number (number : LongNumber u run) : redactPass u run 3 = run := by
  have whole : run.takeWhile u.isDigit = run := List.takeWhile_eq_self_iff.mpr number.digits
  have length : (bankcardPattern u).matchLength u.isWord none run = some run.length := by
    unfold bankcardPattern digit
    rw [matchLength_rep_set, whole, if_pos number.long]
    have long := number.long
    have short := number.short
    congr 1
    omega
  change (bankcardPattern u).replaceFrom u.isWord
    (fun digits => if luhnValid digits then (placeholder "bankcard").text else digits) 0 none run =
      run
  cases run with
  | nil => rfl
  | cons c rest =>
      rw [replaceFrom_cons, length, List.length_cons]
      dsimp only
      rw [← List.length_cons (a := c), List.take_length, number.invalid,
        replaceFrom_skip _ _ _ (Nat.le_refl _), List.drop_length]
      exact List.append_nil _

/-- The phone pattern asks for no boundary: it matches within a run of digits. -/
theorem noMatch_phone_iff (digits : ∀ c ∈ run, u.isDigit c = true) :
    NoMatch u (phonePattern u) run ↔ ¬ HoldsMobile run := by
  constructor
  · -- without the prefix of a country the pattern takes the eleven digits
    rintro none ⟨a, c, rest, b, rfl, high, nine⟩
    refine none a ('1' :: c :: rest) b rfl ⟨[], _, rfl, ⟨0, Nat.le_refl 0, Nat.zero_le _, rfl⟩,
      ['1'], _, rfl, ⟨'1', rfl, rfl⟩, [c], rest, rfl, ⟨c, rfl, high⟩, matches_rep_set.mpr ⟨?_, ?_, ?_⟩⟩
    · exact Nat.le_of_eq nine.symm
    · exact Nat.le_of_eq nine
    · intro d mem
      exact digits d (by simp [mem])
  · rintro free pre _ post rfl ⟨country, _, rfl, -, _, _, rfl, ⟨one, rfl, isOne⟩, _, rest, rfl,
      ⟨c, rfl, high⟩, isRep⟩
    obtain rfl := eq_of_beq isOne
    obtain ⟨least, most, -⟩ := matches_rep_set.mp isRep
    refine free ⟨pre ++ country, c, rest, post, ?_, high, Nat.le_antisymm most least⟩
    simp only [List.append_assoc, List.cons_append, List.nil_append]

/-- Only the number of a mobile phone is taken out of the number. -/
theorem redactPii_number_iff (number : LongNumber u run) :
    redactPii u run = run ↔ ¬ HoldsMobile run := by
  have idcard : redactPass u run 2 = run := redactPass_of_noMatch fun re pattern => by
    obtain rfl : idcardPattern u = re := Option.some.inj pattern
    exact not_matches_of_isMatch number.noIdcard
  rw [← noMatch_phone_iff number.digits, redactPii_eq, idcard, bankcard_pass_number number,
    List.foldl_cons]
  constructor
  · intro same
    have phone : redactPass u run 0 = run := by
      have digits : (phonePattern u).AtLeast u.isDigit 1 :=
        .fewer (.seq .any (.seq .any (.seq .any (atLeast_digits u 9 9)))) (by decide)
      refine (redactPass_eq_or_lt rfl digits run).resolve_right fun less => ?_
      have later := countP_digit_redactPasses (u := u) [1, 4, 5, 6, 7] (redactPass u run 0)
      rw [same] at later
      omega
    have none : NoMatch u (phonePattern u) (redactPass u run 0) :=
      noMatch_replaceAll List.mem_cons_self List.mem_cons_self (.inl rfl)
    rwa [phone] at none
  · intro none
    have phone : redactPass u run 0 = run := redactPass_of_noMatch fun re pattern => by
      obtain rfl : phonePattern u = re := Option.some.inj pattern
      exact none
    rw [phone]
    refine redactPasses_of_idle fun idx mem => redactPass_of_noMatch fun re pattern => ?_
    obtain ⟨p, needs, other⟩ := needs_other idx mem re pattern
    exact noMatch_of_digits number.digits needs other

end Passes

/-! ### A number in a text -/

section Texts

variable {run : List Char}

/-- A number that holds that of a mobile phone is nowhere in a text after the passes. -/
theorem not_infix_of_holdsMobile (digits : ∀ c ∈ run, u.isDigit c = true) (mobile : HoldsMobile run)
    (text : List Char) : ¬ run <:+: redactPii u text := by
  rintro ⟨x, y, split⟩
  have other : (0 : Nat) ≠ 3 := by decide
  have silent : NoMatch u (phonePattern u) (redactPii u text) := noMatch_redactPii text other rfl
  refine (noMatch_phone_iff digits).mp ?_ mobile
  rintro pre word post rfl matched
  refine silent (x ++ pre) word (post ++ y) ?_ (change_of_boundaryFree (phonePattern u) rfl matched)
  rw [← split]
  simp only [List.append_assoc]

/-- Between blanks a long number that is no card number is kept exactly if it does not hold the
number of a mobile phone; otherwise it is found nowhere in the result. -/
theorem longNumber_kept_iff (redactCredentials : String → String) {input : String}
    {pre post : List Char}
    (left : (redactCredentials input).toList = pre ++ ' ' :: (run ++ ' ' :: post))
    (number : LongNumber u run) :
    ((redactText u redactCredentials input).toList =
        redactPii u pre ++ ' ' :: (run ++ ' ' :: redactPii u post) ↔ ¬ HoldsMobile run) ∧
      (run <:+: (redactText u redactCredentials input).toList ↔ ¬ HoldsMobile run) := by
  have kept : (redactText u redactCredentials input).toList =
      redactPii u pre ++ ' ' :: (run ++ ' ' :: redactPii u post) ↔ ¬ HoldsMobile run := by
    rw [← redactPii_number_iff number, redactText_eq, String.toList_ofList, left, redactPii_blank,
      redactPii_blank]
    constructor
    · intro same
      have tail := (List.cons.inj (List.append_cancel_left same)).2
      exact List.append_cancel_right tail
    · intro same
      rw [same]
  refine ⟨kept, fun inside mobile => ?_, fun free => ?_⟩
  · rw [redactText_eq, String.toList_ofList] at inside
    exact not_infix_of_holdsMobile number.digits mobile _ inside
  · rw [kept.mpr free]
    exact ⟨redactPii u pre ++ [' '], ' ' :: redactPii u post, by simp⟩

theorem longNumber_kept_order :
    "999999999999999999".toList <:+:
      (redactText .ofAscii id "order 999999999999999999 timestamp").toList := by
  have digits : "999999999999999999".toList.all CharClasses.ofAscii.isDigit = true := by
    decide +kernel
  have number : LongNumber .ofAscii "999999999999999999".toList :=
    ⟨List.all_eq_true.mp digits, by decide +kernel, by decide +kernel, by decide +kernel,
      by decide +kernel⟩
  have free : ¬ HoldsMobile "999999999999999999".toList := by
    rintro ⟨a, c, rest, b, split, -⟩
    have one : '1' ∈ "999999999999999999".toList := by
      rw [split]
      exact List.mem_append_right _ List.mem_cons_self
    exact absurd one (by decide +kernel)
  have left : (id "order 999999999999999999 timestamp").toList =
      "order".toList ++ ' ' :: ("999999999999999999".toList ++ ' ' :: "timestamp".toList) := by
    decide +kernel
  exact (longNumber_kept_iff id left number).2.mpr free

/-- The phone pass takes eleven digits out of a timestamp in milliseconds. -/
theorem timestamp_not_kept : ¬ ∀ (input : String) (pre run post : List Char),
    input.toList = pre ++ ' ' :: (run ++ ' ' :: post) → LongNumber .ofAscii run →
      run <:+: (redactText .ofAscii id input).toList := by
  intro always
  have digits : "1700000000000".toList.all CharClasses.ofAscii.isDigit = true := by decide +kernel
  have number : LongNumber .ofAscii "1700000000000".toList :=
    ⟨List.all_eq_true.mp digits, by decide +kernel, by decide +kernel, by decide +kernel,
      by decide +kernel⟩
  have kept := always "ts 1700000000000 end" "ts".toList "1700000000000".toList "end".toList
    (by decide +kernel) number
  exact absurd kept (by decide +kernel)

end Texts

end FusionMemory
