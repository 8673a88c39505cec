import FusionMemory.Engine.RedactNumbers
import FusionMemory.Lib.Split

/-!
What is left between numbers and addresses (`redact_text` of `fm-engine/src/redact.rs`).

`leftParts` splits a text at the id card, bank card and phone numbers and the e-mail addresses in
it. The passes for these leave the parts, with placeholders between them (`joined_firstPasses`). A
placeholder is to a card number what the end of the text is; so they leave a card number exactly
where one of the parts holds it (`looseCard_firstPasses_iff`).
-/

namespace FusionMemory

open Lib Regex

variable (u : CharClasses)

/-! ### Loose card numbers -/

/-- The run of digits is what the pattern for international phone numbers takes. -/
def International (prev : Option Char) (run : List Char) (next : Option Char) : Prop :=
  prev = some '+' ∧ run.length ≤ 15 ∧ next.any u.isWord = false

/-- A run of digits holds a card number, and is no international phone number. -/
def LooseCard (text : List Char) : Prop :=
  HasRun u text fun prev run next => HoldsCard u run ∧ ¬ International u prev run next

section Cards

variable {u}

theorem DigitRun.isWord {prev next : Option Char} {run : List Char}
    (isRun : DigitRun u prev run next) : ∀ c ∈ run, u.isWord c = true :=
  fun c mem => u.word_of_digit c (isRun.digits c mem)

/-- What makes a run a loose card number does not depend on the rest of its context. -/
theorem looseCard_of_context {pre run post : List Char} {prev next : Option Char}
    (isRun : DigitRun u prev run next) (holds : HoldsCard u run)
    (loose : ¬ International u prev run next)
    (before : ∀ c, lastOf none pre = some c → u.isWord c = true ∨ c = '+' → prev = some c)
    (after : ∀ p : Char → Bool, (∀ c, p c = true → u.isWord c = true) →
      post.head?.any p = next.any p) : LooseCard u (pre ++ (run ++ post)) := by
  refine ⟨pre, run, post, rfl, ⟨isRun.nonempty, isRun.digits, ?_, ?_⟩, holds, ?_⟩
  · cases last : lastOf none pre with
    | none => rfl
    | some c =>
        by_contra digit
        have isDigit : u.isDigit c = true := Bool.eq_true_of_not_eq_false digit
        have notDigit := isRun.before
        rw [before c last (.inl (u.word_of_digit c isDigit)), Option.any_some, isDigit] at notDigit
        cases notDigit
  · rw [after _ u.word_of_digit]
    exact isRun.after
  · exact fun ⟨plus, short, end'⟩ =>
      loose ⟨before '+' plus (.inr rfl), short, by rwa [← after _ fun _ => id]⟩

/-- What is neither a word character nor a plus separates card numbers as the end of a text does. -/
theorem looseCard_separator {sep : Char} (nonword : u.isWord sep = false) (other : sep ≠ '+')
    (a b : List Char) : LooseCard u (a ++ sep :: b) ↔ LooseCard u a ∨ LooseCard u b := by
  have last (word : List Char) (c : Char) : lastOf none (a ++ sep :: word) = some c ↔
      lastOf none word = some c ∨ word = [] ∧ c = sep := by
    rw [lastOf_append, lastOf_cons]
    cases word with
    | nil => simp [eq_comm]
    | cons d word =>
        rw [lastOf_eq_getLast? _ (List.cons_ne_nil d word),
          lastOf_eq_getLast? _ (List.cons_ne_nil d word)]
        simp
  have head (word : List Char) (p : Char → Bool) (sub : ∀ c, p c = true → u.isWord c = true) :
      (word ++ sep :: b).head?.any p = word.head?.any p := by
    cases word with
    | nil =>
        exact Bool.eq_false_iff.mpr fun holds =>
          absurd ((sub sep holds).symm.trans nonword) (by decide)
    | cons d word => rfl
  constructor
  · rintro ⟨pre, run, post, whole, isRun, holds, loose⟩
    have outside : sep ∉ run := fun mem =>
      absurd ((isRun.isWord sep mem).symm.trans nonword) (by decide)
    rcases List.append_eq_append_iff.mp whole with ⟨left, rfl, tail⟩ | ⟨left, rfl, tail⟩
    · cases left with
      | nil =>
          obtain ⟨c, rest, rfl⟩ := List.exists_cons_of_ne_nil isRun.nonempty
          obtain ⟨rfl, -⟩ := List.cons.inj tail
          exact absurd List.mem_cons_self outside
      | cons d left =>
          obtain ⟨rfl, rfl⟩ := List.cons.inj tail
          exact .inr (looseCard_of_context isRun holds loose
            (fun c found _ => (last left c).mpr (.inl found)) fun _ _ => rfl)
    · rcases List.append_eq_append_iff.mp tail with ⟨right, rfl, rfl⟩ | ⟨right, rfl, rest⟩
      · exact .inl (looseCard_of_context isRun holds loose (fun _ found _ => found)
          fun p sub => (head right p sub).symm)
      · cases right with
        | nil =>
            rw [List.append_nil] at isRun holds loose
            rw [List.nil_append] at rest
            refine .inl (List.append_nil left ▸ looseCard_of_context isRun holds loose
              (fun _ found _ => found) fun p sub => ?_)
            rw [← rest]
            exact (head [] p sub).symm
        | cons d right =>
            obtain ⟨rfl, -⟩ := List.cons.inj rest
            exact absurd (List.mem_append_right _ List.mem_cons_self) outside
  · rintro (⟨pre, run, post, rfl, isRun, holds, loose⟩ | ⟨pre, run, post, rfl, isRun, holds, loose⟩)
    · rw [List.append_assoc, List.append_assoc]
      exact looseCard_of_context isRun holds loose (fun _ found _ => found) (head post)
    · have whole : a ++ sep :: (pre ++ (run ++ post)) = (a ++ sep :: pre) ++ (run ++ post) := by simp
      rw [whole]
      refine looseCard_of_context isRun holds loose (fun c found kind => ?_) fun _ _ => rfl
      rcases (last pre c).mp found with same | ⟨-, rfl⟩
      · exact same
      · rcases kind with isWord | plus
        · exact absurd (isWord.symm.trans nonword) (by decide)
        · exact absurd plus other

/-- A placeholder separates card numbers. -/
theorem looseCard_placeholder {tag : String} (tagged : tag ∈ TAGS) (a b : List Char) :
    LooseCard u (a ++ ((placeholder tag).text ++ b)) ↔ LooseCard u a ∨ LooseCard u b := by
  have split : a ++ ((placeholder tag).text ++ b) =
      a ++ '[' :: ((placeholder tag).inner ++ ']' :: b) := by
    simp [Mark.text, placeholder]
  have inside : ¬ LooseCard u (placeholder tag).inner := by
    rintro ⟨pre, run, post, whole, isRun, -⟩
    obtain ⟨c, rest, rfl⟩ := List.exists_cons_of_ne_nil isRun.nonempty
    refine List.countP_eq_zero.mp (countP_digit_placeholder u tagged) c ?_ (isRun.digits c
      List.mem_cons_self)
    rw [Mark.text, whole]
    simp
  have nonword := outside_brackets u
  rw [split, looseCard_separator nonword.1 (by decide), looseCard_separator nonword.2 (by decide),
    or_iff_right inside]

end Cards

/-! ### Passes beside placeholders -/

section Marks

variable {u}

/-- The passes go over the two sides of a separator for themselves. -/
theorem redactPass_separator {sep : Char} (mem : sep ∈ ['[', ']', ' '])
    (nonword : u.isWord sep = false) (a b : List Char) (idx : Nat) :
    redactPass u (a ++ sep :: b) idx = redactPass u a idx ++ sep :: redactPass u b idx := by
  unfold redactPass
  cases pattern : (PATTERNS u)[idx]? with
  | none => rfl
  | some re =>
      cases TAGS[idx]? with
      | none => rfl
      | some tag =>
          have excluded := excludes_of_mem u mem (List.mem_of_getElem? pattern)
          dsimp only
          split_ifs
          · exact replaceAll_separator excluded nonword a b
          · exact replaceAll_separator excluded nonword a b

theorem redactPass_placeholder {tag : String} (tagged : tag ∈ TAGS) (a b : List Char) (idx : Nat) :
    redactPass u (a ++ ((placeholder tag).text ++ b)) idx =
      redactPass u a idx ++ ((placeholder tag).text ++ redactPass u b idx) := by
  have split (a b : List Char) : a ++ ((placeholder tag).text ++ b) =
      a ++ '[' :: ((placeholder tag).inner ++ ']' :: b) := by
    simp [Mark.text, placeholder]
  have inside : redactPass u (placeholder tag).inner idx = (placeholder tag).inner := by
    refine redactPass_of_noMatch fun re pattern pre word post whole matched => ?_
    refine (avoidsPlaceholders u (List.mem_of_getElem? pattern)).not_inside matched tagged
      ⟨'[' :: pre, post ++ [']'], ?_⟩
    rw [Mark.text, whole]
    simp [placeholder]
  have nonword := outside_brackets u
  rw [split, redactPass_separator (by decide) nonword.1, redactPass_separator (by decide) nonword.2,
    inside, split]

end Marks

/-! ### The parts -/

/-- The parts of a text between its id card, bank card and phone numbers and its e-mail addresses:
it is split at the ones, the parts at the next. -/
def leftParts (text : List Char) : List (List Char) :=
  let parts := (idcardPattern u).split u.isWord (fun _ => true) text
  let parts := parts.flatMap ((bankcardPattern u).split u.isWord luhnValid)
  let parts := parts.flatMap ((phonePattern u).split u.isWord fun _ => true)
  parts.flatMap (emailPattern.split u.isWord fun _ => true)

/-- What the last four passes start from: the text without id cards, bank cards, phone numbers and
e-mail addresses. -/
def firstPasses (text : List Char) : List Char := [2, 3, 0, 1].foldl (redactPass u) text

/-- A text is made of the parts, with placeholders between them. -/
inductive Joined : List (List Char) → List Char → Prop where
  | one (part : List Char) : Joined [part] part
  | cons {tag : String} {parts : List (List Char)} {text : List Char} (part : List Char)
      (tagged : tag ∈ TAGS) (rest : Joined parts text) :
      Joined (part :: parts) (part ++ ((placeholder tag).text ++ text))

section Joining

variable {u} {tag : String} {parts parts' : List (List Char)} {text text' : List Char}

theorem Joined.append (tagged : tag ∈ TAGS) (first : Joined parts text) (second : Joined parts' text') :
    Joined (parts ++ parts') (text ++ ((placeholder tag).text ++ text')) := by
  induction first with
  | one part => exact .cons part tagged second
  | cons part tagged' _ ih =>
      rw [List.append_assoc, List.append_assoc]
      exact .cons part tagged' ih

theorem joined_intercalate (tagged : tag ∈ TAGS) : ∀ {parts : List (List Char)}, parts ≠ [] →
    Joined parts ((placeholder tag).text.intercalate parts)
  | [], nonempty => absurd rfl nonempty
  | [part], _ => by
      rw [List.intercalate_singleton]
      exact .one part
  | part :: next :: parts, _ => by
      rw [List.intercalate_cons_cons, List.append_assoc]
      exact .cons part tagged (joined_intercalate tagged (List.cons_ne_nil next parts))

variable (u) in
/-- The pass replaces the matches that are taken. -/
def Replaces (idx : Nat) (re : Regex) (taken : List Char → Bool) : Prop :=
  ∃ tag ∈ TAGS, ∀ text, redactPass u text idx =
    re.replaceAll u.isWord (fun word => if taken word then (placeholder tag).text else word) text

/-- A pass splits each part at the matches that it replaces. -/
theorem Joined.pass {idx : Nat} {re : Regex} {taken : List Char → Bool}
    (joined : Joined parts text) (pass : Replaces u idx re taken) :
    Joined (parts.flatMap (re.split u.isWord taken)) (redactPass u text idx) := by
  obtain ⟨tag, tagged, replaces⟩ := pass
  have one (part : List Char) : Joined (re.split u.isWord taken part) (redactPass u part idx) := by
    rw [replaces, replaceAll_eq_intercalate fun _ => rfl]
    exact joined_intercalate tagged (split_ne_nil part)
  induction joined with
  | one part =>
      rw [List.flatMap_singleton]
      exact one part
  | cons part tagged' _ ih =>
      rw [redactPass_placeholder tagged', List.flatMap_cons]
      exact (one part).append tagged' ih

/-- The first passes leave the parts. -/
theorem joined_firstPasses (text : List Char) : Joined (leftParts u text) (firstPasses u text) := by
  have idcard : Replaces u 2 (idcardPattern u) fun _ => true := ⟨"idcard", by decide, fun _ => rfl⟩
  have bankcard : Replaces u 3 (bankcardPattern u) luhnValid := ⟨"bankcard", by decide, fun _ => rfl⟩
  have phone : Replaces u 0 (phonePattern u) fun _ => true := ⟨"phone", by decide, fun _ => rfl⟩
  have email : Replaces u 1 emailPattern fun _ => true := ⟨"email", by decide, fun _ => rfl⟩
  have first := (Joined.one text).pass idcard
  rw [List.flatMap_singleton] at first
  exact ((first.pass bankcard).pass phone).pass email

theorem Joined.looseCard_iff (joined : Joined parts text) :
    LooseCard u text ↔ ∃ part ∈ parts, LooseCard u part := by
  induction joined with
  | one part => simp
  | cons part tagged _ ih =>
      rw [looseCard_placeholder tagged, ih]
      simp

/-- The first passes leave a card number exactly where a part holds it. -/
theorem looseCard_firstPasses_iff (text : List Char) :
    LooseCard u (firstPasses u text) ↔ ∃ part ∈ leftParts u text, LooseCard u part :=
  (joined_firstPasses text).looseCard_iff

end Joining

end FusionMemory
