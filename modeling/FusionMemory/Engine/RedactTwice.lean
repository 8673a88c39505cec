import FusionMemory.Engine.Redact
import Mathlib.Tactic.IntervalCases

/-!
Redaction of a text that was redacted (`redact_text` of `fm-engine/src/redact.rs`).

No pattern matches a placeholder, and after its pass a pattern matches nothing of the text, whatever
the later passes cut out (`noMatch_foldl`). Only the bank card pass leaves numbers that it matched:
those with a wrong check digit.
-/

namespace FusionMemory

open Lib Regex

variable (u : CharClasses)

/-! ### Placeholders -/

theorem outside_brackets : u.isWord '[' = false ∧ u.isWord ']' = false := by
  rw [(u.ascii '[' (by decide)).2, (u.ascii ']' (by decide)).2]
  decide

theorem isDigit_of_ascii {c : Char} (small : c.toNat < 128) : u.isDigit c = c.isDigit :=
  (u.ascii c small).1

theorem countP_digit_placeholder {tag : String} (mem : tag ∈ TAGS) :
    (placeholder tag).text.countP u.isDigit = 0 := by
  have none : ∀ tag ∈ TAGS,
      ((placeholder tag).text.all fun c => decide (c.toNat < 128) && !c.isDigit) = true := by decide
  rw [List.countP_eq_zero]
  intro c inText
  have plain := List.all_eq_true.mp (none tag mem) c inText
  rw [Bool.and_eq_true, decide_eq_true_eq, Bool.not_eq_true'] at plain
  rw [isDigit_of_ascii u plain.1, plain.2]
  exact Bool.false_ne_true

/-- The matches of the expression have none of the characters around a placeholder, and more of some
characters than a placeholder has. -/
structure AvoidsPlaceholders (re : Regex) : Prop where
  plain : re.excludes '[' = true ∧ re.excludes ']' = true
  marked : ∃ p n, re.AtLeast p n ∧ ∀ tag ∈ TAGS, (placeholder tag).text.countP p < n

section Avoiding

variable {u} {re : Regex} {prev next : Option Char} {word : List Char}

theorem AvoidsPlaceholders.brackets (avoids : AvoidsPlaceholders re)
    (matched : re.Matches u.isWord prev word next) : '[' ∉ word ∧ ']' ∉ word :=
  ⟨not_mem_of_excludes re avoids.plain.1 matched, not_mem_of_excludes re avoids.plain.2 matched⟩

theorem AvoidsPlaceholders.not_inside (avoids : AvoidsPlaceholders re)
    (matched : re.Matches u.isWord prev word next) {tag : String} (mem : tag ∈ TAGS) :
    ¬ ∃ x y, (placeholder tag).text = x ++ (word ++ y) := by
  rintro ⟨x, y, split⟩
  obtain ⟨p, n, least, few⟩ := avoids.marked
  have enough := least.sound matched
  have less := few tag mem
  rw [split, List.countP_append, List.countP_append] at less
  omega

theorem AvoidsPlaceholders.nonempty (avoids : AvoidsPlaceholders re)
    (matched : re.Matches u.isWord prev word next) : word ≠ [] := by
  rintro rfl
  obtain ⟨p, n, least, few⟩ := avoids.marked
  have enough := least.sound matched
  have less := few "ip" (by decide)
  rw [List.countP_nil] at enough
  omega

end Avoiding

section Patterns

/-- No pattern has a bracket or a blank. -/
theorem excludes_of_mem {c : Char} (mem : c ∈ ['[', ']', ' ']) {re : Regex} (pattern : re ∈ PATTERNS u) :
    re.excludes c = true := by
  simp only [List.mem_cons, List.not_mem_nil, or_false] at mem
  have digits : u.isDigit c = false := by
    have plain : c.toNat < 128 ∧ c.isDigit = false := by
      rcases mem with rfl | rfl | rfl <;> decide
    rw [isDigit_of_ascii u plain.1, plain.2]
  simp only [PATTERNS, List.mem_cons, List.not_mem_nil, or_false] at pattern
  rcases pattern with rfl | rfl | rfl | rfl | rfl | rfl | rfl | rfl
  all_goals simp only [phonePattern, emailPattern, idcardPattern, bankcardPattern, ipv4Pattern,
    passportPattern, ipv6Pattern, intlPhonePattern, nextHexGroup, hexGroup, oneOrMore, digit,
    chr, excludes, digits]
  all_goals
    clear digits
    rcases mem with rfl | rfl | rfl <;> decide

theorem atLeast_digits (least most : Nat) : (Regex.rep (digit u) least most).AtLeast u.isDigit least := by
  have one : (digit u).AtLeast u.isDigit 1 := .set fun _ inClass => inClass
  have all : (Regex.rep (digit u) least most).AtLeast u.isDigit (least * 1) := .rep one
  rwa [Nat.mul_one] at all

theorem atLeast_chr (c : Char) : (chr c).AtLeast (· == c) 1 := .set fun _ same => same

/-- Every match has a digit, but those of addresses: these have an `@`, or two colons. -/
theorem marked_patterns : ∀ re ∈ PATTERNS u, ∃ p n, re.AtLeast p n ∧
    ∀ tag ∈ TAGS, (placeholder tag).text.countP p < n := by
  have marks : ∀ {re : Regex} {p : Char → Bool} {m n : Nat}, re.AtLeast p m → n ≤ m →
      (∀ tag ∈ TAGS, (placeholder tag).text.countP p < n) → ∃ p n,
        re.AtLeast p n ∧ ∀ tag ∈ TAGS, (placeholder tag).text.countP p < n :=
    fun least enough few => ⟨_, _, .fewer least enough, few⟩
  have few : ∀ tag ∈ TAGS, (placeholder tag).text.countP u.isDigit < 1 := fun tag mem => by
    rw [countP_digit_placeholder u mem]
    exact Nat.zero_lt_one
  intro re mem
  simp only [PATTERNS, List.mem_cons, List.not_mem_nil, or_false] at mem
  rcases mem with rfl | rfl | rfl | rfl | rfl | rfl | rfl | rfl
  · exact marks (.seq .any (.seq .any (.seq .any (atLeast_digits u 9 9)))) (by decide) few
  · exact marks (n := 1) (.seq .any (.seq (atLeast_chr '@') .any)) (by decide) (by decide)
  · exact marks (.seq .any (.seq (atLeast_digits u 5 5) .any)) (by decide) few
  · exact marks (atLeast_digits u 13 19) (by decide) few
  · exact marks (.seq .any (.seq (.rep (.seq (atLeast_digits u 1 3) .any)) .any)) (by decide) few
  · exact marks (.seq .any (.seq .any (.seq (atLeast_digits u 8 8) .any))) (by decide) few
  · have colons : ipv6Pattern.AtLeast (· == ':') 2 :=
      .alt (.fewer (.seq .any (.seq .any (.seq (.rep (.seq (atLeast_chr ':') .any)) .any)))
        (by decide)) (.fewer (.seq (atLeast_chr ':') (.seq (atLeast_chr ':') .any)) (by decide))
    exact ⟨_, 2, colons, by decide⟩
  · exact marks (.seq .any (.seq (atLeast_digits u 7 15) .any)) (by decide) few

theorem avoidsPlaceholders {re : Regex} (mem : re ∈ PATTERNS u) : AvoidsPlaceholders re :=
  ⟨⟨excludes_of_mem u (by decide) mem, excludes_of_mem u (by decide) mem⟩, marked_patterns u re mem⟩

end Patterns

/-! ### Edges -/

section Edges

variable {u} {re : Regex} {prev next : Option Char} {word : List Char}

theorem nonword_of_boundary (matched : (Regex.seq .boundary re).Matches u.isWord prev word next)
    (before : prev.any u.isWord = true) : word.head?.any u.isWord = false := by
  obtain ⟨_, v, rfl, ⟨rfl, found⟩, -⟩ := matched
  rw [List.nil_append]
  cases v with
  | nil => rfl
  | cons c v =>
      rw [headOf_cons, isBoundary, before] at found
      rw [List.head?_cons]
      cases inside : (some c).any u.isWord with
      | false => rfl
      | true => rw [inside] at found; cases found

theorem nonword_of_chr {c : Char} (other : u.isWord c = false)
    (matched : (Regex.seq (chr c) re).Matches u.isWord prev word next) :
    word.head?.any u.isWord = false := by
  obtain ⟨_, v, rfl, ⟨d, rfl, same⟩, -⟩ := matched
  obtain rfl := eq_of_beq same
  exact other

theorem nonword_after (closing : re.closes = true)
    (matched : re.Matches u.isWord prev word next) (ends : word.getLast?.any u.isWord = true) :
    next.any u.isWord = false := by
  have found := isBoundary_of_closes re closing matched
  have nonempty : word ≠ [] := by
    rintro rfl
    cases ends
  rw [lastOf_eq_getLast? prev nonempty, isBoundary, ends] at found
  cases after : next.any u.isWord with
  | false => rfl
  | true => rw [after] at found; cases found

variable (u)

/-- The patterns of the last four passes. -/
def edgePatterns : List Regex :=
  [ipv4Pattern u, passportPattern u, ipv6Pattern, intlPhonePattern u]

theorem cutsAtEdges {re : Regex} (mem : re ∈ edgePatterns u) :
    CutsAtEdges u.isWord (re.Matches u.isWord) := by
  have colon : u.isWord ':' = false := by
    rw [(u.ascii ':' (by decide)).2]
    decide
  have plus : u.isWord '+' = false := by
    rw [(u.ascii '+' (by decide)).2]
    decide
  simp only [edgePatterns, List.mem_cons, List.not_mem_nil, or_false] at mem
  rcases mem with rfl | rfl | rfl | rfl
  · exact ⟨fun _ _ _ matched => nonword_of_boundary matched,
      fun _ _ _ matched => nonword_after rfl matched⟩
  · exact ⟨fun _ _ _ matched => nonword_of_boundary matched,
      fun _ _ _ matched => nonword_after rfl matched⟩
  · exact ⟨fun _ _ _ matched before => matched.elim (fun left => nonword_of_boundary left before)
      (nonword_of_chr colon), fun _ _ _ matched => nonword_after rfl matched⟩
  · exact ⟨fun _ _ _ matched _ => nonword_of_chr plus matched,
      fun _ _ _ matched => nonword_after rfl matched⟩

end Edges

/-! ### After the passes -/

/-- The pattern matches nowhere in the text. -/
def NoMatch (re : Regex) (text : List Char) : Prop :=
  ∀ pre word post, text = pre ++ (word ++ post) →
    ¬ re.Matches u.isWord (lastOf none pre) word post.head?

section Passes

variable {u} {re : Regex} {tag : String} {text : List Char}

/-- A pass replaces all matches of its pattern. -/
theorem noMatch_replaceAll (pattern : re ∈ PATTERNS u) (tagged : tag ∈ TAGS)
    (edges : re.boundaryFree = true ∨ re ∈ edgePatterns u) :
    NoMatch u re (re.replaceAll u.isWord (fun _ => (placeholder tag).text) text) := by
  have avoids := avoidsPlaceholders u pattern
  have edits : Edits (fun prev text => ∀ n, re.matchLength u.isWord prev text ≠ some (n + 1))
      (re.Matches u.isWord) (placeholder tag) none text
      (re.replaceAll u.isWord (fun _ => (placeholder tag).text) text) :=
    edits_replaceAll (fun _ _ none => none) (fun _ _ _ _ matched => .inl ⟨rfl, matched⟩) text
  intro pre word post whole matched
  obtain ⟨pre', post', -, kept, before⟩ := edits.matches_before (outside_brackets u)
    (edges.imp id (cutsAtEdges u)) whole matched (avoids.nonempty matched)
    (avoids.brackets matched) (avoids.not_inside matched tagged)
  cases found : re.matchLength u.isWord (lastOf none pre') (word ++ post') with
  | none => exact matchLength_eq_none.mp found word post' rfl before
  | some n =>
      cases n with
      | zero =>
          have empty := (matches_of_matchLength found).2
          exact avoids.nonempty empty (List.take_zero)
      | succ n => exact kept n found

/-- What a pass does to a text. -/
theorem edits_redactPass (u : CharClasses) (text : List Char) (idx : Nat) :
    redactPass u text idx = text ∨ ∃ re tag, (PATTERNS u)[idx]? = some re ∧
      tag ∈ TAGS ∧ (4 ≤ idx → re ∈ edgePatterns u) ∧ Edits (fun _ _ => True) (re.Matches u.isWord)
        (placeholder tag) none text (redactPass u text idx) := by
  unfold redactPass
  cases pattern : (PATTERNS u)[idx]? with
  | none => exact .inl rfl
  | some re =>
      cases tagged : TAGS[idx]? with
      | none => exact .inl rfl
      | some tag =>
          refine .inr ⟨re, tag, rfl, List.mem_of_getElem? tagged, ?_, ?_⟩
          · intro late
            obtain ⟨k, rfl⟩ := Nat.exists_eq_add_of_le' late
            have later : (edgePatterns u)[k]? = some re := pattern
            exact List.mem_of_getElem? later
          · split_ifs
            · refine edits_replaceAll (fun _ _ _ => trivial) (fun _ word _ _ matched => ?_) text
              split_ifs
              · exact .inl ⟨rfl, matched⟩
              · exact .inr ⟨rfl, fun _ _ => trivial⟩
            · exact edits_replaceAll (fun _ _ _ => trivial)
                (fun _ _ _ _ matched => .inl ⟨rfl, matched⟩) text

/-- What a pattern does not match before a pass it does not match after it. -/
theorem NoMatch.afterPass (none : NoMatch u re text) (pattern : re ∈ PATTERNS u) {idx : Nat}
    (edges : re.boundaryFree = true ∨ 4 ≤ idx) : NoMatch u re (redactPass u text idx) := by
  rcases edits_redactPass u text idx with same | ⟨re', tag, -, tagged, late, edits⟩
  · rwa [same]
  have avoids := avoidsPlaceholders u pattern
  intro pre word post whole matched
  obtain ⟨pre', post', split, -, before⟩ := edits.matches_before (outside_brackets u)
    (edges.imp id fun le => cutsAtEdges u (late le)) whole matched (avoids.nonempty matched)
    (avoids.brackets matched) (avoids.not_inside matched tagged)
  exact none pre' word post' split before

theorem NoMatch.afterPasses {passes : List Nat} (none : NoMatch u re text) (pattern : re ∈ PATTERNS u)
    (edges : re.boundaryFree = true ∨ ∀ idx ∈ passes, 4 ≤ idx) :
    NoMatch u re (passes.foldl (redactPass u) text) := by
  induction passes generalizing text with
  | nil => exact none
  | cons idx passes ih =>
      refine ih (none.afterPass pattern (edges.imp id fun all => all idx List.mem_cons_self)) ?_
      exact edges.imp id fun all i mem => all i (List.mem_cons_of_mem _ mem)

/-- A pass whose pattern does not match changes nothing. -/
theorem redactPass_of_noMatch {idx : Nat}
    (none : ∀ re, (PATTERNS u)[idx]? = some re → NoMatch u re text) :
    redactPass u text idx = text := by
  rcases edits_redactPass u text idx with same | ⟨re, tag, pattern, -, -, edits⟩
  · exact same
  rcases edits.eq_or_cut with same | ⟨pre, word, post, split, matched⟩
  · exact same
  · exact absurd matched (none re pattern pre word post split)

/-- Passes that each leave the text leave it together. -/
theorem redactPasses_of_idle {passes : List Nat}
    (idle : ∀ idx ∈ passes, redactPass u text idx = text) :
    passes.foldl (redactPass u) text = text := by
  induction passes with
  | nil => rfl
  | cons idx passes ih =>
      obtain ⟨first, rest⟩ := List.forall_mem_cons.mp idle
      rw [List.foldl_cons, first, ih rest]

variable (u) in
/-- The passes over a text. -/
def redactPii (text : List Char) : List Char := ORDER.foldl (redactPass u) text

/-- A pattern whose pass has been made matches nothing after the passes that follow. -/
theorem noMatch_of_order {idx : Nat} (before after : List Nat)
    (order : ORDER = before ++ idx :: after) (other : idx ≠ 3) {re : Regex} {tag : String}
    (pattern : (PATTERNS u)[idx]? = some re) (tagged : TAGS[idx]? = some tag)
    (edges : re.boundaryFree = true ∨ re ∈ edgePatterns u ∧ ∀ i ∈ after, 4 ≤ i)
    (text : List Char) : NoMatch u re (redactPii u text) := by
  have mem := List.mem_of_getElem? pattern
  unfold redactPii
  rw [order, List.foldl_append, List.foldl_cons]
  refine NoMatch.afterPasses ?_ mem (edges.imp id And.right)
  have pass : ∀ out, redactPass u out idx =
      re.replaceAll u.isWord (fun _ => (placeholder tag).text) out := fun out => by
    unfold redactPass
    rw [pattern, tagged]
    exact if_neg other
  rw [pass]
  exact noMatch_replaceAll mem (List.mem_of_getElem? tagged) (edges.imp id And.left)

/-- After the passes no pattern matches but that of bank cards. -/
theorem noMatch_redactPii (text : List Char) {idx : Nat} (other : idx ≠ 3) {re : Regex}
    (pattern : (PATTERNS u)[idx]? = some re) : NoMatch u re (redactPii u text) := by
  have bounded : idx < 8 := (List.getElem?_eq_some_iff.mp pattern).1
  have late : ∀ i ∈ [5, 6, 7], 4 ≤ i := by decide
  interval_cases idx
  · obtain rfl := Option.some.inj pattern
    exact noMatch_of_order [2, 3] [1, 4, 5, 6, 7] rfl other pattern rfl (.inl rfl) text
  · obtain rfl := Option.some.inj pattern
    exact noMatch_of_order [2, 3, 0] [4, 5, 6, 7] rfl other pattern rfl (.inl rfl) text
  · obtain rfl := Option.some.inj pattern
    exact noMatch_of_order [] [3, 0, 1, 4, 5, 6, 7] rfl other pattern rfl (.inl rfl) text
  · exact absurd rfl other
  · obtain rfl := Option.some.inj pattern
    exact noMatch_of_order [2, 3, 0, 1] [5, 6, 7] rfl other pattern rfl
      (.inr ⟨List.mem_cons_self, by decide⟩) text
  · obtain rfl := Option.some.inj pattern
    exact noMatch_of_order [2, 3, 0, 1, 4] [6, 7] rfl other pattern rfl
      (.inr ⟨by simp [edgePatterns], by decide⟩) text
  · obtain rfl := Option.some.inj pattern
    exact noMatch_of_order [2, 3, 0, 1, 4, 5] [7] rfl other pattern rfl
      (.inr ⟨by simp [edgePatterns], by decide⟩) text
  · obtain rfl := Option.some.inj pattern
    exact noMatch_of_order [2, 3, 0, 1, 4, 5, 6] [] rfl other pattern rfl
      (.inr ⟨by simp [edgePatterns], by decide⟩) text

/-! ### The second time -/

/-- A pass takes no digit in. -/
theorem countP_digit_redactPass (text : List Char) (idx : Nat) :
    (redactPass u text idx).countP u.isDigit ≤ text.countP u.isDigit := by
  rcases edits_redactPass u text idx with same | ⟨re, tag, -, tagged, -, edits⟩
  · rw [same]
  · exact edits.countP_le (countP_digit_placeholder u tagged)

theorem countP_digit_redactPasses (passes : List Nat) (text : List Char) :
    (passes.foldl (redactPass u) text).countP u.isDigit ≤ text.countP u.isDigit := by
  induction passes generalizing text with
  | nil => exact Nat.le_refl _
  | cons idx passes ih => exact (ih _).trans (countP_digit_redactPass text idx)

/-- The pass of a pattern with digits changes a text only by taking digits out of it. -/
theorem redactPass_eq_or_lt {idx : Nat} (pattern : (PATTERNS u)[idx]? = some re)
    (digits : re.AtLeast u.isDigit 1) (text : List Char) : redactPass u text idx = text ∨
      (redactPass u text idx).countP u.isDigit < text.countP u.isDigit := by
  rcases edits_redactPass u text idx with same | ⟨re', tag, pattern', tagged, -, edits⟩
  · exact .inl same
  obtain rfl : re = re' := Option.some.inj (pattern.symm.trans pattern')
  exact edits.eq_or_countP_lt (countP_digit_placeholder u tagged) fun _ _ _ => digits.sound

theorem bankcard_pass_eq_or_lt (text : List Char) : redactPass u text 3 = text ∨
    (redactPass u text 3).countP u.isDigit < text.countP u.isDigit :=
  redactPass_eq_or_lt rfl (.fewer (atLeast_digits u 13 19) (by decide)) text

theorem redactPii_eq (text : List Char) : redactPii u text =
    [0, 1, 4, 5, 6, 7].foldl (redactPass u) (redactPass u (redactPass u text 2) 3) := by
  unfold redactPii ORDER
  rw [List.foldl_cons, List.foldl_cons]

/-- What the passes leave is changed by them exactly if the bank card pass changes it. -/
theorem redactPii_redactPii_iff (text : List Char) :
    redactPii u (redactPii u text) = redactPii u text ↔
      redactPass u (redactPii u text) 3 = redactPii u text := by
  have silent : ∀ idx, idx ≠ 3 → ∀ re, (PATTERNS u)[idx]? = some re →
      NoMatch u re (redactPii u text) := fun _ other _ => noMatch_redactPii text other
  generalize redactPii u text = out at silent ⊢
  have idle : ∀ idx, idx ≠ 3 → redactPass u out idx = out := fun idx other =>
    redactPass_of_noMatch fun re pattern => silent idx other re pattern
  have first : redactPii u out = [0, 1, 4, 5, 6, 7].foldl (redactPass u) (redactPass u out 3) := by
    rw [redactPii_eq, idle 2 (by decide)]
  constructor
  · intro same
    rcases bankcard_pass_eq_or_lt (u := u) out with left | less
    · exact left
    · have count := countP_digit_redactPasses (u := u) [0, 1, 4, 5, 6, 7] (redactPass u out 3)
      rw [← first, same] at count
      omega
  · intro same
    have others : ∀ idx ∈ [0, 1, 4, 5, 6, 7], idx ≠ 3 := by decide
    rw [first, same]
    exact redactPasses_of_idle fun idx mem => idle idx (others idx mem)

end Passes

end FusionMemory
