import FusionMemory.Engine.RedactParts

/-!
Whether a redacted text is redacted again (`redact_text` of `fm-engine/src/redact.rs`).

The last four passes cut no run of digits in two, and of the runs that hold card numbers they take
only international phone numbers (`looseCard_redactPass`). So what is left between the numbers and
the e-mail addresses of a text decides whether the bank card pass finds a number the second time.
-/

namespace FusionMemory

open Lib Regex

variable (u : CharClasses)

/-! ### Digits in the matches of the last passes -/

section Matches

theorem mem_patterns_of_edge {re : Regex} (edge : re ∈ edgePatterns u) : re ∈ PATTERNS u := by
  have drop : edgePatterns u = (PATTERNS u).drop 4 := rfl
  exact List.mem_of_mem_drop (drop ▸ edge)

theorem isWord_of_isHex {c : Char} (hex : isHex c = true) : u.isWord c = true := by
  simp only [isHex, inRange, Bool.or_eq_true, Bool.and_eq_true, decide_eq_true_eq, Char.le_def,
    UInt32.le_iff_toNat_le] at hex
  change ((48 ≤ c.toNat ∧ c.toNat ≤ 57) ∨ (97 ≤ c.toNat ∧ c.toNat ≤ 102)) ∨
    (65 ≤ c.toNat ∧ c.toNat ≤ 70) at hex
  have alphanum : c.isAlphanum = true := by
    delta Char.isAlphanum Char.isAlpha Char.isUpper Char.isLower Char.isDigit
    simp only [Bool.or_eq_true, Bool.and_eq_true, decide_eq_true_eq, ge_iff_le,
      UInt32.le_iff_toNat_le]
    change ((65 ≤ c.toNat ∧ c.toNat ≤ 90) ∨ (97 ≤ c.toNat ∧ c.toNat ≤ 122)) ∨
      (48 ≤ c.toNat ∧ c.toNat ≤ 57)
    omega
  rw [(u.ascii c (by omega)).2, alphanum, Bool.true_or]

theorem tailIn_edgePatterns : ∀ re ∈ edgePatterns u, re.TailIn u.isWord := by
  have digits : ∀ least most, (Regex.rep (digit u) least most).TailIn u.isWord :=
    fun _ _ => .rep (.set u.word_of_digit)
  have hex : hexGroup.TailIn u.isWord := .rep (.set fun _ => isWord_of_isHex u)
  have someHex : hexGroup.AtLeast (fun _ => true) 1 :=
    .fewer (.rep (.set fun _ _ => rfl)) (Nat.le_refl 1)
  have next : nextHexGroup.TailIn u.isWord := .last someHex hex
  intro re mem
  simp only [edgePatterns, List.mem_cons, List.not_mem_nil, or_false] at mem
  rcases mem with rfl | rfl | rfl | rfl
  · have some : (Regex.seq (.rep (digit u) 1 3) .boundary).AtLeast (fun _ => true) 1 :=
      .fewer (.seq (.rep (.set fun _ _ => rfl)) .any) (Nat.le_refl 1)
    exact .seq .boundary (.last some (.seq (digits 1 3) .boundary))
  · have some : (Regex.seq (.rep (digit u) 8 8) .boundary).AtLeast (fun _ => true) 1 :=
      .fewer (.seq (.rep (.set fun _ _ => rfl)) .any) (by decide)
    exact .seq .boundary (.last some (.seq (digits 8 8) .boundary))
  · have some : ∀ {re}, (Regex.seq hexGroup re).AtLeast (fun _ => true) 1 :=
      .fewer (.seq someHex .any) (Nat.le_refl 1)
    exact .alt (.seq .boundary (.seq hex (.seq (.rep next) .boundary)))
      (.last (.fewer (.seq .any some) (Nat.le_refl 1)) (.last some
        (.seq hex (.seq (.rep next) .boundary))))
  · have some : (Regex.seq (.rep (digit u) 7 15) .boundary).AtLeast (fun _ => true) 1 :=
      .fewer (.seq (.rep (.set fun _ _ => rfl)) .any) (by decide)
    exact .last some (.seq (digits 7 15) .boundary)

variable {u} {re : Regex} {prev next : Option Char} {word : List Char}

theorem getLast?_isWord (edge : re ∈ edgePatterns u)
    (matched : re.Matches u.isWord prev word next) : word.getLast?.any u.isWord = true := by
  have some := (avoidsPlaceholders u (mem_patterns_of_edge u edge)).nonempty matched
  rw [List.getLast?_eq_some_getLast some, Option.any_some]
  exact (tailIn_edgePatterns u re edge).sound matched _ (List.getLast?_eq_some_getLast some)

theorem blocks_hexGroups {n : Nat} : ∀ {prev next word},
    Times (nextHexGroup.Matches u.isWord) n prev word next →
      Blocks ':' 4 word ∧ (word = [] ∨ word.head? = some ':') := by
  induction n with
  | zero =>
      rintro prev next _ rfl
      exact ⟨blocks_nil, .inl rfl⟩
  | succ n ih =>
      rintro prev next _ ⟨_, rest, rfl, ⟨_, group, rfl, ⟨c, rfl, colon⟩, hex⟩, times⟩
      obtain rfl := eq_of_beq colon
      obtain ⟨blocks, starts⟩ := ih times
      exact ⟨(blocks.append (matches_rep_set.mp hex).2.1 starts).cons, .inr rfl⟩

/-- The groups of an address have four digits at most. -/
theorem blocks_ipv6 (matched : ipv6Pattern.Matches u.isWord prev word next) :
    Blocks ':' 4 word := by
  rcases matched with ⟨_, _, rfl, ⟨rfl, -⟩, group, _, rfl, hex, rest, _, rfl, ⟨n, -, -, times⟩, rfl, -⟩ |
    ⟨_, _, rfl, ⟨c, rfl, colon⟩, _, _, rfl, ⟨d, rfl, colon'⟩, group, _, rfl, hex, rest, _, rfl,
      ⟨n, -, -, times⟩, rfl, -⟩
  · obtain ⟨blocks, starts⟩ := blocks_hexGroups times
    rw [List.nil_append, List.append_nil]
    exact blocks.append (matches_rep_set.mp hex).2.1 starts
  · obtain rfl := eq_of_beq colon
    obtain rfl := eq_of_beq colon'
    obtain ⟨blocks, starts⟩ := blocks_hexGroups times
    rw [List.append_nil]
    exact (blocks.append (matches_rep_set.mp hex).2.1 starts).cons.cons

/-- A run of digits that could be a card number lies in a match only as an international phone
number. -/
theorem international_of_inside (edge : re ∈ edgePatterns u) {pre a run b : List Char}
    (matched : re.Matches u.isWord (lastOf prev pre) (a ++ (run ++ b)) next)
    (isRun : DigitRun u (lastOf prev (pre ++ a)) run (headOf b next)) (long : 13 ≤ run.length) :
    International u (lastOf prev (pre ++ a)) run (headOf b next) := by
  have count : run.length ≤ (a ++ (run ++ b)).countP u.isDigit := by
    rw [List.countP_append, List.countP_append, List.countP_eq_length.mpr isRun.digits]
    omega
  have digit1 : (digit u).AtMost u.isDigit 1 := .set
  have after := nonword_after (by
    simp only [edgePatterns, List.mem_cons, List.not_mem_nil, or_false] at edge
    rcases edge with rfl | rfl | rfl | rfl <;> rfl) matched (getLast?_isWord edge matched)
  simp only [edgePatterns, List.mem_cons, List.not_mem_nil, or_false] at edge
  rcases edge with rfl | rfl | rfl | rfl
  · have dot : (chr '.').AtMost u.isDigit 0 := .none fun c same => by
      rw [eq_of_beq same, isDigit_of_ascii u (by decide)]
      decide
    have few : (a ++ (run ++ b)).countP u.isDigit ≤ 12 :=
      AtMost.sound (.seq .boundary (.seq (.rep (.seq (.rep digit1) dot))
        (.seq (.rep digit1) .boundary))) matched
    omega
  · have few : (a ++ (run ++ b)).countP u.isDigit ≤ 9 :=
      AtMost.sound (.seq .boundary (.seq .set (.seq (.rep digit1) .boundary))) matched
    omega
  · have colon : ':' ∉ run := fun mem => by
      have isDigit := isRun.digits ':' mem
      rw [isDigit_of_ascii u (by decide)] at isDigit
      cases isDigit
    have short := blocks_ipv6 matched a run b rfl colon
    omega
  · obtain ⟨_, _, split, ⟨c, rfl, plus⟩, digits, _, rfl, isRep, rfl, -⟩ := matched
    obtain rfl := eq_of_beq plus
    obtain ⟨-, bounded, all⟩ := matches_rep_set.mp isRep
    rw [List.append_nil, List.singleton_append] at split
    cases a with
    | nil =>
        obtain ⟨d, rest, rfl⟩ := List.exists_cons_of_ne_nil isRun.nonempty
        obtain ⟨rfl, -⟩ := List.cons.inj split
        have isDigit := isRun.digits _ List.mem_cons_self
        rw [isDigit_of_ascii u (by decide)] at isDigit
        cases isDigit
    | cons d a =>
        rw [List.cons_append] at split
        obtain ⟨rfl, rfl⟩ := List.cons.inj split
        rw [List.length_append, List.length_append] at bounded
        have noneBefore : a = [] := by
          by_contra some
          have last := isRun.before
          rw [lastOf_append, lastOf_cons, lastOf_eq_getLast? _ some,
            List.getLast?_eq_some_getLast some, Option.any_some] at last
          exact absurd ((all _ (List.mem_append_left _ (List.getLast_mem some))).symm.trans last)
            (by decide)
        have noneAfter : b = [] := by
          cases b with
          | nil => rfl
          | cons e b =>
              have head := isRun.after
              have isDigit := all e (List.mem_append_right _
                (List.mem_append_right _ List.mem_cons_self))
              exact absurd (isDigit.symm.trans head) (by decide)
        subst noneBefore noneAfter
        exact ⟨by rw [lastOf_append]; rfl, by omega, after⟩

end Matches

/-! ### The last passes -/

section Passes

variable {u} {re : Regex} {tag : String} {text out : List Char} {idx : Nat}

theorem DigitRun.plain {prev next : Option Char} {run : List Char}
    (isRun : DigitRun u prev run next) : '[' ∉ run ∧ ']' ∉ run := by
  have nonword := outside_brackets u
  exact ⟨fun mem => absurd ((isRun.isWord _ mem).symm.trans nonword.1) (by decide),
    fun mem => absurd ((isRun.isWord _ mem).symm.trans nonword.2) (by decide)⟩

theorem DigitRun.head_isWord {prev next : Option Char} {run : List Char}
    (isRun : DigitRun u prev run next) : run.head?.any u.isWord = true := by
  rw [List.head?_eq_some_head isRun.nonempty]
  exact isRun.isWord _ (List.head_mem isRun.nonempty)

theorem DigitRun.last_isWord {prev next : Option Char} {pre run : List Char}
    (isRun : DigitRun u prev run next) : (lastOf none (pre ++ run)).any u.isWord = true := by
  rw [lastOf_append, lastOf_eq_getLast? _ isRun.nonempty,
    List.getLast?_eq_some_getLast isRun.nonempty]
  exact isRun.isWord _ (List.getLast_mem isRun.nonempty)

theorem looseCard_before (edge : re ∈ edgePatterns u) (tagged : tag ∈ TAGS)
    (edits : Edits (fun _ _ => True) (re.Matches u.isWord) (placeholder tag) none text out)
    (card : LooseCard u out) : LooseCard u text := by
  obtain ⟨pre, run, post, whole, isRun, holds, loose⟩ := card
  have edges := cutsAtEdges u edge
  rcases edits.occurrence isRun.nonempty isRun.plain.1 isRun.plain.2 whole (.inl rfl) with
    ⟨x, y, inside⟩ | ⟨pre', post', rfl, -, before, after⟩
  · have none := countP_digit_placeholder u tagged
    rw [inside, List.countP_append, List.countP_append,
      List.countP_eq_length.mpr isRun.digits] at none
    have some := List.length_pos_iff.mpr isRun.nonempty
    omega
  · have same := edges.same_before (fun _ _ _ => getLast?_isWord edge) before isRun.head_isWord
    refine looseCard_of_context isRun holds loose (fun _ last _ => same.trans last) fun p sub => ?_
    exact (edges.head_any after (outside_brackets u).1 isRun.last_isWord sub).symm

theorem looseCard_after (edge : re ∈ edgePatterns u)
    (edits : Edits (fun _ _ => True) (re.Matches u.isWord) (placeholder tag) none text out)
    (card : LooseCard u text) : LooseCard u out := by
  obtain ⟨pre, run, post, whole, isRun, holds, loose⟩ := card
  have edges := cutsAtEdges u edge
  have apart : Apart (re.Matches u.isWord) none text pre run := by
    intro x cutWord y split matched
    have some := (avoidsPlaceholders u (mem_patterns_of_edge u edge)).nonempty matched
    rcases edges.apart_or_inside (whole.symm.trans split) some isRun.isWord matched with
      apart | ⟨a, b, rfl, rfl, rfl⟩
    · exact apart
    · rw [← headOf_head?] at isRun loose
      exact absurd (international_of_inside edge matched isRun (holdsCard_long holds)) loose
  obtain ⟨pre', post', rfl, before, after⟩ :=
    edits.stays isRun.nonempty whole apart (.inl rfl)
  have same := edges.same_before (fun _ _ _ => getLast?_isWord edge) before isRun.head_isWord
  refine looseCard_of_context isRun holds loose (fun _ last _ => same.symm.trans last) fun p sub => ?_
  exact edges.head_any after (outside_brackets u).1 isRun.last_isWord sub

/-- The last passes neither make nor take loose card numbers. -/
theorem looseCard_redactPass (late : 4 ≤ idx) :
    LooseCard u (redactPass u text idx) ↔ LooseCard u text := by
  rcases edits_redactPass u text idx with same | ⟨re, tag, -, tagged, edge, edits⟩
  · rw [same]
  · exact ⟨looseCard_before (edge late) tagged edits, looseCard_after (edge late) edits⟩

theorem looseCard_redactPasses {passes : List Nat} (late : ∀ idx ∈ passes, 4 ≤ idx) :
    LooseCard u (passes.foldl (redactPass u) text) ↔ LooseCard u text := by
  induction passes generalizing text with
  | nil => exact Iff.rfl
  | cons idx passes ih =>
      obtain ⟨first, later⟩ := List.forall_mem_cons.mp late
      exact (ih later).trans (looseCard_redactPass first)

/-- Where the pattern for international phone numbers has been replaced, every card number is
loose. -/
theorem hasRun_holdsCard_iff (none : NoMatch u (intlPhonePattern u) text) :
    (HasRun u text fun _ run _ => HoldsCard u run) ↔ LooseCard u text := by
  constructor
  · rintro ⟨pre, run, post, rfl, isRun, holds⟩
    refine ⟨pre, run, post, rfl, isRun, holds, ?_⟩
    rintro ⟨plus, short, after⟩
    have long := holdsCard_long holds
    rcases List.eq_nil_or_concat pre with rfl | ⟨pre, d, rfl⟩
    · cases plus
    · rw [List.concat_eq_append] at *
      have last : (lastOf Option.none ((pre ++ [d]) ++ run)).any u.isWord = true :=
        isRun.last_isWord
      rw [lastOf_append] at plus
      obtain rfl := Option.some.inj plus
      rw [lastOf_append, lastOf_append] at last
      refine none pre ('+' :: run) post (by rw [List.append_assoc]; rfl) ⟨['+'], run, rfl,
        ⟨'+', rfl, rfl⟩, run, [], (List.append_nil run).symm,
        matches_rep_set.mpr ⟨by omega, by omega, isRun.digits⟩, rfl, ?_⟩
      rw [isBoundary, last, after]
      rfl
  · rintro ⟨pre, run, post, split, isRun, holds, -⟩
    exact ⟨pre, run, post, split, isRun, holds⟩

end Passes

/-! ### Twice -/

section Twice

/-- The redaction of credentials by the other crate: it leaves a text without credentials alone. -/
structure CredentialStage where
  redact : String → String
  HasCredential : String → Prop
  identity : ∀ text, ¬ HasCredential text → redact text = text

variable {u}

/-- The text is returned early only where the passes would not change it. -/
theorem redactText_eq (redactCredentials : String → String) (input : String) :
    redactText u redactCredentials input =
      String.ofList (redactPii u (redactCredentials input).toList) := by
  unfold redactText
  dsimp only
  split_ifs with none
  · have noMatch : ∀ re ∈ PATTERNS u, NoMatch u re (redactCredentials input).toList :=
      fun re mem => not_matches_of_isMatch (Bool.eq_false_iff.mpr fun found =>
        absurd (List.any_eq_true.mpr ⟨re, mem, found⟩) (Bool.eq_false_iff.mp none))
    generalize text : (redactCredentials input).toList = chars at noMatch
    have idle : ∀ idx, redactPass u chars idx = chars := fun idx =>
      redactPass_of_noMatch fun re pattern => noMatch re (List.mem_of_getElem? pattern)
    rw [redactPii, redactPasses_of_idle fun idx _ => idle idx, ← text, String.ofList_toList]
  · rfl

theorem hasRun_redactPii_iff (text : List Char) :
    (HasRun u (redactPii u text) fun _ run _ => HoldsCard u run) ↔
      LooseCard u (firstPasses u text) := by
  have other : (7 : Nat) ≠ 3 := by decide
  have split : redactPii u text = [4, 5, 6, 7].foldl (redactPass u) (firstPasses u text) := by
    rw [firstPasses, ← List.foldl_append]
    rfl
  rw [hasRun_holdsCard_iff (noMatch_redactPii text other rfl)]
  rw [split]
  exact looseCard_redactPasses (by decide)

/-- A text is redacted once and for all exactly if between its numbers and e-mail addresses no card
number is left, but as an international phone number. -/
theorem redactText_idempotent_iff (stage : CredentialStage) (input : String)
    (clean : ¬ stage.HasCredential (redactText u stage.redact input)) :
    redactText u stage.redact (redactText u stage.redact input) =
      redactText u stage.redact input ↔
        ∀ part ∈ leftParts u (stage.redact input).toList, ¬ LooseCard u part := by
  rw [redactText_eq stage.redact (redactText u stage.redact input), stage.identity _ clean,
    redactText_eq stage.redact input, String.toList_ofList, String.ofList_inj,
    redactPii_redactPii_iff, bankcard_fixed_iff, hasRun_redactPii_iff, looseCard_firstPasses_iff]
  push Not
  rfl

/-- No credentials, as in texts of words and numbers. -/
def noCredentials : CredentialStage where
  redact := id
  HasCredential _ := False
  identity _ _ := rfl

theorem redactText_idempotent_phone :
    (redactText .ofAscii noCredentials.redact
        (redactText .ofAscii noCredentials.redact "call 13912345678") =
      redactText .ofAscii noCredentials.redact "call 13912345678") ∧
      ∀ part ∈ leftParts .ofAscii "call 13912345678".toList, ¬ LooseCard .ofAscii part := by
  have twice : redactText .ofAscii noCredentials.redact
      (redactText .ofAscii noCredentials.redact "call 13912345678") =
        redactText .ofAscii noCredentials.redact "call 13912345678" := by decide +kernel
  exact ⟨twice, (redactText_idempotent_iff noCredentials "call 13912345678" id).mp twice⟩

/-- The phone pass takes the second half of a run of digits, and leaves a card number. -/
theorem redactText_twice_card : ¬ ∀ input : String,
    redactText .ofAscii noCredentials.redact (redactText .ofAscii noCredentials.redact input) =
      redactText .ofAscii noCredentials.redact input := by
  intro always
  exact absurd (always "422222222222213912345678") (by decide +kernel)

end Twice

end FusionMemory
