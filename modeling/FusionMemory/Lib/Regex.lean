import Mathlib.Data.List.Basic

/-!
Regular expressions over characters, with word boundaries, matched as a backtracking engine does.

`Regex.ends` lists the places where a match may end, the preferred one first; `Regex.Matches` says
which words match between two neighbouring characters. They agree (`mem_ends`), so what is proved
of `Matches` holds of the engine. `replaceAll` replaces the matches from left to right.
-/

namespace Lib

/-- What a regex engine takes from Unicode; of it only ASCII is fixed, and that digits are word
characters. -/
structure CharClasses where
  isDigit : Char → Bool
  isWord : Char → Bool
  word_of_digit : ∀ c, isDigit c = true → isWord c = true
  ascii : ∀ c : Char, c.toNat < 128 →
    isDigit c = c.isDigit ∧ isWord c = (c.isAlphanum || c == '_')

/-- The classes of ASCII alone. -/
def CharClasses.ofAscii : CharClasses where
  isDigit := Char.isDigit
  isWord c := c.isAlphanum || c == '_'
  word_of_digit c digit := by
    unfold Char.isAlphanum
    rw [digit, Bool.or_true, Bool.true_or]
  ascii _ _ := ⟨rfl, rfl⟩

/-- Expressions: a class of characters, a word boundary, and what is built of them. -/
inductive Regex where
  | set (p : Char → Bool)
  | boundary
  | seq (a b : Regex)
  | alt (a b : Regex)
  /-- As many as possible, up to `most`. -/
  | rep (a : Regex) (least most : Nat)
  /-- As many characters of the class as possible. -/
  | star (p : Char → Bool)

namespace Regex

variable (isWord : Char → Bool)

/-! ### The engine -/

/-- A place in a text: the character before it, and what comes after it. -/
abbrev Place := Option Char × List Char

def isBoundary (prev next : Option Char) : Bool := prev.any isWord != next.any isWord

def exactly (f : Place → List Place) : Nat → Place → List Place
  | 0, place => [place]
  | n + 1, place => (f place).flatMap (exactly f n)

def upTo (f : Place → List Place) : Nat → Place → List Place
  | 0, place => [place]
  | n + 1, place => (f place).flatMap (upTo f n) ++ [place]

def starEnds (p : Char → Bool) : Option Char → List Char → List Place
  | prev, [] => [(prev, [])]
  | prev, c :: rest => (if p c then starEnds p (some c) rest else []) ++ [(prev, c :: rest)]

/-- Where a match that starts here may end, the preferred end first. -/
def ends : Regex → Place → List Place
  | .set p, (_, text) =>
      match text with
      | [] => []
      | c :: rest => if p c then [(some c, rest)] else []
  | .boundary, (prev, text) => if isBoundary isWord prev text.head? then [(prev, text)] else []
  | .seq a b, place => (ends a place).flatMap (ends b)
  | .alt a b, place => ends a place ++ ends b place
  | .rep a least most, place =>
      (exactly (ends a) least place).flatMap (upTo (ends a) (most - least))
  | .star p, (prev, text) => starEnds p prev text

/-- The length of the match that starts here. -/
def matchLength (re : Regex) (prev : Option Char) (text : List Char) : Option Nat :=
  (re.ends isWord (prev, text)).head?.map fun place => text.length - place.2.length

/-- `is_match`, from a place on. -/
def isMatchFrom (re : Regex) : Option Char → List Char → Bool
  | prev, [] => (re.matchLength isWord prev []).isSome
  | prev, c :: rest =>
      (re.matchLength isWord prev (c :: rest)).isSome || isMatchFrom re (some c) rest

def isMatch (re : Regex) (text : List Char) : Bool := re.isMatchFrom isWord none text

/-- `replace_all`, after the next `skip` characters. An empty match is left alone. -/
def replaceFrom (re : Regex) (f : List Char → List Char) :
    Nat → Option Char → List Char → List Char
  | _, _, [] => []
  | skip + 1, _, c :: rest => replaceFrom re f skip (some c) rest
  | 0, prev, c :: rest =>
      match re.matchLength isWord prev (c :: rest) with
      | some (n + 1) => f ((c :: rest).take (n + 1)) ++ replaceFrom re f n (some c) rest
      | _ => c :: replaceFrom re f 0 (some c) rest

def replaceAll (re : Regex) (f : List Char → List Char) (text : List Char) : List Char :=
  re.replaceFrom isWord f 0 none text

/-! ### Words that match -/

/-- The character before what comes after `word`. -/
def lastOf (prev : Option Char) (word : List Char) : Option Char := word.getLast?.or prev

/-- The character after what comes before `word`. -/
def headOf (word : List Char) (next : Option Char) : Option Char := word.head?.or next

/-- `n` words one after the other. -/
def Times (M : Option Char → List Char → Option Char → Prop) :
    Nat → Option Char → List Char → Option Char → Prop
  | 0, _, word, _ => word = []
  | n + 1, prev, word, next => ∃ u v, word = u ++ v ∧ M prev u (headOf v next) ∧
      Times M n (lastOf prev u) v next

/-- The word matches between the two characters. -/
def Matches : Regex → Option Char → List Char → Option Char → Prop
  | .set p, _, word, _ => ∃ c, word = [c] ∧ p c = true
  | .boundary, prev, word, next => word = [] ∧ isBoundary isWord prev next = true
  | .seq a b, prev, word, next => ∃ u v, word = u ++ v ∧ a.Matches prev u (headOf v next) ∧
      b.Matches (lastOf prev u) v next
  | .alt a b, prev, word, next => a.Matches prev word next ∨ b.Matches prev word next
  | .rep a least most, prev, word, next =>
      ∃ n, least ≤ n ∧ n ≤ max least most ∧ Times a.Matches n prev word next
  | .star p, _, word, _ => ∀ c ∈ word, p c = true

section Contexts

@[simp] theorem lastOf_nil (prev : Option Char) : lastOf prev [] = prev := rfl

@[simp] theorem headOf_nil (next : Option Char) : headOf [] next = next := rfl

@[simp] theorem headOf_cons (c : Char) (word : List Char) (next : Option Char) :
    headOf (c :: word) next = some c := rfl

theorem lastOf_cons (prev : Option Char) (c : Char) (word : List Char) :
    lastOf prev (c :: word) = lastOf (some c) word := by
  unfold lastOf
  cases word with
  | nil => rfl
  | cons d rest =>
      rw [List.getLast?_cons_cons]
      cases last : (d :: rest).getLast? with
      | none => cases List.getLast?_eq_none_iff.mp last
      | some e => rfl

theorem lastOf_append (prev : Option Char) (u v : List Char) :
    lastOf prev (u ++ v) = lastOf (lastOf prev u) v := by
  induction u generalizing prev with
  | nil => rfl
  | cons c u ih => rw [List.cons_append, lastOf_cons, ih, lastOf_cons]

theorem lastOf_eq_getLast? (prev : Option Char) {word : List Char} (some : word ≠ []) :
    lastOf prev word = word.getLast? := by
  unfold lastOf
  cases last : word.getLast? with
  | none => exact absurd (List.getLast?_eq_none_iff.mp last) some
  | some d => rfl

theorem headOf_append (u v : List Char) (next : Option Char) :
    headOf (u ++ v) next = headOf u (headOf v next) := by
  cases u with
  | nil => rfl
  | cons c u => rfl

theorem headOf_head? (word rest : List Char) : headOf word rest.head? = (word ++ rest).head? := by
  cases word with
  | nil => rfl
  | cons c word => rfl

end Contexts

/-! ### The engine finds the words that match -/

/-- The places that `f` lists are the ends of the words of `M`. -/
def Finds (f : Place → List Place) (M : Option Char → List Char → Option Char → Prop) : Prop :=
  ∀ prev text place, place ∈ f (prev, text) ↔
    ∃ word, text = word ++ place.2 ∧ place.1 = lastOf prev word ∧ M prev word place.2.head?

section Finding

variable {isWord} {f g : Place → List Place}
  {M N : Option Char → List Char → Option Char → Prop}

theorem finds_pure : Finds (fun place => [place]) fun _ word _ => word = [] := by
  intro prev text place
  rw [List.mem_singleton]
  constructor
  · rintro rfl
    exact ⟨[], rfl, rfl, rfl⟩
  · rintro ⟨word, rfl, last, rfl⟩
    exact Prod.ext last rfl

theorem Finds.seq (first : Finds f M) (second : Finds g N) :
    Finds (fun place => (f place).flatMap g) fun prev word next => ∃ u v, word = u ++ v ∧
      M prev u (headOf v next) ∧ N (lastOf prev u) v next := by
  intro prev text place
  rw [List.mem_flatMap]
  constructor
  · rintro ⟨⟨prev', rest⟩, mem, mem'⟩
    obtain ⟨u, rfl, rfl, matched⟩ := (first prev text _).mp mem
    obtain ⟨v, rfl, last, matched'⟩ := (second _ _ _).mp mem'
    refine ⟨u ++ v, (List.append_assoc u v _).symm, ?_, u, v, rfl, ?_, matched'⟩
    · rw [last, lastOf_append]
    · rw [headOf_head?]
      exact matched
  · rintro ⟨word, rfl, last, u, v, rfl, matched, matched'⟩
    refine ⟨(lastOf prev u, v ++ place.2), (first _ _ _).mpr ⟨u, ?_, rfl, ?_⟩,
      (second _ _ _).mpr ⟨v, rfl, ?_, matched'⟩⟩
    · rw [List.append_assoc]
    · rw [← headOf_head?]
      exact matched
    · rw [last, lastOf_append]

theorem Finds.alt (first : Finds f M) (second : Finds g N) :
    Finds (fun place => f place ++ g place) fun prev word next => M prev word next ∨
      N prev word next := by
  intro prev text place
  rw [List.mem_append, first, second]
  constructor
  · rintro (⟨word, split, last, matched⟩ | ⟨word, split, last, matched⟩)
    · exact ⟨word, split, last, .inl matched⟩
    · exact ⟨word, split, last, .inr matched⟩
  · rintro ⟨word, split, last, matched | matched⟩
    · exact .inl ⟨word, split, last, matched⟩
    · exact .inr ⟨word, split, last, matched⟩

theorem Finds.exactly (found : Finds f M) (n : Nat) : Finds (exactly f n) (Times M n) := by
  induction n with
  | zero => exact finds_pure
  | succ n ih => exact found.seq ih

theorem Finds.upTo (found : Finds f M) (n : Nat) :
    Finds (upTo f n) fun prev word next => ∃ k ≤ n, Times M k prev word next := by
  induction n with
  | zero =>
      intro prev text place
      refine (finds_pure prev text place).trans ?_
      constructor
      · rintro ⟨word, split, last, empty⟩
        exact ⟨word, split, last, 0, Nat.le_refl 0, empty⟩
      · rintro ⟨word, split, last, k, small, times⟩
        obtain rfl := Nat.le_zero.mp small
        exact ⟨word, split, last, times⟩
  | succ n ih =>
      intro prev text place
      refine ((found.seq ih).alt finds_pure prev text place).trans ?_
      constructor
      · rintro ⟨word, split, last, ⟨u, v, parts, first, k, small, times⟩ | empty⟩
        · exact ⟨word, split, last, k + 1, Nat.succ_le_succ small, u, v, parts, first, times⟩
        · exact ⟨word, split, last, 0, Nat.zero_le _, empty⟩
      · rintro ⟨word, split, last, k, small, times⟩
        refine ⟨word, split, last, ?_⟩
        cases k with
        | zero => exact .inr times
        | succ k =>
            obtain ⟨u, v, parts, first, rest⟩ := times
            exact .inl ⟨u, v, parts, first, k, Nat.le_of_succ_le_succ small, rest⟩

theorem times_add (m n : Nat) {prev next : Option Char} {word : List Char} :
    Times M (m + n) prev word next ↔ ∃ u v, word = u ++ v ∧ Times M m prev u (headOf v next) ∧
      Times M n (lastOf prev u) v next := by
  induction m generalizing prev word with
  | zero =>
      rw [Nat.zero_add]
      constructor
      · exact fun times => ⟨[], word, rfl, rfl, times⟩
      · rintro ⟨u, v, rfl, rfl, times⟩
        exact times
  | succ m ih =>
      rw [Nat.succ_add]
      constructor
      · rintro ⟨u, v, rfl, first, times⟩
        obtain ⟨v₁, v₂, rfl, before, after⟩ := ih.mp times
        refine ⟨u ++ v₁, v₂, (List.append_assoc _ _ _).symm, ⟨u, v₁, rfl, ?_, before⟩, ?_⟩
        · rw [← headOf_append]
          exact first
        · rw [lastOf_append]
          exact after
      · rintro ⟨_, v₂, rfl, ⟨u, v₁, rfl, first, before⟩, after⟩
        refine ⟨u, v₁ ++ v₂, List.append_assoc _ _ _, ?_, ih.mpr ⟨v₁, v₂, rfl, before, ?_⟩⟩
        · rw [headOf_append]
          exact first
        · rw [← lastOf_append]
          exact after

theorem finds_star (p : Char → Bool) :
    Finds (fun place => starEnds p place.1 place.2) fun _ word _ => ∀ c ∈ word, p c = true := by
  intro prev text place
  change place ∈ starEnds p prev text ↔ _
  induction text generalizing prev with
  | nil =>
      unfold starEnds
      rw [List.mem_singleton]
      constructor
      · rintro rfl
        exact ⟨[], rfl, rfl, fun c mem => (List.not_mem_nil mem).elim⟩
      · rintro ⟨word, split, last, -⟩
        obtain ⟨rfl, rest⟩ := List.append_eq_nil_iff.mp split.symm
        exact Prod.ext last rest
  | cons c text ih =>
      unfold starEnds
      rw [List.mem_append, List.mem_singleton]
      constructor
      · rintro (more | rfl)
        · split_ifs at more with inClass
          · obtain ⟨word, split, last, all⟩ := (ih _).mp more
            refine ⟨c :: word, by rw [split]; rfl, by rw [last, lastOf_cons], ?_⟩
            exact List.forall_mem_cons.mpr ⟨inClass, all⟩
          · cases more
        · exact ⟨[], rfl, rfl, fun c mem => (List.not_mem_nil mem).elim⟩
      · rintro ⟨word, split, last, all⟩
        cases word with
        | nil => exact .inr (Prod.ext last split.symm)
        | cons d word =>
            obtain ⟨rfl, rest⟩ := List.cons.inj split
            obtain ⟨inClass, all⟩ := List.forall_mem_cons.mp all
            rw [if_pos inClass]
            exact .inl ((ih _).mpr ⟨word, rest, by rw [last, lastOf_cons], all⟩)

end Finding

variable {isWord}

theorem finds_ends (re : Regex) : Finds (re.ends isWord) (re.Matches isWord) := by
  induction re with
  | set p =>
      intro prev text place
      unfold ends
      cases text with
      | nil =>
          constructor
          · exact fun no => (List.not_mem_nil no).elim
          · rintro ⟨word, split, -, c, rfl, -⟩
            cases split
      | cons c rest =>
          dsimp only
          constructor
          · intro mem
            split_ifs at mem with inClass
            · rw [List.mem_singleton.mp mem]
              exact ⟨[c], rfl, rfl, c, rfl, inClass⟩
            · cases mem
          · rintro ⟨word, split, last, d, rfl, inClass⟩
            obtain ⟨rfl, rfl⟩ := List.cons.inj split
            rw [if_pos inClass, List.mem_singleton]
            exact Prod.ext last rfl
  | boundary =>
      intro prev text place
      unfold ends
      constructor
      · intro mem
        split_ifs at mem with found
        · rw [List.mem_singleton.mp mem]
          exact ⟨[], rfl, rfl, rfl, found⟩
        · cases mem
      · rintro ⟨word, rfl, last, rfl, found⟩
        rw [List.nil_append, if_pos found, List.mem_singleton]
        exact Prod.ext last rfl
  | seq a b iha ihb => exact iha.seq ihb
  | alt a b iha ihb => exact iha.alt ihb
  | rep a least most ih =>
      intro prev text place
      refine ((ih.exactly least).seq (ih.upTo (most - least)) prev text place).trans ?_
      constructor
      · rintro ⟨word, split, last, u, v, parts, first, k, small, rest⟩
        exact ⟨word, split, last, least + k, Nat.le_add_right _ _, by omega,
          (times_add least k).mpr ⟨u, v, parts, first, rest⟩⟩
      · rintro ⟨word, split, last, n, enough, bounded, times⟩
        obtain ⟨k, rfl⟩ := Nat.exists_eq_add_of_le enough
        obtain ⟨u, v, parts, first, rest⟩ := (times_add least k).mp times
        exact ⟨word, split, last, u, v, parts, first, k, by omega, rest⟩
  | star p => exact finds_star p

/-- The engine finds no match here exactly if no word matches here. -/
theorem matchLength_eq_none {re : Regex} {prev : Option Char} {text : List Char} :
    re.matchLength isWord prev text = none ↔
      ∀ word rest, text = word ++ rest → ¬ re.Matches isWord prev word rest.head? := by
  unfold matchLength
  rw [Option.map_eq_none_iff, List.head?_eq_none_iff]
  constructor
  · rintro none word rest rfl matched
    have found := (finds_ends re prev (word ++ rest) (lastOf prev word, rest)).mpr
      ⟨word, rfl, rfl, matched⟩
    rw [none] at found
    cases found
  · intro never
    cases places : re.ends isWord (prev, text) with
    | nil => rfl
    | cons place more =>
        obtain ⟨word, split, -, matched⟩ := (finds_ends re prev text place).mp
          (places ▸ List.mem_cons_self)
        exact absurd matched (never word place.2 split)

/-- The match that the engine prefers. -/
theorem matches_of_matchLength {re : Regex} {prev : Option Char} {text : List Char} {n : Nat}
    (found : re.matchLength isWord prev text = some n) :
    n ≤ text.length ∧ re.Matches isWord prev (text.take n) (text.drop n).head? := by
  unfold matchLength at found
  obtain ⟨place, head, rfl⟩ := Option.map_eq_some_iff.mp found
  obtain ⟨word, rfl, -, matched⟩ := (finds_ends re prev text place).mp (List.mem_of_head? head)
  rw [List.length_append, Nat.add_sub_cancel]
  refine ⟨Nat.le_add_right _ _, ?_⟩
  rw [List.take_left, List.drop_left]
  exact matched

/-- A text in which the engine finds no match has none. -/
theorem not_matches_of_isMatch {re : Regex} {text : List Char} :
    ∀ {prev : Option Char}, re.isMatchFrom isWord prev text = false →
      ∀ pre word post, text = pre ++ (word ++ post) →
        ¬ re.Matches isWord (lastOf prev pre) word post.head? := by
  have here : ∀ {prev : Option Char} {text : List Char},
      (re.matchLength isWord prev text).isSome = false → ∀ word post, text = word ++ post →
        ¬ re.Matches isWord prev word post.head? := fun none word post =>
    matchLength_eq_none.mp (Option.isSome_eq_false_iff.mp none |> Option.isNone_iff_eq_none.mp)
      word post
  induction text with
  | nil =>
      intro prev none pre word post split
      obtain ⟨rfl, rest⟩ := List.append_eq_nil_iff.mp split.symm
      exact here none word post rest.symm
  | cons c text ih =>
      intro prev none pre word post split
      obtain ⟨first, later⟩ := Bool.or_eq_false_iff.mp none
      cases pre with
      | nil => exact here first word post split
      | cons d pre =>
          obtain ⟨rfl, rest⟩ := List.cons.inj split
          rw [lastOf_cons]
          exact ih later pre word post rest

/-! ### What all matches have in common -/

/-- No match has the character. -/
def excludes (c : Char) : Regex → Bool
  | .set p => !p c
  | .boundary => true
  | .seq a b => a.excludes c && b.excludes c
  | .alt a b => a.excludes c && b.excludes c
  | .rep a _ _ => a.excludes c
  | .star p => !p c

/-- A match has at most `n` characters that satisfy `p`. -/
inductive AtMost (p : Char → Bool) : Regex → Nat → Prop where
  | set {q : Char → Bool} : AtMost p (.set q) 1
  | none {q : Char → Bool} (other : ∀ c, q c = true → p c = false) : AtMost p (.set q) 0
  | boundary : AtMost p .boundary 0
  | seq {a b : Regex} {m n : Nat} : AtMost p a m → AtMost p b n → AtMost p (.seq a b) (m + n)
  | rep {a : Regex} {least most n : Nat} : AtMost p a n →
      AtMost p (.rep a least most) (max least most * n)

/-- The expression asks for no boundary. -/
def boundaryFree : Regex → Bool
  | .set _ => true
  | .boundary => false
  | .seq a b => a.boundaryFree && b.boundaryFree
  | .alt a b => a.boundaryFree && b.boundaryFree
  | .rep a _ _ => a.boundaryFree
  | .star _ => true

/-- A match has at least `n` characters that satisfy `p`. -/
inductive AtLeast (p : Char → Bool) : Regex → Nat → Prop where
  | any {re : Regex} : AtLeast p re 0
  | set {q : Char → Bool} (sub : ∀ c, q c = true → p c = true) : AtLeast p (.set q) 1
  | seq {a b : Regex} {m n : Nat} : AtLeast p a m → AtLeast p b n → AtLeast p (.seq a b) (m + n)
  | alt {a b : Regex} {n : Nat} : AtLeast p a n → AtLeast p b n → AtLeast p (.alt a b) n
  | rep {a : Regex} {least most n : Nat} : AtLeast p a n → AtLeast p (.rep a least most) (least * n)
  | fewer {re : Regex} {m n : Nat} : AtLeast p re m → n ≤ m → AtLeast p re n

/-- The last character of a match satisfies `p`. -/
inductive TailIn (p : Char → Bool) : Regex → Prop where
  | set {q : Char → Bool} (sub : ∀ c, q c = true → p c = true) : TailIn p (.set q)
  | boundary : TailIn p .boundary
  | seq {a b : Regex} : TailIn p a → TailIn p b → TailIn p (.seq a b)
  | last {a b : Regex} (some : AtLeast (fun _ => true) b 1) : TailIn p b → TailIn p (.seq a b)
  | alt {a b : Regex} : TailIn p a → TailIn p b → TailIn p (.alt a b)
  | rep {a : Regex} {least most : Nat} : TailIn p a → TailIn p (.rep a least most)

section Judgements

variable {re : Regex} {p : Char → Bool} {prev next prev' next' : Option Char} {word : List Char}
  {M N : Option Char → List Char → Option Char → Prop}

theorem Times.not_mem {c : Char} (each : ∀ prev word next, M prev word next → c ∉ word) {n : Nat} :
    ∀ {prev word next}, Times M n prev word next → c ∉ word := by
  induction n with
  | zero =>
      rintro prev _ next rfl
      exact List.not_mem_nil
  | succ n ih =>
      rintro prev _ next ⟨u, v, rfl, first, rest⟩ mem
      exact (List.mem_append.mp mem).elim (each _ _ _ first) (ih rest)

theorem not_mem_of_excludes {c : Char} (re : Regex) : re.excludes c = true →
    ∀ {prev word next}, re.Matches isWord prev word next → c ∉ word := by
  induction re with
  | set p =>
      rintro other prev _ next ⟨d, rfl, inClass⟩ mem
      obtain rfl := List.mem_singleton.mp mem
      rw [excludes, inClass] at other
      cases other
  | boundary =>
      rintro - prev _ next ⟨rfl, -⟩
      exact List.not_mem_nil
  | seq a b iha ihb =>
      rintro both prev _ next ⟨u, v, rfl, first, second⟩ mem
      obtain ⟨left, right⟩ := (Bool.and_eq_true _ _).mp both
      exact (List.mem_append.mp mem).elim (iha left first) (ihb right second)
  | alt a b iha ihb =>
      intro both prev word next matched
      obtain ⟨left, right⟩ := (Bool.and_eq_true _ _).mp both
      exact matched.elim (iha left) (ihb right)
  | rep a least most ih =>
      rintro other prev word next ⟨n, -, -, times⟩
      exact times.not_mem fun _ _ _ => ih other
  | star p =>
      intro other prev word next matched mem
      rw [excludes, matched c mem] at other
      cases other

theorem Times.countP {k : Nat} (each : ∀ prev word next, M prev word next → k ≤ word.countP p)
    {n : Nat} : ∀ {prev word next}, Times M n prev word next → n * k ≤ word.countP p := by
  induction n with
  | zero => exact fun _ => (Nat.zero_mul k).symm ▸ Nat.zero_le _
  | succ n ih =>
      rintro prev _ next ⟨u, v, rfl, first, rest⟩
      have one := each _ _ _ first
      have more := ih rest
      rw [List.countP_append, Nat.succ_mul]
      omega

theorem AtLeast.sound {n : Nat} (least : re.AtLeast p n) : ∀ {prev word next},
    re.Matches isWord prev word next → n ≤ word.countP p := by
  induction least with
  | any => exact fun _ => Nat.zero_le _
  | set sub =>
      rintro prev _ next ⟨c, rfl, inClass⟩
      exact List.countP_pos_iff.mpr ⟨c, List.mem_singleton_self c, sub c inClass⟩
  | seq _ _ iha ihb =>
      rintro prev _ next ⟨u, v, rfl, first, second⟩
      rw [List.countP_append]
      exact Nat.add_le_add (iha first) (ihb second)
  | alt _ _ iha ihb => exact fun matched => matched.elim iha ihb
  | @rep a least most n _ ih =>
      rintro prev word next ⟨k, enough, -, times⟩
      exact Nat.le_trans (Nat.mul_le_mul_right n enough) (times.countP fun _ _ _ => ih)
  | fewer _ le ih => exact fun matched => Nat.le_trans le (ih matched)

theorem Times.countP_le {k : Nat} (each : ∀ prev word next, M prev word next → word.countP p ≤ k)
    {n : Nat} : ∀ {prev word next}, Times M n prev word next → word.countP p ≤ n * k := by
  induction n with
  | zero =>
      rintro prev _ next rfl
      exact Nat.zero_le _
  | succ n ih =>
      rintro prev _ next ⟨u, v, rfl, first, rest⟩
      have one := each _ _ _ first
      have more := ih rest
      rw [List.countP_append, Nat.succ_mul]
      omega

theorem AtMost.sound {n : Nat} (most : re.AtMost p n) : ∀ {prev word next},
    re.Matches isWord prev word next → word.countP p ≤ n := by
  induction most with
  | set =>
      rintro prev _ next ⟨c, rfl, -⟩
      exact List.countP_le_length
  | none other =>
      rintro prev _ next ⟨c, rfl, inClass⟩
      rw [List.countP_singleton, other c inClass]
      exact Nat.le_refl 0
  | boundary =>
      rintro prev _ next ⟨rfl, -⟩
      exact Nat.le_refl 0
  | seq _ _ iha ihb =>
      rintro prev _ next ⟨u, v, rfl, first, second⟩
      rw [List.countP_append]
      exact Nat.add_le_add (iha first) (ihb second)
  | @rep a least most n _ ih =>
      rintro prev word next ⟨k, -, bounded, times⟩
      exact Nat.le_trans (times.countP_le fun _ _ _ => ih) (Nat.mul_le_mul_right n bounded)

theorem getLast?_append_of_both {u v : List Char} (left : ∀ c, u.getLast? = some c → p c = true)
    (right : ∀ c, v.getLast? = some c → p c = true) :
    ∀ c, (u ++ v).getLast? = some c → p c = true := by
  intro c last
  rw [List.getLast?_append] at last
  cases ends : v.getLast? with
  | none =>
      rw [ends] at last
      exact left c last
  | some d =>
      rw [ends] at last
      obtain rfl := Option.some.inj last
      exact right d ends

theorem Times.tail (each : ∀ prev word next, M prev word next →
    ∀ c, word.getLast? = some c → p c = true) {n : Nat} : ∀ {prev word next},
      Times M n prev word next → ∀ c, word.getLast? = some c → p c = true := by
  induction n with
  | zero =>
      rintro prev _ next rfl c last
      cases last
  | succ n ih =>
      rintro prev _ next ⟨u, v, rfl, first, rest⟩
      exact getLast?_append_of_both (each _ _ _ first) (ih rest)

theorem TailIn.sound (tail : re.TailIn p) : ∀ {prev word next},
    re.Matches isWord prev word next → ∀ c, word.getLast? = some c → p c = true := by
  induction tail with
  | set sub =>
      rintro prev _ next ⟨d, rfl, inClass⟩ c last
      obtain rfl := Option.some.inj last
      exact sub d inClass
  | boundary =>
      rintro prev _ next ⟨rfl, -⟩ c last
      cases last
  | seq _ _ iha ihb =>
      rintro prev _ next ⟨u, v, rfl, first, second⟩
      exact getLast?_append_of_both (iha first) (ihb second)
  | last some _ ihb =>
      rintro prev _ next ⟨u, v, rfl, -, second⟩ c last
      have nonempty : v ≠ [] := by
        rintro rfl
        exact absurd (some.sound second) (by decide)
      rw [List.getLast?_append_of_ne_nil u nonempty] at last
      exact ihb second c last
  | alt _ _ iha ihb => exact fun matched => matched.elim iha ihb
  | rep _ ih =>
      rintro prev word next ⟨k, -, -, times⟩
      exact times.tail fun _ _ _ => ih

/-- Every match ends at a boundary. -/
def closes : Regex → Bool
  | .boundary => true
  | .seq _ b => b.closes
  | .alt a b => a.closes && b.closes
  | _ => false

theorem isBoundary_of_closes (re : Regex) : re.closes = true → ∀ {prev word next},
    re.Matches isWord prev word next → isBoundary isWord (lastOf prev word) next = true := by
  induction re with
  | set p => exact fun no => (by cases no)
  | boundary =>
      rintro - prev _ next ⟨rfl, found⟩
      exact found
  | seq a b _ ihb =>
      rintro closing prev _ next ⟨u, v, rfl, -, second⟩
      rw [lastOf_append]
      exact ihb closing second
  | alt a b iha ihb =>
      intro both prev word next matched
      obtain ⟨left, right⟩ := (Bool.and_eq_true _ _).mp both
      exact matched.elim (iha left) (ihb right)
  | rep a least most _ => exact fun no => (by cases no)
  | star p => exact fun no => (by cases no)

/-- A word matches in another context if every boundary of the one is a boundary of the other. -/
theorem Matches.change (re : Regex) : ∀ {prev word next prev' next'},
    re.Matches isWord prev word next →
    (∀ u v, word = u ++ v → isBoundary isWord (lastOf prev u) (headOf v next) = true →
      isBoundary isWord (lastOf prev' u) (headOf v next') = true) →
    re.Matches isWord prev' word next' := by
  have seq : ∀ {M N : Option Char → List Char → Option Char → Prop} {prev word next prev' next'},
      (∀ {prev word next prev' next'}, M prev word next → (∀ u v, word = u ++ v →
        isBoundary isWord (lastOf prev u) (headOf v next) = true →
          isBoundary isWord (lastOf prev' u) (headOf v next') = true) → M prev' word next') →
      (∀ {prev word next prev' next'}, N prev word next → (∀ u v, word = u ++ v →
        isBoundary isWord (lastOf prev u) (headOf v next) = true →
          isBoundary isWord (lastOf prev' u) (headOf v next') = true) → N prev' word next') →
      (∃ u v, word = u ++ v ∧ M prev u (headOf v next) ∧ N (lastOf prev u) v next) →
      (∀ u v, word = u ++ v → isBoundary isWord (lastOf prev u) (headOf v next) = true →
        isBoundary isWord (lastOf prev' u) (headOf v next') = true) →
      ∃ u v, word = u ++ v ∧ M prev' u (headOf v next') ∧ N (lastOf prev' u) v next' := by
    rintro M N prev _ next prev' next' first second ⟨u, v, rfl, left, right⟩ same
    refine ⟨u, v, rfl, first left fun x y parts found => ?_, second right fun x y parts found => ?_⟩
    · have joined := same x (y ++ v) (by rw [parts, List.append_assoc])
      rw [headOf_append, headOf_append] at joined
      exact joined found
    · have joined := same (u ++ x) y (by rw [parts, List.append_assoc])
      rw [lastOf_append, lastOf_append] at joined
      exact joined found
  induction re with
  | set p => exact fun matched _ => matched
  | boundary =>
      rintro prev _ next prev' next' ⟨rfl, found⟩ same
      exact ⟨rfl, same [] [] rfl found⟩
  | seq a b iha ihb => exact seq iha ihb
  | alt a b iha ihb =>
      exact fun matched same => matched.imp (fun left => iha left same) fun right => ihb right same
  | rep a least most ih =>
      rintro prev word next prev' next' ⟨n, enough, bounded, times⟩ same
      refine ⟨n, enough, bounded, ?_⟩
      clear enough bounded
      induction n generalizing prev word next prev' next' with
      | zero => exact times
      | succ n ihn => exact seq ih (fun rest same => ihn rest same) times same
  | star p => exact fun matched _ => matched

/-- Without boundaries the context does not matter. -/
theorem change_of_boundaryFree (re : Regex) : re.boundaryFree = true →
    ∀ {prev word next prev' next'}, re.Matches isWord prev word next →
      re.Matches isWord prev' word next' := by
  induction re with
  | set p => exact fun _ _ _ _ _ _ matched => matched
  | boundary => exact fun no => (by cases no)
  | seq a b iha ihb =>
      rintro both prev _ next prev' next' ⟨u, v, rfl, first, second⟩
      obtain ⟨left, right⟩ := (Bool.and_eq_true _ _).mp both
      exact ⟨u, v, rfl, iha left first, ihb right second⟩
  | alt a b iha ihb =>
      intro both prev word next prev' next' matched
      obtain ⟨left, right⟩ := (Bool.and_eq_true _ _).mp both
      exact matched.imp (iha left) (ihb right)
  | rep a least most ih =>
      rintro free prev word next prev' next' ⟨n, enough, bounded, times⟩
      refine ⟨n, enough, bounded, ?_⟩
      clear enough bounded
      induction n generalizing prev word next prev' next' with
      | zero => exact times
      | succ n ihn =>
          obtain ⟨u, v, rfl, first, rest⟩ := times
          exact ⟨u, v, rfl, ih free first, ihn rest⟩
  | star p => exact fun _ _ _ _ _ _ matched => matched

/-- Only the two ends of a word meet its context. -/
theorem Matches.change_edges (matched : re.Matches isWord prev word next) (some : word ≠ [])
    (left : isBoundary isWord prev word.head? = true → isBoundary isWord prev' word.head? = true)
    (right : isBoundary isWord word.getLast? next = true →
      isBoundary isWord word.getLast? next' = true) :
    re.Matches isWord prev' word next' := by
  refine matched.change re fun u v parts found => ?_
  cases u with
  | nil =>
      rw [List.nil_append] at parts
      cases v with
      | nil => exact absurd parts some
      | cons c v =>
          rw [parts] at left
          exact left found
  | cons c u =>
      rw [lastOf_eq_getLast? _ (List.cons_ne_nil c u)] at found ⊢
      cases v with
      | nil =>
          rw [List.append_nil] at parts
          rw [parts] at right
          exact right found
      | cons d v => exact found

end Judgements

/-! ### Repeated classes -/

section Classes

variable {p : Char → Bool} {least most : Nat}

theorem times_set {n : Nat} : ∀ {prev next : Option Char} {word : List Char},
    Times ((Regex.set p).Matches isWord) n prev word next ↔
      word.length = n ∧ ∀ c ∈ word, p c = true := by
  induction n with
  | zero =>
      intro prev next word
      constructor
      · rintro rfl
        exact ⟨rfl, fun c mem => (List.not_mem_nil mem).elim⟩
      · rintro ⟨empty, -⟩
        exact List.eq_nil_of_length_eq_zero empty
  | succ n ih =>
      intro prev next word
      constructor
      · rintro ⟨_, v, rfl, ⟨c, rfl, inClass⟩, rest⟩
        obtain ⟨size, all⟩ := ih.mp rest
        exact ⟨congrArg (· + 1) size, List.forall_mem_cons.mpr ⟨inClass, all⟩⟩
      · rintro ⟨size, all⟩
        cases word with
        | nil => cases size
        | cons c word =>
            obtain ⟨inClass, all⟩ := List.forall_mem_cons.mp all
            exact ⟨[c], word, rfl, ⟨c, rfl, inClass⟩, ih.mpr ⟨Nat.succ.inj size, all⟩⟩

/-- The words of a repeated class. -/
theorem matches_rep_set {prev next : Option Char} {word : List Char} :
    (Regex.rep (.set p) least most).Matches isWord prev word next ↔
      least ≤ word.length ∧ word.length ≤ max least most ∧ ∀ c ∈ word, p c = true := by
  constructor
  · rintro ⟨n, enough, bounded, times⟩
    obtain ⟨rfl, all⟩ := times_set.mp times
    exact ⟨enough, bounded, all⟩
  · rintro ⟨enough, bounded, all⟩
    exact ⟨word.length, enough, bounded, times_set.mpr ⟨rfl, all⟩⟩

theorem exactly_set (n : Nat) : ∀ (prev : Option Char) (text : List Char),
    exactly ((Regex.set p).ends isWord) n (prev, text) =
      if n ≤ (text.takeWhile p).length then [(lastOf prev (text.take n), text.drop n)] else [] := by
  induction n with
  | zero => exact fun _ _ => rfl
  | succ n ih =>
      intro prev text
      unfold exactly ends
      cases text with
      | nil => rfl
      | cons c text =>
          dsimp only
          by_cases inClass : p c = true
          · rw [if_pos inClass, List.flatMap_cons, List.flatMap_nil, List.append_nil, ih,
              List.takeWhile_cons_of_pos inClass, List.length_cons, List.take_succ_cons, lastOf_cons,
              List.drop_succ_cons]
            split_ifs <;> first | rfl | omega
          · rw [if_neg inClass, List.takeWhile_cons_of_neg inClass]
            rfl

variable (isWord p) in
/-- The longest match is preferred. -/
theorem head_upTo_set (n : Nat) : ∀ (prev : Option Char) (text : List Char),
    ((upTo ((Regex.set p).ends isWord) n (prev, text)).head?.map fun place => place.2.length) =
      some (text.length - min n (text.takeWhile p).length) := by
  induction n with
  | zero =>
      intro prev text
      rw [Nat.zero_min, Nat.sub_zero]
      rfl
  | succ n ih =>
      intro prev text
      unfold upTo ends
      cases text with
      | nil => rfl
      | cons c text =>
          dsimp only
          by_cases inClass : p c = true
          · have rest := ih (some c) text
            rw [if_pos inClass, List.flatMap_cons, List.flatMap_nil, List.append_nil,
              List.takeWhile_cons_of_pos inClass]
            cases places : upTo ((Regex.set p).ends isWord) n (some c, text) with
            | nil =>
                rw [places] at rest
                cases rest
            | cons place more =>
                rw [places] at rest
                rw [List.cons_append, List.head?_cons, Option.map_some]
                rw [List.head?_cons, Option.map_some] at rest
                rw [rest, List.length_cons, List.length_cons]
                congr 1
                omega
          · rw [if_neg inClass, List.takeWhile_cons_of_neg inClass, List.length_nil, Nat.min_zero]
            rfl

theorem length_takeWhile_drop (n : Nat) (text : List Char)
    (short : n ≤ (text.takeWhile p).length) :
    ((text.drop n).takeWhile p).length = (text.takeWhile p).length - n := by
  induction n generalizing text with
  | zero => rfl
  | succ n ih =>
      cases text with
      | nil => exact absurd short (Nat.not_succ_le_zero n)
      | cons c text =>
          by_cases inClass : p c = true
          · rw [List.takeWhile_cons_of_pos inClass, List.length_cons] at short ⊢
            rw [List.drop_succ_cons, ih text (Nat.le_of_succ_le_succ short)]
            omega
          · rw [List.takeWhile_cons_of_neg inClass] at short
            cases short

/-- A repeated class matches as much as it can. -/
theorem matchLength_rep_set (prev : Option Char) (text : List Char) :
    (Regex.rep (.set p) least most).matchLength isWord prev text =
      if least ≤ (text.takeWhile p).length then
        some (least + min (most - least) ((text.takeWhile p).length - least)) else none := by
  unfold matchLength ends
  rw [exactly_set]
  split_ifs with enough
  · have head := head_upTo_set isWord p (most - least)
      (lastOf prev (text.take least)) (text.drop least)
    have inside : (text.takeWhile p).length ≤ text.length := (List.takeWhile_sublist p).length_le
    rw [length_takeWhile_drop least text enough, List.length_drop] at head
    rw [List.flatMap_cons, List.flatMap_nil, List.append_nil]
    cases places : upTo ((Regex.set p).ends isWord) (most - least)
      (lastOf prev (text.take least), text.drop least) with
    | nil =>
        rw [places] at head
        cases head
    | cons place more =>
        rw [places, List.head?_cons, Option.map_some] at head
        rw [List.head?_cons, Option.map_some, Option.some.inj head]
        congr 1
        omega
  · rfl

end Classes

/-! ### Words in blocks -/

/-- No part of the word is longer than `k` without `sep`. -/
def Blocks (sep : Char) (k : Nat) (word : List Char) : Prop :=
  ∀ a part b, word = a ++ (part ++ b) → sep ∉ part → part.length ≤ k

section Blocks

variable {sep : Char} {k : Nat} {first later : List Char}

theorem blocks_nil : Blocks sep k [] := by
  intro a part b split _
  obtain ⟨-, rest⟩ := List.append_eq_nil_iff.mp split.symm
  rw [(List.append_eq_nil_iff.mp rest).1]
  exact Nat.zero_le k

theorem Blocks.cons (blocks : Blocks sep k later) : Blocks sep k (sep :: later) := by
  intro a part b split free
  cases a with
  | nil =>
      cases part with
      | nil => exact Nat.zero_le k
      | cons c part =>
          obtain ⟨rfl, -⟩ := List.cons.inj split
          exact absurd List.mem_cons_self free
  | cons c a => exact blocks a part b (List.cons.inj split).2 free

/-- A short word before blocks that start with the separator is one more of them. -/
theorem Blocks.append (blocks : Blocks sep k later) (short : first.length ≤ k)
    (starts : later = [] ∨ later.head? = some sep) : Blocks sep k (first ++ later) := by
  intro a part b split free
  rcases List.append_eq_append_iff.mp split with ⟨a', rfl, later'⟩ | ⟨rest, rfl, part'⟩
  · exact blocks a' part b later' free
  rcases List.append_eq_append_iff.mp part' with ⟨rest', rfl, -⟩ | ⟨beyond, rfl, later'⟩
  · rw [List.length_append, List.length_append] at short
    omega
  · cases beyond with
    | nil =>
        rw [List.length_append] at short
        rw [List.append_nil]
        omega
    | cons c beyond =>
        rcases starts with none | head
        · rw [none] at later'
          cases later'
        · rw [later'] at head
          cases head
          exact absurd (List.mem_append_right _ List.mem_cons_self) free

end Blocks

end Regex

end Lib
