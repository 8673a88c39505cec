import Mathlib.Data.List.Sort

/-!
Queries of SQL as they are written: `SELECT * FROM t WHERE … ORDER BY … ASC`.

A text is read into tokens character by character (`lex`), and the tokens into a query one by one
(`parse`): `AND` binds more tightly than `OR`, and parentheses open a level of their own. Both
readers go from left to right, so the reading of a text that is put together is put together of the
readings of its parts (`Spells.append`, `Closed.append`, `Extends.append`). Conditions are evaluated in
the three-valued logic of SQL.

Keywords are capitals, and a placeholder has its number.
-/

namespace Lib.Sql

/-! ### Tokens -/

inductive Token where
  | word (s : String)
  | number (n : Nat)
  | text (s : String)
  | param (n : Nat)
  | sign (c : Char)
deriving DecidableEq

/-- What the reader is in: nothing, a token, or behind an apostrophe that may end a text. The
characters of a word or a text are kept last first. -/
inductive Mode where
  | blank
  | word (rev : List Char)
  | number (n : Nat)
  | param (n : Nat)
  | text (rev : List Char)
  | quote (rev : List Char)
deriving DecidableEq

/-- The tokens that have been read, last first. -/
structure Lexer where
  done : List Token
  mode : Mode
deriving DecidableEq

def apostrophe : Char := Char.ofNat 39

def isSign (c : Char) : Bool := c == '(' || c == ')' || c == ',' || c == '=' || c == '>' || c == '*'

def isName (c : Char) : Bool := c.isAlphanum || c == '_'

def digitValue (c : Char) : Nat := c.toNat - '0'.toNat

/-- The token that ends where the next one starts. -/
def Mode.flush : Mode → Option (List Token)
  | .blank => some []
  | .word rev => some [.word (String.ofList rev.reverse)]
  | .number n => some [.number n]
  | .param n => some [.param n]
  | .text _ => none
  | .quote rev => some [.text (String.ofList rev.reverse)]

/-- What a character starts. -/
def start (done : List Token) (c : Char) : Option Lexer :=
  if c == ' ' then some ⟨done, .blank⟩
  else if isSign c then some ⟨.sign c :: done, .blank⟩
  else if c == apostrophe then some ⟨done, .text []⟩
  else if c == '?' then some ⟨done, .param 0⟩
  else if c.isDigit then some ⟨done, .number (digitValue c)⟩
  else if isName c then some ⟨done, .word [c]⟩
  else none

def Lexer.step (lexer : Lexer) (c : Char) : Option Lexer :=
  match lexer.mode with
  | .blank => start lexer.done c
  | .word rev =>
      if isName c then some ⟨lexer.done, .word (c :: rev)⟩
      else start (.word (String.ofList rev.reverse) :: lexer.done) c
  | .number n =>
      if c.isDigit then some ⟨lexer.done, .number (10 * n + digitValue c)⟩
      else if isName c then none
      else start (.number n :: lexer.done) c
  | .param n =>
      if c.isDigit then some ⟨lexer.done, .param (10 * n + digitValue c)⟩
      else start (.param n :: lexer.done) c
  | .text rev =>
      if c == apostrophe then some ⟨lexer.done, .quote rev⟩ else some ⟨lexer.done, .text (c :: rev)⟩
  | .quote rev =>
      if c == apostrophe then some ⟨lexer.done, .text (c :: rev)⟩
      else start (.text (String.ofList rev.reverse) :: lexer.done) c

def lex (text : List Char) : Option (List Token) := do
  let lexer ← text.foldlM Lexer.step ⟨[], .blank⟩
  let last ← lexer.mode.flush
  return lexer.done.reverse ++ last

/-- `lex text = some tokens` (`spells_iff`), with what is read when the last token is still open. -/
def Spells (text : List Char) (tokens : List Token) : Prop :=
  ∃ before mode last, tokens = before ++ last ∧ mode.flush = some last ∧
    ∀ done, text.foldlM Lexer.step ⟨done, .blank⟩ = some ⟨before.reverse ++ done, mode⟩

/-- A text that ends with a blank or a sign, and its tokens. -/
def Closed (text : List Char) (tokens : List Token) : Prop :=
  ∀ done, text.foldlM Lexer.step ⟨done, .blank⟩ = some ⟨tokens.reverse ++ done, .blank⟩

section Lexing

variable {a b : List Char} {s t : List Token}

theorem Spells.lex (spells : Spells a s) : lex a = some s := by
  obtain ⟨before, mode, last, rfl, ends, reads⟩ := spells
  unfold Sql.lex
  rw [reads []]
  change (mode.flush.bind fun last => some ((before.reverse ++ []).reverse ++ last)) = _
  rw [ends, List.append_nil, List.reverse_reverse]
  rfl

theorem start_done (done : List Token) (c : Char) :
    start done c = (start [] c).map fun lexer => ⟨lexer.done ++ done, lexer.mode⟩ := by
  unfold start
  split_ifs <;> rfl

theorem step_done (done : List Token) (mode : Mode) (c : Char) :
    Lexer.step ⟨done, mode⟩ c = (Lexer.step ⟨[], mode⟩ c).map fun lexer =>
      ⟨lexer.done ++ done, lexer.mode⟩ := by
  have opened : ∀ token : Token, start (token :: done) c =
      (start [token] c).map fun lexer => ⟨lexer.done ++ done, lexer.mode⟩ := fun token => by
    rw [start_done, start_done [token], Option.map_map]
    refine congrArg (Option.map · _) (funext fun lexer => ?_)
    simp only [Function.comp_apply, List.append_assoc, List.singleton_append]
  unfold Lexer.step
  cases mode with
  | blank => exact start_done done c
  | word rev => dsimp only; split_ifs <;> first | rfl | exact opened _
  | number n => dsimp only; split_ifs <;> first | rfl | exact opened _
  | param n => dsimp only; split_ifs <;> first | rfl | exact opened _
  | text rev => dsimp only; split_ifs <;> rfl
  | quote rev => dsimp only; split_ifs <;> first | rfl | exact opened _

/-- What has been read does not matter for what comes. -/
theorem foldlM_done (text : List Char) : ∀ (done : List Token) (mode : Mode),
    text.foldlM Lexer.step ⟨done, mode⟩ = (text.foldlM Lexer.step ⟨[], mode⟩).map fun lexer =>
      ⟨lexer.done ++ done, lexer.mode⟩ := by
  induction text with
  | nil => exact fun _ _ => rfl
  | cons c text ih =>
      intro done mode
      rw [List.foldlM_cons, List.foldlM_cons, step_done]
      cases Lexer.step ⟨[], mode⟩ c with
      | none => rfl
      | some lexer =>
          change text.foldlM Lexer.step ⟨lexer.done ++ done, lexer.mode⟩ =
            (text.foldlM Lexer.step ⟨lexer.done, lexer.mode⟩).map _
          rw [ih (lexer.done ++ done), ih lexer.done, Option.map_map]
          refine congrArg (Option.map · _) (funext fun later => ?_)
          simp only [Function.comp_apply, List.append_assoc]

theorem spells_of_lex (read : lex a = some s) : Spells a s := by
  unfold lex at read
  obtain ⟨lexer, reads, read⟩ := Option.bind_eq_some_iff.mp read
  obtain ⟨last, ends, read⟩ := Option.bind_eq_some_iff.mp read
  obtain rfl := Option.some.inj read
  refine ⟨lexer.done.reverse, lexer.mode, last, rfl, ends, fun done => ?_⟩
  rw [foldlM_done, reads, List.reverse_reverse]
  rfl

theorem spells_iff : Spells a s ↔ lex a = some s := ⟨Spells.lex, spells_of_lex⟩

/-- A blank or a sign ends the token before it. -/
theorem step_of_flush {mode : Mode} {last : List Token} (ends : mode.flush = some last) {c : Char}
    (breaks : c = ' ' ∨ isSign c = true) (done : List Token) :
    Lexer.step ⟨done, mode⟩ c = start (last.reverse ++ done) c := by
  have other : isName c = false ∧ c.isDigit = false ∧ (c == apostrophe) = false := by
    rcases breaks with rfl | sign
    · decide
    · unfold isSign at sign
      simp only [Bool.or_eq_true, beq_iff_eq] at sign
      rcases sign with ((((rfl | rfl) | rfl) | rfl) | rfl) | rfl
      all_goals decide
  obtain ⟨noName, noDigit, noQuote⟩ := other
  cases mode with
  | text rev => cases ends
  | blank =>
      cases ends
      rfl
  | word rev =>
      cases ends
      simp only [Lexer.step, noName]
      rfl
  | number n =>
      cases ends
      simp only [Lexer.step, noName, noDigit]
      rfl
  | param n =>
      cases ends
      simp only [Lexer.step, noDigit]
      rfl
  | quote rev =>
      cases ends
      simp only [Lexer.step, noQuote]
      rfl

/-- A blank or a sign comes after a text. -/
theorem Spells.append {c : Char} (breaks : c = ' ' ∨ isSign c = true) (first : Spells a s)
    (second : Spells (c :: b) t) : Spells (a ++ c :: b) (s ++ t) := by
  obtain ⟨before, mode, last, rfl, ends, reads⟩ := first
  obtain ⟨before', mode', last', rfl, ends', reads'⟩ := second
  refine ⟨before ++ last ++ before', mode', last', by simp only [List.append_assoc], ends',
    fun done => ?_⟩
  have rest := reads' (last.reverse ++ (before.reverse ++ done))
  change (start (last.reverse ++ (before.reverse ++ done)) c).bind
    (fun lexer => b.foldlM Lexer.step lexer) = _ at rest
  rw [List.foldlM_append, reads]
  change (Lexer.step ⟨before.reverse ++ done, mode⟩ c).bind
    (fun lexer => b.foldlM Lexer.step lexer) = _
  rw [step_of_flush ends breaks, rest]
  simp only [List.reverse_append, List.append_assoc]

/-- A blank or a sign comes last in a text: no token of it is open. -/
theorem Closed.append (first : Closed a s) (second : Spells b t) : Spells (a ++ b) (s ++ t) := by
  obtain ⟨before, mode, last, rfl, ends, reads⟩ := second
  refine ⟨s ++ before, mode, last, (List.append_assoc _ _ _).symm, ends, fun done => ?_⟩
  rw [List.foldlM_append, first]
  change b.foldlM Lexer.step ⟨s.reverse ++ done, .blank⟩ = _
  rw [reads, List.reverse_append, List.append_assoc]

theorem closed_of_read (read : a.foldlM Lexer.step ⟨[], .blank⟩ = some ⟨s.reverse, .blank⟩) :
    Closed a s := fun done => by
  rw [foldlM_done, read]
  rfl

theorem closed_sign {c : Char} (isSign : isSign c = true) : Closed [c] [.sign c] := by
  have notBlank : (c == ' ') = false := by
    cases blank : c == ' ' with
    | false => rfl
    | true =>
        obtain rfl := eq_of_beq blank
        cases isSign
  refine closed_of_read ?_
  rw [List.foldlM_cons]
  change (start [] c).bind _ = _
  unfold start
  rw [notBlank, isSign]
  rfl

theorem foldlM_param {digits : List Char} (all : ∀ c ∈ digits, c.isDigit = true) (n : Nat)
    (done : List Token) : digits.foldlM Lexer.step ⟨done, .param n⟩ =
      some ⟨done, .param (Nat.ofDigitChars 10 digits n)⟩ := by
  induction digits generalizing n with
  | nil => rfl
  | cons c digits ih =>
      obtain ⟨isDigit, all⟩ := List.forall_mem_cons.mp all
      rw [List.foldlM_cons, Nat.ofDigitChars_cons, ← ih all]
      simp only [Lexer.step, isDigit, if_true]
      rfl

/-- A placeholder. -/
theorem spells_param (n : Nat) : Spells ('?' :: (toString n).toList) [.param n] := by
  refine ⟨[], .param n, [.param n], rfl, rfl, fun done => ?_⟩
  have digits : ∀ c ∈ Nat.toDigits 10 n, c.isDigit = true :=
    fun c mem => Nat.isDigit_of_mem_toDigits (by decide) (by decide) mem
  rw [Nat.toString_eq_repr, Nat.toList_repr, List.foldlM_cons]
  change (Nat.toDigits 10 n).foldlM Lexer.step ⟨done, .param 0⟩ = _
  rw [foldlM_param digits, Nat.ofDigitChars_ten_toDigits]
  rfl

end Lexing

/-! ### Queries -/

inductive Operand where
  | column (name : String)
  | number (n : Nat)
  | text (s : String)
  | param (n : Nat)

inductive Cond where
  | eq (a b : Operand)
  | gt (a b : Operand)
  | isIn (a : Operand) (items : List Operand)
  | and (a b : Cond)
  | or (a b : Cond)

structure Query where
  table : String
  cond : Cond
  orderBy : Option String

def KEYWORDS : List String := ["SELECT", "FROM", "WHERE", "AND", "OR", "IN", "ORDER", "BY", "ASC"]

def Token.operand : Token → Option Operand
  | .word s => if KEYWORDS.contains s then none else some (.column s)
  | .number n => some (.number n)
  | .text s => some (.text s)
  | .param n => some (.param n)
  | .sign _ => none

/-- What stands before a condition, up to the parenthesis around it: a disjunction, and after its
last `OR` a conjunction. -/
structure Level where
  ors : Option Cond
  ands : Option Cond

def Level.conj (level : Level) (c : Cond) : Cond :=
  match level.ands with
  | none => c
  | some a => .and a c

def Level.disj (level : Level) (c : Cond) : Cond :=
  match level.ors with
  | none => level.conj c
  | some a => .or a (level.conj c)

/-- What comes next. The items of a list are kept last first. -/
inductive Expect where
  | operand
  | comparison (a : Operand)
  | second (compare : Operand → Cond)
  | list (a : Operand)
  | item (a : Operand) (rev : List Operand)
  | more (a : Operand) (rev : List Operand)
  | connective (c : Cond)
  | order (c : Cond)
  | key (c : Cond)
  | ascending (c : Cond) (name : String)
  | nothing (c : Cond) (name : String)

structure Parser where
  level : Level
  outer : List Level
  expect : Expect

def Parser.step (parser : Parser) (token : Token) : Option Parser :=
  match parser.expect with
  | .operand =>
      if token = .sign '(' then some ⟨⟨none, none⟩, parser.level :: parser.outer, .operand⟩
      else token.operand.map fun a => { parser with expect := .comparison a }
  | .comparison a =>
      if token = .sign '=' then some { parser with expect := .second (.eq a) }
      else if token = .sign '>' then some { parser with expect := .second (.gt a) }
      else if token = .word "IN" then some { parser with expect := .list a }
      else none
  | .second compare => token.operand.map fun b => { parser with expect := .connective (compare b) }
  | .list a => if token = .sign '(' then some { parser with expect := .item a [] } else none
  | .item a rev => token.operand.map fun b => { parser with expect := .more a (b :: rev) }
  | .more a rev =>
      if token = .sign ',' then some { parser with expect := .item a rev }
      else if token = .sign ')' then
        some { parser with expect := .connective (.isIn a rev.reverse) }
      else none
  | .connective c =>
      if token = .word "AND" then
        some ⟨{ parser.level with ands := some (parser.level.conj c) }, parser.outer, .operand⟩
      else if token = .word "OR" then
        some ⟨⟨some (parser.level.disj c), none⟩, parser.outer, .operand⟩
      else
        match parser.outer with
        | level :: outer =>
            if token = .sign ')' then some ⟨level, outer, .connective (parser.level.disj c)⟩
            else none
        | [] =>
            if token = .word "ORDER" then some { parser with expect := .order (parser.level.disj c) }
            else none
  | .order c => if token = .word "BY" then some { parser with expect := .key c } else none
  | .key c =>
      match token.operand with
      | some (.column name) => some { parser with expect := .ascending c name }
      | _ => none
  | .ascending c name =>
      if token = .word "ASC" then some { parser with expect := .nothing c name } else none
  | .nothing _ _ => none

/-- The condition and the order, at the end of the text. -/
def Parser.finish (parser : Parser) : Option (Cond × Option String) :=
  match parser.expect with
  | .connective c => if parser.outer.isEmpty then some (parser.level.disj c, none) else none
  | .ascending c name => some (c, some name)
  | .nothing c name => some (c, some name)
  | _ => none

def parse (tokens : List Token) : Option Query :=
  match tokens with
  | .word select :: .sign '*' :: .word «from» :: .word table :: .word «where» :: rest =>
      if select = "SELECT" ∧ «from» = "FROM" ∧ «where» = "WHERE" ∧ ¬ KEYWORDS.contains table then
        ((rest.foldlM Parser.step ⟨⟨none, none⟩, [], .operand⟩).bind Parser.finish).map fun found =>
          ⟨table, found.1, found.2⟩
      else none
  | _ => none

/-- The tokens of one condition. -/
def Parses (tokens : List Token) (c : Cond) : Prop :=
  ∀ level outer, tokens.foldlM Parser.step ⟨level, outer, .operand⟩ =
    some ⟨level, outer, .connective c⟩

/-- The tokens continue a conjunction with these conditions. -/
def Extends (tokens : List Token) (conds : List Cond) : Prop :=
  ∀ level outer c, ∃ level' c', tokens.foldlM Parser.step ⟨level, outer, .connective c⟩ =
    some ⟨level', outer, .connective c'⟩ ∧ level'.ors = level.ors ∧
      level'.conj c' = conds.foldl .and (level.conj c)

section Parsing

variable {s t : List Token} {c d : Cond} {cs ds : List Cond}

theorem parses_eq {x y : Token} {a b : Operand} (left : x.operand = some a)
    (right : y.operand = some b) : Parses [x, .sign '=', y] (.eq a b) := by
  intro level outer
  have noParen : x ≠ .sign '(' := by
    rintro rfl
    cases left
  simp only [List.foldlM, Parser.step, if_neg noParen, left, right]
  rfl

theorem parses_gt {x y : Token} {a b : Operand} (left : x.operand = some a)
    (right : y.operand = some b) : Parses [x, .sign '>', y] (.gt a b) := by
  intro level outer
  have noParen : x ≠ .sign '(' := by
    rintro rfl
    cases left
  simp only [List.foldlM, Parser.step, if_neg noParen, left, right]
  rfl

theorem Parses.paren_or (first : Parses s c) (second : Parses t d) :
    Parses (.sign '(' :: (s ++ .word "OR" :: (t ++ [.sign ')']))) (.or c d) := by
  intro level outer
  change (s ++ Token.word "OR" :: (t ++ [Token.sign ')'])).foldlM Parser.step
    ⟨⟨none, none⟩, level :: outer, .operand⟩ = _
  rw [List.foldlM_append, first]
  change (t ++ [Token.sign ')']).foldlM Parser.step ⟨⟨some c, none⟩, level :: outer, .operand⟩ = _
  rw [List.foldlM_append, second]
  rfl

theorem Parses.paren_and (first : Parses s c) (second : Parses t d) :
    Parses (.sign '(' :: (s ++ .word "AND" :: (t ++ [.sign ')']))) (.and c d) := by
  intro level outer
  change (s ++ Token.word "AND" :: (t ++ [Token.sign ')'])).foldlM Parser.step
    ⟨⟨none, none⟩, level :: outer, .operand⟩ = _
  rw [List.foldlM_append, first]
  change (t ++ [Token.sign ')']).foldlM Parser.step ⟨⟨none, some c⟩, level :: outer, .operand⟩ = _
  rw [List.foldlM_append, second]
  rfl

theorem foldlM_items {a : Operand} {level : Level} {outer : List Level} {tokens : List Token} :
    ∀ {items rev : List Operand}, tokens ≠ [] → tokens.map Token.operand = items.map some →
      (tokens.intersperse (.sign ',')).foldlM Parser.step ⟨level, outer, .item a rev⟩ =
        some ⟨level, outer, .more a (items.reverse ++ rev)⟩ := by
  induction tokens with
  | nil => exact fun nonempty => absurd rfl nonempty
  | cons x tokens ih =>
      intro items rev _ same
      cases items with
      | nil => cases same
      | cons b items =>
          obtain ⟨first, rest⟩ := List.cons.inj same
          cases tokens with
          | nil =>
              cases items with
              | nil =>
                  simp only [List.intersperse_singleton, List.foldlM, Parser.step, first]
                  rfl
              | cons _ _ => cases rest
          | cons y tokens =>
              have later := @ih items (b :: rev) (List.cons_ne_nil y tokens) rest
              rw [List.intersperse_cons_cons, List.foldlM_cons]
              simp only [Parser.step, first]
              rw [List.reverse_cons, List.append_assoc]
              exact later

theorem parses_in {x : Token} {a : Operand} {tokens : List Token} {items : List Operand}
    (left : x.operand = some a) (nonempty : tokens ≠ [])
    (same : tokens.map Token.operand = items.map some) :
    Parses (x :: .word "IN" :: .sign '(' :: (tokens.intersperse (.sign ',') ++ [.sign ')']))
      (.isIn a items) := by
  intro level outer
  have noParen : x ≠ .sign '(' := by
    rintro rfl
    cases left
  have first : Parser.step ⟨level, outer, .operand⟩ x = some ⟨level, outer, .comparison a⟩ := by
    simp only [Parser.step, if_neg noParen, left]
    rfl
  rw [List.foldlM_cons, first]
  change (tokens.intersperse (Token.sign ',') ++ [Token.sign ')']).foldlM Parser.step
    ⟨level, outer, .item a []⟩ = _
  rw [List.foldlM_append, foldlM_items nonempty same, List.append_nil]
  change some (Parser.mk level outer (.connective (.isIn a items.reverse.reverse))) = _
  rw [List.reverse_reverse]

theorem extends_nil : Extends [] [] := fun level _ c => ⟨level, c, rfl, rfl, rfl⟩

theorem extends_and (parses : Parses s c) : Extends (.word "AND" :: s) [c] := by
  intro level outer b
  exact ⟨{ level with ands := some (level.conj b) }, c, parses _ _, rfl, rfl⟩

theorem Extends.append (first : Extends s cs) (second : Extends t ds) :
    Extends (s ++ t) (cs ++ ds) := by
  intro level outer c
  obtain ⟨level₁, c₁, reads, ors, conj⟩ := first level outer c
  obtain ⟨level₂, c₂, reads', ors', conj'⟩ := second level₁ outer c₁
  refine ⟨level₂, c₂, ?_, ors'.trans ors, ?_⟩
  · rw [List.foldlM_append, reads]
    exact reads'
  · rw [conj', conj, List.foldl_append]

variable {table : String}

theorem foldlM_where (first : Parses s c) (more : Extends t ds) (rest : List Token) :
    ∃ level d, (s ++ (t ++ rest)).foldlM Parser.step ⟨⟨none, none⟩, [], .operand⟩ =
      rest.foldlM Parser.step ⟨level, [], .connective d⟩ ∧ level.disj d = ds.foldl .and c := by
  obtain ⟨level, d, reads, ors, conj⟩ := more ⟨none, none⟩ [] c
  refine ⟨level, d, ?_, ?_⟩
  · rw [List.foldlM_append, first]
    change (t ++ rest).foldlM Parser.step ⟨⟨none, none⟩, [], .connective c⟩ = _
    rw [List.foldlM_append, reads]
    rfl
  · rw [Level.disj, ors]
    exact conj

theorem parse_select (isName : KEYWORDS.contains table = false) (rest : List Token) :
    parse (.word "SELECT" :: .sign '*' :: .word "FROM" :: .word table :: .word "WHERE" :: rest) =
      ((rest.foldlM Parser.step ⟨⟨none, none⟩, [], .operand⟩).bind Parser.finish).map fun found =>
        ⟨table, found.1, found.2⟩ :=
  if_pos ⟨rfl, rfl, rfl, by rw [isName]; exact Bool.false_ne_true⟩

/-- A query that selects by a conjunction. -/
theorem parse_where (isName : KEYWORDS.contains table = false) (first : Parses s c)
    (more : Extends t ds) :
    parse (.word "SELECT" :: .sign '*' :: .word "FROM" :: .word table :: .word "WHERE" :: (s ++ t)) =
      some ⟨table, ds.foldl .and c, none⟩ := by
  obtain ⟨level, d, reads, conj⟩ := foldlM_where first more []
  rw [List.append_nil] at reads
  rw [parse_select isName, reads, ← conj]
  rfl

/-- A query that selects by a conjunction and sorts. -/
theorem parse_where_order (isName : KEYWORDS.contains table = false) {name : String}
    (isColumn : KEYWORDS.contains name = false) (first : Parses s c) (more : Extends t ds) :
    parse (.word "SELECT" :: .sign '*' :: .word "FROM" :: .word table :: .word "WHERE" ::
        (s ++ (t ++ [.word "ORDER", .word "BY", .word name, .word "ASC"]))) =
      some ⟨table, ds.foldl .and c, some name⟩ := by
  obtain ⟨level, d, reads, conj⟩ :=
    foldlM_where first more [.word "ORDER", .word "BY", .word name, .word "ASC"]
  have ordered : [Token.word "ORDER", .word "BY", .word name, .word "ASC"].foldlM Parser.step
      ⟨level, [], .connective d⟩ = some ⟨level, [], .nothing (level.disj d) name⟩ := by
    have column : (Token.word name).operand = some (.column name) := by
      rw [Token.operand, isColumn]
      rfl
    change (Parser.step ⟨level, [], .key (level.disj d)⟩ (.word name)).bind
      (fun parser => [Token.word "ASC"].foldlM Parser.step parser) = _
    simp only [Parser.step, column]
    rfl
  rw [parse_select isName, reads, ordered, ← conj]
  rfl

theorem spells_list {texts : List (List Char)} : ∀ {tokens : List Token}, texts ≠ [] →
    List.Forall₂ (fun a t => Spells a [t]) texts tokens →
      Spells (List.intercalate [','] texts) (tokens.intersperse (.sign ',')) := by
  induction texts with
  | nil => exact fun nonempty => absurd rfl nonempty
  | cons a texts ih =>
      rintro _ - each
      obtain ⟨x, tokens, first, rest, rfl⟩ := List.forall₂_cons_left_iff.mp each
      cases texts with
      | nil =>
          cases rest
          rw [List.intercalate_singleton]
          exact first
      | cons b texts =>
          obtain ⟨y, tokens, second, rest', rfl⟩ := List.forall₂_cons_left_iff.mp rest
          have later := ih (List.cons_ne_nil b texts) rest
          rw [List.intercalate_cons_cons, List.append_assoc]
          exact first.append (.inr rfl) ((closed_sign rfl).append later)

end Parsing

/-! ### Meaning -/

/-- The values of columns and parameters. A comparison with NULL has no truth value. -/
structure Values (V : Type) where
  null : V
  ofNat : Nat → V
  ofText : String → V
  eq : V → V → Option Bool
  gt : V → V → Option Bool

def and3 : Option Bool → Option Bool → Option Bool
  | some false, _ => some false
  | _, some false => some false
  | some true, some true => some true
  | _, _ => none

def or3 : Option Bool → Option Bool → Option Bool
  | some true, _ => some true
  | _, some true => some true
  | some false, some false => some false
  | _, _ => none

@[simp] theorem and3_some (a b : Bool) : and3 (some a) (some b) = some (a && b) := by
  cases a <;> cases b <;> rfl

@[simp] theorem or3_some (a b : Bool) : or3 (some a) (some b) = some (a || b) := by
  cases a <;> cases b <;> rfl

section Meaning

variable {V : Type} (values : Values V) (cell : String → V) (bound : List V)

def Operand.value : Operand → V
  | .column name => cell name
  | .number n => values.ofNat n
  | .text s => values.ofText s
  | .param n => bound.getD (n - 1) values.null

def Cond.eval : Cond → Option Bool
  | .eq a b => values.eq (a.value values cell bound) (b.value values cell bound)
  | .gt a b => values.gt (a.value values cell bound) (b.value values cell bound)
  | .isIn a items => items.foldr (fun b rest =>
      or3 (values.eq (a.value values cell bound) (b.value values cell bound)) rest) (some false)
  | .and a b => and3 a.eval b.eval
  | .or a b => or3 a.eval b.eval

def Cond.operands : Cond → List Operand
  | .eq a b => [a, b]
  | .gt a b => [a, b]
  | .isIn a items => a :: items
  | .and a b => a.operands ++ b.operands
  | .or a b => a.operands ++ b.operands

inductive Error where
  | malformed
  | noSuchTable (name : String)
  | noSuchColumn (name : String)
  | variableNumber
  | parameterCount (given expected : Nat)
deriving DecidableEq

/-- What is wrong with an operand, given the columns of the table and the largest number that a
placeholder may have. -/
def Operand.wrong (columns : List String) (most : Nat) : Operand → Option Error
  | .column name => if columns.contains name then none else some (.noSuchColumn name)
  | .param n => if 1 ≤ n ∧ n ≤ most then none else some .variableNumber
  | _ => none

/-- `prepare`. -/
def prepare (tables : String → Option (List String)) (most : Nat) (text : String) :
    Except Error Query :=
  match (lex text.toList).bind parse with
  | none => .error .malformed
  | some query =>
      match tables query.table with
      | none => .error (.noSuchTable query.table)
      | some columns =>
          let order := query.orderBy.toList.map Operand.column
          match ((query.cond.operands ++ order).filterMap (Operand.wrong columns most)).head? with
          | some e => .error e
          | none => .ok query

def Operand.index : Operand → Nat
  | .param n => n
  | _ => 0

/-- The largest number of a placeholder. -/
def Cond.variables (c : Cond) : Nat := (c.operands.map Operand.index).foldr max 0

/-- The rows of a query, with as many parameters as it has placeholders. -/
def Query.run {R : Type} (query : Query) (rows : List R) (cell : R → String → V) :
    Except Error (List R) :=
  if bound.length ≠ query.cond.variables then
    .error (.parameterCount bound.length query.cond.variables)
  else
    let found := rows.filter fun r => query.cond.eval values (cell r) bound == some true
    match query.orderBy with
    | none => .ok found
    | some name =>
        .ok (found.insertionSort fun a b => values.gt (cell a name) (cell b name) ≠ some true)

variable {values cell bound} {c : Cond} {ds : List Cond}

theorem eval_isIn {a : Operand} {items : List Operand} {f : Operand → Bool}
    (each : ∀ b ∈ items, values.eq (a.value values cell bound) (b.value values cell bound) =
      some (f b)) :
    (Cond.isIn a items).eval values cell bound = some (items.any f) := by
  unfold Cond.eval
  induction items with
  | nil => rfl
  | cons b items ih =>
      obtain ⟨here, each⟩ := List.forall_mem_cons.mp each
      rw [List.foldr_cons, here, ih each, or3_some, List.any_cons]

theorem operands_conj (c : Cond) (ds : List Cond) :
    (ds.foldl .and c).operands = c.operands ++ ds.flatMap Cond.operands := by
  induction ds generalizing c with
  | nil => rw [List.flatMap_nil, List.append_nil]; rfl
  | cons d ds ih =>
      rw [List.foldl_cons, ih, Cond.operands, List.append_assoc, List.flatMap_cons]

theorem variables_eq {n : Nat} (bounded : ∀ o ∈ c.operands, o.index ≤ n)
    (reached : ∃ o ∈ c.operands, o.index = n) : c.variables = n := by
  unfold Cond.variables
  obtain ⟨o, mem, rfl⟩ := reached
  generalize c.operands = operands at *
  refine Nat.le_antisymm ?_ ?_
  · generalize o.index = n at bounded
    clear mem
    induction operands with
    | nil => exact Nat.zero_le n
    | cons a rest ih =>
        obtain ⟨here, bounded⟩ := List.forall_mem_cons.mp bounded
        exact Nat.max_le.mpr ⟨here, ih bounded⟩
  · clear bounded
    induction operands with
    | nil => exact absurd mem List.not_mem_nil
    | cons a rest ih =>
        rw [List.map_cons, List.foldr_cons]
        rcases List.mem_cons.mp mem with rfl | mem
        · exact Nat.le_max_left _ _
        · exact Nat.le_trans (ih mem) (Nat.le_max_right _ _)

theorem prepare_ok {tables : String → Option (List String)} {most : Nat} {text : String}
    {tokens : List Token} {query : Query} {columns : List String}
    (spells : Spells text.toList tokens) (parsed : parse tokens = some query)
    (known : tables query.table = some columns)
    (right : ∀ o ∈ query.cond.operands, o.wrong columns most = none)
    (order : ∀ name ∈ query.orderBy, columns.contains name = true) :
    prepare tables most text = .ok query := by
  have none : (query.cond.operands ++ query.orderBy.toList.map Operand.column).filterMap
      (Operand.wrong columns most) = [] := by
    rw [List.filterMap_eq_nil_iff]
    intro o mem
    rcases List.mem_append.mp mem with mem | mem
    · exact right o mem
    · obtain ⟨name, found, rfl⟩ := List.mem_map.mp mem
      rw [Operand.wrong, if_pos (order name (Option.mem_toList.mp found))]
  unfold prepare
  rw [spells.lex, Option.bind_some, parsed]
  dsimp only
  rw [known]
  dsimp only
  rw [none]
  rfl

theorem run_ok {R : Type} {query : Query} {rows : List R} {cell : R → String → V}
    (count : bound.length = query.cond.variables) (unordered : query.orderBy = none) :
    query.run values bound rows cell =
      .ok (rows.filter fun r => query.cond.eval values (cell r) bound == some true) := by
  unfold Query.run
  rw [if_neg (not_not_intro count), unordered]

theorem run_ok_order {R : Type} {query : Query} {rows : List R} {cell : R → String → V}
    (count : bound.length = query.cond.variables) {name : String}
    (ordered : query.orderBy = some name) : query.run values bound rows cell =
      .ok ((rows.filter fun r => query.cond.eval values (cell r) bound == some true).insertionSort
        fun a b => values.gt (cell a name) (cell b name) ≠ some true) := by
  unfold Query.run
  rw [if_neg (not_not_intro count), ordered]

end Meaning

end Lib.Sql
