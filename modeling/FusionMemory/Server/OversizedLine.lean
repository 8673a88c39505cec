import FusionMemory.Server.LineChunks

/-!
What becomes of a line that is too long (`handle_conn` and `read_line_capped` of
`fm-server/src/uds.rs`).

The reader consumes the pieces of the line that are within the limit, and leaves the others: the
next round takes the unread part for a line of its own. `oversized_line_discarded_iff` says when
that does no harm.
-/

namespace FusionMemory

open Lib

variable {F : Type} [FloatArith F] [JsonText F]

/-! ### The limit in a line -/

/-- The pieces that are read, after `total` bytes, and those that are left unread. -/
def splitAtLimit (total : Nat) : List (List UInt8) → List (List UInt8) × List (List UInt8)
  | [] => ([], [])
  | piece :: more =>
      if MAX_LINE_BYTES < total + piece.length then ([], piece :: more)
      else
        let (read, unread) := splitAtLimit (total + piece.length) more
        (piece :: read, unread)

/-- The pieces of a line that are left unread. -/
def unreadPieces (pieces : List (List UInt8)) : List (List UInt8) := (splitAtLimit 0 pieces).2

theorem splitAtLimit_eq {kept more : List (List UInt8)} {piece : List UInt8} {total : Nat}
    (short : total + kept.flatten.length ≤ MAX_LINE_BYTES)
    (long : MAX_LINE_BYTES < total + kept.flatten.length + piece.length) :
    splitAtLimit total (kept ++ piece :: more) = (kept, piece :: more) := by
  induction kept generalizing total with
  | nil => exact if_pos long
  | cons first kept ih =>
      rw [List.flatten_cons, List.length_append] at short long
      rw [List.cons_append, splitAtLimit, if_neg (by omega), ih (by omega) (by omega)]

/-- The unread part of the line is a blank line, and all of the line is text. -/
def BlankPastLimit (pieces : List (List UInt8)) : Prop :=
  (∀ p ∈ pieces, IsText p) ∧ (unreadPieces pieces).flatten.length ≤ MAX_LINE_BYTES ∧
    ∀ text, utf8 text = (unreadPieces pieces).flatten → trim text = ""

section Reading

variable {chunks : List (List UInt8)}

/-- A line that is too long ends the connection, or is left where the limit is exceeded. -/
theorem readLineCapped_long (nonempty : [] ∉ chunks)
    (long : MAX_LINE_BYTES < (linePieces isNewline chunks).flatten.length) :
    (∃ e rest, readLineCapped (arrivals chunks) 0 "" = (.io e, rest) ∧
      ¬ ∀ p ∈ linePieces isNewline chunks, IsText p) ∨
    ∃ n kept, readLineCapped (arrivals chunks) 0 "" =
        (.oversized n, arrivals (chunks.drop kept.length)) ∧ (∀ p ∈ kept, IsText p) ∧
      linePieces isNewline chunks = kept ++ unreadPieces (linePieces isNewline chunks) ∧
      unreadPieces (linePieces isNewline chunks) ≠ [] := by
  have reads := readLineCapped_chunks chunks nonempty 0 "" (Nat.zero_le _)
  generalize readLineCapped (arrivals chunks) 0 "" = result at reads
  cases reads with
  | whole bytes _ short =>
      rw [← bytes] at long
      omega
  | @stops kept more piece read pieces texts short reason =>
      split_ifs at reason with exceeds
      · have unread : unreadPieces (linePieces isNewline chunks) = piece :: more := by
          unfold unreadPieces
          rw [pieces, splitAtLimit_eq short exceeds]
        refine .inr ⟨_, kept, by rw [reason], texts, ?_, ?_⟩
        · rw [unread]
          exact pieces
        · rw [unread]
          exact List.cons_ne_nil _ _
      · refine .inl ⟨_, _, by rw [reason.2], fun all => reason.1 ?_⟩
        exact all piece (pieces ▸ List.mem_append_right _ List.mem_cons_self)

end Reading

/-! ### The rounds of a line -/

/-- The responses, in order. -/
def responses (report : List (UdsEvent F)) : List (LineResponse F) :=
  report.filterMap fun
    | .respond resp => some resp
    | _ => none

variable (F) in
/-- Some rounds, whose responses can be written, answer one error and nothing else, read and
dispatch nothing but blank lines, and end before the next line. -/
def DiscardsLine (token : String) (c : UdsConn) (next : BufReader) : Prop :=
  ∃ n, ∀ turns : List (UdsTurn F), turns.length = n → (∀ turn ∈ turns, turn.written = true) →
    ∃ c' report, (udsConn F token).Run StepSystem.Always c turns c' report ∧
      c'.reader = next ∧ c'.ended = false ∧ c'.authenticated = c.authenticated ∧
      responses report = [.error (-32602) s!"line exceeds {MAX_LINE_BYTES} bytes"] ∧
      ∀ event ∈ report, (∀ req, event ≠ .dispatch req) ∧
        ∀ k text, event = .read (.line k text) → trim text = ""

section Rounds

variable {token : String} {c c' : UdsConn} {turn : UdsTurn F} {report now : List (UdsEvent F)}

omit [JsonText F] in
theorem responses_append (report now : List (UdsEvent F)) :
    responses (report ++ now) = responses report ++ responses now := List.filterMap_append

/-- A line that is not blank has one response. -/
theorem handle_asks (c : UdsConn) (turn : UdsTurn F) (n : Nat) {text : String}
    (asks : trim text ≠ "") : ∃ resp,
      responses (c.handle token turn (.line (n + 1) text)).2 = [resp] := by
  simp only [UdsConn.handle, if_neg asks]
  split_ifs
  · exact ⟨_, rfl⟩
  · exact ⟨_, rfl⟩
  · split
    · exact ⟨_, rfl⟩
    · exact ⟨_, rfl⟩

theorem udsConn_step (going : c.ended = false) {read : LineRead} {rest : BufReader}
    (line : readLineCapped c.reader 0 "" = (read, rest)) :
    (udsConn F token).step c turn =
      some ((UdsConn.handle token { c with reader := rest } turn read).1,
        .read read :: (UdsConn.handle token { c with reader := rest } turn read).2) := by
  change c.step token turn = _
  unfold UdsConn.step
  rw [if_neg (by rw [going]; exact Bool.false_ne_true), line]

theorem udsConn_step_ended (ended : c.ended = true) : (udsConn F token).step c turn = none := by
  change c.step token turn = _
  unfold UdsConn.step
  rw [if_pos ended]

end Rounds

/-! ### An oversized line -/

section Oversized

variable {token : String} {c : UdsConn} {chunks : List (List UInt8)}

/-- One error, and a blank line. -/
theorem discardsLine_of_blank (nonempty : [] ∉ chunks) (reader : c.reader = arrivals chunks)
    (going : c.ended = false)
    (long : MAX_LINE_BYTES < (linePieces isNewline chunks).flatten.length)
    (blank : BlankPastLimit (linePieces isNewline chunks)) :
    DiscardsLine F token c (arrivals (laterChunks isNewline chunks)) := by
  obtain ⟨texts, short, empty⟩ := blank
  rcases readLineCapped_long nonempty long with ⟨-, -, -, broken⟩ | ⟨n, kept, read, -, split, left⟩
  · exact absurd texts broken
  obtain ⟨piece, more, unread⟩ := List.exists_cons_of_ne_nil left
  rw [unread] at split short empty
  obtain ⟨pieces, after⟩ := linePieces_drop split
  have nonempty' : [] ∉ chunks.drop kept.length := fun no => nonempty (List.mem_of_mem_drop no)
  obtain ⟨text, bytes, read'⟩ := readLineCapped_whole_line nonempty' (by rw [pieces]; exact short)
    fun p mem => texts p (split ▸ List.mem_append_right _ (pieces ▸ mem))
  rw [after] at read'
  rw [pieces] at bytes
  obtain ⟨k, size⟩ : ∃ k, (utf8 text).length = k + 1 := by
    refine Nat.exists_eq_succ_of_ne_zero fun zero => ?_
    have full := (linePieces_nonempty isNewline nonempty').1
    rw [bytes, List.flatten_cons, List.length_append] at zero
    have none : piece = [] := List.eq_nil_of_length_eq_zero (by omega)
    rw [pieces, none] at full
    exact full List.mem_cons_self
  rw [size] at read'
  refine ⟨2, fun turns two written => ?_⟩
  obtain ⟨first, second, rfl⟩ := List.length_eq_two.mp two
  have ok := written first List.mem_cons_self
  rw [← reader] at read
  have round : (udsConn F token).step c first = some (⟨arrivals (chunks.drop kept.length),
      c.authenticated, false⟩, [.read (.oversized n),
        .respond (.error (-32602) s!"line exceeds {MAX_LINE_BYTES} bytes")]) := by
    rw [udsConn_step going read]
    simp only [UdsConn.handle, UdsConn.respond, ok, Bool.not_true]
  have round' : (udsConn F token).step ⟨arrivals (chunks.drop kept.length), c.authenticated, false⟩
      second = some (⟨arrivals (laterChunks isNewline chunks), c.authenticated, false⟩,
        [.read (.line (k + 1) text)]) := by
    rw [udsConn_step rfl read', handle_blank _ _ _ (empty text bytes)]
  have run := (StepSystem.Run.start (T := udsConn F token) (C := StepSystem.Always)).step trivial round
    |>.step trivial round'
  refine ⟨_, _, run, rfl, rfl, rfl, rfl, fun event mem => ?_⟩
  simp only [List.nil_append, List.cons_append, List.mem_cons, List.not_mem_nil, or_false] at mem
  rcases mem with rfl | rfl | rfl
  · exact ⟨fun _ no => (by cases no), fun _ _ no => (by cases no)⟩
  · exact ⟨fun _ no => (by cases no), fun _ _ no => (by cases no)⟩
  · refine ⟨fun _ no => (by cases no), fun _ _ same => ?_⟩
    cases same
    exact empty text bytes

/-- How far the rounds get when the line is not blank past the limit: not at all, to the limit, or
into an end or a second response. -/
inductive Discarding (c : UdsConn) (chunks : List (List UInt8)) :
    UdsConn → List (UdsEvent F) → Prop where
  | before : Discarding c chunks c []
  | within {c' : UdsConn} {report : List (UdsEvent F)} (kept : List (List UInt8))
      (reader : c'.reader = arrivals (chunks.drop kept.length))
      (split : linePieces isNewline chunks = kept ++ unreadPieces (linePieces isNewline chunks))
      (left : unreadPieces (linePieces isNewline chunks) ≠ [])
      (texts : ∀ p ∈ kept, IsText p) (one : (responses report).length = 1) :
      Discarding c chunks c' report
  | ended {c' : UdsConn} {report : List (UdsEvent F)} (ended : c'.ended = true) :
      Discarding c chunks c' report
  | twice {c' : UdsConn} {report : List (UdsEvent F)} (two : 2 ≤ (responses report).length) :
      Discarding c chunks c' report

omit [JsonText F] in
theorem two_responses {report now : List (UdsEvent F)} (before : (responses report).length = 1)
    (after : (responses now).length = 1) : 2 ≤ (responses (report ++ now)).length := by
  rw [responses_append, List.length_append, before, after]

/-- The unread part is taken for a line: it ends the connection or is answered, unless it is blank. -/
theorem discarding_within {c' c'' : UdsConn} {turn : UdsTurn F} {report now : List (UdsEvent F)}
    {kept : List (List UInt8)} (nonempty : [] ∉ chunks)
    (notBlank : ¬ BlankPastLimit (linePieces isNewline chunks))
    (reader : c'.reader = arrivals (chunks.drop kept.length))
    (split : linePieces isNewline chunks = kept ++ unreadPieces (linePieces isNewline chunks))
    (left : unreadPieces (linePieces isNewline chunks) ≠ [])
    (texts : ∀ p ∈ kept, IsText p) (one : (responses report).length = 1)
    (moved : (udsConn F token).step c' turn = some (c'', now)) :
    Discarding c chunks c'' (report ++ now) := by
  obtain ⟨rfl, rfl⟩ := uds_step moved
  obtain ⟨piece, more, unread⟩ := List.exists_cons_of_ne_nil left
  have part := split
  rw [unread] at part
  obtain ⟨pieces, -⟩ := linePieces_drop part
  have nonempty' : [] ∉ chunks.drop kept.length := fun no => nonempty (List.mem_of_mem_drop no)
  have reads := readLineCapped_chunks _ nonempty' 0 "" (Nat.zero_le _)
  rw [← reader] at reads
  generalize readLineCapped c'.reader 0 "" = result at reads
  cases reads with
  | @whole text bytes texts' short =>
      rw [pieces, ← unread] at bytes texts'
      rw [Nat.zero_add] at short
      rw [Nat.zero_add, String.empty_append]
      have asks : trim text ≠ "" := by
        intro blank
        refine notBlank ⟨?_, bytes ▸ short, fun other same => ?_⟩
        · rw [split]
          exact List.forall_mem_append.mpr ⟨texts, texts'⟩
        · rw [utf8_injective (same.trans bytes.symm)]
          exact blank
      cases size : (utf8 text).length with
      | zero => exact .ended rfl
      | succ k =>
          dsimp only
          obtain ⟨resp, answered⟩ := handle_asks { c' with reader := _ } turn k asks
          generalize UdsConn.handle token _ turn (.line (k + 1) text) = handled at answered ⊢
          exact .twice (two_responses one (congrArg List.length answered))
  | @stops kept' more' piece' read' _ _ _ reason =>
      split_ifs at reason
      · rw [reason]
        exact .twice (two_responses one rfl)
      · rw [reason.2]
        exact .ended rfl

theorem discarding_run {c' : UdsConn} {turns : List (UdsTurn F)} {report : List (UdsEvent F)}
    (nonempty : [] ∉ chunks) (reader : c.reader = arrivals chunks)
    (long : MAX_LINE_BYTES < (linePieces isNewline chunks).flatten.length)
    (notBlank : ¬ BlankPastLimit (linePieces isNewline chunks))
    (ran : (udsConn F token).Run StepSystem.Always c turns c' report) :
    Discarding c chunks c' report := by
  refine ran.invariant .before fun c₁ report turn c₂ now at₁ _ moved => ?_
  cases at₁ with
  | before =>
      obtain ⟨rfl, rfl⟩ := uds_step moved
      rw [List.nil_append]
      rw [reader]
      rcases readLineCapped_long nonempty long with ⟨e, rest, read, -⟩ |
        ⟨n, kept, read, texts, split, left⟩
      · rw [read]
        exact .ended rfl
      · rw [read]
        exact .within kept rfl split left texts rfl
  | within kept stands split left texts one =>
      exact discarding_within nonempty notBlank stands split left texts one moved
  | ended ended =>
      rw [udsConn_step_ended ended] at moved
      cases moved
  | twice two =>
      refine .twice (two.trans ?_)
      rw [responses_append, List.length_append]
      exact Nat.le_add_right _ _

/-- Otherwise the unread part of the line is in the way. -/
theorem blank_of_discardsLine (nonempty : [] ∉ chunks) (reader : c.reader = arrivals chunks)
    (long : MAX_LINE_BYTES < (linePieces isNewline chunks).flatten.length)
    (discards : DiscardsLine F token c (arrivals (laterChunks isNewline chunks))) :
    BlankPastLimit (linePieces isNewline chunks) := by
  by_contra notBlank
  obtain ⟨n, rounds⟩ := discards
  obtain ⟨c', report, ran, next, going, -, answered, -⟩ :=
    rounds (List.replicate n ⟨⟨.ok (.text "ok"), .null⟩, true⟩) List.length_replicate
      fun turn mem => (List.eq_of_mem_replicate mem) ▸ rfl
  cases discarding_run nonempty reader long notBlank ran with
  | before => cases answered
  | within kept stands split left texts one =>
      obtain ⟨piece, more, unread⟩ := List.exists_cons_of_ne_nil left
      rw [unread] at split
      obtain ⟨pieces, after⟩ := linePieces_drop split
      have same : chunks.drop kept.length = laterChunks isNewline chunks :=
        List.map_injective_iff.mpr (fun _ _ eq => Arrival.chunk.inj eq) (stands.symm.trans next)
      have joined := flatten_append_laterChunks isNewline (chunks.drop kept.length)
      rw [pieces, after, same, List.flatten_cons] at joined
      have none : piece = [] := by
        have size := congrArg List.length joined
        rw [List.length_append, List.length_append] at size
        exact List.eq_nil_of_length_eq_zero (by omega)
      exact (linePieces_nonempty isNewline nonempty).1
        (split ▸ List.mem_append_right _ (none ▸ List.mem_cons_self))
  | ended ended =>
      rw [ended] at going
      cases going
  | twice two =>
      rw [answered] at two
      exact absurd two (Nat.not_succ_le_self 1)

/-- From a connection that is about to read a line that is too long: the line is discarded as a
whole exactly if it is text, and what is left unread of it is blank and not too long. -/
theorem oversized_line_discarded_iff (token : String) (c : UdsConn) (chunks : List (List UInt8))
    (nonempty : [] ∉ chunks) (reader : c.reader = arrivals chunks) (going : c.ended = false)
    (long : MAX_LINE_BYTES < (firstLine isNewline chunks.flatten).length) :
    DiscardsLine F token c (arrivals (laterChunks isNewline chunks)) ↔
      BlankPastLimit (linePieces isNewline chunks) := by
  rw [← (flatten_linePieces isNewline chunks).1] at long
  exact ⟨blank_of_discardsLine nonempty reader long,
    discardsLine_of_blank nonempty reader going long⟩

end Oversized

/-! ### A line just beyond the limit -/

/-- A line of `MAX_LINE_BYTES` letters, in chunks as a `BufReader` has them, and its end. -/
def longLine (ending : List UInt8) : List (List UInt8) :=
  List.replicate 1024 (List.replicate 8192 97) ++ [ending]

section LongLine

variable (ending : List UInt8)

theorem isText_letters (n : Nat) : IsText (List.replicate n 97) := by
  refine isText_iff.mpr ⟨String.ofList (List.replicate n 'a'), ?_⟩
  rw [utf8_eq_flatMap, String.toList_ofList]
  have letter : String.utf8EncodeChar 'a' = [97] := by decide
  induction n with
  | zero => rfl
  | succ n ih =>
      rw [List.replicate_succ, List.flatMap_cons, ih, letter]
      rfl

theorem flatten_letters : (List.replicate 1024 (List.replicate 8192 (97 : UInt8))).flatten.length =
    MAX_LINE_BYTES := by
  rw [List.length_flatten, List.map_replicate, List.length_replicate, List.sum_replicate]
  rfl

theorem linePieces_longLine (closed : linePieces isNewline [ending] = [ending]) :
    linePieces isNewline (longLine ending) = longLine ending := by
  unfold longLine
  have goesOn : ∀ chunk ∈ List.replicate 1024 (List.replicate 8192 (97 : UInt8)), ∀ a ∈ chunk,
      isNewline a = false := by
    intro chunk mem a inChunk
    rw [List.eq_of_mem_replicate mem] at inChunk
    rw [List.eq_of_mem_replicate inChunk]
    rfl
  rw [(linePieces_append goesOn [ending]).1, closed]

theorem unreadPieces_longLine (nonempty : ending ≠ []) :
    unreadPieces (longLine ending) = [ending] := by
  unfold unreadPieces longLine
  have some : 0 < ending.length := List.length_pos_iff.mpr nonempty
  rw [splitAtLimit_eq (by rw [flatten_letters]; omega) (by rw [flatten_letters]; omega)]

theorem longLine_long (nonempty : ending ≠ []) :
    MAX_LINE_BYTES < (longLine ending).flatten.length := by
  have some : 0 < ending.length := List.length_pos_iff.mpr nonempty
  unfold longLine
  rw [List.flatten_append, List.length_append, flatten_letters, List.flatten_cons,
    List.flatten_nil, List.append_nil]
  omega

theorem longLine_nonempty (nonempty : ending ≠ []) : [] ∉ longLine ending := by
  intro mem
  rcases List.mem_append.mp mem with letters | last
  · have no := List.eq_of_mem_replicate letters
    exact absurd (congrArg List.length no) (by rw [List.length_replicate]; decide)
  · exact nonempty (List.mem_singleton.mp last).symm

end LongLine

/-- A line that only blanks make too long is discarded. -/
theorem blank_end_discarded : DiscardsLine Fixed "" ⟨arrivals (longLine [32, 10]), true, false⟩
    (arrivals (laterChunks isNewline (longLine [32, 10]))) := by
  have pieces := linePieces_longLine [32, 10] (by decide)
  have unread := unreadPieces_longLine [32, 10] (by decide)
  have long : MAX_LINE_BYTES < (firstLine isNewline (longLine [32, 10]).flatten).length := by
    rw [← (flatten_linePieces isNewline _).1, pieces]
    exact longLine_long _ (by decide)
  refine (oversized_line_discarded_iff "" _ _ (longLine_nonempty _ (by decide)) rfl rfl long).mpr ?_
  unfold BlankPastLimit
  rw [pieces, unread]
  refine ⟨fun p mem => ?_, by decide, fun text bytes => ?_⟩
  · rcases List.mem_append.mp mem with letters | last
    · rw [List.eq_of_mem_replicate letters]
      exact isText_letters 8192
    · rw [List.mem_singleton.mp last]
      exact isText_iff.mpr ⟨" \n", by decide⟩
  · have same : utf8 " \n" = utf8 text := bytes.symm ▸ (by decide)
    rw [← utf8_injective same]
    decide +kernel

/-- What goes beyond the limit is taken for a line of its own. -/
theorem rest_of_line_answered : ¬ ∀ (token : String) (c : UdsConn) (chunks : List (List UInt8)),
    [] ∉ chunks → c.reader = arrivals chunks → c.ended = false →
      MAX_LINE_BYTES < (firstLine isNewline chunks.flatten).length →
        DiscardsLine Fixed token c (arrivals (laterChunks isNewline chunks)) := by
  intro discards
  have pieces := linePieces_longLine [120, 10] (by decide)
  have unread := unreadPieces_longLine [120, 10] (by decide)
  have long : MAX_LINE_BYTES < (linePieces isNewline (longLine [120, 10])).flatten.length := by
    rw [pieces]
    exact longLine_long _ (by decide)
  have nonempty := longLine_nonempty [120, 10] (by decide)
  obtain ⟨-, -, blank⟩ := blank_of_discardsLine nonempty rfl long
    (discards "" ⟨arrivals (longLine [120, 10]), true, false⟩ _ nonempty rfl rfl
      (by rw [← (flatten_linePieces isNewline _).1]; exact long))
  rw [pieces, unread] at blank
  exact absurd (blank "x\n" (by decide)) (by decide +kernel)

end FusionMemory
