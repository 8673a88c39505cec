import FusionMemory.Lib.Chunks
import FusionMemory.Server.UdsConn

/-!
How the lines that are read depend on the chunks they arrive in (`read_line_capped` of
`fm-server/src/uds.rs`).

Each chunk is decoded alone, and the length is checked before, so a line is read as a whole if
its pieces are texts and it is not too long; otherwise the reader stops before the first piece
that goes too far or is no text (`readLineCapped_chunks`).
`line_reading_chunking_iff` says when the lines are read as from a stream that arrives at once.
-/

namespace FusionMemory

open Lib

/-! ### Texts -/

/-- The bytes are UTF-8. -/
def IsText (bytes : List UInt8) : Prop := (fromUtf8 bytes).isSome = true

instance : DecidablePred IsText := fun bytes =>
  inferInstanceAs (Decidable ((fromUtf8 bytes).isSome = true))

theorem isText_iff {bytes : List UInt8} : IsText bytes ↔ ∃ s, utf8 s = bytes := by
  constructor
  · intro valid
    obtain ⟨s, decoded⟩ := Option.isSome_iff_exists.mp valid
    exact ⟨s, utf8_of_fromUtf8 decoded⟩
  · rintro ⟨s, rfl⟩
    unfold IsText
    rw [fromUtf8_utf8]
    rfl

theorem isText_flatten {pieces : List (List UInt8)} (texts : ∀ p ∈ pieces, IsText p) :
    IsText pieces.flatten := by
  induction pieces with
  | nil => exact isText_iff.mpr ⟨"", rfl⟩
  | cons p rest ih =>
      obtain ⟨s, rfl⟩ := isText_iff.mp (texts p List.mem_cons_self)
      obtain ⟨t, joined⟩ := isText_iff.mp (ih fun q mem => texts q (List.mem_cons_of_mem _ mem))
      exact isText_iff.mpr ⟨s ++ t, by rw [utf8_append, joined, List.flatten_cons]⟩

theorem utf8_injective {s t : String} (same : utf8 s = utf8 t) : s = t := by
  have decoded := congrArg fromUtf8 same
  rw [fromUtf8_utf8, fromUtf8_utf8] at decoded
  exact Option.some.inj decoded

/-! ### One line -/

/-- The reader of a connection on which these chunks arrive. -/
def arrivals (chunks : List (List UInt8)) : BufReader := chunks.map .chunk

/-- The stream arrives at once. -/
def atOnce (stream : List UInt8) : BufReader := arrivals (chunkOf stream)

theorem leaveBytes_arrivals (bytes : List UInt8) (chunks : List (List UInt8)) :
    leaveBytes bytes (arrivals chunks) = arrivals (chunkOf bytes ++ chunks) := by
  unfold leaveBytes chunkOf
  split_ifs
  · rfl
  · rfl

/-- What `read_line_capped` returns, after `total` bytes with the text `line`: the line, or the
reason why it stops before one of its pieces. -/
inductive Reads (chunks : List (List UInt8)) (total : Nat) (line : String) :
    LineRead × BufReader → Prop where
  | whole {text : String} (bytes : utf8 text = (linePieces isNewline chunks).flatten)
      (texts : ∀ p ∈ linePieces isNewline chunks, IsText p)
      (short : total + (utf8 text).length ≤ MAX_LINE_BYTES) :
      Reads chunks total line
        (.line (total + (utf8 text).length) (line ++ text), arrivals (laterChunks isNewline chunks))
  | stops {kept more : List (List UInt8)} {piece : List UInt8} {read : LineRead}
      (pieces : linePieces isNewline chunks = kept ++ piece :: more)
      (texts : ∀ p ∈ kept, IsText p) (short : total + kept.flatten.length ≤ MAX_LINE_BYTES)
      (reason : if MAX_LINE_BYTES < total + kept.flatten.length + piece.length then
          read = .oversized (total + kept.flatten.length + piece.length)
        else ¬ IsText piece ∧ read = .io "invalid utf-8") :
      Reads chunks total line (read, arrivals (chunks.drop kept.length))

section Reading

variable {chunk : List UInt8} {later : List (List UInt8)} {total : Nat} {line : String}

/-- A chunk that goes too far, or is no text, stays. -/
theorem reads_stop {piece : List UInt8} {more : List (List UInt8)} {read : LineRead}
    (bounded : total ≤ MAX_LINE_BYTES)
    (pieces : linePieces isNewline (chunk :: later) = piece :: more)
    (reason : if MAX_LINE_BYTES < total + piece.length then
        read = .oversized (total + piece.length)
      else ¬ IsText piece ∧ read = .io "invalid utf-8") :
    Reads (chunk :: later) total line (read, arrivals (chunk :: later)) := by
  have split : linePieces isNewline (chunk :: later) = [] ++ piece :: more := pieces
  exact .stops split (fun p mem => (List.not_mem_nil mem).elim) bounded reason

/-- A chunk without a newline, of text, is read, and the line goes on after it. -/
theorem Reads.cons {s : String} {result : LineRead × BufReader}
    (goesOn : chunk.findIdx? isNewline = none) (decoded : utf8 s = chunk)
    (rest : Reads later (total + chunk.length) (line ++ s) result) :
    Reads (chunk :: later) total line result := by
  obtain ⟨pieces, after⟩ := linePieces_open later goesOn
  have text : IsText chunk := isText_iff.mpr ⟨s, decoded⟩
  cases rest with
  | whole bytes texts short =>
      rename_i text'
      have joined : utf8 (s ++ text') = (linePieces isNewline (chunk :: later)).flatten := by
        rw [utf8_append, decoded, bytes, pieces, List.flatten_cons]
      have length : (utf8 (s ++ text')).length = chunk.length + (utf8 text').length := by
        rw [utf8_append, List.length_append, decoded]
      have all : ∀ p ∈ linePieces isNewline (chunk :: later), IsText p := by
        rw [pieces]
        exact List.forall_mem_cons.mpr ⟨text, texts⟩
      have whole : Reads (chunk :: later) total line _ := .whole joined all (by omega)
      rw [length, ← Nat.add_assoc, ← String.append_assoc, after] at whole
      exact whole
  | stops more texts short reason =>
      rename_i kept others piece read
      have sum : (chunk :: kept).flatten.length = chunk.length + kept.flatten.length := by
        rw [List.flatten_cons, List.length_append]
      have split : linePieces isNewline (chunk :: later) = (chunk :: kept) ++ piece :: others := by
        rw [pieces, more, List.cons_append]
      have stops : Reads (chunk :: later) total line
          (read, arrivals ((chunk :: later).drop (chunk :: kept).length)) :=
        .stops split (List.forall_mem_cons.mpr ⟨text, texts⟩) (by omega)
          (by rw [sum, ← Nat.add_assoc]; exact reason)
      exact stops

end Reading

/-- What the reader does with a stream in chunks. -/
theorem readLineCapped_chunks (chunks : List (List UInt8)) (nonempty : [] ∉ chunks) :
    ∀ (total : Nat) (line : String), total ≤ MAX_LINE_BYTES →
      Reads chunks total line (readLineCapped (arrivals chunks) total line) := by
  induction chunks with
  | nil =>
      intro total line bounded
      have read : Reads [] total line (.line (total + (utf8 "").length) (line ++ ""), _) :=
        .whole rfl (fun p mem => (List.not_mem_nil mem).elim) bounded
      rw [String.append_empty] at read
      exact read
  | cons chunk later ih =>
      intro total line bounded
      rw [List.mem_cons, not_or] at nonempty
      cases chunk with
      | nil => exact absurd rfl nonempty.1
      | cons first others =>
      change Reads _ _ _ (readLineCapped (.chunk (first :: others) :: arrivals later) total line)
      unfold readLineCapped
      dsimp only
      cases found : (first :: others).findIdx? isNewline with
      | some idx =>
          obtain ⟨pieces, after⟩ := linePieces_closed later found
          have newline : (first :: others).findIdx? (· == 10) = some idx := found
          rw [newline]
          dsimp only
          split_ifs with long
          · exact reads_stop bounded pieces (by rw [if_pos long])
          cases decoded : fromUtf8 ((first :: others).take (idx + 1)) with
          | none =>
              refine reads_stop bounded pieces ?_
              rw [if_neg long]
              exact ⟨by unfold IsText; rw [decoded]; exact Bool.false_ne_true, rfl⟩
          | some s =>
              have bytes := utf8_of_fromUtf8 decoded
              have joined : utf8 s = (linePieces isNewline ((first :: others) :: later)).flatten := by
                rw [pieces, bytes, List.flatten_cons, List.flatten_nil, List.append_nil]
              have texts : ∀ p ∈ linePieces isNewline ((first :: others) :: later), IsText p := by
                rw [pieces, List.forall_mem_singleton]
                exact isText_iff.mpr ⟨s, bytes⟩
              have whole : Reads ((first :: others) :: later) total line _ :=
                .whole joined texts (by rw [bytes]; exact not_lt.mp long)
              rw [after, ← leaveBytes_arrivals, bytes] at whole
              exact whole
      | none =>
          obtain ⟨pieces, after⟩ := linePieces_open later found
          have newline : (first :: others).findIdx? (· == 10) = none := found
          rw [newline]
          dsimp only
          split_ifs with long
          · exact reads_stop bounded pieces (by rw [if_pos long])
          cases decoded : fromUtf8 (first :: others) with
          | none =>
              refine reads_stop bounded pieces ?_
              rw [if_neg long]
              exact ⟨by unfold IsText; rw [decoded]; exact Bool.false_ne_true, rfl⟩
          | some s =>
              exact .cons found (utf8_of_fromUtf8 decoded)
                (ih nonempty.2 _ _ (not_lt.mp long))

section Line

variable {chunks more : List (List UInt8)} {piece : List UInt8}

/-- A line that is not too long is returned intact if its pieces are texts. -/
theorem readLineCapped_whole_line (nonempty : [] ∉ chunks)
    (short : (linePieces isNewline chunks).flatten.length ≤ MAX_LINE_BYTES)
    (texts : ∀ p ∈ linePieces isNewline chunks, IsText p) :
    ∃ text, utf8 text = (linePieces isNewline chunks).flatten ∧
      readLineCapped (arrivals chunks) 0 "" =
        (.line (utf8 text).length text, arrivals (laterChunks isNewline chunks)) := by
  have reads := readLineCapped_chunks chunks nonempty 0 "" (Nat.zero_le _)
  generalize readLineCapped (arrivals chunks) 0 "" = result at reads
  cases reads with
  | whole bytes _ _ =>
      refine ⟨_, bytes, ?_⟩
      rw [Nat.zero_add, String.empty_append]
  | stops pieces _ _ reason =>
      rw [pieces, List.flatten_append, List.flatten_cons, List.length_append,
        List.length_append] at short
      rw [if_neg (by omega)] at reason
      exact absurd (texts _ (pieces ▸ List.mem_append_right _ List.mem_cons_self)) reason.1

/-- What is returned before a piece that cannot be read at the start of a line. -/
def pieceError (piece : List UInt8) : LineRead :=
  if MAX_LINE_BYTES < piece.length then .oversized piece.length else .io "invalid utf-8"

/-- Before a piece that it cannot read, the reader stays for ever. -/
theorem readLineCapped_stays (nonempty : [] ∉ chunks)
    (pieces : linePieces isNewline chunks = piece :: more)
    (fails : MAX_LINE_BYTES < piece.length ∨ ¬ IsText piece) :
    readLineCapped (arrivals chunks) 0 "" = (pieceError piece, arrivals chunks) := by
  have reads := readLineCapped_chunks chunks nonempty 0 "" (Nat.zero_le _)
  generalize readLineCapped (arrivals chunks) 0 "" = result at reads
  cases reads with
  | whole bytes texts short =>
      rcases fails with long | other
      · rw [bytes, pieces, List.flatten_cons, List.length_append] at short
        omega
      · exact absurd (texts piece (pieces ▸ List.mem_cons_self)) other
  | @stops kept _ _ read pieces' texts short reason =>
      rw [pieces] at pieces'
      cases kept with
      | nil =>
          obtain ⟨rfl, -⟩ := List.cons.inj pieces'
          rw [List.flatten_nil, List.length_nil, Nat.zero_add] at reason
          have same : read = pieceError piece := by
            unfold pieceError
            split_ifs at reason ⊢ with long
            · exact reason
            · exact reason.2
          rw [same]
          rfl
      | cons first kept =>
          obtain ⟨rfl, -⟩ := List.cons.inj pieces'
          rw [List.flatten_cons, List.length_append] at short
          rcases fails with long | other
          · omega
          · exact absurd (texts piece List.mem_cons_self) other

/-- A line that is not too long and has a piece that is no text stops the reader for ever. -/
theorem readLineCapped_io (nonempty : [] ∉ chunks)
    (short : (linePieces isNewline chunks).flatten.length ≤ MAX_LINE_BYTES)
    (broken : ¬ ∀ p ∈ linePieces isNewline chunks, IsText p) :
    ∃ left, readLineCapped (arrivals chunks) 0 "" = (.io "invalid utf-8", arrivals left) ∧
      readLineCapped (arrivals left) 0 "" = (.io "invalid utf-8", arrivals left) := by
  have reads := readLineCapped_chunks chunks nonempty 0 "" (Nat.zero_le _)
  generalize readLineCapped (arrivals chunks) 0 "" = result at reads
  cases reads with
  | whole bytes texts _ => exact absurd texts broken
  | @stops kept more piece read pieces texts _ reason =>
      have sum := congrArg (List.length ∘ List.flatten) pieces
      simp only [Function.comp_apply, List.flatten_append, List.flatten_cons,
        List.length_append] at sum
      rw [if_neg (by omega)] at reason
      have stays := readLineCapped_stays (fun no => nonempty (List.mem_of_mem_drop no))
        (linePieces_drop pieces).1 (.inr reason.1)
      have error : pieceError piece = .io "invalid utf-8" := if_neg (by omega)
      rw [error] at stays
      exact ⟨_, by rw [reason.2], stays⟩

/-- The bytes that are found too many are a part of the line, and the reader stands in it. -/
theorem readLineCapped_oversized {n : Nat} {rest : BufReader} (nonempty : [] ∉ chunks)
    (read : readLineCapped (arrivals chunks) 0 "" = (.oversized n, rest)) :
    ∃ kept piece more, linePieces isNewline chunks = kept ++ piece :: more ∧
      n = kept.flatten.length + piece.length ∧ rest = arrivals (chunks.drop kept.length) := by
  have reads := readLineCapped_chunks chunks nonempty 0 "" (Nat.zero_le _)
  rw [read] at reads
  cases reads with
  | @stops kept more piece _ pieces _ _ reason =>
      refine ⟨kept, piece, more, pieces, ?_, rfl⟩
      split_ifs at reason
      · rw [Nat.zero_add] at reason
        exact LineRead.oversized.inj reason
      · cases reason.2

end Line

/-! ### All lines -/

/-- The results of the next `n` calls of `read_line_capped`, each for a line of its own. -/
def lineReads : Nat → BufReader → List LineRead
  | 0, _ => []
  | n + 1, reader =>
      let (read, rest) := readLineCapped reader 0 ""
      read :: lineReads n rest

/-- The pieces of line `n`. -/
def piecesOfLine (chunks : List (List UInt8)) (n : Nat) : List (List UInt8) :=
  linePieces isNewline ((laterChunks isNewline)^[n] chunks)

/-- A line that is not too long, and is a text. -/
def Readable (line : List UInt8) : Prop := line.length ≤ MAX_LINE_BYTES ∧ IsText line

/-- The line is cut, if at all, between characters; a line that is too long is not cut. -/
def CutHarmlessly (pieces : List (List UInt8)) : Prop :=
  if MAX_LINE_BYTES < pieces.flatten.length then pieces.length ≤ 1
  else IsText pieces.flatten → ∀ p ∈ pieces, IsText p

/-- The lines up to the first that cannot be read are cut harmlessly. -/
def ChunkedHarmlessly (chunks : List (List UInt8)) : Prop :=
  ∀ n, (∀ i < n, Readable (piecesOfLine chunks i).flatten) → CutHarmlessly (piecesOfLine chunks n)

/-- The first `n` results are those of the stream that arrives at once. -/
def ReadAlike (chunks : List (List UInt8)) (n : Nat) : Prop :=
  lineReads n (arrivals chunks) = lineReads n (atOnce chunks.flatten)

section Lines

variable {chunks : List (List UInt8)}

theorem lineReads_stays {reader : BufReader} {read : LineRead}
    (stays : readLineCapped reader 0 "" = (read, reader)) (n : Nat) :
    lineReads n reader = List.replicate n read := by
  induction n with
  | zero => rfl
  | succ n ih =>
      unfold lineReads
      rw [stays]
      exact congrArg (read :: ·) ih

theorem lineReads_succ {reader rest : BufReader} {read : LineRead}
    (step : readLineCapped reader 0 "" = (read, rest)) (n : Nat) :
    lineReads (n + 1) reader = read :: lineReads n rest := by
  rw [lineReads, step]

/-- The line of the stream that arrives at once is the joined line. -/
theorem linePieces_atOnce (chunks : List (List UInt8)) :
    linePieces isNewline (chunkOf chunks.flatten) = chunkOf (linePieces isNewline chunks).flatten ∧
      laterChunks isNewline (chunkOf chunks.flatten) =
        chunkOf (laterChunks isNewline chunks).flatten := by
  obtain ⟨line, rest⟩ := flatten_linePieces isNewline chunks
  obtain ⟨pieces, after⟩ := linePieces_chunkOf isNewline chunks.flatten
  rw [pieces, after, line, rest]
  exact ⟨rfl, rfl⟩

/-- After a line that can be read, and that is cut between characters only, the rest decides. -/
theorem readAlike_readable (nonempty : [] ∉ chunks)
    (readable : Readable (linePieces isNewline chunks).flatten) (n : Nat) :
    ReadAlike chunks (n + 1) ↔ CutHarmlessly (linePieces isNewline chunks) ∧
      ReadAlike (laterChunks isNewline chunks) n := by
  obtain ⟨pieces, after⟩ := linePieces_atOnce chunks
  obtain ⟨text, bytes, whole⟩ := readLineCapped_whole_line (chunkOf_nonempty chunks.flatten)
    (by rw [pieces, flatten_chunkOf]; exact readable.1) (by
      rw [pieces]
      unfold chunkOf
      split_ifs
      · exact fun p mem => (List.not_mem_nil mem).elim
      · exact List.forall_mem_singleton.mpr readable.2)
  rw [pieces, flatten_chunkOf] at bytes
  rw [after] at whole
  unfold CutHarmlessly
  rw [if_neg (not_lt.mpr readable.1)]
  by_cases texts : ∀ p ∈ linePieces isNewline chunks, IsText p
  · obtain ⟨text', bytes', whole'⟩ := readLineCapped_whole_line nonempty readable.1 texts
    obtain rfl : text = text' := utf8_injective (bytes.trans bytes'.symm)
    unfold ReadAlike atOnce
    rw [lineReads_succ whole, lineReads_succ whole', List.cons.injEq]
    exact ⟨fun same => ⟨fun _ => texts, same.2⟩, fun same => ⟨rfl, same.2⟩⟩
  · obtain ⟨left, broken, -⟩ := readLineCapped_io nonempty readable.1 texts
    unfold ReadAlike atOnce
    rw [lineReads_succ whole, lineReads_succ broken, List.cons.injEq]
    constructor
    · rintro ⟨no, -⟩
      cases no
    · exact fun cut => absurd (cut.1 readable.2) texts

/-- A line that is no text ends the results on both sides. -/
theorem readAlike_broken (nonempty : [] ∉ chunks)
    (short : (linePieces isNewline chunks).flatten.length ≤ MAX_LINE_BYTES)
    (broken : ¬ IsText (linePieces isNewline chunks).flatten) (n : Nat) : ReadAlike chunks n := by
  obtain ⟨pieces, -⟩ := linePieces_atOnce chunks
  obtain ⟨left, first, stays⟩ := readLineCapped_io nonempty short
    fun texts => broken (isText_flatten texts)
  obtain ⟨left', first', stays'⟩ := readLineCapped_io (chunkOf_nonempty chunks.flatten)
    (by rw [pieces, flatten_chunkOf]; exact short) (fun texts => by
      have joined := isText_flatten texts
      rw [pieces, flatten_chunkOf] at joined
      exact broken joined)
  cases n with
  | zero => rfl
  | succ n =>
      unfold ReadAlike atOnce
      rw [lineReads_succ first, lineReads_succ first', lineReads_stays stays,
        lineReads_stays stays']

/-- A line that is too long gives the same results only if it is not cut. -/
theorem readAlike_oversized (nonempty : [] ∉ chunks)
    (long : MAX_LINE_BYTES < (linePieces isNewline chunks).flatten.length) :
    (∀ n, ReadAlike chunks n) ↔ CutHarmlessly (linePieces isNewline chunks) := by
  obtain ⟨pieces, -⟩ := linePieces_atOnce chunks
  have line : (linePieces isNewline chunks).flatten ≠ [] := fun empty => by
    rw [empty, List.length_nil] at long
    omega
  rw [show chunkOf (linePieces isNewline chunks).flatten =
    [(linePieces isNewline chunks).flatten] from if_neg line] at pieces
  have stays := readLineCapped_stays (chunkOf_nonempty chunks.flatten) pieces (.inl long)
  rw [show pieceError _ = _ from if_pos long] at stays
  unfold CutHarmlessly
  rw [if_pos long]
  constructor
  · intro same
    have twice := same 2
    unfold ReadAlike atOnce at twice
    obtain ⟨⟨read, rest⟩, step⟩ : ∃ result, readLineCapped (arrivals chunks) 0 "" = result :=
      ⟨_, rfl⟩
    obtain ⟨⟨read', rest'⟩, step'⟩ : ∃ result, readLineCapped rest 0 "" = result := ⟨_, rfl⟩
    rw [lineReads_stays stays, lineReads_succ step, lineReads_succ step'] at twice
    obtain ⟨rfl, second⟩ := List.cons.inj twice
    obtain ⟨rfl, -⟩ := List.cons.inj second
    obtain ⟨kept, piece, more, split, count, rfl⟩ := readLineCapped_oversized nonempty step
    obtain ⟨kept', piece', more', split', count', -⟩ :=
      readLineCapped_oversized (fun no => nonempty (List.mem_of_mem_drop no)) step'
    rw [(linePieces_drop split).1] at split'
    -- Both counts are that of the whole line, so the second call stands at its start.
    have whole := congrArg (List.length ∘ List.flatten) split
    have part := congrArg (List.length ∘ List.flatten) split'
    simp only [Function.comp_apply, List.flatten_append, List.flatten_cons,
      List.length_append] at whole part
    have none : ∀ {rest : List (List UInt8)}, [] ∉ rest → rest.flatten.length = 0 → rest = [] := by
      intro rest full zero
      cases rest with
      | nil => rfl
      | cons p rest =>
          rw [List.flatten_cons, List.length_append] at zero
          have empty : p = [] := List.eq_nil_of_length_eq_zero (by omega)
          exact absurd (empty ▸ List.mem_cons_self) full
    have full : [] ∉ linePieces isNewline chunks := (linePieces_nonempty isNewline nonempty).1
    rw [split, List.mem_append, List.mem_cons, not_or, not_or] at full
    rw [split, none full.1 (by omega), none full.2.2 (by omega)]
    exact Nat.le_refl 1
  · intro uncut
    obtain ⟨piece, one⟩ : ∃ piece, linePieces isNewline chunks = [piece] := by
      cases parts : linePieces isNewline chunks with
      | nil => rw [parts] at line; exact absurd rfl line
      | cons piece more =>
          rw [parts, List.length_cons] at uncut
          obtain rfl := List.eq_nil_of_length_eq_zero (by omega : more.length = 0)
          exact ⟨piece, rfl⟩
    have joined : (linePieces isNewline chunks).flatten = piece := by
      rw [one, List.flatten_cons, List.flatten_nil, List.append_nil]
    rw [joined] at long stays
    have stays' := readLineCapped_stays nonempty one (.inl long)
    rw [show pieceError _ = _ from if_pos long] at stays'
    intro n
    unfold ReadAlike atOnce
    rw [lineReads_stays stays, lineReads_stays stays']

/-- The lines up to the first that cannot be read decide. -/
theorem readAlike_iff (nonempty : [] ∉ chunks) :
    (∀ n, ReadAlike chunks n) ↔ ChunkedHarmlessly chunks := by
  constructor
  · intro same n
    induction n generalizing chunks with
    | zero =>
        intro _
        change CutHarmlessly (linePieces isNewline chunks)
        by_cases short : (linePieces isNewline chunks).flatten.length ≤ MAX_LINE_BYTES
        · by_cases text : IsText (linePieces isNewline chunks).flatten
          · exact ((readAlike_readable nonempty ⟨short, text⟩ 0).mp (same 1)).1
          · unfold CutHarmlessly
            rw [if_neg (not_lt.mpr short)]
            exact fun valid => absurd valid text
        · exact (readAlike_oversized nonempty (not_le.mp short)).mp same
    | succ n ih =>
        intro before
        have first := before 0 (Nat.succ_pos n)
        exact ih (linePieces_nonempty isNewline nonempty).2
          (fun k => ((readAlike_readable nonempty first k).mp (same (k + 1))).2)
          fun i below => before (i + 1) (Nat.succ_lt_succ below)
  · intro harmless n
    induction n generalizing chunks with
    | zero => rfl
    | succ n ih =>
        have first := harmless 0 fun i no => absurd no (Nat.not_lt_zero i)
        change CutHarmlessly (linePieces isNewline chunks) at first
        by_cases short : (linePieces isNewline chunks).flatten.length ≤ MAX_LINE_BYTES
        · by_cases text : IsText (linePieces isNewline chunks).flatten
          · refine (readAlike_readable nonempty ⟨short, text⟩ n).mpr ⟨first, ?_⟩
            refine ih (linePieces_nonempty isNewline nonempty).2 fun k before => harmless (k + 1) ?_
            intro i below
            cases i with
            | zero => exact ⟨short, text⟩
            | succ i => exact before i (Nat.lt_of_succ_lt_succ below)
          · exact readAlike_broken nonempty short text (n + 1)
        · exact (readAlike_oversized nonempty (not_le.mp short)).mpr first (n + 1)

/-- A line that is a text, and not too long, is returned intact exactly if its pieces are texts. -/
theorem intact_iff (nonempty : [] ∉ chunks)
    (readable : Readable (linePieces isNewline chunks).flatten) :
    (∃ text rest, utf8 text = (linePieces isNewline chunks).flatten ∧
      readLineCapped (arrivals chunks) 0 "" = (.line (utf8 text).length text, rest)) ↔
        ∀ p ∈ linePieces isNewline chunks, IsText p := by
  constructor
  · rintro ⟨text, rest, bytes, read⟩
    by_contra broken
    obtain ⟨left, failed, -⟩ := readLineCapped_io nonempty readable.1 broken
    cases read.symm.trans failed
  · intro texts
    obtain ⟨text, bytes, read⟩ := readLineCapped_whole_line nonempty readable.1 texts
    exact ⟨text, _, bytes, read⟩

/-- The results are those of the stream that arrives at once exactly if each line, up to the first
that cannot be read, is cut between characters only, or not at all if it is too long; and a line
that can be read is returned intact exactly if it is cut between characters only. -/
theorem line_reading_chunking_iff (chunks : List (List UInt8)) (nonempty : [] ∉ chunks) :
    ((∀ n, lineReads n (arrivals chunks) = lineReads n (atOnce chunks.flatten)) ↔
      ChunkedHarmlessly chunks) ∧
    (Readable (firstLine isNewline chunks.flatten) →
      ((∃ text rest, utf8 text = firstLine isNewline chunks.flatten ∧
        readLineCapped (arrivals chunks) 0 "" = (.line (utf8 text).length text, rest)) ↔
          ∀ p ∈ linePieces isNewline chunks, IsText p)) := by
  refine ⟨readAlike_iff nonempty, ?_⟩
  rw [← (flatten_linePieces isNewline chunks).1]
  exact intact_iff nonempty

end Lines

/-! ### A cut character -/

/-- A line of one character of two bytes, which arrives in two chunks. -/
def cutCharacter : List (List UInt8) := [[195], [169, 10]]

theorem line_reading_two_chunks :
    ((∀ n, lineReads n (arrivals [[104], [105, 10]]) = lineReads n (atOnce [104, 105, 10])) ↔
      ChunkedHarmlessly [[104], [105, 10]]) ∧
    ∃ text rest, utf8 text = [104, 105, 10] ∧
      readLineCapped (arrivals [[104], [105, 10]]) 0 "" = (.line (utf8 text).length text, rest) := by
  obtain ⟨alike, intact⟩ := line_reading_chunking_iff [[104], [105, 10]] (by decide)
  exact ⟨alike, (intact ⟨by decide, by decide +kernel⟩).mpr (by decide +kernel)⟩

/-- The line is returned when it arrives at once, and is an error when it arrives cut. -/
theorem cut_character_not_read : ¬ ∀ chunks : List (List UInt8), [] ∉ chunks → ∀ n,
    lineReads n (arrivals chunks) = lineReads n (atOnce chunks.flatten) := by
  intro alike
  have first := alike cutCharacter (by decide) 1
  have cut : lineReads 1 (arrivals cutCharacter) = [.io "invalid utf-8"] := by decide +kernel
  have whole : lineReads 1 (atOnce cutCharacter.flatten) = [.line 3 "é\n"] := by decide +kernel
  rw [cut, whole] at first
  cases (List.cons.inj first).1

end FusionMemory
