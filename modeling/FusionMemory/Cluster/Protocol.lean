import FusionMemory.Lib.Bytes
import FusionMemory.Lib.DecimalText
import FusionMemory.Cluster.ReplicationGap

/-!
Frames (`fm-cluster/src/protocol.rs`).

A frame is a length of four bytes and that many bytes of JSON, an object whose payload is
again JSON text. The writer puts down the length modulo `2 ^ 32`; the reader refuses more
than `MAX_FRAME_LEN`. A connection is the bytes that arrive on it before it ends.

`sync_frame_readable_iff` says which answers of a leader its followers can read.
-/

namespace FusionMemory

open Lib

inductive FrameKind where
  | hello
  | syncRequest
  | syncResponse
  | ping
  | pong
  | voteRequest
  | voteResponse
deriving DecidableEq, Repr

namespace FrameKind

def name : FrameKind → String
  | .hello => "hello"
  | .syncRequest => "sync_request"
  | .syncResponse => "sync_response"
  | .ping => "ping"
  | .pong => "pong"
  | .voteRequest => "vote_request"
  | .voteResponse => "vote_response"

def ofName : String → Option FrameKind
  | "hello" => some .hello
  | "sync_request" => some .syncRequest
  | "sync_response" => some .syncResponse
  | "ping" => some .ping
  | "pong" => some .pong
  | "vote_request" => some .voteRequest
  | "vote_response" => some .voteResponse
  | _ => none

@[simp] theorem ofName_name (k : FrameKind) : ofName k.name = some k := by
  cases k <;> rfl

/-- The name that `{:?}` prints. -/
def debug : FrameKind → String
  | .hello => "Hello"
  | .syncRequest => "SyncRequest"
  | .syncResponse => "SyncResponse"
  | .ping => "Ping"
  | .pong => "Pong"
  | .voteRequest => "VoteRequest"
  | .voteResponse => "VoteResponse"

end FrameKind

structure Frame where
  kind : FrameKind
  payload : String
deriving DecidableEq, Repr

def LEN_BYTES : Nat := 4

/-- 16 MiB. -/
def MAX_FRAME_LEN : Nat := 16 * 1024 * 1024

def u32Size : Nat := 4294967296

variable {F : Type} [FloatArith F] [JsonText F]

/-! ### Serializers -/

namespace Frame

variable (F) in
def toJson (frame : Frame) : Json F :=
  .obj [("kind", .str frame.kind.name), ("payload", .str frame.payload)]

def fromJson (j : Json F) : Option Frame := do
  let kind ← j.required 2 0 "kind" fun k => k.asVariant.bind FrameKind.ofName
  let payload ← j.required 2 1 "payload" Json.asString
  return { kind, payload }

/-- `Frame::new`. -/
def new (kind : FrameKind) (payload : Json F) : Frame := ⟨kind, JsonText.print payload⟩

/-- The deserializer's own wording is left out of the error. -/
def decodePayload {α : Type} (decode : Json F → Option α) (frame : Frame) : Except ClusterError α :=
  match (JsonText.parse frame.payload).bind decode with
  | some a => .ok a
  | none => .error (.serde "payload")

end Frame

/-- An `i64`. -/
def asSigned : Json F → Option Int
  | .int i => if -9223372036854775808 ≤ i ∧ i < 9223372036854775808 then some i else none
  | _ => none

namespace WopEntry

/-- The columns `seq` and `at` are an `i64` each. -/
def toJson (e : WopEntry) : Json F :=
  .obj [("seq", .int e.seq), ("op", .str e.op), ("payload", .str e.payload),
    ("at", .int (asI64 e.at))]

/-- A sequence number below 0 stands for 0, which moves no cursor either. -/
def fromJson (j : Json F) : Option WopEntry := do
  let seq ← j.required 4 0 "seq" asSigned
  let op ← j.required 4 1 "op" Json.asString
  let payload ← j.required 4 2 "payload" Json.asString
  let «at» ← j.required 4 3 "at" asSigned
  return { seq := seq.toNat, op, payload, «at» := asU64 «at» }

end WopEntry

namespace SyncResponse

def toJson (resp : SyncResponse) : Json F :=
  .obj [("entries", .arr (resp.entries.map WopEntry.toJson)), ("leader_epoch", .ofNat resp.leaderEpoch)]

def fromJson (j : Json F) : Option SyncResponse := do
  let entries ← j.required 2 0 "entries" (Json.asList WopEntry.fromJson)
  let leaderEpoch ← j.defaulted 2 1 "leader_epoch" 0 (Json.asUnsigned 64)
  return { entries, leaderEpoch }

end SyncResponse

/-! ### Frames on a connection -/

variable (F) in
/-- The text of a frame. -/
def frameBytes (frame : Frame) : List UInt8 := utf8 (JsonText.print (frame.toJson F))

variable (F) in
def writeFrame (frame : Frame) : List UInt8 :=
  let buf := frameBytes F frame
  toBeBytes (buf.length % u32Size) ++ buf

variable (F) in
/-- `None` is the end of the connection, or a length of 0. -/
def readFrame (stream : List UInt8) : Except ClusterError (Option Frame) :=
  if stream.length < LEN_BYTES then .ok none
  else
    let len := fromBeBytes (stream.take LEN_BYTES)
    if len = 0 then .ok none
    else if len > MAX_FRAME_LEN then
      .error (.transport s!"frame len {len} exceeds max {MAX_FRAME_LEN} (possible DoS)")
    else
      let rest := stream.drop LEN_BYTES
      if rest.length < len then .error (.io "early eof")
      else
        match ((fromUtf8 (rest.take len)).bind (JsonText.parse (F := F))).bind Frame.fromJson with
        | some frame => .ok (some frame)
        | none => .error (.serde "frame")

variable (F) in
/-- What the leader writes for a `SyncRequest`. -/
def sendSyncResponse (resp : SyncResponse) : List UInt8 :=
  writeFrame F (.new .syncResponse (resp.toJson : Json F))

variable (F) in
/-- What `sync_once` makes of the leader's bytes. -/
def receiveSyncResponse (stream : List UInt8) : Except ClusterError SyncResponse := do
  match ← readFrame F stream with
  | none => .error (.transport "sync response missing")
  | some frame =>
      if frame.kind ≠ .syncResponse then
        .error (.transport ("expected sync response, got " ++ frame.kind.debug))
      else frame.decodePayload (SyncResponse.fromJson : Json F → Option SyncResponse)

/-! ### Reading back -/

/-- The columns of an entry are in the range of their types. -/
structure WopEntry.Sized (e : WopEntry) : Prop where
  seq : e.seq < 9223372036854775808
  at' : e.at < u64Size

omit [JsonText F] in
theorem WopEntry.fromJson_toJson (f : FiniteFloat F → FiniteFloat F) {e : WopEntry}
    (sized : e.Sized) : fromJson ((e.toJson : Json F).mapFloat f) = some e := by
  have seq : asSigned (.int e.seq : Json F) = some (e.seq : Int) := by
    have bound := sized.seq
    rw [asSigned, if_pos]
    omega
  have at' : asSigned (.int (asI64 e.at) : Json F) = some (asI64 e.at) := by
    rw [asSigned, if_pos (asI64_bounds e.at)]
  simp only [toJson, fromJson, Json.mapFloat, Json.mapFloatFields_eq, List.map_cons, List.map_nil]
  rw [Json.required_of_mem (by simp) List.mem_cons_self, seq,
    Json.required_of_mem (by simp) (List.mem_cons_of_mem _ List.mem_cons_self),
    Json.required_of_mem (by simp) (List.mem_cons_of_mem _ (List.mem_cons_of_mem _
      List.mem_cons_self)),
    Json.required_of_mem (by simp) (List.mem_cons_of_mem _ (List.mem_cons_of_mem _
      (List.mem_cons_of_mem _ List.mem_cons_self))), at']
  simp only [Option.bind_eq_bind, Option.bind_some, Json.asString, Int.toNat_natCast,
    asU64_asI64 sized.at']
  rfl

omit [JsonText F] in
theorem SyncResponse.fromJson_toJson (f : FiniteFloat F → FiniteFloat F) {resp : SyncResponse}
    (sized : ∀ e ∈ resp.entries, e.Sized) (epoch : resp.leaderEpoch < u64Size) :
    fromJson ((resp.toJson : Json F).mapFloat f) = some resp := by
  have entries : Json.asList WopEntry.fromJson
      (.arr (resp.entries.map (Json.mapFloat f ∘ WopEntry.toJson))) = some resp.entries :=
    Json.asList_map fun e mem => WopEntry.fromJson_toJson f (sized e mem)
  have leaderEpoch : Json.asUnsigned 64 (.ofNat resp.leaderEpoch : Json F) = some resp.leaderEpoch :=
    Json.asUnsigned_ofNat epoch
  simp only [fromJson, toJson, Json.mapFloat, Json.mapFloatFields_eq, Json.mapFloatList_eq,
    List.map_cons, List.map_nil, List.map_map]
  rw [Json.required_of_mem (by simp) List.mem_cons_self, entries,
    Json.defaulted_of_mem (by simp) (List.mem_cons_of_mem _ List.mem_cons_self)]
  rw [show (Json.ofNat resp.leaderEpoch : Json F).mapFloat f = .ofNat resp.leaderEpoch from rfl,
    leaderEpoch]
  rfl

omit [JsonText F] in
theorem Frame.fromJson_toJson (f : FiniteFloat F → FiniteFloat F) (frame : Frame) :
    fromJson ((frame.toJson F).mapFloat f) = some frame := by
  simp [toJson, fromJson, Json.mapFloat, Json.required, Json.field, Json.asVariant, Json.asString]

variable (F) in
/-- What the reader makes of a written frame, from its length on. -/
theorem readFrame_writeFrame (frame : Frame) (after : List UInt8) :
    readFrame F (writeFrame F frame ++ after) =
      let len := (frameBytes F frame).length % u32Size
      if len = 0 then .ok none
      else if len > MAX_FRAME_LEN then
        .error (.transport s!"frame len {len} exceeds max {MAX_FRAME_LEN} (possible DoS)")
      else
        match ((fromUtf8 ((frameBytes F frame).take len)).bind
          (JsonText.parse (F := F))).bind Frame.fromJson with
        | some frame => .ok (some frame)
        | none => .error (.serde "frame") := by
  have small : (frameBytes F frame).length % u32Size < 4294967296 := Nat.mod_lt _ (by decide)
  have inside : (frameBytes F frame).length % u32Size ≤ (frameBytes F frame).length := Nat.mod_le _ _
  unfold writeFrame readFrame
  dsimp only
  generalize (frameBytes F frame).length % u32Size = len at small inside
  have header : (toBeBytes len).length = LEN_BYTES := rfl
  have first : ((toBeBytes len ++ frameBytes F frame) ++ after).take LEN_BYTES = toBeBytes len := by
    rw [List.append_assoc, ← header, List.take_left]
  have later : ((toBeBytes len ++ frameBytes F frame) ++ after).drop LEN_BYTES =
      frameBytes F frame ++ after := by
    rw [List.append_assoc, ← header, List.drop_left]
  have total : ¬ ((toBeBytes len ++ frameBytes F frame) ++ after).length < LEN_BYTES := by
    rw [List.length_append, List.length_append, header]
    omega
  have enough : ¬ (frameBytes F frame ++ after).length < len := by
    rw [List.length_append]
    omega
  simp only [total, first, later, fromBeBytes_toBeBytes small, enough, if_false,
    List.take_append_of_le_length inside]

/-- A frame that was cut off is not parsed. -/
theorem parse_cut [TruncatedText F] {frame : Frame} {len : Nat}
    (short : len < (frameBytes F frame).length) :
    (fromUtf8 ((frameBytes F frame).take len)).bind (JsonText.parse (F := F)) = none := by
  cases read : fromUtf8 ((frameBytes F frame).take len) with
  | none => rfl
  | some s =>
      have split : utf8 s ++ (frameBytes F frame).drop len = frameBytes F frame := by
        rw [utf8_of_fromUtf8 read, List.take_append_drop]
      obtain ⟨u, cut, left⟩ := append_of_utf8 split
      refine TruncatedText.parse_truncated _ cut ?_
      rintro rfl
      have empty : ((frameBytes F frame).drop len).length = 0 := by rw [← left]; rfl
      rw [List.length_drop] at empty
      omega

theorem frameBytes_pos [TruncatedText F] (frame : Frame) : 0 < (frameBytes F frame).length := by
  have nonempty : JsonText.print (frame.toJson F) ≠ "" := TruncatedText.print_nonempty _
  have chars : 0 < (JsonText.print (frame.toJson F)).length := by
    rw [Nat.pos_iff_ne_zero]
    intro zero
    exact nonempty (String.length_eq_zero_iff.mp zero)
  exact chars.trans_le (length_le_utf8 _)

/-- A frame that fits is read back. -/
theorem readFrame_fits [TruncatedText F] {frame : Frame}
    (fits : (frameBytes F frame).length ≤ MAX_FRAME_LEN) (after : List UInt8) :
    readFrame F (writeFrame F frame ++ after) = .ok (some frame) := by
  have positive := frameBytes_pos (F := F) frame
  have whole : (frameBytes F frame).length % u32Size = (frameBytes F frame).length :=
    Nat.mod_eq_of_lt (fits.trans_lt (by decide))
  have text : (fromUtf8 (frameBytes F frame)).bind (JsonText.parse (F := F)) =
      some ((frame.toJson F).mapFloat JsonText.reread) := by
    rw [frameBytes, fromUtf8_utf8, Option.bind_some, JsonText.parse_print]
  rw [readFrame_writeFrame]
  dsimp only
  rw [whole, if_neg (Nat.ne_of_gt positive), if_neg (not_lt.mpr fits), List.take_length, text,
    Option.bind_some, Frame.fromJson_toJson]

/-- A longer frame is refused, or taken for a shorter one that is no JSON. -/
theorem readFrame_long [TruncatedText F] {frame : Frame}
    (long : MAX_FRAME_LEN < (frameBytes F frame).length) (after : List UInt8) (frame' : Frame) :
    readFrame F (writeFrame F frame ++ after) ≠ .ok (some frame') := by
  rw [readFrame_writeFrame]
  dsimp only
  split_ifs with zero refused
  · exact fun same => nomatch same
  · exact fun same => nomatch same
  · rw [parse_cut ((not_lt.mp refused).trans_lt long)]
    exact fun same => nomatch same

theorem Frame.decodePayload_new {resp : SyncResponse} (sized : ∀ e ∈ resp.entries, e.Sized)
    (epoch : resp.leaderEpoch < u64Size) :
    (Frame.new .syncResponse (resp.toJson : Json F)).decodePayload
      (SyncResponse.fromJson : Json F → Option SyncResponse) = .ok resp := by
  rw [decodePayload, new, JsonText.parse_print, Option.bind_some,
    SyncResponse.fromJson_toJson JsonText.reread sized epoch]

theorem receive_send [TruncatedText F] {resp : SyncResponse} (sized : ∀ e ∈ resp.entries, e.Sized)
    (epoch : resp.leaderEpoch < u64Size) (after : List UInt8) :
    receiveSyncResponse F (sendSyncResponse F resp ++ after) = .ok resp ↔
      (frameBytes F (.new .syncResponse (resp.toJson : Json F))).length ≤ MAX_FRAME_LEN := by
  unfold receiveSyncResponse sendSyncResponse
  constructor
  · intro received
    by_contra long
    have unread := readFrame_long (not_le.mp long) after
    generalize readFrame F _ = read at received unread
    cases read with
    | error e => cases received
    | ok found =>
        cases found with
        | none => cases received
        | some frame => exact unread frame rfl
  · intro fits
    rw [readFrame_fits fits after]
    exact Frame.decodePayload_new sized epoch

/-- A follower reads the answer to a request exactly when its frame is not longer than
`MAX_FRAME_LEN`. -/
theorem sync_frame_readable_iff [TruncatedText F] {db : Db F} {leaderEpoch : Nat}
    (req : SyncRequest) (sized : ∀ e ∈ db.wopLog, e.Sized) (epoch : leaderEpoch < u64Size)
    (after : List UInt8) :
    receiveSyncResponse F (sendSyncResponse F (db.respond leaderEpoch req) ++ after) =
        .ok (db.respond leaderEpoch req) ↔
      (frameBytes F (.new .syncResponse ((db.respond leaderEpoch req).toJson : Json F))).length ≤
        MAX_FRAME_LEN :=
  receive_send (fun e mem => sized e (List.mem_filter.mp (List.mem_of_mem_take mem)).1) epoch after

/-! ### Long contents -/

/-- The entry is a commit, of a content that fits into a request body. -/
def Committed (e : WopEntry) : Prop :=
  ∃ (item : MemoryItem F) (vector : List F), e.op = "commit" ∧
    e.payload = JsonText.print (CommitEnvelope.mk item (some vector)).toJson ∧
      (utf8 item.content).length ≤ 8 * 1024 * 1024

/-- Escaping makes no text shorter. -/
theorem content_le_payload (item : MemoryItem Fixed) (vector : Option (List Fixed)) :
    item.content.length ≤ (JsonText.print (CommitEnvelope.mk item vector).toJson).length := by
  refine le_trans ?_ (Json.size_le_print _)
  simp only [CommitEnvelope.toJson, MemoryItem.toJson, Json.size, Json.sizeFields]
  omega

theorem payloads_le_frame (resp : SyncResponse) :
    (resp.entries.map fun e => e.payload.length).sum ≤
      (frameBytes Fixed (.new .syncResponse (resp.toJson : Json Fixed))).length := by
  have entries (es : List WopEntry) : (es.map fun e => e.payload.length).sum ≤
      Json.sizeItems (es.map (WopEntry.toJson (F := Fixed))) := by
    induction es with
    | nil => exact Nat.zero_le _
    | cons e rest ih =>
        simp only [List.map_cons, List.sum_cons, Json.sizeItems, WopEntry.toJson, Json.size,
          Json.sizeFields]
        omega
  calc (resp.entries.map fun e => e.payload.length).sum
      ≤ Json.sizeItems (resp.entries.map (WopEntry.toJson (F := Fixed))) := entries resp.entries
    _ ≤ Json.size (resp.toJson : Json Fixed) := by
        simp only [SyncResponse.toJson, Json.size, Json.sizeFields]
        omega
    _ ≤ (Json.print (resp.toJson : Json Fixed)).length := Json.size_le_print _
    _ ≤ Json.size ((Frame.new .syncResponse (resp.toJson : Json Fixed)).toJson Fixed) := by
        simp only [Frame.toJson, Frame.new, Json.size, Json.sizeFields]
        exact Nat.le_trans (Nat.le_add_right _ 0) (Nat.le_add_left _ _)
    _ ≤ (Json.print ((Frame.new .syncResponse (resp.toJson : Json Fixed)).toJson Fixed)).length :=
        Json.size_le_print _
    _ ≤ _ := length_le_utf8 _

/-- A content of `n` letters. The lemmas keep `n` a variable: the text of a long one is never
computed. -/
def letters (n : Nat) : String := String.ofList (List.replicate n 'a')

theorem length_letters (n : Nat) : (letters n).length = n := by
  simp [letters]

theorem length_utf8_letters (n : Nat) : (utf8 (letters n)).length = n := by
  have ascii : ∀ c ∈ List.replicate n 'a', (String.utf8EncodeChar c).length = 1 := by
    intro c mem
    rw [List.eq_of_mem_replicate mem]
    rfl
  rw [utf8_eq_flatMap, List.length_flatMap, letters, String.toList_ofList, List.map_congr_left ascii]
  simp

def longItem (n : Nat) : MemoryItem Fixed := { oldItem with content := letters n }

def longPayload (n : Nat) : String :=
  JsonText.print (CommitEnvelope.mk (longItem n) (some [⟨500000⟩])).toJson

/-- The log of a leader that took three commits of `n` letters each. -/
def threeCommits (n : Nat) : Db Fixed :=
  ((Db.empty.appendWop "commit" (longPayload n) 1000).appendWop "commit" (longPayload n)
    2000).appendWop "commit" (longPayload n) 3000

theorem threeCommits_entries (n : Nat) : ((threeCommits n).respond 0 ⟨0, 256⟩).entries =
    [⟨1, "commit", longPayload n, 1000⟩, ⟨2, "commit", longPayload n, 2000⟩,
      ⟨3, "commit", longPayload n, 3000⟩] := by
  simp [threeCommits, Db.respond, Db.listWopSince, Db.appendWop, Db.empty]

theorem committed_longPayload {n : Nat} (fits : n ≤ 8 * 1024 * 1024) (seq at' : Nat) :
    Committed (F := Fixed) ⟨seq, "commit", longPayload n, at'⟩ :=
  ⟨longItem n, [⟨500000⟩], rfl, rfl, (length_utf8_letters n).trans_le fits⟩

theorem length_longPayload (n : Nat) : n ≤ (longPayload n).length := by
  have escaped : (letters n).length ≤ (longPayload n).length := content_le_payload (longItem n) _
  rwa [length_letters] at escaped

theorem threeCommits_logged {n : Nat} (fits : n ≤ 8 * 1024 * 1024) :
    ∀ e ∈ (threeCommits n).wopLog, e.Sized ∧ Committed (F := Fixed) e := by
  intro e mem
  simp only [threeCommits, Db.appendWop, Db.empty, List.nil_append, List.cons_append,
    List.mem_cons, List.not_mem_nil, or_false] at mem
  rcases mem with rfl | rfl | rfl
  · exact ⟨⟨by simp, by simp [u64Size]⟩, committed_longPayload fits 1 1000⟩
  · exact ⟨⟨by simp, by simp [u64Size]⟩, committed_longPayload fits 2 2000⟩
  · exact ⟨⟨by simp, by simp [u64Size]⟩, committed_longPayload fits 3 3000⟩

/-- Three commits that fit into their request bodies make an answer that nobody reads. -/
theorem threeCommits_unreadable {n : Nat} (fits : n ≤ 8 * 1024 * 1024)
    (long : MAX_FRAME_LEN < 3 * n) :
    ∃ db : Db Fixed, (∀ e ∈ db.wopLog, e.Sized ∧ Committed (F := Fixed) e) ∧
      receiveSyncResponse Fixed (sendSyncResponse Fixed (db.respond 0 ⟨0, 256⟩)) ≠
        .ok (db.respond 0 ⟨0, 256⟩) := by
  have logged := threeCommits_logged fits
  refine ⟨threeCommits n, logged, fun received => ?_⟩
  have sized : ∀ e ∈ ((threeCommits n).respond 0 ⟨0, 256⟩).entries, e.Sized := fun e mem =>
    (logged e (List.mem_filter.mp (List.mem_of_mem_take mem)).1).1
  rw [← List.append_nil (sendSyncResponse Fixed _), receive_send sized (show 0 < u64Size by decide)] at received
  have short := (payloads_le_frame ((threeCommits n).respond 0 ⟨0, 256⟩)).trans received
  have payload := length_longPayload n
  rw [threeCommits_entries] at short
  simp only [List.map_cons, List.map_nil, List.sum_cons, List.sum_nil] at short
  omega

/-- Six million letters are below the limit on a request body, three times as many above
`MAX_FRAME_LEN`. -/
theorem long_commits_unreadable : ¬ ∀ (db : Db Fixed) (leaderEpoch : Nat) (req : SyncRequest),
    (∀ e ∈ db.wopLog, e.Sized ∧ Committed (F := Fixed) e) → leaderEpoch < u64Size →
      receiveSyncResponse Fixed (sendSyncResponse Fixed (db.respond leaderEpoch req)) =
        .ok (db.respond leaderEpoch req) := by
  intro always
  have fits : 6000000 ≤ 8 * 1024 * 1024 := by decide
  have long : MAX_FRAME_LEN < 3 * 6000000 := by decide
  obtain ⟨db, logged, unread⟩ := threeCommits_unreadable fits long
  exact unread (always db 0 ⟨0, 256⟩ logged (by decide))

/-! ### Short contents -/

/-- The longest text of an entry, when each character of its strings is escaped. -/
def entryBound (e : WopEntry) : Nat := 6 * (e.op.length + e.payload.length) + 80

theorem length_entry_le {e : WopEntry} (sized : e.Sized) :
    (Json.printChars (e.toJson : Json Fixed)).length ≤ entryBound e := by
  have op := Json.length_printString_le e.op
  have payload := Json.length_printString_le e.payload
  have seq : (Json.printChars (.int e.seq : Json Fixed)).length ≤ 20 := by
    refine Json.length_printChars_int ?_
    have bound := sized.seq
    omega
  have time : (Json.printChars (.int (asI64 e.at) : Json Fixed)).length ≤ 20 := by
    refine Json.length_printChars_int ?_
    have bounds := asI64_bounds e.at
    omega
  have names : (Json.printString "seq").length + (Json.printString "op").length +
      (Json.printString "payload").length + (Json.printString "at").length +
      (Json.printFields []).length = 19 := by decide +kernel
  rw [WopEntry.toJson]
  simp only [Json.length_printChars_obj, Json.length_printFields_cons, Json.length_printChars_str]
  unfold entryBound
  omega

theorem length_entries_le {entries : List WopEntry} (sized : ∀ e ∈ entries, e.Sized) :
    (Json.printChars (.arr (entries.map WopEntry.toJson) : Json Fixed)).length ≤
      (entries.map fun e => entryBound e + 1).sum + 2 := by
  have items : ∀ {es : List WopEntry}, (∀ e ∈ es, e.Sized) →
      (Json.printItems (es.map (WopEntry.toJson (F := Fixed)))).length ≤
        (es.map fun e => entryBound e + 1).sum + 1 := by
    intro es sized
    induction es with
    | nil => exact Nat.le_refl 1
    | cons e rest ih =>
        have first := length_entry_le (sized e List.mem_cons_self)
        have later := ih fun e' mem => sized e' (List.mem_cons_of_mem _ mem)
        rw [List.map_cons, List.map_cons, List.sum_cons, Json.length_printItems_cons]
        omega
  cases entries with
  | nil => exact Nat.le_refl 2
  | cons e rest =>
      have first := length_entry_le (sized e List.mem_cons_self)
      have later := items fun e' mem => sized e' (List.mem_cons_of_mem _ mem)
      rw [List.map_cons, List.map_cons, List.sum_cons, Json.length_printChars_arr]
      omega

/-- The frame of an answer is at most so long: its text is escaped once more, and a character
takes four bytes at most. -/
theorem frameBytes_le {resp : SyncResponse} (sized : ∀ e ∈ resp.entries, e.Sized)
    (epoch : resp.leaderEpoch < u64Size) :
    (frameBytes Fixed (.new .syncResponse (resp.toJson : Json Fixed))).length ≤
      24 * (resp.entries.map fun e => entryBound e + 1).sum + 2000 := by
  have entries := length_entries_le sized
  have number : (Json.printChars (.ofNat resp.leaderEpoch : Json Fixed)).length ≤ 20 := by
    refine Json.length_printChars_int ?_
    unfold u64Size at epoch
    omega
  have names : (Json.printString "entries").length + (Json.printString "leader_epoch").length +
      (Json.printFields []).length = 22 := by decide +kernel
  have answer : (Json.print (resp.toJson : Json Fixed)).length ≤
      (resp.entries.map fun e => entryBound e + 1).sum + 60 := by
    rw [Json.print, String.length_ofList, SyncResponse.toJson]
    simp only [Json.length_printChars_obj, Json.length_printFields_cons]
    omega
  have escaped := Json.length_printString_le (Json.print (resp.toJson : Json Fixed))
  have names' : (Json.printString "kind").length +
      (Json.printString FrameKind.syncResponse.name).length +
      (Json.printString "payload").length + (Json.printFields []).length = 28 := by decide +kernel
  have text : (Json.print ((Frame.new .syncResponse (resp.toJson : Json Fixed)).toJson Fixed)).length ≤
      6 * (Json.print (resp.toJson : Json Fixed)).length + 40 := by
    rw [Json.print, String.length_ofList]
    change (Json.printChars (.obj [("kind", .str FrameKind.syncResponse.name),
      ("payload", .str (Json.print resp.toJson))])).length ≤ _
    rw [Json.length_printChars_obj, Json.length_printFields_cons, Json.length_printChars_str,
      Json.length_printChars_str]
    omega
  have bytes := length_utf8_le
    (Json.print ((Frame.new .syncResponse (resp.toJson : Json Fixed)).toJson Fixed))
  change (utf8 (Json.print _)).length ≤ _
  omega

theorem length_longPayload_five : (longPayload 5).length ≤ 2000 := by
  change (Json.print _).length ≤ 2000
  rw [Json.print, String.length_ofList]
  decide +kernel

theorem shortPayloads {text : String} (short : text.length ≤ 2000) :
    24 * ([⟨1, "commit", text, 1000⟩, ⟨2, "commit", text, 2000⟩, ⟨3, "commit", text, 3000⟩].map
      fun e : WopEntry => entryBound e + 1).sum + 2000 ≤ MAX_FRAME_LEN := by
  have op : "commit".length = 6 := by decide
  simp only [List.map_cons, List.map_nil, List.sum_cons, List.sum_nil, entryBound, op,
    MAX_FRAME_LEN]
  omega

/-- Three commits of five letters each are read back. -/
theorem sync_frame_readable_iff_threeCommits :
    ((threeCommits 5).respond 0 ⟨0, 256⟩).entries =
        [⟨1, "commit", longPayload 5, 1000⟩, ⟨2, "commit", longPayload 5, 2000⟩,
          ⟨3, "commit", longPayload 5, 3000⟩] ∧
      receiveSyncResponse Fixed (sendSyncResponse Fixed ((threeCommits 5).respond 0 ⟨0, 256⟩) ++ []) =
        .ok ((threeCommits 5).respond 0 ⟨0, 256⟩) := by
  have entries := threeCommits_entries 5
  have sized : ∀ e ∈ (threeCommits 5).wopLog, e.Sized := fun e mem =>
    (threeCommits_logged (by decide) e mem).1
  have fits : (frameBytes Fixed (.new .syncResponse
      (((threeCommits 5).respond 0 ⟨0, 256⟩).toJson : Json Fixed))).length ≤ MAX_FRAME_LEN := by
    refine (frameBytes_le (fun e mem => sized e ?_) (show 0 < u64Size by decide)).trans ?_
    · exact (List.mem_filter.mp (List.mem_of_mem_take mem)).1
    · rw [entries]
      exact shortPayloads length_longPayload_five
  exact ⟨entries, (sync_frame_readable_iff ⟨0, 256⟩ sized (by decide) []).mpr fits⟩

end FusionMemory
