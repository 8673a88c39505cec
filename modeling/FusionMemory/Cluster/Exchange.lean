import FusionMemory.Cluster.LeaderConn

/-!
The exchange of a synchronization, byte by byte (the messages of `sync_once` and of
`Leader::handle_conn` in `fm-cluster/src/transport.rs`).

A follower writes a `Hello` and a `SyncRequest`. The leader takes them off the connection one
after the other, and its answers are what the follower reads. `exchange_eq_ok` says when this
comes to a response, and to which: to the first entries of the leader's log after the
follower's cursor, if the follower is let in and no frame is too long.
-/

namespace FusionMemory

open Lib

variable {F : Type} [FloatArith F] [JsonText F]

/-! ### Messages of the follower -/

def SyncRequest.toJson (req : SyncRequest) : Json F :=
  .obj [("since_seq", .int req.sinceSeq), ("limit", .ofNat req.limit)]

variable (F) in
def Hello.frame (hello : Hello) : Frame := .new .hello (hello.toJson : Json F)

variable (F) in
def SyncRequest.frame (req : SyncRequest) : Frame := .new .syncRequest (req.toJson : Json F)

/-- The `Hello` of `sync_once`. -/
def Follower.hello (f : Follower) : Hello where
  followerLastSeq := f.localLastSeq
  token := f.cfg.clusterToken.getD ""
  epoch := f.cfg.epoch

/-- Its `SyncRequest`. -/
def Follower.request (f : Follower) : SyncRequest where
  sinceSeq := f.localLastSeq
  limit := f.cfg.fetchLimit

/-- The numbers are in the range of their types: an `i64` and a `u64`. -/
structure Hello.Sized (hello : Hello) : Prop where
  seq : hello.followerLastSeq < 9223372036854775808
  epoch : hello.epoch < u64Size

/-- An `i64` and a `usize`. -/
structure SyncRequest.Sized (req : SyncRequest) : Prop where
  seq : req.sinceSeq < 9223372036854775808
  limit : req.limit < u64Size

/-- A frame that the reader takes. -/
def Frame.Fits (F : Type) [FloatArith F] [JsonText F] (frame : Frame) : Prop :=
  (frameBytes F frame).length ≤ MAX_FRAME_LEN

omit [JsonText F] in
theorem asSigned_nat {n : Nat} (fits : n < 9223372036854775808) :
    asSigned (.int n : Json F) = some (n : Int) := by
  rw [asSigned, if_pos]
  omega

omit [JsonText F] in
theorem Hello.fromJson_toJson (f : FiniteFloat F → FiniteFloat F) {hello : Hello}
    (sized : hello.Sized) : fromJson ((hello.toJson : Json F).mapFloat f) = some hello := by
  have epoch : Json.asUnsigned 64 (.ofNat hello.epoch : Json F) = some hello.epoch :=
    Json.asUnsigned_ofNat sized.epoch
  simp only [fromJson, toJson, Json.mapFloat, Json.mapFloatFields_eq, List.map_cons, List.map_nil]
  rw [Json.required_of_mem (by simp) List.mem_cons_self, asSigned_nat sized.seq,
    Json.defaulted_of_mem (by simp) (List.mem_cons_of_mem _ List.mem_cons_self),
    Json.defaulted_of_mem (by simp) (List.mem_cons_of_mem _ (List.mem_cons_of_mem _
      List.mem_cons_self))]
  rw [show (Json.ofNat hello.epoch : Json F).mapFloat f = .ofNat hello.epoch from rfl, epoch]
  rfl

omit [JsonText F] in
theorem SyncQuery.fromJson_toJson (f : FiniteFloat F → FiniteFloat F) {req : SyncRequest}
    (sized : req.Sized) :
    fromJson ((req.toJson : Json F).mapFloat f) = some ⟨req.sinceSeq, req.limit⟩ := by
  have limit : Json.asUnsigned 64 (.ofNat req.limit : Json F) = some req.limit :=
    Json.asUnsigned_ofNat sized.limit
  simp only [fromJson, SyncRequest.toJson, Json.mapFloat, Json.mapFloatFields_eq, List.map_cons,
    List.map_nil]
  rw [Json.required_of_mem (by simp) List.mem_cons_self, asSigned_nat sized.seq,
    Json.required_of_mem (by simp) (List.mem_cons_of_mem _ List.mem_cons_self)]
  rw [show (Json.ofNat req.limit : Json F).mapFloat f = .ofNat req.limit from rfl, limit]
  rfl

theorem decode_hello {hello : Hello} (sized : hello.Sized) :
    (hello.frame F).decodePayload (Hello.fromJson : Json F → Option Hello) = .ok hello := by
  rw [Frame.decodePayload, Hello.frame, Frame.new, JsonText.parse_print, Option.bind_some,
    Hello.fromJson_toJson JsonText.reread sized]

theorem decode_syncRequest {req : SyncRequest} (sized : req.Sized) :
    (req.frame F).decodePayload (SyncQuery.fromJson : Json F → Option SyncQuery) =
      .ok ⟨req.sinceSeq, req.limit⟩ := by
  rw [Frame.decodePayload, SyncRequest.frame, Frame.new, JsonText.parse_print, Option.bind_some,
    SyncQuery.fromJson_toJson JsonText.reread sized]

/-! ### The connection -/

/-- What `read_frame` leaves of a stream when it has taken a frame. -/
def afterFrame (stream : List UInt8) : List UInt8 :=
  stream.drop (LEN_BYTES + fromBeBytes (stream.take LEN_BYTES))

variable (F) in
/-- The bytes that the leader writes, turn after turn, until it closes the connection. -/
def LeaderConfig.written (leader : LeaderConfig) : LeaderConn → List LeaderTurn → List UInt8
  | _, [] => []
  | conn, turn :: rest =>
      match leader.step F conn turn with
      | none => []
      | some (conn, now) =>
          (now.flatMap fun
            | .sent frame => writeFrame F frame
            | .received _ => []) ++ leader.written conn rest

variable (F) in
/-- What a follower gets for its two messages, from a leader with such a log. -/
def exchange (leader : LeaderConfig) (source : Except ClusterError WopTable) (hello : Hello)
    (req : SyncRequest) : Except ClusterError SyncResponse :=
  let stream := writeFrame F (hello.frame F) ++ writeFrame F (req.frame F)
  receiveSyncResponse F (leader.written F .awaitsHello
    [⟨readFrame F stream, source, .ok ()⟩, ⟨readFrame F (afterFrame stream), source, .ok ()⟩])

/-- The leader lets in a follower with this token. -/
def LeaderConfig.LetsIn (leader : LeaderConfig) (token : String) : Prop :=
  leader.clusterToken = some token ∨ leader.clusterToken = none ∧ leader.allowNoToken = true

/-- The answer to a request. -/
def LeaderConfig.answer (leader : LeaderConfig) (log : WopTable) (req : SyncRequest) :
    SyncResponse := ⟨log.listWopSince req.sinceSeq req.limit, leader.epoch⟩

theorem LeaderConfig.entries_answer (leader : LeaderConfig) (log : WopTable) (req : SyncRequest) :
    (leader.answer log req).entries = log.listWopSince req.sinceSeq req.limit := by
  simp only [answer]

def SyncResponse.frame (F : Type) [FloatArith F] [JsonText F] (resp : SyncResponse) : Frame :=
  .new .syncResponse (resp.toJson : Json F)

section Spec

variable [TruncatedText F]

omit [TruncatedText F] in
theorem afterFrame_writeFrame {frame : Frame} (fits : frame.Fits F) (after : List UInt8) :
    afterFrame (writeFrame F frame ++ after) = after := by
  have whole : (frameBytes F frame).length % u32Size = (frameBytes F frame).length :=
    Nat.mod_eq_of_lt (Nat.lt_of_le_of_lt fits (by decide))
  have small : (frameBytes F frame).length < 4294967296 := Nat.lt_of_le_of_lt fits (by decide)
  have header : (toBeBytes (frameBytes F frame).length).length = LEN_BYTES := rfl
  unfold afterFrame writeFrame
  dsimp only
  rw [whole, List.append_assoc, ← header, List.take_left, fromBeBytes_toBeBytes small,
    ← List.append_assoc]
  exact List.drop_left' (by rw [List.length_append])

/-- No frame is read off a frame that is too long. -/
theorem readFrame_writeFrame_eq_ok {frame frame' : Frame} {after : List UInt8}
    (read : readFrame F (writeFrame F frame ++ after) = .ok (some frame')) :
    frame.Fits F ∧ frame' = frame := by
  by_cases fits : frame.Fits F
  · rw [readFrame_fits fits] at read
    exact ⟨fits, (Option.some.inj (Except.ok.inj read)).symm⟩
  · exact absurd read (readFrame_long (not_le.mp fits) after frame')

omit [TruncatedText F] in
theorem handshake_hello_ok_iff {leader : LeaderConfig} {hello : Hello} (sized : hello.Sized) :
    leader.handshake F (hello.frame F) = .ok () ↔ leader.LetsIn hello.token := by
  have kind : (hello.frame F).kind = .hello := rfl
  unfold LeaderConfig.handshake
  rw [if_neg (not_not.mpr kind), decode_hello sized]
  exact authenticate_ok_iff

omit [TruncatedText F] in
theorem serve_syncRequest {leader : LeaderConfig} {turn : LeaderTurn} {log : WopTable}
    {req : SyncRequest} (sized : req.Sized) (source : turn.source = .ok log) :
    leader.serve F turn (req.frame F) =
      (LeaderConfig.afterWrite turn.written, [(leader.answer log req).frame F]) := by
  unfold LeaderConfig.serve
  rw [decode_syncRequest sized, source]
  rfl

/-- The leader answers a follower that it lets in. -/
theorem exchange_of_letsIn {leader : LeaderConfig} {hello : Hello} {req : SyncRequest}
    {log : WopTable} (sized : hello.Sized) (sized' : req.Sized) (fits : (hello.frame F).Fits F)
    (fits' : (req.frame F).Fits F) (letsIn : leader.LetsIn hello.token) :
    exchange F leader (.ok log) hello req =
      receiveSyncResponse F (sendSyncResponse F (leader.answer log req)) := by
  have second : readFrame F (writeFrame F (req.frame F)) = .ok (some (req.frame F)) := by
    have read := readFrame_fits fits' ([] : List UInt8)
    rwa [List.append_nil] at read
  have greeted : leader.step F .awaitsHello ⟨.ok (some (hello.frame F)), .ok log, .ok ()⟩ =
      some (.serves, [.received (hello.frame F)]) := by
    unfold LeaderConfig.step
    dsimp only
    rw [(handshake_hello_ok_iff sized).mpr letsIn]
  have served : leader.step F .serves ⟨.ok (some (req.frame F)), .ok log, .ok ()⟩ =
      some (.serves, [.received (req.frame F), .sent ((leader.answer log req).frame F)]) := by
    unfold LeaderConfig.step
    dsimp only
    rw [serve_syncRequest sized' rfl]
    rfl
  unfold exchange
  dsimp only
  rw [readFrame_fits fits, afterFrame_writeFrame fits, second]
  refine congrArg (receiveSyncResponse F) ?_
  simp only [LeaderConfig.written, greeted, served, List.flatMap_cons, List.flatMap_nil,
    List.nil_append, List.append_nil]
  rfl

omit [TruncatedText F] in
/-- Nothing comes of a connection on which nothing is written. -/
theorem receive_nothing {bytes : List UInt8} {resp : SyncResponse}
    (got : receiveSyncResponse F bytes = .ok resp) : bytes ≠ [] := by
  rintro rfl
  have ended : readFrame F [] = .ok none := rfl
  unfold receiveSyncResponse at got
  rw [ended] at got
  cases got

/-- A follower that gets a response was let in, and has read the two messages' answer. -/
theorem letsIn_of_exchange {leader : LeaderConfig} {hello : Hello} {req : SyncRequest}
    {source : Except ClusterError WopTable} {resp : SyncResponse} (sized : hello.Sized)
    (sized' : req.Sized) (got : exchange F leader source hello req = .ok resp) :
    (hello.frame F).Fits F ∧ (req.frame F).Fits F ∧ leader.LetsIn hello.token ∧
      ∃ log, source = .ok log := by
  unfold exchange at got
  dsimp only at got
  -- A turn that closes the connection or writes nothing would leave the follower without a frame.
  have first : ∃ frame, readFrame F (writeFrame F (hello.frame F) ++ writeFrame F (req.frame F)) =
      .ok (some frame) ∧ leader.handshake F frame = .ok () := by
    by_contra none
    refine receive_nothing got ?_
    cases read : readFrame F (writeFrame F (hello.frame F) ++ writeFrame F (req.frame F)) with
    | error e => rfl
    | ok found =>
        cases found with
        | none => rfl
        | some frame =>
            cases shaken : leader.handshake F frame with
            | error e => simp [LeaderConfig.written, LeaderConfig.step, shaken]
            | ok _ => exact absurd ⟨frame, read, shaken⟩ none
  obtain ⟨frame, read, shaken⟩ := first
  obtain ⟨fits, rfl⟩ := readFrame_writeFrame_eq_ok read
  have greeted : leader.step F .awaitsHello ⟨.ok (some (hello.frame F)), source, .ok ()⟩ =
      some (.serves, [.received (hello.frame F)]) := by
    unfold LeaderConfig.step
    dsimp only
    rw [shaken]
  rw [read, afterFrame_writeFrame fits] at got
  simp only [LeaderConfig.written, greeted, List.flatMap_cons, List.flatMap_nil,
    List.nil_append, List.append_nil] at got
  have second : ∃ frame, readFrame F (writeFrame F (req.frame F)) = .ok (some frame) := by
    by_contra none
    refine receive_nothing got ?_
    cases read : readFrame F (writeFrame F (req.frame F)) with
    | error e => rfl
    | ok found =>
        cases found with
        | none => rfl
        | some frame => exact absurd ⟨frame, read⟩ none
  obtain ⟨frame, read'⟩ := second
  have whole : readFrame F (writeFrame F (req.frame F) ++ []) = .ok (some frame) := by
    rw [List.append_nil, read']
  obtain ⟨fits', rfl⟩ := readFrame_writeFrame_eq_ok whole
  refine ⟨fits, fits', (handshake_hello_ok_iff sized).mp shaken, ?_⟩
  cases source with
  | ok log => exact ⟨log, rfl⟩
  | error e =>
      have refused : leader.serve F ⟨.ok (some (req.frame F)), .error e, .ok ()⟩ (req.frame F) =
          (.closed (.error e), []) := by
        unfold LeaderConfig.serve
        rw [decode_syncRequest sized']
        rfl
      rw [read'] at got
      simp only [LeaderConfig.step, refused] at got
      exact absurd rfl (receive_nothing got)

/-- A follower reads the answer to its request exactly when that fits a frame. -/
theorem receive_answer {leader : LeaderConfig} (epoch : leader.epoch < u64Size) (log : WopTable)
    {req : SyncRequest} (limit : req.limit < u64Size) :
    receiveSyncResponse F (sendSyncResponse F (leader.answer log req)) =
      .ok (leader.answer log req) ↔ ((leader.answer log req).frame F).Fits F := by
  have entries := firstEntries_listWopSince log req.sinceSeq limit
  have sized : ∀ e ∈ (leader.answer log req).entries, e.Sized := by
    intro e mem
    rw [leader.entries_answer] at mem
    exact log.sized e (entries.logged e mem).1
  have received := receive_send (F := F) sized epoch []
  rwa [List.append_nil] at received

/-- A follower gets a response exactly when it is let in, no frame is too long and the log can be
read; and then it gets the first entries of the log after its cursor. -/
theorem exchange_eq_ok {leader : LeaderConfig} {hello : Hello} {req : SyncRequest}
    {source : Except ClusterError WopTable} {resp : SyncResponse} (sized : hello.Sized)
    (sized' : req.Sized) (epoch : leader.epoch < u64Size) :
    exchange F leader source hello req = .ok resp ↔
      (hello.frame F).Fits F ∧ (req.frame F).Fits F ∧ leader.LetsIn hello.token ∧
        ∃ log, source = .ok log ∧ resp = leader.answer log req ∧ (resp.frame F).Fits F := by
  constructor
  · intro got
    obtain ⟨fits, fits', letsIn, log, rfl⟩ := letsIn_of_exchange sized sized' got
    rw [exchange_of_letsIn sized sized' fits fits' letsIn] at got
    have short : ((leader.answer log req).frame F).Fits F := by
      by_contra long
      have unread := readFrame_long (F := F) (not_le.mp long) []
      rw [List.append_nil] at unread
      unfold receiveSyncResponse sendSyncResponse at got
      change (readFrame F (writeFrame F ((leader.answer log req).frame F)) >>= _) = _ at got
      cases read : readFrame F (writeFrame F ((leader.answer log req).frame F)) with
      | error e =>
          rw [read] at got
          cases got
      | ok found =>
          cases found with
          | none =>
              rw [read] at got
              cases got
          | some frame => exact unread frame read
    have read := receive_answer (F := F) epoch log sized'.limit
    rw [read.mpr short] at got
    have same := (Except.ok.inj got).symm
    rw [← same] at short
    exact ⟨fits, fits', letsIn, log, rfl, same, short⟩
  · rintro ⟨fits, fits', letsIn, log, rfl, same, short⟩
    rw [same] at short ⊢
    rw [exchange_of_letsIn sized sized' fits fits' letsIn]
    have read := receive_answer (F := F) epoch log sized'.limit
    exact read.mpr short

end Spec

end FusionMemory
