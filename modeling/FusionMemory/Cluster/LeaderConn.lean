import FusionMemory.Cluster.SyncLoop
import FusionMemory.Lib.DecimalJson

/-!
A connection of the leader (`Leader::handle_conn` of `fm-cluster/src/transport.rs`, and
`list_wop_since` of `fm-persist/src/store.rs`).

The leader takes frames one after the other: first a `Hello`, whose token it checks, then
requests, until one of them is of another kind or something fails. `leaderConn` takes a
frame in each step, with what the log holds then.

`served_after_hello` says what is ever sent, and on which connections.
-/

namespace FusionMemory

open Lib

variable {F : Type} [FloatArith F] [JsonText F]

/-! ### The log -/

/-- The table `wop_log`. Its primary key is an `i64`. -/
structure WopTable where
  rows : List WopEntry
  distinct : (rows.map (·.seq)).Nodup
  sized : ∀ e ∈ rows, e.Sized

namespace WopTable

/-- `WHERE seq > ?1`. -/
def remaining (log : WopTable) (sinceSeq : Int) : List WopEntry :=
  log.rows.filter fun e => decide ((e.seq : Int) > sinceSeq)

/-- `limit` is a `usize`, and a negative `LIMIT` is none. -/
def listWopSince (log : WopTable) (sinceSeq : Int) (limit : Nat) : List WopEntry :=
  let rows := orderBy (fun e => (e.seq : Int)) (log.remaining sinceSeq)
  if asI64 limit < 0 then rows else rows.take (asI64 limit).toNat

end WopTable

/-- The entries are the first that are left after a sequence number, as many as asked for. -/
structure FirstEntries (log : WopTable) (sinceSeq : Int) (limit : Nat) (entries : List WopEntry) :
    Prop where
  length : entries.length = min limit (log.remaining sinceSeq).length
  ascending : entries.Pairwise (·.seq < ·.seq)
  logged : ∀ e ∈ entries, e ∈ log.rows ∧ (e.seq : Int) > sinceSeq
  first : ∀ e ∈ log.rows, (e.seq : Int) > sinceSeq → e ∉ entries → ∀ e' ∈ entries, e'.seq < e.seq

/-! ### Frames -/

/-- A sequence number below 0 stands for 0: it is only logged. -/
def Hello.fromJson (j : Json F) : Option Hello := do
  let followerLastSeq ← j.required 3 0 "follower_last_seq" asSigned
  let token ← j.defaulted 3 1 "token" "" Json.asString
  let epoch ← j.defaulted 3 2 "epoch" 0 (Json.asUnsigned 64)
  return { followerLastSeq := followerLastSeq.toNat, token, epoch }

def Hello.toJson (hello : Hello) : Json F :=
  .obj [("follower_last_seq", .int hello.followerLastSeq), ("token", .str hello.token),
    ("epoch", .ofNat hello.epoch)]

/-- A `SyncRequest` as the leader reads it: an `i64` and a `usize`. -/
structure SyncQuery where
  sinceSeq : Int
  limit : Nat
deriving DecidableEq, Repr

def SyncQuery.fromJson (j : Json F) : Option SyncQuery := do
  let sinceSeq ← j.required 2 0 "since_seq" asSigned
  let limit ← j.required 2 1 "limit" (Json.asUnsigned 64)
  return { sinceSeq, limit }

/-! ### The connection -/

/-- What the leader is configured with, the address apart. -/
structure LeaderConfig where
  clusterToken : Option String
  allowNoToken : Bool
  /-- A `u64`. -/
  epoch : Nat
deriving DecidableEq, Repr

inductive LeaderConn where
  | awaitsHello
  | serves
  | closed (result : Except ClusterError Unit)

/-- What one round of the loop meets: the frame that is read, the log when it is asked, and
how the write goes. -/
structure LeaderTurn where
  read : Except ClusterError (Option Frame)
  source : Except ClusterError WopTable
  written : Except ClusterError Unit

inductive LeaderEvent where
  | received (frame : Frame)
  | sent (frame : Frame)
deriving DecidableEq, Repr

namespace LeaderConfig

/-- The token check, which refuses where nothing is configured. -/
def authenticate (leader : LeaderConfig) (token : String) : Except ClusterError Unit :=
  match leader.clusterToken, leader.allowNoToken with
  | some expected, _ =>
      if !constantTimeEq expected.toUTF8.data.toList token.toUTF8.data.toList then
        .error (.transport "auth: token mismatch")
      else .ok ()
  | none, false => .error .authNotConfigured
  | none, true => .ok ()

variable (F) in
/-- The handshake. The follower's lag is only logged. -/
def handshake (leader : LeaderConfig) (frame : Frame) : Except ClusterError Unit :=
  if frame.kind ≠ .hello then
    .error (.transport ("expected hello, got " ++ frame.kind.debug))
  else do
    let hello ← frame.decodePayload (Hello.fromJson : Json F → Option Hello)
    leader.authenticate hello.token

/-- After `write_frame`. -/
def afterWrite : Except ClusterError Unit → LeaderConn
  | .ok () => .serves
  | .error e => .closed (.error e)

variable (F) in
/-- One frame of a follower that is let in. -/
def serve (leader : LeaderConfig) (turn : LeaderTurn) (frame : Frame) : LeaderConn × List Frame :=
  match frame.kind with
  | .syncRequest =>
      match frame.decodePayload (SyncQuery.fromJson : Json F → Option SyncQuery), turn.source with
      | .error e, _ => (.closed (.error e), [])
      | .ok _, .error e => (.closed (.error e), [])
      | .ok req, .ok log =>
          let resp : SyncResponse := ⟨log.listWopSince req.sinceSeq req.limit, leader.epoch⟩
          (afterWrite turn.written, [.new .syncResponse (resp.toJson : Json F)])
  | .ping => (afterWrite turn.written, [.new .pong (.str "ok" : Json F)])
  | _ => (.closed (.ok ()), [])

variable (F) in
def step (leader : LeaderConfig) (conn : LeaderConn) (turn : LeaderTurn) :
    Option (LeaderConn × List LeaderEvent) :=
  match conn, turn.read with
  | .closed _, _ => none
  | .awaitsHello, .ok (some frame) =>
      match leader.handshake F frame with
      | .ok () => some (.serves, [.received frame])
      | .error e => some (.closed (.error e), [.received frame])
  | .awaitsHello, .ok none => some (.closed (.error (.transport "hello missing")), [])
  | .serves, .ok (some frame) =>
      let (conn, sent) := leader.serve F turn frame
      some (conn, .received frame :: sent.map .sent)
  | .serves, .ok none => some (.closed (.ok ()), [])
  | _, .error e => some (.closed (.error e), [])

end LeaderConfig

variable (F) in
/-- A connection, on frames of any kind and in any order. -/
def leaderConn (leader : LeaderConfig) : StepSystem LeaderConn LeaderTurn LeaderEvent :=
  ⟨leader.step F⟩

/-! ### Range queries -/

section Queries

variable {log : WopTable} {sinceSeq : Int} {limit : Nat}

theorem WopTable.length_remaining (log : WopTable) (sinceSeq : Int) :
    (log.remaining sinceSeq).length ≤ 9223372036854775808 := by
  have few : (log.rows.map (·.seq)).length ≤ (List.range 9223372036854775808).length := by
    refine (List.subperm_of_subset log.distinct fun seq mem => ?_).length_le
    obtain ⟨e, stored, rfl⟩ := List.mem_map.mp mem
    exact List.mem_range.mpr (log.sized e stored).seq
  rw [List.length_map, List.length_range] at few
  exact (List.length_filter_le _ _).trans few

theorem WopTable.ordered (log : WopTable) (sinceSeq : Int) :
    (orderBy (fun e => (e.seq : Int)) (log.remaining sinceSeq)).Pairwise (·.seq < ·.seq) := by
  have sorted : (orderBy (fun e => (e.seq : Int)) (log.remaining sinceSeq)).Pairwise
      (fun a b => (a.seq : Int) ≤ b.seq) := List.pairwise_insertionSort _ _
  have distinct : (orderBy (fun e => (e.seq : Int)) (log.remaining sinceSeq)).Pairwise
      (fun a b => a.seq ≠ b.seq) := by
    rw [← List.pairwise_map (f := WopEntry.seq)]
    have nodup : ((log.remaining sinceSeq).map (·.seq)).Nodup :=
      log.distinct.sublist (List.filter_sublist.map _)
    exact ((orderBy_perm _ _).map _).nodup_iff.mpr nodup
  refine sorted.imp₂ (fun a b le ne => ?_) distinct
  omega

theorem listWopSince_eq (log : WopTable) (sinceSeq : Int) {limit : Nat} (fits : limit < u64Size) :
    log.listWopSince sinceSeq limit =
      (orderBy (fun e => (e.seq : Int)) (log.remaining sinceSeq)).take limit := by
  unfold WopTable.listWopSince
  dsimp only
  rcases Nat.lt_or_ge limit 9223372036854775808 with small | large
  · have same : asI64 limit = limit := by
      unfold asI64
      rw [Int.bmod_def, u64Size]
      split_ifs <;> omega
    rw [same, if_neg (by omega), Int.toNat_natCast]
  · have negative : asI64 limit < 0 := by
      unfold asI64
      unfold u64Size at fits ⊢
      rw [Int.bmod_def]
      split_ifs <;> omega
    rw [if_pos negative, List.take_of_length_le]
    rw [(orderBy_perm _ _).length_eq]
    exact (log.length_remaining sinceSeq).trans large

theorem firstEntries_listWopSince (log : WopTable) (sinceSeq : Int) {limit : Nat}
    (fits : limit < u64Size) :
    FirstEntries log sinceSeq limit (log.listWopSince sinceSeq limit) := by
  have ordered := log.ordered sinceSeq
  have known (e : WopEntry) : e ∈ orderBy (fun e => (e.seq : Int)) (log.remaining sinceSeq) ↔
      e ∈ log.rows ∧ (e.seq : Int) > sinceSeq := by
    rw [mem_orderBy, WopTable.remaining, List.mem_filter, decide_eq_true_eq]
  have count := (orderBy_perm (fun e => (e.seq : Int)) (log.remaining sinceSeq)).length_eq
  rw [listWopSince_eq log sinceSeq fits]
  refine ⟨by rw [List.length_take, count], ordered.sublist (List.take_sublist _ _), ?_, ?_⟩
  · exact fun e mem => (known e).mp (List.mem_of_mem_take mem)
  · intro e stored above out e' mem
    rw [← List.take_append_drop limit (orderBy _ _)] at ordered
    refine (List.pairwise_append.mp ordered).2.2 e' mem e ?_
    have listed := (known e).mpr ⟨stored, above⟩
    rw [← List.take_append_drop limit (orderBy _ _), List.mem_append] at listed
    exact listed.resolve_left out

omit [FloatArith F] [JsonText F] in
/-- The rows of a database whose log stands in order are queried as its table is. -/
theorem listWopSince_db {db : Db F} (rows : log.rows = db.wopLog)
    (ordered : db.wopLog.Pairwise (·.seq < ·.seq)) {since : Nat} (fits : limit < u64Size) :
    log.listWopSince since limit = db.listWopSince since limit := by
  have same : log.remaining since = db.wopLog.filter fun e => e.seq > since := by
    unfold WopTable.remaining
    rw [rows]
    exact List.filter_congr fun e _ => by simp
  have sorted : (log.remaining since).Pairwise fun a b => (a.seq : Int) ≤ b.seq := by
    rw [same]
    exact (ordered.filter _).imp fun less => by omega
  rw [listWopSince_eq log since fits, orderBy, List.Pairwise.insertionSort_eq sorted, same]
  rfl

end Queries

/-! ### What is sent -/

section Connections

variable {leader : LeaderConfig} {frame : Frame} {turn : LeaderTurn}

omit [JsonText F] in
theorem SyncQuery.limit_lt {j : Json F} {req : SyncQuery} (decoded : fromJson j = some req) :
    req.limit < u64Size := by
  simp only [fromJson, Option.bind_eq_bind, Option.bind_eq_some_iff] at decoded
  obtain ⟨since, -, limit, read, same⟩ := decoded
  cases same
  simp only [Json.required, Option.bind_eq_some_iff] at read
  obtain ⟨found, -, value, -, read⟩ := read
  cases value with
  | int i =>
      simp only [Json.asUnsigned, Option.ite_none_right_eq_some, Option.some.injEq] at read
      change limit < u64Size
      unfold u64Size
      omega
  | _ => cases read

theorem authenticate_ok_iff {token : String} :
    leader.authenticate token = .ok () ↔ leader.clusterToken = some token ∨
      leader.clusterToken = none ∧ leader.allowNoToken = true := by
  unfold LeaderConfig.authenticate
  cases leader.clusterToken with
  | none => cases leader.allowNoToken <;> simp
  | some expected =>
      dsimp only
      cases same : constantTimeEq expected.toUTF8.data.toList token.toUTF8.data.toList with
      | true =>
          rw [constantTimeEq_iff] at same
          have equal : expected = token :=
            String.toByteArray_inj.mp (ByteArray.ext (Array.toList_inj.mp same))
          simp [equal]
      | false =>
          have differ : expected ≠ token := by
            rintro rfl
            rw [constantTimeEq_iff.mpr rfl] at same
            cases same
          simp [differ]

variable (F) in
/-- The frame is a `Hello` of a follower that is let in: it has the token, or no token is
configured and none is asked for. -/
def LeaderConfig.Admits (leader : LeaderConfig) (frame : Frame) : Prop :=
  frame.kind = .hello ∧
    ∃ hello, frame.decodePayload (Hello.fromJson : Json F → Option Hello) = .ok hello ∧
      (leader.clusterToken = some hello.token ∨
        leader.clusterToken = none ∧ leader.allowNoToken = true)

variable (F) in
/-- The answers to requests, with the log as it is when it is asked. -/
inductive LeaderConfig.Answers (leader : LeaderConfig) (turn : LeaderTurn) : Frame → Frame → Prop where
  | pong {request : Frame} : request.kind = .ping →
      Answers leader turn request (.new .pong (.str "ok" : Json F))
  | entries {request : Frame} {req : SyncQuery} {log : WopTable} {entries : List WopEntry} :
      request.kind = .syncRequest →
      request.decodePayload (SyncQuery.fromJson : Json F → Option SyncQuery) = .ok req →
      turn.source = .ok log → FirstEntries log req.sinceSeq req.limit entries →
      Answers leader turn request
        (.new .syncResponse (SyncResponse.toJson ⟨entries, leader.epoch⟩ : Json F))

theorem handshake_ok_iff : leader.handshake F frame = .ok () ↔ leader.Admits F frame := by
  unfold LeaderConfig.handshake LeaderConfig.Admits
  by_cases kind : frame.kind = .hello
  · rw [if_neg (not_not.mpr kind)]
    cases decoded : frame.decodePayload (Hello.fromJson : Json F → Option Hello) with
    | error e =>
        constructor
        · intro no
          cases no
        · rintro ⟨-, hello, no, -⟩
          cases no
    | ok hello =>
        refine authenticate_ok_iff.trans ⟨fun known => ⟨kind, hello, rfl, known⟩, ?_⟩
        rintro ⟨-, hello', same, known⟩
        cases same
        exact known
  · rw [if_pos kind]
    constructor
    · intro no
      cases no
    · exact fun both => absurd both.1 kind

theorem answers_of_serve {reply : Frame} (sent : reply ∈ (leader.serve F turn frame).2) :
    leader.Answers F turn frame reply := by
  unfold LeaderConfig.serve at sent
  cases kind : frame.kind with
  | syncRequest =>
      rw [kind] at sent
      dsimp only at sent
      cases decoded : frame.decodePayload (SyncQuery.fromJson : Json F → Option SyncQuery) with
      | error e =>
          rw [decoded] at sent
          cases sent
      | ok req =>
          cases source : turn.source with
          | error e =>
              rw [decoded, source] at sent
              cases sent
          | ok log =>
              rw [decoded, source] at sent
              rw [List.mem_singleton.mp sent]
              have fits : req.limit < u64Size := by
                unfold Frame.decodePayload at decoded
                split at decoded
                · rename_i found
                  obtain ⟨j, -, read⟩ := Option.bind_eq_some_iff.mp found
                  cases decoded
                  exact SyncQuery.limit_lt read
                · cases decoded
              exact .entries kind decoded source (firstEntries_listWopSince log req.sinceSeq fits)
  | ping =>
      rw [kind] at sent
      rw [List.mem_singleton.mp sent]
      exact .pong kind
  | _ =>
      rw [kind] at sent
      cases sent

/-- No request leads back to the handshake. -/
theorem serve_ne_awaitsHello : (leader.serve F turn frame).1 ≠ .awaitsHello := by
  have written : LeaderConfig.afterWrite turn.written ≠ .awaitsHello := by
    cases turn.written <;> exact fun no => by cases no
  unfold LeaderConfig.serve
  split
  · split
    · exact fun no => by cases no
    · exact fun no => by cases no
    · exact written
  · exact written
  · exact fun no => by cases no

/-- A connection that is served began with a `Hello` that was let in. -/
def LeaderConn.Begun (F : Type) [FloatArith F] [JsonText F] (leader : LeaderConfig)
    (conn : LeaderConn) (report : List LeaderEvent) : Prop :=
  match conn with
  | .awaitsHello => report = []
  | .serves => ∃ hello rest, report = .received hello :: rest ∧ leader.Admits F hello
  | .closed _ => True

/-- What one step can do: the connection begins, goes on, or is closed. -/
theorem leader_step_cases {conn conn' : LeaderConn} {now : List LeaderEvent}
    (moved : leader.step F conn turn = some (conn', now)) :
    (∃ hello, conn = .awaitsHello ∧ conn' = .serves ∧ now = [.received hello] ∧
      leader.Admits F hello) ∨
    (∃ request, conn = .serves ∧ turn.read = .ok (some request) ∧
      conn' = (leader.serve F turn request).1 ∧
      now = .received request :: (leader.serve F turn request).2.map .sent) ∨
    ((∃ result, conn' = .closed result) ∧ ∀ frame, .sent frame ∉ now) := by
  unfold LeaderConfig.step at moved
  cases conn with
  | closed result => cases moved
  | awaitsHello =>
      cases read : turn.read with
      | error e =>
          rw [read] at moved
          cases moved
          exact .inr (.inr ⟨⟨_, rfl⟩, by simp⟩)
      | ok found =>
          rw [read] at moved
          cases found with
          | none =>
              cases moved
              exact .inr (.inr ⟨⟨_, rfl⟩, by simp⟩)
          | some frame =>
              dsimp only at moved
              cases shaken : leader.handshake F frame with
              | ok _ =>
                  rw [shaken] at moved
                  cases moved
                  exact .inl ⟨frame, rfl, rfl, rfl, handshake_ok_iff.mp shaken⟩
              | error e =>
                  rw [shaken] at moved
                  cases moved
                  exact .inr (.inr ⟨⟨_, rfl⟩, by simp⟩)
  | serves =>
      cases read : turn.read with
      | error e =>
          rw [read] at moved
          cases moved
          exact .inr (.inr ⟨⟨_, rfl⟩, by simp⟩)
      | ok found =>
          rw [read] at moved
          cases found with
          | none =>
              cases moved
              exact .inr (.inr ⟨⟨_, rfl⟩, by simp⟩)
          | some request =>
              cases moved
              exact .inr (.inl ⟨request, rfl, rfl, rfl, rfl⟩)

theorem LeaderConn.Begun.step {conn conn' : LeaderConn} {report now : List LeaderEvent}
    (begun : conn.Begun F leader report) (moved : leader.step F conn turn = some (conn', now)) :
    conn'.Begun F leader (report ++ now) := by
  rcases leader_step_cases moved with ⟨hello, rfl, rfl, rfl, admitted⟩ |
    ⟨request, rfl, -, next, rfl⟩ | ⟨⟨result, rfl⟩, -⟩
  · have first : report = [] := begun
    rw [first]
    exact ⟨hello, [], rfl, admitted⟩
  · obtain ⟨hello, rest, rfl, admitted⟩ := begun
    cases conn' with
    | awaitsHello => exact absurd next.symm serve_ne_awaitsHello
    | serves => exact ⟨hello, _, rfl, admitted⟩
    | closed result => trivial
  · trivial

/-- Whatever frames arrive, something is sent only on a connection that began with a `Hello`
that was let in, and then it is a `Pong`, or a `SyncResponse` with the first entries of the
log after the sequence number that the request names. -/
theorem served_after_hello {turns : List LeaderTurn} {conn conn' : LeaderConn}
    {report now : List LeaderEvent}
    (ran : (leaderConn F leader).Run StepSystem.Always .awaitsHello turns conn report)
    (moved : (leaderConn F leader).step conn turn = some (conn', now)) (sent : .sent frame ∈ now) :
    (∃ hello rest, report = .received hello :: rest ∧ leader.Admits F hello) ∧
      ∃ request, turn.read = .ok (some request) ∧ leader.Answers F turn request frame := by
  have begun : conn.Begun F leader report :=
    ran.invariant (I := fun conn report => conn.Begun F leader report) rfl
      fun _ _ _ _ _ begun _ moved => begun.step moved
  rcases leader_step_cases moved with ⟨hello, -, -, rfl, -⟩ | ⟨request, rfl, read, -, rfl⟩ |
    ⟨-, silent⟩
  · rw [List.mem_singleton] at sent
    cases sent
  · refine ⟨begun, request, read, answers_of_serve ?_⟩
    rcases List.mem_cons.mp sent with no | sent
    · cases no
    · obtain ⟨reply, served, same⟩ := List.mem_map.mp sent
      cases same
      exact served
  · exact absurd sent (silent frame)

end Connections

/-- A leader with a token, and a follower that has it and asks for entries after 1. -/
def tokenLeader : LeaderConfig := ⟨some "t", false, 3⟩

def twoEntries : WopTable where
  rows := [⟨2, "delete", "b", 2000⟩, ⟨1, "delete", "a", 1000⟩]
  distinct := by decide
  sized e mem := by
    simp only [List.mem_cons, List.not_mem_nil, or_false] at mem
    rcases mem with rfl | rfl
    · exact ⟨by decide, by decide⟩
    · exact ⟨by decide, by decide⟩

def helloFrame : Frame := .new .hello ((⟨1, "t", 0⟩ : Hello).toJson : Json Fixed)

def sinceOne : Frame :=
  .new .syncRequest (.obj [("since_seq", .int 1), ("limit", .int 256)] : Json Fixed)

/-- The second entry. -/
def secondEntry : Frame :=
  .new .syncResponse (SyncResponse.toJson ⟨[⟨2, "delete", "b", 2000⟩], 3⟩ : Json Fixed)

theorem run_helloFrame :
    (leaderConn Fixed tokenLeader).Run StepSystem.Always .awaitsHello
      [⟨.ok (some helloFrame), .ok twoEntries, .ok ()⟩] .serves [.received helloFrame] :=
  .step .start trivial (by rfl)

theorem step_sinceOne :
    (leaderConn Fixed tokenLeader).step .serves ⟨.ok (some sinceOne), .ok twoEntries, .ok ()⟩ =
      some (.serves, [.received sinceOne, .sent secondEntry]) := by
  have decoded : sinceOne.decodePayload (SyncQuery.fromJson : Json Fixed → Option SyncQuery) =
      .ok ⟨1, 256⟩ := by rfl
  have listed : twoEntries.listWopSince 1 256 = [⟨2, "delete", "b", 2000⟩] := by decide
  have served : tokenLeader.serve Fixed ⟨.ok (some sinceOne), .ok twoEntries, .ok ()⟩ sinceOne =
      (.serves, [secondEntry]) := by
    unfold LeaderConfig.serve
    rw [decoded]
    change (LeaderConn.serves, [Frame.new .syncResponse
      (SyncResponse.toJson ⟨twoEntries.listWopSince 1 256, 3⟩ : Json Fixed)]) = _
    rw [listed]
    rfl
  simp only [leaderConn, LeaderConfig.step, served]
  rfl

theorem served_after_hello_second_entry :
    (∃ hello rest, [LeaderEvent.received helloFrame] = .received hello :: rest ∧
        tokenLeader.Admits Fixed hello) ∧
      ∃ request, (.ok (some sinceOne) : Except ClusterError (Option Frame)) = .ok (some request) ∧
        tokenLeader.Answers Fixed ⟨.ok (some sinceOne), .ok twoEntries, .ok ()⟩ request
          secondEntry :=
  served_after_hello run_helloFrame step_sinceOne (by simp)

end FusionMemory
