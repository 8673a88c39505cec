import FusionMemory.Persist.Store

/-!
Elections (`fm-cluster/src/election.rs`).

Each node holds an `ElectionRuntime` under a mutex. `handleVote` and `refreshLease` run
under it from start to end. A campaign takes it twice: `beginCampaign` opens the term
and votes for the node itself, then the peers are asked one after the other with the
mutex free, and `endCampaign` counts. Instants are milliseconds, and a call is given the
time it is made at.
-/

namespace FusionMemory

/-- `ElectionConfig`. -/
structure ElectionConfig where
  nodes : List String
  selfId : Nat
  heartbeatSecs : Nat
  heartbeatFails : Nat
  clusterToken : Option String
deriving DecidableEq, Repr

namespace ElectionConfig

def quorum (cfg : ElectionConfig) : Nat := cfg.nodes.length / 2 + 1

/-- In milliseconds. -/
def lease (cfg : ElectionConfig) : Nat := cfg.heartbeatSecs * cfg.heartbeatFails * 1000

/-- The addresses of the other nodes, in the order in which a campaign asks them. -/
def peers (cfg : ElectionConfig) : List String :=
  (cfg.nodes.zipIdx.filter fun p => p.2 != cfg.selfId).map Prod.fst

/-- A request with this token is heard. -/
def acceptsToken (cfg : ElectionConfig) (token : String) : Bool :=
  match cfg.clusterToken with
  | some expected => constantTimeEq expected.toUTF8.data.toList token.toUTF8.data.toList
  | none => true

end ElectionConfig

structure VoteRequest where
  term : Nat
  candidateId : Nat
  candidateLastSeq : Int
  token : String
deriving DecidableEq, Repr

structure VoteResponse where
  term : Nat
  granted : Bool
  voterLastSeq : Int
deriving DecidableEq, Repr

inductive ElectionState where
  | follower
  | candidate
  | leader
deriving DecidableEq, Repr

structure ElectionRuntime where
  state : ElectionState
  currentTerm : Nat
  votedFor : Option Nat
  lastHeartbeat : Nat
  lastSeq : Int
deriving DecidableEq, Repr

namespace ElectionRuntime

/-- `ElectionRuntime::default()`, which is what every start of the process begins with. -/
def default (now : Nat) : ElectionRuntime where
  state := .follower
  currentTerm := 0
  votedFor := none
  lastHeartbeat := now
  lastSeq := 0

/-- A term above the node's own is adopted, with a vote to give in it. -/
def adoptTerm (st : ElectionRuntime) (term : Nat) : ElectionRuntime :=
  if term > st.currentTerm then
    { st with currentTerm := term, votedFor := none, state := .follower }
  else st

/-- A response that refuses. -/
def refusal (st : ElectionRuntime) : VoteResponse := ⟨st.currentTerm, false, st.lastSeq⟩

def handleVote (cfg : ElectionConfig) (st : ElectionRuntime) (req : VoteRequest) (localSeq : Int)
    (now : Nat) : VoteResponse × ElectionRuntime :=
  if !cfg.acceptsToken req.token then (st.refusal, st)
  else
    let st := st.adoptTerm req.term
    if req.term < st.currentTerm then (st.refusal, st)
    else if st.votedFor.any fun voted => voted != req.candidateId then (st.refusal, st)
    -- `local_seq` is not looked at here: only the cached `last_seq` is.
    else if req.candidateLastSeq < st.lastSeq then (st.refusal, st)
    else
      let st := { st with
        votedFor := some req.candidateId
        lastHeartbeat := now
        lastSeq := max st.lastSeq localSeq }
      (⟨st.currentTerm, true, st.lastSeq⟩, st)

def refreshLease (st : ElectionRuntime) (seq : Int) (now : Nat) : ElectionRuntime :=
  { st with lastHeartbeat := now, lastSeq := max st.lastSeq seq }

def leaseExpired (cfg : ElectionConfig) (st : ElectionRuntime) (now : Nat) : Bool :=
  if st.state = .leader then false else now - st.lastHeartbeat > cfg.lease

end ElectionRuntime

/-- A campaign between its two critical sections. -/
structure Campaign where
  term : Nat
  request : VoteRequest
  /-- The peers that have not answered; the first is asked now. -/
  peers : List String
  /-- The connection on which the first peer's response is awaited. -/
  waiting : Option Nat
  granted : Nat
deriving DecidableEq, Repr

namespace Campaign

/-- `request_vote` has written its frames on a connection. -/
def ask (c : Campaign) (connection : Nat) : Campaign := { c with waiting := some connection }

/-- The first peer's response, or `none` when the request failed. -/
def count (c : Campaign) (response : Option VoteResponse) : Campaign :=
  { c with
    peers := c.peers.tail
    waiting := none
    granted := if response.any (·.granted) then c.granted + 1 else c.granted }

end Campaign

namespace ElectionRuntime

/-- The term a campaign opens. -/
def nextTerm (st : ElectionRuntime) : Nat := (st.currentTerm + 1) % u64Size

/-- `campaign`, up to where the mutex is released. -/
def beginCampaign (cfg : ElectionConfig) (st : ElectionRuntime) (myLastSeq : Int) :
    Campaign × ElectionRuntime :=
  let st := { st with
    state := .candidate
    currentTerm := st.nextTerm
    votedFor := some cfg.selfId
    lastSeq := max st.lastSeq myLastSeq }
  let request : VoteRequest :=
    { term := st.currentTerm
      candidateId := cfg.selfId
      candidateLastSeq := myLastSeq
      token := cfg.clusterToken.getD "" }
  ({ term := st.currentTerm, request, peers := cfg.peers, waiting := none, granted := 1 }, st)

/-- `campaign`, from where it takes the mutex again: whether it won. -/
def endCampaign (cfg : ElectionConfig) (st : ElectionRuntime) (c : Campaign) (now : Nat) :
    Bool × ElectionRuntime :=
  if c.granted ≥ cfg.quorum then (true, { st with state := .leader, lastHeartbeat := now })
  else (false, { st with state := .follower })

@[simp] theorem endCampaign_currentTerm (cfg : ElectionConfig) (st : ElectionRuntime) (c : Campaign)
    (now : Nat) : (st.endCampaign cfg c now).2.currentTerm = st.currentTerm := by
  unfold endCampaign
  split_ifs <;> rfl

@[simp] theorem endCampaign_votedFor (cfg : ElectionConfig) (st : ElectionRuntime) (c : Campaign)
    (now : Nat) : (st.endCampaign cfg c now).2.votedFor = st.votedFor := by
  unfold endCampaign
  split_ifs <;> rfl

/-! ### What a vote request can do -/

/-- The request passes the checks of its token, of its term and of earlier votes. -/
def eligible (cfg : ElectionConfig) (st : ElectionRuntime) (req : VoteRequest) : Bool :=
  cfg.acceptsToken req.token && decide (st.currentTerm ≤ req.term) &&
    (decide (st.currentTerm < req.term) || !st.votedFor.any fun voted => voted != req.candidateId)

/-- The request passes every check that `handle_vote` makes. -/
def passes (cfg : ElectionConfig) (st : ElectionRuntime) (req : VoteRequest) : Bool :=
  st.eligible cfg req && decide (st.lastSeq ≤ req.candidateLastSeq)

variable {cfg : ElectionConfig} {st : ElectionRuntime} {req : VoteRequest}

/-- A passing request gets the vote. -/
theorem handleVote_passes (ok : st.passes cfg req = true) (localSeq : Int) (now : Nat) :
    (st.handleVote cfg req localSeq now).1.granted = true ∧
      (st.handleVote cfg req localSeq now).2.currentTerm = req.term ∧
      (st.handleVote cfg req localSeq now).2.votedFor = some req.candidateId := by
  simp only [passes, eligible, Bool.and_eq_true, Bool.or_eq_true, decide_eq_true_eq] at ok
  obtain ⟨⟨⟨token, known⟩, free⟩, fresh⟩ := ok
  unfold handleVote adoptTerm
  rw [if_neg (by simp [token])]
  by_cases newer : st.currentTerm < req.term
  · simp [newer, not_lt.mpr fresh]
  · have same : st.currentTerm = req.term := by omega
    have vote : (st.votedFor.any fun voted => voted != req.candidateId) = false := by
      simpa [newer] using free
    simp [same, vote, not_lt.mpr fresh]

/-- Any other request is refused; it can still bring a new term. -/
theorem handleVote_refuses (no : st.passes cfg req = false) (localSeq : Int) (now : Nat) :
    (st.handleVote cfg req localSeq now).1.granted = false ∧
      (st.handleVote cfg req localSeq now).2 =
        if cfg.acceptsToken req.token then st.adoptTerm req.term else st := by
  unfold handleVote
  cases token : cfg.acceptsToken req.token with
  | false => simp [refusal]
  | true =>
      simp only [passes, eligible, token, Bool.true_and, Bool.and_eq_false_iff, Bool.or_eq_false_iff,
        Bool.not_eq_false', decide_eq_false_iff_not, not_le, not_lt] at no
      rw [if_neg (by simp), if_pos rfl]
      dsimp only
      split_ifs with older other stale
      · exact ⟨rfl, rfl⟩
      · exact ⟨rfl, rfl⟩
      · exact ⟨rfl, rfl⟩
      · exfalso
        unfold adoptTerm at older other stale
        split_ifs at older other stale with newer
        · simp only [not_lt] at stale
          rcases no with (old | ⟨notNewer, _⟩) | stale' <;> omega
        · simp only [not_lt] at stale older
          rcases no with (old | ⟨_, taken⟩) | stale'
          · omega
          · exact other taken
          · omega

/-- Only a passing request gets the vote. -/
theorem handleVote_granted_iff (localSeq : Int) (now : Nat) :
    (st.handleVote cfg req localSeq now).1.granted = true ↔ st.passes cfg req = true := by
  constructor
  · intro granted
    by_contra no
    rw [Bool.not_eq_true] at no
    rw [(handleVote_refuses no localSeq now).1] at granted
    cases granted
  · exact fun ok => (handleVote_passes ok localSeq now).1

theorem adoptTerm_currentTerm (st : ElectionRuntime) (term : Nat) :
    (st.adoptTerm term).currentTerm = max st.currentTerm term := by
  unfold adoptTerm
  split_ifs with newer
  · exact (max_eq_right (le_of_lt newer)).symm
  · exact (max_eq_left (not_lt.mp newer)).symm

/-- The term after a vote request: the newer of the two when the token is right. -/
theorem handleVote_currentTerm (localSeq : Int) (now : Nat) :
    (st.handleVote cfg req localSeq now).2.currentTerm =
      if cfg.acceptsToken req.token then max st.currentTerm req.term else st.currentTerm := by
  cases ok : st.passes cfg req with
  | true =>
      rw [(handleVote_passes ok localSeq now).2.1]
      simp only [passes, eligible, Bool.and_eq_true, decide_eq_true_eq] at ok
      rw [if_pos ok.1.1.1, max_eq_right ok.1.1.2]
  | false =>
      rw [(handleVote_refuses ok localSeq now).2, apply_ite currentTerm, adoptTerm_currentTerm]

/-- Within a term, a vote that was given stays. -/
theorem handleVote_votedFor {localSeq : Int} {now : Nat}
    (same : (st.handleVote cfg req localSeq now).2.currentTerm = st.currentTerm) {candidate : Nat}
    (voted : st.votedFor = some candidate) :
    (st.handleVote cfg req localSeq now).2.votedFor = some candidate := by
  cases ok : st.passes cfg req with
  | true =>
      obtain ⟨-, term, vote⟩ := handleVote_passes ok localSeq now
      rw [term] at same
      simp only [passes, eligible, voted, Option.any_some, Bool.and_eq_true, Bool.or_eq_true,
        decide_eq_true_eq, same, lt_irrefl, false_or, Bool.not_eq_true', bne_eq_false_iff_eq] at ok
      rw [vote, ok.1.2]
  | false =>
      have after := (handleVote_refuses ok localSeq now).2
      rw [after] at same ⊢
      split_ifs at same ⊢
      · unfold adoptTerm at same ⊢
        split_ifs at same ⊢ with newer
        · exact absurd same (ne_of_gt newer)
        · exact voted
      · exact voted

end ElectionRuntime

end FusionMemory
