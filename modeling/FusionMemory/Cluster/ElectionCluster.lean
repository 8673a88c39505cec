import FusionMemory.Cluster.VotePromise

/-!
Elections of a cluster.

The nodes of a cluster share the list of addresses and differ in their index. A campaign
connects to one peer at a time: the request travels to the node that listens on the
peer's address, the response travels back on the same connection, and either can be
late or never arrive. `electionCluster` interleaves these steps freely.

Each node of a run is a run of `electionNode` (`Run.node`), so what a node promises holds
in the cluster too. `Elected` is what a won campaign rests on: a quorum of nodes that
voted for it.
-/

namespace FusionMemory

open Lib

/-- The static membership that every node is configured with. -/
structure Membership where
  nodes : List String
  distinct : nodes.Nodup
  /-- `from_env` starts no election for fewer. -/
  twoNodes : 2 ≤ nodes.length
  heartbeatSecs : Nat → Nat
  heartbeatFails : Nat → Nat
  clusterToken : Nat → Option String

namespace Membership

def config (m : Membership) (i : Nat) : ElectionConfig where
  nodes := m.nodes
  selfId := i
  heartbeatSecs := m.heartbeatSecs i
  heartbeatFails := m.heartbeatFails i
  clusterToken := m.clusterToken i

/-- The node that listens on an address. -/
def listener (m : Membership) (addr : String) : Nat := m.nodes.idxOf addr

end Membership

/-- A vote request on its connection. -/
structure VoteCall where
  connection : Nat
  caller : Nat
  addr : String
  request : VoteRequest
deriving DecidableEq, Repr

structure ElectionCluster where
  nodes : List ElectionNode
  /-- Requests that no listener has handled. -/
  requests : List VoteCall
  /-- Responses that have not reached their campaign. -/
  responses : List (VoteCall × VoteResponse)
  /-- The number of the next connection. -/
  connections : Nat
deriving DecidableEq, Repr

inductive ClusterAction where
  /-- A step of one node that involves no other. -/
  | own (i : Nat) (a : NodeAction)
  /-- A campaign writes its request to the next peer. -/
  | send (i : Nat)
  /-- A listener handles a request, with its log at `localSeq`. -/
  | deliver (k : Nat) (localSeq : Int) (now : Nat)
  /-- A response reaches the campaign that waits for it. -/
  | receive (k : Nat)
  /-- A request fails for the campaign, whatever became of it at the listener. -/
  | fail (i : Nat)
deriving DecidableEq, Repr

/-- The steps that a node takes by itself. -/
def NodeAction.alone : NodeAction → Bool
  | .refreshLease _ _ | .campaign _ | .finish _ | .restart _ => true
  | _ => false

namespace ElectionCluster

/-- All nodes just started. -/
def fresh (m : Membership) (now : Nat) : ElectionCluster where
  nodes := m.nodes.map fun _ => .fresh now
  requests := []
  responses := []
  connections := 0

variable (m : Membership)

/-- One node takes a step. -/
def act (c : ElectionCluster) (i : Nat) (a : NodeAction) :
    Option (ElectionCluster × List (Nat × NodeEvent)) := do
  let n ← c.nodes[i]?
  let (n', now) ← n.step (m.config i) a
  return ({ c with nodes := c.nodes.set i n' }, now.map (i, ·))

def step (c : ElectionCluster) : ClusterAction → Option (ElectionCluster × List (Nat × NodeEvent))
  | .own i a => if a.alone then c.act m i a else none
  | .send i => do
      let n ← c.nodes[i]?
      let campaign ← n.campaign
      let addr ← campaign.peers.head?
      let (c', now) ← c.act m i (.ask c.connections)
      return ({ c' with
        requests := c.requests ++ [⟨c.connections, i, addr, campaign.request⟩]
        connections := c.connections + 1 }, now)
  | .deliver k localSeq at' => do
      let call ← c.requests[k]?
      let n ← c.nodes[m.listener call.addr]?
      let answer := n.runtime.handleVote (m.config (m.listener call.addr)) call.request localSeq at'
      let (c', now) ← c.act m (m.listener call.addr) (.handleVote call.request localSeq at')
      return ({ c' with
        requests := c.requests.eraseIdx k
        responses := c.responses ++ [(call, answer.1)] }, now)
  | .receive k => do
      let (call, response) ← c.responses[k]?
      let n ← c.nodes[call.caller]?
      let campaign ← n.campaign
      if campaign.waiting = some call.connection then
        let (c', now) ← c.act m call.caller (.count (some response))
        return ({ c' with responses := c.responses.eraseIdx k }, now)
      else none
  | .fail i => c.act m i (.count none)

end ElectionCluster

def electionCluster (m : Membership) : StepSystem ElectionCluster ClusterAction (Nat × NodeEvent) :=
  ⟨ElectionCluster.step m⟩

/-! ### What one step does -/

namespace ElectionCluster

variable {m : Membership} {c c' : ElectionCluster} {a : ClusterAction}
  {now : List (Nat × NodeEvent)}

theorem act_eq_some_iff {i : Nat} {a : NodeAction} :
    c.act m i a = some (c', now) ↔ ∃ n n' events, c.nodes[i]? = some n ∧
      n.step (m.config i) a = some (n', events) ∧
      c' = { c with nodes := c.nodes.set i n' } ∧ now = events.map (i, ·) := by
  unfold act
  constructor
  · intro moved
    simp only [Option.bind_eq_bind, Option.bind_eq_some_iff, Option.pure_def] at moved
    obtain ⟨n, found, ⟨n', events⟩, stepped, same⟩ := moved
    cases same
    exact ⟨n, n', events, found, stepped, rfl, rfl⟩
  · rintro ⟨n, n', events, found, stepped, rfl, rfl⟩
    simp [found, stepped]

/-- What a step of node `i` does on the wire. -/
inductive Wire (m : Membership) (c c' : ElectionCluster) (i : Nat) (n : ElectionNode) :
    NodeAction → Prop where
  | alone {b : NodeAction} : b.alone = true → c'.requests = c.requests →
      c'.responses = c.responses → c'.connections = c.connections → Wire m c c' i n b
  | send {campaign : Campaign} {addr : String} : n.campaign = some campaign →
      campaign.peers.head? = some addr →
      c'.requests = c.requests ++ [⟨c.connections, i, addr, campaign.request⟩] →
      c'.responses = c.responses → c'.connections = c.connections + 1 →
      Wire m c c' i n (.ask c.connections)
  | deliver {call : VoteCall} {k : Nat} {localSeq : Int} {at' : Nat} : call ∈ c.requests →
      i = m.listener call.addr → c'.requests = c.requests.eraseIdx k →
      c'.responses = c.responses ++
        [(call, (n.runtime.handleVote (m.config i) call.request localSeq at').1)] →
      c'.connections = c.connections → Wire m c c' i n (.handleVote call.request localSeq at')
  | receive {call : VoteCall} {response : VoteResponse} {campaign : Campaign} {k : Nat} :
      (call, response) ∈ c.responses → i = call.caller → n.campaign = some campaign →
      campaign.waiting = some call.connection → c'.requests = c.requests →
      c'.responses = c.responses.eraseIdx k → c'.connections = c.connections →
      Wire m c c' i n (.count (some response))
  | fail : c'.requests = c.requests → c'.responses = c.responses →
      c'.connections = c.connections → Wire m c c' i n (.count none)

/-- A step of the cluster is a step of one node, with its traffic. -/
theorem step_cases (moved : c.step m a = some (c', now)) :
    ∃ i n b n' events, c.nodes[i]? = some n ∧ n.step (m.config i) b = some (n', events) ∧
      c'.nodes = c.nodes.set i n' ∧ now = events.map (i, ·) ∧ Wire m c c' i n b := by
  cases a with
  | own i b =>
      unfold step at moved
      dsimp only at moved
      split_ifs at moved with alone
      obtain ⟨n, n', events, found, stepped, rfl, same⟩ := act_eq_some_iff.mp moved
      exact ⟨i, n, b, n', events, found, stepped, rfl, same, .alone alone rfl rfl rfl⟩
  | send i =>
      simp only [step, Option.bind_eq_bind, Option.bind_eq_some_iff, Option.pure_def] at moved
      obtain ⟨n, found, campaign, running, addr, first, ⟨_, _⟩, acted, same⟩ := moved
      obtain ⟨n₀, n', events, found', stepped, rfl, rfl⟩ := act_eq_some_iff.mp acted
      cases found.symm.trans found'
      cases same
      exact ⟨i, n, _, n', events, found, stepped, rfl, rfl, .send running first rfl rfl rfl⟩
  | deliver k localSeq at' =>
      simp only [step, Option.bind_eq_bind, Option.bind_eq_some_iff, Option.pure_def] at moved
      obtain ⟨call, waiting, n, found, ⟨_, _⟩, acted, same⟩ := moved
      obtain ⟨n₀, n', events, found', stepped, rfl, rfl⟩ := act_eq_some_iff.mp acted
      cases found.symm.trans found'
      cases same
      exact ⟨_, n, _, n', events, found, stepped, rfl, rfl,
        .deliver (List.mem_of_getElem? waiting) rfl rfl rfl rfl⟩
  | receive k =>
      simp only [step, Option.bind_eq_bind, Option.bind_eq_some_iff, Option.pure_def] at moved
      obtain ⟨⟨call, response⟩, arrived, n, found, campaign, running, moved⟩ := moved
      split_ifs at moved with waits
      simp only [Option.bind_eq_some_iff] at moved
      obtain ⟨⟨_, _⟩, acted, same⟩ := moved
      obtain ⟨n₀, n', events, found', stepped, rfl, rfl⟩ := act_eq_some_iff.mp acted
      cases found.symm.trans found'
      cases same
      exact ⟨_, n, _, n', events, found, stepped, rfl, rfl,
        .receive (List.mem_of_getElem? arrived) rfl running waits rfl rfl rfl⟩
  | fail i =>
      obtain ⟨n, n', events, found, stepped, rfl, same⟩ := act_eq_some_iff.mp moved
      exact ⟨i, n, _, n', events, found, stepped, rfl, same, .fail rfl rfl rfl⟩

end ElectionCluster

/-! ### Each node by itself -/

/-- What node `i` reported. -/
def eventsOf (i : Nat) (report : List (Nat × NodeEvent)) : List NodeEvent :=
  (report.filter fun p => p.1 == i).map Prod.snd

theorem mem_eventsOf {i : Nat} {report : List (Nat × NodeEvent)} {e : NodeEvent} :
    e ∈ eventsOf i report ↔ (i, e) ∈ report := by
  simp [eventsOf]

theorem eventsOf_append (i : Nat) (report now : List (Nat × NodeEvent)) :
    eventsOf i (report ++ now) = eventsOf i report ++ eventsOf i now := by
  simp [eventsOf]

theorem eventsOf_map_self (i : Nat) (events : List NodeEvent) :
    eventsOf i (events.map (i, ·)) = events := by
  simp [eventsOf, List.filter_map, Function.comp_def]

theorem eventsOf_map_ne {i j : Nat} (ne : i ≠ j) (events : List NodeEvent) :
    eventsOf j (events.map (i, ·)) = [] := by
  simp [eventsOf, ne]

theorem nodes_set_cases {nodes : List ElectionNode} {i k : Nat} {n n' x : ElectionNode}
    (found : nodes[i]? = some n) (at' : (nodes.set i n')[k]? = some x) :
    (k ≠ i ∧ nodes[k]? = some x) ∨ (k = i ∧ x = n') := by
  by_cases same : k = i
  · subst same
    have inside : k < nodes.length := (List.getElem?_eq_some_iff.mp found).1
    rw [List.getElem?_set_self inside] at at'
    exact .inr ⟨rfl, (Option.some.inj at').symm⟩
  · rw [List.getElem?_set_ne (Ne.symm same)] at at'
    exact .inl ⟨same, at'⟩

/-- In a run of the cluster every node makes a run of its own. -/
theorem Run.node {m : Membership} {start : Nat} {labels : List ClusterAction} {c : ElectionCluster}
    {report : List (Nat × NodeEvent)} {i : Nat} {n : ElectionNode}
    (ran : (electionCluster m).Run StepSystem.Always (.fresh m start) labels c report)
    (found : c.nodes[i]? = some n) :
    ∃ own, (electionNode (m.config i)).Run StepSystem.Always (.fresh start) own n
      (eventsOf i report) := by
  induction ran generalizing n with
  | start =>
      have same : n = .fresh start := by
        unfold ElectionCluster.fresh at found
        dsimp only at found
        rw [List.getElem?_map] at found
        obtain ⟨_, -, rfl⟩ := Option.map_eq_some_iff.mp found
        rfl
      exact ⟨[], same ▸ .start⟩
  | step before _ moved ih =>
      obtain ⟨j, n₀, b, n', events, was, stepped, nodes, rfl, -⟩ := ElectionCluster.step_cases moved
      rw [nodes] at found
      rcases nodes_set_cases was found with ⟨other, still⟩ | ⟨rfl, rfl⟩
      · obtain ⟨own, run⟩ := ih still
        rw [eventsOf_append, eventsOf_map_ne (Ne.symm other), List.append_nil]
        exact ⟨own, run⟩
      · obtain ⟨own, run⟩ := ih was
        rw [eventsOf_append, eventsOf_map_self]
        exact ⟨own ++ [b], run.step trivial stepped⟩

/-! ### Peers -/

namespace Membership

variable {m : Membership} {i : Nat}

theorem peers_spec {addr : String} (mem : addr ∈ (m.config i).peers) :
    addr ∈ m.nodes ∧ m.listener addr ≠ i := by
  unfold ElectionConfig.peers at mem
  obtain ⟨⟨addr', k⟩, kept, rfl⟩ := List.mem_map.mp mem
  obtain ⟨listed, other⟩ := List.mem_filter.mp kept
  rw [List.mem_zipIdx_iff_getElem?] at listed
  have mem : addr' ∈ m.nodes := List.mem_of_getElem? listed
  refine ⟨mem, ?_⟩
  have inside : k < m.nodes.length := (List.getElem?_eq_some_iff.mp listed).1
  have at' : m.nodes[k] = addr' := (List.getElem?_eq_some_iff.mp listed).2
  have index : m.listener addr' = k := by
    rw [← at']
    exact m.distinct.idxOf_getElem k inside
  rw [index]
  simpa [config] using other

theorem listener_lt {addr : String} (mem : addr ∈ m.nodes) : m.listener addr < m.nodes.length :=
  List.idxOf_lt_length_of_mem mem

theorem peers_nodup (m : Membership) (i : Nat) : (m.config i).peers.Nodup := by
  have sub : (m.config i).peers.Sublist m.nodes := by
    have all : m.nodes.zipIdx.map Prod.fst = m.nodes := List.zipIdx_map_fst _ _
    have kept : (m.config i).peers.Sublist (m.nodes.zipIdx.map Prod.fst) :=
      List.filter_sublist.map _
    rwa [all] at kept
  exact m.distinct.sublist sub

end Membership

/-! ### What a campaign rests on -/

/-- Node `j` granted the request. -/
def GrantedBy (report : List (Nat × NodeEvent)) (request : VoteRequest) (j : Nat) : Prop :=
  ∃ localSeq response, (j, .answered request localSeq response) ∈ report ∧ response.granted = true

theorem GrantedBy.append {report now : List (Nat × NodeEvent)} {request : VoteRequest} {j : Nat}
    (granted : GrantedBy report request j) : GrantedBy (report ++ now) request j := by
  obtain ⟨localSeq, response, mem, yes⟩ := granted
  exact ⟨localSeq, response, List.mem_append_left _ mem, yes⟩

/-- `voters` are nodes of the cluster that voted for the campaign of node `i` with this
request: the node itself, and others that granted the request. -/
structure VotedFor (m : Membership) (report : List (Nat × NodeEvent)) (i : Nat)
    (request : VoteRequest) (voters : Finset Nat) : Prop where
  candidate : request.candidateId = i
  campaigned : (i, .campaigned request.term request.candidateLastSeq) ∈ report
  self : i ∈ voters
  nodes : voters ⊆ Finset.range m.nodes.length
  granted : ∀ j ∈ voters, j ≠ i → GrantedBy report request j

theorem VotedFor.append {m : Membership} {report now : List (Nat × NodeEvent)} {i : Nat}
    {request : VoteRequest} {voters : Finset Nat} (voted : VotedFor m report i request voters) :
    VotedFor m (report ++ now) i request voters where
  candidate := voted.candidate
  campaigned := List.mem_append_left _ voted.campaigned
  self := voted.self
  nodes := voted.nodes
  granted j mem other := (voted.granted j mem other).append

/-- A won campaign rests on a quorum. -/
def Elected (m : Membership) (report : List (Nat × NodeEvent)) (i term : Nat) (lastSeq : Int) :
    Prop :=
  ∃ request voters, VotedFor m report i request voters ∧ request.term = term ∧
    request.candidateLastSeq = lastSeq ∧ (m.config i).quorum ≤ voters.card

/-- A campaign under way: as many voters as it counts, none of them among the peers still
to be asked. -/
structure Counts (m : Membership) (report : List (Nat × NodeEvent)) (i : Nat)
    (campaign : Campaign) : Prop where
  term : campaign.request.term = campaign.term
  peers : campaign.peers <:+ (m.config i).peers
  voters : ∃ voters, VotedFor m report i campaign.request voters ∧
    voters.card = campaign.granted ∧ ∀ addr ∈ campaign.peers, m.listener addr ∉ voters

namespace Counts

variable {m : Membership} {report now : List (Nat × NodeEvent)} {i : Nat} {campaign : Campaign}

theorem append (counts : Counts m report i campaign) : Counts m (report ++ now) i campaign where
  term := counts.term
  peers := counts.peers
  voters := by
    obtain ⟨voters, voted, card, rest⟩ := counts.voters
    exact ⟨voters, voted.append, card, rest⟩

/-- A campaign starts with its own node's vote. -/
theorem begin {st : ElectionRuntime} {seq : Int} (inside : i < m.nodes.length)
    (campaigned : (i, .campaigned st.nextTerm seq) ∈ report) :
    Counts m report i (st.beginCampaign (m.config i) seq).1 where
  term := rfl
  peers := List.suffix_refl _
  voters := by
    refine ⟨{i}, ⟨rfl, campaigned, Finset.mem_singleton_self i, ?_, ?_⟩, rfl, ?_⟩
    · intro j mem
      rw [Finset.mem_singleton.mp mem]
      exact Finset.mem_range.mpr inside
    · exact fun j mem other => absurd (Finset.mem_singleton.mp mem) other
    · exact fun addr mem self => (Membership.peers_spec mem).2 (Finset.mem_singleton.mp self)

theorem ask (counts : Counts m report i campaign) (connection : Nat) :
    Counts m report i (campaign.ask connection) := ⟨counts.term, counts.peers, counts.voters⟩

theorem tail (counts : Counts m report i campaign) : campaign.peers.tail <:+ (m.config i).peers :=
  (List.tail_suffix _).trans counts.peers

/-- A failed request or a refusal. -/
theorem skip (counts : Counts m report i campaign) {response : Option VoteResponse}
    (refused : response.any (·.granted) = false) : Counts m report i (campaign.count response) where
  term := counts.term
  peers := counts.tail
  voters := by
    obtain ⟨voters, voted, card, rest⟩ := counts.voters
    refine ⟨voters, voted, ?_, fun addr mem => rest addr (List.mem_of_mem_tail mem)⟩
    simp [Campaign.count, refused, card]

/-- The peer that was asked granted the request: one more voter. -/
theorem grant (counts : Counts m report i campaign) {response : VoteResponse} {addr : String}
    (first : campaign.peers.head? = some addr) (yes : response.granted = true)
    (granted : GrantedBy report campaign.request (m.listener addr)) :
    Counts m report i (campaign.count (some response)) where
  term := counts.term
  peers := counts.tail
  voters := by
    obtain ⟨voters, voted, card, rest⟩ := counts.voters
    have mem : addr ∈ campaign.peers := List.mem_of_mem_head? first
    obtain ⟨listed, other⟩ := Membership.peers_spec (counts.peers.subset mem)
    refine ⟨insert (m.listener addr) voters, ⟨voted.candidate, voted.campaigned, ?_, ?_, ?_⟩, ?_, ?_⟩
    · exact Finset.mem_insert_of_mem voted.self
    · intro j inside
      rcases Finset.mem_insert.mp inside with rfl | old
      · exact Finset.mem_range.mpr (Membership.listener_lt listed)
      · exact voted.nodes old
    · intro j inside notSelf
      rcases Finset.mem_insert.mp inside with rfl | old
      · exact granted
      · exact voted.granted j old notSelf
    · rw [Finset.card_insert_of_notMem (rest addr mem), card]
      simp [Campaign.count, yes]
    · intro addr' later inside
      have mem' : addr' ∈ campaign.peers := List.mem_of_mem_tail later
      rcases Finset.mem_insert.mp inside with same | old
      · -- Addresses are distinct, so the peer that voted is not asked again.
        have listed' := (Membership.peers_spec (counts.peers.subset mem')).1
        have equal : addr' = addr := (List.idxOf_inj listed').mp same
        have distinct : campaign.peers.Nodup :=
          (m.peers_nodup i).sublist counts.peers.sublist
        obtain ⟨peers, split⟩ := List.head?_eq_some_iff.mp first
        change addr' ∈ campaign.peers.tail at later
        rw [split] at distinct later
        exact (List.nodup_cons.mp distinct).1 (equal ▸ later)
      · exact rest addr' mem' old

end Counts

end FusionMemory
