import FusionMemory.Cluster.ElectionCluster

/-!
Safety of elections.

`Accounted` is the invariant of a cluster: every request in flight belongs to a campaign
that was opened, every grant on its way was given, a campaign counts no vote that it did
not get, and so every win rests on a quorum. `election_safety` puts two quorums together:
they share a node, which votes for one candidate in a term.

`votes_respect_log_iff` is about the logs. `handle_vote` compares the candidate's log with
the cached `last_seq` and not with the log of the node, which is its argument; the theorem
says when the vote is sound all the same, and what the quorum of a winner then has.
-/

namespace FusionMemory

open Lib

namespace ElectionCluster

/-- A call whose response has not reached its campaign. -/
def InFlight (c : ElectionCluster) (call : VoteCall) : Prop :=
  call ∈ c.requests ∨ ∃ response, (call, response) ∈ c.responses

variable {m : Membership} {c c' : ElectionCluster} {i : Nat} {n : ElectionNode} {b : NodeAction}

theorem Wire.connections_le (wire : Wire m c c' i n b) : c.connections ≤ c'.connections := by
  cases wire <;> omega

/-- A step puts at most one new call in flight, on a new connection. -/
theorem Wire.inFlight (wire : Wire m c c' i n b) {call : VoteCall} (flies : c'.InFlight call) :
    c.InFlight call ∨ call.connection = c.connections ∧ c'.connections = c.connections + 1 ∧
      b = .ask c.connections ∧ ∃ campaign, n.campaign = some campaign ∧
        call.request = campaign.request ∧ campaign.peers.head? = some call.addr := by
  cases wire with
  | alone _ requests responses _ | fail requests responses _ =>
      rw [InFlight, requests, responses] at flies
      exact .inl flies
  | @send campaign addr running first requests responses connections =>
      rw [InFlight, requests, responses] at flies
      rcases flies with request | answered
      · rcases List.mem_append.mp request with old | new
        · exact .inl (.inl old)
        · obtain rfl := List.mem_singleton.mp new
          exact .inr ⟨rfl, connections, rfl, campaign, running, rfl, first⟩
      · exact .inl (.inr answered)
  | deliver waiting _ requests responses _ =>
      rw [InFlight, requests, responses] at flies
      rcases flies with request | ⟨response, answered⟩
      · exact .inl (.inl (List.mem_of_mem_eraseIdx request))
      · rcases List.mem_append.mp answered with old | new
        · exact .inl (.inr ⟨response, old⟩)
        · cases List.mem_singleton.mp new
          exact .inl (.inl waiting)
  | receive _ _ _ _ requests responses _ =>
      rw [InFlight, requests, responses] at flies
      rcases flies with request | ⟨response, answered⟩
      · exact .inl (.inl request)
      · exact .inl (.inr ⟨response, List.mem_of_mem_eraseIdx answered⟩)

end ElectionCluster

open ElectionCluster

/-- The books of a run: what is in flight, counted and won was reported. -/
structure Accounted (m : Membership) (c : ElectionCluster) (report : List (Nat × NodeEvent)) :
    Prop where
  size : c.nodes.length = m.nodes.length
  calls : ∀ call, c.InFlight call → call.connection < c.connections ∧
    ∃ i seq, (i, .campaigned call.request.term seq) ∈ report
  answered : ∀ call response, (call, response) ∈ c.responses → response.granted = true →
    GrantedBy report call.request (m.listener call.addr)
  campaigns : ∀ (i : Nat) n campaign, c.nodes[i]? = some n → n.campaign = some campaign →
    Counts m report i campaign
  awaited : ∀ (i : Nat) n campaign connection, c.nodes[i]? = some n → n.campaign = some campaign →
    campaign.waiting = some connection → connection < c.connections ∧
      ∀ call, c.InFlight call → call.connection = connection →
        call.request = campaign.request ∧ campaign.peers.head? = some call.addr
  elected : ∀ i term lastSeq, (i, .won term lastSeq) ∈ report → Elected m report i term lastSeq

namespace Accounted

variable {m : Membership} {c c' : ElectionCluster} {report : List (Nat × NodeEvent)} {i : Nat}
  {n n' : ElectionNode} {b : NodeAction} {events : List NodeEvent}

theorem start (m : Membership) (now : Nat) : Accounted m (.fresh m now) [] where
  size := by simp [fresh]
  calls call flies := by simp [InFlight, fresh] at flies
  answered call response mem := by simp [fresh] at mem
  campaigns k x campaign found running := by
    simp only [fresh, List.getElem?_map, Option.map_eq_some_iff] at found
    obtain ⟨_, -, rfl⟩ := found
    cases running
  awaited k x campaign connection found running := by
    simp only [fresh, List.getElem?_map, Option.map_eq_some_iff] at found
    obtain ⟨_, -, rfl⟩ := found
    cases running
  elected k term lastSeq won := by cases won

theorem step_calls (acc : Accounted m c report) (found : c.nodes[i]? = some n)
    (wire : Wire m c c' i n b) (now : List (Nat × NodeEvent)) :
    ∀ call, c'.InFlight call → call.connection < c'.connections ∧
      ∃ i seq, (i, .campaigned call.request.term seq) ∈ report ++ now := by
  intro call flies
  rcases wire.inFlight flies with old | ⟨new, grown, -, campaign, running, request, -⟩
  · obtain ⟨below, k, seq, opened⟩ := acc.calls call old
    exact ⟨lt_of_lt_of_le below wire.connections_le, k, seq, List.mem_append_left _ opened⟩
  · obtain ⟨voters, voted, -⟩ := (acc.campaigns i n campaign found running).voters
    refine ⟨by omega, i, campaign.request.candidateLastSeq, List.mem_append_left _ ?_⟩
    rw [request]
    exact voted.campaigned

theorem step_answered (acc : Accounted m c report) (wire : Wire m c c' i n b)
    (moved : n.step (m.config i) b = some (n', events)) :
    ∀ call response, (call, response) ∈ c'.responses → response.granted = true →
      GrantedBy (report ++ events.map (i, ·)) call.request (m.listener call.addr) := by
  intro call response mem yes
  cases wire with
  | alone _ _ responses _ | fail _ responses _ | send _ _ _ responses _ =>
      rw [responses] at mem
      exact (acc.answered call response mem yes).append
  | receive _ _ _ _ _ responses _ =>
      rw [responses] at mem
      exact (acc.answered call response (List.mem_of_mem_eraseIdx mem) yes).append
  | @deliver call' k localSeq at' _ listener _ responses _ =>
      rw [responses] at mem
      rcases List.mem_append.mp mem with old | new
      · exact (acc.answered call response old yes).append
      · cases List.mem_singleton.mp new
        subst listener
        cases ElectionNode.stepped moved
        exact ⟨localSeq, _, List.mem_append_right _ (by simp), yes⟩

theorem step_campaigns (acc : Accounted m c report) (found : c.nodes[i]? = some n)
    (nodes : c'.nodes = c.nodes.set i n') (wire : Wire m c c' i n b)
    (moved : n.step (m.config i) b = some (n', events)) :
    ∀ (k : Nat) x campaign, c'.nodes[k]? = some x → x.campaign = some campaign →
      Counts m (report ++ events.map (i, ·)) k campaign := by
  intro k x campaign at' running
  rw [nodes] at at'
  rcases nodes_set_cases found at' with ⟨-, still⟩ | ⟨rfl, rfl⟩
  · exact (acc.campaigns k x campaign still running).append
  · cases ElectionNode.stepped moved with
    | handleVote | refreshLease => exact (acc.campaigns k n campaign found running).append
    | campaign =>
        cases running
        refine .begin ?_ (List.mem_append_right _ (by simp))
        rw [← acc.size]
        exact (List.getElem?_eq_some_iff.mp found).1
    | @ask before _ was =>
        cases running
        exact ((acc.campaigns k n before found was).append).ask _
    | @count before response was =>
        cases running
        have counts := acc.campaigns k n before found was
        cases wire with
        | alone alone => cases alone
        | fail => exact (counts.skip rfl).append
        | @receive call response campaign' j arrived caller running' waits =>
            cases was.symm.trans running'
            cases yes : response.granted with
            | false => exact (counts.skip (by simp [yes])).append
            | true =>
                obtain ⟨-, same⟩ := acc.awaited k n before call.connection found was waits
                obtain ⟨request, first⟩ := same call (.inr ⟨response, arrived⟩) rfl
                have granted := acc.answered call response arrived yes
                rw [request] at granted
                exact (counts.grant first yes granted).append
    | won | lost | restart => cases running

theorem step_awaited (acc : Accounted m c report) (found : c.nodes[i]? = some n)
    (nodes : c'.nodes = c.nodes.set i n') (wire : Wire m c c' i n b)
    (moved : n.step (m.config i) b = some (n', events)) :
    ∀ (k : Nat) x campaign connection, c'.nodes[k]? = some x → x.campaign = some campaign →
      campaign.waiting = some connection → connection < c'.connections ∧
        ∀ call, c'.InFlight call → call.connection = connection →
          call.request = campaign.request ∧ campaign.peers.head? = some call.addr := by
  -- A campaign that was waiting before the step waits for no new call.
  have old : ∀ (k : Nat) x campaign connection, c.nodes[k]? = some x → x.campaign = some campaign →
      campaign.waiting = some connection → connection < c'.connections ∧
        ∀ call, c'.InFlight call → call.connection = connection →
          call.request = campaign.request ∧ campaign.peers.head? = some call.addr := by
    intro k x campaign connection was running waits
    obtain ⟨below, same⟩ := acc.awaited k x campaign connection was running waits
    refine ⟨lt_of_lt_of_le below wire.connections_le, fun call flies this => ?_⟩
    rcases wire.inFlight flies with before | ⟨new, -⟩
    · exact same call before this
    · omega
  intro k x campaign connection at' running waits
  rw [nodes] at at'
  rcases nodes_set_cases found at' with ⟨-, still⟩ | ⟨rfl, rfl⟩
  · exact old k x campaign connection still running waits
  · cases ElectionNode.stepped moved with
    | handleVote | refreshLease => exact old k n campaign connection found running waits
    | @ask before connection' was =>
        cases running
        cases waits
        cases wire with
        | alone alone => cases alone
        | @send campaign addr running' first requests responses connections =>
            cases was.symm.trans running'
            refine ⟨by omega, fun call flies this => ?_⟩
            have wire : Wire m c c' k n (.ask c.connections) :=
              .send running' first requests responses connections
            rcases wire.inFlight flies with earlier | ⟨-, -, -, campaign', running'', request, addr⟩
            · have below := (acc.calls call earlier).1
              omega
            · cases was.symm.trans running''
              exact ⟨request, addr⟩
    | campaign | count => cases running; cases waits
    | won | lost | restart => cases running

theorem step_elected (acc : Accounted m c report) (found : c.nodes[i]? = some n)
    (moved : n.step (m.config i) b = some (n', events)) :
    ∀ k term lastSeq, (k, .won term lastSeq) ∈ report ++ events.map (i, ·) →
      Elected m (report ++ events.map (i, ·)) k term lastSeq := by
  intro k term lastSeq won
  rcases List.mem_append.mp won with old | new
  · obtain ⟨request, voters, voted, same⟩ := acc.elected k term lastSeq old
    exact ⟨request, voters, voted.append, same⟩
  · obtain ⟨e, mem, same⟩ := List.mem_map.mp new
    cases same
    cases ElectionNode.stepped moved with
    | @won campaign at' running enough =>
        cases List.mem_singleton.mp mem
        have counts := acc.campaigns i n campaign found running
        obtain ⟨voters, voted, card, -⟩ := counts.voters
        exact ⟨campaign.request, voters, voted.append, counts.term, rfl, card ▸ enough⟩
    | _ => simp at mem

theorem run {start : Nat} {labels : List ClusterAction}
    (ran : (electionCluster m).Run StepSystem.Always (.fresh m start) labels c report) :
    Accounted m c report := by
  refine ran.invariant (.start m start) ?_
  intro c report a c' now acc _ moved
  obtain ⟨i, n, b, n', events, found, stepped, nodes, rfl, wire⟩ := step_cases moved
  exact
    { size := by rw [nodes, List.length_set, acc.size]
      calls := acc.step_calls found wire _
      answered := acc.step_answered wire stepped
      campaigns := acc.step_campaigns found nodes wire stepped
      awaited := acc.step_awaited found nodes wire stepped
      elected := acc.step_elected found stepped }

end Accounted

/-! ### One winner in a term -/

/-- The largest `u64`. -/
def u64Max : Nat := u64Size - 1

/-- Terms that campaigns open bound the terms of all nodes. -/
theorem currentTerm_lt {m : Membership} {start : Nat} {labels : List ClusterAction}
    {c : ElectionCluster} {report : List (Nat × NodeEvent)}
    (ran : (electionCluster m).Run StepSystem.Always (.fresh m start) labels c report)
    (bounded : ∀ i term seq, (i, .campaigned term seq) ∈ report → term < u64Max) :
    ∀ (k : Nat) x, c.nodes[k]? = some x → x.runtime.currentTerm < u64Max := by
  induction ran with
  | start =>
      intro k x found
      simp only [fresh, List.getElem?_map, Option.map_eq_some_iff] at found
      obtain ⟨_, -, rfl⟩ := found
      change 0 < u64Max
      decide
  | @step labels c c' report now a before _ moved ih =>
      have earlier := ih fun i term seq mem => bounded i term seq (List.mem_append_left _ mem)
      have acc := Accounted.run before
      obtain ⟨i, n, b, n', events, found, stepped, nodes, rfl, wire⟩ := step_cases moved
      intro k x at'
      rw [nodes] at at'
      rcases nodes_set_cases found at' with ⟨-, still⟩ | ⟨rfl, rfl⟩
      · exact earlier k x still
      · have was := earlier k n found
        cases ElectionNode.stepped stepped with
        | @handleVote req localSeq at' fits =>
            cases wire with
            | alone alone => cases alone
            | @deliver call j _ _ waiting =>
                obtain ⟨-, i, seq, opened⟩ := acc.calls call (.inl waiting)
                have below := bounded i _ seq (List.mem_append_left _ opened)
                dsimp only
                rw [ElectionRuntime.handleVote_currentTerm]
                split_ifs
                · exact max_lt was below
                · exact was
        | @campaign seq =>
            have below := bounded k n.runtime.nextTerm seq (List.mem_append_right _ (by simp))
            exact below
        | refreshLease | ask | count => exact was
        | won | lost => simpa using was
        | restart =>
            change 0 < u64Max
            decide

/-- No term counter wraps around below the largest term. -/
theorem campaigned_ne_zero {m : Membership} {start : Nat} {labels : List ClusterAction}
    {c : ElectionCluster} {report : List (Nat × NodeEvent)}
    (ran : (electionCluster m).Run StepSystem.Always (.fresh m start) labels c report)
    (bounded : ∀ i term seq, (i, .campaigned term seq) ∈ report → term < u64Max) :
    ∀ i term seq, (i, .campaigned term seq) ∈ report → term ≠ 0 := by
  induction ran with
  | start => exact fun i term seq mem => (List.not_mem_nil mem).elim
  | @step labels c c' report now a before _ moved ih =>
      have earlier := fun i term seq mem => bounded i term seq (List.mem_append_left now mem)
      intro i term seq mem
      rcases List.mem_append.mp mem with old | new
      · exact ih earlier i term seq old
      · obtain ⟨j, n, b, n', events, found, stepped, nodes, rfl, wire⟩ := step_cases moved
        obtain ⟨e, emitted, same⟩ := List.mem_map.mp new
        cases same
        have was := currentTerm_lt before earlier i n found
        cases ElectionNode.stepped stepped with
        | campaign =>
            cases List.mem_singleton.mp emitted
            have grown : n.runtime.nextTerm = n.runtime.currentTerm + 1 :=
              Nat.mod_eq_of_lt (Nat.add_lt_of_lt_sub was)
            omega
        | _ => simp at emitted

/-- A report without restarts and wrapped terms is one life. -/
theorem lifeOf_eq_zero {events : List NodeEvent} (alive : .restarted ∉ events)
    (grows : ∀ seq, .campaigned 0 seq ∉ events) : lifeOf events = 0 := by
  unfold lifeOf
  suffices same : ∀ life, events.foldl NodeEvent.lifeAfter life = life from same 0
  induction events with
  | nil => exact fun _ => rfl
  | cons e rest ih =>
      intro life
      have this : e.lifeAfter life = life := by
        cases e with
        | restarted => exact absurd List.mem_cons_self alive
        | campaigned term seq =>
            rw [lifeAfter_campaigned, if_neg]
            rintro rfl
            exact grows seq List.mem_cons_self
        | _ => rfl
      rw [List.foldl_cons, this]
      exact ih (fun mem => alive (List.mem_cons_of_mem _ mem))
        (fun seq mem => grows seq (List.mem_cons_of_mem _ mem)) life

/-- The vote of an event that was reported. -/
theorem mem_votes (selfId : Nat) {events : List NodeEvent} {e : NodeEvent} (mem : e ∈ events) :
    ∃ life, ∀ v ∈ e.vote selfId life, v ∈ votes selfId events := by
  unfold votes
  suffices found : ∀ life, ∃ life', ∀ v ∈ e.vote selfId life', v ∈ votesFrom selfId life events from
    found 0
  induction events with
  | nil => cases mem
  | cons e' rest ih =>
      intro life
      rw [votesFrom]
      rcases List.mem_cons.mp mem with rfl | later
      · exact ⟨e.lifeAfter life, fun v given =>
          List.mem_append_left _ (Option.mem_toList.mpr given)⟩
      · obtain ⟨life', found⟩ := ih later (e'.lifeAfter life)
        exact ⟨life', fun v given => List.mem_append_right _ (found v given)⟩

/-- A voter of a campaign gave it a vote in its term. -/
theorem VotedFor.vote {m : Membership} {report : List (Nat × NodeEvent)} {i j : Nat}
    {request : VoteRequest} {voters : Finset Nat} (voted : VotedFor m report i request voters)
    (mem : j ∈ voters) :
    ∃ life, (⟨life, request.term, i⟩ : Vote) ∈ votes j (eventsOf j report) := by
  by_cases self : j = i
  · subst self
    obtain ⟨life, found⟩ := mem_votes j (mem_eventsOf.mpr voted.campaigned)
    exact ⟨life, found _ rfl⟩
  · obtain ⟨localSeq, response, answered, yes⟩ := voted.granted j mem self
    obtain ⟨life, found⟩ := mem_votes j (mem_eventsOf.mpr answered)
    exact ⟨life, found _ (by simp [NodeEvent.vote, yes, voted.candidate])⟩

/-- Two quorums share a voter, and a voter has one vote. -/
theorem one_winner {m : Membership} {start : Nat} {labels : List ClusterAction}
    {c : ElectionCluster} {report : List (Nat × NodeEvent)}
    (ran : (electionCluster m).Run StepSystem.Always (.fresh m start) labels c report)
    (noRestart : ∀ i, (i, .restarted) ∉ report)
    (bounded : ∀ i term seq, (i, .campaigned term seq) ∈ report → term < u64Max)
    {i j term : Nat} {seq seq' : Int} (won : (i, .won term seq) ∈ report)
    (won' : (j, .won term seq') ∈ report) : i = j := by
  have acc := Accounted.run ran
  obtain ⟨request, voters, voted, inTerm, -, quorum⟩ := acc.elected i term seq won
  obtain ⟨request', voters', voted', inTerm', -, quorum'⟩ := acc.elected j term seq' won'
  have majority : (Finset.range m.nodes.length).card < voters.card + voters'.card := by
    rw [Finset.card_range]
    simp only [ElectionConfig.quorum, Membership.config] at quorum quorum'
    omega
  obtain ⟨k, both⟩ :=
    Finset.inter_nonempty_of_card_lt_card_add_card voted.nodes voted'.nodes majority
  obtain ⟨mem, mem'⟩ := Finset.mem_inter.mp both
  obtain ⟨life, vote⟩ := voted.vote mem
  obtain ⟨life', vote'⟩ := voted'.vote mem'
  -- The shared voter is a node whose run is one life.
  have inside : k < c.nodes.length := by
    rw [acc.size]
    exact Finset.mem_range.mp (voted.nodes mem)
  obtain ⟨own, alone⟩ := Run.node ran (List.getElem?_eq_getElem inside)
  have keeps := Promises.run alone
  have oneLife : lifeOf (eventsOf k report) = 0 :=
    lifeOf_eq_zero (fun mem => noRestart k (mem_eventsOf.mp mem))
      fun seq mem => campaigned_ne_zero ran bounded k 0 seq (mem_eventsOf.mp mem) rfl
  have zero := keeps.past _ vote
  have zero' := keeps.past _ vote'
  rw [oneLife] at zero zero'
  refine keeps.single _ vote _ vote' ?_ (inTerm.trans inTerm'.symm)
  dsimp only at zero zero' ⊢
  omega

/-- Without restarts, and with terms below the largest, one node at most wins a term:
two quorums share a voter, and a voter has one vote. -/
theorem election_safety (m : Membership) {start : Nat} {labels : List ClusterAction}
    {c : ElectionCluster} {report : List (Nat × NodeEvent)}
    (ran : (electionCluster m).Run StepSystem.Always (.fresh m start) labels c report)
    (noRestart : ∀ i, (i, .restarted) ∉ report)
    (bounded : ∀ i term seq, (i, .campaigned term seq) ∈ report → term < u64Max)
    {i j term : Nat} {seq seq' : Int} (won : (i, .won term seq) ∈ report)
    (won' : (j, .won term seq') ∈ report) : i = j :=
  one_winner ran noRestart bounded won won'

/-- Three nodes without a token. -/
def threeMembers : Membership where
  nodes := (threeNodes 0).nodes
  distinct := by decide
  twoNodes := by decide
  heartbeatSecs _ := 5
  heartbeatFails _ := 3
  clusterToken _ := none

/-- Node 2 is down. Node 0 campaigns and node 1 grants, and then the other way round. -/
def twoElections : List ClusterAction :=
  [.own 0 (.campaign 0), .send 0, .deliver 0 0 1000, .receive 0, .fail 0, .own 0 (.finish 2000),
    .own 1 (.campaign 0), .send 1, .deliver 0 0 3000, .receive 0, .fail 1, .own 1 (.finish 4000)]

def twoElectionsReport : List (Nat × NodeEvent) :=
  [(0, .campaigned 1 0), (1, .answered ⟨1, 0, 0, ""⟩ 0 ⟨1, true, 0⟩), (0, .won 1 0),
    (1, .campaigned 2 0), (0, .answered ⟨2, 1, 0, ""⟩ 0 ⟨2, true, 0⟩), (1, .won 2 0)]

theorem run_twoElections :
    (electionCluster threeMembers).Run StepSystem.Always (.fresh threeMembers 0) twoElections
      ⟨[⟨⟨.follower, 2, some 1, 3000, 0⟩, none⟩, ⟨⟨.leader, 2, some 1, 4000, 0⟩, none⟩, .fresh 0],
        [], [], 2⟩ twoElectionsReport :=
  .of_exec (fun _ _ _ (_ : true = true) => trivial) (by decide +kernel)

/-- Both terms are won, and each by no other node. -/
theorem election_safety_twoElections :
    ((0, .won 1 0) ∈ twoElectionsReport ∧
      ∀ j seq, (j, .won 1 seq) ∈ twoElectionsReport → 0 = j) ∧
    ((1, .won 2 0) ∈ twoElectionsReport ∧
      ∀ j seq, (j, .won 2 seq) ∈ twoElectionsReport → 1 = j) := by
  have noRestart : ∀ i, (i, .restarted) ∉ twoElectionsReport := by simp [twoElectionsReport]
  have bounded : ∀ i term seq, (i, .campaigned term seq) ∈ twoElectionsReport → term < u64Max := by
    simp [twoElectionsReport, u64Max, u64Size]
    omega
  have first : (0, .won 1 0) ∈ twoElectionsReport := by simp [twoElectionsReport]
  have second : (1, .won 2 0) ∈ twoElectionsReport := by simp [twoElectionsReport]
  exact ⟨⟨first, fun j seq => election_safety threeMembers run_twoElections noRestart bounded first⟩,
    ⟨second, fun j seq => election_safety threeMembers run_twoElections noRestart bounded second⟩⟩

/-! ### Logs -/

/-- The request lies between the cached `last_seq` and the log, and nothing else is
against it. -/
def StaleCacheHit (cfg : ElectionConfig) (st : ElectionRuntime) (req : VoteRequest)
    (localSeq : Int) : Prop :=
  st.eligible cfg req = true ∧ st.lastSeq ≤ req.candidateLastSeq ∧ req.candidateLastSeq < localSeq

/-- The vote, if given, goes to a candidate whose log is as long as the node's own. -/
def GrantsFresh (cfg : ElectionConfig) (st : ElectionRuntime) (req : VoteRequest) (localSeq : Int)
    (now : Nat) : Prop :=
  (st.handleVote cfg req localSeq now).1.granted = true → localSeq ≤ req.candidateLastSeq

theorem grantsFresh_iff {cfg : ElectionConfig} {st : ElectionRuntime} {req : VoteRequest}
    {localSeq : Int} {now : Nat} :
    GrantsFresh cfg st req localSeq now ↔ ¬ StaleCacheHit cfg st req localSeq := by
  unfold GrantsFresh StaleCacheHit
  rw [ElectionRuntime.handleVote_granted_iff, ElectionRuntime.passes, Bool.and_eq_true,
    decide_eq_true_eq]
  constructor
  · rintro fresh ⟨eligible, cached, behind⟩
    exact absurd (fresh ⟨eligible, cached⟩) (not_le.mpr behind)
  · rintro calm ⟨eligible, cached⟩
    by_contra behind
    exact calm ⟨eligible, cached, not_le.mp behind⟩

/-- No request that a listener handles hits its stale cache. -/
def NoStaleCacheHit (m : Membership) (c : ElectionCluster) (_ : List (Nat × NodeEvent)) :
    ClusterAction → Prop
  | .deliver k localSeq _ => ∀ call n, c.requests[k]? = some call →
      c.nodes[m.listener call.addr]? = some n →
        ¬ StaleCacheHit (m.config (m.listener call.addr)) n.runtime call.request localSeq
  | _ => True

/-- The quorum of a winner: apart from the winner, nodes whose logs were no longer than
the log the winner campaigned with. -/
def ElectedByShorterLogs (m : Membership) (report : List (Nat × NodeEvent)) (i term : Nat)
    (lastSeq : Int) : Prop :=
  ∃ request voters, VotedFor m report i request voters ∧ request.term = term ∧
    request.candidateLastSeq = lastSeq ∧ (m.config i).quorum ≤ voters.card ∧
    ∀ j ∈ voters, j ≠ i → ∃ localSeq response,
      (j, .answered request localSeq response) ∈ report ∧ response.granted = true ∧
        localSeq ≤ lastSeq

/-- An answer is reported when a request is delivered. -/
theorem delivered_of_answered {m : Membership} {c c' : ElectionCluster} {a : ClusterAction}
    {now : List (Nat × NodeEvent)} (moved : c.step m a = some (c', now)) {j : Nat}
    {request : VoteRequest} {localSeq : Int} {response : VoteResponse}
    (answered : (j, .answered request localSeq response) ∈ now) :
    ∃ k at' call n, a = .deliver k localSeq at' ∧ c.requests[k]? = some call ∧
      c.nodes[m.listener call.addr]? = some n ∧ call.request = request ∧
      response = (n.runtime.handleVote (m.config (m.listener call.addr)) request localSeq at').1 := by
  -- A node answers nothing in a step of another kind.
  have silent : ∀ {i : Nat} {b : NodeAction} {c'' : ElectionCluster},
      c.act m i b = some (c'', now) → ∃ req seq at', b = .handleVote req seq at' := by
    intro i b c'' acted
    obtain ⟨n, n', events, -, stepped, -, rfl⟩ := act_eq_some_iff.mp acted
    obtain ⟨e, emitted, same⟩ := List.mem_map.mp answered
    cases same
    cases ElectionNode.stepped stepped with
    | handleVote => exact ⟨_, _, _, rfl⟩
    | _ => simp at emitted
  cases a with
  | own i b =>
      simp only [ElectionCluster.step] at moved
      split_ifs at moved with alone
      obtain ⟨req, seq, at', rfl⟩ := silent moved
      cases alone
  | send i =>
      simp only [ElectionCluster.step, Option.bind_eq_bind, Option.bind_eq_some_iff,
        Option.pure_def] at moved
      obtain ⟨n, -, campaign, -, addr, -, ⟨_, _⟩, acted, same⟩ := moved
      cases same
      obtain ⟨_, _, _, same⟩ := silent acted
      cases same
  | deliver k seq at' =>
      simp only [ElectionCluster.step, Option.bind_eq_bind, Option.bind_eq_some_iff,
        Option.pure_def] at moved
      obtain ⟨call, waiting, n, found, ⟨_, _⟩, acted, same⟩ := moved
      cases same
      obtain ⟨n₀, n', events, found', stepped, -, rfl⟩ := act_eq_some_iff.mp acted
      cases found.symm.trans found'
      obtain ⟨e, emitted, same⟩ := List.mem_map.mp answered
      cases ElectionNode.stepped stepped
      cases List.mem_singleton.mp emitted
      cases same
      exact ⟨k, at', call, n, rfl, waiting, found, rfl, rfl⟩
  | receive k =>
      simp only [ElectionCluster.step, Option.bind_eq_bind, Option.bind_eq_some_iff,
        Option.pure_def] at moved
      obtain ⟨⟨call, arrived⟩, -, n, -, campaign, -, moved⟩ := moved
      split_ifs at moved
      simp only [Option.bind_eq_some_iff] at moved
      obtain ⟨⟨_, _⟩, acted, same⟩ := moved
      cases same
      obtain ⟨_, _, _, same⟩ := silent acted
      cases same
  | fail i =>
      obtain ⟨_, _, _, same⟩ := silent moved
      cases same

/-- A vote respects the log of the node exactly when the request does not hit a stale
cache; and in a run without such hits, a winner's log is as long as the logs of the
quorum that elected it. -/
theorem votes_respect_log_iff (cfg : ElectionConfig) (st : ElectionRuntime) (req : VoteRequest)
    (localSeq : Int) (now : Nat) (m : Membership) (start : Nat) (labels : List ClusterAction)
    (c : ElectionCluster) (report : List (Nat × NodeEvent)) :
    (GrantsFresh cfg st req localSeq now ↔ ¬ StaleCacheHit cfg st req localSeq) ∧
    ((electionCluster m).Run (NoStaleCacheHit m) (.fresh m start) labels c report →
      ∀ i term lastSeq, (i, .won term lastSeq) ∈ report →
        ElectedByShorterLogs m report i term lastSeq) := by
  refine ⟨grantsFresh_iff, ?_⟩
  intro ran i term lastSeq won
  have fresh : ∀ j request localSeq response, (j, .answered request localSeq response) ∈ report →
      response.granted = true → localSeq ≤ request.candidateLastSeq := by
    refine ran.invariant (I := fun _ report => ∀ j request localSeq response,
      (j, .answered request localSeq response) ∈ report → response.granted = true →
        localSeq ≤ request.candidateLastSeq) ?_ ?_
    · exact fun j request localSeq response mem => (List.not_mem_nil mem).elim
    · intro c report a c' now before calm moved j request localSeq response mem yes
      rcases List.mem_append.mp mem with old | new
      · exact before j request localSeq response old yes
      · obtain ⟨k, at', call, n, rfl, waiting, found, rfl, rfl⟩ := delivered_of_answered moved new
        exact grantsFresh_iff.mpr (calm call n waiting found) yes
  obtain ⟨request, voters, voted, inTerm, seq, quorum⟩ :=
    (Accounted.run ran.always).elected i term lastSeq won
  refine ⟨request, voters, voted, inTerm, seq, quorum, fun j mem other => ?_⟩
  obtain ⟨localSeq, response, answered, yes⟩ := voted.granted j mem other
  exact ⟨localSeq, response, answered, yes, seq ▸ fresh j request localSeq response answered yes⟩

/-- A node that just started and whose log has ten entries votes for a candidate with
none. -/
theorem empty_log_gets_vote : ¬ ∀ cfg start labels n report,
    (electionNode cfg).Run StepSystem.Always (.fresh start) labels n report →
      ∀ req localSeq now, (n.runtime.handleVote cfg req localSeq now).1.granted = true →
        localSeq ≤ req.candidateLastSeq := by
  intro always
  have claim := always (threeNodes 0) 0 [] (.fresh 0) [] .start ⟨1, 1, 0, ""⟩ 10 1000 (by decide)
  exact absurd claim (by decide)

end FusionMemory
