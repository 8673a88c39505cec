import FusionMemory.Cluster.ElectionNode

/-!
What a node promises with a vote.

`Promises` is the invariant of a node's life: its runtime backs the votes given in it,
so no term sees two of them for different candidates. Votes of earlier lives are
forgotten, because `Election::new` starts from `ElectionRuntime::default()`, and
`one_vote_per_term_iff` says that nothing else can break the rule of one vote.

A campaign leaves the mutex while it asks the peers. `overtaken_campaign_iff` follows
the term of the node through that time.
-/

namespace FusionMemory

open Lib

/-! ### The votes of one life -/

/-- The runtime backs the votes given in a life: it has reached their terms, and while it
is still in one, `voted_for` names the candidate. -/
def Backs (st : ElectionRuntime) (life : Nat) (given : List Vote) : Prop :=
  ∀ v ∈ given, v.life = life →
    v.term ≤ st.currentTerm ∧ (v.term = st.currentTerm → st.votedFor = some v.candidate)

namespace Backs

variable {cfg : ElectionConfig} {st st' : ElectionRuntime} {life : Nat} {given : List Vote}
  {req : VoteRequest}

theorem mono (backs : Backs st life given) (newer : st.currentTerm ≤ st'.currentTerm)
    (stays : st'.currentTerm = st.currentTerm → ∀ candidate, st.votedFor = some candidate →
      st'.votedFor = some candidate) : Backs st' life given := by
  intro v mem current
  obtain ⟨reached, named⟩ := backs v mem current
  refine ⟨le_trans reached newer, fun same => ?_⟩
  have still : st'.currentTerm = st.currentTerm := le_antisymm (same ▸ reached) newer
  exact stays still _ (named (same.trans still))

/-- A passing request is for the candidate of every vote already given in its term. -/
theorem agrees (backs : Backs st life given) (ok : st.passes cfg req = true) {v : Vote}
    (mem : v ∈ given) (current : v.life = life) (same : v.term = req.term) :
    v.candidate = req.candidateId := by
  obtain ⟨reached, named⟩ := backs v mem current
  simp only [ElectionRuntime.passes, ElectionRuntime.eligible, Bool.and_eq_true, Bool.or_eq_true,
    decide_eq_true_eq] at ok
  have inTerm : v.term = st.currentTerm := by omega
  have older : ¬ st.currentTerm < req.term := by omega
  simpa [older, named inTerm] using ok.1.2

/-- A vote for a term at least as new, in the runtime that records it. -/
theorem concat (backs : Backs st life given) {vote : Vote}
    (newer : st.currentTerm ≤ st'.currentTerm) (term : vote.term = st'.currentTerm)
    (named : st'.votedFor = some vote.candidate)
    (agree : ∀ v ∈ given, v.life = life → v.term = vote.term → v.candidate = vote.candidate) :
    Backs st' life (given ++ [vote]) := by
  intro v mem current
  rcases List.mem_append.mp mem with old | new
  · refine ⟨le_trans (backs v old current).1 newer, fun same => ?_⟩
    rw [named, agree v old current (same.trans term.symm)]
  · obtain rfl := List.mem_singleton.mp new
    exact ⟨le_of_eq term, fun _ => named⟩

end Backs

/-- Votes given in one life, for one term, are for one candidate. -/
def OnePerLife (given : List Vote) : Prop :=
  ∀ v ∈ given, ∀ v' ∈ given, v.life = v'.life → v.term = v'.term → v.candidate = v'.candidate

theorem OnePerLife.concat {given : List Vote} (one : OnePerLife given) {vote : Vote}
    (agree : ∀ v ∈ given, v.life = vote.life → v.term = vote.term → v.candidate = vote.candidate) :
    OnePerLife (given ++ [vote]) := by
  intro v mem v' mem' life term
  rcases List.mem_append.mp mem with old | new <;> rcases List.mem_append.mp mem' with old' | new'
  · exact one v old v' old' life term
  · obtain rfl := List.mem_singleton.mp new'
    exact agree v old life term
  · obtain rfl := List.mem_singleton.mp new
    exact (agree v' old' life.symm term.symm).symm
  · rw [List.mem_singleton.mp new, List.mem_singleton.mp new']

/-- The invariant of a node. -/
structure Promises (selfId : Nat) (n : ElectionNode) (report : List NodeEvent) : Prop where
  fits : n.runtime.currentTerm < u64Size
  past : ∀ v ∈ votes selfId report, v.life ≤ lifeOf report
  backs : Backs n.runtime (lifeOf report) (votes selfId report)
  single : OnePerLife (votes selfId report)

namespace Promises

variable {cfg : ElectionConfig} {n n' : ElectionNode} {report now : List NodeEvent} {a : NodeAction}

theorem start (selfId start : Nat) : Promises selfId (.fresh start) [] where
  fits := by
    change 0 < u64Size
    decide
  past := by simp [votes, votesFrom]
  backs := by simp [Backs, votes, votesFrom]
  single := by simp [OnePerLife, votes, votesFrom]

/-- A step without a vote, in which the runtime goes on backing the old ones. -/
theorem quiet {selfId : Nat} (keeps : Promises selfId n report) {e : NodeEvent}
    (same : e.lifeAfter (lifeOf report) = lifeOf report)
    (none : e.vote selfId (lifeOf report) = none) (fits : n'.runtime.currentTerm < u64Size)
    (backs : Backs n'.runtime (lifeOf report) (votes selfId report)) :
    Promises selfId n' (report ++ [e]) where
  fits := fits
  past := by
    rw [votes_concat, lifeOf_concat, same, none, Option.toList_none, List.append_nil]
    exact keeps.past
  backs := by
    rw [votes_concat, lifeOf_concat, same, none, Option.toList_none, List.append_nil]
    exact backs
  single := by
    rw [votes_concat, same, none, Option.toList_none, List.append_nil]
    exact keeps.single

/-- A step with a vote that agrees with those of its life. -/
theorem vote {selfId : Nat} (keeps : Promises selfId n report) {e : NodeEvent} {v : Vote}
    (same : e.lifeAfter (lifeOf report) = lifeOf report)
    (gives : e.vote selfId (lifeOf report) = some v) (current : v.life = lifeOf report)
    (fits : n'.runtime.currentTerm < u64Size)
    (newer : n.runtime.currentTerm ≤ n'.runtime.currentTerm) (term : v.term = n'.runtime.currentTerm)
    (named : n'.runtime.votedFor = some v.candidate)
    (agree : ∀ v' ∈ votes selfId report, v'.life = lifeOf report → v'.term = v.term →
      v'.candidate = v.candidate) :
    Promises selfId n' (report ++ [e]) where
  fits := fits
  past := by
    rw [votes_concat, lifeOf_concat, same, gives, Option.toList_some]
    intro v' mem
    rcases List.mem_append.mp mem with old | new
    · exact keeps.past v' old
    · rw [List.mem_singleton.mp new, current]
  backs := by
    rw [votes_concat, lifeOf_concat, same, gives, Option.toList_some]
    exact keeps.backs.concat newer term named agree
  single := by
    rw [votes_concat, same, gives, Option.toList_some]
    exact keeps.single.concat fun v' mem life => agree v' mem (life.trans current)

/-- A step that begins a life, with a vote in it or none. -/
theorem reborn {selfId : Nat} (keeps : Promises selfId n report) {e : NodeEvent}
    (next : e.lifeAfter (lifeOf report) = lifeOf report + 1)
    (gives : ∀ v ∈ e.vote selfId (lifeOf report + 1), v.life = lifeOf report + 1 ∧
      v.term = n'.runtime.currentTerm ∧ n'.runtime.votedFor = some v.candidate)
    (fits : n'.runtime.currentTerm < u64Size) :
    Promises selfId n' (report ++ [e]) := by
  have older : ∀ v ∈ votes selfId report, v.life ≠ lifeOf report + 1 := fun v mem =>
    ne_of_lt (Nat.lt_succ_of_le (keeps.past v mem))
  refine ⟨fits, ?_, ?_, ?_⟩
  · rw [votes_concat, lifeOf_concat, next]
    intro v mem
    rcases List.mem_append.mp mem with old | new
    · exact Nat.le_succ_of_le (keeps.past v old)
    · exact le_of_eq (gives v (Option.mem_toList.mp new)).1
  · rw [votes_concat, lifeOf_concat, next]
    intro v mem current
    rcases List.mem_append.mp mem with old | new
    · exact absurd current (older v old)
    · obtain ⟨-, term, named⟩ := gives v (Option.mem_toList.mp new)
      exact ⟨le_of_eq term, fun _ => named⟩
  · rw [votes_concat, next]
    cases given : e.vote selfId (lifeOf report + 1) with
    | none => simpa using keeps.single
    | some v =>
        have current := (gives v given).1
        refine keeps.single.concat fun v' mem life => ?_
        exact absurd (life.trans current) (older v' mem)

end Promises

/-! ### The vote of a step -/

theorem lifeAfter_campaigned (life term : Nat) (seq : Int) :
    (NodeEvent.campaigned term seq).lifeAfter life = if term = 0 then life + 1 else life := by
  cases term <;> rfl

namespace ElectionNode

/-- The vote that a step gives: a passing request's, or a campaign's for its own node. -/
def gives (cfg : ElectionConfig) (n : ElectionNode) (report : List NodeEvent) :
    NodeAction → Option Vote
  | .handleVote req _ _ =>
      if n.runtime.passes cfg req then some ⟨lifeOf report, req.term, req.candidateId⟩ else none
  | .campaign _ =>
      some ⟨if n.runtime.nextTerm = 0 then lifeOf report + 1 else lifeOf report, n.runtime.nextTerm,
        cfg.selfId⟩
  | _ => none

variable {cfg : ElectionConfig} {n n' : ElectionNode} {report now : List NodeEvent} {a : NodeAction}

theorem gives_other (notVote : ∀ req localSeq at', a ≠ .handleVote req localSeq at')
    (notCampaign : ∀ seq, a ≠ .campaign seq) : n.gives cfg report a = none := by
  cases a with
  | handleVote req localSeq at' => exact absurd rfl (notVote req localSeq at')
  | campaign seq => exact absurd rfl (notCampaign seq)
  | _ => rfl

/-- The votes after a step are those before it and the one it gives, in the life that it
ends in. -/
theorem votes_step (report : List NodeEvent) (moved : n.step cfg a = some (n', now)) :
    votes cfg.selfId (report ++ now) = votes cfg.selfId report ++ (n.gives cfg report a).toList ∧
      ∀ v ∈ n.gives cfg report a, v.life = lifeOf (report ++ now) := by
  rcases step_cases moved with ⟨req, localSeq, at', rfl, -, -, rfl⟩ | ⟨seq, rfl, -, rfl⟩ |
    ⟨at', rfl, -, rfl⟩ | ⟨-, notVote, notCampaign, silent | ⟨term, seq, silent⟩ | ⟨term, silent⟩⟩
  · rw [votes_concat, lifeOf_concat]
    cases ok : n.runtime.passes cfg req with
    | true =>
        have granted := (ElectionRuntime.handleVote_passes ok localSeq at').1
        simp [NodeEvent.vote, NodeEvent.lifeAfter, gives, ok, granted]
    | false =>
        have refused := (ElectionRuntime.handleVote_refuses ok localSeq at').1
        simp [NodeEvent.vote, gives, ok, refused]
  · rw [votes_concat, lifeOf_concat, lifeAfter_campaigned]
    simp [NodeEvent.vote, gives]
  · simp [NodeEvent.vote, gives]
  · simp [silent, gives_other notVote notCampaign]
  · simp [silent, NodeEvent.vote, gives_other notVote notCampaign]
  · simp [silent, NodeEvent.vote, gives_other notVote notCampaign]

end ElectionNode

/-- Terms grow by one, until they wrap around. -/
theorem ElectionRuntime.nextTerm_cases {st : ElectionRuntime} (fits : st.currentTerm < u64Size) :
    st.nextTerm = 0 ∨ st.nextTerm = st.currentTerm + 1 := by
  unfold nextTerm
  rcases Nat.lt_or_ge (st.currentTerm + 1) u64Size with below | top
  · exact .inr (Nat.mod_eq_of_lt below)
  · have last : st.currentTerm + 1 = u64Size := le_antisymm fits top
    exact .inl (by rw [last, Nat.mod_self])

theorem ElectionRuntime.nextTerm_lt (st : ElectionRuntime) : st.nextTerm < u64Size :=
  Nat.mod_lt _ (by decide)

namespace Promises

variable {cfg : ElectionConfig} {n n' : ElectionNode} {report now : List NodeEvent} {a : NodeAction}

/-- Every step keeps the promises of the life it happens in. -/
theorem step (keeps : Promises cfg.selfId n report) (moved : n.step cfg a = some (n', now)) :
    Promises cfg.selfId n' (report ++ now) := by
  rcases ElectionNode.step_cases moved with ⟨req, localSeq, at', rfl, fits, runtime, rfl⟩ |
    ⟨seq, rfl, runtime, rfl⟩ | ⟨at', rfl, rfl, rfl⟩ |
    ⟨⟨term, vote⟩, -, -, silent | ⟨won, seq, silent⟩ | ⟨lost, silent⟩⟩
  · cases ok : n.runtime.passes cfg req with
    | true =>
        obtain ⟨granted, term, named⟩ := ElectionRuntime.handleVote_passes ok localSeq at'
        have known : n.runtime.currentTerm ≤ req.term := by
          simp only [ElectionRuntime.passes, ElectionRuntime.eligible, Bool.and_eq_true,
            decide_eq_true_eq] at ok
          exact ok.1.1.2
        rw [← runtime] at term named
        exact keeps.vote (v := ⟨lifeOf report, req.term, req.candidateId⟩) rfl
          (by simp [NodeEvent.vote, granted]) rfl (term ▸ fits) (term ▸ known) term.symm named
          fun v mem current same => keeps.backs.agrees ok mem current same
    | false =>
        have refused := (ElectionRuntime.handleVote_refuses ok localSeq at').1
        have term : (n.runtime.handleVote cfg req localSeq at').2.currentTerm = _ :=
          ElectionRuntime.handleVote_currentTerm localSeq at'
        refine keeps.quiet rfl (by simp [NodeEvent.vote, refused]) ?_ (keeps.backs.mono ?_ ?_)
        · rw [runtime, term]
          split_ifs
          · exact max_lt keeps.fits fits
          · exact keeps.fits
        · rw [runtime, term]
          split_ifs
          · exact le_max_left _ _
          · exact le_rfl
        · rw [runtime]
          exact fun same candidate voted => ElectionRuntime.handleVote_votedFor same voted
  · have opened : n'.runtime.currentTerm = n.runtime.nextTerm := by rw [runtime]; rfl
    have named : n'.runtime.votedFor = some cfg.selfId := by rw [runtime]; rfl
    have fits : n'.runtime.currentTerm < u64Size := opened ▸ n.runtime.nextTerm_lt
    rcases ElectionRuntime.nextTerm_cases keeps.fits with wrapped | grown
    · refine keeps.reborn (by rw [lifeAfter_campaigned, if_pos wrapped]) ?_ fits
      intro v mem
      cases mem
      exact ⟨by simp, opened.symm, named⟩
    · have positive : n.runtime.nextTerm ≠ 0 := by omega
      refine keeps.vote (v := ⟨lifeOf report, n.runtime.nextTerm, cfg.selfId⟩)
        (by rw [lifeAfter_campaigned, if_neg positive]) rfl rfl fits (by omega) opened.symm named ?_
      intro v mem current same
      have reached := (keeps.backs v mem current).1
      dsimp only at same
      omega
  · exact keeps.reborn rfl (fun v mem => by cases mem) (by change 0 < u64Size; decide)
  all_goals
    have backs : Backs n'.runtime (lifeOf report) (votes cfg.selfId report) :=
      keeps.backs.mono (le_of_eq term.symm) fun _ candidate voted => vote.trans voted
  · rw [silent, List.append_nil]
    exact ⟨term ▸ keeps.fits, keeps.past, backs, keeps.single⟩
  · rw [silent]
    exact keeps.quiet rfl rfl (term ▸ keeps.fits) backs
  · rw [silent]
    exact keeps.quiet rfl rfl (term ▸ keeps.fits) backs

theorem run {start : Nat} {labels : List NodeAction}
    (ran : (electionNode cfg).Run StepSystem.Always (.fresh start) labels n report) :
    Promises cfg.selfId n report :=
  ran.invariant (.start _ _) fun _ _ _ _ _ keeps _ moved => keeps.step moved

end Promises

/-! ### One vote in a term -/

/-- The node gave its vote in no term to two candidates. -/
def OneVotePerTerm (cfg : ElectionConfig) (report : List NodeEvent) : Prop :=
  ∀ v ∈ votes cfg.selfId report, ∀ v' ∈ votes cfg.selfId report,
    v.term = v'.term → v.candidate = v'.candidate

/-- The vote that the step gives is for the candidate of every vote in the same term that
an earlier life of the node gave. -/
def ForgottenVotesAgree (cfg : ElectionConfig) (n : ElectionNode) (report : List NodeEvent)
    (a : NodeAction) : Prop :=
  ∀ v ∈ n.gives cfg report a, ∀ v' ∈ votes cfg.selfId report,
    v'.life < v.life → v'.term = v.term → v'.candidate = v.candidate

variable {cfg : ElectionConfig} {start : Nat} {labels : List NodeAction} {n : ElectionNode}
  {report : List NodeEvent}

theorem OneVotePerTerm.step {n' : ElectionNode} {now : List NodeEvent} {a : NodeAction}
    (one : OneVotePerTerm cfg report) (keeps : Promises cfg.selfId n report)
    (agree : ForgottenVotesAgree cfg n report a)
    (moved : (electionNode cfg).step n a = some (n', now)) :
    OneVotePerTerm cfg (report ++ now) := by
  obtain ⟨given, current⟩ := ElectionNode.votes_step report moved
  have single := (keeps.step moved).single
  have past := (keeps.step moved).past
  -- A vote given before the step, against the one it gives.
  have key : ∀ v ∈ n.gives cfg report a, ∀ v' ∈ votes cfg.selfId report, v'.term = v.term →
      v'.candidate = v.candidate := by
    intro v gives v' mem same
    have new : v ∈ votes cfg.selfId (report ++ now) := by
      rw [given]
      exact List.mem_append_right _ (Option.mem_toList.mpr gives)
    have old : v' ∈ votes cfg.selfId (report ++ now) := by
      rw [given]
      exact List.mem_append_left _ mem
    rcases Nat.lt_or_eq_of_le (current v gives ▸ past v' old) with earlier | this
    · exact agree v gives v' mem earlier same
    · exact single v' old v new this same
  rw [OneVotePerTerm, given]
  intro v mem v' mem' same
  rcases List.mem_append.mp mem with old | new <;> rcases List.mem_append.mp mem' with old' | new'
  · exact one v old v' old' same
  · exact key v' (Option.mem_toList.mp new') v old same
  · exact (key v (Option.mem_toList.mp new) v' old' same.symm).symm
  · rw [Option.mem_toList] at new new'
    rw [Option.some.inj (new.symm.trans new')]

/-- A node votes for one candidate in each term of a run exactly when no step of it gives
a vote against one that an earlier life of the node gave. -/
theorem one_vote_per_term_iff
    (ran : (electionNode cfg).Run StepSystem.Always (.fresh start) labels n report) :
    OneVotePerTerm cfg report ↔
      (electionNode cfg).Run (ForgottenVotesAgree cfg) (.fresh start) labels n report := by
  constructor
  · intro one
    induction ran with
    | start => exact .start
    | @step labels s s' report now a before _ moved ih =>
        have given := (ElectionNode.votes_step report moved).1
        have keep : ∀ v ∈ votes cfg.selfId report, v ∈ votes cfg.selfId (report ++ now) := by
          intro v mem
          rw [given]
          exact List.mem_append_left _ mem
        refine .step (ih fun v mem v' mem' => one v (keep v mem) v' (keep v' mem')) ?_ moved
        intro v gives v' mem _ same
        refine one v' (keep v' mem) v ?_ same
        rw [given]
        exact List.mem_append_right _ (Option.mem_toList.mpr gives)
  · intro careful
    have both := careful.invariant
      (I := fun n report => OneVotePerTerm cfg report ∧ Promises cfg.selfId n report)
      ⟨by simp [OneVotePerTerm, votes, votesFrom], .start _ _⟩
      fun _ _ _ _ _ holds agree moved =>
        ⟨holds.1.step holds.2 agree moved, holds.2.step moved⟩
    exact both.1

/-- A node of three. -/
def threeNodes (selfId : Nat) : ElectionConfig where
  nodes := ["10.0.0.1:11436", "10.0.0.2:11436", "10.0.0.3:11436"]
  selfId := selfId
  heartbeatSecs := 5
  heartbeatFails := 3
  clusterToken := none

/-- A granted request, a restart, and a request of another candidate in the same term. -/
def voteAcrossRestart : List NodeAction :=
  [.handleVote ⟨1, 1, 0, ""⟩ 0 1000, .restart 2000, .handleVote ⟨1, 2, 0, ""⟩ 0 3000]

def twoGrants : List NodeEvent :=
  [.answered ⟨1, 1, 0, ""⟩ 0 ⟨1, true, 0⟩, .restarted, .answered ⟨1, 2, 0, ""⟩ 0 ⟨1, true, 0⟩]

theorem run_voteAcrossRestart :
    (electionNode (threeNodes 0)).Run StepSystem.Always (.fresh 0) voteAcrossRestart
      ⟨⟨.follower, 1, some 2, 3000, 0⟩, none⟩ twoGrants :=
  .of_exec (fun _ _ _ (_ : true = true) => trivial) (by decide +kernel)

/-- The restarted node votes for a second candidate of term 1. -/
theorem restart_forgets_vote : ¬ ∀ cfg start labels n report,
    (electionNode cfg).Run StepSystem.Always (.fresh start) labels n report →
      OneVotePerTerm cfg report := by
  intro always
  have one := always _ _ _ _ _ run_voteAcrossRestart
  have given : votes (threeNodes 0).selfId twoGrants = [⟨0, 1, 1⟩, ⟨1, 1, 2⟩] := by decide
  have same := one ⟨0, 1, 1⟩ (by rw [given]; simp) ⟨1, 1, 2⟩ (by rw [given]; simp) rfl
  exact absurd same (by decide)

theorem one_vote_per_term_iff_across_restart :
    OneVotePerTerm (threeNodes 0) twoGrants ↔
      (electionNode (threeNodes 0)).Run (ForgottenVotesAgree (threeNodes 0)) (.fresh 0)
        voteAcrossRestart ⟨⟨.follower, 1, some 2, 3000, 0⟩, none⟩ twoGrants :=
  one_vote_per_term_iff run_voteAcrossRestart

/-! ### Campaigns and newer terms -/

/-- The steps that can come between the two critical sections of a campaign. -/
def NodeAction.within : NodeAction → Bool
  | .campaign _ | .finish _ | .restart _ => false
  | _ => true

/-- A vote request that is heard. -/
def NodeAction.brings (cfg : ElectionConfig) (term : Nat) : NodeAction → Prop
  | .handleVote req _ _ => cfg.acceptsToken req.token = true ∧ req.term = term
  | _ => False

theorem votesFrom_within {n' : ElectionNode} {now : List NodeEvent} {a : NodeAction}
    (moved : n.step cfg a = some (n', now)) (inside : a.within = true) (life : Nat) :
    now.foldl NodeEvent.lifeAfter life = life ∧
      ∀ v ∈ votesFrom cfg.selfId life now, v.term ≤ n'.runtime.currentTerm := by
  rcases ElectionNode.step_cases moved with ⟨req, localSeq, at', rfl, -, runtime, rfl⟩ |
    ⟨seq, rfl, -, -⟩ | ⟨at', rfl, -, -⟩ | ⟨-, -, -, silent⟩
  · refine ⟨rfl, fun v mem => ?_⟩
    simp only [votesFrom, NodeEvent.vote, List.append_nil, Option.mem_toList,
      Option.ite_none_right_eq_some] at mem
    obtain ⟨granted, given⟩ := mem
    cases given
    have ok := (ElectionRuntime.handleVote_granted_iff localSeq at').mp granted
    rw [runtime, (ElectionRuntime.handleVote_passes ok localSeq at').2.1]
  · cases inside
  · cases inside
  · rcases silent with rfl | ⟨term, seq, rfl⟩ | ⟨term, rfl⟩
    · exact ⟨rfl, fun v mem => by cases mem⟩
    · exact ⟨rfl, fun v mem => by cases mem⟩
    · exact ⟨rfl, fun v mem => by cases mem⟩

/-- The term stays within a bound exactly when no request that is heard is above it. -/
theorem currentTerm_within {n' : ElectionNode} {now : List NodeEvent} {a : NodeAction}
    (moved : n.step cfg a = some (n', now)) (inside : a.within = true) (bound : Nat) :
    n'.runtime.currentTerm ≤ bound ↔
      n.runtime.currentTerm ≤ bound ∧ ∀ term, a.brings cfg term → term ≤ bound := by
  rcases ElectionNode.step_cases moved with ⟨req, localSeq, at', rfl, -, runtime, -⟩ |
    ⟨seq, rfl, -, -⟩ | ⟨at', rfl, -, -⟩ | ⟨⟨term, -⟩, notVote, -, -⟩
  · rw [runtime, ElectionRuntime.handleVote_currentTerm]
    cases token : cfg.acceptsToken req.token with
    | true => simp [NodeAction.brings, token]
    | false => simp [NodeAction.brings, token]
  · cases inside
  · cases inside
  · have brings : ∀ term, ¬ a.brings cfg term := by
      intro term
      cases a with
      | handleVote req localSeq at' => exact absurd rfl (notVote req localSeq at')
      | _ => exact id
    simp [term, brings]

/-- A campaign under way keeps its term. -/
theorem campaign_within {n' : ElectionNode} {now : List NodeEvent} {a : NodeAction}
    (moved : n.step cfg a = some (n', now)) (inside : a.within = true) :
    n'.campaign.map Campaign.term = n.campaign.map Campaign.term := by
  cases ElectionNode.stepped moved with
  | handleVote | refreshLease => rfl
  | ask running | count running =>
      rw [running]
      rfl
  | campaign | won | lost | restart => cases inside

theorem run_within {n₁ n₂ : ElectionNode} {asks : List NodeAction} {out : List NodeEvent}
    (during : (electionNode cfg).Run StepSystem.Always n₁ asks n₂ out)
    (inside : ∀ a ∈ asks, a.within = true) (life : Nat) :
    n₂.campaign.map Campaign.term = n₁.campaign.map Campaign.term ∧
      out.foldl NodeEvent.lifeAfter life = life ∧
      (∀ v ∈ votesFrom cfg.selfId life out, v.term ≤ n₂.runtime.currentTerm) ∧
      ∀ bound, n₂.runtime.currentTerm ≤ bound ↔ n₁.runtime.currentTerm ≤ bound ∧
        ∀ a ∈ asks, ∀ term, a.brings cfg term → term ≤ bound := by
  induction during with
  | start => exact ⟨rfl, rfl, fun v mem => (List.not_mem_nil mem).elim, by simp⟩
  | @step asks n₂ n₃ out now a before _ moved ih =>
      obtain ⟨campaign, same, given, bounds⟩ := ih fun a mem => inside a (List.mem_append_left _ mem)
      have allowed := inside a (List.mem_append_right _ List.mem_cons_self)
      obtain ⟨same', given'⟩ := votesFrom_within moved allowed life
      have grows := currentTerm_within moved allowed
      refine ⟨(campaign_within moved allowed).trans campaign, ?_, ?_, fun bound => ?_⟩
      · rw [List.foldl_append, same, same']
      · rw [votesFrom_append, same]
        intro v mem
        rcases List.mem_append.mp mem with old | new
        · exact le_trans (given v old) ((grows _).mp le_rfl).1
        · exact given' v new
      · rw [grows, bounds, and_assoc]
        simp [or_imp, forall_and]

theorem begun_spec {n₁ : ElectionNode} {began : List NodeEvent} {seq : Int}
    (begun : n.step cfg (.campaign seq) = some (n₁, began)) :
    n₁.runtime.currentTerm = n.runtime.nextTerm ∧
      n₁.campaign.map Campaign.term = some n.runtime.nextTerm := by
  cases ElectionNode.stepped begun
  exact ⟨rfl, rfl⟩

theorem won_spec {n' : ElectionNode} {at' term : Nat} {lastSeq : Int}
    (won : n.step cfg (.finish at') = some (n', [.won term lastSeq])) :
    n.campaign.map Campaign.term = some term ∧
      n'.runtime.currentTerm = n.runtime.currentTerm := by
  cases ElectionNode.stepped won with
  | won running =>
      rw [running]
      exact ⟨rfl, by simp⟩

/-- When a campaign wins, its node is still in the campaign's term and has voted in no
term above it exactly when no vote request of a newer term was heard while the campaign
was under way, and no earlier life of the node voted in a newer term. -/
theorem overtaken_campaign_iff {n₁ n₂ n₃ : ElectionNode} {asks : List NodeAction}
    {began out : List NodeEvent} {seq lastSeq : Int} {at' term : Nat}
    (ran : (electionNode cfg).Run StepSystem.Always (.fresh start) labels n report)
    (begun : n.step cfg (.campaign seq) = some (n₁, began))
    (during : (electionNode cfg).Run StepSystem.Always n₁ asks n₂ out)
    (inside : ∀ a ∈ asks, a.within = true)
    (won : n₂.step cfg (.finish at') = some (n₃, [.won term lastSeq])) :
    term = n.runtime.nextTerm ∧
      ((n₃.runtime.currentTerm = term ∧
          ∀ v ∈ votes cfg.selfId (report ++ began ++ out), v.term ≤ term) ↔
        (∀ a ∈ asks, ∀ newer, a.brings cfg newer → newer ≤ term) ∧
          ∀ v ∈ votes cfg.selfId report, v.life < lifeOf (report ++ began) → v.term ≤ term) := by
  obtain ⟨opened, campaign⟩ := begun_spec begun
  obtain ⟨campaign', -, given, bounds⟩ := run_within during inside (lifeOf (report ++ began))
  obtain ⟨closed, still⟩ := won_spec won
  have same : term = n.runtime.nextTerm :=
    Option.some.inj (closed.symm.trans (campaign'.trans campaign))
  refine ⟨same, ?_⟩
  rw [← same] at opened
  have keeps := (Promises.run ran).step begun
  have earlier : ∀ v ∈ votes cfg.selfId report, v ∈ votes cfg.selfId (report ++ began) := by
    intro v mem
    rw [(ElectionNode.votes_step report begun).1]
    exact List.mem_append_left _ mem
  have all : votes cfg.selfId (report ++ began ++ out) =
      votes cfg.selfId (report ++ began) ++
        votesFrom cfg.selfId (lifeOf (report ++ began)) out := votesFrom_append _ _ _ _
  rw [still, all]
  constructor
  · rintro ⟨inTerm, below⟩
    refine ⟨((bounds term).mp (le_of_eq inTerm)).2, fun v mem _ => ?_⟩
    exact below v (List.mem_append_left _ (earlier v mem))
  · rintro ⟨calm, old⟩
    have inTerm : n₂.runtime.currentTerm = term := le_antisymm
      ((bounds term).mpr ⟨le_of_eq opened, calm⟩) (opened ▸ ((bounds _).mp le_rfl).1)
    refine ⟨inTerm, fun v mem => ?_⟩
    rcases List.mem_append.mp mem with before | after
    · rcases Nat.lt_or_eq_of_le (keeps.past v before) with forgotten | current
      · rw [(ElectionNode.votes_step report begun).1] at before
        rcases List.mem_append.mp before with mem' | self
        · exact old v mem' forgotten
        · have life := (ElectionNode.votes_step report begun).2 v (Option.mem_toList.mp self)
          exact absurd life (ne_of_lt forgotten)
      · exact opened ▸ (keeps.backs v before current).1
    · exact inTerm ▸ given v after

/-- The campaign of node 0 in term 1, with the given peers still to answer. -/
def firstCampaign (peers : List String) (granted : Nat) : Campaign where
  term := 1
  request := ⟨1, 0, 0, ""⟩
  peers := peers
  waiting := none
  granted := granted

/-- A peer is asked, a request of term 5 gets the node's vote, the peer grants, and the
other peer is down. -/
def overtaken : List NodeAction :=
  [.ask 0, .handleVote ⟨5, 2, 0, ""⟩ 0 1000, .count (some ⟨1, true, 0⟩), .count none]

theorem run_overtaken :
    (electionNode (threeNodes 0)).Run StepSystem.Always
      ⟨⟨.candidate, 1, some 0, 0, 0⟩, some (firstCampaign (threeNodes 0).peers 1)⟩ overtaken
      ⟨⟨.follower, 5, some 2, 1000, 0⟩, some (firstCampaign [] 2)⟩
      [.answered ⟨5, 2, 0, ""⟩ 0 ⟨5, true, 0⟩] :=
  .of_exec (fun _ _ _ (_ : true = true) => trivial) (by decide +kernel)

/-- The campaign of term 1 wins on a node that has moved to term 5 and voted there. -/
theorem overtaken_campaign_wins : ¬ ∀ (cfg : ElectionConfig) (start : Nat) (labels : List NodeAction)
    (n : ElectionNode) (report : List NodeEvent) (n₁ n₂ n₃ : ElectionNode) (asks : List NodeAction)
    (began out : List NodeEvent) (seq lastSeq : Int) (at' term : Nat),
    (electionNode cfg).Run StepSystem.Always (.fresh start) labels n report →
    n.step cfg (.campaign seq) = some (n₁, began) →
    (electionNode cfg).Run StepSystem.Always n₁ asks n₂ out → (∀ a ∈ asks, a.within = true) →
    n₂.step cfg (.finish at') = some (n₃, [.won term lastSeq]) →
      n₃.runtime.currentTerm = term ∧
        ∀ v ∈ votes cfg.selfId (report ++ began ++ out), v.term ≤ term := by
  intro always
  have claim := always (threeNodes 0) 0 [] (.fresh 0) [] _ _ _ overtaken _ _ 0 0 2000 1 .start rfl
    run_overtaken (by decide) rfl
  exact absurd claim.1 (by decide)

theorem overtaken_campaign_iff_term_five :
    (5 = 1 ∧ ∀ v ∈ votes 0 ([] ++ [.campaigned 1 0] ++ [.answered ⟨5, 2, 0, ""⟩ 0 ⟨5, true, 0⟩]),
        v.term ≤ 1) ↔
      (∀ a ∈ overtaken, ∀ newer, a.brings (threeNodes 0) newer → newer ≤ 1) ∧
        ∀ v ∈ votes 0 [], v.life < lifeOf ([] ++ [.campaigned 1 0]) → v.term ≤ 1 :=
  (@overtaken_campaign_iff (threeNodes 0) 0 [] (.fresh 0) [] _ _ _ overtaken _ _ 0 0 2000 1 .start
    rfl run_overtaken (by decide) rfl).2

end FusionMemory
