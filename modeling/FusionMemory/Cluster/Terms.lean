import FusionMemory.Cluster.VotePromise

/-!
The growth of terms (`campaign` and `handle_vote` of `fm-cluster/src/election.rs`).

A node adopts the term of any request that it hears and opens the next one when it
campaigns. The counter is a `u64` that is incremented unchecked, so a campaign in the last
term leads back to term 0. `terms_grow_iff` says that this is the only way in which the
term of a running process can fall.
-/

namespace FusionMemory

open Lib

variable {cfg : ElectionConfig} {n n' first : ElectionNode} {a : NodeAction}
  {report now : List NodeEvent} {labels : List NodeAction}

/-- The process is not restarted. -/
def NodeAction.continues : NodeAction → Bool
  | .restart _ => false
  | _ => true

/-- The step does not lower the term. -/
def TermKept (cfg : ElectionConfig) (n : ElectionNode) (_ : List NodeEvent) (a : NodeAction) : Prop :=
  ∀ n' now, n.step cfg a = some (n', now) → n.runtime.currentTerm ≤ n'.runtime.currentTerm

/-- A campaign is not begun in the last term. -/
def TermLeft (n : ElectionNode) (_ : List NodeEvent) (a : NodeAction) : Prop :=
  ∀ seq, a = .campaign seq → n.runtime.currentTerm + 1 < u64Size

theorem ElectionRuntime.le_nextTerm_iff {st : ElectionRuntime} (fits : st.currentTerm < u64Size) :
    st.currentTerm ≤ st.nextTerm ↔ st.currentTerm + 1 < u64Size := by
  unfold nextTerm
  rcases Nat.lt_or_ge (st.currentTerm + 1) u64Size with below | top
  · rw [Nat.mod_eq_of_lt below]
    exact ⟨fun _ => below, fun _ => Nat.le_succ _⟩
  · have last : st.currentTerm + 1 = u64Size := le_antisymm fits top
    have positive : 0 < st.currentTerm := by
      rw [u64Size] at last
      omega
    rw [last, Nat.mod_self]
    exact ⟨fun zero => absurd zero (not_le.mpr positive), fun less => absurd less (lt_irrefl _)⟩

/-- The term falls in a campaign that is begun in the last term, and in no other step. -/
theorem step_keeps_term_iff (fits : n.runtime.currentTerm < u64Size) (alive : a.continues = true)
    (moved : n.step cfg a = some (n', now)) :
    n.runtime.currentTerm ≤ n'.runtime.currentTerm ↔
      ∀ seq, a = .campaign seq → n.runtime.currentTerm + 1 < u64Size := by
  cases inside : a.within with
  | true =>
      have grows := ((currentTerm_within moved inside n'.runtime.currentTerm).mp le_rfl).1
      refine ⟨fun _ seq same => ?_, fun _ => grows⟩
      rw [same] at inside
      cases inside
  | false =>
      rcases ElectionNode.step_cases moved with ⟨req, localSeq, at', rfl, -⟩ |
        ⟨seq, rfl, runtime, -⟩ | ⟨at', rfl, -⟩ | ⟨⟨term, -⟩, -, notCampaign, -⟩
      · cases inside
      · rw [runtime]
        exact (ElectionRuntime.le_nextTerm_iff fits).trans ⟨fun left _ _ => left, fun left => left seq rfl⟩
      · cases alive
      · exact ⟨fun _ seq same => absurd same (notCampaign seq), fun _ => term.ge⟩

/-- Terms stay in the range of a `u64`. -/
theorem step_fits (fits : n.runtime.currentTerm < u64Size)
    (moved : n.step cfg a = some (n', now)) : n'.runtime.currentTerm < u64Size := by
  rcases ElectionNode.step_cases moved with ⟨req, localSeq, at', -, request, runtime, -⟩ |
    ⟨seq, -, runtime, -⟩ | ⟨at', -, rfl, -⟩ | ⟨⟨term, -⟩, -, -, -⟩
  · rw [runtime, ElectionRuntime.handleVote_currentTerm]
    split_ifs
    · exact max_lt fits request
    · exact fits
  · rw [runtime]
    exact n.runtime.nextTerm_lt
  · change 0 < u64Size
    decide
  · rw [term]
    exact fits

/-- The term of a process falls in no step of a run exactly when no campaign of the run is
begun in the last term, and then it is no lower after the run than before. -/
theorem terms_grow_iff (fits : first.runtime.currentTerm < u64Size)
    (alive : ∀ a ∈ labels, a.continues = true) :
    ((electionNode cfg).Run (TermKept cfg) first labels n report ↔
      (electionNode cfg).Run TermLeft first labels n report) ∧
    ((electionNode cfg).Run TermLeft first labels n report →
      first.runtime.currentTerm ≤ n.runtime.currentTerm) := by
  refine ⟨⟨fun kept => ?_, fun left => ?_⟩, fun left => ?_⟩
  · refine (kept.of_labels alive).mono_of_invariant (I := fun n _ => n.runtime.currentTerm < u64Size)
      fits (fun _ _ _ _ _ fits _ moved => step_fits fits moved) ?_
    rintro n report a n' now fits ⟨kept, alive⟩ moved
    exact (step_keeps_term_iff fits alive moved).mp (kept n' now moved)
  · refine (left.of_labels alive).mono_of_invariant (I := fun n _ => n.runtime.currentTerm < u64Size)
      fits (fun _ _ _ _ _ fits _ moved => step_fits fits moved) ?_
    rintro n report a - - fits ⟨left, alive⟩ - n' now moved
    exact (step_keeps_term_iff fits alive moved).mpr left
  · have invariant := (left.of_labels alive).invariant (I := fun n _ =>
      first.runtime.currentTerm ≤ n.runtime.currentTerm ∧ n.runtime.currentTerm < u64Size)
      ⟨le_rfl, fits⟩ ?_
    · exact invariant.1
    rintro n report a n' now ⟨grown, fits⟩ ⟨left, alive⟩ moved
    exact ⟨grown.trans ((step_keeps_term_iff fits alive moved).mpr left), step_fits fits moved⟩

/-- Node 0 of a cluster with a token. -/
def tokenNode : ElectionConfig := { threeNodes 0 with clusterToken := some "t" }

/-- A peer that has the token asks for a vote in the last term. -/
def lastTermVote : List NodeAction := [.handleVote ⟨18446744073709551615, 2, 0, "t"⟩ 0 1000]

def lastTermGrant : List NodeEvent :=
  [.answered ⟨18446744073709551615, 2, 0, "t"⟩ 0 ⟨18446744073709551615, true, 0⟩]

def inLastTerm : ElectionNode := ⟨⟨.follower, 18446744073709551615, some 2, 1000, 0⟩, none⟩

/-- The node campaigns in term 0. -/
def backInTermZero : ElectionNode :=
  ⟨⟨.candidate, 0, some 0, 1000, 0⟩, some ((inLastTerm.runtime.beginCampaign tokenNode 0).1)⟩

theorem run_lastTermVote :
    (electionNode tokenNode).Run StepSystem.Always (.fresh 0) lastTermVote inLastTerm lastTermGrant :=
  .of_exec (fun _ _ _ (_ : true = true) => trivial) (by rfl)

theorem run_campaignInLastTerm :
    (electionNode tokenNode).Run StepSystem.Always inLastTerm [.campaign 0] backInTermZero
      [.campaigned 0 0] :=
  .of_exec (fun _ _ _ (_ : true = true) => trivial) (by rfl)

/-- After a request of the last term a campaign begins in term 0. -/
theorem campaign_in_last_term_falls : ¬ ∀ (cfg : ElectionConfig) (start : Nat)
    (before after : List NodeAction) (n n' : ElectionNode) (report report' : List NodeEvent),
    (∀ a ∈ before ++ after, a.continues = true) →
    (electionNode cfg).Run StepSystem.Always (.fresh start) before n report →
    (electionNode cfg).Run StepSystem.Always n after n' report' →
    n.runtime.currentTerm ≤ n'.runtime.currentTerm := by
  intro grows
  have higher := grows _ _ _ _ _ _ _ _ (by decide) run_lastTermVote run_campaignInLastTerm
  exact absurd higher (by decide)

/-- A vote in term 5, and a campaign of the node's own. -/
def voteThenCampaign : List NodeAction := [.handleVote ⟨5, 2, 0, "t"⟩ 0 1000, .campaign 0]

def inTermFive : ElectionNode := ⟨⟨.follower, 5, some 2, 1000, 0⟩, none⟩

/-- The node campaigns in term 6. -/
def inTermSix : ElectionNode :=
  ⟨⟨.candidate, 6, some 0, 1000, 0⟩, some ((inTermFive.runtime.beginCampaign tokenNode 0).1)⟩

def voteThenCampaignReport : List NodeEvent :=
  [.answered ⟨5, 2, 0, "t"⟩ 0 ⟨5, true, 0⟩, .campaigned 6 0]

theorem run_voteThenCampaign : (electionNode tokenNode).Run TermLeft (.fresh 0) voteThenCampaign
    inTermSix voteThenCampaignReport := by
  have voted : (electionNode tokenNode).step (.fresh 0) (.handleVote ⟨5, 2, 0, "t"⟩ 0 1000) =
      some (inTermFive, [.answered ⟨5, 2, 0, "t"⟩ 0 ⟨5, true, 0⟩]) := rfl
  have campaigned : (electionNode tokenNode).step inTermFive (.campaign 0) =
      some (inTermSix, [.campaigned 6 0]) := rfl
  exact .step (.step .start (fun seq no => by cases no) voted)
    (fun seq _ => show 5 + 1 < u64Size by decide) campaigned

theorem terms_grow_iff_voteThenCampaign :
    (electionNode tokenNode).Run (TermKept tokenNode) (.fresh 0) voteThenCampaign inTermSix
        voteThenCampaignReport ∧
      (ElectionNode.fresh 0).runtime.currentTerm ≤ inTermSix.runtime.currentTerm := by
  have start : (ElectionNode.fresh 0).runtime.currentTerm < u64Size := by decide
  have alive : ∀ a ∈ voteThenCampaign, a.continues = true := by decide
  obtain ⟨kept, grown⟩ := terms_grow_iff start alive
  exact ⟨kept.mpr run_voteThenCampaign, grown run_voteThenCampaign⟩

end FusionMemory
