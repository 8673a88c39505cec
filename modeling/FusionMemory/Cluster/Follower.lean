import FusionMemory.Lib.Trace
import FusionMemory.Cluster.CommitPayload

/-!
Followers (`fm-cluster/src/transport.rs`, `replay_wops` of `fm-cluster/src/replay.rs`).

`syncOnce` asks the leader for the log entries after its cursor, checks the leader's epoch
and replays the entries in order, up to the first that fails. It is written over any
monad: the exchange with the leader and the replay of one entry are its operations.

`follower` takes such synchronizations one after the other, each with whatever response
and replay results there are, and reports what was accepted and replayed.
`fenced_by_config` is what the epochs of leaders mean to it, and `fenced_iff_one_epoch` which leaders
cannot lead it back.
-/

namespace FusionMemory

open Lib

/-! ### Messages and configuration -/

structure Hello where
  followerLastSeq : Nat
  token : String
  epoch : Nat
deriving DecidableEq, Repr

structure SyncRequest where
  sinceSeq : Nat
  limit : Nat
deriving DecidableEq, Repr

structure SyncResponse where
  entries : List WopEntry
  leaderEpoch : Nat
deriving DecidableEq, Repr

structure SyncConfig where
  leaderAddr : String
  heartbeatSecs : Nat
  heartbeatFails : Nat
  fetchLimit : Nat
  clusterToken : Option String
  /-- From the environment; 0 does not fence. -/
  epoch : Nat
deriving DecidableEq, Repr

/-! ### Replay -/

structure ReplayOutcome where
  applied : Nat
  skipped : Nat
  lastAppliedSeq : Nat
  failed : Bool
  permanent : Bool
deriving DecidableEq, Repr

section Replay

variable {M : Type → Type} [Monad M] (replayOne : WopEntry → M (Except ClusterError Bool))

/-- The loop of `replay_wops`: the first failure ends it. -/
def replayFrom : List WopEntry → ReplayOutcome → M ReplayOutcome
  | [], outcome => return outcome
  | entry :: rest, outcome => do
      match ← replayOne entry with
      | .ok true =>
          replayFrom rest { outcome with
            applied := outcome.applied + 1
            lastAppliedSeq := max outcome.lastAppliedSeq entry.seq }
      | .ok false =>
          replayFrom rest { outcome with
            skipped := outcome.skipped + 1
            lastAppliedSeq := max outcome.lastAppliedSeq entry.seq }
      | .error e => return { outcome with failed := true, permanent := e.isPermanent }

def replayWops (entries : List WopEntry) : M ReplayOutcome :=
  replayFrom replayOne entries
    { applied := 0, skipped := 0, lastAppliedSeq := 0, failed := false, permanent := false }

end Replay

structure Follower where
  cfg : SyncConfig
  localLastSeq : Nat
deriving DecidableEq, Repr

namespace Follower

/-- `sync_once`: the cursor, the number of applied entries, and whether the batch failed
and failed for good. -/
def syncOnce {M : Type → Type} [Monad M]
    (exchange : Hello → SyncRequest → M (Except ClusterError SyncResponse))
    (replayOne : WopEntry → M (Except ClusterError Bool)) (f : Follower) :
    M (Except ClusterError (Nat × Nat × Bool × Bool) × Follower) := do
  let hello : Hello :=
    { followerLastSeq := f.localLastSeq
      token := f.cfg.clusterToken.getD ""
      epoch := f.cfg.epoch }
  let req : SyncRequest := { sinceSeq := f.localLastSeq, limit := f.cfg.fetchLimit }
  match ← exchange hello req with
  | .error e => return (.error e, f)
  | .ok resp =>
      if f.cfg.epoch > 0 ∧ resp.leaderEpoch < f.cfg.epoch then
        return (.error (.staleLeader resp.leaderEpoch f.cfg.epoch), f)
      else
        let outcome ← replayWops replayOne resp.entries
        let f := if outcome.lastAppliedSeq > f.localLastSeq then
          { f with localLastSeq := outcome.lastAppliedSeq } else f
        return (.ok (f.localLastSeq, outcome.applied, outcome.failed, outcome.permanent), f)

end Follower

/-! ### Reported synchronizations -/

inductive FollowerEvent where
  /-- The leader's epoch passed. -/
  | accepted (leaderEpoch : Nat)
  /-- An entry was applied, or skipped on purpose. -/
  | replayed (leaderEpoch : Nat) (entry : WopEntry) (applied : Bool)
deriving DecidableEq, Repr

/-- What came of the exchange, and of each entry that is replayed. -/
structure Sync where
  response : Except ClusterError SyncResponse
  result : WopEntry → Except ClusterError Bool

namespace Sync

/-- Replay with the given results, on record. -/
def replayOne (batch : Sync) (entry : WopEntry) :
    StateM (List (WopEntry × Bool)) (Except ClusterError Bool) := do
  match batch.result entry with
  | .ok applied =>
      modify fun log => log ++ [(entry, applied)]
      return .ok applied
  | .error e => return .error e

/-- The entries that are replayed: those before the first failure. -/
def handled (batch : Sync) : List WopEntry → List (WopEntry × Bool)
  | [] => []
  | entry :: rest =>
      match batch.result entry with
      | .ok applied => (entry, applied) :: handled batch rest
      | .error _ => []

end Sync

namespace Follower

/-- One `sync_once`, and what it reports. -/
def sync (f : Follower) (batch : Sync) : Follower × List FollowerEvent :=
  let ((result, f'), log) := (f.syncOnce (fun _ _ => pure batch.response) batch.replayOne).run []
  match batch.response, result with
  | .ok resp, .ok _ =>
      (f', .accepted resp.leaderEpoch :: log.map fun p => .replayed resp.leaderEpoch p.1 p.2)
  | .ok resp, .error _ => (f', log.map fun p => .replayed resp.leaderEpoch p.1 p.2)
  | .error _, _ => (f', [])

end Follower

/-- The largest of some sequence numbers, 0 when there is none. -/
def maxSeq (seqs : List Nat) : Nat := seqs.max?.getD 0

theorem foldl_max_zero (seqs : List Nat) : seqs.foldl max 0 = maxSeq seqs := by
  rw [List.foldl_max, Nat.zero_max, maxSeq]

theorem le_maxSeq {seqs : List Nat} {seq : Nat} (mem : seq ∈ seqs) : seq ≤ maxSeq seqs :=
  List.le_max?_getD_of_mem mem

theorem maxSeq_mem {seqs : List Nat} (positive : 0 < maxSeq seqs) : maxSeq seqs ∈ seqs := by
  unfold maxSeq at positive ⊢
  cases max : seqs.max? with
  | none => simp [max] at positive
  | some seq => exact List.max?_mem max

theorem maxSeq_le_iff {seqs : List Nat} {bound : Nat} :
    maxSeq seqs ≤ bound ↔ ∀ seq ∈ seqs, seq ≤ bound := by
  constructor
  · exact fun below seq mem => (le_maxSeq mem).trans below
  · intro all
    rcases Nat.eq_zero_or_pos (maxSeq seqs) with zero | positive
    · rw [zero]
      exact Nat.zero_le bound
    · exact all _ (maxSeq_mem positive)

theorem maxSeq_append (first second : List Nat) :
    maxSeq (first ++ second) = max (maxSeq first) (maxSeq second) := by
  refine le_antisymm (maxSeq_le_iff.mpr fun seq mem => ?_) (max_le ?_ ?_)
  · rcases List.mem_append.mp mem with left | right
    · exact (le_maxSeq left).trans (le_max_left _ _)
    · exact (le_maxSeq right).trans (le_max_right _ _)
  · exact maxSeq_le_iff.mpr fun seq mem => le_maxSeq (List.mem_append_left _ mem)
  · exact maxSeq_le_iff.mpr fun seq mem => le_maxSeq (List.mem_append_right _ mem)

/-- The largest sequence number of a batch. -/
def lastSeq (handled : List (WopEntry × Bool)) : Nat := maxSeq (handled.map fun p => p.1.seq)

theorem replayFrom_run (batch : Sync) (entries : List WopEntry) :
    ∀ (outcome : ReplayOutcome) (log : List (WopEntry × Bool)),
      ((replayFrom batch.replayOne entries outcome).run log).2 = log ++ batch.handled entries ∧
        ((replayFrom batch.replayOne entries outcome).run log).1.lastAppliedSeq =
          ((batch.handled entries).map fun p => p.1.seq).foldl max outcome.lastAppliedSeq := by
  induction entries with
  | nil =>
      intro outcome log
      exact ⟨(List.append_nil log).symm, rfl⟩
  | cons entry rest ih =>
      intro outcome log
      unfold replayFrom Sync.replayOne Sync.handled
      cases result : batch.result entry with
      | error e => exact ⟨(List.append_nil log).symm, rfl⟩
      | ok applied =>
          cases applied with
          | true =>
              obtain ⟨record, cursor⟩ := ih { outcome with
                applied := outcome.applied + 1
                lastAppliedSeq := max outcome.lastAppliedSeq entry.seq } (log ++ [(entry, true)])
              rw [List.append_assoc] at record
              exact ⟨record, cursor⟩
          | false =>
              obtain ⟨record, cursor⟩ := ih { outcome with
                skipped := outcome.skipped + 1
                lastAppliedSeq := max outcome.lastAppliedSeq entry.seq } (log ++ [(entry, false)])
              rw [List.append_assoc] at record
              exact ⟨record, cursor⟩

namespace Follower

variable {f : Follower} {batch : Sync}

/-- The epoch passes the check of `sync_once`. -/
def Accepts (f : Follower) (leaderEpoch : Nat) : Prop := f.cfg.epoch ≤ leaderEpoch

theorem sync_error {e : ClusterError} (failed : batch.response = .error e) :
    f.sync batch = (f, []) := by
  unfold sync syncOnce
  rw [failed]
  rfl

theorem sync_stale {resp : SyncResponse} (response : batch.response = .ok resp)
    (stale : ¬ f.Accepts resp.leaderEpoch) : f.sync batch = (f, []) := by
  have fenced : f.cfg.epoch > 0 ∧ resp.leaderEpoch < f.cfg.epoch := by
    unfold Accepts at stale
    omega
  unfold sync syncOnce
  simp only [response, pure_bind]
  rw [if_pos fenced]
  rfl

/-- The cursor moves to the last replayed entry, never back. -/
theorem sync_accepts {resp : SyncResponse} (response : batch.response = .ok resp)
    (accepts : f.Accepts resp.leaderEpoch) :
    f.sync batch =
      ({ f with localLastSeq := max f.localLastSeq (lastSeq (batch.handled resp.entries)) },
        .accepted resp.leaderEpoch ::
          (batch.handled resp.entries).map fun p => .replayed resp.leaderEpoch p.1 p.2) := by
  have passes : ¬ (f.cfg.epoch > 0 ∧ resp.leaderEpoch < f.cfg.epoch) := by
    unfold Accepts at accepts
    omega
  obtain ⟨record, cursor⟩ := replayFrom_run batch resp.entries
    { applied := 0, skipped := 0, lastAppliedSeq := 0, failed := false, permanent := false } []
  unfold sync syncOnce replayWops
  simp only [response, pure_bind]
  rw [if_neg passes, StateT.run_bind]
  generalize (replayFrom batch.replayOne resp.entries _).run [] = ran at record cursor ⊢
  obtain ⟨outcome, log⟩ := ran
  have moved : (if outcome.lastAppliedSeq > f.localLastSeq then
        { f with localLastSeq := outcome.lastAppliedSeq } else f) =
      { f with localLastSeq := max f.localLastSeq (lastSeq (batch.handled resp.entries)) } := by
    rw [foldl_max_zero] at cursor
    rw [show outcome.lastAppliedSeq = lastSeq (batch.handled resp.entries) from cursor]
    split_ifs with ahead
    · rw [max_eq_right (le_of_lt ahead)]
    · rw [max_eq_left (not_lt.mp ahead)]
  have log_eq : log = batch.handled resp.entries := record
  rw [← moved, ← log_eq]
  rfl

theorem sync_cfg (f : Follower) (batch : Sync) : (f.sync batch).1.cfg = f.cfg := by
  cases response : batch.response with
  | error e => rw [sync_error response]
  | ok resp =>
      by_cases accepts : f.Accepts resp.leaderEpoch
      · rw [sync_accepts response accepts]
      · rw [sync_stale response accepts]

end Follower

/-! ### Epochs of leaders -/

/-- A follower that synchronizes with any leaders. -/
def follower : StepSystem Follower Sync FollowerEvent := ⟨fun f batch => some (f.sync batch)⟩

namespace FollowerEvent

/-- The epoch of a leader whose response was accepted. -/
def acceptedEpoch : FollowerEvent → Option Nat
  | .accepted leaderEpoch => some leaderEpoch
  | .replayed _ _ _ => none

/-- The epoch of a leader from whom an entry was applied. -/
def appliedEpoch : FollowerEvent → Option Nat
  | .replayed leaderEpoch _ true => some leaderEpoch
  | _ => none

/-- The epoch of a leader that was listened to. -/
def epoch : FollowerEvent → Nat
  | .accepted leaderEpoch | .replayed leaderEpoch _ _ => leaderEpoch

end FollowerEvent

/-- Once a response was accepted, entries are applied from no lower epoch. -/
def NeverLower (report : List FollowerEvent) : Prop :=
  report.Pairwise fun earlier later => ∀ accepted ∈ earlier.acceptedEpoch,
    ∀ applied ∈ later.appliedEpoch, accepted ≤ applied

/-- The same, where an acceptance counts for no more than the configured epoch. -/
def NeverBelow (expected : Nat) (report : List FollowerEvent) : Prop :=
  report.Pairwise fun earlier later => ∀ accepted ∈ earlier.acceptedEpoch,
    ∀ applied ∈ later.appliedEpoch, min accepted expected ≤ applied

/-- Nothing is heard from a leader below the configured epoch. -/
theorem Follower.sync_epoch {f : Follower} {batch : Sync} {e : FollowerEvent}
    (mem : e ∈ (f.sync batch).2) : f.cfg.epoch ≤ e.epoch := by
  cases response : batch.response with
  | error err =>
      rw [sync_error response] at mem
      cases mem
  | ok resp =>
      by_cases accepts : f.Accepts resp.leaderEpoch
      · rw [sync_accepts response accepts] at mem
        rcases List.mem_cons.mp mem with rfl | inside
        · exact accepts
        · obtain ⟨p, -, rfl⟩ := List.mem_map.mp inside
          exact accepts
      · rw [sync_stale response accepts] at mem
        cases mem

/-- Whether a response is accepted depends on the configured epoch alone. -/
theorem Follower.accepted_iff {f : Follower} {batch : Sync} {resp : SyncResponse}
    (response : batch.response = .ok resp) :
    .accepted resp.leaderEpoch ∈ (f.sync batch).2 ↔ f.cfg.epoch ≤ resp.leaderEpoch := by
  by_cases accepts : f.Accepts resp.leaderEpoch
  · rw [sync_accepts response accepts]
    exact ⟨fun _ => accepts, fun _ => List.mem_cons_self⟩
  · rw [sync_stale response accepts]
    exact ⟨fun mem => absurd mem List.not_mem_nil, fun yes => absurd yes accepts⟩

section Runs

variable {f f' : Follower} {labels : List Sync} {report : List FollowerEvent}

theorem follower_step {batch : Sync} {now : List FollowerEvent}
    (moved : follower.step f batch = some (f', now)) :
    f' = (f.sync batch).1 ∧ now = (f.sync batch).2 :=
  Prod.mk.inj (Option.some.inj moved).symm

theorem Run.cfg (ran : follower.Run StepSystem.Always f labels f' report) : f'.cfg = f.cfg := by
  induction ran with
  | start => rfl
  | step _ _ moved ih =>
      rw [(follower_step moved).1]
      exact (Follower.sync_cfg _ _).trans ih

theorem Run.epoch (ran : follower.Run StepSystem.Always f labels f' report) :
    ∀ e ∈ report, f.cfg.epoch ≤ e.epoch := by
  induction ran with
  | start => exact fun e mem => by cases mem
  | step before _ moved ih =>
      intro e mem
      rcases List.mem_append.mp mem with old | new
      · exact ih e old
      · rw [← Run.cfg before]
        exact Follower.sync_epoch ((follower_step moved).2 ▸ new)

theorem FollowerEvent.appliedEpoch_eq {e : FollowerEvent} {leaderEpoch : Nat}
    (applied : e.appliedEpoch = some leaderEpoch) : e.epoch = leaderEpoch := by
  cases e with
  | accepted epoch => cases applied
  | replayed epoch entry done =>
      cases done with
      | false => cases applied
      | true => exact Option.some.inj applied

/-- A follower accepts a response exactly when its leader is not below the configured
epoch, whatever it accepted before: it hears of nothing below that epoch, and after an
acceptance it applies nothing below the lesser of the two. -/
theorem fenced_by_config (ran : follower.Run StepSystem.Always f labels f' report) :
    (∀ e ∈ report, f.cfg.epoch ≤ e.epoch) ∧ NeverBelow f.cfg.epoch report ∧
      ∀ batch resp, batch.response = .ok resp →
        (.accepted resp.leaderEpoch ∈ (f'.sync batch).2 ↔ f.cfg.epoch ≤ resp.leaderEpoch) := by
  have heard := Run.epoch ran
  refine ⟨heard, ?_, ?_⟩
  · refine List.pairwise_of_forall_mem_list fun _ _ later mem accepted _ applied from' => ?_
    have floor := heard later mem
    rw [later.appliedEpoch_eq from'] at floor
    exact (min_le_right accepted f.cfg.epoch).trans floor
  · intro batch resp response
    rw [← Run.cfg ran]
    exact Follower.accepted_iff response

end Runs

/-! ### Leaders of one epoch -/

/-- The leaders answer with these epochs. -/
def AnswersWith (epochs : Set Nat) (_ : Follower) (_ : List FollowerEvent) (batch : Sync) : Prop :=
  ∀ resp, batch.response = .ok resp → resp.leaderEpoch ∈ epochs

theorem Follower.sync_epoch_mem {f : Follower} {batch : Sync} {epochs : Set Nat}
    (answers : ∀ resp, batch.response = .ok resp → resp.leaderEpoch ∈ epochs) {e : FollowerEvent}
    (mem : e ∈ (f.sync batch).2) : e.epoch ∈ epochs := by
  cases response : batch.response with
  | error err =>
      rw [sync_error response] at mem
      cases mem
  | ok resp =>
      by_cases accepts : f.Accepts resp.leaderEpoch
      · rw [sync_accepts response accepts] at mem
        rcases List.mem_cons.mp mem with rfl | inside
        · exact answers resp response
        · obtain ⟨p, -, rfl⟩ := List.mem_map.mp inside
          exact answers resp response
      · rw [sync_stale response accepts] at mem
        cases mem

theorem Run.epoch_mem {epochs : Set Nat} {f f' : Follower} {labels : List Sync}
    {report : List FollowerEvent} (ran : follower.Run (AnswersWith epochs) f labels f' report) :
    ∀ e ∈ report, e.epoch ∈ epochs := by
  refine ran.invariant (I := fun _ report => ∀ e ∈ report, e.epoch ∈ epochs) ?_ ?_
  · exact fun e mem => by cases mem
  · intro f report batch f' now heard answers moved e mem
    rcases List.mem_append.mp mem with old | new
    · exact heard e old
    · exact Follower.sync_epoch_mem answers ((follower_step moved).2 ▸ new)

theorem FollowerEvent.acceptedEpoch_eq {e : FollowerEvent} {leaderEpoch : Nat}
    (accepted : e.acceptedEpoch = some leaderEpoch) : e.epoch = leaderEpoch := by
  cases e with
  | accepted epoch => exact Option.some.inj accepted
  | replayed epoch entry done => cases accepted

def anyDelete : WopEntry := ⟨1, "delete", "01J", 1000⟩

/-- An empty response of one leader, then an entry of another. -/
def emptyFrom (leaderEpoch : Nat) : Sync := ⟨.ok ⟨[], leaderEpoch⟩, fun _ => .ok true⟩

def deleteFrom (leaderEpoch : Nat) : Sync := ⟨.ok ⟨[anyDelete], leaderEpoch⟩, fun _ => .ok true⟩

/-- A follower that accepts both leaders applies what the second sends. -/
theorem run_fromBoth {f : Follower} {first second : Nat} (accepts : f.Accepts first)
    (accepts' : f.Accepts second) : ∃ f', follower.Run (AnswersWith {first, second}) f
      [emptyFrom first, deleteFrom second] f'
        [.accepted first, .accepted second, .replayed second anyDelete true] := by
  have one : (f.sync (emptyFrom first)).2 = [.accepted first] := by
    rw [Follower.sync_accepts rfl accepts]
    rfl
  have still : (f.sync (emptyFrom first)).1.Accepts second := by
    unfold Follower.Accepts
    rw [Follower.sync_cfg]
    exact accepts'
  have two : ((f.sync (emptyFrom first)).1.sync (deleteFrom second)).2 =
      [.accepted second, .replayed second anyDelete true] := by
    rw [Follower.sync_accepts rfl still]
    rfl
  have answers : AnswersWith {first, second} f [] (emptyFrom first) := by
    rintro resp ⟨⟩
    exact .inl rfl
  have answers' : AnswersWith {first, second} (f.sync (emptyFrom first)).1
      ([] ++ (f.sync (emptyFrom first)).2) (deleteFrom second) := by
    rintro resp ⟨⟩
    exact .inr rfl
  have moved (g : Follower) (batch : Sync) :
      follower.step g batch = some ((g.sync batch).1, (g.sync batch).2) := rfl
  have ran := StepSystem.Run.step (.step .start answers (moved _ _)) answers' (moved _ _)
  rw [one, two] at ran
  exact ⟨_, ran⟩

/-- A follower never applies from a lower epoch than it accepted, exactly if the leaders that it
hears have, at and above its configured epoch, one epoch only. -/
theorem fenced_iff_one_epoch (f : Follower) (epochs : Set Nat) :
    (∀ labels f' report, follower.Run (AnswersWith epochs) f labels f' report → NeverLower report) ↔
      ∀ e ∈ epochs, ∀ e' ∈ epochs, f.cfg.epoch ≤ e → f.cfg.epoch ≤ e' → e = e' := by
  constructor
  · intro never
    have ordered : ∀ e ∈ epochs, ∀ e' ∈ epochs, f.cfg.epoch ≤ e → f.cfg.epoch ≤ e' → e ≤ e' := by
      intro e mem e' mem' accepts accepts'
      obtain ⟨f', ran⟩ := run_fromBoth (f := f) accepts accepts'
      have both : ∀ g report batch, AnswersWith {e, e'} g report batch →
          AnswersWith epochs g report batch := by
        intro g report batch answers resp response
        rcases answers resp response with rfl | rfl
        · exact mem
        · exact mem'
      have lower := List.rel_of_pairwise_cons (never _ _ _ (ran.mono both))
        (List.mem_cons_of_mem _ List.mem_cons_self)
      exact lower e rfl e' rfl
    intro e mem e' mem' accepts accepts'
    exact le_antisymm (ordered e mem e' mem' accepts accepts') (ordered e' mem' e mem accepts' accepts)
  · intro one labels f' report ran
    have above := (fenced_by_config ran.always).1
    have heard := Run.epoch_mem ran
    refine List.pairwise_of_forall_mem_list fun earlier mem later mem' accepted from' applied from'' => ?_
    have epoch := earlier.acceptedEpoch_eq from'
    have epoch' := later.appliedEpoch_eq from''
    rw [← epoch, ← epoch']
    exact (one _ (heard earlier mem) _ (heard later mem') (above earlier mem) (above later mem')).le

/-- Two synchronizations, first with a leader of epoch 5, then with one of epoch 1. -/
def backToOldLeader : List Sync :=
  [⟨.ok ⟨[⟨1, "delete", "01J", 1000⟩], 5⟩, fun _ => .ok true⟩,
    ⟨.ok ⟨[⟨2, "delete", "01K", 2000⟩], 1⟩, fun _ => .ok true⟩]

def unfenced : Follower := ⟨⟨"10.0.0.1:11437", 5, 3, 100, none, 0⟩, 0⟩

def oldLeaderApplied : List FollowerEvent :=
  [.accepted 5, .replayed 5 ⟨1, "delete", "01J", 1000⟩ true, .accepted 1,
    .replayed 1 ⟨2, "delete", "01K", 2000⟩ true]

theorem run_backToOldLeader :
    follower.Run StepSystem.Always unfenced backToOldLeader { unfenced with localLastSeq := 2 }
      oldLeaderApplied :=
  .of_exec (fun _ _ _ (_ : true = true) => trivial) (by rfl)

/-- A follower without a configured epoch goes back to an older leader. -/
theorem older_leader_applied : ¬ ∀ f labels f' report,
    follower.Run StepSystem.Always f labels f' report → NeverLower report := by
  intro always
  have never := always _ _ _ _ run_backToOldLeader
  have older := (List.pairwise_cons.mp never).1 (.replayed 1 ⟨2, "delete", "01K", 2000⟩ true)
    (by simp) 5 rfl 1 rfl
  exact absurd older (by decide)

end FusionMemory
