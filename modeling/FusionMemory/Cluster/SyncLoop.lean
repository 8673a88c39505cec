import Mathlib.Data.List.DropRight
import FusionMemory.Cluster.Protocol

/-!
The loop of a follower (`Follower::run` of `fm-cluster/src/transport.rs`).

Each turn tries to synchronize and takes note of the outcome: an answer sets the count of
failures back, a lost attempt raises it, and a refusal, a permanent error such as the
response of a stale leader, leaves it alone. So the failures that are counted together need
not be consecutive: `leader_down_iff` says when they are.
-/

namespace FusionMemory

open Lib

/-! ### The loop -/

/-- How an attempt to synchronize ends. -/
inductive Attempt where
  | answered
  /-- A permanent error. -/
  | refused
  /-- Any other error: the leader was not reached, or not understood. -/
  | lost
deriving DecidableEq, Repr

inductive LoopEvent where
  | onSyncOk
  | onSyncStale
  | sleep (secs : Nat)
deriving DecidableEq, Repr

def backoffJitter (base seed : Nat) : Nat :=
  if base ≤ 1 then 0
  else
    let span := base / 4
    let s := (seed + 1) % u64Size
    let h := s * 11400714819323198485 % u64Size
    if span = 0 then 0 else h % (span + 1)

structure SyncLoop where
  follower : Follower
  /-- A `u32`. -/
  fails : Nat
  replayBackoff : Nat
  /-- What `run` has returned. -/
  ended : Option ClusterError
deriving DecidableEq, Repr

namespace Follower

/-- `sync_once`, with what came of the exchange and of each entry. -/
def syncResult (f : Follower) (batch : Sync) :
    Except ClusterError (Nat × Nat × Bool × Bool) × Follower :=
  ((f.syncOnce (fun _ _ => pure batch.response) batch.replayOne).run []).1

end Follower

namespace SyncLoop

/-- The loop of a follower that starts. -/
def start (f : Follower) : SyncLoop := ⟨f, 0, 1, none⟩

/-- One turn, to the end of its sleep. -/
def turn (l : SyncLoop) (batch : Sync) : SyncLoop × List LoopEvent :=
  let (result, f) := l.follower.syncResult batch
  let l := { l with follower := f }
  let heartbeat := LoopEvent.sleep f.cfg.heartbeatSecs
  match result with
  | .ok (_, _, replayFailed, permanent) =>
      let l := { l with fails := 0 }
      if replayFailed then
        if permanent then (l, [.onSyncStale, heartbeat])
        else
          let l := { l with replayBackoff := min (l.replayBackoff * 2) 60 }
          (l, [.sleep (l.replayBackoff + backoffJitter l.replayBackoff f.localLastSeq)])
      else ({ l with replayBackoff := 1 }, [.onSyncOk, heartbeat])
  | .error e =>
      if e.isPermanent then (l, [.onSyncStale, heartbeat])
      else
        let l := { l with fails := (l.fails + 1) % u32Size }
        if l.fails ≥ f.cfg.heartbeatFails then
          ({ l with ended := some (.leaderDown l.fails) }, [.onSyncStale])
        else (l, [.onSyncStale, heartbeat])

end SyncLoop

/-- The loop, on any outcomes, until it returns. -/
def syncLoop : StepSystem SyncLoop Sync LoopEvent where
  step l batch := if l.ended.isSome then none else some (l.turn batch)

/-! ### Outcomes -/

/-- How an attempt ends, from the response and the epoch that is expected. -/
def Sync.attempt (epoch : Nat) (batch : Sync) : Attempt :=
  match batch.response with
  | .error e => if e.isPermanent then .refused else .lost
  | .ok resp => if epoch > 0 ∧ resp.leaderEpoch < epoch then .refused else .answered

/-- The attempts since the last that was answered. -/
def sinceAnswer (attempts : List Attempt) : List Attempt := attempts.rtakeWhile (· != .answered)

/-- The last attempts were lost, as many as that. -/
def LostLast (n : Nat) (attempts : List Attempt) : Prop :=
  List.replicate n Attempt.lost <:+ attempts

/-- Since the last answer no attempt was refused after one was lost. -/
def NoneRefusedAmongLost (attempts : List Attempt) : Prop :=
  (sinceAnswer attempts).Pairwise fun earlier later => earlier = .lost → later = .lost

theorem lost_suffix {attempts : List Attempt}
    (unbroken : attempts.Pairwise fun earlier later => earlier = .lost → later = .lost) :
    LostLast (attempts.count .lost) attempts := by
  induction attempts with
  | nil => exact List.suffix_rfl
  | cons a rest ih =>
      obtain ⟨first, unbroken⟩ := List.pairwise_cons.mp unbroken
      by_cases lost : a = .lost
      · have all : a :: rest = List.replicate (rest.length + 1) .lost := by
          rw [List.eq_replicate_iff]
          refine ⟨rfl, List.forall_mem_cons.mpr ⟨lost, fun b mem => first b mem lost⟩⟩
        rw [LostLast, all, List.count_replicate_self]
      · rw [LostLast, List.count_cons_of_ne lost]
        exact (ih unbroken).trans (List.suffix_cons a rest)

/-- Where `n` attempts were lost since the last answer, they were the last ones exactly when
none was refused among them. -/
theorem lostLast_iff {attempts : List Attempt} {n : Nat}
    (counted : (sinceAnswer attempts).count .lost = n) :
    LostLast n attempts ↔ NoneRefusedAmongLost attempts := by
  have since : sinceAnswer attempts <:+ attempts := List.rtakeWhile_suffix _ _
  constructor
  · intro lost
    have alike (m : Nat) : (List.replicate m Attempt.lost).Pairwise
        fun earlier later => earlier = .lost → later = .lost :=
      List.pairwise_of_forall_mem_list fun a _ b mem _ => List.eq_of_mem_replicate mem
    rcases List.suffix_or_suffix_of_suffix lost since with inside | short
    · obtain ⟨before, split⟩ := inside
      have others : before.count .lost = 0 := by
        rw [← split, List.count_append, List.count_replicate_self] at counted
        omega
      rw [NoneRefusedAmongLost, ← split, List.pairwise_append]
      refine ⟨?_, alike n, fun a mem b mem' _ => List.eq_of_mem_replicate mem'⟩
      refine List.pairwise_of_forall_mem_list fun a mem b _ lost => ?_
      rw [List.count_eq_zero] at others
      exact absurd (lost ▸ mem) others
    · exact (alike n).sublist short.sublist
  · intro unbroken
    have last := lost_suffix unbroken
    rw [counted] at last
    exact List.IsSuffix.trans last since

/-! ### Runs of the loop -/

section Runs

theorem attempt_error {batch : Sync} {e : ClusterError} (response : batch.response = .error e)
    (epoch : Nat) : batch.attempt epoch = if e.isPermanent then .refused else .lost := by
  rw [Sync.attempt, response]

theorem attempt_ok {batch : Sync} {resp : SyncResponse} (response : batch.response = .ok resp)
    (epoch : Nat) : batch.attempt epoch =
      if epoch > 0 ∧ resp.leaderEpoch < epoch then .refused else .answered := by
  rw [Sync.attempt, response]

/-- The outcome of an attempt is what its response says. -/
theorem syncResult_spec (f : Follower) (batch : Sync) :
    (f.syncResult batch).2.cfg = f.cfg ∧
      match batch.attempt f.cfg.epoch with
      | .answered => ∃ v, (f.syncResult batch).1 = .ok v
      | .refused => ∃ e, (f.syncResult batch).1 = .error e ∧ e.isPermanent = true
      | .lost => ∃ e, (f.syncResult batch).1 = .error e ∧ e.isPermanent = false := by
  cases response : batch.response with
  | error e =>
      have result : f.syncResult batch = (.error e, f) := by
        unfold Follower.syncResult Follower.syncOnce
        rw [response]
        rfl
      rw [result, attempt_error response]
      refine ⟨rfl, ?_⟩
      by_cases permanent : e.isPermanent = true
      · rw [if_pos permanent]
        exact ⟨e, rfl, permanent⟩
      · rw [if_neg permanent]
        exact ⟨e, rfl, Bool.not_eq_true _ ▸ permanent⟩
  | ok resp =>
      by_cases stale : f.cfg.epoch > 0 ∧ resp.leaderEpoch < f.cfg.epoch
      · have result : f.syncResult batch =
            (.error (.staleLeader resp.leaderEpoch f.cfg.epoch), f) := by
          unfold Follower.syncResult Follower.syncOnce
          simp only [response, pure_bind]
          rw [if_pos stale]
          rfl
        rw [result, attempt_ok response, if_pos stale]
        exact ⟨rfl, _, rfl, rfl⟩
      · rw [attempt_ok response, if_neg stale]
        unfold Follower.syncResult Follower.syncOnce
        simp only [response, pure_bind]
        rw [if_neg stale, StateT.run_bind]
        rcases (replayWops batch.replayOne resp.entries).run [] with ⟨outcome, log⟩
        refine ⟨?_, _, rfl⟩
        change (if outcome.lastAppliedSeq > f.localLastSeq then _ else _ : Follower).cfg = f.cfg
        split_ifs <;> rfl

/-- What a turn does to the count of failures. -/
theorem turn_spec (l : SyncLoop) (batch : Sync) :
    (l.turn batch).1.follower.cfg = l.follower.cfg ∧
      match batch.attempt l.follower.cfg.epoch with
      | .answered => (l.turn batch).1.fails = 0 ∧ (l.turn batch).1.ended = l.ended
      | .refused => (l.turn batch).1.fails = l.fails ∧ (l.turn batch).1.ended = l.ended
      | .lost => (l.turn batch).1.fails = (l.fails + 1) % u32Size ∧
          (l.turn batch).1.ended = if (l.fails + 1) % u32Size ≥ l.follower.cfg.heartbeatFails then
            some (.leaderDown ((l.fails + 1) % u32Size)) else l.ended := by
  obtain ⟨cfg, outcome⟩ := syncResult_spec l.follower batch
  unfold SyncLoop.turn
  generalize l.follower.syncResult batch = ran at cfg outcome ⊢
  obtain ⟨result, f'⟩ := ran
  dsimp only at cfg outcome ⊢
  cases attempt : batch.attempt l.follower.cfg.epoch with
  | answered =>
      rw [attempt] at outcome
      obtain ⟨⟨seq, applied, replayFailed, permanent⟩, rfl⟩ := outcome
      cases replayFailed <;> cases permanent <;> exact ⟨cfg, rfl, rfl⟩
  | refused =>
      rw [attempt] at outcome
      obtain ⟨e, rfl, permanent⟩ := outcome
      dsimp only
      rw [if_pos permanent]
      exact ⟨cfg, rfl, rfl⟩
  | lost =>
      rw [attempt] at outcome
      obtain ⟨e, rfl, transient⟩ := outcome
      dsimp only
      rw [if_neg (Bool.eq_false_iff.mp transient), ← cfg]
      split_ifs with down
      · exact ⟨rfl, rfl, rfl⟩
      · exact ⟨rfl, rfl, rfl⟩

/-- The failures that are counted are the attempts lost since the last answer, and the loop
goes on while they are fewer than `heartbeat_fails`. -/
structure LossCount (f : Follower) (attempts : List Attempt) (l : SyncLoop) : Prop where
  cfg : l.follower.cfg = f.cfg
  fails : (sinceAnswer attempts).count .lost = l.fails
  running : l.ended = none → l.fails = 0 ∨ l.fails < f.cfg.heartbeatFails
  ended : ∀ e, l.ended = some e → e = .leaderDown l.fails ∧
    l.fails = max 1 f.cfg.heartbeatFails ∧ LostLast 1 attempts

theorem LossCount.start (f : Follower) : LossCount f [] (.start f) where
  cfg := rfl
  fails := rfl
  running _ := .inl rfl
  ended e no := by cases no

theorem sinceAnswer_concat (attempts : List Attempt) (a : Attempt) :
    sinceAnswer (attempts ++ [a]) = if a = .answered then [] else sinceAnswer attempts ++ [a] := by
  unfold sinceAnswer
  rw [List.rtakeWhile_concat]
  cases a <;> rfl

theorem LossCount.step {f : Follower} {attempts : List Attempt} {l l' : SyncLoop} {batch : Sync}
    {now : List LoopEvent} (counts : LossCount f attempts l) (bound : f.cfg.heartbeatFails < u32Size)
    (moved : syncLoop.step l batch = some (l', now)) :
    LossCount f (attempts ++ [batch.attempt f.cfg.epoch]) l' := by
  unfold syncLoop at moved
  dsimp only at moved
  split_ifs at moved with finished
  rw [Option.some.injEq] at moved
  have next : l' = (l.turn batch).1 := by rw [moved]
  have goes : l.ended = none := Option.not_isSome_iff_eq_none.mp finished
  obtain ⟨cfg, spec⟩ := turn_spec l batch
  rw [counts.cfg] at cfg spec
  rw [next]
  cases attempt : batch.attempt f.cfg.epoch with
  | answered =>
      rw [attempt] at spec
      exact ⟨cfg, by rw [sinceAnswer_concat, spec.1]; rfl, fun _ => .inl spec.1,
        fun e ended => by rw [spec.2, goes] at ended; cases ended⟩
  | refused =>
      rw [attempt] at spec
      refine ⟨cfg, ?_, fun _ => spec.1 ▸ counts.running goes,
        fun e ended => by rw [spec.2, goes] at ended; cases ended⟩
      rw [sinceAnswer_concat, spec.1, ← counts.fails]
      simp
  | lost =>
      rw [attempt] at spec
      have small : l.fails + 1 < u32Size := by
        rcases counts.running goes with zero | below
        · rw [zero]
          decide
        · omega
      rw [Nat.mod_eq_of_lt small] at spec
      obtain ⟨fails, ended⟩ := spec
      refine ⟨cfg, ?_, ?_, ?_⟩
      · rw [sinceAnswer_concat, fails, ← counts.fails]
        simp
      · intro still
        rw [ended, goes] at still
        split_ifs at still with down
        rw [fails]
        exact .inr (not_le.mp down)
      · intro e returned
        rw [ended, goes] at returned
        split_ifs at returned with down
        rw [fails, ← Option.some.inj returned]
        refine ⟨rfl, ?_, List.suffix_append attempts [.lost]⟩
        rcases counts.running goes with zero | below <;> omega

theorem LossCount.run {f : Follower} {batches : List Sync} {l : SyncLoop} {report : List LoopEvent}
    (bound : f.cfg.heartbeatFails < u32Size)
    (ran : syncLoop.Run StepSystem.Always (.start f) batches l report) :
    LossCount f (batches.map (Sync.attempt f.cfg.epoch)) l := by
  induction ran with
  | start => exact .start f
  | step _ _ moved ih =>
      rw [List.map_append]
      exact ih.step bound moved

end Runs

/-- `run` returns `LeaderDown` after `heartbeat_fails` lost attempts in a row exactly when
no attempt was refused between those that it counted. -/
theorem leader_down_iff {f : Follower} {batches : List Sync} {l : SyncLoop} {e : ClusterError}
    {report : List LoopEvent} (bound : f.cfg.heartbeatFails < u32Size)
    (ran : syncLoop.Run StepSystem.Always (.start f) batches l report) (returned : l.ended = some e) :
    (∃ fails, e = .leaderDown fails) ∧
    (LostLast f.cfg.heartbeatFails (batches.map (Sync.attempt f.cfg.epoch)) ↔
      NoneRefusedAmongLost (batches.map (Sync.attempt f.cfg.epoch))) := by
  have counts := LossCount.run bound ran
  obtain ⟨down, fails, last⟩ := counts.ended e returned
  refine ⟨⟨_, down⟩, ?_⟩
  rcases Nat.eq_zero_or_pos f.cfg.heartbeatFails with zero | positive
  · rw [zero] at fails ⊢
    have one : LostLast 1 (batches.map (Sync.attempt f.cfg.epoch)) ↔ _ :=
      lostLast_iff (counts.fails.trans fails)
    exact ⟨fun _ => one.mp last, fun _ => List.nil_suffix⟩
  · rw [max_eq_right positive] at fails
    exact lostLast_iff (counts.fails.trans fails)

/-- A follower that expects epoch 2 loses its leader, hears from one of epoch 1, loses the
leader again, hears from the other again, and loses the leader a third time. -/
def fencedBetween : List Sync :=
  let lost : Sync := ⟨.error (.io "connection refused"), fun _ => .ok true⟩
  let stale : Sync := ⟨.ok ⟨[], 1⟩, fun _ => .ok true⟩
  [lost, stale, lost, stale, lost]

def expectsTwo : Follower := ⟨⟨"10.0.0.1:11437", 5, 3, 256, none, 2⟩, 0⟩

def threeLost : SyncLoop := ⟨expectsTwo, 3, 1, some (.leaderDown 3)⟩

def fencedEvents : List LoopEvent :=
  [.onSyncStale, .sleep 5, .onSyncStale, .sleep 5, .onSyncStale, .sleep 5, .onSyncStale, .sleep 5,
    .onSyncStale]

theorem run_fencedBetween :
    syncLoop.Run StepSystem.Always (.start expectsTwo) fencedBetween threeLost fencedEvents :=
  .of_exec (fun _ _ _ (_ : true = true) => trivial) (by rfl)

/-- The follower takes its leader for down though no two losses followed each other. -/
theorem fenced_leader_down : ¬ ∀ (f : Follower) (batches : List Sync) (l : SyncLoop)
    (report : List LoopEvent) (fails : Nat), f.cfg.heartbeatFails < u32Size →
    syncLoop.Run StepSystem.Always (.start f) batches l report →
    l.ended = some (.leaderDown fails) →
    LostLast f.cfg.heartbeatFails (batches.map (Sync.attempt f.cfg.epoch)) := by
  intro consecutive
  have last := consecutive expectsTwo fencedBetween threeLost fencedEvents 3 (by decide)
    run_fencedBetween rfl
  have same : List.replicate 3 Attempt.lost = [.lost, .refused, .lost] :=
    List.suffix_iff_eq_drop.mp last
  exact absurd same (by decide)

theorem leader_down_iff_fenced :
    (∃ fails, ClusterError.leaderDown 3 = .leaderDown fails) ∧
    (LostLast 3 (fencedBetween.map (Sync.attempt 2)) ↔
      NoneRefusedAmongLost (fencedBetween.map (Sync.attempt 2))) :=
  leader_down_iff (f := expectsTwo) (by decide) run_fencedBetween rfl

end FusionMemory
