import FusionMemory.Cluster.Follower

/-!
A follower's cursor (`fm-server/src/cluster.rs`).

The cursor counts in the leader's log. At the start of the process, and after a lost
election, it is set to the last sequence number of the follower's own log, which local
commits and consolidations number from 1. `replication` takes the steps of the leader
and of one follower; the database of each is modelled in full, but only the logs matter
here.

`no_gap_iff` says in which runs no entry of the leader is passed over. The leader's log
is read at the moment the follower asks, and its entries are never pruned.
-/

namespace FusionMemory

open Lib

variable {F : Type}

/-- `SELECT COALESCE(MAX(seq), 0) FROM wop_log`. -/
def Db.lastWopSeq (db : Db F) : Nat := maxSeq (db.wopLog.map WopEntry.seq)

/-- The leader's answer to a `SyncRequest`. -/
def Db.respond (db : Db F) (leaderEpoch : Nat) (req : SyncRequest) : SyncResponse :=
  ⟨db.listWopSince req.sinceSeq req.limit, leaderEpoch⟩

/-- A leader and one follower. `orbitSeq` is the variable `local_seq` of `follower_orbit`. -/
structure Replication (F : Type) where
  leader : Db F
  own : Db F
  orbitSeq : Nat
  follower : Follower

inductive ReplicationAction where
  | leaderAppend (op payload : String) (now : Nat)
  | ownAppend (op payload : String) (now : Nat)
  /-- `sync_once`, against a leader of this epoch. -/
  | sync (leaderEpoch : Nat) (result : WopEntry → Except ClusterError Bool)
  | syncFails (e : ClusterError)
  /-- The process starts; `readable` says whether its own log can be read. -/
  | restart (readable : Bool)
  | lostElection (readable : Bool)

namespace Replication

def fresh (cfg : SyncConfig) : Replication F where
  leader := .empty
  own := .empty
  orbitSeq := 0
  follower := ⟨cfg, 0⟩

/-- `Follower::new` with the orbit's cursor. -/
def follow (r : Replication F) (localSeq : Nat) : Replication F :=
  { r with orbitSeq := localSeq, follower := ⟨r.follower.cfg, localSeq⟩ }

/-- What the follower asks its leader for. -/
def request (r : Replication F) : SyncRequest := ⟨r.follower.localLastSeq, r.follower.cfg.fetchLimit⟩

def step (r : Replication F) : ReplicationAction → Option (Replication F × List FollowerEvent)
  | .leaderAppend op payload now => some ({ r with leader := r.leader.appendWop op payload now }, [])
  | .ownAppend op payload now => some ({ r with own := r.own.appendWop op payload now }, [])
  | .sync leaderEpoch result =>
      let synced := r.follower.sync ⟨.ok (r.leader.respond leaderEpoch r.request), result⟩
      some ({ r with follower := synced.1 }, synced.2)
  | .syncFails e =>
      let synced := r.follower.sync ⟨.error e, fun _ => .ok false⟩
      some ({ r with follower := synced.1 }, synced.2)
  | .restart readable => some (r.follow (if readable then r.own.lastWopSeq else 0), [])
  | .lostElection readable => some (r.follow (if readable then r.own.lastWopSeq else r.orbitSeq), [])

end Replication

def replication : StepSystem (Replication F) ReplicationAction FollowerEvent := ⟨Replication.step⟩

/-! ### Gaps -/

/-- The entry was applied, or skipped on purpose. -/
def Handled (report : List FollowerEvent) (entry : WopEntry) : Prop :=
  ∃ leaderEpoch applied, .replayed leaderEpoch entry applied ∈ report

/-- No entry of the leader is passed over by the cursor. -/
def NoGap (r : Replication F) (report : List FollowerEvent) : Prop :=
  ∀ entry ∈ r.leader.wopLog, entry.seq ≤ r.follower.localLastSeq → Handled report entry

def FollowerEvent.replayedSeq : FollowerEvent → Option Nat
  | .replayed _ entry _ => some entry.seq
  | .accepted _ => none

/-- The largest sequence number that was replayed. -/
def lastReplayed (report : List FollowerEvent) : Nat :=
  maxSeq (report.filterMap FollowerEvent.replayedSeq)

/-- The follower's own log has not run ahead: its last number, as far as the leader's log
reaches, was replayed when the cursor is set to it, and the leader's log reaches the
cursor when it grows. -/
def OwnLogBehind (r : Replication F) (report : List FollowerEvent) : ReplicationAction → Prop
  | .restart true | .lostElection true =>
      min r.own.lastWopSeq r.leader.lastWopSeq ≤ lastReplayed report
  | .leaderAppend _ _ _ => r.follower.localLastSeq ≤ r.leader.lastWopSeq
  | _ => True

/-! ### What was replayed -/

theorem Handled.append {report now : List FollowerEvent} {entry : WopEntry}
    (handled : Handled report entry) : Handled (report ++ now) entry := by
  obtain ⟨leaderEpoch, applied, mem⟩ := handled
  exact ⟨leaderEpoch, applied, List.mem_append_left _ mem⟩

theorem Handled.le_lastReplayed {report : List FollowerEvent} {entry : WopEntry}
    (handled : Handled report entry) : entry.seq ≤ lastReplayed report := by
  obtain ⟨leaderEpoch, applied, mem⟩ := handled
  exact le_maxSeq (List.mem_filterMap.mpr ⟨_, mem, rfl⟩)

theorem exists_lastReplayed {report : List FollowerEvent} (positive : 0 < lastReplayed report) :
    ∃ entry, Handled report entry ∧ entry.seq = lastReplayed report := by
  obtain ⟨e, mem, same⟩ := List.mem_filterMap.mp (maxSeq_mem positive)
  cases e with
  | accepted leaderEpoch => cases same
  | replayed leaderEpoch entry applied =>
      exact ⟨entry, ⟨leaderEpoch, applied, mem⟩, Option.some.inj same⟩

/-- The report of an answer with these replayed entries. -/
def batchReport (leaderEpoch : Nat) (replayed : List (WopEntry × Bool)) : List FollowerEvent :=
  .accepted leaderEpoch :: replayed.map fun p => .replayed leaderEpoch p.1 p.2

section Batch

variable {report : List FollowerEvent} {leaderEpoch : Nat} {replayed : List (WopEntry × Bool)}

theorem lastReplayed_batch :
    lastReplayed (report ++ batchReport leaderEpoch replayed) =
      max (lastReplayed report) (lastSeq replayed) := by
  have seqs : (batchReport leaderEpoch replayed).filterMap FollowerEvent.replayedSeq =
      replayed.map fun p => p.1.seq := by
    rw [batchReport, List.filterMap_cons_none rfl, List.filterMap_map]
    exact congrFun List.filterMap_eq_map replayed
  rw [lastReplayed, List.filterMap_append, seqs, maxSeq_append]
  rfl

theorem handled_batch_iff {entry : WopEntry} :
    Handled (report ++ batchReport leaderEpoch replayed) entry ↔
      Handled report entry ∨ entry ∈ replayed.map Prod.fst := by
  constructor
  · rintro ⟨epoch, applied, mem⟩
    rcases List.mem_append.mp mem with old | new
    · exact .inl ⟨epoch, applied, old⟩
    · rcases List.mem_cons.mp new with first | later
      · cases first
      · obtain ⟨p, inside, same⟩ := List.mem_map.mp later
        cases same
        exact .inr (List.mem_map_of_mem inside)
  · rintro (old | new)
    · exact old.append
    · obtain ⟨p, inside, rfl⟩ := List.mem_map.mp new
      refine ⟨leaderEpoch, p.2, List.mem_append_right _ (List.mem_cons_of_mem _ ?_)⟩
      exact List.mem_map.mpr ⟨p, inside, rfl⟩

end Batch

namespace Sync

variable {batch : Sync} {entries : List WopEntry}

/-- The replayed entries are the first of the batch. -/
theorem handled_prefix (batch : Sync) (entries : List WopEntry) :
    (batch.handled entries).map Prod.fst <+: entries := by
  induction entries with
  | nil => exact List.prefix_refl _
  | cons entry rest ih =>
      unfold handled
      cases batch.result entry with
      | error e => exact List.nil_prefix
      | ok applied => exact List.cons_prefix_cons.mpr ⟨rfl, ih⟩

end Sync

/-! ### The leader's log -/

/-- The log numbers its entries from 1 without gaps. -/
def Numbered (db : Db F) : Prop := db.wopLog.map WopEntry.seq = List.range' 1 db.wopSeq

namespace Numbered

variable {db : Db F}

theorem appendWop (numbered : Numbered db) (op payload : String) (now : Nat) :
    Numbered (db.appendWop op payload now) := by
  unfold Numbered at numbered ⊢
  simp only [Db.appendWop, List.map_append, List.map_cons, List.map_nil, numbered,
    List.range'_1_concat]
  rw [Nat.add_comm]

theorem mem_iff (numbered : Numbered db) {seq : Nat} :
    (∃ entry ∈ db.wopLog, entry.seq = seq) ↔ 1 ≤ seq ∧ seq ≤ db.wopSeq := by
  have same : seq ∈ db.wopLog.map WopEntry.seq ↔ 1 ≤ seq ∧ seq ≤ db.wopSeq := by
    rw [numbered, List.mem_range'_1]
    omega
  rw [← same, List.mem_map]

theorem lastWopSeq (numbered : Numbered db) : db.lastWopSeq = db.wopSeq := by
  refine le_antisymm (maxSeq_le_iff.mpr fun seq mem => ?_) ?_
  · rw [numbered, List.mem_range'_1] at mem
    omega
  · rcases Nat.eq_zero_or_pos db.wopSeq with zero | positive
    · rw [zero]
      exact Nat.zero_le _
    · refine le_maxSeq ?_
      rw [numbered, List.mem_range'_1]
      omega

/-- Entries are read in the order of their numbers. -/
theorem sorted (numbered : Numbered db) :
    db.wopLog.Pairwise fun earlier later => earlier.seq < later.seq := by
  have increasing : (db.wopLog.map WopEntry.seq).Pairwise (· < ·) := by
    rw [numbered]
    exact List.pairwise_lt_range'
  exact List.pairwise_map.mp increasing

/-- What is replayed of an answer leaves out no entry up to the last one that is. -/
theorem handled_closed (numbered : Numbered db) {batch : Sync} {leaderEpoch : Nat}
    {req : SyncRequest} {last entry : WopEntry}
    (mem : last ∈ (batch.handled (db.respond leaderEpoch req).entries).map Prod.fst)
    (logged : entry ∈ db.wopLog) (after : req.sinceSeq < entry.seq) (upTo : entry.seq ≤ last.seq) :
    entry ∈ (batch.handled (db.respond leaderEpoch req).entries).map Prod.fst := by
  have first : (batch.handled (db.respond leaderEpoch req).entries).map Prod.fst <+:
      db.wopLog.filter fun e => e.seq > req.sinceSeq :=
    (batch.handled_prefix _).trans (List.take_prefix _ _)
  obtain ⟨rest, split⟩ := first
  have kept : entry ∈ db.wopLog.filter fun e => e.seq > req.sinceSeq :=
    List.mem_filter.mpr ⟨logged, decide_eq_true after⟩
  have sorted := numbered.sorted.filter fun e => decide (e.seq > req.sinceSeq)
  rw [← split] at kept sorted
  rcases List.mem_append.mp kept with inside | later
  · exact inside
  · have less := (List.pairwise_append.mp sorted).2.2 last mem entry later
    omega

end Numbered

/-! ### Runs without gaps -/

/-- The leader's entries are replayed up to a number that the cursor has not passed,
except where it is past the end of the log. -/
structure Caught (r : Replication F) (report : List FollowerEvent) : Prop where
  numbered : Numbered r.leader
  orbit : r.orbitSeq ≤ r.follower.localLastSeq
  logged : ∀ entry, Handled report entry → entry ∈ r.leader.wopLog
  upTo : ∀ entry ∈ r.leader.wopLog, entry.seq ≤ lastReplayed report → Handled report entry
  cursor : min r.follower.localLastSeq r.leader.wopSeq ≤ lastReplayed report

namespace Caught

variable {r r' : Replication F} {report now : List FollowerEvent} {a : ReplicationAction}

theorem fresh (cfg : SyncConfig) : Caught (Replication.fresh cfg : Replication F) [] where
  numbered := rfl
  orbit := le_refl 0
  logged entry handled := by
    obtain ⟨_, _, mem⟩ := handled
    cases mem
  upTo entry mem := by cases mem
  cursor := Nat.zero_le _

theorem seq_le (caught : Caught r report) {entry : WopEntry} (mem : entry ∈ r.leader.wopLog) :
    entry.seq ≤ r.leader.wopSeq :=
  (caught.numbered.mem_iff.mp ⟨entry, mem, rfl⟩).2

theorem lastReplayed_le (caught : Caught r report) : lastReplayed report ≤ r.leader.wopSeq := by
  rcases Nat.eq_zero_or_pos (lastReplayed report) with zero | positive
  · rw [zero]
    exact Nat.zero_le _
  · obtain ⟨entry, handled, same⟩ := exists_lastReplayed positive
    rw [← same]
    exact caught.seq_le (caught.logged entry handled)

theorem noGap (caught : Caught r report) : NoGap r report := by
  intro entry mem passed
  exact caught.upTo entry mem ((le_min passed (caught.seq_le mem)).trans caught.cursor)

/-- The cursor is set anew. -/
theorem follow (caught : Caught r report) {localSeq : Nat}
    (behind : min localSeq r.leader.wopSeq ≤ lastReplayed report) :
    Caught (r.follow localSeq) report where
  numbered := caught.numbered
  orbit := le_refl localSeq
  logged := caught.logged
  upTo := caught.upTo
  cursor := behind

theorem leaderAppend (caught : Caught r report) {op payload : String} {at' : Nat}
    (reached : r.follower.localLastSeq ≤ r.leader.wopSeq) :
    Caught { r with leader := r.leader.appendWop op payload at' } report where
  numbered := caught.numbered.appendWop op payload at'
  orbit := caught.orbit
  logged entry handled := List.mem_append_left _ (caught.logged entry handled)
  upTo entry mem last := by
    rcases List.mem_append.mp mem with old | new
    · exact caught.upTo entry old last
    · have bound := caught.lastReplayed_le
      rw [List.mem_singleton.mp new] at last
      dsimp only at last
      omega
  cursor := by
    have cursor := caught.cursor
    dsimp only [Db.appendWop]
    omega

/-- An answer of the leader is replayed. -/
theorem heard (caught : Caught r report) (batch : Sync) (leaderEpoch : Nat) :
    Caught
      { r with follower := { r.follower with
        localLastSeq := max r.follower.localLastSeq
          (lastSeq (batch.handled (r.leader.respond leaderEpoch r.request).entries)) } }
      (report ++ batchReport leaderEpoch
        (batch.handled (r.leader.respond leaderEpoch r.request).entries)) := by
  have closed : ∀ {last entry : WopEntry},
      last ∈ (batch.handled (r.leader.respond leaderEpoch r.request).entries).map Prod.fst →
        entry ∈ r.leader.wopLog → r.follower.localLastSeq < entry.seq → entry.seq ≤ last.seq →
          entry ∈ (batch.handled (r.leader.respond leaderEpoch r.request).entries).map Prod.fst :=
    caught.numbered.handled_closed
  have first := (batch.handled_prefix (r.leader.respond leaderEpoch r.request).entries).subset
  generalize batch.handled (r.leader.respond leaderEpoch r.request).entries = replayed
    at closed first ⊢
  refine ⟨caught.numbered, caught.orbit.trans (le_max_left _ _), ?_, ?_, ?_⟩
  · intro entry handled
    rcases handled_batch_iff.mp handled with old | new
    · exact caught.logged entry old
    · exact (List.mem_filter.mp (List.mem_of_mem_take (first new))).1
  · intro entry mem below
    rw [lastReplayed_batch] at below
    by_cases passed : entry.seq ≤ r.follower.localLastSeq
    · exact (caught.noGap entry mem passed).append
    · rw [not_le] at passed
      rcases le_max_iff.mp below with old | new
      · exact (caught.upTo entry mem old).append
      · obtain ⟨p, inside, same⟩ := List.mem_map.mp (maxSeq_mem (by omega : 0 < lastSeq replayed))
        refine handled_batch_iff.mpr (.inr (closed (List.mem_map_of_mem inside) mem passed ?_))
        rw [same]
        exact new
  · have cursor := caught.cursor
    rw [lastReplayed_batch]
    dsimp only
    omega

theorem quiet (caught : Caught r report) : Caught r (report ++ []) := by
  rwa [List.append_nil]

theorem step (caught : Caught r report) (behind : OwnLogBehind r report a)
    (moved : r.step a = some (r', now)) : Caught r' (report ++ now) := by
  cases a with
  | leaderAppend op payload at' =>
      cases moved
      rw [OwnLogBehind, caught.numbered.lastWopSeq] at behind
      exact (caught.leaderAppend behind).quiet
  | ownAppend op payload at' =>
      cases moved
      exact ⟨caught.numbered, caught.orbit, caught.quiet.logged, caught.quiet.upTo, caught.quiet.cursor⟩
  | sync leaderEpoch result =>
      obtain ⟨rfl, rfl⟩ := Prod.mk.inj (Option.some.inj moved).symm
      have answer : (⟨.ok (r.leader.respond leaderEpoch r.request), result⟩ : Sync).response =
          .ok (r.leader.respond leaderEpoch r.request) := rfl
      by_cases accepts : r.follower.Accepts leaderEpoch
      · rw [Follower.sync_accepts answer accepts]
        exact caught.heard ⟨_, result⟩ leaderEpoch
      · rw [Follower.sync_stale answer accepts]
        exact caught.quiet
  | syncFails e =>
      obtain ⟨rfl, rfl⟩ := Prod.mk.inj (Option.some.inj moved).symm
      rw [Follower.sync_error rfl]
      exact caught.quiet
  | restart readable =>
      cases moved
      cases readable with
      | false => exact (caught.follow (by simp)).quiet
      | true =>
          rw [OwnLogBehind, caught.numbered.lastWopSeq] at behind
          exact (caught.follow behind).quiet
  | lostElection readable =>
      cases moved
      cases readable with
      | false =>
          have behind : min r.orbitSeq r.leader.wopSeq ≤ lastReplayed report :=
            (min_le_min_right _ caught.orbit).trans caught.cursor
          exact (caught.follow behind).quiet
      | true =>
          rw [OwnLogBehind, caught.numbered.lastWopSeq] at behind
          exact (caught.follow behind).quiet

/-- A cursor set past what was replayed passes over an entry, unless the log ends before. -/
theorem behind_of_follow (caught : Caught r report) {localSeq : Nat}
    (noGap : NoGap (r.follow localSeq) report) :
    min localSeq r.leader.lastWopSeq ≤ lastReplayed report := by
  rw [caught.numbered.lastWopSeq]
  by_contra ahead
  rw [not_le] at ahead
  obtain ⟨entry, mem, same⟩ := caught.numbered.mem_iff.mpr
    ⟨(Nat.zero_le _).trans_lt ahead, min_le_right localSeq r.leader.wopSeq⟩
  have handled := noGap entry mem (same ▸ min_le_left _ _)
  have last := handled.le_lastReplayed
  omega

theorem behind_of_noGap (caught : Caught r report) (moved : r.step a = some (r', now))
    (noGap : NoGap r' (report ++ now)) : OwnLogBehind r report a := by
  cases a with
  | leaderAppend op payload at' =>
      cases moved
      rw [List.append_nil] at noGap
      rw [OwnLogBehind, caught.numbered.lastWopSeq]
      by_contra ahead
      have new : (⟨r.leader.wopSeq + 1, op, payload, at'⟩ : WopEntry) ∈
          (r.leader.appendWop op payload at').wopLog :=
        List.mem_append_right _ List.mem_cons_self
      have logged := caught.logged _ (noGap _ new (not_le.mp ahead))
      have bound := caught.seq_le logged
      dsimp only at bound
      omega
  | ownAppend op payload at' => trivial
  | sync leaderEpoch result => trivial
  | syncFails e => trivial
  | restart readable =>
      cases moved
      rw [List.append_nil] at noGap
      cases readable with
      | false => trivial
      | true => exact caught.behind_of_follow noGap
  | lostElection readable =>
      cases moved
      rw [List.append_nil] at noGap
      cases readable with
      | false => trivial
      | true => exact caught.behind_of_follow noGap

end Caught

/-- No state of a run has a gap exactly when the follower's own log stays behind what was
replayed at every restart and lost election, and the cursor never waits past the end of
the leader's log when that log grows. -/
theorem no_gap_iff {cfg : SyncConfig} {labels : List ReplicationAction} {r : Replication F}
    {report : List FollowerEvent} :
    (replication.Run (fun r report _ => NoGap r report) (.fresh cfg) labels r report ∧
        NoGap r report) ↔
      replication.Run OwnLogBehind (.fresh cfg) labels r report := by
  have caught {labels : List ReplicationAction} {r : Replication F} {report : List FollowerEvent}
      (run : replication.Run OwnLogBehind (.fresh cfg) labels r report) : Caught r report :=
    run.invariant (I := Caught) (Caught.fresh cfg) fun _ _ _ _ _ => Caught.step
  constructor
  · rintro ⟨run, noGap⟩
    induction run with
    | start => exact .start
    | step before noGapBefore moved ih =>
        have run := ih noGapBefore
        exact run.step ((caught run).behind_of_noGap moved noGap) moved
  · intro run
    refine ⟨?_, (caught run).noGap⟩
    induction run with
    | start => exact .start
    | step before behind moved ih => exact ih.step (caught before).noGap moved

/-- The leader and the follower each log an entry of their own; then the follower's
process starts again. -/
def restartAfterOwnCommit : List ReplicationAction :=
  [.leaderAppend "delete" "01J" 1000, .ownAppend "delete" "01K" 2000, .restart true]

/-- The restarted follower takes the number of its own entry for the leader's. -/
theorem restart_passes_over_entry : ¬ ∀ cfg labels (r : Replication Fixed) report,
    replication.Run StepSystem.Always (.fresh cfg) labels r report → NoGap r report := by
  intro always
  have ran : replication.Run StepSystem.Always (.fresh unfenced.cfg : Replication Fixed)
      restartAfterOwnCommit
      { leader := Db.empty.appendWop "delete" "01J" 1000
        own := Db.empty.appendWop "delete" "01K" 2000
        orbitSeq := 1
        follower := ⟨unfenced.cfg, 1⟩ } [] :=
    .of_exec (fun _ _ _ (_ : true = true) => trivial) (by rfl)
  obtain ⟨_, _, mem⟩ := always _ _ _ _ ran ⟨1, "delete", "01J", 1000⟩ List.mem_cons_self (le_refl 1)
  cases mem

end FusionMemory
