import FusionMemory.Cluster.Replay

/-!
The cursor of a follower (`replay_wops` of `fm-cluster/src/replay.rs`, `sync_once` of
`fm-cluster/src/transport.rs`).

Replaying is written against the trait `ReplaySink`. Here a sink is whatever serves its
calls: a state and a result for each call, failures of both kinds included. The engine is
one such sink (`replayOne_eq_through`).

`cursor_exact` says how far a synchronization gets with any sink: through the entries
before the first failure, and the cursor to the last of them. Cursors start from
`last_wop_seq`, which is 0 for an empty log, and log entries are numbered from 1.
-/

namespace FusionMemory

open Lib

variable {F : Type}

/-! ### Sinks -/

/-- A call of `ReplaySink`. -/
inductive SinkCall (F : Type) where
  | embed (content : String)
  | putItem (item : MemoryItem F)
  | insertVector (vecId : Nat) (vec : List F)
  | tombstone (id : String)
  | promoteTier (id tier : String)
  | recordMerge (sourceId targetId reason : String) («at» : Nat)

@[reducible] def SinkCall.Value : SinkCall F → Type
  | .embed _ => List F
  | _ => Unit

@[reducible] def sinkSignature (F : Type) : Signature :=
  ⟨SinkCall F, fun call => Except ClusterError call.Value⟩

/-- A program over the calls of a sink. -/
abbrev SinkM (F α : Type) := Program (sinkSignature F) ClusterError α

/-- A sink: it answers each call from its state. -/
abbrev Sink (F σ : Type) := Machine (sinkSignature F) σ

def SinkCall.send (call : SinkCall F) : SinkM F call.Value := do
  let reply ← (Program.perform (S := sinkSignature F) call : SinkM F _)
  Program.ofExcept reply

/-- The vector of the leader, or the sink's own. -/
def vectorFor (content : String) : Option (List F) → SinkM F (List F)
  | some v => pure v
  | none => (SinkCall.embed content).send

section Dispatch

variable [FloatArith F] [JsonText F]

/-- `replay_one`, on any sink. -/
def WopEntry.replay (entry : WopEntry) : SinkM F Bool :=
  match entry.op with
  | "commit" => do
      let decoded : MemoryItem F × Option (List F) ← Program.ofExcept (commitPayload entry.payload)
      let vecId ← Program.ofExcept (vectorRefId decoded.1)
      let vec ← vectorFor decoded.1.content decoded.2
      (SinkCall.insertVector vecId vec).send
      (SinkCall.putItem decoded.1).send
      return true
  | "delete" => do
      (SinkCall.tombstone entry.payload).send
      return true
  | "recycle" => do
      (SinkCall.tombstone entry.payload).send
      return true
  | "promote" =>
      match splitTabs entry.payload with
      | [id, tier] => do
          (SinkCall.promoteTier id tier).send
          return true
      | _ => return false
  | "merge" =>
      match splitTabs entry.payload with
      | [source, target, reason, «at»] => do
          (SinkCall.tombstone source).send
          (SinkCall.recordMerge source target reason ((parseU64 «at»).getD 0)).send
          return true
      | _ => return false
  | "reextract" => do
      let item : MemoryItem F ← Program.ofExcept (reextractPayload entry.payload)
      (SinkCall.putItem item).send
      return true
  | _ => return false

end Dispatch

/-! ### The engine as a sink -/

def SinkCall.serve : (call : SinkCall F) → ClusterM F call.Value
  | .embed content => ReplaySink.embed content
  | .putItem item => ReplaySink.putItem item
  | .insertVector vecId vec => ReplaySink.insertVector vecId vec
  | .tombstone id => ReplaySink.tombstone id
  | .promoteTier id tier => ReplaySink.promoteTier id tier
  | .recordMerge sourceId targetId reason «at» => ReplaySink.recordMerge sourceId targetId reason «at»

/-- The engine's answer to a call. -/
def engineReply (call : SinkCall F) : ClusterM F (Except ClusterError call.Value) :=
  call.serve.attempt

theorem send_through (call : SinkCall F) : call.send.through engineReply = call.serve := by
  unfold SinkCall.send
  rw [Program.through_bind, Program.through_perform]
  refine Eq.trans ?_ (Program.attempt_bind_ofExcept call.serve)
  refine congrArg (call.serve.attempt >>= ·) (funext fun reply => ?_)
  cases reply <;> rfl

theorem ofExcept_through {α : Type} (result : Except ClusterError α) :
    (Program.ofExcept result : SinkM F α).through engineReply = Program.ofExcept result := by
  cases result <;> rfl

theorem vectorFor_through (content : String) (vector : Option (List F)) :
    (vectorFor content vector).through engineReply = commitVector content vector := by
  cases vector with
  | none => exact send_through (.embed content)
  | some v => rfl

/-- Replaying into the engine is replaying into a sink that the engine serves. -/
theorem replayOne_eq_through [FloatArith F] [JsonText F] (entry : WopEntry) :
    (replayOne entry : ClusterM F Bool) = entry.replay.through engineReply := by
  have insertVector (vecId : Nat) (vec : List F) :
      Program.through (α := Unit) engineReply (SinkCall.insertVector vecId vec).send =
        ReplaySink.insertVector vecId vec := send_through (.insertVector vecId vec)
  have putItem (item : MemoryItem F) :
      Program.through (α := Unit) engineReply (SinkCall.putItem item).send =
        ReplaySink.putItem item := send_through (.putItem item)
  have tombstone (id : String) :
      Program.through (α := Unit) engineReply (SinkCall.tombstone id).send =
        (ReplaySink.tombstone id : ClusterM F Unit) := send_through (.tombstone id)
  have promoteTier (id tier : String) :
      Program.through (α := Unit) engineReply (SinkCall.promoteTier id tier).send =
        (ReplaySink.promoteTier id tier : ClusterM F Unit) := send_through (.promoteTier id tier)
  have recordMerge (source target reason : String) (at' : Nat) :
      Program.through (α := Unit) engineReply (SinkCall.recordMerge source target reason at').send =
        (ReplaySink.recordMerge source target reason at' : ClusterM F Unit) :=
    send_through (.recordMerge source target reason at')
  unfold replayOne WopEntry.replay
  generalize entry.op = op
  generalize splitTabs entry.payload = fields
  split
  · simp only [Program.through_bind, ofExcept_through, vectorFor_through, insertVector, putItem]
    rfl
  · simp only [Program.through_bind, tombstone]
    rfl
  · simp only [Program.through_bind, tombstone]
    rfl
  · split
    · simp only [Program.through_bind, promoteTier]
      rfl
    · simp
  · split
    · simp only [Program.through_bind, tombstone, recordMerge]
      rfl
    · simp
  · simp only [Program.through_bind, ofExcept_through, putItem]
    rfl
  · simp

/-- The engine, as a sink. -/
def engineSink (F : Type) [FloatArith F] : Sink F (World F) where
  ready _ _ := true
  exec call w := runSink call.serve w

theorem runSink_replayOne [FloatArith F] [JsonText F] (entry : WopEntry) (w : World F) :
    runSink (replayOne entry) w = Program.run (engineSink F) entry.replay w := by
  rw [replayOne_eq_through]
  exact Program.run_through (fun call w => Program.run_attempt (machine F) (SinkCall.serve call) w) _ w

/-! ### Entries replayed in order -/

section Batches

variable [FloatArith F] [JsonText F] {σ : Type}

/-- The entries were replayed one after the other, each with success: applied, or skipped. -/
inductive Landed (sink : Sink F σ) : List (WopEntry × Bool) → σ → σ → Prop where
  | nil (s : σ) : Landed sink [] s s
  | cons {entry : WopEntry} {applied : Bool} {rest : List (WopEntry × Bool)} {s s₁ s' : σ} :
      Program.run sink entry.replay s = (.ok applied, s₁) → Landed sink rest s₁ s' →
      Landed sink ((entry, applied) :: rest) s s'

/-- What comes after the entries that landed: nothing, or an entry that fails and ends the
batch. The flags are `failed` and `permanent`. -/
inductive Stopped (sink : Sink F σ) : List WopEntry → σ → Bool → Bool → σ → Prop where
  | finished (s : σ) : Stopped sink [] s false false s
  | failed {entry : WopEntry} {later : List WopEntry} {s s' : σ} {e : ClusterError} :
      Program.run sink entry.replay s = (.error e, s') →
      Stopped sink (entry :: later) s true e.isPermanent s'

/-- The outcome after some more entries. -/
def ReplayOutcome.addAll (outcome : ReplayOutcome) (landed : List (WopEntry × Bool)) :
    ReplayOutcome :=
  landed.foldl (fun outcome p => outcome.add p.1 p.2) outcome

/-- Replaying on a sink, the failures kept in the outcome. -/
def replayInto (entry : WopEntry) : SinkM F (Except ClusterError Bool) := entry.replay.attempt

variable (sink : Sink F σ)

theorem run_replayFrom_cons (entry : WopEntry) (rest : List WopEntry) (outcome : ReplayOutcome)
    (s : σ) : Program.run sink (replayFrom replayInto (entry :: rest) outcome) s =
      match Program.run sink entry.replay s with
      | (.ok applied, s₁) =>
          Program.run sink (replayFrom replayInto rest (outcome.add entry applied)) s₁
      | (.error e, s₁) =>
          (.ok { outcome with failed := true, permanent := e.isPermanent }, s₁) := by
  rw [replayFrom, replayInto, Program.run_bind_ok sink (Program.run_attempt sink _ s)]
  cases ran : Program.run sink entry.replay s with
  | mk result s₁ =>
      cases result with
      | error e => rfl
      | ok applied => cases applied <;> rfl

/-- A batch lands up to its first failure, and goes no further. -/
theorem run_replayFrom (entries : List WopEntry) : ∀ (outcome : ReplayOutcome) (s : σ),
    outcome.failed = false → outcome.permanent = false →
    ∃ landed rest s₁ failed permanent s', entries = landed.map Prod.fst ++ rest ∧
      Landed sink landed s s₁ ∧ Stopped sink rest s₁ failed permanent s' ∧
      Program.run sink (replayFrom replayInto entries outcome) s =
        (.ok { outcome.addAll landed with failed := failed, permanent := permanent }, s') := by
  induction entries with
  | nil =>
      intro outcome s fine still
      obtain ⟨applied, skipped, lastAppliedSeq, failed, permanent⟩ := outcome
      cases fine
      cases still
      exact ⟨[], [], s, false, false, s, rfl, .nil s, .finished s, rfl⟩
  | cons entry rest ih =>
      intro outcome s fine still
      rw [run_replayFrom_cons]
      cases ran : Program.run sink entry.replay s with
      | mk result s₁ =>
          cases result with
          | error e =>
              exact ⟨[], entry :: rest, s, true, e.isPermanent, s₁, rfl, .nil s, .failed ran, rfl⟩
          | ok applied =>
              obtain ⟨landed, left, s₂, failed, permanent, s', split, lands, stops, result⟩ :=
                ih (outcome.add entry applied) s₁ fine still
              refine ⟨(entry, applied) :: landed, left, s₂, failed, permanent, s', ?_,
                .cons ran lands, stops, result⟩
              rw [split]
              rfl

theorem runSink_replayFrom (entries : List WopEntry) : ∀ (outcome : ReplayOutcome) (w : World F),
    runSink (replayFrom (fun entry => (replayOne entry).attempt) entries outcome) w =
      Program.run (engineSink F) (replayFrom replayInto entries outcome) w := by
  induction entries with
  | nil => exact fun outcome w => rfl
  | cons entry rest ih =>
      intro outcome w
      rw [runSink_replayFrom_cons, run_replayFrom_cons, runSink_replayOne]
      rcases Program.run (engineSink F) entry.replay w with ⟨e | applied, w₁⟩
      · rfl
      · exact ih _ w₁

/-- The engine's batches are batches on its sink. -/
theorem runSink_replayBatch (entries : List WopEntry) (w : World F) :
    runSink (replayBatch entries) w = Program.run (engineSink F) (replayWops replayInto entries) w :=
  runSink_replayFrom entries _ w

/-! ### Counts and the last entry -/

theorem addAll_eq (landed : List (WopEntry × Bool)) : ∀ outcome : ReplayOutcome,
    outcome.addAll landed =
      { outcome with
        applied := outcome.applied + landed.countP (·.2)
        skipped := outcome.skipped + landed.countP (!·.2)
        lastAppliedSeq := (landed.map (·.1.seq)).foldl max outcome.lastAppliedSeq } := by
  induction landed with
  | nil => exact fun outcome => rfl
  | cons p rest ih =>
      intro outcome
      obtain ⟨entry, applied⟩ := p
      refine (ih (outcome.add entry applied)).trans ?_
      cases applied <;> simp [ReplayOutcome.add, Nat.add_assoc, Nat.add_comm 1]

/-- The entries come in ascending order, all above the cursor. -/
def AscendingAbove (cursor : Nat) (entries : List WopEntry) : Prop :=
  (cursor :: entries.map (·.seq)).Pairwise (· < ·)

/-- The last of the entries that landed, if there is one. -/
def cursorAfter (cursor : Nat) (landed : List (WopEntry × Bool)) : Nat :=
  (landed.getLast?.map (·.1.seq)).getD cursor

theorem max_lastSeq {cursor : Nat} {landed : List (WopEntry × Bool)} {rest : List WopEntry}
    (ascending : AscendingAbove cursor (landed.map Prod.fst ++ rest)) :
    max cursor (lastSeq landed) = cursorAfter cursor landed := by
  unfold AscendingAbove at ascending
  rw [List.map_append, List.map_map, List.pairwise_cons, List.pairwise_append] at ascending
  obtain ⟨above, ordered, -, -⟩ := ascending
  rcases List.eq_nil_or_concat landed with rfl | ⟨init, p, rfl⟩
  · exact Nat.max_zero cursor
  · rw [List.concat_eq_append] at above ordered ⊢
    have before : lastSeq init ≤ p.1.seq := by
      refine maxSeq_le_iff.mpr fun seq mem => ?_
      rw [List.map_append, List.pairwise_append] at ordered
      exact (ordered.2.2 seq mem p.1.seq List.mem_cons_self).le
    have last : lastSeq (init ++ [p]) = p.1.seq := by
      unfold lastSeq
      rw [List.map_append, maxSeq_append]
      exact max_eq_right before
    rw [last, cursorAfter, List.getLast?_concat]
    refine max_eq_right (above p.1.seq ?_).le
    simp

end Batches

/-! ### One synchronization -/

section Synchronizations

variable [FloatArith F] [JsonText F] {σ : Type}

/-- `sync_once` on a sink, with whatever came of the exchange with the leader. -/
def Follower.syncInto (response : Except ClusterError SyncResponse) (f : Follower) :
    SinkM F (Except ClusterError (Nat × Nat × Bool × Bool) × Follower) :=
  f.syncOnce (fun _ _ => pure response) replayInto

section Spec

variable (sink : Sink F σ) {f : Follower} {resp : SyncResponse} (s : σ)

theorem syncInto_error (e : ClusterError) :
    Program.run sink (f.syncInto (.error e)) s = (.ok (.error e, f), s) := rfl

theorem syncInto_stale (stale : ¬ f.Accepts resp.leaderEpoch) :
    Program.run sink (f.syncInto (.ok resp)) s =
      (.ok (.error (.staleLeader resp.leaderEpoch f.cfg.epoch), f), s) := by
  have fenced : f.cfg.epoch > 0 ∧ resp.leaderEpoch < f.cfg.epoch := by
    unfold Follower.Accepts at stale
    omega
  unfold Follower.syncInto Follower.syncOnce
  simp only [Program.pure_def, Program.done_bind]
  rw [if_pos fenced]
  rfl

theorem Follower.max_cursor (f : Follower) (seq : Nat) :
    (if seq > f.localLastSeq then { f with localLastSeq := seq } else f) =
      { f with localLastSeq := max f.localLastSeq seq } := by
  split_ifs with ahead
  · rw [max_eq_right (le_of_lt ahead)]
  · rw [max_eq_left (not_lt.mp ahead)]

theorem syncInto_accepts (accepts : f.Accepts resp.leaderEpoch) :
    ∃ landed rest s₁ failed permanent s', resp.entries = landed.map Prod.fst ++ rest ∧
      Landed sink landed s s₁ ∧ Stopped sink rest s₁ failed permanent s' ∧
      ∃ f', f' = { f with localLastSeq := max f.localLastSeq (lastSeq landed) } ∧
        Program.run sink (f.syncInto (.ok resp)) s =
          (.ok (.ok (f'.localLastSeq, landed.countP (·.2), failed, permanent), f'), s') := by
  have passes : ¬ (f.cfg.epoch > 0 ∧ resp.leaderEpoch < f.cfg.epoch) := by
    unfold Follower.Accepts at accepts
    omega
  obtain ⟨landed, rest, s₁, failed, permanent, s', split, lands, stops, ran⟩ :=
    run_replayFrom sink resp.entries
      { applied := 0, skipped := 0, lastAppliedSeq := 0, failed := false, permanent := false } s
      rfl rfl
  refine ⟨landed, rest, s₁, failed, permanent, s', split, lands, stops, _,
    f.max_cursor (lastSeq landed), ?_⟩
  unfold Follower.syncInto Follower.syncOnce replayWops
  simp only [Program.pure_def, Program.done_bind]
  rw [if_neg passes, Program.run_bind_ok sink ran, addAll_eq, foldl_max_zero, Nat.zero_add]
  rfl

end Spec

/-- The entries of a batch land one after the other up to the first that fails, which is the
last one tried, and the cursor moves to the last that landed. Nothing is tried, and the
cursor stays, where no response comes or the leader is refused. The cursor never goes back. -/
theorem cursor_exact (sink : Sink F σ) (f : Follower) (response : Except ClusterError SyncResponse)
    (s : σ) :
    ∃ result f' s', Program.run sink (f.syncInto response) s = (.ok (result, f'), s') ∧
      f.localLastSeq ≤ f'.localLastSeq ∧
      (∀ resp, response = .ok resp → f.Accepts resp.leaderEpoch →
        ∃ landed rest s₁ failed permanent, resp.entries = landed.map Prod.fst ++ rest ∧
          Landed sink landed s s₁ ∧ Stopped sink rest s₁ failed permanent s' ∧
          result = .ok (f'.localLastSeq, landed.countP (·.2), failed, permanent) ∧
          (AscendingAbove f.localLastSeq resp.entries →
            f'.localLastSeq = cursorAfter f.localLastSeq landed)) ∧
      ((∀ resp, response = .ok resp → ¬ f.Accepts resp.leaderEpoch) →
        f' = f ∧ s' = s ∧ ∃ e, result = .error e) := by
  cases response with
  | error e =>
      refine ⟨.error e, f, s, syncInto_error sink s e, le_rfl, ?_, fun _ => ⟨rfl, rfl, e, rfl⟩⟩
      exact fun resp same => by cases same
  | ok resp =>
      by_cases accepts : f.Accepts resp.leaderEpoch
      · obtain ⟨landed, rest, s₁, failed, permanent, s', split, lands, stops, _, rfl, ran⟩ :=
          syncInto_accepts sink s accepts
        refine ⟨_, _, s', ran, le_max_left _ _, ?_, fun refused => absurd accepts (refused resp rfl)⟩
        intro resp' same _
        cases same
        refine ⟨landed, rest, s₁, failed, permanent, split, lands, stops, rfl, ?_⟩
        intro ascending
        rw [split] at ascending
        exact max_lastSeq ascending
      · refine ⟨_, f, s, syncInto_stale sink s accepts, le_rfl, ?_, fun _ => ⟨rfl, rfl, _, rfl⟩⟩
        intro resp' same accepts'
        cases same
        exact absurd accepts' accepts

end Synchronizations

end FusionMemory
