import FusionMemory.Cluster.LoggedEntries

/-!
Replaying a log again.

A follower that is restarted may replay entries that it has already replayed. Rows absorb
this, since a batch changes a row by one `RowChange`, and so do vectors, since a live
vector is kept; the merge log does not. `replay_again_iff` says so.
-/

namespace FusionMemory

open Lib

variable {F : Type} [FloatArith F]

/-! ### Vectors that are there -/

section Vectors

variable {s : LocalStore F} {vecId other : Nat} {vec : List F}

omit [FloatArith F]

theorem insertVector_of_present (present : s.alreadyPresent vecId = true) :
    (s.insertVector vecId vec).2 = s := by
  unfold LocalStore.insertVector
  split_ifs
  · rfl
  · rfl

/-- A vector that is written is live, the others are as they were. -/
theorem alreadyPresent_insertWrites :
    (s.insertWrites vecId vec 2).alreadyPresent other =
      (decide (vecId = other) || s.alreadyPresent other) := by
  have marked : (s.insertWrites vecId vec 2).isTombstoned other =
      (!decide (vecId = other) && s.isTombstoned other) := by
    change ((s.tombTree.delete fun t => t == vecId).find? other).isSome =
      (!decide (vecId = other) && (s.tombTree.find? other).isSome)
    rw [Table.find?_delete]
    cases found : s.tombTree.find? other with
    | none => simp
    | some t =>
        obtain rfl : t = other := Table.find?_key found
        by_cases same : vecId = t
        · simp [Option.filter, same]
        · simp [Option.filter, same, Ne.symm same]
  unfold LocalStore.alreadyPresent
  rw [marked]
  change (((s.vecTree.upsert (vecId, vec)).find? other).isSome && _) = _
  rw [Table.find?_upsert]
  by_cases same : vecId = other <;> simp [same]

theorem insertVector_present (fits : vec.length = s.dim) :
    (s.insertVector vecId vec).2.alreadyPresent vecId = true := by
  unfold LocalStore.insertVector
  rw [if_neg (not_not.mpr fits)]
  split_ifs with present
  · exact present
  · exact alreadyPresent_insertWrites.trans (by simp)

/-- Inserting a vector deletes none. -/
theorem insertVector_keeps (present : s.alreadyPresent other = true) :
    (s.insertVector vecId vec).2.alreadyPresent other = true := by
  unfold LocalStore.insertVector
  split_ifs
  · exact present
  · exact present
  · exact alreadyPresent_insertWrites.trans (by simp [present])

end Vectors

/-! ### Replaying a batch again -/

variable [JsonText F] {entries : List WopEntry} {w w' w'' : World F}

theorem Applied.keeps_vector (applied : Applied entries w w') {vecId : Nat}
    (present : w.store.alreadyPresent vecId = true) : w'.store.alreadyPresent vecId = true := by
  induction applied with
  | nil w => exact present
  | @cons e _ _ w w₁ _ first _ ih =>
      refine ih ?_
      have vector := (replayOne_eq_ok first).vector
      split at vector
      · obtain ⟨vec, -, store⟩ := vector
        rw [store]
        exact insertVector_keeps present
      · rwa [vector]

/-- After a batch each vector that it stores is there. -/
theorem Applied.vector_present (applied : Applied entries w w') {e : WopEntry}
    (mem : e ∈ entries) {vecId : Nat} (stores : e.vectorId F = some vecId) :
    w'.store.alreadyPresent vecId = true := by
  induction applied with
  | nil w => cases mem
  | cons first later ih =>
      rcases List.mem_cons.mp mem with rfl | mem
      · have vector := (replayOne_eq_ok first).vector
        rw [stores] at vector
        obtain ⟨vec, fits, store⟩ := vector
        refine later.keeps_vector ?_
        rw [store]
        exact insertVector_present fits
      · exact ih mem

/-- A batch all of whose vectors are there leaves the store as it is. -/
theorem Applied.store_eq (applied : Applied entries w w')
    (present : ∀ e ∈ entries, ∀ vecId, e.vectorId F = some vecId →
      w.store.alreadyPresent vecId = true) : w'.store = w.store := by
  induction applied with
  | nil w => rfl
  | @cons _ _ _ w w₁ _ first _ ih =>
      have kept : w₁.store = w.store := by
        have vector := (replayOne_eq_ok first).vector
        split at vector
        · rename_i vecId stores
          obtain ⟨vec, -, store⟩ := vector
          exact store.trans
            (insertVector_of_present (present _ List.mem_cons_self vecId stores))
        · exact vector
      rw [ih fun e mem => kept ▸ present e (List.mem_cons_of_mem _ mem), kept]

/-- The rows, the live vectors and the merge log of a follower are the same. -/
structure SameReplica (w w' : World F) : Prop where
  rows : ∀ id, w'.db.getMemory id = w.db.getMemory id
  vectors : ∀ vecId, w'.store.getVector vecId = w.store.getVector vecId
  merges : w'.db.mergeLog = w.db.mergeLog

/-- The entry is a merge that a replay records. -/
def WopEntry.RecordsMerge (e : WopEntry) : Prop :=
  e.op = "merge" ∧ (splitTabs e.payload).length = 4

omit [FloatArith F] [JsonText F] in
theorem mergePair_eq_none_iff {e : WopEntry} : e.mergePair = none ↔ ¬ e.RecordsMerge := by
  unfold WopEntry.mergePair WopEntry.RecordsMerge
  by_cases op : e.op = "merge"
  · rw [if_pos op]
    split
    · rename_i parts
      simp [op, parts]
    · rename_i malformed
      refine iff_of_true rfl fun merge => ?_
      obtain ⟨source, target, reason, atText, parts⟩ := List.length_eq_four.mp merge.2
      exact malformed _ _ _ _ parts
  · simp [op]

theorem Applied.again_rows (first : Applied entries w w') (again : Applied entries w' w'')
    (id : String) : w''.db.getMemory id = w'.db.getMemory id := by
  rw [again.getMemory, first.getMemory, RowChange.apply_apply]

theorem Applied.again_store (first : Applied entries w w') (again : Applied entries w' w'') :
    w''.store = w'.store :=
  again.store_eq fun _ mem _ stores => first.vector_present mem stores

theorem Applied.mergeLog_eq_iff (applied : Applied entries w w') :
    w'.db.mergeLog = w.db.mergeLog ↔ ∀ e ∈ entries, ¬ e.RecordsMerge := by
  obtain ⟨added, log, pairs⟩ := applied.mergeLog
  have nothing : w'.db.mergeLog = w.db.mergeLog ↔ added = [] := by
    rw [log]
    simp
  rw [nothing, ← List.map_eq_nil_iff, pairs, List.filterMap_eq_nil_iff]
  simp only [mergePair_eq_none_iff]

/-- A second replay of a log leaves the follower as it is exactly when the log records no
merge. -/
theorem replay_again_iff {outcome outcome' : ReplayOutcome}
    (first : runSink (replayBatch entries) w = (.ok outcome, w')) (fine : outcome.failed = false)
    (again : runSink (replayBatch entries) w' = (.ok outcome', w''))
    (fine' : outcome'.failed = false) :
    SameReplica w' w'' ↔ ∀ e ∈ entries, ¬ e.RecordsMerge := by
  have applied := replayBatch_succeeds_iff.mp ⟨outcome, first, fine⟩
  have applied' := replayBatch_succeeds_iff.mp ⟨outcome', again, fine'⟩
  rw [← applied'.mergeLog_eq_iff]
  refine ⟨SameReplica.merges, fun merges => ⟨applied.again_rows applied', fun vecId => ?_, merges⟩⟩
  rw [applied.again_store applied']

def emptyFollower : World Fixed := World.fresh Env.quiet .empty (.empty 1)

/-- A run whose result is known. -/
theorem runSink_eta {α : Type} {p : ClusterM Fixed α} {w : World Fixed} {a : α}
    (result : (runSink p w).1 = .ok a) : runSink p w = (.ok a, (runSink p w).2) :=
  Prod.ext result rfl

def teaTurn : MemoryItem Fixed :=
  { MemoryItem.newTurnSkeleton "01A" "ix" 0 "s" "a" .episodic "likes tea" 1000 with vectorRef := "7" }

/-- A turn is committed and promoted, and another is deleted. -/
def promotedLog : List WopEntry :=
  [⟨1, "commit", JsonText.print (CommitEnvelope.mk teaTurn (some [⟨1000000⟩])).toJson, 1000⟩,
    ⟨2, "promote", "01A" ++ "\tLong", 2000⟩, ⟨3, "delete", "01B", 3000⟩]

theorem teaTurn_portable : teaTurn.Portable :=
  ⟨⟨by decide, by decide, by decide, by decide⟩, ⟨rfl, rfl⟩, by decide⟩

theorem promotedLog_logged : ∀ e ∈ promotedLog, Logged Fixed 1 e := by
  intro e mem
  simp only [promotedLog, List.mem_cons, List.not_mem_nil, or_false] at mem
  rcases mem with rfl | rfl | rfl
  · exact .commit 1 1000 teaTurn_portable ⟨rfl, rfl⟩ (fun x _ => ⟨rfl, rfl⟩) rfl
      (show parseU64 "7" = some 7 by decide +kernel)
  · exact .promote 2 (by decide) 2000
  · exact .delete 3 "01B" 3000

/-- The log puts the turn on the upper tier. -/
theorem promotedLog_raises {w w' : World Fixed} (applied : Applied promotedLog w w') :
    (w'.db.getMemory "01A").map (·.tier) = some .long := by
  have floats : ∀ x ∈ [(⟨1000000⟩ : Fixed)], Survives x := fun x _ => ⟨rfl, rfl⟩
  rw [applied.getMemory]
  simp only [changesAt, promotedLog, List.foldl_cons, List.foldl_nil, changeAt_eq change_delete,
    changeAt_eq (change_commit teaTurn_portable floats),
    changeAt_eq (change_promote (show '\t' ∉ "01A".toList by decide))]
  rfl

theorem replay_again_iff_promotedLog : ∃ outcome outcome' w' w'',
    runSink (replayBatch promotedLog) emptyFollower = (.ok outcome, w') ∧
      runSink (replayBatch promotedLog) w' = (.ok outcome', w'') ∧
      (w'.db.getMemory "01A").map (·.tier) = some .long ∧ SameReplica w' w'' := by
  have works : emptyFollower.env.NoFaults := ⟨fun _ _ => rfl, fun _ _ => rfl⟩
  obtain ⟨w', applied, works', fits'⟩ := applied_of_logged promotedLog_logged works rfl
  obtain ⟨w'', applied', -⟩ := applied_of_logged promotedLog_logged works' fits'
  obtain ⟨outcome, first, fine⟩ := replayBatch_succeeds_iff.mpr applied
  obtain ⟨outcome', again, fine'⟩ := replayBatch_succeeds_iff.mpr applied'
  refine ⟨outcome, outcome', w', w'', first, again, promotedLog_raises applied, ?_⟩
  refine (replay_again_iff first fine again fine').mpr fun e mem => ?_
  simp only [promotedLog, List.mem_cons, List.not_mem_nil, or_false] at mem
  rcases mem with rfl | rfl | rfl <;> exact fun records => absurd records.1 (by decide)

/-! ### A merge that is recorded twice -/

/-- A memory that was imported, with its entity and without a log entry. -/
def importedItem (id vectorRef : String) : MemoryItem Fixed :=
  { MemoryItem.newTurnSkeleton id ("studio-" ++ id) 0 "import-agent-studio" "" .semantic "likes tea"
      1000 with
    tier := .long, entities := [⟨"ent-fm", "fm", [], .project⟩], vectorRef }

/-- A leader that imported two memories of one project. -/
def importingLeader : World Fixed :=
  World.fresh { (Env.quiet : Env Fixed) with clock := fun _ => 5000 }
    ((Db.empty.putMemory (importedItem "01A" "7")).putMemory (importedItem "01B" "8"))
    (((LocalStore.empty 1).insertVector 7 [⟨1000000⟩]).2.insertVector 8 [⟨1000000⟩]).2

def mergedLog : List WopEntry :=
  [⟨1, "merge", "01A\t01B\tann-sim+shared-entity\t5000", 5000⟩]

theorem importingLeader_log :
    (run (consolidateImpl (plainEngine "") .default) importingLeader).2.db.wopLog = mergedLog := by
  decide +kernel

/-- The merge log of a follower that replays its log twice has the merge twice. -/
theorem merge_is_recorded_twice : ¬ ∀ (eng : MemoryEngine) (leader w w' w'' : World Fixed)
    (entries : List WopEntry) (outcome outcome' : ReplayOutcome), leader.db.wopLog = [] →
      entries = (run (consolidateImpl eng .default) leader).2.db.wopLog →
      runSink (replayBatch entries) w = (.ok outcome, w') → outcome.failed = false →
      runSink (replayBatch entries) w' = (.ok outcome', w'') → outcome'.failed = false →
        SameReplica w' w'' := by
  intro always
  have first := runSink_eta (p := replayBatch mergedLog) (w := emptyFollower)
    (a := ⟨1, 0, 1, false, false⟩) (by decide +kernel)
  have again := runSink_eta (p := replayBatch mergedLog)
    (w := (runSink (replayBatch mergedLog) emptyFollower).2)
    (a := ⟨1, 0, 1, false, false⟩) (by decide +kernel)
  have same := always (plainEngine "") importingLeader _ _ _ mergedLog _ _ rfl
    importingLeader_log.symm first rfl again rfl
  have merges := (replayBatch_succeeds_iff.mp ⟨_, again, rfl⟩).mergeLog_eq_iff.mp same.merges
  exact merges _ List.mem_cons_self ⟨rfl, by decide +kernel⟩

end FusionMemory
