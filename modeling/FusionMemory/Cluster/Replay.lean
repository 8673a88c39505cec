import FusionMemory.Cluster.Follower
import FusionMemory.Engine.RowFrame

/-!
Replaying log entries into an engine (`replay_one` of `fm-cluster/src/replay.rs`, and the
`ReplaySink` of the engine in `fm-engine/src/engine.rs`).

`replayOne` is the program that puts one entry of the leader's log into effect. What it
does to the rows is an algebra of its own: an entry changes at most one row, and the
changes compose. `replayOne_eq_ok` says what a replay that succeeds has done, and
`Applied` what a whole batch has.
-/

namespace FusionMemory

open Lib

variable {F : Type}

/-- A program that stops with a `ClusterError`. -/
abbrev ClusterM (F α : Type) := Program (engineSignature F) ClusterError α

/-! ### The sink -/

namespace ReplaySink

def embed (content : String) : ClusterM F (List F) := do
  let reply ← (Program.perform (S := engineSignature F) (.embed content) : ClusterM F _)
  Program.ofExcept (reply.mapError fun e => .memory (.store e))

/-- A database call, `.map_err(ClusterError::from)?`. -/
def persist (op : PersistOp F) : ClusterM F op.Value := do
  let reply ← (Program.perform (S := engineSignature F) (.persist op) : ClusterM F _)
  Program.ofExcept (reply.mapError .persist)

def putItem (item : MemoryItem F) : ClusterM F Unit := persist (.putMemory item)

def insertVector (vecId : Nat) (vec : List F) : ClusterM F Unit := do
  let reply ← (Program.perform (S := engineSignature F) (.store (.insertVector vecId vec)) :
    ClusterM F _)
  Program.ofExcept (reply.mapError fun e => .memory e.toMemory)

def tombstone (id : String) : ClusterM F Unit := persist (.tombstoneMemory id)

/-- A missing memory is taken for a deleted one. -/
def promoteTier (id tier : String) : ClusterM F Unit :=
  match MemoryTier.ofName tier with
  | none => .fail (.replay ("promote_tier unknown tier: " ++ tier))
  | some tierEnum => do
      let found : Option (MemoryItem F) ← persist (.getMemory id)
      match found with
      | none => return ()
      | some item => persist (.putMemory { item with tier := tierEnum })

def recordMerge (sourceId targetId reason : String) («at» : Nat) : ClusterM F Unit :=
  persist (.recordMerge sourceId targetId reason «at»)

end ReplaySink

/-! ### One entry -/

/-- `payload.split('\t')`. -/
def splitTabs (payload : String) : List String :=
  (payload.toList.splitOn '\t').map String.ofList

section Programs

variable [FloatArith F] [JsonText F]

/-- A payload that cannot be decoded will never be. -/
def commitPayload (payload : String) : Except ClusterError (MemoryItem F × Option (List F)) :=
  (decodeCommitPayload payload).mapError fun e =>
    if e.isPermanent then e else .permanentReplay ("commit payload decode: " ++ e.toString)

/-- `vector_ref.parse()`, without the wording of the parser. -/
def vectorRefId (item : MemoryItem F) : Except ClusterError Nat :=
  match parseU64 item.vectorRef with
  | some vecId => .ok vecId
  | none => .error (.permanentReplay "vector_ref parse")

def reextractPayload (payload : String) : Except ClusterError (MemoryItem F) :=
  match (JsonText.parse payload).bind MemoryItem.fromJson with
  | some item => .ok item
  | none => .error (.permanentReplay "reextract payload decode")

/-- The vector of the leader, or the follower's own. -/
def commitVector (content : String) : Option (List F) → ClusterM F (List F)
  | some v => pure v
  | none => ReplaySink.embed content

/-- Put an entry into effect; `false` if it is skipped. -/
def replayOne (entry : WopEntry) : ClusterM F Bool :=
  match entry.op with
  | "commit" => do
      let decoded : MemoryItem F × Option (List F) ← Program.ofExcept (commitPayload entry.payload)
      let vecId ← Program.ofExcept (vectorRefId decoded.1)
      let vec ← commitVector decoded.1.content decoded.2
      ReplaySink.insertVector vecId vec
      ReplaySink.putItem decoded.1
      return true
  | "delete" => do
      ReplaySink.tombstone entry.payload
      return true
  | "recycle" => do
      ReplaySink.tombstone entry.payload
      return true
  | "promote" =>
      match splitTabs entry.payload with
      | [id, tier] => do
          ReplaySink.promoteTier id tier
          return true
      | _ => return false
  | "merge" =>
      match splitTabs entry.payload with
      | [source, target, reason, «at»] => do
          ReplaySink.tombstone source
          ReplaySink.recordMerge source target reason ((parseU64 «at»).getD 0)
          return true
      | _ => return false
  | "reextract" => do
      let item : MemoryItem F ← Program.ofExcept (reextractPayload entry.payload)
      ReplaySink.putItem item
      return true
  | _ => return false

/-- The batch of a follower, its failures kept in the outcome. -/
def replayBatch (entries : List WopEntry) : ClusterM F ReplayOutcome :=
  replayWops (fun entry => (replayOne entry).attempt) entries

end Programs

/-! ### Changes of a row -/

/-- Write a row, then set its tier, then tombstone it; each if given. -/
structure RowChange (F : Type) where
  put : Option (MemoryItem F)
  tier : Option MemoryTier
  tombstone : Bool

namespace RowChange

def none : RowChange F := ⟨.none, .none, false⟩
def ofItem (item : MemoryItem F) : RowChange F := ⟨some item, .none, false⟩
def ofTier (tier : MemoryTier) : RowChange F := ⟨.none, some tier, false⟩
def tombstoned : RowChange F := ⟨.none, .none, true⟩

def alter (c : RowChange F) (m : MemoryItem F) : MemoryItem F :=
  { m with tier := c.tier.getD m.tier, tombstone := m.tombstone || c.tombstone }

def apply (c : RowChange F) (row : Option (MemoryItem F)) : Option (MemoryItem F) :=
  (c.put.or row).map c.alter

/-- First `c`, then `d`. -/
def comp (c d : RowChange F) : RowChange F :=
  match d.put with
  | some _ => d
  | .none => ⟨c.put, d.tier.or c.tier, c.tombstone || d.tombstone⟩

@[simp] theorem apply_none (row : Option (MemoryItem F)) : none.apply row = row := by
  cases row with
  | none => rfl
  | some m => simp [apply, none, alter]

@[simp] theorem apply_ofItem (item : MemoryItem F) (row : Option (MemoryItem F)) :
    (ofItem item).apply row = some item := by
  simp [apply, ofItem, alter]

theorem apply_comp (c d : RowChange F) (row : Option (MemoryItem F)) :
    (c.comp d).apply row = d.apply (c.apply row) := by
  cases written : d.put with
  | some item => simp only [comp, apply, written, Option.some_or]
  | none =>
      simp only [comp, apply, written, Option.none_or, Option.map_map]
      refine congrArg (Option.map · (c.put.or row)) (funext fun m => ?_)
      cases later : d.tier <;> simp [alter, later, Bool.or_assoc]

/-- A change made twice is made once. -/
theorem apply_apply (c : RowChange F) (row : Option (MemoryItem F)) :
    c.apply (c.apply row) = c.apply row := by
  cases written : c.put with
  | some item => simp only [apply, written, Option.some_or]
  | none =>
      simp only [apply, written, Option.none_or, Option.map_map]
      refine congrArg (Option.map · row) (funext fun m => ?_)
      cases given : c.tier <;> simp [alter, given]

end RowChange

/-! ### What an entry does -/

namespace WopEntry

variable [FloatArith F] [JsonText F]

/-- The row that an entry changes, and how. -/
def change (e : WopEntry) : Option (String × RowChange F) :=
  match e.op with
  | "commit" =>
      (commitPayload e.payload).toOption.map fun decoded : MemoryItem F × Option (List F) =>
        (decoded.1.id, .ofItem decoded.1)
  | "delete" => some (e.payload, .tombstoned)
  | "recycle" => some (e.payload, .tombstoned)
  | "promote" =>
      match splitTabs e.payload with
      | [id, tier] => (MemoryTier.ofName tier).map fun tierEnum => (id, .ofTier tierEnum)
      | _ => none
  | "merge" =>
      match splitTabs e.payload with
      | [source, _, _, _] => some (source, .tombstoned)
      | _ => none
  | "reextract" =>
      (reextractPayload e.payload).toOption.map fun item : MemoryItem F => (item.id, .ofItem item)
  | _ => none

def changeAt (e : WopEntry) (id : String) : RowChange F :=
  match (e.change : Option (String × RowChange F)) with
  | some (changed, c) => if changed = id then c else .none
  | none => .none

/-- The vector that an entry stores. -/
def vectorId (F : Type) [FloatArith F] [JsonText F] (e : WopEntry) : Option Nat :=
  if e.op = "commit" then
    (commitPayload (F := F) e.payload).toOption.bind fun decoded => parseU64 decoded.1.vectorRef
  else none

/-- The pair that an entry adds to the merge log. -/
def mergePair (e : WopEntry) : Option (String × String) :=
  if e.op = "merge" then
    match splitTabs e.payload with
    | [source, target, _, _] => some (source, target)
    | _ => none
  else none

end WopEntry

def MergeLogEntry.pair (m : MergeLogEntry) : String × String := (m.sourceId, m.targetId)

/-- What a replayed entry has done to the follower. -/
structure Replayed [FloatArith F] [JsonText F] (e : WopEntry) (w w' : World F) : Prop where
  env : w'.env = w.env
  row : ∀ id, w'.db.getMemory id = (e.changeAt id).apply (w.db.getMemory id)
  merges : ∃ added, w'.db.mergeLog = w.db.mergeLog ++ added ∧
    added.map (·.pair) = e.mergePair.toList
  vector : match e.vectorId F with
    | some vecId => ∃ vec, vec.length = w.store.dim ∧
        w'.store = (w.store.insertVector vecId vec).2
    | none => w'.store = w.store

section Effects

variable [FloatArith F] {α β : Type}

/-- Run a program of the replay on a world. -/
abbrev runSink (p : ClusterM F α) (w : World F) : Except ClusterError α × World F :=
  Program.run (machine F) p w

theorem runSink_persist (op : PersistOp F) (w : World F) :
    runSink (ReplaySink.persist op) w =
      ((w.execPersist op).1.mapError .persist, w.withDb (w.execPersist op).2) := by
  unfold ReplaySink.persist
  rw [runSink, Program.run_bind_ok (machine F) (Program.run_perform (machine F) _ w)]
  change Program.run (machine F) (Program.ofExcept ((w.execPersist op).1.mapError ClusterError.persist))
    (w.withDb (w.execPersist op).2) = _
  cases (w.execPersist op).1 <;> rfl

/-- A call that failed as a whole was not the one that succeeded. -/
theorem runSink_persist_eq_ok {op : PersistOp F} {w w' : World F} {a : op.Value}
    (whole : ∀ e n, (op.fails w.db e n).1 = .error e)
    (h : runSink (ReplaySink.persist op) w = (.ok a, w')) :
    (op.exec w.db).1 = .ok a ∧ w' = w.withDb (op.exec w.db).2 := by
  rw [runSink_persist, Prod.mk.injEq] at h
  obtain ⟨reply, rfl⟩ := h
  rcases w.execPersist_cases op with done | ⟨e, n, failed⟩
  · rw [done] at reply ⊢
    refine ⟨?_, rfl⟩
    cases result : (op.exec w.db).1 with
    | ok b => rw [result] at reply; cases reply; rfl
    | error e => rw [result] at reply; cases reply
  · rw [failed, whole] at reply
    cases reply

theorem runSink_insertVector_eq_ok {vecId : Nat} {vec : List F} {w w' : World F}
    (h : runSink (ReplaySink.insertVector vecId vec) w = (.ok (), w')) :
    vec.length = w.store.dim ∧ w' = w.withStore (w.store.insertVector vecId vec).2 := by
  unfold ReplaySink.insertVector at h
  rw [runSink, Program.run_bind_ok (machine F) (Program.run_perform (machine F) _ w)] at h
  change Program.run (machine F) (Program.ofExcept ((w.execStore (.insertVector vecId vec)).1.mapError
    fun e => ClusterError.memory e.toMemory)) (w.withStore (w.execStore (.insertVector vecId vec)).2) = _ at h
  rcases w.execStore_cases (.insertVector vecId vec) with done | ⟨e, n, failed⟩
  · rw [done] at h
    change Program.run (machine F) (Program.ofExcept ((w.store.insertVector vecId vec).1.mapError
      fun e => ClusterError.memory e.toMemory)) (w.withStore (w.store.insertVector vecId vec).2) = _ at h
    unfold LocalStore.insertVector at h ⊢
    split_ifs at h ⊢ with wrong present
    · cases h
    · cases h
      exact ⟨not_not.mp wrong, rfl⟩
    · cases h
      exact ⟨not_not.mp wrong, rfl⟩
  · rw [failed] at h
    unfold StoreOp.fails LocalStore.insertVectorFails at h
    dsimp only at h
    split_ifs at h <;> cases h

theorem runSink_ofExcept_bind_eq_ok {result : Except ClusterError α} {k : α → ClusterM F β}
    {w w' : World F} {b : β} (h : runSink (Program.ofExcept result >>= k) w = (.ok b, w')) :
    ∃ a, result = .ok a ∧ runSink (k a) w = (.ok b, w') := by
  cases result with
  | ok a => exact ⟨a, rfl, h⟩
  | error e => cases h

theorem runSink_bind_eq_ok {p : ClusterM F α} {k : α → ClusterM F β} {w w' : World F} {b : β}
    (h : runSink (p >>= k) w = (.ok b, w')) :
    ∃ a w₁, runSink p w = (.ok a, w₁) ∧ runSink (k a) w₁ = (.ok b, w') :=
  Program.run_bind_eq_ok _ h

end Effects

/-! ### A replay that succeeds -/

section Steps

variable [FloatArith F] [JsonText F] {e : WopEntry} {w w' : World F}

theorem changeAt_eq {changed : String} {c : RowChange F} (known : e.change = some (changed, c))
    (id : String) : e.changeAt id = if changed = id then c else .none := by
  unfold WopEntry.changeAt
  rw [known]

theorem changeAt_none (known : e.change = (none : Option (String × RowChange F))) (id : String) :
    e.changeAt id = (.none : RowChange F) := by
  unfold WopEntry.changeAt
  rw [known]

omit [FloatArith F] [JsonText F] in
theorem getMemory_put (db : Db F) (item : MemoryItem F) (id : String) :
    (db.putMemory item).getMemory id =
      (if item.id = id then RowChange.ofItem item else .none).apply (db.getMemory id) := by
  rw [Db.getMemory_putMemory]
  split_ifs
  · exact (RowChange.apply_ofItem item _).symm
  · exact (RowChange.apply_none _).symm

omit [FloatArith F] [JsonText F] in
theorem getMemory_tombstone (db : Db F) (gone id : String) :
    (db.tombstoneMemory gone).getMemory id =
      (if gone = id then RowChange.tombstoned else .none).apply (db.getMemory id) := by
  unfold Db.tombstoneMemory
  rw [Db.getMemory_setTombstone]
  split_ifs
  · cases db.getMemory id <;> simp [RowChange.apply, RowChange.tombstoned, RowChange.alter]
  · simp

/-- An entry that only changes a row. -/
theorem Replayed.ofRow {changed : String} {c : RowChange F}
    (known : e.change = some (changed, c)) (vector : e.vectorId F = none)
    (pair : e.mergePair = none) (env : w'.env = w.env) (store : w'.store = w.store)
    (log : w'.db.mergeLog = w.db.mergeLog)
    (row : ∀ id, w'.db.getMemory id =
      (if changed = id then c else .none).apply (w.db.getMemory id)) : Replayed e w w' where
  env := env
  row id := by rw [changeAt_eq known]; exact row id
  merges := ⟨[], by simp [log], by simp [pair]⟩
  vector := by rw [vector]; exact store

theorem Replayed.skipped (known : e.change = (none : Option (String × RowChange F)))
    (vector : e.vectorId F = none) (pair : e.mergePair = none) : Replayed e w w where
  env := rfl
  row id := by rw [changeAt_none known, RowChange.apply_none]
  merges := ⟨[], by simp, by simp [pair]⟩
  vector := by rw [vector]

theorem Replayed.ofTombstone {gone : String} (known : e.change = some (gone, (.tombstoned : RowChange F)))
    (vector : e.vectorId F = none) (pair : e.mergePair = none)
    (ran : runSink (ReplaySink.tombstone gone) w = (.ok (), w')) : Replayed e w w' := by
  obtain ⟨-, rfl⟩ := runSink_persist_eq_ok (fun _ _ => rfl) ran
  exact .ofRow known vector pair rfl rfl rfl (getMemory_tombstone w.db gone)

theorem Replayed.ofPut {item : MemoryItem F} (known : e.change = some (item.id, .ofItem item))
    (vector : e.vectorId F = none) (pair : e.mergePair = none)
    (ran : runSink (ReplaySink.putItem item) w = (.ok (), w')) : Replayed e w w' := by
  obtain ⟨-, rfl⟩ := runSink_persist_eq_ok (fun _ _ => rfl) ran
  exact .ofRow known vector pair rfl rfl rfl (getMemory_put w.db item)

theorem Replayed.ofPromote {id : String} {tier : MemoryTier}
    (known : e.change = some (id, (.ofTier tier : RowChange F))) (vector : e.vectorId F = none)
    (pair : e.mergePair = none) {name : String} (named : MemoryTier.ofName name = some tier)
    (ran : runSink (ReplaySink.promoteTier id name) w = (.ok (), w')) : Replayed e w w' := by
  unfold ReplaySink.promoteTier at ran
  rw [named] at ran
  obtain ⟨found, w₁, read, ran⟩ := runSink_bind_eq_ok ran
  obtain ⟨looked, rfl⟩ := runSink_persist_eq_ok (fun _ _ => rfl) read
  have stored : w.db.getMemory id = found := Except.ok.inj looked
  cases found with
  | none =>
      cases ran
      refine .ofRow known vector pair rfl rfl rfl fun id' => ?_
      change w.db.getMemory id' = _
      split_ifs with same
      · rw [← same, stored]
        rfl
      · rw [RowChange.apply_none]
  | some item =>
      obtain ⟨-, rfl⟩ := runSink_persist_eq_ok (fun _ _ => rfl) ran
      obtain rfl : item.id = id := Table.find?_key stored
      refine .ofRow known vector pair rfl rfl rfl fun id' => ?_
      change (w.db.putMemory _).getMemory id' = _
      rw [Db.getMemory_putMemory]
      dsimp only
      split_ifs with same
      · rw [← same, stored]
        simp [RowChange.apply, RowChange.ofTier, RowChange.alter]
      · rw [RowChange.apply_none]

theorem Replayed.ofMerge {source target reason : String} {«at» : Nat}
    (known : e.change = some (source, (.tombstoned : RowChange F))) (vector : e.vectorId F = none)
    (pair : e.mergePair = some (source, target)) {w₁ : World F}
    (gone : runSink (ReplaySink.tombstone source) w = (.ok (), w₁))
    (recorded : runSink (ReplaySink.recordMerge source target reason «at») w₁ = (.ok (), w')) :
    Replayed e w w' := by
  obtain ⟨-, rfl⟩ := runSink_persist_eq_ok (fun _ _ => rfl) gone
  obtain ⟨-, rfl⟩ := runSink_persist_eq_ok (fun _ _ => rfl) recorded
  refine ⟨rfl, fun id => ?_, ⟨_, rfl, by simp [pair, MergeLogEntry.pair]⟩, by rw [vector]; rfl⟩
  rw [changeAt_eq known]
  exact getMemory_tombstone w.db source id

theorem Replayed.ofCommit {decoded : MemoryItem F × Option (List F)} {vecId : Nat} {vec : List F}
    (known : e.change = some (decoded.1.id, .ofItem decoded.1))
    (vector : e.vectorId F = some vecId) (pair : e.mergePair = none) {w₁ w₂ : World F}
    (alike : w₁.Alike w)
    (inserted : runSink (ReplaySink.insertVector vecId vec) w₁ = (.ok (), w₂))
    (written : runSink (ReplaySink.putItem decoded.1) w₂ = (.ok (), w')) : Replayed e w w' := by
  obtain ⟨dim, rfl⟩ := runSink_insertVector_eq_ok inserted
  obtain ⟨-, rfl⟩ := runSink_persist_eq_ok (fun _ _ => rfl) written
  refine ⟨alike.env.symm, fun id => ?_, ⟨[], ?_, by simp [pair]⟩, ?_⟩
  · rw [changeAt_eq known, alike.db]
    exact getMemory_put w₁.db decoded.1 id
  · rw [List.append_nil, alike.db]
    rfl
  · rw [vector, alike.store]
    exact ⟨vec, dim, rfl⟩

omit [JsonText F] in
theorem commitVector_alike {content : String} {given : Option (List F)} {vec : List F}
    (h : runSink (commitVector content given) w = (.ok vec, w')) : w'.Alike w := by
  cases given with
  | some v => cases h; exact .refl w
  | none =>
      obtain ⟨reply, w₁, asked, answered⟩ := runSink_bind_eq_ok h
      cases asked
      cases embedded : w.env.embed w.tick content with
      | ok v =>
          change runSink (Program.ofExcept ((w.env.embed w.tick content).mapError _)) w.next = _
            at answered
          rw [embedded] at answered
          cases answered
          exact ⟨rfl, rfl, rfl⟩
      | error e =>
          change runSink (Program.ofExcept ((w.env.embed w.tick content).mapError _)) w.next = _
            at answered
          rw [embedded] at answered
          cases answered

omit [FloatArith F] [JsonText F] in
theorem parseU64_of_vectorRefId {item : MemoryItem F} {vecId : Nat}
    (parsed : vectorRefId item = .ok vecId) : parseU64 item.vectorRef = some vecId := by
  unfold vectorRefId at parsed
  split at parsed
  · rename_i number
    rw [number, Except.ok.inj parsed]
  · cases parsed

/-- What a replay of one entry does when it succeeds, applied or skipped. -/
theorem replayOne_eq_ok {applied : Bool} (h : runSink (replayOne e) w = (.ok applied, w')) :
    Replayed e w w' := by
  unfold replayOne at h
  split at h
  · rename_i op
    obtain ⟨decoded, payload, known⟩ := runSink_ofExcept_bind_eq_ok h
    obtain ⟨vecId, parsed, later⟩ := runSink_ofExcept_bind_eq_ok known
    obtain ⟨vec, w₁, embedded, stores⟩ := runSink_bind_eq_ok later
    obtain ⟨_, w₂, inserted, writes⟩ := runSink_bind_eq_ok stores
    obtain ⟨_, w₃, written, done⟩ := runSink_bind_eq_ok writes
    cases done
    refine .ofCommit ?_ ?_ ?_ (commitVector_alike embedded) inserted written
    · simp [WopEntry.change, op, payload, Except.toOption]
    · simp [WopEntry.vectorId, op, payload, Except.toOption, parseU64_of_vectorRefId parsed]
    · simp [WopEntry.mergePair, op]
  · rename_i op
    obtain ⟨_, w₁, gone, done⟩ := runSink_bind_eq_ok h
    cases done
    refine .ofTombstone ?_ ?_ ?_ gone <;>
      simp [WopEntry.change, WopEntry.vectorId, WopEntry.mergePair, op]
  · rename_i op
    obtain ⟨_, w₁, gone, done⟩ := runSink_bind_eq_ok h
    cases done
    refine .ofTombstone ?_ ?_ ?_ gone <;>
      simp [WopEntry.change, WopEntry.vectorId, WopEntry.mergePair, op]
  · rename_i op
    split at h
    · rename_i id name parts
      obtain ⟨_, w₁, raised, done⟩ := runSink_bind_eq_ok h
      cases done
      cases named : MemoryTier.ofName name with
      | none =>
          unfold ReplaySink.promoteTier at raised
          rw [named] at raised
          cases raised
      | some tier =>
          refine .ofPromote ?_ ?_ ?_ named raised <;>
            simp [WopEntry.change, WopEntry.vectorId, WopEntry.mergePair, op, parts, named]
    · rename_i malformed
      cases h
      refine .skipped ?_ ?_ ?_
      · simp only [WopEntry.change, op]
      · simp [WopEntry.vectorId, op]
      · simp [WopEntry.mergePair, op]
  · rename_i op
    split at h
    · rename_i source target reason atText parts
      obtain ⟨_, w₁, gone, recorded⟩ := runSink_bind_eq_ok h
      obtain ⟨_, w₂, recorded, done⟩ := runSink_bind_eq_ok recorded
      cases done
      refine .ofMerge ?_ ?_ ?_ gone recorded <;>
        simp [WopEntry.change, WopEntry.vectorId, WopEntry.mergePair, op, parts]
    · rename_i malformed
      cases h
      refine .skipped ?_ ?_ ?_
      · simp only [WopEntry.change, op]
      · simp [WopEntry.vectorId, op]
      · simp only [WopEntry.mergePair, op, if_true]
  · rename_i op
    obtain ⟨item, payload, later⟩ := runSink_ofExcept_bind_eq_ok h
    obtain ⟨_, w₁, written, done⟩ := runSink_bind_eq_ok later
    cases done
    refine .ofPut ?_ ?_ ?_ written <;>
      simp [WopEntry.change, WopEntry.vectorId, WopEntry.mergePair, op, payload, Except.toOption]
  · rename_i notCommit notDelete notRecycle notPromote notMerge notReextract
    cases h
    refine .skipped ?_ ?_ ?_
    · unfold WopEntry.change
      split <;> first | contradiction | rfl
    · exact if_neg notCommit
    · exact if_neg notMerge

/-! ### Whole batches -/

/-- The entries were replayed one after the other, each with success. -/
inductive Applied : List WopEntry → World F → World F → Prop where
  | nil (w : World F) : Applied [] w w
  | cons {e : WopEntry} {rest : List WopEntry} {applied : Bool} {w w₁ w' : World F}
      (first : runSink (replayOne e) w = (.ok applied, w₁)) (later : Applied rest w₁ w') :
      Applied (e :: rest) w w'

/-- The outcome after one more entry. -/
def ReplayOutcome.add (outcome : ReplayOutcome) (e : WopEntry) (applied : Bool) : ReplayOutcome :=
  { outcome with
    applied := if applied then outcome.applied + 1 else outcome.applied
    skipped := if applied then outcome.skipped else outcome.skipped + 1
    lastAppliedSeq := max outcome.lastAppliedSeq e.seq }

theorem runSink_replayFrom_cons (e : WopEntry) (rest : List WopEntry) (outcome : ReplayOutcome)
    (w : World F) :
    runSink (replayFrom (fun entry => (replayOne entry).attempt) (e :: rest) outcome) w =
      match runSink (replayOne e) w with
      | (.ok applied, w₁) => runSink (replayFrom (fun entry => (replayOne entry).attempt) rest
          (outcome.add e applied)) w₁
      | (.error err, w₁) =>
          (.ok { outcome with failed := true, permanent := err.isPermanent }, w₁) := by
  dsimp only [runSink]
  rw [replayFrom, Program.run_bind_ok (machine F) (Program.run_attempt (machine F) _ w)]
  cases ran : Program.run (machine F) (replayOne e) w with
  | mk result w₁ =>
      cases result with
      | error err => rfl
      | ok applied => cases applied <;> rfl

theorem replayFrom_succeeds_iff {entries : List WopEntry} {outcome : ReplayOutcome}
    (fine : outcome.failed = false) :
    (∃ result, runSink (replayFrom (fun entry => (replayOne entry).attempt) entries outcome) w =
        (.ok result, w') ∧ result.failed = false) ↔ Applied entries w w' := by
  induction entries generalizing outcome w with
  | nil =>
      constructor
      · rintro ⟨result, ran, -⟩
        cases ran
        exact .nil _
      · intro applied
        cases applied
        exact ⟨outcome, rfl, fine⟩
  | cons e rest ih =>
      rw [runSink_replayFrom_cons]
      cases ran : runSink (replayOne e) w with
      | mk result w₁ =>
          cases result with
          | ok applied =>
              have fine' : (outcome.add e applied).failed = false := fine
              refine (ih (w := w₁) fine').trans ⟨fun later => .cons ran later, fun all => ?_⟩
              cases all with
              | cons first later =>
                  rw [ran] at first
                  cases first
                  exact later
          | error err =>
              constructor
              · rintro ⟨result, same, wrong⟩
                cases same
                cases wrong
              · intro all
                cases all with
                | cons first later =>
                    rw [ran] at first
                    cases first

/-- A batch that does not fail is a batch all of whose entries were replayed. -/
theorem replayBatch_succeeds_iff {entries : List WopEntry} :
    (∃ outcome, runSink (replayBatch entries) w = (.ok outcome, w') ∧ outcome.failed = false) ↔
      Applied entries w w' := replayFrom_succeeds_iff rfl

/-- What a batch does to the row of an id. -/
def changesAt (entries : List WopEntry) (id : String) : RowChange F :=
  entries.foldl (fun c e => c.comp (e.changeAt id)) .none

theorem apply_changes (entries : List WopEntry) (id : String) (row : Option (MemoryItem F)) :
    ∀ c : RowChange F, (entries.foldl (fun c e => c.comp (e.changeAt id)) c).apply row =
      entries.foldl (fun row e => (e.changeAt id).apply row) (c.apply row) := by
  induction entries with
  | nil => exact fun c => rfl
  | cons e rest ih =>
      intro c
      rw [List.foldl_cons, List.foldl_cons, ih, RowChange.apply_comp]

theorem Applied.getMemory {entries : List WopEntry} (applied : Applied entries w w')
    (id : String) : w'.db.getMemory id = (changesAt entries id).apply (w.db.getMemory id) := by
  rw [changesAt, apply_changes, RowChange.apply_none]
  induction applied with
  | nil w => rfl
  | cons first _ ih => rw [List.foldl_cons, ← (replayOne_eq_ok first).row, ih]

theorem Applied.mergeLog {entries : List WopEntry} (applied : Applied entries w w') :
    ∃ added, w'.db.mergeLog = w.db.mergeLog ++ added ∧
      added.map (·.pair) = entries.filterMap WopEntry.mergePair := by
  induction applied with
  | nil w => exact ⟨[], by simp, rfl⟩
  | cons first _ ih =>
      obtain ⟨added, log, pairs⟩ := (replayOne_eq_ok first).merges
      obtain ⟨added', log', pairs'⟩ := ih
      refine ⟨added ++ added', by rw [log', log, List.append_assoc], ?_⟩
      rw [List.map_append, pairs, pairs', List.filterMap_cons]
      cases WopEntry.mergePair _ <;> rfl

end Steps

end FusionMemory
