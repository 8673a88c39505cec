import FusionMemory.Cluster.Replay
import FusionMemory.Engine.Consolidate

/-!
What a leader logs, and what it means to a follower.

`Logged` lists the entries that commits, deletions and consolidation runs append, with
their payloads. For each of them the change of a follower's row is computed here, and
`replayOne_logged` says that a follower whose storage works can replay it.
-/

namespace FusionMemory

open Lib

variable {F : Type} [FloatArith F] [JsonText F]

/-! ### Payloads -/

/-- A row that comes through the log as it is. -/
structure MemoryItem.Portable (m : MemoryItem F) : Prop where
  sized : m.Sized
  weight : Survives m.weight
  noTab : '\t' ∉ m.id.toList

namespace MemoryItem.Portable

variable {m : MemoryItem F} (portable : m.Portable)
include portable

theorem tombstoned : ({ m with tombstone := true } : MemoryItem F).Portable :=
  ⟨⟨portable.sized.turnIdx, portable.sized.accessCount, portable.sized.lastAccessedTimestamp,
    portable.sized.createdTimestamp⟩, portable.weight, portable.noTab⟩

theorem promoted : (promoted m).Portable :=
  ⟨⟨portable.sized.turnIdx, portable.sized.accessCount, portable.sized.lastAccessedTimestamp,
    portable.sized.createdTimestamp⟩, portable.weight, portable.noTab⟩

theorem entities (entities : List EntityNode) (pending : Bool) :
    ({ m with entities := entities, entitiesPending := pending } : MemoryItem F).Portable :=
  ⟨⟨portable.sized.turnIdx, portable.sized.accessCount, portable.sized.lastAccessedTimestamp,
    portable.sized.createdTimestamp⟩, portable.weight, portable.noTab⟩

end MemoryItem.Portable

omit [FloatArith F] [JsonText F] in
theorem splitTabs_cons {field : String} (noTab : '\t' ∉ field.toList) (rest : String) :
    splitTabs (field ++ "\t" ++ rest) = field :: splitTabs rest := by
  have text : (field ++ "\t" ++ rest).toList = field.toList ++ '\t' :: rest.toList := by
    simp [String.toList_append]
  unfold splitTabs
  rw [text, List.splitOn_append_cons_self_of_not_mem noTab]
  simp

omit [FloatArith F] [JsonText F] in
theorem splitTabs_last {field : String} (noTab : '\t' ∉ field.toList) :
    splitTabs field = [field] := by
  unfold splitTabs
  rw [List.splitOn_eq_singleton noTab]
  simp

omit [FloatArith F] [JsonText F] in
theorem noTab_toString (n : Nat) : '\t' ∉ (toString n).toList := by
  intro mem
  rw [Nat.toString_eq_repr, Nat.toList_repr] at mem
  have digit := Nat.isDigit_of_mem_toDigits (by decide) (by decide) mem
  cases digit

theorem commitPayload_print {item : MemoryItem F} (portable : item.Portable) {vec : List F}
    (floats : ∀ x ∈ vec, Survives x) :
    commitPayload (JsonText.print (CommitEnvelope.mk item (some vec)).toJson) =
      .ok (item, some vec) := by
  have decoded : (encodeCommitPayload item (some vec)).bind decodeCommitPayload =
      .ok (item, some vec) := (decode_encode portable.sized).mpr
    ⟨portable.weight, fun v mem => by rwa [← Option.mem_some_iff.mp mem]⟩
  unfold commitPayload
  rw [show decodeCommitPayload (JsonText.print (CommitEnvelope.mk item (some vec)).toJson) =
    .ok (item, some vec) from decoded]
  rfl

theorem reextractPayload_print {item : MemoryItem F} (portable : item.Portable) :
    reextractPayload (JsonText.print item.toJson) = .ok item := by
  have read : ((Json.ofFloat item.weight).mapFloat JsonText.reread).asFloat = some item.weight := by
    rw [asFloat_ofFloat]
    exact reread_eq_some_iff.mpr portable.weight
  unfold reextractPayload
  rw [JsonText.parse_print, Option.bind_some, MemoryItem.fromJson_toJson portable.sized, read]
  rfl

/-! ### Entries -/

/-- A turn as it is committed, before its entities are known. -/
structure MemoryItem.IsTurn (m : MemoryItem F) : Prop where
  episodic : m.memoryType = .episodic
  entities : m.entities = []

/-- An entry of a leader whose vectors have dimension `dim`. -/
inductive Logged (F : Type) [FloatArith F] [JsonText F] (dim : Nat) : WopEntry → Prop where
  | commit (seq «at» : Nat) {item : MemoryItem F} {vec : List F} (portable : item.Portable)
      (turn : item.IsTurn) (floats : ∀ x ∈ vec, Survives x) (fits : vec.length = dim) {vecId : Nat}
      (parsed : parseU64 item.vectorRef = some vecId) :
      Logged F dim ⟨seq, "commit", JsonText.print (CommitEnvelope.mk item (some vec)).toJson, «at»⟩
  | delete (seq : Nat) (id : String) («at» : Nat) : Logged F dim ⟨seq, "delete", id, «at»⟩
  | recycle (seq : Nat) (id : String) («at» : Nat) : Logged F dim ⟨seq, "recycle", id, «at»⟩
  | promote (seq : Nat) {id : String} (noTab : '\t' ∉ id.toList) («at» : Nat) :
      Logged F dim ⟨seq, "promote", id ++ "\tLong", «at»⟩
  | merge (seq : Nat) {source target : String} (noTab : '\t' ∉ source.toList)
      (noTab' : '\t' ∉ target.toList) («at» : Nat) :
      Logged F dim ⟨seq, "merge",
        source ++ "\t" ++ target ++ "\t" ++ MERGE_REASON ++ "\t" ++ toString «at», «at»⟩
  | summarize (seq : Nat) (payload : String) («at» : Nat) :
      Logged F dim ⟨seq, "summarize", payload, «at»⟩
  | reextract (seq : Nat) {item : MemoryItem F} (portable : item.Portable) («at» : Nat) :
      Logged F dim ⟨seq, "reextract", JsonText.print item.toJson, «at»⟩

section Meaning

variable {seq «at» : Nat} {id : String}

omit [FloatArith F] [JsonText F] in
theorem splitTabs_promote (noTab : '\t' ∉ id.toList) : splitTabs (id ++ "\tLong") = [id, "Long"] := by
  have text : id ++ "\tLong" = id ++ "\t" ++ "Long" := by
    rw [String.append_assoc]
    rfl
  rw [text, splitTabs_cons noTab, splitTabs_last (by decide)]

omit [FloatArith F] [JsonText F] in
theorem splitTabs_merge {source target : String} (noTab : '\t' ∉ source.toList)
    (noTab' : '\t' ∉ target.toList) («at» : Nat) :
    splitTabs (source ++ "\t" ++ target ++ "\t" ++ MERGE_REASON ++ "\t" ++ toString «at») =
      [source, target, MERGE_REASON, toString «at»] := by
  have text : source ++ "\t" ++ target ++ "\t" ++ MERGE_REASON ++ "\t" ++ toString «at» =
      source ++ "\t" ++ (target ++ "\t" ++ (MERGE_REASON ++ "\t" ++ toString «at»)) := by
    simp only [String.append_assoc]
  rw [text, splitTabs_cons noTab, splitTabs_cons noTab', splitTabs_cons (by decide),
    splitTabs_last (noTab_toString «at»)]

theorem change_commit {item : MemoryItem F} (portable : item.Portable) {vec : List F}
    (floats : ∀ x ∈ vec, Survives x) :
    (WopEntry.mk seq "commit" (JsonText.print (CommitEnvelope.mk item (some vec)).toJson)
      «at»).change = some (item.id, .ofItem item) := by
  simp only [WopEntry.change, commitPayload_print portable floats]
  rfl

theorem change_delete : (WopEntry.mk seq "delete" id «at»).change =
    some (id, (.tombstoned : RowChange F)) := rfl

theorem change_recycle : (WopEntry.mk seq "recycle" id «at»).change =
    some (id, (.tombstoned : RowChange F)) := rfl

theorem change_promote (noTab : '\t' ∉ id.toList) :
    (WopEntry.mk seq "promote" (id ++ "\tLong") «at»).change =
      some (id, (.ofTier .long : RowChange F)) := by
  simp only [WopEntry.change, splitTabs_promote noTab]
  rfl

theorem change_merge {source target : String} (noTab : '\t' ∉ source.toList)
    (noTab' : '\t' ∉ target.toList) :
    (WopEntry.mk seq "merge" (source ++ "\t" ++ target ++ "\t" ++ MERGE_REASON ++ "\t" ++
      toString «at») «at»).change = some (source, (.tombstoned : RowChange F)) := by
  simp only [WopEntry.change, splitTabs_merge noTab noTab']

theorem change_summarize {payload : String} :
    (WopEntry.mk seq "summarize" payload «at»).change = (none : Option (String × RowChange F)) := rfl

theorem change_reextract {item : MemoryItem F} (portable : item.Portable) :
    (WopEntry.mk seq "reextract" (JsonText.print item.toJson) «at»).change =
      some (item.id, .ofItem item) := by
  simp only [WopEntry.change, reextractPayload_print portable]
  rfl

omit [FloatArith F] [JsonText F] in
theorem mergePair_merge {source target : String} (noTab : '\t' ∉ source.toList)
    (noTab' : '\t' ∉ target.toList) :
    (WopEntry.mk seq "merge" (source ++ "\t" ++ target ++ "\t" ++ MERGE_REASON ++ "\t" ++
      toString «at») «at»).mergePair = some (source, target) := by
  simp only [WopEntry.mergePair, splitTabs_merge noTab noTab', if_true]

end Meaning

/-! ### Followers that work -/

section Follower

variable {w : World F} {dim : Nat} {α β : Type}

omit [JsonText F] in
theorem runSink_persist_works (works : w.env.NoFaults) (op : PersistOp F) {a : op.Value}
    (result : (op.exec w.db).1 = .ok a) :
    runSink (ReplaySink.persist op) w = (.ok a, w.withDb (op.exec w.db).2) := by
  rw [runSink_persist, World.execPersist_eq works, result]
  rfl

omit [FloatArith F] [JsonText F] in
theorem insertVector_dim (s : LocalStore F) (vecId : Nat) (vec : List F) :
    (s.insertVector vecId vec).2.dim = s.dim := by
  unfold LocalStore.insertVector
  split_ifs
  · rfl
  · rfl
  · rfl

omit [JsonText F] in
theorem runSink_insertVector_works (works : w.env.NoFaults) (vecId : Nat) {vec : List F}
    (fits : vec.length = w.store.dim) :
    runSink (ReplaySink.insertVector vecId vec) w =
      (.ok (), w.withStore (w.store.insertVector vecId vec).2) := by
  have reply := LocalStore.insertVector_fst fits vecId
  unfold ReplaySink.insertVector
  rw [runSink, Program.run_bind_ok (machine F) (Program.run_perform (machine F) _ w)]
  change Program.run (machine F) (Program.ofExcept ((w.execStore (.insertVector vecId vec)).1.mapError
    fun e => ClusterError.memory e.toMemory)) (w.withStore (w.execStore (.insertVector vecId vec)).2) = _
  rw [World.execStore_eq works]
  change Program.run (machine F) (Program.ofExcept ((w.store.insertVector vecId vec).1.mapError
    fun e => ClusterError.memory e.toMemory)) (w.withStore (w.store.insertVector vecId vec).2) = _
  rw [reply]
  rfl

omit [JsonText F] in
/-- Tombstoning, whether there is a row or not. -/
theorem runSink_tombstone_works (works : w.env.NoFaults) (id : String) :
    runSink (ReplaySink.tombstone id) w = (.ok (), w.withDb (w.db.tombstoneMemory id)) :=
  runSink_persist_works works (.tombstoneMemory id) rfl

omit [JsonText F] in
theorem runSink_promoteTier_works (works : w.env.NoFaults) (id : String) {name : String}
    {tier : MemoryTier} (named : MemoryTier.ofName name = some tier) :
    ∃ w', runSink (ReplaySink.promoteTier id name) w = (.ok (), w') ∧ w'.store = w.store := by
  have read := runSink_persist_works works (.getMemory id) (a := w.db.getMemory id) rfl
  unfold ReplaySink.promoteTier
  rw [named]
  dsimp only
  rw [runSink, Program.run_bind_ok (machine F) read]
  cases w.db.getMemory id with
  | none => exact ⟨_, rfl, rfl⟩
  | some item =>
      have works' : (w.withDb w.db).env.NoFaults := works
      exact ⟨_, runSink_persist_works works' (.putMemory { item with tier }) rfl, rfl⟩

/-- A follower whose storage works replays what a leader with vectors of its dimension
logs. -/
theorem replayOne_logged {e : WopEntry} (logged : Logged F dim e) (works : w.env.NoFaults)
    (fits : w.store.dim = dim) :
    ∃ applied w', runSink (replayOne e) w = (.ok applied, w') ∧ w'.store.dim = dim := by
  cases logged with
  | @commit seq «at» item vec portable turn floats length vecId parsed =>
      have inserted := runSink_insertVector_works works vecId (length.trans fits.symm)
      have works' : (w.withStore (w.store.insertVector vecId vec).2).env.NoFaults := works
      have written := runSink_persist_works works' (.putMemory item) (a := ()) rfl
      refine ⟨true, (w.withStore (w.store.insertVector vecId vec).2).withDb (w.db.putMemory item),
        ?_, (insertVector_dim w.store vecId vec).trans fits⟩
      simp only [replayOne, commitPayload_print portable floats, Program.ofExcept_ok,
        Program.done_bind, vectorRefId, parsed, commitVector, Program.pure_def]
      rw [runSink, Program.run_bind_ok (machine F) inserted]
      exact Program.run_bind_ok (machine F) written
  | delete seq id «at» =>
      exact ⟨true, _, Program.run_bind_ok (machine F) (runSink_tombstone_works works id), fits⟩
  | recycle seq id «at» =>
      exact ⟨true, _, Program.run_bind_ok (machine F) (runSink_tombstone_works works id), fits⟩
  | @promote seq id noTab «at» =>
      obtain ⟨w', raised, store⟩ := runSink_promoteTier_works works id
        (show MemoryTier.ofName "Long" = some .long from rfl)
      refine ⟨true, w', ?_, by rw [store]; exact fits⟩
      simp only [replayOne, splitTabs_promote noTab]
      exact Program.run_bind_ok (machine F) raised
  | @merge seq source target noTab noTab' «at» =>
      have works' : (w.withDb (w.db.tombstoneMemory source)).env.NoFaults := works
      have recorded := runSink_persist_works works' (.recordMerge source target MERGE_REASON
        ((parseU64 (toString «at»)).getD 0)) (a := ()) rfl
      refine ⟨true, (w.withDb (w.db.tombstoneMemory source)).withDb
        ((w.db.tombstoneMemory source).recordMerge source target MERGE_REASON
          ((parseU64 (toString «at»)).getD 0)), ?_, fits⟩
      simp only [replayOne, splitTabs_merge noTab noTab']
      rw [runSink, Program.run_bind_ok (machine F) (runSink_tombstone_works works source)]
      exact Program.run_bind_ok (machine F) recorded
  | summarize seq payload «at» => exact ⟨false, w, rfl, fits⟩
  | @reextract seq item portable «at» =>
      have written := runSink_persist_works works (.putMemory item) (a := ()) rfl
      refine ⟨true, w.withDb (w.db.putMemory item), ?_, fits⟩
      simp only [replayOne, reextractPayload_print portable, Program.ofExcept_ok, Program.done_bind]
      exact Program.run_bind_ok (machine F) written

/-- A follower whose storage works replays the whole log of such a leader. -/
theorem applied_of_logged {entries : List WopEntry} (logged : ∀ e ∈ entries, Logged F dim e)
    (works : w.env.NoFaults) (fits : w.store.dim = dim) :
    ∃ w', Applied entries w w' ∧ w'.env.NoFaults ∧ w'.store.dim = dim := by
  induction entries generalizing w with
  | nil => exact ⟨w, .nil w, works, fits⟩
  | cons e rest ih =>
      obtain ⟨applied, w₁, first, fits₁⟩ := replayOne_logged (logged e List.mem_cons_self) works fits
      have works₁ : w₁.env.NoFaults := (replayOne_eq_ok first).env ▸ works
      obtain ⟨w', later, works', fits'⟩ :=
        ih (fun e' mem => logged e' (List.mem_cons_of_mem _ mem)) works₁ fits₁
      exact ⟨w', .cons first later, works', fits'⟩

end Follower

end FusionMemory
