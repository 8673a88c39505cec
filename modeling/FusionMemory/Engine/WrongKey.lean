import FusionMemory.Cluster.Replay
import FusionMemory.Engine.ConsolidatePhases
import FusionMemory.Engine.Manage
import FusionMemory.Engine.SealedEngine
import FusionMemory.Lib.DecimalJson

/-!
Opening a database file with the wrong key, or with none.

Such a process sees ciphertext for the content of a row and no entities. Each operation
that reads rows and writes them back (the promotion and the re-extraction of a
consolidation, `unmerge`, `promote_tier`) then stores what was seen. `text_survives` says
of every sequence of such operations that the key still gives the text of an item, where
no step writes its row back, or the steps that do are done without a key and with the
item's entities.
-/

namespace FusionMemory

open Lib

variable {F : Type} [FloatArith F] [JsonText F]

/-! ### The operations -/

/-- What a consolidation does first: the time, and the rows changed since the last one. -/
def overChanged {α : Type} (ns : NamespaceFilter) (k : Nat → List (MemoryItem F) → EngineM F α) :
    EngineM F α := do
  let start ← nowMs
  let since : Nat ← persistOrFail .lastConsolidateAt
  let changed : List (MemoryItem F) ← persistOrFail (.listChangedSinceScoped since ns)
  k start changed

theorem consolidateImpl_overChanged (eng : MemoryEngine) (ns : NamespaceFilter) :
    consolidateImpl (F := F) eng ns = withLock .consolidate (overChanged ns fun start changed => do
      let report ← consolidatePhases eng ns start changed
      recordRun ns report start
      let _ ← persist (.appendAudit start "system" "consolidate" "saga" (consolidationDetail report))
      return report) := rfl

/-- The operations that read rows and write them back. -/
inductive RmwOp where
  /-- Phase 1 of a consolidation. -/
  | promote (ns : NamespaceFilter)
  /-- Phase 4 of a consolidation. -/
  | reextract (ns : NamespaceFilter)
  | unmerge (mergeId : Nat)
  | promoteTier (id tier : String)

namespace RmwOp

def program (eng : MemoryEngine) : RmwOp → EngineM F Unit
  | .promote ns => overChanged ns fun start changed => do
      let _ ← changed.foldlM (recycleOrPromote start) ⟨0, 0, []⟩
      return ()
  | .reextract ns => overChanged ns fun start changed => do
      let _ ← changed.foldlM (FusionMemory.reextract eng start) ⟨0, []⟩
      return ()
  | .unmerge mergeId => do
      let _ ← FusionMemory.unmerge mergeId
      return ()
  | .promoteTier id tier => do
      let _ ← (ReplaySink.promoteTier id tier).attempt
      return ()

/-- The rows that an incremental run works on, as the process sees them. -/
def changed (w : World F) (ns : NamespaceFilter) : List (MemoryItem F) :=
  (w.db.listChangedSinceScoped w.db.lastConsolidateAt ns).toOption.getD []

/-- The operation writes back the row of id `i`. -/
def Writes (eng : MemoryEngine) (w : World F) (i : String) : RmwOp → Prop
  | .promote ns => ∃ m ∈ changed w ns, m.id = i ∧
      shouldRecycle m (w.env.clock w.tick) = false ∧ mayPromote m (w.env.clock w.tick) = true
  | .reextract ns => eng.hasExtractor = true ∧ ∃ m ∈ changed w ns, m.id = i ∧
      m.entitiesPending = true ∧ ∃ t, (w.env.extract t m.content).success = true
  | .unmerge mergeId => ∃ e ∈ w.db.mergeLog, asI64 e.id = asI64 mergeId ∧ e.sourceId = i
  | .promoteTier id tier => id = i ∧ (MemoryTier.ofName tier).isSome = true

/-- The entities that the operation has for the row are those of the item: the extractor's
if it asks for them, and otherwise those that the process sees. -/
def KnowsEntities (w : World F) (item : MemoryItem F) : RmwOp → Prop
  | .reextract _ => ∀ m ∈ w.db.memoryItem.rows, m.id = item.id → ∀ t,
      (w.env.extract t m.content).success = true →
        (w.env.extract t m.content).entities = item.entities
  | _ => ∀ m ∈ w.db.memoryItem.rows, m.id = item.id → m.entities = item.entities

/-- The operation spares the text of the item. -/
def Spares (eng : MemoryEngine) (cipher : Option Cipher) (w : World F) (item : MemoryItem F)
    (op : RmwOp) : Prop :=
  ¬ op.Writes eng w item.id ∨ cipher = none ∧ op.KnowsEntities w item

end RmwOp

/-! ### The stored text -/

namespace SealedDb

section Rows

omit [FloatArith F] [JsonText F]

/-- The encrypted columns of a row, as they are stored. -/
def texts (s : SealedDb F) (i : String) : Option (String × String) :=
  (s.memoryItem.find? i).map fun row => (row.content, row.entitiesJson)

theorem texts_putRow (s : SealedDb F) (row : MemoryRow F) (entities : List EntityNode) (i : String) :
    (s.putRow row entities).texts i =
      if row.id = i then some (row.content, row.entitiesJson) else s.texts i := by
  unfold texts putRow
  dsimp only
  rw [Table.find?_upsert]
  split_ifs <;> rfl

theorem texts_setTombstone (s : SealedDb F) (id : String) (b : Bool) (i : String) :
    (s.setTombstone id b).texts i = s.texts i := by
  unfold texts setTombstone
  dsimp only
  rw [Table.find?_update, Option.map_map]
  refine congrArg (Option.map · _) (funext fun row => ?_)
  rw [Function.comp_apply]
  split_ifs <;> rfl

theorem texts_touchAccessBatch (s : SealedDb F) (ids : List String) (now : Nat) (i : String) :
    (s.touchAccessBatch ids now).texts i = s.texts i := by
  unfold texts touchAccessBatch
  dsimp only
  rw [Table.find?_update, Option.map_map]
  refine congrArg (Option.map · _) (funext fun row => ?_)
  rw [Function.comp_apply]
  split_ifs <;> rfl

theorem texts_physicalDelete (s : SealedDb F) {id i : String} (other : id ≠ i) :
    (s.physicalDelete id).texts i = s.texts i := by
  unfold texts physicalDelete
  dsimp only
  rw [Table.find?_delete]
  cases found : s.memoryItem.find? i with
  | none => rfl
  | some row =>
      have key : row.id = i := Table.find?_key found
      simp [key, Ne.symm other]

end Rows

/-- The text of the item is stored as `row` has it, but that its entities may be stored in
the clear. -/
def Intact (item : MemoryItem F) (row : MemoryRow F) (s : SealedDb F) : Prop :=
  s.texts item.id = some (row.content, row.entitiesJson) ∨
    s.texts item.id = some (row.content, entitiesText F item.entities)

variable {aead : Aead} {cipher : Option Cipher} {item : MemoryItem F} {row : MemoryRow F}

theorem Intact.of_texts {s s' : SealedDb F} (same : s'.texts item.id = s.texts item.id)
    (intact : s.Intact item row) : s'.Intact item row := by
  unfold Intact
  rw [same]
  exact intact

/-- A row that is put with no key and with the item's entities. -/
theorem intact_putRow {s : SealedDb F} (intact : s.Intact item row) {nonces : Nonce × Nonce}
    {m : MemoryItem F} {written : MemoryRow F} (ran : itemRow aead cipher nonces m = .ok written)
    (spares : m.id = item.id →
      cipher = none ∧ m.content = row.content ∧ m.entities = item.entities) :
    (s.putRow written m.entities).Intact item row := by
  unfold Intact
  rw [texts_putRow, itemRow_id ran]
  split_ifs with own
  · obtain ⟨rfl, content, entities⟩ := spares own
    obtain ⟨_, _, ⟨⟩, ⟨⟩, rfl⟩ := itemRow_eq_ok_iff.mp ran
    right
    unfold MemoryItem.columns
    dsimp only
    rw [content, entities]
  · exact intact

end SealedDb

/-- The request spares the text of the item: it stores nothing else under its id. -/
def Request.SparesText (item : MemoryItem F) (row : MemoryRow F) (cipher : Option Cipher) :
    Request F → Prop
  | .persist (.putMemory m) | .persist (.putMemoryWithWop m _ _ _) => m.id = item.id →
      cipher = none ∧ m.content = row.content ∧ m.entities = item.entities
  | .persist (.physicalDelete id) => id ≠ item.id
  | _ => True

namespace SealedWorld

variable {aead : Aead} {item : MemoryItem F} {row : MemoryRow F}

theorem intact_execPersist {w : SealedWorld aead F} (intact : w.file.Intact item row)
    {op : PersistOp F} (spares : Request.SparesText item row w.cipher (.persist op)) :
    (w.execPersist op).2.Intact item row := by
  unfold execPersist
  cases w.world.env.persistFault w.world.tick op with
  | some fault => exact intact
  | none =>
      dsimp only
      cases op with
      | putMemory m =>
          unfold SealedDb.exec SealedDb.putMemory
          dsimp only
          cases ran : itemRow aead w.cipher (w.nonces w.world.tick) m with
          | error e => exact intact
          | ok written => exact SealedDb.intact_putRow intact ran spares
      | putMemoryWithWop m op payload «at» =>
          unfold SealedDb.exec SealedDb.putMemoryWithWop
          dsimp only
          cases ran : itemRow aead w.cipher (w.nonces w.world.tick) m with
          | error e => exact intact
          | ok written => exact SealedDb.intact_putRow intact ran spares
      | tombstoneMemory id | untombstoneMemory id =>
          exact intact.of_texts (SealedDb.texts_setTombstone w.file id _ item.id)
      | touchAccessBatch ids now =>
          exact intact.of_texts (SealedDb.texts_touchAccessBatch w.file ids now item.id)
      | physicalDelete id => exact intact.of_texts (SealedDb.texts_physicalDelete w.file spares)
      | _ => exact intact

/-- A process with the given environment and key, and the item's text as it was. -/
structure Holds (item : MemoryItem F) (row : MemoryRow F) (env : Env F) (cipher : Option Cipher)
    (w : SealedWorld aead F) : Prop where
  env : w.world.env = env
  cipher : w.cipher = cipher
  intact : w.file.Intact item row

variable {env : Env F} {cipher : Option Cipher} {w : SealedWorld aead F}

theorem Holds.next (holds : w.Holds item row env cipher) : w.next.Holds item row env cipher :=
  ⟨holds.env, holds.cipher, holds.intact⟩

theorem Holds.exec (holds : w.Holds item row env cipher) {r : Request F}
    (spares : r.SparesText item row cipher) : (w.exec r).2.Holds item row env cipher := by
  obtain ⟨rfl, rfl, intact⟩ := holds
  have env := w.world.exec_env r
  cases r with
  | persist op => exact ⟨rfl, rfl, intact_execPersist intact spares⟩
  | _ => exact ⟨env, rfl, intact⟩

/-- A program whose requests spare the text keeps it. -/
theorem Holds.run {ε α : Type} {p : Program (engineSignature F) ε α}
    (only : Program.Only (Request.SparesText item row cipher) p) (holds : w.Holds item row env cipher) :
    (Program.run (sealedMachine aead F) p w).2.Holds item row env cipher := by
  induction p generalizing w with
  | done a => exact holds
  | fail e => exact holds
  | request r next ih => exact ih _ (only.2 _) (holds.exec only.1)

/-! ### Running the operations -/

/-- A database call whose error ends the program. -/
theorem Holds.checked {ε α : Type} {f : PersistError → ε} {op : PersistOp F}
    {k : op.Value → Program (engineSignature F) ε α} (holds : w.Holds item row env cipher)
    (spares : Request.SparesText item row cipher (.persist op))
    (rest : ∀ a, (w.execPersist op).1 = .ok a →
      (w.withFile (w.execPersist op).2).Holds item row env cipher →
      (Program.run (sealedMachine aead F) (k a) (w.withFile (w.execPersist op).2)).2.Holds item row env
        cipher) :
    (Program.run (sealedMachine aead F) ((Program.perform (S := engineSignature F) (.persist op) >>=
      fun reply => Program.ofExcept (reply.mapError f)) >>= k) w).2.Holds item row env cipher := by
  have after : (w.withFile (w.execPersist op).2).Holds item row env cipher :=
    holds.exec (r := .persist op) spares
  rw [bind_assoc]
  change (Program.run (sealedMachine aead F)
    (Program.ofExcept ((w.execPersist op).1.mapError f) >>= k) (w.withFile (w.execPersist op).2)).2.Holds
      item row env cipher
  cases ran : (w.execPersist op).1 with
  | error e => exact after
  | ok a => exact rest a ran after

/-- A read reports what the process sees, and changes nothing. -/
theorem execPersist_read {op : PersistOp F} (read : op.isRead = true) (w : SealedWorld aead F) :
    (w.execPersist op).2 = w.file ∧
      ∀ a, (w.execPersist op).1 = .ok a → (op.exec w.world.db).1 = .ok a := by
  unfold execPersist
  rw [w.seen]
  cases w.world.env.persistFault w.world.tick op with
  | some fault =>
      refine ⟨?_, fun a ran => PersistOp.fails_isRead_ok read ran⟩
      change w.file.withTables (op.fails (w.file.view aead w.cipher) fault.1 fault.2).2 = w.file
      rw [PersistOp.fails_isRead read]
      rfl
  | none => cases op <;> first | exact ⟨rfl, fun a ran => ran⟩ | cases read

theorem withFile_file (w : SealedWorld aead F) : w.withFile w.file = w.next := by
  unfold withFile next World.withDb
  congr 1
  rw [← w.seen]
  rfl

theorem Holds.read {ε α : Type} {f : PersistError → ε} {op : PersistOp F} (read : op.isRead = true)
    {k : op.Value → Program (engineSignature F) ε α} (holds : w.Holds item row env cipher)
    (rest : ∀ a, (op.exec w.world.db).1 = .ok a →
      (Program.run (sealedMachine aead F) (k a) w.next).2.Holds item row env cipher) :
    (Program.run (sealedMachine aead F) ((Program.perform (S := engineSignature F) (.persist op) >>=
      fun reply => Program.ofExcept (reply.mapError f)) >>= k) w).2.Holds item row env cipher := by
  have spares : Request.SparesText item row cipher (.persist op) := by
    cases op <;> trivial
  refine holds.checked spares fun a ran _ => ?_
  rw [(execPersist_read read w).1, withFile_file]
  exact rest a ((execPersist_read read w).2 a ran)

theorem Holds.overChanged {α : Type} {ns : NamespaceFilter}
    {k : Nat → List (MemoryItem F) → EngineM F α} (holds : w.Holds item row env cipher)
    (rest : ∀ w' : SealedWorld aead F, w'.Holds item row env cipher →
      (Program.run (sealedMachine aead F)
        (k (w.world.env.clock w.world.tick) (RmwOp.changed w.world ns)) w').2.Holds item row env cipher) :
    (Program.run (sealedMachine aead F) (FusionMemory.overChanged ns k) w).2.Holds item row env
      cipher := by
  change (Program.run (sealedMachine aead F) (persistOrFail .lastConsolidateAt >>= fun since : Nat =>
    persistOrFail (.listChangedSinceScoped since ns) >>= fun changed : List (MemoryItem F) =>
      k (w.world.env.clock w.world.tick) changed) w.next).2.Holds item row env cipher
  refine holds.next.read rfl fun since asked => ?_
  refine holds.next.next.read rfl fun changed listed => ?_
  have last : w.world.db.lastConsolidateAt = since := Except.ok.inj asked
  have same : RmwOp.changed w.world ns = changed := by
    unfold RmwOp.changed
    rw [last]
    exact congrArg (fun reply => reply.toOption.getD []) listed
  rw [← same]
  exact rest _ holds.next.next.next

/-- What a process without a key sees of the item's row. -/
theorem Holds.seen_content (holds : w.Holds item row env none) {m : MemoryItem F}
    (listed : m ∈ w.world.db.memoryItem.rows) (own : m.id = item.id) : m.content = row.content := by
  have found : w.world.db.getMemory item.id = some m := Table.find?_eq_some_iff.mpr ⟨listed, own⟩
  rw [w.seen, holds.cipher, SealedDb.getMemory_view] at found
  obtain ⟨stored, looked, read⟩ := Option.map_eq_some_iff.mp found
  have content : stored.content = row.content := by
    have intact := holds.intact
    unfold SealedDb.Intact SealedDb.texts at intact
    rw [looked, Option.map_some, Option.some_inj, Option.some_inj] at intact
    rcases intact with same | same
    · exact congrArg Prod.fst same
    · exact congrArg Prod.fst same
  rw [← read, ← content]
  rfl

variable {eng : MemoryEngine}

omit [FloatArith F] [JsonText F] in
theorem changed_mem {w : World F} {ns : NamespaceFilter} {m : MemoryItem F}
    (listed : m ∈ RmwOp.changed w ns) : m ∈ w.db.memoryItem.rows := by
  unfold RmwOp.changed at listed
  cases asked : w.db.listChangedSinceScoped w.db.lastConsolidateAt ns with
  | error e =>
      rw [asked] at listed
      cases listed
  | ok rows =>
      rw [asked] at listed
      exact ((Db.mem_listChangedSinceScoped asked).mp listed).1

theorem Holds.promote {ns : NamespaceFilter} (holds : w.Holds item row env cipher)
    (spares : (RmwOp.promote ns).Spares eng cipher w.world item) :
    (Program.run (sealedMachine aead F) ((RmwOp.promote ns).program eng) w).2.Holds item row env
      cipher := by
  refine holds.overChanged fun w' holds' => holds'.run ?_
  refine Program.Only.bind (Program.Only.foldlM _ (fun m listed acc => ?_) _) fun _ => trivial
  unfold recycleOrPromote
  split_ifs with worthless rising
  · exact only_recycle (fun _ => trivial) trivial (fun _ _ _ => trivial) _ acc
  · refine only_promote ?_ (fun _ _ _ => trivial) _ acc
    intro own
    rcases spares with quiet | ⟨rfl, knows⟩
    · exact absurd ⟨m, listed, own, Bool.eq_false_iff.mpr worthless, rising⟩ quiet
    · have stored : m ∈ w.world.db.memoryItem.rows := changed_mem listed
      have content : m.content = row.content := holds.seen_content stored own
      exact ⟨rfl, content, knows m stored own⟩
  · trivial

theorem run_extract_bind {β : Type} (text : String) (k : ExtractResult → EngineM F β)
    (w : SealedWorld aead F) :
    Program.run (sealedMachine aead F) (extract text >>= k) w =
      Program.run (sealedMachine aead F) (k (w.world.env.extract w.world.tick text))
        (w.exec (.extract text)).2 := rfl

theorem Holds.reextract {ns : NamespaceFilter} (holds : w.Holds item row env cipher)
    (spares : (RmwOp.reextract ns).Spares eng cipher w.world item) :
    (Program.run (sealedMachine aead F) ((RmwOp.reextract ns).program eng) w).2.Holds item row env
      cipher := by
  refine holds.overChanged fun w' holds' => ?_
  -- What is extracted depends on the time, so the loop goes over states, not over programs.
  have step : ∀ m ∈ RmwOp.changed w.world ns, ∀ (acc : Progress) (w₁ : SealedWorld aead F),
      w₁.Holds item row env cipher →
      (Program.run (sealedMachine aead F)
        (FusionMemory.reextract eng (w.world.env.clock w.world.tick) acc m) w₁).2.Holds item row env
          cipher := by
    intro m listed acc w₁ holds₁
    have asked : (w₁.exec (.extract m.content)).2.Holds item row env cipher :=
      holds₁.exec (r := .extract m.content) trivial
    have same : w₁.world.env = w.world.env := holds₁.env.trans holds.env.symm
    unfold FusionMemory.reextract
    split_ifs with wanted
    · rw [run_extract_bind, same]
      split_ifs with success
      · refine asked.run (Program.Only.bind (only_persist ?_) fun reply => ?_)
        · intro own
          rcases spares with quiet | ⟨rfl, knows⟩
          · rw [Bool.and_eq_true] at wanted
            exact absurd ⟨wanted.2, m, listed, own, wanted.1, _, success⟩ quiet
          · have stored : m ∈ w.world.db.memoryItem.rows := changed_mem listed
            have content : m.content = row.content := holds.seen_content stored own
            exact ⟨rfl, content, knows m stored own _ success⟩
        · cases reply with
          | error e => trivial
          | ok _ => exact Program.Only.bind (only_persist trivial) fun _ => trivial
      · exact asked
    · exact holds₁
  change (Program.run (sealedMachine aead F) (_ >>= fun _ => .done ()) w').2.Holds item row env cipher
  rw [Program.run_discard]
  exact Program.run_foldlM_rel (sealedMachine aead F)
    (R := fun w₁ w₂ => w₁.Holds item row env cipher → w₂.Holds item row env cipher)
    (fun _ holds => holds) (fun first last holds => last (first holds)) _ step _ w' holds'

omit [FloatArith F] [JsonText F] in
theorem only_rebuildVector {P : Request F → Prop} (embed : ∀ text, P (.embed text))
    (store : ∀ op, P (.store op)) (m : MemoryItem F) : Program.Only P (rebuildVector m) := by
  unfold rebuildVector
  cases parseU64 m.vectorRef with
  | none => trivial
  | some vr =>
      refine Program.Only.bind (only_storeOrFail (store _)) fun found => ?_
      split_ifs
      · refine Program.Only.bind (Program.Only.bind (Program.Only.perform (embed _)) fun _ => trivial)
          fun embedded => Program.Only.bind (Program.Only.ofExcept _) fun vec => ?_
        exact Program.Only.bind (only_storeOrFail (store _)) fun _ => trivial
      · trivial

/-- What `unmerge` finds is in the log, and it leaves the rows. -/
theorem execPersist_unmerge (w : SealedWorld aead F) (mergeId : Nat) :
    (w.execPersist (.unmerge mergeId)).2.memoryItem = w.file.memoryItem ∧
      ∀ source target, (w.execPersist (.unmerge mergeId)).1 = .ok (some (source, target)) →
        ∃ e ∈ w.world.db.mergeLog, asI64 e.id = asI64 mergeId ∧ e.sourceId = source := by
  unfold execPersist
  rw [w.seen]
  cases w.world.env.persistFault w.world.tick (.unmerge mergeId) with
  | some fault =>
      refine ⟨rfl, fun source target ran => ?_⟩
      -- An interrupted `unmerge` reports no pair.
      change (PersistOp.fails _ fault.1 fault.2 (.unmerge mergeId)).1 = _ at ran
      unfold PersistOp.fails at ran
      dsimp only at ran
      split at ran <;> cases ran
  | none =>
      refine ⟨rfl, fun source target ran => ?_⟩
      have taken : ((w.file.view aead w.cipher).unmerge mergeId).1 = some (source, target) :=
        Except.ok.inj ran
      unfold Db.unmerge at taken
      split at taken
      · cases taken
      · rename_i e found
        cases taken
        exact ⟨e, List.mem_of_find?_eq_some found, by simpa using List.find?_some found, rfl⟩

theorem Holds.unmerge {mergeId : Nat} (holds : w.Holds item row env cipher)
    (spares : (RmwOp.unmerge mergeId).Spares eng cipher w.world item) :
    (Program.run (sealedMachine aead F) ((RmwOp.unmerge mergeId).program eng) w).2.Holds item row env
      cipher := by
  change (Program.run (sealedMachine aead F) (_ >>= fun _ => .done ()) w).2.Holds item row env cipher
  rw [Program.run_discard]
  unfold FusionMemory.unmerge
  refine holds.checked trivial fun pair ran holds₁ => ?_
  rcases pair with _ | ⟨source, target⟩
  · exact holds₁
  · obtain ⟨rows, logged⟩ := execPersist_unmerge w mergeId
    obtain ⟨e, mem, id, rfl⟩ := logged source target ran
    refine holds₁.read rfl fun found looked => ?_
    cases found with
    | none => exact holds₁.next
    | some m =>
        have stored : w.world.db.getMemory e.sourceId = some m := by
          rw [w.seen, SealedDb.getMemory_view, ← rows, ← SealedDb.getMemory_view]
          exact Except.ok.inj looked
        refine holds₁.next.run (Program.Only.bind
          (only_rebuildVector (fun _ => trivial) (fun _ => trivial) _) fun _ =>
            Program.Only.bind (only_persistOrFail ?_) fun _ => trivial)
        intro own
        have key : m.id = e.sourceId := Table.find?_key stored
        rcases spares with quiet | ⟨rfl, knows⟩
        · exact absurd ⟨e, mem, id, key.symm.trans own⟩ quiet
        · have listed : m ∈ w.world.db.memoryItem.rows := Table.find?_mem stored
          have content : m.content = row.content := holds.seen_content listed own
          exact ⟨rfl, content, knows m listed own⟩

omit [FloatArith F] [JsonText F] in
/-- A database call of the replay. -/
theorem only_sinkPersist {P : Request F → Prop} {op : PersistOp F} (allowed : P (.persist op)) :
    Program.Only P (ReplaySink.persist op) :=
  Program.Only.bind (Program.Only.perform allowed) fun _ => Program.Only.ofExcept _

theorem Holds.promoteTier {id tier : String} (holds : w.Holds item row env cipher)
    (spares : (RmwOp.promoteTier id tier).Spares eng cipher w.world item) :
    (Program.run (sealedMachine aead F) ((RmwOp.promoteTier id tier).program eng) w).2.Holds item row
      env cipher := by
  change (Program.run (sealedMachine aead F) (_ >>= fun _ => .done ()) w).2.Holds item row env cipher
  rw [Program.run_discard, Program.run_attempt]
  change (Program.run (sealedMachine aead F) (ReplaySink.promoteTier id tier) w).2.Holds item row env
    cipher
  unfold ReplaySink.promoteTier
  cases known : MemoryTier.ofName tier with
  | none => exact holds
  | some tierEnum =>
      refine holds.read rfl fun found looked => ?_
      cases found with
      | none => exact holds.next
      | some m =>
          have stored : w.world.db.getMemory id = some m := Except.ok.inj looked
          refine holds.next.run (only_sinkPersist ?_)
          intro own
          have key : m.id = id := Table.find?_key stored
          rcases spares with quiet | ⟨rfl, knows⟩
          · exact absurd ⟨key.symm.trans own, by rw [known]; rfl⟩ quiet
          · have listed : m ∈ w.world.db.memoryItem.rows := Table.find?_mem stored
            have content : m.content = row.content := holds.seen_content listed own
            exact ⟨rfl, content, knows m listed own⟩

theorem Holds.perform {op : RmwOp} (holds : w.Holds item row env cipher)
    (spares : op.Spares eng cipher w.world item) :
    (Program.run (sealedMachine aead F) (op.program eng) w).2.Holds item row env cipher := by
  cases op with
  | promote ns => exact holds.promote spares
  | reextract ns => exact holds.reextract spares
  | unmerge mergeId => exact holds.unmerge spares
  | promoteTier id tier => exact holds.promoteTier spares

end SealedWorld

/-! ### Sequences of operations -/

/-- A process between two operations: its key, and all its state but for what is on disk. -/
structure Session (F : Type) where
  eng : MemoryEngine
  cipher : Option Cipher
  nonces : Nat → Nonce × Nonce
  world : World F

/-- The database file and the vector store. -/
structure Disk (F : Type) where
  file : SealedDb F
  store : LocalStore F

variable (aead : Aead)

/-- The process at work on the disk. -/
def Session.on (p : Session F) (disk : Disk F) : SealedWorld aead F where
  file := disk.file
  cipher := p.cipher
  nonces := p.nonces
  world := { p.world with db := disk.file.view aead p.cipher, store := disk.store }
  seen := rfl

/-- The disk after an operation. -/
def Disk.after (disk : Disk F) (step : Session F × RmwOp) : Disk F :=
  let w := (Program.run (sealedMachine aead F) (step.2.program step.1.eng) (step.1.on aead disk)).2
  ⟨w.file, w.world.store⟩

/-- Each operation of the sequence spares the text of the item, on the disk as it then is. -/
def SparesAll (item : MemoryItem F) : List (Session F × RmwOp) → Disk F → Prop
  | [], _ => True
  | step :: rest, disk =>
      step.2.Spares step.1.eng step.1.cipher (step.1.on aead disk).world item ∧
        SparesAll item rest (disk.after aead step)

variable {aead} {item : MemoryItem F} {row : MemoryRow F}

theorem intact_after {disk : Disk F} (intact : disk.file.Intact item row) {step : Session F × RmwOp}
    (spares : step.2.Spares step.1.eng step.1.cipher (step.1.on aead disk).world item) :
    (disk.after aead step).file.Intact item row := by
  have holds : (step.1.on aead disk).Holds item row step.1.world.env step.1.cipher :=
    ⟨rfl, rfl, intact⟩
  exact (holds.perform spares).intact

theorem intact_foldl {steps : List (Session F × RmwOp)} {disk : Disk F}
    (intact : disk.file.Intact item row) (spares : SparesAll aead item steps disk) :
    (steps.foldl (Disk.after aead) disk).file.Intact item row := by
  induction steps generalizing disk with
  | nil => exact intact
  | cons step rest ih => exact ih (intact_after intact spares.1) spares.2

/-- Opened with the key, the disk gives the text of the item. -/
def Disk.Recovers (aead : Aead) (key : Cipher) (item : MemoryItem F) (disk : Disk F) : Prop :=
  ∃ m, (disk.file.view aead (some key)).getMemory item.id = some m ∧ m.content = item.content ∧
    m.entities = item.entities

/-- The JSON library takes no encrypted text for JSON. -/
def RejectsSealed (F : Type) [FloatArith F] [JsonText F] : Prop :=
  ∀ s, JsonText.parse (F := F) (ENC_PREFIX ++ s) = none

/-- Entities in the clear are read as they stand, with any key. -/
theorem readEntities_clear (rejects : RejectsSealed F) (cipher : Option Cipher)
    (entities : List EntityNode) :
    readEntities F (decryptField aead cipher (entitiesText F entities)) = entities := by
  have clear : decryptField aead cipher (entitiesText F entities) = entitiesText F entities := by
    cases cipher with
    | none => rfl
    | some c =>
        change c.decrypt aead _ = _
        unfold Cipher.decrypt
        cases stripped : stripPrefix ENC_PREFIX (entitiesText F entities) with
        | none => rfl
        | some rest =>
            have printed : JsonText.parse (F := F) (entitiesText F entities) ≠ none := by
              unfold entitiesText
              rw [JsonText.parse_print]
              exact Option.some_ne_none _
            rw [eq_of_stripPrefix stripped] at printed
            exact absurd (rejects rest) printed
  rw [clear, readEntities_entitiesText]

theorem recovers_of_intact (lawful : aead.Lawful) (rejects : RejectsSealed F) {key : Cipher}
    {nonces : Nonce × Nonce} (written : itemRow aead (some key) nonces item = .ok row) {disk : Disk F}
    (intact : disk.file.Intact item row) : disk.Recovers aead key item := by
  obtain ⟨encContent, encEntities, content, entities, rfl⟩ := itemRow_eq_ok_iff.mp written
  have readContent := decryptField_encryptField lawful content
  unfold Disk.Recovers
  rw [SealedDb.getMemory_view]
  unfold SealedDb.Intact SealedDb.texts at intact
  cases found : disk.file.memoryItem.find? item.id with
  | none =>
      rw [found] at intact
      rcases intact with no | no <;> cases no
  | some stored =>
      rw [found, Option.map_some, Option.some_inj, Option.some_inj, Prod.mk.injEq, Prod.mk.injEq]
        at intact
      refine ⟨rowToMemory aead (some key) stored, rfl, ?_, ?_⟩
      · rcases intact with ⟨same, -⟩ | ⟨same, -⟩
        · exact (congrArg _ same).trans readContent
        · exact (congrArg _ same).trans readContent
      · rcases intact with ⟨-, sealed⟩ | ⟨-, clear⟩
        · change readEntities F (decryptField aead (some key) stored.entitiesJson) = item.entities
          rw [sealed]
          change readEntities F (decryptField aead (some key) encEntities) = item.entities
          rw [decryptField_encryptField lawful entities, readEntities_entitiesText]
        · change readEntities F (decryptField aead (some key) stored.entitiesJson) = item.entities
          rw [clear, readEntities_clear rejects]

/-- Whatever operations processes perform one after the other, opened with any key or
none: if each spares the text of the item, its key still gives the text. -/
theorem text_survives (lawful : aead.Lawful) (rejects : RejectsSealed F) {key : Cipher}
    {nonces : Nonce × Nonce} (written : itemRow aead (some key) nonces item = .ok row) {disk : Disk F}
    (stored : disk.file.memoryItem.find? item.id = some row) (steps : List (Session F × RmwOp))
    (spares : SparesAll aead item steps disk) :
    (steps.foldl (Disk.after aead) disk).Recovers aead key item := by
  have intact : disk.file.Intact item row := by
    left
    unfold SealedDb.texts
    rw [stored]
    rfl
  exact recovers_of_intact lawful rejects written (intact_foldl intact spares)

/-! ### A note under the key of ones -/

theorem rejectsSealed_fixed : RejectsSealed Fixed := by
  intro s
  change Json.parse (ENC_PREFIX ++ s) = none
  unfold Json.parse
  rw [String.toList_append]
  rfl

def secretNote : MemoryItem Fixed :=
  MemoryItem.newTurnSkeleton "m" "ix" 0 "session" "tenant" .episodic "secret" 0

def sealedText (text : String) : String :=
  ENC_PREFIX ++ Aead.labelled.encode
    (List.replicate 12 0 ++ ((Vector.replicate 32 1).toList ++ utf8 text))

def sealedNote : MemoryRow Fixed :=
  secretNote.columns (sealedText secretNote.content) (sealedText (entitiesText Fixed []))

def noteDisk : Disk Fixed :=
  ⟨SealedDb.empty.putRow sealedNote [], LocalStore.empty 0⟩

def session (cipher : Option Cipher) : Session Fixed :=
  ⟨plainEngine "tenant", cipher, fun _ => (.zero, .zero), World.fresh .quiet .empty (.empty 0)⟩

theorem sealedNote_written :
    itemRow .labelled (some (.ofByte 1)) (.zero, .zero) secretNote = .ok sealedNote := rfl

/-- The second step writes the row back, without a key. -/
theorem text_survives_note :
    ([(session (some (.ofByte 2)), RmwOp.promoteTier "other" "Long"),
      (session none, .promoteTier "m" "Long")].foldl (Disk.after .labelled) noteDisk).Recovers
        .labelled (.ofByte 1) secretNote := by
  have other : ¬ (RmwOp.promoteTier "other" "Long").Writes (plainEngine "tenant")
      ((session (some (.ofByte 2))).on .labelled noteDisk).world secretNote.id := by
    rintro ⟨same, -⟩
    exact absurd same (by decide)
  have seen : ∀ m ∈ ((session none).on .labelled (noteDisk.after .labelled
      (session (some (.ofByte 2)), .promoteTier "other" "Long"))).world.db.memoryItem.rows,
        m.id = secretNote.id → m.entities = secretNote.entities := by
    decide +kernel
  exact text_survives Aead.labelled_lawful rejectsSealed_fixed sealedNote_written rfl _
    ⟨.inl other, .inr ⟨rfl, seen⟩, trivial⟩

/-- A process with another key raises the tier of the note, and its text is lost. -/
theorem other_key_loses_text : ¬ ∀ steps : List (Session Fixed × RmwOp),
    (∀ step ∈ steps, step.1.cipher ≠ some (.ofByte 1)) →
    (steps.foldl (Disk.after .labelled) noteDisk).Recovers .labelled (.ofByte 1) secretNote := by
  intro recovers
  obtain ⟨m, found, content, -⟩ := recovers [(session (some (.ofByte 2)), .promoteTier "m" "Long")]
    (by decide)
  have lost : (((noteDisk.after .labelled
      (session (some (.ofByte 2)), .promoteTier "m" "Long")).file.view .labelled
        (some (.ofByte 1))).getMemory secretNote.id).map (·.content) ≠ some secretNote.content := by
    decide +kernel
  have read := congrArg (Option.map fun m : MemoryItem Fixed => m.content) found
  exact lost (read.trans (congrArg some content))

end FusionMemory
