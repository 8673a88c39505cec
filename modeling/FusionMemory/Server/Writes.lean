import FusionMemory.Engine.DeletedStays
import FusionMemory.Server.Tasks

/-!
What the calls of the handle write (`fm-engine/src/engine.rs`).

A row is stored under an id that the call was handed, with the text that the call had embedded
right after that, and after its vector was stored. Rows are written back as they were read, in
other columns. A vector is the embedder's, or one that was there and is put back.
`EngineCall.program_writes` says so of every call, `Writes` being the protocol.
-/

namespace FusionMemory

open Lib

variable {F : Type} [FloatArith F] [JsonText F]

/-- The columns of a row that are written once; the others are blanked out. -/
def MemoryItem.fixed (m : MemoryItem F) : MemoryItem F :=
  { m with tier := .short, entities := [], accessCount := 0, lastAccessedTimestamp := 0,
           tombstone := false, entitiesPending := false }

omit [FloatArith F] [JsonText F] in
theorem MemoryItem.id_eq_of_fixed {m m' : MemoryItem F} (same : m.fixed = m'.fixed) :
    m.id = m'.id := by
  have ids : m.fixed.id = m'.fixed.id := by rw [same]
  exact ids

/-! ### The protocol -/

/-- The call was handed `id` and has not tried to store a row under it. -/
def Unspent (id : String) (h : List (EngineEvent F)) : Prop :=
  ∃ t before since, h = since ++ ⟨t, .newUlid, id⟩ :: before ∧
    ∀ e ∈ since, ∀ item op payload «at», e.request = .persist (.putMemoryWithWop item op payload «at») →
      item.id ≠ id

/-- The call has embedded `text`, and `vec` was the answer. -/
def Embedded (text : String) (vec : List F) (h : List (EngineEvent F)) : Prop :=
  ∃ t, (⟨t, .embed text, .ok vec⟩ : EngineEvent F) ∈ h

/-- The call has embedded `text` right after it was handed `id`. -/
def TextOf (id text : String) (h : List (EngineEvent F)) : Prop :=
  ∃ t t' reply since before, h = since ++ ⟨t', .embed text, reply⟩ :: ⟨t, .newUlid, id⟩ :: before

/-- The row of a text whose vector was stored. -/
structure Prepared (item : MemoryItem F) (h : List (EngineEvent F)) : Prop where
  text : TextOf item.id item.content h
  ref : item.vectorRef = toString (vectorIdFromUlid item.id)
  stored : ∃ t vec, Embedded item.content vec h ∧
    (⟨t, .store (.insertVector (vectorIdFromUlid item.id) vec), .ok ()⟩ : EngineEvent F) ∈ h

/-- Where a vector that is stored comes from. -/
inductive VectorSource (v : Nat) (vec : List F) (h : List (EngineEvent F)) : Prop where
  | embedded {id text : String} : v = vectorIdFromUlid id → TextOf id text h →
      Embedded text vec h → VectorSource v vec h
  | rebuilt {e : EngineEvent F} {m : MemoryItem F} : e ∈ h → m ∈ rowsRead e →
      parseU64 m.vectorRef = some v → Embedded m.content vec h → VectorSource v vec h
  | restored {t : Nat} : (⟨t, .store (.getVector v), .ok (some vec)⟩ : EngineEvent F) ∈ h →
      VectorSource v vec h

/-- What a call may write after the events `h`. -/
def Writes (h : List (EngineEvent F)) : Request F → Prop
  | .persist (.putMemory item) => ∃ e ∈ h, ∃ m ∈ rowsRead e, item.fixed = m.fixed
  | .persist (.putMemoryWithWop item _ _ _) => Unspent item.id h ∧ Prepared item h
  | .store (.insertVector v vec) => VectorSource v vec h
  | _ => True

/-- The requests that store no row and no vector. -/
def Request.Storeless : Request F → Prop
  | .persist (.putMemory _) | .persist (.putMemoryWithWop _ _ _ _) | .store (.insertVector _ _) => False
  | _ => True

omit [FloatArith F] [JsonText F] in
theorem Request.Storeless.writes {r : Request F} (storeless : r.Storeless)
    (h : List (EngineEvent F)) : Writes h r := by
  unfold Writes
  split
  · exact storeless.elim
  · exact storeless.elim
  · exact storeless.elim
  · trivial

omit [FloatArith F] [JsonText F] in
theorem Unspent.cons {id : String} {h : List (EngineEvent F)} (pending : Unspent id h)
    {e : EngineEvent F} (storeless : ∀ item op payload «at»,
      e.request ≠ .persist (.putMemoryWithWop item op payload «at»)) : Unspent id (e :: h) := by
  obtain ⟨t, before, since, rfl, unspent⟩ := pending
  refine ⟨t, before, e :: since, rfl, fun e' mem item op payload «at» stores => ?_⟩
  rcases List.mem_cons.mp mem with rfl | old
  · exact absurd stores (storeless item op payload «at»)
  · exact unspent e' old item op payload «at» stores

omit [FloatArith F] [JsonText F] in
/-- An event leaves the ids pending that were, but for the one it stores a row under. -/
theorem Unspent.of_cons {id : String} {e : EngineEvent F} {h : List (EngineEvent F)}
    (pending : Unspent id (e :: h)) : (∃ t, e = ⟨t, .newUlid, id⟩) ∨ Unspent id h ∧
      ∀ item op payload «at», e.request = .persist (.putMemoryWithWop item op payload «at») →
        item.id ≠ id := by
  obtain ⟨t, before, since, same, unspent⟩ := pending
  cases since with
  | nil =>
      cases same
      exact .inl ⟨t, rfl⟩
  | cons e' since =>
      obtain ⟨rfl, rfl⟩ := List.cons.inj same
      exact .inr ⟨⟨t, before, since, rfl, fun e' mem => unspent e' (List.mem_cons_of_mem _ mem)⟩,
        unspent _ List.mem_cons_self⟩

/-! ### The turn of a text -/

section Texts

variable {α : Type} {h : List (EngineEvent F)} {I : List (EngineEvent F) → Prop}
  (stable : ∀ h e, I h → I (e :: h))

include stable

omit [FloatArith F] [JsonText F] in
theorem obeys_storeless {p : EngineM F α} (storeless : Program.Only Request.Storeless p)
    (start : I h) : Program.Obeys Writes (fun h _ => I h) h p :=
  Program.Obeys.ofOnly storeless stable (fun h _ _ storeless => storeless.writes h) start

omit stable [FloatArith F] [JsonText F] in
/-- The vector of a text, when its row is still to be stored. -/
theorem writes_newVector (t₁ t₂ : Nat) (id text : String) (vec : List F) :
    Writes (⟨t₂, .embed text, .ok vec⟩ :: ⟨t₁, .newUlid, id⟩ :: h)
      (.store (.insertVector (vectorIdFromUlid id) vec)) :=
  VectorSource.embedded rfl ⟨t₁, t₂, .ok vec, [], h, rfl⟩ ⟨t₂, List.mem_cons_self⟩

omit stable [FloatArith F] [JsonText F] in
/-- The row of a text, when its vector is stored. -/
theorem writes_newRow (t₁ t₂ t₃ : Nat) {id text : String} (vec : List F) {item : MemoryItem F}
    (named : item.id = id) (text_eq : item.content = text)
    (ref : item.vectorRef = toString (vectorIdFromUlid id)) (op payload : String) («at» : Nat) :
    Writes (⟨t₃, .store (.insertVector (vectorIdFromUlid id) vec), .ok ()⟩ ::
        ⟨t₂, .embed text, .ok vec⟩ :: ⟨t₁, .newUlid, id⟩ :: h)
      (.persist (.putMemoryWithWop item op payload «at»)) := by
  subst named text_eq
  have pending : Unspent item.id (⟨t₁, .newUlid, item.id⟩ :: h) :=
    ⟨t₁, h, [], rfl, fun _ mem => by cases mem⟩
  refine ⟨Unspent.cons (Unspent.cons pending ?_) ?_, ?_, ref, t₃, vec, ?_, ?_⟩
  · rintro _ _ _ _ ⟨⟩
  · rintro _ _ _ _ ⟨⟩
  · exact ⟨t₁, t₂, .ok vec, [_], h, rfl⟩
  · exact ⟨t₂, List.mem_cons_of_mem _ List.mem_cons_self⟩
  · exact List.mem_cons_self

/-- The id of a turn is stored under at most once. -/
theorem commitTurn_writes (eng : MemoryEngine) (sessionId : String) (interaction : Interaction)
    (now : Nat) (acc : CommitOutcome) (turn : Turn) (start : I h) :
    Program.Obeys Writes (fun h _ => I h) h (commitTurn eng sessionId interaction now acc turn) := by
  unfold commitTurn
  refine ⟨trivial, fun t₁ id => ⟨trivial, fun t₂ reply => ?_⟩⟩
  have kept := stable _ ⟨t₂, .embed (committedContent eng turn), reply⟩
    (stable h ⟨t₁, .newUlid, id⟩ start)
  cases reply with
  | error e => exact kept
  | ok vec =>
      refine ⟨writes_newVector t₁ t₂ id _ vec, fun t₃ reply₃ => ?_⟩
      have kept₃ := stable _ ⟨t₃, .store (.insertVector (vectorIdFromUlid id) vec), reply₃⟩ kept
      cases reply₃ with
      | error e => exact kept₃
      | ok _ =>
          refine ⟨writes_newRow t₁ t₂ t₃ vec rfl rfl rfl _ _ _, fun t₄ reply₄ => ?_⟩
          cases reply₄ with
          | error e => exact ⟨trivial, fun _ _ => stable _ _ (stable _ _ kept₃)⟩
          | ok _ =>
              change Program.Obeys _ _ _ (extractAndAttach eng id _ >>= fun _ => _)
              refine Program.Obeys.bind (R := fun h _ => I h) ?_ fun h _ kept => kept
              unfold extractAndAttach
              split_ifs
              · refine ⟨trivial, fun t₅ extracted => ⟨trivial, fun t₆ found => ?_⟩⟩
                rcases found with e | (_ | item)
                · exact stable _ _ (stable _ _ (stable _ _ kept₃))
                · exact stable _ _ (stable _ _ (stable _ _ kept₃))
                · refine ⟨⟨_, List.mem_cons_self, item, List.mem_singleton.mpr rfl, rfl⟩, fun t₇ reply => ?_⟩
                  exact stable _ _ (stable _ _ (stable _ _ (stable _ _ kept₃)))
              · exact stable _ _ kept₃

theorem storeSummary_writes (eng : MemoryEngine) («at» : Nat) (ns : NamespaceFilter)
    (items : List (MemoryItem F)) (session summary : String) (acc : Progress) (start : I h) :
    Program.Obeys Writes (fun h _ => I h) h
      (storeSummary eng «at» ns items session summary acc) := by
  refine ⟨trivial, fun t₁ id => ⟨trivial, fun t₂ reply => ?_⟩⟩
  have kept := stable _ ⟨t₂, .embed summary, reply⟩ (stable h ⟨t₁, .newUlid, id⟩ start)
  cases reply with
  | error e => exact kept
  | ok vec =>
      refine ⟨writes_newVector t₁ t₂ id summary vec, fun t₃ reply₃ => ?_⟩
      have kept₃ := stable _ ⟨t₃, .store (.insertVector (vectorIdFromUlid id) vec), reply₃⟩ kept
      cases reply₃ with
      | error e => exact kept₃
      | ok _ =>
          refine ⟨writes_newRow t₁ t₂ t₃ vec rfl rfl rfl _ _ _, fun t₄ reply₄ => ?_⟩
          cases reply₄ with
          | ok _ => exact stable _ _ kept₃
          | error e => exact ⟨trivial, fun _ _ => stable _ _ (stable _ _ kept₃)⟩

theorem consolidateSummarize_writes (eng : MemoryEngine) (changed : List (MemoryItem F))
    («at» : Nat) (failures : List ConsolidationFailure) (ns : NamespaceFilter) (start : I h) :
    Program.Obeys Writes (fun h _ => I h) h (consolidateSummarize eng changed «at» failures ns) := by
  unfold consolidateSummarize
  split_ifs
  · refine ⟨trivial, fun t sessions => obeys_foldlM_keeps (fun session _ h acc kept => ?_)
      (stable _ _ start)⟩
    unfold summarizeSession
    dsimp only
    split_ifs
    · exact kept
    · refine ⟨trivial, fun t reply => ?_⟩
      have kept' := stable _
        ⟨t, .chatCompletion SUMMARY_PROMPT (joinContents (sessionGroup changed session)), reply⟩ kept
      cases reply with
      | none => exact kept'
      | some summary =>
          change Program.Obeys _ _ _ (if isBlank summary then _ else _)
          split_ifs
          · exact kept'
          · exact storeSummary_writes stable eng «at» ns _ session summary acc kept'
  · exact start

omit [JsonText F] in
/-- The vector that a merge puts back is the one it has read. -/
theorem mergeInto_writes (all : List (MemoryItem F)) («at» : Nat) (src : MemoryItem F) (vr : Nat)
    (vec : List F) (neighbours : List (Nat × F)) : ∀ {h : List (EngineEvent F)} (acc : Progress),
    I h → (∃ t, (⟨t, .store (.getVector vr), .ok (some vec)⟩ : EngineEvent F) ∈ h) →
      Program.Obeys Writes (fun h _ => I h) h (mergeInto all «at» src vr vec neighbours acc) := by
  induction neighbours with
  | nil => exact fun acc kept _ => kept
  | cons hit rest ih =>
      rintro h acc kept ⟨t, read⟩
      unfold mergeInto
      cases mergeTarget all src vr hit with
      | none => exact ih acc kept ⟨t, read⟩
      | some tgt =>
          refine ⟨trivial, fun t₁ reply => ?_⟩
          cases reply with
          | error e => exact ih _ (stable _ _ kept) ⟨t, List.mem_cons_of_mem _ read⟩
          | ok _ =>
              refine ⟨trivial, fun t₂ reply₂ => ⟨trivial, fun t₃ reply₃ => ?_⟩⟩
              have kept₃ := stable _ ⟨t₃, .persist (.recordMerge src.id tgt.id MERGE_REASON «at»), reply₃⟩
                (stable _ ⟨t₂, .store (.deleteVector vr), reply₂⟩
                  (stable _ ⟨t₁, .persist (.tombstoneMemory src.id), .ok ()⟩ kept))
              cases reply₃ with
              | ok _ => exact ⟨trivial, fun _ _ => stable _ _ kept₃⟩
              | error e =>
                  refine ⟨trivial, fun t₄ _ => ⟨?_, fun _ _ => stable _ _ (stable _ _ kept₃)⟩⟩
                  refine VectorSource.restored (t := t) ?_
                  refine List.mem_cons_of_mem _ (List.mem_cons_of_mem _ ?_)
                  exact List.mem_cons_of_mem _ (List.mem_cons_of_mem _ read)

omit [JsonText F] in
theorem mergeSource_writes (all : List (MemoryItem F)) («at» : Nat) (acc : Progress)
    (src : MemoryItem F) (start : I h) :
    Program.Obeys Writes (fun h _ => I h) h (mergeSource all «at» acc src) := by
  unfold mergeSource
  split_ifs
  · exact start
  · cases parseU64 src.vectorRef with
    | none => exact start
    | some vr =>
        refine ⟨trivial, fun t reply => ?_⟩
        have kept := stable h ⟨t, .store (.getVector vr), reply⟩ start
        rcases reply with e | (_ | vec)
        · exact kept
        · exact kept
        · refine ⟨trivial, fun t' found => ?_⟩
          cases found with
          | error e => exact stable _ _ kept
          | ok knn =>
              exact mergeInto_writes stable all «at» src vr vec knn acc (stable _ _ kept)
                ⟨t, List.mem_cons_of_mem _ List.mem_cons_self⟩

omit [FloatArith F] [JsonText F] in
/-- A vector that is missing is rebuilt from the row that was read. -/
theorem rebuildVector_writes {item m : MemoryItem F} (ref : item.vectorRef = m.vectorRef)
    (content : item.content = m.content) (read : ∃ e ∈ h, m ∈ rowsRead e) (start : I h) :
    Program.Obeys Writes (fun h _ => I h) h (rebuildVector item) := by
  unfold rebuildVector
  cases parsed : parseU64 item.vectorRef with
  | none => exact start
  | some vr =>
      refine ⟨trivial, fun t reply => ?_⟩
      have kept := stable h ⟨t, .store (.getVector vr), reply⟩ start
      rcases reply with e | (_ | vec)
      · exact kept
      · refine ⟨trivial, fun t' reply => ?_⟩
        have kept' := stable _ ⟨t', .embed item.content, reply⟩ kept
        cases reply with
        | error e => exact kept'
        | ok vec =>
            refine ⟨?_, fun t'' reply => ?_⟩
            · obtain ⟨e, mem, read⟩ := read
              refine VectorSource.rebuilt (e := e) (m := m) ?_ read (ref ▸ parsed) ?_
              · exact List.mem_cons_of_mem _ (List.mem_cons_of_mem _ mem)
              · exact ⟨t', content ▸ List.mem_cons_self⟩
            · cases reply with
              | error e => exact stable _ _ kept'
              | ok _ => exact stable _ _ kept'
      · exact kept

end Texts

/-- The call has read the rows of its change set. -/
def HasRead (changed : List (MemoryItem F)) (h : List (EngineEvent F)) : Prop :=
  ∃ e ∈ h, rowsRead e = changed

omit [FloatArith F] [JsonText F] in
theorem HasRead.cons {changed : List (MemoryItem F)} (h : List (EngineEvent F)) (e : EngineEvent F)
    (read : HasRead changed h) : HasRead changed (e :: h) := by
  obtain ⟨e', mem, same⟩ := read
  exact ⟨e', List.mem_cons_of_mem _ mem, same⟩

omit [FloatArith F] [JsonText F] in
/-- A row of the change set may be written back. -/
theorem HasRead.writes {changed : List (MemoryItem F)} {h : List (EngineEvent F)}
    (read : HasRead changed h) {m item : MemoryItem F} (listed : m ∈ changed)
    (same : item.fixed = m.fixed) : Writes h (.persist (.putMemory item)) := by
  obtain ⟨e, mem, rfl⟩ := read
  exact ⟨e, mem, m, listed, same⟩

section Consolidate

variable {changed : List (MemoryItem F)} {h : List (EngineEvent F)}

theorem consolidateChanged_writes (eng : MemoryEngine) (ns : NamespaceFilter) (start : Nat)
    (read : HasRead changed h) : Program.Obeys Writes (fun _ _ => True) h
      (consolidateChanged eng ns start changed) := by
  unfold consolidateChanged
  refine obeys_bind_keeps (obeys_foldlM_keeps (fun m listed h acc read => ?_) read)
    fun h tally read => ?_
  · refine Program.Obeys.ofOnly (only_recycleOrPromote start listed acc) HasRead.cons
      (fun h r read request => ?_) read
    cases request with
    | raise listed => exact read.writes listed rfl
    | _ => trivial
  unfold consolidateMerge
  rw [bind_assoc]
  refine obeys_persistOrFail trivial (fun _ _ => trivial) fun t all => ?_
  refine obeys_bind_keeps (obeys_foldlM_keeps (fun src _ h acc read => ?_) (read.cons _ _))
    fun h merged read => ?_
  · exact mergeSource_writes HasRead.cons all start acc src read
  unfold afterMerge
  refine obeys_bind_keeps (consolidateSummarize_writes HasRead.cons eng changed start _ ns read)
    fun h summarized read => ?_
  refine obeys_bind_keeps (Program.Obeys.ofOnly
    (only_lateProgram eng ns start changed tally merged summarized) HasRead.cons
    (fun h r read request => ?_) read) fun h report read => ?_
  · cases request with
    | put entities able listed pending => exact read.writes listed rfl
    | _ => trivial
  refine obeys_bind_keeps (obeys_storeless HasRead.cons ?_ read) fun h _ _ =>
    ⟨trivial, fun _ _ => trivial⟩
  exact only_recordRun (P := Request.Storeless) (fun _ _ _ => trivial) trivial ns

theorem consolidateImpl_writes (eng : MemoryEngine) (ns : NamespaceFilter) :
    Program.Obeys Writes (fun _ _ => True) [] (consolidateImpl (F := F) eng ns) := by
  rw [consolidateImpl_eq]
  refine obeys_withLock (fun _ => ⟨trivial, trivial⟩) fun t₀ => ⟨trivial, fun t start => ?_⟩
  refine obeys_persistOrFail trivial (fun _ _ => trivial) fun t₁ since => ?_
  refine obeys_persistOrFail trivial (fun _ _ => trivial) fun t₂ changed => ?_
  exact consolidateChanged_writes eng ns start ⟨_, List.mem_cons_self, rfl⟩

end Consolidate

/-! ### All calls -/

section Calls

variable {α : Type}

omit [FloatArith F] [JsonText F] in
/-- A call that stores no row and no vector. -/
theorem writes_of_storeless {p : EngineM F α} (storeless : Program.Only Request.Storeless p) :
    Program.Obeys Writes (fun _ _ => True) [] p :=
  obeys_storeless (I := fun _ => True) (fun _ _ _ => trivial) storeless trivial

theorem commitInner_writes (eng : MemoryEngine) (sessionId : String) (interaction : Interaction) :
    Program.Obeys Writes (fun _ _ => True) [] (commitInner (F := F) eng sessionId interaction) := by
  refine ⟨trivial, fun t now => ?_⟩
  change Program.Obeys _ _ _ (interaction.turns.foldlM _ _ >>= fun outcome => _)
  refine obeys_bind_keeps (I := fun _ => True) (obeys_foldlM_keeps (fun turn _ h acc _ => ?_) trivial)
    fun h outcome _ => ⟨trivial, fun _ _ => trivial⟩
  exact commitTurn_writes (I := fun _ => True) (fun _ _ _ => trivial) eng sessionId interaction now
    acc turn trivial

omit [FloatArith F] [JsonText F] in
/-- Only the row that was read is written back, and its vector is the embedder's answer to it. -/
theorem unmerge_writes (mergeId : Nat) :
    Program.Obeys Writes (fun _ _ => True) [] (unmerge (F := F) mergeId) := by
  unfold unmerge
  refine obeys_persistOrFail trivial (fun _ _ => trivial) fun t pair => ?_
  rcases pair with _ | ⟨sourceId, targetId⟩
  · trivial
  refine obeys_persistOrFail trivial (fun _ _ => trivial) fun t₁ found => ?_
  cases found with
  | none => trivial
  | some item =>
      let Kept : List (EngineEvent F) → Prop := fun h => ∃ e ∈ h, item ∈ rowsRead e
      have stable : ∀ h e, Kept h → Kept (e :: h) := fun _ _ ⟨e', mem, read⟩ =>
        ⟨e', List.mem_cons_of_mem _ mem, read⟩
      refine obeys_bind_keeps (I := Kept) ?_ fun h _ kept => ?_
      · have read : Kept [⟨t₁, .persist (.getMemory sourceId), .ok (some item)⟩,
            ⟨t, .persist (.unmerge mergeId), .ok (some (sourceId, targetId))⟩] :=
          ⟨_, List.mem_cons_self, List.mem_singleton.mpr rfl⟩
        exact rebuildVector_writes (m := item) stable rfl rfl read read
      · obtain ⟨e, mem, read⟩ := kept
        exact obeys_persistOrFail ⟨e, mem, item, read, rfl⟩ (fun _ _ => trivial) fun _ _ => trivial

omit [FloatArith F] [JsonText F] in
theorem storeless_simple : AllowsSimple (Request.Storeless (F := F)) where
  read op read := by cases op <;> trivial
  clock := trivial
  bury _ := trivial
  purge _ := trivial
  log _ _ _ := trivial
  audit _ _ _ _ _ := trivial
  report _ _ _ _ := trivial
  drop _ := trivial
  getVector _ := trivial
  listVectors := trivial

omit [FloatArith F] [JsonText F] in
theorem storeless_touch (touchedIds : List String) (now : Nat) :
    Program.Only (Request.Storeless (F := F)) (touch touchedIds now) := by
  unfold touch withLock
  split_ifs
  · trivial
  · refine Program.Only.bind (Program.Only.perform trivial) fun _ => ?_
    refine Program.Only.bind (Program.Only.attempt (Program.Only.bind (only_persist trivial)
      fun _ => trivial)) fun result => ?_
    exact Program.Only.bind (Program.Only.perform trivial) fun _ => Program.Only.ofExcept _

omit [JsonText F] in
theorem storeless_retrieveContext (eng : MemoryEngine) (query : RetrieveQuery) :
    Program.Only Request.Storeless (retrieveContext (F := F) eng query) := by
  rw [retrieveContext_eq]
  refine Program.Only.bind (Program.Only.perform trivial) fun now => ?_
  refine Program.Only.bind ((only_findHits eng query now).mono fun r lookup => ?_) fun found => ?_
  · cases lookup <;> trivial
  unfold answerHits
  dsimp only
  refine Program.Only.bind (storeless_touch _ now) fun _ => ?_
  refine Program.Only.bind (only_persist trivial) fun _ => ?_
  refine Program.Only.bind (Program.Only.perform trivial) fun _ => ?_
  exact Program.Only.bind (Program.Only.perform trivial) fun _ => trivial

/-- Every call writes back what it has read, and stores under ids that it was handed. -/
theorem EngineCall.program_writes (eng : MemoryEngine) (call : EngineCall) :
    Program.Obeys Writes (fun _ _ => True) [] (call.program (F := F) eng) := by
  cases simple : call.isSimple with
  | true => exact writes_of_storeless (EngineCall.only_simple storeless_simple eng simple)
  | false =>
      cases call with
      | commitEpisodicMemoryDetailed sessionId interaction =>
          exact commitInner_writes eng sessionId interaction
      | retrieveContext query => exact writes_of_storeless (storeless_retrieveContext eng query)
      | consolidateMemories => exact consolidateImpl_writes eng .default
      | consolidateMemoriesScoped ns key => exact consolidateImpl_writes eng ⟨ns, key⟩
      | unmerge mergeId => exact unmerge_writes mergeId
      | _ => cases simple

end Calls

end FusionMemory
