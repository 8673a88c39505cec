import FusionMemory.Engine.ConsolidatePhases
import FusionMemory.Engine.Manage
import FusionMemory.Engine.Retrieve
import FusionMemory.Lib.Pool

/-!
Calls of the engine side by side.

A pool of calls runs over one world, each request of a call being one atomic step.
`Call.Allows` says what a call may ask for after the events it has seen, whatever
the world answers: it writes back copies of rows that it has read, it gives a new row
an id that it was handed, and a consolidation run records its own start once it has
read its change set. What the interleavings of calls may break is stated on top of it.
-/

namespace FusionMemory

open Lib

variable {F : Type} [FloatArith F] [JsonText F]

/-- The calls considered side by side. -/
inductive Call where
  | commit (sessionId : String) (interaction : Interaction)
  | deleteMemory (id : String)
  | consolidate (ns : NamespaceFilter)
  | retrieve (query : RetrieveQuery)

namespace Call

/-- The method of a call, its result dropped. -/
def program (eng : MemoryEngine) : Call → EngineM F Unit
  | .commit sessionId interaction => do
      let _ ← commitInner eng sessionId interaction
      return ()
  | .deleteMemory id => FusionMemory.deleteMemory id
  | .consolidate ns => do
      let _ ← consolidateImpl eng ns
      return ()
  | .retrieve query => do
      let _ ← retrieveContext eng query
      return ()

/-- A consolidation run that moves the watermark. -/
def Unscoped (c : Call) : Prop := ∃ ns, c = .consolidate ns ∧ ns.isActive = false

end Call

/-- Calls one after the other, whatever each returns. -/
def runCalls (eng : MemoryEngine) (calls : List Call) (w : World F) : World F :=
  calls.foldl (fun w c => (run (c.program eng) w).2) w

theorem runCalls_env (eng : MemoryEngine) (calls : List Call) (w : World F) :
    (runCalls eng calls w).env = w.env := by
  induction calls generalizing w with
  | nil => rfl
  | cons c rest ih => exact (ih _).trans (run_env (c.program eng) w)

/-! ### What a call has seen -/

abbrev EngineEvent (F : Type) := Event (engineSignature F)

/-- The rows that an event handed to a call which may write them back. -/
def rowsRead : EngineEvent F → List (MemoryItem F)
  | ⟨_, .persist (.getMemory _), .ok found⟩ => found.toList
  | ⟨_, .persist (.listChangedSinceScoped _ _), .ok rows⟩ => rows
  | _ => []

/-- How far a call has come: when it first read the clock and what the clock showed, the
watermark that it read, and its change set. -/
structure Stage (F : Type) where
  start : Option (Nat × Nat)
  since : Option Nat
  changed : Option (List (MemoryItem F))

/-- Only the first answer of each kind counts, and only in this order. -/
def Stage.see (s : Stage F) : EngineEvent F → Stage F
  | ⟨t, .nowMs, c⟩ => if s.start.isNone then { s with start := some (t, c) } else s
  | ⟨_, .persist .lastConsolidateAt, .ok since⟩ =>
      if s.start.isSome && s.since.isNone then { s with since := some since } else s
  | ⟨_, .persist (.listChangedSinceScoped _ _), .ok rows⟩ =>
      if s.since.isSome && s.changed.isNone then { s with changed := some rows } else s
  | _ => s

/-- The stage of a call after the events `h`, newest first. -/
def stage (h : List (EngineEvent F)) : Stage F := h.foldr (fun e s => s.see e) ⟨none, none, none⟩

section Stage

omit [FloatArith F] [JsonText F]

variable {s : Stage F} {h : List (EngineEvent F)}

@[simp] theorem stage_cons (e : EngineEvent F) (h : List (EngineEvent F)) :
    stage (e :: h) = (stage h).see e := rfl

theorem Stage.see_start {p : Nat × Nat} (started : s.start = some p) (e : EngineEvent F) :
    (s.see e).start = some p := by
  unfold see
  split
  · simp [started]
  · split_ifs <;> exact started
  · split_ifs <;> exact started
  · exact started

/-- A call that knows its change set has seen it all. -/
theorem Stage.see_full {start : Nat × Nat} {since : Nat} {changed : List (MemoryItem F)}
    (e : EngineEvent F) : (Stage.mk (some start) (some since) (some changed)).see e =
      ⟨some start, some since, some changed⟩ := by
  unfold see
  split <;> rfl

end Stage

/-! ### What a call may ask for -/

/-- `item` is a row that the call has read, with other entities or another tier. -/
def WritesBack (h : List (EngineEvent F)) (item : MemoryItem F) : Prop :=
  ∃ e ∈ h, ∃ m ∈ rowsRead e, item.id = m.id ∧ item.tombstone = m.tombstone ∧
    item.accessCount = m.accessCount ∧ item.createdTimestamp = m.createdTimestamp

/-- The call was handed the ULID `id`, after its clock had shown `c`. -/
def Named (h : List (EngineEvent F)) (id : String) (c : Nat) : Prop :=
  ∃ t s before, ⟨t, .newUlid, id⟩ :: before <:+ h ∧ (stage before).start = some (s, c)

omit [FloatArith F] [JsonText F] in
theorem Named.cons {h : List (EngineEvent F)} {id : String} {c : Nat} (named : Named h id c)
    (e : EngineEvent F) : Named (e :: h) id c := by
  obtain ⟨t, s, before, suffix, started⟩ := named
  exact ⟨t, s, before, suffix.trans (List.suffix_cons e h), started⟩

/-- What a call may ask for after the events `h`. -/
def Call.Allows (c : Call) (h : List (EngineEvent F)) : Request F → Prop
  | .persist (.putMemory item) => WritesBack h item
  | .persist (.putMemoryWithWop item _ _ _) => Named h item.id item.createdTimestamp
  | .persist (.untombstoneMemory id) => ∃ e ∈ h, ∃ m ∈ rowsRead e, m.id = id ∧ m.tombstone = false
  | .persist (.listChangedSinceScoped since ns) =>
      c = .consolidate ns ∧ (stage h).since = some since
  | .persist (.recordConsolidation _ start) =>
      c.Unscoped ∧ (stage h).changed.isSome ∧ ∃ t, (stage h).start = some (t, start)
  | .persist (.unmerge _) => False
  | _ => True

/-- What a call has done when it returns. -/
def Call.Leaves (c : Call) (h : List (EngineEvent F)) : Except MemoryError Unit → Prop
  | .ok _ => match c with
      | .deleteMemory id => ∃ t, (⟨t, .persist (.tombstoneMemory id), .ok ()⟩ : EngineEvent F) ∈ h
      | _ => True
  | .error _ => True

/-! ### Consolidation -/

/-- A run is past the reading of its change set. -/
def Underway (start : Nat) (changed : List (MemoryItem F)) (h : List (EngineEvent F)) : Prop :=
  (∃ t since, stage h = ⟨some (t, start), some since, some changed⟩) ∧
    ∃ e ∈ h, rowsRead e = changed

section Rules

omit [FloatArith F] [JsonText F]

variable {α β : Type} {P : List (EngineEvent F) → Request F → Prop} {h : List (EngineEvent F)}

theorem obeys_persistOrFail {Q : List (EngineEvent F) → Except MemoryError β → Prop}
    {op : PersistOp F} {k : op.Value → EngineM F β} (allowed : P h (.persist op))
    (fails : ∀ t e, Q (⟨t, .persist op, .error e⟩ :: h) (.error e.toMemory))
    (rest : ∀ t a, Program.Obeys P Q (⟨t, .persist op, .ok a⟩ :: h) (k a)) :
    Program.Obeys P Q h (persistOrFail op >>= k) := by
  refine ⟨allowed, fun t reply => ?_⟩
  cases reply with
  | error e => exact fails t e
  | ok a => exact rest t a

theorem obeys_withLock {l : Lock} (locks : ∀ h, P h (.acquire l) ∧ P h (.release l))
    {body : EngineM F α} (inside : ∀ t, Program.Obeys P (fun _ _ => True)
      (⟨t, .acquire l, ()⟩ :: h) body) : Program.Obeys P (fun _ _ => True) h (withLock l body) := by
  refine ⟨(locks h).1, fun t _ => ?_⟩
  change Program.Obeys P _ _ (body.attempt >>= fun result => _)
  refine Program.Obeys.bind (R := fun _ _ => True)
    (Program.Obeys.attempt (fun _ _ _ => trivial) (inside t)) fun h result _ => ?_
  refine ⟨(locks h).2, fun t _ => Program.Obeys.ofExcept trivial⟩

/-- A program that keeps `I`, in a call that may end as it likes. -/
theorem obeys_bind_keeps {I : List (EngineEvent F) → Prop} {p : EngineM F α}
    {k : α → EngineM F β} (first : Program.Obeys P (fun h _ => I h) h p)
    (rest : ∀ h a, I h → Program.Obeys P (fun _ _ => True) h (k a)) :
    Program.Obeys P (fun _ _ => True) h (p >>= k) := by
  refine Program.Obeys.bind (R := fun h _ => I h) (first.mono (fun _ _ allowed => allowed)
    fun h result kept => ?_) rest
  cases result with
  | ok a => exact kept
  | error e => trivial

theorem obeys_foldlM_keeps {I : List (EngineEvent F) → Prop} {γ : Type} {f : α → γ → EngineM F α}
    {xs : List γ} (step : ∀ x ∈ xs, ∀ h acc, I h → Program.Obeys P (fun h _ => I h) h (f acc x))
    {acc : α} (start : I h) : Program.Obeys P (fun h _ => I h) h (xs.foldlM f acc) := by
  refine (Program.Obeys.foldlM (I := fun h _ => I h) (E := fun h _ => I h) xs
    (fun x mem h acc inv => (step x mem h acc inv).mono (fun _ _ allowed => allowed)
      fun h result kept => ?_) start).mono (fun _ _ allowed => allowed) fun h result kept => ?_
  · cases result <;> exact kept
  · cases result <;> exact kept

end Rules

section Consolidate

variable {start : Nat} {changed : List (MemoryItem F)} {h : List (EngineEvent F)}

omit [FloatArith F] [JsonText F] in
theorem Underway.cons (underway : Underway start changed h) (e : EngineEvent F) :
    Underway start changed (e :: h) := by
  obtain ⟨⟨t, since, known⟩, e', mem, read⟩ := underway
  refine ⟨⟨t, since, ?_⟩, e', List.mem_cons_of_mem _ mem, read⟩
  rw [stage_cons, known, Stage.see_full]

omit [FloatArith F] [JsonText F] in
theorem Underway.first (underway : Underway start changed h) (c : Call) {r : Request F}
    (request : FirstRequest changed r) : c.Allows h r := by
  cases request with
  | raise listed =>
      obtain ⟨-, e, mem, rfl⟩ := underway
      exact ⟨e, mem, _, listed, rfl, rfl, rfl, rfl⟩
  | _ => trivial

omit [JsonText F] in
theorem Underway.merge (underway : Underway start changed h) (c : Call) {all : List (MemoryItem F)}
    {r : Request F} (request : MergeRequest all changed r) : c.Allows h r := by
  cases request with
  | revive listed semantic =>
      obtain ⟨-, e, mem, rfl⟩ := underway
      exact ⟨e, mem, _, listed, rfl, isSemantic_live semantic⟩
  | _ => trivial

omit [FloatArith F] [JsonText F] in
theorem Underway.late (underway : Underway start changed h) (c : Call) {eng : MemoryEngine}
    {r : Request F} (request : LateRequest eng changed r) : c.Allows h r := by
  cases request with
  | put entities able listed pending =>
      obtain ⟨-, e, mem, rfl⟩ := underway
      exact ⟨e, mem, _, listed, rfl, rfl, rfl, rfl⟩
  | _ => trivial

/-- A new row is stored under an id that the run was handed, with the start of the run. -/
theorem storeSummary_obeys (underway : Underway start changed h) (c : Call) (eng : MemoryEngine)
    (ns : NamespaceFilter) (items : List (MemoryItem F)) (session summary : String)
    (acc : Progress) : Program.Obeys c.Allows (fun h _ => Underway start changed h) h
      (storeSummary eng start ns items session summary acc) := by
  obtain ⟨t, since, known⟩ := underway.1
  refine ⟨trivial, fun t₁ id => ⟨trivial, fun t₂ reply => ?_⟩⟩
  have kept := (underway.cons ⟨t₁, .newUlid, id⟩).cons ⟨t₂, .embed summary, reply⟩
  have named : Named (⟨t₁, .newUlid, id⟩ :: h) id start :=
    ⟨t₁, t, h, List.suffix_refl _, congrArg Stage.start known⟩
  cases reply with
  | error e => exact kept
  | ok vec =>
      refine ⟨trivial, fun t₃ reply₃ => ?_⟩
      have kept₃ := kept.cons ⟨t₃, .store (.insertVector (vectorIdFromUlid id) vec), reply₃⟩
      cases reply₃ with
      | error e => exact kept₃
      | ok _ =>
          refine ⟨(named.cons _).cons _, fun t₅ reply₅ => ?_⟩
          cases reply₅ with
          | ok _ => exact kept₃.cons _
          | error e => exact ⟨trivial, fun _ _ => (kept₃.cons _).cons _⟩

theorem summarizeSession_obeys (underway : Underway start changed h) (c : Call)
    (eng : MemoryEngine) (ns : NamespaceFilter) (acc : Progress) (session : String) :
    Program.Obeys c.Allows (fun h _ => Underway start changed h) h
      (summarizeSession eng changed start ns acc session) := by
  unfold summarizeSession
  dsimp only
  split_ifs
  · exact underway
  · refine ⟨trivial, fun t reply => ?_⟩
    have kept := underway.cons
      ⟨t, .chatCompletion SUMMARY_PROMPT (joinContents (sessionGroup changed session)), reply⟩
    cases reply with
    | none => exact kept
    | some summary =>
        change Program.Obeys _ _ _ (if isBlank summary then _ else _)
        split_ifs
        · exact kept
        · exact storeSummary_obeys kept c eng ns _ session summary acc

theorem consolidateSummarize_obeys (underway : Underway start changed h) (c : Call)
    (eng : MemoryEngine) (failures : List ConsolidationFailure) (ns : NamespaceFilter) :
    Program.Obeys c.Allows (fun h _ => Underway start changed h) h
      (consolidateSummarize eng changed start failures ns) := by
  unfold consolidateSummarize
  split_ifs
  · refine ⟨trivial, fun t sessions => obeys_foldlM_keeps (fun session _ h acc underway => ?_)
      (underway.cons _)⟩
    exact summarizeSession_obeys underway c eng ns acc session
  · exact underway

omit [FloatArith F] [JsonText F] in
theorem recordRun_obeys (underway : Underway start changed h) {ns : NamespaceFilter} {c : Call}
    (unscoped : ns.isActive = false → c.Unscoped) (report : ConsolidationReport) :
    Program.Obeys c.Allows (fun _ _ => True) h (recordRun (F := F) ns report start) := by
  unfold recordRun
  split_ifs with active
  · refine obeys_foldlM_keeps (I := fun _ => True) (fun f _ h acc _ => ?_) trivial
    exact ⟨trivial, fun _ _ => trivial⟩
  · obtain ⟨⟨t, since, known⟩, -⟩ := underway
    refine ⟨⟨unscoped (by simpa using active), ?_, t, congrArg Stage.start known⟩, fun t reply => ?_⟩
    · rw [known]
      rfl
    · cases reply <;> trivial

/-- The phases of a run. -/
theorem consolidateChanged_obeys (underway : Underway start changed h) (eng : MemoryEngine)
    {ns : NamespaceFilter} {c : Call} (unscoped : ns.isActive = false → c.Unscoped) :
    Program.Obeys c.Allows (fun _ _ => True) h (consolidateChanged eng ns start changed) := by
  have stable : ∀ (h : List (EngineEvent F)) e, Underway start changed h →
      Underway start changed (e :: h) := fun _ e underway => underway.cons e
  unfold consolidateChanged
  refine obeys_bind_keeps (obeys_foldlM_keeps (fun m listed h acc underway => ?_) underway)
    fun h tally underway => ?_
  · exact Program.Obeys.ofOnly (only_recycleOrPromote start listed acc) stable
      (fun _ _ underway request => underway.first c request) underway
  unfold consolidateMerge
  rw [bind_assoc]
  refine obeys_persistOrFail trivial (fun _ _ => trivial) fun t all => ?_
  refine obeys_bind_keeps (obeys_foldlM_keeps (fun src mem h acc underway => ?_) (underway.cons _))
    fun h merged underway => ?_
  · obtain ⟨listed, semantic⟩ := List.mem_filter.mp mem
    exact Program.Obeys.ofOnly (only_mergeSource listed semantic acc) stable
      (fun _ _ underway request => underway.merge c request) underway
  unfold afterMerge
  refine obeys_bind_keeps (consolidateSummarize_obeys underway c eng _ ns)
    fun h summarized underway => ?_
  refine obeys_bind_keeps (Program.Obeys.ofOnly
    (only_lateProgram eng ns start changed tally merged summarized) stable
    (fun _ _ underway request => underway.late c request) underway) fun h report underway => ?_
  exact obeys_bind_keeps (recordRun_obeys underway unscoped report) fun h _ _ =>
    ⟨trivial, fun _ _ => trivial⟩

end Consolidate

theorem consolidateImpl_obeys (eng : MemoryEngine) (ns : NamespaceFilter) :
    Program.Obeys (Call.consolidate ns).Allows (fun _ _ => True) []
      (consolidateImpl (F := F) eng ns) := by
  rw [consolidateImpl_eq]
  refine obeys_withLock (fun h => ⟨trivial, trivial⟩) fun t₀ => ⟨trivial, fun t start => ?_⟩
  refine obeys_persistOrFail trivial (fun _ _ => trivial) fun t₁ since => ?_
  refine obeys_persistOrFail ⟨rfl, rfl⟩ (fun _ _ => trivial) fun t₂ changed => ?_
  refine consolidateChanged_obeys ?_ eng fun inactive => ⟨ns, rfl, inactive⟩
  exact ⟨⟨t, since, rfl⟩, _, List.mem_cons_self, rfl⟩

/-! ### The other calls -/

/-- The call has read the clock. -/
def Started (start : Nat × Nat) (h : List (EngineEvent F)) : Prop := (stage h).start = some start

omit [FloatArith F] [JsonText F] in
theorem Started.cons {start : Nat × Nat} {h : List (EngineEvent F)} (started : Started start h)
    (e : EngineEvent F) : Started start (e :: h) := Stage.see_start started e

omit [FloatArith F] [JsonText F] in
theorem extractAndAttach_obeys {c : Call} {start : Nat × Nat} (eng : MemoryEngine)
    (id content : String) {h : List (EngineEvent F)} (started : Started start h) :
    Program.Obeys c.Allows (fun h _ => Started start h) h
      (extractAndAttach eng id content) := by
  unfold extractAndAttach
  split_ifs
  · refine ⟨trivial, fun t extracted => ⟨trivial, fun t₁ found => ?_⟩⟩
    have kept := (started.cons ⟨t, .extract content, extracted⟩).cons
      ⟨t₁, .persist (.getMemory id), found⟩
    rcases found with e | (_ | item)
    · exact kept
    · exact kept
    · refine ⟨⟨_, List.mem_cons_self, item, ?_, rfl, rfl, rfl, rfl⟩, fun t₂ reply => ?_⟩
      · exact List.mem_singleton.mpr rfl
      · exact kept.cons _
  · exact started

theorem commitTurn_obeys (eng : MemoryEngine) (sessionId : String) (interaction : Interaction)
    {t now : Nat} (acc : CommitOutcome) (turn : Turn) (c : Call) {h : List (EngineEvent F)}
    (started : Started (t, now) h) :
    Program.Obeys c.Allows (fun h _ => Started (t, now) h) h
      (commitTurn eng sessionId interaction now acc turn) := by
  unfold commitTurn
  refine ⟨trivial, fun t₁ id => ⟨trivial, fun t₂ reply => ?_⟩⟩
  have kept := (started.cons ⟨t₁, .newUlid, id⟩).cons
    ⟨t₂, .embed (committedContent eng turn), reply⟩
  have named : Named (⟨t₁, .newUlid, id⟩ :: h) id now := ⟨t₁, t, h, List.suffix_refl _, started⟩
  cases reply with
  | error e => exact kept
  | ok vec =>
      refine ⟨trivial, fun t₃ reply₃ => ?_⟩
      have kept₃ := kept.cons
        ⟨t₃, .store (.insertVector (vectorIdFromUlid id) vec), reply₃⟩
      cases reply₃ with
      | error e => exact kept₃
      | ok _ =>
          refine ⟨(named.cons _).cons _, fun t₄ reply₄ => ?_⟩
          cases reply₄ with
          | ok _ =>
              change Program.Obeys _ _ _ (extractAndAttach eng id _ >>= fun _ => _)
              refine Program.Obeys.bind (R := fun h _ => Started (t, now) h) ?_ fun h _ kept => kept
              refine (extractAndAttach_obeys eng id _ (kept₃.cons _)).mono
                (fun _ _ allowed => allowed) fun h result kept => ?_
              cases result <;> exact kept
          | error e => exact ⟨trivial, fun t₅ reply₅ => (kept₃.cons _).cons _⟩

theorem commitInner_obeys (eng : MemoryEngine) (sessionId : String) (interaction : Interaction)
    (c : Call) : Program.Obeys c.Allows (fun _ _ => True) []
      (commitInner (F := F) eng sessionId interaction) := by
  refine ⟨trivial, fun t now => ?_⟩
  change Program.Obeys _ _ _ (interaction.turns.foldlM _ _ >>= fun outcome => _)
  have started : Started (t, now) [(⟨t, .nowMs, now⟩ : EngineEvent F)] := rfl
  refine obeys_bind_keeps (obeys_foldlM_keeps (fun turn _ h acc started => ?_) started)
    fun h outcome _ => ?_
  · exact commitTurn_obeys eng sessionId interaction acc turn c started
  · exact ⟨trivial, fun _ _ => trivial⟩

omit [FloatArith F] [JsonText F] in
theorem deleteMemory_obeys (id : String) : Program.Obeys (Call.deleteMemory id).Allows
    (Call.deleteMemory id).Leaves [] (FusionMemory.deleteMemory (F := F) id) := by
  unfold deleteMemory
  refine obeys_persistOrFail trivial (fun _ _ => trivial) fun t found => ?_
  have rest : ∀ h : List (EngineEvent F), Program.Obeys (Call.deleteMemory id).Allows
      (Call.deleteMemory id).Leaves h (do
        let _ ← persistOrFail (.tombstoneMemory id)
        let now ← nowMs
        let _ ← persistOrFail (.appendWop "delete" id now)
        let _ ← persist (.appendAudit now "delete" "delete" id "tombstone")
        return ()) := by
    intro h
    refine obeys_persistOrFail trivial (fun _ _ => trivial) fun t₁ _ => ⟨trivial, fun t₂ now => ?_⟩
    refine obeys_persistOrFail trivial (fun _ _ => trivial) fun t₃ _ => ⟨trivial, fun t₄ _ => ?_⟩
    refine ⟨t₁, List.mem_cons_of_mem _ (List.mem_cons_of_mem _ (List.mem_cons_of_mem _ ?_))⟩
    exact List.mem_cons_self
  cases found.bind fun item => parseU64 item.vectorRef with
  | none => exact rest _
  | some vecId =>
      refine ⟨trivial, fun t₁ reply => ?_⟩
      cases reply with
      | error e => trivial
      | ok _ => exact rest _

/-- A request that any call may make at any time. -/
def Request.Free (r : Request F) : Prop := ∀ (c : Call) h, c.Allows h r

section Retrieve

omit [JsonText F]

/-- What a retrieval asks for to find its hits. -/
inductive LookupRequest : Request F → Prop where
  | extract (text : String) : LookupRequest (.extract text)
  | embed (text : String) : LookupRequest (.embed text)
  | search (query : List F) (k : Nat) : LookupRequest (.store (.searchKnn query k))
  | rows (refs : List Nat) (tenant : String) (ns : NamespaceFilter) :
      LookupRequest (.persist (.getByVectorRefsTenantScoped refs tenant ns))
  | hops (start : String) (limit : Nat) : LookupRequest (.persist (.nHopReachable start limit))
  | interaction (id : String) : LookupRequest (.persist (.listByInteraction id))

omit [FloatArith F] in
theorem LookupRequest.free {r : Request F} (lookup : LookupRequest r) : r.Free := by
  intro c h
  cases lookup <;> trivial

omit [FloatArith F] in
theorem only_queryEntityIds (eng : MemoryEngine) (text : String) :
    Program.Only (LookupRequest (F := F)) (queryEntityIds eng text) := by
  unfold queryEntityIds
  split_ifs
  · exact Program.Only.bind (Program.Only.perform (.extract text)) fun _ => trivial
  · trivial

theorem only_graphAffinityFrom (candidateIds : List String) (hopLimit : Nat)
    (queryIds : List String) : ∀ best : F,
      Program.Only LookupRequest (graphAffinityFrom candidateIds hopLimit queryIds best) := by
  induction queryIds with
  | nil => exact fun _ => trivial
  | cons q rest ih =>
      intro best
      unfold graphAffinityFrom
      split_ifs
      · trivial
      · refine Program.Only.bind (only_persist (.hops q hopLimit)) fun reply =>
          Program.Only.bind (Program.Only.ofExcept _) fun reachable => ?_
        exact ih _

theorem only_scoreCandidate (cosine : F) (item : MemoryItem F) (queryEntityIds : List String)
    (now : Nat) :
    Program.Only LookupRequest (scoreCandidate cosine item queryEntityIds now) := by
  unfold scoreCandidate
  dsimp only
  split_ifs
  · trivial
  · refine Program.Only.bind ?_ fun graphAff => ?_
    · unfold graphAffinity
      split_ifs
      exact only_graphAffinityFrom _ _ _ _
    · trivial

theorem only_scoreHits (queryEntityIds : List String) (now : Nat) (hits : List (MemoryItem F × F)) :
    Program.Only LookupRequest (scoreHits queryEntityIds now hits) :=
  Program.Only.mapM _ fun _ _ => Program.Only.bind (only_scoreCandidate _ _ _ _) fun _ => trivial

theorem only_buildBlocks (scored : List (MemoryItem F × F)) :
    Program.Only LookupRequest (buildBlocks scored) :=
  Program.Only.mapM _ fun ix _ => Program.Only.bind (only_persistOrFail (.interaction ix)) fun _ =>
    trivial

omit [FloatArith F] in
theorem only_touch (touchedIds : List String) (now : Nat) :
    Program.Only (Request.Free (F := F)) (touch touchedIds now) := by
  unfold touch withLock
  split_ifs
  · trivial
  · refine Program.Only.bind (Program.Only.perform fun _ _ => trivial) fun _ => ?_
    refine Program.Only.bind (Program.Only.attempt (Program.Only.bind
      (only_persist fun _ _ => trivial) fun _ => trivial)) fun result => ?_
    exact Program.Only.bind (Program.Only.perform fun _ _ => trivial) fun _ =>
      Program.Only.ofExcept _

/-- What a retrieval finds: its scored hits, and their blocks. -/
def findHits (eng : MemoryEngine) (query : RetrieveQuery) (now : Nat) :
    EngineM F (List (MemoryItem F × F) × List (ContextBlock F)) := do
  let entityIds ← queryEntityIds eng query.text
  let embedded ← embed query.text
  let qvec ← Program.ofExcept embedded
  let knn : List (Nat × F) ← storeOrFail (.searchKnn qvec query.knnK)
  let hits : List (MemoryItem F) ← persistOrFail
    (.getByVectorRefsTenantScoped (knn.map Prod.fst) query.tenant query.nsFilter)
  let scored ← scoreHits entityIds now (matched query hits knn)
  let blocks ← buildBlocks scored
  return (scored, blocks)

/-- What it does with what it found. -/
def answerHits (query : RetrieveQuery) (now : Nat)
    (found : List (MemoryItem F × F) × List (ContextBlock F)) : EngineM F (FormattedContext F) := do
  let (kept, totalTokens) := takeBudget query.tokenBudget (rankBlocks found.2) 0 []
  touch (sortedGroupsTurnIds found.1 kept) now
  let detail := "blocks=" ++ toString kept.length ++ " tokens=" ++ toString totalTokens
  let _ ← persist (.appendAudit now "retrieve" "retrieve" (String.ofList (query.text.toList.take 64))
    detail)
  let staleRead ← loadStaleFlag
  let lastSyncAt ← loadLastSyncAt
  return { blocks := kept, totalTokens, staleRead, lastSyncAt }

theorem retrieveContext_eq (eng : MemoryEngine) (query : RetrieveQuery) :
    retrieveContext (F := F) eng query =
      (nowMs >>= fun now => findHits eng query now >>= answerHits query now) := by
  unfold retrieveContext findHits answerHits
  simp only [bind_assoc]
  rfl

theorem only_findHits (eng : MemoryEngine) (query : RetrieveQuery) (now : Nat) :
    Program.Only (LookupRequest (F := F)) (findHits eng query now) := by
  unfold findHits
  refine Program.Only.bind (only_queryEntityIds eng query.text) fun entityIds => ?_
  refine Program.Only.bind (Program.Only.bind (Program.Only.perform (.embed query.text)) fun _ =>
    trivial) fun embedded => ?_
  refine Program.Only.bind (Program.Only.ofExcept _) fun qvec => ?_
  refine Program.Only.bind (only_storeOrFail (.search _ _)) fun knn => ?_
  refine Program.Only.bind (only_persistOrFail (.rows _ _ _)) fun hits => ?_
  refine Program.Only.bind (only_scoreHits _ now _) fun scored => ?_
  exact Program.Only.bind (only_buildBlocks scored) fun _ => trivial

/-- A retrieval writes no row, access counts apart. -/
theorem only_retrieveContext (eng : MemoryEngine) (query : RetrieveQuery) :
    Program.Only (Request.Free (F := F)) (retrieveContext eng query) := by
  rw [retrieveContext_eq]
  refine Program.Only.bind (Program.Only.perform fun _ _ => trivial) fun now => ?_
  refine Program.Only.bind ((only_findHits eng query now).mono fun _ => LookupRequest.free)
    fun found => ?_
  unfold answerHits
  dsimp only
  refine Program.Only.bind (only_touch _ now) fun _ => ?_
  refine Program.Only.bind (only_persist fun _ _ => trivial) fun _ => ?_
  refine Program.Only.bind (Program.Only.perform fun _ _ => trivial) fun _ => ?_
  exact Program.Only.bind (Program.Only.perform fun _ _ => trivial) fun _ => trivial

end Retrieve

/-! ### Pools of calls -/

/-- Whatever the world answers, a call asks only for what it may, and returns as it should. -/
theorem Call.obeys (eng : MemoryEngine) (c : Call) :
    Program.Obeys c.Allows c.Leaves [] (c.program (F := F) eng) := by
  have dropped : ∀ {α : Type} {c : Call} {p : EngineM F α}, (∀ id, c ≠ .deleteMemory id) →
      Program.Obeys c.Allows (fun _ _ => True) [] p →
      Program.Obeys c.Allows c.Leaves [] (p >>= fun _ => pure ()) := by
    intro α c p other obeys
    refine Program.Obeys.bind (R := fun _ _ => True) (obeys.mono (fun _ _ allowed => allowed)
      fun h result _ => by cases result <;> trivial) fun h _ _ => ?_
    cases c with
    | deleteMemory id => exact absurd rfl (other id)
    | _ => trivial
  cases c with
  | deleteMemory id => exact deleteMemory_obeys id
  | commit sessionId interaction =>
      exact dropped (fun _ => by simp) (commitInner_obeys eng sessionId interaction _)
  | consolidate ns => exact dropped (fun _ => by simp) (consolidateImpl_obeys eng ns)
  | retrieve query =>
      exact dropped (fun _ => by simp) (Program.Obeys.ofOnly (I := fun _ => True)
        (only_retrieveContext eng query) (fun _ _ _ => trivial) (fun h _ _ free => free _ h) trivial)

/-- A pool of calls of one engine. -/
abbrev Calls (F : Type) := Pool (engineSignature F) MemoryError Unit (World F)

/-- The calls before any of them has begun. -/
def Calls.start (eng : MemoryEngine) (w : World F) (calls : List Call) : Calls F :=
  Pool.start w (calls.map (Call.program eng))

/-- What a thread may do, and how it may end, by the call it runs. -/
theorem Calls.keepsProtocol (eng : MemoryEngine) (w : World F) (calls : List Call) :
    Pool.KeepsProtocol (fun i h r => ∃ c, calls[i]? = some c ∧ c.Allows h r)
      (fun i h result => ∃ c, calls[i]? = some c ∧ c.Leaves h result) (Calls.start eng w calls) := by
  refine Pool.KeepsProtocol.start w fun i p listed => ?_
  rw [List.getElem?_map] at listed
  obtain ⟨c, found, rfl⟩ := Option.map_eq_some_iff.mp listed
  exact (Call.obeys eng c).mono (fun h r allowed => ⟨c, found, allowed⟩)
    fun h result left => ⟨c, found, left⟩

/-! ### What a step reads -/

omit [JsonText F] in
/-- A row that a step hands to its call is the row of its id. -/
theorem getMemory_rowsRead {w : World F} {t : Nat} {r : Request F} {m : MemoryItem F}
    (read : m ∈ rowsRead ⟨t, r, (w.exec r).1⟩) : w.db.getMemory m.id = some m := by
  cases r with
  | persist op =>
      change m ∈ rowsRead ⟨t, .persist op, (w.execPersist op).1⟩ at read
      cases reply : (w.execPersist op).1 with
      | error e =>
          rw [reply] at read
          cases op <;> cases read
      | ok a =>
          rw [reply] at read
          cases op with
          | getMemory id =>
              have found := World.execPersist_isRead_ok rfl reply
              change m ∈ a.toList at read
              obtain rfl := Option.mem_toList.mp read
              have stored : w.db.getMemory id = some m := Except.ok.inj found
              have key : m.id = id := Table.find?_key stored
              rwa [key]
          | listChangedSinceScoped since ns =>
              have found := World.execPersist_isRead_ok rfl reply
              exact Table.find?_of_mem ((Db.mem_listChangedSinceScoped found).mp read).1
          | _ => cases read
  | _ => cases read

end FusionMemory
