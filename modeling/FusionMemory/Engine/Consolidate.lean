import FusionMemory.Core.Codec
import FusionMemory.Engine.Commit
import FusionMemory.Engine.Scoring

/-!
The consolidation saga (`consolidate_impl` and its steps in
`fm-engine/src/engine.rs`).

A run reads its start time, the watermark of the last run and the change set, and
then goes through five phases over that one snapshot: recycle and promote, merge,
summarize, re-extract, reconcile.
-/

namespace FusionMemory

open Lib

variable {F : Type} [FloatArith F] [JsonText F]

def AGG_MAX_TURNS : Nat := 20
def MERGE_SIM_THRESHOLD : F := FloatArith.literal 92 2
def MERGE_KNN : Nat := 5
def SUMMARIZE_MIN_EPISODIC : Nat := 3

/-- The count of a phase, and the failures of the run so far. -/
structure Progress where
  count : Nat
  failures : List ConsolidationFailure
deriving DecidableEq, Repr

namespace Progress

def fail (p : Progress) (memoryId stage error : String) : Progress :=
  { p with failures := p.failures ++ [⟨memoryId, stage, error⟩] }

def succeed (p : Progress) : Progress := { p with count := p.count + 1 }

end Progress

/-! ### Phase 1: recycle and promote -/

structure Tally where
  dropped : Nat
  promoted : Nat
  failures : List ConsolidationFailure
deriving DecidableEq, Repr

def Tally.fail (t : Tally) (memoryId stage error : String) : Tally :=
  { t with failures := t.failures ++ [⟨memoryId, stage, error⟩] }

/-- The vector of a forgotten memory goes. -/
def recycleVector (acc : Tally) (m : MemoryItem F) : EngineM F Tally :=
  match parseU64 m.vectorRef with
  | none => pure acc
  | some vr => do
      match ← store (.deleteVector vr) with
      | .error e => return acc.fail m.id "recycle" e.toString
      | .ok _ => return acc

/-- Its row is tombstoned. -/
def recycleRow (acc : Tally) (m : MemoryItem F) : EngineM F Tally := do
  match ← persist (.tombstoneMemory m.id) with
  | .error e => return acc.fail m.id "recycle" e.toString
  | .ok _ => return acc

/-- A forgotten memory loses its vector and is tombstoned; each failure is noted
and the next write is still tried. -/
def recycle (now : Nat) (acc : Tally) (m : MemoryItem F) : EngineM F Tally := do
  let acc ← recycleVector acc m
  let acc ← recycleRow acc m
  let _ ← persist (.appendWop "recycle" m.id now)
  return { acc with dropped := acc.dropped + 1 }

def promoted (m : MemoryItem F) : MemoryItem F := { m with tier := .long }

def promote (now : Nat) (acc : Tally) (m : MemoryItem F) : EngineM F Tally := do
  match ← persist (.putMemory (promoted m)) with
  | .error e => return acc.fail m.id "promote" e.toString
  | .ok _ =>
      let _ ← persist (.appendWop "promote" (m.id ++ "\tLong") now)
      return { acc with promoted := acc.promoted + 1 }

def mayPromote (m : MemoryItem F) (now : Nat) : Bool :=
  decide (m.tier = .short) && shouldPromote m now

def recycleOrPromote (now : Nat) (acc : Tally) (m : MemoryItem F) : EngineM F Tally :=
  if shouldRecycle m now then recycle now acc m
  else if mayPromote m now then promote now acc m
  else pure acc

/-! ### Phase 2: merge -/

/-- The memory of a vector: the last one of the list, as a map built in its order. -/
def byVecRef (all : List (MemoryItem F)) (vid : Nat) : Option (MemoryItem F) :=
  (all.filter fun m => parseU64 m.vectorRef == some vid).getLast?

def sharesEntity (src tgt : MemoryItem F) : Bool :=
  src.entities.any fun e => tgt.entities.any fun t => t.id == e.id

def MERGE_REASON : String := "ann-sim+shared-entity"

/-- The target a neighbour stands for, if `src` may be merged into it. -/
def mergeTarget (all : List (MemoryItem F)) (src : MemoryItem F) (vr : Nat) (hit : Nat × F) :
    Option (MemoryItem F) :=
  if FloatArith.lt hit.2 MERGE_SIM_THRESHOLD || hit.1 == vr then none
  else (byVecRef all hit.1).filter fun tgt =>
    !tgt.tombstone && tgt.id != src.id && sharesEntity src tgt

/-- Merge `src` into the first neighbour that qualifies. A merge that cannot be
recorded is undone: the source is revived and its vector reinserted. -/
def mergeInto (all : List (MemoryItem F)) («at» : Nat) (src : MemoryItem F) (vr : Nat)
    (vec : List F) : List (Nat × F) → Progress → EngineM F Progress
  | [], acc => pure acc
  | hit :: rest, acc =>
      match mergeTarget all src vr hit with
      | none => mergeInto all «at» src vr vec rest acc
      | some tgt => do
          match ← persist (.tombstoneMemory src.id) with
          | .error e => mergeInto all «at» src vr vec rest (acc.fail src.id "merge" e.toString)
          | .ok _ =>
              let _ ← store (.deleteVector vr)
              match ← persist (.recordMerge src.id tgt.id MERGE_REASON «at») with
              | .error e =>
                  let _ ← persist (.untombstoneMemory src.id)
                  let _ ← store (.insertVector vr vec)
                  return acc.fail src.id "merge-log" e.toString
              | .ok _ =>
                  let payload := src.id ++ "\t" ++ tgt.id ++ "\t" ++ MERGE_REASON ++ "\t" ++
                    toString «at»
                  let _ ← persist (.appendWop "merge" payload «at»)
                  return acc.succeed

def mergeSource (all : List (MemoryItem F)) («at» : Nat) (acc : Progress) (src : MemoryItem F) :
    EngineM F Progress :=
  if src.tombstone then pure acc
  else match parseU64 src.vectorRef with
    | none => pure acc
    | some vr => do
        let found : Except MemoryError (Option (List F)) ← store (.getVector vr)
        match found with
        | .ok (some vec) =>
            let knn : List (Nat × F) ← storeOrFail (.searchKnn vec MERGE_KNN)
            mergeInto all «at» src vr vec knn acc
        | _ => return acc

def isSemantic (m : MemoryItem F) : Bool := decide (m.memoryType = .semantic) && !m.tombstone

def consolidateMerge (eng : MemoryEngine) (changed : List (MemoryItem F)) («at» : Nat)
    (failures : List ConsolidationFailure) (ns : NamespaceFilter) : EngineM F Progress := do
  let all : List (MemoryItem F) ← persistOrFail (.listAllByTenantScoped eng.tenant ns)
  (changed.filter isSemantic).foldlM (mergeSource all «at») ⟨0, failures⟩

/-! ### Phase 3: summarize -/

def isEpisodic (m : MemoryItem F) : Bool := decide (m.memoryType = .episodic) && !m.tombstone

/-- The keys of the session map. -/
def sessionKeys (changed : List (MemoryItem F)) : List String :=
  ((changed.filter isEpisodic).map (·.sessionId)).dedup

/-- The value of the session map at a key. -/
def sessionGroup (changed : List (MemoryItem F)) (session : String) : List (MemoryItem F) :=
  changed.filter fun m => isEpisodic m && m.sessionId == session

def SUMMARY_PROMPT : String := "你是记忆摘要器, 把多轮对话压缩成一条简洁事实陈述, 不加额外信息。"

def joinContents (items : List (MemoryItem F)) : String :=
  "\n---\n".intercalate (items.map (·.content))

/-- A scoped run stamps its own scope on the summary, an unscoped one that of the
first source. -/
def summaryNamespace (ns : NamespaceFilter) (items : List (MemoryItem F)) : String × String :=
  if ns.isActive then (ns.namespace, ns.key)
  else match items.head? with
    | some m => (m.namespace, m.namespaceKey)
    | none => ("", "")

def summaryItem (eng : MemoryEngine) (ns : NamespaceFilter) (items : List (MemoryItem F))
    (session summary id : String) («at» : Nat) : MemoryItem F :=
  { (MemoryItem.newTurnSkeleton id ("summary-" ++ session) 0 session eng.tenant .semantic summary
      «at»).withNamespace (summaryNamespace ns items).1 (summaryNamespace ns items).2 with
    vectorRef := toString (vectorIdFromUlid id), tier := .long, entitiesPending := true }

/-- Store a summary of `items` under a new id. -/
def storeSummary (eng : MemoryEngine) («at» : Nat) (ns : NamespaceFilter)
    (items : List (MemoryItem F)) (session summary : String) (acc : Progress) :
    EngineM F Progress := do
  let id ← newUlid
  let embedded ← embed summary
  let vec ← Program.ofExcept embedded
  let vecId := vectorIdFromUlid id
  let _ ← storeOrFail (.insertVector vecId vec)
  let item := summaryItem eng ns items session summary id «at»
  let wopPayload := JsonText.print (CommitEnvelope.mk item (some vec)).toJson
  match ← persist (.putMemoryWithWop item "summarize" wopPayload «at») with
  | .error e =>
      let _ ← store (.deleteVector vecId)
      return acc.fail id "summarize" e.toString
  | .ok _ => return acc.succeed

def summarizeSession (eng : MemoryEngine) (changed : List (MemoryItem F)) («at» : Nat)
    (ns : NamespaceFilter) (acc : Progress) (session : String) : EngineM F Progress :=
  let items := sessionGroup changed session
  if items.length < SUMMARIZE_MIN_EPISODIC then pure acc
  else do
    match ← chatCompletion SUMMARY_PROMPT (joinContents items) with
    | none =>
        return acc.fail ("summary-" ++ session) "summarize"
          "mlx chat_completion failed (network/non-2xx/parse)"
    | some summary =>
        if isBlank summary then
          return acc.fail ("summary-" ++ session) "summarize" "mlx returned empty summary content"
        else storeSummary eng «at» ns items session summary acc

def consolidateSummarize (eng : MemoryEngine) (changed : List (MemoryItem F)) («at» : Nat)
    (failures : List ConsolidationFailure) (ns : NamespaceFilter) : EngineM F Progress := do
  if eng.hasExtractConfig then
    let sessions ← iterationOrder (sessionKeys changed)
    sessions.foldlM (summarizeSession eng changed «at» ns) ⟨0, failures⟩
  else return ⟨0, failures⟩

/-! ### Phase 4: re-extract -/

/-- The row that re-extraction writes: the snapshot with the new entities. -/
def reextracted (m : MemoryItem F) (entities : List EntityNode) : MemoryItem F :=
  { m with entities := entities, entitiesPending := false }

def reextract (eng : MemoryEngine) (now : Nat) (acc : Progress) (m : MemoryItem F) :
    EngineM F Progress := do
  if m.entitiesPending && eng.hasExtractor then
    let extracted ← extract m.content
    if extracted.success then
      let item := reextracted m extracted.entities
      match ← persist (.putMemory item) with
      | .error e => return acc.fail m.id "reextract" e.toString
      | .ok _ =>
          let _ ← persist (.appendWop "reextract" (JsonText.print item.toJson) now)
          return acc.succeed
    else return acc
  else return acc

/-! ### Phase 5: reconcile -/

/-- Look up the vector of a row: the row's reference joins `refs`, and a reference
that is dangling or not a number is reported. -/
def checkRef («at» : Nat) (refs : List Nat) (m : MemoryItem F) : EngineM F (List Nat) :=
  match parseU64 m.vectorRef with
  | some vr => do
      let found : Except MemoryError (Option (List F)) ← store (.getVector vr)
      match found with
      | .ok (some _) => return refs ++ [vr]
      | _ =>
          let _ ← persist (.appendReconcile «at» m.id "dangling-vector"
            "sqlite has ref, store missing")
          return refs ++ [vr]
  | none => do
      let _ ← persist (.appendReconcile «at» m.id "bad-vector-ref"
        "vector_ref not u64, cannot check store")
      return refs

/-- Delete a vector that no listed row refers to. -/
def cleanOrphan («at» : Nat) (refs : List Nat) (_ : Unit) (vid : Nat) : EngineM F Unit :=
  if refs.contains vid then pure ()
  else do
    let _ ← persist (.appendReconcile «at» ("orphan-vec-" ++ toString vid) "orphan-vector"
      "store has vector, sqlite missing metadata")
    let _ ← store (.deleteVector vid)
    return ()

/-- The scan of the store for vectors without a row. A store that cannot be listed is
taken for an empty one. -/
def cleanOrphans («at» : Nat) (refs : List Nat) : EngineM F Unit := do
  let listed : Except MemoryError (List Nat) ← store .listVectorIds
  (listed.toOption.getD []).foldlM (cleanOrphan «at» refs) ()

/-- Delete a tombstoned row for good, unless a merge may still be undone. -/
def purgeTombstone («at» : Nat) (mergeSources : List String) (acc : Progress) (t : MemoryItem F) :
    EngineM F Progress :=
  if mergeSources.contains t.id then pure acc
  else match parseU64 t.vectorRef with
    | none => do
        let _ ← persist (.appendReconcile «at» t.id "bad-vector-ref"
          "tombstone vector_ref not u64, ghost vector may remain")
        return acc
    | some vr => do
        match ← store (.deleteVector vr) with
        | .error _ => return acc
        | .ok _ =>
            match ← persist (.physicalDelete t.id) with
            | .error e => return acc.fail t.id "reconcile-physical-delete" e.toString
            | .ok _ => return acc.succeed

/-- The purge of tombstoned rows. A merge log that cannot be read is taken for an
empty one. -/
def purgeTombstones («at» : Nat) (failures : List ConsolidationFailure) : EngineM F Progress := do
  let logged : Except PersistError (List MergeLogEntry) ← persist .listMergeLog
  let mergeSources := (logged.toOption.getD []).map (·.sourceId)
  let tombs : List (MemoryItem F) ← persistOrFail .listTombstoned
  tombs.foldlM (purgeTombstone «at» mergeSources) ⟨0, failures⟩

def consolidateReconcile (eng : MemoryEngine) («at» : Nat) (failures : List ConsolidationFailure)
    (ns : NamespaceFilter) : EngineM F Progress := do
  let sqliteAll : List (MemoryItem F) ← persistOrFail (.listAllByTenantScoped eng.tenant ns)
  let sqliteVecRefs ← sqliteAll.foldlM (checkRef «at») []
  cleanOrphans «at» sqliteVecRefs
  purgeTombstones «at» failures

/-! ### The run -/

def consolidationDetail (r : ConsolidationReport) : String :=
  "dropped=" ++ toString r.dropped ++ " promoted=" ++ toString r.promoted ++
    " merged=" ++ toString r.merged ++ " summarized=" ++ toString r.summarized ++
    " reextracted=" ++ toString r.reextracted ++ " reconciled=" ++ toString r.reconciled ++
    " failures=" ++ toString r.failures.length

/-- The log of the run: a scoped run must not move the global watermark. -/
def recordRun (ns : NamespaceFilter) (report : ConsolidationReport) (start : Nat) :
    EngineM F Unit := do
  if ns.isActive then
    report.failures.foldlM (fun _ f => do
      let _ ← persist (.appendReconcile start f.memoryId f.stage f.error)
      return ()) ()
  else
    let _ ← persistOrFail (.recordConsolidation report start)
    return ()

/-- The five phases over a change set. -/
def consolidatePhases (eng : MemoryEngine) (ns : NamespaceFilter) (start : Nat)
    (changed : List (MemoryItem F)) : EngineM F ConsolidationReport := do
  let tally ← changed.foldlM (recycleOrPromote start) ⟨0, 0, []⟩
  let merged ← consolidateMerge eng changed start tally.failures ns
  let summarized ← consolidateSummarize eng changed start merged.failures ns
  let reextracted ← changed.foldlM (reextract eng start) ⟨0, summarized.failures⟩
  let reconciled ← consolidateReconcile eng start reextracted.failures ns
  let finish ← nowMs
  return { dropped := tally.dropped, promoted := tally.promoted, merged := merged.count,
           summarized := summarized.count, reextracted := reextracted.count,
           reconciled := reconciled.count, elapsedMs := finish - start,
           failures := reconciled.failures }

def consolidateImpl (eng : MemoryEngine) (ns : NamespaceFilter) :
    EngineM F ConsolidationReport :=
  withLock .consolidate do
    let start ← nowMs
    let since : Nat ← persistOrFail .lastConsolidateAt
    let changed : List (MemoryItem F) ← persistOrFail (.listChangedSinceScoped since ns)
    let report ← consolidatePhases eng ns start changed
    recordRun ns report start
    let _ ← persist (.appendAudit start "system" "consolidate" "saga" (consolidationDetail report))
    return report

def consolidateMemories (eng : MemoryEngine) : EngineM F ConsolidationReport :=
  consolidateImpl eng .default

def consolidateMemoriesScoped (eng : MemoryEngine) («namespace» namespaceKey : String) :
    EngineM F ConsolidationReport :=
  consolidateImpl eng ⟨«namespace», namespaceKey⟩

def reconcile (eng : MemoryEngine) : EngineM F Nat := do
  let now ← nowMs
  let progress ← consolidateReconcile eng now [] .default
  return progress.count

end FusionMemory
