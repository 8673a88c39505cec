import FusionMemory.Engine.Consolidate

/-!
Retrieving context (`retrieve_context` of `fm-engine/src/engine.rs`,
`graph_affinity` of `fm-graph/src/affinity.rs`).

The vector hits are filtered, scored and grouped by interaction; each interaction
becomes a block of its first turns; blocks are ranked and cut to the token budget,
and the hits of the blocks that remain are touched.
-/

namespace FusionMemory

open Lib

variable {F : Type} [FloatArith F]

/-! ### Scoring -/

/-- The best affinity over the query entities, 1 as soon as one is a candidate. -/
def graphAffinityFrom (candidateIds : List String) (hopLimit : Nat) :
    List String → F → EngineM F F
  | [], best => pure best
  | q :: rest, best =>
      if candidateIds.contains q then pure (FloatArith.ofNat 1)
      else do
        let reply : Except PersistError (List (String × Nat)) ← persist (.nHopReachable q hopLimit)
        let reachable ← Program.ofExcept
          (reply.mapError fun e => MemoryError.store ("persist error: " ++ e.toString))
        let aff := affinityFromReachability [q] candidateIds reachable
        graphAffinityFrom candidateIds hopLimit rest (if FloatArith.lt best aff then aff else best)

def graphAffinity (queryIds candidateIds : List String) (hopLimit : Nat) : EngineM F F :=
  if queryIds.isEmpty || candidateIds.isEmpty then pure (FloatArith.ofNat 0)
  else graphAffinityFrom candidateIds (max 1 (min hopLimit GRAPH_HOP_LIMIT)) queryIds
    (FloatArith.ofNat 0)

def scoreCandidate (cosine : F) (item : MemoryItem F) (queryEntityIds : List String) (now : Nat) :
    EngineM F F := do
  let wT := freshnessOf item now
  let candIds := entityIds item.entities
  let graphAff ←
    if queryEntityIds.isEmpty || candIds.isEmpty then pure (FloatArith.ofNat 0)
    else graphAffinity queryEntityIds candIds GRAPH_HOP_LIMIT
  return fuseScore cosine wT graphAff

/-! ### Hits -/

def queryEntityIds (eng : MemoryEngine) (text : String) : EngineM F (List String) := do
  if eng.hasExtractor then
    let res ← extract text
    return if res.success && !res.entities.isEmpty then res.entities.map (·.id) else []
  else return []

/-- The filter a query's namespace stands for. -/
def RetrieveQuery.nsFilter (query : RetrieveQuery) : NamespaceFilter :=
  ⟨query.namespace, query.namespaceKey⟩

/-- `usize::MAX`, where `saturating_mul` stops. -/
def USIZE_MAX : Nat := u64Size - 1

def RetrieveQuery.knnK (query : RetrieveQuery) : Nat :=
  if query.nsFilter.isActive then min (query.topK * 4) USIZE_MAX else query.topK

def RetrieveQuery.passes (query : RetrieveQuery) (m : MemoryItem F) : Bool :=
  (match query.tierFilter with
    | some tiers => tiers.contains m.tier
    | none => true) &&
  (match query.sessionId with
    | some session => m.sessionId == session
    | none => true)

/-- The memories the neighbours stand for, with their similarity, in search order. -/
def matched (query : RetrieveQuery) (hits : List (MemoryItem F)) (knn : List (Nat × F)) :
    List (MemoryItem F × F) :=
  knn.filterMap fun hit =>
    ((byVecRef hits hit.1).filter query.passes).map fun m => (m, hit.2)

def scoreHits (queryEntityIds : List String) (now : Nat) (hits : List (MemoryItem F × F)) :
    EngineM F (List (MemoryItem F × F)) :=
  hits.mapM fun hit => do
    let score ← scoreCandidate hit.2 hit.1 queryEntityIds now
    return (hit.1, score)

/-! ### Blocks -/

/-- The keys of the interaction map, in order. -/
def interactionIds (scored : List (MemoryItem F × F)) : List String :=
  ((scored.map fun hit => hit.1.interactionId).dedup).insertionSort (· ≤ ·)

/-- The best score of an interaction's hits, and no less than 0. -/
def bestScore (scored : List (MemoryItem F × F)) (interactionId : String) : F :=
  (scored.filter fun hit => hit.1.interactionId == interactionId).foldl
    (fun best hit => if FloatArith.lt best hit.2 then hit.2 else best) (FloatArith.ofNat 0)

/-- The rows a block is assembled from: the interaction's first turns. -/
def blockRows (interactionRows : List (MemoryItem F)) : List (MemoryItem F) :=
  (orderBy (fun m => m.turnIdx) interactionRows).take AGG_MAX_TURNS

def assembleBlock (interactionId : String) (score : F) (rows : List (MemoryItem F)) :
    ContextBlock F where
  interactionId := interactionId
  turns := rows.map fun m => ⟨m.turnIdx, m.content, "", []⟩
  memoryType := (rows.head?.map (·.memoryType)).getD .episodic
  turnsText := joinContents rows
  score := score
  sourceEntities := rows.flatMap fun m => m.entities.map (·.id)

def buildBlocks (scored : List (MemoryItem F × F)) : EngineM F (List (ContextBlock F)) :=
  (interactionIds scored).mapM fun ix => do
    let rows : List (MemoryItem F) ← persistOrFail (.listByInteraction ix)
    return assembleBlock ix (bestScore scored ix) (blockRows rows)

def rankBlocks (blocks : List (ContextBlock F)) : List (ContextBlock F) :=
  blocks.insertionSort fun a b => FloatArith.descending a.score b.score

/-- A rough count: 0.3 tokens for each byte. -/
def blockTokens (block : ContextBlock F) : Nat :=
  FloatArith.truncate
    (FloatArith.mul (FloatArith.ofNat block.turnsText.utf8ByteSize) (FloatArith.literal 3 1 : F))

/-- Keep blocks while they fit the budget; the first one is always kept. -/
def takeBudget (tokenBudget : Nat) :
    List (ContextBlock F) → Nat → List (ContextBlock F) → List (ContextBlock F) × Nat
  | [], total, kept => (kept, total)
  | block :: rest, total, kept =>
      if total + blockTokens block > tokenBudget && !kept.isEmpty then (kept, total)
      else takeBudget tokenBudget rest (total + blockTokens block) (kept ++ [block])

/-- `sorted_groups_turn_ids`: the hits of the kept blocks. -/
def sortedGroupsTurnIds (scored : List (MemoryItem F × F)) (kept : List (ContextBlock F)) :
    List String :=
  kept.flatMap fun block =>
    (scored.filter fun hit => hit.1.interactionId == block.interactionId).map fun hit => hit.1.id

/-! ### The query -/

/-- Count one access of each memory, under the touch lock. -/
def touch (touchedIds : List String) (now : Nat) : EngineM F Unit := do
  if touchedIds.isEmpty then return ()
  else withLock .touch do
    let _ ← persist (.touchAccessBatch touchedIds now)
    return ()

def retrieveContext (eng : MemoryEngine) (query : RetrieveQuery) :
    EngineM F (FormattedContext F) := do
  let now ← nowMs
  let entityIds ← queryEntityIds eng query.text
  let embedded ← embed query.text
  let qvec ← Program.ofExcept embedded
  let knn : List (Nat × F) ← storeOrFail (.searchKnn qvec query.knnK)
  let hits : List (MemoryItem F) ← persistOrFail
    (.getByVectorRefsTenantScoped (knn.map Prod.fst) query.tenant query.nsFilter)
  let scored ← scoreHits entityIds now (matched query hits knn)
  let blocks ← buildBlocks scored
  let (kept, totalTokens) := takeBudget query.tokenBudget (rankBlocks blocks) 0 []
  touch (sortedGroupsTurnIds scored kept) now
  let detail := "blocks=" ++ toString kept.length ++ " tokens=" ++ toString totalTokens
  let _ ← persist (.appendAudit now "retrieve" "retrieve" (String.ofList (query.text.toList.take 64))
    detail)
  let staleRead ← loadStaleFlag
  let lastSyncAt ← loadLastSyncAt
  return { blocks := kept, totalTokens, staleRead, lastSyncAt }

end FusionMemory
