import FusionMemory.Core.Codec
import FusionMemory.Engine.Environment

/-!
Committing an interaction (`commit_inner` and `extract_and_attach` of
`fm-engine/src/engine.rs`).

The turns are committed one after the other: embed, insert the vector, write the
row with its log entry, then attach the extracted entities. A turn that fails is
reported and the next one follows.
-/

namespace FusionMemory

open Lib

/-! ### Identifiers and text -/

/-- FNV-1a, 64 bits. -/
def fnv1a64 (data : List UInt8) : Nat :=
  data.foldl (fun h b => (h ^^^ b.toNat) * 0x100000001b3 % u64Size) 0xcbf29ce484222325

/-- `vector_id_from_ulid` of `fm-embed`. -/
def vectorIdFromUlid (ulid : String) : Nat := fnv1a64 ulid.toUTF8.toList

theorem fnv1a64_lt (data : List UInt8) : fnv1a64 data < u64Size := by
  suffices bounded : ∀ h < u64Size,
      data.foldl (fun h b => (h ^^^ b.toNat) * 0x100000001b3 % u64Size) h < u64Size from
    bounded _ (by decide)
  induction data with
  | nil => exact fun h small => small
  | cons b rest ih => exact fun h _ => ih _ (Nat.mod_lt _ (by decide))

theorem vectorIdFromUlid_lt (ulid : String) : vectorIdFromUlid ulid < u64Size := fnv1a64_lt _

def turnContent (turn : Turn) : String :=
  turn.toolCalls.foldl (fun s tc => s ++ "\n" ++ tc.name ++ ":" ++ tc.resultSummary)
    (turn.userMessage ++ "\n" ++ turn.assistantMessage)

variable {F : Type} [FloatArith F] [JsonText F]

/-! ### Entities -/

/-- Extract the entities of a committed memory and write them back. A failed
extraction leaves the memory pending. -/
def extractAndAttach (eng : MemoryEngine) (memoryId content : String) : EngineM F Unit := do
  if eng.hasExtractor then
    let extracted ← extract content
    let found : Except PersistError (Option (MemoryItem F)) ← persist (.getMemory memoryId)
    match found with
    | .error _ => return ()
    | .ok none => return ()
    | .ok (some item) =>
        let _ ← persist (.putMemory
          { item with entities := extracted.entities, entitiesPending := !extracted.success })
        return ()
  else return ()

/-! ### Turns -/

/-- The row of a turn before its vector is known. -/
def turnItem (sessionId : String) (interaction : Interaction) (now : Nat) (turn : Turn)
    (id content : String) : MemoryItem F :=
  (MemoryItem.newTurnSkeleton id interaction.id turn.turnIdx sessionId interaction.tenant .episodic
    content now).withNamespace interaction.namespace interaction.namespaceKey

/-- The content that is embedded, stored and logged. -/
def committedContent (eng : MemoryEngine) (turn : Turn) : String :=
  match eng.redact with
  | some redactText => redactText (turnContent turn)
  | none => turnContent turn

def CommitOutcome.fail (acc : CommitOutcome) (turn : Turn) (stage : String) (e : MemoryError) :
    CommitOutcome :=
  { acc with failedTurns := acc.failedTurns ++ [⟨turn.turnIdx, stage, e.toString⟩] }

def commitTurn (eng : MemoryEngine) (sessionId : String) (interaction : Interaction) (now : Nat)
    (acc : CommitOutcome) (turn : Turn) : EngineM F CommitOutcome := do
  let id ← newUlid
  let content := committedContent eng turn
  let vecId := vectorIdFromUlid id
  match ← embed content with
  | .error e => return acc.fail turn "embed" e
  | .ok vec =>
      match ← store (.insertVector vecId vec) with
      | .error e => return acc.fail turn "insert_vector" e
      | .ok _ =>
          let item : MemoryItem F :=
            { turnItem sessionId interaction now turn id content with
              vectorRef := toString vecId, entitiesPending := true }
          let wopPayload := JsonText.print (CommitEnvelope.mk item (some vec)).toJson
          match ← persist (.putMemoryWithWop item "commit" wopPayload now) with
          | .error e =>
              -- The row is missing, so its vector must not stay behind.
              let _ ← store (.deleteVector vecId)
              return acc.fail turn "persist" e.toMemory
          | .ok _ =>
              extractAndAttach eng id content
              return { acc with memoryIds := acc.memoryIds ++ [id] }

def commitInner (eng : MemoryEngine) (sessionId : String) (interaction : Interaction) :
    EngineM F CommitOutcome := do
  let now ← nowMs
  let outcome ← interaction.turns.foldlM (commitTurn eng sessionId interaction now) ⟨[], []⟩
  let detail := "turns=" ++ toString interaction.turns.length ++
    " committed=" ++ toString outcome.memoryIds.length ++
    " failed=" ++ toString outcome.failedTurns.length
  let _ ← persist (.appendAudit now sessionId "commit" interaction.id detail)
  return outcome

end FusionMemory
