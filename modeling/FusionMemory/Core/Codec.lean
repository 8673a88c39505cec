import FusionMemory.Lib.Json
import FusionMemory.Core.Memory

/-!
The derived serializers of the data model.

`toJson` writes a struct as serde does, with the field names of the Rust structs;
`fromJson` reads it back. `namespace` and `namespace_key` default to the empty
string when absent, which is how items of older versions are read.
-/

namespace FusionMemory

open Lib

variable {F : Type} [FloatArith F]

namespace MemoryType

def fromJson (j : Json F) : Option MemoryType := j.asVariant.bind parse

end MemoryType

namespace MemoryTier

def fromJson (j : Json F) : Option MemoryTier := j.asVariant.bind ofName

end MemoryTier

namespace EntityType

def fromJson (j : Json F) : Option EntityType := j.asVariant.bind parse

end EntityType

namespace EntityNode

def toJson (e : EntityNode) : Json F :=
  .obj [("id", .str e.id), ("name", .str e.name), ("aliases", .arr (e.aliases.map .str)),
    ("entity_type", .str e.entityType.asStr)]

def fromJson (j : Json F) : Option EntityNode := do
  let id ← j.required 4 0 "id" Json.asString
  let name ← j.required 4 1 "name" Json.asString
  let aliases ← j.required 4 2 "aliases" (Json.asList Json.asString)
  let entityType ← j.required 4 3 "entity_type" EntityType.fromJson
  return { id, name, aliases, entityType }

theorem fromJson_toJson (f : FiniteFloat F → FiniteFloat F) (e : EntityNode) :
    fromJson ((e.toJson : Json F).mapFloat f) = some e := by
  have aliases : Json.asList Json.asString
      (.arr (e.aliases.map (Json.mapFloat f ∘ Json.str))) = some e.aliases :=
    Json.asList_map fun _ _ => rfl
  have entityType : EntityType.fromJson (.str e.entityType.asStr : Json F) = some e.entityType :=
    EntityType.parse_asStr e.entityType
  simp [toJson, fromJson, Json.mapFloat, Json.required, Json.field, aliases, entityType,
    Json.asString]

end EntityNode

namespace MemoryItem

def toJson (m : MemoryItem F) : Json F :=
  .obj [("id", .str m.id), ("interaction_id", .str m.interactionId),
    ("turn_idx", .ofNat m.turnIdx), ("session_id", .str m.sessionId), ("tenant", .str m.tenant),
    ("namespace", .str m.namespace), ("namespace_key", .str m.namespaceKey),
    ("memory_type", .str m.memoryType.asStr), ("tier", .str m.tier.name),
    ("content", .str m.content), ("entities", .arr (m.entities.map EntityNode.toJson)),
    ("vector_ref", .str m.vectorRef), ("weight", .ofFloat m.weight),
    ("access_count", .ofNat m.accessCount),
    ("last_accessed_timestamp", .ofNat m.lastAccessedTimestamp),
    ("created_timestamp", .ofNat m.createdTimestamp),
    ("provenance", .ofOption .str m.provenance), ("tombstone", .bool m.tombstone),
    ("entities_pending", .bool m.entitiesPending)]

def fromJson (j : Json F) : Option (MemoryItem F) := do
  let id ← j.required 19 0 "id" Json.asString
  let interactionId ← j.required 19 1 "interaction_id" Json.asString
  let turnIdx ← j.required 19 2 "turn_idx" (Json.asUnsigned 32)
  let sessionId ← j.required 19 3 "session_id" Json.asString
  let tenant ← j.required 19 4 "tenant" Json.asString
  let ns ← j.defaulted 19 5 "namespace" "" Json.asString
  let namespaceKey ← j.defaulted 19 6 "namespace_key" "" Json.asString
  let memoryType ← j.required 19 7 "memory_type" MemoryType.fromJson
  let tier ← j.required 19 8 "tier" MemoryTier.fromJson
  let content ← j.required 19 9 "content" Json.asString
  let entities ← j.required 19 10 "entities" (Json.asList EntityNode.fromJson)
  let vectorRef ← j.required 19 11 "vector_ref" Json.asString
  let weight ← j.required 19 12 "weight" Json.asFloat
  let accessCount ← j.required 19 13 "access_count" (Json.asUnsigned 64)
  let lastAccessedTimestamp ← j.required 19 14 "last_accessed_timestamp" (Json.asUnsigned 64)
  let createdTimestamp ← j.required 19 15 "created_timestamp" (Json.asUnsigned 64)
  let provenance ← j.defaulted 19 16 "provenance" none (Json.asOption Json.asString)
  let tombstone ← j.required 19 17 "tombstone" Json.asBool
  let entitiesPending ← j.required 19 18 "entities_pending" Json.asBool
  return { id, interactionId, turnIdx, sessionId, tenant, «namespace» := ns, namespaceKey,
           memoryType, tier, content, entities, vectorRef, weight, accessCount,
           lastAccessedTimestamp, createdTimestamp, provenance, tombstone, entitiesPending }

/-- The counters are in the range of their types. -/
structure Sized (m : MemoryItem F) : Prop where
  turnIdx : m.turnIdx < 2 ^ 32
  accessCount : m.accessCount < 2 ^ 64
  lastAccessedTimestamp : m.lastAccessedTimestamp < 2 ^ 64
  createdTimestamp : m.createdTimestamp < 2 ^ 64

/-- The fields that items of older versions do not have. -/
def laterFields : List String := ["tenant", "namespace", "namespace_key"]

section Kept

variable (m : MemoryItem F) (absent : List String) (f : FiniteFloat F → FiniteFloat F)

/-- The fields of an item that are not absent, as they are read. -/
def kept : List (String × Json F) :=
  (m.toJson.fields.filter fun p => !absent.contains p.1).map fun p => (p.1, p.2.mapFloat f)

theorem without_mapFloat : (m.toJson.without absent).mapFloat f = .obj (m.kept absent f) := by
  simp [Json.without, Json.mapFloat, kept]

theorem kept_names : (m.kept absent f).map Prod.fst =
    (m.toJson.fields.map Prod.fst).filter fun name => !absent.contains name := by
  rw [kept, List.map_map, List.filter_map]
  rfl

theorem kept_distinct : ((m.kept absent f).map Prod.fst).Nodup := by
  rw [kept_names]
  have all : (m.toJson.fields.map Prod.fst).Nodup := by simp [toJson, Json.fields]
  exact all.filter _

variable {m absent}

theorem notMem_kept {name : String} (gone : name ∈ absent) :
    name ∉ (m.kept absent f).map Prod.fst := by
  rw [kept_names]
  simp [gone]

theorem mem_kept {name : String} {value : Json F} (mem : (name, value) ∈ m.toJson.fields)
    (stays : name ∉ absent) : (name, value.mapFloat f) ∈ m.kept absent f :=
  List.mem_map.mpr ⟨_, List.mem_filter.mpr ⟨mem, by simpa using stays⟩, rfl⟩

variable (m) in
/-- A field that is never absent. -/
theorem required_kept (older : absent ⊆ laterFields) (name : String) (value : Json F)
    (mem : (name, value) ∈ m.toJson.fields := by simp [toJson, Json.fields])
    (old : name ∉ laterFields := by decide) ⦃α : Type⦄ (index : Nat) (decode : Json F → Option α) :
    (Json.obj (m.kept absent f)).required 19 index name decode = decode (value.mapFloat f) :=
  Json.required_of_mem (m.kept_distinct absent f) (mem_kept f mem fun gone => old (older gone)) decode

variable (m) in
/-- A text that defaults to the empty one. -/
theorem defaulted_kept (name s : String) (index : Nat)
    (mem : (name, .str s) ∈ m.toJson.fields := by simp [toJson, Json.fields]) :
    (Json.obj (m.kept absent f)).defaulted 19 index name "" Json.asString =
      some (if name ∈ absent then "" else s) := by
  split_ifs with missing
  · exact Json.defaulted_of_notMem (notMem_kept f missing) "" Json.asString
  · exact Json.defaulted_of_mem (m.kept_distinct absent f) (mem_kept f mem missing) "" Json.asString

/-- An item is read back without those of the later fields that default, and with the
weight that its text gives. -/
theorem fromJson_without (sized : m.Sized) (older : absent ⊆ laterFields) :
    fromJson ((m.toJson.without absent).mapFloat f) =
      if "tenant" ∈ absent then none
      else (((Json.ofFloat m.weight).mapFloat f).asFloat).map fun weight =>
        { m with
          weight
          «namespace» := if "namespace" ∈ absent then "" else m.namespace
          namespaceKey := if "namespace_key" ∈ absent then "" else m.namespaceKey } := by
  have text (s : String) : Json.asString ((Json.str s : Json F).mapFloat f) = some s := rfl
  have flag (b : Bool) : Json.asBool ((Json.bool b : Json F).mapFloat f) = some b := rfl
  have number {bits n : Nat} (fits : n < 2 ^ bits) :
      Json.asUnsigned bits ((Json.ofNat n : Json F).mapFloat f) = some n := Json.asUnsigned_ofNat fits
  have provenance : (Json.obj (m.kept absent f)).defaulted 19 16 "provenance" none
      (Json.asOption Json.asString) = some m.provenance := by
    have mem : ("provenance", (Json.ofOption Json.str m.provenance).mapFloat f) ∈
        m.kept absent f :=
      mem_kept f (by simp [toJson, Json.fields]) fun gone => by simpa [laterFields] using older gone
    rw [Json.defaulted_of_mem (m.kept_distinct absent f) mem]
    cases m.provenance <;> rfl
  have entities : Json.asList EntityNode.fromJson
      ((Json.arr (m.entities.map EntityNode.toJson)).mapFloat f) = some m.entities := by
    rw [Json.mapFloat, Json.mapFloatList_eq, List.map_map]
    exact Json.asList_map fun e _ => e.fromJson_toJson f
  have memoryType : MemoryType.fromJson ((Json.str m.memoryType.asStr).mapFloat f) =
      some m.memoryType := MemoryType.parse_asStr m.memoryType
  have tier : MemoryTier.fromJson ((Json.str m.tier.name).mapFloat f) = some m.tier :=
    MemoryTier.ofName_name m.tier
  rw [without_mapFloat, fromJson]
  simp only [required_kept m f older "id" (.str m.id),
    required_kept m f older "interaction_id" (.str m.interactionId),
    required_kept m f older "turn_idx" (.ofNat m.turnIdx),
    required_kept m f older "session_id" (.str m.sessionId),
    required_kept m f older "memory_type" (.str m.memoryType.asStr),
    required_kept m f older "tier" (.str m.tier.name),
    required_kept m f older "content" (.str m.content),
    required_kept m f older "entities" (.arr (m.entities.map EntityNode.toJson)),
    required_kept m f older "vector_ref" (.str m.vectorRef),
    required_kept m f older "weight" (.ofFloat m.weight),
    required_kept m f older "access_count" (.ofNat m.accessCount),
    required_kept m f older "last_accessed_timestamp" (.ofNat m.lastAccessedTimestamp),
    required_kept m f older "created_timestamp" (.ofNat m.createdTimestamp),
    required_kept m f older "tombstone" (.bool m.tombstone),
    required_kept m f older "entities_pending" (.bool m.entitiesPending),
    defaulted_kept m f "namespace" m.namespace, defaulted_kept m f "namespace_key" m.namespaceKey,
    provenance, entities, memoryType, tier, text, flag, number sized.turnIdx,
    number sized.accessCount, number sized.lastAccessedTimestamp, number sized.createdTimestamp]
  by_cases missing : "tenant" ∈ absent
  · rw [if_pos missing, Json.required_of_notMem (notMem_kept f missing)]
    rfl
  · have tenant : ("tenant", (Json.str m.tenant : Json F).mapFloat f) ∈ m.kept absent f :=
      mem_kept f (by simp [toJson, Json.fields]) missing
    rw [if_neg missing, Json.required_of_mem (m.kept_distinct absent f) tenant, text]
    cases ((Json.ofFloat m.weight).mapFloat f).asFloat <;> rfl

end Kept

theorem toJson_eq_without (m : MemoryItem F) : m.toJson = m.toJson.without [] := by
  simp [Json.without, toJson, Json.fields]

/-- An item is read back, with the weight that its text gives. -/
theorem fromJson_toJson {m : MemoryItem F} (sized : m.Sized) (f : FiniteFloat F → FiniteFloat F) :
    fromJson (m.toJson.mapFloat f) =
      (((Json.ofFloat m.weight).mapFloat f).asFloat).map fun weight => { m with weight } := by
  rw [toJson_eq_without, fromJson_without f sized (List.nil_subset _)]
  simp

end MemoryItem

/-! ### Interactions (`interaction.rs`) -/

namespace ToolCall

def fromJson (j : Json F) : Option ToolCall := do
  let name ← j.required 3 0 "name" Json.asString
  let _ ← j.required 3 1 "args" some
  let resultSummary ← j.required 3 2 "result_summary" Json.asString
  return { name, resultSummary }

end ToolCall

namespace Turn

def fromJson (j : Json F) : Option Turn := do
  let turnIdx ← j.required 4 0 "turn_idx" (Json.asUnsigned 32)
  let userMessage ← j.required 4 1 "user_message" Json.asString
  let assistantMessage ← j.required 4 2 "assistant_message" Json.asString
  let toolCalls ← j.required 4 3 "tool_calls" (Json.asList ToolCall.fromJson)
  return { turnIdx, userMessage, assistantMessage, toolCalls }

end Turn

namespace Interaction

def fromJson (j : Json F) : Option Interaction := do
  let id ← j.required 8 0 "id" Json.asString
  let sessionId ← j.required 8 1 "session_id" Json.asString
  let tenant ← j.defaulted 8 2 "tenant" "" Json.asString
  let ns ← j.defaulted 8 3 "namespace" "" Json.asString
  let namespaceKey ← j.defaulted 8 4 "namespace_key" "" Json.asString
  let turns ← j.required 8 5 "turns" (Json.asList Turn.fromJson)
  let _ ← j.required 8 6 "timestamp" (Json.asUnsigned 64)
  let _ ← j.required 8 7 "metadata" some
  return { id, sessionId, tenant, «namespace» := ns, namespaceKey, turns }

end Interaction

/-! ### Commit envelopes (`fm-cluster/src/replay.rs`) -/

/-- `CommitEnvelope`: the item and the vector the leader computed for it. -/
structure CommitEnvelope (F : Type) where
  item : MemoryItem F
  vector : Option (List F)

namespace CommitEnvelope

def toJson (env : CommitEnvelope F) : Json F :=
  .obj [("item", env.item.toJson),
    ("vector", .ofOption (fun v => .arr (v.map .ofFloat)) env.vector)]

def fromJson (j : Json F) : Option (CommitEnvelope F) := do
  let item ← j.required 2 0 "item" MemoryItem.fromJson
  let vector ← j.defaulted 2 1 "vector" none (Json.asOption (Json.asList Json.asFloat))
  return { item, vector }

end CommitEnvelope

end FusionMemory
