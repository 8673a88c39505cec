import FusionMemory.Core.Codec
import FusionMemory.Lib.Bytes
import FusionMemory.Persist.Store

/-!
Encryption at rest (`fm-persist/src/crypto.rs`, and the `content` and `entities_json`
columns of `fm-persist/src/store.rs`).

`Db` holds memories as a process with the right key sees them. Here a row of
`memory_item` has its columns as they are stored, and `SealedDb.view` is the database
that a process with a given cipher sees, wrong keys included.

AES-256-GCM, Base64 and the random nonces come from outside: `Aead` is what `Cipher`
calls, and `Aead.Lawful` what it relies on.
-/

namespace FusionMemory

open Lib

/-! ### The cipher -/

/-- A 32-byte key. -/
abbrev Key : Type := Vector UInt8 32

/-- The 12 bytes drawn for one encryption. -/
abbrev Nonce : Type := {bytes : List UInt8 // bytes.length = 12}

/-- The crates behind `Cipher`: `encrypt` and `decrypt` are AES-256-GCM over the bytes of a
text, with `from_utf8_lossy` on the way out; `encode` and `decode` are Base64. -/
structure Aead where
  encrypt : Key → List UInt8 → String → Option (List UInt8)
  decrypt : Key → List UInt8 → List UInt8 → Option String
  encode : List UInt8 → String
  decode : String → Option (List UInt8)

/-- What was encrypted is decrypted with its key and nonce, and what was encoded is decoded. -/
structure Aead.Lawful (aead : Aead) : Prop where
  decrypt_encrypt : ∀ {key nonce text blob}, aead.encrypt key nonce text = some blob →
    aead.decrypt key nonce blob = some text
  decode_encode : ∀ bytes, aead.decode (aead.encode bytes) = some bytes

/-- An AEAD that hides nothing and tells keys apart: the key stands before the text. -/
def Aead.labelled : Aead where
  encrypt key _ text := some (key.toList ++ utf8 text)
  decrypt key _ blob := if blob.take 32 = key.toList then fromUtf8 (blob.drop 32) else none
  encode bytes := String.ofList (bytes.map fun b => Char.ofNat b.toNat)
  decode s := some (s.toList.map fun c => UInt8.ofNat c.toNat)

theorem Aead.labelled_lawful : Aead.labelled.Lawful where
  decrypt_encrypt := by
    intro key nonce text blob sealed
    cases sealed
    have size : key.toList.length = 32 := by simp
    change (if _ then _ else _) = _
    rw [List.take_left' size, List.drop_left' size, if_pos rfl, fromUtf8_utf8]
  decode_encode := by
    intro bytes
    change some ((String.ofList (bytes.map fun b => Char.ofNat b.toNat)).toList.map _) = some bytes
    rw [String.toList_ofList, List.map_map]
    refine congrArg some ((List.map_congr_left fun b _ => ?_).trans (List.map_id bytes))
    have small := b.toNat_lt
    have valid : b.toNat.isValidChar := Or.inl (by omega)
    change UInt8.ofNat (Char.ofNat b.toNat).toNat = b
    rw [Char.ofNat, dif_pos valid]
    exact UInt8.ofNat_toNat

def ENC_PREFIX : String := "enc:v1:"

/-- `Cipher`: the key of the process. -/
structure Cipher where
  key : Key
deriving DecidableEq

def Nonce.zero : Nonce := ⟨List.replicate 12 0, rfl⟩

namespace Cipher

/-- `Cipher::from_raw([b; 32])`. -/
def ofByte (b : UInt8) : Cipher := ⟨Vector.replicate 32 b⟩

variable (aead : Aead) (cipher : Cipher)

def encrypt (nonce : Nonce) (plain : String) : Except PersistError String :=
  match aead.encrypt cipher.key nonce.1 plain with
  | none => .error (.encrypt "aes encrypt: aead::Error")
  | some ct => .ok (ENC_PREFIX ++ aead.encode (nonce.1 ++ ct))

/-- A text that cannot be decrypted is returned as it is stored. -/
def decrypt (stored : String) : String :=
  match stripPrefix ENC_PREFIX stored with
  | none => stored
  | some encoded =>
      match aead.decode encoded with
      | none => stored
      | some blob =>
          if blob.length < 12 then stored
          else match aead.decrypt cipher.key (blob.take 12) (blob.drop 12) with
            | some plain => plain
            | none => stored

end Cipher

def encryptField (aead : Aead) (cipher : Option Cipher) (nonce : Nonce) (plain : String) :
    Except PersistError String :=
  match cipher with
  | some c => c.encrypt aead nonce plain
  | none => .ok plain

def decryptField (aead : Aead) (cipher : Option Cipher) (stored : String) : String :=
  match cipher with
  | some c => c.decrypt aead stored
  | none => stored

section Fields

variable {aead : Aead} {key : Key} {nonce : Nonce} {plain stored : String}

/-- Decrypting what a key has encrypted asks the AEAD for its nonce and its bytes. -/
theorem decrypt_stored (lawful : aead.Lawful)
    (encrypted : (Cipher.mk key).encrypt aead nonce plain = .ok stored) :
    ∃ ct, aead.encrypt key nonce.1 plain = some ct ∧ ∀ other : Key,
      (Cipher.mk other).decrypt aead stored = (aead.decrypt other nonce.1 ct).getD stored := by
  unfold Cipher.encrypt at encrypted
  split at encrypted
  · cases encrypted
  · rename_i ct sealed
    cases encrypted
    refine ⟨ct, sealed, fun other => ?_⟩
    unfold Cipher.decrypt
    rw [stripPrefix_append]
    dsimp only
    rw [lawful.decode_encode]
    dsimp only
    have long : ¬ (nonce.1 ++ ct).length < 12 := by
      rw [List.length_append, nonce.2]
      omega
    rw [if_neg long, List.take_left' nonce.2, List.drop_left' nonce.2]
    cases aead.decrypt other nonce.1 ct <;> rfl

/-- A process reads back what it has written. -/
theorem decryptField_encryptField (lawful : aead.Lawful) {cipher : Option Cipher}
    (encrypted : encryptField aead cipher nonce plain = .ok stored) :
    decryptField aead cipher stored = plain := by
  cases cipher with
  | none =>
      cases encrypted
      rfl
  | some c =>
      obtain ⟨ct, sealed, decrypts⟩ := decrypt_stored lawful encrypted
      change c.decrypt aead stored = plain
      rw [decrypts c.key, lawful.decrypt_encrypt sealed]
      rfl

end Fields

/-! ### Rows as they are stored -/

variable {F : Type} [FloatArith F] [JsonText F]

/-- `serde_json::to_string(&item.entities)`. -/
def entitiesText (F : Type) [FloatArith F] [JsonText F] (entities : List EntityNode) : String :=
  JsonText.print (F := F) (.arr (entities.map EntityNode.toJson))

/-- A corrupt text is read as no entities. -/
def readEntities (F : Type) [FloatArith F] [JsonText F] (text : String) : List EntityNode :=
  ((JsonText.parse (F := F) text).bind (Json.asList EntityNode.fromJson)).getD []

theorem EntityNode.asList_toJson (entities : List EntityNode) :
    Json.asList EntityNode.fromJson ((Json.arr (entities.map EntityNode.toJson)).mapFloat
      (JsonText.reread (F := F))) = some entities := by
  rw [Json.mapFloat, Json.mapFloatList_eq, List.map_map]
  exact Json.asList_map fun e _ => e.fromJson_toJson _

theorem readEntities_entitiesText (entities : List EntityNode) :
    readEntities F (entitiesText F entities) = entities := by
  unfold readEntities entitiesText
  rw [JsonText.parse_print, Option.bind_some, EntityNode.asList_toJson]
  rfl

/-- A row of `memory_item`, its columns as they are stored. -/
structure MemoryRow (F : Type) where
  id : String
  interactionId : String
  turnIdx : Nat
  sessionId : String
  tenant : String
  memoryType : String
  tier : String
  content : String
  vectorRef : String
  weight : F
  accessCount : Nat
  lastAccessedTimestamp : Nat
  createdTimestamp : Nat
  provenance : Option String
  tombstone : Bool
  entitiesPending : Bool
  entitiesJson : String
  «namespace» : String
  namespaceKey : String

/-- The columns of an item, given its two encrypted columns. -/
def MemoryItem.columns (item : MemoryItem F) (encContent encEntities : String) : MemoryRow F where
  id := item.id
  interactionId := item.interactionId
  turnIdx := item.turnIdx
  sessionId := item.sessionId
  tenant := item.tenant
  memoryType := item.memoryType.asStr
  tier := item.tier.asStr
  content := encContent
  vectorRef := item.vectorRef
  weight := item.weight
  accessCount := item.accessCount
  lastAccessedTimestamp := item.lastAccessedTimestamp
  createdTimestamp := item.createdTimestamp
  provenance := item.provenance
  tombstone := item.tombstone
  entitiesPending := item.entitiesPending
  entitiesJson := encEntities
  «namespace» := item.namespace
  namespaceKey := item.namespaceKey

/-- The row that `put_memory` and `put_memory_with_wop` write. -/
def itemRow (aead : Aead) (cipher : Option Cipher) (nonces : Nonce × Nonce) (item : MemoryItem F) :
    Except PersistError (MemoryRow F) := do
  let encContent ← encryptField aead cipher nonces.1 item.content
  let encEntities ← encryptField aead cipher nonces.2 (entitiesText F item.entities)
  return item.columns encContent encEntities

/-- `row_to_memory`: a type or tier that is not known is read as the default. -/
def rowToMemory (aead : Aead) (cipher : Option Cipher) (row : MemoryRow F) : MemoryItem F where
  id := row.id
  interactionId := row.interactionId
  turnIdx := row.turnIdx
  sessionId := row.sessionId
  tenant := row.tenant
  «namespace» := row.namespace
  namespaceKey := row.namespaceKey
  memoryType := (MemoryType.parse row.memoryType).getD .episodic
  tier := (MemoryTier.parse row.tier).getD .short
  content := decryptField aead cipher row.content
  entities := readEntities F (decryptField aead cipher row.entitiesJson)
  vectorRef := row.vectorRef
  weight := row.weight
  accessCount := row.accessCount
  lastAccessedTimestamp := row.lastAccessedTimestamp
  createdTimestamp := row.createdTimestamp
  provenance := row.provenance
  tombstone := row.tombstone
  entitiesPending := row.entitiesPending

theorem rowToMemory_id (aead : Aead) (cipher : Option Cipher) (row : MemoryRow F) :
    (rowToMemory aead cipher row).id = row.id := rfl

theorem itemRow_eq_ok_iff {aead : Aead} {cipher : Option Cipher} {nonces : Nonce × Nonce}
    {item : MemoryItem F} {row : MemoryRow F} :
    itemRow aead cipher nonces item = .ok row ↔ ∃ encContent encEntities,
      encryptField aead cipher nonces.1 item.content = .ok encContent ∧
      encryptField aead cipher nonces.2 (entitiesText F item.entities) = .ok encEntities ∧
      item.columns encContent encEntities = row := by
  unfold itemRow
  cases encryptField aead cipher nonces.1 item.content with
  | error e => exact ⟨fun no => (by cases no), fun ⟨_, _, no, _⟩ => (by cases no)⟩
  | ok encContent =>
      cases encryptField aead cipher nonces.2 (entitiesText F item.entities) with
      | error e => exact ⟨fun no => (by cases no), fun ⟨_, _, _, no, _⟩ => (by cases no)⟩
      | ok encEntities =>
          constructor
          · intro written
            exact ⟨encContent, encEntities, rfl, rfl, Except.ok.inj written⟩
          · rintro ⟨_, _, ⟨⟩, ⟨⟩, written⟩
            exact congrArg Except.ok written

theorem itemRow_id {aead : Aead} {cipher : Option Cipher} {nonces : Nonce × Nonce}
    {item : MemoryItem F} {row : MemoryRow F} (written : itemRow aead cipher nonces item = .ok row) :
    row.id = item.id := by
  obtain ⟨_, _, _, _, rfl⟩ := itemRow_eq_ok_iff.mp written
  rfl

/-- An item is read back as it was written. -/
theorem rowToMemory_itemRow {aead : Aead} (lawful : aead.Lawful) {cipher : Option Cipher}
    {nonces : Nonce × Nonce} {item : MemoryItem F} {row : MemoryRow F}
    (written : itemRow aead cipher nonces item = .ok row) : rowToMemory aead cipher row = item := by
  obtain ⟨encContent, encEntities, content, entities, rfl⟩ := itemRow_eq_ok_iff.mp written
  unfold rowToMemory MemoryItem.columns
  dsimp only
  rw [decryptField_encryptField lawful content, decryptField_encryptField lawful entities,
    readEntities_entitiesText, MemoryType.parse_asStr, MemoryTier.parse_asStr]
  rfl

/-! ### The database file -/

/-- The content of the database file: `Db` with the rows of `memory_item` as they are
stored. The other tables are not encrypted. -/
structure SealedDb (F : Type) where
  memoryItem : Table String (MemoryRow F) MemoryRow.id
  entity : List EntityNode
  memoryEntity : List (String × String)
  relation : List Relation
  consolidationLog : List ConsolidationEntry
  mergeLog : List MergeLogEntry
  mergeSeq : Nat
  reconcileReport : List ReconcileEntry
  wopLog : List WopEntry
  wopSeq : Nat
  auditLog : List AuditLogEntry
  auditSeq : Nat

namespace SealedDb

def empty : SealedDb F where
  memoryItem := .empty
  entity := []
  memoryEntity := []
  relation := []
  consolidationLog := []
  mergeLog := []
  mergeSeq := 0
  reconcileReport := []
  wopLog := []
  wopSeq := 0
  auditLog := []
  auditSeq := 0

/-- The database as a process with the given cipher sees it. -/
def view (aead : Aead) (cipher : Option Cipher) (s : SealedDb F) : Db F where
  memoryItem := s.memoryItem.mapRows (rowToMemory aead cipher) (rowToMemory_id aead cipher)
  entity := s.entity
  memoryEntity := s.memoryEntity
  relation := s.relation
  consolidationLog := s.consolidationLog
  mergeLog := s.mergeLog
  mergeSeq := s.mergeSeq
  reconcileReport := s.reconcileReport
  wopLog := s.wopLog
  wopSeq := s.wopSeq
  auditLog := s.auditLog
  auditSeq := s.auditSeq

/-- The statements of `put_memory`. -/
def putRow (s : SealedDb F) (row : MemoryRow F) (entities : List EntityNode) : SealedDb F :=
  { s with
    memoryItem := s.memoryItem.upsert row
    entity := entities.foldl Db.insertEntity s.entity
    memoryEntity := entities.foldl (fun links e => Db.linkEntity links (row.id, e.id))
      (s.memoryEntity.filter fun link => link.1 != row.id) }

def appendWop (s : SealedDb F) (op payload : String) («at» : Nat) : SealedDb F :=
  { s with wopLog := s.wopLog ++ [⟨s.wopSeq + 1, op, payload, «at»⟩], wopSeq := s.wopSeq + 1 }

def putMemory (aead : Aead) (cipher : Option Cipher) (nonces : Nonce × Nonce) (s : SealedDb F)
    (item : MemoryItem F) : Except PersistError Unit × SealedDb F :=
  match itemRow aead cipher nonces item with
  | .error e => (.error e, s)
  | .ok row => (.ok (), s.putRow row item.entities)

def putMemoryWithWop (aead : Aead) (cipher : Option Cipher) (nonces : Nonce × Nonce)
    (s : SealedDb F) (item : MemoryItem F) (wopOp wopPayload : String) («at» : Nat) :
    Except PersistError Unit × SealedDb F :=
  match itemRow aead cipher nonces item with
  | .error e => (.error e, s)
  | .ok row => (.ok (), (s.putRow row item.entities).appendWop wopOp wopPayload «at»)

theorem getMemory_view (aead : Aead) (cipher : Option Cipher) (s : SealedDb F) (id : String) :
    (s.view aead cipher).getMemory id = (s.memoryItem.find? id).map (rowToMemory aead cipher) :=
  Table.find?_mapRows _ _ (rowToMemory_id aead cipher) _

/-- A process sees what it writes as `Db` has it. -/
theorem view_putRow {aead : Aead} (lawful : aead.Lawful) {cipher : Option Cipher}
    {nonces : Nonce × Nonce} {item : MemoryItem F} {row : MemoryRow F}
    (written : itemRow aead cipher nonces item = .ok row) (s : SealedDb F) :
    (s.putRow row item.entities).view aead cipher = (s.view aead cipher).putMemory item := by
  unfold putRow view Db.putMemory
  dsimp only
  rw [Table.mapRows_upsert, rowToMemory_itemRow lawful written, itemRow_id written]

end SealedDb

end FusionMemory
