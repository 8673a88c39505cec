import FusionMemory.Engine.Jobs
import FusionMemory.Lib.DecimalJson
import FusionMemory.Persist.Encryption

/-!
What encryption at rest hides (`put_memory_with_wop` as `commit_inner` and
`consolidate_summarize` call it).

Two items that differ in their text at most, the content and the names of the entities,
have the same row in `memory_item` up to ciphertext (`itemRow_masked`). The log and the
table `entity` hold the text as it is: `hidden_iff` says that the file tells the two items
apart whenever they are not the same.
-/

namespace FusionMemory

open Lib

variable {F : Type}

/-! ### Text and ciphertext -/

/-- The entity without its name. -/
def EntityNode.untexted (e : EntityNode) : EntityNode := { e with name := "" }

/-- The item without its text. -/
def MemoryItem.untexted (m : MemoryItem F) : MemoryItem F :=
  { m with content := "", entities := m.entities.map EntityNode.untexted }

/-- The row without its ciphertexts, which are opaque. -/
def MemoryRow.masked (row : MemoryRow F) : MemoryRow F := { row with content := "", entitiesJson := "" }

theorem MemoryRow.masked_id (row : MemoryRow F) : row.masked.id = row.id := rfl

/-- The database file up to ciphertext. -/
def SealedDb.masked (s : SealedDb F) : SealedDb F :=
  { s with memoryItem := s.memoryItem.mapRows MemoryRow.masked MemoryRow.masked_id }

/-- Items with the same text that agree otherwise are the same. -/
theorem MemoryItem.eq_of_untexted {m m' : MemoryItem F} (same : m.untexted = m'.untexted)
    (content : m.content = m'.content) (entities : m.entities = m'.entities) : m = m' := by
  cases m
  cases m'
  simp only [untexted, MemoryItem.mk.injEq] at same content entities ⊢
  simp only [same, content, entities, and_self]

variable [FloatArith F] [JsonText F]

/-- The rows of two items that agree but for their text are the same up to ciphertext. -/
theorem itemRow_masked {aead : Aead} {cipher : Option Cipher} {nonces nonces' : Nonce × Nonce}
    {m m' : MemoryItem F} {row row' : MemoryRow F} (same : m.untexted = m'.untexted)
    (written : itemRow aead cipher nonces m = .ok row)
    (written' : itemRow aead cipher nonces' m' = .ok row') : row.masked = row'.masked := by
  obtain ⟨_, _, _, _, rfl⟩ := itemRow_eq_ok_iff.mp written
  obtain ⟨_, _, _, _, rfl⟩ := itemRow_eq_ok_iff.mp written'
  cases m
  cases m'
  simp only [MemoryItem.untexted, MemoryItem.mk.injEq] at same
  simp only [MemoryRow.masked, MemoryItem.columns, same]

/-! ### The log -/

/-- The text of a commit envelope gives the text of its item. -/
theorem text_of_envelope {m m' : MemoryItem F} {vec vec' : List F}
    (same : JsonText.print (CommitEnvelope.mk m (some vec)).toJson =
      JsonText.print (CommitEnvelope.mk m' (some vec')).toJson) :
    m.content = m'.content ∧ m.entities = m'.entities := by
  have read := congrArg (JsonText.parse (F := F)) same
  rw [JsonText.parse_print, JsonText.parse_print, Option.some_inj] at read
  simp only [CommitEnvelope.toJson, MemoryItem.toJson, Json.mapFloat, Json.mapFloatFields_eq,
    List.map_cons, List.map_nil, Json.obj.injEq, List.cons.injEq, Prod.mk.injEq, Json.str.injEq,
    true_and] at read
  obtain ⟨⟨-, -, -, -, -, -, -, -, -, content, entities, -⟩, -⟩ := read
  refine ⟨content, Option.some.inj ?_⟩
  rw [← EntityNode.asList_toJson (F := F), ← EntityNode.asList_toJson (F := F), Json.mapFloat,
    Json.mapFloat, entities]

/-- The request logs a row, if it logs one, as an envelope with its vector. -/
def Request.LogsEnvelope : Request F → Prop
  | .persist (.putMemoryWithWop item _ payload _) =>
      ∃ vec, payload = JsonText.print (CommitEnvelope.mk item (some vec)).toJson
  | _ => True

theorem logsEnvelope_storing : AllowsStoring (Request.LogsEnvelope (F := F)) :=
  ⟨trivial, fun _ => trivial, fun _ _ => trivial, fun _ vec _ _ => ⟨vec, rfl⟩, fun _ => trivial⟩

/-- How `commit_inner` calls `put_memory_with_wop`. -/
theorem commitTurn_logsEnvelope (eng : MemoryEngine) (sessionId : String) (interaction : Interaction)
    (now : Nat) (acc : CommitOutcome) (turn : Turn) :
    Program.Only (Request.LogsEnvelope (F := F)) (commitTurn eng sessionId interaction now acc turn) :=
  only_commitTurn logsEnvelope_storing (fun _ => trivial) (fun _ => trivial) (fun _ => trivial) eng
    sessionId interaction now acc turn

/-- How `consolidate_summarize` calls it. -/
theorem consolidateSummarize_logsEnvelope (eng : MemoryEngine) (changed : List (MemoryItem F))
    («at» : Nat) (failures : List ConsolidationFailure) (ns : NamespaceFilter) :
    Program.Only Request.LogsEnvelope (consolidateSummarize eng changed «at» failures ns) :=
  only_consolidateSummarize logsEnvelope_storing (fun _ => trivial) (fun _ _ => trivial) eng changed
    «at» failures ns

namespace SealedDb

/-- `put_memory_with_wop` as both call it: the log entry is the envelope of the item. -/
def putLogged (aead : Aead) (cipher : Cipher) (nonces : Nonce × Nonce) (s : SealedDb F)
    (item : MemoryItem F) (vec : List F) (op : String) («at» : Nat) :
    Except PersistError Unit × SealedDb F :=
  s.putMemoryWithWop aead (some cipher) nonces item op
    (JsonText.print (CommitEnvelope.mk item (some vec)).toJson) «at»

/-! ### What the file shows -/

section Shown

variable {aead : Aead} {cipher : Cipher} {nonces nonces' : Nonce × Nonce} {s : SealedDb F}
  {m m' : MemoryItem F} {vec vec' : List F} {op : String} {«at» : Nat}

/-- The file that a logged put leaves, up to ciphertext. -/
theorem masked_putLogged (stored : (s.putLogged aead cipher nonces m vec op «at»).1 = .ok ()) :
    ∃ row, itemRow aead (some cipher) nonces m = .ok row ∧
      (s.putLogged aead cipher nonces m vec op «at»).2.masked =
        (s.masked.putRow row.masked m.entities).appendWop op
          (JsonText.print (CommitEnvelope.mk m (some vec)).toJson) «at» := by
  unfold putLogged putMemoryWithWop at stored ⊢
  cases written : itemRow aead (some cipher) nonces m with
  | error e =>
      rw [written] at stored
      cases stored
  | ok row =>
      refine ⟨row, rfl, ?_⟩
      unfold masked putRow appendWop
      dsimp only
      rw [Table.mapRows_upsert]
      rfl

/-- The log shows the text: files that agree up to ciphertext hold the same text. -/
theorem text_of_masked (stored : (s.putLogged aead cipher nonces m vec op «at»).1 = .ok ())
    (stored' : (s.putLogged aead cipher nonces' m' vec' op «at»).1 = .ok ())
    (agree : (s.putLogged aead cipher nonces m vec op «at»).2.masked =
      (s.putLogged aead cipher nonces' m' vec' op «at»).2.masked) :
    m.content = m'.content ∧ m.entities = m'.entities := by
  obtain ⟨row, -, shown⟩ := masked_putLogged stored
  obtain ⟨row', -, shown'⟩ := masked_putLogged stored'
  rw [shown, shown'] at agree
  have logs := List.append_cancel_left (congrArg SealedDb.wopLog agree)
  rw [List.cons.injEq, WopEntry.mk.injEq] at logs
  exact text_of_envelope logs.1.2.2.1

end Shown

/-- Two items that differ in their text at most, committed or summarized into the same
file, leave the same file up to ciphertext just when their texts are the same. -/
theorem hidden_iff (aead : Aead) (cipher : Cipher) (embed : String → List F) (s : SealedDb F)
    {nonces nonces' : Nonce × Nonce} {m m' : MemoryItem F} (op : String) («at» : Nat)
    (same : m.untexted = m'.untexted)
    (stored : (s.putLogged aead cipher nonces m (embed m.content) op «at»).1 = .ok ())
    (stored' : (s.putLogged aead cipher nonces' m' (embed m'.content) op «at»).1 = .ok ()) :
    (s.putLogged aead cipher nonces m (embed m.content) op «at»).2.masked =
        (s.putLogged aead cipher nonces' m' (embed m'.content) op «at»).2.masked ↔
      m.content = m'.content ∧ m.entities = m'.entities := by
  refine ⟨text_of_masked stored stored', fun texts => ?_⟩
  obtain rfl := MemoryItem.eq_of_untexted same texts.1 texts.2
  obtain ⟨row, written, shown⟩ := masked_putLogged stored
  obtain ⟨row', written', shown'⟩ := masked_putLogged stored'
  rw [shown, shown', itemRow_masked same written written']

/-! ### Two commits -/

/-- A committed turn. -/
def note (content : String) : MemoryItem Fixed :=
  { MemoryItem.newTurnSkeleton "m" "ix" 0 "session" "tenant" .episodic content 0 with
    vectorRef := "7", entitiesPending := true }

theorem hidden_iff_note :
    ((empty : SealedDb Fixed).putLogged .labelled (.ofByte 7) (.zero, .zero) (note "aye") []
        "commit" 0).2.masked =
      (empty.putLogged .labelled (.ofByte 7) (.zero, .zero) (note "nay") [] "commit" 0).2.masked ↔
      "aye" = "nay" ∧ ([] : List EntityNode) = [] :=
  hidden_iff .labelled (.ofByte 7) (fun _ => []) empty "commit" 0 rfl rfl rfl

/-- Two commits of contents of one length: the log tells which is which. -/
theorem log_shows_content :
    ¬ ∀ (aead : Aead) (cipher : Cipher) (embed : String → List Fixed) (s : SealedDb Fixed)
      (nonces nonces' : Nonce × Nonce) (m m' : MemoryItem Fixed) (op : String) («at» : Nat),
      aead.Lawful → m.untexted = m'.untexted → m.content.length = m'.content.length →
      m.entities.map (·.name.length) = m'.entities.map (·.name.length) →
      (s.putLogged aead cipher nonces m (embed m.content) op «at»).1 = .ok () →
      (s.putLogged aead cipher nonces' m' (embed m'.content) op «at»).1 = .ok () →
      (s.putLogged aead cipher nonces m (embed m.content) op «at»).2.masked =
        (s.putLogged aead cipher nonces' m' (embed m'.content) op «at»).2.masked := by
  intro hidden
  have agree := hidden .labelled (.ofByte 7) (fun _ => []) empty (.zero, .zero) (.zero, .zero)
    (note "aye") (note "nay") "commit" 0 Aead.labelled_lawful rfl rfl rfl rfl rfl
  have texts := text_of_masked rfl rfl agree
  exact absurd texts.1 (by decide)

end SealedDb

end FusionMemory
