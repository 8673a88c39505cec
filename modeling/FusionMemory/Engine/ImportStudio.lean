import FusionMemory.Engine.EntityExtract
import FusionMemory.Engine.Execution
import FusionMemory.Persist.Columns
import FusionMemory.Store.FailedInsert

/-!
Importing from agent-studio (`fm-engine/src/import_studio.rs`).

A source row is mapped to a memory, embedded, its vector inserted and its row put. There
are six ways out of a row, and each bumps one counter of the report. `rowEnd` is what a row
comes to in a world, `run_importRow` says that the loop's body does that, and
`import_accounts_iff` is about whole imports: the counters add up, and a row that is not
imported leaves nothing exactly when no failure strikes behind its first write.
-/

namespace FusionMemory

open Lib

/-! ### The source -/

/-- `tags` is read and not used. -/
structure StudioRow (F : Type) where
  id : String
  content : String
  scope : String
  importance : Int
  createdAt : F
  metadata : String
  isSummary : Int
  tier : String
  memoryType : String

def ImportReport.default : ImportReport := ⟨0, 0, 0, 0⟩

/-- The source type of a text, by its keywords. -/
def classifyMemoryType (content : String) : String :=
  let text := content.toLower
  let mentions := fun keywords : List String => keywords.any fun k => decide (k.toList <:+: text.toList)
  if mentions ["i am", "i'm", "my role", "i use", "i work", "i prefer", "expertise"] then "user"
  else if mentions ["prefer", "don't", "always use", "never use", "should", "rule:", "why:",
    "how to apply"] then "feedback"
  else if mentions ["http://", "https://", "url:", "dashboard", "ticket", "doc at", "see "] then
    "reference"
  else "project"

def mapTier : String → Option MemoryTier
  | "short_term" => some .short
  | "long_term" => some .long
  | "archive" => none
  | _ => some .short

def mapMemoryType : String → MemoryType
  | "user" | "reference" => .semantic
  | "feedback" => .procedural
  | _ => .episodic

section Mapping

variable {F : Type} [FloatArith F]

/-- `x.clamp(lo, hi)` -/
def clamp (x lo hi : F) : F :=
  let x := if FloatArith.lt x lo then lo else x
  if FloatArith.lt hi x then hi else x

def importanceToWeight (importance : Int) : F :=
  let raw : F := FloatArith.div
    (if importance < 0 then FloatArith.neg (FloatArith.ofNat importance.natAbs)
      else FloatArith.ofNat importance.natAbs) (FloatArith.literal 100 1)
  clamp raw (FloatArith.literal 1 1) (FloatArith.literal 10 1)

variable (F) [JsonText F]

def metadataGraphId (metadataJson : String) : Option String :=
  match JsonText.parse (F := F) metadataJson with
  | some (.obj fields) =>
      -- A repeated key has its last value.
      match (fields.filter fun field => field.1 == "graph_id").getLast? with
      | some (_, .str g) => if g = "" then none else some g
      | _ => none
  | _ => none

/-- The project that a row's scope or metadata names. -/
def entityFromScope (t : AlphanumericTable) (scope metadataJson : String) : Option EntityNode :=
  let name :=
    match stripPrefix "graph:" scope with
    | some rest => if rest = "" then none else some rest
    | none => metadataGraphId F metadataJson
  name.map fun name =>
    { id := entityId t name, name := name, aliases := [], entityType := .project }

variable {F}

/-! ### Reading the source -/

/-- A row that does not have the texts it must have is an error; the other columns have
defaults. -/
def readStudioRow (cells : Cells F) : Except PersistError (StudioRow F) := do
  let id ← cells.get "id" SqlValue.asText
  let content ← cells.get "content" SqlValue.asText
  let scope ← cells.get "scope" SqlValue.asText
  let _ ← cells.get "tags" SqlValue.asOptText
  let importance := (cells.get "importance" SqlValue.asInteger).toOption.getD 5
  let createdAt := (cells.get "created_at" SqlValue.asReal).toOption.getD (FloatArith.ofNat 0)
  let metadata ← cells.get "metadata" SqlValue.asOptText
  let isSummary := (cells.get "is_summary" SqlValue.asInteger).toOption.getD 0
  let tier ← cells.get "tier" SqlValue.asOptText
  let memoryType ← cells.get "memory_type" SqlValue.asOptText
  return ⟨id, content, scope, importance, createdAt, metadata.getD "\x7b\x7d", isSummary,
    tier.getD "short_term", memoryType.getD "project"⟩

/-- The rows of a source that was opened and queried. -/
def readStudioRows (source : Except String (List (Cells F))) : Except String (List (StudioRow F)) := do
  let table ← source
  (table.mapM readStudioRow).mapError fun e =>
    match e with
    | .sqlite msg _ => "row: " ++ msg
    | e => "row: " ++ e.toString

/-! ### The loop -/

def VALID_STUDIO_TYPES : List String := ["user", "feedback", "project", "reference"]

/-- The content of a row that is embedded and stored. -/
def importContent (eng : MemoryEngine) (row : StudioRow F) : String :=
  match eng.redact with
  | some redactText => redactText (trim row.content)
  | none => trim row.content

/-- The memory of a row. -/
def importItem (t : AlphanumericTable) (eng : MemoryEngine) (now : Nat) (tier : MemoryTier)
    (row : StudioRow F) : MemoryItem F :=
  let content := importContent eng row
  let srcType := if VALID_STUDIO_TYPES.contains row.memoryType then row.memoryType
    else classifyMemoryType content
  { id := row.id
    interactionId := "studio-" ++ row.id
    turnIdx := 0
    sessionId := "import-agent-studio"
    tenant := ""
    «namespace» := ""
    namespaceKey := ""
    memoryType := mapMemoryType srcType
    tier := tier
    content := content
    entities := (entityFromScope F t row.scope row.metadata).toList
    vectorRef := toString (vectorIdFromUlid row.id)
    weight := importanceToWeight row.importance
    accessCount := 0
    lastAccessedTimestamp := now
    createdTimestamp := FloatArith.truncate (FloatArith.mul row.createdAt (FloatArith.literal 10000 1))
    provenance := some (if row.isSummary ≠ 0 then "imported-summary" else "imported-agent-studio")
    tombstone := false
    entitiesPending := false }

variable (t : AlphanumericTable) (eng : MemoryEngine) (now : Nat)

/-- The body of the loop. -/
def importRow (report : ImportReport) (row : StudioRow F) : EngineM F ImportReport :=
  match mapTier row.tier with
  | none => return { report with skippedArchive := report.skippedArchive + 1 }
  | some tier =>
      if trim row.content = "" then return { report with skippedEmpty := report.skippedEmpty + 1 }
      else do
        match ← embed (importContent eng row) with
        | .error _ => return { report with failed := report.failed + 1 }
        | .ok vec =>
            match ← store (.insertVector (vectorIdFromUlid row.id) vec) with
            | .error _ => return { report with failed := report.failed + 1 }
            | .ok _ =>
                match ← persist (.putMemory (importItem t eng now tier row)) with
                | .error _ => return { report with failed := report.failed + 1 }
                | .ok _ => return { report with imported := report.imported + 1 }

def importRows (rows : List (StudioRow F)) : EngineM F ImportReport :=
  rows.foldlM (importRow t eng now) .default

/-- `run_import`; a source that cannot be read is its only error. -/
def runImport (source : Except String (List (Cells F))) : EngineM F (Except String ImportReport) :=
  match readStudioRows source with
  | .error e => return .error e
  | .ok rows => do
      let now ← nowMs
      let report ← importRows t eng now rows
      return .ok report

/-! ### What a row comes to -/

/-- The counter that a row bumps. -/
inductive RowEnd where
  | imported
  | skippedArchive
  | skippedEmpty
  | failed
deriving DecidableEq, Repr

def ImportReport.count (report : ImportReport) : RowEnd → ImportReport
  | .imported => { report with imported := report.imported + 1 }
  | .skippedArchive => { report with skippedArchive := report.skippedArchive + 1 }
  | .skippedEmpty => { report with skippedEmpty := report.skippedEmpty + 1 }
  | .failed => { report with failed := report.failed + 1 }

def ImportReport.total (report : ImportReport) : Nat :=
  report.imported + report.skippedArchive + report.skippedEmpty + report.failed

omit [FloatArith F] [JsonText F] in
theorem ImportReport.total_count (report : ImportReport) (ending : RowEnd) :
    (report.count ending).total = report.total + 1 := by
  cases ending <;> simp only [ImportReport.count, ImportReport.total] <;> omega

/-- The end of a row whose vector is in the store. -/
def putEnd (tier : MemoryTier) (row : StudioRow F) (w : World F) : RowEnd × World F :=
  let put := w.execPersist (.putMemory (importItem t eng now tier row))
  match put.1 with
  | .error _ => (.failed, w.withDb put.2)
  | .ok _ => (.imported, w.withDb put.2)

/-- The end of a row with its embedding. -/
def insertEnd (tier : MemoryTier) (row : StudioRow F) (vec : List F) (w : World F) :
    RowEnd × World F :=
  let inserted := w.execStore (.insertVector (vectorIdFromUlid row.id) vec)
  match inserted.1 with
  | .error _ => (.failed, w.withStore inserted.2)
  | .ok _ => putEnd t eng now tier row (w.withStore inserted.2)

def rowEnd (row : StudioRow F) (w : World F) : RowEnd × World F :=
  match mapTier row.tier with
  | none => (.skippedArchive, w)
  | some tier =>
      if trim row.content = "" then (.skippedEmpty, w)
      else
        match w.env.embed w.tick (importContent eng row) with
        | .error _ => (.failed, w.next)
        | .ok vec => insertEnd t eng now tier row vec w.next

theorem run_importRow (report : ImportReport) (row : StudioRow F) (w : World F) :
    run (importRow t eng now report row) w =
      (.ok (report.count (rowEnd t eng now row w).1), (rowEnd t eng now row w).2) := by
  unfold importRow rowEnd
  cases mapTier row.tier with
  | none => rfl
  | some tier =>
      by_cases empty : trim row.content = ""
      · simp only [empty, if_true]
        rfl
      · simp only [empty, if_false]
        rw [run_embed_bind]
        cases w.env.embed w.tick (importContent eng row) with
        | error e => rfl
        | ok vec =>
            dsimp only [Except.mapError]
            rw [run_store_bind]
            unfold insertEnd putEnd
            rcases w.next.execStore (.insertVector (vectorIdFromUlid row.id) vec) with ⟨e | _, s⟩
            · rfl
            · dsimp only [Except.mapError]
              rw [run_persist_bind]
              rcases (w.next.withStore s).execPersist
                (.putMemory (importItem t eng now tier row)) with ⟨e | _, db⟩ <;> rfl

/-- The world after some rows. -/
def worldAfter (rows : List (StudioRow F)) (w : World F) : World F :=
  rows.foldl (fun w row => (rowEnd t eng now row w).2) w

/-- The worlds and reports of the loop. -/
theorem run_foldlM_importRow (rows : List (StudioRow F)) (report : ImportReport) (w : World F) :
    ∃ report', run (rows.foldlM (importRow t eng now) report) w =
        (.ok report', worldAfter t eng now rows w) ∧
      report'.total = report.total + rows.length := by
  induction rows generalizing report w with
  | nil => exact ⟨report, rfl, rfl⟩
  | cons row rest ih =>
      obtain ⟨report', ran, total⟩ := ih (report.count (rowEnd t eng now row w).1)
        (rowEnd t eng now row w).2
      refine ⟨report', ?_, ?_⟩
      · rw [List.foldlM_cons, run_bind_ok (run_importRow t eng now report row w), ran]
        rfl
      · rw [total, ImportReport.total_count, List.length_cons]
        omega

/-- The run of an import whose source can be read. -/
theorem run_runImport {source : Except String (List (Cells F))} {rows : List (StudioRow F)}
    (read : readStudioRows source = .ok rows) (w : World F) : ∃ report,
      run (runImport t eng source) w =
        (.ok (.ok report), worldAfter t eng (w.env.clock w.tick) rows w.next) ∧
      report.total = rows.length := by
  obtain ⟨report, ran, total⟩ := run_foldlM_importRow t eng (w.env.clock w.tick) rows .default w.next
  refine ⟨report, ?_, total.trans (Nat.zero_add _)⟩
  unfold runImport importRows
  rw [read]
  dsimp only
  rw [run_nowMs_bind, run_bind_ok ran]
  rfl

/-- The loop over `rows` comes to `row` with this report and this world. -/
structure LoopAt (rows before : List (StudioRow F)) (row : StudioRow F) (w : World F)
    (report : ImportReport) (w₁ : World F) : Prop where
  split : ∃ after, rows = before ++ row :: after
  ran : run (importRows t eng now before) w = (.ok report, w₁)

/-- The loop comes to every row. -/
theorem LoopAt.reaches {rows before after : List (StudioRow F)} {row : StudioRow F} (w : World F)
    (split : rows = before ++ row :: after) :
    ∃ report, LoopAt t eng now rows before row w report (worldAfter t eng now before w) := by
  obtain ⟨report, ran, -⟩ := run_foldlM_importRow t eng now before .default w
  exact ⟨report, ⟨after, split⟩, ran⟩

/-! ### What a row leaves -/

/-- What readers see of the memories and the vectors is the same. -/
def World.SameMemories (w w' : World F) : Prop :=
  w'.db.memoryItem = w.db.memoryItem ∧ ∀ id, w'.store.getVector id = w.store.getVector id

/-- No failure strikes behind the first visible write of a row: where the vector of the row
would be new, either all of its writes are made and the row is put, or none shows. -/
def Unstruck (row : StudioRow F) (w : World F) : Prop :=
  ∀ tier, mapTier row.tier = some tier → trim row.content ≠ "" →
    ∀ vec, w.env.embed w.tick (importContent eng row) = .ok vec → vec.length = w.store.dim →
      w.store.getVector (vectorIdFromUlid row.id) = none →
        match w.env.storeFault (w.tick + 1) (.insertVector (vectorIdFromUlid row.id) vec) with
        | none => w.env.persistFault (w.tick + 2) (.putMemory (importItem t eng now tier row)) = none
        | some (_, writes) => writes = 0 ∨ writes = 1 ∧
            ¬ (w.store.isTombstoned (vectorIdFromUlid row.id) = true ∧
              (w.store.vecTree.find? (vectorIdFromUlid row.id)).isSome = true)

variable {t eng now}

section Ends

variable {tier : MemoryTier} {row : StudioRow F} {vec : List F} {w : World F}

theorem putEnd_works
    (works : w.env.persistFault w.tick (.putMemory (importItem t eng now tier row)) = none) :
    putEnd t eng now tier row w =
      (.imported, w.withDb (w.db.putMemory (importItem t eng now tier row))) := by
  unfold putEnd
  rw [World.execPersist_works works]
  rfl

theorem putEnd_struck {fault : PersistError × Nat}
    (struck : w.env.persistFault w.tick (.putMemory (importItem t eng now tier row)) = some fault) :
    putEnd t eng now tier row w = (.failed, w.withDb w.db) := by
  unfold putEnd
  rw [World.execPersist_fault struck]
  rfl

theorem insertEnd_refused (misfit : vec.length ≠ w.store.dim) :
    insertEnd t eng now tier row vec w = (.failed, w.withStore w.store) := by
  have refused : w.execStore (.insertVector (vectorIdFromUlid row.id) vec) =
      (.error (.dimension w.store.dim vec.length), w.store) := by
    rcases w.execStore_cases (.insertVector (vectorIdFromUlid row.id) vec) with done | ⟨e, n, failed⟩
    · exact done.trans (if_pos misfit)
    · exact failed.trans (if_pos misfit)
  unfold insertEnd
  rw [refused]

theorem insertEnd_works (fits : vec.length = w.store.dim)
    (works : w.env.storeFault w.tick (.insertVector (vectorIdFromUlid row.id) vec) = none) :
    insertEnd t eng now tier row vec w = putEnd t eng now tier row
      (w.withStore (w.store.insertVector (vectorIdFromUlid row.id) vec).2) := by
  have ok := LocalStore.insertVector_fst fits (vectorIdFromUlid row.id)
  unfold insertEnd
  rw [World.execStore_works works]
  unfold StoreOp.exec
  simp only [ok]

theorem insertEnd_struck (fits : vec.length = w.store.dim) {e : StoreError} {writes : Nat}
    (struck : w.env.storeFault w.tick (.insertVector (vectorIdFromUlid row.id) vec) =
      some (e, writes)) :
    insertEnd t eng now tier row vec w = (.failed, w.withStore
      (if w.store.getVector (vectorIdFromUlid row.id) = none then
        w.store.insertWrites (vectorIdFromUlid row.id) vec writes else w.store)) := by
  have failed : w.execStore (.insertVector (vectorIdFromUlid row.id) vec) =
      (.error e, if w.store.getVector (vectorIdFromUlid row.id) = none then
        w.store.insertWrites (vectorIdFromUlid row.id) vec writes else w.store) := by
    rw [World.execStore_fault struck]
    change w.store.insertVectorFails (vectorIdFromUlid row.id) vec e writes = _
    unfold LocalStore.insertVectorFails
    rw [if_neg (not_not.mpr fits)]
    by_cases absent : w.store.getVector (vectorIdFromUlid row.id) = none
    · rw [if_pos absent, if_neg fun present => LocalStore.alreadyPresent_iff.mp present absent]
    · rw [if_neg absent, if_pos (LocalStore.alreadyPresent_iff.mpr absent)]
  unfold insertEnd
  rw [failed]

theorem insertEnd_unseen_iff (vec : List F) (w : World F) :
    ((insertEnd t eng now tier row vec w.next).1 ≠ .imported →
        w.SameMemories (insertEnd t eng now tier row vec w.next).2) ↔
      (vec.length = w.store.dim → w.store.getVector (vectorIdFromUlid row.id) = none →
        match w.env.storeFault (w.tick + 1) (.insertVector (vectorIdFromUlid row.id) vec) with
        | none => w.env.persistFault (w.tick + 2) (.putMemory (importItem t eng now tier row)) = none
        | some (_, writes) => writes = 0 ∨ writes = 1 ∧
            ¬ (w.store.isTombstoned (vectorIdFromUlid row.id) = true ∧
              (w.store.vecTree.find? (vectorIdFromUlid row.id)).isSome = true)) := by
  by_cases fits : vec.length = w.store.dim
  · rw [forall_prop_of_true fits]
    cases struck : w.env.storeFault (w.tick + 1) (.insertVector (vectorIdFromUlid row.id) vec) with
    | none =>
        rw [insertEnd_works (w := w.next) fits struck]
        cases put : w.env.persistFault (w.tick + 2) (.putMemory (importItem t eng now tier row)) with
        | none =>
            rw [putEnd_works (w := w.next.withStore _) put]
            exact iff_of_true (fun other => absurd rfl other) (fun _ => rfl)
        | some fault =>
            rw [putEnd_struck (w := w.next.withStore _) put]
            by_cases absent : w.store.getVector (vectorIdFromUlid row.id) = none
            · refine iff_of_false (fun same => ?_) (fun works => by cases works absent)
              have seen := (same nofun).2 (vectorIdFromUlid row.id)
              change (w.store.insertVector _ vec).2.getVector _ = _ at seen
              rw [LocalStore.getVector_insertVector _ fits, if_pos ⟨rfl, absent⟩, absent] at seen
              cases seen
            · refine iff_of_true (fun _ => ⟨rfl, fun id => ?_⟩) (fun none => absurd none absent)
              change (w.store.insertVector _ vec).2.getVector id = _
              rw [LocalStore.getVector_insertVector _ fits, if_neg fun both => absent both.2]
    | some fault =>
        obtain ⟨e, writes⟩ := fault
        rw [insertEnd_struck (w := w.next) fits struck]
        by_cases absent : w.store.getVector (vectorIdFromUlid row.id) = none
        · have hidden := LocalStore.insertWrites_hidden_iff vec absent writes
          rw [forall_prop_of_true absent, if_pos (show w.next.store.getVector _ = none from absent)]
          exact ⟨fun same => hidden.mp (same nofun).2, fun clean _ => ⟨rfl, hidden.mpr clean⟩⟩
        · rw [if_neg (show ¬ w.next.store.getVector _ = none from absent)]
          exact iff_of_true (fun _ => ⟨rfl, fun _ => rfl⟩) (fun none => absurd none absent)
  · rw [insertEnd_refused (w := w.next) fits]
    exact iff_of_true (fun _ => ⟨rfl, fun _ => rfl⟩) (fun same => absurd same fits)

/-- A row is counted as imported, or leaves the memories as they were, unless a failure
strikes behind its first visible write. -/
theorem rowEnd_unseen_iff (row : StudioRow F) (w : World F) :
    ((rowEnd t eng now row w).1 ≠ .imported → w.SameMemories (rowEnd t eng now row w).2) ↔
      Unstruck t eng now row w := by
  unfold rowEnd Unstruck
  cases mapTier row.tier with
  | none => exact iff_of_true (fun _ => ⟨rfl, fun _ => rfl⟩) (fun _ h => by cases h)
  | some tier =>
      by_cases empty : trim row.content = ""
      · simp only [empty, if_true]
        exact iff_of_true (fun _ => ⟨rfl, fun _ => rfl⟩) (fun _ _ full => absurd rfl full)
      · simp only [empty, if_false]
        cases embedded : w.env.embed w.tick (importContent eng row) with
        | error e => exact iff_of_true (fun _ => ⟨rfl, fun _ => rfl⟩) (fun _ _ _ _ h => by cases h)
        | ok vec =>
            have only : ∀ {P : MemoryTier → List F → Prop}, (∀ tier', some tier = some tier' →
                ¬ trim row.content = "" → ∀ vec', (Except.ok vec : Except String _) = .ok vec' →
                  P tier' vec') ↔ P tier vec := by
              intro P
              refine ⟨fun all => all tier rfl empty vec rfl, ?_⟩
              rintro here tier' ⟨⟩ - vec' ⟨⟩
              exact here
            rw [only]
            exact insertEnd_unseen_iff vec w

end Ends

/-- The report counts a row as imported when its end is that. -/
theorem imported_count (report : ImportReport) (ending : RowEnd) :
    (report.count ending).imported = report.imported ↔ ending ≠ .imported := by
  cases ending <;> simp [ImportReport.count]

/-- In every import, whatever fails: the counters add up to the number of rows, and a row that
is not counted as imported leaves memories and live vectors as they were, exactly when no
failure strikes behind the first visible write of a row. -/
theorem import_accounts_iff {source : Except String (List (Cells F))} {rows : List (StudioRow F)}
    (read : readStudioRows source = .ok rows) (w : World F) :
    ((∃ report w', run (runImport t eng source) w = (.ok (.ok report), w') ∧
        report.imported + report.skippedArchive + report.skippedEmpty + report.failed =
          rows.length) ∧
      ∀ before row report w₁ report' w₂, LoopAt t eng (w.env.clock w.tick) rows before row w.next report w₁ →
        run (importRow t eng (w.env.clock w.tick) report row) w₁ = (.ok report', w₂) →
          report'.imported = report.imported → w₁.SameMemories w₂) ↔
      ∀ before row report w₁, LoopAt t eng (w.env.clock w.tick) rows before row w.next report w₁ →
        Unstruck t eng (w.env.clock w.tick) row w₁ := by
  have sums : ∃ report w', run (runImport t eng source) w = (.ok (.ok report), w') ∧
      report.imported + report.skippedArchive + report.skippedEmpty + report.failed =
        rows.length := by
    obtain ⟨report, ran, total⟩ := run_runImport t eng read w
    exact ⟨report, _, ran, total⟩
  rw [and_iff_right sums]
  constructor
  · intro clean before row report w₁ reached
    refine (rowEnd_unseen_iff row w₁).mp fun other => ?_
    exact clean before row report w₁ _ _ reached (run_importRow t eng _ report row w₁)
      ((imported_count report _).mpr other)
  · intro unstruck before row report w₁ report' w₂ reached ran counted
    rw [run_importRow, Prod.mk.injEq] at ran
    obtain ⟨same, rfl⟩ := ran
    obtain rfl := Except.ok.inj same
    exact (rowEnd_unseen_iff row w₁).mpr (unstruck before row report w₁ reached)
      ((imported_count report _).mp counted)

end Mapping

/-! ### Imports of one row -/

/-- The embedding of a text by its length. -/
def lengthEmbedding (text : String) : Except String (List Fixed) := .ok [⟨text.length⟩]

/-- An environment with that embedding and the given failures of the database. -/
def Env.importing (persistFault : PersistOp Fixed → Option (PersistError × Nat)) : Env Fixed :=
  { Env.quiet with
    embed := fun _ text => lengthEmbedding text
    persistFault := fun _ op => persistFault op }

/-- A row of a source. -/
def studioCells (id content tier : String) : Cells Fixed :=
  [("id", .text id), ("content", .text content), ("scope", .text "default"), ("tags", .null),
    ("importance", .integer 5), ("created_at", .integer 0), ("metadata", .null),
    ("is_summary", .integer 0), ("tier", .text tier), ("memory_type", .text "project")]

def studioRow (id content tier : String) : StudioRow Fixed :=
  ⟨id, content, "default", 5, ⟨0⟩, "\x7b\x7d", 0, tier, "project"⟩

/-- A source with one row. -/
def oneRowSource : Except String (List (Cells Fixed)) :=
  .ok [studioCells "r1" "uses Rust" "short_term"]

def oneRow : StudioRow Fixed := studioRow "r1" "uses Rust" "short_term"

theorem oneRowSource_rows : readStudioRows oneRowSource = .ok [oneRow] := rfl

/-- Storage that does not fail strikes no row. -/
theorem unstruck_of_noFaults {F : Type} [FloatArith F] [JsonText F] {t : AlphanumericTable}
    {eng : MemoryEngine} {now : Nat} {row : StudioRow F} {w : World F} (works : w.env.NoFaults) :
    Unstruck t eng now row w := by
  intro tier _ _ vec _ _ _
  rw [works.store]
  exact works.persist _ _

/-- A source with a row for each end: one is archived, one is blank, and the embedder refuses
one. -/
def fourRowsSource : Except String (List (Cells Fixed)) :=
  .ok [studioCells "r1" "uses Rust" "short_term", studioCells "r2" "old" "archive",
    studioCells "r3" "  " "long_term", studioCells "r4" "no text for the model" "long_term"]

def fourRows : List (StudioRow Fixed) :=
  [studioRow "r1" "uses Rust" "short_term", studioRow "r2" "old" "archive",
    studioRow "r3" "  " "long_term", studioRow "r4" "no text for the model" "long_term"]

def refusingWorld : World Fixed :=
  World.fresh { Env.importing (fun _ => none) with
    embed := fun _ text => if text.length > 20 then .error "too long" else lengthEmbedding text }
    Db.empty (.empty 1)

theorem import_accounts_fourRows :
    ((∃ report w', run (runImport .ofAscii (plainEngine "") fourRowsSource) refusingWorld =
        (.ok (.ok report), w') ∧
        report.imported + report.skippedArchive + report.skippedEmpty + report.failed = 4) ∧
      ∀ before row report w₁ report' w₂,
        LoopAt .ofAscii (plainEngine "") 0 fourRows before row refusingWorld.next report w₁ →
        run (importRow .ofAscii (plainEngine "") 0 report row) w₁ = (.ok report', w₂) →
          report'.imported = report.imported → w₁.SameMemories w₂) ∧
      (run (runImport .ofAscii (plainEngine "") fourRowsSource) refusingWorld).1 =
        .ok (.ok ⟨1, 1, 1, 1⟩) := by
  have rows : readStudioRows fourRowsSource = .ok fourRows := rfl
  refine ⟨(import_accounts_iff rows refusingWorld).mpr fun before row report w₁ reached => ?_, rfl⟩
  refine unstruck_of_noFaults ?_
  have env := run_env (importRows .ofAscii (plainEngine "") 0 before) refusingWorld.next
  rw [show (run (importRows .ofAscii (plainEngine "") 0 before) _).2 = w₁ from
    congrArg Prod.snd reached.ran] at env
  rw [env]
  exact ⟨fun _ _ => rfl, fun _ _ => rfl⟩

/-- The row cannot be put, and its vector stays. -/
theorem import_strands_vector : ¬ ∀ (t : AlphanumericTable) (eng : MemoryEngine)
    (source : Except String (List (Cells Fixed))) (rows : List (StudioRow Fixed)),
      readStudioRows source = .ok rows → ∀ w : World Fixed,
        (∃ report w', run (runImport t eng source) w = (.ok (.ok report), w') ∧
          report.imported + report.skippedArchive + report.skippedEmpty + report.failed =
            rows.length) ∧
        ∀ before row report w₁ report' w₂,
          LoopAt t eng (w.env.clock w.tick) rows before row w.next report w₁ →
          run (importRow t eng (w.env.clock w.tick) report row) w₁ = (.ok report', w₂) →
            report'.imported = report.imported → w₁.SameMemories w₂ := by
  intro always
  have clean := (always .ofAscii (plainEngine "") oneRowSource [oneRow] oneRowSource_rows
    (World.fresh (.importing fun _ => some (.sqlite "disk full" false, 0)) Db.empty (.empty 1))).2
  have same := (clean [] oneRow .default _ _ _ ⟨⟨[], rfl⟩, rfl⟩ rfl rfl).2 (vectorIdFromUlid "r1")
  exact absurd same (by decide +kernel)

end FusionMemory
