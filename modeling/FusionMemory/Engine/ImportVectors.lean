import FusionMemory.Engine.ImportStudio

/-!
The vectors of imported rows (`run_import` of `fm-engine/src/import_studio.rs` over
`insert_vector` and `put_memory`).

The two stores overwrite differently: the row of an id is replaced, its live vector is
kept. `settled_rows` says that what an imported row leaves stays until the next row of its
id, and `import_indexes_iff` when every imported row is found under the embedding of its
own content.
-/

namespace FusionMemory

open Lib

variable {F : Type} [FloatArith F] [JsonText F] {t : AlphanumericTable} {eng : MemoryEngine}
  {now : Nat} {row : StudioRow F} {w : World F}

/-! ### One row -/

/-- Nothing stops the row: it is neither archived nor empty, and no call of it fails. -/
def RowPasses (t : AlphanumericTable) (eng : MemoryEngine) (now : Nat) (row : StudioRow F)
    (w : World F) : Prop :=
  ∃ tier vec, mapTier row.tier = some tier ∧ trim row.content ≠ "" ∧
    w.env.embed w.tick (importContent eng row) = .ok vec ∧ vec.length = w.store.dim ∧
    w.env.storeFault (w.tick + 1) (.insertVector (vectorIdFromUlid row.id) vec) = none ∧
    w.env.persistFault (w.tick + 2) (.putMemory (importItem t eng now tier row)) = none

/-- What a row leaves that nothing stops. -/
theorem rowEnd_passes (passes : RowPasses t eng now row w) : ∃ tier vec,
    w.env.embed w.tick (importContent eng row) = .ok vec ∧ vec.length = w.store.dim ∧
    rowEnd t eng now row w = (.imported,
      (w.next.withStore (w.store.insertVector (vectorIdFromUlid row.id) vec).2).withDb
        (w.db.putMemory (importItem t eng now tier row))) := by
  obtain ⟨tier, vec, mapped, full, embedded, fits, inserts, puts⟩ := passes
  refine ⟨tier, vec, embedded, fits, ?_⟩
  unfold rowEnd
  simp only [mapped, if_neg full, embedded]
  rw [insertEnd_works (w := w.next) fits inserts, putEnd_works (w := w.next.withStore _) puts]
  rfl

/-- A row that is stopped leaves the memories, and every vector but a missing one of its
own id. -/
theorem rowEnd_stopped (stopped : ¬ RowPasses t eng now row w) :
    (rowEnd t eng now row w).1 ≠ .imported ∧
      (rowEnd t eng now row w).2.db.memoryItem = w.db.memoryItem ∧
      ∀ id, id ≠ vectorIdFromUlid row.id ∨ w.store.getVector (vectorIdFromUlid row.id) ≠ none →
        (rowEnd t eng now row w).2.store.getVector id = w.store.getVector id := by
  unfold rowEnd
  cases mapped : mapTier row.tier with
  | none => exact ⟨nofun, rfl, fun _ _ => rfl⟩
  | some tier =>
      by_cases empty : trim row.content = ""
      · dsimp only
        rw [if_pos empty]
        exact ⟨nofun, rfl, fun _ _ => rfl⟩
      · dsimp only
        rw [if_neg empty]
        cases embedded : w.env.embed w.tick (importContent eng row) with
        | error e => exact ⟨nofun, rfl, fun _ _ => rfl⟩
        | ok vec =>
            by_cases fits : vec.length = w.store.dim
            · dsimp only
              cases struck : w.env.storeFault (w.tick + 1)
                (.insertVector (vectorIdFromUlid row.id) vec) with
              | none =>
                  rw [insertEnd_works (w := w.next) fits struck]
                  cases put : w.env.persistFault (w.tick + 2)
                    (.putMemory (importItem t eng now tier row)) with
                  | none => exact absurd ⟨tier, vec, mapped, empty, embedded, fits, struck, put⟩ stopped
                  | some fault =>
                      rw [putEnd_struck (w := w.next.withStore _) put]
                      refine ⟨nofun, rfl, fun id kept => ?_⟩
                      change (w.store.insertVector _ vec).2.getVector id = _
                      rw [LocalStore.getVector_insertVector _ fits, if_neg]
                      rintro ⟨rfl, absent⟩
                      exact kept.elim (fun other => other rfl) (fun live => live absent)
              | some fault =>
                  obtain ⟨e, writes⟩ := fault
                  rw [insertEnd_struck (w := w.next) fits struck]
                  refine ⟨nofun, rfl, fun id kept => ?_⟩
                  change (if w.store.getVector _ = none then _ else _ : LocalStore F).getVector id = _
                  split_ifs with absent
                  · refine LocalStore.getVector_insertWrites_of_ne _ vec writes fun same => ?_
                    exact kept.elim (fun other => other same.symm) (fun live => live absent)
                  · rfl
            · dsimp only
              rw [insertEnd_refused (w := w.next) fits]
              exact ⟨nofun, rfl, fun _ _ => rfl⟩

theorem rowEnd_imported_iff : (rowEnd t eng now row w).1 = .imported ↔ RowPasses t eng now row w := by
  refine ⟨fun imported => ?_, fun passes => ?_⟩
  · by_contra stopped
    exact (rowEnd_stopped stopped).1 imported
  · obtain ⟨tier, vec, -, -, ends⟩ := rowEnd_passes passes
    exact congrArg Prod.fst ends

/-! ### Rows after it -/

theorem worldAfter_append_cons (before after : List (StudioRow F)) (row : StudioRow F) (w : World F) :
    worldAfter t eng now (before ++ row :: after) w =
      worldAfter t eng now after (rowEnd t eng now row (worldAfter t eng now before w)).2 := by
  unfold worldAfter
  rw [List.foldl_append, List.foldl_cons]

omit [FloatArith F] [JsonText F] in
theorem getMemory_putMemory (db : Db F) (item : MemoryItem F) (id : String) :
    (db.putMemory item).getMemory id = if item.id = id then some item else db.getMemory id :=
  Table.find?_upsert _ _ _

/-- What an id stands for, in the database and in the store. -/
structure Holds (id : String) (item : MemoryItem F) (vec : List F) (w : World F) : Prop where
  memory : w.db.getMemory id = some item
  vector : w.store.getVector (vectorIdFromUlid id) = some vec

/-- The step lemma: a row of another id, or one that is stopped, leaves what an id holds. -/
theorem Holds.rowEnd {id : String} {item : MemoryItem F} {vec : List F} (holds : Holds id item vec w)
    (distinct : vectorIdFromUlid row.id = vectorIdFromUlid id → row.id = id)
    (other : row.id = id → ¬ RowPasses t eng now row w) :
    Holds id item vec (rowEnd t eng now row w).2 := by
  by_cases passes : RowPasses t eng now row w
  · have ne : row.id ≠ id := fun same => other same passes
    obtain ⟨tier, vec', -, fits, ends⟩ := rowEnd_passes passes
    rw [ends]
    refine ⟨(getMemory_putMemory w.db _ id).trans ((if_neg ne).trans holds.memory), ?_⟩
    change (w.store.insertVector _ vec').2.getVector _ = _
    rw [LocalStore.getVector_insertVector _ fits, if_neg fun both => ne (distinct both.1)]
    exact holds.vector
  · obtain ⟨-, items, vectors⟩ := rowEnd_stopped passes
    refine ⟨(congrArg (fun table => table.find? id) items).trans holds.memory, ?_⟩
    rw [vectors, holds.vector]
    by_cases same : vectorIdFromUlid id = vectorIdFromUlid row.id
    · exact .inr (by rw [← same, holds.vector]; simp)
    · exact .inl same

/-- The run lemma. -/
theorem Holds.worldAfter {id : String} {item : MemoryItem F} {vec : List F}
    (rows : List (StudioRow F)) (holds : Holds id item vec w)
    (distinct : ∀ row ∈ rows, vectorIdFromUlid row.id = vectorIdFromUlid id → row.id = id)
    (others : ∀ before row after, rows = before ++ row :: after → row.id = id →
      ¬ RowPasses t eng now row (worldAfter t eng now before w)) :
    Holds id item vec (worldAfter t eng now rows w) := by
  induction rows generalizing w with
  | nil => exact holds
  | cons row rest ih =>
      have first := holds.rowEnd (distinct row List.mem_cons_self) (others [] row rest rfl)
      refine ih first (fun row' mem => distinct row' (List.mem_cons_of_mem _ mem)) ?_
      rintro before row' after rfl
      exact others (row :: before) row' after rfl

/-- What an imported row leaves for its id. -/
theorem holds_of_passes (passes : RowPasses t eng now row w) : ∃ tier vec vec',
    w.env.embed w.tick (importContent eng row) = .ok vec ∧
      Holds row.id (importItem t eng now tier row) vec' (rowEnd t eng now row w).2 ∧
      (vec' = vec ↔ w.store.getVector (vectorIdFromUlid row.id) = none ∨
        w.store.getVector (vectorIdFromUlid row.id) = some vec) := by
  obtain ⟨tier, vec, embedded, fits, ends⟩ := rowEnd_passes passes
  have put : ((rowEnd t eng now row w).2.db).getMemory row.id =
      some (importItem t eng now tier row) := by
    rw [ends]
    exact (getMemory_putMemory w.db _ row.id).trans (if_pos rfl)
  have inserted : (rowEnd t eng now row w).2.store.getVector (vectorIdFromUlid row.id) =
      if w.store.getVector (vectorIdFromUlid row.id) = none then some vec
      else w.store.getVector (vectorIdFromUlid row.id) := by
    rw [ends]
    change (w.store.insertVector _ vec).2.getVector _ = _
    rw [LocalStore.getVector_insertVector _ fits]
    simp only [true_and]
  cases live : w.store.getVector (vectorIdFromUlid row.id) with
  | none =>
      rw [live, if_pos rfl] at inserted
      exact ⟨tier, vec, vec, embedded, ⟨put, inserted⟩, by simp⟩
  | some old =>
      rw [live, if_neg (by simp)] at inserted
      exact ⟨tier, vec, old, embedded, ⟨put, inserted⟩, by simp⟩

/-! ### Whole imports -/

theorem LoopAt.world {rows before : List (StudioRow F)} {report : ImportReport} {w₁ : World F}
    (reached : LoopAt t eng now rows before row w report w₁) :
    w₁ = worldAfter t eng now before w := by
  obtain ⟨report', ran, -⟩ := run_foldlM_importRow t eng now before .default w
  exact congrArg Prod.snd (reached.ran.symm.trans ran)

theorem LoopAt.env {rows before : List (StudioRow F)} {report : ImportReport} {w₁ : World F}
    (reached : LoopAt t eng now rows before row w report w₁) : w₁.env = w.env := by
  rw [← run_env (importRows t eng now before) w, reached.ran]

theorem LoopAt.mem {rows before : List (StudioRow F)} {report : ImportReport} {w₁ : World F}
    (reached : LoopAt t eng now rows before row w report w₁) : row ∈ rows := by
  obtain ⟨after, split⟩ := reached.split
  rw [split]
  exact List.mem_append_right _ List.mem_cons_self

/-- The row at which the loop has come is the last of its id that passes. -/
def LastOfId (t : AlphanumericTable) (eng : MemoryEngine) (now : Nat)
    (rows before : List (StudioRow F)) (row : StudioRow F) (w : World F) : Prop :=
  ∀ before' row' report' w', LoopAt t eng now rows before' row' w report' w' →
    before.length < before'.length → row'.id = row.id → ¬ RowPasses t eng now row' w'

/-- Behind a row that passes there is a last one of its id. -/
theorem exists_lastOfId {rows : List (StudioRow F)} (w : World F) (n : Nat) :
    ∀ (before : List (StudioRow F)) (row : StudioRow F) (report : ImportReport) (w₁ : World F),
      rows.length ≤ before.length + n → LoopAt t eng now rows before row w report w₁ →
        RowPasses t eng now row w₁ → ∃ before' row' report' w₁',
          LoopAt t eng now rows before' row' w report' w₁' ∧ RowPasses t eng now row' w₁' ∧
            row'.id = row.id ∧ LastOfId t eng now rows before' row' w := by
  induction n with
  | zero =>
      intro before row report w₁ short reached
      obtain ⟨after, split⟩ := reached.split
      rw [split, List.length_append, List.length_cons] at short
      omega
  | succ n ih =>
      intro before row report w₁ short reached passes
      by_cases last : LastOfId t eng now rows before row w
      · exact ⟨before, row, report, w₁, reached, passes, rfl, last⟩
      · unfold LastOfId at last
        push Not at last
        obtain ⟨before', row', report', w', reached', later, same, passes'⟩ := last
        obtain ⟨before'', row'', report'', w'', found, passes'', same', final⟩ :=
          ih before' row' report' w' (by omega) reached' passes'
        exact ⟨before'', row'', report'', w'', found, passes'', same'.trans same, final⟩

/-- What the last row of an id leaves is there at the end. -/
theorem LastOfId.holds {rows before : List (StudioRow F)} {report : ImportReport} {w₁ : World F}
    (reached : LoopAt t eng now rows before row w report w₁)
    (last : LastOfId t eng now rows before row w)
    (distinct : ∀ row' ∈ rows, vectorIdFromUlid row'.id = vectorIdFromUlid row.id → row'.id = row.id)
    {item : MemoryItem F} {vec : List F} (holds : Holds row.id item vec (rowEnd t eng now row w₁).2) :
    Holds row.id item vec (worldAfter t eng now rows w) := by
  obtain ⟨after, split⟩ := reached.split
  rw [split, worldAfter_append_cons, ← reached.world]
  refine holds.worldAfter after (fun row' mem => distinct row' (split ▸ by simp [mem])) ?_
  intro mid row' rest cut same
  obtain ⟨report', reached'⟩ := LoopAt.reaches t eng now w
    (show rows = (before ++ row :: mid) ++ row' :: rest by rw [split, cut]; simp)
  rw [reached.world, ← worldAfter_append_cons]
  exact last _ row' report' _ reached' (by simp) same

/-- In every import with a deterministic embedder, whatever the stores hold and whatever fails:
each row counted as imported has the embedding of the content now stored under its id, exactly
when the last imported row of each id comes to a store without a live vector under the id, or
with that of its own content. -/
theorem import_indexes_iff {source : Except String (List (Cells F))} {rows : List (StudioRow F)}
    (read : readStudioRows source = .ok rows) {w w' : World F} {total : ImportReport}
    (ran : run (runImport t eng source) w = (.ok (.ok total), w'))
    {embedding : String → Except String (List F)}
    (deterministic : ∀ k text, w.env.embed k text = embedding text)
    (distinct : ∀ row ∈ rows, ∀ row' ∈ rows,
      vectorIdFromUlid row.id = vectorIdFromUlid row'.id → row.id = row'.id) :
    (∀ before row report w₁ report' w₂,
        LoopAt t eng (w.env.clock w.tick) rows before row w.next report w₁ →
        run (importRow t eng (w.env.clock w.tick) report row) w₁ = (.ok report', w₂) →
        report'.imported = report.imported + 1 → ∃ item vid vec,
          w'.db.getMemory row.id = some item ∧ parseU64 item.vectorRef = some vid ∧
            embedding item.content = .ok vec ∧ w'.store.getVector vid = some vec) ↔
      ∀ before row report w₁, LoopAt t eng (w.env.clock w.tick) rows before row w.next report w₁ →
        RowPasses t eng (w.env.clock w.tick) row w₁ →
        LastOfId t eng (w.env.clock w.tick) rows before row w.next →
        ∀ vec, embedding (importContent eng row) = .ok vec →
          w₁.store.getVector (vectorIdFromUlid row.id) = none ∨
            w₁.store.getVector (vectorIdFromUlid row.id) = some vec := by
  have final : w' = worldAfter t eng (w.env.clock w.tick) rows w.next := by
    obtain ⟨report, imports, -⟩ := run_runImport t eng read w
    exact congrArg Prod.snd (ran.symm.trans imports)
  -- What the last row of an id leaves, and when that is the embedding of its content.
  have left : ∀ before row report w₁,
      LoopAt t eng (w.env.clock w.tick) rows before row w.next report w₁ →
      RowPasses t eng (w.env.clock w.tick) row w₁ →
      LastOfId t eng (w.env.clock w.tick) rows before row w.next → ∃ tier vec vec',
        embedding (importContent eng row) = .ok vec ∧
        Holds row.id (importItem t eng (w.env.clock w.tick) tier row) vec' w' ∧
        (vec' = vec ↔ w₁.store.getVector (vectorIdFromUlid row.id) = none ∨
          w₁.store.getVector (vectorIdFromUlid row.id) = some vec) := by
    intro before row report w₁ reached passes last
    obtain ⟨tier, vec, vec', embedded, holds, same⟩ := holds_of_passes passes
    rw [reached.env] at embedded
    refine ⟨tier, vec, vec', (deterministic _ _).symm.trans embedded, ?_, same⟩
    rw [final]
    exact last.holds reached (fun row' mem => distinct row' mem row reached.mem) holds
  have ref : ∀ id, parseU64 (toString (vectorIdFromUlid id)) = some (vectorIdFromUlid id) :=
    fun id => by rw [parseU64_toString, if_pos (vectorIdFromUlid_lt id)]
  constructor
  · intro indexed before row report w₁ reached passes last vec embedded
    obtain ⟨tier, vec₀, vec', embedded₀, holds, same⟩ := left before row report w₁ reached passes last
    obtain rfl : vec₀ = vec := Except.ok.inj (embedded₀.symm.trans embedded)
    have counted := rowEnd_imported_iff.mpr passes
    obtain ⟨item, vid, vec, stored, reference, content, found⟩ := indexed before row report w₁ _ _
      reached (run_importRow t eng _ report row w₁) (by rw [counted]; rfl)
    obtain rfl := Option.some.inj (holds.memory.symm.trans stored)
    obtain rfl := Option.some.inj ((ref row.id).symm.trans reference)
    have one : vec' = vec := Option.some.inj (holds.vector.symm.trans found)
    have other : vec₀ = vec := Except.ok.inj (embedded₀.symm.trans content)
    exact same.mp (one.trans other.symm)
  · intro fresh before row report w₁ report' w₂ reached step counted
    have passes : RowPasses t eng (w.env.clock w.tick) row w₁ := by
      rw [run_importRow, Prod.mk.injEq] at step
      obtain rfl := Except.ok.inj step.1
      refine rowEnd_imported_iff.mp (by_contra fun other => ?_)
      rw [(imported_count report _).mpr other] at counted
      omega
    obtain ⟨before', row', report₁, w₁', reached', passes', id, last⟩ :=
      exists_lastOfId w.next rows.length before row report w₁ (by omega) reached passes
    obtain ⟨tier, vec, vec', embedded, holds, same⟩ :=
      left before' row' report₁ w₁' reached' passes' last
    obtain rfl := same.mpr (fresh before' row' report₁ w₁' reached' passes' last vec embedded)
    rw [← id]
    exact ⟨_, _, _, holds.memory, ref row'.id, embedded, holds.vector⟩

/-- An engine with this store, in which nothing fails. -/
def importWorld (s : LocalStore Fixed) : World Fixed :=
  World.fresh (.importing fun _ => none) Db.empty s

/-- The row comes again, and another with it. -/
def secondSource : Except String (List (Cells Fixed)) :=
  .ok [studioCells "r1" "uses Rust" "short_term", studioCells "r2" "likes tea" "long_term"]

def secondRow : StudioRow Fixed := studioRow "r2" "likes tea" "long_term"

/-- After an import of the first row. -/
def importedOnce : World Fixed :=
  (run (runImport .ofAscii (plainEngine "") oneRowSource) (importWorld (.empty 1))).2

/-- After an import of both. -/
def importedTwice : World Fixed :=
  (run (runImport .ofAscii (plainEngine "") secondSource) importedOnce).2

/-- The vector of the memory `id` is the embedding of its content. -/
def HasOwnVector (w : World Fixed) (id : String) : Prop :=
  ∃ item vid vec, w.db.getMemory id = some item ∧ parseU64 item.vectorRef = some vid ∧
    lengthEmbedding item.content = .ok vec ∧ w.store.getVector vid = some vec

/-- A second import of two rows, of which one has its vector. -/
theorem import_indexes_second : HasOwnVector importedTwice "r1" ∧ HasOwnVector importedTwice "r2" := by
  have rows : readStudioRows secondSource = .ok [oneRow, secondRow] := rfl
  have distinct : ∀ row ∈ [oneRow, secondRow], ∀ row' ∈ [oneRow, secondRow],
      vectorIdFromUlid row.id = vectorIdFromUlid row'.id → row.id = row'.id := by decide +kernel
  obtain ⟨total, ran, -⟩ := run_runImport .ofAscii (plainEngine "") rows importedOnce
  -- Nothing stops the rows, and only the first has a live vector.
  have firstPasses : RowPasses .ofAscii (plainEngine "") 0 oneRow importedOnce.next :=
    ⟨.short, [⟨9⟩], rfl, by decide +kernel, rfl, rfl, rfl, rfl⟩
  have secondPasses : RowPasses .ofAscii (plainEngine "") 0 secondRow
      (worldAfter .ofAscii (plainEngine "") 0 [oneRow] importedOnce.next) := by
    have env : (worldAfter .ofAscii (plainEngine "") 0 [oneRow] importedOnce.next).env =
        .importing fun _ => none := by with_unfolding_all rfl
    exact ⟨.long, [⟨9⟩], rfl, by decide +kernel, by rw [env]; rfl, by decide +kernel,
      by rw [env]; rfl, by rw [env]; rfl⟩
  have vectors : ∀ before row report w₁, LoopAt .ofAscii (plainEngine "") 0 [oneRow, secondRow]
      before row importedOnce.next report w₁ → RowPasses .ofAscii (plainEngine "") 0 row w₁ ∧
        ∀ vec, lengthEmbedding (importContent (plainEngine "") row) = .ok vec →
          w₁.store.getVector (vectorIdFromUlid row.id) = none ∨
            w₁.store.getVector (vectorIdFromUlid row.id) = some vec := by
    intro before row report w₁ reached
    obtain ⟨after, split⟩ := reached.split
    rw [reached.world]
    rcases before with ⟨⟩ | ⟨r, ⟨⟩ | ⟨r', rest⟩⟩
    · obtain ⟨rfl, -⟩ := List.cons.inj split
      refine ⟨firstPasses, fun vec embedded => ?_⟩
      obtain rfl : [⟨9⟩] = vec := Except.ok.inj embedded
      exact .inr (by decide +kernel)
    · obtain ⟨rfl, tail⟩ := List.cons.inj split
      obtain ⟨rfl, -⟩ := List.cons.inj tail
      exact ⟨secondPasses, fun vec _ => .inl (by decide +kernel)⟩
    · simp at split
  have indexed := (import_indexes_iff rows ran (fun _ _ => rfl)
    distinct).mpr fun before row report w₁ reached _ _ => (vectors before row report w₁ reached).2
  have each : ∀ row ∈ [oneRow, secondRow], HasOwnVector importedTwice row.id := by
    intro row mem
    obtain ⟨before, after, split⟩ := List.append_of_mem mem
    obtain ⟨report, reached⟩ := LoopAt.reaches .ofAscii (plainEngine "") 0 importedOnce.next split
    have counted := rowEnd_imported_iff.mpr (vectors before row report _ reached).1
    unfold HasOwnVector importedTwice
    rw [ran]
    exact indexed before row report _ _ _ reached
      (run_importRow .ofAscii (plainEngine "") 0 report row _) (by rw [counted]; rfl)
  exact ⟨each oneRow List.mem_cons_self, each secondRow (List.mem_cons_of_mem _ List.mem_cons_self)⟩

/-- The row was imported before with other content: its old vector stays. -/
theorem import_keeps_old_vector : ¬ ∀ (t : AlphanumericTable) (eng : MemoryEngine)
    (source : Except String (List (Cells Fixed))) (rows : List (StudioRow Fixed)),
      readStudioRows source = .ok rows → ∀ (w w' : World Fixed) (total : ImportReport),
        run (runImport t eng source) w = (.ok (.ok total), w') →
        ∀ embedding : String → Except String (List Fixed),
          (∀ k text, w.env.embed k text = embedding text) →
          (∀ row ∈ rows, ∀ row' ∈ rows,
            vectorIdFromUlid row.id = vectorIdFromUlid row'.id → row.id = row'.id) →
          ∀ before row report w₁ report' w₂,
            LoopAt t eng (w.env.clock w.tick) rows before row w.next report w₁ →
            run (importRow t eng (w.env.clock w.tick) report row) w₁ = (.ok report', w₂) →
            report'.imported = report.imported + 1 → ∃ item vid vec,
              w'.db.getMemory row.id = some item ∧ parseU64 item.vectorRef = some vid ∧
                embedding item.content = .ok vec ∧ w'.store.getVector vid = some vec := by
  intro always
  have distinct : ∀ row ∈ [oneRow], ∀ row' ∈ [oneRow],
      vectorIdFromUlid row.id = vectorIdFromUlid row'.id → row.id = row'.id := by
    intro row mem row' mem' _
    rw [List.mem_singleton.mp mem, List.mem_singleton.mp mem']
  let w : World Fixed :=
    importWorld ((LocalStore.empty 1).insertVector (vectorIdFromUlid "r1") [⟨4⟩]).2
  have live : w.next.store.getVector (vectorIdFromUlid "r1") = some [⟨4⟩] :=
    (LocalStore.getVector_insertVector _ rfl _ _).trans (if_pos ⟨rfl, rfl⟩)
  have passes : RowPasses .ofAscii (plainEngine "") 0 oneRow w.next :=
    ⟨.short, [⟨9⟩], rfl, by decide +kernel, rfl, rfl, rfl, rfl⟩
  obtain ⟨total, ran, -⟩ := run_runImport .ofAscii (plainEngine "") oneRowSource_rows w
  have step := run_importRow .ofAscii (plainEngine "") 0 .default oneRow w.next
  obtain ⟨item, vid, vec, stored, reference, content, found⟩ :=
    always .ofAscii (plainEngine "") oneRowSource [oneRow] oneRowSource_rows w _ total ran
      lengthEmbedding (fun _ _ => rfl) distinct [] oneRow .default w.next _ _ ⟨⟨[], rfl⟩, rfl⟩ step
      (by rw [rowEnd_imported_iff.mpr passes]; rfl)
  obtain ⟨tier, vec₀, vec', embedded, holds, same⟩ := holds_of_passes passes
  obtain rfl := Option.some.inj (holds.memory.symm.trans stored)
  obtain rfl : vectorIdFromUlid "r1" = vid := Option.some.inj (by
    rw [← reference]
    exact (parseU64_toString _).trans (if_pos (vectorIdFromUlid_lt _)) |>.symm)
  have one : vec' = vec := Option.some.inj (holds.vector.symm.trans found)
  have other : vec₀ = vec := Except.ok.inj (embedded.symm.trans content)
  rcases same.mp (one.trans other.symm) with absent | own
  · exact absurd (live.symm.trans absent) (by simp)
  · have nine : [⟨9⟩] = vec₀ := Except.ok.inj embedded
    rw [← nine] at own
    exact absurd (live.symm.trans own) (by decide)

end FusionMemory
