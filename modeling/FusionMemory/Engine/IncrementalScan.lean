import FusionMemory.Engine.Calls
import FusionMemory.Engine.ConsolidateOrder

/-!
What a consolidation run leaves undone.

A run looks at the rows that were created or accessed since the last recorded run.
`consolidate_covers_changes` says that after a run none of these is forgotten but live,
and none is pending, and that every other live row is as it was: such a row may be
overdue for recycling, as `unchanged_memory_is_overdue` shows.
-/

namespace FusionMemory

open Lib

variable {F : Type} [FloatArith F] [JsonText F]

/-! ### Rows outside the change set -/

/-- A live row stays as it is. -/
def World.KeepsRow (i : String) (r : MemoryItem F) (w w' : World F) : Prop :=
  w.db.getMemory i = some r → w'.db.getMemory i = some r

omit [FloatArith F] [JsonText F] in
theorem World.KeepsRow.trans {i : String} {r : MemoryItem F} {w w' w'' : World F}
    (first : w.KeepsRow i r w') (last : w'.KeepsRow i r w'') : w.KeepsRow i r w'' :=
  fun found => last (first found)

section Keeps

variable {i : String} {r : MemoryItem F} {α : Type}

omit [JsonText F] in
theorem keepsRow_run {p : EngineM F α} (only : Program.Only (Request.Avoids i) p) (w : World F) :
    w.KeepsRow i r (run p w).2 := fun found => (getMemory_run only w).trans found

omit [FloatArith F] [JsonText F] in
theorem avoids_first {changed : List (MemoryItem F)} (outside : ∀ m ∈ changed, m.id ≠ i)
    {q : Request F} (request : FirstRequest changed q) : q.Avoids i := by
  cases request with
  | bury listed => exact outside _ listed
  | raise listed =>
      have other := outside _ listed
      exact other
  | _ => trivial

omit [JsonText F] in
theorem avoids_merge {all changed : List (MemoryItem F)} (outside : ∀ m ∈ changed, m.id ≠ i)
    {q : Request F} (request : MergeRequest all changed q) : q.Avoids i := by
  cases request with
  | bury listed => exact outside _ listed
  | revive listed _ => exact outside _ listed
  | _ => trivial

/-- Phases 1, 2 and 4 of a run over `changed` ask for nothing but what `P` allows. -/
structure AllowsPhases (P : Request F → Prop) (changed : List (MemoryItem F)) : Prop where
  first : ∀ q, FirstRequest changed q → P q
  merge : ∀ all q, MergeRequest all changed q → P q
  list : ∀ tenant ns, P (.persist (.listAllByTenantScoped tenant ns))
  extract : ∀ text, P (.extract text)
  rewrite : ∀ m ∈ changed, ∀ entities, P (.persist (.putMemory (reextracted m entities)))
  log : ∀ op payload «at», P (.persist (.appendWop op payload «at»))

omit [JsonText F] in
theorem allowsPhases_avoids {changed : List (MemoryItem F)} (outside : ∀ m ∈ changed, m.id ≠ i) :
    AllowsPhases (Request.Avoids i) changed :=
  ⟨fun _ request => avoids_first outside request, fun _ _ request => avoids_merge outside request,
    fun _ _ => trivial, fun _ => trivial, fun m listed _ => outside m listed, fun _ _ _ => trivial⟩

theorem AllowsPhases.reextract {P : Request F → Prop} {changed : List (MemoryItem F)}
    (allows : AllowsPhases P changed) {m : MemoryItem F} (listed : m ∈ changed) (eng : MemoryEngine)
    (now : Nat) (acc : Progress) : Program.Only P (reextract eng now acc m) := by
  unfold FusionMemory.reextract
  split_ifs
  · refine Program.Only.bind (Program.Only.perform (allows.extract _)) fun extracted => ?_
    split_ifs
    · refine Program.Only.bind (only_persist (allows.rewrite m listed _)) fun reply => ?_
      cases reply with
      | error e => trivial
      | ok _ => exact Program.Only.bind (only_persist (allows.log _ _ _)) fun _ => trivial
    · trivial
  · trivial

/-- What follows phase 4. -/
def afterReextract (eng : MemoryEngine) (ns : NamespaceFilter) (start : Nat) (tally : Tally)
    (merged summarized reextracted : Progress) : EngineM F ConsolidationReport := do
  let reconciled ← consolidateReconcile eng start reextracted.failures ns
  let finish ← nowMs
  let report : ConsolidationReport :=
    { dropped := tally.dropped, promoted := tally.promoted, merged := merged.count,
      summarized := summarized.count, reextracted := reextracted.count,
      reconciled := reconciled.count, elapsedMs := finish - start,
      failures := reconciled.failures }
  recordRun ns report start
  let _ ← persist (.appendAudit start "system" "consolidate" "saga" (consolidationDetail report))
  return report

theorem afterMerge_eq (eng : MemoryEngine) (ns : NamespaceFilter) (start : Nat)
    (changed : List (MemoryItem F)) (tally : Tally) (merged : Progress) :
    afterMerge eng ns start changed tally merged = (do
      let summarized ← consolidateSummarize eng changed start merged.failures ns
      let reextracted ← changed.foldlM (reextract eng start) ⟨0, summarized.failures⟩
      afterReextract eng ns start tally merged summarized reextracted) := by
  unfold afterMerge lateProgram afterReextract
  simp only [bind_assoc]
  rfl

/-- What each allowed request keeps, and the summaries and phase 5 keep, a run keeps. -/
theorem keeps_consolidateChanged {P : Request F → Prop} {changed : List (MemoryItem F)}
    (allows : AllowsPhases P changed) {G : World F → Prop}
    (step : ∀ q w, P q → G w → G (w.exec q).2) {eng : MemoryEngine} {ns : NamespaceFilter}
    {start : Nat}
    (summarize : ∀ failures w, G w → G (run (consolidateSummarize eng changed start failures ns) w).2)
    (rest : ∀ tally merged summarized reextracted w, G w →
      G (run (afterReextract eng ns start tally merged summarized reextracted) w).2)
    {w : World F} (holds : G w) : G (run (consolidateChanged eng ns start changed) w).2 := by
  let R : World F → World F → Prop := fun w w' => G w → G w'
  have trans : ∀ {w w' w''}, R w w' → R w' w'' → R w w'' := fun first last h => last (first h)
  have keeps : ∀ {α : Type} {p : EngineM F α}, Program.Only P p → ∀ w, R w (run p w).2 :=
    fun only w => only.run (R := R) (fun _ h => h) trans (fun q w allowed => step q w allowed) w
  unfold consolidateChanged
  refine run_bind_rel (R := R) trans (keeps ?_ w) (fun tally w₁ _ => ?_) holds
  · exact Program.Only.foldlM _ (fun m listed acc =>
      (only_recycleOrPromote start listed acc).mono allows.first) _
  refine run_bind_rel (R := R) trans (keeps ?_ w₁) fun merged w₂ _ => ?_
  · refine Program.Only.bind (only_persistOrFail (allows.list _ _)) fun all => ?_
    refine Program.Only.foldlM _ (fun src mem acc => ?_) _
    obtain ⟨listed, semantic⟩ := List.mem_filter.mp mem
    exact (only_mergeSource listed semantic acc).mono (allows.merge all)
  rw [afterMerge_eq]
  refine run_bind_rel (R := R) trans (summarize _ w₂) fun summarized w₃ _ => ?_
  refine run_bind_rel (R := R) trans (keeps ?_ w₃) fun reextracted w₄ _ => rest _ _ _ _ w₄
  exact Program.Only.foldlM _ (fun m listed acc => allows.reextract listed eng start acc) _

omit [JsonText F] in
/-- After phase 5 a run writes no row. -/
theorem keepsRow_afterReextract {eng : MemoryEngine} {ns : NamespaceFilter} {start : Nat}
    {reextracted : Progress} {w : World F}
    (reconciles : w.KeepsRow i r (run (consolidateReconcile eng start reextracted.failures ns) w).2)
    (tally : Tally) (merged summarized : Progress) :
    w.KeepsRow i r (run (afterReextract eng ns start tally merged summarized reextracted) w).2 := by
  refine run_bind_rel (R := World.KeepsRow i r) World.KeepsRow.trans reconciles
    fun reconciled w₁ _ => keepsRow_run ?_ w₁
  refine Program.Only.bind (Program.Only.perform trivial) fun finish => ?_
  refine Program.Only.bind (only_recordRun (fun _ _ _ => trivial) trivial ns) fun _ => ?_
  exact Program.Only.bind (only_persist trivial) fun _ => trivial

theorem getMemory_consolidateSummarize {w : World F} (found : w.db.getMemory i = some r)
    (eng : MemoryEngine) (changed : List (MemoryItem F)) («at» : Nat)
    (failures : List ConsolidationFailure) (ns : NamespaceFilter) :
    (run (consolidateSummarize eng changed «at» failures ns) w).2.db.getMemory i = some r := by
  obtain ⟨mem, key⟩ := Table.find?_eq_some_iff.mp found
  have kept := (adds_consolidateSummarize eng changed «at» failures ns w).kept r mem
  exact Table.find?_eq_some_iff.mpr ⟨kept, key⟩

/-- A run keeps the live rows that are not in its change set, whatever fails. -/
theorem keepsRow_consolidateChanged (live : r.tombstone = false) {changed : List (MemoryItem F)}
    (outside : ∀ m ∈ changed, m.id ≠ i) (eng : MemoryEngine) (ns : NamespaceFilter) (start : Nat)
    (w : World F) : w.KeepsRow i r (run (consolidateChanged eng ns start changed) w).2 := by
  intro found
  refine keeps_consolidateChanged (allowsPhases_avoids outside)
    (G := fun w => w.db.getMemory i = some r)
    (fun q w avoids found => (getMemory_exec w avoids).trans found)
    (fun failures w found => getMemory_consolidateSummarize found eng changed start failures ns)
    (fun tally merged summarized reextracted w => ?_) found
  exact keepsRow_afterReextract (fun found =>
    getMemory_consolidateReconcile found live eng start reextracted.failures ns) tally merged summarized

end Keeps

/-! ### Rows of the change set -/

theorem valid_default : isValidNamespace NamespaceFilter.default.namespace = true := rfl

omit [FloatArith F] [JsonText F] in
/-- The change set of an unscoped run. -/
theorem mem_changeSet_default {db : Db F} {m : MemoryItem F} :
    m ∈ db.changeSet .default ↔ m ∈ db.memoryItem.rows ∧ m.tombstone = false ∧
      Db.ChangedSince db.lastConsolidateAt m := by
  have listed := listChangedSinceScoped_valid valid_default db
  rw [Db.mem_listChangedSinceScoped listed]
  simp [NamespaceFilter.visible, NamespaceFilter.isActive, NamespaceFilter.default]

omit [JsonText F] in
/-- A row that phases 1 and 2 leave live is not forgotten. -/
theorem remembered_of_afterFirst {now : Nat} {m r : MemoryItem F} {merged : Bool}
    (row : r = if merged then { afterFirst now m with tombstone := true } else afterFirst now m)
    (live : r.tombstone = false) : FloatArith.lt (weightOf r now) THETA_DROP = false := by
  cases merged with
  | true =>
      subst row
      cases live
  | false =>
      have kept : r = afterFirst now m := row
      by_cases forgotten : shouldRecycle m now = true
      · rw [kept, afterFirst, if_pos forgotten] at live
        cases live
      · have remembered : FloatArith.lt (weightOf m now) THETA_DROP = false := by
          simpa [shouldRecycle] using forgotten
        rw [← remembered, kept, afterFirst, if_neg forgotten]
        split_ifs
        · rfl
        · rfl

/-- A row that was pending is written back with what was extracted. -/
theorem getMemory_afterMerge_pending {w w' : World F} (extracts : w.env.Extracts)
    {eng : MemoryEngine} (able : eng.hasExtractor = true) {ns : NamespaceFilter} {start : Nat}
    {changed : List (MemoryItem F)} (nodup : (changed.map (·.id)).Nodup) {m : MemoryItem F}
    (listed : m ∈ changed) (live : m.tombstone = false) (pending : m.entitiesPending = true)
    {tally : Tally} {merged : Progress} {report : ConsolidationReport}
    (h : run (afterMerge eng ns start changed tally merged) w = (.ok report, w')) :
    ∃ entities, w'.db.getMemory m.id = some (reextracted m entities) := by
  rw [afterMerge_eq] at h
  obtain ⟨summarized, w₁, summarizes, later⟩ := run_bind_eq_ok h
  have env₁ : w₁.env = w.env := by
    have kept := run_env (consolidateSummarize eng changed start merged.failures ns) w
    rwa [summarizes] at kept
  obtain ⟨progress, w₂, t, ran, -, found⟩ := run_reextracts (env₁ ▸ extracts) start able nodup
    listed pending ⟨0, summarized.failures⟩
  rw [run_bind_ok ran] at later
  have live' : (reextracted m (w₁.env.extract t m.content).entities).tombstone = false := live
  have kept := keepsRow_afterReextract (fun found =>
    getMemory_consolidateReconcile found live' eng start progress.failures ns) tally merged summarized
    found
  rw [later] at kept
  exact ⟨_, kept⟩

/-- After a run that ends well no row of its change set is pending. -/
theorem nothing_pending {w w' : World F} (extracts : w.env.Extracts) {eng : MemoryEngine}
    (able : eng.hasExtractor = true) {report : ConsolidationReport}
    (h : run (consolidateImpl eng .default) w = (.ok report, w')) {m : MemoryItem F}
    (listed : m ∈ w.db.changeSet .default) {r : MemoryItem F}
    (found : w'.db.getMemory m.id = some r) : r.entitiesPending = false := by
  cases pending : m.entitiesPending with
  | false =>
      obtain ⟨merged, -, -, rows⟩ := run_consolidateImpl_rows extracts.works valid_default eng
        (Eq.refl (w.env.clock (w.tick + 1)))
      rw [h] at rows
      rw [rows m listed r found fun h => by cases pending.symm.trans h.2.1]
      unfold afterFirst
      split_ifs <;> exact pending
  | true =>
      obtain ⟨w₁, alike, result, database⟩ := run_consolidateImpl_works extracts.works
        valid_default eng
      rw [h] at result database
      have nodup := changeSet_nodup w.db .default
      have live := (mem_changeSet listed).2
      generalize w.db.changeSet .default = changed at nodup listed result database
      generalize w.env.clock (w.tick + 1) = start at result database
      cases ran : run (consolidateChanged eng .default start changed) w₁ with
      | mk result' w₂ =>
          rw [ran] at result database
          dsimp only at result database
          subst result
          unfold consolidateChanged at ran
          obtain ⟨tally, w₃, first, later⟩ := run_bind_eq_ok ran
          obtain ⟨merged, w₄, second, last⟩ := run_bind_eq_ok later
          have env₄ : w₄.env = w.env := by
            have env₃ := run_env (changed.foldlM (recycleOrPromote start) ⟨0, 0, []⟩) w₁
            have env₄ := run_env (consolidateMerge eng changed start tally.failures .default) w₃
            rw [first] at env₃
            rw [second] at env₄
            exact env₄.trans (env₃.trans alike.env)
          obtain ⟨entities, written⟩ := getMemory_afterMerge_pending (env₄ ▸ extracts) able nodup
            listed live pending last
          rw [database, written] at found
          cases found
          rfl

/-- A run examines the memories that were created or accessed since the last recorded run.
Of these none is forgotten but live afterwards unless re-extraction has written it back, and, when
the extractor succeeds and the run ends well, none is pending. Every other live memory is as it
was. -/
theorem consolidate_covers_changes {w w' : World F} (works : w.env.NoFaults) {eng : MemoryEngine}
    {report : ConsolidationReport} (h : run (consolidateImpl eng .default) w = (.ok report, w')) :
    (∀ m ∈ w.db.memoryItem.rows, m.tombstone = false → Db.ChangedSince w.db.lastConsolidateAt m →
        ∀ r, w'.db.getMemory m.id = some r → r.tombstone = false → ¬ WrittenBack eng m r →
          FloatArith.lt (weightOf r (w.env.clock (w.tick + 1))) THETA_DROP = false) ∧
      (eng.hasExtractor = true → (∀ t text, (w.env.extract t text).success = true) →
        ∀ m ∈ w.db.memoryItem.rows, m.tombstone = false →
          Db.ChangedSince w.db.lastConsolidateAt m →
            ∀ r, w'.db.getMemory m.id = some r → r.entitiesPending = false) ∧
      ∀ m ∈ w.db.memoryItem.rows, m.tombstone = false →
        ¬ Db.ChangedSince w.db.lastConsolidateAt m → w'.db.getMemory m.id = some m := by
  refine ⟨fun m stored live changed r found alive settled => ?_,
    fun able succeeds m stored live changed r found => ?_, fun m stored live unchanged => ?_⟩
  · have listed := mem_changeSet_default.mpr ⟨stored, live, changed⟩
    obtain ⟨merged, -, -, rows⟩ := run_consolidateImpl_rows works valid_default eng
      (Eq.refl (w.env.clock (w.tick + 1)))
    rw [h] at rows
    exact remembered_of_afterFirst (rows m listed r found settled) alive
  · exact nothing_pending ⟨works, succeeds⟩ able h
      (mem_changeSet_default.mpr ⟨stored, live, changed⟩) found
  · obtain ⟨w₁, alike, -, database⟩ := run_consolidateImpl_works works valid_default eng
    rw [h] at database
    rw [database]
    refine keepsRow_consolidateChanged live (fun m' listed same => unchanged ?_) eng .default _ w₁ ?_
    · obtain ⟨stored', -, changed'⟩ := mem_changeSet_default.mp listed
      rwa [← Table.eq_of_key_eq stored' stored same]
    · rw [alike.db]
      exact Table.find?_of_mem stored

/-! ### Four memories -/

/-- The extractor fails on one text. -/
def choosyEnv : Env Fixed :=
  { Env.stopped 10000000 with extract := fun _ text => ⟨[], text != "lost"⟩ }

def scannedRow (id content : String) (created : Nat) (pending : Bool) : MemoryItem Fixed :=
  { MemoryItem.newTurnSkeleton id "ix" 0 "s" "a" .episodic content created with
    entitiesPending := pending }

/-- Two old pending memories, a new one, and one from before the last recorded run. -/
def scannedDb : Db Fixed :=
  { (Db.empty : Db Fixed) with
    memoryItem := [scannedRow "m1" "hello" 5 true, scannedRow "m2" "lost" 5 true,
      scannedRow "m3" "new" 9999999 false, scannedRow "m4" "old" 2 false].foldl
        (fun t m => t.upsert m) .empty
    consolidationLog := [⟨3, ⟨0, 0, 0, 0, 0, 0, 0, []⟩⟩] }

def scanned (env : Env Fixed) : World Fixed := World.fresh env scannedDb (.empty 0)

/-- After the run. -/
def scan (env : Env Fixed) : World Fixed :=
  (run (consolidateImpl (extractingEngine "a") .default) (scanned env)).2

/-- A pending memory whose extraction fails is recycled, one whose extraction succeeds is pending no
longer, and the memory from before the last run is as it was. -/
theorem consolidate_covers_changes_fourMemories :
    (∀ r, (scan choosyEnv).db.getMemory "m2" = some r → r.tombstone = false →
        ¬ WrittenBack (extractingEngine "a") (scannedRow "m2" "lost" 5 true) r →
          FloatArith.lt (weightOf r 10000000) THETA_DROP = false) ∧
      (∀ r, (scan (.extracting 10000000)).db.getMemory "m2" = some r → r.entitiesPending = false) ∧
      (scan choosyEnv).db.getMemory "m4" = some (scannedRow "m4" "old" 2 false) := by
  have choosy := consolidate_covers_changes (w := scanned choosyEnv) ⟨fun _ _ => rfl, fun _ _ => rfl⟩
    (Prod.ext (show (run (consolidateImpl (extractingEngine "a") .default) (scanned choosyEnv)).1 =
      .ok (ConsolidationReport.mk 2 0 0 0 1 0 0 []) by decide +kernel) rfl)
  have able := consolidate_covers_changes (w := scanned (.extracting 10000000))
    (Env.extracting_noFaults 10000000)
    (Prod.ext (show (run (consolidateImpl (extractingEngine "a") .default)
      (scanned (.extracting 10000000))).1 = .ok (ConsolidationReport.mk 2 0 0 0 2 0 0 [])
        by decide +kernel) rfl)
  refine ⟨choosy.1 (scannedRow "m2" "lost" 5 true) (by decide +kernel) rfl (.inl (by decide +kernel)),
    ?_, ?_⟩
  · exact able.2.1 rfl (fun _ _ => rfl) (scannedRow "m2" "lost" 5 true) (by decide +kernel) rfl
      (.inl (by decide +kernel))
  · exact choosy.2.2 (scannedRow "m4" "old" 2 false) (by decide +kernel) rfl
      (not_or.mpr ⟨by decide +kernel, by decide +kernel⟩)

/-! ### An overdue memory -/

/-- The clock goes on, and leaps after the first run. -/
def leapingEnv : Env Fixed :=
  { (Env.quiet : Env Fixed) with clock := fun t => if t < 20 then 1000 + t else 10000000000 + t }

def oneTurn : Call := .commit "s" ⟨"ix", "s", "a", "", "", [⟨0, "hello", "hi", []⟩]⟩

/-- A memory that nobody touches is examined once, and lives on. -/
theorem unchanged_memory_is_overdue : ¬ ∀ (eng : MemoryEngine) (env : Env Fixed)
    (s : LocalStore Fixed) (calls : List Call), env.NoFaults →
      (∀ t t', t ≤ t' → env.clock t ≤ env.clock t') →
      (∀ c ∈ calls, (∃ session interaction, c = .commit session interaction) ∨
        (∃ query, c = .retrieve query) ∨ c.Unscoped) →
      let w := runCalls eng calls (.fresh env .empty s)
      ∀ r ∈ (run (consolidateImpl eng .default) w).2.db.memoryItem.rows, r.tombstone = false →
        FloatArith.lt (weightOf r (w.env.clock (w.tick + 1))) THETA_DROP = false ∧
          (eng.hasExtractor = true → (∀ t text, (env.extract t text).success = true) →
            r.entitiesPending = false) := by
  intro always
  have increasing : ∀ t t', t ≤ t' → leapingEnv.clock t ≤ leapingEnv.clock t' := by
    intro t t' le
    change (if t < 20 then 1000 + t else 10000000000 + t) ≤
      (if t' < 20 then 1000 + t' else 10000000000 + t')
    split_ifs <;> omega
  have history : ∀ c ∈ [oneTurn, .consolidate .default],
      (∃ session interaction, c = .commit session interaction) ∨
        (∃ query, c = .retrieve query) ∨ c.Unscoped := by
    intro c mem
    rcases List.mem_cons.mp mem with rfl | mem
    · exact .inl ⟨_, _, rfl⟩
    · rw [List.mem_singleton.mp mem]
      exact .inr (.inr ⟨.default, rfl, rfl⟩)
  have remembered := always (plainEngine "a") leapingEnv (.empty 0) _ ⟨fun _ _ => rfl, fun _ _ => rfl⟩
    increasing history
  have overdue : ((run (consolidateImpl (plainEngine "a") .default) (runCalls (plainEngine "a")
      [oneTurn, .consolidate .default] (.fresh leapingEnv .empty (.empty 0)))).2.db.memoryItem.rows.any
        fun r => !r.tombstone && FloatArith.lt (weightOf r (10000000021)) THETA_DROP) = true := by
    decide +kernel
  obtain ⟨r, mem, forgotten⟩ := List.any_eq_true.mp overdue
  rw [Bool.and_eq_true, Bool.not_eq_true'] at forgotten
  have kept := (remembered r mem forgotten.1).1
  have now : (runCalls (plainEngine "a") [oneTurn, .consolidate .default]
      (.fresh leapingEnv .empty (.empty 0))).tick = 20 := by decide +kernel
  have clock : (runCalls (plainEngine "a") [oneTurn, .consolidate .default]
      (.fresh leapingEnv .empty (.empty 0))).env.clock (20 + 1) = 10000000021 := by
    rw [runCalls_env]
    rfl
  rw [now, clock, forgotten.2] at kept
  cases kept

end FusionMemory
