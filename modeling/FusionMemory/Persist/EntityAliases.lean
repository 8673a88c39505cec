import FusionMemory.Lib.Pool
import FusionMemory.Persist.Columns

/-!
Adding aliases (`append_entity_alias` of `fm-persist/src/store.rs`).

A call leases a connection, reads the aliases of the entity, and writes the longer list
back: two statements that each commit by themselves. Two calls run as two threads of a pool
over one table. `Consistent` is what the interleaving keeps: a call has read what was
written last before its reading. `aliases_kept_iff` says which interleavings keep both
aliases.
-/

namespace FusionMemory

open Lib

/-! ### The source -/

/-- `a.eq_ignore_ascii_case(b)` -/
def eqIgnoreAsciiCase (a b : String) : Bool := a.toLower == b.toLower

/-- The list has the alias, up to ASCII case. -/
def hasAlias (aliases : List String) («alias» : String) : Bool :=
  aliases.any fun a => eqIgnoreAsciiCase a «alias»

inductive AliasRequest where
  | getConn
  /-- `SELECT aliases FROM entity WHERE id=?1` -/
  | selectAliases (entityId : String)
  /-- `UPDATE entity SET aliases=?1 WHERE id=?2` -/
  | updateAliases (newJson entityId : String)
deriving DecidableEq, Repr

@[reducible] def AliasRequest.Reply : AliasRequest → Type
  | .selectAliases _ => Except PersistError (Option String)
  | _ => Except PersistError Unit

abbrev aliasSignature : Signature := ⟨AliasRequest, AliasRequest.Reply⟩

/-- The entity table, and which statements fail, by their time. -/
structure AliasWorld where
  entity : Table String EntityRow EntityRow.id
  tick : Nat
  fault : Nat → Option PersistError

namespace AliasWorld

def updated (w : AliasWorld) (newJson entityId : String) : Table String EntityRow EntityRow.id :=
  w.entity.update (fun row => row.id == entityId) (fun row => { row with aliases := newJson })
    fun _ => rfl

/-- A statement that fails does nothing. -/
def exec : (r : AliasRequest) → AliasWorld → r.Reply × AliasWorld
  | .getConn, w =>
      match w.fault w.tick with
      | some e => (.error e, { w with tick := w.tick + 1 })
      | none => (.ok (), { w with tick := w.tick + 1 })
  | .selectAliases entityId, w =>
      match w.fault w.tick with
      | some e => (.error e, { w with tick := w.tick + 1 })
      | none => (.ok ((w.entity.find? entityId).map EntityRow.aliases), { w with tick := w.tick + 1 })
  | .updateAliases newJson entityId, w =>
      match w.fault w.tick with
      | some e => (.error e, { w with tick := w.tick + 1 })
      | none => (.ok (), { w with tick := w.tick + 1, entity := w.updated newJson entityId })

end AliasWorld

def aliasMachine : Machine aliasSignature AliasWorld := ⟨fun _ _ => true, AliasWorld.exec⟩

/-- The reply of a request that fails. -/
def AliasRequest.failed (e : PersistError) : (r : AliasRequest) → r.Reply
  | .getConn => .error e
  | .selectAliases _ => .error e
  | .updateAliases _ _ => .error e

theorem AliasWorld.exec_failed {w : AliasWorld} {e : PersistError} (fault : w.fault w.tick = some e)
    (r : AliasRequest) : aliasMachine.exec r w = (r.failed e, { w with tick := w.tick + 1 }) := by
  cases r <;> simp [aliasMachine, AliasWorld.exec, AliasRequest.failed, fault]

abbrev AliasM (α : Type) := Program aliasSignature PersistError α

section Source

variable (F : Type) [FloatArith F] [JsonText F]

/-- `serde_json::from_str::<Vec<String>>`; a corrupt text reads as an empty list. -/
def readAliases (aliasesJson : String) : List String :=
  ((JsonText.parse (F := F) aliasesJson).bind (Json.asList Json.asString)).getD []

def printAliases (aliases : List String) : String := JsonText.print (F := F) (.arr (aliases.map .str))

/-- What follows the reading of the row. -/
def extendAliases (entityId «alias» : String) : Option String → AliasM Unit
  | none => return ()
  | some aliasesJson =>
      let aliases := readAliases F aliasesJson
      if hasAlias aliases «alias» then return ()
      else do
        let written ← (Program.perform (S := aliasSignature)
          (.updateAliases (printAliases F (aliases ++ [«alias»])) entityId) : AliasM _)
        Program.ofExcept written

def appendEntityAlias (entityId «alias» : String) : AliasM Unit := do
  let conn ← (Program.perform (S := aliasSignature) .getConn : AliasM _)
  let _ ← Program.ofExcept conn
  let found ← (Program.perform (S := aliasSignature) (.selectAliases entityId) : AliasM _)
  let row ← Program.ofExcept found
  extendAliases F entityId «alias» row

/-- What is written is read back. -/
theorem readAliases_printAliases (aliases : List String) :
    readAliases F (printAliases F aliases) = aliases := by
  unfold readAliases printAliases
  rw [JsonText.parse_print, Json.mapFloat, Json.mapFloatList_eq, List.map_map]
  have back : Json.asList Json.asString (.arr (aliases.map fun a =>
      (Json.str a : Json F).mapFloat JsonText.reread)) = some aliases :=
    Json.asList_map fun _ _ => rfl
  exact congrArg (fun found => found.getD []) back

variable {F} {entityId «alias» aliasesJson : String}

theorem extendAliases_present (present : hasAlias (readAliases F aliasesJson) «alias» = true) :
    extendAliases F entityId «alias» (some aliasesJson) = .done () := by
  unfold extendAliases
  simp only [present, if_true]
  rfl

theorem extendAliases_absent (absent : hasAlias (readAliases F aliasesJson) «alias» = false) :
    extendAliases F entityId «alias» (some aliasesJson) = .request
      (.updateAliases (printAliases F (readAliases F aliasesJson ++ [«alias»])) entityId)
      Program.ofExcept := by
  unfold extendAliases
  simp only [absent, Bool.false_eq_true, if_false]
  rfl

end Source

/-! ### The order of reads and writes -/

abbrev AliasEvent := Event aliasSignature

def AliasRequest.isSelect : AliasRequest → Bool
  | .selectAliases _ => true
  | _ => false

def AliasRequest.isUpdate : AliasRequest → Bool
  | .updateAliases _ _ => true
  | _ => false

/-- When a call has read the aliases. -/
def selectTime (h : List AliasEvent) : Option Nat := (h.find? fun e => e.request.isSelect).map (·.time)

/-- When a call has written them. -/
def updateTime (h : List AliasEvent) : Option Nat := (h.find? fun e => e.request.isUpdate).map (·.time)

/-- The one call has read before the other one wrote. -/
def ReadsBefore (h h' : List AliasEvent) : Prop :=
  ∃ t u, selectTime h = some t ∧ updateTime h' = some u ∧ t < u

/-- Each has read before the other wrote. -/
def Overlap (h h' : List AliasEvent) : Prop := ReadsBefore h h' ∧ ReadsBefore h' h

/-! ### Stages of a call -/

/-- How far a call has come: what it has read and written, with the times. -/
inductive AliasStage where
  | fresh
  | connected
  | read (t : Nat) (aliases : List String)
  | kept (t : Nat) (aliases : List String)
  | wrote (t u : Nat) (aliases : List String)
  | failed

namespace AliasStage

/-- The list that is written, and when. -/
def written («alias» : String) : AliasStage → Option (Nat × List String)
  | .wrote _ u aliases => some (u, aliases ++ [«alias»])
  | _ => none

/-- The list that was read, and when. -/
def seen : AliasStage → Option (Nat × List String)
  | .read t aliases | .kept t aliases | .wrote t _ aliases => some (t, aliases)
  | _ => none

/-- The times of what it has done. -/
def stamps : AliasStage → List Nat
  | .read t _ | .kept t _ => [t]
  | .wrote t u _ => [t, u]
  | _ => []

variable (F : Type) [FloatArith F] [JsonText F]

/-- The rest of a call at a stage. -/
def Rest (entityId «alias» : String) : AliasStage → AliasM Unit → Prop
  | .fresh, p => p = appendEntityAlias F entityId «alias»
  | .connected, p => p = .request (.selectAliases entityId) fun found =>
      Program.ofExcept found >>= extendAliases F entityId «alias»
  | .read _ aliases, p => hasAlias aliases «alias» = false ∧
      p = .request (.updateAliases (printAliases F (aliases ++ [«alias»])) entityId) Program.ofExcept
  | .kept _ aliases, p => hasAlias aliases «alias» = true ∧ p = .done ()
  | .wrote t u aliases, p => hasAlias aliases «alias» = false ∧ t < u ∧ p = .done ()
  | .failed, p => ∃ e, p = .fail e

end AliasStage

/-- A thread has come to a stage. -/
structure AtStage (F : Type) [FloatArith F] [JsonText F] (entityId «alias» : String)
    (stage : AliasStage) (thread : Thread aliasSignature PersistError Unit) : Prop where
  rest : stage.Rest F entityId «alias» thread.program
  selected : stage ≠ .failed → selectTime thread.history = stage.seen.map Prod.fst
  updated : stage ≠ .failed → updateTime thread.history = (stage.written «alias»).map Prod.fst

/-! ### The invariant -/

variable {F : Type} [FloatArith F] [JsonText F]

/-- What an interleaving keeps, with the stages of the calls and the list at every time: it
changes when a call writes, and what a call has seen is the list of that time. -/
structure Consistent (F : Type) [FloatArith F] [JsonText F] (entityId : String)
    (aliasOf : Nat → String) (before : List String) (pool : Pool aliasSignature PersistError Unit AliasWorld)
    (stage : Nat → AliasStage) (value : Nat → List String) : Prop where
  threads : ∀ i thread, pool.threads[i]? = some thread →
    AtStage F entityId (aliasOf i) (stage i) thread
  outside : ∀ i, pool.threads[i]? = none → stage i = .fresh
  row : ∃ row, pool.world.entity.find? entityId = some row ∧
    readAliases F row.aliases = value pool.time
  first : value 0 = before
  moves : ∀ τ < pool.time, value (τ + 1) = value τ ∨
    ∃ i, (stage i).written (aliasOf i) = some (τ, value (τ + 1))
  wrote : ∀ i u aliases, (stage i).written (aliasOf i) = some (u, aliases) →
    u < pool.time ∧ value (u + 1) = aliases
  saw : ∀ i t aliases, (stage i).seen = some (t, aliases) → t < pool.time ∧ value t = aliases
  past : ∀ i, ∀ t ∈ (stage i).stamps, t < pool.time
  apart : ∀ i j, i ≠ j → ∀ t ∈ (stage i).stamps, ∀ u ∈ (stage j).stamps, t ≠ u

namespace Consistent

variable {entityId : String} {aliasOf : Nat → String} {before : List String}
  {pool : Pool aliasSignature PersistError Unit AliasWorld} {stage : Nat → AliasStage}
  {value : Nat → List String}

/-- The list stays where no call writes. -/
theorem value_eq (holds : Consistent F entityId aliasOf before pool stage value) {t u : Nat}
    (le : t ≤ u) (past : u ≤ pool.time)
    (still : ∀ i τ aliases, (stage i).written (aliasOf i) = some (τ, aliases) → t ≤ τ → τ < u → False) :
    value u = value t := by
  induction u, le using Nat.le_induction with
  | base => rfl
  | succ u le ih =>
      have same := ih (by omega) fun i τ aliases wrote lower upper =>
        still i τ aliases wrote lower (by omega)
      rcases holds.moves u (by omega) with kept | ⟨i, wrote⟩
      · exact kept.trans same
      · exact (still i u _ wrote le (by omega)).elim

/-- A step of thread `i`: its new stage agrees with what the step did to the list. -/
theorem advance (holds : Consistent F entityId aliasOf before pool stage value) {i : Nat}
    {h : List AliasEvent} {r : AliasRequest} {next : r.Reply → AliasM Unit}
    (found : pool.threads[i]? = some ⟨h, .request r next⟩) {s : AliasStage}
    (at_ : AtStage F entityId (aliasOf i) s
      ⟨⟨pool.time, r, (aliasMachine.exec r pool.world).1⟩ :: h, next (aliasMachine.exec r pool.world).1⟩)
    {after : List String}
    (row : ∃ row, (aliasMachine.exec r pool.world).2.entity.find? entityId = some row ∧
      readAliases F row.aliases = after)
    (writes : (after = value pool.time ∧ s.written (aliasOf i) = (stage i).written (aliasOf i)) ∨
      ((stage i).written (aliasOf i) = none ∧ s.written (aliasOf i) = some (pool.time, after)))
    (sees : ∀ t aliases, s.seen = some (t, aliases) →
      (stage i).seen = some (t, aliases) ∨ (t = pool.time ∧ aliases = value pool.time))
    (stamps : ∀ t ∈ s.stamps, t ∈ (stage i).stamps ∨ t = pool.time) :
    Consistent F entityId aliasOf before (pool.advance aliasMachine i h r next)
      (Function.update stage i s) (fun τ => if τ ≤ pool.time then value τ else after) := by
  have old : ∀ {j}, j ≠ i → Function.update stage i s j = stage j := fun ne =>
    Function.update_of_ne ne _ _
  have own : Function.update stage i s i = s := Function.update_self _ _ _
  refine ⟨?_, ?_, ?_, ?_, ?_, ?_, ?_, ?_, ?_⟩
  · intro j thread member
    rcases Pool.advance_threads_cases found member with ⟨ne, same⟩ | ⟨rfl, rfl⟩
    · rw [old ne]
      exact holds.threads j thread same
    · rw [own]
      exact at_
  · intro j absent
    have inside := (List.getElem?_eq_some_iff.mp found).1
    by_cases same : j = i
    · subst same
      rw [Pool.advance_threads_self inside] at absent
      cases absent
    · rw [old same]
      rw [Pool.advance_threads_ne (Ne.symm same)] at absent
      exact holds.outside j absent
  · obtain ⟨row, stored, read⟩ := row
    refine ⟨row, stored, read.trans ?_⟩
    exact (if_neg (Nat.not_succ_le_self _)).symm
  · exact (if_pos (Nat.zero_le _)).trans holds.first
  · intro τ earlier
    rcases Nat.lt_succ_iff_lt_or_eq.mp earlier with before | rfl
    · rw [if_pos (show τ + 1 ≤ pool.time from before), if_pos (Nat.le_of_lt before)]
      rcases holds.moves τ before with kept | ⟨j, wrote⟩
      · exact .inl kept
      · refine .inr ⟨j, ?_⟩
        by_cases same : j = i
        · subst same
          rcases writes with ⟨-, written⟩ | ⟨none, -⟩
          · rw [own, written, wrote]
          · rw [none] at wrote
            cases wrote
        · rw [old same, wrote]
    · rw [if_neg (Nat.not_succ_le_self _), if_pos (Nat.le_refl _)]
      rcases writes with ⟨kept, -⟩ | ⟨-, written⟩
      · exact .inl kept
      · exact .inr ⟨i, by rw [own, written]⟩
  · intro j u aliases written
    have before : ∀ {k}, (stage k).written (aliasOf k) = some (u, aliases) →
        u < pool.time + 1 ∧ (if u + 1 ≤ pool.time then value (u + 1) else after) = aliases := by
      intro k was
      obtain ⟨earlier, same⟩ := holds.wrote k u aliases was
      exact ⟨Nat.lt_succ_of_lt earlier, (if_pos earlier).trans same⟩
    by_cases same : j = i
    · subst same
      rw [own] at written
      rcases writes with ⟨-, kept⟩ | ⟨-, now⟩
      · exact before (kept ▸ written)
      · rw [now] at written
        cases written
        exact ⟨Nat.lt_succ_self _, if_neg (Nat.not_succ_le_self _)⟩
    · rw [old same] at written
      exact before written
  · intro j t aliases seen
    have before : ∀ {k}, (stage k).seen = some (t, aliases) →
        t < pool.time + 1 ∧ (if t ≤ pool.time then value t else after) = aliases := by
      intro k was
      obtain ⟨earlier, same⟩ := holds.saw k t aliases was
      exact ⟨Nat.lt_succ_of_lt earlier, (if_pos (Nat.le_of_lt earlier)).trans same⟩
    by_cases same : j = i
    · subst same
      rw [own] at seen
      rcases sees t aliases seen with was | ⟨rfl, rfl⟩
      · exact before was
      · exact ⟨Nat.lt_succ_self _, if_pos (Nat.le_refl _)⟩
    · rw [old same] at seen
      exact before seen
  · intro j t stamped
    by_cases same : j = i
    · subst same
      rw [own] at stamped
      rcases stamps t stamped with was | rfl
      · exact Nat.lt_succ_of_lt (holds.past j t was)
      · exact Nat.lt_succ_self _
    · rw [old same] at stamped
      exact Nat.lt_succ_of_lt (holds.past j t stamped)
  · have fresh : ∀ j, j ≠ i → ∀ t ∈ s.stamps, ∀ u ∈ (stage j).stamps, t ≠ u := by
      intro j ne t mine u theirs
      rcases stamps t mine with was | rfl
      · exact holds.apart i j (Ne.symm ne) t was u theirs
      · exact Ne.symm (Nat.ne_of_lt (holds.past j u theirs))
    intro j k ne t inJ u inK
    by_cases isJ : j = i
    · subst isJ
      rw [own] at inJ
      rw [old (Ne.symm ne)] at inK
      exact fresh k (Ne.symm ne) t inJ u inK
    · rw [old isJ] at inJ
      by_cases isK : k = i
      · subst isK
        rw [own] at inK
        exact Ne.symm (fresh j isJ u inK t inJ)
      · rw [old isK] at inK
        exact holds.apart j k ne t inJ u inK

/-- The first pool: no call has run. -/
theorem start {world : AliasWorld} {row : EntityRow}
    (stored : world.entity.find? entityId = some row) (aliases : List String) :
    Consistent F entityId (fun i => aliases.getD i "") (readAliases F row.aliases)
      (Pool.start world (aliases.map (appendEntityAlias F entityId))) (fun _ => .fresh)
      (fun _ => readAliases F row.aliases) where
  threads := by
    intro i thread found
    have first := Pool.start_history found
    unfold Pool.start at found
    rw [List.map_map, List.getElem?_map] at found
    obtain ⟨name, listed, rfl⟩ := Option.map_eq_some_iff.mp found
    refine ⟨?_, fun _ => rfl, fun _ => rfl⟩
    rw [List.getD_eq_getElem?_getD, listed]
    rfl
  outside _ _ := rfl
  row := ⟨row, stored, rfl⟩
  first := rfl
  moves _ _ := .inl rfl
  wrote _ _ _ := nofun
  saw _ _ _ := nofun
  past _ _ := nofun
  apart _ _ _ _ := nofun

/-- A step that leaves the list alone, to a stage that has written nothing new. -/
theorem advance_quiet (holds : Consistent F entityId aliasOf before pool stage value) {i : Nat}
    {h : List AliasEvent} {r : AliasRequest} {next : r.Reply → AliasM Unit}
    (found : pool.threads[i]? = some ⟨h, .request r next⟩) {s : AliasStage}
    (at_ : AtStage F entityId (aliasOf i) s
      ⟨⟨pool.time, r, (aliasMachine.exec r pool.world).1⟩ :: h, next (aliasMachine.exec r pool.world).1⟩)
    (same : (aliasMachine.exec r pool.world).2.entity = pool.world.entity)
    (writes : s.written (aliasOf i) = (stage i).written (aliasOf i))
    (sees : ∀ t aliases, s.seen = some (t, aliases) →
      (stage i).seen = some (t, aliases) ∨ (t = pool.time ∧ aliases = value pool.time))
    (stamps : ∀ t ∈ s.stamps, t ∈ (stage i).stamps ∨ t = pool.time) :
    ∃ stage' value', Consistent F entityId aliasOf before (pool.advance aliasMachine i h r next)
      stage' value' :=
  ⟨_, _, holds.advance found at_ (same ▸ holds.row) (.inl ⟨rfl, writes⟩) sees stamps⟩

/-- A step to a stage that has read nothing. -/
theorem advance_unread (holds : Consistent F entityId aliasOf before pool stage value) {i : Nat}
    {h : List AliasEvent} {r : AliasRequest} {next : r.Reply → AliasM Unit}
    (found : pool.threads[i]? = some ⟨h, .request r next⟩) {s : AliasStage}
    (at_ : AtStage F entityId (aliasOf i) s
      ⟨⟨pool.time, r, (aliasMachine.exec r pool.world).1⟩ :: h, next (aliasMachine.exec r pool.world).1⟩)
    (same : (aliasMachine.exec r pool.world).2.entity = pool.world.entity)
    (writes : s.written (aliasOf i) = (stage i).written (aliasOf i)) (unread : s.seen = none)
    (unstamped : s.stamps = []) :
    ∃ stage' value', Consistent F entityId aliasOf before (pool.advance aliasMachine i h r next)
      stage' value' := by
  refine holds.advance_quiet found at_ same writes (fun t aliases seen => ?_) fun t stamped => ?_
  · rw [unread] at seen
    cases seen
  · rw [unstamped] at stamped
    cases stamped

/-- A call that a failure ends. -/
theorem advance_failed (holds : Consistent F entityId aliasOf before pool stage value) {i : Nat}
    {h : List AliasEvent} {r : AliasRequest} {next : r.Reply → AliasM Unit}
    (found : pool.threads[i]? = some ⟨h, .request r next⟩) {e : PersistError}
    (fault : pool.world.fault pool.world.tick = some e) (stops : next (r.failed e) = .fail e)
    (unwritten : (stage i).written (aliasOf i) = none) :
    ∃ stage' value', Consistent F entityId aliasOf before (pool.advance aliasMachine i h r next)
      stage' value' := by
  have struck := AliasWorld.exec_failed fault r
  refine holds.advance_unread found (s := .failed) ⟨?_, (absurd rfl ·), (absurd rfl ·)⟩ ?_
    unwritten.symm rfl rfl
  · exact ⟨e, by rw [struck]; exact stops⟩
  · rw [struck]

/-- The step lemma, one case for each statement. -/
theorem step (holds : Consistent F entityId aliasOf before pool stage value) {i : Nat}
    {h : List AliasEvent} {r : AliasRequest} {next : r.Reply → AliasM Unit}
    (found : pool.threads[i]? = some ⟨h, .request r next⟩) :
    ∃ stage' value', Consistent F entityId aliasOf before (pool.advance aliasMachine i h r next)
      stage' value' := by
  obtain ⟨rest, selected, updated⟩ := holds.threads i _ found
  have live : stage i ≠ .failed := by
    intro failed
    rw [failed] at rest
    obtain ⟨e, stopped⟩ := rest
    cases stopped
  replace selected := selected live
  replace updated := updated live
  cases came : stage i with
  | fresh =>
      rw [came] at rest selected updated
      cases (show Program.request r next = .request (S := aliasSignature) .getConn fun conn =>
        Program.ofExcept conn >>= fun _ => .request (.selectAliases entityId) fun found =>
          Program.ofExcept found >>= extendAliases F entityId (aliasOf i) from rest)
      cases fault : pool.world.fault pool.world.tick with
      | some e => exact holds.advance_failed found fault rfl (by rw [came]; rfl)
      | none =>
          have leased : aliasMachine.exec .getConn pool.world =
              (.ok (), { pool.world with tick := pool.world.tick + 1 }) := by
            simp [aliasMachine, AliasWorld.exec, fault]
          refine holds.advance_unread found (s := .connected) ?_ (by rw [leased])
            (by rw [came]; rfl) rfl rfl
          rw [leased]
          exact ⟨rfl, fun _ => selected, fun _ => updated⟩
  | connected =>
      rw [came] at rest selected updated
      cases (show Program.request r next = .request (S := aliasSignature) (.selectAliases entityId)
        fun found => Program.ofExcept found >>= extendAliases F entityId (aliasOf i) from rest)
      cases fault : pool.world.fault pool.world.tick with
      | some e => exact holds.advance_failed found fault rfl (by rw [came]; rfl)
      | none =>
          obtain ⟨row, stored, read⟩ := holds.row
          have answered : aliasMachine.exec (.selectAliases entityId) pool.world =
              (.ok (some row.aliases), { pool.world with tick := pool.world.tick + 1 }) := by
            simp [aliasMachine, AliasWorld.exec, fault, stored]
          cases present : hasAlias (value pool.time) (aliasOf i) with
          | true =>
              refine holds.advance_quiet found (s := .kept pool.time (value pool.time)) ?_
                (by rw [answered]) (by rw [came]; rfl) (fun t aliases seen => .inr ?_)
                (fun t stamped => .inr (List.mem_singleton.mp stamped))
              · rw [answered]
                exact ⟨⟨present, extendAliases_present (read ▸ present)⟩, fun _ => rfl,
                  fun _ => updated⟩
              · cases seen
                exact ⟨rfl, rfl⟩
          | false =>
              refine holds.advance_quiet found (s := .read pool.time (value pool.time)) ?_
                (by rw [answered]) (by rw [came]; rfl) (fun t aliases seen => .inr ?_)
                (fun t stamped => .inr (List.mem_singleton.mp stamped))
              · rw [answered, ← read]
                rw [← read] at present
                exact ⟨⟨present, extendAliases_absent present⟩, fun _ => rfl,
                  fun _ => updated⟩
              · cases seen
                exact ⟨rfl, rfl⟩
  | read t aliases =>
      rw [came] at rest selected updated
      obtain ⟨absent, same⟩ := rest
      cases (show Program.request r next = .request (S := aliasSignature)
        (.updateAliases (printAliases F (aliases ++ [aliasOf i])) entityId) Program.ofExcept from same)
      cases fault : pool.world.fault pool.world.tick with
      | some e => exact holds.advance_failed found fault rfl (by rw [came]; rfl)
      | none =>
          obtain ⟨row, stored, read⟩ := holds.row
          have done : aliasMachine.exec
              (.updateAliases (printAliases F (aliases ++ [aliasOf i])) entityId) pool.world =
              (.ok (), { pool.world with
                tick := pool.world.tick + 1
                entity := pool.world.updated (printAliases F (aliases ++ [aliasOf i])) entityId }) := by
            simp [aliasMachine, AliasWorld.exec, fault]
          refine ⟨_, _, holds.advance found (s := .wrote t pool.time aliases) ?_
            ⟨{ row with aliases := printAliases F (aliases ++ [aliasOf i]) }, ?_,
              readAliases_printAliases F (aliases ++ [aliasOf i])⟩ (.inr ⟨by rw [came]; rfl, rfl⟩) ?_ ?_⟩
          · rw [done]
            exact ⟨⟨absent, (holds.saw i t aliases (by rw [came]; rfl)).1, rfl⟩,
              fun _ => selected, fun _ => rfl⟩
          · rw [done]
            unfold AliasWorld.updated
            rw [Table.find?_update, stored]
            have key : row.id = entityId := Table.find?_key stored
            simp [key]
          · rw [came]
            exact fun _ _ seen => .inl seen
          · rw [came]
            intro τ stamped
            simpa [AliasStage.stamps] using stamped
  | kept t aliases =>
      rw [came] at rest
      cases rest.2
  | wrote t u aliases =>
      rw [came] at rest
      cases rest.2.2
  | failed => exact absurd came live

/-- The run lemma. -/
theorem of_reaches {first : Pool aliasSignature PersistError Unit AliasWorld}
    {C : Pool aliasSignature PersistError Unit AliasWorld → Nat → Prop}
    (start : ∃ stage value, Consistent F entityId aliasOf before first stage value)
    (reach : Pool.Reaches aliasMachine C first pool) :
    ∃ stage value, Consistent F entityId aliasOf before pool stage value := by
  induction reach with
  | start => exact start
  | step _ _ moved ih =>
      obtain ⟨stage, value, holds⟩ := ih
      obtain ⟨h, r, next, found, -, rfl⟩ := (Pool.step_eq_some_iff _).mp moved
      exact holds.step found

end Consistent

/-! ### Two calls that have ended -/

/-- The list has both aliases, and those of before. -/
def KeepsAliases (aliases before : List String) (a b : String) : Prop :=
  hasAlias aliases a = true ∧ hasAlias aliases b = true ∧ ∀ x ∈ before, x ∈ aliases

theorem KeepsAliases.comm {aliases before : List String} {a b : String} :
    KeepsAliases aliases before a b ↔ KeepsAliases aliases before b a := by
  unfold KeepsAliases
  tauto

theorem eqIgnoreAsciiCase_comm (a b : String) : eqIgnoreAsciiCase a b = eqIgnoreAsciiCase b a :=
  Bool.beq_comm

@[simp] theorem hasAlias_append (aliases : List String) (a b : String) :
    hasAlias (aliases ++ [a]) b = (hasAlias aliases b || eqIgnoreAsciiCase a b) := by
  simp [hasAlias]

@[simp] theorem eqIgnoreAsciiCase_self (a : String) : eqIgnoreAsciiCase a a = true := by
  simp [eqIgnoreAsciiCase]

/-- A call that has returned. -/
theorem AtStage.returned {entityId «alias» : String} {stage : AliasStage} {h : List AliasEvent}
    (at_ : AtStage F entityId «alias» stage ⟨h, .done ()⟩) :
    (∃ t aliases, stage = .kept t aliases ∧ hasAlias aliases «alias» = true ∧
        selectTime h = some t ∧ updateTime h = none) ∨
      ∃ t u aliases, stage = .wrote t u aliases ∧ hasAlias aliases «alias» = false ∧ t < u ∧
        selectTime h = some t ∧ updateTime h = some u := by
  obtain ⟨rest, selected, updated⟩ := at_
  cases stage with
  | fresh => exact nomatch rest
  | connected => exact nomatch rest
  | read t aliases => exact nomatch rest.2
  | kept t aliases => exact .inl ⟨t, aliases, rfl, rest.1, selected nofun, updated nofun⟩
  | wrote t u aliases =>
      exact .inr ⟨t, u, aliases, rfl, rest.1, rest.2.1, selected nofun, updated nofun⟩
  | failed =>
      obtain ⟨e, stopped⟩ := rest
      exact nomatch stopped

namespace Consistent

variable {entityId : String} {aliasOf : Nat → String} {before : List String}
  {pool : Pool aliasSignature PersistError Unit AliasWorld} {stage : Nat → AliasStage}
  {value : Nat → List String} {i j : Nat}

/-- Neither call has written. -/
theorem kept_both (holds : Consistent F entityId aliasOf before pool stage value)
    (others : ∀ k, k ≠ i → k ≠ j → (stage k).written (aliasOf k) = none)
    {t t' : Nat} {aliases aliases' : List String} (keptI : stage i = .kept t aliases)
    (hasI : hasAlias aliases (aliasOf i) = true) (keptJ : stage j = .kept t' aliases')
    (hasJ : hasAlias aliases' (aliasOf j) = true) :
    KeepsAliases (value pool.time) before (aliasOf i) (aliasOf j) := by
  have unwritten : ∀ k, (stage k).written (aliasOf k) = none := by
    intro k
    by_cases isI : k = i
    · rw [isI, keptI]; rfl
    by_cases isJ : k = j
    · rw [isJ, keptJ]; rfl
    exact others k isI isJ
  have still : ∀ {τ}, τ ≤ pool.time → value τ = before := fun past =>
    (holds.value_eq (Nat.zero_le _) past fun k _ _ wrote _ _ => by
      rw [unwritten k] at wrote
      cases wrote).trans holds.first
  obtain ⟨pastI, rfl⟩ := holds.saw i t aliases (by rw [keptI]; rfl)
  obtain ⟨pastJ, rfl⟩ := holds.saw j t' aliases' (by rw [keptJ]; rfl)
  rw [still (Nat.le_of_lt pastI)] at hasI
  rw [still (Nat.le_of_lt pastJ)] at hasJ
  rw [still (Nat.le_refl _)]
  exact ⟨hasI, hasJ, fun _ mem => mem⟩

/-- One call has written. -/
theorem wrote_one (holds : Consistent F entityId aliasOf before pool stage value)
    (others : ∀ k, k ≠ i → k ≠ j → (stage k).written (aliasOf k) = none)
    {t u t' : Nat} {aliases aliases' : List String} (wroteI : stage i = .wrote t u aliases)
    (early : t < u) (keptJ : stage j = .kept t' aliases')
    (hasJ : hasAlias aliases' (aliasOf j) = true) :
    KeepsAliases (value pool.time) before (aliasOf i) (aliasOf j) := by
  have only : ∀ k τ written, (stage k).written (aliasOf k) = some (τ, written) → τ = u := by
    intro k τ written wrote
    by_cases isI : k = i
    · rw [isI, wroteI] at wrote
      cases wrote
      rfl
    by_cases isJ : k = j
    · rw [isJ, keptJ] at wrote
      cases wrote
    · rw [others k isI isJ] at wrote
      cases wrote
  obtain ⟨now, final⟩ := holds.wrote i u _ (by rw [wroteI]; rfl)
  obtain ⟨-, rfl⟩ := holds.saw i t aliases (by rw [wroteI]; rfl)
  obtain ⟨pastJ, rfl⟩ := holds.saw j t' aliases' (by rw [keptJ]; rfl)
  have first : ∀ {τ}, τ ≤ u → value τ = before := fun le =>
    (holds.value_eq (Nat.zero_le _) (by omega) fun k σ _ wrote _ upper => by
      have := only k σ _ wrote
      omega).trans holds.first
  have last : ∀ {τ}, u < τ → τ ≤ pool.time → value τ = before ++ [aliasOf i] := by
    intro τ later past
    have same := holds.value_eq (show u + 1 ≤ τ from later) past fun k σ _ wrote lower _ => by
      have := only k σ _ wrote
      omega
    rw [same, final, first (Nat.le_of_lt early)]
  rw [last now (Nat.le_refl _)]
  refine ⟨by simp, ?_, fun x mem => List.mem_append_left _ mem⟩
  rcases Nat.lt_or_ge u t' with seen | unseen
  · rw [last seen (Nat.le_of_lt pastJ)] at hasJ
    exact hasJ
  · rw [first unseen] at hasJ
    rw [hasAlias_append, hasJ, Bool.true_or]

/-- Both have written, `j` last. -/
theorem wrote_both (holds : Consistent F entityId aliasOf before pool stage value) (ne : i ≠ j)
    (others : ∀ k, k ≠ i → k ≠ j → (stage k).written (aliasOf k) = none)
    {t u t' u' : Nat} {aliases aliases' : List String} (wroteI : stage i = .wrote t u aliases)
    (newI : hasAlias aliases (aliasOf i) = false) (early : t < u)
    (wroteJ : stage j = .wrote t' u' aliases') (early' : t' < u') (order : u < u') :
    KeepsAliases (value pool.time) before (aliasOf i) (aliasOf j) ↔
      ¬ (t < u' ∧ t' < u) ∨ eqIgnoreAsciiCase (aliasOf i) (aliasOf j) = true := by
  have only : ∀ k τ written, (stage k).written (aliasOf k) = some (τ, written) → τ = u ∨ τ = u' := by
    intro k τ written wrote
    by_cases isI : k = i
    · rw [isI, wroteI] at wrote
      cases wrote
      exact .inl rfl
    by_cases isJ : k = j
    · rw [isJ, wroteJ] at wrote
      cases wrote
      exact .inr rfl
    · rw [others k isI isJ] at wrote
      cases wrote
  obtain ⟨-, finalI⟩ := holds.wrote i u _ (by rw [wroteI]; rfl)
  obtain ⟨now, finalJ⟩ := holds.wrote j u' _ (by rw [wroteJ]; rfl)
  obtain ⟨-, rfl⟩ := holds.saw i t aliases (by rw [wroteI]; rfl)
  obtain ⟨-, rfl⟩ := holds.saw j t' aliases' (by rw [wroteJ]; rfl)
  have first : ∀ {τ}, τ ≤ u → value τ = before := fun le =>
    (holds.value_eq (Nat.zero_le _) (by omega) fun k σ _ wrote _ upper => by
      have := only k σ _ wrote
      omega).trans holds.first
  have last : value pool.time = value t' ++ [aliasOf j] := by
    rw [← finalJ]
    exact holds.value_eq (show u' + 1 ≤ pool.time from now) (Nat.le_refl _) fun k σ _ wrote lower _ => by
      have := only k σ _ wrote
      omega
  have apart : t' ≠ u := holds.apart j i (Ne.symm ne) t' (by rw [wroteJ]; simp [AliasStage.stamps]) u
    (by rw [wroteI]; simp [AliasStage.stamps])
  rw [first (Nat.le_of_lt early)] at newI finalI
  rw [last]
  rcases Nat.lt_or_ge u t' with seen | unseen
  · have middle : value t' = before ++ [aliasOf i] := by
      rw [← finalI]
      exact holds.value_eq (show u + 1 ≤ t' from seen) (by omega) fun k σ _ wrote lower _ => by
        have := only k σ _ wrote
        omega
    rw [middle]
    refine iff_of_true ⟨?_, ?_, fun x mem => by simp [mem]⟩ (.inl (by omega))
    · rw [hasAlias_append, hasAlias_append, eqIgnoreAsciiCase_self, Bool.or_true, Bool.true_or]
    · rw [hasAlias_append, eqIgnoreAsciiCase_self, Bool.or_true]
  · rw [first unseen]
    have overlapped : t < u' ∧ t' < u := ⟨by omega, by omega⟩
    simp [KeepsAliases, newI, overlapped, eqIgnoreAsciiCase_comm (aliasOf j)]
    tauto

end Consistent

theorem Overlap.comm {h h' : List AliasEvent} : Overlap h h' ↔ Overlap h' h := and_comm

theorem not_overlap_of_unwritten {h h' : List AliasEvent} (unwritten : updateTime h = none) :
    ¬ Overlap h h' := by
  rintro ⟨-, t, u, -, wrote, -⟩
  rw [unwritten] at wrote
  cases wrote

theorem overlap_iff {h h' : List AliasEvent} {t u t' u' : Nat} (read : selectTime h = some t)
    (wrote : updateTime h = some u) (read' : selectTime h' = some t')
    (wrote' : updateTime h' = some u') : Overlap h h' ↔ t < u' ∧ t' < u := by
  simp [Overlap, ReadsBefore, read, wrote, read', wrote']

/-- Two calls for an existing entity, in any interleaving: when both have returned, the
entity has both aliases and those of before exactly when the two are not read and written
across each other, or are one alias. -/
theorem aliases_kept_iff {world : AliasWorld} {entityId a b : String} {row : EntityRow}
    (stored : world.entity.find? entityId = some row)
    {C : Pool aliasSignature PersistError Unit AliasWorld → Nat → Prop}
    {pool : Pool aliasSignature PersistError Unit AliasWorld}
    (reach : Pool.Reaches aliasMachine C (Pool.start world
      [appendEntityAlias F entityId a, appendEntityAlias F entityId b]) pool)
    {h h' : List AliasEvent} (ended : pool.threads = [⟨h, .done ()⟩, ⟨h', .done ()⟩]) :
    (∃ row', pool.world.entity.find? entityId = some row' ∧
      KeepsAliases (readAliases F row'.aliases) (readAliases F row.aliases) a b) ↔
      ¬ Overlap h h' ∨ eqIgnoreAsciiCase a b = true := by
  obtain ⟨stage, value, holds⟩ := Consistent.of_reaches ⟨_, _, Consistent.start stored [a, b]⟩ reach
  obtain ⟨row', stored', read'⟩ := holds.row
  have others : ∀ k, k ≠ 0 → k ≠ 1 → (stage k).written ([a, b].getD k "") = none := by
    intro k not0 not1
    rw [holds.outside k (by rw [ended]; exact List.getElem?_eq_none (by simp; omega))]
    rfl
  have found : (∃ row', pool.world.entity.find? entityId = some row' ∧
      KeepsAliases (readAliases F row'.aliases) (readAliases F row.aliases) a b) ↔
      KeepsAliases (value pool.time) (readAliases F row.aliases) a b := by
    rw [stored', ← read']
    exact ⟨fun ⟨_, same, keeps⟩ => Option.some.inj same ▸ keeps, fun keeps => ⟨row', rfl, keeps⟩⟩
  rw [found]
  rcases (holds.threads 0 _ (by rw [ended]; rfl)).returned
    with ⟨t, aliases, kept, has, read, wrote⟩ | ⟨t, u, aliases, wrote, new, early, read, time⟩
  · refine iff_of_true ?_ (.inl (not_overlap_of_unwritten wrote))
    rcases (holds.threads 1 _ (by rw [ended]; rfl)).returned
      with ⟨t', aliases', kept', has', -, -⟩ | ⟨t', u', aliases', wrote', -, early', -, -⟩
    · exact holds.kept_both (i := 0) (j := 1) others kept has kept' has'
    · exact KeepsAliases.comm.mp (holds.wrote_one (i := 1) (j := 0)
        (fun k not1 not0 => others k not0 not1) wrote' early' kept has)
  · rcases (holds.threads 1 _ (by rw [ended]; rfl)).returned
      with ⟨t', aliases', kept', has', -, unwritten⟩ | ⟨t', u', aliases', wrote', new', early', read', time'⟩
    · exact iff_of_true (holds.wrote_one (i := 0) (j := 1) others wrote early kept' has')
        (.inl fun both => not_overlap_of_unwritten unwritten (Overlap.comm.mp both))
    · rw [overlap_iff read time read' time']
      have apart : u ≠ u' := holds.apart 0 1 nofun u (by rw [wrote]; simp [AliasStage.stamps]) u'
        (by rw [wrote']; simp [AliasStage.stamps])
      rcases Nat.lt_or_gt_of_ne apart with order | order
      · exact holds.wrote_both (i := 0) (j := 1) (by decide) others wrote new early wrote' early' order
      · rw [KeepsAliases.comm, eqIgnoreAsciiCase_comm, and_comm (a := t < u')]
        exact holds.wrote_both (i := 1) (j := 0) (by decide)
          (fun k not1 not0 => others k not0 not1) wrote' new' early' wrote early order

/-! ### Two calls for Rust -/

/-- One entity without aliases; no statement fails. -/
def rustWorld : AliasWorld where
  entity := ⟨[⟨"ent-rust", "Rust", "[]", "Tech"⟩], List.nodup_singleton _⟩
  tick := 0
  fault _ := none

/-- Two calls, run by a schedule. -/
def rustCalls (schedule : List Nat) : Pool aliasSignature PersistError Unit AliasWorld :=
  Pool.runSchedule aliasMachine schedule (Pool.start rustWorld
    [appendEntityAlias Fixed "ent-rust" "rs", appendEntityAlias Fixed "ent-rust" "rustlang"])

theorem rustCalls_reaches (schedule : List Nat) :
    Pool.Reaches aliasMachine (fun _ _ => True) (Pool.start rustWorld
      [appendEntityAlias Fixed "ent-rust" "rs", appendEntityAlias Fixed "ent-rust" "rustlang"])
      (rustCalls schedule) := by
  refine Pool.reaches_runSchedule (fun _ _ => true) (fun _ _ _ _ _ _ _ => trivial) schedule _ ?_
  generalize Pool.start rustWorld _ = pool
  induction schedule generalizing pool with
  | nil => rfl
  | cons i rest ih =>
      unfold Pool.passes
      rw [ih]
      cases pool.threads[i]? with
      | none => rfl
      | some thread => rcases thread with ⟨h, a | e | ⟨r, next⟩⟩ <;> rfl

/-- Two threads that have returned. -/
theorem ended_of_values {threads : List (Thread aliasSignature PersistError Unit)}
    (returned : threads.map (fun thread => thread.program.value?) = [some (), some ()]) :
    ∃ h h', threads = [⟨h, .done ()⟩, ⟨h', .done ()⟩] := by
  rcases threads with _ | ⟨⟨h, p⟩, _ | ⟨⟨h', p'⟩, _ | ⟨thread, rest⟩⟩⟩
  · cases returned
  · simp at returned
  · simp only [List.map_cons, List.map_nil, List.cons.injEq, and_true] at returned
    exact ⟨h, h', by rw [Program.value?_eq_some returned.1, Program.value?_eq_some returned.2]⟩
  · simp at returned

/-- One call after the other. -/
theorem aliases_kept_in_turn :
    ∃ row', (rustCalls [0, 0, 0, 1, 1, 1]).world.entity.find? "ent-rust" = some row' ∧
      KeepsAliases (readAliases Fixed row'.aliases) (readAliases Fixed "[]") "rs" "rustlang" := by
  have returned : (rustCalls [0, 0, 0, 1, 1, 1]).threads.map (fun thread => thread.program.value?) =
      [some (), some ()] := by decide +kernel
  obtain ⟨h, h', ended⟩ := ended_of_values returned
  have times : (rustCalls [0, 0, 0, 1, 1, 1]).threads.map (fun thread =>
      (selectTime thread.history, updateTime thread.history)) = [(some 1, some 2), (some 4, some 5)] := by
    decide +kernel
  rw [ended] at times
  simp only [List.map_cons, List.map_nil, List.cons.injEq, Prod.mk.injEq, and_true] at times
  have stored : rustWorld.entity.find? "ent-rust" = some ⟨"ent-rust", "Rust", "[]", "Tech"⟩ := rfl
  refine (aliases_kept_iff stored (rustCalls_reaches _) ended).mpr (.inl ?_)
  rw [overlap_iff times.1.1 times.1.2 times.2.1 times.2.2]
  decide

/-- Both calls read before either writes: the alias of the first write is lost. -/
theorem alias_lost : ¬ ∀ (world : AliasWorld) (entityId a b : String) (row : EntityRow),
    world.entity.find? entityId = some row →
    ∀ pool : Pool aliasSignature PersistError Unit AliasWorld,
      Pool.Reaches aliasMachine (fun _ _ => True) (Pool.start world
        [appendEntityAlias Fixed entityId a, appendEntityAlias Fixed entityId b]) pool →
      ∀ h h' : List AliasEvent, pool.threads = [⟨h, .done ()⟩, ⟨h', .done ()⟩] →
        ∃ row', pool.world.entity.find? entityId = some row' ∧
          KeepsAliases (readAliases Fixed row'.aliases) (readAliases Fixed row.aliases) a b := by
  intro always
  have returned : (rustCalls [0, 0, 1, 1, 0, 1]).threads.map (fun thread => thread.program.value?) =
      [some (), some ()] := by decide +kernel
  obtain ⟨h, h', ended⟩ := ended_of_values returned
  obtain ⟨row', stored, has, -, -⟩ := always rustWorld "ent-rust" "rs" "rustlang" _ rfl _
    (rustCalls_reaches [0, 0, 1, 1, 0, 1]) h h' ended
  have left : ((rustCalls [0, 0, 1, 1, 0, 1]).world.entity.find? "ent-rust").map
      (fun row => hasAlias (readAliases Fixed row.aliases) "rs") = some false := by decide +kernel
  rw [stored, Option.map_some, has] at left
  cases left

end FusionMemory
