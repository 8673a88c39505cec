import FusionMemory.Cluster.LoggedEntries
import FusionMemory.Engine.ConsolidatePhases

/-!
A leader's database and the replica its log describes.

`Mirrored` relates the rows of a database to those that a follower who starts empty has
after replaying the database's own log. Only committed memories are compared: a summary is
not replayed. Each write of a leader that is logged as what it is keeps the relation; so
do the attaching of entities and the purge of a tombstoned row, which are not logged.
-/

namespace FusionMemory

open Lib

variable {F : Type}

/-! ### Rows -/

/-- A row without its entities and its access counts. -/
def MemoryItem.bare (m : MemoryItem F) : MemoryItem F :=
  { m with
    entities := []
    entitiesPending := false
    accessCount := 0
    lastAccessedTimestamp := 0 }

/-- A committed memory that is live; all other rows that a leader makes are summaries. -/
def MemoryItem.isLiveCommit (m : MemoryItem F) : Bool :=
  decide (m.memoryType = .episodic) && !m.tombstone

/-- The copy of a row, its accesses apart. The entities are the same too where commits attach
none (`exact`), and when those of the copy came through the log. -/
structure MemoryItem.CopyOf (exact : Bool) (m' m : MemoryItem F) : Prop where
  bare : m'.bare = m.bare
  entities : exact = true ∨ m'.entitiesPending = false →
    m'.entities = m.entities ∧ m'.entitiesPending = m.entitiesPending

/-- The row of a leader and that of its replica. Rows that are not commits are not
compared, but the replica has no live commit in their place. -/
structure Mirrors (exact : Bool) (row copy : Option (MemoryItem F)) : Prop where
  same : ∀ m, row = some m → m.memoryType = .episodic → ∃ m', copy = some m' ∧ m'.CopyOf exact m
  absent : (∀ m, row = some m → m.memoryType ≠ .episodic) →
    ∀ m', copy = some m' → m'.memoryType = .episodic → m'.tombstone = true

section Rows

variable {exact : Bool} {row copy : Option (MemoryItem F)} {m m' item : MemoryItem F}

namespace MemoryItem.CopyOf

theorem refl (m : MemoryItem F) : m.CopyOf exact m := ⟨rfl, fun _ => ⟨rfl, rfl⟩⟩

theorem memoryType (copied : m'.CopyOf exact m) : m'.memoryType = m.memoryType := by
  have same := congrArg MemoryItem.memoryType copied.bare
  exact same

theorem tombstone (copied : m'.CopyOf exact m) : m'.tombstone = m.tombstone := by
  have same := congrArg MemoryItem.tombstone copied.bare
  exact same

theorem isLiveCommit (copied : m'.CopyOf exact m) : m'.isLiveCommit = m.isLiveCommit := by
  unfold MemoryItem.isLiveCommit
  rw [copied.memoryType, copied.tombstone]

/-- A change leaves the entities alone. -/
theorem alter (copied : m'.CopyOf exact m) (c : RowChange F) : (c.alter m').CopyOf exact (c.alter m) where
  bare := congrArg c.alter copied.bare
  entities := copied.entities

end MemoryItem.CopyOf

namespace Mirrors

theorem empty : Mirrors exact (none : Option (MemoryItem F)) none where
  same m h := by cases h
  absent _ m' h := by cases h

theorem put (item : MemoryItem F) : Mirrors exact (some item) (some item) where
  same m h _ := ⟨m, h, .refl m⟩
  absent other m' h episodic := absurd episodic (other m' h)

/-- A change that the leader makes and the replica too. -/
theorem apply (mirrors : Mirrors exact row copy) (c : RowChange F) :
    Mirrors exact (c.apply row) (c.apply copy) := by
  cases written : c.put with
  | some item =>
      simp only [RowChange.apply, written, Option.some_or]
      exact put (c.alter item)
  | none =>
      simp only [RowChange.apply, written, Option.none_or]
      constructor
      · intro m changed episodic
        obtain ⟨m₀, stored, rfl⟩ := Option.map_eq_some_iff.mp changed
        obtain ⟨m', copied, same⟩ := mirrors.same m₀ stored episodic
        exact ⟨c.alter m', by rw [copied]; rfl, same.alter c⟩
      · intro other m' changed episodic
        obtain ⟨m₀, copied, rfl⟩ := Option.map_eq_some_iff.mp changed
        have buried : m₀.tombstone = true :=
          mirrors.absent (fun m stored => other (c.alter m) (by rw [stored]; rfl)) m₀ copied episodic
        change (m₀.tombstone || c.tombstone) = true
        rw [buried, Bool.true_or]

/-- Entities that the leader attaches on its own, to a memory whose copy waits for them. -/
theorem attach (pending : m.entitiesPending = true) (entities : List EntityNode) (settled : Bool) :
    Mirrors false (some { m with entities := entities, entitiesPending := !settled }) (some m) where
  same m₁ h episodic := by
    cases h
    refine ⟨m, rfl, rfl, fun known => ?_⟩
    rcases known with none | settled
    · cases none
    · rw [pending] at settled
      cases settled
  absent other m' h episodic := by
    cases h
    have summary := other _ rfl
    exact absurd episodic summary

/-- An access of the leader's row. -/
theorem touch (mirrors : Mirrors exact (some m) copy) (count now : Nat) :
    Mirrors exact (some { m with accessCount := count, lastAccessedTimestamp := now }) copy where
  same m₁ h episodic := by
    cases h
    obtain ⟨m', copied, same⟩ := mirrors.same m rfl episodic
    exact ⟨m', copied, same.bare, same.entities⟩
  absent other := mirrors.absent fun m₁ h => by
    cases h
    have summary := other _ rfl
    exact summary

/-- A deleted row that the leader forgets. -/
theorem purge (mirrors : Mirrors exact row copy) (buried : ∀ m, row = some m → m.tombstone = true) :
    Mirrors exact none copy where
  same m h := by cases h
  absent _ m' copied episodic := by
    by_cases committed : ∃ m, row = some m ∧ m.memoryType = .episodic
    · obtain ⟨m, stored, episodic'⟩ := committed
      obtain ⟨m₁, copied₁, same⟩ := mirrors.same m stored episodic'
      obtain rfl : m' = m₁ := Option.some.inj (copied.symm.trans copied₁)
      rw [same.tombstone]
      exact buried m stored
    · exact mirrors.absent (fun m stored episodic' => committed ⟨m, stored, episodic'⟩) m' copied
        episodic

/-- A summary under a new id. -/
theorem summary (mirrors : Mirrors exact none copy) (other : item.memoryType ≠ .episodic) :
    Mirrors exact (some item) copy where
  same m h episodic := by
    cases h
    exact absurd episodic other
  absent _ := mirrors.absent fun m h => by cases h

/-- The replica has a live commit where the leader has one, and a copy of it. -/
theorem live (mirrors : Mirrors exact row copy) :
    Option.Rel (MemoryItem.CopyOf exact) (copy.filter MemoryItem.isLiveCommit)
      (row.filter MemoryItem.isLiveCommit) := by
  by_cases committed : ∃ m, row = some m ∧ m.memoryType = .episodic
  · obtain ⟨m, rfl, episodic⟩ := committed
    obtain ⟨m', rfl, same⟩ := mirrors.same m rfl episodic
    rw [Option.filter_some, Option.filter_some, same.isLiveCommit]
    split_ifs
    · exact .some same
    · exact .none
  · have rowNone : row.filter MemoryItem.isLiveCommit = none := by
      cases row with
      | none => rfl
      | some m =>
          have other : m.memoryType ≠ .episodic := fun episodic => committed ⟨m, rfl, episodic⟩
          simp [MemoryItem.isLiveCommit, other]
    have copyNone : copy.filter MemoryItem.isLiveCommit = none := by
      cases copied : copy with
      | none => rfl
      | some m' =>
          by_cases episodic : m'.memoryType = .episodic
          · have buried := mirrors.absent (fun m stored episodic => committed ⟨m, stored, episodic⟩)
              m' copied episodic
            simp [MemoryItem.isLiveCommit, buried]
          · simp [MemoryItem.isLiveCommit, episodic]
    rw [rowNone, copyNone]
    exact .none

end Mirrors

end Rows

/-! ### Databases -/

variable [FloatArith F] [JsonText F]

/-- The row that a follower who starts empty has after a log. -/
def replica (log : List WopEntry) (id : String) : Option (MemoryItem F) :=
  (changesAt log id).apply none

theorem replica_append (log : List WopEntry) (e : WopEntry) (id : String) :
    replica (F := F) (log ++ [e]) id = (e.changeAt id).apply (replica log id) := by
  unfold replica changesAt
  rw [List.foldl_append, List.foldl_cons, List.foldl_nil, RowChange.apply_comp]

omit [FloatArith F] [JsonText F] in
/-- A change of a turn, or that puts one, leaves one. -/
theorem isTurn_apply {c : RowChange F} {row : Option (MemoryItem F)}
    (put : ∀ item, c.put = some item → item.IsTurn) (old : ∀ m, row = some m → m.IsTurn)
    {m : MemoryItem F} (changed : c.apply row = some m) : m.IsTurn := by
  obtain ⟨m₀, source, rfl⟩ := Option.map_eq_some_iff.mp changed
  have turn : m₀.IsTurn := by
    rcases Option.or_eq_some_iff.mp source with written | ⟨-, stored⟩
    · exact put m₀ written
    · exact old m₀ stored
  exact ⟨turn.episodic, turn.entities⟩

theorem Logged.put_isTurn {dim : Nat} {e : WopEntry} (logged : Logged F dim e)
    (known : e.op ≠ "reextract") (id : String) :
    ∀ item : MemoryItem F, (e.changeAt id).put = some item → item.IsTurn := by
  have nothing : ∀ c : RowChange F, c.put = none → ∀ {changed : String}, ∀ item,
      (if changed = id then c else .none).put = some item → item.IsTurn := by
    intro c none changed item written
    split_ifs at written
    · rw [none] at written
      cases written
    · cases written
  intro item
  cases logged with
  | @commit seq «at» committed vec portable turn floats fits vecId parsed =>
      rw [changeAt_eq (change_commit portable floats)]
      intro written
      split_ifs at written
      · cases written
        exact turn
      · cases written
  | delete seq gone «at» => exact nothing .tombstoned rfl item
  | recycle seq gone «at» => exact nothing .tombstoned rfl item
  | promote seq noTab «at» =>
      rw [changeAt_eq (change_promote noTab)]
      exact nothing (.ofTier .long) rfl item
  | merge seq noTab noTab' «at» =>
      rw [changeAt_eq (change_merge noTab noTab')]
      exact nothing .tombstoned rfl item
  | summarize seq payload «at» =>
      rw [changeAt_none change_summarize]
      intro written
      cases written
  | reextract seq portable «at» => exact absurd rfl known

/-- Without re-extraction a replica holds turns as they were committed. -/
theorem replica_isTurn {dim : Nat} {log : List WopEntry} (logged : ∀ e ∈ log, Logged F dim e)
    (known : ∀ e ∈ log, e.op ≠ "reextract") (id : String) :
    ∀ m : MemoryItem F, replica log id = some m → m.IsTurn := by
  induction log using List.reverseRecOn with
  | nil =>
      intro m none
      cases none
  | append_singleton log e ih =>
      intro m found
      rw [replica_append] at found
      refine isTurn_apply ((logged e (by simp)).put_isTurn (known e (by simp)) id) (ih ?_ ?_) found
      · exact fun e' mem => logged e' (List.mem_append_left _ mem)
      · exact fun e' mem => known e' (List.mem_append_left _ mem)

/-- A row that comes through the log, accessed at most `n` times. -/
structure MemoryItem.Fits (n : Nat) (m : MemoryItem F) : Prop where
  portable : m.Portable
  count : m.accessCount ≤ n

/-- A database whose log describes it. Its vectors have dimension `dim`, and no row of it was
accessed more than `n` times. -/
structure Db.Mirrored (exact : Bool) (dim n : Nat) (db : Db F) : Prop where
  rows : ∀ id, Mirrors exact (db.getMemory id) (replica db.wopLog id)
  merges : db.mergeLog.map (·.pair) = db.wopLog.filterMap WopEntry.mergePair
  logged : ∀ e ∈ db.wopLog, Logged F dim e
  fits : ∀ m ∈ db.memoryItem.rows, m.Fits n

namespace Db.Mirrored

variable {exact : Bool} {dim n : Nat} {db db' : Db F} {e : WopEntry} {m item : MemoryItem F}

theorem empty : Db.Mirrored exact dim n (Db.empty : Db F) where
  rows _ := .empty
  merges := rfl
  logged e mem := by cases mem
  fits m mem := by cases mem

/-- A step that no follower sees. -/
theorem unlogged (mirrored : db.Mirrored exact dim n) (log : db'.wopLog = db.wopLog)
    (merges : db'.mergeLog = db.mergeLog) (fits : ∀ m ∈ db'.memoryItem.rows, m.Fits n)
    (rows : ∀ id, Mirrors exact (db.getMemory id) (replica db.wopLog id) →
      Mirrors exact (db'.getMemory id) (replica db.wopLog id)) : db'.Mirrored exact dim n where
  rows id := by rw [log]; exact rows id (mirrored.rows id)
  merges := by rw [merges, log]; exact mirrored.merges
  logged := by rw [log]; exact mirrored.logged
  fits := fits

/-- A step that leaves rows and logs alone. -/
theorem same (mirrored : db.Mirrored exact dim n) (rows : db'.memoryItem = db.memoryItem)
    (log : db'.wopLog = db.wopLog) (merges : db'.mergeLog = db.mergeLog) :
    db'.Mirrored exact dim n := by
  refine mirrored.unlogged log merges (by rw [rows]; exact mirrored.fits) fun id mirrors => ?_
  unfold Db.getMemory at mirrors ⊢
  rwa [rows]

/-- A step that is logged as what it is. -/
theorem log (mirrored : db.Mirrored exact dim n) (log : db'.wopLog = db.wopLog ++ [e])
    (logged : Logged F dim e)
    (merges : db'.mergeLog.map (·.pair) = db.mergeLog.map (·.pair) ++ e.mergePair.toList)
    (fits : ∀ m ∈ db'.memoryItem.rows, m.Fits n)
    (rows : ∀ id, Mirrors exact (db.getMemory id) (replica db.wopLog id) →
      Mirrors exact (db'.getMemory id) ((e.changeAt id).apply (replica db.wopLog id))) :
    db'.Mirrored exact dim n where
  rows id := by rw [log, replica_append]; exact rows id (mirrored.rows id)
  merges := by
    rw [merges, mirrored.merges, log, List.filterMap_append, List.filterMap_cons, List.filterMap_nil]
    cases e.mergePair with
    | none => rfl
    | some pair => rfl
  logged e' mem := by
    rw [log, List.mem_append, List.mem_singleton] at mem
    rcases mem with old | rfl
    · exact mirrored.logged e' old
    · exact logged
  fits := fits

/-- A row that the leader changes as the entry says. -/
theorem logRow (mirrored : db.Mirrored exact dim n) (log : db'.wopLog = db.wopLog ++ [e])
    (logged : Logged F dim e)
    (merges : db'.mergeLog.map (·.pair) = db.mergeLog.map (·.pair) ++ e.mergePair.toList)
    (fits : ∀ m ∈ db'.memoryItem.rows, m.Fits n) {changed : String} {c : RowChange F}
    (known : e.change = some (changed, c))
    (row : ∀ id, db'.getMemory id =
      (if changed = id then c else .none).apply (db.getMemory id)) : db'.Mirrored exact dim n := by
  refine mirrored.log log logged merges fits fun id mirrors => ?_
  rw [changeAt_eq known, row]
  exact mirrors.apply _

theorem fits_tombstone (fits : ∀ m ∈ db.memoryItem.rows, m.Fits n) (id : String) :
    ∀ m ∈ (db.tombstoneMemory id).memoryItem.rows, m.Fits n := by
  intro m mem
  obtain ⟨m₀, stored, rfl⟩ := Memories.mem_setTombstone.mp mem
  split_ifs
  · exact ⟨(fits m₀ stored).portable.tombstoned, (fits m₀ stored).count⟩
  · exact fits m₀ stored

theorem fits_put (fits : ∀ m ∈ db.memoryItem.rows, m.Fits n) (written : item.Fits n) :
    ∀ m ∈ (db.putMemory item).memoryItem.rows, m.Fits n := by
  intro m mem
  rcases Table.mem_upsert.mp mem with rfl | ⟨old, -⟩
  · exact written
  · exact fits m old

/-! What the leader writes, with its log entry. -/

/-- A row is tombstoned. -/
theorem tombstone (mirrored : db.Mirrored exact dim n) {op payload id : String} {«at» : Nat}
    (logged : Logged F dim ⟨db.wopSeq + 1, op, payload, «at»⟩)
    (known : (WopEntry.mk (db.wopSeq + 1) op payload «at»).change =
      some (id, (.tombstoned : RowChange F)))
    (pair : (WopEntry.mk (db.wopSeq + 1) op payload «at»).mergePair = none) :
    ((db.tombstoneMemory id).appendWop op payload «at»).Mirrored exact dim n := by
  refine mirrored.logRow rfl logged ?_ (fits_tombstone mirrored.fits id) known
    (getMemory_tombstone db id)
  change db.mergeLog.map (·.pair) =
    _ ++ (WopEntry.mk (db.wopSeq + 1) op payload «at»).mergePair.toList
  rw [pair]
  exact (List.append_nil _).symm

/-- A row is written. -/
theorem put (mirrored : db.Mirrored exact dim n) {op payload : String} {«at» : Nat}
    (fits : item.Fits n) (logged : Logged F dim ⟨db.wopSeq + 1, op, payload, «at»⟩)
    (known : (WopEntry.mk (db.wopSeq + 1) op payload «at»).change = some (item.id, .ofItem item))
    (pair : (WopEntry.mk (db.wopSeq + 1) op payload «at»).mergePair = none) :
    (db.putMemoryWithWop item op payload «at»).Mirrored exact dim n := by
  refine mirrored.logRow rfl logged ?_ (fits_put mirrored.fits fits) known
    (getMemory_put db item)
  change db.mergeLog.map (·.pair) =
    _ ++ (WopEntry.mk (db.wopSeq + 1) op payload «at»).mergePair.toList
  rw [pair]
  exact (List.append_nil _).symm

/-- A row is promoted as it stands. -/
theorem promote (mirrored : db.Mirrored exact dim n) (stored : db.getMemory m.id = some m)
    («at» : Nat) :
    ((db.putMemory (promoted m)).appendWop "promote" (m.id ++ "\tLong") «at»).Mirrored exact dim n := by
  have fits : m.Fits n := mirrored.fits m (Table.find?_mem stored)
  refine mirrored.logRow rfl (.promote _ fits.portable.noTab «at») ?_
    (fits_put mirrored.fits ⟨fits.portable.promoted, fits.count⟩)
    (change_promote fits.portable.noTab) fun id => ?_
  · exact (List.append_nil _).symm
  · change (db.putMemory (promoted m)).getMemory id = _
    rw [Db.getMemory_putMemory]
    change (if m.id = id then some (promoted m) else db.getMemory id) = _
    split_ifs with same
    · rw [← same, stored]
      simp [RowChange.apply, RowChange.ofTier, RowChange.alter, promoted]
    · rw [RowChange.apply_none]

/-- A source is merged away. -/
theorem merge (mirrored : db.Mirrored exact dim n) {source target : String}
    (noTab : '\t' ∉ source.toList) (noTab' : '\t' ∉ target.toList) («at» : Nat) :
    (((db.tombstoneMemory source).recordMerge source target MERGE_REASON «at»).appendWop "merge"
      (source ++ "\t" ++ target ++ "\t" ++ MERGE_REASON ++ "\t" ++ toString «at») «at»).Mirrored
        exact dim n := by
  refine mirrored.logRow rfl (.merge _ noTab noTab' «at») ?_
    (fits_tombstone mirrored.fits source) (change_merge noTab noTab')
    (getMemory_tombstone db source)
  rw [mergePair_merge noTab noTab']
  exact List.map_append

/-- A summary is stored under a new id. -/
theorem summarize (mirrored : db.Mirrored exact dim n) (fresh : db.getMemory item.id = none)
    (other : item.memoryType ≠ .episodic) (fits : item.Fits n) (payload : String) («at» : Nat) :
    (db.putMemoryWithWop item "summarize" payload «at»).Mirrored exact dim n := by
  refine mirrored.log rfl (.summarize _ payload «at») (List.append_nil _).symm
    (fits_put mirrored.fits fits) fun id mirrors => ?_
  rw [changeAt_none change_summarize, RowChange.apply_none]
  change Mirrors exact ((db.putMemory item).getMemory id) _
  rw [Db.getMemory_putMemory]
  split_ifs with same
  · rw [← same] at mirrors ⊢
    rw [fresh] at mirrors
    exact mirrors.summary other
  · exact mirrors

/-! What the leader writes without an entry. -/

/-- Entities are attached to a memory that was just committed. -/
theorem attach (mirrored : db.Mirrored false dim n) (pending : m.entitiesPending = true)
    (stored : db.getMemory m.id = some m) (committed : replica db.wopLog m.id = some m)
    (entities : List EntityNode) (settled : Bool) :
    (db.putMemory { m with entities := entities, entitiesPending := !settled }).Mirrored false dim n := by
  have fits : m.Fits n := mirrored.fits m (Table.find?_mem stored)
  refine mirrored.unlogged rfl rfl
    (fits_put mirrored.fits ⟨fits.portable.entities _ _, fits.count⟩) fun id mirrors => ?_
  rw [Db.getMemory_putMemory]
  split_ifs with same
  · obtain rfl : m.id = id := same
    rw [committed]
    exact .attach pending entities settled
  · exact mirrors

/-- Memories are accessed. -/
theorem touch (mirrored : db.Mirrored exact dim n) (few : n + 1 < 2 ^ 64) (ids : List String)
    {now : Nat} (small : now < 2 ^ 64) : (db.touchAccessBatch ids now).Mirrored exact dim (n + 1) where
  rows id := by
    have mirrors := mirrored.rows id
    rw [Db.getMemory_touchAccessBatch]
    cases row : db.getMemory id with
    | none =>
        rw [row] at mirrors
        exact mirrors
    | some m =>
        rw [row] at mirrors
        rw [Option.map_some]
        split_ifs
        · exact mirrors.touch _ _
        · exact mirrors
  merges := mirrored.merges
  logged := mirrored.logged
  fits m mem := by
    have touched : ∃ m₀ ∈ db.memoryItem.rows, (if ids.contains m₀.id && !m₀.tombstone then
        { m₀ with accessCount := m₀.accessCount + 1, lastAccessedTimestamp := now } else m₀) = m :=
      List.mem_map.mp mem
    obtain ⟨m₀, stored, rfl⟩ := touched
    have ⟨portable, count⟩ := mirrored.fits m₀ stored
    split_ifs
    · exact ⟨⟨⟨portable.sized.turnIdx, by dsimp only; omega, small, portable.sized.createdTimestamp⟩,
        portable.weight, portable.noTab⟩, Nat.succ_le_succ count⟩
    · exact ⟨portable, Nat.le_succ_of_le count⟩

theorem mono (mirrored : db.Mirrored exact dim n) : db.Mirrored exact dim (n + 1) :=
  ⟨mirrored.rows, mirrored.merges, mirrored.logged, fun m mem =>
    ⟨(mirrored.fits m mem).portable, Nat.le_succ_of_le (mirrored.fits m mem).count⟩⟩

/-- A tombstoned row is deleted for good. -/
theorem purge (mirrored : db.Mirrored exact dim n) {id : String}
    (buried : ∀ m, db.getMemory id = some m → m.tombstone = true) :
    (db.physicalDelete id).Mirrored exact dim n := by
  refine mirrored.unlogged rfl rfl (fun m mem => mirrored.fits m (Table.mem_delete.mp mem).1)
    fun id' mirrors => ?_
  rw [Db.getMemory_physicalDelete]
  split_ifs with same
  · rw [← same] at mirrors ⊢
    exact mirrors.purge buried
  · exact mirrors

end Db.Mirrored

end FusionMemory
