import FusionMemory.Core.Codec
import FusionMemory.Persist.Store

/-!
The entity index (`memory_entity`) and the audit query that reads it.

`put_memory`, `tombstone_memory` and `physical_delete` keep the index in step with the entities
of the rows (`Linked`). `audit_by_entities` joins it without `DISTINCT`: a row stands in the
answer once for each of its ids that is asked for (`auditByEntities_eq`), where the scan that the
query replaced has it once.
-/

namespace FusionMemory

open Lib

namespace Db

variable {F : Type}

/-! ### The index and its rows -/

section Links

variable {links : List (String × String)}

theorem mem_linkEntity {link p : String × String} :
    p ∈ linkEntity links link ↔ p ∈ links ∨ p = link := by
  unfold linkEntity
  split_ifs with known
  · rw [List.contains_iff_mem] at known
    exact ⟨.inl, fun either => either.elim id fun same => same ▸ known⟩
  · simp

theorem nodup_linkEntity (nodup : links.Nodup) (link : String × String) :
    (linkEntity links link).Nodup := by
  unfold linkEntity
  split_ifs with known
  · exact nodup
  · rw [List.contains_iff_mem] at known
    exact nodup.append (List.nodup_singleton _) (by simpa using known)

/-- The links of a row that is written: what stood, and one for each entity. -/
theorem mem_foldl_linkEntity {id : String} {entities : List EntityNode} {p : String × String} :
    p ∈ entities.foldl (fun links e => linkEntity links (id, e.id)) links ↔
      p ∈ links ∨ p.1 = id ∧ p.2 ∈ entities.map (·.id) := by
  induction entities generalizing links with
  | nil => simp
  | cons e rest ih =>
      rw [List.foldl_cons, ih, mem_linkEntity, List.map_cons, List.mem_cons, Prod.ext_iff, or_assoc,
        ← and_or_left]

theorem nodup_foldl_linkEntity {id : String} {entities : List EntityNode} (nodup : links.Nodup) :
    (entities.foldl (fun links e => linkEntity links (id, e.id)) links).Nodup := by
  induction entities generalizing links with
  | nil => exact nodup
  | cons e rest ih => exact ih (nodup_linkEntity nodup _)

end Links

/-- The index has the ids of each row's entities, each once, and nothing else. -/
structure Linked (db : Db F) : Prop where
  nodup : db.memoryEntity.Nodup
  mem_iff : ∀ p, p ∈ db.memoryEntity ↔
    ∃ m ∈ db.memoryItem.rows, m.id = p.1 ∧ p.2 ∈ m.entities.map (·.id)

theorem linked_empty : (empty : Db F).Linked where
  nodup := List.nodup_nil
  mem_iff p := ⟨fun no => (by cases no), fun ⟨_, no, _⟩ => (by cases no)⟩

namespace Linked

variable {db : Db F}

theorem putMemory (linked : db.Linked) (item : MemoryItem F) : (db.putMemory item).Linked where
  nodup := nodup_foldl_linkEntity (linked.nodup.filter _)
  mem_iff p := by
    unfold Db.putMemory
    dsimp only
    rw [mem_foldl_linkEntity, List.mem_filter, linked.mem_iff, bne_iff_ne]
    constructor
    · rintro (⟨⟨m, mem, key, has⟩, other⟩ | ⟨key, has⟩)
      · exact ⟨m, Table.mem_upsert.mpr (.inr ⟨mem, key ▸ other⟩), key, has⟩
      · exact ⟨item, Table.mem_upsert.mpr (.inl rfl), key.symm, has⟩
    · rintro ⟨m, mem, key, has⟩
      rcases Table.mem_upsert.mp mem with rfl | ⟨before, other⟩
      · exact .inr ⟨key.symm, has⟩
      · exact .inl ⟨⟨m, before, key, has⟩, key ▸ other⟩

theorem tombstoneMemory (linked : db.Linked) (id : String) : (db.tombstoneMemory id).Linked where
  nodup := linked.nodup
  mem_iff p := by
    have same : ∀ m : MemoryItem F, (if (m.id == id) = true then { m with tombstone := true }
        else m).id = m.id ∧ (if (m.id == id) = true then { m with tombstone := true }
        else m).entities = m.entities := by
      intro m
      split_ifs <;> exact ⟨rfl, rfl⟩
    unfold Db.tombstoneMemory setTombstone Table.update
    dsimp only
    rw [linked.mem_iff]
    constructor
    · rintro ⟨m, mem, key, has⟩
      exact ⟨_, List.mem_map_of_mem mem, (same m).1.trans key, by rw [(same m).2]; exact has⟩
    · rintro ⟨_, mem, key, has⟩
      obtain ⟨m, before, rfl⟩ := List.mem_map.mp mem
      exact ⟨m, before, (same m).1.symm.trans key, (same m).2 ▸ has⟩

theorem physicalDelete (linked : db.Linked) (id : String) : (db.physicalDelete id).Linked where
  nodup := linked.nodup.filter _
  mem_iff p := by
    unfold Db.physicalDelete
    dsimp only
    rw [List.mem_filter, linked.mem_iff, bne_iff_ne]
    constructor
    · rintro ⟨⟨m, mem, key, has⟩, other⟩
      exact ⟨m, Table.mem_delete.mpr ⟨mem, by simpa [key] using other⟩, key, has⟩
    · rintro ⟨m, mem, key, has⟩
      obtain ⟨before, other⟩ := Table.mem_delete.mp mem
      exact ⟨⟨m, before, key, has⟩, by simpa [key] using other⟩

end Linked

/-- A database that these three writes have built from nothing. -/
inductive Built : Db F → Prop where
  | empty : Built empty
  | putMemory {db : Db F} (item : MemoryItem F) : Built db → item.Sized → Built (db.putMemory item)
  | tombstoneMemory {db : Db F} (id : String) : Built db → Built (db.tombstoneMemory id)
  | physicalDelete {db : Db F} (id : String) : Built db → Built (db.physicalDelete id)

theorem Built.linked {db : Db F} (built : db.Built) : db.Linked := by
  induction built with
  | empty => exact linked_empty
  | putMemory item _ _ ih => exact ih.putMemory item
  | tombstoneMemory id _ ih => exact ih.tombstoneMemory id
  | physicalDelete id _ ih => exact ih.physicalDelete id

theorem Built.sized {db : Db F} (built : db.Built) : ∀ m ∈ db.memoryItem.rows, m.Sized := by
  induction built with
  | empty => exact fun _ none => (by cases none)
  | putMemory item _ sized ih =>
      intro m mem
      rcases Table.mem_upsert.mp mem with rfl | ⟨before, _⟩
      · exact sized
      · exact ih m before
  | tombstoneMemory id _ ih =>
      intro m mem
      obtain ⟨m', before, rfl⟩ := List.mem_map.mp mem
      have sized := ih m' before
      split_ifs
      · exact { sized with }
      · exact sized
  | physicalDelete id _ ih => exact fun m mem => ih m (Table.mem_delete.mp mem).1

/-! ### The join -/

/-- `audit_by_entities`, with one placeholder for each id. -/
def auditByEntitiesQuery (db : Db F) (entityIds : List String) :
    Except PersistError (List (MemoryItem F)) :=
  if entityIds.isEmpty then .ok []
  else if MAX_VARIABLE_NUMBER < entityIds.length then
    .error (.sqlite "variable number must be between ?1 and ?32766" false)
  else .ok (db.auditByEntities entityIds)

/-- The ids on the list that a live row has, each once. -/
def listedIds (entityIds : List String) (m : MemoryItem F) : List String :=
  if m.tombstone then [] else (m.entities.map (·.id)).dedup.filter entityIds.contains

theorem mem_listedIds {entityIds : List String} {m : MemoryItem F} {i : String} :
    i ∈ listedIds entityIds m ↔
      m.tombstone = false ∧ i ∈ m.entities.map (·.id) ∧ i ∈ entityIds := by
  unfold listedIds
  split_ifs with dead
  · simp [dead]
  · rw [List.mem_filter, List.mem_dedup, List.contains_iff_mem]
    simp [dead]

theorem nodup_listedIds (entityIds : List String) (m : MemoryItem F) :
    (listedIds entityIds m).Nodup := by
  unfold listedIds
  split_ifs
  · exact List.nodup_nil
  · exact (List.nodup_dedup _).filter _

/-- The links that the join finds for a row are its listed ids. -/
theorem Linked.length_joined {db : Db F} (linked : db.Linked) {m : MemoryItem F}
    (mem : m ∈ db.memoryItem.rows) (entityIds : List String) :
    (db.memoryEntity.filter fun me => me.1 == m.id && entityIds.contains me.2 &&
      !m.tombstone).length = (listedIds entityIds m).length := by
  have pairs : ((listedIds entityIds m).map fun i => (m.id, i)).Nodup :=
    (nodup_listedIds entityIds m).map fun _ _ same => (Prod.mk.inj same).2
  refine Eq.trans (List.Perm.length_eq ?_) (List.length_map fun i => (m.id, i))
  rw [List.perm_ext_iff_of_nodup (linked.nodup.filter _) pairs]
  intro p
  rw [List.mem_filter, List.mem_map, linked.mem_iff]
  simp only [Bool.and_eq_true, beq_iff_eq, List.contains_iff_mem, Bool.not_eq_true', mem_listedIds]
  constructor
  · rintro ⟨⟨m', mem', key', has⟩, ⟨key, asked⟩, live⟩
    obtain rfl : m' = m := Table.eq_of_key_eq mem' mem (key'.trans key)
    exact ⟨p.2, ⟨live, has, asked⟩, Prod.ext key' rfl⟩
  · rintro ⟨i, ⟨live, has, asked⟩, rfl⟩
    exact ⟨⟨m, mem, rfl, has⟩, ⟨rfl, asked⟩, live⟩

/-- The join has each row once for each listed id of the row. -/
theorem Linked.auditByEntities_eq {db : Db F} (linked : db.Linked) (entityIds : List String) :
    db.auditByEntities entityIds = orderBy (fun m => asI64 m.createdTimestamp)
      (db.memoryItem.rows.flatMap fun m => List.replicate (listedIds entityIds m).length m) := by
  unfold auditByEntities
  refine congrArg _ (List.flatMap_congr fun m mem => ?_)
  rw [List.map_const', linked.length_joined mem]

theorem Linked.mem_auditByEntities {db : Db F} (linked : db.Linked) {entityIds : List String}
    {m : MemoryItem F} : m ∈ db.auditByEntities entityIds ↔
      m ∈ db.memoryItem.rows ∧ m.tombstone = false ∧ ∃ e ∈ m.entities, e.id ∈ entityIds := by
  rw [linked.auditByEntities_eq, mem_orderBy, List.mem_flatMap]
  constructor
  · rintro ⟨m', mem, copy⟩
    obtain ⟨some, rfl⟩ := List.mem_replicate.mp copy
    obtain ⟨i, listed⟩ := List.exists_mem_of_length_pos (Nat.pos_of_ne_zero some)
    obtain ⟨live, has, asked⟩ := mem_listedIds.mp listed
    obtain ⟨e, mem', rfl⟩ := List.mem_map.mp has
    exact ⟨mem, live, e, mem', asked⟩
  · rintro ⟨mem, live, e, has, asked⟩
    have listed := mem_listedIds.mpr ⟨live, List.mem_map_of_mem has, asked⟩
    exact ⟨m, mem, List.mem_replicate.mpr
      ⟨Nat.ne_of_gt (List.length_pos_of_mem listed), rfl⟩⟩

/-- No row is repeated where no live row has two ids of the list. -/
theorem Linked.nodup_auditByEntities_iff {db : Db F} (linked : db.Linked)
    {entityIds : List String} : ((db.auditByEntities entityIds).map (·.id)).Nodup ↔
      ∀ m ∈ db.memoryItem.rows, (listedIds entityIds m).length ≤ 1 := by
  rw [linked.auditByEntities_eq, ((orderBy_perm _ _).map _).nodup_iff, List.map_flatMap,
    List.nodup_flatMap]
  simp only [List.map_replicate, List.nodup_replicate]
  refine and_iff_left ((List.pairwise_map.mp db.memoryItem.nodup).imp ?_)
  intro a b apart i inA inB
  exact apart ((List.mem_replicate.mp inA).2.symm.trans (List.mem_replicate.mp inB).2)

theorem length_listedIds_le_one_iff {entityIds : List String} {m : MemoryItem F} :
    (listedIds entityIds m).length ≤ 1 ↔ (m.tombstone = false → ∀ e ∈ m.entities,
      ∀ e' ∈ m.entities, e.id ∈ entityIds → e'.id ∈ entityIds → e.id = e'.id) := by
  constructor
  · intro short live e mem e' mem' asked asked'
    have listed := mem_listedIds.mpr ⟨live, List.mem_map_of_mem mem, asked⟩
    have listed' := mem_listedIds.mpr ⟨live, List.mem_map_of_mem mem', asked'⟩
    obtain ⟨i, is⟩ := List.length_eq_one_iff.mp
      (Nat.le_antisymm short (List.length_pos_of_mem listed))
    rw [is, List.mem_singleton] at listed listed'
    exact listed.trans listed'.symm
  · intro single
    have nodup := nodup_listedIds entityIds m
    have listed : ∀ i ∈ listedIds entityIds m, m.tombstone = false ∧ i ∈ m.entities.map (·.id) ∧
        i ∈ entityIds := fun i => mem_listedIds.mp
    generalize listedIds entityIds m = is at nodup listed ⊢
    match is with
    | [] => exact Nat.zero_le 1
    | [_] => exact Nat.le_refl 1
    | i :: j :: _ =>
        obtain ⟨live, hasI, askedI⟩ := listed i List.mem_cons_self
        obtain ⟨-, hasJ, askedJ⟩ := listed j (List.mem_cons_of_mem _ List.mem_cons_self)
        obtain ⟨e, mem, rfl⟩ := List.mem_map.mp hasI
        obtain ⟨e', mem', rfl⟩ := List.mem_map.mp hasJ
        have same := single live e mem e' mem' askedI askedJ
        exact absurd (same ▸ List.mem_cons_self) (List.nodup_cons.mp nodup).1

/-! ### The order of the answer -/

/-- The column of a `u64` is its value below `2 ^ 63` and negative from there on. -/
theorem asI64_cases {n : Nat} (fits : n < 2 ^ 64) :
    n < 2 ^ 63 ∧ asI64 n = n ∨ 2 ^ 63 ≤ n ∧ asI64 n = n - 2 ^ 64 ∧ asI64 n < 0 := by
  unfold asI64 u64Size
  rw [Int.bmod_def]
  split_ifs with low <;> omega

/-- Rows in the order of their columns are in the order of their numbers where the columns of
all or of none are negative. -/
theorem pairwise_created_iff {rows : List (MemoryItem F)} (sized : ∀ m ∈ rows, m.Sized)
    (byColumn : rows.Pairwise fun a b => asI64 a.createdTimestamp ≤ asI64 b.createdTimestamp) :
    (rows.Pairwise fun a b => a.createdTimestamp ≤ b.createdTimestamp) ↔
      ∀ a ∈ rows, ∀ b ∈ rows, a.createdTimestamp < 2 ^ 63 → b.createdTimestamp < 2 ^ 63 := by
  constructor
  · intro byNumber a memA b memB low
    by_contra high
    have either : rows.Pairwise fun a b =>
        (asI64 a.createdTimestamp ≤ asI64 b.createdTimestamp ∧
          a.createdTimestamp ≤ b.createdTimestamp) ∨
        (asI64 b.createdTimestamp ≤ asI64 a.createdTimestamp ∧
          b.createdTimestamp ≤ a.createdTimestamp) :=
      (byColumn.and byNumber).imp .inl
    have symm : Std.Symm fun a b : MemoryItem F =>
        (asI64 a.createdTimestamp ≤ asI64 b.createdTimestamp ∧
          a.createdTimestamp ≤ b.createdTimestamp) ∨
        (asI64 b.createdTimestamp ≤ asI64 a.createdTimestamp ∧
          b.createdTimestamp ≤ a.createdTimestamp) := ⟨fun _ _ => Or.symm⟩
    have apart : a ≠ b := fun same => high (same ▸ low)
    have columnA := asI64_cases (sized a memA).createdTimestamp
    have columnB := asI64_cases (sized b memB).createdTimestamp
    rcases either.forall memA memB apart with ⟨column, number⟩ | ⟨column, number⟩
    · omega
    · exact high (lt_of_le_of_lt number low)
  · intro sameHalf
    refine byColumn.imp_of_mem fun {a b} memA memB column => ?_
    have forth := sameHalf a memA b memB
    have back := sameHalf b memB a memA
    have columnA := asI64_cases (sized a memA).createdTimestamp
    have columnB := asI64_cases (sized b memB).createdTimestamp
    omega

/-! ### The scan that the query replaced -/

/-- The answer is that of a scan over all live rows for an entity on the list: every such
memory, each once, in the order of creation. -/
structure Scans (db : Db F) (entityIds : List String) (rows : List (MemoryItem F)) : Prop where
  mem_iff : ∀ m, m ∈ rows ↔
    m ∈ db.memoryItem.rows ∧ m.tombstone = false ∧ ∃ e ∈ m.entities, e.id ∈ entityIds
  once : (rows.map (·.id)).Nodup
  ordered : rows.Pairwise fun a b => a.createdTimestamp ≤ b.createdTimestamp

/-- No live memory has two different ids of the list. -/
def ListedOnce (db : Db F) (entityIds : List String) : Prop :=
  ∀ m ∈ db.memoryItem.rows, m.tombstone = false → ∀ e ∈ m.entities, ∀ e' ∈ m.entities,
    e.id ∈ entityIds → e'.id ∈ entityIds → e.id = e'.id

/-- The live memories with an entity on the list were all created before `2 ^ 63` or none was. -/
def SameHalf (db : Db F) (entityIds : List String) : Prop :=
  ∀ a ∈ db.memoryItem.rows, ∀ b ∈ db.memoryItem.rows, a.tombstone = false → b.tombstone = false →
    (∃ e ∈ a.entities, e.id ∈ entityIds) → (∃ e ∈ b.entities, e.id ∈ entityIds) →
    a.createdTimestamp < 2 ^ 63 → b.createdTimestamp < 2 ^ 63

/-- The audit query answers as the scan did, exactly where the list is short enough for SQLite,
no live memory has two of its ids and no creation time turns negative among others that do not. -/
theorem auditByEntities_scans_iff {db : Db F} (built : db.Built) (entityIds : List String) :
    (∃ rows, db.auditByEntitiesQuery entityIds = .ok rows ∧ db.Scans entityIds rows) ↔
      entityIds.length ≤ MAX_VARIABLE_NUMBER ∧ db.ListedOnce entityIds ∧ db.SameHalf entityIds := by
  have linked := built.linked
  have sized : ∀ m ∈ db.auditByEntities entityIds, m.Sized :=
    fun m mem => built.sized m (linked.mem_auditByEntities.mp mem).1
  have byColumn : (db.auditByEntities entityIds).Pairwise fun a b =>
      asI64 a.createdTimestamp ≤ asI64 b.createdTimestamp := pairwise_orderBy _ _
  have once : ((db.auditByEntities entityIds).map (·.id)).Nodup ↔ db.ListedOnce entityIds :=
    linked.nodup_auditByEntities_iff.trans
      (forall₂_congr fun m _ => length_listedIds_le_one_iff)
  have ordered : ((db.auditByEntities entityIds).Pairwise fun a b =>
      a.createdTimestamp ≤ b.createdTimestamp) ↔ db.SameHalf entityIds := by
    rw [pairwise_created_iff sized byColumn]
    simp only [linked.mem_auditByEntities]
    exact ⟨fun half a memA b memB liveA liveB hitA hitB =>
        half a ⟨memA, liveA, hitA⟩ b ⟨memB, liveB, hitB⟩,
      fun half a hitA b hitB => half a hitA.1 b hitB.1 hitA.2.1 hitB.2.1 hitA.2.2 hitB.2.2⟩
  have scans : db.Scans entityIds (db.auditByEntities entityIds) ↔
      db.ListedOnce entityIds ∧ db.SameHalf entityIds :=
    ⟨fun scans => ⟨once.mp scans.once, ordered.mp scans.ordered⟩,
      fun ⟨single, half⟩ =>
        ⟨fun m => linked.mem_auditByEntities, once.mpr single, ordered.mpr half⟩⟩
  unfold auditByEntitiesQuery
  split_ifs with none long
  · have nil : entityIds = [] := List.isEmpty_iff.mp none
    subst nil
    rw [auditByEntities_nil] at scans
    exact ⟨fun ⟨_, answer, scanned⟩ => ⟨Nat.zero_le _, scans.mp (Except.ok.inj answer ▸ scanned)⟩,
      fun ⟨_, meets⟩ => ⟨[], rfl, scans.mpr meets⟩⟩
  · exact ⟨fun ⟨_, no, _⟩ => (by cases no), fun ⟨short, _⟩ => absurd long (not_lt.mpr short)⟩
  · exact ⟨fun ⟨_, answer, scanned⟩ => ⟨not_lt.mp long, scans.mp (Except.ok.inj answer ▸ scanned)⟩,
      fun ⟨_, meets⟩ => ⟨_, rfl, scans.mpr meets⟩⟩

/-- A memory of two entities. -/
def linkedTwice : MemoryItem Fixed :=
  { MemoryItem.newTurnSkeleton "m1" "ix1" 0 "s1" "" .semantic "a and b" 5 with
    entities := [⟨"ent-a", "A", [], .tech⟩, ⟨"ent-b", "B", [], .tech⟩] }

theorem linkedTwice_recent : linkedTwice.createdTimestamp < 2 ^ 63 := by decide

theorem built_linkedTwice : (Db.empty.putMemory linkedTwice).Built :=
  .putMemory linkedTwice .empty ⟨by decide, by decide, by decide, by decide⟩

/-- The join has the memory once when one of its two ids is asked for. -/
theorem scans_one_of_two : ∃ rows,
    (Db.empty.putMemory linkedTwice).auditByEntitiesQuery ["ent-a", "ent-c", "ent-a"] = .ok rows ∧
      (Db.empty.putMemory linkedTwice).Scans ["ent-a", "ent-c", "ent-a"] rows :=
  (auditByEntities_scans_iff built_linkedTwice _).mpr
    ⟨by decide, by unfold ListedOnce; decide, fun _ _ b memB _ _ _ _ _ => by
      obtain rfl : b = linkedTwice := List.mem_singleton.mp memB
      exact linkedTwice_recent⟩

/-- Both ids on the list, and the memory is there twice. -/
theorem audit_lists_memory_twice : ¬ ∀ (db : Db Fixed) (entityIds : List String), db.Built →
    ∃ rows, db.auditByEntitiesQuery entityIds = .ok rows ∧ db.Scans entityIds rows := by
  intro scan
  obtain ⟨rows, answer, scans⟩ := scan _ ["ent-a", "ent-b"] built_linkedTwice
  have joined : (Db.empty.putMemory linkedTwice).auditByEntitiesQuery ["ent-a", "ent-b"] =
      .ok ((Db.empty.putMemory linkedTwice).auditByEntities ["ent-a", "ent-b"]) :=
    (if_neg (by decide)).trans (if_neg (by decide))
  obtain rfl := Except.ok.inj (joined.symm.trans answer)
  have short := built_linkedTwice.linked.nodup_auditByEntities_iff.mp scans.once linkedTwice
    (List.mem_singleton_self _)
  exact absurd short (by decide)

end Db

end FusionMemory
