import FusionMemory.Engine.Consolidate

/-!
Extracted entities and their ids (`to_entity_nodes` of `fm-engine/src/entity_extract.rs`).

An entity's id is made of its name: a slug for the reader and the name's hash. Three places
take it for the entity: the entity table keeps the first row of an id, merging asks whether
two memories share an id, and links are by id. `entityId_eq_iff` says what equal ids mean,
and `entity_types_kept_iff` when those places tell all the entities apart.
-/

namespace FusionMemory

open Lib

/-- `char::is_alphanumeric`; its Unicode table is a parameter, fixed on ASCII. -/
structure AlphanumericTable where
  isAlphanumeric : Char → Bool
  ascii : ∀ c : Char, c.toNat < 128 → isAlphanumeric c = c.isAlphanum

/-- The letters and digits of ASCII alone. -/
def AlphanumericTable.ofAscii : AlphanumericTable := ⟨Char.isAlphanum, fun _ _ => rfl⟩

/-! ### The source -/

/-- One entity of the model's answer. -/
structure LlmEntity where
  name : String
  entityType : String
  aliases : List String
deriving DecidableEq, Repr

/-- `s.trim_matches(c)`. -/
def trimMatches (c : Char) (s : List Char) : List Char :=
  (s.dropWhile (· == c)).rdropWhile (· == c)

/-- For display only: punctuation becomes hyphens. -/
def slug (t : AlphanumericTable) (s : String) : String :=
  String.ofList (trimMatches '-' (s.toList.map fun c =>
    if t.isAlphanumeric c then c.toLower else '-'))

/-- The last `k` hexadecimal digits of `n`. -/
def lowHexDigits : Nat → Nat → List Char
  | 0, _ => []
  | k + 1, n => lowHexDigits k (n / 16) ++ [Nat.digitChar (n % 16)]

/-- `{:016x}` of a `u64`. -/
def hex16 (n : Nat) : String := String.ofList (lowHexDigits 16 n)

def nameHash (name : String) : Nat := fnv1a64 name.toUTF8.toList

/-- `format!("ent-{}-{:016x}", slug(&name), fnv1a_64(name.as_bytes()))` -/
def entityId (t : AlphanumericTable) (name : String) : String :=
  "ent-" ++ slug t name ++ "-" ++ hex16 (nameHash name)

/-- An answer without a name or of an unknown type is skipped. -/
def toEntityNode (t : AlphanumericTable) (e : LlmEntity) : Option EntityNode :=
  let name := trim e.name
  if name = "" then none
  else
    match EntityType.parse e.entityType with
    | none => none
    | some etype => some
        { id := entityId t name
          name := name
          aliases := (e.aliases.map trim).filter fun a => a != ""
          entityType := etype }

def toEntityNodes (t : AlphanumericTable) (llm : List LlmEntity) : List EntityNode :=
  llm.filterMap (toEntityNode t)

/-! ### Ids -/

theorem length_lowHexDigits (k n : Nat) : (lowHexDigits k n).length = k := by
  induction k generalizing n with
  | zero => rfl
  | succ k ih => simp [lowHexDigits, ih]

theorem digitChar_inj : ∀ a < 16, ∀ b < 16, Nat.digitChar a = Nat.digitChar b → a = b := by decide

theorem lowHexDigits_inj {k n m : Nat} (hn : n < 16 ^ k) (hm : m < 16 ^ k)
    (same : lowHexDigits k n = lowHexDigits k m) : n = m := by
  induction k generalizing n m with
  | zero =>
      rw [pow_zero] at hn hm
      omega
  | succ k ih =>
      rw [pow_succ] at hn hm
      obtain ⟨high, low⟩ := List.append_inj' same rfl
      have digits := digitChar_inj _ (Nat.mod_lt n (by decide)) _ (Nat.mod_lt m (by decide))
        (List.head_eq_of_cons_eq low)
      have rest := ih (by omega) (by omega) high
      omega

/-- An id ends in the hash of the name. -/
theorem nameHash_of_entityId {t : AlphanumericTable} {n m : String}
    (same : entityId t n = entityId t m) : nameHash n = nameHash m := by
  unfold entityId at same
  have ends : lowHexDigits 16 (nameHash n) = lowHexDigits 16 (nameHash m) := by
    have chars := congrArg String.toList same
    simp only [String.toList_append, hex16, String.toList_ofList] at chars
    exact (List.append_inj' chars (by simp only [length_lowHexDigits])).2
  exact lowHexDigits_inj (fnv1a64_lt _) (fnv1a64_lt _) ends

theorem mem_toEntityNodes {t : AlphanumericTable} {llm : List LlmEntity} {e : EntityNode}
    (mem : e ∈ toEntityNodes t llm) : e.id = entityId t e.name := by
  obtain ⟨answer, -, made⟩ := List.mem_filterMap.mp mem
  unfold toEntityNode at made
  dsimp only at made
  split_ifs at made
  split at made <;> cases made
  rfl

/-- Extracted entities have one id when they have one name, whatever their types. -/
theorem entityId_eq_iff {t : AlphanumericTable} {la lb : List LlmEntity} {a b : EntityNode}
    (ha : a ∈ toEntityNodes t la) (hb : b ∈ toEntityNodes t lb)
    (free : nameHash a.name = nameHash b.name → a.name = b.name) : a.id = b.id ↔ a.name = b.name := by
  rw [mem_toEntityNodes ha, mem_toEntityNodes hb]
  exact ⟨fun same => free (nameHash_of_entityId same), fun same => congrArg _ same⟩

/-! ### The entity table -/

theorem mem_insertEntity {rows : List EntityNode} {e row : EntityNode}
    (mem : row ∈ Db.insertEntity rows e) : row ∈ rows ∨ row = e := by
  unfold Db.insertEntity at mem
  split_ifs at mem
  · exact .inl mem
  · simpa using mem

/-- After an entity is put, its id has a row. -/
theorem insertEntity_id (rows : List EntityNode) (e : EntityNode) :
    ∃ row ∈ Db.insertEntity rows e, row.id = e.id := by
  unfold Db.insertEntity
  split_ifs with taken
  · simpa using taken
  · exact ⟨e, by simp, rfl⟩

theorem subset_insertEntity (rows : List EntityNode) (e : EntityNode) :
    rows ⊆ Db.insertEntity rows e := by
  unfold Db.insertEntity
  split_ifs
  · exact fun _ mem => mem
  · exact List.subset_append_left _ _

/-- What putting a list of entities leaves: rows of before or of the list, and a row for
every id. -/
theorem foldl_insertEntity (es rows : List EntityNode) :
    (∀ row ∈ es.foldl Db.insertEntity rows, row ∈ rows ∨ row ∈ es) ∧
      rows ⊆ es.foldl Db.insertEntity rows ∧
      ∀ e ∈ es, ∃ row ∈ es.foldl Db.insertEntity rows, row.id = e.id := by
  induction es generalizing rows with
  | nil => exact ⟨fun _ mem => .inl mem, fun _ mem => mem, fun _ mem => by simp at mem⟩
  | cons e rest ih =>
      obtain ⟨known, kept, found⟩ := ih (Db.insertEntity rows e)
      refine ⟨fun row mem => ?_, fun _ mem => kept (subset_insertEntity rows e mem), fun e' mem => ?_⟩
      · rcases known row mem with old | new
        · rcases mem_insertEntity old with old | rfl
          · exact .inl old
          · exact .inr List.mem_cons_self
        · exact .inr (List.mem_cons_of_mem _ new)
      · rcases List.mem_cons.mp mem with rfl | later
        · obtain ⟨row, here, id⟩ := insertEntity_id rows e'
          exact ⟨row, kept here, id⟩
        · exact found e' later

/-- The entities of a list of memories. -/
def entitiesOf {F : Type} (items : List (MemoryItem F)) : List EntityNode :=
  items.flatMap fun item => item.entities

theorem foldl_putMemory_entity {F : Type} (items : List (MemoryItem F)) (db : Db F) :
    (items.foldl Db.putMemory db).entity =
      (entitiesOf items).foldl Db.insertEntity db.entity := by
  induction items generalizing db with
  | nil => rfl
  | cons item rest ih =>
      rw [List.foldl_cons, entitiesOf, List.flatMap_cons, List.foldl_append, ih]
      rfl

/-! ### Identity as a proxy for name and type -/

variable {F : Type}

/-- Memories of extracted entities, put one after the other. Equal ids mean equal names and
types, memories that share an id share a name and a type, and every entity's type is in the
entity table, exactly when no two of the entities have one name and two types. -/
theorem entity_types_kept_iff {t : AlphanumericTable} {items : List (MemoryItem F)}
    (extracted : ∀ item ∈ items, ∃ llm, item.entities = toEntityNodes t llm)
    (free : ∀ e ∈ entitiesOf items, ∀ e' ∈ entitiesOf items,
      nameHash e.name = nameHash e'.name → e.name = e'.name) :
    ((∀ e ∈ entitiesOf items, ∀ e' ∈ entitiesOf items, e.id = e'.id →
        e.name = e'.name ∧ e.entityType = e'.entityType) ∧
      (∀ src ∈ items, ∀ tgt ∈ items, sharesEntity src tgt = true → ∃ e ∈ src.entities,
        ∃ e' ∈ tgt.entities, e'.name = e.name ∧ e'.entityType = e.entityType) ∧
      ∀ e ∈ entitiesOf items, ∃ row ∈ (items.foldl Db.putMemory Db.empty).entity,
        row.id = e.id ∧ row.entityType = e.entityType) ↔
      ∀ e ∈ entitiesOf items, ∀ e' ∈ entitiesOf items,
        e.name = e'.name → e.entityType = e'.entityType := by
  have ids : ∀ e ∈ entitiesOf items, ∀ e' ∈ entitiesOf items, e.id = e'.id ↔ e.name = e'.name := by
    intro e mem e' mem'
    obtain ⟨item, here, inItem⟩ := List.mem_flatMap.mp mem
    obtain ⟨item', here', inItem'⟩ := List.mem_flatMap.mp mem'
    obtain ⟨llm, made⟩ := extracted item here
    obtain ⟨llm', made'⟩ := extracted item' here'
    exact entityId_eq_iff (made ▸ inItem) (made' ▸ inItem') (free e mem e' mem')
  constructor
  · rintro ⟨determined, -, -⟩ e mem e' mem' names
    exact (determined e mem e' mem' ((ids e mem e' mem').mpr names)).2
  · intro typed
    have determined : ∀ e ∈ entitiesOf items, ∀ e' ∈ entitiesOf items, e.id = e'.id →
        e.name = e'.name ∧ e.entityType = e'.entityType := by
      intro e mem e' mem' same
      have names := (ids e mem e' mem').mp same
      exact ⟨names, typed e mem e' mem' names⟩
    refine ⟨determined, fun src hsrc tgt htgt shares => ?_, fun e mem => ?_⟩
    · unfold sharesEntity at shares
      simp only [List.any_eq_true, beq_iff_eq] at shares
      obtain ⟨e, inSrc, e', inTgt, same⟩ := shares
      exact ⟨e, inSrc, e', inTgt, determined e' (List.mem_flatMap.mpr ⟨tgt, htgt, inTgt⟩) e
        (List.mem_flatMap.mpr ⟨src, hsrc, inSrc⟩) same⟩
    · rw [foldl_putMemory_entity]
      obtain ⟨known, -, found⟩ := foldl_insertEntity (entitiesOf items) (Db.empty : Db F).entity
      obtain ⟨row, here, id⟩ := found e mem
      have one : row ∈ entitiesOf items := (known row here).resolve_left (by simp [Db.empty])
      exact ⟨row, here, id, (determined row one e mem id).2⟩

/-- A memory about Rust, the language. -/
def rustMemory (id entityType : String) : MemoryItem Fixed :=
  { MemoryItem.newTurnSkeleton id "ix" 0 "s" "" .semantic "c" 100 with
    entities := toEntityNodes .ofAscii [⟨"Rust", entityType, []⟩] }

/-- Two memories of one entity. -/
theorem entity_types_kept_rust :
    sharesEntity (rustMemory "m1" "Tech") (rustMemory "m2" "Tech") = true ∧
      ∀ e ∈ entitiesOf [rustMemory "m1" "Tech", rustMemory "m2" "Tech"],
        ∃ row ∈ ([rustMemory "m1" "Tech", rustMemory "m2" "Tech"].foldl Db.putMemory Db.empty).entity,
          row.id = e.id ∧ row.entityType = e.entityType := by
  have rust : ∀ e ∈ entitiesOf [rustMemory "m1" "Tech", rustMemory "m2" "Tech"],
      e.name = "Rust" ∧ e.entityType = .tech := by decide +kernel
  have extracted : ∀ item ∈ [rustMemory "m1" "Tech", rustMemory "m2" "Tech"],
      ∃ llm, item.entities = toEntityNodes .ofAscii llm := by
    intro item mem
    simp only [List.mem_cons, List.not_mem_nil, or_false] at mem
    rcases mem with rfl | rfl <;> exact ⟨[⟨"Rust", "Tech", []⟩], rfl⟩
  have kept := (entity_types_kept_iff extracted fun e mem e' mem' _ =>
    (rust e mem).1.trans (rust e' mem').1.symm).mpr fun e mem e' mem' _ =>
      (rust e mem).2.trans (rust e' mem').2.symm
  exact ⟨by decide +kernel, kept.2.2⟩

/-- Rust the language and Rust the concept have one id: the memories share an entity, and
the entity table keeps the first type only. -/
theorem one_id_two_types : ¬ ∀ (t : AlphanumericTable) (items : List (MemoryItem Fixed)),
      (∀ item ∈ items, ∃ llm, item.entities = toEntityNodes t llm) →
      (∀ e ∈ entitiesOf items, ∀ e' ∈ entitiesOf items,
        nameHash e.name = nameHash e'.name → e.name = e'.name) →
      (∀ e ∈ entitiesOf items, ∀ e' ∈ entitiesOf items, e.id = e'.id →
        e.name = e'.name ∧ e.entityType = e'.entityType) ∧
        (∀ src ∈ items, ∀ tgt ∈ items, sharesEntity src tgt = true → ∃ e ∈ src.entities,
          ∃ e' ∈ tgt.entities, e'.name = e.name ∧ e'.entityType = e.entityType) ∧
        ∀ e ∈ entitiesOf items, ∃ row ∈ (items.foldl Db.putMemory Db.empty).entity,
          row.id = e.id ∧ row.entityType = e.entityType := by
  intro always
  have extracted : ∀ item ∈ [rustMemory "m1" "Tech", rustMemory "m2" "Concept"],
      ∃ llm, item.entities = toEntityNodes .ofAscii llm := by
    intro item mem
    simp only [List.mem_cons, List.not_mem_nil, or_false] at mem
    rcases mem with rfl | rfl
    · exact ⟨[⟨"Rust", "Tech", []⟩], rfl⟩
    · exact ⟨[⟨"Rust", "Concept", []⟩], rfl⟩
  have rust : ∀ e ∈ entitiesOf [rustMemory "m1" "Tech", rustMemory "m2" "Concept"],
      e.name = "Rust" := by decide +kernel
  have kept := (always .ofAscii _ extracted fun e mem e' mem' _ =>
    (rust e mem).trans (rust e' mem').symm).2.2
  exact absurd kept (by decide +kernel)

end FusionMemory
