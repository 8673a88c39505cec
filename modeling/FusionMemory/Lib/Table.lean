import Mathlib.Data.List.Nodup
import Mathlib.Data.List.Sort

/-!
Tables with a primary key.

A table is the list of its rows in the order they were written, and carries the
proof that no two rows share a key. `upsert` replaces the row of a key (the new
row goes last), `update` rewrites rows without touching keys, and `delete` drops
rows. What a later lookup sees is stated through `find?`.
-/

namespace Lib

/-- Rows of type `R`, at most one for each key. -/
structure Table (K R : Type) (key : R → K) where
  rows : List R
  nodup : (rows.map key).Nodup

namespace Table

variable {K R : Type} {key : R → K}

@[ext] theorem ext {t t' : Table K R key} (h : t.rows = t'.rows) : t = t' := by
  cases t
  cases t'
  cases h
  rfl

def empty : Table K R key := ⟨[], List.nodup_nil⟩

/-- Keep the rows that do not satisfy `p`. -/
def delete (t : Table K R key) (p : R → Bool) : Table K R key where
  rows := t.rows.filter fun r => !p r
  nodup := t.nodup.sublist (List.filter_sublist.map key)

/-- Rewrite the rows that satisfy `p` with a change `f` that keeps keys. -/
def update (t : Table K R key) (p : R → Bool) (f : R → R) (keeps : ∀ r, key (f r) = key r) :
    Table K R key where
  rows := t.rows.map fun r => if p r then f r else r
  nodup := by
    have same : (t.rows.map fun r => if p r then f r else r).map key = t.rows.map key := by
      rw [List.map_map]
      refine List.map_congr_left fun r _ => ?_
      by_cases h : p r <;> simp [h, keeps]
    rw [same]
    exact t.nodup

/-- Every row in another form, under its key. -/
def mapRows {R' : Type} {key' : R' → K} (t : Table K R key) (f : R → R')
    (keeps : ∀ r, key' (f r) = key r) : Table K R' key' where
  rows := t.rows.map f
  nodup := by
    have same : (t.rows.map f).map key' = t.rows.map key := by
      rw [List.map_map]
      exact List.map_congr_left fun r _ => keeps r
    rw [same]
    exact t.nodup

theorem mem_delete {t : Table K R key} {p : R → Bool} {r : R} :
    r ∈ (t.delete p).rows ↔ r ∈ t.rows ∧ p r = false := by
  simp [delete]

variable [DecidableEq K]

/-- The row of a key. -/
def find? (t : Table K R key) (k : K) : Option R := t.rows.find? fun r => key r = k

/-- Write a row: the row of the same key, if any, goes, and the new row comes last. -/
def upsert (t : Table K R key) (r : R) : Table K R key where
  rows := (t.rows.filter fun r' => !decide (key r' = key r)) ++ [r]
  nodup := by
    rw [List.map_append, List.nodup_append]
    refine ⟨t.nodup.sublist (List.filter_sublist.map key), List.nodup_singleton _, ?_⟩
    intro a ha b hb
    obtain ⟨r', hr', rfl⟩ := List.mem_map.mp ha
    have hne := (List.mem_filter.mp hr').2
    simp only [List.map_cons, List.map_nil, List.mem_singleton] at hb
    subst hb
    simpa using hne

/-! ### Lookups -/

theorem find?_key {t : Table K R key} {k : K} {r : R} (h : t.find? k = some r) : key r = k := by
  simpa using List.find?_some h

theorem find?_mem {t : Table K R key} {k : K} {r : R} (h : t.find? k = some r) : r ∈ t.rows :=
  List.mem_of_find?_eq_some h

/-- A row of the table is the row its key looks up. -/
theorem find?_of_mem {t : Table K R key} {r : R} (h : r ∈ t.rows) : t.find? (key r) = some r := by
  obtain ⟨rows, nodup⟩ := t
  unfold find?
  dsimp only at h ⊢
  induction rows with
  | nil => cases h
  | cons r' rest ih =>
      rw [List.map_cons, List.nodup_cons] at nodup
      rcases List.mem_cons.mp h with rfl | hrest
      · simp
      · have hne : key r' ≠ key r := fun heq => nodup.1 (heq ▸ List.mem_map_of_mem hrest)
        rw [List.find?_cons_of_neg (by simpa using hne)]
        exact ih nodup.2 hrest

theorem find?_eq_some_iff {t : Table K R key} {k : K} {r : R} :
    t.find? k = some r ↔ r ∈ t.rows ∧ key r = k :=
  ⟨fun h => ⟨find?_mem h, find?_key h⟩, fun h => h.2 ▸ find?_of_mem h.1⟩

theorem find?_eq_none_iff {t : Table K R key} {k : K} :
    t.find? k = none ↔ ∀ r ∈ t.rows, key r ≠ k := by
  simp [find?, List.find?_eq_none]

/-- Two rows of one table with one key are one row. -/
theorem eq_of_key_eq {t : Table K R key} {r r' : R} (h : r ∈ t.rows) (h' : r' ∈ t.rows)
    (same : key r = key r') : r = r' := by
  have e := find?_of_mem h
  rw [same, find?_of_mem h'] at e
  exact (Option.some.inj e).symm

@[simp] theorem find?_empty (k : K) : (empty : Table K R key).find? k = none := rfl

@[simp] theorem find?_upsert (t : Table K R key) (r : R) (k : K) :
    (t.upsert r).find? k = if key r = k then some r else t.find? k := by
  by_cases hk : key r = k
  · subst hk
    rw [if_pos rfl]
    exact find?_of_mem (by simp [upsert])
  · rw [if_neg hk]
    unfold find? upsert
    rw [List.find?_append, List.find?_filter]
    have same : (fun r' => decide ((!decide (key r' = key r)) = true ∧ decide (key r' = k) = true)) =
        fun r' => decide (key r' = k) := by
      funext r'
      by_cases h : key r' = k <;> simp [h, Ne.symm hk]
    rw [same]
    simp [hk]

/-- Write a row unless its key is taken. -/
def insertIgnore (t : Table K R key) (r : R) : Table K R key :=
  if (t.find? (key r)).isSome then t else t.upsert r

/-- The row of a key stays, and the key of the new row has one. -/
theorem find?_insertIgnore (t : Table K R key) (r : R) (k : K) :
    (t.insertIgnore r).find? k = (t.find? k).or (if key r = k then some r else none) := by
  unfold insertIgnore
  split_ifs with taken same same
  · subst same
    obtain ⟨r', found⟩ := Option.isSome_iff_exists.mp taken
    rw [found, Option.some_or]
  · rw [Option.or_none]
  · subst same
    rw [find?_upsert, if_pos rfl, Option.not_isSome_iff_eq_none.mp taken, Option.none_or]
  · rw [find?_upsert, if_neg same, Option.or_none]

theorem mem_upsert {t : Table K R key} {r r' : R} :
    r' ∈ (t.upsert r).rows ↔ r' = r ∨ r' ∈ t.rows ∧ key r' ≠ key r := by
  simp only [upsert, List.mem_append, List.mem_filter, List.mem_singleton, Bool.not_eq_true',
    decide_eq_false_iff_not]
  tauto

@[simp] theorem find?_update (t : Table K R key) (p : R → Bool) (f : R → R)
    (keeps : ∀ r, key (f r) = key r) (k : K) :
    (t.update p f keeps).find? k = (t.find? k).map fun r => if p r then f r else r := by
  unfold find? update
  rw [List.find?_map]
  have same : ((fun r => decide (key r = k)) ∘ fun r => if p r then f r else r) =
      fun r => decide (key r = k) := by
    funext r
    by_cases h : p r <;> simp [h, keeps]
  rw [same]

@[simp] theorem find?_delete (t : Table K R key) (p : R → Bool) (k : K) :
    (t.delete p).find? k = (t.find? k).filter fun r => !p r := by
  cases h : t.find? k with
  | none =>
      rw [Option.filter_none]
      rw [find?_eq_none_iff] at h ⊢
      exact fun r hr => h r (List.mem_filter.mp hr).1
  | some r =>
      obtain ⟨hr, rfl⟩ := find?_eq_some_iff.mp h
      cases hp : p r with
      | false =>
          have keep : r ∈ (t.delete p).rows := List.mem_filter.mpr ⟨hr, by simp [hp]⟩
          simpa [Option.filter, hp] using find?_of_mem keep
      | true =>
          simp only [Option.filter_some, hp, Bool.not_true, Bool.false_eq_true, if_false]
          rw [find?_eq_none_iff]
          intro r' hr' same
          obtain ⟨mem, notp⟩ := List.mem_filter.mp hr'
          rw [eq_of_key_eq mem hr same, hp] at notp
          exact absurd notp (by simp)

@[simp] theorem find?_mapRows {R' : Type} {key' : R' → K} (t : Table K R key) (f : R → R')
    (keeps : ∀ r, key' (f r) = key r) (k : K) :
    (t.mapRows f keeps).find? k = (t.find? k).map f := by
  unfold find? mapRows
  rw [List.find?_map]
  have same : (fun r' => decide (key' r' = k)) ∘ f = fun r => decide (key r = k) := by
    funext r
    simp [keeps]
  rw [same]

theorem mapRows_upsert {R' : Type} {key' : R' → K} (t : Table K R key) (f : R → R')
    (keeps : ∀ r, key' (f r) = key r) (r : R) :
    (t.upsert r).mapRows f keeps = (t.mapRows f keeps).upsert (f r) := by
  apply Table.ext
  unfold mapRows upsert
  dsimp only
  rw [List.map_append, List.filter_map]
  congr 2
  refine List.filter_congr fun r' _ => ?_
  simp [keeps]

omit [DecidableEq K] in
theorem mapRows_delete {R' : Type} {key' : R' → K} (t : Table K R key) (f : R → R')
    (keeps : ∀ r, key' (f r) = key r) {p : R → Bool} {p' : R' → Bool} (same : ∀ r, p' (f r) = p r) :
    (t.delete p).mapRows f keeps = (t.mapRows f keeps).delete p' := by
  apply Table.ext
  unfold mapRows delete
  dsimp only
  rw [List.filter_map]
  refine congrArg _ (List.filter_congr fun r _ => ?_)
  rw [Function.comp_apply, same]

omit [DecidableEq K] in
theorem mapRows_update {R' : Type} {key' : R' → K} (t : Table K R key) (f : R → R')
    (keeps : ∀ r, key' (f r) = key r) {p : R → Bool} {p' : R' → Bool} (same : ∀ r, p' (f r) = p r)
    {g : R → R} {g' : R' → R'} (rewrites : ∀ r, f (g r) = g' (f r))
    (keepsG : ∀ r, key (g r) = key r) (keepsG' : ∀ r, key' (g' r) = key' r) :
    (t.update p g keepsG).mapRows f keeps = (t.mapRows f keeps).update p' g' keepsG' := by
  apply Table.ext
  unfold mapRows update
  dsimp only
  rw [List.map_map, List.map_map]
  refine List.map_congr_left fun r _ => ?_
  rw [Function.comp_apply, Function.comp_apply, same]
  split_ifs
  · exact rewrites r
  · rfl

omit [DecidableEq K] in
/-- Deleting a row leaves one row less of those that have what it has. -/
theorem length_filter_delete {t : Table K R key} {r : R} (mem : r ∈ t.rows) {del : R → Bool}
    (only : ∀ r', del r' = true ↔ key r' = key r) (p : R → Bool) :
    (t.rows.filter p).length = ((t.delete del).rows.filter p).length + if p r then 1 else 0 := by
  obtain ⟨before, after, split⟩ := List.append_of_mem mem
  have nodup := t.nodup
  rw [split, List.map_append, List.map_cons, List.nodup_append, List.nodup_cons] at nodup
  have apart : ∀ r', r' ∈ before ∨ r' ∈ after → del r' = false := by
    intro r' other
    rw [Bool.eq_false_iff, Ne, only]
    intro same
    rcases other with first | last
    · exact nodup.2.2 _ (List.mem_map_of_mem first) _ List.mem_cons_self same
    · exact nodup.2.1.1 (same ▸ List.mem_map_of_mem last)
  have kept : ∀ rows : List R, (∀ r' ∈ rows, del r' = false) →
      rows.filter (fun r' => !del r') = rows := by
    intro rows none
    rw [List.filter_eq_self]
    intro r' mem'
    rw [none r' mem']
    rfl
  have rest : (t.delete del).rows = before ++ after := by
    unfold delete
    dsimp only
    rw [split, List.filter_append, List.filter_cons_of_neg (by simp [(only r).mpr rfl]),
      kept before fun r' first => apart r' (.inl first),
      kept after fun r' last => apart r' (.inr last)]
  rw [rest, split, List.filter_append, List.filter_append, List.length_append, List.length_append,
    List.filter_cons]
  split_ifs
  · rw [List.length_cons, Nat.add_assoc]
  · rfl

/-! ### Rows that can be read -/

section Read

variable {K' R' : Type} {key' : R' → K'} {f : R → Option R'}

/-- Reading rows tells the keys apart that the rows have. -/
def Reads (key : R → K) (key' : R' → K') (f : R → Option R') : Prop :=
  ∀ r r' x x', f r = some x → f r' = some x' → (key' x = key' x' ↔ key r = key r')

omit [DecidableEq K] in
/-- What the rows read as, where they can be read. -/
def readRows (t : Table K R key) (f : R → Option R') (reads : Reads key key' f) :
    Table K' R' key' where
  rows := t.rows.filterMap f
  nodup := by
    have rows := List.pairwise_map.mp t.nodup
    refine List.pairwise_map.mpr (List.pairwise_filterMap.mpr (rows.imp ?_))
    exact fun ne x read x' read' same => ne ((reads _ _ x x' read read').mp same)

omit [DecidableEq K] in
theorem find?_readRows [DecidableEq K'] (t : Table K R key) (reads : Reads key key' f) {k : K'} {x : R'} :
    (t.readRows f reads).find? k = some x ↔ ∃ r ∈ t.rows, f r = some x ∧ key' x = k := by
  rw [find?_eq_some_iff]
  change x ∈ t.rows.filterMap f ∧ _ ↔ _
  rw [List.mem_filterMap]
  exact ⟨fun ⟨⟨r, mem, read⟩, same⟩ => ⟨r, mem, read, same⟩,
    fun ⟨r, mem, read, same⟩ => ⟨⟨r, mem, read⟩, same⟩⟩

omit [DecidableEq K] in
theorem filterMap_filter_of_reads {p : R → Bool} {q : R' → Bool}
    (same : ∀ r x, f r = some x → p r = q x) (rows : List R) :
    (rows.filter p).filterMap f = (rows.filterMap f).filter q := by
  rw [List.filterMap_filter, List.filter_filterMap]
  refine List.filterMap_congr fun r _ => ?_
  cases read : f r with
  | none => simp
  | some x => rw [same r x read, Option.filter_some]

omit [DecidableEq K] in
theorem readRows_delete (t : Table K R key) (reads : Reads key key' f) {p : R → Bool} {q : R' → Bool}
    (same : ∀ r x, f r = some x → p r = q x) :
    (t.delete p).readRows f reads = (t.readRows f reads).delete q := by
  apply Table.ext
  exact filterMap_filter_of_reads (fun r x read => congrArg (!·) (same r x read)) t.rows

theorem readRows_upsert [DecidableEq K'] (t : Table K R key) (reads : Reads key key' f) {r : R} {x : R'}
    (read : f r = some x) : (t.upsert r).readRows f reads = (t.readRows f reads).upsert x := by
  apply Table.ext
  change ((t.rows.filter fun r' => !decide (key r' = key r)) ++ [r]).filterMap f =
    ((t.rows.filterMap f).filter fun x' => !decide (key' x' = key' x)) ++ [x]
  rw [List.filterMap_append, filterMap_filter_of_reads
    (q := fun x' => !decide (key' x' = key' x)) fun r' x' read' => ?_]
  · rw [List.filterMap_cons_some read, List.filterMap_nil]
  · rw [decide_eq_decide.mpr (reads r' r x' x read' read)]

end Read

end Table

end Lib
