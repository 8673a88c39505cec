import FusionMemory.Lib.Table
import FusionMemory.Lib.Trace
import Mathlib.Data.List.MinMax

/-!
The cache of query embeddings (`fm-embed/src/cache.rs`).

A map under a mutex, which nothing poisons, with two time stamps in each entry. `get` drops the
entry of its key once it is older than the time to live, and else marks it as used; `put` makes
room for a new key by dropping the entry that was used longest ago, wherever the iteration over
the map finds it.

`cache_serves` compares the map with the history of calls, in which there are no entries and no
stamps: what a lookup returns, how full the cache gets, and which key has to go.
-/

namespace FusionMemory

open Lib

/-- An entry; instants are nanoseconds of a monotonic clock. -/
structure CacheEntry (F : Type) where
  vec : List F
  born : Nat
  lastUsed : Nat
deriving Repr

structure LruCache (F : Type) where
  inner : Table UInt64 (UInt64 × CacheEntry F) Prod.fst
  capacity : Nat
  ttl : Nat

/-- In which order a `HashMap` is iterated over at an instant. -/
abbrev MapOrder (F : Type) : Type :=
  Nat → (rows : List (UInt64 × CacheEntry F)) →
    {rows' : List (UInt64 × CacheEntry F) // rows'.Perm rows}

namespace LruCache

variable {F : Type}

def new (capacity ttlSecs : Nat) : LruCache F where
  inner := .empty
  capacity := max capacity 1
  ttl := ttlSecs * 1000000000

def len (cache : LruCache F) : Nat := cache.inner.rows.length

/-- The entry of a key. -/
def lookup (cache : LruCache F) (key : UInt64) : Option (CacheEntry F) :=
  (cache.inner.find? key).map Prod.snd

/-- `map.remove`. -/
def remove (cache : LruCache F) (key : UInt64) : LruCache F :=
  { cache with inner := cache.inner.delete fun r => r.1 == key }

/-- `map.insert`. -/
def insert (cache : LruCache F) (key : UInt64) (entry : CacheEntry F) : LruCache F :=
  { cache with inner := cache.inner.upsert (key, entry) }

theorem touched_key (now : Nat) (r : UInt64 × CacheEntry F) :
    (r.1, { r.2 with lastUsed := now }).1 = r.1 := rfl

/-- `entry.last_used = now`. -/
def touch (cache : LruCache F) (key : UInt64) (now : Nat) : LruCache F :=
  { cache with
    inner := cache.inner.update (fun r => r.1 == key) (fun r => (r.1, { r.2 with lastUsed := now }))
      (touched_key now) }

/-- A hit marks the entry as used. -/
def get (now : Nat) (key : UInt64) (cache : LruCache F) : Option (List F) × LruCache F :=
  match cache.lookup key with
  | none => (none, cache)
  | some entry =>
      if now - entry.born > cache.ttl then (none, cache.remove key)
      else (some entry.vec, cache.touch key now)

/-- The key that a new key displaces: the least `last_used`, the first in the iteration. -/
def evictKey (order : MapOrder F) (now : Nat) (key : UInt64) (cache : LruCache F) : Option UInt64 :=
  if cache.len ≥ cache.capacity && (cache.lookup key).isNone then
    (List.argmin (fun r : UInt64 × CacheEntry F => r.2.lastUsed) (order now cache.inner.rows).1).map
      Prod.fst
  else none

def put (order : MapOrder F) (now : Nat) (key : UInt64) (vec : List F) (cache : LruCache F) :
    LruCache F :=
  let cache := match cache.evictKey order now key with
    | some evictKey => cache.remove evictKey
    | none => cache
  cache.insert key ⟨vec, now, now⟩

/-! ### What is in the map -/

theorem lookup_remove (cache : LruCache F) (key k : UInt64) :
    (cache.remove key).lookup k = if k = key then none else cache.lookup k := by
  unfold lookup remove
  rw [Table.find?_delete]
  cases found : cache.inner.find? k with
  | none =>
      rw [Option.filter_none]
      split_ifs
      · rfl
      · rfl
  | some r =>
      rw [← Table.find?_key found, Option.filter_some]
      by_cases same : r.1 = key
      · simp [same]
      · rw [if_pos (by simpa using same), if_neg same]

theorem lookup_insert (cache : LruCache F) (key k : UInt64) (entry : CacheEntry F) :
    (cache.insert key entry).lookup k = if k = key then some entry else cache.lookup k := by
  unfold lookup insert
  rw [Table.find?_upsert]
  split_ifs with same same' same'
  · rfl
  · exact absurd same.symm same'
  · exact absurd same'.symm same
  · rfl

theorem lookup_touch (cache : LruCache F) (key k : UInt64) (now : Nat) :
    (cache.touch key now).lookup k = if k = key then
      (cache.lookup k).map fun entry => { entry with lastUsed := now } else cache.lookup k := by
  unfold lookup touch
  rw [Table.find?_update]
  cases found : cache.inner.find? k with
  | none =>
      split_ifs
      · rfl
      · rfl
  | some r =>
      rw [← Table.find?_key found]
      by_cases same : r.1 = key
      · simp [same]
      · simp [same]

theorem mem_rows_iff {cache : LruCache F} {key : UInt64} {entry : CacheEntry F} :
    (key, entry) ∈ cache.inner.rows ↔ cache.lookup key = some entry := by
  unfold lookup
  rw [Option.map_eq_some_iff]
  constructor
  · intro mem
    exact ⟨_, Table.find?_of_mem mem, rfl⟩
  · rintro ⟨⟨key', entry'⟩, found, rfl⟩
    obtain ⟨mem, rfl⟩ := Table.find?_eq_some_iff.mp found
    exact mem

theorem len_remove_le (cache : LruCache F) (key : UInt64) : (cache.remove key).len ≤ cache.len :=
  List.length_filter_le _ _

theorem len_remove {cache : LruCache F} {key : UInt64} {entry : CacheEntry F}
    (found : cache.lookup key = some entry) : (cache.remove key).len + 1 = cache.len := by
  have only : ∀ r : UInt64 × CacheEntry F, (r.1 == key) = true ↔ r.1 = key := fun _ => beq_iff_eq
  have length := Table.length_filter_delete (mem_rows_iff.mpr found) only fun _ => true
  rw [List.filter_true, List.filter_true] at length
  exact length.symm

theorem len_touch (cache : LruCache F) (key : UInt64) (now : Nat) :
    (cache.touch key now).len = cache.len :=
  List.length_map _

theorem len_insert_le (cache : LruCache F) (key : UInt64) (entry : CacheEntry F) :
    (cache.insert key entry).len ≤ cache.len + 1 := by
  unfold len insert Table.upsert
  dsimp only
  rw [List.length_append]
  exact Nat.add_le_add_right (List.length_filter_le _ _) 1

theorem len_insert {cache : LruCache F} {key : UInt64} {old : CacheEntry F}
    (found : cache.lookup key = some old) (entry : CacheEntry F) :
    (cache.insert key entry).len = cache.len := by
  rw [← len_remove found]
  unfold len insert remove Table.upsert Table.delete
  dsimp only
  rw [List.length_append]
  rfl

/-! ### What a lookup and an eviction find -/

/-- A lookup misses, finds an entry that is too old, or hits. -/
theorem get_cases (cache : LruCache F) (now : Nat) (key : UInt64) :
    (cache.lookup key = none ∧ cache.get now key = (none, cache)) ∨
    ∃ entry, cache.lookup key = some entry ∧
      (cache.ttl < now - entry.born ∧ cache.get now key = (none, cache.remove key) ∨
        now - entry.born ≤ cache.ttl ∧ cache.get now key = (some entry.vec, cache.touch key now)) := by
  unfold get
  cases found : cache.lookup key with
  | none => exact .inl ⟨rfl, rfl⟩
  | some entry =>
      refine .inr ⟨entry, rfl, ?_⟩
      dsimp only
      split_ifs with expired
      · exact .inl ⟨expired, rfl⟩
      · exact .inr ⟨Nat.not_lt.mp expired, rfl⟩

/-- What is evicted makes room for a new key, and was used no later than the rest. -/
structure Displaces (cache : LruCache F) (key evicted : UInt64) (entry : CacheEntry F) : Prop where
  new : cache.lookup key = none
  full : cache.capacity ≤ cache.len
  found : cache.lookup evicted = some entry
  least : ∀ k other, cache.lookup k = some other → entry.lastUsed ≤ other.lastUsed

theorem displaces_of_evictKey {cache : LruCache F} {order : MapOrder F} {now : Nat}
    {key evicted : UInt64} (evicts : cache.evictKey order now key = some evicted) :
    ∃ entry, cache.Displaces key evicted entry := by
  unfold evictKey at evicts
  split_ifs at evicts with room
  obtain ⟨full, new⟩ := Bool.and_eq_true_iff.mp room
  obtain ⟨⟨k, entry⟩, least, rfl⟩ := Option.map_eq_some_iff.mp evicts
  have perm := (order now cache.inner.rows).2
  refine ⟨entry, Option.isNone_iff_eq_none.mp new, of_decide_eq_true full,
    mem_rows_iff.mp (perm.mem_iff.mp (List.argmin_mem least)), fun k' other found => ?_⟩
  exact List.le_of_mem_argmin (f := fun r : UInt64 × CacheEntry F => r.2.lastUsed)
    (perm.mem_iff.mpr (mem_rows_iff.mpr found)) least

/-- Where nothing is evicted there is room, or the key has an entry. -/
theorem room_of_evictKey {cache : LruCache F} {order : MapOrder F} {now : Nat} {key : UInt64}
    (positive : 0 < cache.capacity) (evicts : cache.evictKey order now key = none) :
    cache.len < cache.capacity ∨ ∃ entry, cache.lookup key = some entry := by
  unfold evictKey at evicts
  split_ifs at evicts with room
  · have perm := (order now cache.inner.rows).2
    rw [Option.map_eq_none_iff, List.argmin_eq_none] at evicts
    rw [evicts] at perm
    have empty : cache.len = 0 := by
      unfold len
      rw [← perm.length_eq]
      rfl
    exact .inl (empty ▸ positive)
  · rw [Bool.and_eq_true_iff, not_and_or] at room
    rcases room with notFull | taken
    · exact .inl (Nat.not_le.mp fun full => notFull (decide_eq_true full))
    · exact .inr (Option.ne_none_iff_exists'.mp fun missing => taken (by rw [missing]; rfl))

theorem lookup_put (order : MapOrder F) (now : Nat) (key k : UInt64) (vec : List F)
    (cache : LruCache F) : (cache.put order now key vec).lookup k =
      if k = key then some ⟨vec, now, now⟩
      else if cache.evictKey order now key = some k then none else cache.lookup k := by
  unfold put
  dsimp only
  rw [lookup_insert]
  split_ifs with same evicted
  · rfl
  · rw [evicted]
    dsimp only
    rw [lookup_remove, if_pos rfl]
  · cases evicts : cache.evictKey order now key with
    | none => rfl
    | some e =>
        dsimp only
        rw [lookup_remove, if_neg]
        rintro rfl
        exact evicted evicts

theorem len_put_le (order : MapOrder F) (now : Nat) (key : UInt64) (vec : List F) {cache : LruCache F}
    (positive : 0 < cache.capacity) (full : cache.len ≤ cache.capacity) :
    (cache.put order now key vec).len ≤ cache.capacity := by
  unfold put
  cases evicts : cache.evictKey order now key with
  | some evicted =>
      obtain ⟨entry, displaces⟩ := displaces_of_evictKey evicts
      have less := len_remove displaces.found
      exact (len_insert_le _ key _).trans (less ▸ full)
  | none =>
      dsimp only
      rcases room_of_evictKey positive evicts with room | ⟨old, found⟩
      · exact (len_insert_le cache key _).trans room
      · rw [len_insert found]
        exact full

end LruCache

/-! ### The history of calls -/

inductive CacheCall (F : Type) where
  | get (key : UInt64)
  | put (key : UInt64) (vec : List F)

/-- A call with what it has answered and done. -/
inductive CacheEvent (F : Type) where
  | get (time : Nat) (key : UInt64) (reply : Option (List F))
  | put (time : Nat) (key : UInt64) (vec : List F) (evicted : Option UInt64)

namespace CacheEvent

variable {F : Type}

def time : CacheEvent F → Nat
  | .get time _ _ => time
  | .put time _ _ _ => time

/-- A `put` of the key, or a `get` that has found it. -/
def Uses (key : UInt64) : CacheEvent F → Prop
  | .get _ k reply => k = key ∧ reply ≠ none
  | .put _ k _ _ => k = key

/-- The key has another vector from now on, or none. -/
def Ends (key : UInt64) : CacheEvent F → Prop
  | .get _ _ _ => False
  | .put _ k _ evicted => k = key ∨ evicted = some key

end CacheEvent

section History

variable {F : Type}

/-- The last `put` of the key was of `vec`, at the instant `born`, and the key was not evicted
since. -/
def LastPut (key : UInt64) (born : Nat) (vec : List F) : List (CacheEvent F) → Prop :=
  Since (fun e => ∃ evicted, e = .put born key vec evicted) (CacheEvent.Ends key)

/-- The last `put` or successful `get` of the key was at the instant `time`. -/
def LastUse (key : UInt64) (time : Nat) : List (CacheEvent F) → Prop :=
  Since (fun e => e.Uses key ∧ e.time = time) (CacheEvent.Uses key)

/-- Calls of one cache, one after the other. -/
def cacheSystem (order : MapOrder F) : StepSystem (LruCache F) (Nat × CacheCall F) (CacheEvent F) where
  step
    | cache, (now, .get key) =>
        some ((cache.get now key).2, [.get now key (cache.get now key).1])
    | cache, (now, .put key vec) =>
        some (cache.put order now key vec, [.put now key vec (cache.evictKey order now key)])

/-- The clock has moved on since all calls of the history. -/
def Later (history : List (CacheEvent F)) (now : Nat) : Prop := ∀ e ∈ history, e.time < now

/-- The clock is strictly increasing. -/
def Clocked (_ : LruCache F) (history : List (CacheEvent F)) (call : Nat × CacheCall F) : Prop :=
  Later history call.1

/-! ### The map follows the history -/

/-- The map after a history of calls. -/
structure Tracks (capacity ttl : Nat) (history : List (CacheEvent F)) (cache : LruCache F) : Prop where
  capacity_eq : cache.capacity = capacity
  ttl_eq : cache.ttl = ttl
  full : cache.len ≤ capacity
  /-- An entry is of the last `put` of its key. -/
  entry : ∀ {key entry}, cache.lookup key = some entry → LastPut key entry.born entry.vec history
  /-- The last `put` of a key has its entry, unless the key was evicted or the entry got too old. -/
  present : ∀ {key born vec}, LastPut key born vec history →
    (∃ lastUsed, cache.lookup key = some ⟨vec, born, lastUsed⟩) ∨ ∃ e ∈ history, ttl < e.time - born
  used : ∀ {key entry}, cache.lookup key = some entry → LastUse key entry.lastUsed history
  distinct : ∀ {key key' entry entry'}, cache.lookup key = some entry →
    cache.lookup key' = some entry' → entry.lastUsed = entry'.lastUsed → key = key'

theorem LastUse.lt {key : UInt64} {time now : Nat} {history : List (CacheEvent F)}
    (use : LastUse key time history) (later : Later history now) : time < now := by
  obtain ⟨e, mem, -, rfl⟩ := use.exists_mem
  exact later e mem

variable {capacity ttl now : Nat} {history : List (CacheEvent F)} {cache : LruCache F}

theorem tracks_new (capacity ttlSecs : Nat) :
    Tracks (max capacity 1) (ttlSecs * 1000000000) []
      (LruCache.new capacity ttlSecs : LruCache F) where
  capacity_eq := rfl
  ttl_eq := rfl
  full := Nat.zero_le _
  entry found := by cases found
  present put := absurd put not_since_nil
  used found := by cases found
  distinct found := by cases found

/-- A lookup puts and evicts nothing. -/
theorem lastPut_get {k key : UInt64} {born : Nat} {vec : List F} {reply : Option (List F)} :
    LastPut k born vec (history ++ [.get now key reply]) ↔ LastPut k born vec history := by
  unfold LastPut
  rw [since_concat]
  constructor
  · rintro (⟨evicted, other⟩ | ⟨since, -⟩)
    · cases other
    · exact since
  · exact fun since => .inr ⟨since, id⟩

theorem lastUse_other {k : UInt64} {time : Nat} {e : CacheEvent F} (other : ¬ e.Uses k)
    (use : LastUse k time history) : LastUse k time (history ++ [e]) :=
  since_concat.mpr (.inr ⟨use, other⟩)

/-- No two entries have one stamp, once that of `key` is the present instant. -/
theorem Tracks.distinct_after {cache' : LruCache F} (tracks : Tracks capacity ttl history cache)
    (later : Later history now) (key : UInt64) (after : ∀ {k e}, cache'.lookup k = some e →
      k = key ∧ e.lastUsed = now ∨ cache.lookup k = some e)
    {k k' : UInt64} {e e' : CacheEntry F} (found : cache'.lookup k = some e)
    (found' : cache'.lookup k' = some e') (same : e.lastUsed = e'.lastUsed) : k = k' := by
  rcases after found with ⟨rfl, stamp⟩ | there
  · rcases after found' with ⟨rfl, -⟩ | there'
    · rfl
    · have before := (tracks.used there').lt later
      exact absurd (stamp.symm.trans same).symm (Nat.ne_of_lt before)
  · rcases after found' with ⟨rfl, stamp⟩ | there'
    · have before := (tracks.used there).lt later
      exact absurd (same.trans stamp) (Nat.ne_of_lt before)
    · exact tracks.distinct there there' same

theorem Tracks.get (tracks : Tracks capacity ttl history cache) (later : Later history now)
    (key : UInt64) : Tracks capacity ttl (history ++ [.get now key (cache.get now key).1])
      (cache.get now key).2 := by
  have old : ∀ {e : CacheEvent F} {born : Nat}, (∃ e ∈ history, ttl < e.time - born) →
      ∃ e' ∈ history ++ [e], ttl < e'.time - born :=
    fun ⟨e, mem, stale⟩ => ⟨e, List.mem_append_left _ mem, stale⟩
  have unused : ∀ k, ¬ (CacheEvent.get now key none : CacheEvent F).Uses k := fun k uses => uses.2 rfl
  rcases cache.get_cases now key with ⟨missing, get⟩ | ⟨entry, found, ⟨expired, get⟩ | ⟨fresh, get⟩⟩
  · rw [get]
    exact ⟨tracks.capacity_eq, tracks.ttl_eq, tracks.full,
      fun found => lastPut_get.mpr (tracks.entry found),
      fun put => (tracks.present (lastPut_get.mp put)).imp id old,
      fun found => lastUse_other (unused _) (tracks.used found), tracks.distinct⟩
  · rw [get]
    have kept : ∀ {k e}, (cache.remove key).lookup k = some e → cache.lookup k = some e := by
      intro k e found'
      rw [LruCache.lookup_remove] at found'
      split_ifs at found'
      exact found'
    refine ⟨tracks.capacity_eq, tracks.ttl_eq, (cache.len_remove_le key).trans tracks.full,
      fun found' => lastPut_get.mpr (tracks.entry (kept found')), fun {k born vec} put => ?_,
      fun found' => lastUse_other (unused _) (tracks.used (kept found')),
      fun found' found'' => tracks.distinct (kept found') (kept found'')⟩
    rcases tracks.present (lastPut_get.mp put) with ⟨lastUsed, there⟩ | stale
    · by_cases same : k = key
      · -- The entry was too old, so it stays too old.
        subst same
        cases found.symm.trans there
        exact .inr ⟨_, List.mem_append_right _ List.mem_cons_self, tracks.ttl_eq ▸ expired⟩
      · refine .inl ⟨lastUsed, ?_⟩
        rw [LruCache.lookup_remove, if_neg same]
        exact there
    · exact .inr (old stale)
  · rw [get]
    have touched : ∀ {k e}, (cache.touch key now).lookup k = some e →
        k = key ∧ e = { entry with lastUsed := now } ∨ k ≠ key ∧ cache.lookup k = some e := by
      intro k e found'
      rw [LruCache.lookup_touch] at found'
      split_ifs at found' with same
      · subst same
        rw [found] at found'
        exact .inl ⟨rfl, (Option.some.inj found').symm⟩
      · exact .inr ⟨same, found'⟩
    refine ⟨tracks.capacity_eq, tracks.ttl_eq, (cache.len_touch key now).trans_le tracks.full,
      fun {k e} found' => lastPut_get.mpr ?_, fun {k born vec} put => ?_, fun {k e} found' => ?_,
      tracks.distinct_after later key fun found' => (touched found').imp ?_ (·.2)⟩
    · rcases touched found' with ⟨rfl, rfl⟩ | ⟨-, there⟩
      · have before := tracks.entry found
        exact before
      · exact tracks.entry there
    · rcases tracks.present (lastPut_get.mp put) with ⟨lastUsed, there⟩ | stale
      · rw [LruCache.lookup_touch]
        split_ifs with same
        · rw [there]
          exact .inl ⟨now, rfl⟩
        · exact .inl ⟨lastUsed, there⟩
      · exact .inr (old stale)
    · rcases touched found' with ⟨rfl, rfl⟩ | ⟨other, there⟩
      · exact since_concat.mpr (.inl ⟨⟨rfl, Option.some_ne_none _⟩, rfl⟩)
      · exact lastUse_other (fun uses => other uses.1.symm) (tracks.used there)
    · rintro ⟨rfl, rfl⟩
      exact ⟨rfl, rfl⟩

theorem Tracks.put (tracks : Tracks capacity ttl history cache) (positive : 0 < capacity)
    (order : MapOrder F) (later : Later history now) (key : UInt64) (vec : List F) :
    Tracks capacity ttl (history ++ [.put now key vec (cache.evictKey order now key)])
      (cache.put order now key vec) := by
  have after : ∀ {k e}, (cache.put order now key vec).lookup k = some e →
      k = key ∧ e = ⟨vec, now, now⟩ ∨
        k ≠ key ∧ cache.evictKey order now key ≠ some k ∧ cache.lookup k = some e := by
    intro k e found
    rw [LruCache.lookup_put] at found
    split_ifs at found with same evicted
    · exact .inl ⟨same, (Option.some.inj found).symm⟩
    · exact .inr ⟨same, evicted, found⟩
  have capacity_eq := tracks.capacity_eq
  refine ⟨?_, ?_, ?_, fun {k e} found => ?_, fun {k born vec'} put => ?_, fun {k e} found => ?_,
    tracks.distinct_after later key fun found => (after found).imp ?_ (·.2.2)⟩
  · unfold LruCache.put
    cases cache.evictKey order now key with
    | none => exact capacity_eq
    | some _ => exact capacity_eq
  · unfold LruCache.put
    cases cache.evictKey order now key with
    | none => exact tracks.ttl_eq
    | some _ => exact tracks.ttl_eq
  · subst capacity_eq
    exact LruCache.len_put_le order now key vec positive tracks.full
  · rcases after found with ⟨rfl, rfl⟩ | ⟨other, kept, there⟩
    · exact since_concat.mpr (.inl ⟨_, rfl⟩)
    · exact since_concat.mpr (.inr ⟨tracks.entry there, fun ends => ends.elim (other ∘ Eq.symm) kept⟩)
  · rw [LruCache.lookup_put]
    rcases since_concat.mp put with ⟨evicted, itself⟩ | ⟨before, goes⟩
    · cases itself
      rw [if_pos rfl]
      exact .inl ⟨now, rfl⟩
    · obtain ⟨other, kept⟩ := not_or.mp goes
      rw [if_neg (Ne.symm other), if_neg kept]
      exact (tracks.present before).imp id
        fun ⟨e, mem, stale⟩ => ⟨e, List.mem_append_left _ mem, stale⟩
  · rcases after found with ⟨rfl, rfl⟩ | ⟨other, -, there⟩
    · exact since_concat.mpr (.inl ⟨rfl, rfl⟩)
    · exact lastUse_other (other ∘ Eq.symm) (tracks.used there)
  · rintro ⟨rfl, rfl⟩
    exact ⟨rfl, rfl⟩

/-- After any calls under a clock that is strictly increasing, the map follows the history. -/
theorem tracks_run {order : MapOrder F} {capacity ttlSecs : Nat} {calls : List (Nat × CacheCall F)}
    (run : (cacheSystem order).Run Clocked (LruCache.new capacity ttlSecs) calls cache history) :
    Tracks (max capacity 1) (ttlSecs * 1000000000) history cache := by
  refine StepSystem.Run.invariant (I := fun cache history =>
    Tracks (max capacity 1) (ttlSecs * 1000000000) history cache) (tracks_new capacity ttlSecs) ?_ run
  rintro s report ⟨now, call⟩ s' events tracks later moved
  cases call with
  | get key =>
      cases moved
      exact tracks.get later key
  | put key vec =>
      cases moved
      exact tracks.put (Nat.lt_of_lt_of_le Nat.zero_lt_one (Nat.le_max_right _ _)) order later key vec

/-- What is expected of a cache after a history of calls. -/
structure Serves (order : MapOrder F) (capacity ttl : Nat) (history : List (CacheEvent F))
    (cache : LruCache F) : Prop where
  size : cache.len ≤ max capacity 1
  /-- A lookup returns the vector of the last `put`, if that is recent enough and still there. -/
  reply : ∀ {now}, Later history now → ∀ key vec, (cache.get now key).1 = some vec ↔
    ∃ born, LastPut key born vec history ∧ now - born ≤ ttl
  /-- Only a new key in a full cache displaces another one: of all keys of the map, the one whose
  last use is oldest. -/
  evicts : ∀ {now}, Later history now → ∀ key evicted, cache.evictKey order now key = some evicted →
    cache.lookup key = none ∧ max capacity 1 ≤ cache.len ∧ cache.lookup evicted ≠ none ∧
      ∃ time, LastUse evicted time history ∧ ∀ other, other ≠ evicted → cache.lookup other ≠ none →
        ∃ time', LastUse other time' history ∧ time < time'

theorem Tracks.reply (tracks : Tracks capacity ttl history cache) (later : Later history now)
    (key : UInt64) (vec : List F) : (cache.get now key).1 = some vec ↔
      ∃ born, LastPut key born vec history ∧ now - born ≤ ttl := by
  have tooOld : ∀ {born}, now - born ≤ ttl → ¬ ∃ e ∈ history, ttl < e.time - born := by
    rintro born fresh ⟨e, mem, stale⟩
    have before := later e mem
    omega
  have ttl_eq := tracks.ttl_eq
  constructor
  · intro hit
    rcases cache.get_cases now key with ⟨-, get⟩ | ⟨entry, found, ⟨-, get⟩ | ⟨fresh, get⟩⟩
    · rw [get] at hit
      cases hit
    · rw [get] at hit
      cases hit
    · rw [get] at hit
      cases hit
      exact ⟨entry.born, tracks.entry found, ttl_eq ▸ fresh⟩
  · rintro ⟨born, put, fresh⟩
    obtain ⟨lastUsed, found⟩ := (tracks.present put).resolve_right (tooOld fresh)
    rcases cache.get_cases now key with ⟨missing, -⟩ | ⟨entry, found', ⟨expired, -⟩ | ⟨-, get⟩⟩
    · cases missing.symm.trans found
    · cases found.symm.trans found'
      exact absurd (ttl_eq ▸ expired) (Nat.not_lt.mpr fresh)
    · cases found.symm.trans found'
      rw [get]

/-- The cache serves: for every sequence of calls, whatever the order in which the map is
iterated over. -/
theorem cache_serves {order : MapOrder F} {capacity ttlSecs : Nat} {calls : List (Nat × CacheCall F)}
    (run : (cacheSystem order).Run Clocked (LruCache.new capacity ttlSecs) calls cache history) :
    Serves order capacity (ttlSecs * 1000000000) history cache := by
  have tracks := tracks_run run
  refine ⟨tracks.full, fun later => tracks.reply later, fun {now} later key evicted evicts => ?_⟩
  obtain ⟨entry, displaces⟩ := LruCache.displaces_of_evictKey evicts
  have there : cache.lookup evicted ≠ none := displaces.found ▸ Option.some_ne_none _
  refine ⟨displaces.new, tracks.capacity_eq ▸ displaces.full, there, entry.lastUsed,
    tracks.used displaces.found, fun other different resident => ?_⟩
  obtain ⟨entry', found⟩ := Option.ne_none_iff_exists'.mp resident
  have least := displaces.least other entry' found
  refine ⟨entry'.lastUsed, tracks.used found, Nat.lt_of_le_of_ne least fun same => ?_⟩
  exact different (tracks.distinct displaces.found found same).symm

/-! ### A cache of two entries -/

/-- The order in which the rows were written. -/
def asWritten : MapOrder Int := fun _ rows => ⟨rows, .refl _⟩

/-- The first key is used again, so the third displaces the second. -/
def threePuts : List (Nat × CacheCall Int) :=
  [(1, .put 1 [10]), (2, .put 2 [20]), (3, .get 1), (4, .put 3 [30])]

def threePutsHistory : List (CacheEvent Int) :=
  [.put 1 1 [10] none, .put 2 2 [20] none, .get 3 1 (some [10]), .put 4 3 [30] (some 2)]

def threePutsCache : LruCache Int :=
  let cache := LruCache.new 2 3600
  let cache := cache.put asWritten 1 1 [10]
  let cache := cache.put asWritten 2 2 [20]
  let cache := (cache.get 3 1).2
  cache.put asWritten 4 3 [30]

/-- The check of `Clocked`. -/
def clocked (_ : LruCache Int) (history : List (CacheEvent Int)) (call : Nat × CacheCall Int) : Bool :=
  history.all fun e => e.time < call.1

theorem clocked_of_check (cache : LruCache Int) (history : List (CacheEvent Int))
    (call : Nat × CacheCall Int) (checked : clocked cache history call = true) :
    Clocked cache history call :=
  fun e mem => of_decide_eq_true (List.all_eq_true.mp checked e mem)

theorem threePuts_run : (cacheSystem asWritten).Run Clocked (LruCache.new 2 3600) threePuts
    threePutsCache threePutsHistory :=
  .of_exec clocked_of_check rfl

theorem cache_serves_threePuts :
    Serves asWritten 2 (3600 * 1000000000) threePutsHistory threePutsCache :=
  cache_serves threePuts_run

end History

end FusionMemory
