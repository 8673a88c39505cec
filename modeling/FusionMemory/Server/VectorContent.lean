import FusionMemory.Engine.CommitTurns
import FusionMemory.Lib.Evidence
import FusionMemory.Server.RowIdentity

/-!
Vectors and the texts they stand for.

A vector lies in the store under the hash of an id, and a row names it by that hash. What
`Indexed` says of the two stores is kept by every step of every call, however calls interleave
and whichever storage calls fail: the vectors of a turn, of a summary, of a memory that an
unmerge restores and of a merge that is undone all answer the text that goes with their id.
So a search compares a memory by the embedder's answer to the memory's own content.
-/

namespace FusionMemory

open Lib

variable {F : Type} [FloatArith F]

/-! ### What a step does to the vectors -/

omit [FloatArith F] in
theorem LocalStore.find?_insertWrites {s : LocalStore F} {v' v : Nat} {vec' vec : List F} {n : Nat}
    (after : (s.insertWrites v' vec' n).vecTree.find? v = some (v, vec)) :
    s.vecTree.find? v = some (v, vec) ∨ (v', vec') = (v, vec) := by
  match n with
  | 0 | 1 => exact .inl after
  | n + 2 =>
      have written : (s.vecTree.upsert (v', vec')).find? v = some (v, vec) := after
      rw [Table.find?_upsert] at written
      split_ifs at written
      · exact .inr (Option.some.inj written)
      · exact .inl written

/-- A vector of the tree was there before the step, or the step has inserted it. -/
theorem vecTree_exec {w : World F} {r : Request F} {v : Nat} {vec : List F}
    (after : (w.exec r).2.store.vecTree.find? v = some (v, vec)) :
    w.store.vecTree.find? v = some (v, vec) ∨
      r = .store (.insertVector v vec) ∧ vec.length = w.store.dim := by
  cases r with
  | store op =>
      change (w.execStore op).2.vecTree.find? v = some (v, vec) at after
      rcases w.execStore_cases op with done | ⟨e, n, failed⟩
      · rw [done] at after
        cases op with
        | insertVector v' vec' =>
            change (w.store.insertVector v' vec').2.vecTree.find? v = _ at after
            unfold LocalStore.insertVector at after
            split_ifs at after with unfit
            · exact .inl after
            · exact .inl after
            · rcases LocalStore.find?_insertWrites (n := 2) after with old | same
              · exact .inl old
              · cases same
                exact .inr ⟨rfl, not_not.mp unfit⟩
        | _ => exact .inl after
      · rw [failed] at after
        cases op with
        | insertVector v' vec' =>
            change (w.store.insertVectorFails v' vec' e n).2.vecTree.find? v = _ at after
            unfold LocalStore.insertVectorFails at after
            split_ifs at after with unfit
            · exact .inl after
            · exact .inl after
            · rcases LocalStore.find?_insertWrites after with old | same
              · exact .inl old
              · cases same
                exact .inr ⟨rfl, not_not.mp unfit⟩
        | searchKnn query k =>
            refine .inl ?_
            by_cases fits : query.length = w.store.dim
            · simpa [StoreOp.fails, fits] using after
            · simpa [StoreOp.fails, fits] using after
        | _ => exact .inl after
  | acquire lock => cases lock <;> exact .inl after
  | release lock => cases lock <;> exact .inl after
  | _ => exact .inl after

omit [FloatArith F] in
theorem LocalStore.find?_of_getVector {s : LocalStore F} {v : Nat} {vec : List F}
    (live : s.getVector v = some vec) : s.vecTree.find? v = some (v, vec) := by
  unfold LocalStore.getVector at live
  split_ifs at live
  obtain ⟨p, found, rfl⟩ := Option.map_eq_some_iff.mp live
  have key : p.1 = v := Table.find?_key found
  rw [found, ← key]

/-- A vector that a call was shown is one of the tree. -/
theorem find?_of_shown {w : World F} {r : Request F} {s t v : Nat} {vec : List F}
    (now : (⟨t, .store (.getVector v), .ok (some vec)⟩ : EngineEvent F) = ⟨s, r, (w.exec r).1⟩) :
    w.store.vecTree.find? v = some (v, vec) := by
  injection now with _ request reply
  subst request
  have live : (w.execStore (.getVector v)).1 = .ok (some vec) := (eq_of_heq reply).symm
  rcases w.execStore_cases (.getVector v) with done | ⟨e, n, failed⟩
  · rw [done] at live
    exact LocalStore.find?_of_getVector (Except.ok.inj live)
  · rw [failed] at live
    cases live

/-! ### The ids that are handed out -/

section Ulids

variable [JsonText F] {eng : MemoryEngine} {w : World F} {calls : List EngineCall} {pool : Tasks F}

/-- An id was handed out once: when, and by whom. -/
structure HandedOut (w : World F) (pool : Tasks F) : Prop where
  env : pool.world.env = w.env
  issued : ∀ t id, (⟨t, .newUlid, id⟩ : EngineEvent F) ∈ pool.events → id ∈ pool.world.issued
  given : ∀ t id, (⟨t, .newUlid, id⟩ : EngineEvent F) ∈ pool.events → ¬ w.env.Withholds id
  once : ∀ t t' id, (⟨t, .newUlid, id⟩ : EngineEvent F) ∈ pool.events →
    (⟨t', .newUlid, id⟩ : EngineEvent F) ∈ pool.events → t = t'

theorem handedOut (reach : Pool.Reaches (machine F) (fun _ _ => True) (Tasks.start eng w calls) pool) :
    HandedOut w pool := by
  have quiet : (Tasks.start eng w calls).events = [] := Pool.events_start w _
  induction reach with
  | start =>
      refine ⟨rfl, fun t id mem => ?_, fun t id mem => ?_, fun t t' id mem => ?_⟩
      all_goals
        rw [quiet] at mem
        cases mem
  | @step pool _ i before _ moved ih =>
      obtain ⟨h, r, next, found, -, rfl⟩ := (Pool.step_eq_some_iff (machine F)).mp moved
      have fresh : ∀ t id, (⟨t, .newUlid, id⟩ : EngineEvent F) = ⟨pool.time, r, (pool.world.exec r).1⟩ →
          r = .newUlid ∧ t = pool.time ∧ (pool.world.env.ulid pool.world.tick pool.world.taken).1 = id := by
        intro t id now
        injection now with time request reply
        subst request
        exact ⟨rfl, time, (eq_of_heq reply).symm⟩
      have unseen : ∀ t id, (⟨t, .newUlid, id⟩ : EngineEvent F) ∈ pool.events →
          (pool.world.env.ulid pool.world.tick pool.world.taken).1 ≠ id := fun t id old now =>
        pool.world.ulid_fresh (now ▸ ih.issued t id old)
      refine ⟨(World.exec_env r pool.world).trans ih.env, fun t id mem => ?_, fun t id mem => ?_,
        fun t t' id mem mem' => ?_⟩
      · rcases (Pool.mem_events_advance found).mp mem with now | old
        · obtain ⟨rfl, -, rfl⟩ := fresh t id now
          exact List.mem_cons_self
        · exact issued_exec pool.world r (ih.issued t id old)
      · rcases (Pool.mem_events_advance found).mp mem with now | old
        · obtain ⟨-, -, rfl⟩ := fresh t id now
          rw [ih.env]
          exact fun withheld => withheld _ _ rfl
        · exact ih.given t id old
      · rcases (Pool.mem_events_advance found).mp mem with now | old
        · obtain ⟨-, rfl, rfl⟩ := fresh t id now
          rcases (Pool.mem_events_advance found).mp mem' with now' | old'
          · exact (fresh t' _ now').2.1.symm
          · exact absurd rfl (unseen t' _ old')
        · rcases (Pool.mem_events_advance found).mp mem' with now' | old'
          · obtain ⟨-, -, rfl⟩ := fresh t' id now'
            exact absurd rfl (unseen t _ old)
          · exact ih.once t t' id old old'

omit [FloatArith F] [JsonText F] in
theorem TextOf.handed {id text : String} {h : List (EngineEvent F)} (asked : TextOf id text h) :
    ∃ t, (⟨t, .newUlid, id⟩ : EngineEvent F) ∈ h := by
  obtain ⟨t, t', reply, since, before, rfl⟩ := asked
  exact ⟨t, List.mem_append_right _ (List.mem_cons_of_mem _ List.mem_cons_self)⟩

omit [FloatArith F] [JsonText F] in
theorem TextOf.cons {id text : String} {h : List (EngineEvent F)} (asked : TextOf id text h)
    (e : EngineEvent F) : TextOf id text (e :: h) := by
  obtain ⟨t, t', reply, since, before, rfl⟩ := asked
  exact ⟨t, t', reply, e :: since, before, rfl⟩

omit [FloatArith F] [JsonText F] in
/-- In a history in which an id was handed out once, one text goes with it. -/
theorem TextOf.unique {id text text' : String} {h : List (EngineEvent F)}
    (ordered : h.Pairwise fun e e' => e'.time < e.time)
    (once : ∀ t t', (⟨t, .newUlid, id⟩ : EngineEvent F) ∈ h → (⟨t', .newUlid, id⟩ : EngineEvent F) ∈ h →
      t = t') (asked : TextOf id text h) (asked' : TextOf id text' h) : text = text' := by
  induction h with
  | nil =>
      obtain ⟨t, mem⟩ := asked.handed
      cases mem
  | cons e h ih =>
      obtain ⟨-, sorted⟩ := List.pairwise_cons.mp ordered
      have within : ∀ {text : String}, TextOf id text (e :: h) →
          TextOf id text h ∨ ∃ t t' reply before, e = ⟨t', .embed text, reply⟩ ∧
            h = ⟨t, .newUlid, id⟩ :: before := by
        rintro text ⟨t, t', reply, since, before, same⟩
        cases since with
        | nil =>
            obtain ⟨rfl, rfl⟩ := List.cons.inj same
            exact .inr ⟨t, t', reply, before, rfl, rfl⟩
        | cons e' since =>
            obtain ⟨rfl, rfl⟩ := List.cons.inj same
            exact .inl ⟨t, t', reply, since, before, rfl⟩
      -- The event after the id is the last one; an earlier one would follow the same id.
      have apart : ∀ {text : String} {t t' : Nat} {reply : Except String (List F)} {before},
          h = ⟨t, .newUlid, id⟩ :: before → e = ⟨t', .embed text, reply⟩ →
          ∀ text', ¬ TextOf id text' h := by
        rintro text t t' reply before rfl rfl text' ⟨s, s', reply', since, before', same⟩
        cases since with
        | nil => cases (List.cons.inj same).1
        | cons e' since =>
            obtain ⟨rfl, tail⟩ := List.cons.inj same
            have seen : (⟨s, .newUlid, id⟩ : EngineEvent F) ∈ before := by
              rw [tail]
              exact List.mem_append_right _ (List.mem_cons_of_mem _ List.mem_cons_self)
            have earlier : s < t := (List.pairwise_cons.mp sorted).1 _ seen
            have same_time := once s t (List.mem_cons_of_mem _ (List.mem_cons_of_mem _ seen))
              (List.mem_cons_of_mem _ List.mem_cons_self)
            exact absurd same_time (Nat.ne_of_lt earlier)
      rcases within asked with old | ⟨t, t₁, reply, before, now, handed⟩
      · rcases within asked' with old' | ⟨t', t₁', reply', before', now', handed'⟩
        · exact ih sorted (fun t t' mem mem' => once t t' (List.mem_cons_of_mem _ mem)
            (List.mem_cons_of_mem _ mem')) old old'
        · exact absurd old (apart handed' now' text)
      · rcases within asked' with old' | ⟨t', t₁', reply', before', now', handed'⟩
        · exact absurd old' (apart handed now text')
        · rw [now] at now'
          cases now'
          rfl

end Ulids

/-! ### What is indexed -/

/-- Every row names the vector of its id, and its content goes with its id; every vector lies at
the hash of an id and answers the text that goes with the id. -/
structure Indexed (named : String → String → Prop) (Answers : String → List F → Prop) (db : Db F)
    (store : LocalStore F) : Prop where
  rows : ∀ id m, db.getMemory id = some m →
    m.vectorRef = toString (vectorIdFromUlid m.id) ∧ named m.id m.content
  vectors : ∀ v vec, store.vecTree.find? v = some (v, vec) →
    ∃ id text, v = vectorIdFromUlid id ∧ named id text ∧ Answers text vec

/-- The text goes with the id: it is known to, or a call has embedded it for the id. -/
def Tasks.Names (texts : String → Option String) (pool : Tasks F) (id text : String) : Prop :=
  texts id = some text ∨
    ∃ (i : Nat) (thread : Thread (engineSignature F) MemoryError Unit),
      pool.threads[i]? = some thread ∧ TextOf id text thread.history

/-- The stores are indexed, and what calls have seen of them is so too. -/
structure Indexing (texts : String → Option String) (Answers : String → List F → Prop)
    (pool : Tasks F) : Prop where
  indexed : Indexed (pool.Names texts) Answers pool.world.db pool.world.store
  copies : ∀ e ∈ pool.events, ∀ m ∈ rowsRead e,
    m.vectorRef = toString (vectorIdFromUlid m.id) ∧ pool.Names texts m.id m.content
  shown : ∀ t v vec, (⟨t, .store (.getVector v), .ok (some vec)⟩ : EngineEvent F) ∈ pool.events →
    ∃ id text, v = vectorIdFromUlid id ∧ pool.Names texts id text ∧ Answers text vec
  embedded : ∀ t text vec, (⟨t, .embed text, .ok vec⟩ : EngineEvent F) ∈ pool.events →
    Answers text vec

section Steps

variable [JsonText F] {texts : String → Option String} {Answers : String → List F → Prop}
  {pool : Tasks F} {i : Nat} {h : List (EngineEvent F)} {r : Request F}
  {next : r.Reply → EngineM F Unit}

omit [JsonText F] in
theorem Tasks.Names.advance {id text : String} (named : pool.Names texts id text)
    (found : pool.threads[i]? = some ⟨h, .request r next⟩) :
    Tasks.Names texts (pool.advance (machine F) i h r next) id text := by
  rcases named with known | ⟨j, thread, there, asked⟩
  · exact .inl known
  · by_cases same : j = i
    · subst same
      obtain rfl := Option.some.inj (there.symm.trans found)
      exact .inr ⟨j, _, Pool.advance_threads_self (List.getElem?_eq_some_iff.mp found).1, asked.cons _⟩
    · exact .inr ⟨j, thread, (Pool.advance_threads_ne (Ne.symm same)).trans there, asked⟩

omit [FloatArith F] [JsonText F] in
/-- Whatever a call stores a vector for, the vector answers the text of the id. -/
theorem Indexing.source (indexing : Indexing texts Answers pool)
    (found : pool.threads[i]? = some ⟨h, .request r next⟩) {v : Nat} {vec : List F}
    (source : VectorSource v vec h) :
    ∃ id text, v = vectorIdFromUlid id ∧ pool.Names texts id text ∧ Answers text vec := by
  have happened := Pool.history_happened found
  have answers : ∀ {text : String}, Embedded text vec h → Answers text vec := fun ⟨t, mem⟩ =>
    indexing.embedded t _ vec (happened _ mem)
  cases source with
  | @embedded id text ref asked embedded =>
      exact ⟨id, text, ref, .inr ⟨i, _, found, asked⟩, answers embedded⟩
  | @rebuilt e m mem read ref embedded =>
      obtain ⟨same, named⟩ := indexing.copies e (happened e mem) m read
      rw [same, parseU64_toString, if_pos (vectorIdFromUlid_lt m.id)] at ref
      exact ⟨m.id, m.content, (Option.some.inj ref).symm, named, answers embedded⟩
  | restored mem => exact indexing.shown _ v vec (happened _ mem)

omit [JsonText F] in
theorem Indexing.advance (indexing : Indexing texts Answers pool)
    (answers : ∀ t text vec, pool.world.env.embed t text = .ok vec → Answers text vec)
    (found : pool.threads[i]? = some ⟨h, .request r next⟩) (allowed : Writes h r) :
    Indexing texts Answers (pool.advance (machine F) i h r next) := by
  have happened := Pool.history_happened found
  have rows : ∀ {m : MemoryItem F}, m.vectorRef = toString (vectorIdFromUlid m.id) ∧
      pool.Names texts m.id m.content → m.vectorRef = toString (vectorIdFromUlid m.id) ∧
      Tasks.Names texts (pool.advance (machine F) i h r next) m.id m.content :=
    fun good => ⟨good.1, good.2.advance found⟩
  have vectors : ∀ {v : Nat} {vec : List F}, (∃ id text, v = vectorIdFromUlid id ∧
      pool.Names texts id text ∧ Answers text vec) → ∃ id text, v = vectorIdFromUlid id ∧
      Tasks.Names texts (pool.advance (machine F) i h r next) id text ∧ Answers text vec :=
    fun ⟨id, text, ref, named, answer⟩ => ⟨id, text, ref, named.advance found, answer⟩
  have same : ∀ {m m₀ : MemoryItem F}, m.fixed = m₀.fixed →
      m₀.vectorRef = toString (vectorIdFromUlid m₀.id) ∧ pool.Names texts m₀.id m₀.content →
      m.vectorRef = toString (vectorIdFromUlid m.id) ∧ pool.Names texts m.id m.content := by
    intro m m₀ fixed good
    have ref : m.fixed.vectorRef = m₀.fixed.vectorRef := by rw [fixed]
    have content : m.fixed.content = m₀.fixed.content := by rw [fixed]
    change m.vectorRef = m₀.vectorRef at ref
    change m.content = m₀.content at content
    rwa [ref, content, MemoryItem.id_eq_of_fixed fixed]
  refine ⟨⟨fun id m after => ?_, fun v vec after => ?_⟩, fun e mem m read => ?_,
    fun t v vec mem => ?_, fun t text vec mem => ?_⟩
  · refine rows ?_
    rcases fixed_exec after with ⟨m₀, before, fixed⟩ | ⟨-, rfl | ⟨op, payload, «at», rfl⟩⟩
    · exact same fixed (indexing.indexed.rows id m₀ before)
    · obtain ⟨e, mem, m₀, read, fixed⟩ := allowed
      exact same fixed (indexing.copies e (happened e mem) m₀ read)
    · obtain ⟨-, prepared⟩ := allowed
      exact ⟨prepared.ref, .inr ⟨i, _, found, prepared.text⟩⟩
  · refine vectors ?_
    rcases vecTree_exec after with before | ⟨rfl, -⟩
    · exact indexing.indexed.vectors v vec before
    · exact indexing.source found allowed
  · refine rows ?_
    rcases (Pool.mem_events_advance found).mp mem with rfl | old
    · exact indexing.indexed.rows m.id m (getMemory_rowsRead read)
    · exact indexing.copies e old m read
  · refine vectors ?_
    rcases (Pool.mem_events_advance found).mp mem with now | old
    · exact indexing.indexed.vectors v vec (find?_of_shown now)
    · exact indexing.shown t v vec old
  · rcases (Pool.mem_events_advance found).mp mem with now | old
    · injection now with _ request reply
      subst request
      exact answers _ text vec (eq_of_heq reply).symm
    · exact indexing.embedded t text vec old

end Steps

/-! ### Every run -/

section Runs

variable [JsonText F] {eng : MemoryEngine} {w : World F} {calls : List EngineCall} {pool : Tasks F}
  {texts : String → Option String} {Answers : String → List F → Prop}

/-- At most one text goes with an id. -/
theorem Tasks.Names.unique (withheld : ∀ id text, texts id = some text → w.env.Withholds id)
    (reach : Pool.Reaches (machine F) (fun _ _ => True) (Tasks.start eng w calls) pool)
    {id text text' : String} (named : pool.Names texts id text)
    (named' : pool.Names texts id text') : text = text' := by
  have handed := handedOut reach
  have quiet : (Tasks.start eng w calls).events = [] := Pool.events_start w _
  have unknown : ∀ {text text' : String} {j : Nat} {thread : Thread _ _ _}, texts id = some text →
      pool.threads[j]? = some thread → ¬ TextOf id text' thread.history := by
    intro text text' j thread known there asked
    obtain ⟨t, mem⟩ := asked.handed
    exact handed.given t id (Pool.mem_events.mpr ⟨j, thread, there, mem⟩) (withheld id text known)
  rcases named with known | ⟨j, thread, there, asked⟩
  · rcases named' with known' | ⟨k, thread', there', asked'⟩
    · exact Option.some.inj (known.symm.trans known')
    · exact absurd asked' (unknown known there')
  · rcases named' with known' | ⟨k, thread', there', asked'⟩
    · exact absurd asked (unknown known' there)
    · obtain ⟨t, mem⟩ := asked.handed
      obtain ⟨t', mem'⟩ := asked'.handed
      have happened := Pool.mem_events.mpr ⟨j, thread, there, mem⟩
      have happened' := Pool.mem_events.mpr ⟨k, thread', there', mem'⟩
      obtain rfl := reach.apart quiet there there' _ mem _ mem'
        (handed.once t t' id happened happened')
      obtain rfl := Option.some.inj (there.symm.trans there')
      refine TextOf.unique (reach.ordered quiet j thread there) (fun t t' mem mem' => ?_) asked asked'
      exact handed.once t t' id (Pool.mem_events.mpr ⟨j, thread, there, mem⟩)
        (Pool.mem_events.mpr ⟨j, thread, there, mem'⟩)

/-- From stores that are indexed, however calls of the handle interleave and whichever storage
calls fail: the vector that a memory names, where there is one, answers the content of the
memory, unless another id that was handed out has the same hash. -/
theorem vectors_answer_contents
    (answers : ∀ t text vec, w.env.embed t text = .ok vec → Answers text vec)
    (withheld : ∀ id text, texts id = some text → w.env.Withholds id)
    (indexed : Indexed (fun id text => texts id = some text) Answers w.db w.store)
    (reach : Pool.Reaches (machine F) (fun _ _ => True) (Tasks.start eng w calls) pool)
    {id : String} {m : MemoryItem F} (found : pool.world.db.getMemory id = some m) :
    ∃ v, parseU64 m.vectorRef = some v ∧ ∀ vec, pool.world.store.getVector v = some vec →
      Answers m.content vec ∨ ∃ other, other ≠ m.id ∧ vectorIdFromUlid other = vectorIdFromUlid m.id ∧
        (other ∈ pool.world.issued ∨ ∃ text, texts other = some text) := by
  have quiet : (Tasks.start eng w calls).events = [] := Pool.events_start w _
  have fresh : Indexing texts Answers (Tasks.start eng w calls) := by
    refine ⟨⟨fun id m there => ?_, fun v vec there => ?_⟩, fun e mem => ?_, fun t v vec mem => ?_,
      fun t text vec mem => ?_⟩
    · exact ⟨(indexed.rows id m there).1, .inl (indexed.rows id m there).2⟩
    · obtain ⟨id, text, ref, known, answer⟩ := indexed.vectors v vec there
      exact ⟨id, text, ref, .inl known, answer⟩
    all_goals
      rw [quiet] at mem
      cases mem
  obtain ⟨indexing, -⟩ := Pool.Reaches.invariant
    (I := fun pool : Tasks F => Indexing texts Answers pool ∧ pool.world.env = w.env)
    (Tasks.keepsProtocol (EngineCall.program_writes eng) w calls) ⟨fresh, rfl⟩
    (fun pool i h r next ⟨indexing, env⟩ found allowed _ _ =>
      ⟨indexing.advance (env ▸ answers) found allowed, (World.exec_env r pool.world).trans env⟩) reach
  obtain ⟨ref, named⟩ := indexing.indexed.rows id m found
  refine ⟨vectorIdFromUlid m.id, ?_, fun vec live => ?_⟩
  · rw [ref, parseU64_toString, if_pos (vectorIdFromUlid_lt m.id)]
  obtain ⟨other, text, same, named', answer⟩ :=
    indexing.indexed.vectors _ vec (LocalStore.find?_of_getVector live)
  by_cases own : other = m.id
  · subst own
    rw [Tasks.Names.unique withheld reach named named']
    exact .inl answer
  · refine .inr ⟨other, own, same.symm, ?_⟩
    rcases named' with known | ⟨j, thread, there, asked⟩
    · exact .inr ⟨text, known⟩
    · obtain ⟨t, mem⟩ := asked.handed
      exact .inl ((handedOut reach).issued t other (Pool.mem_events.mpr ⟨j, thread, there, mem⟩))

end Runs

/-- An embedder that answers a text with its length. -/
def measuringEnv : Env Fixed :=
  { (Env.quiet : Env Fixed) with embed := fun _ text => .ok [FloatArith.ofNat text.length] }

/-- A greeting was committed, to the end. -/
def greetingStored : Tasks Fixed :=
  Pool.runSchedule (machine Fixed) [0, 0, 0, 0, 0]
    (Tasks.start (plainEngine "a") (World.fresh measuringEnv .empty (.empty 1))
      [.commitEpisodicMemoryDetailed "s" greeting])

theorem vectors_answer_contents_greeting : ∃ m v,
    greetingStored.world.db.getMemory "x" = some m ∧ parseU64 m.vectorRef = some v ∧
      (greetingStored.world.store.getVector v).isSome ∧
      ∀ vec, greetingStored.world.store.getVector v = some vec →
        vec = [FloatArith.ofNat m.content.length] := by
  have reach : Pool.Reaches (machine Fixed) (fun _ _ => True)
      (Tasks.start (plainEngine "a") (World.fresh measuringEnv .empty (.empty 1))
        [.commitEpisodicMemoryDetailed "s" greeting]) greetingStored :=
    Pool.reaches_runSchedule (fun _ _ => true) (fun _ _ _ _ _ _ _ => trivial) _ _ (by decide +kernel)
  have stored : (greetingStored.world.db.getMemory "x").isSome = true := by decide +kernel
  obtain ⟨m, found⟩ := Option.isSome_iff_exists.mp stored
  have issued : greetingStored.world.issued = ["x"] := by decide +kernel
  have indexed : Indexed (fun id text => (none : Option String) = some text)
      (fun text vec => vec = [FloatArith.ofNat text.length])
      (World.fresh measuringEnv .empty (.empty 1)).db (World.fresh measuringEnv .empty (.empty 1)).store :=
    ⟨fun _ _ there => (by cases there), fun _ _ there => (by cases there)⟩
  obtain ⟨v, ref, answered⟩ := vectors_answer_contents (fun _ _ _ answer => (Except.ok.inj answer).symm)
    (fun _ _ known => (by cases known)) indexed reach found
  have key : m.id = "x" := Table.find?_key found
  have live : (((greetingStored.world.db.getMemory "x").bind fun m => parseU64 m.vectorRef).bind
      greetingStored.world.store.getVector).isSome = true := by decide +kernel
  rw [found, Option.bind_some, ref, Option.bind_some] at live
  refine ⟨m, v, found, ref, live, fun vec there => ?_⟩
  rcases answered vec there with answer | ⟨other, ne, -, handed | ⟨_, known⟩⟩
  · exact answer
  · rw [issued] at handed
    exact absurd (List.mem_singleton.mp handed) (key ▸ ne)
  · cases known

end FusionMemory
