import FusionMemory.Lib.Program

/-!
Interleaved programs.

A pool runs several programs over one shared state. A step picks a thread and
serves its next request; each request is atomic and threads interleave freely
between requests. A thread remembers the requests it issued and the replies it
got, stamped with the pool's step count, so that statements can speak about the
order of events in different threads.

`Reaches` takes a condition on steps, given as a predicate on the pool before the
step and the thread that moves: a result about all runs uses the condition that
always holds. `Reaches.invariant` is the proof rule: what each thread's program
`Obeys` is available at every one of its steps.
-/

namespace Lib

structure Thread (S : Signature) (ε α : Type) where
  history : List (Event S)
  program : Program S ε α

structure Pool (S : Signature) (ε α σ : Type) where
  world : σ
  time : Nat
  threads : List (Thread S ε α)

namespace Pool

variable {S : Signature} {ε α σ : Type} (M : Machine S σ)

/-- Threads that have not run yet, on a state. -/
def start (world : σ) (programs : List (Program S ε α)) : Pool S ε α σ :=
  ⟨world, 0, programs.map fun p => ⟨[], p⟩⟩

theorem start_history {world : σ} {programs : List (Program S ε α)} {i : Nat} {thread : Thread S ε α}
    (found : (start world programs).threads[i]? = some thread) : thread.history = [] := by
  unfold start at found
  dsimp only at found
  rw [List.getElem?_map] at found
  obtain ⟨p, -, rfl⟩ := Option.map_eq_some_iff.mp found
  rfl

/-- Thread `i`, about to issue `r`, is served. -/
def advance (pool : Pool S ε α σ) (i : Nat) (h : List (Event S)) (r : S.Request)
    (next : S.Reply r → Program S ε α) : Pool S ε α σ where
  world := (M.exec r pool.world).2
  time := pool.time + 1
  threads := pool.threads.set i
    ⟨⟨pool.time, r, (M.exec r pool.world).1⟩ :: h, next (M.exec r pool.world).1⟩

/-- One step of thread `i`: nothing when it has ended or must wait. -/
def step (pool : Pool S ε α σ) (i : Nat) : Option (Pool S ε α σ) :=
  match pool.threads[i]? with
  | some ⟨h, .request r next⟩ =>
      if M.ready r pool.world then some (pool.advance M i h r next) else none
  | _ => none

/-- Everything one step can do. -/
theorem step_eq_some_iff {pool pool' : Pool S ε α σ} {i : Nat} :
    pool.step M i = some pool' ↔ ∃ h r next,
      pool.threads[i]? = some ⟨h, .request r next⟩ ∧ M.ready r pool.world = true ∧
        pool' = pool.advance M i h r next := by
  unfold step
  constructor
  · intro moved
    split at moved
    · rename_i h r next found
      split at moved
      · rename_i ready
        exact ⟨h, r, next, found, ready, (Option.some.inj moved).symm⟩
      · cases moved
    · cases moved
  · rintro ⟨h, r, next, found, ready, rfl⟩
    simp [found, ready]

/-- Run a schedule; a scheduled thread that cannot move is passed over. -/
def runSchedule : List Nat → Pool S ε α σ → Pool S ε α σ
  | [], pool => pool
  | i :: rest, pool => runSchedule rest ((pool.step M i).getD pool)

/-- The pools reached by steps that all meet the condition `C`. -/
inductive Reaches (C : Pool S ε α σ → Nat → Prop) (first : Pool S ε α σ) :
    Pool S ε α σ → Prop where
  | start : Reaches C first first
  | step {pool pool' : Pool S ε α σ} {i : Nat} : Reaches C first pool → C pool i →
      pool.step M i = some pool' → Reaches C first pool'

variable {M} {C C' : Pool S ε α σ → Nat → Prop} {first pool : Pool S ε α σ}

theorem Reaches.mono (weaken : ∀ pool i, C pool i → C' pool i) (reach : Reaches M C first pool) :
    Reaches M C' first pool := by
  induction reach with
  | start => exact .start
  | step _ cond moved ih => exact .step ih (weaken _ _ cond) moved

theorem Reaches.trans {middle : Pool S ε α σ} (before : Reaches M C first middle)
    (after : Reaches M C middle pool) : Reaches M C first pool := by
  induction after with
  | start => exact before
  | step _ cond moved ih => exact .step ih cond moved

variable (M) in
/-- Every request that a schedule serves passes the check `ok`. -/
def passes (ok : Pool S ε α σ → S.Request → Bool) : List Nat → Pool S ε α σ → Bool
  | [], _ => true
  | i :: rest, pool =>
      (match pool.threads[i]? with
        | some ⟨_, .request r _⟩ => ok pool r
        | _ => true) && passes ok rest ((pool.step M i).getD pool)

/-- A run by a schedule, where the check implies the condition. -/
theorem reaches_runSchedule (ok : Pool S ε α σ → S.Request → Bool) (meets : ∀ pool i h r next,
      pool.threads[i]? = some ⟨h, .request r next⟩ → ok pool r = true → C pool i)
    (schedule : List Nat) :
    ∀ pool : Pool S ε α σ, passes M ok schedule pool = true →
      Reaches M C pool (runSchedule M schedule pool) := by
  induction schedule with
  | nil => exact fun _ _ => .start
  | cons i rest ih =>
      intro pool checked
      unfold passes at checked
      obtain ⟨now, later⟩ := Bool.and_eq_true_iff.mp checked
      unfold runSchedule
      cases moved : pool.step M i with
      | none =>
          rw [moved] at later
          exact ih pool later
      | some pool' =>
          rw [moved] at later
          obtain ⟨h, r, next, found, -, -⟩ := (step_eq_some_iff M).mp moved
          rw [found] at now
          exact (Reaches.start.step (meets pool i h r next found now) moved).trans (ih pool' later)

theorem advance_threads_self {i : Nat} {h : List (Event S)} {r : S.Request}
    {next : S.Reply r → Program S ε α} (inside : i < pool.threads.length) :
    (pool.advance M i h r next).threads[i]? =
      some ⟨⟨pool.time, r, (M.exec r pool.world).1⟩ :: h, next (M.exec r pool.world).1⟩ := by
  simp [advance, inside]

theorem advance_threads_ne {i j : Nat} {h : List (Event S)} {r : S.Request}
    {next : S.Reply r → Program S ε α} (ne : i ≠ j) :
    (pool.advance M i h r next).threads[j]? = pool.threads[j]? := by
  simp [advance, List.getElem?_set_ne ne]

/-- Every thread after a step is a thread before it, or the one that moved. -/
theorem advance_threads_cases {i j : Nat} {h : List (Event S)} {r : S.Request}
    {next : S.Reply r → Program S ε α} (found : pool.threads[i]? = some ⟨h, .request r next⟩)
    {thread : Thread S ε α} (member : (pool.advance M i h r next).threads[j]? = some thread) :
    (j ≠ i ∧ pool.threads[j]? = some thread) ∨
      (j = i ∧ thread =
        ⟨⟨pool.time, r, (M.exec r pool.world).1⟩ :: h, next (M.exec r pool.world).1⟩) := by
  by_cases same : j = i
  · subst same
    rw [advance_threads_self (List.getElem?_eq_some_iff.mp found).1] at member
    exact .inr ⟨rfl, (Option.some.inj member).symm⟩
  · rw [advance_threads_ne (Ne.symm same)] at member
    exact .inl ⟨same, member⟩

/-- Thread `i` keeps to the protocol `P i` and ends as `Q i` says: whatever the replies,
each request it issues is one the protocol allows after its history. -/
def KeepsProtocol (P : Nat → List (Event S) → S.Request → Prop)
    (Q : Nat → List (Event S) → Except ε α → Prop) (pool : Pool S ε α σ) : Prop :=
  ∀ i thread, pool.threads[i]? = some thread →
    Program.Obeys (P i) (Q i) thread.history thread.program

variable {P : Nat → List (Event S) → S.Request → Prop}
  {Q : Nat → List (Event S) → Except ε α → Prop}

theorem KeepsProtocol.start {programs : List (Program S ε α)} (world : σ)
    (obeys : ∀ i p, programs[i]? = some p → Program.Obeys (P i) (Q i) [] p) :
    KeepsProtocol P Q (start world programs) := by
  intro i thread found
  unfold Pool.start at found
  dsimp only at found
  rw [List.getElem?_map] at found
  obtain ⟨p, listed, rfl⟩ := Option.map_eq_some_iff.mp found
  exact obeys i p listed

theorem KeepsProtocol.advance {i : Nat} {h : List (Event S)} {r : S.Request}
    {next : S.Reply r → Program S ε α} (keeps : KeepsProtocol P Q pool)
    (found : pool.threads[i]? = some ⟨h, .request r next⟩) :
    KeepsProtocol P Q (pool.advance M i h r next) := by
  intro j thread member
  rcases advance_threads_cases found member with ⟨_, old⟩ | ⟨rfl, rfl⟩
  · exact keeps j thread old
  · exact (keeps j _ found).2 _ _

theorem Reaches.keepsProtocol (keeps : KeepsProtocol P Q first) (reach : Reaches M C first pool) :
    KeepsProtocol P Q pool := by
  induction reach with
  | start => exact keeps
  | step _ _ moved ih =>
      obtain ⟨h, r, next, found, -, rfl⟩ := (step_eq_some_iff M).mp moved
      exact ih.advance found

/-- Invariants of interleaved runs: a step of thread `i` may be assumed to meet
the condition and to issue a request that the thread's protocol allows. -/
theorem Reaches.invariant {I : Pool S ε α σ → Prop} (keeps : KeepsProtocol P Q first)
    (init : I first) (preserved : ∀ pool i h r next, I pool →
      pool.threads[i]? = some ⟨h, .request r next⟩ → P i h r → C pool i →
      M.ready r pool.world = true → I (pool.advance M i h r next))
    (reach : Reaches M C first pool) : I pool := by
  induction reach with
  | start => exact init
  | step before cond moved ih =>
      obtain ⟨h, r, next, found, ready, rfl⟩ := (step_eq_some_iff M).mp moved
      exact preserved _ _ h r next ih found (before.keepsProtocol keeps _ _ found).1 cond ready

/-! ### The events of a run -/

/-- Everything that happened, thread by thread. -/
def events (pool : Pool S ε α σ) : List (Event S) := pool.threads.flatMap (·.history)

theorem events_start (world : σ) (programs : List (Program S ε α)) :
    (start world programs).events = [] := by
  unfold events
  rw [List.flatMap_eq_nil_iff]
  intro thread mem
  obtain ⟨i, found⟩ := List.getElem?_of_mem mem
  exact start_history found

theorem mem_events {e : Event S} :
    e ∈ pool.events ↔
      ∃ i : Nat, ∃ thread : Thread S ε α, pool.threads[i]? = some thread ∧ e ∈ thread.history := by
  unfold events
  rw [List.mem_flatMap]
  constructor
  · rintro ⟨thread, mem, happened⟩
    obtain ⟨i, found⟩ := List.getElem?_of_mem mem
    exact ⟨i, thread, found, happened⟩
  · rintro ⟨i, thread, found, happened⟩
    exact ⟨thread, List.mem_of_getElem? found, happened⟩

/-- A step adds one event. -/
theorem events_advance {i : Nat} {h : List (Event S)} {r : S.Request}
    {next : S.Reply r → Program S ε α} (found : pool.threads[i]? = some ⟨h, .request r next⟩) :
    (pool.advance M i h r next).events.Perm
      (⟨pool.time, r, (M.exec r pool.world).1⟩ :: pool.events) := by
  obtain ⟨inside, same⟩ := List.getElem?_eq_some_iff.mp found
  have before : pool.threads = pool.threads.take i ++ ⟨h, .request r next⟩ ::
      pool.threads.drop (i + 1) := by
    rw [← same, List.getElem_cons_drop, List.take_append_drop]
  unfold events advance
  dsimp only
  rw [List.set_eq_take_append_cons_drop, if_pos inside]
  conv => rhs; rw [before]
  simp only [List.flatMap_append, List.flatMap_cons, List.cons_append]
  exact List.perm_middle

section Step

variable {i : Nat} {h : List (Event S)} {r : S.Request} {next : S.Reply r → Program S ε α}

theorem mem_events_advance (found : pool.threads[i]? = some ⟨h, .request r next⟩) {e : Event S} :
    e ∈ (pool.advance M i h r next).events ↔
      e = ⟨pool.time, r, (M.exec r pool.world).1⟩ ∨ e ∈ pool.events :=
  (events_advance found).mem_iff.trans List.mem_cons

/-- What a thread has seen has happened. -/
theorem history_happened {program : Program S ε α} (found : pool.threads[i]? = some ⟨h, program⟩) :
    ∀ e ∈ h, e ∈ pool.events :=
  fun _ seen => mem_events.mpr ⟨i, _, found, seen⟩

/-- Everything that happened is past. -/
theorem past_advance (past : ∀ e ∈ pool.events, e.time < pool.time)
    (found : pool.threads[i]? = some ⟨h, .request r next⟩) :
    ∀ e ∈ (pool.advance M i h r next).events, e.time < (pool.advance M i h r next).time := by
  intro e happened
  rcases (mem_events_advance found).mp happened with rfl | old
  · exact Nat.lt_succ_self _
  · exact Nat.lt_succ_of_lt (past e old)

end Step

end Pool

end Lib
