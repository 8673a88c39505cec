import FusionMemory.Lib.Pool

/-!
Programs among others.

The threads of a pool may each rely on what the others do and must guarantee the same to
them. Here both are one relation `le` on states, a preorder in which steps move: `Among`
says of a program that wherever the state has moved since its last step, its next request
moves it further along `le`, and that its result satisfies a postcondition from then on.
A request may be assumed to meet a condition `C` on runs.

`Among.bind` and `Among.forM` reason about one program, `Pool.Reaches.among` about all
threads of a pool. `FailsFast` is the converse of a condition on runs: a program that stops
at the first reply that is a failure. Where none has stopped, every request met the condition
(`Pool.Reaches.meets`).
-/

namespace Lib

variable {S : Signature} {ε α β σ : Type}

namespace Program

variable (M : Machine S σ) (le : σ → σ → Prop) (C : σ → S.Request → Prop)

/-- `p`, last served in the state `s`, keeps to `le` and ends as `Q` says. -/
def Among (Q : σ → Except ε α → Prop) : σ → Program S ε α → Prop
  | s, .done a => ∀ t, le s t → Q t (.ok a)
  | s, .fail e => ∀ t, le s t → Q t (.error e)
  | s, .request r next => ∀ t, le s t → C t r →
      le t (M.exec r t).2 ∧ Among Q (M.exec r t).2 (next (M.exec r t).1)

namespace Among

variable {M le C} {Q : σ → Except ε α → Prop} {s t : σ}

/-- What others do in the meantime is allowed for. -/
theorem later (trans : ∀ a b c, le a b → le b c → le a c) {p : Program S ε α}
    (among : Among M le C Q s p) (moved : le s t) : Among M le C Q t p := by
  cases p with
  | done a => exact fun u further => among u (trans s t u moved further)
  | fail e => exact fun u further => among u (trans s t u moved further)
  | request r next => exact fun u further => among u (trans s t u moved further)

/-- A sequence: the second part starts wherever the first has ended, and knows what it says. -/
theorem bind {R : σ → α → Prop} {Q : σ → Except ε β → Prop} {p : Program S ε α}
    {k : α → Program S ε β} (first : Among M le C (fun t => Ends (R t) fun e => Q t (.error e)) s p)
    (rest : ∀ t a, (∀ u, le t u → R u a) → Among M le C Q t (k a)) :
    Among M le C Q s (p >>= k) := by
  induction p generalizing s with
  | done a => exact rest s a first
  | fail e => exact first
  | request r next ih =>
      intro t moved meets
      obtain ⟨step, after⟩ := first t moved meets
      exact ⟨step, ih _ after⟩

/-- A loop, with an invariant about what is left to do that others keep. -/
theorem forM {I : List β → σ → Prop} {E : σ → ε → Prop} {f : β → Program S ε PUnit}
    (refl : ∀ s, le s s) (stable : ∀ xs s t, le s t → I xs s → I xs t)
    (step : ∀ x rest s, I (x :: rest) s →
      Among M le C (fun t => Ends (fun _ => I rest t) (E t)) s (f x))
    (xs : List β) (start : I xs s) :
    Among M le C (fun t => Ends (fun _ => I [] t) (E t)) s (xs.forM f) := by
  induction xs generalizing s with
  | nil => exact fun t moved => stable _ s t moved start
  | cons x rest ih =>
      change Among M le C _ s (f x >>= fun _ => rest.forM f)
      exact bind (step x rest s start) fun t _ after => ih (after t (refl t))

end Among

/-- A failing reply ends the program. -/
def FailsFast (failed : (r : S.Request) → S.Reply r → Prop) : Program S ε α → Prop
  | .done _ => True
  | .fail _ => True
  | .request r next => ∀ reply,
      (failed r reply → ∃ e, next reply = .fail e) ∧ FailsFast failed (next reply)

namespace FailsFast

variable {failed : (r : S.Request) → S.Reply r → Prop}

theorem bind {p : Program S ε α} {k : α → Program S ε β} (first : FailsFast failed p)
    (rest : ∀ a, FailsFast failed (k a)) : FailsFast failed (p >>= k) := by
  induction p with
  | done a => exact rest a
  | fail e => trivial
  | request r next ih =>
      intro reply
      refine ⟨fun bad => ?_, ih reply (first reply).2⟩
      obtain ⟨e, stopped⟩ := (first reply).1 bad
      refine ⟨e, ?_⟩
      change next reply >>= k = .fail e
      rw [stopped]
      rfl

theorem forM {f : β → Program S ε PUnit} (xs : List β) (step : ∀ x ∈ xs, FailsFast failed (f x)) :
    FailsFast failed (xs.forM f) := by
  induction xs with
  | nil => trivial
  | cons x rest ih =>
      change FailsFast failed (f x >>= fun _ => rest.forM f)
      exact bind (step x List.mem_cons_self) fun _ => ih fun y mem => step y (List.mem_cons_of_mem _ mem)

end FailsFast

end Program

/-! ### All threads of a pool -/

namespace Pool

variable {M : Machine S σ} {le : σ → σ → Prop} {C : σ → S.Request → Prop}

/-- The request that thread `i` is about to issue meets `C`. -/
def Meets (C : σ → S.Request → Prop) (pool : Pool S ε α σ) (i : Nat) : Prop :=
  ∀ h r next, pool.threads[i]? = some ⟨h, .request r next⟩ → C pool.world r

/-- Threads that keep to a preorder among others keep to it together. -/
theorem Reaches.among (refl : ∀ s, le s s) (trans : ∀ a b c, le a b → le b c → le a c)
    {Q : σ → Except ε α → Prop} {world : σ} {programs : List (Program S ε α)}
    (each : ∀ p ∈ programs, Program.Among M le C Q world p) {pool : Pool S ε α σ}
    (reach : Reaches M (Meets C) (Pool.start world programs) pool) :
    le world pool.world ∧
      ∀ thread ∈ pool.threads, Program.Among M le C Q pool.world thread.program := by
  induction reach with
  | start =>
      refine ⟨refl _, fun thread mem => ?_⟩
      obtain ⟨p, listed, rfl⟩ := List.mem_map.mp mem
      exact each p listed
  | step _ meets moved ih =>
      obtain ⟨below, among⟩ := ih
      obtain ⟨h, r, next, found, -, rfl⟩ := (step_eq_some_iff M).mp moved
      obtain ⟨step, after⟩ := among _ (List.mem_of_getElem? found) _ (refl _) (meets h r next found)
      refine ⟨trans _ _ _ below step, fun thread mem => ?_⟩
      obtain ⟨j, found'⟩ := List.getElem?_of_mem mem
      rcases advance_threads_cases found found' with ⟨-, old⟩ | ⟨rfl, rfl⟩
      · refine (among thread (List.mem_of_getElem? old)).later trans ?_
        exact step
      · exact after

/-- No thread comes or goes. -/
theorem Reaches.length {C' : Pool S ε α σ → Nat → Prop} {first pool : Pool S ε α σ}
    (reach : Reaches M C' first pool) : pool.threads.length = first.threads.length := by
  induction reach with
  | start => rfl
  | step _ _ moved ih =>
      obtain ⟨h, r, next, -, -, rfl⟩ := (step_eq_some_iff M).mp moved
      exact (List.length_set ..).trans ih

/-- Where a request that does not meet `C` has a failing reply and no thread has failed, every
request met `C`. -/
theorem Reaches.meets {failed : (r : S.Request) → S.Reply r → Prop} {first pool : Pool S ε α σ}
    {C' : Pool S ε α σ → Nat → Prop} (unmet : ∀ s r, ¬ C s r → failed r (M.exec r s).1)
    (each : ∀ thread ∈ first.threads, Program.FailsFast failed thread.program)
    (reach : Reaches M C' first pool) (none : ∀ thread ∈ pool.threads, ∀ e, thread.program ≠ .fail e) :
    Reaches M (Meets C) first pool ∧
      ∀ thread ∈ pool.threads, Program.FailsFast failed thread.program := by
  induction reach with
  | start => exact ⟨.start, each⟩
  | @step before after i _ _ moved ih =>
      obtain ⟨h, r, next, found, ready, rfl⟩ := (step_eq_some_iff M).mp moved
      have inside := (List.getElem?_eq_some_iff.mp found).1
      have alive : ∀ thread ∈ before.threads, ∀ e, thread.program ≠ .fail e := by
        intro thread mem e stopped
        obtain ⟨j, found'⟩ := List.getElem?_of_mem mem
        by_cases same : i = j
        · subst same
          cases found.symm.trans found'
          cases stopped
        · have kept : (before.advance M i h r next).threads[j]? = some thread := by
            rw [advance_threads_ne same]
            exact found'
          exact none thread (List.mem_of_getElem? kept) e stopped
      obtain ⟨reach, fast⟩ := ih alive
      have own := fast _ (List.mem_of_getElem? found) (M.exec r before.world).1
      have moves : (before.advance M i h r next).threads[i]? = some
          ⟨⟨before.time, r, (M.exec r before.world).1⟩ :: h, next (M.exec r before.world).1⟩ :=
        advance_threads_self inside
      refine ⟨.step reach (fun h' r' next' found' => ?_) moved, fun thread mem => ?_⟩
      · cases found.symm.trans found'
        by_contra bad
        obtain ⟨e, stopped⟩ := own.1 (unmet _ _ bad)
        exact none _ (List.mem_of_getElem? moves) e stopped
      · obtain ⟨j, found'⟩ := List.getElem?_of_mem mem
        rcases advance_threads_cases found found' with ⟨-, old⟩ | ⟨rfl, rfl⟩
        · exact fast thread (List.mem_of_getElem? old)
        · exact own.2

end Pool

end Lib
