import FusionMemory.Lib.Pool

/-!
What the history of an interleaved run shows.

A protocol allows a request because of what its thread has seen. `Reaches.explained` reads
that off the history afterwards: what allowed a request lies in the past of it.

`Machine.Memory` is a state that remembers: it holds what requests have made, and certain
replies show something that it holds. `Reaches.traced` finds the request behind such a reply:
a thread has made what is shown, at an earlier time.
-/

namespace Lib

/-- A state that `holds` facts which requests have `made`; an event that `asks` it `shows`
one of them. `I` is what holds of the state throughout, and `now` counts its steps. -/
structure Machine.Memory {S : Signature} {σ Fact : Type} (M : Machine S σ) (I : σ → Prop)
    (now : σ → Nat) (holds : σ → Fact → Prop) (made shows : Event S → Fact → Prop)
    (asks : Event S → Prop) : Prop where
  keeps : ∀ r s, I s → I (M.exec r s).2
  ticks : ∀ r s, now (M.exec r s).2 = now s + 1
  made : ∀ r s f, I s → holds (M.exec r s).2 f →
    holds s f ∨ made ⟨now s, r, (M.exec r s).1⟩ f
  shown : ∀ r s, I s → asks ⟨now s, r, (M.exec r s).1⟩ →
    ∃ f, holds s f ∧ shows ⟨now s, r, (M.exec r s).1⟩ f

namespace Pool

variable {S : Signature} {ε α σ : Type} {M : Machine S σ} {C : Pool S ε α σ → Nat → Prop}
  {first pool : Pool S ε α σ}

/-- What happened is past. -/
theorem Reaches.past (quiet : first.events = []) (reach : Reaches M C first pool) :
    ∀ e ∈ pool.events, e.time < pool.time := by
  induction reach with
  | start =>
      intro e happened
      rw [quiet] at happened
      cases happened
  | step before _ moved ih =>
      obtain ⟨h, r, next, found, -, rfl⟩ := (step_eq_some_iff M).mp moved
      exact past_advance ih found

/-- A thread's history is in the order of time, the latest event first. -/
theorem Reaches.ordered (quiet : first.events = []) (reach : Reaches M C first pool) :
    ∀ (i : Nat) thread, pool.threads[i]? = some thread →
      thread.history.Pairwise fun e e' => e'.time < e.time := by
  induction reach with
  | start =>
      intro i thread found
      have silent : thread.history = [] := List.eq_nil_iff_forall_not_mem.mpr fun e mem => by
        have happened : e ∈ first.events := mem_events.mpr ⟨i, thread, found, mem⟩
        rw [quiet] at happened
        cases happened
      rw [silent]
      exact .nil
  | step before _ moved ih =>
      obtain ⟨h, r, next, found, -, rfl⟩ := (step_eq_some_iff M).mp moved
      intro j thread there
      rcases advance_threads_cases found there with ⟨-, old⟩ | ⟨rfl, rfl⟩
      · exact ih j thread old
      · exact .cons (fun e mem => before.past quiet e (history_happened found e mem)) (ih j _ found)

/-- Two threads have no event at the same time. -/
theorem Reaches.apart (quiet : first.events = []) (reach : Reaches M C first pool) :
    ∀ {i j : Nat} {t t' : Thread S ε α}, pool.threads[i]? = some t → pool.threads[j]? = some t' →
      ∀ e ∈ t.history, ∀ e' ∈ t'.history, e.time = e'.time → i = j := by
  induction reach with
  | start =>
      intro i j t t' found _ e mem
      have happened : e ∈ first.events := mem_events.mpr ⟨i, t, found, mem⟩
      rw [quiet] at happened
      cases happened
  | @step pool _ _ before _ moved ih =>
      obtain ⟨h, r, next, found, -, rfl⟩ := (step_eq_some_iff M).mp moved
      have earlier : ∀ {l : Nat} {t : Thread S ε α} {e : Event S}, pool.threads[l]? = some t →
          e ∈ t.history → e.time < pool.time := fun there mem =>
        before.past quiet _ (mem_events.mpr ⟨_, _, there, mem⟩)
      intro j k t t' there there' e mem e' mem' same
      rcases advance_threads_cases found there with ⟨-, old⟩ | ⟨rfl, rfl⟩
      · rcases advance_threads_cases found there' with ⟨-, old'⟩ | ⟨rfl, rfl⟩
        · exact ih old old' e mem e' mem' same
        · rcases List.mem_cons.mp mem' with rfl | seen'
          · exact absurd same (Nat.ne_of_lt (earlier old mem))
          · exact ih old found e mem e' seen' same
      · rcases advance_threads_cases found there' with ⟨-, old'⟩ | ⟨rfl, -⟩
        · rcases List.mem_cons.mp mem with rfl | seen
          · exact absurd same.symm (Nat.ne_of_lt (earlier old' mem'))
          · exact ih found old' e seen e' mem' same
        · rfl

/-! ### Why a request was issued -/

/-- What allowed a request lies before it. -/
def Explained (P : List (Event S) → S.Request → Prop) (h : List (Event S)) : Prop :=
  ∀ e ∈ h, ∃ earlier, P earlier e.request ∧ ∀ e' ∈ earlier, e' ∈ h ∧ e'.time < e.time

theorem Explained.cons {P : List (Event S) → S.Request → Prop} {h : List (Event S)} {e : Event S}
    (explained : Explained P h) (allowed : P h e.request) (past : ∀ e' ∈ h, e'.time < e.time) :
    Explained P (e :: h) := by
  intro e' mem
  rcases List.mem_cons.mp mem with rfl | old
  · exact ⟨h, allowed, fun e' seen => ⟨List.mem_cons_of_mem _ seen, past e' seen⟩⟩
  · obtain ⟨earlier, reason, before⟩ := explained e' old
    exact ⟨earlier, reason, fun e'' seen =>
      ⟨List.mem_cons_of_mem _ (before e'' seen).1, (before e'' seen).2⟩⟩

/-- Every request of every thread is explained by what the thread saw before it. -/
theorem Reaches.explained {P : Nat → List (Event S) → S.Request → Prop}
    {Q : Nat → List (Event S) → Except ε α → Prop} (quiet : first.events = [])
    (keeps : KeepsProtocol P Q first) (reach : Reaches M C first pool) :
    ∀ (i : Nat) thread, pool.threads[i]? = some thread → Explained (P i) thread.history := by
  induction reach with
  | start =>
      intro i thread found e mem
      have happened : e ∈ first.events := mem_events.mpr ⟨i, thread, found, mem⟩
      rw [quiet] at happened
      cases happened
  | step before _ moved ih =>
      obtain ⟨h, r, next, found, -, rfl⟩ := (step_eq_some_iff M).mp moved
      intro j thread there
      rcases advance_threads_cases found there with ⟨-, old⟩ | ⟨rfl, rfl⟩
      · exact ih j thread old
      · refine (ih j _ found).cons (before.keepsProtocol keeps _ _ found).1 fun e' seen => ?_
        exact before.past quiet e' (history_happened found e' seen)

/-! ### Where an answer comes from -/

section Memory

variable {Fact : Type} {I : σ → Prop} {now : σ → Nat} {holds : σ → Fact → Prop}
  {made shows : Event S → Fact → Prop} {asks : Event S → Prop}

/-- What the state holds was made, and what replies have shown was made before. -/
structure Traced (I : σ → Prop) (now : σ → Nat) (holds : σ → Fact → Prop)
    (made shows : Event S → Fact → Prop) (asks : Event S → Prop) (pool : Pool S ε α σ) : Prop where
  inv : I pool.world
  clock : now pool.world = pool.time
  held : ∀ f, holds pool.world f → ∃ e ∈ pool.events, made e f
  told : ∀ e ∈ pool.events, asks e →
    ∃ f, shows e f ∧ ∃ e₀ ∈ pool.events, made e₀ f ∧ e₀.time < e.time

theorem Traced.advance (memory : M.Memory I now holds made shows asks)
    (traced : Traced I now holds made shows asks pool)
    (past : ∀ e ∈ pool.events, e.time < pool.time) {i : Nat} {h : List (Event S)} {r : S.Request}
    {next : S.Reply r → Program S ε α} (found : pool.threads[i]? = some ⟨h, .request r next⟩) :
    Traced I now holds made shows asks (pool.advance M i h r next) := by
  have kept : ∀ {e}, e ∈ pool.events → e ∈ (pool.advance M i h r next).events :=
    fun old => (mem_events_advance found).mpr (.inr old)
  have new : (⟨pool.time, r, (M.exec r pool.world).1⟩ : Event S) ∈
      (pool.advance M i h r next).events := (mem_events_advance found).mpr (.inl rfl)
  refine ⟨memory.keeps r _ traced.inv, ?_, fun f holds => ?_, fun e happened asked => ?_⟩
  · exact (memory.ticks r _).trans (congrArg (· + 1) traced.clock)
  · rcases memory.made r _ f traced.inv holds with old | fresh
    · obtain ⟨e, happened, origin⟩ := traced.held f old
      exact ⟨e, kept happened, origin⟩
    · rw [traced.clock] at fresh
      exact ⟨_, new, fresh⟩
  · rcases (mem_events_advance found).mp happened with rfl | old
    · rw [← traced.clock] at asked
      obtain ⟨f, holds, shown⟩ := memory.shown r _ traced.inv asked
      rw [traced.clock] at shown
      obtain ⟨e₀, made, origin⟩ := traced.held f holds
      exact ⟨f, shown, e₀, kept made, origin, past e₀ made⟩
    · obtain ⟨f, shown, e₀, made, origin, earlier⟩ := traced.told e old asked
      exact ⟨f, shown, e₀, kept made, origin, earlier⟩

/-- Whatever a reply shows, some thread has made at an earlier time. -/
theorem Reaches.traced (memory : M.Memory I now holds made shows asks) (quiet : first.events = [])
    (inv : I first.world) (clock : now first.world = first.time)
    (blank : ∀ f, ¬ holds first.world f) (reach : Reaches M C first pool) :
    Traced I now holds made shows asks pool := by
  induction reach with
  | start =>
      refine ⟨inv, clock, fun f holds => absurd holds (blank f), fun e happened => ?_⟩
      rw [quiet] at happened
      cases happened
  | step before _ moved ih =>
      obtain ⟨h, r, next, found, -, rfl⟩ := (step_eq_some_iff M).mp moved
      exact ih.advance memory (before.past quiet) found

end Memory

end Pool

end Lib
