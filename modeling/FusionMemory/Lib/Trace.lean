import Mathlib.Data.List.Basic

/-!
Step systems and what they report.

A system takes labelled steps; a label names everything outside the system that the
step depends on, so a step is a partial function. Each step reports what happened in
it, and a run collects the reports, earliest first: statements about the history of
a run are statements about its report, and states stay free of ghost fields.

`Run` takes a condition on steps, given as a predicate on the state and the report
before the step and on its label. `Run.invariant` is the proof rule, `Run.of_exec`
turns a computed run into one. `serveAll` is the simple case, a service that is called
by one caller; `serveAll_simulates` compares two of them.
-/

namespace Lib

/-- A system over states `σ`, labels `α` and reports `β`. -/
structure StepSystem (σ α β : Type) where
  step : σ → α → Option (σ × List β)

namespace StepSystem

variable {σ α β : Type} (T : StepSystem σ α β)

/-- The runs whose steps all meet the condition `C`: the labels taken, the state reached
and the report. -/
inductive Run (C : σ → List β → α → Prop) (first : σ) : List α → σ → List β → Prop where
  | start : Run C first [] first []
  | step {labels : List α} {s s' : σ} {report now : List β} {a : α} :
      Run C first labels s report → C s report a → T.step s a = some (s', now) →
      Run C first (labels ++ [a]) s' (report ++ now)

/-- No condition on steps. -/
def Always : σ → List β → α → Prop := fun _ _ _ => True

variable {T} {C C' : σ → List β → α → Prop} {first s : σ} {labels : List α} {report : List β}

theorem Run.mono (weaken : ∀ s report a, C s report a → C' s report a)
    (run : T.Run C first labels s report) : T.Run C' first labels s report := by
  induction run with
  | start => exact .start
  | step _ cond moved ih => exact .step ih (weaken _ _ _ cond) moved

theorem Run.always (run : T.Run C first labels s report) : T.Run Always first labels s report :=
  run.mono fun _ _ _ _ => trivial

/-- Invariants of runs: a step may be assumed to meet the condition. -/
theorem Run.invariant {I : σ → List β → Prop} (init : I first [])
    (preserved : ∀ s report a s' now, I s report → C s report a → T.step s a = some (s', now) →
      I s' (report ++ now))
    (run : T.Run C first labels s report) : I s report := by
  induction run with
  | start => exact init
  | step _ cond moved ih => exact preserved _ _ _ _ _ ih cond moved

/-- Another condition follows where every state of the run satisfies an invariant. -/
theorem Run.mono_of_invariant {I : σ → List β → Prop} (init : I first [])
    (preserved : ∀ s report a s' now, I s report → C s report a → T.step s a = some (s', now) →
      I s' (report ++ now))
    (weaken : ∀ s report a s' now, I s report → C s report a → T.step s a = some (s', now) →
      C' s report a)
    (run : T.Run C first labels s report) : T.Run C' first labels s report := by
  induction run with
  | start => exact .start
  | step before cond moved ih =>
      exact .step ih (weaken _ _ _ _ _ (before.invariant init preserved) cond moved) moved

/-- Runs on labels that all satisfy `p`. -/
theorem Run.of_labels {p : α → Prop} (all : ∀ a ∈ labels, p a) (run : T.Run C first labels s report) :
    T.Run (fun s report a => C s report a ∧ p a) first labels s report := by
  induction run with
  | start => exact .start
  | step _ cond moved ih =>
      refine .step (ih fun a mem => all a (List.mem_append_left _ mem)) ⟨cond, ?_⟩ moved
      exact all _ (List.mem_append_right _ List.mem_cons_self)

/-! ### Computing runs -/

variable (T) in
/-- Take the labelled steps, each checked by `ok`. -/
def exec (ok : σ → List β → α → Bool) : List α → σ → List β → Option (σ × List β)
  | [], s, report => some (s, report)
  | a :: rest, s, report =>
      if ok s report a then
        match T.step s a with
        | some (s', now) => exec ok rest s' (report ++ now)
        | none => none
      else none

theorem Run.exec_append {ok : σ → List β → α → Bool} (meets : ∀ s report a, ok s report a = true →
      C s report a) {rest : List α} {s' : σ} {report' : List β}
    (run : T.Run C first labels s report) (later : T.exec ok rest s report = some (s', report')) :
    T.Run C first (labels ++ rest) s' report' := by
  induction rest generalizing labels s report with
  | nil =>
      cases later
      rw [List.append_nil]
      exact run
  | cons a rest ih =>
      unfold exec at later
      split_ifs at later with checked
      cases moved : T.step s a with
      | none =>
          rw [moved] at later
          cases later
      | some next =>
          rw [moved] at later
          have further := ih (run.step (meets _ _ _ checked) moved) later
          rwa [List.append_assoc] at further

/-- A computed run is a run. -/
theorem Run.of_exec {ok : σ → List β → α → Bool} (meets : ∀ s report a, ok s report a = true →
      C s report a) (computed : T.exec ok labels first [] = some (s, report)) :
    T.Run C first labels s report := by
  simpa using Run.exec_append meets (.start : T.Run C first [] first []) computed

end StepSystem

/-! ### The past -/

section Past

variable {β : Type}

/-- At some point of the history there was an event with `P`, and none with `Q` since then. -/
def Since (P Q : β → Prop) (history : List β) : Prop :=
  ∃ before e after, history = before ++ e :: after ∧ P e ∧ ∀ e' ∈ after, ¬ Q e'

variable {P Q : β → Prop} {history : List β} {e : β}

theorem not_since_nil : ¬ Since P Q [] := by
  rintro ⟨before, e, after, none, -⟩
  cases before <;> cases none

theorem since_concat : Since P Q (history ++ [e]) ↔ P e ∨ Since P Q history ∧ ¬ Q e := by
  constructor
  · rintro ⟨before, e₀, after, same, holds, none⟩
    rcases List.eq_nil_or_concat' after with rfl | ⟨rest, last, rfl⟩
    · obtain ⟨-, itself⟩ := List.append_inj' same rfl
      cases itself
      exact .inl holds
    · rw [← List.cons_append, ← List.append_assoc] at same
      obtain ⟨rfl, itself⟩ := List.append_inj' same rfl
      cases itself
      refine .inr ⟨⟨before, e₀, rest, rfl, holds, fun e' mem => none e' ?_⟩, none e ?_⟩
      · exact List.mem_append_left _ mem
      · exact List.mem_append_right _ List.mem_cons_self
  · rintro (holds | ⟨⟨before, e₀, after, rfl, holds, none⟩, notQ⟩)
    · exact ⟨history, e, [], rfl, holds, fun _ mem => by cases mem⟩
    · refine ⟨before, e₀, after ++ [e], by simp, holds, fun e' mem => ?_⟩
      rcases List.mem_append.mp mem with old | new
      · exact none e' old
      · rw [List.mem_singleton.mp new]
        exact notQ

/-- The event is one of the history. -/
theorem Since.exists_mem (since : Since P Q history) : ∃ e ∈ history, P e := by
  obtain ⟨before, e, after, rfl, holds, -⟩ := since
  exact ⟨e, List.mem_append_right _ List.mem_cons_self, holds⟩

end Past

/-! ### Services -/

section Services

variable {σ σ' C R : Type}

/-- The replies of a service to its calls, and the state that they leave. -/
def serveAll (serve : C → σ → R × σ) : List C → σ → List R × σ
  | [], s => ([], s)
  | call :: calls, s =>
      let (reply, s) := serve call s
      let (replies, s) := serveAll serve calls s
      (reply :: replies, s)

/-- A service that replies as another does, call by call, cannot be told from it. -/
theorem serveAll_simulates {serve : C → σ → R × σ} {serve' : C → σ' → R × σ'} {Rel : σ → σ' → Prop}
    (step : ∀ call s s', Rel s s' →
      (serve call s).1 = (serve' call s').1 ∧ Rel (serve call s).2 (serve' call s').2)
    (calls : List C) {s : σ} {s' : σ'} (related : Rel s s') :
    (serveAll serve calls s).1 = (serveAll serve' calls s').1 ∧
      Rel (serveAll serve calls s).2 (serveAll serve' calls s').2 := by
  induction calls generalizing s s' with
  | nil => exact ⟨rfl, related⟩
  | cons call calls ih =>
      obtain ⟨reply, related'⟩ := step call s s' related
      obtain ⟨replies, related''⟩ := ih related'
      exact ⟨congrArg₂ List.cons reply replies, related''⟩

end Services

end Lib
