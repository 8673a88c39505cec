import Mathlib.Data.List.Basic

/-!
Programs over atomic requests.

A program is a finite tree of requests: each request names one atomic action of
its environment and resumes on the reply. `Machine` gives requests a meaning on
a state, `run` executes a program alone, and the rules below reason about it:

* `run_bind`, `run_perform` — execution is compositional;
* `Triple` and `Triple.foldlM` — partial-correctness triples with an invariant
  rule for loops over lists;
* `Obeys` — what a program may request given the requests and replies it has
  seen, whatever its environment answers. It says nothing about a machine, so it
  also holds of a program that is interleaved with others.
-/

namespace Lib

/-- The requests of an environment, and what it replies to each. -/
structure Signature where
  Request : Type
  Reply : Request → Type

/-- A program that returns an `α`, or stops early with an `ε`. -/
inductive Program (S : Signature) (ε α : Type) : Type where
  | done (value : α)
  | fail (error : ε)
  | request (r : S.Request) (next : S.Reply r → Program S ε α)

/-- One request together with the reply it got at time `time`. -/
structure Event (S : Signature) where
  time : Nat
  request : S.Request
  reply : S.Reply request

/-- The meaning of requests on a state. `ready` tells whether a request can be
served now; a request for a lock that is held cannot. -/
structure Machine (S : Signature) (σ : Type) where
  ready : S.Request → σ → Bool
  exec : (r : S.Request) → σ → S.Reply r × σ

namespace Program

variable {S : Signature} {ε ε' α β γ σ : Type}

def bind (p : Program S ε α) (k : α → Program S ε β) : Program S ε β :=
  match p with
  | .done a => k a
  | .fail e => .fail e
  | .request r next => .request r fun reply => (next reply).bind k

instance : Monad (Program S ε) where
  pure := .done
  bind := bind

@[simp] theorem pure_def (a : α) : (pure a : Program S ε α) = .done a := rfl

@[simp] theorem done_bind (a : α) (k : α → Program S ε β) : (Program.done a >>= k) = k a := rfl

@[simp] theorem fail_bind (e : ε) (k : α → Program S ε β) :
    ((Program.fail e : Program S ε α) >>= k) = .fail e := rfl

@[simp] theorem request_bind (r : S.Request) (next : S.Reply r → Program S ε α)
    (k : α → Program S ε β) :
    (Program.request r next >>= k) = .request r fun reply => next reply >>= k := rfl

theorem bind_done (p : Program S ε α) : p >>= Program.done = p := by
  induction p with
  | done a => rfl
  | fail e => rfl
  | request r next ih => exact congrArg (Program.request r) (funext ih)

theorem bind_assoc (p : Program S ε α) (k : α → Program S ε β) (l : β → Program S ε γ) :
    (p >>= k) >>= l = p >>= fun a => k a >>= l := by
  induction p with
  | done a => rfl
  | fail e => rfl
  | request r next ih => exact congrArg (Program.request r) (funext ih)

instance : LawfulMonad (Program S ε) :=
  LawfulMonad.mk' _ (fun p => bind_done p) (fun _ _ => rfl) bind_assoc

/-- Issue one request and return its reply. -/
def perform (r : S.Request) : Program S ε (S.Reply r) := .request r .done

/-- Run `p` and hand its result, an early stop included, to what follows. -/
def attempt : Program S ε α → Program S ε' (Except ε α)
  | .done a => .done (.ok a)
  | .fail e => .done (.error e)
  | .request r next => .request r fun reply => (next reply).attempt

/-- Return a computed result, stopping early on an error. -/
def ofExcept : Except ε α → Program S ε α
  | .ok a => .done a
  | .error e => .fail e

@[simp] theorem ofExcept_ok (a : α) : (ofExcept (.ok a) : Program S ε α) = .done a := rfl

@[simp] theorem ofExcept_error (e : ε) : (ofExcept (.error e) : Program S ε α) = .fail e := rfl

/-- The value of a program that has returned. -/
def value? : Program S ε α → Option α
  | .done a => some a
  | _ => none

/-- The program has returned or stopped early. -/
def ended : Program S ε α → Bool
  | .request _ _ => false
  | _ => true

theorem value?_eq_some {p : Program S ε α} {a : α} (returned : p.value? = some a) : p = .done a := by
  cases p with
  | done b => exact congrArg Program.done (Option.some.inj returned)
  | fail e => cases returned
  | request r next => cases returned

/-! ### Running a program alone -/

variable (M : Machine S σ)

def run : Program S ε α → σ → Except ε α × σ
  | .done a, s => (.ok a, s)
  | .fail e, s => (.error e, s)
  | .request r next, s => run (next (M.exec r s).1) (M.exec r s).2

@[simp] theorem run_done (a : α) (s : σ) : run M (.done a : Program S ε α) s = (.ok a, s) := rfl

@[simp] theorem run_fail (e : ε) (s : σ) : run M (.fail e : Program S ε α) s = (.error e, s) := rfl

@[simp] theorem run_request (r : S.Request) (next : S.Reply r → Program S ε α) (s : σ) :
    run M (.request r next) s = run M (next (M.exec r s).1) (M.exec r s).2 := rfl

theorem run_perform (r : S.Request) (s : σ) :
    run M (perform r : Program S ε _) s = (.ok (M.exec r s).1, (M.exec r s).2) := rfl

theorem run_bind (p : Program S ε α) (k : α → Program S ε β) (s : σ) :
    run M (p >>= k) s = match run M p s with
      | (.ok a, s') => run M (k a) s'
      | (.error e, s') => (.error e, s') := by
  induction p generalizing s with
  | done a => rfl
  | fail e => rfl
  | request r next ih => exact ih _ _

theorem run_bind_ok {p : Program S ε α} {k : α → Program S ε β} {s s' : σ} {a : α}
    (h : run M p s = (.ok a, s')) : run M (p >>= k) s = run M (k a) s' := by
  rw [run_bind, h]

theorem run_bind_error {p : Program S ε α} {k : α → Program S ε β} {s s' : σ} {e : ε}
    (h : run M p s = (.error e, s')) : run M (p >>= k) s = (.error e, s') := by
  rw [run_bind, h]

/-- A run that ends well ran each part well. -/
theorem run_bind_eq_ok {p : Program S ε α} {k : α → Program S ε β} {s s' : σ} {b : β}
    (h : run M (p >>= k) s = (.ok b, s')) :
    ∃ a s₁, run M p s = (.ok a, s₁) ∧ run M (k a) s₁ = (.ok b, s') := by
  rw [run_bind] at h
  cases first : run M p s with
  | mk result s₁ =>
      rw [first] at h
      cases result with
      | ok a => exact ⟨a, s₁, rfl, h⟩
      | error e => cases h

/-- Dropping the result changes nothing of the state. -/
theorem run_discard (p : Program S ε α) (b : β) (s : σ) :
    (run M (p >>= fun _ => .done b) s).2 = (run M p s).2 := by
  rw [run_bind]
  rcases run M p s with ⟨e | a, s'⟩
  · rfl
  · rfl

/-- Relating the states before and after a sequence, however it ends. -/
theorem run_bind_rel {R : σ → σ → Prop} (trans : ∀ {s s' s''}, R s s' → R s' s'' → R s s'')
    {p : Program S ε α} {k : α → Program S ε β} {s : σ} (first : R s (run M p s).2)
    (rest : ∀ a s', run M p s = (.ok a, s') → R s' (run M (k a) s').2) :
    R s (run M (p >>= k) s).2 := by
  rw [run_bind]
  cases ran : run M p s with
  | mk result s' =>
      rw [ran] at first
      cases result with
      | ok a => exact trans first (rest a s' ran)
      | error e => exact first

/-- Relating the states before and after a loop: a preorder that every step respects. -/
theorem run_foldlM_rel {R : σ → σ → Prop} (refl : ∀ s, R s s)
    (trans : ∀ {s s' s''}, R s s' → R s' s'' → R s s'') {f : α → β → Program S ε α} (xs : List β)
    (step : ∀ b ∈ xs, ∀ acc s, R s (run M (f acc b) s).2) :
    ∀ acc s, R s (run M (xs.foldlM f acc) s).2 := by
  induction xs with
  | nil => exact fun acc s => refl s
  | cons b rest ih =>
      intro acc s
      rw [List.foldlM_cons]
      refine run_bind_rel M (R := R) trans (step b List.mem_cons_self acc s) fun acc' s' _ => ?_
      exact ih (fun b' mem => step b' (List.mem_cons_of_mem _ mem)) acc' s'

/-- A loop that maps a list: what each step keeps of the state, and says of its result. -/
theorem run_mapM_forall₂ {f : α → Program S ε β} {I : σ → Prop} {R : α → β → Prop}
    (step : ∀ a s b s', I s → run M (f a) s = (.ok b, s') → I s' ∧ R a b) :
    ∀ (xs : List α) (ys : List β) (s s' : σ), I s → run M (xs.mapM f) s = (.ok ys, s') →
      I s' ∧ List.Forall₂ R xs ys
  | [], ys, s, s', inv, h => by
      rw [List.mapM_nil] at h
      cases h
      exact ⟨inv, .nil⟩
  | a :: rest, ys, s, s', inv, h => by
      rw [List.mapM_cons] at h
      obtain ⟨b, s₁, first, h⟩ := run_bind_eq_ok M h
      obtain ⟨bs, s₂, others, h⟩ := run_bind_eq_ok M h
      cases h
      obtain ⟨inv₁, head⟩ := step a s b s₁ inv first
      obtain ⟨inv₂, tail⟩ := run_mapM_forall₂ step rest bs s₁ s' inv₁ others
      exact ⟨inv₂, .cons head tail⟩

theorem run_mapM_eq_ok {f : α → Program S ε β} {I : σ → Prop} {R : α → β → Prop}
    (step : ∀ a s b s', I s → run M (f a) s = (.ok b, s') → I s' ∧ R a b) (xs : List α)
    (ys : List β) (s s' : σ) (inv : I s) (h : run M (xs.mapM f) s = (.ok ys, s')) :
    I s' ∧ ∀ b ∈ ys, ∃ a ∈ xs, R a b := by
  obtain ⟨inv', related⟩ := run_mapM_forall₂ M step xs ys s s' inv h
  refine ⟨inv', ?_⟩
  clear h
  induction related with
  | nil => simp
  | cons head _ ih =>
      intro b mem
      rcases List.mem_cons.mp mem with rfl | mem
      · exact ⟨_, List.mem_cons_self, head⟩
      · obtain ⟨a, mem', tail⟩ := ih b mem
        exact ⟨a, List.mem_cons_of_mem _ mem', tail⟩

/-- A loop that maps a list with steps that end well. -/
theorem run_mapM_ok {f : α → Program S ε β} {g : α → β} {I : σ → Prop}
    (step : ∀ a s, I s → ∃ s', run M (f a) s = (.ok (g a), s') ∧ I s') :
    ∀ (xs : List α) (s : σ), I s → ∃ s', run M (xs.mapM f) s = (.ok (xs.map g), s') ∧ I s'
  | [], s, inv => ⟨s, by rw [List.mapM_nil]; rfl, inv⟩
  | a :: rest, s, inv => by
      obtain ⟨s₁, first, inv₁⟩ := step a s inv
      obtain ⟨s₂, others, inv₂⟩ := run_mapM_ok step rest s₁ inv₁
      refine ⟨s₂, ?_, inv₂⟩
      rw [List.mapM_cons, run_bind_ok M first, run_bind_ok M others]
      rfl

/-- A loop whose steps end well ends well. -/
theorem run_mapM_exists {f : α → Program S ε β} {I : σ → Prop}
    (step : ∀ a s, I s → ∃ b s', run M (f a) s = (.ok b, s') ∧ I s') :
    ∀ (xs : List α) (s : σ), I s → ∃ ys s', run M (xs.mapM f) s = (.ok ys, s') ∧ I s'
  | [], s, inv => ⟨[], s, by rw [List.mapM_nil]; rfl, inv⟩
  | a :: rest, s, inv => by
      obtain ⟨b, s₁, first, inv₁⟩ := step a s inv
      obtain ⟨bs, s₂, others, inv₂⟩ := run_mapM_exists step rest s₁ inv₁
      refine ⟨b :: bs, s₂, ?_, inv₂⟩
      rw [List.mapM_cons, run_bind_ok M first, run_bind_ok M others]
      rfl

theorem run_attempt (p : Program S ε α) (s : σ) :
    run M (attempt p : Program S ε' _) s = (.ok (run M p s).1, (run M p s).2) := by
  induction p generalizing s with
  | done a => rfl
  | fail e => rfl
  | request r next ih => exact ih _ _

/-! ### Serving one environment from another -/

/-- Serve every request of a program by a program over other requests. -/
def through {S' : Signature} (serve : (r : S.Request) → Program S' ε (S.Reply r)) :
    Program S ε α → Program S' ε α
  | .done a => .done a
  | .fail e => .fail e
  | .request r next => (serve r).bind fun reply => (next reply).through serve

section Through

variable {S' : Signature} {serve : (r : S.Request) → Program S' ε (S.Reply r)}

theorem through_bind (p : Program S ε α) (k : α → Program S ε β) :
    (p >>= k).through serve = p.through serve >>= fun a => (k a).through serve := by
  induction p with
  | done a => rfl
  | fail e => rfl
  | request r next ih =>
      refine Eq.trans ?_ (bind_assoc (serve r) _ _).symm
      exact congrArg (serve r >>= ·) (funext ih)

@[simp] theorem through_done (a : α) :
    (Program.done a : Program S ε α).through serve = .done a := rfl

@[simp] theorem through_fail (e : ε) :
    (Program.fail e : Program S ε α).through serve = .fail e := rfl

theorem through_perform (r : S.Request) :
    (perform r : Program S ε _).through serve = serve r := bind_done (serve r)

/-- A machine that answers as the serving programs do runs the same. -/
theorem run_through {M : Machine S σ} {M' : Machine S' σ}
    (answers : ∀ r s, run M' (serve r) s = (.ok (M.exec r s).1, (M.exec r s).2))
    (p : Program S ε α) (s : σ) : run M' (p.through serve) s = run M p s := by
  induction p generalizing s with
  | done a => rfl
  | fail e => rfl
  | request r next ih =>
      refine Eq.trans (run_bind_ok M' (answers r s)) ?_
      exact ih _ _

end Through

/-- Handing a result on and returning it again. -/
theorem attempt_bind_ofExcept (p : Program S ε α) :
    ((p.attempt : Program S ε (Except ε α)) >>= ofExcept) = p := by
  induction p with
  | done a => rfl
  | fail e => rfl
  | request r next ih => exact congrArg (Program.request r) (funext ih)

/-! ### Triples -/

/-- From a state in `P`, running `p` ends with a result and a state in `Q`. -/
def Triple (P : σ → Prop) (p : Program S ε α) (Q : Except ε α → σ → Prop) : Prop :=
  ∀ s, P s → Q (run M p s).1 (run M p s).2

namespace Triple

variable {M} {P P' : σ → Prop} {Q Q' : Except ε α → σ → Prop}

theorem done {a : α} (h : ∀ s, P s → Q (.ok a) s) : Triple M P (.done a) Q := h

theorem fail {e : ε} (h : ∀ s, P s → Q (.error e) s) : Triple M P (.fail e) Q := h

theorem request {r : S.Request} {next : S.Reply r → Program S ε α}
    {R : S.Reply r → σ → Prop} (step : ∀ s, P s → R (M.exec r s).1 (M.exec r s).2)
    (rest : ∀ reply, Triple M (R reply) (next reply) Q) : Triple M P (.request r next) Q :=
  fun s hs => rest _ _ (step s hs)

theorem weaken {p : Program S ε α} (pre : ∀ s, P' s → P s) (h : Triple M P p Q)
    (post : ∀ result s, Q result s → Q' result s) : Triple M P' p Q' :=
  fun s hs => post _ _ (h s (pre s hs))

/-- Sequencing: `p` hands over a state in `R a`, or stops with the postcondition
already established. -/
theorem bind {p : Program S ε α} {k : α → Program S ε β} {R : α → σ → Prop}
    {Q : Except ε β → σ → Prop}
    (first : Triple M P p fun result s => match result with
      | .ok a => R a s
      | .error e => Q (.error e) s)
    (rest : ∀ a, Triple M (R a) (k a) Q) : Triple M P (p >>= k) Q := by
  intro s hs
  have h := first s hs
  rw [run_bind]
  generalize run M p s = out at h
  obtain ⟨result, s'⟩ := out
  cases result with
  | ok a => exact rest a s' h
  | error e => exact h

/-- Loops over a list: an invariant indexed by the elements still to come. -/
theorem foldlM {I : List β → α → σ → Prop} {E : ε → σ → Prop} {f : α → β → Program S ε α}
    (step : ∀ acc b rest, Triple M (I (b :: rest) acc) (f acc b) fun result s =>
      match result with
      | .ok acc' => I rest acc' s
      | .error e => E e s) :
    ∀ (xs : List β) (acc : α), Triple M (I xs acc) (xs.foldlM f acc) fun result s =>
      match result with
      | .ok acc' => I [] acc' s
      | .error e => E e s
  | [], acc => fun _ hs => hs
  | b :: rest, acc => by
      rw [List.foldlM_cons]
      exact bind (step acc b rest) fun acc' => foldlM step rest acc'

end Triple

/-! ### Which requests a program may make -/

/-- Whatever the replies, every request `p` makes satisfies `P`. -/
def Only (P : S.Request → Prop) : Program S ε α → Prop
  | .done _ => True
  | .fail _ => True
  | .request r next => P r ∧ ∀ reply, Only P (next reply)

namespace Only

variable {P P' : S.Request → Prop} {p : Program S ε α}

theorem mono (weaken : ∀ r, P r → P' r) (only : Only P p) : Only P' p := by
  induction p with
  | done a => trivial
  | fail e => trivial
  | request r next ih => exact ⟨weaken r only.1, fun reply => ih reply (only.2 reply)⟩

theorem perform {r : S.Request} (allowed : P r) : Only P (perform r : Program S ε _) :=
  ⟨allowed, fun _ => trivial⟩

theorem ofExcept (result : Except ε α) : Only P (ofExcept result : Program S ε α) := by
  cases result <;> trivial

theorem bind {k : α → Program S ε β} (first : Only P p) (rest : ∀ a, Only P (k a)) :
    Only P (p >>= k) := by
  induction p with
  | done a => exact rest a
  | fail e => trivial
  | request r next ih => exact ⟨first.1, fun reply => ih reply (first.2 reply)⟩

theorem attempt (only : Only P p) : Only P (p.attempt : Program S ε' _) := by
  induction p with
  | done a => trivial
  | fail e => trivial
  | request r next ih => exact ⟨only.1, fun reply => ih reply (only.2 reply)⟩

theorem foldlM {f : α → β → Program S ε α} (xs : List β) (step : ∀ b ∈ xs, ∀ acc, Only P (f acc b)) :
    ∀ acc, Only P (xs.foldlM f acc) := by
  induction xs with
  | nil => exact fun _ => trivial
  | cons b rest ih =>
      intro acc
      rw [List.foldlM_cons]
      exact bind (step b List.mem_cons_self acc) fun acc' =>
        ih (fun b' mem => step b' (List.mem_cons_of_mem _ mem)) acc'

theorem mapM {f : β → Program S ε α} (xs : List β) (step : ∀ b ∈ xs, Only P (f b)) :
    Only P (xs.mapM f) := by
  induction xs with
  | nil => exact trivial
  | cons b rest ih =>
      rw [List.mapM_cons]
      exact bind (step b List.mem_cons_self) fun a =>
        bind (ih fun b' mem => step b' (List.mem_cons_of_mem _ mem)) fun _ => trivial

/-- Frame rule: a preorder on states that every allowed request respects, however it
is answered, relates the states before and after a run. -/
theorem run {M : Machine S σ} {R : σ → σ → Prop} (only : Only P p) (refl : ∀ s, R s s)
    (trans : ∀ {s s' s''}, R s s' → R s' s'' → R s s'')
    (step : ∀ r s, P r → R s (M.exec r s).2) (s : σ) : R s (run M p s).2 := by
  induction p generalizing s with
  | done a => exact refl s
  | fail e => exact refl s
  | request r next ih => exact trans (step r s only.1) (ih _ (only.2 _) _)

end Only

/-! ### What a program may request after what it has seen -/

/-- A postcondition for either way to end. -/
def Ends (R : α → Prop) (E : ε → Prop) : Except ε α → Prop
  | .ok a => R a
  | .error e => E e

/-- Every request `p` issues satisfies `P` at the history of requests and replies
seen before it (newest first), and its result satisfies `Q` at the final one,
whatever the replies are. -/
def Obeys (P : List (Event S) → S.Request → Prop) (Q : List (Event S) → Except ε α → Prop) :
    List (Event S) → Program S ε α → Prop
  | h, .done a => Q h (.ok a)
  | h, .fail e => Q h (.error e)
  | h, .request r next => P h r ∧ ∀ time reply, Obeys P Q (⟨time, r, reply⟩ :: h) (next reply)

namespace Obeys

variable {P P' : List (Event S) → S.Request → Prop} {h : List (Event S)}

theorem mono {Q Q' : List (Event S) → Except ε α → Prop} {p : Program S ε α}
    (request : ∀ h r, P h r → P' h r) (result : ∀ h a, Q h a → Q' h a)
    (obeys : Obeys P Q h p) : Obeys P' Q' h p := by
  induction p generalizing h with
  | done a => exact result _ _ obeys
  | fail e => exact result _ _ obeys
  | request r next ih => exact ⟨request _ _ obeys.1, fun t reply => ih reply (obeys.2 t reply)⟩

theorem bind {Q : List (Event S) → Except ε β → Prop} {R : List (Event S) → α → Prop}
    {p : Program S ε α} {k : α → Program S ε β}
    (first : Obeys P (fun h => Ends (R h) fun e => Q h (.error e)) h p)
    (rest : ∀ h a, R h a → Obeys P Q h (k a)) : Obeys P Q h (p >>= k) := by
  induction p generalizing h with
  | done a => exact rest _ _ first
  | fail e => exact first
  | request r next ih => exact ⟨first.1, fun t reply => ih reply (first.2 t reply)⟩

/-- Where every request is allowed, now and after any further events, all programs are. -/
theorem unrestricted {I : List (Event S) → Prop} (stable : ∀ h e, I h → I (e :: h))
    (allows : ∀ h r, I h → P h r) (start : I h) (p : Program S ε α) :
    Obeys P (fun h _ => I h) h p := by
  induction p generalizing h with
  | done a => exact start
  | fail e => exact start
  | request r next ih => exact ⟨allows h r start, fun t reply => ih reply (stable h _ start)⟩

/-- Each request of the program is allowed at some history. -/
theorem only {Q : List (Event S) → Except ε α → Prop} {p : Program S ε α} (obeys : Obeys P Q h p) :
    Only (fun r => ∃ h, P h r) p := by
  induction p generalizing h with
  | done a => trivial
  | fail e => trivial
  | request r next ih => exact ⟨⟨h, obeys.1⟩, fun reply => ih reply (obeys.2 0 reply)⟩

/-- Requests that are allowed wherever `I` holds, by a program that keeps `I`. -/
theorem ofOnly {P' : S.Request → Prop} {I : List (Event S) → Prop} {p : Program S ε α}
    (only : Only P' p) (stable : ∀ h e, I h → I (e :: h)) (allows : ∀ h r, I h → P' r → P h r)
    (start : I h) : Obeys P (fun h _ => I h) h p := by
  induction p generalizing h with
  | done a => exact start
  | fail e => exact start
  | request r next ih =>
      exact ⟨allows h r start only.1, fun t reply => ih reply (only.2 reply) (stable h _ start)⟩

theorem perform {r : S.Request} {Q : List (Event S) → Except ε (S.Reply r) → Prop} (allowed : P h r)
    (post : ∀ t reply, Q (⟨t, r, reply⟩ :: h) (.ok reply)) :
    Obeys P Q h (perform r : Program S ε _) := ⟨allowed, post⟩

/-- A computed result asks for nothing. -/
theorem ofExcept {Q : List (Event S) → Except ε α → Prop} {result : Except ε α}
    (post : Q h result) : Obeys P Q h (Program.ofExcept result) := by
  cases result with
  | ok a => exact post
  | error e => exact post

theorem attempt {Q : List (Event S) → Except ε α → Prop} {p : Program S ε α}
    {Q' : List (Event S) → Except ε' (Except ε α) → Prop}
    (result : ∀ h a, Q h a → Q' h (.ok a)) (obeys : Obeys P Q h p) :
    Obeys P Q' h (p.attempt : Program S ε' _) := by
  induction p generalizing h with
  | done a => exact result _ _ obeys
  | fail e => exact result _ _ obeys
  | request r next ih => exact ⟨obeys.1, fun t reply => ih reply (obeys.2 t reply)⟩

/-- Loops over a list, with an invariant on the history and the accumulator. -/
theorem foldlM {I : List (Event S) → α → Prop} {E : List (Event S) → ε → Prop}
    {f : α → β → Program S ε α} (xs : List β)
    (step : ∀ b ∈ xs, ∀ h acc, I h acc → Obeys P (fun h => Ends (I h) (E h)) h (f acc b)) {acc : α}
    (start : I h acc) : Obeys P (fun h => Ends (I h) (E h)) h (xs.foldlM f acc) := by
  induction xs generalizing h acc with
  | nil => exact start
  | cons b rest ih =>
      rw [List.foldlM_cons]
      refine bind (step b List.mem_cons_self h acc start) fun h' acc' inv => ?_
      exact ih (fun b' mem => step b' (List.mem_cons_of_mem _ mem)) inv

/-- Serving the requests of a program by programs: `R` relates the events that the program
sees to those of the programs that serve it. -/
theorem through {S' : Signature} {serve : (r : S.Request) → Program S' ε (S.Reply r)}
    {P' : List (Event S') → S'.Request → Prop} {Q : List (Event S) → Except ε α → Prop}
    {Q' : List (Event S') → Except ε α → Prop} {R : List (Event S) → List (Event S') → Prop}
    (step : ∀ h h' r, R h h' → P h r → Obeys P' (fun h'' =>
      Ends (fun reply => ∃ time, R (⟨time, r, reply⟩ :: h) h'') fun e => Q' h'' (.error e)) h' (serve r))
    (post : ∀ h h' result, R h h' → Q h result → Q' h' result) {p : Program S ε α}
    {h' : List (Event S')} (start : R h h') (obeys : Obeys P Q h p) :
    Obeys P' Q' h' (p.through serve) := by
  induction p generalizing h h' with
  | done a => exact post _ _ _ start obeys
  | fail e => exact post _ _ _ start obeys
  | request r next ih =>
      refine bind (R := fun h'' reply => ∃ time, R (⟨time, r, reply⟩ :: h) h'')
        (step h h' r start obeys.1) fun h'' reply seen => ?_
      obtain ⟨time, related⟩ := seen
      exact ih reply related (obeys.2 time reply)

end Obeys

end Program

end Lib
