import FusionMemory.Lib.Interference

/-!
Programs that are cut off.

A program without a transaction leaves the state of the requests it got to. `cut` is that state
after a number of requests, and `cuts` the one that a sequence of runs leaves, each cut off and
started again from the beginning.

What a program does among others it also does alone, cut off or not (`Among.cut`, `Among.run`),
where each of its requests meets the condition that runs are assumed to meet (`Checked`). A
machine over another one (`Covers`) has the cut runs of the other.
-/

namespace Lib

variable {S : Signature} {ε α β σ σ' : Type}

namespace Program

section Cut

variable (M : Machine S σ)

/-- The state that is left when a run is cut off after `k` requests. -/
def cut : Nat → Program S ε α → σ → σ
  | 0, _, s => s
  | _ + 1, .done _, s => s
  | _ + 1, .fail _, s => s
  | k + 1, .request r next, s => cut k (next (M.exec r s).1) (M.exec r s).2

/-- Runs from the beginning, one after the other, each cut off. -/
def cuts (p : Program S ε α) (ks : List Nat) (s : σ) : σ := ks.foldl (fun s k => p.cut M k s) s

@[simp] theorem cut_done (k : Nat) (a : α) (s : σ) : cut M k (.done a : Program S ε α) s = s := by
  cases k with
  | zero => rfl
  | succ k => rfl

@[simp] theorem cut_fail (k : Nat) (e : ε) (s : σ) : cut M k (.fail e : Program S ε α) s = s := by
  cases k with
  | zero => rfl
  | succ k => rfl

/-- A run that is not cut off. -/
theorem exists_cut_eq_run (p : Program S ε α) (s : σ) : ∃ k, p.cut M k s = (run M p s).2 := by
  induction p generalizing s with
  | done a => exact ⟨0, rfl⟩
  | fail e => exact ⟨0, rfl⟩
  | request r next ih =>
      obtain ⟨k, same⟩ := ih (M.exec r s).1 (M.exec r s).2
      exact ⟨k + 1, same⟩

variable {M}

/-- What each cut run keeps, a sequence of them keeps. -/
theorem cuts_induction {I : σ → Prop} {p : Program S ε α} (step : ∀ k s, I s → I (p.cut M k s))
    (ks : List Nat) {s : σ} (start : I s) : I (p.cuts M ks s) := by
  induction ks generalizing s with
  | nil => exact start
  | cons k rest ih => exact ih (step k s start)

/-- Frame rule: a preorder that every allowed request respects relates the states before and
after a cut run. -/
theorem Only.cut {P : S.Request → Prop} {R : σ → σ → Prop} {p : Program S ε α} (only : Only P p)
    (refl : ∀ s, R s s) (trans : ∀ {s s' s''}, R s s' → R s' s'' → R s s'')
    (step : ∀ r s, P r → R s (M.exec r s).2) (k : Nat) (s : σ) : R s (p.cut M k s) := by
  induction p generalizing k s with
  | done a =>
      rw [cut_done]
      exact refl s
  | fail e =>
      rw [cut_fail]
      exact refl s
  | request r next ih =>
      cases k with
      | zero => exact refl s
      | succ k => exact trans (step r s only.1) (ih _ (only.2 _) k _)

theorem Only.forM {P : S.Request → Prop} {f : β → Program S ε PUnit} (xs : List β)
    (step : ∀ x ∈ xs, Only P (f x)) : Only P (xs.forM f) := by
  induction xs with
  | nil => trivial
  | cons x rest ih =>
      change Only P (f x >>= fun _ => rest.forM f)
      exact (step x List.mem_cons_self).bind fun _ =>
        ih fun y mem => step y (List.mem_cons_of_mem _ mem)

end Cut

/-! ### Alone -/

section Alone

variable (M : Machine S σ) (C : σ → S.Request → Prop)

/-- Each request of a run of `p` from `s` meets `C`. -/
def Checked : Program S ε α → σ → Prop
  | .done _, _ => True
  | .fail _, _ => True
  | .request r next, s => C s r ∧ Checked (next (M.exec r s).1) (M.exec r s).2

variable {M C}

theorem Checked.bind {p : Program S ε α} {k : α → Program S ε β} {s : σ} (first : Checked M C p s)
    (rest : ∀ a s', Checked M C (k a) s') : Checked M C (p >>= k) s := by
  induction p generalizing s with
  | done a => exact rest a s
  | fail e => trivial
  | request r next ih => exact ⟨first.1, ih _ first.2⟩

theorem Checked.forM {f : β → Program S ε PUnit} (xs : List β)
    (step : ∀ x ∈ xs, ∀ s, Checked M C (f x) s) : ∀ s, Checked M C (xs.forM f) s := by
  induction xs with
  | nil => exact fun _ => trivial
  | cons x rest ih =>
      intro s
      change Checked M C (f x >>= fun _ => rest.forM f) s
      exact (step x List.mem_cons_self s).bind fun _ s' =>
        ih (fun y mem => step y (List.mem_cons_of_mem _ mem)) s'

/-- Requests that meet the condition in any state. -/
theorem Only.checked {P : S.Request → Prop} {p : Program S ε α} (only : Only P p)
    (meets : ∀ r s, P r → C s r) (s : σ) : Checked M C p s := by
  induction p generalizing s with
  | done a => trivial
  | fail e => trivial
  | request r next ih => exact ⟨meets r s only.1, ih _ (only.2 _) _⟩

variable {le : σ → σ → Prop} {Q : σ → Except ε α → Prop} {p : Program S ε α} {s : σ}

/-- A program that keeps to `le` among others has kept to it wherever it is cut off. -/
theorem Among.cut (refl : ∀ s, le s s) (trans : ∀ a b c, le a b → le b c → le a c)
    (among : Among M le C Q s p) (checked : Checked M C p s) (k : Nat) : le s (p.cut M k s) := by
  induction p generalizing k s with
  | done a =>
      rw [cut_done]
      exact refl s
  | fail e =>
      rw [cut_fail]
      exact refl s
  | request r next ih =>
      obtain ⟨moves, after⟩ := among s (refl s) checked.1
      cases k with
      | zero => exact refl s
      | succ k => exact trans _ _ _ moves (ih _ after checked.2 k)

theorem Among.run (refl : ∀ s, le s s) (among : Among M le C Q s p) (checked : Checked M C p s) :
    Q (run M p s).2 (run M p s).1 := by
  induction p generalizing s with
  | done a => exact among s (refl s)
  | fail e => exact among s (refl s)
  | request r next ih => exact ih _ (among s (refl s) checked.1).2 checked.2

end Alone

/-! ### A machine over another one -/

section Covers

/-- `M` answers as `M'` does on what `view` sees, and moves it as `M'` does. -/
def Covers (M : Machine S σ) (M' : Machine S σ') (view : σ → σ') : Prop :=
  ∀ r s, M'.exec r (view s) = ((M.exec r s).1, view (M.exec r s).2)

variable {M : Machine S σ} {M' : Machine S σ'} {view : σ → σ'}

theorem view_cut (covers : Covers M M' view) (p : Program S ε α) (k : Nat) (s : σ) :
    view (p.cut M k s) = p.cut M' k (view s) := by
  induction p generalizing k s with
  | done a => rw [cut_done, cut_done]
  | fail e => rw [cut_fail, cut_fail]
  | request r next ih =>
      cases k with
      | zero => rfl
      | succ k =>
          change _ = (next (M'.exec r (view s)).1).cut M' k (M'.exec r (view s)).2
          rw [covers]
          exact ih _ k _

theorem run_view (covers : Covers M M' view) (p : Program S ε α) (s : σ) :
    run M' p (view s) = ((run M p s).1, view (run M p s).2) := by
  induction p generalizing s with
  | done a => rfl
  | fail e => rfl
  | request r next ih =>
      rw [run_request, covers]
      exact ih _ _

end Covers

end Program

end Lib
