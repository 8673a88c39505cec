import Mathlib.Data.List.Induction

/-!
A scan for the best: the list is read once, and the best element so far is replaced by a better
one. Elements without a score are passed over.
-/

namespace Lib

section BestScan

variable {α β : Type} (score : α → Option β) (ge : β → β → Bool)

/-- The best so far, after one more element. -/
def keepBest (best : Option (α × β)) (x : α) : Option (α × β) :=
  match score x with
  | none => best
  | some s =>
      match best with
      | some (a, b) => if ge b s then some (a, b) else some (x, s)
      | none => some (x, s)

def bestOf (l : List α) : Option (α × β) := l.foldl (keepBest score ge) none

variable (lt : β → β → Bool)

/-- No element's score is above this one's. -/
structure IsBest (l : List α) (x : α) (s : β) : Prop where
  mem : x ∈ l
  score_eq : score x = some s
  not_lt : ∀ y ∈ l, ∀ s', score y = some s' → lt s s' = false

/-- What the scan has found after `l`. -/
def Found (l : List α) : Option (α × β) → Prop
  | none => ∀ x ∈ l, score x = none
  | some (x, s) => IsBest score lt l x s

variable {score ge lt}

theorem Found.keepBest (irrefl : ∀ a, lt a a = false)
    (trans : ∀ {a b c}, lt a b = true → lt b c = true → lt a c = true)
    (better : ∀ {x y a b}, score x = some a → score y = some b → (ge a b = false ↔ lt a b = true))
    {l : List α} {best : Option (α × β)} (found : Found score lt l best) (x : α) :
    Found score lt (l ++ [x]) (keepBest score ge best x) := by
  have member : ∀ {y}, y ∈ l ++ [x] → y ∈ l ∨ y = x := fun mem => by simpa using mem
  unfold Lib.keepBest
  cases scored : score x with
  | none =>
      cases best with
      | none =>
          intro y mem
          rcases member mem with old | rfl
          · exact found y old
          · exact scored
      | some best =>
          refine ⟨List.mem_append_left _ found.mem, found.score_eq, fun y mem s' has => ?_⟩
          rcases member mem with old | rfl
          · exact found.not_lt y old s' has
          · rw [scored] at has
            cases has
  | some s =>
      have last : x ∈ l ++ [x] := List.mem_append_right _ List.mem_cons_self
      cases best with
      | none =>
          refine ⟨last, scored, fun y mem s' has => ?_⟩
          rcases member mem with old | rfl
          · rw [found y old] at has
            cases has
          · rw [scored] at has
            cases has
            exact irrefl s
      | some best =>
          obtain ⟨a, b⟩ := best
          dsimp only
          cases kept : ge b s with
          | true =>
              refine ⟨List.mem_append_left _ found.mem, found.score_eq, fun y mem s' has => ?_⟩
              rcases member mem with old | rfl
              · exact found.not_lt y old s' has
              · rw [scored] at has
                cases has
                rw [← Bool.not_eq_true, ← better found.score_eq scored, kept]
                decide
          | false =>
              have above : lt b s = true := (better found.score_eq scored).mp kept
              refine ⟨last, scored, fun y mem s' has => ?_⟩
              rcases member mem with old | rfl
              · rw [← Bool.not_eq_true]
                intro higher
                have beaten := trans above higher
                rw [found.not_lt y old s' has] at beaten
                cases beaten
              · rw [scored] at has
                cases has
                exact irrefl s

/-- A scan of images. -/
theorem bestOf_map {γ : Type} (f : γ → α) (l : List γ) :
    bestOf score ge (l.map f) = (bestOf (fun x => score (f x)) ge l).map fun p => (f p.1, p.2) := by
  have step : ∀ (best : Option (γ × β)) (x : γ),
      keepBest score ge (best.map fun p => (f p.1, p.2)) (f x) =
        (keepBest (fun x => score (f x)) ge best x).map fun p => (f p.1, p.2) := by
    intro best x
    unfold Lib.keepBest
    dsimp only
    cases score (f x) with
    | none => rfl
    | some s =>
        cases best with
        | none => rfl
        | some best => cases kept : ge best.2 s <;> simp [kept]
  have scan : ∀ best : Option (γ × β),
      (l.map f).foldl (keepBest score ge) (best.map fun p => (f p.1, p.2)) =
        (l.foldl (keepBest (fun x => score (f x)) ge) best).map fun p => (f p.1, p.2) := by
    induction l with
    | nil => exact fun _ => rfl
    | cons x l ih =>
        intro best
        rw [List.map_cons, List.foldl_cons, List.foldl_cons, step]
        exact ih _
  exact scan none

/-- The scan finds an element of the best score, or none has one. -/
theorem found_bestOf (irrefl : ∀ a, lt a a = false)
    (trans : ∀ {a b c}, lt a b = true → lt b c = true → lt a c = true)
    (better : ∀ {x y a b}, score x = some a → score y = some b → (ge a b = false ↔ lt a b = true))
    (l : List α) : Found score lt l (bestOf score ge l) := by
  induction l using List.reverseRecOn with
  | nil => exact nofun
  | append_singleton l x ih =>
      unfold bestOf
      rw [List.foldl_append]
      exact ih.keepBest irrefl trans better x

end BestScan

end Lib
