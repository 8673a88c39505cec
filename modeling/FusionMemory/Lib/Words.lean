import Mathlib.Data.List.DropRight

/-!
Words: the runs of a text between separators, and the text with one blank between its words.

`single` is a normal form: it has the words of the text, and nothing else is left of the
separators (`words_single`).
-/

namespace Lib

section Words

variable {α : Type} (sep : α → Bool)

/-- The runs between separators, none of them empty. -/
def words (l : List α) : List (List α) := (l.splitOnP sep).filter fun w => !w.isEmpty

/-- One blank between words, and none at the ends. -/
def single (blank : α) (l : List α) : List α := [blank].intercalate (words sep l)

/-- Without the separators at its ends. -/
def trimmed (l : List α) : List α := (l.dropWhile sep).rdropWhile sep

/-- A run of characters that are no separators. -/
def IsWord (w : List α) : Prop := w ≠ [] ∧ ∀ c ∈ w, sep c = false

variable {sep} {a b l w : List α}

@[simp] theorem words_nil : words sep [] = [] := rfl

theorem words_append_cons {s : α} (separates : sep s = true) :
    words sep (a ++ s :: b) = words sep a ++ words sep b := by
  unfold words
  rw [List.splitOnP_append_cons a b separates, List.filter_append]

theorem words_cons {s : α} (separates : sep s = true) : words sep (s :: l) = words sep l :=
  words_append_cons (a := []) separates

theorem IsWord.words_eq (word : IsWord sep w) : words sep w = [w] := by
  unfold words
  rw [List.splitOnP_eq_singleton word.2]
  simp [word.1]

theorem words_append_left (blank : ∀ c ∈ a, sep c = true) : words sep (a ++ l) = words sep l := by
  induction a with
  | nil => rfl
  | cons s a ih =>
      rw [List.cons_append, words_cons (blank s List.mem_cons_self)]
      exact ih fun c mem => blank c (List.mem_cons_of_mem _ mem)

theorem words_of_blank (blank : ∀ c ∈ b, sep c = true) : words sep b = [] := by
  have none := words_append_left (l := []) blank
  rwa [List.append_nil] at none

theorem words_append_right (blank : ∀ c ∈ b, sep c = true) : words sep (l ++ b) = words sep l := by
  cases b with
  | nil => rw [List.append_nil]
  | cons s b =>
      rw [words_append_cons (blank s List.mem_cons_self), words_of_blank fun c mem =>
        blank c (List.mem_cons_of_mem _ mem), List.append_nil]

/-! ### What the words are -/

theorem flatten_splitOnP (l : List α) : (l.splitOnP sep).flatten = l.filter fun c => !sep c := by
  induction l with
  | nil => rfl
  | cons s l ih =>
      rw [List.splitOnP_cons_eq_if_modifyHead]
      cases separates : sep s with
      | true => simpa [separates] using ih
      | false =>
          obtain ⟨first, rest, parts⟩ := List.exists_cons_of_ne_nil (List.splitOnP_ne_nil sep l)
          rw [parts] at ih ⊢
          simpa [separates] using ih

/-- Together they are what is no separator. -/
theorem flatten_words (l : List α) : (words sep l).flatten = l.filter fun c => !sep c := by
  unfold words
  rw [List.flatten_filter_not_isEmpty, flatten_splitOnP]

theorem isWord_of_mem (mem : w ∈ words sep l) : IsWord sep w := by
  refine ⟨by simpa using (List.mem_filter.mp mem).2, fun c inside => ?_⟩
  have kept : c ∈ (words sep l).flatten := List.mem_flatten_of_mem mem inside
  rw [flatten_words] at kept
  simpa using (List.mem_filter.mp kept).2

theorem words_eq_nil_iff : words sep l = [] ↔ ∀ c ∈ l, sep c = true := by
  refine ⟨fun none => ?_, words_of_blank⟩
  have nothing : (words sep l).flatten = l.filter fun c => !sep c := flatten_words l
  rw [none] at nothing
  simpa using List.filter_eq_nil_iff.mp nothing.symm

/-- The words of a text whose characters are changed one by one. -/
theorem words_map {f : α → α} (keeps : ∀ c, sep (f c) = sep c) (l : List α) :
    words sep (l.map f) = (words sep l).map (List.map f) := by
  have parts : (l.map f).splitOnP sep = (l.splitOnP sep).map (List.map f) := by
    induction l with
    | nil => rfl
    | cons s l ih =>
        obtain ⟨first, rest, parts⟩ := List.exists_cons_of_ne_nil (List.splitOnP_ne_nil sep l)
        rw [List.map_cons, List.splitOnP_cons_eq_if_modifyHead, List.splitOnP_cons_eq_if_modifyHead,
          ih, keeps, parts]
        cases sep s <;> rfl
  unfold words
  rw [parts, List.filter_map]
  refine congrArg (List.map (List.map f)) (List.filter_congr fun w _ => ?_)
  cases w <;> rfl

/-! ### One blank between words -/

theorem words_intercalate {blank : α} (separates : sep blank = true) :
    ∀ {ws : List (List α)}, (∀ w ∈ ws, IsWord sep w) → words sep ([blank].intercalate ws) = ws
  | [], _ => rfl
  | [w], all => by
      rw [List.intercalate_singleton]
      exact (all w List.mem_cons_self).words_eq
  | w :: w' :: ws, all => by
      rw [List.intercalate_cons_cons, List.append_assoc, List.singleton_append,
        words_append_cons separates, (all w List.mem_cons_self).words_eq,
        words_intercalate separates fun v mem => all v (List.mem_cons_of_mem _ mem)]
      rfl

variable {blank : α} (separates : sep blank = true)
include separates

theorem words_single (l : List α) : words sep (single sep blank l) = words sep l :=
  words_intercalate separates fun _ => isWord_of_mem

theorem filter_single (l : List α) :
    (single sep blank l).filter (fun c => !sep c) = l.filter fun c => !sep c := by
  rw [← flatten_words, words_single separates, flatten_words]

theorem single_eq_iff_words (word : IsWord sep w) : single sep blank l = w ↔ words sep l = [w] := by
  constructor
  · intro same
    rw [← words_single separates, same, word.words_eq]
  · intro one
    unfold single
    rw [one, List.intercalate_singleton]

omit separates in
theorem map_single {f : α → α} (keeps : ∀ c, sep (f c) = sep c) (fixed : f blank = blank)
    (l : List α) : (single sep blank l).map f = single sep blank (l.map f) := by
  unfold single
  rw [words_map keeps]
  induction words sep l with
  | nil => rfl
  | cons w ws ih =>
      cases ws with
      | nil => simp
      | cons w' ws =>
          rw [List.intercalate_cons_cons, List.map_append, ih]
          simp [fixed]

/-! ### Trimming -/

omit separates

theorem words_trimmed (l : List α) : words sep (trimmed sep l) = words sep l := by
  have ends : ∀ c ∈ (l.dropWhile sep).rtakeWhile sep, sep c = true := fun c mem =>
    List.mem_rtakeWhile_imp mem
  have start : ∀ c ∈ l.takeWhile sep, sep c = true := fun c mem => List.mem_takeWhile_imp mem
  calc words sep (trimmed sep l)
      = words sep (trimmed sep l ++ (l.dropWhile sep).rtakeWhile sep) := (words_append_right ends).symm
    _ = words sep (l.dropWhile sep) := by rw [trimmed, List.rdropWhile_append_rtakeWhile]
    _ = words sep (l.takeWhile sep ++ l.dropWhile sep) := (words_append_left start).symm
    _ = words sep l := by rw [List.takeWhile_append_dropWhile]

theorem map_trimmed {f : α → α} (keeps : ∀ c, sep (f c) = sep c) (l : List α) :
    (trimmed sep l).map f = trimmed sep (l.map f) := by
  have same : sep ∘ f = sep := funext keeps
  unfold trimmed List.rdropWhile
  rw [List.dropWhile_map, same, ← List.map_reverse, List.dropWhile_map, same, List.map_reverse]

/-- A text of one word is the word between separators. -/
theorem exists_of_words_eq_singleton (one : words sep l = [w]) :
    ∃ a b, (∀ c ∈ a, sep c = true) ∧ (∀ c ∈ b, sep c = true) ∧ l = a ++ w ++ b := by
  induction l with
  | nil => cases one
  | cons s l ih =>
      cases separates : sep s with
      | true =>
          rw [words_cons separates] at one
          obtain ⟨a, b, before, after, rfl⟩ := ih one
          refine ⟨s :: a, b, ?_, after, rfl⟩
          intro c mem
          rcases List.mem_cons.mp mem with rfl | mem
          · exact separates
          · exact before c mem
      | false =>
          have word : IsWord sep ((s :: l).takeWhile fun c => !sep c) :=
            ⟨by simp [separates],
              fun c mem => by simpa using List.mem_takeWhile_imp mem⟩
          have parts := List.takeWhile_append_dropWhile (p := fun c => !sep c) (l := s :: l)
          cases rest : (s :: l).dropWhile fun c => !sep c with
          | nil =>
              rw [rest, List.append_nil] at parts
              rw [parts] at word
              rw [word.words_eq] at one
              cases one
              exact ⟨[], [], nofun, nofun, by simp⟩
          | cons t rest' =>
              have ended : sep t = true := by
                have := List.head_dropWhile_not (fun c => !sep c) (l := s :: l) (by simp [rest])
                simpa [rest] using this
              rw [← parts, rest, words_append_cons ended, word.words_eq] at one
              obtain ⟨rfl, none⟩ := List.cons.inj one
              refine ⟨[], t :: rest', nofun, ?_, by rw [← rest]; exact parts.symm⟩
              intro c mem
              rcases List.mem_cons.mp mem with rfl | mem
              · exact ended
              · exact words_eq_nil_iff.mp none c mem

theorem trimmed_eq_iff_words (word : IsWord sep w) : trimmed sep l = w ↔ words sep l = [w] := by
  constructor
  · intro same
    rw [← words_trimmed, same, word.words_eq]
  · intro one
    obtain ⟨a, b, before, after, rfl⟩ := exists_of_words_eq_singleton one
    obtain ⟨first, rest, rfl⟩ := List.exists_cons_of_ne_nil word.1
    have keeps : ∀ c ∈ first :: rest, sep c = false := word.2
    unfold trimmed
    rw [List.append_assoc, List.dropWhile_append_of_pos before, List.cons_append,
      List.dropWhile_cons_of_neg (by simp [keeps first List.mem_cons_self]), ← List.cons_append]
    unfold List.rdropWhile
    rw [List.reverse_append, List.dropWhile_append_of_pos fun c mem => after c (List.mem_reverse.mp mem)]
    change List.rdropWhile sep (first :: rest) = _
    exact List.rdropWhile_eq_self_iff.mpr fun nonempty => by
      simp [keeps _ (List.getLast_mem nonempty)]

end Words

/-- Two texts that become one by a map agree, when what the map does not keep apart is the same
in both. -/
theorem eq_of_map_eq {α β : Type} {f : α → β} (keep : α → Bool)
    (apart : ∀ c d, f c = f d → keep c = false ∨ keep d = false → c = d) :
    ∀ {l l' : List α}, l.map f = l'.map f → l.filter keep = l'.filter keep → l = l'
  | [], [], _, _ => rfl
  | [], _ :: _, mapped, _ => by cases mapped
  | _ :: _, [], mapped, _ => by cases mapped
  | c :: l, d :: l', mapped, kept => by
      obtain ⟨head, tail⟩ := List.cons.inj mapped
      by_cases other : keep c = false ∨ keep d = false
      · obtain rfl := apart c d head other
        refine congrArg (c :: ·) (eq_of_map_eq keep apart tail ?_)
        cases k : keep c <;> simpa [k] using kept
      · simp only [not_or, Bool.not_eq_false] at other
        rw [List.filter_cons_of_pos other.1, List.filter_cons_of_pos other.2] at kept
        obtain ⟨rfl, rest⟩ := List.cons.inj kept
        exact congrArg (c :: ·) (eq_of_map_eq keep apart tail rest)

end Lib
