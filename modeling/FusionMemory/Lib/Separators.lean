import FusionMemory.Lib.Edits
import Mathlib.Data.List.Forall2

/-!
Texts with separators: characters that no match has and that are no word characters.

A separator is to the engine what the end of the text is. `ends_alike` says so for the places where
a match may end, in the order of the engine; so `replaceAll` goes over the two sides for themselves
(`replaceAll_separator`).
-/

namespace Lib

namespace Regex

variable {isWord : Char → Bool} {re : Regex}

/-- What may be appended to a text without a match noticing: nothing, or a text that starts with a
separator. -/
def Silent (isWord : Char → Bool) (re : Regex) (tail : List Char) : Prop :=
  ∀ c, tail.head? = some c → re.excludes c = true ∧ isWord c = false

/-- The same place up to the kind of the character before it, with more text after it. -/
def Alike (isWord : Char → Bool) (tail : List Char) (place place' : Place) : Prop :=
  place.1.any isWord = place'.1.any isWord ∧ place'.2 = place.2 ++ tail

section Ends

variable {tail : List Char} {f : Place → List Place}

/-- The function does the same at places that are alike. -/
def Respects (isWord : Char → Bool) (tail : List Char) (f : Place → List Place) : Prop :=
  ∀ place place', Alike isWord tail place place' →
    List.Forall₂ (Alike isWord tail) (f place) (f place')

theorem respects_pure : Respects isWord tail fun place => [place] := fun _ _ alike =>
  .cons alike .nil

theorem Respects.seq {g : Place → List Place} (first : Respects isWord tail f)
    (second : Respects isWord tail g) : Respects isWord tail fun place => (f place).flatMap g :=
  fun place place' alike => List.rel_flatMap (first place place' alike) (@second)

theorem Respects.append {g : Place → List Place} (first : Respects isWord tail f)
    (second : Respects isWord tail g) : Respects isWord tail fun place => f place ++ g place :=
  fun place place' alike => List.rel_append (first place place' alike) (second place place' alike)

theorem Respects.exactly (each : Respects isWord tail f) (n : Nat) :
    Respects isWord tail (exactly f n) := by
  induction n with
  | zero => exact respects_pure
  | succ n ih => exact each.seq ih

theorem Respects.upTo (each : Respects isWord tail f) (n : Nat) :
    Respects isWord tail (upTo f n) := by
  induction n with
  | zero => exact respects_pure
  | succ n ih => exact (each.seq ih).append respects_pure

/-- One character of a class: the first of the text, or of what is appended, which it is not. -/
theorem respects_set {p : Char → Bool} (silent : Silent isWord (.set p) tail) :
    Respects isWord tail ((Regex.set p).ends isWord) := by
  rintro ⟨prev, text⟩ ⟨prev', text'⟩ ⟨-, rfl⟩
  unfold ends
  cases text with
  | nil =>
      rw [List.nil_append]
      cases tail with
      | nil => exact .nil
      | cons c tail =>
          have other : p c = false := (Bool.not_eq_true' (p c)).mp (silent c rfl).1
          dsimp only
          rw [other]
          exact .nil
  | cons c text =>
      rw [List.cons_append]
      dsimp only
      split_ifs
      · exact .cons ⟨rfl, rfl⟩ .nil
      · exact .nil

theorem respects_boundary (silent : Silent isWord .boundary tail) :
    Respects isWord tail (Regex.boundary.ends isWord) := by
  rintro ⟨prev, text⟩ ⟨prev', text'⟩ ⟨before, rfl⟩
  have same : isBoundary isWord prev' (text ++ tail).head? = isBoundary isWord prev text.head? := by
    have after : (text ++ tail).head?.any isWord = text.head?.any isWord := by
      cases text with
      | cons c text => rfl
      | nil =>
          cases tail with
          | nil => rfl
          | cons c tail => exact (silent c rfl).2
    unfold isBoundary
    rw [after]
    exact congrArg (· != text.head?.any isWord) before.symm
  unfold ends
  dsimp only
  rw [same]
  split_ifs
  · exact .cons ⟨before, rfl⟩ .nil
  · exact .nil

theorem respects_star {p : Char → Bool} (silent : Silent isWord (.star p) tail) :
    Respects isWord tail ((Regex.star p).ends isWord) := by
  rintro ⟨prev, text⟩ ⟨prev', text'⟩ ⟨before, rfl⟩
  change List.Forall₂ (Alike isWord tail) (starEnds p prev text) (starEnds p prev' (text ++ tail))
  induction text generalizing prev prev' with
  | nil =>
      rw [List.nil_append]
      cases tail with
      | nil => exact .cons ⟨before, rfl⟩ .nil
      | cons c tail =>
          have other : p c = false := (Bool.not_eq_true' (p c)).mp (silent c rfl).1
          unfold starEnds
          rw [other]
          exact .cons ⟨before, rfl⟩ .nil
  | cons c text ih =>
      rw [List.cons_append]
      unfold starEnds
      refine List.rel_append ?_ (.cons ⟨before, rfl⟩ .nil)
      split_ifs
      · exact ih _ _ rfl
      · exact .nil

/-- What two expressions exclude together each of them excludes. -/
theorem silent_both {a b : Regex} (silent : ∀ c, tail.head? = some c →
    (a.excludes c && b.excludes c) = true ∧ isWord c = false) :
    Silent isWord a tail ∧ Silent isWord b tail := by
  constructor
  · intro c head
    exact ⟨(Bool.and_eq_true_iff.mp (silent c head).1).1, (silent c head).2⟩
  · intro c head
    exact ⟨(Bool.and_eq_true_iff.mp (silent c head).1).2, (silent c head).2⟩

/-- The engine finds the same places before the end of a text as before a separator. -/
theorem ends_alike (re : Regex) (silent : Silent isWord re tail) :
    Respects isWord tail (re.ends isWord) := by
  induction re with
  | set p => exact respects_set silent
  | boundary => exact respects_boundary silent
  | seq a b iha ihb =>
      obtain ⟨left, right⟩ := silent_both silent
      exact (iha left).seq (ihb right)
  | alt a b iha ihb =>
      obtain ⟨left, right⟩ := silent_both silent
      exact (iha left).append (ihb right)
  | rep a least most ih => exact ((ih silent).exactly least).seq ((ih silent).upTo _)
  | star p => exact respects_star silent

end Ends

/-! ### Replacing beside a separator -/

/-- A match is as long before a separator as before the end of the text. -/
theorem matchLength_alike {tail : List Char} (silent : Silent isWord re tail)
    {prev prev' : Option Char} (before : prev.any isWord = prev'.any isWord) (text : List Char) :
    re.matchLength isWord prev' (text ++ tail) = re.matchLength isWord prev text := by
  have places := ends_alike re silent (prev, text) (prev', text ++ tail) ⟨before, rfl⟩
  unfold matchLength
  cases first : re.ends isWord (prev, text) with
  | nil =>
      rw [first] at places
      rw [List.forall₂_nil_left_iff.mp places]
      rfl
  | cons place rest =>
      rw [first] at places
      obtain ⟨place', rest', ⟨-, more⟩, -, all⟩ := List.forall₂_cons_left_iff.mp places
      rw [all, List.head?_cons, List.head?_cons, Option.map_some, Option.map_some, more,
        List.length_append, List.length_append]
      congr 1
      omega

variable {f : List Char → List Char}

theorem replaceFrom_alike {prev prev' : Option Char} (before : prev.any isWord = prev'.any isWord)
    (text : List Char) :
    re.replaceFrom isWord f 0 prev text = re.replaceFrom isWord f 0 prev' text := by
  cases text with
  | nil => rfl
  | cons c text =>
      have silent : Silent isWord re [] := fun _ none => (by cases none)
      have same := matchLength_alike silent before (c :: text)
      rw [List.append_nil] at same
      rw [replaceFrom_cons, replaceFrom_cons, same]

/-- No match starts at a separator. -/
theorem replaceFrom_separator {sep : Char} (excluded : re.excludes sep = true) (prev : Option Char)
    (text : List Char) : re.replaceFrom isWord f 0 prev (sep :: text) =
      sep :: re.replaceFrom isWord f 0 (some sep) text := by
  rw [replaceFrom_cons]
  cases found : re.matchLength isWord prev (sep :: text) with
  | none => rfl
  | some n =>
      cases n with
      | zero => rfl
      | succ n =>
          have matched := (matches_of_matchLength found).2
          rw [List.take_succ_cons] at matched
          exact absurd List.mem_cons_self (not_mem_of_excludes re excluded matched)

/-- A text is replaced on the two sides of a separator. -/
theorem replaceAll_separator {sep : Char} (excluded : re.excludes sep = true)
    (nonword : isWord sep = false) (a b : List Char) :
    re.replaceAll isWord f (a ++ sep :: b) =
      re.replaceAll isWord f a ++ sep :: re.replaceAll isWord f b := by
  have silent : Silent isWord re (sep :: b) := by
    rintro c head
    cases head
    exact ⟨excluded, nonword⟩
  unfold replaceAll
  rw [replaceFrom_append (Nat.zero_le _) fun s₁ s₂ _ => .inl (matchLength_alike silent rfl s₂),
    replaceFrom_separator excluded]
  have start : (some sep).any isWord = (none : Option Char).any isWord := nonword
  rw [replaceFrom_alike start]

end Regex

end Lib
