import Mathlib.Data.List.Basic

/-!
Lines of a stream that arrives in chunks.

A line ends with the first element that `stop` accepts, or with the stream. `linePieces` are the
parts of the chunks that the first line consists of, and `laterChunks` is what comes after it;
joined, they are the line and the rest of the joined stream (`flatten_linePieces`,
`flatten_laterChunks`).
-/

namespace Lib

variable {α : Type} {stop : α → Bool}

/-! ### A stream in one piece -/

def firstLine (stop : α → Bool) (stream : List α) : List α :=
  match stream.findIdx? stop with
  | some idx => stream.take (idx + 1)
  | none => stream

def laterLines (stop : α → Bool) (stream : List α) : List α :=
  match stream.findIdx? stop with
  | some idx => stream.drop (idx + 1)
  | none => []

@[simp] theorem firstLine_append_laterLines (stream : List α) :
    firstLine stop stream ++ laterLines stop stream = stream := by
  unfold firstLine laterLines
  cases stream.findIdx? stop with
  | some idx => exact List.take_append_drop _ _
  | none => exact List.append_nil _

theorem firstLine_append {head : List α} (goesOn : ∀ a ∈ head, stop a = false) (stream : List α) :
    firstLine stop (head ++ stream) = head ++ firstLine stop stream ∧
      laterLines stop (head ++ stream) = laterLines stop stream := by
  have none : head.findIdx? stop = none := List.findIdx?_eq_none_iff.mpr goesOn
  unfold firstLine laterLines
  rw [List.findIdx?_append, none, Option.none_or]
  cases stream.findIdx? stop with
  | none => exact ⟨rfl, rfl⟩
  | some idx =>
      have shift : idx + head.length + 1 = head.length + (idx + 1) := by omega
      simp only [Option.map_some]
      rw [shift, List.take_length_add_append, List.drop_length_add_append]
      exact ⟨rfl, rfl⟩

theorem firstLine_of_closed {head : List α} {idx : Nat} (closed : head.findIdx? stop = some idx)
    (stream : List α) : firstLine stop (head ++ stream) = head.take (idx + 1) ∧
      laterLines stop (head ++ stream) = head.drop (idx + 1) ++ stream := by
  have inside : idx + 1 ≤ head.length := (List.findIdx?_eq_some_iff_getElem.mp closed).1
  unfold firstLine laterLines
  rw [List.findIdx?_append, closed, Option.some_or]
  exact ⟨List.take_append_of_le_length inside, List.drop_append_of_le_length inside⟩

theorem firstLine_eq_nil {stream : List α} : firstLine stop stream = [] ↔ stream = [] := by
  constructor
  · intro empty
    unfold firstLine at empty
    cases found : stream.findIdx? stop with
    | none =>
        rw [found] at empty
        exact empty
    | some idx =>
        rw [found] at empty
        rcases List.take_eq_nil_iff.mp empty with no | empty
        · exact absurd no (Nat.succ_ne_zero _)
        · exact empty
  · rintro rfl
    rfl

/-! ### A stream in chunks -/

/-- A chunk, unless it is empty. -/
def chunkOf (stream : List α) : List (List α) := if stream = [] then [] else [stream]

@[simp] theorem flatten_chunkOf (stream : List α) : (chunkOf stream).flatten = stream := by
  unfold chunkOf
  split_ifs with empty
  · exact empty.symm
  · exact List.append_nil _

theorem chunkOf_nonempty (stream : List α) : [] ∉ chunkOf stream := by
  unfold chunkOf
  split_ifs with empty
  · exact List.not_mem_nil
  · rw [List.mem_singleton]
    exact fun no => empty no.symm

def linePieces (stop : α → Bool) : List (List α) → List (List α)
  | [] => []
  | chunk :: later =>
      match chunk.findIdx? stop with
      | some idx => [chunk.take (idx + 1)]
      | none => chunk :: linePieces stop later

def laterChunks (stop : α → Bool) : List (List α) → List (List α)
  | [] => []
  | chunk :: later =>
      match chunk.findIdx? stop with
      | some idx => chunkOf (chunk.drop (idx + 1)) ++ later
      | none => laterChunks stop later

section Cases

variable {chunk : List α} (later : List (List α))

theorem linePieces_closed {idx : Nat} (closed : chunk.findIdx? stop = some idx) :
    linePieces stop (chunk :: later) = [chunk.take (idx + 1)] ∧
      laterChunks stop (chunk :: later) = chunkOf (chunk.drop (idx + 1)) ++ later := by
  unfold linePieces laterChunks
  rw [closed]
  exact ⟨rfl, rfl⟩

theorem linePieces_open (goesOn : chunk.findIdx? stop = none) :
    linePieces stop (chunk :: later) = chunk :: linePieces stop later ∧
      laterChunks stop (chunk :: later) = laterChunks stop later := by
  refine ⟨?_, ?_⟩
  · rw [linePieces, goesOn]
  · rw [laterChunks, goesOn]

end Cases

/-- Chunks in which no line ends start the line. -/
theorem linePieces_append {head : List (List α)} (goesOn : ∀ chunk ∈ head, ∀ a ∈ chunk, stop a = false)
    (chunks : List (List α)) : linePieces stop (head ++ chunks) = head ++ linePieces stop chunks ∧
      laterChunks stop (head ++ chunks) = laterChunks stop chunks := by
  induction head with
  | nil => exact ⟨rfl, rfl⟩
  | cons chunk head ih =>
      have none : chunk.findIdx? stop = none :=
        List.findIdx?_eq_none_iff.mpr (goesOn chunk List.mem_cons_self)
      obtain ⟨pieces, rest⟩ := linePieces_open (head ++ chunks) none
      obtain ⟨pieces', rest'⟩ := ih fun c mem => goesOn c (List.mem_cons_of_mem _ mem)
      rw [List.cons_append, pieces, rest, pieces', rest']
      exact ⟨rfl, rfl⟩

variable (stop) in
theorem flatten_linePieces (chunks : List (List α)) :
    (linePieces stop chunks).flatten = firstLine stop chunks.flatten ∧
      (laterChunks stop chunks).flatten = laterLines stop chunks.flatten := by
  induction chunks with
  | nil => exact ⟨rfl, rfl⟩
  | cons chunk later ih =>
      rw [List.flatten_cons]
      cases found : chunk.findIdx? stop with
      | some idx =>
          obtain ⟨pieces, rest⟩ := linePieces_closed later found
          obtain ⟨line, after⟩ := firstLine_of_closed found later.flatten
          rw [pieces, rest, line, after, List.flatten_append, flatten_chunkOf]
          exact ⟨List.append_nil _, rfl⟩
      | none =>
          obtain ⟨pieces, rest⟩ := linePieces_open later found
          obtain ⟨line, after⟩ := firstLine_append (List.findIdx?_eq_none_iff.mp found) later.flatten
          rw [pieces, rest, line, after, List.flatten_cons, ih.1, ih.2]
          exact ⟨rfl, rfl⟩

variable (stop) in
theorem flatten_append_laterChunks (chunks : List (List α)) :
    (linePieces stop chunks).flatten ++ (laterChunks stop chunks).flatten = chunks.flatten := by
  obtain ⟨line, rest⟩ := flatten_linePieces stop chunks
  rw [line, rest, firstLine_append_laterLines]

variable (stop) in
theorem linePieces_nonempty {chunks : List (List α)} (nonempty : [] ∉ chunks) :
    [] ∉ linePieces stop chunks ∧ [] ∉ laterChunks stop chunks := by
  induction chunks with
  | nil => exact ⟨nonempty, nonempty⟩
  | cons chunk later ih =>
      rw [List.mem_cons, not_or] at nonempty
      cases found : chunk.findIdx? stop with
      | some idx =>
          obtain ⟨pieces, rest⟩ := linePieces_closed later found
          rw [pieces, rest, List.mem_singleton, List.mem_append]
          refine ⟨fun no => ?_, fun mem => mem.elim (chunkOf_nonempty _) nonempty.2⟩
          rcases List.take_eq_nil_iff.mp no.symm with zero | empty
          · exact Nat.succ_ne_zero _ zero
          · exact nonempty.1 empty.symm
      | none =>
          obtain ⟨pieces, rest⟩ := linePieces_open later found
          rw [pieces, rest, List.mem_cons, not_or]
          exact ⟨⟨nonempty.1, (ih nonempty.2).1⟩, (ih nonempty.2).2⟩

/-- After some pieces of a line comes the rest of it. -/
theorem linePieces_drop {kept more : List (List α)} {piece : List α} {chunks : List (List α)}
    (pieces : linePieces stop chunks = kept ++ piece :: more) :
    linePieces stop (chunks.drop kept.length) = piece :: more ∧
      laterChunks stop (chunks.drop kept.length) = laterChunks stop chunks := by
  induction kept generalizing chunks with
  | nil => exact ⟨pieces, rfl⟩
  | cons first kept ih =>
      cases chunks with
      | nil => cases pieces
      | cons chunk later =>
          cases found : chunk.findIdx? stop with
          | some idx =>
              rw [(linePieces_closed later found).1, List.cons_append] at pieces
              cases List.append_eq_nil_iff.mp (List.cons.inj pieces).2.symm |>.2
          | none =>
              obtain ⟨goesOn, rest⟩ := linePieces_open later found
              rw [goesOn, List.cons_append] at pieces
              rw [rest]
              exact ih (List.cons.inj pieces).2

variable (stop) in
/-- A stream in one piece has its first line in one piece. -/
theorem linePieces_chunkOf (stream : List α) :
    linePieces stop (chunkOf stream) = chunkOf (firstLine stop stream) ∧
      laterChunks stop (chunkOf stream) = chunkOf (laterLines stop stream) := by
  by_cases empty : stream = []
  · subst empty
    exact ⟨rfl, rfl⟩
  have line : firstLine stop stream ≠ [] := fun no => empty (firstLine_eq_nil.mp no)
  have one : chunkOf stream = [stream] := if_neg empty
  have lineOne : chunkOf (firstLine stop stream) = [firstLine stop stream] := if_neg line
  rw [one, lineOne]
  unfold linePieces laterChunks firstLine laterLines
  cases stream.findIdx? stop with
  | some idx => exact ⟨rfl, List.append_nil _⟩
  | none => exact ⟨rfl, rfl⟩

end Lib
