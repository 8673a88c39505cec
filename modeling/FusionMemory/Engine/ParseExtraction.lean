import FusionMemory.Engine.EntityExtract
import FusionMemory.Lib.ByteOffsets
import FusionMemory.Lib.DecimalJson

/-!
Reading the answer of the extraction model (`fm-engine/src/entity_extract.rs`).

The model is told to answer with a JSON array and may add prose or a markdown fence. What is
parsed is the slice from the first `[` to the last `]`, by byte offsets, after the text has been
trimmed and a fence taken off its start. `parseExtraction_ignores_prose` says that none of this
depends on what is around the array, or cuts a character, and what the entities look like.
-/

namespace FusionMemory

open Lib

/-! ### The source -/

section Source

variable (F : Type) [FloatArith F] [JsonText F]

omit [JsonText F] in
/-- A name is required; a type and aliases need not be given. -/
def LlmEntity.fromJson (j : Json F) : Option LlmEntity := do
  let name ← j.required 3 0 "name" Json.asString
  let entityType ← j.defaulted 3 1 "entity_type" "" Json.asString
  let aliases ← j.defaulted 3 2 "aliases" [] (Json.asList Json.asString)
  return { name, entityType, aliases }

/-- The answer without white space around it, and without a markdown fence at its start. -/
def cleaned (raw : String) : String :=
  let trimmed := trim raw
  trim (((stripPrefix "```json" trimmed).or (stripPrefix "```" trimmed)).getD trimmed)

/-- The text from the first `[` to the last `]`: `some none` if there is none, `none` where the
slice panics. -/
def arrayText (text : String) : Option (Option String) :=
  match findChar '[' text, rfindChar ']' text with
  | some start, some last =>
      if last ≤ start then some none else (sliceInclusive text start last).map some
  | _, _ => some none

/-- `none` where it panics. -/
def parseEntitiesJson (raw : String) : Option (Option (List LlmEntity)) :=
  (arrayText (cleaned raw)).map fun text =>
    text.bind fun slice => (JsonText.parse slice).bind (Json.asList (LlmEntity.fromJson F))

/-- `none` where it panics. -/
def parseExtraction (t : AlphanumericTable) (raw : String) : Option ExtractResult :=
  (parseEntitiesJson F raw).map fun parsed =>
    match parsed with
    | some llm => { entities := toEntityNodes t llm, success := true }
    | none => { entities := [], success := false }

end Source

/-! ### What is around the array -/

/-- The text of an array, as far as its ends show. -/
structure ArrayText (j : String) : Prop where
  starts : j.toList.head? = some '['
  ends : j.toList.getLast? = some ']'

/-- `s` has `j` in it; no `[` comes before it and no `]` after it. -/
def Surrounds (j s : String) : Prop :=
  ∃ before after, s.toList = before ++ (j.toList ++ after) ∧ '[' ∉ before ∧ ']' ∉ after

section Around

variable {j s : String}

theorem ArrayText.exists_cons (array : ArrayText j) : ∃ rest, j.toList = '[' :: rest :=
  List.head?_eq_some_iff.mp array.starts

theorem ArrayText.exists_concat (array : ArrayText j) : ∃ init, j.toList = init ++ [']'] :=
  List.getLast?_eq_some_iff.mp array.ends

/-- Trimming stops at the array. -/
theorem Surrounds.trim (array : ArrayText j) (surrounds : Surrounds j s) : Surrounds j (trim s) := by
  obtain ⟨before, after, split, noOpen, noClose⟩ := surrounds
  obtain ⟨rest, starts⟩ := array.exists_cons
  obtain ⟨init, ends⟩ := array.exists_concat
  have left : s.toList.dropWhile isWhiteSpace =
      before.dropWhile isWhiteSpace ++ (j.toList ++ after) := by
    rw [split, List.dropWhile_append]
    split_ifs with blank
    · rw [List.isEmpty_iff.mp blank, starts, List.nil_append, List.cons_append,
        List.dropWhile_cons_of_neg (by decide)]
    · rfl
  have right : (before.dropWhile isWhiteSpace ++ (j.toList ++ after)).rdropWhile isWhiteSpace =
      before.dropWhile isWhiteSpace ++ (j.toList ++ after.rdropWhile isWhiteSpace) := by
    unfold List.rdropWhile
    rw [List.reverse_append, List.reverse_append, List.append_assoc, List.dropWhile_append]
    split_ifs with blank
    · rw [List.isEmpty_iff.mp blank, ends, List.reverse_append, List.reverse_singleton,
        List.singleton_append, List.cons_append, List.dropWhile_cons_of_neg (by decide)]
      simp
    · simp
  refine ⟨before.dropWhile isWhiteSpace, after.rdropWhile isWhiteSpace, ?_,
    fun mem => noOpen ((List.dropWhile_sublist _).subset mem),
    fun mem => noClose ((List.rdropWhile_prefix _ _).subset mem)⟩
  unfold FusionMemory.trim
  rw [String.toList_ofList, left, right]

/-- A fence is no part of the array. -/
theorem Surrounds.strip (array : ArrayText j) {fence rest : String} (noOpen : '[' ∉ fence.toList)
    (surrounds : Surrounds j s) (stripped : stripPrefix fence s = some rest) : Surrounds j rest := by
  obtain ⟨before, after, split, absent, noClose⟩ := surrounds
  rw [eq_of_stripPrefix stripped, String.toList_append] at split
  rcases List.append_eq_append_iff.mp split with ⟨tail, rfl, same⟩ | ⟨tail, same, here⟩
  · exact ⟨tail, after, same, fun mem => absent (List.mem_append_right _ mem), noClose⟩
  · cases tail with
    | nil => exact ⟨[], after, here.symm, List.not_mem_nil, noClose⟩
    | cons c tail =>
        -- The fence would reach into the array, and have its bracket.
        obtain ⟨others, starts⟩ := array.exists_cons
        rw [starts] at here
        obtain ⟨rfl, -⟩ := List.cons.inj here
        exact absurd (same ▸ List.mem_append_right _ List.mem_cons_self) noOpen

theorem Surrounds.cleaned (array : ArrayText j) (surrounds : Surrounds j s) :
    Surrounds j (cleaned s) := by
  have trimmed := surrounds.trim array
  unfold FusionMemory.cleaned
  refine Surrounds.trim array ?_
  cases json : stripPrefix "```json" (FusionMemory.trim s) with
  | some rest => exact trimmed.strip array (by decide +kernel) json
  | none =>
      cases plain : stripPrefix "```" (FusionMemory.trim s) with
      | some rest => exact trimmed.strip array (by decide +kernel) plain
      | none => exact trimmed

/-- The brackets of the array are the first and the last of the text. -/
theorem arrayText_of_surrounds (array : ArrayText j) (surrounds : Surrounds j s) :
    arrayText s = some (some j) := by
  obtain ⟨before, after, split, noOpen, noClose⟩ := surrounds
  obtain ⟨rest, starts⟩ := array.exists_cons
  obtain ⟨init, ends⟩ := array.exists_concat
  have first : findChar '[' s = some (byteLen before) := by
    unfold findChar
    rw [split, starts, List.cons_append, findFrom_append noOpen, Nat.zero_add]
  have last : rfindChar ']' s = some (byteLen (before ++ init)) := by
    have regroup : before ++ (init ++ [']'] ++ after) = (before ++ init) ++ ']' :: after := by simp
    unfold rfindChar
    rw [split, ends, regroup, rfindFrom_append noClose, Nat.zero_add]
  have nonempty : init ≠ [] := by
    rintro rfl
    rw [starts] at ends
    cases ends
  obtain ⟨c, others, rfl⟩ := List.exists_cons_of_ne_nil nonempty
  have positive := c.utf8Size_pos
  have size : byteLen j.toList = byteLen (c :: others) + 1 := by
    rw [ends, byteLen_append]
    rfl
  unfold arrayText
  rw [first, last]
  dsimp only
  rw [byteLen_append, if_neg (by rw [byteLen]; omega),
    sliceInclusive_eq split (by rw [size, Nat.add_assoc]), String.ofList_toList]
  rfl

end Around

/-- No slice cuts a character: it goes from a bracket to a bracket. -/
theorem arrayText_ne_none (s : String) : arrayText s ≠ none := by
  unfold arrayText
  cases first : findChar '[' s with
  | none => exact Option.some_ne_none _
  | some start =>
      cases last : rfindChar ']' s with
      | none => exact Option.some_ne_none _
      | some stop =>
          dsimp only
          split_ifs with apart
          · exact Option.some_ne_none _
          · obtain ⟨before, tail, split, -, start_eq⟩ := exists_of_findFrom first
            obtain ⟨init, after, split', -, stop_eq⟩ := exists_of_rfindFrom last
            rw [Nat.zero_add] at start_eq stop_eq
            subst start_eq stop_eq
            rw [split] at split'
            rcases List.append_eq_append_iff.mp split' with ⟨mid, rfl, same⟩ | ⟨mid, rfl, same⟩
            · cases mid with
              | nil => cases same
              | cons c mid =>
                  obtain ⟨rfl, rfl⟩ := List.cons.inj same
                  have whole : s.toList = before ++ ('[' :: mid ++ [']'] ++ after) := by
                    rw [split]
                    simp
                  have size : byteLen (before ++ '[' :: mid) + 1 =
                      byteLen before + byteLen ('[' :: mid ++ [']']) := by
                    rw [byteLen_append, byteLen_append, Nat.add_assoc]
                    rfl
                  rw [sliceInclusive_eq whole size]
                  exact Option.some_ne_none _
            · rw [byteLen_append] at apart
              omega

/-! ### The entities -/

/-- Neither empty nor with white space around it. -/
structure Trimmed (s : String) : Prop where
  trim_eq : trim s = s
  nonempty : s ≠ ""

theorem trim_trim (s : String) : trim (trim s) = trim s := by
  have start : ((s.toList.dropWhile isWhiteSpace).rdropWhile isWhiteSpace).dropWhile isWhiteSpace =
      (s.toList.dropWhile isWhiteSpace).rdropWhile isWhiteSpace := by
    obtain ⟨cut, whole⟩ := List.rdropWhile_prefix isWhiteSpace (s.toList.dropWhile isWhiteSpace)
    cases kept : (s.toList.dropWhile isWhiteSpace).rdropWhile isWhiteSpace with
    | nil => rfl
    | cons c rest =>
        rw [kept] at whole
        have nonempty : s.toList.dropWhile isWhiteSpace ≠ [] := by
          rw [← whole]
          exact List.cons_ne_nil _ _
        have head := List.head_dropWhile_not isWhiteSpace nonempty
        simp only [← whole, List.cons_append, List.head_cons] at head
        exact List.dropWhile_cons_of_neg (by rw [head]; decide)
  unfold trim
  rw [String.toList_ofList, start, List.rdropWhile_idempotent]

/-- An entity has a name, and its texts are trimmed. -/
theorem toEntityNode_trimmed {t : AlphanumericTable} {answer : LlmEntity} {e : EntityNode}
    (made : toEntityNode t answer = some e) : Trimmed e.name ∧ ∀ a ∈ e.aliases, Trimmed a := by
  unfold toEntityNode at made
  dsimp only at made
  split_ifs at made with nameless
  split at made
  · cases made
  · cases made
    refine ⟨⟨trim_trim _, nameless⟩, fun a mem => ?_⟩
    obtain ⟨listed, nonempty⟩ := List.mem_filter.mp mem
    obtain ⟨given, -, rfl⟩ := List.mem_map.mp listed
    exact ⟨trim_trim _, bne_iff_ne.mp nonempty⟩

section Parsing

variable (F : Type) [FloatArith F] [JsonText F]

theorem parseEntitiesJson_of_surrounds {j s : String} (array : ArrayText j)
    (surrounds : Surrounds j s) : parseEntitiesJson F s =
      some ((JsonText.parse j).bind (Json.asList (LlmEntity.fromJson F))) := by
  unfold parseEntitiesJson
  rw [arrayText_of_surrounds array (surrounds.cleaned array)]
  rfl

/-- Whatever a model answers, there is a result, and its entities have trimmed texts. -/
theorem parseExtraction_trimmed (t : AlphanumericTable) (raw : String) :
    ∃ result, parseExtraction F t raw = some result ∧
      ∀ e ∈ result.entities, Trimmed e.name ∧ ∀ a ∈ e.aliases, Trimmed a := by
  obtain ⟨text, found⟩ := Option.ne_none_iff_exists'.mp (arrayText_ne_none (cleaned raw))
  unfold parseExtraction parseEntitiesJson
  rw [found, Option.map_some, Option.map_some]
  refine ⟨_, rfl, fun e mem => ?_⟩
  split at mem
  · obtain ⟨answer, -, made⟩ := List.mem_filterMap.mp mem
    exact toEntityNode_trimmed made
  · cases mem

/-- Text before and after an array changes nothing, as long as it has no bracket of its own on
that side; and nothing in an answer makes the parsing panic, or leaves an entity or an alias
without a trimmed text. -/
theorem parseExtraction_ignores_prose (t : AlphanumericTable) :
    (∀ before j after : String, '[' ∉ before.toList → ArrayText j → ']' ∉ after.toList →
      parseExtraction F t (before ++ j ++ after) = parseExtraction F t j) ∧
    ∀ raw, ∃ result, parseExtraction F t raw = some result ∧
      ∀ e ∈ result.entities, Trimmed e.name ∧ ∀ a ∈ e.aliases, Trimmed a := by
  refine ⟨fun before j after noOpen array noClose => ?_, parseExtraction_trimmed F t⟩
  have around : Surrounds j (before ++ j ++ after) := by
    refine ⟨before.toList, after.toList, ?_, noOpen, noClose⟩
    rw [String.toList_append, String.toList_append, List.append_assoc]
  have alone : Surrounds j j := ⟨[], [], by simp, List.not_mem_nil, List.not_mem_nil⟩
  unfold parseExtraction
  rw [parseEntitiesJson_of_surrounds F array around, parseEntitiesJson_of_surrounds F array alone]

end Parsing

/-- The answer of a model that explains itself. -/
def answerGo : String := "[\x7b\"name\":\"Go\",\"entity_type\":\"Tech\"\x7d]"

theorem answerGo_arrayText : ArrayText answerGo := ⟨by decide +kernel, by decide +kernel⟩

theorem parseExtraction_answerGo :
    parseExtraction Fixed .ofAscii ("Here are the entities:\n" ++ answerGo ++ "\nDone.") =
        parseExtraction Fixed .ofAscii answerGo ∧
      ∃ result, parseExtraction Fixed .ofAscii "[oops" = some result ∧
        ∀ e ∈ result.entities, Trimmed e.name ∧ ∀ a ∈ e.aliases, Trimmed a :=
  have both := parseExtraction_ignores_prose Fixed .ofAscii
  ⟨both.1 _ _ _ (by decide +kernel) answerGo_arrayText (by decide +kernel), both.2 _⟩

example : (parseExtraction Fixed .ofAscii
      "```json\n[\x7b\"name\":\" Python\",\"entity_type\":\"Tech\"\x7d]\n```").map
    (fun result => (result.success, result.entities.map (·.name))) = some (true, ["Python"]) := by
  decide +kernel

end FusionMemory
