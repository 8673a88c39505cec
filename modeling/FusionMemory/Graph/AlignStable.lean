import FusionMemory.Graph.Align

/-!
Aligning a name again, after its entity was stored (`fm-graph/src/align.rs`).

The rules compare the normal form of the candidate's name with stored names as they are. A new
entity is stored under its canonical name, which is the candidate's name as it came unless the
dictionary knows it. `align_stable_iff` says for which names that is stable.
-/

namespace FusionMemory

open Lib

variable {F : Type} [FloatArith F] [NanTest F] [JsonText F]

/-! ### Candidates of one name -/

omit [NanTest F] in
theorem EntityRow.KnownAs.congr {row : EntityRow} {a b : String} (same : SameName a b) :
    row.KnownAs F a ↔ row.KnownAs F b := by
  unfold EntityRow.KnownAs SameName
  rw [same]

/-- The rules by names: all but the vector rule. -/
def MatchesName (provider : Option (EntityVectorProvider F)) (c : EntityNode) (row : EntityRow) : Prop :=
  ∃ rule, rule ≠ .vector ∧ Matches provider c rule row

/-- They match when the dictionary or the stored names do. -/
theorem matchesName_iff {provider : Option (EntityVectorProvider F)} {c : EntityNode}
    {row : EntityRow} : MatchesName provider c row ↔
      row.KnownAs F c.name ∨ ∃ canonName, canonical c.name = some canonName ∧
        (row.name = normalizeName canonName ∨ row.KnownAs F canonName) := by
  constructor
  · rintro ⟨_ | _ | _ | _, names, matched⟩
    · exact .inl (.inl (congrArg String.toLower matched))
    · exact .inr matched
    · exact .inl matched
    · exact absurd rfl names
  · rintro (known | canonized)
    · exact ⟨.existing, nofun, known⟩
    · exact ⟨.dictionary, nofun, canonized⟩

/-- What they match does not depend on case, white space or the vectors. -/
theorem matchesName_congr {provider provider' : Option (EntityVectorProvider F)} {c c' : EntityNode}
    (same : SameName c'.name c.name) {row : EntityRow} :
    MatchesName provider' c' row ↔ MatchesName provider c row := by
  rw [matchesName_iff, matchesName_iff, EntityRow.KnownAs.congr same, canonical_congr same]

/-! ### The stored entity -/

/-- The row of a new entity is found by its name again. -/
theorem matchesName_new {provider : Option (EntityVectorProvider F)} {c : EntityNode}
    {aliases entityType : String} :
    MatchesName provider c ⟨c.id, (canonical c.name).getD c.name, aliases, entityType⟩ ↔
      (canonical c.name).isSome = true ∨ normalizeName c.name = c.name ∨
        ∃ a ∈ readAliases F aliases, SameName a c.name := by
  rw [matchesName_iff]
  cases known : canonical c.name with
  | some canonName =>
      refine iff_of_true (.inr ⟨canonName, rfl, .inl ?_⟩) (.inl rfl)
      exact (normalizeName_canonical known).symm
  | none =>
      have lowered : c.name.toLower = (normalizeName c.name).toLower ↔ normalizeName c.name = c.name :=
        toLower_eq_normalizeName_iff
      simp [EntityRow.KnownAs, lowered]

section Stored

variable [FloatOrder F] {before after : Table String EntityRow EntityRow.id} {c c' : EntityNode}
  {provider provider' : Option (EntityVectorProvider F)} {aliases : String}

/-- An outcome that is new is the candidate's, and no stored entity has its name. -/
theorem eq_newOutcome {out : AlignOutcome}
    (aligned : alignEntity (persistGraphStore before none) c provider = .ok out)
    (new : out.merged = false) : out = newOutcome c ∧
      ∀ row ∈ entitiesOfType before c.entityType, ¬ MatchesName provider c row := by
  obtain ⟨_, same, cases⟩ := alignEntity_spec before c provider
  cases same.symm.trans aligned
  rcases cases with ⟨rule, row, merging⟩ | ⟨rfl, none⟩
  · rw [merging.merged] at new
    cases new
  · exact ⟨rfl, fun row mem ⟨rule, _, matched⟩ => none rule row mem matched⟩

/-- If only one stored row has a candidate's name, the candidate is merged into it. -/
theorem merged_of_matchesName {entityType : EntityType} (type : c'.entityType = entityType)
    {row : EntityRow} (mem : row ∈ entitiesOfType after entityType)
    (named : MatchesName provider' c' row)
    (only : ∀ row' ∈ entitiesOfType after entityType, MatchesName provider' c' row' →
      row'.id = row.id) :
    ∃ out, alignEntity (persistGraphStore after none) c' provider' = .ok out ∧ out.merged = true ∧
      out.canonicalId = row.id := by
  subst type
  obtain ⟨out, aligned, cases⟩ := alignEntity_spec after c' provider'
  obtain ⟨rule, names, matched⟩ := named
  rcases cases with ⟨rule', row', merging⟩ | ⟨-, none⟩
  · have byName : rule' ≠ .vector := by
      rintro rfl
      refine merging.first rule ?_ row mem matched
      cases rule <;> first | decide | exact absurd rfl names
    exact ⟨out, aligned, merging.merged,
      merging.canonicalId.trans (only row' merging.mem ⟨rule', byName, merging.matched⟩)⟩
  · exact (none rule row mem matched).elim

/-- Without a provider a candidate that no row names is new. -/
theorem new_of_not_matchesName
    (none : ∀ row ∈ entitiesOfType after c'.entityType, ¬ MatchesName (F := F) none c' row) :
    alignEntity (F := F) (persistGraphStore after .none) c' .none = .ok (newOutcome c') := by
  obtain ⟨out, aligned, cases⟩ := alignEntity_spec (F := F) after c' .none
  rcases cases with ⟨rule, row, merging⟩ | ⟨rfl, -⟩
  · by_cases vector : rule = .vector
    · subst vector
      obtain ⟨-, threshold, sim, -, alike, -⟩ := merging.matched
      cases alike
    · exact (none row merging.mem ⟨rule, vector, merging.matched⟩).elim
  · exact aligned

/-- A new entity is stored under its canonical name, and every candidate of the type that has
its name, up to case and white space, is merged into it: exactly when the dictionary knows the
name, or the name came in its normal form, or an alias of the entity has that form. -/
theorem align_stable_iff {out : AlignOutcome}
    (aligned : alignEntity (persistGraphStore before none) c provider = .ok out)
    (new : out.merged = false)
    (stored : after.find? out.canonicalId =
      some ⟨out.canonicalId, out.canonicalName, aliases, c.entityType.asStr⟩)
    (others : ∀ id, id ≠ out.canonicalId → after.find? id = before.find? id) :
    (∀ (c' : EntityNode) (provider' : Option (EntityVectorProvider F)), c'.entityType = c.entityType →
      SameName c'.name c.name → ∃ out', alignEntity (persistGraphStore after none) c' provider' = .ok out' ∧
        out'.merged = true ∧ out'.canonicalId = out.canonicalId) ↔
      (canonical c.name).isSome = true ∨ normalizeName c.name = c.name ∨
        ∃ a ∈ readAliases F aliases, SameName a c.name := by
  obtain ⟨rfl, unnamed⟩ := eq_newOutcome aligned new
  have named : MatchesName (F := F) none c
      ⟨c.id, (canonical c.name).getD c.name, aliases, c.entityType.asStr⟩ ↔ _ := matchesName_new
  rw [← named]
  have newStored : (⟨c.id, (canonical c.name).getD c.name, aliases, c.entityType.asStr⟩ : EntityRow) ∈
      entitiesOfType after c.entityType := mem_entitiesOfType.mpr ⟨Table.find?_mem stored, rfl⟩
  -- Another row of the name was stored before, and would have matched.
  have only : ∀ (c' : EntityNode) (provider' : Option (EntityVectorProvider F)), SameName c'.name c.name →
      ∀ row ∈ entitiesOfType after c.entityType, MatchesName provider' c' row → row.id = c.id := by
    intro c' provider' same row mem named
    by_contra other
    obtain ⟨inAfter, typed⟩ := mem_entitiesOfType.mp mem
    have was : before.find? row.id = some row := (others row.id other).symm.trans (Table.find?_of_mem inAfter)
    exact unnamed row (mem_entitiesOfType.mpr ⟨Table.find?_mem was, typed⟩)
      ((matchesName_congr same).mp named)
  constructor
  · intro stable
    by_contra unmatched
    have unmatchedAfter : ∀ row ∈ entitiesOfType after c.entityType,
        ¬ MatchesName (F := F) none c row := by
      intro row mem named
      have found := Table.find?_of_mem (mem_entitiesOfType.mp mem).1
      rw [only c none rfl row mem named] at found
      cases found.symm.trans stored
      exact unmatched named
    obtain ⟨out', aligned', merged, -⟩ := stable c none rfl rfl
    cases (new_of_not_matchesName unmatchedAfter).symm.trans aligned'
    exact absurd merged Bool.false_ne_true
  · intro named c' provider' type same
    exact merged_of_matchesName type newStored ((matchesName_congr same).mpr named)
      (only c' provider' same)

end Stored

/-! ### A name with two blanks -/

def noEntities : Table String EntityRow EntityRow.id := .empty

/-- The store after a new entity was put into an empty one. -/
def storedAs (c : EntityNode) : Table String EntityRow EntityRow.id :=
  noEntities.insertIgnore ⟨c.id, (newOutcome c).canonicalName, "[]", c.entityType.asStr⟩

theorem find?_storedAs (c : EntityNode) : (storedAs c).find? c.id =
    some ⟨c.id, (newOutcome c).canonicalName, "[]", c.entityType.asStr⟩ := by
  unfold storedAs
  rw [Table.find?_insertIgnore]
  exact if_pos rfl

theorem find?_storedAs_of_ne {c : EntityNode} {id : String} (other : id ≠ c.id) :
    (storedAs c).find? id = noEntities.find? id := by
  unfold storedAs
  rw [Table.find?_insertIgnore, if_neg (Ne.symm other), Option.or_none]

def zig : EntityNode := ⟨"ent-zig", "Zig", [], .tech⟩

theorem align_stable_zig : ∃ out', alignEntity (F := Fixed) (persistGraphStore (storedAs zig) none)
    ⟨"ent-2", " ZIG ", [], .tech⟩ none = .ok out' ∧ out'.merged = true ∧
      out'.canonicalId = "ent-zig" := by
  have first : alignEntity (F := Fixed) (persistGraphStore noEntities none) zig none =
      .ok (newOutcome zig) := by decide +kernel
  have normal : normalizeName zig.name = zig.name := by decide +kernel
  exact (align_stable_iff first rfl (find?_storedAs zig) fun _ => find?_storedAs_of_ne).mpr
    (.inr (.inl normal)) ⟨"ent-2", " ZIG ", [], .tech⟩ none rfl (by decide +kernel)

/-- The name has two blanks. -/
def zigLang : EntityNode := ⟨"ent-zig-lang", "Zig  Lang", [], .tech⟩

theorem zigLang_unmatched : ∀ row ∈ entitiesOfType (storedAs zigLang) zigLang.entityType,
    ¬ MatchesName (F := Fixed) none zigLang row := by
  intro row mem named
  have found := Table.find?_of_mem (mem_entitiesOfType.mp mem).1
  by_cases same : row.id = zigLang.id
  · rw [same] at found
    cases found.symm.trans (find?_storedAs zigLang)
    rcases matchesName_new.mp named with known | normal | ⟨a, mem, -⟩
    · exact absurd known (by decide +kernel)
    · exact absurd normal (by decide +kernel)
    · have printed : printAliases Fixed [] = "[]" := by decide +kernel
      rw [← printed, readAliases_printAliases] at mem
      cases mem
  · rw [find?_storedAs_of_ne same] at found
    cases found

/-- It is stored as it came, and aligning the same name once more makes another entity. -/
theorem align_unstable : ¬ ∀ (before after : Table String EntityRow EntityRow.id) (c : EntityNode)
    (provider : Option (EntityVectorProvider Fixed)) (aliases : String) (out : AlignOutcome),
    alignEntity (persistGraphStore before none) c provider = .ok out → out.merged = false →
    after.find? out.canonicalId =
      some ⟨out.canonicalId, out.canonicalName, aliases, c.entityType.asStr⟩ →
    (∀ id, id ≠ out.canonicalId → after.find? id = before.find? id) →
    ∀ (c' : EntityNode) (provider' : Option (EntityVectorProvider Fixed)), c'.entityType = c.entityType →
      SameName c'.name c.name → ∃ out', alignEntity (persistGraphStore after none) c' provider' = .ok out' ∧
        out'.merged = true ∧ out'.canonicalId = out.canonicalId := by
  intro always
  have first : alignEntity (F := Fixed) (persistGraphStore noEntities none) zigLang none =
      .ok (newOutcome zigLang) := by decide +kernel
  have again := new_of_not_matchesName zigLang_unmatched
  obtain ⟨out', aligned, merged, -⟩ := always noEntities (storedAs zigLang) zigLang none "[]" _ first
    rfl (find?_storedAs zigLang) (fun _ => find?_storedAs_of_ne) zigLang none rfl rfl
  cases again.symm.trans aligned
  exact absurd merged Bool.false_ne_true

end FusionMemory
