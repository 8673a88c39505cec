import FusionMemory.Graph.EntityNames
import FusionMemory.Lib.BestScan
import FusionMemory.Persist.EntityAliases

/-!
Entity alignment (`fm-graph/src/align.rs`, `merge_threshold` of `fm-core/src/entity.rs`).

A candidate is merged into a stored entity of its type by the first rule that matches one: the
normal name, the alias dictionary, a name or an alias in lower case, and last the similarity of
vectors. `Matches` says which rows a rule matches, `alignRows_spec` which rule wins.
-/

namespace FusionMemory

open Lib

/-! ### The source -/

inductive GraphError where
  | persist (e : PersistError)
  | serde (message : String)
deriving DecidableEq, Repr

/-- The part of the trait that alignment reads: ids, names and aliases of the entities of a
type. -/
structure GraphStore where
  listEntitiesByType : String → Except GraphError (List (String × String × String))

def EntityRow.listing (row : EntityRow) : String × String × String := (row.id, row.name, row.aliases)

/-- `SELECT id, name, aliases FROM entity WHERE entity_type=?1`, which may fail. -/
def persistGraphStore (entity : Table String EntityRow EntityRow.id) (fault : Option PersistError) :
    GraphStore where
  listEntitiesByType entityType :=
    match fault with
    | some e => .error (.persist e)
    | none => .ok ((entity.rows.filter fun row => row.entityType == entityType).map EntityRow.listing)

structure AlignOutcome where
  canonicalId : String
  canonicalName : String
  rulePriority : Int
  merged : Bool
deriving DecidableEq, Repr

/-- `vector_of`: the vector of an entity, if it has one. -/
abbrev EntityVectorProvider (F : Type) := String → Option (List F)

section Source

variable (F : Type) [FloatArith F] [NanTest F] [JsonText F]

/-- Similarity above which vectors merge; most types never merge by vectors. -/
def EntityType.mergeThreshold : EntityType → Option F
  | .tech => some (FloatArith.literal 95 2)
  | .concept => some (FloatArith.literal 85 2)
  | _ => none

variable {F} in
def cosineImpl (a b : List F) : Option F :=
  if a.length ≠ b.length ∨ a = [] then none
  else
    let zero : F := FloatArith.ofNat 0
    let dot := (a.zip b).foldl (fun acc p => FloatArith.add acc (FloatArith.mul p.1 p.2)) zero
    let na := (a.zip b).foldl (fun acc p => FloatArith.add acc (FloatArith.mul p.1 p.1)) zero
    let nb := (a.zip b).foldl (fun acc p => FloatArith.add acc (FloatArith.mul p.2 p.2)) zero
    if FloatArith.lt na (FloatArith.literal 1 12) || FloatArith.lt nb (FloatArith.literal 1 12) then
      some zero
    else some (FloatArith.div dot (FloatArith.mul (FloatArith.sqrt na) (FloatArith.sqrt nb)))

/-- Rules 1 and 2: the name is the normal name. -/
def matchByName (store : GraphStore) (name : String) (entityType : EntityType) :
    Except GraphError (Option String) := do
  let norm := normalizeName name
  let rows ← store.listEntitiesByType entityType.asStr
  return (rows.find? fun row => row.2.1 == norm).map Prod.fst

/-- The name or an alias is the target in lower case. Corrupt aliases are none. -/
def namedInLower (target : String) (row : String × String × String) : Bool :=
  row.2.1.toLower == target ||
    (readAliases F row.2.2).any fun a => (normalizeName a).toLower == target

/-- Rule 3. -/
def matchByExisting (store : GraphStore) (name : String) (entityType : EntityType) :
    Except GraphError (Option String) := do
  let target := (normalizeName name).toLower
  let rows ← store.listEntitiesByType entityType.asStr
  return (rows.find? (namedInLower F target)).map Prod.fst

variable {F}

/-- The similarity of a row's entity, if it has one and reaches the threshold. -/
def reaching (provider : EntityVectorProvider F) (candidateId : String) (threshold : F)
    (candidateVec : List F) (row : String × String × String) : Option F :=
  if row.1 = candidateId then none
  else
    match provider row.1 with
    | none => none
    | some otherVec =>
        match cosineImpl candidateVec otherVec with
        | none => none
        | some sim => if NanTest.ge sim threshold then some sim else none

/-- Rule 4: the most similar entity of the type. -/
def matchByVector (store : GraphStore) (provider : EntityVectorProvider F) (candidateId : String)
    (entityType : EntityType) : Except GraphError (Option (String × F)) :=
  match entityType.mergeThreshold F with
  | none => return none
  | some threshold =>
      match provider candidateId with
      | none => return none
      | some candidateVec => do
          let rows ← store.listEntitiesByType entityType.asStr
          let best := bestOf (reaching provider candidateId threshold candidateVec) NanTest.ge rows
          return best.map fun found => (found.1.1, found.2)

def alignByDictionary (store : GraphStore) (candidate : EntityNode) :
    Except GraphError (Option AlignOutcome) :=
  match canonical candidate.name with
  | none => return none
  | some canonName => do
      match ← matchByName store canonName candidate.entityType with
      | some id => return some ⟨id, canonName, 2, true⟩
      | none =>
          let existing ← matchByExisting F store canonName candidate.entityType
          return existing.map fun id => ⟨id, canonName, 2, true⟩

def alignByVector (store : GraphStore) (candidate : EntityNode)
    (provider : Option (EntityVectorProvider F)) : Except GraphError (Option AlignOutcome) :=
  match provider with
  | none => return none
  | some provider => do
      let found ← matchByVector store provider candidate.id candidate.entityType
      return found.map fun best => ⟨best.1, candidate.name, 0, true⟩

def alignEntity (store : GraphStore) (candidate : EntityNode)
    (provider : Option (EntityVectorProvider F)) : Except GraphError AlignOutcome := do
  match ← matchByName store candidate.name candidate.entityType with
  | some id => return ⟨id, candidate.name, 3, true⟩
  | none =>
  match ← alignByDictionary (F := F) store candidate with
  | some out => return out
  | none =>
  match ← matchByExisting F store candidate.name candidate.entityType with
  | some id => return ⟨id, candidate.name, 1, true⟩
  | none =>
  match ← alignByVector store candidate provider with
  | some out => return out
  | none => return ⟨candidate.id, (canonical candidate.name).getD candidate.name, -1, false⟩

end Source

/-! ### What the rules match -/

inductive AlignRule where
  | name
  | dictionary
  | existing
  | vector
deriving DecidableEq, Repr

def AlignRule.priority : AlignRule → Int
  | .name => 3
  | .dictionary => 2
  | .existing => 1
  | .vector => 0

/-- The stored entities of a type. -/
def entitiesOfType (entity : Table String EntityRow EntityRow.id) (entityType : EntityType) :
    List EntityRow :=
  entity.rows.filter fun row => row.entityType == entityType.asStr

theorem mem_entitiesOfType {entity : Table String EntityRow EntityRow.id} {entityType : EntityType}
    {row : EntityRow} : row ∈ entitiesOfType entity entityType ↔
      row ∈ entity.rows ∧ row.entityType = entityType.asStr := by
  unfold entitiesOfType
  rw [List.mem_filter, beq_iff_eq]

variable {F : Type} [FloatArith F] [NanTest F] [JsonText F]

/-- The similarity of the candidate and a stored entity. -/
def similarity (provider : Option (EntityVectorProvider F)) (c : EntityNode) (row : EntityRow) :
    Option F := do
  let provider ← provider
  let candidateVec ← provider c.id
  let otherVec ← provider row.id
  cosineImpl candidateVec otherVec

variable (F) in
/-- The row's name or one of its aliases is the name, up to case and, in aliases, white space. -/
def EntityRow.KnownAs (row : EntityRow) (name : String) : Prop :=
  row.name.toLower = (normalizeName name).toLower ∨ ∃ a ∈ readAliases F row.aliases, SameName a name

/-- The rows of the candidate's type that a rule matches. -/
def Matches (provider : Option (EntityVectorProvider F)) (c : EntityNode) : AlignRule → EntityRow → Prop
  | .name, row => row.name = normalizeName c.name
  | .dictionary, row => ∃ canonName, canonical c.name = some canonName ∧
      (row.name = normalizeName canonName ∨ row.KnownAs F canonName)
  | .existing, row => row.KnownAs F c.name
  | .vector, row => row.id ≠ c.id ∧ ∃ threshold sim, c.entityType.mergeThreshold F = some threshold ∧
      similarity provider c row = some sim ∧ NanTest.ge sim threshold = true

variable {entity : Table String EntityRow EntityRow.id} {c : EntityNode}
  {provider : Option (EntityVectorProvider F)}

omit [NanTest F] in
theorem namedInLower_iff {name : String} {row : EntityRow} :
    namedInLower F (normalizeName name).toLower row.listing = true ↔ row.KnownAs F name := by
  unfold namedInLower EntityRow.KnownAs SameName
  simp only [EntityRow.listing, Bool.or_eq_true, beq_iff_eq, List.any_eq_true]

/-! ### What each rule finds -/

/-- The first row with a property, or none has it. -/
def FirstOf (rows : List EntityRow) (P : EntityRow → Prop) : Option String → Prop
  | none => ∀ row ∈ rows, ¬ P row
  | some id => ∃ row ∈ rows, row.id = id ∧ P row

theorem firstOf_find? {rows : List EntityRow} {p : String × String × String → Bool}
    {P : EntityRow → Prop} (decides : ∀ row, p row.listing = true ↔ P row) :
    FirstOf rows P (((rows.map EntityRow.listing).find? p).map Prod.fst) := by
  rw [List.find?_map]
  cases found : rows.find? (p ∘ EntityRow.listing) with
  | none =>
      intro row mem has
      exact List.find?_eq_none.mp found row mem ((decides row).mpr has)
  | some row =>
      have passes : p row.listing = true := List.find?_some (p := p ∘ EntityRow.listing) found
      exact ⟨row, List.mem_of_find?_eq_some found, rfl, (decides row).mp passes⟩

variable (entity) in
theorem matchByName_spec (name : String) (entityType : EntityType) : ∃ found,
    matchByName (persistGraphStore entity none) name entityType = .ok found ∧
      FirstOf (entitiesOfType entity entityType) (fun row => row.name = normalizeName name) found :=
  ⟨_, rfl, firstOf_find? fun _ => beq_iff_eq⟩

variable (F entity) in
omit [NanTest F] in
theorem matchByExisting_spec (name : String) (entityType : EntityType) : ∃ found,
    matchByExisting F (persistGraphStore entity none) name entityType = .ok found ∧
      FirstOf (entitiesOfType entity entityType) (fun row => row.KnownAs F name) found :=
  ⟨_, rfl, firstOf_find? fun _ => namedInLower_iff⟩

/-- A row of the highest similarity, apart from the candidate's own. -/
def MostSimilar (provider : Option (EntityVectorProvider F)) (c : EntityNode)
    (rows : List EntityRow) (row : EntityRow) : Prop :=
  ∃ sim, similarity provider c row = some sim ∧ ∀ other ∈ rows, other.id ≠ c.id →
    ∀ s, similarity provider c other = some s → FloatArith.lt sim s = false

omit [JsonText F] in
theorem reaching_eq_some {provider : EntityVectorProvider F} {threshold sim : F} {vec : List F}
    (own : provider c.id = some vec) {row : EntityRow} :
    reaching provider c.id threshold vec row.listing = some sim ↔
      row.id ≠ c.id ∧ similarity (some provider) c row = some sim ∧ NanTest.ge sim threshold = true := by
  unfold reaching similarity EntityRow.listing
  simp only [own, Option.bind_eq_bind, Option.bind_some]
  split_ifs with same
  · exact iff_of_false nofun fun h => h.1 same
  · cases provider row.id with
    | none => exact iff_of_false nofun fun h => (by cases h.2.1)
    | some other =>
        dsimp only
        rw [Option.bind_some]
        cases cosineImpl vec other with
        | none => exact iff_of_false nofun fun h => (by cases h.2.1)
        | some s =>
            dsimp only
            split_ifs with above
            · constructor
              · rintro ⟨⟩
                exact ⟨same, rfl, above⟩
              · rintro ⟨-, ⟨⟩, -⟩
                rfl
            · refine iff_of_false nofun ?_
              rintro ⟨-, ⟨⟩, reaches⟩
              exact above reaches

omit [JsonText F] in
theorem ge_eq_false_iff {provider : EntityVectorProvider F} {threshold : F} {vec : List F}
    {row row' : String × String × String} {a b : F}
    (scored : reaching provider c.id threshold vec row = some a)
    (scored' : reaching provider c.id threshold vec row' = some b) :
    NanTest.ge a b = false ↔ FloatArith.lt a b = true := by
  have real : ∀ {row : String × String × String} {s : F},
      reaching provider c.id threshold vec row = some s → NanTest.isNan s = false := by
    intro row s reaches
    unfold reaching at reaches
    split at reaches
    · cases reaches
    · split at reaches
      · cases reaches
      · split at reaches
        · cases reaches
        · split at reaches
          case isTrue above =>
            cases reaches
            exact (NanTest.ge_iff.mp above).1
          case isFalse => cases reaches
  simp [NanTest.ge, real scored, real scored']

theorem matches_vector_iff {provider : EntityVectorProvider F} {threshold : F} {vec : List F}
    (merges : c.entityType.mergeThreshold F = some threshold) (own : provider c.id = some vec)
    {row : EntityRow} : Matches (some provider) c .vector row ↔
      ∃ sim, reaching provider c.id threshold vec row.listing = some sim := by
  constructor
  · rintro ⟨other, t, sim, has, alike, reaches⟩
    rw [merges] at has
    cases has
    exact ⟨sim, (reaching_eq_some own).mpr ⟨other, alike, reaches⟩⟩
  · rintro ⟨sim, scored⟩
    obtain ⟨other, alike, reaches⟩ := (reaching_eq_some own).mp scored
    exact ⟨other, threshold, sim, merges, alike, reaches⟩

omit [JsonText F] in
/-- No similarity of an entity is above the best one that reaches the threshold. -/
theorem mostSimilar_of_isBest [FloatOrder F] {provider : EntityVectorProvider F} {threshold sim : F}
    {vec : List F} (own : provider c.id = some vec) {rows : List EntityRow} {row : EntityRow}
    (best : IsBest (fun row => reaching provider c.id threshold vec row.listing) FloatArith.lt rows
      row sim) : MostSimilar (some provider) c rows row := by
  obtain ⟨-, alike, reaches⟩ := (reaching_eq_some own).mp best.score_eq
  obtain ⟨-, real, notBelow⟩ := NanTest.ge_iff.mp reaches
  refine ⟨sim, alike, fun other mem apart s has => ?_⟩
  cases above : NanTest.ge s threshold with
  | true => exact best.not_lt other mem s ((reaching_eq_some own).mpr ⟨apart, has, above⟩)
  | false =>
      rcases NanTest.ge_eq_false real above with nan | below
      · exact FloatOrder.lt_of_isNan nan
      · rw [← Bool.not_eq_true]
        intro higher
        have under := FloatOrder.lt_trans higher below
        rw [notBelow] at under
        cases under

/-- What a rule finds: a row that it matches, with the outcome for it, or that there is none. -/
def RuleFound (provider : Option (EntityVectorProvider F)) (c : EntityNode) (rows : List EntityRow)
    (rule : AlignRule) : Option AlignOutcome → Prop
  | none => ∀ row ∈ rows, ¬ Matches provider c rule row
  | some out => ∃ row ∈ rows, Matches provider c rule row ∧ out.canonicalId = row.id ∧
      out.rulePriority = rule.priority ∧ out.merged = true ∧
      (rule = .vector → MostSimilar provider c rows row)

variable (entity) in
theorem alignByDictionary_spec (c : EntityNode) (provider : Option (EntityVectorProvider F)) :
    ∃ found, alignByDictionary (F := F) (persistGraphStore entity none) c = .ok found ∧
      RuleFound provider c (entitiesOfType entity c.entityType) .dictionary found := by
  unfold alignByDictionary
  cases known : canonical c.name with
  | none =>
      refine ⟨none, rfl, fun row _ matched => ?_⟩
      obtain ⟨canonName, has, -⟩ := matched
      rw [known] at has
      cases has
  | some canonName =>
      obtain ⟨byName, named, foundByName⟩ := matchByName_spec entity canonName c.entityType
      obtain ⟨byAlias, existing, foundByAlias⟩ := matchByExisting_spec F entity canonName c.entityType
      dsimp only
      rw [named, existing]
      cases byName with
      | some id =>
          obtain ⟨row, mem, rfl, same⟩ := foundByName
          exact ⟨_, rfl, row, mem, ⟨canonName, known, .inl same⟩, rfl, rfl, rfl, nofun⟩
      | none =>
          refine ⟨_, rfl, ?_⟩
          cases byAlias with
          | some id =>
              obtain ⟨row, mem, rfl, same⟩ := foundByAlias
              exact ⟨row, mem, ⟨canonName, known, .inr same⟩, rfl, rfl, rfl, nofun⟩
          | none =>
              rintro row mem ⟨canonName', has, same⟩
              rw [known] at has
              cases has
              exact same.elim (foundByName row mem) (foundByAlias row mem)

variable (entity) in
theorem alignByVector_spec [FloatOrder F] (c : EntityNode) (provider : Option (EntityVectorProvider F)) :
    ∃ found, alignByVector (persistGraphStore entity none) c provider = .ok found ∧
      RuleFound provider c (entitiesOfType entity c.entityType) .vector found := by
  unfold alignByVector
  cases provider with
  | none =>
      refine ⟨none, rfl, fun row _ matched => ?_⟩
      obtain ⟨-, threshold, sim, -, alike, -⟩ := matched
      cases alike
  | some provider =>
      dsimp only
      unfold matchByVector
      cases merges : c.entityType.mergeThreshold F with
      | none =>
          refine ⟨none, rfl, fun row _ matched => ?_⟩
          obtain ⟨-, threshold, sim, has, -⟩ := matched
          rw [merges] at has
          cases has
      | some threshold =>
          dsimp only
          cases own : provider c.id with
          | none =>
              refine ⟨none, rfl, fun row _ matched => ?_⟩
              obtain ⟨-, threshold, sim, -, alike, -⟩ := matched
              simp [similarity, own] at alike
          | some vec =>
              refine ⟨_, rfl, ?_⟩
              change RuleFound _ _ _ _ (((bestOf (reaching provider c.id threshold vec) NanTest.ge
                ((entitiesOfType entity c.entityType).map EntityRow.listing)).map _).map _)
              rw [bestOf_map]
              have scan : Found (fun row => reaching provider c.id threshold vec row.listing)
                  FloatArith.lt (entitiesOfType entity c.entityType) _ :=
                found_bestOf FloatArith.lt_irrefl FloatOrder.lt_trans
                  (fun scored scored' => ge_eq_false_iff scored scored') _
              cases found : bestOf (fun row => reaching provider c.id threshold vec row.listing)
                  NanTest.ge (entitiesOfType entity c.entityType) with
              | none =>
                  rw [found] at scan
                  intro row mem matched
                  obtain ⟨sim, scored⟩ := (matches_vector_iff merges own).mp matched
                  cases scored.symm.trans (scan row mem)
              | some best =>
                  rw [found] at scan
                  exact ⟨best.1, scan.mem, (matches_vector_iff merges own).mpr ⟨_, scan.score_eq⟩,
                    rfl, rfl, rfl, fun _ => mostSimilar_of_isBest own scan⟩

/-! ### Which rule wins -/

/-- The candidate is merged into a row by a rule, and no rule before it matches. -/
structure MergedBy (provider : Option (EntityVectorProvider F)) (c : EntityNode)
    (rows : List EntityRow) (out : AlignOutcome) (rule : AlignRule) (row : EntityRow) : Prop where
  mem : row ∈ rows
  matched : Matches provider c rule row
  canonicalId : out.canonicalId = row.id
  rulePriority : out.rulePriority = rule.priority
  merged : out.merged = true
  best : rule = .vector → MostSimilar provider c rows row
  first : ∀ rule', rule.priority < rule'.priority → ∀ row' ∈ rows, ¬ Matches provider c rule' row'

theorem RuleFound.mergedBy {rows : List EntityRow} {rule : AlignRule} {out : AlignOutcome}
    (found : RuleFound provider c rows rule (some out))
    (first : ∀ rule', rule.priority < rule'.priority → ∀ row' ∈ rows,
      ¬ Matches provider c rule' row') : ∃ rule row, MergedBy provider c rows out rule row := by
  obtain ⟨row, mem, matched, canonicalId, rulePriority, merged, best⟩ := found
  exact ⟨rule, row, mem, matched, canonicalId, rulePriority, merged, best, first⟩

/-- The outcome for a candidate that no rule matches. -/
def newOutcome (c : EntityNode) : AlignOutcome :=
  ⟨c.id, (canonical c.name).getD c.name, -1, false⟩

variable (entity) in
/-- Alignment merges by the first rule that matches, or makes a new entity when none does. -/
theorem alignEntity_spec [FloatOrder F] (c : EntityNode) (provider : Option (EntityVectorProvider F)) :
    ∃ out, alignEntity (persistGraphStore entity none) c provider = .ok out ∧
      ((∃ rule row, MergedBy provider c (entitiesOfType entity c.entityType) out rule row) ∨
        (out = newOutcome c ∧
          ∀ rule, ∀ row ∈ entitiesOfType entity c.entityType, ¬ Matches provider c rule row)) := by
  obtain ⟨byName, named, foundByName⟩ := matchByName_spec entity c.name c.entityType
  obtain ⟨byDictionary, canonized, foundByDictionary⟩ :=
    alignByDictionary_spec entity c provider
  obtain ⟨byAlias, existing, foundByAlias⟩ := matchByExisting_spec F entity c.name c.entityType
  obtain ⟨byVector, alike, foundByVector⟩ := alignByVector_spec entity c provider
  unfold alignEntity
  rw [named, canonized, existing, alike]
  cases byName with
  | some id =>
      obtain ⟨row, mem, rfl, same⟩ := foundByName
      refine ⟨_, rfl, .inl ⟨.name, row, mem, same, rfl, rfl, rfl, nofun, ?_⟩⟩
      rintro (_ | _ | _ | _) higher <;> exact absurd higher (by decide)
  | none =>
  cases byDictionary with
  | some out =>
      refine ⟨_, rfl, .inl (foundByDictionary.mergedBy ?_)⟩
      rintro (_ | _ | _ | _) higher
      · exact foundByName
      all_goals exact absurd higher (by decide)
  | none =>
  cases byAlias with
  | some id =>
      obtain ⟨row, mem, rfl, same⟩ := foundByAlias
      refine ⟨_, rfl, .inl ⟨.existing, row, mem, same, rfl, rfl, rfl, nofun, ?_⟩⟩
      rintro (_ | _ | _ | _) higher
      · exact foundByName
      · exact foundByDictionary
      all_goals exact absurd higher (by decide)
  | none =>
  cases byVector with
  | some out =>
      refine ⟨_, rfl, .inl (foundByVector.mergedBy ?_)⟩
      rintro (_ | _ | _ | _) higher
      · exact foundByName
      · exact foundByDictionary
      · exact foundByAlias
      · exact absurd higher (by decide)
  | none =>
      refine ⟨_, rfl, .inr ⟨rfl, ?_⟩⟩
      rintro (_ | _ | _ | _)
      · exact foundByName
      · exact foundByDictionary
      · exact foundByAlias
      · exact foundByVector

theorem alignEntity_fault (e : PersistError) :
    alignEntity (persistGraphStore entity (some e)) c provider = .error (.persist e) :=
  rfl

/-- Soundness and precedence: an outcome is a merge into a stored entity of the candidate's
type, by a rule that matches it and before which none matches, or new, when none matches at all.
A merge by vectors reaches the threshold of its type, and no other stored entity is more
similar. -/
theorem align_sound [FloatOrder F] {fault : Option PersistError} {out : AlignOutcome}
    (aligned : alignEntity (persistGraphStore entity fault) c provider = .ok out) :
    (out.merged = true → ∃ row ∈ entitiesOfType entity c.entityType, out.canonicalId = row.id ∧
      ∃ rule : AlignRule, out.rulePriority = rule.priority ∧ Matches provider c rule row) ∧
    (∀ rule : AlignRule, out.rulePriority < rule.priority →
      ∀ row ∈ entitiesOfType entity c.entityType, ¬ Matches provider c rule row) ∧
    (out.rulePriority = 0 → ∃ row ∈ entitiesOfType entity c.entityType, out.canonicalId = row.id ∧
      Matches provider c .vector row ∧
      MostSimilar provider c (entitiesOfType entity c.entityType) row) ∧
    (out.merged = false → out.canonicalId = c.id ∧
      ∀ rule, ∀ row ∈ entitiesOfType entity c.entityType, ¬ Matches provider c rule row) := by
  cases fault with
  | some e => cases (alignEntity_fault e).symm.trans aligned
  | none =>
      obtain ⟨_, same, cases⟩ := alignEntity_spec entity c provider
      cases same.symm.trans aligned
      rcases cases with ⟨rule, row, by_⟩ | ⟨rfl, none⟩
      · refine ⟨fun _ => ⟨row, by_.mem, by_.canonicalId, rule, by_.rulePriority, by_.matched⟩,
          ?_, ?_, ?_⟩
        · rw [by_.rulePriority]
          exact by_.first
        · intro zero
          have vector : rule = .vector := by
            rw [by_.rulePriority] at zero
            cases rule <;> first | rfl | cases zero
          subst vector
          exact ⟨row, by_.mem, by_.canonicalId, by_.matched, by_.best rfl⟩
        · intro new
          rw [by_.merged] at new
          cases new
      · exact ⟨nofun, fun rule _ => none rule, nofun, fun _ => ⟨rfl, none⟩⟩

/-! ### A candidate among its like -/

/-- The candidate's id is stored too, under an older name. -/
def storedCrates : Table String EntityRow EntityRow.id where
  rows := [⟨"ent-tokio", "Tokio", "[]", "Tech"⟩, ⟨"ent-async", "async runtime", "[]", "Tech"⟩]
  nodup := by decide

def asyncRust : EntityNode := ⟨"ent-async", "Async Rust", [], .tech⟩

def crateVectors : EntityVectorProvider Fixed
  | "ent-tokio" => some [⟨960000⟩, ⟨280000⟩]
  | "ent-async" => some [⟨1000000⟩, ⟨0⟩]
  | _ => none

theorem alignEntity_asyncRust : alignEntity (persistGraphStore storedCrates none) asyncRust
    (some crateVectors) = .ok ⟨"ent-tokio", "Async Rust", 0, true⟩ := by
  decide +kernel

theorem align_sound_asyncRust :
    (∃ row ∈ entitiesOfType storedCrates .tech, "ent-tokio" = row.id ∧
      Matches (some crateVectors) asyncRust .vector row ∧
      MostSimilar (some crateVectors) asyncRust (entitiesOfType storedCrates .tech) row) ∧
    ∀ rule : AlignRule, 0 < rule.priority → ∀ row ∈ entitiesOfType storedCrates .tech,
      ¬ Matches (some crateVectors) asyncRust rule row := by
  obtain ⟨-, first, vector, -⟩ := align_sound alignEntity_asyncRust
  exact ⟨vector rfl, first⟩

/-- The candidate is most similar to its own stored entity, which rule 4 passes over. -/
theorem own_entity_more_similar : ¬ ∀ (entity : Table String EntityRow EntityRow.id) (c : EntityNode)
    (provider : Option (EntityVectorProvider Fixed)) (out : AlignOutcome),
    alignEntity (persistGraphStore entity none) c provider = .ok out → out.rulePriority = 0 →
    ∃ row ∈ entitiesOfType entity c.entityType, out.canonicalId = row.id ∧
      ∃ sim, similarity provider c row = some sim ∧
        ∀ other ∈ entitiesOfType entity c.entityType, ∀ s, similarity provider c other = some s →
          FloatArith.lt sim s = false := by
  intro always
  obtain ⟨row, -, merged, sim, alike, highest⟩ :=
    always storedCrates asyncRust (some crateVectors) _ alignEntity_asyncRust rfl
  have found : similarity (some crateVectors) asyncRust row = some ⟨960000⟩ := by
    unfold similarity
    rw [← merged]
    decide +kernel
  cases found.symm.trans alike
  have own : (⟨"ent-async", "async runtime", "[]", "Tech"⟩ : EntityRow) ∈
      entitiesOfType storedCrates asyncRust.entityType := by decide +kernel
  have higher := highest _ own ⟨1000000⟩ (by decide +kernel)
  exact absurd higher (by decide)

end FusionMemory
