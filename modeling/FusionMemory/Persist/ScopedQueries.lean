import FusionMemory.Lib.SqlText
import FusionMemory.Persist.Columns
import Mathlib.Data.List.GetD

/-!
The queries of one tenant and one namespace as the store writes them (`fm-persist/src/store.rs`).

Each function puts together the text of a query with numbered placeholders and the list of their
values, and SQLite reads the text. What it returns is what the query of the same name on `Db`
returns (`getByVectorRefsTenantScoped_view` and the two after it), so the text of `ns_predicate`
and `NamespaceFilter::visible` agree.
-/

namespace FusionMemory

open Lib Sql

variable {F : Type} [FloatArith F] [NanTest F]

/-! ### Running a query -/

/-- Comparisons of values of one type; no query here compares a number with a text. -/
def SqlValue.values (F : Type) : Values (SqlValue F) where
  null := .null
  ofNat n := .integer n
  ofText := .text
  eq a b :=
    match a, b with
    | .integer a, .integer b => some (a == b)
    | .text a, .text b => some (a == b)
    | _, _ => none
  gt a b :=
    match a, b with
    | .integer a, .integer b => some (decide (a > b))
    | .text a, .text b => some (decide (a > b))
    | _, _ => none

def MemoryRow.cell (row : MemoryRow F) (name : String) : SqlValue F :=
  (row.cells.lookup name).getD .null

def itemColumns : List String := (MEMORY_ITEM_COLUMNS (F := Unit)).map (·.name)

def itemTables (name : String) : Option (List String) :=
  if name = "memory_item" then some itemColumns else none

def sqlError : Sql.Error → PersistError
  | .malformed => .sqlite "syntax error" false
  | .noSuchTable name => .sqlite ("no such table: " ++ name) false
  | .noSuchColumn name => .sqlite ("no such column: " ++ name) false
  | .variableNumber => .sqlite "variable number must be between ?1 and ?32766" false
  | .parameterCount given expected =>
      .sqlite ("Wrong number of parameters passed to query. Got " ++ toString given ++ ", needed " ++
        toString expected) false

namespace SealedDb

/-- `prepare` and `query_map`, before `row_to_memory`. -/
def query (db : SealedDb F) (sql : String) (bound : List (SqlValue F)) :
    Except PersistError (List (MemoryRow F)) :=
  ((prepare itemTables MAX_VARIABLE_NUMBER sql).bind fun q =>
    q.run (SqlValue.values F) bound db.memoryItem.rows MemoryRow.cell).mapError sqlError

/-! ### The texts -/

/-- `ns_predicate`: the text and the keys to bind, the first under the number `base`. -/
def nsPredicate (ns : NamespaceFilter) (base : Nat) : Except PersistError (String × List String) :=
  if !ns.isActive then .ok ("", [])
  else if !isValidNamespace ns.namespace then .error (.invalidNamespace ns.namespace)
  else
    let keyPlaceholder := "?" ++ toString base
    if ns.namespace = NS_USER then
      if ns.key.isEmpty then .ok (" AND namespace='user'", [])
      else .ok (" AND namespace='user' AND namespace_key=" ++ keyPlaceholder, [ns.key])
    else if ns.namespace = NS_PROJECT then
      if ns.key.isEmpty then .ok (" AND (namespace='project' OR namespace='user')", [])
      else .ok (" AND ((namespace='project' AND namespace_key=" ++ keyPlaceholder ++
        ") OR namespace='user')", [ns.key])
    else if ns.namespace = NS_LOCAL then
      if ns.key.isEmpty then .ok (" AND namespace='local'", [])
      else .ok (" AND namespace='local' AND namespace_key=" ++ keyPlaceholder, [ns.key])
    else .error (.invalidNamespace ns.namespace)

variable [JsonText F] (aead : Aead) (cipher : Option Cipher)

def listAllByTenantScoped (db : SealedDb F) (tenant : String) (ns : NamespaceFilter) :
    Except PersistError (List (MemoryItem F)) := do
  let (pred, nsParams) ← nsPredicate ns 2
  let sql := "SELECT * FROM memory_item WHERE tombstone=0 AND tenant=?1" ++ pred ++
    " ORDER BY created_timestamp ASC"
  let rows ← db.query sql (.text tenant :: nsParams.map .text)
  return rows.map (rowToMemory aead cipher)

def getByVectorRefsTenantScoped (db : SealedDb F) (vecRefs : List Nat) (tenant : String)
    (ns : NamespaceFilter) : Except PersistError (List (MemoryItem F)) :=
  if vecRefs.isEmpty then .ok []
  else do
    let refsStr := vecRefs.map toString
    let placeholders := ",".intercalate
      ((List.range refsStr.length).map fun i => "?" ++ toString (i + 1))
    let tenantPos := refsStr.length + 1
    let (pred, nsParams) ← nsPredicate ns (tenantPos + 1)
    let sql := "SELECT * FROM memory_item WHERE tombstone=0 AND tenant=?" ++ toString tenantPos ++
      pred ++ " AND vector_ref IN (" ++ placeholders ++ ")"
    let rows ← db.query sql (refsStr.map .text ++ .text tenant :: nsParams.map .text)
    return rows.map (rowToMemory aead cipher)

def listChangedSinceScoped (db : SealedDb F) (since : Nat) (ns : NamespaceFilter) :
    Except PersistError (List (MemoryItem F)) := do
  let (pred, nsParams) ← nsPredicate ns 2
  let sql := "SELECT * FROM memory_item WHERE tombstone=0 " ++
    "AND (last_accessed_timestamp > ?1 OR created_timestamp > ?1)" ++ pred ++
    " ORDER BY created_timestamp ASC"
  let rows ← db.query sql (.integer (asI64 since) :: nsParams.map .text)
  return rows.map (rowToMemory aead cipher)

end SealedDb

/-! ### How the texts are read -/

/-- The keys that `ns_predicate` binds. -/
def nsKeys (ns : NamespaceFilter) : List String :=
  if ns.isActive && !ns.key.isEmpty then [ns.key] else []

theorem nsVariables_eq (ns : NamespaceFilter) : (nsKeys ns).length = Db.nsVariables ns := by
  unfold nsKeys Db.nsVariables
  split_ifs <;> rfl

def inNamespace (name : String) : Cond := .eq (.column "namespace") (.text name)

def hasKey (base : Nat) : Cond := .eq (.column "namespace_key") (.param base)

/-- The conditions that the text of `ns_predicate` adds to a conjunction. -/
def nsConds (ns : NamespaceFilter) (base : Nat) : List Cond :=
  let key := if ns.key.isEmpty then [] else [hasKey base]
  if !ns.isActive then []
  else if ns.namespace = NS_USER then inNamespace "user" :: key
  else if ns.namespace = NS_PROJECT then
    [.or (key.foldl .and (inNamespace "project")) (inNamespace "user")]
  else inNamespace "local" :: key

/-- What is put behind a text puts these tokens behind its own. -/
def Appends (text : String) (tokens : List Token) : Prop :=
  ∀ a s, Spells a s → Spells (a ++ text.toList) (s ++ tokens)

section Reading

theorem appends_empty : Appends "" [] := by
  intro a s spells
  rw [String.toList_empty, List.append_nil, List.append_nil]
  exact spells

theorem appends_of_blank {text : String} {tokens : List Token}
    (blank : text.toList.head? = some ' ') (spells : Spells text.toList tokens) :
    Appends text tokens := by
  intro a s before
  cases split : text.toList with
  | nil =>
      rw [split] at blank
      cases blank
  | cons c rest =>
      rw [split] at blank spells
      cases blank
      exact before.append (.inl rfl) spells

/-- A placeholder after a text that ends with a sign. -/
theorem spells_placeholder {text : String} {s : List Token} (closed : Closed text.toList s)
    (n : Nat) :
    Spells (text ++ ("?" ++ toString n)).toList (s ++ [.param n]) := by
  rw [String.toList_append, String.toList_append]
  exact closed.append (spells_param n)

def namespaceTokens (name : String) : List Token := [.word "namespace", .sign '=', .text name]

def keyTokens (base : Nat) : List Token := [.word "namespace_key", .sign '=', .param base]

theorem parses_inNamespace (name : String) : Parses (namespaceTokens name) (inNamespace name) :=
  parses_eq rfl rfl

theorem parses_hasKey (base : Nat) : Parses (keyTokens base) (hasKey base) := parses_eq rfl rfl

theorem namespace_cases {ns : NamespaceFilter} (valid : isValidNamespace ns.namespace = true) :
    ns.isActive = false ∨ ns.isActive = true ∧
      (ns.namespace = NS_USER ∨ ns.namespace = NS_PROJECT ∨ ns.namespace = NS_LOCAL) := by
  unfold NamespaceFilter.isActive
  unfold isValidNamespace at valid
  cases empty : ns.namespace.isEmpty with
  | true => exact .inl rfl
  | false =>
      rw [empty] at valid
      simp only [Bool.false_or, Bool.or_eq_true, beq_iff_eq, or_assoc] at valid
      exact .inr ⟨rfl, valid⟩

/-- The text of `ns_predicate`, as it is read behind a condition. -/
theorem nsPredicate_reads {ns : NamespaceFilter} (valid : isValidNamespace ns.namespace = true)
    (base : Nat) : ∃ pred tokens, SealedDb.nsPredicate ns base = .ok (pred, nsKeys ns) ∧
      Appends pred tokens ∧ Extends tokens (nsConds ns base) := by
  have conj : ∀ name, Extends (.word "AND" :: namespaceTokens name ++ .word "AND" :: keyTokens base)
      [inNamespace name, hasKey base] := fun name =>
    (extends_and (parses_inNamespace name)).append (extends_and (parses_hasKey base))
  have blank : ∀ {text rest : String}, text.toList.head? = some ' ' →
      (text ++ rest).toList.head? = some ' ' := fun {text rest} head => by
    rw [String.toList_append, List.head?_append, head]
    rfl
  unfold SealedDb.nsPredicate nsKeys nsConds
  rcases namespace_cases valid with idle | ⟨active, kind⟩
  · rw [idle]
    exact ⟨"", [], rfl, appends_empty, extends_nil⟩
  · rw [active, valid]
    cases key : ns.key.isEmpty with
    | true =>
        rcases kind with kind | kind | kind
        · rw [kind]
          refine ⟨_, .word "AND" :: namespaceTokens "user", rfl, ?_, ?_⟩
          · exact appends_of_blank rfl (spells_iff.mpr (by decide +kernel))
          · exact extends_and (parses_inNamespace "user")
        · rw [kind]
          refine ⟨_, .word "AND" :: .sign '(' :: (namespaceTokens "project" ++ .word "OR" ::
            (namespaceTokens "user" ++ [.sign ')'])), rfl, ?_, ?_⟩
          · exact appends_of_blank rfl (spells_iff.mpr (by decide +kernel))
          · exact extends_and ((parses_inNamespace "project").paren_or (parses_inNamespace "user"))
        · rw [kind]
          refine ⟨_, .word "AND" :: namespaceTokens "local", rfl, ?_, ?_⟩
          · exact appends_of_blank rfl (spells_iff.mpr (by decide +kernel))
          · exact extends_and (parses_inNamespace "local")
    | false =>
        rcases kind with kind | kind | kind
        · rw [kind]
          refine ⟨_, .word "AND" :: namespaceTokens "user" ++ .word "AND" :: keyTokens base, rfl,
            appends_of_blank (blank rfl) ?_, conj "user"⟩
          have closed : Closed " AND namespace='user' AND namespace_key=".toList (.word "AND" ::
              namespaceTokens "user" ++ [.word "AND", .word "namespace_key", .sign '=']) :=
            closed_of_read (by decide +kernel)
          exact spells_placeholder closed base
        · rw [kind]
          refine ⟨_, .word "AND" :: .sign '(' :: ((.sign '(' :: (namespaceTokens "project" ++
            .word "AND" :: (keyTokens base ++ [.sign ')']))) ++ .word "OR" ::
              (namespaceTokens "user" ++ [.sign ')'])), rfl, appends_of_blank (blank (blank rfl)) ?_,
            extends_and (((parses_inNamespace "project").paren_and (parses_hasKey base)).paren_or
              (parses_inNamespace "user"))⟩
          have closed : Closed " AND ((namespace='project' AND namespace_key=".toList (.word "AND" ::
              .sign '(' :: .sign '(' :: namespaceTokens "project" ++
                [.word "AND", .word "namespace_key", .sign '=']) := closed_of_read (by decide +kernel)
          have second : Spells ") OR namespace='user')".toList
              (.sign ')' :: .word "OR" :: (namespaceTokens "user" ++ [.sign ')'])) :=
            spells_iff.mpr (by decide +kernel)
          rw [String.toList_append]
          exact (spells_placeholder closed base).append (.inr rfl) second
        · rw [kind]
          refine ⟨_, .word "AND" :: namespaceTokens "local" ++ .word "AND" :: keyTokens base, rfl,
            appends_of_blank (blank rfl) ?_, conj "local"⟩
          have closed : Closed " AND namespace='local' AND namespace_key=".toList (.word "AND" ::
              namespaceTokens "local" ++ [.word "AND", .word "namespace_key", .sign '=']) :=
            closed_of_read (by decide +kernel)
          exact spells_placeholder closed base

end Reading

/-! ### What the conditions say -/

section Meaning

variable {row : MemoryRow F} {bound : List (SqlValue F)} {ns : NamespaceFilter} {before : Nat}

theorem eval_inNamespace (name : String) :
    (inNamespace name).eval (SqlValue.values F) row.cell bound = some (row.namespace == name) := rfl

theorem eval_hasKey {key : String} (value : bound.getD before .null = .text key) :
    (hasKey (before + 1)).eval (SqlValue.values F) row.cell bound =
      some (row.namespaceKey == key) := by
  change (SqlValue.values F).eq (.text row.namespaceKey) (bound.getD before .null) = _
  rw [value]
  rfl

/-- The conditions are those of `NamespaceFilter::visible`. -/
theorem eval_nsConds (valid : isValidNamespace ns.namespace = true)
    (value : ∀ key ∈ nsKeys ns, bound.getD before .null = .text key) {c : Cond} {b : Bool}
    (first : c.eval (SqlValue.values F) row.cell bound = some b) :
    ((nsConds ns (before + 1)).foldl .and c).eval (SqlValue.values F) row.cell bound =
      some (b && ns.visible row.namespace row.namespaceKey) := by
  unfold nsConds NamespaceFilter.visible
  rcases namespace_cases valid with idle | ⟨active, kind⟩
  · rw [idle]
    exact first.trans (congrArg some (Bool.and_true b).symm)
  · rw [active]
    unfold nsKeys at value
    rw [active] at value
    cases noKey : ns.key.isEmpty with
    | true =>
        rcases kind with kind | kind | kind
        · rw [kind]
          simp [Cond.eval, eval_inNamespace, first, NS_USER]
        · rw [kind]
          simp [Cond.eval, eval_inNamespace, first, NS_USER, NS_PROJECT]
        · rw [kind]
          simp [Cond.eval, eval_inNamespace, first, NS_USER, NS_PROJECT, NS_LOCAL]
    | false =>
        rw [noKey] at value
        have keyed : (hasKey (before + 1)).eval (SqlValue.values F) row.cell bound =
            some (row.namespaceKey == ns.key) := eval_hasKey (value ns.key (List.mem_singleton_self _))
        rcases kind with kind | kind | kind
        · rw [kind]
          simp [Cond.eval, eval_inNamespace, keyed, first, NS_USER, Bool.and_assoc]
        · rw [kind]
          simp [Cond.eval, eval_inNamespace, keyed, first, NS_USER, NS_PROJECT]
        · rw [kind]
          simp [Cond.eval, eval_inNamespace, keyed, first, NS_USER, NS_PROJECT, NS_LOCAL,
            Bool.and_assoc]

/-- The operands are columns of the table and texts, and the placeholder of the key. -/
theorem operands_nsConds (ns : NamespaceFilter) (base : Nat) :
    ∀ o ∈ (nsConds ns base).flatMap Cond.operands,
      o.wrong itemColumns MAX_VARIABLE_NUMBER = none ∧ o.index = 0 ∨
        nsKeys ns ≠ [] ∧ o = .param base := by
  have names : "namespace" ∈ itemColumns ∧ "namespace_key" ∈ itemColumns := by decide
  unfold nsKeys nsConds inNamespace hasKey
  cases ns.isActive with
  | false => exact fun _ no => (List.not_mem_nil no).elim
  | true =>
      cases ns.key.isEmpty with
      | true =>
          simp only [Bool.not_true, Bool.and_false, Bool.false_eq_true, if_true, if_false]
          split_ifs <;> simp [Cond.operands, Operand.wrong, Operand.index, names]
      | false =>
          simp only [Bool.not_true, Bool.not_false, Bool.and_true, Bool.false_eq_true, if_true,
            if_false]
          split_ifs <;> simp [Cond.operands, Operand.wrong, Operand.index, names]

theorem param_mem_nsConds {base : Nat} (keyed : nsKeys ns ≠ []) :
    .param base ∈ (nsConds ns base).flatMap Cond.operands := by
  unfold nsKeys at keyed
  unfold nsConds inNamespace hasKey
  cases active : ns.isActive with
  | false =>
      rw [active] at keyed
      exact absurd rfl keyed
  | true =>
      cases noKey : ns.key.isEmpty with
      | true =>
          rw [active, noKey] at keyed
          exact absurd rfl keyed
      | false =>
          simp only [Bool.not_true, Bool.false_eq_true, if_false]
          split_ifs <;> simp [Cond.operands]

theorem length_nsKeys (ns : NamespaceFilter) : (nsKeys ns).length ≤ 1 := by
  unfold nsKeys
  split_ifs
  · exact Nat.le_refl 1
  · exact Nat.zero_le 1

/-- With the conditions of a namespace, a conjunction asks for columns of the table and for as many
values as there are, the keys last. -/
theorem operands_scoped {c : Cond} {ds ds' : List Cond}
    (fixed : ∀ o ∈ c.operands ++ (ds ++ ds').flatMap Cond.operands,
      o.wrong itemColumns MAX_VARIABLE_NUMBER = none ∧ o.index ≤ before)
    (reached : ∃ o ∈ c.operands ++ (ds ++ ds').flatMap Cond.operands, o.index = before)
    (room : before + (nsKeys ns).length ≤ MAX_VARIABLE_NUMBER) :
    (∀ o ∈ ((ds ++ (nsConds ns (before + 1) ++ ds')).foldl .and c).operands,
      o.wrong itemColumns MAX_VARIABLE_NUMBER = none) ∧
        ((ds ++ (nsConds ns (before + 1) ++ ds')).foldl .and c).variables =
          before + (nsKeys ns).length := by
  have parts : ∀ o, o ∈ ((ds ++ (nsConds ns (before + 1) ++ ds')).foldl .and c).operands ↔
      o ∈ c.operands ++ (ds ++ ds').flatMap Cond.operands ∨
        o ∈ (nsConds ns (before + 1)).flatMap Cond.operands := by
    intro o
    simp only [operands_conj, List.flatMap_append, List.mem_append]
    tauto
  have keyed : nsKeys ns ≠ [] → (nsKeys ns).length = 1 := fun some =>
    Nat.le_antisymm (length_nsKeys ns) (List.length_pos_iff.mpr some)
  refine ⟨fun o mem => ?_, variables_eq (fun o mem => ?_) ?_⟩
  · rcases (parts o).mp mem with mem | mem
    · exact (fixed o mem).1
    · rcases operands_nsConds ns _ o mem with ⟨right, -⟩ | ⟨some, rfl⟩
      · exact right
      · rw [Operand.wrong, if_pos ⟨Nat.succ_pos _, keyed some ▸ room⟩]
  · rcases (parts o).mp mem with mem | mem
    · exact Nat.le_trans (fixed o mem).2 (Nat.le_add_right _ _)
    · rcases operands_nsConds ns _ o mem with ⟨-, index⟩ | ⟨some, rfl⟩
      · rw [index]
        exact Nat.zero_le _
      · rw [keyed some]
        exact Nat.le_refl _
  · by_cases none : nsKeys ns = []
    · obtain ⟨o, mem, index⟩ := reached
      exact ⟨o, (parts o).mpr (.inl mem), by rw [index, none]; rfl⟩
    · exact ⟨.param (before + 1), (parts _).mpr (.inr (param_mem_nsConds none)), by
        rw [keyed none]; rfl⟩

end Meaning

/-! ### What the queries return -/

section Queries

variable {db : SealedDb F} {ns : NamespaceFilter} {sql : String} {bound : List (SqlValue F)}
  {tokens : List Token} {cond : Cond} {keep : MemoryRow F → Bool}

theorem filter_eval (evals : ∀ row : MemoryRow F,
    cond.eval (SqlValue.values F) row.cell bound = some (keep row)) (rows : List (MemoryRow F)) :
    (rows.filter fun row => cond.eval (SqlValue.values F) row.cell bound == some true) =
      rows.filter keep := by
  refine List.filter_congr fun row _ => ?_
  rw [evals]
  cases keep row <;> rfl

theorem query_ok (spells : Spells sql.toList tokens)
    (parsed : parse tokens = some ⟨"memory_item", cond, none⟩)
    (right : ∀ o ∈ cond.operands, o.wrong itemColumns MAX_VARIABLE_NUMBER = none)
    (count : bound.length = cond.variables)
    (evals : ∀ row : MemoryRow F, cond.eval (SqlValue.values F) row.cell bound = some (keep row)) :
    db.query sql bound = .ok (db.memoryItem.rows.filter keep) := by
  unfold SealedDb.query
  rw [prepare_ok spells parsed rfl right fun _ no => (by cases no)]
  change (Query.run (SqlValue.values F) bound ⟨"memory_item", cond, none⟩ db.memoryItem.rows
    MemoryRow.cell).mapError sqlError = _
  rw [run_ok count rfl, filter_eval evals]
  rfl

theorem query_ok_order (spells : Spells sql.toList tokens)
    (parsed : parse tokens = some ⟨"memory_item", cond, some "created_timestamp"⟩)
    (right : ∀ o ∈ cond.operands, o.wrong itemColumns MAX_VARIABLE_NUMBER = none)
    (count : bound.length = cond.variables)
    (evals : ∀ row : MemoryRow F, cond.eval (SqlValue.values F) row.cell bound = some (keep row)) :
    db.query sql bound =
      .ok (orderBy (fun row => asI64 row.createdTimestamp) (db.memoryItem.rows.filter keep)) := by
  have column : ∀ name ∈ some "created_timestamp", itemColumns.contains name = true := by
    rintro _ ⟨⟩
    decide
  have later : ∀ a b : MemoryRow F, (SqlValue.values F).gt (a.cell "created_timestamp")
      (b.cell "created_timestamp") =
        some (decide (asI64 a.createdTimestamp > asI64 b.createdTimestamp)) := fun _ _ => rfl
  unfold SealedDb.query orderBy
  rw [prepare_ok spells parsed rfl right column]
  change (Query.run (SqlValue.values F) bound ⟨"memory_item", cond, some "created_timestamp"⟩
    db.memoryItem.rows MemoryRow.cell).mapError sqlError = _
  rw [run_ok_order count rfl, filter_eval evals]
  refine congrArg Except.ok ?_
  have same := List.map_insertionSort
    (fun a b : MemoryRow F => (SqlValue.values F).gt (a.cell "created_timestamp")
      (b.cell "created_timestamp") ≠ some true)
    (fun a b : MemoryRow F => asI64 a.createdTimestamp ≤ asI64 b.createdTimestamp) id
    (db.memoryItem.rows.filter keep) fun a _ b _ => by
      rw [later]
      simp
  rwa [List.map_id, List.map_id] at same

/-! The conditions before those of the namespace. -/

def alive : Cond := .eq (.column "tombstone") (.number 0)

def ofTenant (n : Nat) : Cond := .eq (.column "tenant") (.param n)

def aliveTokens : List Token := [.word "tombstone", .sign '=', .number 0]

def tenantTokens (n : Nat) : List Token := [.word "tenant", .sign '=', .param n]

/-- `SELECT * FROM memory_item WHERE`. -/
def selectTokens : List Token :=
  [.word "SELECT", .sign '*', .word "FROM", .word "memory_item", .word "WHERE"]

theorem parses_alive : Parses aliveTokens alive := parses_eq rfl rfl

theorem parses_ofTenant (n : Nat) : Parses (tenantTokens n) (ofTenant n) := parses_eq rfl rfl

theorem eval_alive (row : MemoryRow F) :
    alive.eval (SqlValue.values F) row.cell bound = some (!row.tombstone) := by
  change some ((if row.tombstone then 1 else 0 : Int) == 0) = _
  cases row.tombstone <;> rfl

theorem eval_ofTenant (row : MemoryRow F) {before : Nat} {tenant : String}
    (value : bound.getD before .null = .text tenant) :
    (ofTenant (before + 1)).eval (SqlValue.values F) row.cell bound =
      some (row.tenant == tenant) := by
  change (SqlValue.values F).eq (.text row.tenant) (bound.getD before .null) = _
  rw [value]
  rfl

theorem SealedDb.nsPredicate_invalid (bad : isValidNamespace ns.namespace = false) (base : Nat) :
    SealedDb.nsPredicate ns base = .error (.invalidNamespace ns.namespace) := by
  have active : ns.isActive = true := by
    unfold isValidNamespace at bad
    unfold NamespaceFilter.isActive
    simp_all
  unfold SealedDb.nsPredicate
  rw [active, bad]
  rfl

theorem orderBy_map {R R' : Type} (key : R → Int) (key' : R' → Int) (f : R → R')
    (keeps : ∀ r, key' (f r) = key r) (rows : List R) :
    (orderBy key rows).map f = orderBy key' (rows.map f) :=
  List.map_insertionSort (fun a b => key a ≤ key b) (fun a b => key' a ≤ key' b) f rows
    fun a _ b _ => by rw [keeps, keeps]

omit [FloatArith F] [NanTest F] in
/-- The keys are bound behind the other parameters. -/
theorem getD_nsKeys {params : List (SqlValue F)} {before : Nat} (size : params.length = before) :
    ∀ key ∈ nsKeys ns, (params ++ (nsKeys ns).map SqlValue.text).getD before .null = .text key := by
  subst size
  unfold nsKeys
  split_ifs
  · intro key mem
    obtain rfl := List.mem_singleton.mp mem
    rw [List.getD_eq_getElem?_getD, List.getElem?_append_right (Nat.le_refl _), Nat.sub_self]
    rfl
  · exact fun _ no => (List.not_mem_nil no).elim

/-- A query that selects by a conjunction and the conditions of a namespace, and sorts. -/
theorem scoped_query_order (db : SealedDb F) (params : List (SqlValue F)) (before : Nat)
    {start : String} {s t : List Token} {c : Cond} {ds : List Cond}
    (valid : isValidNamespace ns.namespace = true)
    (spells : Spells start.toList (selectTokens ++ (s ++ t))) (first : Parses s c)
    (more : Extends t ds) (size : params.length = before)
    (fixed : ∀ o ∈ c.operands ++ ds.flatMap Cond.operands,
      o.wrong itemColumns MAX_VARIABLE_NUMBER = none ∧ o.index ≤ before)
    (reached : ∃ o ∈ c.operands ++ ds.flatMap Cond.operands, o.index = before)
    (room : before < MAX_VARIABLE_NUMBER)
    (evals : ∀ (row : MemoryRow F) (keys : List (SqlValue F)), (ds.foldl .and c).eval
      (SqlValue.values F) row.cell (params ++ keys) = some (keep row)) :
    ∃ pred, SealedDb.nsPredicate ns (before + 1) = .ok (pred, nsKeys ns) ∧
      db.query (start ++ pred ++ " ORDER BY created_timestamp ASC")
        (params ++ (nsKeys ns).map SqlValue.text) =
          .ok (orderBy (fun row => asI64 row.createdTimestamp) (db.memoryItem.rows.filter
            fun row => keep row && ns.visible row.namespace row.namespaceKey)) := by
  obtain ⟨pred, tokens, text, appends, extended⟩ := nsPredicate_reads valid (before + 1)
  refine ⟨pred, text, ?_⟩
  have order : Appends " ORDER BY created_timestamp ASC" [.word "ORDER", .word "BY",
      .word "created_timestamp", .word "ASC"] :=
    appends_of_blank rfl (spells_iff.mpr (by decide +kernel))
  have whole := order _ _ (appends _ _ spells)
  rw [← String.toList_append, ← String.toList_append] at whole
  have isTable : KEYWORDS.contains "memory_item" = false := by decide
  have isColumn : KEYWORDS.contains "created_timestamp" = false := by decide
  have parsed := parse_where_order isTable isColumn first (more.append (extended.append extends_nil))
  rw [← List.append_nil ds] at fixed reached
  obtain ⟨right, count⟩ := operands_scoped fixed reached
    (Nat.le_trans (Nat.add_le_add_left (length_nsKeys ns) before) room)
  refine query_ok_order whole (Eq.trans (congrArg parse ?_) parsed) right ?_ fun row => ?_
  · simp only [List.append_assoc, List.append_nil, selectTokens, List.cons_append, List.nil_append]
  · rw [count, List.length_append, List.length_map, size]
  · rw [List.append_nil, List.foldl_append]
    exact eval_nsConds valid (getD_nsKeys size) (evals row _)

variable [JsonText F] (aead : Aead) (cipher : Option Cipher)

omit [NanTest F] in
/-- Rows are selected as the items that they are read as. -/
theorem filter_view (db : SealedDb F) {keep : MemoryRow F → Bool} {p : MemoryItem F → Bool}
    (same : ∀ row, p (rowToMemory aead cipher row) = keep row) :
    (db.memoryItem.rows.filter keep).map (rowToMemory aead cipher) =
      (db.view aead cipher).select p := by
  change _ = (db.memoryItem.rows.map (rowToMemory aead cipher)).filter p
  rw [List.filter_map]
  exact congrArg _ (List.filter_congr fun row _ => (same row).symm)

omit [NanTest F] in
theorem orderBy_view (db : SealedDb F) {keep : MemoryRow F → Bool} {p : MemoryItem F → Bool}
    (same : ∀ row, p (rowToMemory aead cipher row) = keep row) :
    (orderBy (fun row => asI64 row.createdTimestamp) (db.memoryItem.rows.filter keep)).map
        (rowToMemory aead cipher) =
      orderBy (fun m => asI64 m.createdTimestamp) ((db.view aead cipher).select p) := by
  rw [← filter_view aead cipher db same]
  exact orderBy_map (fun row : MemoryRow F => asI64 row.createdTimestamp)
    (fun m : MemoryItem F => asI64 m.createdTimestamp) (rowToMemory aead cipher) (fun _ => rfl) _

theorem listAllByTenantScoped_view (db : SealedDb F) (tenant : String) (ns : NamespaceFilter) :
    db.listAllByTenantScoped aead cipher tenant ns =
      (db.view aead cipher).listAllByTenantScoped tenant ns := by
  unfold SealedDb.listAllByTenantScoped Db.listAllByTenantScoped
  cases valid : isValidNamespace ns.namespace with
  | false =>
      rw [SealedDb.nsPredicate_invalid valid, Db.nsPredicate_invalid valid]
      rfl
  | true =>
      have start : Spells "SELECT * FROM memory_item WHERE tombstone=0 AND tenant=?1".toList
          (selectTokens ++ (aliveTokens ++ .word "AND" :: tenantTokens 1)) :=
        spells_iff.mpr (by decide +kernel)
      have evals : ∀ (row : MemoryRow F) (keys : List (SqlValue F)),
          ([ofTenant 1].foldl .and alive).eval (SqlValue.values F) row.cell ([.text tenant] ++ keys) =
            some (!row.tombstone && row.tenant == tenant) := fun row keys => by
        rw [List.foldl_cons, List.foldl_nil, Cond.eval, eval_alive, eval_ofTenant row rfl, and3_some]
      obtain ⟨pred, text, found⟩ := scoped_query_order db [.text tenant] 1 valid start
        parses_alive (extends_and (parses_ofTenant 1)) rfl (by decide) (by decide) (by decide) evals
      rw [text, Db.nsPredicate_valid valid]
      dsimp only [bind, Except.bind]
      rw [← List.singleton_append, found]
      exact congrArg Except.ok (orderBy_view aead cipher db fun _ => rfl)

/-- A row is alive and was read or made after `since`. -/
def changedSince : Cond :=
  .or (.gt (.column "last_accessed_timestamp") (.param 1))
    (.gt (.column "created_timestamp") (.param 1))

theorem listChangedSinceScoped_view (db : SealedDb F) (since : Nat) (ns : NamespaceFilter) :
    db.listChangedSinceScoped aead cipher since ns =
      (db.view aead cipher).listChangedSinceScoped since ns := by
  unfold SealedDb.listChangedSinceScoped Db.listChangedSinceScoped
  cases valid : isValidNamespace ns.namespace with
  | false =>
      rw [SealedDb.nsPredicate_invalid valid, Db.nsPredicate_invalid valid]
      rfl
  | true =>
      have start : Spells ("SELECT * FROM memory_item WHERE tombstone=0 " ++
          "AND (last_accessed_timestamp > ?1 OR created_timestamp > ?1)").toList
            (selectTokens ++ (aliveTokens ++ .word "AND" :: .sign '(' ::
              ([.word "last_accessed_timestamp", .sign '>', .param 1] ++ .word "OR" ::
                ([.word "created_timestamp", .sign '>', .param 1] ++ [.sign ')'])))) :=
        spells_iff.mpr (by decide +kernel)
      have parses : Parses (.sign '(' :: ([.word "last_accessed_timestamp", .sign '>', .param 1] ++
          .word "OR" :: ([.word "created_timestamp", .sign '>', .param 1] ++ [.sign ')'])))
            changedSince := (parses_gt rfl rfl).paren_or (parses_gt rfl rfl)
      have evals : ∀ (row : MemoryRow F) (keys : List (SqlValue F)),
          ([changedSince].foldl .and alive).eval (SqlValue.values F) row.cell
            ([.integer (asI64 since)] ++ keys) = some (!row.tombstone &&
              (decide (asI64 row.lastAccessedTimestamp > asI64 since) ||
                decide (asI64 row.createdTimestamp > asI64 since))) := fun row keys => by
        have changed : changedSince.eval (SqlValue.values F) row.cell
            ([.integer (asI64 since)] ++ keys) = or3
              (some (decide (asI64 row.lastAccessedTimestamp > asI64 since)))
              (some (decide (asI64 row.createdTimestamp > asI64 since))) := rfl
        rw [List.foldl_cons, List.foldl_nil, Cond.eval, eval_alive, changed, or3_some, and3_some]
      obtain ⟨pred, text, found⟩ := scoped_query_order db [.integer (asI64 since)] 1 valid start
        parses_alive (extends_and parses) rfl (by decide) (by decide) (by decide) evals
      rw [text, Db.nsPredicate_valid valid]
      dsimp only [bind, Except.bind]
      rw [← List.singleton_append, found]
      exact congrArg Except.ok (orderBy_view aead cipher db fun _ => rfl)

/-! The list of vectors. -/

def vectorParams (n : Nat) : List Operand := (List.range n).map fun i => .param (i + 1)

def inRefs (n : Nat) : Cond := .isIn (.column "vector_ref") (vectorParams n)

def refTokens (n : Nat) : List Token :=
  ((List.range n).map fun i => Token.param (i + 1)).intersperse (.sign ',')

theorem spells_placeholders {n : Nat} (some : 0 < n) :
    Spells (",".intercalate ((List.range n).map fun i => "?" ++ toString (i + 1))).toList
      (refTokens n) := by
  rw [String.toList_intercalate, List.map_map]
  refine spells_list ?_ ?_
  · rw [ne_eq, List.map_eq_nil_iff, List.range_eq_nil]
    exact Nat.ne_of_gt some
  · rw [List.forall₂_map_left_iff, List.forall₂_map_right_iff, List.forall₂_same]
    intro i _
    change Spells ("?" ++ toString (i + 1)).toList _
    rw [String.toList_append]
    exact spells_param (i + 1)

theorem parses_inRefs {n : Nat} (some : 0 < n) :
    Parses (.word "vector_ref" :: .word "IN" :: .sign '(' :: (refTokens n ++ [.sign ')']))
      (inRefs n) := by
  refine parses_in rfl ?_ ?_
  · rw [ne_eq, List.map_eq_nil_iff, List.range_eq_nil]
    exact Nat.ne_of_gt some
  · rw [vectorParams, List.map_map, List.map_map]
    rfl

theorem any_range_getD (refs : List String) (x : String) :
    ((List.range refs.length).any fun i => x == refs.getD i "") = refs.contains x := by
  rw [Bool.eq_iff_iff, List.any_eq_true, List.contains_iff_mem, List.mem_iff_getElem]
  constructor
  · rintro ⟨i, inside, same⟩
    have bound := List.mem_range.mp inside
    refine ⟨i, bound, ?_⟩
    rw [List.getD_eq_getElem _ _ bound] at same
    exact (eq_of_beq same).symm
  · rintro ⟨i, bound, same⟩
    refine ⟨i, List.mem_range.mpr bound, ?_⟩
    rw [List.getD_eq_getElem _ _ bound, same]
    exact beq_self_eq_true x

omit [JsonText F] in
theorem eval_inRefs (row : MemoryRow F) (refs : List String) (rest : List (SqlValue F)) :
    (inRefs refs.length).eval (SqlValue.values F) row.cell (refs.map SqlValue.text ++ rest) =
      some (refs.contains row.vectorRef) := by
  have each : ∀ o ∈ vectorParams refs.length, (SqlValue.values F).eq
      ((Operand.column "vector_ref").value (SqlValue.values F) row.cell
        (refs.map SqlValue.text ++ rest))
      (o.value (SqlValue.values F) row.cell (refs.map SqlValue.text ++ rest)) =
        some (row.vectorRef == refs.getD (o.index - 1) "") := by
    intro o mem
    obtain ⟨i, inside, rfl⟩ := List.mem_map.mp mem
    have bound := List.mem_range.mp inside
    have value : (refs.map SqlValue.text ++ rest).getD i .null =
        (.text (refs.getD i "") : SqlValue F) := by
      rw [List.getD_eq_getElem?_getD, List.getElem?_append_left (by rwa [List.length_map]),
        List.getElem?_map, List.getElem?_eq_getElem bound, List.getD_eq_getElem _ _ bound]
      rfl
    change (SqlValue.values F).eq (.text row.vectorRef)
      ((refs.map SqlValue.text ++ rest).getD i .null) = _
    rw [value]
    rfl
  rw [inRefs, eval_isIn each, vectorParams, List.any_map]
  exact congrArg some (any_range_getD refs row.vectorRef)

/-- The operands of the conditions around those of the namespace. -/
theorem operands_refs {n : Nat} (room : n + 1 ≤ MAX_VARIABLE_NUMBER) :
    ∀ o ∈ alive.operands ++ ([ofTenant (n + 1)] ++ [inRefs n]).flatMap Cond.operands,
      o.wrong itemColumns MAX_VARIABLE_NUMBER = none ∧ o.index ≤ n + 1 := by
  have names : ["tombstone", "tenant", "vector_ref"].all itemColumns.contains = true := by decide
  have column : ∀ name ∈ ["tombstone", "tenant", "vector_ref"],
      (Operand.column name).wrong itemColumns MAX_VARIABLE_NUMBER = none := fun name mem => by
    rw [Operand.wrong, if_pos (List.all_eq_true.mp names name mem)]
  have params : ∀ k, 1 ≤ k → k ≤ n + 1 →
      (Operand.param k).wrong itemColumns MAX_VARIABLE_NUMBER = none := fun k pos small => by
    rw [Operand.wrong, if_pos ⟨pos, Nat.le_trans small room⟩]
  intro o mem
  simp only [alive, ofTenant, inRefs, Cond.operands, List.cons_append, List.nil_append,
    List.flatMap_cons, List.flatMap_nil, List.append_nil, List.mem_cons] at mem
  rcases mem with rfl | rfl | rfl | rfl | rfl | mem
  · exact ⟨column _ (by simp), Nat.zero_le _⟩
  · exact ⟨rfl, Nat.zero_le _⟩
  · exact ⟨column _ (by simp), Nat.zero_le _⟩
  · exact ⟨params _ (Nat.succ_pos n) (Nat.le_refl _), Nat.le_refl _⟩
  · exact ⟨column _ (by simp), Nat.zero_le _⟩
  · obtain ⟨i, inside, rfl⟩ := List.mem_map.mp mem
    have bound := List.mem_range.mp inside
    exact ⟨params _ (Nat.succ_pos i) (by omega), Nat.le_of_lt (Nat.succ_lt_succ bound)⟩

omit [JsonText F] in
theorem scoped_query_refs (db : SealedDb F) {refs : List String} (tenant : String)
    (valid : isValidNamespace ns.namespace = true) (some : 0 < refs.length)
    (limit : refs.length + 1 + (nsKeys ns).length ≤ MAX_VARIABLE_NUMBER) :
    ∃ pred, SealedDb.nsPredicate ns (refs.length + 1 + 1) = .ok (pred, nsKeys ns) ∧
      db.query ("SELECT * FROM memory_item WHERE tombstone=0 AND tenant=?" ++
          toString (refs.length + 1) ++ pred ++ " AND vector_ref IN (" ++
          ",".intercalate ((List.range refs.length).map fun i => "?" ++ toString (i + 1)) ++ ")")
        (refs.map SqlValue.text ++ .text tenant :: (nsKeys ns).map SqlValue.text) =
          .ok (db.memoryItem.rows.filter fun row => !row.tombstone && row.tenant == tenant &&
            ns.visible row.namespace row.namespaceKey && refs.contains row.vectorRef) := by
  obtain ⟨pred, tokens, text, appends, extended⟩ := nsPredicate_reads valid (refs.length + 1 + 1)
  refine ⟨pred, text, ?_⟩
  have opened : Closed "SELECT * FROM memory_item WHERE tombstone=0 AND tenant=".toList
      (selectTokens ++ (aliveTokens ++ [.word "AND", .word "tenant", .sign '='])) :=
    closed_of_read (by decide +kernel)
  have list : Appends (" AND vector_ref IN (" ++ (",".intercalate
      ((List.range refs.length).map fun i => "?" ++ toString (i + 1)) ++ ")"))
      ([.word "AND", .word "vector_ref", .word "IN", .sign '('] ++
        (refTokens refs.length ++ [.sign ')'])) := by
    have paren : Closed " AND vector_ref IN (".toList
        [.word "AND", .word "vector_ref", .word "IN", .sign '('] := closed_of_read (by decide +kernel)
    have close : Spells ")".toList [.sign ')'] := spells_iff.mpr (by decide)
    refine appends_of_blank ?_ ?_
    · rw [String.toList_append]
      rfl
    · rw [String.toList_append, String.toList_append]
      exact paren.append ((spells_placeholders some).append (.inr rfl) close)
  have whole := list _ _ (appends _ _ (spells_placeholder opened (refs.length + 1)))
  rw [← String.toList_append, ← String.toList_append] at whole
  have isTable : KEYWORDS.contains "memory_item" = false := by decide
  have parsed := parse_where isTable parses_alive
    ((extends_and (parses_ofTenant (refs.length + 1))).append
      (extended.append (extends_and (parses_inRefs some))))
  have reached : ∃ o ∈ alive.operands ++
      ([ofTenant (refs.length + 1)] ++ [inRefs refs.length]).flatMap Cond.operands,
        o.index = refs.length + 1 :=
    ⟨.param (refs.length + 1), by simp [ofTenant, Cond.operands], rfl⟩
  obtain ⟨right, count⟩ := operands_scoped (operands_refs (by omega)) reached limit
  have same : "SELECT * FROM memory_item WHERE tombstone=0 AND tenant=?" ++
      toString (refs.length + 1) ++ pred ++ " AND vector_ref IN (" ++
      ",".intercalate ((List.range refs.length).map fun i => "?" ++ toString (i + 1)) ++ ")" =
        "SELECT * FROM memory_item WHERE tombstone=0 AND tenant=" ++
          ("?" ++ toString (refs.length + 1)) ++ pred ++ (" AND vector_ref IN (" ++ (",".intercalate
            ((List.range refs.length).map fun i => "?" ++ toString (i + 1)) ++ ")")) := by
    have sign : "SELECT * FROM memory_item WHERE tombstone=0 AND tenant=?" =
        "SELECT * FROM memory_item WHERE tombstone=0 AND tenant=" ++ "?" := by decide +kernel
    rw [sign]
    simp only [String.append_assoc]
  rw [same]
  refine query_ok whole (Eq.trans (congrArg parse ?_) parsed) right ?_ fun row => ?_
  · simp only [selectTokens, aliveTokens, tenantTokens, List.cons_append, List.nil_append]
  · rw [count, List.length_append, List.length_cons, List.length_map, List.length_map]
    omega
  · have tenantValue : (refs.map SqlValue.text ++ SqlValue.text tenant ::
        (nsKeys ns).map SqlValue.text).getD refs.length .null = (.text tenant : SqlValue F) := by
      rw [List.getD_eq_getElem?_getD, List.getElem?_append_right (by rw [List.length_map]),
        List.length_map, Nat.sub_self]
      rfl
    have keyValue : ∀ key ∈ nsKeys ns, (refs.map SqlValue.text ++ SqlValue.text tenant ::
        (nsKeys ns).map SqlValue.text).getD (refs.length + 1) .null = (.text key : SqlValue F) := by
      have size : (refs.map SqlValue.text ++ [(.text tenant : SqlValue F)]).length =
          refs.length + 1 := by rw [List.length_append, List.length_map, List.length_singleton]
      rw [List.append_cons]
      exact getD_nsKeys size
    have first : ([ofTenant (refs.length + 1)].foldl .and alive).eval (SqlValue.values F) row.cell
        (refs.map SqlValue.text ++ .text tenant :: (nsKeys ns).map SqlValue.text) =
          Option.some (!row.tombstone && row.tenant == tenant) := by
      rw [List.foldl_cons, List.foldl_nil, Cond.eval, eval_alive, eval_ofTenant row tenantValue,
        and3_some]
    rw [List.foldl_append, List.foldl_append, List.foldl_cons, List.foldl_nil, Cond.eval,
      eval_nsConds valid keyValue first, eval_inRefs, and3_some]

theorem getByVectorRefsTenantScoped_view (db : SealedDb F) {vecRefs : List Nat} (tenant : String)
    {ns : NamespaceFilter}
    (limit : vecRefs.length + 1 + (nsKeys ns).length ≤ MAX_VARIABLE_NUMBER) :
    db.getByVectorRefsTenantScoped aead cipher vecRefs tenant ns =
      (db.view aead cipher).getByVectorRefsTenantScoped vecRefs tenant ns := by
  unfold SealedDb.getByVectorRefsTenantScoped Db.getByVectorRefsTenantScoped
  split_ifs with none
  · rfl
  have some : 0 < (vecRefs.map toString).length := by
    rw [List.length_map]
    refine List.length_pos_iff.mpr fun empty => none ?_
    rw [empty]
    rfl
  rw [← List.length_map toString] at limit
  generalize vecRefs.map toString = refs at some limit
  dsimp only
  cases valid : isValidNamespace ns.namespace with
  | false =>
      rw [SealedDb.nsPredicate_invalid valid, Db.nsPredicate_invalid valid]
      rfl
  | true =>
      obtain ⟨pred, text, found⟩ := scoped_query_refs db tenant valid some limit
      rw [text, Db.nsPredicate_valid valid]
      dsimp only [bind, Except.bind]
      rw [found, if_neg (not_lt.mpr (nsVariables_eq ns ▸ limit))]
      exact congrArg Except.ok (filter_view aead cipher db fun _ => rfl)

/-- The query returns these rows, each once, but an error for the namespace if it is refused. -/
structure ScopedAnswer (ns : NamespaceFilter) (refused : Prop)
    (result : Except PersistError (List (MemoryItem F))) (rows : List (MemoryItem F)) : Prop where
  ok : ¬ refused → ∃ found, result = .ok found ∧ found.Perm rows
  error : refused → result = .error (.invalidNamespace ns.namespace)

def NAMESPACES : List String := [NS_USER, NS_PROJECT, NS_LOCAL, ""]

theorem isValidNamespace_iff (name : String) : isValidNamespace name = true ↔ name ∈ NAMESPACES := by
  simp only [isValidNamespace, NAMESPACES, Bool.or_eq_true, String.isEmpty_iff, beq_iff_eq,
    List.mem_cons, List.not_mem_nil, or_false]
  tauto

theorem isValidNamespace_eq_false {name : String} (unknown : name ∉ NAMESPACES) :
    isValidNamespace name = false :=
  Bool.eq_false_iff.mpr fun valid => unknown ((isValidNamespace_iff name).mp valid)

/-- The texts of the queries and the visibility in memory agree; an unknown namespace is refused
where a query is made, which it is not for no vectors. -/
theorem scoped_queries_answer (db : SealedDb F) (vecRefs : List Nat) (tenant : String) (since : Nat)
    (ns : NamespaceFilter)
    (limit : vecRefs.length + 1 + (nsKeys ns).length ≤ MAX_VARIABLE_NUMBER) :
    ScopedAnswer ns (ns.namespace ∉ NAMESPACES ∧ vecRefs ≠ [])
        (db.getByVectorRefsTenantScoped aead cipher vecRefs tenant ns)
        ((db.view aead cipher).memoryItem.rows.filter fun m => !m.tombstone && m.tenant == tenant &&
          ns.visible m.namespace m.namespaceKey && (vecRefs.map toString).contains m.vectorRef) ∧
      ScopedAnswer ns (ns.namespace ∉ NAMESPACES)
        (db.listAllByTenantScoped aead cipher tenant ns)
        ((db.view aead cipher).memoryItem.rows.filter fun m => !m.tombstone && m.tenant == tenant &&
          ns.visible m.namespace m.namespaceKey) ∧
      ScopedAnswer ns (ns.namespace ∉ NAMESPACES)
        (db.listChangedSinceScoped aead cipher since ns)
        ((db.view aead cipher).memoryItem.rows.filter fun m => !m.tombstone &&
          (decide (asI64 m.lastAccessedTimestamp > asI64 since) ||
            decide (asI64 m.createdTimestamp > asI64 since)) &&
          ns.visible m.namespace m.namespaceKey) := by
  rw [getByVectorRefsTenantScoped_view aead cipher db tenant limit, listAllByTenantScoped_view,
    listChangedSinceScoped_view]
  unfold Db.getByVectorRefsTenantScoped Db.listAllByTenantScoped Db.listChangedSinceScoped
  refine ⟨⟨fun taken => ?_, fun ⟨unknown, nonempty⟩ => ?_⟩, ⟨fun taken => ?_, fun unknown => ?_⟩,
    ⟨fun taken => ?_, fun unknown => ?_⟩⟩
  · split_ifs with none
    · rw [List.isEmpty_iff.mp none]
      refine ⟨[], rfl, ?_⟩
      simp
    · have known : ns.namespace ∈ NAMESPACES := by
        by_contra unknown
        exact taken ⟨unknown, fun empty => none (List.isEmpty_iff.mpr empty)⟩
      rw [Db.nsPredicate_valid ((isValidNamespace_iff _).mpr known)]
      rw [nsVariables_eq, ← List.length_map toString] at limit
      exact ⟨_, if_neg (not_lt.mpr limit), List.Perm.refl _⟩
  · rw [if_neg fun empty => nonempty (List.isEmpty_iff.mp empty),
      Db.nsPredicate_invalid (isValidNamespace_eq_false unknown)]
    rfl
  · rw [Db.nsPredicate_valid ((isValidNamespace_iff _).mpr (not_not.mp taken))]
    exact ⟨_, rfl, orderBy_perm _ _⟩
  · rw [Db.nsPredicate_invalid (isValidNamespace_eq_false unknown)]
    rfl
  · rw [Db.nsPredicate_valid ((isValidNamespace_iff _).mpr (not_not.mp taken))]
    exact ⟨_, rfl, orderBy_perm _ _⟩
  · rw [Db.nsPredicate_invalid (isValidNamespace_eq_false unknown)]
    rfl

end Queries

/-- A row of a user, seen from a project. -/
def userRow : MemoryRow Fixed :=
  (MemoryItem.newTurnSkeleton "m1" "ix" 0 "s" "" .episodic "text" 1).columns "text" "[]"

def userDb : SealedDb Fixed :=
  SealedDb.empty.putRow { userRow with «namespace» := "user", vectorRef := "7" } []

theorem user_row_answers : ScopedAnswer ⟨"project", "p1"⟩ (¬ "project" ∈ NAMESPACES ∧ [7, 8] ≠ [])
    (userDb.getByVectorRefsTenantScoped Aead.labelled none [7, 8] "" ⟨"project", "p1"⟩)
    (userDb.view Aead.labelled none).memoryItem.rows :=
  (scoped_queries_answer Aead.labelled none userDb [7, 8] "" 0 ⟨"project", "p1"⟩ (by decide)).1

/-- No vectors are asked for, in a namespace that there is not. -/
theorem unknown_namespace_no_vectors : ¬ ∀ (db : SealedDb Fixed) (vecRefs : List Nat)
    (ns : NamespaceFilter), vecRefs.length + 1 + (nsKeys ns).length ≤ MAX_VARIABLE_NUMBER →
      ((∃ e, db.getByVectorRefsTenantScoped Aead.labelled none vecRefs "" ns = .error e) ↔
        ns.namespace ∉ NAMESPACES) := by
  intro always
  obtain ⟨e, failed⟩ := (always SealedDb.empty [] ⟨"shared", ""⟩ (by decide)).mpr (by decide)
  cases failed

end FusionMemory
