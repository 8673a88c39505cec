import FusionMemory.Lib.FloatArith
import Mathlib.Data.List.DropRight

/-!
The data model of `fm-core`: memory items and their types, entities, namespaces,
interactions, queries and reports.

Machine integers are `Nat`; the casts that change a value (`as i64` in SQL, hash
arithmetic) are explicit where the code makes them. Weights and scores are of the
arithmetic type `F`. Fields that no modelled function reads (`Interaction.metadata`,
`Interaction.timestamp`, `ToolCall.args`) are left out.
-/

namespace FusionMemory

open Lib

/-! ### Text -/

/-- Unicode `White_Space`. -/
def isWhiteSpace (c : Char) : Bool :=
  [0x09, 0x0A, 0x0B, 0x0C, 0x0D, 0x20, 0x85, 0xA0, 0x1680, 0x2000, 0x2001, 0x2002, 0x2003, 0x2004,
    0x2005, 0x2006, 0x2007, 0x2008, 0x2009, 0x200A, 0x2028, 0x2029, 0x202F, 0x205F, 0x3000].contains
    c.toNat

/-- `s.trim().is_empty()`. -/
def isBlank (s : String) : Bool := s.toList.all isWhiteSpace

/-- `s.trim()`. -/
def trim (s : String) : String :=
  String.ofList ((s.toList.dropWhile isWhiteSpace).rdropWhile isWhiteSpace)

/-- `s.strip_prefix(p)`. -/
def stripPrefix (p s : String) : Option String :=
  if p.toList.isPrefixOf s.toList then some (String.ofList (s.toList.drop p.toList.length)) else none

theorem stripPrefix_append (p s : String) : stripPrefix p (p ++ s) = some s := by
  unfold stripPrefix
  rw [String.toList_append, if_pos (by simp), List.drop_left, String.ofList_toList]

theorem eq_of_stripPrefix {p s rest : String} (stripped : stripPrefix p s = some rest) :
    s = p ++ rest := by
  unfold stripPrefix at stripped
  split_ifs at stripped with starts
  cases stripped
  obtain ⟨tail, split⟩ := List.isPrefixOf_iff_prefix.mp starts
  rw [← String.toList_inj, String.toList_append, String.toList_ofList, ← split, List.drop_left]

/-- `constant_time_eq`, over the bytes of two strings: every byte is looked at. -/
def constantTimeEq (a b : List UInt8) : Bool :=
  if a.length ≠ b.length then false
  else (a.zip b).foldl (fun diff p => diff ||| (p.1 ^^^ p.2)) 0 == 0

theorem foldl_xor_eq_zero_iff (ps : List (UInt8 × UInt8)) :
    ∀ diff : UInt8, ps.foldl (fun diff p => diff ||| (p.1 ^^^ p.2)) diff = 0 ↔
      diff = 0 ∧ ∀ p ∈ ps, p.1 = p.2 := by
  induction ps with
  | nil => simp
  | cons p rest ih =>
      intro diff
      rw [List.foldl_cons, ih, UInt8.or_eq_zero_iff, UInt8.xor_eq_zero_iff, List.forall_mem_cons]
      exact and_assoc

/-- The comparison that looks at every byte is equality. -/
theorem constantTimeEq_iff {a b : List UInt8} : constantTimeEq a b = true ↔ a = b := by
  unfold constantTimeEq
  by_cases length : a.length = b.length
  · rw [if_neg (not_not.mpr length), beq_iff_eq, foldl_xor_eq_zero_iff]
    constructor
    · rintro ⟨-, same⟩
      refine List.ext_getElem length fun i hi hi' => ?_
      exact same (a[i], b[i]) (List.mem_iff_getElem.mpr ⟨i, by rw [List.length_zip]; omega, by simp⟩)
    · rintro rfl
      refine ⟨rfl, fun p mem => ?_⟩
      obtain ⟨i, bound, rfl⟩ := List.mem_iff_getElem.mp mem
      simp
  · rw [if_pos length]
    constructor
    · rintro ⟨⟩
    · rintro rfl
      exact absurd rfl length

/-! ### Memory types and tiers (`memory.rs`) -/

inductive MemoryType where
  | episodic
  | semantic
  | procedural
deriving DecidableEq, Repr

namespace MemoryType

def asStr : MemoryType → String
  | .episodic => "Episodic"
  | .semantic => "Semantic"
  | .procedural => "Procedural"

def parse : String → Option MemoryType
  | "Episodic" => some .episodic
  | "Semantic" => some .semantic
  | "Procedural" => some .procedural
  | _ => none

@[simp] theorem parse_asStr (t : MemoryType) : parse t.asStr = some t := by
  cases t <;> rfl

variable {F : Type} [FloatArith F]

def initialWeight : MemoryType → F
  | .episodic => FloatArith.literal 6 1
  | .semantic => FloatArith.literal 8 1
  | .procedural => FloatArith.literal 10 1

/-- Decay constant in seconds: one day, 30 days, 90 days. -/
def tauSeconds : MemoryType → F
  | .episodic => FloatArith.ofNat 86400
  | .semantic => FloatArith.ofNat 2592000
  | .procedural => FloatArith.ofNat 7776000

end MemoryType

inductive MemoryTier where
  | working
  | short
  | long
deriving DecidableEq, Repr

namespace MemoryTier

/-- The variant name, as serde writes it. -/
def name : MemoryTier → String
  | .working => "Working"
  | .short => "Short"
  | .long => "Long"

def ofName : String → Option MemoryTier
  | "Working" => some .working
  | "Short" => some .short
  | "Long" => some .long
  | _ => none

@[simp] theorem ofName_name (t : MemoryTier) : ofName t.name = some t := by
  cases t <;> rfl

/-- The text of the `tier` column. -/
def asStr : MemoryTier → String
  | .working => "working"
  | .short => "short"
  | .long => "long"

def parse : String → Option MemoryTier
  | "working" => some .working
  | "short" => some .short
  | "long" => some .long
  | _ => none

@[simp] theorem parse_asStr (t : MemoryTier) : parse t.asStr = some t := by
  cases t <;> rfl

end MemoryTier

/-! ### Entities (`entity.rs`) -/

inductive EntityType where
  | user
  | preference
  | project
  | tech
  | behavior
  | goal
  | concept
deriving DecidableEq, Repr

namespace EntityType

def asStr : EntityType → String
  | .user => "User"
  | .preference => "Preference"
  | .project => "Project"
  | .tech => "Tech"
  | .behavior => "Behavior"
  | .goal => "Goal"
  | .concept => "Concept"

def parse : String → Option EntityType
  | "User" => some .user
  | "Preference" => some .preference
  | "Project" => some .project
  | "Tech" => some .tech
  | "Behavior" => some .behavior
  | "Goal" => some .goal
  | "Concept" => some .concept
  | _ => none

@[simp] theorem parse_asStr (t : EntityType) : parse t.asStr = some t := by
  cases t <;> rfl

end EntityType

structure EntityNode where
  id : String
  name : String
  aliases : List String
  entityType : EntityType
deriving DecidableEq, Repr

/-! ### Memory items -/

/-- One stored turn. -/
structure MemoryItem (F : Type) where
  id : String
  interactionId : String
  turnIdx : Nat
  sessionId : String
  tenant : String
  «namespace» : String
  namespaceKey : String
  memoryType : MemoryType
  tier : MemoryTier
  content : String
  entities : List EntityNode
  vectorRef : String
  weight : F
  accessCount : Nat
  lastAccessedTimestamp : Nat
  createdTimestamp : Nat
  provenance : Option String
  tombstone : Bool
  entitiesPending : Bool
deriving DecidableEq, Repr

namespace MemoryItem

variable {F : Type}

/-- The skeleton of one turn: no vector yet, entities still to be extracted. -/
def newTurnSkeleton [FloatArith F] (id interactionId : String) (turnIdx : Nat)
    (sessionId tenant : String) (memoryType : MemoryType) (content : String)
    (createdTimestamp : Nat) : MemoryItem F where
  id := id
  interactionId := interactionId
  turnIdx := turnIdx
  sessionId := sessionId
  tenant := tenant
  «namespace» := ""
  namespaceKey := ""
  memoryType := memoryType
  tier := .working
  content := content
  entities := []
  vectorRef := ""
  weight := memoryType.initialWeight
  accessCount := 0
  lastAccessedTimestamp := createdTimestamp
  createdTimestamp := createdTimestamp
  provenance := none
  tombstone := false
  entitiesPending := true

def withNamespace (item : MemoryItem F) (ns key : String) : MemoryItem F :=
  { item with «namespace» := ns, namespaceKey := key }

end MemoryItem

/-! ### Namespaces (`namespace.rs`) -/

def NS_USER : String := "user"
def NS_PROJECT : String := "project"
def NS_LOCAL : String := "local"

def isValidNamespace (ns : String) : Bool :=
  ns.isEmpty || ns == NS_USER || ns == NS_PROJECT || ns == NS_LOCAL

/-- A visibility filter; the empty namespace filters nothing. -/
structure NamespaceFilter where
  «namespace» : String
  key : String
deriving DecidableEq, Repr

namespace NamespaceFilter

/-- `NamespaceFilter::default()`: global visibility. -/
def default : NamespaceFilter := ⟨"", ""⟩

def isActive (ns : NamespaceFilter) : Bool := !ns.namespace.isEmpty

/-- Visibility of one memory: `project` also sees `user`, `local` sees only itself. -/
def visible (ns : NamespaceFilter) (rowNs rowKey : String) : Bool :=
  if !ns.isActive then true
  else
    let keyOk := ns.key.isEmpty || rowKey == ns.key
    if ns.namespace = NS_USER then rowNs == NS_USER && keyOk
    else if ns.namespace = NS_PROJECT then (rowNs == NS_PROJECT && keyOk) || rowNs == NS_USER
    else if ns.namespace = NS_LOCAL then rowNs == NS_LOCAL && keyOk
    else false

@[simp] theorem isActive_default : default.isActive = false := rfl

@[simp] theorem visible_default (rowNs rowKey : String) : default.visible rowNs rowKey = true := rfl

end NamespaceFilter

/-! ### Interactions, queries and results -/

structure ToolCall where
  name : String
  resultSummary : String
deriving DecidableEq, Repr

structure Turn where
  turnIdx : Nat
  userMessage : String
  assistantMessage : String
  toolCalls : List ToolCall
deriving DecidableEq, Repr

structure Interaction where
  id : String
  sessionId : String
  tenant : String
  «namespace» : String
  namespaceKey : String
  turns : List Turn
deriving DecidableEq, Repr

/-- `ListQuery` of `browse.rs`. -/
structure ListQuery where
  offset : Nat
  limit : Nat
  memoryType : Option String
  «namespace» : String
  namespaceKey : String
  includeTombstoned : Bool
deriving DecidableEq, Repr

structure RetrieveQuery where
  text : String
  topK : Nat
  sessionId : Option String
  tenant : String
  «namespace» : String
  namespaceKey : String
  tierFilter : Option (List MemoryTier)
  tokenBudget : Nat
deriving DecidableEq, Repr

structure ContextBlock (F : Type) where
  interactionId : String
  turns : List Turn
  memoryType : MemoryType
  turnsText : String
  score : F
  sourceEntities : List String
deriving DecidableEq, Repr

structure FormattedContext (F : Type) where
  blocks : List (ContextBlock F)
  totalTokens : Nat
  staleRead : Bool
  lastSyncAt : Nat
deriving DecidableEq, Repr

structure TurnFailure where
  turnIdx : Nat
  stage : String
  error : String
deriving DecidableEq, Repr

structure CommitOutcome where
  memoryIds : List String
  failedTurns : List TurnFailure
deriving DecidableEq, Repr

structure ConsolidationFailure where
  memoryId : String
  stage : String
  error : String
deriving DecidableEq, Repr

structure ConsolidationReport where
  dropped : Nat
  promoted : Nat
  merged : Nat
  summarized : Nat
  reextracted : Nat
  reconciled : Nat
  elapsedMs : Nat
  failures : List ConsolidationFailure
deriving DecidableEq, Repr

/-- `ImportReport` of `import_studio.rs`. -/
structure ImportReport where
  imported : Nat
  skippedArchive : Nat
  skippedEmpty : Nat
  failed : Nat
deriving DecidableEq, Repr

/-! ### Errors (`error.rs`) -/

/-- The error an engine operation returns. Variants that no modelled path builds
are left out. -/
inductive MemoryError where
  | sqlite (msg : String)
  | store (msg : String)
  | notFound (msg : String)
  | unsupported (msg : String)
  | io (msg : String)
  | serde (msg : String)
  | encrypt (msg : String)
  | poisoned
  | busy (msg : String)
deriving DecidableEq, Repr

namespace MemoryError

def toString : MemoryError → String
  | .sqlite m => "sqlite error: " ++ m
  | .store m => "vector store error: " ++ m
  | .notFound m => "not found: " ++ m
  | .unsupported m => "unsupported operation: " ++ m
  | .io m => "io error: " ++ m
  | .serde m => "serde error: " ++ m
  | .encrypt m => "encryption error: " ++ m
  | .poisoned => "lock poisoned (prior panic in critical section, restart required)"
  | .busy m => "resource busy (transient, retry with backoff): " ++ m

def retryable : MemoryError → Bool
  | .busy _ => true
  | _ => false

def isNotFound : MemoryError → Bool
  | .notFound _ => true
  | _ => false

end MemoryError

end FusionMemory
