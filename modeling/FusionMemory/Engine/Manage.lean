import FusionMemory.Engine.Commit

/-!
Deleting, counting, unmerging and browsing (`fm-engine/src/engine.rs`).
-/

namespace FusionMemory

open Lib

variable {F : Type} [FloatArith F]

/-! ### Deleting -/

def deleteMemory (id : String) : EngineM F Unit := do
  let found : Option (MemoryItem F) ← persistOrFail (.getMemory id)
  match found.bind fun item => parseU64 item.vectorRef with
  | some vecId =>
      let _ ← storeOrFail (.deleteVector vecId)
  | none => pure ()
  let _ ← persistOrFail (.tombstoneMemory id)
  let now ← nowMs
  let _ ← persistOrFail (.appendWop "delete" id now)
  let _ ← persist (.appendAudit now "delete" "delete" id "tombstone")
  return ()

def deleteMemoryTenant (id tenant : String) : EngineM F Unit := do
  let found : Option (MemoryItem F) ← persistOrFail (.getMemory id)
  match found with
  | some m =>
      if !tenant.isEmpty && m.tenant != tenant then
        .fail (.notFound ("memory " ++ id ++ " not in tenant " ++ tenant))
      else deleteMemory id
  | none => deleteMemory id

/-- Delete one memory of a scope: its vector as far as possible, then its row. -/
def deleteScoped (deleted : Nat) (m : MemoryItem F) : EngineM F Nat := do
  match parseU64 m.vectorRef with
  | some vecId =>
      let _ ← store (.deleteVector vecId)
  | none => pure ()
  match ← persist (.tombstoneMemory m.id) with
  | .error _ => return deleted
  | .ok _ => return deleted + 1

def deleteScopeTenant (scope tenant : String) : EngineM F Nat := do
  let items : List (MemoryItem F) ← persistOrFail (.listBySessionTenant scope tenant)
  let deleted ← items.foldlM deleteScoped 0
  if deleted > 0 then
    let now ← nowMs
    let _ ← persistOrFail (.appendWop "delete_scope" scope now)
  return deleted

def deleteScope (eng : MemoryEngine) (sessionId : String) : EngineM F Nat :=
  deleteScopeTenant sessionId eng.tenant

/-! ### Reading -/

def getMemoryTenant (id tenant : String) : EngineM F (Option (MemoryItem F)) := do
  let found : Option (MemoryItem F) ← persistOrFail (.getMemory id)
  return found.filter fun item => tenant.isEmpty || item.tenant == tenant

def countTenant (scope : Option String) (tenant : String) : EngineM F Nat :=
  persistOrFail (.countBySessionTenant scope tenant)

def auditMemoryAccess (entityIds : List String) : EngineM F (List (MemoryItem F)) :=
  persistOrFail (.auditByEntities entityIds)

def listMerges : EngineM F (List MergeLogEntry) := persistOrFail .listMergeLog

def listAuditLog (limit : Nat) : EngineM F (List AuditLogEntry) :=
  persistOrFail (.listAudit (some limit))

/-! ### Browsing -/

def memoryTypeName : MemoryType → String
  | .episodic => "Episodic"
  | .semantic => "Semantic"
  | .procedural => "Procedural"

/-- The page of a query: the rows of its type, oldest first. -/
def ListQuery.page (q : ListQuery) (items : List (MemoryItem F)) : List (MemoryItem F) :=
  let items := match q.memoryType with
    | some mt => items.filter fun i => memoryTypeName i.memoryType == mt
    | none => items
  ((orderBy (fun i => (i.createdTimestamp : Int)) items).drop q.offset).take q.limit

def listMemories (q : ListQuery) (tenant : String) : EngineM F (List (MemoryItem F)) := do
  let ns : NamespaceFilter :=
    if q.namespace.isEmpty then .default else ⟨q.namespace, q.namespaceKey⟩
  let items : List (MemoryItem F) ← persistOrFail (.listAllByTenantScoped tenant ns)
  if q.includeTombstoned then
    -- The query for dead rows knows no tenant and no namespace.
    let dead : List (MemoryItem F) ← persistOrFail .listTombstoned
    return q.page (items ++ dead.filter fun i =>
      (tenant.isEmpty || i.tenant == tenant) && ns.visible i.namespace i.namespaceKey)
  else return q.page items

/-! ### Unmerging -/

/-- Reinsert the vector of a restored source, unless it is still there. -/
def rebuildVector (item : MemoryItem F) : EngineM F Unit :=
  match parseU64 item.vectorRef with
  | none => pure ()
  | some vr => do
      let existing : Option (List F) ← storeOrFail (.getVector vr)
      if existing.isNone then
        let embedded ← embed item.content
        let vec ← Program.ofExcept embedded
        let _ ← storeOrFail (.insertVector vr vec)
        return ()
      else return ()

def unmerge (mergeId : Nat) : EngineM F Bool := do
  let pair : Option (String × String) ← persistOrFail (.unmerge mergeId)
  match pair with
  | none => return false
  | some (sourceId, _) =>
      let found : Option (MemoryItem F) ← persistOrFail (.getMemory sourceId)
      match found with
      | none => return false
      | some item =>
          let item := { item with tombstone := false }
          rebuildVector item
          let _ ← persistOrFail (.putMemory item)
          return true

end FusionMemory
