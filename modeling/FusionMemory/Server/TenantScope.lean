import FusionMemory.Engine.CommitTurns
import FusionMemory.Engine.ConsolidateTenants
import FusionMemory.Engine.Jobs
import FusionMemory.Engine.Staging
import FusionMemory.Lib.DecimalJson
import FusionMemory.Server.Serving

/-!
Which rows the requests of a tenant reach.

For a database and a tenant, `Gettable`, `Listed`, `Counted` and `Audited` are the rows
that a request through `dispatch` may show, `Stored` and `Buried` the rows that it may
write. A method may be given the tenant as an SQL predicate, as a test in memory that
the empty tenant passes for every row, or not at all; `tenantScoped_iff` says for which
databases and tenants that comes to the same.
-/

namespace FusionMemory

open Lib

variable {F : Type} [FloatArith F] [JsonText F]

/-! ### What the engine's methods do -/

section Methods

variable {w w' : World F} {tenant : String}

omit [JsonText F] in
theorem run_getMemoryTenant_eq_ok {id : String} {found : Option (MemoryItem F)}
    (ran : run (getMemoryTenant id tenant) w = (.ok found, w')) :
    found = (w.db.getMemory id).filter fun item => tenant.isEmpty || item.tenant == tenant := by
  unfold getMemoryTenant at ran
  obtain ⟨row, w₁, got, rest⟩ := run_bind_eq_ok ran
  obtain ⟨read, -⟩ := run_persistOrFail_read rfl got
  cases read
  cases rest
  rfl

omit [FloatArith F] [JsonText F] in
theorem ListQuery.mem_page {q : ListQuery} {items : List (MemoryItem F)} {m : MemoryItem F}
    (mem : m ∈ q.page items) : m ∈ items := by
  have sorted := mem_orderBy.mp (List.mem_of_mem_drop (List.mem_of_mem_take mem))
  revert sorted
  cases q.memoryType with
  | none => exact id
  | some mt => exact fun sorted => (List.mem_filter.mp sorted).1

omit [JsonText F] in
/-- A page holds rows of the tenant, and dead rows of any tenant if there is none. -/
theorem run_listMemories_eq_ok {q : ListQuery} {items : List (MemoryItem F)}
    (ran : run (listMemories q tenant) w = (.ok items, w')) {m : MemoryItem F} (listed : m ∈ items) :
    m ∈ w.db.memoryItem.rows ∧ (m.tenant = tenant ∨ tenant = "" ∧ m.tombstone = true) := by
  unfold listMemories at ran
  obtain ⟨live, w₁, got, ran⟩ := run_bind_eq_ok ran
  obtain ⟨read, rfl⟩ := run_persistOrFail_read rfl got
  have ofTenant : m ∈ live → m ∈ w.db.memoryItem.rows ∧
      (m.tenant = tenant ∨ tenant = "" ∧ m.tombstone = true) := by
    intro mem
    obtain ⟨stored, -, same, -⟩ := (Db.mem_listAllByTenantScoped read).mp mem
    exact ⟨stored, .inl same⟩
  cases tombstoned : q.includeTombstoned with
  | true =>
      rw [tombstoned, if_pos rfl] at ran
      obtain ⟨dead, w₂, gotDead, rest⟩ := run_bind_eq_ok ran
      obtain ⟨readDead, -⟩ := run_persistOrFail_read rfl gotDead
      cases readDead
      cases rest
      rcases List.mem_append.mp (ListQuery.mem_page listed) with mem | mem
      · exact ofTenant mem
      · obtain ⟨isDead, visible⟩ := List.mem_filter.mp mem
        obtain ⟨stored, buried⟩ := Db.mem_listTombstoned.mp isDead
        rw [Bool.and_eq_true, Bool.or_eq_true, String.isEmpty_iff, beq_iff_eq] at visible
        refine ⟨stored, ?_⟩
        rcases visible.1 with none | same
        · exact .inr ⟨none, buried⟩
        · exact .inl same
  | false =>
      rw [tombstoned, if_neg (by simp)] at ran
      cases ran
      exact ofTenant (ListQuery.mem_page listed)

omit [JsonText F] in
theorem run_countTenant_eq_ok {scope : Option String} {n : Nat}
    (ran : run (countTenant scope tenant) w = (.ok n, w')) :
    n = w.db.countBySessionTenant scope tenant := by
  obtain ⟨read, -⟩ := run_persistOrFail_read rfl ran
  cases read
  rfl

omit [JsonText F] in
theorem run_auditMemoryAccess_eq_ok {entityIds : List String} {items : List (MemoryItem F)}
    (ran : run (auditMemoryAccess entityIds) w = (.ok items, w')) :
    items = w.db.auditByEntities entityIds := by
  obtain ⟨read, -⟩ := run_persistOrFail_read rfl ran
  cases read
  rfl

/-- A row after a run was there before it, or it is of the tenant. -/
def World.StoresUnder (tenant : String) (w w' : World F) : Prop :=
  ∀ m ∈ w'.db.memoryItem.rows, m ∈ w.db.memoryItem.rows ∨ m.tenant = tenant

omit [FloatArith F] [JsonText F] in
theorem World.StoresUnder.of_rows {w w' : World F}
    (same : w'.db.memoryItem = w.db.memoryItem) : w.StoresUnder tenant w' :=
  fun _ mem => .inl (same ▸ mem)

omit [FloatArith F] [JsonText F] in
theorem World.StoresUnder.trans {w w' w'' : World F} (first : w.StoresUnder tenant w')
    (last : w'.StoresUnder tenant w'') : w.StoresUnder tenant w'' :=
  fun m mem => (last m mem).elim (first m) .inr

/-- A turn stores its row under the tenant of its interaction. -/
theorem writeTurn_storesUnder (eng : MemoryEngine) (now : Nat) (acc : CommitOutcome) (turn : Turn)
    (item : MemoryItem F) (vec : List F) (w : World F) :
    w.StoresUnder item.tenant (run (writeTurn eng now acc turn item vec) w).2 := by
  unfold writeTurn
  rw [run_persist_bind]
  generalize JsonText.print (CommitEnvelope.mk item (some vec)).toJson = payload
  rcases w.execPersist_cases (.putMemoryWithWop item "commit" payload now) with
    done | ⟨e, n, failed⟩
  · rw [done]
    have found : (w.db.putMemoryWithWop item "commit" payload now).getMemory item.id = some item :=
      (w.db.getMemory_putMemory item item.id).trans (if_pos rfl)
    obtain ⟨w', ran, same, entities, pending, row⟩ := run_extractAndAttach
      (w := w.withDb (w.db.putMemoryWithWop item "commit" payload now)) found eng
      (committedContent eng turn)
    change w.StoresUnder item.tenant (run (extractAndAttach eng item.id _ >>= fun _ => _)
      (w.withDb (w.db.putMemoryWithWop item "commit" payload now))).2
    rw [run_bind_ok ran]
    intro m mem
    have got : w'.db.getMemory m.id = some m := Table.find?_of_mem mem
    by_cases new : m.id = item.id
    · rw [new, row] at got
      cases got
      exact .inr rfl
    · rw [same.rows m.id new] at got
      have old := (w.db.getMemory_putMemory item m.id).symm.trans got
      rw [if_neg (Ne.symm new)] at old
      exact .inl (Table.find?_mem old)
  · rw [failed]
    exact .of_rows rfl

theorem commitTurn_storesUnder (eng : MemoryEngine) (sessionId : String) (interaction : Interaction)
    (now : Nat) (acc : CommitOutcome) (turn : Turn) (w : World F) :
    w.StoresUnder interaction.tenant
      (run (commitTurn eng sessionId interaction now acc turn) w).2 := by
  rw [commitTurn_eq, run_newUlid_bind, run_embed_bind]
  generalize (w.withIssued _).env.embed _ _ = embedded
  cases embedded with
  | error e => exact .of_rows rfl
  | ok vec =>
      change w.StoresUnder interaction.tenant (run (store _ >>= fun _ => _) _).2
      rw [run_store_bind]
      generalize after : World.withStore _ _ = w₁
      have same : w₁.db.memoryItem = w.db.memoryItem := by
        rw [← after]
        rfl
      generalize Except.mapError StoreError.toMemory _ = reply
      cases reply with
      | error e => exact .of_rows same
      | ok _ =>
          refine (World.StoresUnder.of_rows same).trans ?_
          exact writeTurn_storesUnder eng now acc turn
            (committedRow eng sessionId interaction now turn _) vec w₁

theorem commitInner_storesUnder (eng : MemoryEngine) (sessionId : String) (interaction : Interaction)
    (w : World F) :
    w.StoresUnder interaction.tenant (run (commitInner eng sessionId interaction) w).2 := by
  unfold commitInner
  rw [run_nowMs_bind]
  refine run_bind_rel (R := World.StoresUnder interaction.tenant) .trans ?_ fun outcome w' _ => ?_
  · exact run_foldlM_rel (R := World.StoresUnder interaction.tenant) (fun _ => .of_rows rfl) .trans
      _ (fun turn _ acc w => commitTurn_storesUnder eng sessionId interaction _ acc turn w) _ _
  · rw [run_persist_bind]
    refine .of_rows ?_
    exact (appendAudit_keeps w' _ _ _ _ _).1

/-- Where nothing fails, a turn is written. -/
theorem run_writeTurn_works {w : World F} (works : w.env.NoFaults) (eng : MemoryEngine) (now : Nat)
    (acc : CommitOutcome) (turn : Turn) (item : MemoryItem F) (vec : List F) :
    ∃ acc' w' m, run (writeTurn eng now acc turn item vec) w = (.ok acc', w') ∧
      w'.db.getMemory item.id = some m ∧ m.tenant = item.tenant := by
  unfold writeTurn
  rw [run_persist_works works]
  generalize JsonText.print (CommitEnvelope.mk item (some vec)).toJson = payload
  have found : (w.db.putMemoryWithWop item "commit" payload now).getMemory item.id = some item :=
    (w.db.getMemory_putMemory item item.id).trans (if_pos rfl)
  obtain ⟨w', ran, -, entities, pending, row⟩ := run_extractAndAttach
    (w := w.withDb (w.db.putMemoryWithWop item "commit" payload now)) found eng
    (committedContent eng turn)
  exact ⟨_, w', _, run_bind_ok ran, row, rfl⟩

theorem run_commitTurn_works {w : World F} (works : w.env.NoFaults) (eng : MemoryEngine)
    (sessionId : String) (interaction : Interaction) (now : Nat) (acc : CommitOutcome) (turn : Turn)
    {vec : List F} (embeds : w.env.embed (w.tick + 1) (committedContent eng turn) = .ok vec)
    (fits : vec.length = w.store.dim) :
    ∃ acc' w' m, run (commitTurn eng sessionId interaction now acc turn) w = (.ok acc', w') ∧
      w'.db.getMemory (w.env.ulid w.tick w.taken).1 = some m ∧ m.tenant = interaction.tenant := by
  rw [commitTurn_eq, run_newUlid_bind, run_embed_bind]
  generalize (w.env.ulid w.tick w.taken).1 = id
  have embedded : (w.withIssued id).env.embed (w.withIssued id).tick (committedContent eng turn) =
      .ok vec := embeds
  rw [embedded]
  change ∃ acc' w' m, run (store (.insertVector _ vec) >>= fun _ => _) _ = _ ∧ _
  rw [run_store_works (w := (w.withIssued id).next) works]
  have inserted : (StoreOp.exec ((w.withIssued id).next.env.ann (w.withIssued id).next.tick).1
      (w.withIssued id).next.store (.insertVector (vectorIdFromUlid id) vec)).1 = .ok () :=
    LocalStore.insertVector_fst fits _
  rw [inserted]
  exact run_writeTurn_works (w := (w.withIssued id).next.withStore _) works eng now acc turn
    (committedRow eng sessionId interaction now turn id) vec

/-- The commit of a single turn leaves the rows that the turn leaves. -/
theorem run_commitInner_single {w w' : World F} {eng : MemoryEngine} {sessionId : String}
    {interaction : Interaction} {turn : Turn} (single : interaction.turns = [turn])
    {outcome : CommitOutcome} (ran : run (commitTurn eng sessionId interaction
      (w.env.clock w.tick) ⟨[], []⟩ turn) w.next = (.ok outcome, w')) :
    ∃ w'', run (commitInner eng sessionId interaction) w = (.ok outcome, w'') ∧
      w''.db.memoryItem = w'.db.memoryItem := by
  have turns : run ([turn].foldlM (commitTurn eng sessionId interaction (w.env.clock w.tick)) ⟨[], []⟩)
      w.next = (.ok outcome, w') := by
    rw [List.foldlM_cons, run_bind_ok ran]
    rfl
  unfold commitInner
  rw [run_nowMs_bind, single, run_bind_ok turns, run_persist_bind]
  exact ⟨_, rfl, (appendAudit_keeps w' _ _ _ _ _).1⟩

/-- The rows that died in a run are of the tenant. -/
def World.BuriesUnder (tenant : String) (w w' : World F) : Prop :=
  ∀ m ∈ w.db.memoryItem.rows, m.tombstone = false → ∀ dead, w'.db.getMemory m.id = some dead →
    dead.tombstone = true → m.tenant = tenant

omit [FloatArith F] [JsonText F] in
theorem World.BuriesUnder.of_kept {w w' : World F} (kept : ∀ m ∈ w.db.memoryItem.rows,
    m.tenant = tenant ∨ w'.db.getMemory m.id = w.db.getMemory m.id) : w.BuriesUnder tenant w' := by
  intro m mem live dead got isDead
  rcases kept m mem with same | same
  · exact same
  · have there : w.db.getMemory m.id = some m := Table.find?_of_mem mem
    rw [same, there] at got
    cases got
    rw [live] at isDead
    cases isDead

omit [JsonText F] in
/-- Only the memory itself is deleted, and only if it is of the tenant. -/
theorem deleteMemoryTenant_buriesUnder (given : tenant ≠ "") (id : String) (w : World F) :
    w.BuriesUnder tenant (run (deleteMemoryTenant id tenant) w).2 := by
  refine .of_kept fun m mem => ?_
  unfold deleteMemoryTenant
  have others (other : m.id ≠ id) : (run (deleteMemory id) (w.withDb w.db)).2.db.getMemory m.id =
      w.db.getMemory m.id :=
    getMemory_run (only_deleteMemory ⟨trivial, fun _ => trivial, Ne.symm other, trivial,
      fun _ => trivial, fun _ => trivial⟩) _
  obtain ⟨reply, ran, reads⟩ := run_read w (.getMemory id) rfl
  cases reply with
  | error e =>
      rw [run_bind_error ran]
      exact .inr rfl
  | ok found =>
      have read : w.db.getMemory id = found := Except.ok.inj (reads found rfl)
      rw [run_bind_ok ran]
      cases found with
      | none => exact .inr (others fun same => Table.find?_eq_none_iff.mp read m mem same)
      | some item =>
          dsimp only
          split_ifs with denied
          · exact .inr rfl
          · by_cases same : m.id = id
            · have there : w.db.getMemory id = some m := same ▸ Table.find?_of_mem mem
              rw [read] at there
              cases there
              left
              simpa [given] using denied
            · exact .inr (others same)

omit [JsonText F] in
/-- The memories of the scope that are deleted were read as the tenant's. -/
theorem deleteScopeTenant_buriesUnder (scope : String) (w : World F) :
    w.BuriesUnder tenant (run (deleteScopeTenant scope tenant) w).2 := by
  refine .of_kept fun m mem => ?_
  obtain ⟨reply, ran, reads⟩ := run_read w (.listBySessionTenant scope tenant) rfl
  unfold deleteScopeTenant
  cases reply with
  | error e =>
      rw [run_bind_error ran]
      exact .inr rfl
  | ok items =>
      have read : w.db.listBySessionTenant scope tenant = items := Except.ok.inj (reads items rfl)
      rw [run_bind_ok ran]
      by_cases listed : m.id ∈ items.map (·.id)
      · obtain ⟨m', mem', same⟩ := List.mem_map.mp listed
        rw [← read] at mem'
        obtain ⟨stored, found⟩ := Db.mem_select.mp (mem_orderBy.mp mem')
        obtain rfl := Table.eq_of_key_eq stored mem same
        simp only [Bool.and_eq_true, beq_iff_eq] at found
        exact .inl found.1.2
      · right
        refine getMemory_run (only_deleteItems items (fun _ => trivial) (fun m' mem' => ?_) trivial
          (fun _ _ => trivial) scope) (w.withDb w.db)
        exact fun same => listed (List.mem_map.mpr ⟨m', mem', same⟩)

end Methods

/-! ### What the methods of the server do -/

section Handlers

variable {eng : MemoryEngine} {outside : (r : ServerRequest) → r.Reply F} {p : Json F}
  {tenant : String} {w w' : World F}

theorem run_get_eq_ok {found : Option (MemoryItem F)} (ran : Program.run (served eng outside)
    (Rpc.get p tenant) w = (.ok (.memory found), w')) :
    ∃ id, found = (w.db.getMemory id).filter fun item =>
      tenant.isEmpty || item.tenant == tenant := by
  obtain ⟨id, b, -, done, same⟩ := run_method_eq_ok.mp ran
  cases same
  exact ⟨id, run_getMemoryTenant_eq_ok done⟩

theorem run_audit_eq_ok {items : List (MemoryItem F)} (ran : Program.run (served eng outside)
    (Rpc.audit p) w = (.ok (.memories items), w')) :
    ∃ entityIds, items = w.db.auditByEntities entityIds := by
  obtain ⟨entityIds, b, -, done, same⟩ := run_method_eq_ok.mp ran
  cases same
  exact ⟨entityIds, run_auditMemoryAccess_eq_ok done⟩

theorem run_count_eq_ok {n : Nat} (ran : Program.run (served eng outside)
    (Rpc.count p tenant) w = (.ok (.count n), w')) :
    ∃ scope, Rpc.optionalText p 1 0 "scope" = some scope ∧
      n = w.db.countBySessionTenant scope tenant := by
  obtain ⟨scope, b, given, done, same⟩ := run_method_eq_ok.mp ran
  cases same
  exact ⟨scope, given, run_countTenant_eq_ok done⟩

theorem run_list_eq_ok {items : List (MemoryItem F)} (ran : Program.run (served eng outside)
    (Rpc.list p tenant) w = (.ok (.memories items), w')) :
    ∃ q, run (listMemories q tenant) w = (.ok items, w') := by
  unfold Rpc.list at ran
  rw [run_params_bind] at ran
  split at ran
  · rename_i q _
    split_ifs at ran
    · cases ran
    · cases unknown : q.memoryType.filter
          fun t => !(["Episodic", "Semantic", "Procedural"].contains t) with
      | some t =>
          rw [unknown] at ran
          cases ran
      | none =>
          rw [unknown] at ran
          dsimp only at ran
          rw [run_validateNamespace_bind] at ran
          split_ifs at ran
          · obtain ⟨b, done, same⟩ := run_callEngine_answer_eq_ok.mp ran
            cases same
            exact ⟨q, done⟩
          · cases ran
  · cases ran

/-- A page without filters. -/
theorem run_list_ok {offset limit : Nat}
    (offsetGiven : p.defaulted 6 0 "offset" 0 (Json.asUnsigned 64) = some offset)
    (limitGiven : p.defaulted 6 1 "limit" Rpc.DEFAULT_LIST_LIMIT (Json.asUnsigned 64) = some limit)
    (othersMissing : ∀ index name, name ∉ ["offset", "limit"] → p.field 6 index name = some none)
    (inRange : limit ≠ 0 ∧ limit ≤ Rpc.MAX_LIST_LIMIT) {items : List (MemoryItem F)}
    (ran : run (listMemories ⟨offset, limit, none, "", "", false⟩ tenant) w = (.ok items, w')) :
    Program.run (served eng outside) (Rpc.list p tenant) w = (.ok (.memories items), w') := by
  have defaults {α : Type} (index : Nat) (name : String) (fallback : α) (decode : Json F → Option α)
      (other : name ∉ ["offset", "limit"]) :
      p.defaulted 6 index name fallback decode = some fallback := by
    unfold Json.defaulted
    rw [othersMissing index name other]
    rfl
  unfold Rpc.list Rpc.optionalText
  rw [run_params_bind, offsetGiven, limitGiven, defaults 2 "memory_type" _ _ (by decide),
    defaults 3 "namespace" _ _ (by decide), defaults 4 "namespace_key" _ _ (by decide),
    defaults 5 "include_tombstoned" _ _ (by decide)]
  simp only [Option.bind_eq_bind, Option.bind_some, Option.pure_def]
  rw [if_neg (by omega)]
  dsimp only [Option.filter]
  rw [run_validateNamespace_bind, if_pos (show isValidNamespace "" = true from rfl)]
  exact run_callEngine_answer_eq_ok.mpr ⟨items, ran, rfl⟩

/-- A commit of a tenant stores under this tenant, whatever the interaction says. -/
theorem commit_storesUnder (given : tenant ≠ "") :
    w.StoresUnder tenant (Program.run (served eng outside) (Rpc.commit p tenant) w).2 := by
  have stores : ∀ (sessionId ns : String) (interaction : Interaction),
      interaction.tenant = tenant → w.StoresUnder tenant (Program.run (served eng outside) (do
        validateNamespace ns
        let outcome ← callEngine (.commitEpisodicMemoryDetailed sessionId interaction)
        return (RpcResult.committed outcome : RpcResult F)) w).2 := by
    intro sessionId ns interaction same
    rw [run_validateNamespace_bind]
    split_ifs
    · rw [run_callEngine_answer]
      exact same ▸ commitInner_storesUnder eng sessionId interaction w
    · exact .of_rows rfl
  unfold Rpc.commit
  rw [run_params_bind]
  split
  · rename_i decoded _
    obtain ⟨sessionId, interaction, ns, key⟩ := decoded
    dsimp only
    rw [if_neg (by simpa using given)]
    cases ns with
    | none => exact stores _ _ _ (by cases key <;> rfl)
    | some ns =>
        change w.StoresUnder tenant (Program.run (served eng outside)
          (validateNamespace ns >>= fun _ => _) w).2
        rw [run_validateNamespace_bind]
        split_ifs
        · exact stores _ _ _ (by cases key <;> rfl)
        · exact .of_rows rfl
  · exact .of_rows rfl

/-- A commit without a tenant leaves the client's. -/
theorem run_commit_default {sessionId : String} {interaction : Interaction} {outcome : CommitOutcome}
    (sessionGiven : p.required 4 0 "session_id" Json.asString = some sessionId)
    (interactionGiven : p.required 4 1 "interaction" Interaction.fromJson = some interaction)
    (noNamespace : Rpc.optionalText p 4 2 "namespace" = some none)
    (noKey : Rpc.optionalText p 4 3 "namespace_key" = some none)
    (valid : isValidNamespace interaction.namespace = true)
    (ran : run (commitInner eng sessionId interaction) w = (.ok outcome, w')) :
    Program.run (served eng outside) (Rpc.commit p "") w = (.ok (.committed outcome), w') := by
  unfold Rpc.commit
  rw [run_params_bind, sessionGiven, interactionGiven, noNamespace, noKey]
  change Program.run (served eng outside) (validateNamespace interaction.namespace >>= fun _ => _) w = _
  rw [run_validateNamespace_bind, if_pos valid]
  exact run_callEngine_answer_eq_ok.mpr ⟨outcome, ran, rfl⟩

theorem delete_buriesUnder (given : tenant ≠ "") :
    w.BuriesUnder tenant (Program.run (served eng outside) (Rpc.delete p tenant) w).2 := by
  unfold Rpc.delete
  rw [run_params_bind]
  split
  · rename_i decoded _
    rw [run_requireConfirm_bind]
    split_ifs
    · change w.BuriesUnder tenant (Program.run (served eng outside)
        (do
          let _ ← callEngine (.deleteMemoryTenant decoded.1 tenant)
          return RpcResult.text "deleted") w).2
      rw [run_callEngine_answer]
      exact deleteMemoryTenant_buriesUnder given decoded.1 w
    · exact .of_kept fun _ _ => .inr rfl
  · exact .of_kept fun _ _ => .inr rfl

theorem deleteScope_buriesUnder :
    w.BuriesUnder tenant (Program.run (served eng outside) (Rpc.deleteScope p tenant) w).2 := by
  unfold Rpc.deleteScope
  rw [run_params_bind]
  split
  · rename_i decoded _
    rw [run_requireConfirm_bind]
    split_ifs
    · change w.BuriesUnder tenant (Program.run (served eng outside) (do
        let n ← callEngine (.deleteScopeTenant decoded.1 tenant)
        return RpcResult.deletedCount n) w).2
      rw [run_callEngine_answer]
      exact deleteScopeTenant_buriesUnder decoded.1 w
    · exact .of_kept fun _ _ => .inr rfl
  · exact .of_kept fun _ _ => .inr rfl

end Handlers

/-! ### The rows of a tenant -/

section Reach

variable (eng : MemoryEngine) (db : Db F) (tenant : String)

/-- `req`, sent for the tenant to a server with the database `db`, may be answered with
`result` and leave `db'`. -/
def MayAnswer (req : RpcRequest F) (result : Except RpcError (RpcResult F)) (db' : Db F) : Prop :=
  ∃ w w', w.db = db ∧ w'.db = db' ∧ Answers eng tenant req w result w'

def Gettable (m : MemoryItem F) : Prop :=
  ∃ req db', req.name = "get" ∧ MayAnswer eng db tenant req (.ok (.memory (some m))) db'

def Listed (m : MemoryItem F) : Prop :=
  ∃ req items db', req.name = "list" ∧ MayAnswer eng db tenant req (.ok (.memories items)) db' ∧
    m ∈ items

def Audited (m : MemoryItem F) : Prop :=
  ∃ req items db', req.name = "audit" ∧ MayAnswer eng db tenant req (.ok (.memories items)) db' ∧
    m ∈ items

/-- A count is one less without the row. -/
def Counted (m : MemoryItem F) : Prop :=
  ∃ req n db' db'', req.name = "count" ∧ MayAnswer eng db tenant req (.ok (.count (n + 1))) db' ∧
    MayAnswer eng (db.physicalDelete m.id) tenant req (.ok (.count n)) db''

/-- A commit leaves the row behind, which was not there before it. -/
def Stored (m : MemoryItem F) : Prop :=
  ∃ req result db', req.name = "commit" ∧ MayAnswer eng db tenant req result db' ∧
    m ∈ db'.memoryItem.rows ∧ m ∉ db.memoryItem.rows

/-- A deletion finds the row alive and leaves it dead. -/
def Buried (m : MemoryItem F) : Prop :=
  ∃ req result db' dead, (req.name = "delete" ∨ req.name = "delete_scope") ∧
    MayAnswer eng db tenant req result db' ∧ m ∈ db.memoryItem.rows ∧ m.tombstone = false ∧
    db'.getMemory m.id = some dead ∧ dead.tombstone = true

/-- Every method shows and writes rows of the tenant only, and those that show rows agree
about the live ones. -/
structure TenantScoped : Prop where
  stored : ∀ m, Stored eng db tenant m → m.tenant = tenant
  gettable : ∀ m, Gettable eng db tenant m → m.tenant = tenant
  listed : ∀ m, Listed eng db tenant m → m.tenant = tenant
  counted : ∀ m ∈ db.memoryItem.rows, Counted eng db tenant m → m.tenant = tenant
  audited : ∀ m, Audited eng db tenant m → m.tenant = tenant
  buried : ∀ m, Buried eng db tenant m → m.tenant = tenant
  agree : ∀ m ∈ db.memoryItem.rows, m.tombstone = false →
    (Gettable eng db tenant m ↔ Listed eng db tenant m ∧ Counted eng db tenant m)

end Reach

section Scopes

variable {eng : MemoryEngine} {db : Db F} {tenant : String} {m : MemoryItem F}

/-- The method behind an answer that is not an error. -/
theorem MayAnswer.method {req : RpcRequest F} {r : RpcResult F} {db' : Db F} {name : String}
    (answers : MayAnswer eng db tenant req (.ok r) db') (named : req.name = name)
    (plain : stripPrefix "v1." name = none) : ∃ outside w w', w.db = db ∧ w'.db = db' ∧
      Program.run (served eng outside) (Rpc.route name req.params tenant) w = (.ok r, w') := by
  obtain ⟨w, w', before, after, answers⟩ := answers
  rcases answers.route with ⟨⟨e, refused⟩, -⟩ | ⟨outside, ran⟩
  · cases refused
  · exact ⟨outside, w, w', before, after, RpcRequest.route_eq named plain tenant ▸ ran⟩

/-- What a method answers in a world without failures, may be answered. -/
theorem MayAnswer.of_run {name : String} {params : Json F} {r : RpcResult F} {v : World F}
    (ran : Program.run (served eng ServerRequest.unanswered) (Rpc.route name params tenant)
      (World.fresh .quiet db (.empty 0)) = (.ok r, v)) :
    MayAnswer eng db tenant ⟨"2.0", name, params, .int 0⟩ (.ok r) v.db :=
  ⟨_, v, rfl, rfl, (answers_iff rfl).mpr ⟨_, ran⟩⟩

theorem Gettable.of_empty_or_same (got : Gettable eng db tenant m) :
    m ∈ db.memoryItem.rows ∧ (tenant = "" ∨ m.tenant = tenant) := by
  obtain ⟨req, db', named, answers⟩ := got
  obtain ⟨outside, w, w', rfl, -, ran⟩ := answers.method named rfl
  obtain ⟨id, found⟩ := run_get_eq_ok ran
  obtain ⟨row, visible⟩ := Option.filter_eq_some_iff.mp found.symm
  rw [Bool.or_eq_true, String.isEmpty_iff, beq_iff_eq] at visible
  exact ⟨Table.find?_mem row, visible⟩

theorem Listed.of_tenant (shown : Listed eng db tenant m) :
    m ∈ db.memoryItem.rows ∧ (m.tenant = tenant ∨ tenant = "" ∧ m.tombstone = true) := by
  obtain ⟨req, items, db', named, answers, mem⟩ := shown
  obtain ⟨outside, w, w', rfl, -, ran⟩ := answers.method named rfl
  obtain ⟨q, done⟩ := run_list_eq_ok ran
  exact run_listMemories_eq_ok done mem

/-- A row that carries one of the entities is found whatever its tenant. -/
theorem audited_iff : Audited eng db tenant m ↔
    m ∈ db.memoryItem.rows ∧ m.tombstone = false ∧ ∃ entityId, (m.id, entityId) ∈ db.memoryEntity := by
  have hits (entityIds : List String) : m ∈ db.auditByEntities entityIds ↔ m ∈ db.memoryItem.rows ∧
      ∃ entityId ∈ entityIds, (m.id, entityId) ∈ db.memoryEntity ∧ m.tombstone = false := by
    unfold Db.auditByEntities
    rw [mem_orderBy, List.mem_flatMap]
    constructor
    · rintro ⟨m', stored, mem⟩
      obtain ⟨me, linked, rfl⟩ := List.mem_map.mp mem
      obtain ⟨link, ok⟩ := List.mem_filter.mp linked
      simp only [Bool.and_eq_true, beq_iff_eq, List.contains_iff_mem, Bool.not_eq_true'] at ok
      exact ⟨stored, me.2, ok.1.2, ok.1.1 ▸ link, ok.2⟩
    · rintro ⟨stored, entityId, asked, link, live⟩
      refine ⟨m, stored, List.mem_map.mpr ⟨(m.id, entityId), List.mem_filter.mpr ⟨link, ?_⟩, rfl⟩⟩
      simp [asked, live]
  constructor
  · rintro ⟨req, items, db', named, answers, mem⟩
    obtain ⟨outside, w, w', rfl, -, ran⟩ := answers.method named rfl
    obtain ⟨entityIds, rfl⟩ := run_audit_eq_ok ran
    obtain ⟨stored, entityId, -, link, live⟩ := (hits entityIds).mp mem
    exact ⟨stored, live, entityId, link⟩
  · rintro ⟨stored, live, entityId, link⟩
    refine ⟨⟨"2.0", "audit", .obj [("entity_ids", .arr [.str entityId])], .int 0⟩, _, _,
      RpcRequest.name_plain rfl _ _ _,
      .of_run (v := (World.fresh .quiet db (.empty 0)).withDb db) ?_,
      (hits [entityId]).mpr ⟨stored, entityId, List.mem_singleton_self _, link, live⟩⟩
    exact run_method_eq_ok.mpr ⟨[entityId], _, rfl, rfl, rfl⟩

theorem Gettable.of_row (stored : m ∈ db.memoryItem.rows) (same : m.tenant = tenant) :
    Gettable eng db tenant m := by
  refine ⟨⟨"2.0", "get", .obj [("id", .str m.id)], .int 0⟩, _, RpcRequest.name_plain rfl _ _ _,
    .of_run (v := (World.fresh .quiet db (.empty 0)).withDb db) ?_⟩
  have found : ((World.fresh .quiet db (.empty 0)).db.getMemory m.id).filter
      (fun item => tenant.isEmpty || item.tenant == tenant) = some m := by
    rw [Option.filter_eq_some_iff]
    exact ⟨Table.find?_of_mem stored, by simp [same]⟩
  refine run_method_eq_ok.mpr ⟨m.id, _, rfl, rfl, ?_⟩
  exact congrArg RpcResult.memory found

/-- A live row of the tenant is on one of the pages. -/
theorem Listed.of_row (rowids : db.memoryItem.rows.length < 2 ^ 63)
    (stored : m ∈ db.memoryItem.rows) (live : m.tombstone = false) (same : m.tenant = tenant) :
    Listed eng db tenant m := by
  let sorted := orderBy (fun i => (i.createdTimestamp : Int))
    (tenantRows db.memoryItem tenant .default)
  have listed : m ∈ sorted := by
    rw [mem_orderBy]
    simp [tenantRows, stored, live, same]
  have few : sorted.length ≤ db.memoryItem.rows.length := by
    rw [(orderBy_perm _ _).length_eq, tenantRows, (orderBy_perm _ _).length_eq]
    exact List.length_filter_le _ _
  obtain ⟨k, inside, here⟩ := List.getElem_of_mem listed
  have page : ListQuery.page ⟨k, 1, none, "", "", false⟩ (tenantRows db.memoryItem tenant .default) =
      [m] := by
    change (sorted.drop k).take 1 = [m]
    rw [List.drop_eq_getElem_cons inside, here]
    rfl
  have listing : run (listMemories ⟨k, 1, none, "", "", false⟩ tenant)
      (World.fresh .quiet db (.empty 0)) =
        (.ok [m], (World.fresh .quiet db (.empty 0)).withDb db) := by
    unfold listMemories
    rw [run_bind_ok (run_listAllByTenantScoped Env.quiet_noFaults rfl tenant)]
    exact congrArg (fun items => (Except.ok items, _)) page
  refine ⟨⟨"2.0", "list", .obj [("offset", .ofNat k), ("limit", .ofNat 1)], .int 0⟩, [m], _,
    RpcRequest.name_plain rfl _ _ _,
    .of_run (v := (World.fresh .quiet db (.empty 0)).withDb db) ?_, List.mem_singleton_self m⟩
  refine run_list_ok ?_ ?_ (fun index name other => ?_) ⟨one_ne_zero, by decide⟩ listing
  · rw [Json.defaulted_of_mem (by simp) List.mem_cons_self]
    exact Json.asUnsigned_ofNat (by omega)
  · rw [Json.defaulted_of_mem (by simp) (List.mem_cons_of_mem _ List.mem_cons_self)]
    exact Json.asUnsigned_ofNat (by decide)
  · exact Json.field_of_notMem (by simpa using other)

omit [FloatArith F] [JsonText F] in
/-- A row makes a difference to the counts that it is in. -/
theorem countBySessionTenant_physicalDelete (stored : m ∈ db.memoryItem.rows)
    (scope : Option String) : db.countBySessionTenant scope tenant =
      (db.physicalDelete m.id).countBySessionTenant scope tenant +
        if !m.tombstone && m.tenant == tenant && (match scope with
          | some s => m.sessionId == s
          | none => true) then 1 else 0 :=
  Table.length_filter_delete stored (by simp) _

theorem Counted.of_tenant (stored : m ∈ db.memoryItem.rows) (counted : Counted eng db tenant m) :
    m.tenant = tenant := by
  obtain ⟨req, n, db', db'', named, whole, less⟩ := counted
  obtain ⟨outside, w, w', rfl, -, ran⟩ := whole.method named rfl
  obtain ⟨outside', w₁, w₁', deleted, -, ran'⟩ := less.method named rfl
  obtain ⟨scope, given, all⟩ := run_count_eq_ok ran
  obtain ⟨scope', given', rest⟩ := run_count_eq_ok ran'
  rw [given] at given'
  cases given'
  rw [countBySessionTenant_physicalDelete stored, ← deleted, ← rest] at all
  split_ifs at all with found
  · simp only [Bool.and_eq_true, beq_iff_eq] at found
    exact found.1.2
  · omega

theorem mayAnswer_count (eng : MemoryEngine) (db : Db F) (tenant : String) :
    MayAnswer eng db tenant ⟨"2.0", "count", .obj [], .int 0⟩
      (.ok (.count (db.countBySessionTenant none tenant))) db :=
  .of_run (v := (World.fresh .quiet db (.empty 0)).withDb db)
    (run_method_eq_ok.mpr ⟨none, _, rfl, rfl, rfl⟩)

theorem Counted.of_row (stored : m ∈ db.memoryItem.rows) (live : m.tombstone = false)
    (same : m.tenant = tenant) : Counted eng db tenant m := by
  refine ⟨_, (db.physicalDelete m.id).countBySessionTenant none tenant, db, _,
    RpcRequest.name_plain rfl _ _ _, ?_, mayAnswer_count eng (db.physicalDelete m.id) tenant⟩
  have one : db.countBySessionTenant none tenant =
      (db.physicalDelete m.id).countBySessionTenant none tenant + 1 := by
    rw [countBySessionTenant_physicalDelete stored, if_pos (by simp [live, same])]
  rw [← one]
  exact mayAnswer_count eng db tenant

theorem Stored.of_tenant (given : tenant ≠ "") (stored : Stored eng db tenant m) :
    m.tenant = tenant := by
  obtain ⟨req, result, db', named, ⟨w, w', rfl, rfl, answers⟩, after, before⟩ := stored
  rcases answers.route with ⟨-, rfl⟩ | ⟨outside, ran⟩
  · exact absurd after before
  · rw [RpcRequest.route_eq named rfl] at ran
    have stores : w.StoresUnder tenant
        (Program.run (served eng outside) (Rpc.commit req.params tenant) w).2 :=
      commit_storesUnder given
    change Program.run _ (Rpc.commit req.params tenant) w = _ at ran
    rw [ran] at stores
    exact (stores m after).resolve_left before

theorem Buried.of_tenant (given : tenant ≠ "") (buried : Buried eng db tenant m) :
    m.tenant = tenant := by
  obtain ⟨req, result, db', dead, named, ⟨w, w', rfl, rfl, answers⟩, stored, live, after, isDead⟩ :=
    buried
  have buries : w.BuriesUnder tenant w' := by
    rcases answers.route with ⟨-, rfl⟩ | ⟨outside, ran⟩
    · exact .of_kept fun _ _ => .inr rfl
    · rcases named with named | named
      · rw [RpcRequest.route_eq named rfl] at ran
        have buries : w.BuriesUnder tenant
            (Program.run (served eng outside) (Rpc.delete req.params tenant) w).2 :=
          delete_buriesUnder given
        change Program.run _ (Rpc.delete req.params tenant) w = _ at ran
        rwa [ran] at buries
      · rw [RpcRequest.route_eq named rfl] at ran
        have buries : w.BuriesUnder tenant
            (Program.run (served eng outside) (Rpc.deleteScope req.params tenant) w).2 :=
          deleteScope_buriesUnder
        change Program.run _ (Rpc.deleteScope req.params tenant) w = _ at ran
        rwa [ran] at buries
  exact buries m stored live dead after isDead

/-- An interaction whose client names a tenant. -/
def foreignInteraction : Interaction := ⟨"ix", "s", "other", "", "", [⟨0, "hello", "hi", []⟩]⟩

omit [JsonText F] in
theorem fromJson_foreignInteraction : (Json.obj [("session_id", .str "s"), ("interaction", .obj
    [("id", .str "ix"), ("session_id", .str "s"), ("tenant", .str "other"),
      ("turns", .arr [.obj [("turn_idx", .int 0), ("user_message", .str "hello"),
        ("assistant_message", .str "hi"), ("tool_calls", .arr [])]]),
      ("timestamp", .int 0), ("metadata", .obj [])])] : Json F).required 4 1 "interaction"
        Interaction.fromJson = some foreignInteraction := rfl

/-- The default tenant's commit stores under the tenant that the client names. -/
theorem exists_stored_foreign (eng : MemoryEngine) (db : Db F) :
    ∃ m, Stored eng db "" m ∧ m.tenant = "other" := by
  let w : World F := (World.fresh .quiet db (.empty 0)).next
  obtain ⟨outcome, w₁, m, ran, row, foreign⟩ := run_commitTurn_works (w := w) Env.quiet_noFaults eng
    "s" foreignInteraction 0 ⟨[], []⟩ ⟨0, "hello", "hi", []⟩ rfl rfl
  obtain ⟨w₂, done, kept⟩ := run_commitInner_single (w := World.fresh .quiet db (.empty 0)) rfl ran
  have new : m ∉ db.memoryItem.rows := by
    intro mem
    refine (w.env.ulid w.tick w.taken).2.1 ?_
    rw [← Table.find?_key row]
    exact List.mem_append_right _ (List.mem_map_of_mem mem)
  refine ⟨m, ⟨_, _, _, RpcRequest.name_plain rfl _ _ _, .of_run (run_commit_default rfl
    fromJson_foreignInteraction rfl rfl rfl done), ?_, new⟩, foreign⟩
  rw [kept]
  exact Table.find?_mem row

/-- Over a database, the requests of a tenant are scoped exactly if the tenant is named and
no live row with an entity is another's. -/
theorem tenantScoped_iff (eng : MemoryEngine) (db : Db F) (tenant : String)
    (rowids : db.memoryItem.rows.length < 2 ^ 63) :
    TenantScoped eng db tenant ↔ tenant ≠ "" ∧ ∀ m ∈ db.memoryItem.rows, m.tombstone = false →
      (∃ entityId, (m.id, entityId) ∈ db.memoryEntity) → m.tenant = tenant := by
  constructor
  · intro uniform
    refine ⟨?_, fun m stored live linked => uniform.audited m (audited_iff.mpr ⟨stored, live, linked⟩)⟩
    rintro rfl
    obtain ⟨m, stored, foreign⟩ := exists_stored_foreign eng db
    rw [uniform.stored m stored] at foreign
    exact absurd foreign (by decide)
  · rintro ⟨given, own⟩
    have gettable : ∀ m, Gettable eng db tenant m → m.tenant = tenant :=
      fun m got => got.of_empty_or_same.2.resolve_left given
    refine ⟨fun m stored => stored.of_tenant given, gettable, fun m listed => ?_,
      fun m stored counted => counted.of_tenant stored, fun m audited => ?_,
      fun m buried => buried.of_tenant given, fun m stored live => ?_⟩
    · exact listed.of_tenant.2.resolve_right fun none => given none.1
    · obtain ⟨stored, live, linked⟩ := audited_iff.mp audited
      exact own m stored live linked
    · refine ⟨fun got => ?_, fun shown => .of_row stored (shown.2.of_tenant stored)⟩
      have same := gettable m got
      exact ⟨.of_row rowids stored live same, .of_row stored live same⟩

end Scopes

/-! ### A row that another tenant is shown -/

/-- A fact of tenant `b` about an entity. -/
def factOfTenantB : Db Fixed := Db.empty.putMemory (factRow "m1" "b" "7")

theorem factOfTenantB_small : factOfTenantB.memoryItem.rows.length < 2 ^ 63 := by
  have one : factOfTenantB.memoryItem.rows.length = 1 := rfl
  rw [one]
  decide

theorem tenantScoped_factOfTenantB_iff : TenantScoped (plainEngine "") factOfTenantB "b" ↔
    "b" ≠ "" ∧ ∀ m ∈ factOfTenantB.memoryItem.rows, m.tombstone = false →
      (∃ entityId, (m.id, entityId) ∈ factOfTenantB.memoryEntity) → m.tenant = "b" :=
  tenantScoped_iff (plainEngine "") factOfTenantB "b" factOfTenantB_small

/-- The audit shows tenant `a` the fact, and the default tenant gets it by its id, although
neither lists nor counts it. -/
theorem audit_and_get_show_foreign_row :
    ¬ TenantScoped (plainEngine "") factOfTenantB "a" ∧
      ¬ TenantScoped (plainEngine "") factOfTenantB "" := by
  have stored : factRow "m1" "b" "7" ∈ factOfTenantB.memoryItem.rows := by
    exact List.mem_singleton_self _
  constructor
  · intro uniform
    have shown := uniform.audited _ (audited_iff.mpr ⟨stored, rfl, sharedEntity.id,
      List.mem_singleton_self _⟩)
    exact absurd shown (by decide)
  · intro uniform
    have answers : MayAnswer (plainEngine "") factOfTenantB ""
        ⟨"2.0", "get", .obj [("id", .str "m1")], .int 0⟩
        (.ok (.memory (some (factRow "m1" "b" "7")))) factOfTenantB :=
      .of_run (v := (World.fresh .quiet factOfTenantB (.empty 0)).withDb factOfTenantB)
        (run_method_eq_ok.mpr ⟨"m1", some (factRow "m1" "b" "7"), rfl, rfl, rfl⟩)
    have got : Gettable (plainEngine "") factOfTenantB "" (factRow "m1" "b" "7") :=
      ⟨_, _, RpcRequest.name_plain rfl _ _ _, answers⟩
    exact absurd (uniform.gettable _ got) (by decide)

end FusionMemory
