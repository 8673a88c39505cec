import FusionMemory.Cluster.Mirror
import FusionMemory.Engine.CommitTurns
import FusionMemory.Engine.Calls

/-!
The programs of a leader.

`Leads` is the triple of a program whose world keeps its environment and the dimension of
its vectors: it takes databases in `P` to databases in `Q`, however the program ends. The
rules below are its rules for each kind of request; on top of them commits, deletions and
the five phases of a consolidation run are shown to keep a database mirrored by its log.
-/

namespace FusionMemory

open Lib

variable {F : Type} [FloatArith F] {α β : Type}

/-! ### Triples -/

/-- What holds of a leader's world. -/
structure World.Serves (env : Env F) (dim : Nat) (P : Db F → Prop) (w : World F) : Prop where
  env : w.env = env
  dim : w.store.dim = dim
  db : P w.db

/-- From databases in `P` the program ends with a database in `Q`. -/
abbrev Leads (env : Env F) (dim : Nat) (P Q : Db F → Prop) (p : EngineM F α) : Prop :=
  Program.Triple (machine F) (World.Serves env dim P) p fun _ => World.Serves env dim Q

/-- A request that neither the database nor the store answers. -/
def Request.Asks : Request F → Prop
  | .persist _ | .store _ => False
  | _ => True

theorem StoreOp.exec_dim (ann : AnnSearch F) (s : LocalStore F) (op : StoreOp F) :
    (op.exec ann s).2.dim = s.dim := by
  cases op with
  | insertVector id vec => exact insertVector_dim s id vec
  | _ => rfl

section Rules

variable {env : Env F} {dim : Nat} {P P' Q R : Db F → Prop}

omit [FloatArith F] in
theorem World.Serves.mono {w : World F} (serves : w.Serves env dim P) (weaker : ∀ db, P db → Q db) :
    w.Serves env dim Q := ⟨serves.env, serves.dim, weaker _ serves.db⟩

theorem leads_done (weaker : ∀ db, P db → Q db) (a : α) :
    Leads env dim P Q (.done a : EngineM F α) :=
  Program.Triple.done fun _ serves => serves.mono weaker

theorem leads_fail (weaker : ∀ db, P db → Q db) (e : MemoryError) :
    Leads env dim P Q (.fail e : EngineM F α) :=
  Program.Triple.fail fun _ serves => serves.mono weaker

theorem leads_ofExcept (weaker : ∀ db, P db → Q db) {result : Except MemoryError α}
    {k : α → EngineM F β} (rest : ∀ a, result = .ok a → Leads env dim P Q (k a)) :
    Leads env dim P Q (Program.ofExcept result >>= k) := by
  cases result with
  | ok a => exact rest a rfl
  | error e => exact leads_fail weaker e

/-- A part may fail, and then the whole does. -/
theorem leads_bind {p : EngineM F α} {k : α → EngineM F β} (first : Leads env dim P R p)
    (weaker : ∀ db, R db → Q db) (rest : ∀ a, Leads env dim R Q (k a)) :
    Leads env dim P Q (p >>= k) := by
  refine Program.Triple.bind (R := fun _ => World.Serves env dim R)
    (first.weaken (fun _ serves => serves) fun result w serves => ?_) rest
  cases result with
  | ok a => exact serves
  | error e => exact serves.mono weaker

/-- A fact that does not depend on the database is a hypothesis. -/
theorem leads_and {fact : Prop} {p : EngineM F α} (known : fact → Leads env dim P Q p) :
    Leads env dim (fun db => P db ∧ fact) Q p :=
  fun w serves => known serves.db.2 w (serves.mono fun _ inv => inv.1)

/-- A loop with an invariant indexed by what is still to come. -/
theorem leads_foldlM {I : List β → Db F → Prop} {f : α → β → EngineM F α}
    (weaker : ∀ rest db, I rest db → Q db)
    (step : ∀ acc b rest, Leads env dim (I (b :: rest)) (I rest) (f acc b)) (xs : List β) (acc : α) :
    Leads env dim (I xs) Q (xs.foldlM f acc) := by
  refine (Program.Triple.foldlM (I := fun rest _ => World.Serves env dim (I rest))
    (E := fun _ => World.Serves env dim Q) (fun acc b rest => ?_) xs acc).weaken
      (fun _ serves => serves) fun result w serves => ?_
  · refine (step acc b rest).weaken (fun _ serves => serves) fun result w serves => ?_
    cases result with
    | ok acc' => exact serves
    | error e => exact serves.mono (weaker rest)
  · cases result with
    | ok acc' => exact serves.mono (weaker [])
    | error e => exact serves

/-- A loop keeps what each of its steps keeps. -/
theorem leads_loop {f : α → β → EngineM F α} (xs : List β)
    (step : ∀ b ∈ xs, ∀ acc, Leads env dim P P (f acc b)) (acc : α) :
    Leads env dim P P (xs.foldlM f acc) := by
  have loop : Leads env dim (fun db => P db ∧ ∀ b ∈ xs, b ∈ xs) P (xs.foldlM f acc) := by
    refine leads_foldlM (I := fun rest db => P db ∧ ∀ b ∈ rest, b ∈ xs) (fun _ _ inv => inv.1)
      (fun acc b rest => ?_) xs acc
    rintro w ⟨env, dim, kept, listed⟩
    have served := step b (listed b List.mem_cons_self) acc w ⟨env, dim, kept⟩
    exact served.mono fun db kept => ⟨kept, fun b' mem => listed b' (List.mem_cons_of_mem _ mem)⟩
  exact loop.weaken (fun w serves => serves.mono fun db kept => ⟨kept, fun b mem => mem⟩)
    fun _ _ serves => serves

theorem leads_ask {r : Request F} (asks : r.Asks) {next : r.Reply → EngineM F α}
    (rest : ∀ reply, Leads env dim P Q (next reply)) : Leads env dim P Q (.request r next) := by
  refine Program.Triple.request (R := fun _ => World.Serves env dim P) (fun w serves => ?_) rest
  cases r with
  | persist op => cases asks
  | store op => cases asks
  | acquire lock => cases lock <;> exact ⟨serves.env, serves.dim, serves.db⟩
  | release lock => cases lock <;> exact ⟨serves.env, serves.dim, serves.db⟩
  | _ => exact ⟨serves.env, serves.dim, serves.db⟩

theorem leads_nowMs {k : Nat → EngineM F α} (rest : ∀ t, Leads env dim P Q (k (env.clock t))) :
    Leads env dim P Q (nowMs >>= k) := by
  intro w serves
  obtain rfl : w.env = env := serves.env
  exact rest w.tick w.next ⟨rfl, serves.dim, serves.db⟩

theorem leads_embed {text : String} {k : Except MemoryError (List F) → EngineM F α}
    (rest : ∀ t, Leads env dim P Q (k ((env.embed t text).mapError .store))) :
    Leads env dim P Q (embed text >>= k) := by
  intro w serves
  obtain rfl : w.env = env := serves.env
  exact rest w.tick w.next ⟨rfl, serves.dim, serves.db⟩

/-- A new ULID names no row. -/
theorem leads_newUlid {k : String → EngineM F α} (rest : ∀ id, '\t' ∉ id.toList →
    Leads env dim (fun db => P db ∧ db.getMemory id = none) Q (k id)) :
    Leads env dim P Q (newUlid >>= k) := by
  intro w serves
  obtain ⟨fresh, noTab⟩ := (w.env.ulid w.tick w.taken).2
  have unknown : w.db.getMemory (w.env.ulid w.tick w.taken).1 = none := by
    refine Table.find?_eq_none_iff.mpr fun m mem same => fresh ?_
    rw [← same]
    exact List.mem_append_right _ (List.mem_map_of_mem mem)
  exact rest _ noTab (w.withIssued _) ⟨serves.env, serves.dim, serves.db, unknown⟩

theorem leads_withLock (l : Lock) {body : EngineM F α} (inside : Leads env dim P Q body) :
    Leads env dim P Q (withLock l body) := by
  intro w serves
  have held : (w.next.setHeld true l).Serves env dim P :=
    ⟨(World.setHeld_env ..).trans serves.env, by rw [World.setHeld_store]; exact serves.dim,
      by rw [World.setHeld_db]; exact serves.db⟩
  have after := inside _ held
  change World.Serves env dim Q (run (withLock l body) w).2
  rw [run_withLock]
  exact ⟨(World.setHeld_env ..).trans after.env, by rw [World.setHeld_store]; exact after.dim,
    by rw [World.setHeld_db]; exact after.db⟩

section Storage

variable (works : env.NoFaults)
include works

theorem leads_persist {op : PersistOp F} {k : Except PersistError op.Value → EngineM F α}
    {R : op.Value → Db F → Prop}
    (step : ∀ db, P db → ∃ a, (op.exec db).1 = .ok a ∧ R a (op.exec db).2)
    (rest : ∀ a, Leads env dim (R a) Q (k (.ok a))) : Leads env dim P Q (persist op >>= k) := by
  intro w serves
  obtain ⟨a, reply, after⟩ := step w.db serves.db
  have works' : w.env.NoFaults := serves.env ▸ works
  have continued := rest a (w.withDb (op.exec w.db).2) ⟨serves.env, serves.dim, after⟩
  rw [← reply] at continued
  change World.Serves env dim Q (run (persist op >>= k) w).2
  rw [run_persist_works works']
  exact continued

theorem leads_persistOrFail {op : PersistOp F} {k : op.Value → EngineM F α}
    {R : op.Value → Db F → Prop}
    (step : ∀ db, P db → ∃ a, (op.exec db).1 = .ok a ∧ R a (op.exec db).2)
    (rest : ∀ a, Leads env dim (R a) Q (k a)) : Leads env dim P Q (persistOrFail op >>= k) := by
  have parts : (persistOrFail op >>= k) = (persist op >>= fun reply =>
      Program.ofExcept (reply.mapError PersistError.toMemory) >>= k) := bind_assoc _ _ _
  rw [parts]
  exact leads_persist works step rest

theorem leads_store {op : StoreOp F} {k : Except MemoryError op.Value → EngineM F α}
    (rest : ∀ reply, Leads env dim P Q (k reply)) : Leads env dim P Q (store op >>= k) := by
  intro w serves
  have works' : w.env.NoFaults := serves.env ▸ works
  change World.Serves env dim Q (run (store op >>= k) w).2
  rw [run_store_works works']
  refine rest _ _ ⟨serves.env, ?_, serves.db⟩
  exact (StoreOp.exec_dim _ _ _).trans serves.dim

theorem leads_storeOrFail {op : StoreOp F} {k : op.Value → EngineM F α}
    (weaker : ∀ db, P db → Q db) (rest : ∀ a, Leads env dim P Q (k a)) :
    Leads env dim P Q (storeOrFail op >>= k) := by
  have parts : (storeOrFail op >>= k) = (store op >>= fun reply =>
      Program.ofExcept reply >>= k) := bind_assoc _ _ _
  rw [parts]
  exact leads_store works fun reply => leads_ofExcept weaker fun a _ => rest a

/-- A vector that is accepted has the dimension of the store. -/
theorem leads_insertVector {vecId : Nat} {vec : List F}
    {k : Except MemoryError Unit → EngineM F α} (refused : ∀ e, Leads env dim P Q (k (.error e)))
    (accepted : vec.length = dim → Leads env dim P Q (k (.ok ()))) :
    Leads env dim P Q (store (.insertVector vecId vec) >>= k) := by
  by_cases fits : vec.length = dim
  · refine leads_store works fun reply => ?_
    cases reply with
    | ok _ => exact accepted fits
    | error e => exact refused e
  · intro w serves
    have works' : w.env.NoFaults := serves.env ▸ works
    have wrong : vec.length ≠ w.store.dim := by rw [serves.dim]; exact fits
    change World.Serves env dim Q (run (store (.insertVector vecId vec) >>= k) w).2
    rw [run_store_works works']
    change World.Serves env dim Q (run (k ((w.store.insertVector vecId vec).1.mapError _))
      (w.withStore (w.store.insertVector vecId vec).2)).2
    rw [show w.store.insertVector vecId vec = (.error (.dimension w.store.dim vec.length), w.store)
      from if_pos wrong]
    exact refused _ _ ⟨serves.env, serves.dim, serves.db⟩

end Storage

end Rules

variable [JsonText F]

/-- A request that changes neither a row nor what is replicated. -/
def Request.Unseen : Request F → Prop
  | .persist (.appendReconcile _ _ _ _) | .persist (.recordConsolidation _ _)
  | .persist (.appendAudit _ _ _ _ _) => True
  | .persist op => op.isRead = true
  | _ => True

theorem mirrored_exec_unseen {exact : Bool} {dim n : Nat} {db : Db F} {op : PersistOp F}
    (unseen : Request.Unseen (.persist op)) (mirrored : db.Mirrored exact dim n) :
    (op.exec db).2.Mirrored exact dim n := by
  cases op with
  | appendReconcile «at» id stage error => exact mirrored.same rfl rfl rfl
  | appendAudit «at» actor action target detail => exact mirrored.same rfl rfl rfl
  | recordConsolidation report started =>
      obtain ⟨rows, merges⟩ := db.recordConsolidationPrefix_same report started
        (report.failures.length + 1)
      refine mirrored.same rows ?_ merges
      exact Db.recordConsolidationPrefix_keeps (·.wopLog) (fun _ _ _ => rfl) (fun _ _ _ _ _ => rfl)
        db report started _
  | _ => first | exact mirrored | cases unseen

/-- A program of such requests. -/
theorem leads_unseen {env : Env F} (works : env.NoFaults) {exact : Bool} {dim n : Nat}
    {p : EngineM F α} (only : Program.Only Request.Unseen p) :
    Leads env dim (Db.Mirrored exact dim n) (Db.Mirrored exact dim n) p := by
  refine fun w => only.run (R := fun w w' => w.Serves env dim (Db.Mirrored exact dim n) →
    w'.Serves env dim (Db.Mirrored exact dim n)) (fun _ => id)
    (fun first last serves => last (first serves)) (fun r w unseen serves => ?_) w
  have works' : w.env.NoFaults := serves.env ▸ works
  cases r with
  | persist op =>
      refine ⟨serves.env, serves.dim, ?_⟩
      change (w.execPersist op).2.Mirrored exact dim n
      rw [World.execPersist_eq works']
      exact mirrored_exec_unseen unseen serves.db
  | store op =>
      refine ⟨serves.env, ?_, serves.db⟩
      change (w.execStore op).2.dim = dim
      rw [World.execStore_eq works', StoreOp.exec_dim]
      exact serves.dim
  | acquire lock => cases lock <;> exact ⟨serves.env, serves.dim, serves.db⟩
  | release lock => cases lock <;> exact ⟨serves.env, serves.dim, serves.db⟩
  | _ => exact ⟨serves.env, serves.dim, serves.db⟩

/-! ### Commits -/

/-- What the log of a leader needs of its surroundings to carry all that it stores: the
storage works, the clock shows 64-bit numbers, and the text of a number that is logged reads
back as the number. -/
structure Env.Portable (env : Env F) : Prop where
  works : env.NoFaults
  clock : ∀ t, env.clock t < 2 ^ 64
  weight : ∀ kind : MemoryType, Survives (kind.initialWeight : F)
  vector : ∀ t text vec, env.embed t text = .ok vec → ∀ x ∈ vec, Survives x

section Commit

variable {env : Env F} {dim n : Nat} (surroundings : env.Portable)
include surroundings

/-- A memory was just committed, and its replica holds it too. -/
structure JustCommitted (exact : Bool) (dim n : Nat) (item : MemoryItem F) (db : Db F) : Prop where
  mirrored : db.Mirrored exact dim n
  stored : db.getMemory item.id = some item
  copied : replica db.wopLog item.id = some item

theorem leads_putCommit {exact : Bool} {Q : Db F → Prop} {item : MemoryItem F}
    (fits : item.Fits n) (turn : item.IsTurn) {vec : List F} (floats : ∀ x ∈ vec, Survives x)
    (length : vec.length = dim) {id : String} (ref : item.vectorRef = toString (vectorIdFromUlid id))
    («at» : Nat) {k : Except PersistError Unit → EngineM F α}
    (rest : Leads env dim (JustCommitted exact dim n item) Q (k (.ok ()))) :
    Leads env dim (Db.Mirrored exact dim n) Q (persist (.putMemoryWithWop item "commit"
      (JsonText.print (CommitEnvelope.mk item (some vec)).toJson) «at») >>= k) := by
  refine leads_persist surroundings.works (R := fun _ => JustCommitted exact dim n item)
    (fun db mirrored => ⟨(), rfl, ?_⟩) fun _ => rest
  have parsed : parseU64 item.vectorRef = some (vectorIdFromUlid id) := by
    rw [ref, parseU64_toString, if_pos (vectorIdFromUlid_lt id)]
  have known : (WopEntry.mk (db.wopSeq + 1) "commit"
      (JsonText.print (CommitEnvelope.mk item (some vec)).toJson) «at»).change =
        some (item.id, .ofItem item) := change_commit fits.portable floats
  refine ⟨mirrored.put fits (.commit _ «at» fits.portable turn floats length parsed) known rfl, ?_, ?_⟩
  · change (db.putMemory item).getMemory item.id = some item
    rw [Db.getMemory_putMemory, if_pos rfl]
  · change replica (db.wopLog ++ [⟨db.wopSeq + 1, "commit", _, «at»⟩]) item.id = some item
    rw [replica_append, changeAt_eq known, if_pos rfl, RowChange.apply_ofItem]

/-- Entities are attached to the memory that was just committed. -/
theorem leads_extractAndAttach (eng : MemoryEngine) {item : MemoryItem F}
    (pending : item.entitiesPending = true) (content : String) :
    Leads env dim (JustCommitted (!eng.hasExtractor) dim n item)
      (Db.Mirrored (!eng.hasExtractor) dim n) (extractAndAttach eng item.id content) := by
  unfold extractAndAttach
  cases able : eng.hasExtractor with
  | false => exact leads_done (fun _ inv => inv.mirrored) ()
  | true =>
      refine leads_ask (r := Request.extract content) trivial fun extracted => ?_
      refine leads_persist surroundings.works (R := fun found db => found = some item ∧
        JustCommitted false dim n item db) (fun db inv => ⟨_, rfl, inv.stored, inv⟩) fun found => ?_
      cases found with
      | none => exact leads_done (fun _ inv => inv.2.mirrored) ()
      | some found =>
          refine leads_persist surroundings.works (R := fun _ => Db.Mirrored false dim n)
            (fun db inv => ⟨(), rfl, ?_⟩) fun _ => leads_done (fun _ mirrored => mirrored) ()
          obtain ⟨same, inv⟩ := inv
          cases same
          exact inv.mirrored.attach pending inv.stored inv.copied extracted.entities
            extracted.success

theorem fits_turnRow (sessionId : String) (interaction : Interaction) (t : Nat) {turn : Turn}
    (small : turn.turnIdx < 2 ^ 32) {id : String} (noTab : '\t' ∉ id.toList) (content : String) :
    (turnRow sessionId interaction (env.clock t) turn id content : MemoryItem F).Fits n where
  portable := ⟨⟨small, Nat.two_pow_pos 64, surroundings.clock t, surroundings.clock t⟩,
    surroundings.weight .episodic, noTab⟩
  count := Nat.zero_le n

theorem leads_commitTurn (eng : MemoryEngine) (sessionId : String) (interaction : Interaction)
    (t : Nat) (acc : CommitOutcome) {turn : Turn} (small : turn.turnIdx < 2 ^ 32) :
    Leads env dim (Db.Mirrored (!eng.hasExtractor) dim n) (Db.Mirrored (!eng.hasExtractor) dim n)
      (commitTurn eng sessionId interaction (env.clock t) acc turn) := by
  refine leads_newUlid fun id noTab => Program.Triple.weaken
    (fun _ serves => serves.mono fun _ inv => inv.1) ?_ fun _ _ serves => serves
  refine leads_embed fun t' => ?_
  cases embedded : env.embed t' (committedContent eng turn) with
  | error e => exact leads_done (fun _ mirrored => mirrored) _
  | ok vec =>
      refine leads_insertVector surroundings.works
        (fun e => leads_done (fun _ mirrored => mirrored) _) fun length => ?_
      have fits : (turnRow sessionId interaction (env.clock t) turn id
          (committedContent eng turn) : MemoryItem F).Fits n :=
        fits_turnRow surroundings sessionId interaction t small noTab _
      refine leads_putCommit surroundings fits ⟨rfl, rfl⟩ (surroundings.vector t' _ vec embedded) length
        rfl _ ?_
      exact leads_bind (leads_extractAndAttach surroundings eng rfl _) (fun _ mirrored => mirrored)
        fun _ => leads_done (fun _ mirrored => mirrored) _

theorem leads_commitInner (eng : MemoryEngine) (sessionId : String) {interaction : Interaction}
    (small : ∀ turn ∈ interaction.turns, turn.turnIdx < 2 ^ 32) :
    Leads env dim (Db.Mirrored (!eng.hasExtractor) dim n) (Db.Mirrored (!eng.hasExtractor) dim n)
      (commitInner eng sessionId interaction) := by
  refine leads_nowMs fun t => ?_
  refine leads_bind (leads_loop _ (fun turn mem acc =>
    leads_commitTurn surroundings eng sessionId interaction t acc (small turn mem)) _)
    (fun _ mirrored => mirrored) fun outcome => ?_
  exact leads_bind (leads_unseen surroundings.works (only_persist trivial))
    (fun _ mirrored => mirrored) fun _ => leads_done (fun _ mirrored => mirrored) _

end Commit

/-! ### Writes that are logged in a second step -/

/-- A database in `P` was written to, and the entry is still to come. -/
def Unlogged (write : Db F → Db F) (P : Db F → Prop) (db : Db F) : Prop := ∃ db₀, P db₀ ∧ db = write db₀

section Writes

variable {env : Env F} (works : env.NoFaults) {dim : Nat} {P Q R : Db F → Prop}
include works

omit [JsonText F] in
theorem leads_write (op : PersistOp F) {a : op.Value} {write : Db F → Db F}
    (writes : ∀ db, op.exec db = (.ok a, write db)) {k : Except PersistError op.Value → EngineM F α}
    (rest : Leads env dim (Unlogged write P) Q (k (.ok a))) :
    Leads env dim P Q (persist op >>= k) := by
  refine leads_persist works (R := fun b db => b = a ∧ Unlogged write P db)
    (fun db inv => ⟨a, ?_, rfl, db, inv, ?_⟩) fun b => ?_
  · rw [writes]
  · rw [writes]
  · rintro w ⟨env, dim, rfl, unlogged⟩
    exact rest w ⟨env, dim, unlogged⟩

omit [JsonText F] in
theorem leads_logWrite {write : Db F → Db F} {op payload : String} {«at» : Nat}
    (logs : ∀ db, P db → R ((write db).appendWop op payload «at»))
    {k : Except PersistError Unit → EngineM F α} (rest : Leads env dim R Q (k (.ok ()))) :
    Leads env dim (Unlogged write P) Q (persist (.appendWop op payload «at») >>= k) := by
  refine leads_persist works (R := fun _ => R) (fun db unlogged => ⟨(), rfl, ?_⟩) fun _ => rest
  obtain ⟨db₀, inv, rfl⟩ := unlogged
  exact logs db₀ inv

end Writes

/-! ### Deletions -/

section Delete

variable {env : Env F} (works : env.NoFaults) {exact : Bool} {dim n : Nat}
include works

/-- The row of a memory is tombstoned and the deletion logged. -/
theorem leads_tombstoneMemory (id : String) :
    Leads env dim (Db.Mirrored exact dim n) (Db.Mirrored exact dim n) (do
      let _ ← persistOrFail (.tombstoneMemory id)
      let now ← nowMs
      let _ ← persistOrFail (.appendWop "delete" id now)
      let _ ← persist (.appendAudit now "delete" "delete" id "tombstone")
      return ()) := by
  refine leads_write works (.tombstoneMemory id) (fun db => rfl) ?_
  refine leads_nowMs fun t => ?_
  refine leads_logWrite works (P := Db.Mirrored exact dim n) (R := Db.Mirrored exact dim n)
    (fun db mirrored => mirrored.tombstone (.delete _ id _) change_delete rfl) ?_
  exact leads_unseen works ⟨trivial, fun _ => trivial⟩

theorem leads_deleteMemory (id : String) :
    Leads env dim (Db.Mirrored exact dim n) (Db.Mirrored exact dim n) (deleteMemory id) := by
  unfold deleteMemory
  refine leads_persistOrFail works (R := fun _ => Db.Mirrored exact dim n)
    (fun db mirrored => ⟨_, rfl, mirrored⟩) fun found => ?_
  cases found.bind fun item => parseU64 item.vectorRef with
  | none => exact leads_tombstoneMemory works id
  | some vecId =>
      exact leads_storeOrFail works (fun _ mirrored => mirrored) fun _ =>
        leads_tombstoneMemory works id

end Delete

/-! ### Retrievals -/

section Retrieve

variable {env : Env F} (surroundings : env.Portable) {exact : Bool} {dim n : Nat}
include surroundings

omit [FloatArith F] [JsonText F] surroundings in
theorem LookupRequest.unseen {r : Request F} (lookup : LookupRequest r) : r.Unseen := by
  cases lookup <;> trivial

theorem leads_touch (few : n + 1 < 2 ^ 64) (ids : List String) (t : Nat) :
    Leads env dim (Db.Mirrored exact dim n) (Db.Mirrored exact dim (n + 1))
      (touch (F := F) ids (env.clock t)) := by
  unfold touch
  split_ifs
  · exact leads_done (fun _ mirrored => mirrored.mono) ()
  · refine leads_withLock .touch (leads_persist surroundings.works
      (R := fun _ => Db.Mirrored exact dim (n + 1)) (fun db mirrored => ⟨(), rfl, ?_⟩) fun _ =>
        leads_done (fun _ mirrored => mirrored) ())
    exact mirrored.touch few ids (surroundings.clock t)

/-- A retrieval counts at most one access of each memory. -/
theorem leads_retrieveContext (few : n + 1 < 2 ^ 64) (eng : MemoryEngine) (query : RetrieveQuery) :
    Leads env dim (Db.Mirrored exact dim n) (Db.Mirrored exact dim (n + 1))
      (retrieveContext (F := F) eng query) := by
  have works := surroundings.works
  rw [retrieveContext_eq]
  refine leads_nowMs fun t => ?_
  refine leads_bind (leads_unseen works ((only_findHits eng query (env.clock t)).mono
    fun _ => LookupRequest.unseen)) (fun _ mirrored => mirrored.mono) fun found => ?_
  unfold answerHits
  dsimp only
  refine leads_bind (leads_touch surroundings few _ t) (fun _ mirrored => mirrored) fun _ => ?_
  exact leads_unseen works (Program.Only.bind (only_persist trivial) fun _ =>
    Program.Only.bind (Program.Only.perform trivial) fun _ =>
      Program.Only.bind (Program.Only.perform trivial) fun _ => trivial)

end Retrieve

end FusionMemory
