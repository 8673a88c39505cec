import FusionMemory.Cluster.AppendOnly
import FusionMemory.Cluster.Convergence
import FusionMemory.Cluster.Exchange
import FusionMemory.Cluster.SyncCursor

/-!
A follower that copies a leader's log page by page.

`Link` is the log of a leader, a follower of it and the state of the follower's sink. The
leader appends to its log, and the follower synchronizes: with leaders of any configuration,
through the bytes of a connection, a page of `fetch_limit` entries at a time. Exchanges fail,
and so do replays.

`copies_in_order` is what holds then of every run: the entries land in the order of the log,
each of them once. `pages_replay_log` is about a follower whose replays succeed: so many pages
do what one replay of the log does. `follower_converges_in_pages` says what that comes to with
engines on both sides.
-/

namespace FusionMemory

open Lib

variable {F : Type} [FloatArith F] [JsonText F] {σ : Type}

/-! ### The log of a leader -/

instance (e : WopEntry) : Decidable e.Sized :=
  decidable_of_iff (e.seq < 9223372036854775808 ∧ e.at < u64Size)
    ⟨fun both => ⟨both.1, both.2⟩, fun sized => ⟨sized.seq, sized.at'⟩⟩

namespace WopTable

/-- The entry that is written next. -/
def nextEntry (log : WopTable) (op payload : String) («at» : Nat) : WopEntry where
  seq := maxSeq (log.rows.map (·.seq)) + 1
  op := op
  payload := payload
  «at» := «at»

theorem seq_lt_nextEntry (log : WopTable) (op payload : String) («at» : Nat) :
    ∀ e ∈ log.rows, e.seq < (log.nextEntry op payload «at»).seq :=
  fun _ mem => Nat.lt_succ_of_le (le_maxSeq (List.mem_map_of_mem mem))

/-- `append_wop`. The numbers run out after `i64::MAX`. -/
def append (log : WopTable) (op payload : String) («at» : Nat) : Option WopTable :=
  if sized : (log.nextEntry op payload «at»).Sized then
    some {
      rows := log.rows ++ [log.nextEntry op payload «at»]
      distinct := by
        rw [List.map_append, List.nodup_append]
        refine ⟨log.distinct, List.nodup_singleton _, fun seq mem seq' mem' same => ?_⟩
        obtain ⟨e, stored, rfl⟩ := List.mem_map.mp mem
        have less := log.seq_lt_nextEntry op payload «at» e stored
        rw [List.map_cons, List.map_nil, List.mem_singleton] at mem'
        omega
      sized := fun e mem => by
        rcases List.mem_append.mp mem with old | new
        · exact log.sized e old
        · rw [List.mem_singleton.mp new]
          exact sized }
  else none

/-- The entries stand in the order of their numbers, which begin at 1. -/
structure InOrder (log : WopTable) : Prop where
  ordered : log.rows.Pairwise (·.seq < ·.seq)
  positive : ∀ e ∈ log.rows, 0 < e.seq

theorem InOrder.append {log log' : WopTable} {op payload : String} {«at» : Nat}
    (inOrder : log.InOrder) (appended : log.append op payload «at» = some log') :
    log'.InOrder ∧ log.rows <+: log'.rows := by
  unfold WopTable.append at appended
  split_ifs at appended with sized
  obtain rfl := Option.some.inj appended
  refine ⟨⟨?_, fun e mem => ?_⟩, List.prefix_append _ _⟩
  · rw [List.pairwise_append]
    refine ⟨inOrder.ordered, List.pairwise_singleton _ _, fun e mem e' mem' => ?_⟩
    rw [List.mem_singleton.mp mem']
    exact log.seq_lt_nextEntry op payload «at» e mem
  · rcases List.mem_append.mp mem with old | new
    · exact inOrder.positive e old
    · rw [List.mem_singleton.mp new]
      exact Nat.succ_pos _

end WopTable

/-- The number of the last of some entries, 0 when there is none. -/
def lastNumber (entries : List WopEntry) : Nat := (entries.getLast?.map (·.seq)).getD 0

theorem cursorAfter_lastNumber (entries : List WopEntry) (landed : List (WopEntry × Bool)) :
    cursorAfter (lastNumber entries) landed = lastNumber (entries ++ landed.map Prod.fst) := by
  rcases List.eq_nil_or_concat landed with rfl | ⟨init, p, rfl⟩
  · rw [List.map_nil, List.append_nil]
    rfl
  · unfold cursorAfter lastNumber
    rw [List.concat_eq_append, List.map_append, List.map_cons, List.map_nil, ← List.append_assoc,
      List.getLast?_concat, List.getLast?_concat]
    rfl

namespace WopTable.InOrder

variable {log : WopTable} (inOrder : log.InOrder)
include inOrder

/-- A cursor at the end of the first `n` entries has the others before it. -/
theorem remaining (n : Nat) :
    log.rows.filter (fun e => e.seq > lastNumber (log.rows.take n)) = log.rows.drop n := by
  have ordered := inOrder.ordered
  rw [← List.take_append_drop n log.rows, List.pairwise_append] at ordered
  obtain ⟨first, -, between⟩ := ordered
  have beyond : ∀ e ∈ log.rows.drop n, e.seq > lastNumber (log.rows.take n) := by
    intro e mem
    unfold lastNumber
    cases last : (log.rows.take n).getLast? with
    | none => exact inOrder.positive e (List.mem_of_mem_drop mem)
    | some l => exact between l (List.mem_of_getLast? last) e mem
  have upTo : ∀ e ∈ log.rows.take n, ¬ e.seq > lastNumber (log.rows.take n) := by
    intro e mem
    rcases List.eq_nil_or_concat (log.rows.take n) with none | ⟨init, l, split⟩
    · rw [none] at mem
      cases mem
    · rw [List.concat_eq_append] at split
      rw [split] at first mem ⊢
      unfold lastNumber
      rw [List.getLast?_concat]
      rcases List.mem_append.mp mem with before | itself
      · exact not_lt.mpr ((List.pairwise_append.mp first).2.2 e before l List.mem_cons_self).le
      · rw [List.mem_singleton.mp itself]
        exact lt_irrefl _
  conv => lhs; rw [← List.take_append_drop n log.rows]
  rw [List.filter_append, List.take_append_drop, List.filter_eq_nil_iff.mpr, List.nil_append,
    List.filter_eq_self.mpr]
  · exact fun e mem => decide_eq_true (beyond e mem)
  · exact fun e mem above => upTo e mem (of_decide_eq_true above)

/-- A page is what comes next in the log. -/
theorem page (n : Nat) {limit : Nat} (fits : limit < u64Size) :
    log.listWopSince (lastNumber (log.rows.take n)) limit = (log.rows.drop n).take limit := by
  have same : log.remaining (lastNumber (log.rows.take n)) = log.rows.drop n := by
    rw [← inOrder.remaining n]
    exact List.filter_congr fun e _ => by simp
  have sorted : (log.rows.drop n).Pairwise fun a b => (a.seq : Int) ≤ b.seq :=
    (inOrder.ordered.sublist (List.drop_sublist n _)).imp fun less => by omega
  rw [listWopSince_eq log _ fits, orderBy, same, List.Pairwise.insertionSort_eq sorted]

theorem ascending_page (n limit : Nat) :
    AscendingAbove (lastNumber (log.rows.take n)) ((log.rows.drop n).take limit) := by
  have part : ((log.rows.drop n).take limit).Sublist (log.rows.drop n) := List.take_sublist _ _
  unfold AscendingAbove
  rw [List.pairwise_cons, List.pairwise_map]
  refine ⟨fun seq mem => ?_, (inOrder.ordered.sublist (List.drop_sublist n _)).sublist part⟩
  obtain ⟨e, listed, rfl⟩ := List.mem_map.mp mem
  have later : e ∈ log.rows.filter fun e => e.seq > lastNumber (log.rows.take n) := by
    rw [inOrder.remaining n]
    exact part.subset listed
  exact of_decide_eq_true (List.mem_filter.mp later).2

end WopTable.InOrder

theorem WopTable.lastNumber_lt (log : WopTable) (n : Nat) :
    lastNumber (log.rows.take n) < 9223372036854775808 := by
  unfold lastNumber
  cases last : (log.rows.take n).getLast? with
  | none => exact Nat.succ_pos _
  | some l => exact (log.sized l (List.mem_of_mem_take (List.mem_of_getLast? last))).seq

/-! ### Copies -/

omit [FloatArith F] [JsonText F] in
theorem getElem?_of_prefix {α : Type} {l l' : List α} (part : l <+: l') {i : Nat} {a : α}
    (found : l[i]? = some a) : l'[i]? = some a := by
  obtain ⟨more, rfl⟩ := part
  rw [List.getElem?_append_left (List.getElem?_eq_some_iff.mp found).1, found]

/-- The sink comes from `s₀` by replays of the first `n` entries, each with success and in
their order, and by failed attempts at the entry that was next. -/
inductive Copied (sink : Sink F σ) (rows : List WopEntry) : Nat → σ → σ → Prop where
  | none (s : σ) : Copied sink rows 0 s s
  | landed {n : Nat} {s₀ s s' : σ} {entry : WopEntry} {applied : Bool} :
      Copied sink rows n s₀ s → rows[n]? = some entry →
      Program.run sink entry.replay s = (.ok applied, s') → Copied sink rows (n + 1) s₀ s'
  | failed {n : Nat} {s₀ s s' : σ} {entry : WopEntry} {e : ClusterError} :
      Copied sink rows n s₀ s → rows[n]? = some entry →
      Program.run sink entry.replay s = (.error e, s') → Copied sink rows n s₀ s'

namespace Copied

variable {sink : Sink F σ} {rows rows' : List WopEntry} {n : Nat} {s₀ s s' : σ}

theorem mono (copied : Copied sink rows n s₀ s) (grown : rows <+: rows') :
    Copied sink rows' n s₀ s := by
  have kept : ∀ {n : Nat} {entry : WopEntry}, rows[n]? = some entry → rows'[n]? = some entry :=
    getElem?_of_prefix grown
  induction copied with
  | none s => exact .none s
  | landed _ listed ran ih => exact ih.landed (kept listed) ran
  | failed _ listed ran ih => exact ih.failed (kept listed) ran

theorem lands {landed : List (WopEntry × Bool)} (lands : Landed sink landed s s')
    (copied : Copied sink rows n s₀ s) (next : landed.map Prod.fst <+: rows.drop n) :
    Copied sink rows (n + landed.length) s₀ s' := by
  induction lands generalizing n with
  | nil s => exact copied
  | @cons entry applied rest s s₁ s' ran later ih =>
      have listed : rows[n]? = some entry := by
        have first : (rows.drop n)[0]? = some entry := getElem?_of_prefix next rfl
        rwa [List.getElem?_drop, Nat.add_zero] at first
      have tail : rest.map Prod.fst <+: rows.drop (n + 1) := by
        have dropped := next.drop 1
        rwa [List.drop_drop] at dropped
      have more := ih (copied.landed listed ran) tail
      rwa [Nat.add_assoc, Nat.add_comm 1] at more

theorem stops {rest : List WopEntry} {failed permanent : Bool}
    (stops : Stopped sink rest s failed permanent s') (copied : Copied sink rows n s₀ s)
    (next : rest <+: rows.drop n) : Copied sink rows n s₀ s' := by
  cases stops with
  | finished s => exact copied
  | @failed entry later s s' e ran =>
      refine copied.failed ?_ ran
      have first : (rows.drop n)[0]? = some entry := getElem?_of_prefix next rfl
      rwa [List.getElem?_drop, Nat.add_zero] at first

end Copied

/-! ### A leader's log and a follower -/

structure Link (σ : Type) where
  log : WopTable
  follower : Follower
  sink : σ

inductive LinkAction where
  | append (op payload : String) («at» : Nat)
  /-- A synchronization, with a leader that is configured so. -/
  | sync (leader : LeaderConfig)
  /-- A synchronization whose exchange fails: no leader is reached, its log cannot be read, or
  the connection breaks. -/
  | lost (e : ClusterError)

/-- The epoch is a `u64`. -/
def LinkAction.Sized : LinkAction → Prop
  | .sync leader => leader.epoch < u64Size
  | _ => True

structure SyncConfig.Sized (cfg : SyncConfig) : Prop where
  epoch : cfg.epoch < u64Size
  fetchLimit : cfg.fetchLimit < u64Size

namespace Link

variable (sink : Sink F σ)

/-- `sync_once`, on the sink. -/
def syncOnce (exchange : Hello → SyncRequest → Except ClusterError SyncResponse) (link : Link σ) :
    Link σ :=
  match Program.run sink (link.follower.syncOnce (fun hello req => pure (exchange hello req))
    replayInto) link.sink with
  | (.ok (_, follower), s) => { link with follower, sink := s }
  | (.error _, s) => { link with sink := s }

/-- A synchronization with the leader of the log. -/
def sync (leader : LeaderConfig) (link : Link σ) : Link σ :=
  link.syncOnce sink (exchange F leader (.ok link.log))

def step (link : Link σ) : LinkAction → Option (Link σ × List Empty)
  | .append op payload «at» =>
      (link.log.append op payload «at»).map fun log => ({ link with log }, [])
  | .sync leader => some (link.sync sink leader, [])
  | .lost e => some (link.syncOnce sink fun _ _ => .error e, [])

/-- A follower with a fresh cursor. -/
def start (log : WopTable) (cfg : SyncConfig) (s : σ) : Link σ := ⟨log, ⟨cfg, 0⟩, s⟩

end Link

/-- A leader that appends, and a follower that synchronizes. Nothing is reported. -/
def linking (sink : Sink F σ) : StepSystem (Link σ) LinkAction Empty := ⟨Link.step sink⟩

/-- The first `n` entries of the log have landed, and the cursor is at the last of them. -/
structure Following (sink : Sink F σ) (s₀ : σ) (link : Link σ) (n : Nat) : Prop where
  inOrder : link.log.InOrder
  within : n ≤ link.log.rows.length
  copied : Copied sink link.log.rows n s₀ link.sink
  cursor : link.follower.localLastSeq = lastNumber (link.log.rows.take n)

section Steps

variable {sink : Sink F σ} {link : Link σ} {s₀ : σ} {n : Nat}
  {ex : Hello → SyncRequest → Except ClusterError SyncResponse}

theorem syncOnce_refused (none : ∀ resp, ex link.follower.hello link.follower.request = .ok resp →
    ¬ link.follower.Accepts resp.leaderEpoch) : link.syncOnce sink ex = link := by
  unfold Link.syncOnce
  change (match Program.run sink (link.follower.syncInto
    (ex link.follower.hello link.follower.request)) link.sink with
    | (.ok (_, follower), s) => { link with follower, sink := s }
    | (.error _, s) => { link with sink := s }) = link
  cases response : ex link.follower.hello link.follower.request with
  | error e => rfl
  | ok resp => rw [syncInto_stale sink link.sink (none resp response)]

variable (sink) in
/-- A page lands up to the first entry that fails. -/
theorem syncOnce_accepted {resp : SyncResponse}
    (response : ex link.follower.hello link.follower.request = .ok resp)
    (accepts : link.follower.Accepts resp.leaderEpoch) :
    ∃ landed rest s₁ failed permanent s', resp.entries = landed.map Prod.fst ++ rest ∧
      Landed sink landed link.sink s₁ ∧ Stopped sink rest s₁ failed permanent s' ∧
      link.syncOnce sink ex = { link with
        follower := { link.follower with
          localLastSeq := max link.follower.localLastSeq (lastSeq landed) }
        sink := s' } := by
  obtain ⟨landed, rest, s₁, failed, permanent, s', split, lands, stops, _, rfl, ran⟩ :=
    syncInto_accepts sink link.sink accepts
  refine ⟨landed, rest, s₁, failed, permanent, s', split, lands, stops, ?_⟩
  unfold Link.syncOnce
  change (match Program.run sink (link.follower.syncInto
    (ex link.follower.hello link.follower.request)) link.sink with
    | (.ok (_, follower), s) => { link with follower, sink := s }
    | (.error _, s) => { link with sink := s }) = _
  rw [response, ran]

theorem syncOnce_log : (link.syncOnce sink ex).log = link.log := by
  unfold Link.syncOnce
  split <;> rfl

theorem syncOnce_cfg : (link.syncOnce sink ex).follower.cfg = link.follower.cfg := by
  by_cases accepted : ∃ resp, ex link.follower.hello link.follower.request = .ok resp ∧
      link.follower.Accepts resp.leaderEpoch
  · obtain ⟨resp, response, accepts⟩ := accepted
    obtain ⟨_, _, _, _, _, _, _, _, _, same⟩ := syncOnce_accepted sink response accepts
    rw [same]
  · rw [syncOnce_refused fun resp response accepts => accepted ⟨resp, response, accepts⟩]

/-- The cursor moves with the entries that land. -/
theorem Following.cursor_landed (following : Following sink s₀ link n) {limit : Nat}
    {landed : List (WopEntry × Bool)} {rest : List WopEntry}
    (split : (link.log.rows.drop n).take limit = landed.map Prod.fst ++ rest) :
    n + landed.length ≤ link.log.rows.length ∧
      max link.follower.localLastSeq (lastSeq landed) =
        lastNumber (link.log.rows.take (n + landed.length)) := by
  have first : landed.map Prod.fst <+: link.log.rows.drop n :=
    (List.prefix_append _ _).trans (split ▸ List.take_prefix _ _)
  have count := first.length_le
  rw [List.length_map, List.length_drop] at count
  have taken : (link.log.rows.drop n).take landed.length = landed.map Prod.fst := by
    rw [List.prefix_iff_eq_take.mp first, List.length_map]
  refine ⟨by have := following.within; omega, ?_⟩
  have ascending := following.inOrder.ascending_page n limit
  rw [split, ← following.cursor] at ascending
  rw [max_lastSeq ascending, following.cursor, cursorAfter_lastNumber, List.take_add, taken]

/-- What a page brings, wherever its replay stops. -/
theorem Following.page (following : Following sink s₀ link n) {resp : SyncResponse} {limit : Nat}
    (response : ex link.follower.hello link.follower.request = .ok resp)
    (entries : resp.entries = (link.log.rows.drop n).take limit) :
    ∃ n', n ≤ n' ∧ Following sink s₀ (link.syncOnce sink ex) n' := by
  by_cases accepts : link.follower.Accepts resp.leaderEpoch
  · obtain ⟨landed, rest, s₁, failed, permanent, s', split, lands, stops, same⟩ :=
      syncOnce_accepted sink response accepts
    rw [entries] at split
    obtain ⟨within, cursor⟩ := following.cursor_landed split
    have whole : landed.map Prod.fst ++ rest <+: link.log.rows.drop n :=
      split ▸ List.take_prefix _ _
    have next : rest <+: link.log.rows.drop (n + landed.length) := by
      have dropped := whole.drop landed.length
      rw [List.drop_drop] at dropped
      rwa [List.drop_left' (List.length_map _)] at dropped
    have copied := following.copied.lands lands ((List.prefix_append _ _).trans whole)
    rw [same]
    exact ⟨n + landed.length, Nat.le_add_right _ _, following.inOrder, within,
      copied.stops stops next, cursor⟩
  · refine ⟨n, le_rfl, ?_⟩
    rw [syncOnce_refused fun resp' same => by
      rw [response] at same
      exact (Except.ok.inj same) ▸ accepts]
    exact following

/-- The messages of a follower that has copied `n` entries have their numbers in range. -/
theorem Following.sized (following : Following sink s₀ link n)
    (sized : link.follower.cfg.Sized) :
    link.follower.hello.Sized ∧ link.follower.request.Sized := by
  have seq : link.follower.localLastSeq < 9223372036854775808 := by
    rw [following.cursor]
    exact link.log.lastNumber_lt n
  exact ⟨⟨seq, sized.epoch⟩, ⟨seq, sized.fetchLimit⟩⟩

/-- The answer to a follower that has copied `n` entries is what comes next. -/
theorem Following.answer (following : Following sink s₀ link n)
    (sized : link.follower.cfg.Sized) (leader : LeaderConfig) :
    (leader.answer link.log link.follower.request).entries =
      (link.log.rows.drop n).take link.follower.cfg.fetchLimit := by
  rw [leader.entries_answer]
  have asked : link.follower.request.sinceSeq = lastNumber (link.log.rows.take n) :=
    following.cursor
  rw [asked]
  exact following.inOrder.page n sized.fetchLimit

variable [TruncatedText F]

theorem Following.sync (following : Following sink s₀ link n) (sized : link.follower.cfg.Sized)
    {leader : LeaderConfig} (epoch : leader.epoch < u64Size) :
    ∃ n', n ≤ n' ∧ Following sink s₀ (link.sync sink leader) n' := by
  obtain ⟨hello, request⟩ := following.sized sized
  cases response : exchange F leader (.ok link.log) link.follower.hello link.follower.request with
  | error e =>
      refine ⟨n, le_rfl, ?_⟩
      unfold Link.sync
      rw [syncOnce_refused fun resp same => by rw [response] at same; cases same]
      exact following
  | ok resp =>
      obtain ⟨-, -, -, log, same, answer, -⟩ := (exchange_eq_ok hello request epoch).mp response
      obtain rfl := Except.ok.inj same
      have entries := following.answer sized leader
      rw [← answer] at entries
      exact following.page response entries

/-- One step of a link. -/
theorem Following.step (following : Following sink s₀ link n) (sized : link.follower.cfg.Sized)
    {action : LinkAction} (ranged : action.Sized) {link' : Link σ} {now : List Empty}
    (moved : link.step sink action = some (link', now)) :
    link'.follower.cfg = link.follower.cfg ∧ ∃ n', n ≤ n' ∧ Following sink s₀ link' n' := by
  cases action with
  | append op payload at' =>
      obtain ⟨log, appended, same⟩ := Option.map_eq_some_iff.mp moved
      cases same
      obtain ⟨inOrder, grown⟩ := following.inOrder.append appended
      refine ⟨rfl, n, le_rfl, inOrder, following.within.trans grown.length_le,
        following.copied.mono grown, ?_⟩
      have kept : log.rows.take n = link.log.rows.take n := by
        obtain ⟨more, split⟩ := grown
        rw [← split, List.take_append_of_le_length following.within]
      rw [kept]
      exact following.cursor
  | sync leader =>
      cases moved
      exact ⟨syncOnce_cfg, following.sync sized ranged⟩
  | lost e =>
      cases moved
      refine ⟨syncOnce_cfg, n, le_rfl, ?_⟩
      rw [syncOnce_refused fun resp same => by cases same]
      exact following

end Steps

/-- However a leader appends and a follower with a fresh cursor synchronizes, with leaders that
let it in or not, through frames that can be read or not, and with replays that fail or not: the
first entries of the log have landed, each of them once and in the order of the log, the cursor
is at the last of them, and no entry was tried before those in front of it had landed. -/
theorem copies_in_order [TruncatedText F] {sink : Sink F σ} {log : WopTable}
    (inOrder : log.InOrder) {cfg : SyncConfig} (sized : cfg.Sized) {s₀ : σ}
    {actions : List LinkAction} {link : Link σ} {report : List Empty}
    (ran : (linking sink).Run (fun _ _ action => action.Sized) (Link.start log cfg s₀) actions link
      report) :
    ∃ n, n ≤ link.log.rows.length ∧ Copied sink link.log.rows n s₀ link.sink ∧
      link.follower.localLastSeq = lastNumber (link.log.rows.take n) := by
  have kept : link.follower.cfg = cfg ∧ ∃ n, Following sink s₀ link n := by
    refine ran.invariant (I := fun link _ => link.follower.cfg = cfg ∧ ∃ n, Following sink s₀ link n)
      ⟨rfl, 0, inOrder, Nat.zero_le _, .none s₀, rfl⟩ ?_
    rintro link report action link' now ⟨same, n, following⟩ ranged moved
    obtain ⟨cfg_eq, n', -, following'⟩ := following.step (same ▸ sized) ranged moved
    exact ⟨cfg_eq.trans same, n', following'⟩
  obtain ⟨-, n, following⟩ := kept
  exact ⟨n, following.within, following.copied, following.cursor⟩

/-! ### A sink that fails every other time -/

/-- It keeps the ids that were deleted, and whether the next deletion fails. -/
def balkySink : Sink Fixed (List String × Bool) where
  ready _ _ := true
  exec call s := match call, s with
    | .tombstone _, (ids, true) => (.error (.memory .poisoned), (ids, false))
    | .tombstone id, (ids, false) => (.ok (), (ids ++ [id], true))
    | .embed _, s => (.ok [], s)
    | .putItem _, s | .insertVector _ _, s | .promoteTier _ _, s | .recordMerge _ _ _ _, s =>
        (.ok (), s)

def twoDeletes : WopTable where
  rows := [⟨1, "delete", "a", 1002⟩, ⟨2, "delete", "b", 1007⟩]
  distinct := by decide
  sized e mem := by
    simp only [List.mem_cons, List.not_mem_nil, or_false] at mem
    rcases mem with rfl | rfl
    · exact ⟨by decide, by decide⟩
    · exact ⟨by decide, by decide⟩

theorem twoDeletes_inOrder : twoDeletes.InOrder where
  ordered := by decide
  positive e mem := by
    simp only [twoDeletes, List.mem_cons, List.not_mem_nil, or_false] at mem
    rcases mem with rfl | rfl <;> exact Nat.succ_pos _

/-- A follower that asks for two entries at a time. -/
def twoAtATime : SyncConfig := ⟨"127.0.0.1:11437", 5, 3, 2, some "t", 0⟩

/-- A connection fails, an entry is logged, and then the sink fails at the second entry. -/
def balkyActions : List LinkAction :=
  [.lost (.io "timed out"), .append "delete" "c" 3000, .sync tokenLeader]

def LinkAction.inRange : LinkAction → Bool
  | .sync leader => decide (leader.epoch < u64Size)
  | _ => true

theorem LinkAction.sized_of_inRange {action : LinkAction} (ranged : action.inRange = true) :
    action.Sized := by
  cases action with
  | sync leader =>
      have bounded := of_decide_eq_true ranged
      exact bounded
  | _ => trivial

/-- One deletion has landed, and the second is next. -/
theorem run_balkyActions : ∃ link report,
    (linking balkySink).Run (fun _ _ action => action.Sized)
        (Link.start twoDeletes twoAtATime ([], false)) balkyActions link report ∧
      link.sink = (["a"], false) := by
  have ends : ((linking balkySink).exec (fun _ _ action => action.inRange) balkyActions
      (Link.start twoDeletes twoAtATime ([], false)) []).any (fun p =>
        decide (p.1.sink = (["a"], false))) = true := by
    decide +kernel
  obtain ⟨⟨link, report⟩, computed, last⟩ := (Option.any_eq_true _ _).mp ends
  exact ⟨link, report, .of_exec (fun _ _ _ => LinkAction.sized_of_inRange) computed,
    of_decide_eq_true last⟩

theorem copies_in_order_balky : ∃ link : Link (List String × Bool),
    link.sink = (["a"], false) ∧ ∃ n, n ≤ link.log.rows.length ∧
      Copied balkySink link.log.rows n ([], false) link.sink ∧
      link.follower.localLastSeq = lastNumber (link.log.rows.take n) := by
  obtain ⟨link, report, ran, sink⟩ := run_balkyActions
  exact ⟨link, sink, copies_in_order twoDeletes_inOrder ⟨by decide, by decide⟩ ran⟩

/-! ### Pages and one replay of the log -/

/-- Replaying any of the entries succeeds, from any state in `I`. -/
def Replays (sink : Sink F σ) (I : σ → Prop) (rows : List WopEntry) : Prop :=
  ∀ e ∈ rows, ∀ s, I s → ∃ applied s', Program.run sink e.replay s = (.ok applied, s') ∧ I s'

section Landings

variable {sink : Sink F σ} {I : σ → Prop} {rows : List WopEntry} {s s' : σ}

theorem Landed.append {first later : List (WopEntry × Bool)} {s'' : σ}
    (lands : Landed sink first s s') (lands' : Landed sink later s' s'') :
    Landed sink (first ++ later) s s'' := by
  induction lands with
  | nil s => exact lands'
  | cons ran _ ih => exact .cons ran (ih lands')

theorem Replays.landed (replays : Replays sink I rows) {landed : List (WopEntry × Bool)}
    (lands : Landed sink landed s s') (listed : ∀ e ∈ landed.map Prod.fst, e ∈ rows) (inv : I s) :
    I s' := by
  induction lands with
  | nil s => exact inv
  | @cons entry applied rest s s₁ s' ran _ ih =>
      obtain ⟨applied', s₂, ran', inv'⟩ := replays entry (listed entry List.mem_cons_self) s inv
      rw [ran] at ran'
      cases ran'
      exact ih (fun e mem => listed e (List.mem_cons_of_mem _ mem)) inv'

/-- Nothing stops such replays. -/
theorem Replays.stopped (replays : Replays sink I rows) {rest : List WopEntry}
    {failed permanent : Bool} (stops : Stopped sink rest s failed permanent s')
    (listed : ∀ e ∈ rest, e ∈ rows) (inv : I s) : rest = [] ∧ s' = s := by
  cases stops with
  | finished s => exact ⟨rfl, rfl⟩
  | @failed entry later s s' e ran =>
      obtain ⟨applied, s₁, ran', -⟩ := replays entry (listed entry List.mem_cons_self) s inv
      rw [ran] at ran'
      cases ran'

/-- What has landed is what one batch of the same entries does. -/
theorem Landed.run_replayFrom {landed : List (WopEntry × Bool)} (lands : Landed sink landed s s')
    (outcome : ReplayOutcome) :
    Program.run sink (replayFrom replayInto (landed.map Prod.fst) outcome) s =
      (.ok (outcome.addAll landed), s') := by
  induction lands generalizing outcome with
  | nil s => rfl
  | cons ran _ ih =>
      rw [List.map_cons, run_replayFrom_cons, ran]
      exact ih _

end Landings

/-! ### The engine as a sink -/

theorem applied_of_landed {landed : List (WopEntry × Bool)} {w w' : World F}
    (lands : Landed (engineSink F) landed w w') : Applied (landed.map Prod.fst) w w' := by
  induction lands with
  | nil w => exact .nil w
  | @cons entry applied rest w w₁ w' ran _ ih =>
      exact .cons ((runSink_replayOne entry w).trans ran) ih

/-- An engine whose storage works replays what a leader logs. -/
theorem replays_logged {dim : Nat} {rows : List WopEntry} (logged : ∀ e ∈ rows, Logged F dim e) :
    Replays (engineSink F) (fun w => w.env.NoFaults ∧ w.store.dim = dim) rows := by
  rintro e mem w ⟨works, fits⟩
  obtain ⟨applied, w', ran, fits'⟩ := replayOne_logged (logged e mem) works fits
  have ran' := ran
  rw [runSink_replayOne] at ran'
  exact ⟨applied, w', ran', (replayOne_eq_ok ran).env ▸ works, fits'⟩

/-! ### Synchronizations in a row -/

/-- What a leader and a follower have to be for the follower to copy the log: the follower is
let in, its epoch passes, it asks for something, and no frame is too long. -/
structure Reachable (F : Type) [FloatArith F] [JsonText F] (leader : LeaderConfig)
    (cfg : SyncConfig) (log : WopTable) : Prop where
  sized : cfg.Sized
  epoch : leader.epoch < u64Size
  letsIn : leader.LetsIn (cfg.clusterToken.getD "")
  accepts : cfg.epoch ≤ leader.epoch
  asks : 0 < cfg.fetchLimit
  short : ∀ n ≤ log.rows.length, ∀ f : Follower, f = ⟨cfg, lastNumber (log.rows.take n)⟩ →
    (f.hello.frame F).Fits F ∧ (f.request.frame F).Fits F ∧
      ((leader.answer log f.request).frame F).Fits F

/-- The first `n` entries have landed, and no replay has failed. -/
structure Synced (sink : Sink F σ) (I : σ → Prop) (s₀ : σ) (link : Link σ) (n : Nat) : Prop where
  following : Following sink s₀ link n
  landed : ∃ landed, landed.map Prod.fst = link.log.rows.take n ∧ Landed sink landed s₀ link.sink
  inv : I link.sink

section Pages

variable [TruncatedText F] {sink : Sink F σ} {I : σ → Prop} {s₀ : σ} {leader : LeaderConfig}
  {cfg : SyncConfig} {log : WopTable}

theorem Synced.sync {link : Link σ} {n : Nat} (synced : Synced sink I s₀ link n)
    (replays : Replays sink I link.log.rows)
    (reachable : Reachable F leader link.follower.cfg link.log) :
    Synced sink I s₀ (link.sync sink leader)
      (min (n + link.follower.cfg.fetchLimit) link.log.rows.length) := by
  obtain ⟨following, ⟨before, copied, landed⟩, inv⟩ := synced
  obtain ⟨hello, request⟩ := following.sized reachable.sized
  obtain ⟨short, short', short''⟩ := reachable.short n following.within link.follower
    (by rw [← following.cursor])
  have response := (exchange_eq_ok (F := F) hello request reachable.epoch).mpr
    ⟨short, short', reachable.letsIn, link.log, rfl, rfl, short''⟩
  obtain ⟨now, rest, s₁, failed, permanent, s', split, lands, stops, same⟩ :=
    syncOnce_accepted sink response reachable.accepts
  rw [following.answer reachable.sized leader] at split
  have listed : ∀ e ∈ now.map Prod.fst ++ rest, e ∈ link.log.rows := fun e mem =>
    List.mem_of_mem_drop (List.mem_of_mem_take (split ▸ mem))
  have inv₁ := replays.landed lands (fun e mem => listed e (List.mem_append_left _ mem)) inv
  obtain ⟨rfl, rfl⟩ := replays.stopped stops (fun e mem => listed e (List.mem_append_right _ mem))
    inv₁
  obtain ⟨-, cursor⟩ := following.cursor_landed split
  rw [List.append_nil] at split
  have reached : n + now.length =
      min (n + link.follower.cfg.fetchLimit) link.log.rows.length := by
    have count := congrArg List.length split
    rw [List.length_map, List.length_take, List.length_drop] at count
    have within := following.within
    omega
  have first : now.map Prod.fst <+: link.log.rows.drop n := split ▸ List.take_prefix _ _
  have copied' : (before ++ now).map Prod.fst = link.log.rows.take (n + now.length) := by
    have taken := List.prefix_iff_eq_take.mp first
    rw [List.length_map] at taken
    rw [List.map_append, copied, List.take_add, ← taken]
  rw [← reached]
  unfold Link.sync
  rw [same]
  refine ⟨⟨following.inOrder, ?_, following.copied.lands lands first, cursor⟩,
    ⟨before ++ now, copied', landed.append lands⟩, inv₁⟩
  rw [reached]
  exact min_le_right _ _

/-- So many pages, one after the other. -/
theorem Synced.pages (replays : Replays sink I log.rows) (reachable : Reachable F leader cfg log)
    (inOrder : log.InOrder) (inv : I s₀) (k : Nat) :
    Synced sink I s₀ ((Link.sync sink leader)^[k] (.start log cfg s₀))
        (min (k * cfg.fetchLimit) log.rows.length) ∧
      ((Link.sync sink leader)^[k] (.start log cfg s₀)).log = log ∧
      ((Link.sync sink leader)^[k] (.start log cfg s₀)).follower.cfg = cfg := by
  induction k with
  | zero =>
      rw [Nat.zero_mul, Nat.zero_min]
      exact ⟨⟨⟨inOrder, Nat.zero_le _, .none s₀, rfl⟩, ⟨[], rfl, .nil s₀⟩, inv⟩, rfl, rfl⟩
  | succ k ih =>
      rw [Function.iterate_succ_apply']
      generalize (Link.sync sink leader)^[k] (.start log cfg s₀) = link at ih ⊢
      obtain ⟨synced, rfl, rfl⟩ := ih
      refine ⟨?_, syncOnce_log, syncOnce_cfg⟩
      have more := synced.sync replays reachable
      have count : min (min (k * link.follower.cfg.fetchLimit) link.log.rows.length +
          link.follower.cfg.fetchLimit) link.log.rows.length =
            min ((k + 1) * link.follower.cfg.fetchLimit) link.log.rows.length := by
        rw [Nat.succ_mul]
        omega
      rwa [count] at more

/-- For a follower whose replays succeed, `k` synchronizations over the wire do what one replay
of the first `k` pages does, and leave the cursor where that ends. -/
theorem pages_replay_log (replays : Replays sink I log.rows)
    (reachable : Reachable F leader cfg log) (inOrder : log.InOrder) (inv : I s₀) (k : Nat) :
    ∃ outcome, Program.run sink
        (replayWops replayInto (log.rows.take (k * cfg.fetchLimit))) s₀ =
          (.ok outcome, ((Link.sync sink leader)^[k] (.start log cfg s₀)).sink) ∧
      outcome.failed = false ∧
      ((Link.sync sink leader)^[k] (.start log cfg s₀)).follower.localLastSeq =
        lastNumber (log.rows.take (k * cfg.fetchLimit)) := by
  obtain ⟨synced, same, -⟩ := Synced.pages replays reachable inOrder inv k
  generalize (Link.sync sink leader)^[k] (.start log cfg s₀) = link at synced same ⊢
  obtain ⟨following, ⟨landed, copied, lands⟩, -⟩ := synced
  have whole : ∀ n, log.rows.take (min n log.rows.length) = log.rows.take n := fun n => by
    rw [← List.take_eq_take_min]
  have cursor := following.cursor
  rw [same, whole] at copied cursor
  rw [← copied]
  refine ⟨_, lands.run_replayFrom _, ?_, cursor.trans (by rw [copied])⟩
  rw [addAll_eq]

end Pages

/-- The frames that a follower sends at the numbers of the log, measured. -/
def requestsShort (F : Type) [FloatArith F] [JsonText F] (cfg : SyncConfig) (log : WopTable) : Bool :=
  (List.range (log.rows.length + 1)).all fun n =>
    let f : Follower := ⟨cfg, lastNumber (log.rows.take n)⟩
    [f.hello.frame F, f.request.frame F].all fun frame =>
      decide ((frameBytes F frame).length ≤ MAX_FRAME_LEN)

/-- No frame is too long where the whole log would fit into one. -/
theorem short_of_log {leader : LeaderConfig} {cfg : SyncConfig} {log : WopTable}
    (inOrder : log.InOrder) (sized : cfg.Sized) (measured : requestsShort Fixed cfg log = true)
    (epoch : leader.epoch < u64Size)
    (fits : 24 * (log.rows.map fun e => entryBound e + 1).sum + 2000 ≤ MAX_FRAME_LEN) :
    ∀ n ≤ log.rows.length, ∀ f : Follower, f = ⟨cfg, lastNumber (log.rows.take n)⟩ →
      (f.hello.frame Fixed).Fits Fixed ∧ (f.request.frame Fixed).Fits Fixed ∧
        ((leader.answer log f.request).frame Fixed).Fits Fixed := by
  rintro n within f rfl
  have short := List.all_eq_true.mp measured n (List.mem_range.mpr (Nat.lt_succ_of_le within))
  have each := fun frame mem => of_decide_eq_true (List.all_eq_true.mp short frame mem)
  refine ⟨each _ (by simp), each _ (by simp), ?_⟩
  have page : (leader.answer log ⟨lastNumber (log.rows.take n), cfg.fetchLimit⟩).entries =
      (log.rows.drop n).take cfg.fetchLimit := by
    rw [leader.entries_answer]
    exact inOrder.page n sized.fetchLimit
  have part : ((log.rows.drop n).take cfg.fetchLimit).Sublist log.rows :=
    (List.take_sublist _ _).trans (List.drop_sublist n _)
  have total := (part.map fun e => entryBound e + 1).sum_le_sum fun _ _ => Nat.zero_le _
  rw [← page] at total
  refine (frameBytes_le (fun e mem => log.sized e (part.subset (page ▸ mem))) epoch).trans ?_
  omega

/-- A turn of the interaction below, as it is logged. -/
def loggedTurn (id : String) (turnIdx : Nat) (content : String) : MemoryItem Fixed :=
  { MemoryItem.newTurnSkeleton id "ix-s" turnIdx "s" "a" .episodic content 1000 with
    vectorRef := toString (vectorIdFromUlid id) }

def loggedCommit (id : String) (turnIdx : Nat) (content : String) : String :=
  JsonText.print (CommitEnvelope.mk (loggedTurn id turnIdx content) (some [⟨1000000⟩])).toJson

/-- The log of a leader that takes two turns and deletes the first. -/
def twoTurnsLog : WopTable where
  rows := [⟨1, "commit", loggedCommit "u" 0 "a\nb", 1000⟩,
    ⟨2, "commit", loggedCommit "uuuuuuuu" 1 "c\nd", 1000⟩, ⟨3, "delete", "u", 1019⟩]
  distinct := by decide
  sized e mem := by
    simp only [List.mem_cons, List.not_mem_nil, or_false] at mem
    rcases mem with rfl | rfl | rfl
    · exact ⟨by decide, by decide⟩
    · exact ⟨by decide, by decide⟩
    · exact ⟨by decide, by decide⟩

theorem twoTurnsLog_rows : twoTurnsLog.rows = [⟨1, "commit", loggedCommit "u" 0 "a\nb", 1000⟩,
    ⟨2, "commit", loggedCommit "uuuuuuuu" 1 "c\nd", 1000⟩, ⟨3, "delete", "u", 1019⟩] := rfl

theorem twoTurnsLog_inOrder : twoTurnsLog.InOrder where
  ordered := by decide
  positive e mem := by
    simp only [twoTurnsLog, List.mem_cons, List.not_mem_nil, or_false] at mem
    rcases mem with rfl | rfl | rfl <;> exact Nat.succ_pos _

theorem length_loggedCommits : (loggedCommit "u" 0 "a\nb").length ≤ 2000 ∧
    (loggedCommit "uuuuuuuu" 1 "c\nd").length ≤ 2000 := by
  refine ⟨?_, ?_⟩
  · change (Json.print _).length ≤ 2000
    rw [Json.print, String.length_ofList]
    decide +kernel
  · change (Json.print _).length ≤ 2000
    rw [Json.print, String.length_ofList]
    decide +kernel

theorem shortCommits {text text' : String} (short : text.length ≤ 2000)
    (short' : text'.length ≤ 2000) :
    24 * ([⟨1, "commit", text, 1000⟩, ⟨2, "commit", text', 1000⟩, ⟨3, "delete", "u", 1019⟩].map
      fun e : WopEntry => entryBound e + 1).sum + 2000 ≤ MAX_FRAME_LEN := by
  have op : "commit".length = 6 ∧ "delete".length = 6 ∧ "u".length = 1 := by decide
  simp only [List.map_cons, List.map_nil, List.sum_cons, List.sum_nil, entryBound, op,
    MAX_FRAME_LEN]
  omega

/-- A follower with the token, and a short log. -/
theorem twoTurnsLog_reachable : Reachable Fixed tokenLeader twoAtATime twoTurnsLog where
  sized := ⟨by decide, by decide⟩
  epoch := by decide
  letsIn := .inl rfl
  accepts := by decide
  asks := by decide
  short := short_of_log twoTurnsLog_inOrder ⟨by decide, by decide⟩ (by decide +kernel) (by decide)
    (by rw [twoTurnsLog_rows]; exact shortCommits length_loggedCommits.1 length_loggedCommits.2)

theorem loggedTurn_portable {id : String} {turnIdx : Nat} (content : String)
    (small : turnIdx < 2 ^ 32) (noTab : '\t' ∉ id.toList) :
    (loggedTurn id turnIdx content).Portable :=
  ⟨⟨small, Nat.two_pow_pos 64, show 1000 < 2 ^ 64 by decide, show 1000 < 2 ^ 64 by decide⟩,
    survives_fixed _, noTab⟩

theorem parseU64_loggedTurn (id : String) (turnIdx : Nat) (content : String) :
    parseU64 (loggedTurn id turnIdx content).vectorRef = some (vectorIdFromUlid id) :=
  (parseU64_toString _).trans (if_pos (vectorIdFromUlid_lt id))

theorem twoTurnsLog_logged : ∀ e ∈ twoTurnsLog.rows, Logged Fixed 1 e := by
  intro e mem
  simp only [twoTurnsLog, List.mem_cons, List.not_mem_nil, or_false] at mem
  rcases mem with rfl | rfl | rfl
  · exact .commit 1 1000 (loggedTurn_portable _ (by decide) (by decide)) ⟨rfl, rfl⟩
      (fun x _ => survives_fixed x) rfl (parseU64_loggedTurn _ _ _)
  · exact .commit 2 1000 (loggedTurn_portable _ (by decide) (by decide)) ⟨rfl, rfl⟩
      (fun x _ => survives_fixed x) rfl (parseU64_loggedTurn _ _ _)
  · exact .delete 3 "u" 1019

/-- The two turns come on the first page, the deletion on the second. -/
theorem pages_replay_log_twoTurns :
    ∃ outcome, Program.run (engineSink Fixed) (replayWops replayInto (twoTurnsLog.rows.take (2 * 2)))
        teaStart = (.ok outcome, ((Link.sync (engineSink Fixed) tokenLeader)^[2]
          (.start twoTurnsLog twoAtATime teaStart)).sink) ∧
      outcome.failed = false ∧
      ((Link.sync (engineSink Fixed) tokenLeader)^[2]
        (.start twoTurnsLog twoAtATime teaStart)).follower.localLastSeq =
          lastNumber (twoTurnsLog.rows.take (2 * 2)) :=
  pages_replay_log (replays_logged twoTurnsLog_logged) twoTurnsLog_reachable twoTurnsLog_inOrder
    ⟨teaStart_works, rfl⟩ 2

/-! ### Engines on both sides -/

omit [FloatArith F] [JsonText F] in
theorem Numbered.inOrder {db : Db F} (numbered : Numbered db) {log : WopTable}
    (rows : log.rows = db.wopLog) : log.InOrder where
  ordered := rows ▸ numbered.sorted
  positive e mem := (numbered.mem_iff.mp ⟨e, rows ▸ mem, rfl⟩).1

theorem numbered_runCalls (eng : MemoryEngine) (calls : List Call) {w : World F}
    (numbered : Numbered w.db) : Numbered (runCalls eng calls w).db := by
  induction calls generalizing w with
  | nil => exact numbered
  | cons c rest ih => exact ih ((logsOn_run (c.program eng) w).numbered numbered)

theorem WopTable.InOrder.lastNumber_eq {log : WopTable} (inOrder : log.InOrder) :
    lastNumber log.rows = maxSeq (log.rows.map (·.seq)) := by
  have entries : (log.rows.map fun e => (e, true)).map Prod.fst = log.rows := by
    rw [List.map_map]
    exact List.map_id _
  have ascending : AscendingAbove 0 ((log.rows.map fun e => (e, true)).map Prod.fst ++ []) := by
    have page := inOrder.ascending_page 0 log.rows.length
    rwa [List.drop_zero, List.take_length, ← entries, ← List.append_nil (List.map _ _)] at page
  have landed := cursorAfter_lastNumber [] (log.rows.map fun e => (e, true))
  rw [List.nil_append, entries] at landed
  rw [← landed, show lastNumber [] = 0 from rfl, ← max_lastSeq ascending, Nat.zero_max, lastSeq,
    List.map_map]
  rfl

/-- A leader that starts empty runs commits, deletions, consolidations and retrievals. A follower
that starts empty and synchronizes with it over the wire, page by page, has the leader's live
commits and its merges when there were pages enough, and its cursor is at the end of the log. -/
theorem follower_converges_in_pages [TruncatedText F] {env : Env F} (surroundings : env.Portable)
    (eng : MemoryEngine) (dim : Nat) {calls : List Call} (replicated : ∀ c ∈ calls, c.Replicated)
    (few : retrievals calls < 2 ^ 64) {follower : World F} (works : follower.env.NoFaults)
    (empty : follower.db = .empty) (fits : follower.store.dim = dim) {log : WopTable}
    (rows : log.rows = (runCalls eng calls (.fresh env .empty (.empty dim))).db.wopLog)
    {leader : LeaderConfig} {cfg : SyncConfig} (reachable : Reachable F leader cfg log) {k : Nat}
    (enough : log.rows.length ≤ k * cfg.fetchLimit) :
    let db := (runCalls eng calls (.fresh env .empty (.empty dim))).db
    let link := (Link.sync (engineSink F) leader)^[k] (.start log cfg follower)
    link.follower.localLastSeq = db.lastWopSeq ∧
      (∀ id, Option.Rel (MemoryItem.CopyOf (!eng.hasExtractor))
        ((link.sink.db.getMemory id).filter MemoryItem.isLiveCommit)
        ((db.getMemory id).filter MemoryItem.isLiveCommit)) ∧
      link.sink.db.mergeLog.map (·.pair) = db.mergeLog.map (·.pair) := by
  intro db link
  have mirrored := mirrored_runCalls surroundings eng dim replicated few
  have numbered : Numbered db := numbered_runCalls eng calls rfl
  have inOrder := numbered.inOrder rows
  have replays : Replays (engineSink F) (fun w => w.env.NoFaults ∧ w.store.dim = dim) log.rows :=
    replays_logged fun e mem => mirrored.logged e (rows ▸ mem)
  obtain ⟨synced, same, -⟩ := Synced.pages replays reachable inOrder ⟨works, fits⟩ k
  obtain ⟨following, ⟨landed, copied, lands⟩, -⟩ := synced
  have cursor := following.cursor
  rw [same, min_eq_right enough, List.take_length] at copied cursor
  have applied := applied_of_landed lands
  rw [copied, rows] at applied
  refine ⟨?_, fun id => ?_, ?_⟩
  · rw [inOrder.lastNumber_eq, rows] at cursor
    exact cursor
  · rw [applied.getMemory_empty empty]
    exact (mirrored.rows id).live
  · rw [applied.mergeLog_empty empty]
    exact mirrored.merges.symm

/-- Two turns are committed, and the first is deleted. -/
def twoTurns : List Call :=
  [.commit "s" ⟨"ix-s", "s", "a", "", "", [⟨0, "a", "b", []⟩, ⟨1, "c", "d", []⟩]⟩,
    .deleteMemory "u"]

theorem twoTurns_replicated : ∀ c ∈ twoTurns, c.Replicated := by
  intro c mem
  simp only [twoTurns, List.mem_cons, List.not_mem_nil, or_false] at mem
  rcases mem with rfl | rfl
  · intro turn mem
    simp only [List.mem_cons, List.not_mem_nil, or_false] at mem
    rcases mem with rfl | rfl <;> decide
  · trivial

theorem twoTurns_log : twoTurnsLog.rows = (runCalls (teaEngine true) twoTurns teaStart).db.wopLog := by
  with_unfolding_all rfl

theorem follower_converges_in_pages_twoTurns :
    let db := (runCalls (teaEngine true) twoTurns teaStart).db
    let link := (Link.sync (engineSink Fixed) tokenLeader)^[2]
      (.start twoTurnsLog twoAtATime teaStart)
    link.follower.localLastSeq = db.lastWopSeq ∧
      (∀ id, Option.Rel (MemoryItem.CopyOf (!(teaEngine true).hasExtractor))
        ((link.sink.db.getMemory id).filter MemoryItem.isLiveCommit)
        ((db.getMemory id).filter MemoryItem.isLiveCommit)) ∧
      link.sink.db.mergeLog.map (·.pair) = db.mergeLog.map (·.pair) :=
  follower_converges_in_pages teaEnv_portable (teaEngine true) 1 twoTurns_replicated (by decide)
    teaStart_works rfl rfl twoTurns_log twoTurnsLog_reachable (by decide)

end FusionMemory
