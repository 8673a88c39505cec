import FusionMemory.Cluster.ElectionSafety

/-!
Failover and leader epochs (`fm-server/src/cluster.rs`, `fm-cluster/src/role.rs`).

A follower runs `follower_orbit`: when the leader is down it campaigns, and when it wins
it adds one to its own epoch file, writes its role file and ends, to be restarted as a
leader. The epochs of a term come from one node (`published_by_one_node`). The epoch a leader
fences with comes from that file, which no other node reads: `epochs_order_wins_iff` says in
which runs the epochs still order the wins.

Writing a file is all or nothing here, and the leader epoch of the environment is not
set.
-/

namespace FusionMemory

open Lib

/-! ### Role and epoch files -/

inductive NodeRole where
  | standalone
  | leader
  | follower
deriving DecidableEq, Repr

namespace NodeRole

def asStr : NodeRole → String
  | .standalone => "standalone"
  | .leader => "leader"
  | .follower => "follower"

def parse (s : String) : NodeRole :=
  match s.toLower with
  | "leader" => .leader
  | "follower" => .follower
  | _ => .standalone

end NodeRole

/-- The files `role` and `epoch` of a data directory. -/
structure Home where
  role : Option String
  epoch : Option String
deriving DecidableEq, Repr

namespace Home

/-- `FUSION_MEMORY_ROLE`, then the file, then standalone. -/
def detectRoleWithHome (env : Option String) (home : Home) : NodeRole :=
  match env, home.role with
  | some v, _ => NodeRole.parse v
  | none, some s => NodeRole.parse (trim s)
  | none, none => .standalone

def writeRoleFile (home : Home) (role : NodeRole) : Home := { home with role := some role.asStr }

/-- A file that is missing or corrupt counts as 0. -/
def readEpochFile (home : Home) : Nat :=
  match home.epoch with
  | some s => (parseU64 (trim s)).getD 0
  | none => 0

def writeEpochFile (home : Home) (epoch : Nat) : Home := { home with epoch := some (toString epoch) }

/-- Decimal digits have no white space around them. -/
theorem trim_toString (n : Nat) : trim (toString n) = toString n := by
  have digits : ∀ c ∈ Nat.toDigits 10 n, isWhiteSpace c = false := by
    intro c mem
    have digit : c.isDigit = true := Nat.isDigit_of_mem_toDigits (by decide) (by decide) mem
    obtain ⟨low, high⟩ : 48 ≤ c.toNat ∧ c.toNat ≤ 57 := by
      simp only [Char.isDigit, Bool.and_eq_true, decide_eq_true_eq, UInt32.le_iff_toNat_le] at digit
      exact digit
    unfold isWhiteSpace
    simp only [List.contains_eq_mem, List.mem_cons, List.not_mem_nil, or_false,
      decide_eq_false_iff_not]
    omega
  unfold trim
  rw [Nat.toString_eq_repr, Nat.toList_repr]
  have left : (Nat.toDigits 10 n).dropWhile isWhiteSpace = Nat.toDigits 10 n := by
    cases same : Nat.toDigits 10 n with
    | nil => rfl
    | cons c rest => exact List.dropWhile_cons_of_neg (by
        simp [digits c (same ▸ List.mem_cons_self)])
  have right : (Nat.toDigits 10 n).rdropWhile isWhiteSpace = Nat.toDigits 10 n := by
    rw [List.rdropWhile_eq_self_iff]
    intro nonempty
    simp [digits _ (List.getLast_mem nonempty)]
  rw [left, right]
  rfl

/-- The epoch that was written is the epoch that is read. -/
@[simp] theorem readEpochFile_writeEpochFile {home : Home} {epoch : Nat} (fits : epoch < u64Size) :
    (home.writeEpochFile epoch).readEpochFile = epoch := by
  unfold readEpochFile writeEpochFile
  dsimp only
  rw [trim_toString, parseU64_toString, if_pos fits]
  rfl

@[simp] theorem readEpochFile_writeRoleFile (home : Home) (role : NodeRole) :
    (home.writeRoleFile role).readEpochFile = home.readEpochFile := rfl

end Home

/-! ### The orbit -/

/-- How far the winner of a campaign gets with its two files. -/
inductive Written where
  | nothing
  | epoch
  | all
deriving DecidableEq, Repr

/-- What the winner writes, and the epoch it gave itself. -/
def Home.promote (home : Home) : Written → Home × Option Nat
  | .nothing => (home, none)
  | .epoch =>
      let newEpoch := (home.readEpochFile + 1) % u64Size
      (home.writeEpochFile newEpoch, some newEpoch)
  | .all =>
      let newEpoch := (home.readEpochFile + 1) % u64Size
      ((home.writeEpochFile newEpoch).writeRoleFile .leader, some newEpoch)

theorem Home.promote_spec (home : Home) {written : Written} (some' : written ≠ .nothing) :
    (home.promote written).2 = some ((home.readEpochFile + 1) % u64Size) ∧
      (home.promote written).1.readEpochFile = (home.readEpochFile + 1) % u64Size := by
  have fits : (home.readEpochFile + 1) % u64Size < u64Size := Nat.mod_lt _ (by decide)
  cases written with
  | nothing => exact absurd rfl some'
  | epoch => exact ⟨rfl, readEpochFile_writeEpochFile fits⟩
  | all => exact ⟨rfl, (readEpochFile_writeRoleFile _ _).trans (readEpochFile_writeEpochFile fits)⟩

/-- A cluster, each node's files, and whether the node is in its `follower_orbit`. -/
structure FailoverCluster where
  cluster : ElectionCluster
  homes : List Home
  orbits : List Bool
deriving DecidableEq, Repr

inductive FailoverAction where
  | elect (a : ClusterAction)
  | finish (i : Nat) (now : Nat) (written : Written)
  /-- The process starts again, with its `FUSION_MEMORY_ROLE`. -/
  | restart (i : Nat) (env : Option String) (now : Nat)
deriving DecidableEq, Repr

inductive FailoverEvent where
  | election (i : Nat) (e : NodeEvent)
  /-- The winner of a term wrote its epoch file. -/
  | published (i : Nat) (term : Nat) (epoch : Nat)
deriving DecidableEq, Repr

namespace FailoverCluster

def fresh (m : Membership) (homes : List Home) (now : Nat) : FailoverCluster where
  cluster := .fresh m now
  homes := homes
  orbits := homes.map fun home => home.detectRoleWithHome none == .follower

/-- Only an orbit campaigns. The ends of campaigns and of processes have actions of their
own. -/
def allows (c : FailoverCluster) : ClusterAction → Bool
  | .own i (.campaign _) => c.orbits[i]? == some true
  | .own _ (.finish _) | .own _ (.restart _) => false
  | _ => true

/-- The term that was won, if the campaign was. -/
def wonTerm (now : List (Nat × NodeEvent)) : Option Nat :=
  now.findSome? fun
    | (_, .won term _) => some term
    | _ => none

def elections (now : List (Nat × NodeEvent)) : List FailoverEvent :=
  now.map fun p => .election p.1 p.2

def step (m : Membership) (c : FailoverCluster) :
    FailoverAction → Option (FailoverCluster × List FailoverEvent)
  | .elect a =>
      if c.allows a then do
        let (cluster, now) ← c.cluster.step m a
        return ({ c with cluster }, elections now)
      else none
  | .finish i at' written => do
      let home ← c.homes[i]?
      let (cluster, now) ← c.cluster.step m (.own i (.finish at'))
      match wonTerm now with
      | some term =>
          -- No other task reads or writes these files, so they are written at once.
          let (home', newEpoch) := home.promote written
          return ({ cluster, homes := c.homes.set i home', orbits := c.orbits.set i false },
            elections now ++ newEpoch.toList.map (.published i term))
      | none => return ({ c with cluster }, elections now)
  | .restart i env at' => do
      let home ← c.homes[i]?
      let (cluster, now) ← c.cluster.step m (.own i (.restart at'))
      let orbit := home.detectRoleWithHome env == .follower
      return ({ c with cluster, orbits := c.orbits.set i orbit }, elections now)

end FailoverCluster

/-- A cluster whose followers fail over by `follower_orbit`. -/
def failover (m : Membership) : StepSystem FailoverCluster FailoverAction FailoverEvent :=
  ⟨FailoverCluster.step m⟩

/-! ### Publications -/

/-- The node and the epoch, if a win was published. -/
def FailoverEvent.publication : FailoverEvent → Option (Nat × Nat)
  | .published i _ epoch => some (i, epoch)
  | .election _ _ => none

def publications (report : List FailoverEvent) : List (Nat × Nat) :=
  report.filterMap FailoverEvent.publication

theorem publications_append (report now : List FailoverEvent) :
    publications (report ++ now) = publications report ++ publications now :=
  List.filterMap_append

@[simp] theorem publications_elections (now : List (Nat × NodeEvent)) :
    publications (FailoverCluster.elections now) = [] := by
  unfold publications FailoverCluster.elections
  rw [List.filterMap_map, List.filterMap_eq_nil_iff]
  intro e _
  rfl

/-- The election events among them. -/
def FailoverEvent.election? : FailoverEvent → Option (Nat × NodeEvent)
  | .election i e => some (i, e)
  | .published _ _ _ => none

def electionEvents (report : List FailoverEvent) : List (Nat × NodeEvent) :=
  report.filterMap FailoverEvent.election?

theorem electionEvents_append (report now : List FailoverEvent) :
    electionEvents (report ++ now) = electionEvents report ++ electionEvents now :=
  List.filterMap_append

@[simp] theorem electionEvents_elections (now : List (Nat × NodeEvent)) :
    electionEvents (FailoverCluster.elections now) = now := by
  unfold electionEvents FailoverCluster.elections
  rw [List.filterMap_map]
  exact List.filterMap_some

@[simp] theorem electionEvents_published (i term : Nat) (epochs : List Nat) :
    electionEvents (epochs.map (.published i term)) = [] := by
  unfold electionEvents
  rw [List.filterMap_map, List.filterMap_eq_nil_iff]
  intro e _
  rfl

/-! ### What one step does -/

namespace FailoverCluster

variable {m : Membership} {c c' : FailoverCluster} {a : FailoverAction} {now : List FailoverEvent}

/-- The campaign of node `i` has its quorum. -/
def winning (m : Membership) (c : FailoverCluster) (i : Nat) : Bool :=
  (c.cluster.nodes[i]?.bind ElectionNode.campaign).any fun campaign =>
    (m.config i).quorum ≤ campaign.granted

/-- The node that wins in this step and writes its epoch file. -/
def promotes (m : Membership) (c : FailoverCluster) : FailoverAction → Option Nat
  | .finish i _ written => if c.winning m i ∧ written ≠ .nothing then some i else none
  | _ => none

theorem wonTerm_finish {i at' : Nat} {cluster : ElectionCluster} {now : List (Nat × NodeEvent)}
    (moved : c.cluster.step m (.own i (.finish at')) = some (cluster, now)) :
    (∃ term lastSeq, now = [(i, .won term lastSeq)] ∧ c.winning m i = true) ∨
      (∃ term, now = [(i, .lost term)] ∧ c.winning m i = false) := by
  obtain ⟨n, n', events, found, stepped, -, rfl⟩ := ElectionCluster.act_eq_some_iff.mp moved
  unfold winning
  rw [found]
  cases ElectionNode.stepped stepped with
  | won running enough => exact .inl ⟨_, _, rfl, by simp [running, enough]⟩
  | lost running few => exact .inr ⟨_, rfl, by simp [running, few]⟩

/-- A step leaves the files alone, or it is a win that writes the next epoch. -/
theorem step_cases (moved : c.step m a = some (c', now)) :
    (c.promotes m a = none ∧ c'.homes = c.homes ∧ publications now = []) ∨
      ∃ i home home', c.promotes m a = some i ∧ c.homes[i]? = some home ∧
        c'.homes = c.homes.set i home' ∧
        home'.readEpochFile = (home.readEpochFile + 1) % u64Size ∧
        publications now = [(i, (home.readEpochFile + 1) % u64Size)] := by
  cases a with
  | elect a =>
      unfold step at moved
      dsimp only at moved
      split_ifs at moved
      simp only [Option.bind_eq_bind, Option.bind_eq_some_iff, Option.pure_def] at moved
      obtain ⟨⟨_, _⟩, -, same⟩ := moved
      cases same
      exact .inl ⟨rfl, rfl, publications_elections _⟩
  | finish i at' written =>
      simp only [step, Option.bind_eq_bind, Option.bind_eq_some_iff, Option.pure_def] at moved
      obtain ⟨home, found, ⟨cluster, out⟩, ended, same⟩ := moved
      rcases wonTerm_finish ended with ⟨term, lastSeq, rfl, wins⟩ | ⟨term, rfl, loses⟩
      · cases same
        by_cases nothing : written = .nothing
        · subst nothing
          refine .inl ⟨by simp [promotes], ?_, ?_⟩
          · obtain ⟨inside, rfl⟩ := List.getElem?_eq_some_iff.mp found
            exact List.set_getElem_self inside
          · rw [publications_append, publications_elections]
            rfl
        · obtain ⟨newEpoch, epoch⟩ := home.promote_spec nothing
          refine .inr ⟨i, home, _, by simp [promotes, wins, nothing], found, rfl, epoch, ?_⟩
          rw [publications_append, publications_elections, newEpoch]
          rfl
      · cases same
        exact .inl ⟨by simp [promotes, loses], rfl, publications_elections _⟩
  | restart i env at' =>
      simp only [step, Option.bind_eq_bind, Option.bind_eq_some_iff, Option.pure_def] at moved
      obtain ⟨home, found, ⟨cluster, out⟩, -, same⟩ := moved
      cases same
      exact .inl ⟨rfl, rfl, publications_elections _⟩

/-- The elections of a step are a step of the election layer, or nothing. -/
theorem step_elections (moved : c.step m a = some (c', now)) :
    ∃ b, c.cluster.step m b = some (c'.cluster, electionEvents now) := by
  cases a with
  | elect a =>
      unfold step at moved
      dsimp only at moved
      split_ifs at moved
      simp only [Option.bind_eq_bind, Option.bind_eq_some_iff, Option.pure_def] at moved
      obtain ⟨⟨_, _⟩, stepped, same⟩ := moved
      cases same
      exact ⟨a, by rw [electionEvents_elections, stepped]⟩
  | finish i at' written =>
      simp only [step, Option.bind_eq_bind, Option.bind_eq_some_iff, Option.pure_def] at moved
      obtain ⟨home, found, ⟨cluster, out⟩, ended, same⟩ := moved
      refine ⟨.own i (.finish at'), ?_⟩
      cases term : wonTerm out <;> rw [term] at same <;> cases same
      · rw [electionEvents_elections, ended]
      · rw [electionEvents_append, electionEvents_elections, electionEvents_published,
          List.append_nil, ended]
  | restart i env at' =>
      simp only [step, Option.bind_eq_bind, Option.bind_eq_some_iff, Option.pure_def] at moved
      obtain ⟨home, found, ⟨cluster, out⟩, began, same⟩ := moved
      cases same
      exact ⟨.own i (.restart at'), by rw [electionEvents_elections, began]⟩

/-- What is published in a step was won in it. -/
theorem step_published (moved : c.step m a = some (c', now)) {i term epoch : Nat}
    (published : .published i term epoch ∈ now) :
    ∃ lastSeq, (i, .won term lastSeq) ∈ electionEvents now := by
  have none_elections (out : List (Nat × NodeEvent)) :
      FailoverEvent.published i term epoch ∉ elections out := by
    simp [elections]
  cases a with
  | elect a =>
      unfold step at moved
      dsimp only at moved
      split_ifs at moved
      simp only [Option.bind_eq_bind, Option.bind_eq_some_iff, Option.pure_def] at moved
      obtain ⟨⟨_, out⟩, -, same⟩ := moved
      cases same
      exact absurd published (none_elections out)
  | finish j at' written =>
      simp only [step, Option.bind_eq_bind, Option.bind_eq_some_iff, Option.pure_def] at moved
      obtain ⟨home, found, ⟨cluster, out⟩, ended, same⟩ := moved
      rcases wonTerm_finish ended with ⟨term', lastSeq, rfl, -⟩ | ⟨term', rfl, -⟩
      · cases same
        rcases List.mem_append.mp published with inside | inside
        · exact absurd inside (none_elections _)
        · obtain ⟨_, -, this⟩ := List.mem_map.mp inside
          cases this
          exact ⟨lastSeq, by simp [electionEvents_append]⟩
      · cases same
        exact absurd published (none_elections _)
  | restart j env at' =>
      simp only [step, Option.bind_eq_bind, Option.bind_eq_some_iff, Option.pure_def] at moved
      obtain ⟨home, found, ⟨cluster, out⟩, -, same⟩ := moved
      cases same
      exact absurd published (none_elections out)

end FailoverCluster

/-- Every publication is that of a win in the election layer. -/
theorem Run.won_of_published {m : Membership} {c₀ c : FailoverCluster}
    {labels : List FailoverAction} {report : List FailoverEvent}
    (ran : (failover m).Run StepSystem.Always c₀ labels c report) {i term epoch : Nat}
    (published : .published i term epoch ∈ report) :
    ∃ lastSeq, (i, .won term lastSeq) ∈ electionEvents report := by
  induction ran with
  | start => cases published
  | step before _ moved ih =>
      rw [electionEvents_append]
      rcases List.mem_append.mp published with old | new
      · obtain ⟨lastSeq, won⟩ := ih old
        exact ⟨lastSeq, List.mem_append_left _ won⟩
      · obtain ⟨lastSeq, won⟩ := FailoverCluster.step_published moved new
        exact ⟨lastSeq, List.mem_append_right _ won⟩

/-- The elections of a failover run are a run of the election layer. -/
theorem Run.elections {m : Membership} {homes : List Home} {start : Nat}
    {labels : List FailoverAction} {c : FailoverCluster} {report : List FailoverEvent}
    (ran : (failover m).Run StepSystem.Always (.fresh m homes start) labels c report) :
    ∃ own, (electionCluster m).Run StepSystem.Always (.fresh m start) own c.cluster
      (electionEvents report) := by
  induction ran with
  | start => exact ⟨[], .start⟩
  | step before _ moved ih =>
      obtain ⟨own, run⟩ := ih
      obtain ⟨b, stepped⟩ := FailoverCluster.step_elections moved
      rw [electionEvents_append]
      exact ⟨own ++ [b], run.step trivial stepped⟩

/-- Without restarts, and with terms below the largest, the epochs of one term are published
by one node. -/
theorem published_by_one_node {m : Membership} {homes : List Home} {start : Nat}
    {labels : List FailoverAction} {c : FailoverCluster} {report : List FailoverEvent}
    (ran : (failover m).Run StepSystem.Always (.fresh m homes start) labels c report)
    (noRestart : ∀ i, (i, .restarted) ∉ electionEvents report)
    (bounded : ∀ i term seq, (i, .campaigned term seq) ∈ electionEvents report → term < u64Max)
    {i j term epoch epoch' : Nat} (published : .published i term epoch ∈ report)
    (published' : .published j term epoch' ∈ report) : i = j := by
  obtain ⟨own, elections⟩ := Run.elections ran
  obtain ⟨seq, won⟩ := Run.won_of_published ran published
  obtain ⟨seq', won'⟩ := Run.won_of_published ran published'
  exact one_winner elections noRestart bounded won won'

/-! ### The order of epochs -/

/-- Each win has a greater epoch than every win before it. -/
def EpochsOrderWins (report : List FailoverEvent) : Prop :=
  (publications report).Pairwise fun earlier later => earlier.2 < later.2

/-- When a win writes its epoch, no other node has one, and the node's own epoch can still
grow. -/
def OtherEpochsZero (m : Membership) (c : FailoverCluster) (_ : List FailoverEvent)
    (a : FailoverAction) : Prop :=
  ∀ i, c.promotes m a = some i → ∀ j home, c.homes[j]? = some home →
    if j = i then home.readEpochFile + 1 < u64Size else home.readEpochFile = 0

/-- All `k` wins so far are those of node `i`: its file has counted them. -/
structure OneLeader (c : FailoverCluster) (report : List FailoverEvent) (i k : Nat) : Prop where
  fits : k < u64Size
  published : publications report = (List.range k).map fun x => (i, x + 1)
  node : k ≠ 0 → ∃ home, c.homes[i]? = some home
  epochs : ∀ j home, c.homes[j]? = some home → home.readEpochFile = if j = i then k else 0

namespace OneLeader

variable {m : Membership} {c c' : FailoverCluster} {report now : List FailoverEvent}
  {a : FailoverAction} {i k : Nat}

theorem start {homes : List Home} (zero : ∀ home ∈ homes, home.readEpochFile = 0) (now : Nat) :
    OneLeader (.fresh m homes now) [] 0 0 where
  fits := by decide
  published := rfl
  node nonzero := absurd rfl nonzero
  epochs j home found := by
    rw [zero home (List.mem_of_getElem? found)]
    split_ifs <;> rfl

theorem ordered (one : OneLeader c report i k) : EpochsOrderWins report := by
  unfold EpochsOrderWins
  rw [one.published, List.pairwise_map]
  exact List.pairwise_lt_range.imp fun lt => Nat.succ_lt_succ lt

/-- The next win is one of the same node, if there was one before. -/
theorem same_node (one : OneLeader c report i k) (sole : OtherEpochsZero m c report a) {j : Nat}
    (promotes : c.promotes m a = some j) : k = 0 ∨ j = i := by
  by_contra neither
  obtain ⟨nonzero, other⟩ := not_or.mp neither
  obtain ⟨home, found⟩ := one.node nonzero
  have zero := sole j promotes i home found
  rw [if_neg (Ne.symm other), one.epochs i home found, if_pos rfl] at zero
  exact nonzero zero

theorem step (one : OneLeader c report i k) (sole : OtherEpochsZero m c report a)
    (moved : c.step m a = some (c', now)) : ∃ i k, OneLeader c' (report ++ now) i k := by
  rcases FailoverCluster.step_cases moved with ⟨-, homes, silent⟩ |
    ⟨j, home, home', promotes, found, homes, epoch, published⟩
  · refine ⟨i, k, one.fits, ?_, ?_, ?_⟩
    · rw [publications_append, silent, List.append_nil]
      exact one.published
    · rw [homes]
      exact one.node
    · rw [homes]
      exact one.epochs
  · have own := sole j promotes j home found
    rw [if_pos rfl] at own
    rw [Nat.mod_eq_of_lt own] at epoch published
    have inside : j < c.homes.length := (List.getElem?_eq_some_iff.mp found).1
    have same := one.same_node sole promotes
    have count : home.readEpochFile = k := by
      rw [one.epochs j home found]
      rcases same with rfl | rfl
      · exact ite_self 0
      · exact if_pos rfl
    rw [count] at own epoch published
    refine ⟨j, k + 1, own, ?_, ?_, ?_⟩
    · rw [publications_append, published, one.published, List.range_succ, List.map_append]
      congr 1
      rcases same with rfl | rfl <;> rfl
    · intro _
      exact ⟨home', by rw [homes, List.getElem?_set_self inside]⟩
    · intro j' x at'
      rw [homes, List.getElem?_set] at at'
      split_ifs at at' with this
      · cases at'
        rw [if_pos this.symm, epoch]
      · rw [one.epochs j' x at', if_neg (Ne.symm this)]
        rcases same with rfl | rfl
        · exact ite_self 0
        · exact if_neg (Ne.symm this)

/-- A win by another node, or one more than the file can count, comes out of order. -/
theorem sole_of_ordered (one : OneLeader c report i k) (moved : c.step m a = some (c', now))
    (ordered : EpochsOrderWins (report ++ now)) : OtherEpochsZero m c report a := by
  intro j promotes j' other found'
  rcases FailoverCluster.step_cases moved with ⟨quiet, -, -⟩ |
    ⟨j₀, home, home', promotes', found, -, -, published⟩
  · rw [quiet] at promotes
    cases promotes
  · cases promotes'.symm.trans promotes
    rw [EpochsOrderWins, publications_append, published, one.published,
      List.pairwise_append] at ordered
    have above : ∀ x < k, x + 1 < (home.readEpochFile + 1) % u64Size := fun x lt =>
      ordered.2.2 (i, x + 1) (List.mem_map_of_mem (List.mem_range.mpr lt)) _ List.mem_cons_self
    have fits := one.fits
    have epoch := one.epochs j home found
    rw [one.epochs j' other found']
    rcases Nat.eq_zero_or_pos k with rfl | positive
    · simp [u64Size]
    · have last := above (k - 1) (by omega)
      rw [Nat.sub_add_cancel positive] at last
      have same : j = i := by
        by_contra different
        rw [epoch, if_neg different, Nat.mod_eq_of_lt (by decide)] at last
        omega
      subst same
      rw [epoch, if_pos rfl] at last
      have room : k + 1 < u64Size := by
        by_contra full
        have full : k + 1 = u64Size := by omega
        rw [full, Nat.mod_self] at last
        omega
      split_ifs <;> simp [room]

end OneLeader

/-- Epochs order the wins of a run that starts with epoch 0 everywhere exactly when no win
is published while another node has published one, nor past the last `u64`. -/
theorem epochs_order_wins_iff {m : Membership} {homes : List Home} {start : Nat}
    {labels : List FailoverAction} {c : FailoverCluster} {report : List FailoverEvent}
    (zero : ∀ home ∈ homes, home.readEpochFile = 0)
    (ran : (failover m).Run StepSystem.Always (.fresh m homes start) labels c report) :
    EpochsOrderWins report ↔
      (failover m).Run (OtherEpochsZero m) (.fresh m homes start) labels c report := by
  have leader {c : FailoverCluster} {labels report}
      (run : (failover m).Run (OtherEpochsZero m) (.fresh m homes start) labels c report) :
      ∃ i k, OneLeader c report i k :=
    run.invariant (I := fun c report => ∃ i k, OneLeader c report i k)
      ⟨0, 0, .start zero start⟩ fun _ _ _ _ _ ⟨_, _, one⟩ sole moved => one.step sole moved
  constructor
  · intro ordered
    induction ran with
    | start => exact .start
    | @step labels s s' report now a before _ moved ih =>
        have prefixOrdered : EpochsOrderWins report := by
          rw [EpochsOrderWins, publications_append] at ordered
          exact (List.pairwise_append.mp ordered).1
        have run := ih prefixOrdered
        obtain ⟨i, k, one⟩ := leader run
        exact run.step (one.sole_of_ordered moved ordered) moved
  · intro run
    obtain ⟨i, k, one⟩ := leader run
    exact one.ordered

/-- Node 0 leads; the others follow it. No node has an epoch. -/
def firstHomes : List Home :=
  [⟨some "leader", some "0"⟩, ⟨some "follower", some "0"⟩, ⟨some "follower", some "0"⟩]

/-- Nodes 1 and 2 win one after the other, each with the vote of node 0. -/
def twoFailovers : List FailoverAction :=
  [.elect (.own 1 (.campaign 0)), .elect (.send 1), .elect (.deliver 0 0 1000), .elect (.receive 0),
    .elect (.fail 1), .finish 1 2000 .all, .elect (.own 2 (.campaign 0)), .elect (.fail 2),
    .elect (.fail 2), .finish 2 3000 .all, .elect (.own 2 (.campaign 0)), .elect (.send 2),
    .elect (.deliver 0 0 4000), .elect (.receive 0), .elect (.fail 2), .finish 2 5000 .all]

def afterTwoFailovers : FailoverCluster where
  cluster := ⟨[⟨⟨.follower, 2, some 2, 4000, 0⟩, none⟩, ⟨⟨.leader, 1, some 1, 2000, 0⟩, none⟩,
    ⟨⟨.leader, 2, some 2, 5000, 0⟩, none⟩], [], [], 2⟩
  homes := [⟨some "leader", some "0"⟩, ⟨some "leader", some "1"⟩, ⟨some "leader", some "1"⟩]
  orbits := [false, false, false]

def twoWins : List FailoverEvent :=
  [.election 1 (.campaigned 1 0), .election 0 (.answered ⟨1, 1, 0, ""⟩ 0 ⟨1, true, 0⟩),
    .election 1 (.won 1 0), .published 1 1 1, .election 2 (.campaigned 1 0), .election 2 (.lost 1),
    .election 2 (.campaigned 2 0), .election 0 (.answered ⟨2, 2, 0, ""⟩ 0 ⟨2, true, 0⟩),
    .election 2 (.won 2 0), .published 2 2 1]

theorem run_twoFailovers :
    (failover threeMembers).Run StepSystem.Always (.fresh threeMembers firstHomes 0) twoFailovers
      afterTwoFailovers twoWins :=
  .of_exec (fun _ _ _ (_ : true = true) => trivial) (by decide +kernel)

theorem firstHomes_zero : ∀ home ∈ firstHomes, home.readEpochFile = 0 := by decide +kernel

/-- Two nodes that win in terms 1 and 2 both publish epoch 1. -/
theorem two_wins_one_epoch : ¬ ∀ m homes start labels c report,
    (∀ home ∈ homes, home.readEpochFile = 0) →
      (failover m).Run StepSystem.Always (.fresh m homes start) labels c report →
        EpochsOrderWins report := by
  intro always
  have ordered := always _ _ _ _ _ _ firstHomes_zero run_twoFailovers
  have wins : publications twoWins = [(1, 1), (2, 1)] := rfl
  rw [EpochsOrderWins, wins] at ordered
  exact absurd ordered (by decide)

theorem epochs_order_wins_iff_two_failovers :
    EpochsOrderWins twoWins ↔
      (failover threeMembers).Run (OtherEpochsZero threeMembers) (.fresh threeMembers firstHomes 0)
        twoFailovers afterTwoFailovers twoWins :=
  epochs_order_wins_iff firstHomes_zero run_twoFailovers

end FusionMemory
