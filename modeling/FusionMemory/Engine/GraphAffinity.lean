import FusionMemory.Engine.RetrieveHits
import FusionMemory.Persist.Reachability

/-!
Graph affinity (`fm-graph/src/affinity.rs`) against its definition: 1 on a shared id, otherwise
one half to the power of the least number of relations from a query entity to a candidate.

The code takes the best value over what the recursive queries list. `graphAffinity_exact_iff`
says when the cut of those lists loses it.
-/

namespace FusionMemory

open Lib

/-- Zero and the powers of one half within the hop limit are in order. -/
class HalfPowers (F : Type) [FloatArith F] : Prop where
  quarter_pos : FloatArith.lt (FloatArith.ofNat 0 : F) (halfPow 2) = true
  quarter_lt_half : FloatArith.lt (halfPow 2 : F) (halfPow 1) = true

instance : HalfPowers Fixed where
  quarter_pos := by decide
  quarter_lt_half := by decide

variable {F : Type} [FloatArith F]

/-! ### Values -/

/-- The affinity at a number of hops, 0 without a path. -/
def affinityOf : Option Nat → F
  | none => FloatArith.ofNat 0
  | some d => halfPow d

/-- A number of hops that the limit allows, or none. -/
inductive Allowed : Option Nat → Prop where
  | none : Allowed none
  | one : Allowed (some 1)
  | two : Allowed (some 2)

theorem Allowed.of_le {d : Nat} (positive : d ≠ 0) (le : d ≤ 2) : Allowed (some d) := by
  obtain rfl | rfl : d = 1 ∨ d = 2 := by omega
  · exact .one
  · exact .two

theorem Allowed.nearer {x y : Option Nat} (allowed : Allowed x) (allowed' : Allowed y) :
    Allowed (nearer x y) := by
  cases allowed <;> cases allowed' <;> constructor

section Order

variable [NanTest F] [FloatOrder F] [HalfPowers F]

theorem lt_affinityOf :
    FloatArith.lt (affinityOf none : F) (affinityOf (some 2)) = true ∧
    FloatArith.lt (affinityOf (some 2) : F) (affinityOf (some 1)) = true ∧
    FloatArith.lt (affinityOf none : F) (affinityOf (some 1)) = true :=
  ⟨HalfPowers.quarter_pos, HalfPowers.quarter_lt_half,
    FloatOrder.lt_trans HalfPowers.quarter_pos HalfPowers.quarter_lt_half⟩

omit [HalfPowers F] in
theorem lt_asymm_eq_false {a b : F} (below : FloatArith.lt a b = true) : FloatArith.lt b a = false := by
  rw [← Bool.not_eq_true]
  intro above
  have self := FloatOrder.lt_trans below above
  rw [FloatArith.lt_irrefl] at self
  cases self

/-- The greater value is that of the nearer. -/
theorem max_affinityOf {x y : Option Nat} (allowed : Allowed x) (allowed' : Allowed y) :
    (if FloatArith.lt (affinityOf x : F) (affinityOf y) then affinityOf y else affinityOf x) =
      (affinityOf (nearer x y) : F) := by
  obtain ⟨low, middle, high⟩ := lt_affinityOf (F := F)
  cases allowed <;> cases allowed' <;>
    simp [nearer, low, middle, high, lt_asymm_eq_false low, lt_asymm_eq_false middle,
      lt_asymm_eq_false high]

theorem affinityOf_injective {x y : Option Nat} (allowed : Allowed x) (allowed' : Allowed y)
    (same : (affinityOf x : F) = affinityOf y) : x = y := by
  obtain ⟨low, middle, high⟩ := lt_affinityOf (F := F)
  by_contra different
  have ordered : FloatArith.lt (affinityOf x : F) (affinityOf y) = true ∨
      FloatArith.lt (affinityOf y : F) (affinityOf x) = true := by
    cases allowed <;> cases allowed' <;> simp_all
  rw [same, FloatArith.lt_irrefl, or_self] at ordered
  cases ordered

/-! ### The scan of a list -/

/-- The scan of the listed entities keeps the value of the least number of hops. -/
theorem foldl_affinityOf (candidateIds : List String) {reachable : List (String × Nat)}
    (hops : ∀ p ∈ reachable, Allowed (some p.2)) :
    ∀ {S : Nat → Prop} {x : Option Nat}, Allowed x → Least S x → ∃ y, Allowed y ∧
      Least (fun d => S d ∨ ∃ c ∈ candidateIds, (c, d) ∈ reachable) y ∧
      reachable.foldl (fun best p =>
        if candidateIds.contains p.1 then
          let score := halfPow p.2
          if FloatArith.lt best score then score else best
        else best) (affinityOf x) = (affinityOf y : F) := by
  induction reachable with
  | nil =>
      intro S x allowed least
      exact ⟨x, allowed, (Least.congr fun d => by simp).mp least, rfl⟩
  | cons p reachable ih =>
      intro S x allowed least
      have tail := fun q mem => hops q (List.mem_cons_of_mem _ mem)
      have head := hops p List.mem_cons_self
      rw [List.foldl_cons]
      by_cases candidate : candidateIds.contains p.1 = true
      · obtain ⟨y, allowed', least', scanned⟩ := ih tail (allowed.nearer head) (least.insert p.2)
        refine ⟨y, allowed', (Least.congr fun d => ?_).mp least', ?_⟩
        · rw [or_assoc]
          refine or_congr_right ⟨?_, ?_⟩
          · rintro (rfl | ⟨c, mem, listed⟩)
            · exact ⟨p.1, List.contains_iff_mem.mp candidate, List.mem_cons_self⟩
            · exact ⟨c, mem, List.mem_cons_of_mem _ listed⟩
          · rintro ⟨c, mem, listed⟩
            rcases List.mem_cons.mp listed with same | listed
            · exact .inl (congrArg Prod.snd same)
            · exact .inr ⟨c, mem, listed⟩
        · rw [if_pos candidate, ← scanned, ← max_affinityOf allowed head]
          rfl
      · obtain ⟨y, allowed', least', scanned⟩ := ih tail allowed least
        refine ⟨y, allowed', (Least.congr fun d => or_congr_right ⟨?_, ?_⟩).mp least', ?_⟩
        · rintro ⟨c, mem, listed⟩
          exact ⟨c, mem, List.mem_cons_of_mem _ listed⟩
        · rintro ⟨c, mem, listed⟩
          rcases List.mem_cons.mp listed with same | listed
          · cases same
            exact (candidate (List.contains_iff_mem.mpr mem)).elim
          · exact ⟨c, mem, listed⟩
        · rw [if_neg candidate, ← scanned]

theorem affinityFromReachability_eq {q : String} {candidateIds : List String}
    {reachable : List (String × Nat)} (unshared : q ∉ candidateIds)
    (hops : ∀ p ∈ reachable, Allowed (some p.2)) : ∃ y, Allowed y ∧
      Least (fun d => ∃ c ∈ candidateIds, (c, d) ∈ reachable) y ∧
      affinityFromReachability [q] candidateIds reachable = (affinityOf y : F) := by
  have nothing : Least (fun _ => False) none := fun _ => id
  obtain ⟨y, allowed, least, scanned⟩ := foldl_affinityOf (F := F) candidateIds hops .none nothing
  unfold affinityFromReachability
  cases candidateIds with
  | nil => exact ⟨none, .none, fun d has => (by obtain ⟨c, mem, -⟩ := has; cases mem), rfl⟩
  | cons c candidateIds =>
      refine ⟨y, allowed, (Least.congr fun d => by rw [false_or]).mp least, ?_⟩
      rw [if_neg (by simp), if_neg (by simpa using unshared), ← scanned]
      rfl

/-! ### The queries -/

/-- A query entity lists a candidate at a number of hops. -/
def HopListed (db : Db F) (queryIds candidateIds : List String) (hopLimit d : Nat) : Prop :=
  ∃ q ∈ queryIds, ∃ c ∈ candidateIds, (c, d) ∈ db.nHopReachable q hopLimit

omit [NanTest F] [FloatOrder F] [HalfPowers F] in
theorem run_graphAffinityFrom_shared {candidateIds : List String} {hopLimit : Nat}
    {queryIds : List String} (shared : ∃ q ∈ queryIds, q ∈ candidateIds) :
    ∀ {best : F} {w : World F}, w.env.NoFaults → ∃ w',
      run (graphAffinityFrom candidateIds hopLimit queryIds best) w = (.ok (FloatArith.ofNat 1), w') := by
  induction queryIds with
  | nil =>
      obtain ⟨q, mem, -⟩ := shared
      cases mem
  | cons q rest ih =>
      intro best w quiet
      unfold graphAffinityFrom
      by_cases candidate : candidateIds.contains q = true
      · rw [if_pos candidate]
        exact ⟨w, rfl⟩
      · rw [if_neg candidate, run_persist_bind, World.execPersist_eq quiet]
        refine ih ?_ quiet
        obtain ⟨q', mem, inside⟩ := shared
        rcases List.mem_cons.mp mem with rfl | mem
        · exact (candidate (List.contains_iff_mem.mpr inside)).elim
        · exact ⟨q', mem, inside⟩

theorem run_graphAffinityFrom_unshared {candidateIds : List String} {hopLimit : Nat} (le : hopLimit ≤ 2)
    {queryIds : List String} (unshared : ∀ q ∈ queryIds, q ∉ candidateIds) :
    ∀ {S : Nat → Prop} {x : Option Nat} {w : World F}, w.env.NoFaults → Allowed x → Least S x →
      ∃ y w', run (graphAffinityFrom candidateIds hopLimit queryIds (affinityOf x)) w =
        (.ok (affinityOf y), w') ∧ Allowed y ∧
          Least (fun d => S d ∨ HopListed w.db queryIds candidateIds hopLimit d) y := by
  induction queryIds with
  | nil =>
      intro S x w quiet allowed least
      exact ⟨x, w, rfl, allowed, (Least.congr fun d => by simp [HopListed]).mp least⟩
  | cons q rest ih =>
      intro S x w quiet allowed least
      have candidate : candidateIds.contains q ≠ true := fun inside =>
        unshared q List.mem_cons_self (List.contains_iff_mem.mp inside)
      have hops : ∀ p ∈ w.db.nHopReachable q hopLimit, Allowed (some p.2) := by
        rintro ⟨c, d⟩ listed
        obtain ⟨other, within, distance, -⟩ := Db.mem_nHopReachable.mp listed
        refine .of_le ?_ (within.trans le)
        rintro rfl
        exact other (distance_zero_iff.mp distance).symm
      obtain ⟨y, allowed', least', value⟩ :=
        affinityFromReachability_eq (F := F) (unshared q List.mem_cons_self) hops
      unfold graphAffinityFrom
      rw [if_neg candidate, run_persist_bind, World.execPersist_eq quiet]
      obtain ⟨z, w', ran, allowed'', least''⟩ := ih (fun q' mem => unshared q' (List.mem_cons_of_mem _ mem))
        (w := w.withDb w.db) quiet (allowed.nearer allowed') (least.nearer least')
      refine ⟨z, w', ?_, allowed'', (Least.congr fun d => ?_).mp least''⟩
      · rw [← ran, ← max_affinityOf allowed allowed', ← value]
        rfl
      · unfold HopListed
        simp [or_assoc]

end Order

/-! ### The definition -/

/-- A path of `d` relations within the hops leads from a query entity to a candidate. -/
def Connected (db : Db F) (queryIds candidateIds : List String) (hopLimit d : Nat) : Prop :=
  d ≤ hopLimit ∧ ∃ q ∈ queryIds, ∃ c ∈ candidateIds, Path db.Related d q c

/-- The hops that the limit is clamped to. -/
def clampHops (hopLimit : Nat) : Nat := min (max hopLimit 1) GRAPH_HOP_LIMIT

/-- The affinity by its definition. -/
def IsAffinity (db : Db F) (queryIds candidateIds : List String) (hopLimit : Nat) (a : F) : Prop :=
  if ∃ q ∈ queryIds, q ∈ candidateIds then a = FloatArith.ofNat 1
  else ∃ x, Least (Connected db queryIds candidateIds (clampHops hopLimit)) x ∧ a = affinityOf x

section Exact

omit [FloatArith F] in
/-- What is listed is connected. -/
theorem HopListed.connected {db : Db F} {queryIds candidateIds : List String} {hopLimit d : Nat}
    (listed : HopListed db queryIds candidateIds hopLimit d) :
    Connected db queryIds candidateIds hopLimit d := by
  obtain ⟨q, inQ, c, inC, mem⟩ := listed
  obtain ⟨-, le, distance, -⟩ := Db.mem_nHopReachable.mp mem
  exact ⟨le, q, inQ, c, inC, distance.path⟩

omit [FloatArith F] in
/-- The least number of hops is listed when one of its candidates is. -/
theorem listed_least_iff {db : Db F} {queryIds candidateIds : List String} {hopLimit d : Nat}
    (unshared : ∀ q ∈ queryIds, q ∉ candidateIds)
    (least : Least (Connected db queryIds candidateIds hopLimit) (some d)) :
    HopListed db queryIds candidateIds hopLimit d ↔ ∃ q ∈ queryIds, ∃ c ∈ candidateIds,
      Path db.Related d q c ∧ (db.before q c d).ncard < Db.N_HOP_RESULT_LIMIT := by
  unfold HopListed
  refine exists_congr fun q => and_congr_right fun inQ => exists_congr fun c =>
    and_congr_right fun inC => ?_
  rw [Db.mem_nHopReachable]
  constructor
  · rintro ⟨-, -, distance, few⟩
    exact ⟨distance.path, few⟩
  · rintro ⟨path, few⟩
    refine ⟨fun same => unshared q inQ (same ▸ inC), least.1.1, ⟨path, fun n shorter => ?_⟩, few⟩
    by_contra below
    have within : n ≤ hopLimit := (Nat.le_of_lt (not_le.mp below)).trans least.1.1
    exact below (least.2 n ⟨within, q, inQ, c, inC, shorter⟩)

omit [FloatArith F] in
theorem allowed_of_least {db : Db F} {queryIds candidateIds : List String} {hopLimit : Nat}
    (le : hopLimit ≤ 2) (unshared : ∀ q ∈ queryIds, q ∉ candidateIds) {x : Option Nat}
    (least : Least (Connected db queryIds candidateIds hopLimit) x) : Allowed x := by
  cases x with
  | none => exact .none
  | some d =>
      refine .of_le ?_ (least.1.1.trans le)
      rintro rfl
      obtain ⟨-, q, inQ, c, inC, path⟩ := least.1
      have same : q = c := path
      exact unshared q inQ (same ▸ inC)

theorem clampHops_eq (hopLimit : Nat) : max 1 (min hopLimit GRAPH_HOP_LIMIT) = clampHops hopLimit := by
  unfold clampHops GRAPH_HOP_LIMIT
  omega

theorem run_graphAffinity_shared {queryIds candidateIds : List String} (hopLimit : Nat) {w : World F}
    (quiet : w.env.NoFaults) (shared : ∃ q ∈ queryIds, q ∈ candidateIds) : ∃ w',
      run (graphAffinity queryIds candidateIds hopLimit) w = (.ok (FloatArith.ofNat 1), w') := by
  have nonempty : ¬ (queryIds.isEmpty || candidateIds.isEmpty) = true := by
    obtain ⟨q, inQ, inC⟩ := shared
    simp [List.ne_nil_of_mem inQ, List.ne_nil_of_mem inC]
  unfold graphAffinity
  rw [if_neg nonempty]
  exact run_graphAffinityFrom_shared shared quiet

variable [NanTest F] [FloatOrder F] [HalfPowers F]

/-- Without a shared id, it is the value of the least number of hops that is listed. -/
theorem run_graphAffinity_unshared {queryIds candidateIds : List String} (hopLimit : Nat)
    {w : World F} (quiet : w.env.NoFaults) (unshared : ∀ q ∈ queryIds, q ∉ candidateIds) :
    ∃ x w', run (graphAffinity queryIds candidateIds hopLimit) w = (.ok (affinityOf x), w') ∧
      Allowed x ∧ Least (HopListed w.db queryIds candidateIds (clampHops hopLimit)) x := by
  have nothing : Least (fun _ => False) none := fun _ => id
  unfold graphAffinity
  split_ifs with nobody
  · refine ⟨none, w, rfl, .none, fun d listed => ?_⟩
    obtain ⟨q, inQ, c, inC, -⟩ := listed
    simp [List.ne_nil_of_mem inQ, List.ne_nil_of_mem inC] at nobody
  · rw [clampHops_eq]
    have le : clampHops hopLimit ≤ 2 := Nat.min_le_right _ _
    obtain ⟨x, w', ran, allowed, least⟩ :=
      run_graphAffinityFrom_unshared (F := F) le unshared quiet .none nothing
    exact ⟨x, w', ran, allowed, (Least.congr fun d => by rw [false_or]).mp least⟩

/-- The value of the least listed number of hops is the affinity when nothing is connected, or a
nearest candidate is listed. -/
theorem isAffinity_affinityOf_iff {db : Db F} {queryIds candidateIds : List String} {hopLimit : Nat}
    (unshared : ∀ q ∈ queryIds, q ∉ candidateIds) {x : Option Nat} (allowed : Allowed x)
    (listed : Least (HopListed db queryIds candidateIds (clampHops hopLimit)) x) :
    IsAffinity db queryIds candidateIds hopLimit (affinityOf x) ↔
      (∀ d, ¬ Connected db queryIds candidateIds (clampHops hopLimit) d) ∨
      ∃ d, Least (Connected db queryIds candidateIds (clampHops hopLimit)) (some d) ∧
        ∃ q ∈ queryIds, ∃ c ∈ candidateIds,
          Path db.Related d q c ∧ (db.before q c d).ncard < Db.N_HOP_RESULT_LIMIT := by
  obtain ⟨y, connected⟩ := exists_least (Connected db queryIds candidateIds (clampHops hopLimit))
  have allowed' := allowed_of_least (Nat.min_le_right _ _) unshared connected
  have value : IsAffinity db queryIds candidateIds hopLimit (affinityOf x) ↔ x = y := by
    unfold IsAffinity
    rw [if_neg fun ⟨q, inQ, inC⟩ => unshared q inQ inC]
    constructor
    · rintro ⟨x', least, same⟩
      cases least.unique connected
      exact affinityOf_injective allowed allowed' same
    · rintro rfl
      exact ⟨x, connected, rfl⟩
  rw [value]
  constructor
  · rintro rfl
    cases x with
    | none => exact .inl connected
    | some d => exact .inr ⟨d, connected, (listed_least_iff unshared connected).mp listed.1⟩
  · rintro (none | ⟨d, least, few⟩)
    · cases connected.unique (show Least _ .none from none)
      exact listed.unique fun d mem => none d mem.connected
    · cases connected.unique least
      refine listed.unique (y := some d) ⟨(listed_least_iff unshared least).mpr few, ?_⟩
      exact fun d' mem => least.2 d' mem.connected

/-- On storage that does not fail, the affinity is the one of the definition exactly when an id
is shared, no candidate is within the hops, or a nearest candidate is within what the query of
its entity lists: fewer than `N_HOP_RESULT_LIMIT` entities are before it. -/
theorem graphAffinity_exact_iff (queryIds candidateIds : List String) (hopLimit : Nat) {w : World F}
    (quiet : w.env.NoFaults) :
    ∃ a w', run (graphAffinity queryIds candidateIds hopLimit) w = (.ok a, w') ∧
      (IsAffinity w.db queryIds candidateIds hopLimit a ↔
        (∃ q ∈ queryIds, q ∈ candidateIds) ∨
        (∀ d, ¬ Connected w.db queryIds candidateIds (clampHops hopLimit) d) ∨
        ∃ d, Least (Connected w.db queryIds candidateIds (clampHops hopLimit)) (some d) ∧
          ∃ q ∈ queryIds, ∃ c ∈ candidateIds,
            Path w.db.Related d q c ∧ (w.db.before q c d).ncard < Db.N_HOP_RESULT_LIMIT) := by
  by_cases shared : ∃ q ∈ queryIds, q ∈ candidateIds
  · obtain ⟨w', ran⟩ := run_graphAffinity_shared hopLimit quiet shared
    have one : IsAffinity w.db queryIds candidateIds hopLimit (FloatArith.ofNat 1 : F) := by
      unfold IsAffinity
      rw [if_pos shared]
    exact ⟨_, w', ran, iff_of_true one (.inl shared)⟩
  · have unshared : ∀ q ∈ queryIds, q ∉ candidateIds := fun q inQ inC => shared ⟨q, inQ, inC⟩
    obtain ⟨x, w', ran, allowed, listed⟩ := run_graphAffinity_unshared hopLimit quiet unshared
    refine ⟨_, w', ran, (isAffinity_affinityOf_iff unshared allowed listed).trans ?_⟩
    exact (or_iff_right shared).symm

end Exact

/-! ### A candidate among many neighbours -/

/-- Every name is one relation from `q`. -/
def fan (names : List String) : Db Fixed := { Db.empty with relation := names.map fun n => ⟨"q", n⟩ }

theorem related_fan {names : List String} {a b : String} :
    (fan names).Related a b ↔ a = "q" ∧ b ∈ names := by
  unfold Db.Related fan
  constructor
  · rintro ⟨r, mem, rfl, rfl⟩
    obtain ⟨n, inside, rfl⟩ := List.mem_map.mp mem
    exact ⟨rfl, inside⟩
  · rintro ⟨rfl, mem⟩
    exact ⟨_, List.mem_map_of_mem mem, rfl, rfl⟩

theorem path_one_fan {names : List String} {b : String} :
    Path (fan names).Related 1 "q" b ↔ b ∈ names := by
  constructor
  · rintro ⟨m, rfl, related⟩
    exact (related_fan.mp related).2
  · exact fun mem => ⟨"q", rfl, related_fan.mpr ⟨rfl, mem⟩⟩

theorem least_fan {names : List String} (leads : "z" ∈ names) :
    Least (Connected (fan names) ["q"] ["z"] (clampHops 2)) (some 1) := by
  refine ⟨⟨by decide, "q", List.mem_cons_self, "z", List.mem_cons_self, path_one_fan.mpr leads⟩, ?_⟩
  rintro (_ | d) ⟨-, q, inQ, c, inC, path⟩
  · have same : q = c := path
    rw [List.mem_singleton.mp inQ, List.mem_singleton.mp inC] at same
    exact absurd same (by decide)
  · omega

/-- Before `z` are the names that sort before it. -/
theorem mem_before_fan {names : List String} (apart : "q" ∉ names) {m : String} :
    m ∈ (fan names).before "q" "z" 1 ↔ m ∈ names ∧ m < "z" := by
  constructor
  · rintro ⟨other, d, distance, closer | ⟨same, first⟩⟩
    · have none : d = 0 := by
        have := closer
        dsimp only at this
        omega
      subst none
      exact (other (distance_zero_iff.mp distance).symm).elim
    · dsimp only at same first
      subst same
      exact ⟨path_one_fan.mp distance.path, first⟩
  · rintro ⟨mem, first⟩
    have other : m ≠ "q" := fun same => apart (same ▸ mem)
    refine ⟨other, 1, ⟨path_one_fan.mpr mem, ?_⟩, .inr ⟨rfl, first⟩⟩
    rintro (_ | n) path
    · exact (other (Eq.symm path)).elim
    · omega

theorem graphAffinity_exact_fan : ∃ a w', run (graphAffinity ["q"] ["z"] 2)
    (World.fresh .quiet (fan ["z"]) (.empty 0)) = (.ok a, w') ∧ IsAffinity (fan ["z"]) ["q"] ["z"] 2 a := by
  obtain ⟨a, w', ran, exact_⟩ := graphAffinity_exact_iff ["q"] ["z"] 2
    (w := World.fresh .quiet (fan ["z"]) (.empty 0)) Env.quiet_noFaults
  refine ⟨a, w', ran, exact_.mpr (.inr (.inr ⟨1, least_fan List.mem_cons_self, "q",
    List.mem_cons_self, "z", List.mem_cons_self, path_one_fan.mpr List.mem_cons_self, ?_⟩))⟩
  have nobody : ((fan ["z"]).before "q" "z" 1).ncard = ([] : List String).length := by
    refine ncard_eq_length List.nodup_nil fun m => ?_
    rw [mem_before_fan (by decide)]
    refine iff_of_false ?_ List.not_mem_nil
    rintro ⟨mem, first⟩
    rw [List.mem_singleton.mp mem] at first
    exact String.lt_irrefl _ first
  rw [show ((World.fresh .quiet (fan ["z"]) (.empty 0)).db.before "q" "z" 1).ncard = 0 from nobody]
  decide

/-- The names `a`, `aa`, and so on. -/
def crowdName (i : Nat) : String := String.ofList (List.replicate (i + 1) 'a')

/-- As many names as the query lists, and the candidate after them. -/
def crowd : List String := (List.range Db.N_HOP_RESULT_LIMIT).map crowdName ++ ["z"]

theorem toList_crowdName (i : Nat) : (crowdName i).toList = 'a' :: List.replicate i 'a' := by
  unfold crowdName
  rw [String.toList_ofList, List.replicate_succ]

theorem crowdName_lt (i : Nat) : crowdName i < "z" := by
  change (crowdName i).toList < ['z']
  rw [toList_crowdName]
  exact List.cons_lt_cons_iff.mpr (.inl (by decide))

theorem crowdName_injective : Function.Injective crowdName := by
  intro i j same
  have lengths := congrArg String.length same
  unfold crowdName at lengths
  simpa using lengths

theorem q_notMem_crowd : "q" ∉ crowd := by
  intro mem
  rcases List.mem_append.mp mem with inside | last
  · obtain ⟨i, -, same⟩ := List.mem_map.mp inside
    have letters := congrArg String.toList same
    rw [toList_crowdName] at letters
    exact absurd (List.cons.inj letters).1 (by decide)
  · exact absurd (List.mem_singleton.mp last) (by decide)

theorem ncard_before_crowd : ((fan crowd).before "q" "z" 1).ncard = Db.N_HOP_RESULT_LIMIT := by
  have nodup : ((List.range Db.N_HOP_RESULT_LIMIT).map crowdName).Nodup :=
    List.nodup_range.map crowdName_injective
  rw [ncard_eq_length nodup, List.length_map, List.length_range]
  intro m
  rw [mem_before_fan q_notMem_crowd]
  constructor
  · rintro ⟨mem, first⟩
    rcases List.mem_append.mp mem with inside | last
    · exact inside
    · rw [List.mem_singleton.mp last] at first
      exact (String.lt_irrefl _ first).elim
  · intro inside
    refine ⟨List.mem_append_left _ inside, ?_⟩
    obtain ⟨i, -, rfl⟩ := List.mem_map.mp inside
    exact crowdName_lt i

/-- A candidate one relation away is cut off, and its affinity is lost. -/
theorem crowded_candidate_lost : ¬ ∀ (w : World Fixed), w.env.NoFaults →
    ∀ (queryIds candidateIds : List String) (hopLimit : Nat) (a : Fixed) (w' : World Fixed),
      run (graphAffinity queryIds candidateIds hopLimit) w = (.ok a, w') →
        IsAffinity w.db queryIds candidateIds hopLimit a := by
  intro always
  have unshared : ∀ q ∈ ["q"], q ∉ ["z"] := by decide
  have quiet : (World.fresh .quiet (fan crowd) (.empty 0)).env.NoFaults := Env.quiet_noFaults
  have leads : "z" ∈ crowd := List.mem_append_right _ List.mem_cons_self
  obtain ⟨x, w', ran, allowed, listed⟩ := run_graphAffinity_unshared 2 quiet unshared
  have exact_ := always _ quiet ["q"] ["z"] 2 _ w' ran
  rcases (isAffinity_affinityOf_iff unshared allowed listed).mp exact_ with
    none | ⟨d, least, q, inQ, c, inC, -, few⟩
  · exact none 1 (least_fan leads).1
  · cases least.unique (least_fan leads)
    rw [List.mem_singleton.mp inQ, List.mem_singleton.mp inC] at few
    exact absurd few (ncard_before_crowd.ge.not_gt)

end FusionMemory
