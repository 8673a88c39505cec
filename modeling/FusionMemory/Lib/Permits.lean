import FusionMemory.Lib.Pool
import Mathlib.Logic.Hydra

/-!
Permits shared by the programs of a pool.

A resource has a number of permits: one for a lock, more for a semaphore. A request may take
a permit, and waits while there is none, or give one back. A `Disciplined` program takes a
permit only while it holds none, gives back what it holds, and holds none when it ends.

Whatever the interleaving, permits are neither lost nor made up (`Reaches.conserved`), so a
resource has no more holders than permits (`Reaches.holders_le`), and programs confined to one
lock run one after the other (`Reaches.serial`). While a program has not ended, some program
can move (`Reaches.progress`), and since no interleaving goes on for ever (`moves_wellFounded`),
each of them can be carried on until all programs have ended (`Reaches.completes`).
-/

namespace Lib

variable {S : Signature} {κ ε ε' α β σ : Type}

/-- What a request does to the permits. -/
inductive PermitUse (κ : Type) where
  | take (k : κ)
  | give (k : κ)
  | neither
deriving DecidableEq

section Held

variable [DecidableEq κ] (use : S.Request → PermitUse κ)

/-- The permits of `k` that a program holds after the events `h`, newest first. -/
def held (k : κ) : List (Event S) → Nat
  | [] => 0
  | e :: h => match use e.request with
    | .take k' => if k' = k then held k h + 1 else held k h
    | .give k' => if k' = k then held k h - 1 else held k h
    | .neither => held k h

/-- The program holds nothing. -/
def Free (h : List (Event S)) : Prop := ∀ k, held use k h = 0

/-- What a program may request after the events `h`. -/
def Disciplined (h : List (Event S)) (r : S.Request) : Prop :=
  match use r with
  | .take _ => Free use h
  | .give k => 0 < held use k h
  | .neither => True

/-- A request that a program confined to `k` may make after the events `h`: it begins by
taking a permit of `k`, and does everything else while it holds one. -/
def Within (k : κ) (h : List (Event S)) (r : S.Request) : Prop :=
  h = [] ∧ use r = .take k ∨ 0 < held use k h

/-- A machine that counts: of `capacity` permits, `free` are there in a state. -/
structure Machine.Counts (M : Machine S σ) (capacity : κ → Nat) (free : σ → κ → Nat) : Prop where
  ready : ∀ r s, (∀ k, use r = .take k → 0 < free s k) → M.ready r s = true
  waits : ∀ r s k, use r = .take k → M.ready r s = true → 0 < free s k
  take : ∀ r s k k', use r = .take k → 0 < free s k →
    free (M.exec r s).2 k' = if k = k' then free s k' - 1 else free s k'
  give : ∀ r s k k', use r = .give k → free s k < capacity k →
    free (M.exec r s).2 k' = if k = k' then free s k' + 1 else free s k'
  neither : ∀ r s k', use r = .neither → free (M.exec r s).2 k' = free s k'

variable {use} {h : List (Event S)} {e : Event S} {k : κ}

theorem free_nil : Free use ([] : List (Event S)) := fun _ => rfl

theorem held_cons_neither (plain : use e.request = .neither) (k' : κ) :
    held use k' (e :: h) = held use k' h := by
  simp only [held, plain]

theorem held_cons_take (takes : use e.request = .take k) (k' : κ) :
    held use k' (e :: h) = if k = k' then held use k' h + 1 else held use k' h := by
  simp only [held, takes]

theorem held_cons_give (gives : use e.request = .give k) (k' : κ) :
    held use k' (e :: h) = if k = k' then held use k' h - 1 else held use k' h := by
  simp only [held, gives]

end Held

/-! ### Disciplined programs -/

namespace Program

variable [DecidableEq κ] {use : S.Request → PermitUse κ}

variable (use) in
/-- A program that may be run while nothing is held, and leaves nothing held. -/
def Balanced (p : Program S ε α) : Prop :=
  ∀ h, Free use h → Obeys (Disciplined use) (fun h _ => Free use h) h p

/-- A program without permits keeps what is held. -/
theorem Only.keepsHeld {p : Program S ε α} (plain : Only (fun r => use r = .neither) p)
    {n : κ → Nat} {h : List (Event S)} (holds : ∀ k, held use k h = n k) :
    Obeys (Disciplined use) (fun h _ => ∀ k, held use k h = n k) h p := by
  induction p generalizing h with
  | done a => exact holds
  | fail e => exact holds
  | request r next ih =>
      refine ⟨?_, fun time reply => ih reply (plain.2 reply) fun k => ?_⟩
      · unfold Disciplined
        rw [plain.1]
        trivial
      · rw [held_cons_neither plain.1]
        exact holds k

namespace Balanced

theorem ofOnly {p : Program S ε α} (plain : Only (fun r => use r = .neither) p) :
    Balanced use p :=
  fun _ none => plain.keepsHeld none

theorem bind {p : Program S ε α} {k : α → Program S ε β} (first : Balanced use p)
    (rest : ∀ a, Balanced use (k a)) : Balanced use (p >>= k) := by
  intro h none
  refine Obeys.bind (R := fun h _ => Free use h) ((first h none).mono (fun _ _ allowed => allowed) ?_)
    fun h' a none' => rest a h' none'
  intro h' result none'
  cases result with
  | ok a => exact none'
  | error e => exact none'

/-- A permit is taken, and given back however the body ends. -/
theorem bracket {r r' : S.Request} {k : κ} (takes : use r = .take k) (gives : use r' = .give k)
    {body : Program S ε α} (plain : Only (fun r => use r = .neither) body)
    (post : Except ε α → Except ε' β) :
    Balanced use (Program.request r fun _ => (body.attempt : Program S ε' (Except ε α)) >>=
      fun result => Program.request r' fun _ => ofExcept (post result)) := by
  intro h none
  refine ⟨?_, fun time reply => ?_⟩
  · unfold Disciplined
    rw [takes]
    exact none
  have one : ∀ k', held use k' (⟨time, r, reply⟩ :: h) = if k = k' then 1 else 0 := by
    intro k'
    rw [held_cons_take takes, none k']
  refine Obeys.bind (R := fun h _ => ∀ k', held use k' h = if k = k' then 1 else 0) ?_ ?_
  · refine Obeys.attempt ?_ (plain.keepsHeld one)
    exact fun _ _ kept => kept
  · intro h' result kept
    refine ⟨?_, fun time' reply' => Obeys.ofExcept fun k' => ?_⟩
    · unfold Disciplined
      rw [gives]
      dsimp only
      rw [kept k, if_pos rfl]
      exact Nat.one_pos
    · rw [held_cons_give gives, kept k']
      split_ifs
      · rfl
      · rfl

end Balanced

variable (use) in
/-- A program that does nothing without a permit of `k`. -/
def Confined (k : κ) (p : Program S ε α) : Prop :=
  Obeys (Within use k) (fun _ _ => True) [] p

/-- A bracket does nothing without its permit. -/
theorem Confined.bracket {r r' : S.Request} {k : κ} (takes : use r = .take k)
    {body : Program S ε α} (plain : Only (fun r => use r = .neither) body)
    (post : Except ε α → Except ε' β) :
    Confined use k (Program.request r fun _ => (body.attempt : Program S ε' (Except ε α)) >>=
      fun result => Program.request r' fun _ => ofExcept (post result)) := by
  refine ⟨.inl ⟨rfl, takes⟩, fun time reply => ?_⟩
  have holds : 0 < held use k [(⟨time, r, reply⟩ : Event S)] := by
    rw [held_cons_take takes, if_pos rfl]
    exact Nat.succ_pos _
  have stays : ∀ (p : Program S ε α) (h : List (Event S)), Only (fun r => use r = .neither) p →
      0 < held use k h → Obeys (Within use k) (fun h _ => 0 < held use k h) h p := by
    intro p
    induction p with
    | done a => exact fun _ _ holds => holds
    | fail e => exact fun _ _ holds => holds
    | request r next ih =>
        intro h plain holds
        refine ⟨.inr holds, fun time reply => ih reply _ (plain.2 reply) ?_⟩
        rwa [held_cons_neither plain.1]
  refine Obeys.bind (R := fun h _ => 0 < held use k h) ?_ ?_
  · refine Obeys.attempt ?_ (stays body _ plain holds)
    exact fun _ _ kept => kept
  · exact fun h' result kept => ⟨.inr kept, fun time' reply' => Obeys.ofExcept trivial⟩

theorem Confined.discard {k : κ} {p : Program S ε α} (confined : Confined use k p) (b : β) :
    Confined use k (p >>= fun _ => .done b) := by
  refine Obeys.bind (R := fun _ _ => True) (confined.mono (fun _ _ within => within) ?_)
    fun _ _ _ => trivial
  intro _ result _
  cases result <;> trivial

/-! ### Programs end -/

/-- `q` is left of `p` after its next request. -/
def Resumes (q p : Program S ε α) : Prop := ∃ r next reply, p = .request r next ∧ q = next reply

theorem resumes_wellFounded : WellFounded (Resumes (S := S) (ε := ε) (α := α)) := by
  refine ⟨fun p => ?_⟩
  induction p with
  | done a => exact ⟨_, fun q ⟨_, _, _, same, _⟩ => by cases same⟩
  | fail e => exact ⟨_, fun q ⟨_, _, _, same, _⟩ => by cases same⟩
  | request r next ih =>
      refine ⟨_, fun q ⟨r', next', reply, same, resumed⟩ => ?_⟩
      cases same
      rw [resumed]
      exact ih reply

end Program

/-! ### Interleavings -/

namespace Pool

variable {M : Machine S σ}

/-- Some thread of the second pool moves, and the first pool is reached. -/
def Moves (M : Machine S σ) (pool' pool : Pool S ε α σ) : Prop := ∃ i, pool.step M i = some pool'

/-- The programs of a pool, in no order. -/
def programs (pool : Pool S ε α σ) : Multiset (Program S ε α) := ↑(pool.threads.map (·.program))

theorem programs_advance {pool : Pool S ε α σ} {i : Nat} {h : List (Event S)} {r : S.Request}
    {next : S.Reply r → Program S ε α} (found : pool.threads[i]? = some ⟨h, .request r next⟩) :
    (pool.advance M i h r next).programs + {Program.request r next} =
      pool.programs + {next (M.exec r pool.world).1} := by
  obtain ⟨inside, same⟩ := List.getElem?_eq_some_iff.mp found
  have before : pool.threads = pool.threads.take i ++ ⟨h, .request r next⟩ ::
      pool.threads.drop (i + 1) := by
    rw [← same, List.getElem_cons_drop, List.take_append_drop]
  unfold programs advance
  dsimp only
  rw [List.set_eq_take_append_cons_drop, if_pos inside]
  conv => rhs; rw [before]
  rw [← Multiset.coe_singleton, ← Multiset.coe_singleton, Multiset.coe_add, Multiset.coe_add,
    Multiset.coe_eq_coe]
  simp only [List.map_append, List.map_cons, List.append_assoc, List.cons_append]
  refine List.Perm.append_left _ ?_
  exact ((List.perm_append_singleton _ _).cons _).trans
    ((List.Perm.swap _ _ _).trans ((List.perm_append_singleton _ _).symm.cons _))

/-- No interleaving goes on for ever. -/
theorem moves_wellFounded : WellFounded (Moves (S := S) (ε := ε) (α := α) M) := by
  refine Subrelation.wf (r := InvImage (Relation.CutExpand Program.Resumes) programs) ?_
    (InvImage.wf _ (WellFounded.cutExpand Program.resumes_wellFounded))
  rintro pool' pool ⟨i, moved⟩
  obtain ⟨h, r, next, found, -, rfl⟩ := (step_eq_some_iff M).mp moved
  refine ⟨{next (M.exec r pool.world).1}, .request r next, fun q mem => ?_, programs_advance found⟩
  exact ⟨r, next, _, rfl, Multiset.mem_singleton.mp mem⟩

section Counted

variable [DecidableEq κ] {use : S.Request → PermitUse κ}

variable (use) in
/-- The permits of `k` that the threads hold together. -/
def heldBy (k : κ) : List (Thread S ε α) → Nat
  | [] => 0
  | thread :: rest => held use k thread.history + heldBy k rest

variable {k : κ} {threads : List (Thread S ε α)}

theorem heldBy_set {i : Nat} {old : Thread S ε α} (found : threads[i]? = some old)
    (new : Thread S ε α) : heldBy use k (threads.set i new) + held use k old.history =
      heldBy use k threads + held use k new.history := by
  induction threads generalizing i with
  | nil => cases found
  | cons thread rest ih =>
      cases i with
      | zero =>
          cases found
          simp only [List.set_cons_zero, heldBy]
          omega
      | succ i =>
          have later := ih (i := i) found
          simp only [List.set_cons_succ, heldBy]
          omega

theorem heldBy_free (none : ∀ thread ∈ threads, Free use thread.history) :
    heldBy use k threads = 0 := by
  induction threads with
  | nil => rfl
  | cons thread rest ih =>
      rw [List.forall_mem_cons] at none
      unfold heldBy
      rw [none.1 k, ih none.2]

theorem held_le_heldBy {i : Nat} {thread : Thread S ε α} (found : threads[i]? = some thread) :
    held use k thread.history ≤ heldBy use k threads := by
  have added : heldBy use k (threads.set i ⟨[], thread.program⟩) + held use k thread.history =
      heldBy use k threads + 0 := heldBy_set found _
  omega

/-- A resource of which permits are taken has a holder. -/
theorem exists_holder (taken : 0 < heldBy use k threads) :
    ∃ thread ∈ threads, 0 < held use k thread.history := by
  induction threads with
  | nil => exact absurd taken (Nat.lt_irrefl 0)
  | cons thread rest ih =>
      unfold heldBy at taken
      by_cases here : 0 < held use k thread.history
      · exact ⟨thread, List.mem_cons_self, here⟩
      · obtain ⟨thread', mem, holds⟩ := ih (by omega)
        exact ⟨thread', List.mem_cons_of_mem _ mem, holds⟩

theorem holders_le_heldBy :
    threads.countP (fun thread => decide (0 < held use k thread.history)) ≤ heldBy use k threads := by
  induction threads with
  | nil => exact Nat.le_refl 0
  | cons thread rest ih =>
      rw [List.countP_cons]
      unfold heldBy
      split_ifs with holds
      · have here := of_decide_eq_true holds
        omega
      · omega

variable {capacity : κ → Nat} {free : σ → κ → Nat} {C : Pool S ε α σ → Nat → Prop}
  {first pool : Pool S ε α σ}

/-- Every thread is disciplined. -/
def Orderly (use : S.Request → PermitUse κ) (pool : Pool S ε α σ) : Prop :=
  KeepsProtocol (fun _ => Disciplined use) (fun _ h _ => Free use h) pool

theorem Orderly.start {programs : List (Program S ε α)} (world : σ)
    (balanced : ∀ p ∈ programs, p.Balanced use) : Orderly use (start world programs) :=
  KeepsProtocol.start world fun _ p listed => balanced p (List.mem_of_getElem? listed) [] free_nil

/-- Threads that have not run hold nothing. -/
theorem conserved_start {world : σ} (all : ∀ k, free world k = capacity k)
    {programs : List (Program S ε α)} (k : κ) : free (start world programs).world k +
      heldBy use k (start world programs).threads = capacity k := by
  have none : heldBy use k (start world programs).threads = 0 := by
    refine heldBy_free fun thread mem => ?_
    obtain ⟨i, found⟩ := List.getElem?_of_mem mem
    rw [start_history found]
    exact free_nil
  rw [none]
  exact all k

/-- Permits are neither lost nor made up. -/
theorem Reaches.conserved (counts : M.Counts use capacity free) (orderly : Orderly use first)
    (init : ∀ k, free first.world k + heldBy use k first.threads = capacity k)
    (reach : Reaches M C first pool) (k : κ) :
    free pool.world k + heldBy use k pool.threads = capacity k := by
  refine Reaches.invariant
    (I := fun pool => ∀ k, free pool.world k + heldBy use k pool.threads = capacity k)
    orderly init ?_ reach k
  intro pool i h r next inv found allowed _ ready k'
  have total := inv k'
  have moved : heldBy use k' (pool.advance M i h r next).threads + held use k' h =
      heldBy use k' pool.threads + held use k' (⟨pool.time, r, (M.exec r pool.world).1⟩ :: h) :=
    heldBy_set found _
  change free (M.exec r pool.world).2 k' + heldBy use k' (pool.advance M i h r next).threads = _
  unfold Disciplined at allowed
  cases used : use r with
  | take k =>
      have there := counts.waits r pool.world k used ready
      rw [held_cons_take used] at moved
      rw [counts.take r pool.world k k' used there]
      split_ifs at moved ⊢ with same
      · subst same
        omega
      · omega
  | give k =>
      rw [used] at allowed
      have holds := Nat.lt_of_lt_of_le allowed (held_le_heldBy found)
      have room : free pool.world k < capacity k := by
        have here := inv k
        omega
      rw [held_cons_give used] at moved
      rw [counts.give r pool.world k k' used room]
      split_ifs at moved ⊢ with same
      · subst same
        dsimp only at allowed
        omega
      · omega
  | neither =>
      rw [held_cons_neither used] at moved
      rw [counts.neither r pool.world k' used]
      omega

/-- A resource has no more holders than permits. -/
theorem Reaches.holders_le (counts : M.Counts use capacity free) (orderly : Orderly use first)
    (init : ∀ k, free first.world k + heldBy use k first.threads = capacity k)
    (reach : Reaches M C first pool) (k : κ) :
    pool.threads.countP (fun thread => decide (0 < held use k thread.history)) ≤ capacity k := by
  have total := reach.conserved counts orderly init k
  have le : pool.threads.countP (fun thread => decide (0 < held use k thread.history)) ≤
      heldBy use k pool.threads := holders_le_heldBy
  omega

/-- Every event of one history is before every event of the other. -/
def Before (h h' : List (Event S)) : Prop := ∀ e ∈ h, ∀ e' ∈ h', e.time < e'.time

/-- Of two threads confined to one lock, one runs after the other. -/
structure Serial (use : S.Request → PermitUse κ) (k : κ) (pool : Pool S ε α σ) (i j : Nat) :
    Prop where
  apart : ∀ t t', pool.threads[i]? = some t → pool.threads[j]? = some t' →
    Before t.history t'.history ∨ Before t'.history t.history
  first : ∀ t t', pool.threads[i]? = some t → pool.threads[j]? = some t' →
    0 < held use k t.history → Before t'.history t.history
  second : ∀ t t', pool.threads[i]? = some t → pool.threads[j]? = some t' →
    0 < held use k t'.history → Before t.history t'.history

theorem Serial.symm {i j : Nat} (serial : Serial use k pool i j) : Serial use k pool j i where
  apart t t' found found' := (serial.apart t' t found' found).symm
  first t t' found found' := serial.second t' t found' found
  second t t' found found' := serial.first t' t found' found

section Step

variable {i j : Nat} {h : List (Event S)} {r : S.Request} {next : S.Reply r → Program S ε α}

/-- A step of the first thread, which takes the lock or holds it. -/
theorem Serial.advance_first (serial : Serial use k pool i j) (ne : i ≠ j)
    (past : ∀ e ∈ pool.events, e.time < pool.time)
    (found : pool.threads[i]? = some ⟨h, .request r next⟩) (within : Within use k h r)
    (alone : ∀ t, pool.threads[j]? = some t → held use k t.history = 0) :
    Serial use k (pool.advance M i h r next) i j := by
  have after : (pool.advance M i h r next).threads[i]? = some
      ⟨⟨pool.time, r, (M.exec r pool.world).1⟩ :: h, next (M.exec r pool.world).1⟩ :=
    advance_threads_self (List.getElem?_eq_some_iff.mp found).1
  have later : ∀ t, pool.threads[j]? = some t →
      Before t.history (⟨pool.time, r, (M.exec r pool.world).1⟩ :: h) := by
    intro t found' e mem e' mem'
    rcases List.mem_cons.mp mem' with rfl | old
    · exact past e (history_happened found' e mem)
    · rcases within with ⟨rfl, -⟩ | holds
      · cases old
      · exact serial.first _ _ found found' holds e mem e' old
  have same : ∀ t, (pool.advance M i h r next).threads[j]? = some t → pool.threads[j]? = some t := by
    intro t found'
    rwa [advance_threads_ne ne] at found'
  refine ⟨fun t t' ti tj => ?_, fun t t' ti tj _ => ?_, fun t t' ti tj holds => ?_⟩
  · obtain rfl := Option.some.inj (after.symm.trans ti)
    exact .inr (later t' (same t' tj))
  · obtain rfl := Option.some.inj (after.symm.trans ti)
    exact later t' (same t' tj)
  · rw [alone t' (same t' tj)] at holds
    exact absurd holds (Nat.lt_irrefl 0)

/-- A step of another thread. -/
theorem Serial.advance_other (serial : Serial use k pool i j) {l : Nat} (ni : l ≠ i) (nj : l ≠ j) :
    Serial use k (pool.advance M l h r next) i j := by
  have same : ∀ m t, l ≠ m → (pool.advance M l h r next).threads[m]? = some t →
      pool.threads[m]? = some t := by
    intro m t ne found
    rwa [advance_threads_ne ne] at found
  exact ⟨fun t t' ti tj => serial.apart t t' (same i t ni ti) (same j t' nj tj),
    fun t t' ti tj => serial.first t t' (same i t ni ti) (same j t' nj tj),
    fun t t' ti tj => serial.second t t' (same i t ni ti) (same j t' nj tj)⟩

end Step

/-- Two threads hold no more than all threads together. -/
theorem held_add_held_le {i j : Nat} (ne : i ≠ j) {t t' : Thread S ε α}
    (found : threads[i]? = some t) (found' : threads[j]? = some t') :
    held use k t.history + held use k t'.history ≤ heldBy use k threads := by
  have without : (threads.set i ⟨[], t.program⟩)[j]? = some t' := by
    rw [List.getElem?_set_ne ne]
    exact found'
  have added : heldBy use k (threads.set i ⟨[], t.program⟩) + held use k t.history =
      heldBy use k threads + 0 := heldBy_set found _
  have other : held use k t'.history ≤ heldBy use k (threads.set i ⟨[], t.program⟩) :=
    held_le_heldBy without
  omega

/-- Threads that are confined to one lock run one after the other. -/
theorem Reaches.serial (counts : M.Counts use capacity free) (one : capacity k = 1) {world : σ}
    {programs : List (Program S ε α)} (orderly : Orderly use (Pool.start world programs))
    (init : ∀ k, free world k = capacity k) {i j : Nat} (ne : i ≠ j) {p q : Program S ε α}
    (listed : programs[i]? = some p) (listed' : programs[j]? = some q)
    (confined : p.Confined use k) (confined' : q.Confined use k)
    (reach : Reaches M C (Pool.start world programs) pool) : Serial use k pool i j := by
  have keeps : KeepsProtocol (fun l h r => l = i ∨ l = j → Within use k h r) (fun _ _ _ => True)
      (Pool.start world programs) := by
    refine KeepsProtocol.start world fun l p' listed'' => ?_
    by_cases same : l = i
    · subst same
      cases listed.symm.trans listed''
      exact confined.mono (fun _ _ within _ => within) fun _ _ _ => trivial
    · by_cases same' : l = j
      · subst same'
        cases listed'.symm.trans listed''
        exact confined'.mono (fun _ _ within _ => within) fun _ _ _ => trivial
      · refine (Program.Obeys.unrestricted (I := fun _ => True) (fun _ _ _ => trivial)
          (fun _ _ _ => ?_) trivial p').mono (fun _ _ allowed => allowed) fun _ _ _ => trivial
        exact fun either => absurd either (not_or.mpr ⟨same, same'⟩)
  suffices both : Serial use k pool i j ∧ ∀ e ∈ pool.events, e.time < pool.time from both.1
  induction reach with
  | start =>
      refine ⟨⟨fun t t' ti tj => .inl ?_, fun t t' ti tj holds => ?_, fun t t' ti tj holds => ?_⟩, ?_⟩
      · rw [start_history ti]
        exact fun e mem => by cases mem
      · rw [start_history ti] at holds
        exact absurd holds (Nat.lt_irrefl 0)
      · rw [start_history tj] at holds
        exact absurd holds (Nat.lt_irrefl 0)
      · rw [events_start]
        exact fun e mem => by cases mem
  | @step before after l reach cond moved ih =>
      obtain ⟨serial, past⟩ := ih
      obtain ⟨h, r, next, found, ready, rfl⟩ := (step_eq_some_iff M).mp moved
      refine ⟨?_, past_advance past found⟩
      have total := reach.conserved counts orderly (conserved_start init) k
      have within := (reach.keepsProtocol keeps l _ found).1
      -- Nobody else holds the lock when a confined thread moves.
      have alone : ∀ m, l ≠ m → Within use k h r → ∀ t, before.threads[m]? = some t →
          held use k t.history = 0 := by
        intro m other inside t found'
        rcases inside with ⟨-, takes⟩ | holds
        · have there := counts.waits r before.world k takes ready
          have le : held use k t.history ≤ heldBy use k before.threads := held_le_heldBy found'
          omega
        · have le : held use k h + held use k t.history ≤ heldBy use k before.threads :=
            held_add_held_le other found found'
          omega
      by_cases same : l = i
      · subst same
        have inside := within (.inl rfl)
        exact serial.advance_first ne past found inside (alone j ne inside)
      · by_cases same' : l = j
        · subst same'
          have inside := within (.inr rfl)
          exact (serial.symm.advance_first ne.symm past found inside
            (alone i ne.symm inside)).symm
        · exact serial.advance_other same same'

/-- While a thread has not ended, some thread can move. -/
theorem Reaches.progress (counts : M.Counts use capacity free) (orderly : Orderly use first)
    (init : ∀ k, free first.world k + heldBy use k first.threads = capacity k)
    (able : ∀ r k, use r = .take k → 0 < capacity k) (reach : Reaches M C first pool)
    {thread : Thread S ε α} (mem : thread ∈ pool.threads) (running : thread.program.ended = false) :
    ∃ pool', Moves M pool' pool := by
  obtain ⟨i, found⟩ := List.getElem?_of_mem mem
  obtain ⟨h, program⟩ := thread
  cases program with
  | done a => cases running
  | fail e => cases running
  | request r next =>
      by_cases ready : M.ready r pool.world = true
      · exact ⟨_, i, (step_eq_some_iff M).mpr ⟨h, r, next, found, ready, rfl⟩⟩
      · -- It waits for a permit, so some thread holds one, and that thread need not wait.
        have waits : ∃ k, use r = .take k ∧ free pool.world k = 0 := by
          by_contra none
          refine ready (counts.ready r _ fun k takes => Nat.pos_of_ne_zero fun zero => ?_)
          exact none ⟨k, takes, zero⟩
        obtain ⟨k, takes, zero⟩ := waits
        have total := reach.conserved counts orderly init k
        have some := able r k takes
        have taken : 0 < heldBy use k pool.threads := by omega
        obtain ⟨⟨h', program'⟩, mem', holds⟩ := exists_holder taken
        obtain ⟨j, found'⟩ := List.getElem?_of_mem mem'
        have obeys := reach.keepsProtocol orderly j _ found'
        have holding : ¬ Free use h' := fun none => Nat.lt_irrefl 0 (none k ▸ holds)
        cases program' with
        | done a => exact absurd obeys holding
        | fail e => exact absurd obeys holding
        | request r' next' =>
            have plain : ∀ k', use r' ≠ .take k' := by
              intro k' takes'
              have allowed := obeys.1
              unfold Disciplined at allowed
              rw [takes'] at allowed
              exact holding allowed
            refine ⟨_, j, (step_eq_some_iff M).mpr ⟨h', r', next', found', ?_, rfl⟩⟩
            exact counts.ready r' _ fun k' takes' => absurd takes' (plain k')

/-- When all threads have ended, all permits are back. -/
theorem Reaches.returned (counts : M.Counts use capacity free) (orderly : Orderly use first)
    (init : ∀ k, free first.world k + heldBy use k first.threads = capacity k)
    (reach : Reaches M C first pool) (ended : ∀ thread ∈ pool.threads, thread.program.ended = true)
    (k : κ) : free pool.world k = capacity k := by
  have total := reach.conserved counts orderly init k
  rw [heldBy_free] at total
  · exact total
  intro thread mem
  obtain ⟨i, found⟩ := List.getElem?_of_mem mem
  have obeys := reach.keepsProtocol orderly i thread found
  have stopped := ended thread mem
  obtain ⟨h, program⟩ := thread
  cases program with
  | done a => exact obeys
  | fail e => exact obeys
  | request r next => cases stopped

/-- Every interleaving can be carried on until all threads have ended. -/
theorem Reaches.completes (counts : M.Counts use capacity free) (orderly : Orderly use first)
    (init : ∀ k, free first.world k + heldBy use k first.threads = capacity k)
    (able : ∀ r k, use r = .take k → 0 < capacity k)
    (reach : Reaches M (fun _ _ => True) first pool) :
    ∃ pool', Reaches M (fun _ _ => True) pool pool' ∧
      ∀ thread ∈ pool'.threads, thread.program.ended = true := by
  induction pool using moves_wellFounded (M := M).induction with
  | _ pool ih =>
      by_cases ended : ∀ thread ∈ pool.threads, thread.program.ended = true
      · exact ⟨pool, .start, ended⟩
      · push Not at ended
        obtain ⟨thread, mem, running⟩ := ended
        obtain ⟨pool', i, moved⟩ :=
          reach.progress counts orderly init able mem (Bool.eq_false_iff.mpr running)
        obtain ⟨last, further, all⟩ := ih pool' ⟨i, moved⟩ (reach.step trivial moved)
        exact ⟨last, (Reaches.start.step trivial moved).trans further, all⟩

end Counted

end Pool

end Lib
