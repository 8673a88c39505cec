import FusionMemory.Core.Memory

/-!
Decay, recycling, promotion and fused scores (`fm-similarity/src/decay.rs`,
`fm-engine/src/scoring.rs`, the pure part of `fm-graph/src/affinity.rs`).
-/

namespace FusionMemory

open Lib

variable {F : Type} [FloatArith F]

/-! ### Decay -/

def REINFORCE_CAP : F := FloatArith.literal 50 1

def reinforceFactor (accessCount : Nat) : F :=
  let one : F := FloatArith.ofNat 1
  let raw := FloatArith.add one (FloatArith.log2 (FloatArith.add (FloatArith.ofNat accessCount) one))
  FloatArith.min raw REINFORCE_CAP

/-- `W(t) = W0 * exp(-t / τ) * reinforce`, where `t` is the time since creation. -/
def weightAt (w0 : F) (createdTimestamp now : Nat) (memType : MemoryType) (accessCount : Nat) : F :=
  let dt : F := FloatArith.ofNat (now - createdTimestamp)
  let decay := FloatArith.exp (FloatArith.div (FloatArith.neg dt) memType.tauSeconds)
  FloatArith.mul (FloatArith.mul w0 decay) (reinforceFactor accessCount)

/-! ### Thresholds -/

def THETA_DROP : F := FloatArith.literal 5 2
def THETA_PROMOTE : F := FloatArith.literal 3 1
def EPISODIC_RECALL_PROMOTE : Nat := 2
def EPISODIC_RECALL_WINDOW_SECS : Nat := 7 * 86400

def weightOf (item : MemoryItem F) (now : Nat) : F :=
  weightAt item.weight item.createdTimestamp now item.memoryType item.accessCount

def shouldRecycle (item : MemoryItem F) (now : Nat) : Bool :=
  FloatArith.lt (weightOf item now) THETA_DROP

def shouldPromote (item : MemoryItem F) (now : Nat) : Bool :=
  match item.memoryType with
  | .semantic | .procedural => true
  | .episodic =>
      if FloatArith.lt THETA_PROMOTE (weightOf item now) then true
      else
        let windowStart := now - EPISODIC_RECALL_WINDOW_SECS
        decide (item.lastAccessedTimestamp ≥ windowStart) &&
          decide (item.accessCount ≥ EPISODIC_RECALL_PROMOTE)

/-! ### Fused scores -/

def ALPHA : F := FloatArith.literal 5 1
def BETA : F := FloatArith.literal 3 1
def GAMMA : F := FloatArith.literal 2 1
def GRAPH_HOP_LIMIT : Nat := 2

def fuseScore (cosine wT graphAff : F) : F :=
  FloatArith.add (FloatArith.add (FloatArith.mul ALPHA cosine) (FloatArith.mul BETA wT))
    (FloatArith.mul GAMMA graphAff)

/-- Freshness without the initial weight, capped at 1. -/
def freshnessOf (item : MemoryItem F) (now : Nat) : F :=
  FloatArith.min
    (weightAt (FloatArith.ofNat 1) item.createdTimestamp now item.memoryType item.accessCount)
    (FloatArith.ofNat 1)

def entityIds (entities : List EntityNode) : List String := entities.map (·.id)

/-- `0.5_f64.powi(hop)`. -/
def halfPow : Nat → F
  | 0 => FloatArith.ofNat 1
  | n + 1 => FloatArith.mul (halfPow n) (FloatArith.literal 5 1)

/-- 1 on a shared id, otherwise the best `0.5 ^ hop` of a reachable candidate. -/
def affinityFromReachability (queryIds candidateIds : List String)
    (reachable : List (String × Nat)) : F :=
  if queryIds.isEmpty || candidateIds.isEmpty then FloatArith.ofNat 0
  else if queryIds.any fun q => candidateIds.contains q then FloatArith.ofNat 1
  else reachable.foldl (fun best p =>
    if candidateIds.contains p.1 then
      let score := halfPow p.2
      if FloatArith.lt best score then score else best
    else best) (FloatArith.ofNat 0)

end FusionMemory
