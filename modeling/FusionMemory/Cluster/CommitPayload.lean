import FusionMemory.Persist.Store
import FusionMemory.Core.Codec
import FusionMemory.Lib.DecimalJson

/-!
Commit payloads (`fm-cluster/src/replay.rs`, `fm-cluster/src/error.rs`).

A commit is logged as the JSON text of a `CommitEnvelope`; logs of older versions hold
plain items instead, and a reader tries the envelope first. `commit_payload_codec_iff`
says which of both are read back as what was written.
-/

namespace FusionMemory

open Lib

inductive ClusterError where
  | io (msg : String)
  | serde (msg : String)
  | persist (e : PersistError)
  | memory (e : MemoryError)
  | replay (msg : String)
  | transport (msg : String)
  | leaderDown (fails : Nat)
  | notLeader (role : String)
  | notFollower (role : String)
  | staleLeader (leaderEpoch expectedEpoch : Nat)
  | permanentReplay (msg : String)
  | authNotConfigured
  | bindRequiresToken (addr : String)
deriving DecidableEq, Repr

namespace ClusterError

def toString : ClusterError → String
  | .io m => "cluster io: " ++ m
  | .serde m => "cluster serde: " ++ m
  | .persist e => "cluster persist: " ++ e.toString
  | .memory e => "cluster memory: " ++ e.toString
  | .replay m => "cluster replay: " ++ m
  | .transport m => "cluster transport: " ++ m
  | .leaderDown n => s!"leader down: {n} consecutive heartbeat fails"
  | .notLeader role => "not a leader (role=" ++ role ++ ")"
  | .notFollower role => "not a follower (role=" ++ role ++ ")"
  | .staleLeader leaderEpoch expectedEpoch =>
      s!"stale leader epoch: leader={leaderEpoch} < expected={expectedEpoch}"
  | .permanentReplay m => "permanent replay failure: " ++ m
  | .authNotConfigured =>
      "cluster auth not configured: no token and FUSION_MEMORY_CLUSTER_ALLOW_NO_TOKEN unset"
  | .bindRequiresToken addr =>
      "cluster bind to non-loopback " ++ addr ++ " requires FUSION_MEMORY_CLUSTER_TOKEN"

/-- Trying again cannot help. -/
def isPermanent : ClusterError → Bool
  | .permanentReplay _ | .staleLeader _ _ | .authNotConfigured | .bindRequiresToken _ |
    .notLeader _ | .notFollower _ => true
  | _ => false

end ClusterError

/-! ### The codec -/

variable {F : Type} [FloatArith F] [JsonText F]

def encodeCommitPayload (item : MemoryItem F) (vector : Option (List F)) :
    Except ClusterError String :=
  .ok (JsonText.print (CommitEnvelope.mk item vector).toJson)

/-- An envelope, or a plain item, whose vector is still to be computed. The deserializer's
own wording is left out of the error. -/
def decodeCommitPayload (raw : String) : Except ClusterError (MemoryItem F × Option (List F)) :=
  match (JsonText.parse raw).bind CommitEnvelope.fromJson with
  | some env => .ok (env.item, env.vector)
  | none =>
      match (JsonText.parse raw).bind MemoryItem.fromJson with
      | some item => .ok (item, none)
      | none => .error (.replay "commit payload decode")

/-! ### Floats -/

/-- The float as it is read back from its text, which is `null` unless it is finite. -/
def reread (x : F) : Option F :=
  if finite : FloatArith.isFinite x = true then some (JsonText.reread ⟨x, finite⟩).1 else none

theorem asFloat_ofFloat (x : F) :
    ((Json.ofFloat x).mapFloat JsonText.reread).asFloat = reread x := by
  unfold Json.ofFloat reread
  split_ifs <;> rfl

/-- The text of the float gives it back. -/
def Survives (x : F) : Prop :=
  ∃ finite : FloatArith.isFinite x = true, (JsonText.reread ⟨x, finite⟩).1 = x

theorem reread_eq_some_iff {x : F} : reread x = some x ↔ Survives x := by
  unfold reread Survives
  split_ifs with finite
  · rw [Option.some_inj]
    exact ⟨fun same => ⟨finite, same⟩, fun ⟨_, same⟩ => same⟩
  · exact ⟨fun no => (by cases no), fun ⟨yes, _⟩ => absurd yes finite⟩

def rereadAll (v : List F) : Option (List F) := v.mapM reread

theorem rereadAll_eq_some_iff {v : List F} : rereadAll v = some v ↔ ∀ x ∈ v, Survives x := by
  unfold rereadAll
  induction v with
  | nil => simp
  | cons x rest ih =>
      rw [List.mapM_cons, List.forall_mem_cons, ← reread_eq_some_iff, ← ih]
      constructor
      · intro read
        cases first : reread x with
        | none => simp [first] at read
        | some y =>
            cases others : rest.mapM reread with
            | none => simp [first, others] at read
            | some ys =>
                simp only [first, others, Option.pure_def, Option.bind_eq_bind, Option.bind_some,
                  Option.some.injEq, List.cons.injEq] at read
                rw [read.1, read.2]
                exact ⟨rfl, rfl⟩
      · rintro ⟨first, others⟩
        rw [first, others]
        rfl

def rereadVector : Option (List F) → Option (Option (List F))
  | some v => (rereadAll v).map some
  | none => some none

theorem rereadVector_eq_some_iff {vector : Option (List F)} :
    rereadVector vector = some vector ↔ ∀ v ∈ vector, ∀ x ∈ v, Survives x := by
  cases vector with
  | none => simp [rereadVector]
  | some v =>
      simp only [rereadVector, Option.mem_some_iff, forall_eq', ← rereadAll_eq_some_iff,
        Option.map_eq_some_iff, Option.some_inj, exists_eq_right]

/-! ### Reading both formats -/

theorem asList_floats (v : List F) :
    Json.asList Json.asFloat ((Json.arr (v.map Json.ofFloat)).mapFloat JsonText.reread) =
      rereadAll v := by
  rw [Json.mapFloat, Json.mapFloatList_eq, List.map_map, Json.asList, rereadAll]
  induction v with
  | nil => rfl
  | cons x rest ih =>
      rw [List.map_cons, List.mapM_cons, List.mapM_cons, ih]
      have first : ((Json.mapFloat JsonText.reread ∘ Json.ofFloat) x).asFloat = reread x :=
        asFloat_ofFloat x
      rw [first]

variable {item : MemoryItem F} {vector : Option (List F)}

theorem asOption_vector :
    Json.asOption (Json.asList Json.asFloat)
        ((Json.ofOption (fun v => .arr (v.map .ofFloat)) vector).mapFloat JsonText.reread) =
      rereadVector vector := by
  cases vector with
  | none => rfl
  | some v =>
      rw [rereadVector, ← asList_floats]
      rfl

/-- An envelope is read back with every float as its text gives it, or not at all. -/
theorem CommitEnvelope.fromJson_toJson (sized : item.Sized) :
    fromJson ((CommitEnvelope.mk item vector).toJson.mapFloat JsonText.reread) =
      (reread item.weight).bind fun weight =>
        (rereadVector vector).map fun vector => ⟨{ item with weight }, vector⟩ := by
  simp only [fromJson, toJson, Json.mapFloat, Json.mapFloatFields_eq, List.map_cons, List.map_nil]
  rw [Json.required_of_mem (by simp) List.mem_cons_self,
    Json.defaulted_of_mem (by simp) (List.mem_cons_of_mem _ List.mem_cons_self),
    MemoryItem.fromJson_toJson sized, asFloat_ofFloat, asOption_vector]
  cases reread item.weight with
  | none => rfl
  | some weight => cases rereadVector vector <;> rfl

/-- Neither format is taken for the other. -/
theorem MemoryItem.fromJson_envelope :
    fromJson ((CommitEnvelope.mk item vector).toJson.mapFloat JsonText.reread) = none := by
  have missing : "id" ∉ (["item", "vector"] : List String) := by decide
  simp only [fromJson, CommitEnvelope.toJson, Json.mapFloat, Json.mapFloatFields_eq, List.map_cons,
    List.map_nil]
  rw [Json.required_of_notMem missing]
  rfl

theorem CommitEnvelope.fromJson_item (absent : List String) :
    fromJson ((item.toJson.without absent).mapFloat JsonText.reread) = none := by
  have missing : "item" ∉ (item.kept absent JsonText.reread).map Prod.fst := by
    rw [MemoryItem.kept_names]
    simp [MemoryItem.toJson, Json.fields]
  rw [MemoryItem.without_mapFloat, fromJson, Json.required_of_notMem missing]
  rfl

/-- What an item and a vector come back as, written and read. -/
theorem decode_encode (sized : item.Sized) :
    (encodeCommitPayload item vector).bind decodeCommitPayload = .ok (item, vector) ↔
      Survives item.weight ∧ ∀ v ∈ vector, ∀ x ∈ v, Survives x := by
  have decoded : (encodeCommitPayload item vector).bind decodeCommitPayload =
      match (reread item.weight).bind fun weight =>
        (rereadVector vector).map fun vector => ({ item with weight }, vector) with
      | some read => .ok read
      | none => .error (.replay "commit payload decode") := by
    rw [encodeCommitPayload, Except.bind, decodeCommitPayload, JsonText.parse_print,
      Option.bind_some, Option.bind_some, CommitEnvelope.fromJson_toJson sized,
      MemoryItem.fromJson_envelope]
    cases reread item.weight with
    | none => rfl
    | some weight =>
        cases rereadVector vector with
        | none => rfl
        | some read => rfl
  rw [decoded, ← reread_eq_some_iff, ← rereadVector_eq_some_iff]
  cases reread item.weight with
  | none => simp
  | some weight =>
      cases rereadVector vector with
      | none => simp
      | some read =>
          simp only [Option.bind_some, Option.map_some, Except.ok.injEq, Prod.mk.injEq,
            Option.some.injEq]
          refine and_congr_left fun _ => ⟨fun same => ?_, fun same => by rw [same]⟩
          exact congrArg MemoryItem.weight same

/-- Where a field is absent, the item has the empty text. -/
structure BlankAt (item : MemoryItem F) (absent : List String) : Prop where
  tenant : "tenant" ∈ absent → item.tenant = ""
  «namespace» : "namespace" ∈ absent → item.namespace = ""
  namespaceKey : "namespace_key" ∈ absent → item.namespaceKey = ""

/-- What a plain item comes back as. -/
theorem decode_plain {absent : List String} (sized : item.Sized)
    (older : absent ⊆ MemoryItem.laterFields) (blank : BlankAt item absent) :
    decodeCommitPayload (JsonText.print (item.toJson.without absent)) = .ok (item, none) ↔
      "tenant" ∉ absent ∧ Survives item.weight := by
  have ns : (if "namespace" ∈ absent then "" else item.namespace) = item.namespace :=
    ite_eq_right_iff.mpr fun gone => (blank.namespace gone).symm
  have key : (if "namespace_key" ∈ absent then "" else item.namespaceKey) = item.namespaceKey :=
    ite_eq_right_iff.mpr fun gone => (blank.namespaceKey gone).symm
  rw [decodeCommitPayload, JsonText.parse_print, Option.bind_some, Option.bind_some,
    CommitEnvelope.fromJson_item, MemoryItem.fromJson_without _ sized older, asFloat_ofFloat, ns, key,
    ← reread_eq_some_iff]
  by_cases missing : "tenant" ∈ absent
  · simp [missing]
  · rw [if_neg missing]
    cases reread item.weight with
    | none => simp
    | some weight =>
        simp only [Option.map_some, Except.ok.injEq, Prod.mk.injEq, and_true, Option.some.injEq]
        refine ⟨fun same => ⟨missing, congrArg MemoryItem.weight same⟩, fun same => ?_⟩
        rw [same.2]

/-- A commit payload is read back as what was written exactly when each float comes back
from its text; a payload of an older version, exactly when its weight does and it has a
tenant. -/
theorem commit_payload_codec_iff {absent : List String} (sized : item.Sized)
    (older : absent ⊆ MemoryItem.laterFields) (blank : BlankAt item absent) :
    ((encodeCommitPayload item vector).bind decodeCommitPayload = .ok (item, vector) ↔
        Survives item.weight ∧ ∀ v ∈ vector, ∀ x ∈ v, Survives x) ∧
      (decodeCommitPayload (JsonText.print (item.toJson.without absent)) = .ok (item, none) ↔
        "tenant" ∉ absent ∧ Survives item.weight) :=
  ⟨decode_encode sized, decode_plain sized older blank⟩

/-- An item of the default tenant. -/
def oldItem : MemoryItem Fixed :=
  { MemoryItem.newTurnSkeleton "01J" "i1" 0 "s1" "" .episodic "likes tea" 1000 with vectorRef := "7" }

theorem oldItem_sized : oldItem.Sized := ⟨by decide, by decide, by decide, by decide⟩

theorem oldItem_blankAt (absent : List String) : BlankAt oldItem absent :=
  ⟨fun _ => rfl, fun _ => rfl, fun _ => rfl⟩

/-- An item written before there were tenants is not read back. -/
theorem item_without_tenant_undecodable :
    ¬ ∀ (item : MemoryItem Fixed) (vector : Option (List Fixed)) (absent : List String),
      item.Sized → absent ⊆ MemoryItem.laterFields → BlankAt item absent →
        (encodeCommitPayload item vector).bind decodeCommitPayload = .ok (item, vector) ∧
          decodeCommitPayload (JsonText.print (item.toJson.without absent)) = .ok (item, none) := by
  intro always
  have older : MemoryItem.laterFields ⊆ MemoryItem.laterFields := List.Subset.refl _
  have blank := oldItem_blankAt MemoryItem.laterFields
  have decoded := (always oldItem none _ oldItem_sized older blank).2
  exact ((decode_plain oldItem_sized older blank).mp decoded).1 List.mem_cons_self

theorem commit_payload_codec_iff_old_item :
    ((encodeCommitPayload oldItem (some [⟨500000⟩])).bind decodeCommitPayload =
          .ok (oldItem, some [⟨500000⟩]) ↔
        Survives oldItem.weight ∧ ∀ v ∈ some [(⟨500000⟩ : Fixed)], ∀ x ∈ v, Survives x) ∧
      (decodeCommitPayload (JsonText.print (oldItem.toJson.without MemoryItem.laterFields)) =
          .ok (oldItem, none) ↔
        "tenant" ∉ MemoryItem.laterFields ∧ Survives oldItem.weight) :=
  commit_payload_codec_iff oldItem_sized (List.Subset.refl _) (oldItem_blankAt _)

end FusionMemory
