import FusionMemory.Lib.FixedWidth
import FusionMemory.Store.History

/-!
The vector store byte by byte (`fm-store/src/local.rs`).

A sled tree maps keys to values, both of them bytes, and is iterated in the order of its keys. A
vector lies under its id in network order, as its floats with their last byte first; a directory
may hold keys that are no ids. `LocalStore` is what is left when the bytes are read. Each function
is compared with that of `LocalStore`, on a store whose live vectors can all be read. Failing reads
and writes of the trees are not modelled here.
-/

namespace FusionMemory

open Lib

/-! ### Trees -/

abbrev SledTree := Table (List UInt8) (List UInt8 × List UInt8) Prod.fst

namespace SledTree

/-- The rows in the order of their keys. -/
def iter (t : SledTree) : List (List UInt8 × List UInt8) :=
  t.rows.insertionSort fun r r' => bytesLe r.1 r'.1

def containsKey (t : SledTree) (key : List UInt8) : Bool := (t.find? key).isSome

def get (t : SledTree) (key : List UInt8) : Option (List UInt8) := (t.find? key).map Prod.snd

def insert (t : SledTree) (key value : List UInt8) : SledTree := t.upsert (key, value)

def remove (t : SledTree) (key : List UInt8) : SledTree := t.delete fun r => r.1 == key

end SledTree

/-- `id.to_be_bytes()`. -/
def idKey (id : Nat) : List UInt8 := beBytes 8 id

def parseIdKey (key : List UInt8) : Option Nat :=
  if key.length ≠ 8 then none else some (fromBeBytes key)

section Values

variable {F : Type} [FloatBits F]

def serializeVec (vec : List F) : List UInt8 := leWords vec

def deserializeVec (bytes : List UInt8) : Except StoreError (List F) :=
  if bytes.length % 4 ≠ 0 then
    .error (.sled (s!"vec bytes len {bytes.length} not multiple of 4 " ++
      "(corrupt or legacy json format)"))
  else .ok (fromLeWords bytes)

end Values

structure SledStore (F : Type) where
  vecTree : SledTree
  tombTree : SledTree
  hnsw : List (Nat × List F)
  dim : Nat

namespace SledStore

/-! ### The functions -/

section Functions

variable {F : Type} (s : SledStore F)

def isTombstoned (id : Nat) : Bool := s.tombTree.containsKey (idKey id)

def tombstoneSet : List Nat := s.tombTree.iter.filterMap fun r => parseIdKey r.1

/-- The loop of `compact`. -/
def removeTombstoned : SledStore F :=
  { s with vecTree := s.tombstoneSet.foldl (fun t id => t.remove (idKey id)) s.vecTree }

def listVectorIds : List Nat :=
  s.vecTree.iter.filterMap fun r => match parseIdKey r.1 with
    | none => none
    | some id => if s.tombTree.containsKey r.1 then none else some id

def deleteVector (id : Nat) : SledStore F :=
  { s with tombTree := s.tombTree.insert (idKey id) [1] }

variable [FloatBits F]

/-- The loop of `rebuild_from_sled`. -/
def loadVectors : List (List UInt8 × List UInt8) → Except StoreError (List (Nat × List F))
  | [] => .ok []
  | r :: rest => match parseIdKey r.1 with
      | none => loadVectors rest
      | some id =>
          if s.isTombstoned id then loadVectors rest
          else do
            let vec ← deserializeVec r.2
            let loaded ← loadVectors rest
            return (id, vec) :: loaded

def rebuildFromSled : Except StoreError (Nat × SledStore F) := do
  let loaded ← s.loadVectors s.vecTree.iter
  return (loaded.length, { s with hnsw := loaded })

/-- The vectors go before the index is rebuilt. -/
def compact : Except StoreError Nat × SledStore F :=
  let removed := s.tombstoneSet.length
  match s.removeTombstoned.rebuildFromSled with
  | .ok (_, s) => (.ok removed, s)
  | .error e => (.error e, s.removeTombstoned)

def insertVector (id : Nat) (vec : List F) : Except StoreError Unit × SledStore F :=
  if vec.length ≠ s.dim then (.error (.dimension s.dim vec.length), s)
  else if s.vecTree.containsKey (idKey id) && !s.isTombstoned id then (.ok (), s)
  else
    let s := if s.isTombstoned id then { s with tombTree := s.tombTree.remove (idKey id) } else s
    (.ok (), { s with vecTree := s.vecTree.insert (idKey id) (serializeVec vec)
                      hnsw := s.hnsw ++ [(id, vec)] })

def getVector (id : Nat) : Except StoreError (Option (List F)) :=
  if s.isTombstoned id then .ok none
  else match s.vecTree.get (idKey id) with
    | none => .ok none
    | some bytes => (deserializeVec bytes).map some

variable [FloatArith F]

/-- The vectors that fill up a search that has found too few. -/
def candidates (query : List F) (seen tombs : List Nat) :
    List (List UInt8 × List UInt8) → Except StoreError (List (Nat × F))
  | [] => .ok []
  | r :: rest => match parseIdKey r.1 with
      | none => candidates query seen tombs rest
      | some id =>
          if seen.contains id || tombs.contains id then candidates query seen tombs rest
          else do
            let vec ← deserializeVec r.2
            let others ← candidates query seen tombs rest
            return (id, LocalStore.cosineSim query vec) :: others

def searchKnn (ann : AnnSearch F) (query : List F) (topK : Nat) :
    Except StoreError (List (Nat × F)) :=
  if query.length ≠ s.dim then .error (.dimension s.dim query.length)
  else
    let tombs := s.tombstoneSet
    let out := ((ann s.hnsw query topK).filter fun nb => !tombs.contains nb.1).map fun nb =>
      (nb.1, FloatArith.sub (FloatArith.ofNat 1) nb.2)
    if out.length < topK then do
      let more ← candidates query (out.map Prod.fst) tombs s.vecTree.iter
      return LocalStore.sortBySim (out ++ (LocalStore.sortBySim more).take (topK - out.length))
    else .ok out

end Functions

def «open» {F : Type} [FloatBits F] (vecTree tombTree : SledTree) (dim : Nat) :
    Except StoreError (SledStore F) :=
  if dim = 0 then .error (.dimension 1 0)
  else (rebuildFromSled ⟨vecTree, tombTree, [], dim⟩).map Prod.snd

end SledStore

/-! ### What the bytes say -/

theorem parseIdKey_eq_some {key : List UInt8} {id : Nat} :
    parseIdKey key = some id ↔ key = idKey id ∧ id < 256 ^ 8 := by
  unfold parseIdKey idKey
  constructor
  · intro parsed
    split_ifs at parsed with width
    cases parsed
    have eight : key.length = 8 := not_not.mp width
    refine ⟨?_, eight ▸ fromBeBytes_lt key⟩
    conv => lhs; rw [← beBytes_fromBeBytes key, eight]
  · rintro ⟨rfl, fits⟩
    rw [if_neg (not_not.mpr (length_beBytes 8 id)), fromBeBytes_beBytes fits]

theorem parseIdKey_idKey {id : Nat} (fits : id < 256 ^ 8) : parseIdKey (idKey id) = some id :=
  parseIdKey_eq_some.mpr ⟨rfl, fits⟩

theorem reads_parseIdKey : Table.Reads Prod.fst id fun r : List UInt8 × List UInt8 => parseIdKey r.1 := by
  intro r r' id id' parsed parsed'
  obtain ⟨key, fits⟩ := parseIdKey_eq_some.mp parsed
  obtain ⟨key', fits'⟩ := parseIdKey_eq_some.mp parsed'
  rw [key, key']
  refine ⟨fun same => congrArg idKey same, fun same => ?_⟩
  have digits := congrArg fromBeBytes same
  rwa [idKey, idKey, fromBeBytes_beBytes fits, fromBeBytes_beBytes fits'] at digits

section Decoded

variable {F : Type} [FloatBits F]

theorem deserializeVec_serializeVec (vec : List F) : deserializeVec (serializeVec vec) = .ok vec := by
  unfold deserializeVec serializeVec
  rw [length_leWords, fromLeWords_leWords, if_neg (not_not.mpr (Nat.mul_mod_right 4 vec.length))]

/-- One and minus two. -/
example : (deserializeVec [0, 0, 128, 63, 0, 0, 0, 192] : Except StoreError (List UInt32)) =
    .ok [0x3f800000, 0xc0000000] := rfl

/-- A row that holds a vector. -/
def decodeVec (r : List UInt8 × List UInt8) : Option (Nat × List F) :=
  (parseIdKey r.1).bind fun id => ((deserializeVec r.2).toOption).map fun vec => (id, vec)

theorem decodeVec_eq_some {r : List UInt8 × List UInt8} {p : Nat × List F} :
    decodeVec r = some p ↔ parseIdKey r.1 = some p.1 ∧ deserializeVec r.2 = .ok p.2 := by
  unfold decodeVec
  cases parseIdKey r.1 with
  | none => exact ⟨nofun, fun both => nomatch both.1⟩
  | some id =>
      cases (deserializeVec r.2 : Except StoreError (List F)) with
      | error e => exact ⟨nofun, fun both => nomatch both.2⟩
      | ok vec =>
          constructor
          · rintro ⟨⟩
            exact ⟨rfl, rfl⟩
          · rintro ⟨same, same'⟩
            cases same
            cases same'
            rfl

theorem reads_decodeVec : Table.Reads Prod.fst Prod.fst (decodeVec (F := F)) := fun r r' _ _ read read' =>
  reads_parseIdKey r r' _ _ (decodeVec_eq_some.mp read).1 (decodeVec_eq_some.mp read').1

def decodeVecs (t : SledTree) : Table Nat (Nat × List F) Prod.fst := t.readRows decodeVec reads_decodeVec

def decodeTombs (t : SledTree) : Table Nat Nat id :=
  t.readRows (fun r => parseIdKey r.1) reads_parseIdKey

/-- The store that the bytes stand for. -/
def SledStore.decoded (s : SledStore F) : LocalStore F :=
  ⟨decodeVecs s.vecTree, decodeTombs s.tombTree, s.hnsw, s.dim⟩

end Decoded

/-- Iterating over a tree meets what its rows read as in the order of the ids. -/
theorem filterMap_iter {β : Type} {t : SledTree} {f : List UInt8 × List UInt8 → Option (Nat × β)}
    (ids : ∀ r x, f r = some x → parseIdKey r.1 = some x.1) :
    t.iter.filterMap f = (t.rows.filterMap f).insertionSort fun x y => x.1 ≤ y.1 := by
  have reads : Table.Reads Prod.fst Prod.fst f := fun r r' x x' read read' =>
    reads_parseIdKey r r' _ _ (ids r x read) (ids r' x' read')
  have : Std.Total fun r r' : List UInt8 × List UInt8 => bytesLe r.1 r'.1 = true :=
    ⟨fun r r' => bytesLe_total r.1 r'.1⟩
  have : IsTrans (List UInt8 × List UInt8) fun r r' => bytesLe r.1 r'.1 = true :=
    ⟨fun _ _ _ first second => bytesLe_trans first second⟩
  have sorted : (t.iter.filterMap f).Pairwise fun x y => x.1 ≤ y.1 := by
    refine List.pairwise_filterMap.mpr ((List.pairwise_insertionSort _ t.rows).imp ?_)
    intro r r' le x read x' read'
    obtain ⟨key, fits⟩ := parseIdKey_eq_some.mp (ids r x read)
    obtain ⟨key', fits'⟩ := parseIdKey_eq_some.mp (ids r' x' read')
    rw [key, key', bytesLe_iff (by rw [idKey, idKey, length_beBytes, length_beBytes]), idKey, idKey,
      fromBeBytes_beBytes fits, fromBeBytes_beBytes fits'] at le
    exact le
  have perm : (t.iter.filterMap f).Perm (t.rows.filterMap f) :=
    (List.perm_insertionSort _ t.rows).filterMap f
  have perm' := List.perm_insertionSort (fun x y : Nat × β => x.1 ≤ y.1) (t.rows.filterMap f)
  have : Std.Total fun x y : Nat × β => x.1 ≤ y.1 := ⟨fun x y => Nat.le_total x.1 y.1⟩
  have : IsTrans (Nat × β) fun x y => x.1 ≤ y.1 := ⟨fun _ _ _ first second => first.trans second⟩
  refine List.Perm.eq_of_pairwise (fun x y mem mem' le le' => ?_) sorted
    (List.pairwise_insertionSort _ _) (perm.trans perm'.symm)
  exact (t.readRows f reads).eq_of_key_eq (perm.mem_iff.mp mem) (perm'.mem_iff.mp mem')
    (Nat.le_antisymm le le')

namespace SledStore

section Reading

variable {F : Type} [FloatBits F] {s : SledStore F}

theorem filterMap_iter_decodeVec (s : SledStore F) :
    s.vecTree.iter.filterMap decodeVec = s.decoded.vectors :=
  filterMap_iter fun _ _ read => (decodeVec_eq_some.mp read).1

theorem isTombstoned_decoded {id : Nat} (fits : id < 256 ^ 8) :
    s.decoded.isTombstoned id = s.isTombstoned id := by
  rw [Bool.eq_iff_iff]
  unfold LocalStore.isTombstoned isTombstoned SledTree.containsKey
  rw [Option.isSome_iff_exists, Option.isSome_iff_exists]
  constructor
  · rintro ⟨id', found⟩
    obtain ⟨r, mem, parsed, rfl⟩ := (Table.find?_readRows _ reads_parseIdKey).mp found
    obtain ⟨key, -⟩ := parseIdKey_eq_some.mp parsed
    exact ⟨r, Table.find?_eq_some_iff.mpr ⟨mem, key⟩⟩
  · rintro ⟨r, found⟩
    obtain ⟨mem, key⟩ := Table.find?_eq_some_iff.mp found
    have there : s.decoded.tombTree.find? id = some id :=
      (Table.find?_readRows _ reads_parseIdKey).mpr ⟨r, mem, key ▸ parseIdKey_idKey fits, rfl⟩
    exact ⟨id, there⟩

/-- The tombstones, as the search loads them. -/
theorem mem_tombstoneSet {id : Nat} : id ∈ s.tombstoneSet ↔ s.decoded.isTombstoned id = true := by
  rw [LocalStore.isTombstoned_iff]
  have perm : (s.tombTree.iter.filterMap fun r => parseIdKey r.1).Perm
      (s.tombTree.rows.filterMap fun r => parseIdKey r.1) :=
    (List.perm_insertionSort _ s.tombTree.rows).filterMap _
  exact perm.mem_iff

theorem contains_tombstoneSet (s : SledStore F) (id : Nat) :
    s.tombstoneSet.contains id = s.decoded.isTombstoned id := by
  rw [Bool.eq_iff_iff, List.contains_iff_mem, mem_tombstoneSet]

/-- A row that is no live vector, or whose bytes can be read. -/
def Readable (s : SledStore F) (r : List UInt8 × List UInt8) : Prop :=
  ∀ id, parseIdKey r.1 = some id → s.isTombstoned id = false → r.2.length % 4 = 0

/-- All live vectors can be read. -/
def Intact (s : SledStore F) : Prop := ∀ r ∈ s.vecTree.rows, s.Readable r

omit [FloatBits F] in
theorem Intact.iter (intact : s.Intact) : ∀ r ∈ s.vecTree.iter, s.Readable r :=
  fun r mem => intact r (List.mem_insertionSort _ |>.mp mem)

theorem Readable.decodeVec {r : List UInt8 × List UInt8} (readable : s.Readable r) {id : Nat}
    (parsed : parseIdKey r.1 = some id) (live : s.isTombstoned id = false) :
    (deserializeVec r.2 : Except StoreError (List F)) = .ok (fromLeWords r.2) :=
  if_neg (not_not.mpr (readable id parsed live))

/-! ### The functions on the bytes and on the vectors -/

/-- The loop of a rebuild stops at the first live vector that cannot be read. -/
def checkVectors (s : SledStore F) : List (List UInt8 × List UInt8) → Except StoreError Unit
  | [] => .ok ()
  | r :: rest => match parseIdKey r.1 with
      | none => s.checkVectors rest
      | some id =>
          if s.isTombstoned id then s.checkVectors rest
          else do
            let _ : List F ← deserializeVec r.2
            s.checkVectors rest

theorem loadVectors_eq (s : SledStore F) (rows : List (List UInt8 × List UInt8)) :
    s.loadVectors rows = (s.checkVectors rows).map fun _ =>
      (rows.filterMap decodeVec).filter fun p => !s.decoded.isTombstoned p.1 := by
  induction rows with
  | nil => rfl
  | cons r rest ih =>
      unfold loadVectors checkVectors
      cases parsed : parseIdKey r.1 with
      | none =>
          have skipped : decodeVec (F := F) r = none := by rw [decodeVec, parsed]; rfl
          rw [List.filterMap_cons_none skipped]
          exact ih
      | some id =>
          have fits := (parseIdKey_eq_some.mp parsed).2
          dsimp only
          split_ifs with dead
          · rw [ih]
            refine congrArg (Except.map · (s.checkVectors rest)) (funext fun _ => ?_)
            cases read : decodeVec (F := F) r with
            | none => rw [List.filterMap_cons_none read]
            | some p =>
                obtain ⟨same, -⟩ := decodeVec_eq_some.mp read
                obtain rfl := Option.some.inj (parsed.symm.trans same)
                rw [List.filterMap_cons_some read, List.filter_cons_of_neg]
                rw [isTombstoned_decoded fits, dead]
                exact Bool.false_ne_true
          · cases read : (deserializeVec r.2 : Except StoreError (List F)) with
            | error e => rfl
            | ok vec =>
                have decoded : decodeVec r = some (id, vec) := decodeVec_eq_some.mpr ⟨parsed, read⟩
                rw [List.filterMap_cons_some decoded, List.filter_cons_of_pos]
                · change (s.loadVectors rest >>= fun loaded => pure ((id, vec) :: loaded)) =
                    (s.checkVectors rest).map _
                  rw [ih]
                  cases s.checkVectors rest <;> rfl
                · rw [isTombstoned_decoded fits, Bool.eq_false_iff.mpr dead]
                  rfl

theorem checkVectors_eq_ok {rows : List (List UInt8 × List UInt8)} :
    s.checkVectors rows = .ok () ↔ ∀ r ∈ rows, s.Readable r := by
  induction rows with
  | nil => exact iff_of_true rfl fun _ mem => by cases mem
  | cons r rest ih =>
      rw [checkVectors, List.forall_mem_cons, ← ih]
      unfold Readable
      cases parsed : parseIdKey r.1 with
      | none => exact (and_iff_right fun id no => (by cases no)).symm
      | some id =>
          dsimp only
          split_ifs with dead
          · refine (and_iff_right fun id' same live => ?_).symm
            cases same
            rw [dead] at live
            cases live
          · unfold deserializeVec
            split_ifs with odd
            · refine iff_of_false nofun fun both => odd (both.1 id rfl (Bool.eq_false_iff.mpr dead))
            · refine (and_iff_right fun id' same _ => ?_).symm
              exact not_not.mp odd

theorem find?_decoded {id : Nat} (fits : id < 256 ^ 8) :
    s.decoded.vecTree.find? id = (s.vecTree.find? (idKey id)).bind decodeVec := by
  refine Option.ext fun p => ?_
  rw [Option.bind_eq_some_iff]
  refine (Table.find?_readRows _ reads_decodeVec).trans ⟨?_, ?_⟩
  · rintro ⟨r, mem, read, rfl⟩
    obtain ⟨key, -⟩ := parseIdKey_eq_some.mp (decodeVec_eq_some.mp read).1
    exact ⟨r, Table.find?_eq_some_iff.mpr ⟨mem, key⟩, read⟩
  · rintro ⟨r, found, read⟩
    obtain ⟨mem, key⟩ := Table.find?_eq_some_iff.mp found
    obtain ⟨parsed, -⟩ := decodeVec_eq_some.mp read
    rw [key, parseIdKey_idKey fits] at parsed
    exact ⟨r, mem, read, (Option.some.inj parsed).symm⟩

/-- The live row of an id reads as its vector. -/
theorem Intact.decodeVec_row (intact : s.Intact) {id : Nat} (fits : id < 256 ^ 8)
    (live : s.isTombstoned id = false) {r : List UInt8 × List UInt8}
    (found : s.vecTree.find? (idKey id) = some r) : decodeVec r = some (id, (fromLeWords r.2 : List F)) := by
  obtain ⟨mem, key⟩ := Table.find?_eq_some_iff.mp found
  have parsed : parseIdKey r.1 = some id := key ▸ parseIdKey_idKey fits
  exact decodeVec_eq_some.mpr ⟨parsed, (intact r mem).decodeVec parsed live⟩

theorem Intact.alreadyPresent (intact : s.Intact) {id : Nat} (fits : id < 256 ^ 8) :
    s.decoded.alreadyPresent id = (s.vecTree.containsKey (idKey id) && !s.isTombstoned id) := by
  unfold LocalStore.alreadyPresent SledTree.containsKey
  rw [isTombstoned_decoded fits, find?_decoded fits]
  cases live : s.isTombstoned id with
  | true => rw [Bool.not_true, Bool.and_false, Bool.and_false]
  | false =>
      cases found : s.vecTree.find? (idKey id) with
      | none => rfl
      | some r =>
          rw [Option.bind_some, intact.decodeVec_row fits live found]
          rfl

theorem Intact.getVector_eq (intact : s.Intact) {id : Nat} (fits : id < 256 ^ 8) :
    s.getVector id = .ok (s.decoded.getVector id) := by
  unfold getVector LocalStore.getVector SledTree.get
  rw [isTombstoned_decoded fits, find?_decoded fits]
  cases live : s.isTombstoned id with
  | true => rfl
  | false =>
      cases found : s.vecTree.find? (idKey id) with
      | none => rfl
      | some r =>
          have read := intact.decodeVec_row fits live found
          change (deserializeVec r.2).map some = .ok ((decodeVec r).map Prod.snd)
          rw [read, (decodeVec_eq_some.mp read).2]
          rfl

theorem deleteVector_decoded (s : SledStore F) {id : Nat} (fits : id < 256 ^ 8) :
    (s.deleteVector id).decoded = s.decoded.deleteVector id := by
  have tombs : decodeTombs (s.tombTree.insert (idKey id) [1]) = (decodeTombs s.tombTree).upsert id :=
    Table.readRows_upsert _ _ (parseIdKey_idKey fits)
  unfold deleteVector decoded LocalStore.deleteVector
  rw [tombs]

theorem decodeTombs_remove (t : SledTree) {id : Nat} (fits : id < 256 ^ 8) :
    decodeTombs (t.remove (idKey id)) = (decodeTombs t).delete fun t => t == id := by
  refine Table.readRows_delete _ _ fun r id' parsed => ?_
  obtain ⟨key, fits'⟩ := parseIdKey_eq_some.mp parsed
  rw [Bool.eq_iff_iff, beq_iff_eq, beq_iff_eq, key]
  refine ⟨fun same => ?_, fun same => congrArg idKey same⟩
  have parsed' := parseIdKey_idKey fits'
  rw [same, parseIdKey_idKey fits] at parsed'
  exact (Option.some.inj parsed').symm

theorem decodeVecs_insert (t : SledTree) {id : Nat} (fits : id < 256 ^ 8) (vec : List F) :
    decodeVecs (t.insert (idKey id) (serializeVec vec)) = (decodeVecs t).upsert (id, vec) :=
  Table.readRows_upsert _ _
    (decodeVec_eq_some.mpr ⟨parseIdKey_idKey fits, deserializeVec_serializeVec vec⟩)

/-- A tombstone that is not there need not be removed. -/
theorem tombTree_cleared (s : SledStore F) {id : Nat} (fits : id < 256 ^ 8) :
    decodeTombs (if s.isTombstoned id then s.tombTree.remove (idKey id) else s.tombTree) =
      (decodeTombs s.tombTree).delete fun t => t == id := by
  split_ifs with dead
  · exact decodeTombs_remove s.tombTree fits
  · have absent : ∀ t ∈ (decodeTombs s.tombTree).rows, (!(t == id)) = true := by
      intro t mem
      rw [Bool.not_eq_true', beq_eq_false_iff_ne]
      rintro rfl
      exact dead ((isTombstoned_decoded fits).symm.trans (LocalStore.isTombstoned_iff.mpr mem))
    exact Table.ext (List.filter_eq_self.mpr absent).symm

theorem Intact.insertVector_eq (intact : s.Intact) {id : Nat} (fits : id < 256 ^ 8) (vec : List F) :
    s.decoded.insertVector id vec = ((s.insertVector id vec).1, (s.insertVector id vec).2.decoded) := by
  unfold LocalStore.insertVector insertVector
  rw [intact.alreadyPresent fits]
  change (if vec.length ≠ s.dim then _ else if _ then _ else (Except.ok (),
    (⟨(decodeVecs s.vecTree).upsert (id, vec), (decodeTombs s.tombTree).delete fun t => t == id,
      s.hnsw ++ [(id, vec)], s.dim⟩ : LocalStore F))) = _
  rw [← decodeVecs_insert _ fits, ← tombTree_cleared s fits]
  split_ifs with unfit present dead
  · rfl
  · rfl
  · rfl
  · rfl

omit [FloatBits F] in
theorem isTombstoned_eq (s : SledStore F) {r : List UInt8 × List UInt8} {id : Nat}
    (parsed : parseIdKey r.1 = some id) : s.tombTree.containsKey r.1 = s.isTombstoned id := by
  rw [(parseIdKey_eq_some.mp parsed).1]
  rfl

theorem Intact.listVectorIds_eq (intact : s.Intact) :
    s.listVectorIds = s.decoded.listVectorIds := by
  unfold listVectorIds LocalStore.listVectorIds
  rw [← filterMap_iter_decodeVec, List.map_filterMap, List.filter_filterMap]
  refine List.filterMap_congr fun r mem => ?_
  cases parsed : parseIdKey r.1 with
  | none =>
      rw [decodeVec, parsed]
      rfl
  | some id =>
      have fits := (parseIdKey_eq_some.mp parsed).2
      change (if s.tombTree.containsKey r.1 then none else some id) = _
      rw [isTombstoned_eq s parsed]
      cases live : s.isTombstoned id with
      | true =>
          cases read : decodeVec (F := F) r with
          | none => rfl
          | some p =>
              obtain ⟨same, -⟩ := decodeVec_eq_some.mp read
              obtain rfl := Option.some.inj (parsed.symm.trans same)
              rw [Option.map_some, Option.filter_some, isTombstoned_decoded fits, live]
              rfl
      | false =>
          have read : decodeVec r = some (id, (fromLeWords r.2 : List F)) :=
            decodeVec_eq_some.mpr ⟨parsed, (intact.iter r mem).decodeVec parsed live⟩
          rw [read, Option.map_some, Option.filter_some, isTombstoned_decoded fits, live]
          rfl

/-- A rebuild loads the live vectors, if it can read them all. -/
theorem rebuildFromSled_eq (s : SledStore F) :
    s.rebuildFromSled = (s.checkVectors s.vecTree.iter).map fun _ =>
      (s.decoded.rebuildFromSled.hnsw.length, { s with hnsw := s.decoded.rebuildFromSled.hnsw }) := by
  unfold rebuildFromSled LocalStore.rebuildFromSled
  rw [loadVectors_eq, filterMap_iter_decodeVec]
  cases s.checkVectors s.vecTree.iter <;> rfl

theorem Intact.rebuildFromSled_eq (intact : s.Intact) :
    s.rebuildFromSled =
      .ok (s.decoded.rebuildFromSled.hnsw.length, { s with hnsw := s.decoded.rebuildFromSled.hnsw }) := by
  rw [SledStore.rebuildFromSled_eq, checkVectors_eq_ok.mpr intact.iter]
  rfl

theorem foldl_remove (ids : List Nat) (t : SledTree) :
    ids.foldl (fun t id => t.remove (idKey id)) t = t.delete fun r => ids.any fun id => r.1 == idKey id := by
  induction ids generalizing t with
  | nil => exact Table.ext (List.filter_eq_self.mpr fun _ _ => rfl).symm
  | cons id ids ih =>
      rw [List.foldl_cons, ih]
      apply Table.ext
      change (t.rows.filter _).filter _ = t.rows.filter _
      rw [List.filter_filter]
      refine List.filter_congr fun r _ => ?_
      dsimp only
      rw [List.any_cons, Bool.not_or, Bool.and_comm]

theorem removeTombstoned_decoded (s : SledStore F) : s.removeTombstoned.decoded =
    { s.decoded with vecTree := s.decoded.vecTree.delete fun p => s.decoded.isTombstoned p.1 } := by
  have vectors : decodeVecs (F := F) (s.tombstoneSet.foldl (fun t id => t.remove (idKey id)) s.vecTree) =
      (decodeVecs s.vecTree).delete fun p => s.decoded.isTombstoned p.1 := by
    rw [foldl_remove]
    refine Table.readRows_delete _ _ fun r p read => ?_
    obtain ⟨key, fits⟩ := parseIdKey_eq_some.mp (decodeVec_eq_some.mp read).1
    rw [Bool.eq_iff_iff, List.any_eq_true, ← mem_tombstoneSet]
    constructor
    · rintro ⟨id, mem, same⟩
      rw [beq_iff_eq, key] at same
      obtain ⟨r', -, parsed⟩ := List.mem_filterMap.mp mem
      have parsed' := parseIdKey_idKey (parseIdKey_eq_some.mp parsed).2
      rw [← same, parseIdKey_idKey fits] at parsed'
      rwa [Option.some.inj parsed']
    · exact fun mem => ⟨p.1, mem, beq_iff_eq.mpr key⟩
  unfold removeTombstoned decoded
  dsimp only
  rw [vectors]
  rfl

omit [FloatBits F] in
theorem Intact.removeTombstoned (intact : s.Intact) : s.removeTombstoned.Intact := by
  intro r mem
  unfold SledStore.removeTombstoned at mem
  rw [foldl_remove] at mem
  exact intact r (Table.mem_delete.mp mem).1

theorem Intact.compact_eq (intact : s.Intact) : s.compact =
    (.ok s.decoded.compact.1, { s.removeTombstoned with hnsw := s.decoded.compact.2.hnsw }) := by
  have perm : s.tombstoneSet.Perm (decodeTombs s.tombTree).rows :=
    (List.perm_insertionSort _ s.tombTree.rows).filterMap _
  unfold compact
  rw [intact.removeTombstoned.rebuildFromSled_eq, removeTombstoned_decoded, perm.length_eq]
  rfl

theorem candidates_eq [FloatArith F] (query : List F) (seen : List Nat)
    {rows : List (List UInt8 × List UInt8)} (readable : ∀ r ∈ rows, s.Readable r) :
    candidates query seen s.tombstoneSet rows =
      .ok (((rows.filterMap decodeVec).filter fun p =>
        !seen.contains p.1 && !s.decoded.isTombstoned p.1).map fun p =>
          (p.1, LocalStore.cosineSim query p.2)) := by
  induction rows with
  | nil => rfl
  | cons r rest ih =>
      obtain ⟨here, later⟩ := List.forall_mem_cons.mp readable
      unfold candidates
      cases parsed : parseIdKey r.1 with
      | none =>
          have skipped : decodeVec (F := F) r = none := by rw [decodeVec, parsed]; rfl
          rw [List.filterMap_cons_none skipped]
          exact ih later
      | some id =>
          have fits := (parseIdKey_eq_some.mp parsed).2
          dsimp only
          rw [contains_tombstoneSet, isTombstoned_decoded fits]
          split_ifs with skip
          · rw [ih later]
            cases read : decodeVec (F := F) r with
            | none => rw [List.filterMap_cons_none read]
            | some p =>
                obtain ⟨same, -⟩ := decodeVec_eq_some.mp read
                obtain rfl := Option.some.inj (parsed.symm.trans same)
                rw [List.filterMap_cons_some read, List.filter_cons_of_neg]
                rw [isTombstoned_decoded fits, ← Bool.not_or, skip]
                exact Bool.false_ne_true
          · obtain ⟨unseen, live⟩ := Bool.or_eq_false_iff.mp (Bool.eq_false_iff.mpr skip)
            have bytes := here.decodeVec (F := F) parsed live
            have read : decodeVec r = some (id, (fromLeWords r.2 : List F)) :=
              decodeVec_eq_some.mpr ⟨parsed, bytes⟩
            rw [bytes, ih later, List.filterMap_cons_some read, List.filter_cons_of_pos]
            · rfl
            · rw [isTombstoned_decoded fits, ← Bool.not_or, unseen, live]
              rfl

theorem Intact.searchKnn_eq [FloatArith F] (intact : s.Intact) (ann : AnnSearch F) (query : List F)
    (topK : Nat) : s.searchKnn ann query topK = s.decoded.searchKnn ann query topK := by
  have seen (out : List (Nat × F)) (id : Nat) :
      (out.map Prod.fst).contains id = out.any fun hit => hit.1 == id := by
    induction out with
    | nil => rfl
    | cons hit out ih => rw [List.map_cons, List.contains_cons, List.any_cons, ih, BEq.comm]
  unfold searchKnn LocalStore.searchKnn
  simp only [contains_tombstoneSet, candidates_eq query _ intact.iter, filterMap_iter_decodeVec, seen]
  rfl

end Reading

end SledStore

end FusionMemory
