import FusionMemory.Lib.FloatArith

/-!
JSON values and their text as a parameter.

`Json` is the value tree that a serializer writes and a deserializer reads. A
float in it is finite by construction: serializers write `null` for the others.
`JsonText` stands for a JSON library: its printer, its parser, and the float a
printed float comes back as, which need not be the same float.

The decoders below read structs the way derived deserializers do: from an object
by field name, where unknown fields are skipped and a repeated field is an error,
or from an array by position.
-/

namespace Lib

abbrev FiniteFloat (F : Type) [FloatArith F] := {x : F // FloatArith.isFinite x = true}

inductive Json (F : Type) [FloatArith F] where
  | null
  | bool (b : Bool)
  | int (i : Int)
  | float (x : FiniteFloat F)
  | str (s : String)
  | arr (items : List (Json F))
  | obj (fields : List (String × Json F))

namespace Json

variable {F : Type} [FloatArith F]

/-! ### Changing floats -/

mutual

def mapFloat (f : FiniteFloat F → FiniteFloat F) : Json F → Json F
  | .null => .null
  | .bool b => .bool b
  | .int i => .int i
  | .float x => .float (f x)
  | .str s => .str s
  | .arr items => .arr (mapFloatList f items)
  | .obj fields => .obj (mapFloatFields f fields)

def mapFloatList (f : FiniteFloat F → FiniteFloat F) : List (Json F) → List (Json F)
  | [] => []
  | j :: rest => j.mapFloat f :: mapFloatList f rest

def mapFloatFields (f : FiniteFloat F → FiniteFloat F) :
    List (String × Json F) → List (String × Json F)
  | [] => []
  | (k, j) :: rest => (k, j.mapFloat f) :: mapFloatFields f rest

end

@[simp] theorem mapFloatList_eq (f : FiniteFloat F → FiniteFloat F) (items : List (Json F)) :
    mapFloatList f items = items.map (mapFloat f) := by
  induction items with
  | nil => rfl
  | cons j rest ih => simp [mapFloatList, ih]

@[simp] theorem mapFloatFields_eq (f : FiniteFloat F → FiniteFloat F)
    (fields : List (String × Json F)) :
    mapFloatFields f fields = fields.map fun p => (p.1, p.2.mapFloat f) := by
  induction fields with
  | nil => rfl
  | cons p rest ih => simp [mapFloatFields, ih]

/-! ### Writing scalars -/

def ofNat (n : Nat) : Json F := .int n

/-- A float, or `null` when it is not finite. -/
def ofFloat (x : F) : Json F := if h : FloatArith.isFinite x = true then .float ⟨x, h⟩ else .null

def ofOption (encode : α → Json F) : Option α → Json F
  | some a => encode a
  | none => .null

/-! ### Reading scalars -/

def asBool : Json F → Option Bool
  | .bool b => some b
  | _ => none

def asString : Json F → Option String
  | .str s => some s
  | _ => none

/-- An unsigned integer of the given number of bits. -/
def asUnsigned (bits : Nat) : Json F → Option Nat
  | .int i => if 0 ≤ i ∧ i < 2 ^ bits then some i.toNat else none
  | _ => none

def asFloat : Json F → Option F
  | .float x => some x.1
  | .int i =>
      some (if i < 0 then FloatArith.neg (FloatArith.ofNat i.natAbs) else FloatArith.ofNat i.natAbs)
  | _ => none

def asOption (decode : Json F → Option α) : Json F → Option (Option α)
  | .null => some none
  | j => (decode j).map some

def asList (decode : Json F → Option α) : Json F → Option (List α)
  | .arr items => items.mapM decode
  | _ => none

/-- The name of a unit variant. -/
def asVariant : Json F → Option String
  | .str s => some s
  | .obj [(name, .null)] => some name
  | _ => none

/-! ### Reading structs -/

/-- The value of a struct's field: `some none` when it is absent, `none` when the
value is no encoding of a struct with `arity` fields. -/
def field (arity index : Nat) (name : String) : Json F → Option (Option (Json F))
  | .obj fields =>
      match fields.filter fun p => p.1 == name with
      | [] => some none
      | [p] => some (some p.2)
      | _ => none
  | .arr items => if items.length ≤ arity then some items[index]? else none
  | _ => none

/-- A field that must be present. -/
def required (arity index : Nat) (name : String) (decode : Json F → Option α) (j : Json F) :
    Option α :=
  (j.field arity index name).bind fun found => found.bind decode

/-- A field with a default. -/
def defaulted (arity index : Nat) (name : String) (fallback : α) (decode : Json F → Option α)
    (j : Json F) : Option α :=
  (j.field arity index name).bind fun found =>
    match found with
    | some value => decode value
    | none => some fallback

/-! ### Reading back -/

variable {α : Type}

theorem asUnsigned_ofNat {bits n : Nat} (fits : n < 2 ^ bits) :
    asUnsigned bits (ofNat n : Json F) = some n := by
  unfold asUnsigned ofNat
  dsimp only
  rw [if_pos ⟨Int.natCast_nonneg n, by exact_mod_cast fits⟩, Int.toNat_natCast]

theorem asList_map {decode : Json F → Option α} {encode : α → Json F} {items : List α}
    (back : ∀ a ∈ items, decode (encode a) = some a) :
    asList decode (.arr (items.map encode)) = some items := by
  unfold asList
  dsimp only
  induction items with
  | nil => rfl
  | cons a rest ih =>
      rw [List.map_cons, List.mapM_cons, back a List.mem_cons_self,
        ih fun b mem => back b (List.mem_cons_of_mem _ mem)]
      rfl

section Fields

variable {arity index : Nat} {name : String} {fields : List (String × Json F)} {value : Json F}

theorem field_of_mem (distinct : (fields.map Prod.fst).Nodup) (mem : (name, value) ∈ fields) :
    (obj fields).field arity index name = some (some value) := by
  have only : (fields.filter fun p => p.1 == name) = [(name, value)] := by
    induction fields with
    | nil => cases mem
    | cons p rest ih =>
        obtain ⟨other, distinct⟩ := List.nodup_cons.mp distinct
        rcases List.mem_cons.mp mem with rfl | later
        · rw [List.filter_cons_of_pos (by exact beq_self_eq_true name), List.filter_eq_nil_iff.mpr]
          intro q inside same
          exact other (List.mem_map.mpr ⟨q, inside, beq_iff_eq.mp same⟩)
        · rw [List.filter_cons_of_neg, ih distinct later]
          intro same
          exact other (List.mem_map.mpr ⟨_, later, (beq_iff_eq.mp same).symm⟩)
  unfold field
  simp only [only]

theorem field_of_notMem (missing : name ∉ fields.map Prod.fst) :
    (obj fields).field arity index name = some none := by
  have empty : (fields.filter fun p => p.1 == name) = [] := by
    rw [List.filter_eq_nil_iff]
    intro q inside same
    exact missing (List.mem_map.mpr ⟨q, inside, beq_iff_eq.mp same⟩)
  unfold field
  simp only [empty]

theorem required_of_mem (distinct : (fields.map Prod.fst).Nodup) (mem : (name, value) ∈ fields)
    (decode : Json F → Option α) : (obj fields).required arity index name decode = decode value := by
  unfold required
  rw [field_of_mem distinct mem]
  rfl

theorem required_of_notMem (missing : name ∉ fields.map Prod.fst) (decode : Json F → Option α) :
    (obj fields).required arity index name decode = none := by
  unfold required
  rw [field_of_notMem missing]
  rfl

theorem defaulted_of_mem (distinct : (fields.map Prod.fst).Nodup) (mem : (name, value) ∈ fields)
    (fallback : α) (decode : Json F → Option α) :
    (obj fields).defaulted arity index name fallback decode = decode value := by
  unfold defaulted
  rw [field_of_mem distinct mem]
  rfl

theorem defaulted_of_notMem (missing : name ∉ fields.map Prod.fst) (fallback : α)
    (decode : Json F → Option α) :
    (obj fields).defaulted arity index name fallback decode = some fallback := by
  unfold defaulted
  rw [field_of_notMem missing]
  rfl

end Fields

/-! ### Objects without some fields -/

def fields : Json F → List (String × Json F)
  | .obj fields => fields
  | _ => []

/-- An object without the fields of the given names. -/
def without (absent : List String) (j : Json F) : Json F :=
  .obj (j.fields.filter fun p => !absent.contains p.1)

end Json

/-- A JSON library over the floats `F`. What is printed parses to the same value,
with each float as the parser reads back its decimal text. -/
class JsonText (F : Type) [FloatArith F] where
  print : Json F → String
  parse : String → Option (Json F)
  reread : FiniteFloat F → FiniteFloat F
  parse_print : ∀ j, parse (print j) = some (j.mapFloat reread)

/-- A library that does not parse the text of an object that was cut off, or none. -/
class TruncatedText (F : Type) [FloatArith F] [JsonText F] : Prop where
  print_nonempty : ∀ fields : List (String × Json F), JsonText.print (.obj fields) ≠ ""
  parse_truncated : ∀ (fields : List (String × Json F)) {s t : String},
    s ++ t = JsonText.print (.obj fields) → t ≠ "" → JsonText.parse (F := F) s = none

end Lib
