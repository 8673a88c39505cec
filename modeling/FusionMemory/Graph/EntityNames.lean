import FusionMemory.Core.Memory
import FusionMemory.Lib.Words

/-!
Names of entities (`normalize_name` of `fm-graph/src/align.rs`, `fm-graph/src/alias_dict.rs`).

A name is compared with single blanks between its words, and often in lower case. The alias
dictionary trims only the ends; its keys have one word each, so it too depends on that form
alone (`canonical_congr`).
-/

namespace FusionMemory

open Lib

/-! ### The source -/

/-- `raw.split_whitespace().collect::<Vec<_>>().join(" ")` -/
def normalizeName (raw : String) : String := String.ofList (single isWhiteSpace ' ' raw.toList)

/-- The built-in aliases and their canonical names. -/
def RAW : List (String × String) :=
  [("py", "Python"), ("python3", "Python"), ("pythonlang", "Python"), ("rust-lang", "Rust"),
    ("rustlang", "Rust"), ("rs", "Rust"), ("ts", "TypeScript"), ("js", "JavaScript"),
    ("golang", "Go"), ("c++", "C++"), ("cpp", "C++"), ("csharp", "C#"), ("c#", "C#"),
    ("k8s", "Kubernetes"), ("kubernetes", "Kubernetes"), ("postgres", "PostgreSQL"),
    ("pgsql", "PostgreSQL"), ("sqlite3", "SQLite"), ("sqlite", "SQLite"),
    ("ml", "Machine Learning"), ("ml/mlx", "MLX"), ("llm", "LLM"), ("reactjs", "React"),
    ("vuejs", "Vue"), ("sveltekit", "Svelte")]

/-- The map from keys in lower case; no two are equal. -/
def dict : List (String × String) := RAW.map fun p => (p.1.toLower, p.2)

/-- The canonical name of an alias. -/
def canonical (raw : String) : Option String := dict.lookup (trim raw).toLower

/-- Equal up to ASCII case and runs of white space. -/
def SameName (a b : String) : Prop := (normalizeName a).toLower = (normalizeName b).toLower

/-! ### Lower case -/

theorem toList_toLower (s : String) : s.toLower.toList = s.toList.map Char.toLower :=
  String.toList_map

/-- Letters are not white space, in either case. -/
theorem isWhiteSpace_toLower (c : Char) : isWhiteSpace c.toLower = isWhiteSpace c := by
  unfold Char.toLower
  split
  case isTrue upper =>
    have lower : 65 ≤ c.toNat := upper.1
    have higher : c.toNat ≤ 90 := upper.2
    have shifted : (c.val + ('a'.val - 'A'.val)).toNat = c.toNat + 32 := by
      change (c.toNat + 32) % 2 ^ 32 = _
      omega
    unfold isWhiteSpace
    change List.contains _ (c.val + ('a'.val - 'A'.val)).toNat = _
    rw [shifted, Bool.eq_iff_iff, List.contains_iff_mem, List.contains_iff_mem]
    simp only [List.mem_cons, List.not_mem_nil, or_false]
    omega
  case isFalse => rfl

/-- White space has no case: a character that a white space character equals up to case is that
character. -/
theorem eq_of_toLower_eq {c d : Char} (same : c.toLower = d.toLower)
    (blank : isWhiteSpace c = true ∨ isWhiteSpace d = true) : c = d := by
  have fixed : ∀ {x : Char}, isWhiteSpace x = true → x.toLower = x := by
    intro x white
    unfold Char.toLower
    split
    case isTrue upper =>
      have lower : 65 ≤ x.toNat := upper.1
      have higher : x.toNat ≤ 90 := upper.2
      unfold isWhiteSpace at white
      rw [List.contains_iff_mem] at white
      simp only [List.mem_cons, List.not_mem_nil, or_false] at white
      omega
    case isFalse => rfl
  have both : isWhiteSpace c = isWhiteSpace d := by
    rw [← isWhiteSpace_toLower c, same, isWhiteSpace_toLower]
  have white : isWhiteSpace c = true ∧ isWhiteSpace d = true := by
    rcases blank with white | white
    · exact ⟨white, both ▸ white⟩
    · exact ⟨both ▸ white, white⟩
  rw [← fixed white.1, same, fixed white.2]

/-! ### Normal names -/

@[simp] theorem toList_normalizeName (raw : String) :
    (normalizeName raw).toList = single isWhiteSpace ' ' raw.toList :=
  String.toList_ofList

theorem toLower_normalizeName (raw : String) :
    (normalizeName raw).toLower = normalizeName raw.toLower := by
  refine String.toList_inj.mp ?_
  rw [toList_toLower, toList_normalizeName, toList_normalizeName, toList_toLower,
    map_single isWhiteSpace_toLower rfl]

theorem sameName_iff {a b : String} : SameName a b ↔
    (single isWhiteSpace ' ' a.toList).map Char.toLower =
      (single isWhiteSpace ' ' b.toList).map Char.toLower := by
  unfold SameName
  rw [← String.toList_inj, toList_toLower, toList_toLower, toList_normalizeName, toList_normalizeName]

instance (a b : String) : Decidable (SameName a b) := decidable_of_iff _ sameName_iff.symm

/-- A name that the normal form equals up to case is in normal form. -/
theorem toLower_eq_normalizeName_iff {raw : String} :
    raw.toLower = (normalizeName raw).toLower ↔ normalizeName raw = raw := by
  refine ⟨fun same => String.toList_inj.mp ?_, fun normal => by rw [normal]⟩
  have lowered := congrArg String.toList same
  rw [toList_toLower, toList_toLower, toList_normalizeName] at lowered
  rw [toList_normalizeName]
  refine eq_of_map_eq (fun c => !isWhiteSpace c) (fun c d equal white => ?_) lowered.symm
    (filter_single rfl _)
  exact eq_of_toLower_eq equal (by simpa using white)

/-! ### The dictionary -/

theorem lookup_congr {α β : Type} [BEq α] [LawfulBEq α] {x y : α} {l : List (α × β)}
    (same : ∀ p ∈ l, x = p.1 ↔ y = p.1) : l.lookup x = l.lookup y := by
  induction l with
  | nil => rfl
  | cons p l ih =>
      have head : (x == p.1) = (y == p.1) := by
        rw [Bool.eq_iff_iff, beq_iff_eq, beq_iff_eq]
        exact same p List.mem_cons_self
      rw [List.lookup_cons, List.lookup_cons, head, ih fun q mem => same q (List.mem_cons_of_mem _ mem)]

theorem mem_of_lookup {α β : Type} [BEq α] [LawfulBEq α] {x : α} {y : β} {l : List (α × β)}
    (found : l.lookup x = some y) : (x, y) ∈ l := by
  obtain ⟨before, after, rfl, -⟩ := List.lookup_eq_some_iff.mp found
  exact List.mem_append_right _ List.mem_cons_self

theorem isWord_of_mem_dict : ∀ p ∈ dict, IsWord isWhiteSpace p.1.toList := by
  have keys : ∀ p ∈ dict, p.1.toList ≠ [] ∧ p.1.toList.all (fun c => !isWhiteSpace c) = true := by
    decide +kernel
  intro p mem
  obtain ⟨nonempty, blankless⟩ := keys p mem
  exact ⟨nonempty, fun c inside => by simpa using List.all_eq_true.mp blankless c inside⟩

theorem toList_toLower_trim (raw : String) :
    (trim raw).toLower.toList = trimmed isWhiteSpace raw.toLower.toList := by
  unfold trim
  rw [toList_toLower, String.toList_ofList, toList_toLower]
  exact map_trimmed isWhiteSpace_toLower _

/-- The dictionary looks names up in their normal form. -/
theorem canonical_eq (raw : String) : canonical raw = dict.lookup (normalizeName raw).toLower := by
  refine lookup_congr fun p mem => ?_
  have word := isWord_of_mem_dict p mem
  rw [← String.toList_inj, ← String.toList_inj, toLower_normalizeName, toList_normalizeName,
    single_eq_iff_words rfl word, ← trimmed_eq_iff_words word]
  rw [toList_toLower_trim]

theorem canonical_congr {a b : String} (same : SameName a b) : canonical a = canonical b := by
  rw [canonical_eq, canonical_eq, same]

theorem normalizeName_of_mem_dict : ∀ p ∈ dict, normalizeName p.2 = p.2 := by
  have normal : dict.all (fun p => normalizeName p.2 == p.2) = true := by decide +kernel
  exact fun p mem => beq_iff_eq.mp (List.all_eq_true.mp normal p mem)

/-- A canonical name is in normal form. -/
theorem normalizeName_canonical {raw name : String} (known : canonical raw = some name) :
    normalizeName name = name := by
  have listed : ((trim raw).toLower, name) ∈ dict := mem_of_lookup known
  exact normalizeName_of_mem_dict ((trim raw).toLower, name) listed

end FusionMemory
