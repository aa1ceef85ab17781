import Ulpf.Lib.Json

/-!
Contracts of records that carry numbers: the keywords of JSON Schema for strings, numbers and
booleans with their tests, arrays with a least length, and objects with required and declared
properties.
-/

namespace Ulpf.Lib

universe u

/-- The keywords of JSON Schema that the contracts use. -/
inductive Contract (ν : Type u) where
  | any
  /-- `type: string` with the tests of its `const`, `enum`, `pattern`, `format` and `minLength`. -/
  | string (accepts : String → Bool)
  /-- `type: number` or `type: integer` with the tests of its bounds. -/
  | number (accepts : ν → Bool)
  | boolean
  | array (minItems : ℕ) (items : Contract ν)
  /-- `type: object`; `additional` says whether there may be properties that are not declared. -/
  | object (required : List String) (properties : List (String × Contract ν)) (additional : Bool)

namespace Contract

variable {ν : Type u}

mutual

/-- A document satisfies a contract. -/
def valid : Contract ν → Json ν → Bool
  | any, _ => true
  | string accepts, .str s => accepts s
  | number accepts, .num n => accepts n
  | boolean, .bool _ => true
  | array minItems items, .arr xs => minItems ≤ xs.length && xs.all fun x => valid items x
  | object required properties additional, .obj members =>
      (required.all fun k => (lookup k members).isSome) &&
        members.all fun m => validMember additional properties m.1 m.2
  | _, _ => false

/-- A member satisfies the declaration of its name, when there is one. -/
def validMember (additional : Bool) : List (String × Contract ν) → String → Json ν → Bool
  | [], _, _ => additional
  | (k, contract) :: rest, name, x =>
      if k = name then valid contract x else validMember additional rest name x

end

/-- `type: string` with an `enum`. -/
def oneOf (values : List String) : Contract ν := string values.contains

/-- `type: string` with a `minLength` of one. -/
def nonempty : Contract ν := string fun s => s ≠ ""

def text : Contract ν := string fun _ => true

/-- Every item of an array counts. -/
example : valid (array 1 text) (.arr [.str "a", .null] : Json ℕ) = false := by
  simp [valid, text]

@[simp] theorem validMember_nil (additional : Bool) (name : String) (x : Json ν) :
    validMember additional [] name x = additional := by
  rw [validMember]

@[simp] theorem validMember_cons (additional : Bool) (k : String) (contract : Contract ν)
    (rest : List (String × Contract ν)) (name : String) (x : Json ν) :
    validMember additional ((k, contract) :: rest) name x =
      if k = name then valid contract x else validMember additional rest name x := by
  rw [validMember]

@[simp] theorem valid_any (x : Json ν) : valid any x = true := by
  rw [valid]

@[simp] theorem valid_string (accepts : String → Bool) (s : String) :
    valid (string accepts) (.str s : Json ν) = accepts s := by
  rw [valid]

theorem valid_string_iff {accepts : String → Bool} {x : Json ν} :
    valid (string accepts) x = true ↔ ∃ s, x = .str s ∧ accepts s = true := by
  cases x <;> simp [valid]

@[simp] theorem valid_text (s : String) : valid text (.str s : Json ν) = true :=
  valid_string _ s

@[simp] theorem valid_oneOf_iff {values : List String} {s : String} :
    valid (oneOf values) (.str s : Json ν) = true ↔ s ∈ values := by
  rw [oneOf, valid_string, List.contains_iff_mem]

@[simp] theorem valid_nonempty_iff {s : String} :
    valid nonempty (.str s : Json ν) = true ↔ s ≠ "" := by
  rw [nonempty, valid_string, decide_eq_true_eq]

@[simp] theorem valid_number (accepts : ν → Bool) (n : ν) :
    valid (number accepts) (.num n) = accepts n := by
  rw [valid]

@[simp] theorem valid_boolean (b : Bool) : valid boolean (.bool b : Json ν) = true := by
  rw [valid]

@[simp] theorem valid_array_iff {minItems : ℕ} {items : Contract ν} {xs : List (Json ν)} :
    valid (array minItems items) (.arr xs) = true ↔
      minItems ≤ xs.length ∧ ∀ x ∈ xs, valid items x = true := by
  simp [valid]

@[simp] theorem valid_array_null {minItems : ℕ} {items : Contract ν} :
    valid (array minItems items) .null = false := by
  simp [valid]

@[simp] theorem valid_object_iff {required : List String} {properties : List (String × Contract ν)}
    {additional : Bool} {members : List (String × Json ν)} :
    valid (object required properties additional) (.obj members) = true ↔
      (∀ k ∈ required, k ∈ members.map Prod.fst) ∧
      ∀ m ∈ members, validMember additional properties m.1 m.2 = true := by
  simp only [valid, Bool.and_eq_true, List.all_eq_true, lookup_isSome_iff]

theorem valid_record_iff {required : List String} {properties : List (String × Contract ν)}
    {additional : Bool} {members : List (String × Json ν)}
    (h : ∀ k ∈ required, k ∈ members.map Prod.fst) :
    valid (object required properties additional) (.obj members) = true ↔
      ∀ m ∈ members, validMember additional properties m.1 m.2 = true := by
  rw [valid_object_iff, and_iff_right h]

end Contract

end Ulpf.Lib
