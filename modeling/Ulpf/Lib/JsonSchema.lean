import Ulpf.Lib.Json
import Ulpf.Lib.Regex

/-!
The keywords of JSON Schema that closed record contracts use: constants,
patterns and enumerations of strings, arrays, and objects with required,
declared and additional properties.
-/

namespace Ulpf.Lib

universe u v

/-- The keywords of JSON Schema that a contract without numbers uses. -/
inductive Schema where
  /-- `const` of a string. -/
  | constString (s : String)
  /-- `const` of a boolean. -/
  | constBool (b : Bool)
  /-- `type: string` with the tests of its `pattern` and `enum`. -/
  | string (accepts : String → Bool)
  /-- `type: array` -/
  | array (items : Schema)
  /-- `type: object`; without a schema for additional properties there are none. -/
  | object (required : List String) (properties : List (String × Schema))
      (additional : Option Schema) (minProperties : ℕ)

namespace Schema

variable {ν : Type u} {μ : Type v}

/-- A `pattern` that is anchored at both ends. -/
def matchesPattern (pattern : Regex) (s : String) : Bool := Regex.fullMatch pattern s.toList

mutual

/-- A document satisfies a schema. -/
def valid : Schema → Json ν → Bool
  | constString s, .str t => s = t
  | constBool b, .bool c => b = c
  | string accepts, .str s => accepts s
  | array items, .arr xs => xs.all fun x => valid items x
  | object required properties additional minProperties, .obj members =>
      (required.all fun k => (lookup k members).isSome) && minProperties ≤ members.length &&
        members.all fun m =>
          (validNamed properties m.1 m.2).getD (validAdditional additional m.2)
  | _, _ => false

/-- The verdict of a declared property, when there is one of that name. -/
def validNamed : List (String × Schema) → String → Json ν → Option Bool
  | [], _, _ => none
  | (k, schema) :: rest, name, x =>
      if k = name then some (valid schema x) else validNamed rest name x

/-- The schema of the members that are not declared, if there may be any. -/
def validAdditional : Option Schema → Json ν → Bool
  | none, _ => false
  | some schema, x => valid schema x

end

/-- Without a schema for them there are no additional properties. -/
example : valid (object [] [("a", constBool true)] none 0) (.obj [("b", .bool true)] : Json ℕ) =
    false := by
  simp [valid, validNamed, validAdditional]

theorem validNamed_eq (properties : List (String × Schema)) (name : String) (x : Json ν) :
    validNamed properties name x = (lookup name properties).map fun schema => valid schema x := by
  induction properties with
  | nil => rfl
  | cons property rest ih =>
      rcases property with ⟨k, schema⟩
      rw [validNamed, lookup_cons, ih]
      split <;> rfl

theorem valid_constString_iff {s : String} {x : Json ν} :
    valid (constString s) x = true ↔ x = .str s := by
  cases x <;> simp [valid, eq_comm]

theorem valid_constBool_iff {b : Bool} {x : Json ν} :
    valid (constBool b) x = true ↔ x = .bool b := by
  cases x <;> simp [valid, eq_comm]

theorem valid_string_iff {accepts : String → Bool} {x : Json ν} :
    valid (string accepts) x = true ↔ ∃ s, x = .str s ∧ accepts s = true := by
  cases x <;> simp [valid]

theorem valid_array_iff {items : Schema} {x : Json ν} :
    valid (array items) x = true ↔ ∃ xs, x = .arr xs ∧ ∀ y ∈ xs, valid items y = true := by
  cases x <;> simp [valid]

theorem valid_closed_iff {required : List String} {properties : List (String × Schema)}
    {minProperties : ℕ} {x : Json ν} :
    valid (object required properties none minProperties) x = true ↔ ∃ members, x = .obj members ∧
      (∀ k ∈ required, (lookup k members).isSome) ∧ minProperties ≤ members.length ∧
      ∀ m ∈ members, ∃ schema, lookup m.1 properties = some schema ∧ valid schema m.2 = true := by
  cases x with
  | obj members =>
      simp only [valid, Bool.and_eq_true, List.all_eq_true, decide_eq_true_eq, validNamed_eq,
        validAdditional, and_assoc, Json.obj.injEq, exists_eq_left']
      refine and_congr_right fun _ => and_congr_right fun _ => forall₂_congr fun m _ => ?_
      cases lookup m.1 properties <;> simp
  | _ => simp [valid]

theorem valid_dictionary_iff {schema : Schema} {minProperties : ℕ} {x : Json ν} :
    valid (object [] [] (some schema) minProperties) x = true ↔ ∃ members, x = .obj members ∧
      minProperties ≤ members.length ∧ ∀ m ∈ members, valid schema m.2 = true := by
  cases x with
  | obj members => simp [valid, validNamed, validAdditional]
  | _ => simp [valid]

mutual

/-- How deep a schema is nested. -/
def depth : Schema → ℕ
  | array items => depth items + 1
  | object _ properties additional _ => max (depthNamed properties) (depthAdditional additional) + 1
  | _ => 0

def depthNamed : List (String × Schema) → ℕ
  | [] => 0
  | (_, schema) :: rest => max (depth schema) (depthNamed rest)

def depthAdditional : Option Schema → ℕ
  | none => 0
  | some schema => depth schema

end

theorem depth_le_depthNamed {properties : List (String × Schema)} {name : String}
    {schema : Schema} (h : lookup name properties = some schema) :
    schema.depth ≤ depthNamed properties := by
  induction properties with
  | nil => simp at h
  | cons property rest ih =>
      rcases property with ⟨k, schema'⟩
      rw [lookup_cons] at h
      rw [depthNamed]
      split at h
      · cases h
        exact le_max_left _ _
      · exact (ih h).trans (le_max_right _ _)

theorem valid_member {required : List String} {properties : List (String × Schema)}
    {additional : Option Schema} {minProperties : ℕ} {members : List (String × Json ν)}
    (h : valid (object required properties additional minProperties) (.obj members) = true)
    {m : String × Json ν} (hm : m ∈ members) : ∃ schema, valid schema m.2 = true ∧
      schema.depth ≤ max (depthNamed properties) (depthAdditional additional) := by
  simp only [valid, Bool.and_eq_true, List.all_eq_true, validNamed_eq] at h
  have hvalid := h.2 m hm
  cases hlookup : lookup m.1 properties with
  | some schema =>
      rw [hlookup] at hvalid
      exact ⟨schema, hvalid, (depth_le_depthNamed hlookup).trans (le_max_left _ _)⟩
  | none =>
      rw [hlookup] at hvalid
      cases additional with
      | none => simp [validAdditional] at hvalid
      | some schema => exact ⟨schema, hvalid, le_max_right _ _⟩

theorem numbers_of_valid {schema : Schema} {x : Json ν} (h : valid schema x = true) :
    x.numbers = [] := by
  induction x using Json.induct generalizing schema with
  | null => rfl
  | bool b => rfl
  | num n => cases schema <;> simp [valid] at h
  | str s => rfl
  | arr items ih =>
      cases schema with
      | array schema =>
          simp only [valid, List.all_eq_true] at h
          exact Json.numbersItems_eq_nil_iff.mpr fun x hx => ih x hx (h x hx)
      | _ => simp [valid] at h
  | obj members ih =>
      cases schema with
      | object required properties additional minProperties =>
          refine Json.numbersMembers_eq_nil_iff.mpr fun m hm => ?_
          rcases valid_member h hm with ⟨schema, hvalid, -⟩
          exact ih m hm hvalid
      | _ => simp [valid] at h

theorem depth_le_of_valid {schema : Schema} {x : Json ν} (h : valid schema x = true) :
    x.depth ≤ schema.depth := by
  induction x using Json.induct generalizing schema with
  | arr items ih =>
      cases schema with
      | array schema =>
          simp only [valid, List.all_eq_true] at h
          rw [Json.depth, depth]
          exact Nat.succ_le_succ (Json.depthItems_le.mpr fun x hx => ih x hx (h x hx))
      | _ => simp [valid] at h
  | obj members ih =>
      cases schema with
      | object required properties additional minProperties =>
          rw [Json.depth, depth]
          refine Nat.succ_le_succ (Json.depthMembers_le.mpr fun m hm => ?_)
          rcases valid_member h hm with ⟨schema, hvalid, hdepth⟩
          exact (ih m hm hvalid).trans hdepth
      | _ => simp [valid] at h
  | _ => simp [Json.depth]

/-- Validity does not depend on how numbers are represented. -/
theorem valid_mapNum (f : ν → μ) (schema : Schema) (x : Json ν) (h : valid schema x = true) :
    valid schema (x.mapNum f) = true := by
  induction x using Json.induct generalizing schema with
  | num n => cases schema <;> simp [valid] at h
  | arr items ih =>
      cases schema with
      | array schema =>
          simp only [valid, List.all_eq_true] at h
          simp only [Json.mapNum, Json.mapNumItems_eq, valid, List.all_map, List.all_eq_true]
          exact fun x hx => ih x hx schema (h x hx)
      | _ => simp [valid] at h
  | obj members ih =>
      cases schema with
      | object required properties additional minProperties =>
          simp only [valid, Bool.and_eq_true, List.all_eq_true, decide_eq_true_eq,
            validNamed_eq] at h
          simp only [Json.mapNum, Json.mapNumMembers_eq, valid, Bool.and_eq_true, List.all_eq_true,
            decide_eq_true_eq, List.length_map, validNamed_eq, List.forall_mem_map]
          refine ⟨⟨fun k hk => ?_, h.1.2⟩, fun m hm => ?_⟩
          · have hmem := lookup_isSome_iff.mp (h.1.1 k hk)
            exact lookup_isSome_iff.mpr (by simpa [Function.comp_def] using hmem)
          · have hvalid := h.2 m hm
            cases hlookup : lookup m.1 properties with
            | some schema =>
                rw [hlookup] at hvalid
                exact ih m hm schema hvalid
            | none =>
                rw [hlookup] at hvalid
                cases additional with
                | none => simp [validAdditional] at hvalid
                | some schema => exact ih m hm schema hvalid
      | _ => simp [valid] at h
  | _ => cases schema <;> simp_all [valid, Json.mapNum]

end Schema

end Ulpf.Lib
