import Ulpf.Lib.Json

/-!
Tests of documents as JSON Schema combines them: constants, closed records, properties that may
be absent, alternatives and implications.
-/

namespace Ulpf.Lib

universe u

/-- A test of documents. -/
abbrev Check (ν : Type u) := Json ν → Bool

namespace Check

variable {ν : Type u}

/-- `const` of a string. -/
def const (s : String) : Check ν
  | .str t => t = s
  | _ => false

def isString : Check ν
  | .str _ => true
  | _ => false

def isNumber : Check ν
  | .num _ => true
  | _ => false

def isNull : Check ν
  | .null => true
  | _ => false

def either (check check' : Check ν) : Check ν := fun x => check x || check' x

/-- `allOf` -/
def all (checks : List (Check ν)) : Check ν := fun x => checks.all fun check => check x

/-- `if` and `then`. -/
def implies (condition conclusion : Check ν) : Check ν := fun x => !condition x || conclusion x

/-- One of the `properties`, which says nothing of a document without it. -/
def onProperty (name : String) (check : Check ν) : Check ν := fun x =>
  match x.member? name with
  | some value => check value
  | none => true

/-- A closed object whose declared properties are all required. -/
def record (fields : List (String × Check ν)) : Check ν
  | .obj members =>
      (fields.all fun field => (lookup field.1 members).isSome) &&
        members.all fun m =>
          match lookup m.1 fields with
          | some check => check m.2
          | none => false
  | _ => false

variable {checks : List (Check ν)} {x : Json ν}

@[simp] theorem const_iff {s : String} : const s x = true ↔ x = .str s := by
  cases x <;> simp [const]

@[simp] theorem isString_iff : isString x = true ↔ ∃ s, x = .str s := by
  cases x <;> simp [isString]

@[simp] theorem isNumber_iff : isNumber x = true ↔ ∃ n, x = .num n := by
  cases x <;> simp [isNumber]

@[simp] theorem isNull_iff : isNull x = true ↔ x = .null := by
  cases x <;> simp [isNull]

@[simp] theorem either_iff {check check' : Check ν} :
    either check check' x = true ↔ check x = true ∨ check' x = true := by
  rw [either, Bool.or_eq_true]

@[simp] theorem all_iff : all checks x = true ↔ ∀ check ∈ checks, check x = true := by
  rw [all, List.all_eq_true]

@[simp] theorem implies_iff {condition conclusion : Check ν} :
    implies condition conclusion x = true ↔ (condition x = true → conclusion x = true) := by
  rw [implies]
  cases condition x <;> simp

@[simp] theorem onProperty_obj_iff {name : String} {check : Check ν}
    {members : List (String × Json ν)} :
    onProperty name check (.obj members) = true ↔
      ∀ value, lookup name members = some value → check value = true := by
  rw [onProperty, Json.member?]
  cases lookup name members <;> simp

theorem record_obj_iff {fields : List (String × Check ν)} {members : List (String × Json ν)} :
    record fields (.obj members) = true ↔
      (∀ field ∈ fields, field.1 ∈ members.map Prod.fst) ∧
      ∀ m ∈ members, ∃ check, lookup m.1 fields = some check ∧ check m.2 = true := by
  rw [record, Bool.and_eq_true, List.all_eq_true, List.all_eq_true]
  refine and_congr (forall₂_congr fun _ _ => lookup_isSome_iff) (forall₂_congr fun m _ => ?_)
  cases lookup m.1 fields <;> simp

theorem record_iff_forall₂ {fields : List (String × Check ν)} {members : List (String × Json ν)}
    (hnames : members.map Prod.fst = fields.map Prod.fst) (hnodup : (fields.map Prod.fst).Nodup) :
    record fields (.obj members) = true ↔
      List.Forall₂ (fun field m => field.2 m.2 = true) fields members := by
  have hrequired : ∀ field ∈ fields, field.1 ∈ members.map Prod.fst := by
    intro field hfield
    rw [hnames]
    exact List.mem_map_of_mem hfield
  rw [record_obj_iff, and_iff_right hrequired]
  clear hrequired
  induction fields generalizing members with
  | nil =>
      rw [List.map_nil, List.map_eq_nil_iff] at hnames
      simp [hnames]
  | cons field fields ih =>
      obtain _ | ⟨m, members⟩ := members
      · cases hnames
      rw [List.map_cons, List.map_cons, List.cons.injEq] at hnames
      rw [List.map_cons, List.nodup_cons] at hnodup
      have hrest : ∀ m' ∈ members, lookup m'.1 (field :: fields) = lookup m'.1 fields := by
        intro m' hm'
        rw [lookup_cons, if_neg]
        intro heq
        apply hnodup.1
        rw [heq, ← hnames.2]
        exact List.mem_map_of_mem hm'
      have hfirst : lookup m.1 (field :: fields) = some field.2 := by
        rw [lookup_cons, if_pos hnames.1.symm]
      rw [List.forall_mem_cons, List.forall₂_cons, hfirst]
      refine and_congr (by simp) (Iff.trans (forall₂_congr fun m' hm' => ?_)
        (ih hnames.2 hnodup.2))
      rw [hrest m' hm']

end Check

end Ulpf.Lib
