import Ulpf.Lib.Dict

/-!
JSON-shaped data over a type of numbers. Objects keep their members in order;
reading a member follows the first occurrence of its key.
-/

namespace Ulpf.Lib

universe u v

/-- A JSON document over any type of numbers. -/
inductive Json (ν : Type u) where
  | null
  | bool (b : Bool)
  | num (n : ν)
  | str (s : String)
  | arr (items : List (Json ν))
  | obj (members : List (String × Json ν))

namespace Json

variable {ν : Type u} {μ : Type v}

instance : Inhabited (Json ν) := ⟨null⟩

theorem induct {P : Json ν → Prop} (null : P .null) (bool : ∀ b, P (.bool b))
    (num : ∀ n, P (.num n)) (str : ∀ s, P (.str s))
    (arr : ∀ items, (∀ x ∈ items, P x) → P (.arr items))
    (obj : ∀ members, (∀ m ∈ members, P m.2) → P (.obj members)) (x : Json ν) : P x := by
  refine @Json.rec ν P (fun items => ∀ x ∈ items, P x) (fun members => ∀ m ∈ members, P m.2)
    (fun m => P m.2) null bool num str arr obj ?_ ?_ ?_ ?_ ?_ x
  · simp
  · intro head tail hhead htail x hx
    rcases List.mem_cons.mp hx with rfl | hmem
    · exact hhead
    · exact htail x hmem
  · simp
  · intro head tail hhead htail m hm
    rcases List.mem_cons.mp hm with rfl | hmem
    · exact hhead
    · exact htail m hmem
  · intro _ _ h
    exact h

section Equality

variable [DecidableEq ν]

mutual

/-- Documents are compared with the order of their members. -/
def eqb : Json ν → Json ν → Bool
  | .null, .null => true
  | .bool a, .bool b => a == b
  | .num a, .num b => decide (a = b)
  | .str a, .str b => decide (a = b)
  | .arr xs, .arr ys => eqbItems xs ys
  | .obj xs, .obj ys => eqbMembers xs ys
  | _, _ => false

def eqbItems : List (Json ν) → List (Json ν) → Bool
  | [], [] => true
  | x :: xs, y :: ys => eqb x y && eqbItems xs ys
  | _, _ => false

def eqbMembers : List (String × Json ν) → List (String × Json ν) → Bool
  | [], [] => true
  | (k, x) :: xs, (l, y) :: ys => decide (k = l) && eqb x y && eqbMembers xs ys
  | _, _ => false

end

theorem eqbItems_iff {xs ys : List (Json ν)}
    (h : ∀ x ∈ xs, ∀ y, eqb x y = true ↔ x = y) : eqbItems xs ys = true ↔ xs = ys := by
  induction xs generalizing ys with
  | nil => cases ys <;> simp [eqbItems]
  | cons x xs ih =>
      cases ys with
      | nil => simp [eqbItems]
      | cons y ys =>
          rw [eqbItems, Bool.and_eq_true, h x (by simp), ih fun z hz => h z (by simp [hz])]
          simp

theorem eqbMembers_iff {xs ys : List (String × Json ν)}
    (h : ∀ m ∈ xs, ∀ y, eqb m.2 y = true ↔ m.2 = y) :
    eqbMembers xs ys = true ↔ xs = ys := by
  induction xs generalizing ys with
  | nil => cases ys <;> simp [eqbMembers]
  | cons m xs ih =>
      rcases m with ⟨k, x⟩
      cases ys with
      | nil => simp [eqbMembers]
      | cons m' ys =>
          rcases m' with ⟨l, y⟩
          rw [eqbMembers, Bool.and_eq_true, Bool.and_eq_true, decide_eq_true_eq,
            h (k, x) (by simp), ih fun z hz => h z (by simp [hz])]
          simp

theorem eqb_iff (x y : Json ν) : eqb x y = true ↔ x = y := by
  induction x using Json.induct generalizing y with
  | null => cases y <;> simp [eqb]
  | bool b => cases y <;> simp [eqb]
  | num n => cases y <;> simp [eqb]
  | str s => cases y <;> simp [eqb]
  | arr items ih => cases y <;> simp [eqb, eqbItems_iff ih]
  | obj members ih => cases y <;> simp [eqb, eqbMembers_iff ih]

instance : DecidableEq (Json ν) := fun x y =>
  decidable_of_iff (eqb x y = true) (eqb_iff x y)

end Equality

mutual

/-- A document with its numbers read in another way. -/
def mapNum (f : ν → μ) : Json ν → Json μ
  | .null => .null
  | .bool b => .bool b
  | .num n => .num (f n)
  | .str s => .str s
  | .arr items => .arr (mapNumItems f items)
  | .obj members => .obj (mapNumMembers f members)

def mapNumItems (f : ν → μ) : List (Json ν) → List (Json μ)
  | [] => []
  | x :: xs => mapNum f x :: mapNumItems f xs

def mapNumMembers (f : ν → μ) : List (String × Json ν) → List (String × Json μ)
  | [] => []
  | (k, x) :: xs => (k, mapNum f x) :: mapNumMembers f xs

end

mutual

def numbers : Json ν → List ν
  | .num n => [n]
  | .arr items => numbersItems items
  | .obj members => numbersMembers members
  | _ => []

def numbersItems : List (Json ν) → List ν
  | [] => []
  | x :: xs => numbers x ++ numbersItems xs

def numbersMembers : List (String × Json ν) → List ν
  | [] => []
  | (_, x) :: xs => numbers x ++ numbersMembers xs

end

theorem mapNumItems_eq (f : ν → μ) (items : List (Json ν)) :
    mapNumItems f items = items.map (mapNum f) := by
  induction items with
  | nil => rfl
  | cons x xs ih => rw [mapNumItems, ih, List.map_cons]

theorem mapNumMembers_eq (f : ν → μ) (members : List (String × Json ν)) :
    mapNumMembers f members = members.map fun m => (m.1, mapNum f m.2) := by
  induction members with
  | nil => rfl
  | cons m ms ih => rw [mapNumMembers, ih, List.map_cons]

theorem mapNum_id (x : Json ν) : x.mapNum id = x := by
  induction x using Json.induct with
  | null | bool _ | num _ | str _ => rfl
  | arr items ih =>
      rw [mapNum, mapNumItems_eq, List.map_congr_left ih, List.map_id']
  | obj members ih =>
      have hmember : ∀ m ∈ members, (m.1, m.2.mapNum id) = m := by
        intro m hm
        rw [ih m hm]
      rw [mapNum, mapNumMembers_eq, List.map_congr_left hmember, List.map_id']

/-- No number stands in a document. -/
def NumberFree (x : Json ν) : Prop := x.numbers = []

theorem numbersItems_eq_nil_iff {items : List (Json ν)} :
    numbersItems items = [] ↔ ∀ x ∈ items, NumberFree x := by
  induction items with
  | nil => simp [numbersItems]
  | cons x xs ih => simp [numbersItems, NumberFree, ih]

theorem numbersMembers_eq_nil_iff {members : List (String × Json ν)} :
    numbersMembers members = [] ↔ ∀ m ∈ members, NumberFree m.2 := by
  induction members with
  | nil => simp [numbersMembers]
  | cons m ms ih =>
      simp only [numbersMembers, List.append_eq_nil_iff, ih, List.forall_mem_cons]
      rfl

mutual

/-- Number of containers around the innermost value. -/
def depth : Json ν → ℕ
  | .arr items => depthItems items + 1
  | .obj members => depthMembers members + 1
  | _ => 0

def depthItems : List (Json ν) → ℕ
  | [] => 0
  | x :: xs => max (depth x) (depthItems xs)

def depthMembers : List (String × Json ν) → ℕ
  | [] => 0
  | (_, x) :: xs => max (depth x) (depthMembers xs)

end

theorem depthItems_le {items : List (Json ν)} {n : ℕ} :
    depthItems items ≤ n ↔ ∀ x ∈ items, x.depth ≤ n := by
  induction items with
  | nil => simp [depthItems]
  | cons x xs ih => simp only [depthItems, Nat.max_le, ih, List.forall_mem_cons]

theorem depthMembers_le {members : List (String × Json ν)} {n : ℕ} :
    depthMembers members ≤ n ↔ ∀ m ∈ members, m.2.depth ≤ n := by
  induction members with
  | nil => simp [depthMembers]
  | cons m ms ih => simp only [depthMembers, Nat.max_le, ih, List.forall_mem_cons]

mutual

/-- The document with one member for each key of an object: a repeated key
keeps its first place and takes its last value. -/
def lastWins : Json ν → Json ν
  | .arr items => .arr (lastWinsItems items)
  | .obj members => .obj ((lastWinsMembers members).foldl (fun acc m => put m.1 m.2 acc) [])
  | x => x

def lastWinsItems : List (Json ν) → List (Json ν)
  | [] => []
  | x :: xs => lastWins x :: lastWinsItems xs

def lastWinsMembers : List (String × Json ν) → List (String × Json ν)
  | [] => []
  | (k, x) :: xs => (k, lastWins x) :: lastWinsMembers xs

end

/-- Member of an object; other documents have no members. -/
def member? (x : Json ν) (k : String) : Option (Json ν) :=
  match x with
  | .obj members => lookup k members
  | _ => none

def memberD (x : Json ν) (k : String) (default : Json ν) : Json ν := (x.member? k).getD default

def isObj : Json ν → Bool
  | .obj _ => true
  | _ => false

theorem isObj_iff {x : Json ν} : x.isObj = true ↔ ∃ members, x = .obj members := by
  cases x <;> simp [isObj]

end Json

end Ulpf.Lib
