import Ulpf.SourceProfiler.Statistics

/-!
When `profile` returns: a field may mix texts and numbers only as long as no number meets a text
among the least and the greatest value.
-/

namespace Ulpf.SourceProfiler

open Ulpf.Lib
open Ulpf.Python

section Prefixes

variable {α : Type} {P : List α → α → Prop} {xs : List α} {x : α}

/-- Every item of a list stands well behind those in front of it. -/
def Everywhere (P : List α → α → Prop) (xs : List α) : Prop :=
  ∀ before x after, xs = before ++ x :: after → P before x

end Prefixes

section Values

variable (u : Unicode)

/-- A value is inferred to be a number. -/
def IsNumber (v : PyVal) : Prop :=
  TypeInferencer.inferType u v = .integer ∨ TypeInferencer.inferType u v = .float

instance (v : PyVal) : Decidable (IsNumber u v) := inferInstanceAs (Decidable (_ ∨ _))

/-- The float that a value counts as among the numbers of its field. -/
def numberOf (v : PyVal) : Option Binary64 :=
  if IsNumber u v then (FieldTally.toFloat u v).toOption else none

/-- An integer beyond the largest float. -/
def TooLarge (v : PyVal) : Prop :=
  ∃ n : ℤ, v = .int n ∧ ∀ neg mag, Binary64.ofInt n ≠ .finite neg mag

/-- The first of the numbers that no later one is less than. -/
def extreme (less : Binary64 → Binary64 → Bool) (nums : List Binary64) : Option Binary64 :=
  nums.foldl (fun kept x =>
    match kept with
    | none => some x
    | some old => if less x old then some x else some old) none

def least (nums : List Binary64) : Option Binary64 := extreme FieldTally.floatLess nums

def greatest (nums : List Binary64) : Option Binary64 :=
  extreme (fun x y => FieldTally.floatLess y x) nums

/-- A text lies between the least and the greatest of some numbers, all as texts. -/
def Within (nums : List Binary64) (s : String) : Prop :=
  ∃ low high, least nums = some low ∧ greatest nums = some high ∧
    ¬ s < str u (.float low) ∧ ¬ s > str u (.float high)

/-- Each text lies between the numbers in front of it. -/
def Plain (vs : List PyVal) : Prop :=
  Everywhere (fun before v => TypeInferencer.inferType u v = .string →
    Within u (before.filterMap (numberOf u)) (str u v)) vs

/-- No integer is too large, and each text in front of a number lies between the numbers in
front of it. -/
def Comparable (vs : List PyVal) : Prop :=
  Everywhere (fun before v => ¬ TooLarge v ∧ ((numberOf u v).isSome = true → Plain u before)) vs

end Values

section Rounds

open FieldTally

variable {u : Unicode} {t t' : FieldTally} {v : PyVal} {vs : List PyVal} {x : Binary64}

/-- A kept value that numbers can be compared with. -/
def Numeric (old : Option PyVal) : Prop := ∃ kept : Option Binary64, old = kept.map PyVal.float

/-- What a field keeps as its least and greatest value after some values: its least and greatest
number, or a text where a number was. -/
structure Kept (u : Unicode) (vs : List PyVal) (low high : Option PyVal) : Prop where
  plain : Plain u vs → low = (least (vs.filterMap (numberOf u))).map PyVal.float ∧
    high = (greatest (vs.filterMap (numberOf u))).map PyVal.float
  mixed : ¬ Plain u vs → Numeric low → ¬ Numeric high

variable {low high : Option PyVal}

theorem Kept.numeric (hk : Kept u vs low high) (hplain : Plain u vs) :
    Numeric low ∧ Numeric high :=
  ⟨⟨_, (hk.plain hplain).1⟩, ⟨_, (hk.plain hplain).2⟩⟩

end Rounds

section Runs

variable {u : Unicode} {fields : Dict String FieldTally} {entries : List (String × PyVal)}
  {records : List Record}

variable {mask : String → String} {batch : BatchFormat} {headers : Option (List String)}
  {rows : List String} {readings : List (Option (Record × LogFormat))} {s : ProfileState}

variable {sampleLimit : ℕ} {logs : List String}

end Runs

end Ulpf.SourceProfiler
