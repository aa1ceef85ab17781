import Ulpf.Go.Strconv
import Ulpf.Lib.Json

/-!
Values behind `interface{}` as the parsers produce them, their `%v` and `%T`
texts, and the conversion of a float to an `int64`.
-/

namespace Ulpf.Go

open Ulpf.Lib
open Ulpf.Lib.Text

/-- A number of Go with its type. -/
inductive GoNum where
  | int (n : ℤ)
  | int64 (n : ℤ)
  | float64 (x : Binary64)
  deriving DecidableEq

/-- `nil`, booleans, numbers, strings, slices and string-keyed maps. The order
of the members of a map stands for nothing. -/
abbrev Value := Json GoNum

namespace Value

def int (n : ℤ) : Value := .num (.int n)

def int64 (n : ℤ) : Value := .num (.int64 n)

def float64 (x : Binary64) : Value := .num (.float64 x)

end Value

def joinBlank : List (List Char) → List Char
  | [] => []
  | [x] => x
  | x :: xs => x ++ ' ' :: joinBlank xs

mutual

/-- Characters of `fmt.Sprintf("%v", x)`; a map prints its keys in order. -/
def printed : Value → List Char
  | .null => "<nil>".toList
  | .bool b => (if b then "true" else "false").toList
  | .num (.int n) => (numeral n).toList
  | .num (.int64 n) => (numeral n).toList
  | .num (.float64 x) => formatFloat x
  | .str s => s.toList
  | .arr items => '[' :: (joinBlank (printedItems items) ++ [']'])
  | .obj members =>
      let sorted := (printedMembers members).mergeSort fun a b => a.1 ≤ b.1
      "map[".toList ++ (joinBlank (sorted.map Prod.snd) ++ [']'])

def printedItems : List Value → List (List Char)
  | [] => []
  | x :: xs => printed x :: printedItems xs

def printedMembers : List (String × Value) → List (String × List Char)
  | [] => []
  | (k, x) :: ms => (k, k.toList ++ ':' :: printed x) :: printedMembers ms

end

/-- `fmt.Sprintf("%v", x)` -/
def sprint (x : Value) : String := String.ofList (printed x)

/-- `fmt.Sprintf("%T", x)` -/
def typeName : Value → String
  | .null => "<nil>"
  | .bool _ => "bool"
  | .num (.int _) => "int"
  | .num (.int64 _) => "int64"
  | .num (.float64 _) => "float64"
  | .str _ => "string"
  | .arr _ => "[]interface {}"
  | .obj _ => "map[string]interface {}"

/-- `x.(string)` -/
def asString : Value → Option String
  | .str s => some s
  | _ => none

/-- `x.(int64)`, or else `x.(int)`. -/
def asInteger : Value → Option ℤ
  | .num (.int64 n) => some n
  | .num (.int n) => some n
  | _ => none

/-- `x == nil` -/
def isNil : Value → Bool
  | .null => true
  | _ => false

/-- The integers of type `int64`. -/
def IsInt64 (n : ℤ) : Prop := -2 ^ 63 ≤ n ∧ n < 2 ^ 63

instance (n : ℤ) : Decidable (IsInt64 n) := inferInstanceAs (Decidable (_ ∧ _))

/-- `int64(x)`; what a value out of range becomes depends on the machine. -/
def toInt64 (outOfRange : Binary64 → ℤ) (x : Binary64) : ℤ :=
  match x.truncate? with
  | some n => if IsInt64 n then n else outOfRange x
  | none => outOfRange x

end Ulpf.Go
