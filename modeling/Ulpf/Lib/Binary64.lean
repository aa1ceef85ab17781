import Mathlib.Algebra.Order.Field.Rat
import Mathlib.Algebra.Order.Floor.Semiring
import Mathlib.Data.Rat.Floor
import Mathlib.Tactic.NormNum

/-!
IEEE 754 binary64 numbers through the exact rationals they denote: rounding to
nearest even, decimal rounding, and the shortest decimal that reads back as a
given number.
-/

namespace Ulpf.Lib.Binary64

/-- Nearest integer, ties to the even one. -/
def roundHalfEven (q : ℚ) : ℤ :=
  let f := ⌊q⌋
  let r := q - f
  if r < 1 / 2 then f
  else if 1 / 2 < r then f + 1
  else if f % 2 = 0 then f else f + 1

/-- A power of two with any integer exponent. -/
def pow2 : ℤ → ℚ
  | .ofNat n => (2 ^ n : ℕ)
  | .negSucc n => 1 / (2 ^ (n + 1) : ℕ)

/-- A power of ten with any integer exponent. -/
def pow10 : ℤ → ℚ
  | .ofNat n => (10 ^ n : ℕ)
  | .negSucc n => 1 / (10 ^ (n + 1) : ℕ)

/-- Binary exponent of a positive rational: `2 ^ e ≤ q < 2 ^ (e + 1)`. -/
def exponent (q : ℚ) : ℤ :=
  let e : ℤ := (q.num.natAbs.log2 : ℤ) - (q.den.log2 : ℤ)
  if pow2 e ≤ q then e else e - 1

/-- Nearest binary64 magnitude of a positive rational, without an upper bound. -/
def nearest (q : ℚ) : ℚ :=
  let k := max (exponent q - 52) (-1074)
  roundHalfEven (q / pow2 k) * pow2 k

/-- Rounding of a rational to the nearest binary64 value. -/
def fl (q : ℚ) : ℚ :=
  if q = 0 then 0 else if 0 < q then nearest q else - nearest (-q)

/-- Decimal rounding of a binary64 value: the binary64 value nearest to the
decimal with `digits` places that is nearest to the exact operand. -/
def roundTo (digits : ℕ) (q : ℚ) : ℚ :=
  fl (roundHalfEven (q * (10 ^ digits : ℕ)) / (10 ^ digits : ℕ))

@[simp] theorem fl_zero : fl 0 = 0 := by simp [fl]

@[simp] theorem fl_one : fl 1 = 1 := by decide +kernel

@[simp] theorem roundHalfEven_intCast (n : ℤ) : roundHalfEven n = n := by
  simp [roundHalfEven]

@[simp] theorem roundTo_zero (digits : ℕ) : roundTo digits 0 = 0 := by
  have h := roundHalfEven_intCast 0
  simp only [Int.cast_zero] at h
  simp [roundTo, h]

@[simp] theorem roundTo_one (digits : ℕ) : roundTo digits 1 = 1 := by
  have hpow : ((10 ^ digits : ℕ) : ℚ) ≠ 0 := by positivity
  have h := roundHalfEven_intCast ((10 ^ digits : ℕ) : ℤ)
  rw [Int.cast_natCast] at h
  rw [roundTo, one_mul, h, Int.cast_natCast, div_self hpow, fl_one]

end Binary64

/-- A binary64 number; a finite one is a sign and an exact magnitude. -/
inductive Binary64 where
  | nan
  | inf (neg : Bool)
  | finite (neg : Bool) (mag : ℚ)
  deriving DecidableEq

namespace Binary64

/-- Nearest number to a magnitude with a sign; magnitudes from `2 ^ 1024` on
round to infinity. -/
def ofMagnitude (neg : Bool) (q : ℚ) : Binary64 :=
  if q = 0 then finite neg 0
  else if nearest q < pow2 1024 then finite neg (nearest q) else inf neg

/-- The float nearest to an integer. -/
def ofInt (n : ℤ) : Binary64 := ofMagnitude (n < 0) (n.natAbs : ℚ)

def toRat? : Binary64 → Option ℚ
  | finite neg mag => some (if neg then - mag else mag)
  | _ => none

/-- Integer part, towards zero. -/
def truncate? (x : Binary64) : Option ℤ :=
  x.toRat?.map fun q => if q < 0 then - ⌊- q⌋ else ⌊q⌋

def sub : Binary64 → Binary64 → Binary64
  | nan, _ | _, nan => nan
  | inf s, inf t => if s = t then nan else inf s
  | inf s, finite _ _ => inf s
  | finite _ _, inf t => inf !t
  | finite s m, finite t n =>
      let q := (if s then -m else m) - (if t then -n else n)
      if q = 0 then finite (s && !t) 0 else ofMagnitude (q < 0) |q|

def mul : Binary64 → Binary64 → Binary64
  | nan, _ | _, nan => nan
  | inf s, inf t => inf (s != t)
  | inf s, finite t m | finite t m, inf s => if m = 0 then nan else inf (s != t)
  | finite s m, finite t n => ofMagnitude (s != t) (m * n)

/-- Numeric equality: zeros of both signs are equal, nothing equals a NaN. -/
def numEq (x y : Binary64) : Bool :=
  match x, y with
  | nan, _ | _, nan => false
  | inf s, inf t => s == t
  | x, y =>
      match x.toRat?, y.toRat? with
      | some q, some r => q == r
      | _, _ => false

/-- Decimal point position of a positive rational: `10 ^ (e - 1) ≤ q < 10 ^ e`. -/
def decimalPoint (q : ℚ) : ℤ :=
  if 1 ≤ q then ((Nat.toDigits 10 ⌊q⌋.toNat).length : ℤ)
  else
    let l := ((Nat.toDigits 10 (q.den / q.num.natAbs)).length : ℤ)
    if q = pow10 (1 - l) then 2 - l else 1 - l

/-- The `n`-digit decimals around a positive number that read back as it, the
nearer one first. -/
def decimalsAt (q : ℚ) (n : ℕ) : List ℕ :=
  let scale := pow10 (n - decimalPoint q)
  let below := ⌊q * scale⌋.toNat
  let near := if q * scale - below ≤ 1 / 2 then [below, below + 1] else [below + 1, below]
  near.filter fun m => nearest (m / scale) = q

/-- Digits and decimal point of the shortest decimal that reads back as a
positive magnitude. -/
def shortest (q : ℚ) : List Char × ℤ :=
  match (List.range 17).findSome? fun i =>
      (decimalsAt q (i + 1)).head?.map fun m => (m, i + 1) with
  | none => (['0'], 1)
  | some (m, n) =>
      let digits := Nat.toDigits 10 m
      let stripped := (digits.reverse.dropWhile (· = '0')).reverse
      (stripped, decimalPoint q + (digits.length - n))

/-- Digits with their exponent, which has two digits at least. -/
def scientific (digits : List Char) (point : ℤ) : List Char :=
  let e := point - 1
  let mantissa := match digits with
    | [] => []
    | [d] => [d]
    | d :: ds => d :: '.' :: ds
  let expDigits := Nat.toDigits 10 e.natAbs
  mantissa ++ ['e', if e < 0 then '-' else '+'] ++
    (if expDigits.length < 2 then '0' :: expDigits else expDigits)

/-- Digits with their decimal point. -/
def positional (digits : List Char) (point : ℤ) : List Char :=
  if point ≤ 0 then '0' :: '.' :: (List.replicate point.natAbs '0' ++ digits)
  else
    let n := point.toNat
    if digits.length ≤ n then digits ++ List.replicate (n - digits.length) '0'
    else digits.take n ++ '.' :: digits.drop n

/-- Decimal with a fixed number of places, correctly rounded, without its sign. -/
def fixed (places : ℕ) (q : ℚ) : List Char :=
  let units := (roundHalfEven (|q| * (10 ^ places : ℕ))).toNat
  let frac := Nat.toDigits 10 (units % 10 ^ places)
  Nat.toDigits 10 (units / 10 ^ places) ++
    '.' :: (List.replicate (places - frac.length) '0' ++ frac)

end Ulpf.Lib.Binary64
