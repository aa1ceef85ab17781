import Ulpf.Lib.Text

/-!
The Unicode data a language runtime ships with. The tables differ between
Unicode versions, so they are a parameter; what every version agrees on, the
ASCII block, is part of the structure.
-/

namespace Ulpf.Lib

open Ulpf.Lib.Text

/-- Character tables of one Unicode version. -/
structure Unicode where
  /-- Simple lower case mapping of one character. -/
  lower : Char → Char
  /-- Simple upper case mapping of one character. -/
  upper : Char → Char
  /-- Representative of the orbit of a character under simple case folding. -/
  fold : Char → Char
  /-- Full, context sensitive lower case mapping of a text. -/
  lowerText : List Char → List Char
  /-- Full, context sensitive upper case mapping of a text. -/
  upperText : List Char → List Char
  /-- Value of a decimal digit (general category Nd). -/
  decimal : Char → Option Nat
  /-- Characters that count as digits, superscripts included. -/
  isDigit : Char → Bool
  /-- Characters a printed representation shows unescaped. -/
  isPrintable : Char → Bool
  lower_ascii : ∀ c : Char, c.toNat < 128 → lower c = asciiLower c
  upper_ascii : ∀ c : Char, c.toNat < 128 → upper c = asciiUpper c
  fold_ascii : ∀ c : Char, c.toNat < 128 → fold c = asciiLower c
  lowerText_ascii : ∀ s : List Char, (∀ c ∈ s, c.toNat < 128) → lowerText s = s.map asciiLower
  upperText_ascii : ∀ s : List Char, (∀ c ∈ s, c.toNat < 128) → upperText s = s.map asciiUpper
  decimal_ascii : ∀ c : Char, c.toNat < 128 → decimal c = digit? c
  isDigit_ascii : ∀ c : Char, c.toNat < 128 → isDigit c = Text.isDigit c
  isPrintable_ascii : ∀ c : Char, c.toNat < 128 →
    isPrintable c = decide (32 ≤ c.toNat ∧ c.toNat < 127)

namespace Unicode

/-- Tables that know the ASCII block only. -/
def ascii : Unicode where
  lower := asciiLower
  upper := asciiUpper
  fold := asciiLower
  lowerText := List.map asciiLower
  upperText := List.map asciiUpper
  decimal := digit?
  isDigit := Text.isDigit
  isPrintable c := decide (32 ≤ c.toNat ∧ c.toNat < 127)
  lower_ascii _ _ := rfl
  upper_ascii _ _ := rfl
  fold_ascii _ _ := rfl
  lowerText_ascii _ _ := rfl
  upperText_ascii _ _ := rfl
  decimal_ascii _ _ := rfl
  isDigit_ascii _ _ := rfl
  isPrintable_ascii _ _ := rfl

/-- White space of the Unicode property `White_Space`. -/
def isSpace (c : Char) : Bool :=
  let n := c.toNat
  (9 ≤ n && n ≤ 13) || n = 0x20 || n = 0x85 || n = 0xA0 || n = 0x1680 ||
    (0x2000 ≤ n && n ≤ 0x200A) || n = 0x2028 || n = 0x2029 || n = 0x202F ||
    n = 0x205F || n = 0x3000

end Unicode

end Ulpf.Lib
