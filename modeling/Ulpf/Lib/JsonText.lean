import Ulpf.Lib.Binary64
import Ulpf.Lib.Json
import Ulpf.Lib.Text

/-!
JSON texts: a recursive descent parser that leaves numbers as literals and
repeated keys as they stand, and a renderer. Readers differ in the constants
they accept and in how deep they follow nested containers; both are options.
-/

namespace Ulpf.Lib

open Ulpf.Lib.Text

/-- A number as written. -/
inductive NumLit where
  | decimal (neg : Bool) (int frac : List Char) (exp : Option (Bool × List Char))
  | nan
  | inf (neg : Bool)
  deriving DecidableEq

namespace NumLit

/-- A number without a fraction and an exponent. -/
def isInteger : NumLit → Bool
  | decimal _ _ [] none => true
  | _ => false

/-- The absolute value of a decimal. -/
def magnitude (int frac : List Char) (exp : Option (Bool × List Char)) : ℚ :=
  let digits := (decimal? (int ++ frac)).getD 0
  let e : ℤ := match exp with
    | none => 0
    | some (neg, ds) => if neg then - ((decimal? ds).getD 0 : ℤ) else (decimal? ds).getD 0
  digits * Binary64.pow10 (e - frac.length)

/-- The nearest float of a number. -/
def toBinary64 : NumLit → Binary64
  | decimal neg int frac exp => .ofMagnitude neg (magnitude int frac exp)
  | nan => .nan
  | inf neg => .inf neg

end NumLit

namespace JsonText

/-- What a reader accepts beyond the JSON grammar, and how deep it follows it. -/
structure Options where
  /-- Accept the constants `NaN`, `Infinity` and `-Infinity`. -/
  constants : Bool
  /-- Number of open containers from which on a text is refused. -/
  maxDepth : Option ℕ

/-- The white space of JSON. -/
def isSpace (c : Char) : Bool := c = ' ' || c = '\t' || c = '\n' || c = '\r'

def skipSpace (s : List Char) : List Char := s.dropWhile isSpace

/-- Value of a hexadecimal digit. -/
def hex? (c : Char) : Option ℕ :=
  if '0' ≤ c ∧ c ≤ '9' then some (c.toNat - '0'.toNat)
  else if 'a' ≤ c ∧ c ≤ 'f' then some (c.toNat - 'a'.toNat + 10)
  else if 'A' ≤ c ∧ c ≤ 'F' then some (c.toNat - 'A'.toNat + 10)
  else none

theorem hex?_bounds {c : Char} {d : ℕ} (h : hex? c = some d) :
    d < 16 ∧ (48 ≤ c.toNat ∧ c.toNat ≤ 57 ∨ 65 ≤ c.toNat ∧ c.toNat ≤ 102) := by
  rw [hex?] at h
  split at h
  · rename_i hrange
    cases h
    change 48 ≤ c.toNat ∧ c.toNat ≤ 57 at hrange
    change c.toNat - 48 < 16 ∧ _
    omega
  · split at h
    · rename_i hrange
      cases h
      change 97 ≤ c.toNat ∧ c.toNat ≤ 102 at hrange
      change c.toNat - 97 + 10 < 16 ∧ _
      omega
    · split at h
      · rename_i hrange
        cases h
        change 65 ≤ c.toNat ∧ c.toNat ≤ 70 at hrange
        change c.toNat - 65 + 10 < 16 ∧ _
        omega
      · cases h

/-- The character a letter after a backslash stands for. -/
def unescape? : Char → Option Char
  | '"' => some '"'
  | '\\' => some '\\'
  | '/' => some '/'
  | 'b' => some '\x08'
  | 'f' => some '\x0c'
  | 'n' => some '\n'
  | 'r' => some '\r'
  | 't' => some '\t'
  | _ => none

/-- Characters of a string literal after its opening quote. A `\u` escape is
left as its code unit. -/
def scanString : List Char → Option (List (Char ⊕ ℕ) × List Char)
  | [] => none
  | '"' :: rest => some ([], rest)
  | '\\' :: 'u' :: a :: b :: c :: d :: rest => do
      let unit := (((← hex? a) * 16 + (← hex? b)) * 16 + (← hex? c)) * 16 + (← hex? d)
      let (units, rest) ← scanString rest
      return (.inr unit :: units, rest)
  | '\\' :: c :: rest => do
      let decoded ← unescape? c
      let (units, rest) ← scanString rest
      return (.inl decoded :: units, rest)
  | c :: rest =>
      if c.toNat < 32 ∨ c = '\\' then none
      else do
        let (units, rest) ← scanString rest
        return (.inl c :: units, rest)

def isHighSurrogate (u : ℕ) : Bool := 0xD800 ≤ u && u < 0xDC00

def isLowSurrogate (u : ℕ) : Bool := 0xDC00 ≤ u && u < 0xE000

/-- Join surrogate pairs; a lone surrogate reads as the replacement character. -/
def joinUnits : List (Char ⊕ ℕ) → List Char
  | [] => []
  | .inl c :: rest => c :: joinUnits rest
  | .inr u :: .inr v :: rest =>
      if isHighSurrogate u && isLowSurrogate v then
        Char.ofNat (0x10000 + (u - 0xD800) * 0x400 + (v - 0xDC00)) :: joinUnits rest
      else if isHighSurrogate u || isLowSurrogate u then
        '\uFFFD' :: joinUnits (.inr v :: rest)
      else Char.ofNat u :: joinUnits (.inr v :: rest)
  | .inr u :: rest =>
      (if isHighSurrogate u || isLowSurrogate u then '\uFFFD' else Char.ofNat u) ::
        joinUnits rest

/-- A string behind its opening quote, and the rest of the text. -/
def parseString (s : List Char) : Option (String × List Char) :=
  (scanString s).map fun (units, rest) => (String.ofList (joinUnits units), rest)

def spanDigits (s : List Char) : List Char × List Char := s.span isDigit

def parseFrac (s : List Char) : List Char × List Char :=
  match s with
  | '.' :: rest =>
      let (ds, after) := spanDigits rest
      if ds.isEmpty then ([], s) else (ds, after)
  | _ => ([], s)

def parseExp (s : List Char) : Option (Bool × List Char) × List Char :=
  match s with
  | e :: rest =>
      if e = 'e' ∨ e = 'E' then
        let (neg, digits) := match rest with
          | '-' :: ds => (true, ds)
          | '+' :: ds => (false, ds)
          | ds => (false, ds)
        let (ds, after) := spanDigits digits
        if ds.isEmpty then (none, s) else (some (neg, ds), after)
      else (none, s)
  | [] => (none, s)

/-- A number without its sign: no leading zeros in the integer part. -/
def parseUnsigned (neg : Bool) (s : List Char) : Option (NumLit × List Char) :=
  let (ds, after) := spanDigits s
  let (int, after) := match ds with
    | '0' :: zeros => (['0'], zeros ++ after)
    | _ => (ds, after)
  if int.isEmpty then none
  else
    let (frac, after) := parseFrac after
    let (exp, after) := parseExp after
    some (.decimal neg int frac exp, after)

/-- A number and the rest of the text. -/
def parseNumber (s : List Char) : Option (NumLit × List Char) :=
  match s with
  | '-' :: rest => parseUnsigned true rest
  | _ => parseUnsigned false s

/-- What follows a word. -/
def afterWord (word : String) (s : List Char) : Option (List Char) :=
  if word.toList.isPrefixOf s then some (s.drop word.toList.length) else none

/-- One of the words that the reader knows. -/
def parseWord (opts : Options) (s : List Char) : Option (Json NumLit × List Char) :=
  ((afterWord "null" s).map fun r => (.null, r)) <|>
  ((afterWord "true" s).map fun r => (.bool true, r)) <|>
  ((afterWord "false" s).map fun r => (.bool false, r)) <|>
  (if opts.constants then
    ((afterWord "NaN" s).map fun r => (.num .nan, r)) <|>
    ((afterWord "Infinity" s).map fun r => (.num (.inf false), r)) <|>
    ((afterWord "-Infinity" s).map fun r => (.num (.inf true), r))
  else none)

/-- Another container may be opened at a depth. -/
def depthOk (opts : Options) (depth : ℕ) : Bool :=
  match opts.maxDepth with
  | none => true
  | some limit => depth < limit

mutual

/-- A value at the head of the text. The first argument bounds the recursion. -/
def parseValue (opts : Options) : ℕ → ℕ → List Char → Option (Json NumLit × List Char)
  | 0, _, _ => none
  | fuel + 1, depth, s =>
      match s with
      | '"' :: rest => (parseString rest).map fun (t, r) => (.str t, r)
      | '[' :: rest =>
          if depthOk opts depth then
            match skipSpace rest with
            | ']' :: after => some (.arr [], after)
            | inner =>
                (parseItems opts fuel (depth + 1) inner).map fun (xs, r) => (.arr xs, r)
          else none
      | '{' :: rest =>
          if depthOk opts depth then
            match skipSpace rest with
            | '}' :: after => some (.obj [], after)
            | inner =>
                (parseMembers opts fuel (depth + 1) inner).map fun (ms, r) => (.obj ms, r)
          else none
      | s => parseWord opts s <|> (parseNumber s).map fun (n, r) => (.num n, r)

def parseItems (opts : Options) :
    ℕ → ℕ → List Char → Option (List (Json NumLit) × List Char)
  | 0, _, _ => none
  | fuel + 1, depth, s => do
      let (x, after) ← parseValue opts fuel depth s
      match skipSpace after with
      | ']' :: rest => return ([x], rest)
      | ',' :: rest =>
          let (xs, rest) ← parseItems opts fuel depth (skipSpace rest)
          return (x :: xs, rest)
      | _ => none

def parseMembers (opts : Options) :
    ℕ → ℕ → List Char → Option (List (String × Json NumLit) × List Char)
  | 0, _, _ => none
  | fuel + 1, depth, s =>
      match s with
      | '"' :: rest => do
          let (k, after) ← parseString rest
          match skipSpace after with
          | ':' :: value =>
              let (x, after) ← parseValue opts fuel depth (skipSpace value)
              match skipSpace after with
              | '}' :: rest => return ([(k, x)], rest)
              | ',' :: rest =>
                  let (ms, rest) ← parseMembers opts fuel depth (skipSpace rest)
                  return ((k, x) :: ms, rest)
              | _ => none
          | _ => none
      | _ => none

end

/-- The value a text begins with, and what follows it. -/
def parsePrefix (opts : Options) (s : List Char) : Option (Json NumLit × List Char) :=
  parseValue opts (2 * s.length + 1) 0 (skipSpace s)

/-- A text that holds one value and white space around it. -/
def parse (opts : Options) (s : List Char) : Option (Json NumLit) := do
  let (x, after) ← parsePrefix opts s
  if (skipSpace after).isEmpty then return x else none

/-- The four hexadecimal digits of a code unit. -/
def hex4 (u : ℕ) : List Char :=
  [u / 4096 % 16, u / 256 % 16, u / 16 % 16, u % 16].map fun d => (Nat.digitChar d)

/-- The letter that stands for a character after a backslash. -/
def shortEscape? (c : Char) : Option Char :=
  if c = '"' then some '"'
  else if c = '\\' then some '\\'
  else if c = '\n' then some 'n'
  else if c = '\r' then some 'r'
  else if c = '\t' then some 't'
  else if c = '\x0c' then some 'f'
  else if c = '\x08' then some 'b'
  else none

/-- A character as `json.dumps` writes it with `ensure_ascii`. -/
def escapeAscii (c : Char) : List Char :=
  match shortEscape? c with
  | some letter => ['\\', letter]
  | none =>
      if 32 ≤ c.toNat ∧ c.toNat < 127 then [c]
      else if c.toNat < 0x10000 then '\\' :: 'u' :: hex4 c.toNat
      else
        let v := c.toNat - 0x10000
        '\\' :: 'u' :: (hex4 (0xD800 + v / 0x400) ++
          '\\' :: 'u' :: hex4 (0xDC00 + v % 0x400))

def renderString (s : String) : List Char := '"' :: (s.toList.flatMap escapeAscii ++ ['"'])

universe u

variable {ν : Type u}

mutual

/-- Text of a document, with a blank after every comma and colon. -/
def render (num : ν → List Char) : Json ν → List Char
  | .null => "null".toList
  | .bool true => "true".toList
  | .bool false => "false".toList
  | .num n => num n
  | .str s => renderString s
  | .arr items => '[' :: (renderItems num items ++ [']'])
  | .obj members => '{' :: (renderMembers num members ++ ['}'])

def renderItems (num : ν → List Char) : List (Json ν) → List Char
  | [] => []
  | [x] => render num x
  | x :: y :: ys => render num x ++ ',' :: ' ' :: renderItems num (y :: ys)

def renderMembers (num : ν → List Char) : List (String × Json ν) → List Char
  | [] => []
  | [(k, x)] => renderString k ++ ':' :: ' ' :: render num x
  | (k, x) :: m :: ms =>
      renderString k ++ ':' :: ' ' :: (render num x ++ ',' :: ' ' :: renderMembers num (m :: ms))

end

end JsonText

end Ulpf.Lib
