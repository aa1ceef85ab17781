import Ulpf.Go.Text
import Ulpf.Lib.JsonText

/-!
Number texts of Go's `strconv`: decimal integers of 64 bits, decimal and
hexadecimal floats, and the `%g` format of a float.
-/

namespace Ulpf.Go

open Ulpf.Lib
open Ulpf.Lib.Text

/-- Value of a run of digits, from a value already read; it stops at the first
one that does not fit 64 bits. -/
def scanUint : ℕ → List Char → Option ℕ
  | n, [] => some n
  | n, c :: rest =>
      match digit? c with
      | none => none
      | some d => if 2 ^ 64 ≤ 10 * n + d then some (2 ^ 64 - 1) else scanUint (10 * n + d) rest

/-- `strconv.ParseInt(s, 10, 64)`: the value returned and whether there is no
error. A value out of range comes back as the nearest bound. -/
def parseInt (s : List Char) : ℤ × Bool :=
  let (neg, body) := spanSign s
  match if body.isEmpty then none else scanUint 0 body with
  | none => (0, false)
  | some n =>
      if neg then if n ≤ 2 ^ 63 then (-n, true) else (-2 ^ 63, false)
      else if n < 2 ^ 63 then (n, true) else (2 ^ 63 - 1, false)

/-- The integer of a text, if `strconv.ParseInt` returns no error. -/
def parseInt? (s : String) : Option ℤ :=
  let (n, ok) := parseInt s.toList
  if ok then some n else none

/-- The value of `strconv.Atoi`, with its error left aside. -/
def atoi (s : List Char) : ℤ := (parseInt s).1

theorem le_ofDigitChars (ds : List Char) (start : ℕ) : start ≤ Nat.ofDigitChars 10 ds start := by
  induction ds generalizing start with
  | nil => exact le_rfl
  | cons c ds ih =>
      rw [Nat.ofDigitChars_cons]
      refine le_trans ?_ (ih _)
      omega

theorem scanUint_eq_ofDigitChars {ds : List Char} {start : ℕ}
    (hdigits : ∀ c ∈ ds, isDigit c = true) (hlt : Nat.ofDigitChars 10 ds start < 2 ^ 64) :
    scanUint start ds = some (Nat.ofDigitChars 10 ds start) := by
  induction ds generalizing start with
  | nil => rfl
  | cons c ds ih =>
      obtain ⟨hc, hdigits⟩ := List.forall_mem_cons.mp hdigits
      rw [Nat.ofDigitChars_cons] at hlt ⊢
      rw [scanUint, digit?_of_isDigit hc]
      dsimp only
      rw [if_neg (Nat.not_le.mpr ((le_ofDigitChars ds _).trans_lt hlt)), ih hdigits hlt]

theorem digits_of_scanUint {ds : List Char} {start m : ℕ} (h : scanUint start ds = some m) :
    m = 2 ^ 64 - 1 ∨ (∀ c ∈ ds, isDigit c = true) ∧ m = Nat.ofDigitChars 10 ds start := by
  induction ds generalizing start with
  | nil =>
      cases h
      exact .inr ⟨List.forall_mem_nil _, rfl⟩
  | cons c ds ih =>
      rw [scanUint] at h
      split at h
      · cases h
      · rename_i d hd
        have hc : isDigit c = true := by rw [isDigit, hd, Option.isSome_some]
        rw [digit?_of_isDigit hc] at hd
        cases hd
        split at h
        · cases h
          exact .inl rfl
        · exact (ih h).imp_right fun hread => ⟨List.forall_mem_cons.mpr ⟨hc, hread.1⟩, hread.2⟩

theorem spanSign_of_digit {c : Char} (hc : isDigit c = true) (rest : List Char) :
    spanSign (c :: rest) = (false, c :: rest) := by
  unfold spanSign
  split
  · rename_i heq
    cases heq
    exact absurd hc (by decide)
  · rename_i heq
    cases heq
    exact absurd hc (by decide)
  · rfl

theorem digits_of_parseInt? {c : Char} {rest : List Char} {n : ℤ} (hc : isDigit c = true)
    (h : parseInt? (String.ofList (c :: rest)) = some n) :
    (∀ d ∈ c :: rest, isDigit d = true) ∧ n = Nat.ofDigitChars 10 (c :: rest) 0 ∧ n < 2 ^ 63 := by
  rw [parseInt?, String.toList_ofList, parseInt, spanSign_of_digit hc] at h
  simp only [List.isEmpty_cons, Bool.false_eq_true, if_false] at h
  cases hscan : scanUint 0 (c :: rest) with
  | none => simp [hscan] at h
  | some m =>
      rw [hscan] at h
      by_cases hm : m < 2 ^ 63
      · simp only [hm, if_true, Option.some.injEq] at h
        obtain ⟨hdigits, hvalue⟩ := (digits_of_scanUint hscan).resolve_left (by omega)
        exact ⟨hdigits, by rw [← h, hvalue], by omega⟩
      · simp only [hm, if_false, Bool.false_eq_true, reduceCtorEq] at h

theorem parseInt?_digits {ds : List Char} (hne : ds ≠ []) (hds : ∀ c ∈ ds, isDigit c = true)
    (h : Nat.ofDigitChars 10 ds 0 < 2 ^ 63) :
    parseInt? (String.ofList ds) = some ((Nat.ofDigitChars 10 ds 0 : ℕ) : ℤ) := by
  obtain ⟨c, rest, rfl⟩ := List.exists_cons_of_ne_nil hne
  rw [parseInt?, String.toList_ofList, parseInt, spanSign_of_digit (hds c List.mem_cons_self)]
  have hscan := scanUint_eq_ofDigitChars hds (h.trans (by decide))
  simp only [List.isEmpty_cons, Bool.false_eq_true, if_false, hscan, h, if_true]

theorem parseInt_numeral {n : ℕ} (hn : n < 2 ^ 63) :
    parseInt (numeral n).toList = ((n : ℤ), true) := by
  have hvalue : Nat.ofDigitChars 10 (numeral n).toList 0 = n := by
    rw [toList_numeral, Nat.ofDigitChars_ten_toDigits]
  have hscan : scanUint 0 (numeral n).toList = some n := by
    rw [scanUint_eq_ofDigitChars (isDigit_numeral n), hvalue]
    rw [hvalue]
    omega
  have hsign : spanSign (numeral n).toList = (false, (numeral n).toList) := by
    unfold spanSign
    split
    · rename_i heq
      exact absurd (isDigit_numeral n '-' (by rw [heq]; exact List.mem_cons_self)) (by decide)
    · rename_i heq
      exact absurd (isDigit_numeral n '+' (by rw [heq]; exact List.mem_cons_self)) (by decide)
    · rfl
  have hne : (numeral n).toList.isEmpty = false := by simpa using numeral_ne_nil n
  rw [parseInt, hsign]
  simp only [hne, hscan, hn, Bool.false_eq_true, if_false, if_true]

def mantissaDigit (hex : Bool) (c : Char) : Option ℕ := if hex then JsonText.hex? c else digit? c

/-- Digits of a mantissa before and after its point, and the rest of the text.
Underscores are passed over. -/
def scanMantissa (hex : Bool) : Bool → List Char → List ℕ × List ℕ × List Char
  | _, [] => ([], [], [])
  | sawDot, c :: rest =>
      if c = '_' then scanMantissa hex sawDot rest
      else if c = '.' then if sawDot then ([], [], c :: rest) else scanMantissa hex true rest
      else match mantissaDigit hex c with
        | none => ([], [], c :: rest)
        | some d =>
            let (int, frac, after) := scanMantissa hex sawDot rest
            if sawDot then (int, d :: frac, after) else (d :: int, frac, after)

/-- Digits of an exponent, which stops growing from 10000 on, and the rest. -/
def scanExponent : ℕ → List Char → ℕ × List Char
  | e, [] => (e, [])
  | e, c :: rest =>
      if c = '_' then scanExponent e rest
      else match digit? c with
        | none => (e, c :: rest)
        | some d => scanExponent (if e < 10000 then 10 * e + d else e) rest

/-- The scan of `underscoreOK`: what was seen last is a digit `0`, an
underscore `_` or something else `!`. -/
def underscoreScan (hex : Bool) : Char → List Char → Bool
  | last, [] => last != '_'
  | last, c :: rest =>
      if (mantissaDigit hex c).isSome then underscoreScan hex '0' rest
      else if c = '_' then last == '0' && underscoreScan hex '_' rest
      else last != '_' && underscoreScan hex '!' rest

/-- Whether the underscores of a number text only stand between digits, or
between a base prefix and a digit. -/
def underscoreOK (s : List Char) : Bool :=
  match (spanSign s).2 with
  | '0' :: c :: rest =>
      if asciiLower c = 'x' then underscoreScan true '0' rest
      else if asciiLower c = 'b' ∨ asciiLower c = 'o' then underscoreScan false '0' rest
      else underscoreScan false '^' ('0' :: c :: rest)
  | body => underscoreScan false '^' body

def ofDigits (base : ℕ) (ds : List ℕ) : ℕ := ds.foldl (fun acc d => base * acc + d) 0

/-- Exponent of a float text and what follows it; a hexadecimal mantissa needs
one. -/
def parseExponent (hex : Bool) (s : List Char) : Option (ℤ × List Char) :=
  match s with
  | c :: rest =>
      if asciiLower c = (if hex then 'p' else 'e') then
        let (neg, digits) := spanSign rest
        match digits with
        | [] => none
        | d :: _ =>
            if isDigit d then
              let (e, after) := scanExponent 0 digits
              some (if neg then -e else e, after)
            else none
      else if hex then none else some (0, s)
  | [] => if hex then none else some (0, [])

def hasHexPrefix : List Char → Bool
  | '0' :: x :: _ :: _ => asciiLower x == 'x'
  | _ => false

/-- `readFloat`: sign and exact magnitude of a number text. -/
def readFloat (s : List Char) : Option (Bool × ℚ) := do
  let (neg, body) := spanSign s
  let hex := hasHexPrefix body
  let (int, frac, after) := scanMantissa hex false (if hex then body.drop 2 else body)
  if int.isEmpty ∧ frac.isEmpty then none
  let (e, rest) ← parseExponent hex after
  if rest.isEmpty ∧ (!s.contains '_' || underscoreOK s) then
    let base := if hex then 16 else 10
    let scale := if hex then Binary64.pow2 (e - 4 * frac.length)
      else Binary64.pow10 (e - frac.length)
    return (neg, ofDigits base (int ++ frac) * scale)
  else none

/-- `special`: the words for infinities and NaN, in any case. -/
def special (s : List Char) : Option Binary64 :=
  let (neg, body) := spanSign s
  let word := body.map asciiLower
  if word = "inf".toList ∨ word = "infinity".toList then some (.inf neg)
  else if s.map asciiLower = "nan".toList then some .nan
  else none

/-- `strconv.ParseFloat(s, 64)`; a magnitude too large is an error. -/
def parseFloat? (s : String) : Option Binary64 :=
  special s.toList <|> do
    let (neg, q) ← readFloat s.toList
    match Binary64.ofMagnitude neg q with
    | .finite neg mag => return .finite neg mag
    | _ => none

/-- `%g` of a float with as many digits as it needs. -/
def formatFloat : Binary64 → List Char
  | .nan => "NaN".toList
  | .inf neg => if neg then "-Inf".toList else "+Inf".toList
  | .finite neg mag =>
      let sign := if neg then ['-'] else []
      if mag = 0 then sign ++ ['0']
      else
        let (ds, point) := Binary64.shortest mag
        -- exponents below -4 and from 6 on are written out
        if point - 1 < -4 ∨ 6 ≤ point - 1 then sign ++ Binary64.scientific ds point
        else sign ++ Binary64.positional ds point

end Ulpf.Go
