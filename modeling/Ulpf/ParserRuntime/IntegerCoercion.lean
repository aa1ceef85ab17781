import Ulpf.Lib.Rounding
import Ulpf.ParserRuntime.Whitelist

/-!
Which values `TransformInteger` turns into the integers they denote.
-/

namespace Ulpf.ParserRuntime

open Ulpf.Lib
open Ulpf.Lib.Text
open Ulpf.Go

section Numerals

variable {c : Char} {s : List Char} {n : ℤ}

def signed (neg : Bool) (q : ℚ) : ℚ := if neg then -q else q

/-- The number that a text denotes, read without rounding. -/
def textValue (s : List Char) : Option ℚ := (readFloat s).map fun (neg, q) => signed neg q

theorem not_numeral_of_asciiLower (h : 97 ≤ (asciiLower c).toNat) :
    digit? c = none ∧ c ≠ '0' ∧ c ≠ '_' ∧ c ≠ '.' ∧ c ≠ '-' ∧ c ≠ '+' := by
  have hkept (d : Char) (hd : (asciiLower d).toNat < 97) : c ≠ d := by
    rintro rfl
    omega
  refine ⟨?_, hkept _ (by decide), hkept _ (by decide), hkept _ (by decide),
    hkept _ (by decide), hkept _ (by decide)⟩
  rw [← Option.not_isSome_iff_eq_none]
  intro hdigit
  obtain ⟨hlow, hhigh⟩ := toNat_of_isDigit hdigit
  have hsame : asciiLower c = c := by
    rw [asciiLower, if_neg]
    rintro ⟨hupper, -⟩
    have hnat : 65 ≤ c.toNat := hupper
    omega
  rw [hsame] at h
  omega

theorem mem_spanSign (hc : c ∈ s) : c ∈ (spanSign s).2 ∨ c = '-' ∨ c = '+' := by
  unfold spanSign
  split
  · obtain rfl | hmem := List.mem_cons.mp hc
    · exact .inr (.inl rfl)
    · exact .inl hmem
  · obtain rfl | hmem := List.mem_cons.mp hc
    · exact .inr (.inr rfl)
    · exact .inl hmem
  · exact .inl hc

/-- A scan that does not stop at the bound has read digits only, and the scan of a mantissa
reads the same ones. -/
theorem scanUint_spec {start m : ℕ} (h : scanUint start s = some m) :
    m = 2 ^ 64 - 1 ∨ (∀ c ∈ s, isDigit c = true) ∧
      ∃ ds, scanMantissa false false s = (ds, [], []) ∧ ds.length = s.length ∧
        m = ds.foldl (fun acc d => 10 * acc + d) start := by
  induction s generalizing start with
  | nil =>
      cases h
      exact .inr ⟨List.forall_mem_nil _, [], rfl, rfl, rfl⟩
  | cons c rest ih =>
      rw [scanUint] at h
      split at h
      · cases h
      · rename_i d hd
        split at h
        · cases h
          exact .inl rfl
        · obtain hbound | ⟨hdigits, ds, hscan, hlength, hvalue⟩ := ih h
          · exact .inl hbound
          · have hc : isDigit c = true := by rw [isDigit, hd, Option.isSome_some]
            refine .inr ⟨List.forall_mem_cons.mpr ⟨hc, hdigits⟩, d :: ds, ?_, ?_, hvalue⟩
            · have hdigit : mantissaDigit false c = some d := hd
              rw [scanMantissa, if_neg (ne_of_isDigit hc _ (by decide)),
                if_neg (ne_of_isDigit hc _ (by decide)), hdigit, hscan]
              rfl
            · rw [List.length_cons, List.length_cons, hlength]

theorem textValue_of_digits {neg : Bool} {body : List Char} {ds : List ℕ}
    (hsign : spanSign s = (neg, body)) (hne : body ≠ []) (hdigits : ∀ c ∈ body, isDigit c = true)
    (hscan : scanMantissa false false body = (ds, [], [])) (hlength : ds.length = body.length) :
    textValue s = some (signed neg (ofDigits 10 ds)) := by
  have hhex : hasHexPrefix body = false := by
    unfold hasHexPrefix
    split
    · rename_i x y rest
      have hx := toNat_of_isDigit (hdigits x (by simp))
      rw [beq_eq_false_iff_ne]
      intro hlower
      have hletter : 97 ≤ (asciiLower x).toNat := by
        rw [hlower]
        decide
      have hdigit := (not_numeral_of_asciiLower hletter).1
      have hsome := hdigits x (by simp)
      rw [isDigit, hdigit] at hsome
      cases hsome
    · rfl
  have hunderscore : '_' ∉ s := by
    intro hmem
    obtain hbody | hminus | hplus := mem_spanSign hmem
    · rw [hsign] at hbody
      exact ne_of_isDigit (hdigits _ hbody) '_' (by decide) rfl
    · exact absurd hminus (by decide)
    · exact absurd hplus (by decide)
  have hds : ds.isEmpty = false := by
    rw [List.isEmpty_eq_false_iff, ← List.length_pos_iff, hlength, List.length_pos_iff]
    exact hne
  rw [textValue, readFloat, hsign]
  simp [hhex, hscan, hds, hunderscore, parseExponent, Binary64.pow10]

theorem textValue_of_parseInt (h : parseInt s = (n, true)) :
    textValue s = some (n : ℚ) ∧ IsInt64 n := by
  obtain ⟨neg, body, hsign⟩ : ∃ neg body, spanSign s = (neg, body) := ⟨_, _, rfl⟩
  rw [parseInt, hsign] at h
  dsimp only at h
  split at h
  · cases h
  · rename_i m hm
    have hne : body ≠ [] := by
      rintro rfl
      cases hm
    rw [if_neg (by rw [List.isEmpty_iff]; exact hne)] at hm
    have hbound : m ≠ 2 ^ 64 - 1 := by
      rintro rfl
      split at h
      · rw [if_neg (by norm_num)] at h
        cases h
      · rw [if_neg (by norm_num)] at h
        cases h
    obtain ⟨hdigits, ds, hscan, hlength, hvalue⟩ := (scanUint_spec hm).resolve_left hbound
    have hm' : ofDigits 10 ds = m := hvalue.symm
    rw [textValue_of_digits hsign hne hdigits hscan hlength, signed, hm']
    split at h
    · rename_i hneg
      rw [if_pos hneg]
      split at h
      · cases h
        refine ⟨by rw [Int.cast_neg, Int.cast_natCast], ?_⟩
        rw [IsInt64]
        omega
      · cases h
    · rename_i hneg
      rw [if_neg hneg]
      split at h
      · cases h
        refine ⟨by rw [Int.cast_natCast], ?_⟩
        rw [IsInt64]
        omega
      · cases h

theorem textValue_of_parseInt? {s : String} (h : parseInt? s = some n) :
    textValue s.toList = some (n : ℚ) ∧ IsInt64 n := by
  rw [parseInt?] at h
  split at h
  rename_i m ok hparse
  split at h
  · rename_i hok
    cases h
    rw [hok] at hparse
    exact textValue_of_parseInt hparse
  · cases h

theorem textValue_eq_none {neg : Bool} {rest : List Char} (hsign : spanSign s = (neg, c :: rest))
    (hletter : 97 ≤ (asciiLower c).toNat) : textValue s = none := by
  obtain ⟨hdigit, hzero, hunderscore, hdot, -⟩ := not_numeral_of_asciiLower hletter
  have hhex : hasHexPrefix (c :: rest) = false := by
    unfold hasHexPrefix
    split
    · rename_i heq
      cases heq
      exact absurd rfl hzero
    · rfl
  have hscan : scanMantissa false false (c :: rest) = ([], [], c :: rest) := by
    have hmantissa : mantissaDigit false c = none := hdigit
    rw [scanMantissa, if_neg hunderscore, if_neg hdot, hmantissa]
  rw [textValue, readFloat, hsign]
  simp [hhex, hscan]

theorem textValue_of_special {x : Binary64} (h : special s = some x) : textValue s = none := by
  obtain ⟨neg, body, hsign⟩ : ∃ neg body, spanSign s = (neg, body) := ⟨_, _, rfl⟩
  rw [special, hsign] at h
  dsimp only at h
  split at h
  · rename_i hword
    cases body with
    | nil => simp at hword
    | cons c rest =>
        have hc : asciiLower c = 'i' := by
          obtain hinf | hinfinity := hword
          · exact (List.cons.inj hinf).1
          · exact (List.cons.inj hinfinity).1
        apply textValue_eq_none hsign
        rw [hc]
        decide
  · split at h
    · rename_i hnan
      cases s with
      | nil => simp at hnan
      | cons c rest =>
          have hc : asciiLower c = 'n' := (List.cons.inj hnan).1
          have hletter : 97 ≤ (asciiLower c).toNat := by
            rw [hc]
            decide
          obtain ⟨-, -, -, -, hminus, hplus⟩ := not_numeral_of_asciiLower hletter
          have hunsigned : spanSign (c :: rest) = (false, c :: rest) := by
            unfold spanSign
            split
            · rename_i heq
              cases heq
              exact absurd rfl hminus
            · rename_i heq
              cases heq
              exact absurd rfl hplus
            · rfl
          exact textValue_eq_none hunsigned hletter
    · cases h

end Numerals

section Exactness

variable {x : Binary64} {n : ℤ} {s : String}

/-- The number that a value denotes; a text denotes the one it is a numeral of. -/
def denotes : Value → Option ℚ
  | .num (.int n) | .num (.int64 n) => some n
  | .num (.float64 x) => x.toRat?
  | .str s => textValue (trimSpace s).toList
  | _ => none

/-- Whatever the machine, `TransformInteger` refuses a value or returns the number that the
value denotes, one of 64 bits. -/
def CoercesExactly (val : Value) : Prop :=
  ∀ (p : Platform) (n : ℤ), transformInteger p val = .ok n → denotes val = some (n : ℚ) ∧ IsInt64 n

/-- A float is one of the integers of 64 bits. -/
def IsInteger (x : Binary64) : Prop := ∃ n : ℤ, IsInt64 n ∧ x.toRat? = some (n : ℚ)

/-- No digit of a value is lost on the way through `float64`: a float is an integer already, and
a text that `ParseInt` refuses is a numeral of the integer that `ParseFloat` reads. -/
def Whole : Value → Prop
  | .num (.int n) | .num (.int64 n) => IsInt64 n
  | .num (.float64 x) => IsInteger x
  | .str s =>
      (parseInt? (trimSpace s)).isSome = true ∨ ∀ x, parseFloat? (trimSpace s) = some x →
        IsInteger x ∧ textValue (trimSpace s).toList = x.toRat?
  | _ => True

theorem isInt64_toInt64 (p : Platform) (x : Binary64) : IsInt64 (toInt64 p.outOfRange x) := by
  rw [toInt64]
  split
  · split_ifs with hrange
    · exact hrange
    · exact p.fits x
  · exact p.fits x

theorem truncate?_of_toRat? (h : x.toRat? = some (n : ℚ)) : x.truncate? = some n := by
  rw [Binary64.truncate?, h, Option.map_some, ← Int.cast_neg, Int.floor_intCast, Int.floor_intCast,
    neg_neg, ite_self]

theorem toInt64_of_isInteger (outOfRange : Binary64 → ℤ) (hx : IsInteger x) :
    x.toRat? = some (toInt64 outOfRange x : ℚ) := by
  obtain ⟨n, hrange, hn⟩ := hx
  rw [toInt64, truncate?_of_toRat? hn]
  dsimp only
  rw [if_pos hrange, hn]

/-- A machine that turns every float out of range into 0. -/
def zeroing : Platform := { Platform.plain with
  outOfRange := fun _ => 0
  fits := fun _ => by decide }

/-- A numeral of an integer is read as an integer, which need not be the same one. -/
theorem exists_integer_of_parseFloat (hx : parseFloat? s = some x)
    (hn : textValue s.toList = some (n : ℚ)) :
    ∃ m : ℤ, x.toRat? = some (m : ℚ) ∧ (n = 0 → m = 0) := by
  have hspecial : special s.toList = none := by
    cases hspecial : special s.toList with
    | none => rfl
    | some y =>
        rw [textValue_of_special hspecial] at hn
        cases hn
  obtain ⟨⟨neg, q⟩, hread, hvalue⟩ := Option.map_eq_some_iff.mp hn
  obtain ⟨r, rfl, hzero⟩ : ∃ r : ℤ, q = r ∧ (n = 0 → r = 0) := by
    cases neg with
    | true =>
        have hq : q = ((-n : ℤ) : ℚ) := by
          rw [Int.cast_neg, ← hvalue]
          simp [signed]
        exact ⟨-n, hq, by omega⟩
    | false => exact ⟨n, hvalue, fun h => h⟩
  obtain ⟨m, hm⟩ := Binary64.exists_nearest_intCast r
  rw [parseFloat?, hspecial, hread] at hx
  simp only [Option.orElse_eq_orElse, Option.orElse_eq_or, Option.none_or, Option.bind_eq_bind,
    Option.bind_some, Binary64.ofMagnitude, hm] at hx
  split_ifs at hx with hr hfinite
  · cases hx
    exact ⟨0, by simp [Binary64.toRat?], fun _ => rfl⟩
  · cases hx
    refine ⟨if neg then -m else m, ?_, fun h => ?_⟩
    · rw [Binary64.toRat?]
      split_ifs
      · rw [Int.cast_neg]
      · rfl
    · exact absurd (by rw [hzero h, Int.cast_zero]) hr

/-- A text that is read through `float64` and becomes what it denotes on that machine was an
integer all the way. -/
theorem isInteger_of_zeroing (hx : parseFloat? s = some x)
    (hn : textValue s.toList = some (toInt64 zeroing.outOfRange x : ℚ)) :
    IsInteger x ∧ textValue s.toList = x.toRat? := by
  obtain ⟨m, hm, hzero⟩ := exists_integer_of_parseFloat hx hn
  have htruncate := truncate?_of_toRat? hm
  by_cases hrange : IsInt64 m
  · have hinteger : IsInteger x := ⟨m, hrange, hm⟩
    exact ⟨hinteger, by rw [hn, toInt64_of_isInteger _ hinteger]⟩
  · have hout : toInt64 zeroing.outOfRange x = 0 := by
      rw [toInt64, htruncate]
      dsimp only
      rw [if_neg hrange]
      rfl
    rw [hzero hout] at hrange
    exact absurd (by decide) hrange

/-- `TransformInteger` is exact for the values that the way through `float64` leaves as they are,
and on no other: it cuts a fraction off, and an integer that `ParseInt` refused as too large
comes back as whatever the machine makes of the float. -/
theorem coercesExactly_iff (val : Value) : CoercesExactly val ↔ Whole val := by
  constructor
  · intro h
    unfold Whole
    split
    · rename_i n
      exact (h zeroing n rfl).2
    · rename_i n
      exact (h zeroing n rfl).2
    · rename_i x
      obtain ⟨hvalue, hrange⟩ := h zeroing _ rfl
      exact ⟨_, hrange, hvalue⟩
    · rename_i s
      cases hint : parseInt? (trimSpace s) with
      | some n => exact .inl rfl
      | none =>
          refine .inr fun x hx => isInteger_of_zeroing hx (h zeroing _ ?_).1
          simp only [transformInteger, hint, hx]
    · trivial
  · intro h p n hn
    unfold transformInteger at hn
    split at hn
    · cases hn
      exact ⟨rfl, h⟩
    · cases hn
      exact ⟨rfl, h⟩
    · cases hn
      exact ⟨toInt64_of_isInteger _ h, isInt64_toInt64 p _⟩
    · rename_i s
      cases hint : parseInt? (trimSpace s) with
      | some m =>
          simp only [hint] at hn
          cases hn
          exact textValue_of_parseInt? hint
      | none =>
          simp only [hint] at hn
          cases hfloat : parseFloat? (trimSpace s) with
          | none =>
              simp only [hfloat] at hn
              cases hn
          | some x =>
              simp only [hfloat] at hn
              cases hn
              have hexact := h.resolve_left (by rw [hint]; simp)
              obtain ⟨hinteger, hvalue⟩ := hexact x hfloat
              exact ⟨hvalue.trans (toInt64_of_isInteger _ hinteger), isInt64_toInt64 p x⟩
    · cases hn

/-- 1.5 becomes 1. -/
theorem not_coercesExactly_fraction : ¬ CoercesExactly (.str "1.5") := by
  intro h
  have hvalue := (h Platform.plain 1 (by decide +kernel)).1
  exact absurd hvalue (by decide +kernel)

end Exactness

end Ulpf.ParserRuntime
