import Ulpf.Go.Numerals
import Ulpf.ParserRuntime.NoLoss

/-!
What `Parse` makes of integers: the texts of those in JSON payloads, and whether they are zero.
-/

namespace Ulpf.ParserRuntime

open Ulpf.Lib
open Ulpf.Lib.Text
open Ulpf.Go

section Payloads

variable {n : ℤ}

theorem unmarshal_numeral (h : n.natAbs ≤ 2 ^ 53) :
    unmarshal (numeral n) = some (.float64 (Binary64.ofInt n)) := by
  have hnumber := parseNumber_numeral n
  obtain ⟨c, tail, hs, hc, -⟩ := JsonText.parseNumber_eq_some hnumber
  have hhead : JsonText.ScalarHead c := .inr (.inr (.inr hc))
  have hparse : JsonText.parse ⟨false, some maxNestingDepth⟩ (numeral n).toList =
      some (.num (.decimal (n < 0) (Nat.toDigits 10 n.natAbs) [] none)) := by
    rw [JsonText.parse, JsonText.parsePrefix, hs, JsonText.skipSpace,
      List.dropWhile_cons_of_neg (by rw [hhead.not_space]; exact Bool.false_ne_true),
      JsonText.parseValue_solid hhead.not_structural, JsonText.parseScalar,
      JsonText.parseWord_number hc, ← hs, hnumber]
    rfl
  rw [unmarshal, hparse]
  simp only [Option.bind_eq_bind, Option.bind_some, Json.numbers, List.any_cons, List.any_nil,
    toBinary64_numeral, ofInt_eq h, Bool.or_false, Json.mapNum, Bool.false_eq_true, if_false]
  rfl

end Payloads

section Coercions

variable {p : Platform} {e : Enumeration} {rawFields : RawFields} {field : String × FieldSpec}
  {k : String} {val : Value}

/-- A field that takes a number as text: a string without an enum table, of which no
transformation makes another number or a time. -/
structure FieldSpec.IsText (fieldSpec : FieldSpec) : Prop where
  type : fieldSpec.type = "string"
  enum : fieldSpec.enum.entries = []
  transformations : ∀ op ∈ fieldSpec.transformations, op ≠ "integer" ∧ op ≠ "timestamp"

/-- A field that takes a value as an integer and the integer as a boolean. -/
structure FieldSpec.IsFlag (fieldSpec : FieldSpec) : Prop where
  type : fieldSpec.type = "boolean"
  transformations : fieldSpec.transformations = ["integer"]

/-- A field makes the numeral of an integer, and whether it is not zero. -/
structure KeepsInteger (p : Platform) (e : Enumeration) (rawFields : RawFields)
    (field : String × FieldSpec) (k : String) (val : Value) : Prop where
  text : ∀ n : ℤ, n.natAbs ≤ 2 ^ 53 → unmarshal (numeral n) = some val → field.2.IsText →
    Makes p e rawFields field k (.str (numeral n))
  truth : ∀ n : ℤ, IsInt64 n → transformInteger p val = .ok n → field.2.IsFlag →
    Makes p e rawFields field k (.bool (n ≠ 0))

theorem makes_iff (hresolve : resolve p e rawFields field.1 = some (k, val)) (typedVal : Value) :
    Makes p e rawFields field k typedVal ↔
      coerce p field.2 (enumOrders e field.1 field.2) val = .ok typedVal := by
  constructor
  · rintro ⟨val', hresolve', hcoerce⟩
    rw [hresolve] at hresolve'
    cases hresolve'
    exact hcoerce
  · exact fun hcoerce => ⟨val, hresolve, hcoerce⟩

theorem applyTransformation_float64 {fieldSpec : FieldSpec} (htext : fieldSpec.IsText)
    (entries : List (String × String)) {op : String} (hop : op ∈ fieldSpec.transformations)
    (x : Binary64) :
    applyTransformation p fieldSpec entries op (.float64 x) = .float64 x := by
  obtain ⟨hinteger, htimestamp⟩ := htext.transformations op hop
  unfold applyTransformation
  split
  case h_4 => simp [htext.enum]
  case h_5 => exact absurd rfl hinteger
  case h_9 => exact absurd rfl htimestamp
  all_goals rfl

theorem applyTransformations_float64 {fieldSpec : FieldSpec} (htext : fieldSpec.IsText)
    (orders : ℕ → List (String × String)) (x : Binary64) (use : ℕ) {ops : List String}
    (hops : ∀ op ∈ ops, op ∈ fieldSpec.transformations) :
    applyTransformations p fieldSpec orders use ops (.float64 x) = .float64 x := by
  induction ops generalizing use with
  | nil => rfl
  | cons op ops ih =>
      obtain ⟨hop, hops⟩ := List.forall_mem_cons.mp hops
      rw [applyTransformations, applyTransformation_float64 htext _ hop]
      exact ih (use + 1) hops

theorem coerce_text (htext : field.2.IsText) (orders : ℕ → List (String × String))
    (x : Binary64) :
    coerce p field.2 orders (.float64 x) = .ok (.str (String.ofList (formatFloat x))) := by
  rw [coerce, applyTransformations_float64 htext orders x 0 fun _ hop => hop, coerceType,
    htext.type]
  simp only [htext.enum, List.isEmpty_nil, if_true]
  rfl

theorem coerce_flag (hflag : field.2.IsFlag) (orders : ℕ → List (String × String)) {n : ℤ}
    (hinteger : transformInteger p val = .ok n) :
    coerce p field.2 orders val = .ok (.bool true) := by
  rw [coerce, hflag.transformations, coerceType, hflag.type]
  simp only [applyTransformations, applyTransformation, hinteger, orKeep]
  rfl

/-- A field keeps the meaning of an integer except for the text of one from a million on, which
is printed with an exponent, and for the truth of zero: an `int64` is never equal to the
constant that it is compared with. -/
theorem keepsInteger_iff (hresolve : resolve p e rawFields field.1 = some (k, val)) :
    KeepsInteger p e rawFields field k val ↔
      (∀ n : ℤ, n.natAbs ≤ 2 ^ 53 → unmarshal (numeral n) = some val → field.2.IsText →
        n.natAbs < 10 ^ 6) ∧
      (field.2.IsFlag → transformInteger p val ≠ .ok 0) := by
  constructor
  · intro hkeeps
    constructor
    · intro n hn hread htext
      have hmakes := (makes_iff hresolve _).mp (hkeeps.text n hn hread htext)
      rw [unmarshal_numeral hn] at hread
      cases hread
      rw [coerce_text htext] at hmakes
      have hprinted : String.ofList (formatFloat (Binary64.ofInt n)) = numeral n :=
        Json.str.inj (Except.ok.inj hmakes)
      exact (formatFloat_ofInt_iff hn).mp (by rw [← hprinted, String.toList_ofList])
    · intro hflag hzero
      have hmakes := (makes_iff hresolve _).mp (hkeeps.truth 0 (by decide) hzero hflag)
      rw [coerce_flag hflag _ hzero] at hmakes
      cases hmakes
  · rintro ⟨hsmall, hnonzero⟩
    constructor
    · intro n hn hread htext
      have hprinted := (formatFloat_ofInt_iff hn).mpr (hsmall n hn hread htext)
      rw [unmarshal_numeral hn] at hread
      cases hread
      rw [makes_iff hresolve, coerce_text htext, hprinted, String.ofList_toList]
    · intro n hn hinteger hflag
      have hne : n ≠ 0 := by
        rintro rfl
        exact hnonzero hflag hinteger
      rw [makes_iff hresolve, coerce_flag hflag _ hinteger, decide_eq_true hne]

end Coercions

section Runs

/-- Each field of a run keeps the integer that it takes. -/
def KeepsIntegers (p : Platform) (e : Enumeration) (raw : List UInt8) (spec : ParserSpec) : Prop :=
  ∀ rawFields, parseBody e (ofBytes raw) spec = .ok rawFields → ∀ field ∈ spec.fields.entries,
    ∀ k val, resolve p e rawFields field.1 = some (k, val) → KeepsInteger p e rawFields field k val

/-- A run keeps its integers exactly when those that are taken as text are below a million and
those that are taken as a flag are not zero. -/
theorem keepsIntegers_iff (p : Platform) (e : Enumeration) (raw : List UInt8) (spec : ValidSpec) :
    KeepsIntegers p e raw spec.1 ↔
      ∀ rawFields, parseBody e (ofBytes raw) spec.1 = .ok rawFields →
        ∀ field ∈ spec.1.fields.entries, ∀ k val, resolve p e rawFields field.1 = some (k, val) →
          (∀ n : ℤ, n.natAbs ≤ 2 ^ 53 → unmarshal (numeral n) = some val → field.2.IsText →
            n.natAbs < 10 ^ 6) ∧
          (field.2.IsFlag → transformInteger p val ≠ .ok 0) := by
  constructor
  · intro hkeeps rawFields hbody field hfield k val hresolve
    exact (keepsInteger_iff hresolve).mp (hkeeps rawFields hbody field hfield k val hresolve)
  · intro hall rawFields hbody field hfield k val hresolve
    exact (keepsInteger_iff hresolve).mpr (hall rawFields hbody field hfield k val hresolve)

def countSpec : ValidSpec :=
  ⟨plainSpec "json" [("count", plainField "string" "event.count")],
    (validateParserSpec_eq_ok_iff _).mp (by decide +kernel)⟩

/-- A million is extracted as `1e+06`. -/
theorem not_keepsIntegers_count :
    ¬ ∀ (p : Platform) (e : Enumeration) (raw : List UInt8) (spec : ValidSpec),
      KeepsIntegers p e raw spec.1 := by
  intro hall
  have hbody : parseBody Enumeration.standing (ofBytes (asciiBytes "\x7b\"count\":1000000\x7d"))
      countSpec.1 = .ok (Dict.ofList [("count", .float64 (.finite false 1000000))]) := by
    decide +kernel
  have hresolve : resolve Platform.plain Enumeration.standing
      (Dict.ofList [("count", .float64 (.finite false 1000000))]) "count" =
      some ("count", .float64 (.finite false 1000000)) := by
    decide +kernel
  have hkeeps := hall Platform.plain Enumeration.standing _ countSpec _ hbody
    ("count", plainField "string" "event.count") List.mem_cons_self _ _ hresolve
  have hmakes := hkeeps.text 1000000 (by decide) (by decide +kernel)
    ⟨rfl, rfl, fun op hop => absurd hop List.not_mem_nil⟩
  rw [makes_iff hresolve] at hmakes
  revert hmakes
  decide +kernel

end Runs

end Ulpf.ParserRuntime
