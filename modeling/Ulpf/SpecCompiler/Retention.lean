import Ulpf.ParserRuntime.NoLoss
import Ulpf.SpecCompiler.Conformance

/-!
What becomes of a mapped raw field when the runtime runs a compiled spec: the
type guessed from the canonical name decides whether its value survives.
-/

namespace Ulpf.SpecCompiler

open Ulpf.Lib
open Ulpf.Go
open Ulpf.Python (PyVal)
open Ulpf.Deployment
open Ulpf.ParserRuntime

structure ValidCompilation (u goTables : Unicode) where
  sourceId : String
  detectedFormat : String
  mappings : List FieldMapping
  spec : ParserSpec
  decodes : decodeSpec goTables (generateUlpfParserSpec u sourceId detectedFormat mappings) =
    .ok spec
  accepted : Accepted spec

abbrev TextFields :=
  { rawFields : RawFields // ∀ k val, rawFields.get? k = some val → ∃ s, val = .str s }

section Meaning

variable (p : Platform)

/-- A text is a numeral of an integer. -/
def DenotesInt (s : String) (n : ℤ) : Prop :=
  parseInt? (trimSpace s) = some n ∨
    ∃ neg q, readFloat (trimSpace s).toList = some (neg, q) ∧ (if neg then -q else q) = (n : ℚ)

/-- The address that a text denotes. -/
def addressOf (s : String) : Option (List ℕ) :=
  (NetIP.parseIP (trimSpace s)).map (·.groups)

/-- The time a text stands for, read as the runtime reads timestamps. -/
def timeOf (s : String) : Option Time :=
  match parseInt? (trimSpace s) with
  | some v =>
      some (if 10 ^ 18 < v then Time.unix 0 v
        else if 10 ^ 11 < v then Time.unix (v / 1000) (v % 1000 * 10 ^ 6)
        else Time.unix v 0)
  | none =>
      (timestampLayouts.findSome? fun layout => Time.parse p.localZone layout (trimSpace s)).map
        (withYear p)

/-- The instant a text stands for, in seconds and nanoseconds. -/
def instantOf (s : String) : Option (ℤ × ℕ) := (timeOf p s).map fun t => (t.sec, t.nsec)

/-- A value says what a text says: the same text but for blanks around it, the
same address, the same instant, the integer or the truth value it denotes. -/
def Represents (s : String) : Value → Prop
  | .str t => trimSpace t = trimSpace s ∨ (addressOf s ≠ none ∧ addressOf t = addressOf s) ∨
      (instantOf p s ≠ none ∧ instantOf p t = instantOf p s)
  | .num (.int64 n) => DenotesInt s n
  | .bool b => toLower p.unicode (trimSpace s) ∈ (if b then trueWords else falseWords)
  | _ => False

end Meaning

section Conversion

variable (p : Platform)

/-- What a field of a compiled spec makes of a text. Addresses and timestamps
are converted by the transformations and then once more to the type. -/
def convertText (type s : String) : Except CoercionError Value :=
  match type with
  | "ip" => do
      let t ← transformIP (.str (trimSpace s))
      (transformIP (.str t)).map .str
  | "integer" => (transformInteger p (.str s)).map .int64
  | "timestamp" => do
      let t ← transformTimestamp p (.str s)
      (transformTimestamp p (.str t)).map .str
  | "boolean" => (transformBoolean p.unicode (.str s)).map .bool
  | _ => .ok (.str (trimSpace s))

/-- A failed transformation leaves the text to a conversion that fails as well. -/
theorem coerce_twice {α : Type} (convert : Value → Except CoercionError α) (wrap : α → Value)
    (val : Value) :
    (convert (orKeep val wrap (convert val))).map wrap =
      (convert val >>= fun x => (convert (wrap x)).map wrap) := by
  cases h : convert val with
  | ok x => rfl
  | error err =>
      show (convert val).map wrap = _
      rw [h]
      rfl

theorem coerce_inferredField (u : Unicode) (canonicalField s : String)
    (orders : ℕ → List (String × String)) :
    coerce p (inferredField u canonicalField) orders (.str s) =
      convertText p (inferType u canonicalField).1 s := by
  rw [inferredField, inferType]
  split_ifs
  · simp only [coerce, applyTransformations, applyTransformation, coerceType, convertText,
      transformTrim, coerce_twice]
  · simp only [coerce, applyTransformations, applyTransformation, coerceType, convertText,
      coerce_twice]
    cases transformInteger p (.str s) <;> rfl
  · simp only [coerce, applyTransformations, applyTransformation, coerceType, convertText,
      coerce_twice]
  · simp only [coerce, applyTransformations, applyTransformation, coerceType, convertText,
      coerce_twice]
    cases transformBoolean p.unicode (.str s) <;> rfl
  · simp only [coerce, applyTransformations, applyTransformation, coerceType, convertText,
      transformTrim]
    show Except.ok (Json.str (String.ofList (trimSpace s).toList)) = _
    rw [String.ofList_toList]
    rfl

end Conversion

section Loop

variable (p : Platform) (e : Enumeration)

/-- Each mapped raw field that is present and not empty is in the result: what
stands under its canonical field represents its value, or it is still unknown. -/
def KeepsMapped (mappings : List FieldMapping) (spec : ParserSpec) (rawStr : String)
    (rawFields : RawFields) : Prop :=
  ∀ raw canonical s, canonicalOf mappings raw = some canonical →
    rawFields.get? raw = some (.str s) → s ≠ "" →
      (∃ val, (mapRawFields p e spec rawStr rawFields).extracted.get? canonical = some val ∧
        Represents p s val) ∨
      (mapRawFields p e spec rawStr rawFields).unknownFields.get? raw = some (.str s)

/-- A field of the spec takes a text and converts it. -/
def Converts (rawFields : RawFields) (field : String × FieldSpec) (val : Value) : Prop :=
  ∃ k s, resolve p e rawFields field.1 = some (k, .str s) ∧
    convertText p field.2.type s = .ok val

/-- Of the fields with the same canonical path, the last one that converts its
text converts it to a value that represents this one. -/
def KeptBy (fields : List (String × FieldSpec)) (rawFields : RawFields) (canonical s : String) :
    Prop :=
  ∃ before field after, fields = before ++ field :: after ∧ field.2.mapTo = canonical ∧
    (∃ val, Converts p e rawFields field val ∧ Represents p s val) ∧
    ∀ later ∈ after, later.2.mapTo = canonical → ∀ val, ¬ Converts p e rawFields later val

/-- Every mapped raw field that is present and not empty is kept by a field. -/
def AllKept (mappings : List FieldMapping) (spec : ParserSpec) (rawFields : RawFields) : Prop :=
  ∀ raw canonical s, canonicalOf mappings raw = some canonical →
    rawFields.get? raw = some (.str s) → s ≠ "" →
      KeptBy p e (e.entries .fields spec.fields) rawFields canonical s

variable {p e} {u goTables : Unicode}

theorem makes_iff_converts {rawFields : TextFields} {name canonical : String} {val : Value} :
    (∃ k, Makes p e rawFields.1 (name, inferredField u canonical) k val) ↔
      Converts p e rawFields.1 (name, inferredField u canonical) val := by
  simp only [Makes, Converts]
  constructor
  · rintro ⟨k, raw, hresolve, hcoerce⟩
    obtain ⟨s, rfl⟩ := rawFields.2 k raw (get?_of_resolve hresolve)
    rw [coerce_inferredField] at hcoerce
    exact ⟨k, s, hresolve, hcoerce⟩
  · rintro ⟨k, s, hresolve, hconvert⟩
    refine ⟨k, .str s, hresolve, ?_⟩
    rw [coerce_inferredField]
    exact hconvert

theorem compiledTo (compiled : ValidCompilation u goTables) :
    CompiledTo u compiled.sourceId compiled.detectedFormat compiled.mappings compiled.spec := by
  obtain ⟨spec, hspec, hcompiled⟩ := decodeSpec_generateUlpfParserSpec u goTables
    compiled.sourceId compiled.detectedFormat compiled.mappings
  rw [compiled.decodes] at hspec
  cases hspec
  exact hcompiled

theorem targetField_of_canonicalOf {mappings : List FieldMapping} {raw canonical k : String}
    (h : canonicalOf mappings raw = some canonical) :
    targetField? u mappings k = (canonicalOf mappings k).map (inferredField u) := by
  apply if_neg
  rintro rfl
  cases h

theorem field_of_mem {compiled : ValidCompilation u goTables} {raw canonical : String}
    (h : canonicalOf compiled.mappings raw = some canonical) {field : String × FieldSpec}
    (hfield : field ∈ e.entries .fields compiled.spec.fields) :
    field = (field.1, inferredField u field.2.mapTo) := by
  have hmem := (e.entries_perm .fields compiled.spec.fields).mem_iff.mp hfield
  have hget := (Dict.get?_eq_some_iff (k := field.1)).mpr hmem
  rw [(compiledTo compiled).fields, targetField_of_canonicalOf h] at hget
  obtain ⟨canonical', -, hinferred⟩ := Option.map_eq_some_iff.mp hget
  refine Prod.ext rfl ?_
  show field.2 = inferredField u field.2.mapTo
  rw [← hinferred]
  rfl

theorem consumes_of_canonicalOf {compiled : ValidCompilation u goTables} {raw canonical : String}
    (h : canonicalOf compiled.mappings raw = some canonical) {rawFields : RawFields} {val : Value}
    (hval : rawFields.get? raw = some val) :
    ∃ field ∈ compiled.spec.fields.entries, consumes p e rawFields field = some raw := by
  have hget : compiled.spec.fields.get? raw = some (inferredField u canonical) := by
    rw [(compiledTo compiled).fields, targetField_of_canonicalOf h, h]
    rfl
  refine ⟨(raw, inferredField u canonical), Dict.get?_eq_some_iff.mp hget, ?_⟩
  rw [consumes, resolve, hval]
  rfl

theorem keptBy_iff {compiled : ValidCompilation u goTables} {raw canonical s : String}
    (h : canonicalOf compiled.mappings raw = some canonical) {rawFields : TextFields} :
    KeptBy p e (e.entries .fields compiled.spec.fields) rawFields.1 canonical s ↔
      ∃ val, LastMakes p e rawFields.1 (e.entries .fields compiled.spec.fields) canonical val ∧
        Represents p s val := by
  have hmakes : ∀ field ∈ e.entries .fields compiled.spec.fields, ∀ val,
      (∃ k, Makes p e rawFields.1 field k val) ↔ Converts p e rawFields.1 field val := by
    intro field hfield val
    rw [field_of_mem h hfield]
    exact makes_iff_converts
  constructor
  · rintro ⟨before, field, after, hfields, hpath, ⟨val, hconverts, hrepresents⟩, hlast⟩
    refine ⟨val, ⟨before, field, after, hfields, hpath, ?_, ?_⟩, hrepresents⟩
    · exact (hmakes field (hfields ▸ by simp) val).mpr hconverts
    · intro later hlater hlaterPath k val' hmake
      exact hlast later hlater hlaterPath val'
        ((hmakes later (hfields ▸ by simp [hlater]) val').mp ⟨k, hmake⟩)
  · rintro ⟨val, ⟨before, field, after, hfields, hpath, hmake, hlast⟩, hrepresents⟩
    refine ⟨before, field, after, hfields, hpath, ⟨val, ?_, hrepresents⟩, ?_⟩
    · exact (hmakes field (hfields ▸ by simp) val).mp hmake
    · intro later hlater hlaterPath val' hconverts
      obtain ⟨k, hmake'⟩ := (hmakes later (hfields ▸ by simp [hlater]) val').mpr hconverts
      exact hlast later hlater hlaterPath k val' hmake'

end Loop

/-- Running a compiled spec keeps the mapped raw fields exactly when each of
them is kept by the last field that converts a text for its canonical path. -/
theorem keepsMapped_iff_allKept (p : Platform) (e : Enumeration) {u goTables : Unicode}
    (compiled : ValidCompilation u goTables) (rawStr : String) (rawFields : TextFields) :
    KeepsMapped p e compiled.mappings compiled.spec rawStr rawFields.1 ↔
      AllKept p e compiled.mappings compiled.spec rawFields.1 := by
  have hentry : ∀ raw canonical s, canonicalOf compiled.mappings raw = some canonical →
      rawFields.1.get? raw = some (.str s) →
        (((∃ val, (mapRawFields p e compiled.spec rawStr rawFields.1).extracted.get? canonical =
            some val ∧ Represents p s val) ∨
          (mapRawFields p e compiled.spec rawStr rawFields.1).unknownFields.get? raw =
            some (.str s)) ↔
          KeptBy p e (e.entries .fields compiled.spec.fields) rawFields.1 canonical s) := by
    intro raw canonical s hcanonical hval
    rw [get?_unknownFields compiled.accepted.policy,
      if_pos (consumes_of_canonicalOf hcanonical hval), keptBy_iff hcanonical]
    simp only [get?_extracted_eq_some_iff, reduceCtorEq, or_false]
  constructor
  · intro h raw canonical s hcanonical hval hne
    exact (hentry raw canonical s hcanonical hval).mp (h raw canonical s hcanonical hval hne)
  · intro h raw canonical s hcanonical hval hne
    exact (hentry raw canonical s hcanonical hval).mpr (h raw canonical s hcanonical hval hne)

section Description

def descriptionCompilation : ValidCompilation Unicode.ascii Unicode.ascii where
  sourceId := "vendor.product"
  detectedFormat := "key_value"
  mappings := [⟨"desc", "event.description", none, false⟩]
  spec := plainSpec "key_value"
    [("desc", ⟨"ip", "event.description", Dict.empty, ["trim", "ip"]⟩)]
  decodes := by decide +kernel
  accepted := (validateParserSpec_eq_ok_iff _).mp (by decide +kernel)

def descriptionFields : TextFields :=
  ⟨Dict.ofList [("desc", .str "disk full")], by
    intro k val hget
    have hmem := Dict.get?_eq_some_iff.mp hget
    simp only [Dict.ofList, Dict.empty, Dict.update_cons, Dict.set, put, Dict.update_nil,
      List.mem_singleton, Prod.mk.injEq] at hmem
    exact ⟨"disk full", hmem.2⟩⟩

/-- A description is taken for an address, and is gone. -/
theorem not_keepsMapped_description : ¬ KeepsMapped Platform.plain Enumeration.standing
    descriptionCompilation.mappings descriptionCompilation.spec "desc='disk full'"
    descriptionFields.1 := by
  intro h
  obtain ⟨val, hextracted, -⟩ | hunknown :=
    h "desc" "event.description" "disk full" (by decide) (by decide) (by decide)
  · have hnone : (mapRawFields Platform.plain Enumeration.standing descriptionCompilation.spec
        "desc='disk full'" descriptionFields.1).extracted.get? "event.description" = none := by
      decide +kernel
    rw [hnone] at hextracted
    cases hextracted
  · revert hunknown
    decide +kernel

end Description

end Ulpf.SpecCompiler
