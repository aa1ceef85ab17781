import Ulpf.ParserRuntime.FieldLoop

/-!
Whether `Parse` accounts for every raw field. A raw field that no field of the
spec consumes is kept as unknown; a consumed one survives only through the
values the fields make of it.
-/

namespace Ulpf.ParserRuntime

open Ulpf.Lib
open Ulpf.Go

theorem parse_eq_ok_iff {p : Platform} {e : Enumeration} {raw : List UInt8} {spec : ParserSpec}
    {res : ParseResult} : parse p e raw spec = .ok res ↔
      raw ≠ [] ∧ ∃ rawFields, parseBody e (ofBytes raw) spec = .ok rawFields ∧
        mapRawFields p e spec (ofBytes raw) rawFields = res := by
  rw [parse]
  split
  · simp_all
  · rw [map_eq_ok_iff]
    simp_all

section Loss

variable (p : Platform) (e : Enumeration)

/-- A field takes the raw field under a key and makes a value of it. -/
def Makes (rawFields : RawFields) (field : String × FieldSpec) (k : String)
    (typedVal : Value) : Prop :=
  ∃ val, resolve p e rawFields field.1 = some (k, val) ∧
    coerce p field.2 (enumOrders e field.1 field.2) val = .ok typedVal

/-- A pair of the raw fields is in the result: as an unknown field, or as the
value that a field has made of it. -/
def Accounted (spec : ParserSpec) (rawFields : RawFields) (res : ParseResult) (k : String)
    (val : Value) : Prop :=
  res.unknownFields.get? k = some val ∨
    ∃ field ∈ spec.fields.entries, ∃ typedVal, Makes p e rawFields field k typedVal ∧
      res.extracted.get? field.2.mapTo = some typedVal

/-- Every raw field is mapped with its value, or kept under its name. -/
def LosesNothing (raw : List UInt8) (spec : ParserSpec) : Prop :=
  ∀ res, parse p e raw spec = .ok res → ∀ rawFields,
    parseBody e (ofBytes raw) spec = .ok rawFields → ∀ k val, rawFields.get? k = some val →
      Accounted p e spec rawFields res k val

/-- The last of the fields with a canonical path that makes a value makes this one. -/
def LastMakes (rawFields : RawFields) (fields : List (String × FieldSpec)) (path : String)
    (typedVal : Value) : Prop :=
  ∃ before field after, fields = before ++ field :: after ∧ field.2.mapTo = path ∧
    (∃ k, Makes p e rawFields field k typedVal) ∧
    ∀ later ∈ after, later.2.mapTo = path → ∀ k v, ¬ Makes p e rawFields later k v

/-- Every raw field that a field consumes has a field that makes a value of it,
and no field after that one puts another value in its place. -/
def KeepsConsumed (raw : List UInt8) (spec : ParserSpec) : Prop :=
  raw ≠ [] → ∀ rawFields, parseBody e (ofBytes raw) spec = .ok rawFields →
    ∀ field ∈ spec.fields.entries, ∀ k, consumes p e rawFields field = some k →
      ∃ keeper ∈ spec.fields.entries, ∃ typedVal, Makes p e rawFields keeper k typedVal ∧
        LastMakes p e rawFields (e.entries .fields spec.fields) keeper.2.mapTo typedVal

variable {p e} {spec : ParserSpec} {rawStr : String} {rawFields : RawFields}

variable (spec rawStr) in
theorem exists_makes_iff {field : String × FieldSpec} {typedVal : Value} :
    (∃ k, Makes p e rawFields field k typedVal) ↔
      ∃ lineage, written p e spec rawStr rawFields field = some (typedVal, lineage) := by
  simp only [written_eq_some_iff, Makes]
  constructor
  · rintro ⟨k, val, hresolve, hcoerce⟩
    exact ⟨_, k, val, hresolve, hcoerce, rfl⟩
  · rintro ⟨lineage, k, val, hresolve, hcoerce, -⟩
    exact ⟨k, val, hresolve, hcoerce⟩

variable (spec rawStr) in
theorem written_eq_none_iff {field : String × FieldSpec} :
    written p e spec rawStr rawFields field = none ↔ ∀ k v, ¬ Makes p e rawFields field k v := by
  rw [← not_iff_not, ← ne_eq, Option.ne_none_iff_exists']
  constructor
  · rintro ⟨⟨typedVal, lineage⟩, hw⟩ hnever
    obtain ⟨k, hmakes⟩ := (exists_makes_iff spec rawStr).mpr ⟨lineage, hw⟩
    exact hnever k typedVal hmakes
  · intro hsome
    push Not at hsome
    obtain ⟨k, v, hmakes⟩ := hsome
    obtain ⟨lineage, hw⟩ := (exists_makes_iff spec rawStr).mp ⟨k, hmakes⟩
    exact ⟨_, hw⟩

theorem get?_extracted_eq_some_iff {path : String} {typedVal : Value} :
    (mapRawFields p e spec rawStr rawFields).extracted.get? path = some typedVal ↔
      LastMakes p e rawFields (e.entries .fields spec.fields) path typedVal := by
  rw [get?_extracted, Option.map_eq_some_iff]
  simp only [lastWrite_eq_some_iff]
  constructor
  · rintro ⟨w, ⟨before, field, after, hfields, hpath, hw, hlast⟩, rfl⟩
    refine ⟨before, field, after, hfields, hpath,
      (exists_makes_iff spec rawStr).mpr ⟨w.2, hw⟩, ?_⟩
    intro later hlater hlaterPath
    exact (written_eq_none_iff spec rawStr).mp (hlast later hlater hlaterPath)
  · rintro ⟨before, field, after, hfields, hpath, hmakes, hlast⟩
    obtain ⟨lineage, hw⟩ := (exists_makes_iff spec rawStr).mp hmakes
    refine ⟨(typedVal, lineage), ⟨before, field, after, hfields, hpath, hw, ?_⟩, rfl⟩
    intro later hlater hlaterPath
    exact (written_eq_none_iff spec rawStr).mpr (hlast later hlater hlaterPath)

end Loss

/-- A run loses nothing exactly when every consumed raw field is kept by a field
whose value no later one replaces. -/
theorem losesNothing_iff_keepsConsumed (p : Platform) (e : Enumeration) (raw : List UInt8)
    (spec : ValidSpec) : LosesNothing p e raw spec ↔ KeepsConsumed p e raw spec := by
  obtain ⟨spec, haccepted⟩ := spec
  show LosesNothing p e raw spec ↔ KeepsConsumed p e raw spec
  constructor
  · intro hall hraw rawFields hbody field hfield k hconsumes
    obtain ⟨⟨_, val⟩, hresolve, rfl⟩ := Option.map_eq_some_iff.mp hconsumes
    have hparse := parse_eq_ok_iff (p := p).mpr ⟨hraw, rawFields, hbody, rfl⟩
    obtain hunknown | ⟨keeper, hkeeper, typedVal, hmakes, hextracted⟩ :=
      hall _ hparse rawFields hbody _ val (get?_of_resolve hresolve)
    · rw [get?_unknownFields haccepted.policy, if_pos ⟨field, hfield, hconsumes⟩] at hunknown
      cases hunknown
    · exact ⟨keeper, hkeeper, typedVal, hmakes, get?_extracted_eq_some_iff.mp hextracted⟩
  · intro hkeeps res hparse rawFields hbody k val hget
    obtain ⟨hraw, rawFields', hbody', rfl⟩ := parse_eq_ok_iff.mp hparse
    rw [hbody] at hbody'
    cases hbody'
    by_cases hconsumed : ∃ field ∈ spec.fields.entries, consumes p e rawFields field = some k
    · obtain ⟨field, hfield, hconsumes⟩ := hconsumed
      obtain ⟨keeper, hkeeper, typedVal, hmakes, hlast⟩ :=
        hkeeps hraw rawFields hbody field hfield k hconsumes
      exact Or.inr ⟨keeper, hkeeper, typedVal, hmakes, get?_extracted_eq_some_iff.mpr hlast⟩
    · apply Or.inl
      rw [get?_unknownFields haccepted.policy, if_neg hconsumed]
      exact hget

section Port

/-- The bytes of a text of ASCII characters. -/
def asciiBytes (s : String) : List UInt8 := s.toList.map fun c => UInt8.ofNat c.toNat

/-- A specification of some fields, with nothing else of note. -/
def plainSpec (bodyParser : String) (fields : List (String × FieldSpec)) : ParserSpec :=
  { schema := ""
    dslVersion := "1.0"
    parser := ⟨"vendor.product", "1.0.0"⟩
    matchConfig := ⟨bodyParser, []⟩
    bodyParser := ⟨bodyParser, "", "", "", []⟩
    fields := Dict.ofList fields
    unknownFields := ⟨"preserve"⟩
    raw := ⟨true⟩ }

def plainField (type mapTo : String) : FieldSpec := ⟨type, mapTo, Dict.empty, []⟩

def portSpec : ValidSpec :=
  ⟨plainSpec "key_value" [("port", plainField "integer" "dst.port")],
    (validateParserSpec_eq_ok_iff _).mp (by decide +kernel)⟩

/-- A port that is no number is neither extracted nor unknown. -/
theorem not_losesNothing_port :
    ¬ LosesNothing Platform.plain Enumeration.standing (asciiBytes "port=abc") portSpec.1 := by
  intro hall
  have hbody : parseBody Enumeration.standing (ofBytes (asciiBytes "port=abc")) portSpec.1 =
      .ok (Dict.ofList [("port", .str "abc")]) := by
    decide +kernel
  obtain hunknown | ⟨field, hfield, typedVal, ⟨val, hresolve, hcoerce⟩, -⟩ :=
    hall _ (parse_eq_ok_iff.mpr ⟨by decide, _, hbody, rfl⟩) _ hbody "port" (.str "abc")
      (by decide +kernel)
  · revert hunknown
    decide +kernel
  · have hval := get?_of_resolve hresolve
    obtain rfl : field = ("port", plainField "integer" "dst.port") := List.mem_singleton.mp hfield
    obtain rfl : .str "abc" = val := Option.some.inj hval
    have herror : coerce Platform.plain (plainField "integer" "dst.port")
        (enumOrders Enumeration.standing "port" (plainField "integer" "dst.port")) (.str "abc") =
        .error (.cannotParse "integer" "abc") := by
      decide +kernel
    rw [herror] at hcoerce
    cases hcoerce

end Port

end Ulpf.ParserRuntime
