import Ulpf.Contracts.FieldLineage
import Ulpf.ParserRuntime.Provenance

/-!
The lineage records of a result as JSON documents, and which of them satisfy the contract of
lineage records: all but those whose list of transformations was never allocated.
-/

namespace Ulpf.ParserRuntime

open Ulpf.Lib
open Ulpf.Go
open Ulpf.Contracts

section Documents

/-- A slice of strings as JSON: one that was never allocated is `null`. -/
def sliceJSON (isNil : Bool) (items : List String) : Json ℚ :=
  if isNil then .null else .arr (items.map .str)

/-- `ToJSON`; the slice of transformations may be unallocated. -/
def FieldLineage.toJSON (isNil : Bool) (fl : FieldLineage) : Json ℚ :=
  .obj [("normalized_path", .str fl.normalizedPath),
    ("raw_locator", .obj [("type", .str fl.rawLocator.type), ("value", .str fl.rawLocator.value)]),
    ("extractor", .str fl.extractor), ("transformations", sliceJSON isNil fl.transformations),
    ("mapping_score", .num fl.mappingScore),
    ("mapping_evidence", sliceJSON false fl.mappingEvidence),
    ("review_status", .str fl.reviewStatus)]

theorem valid_sliceJSON_iff {isNil : Bool} {minItems : ℕ} {values items : List String} :
    (Contract.array minItems (.oneOf values)).valid (sliceJSON isNil items) = true ↔
      isNil = false ∧ minItems ≤ items.length ∧ ∀ x ∈ items, x ∈ values := by
  cases isNil with
  | true => simp [sliceJSON]
  | false => simp [sliceJSON]

/-- The document of a valid record satisfies the contract unless its slice of transformations
is unallocated. -/
theorem FieldLineage.valid_toJSON_iff {isNil : Bool} {fl : FieldLineage}
    (hvalid : fl.validate = .ok ()) :
    fieldLineageContract.valid (fl.toJSON isNil) = true ↔ isNil = false := by
  obtain ⟨hpath, htype, hvalue, hextractor, hops, ⟨hlow, hhigh⟩, hevidence, hitems, hstatus⟩ :=
    fl.validate_eq_ok_iff.mp hvalid
  have hvalue' : fl.rawLocator.value ≠ "" := by
    intro h
    rw [h] at hvalue
    exact hvalue (by decide)
  have hlocator : rawLocatorContract.valid (.obj [("type", .str fl.rawLocator.type),
      ("value", .str fl.rawLocator.value)]) = true := by
    rw [rawLocatorContract]
    refine Iff.mpr (Contract.valid_record_iff fun k hk => hk) ?_
    simp only [List.forall_mem_cons, Contract.validMember_cons, String.reduceEq, if_true, if_false,
      Contract.valid_oneOf_iff, Contract.valid_nonempty_iff]
    exact ⟨htype, hvalue', List.forall_mem_nil _⟩
  have hlength : 1 ≤ fl.mappingEvidence.length := List.length_pos_iff.mpr hevidence
  rw [fieldLineageContract, toJSON]
  refine Iff.trans (Contract.valid_record_iff fun k hk => hk) ?_
  simp only [List.forall_mem_cons, Contract.validMember_cons, String.reduceEq, if_true, if_false,
    Contract.valid_oneOf_iff, Contract.valid_string, Contract.valid_number, valid_sliceJSON_iff,
    hlocator]
  constructor
  · rintro ⟨-, -, -, ⟨hnil, -⟩, -⟩
    exact hnil
  · rintro rfl
    exact ⟨hpath, trivial, hextractor, ⟨rfl, Nat.zero_le _, hops⟩, by simp [hlow, hhigh],
      ⟨trivial, hlength, hitems⟩, hstatus, List.forall_mem_nil _⟩

end Documents

section Emission

/-- Which fields of a spec have an allocated slice of transformations, which may be empty. -/
structure Allocation (spec : ParserSpec) where
  declared : String → Bool
  consistent : ∀ field ∈ spec.fields.entries,
    declared field.1 = false → field.2.transformations = []

variable (p : Platform) (e : Enumeration) (raw : List UInt8) (spec : ParserSpec)

/-- The field and the value from which a run makes its record under a path. -/
structure Emission (path : String) where
  rawFields : RawFields
  field : String × FieldSpec
  k : String
  val : Value
  typedVal : Value
  body : parseBody e (ofBytes raw) spec = .ok rawFields
  writer : LastWriter p e rawFields (e.entries .fields spec.fields) field k val typedVal
  mapped : field.2.mapTo = path

namespace Emission

variable {p e raw spec} {path : String} (em : Emission p e raw spec path)

/-- The record of an emitted field. -/
def record : FieldLineage := lineageOf p spec (ofBytes raw) em.k em.field.2 em.typedVal

/-- Whether the slice of transformations of the record is unallocated: `BuildFieldLineage`
allocates it with the first one that it keeps, and the fallback takes that of the spec. -/
def nilTransformations (alloc : Allocation spec) : Bool :=
  match buildFieldLineage p.unicode em.field.2.mapTo em.k spec.bodyParser.type
      em.field.2.transformations (ofBytes raw) em.typedVal with
  | .ok lineage => lineage.transformations.isEmpty
  | .error _ => !alloc.declared em.field.1

/-- The record as a document. -/
def document (alloc : Allocation spec) : Json ℚ :=
  em.record.toJSON (em.nilTransformations alloc)

/-- A transformation of the field may stand in a record; or the field is not located, and the
spec has a list of transformations for it. -/
def KeepsTransformations (alloc : Allocation spec) : Prop :=
  (∃ op ∈ em.field.2.transformations, op ∈ validTransformations) ∨
    ¬ Located p.unicode spec.bodyParser.type (ofBytes raw) em.k em.typedVal ∧
      alloc.declared em.field.1 = true

theorem nilTransformations_eq (alloc : Allocation spec) (hspec : Accepted spec) :
    em.nilTransformations alloc =
      if Located p.unicode spec.bodyParser.type (ofBytes raw) em.k em.typedVal ∧
          trimSpace (locatorOf spec.bodyParser.type em.k).value ≠ "" then
        (em.field.2.transformations.filter validTransformations.contains).isEmpty
      else !alloc.declared em.field.1 := by
  have hpath := (hspec.fields em.field (mem_fields_of_lastWriter em.writer)).mapped
  rw [nilTransformations]
  by_cases hlocated : Located p.unicode spec.bodyParser.type (ofBytes raw) em.k em.typedVal
  · rw [buildFieldLineage_of_located hspec.bodyParserType hlocated]
    by_cases hvalue : trimSpace (locatorOf spec.bodyParser.type em.k).value = ""
    · rw [if_neg fun h => h.2 hvalue]
      cases hresult : (locatedLineage em.field.2.mapTo em.k spec.bodyParser.type
          em.field.2.transformations).validate with
      | ok _ => exact absurd hvalue ((validate_locatedLineage_iff hpath).mp hresult)
      | error err => rfl
    · rw [if_pos ⟨hlocated, hvalue⟩, (validate_locatedLineage_iff hpath).mpr hvalue]
      rfl
  · rw [buildFieldLineage_of_not_located hspec.bodyParserType hlocated,
      if_neg fun h => hlocated h.1]

theorem nilTransformations_eq_false_iff (alloc : Allocation spec) (hspec : Accepted spec)
    (hvalid : em.record.validate = .ok ()) :
    em.nilTransformations alloc = false ↔ em.KeepsTransformations alloc := by
  have hmem := mem_fields_of_lastWriter em.writer
  have hpath := (hspec.fields em.field hmem).mapped
  have hfilter : (em.field.2.transformations.filter validTransformations.contains).isEmpty = false ↔
      ∃ op ∈ em.field.2.transformations, op ∈ validTransformations := by
    simp
  rw [em.nilTransformations_eq alloc hspec, KeepsTransformations]
  split <;> rename_i hbuilt
  · rw [hfilter, or_iff_left fun h => h.1 hbuilt.1]
  · have hrecord : (fallbackLineage em.field.2.mapTo em.k spec.bodyParser.type
        em.field.2.transformations).validate = .ok () := by
      rw [← hvalid, record, lineageOf_eq hspec.bodyParserType hpath, if_neg hbuilt]
    obtain ⟨hvalue, -⟩ := (validate_fallbackLineage_iff hpath).mp hrecord
    have hlost : ¬ Located p.unicode spec.bodyParser.type (ofBytes raw) em.k em.typedVal := by
      intro hlocated
      refine hbuilt ⟨hlocated, ?_⟩
      by_cases hjson : spec.bodyParser.type = "json"
      · rw [hjson]
        exact locatorOf_json_ne em.k
      · rw [locatorOf, if_neg hjson]
        exact hvalue
    constructor
    · intro hdeclared
      exact .inr ⟨hlost, by simpa using hdeclared⟩
    · rintro (⟨op, hop, -⟩ | ⟨-, hdeclared⟩)
      · by_contra hundeclared
        have hempty := alloc.consistent em.field hmem (by simpa using hundeclared)
        rw [hempty] at hop
        cases hop
      · rw [hdeclared]
        rfl

end Emission

section Results

variable {p e raw spec} {res : ParseResult} {path : String} {record : FieldLineage}

theorem exists_emission_of_record (hparse : parse p e raw spec = .ok res)
    (hrecord : res.lineage.get? path = some record) : Nonempty (Emission p e raw spec path) := by
  obtain ⟨-, rawFields, hbody, rfl⟩ := parse_eq_ok_iff.mp hparse
  obtain ⟨field, k, val, typedVal, hwriter, hpath, -, -⟩ := exists_lastWriter hrecord
  exact ⟨⟨rawFields, field, k, val, typedVal, hbody, hwriter, hpath⟩⟩

theorem Emission.record_eq (hparse : parse p e raw spec = .ok res)
    (hrecord : res.lineage.get? path = some record) (em : Emission p e raw spec path) :
    em.record = record := by
  obtain ⟨-, rawFields, hbody, rfl⟩ := parse_eq_ok_iff.mp hparse
  have hfields : em.rawFields = rawFields := Except.ok.inj (em.body.symm.trans hbody)
  have hget := (get?_of_lastWriter (ofBytes raw) em.writer).2
  rw [em.mapped, hfields, hrecord] at hget
  exact (Option.some.inj hget).symm

end Results

/-- Every record of a result that passes `Validate` is one that the run emits, and as a document
it satisfies its contract just when it keeps its list of transformations. -/
theorem fieldLineageContract_iff (spec : ValidSpec) (alloc : Allocation spec.1)
    {res : ParseResult} (hparse : parse p e raw spec.1 = .ok res) {path : String}
    {record : FieldLineage} (hrecord : res.lineage.get? path = some record)
    (hvalid : record.validate = .ok ()) :
    Nonempty (Emission p e raw spec.1 path) ∧ ∀ em : Emission p e raw spec.1 path,
      em.record = record ∧ (fieldLineageContract.valid (em.document alloc) = true ↔
        em.KeepsTransformations alloc) := by
  refine ⟨exists_emission_of_record hparse hrecord, fun em => ?_⟩
  have hsame := em.record_eq hparse hrecord
  refine ⟨hsame, ?_⟩
  rw [← hsame] at hvalid
  rw [Emission.document, FieldLineage.valid_toJSON_iff hvalid,
    em.nilTransformations_eq_false_iff alloc spec.2 hvalid]

end Emission

section User

def userSpec : ValidSpec :=
  ⟨plainSpec "key_value" [("user", plainField "string" "user.name")],
    (validateParserSpec_eq_ok_iff _).mp (by decide +kernel)⟩

/-- The spec says nothing of transformations. -/
def userAllocation : Allocation userSpec.1 where
  declared _ := false
  consistent := by decide +kernel

def userRecord : FieldLineage := locatedLineage "user.name" "user" "key_value" []

theorem parse_user : ∃ res, parse Platform.plain Enumeration.standing (asciiBytes "user=bob")
    userSpec.1 = .ok res ∧ res.lineage.get? "user.name" = some userRecord := by
  have hbody : parseBody Enumeration.standing (ofBytes (asciiBytes "user=bob")) userSpec.1 =
      .ok (Dict.ofList [("user", .str "bob")]) := by
    decide +kernel
  exact ⟨_, parse_eq_ok_iff.mpr ⟨by decide, _, hbody, rfl⟩, by decide +kernel⟩

theorem validate_userRecord : userRecord.validate = .ok () := by decide +kernel

theorem fieldLineageContract_iff_user : ∃ record, ∀ em : Emission Platform.plain
    Enumeration.standing (asciiBytes "user=bob") userSpec.1 "user.name",
      em.record = record ∧ (fieldLineageContract.valid (em.document userAllocation) = true ↔
        em.KeepsTransformations userAllocation) := by
  obtain ⟨res, hparse, hrecord⟩ := parse_user
  exact ⟨userRecord, (fieldLineageContract_iff _ _ _ userSpec userAllocation hparse hrecord
    validate_userRecord).2⟩

/-- The transformations of a field without any are `null` in the document of its record. -/
theorem not_fieldLineageContract_user :
    ¬ ∀ (p : Platform) (e : Enumeration) (raw : List UInt8) (spec : ValidSpec)
      (alloc : Allocation spec.1) (res : ParseResult), parse p e raw spec.1 = .ok res →
        ∀ path record, res.lineage.get? path = some record → record.validate = .ok () →
          ∀ em : Emission p e raw spec.1 path,
            fieldLineageContract.valid (em.document alloc) = true := by
  intro hall
  obtain ⟨res, hparse, hrecord⟩ := parse_user
  have hbody : parseBody Enumeration.standing (ofBytes (asciiBytes "user=bob")) userSpec.1 =
      .ok (Dict.ofList [("user", .str "bob")]) := by
    decide +kernel
  have hwriter : LastWriter Platform.plain Enumeration.standing
      (Dict.ofList [("user", .str "bob")])
      (Enumeration.standing.entries .fields userSpec.1.fields)
      ("user", plainField "string" "user.name") "user" (.str "bob") (.str "bob") :=
    ⟨by decide +kernel, by decide +kernel, [], [], by decide +kernel, by simp⟩
  let em : Emission Platform.plain Enumeration.standing (asciiBytes "user=bob") userSpec.1
      "user.name" := ⟨_, _, _, _, _, hbody, hwriter, rfl⟩
  have hem : em.record.validate = .ok () := by
    have hrecord' : em.record = userRecord := by
      show lineageOf Platform.plain userSpec.1 (ofBytes (asciiBytes "user=bob")) "user"
        (plainField "string" "user.name") (.str "bob") = userRecord
      decide +kernel
    rw [hrecord', validate_userRecord]
  have hvalid := hall _ _ _ userSpec userAllocation res hparse _ _ hrecord validate_userRecord em
  rw [Emission.document, FieldLineage.valid_toJSON_iff hem,
    em.nilTransformations_eq_false_iff userAllocation userSpec.2 hem] at hvalid
  rcases hvalid with ⟨op, hop, -⟩ | ⟨-, hdeclared⟩
  · cases hop
  · cases hdeclared

end User

end Ulpf.ParserRuntime
