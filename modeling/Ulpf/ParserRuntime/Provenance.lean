import Ulpf.ParserRuntime.NoLoss

/-!
What the lineage records of a run point at. A record is attached to a path by
the last field that writes there: the one `BuildFieldLineage` makes, or the
fallback of the loop when that one is refused.
-/

namespace Ulpf.ParserRuntime

open Ulpf.Lib
open Ulpf.Go

/-- A text occurs in a payload up to case. -/
def Occurs (u : Unicode) (rawText s : String) : Prop :=
  Text.contains (toLower u rawText) (toLower u s) = true

instance (u : Unicode) (rawText s : String) : Decidable (Occurs u rawText s) :=
  inferInstanceAs (Decidable (_ = true))

/-- The text of a value is not empty and occurs in the payload. -/
def ValueOccurs (u : Unicode) (rawText : String) (val : Value) : Prop :=
  sprint val ≠ "" ∧ Occurs u rawText (sprint val)

instance (u : Unicode) (rawText : String) (val : Value) : Decidable (ValueOccurs u rawText val) :=
  inferInstanceAs (Decidable (_ ∧ _))

section Records

theorem FieldLineage.validate_eq_ok_iff (fl : FieldLineage) : fl.validate = .ok () ↔
    matchString mapToRegex fl.normalizedPath = true ∧ fl.rawLocator.type ∈ validLocatorTypes ∧
      trimSpace fl.rawLocator.value ≠ "" ∧ fl.extractor ∈ validExtractors ∧
      (∀ op ∈ fl.transformations, op ∈ validTransformations) ∧
      (0 ≤ fl.mappingScore ∧ fl.mappingScore ≤ 1) ∧ fl.mappingEvidence ≠ [] ∧
      (∀ item ∈ fl.mappingEvidence, item ∈ validEvidence) ∧
      fl.reviewStatus ∈ validReviewStatuses := by
  have hnone (valid items : List String) :
      (items.find? fun x => !valid.contains x) = none ↔ ∀ x ∈ items, x ∈ valid := by
    simp [List.find?_eq_none]
  have hscore : (0 ≤ fl.mappingScore ∧ fl.mappingScore ≤ 1) ↔
      ¬ (fl.mappingScore < 0 ∨ 1 < fl.mappingScore) := by
    rw [not_or, not_lt, not_lt]
  rw [FieldLineage.validate, ← hnone validTransformations, ← hnone validEvidence, hscore]
  cases fl.transformations.find? fun op => !validTransformations.contains op with
  | some op => split_ifs <;> simp
  | none =>
      cases fl.mappingEvidence.find? fun item => !validEvidence.contains item with
      | some item => split_ifs <;> simp
      | none => split_ifs <;> simp_all

/-- The place of a raw field: a pointer into JSON, or else a key. -/
def locatorOf (bodyParserType sourceField : String) : RawLocator :=
  if bodyParserType = "json" then ⟨"json_pointer", "/" ++ Text.replaceAll sourceField "." "/"⟩
  else ⟨"key", sourceField⟩

/-- Whether a raw field has a locator: always where the format has an address
for it, and else when it or the value made of it occurs. -/
def Located (u : Unicode) (bodyParserType rawText sourceField : String) (val : Value) : Prop :=
  bodyParserType = "json" ∨ bodyParserType = "csv" ∨ Occurs u rawText sourceField ∨
    ValueOccurs u rawText val

instance (u : Unicode) (bodyParserType rawText sourceField : String) (val : Value) :
    Decidable (Located u bodyParserType rawText sourceField val) :=
  inferInstanceAs (Decidable (_ ∨ _))

variable {u : Unicode} {bodyParserType rawText sourceField path : String} {val : Value}
  {transformations : List String}

/-- Body formats whose fields have no address: they are searched for. -/
def textBodies : List String := ["key_value", "cef", "leef", "syslog"]

theorem locate_of_text (htype : bodyParserType ∈ textBodies) :
    locate u (normalizeExtractor bodyParserType) sourceField rawText val =
      if Text.contains (toLower u rawText) (toLower u sourceField) then .ok ⟨"key", sourceField⟩
      else if sprint val ≠ "" ∧ Text.contains (toLower u rawText) (toLower u (sprint val)) then
        .ok ⟨"key", sourceField⟩
      else .error (.notFound sourceField (sprint val)) := by
  simp only [textBodies, List.mem_cons, List.not_mem_nil, or_false] at htype
  rcases htype with rfl | rfl | rfl | rfl <;> rfl

theorem bodyType_cases (htype : bodyParserType ∈ validBodyTypes) :
    bodyParserType = "json" ∨ bodyParserType = "csv" ∨ bodyParserType ∈ textBodies := by
  simp only [validBodyTypes, textBodies, List.mem_cons, List.not_mem_nil, or_false] at htype ⊢
  tauto

theorem not_addressed_of_text (htype : bodyParserType ∈ textBodies) :
    bodyParserType ≠ "json" ∧ bodyParserType ≠ "csv" := by
  constructor <;> rintro rfl <;> revert htype <;> decide

theorem locate_eq (htype : bodyParserType ∈ validBodyTypes) :
    locate u (normalizeExtractor bodyParserType) sourceField rawText val =
      if Located u bodyParserType rawText sourceField val then
        .ok (locatorOf bodyParserType sourceField)
      else .error (.notFound sourceField (sprint val)) := by
  obtain rfl | rfl | htext := bodyType_cases htype
  · have hlocated : Located u "json" rawText sourceField val := Or.inl rfl
    rw [if_pos hlocated]
    rfl
  · have hlocated : Located u "csv" rawText sourceField val := Or.inr (Or.inl rfl)
    rw [if_pos hlocated]
    rfl
  · obtain ⟨hjson, hcsv⟩ := not_addressed_of_text htext
    rw [locate_of_text htext, locatorOf, if_neg hjson]
    simp only [Located, hjson, hcsv, false_or, Occurs, ValueOccurs]
    split_ifs <;> simp_all

/-- The record of a field whose value occurs in the payload. -/
def locatedLineage (normalizedPath sourceField bodyParserType : String)
    (transformations : List String) : FieldLineage :=
  { normalizedPath
    rawLocator := locatorOf bodyParserType sourceField
    extractor := normalizeExtractor bodyParserType
    transformations := transformations.filter validTransformations.contains
    mappingScore := 1
    mappingEvidence := ["alias_match", "type_match", "event_family_context"]
    reviewStatus := "AUTO_ACCEPTED" }

theorem normalizeExtractor_mem (bodyParserType : String) :
    normalizeExtractor bodyParserType ∈ validExtractors := by
  unfold normalizeExtractor
  split <;> decide

theorem locatorOf_type_mem (bodyParserType sourceField : String) :
    (locatorOf bodyParserType sourceField).type ∈ validLocatorTypes := by
  rw [locatorOf]
  split
  · show "json_pointer" ∈ validLocatorTypes
    decide
  · show "key" ∈ validLocatorTypes
    decide

theorem validate_locatedLineage_iff (hpath : matchString mapToRegex path = true) :
    (locatedLineage path sourceField bodyParserType transformations).validate = .ok () ↔
      trimSpace (locatorOf bodyParserType sourceField).value ≠ "" := by
  rw [FieldLineage.validate_eq_ok_iff]
  constructor
  · rintro ⟨-, -, hvalue, -⟩
    exact hvalue
  · intro hvalue
    refine ⟨hpath, locatorOf_type_mem _ _, hvalue, normalizeExtractor_mem _, ?_, ?_, ?_, ?_, ?_⟩
    · intro op hop
      simpa using (List.mem_filter.mp hop).2
    · exact ⟨zero_le_one, le_refl 1⟩
    · exact List.cons_ne_nil _ _
    · show ∀ item ∈ ["alias_match", "type_match", "event_family_context"], item ∈ validEvidence
      decide
    · show "AUTO_ACCEPTED" ∈ validReviewStatuses
      decide

theorem validate_fallbackLineage_iff (hpath : matchString mapToRegex path = true) :
    (fallbackLineage path sourceField bodyParserType transformations).validate = .ok () ↔
      trimSpace sourceField ≠ "" ∧ ∀ op ∈ transformations, op ∈ validTransformations := by
  rw [FieldLineage.validate_eq_ok_iff]
  constructor
  · rintro ⟨-, -, hvalue, -, hops, -⟩
    exact ⟨hvalue, hops⟩
  · rintro ⟨hvalue, hops⟩
    refine ⟨hpath, ?_, hvalue, normalizeExtractor_mem _, hops, ?_, ?_, ?_, ?_⟩
    · show "key" ∈ validLocatorTypes
      decide
    · exact ⟨zero_le_one, le_refl 1⟩
    · exact List.cons_ne_nil _ _
    · show ∀ item ∈ ["type_match"], item ∈ validEvidence
      decide
    · show "AUTO_ACCEPTED" ∈ validReviewStatuses
      decide

theorem buildFieldLineage_of_located (htype : bodyParserType ∈ validBodyTypes)
    (h : Located u bodyParserType rawText sourceField val) :
    buildFieldLineage u path sourceField bodyParserType transformations rawText val =
      ((locatedLineage path sourceField bodyParserType transformations).validate).map
        fun _ => locatedLineage path sourceField bodyParserType transformations := by
  rw [buildFieldLineage, locate_eq htype, if_pos h]
  show (do
    (locatedLineage path sourceField bodyParserType transformations).validate
    return locatedLineage path sourceField bodyParserType transformations) = _
  cases (locatedLineage path sourceField bodyParserType transformations).validate <;> rfl

theorem buildFieldLineage_of_not_located (htype : bodyParserType ∈ validBodyTypes)
    (h : ¬ Located u bodyParserType rawText sourceField val) :
    buildFieldLineage u path sourceField bodyParserType transformations rawText val =
      .error (.notFound sourceField (sprint val)) := by
  rw [buildFieldLineage, locate_eq htype, if_neg h]
  rfl

theorem validate_ne_notFound (fl : FieldLineage) (field text : String) :
    fl.validate ≠ .error (.notFound field text) := by
  rw [FieldLineage.validate]
  cases fl.transformations.find? fun op => !validTransformations.contains op with
  | some op => split_ifs <;> simp
  | none =>
      cases fl.mappingEvidence.find? fun item => !validEvidence.contains item with
      | some item => split_ifs <;> simp
      | none => split_ifs <;> simp

end Records

section Lookups

variable {p : Platform} {spec : ParserSpec} {rawStr srcField : String} {fieldSpec : FieldSpec}
  {typedVal : Value}

/-- A field that is located and not blank has its own record, another one the
fallback. -/
theorem lineageOf_eq (htype : spec.bodyParser.type ∈ validBodyTypes)
    (hpath : matchString mapToRegex fieldSpec.mapTo = true) :
    lineageOf p spec rawStr srcField fieldSpec typedVal =
      if Located p.unicode spec.bodyParser.type rawStr srcField typedVal ∧
          trimSpace (locatorOf spec.bodyParser.type srcField).value ≠ "" then
        locatedLineage fieldSpec.mapTo srcField spec.bodyParser.type fieldSpec.transformations
      else
        fallbackLineage fieldSpec.mapTo srcField spec.bodyParser.type
          fieldSpec.transformations := by
  rw [lineageOf]
  by_cases hlocated : Located p.unicode spec.bodyParser.type rawStr srcField typedVal
  · rw [buildFieldLineage_of_located htype hlocated]
    have hvalid : (locatedLineage fieldSpec.mapTo srcField spec.bodyParser.type
        fieldSpec.transformations).validate = .ok () ↔
          trimSpace (locatorOf spec.bodyParser.type srcField).value ≠ "" :=
      validate_locatedLineage_iff hpath
    by_cases hvalue : trimSpace (locatorOf spec.bodyParser.type srcField).value = ""
    · rw [if_neg (fun h => h.2 hvalue)]
      cases hresult : (locatedLineage fieldSpec.mapTo srcField spec.bodyParser.type
          fieldSpec.transformations).validate with
      | ok _ => exact absurd hvalue (hvalid.mp hresult)
      | error err => rfl
    · rw [if_pos ⟨hlocated, hvalue⟩, hvalid.mpr hvalue]
      rfl
  · rw [buildFieldLineage_of_not_located htype hlocated, if_neg (fun h => hlocated h.1)]

theorem locatorOf_json_ne (sourceField : String) :
    trimSpace (locatorOf "json" sourceField).value ≠ "" := by
  intro h
  have hnil : Text.trim Unicode.isSpace
      ("/" ++ Text.replaceAll sourceField "." "/").toList = [] := by
    simpa [trimSpace, Text.onChars, locatorOf] using congrArg String.toList h
  have hslash := (Text.trim_eq_nil_iff _ _).mp hnil '/' (by simp)
  revert hslash
  decide

/-- The record of a field is valid unless the raw field is blank, or the field
is not located and has a transformation that may not stand in a record. -/
theorem validate_lineageOf_iff (htype : spec.bodyParser.type ∈ validBodyTypes)
    (hpath : matchString mapToRegex fieldSpec.mapTo = true) :
    (lineageOf p spec rawStr srcField fieldSpec typedVal).validate = .ok () ↔
      spec.bodyParser.type = "json" ∨ (trimSpace srcField ≠ "" ∧
        (Located p.unicode spec.bodyParser.type rawStr srcField typedVal ∨
          ∀ op ∈ fieldSpec.transformations, op ∈ validTransformations)) := by
  rw [lineageOf_eq htype hpath]
  by_cases hjson : spec.bodyParser.type = "json"
  · have hlocated : Located p.unicode spec.bodyParser.type rawStr srcField typedVal := Or.inl hjson
    have hvalue : trimSpace (locatorOf spec.bodyParser.type srcField).value ≠ "" := by
      rw [hjson]
      exact locatorOf_json_ne srcField
    rw [if_pos ⟨hlocated, hvalue⟩, validate_locatedLineage_iff hpath]
    exact iff_of_true hvalue (Or.inl hjson)
  · have hlocator : locatorOf spec.bodyParser.type srcField = ⟨"key", srcField⟩ := by
      rw [locatorOf, if_neg hjson]
    rw [hlocator]
    split
    · rename_i h
      rw [validate_locatedLineage_iff hpath, hlocator]
      exact iff_of_true h.2 (Or.inr ⟨h.2, Or.inl h.1⟩)
    · rename_i h
      rw [validate_fallbackLineage_iff hpath]
      constructor
      · rintro ⟨hvalue, hops⟩
        exact Or.inr ⟨hvalue, Or.inr hops⟩
      · rintro (hjson' | ⟨hvalue, hlocated | hops⟩)
        · exact absurd hjson' hjson
        · exact absurd ⟨hlocated, hvalue⟩ h
        · exact ⟨hvalue, hops⟩

end Lookups

section Writers

variable (p : Platform) (e : Enumeration)

/-- A field writes to its canonical path, and none after it does: the raw field
it takes, and the value it makes. -/
structure LastWriter (rawFields : RawFields) (fields : List (String × FieldSpec))
    (field : String × FieldSpec) (k : String) (val typedVal : Value) : Prop where
  resolves : resolve p e rawFields field.1 = some (k, val)
  coerces : coerce p field.2 (enumOrders e field.1 field.2) val = .ok typedVal
  last : ∃ before after, fields = before ++ field :: after ∧
    ∀ later ∈ after, later.2.mapTo = field.2.mapTo → ∀ k v, ¬ Makes p e rawFields later k v

variable {p e} {spec : ParserSpec} {rawStr : String} {rawFields : RawFields}

theorem lastWrite_of_lastWriter {field : String × FieldSpec} {k : String} {val typedVal : Value}
    (h : LastWriter p e rawFields (e.entries .fields spec.fields) field k val typedVal) :
    lastWrite p e spec rawStr rawFields field.2.mapTo =
      some (typedVal, lineageOf p spec rawStr k field.2 typedVal) := by
  obtain ⟨before, after, hfields, hlast⟩ := h.last
  rw [lastWrite_eq_some_iff]
  refine ⟨before, field, after, hfields, rfl, ?_, ?_⟩
  · exact written_eq_some_iff.mpr ⟨k, val, h.resolves, h.coerces, rfl⟩
  · intro later hlater hpath
    exact (written_eq_none_iff spec rawStr).mpr (hlast later hlater hpath)

variable (rawStr) in
theorem get?_of_lastWriter {field : String × FieldSpec} {k : String} {val typedVal : Value}
    (h : LastWriter p e rawFields (e.entries .fields spec.fields) field k val typedVal) :
    (mapRawFields p e spec rawStr rawFields).extracted.get? field.2.mapTo = some typedVal ∧
      (mapRawFields p e spec rawStr rawFields).lineage.get? field.2.mapTo =
        some (lineageOf p spec rawStr k field.2 typedVal) := by
  rw [get?_extracted, get?_lineage, lastWrite_of_lastWriter h]
  exact ⟨rfl, rfl⟩

theorem exists_lastWriter {path : String} {record : FieldLineage}
    (h : (mapRawFields p e spec rawStr rawFields).lineage.get? path = some record) :
    ∃ field k val typedVal,
      LastWriter p e rawFields (e.entries .fields spec.fields) field k val typedVal ∧
        field.2.mapTo = path ∧
          (mapRawFields p e spec rawStr rawFields).extracted.get? path = some typedVal ∧
            record = lineageOf p spec rawStr k field.2 typedVal := by
  rw [get?_lineage, Option.map_eq_some_iff] at h
  obtain ⟨⟨typedVal, lineage⟩, hwrite, rfl⟩ := h
  obtain ⟨before, field, after, hfields, hpath, hw, hlast⟩ := lastWrite_eq_some_iff.mp hwrite
  obtain ⟨k, val, hresolve, hcoerce, hlineage⟩ := written_eq_some_iff.mp hw
  refine ⟨field, k, val, typedVal, ⟨hresolve, hcoerce, before, after, hfields, ?_⟩, hpath, ?_,
    hlineage⟩
  · intro later hlater hlaterPath
    exact (written_eq_none_iff spec rawStr).mp (hlast later hlater (hlaterPath.trans hpath))
  · rw [get?_extracted, hwrite]
    rfl

theorem mem_fields_of_lastWriter {field : String × FieldSpec} {k : String} {val typedVal : Value}
    (h : LastWriter p e rawFields (e.entries .fields spec.fields) field k val typedVal) :
    field ∈ spec.fields.entries := by
  obtain ⟨before, after, hfields, -⟩ := h.last
  apply (e.entries_perm .fields spec.fields).mem_iff.mp
  rw [hfields]
  exact List.mem_append_right _ List.mem_cons_self

end Writers

section Evidence

variable (p : Platform) (e : Enumeration)

/-- A record names a raw field that occurs in the payload, or one whose value
occurs there. -/
def NamesEvidence (rawText : String) (rawFields : RawFields) (record : FieldLineage) : Prop :=
  Occurs p.unicode rawText record.rawLocator.value ∨
    ∃ val, rawFields.get? record.rawLocator.value = some val ∧ ValueOccurs p.unicode rawText val

/-- `BuildFieldLineage` refuses a field because neither its name nor its value
occurs in the payload. -/
def Refuses (rawText path sourceField bodyParserType : String) (typedVal : Value) : Prop :=
  ∀ transformations, buildFieldLineage p.unicode path sourceField bodyParserType transformations
    rawText typedVal = .error (.notFound sourceField (sprint typedVal))

/-- No accepted record is made up, and no refused field has a record of full
confidence. -/
def NotFabricated (raw : List UInt8) (spec : ParserSpec) : Prop :=
  ∀ res, parse p e raw spec = .ok res → ∀ rawFields,
    parseBody e (ofBytes raw) spec = .ok rawFields →
      ∀ path record, res.lineage.get? path = some record →
        (record.reviewStatus = "AUTO_ACCEPTED" →
          NamesEvidence p (ofBytes raw) rawFields record) ∧
        ∀ typedVal, res.extracted.get? path = some typedVal →
          Refuses p (ofBytes raw) path record.rawLocator.value spec.bodyParser.type typedVal →
            record.mappingScore ≠ 1

/-- Every field that is the last to write takes a raw field whose name occurs,
or else whose value occurs both as it stands and as the field converts it. -/
def Evidenced (raw : List UInt8) (spec : ParserSpec) : Prop :=
  raw ≠ [] → ∀ rawFields, parseBody e (ofBytes raw) spec = .ok rawFields →
    ∀ field k val typedVal,
      LastWriter p e rawFields (e.entries .fields spec.fields) field k val typedVal →
        Occurs p.unicode (ofBytes raw) k ∨
          (ValueOccurs p.unicode (ofBytes raw) val ∧ ValueOccurs p.unicode (ofBytes raw) typedVal)

abbrev TextSpec := { spec : ValidSpec // spec.1.bodyParser.type ∈ textBodies }

variable {p e} {spec : ParserSpec} {rawStr k : String} {fieldSpec : FieldSpec} {typedVal : Value}

theorem refuses_iff {path : String} (htype : spec.bodyParser.type ∈ validBodyTypes) :
    Refuses p rawStr path k spec.bodyParser.type typedVal ↔
      ¬ Located p.unicode spec.bodyParser.type rawStr k typedVal := by
  constructor
  · intro hrefuses hlocated
    have hbuild := hrefuses []
    rw [buildFieldLineage_of_located htype hlocated] at hbuild
    cases hvalid : (locatedLineage path k spec.bodyParser.type []).validate with
    | ok _ =>
        rw [hvalid] at hbuild
        cases hbuild
    | error err =>
        rw [hvalid] at hbuild
        cases hbuild
        exact validate_ne_notFound _ _ _ hvalid
  · intro hlocated transformations
    exact buildFieldLineage_of_not_located htype hlocated

theorem located_iff_of_text (htype : spec.bodyParser.type ∈ textBodies) :
    Located p.unicode spec.bodyParser.type rawStr k typedVal ↔
      Occurs p.unicode rawStr k ∨ ValueOccurs p.unicode rawStr typedVal := by
  obtain ⟨hjson, hcsv⟩ := not_addressed_of_text htype
  simp [Located, hjson, hcsv]

variable (p rawStr k typedVal) in
theorem lineageOf_of_text (htext : spec.bodyParser.type ∈ textBodies)
    (htype : spec.bodyParser.type ∈ validBodyTypes)
    (hpath : matchString mapToRegex fieldSpec.mapTo = true) :
    (lineageOf p spec rawStr k fieldSpec typedVal).rawLocator.value = k ∧
      (lineageOf p spec rawStr k fieldSpec typedVal).reviewStatus = "AUTO_ACCEPTED" ∧
        (lineageOf p spec rawStr k fieldSpec typedVal).mappingScore = 1 := by
  rw [lineageOf_eq htype hpath]
  split
  · refine ⟨?_, rfl, rfl⟩
    show (locatorOf spec.bodyParser.type k).value = k
    rw [locatorOf, if_neg (not_addressed_of_text htext).1]
  · exact ⟨rfl, rfl, rfl⟩

end Evidence

/-- Lineage is not made up exactly when every field that is the last to write
has the payload as its evidence. -/
theorem notFabricated_iff (p : Platform) (e : Enumeration) (raw : List UInt8) (spec : TextSpec) :
    NotFabricated p e raw spec.1.1 ↔ Evidenced p e raw spec.1.1 := by
  obtain ⟨⟨spec, haccepted⟩, htext⟩ := spec
  have htype := haccepted.bodyParserType
  show NotFabricated p e raw spec ↔ Evidenced p e raw spec
  constructor
  · intro hall hraw rawFields hbody field k val typedVal hwriter
    have hparse := parse_eq_ok_iff (p := p).mpr ⟨hraw, rawFields, hbody, rfl⟩
    have hpath := (haccepted.fields field (mem_fields_of_lastWriter hwriter)).mapped
    obtain ⟨hextracted, hlineage⟩ := get?_of_lastWriter (ofBytes raw) hwriter
    obtain ⟨hnames, hconfident⟩ := hall _ hparse rawFields hbody _ _ hlineage
    obtain ⟨hvalue, hstatus, hscore⟩ := lineageOf_of_text p (ofBytes raw) k typedVal htext
      htype hpath
    have hlocated := mt (refuses_iff htype).mpr
      (fun hrefuses => hconfident typedVal hextracted (hvalue.symm ▸ hrefuses) hscore)
    rw [not_not, located_iff_of_text htext] at hlocated
    obtain hname | ⟨val', hget, hoccurs⟩ := hnames hstatus
    · rw [hvalue] at hname
      exact Or.inl hname
    · rw [hvalue, get?_of_resolve hwriter.resolves] at hget
      cases hget
      obtain hname | htyped := hlocated
      · exact Or.inl hname
      · exact Or.inr ⟨hoccurs, htyped⟩
  · intro hevidenced res hparse rawFields hbody path record hrecord
    obtain ⟨hraw, rawFields', hbody', rfl⟩ := parse_eq_ok_iff.mp hparse
    rw [hbody] at hbody'
    cases hbody'
    obtain ⟨field, k, val, typedVal, hwriter, rfl, hextracted, rfl⟩ := exists_lastWriter hrecord
    have hpath := (haccepted.fields field (mem_fields_of_lastWriter hwriter)).mapped
    obtain ⟨hvalue, hstatus, hscore⟩ := lineageOf_of_text p (ofBytes raw) k typedVal htext
      htype hpath
    have hevidence := hevidenced hraw rawFields hbody field k val typedVal hwriter
    constructor
    · intro _
      rw [NamesEvidence, hvalue]
      obtain hname | ⟨hoccurs, -⟩ := hevidence
      · exact Or.inl hname
      · exact Or.inr ⟨val, get?_of_resolve hwriter.resolves, hoccurs⟩
    · intro typedVal' hextracted' hrefuses
      rw [hextracted] at hextracted'
      cases hextracted'
      rw [hvalue, refuses_iff htype, located_iff_of_text htext] at hrefuses
      obtain hname | ⟨-, htyped⟩ := hevidence
      · exact absurd (Or.inl hname) hrefuses
      · exact absurd (Or.inr htyped) hrefuses

section Severity

/-- The severity of a syslog message, a number computed from its priority. -/
def severitySpec : TextSpec :=
  ⟨⟨plainSpec "syslog" [("severity", plainField "integer" "event.severity")],
    (validateParserSpec_eq_ok_iff _).mp (by decide +kernel)⟩, by decide⟩

/-- The record of the severity points at a field that is not in the payload. -/
theorem not_notFabricated_severity : ¬ NotFabricated Platform.plain Enumeration.standing
    (asciiBytes "<34>link down") severitySpec.1.1 := by
  intro hall
  have hbody : parseBody Enumeration.standing (ofBytes (asciiBytes "<34>link down"))
      severitySpec.1.1 = .ok (Dict.ofList [("prival", .num (.int 34)), ("facility", .num (.int 4)),
        ("severity", .num (.int 2)), ("message", .str "link down")]) := by
    decide +kernel
  have hrecord : ∃ record, (mapRawFields Platform.plain Enumeration.standing severitySpec.1.1
      (ofBytes (asciiBytes "<34>link down")) (Dict.ofList [("prival", .num (.int 34)),
        ("facility", .num (.int 4)), ("severity", .num (.int 2)),
        ("message", .str "link down")])).lineage.get? "event.severity" = some record ∧
      record.rawLocator.value = "severity" ∧ record.reviewStatus = "AUTO_ACCEPTED" := by
    refine ⟨fallbackLineage "event.severity" "severity" "syslog" [], ?_, rfl, rfl⟩
    decide +kernel
  obtain ⟨record, hget, hlocator, hstatus⟩ := hrecord
  have hnames :=
    (hall _ (parse_eq_ok_iff.mpr ⟨by decide, _, hbody, rfl⟩) _ hbody _ _ hget).1 hstatus
  rw [NamesEvidence, hlocator] at hnames
  obtain hname | ⟨val, hval, hoccurs⟩ := hnames
  · revert hname
    decide +kernel
  · have hseverity : val = .num (.int 2) := by
      apply Option.some.inj
      rw [← hval]
      decide +kernel
    rw [hseverity] at hoccurs
    revert hoccurs
    decide +kernel

end Severity

end Ulpf.ParserRuntime
