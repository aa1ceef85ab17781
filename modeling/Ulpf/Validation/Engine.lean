import Ulpf.Passport.Passport
import Ulpf.Shadow.Runner
import Ulpf.Validation.Validator

/-!
`ValidationEngine.validate_event`: a raw event is extracted and mapped along a parser
spec, the result is measured against what was expected of it, and the report becomes
the evidence of a passport. Floats are the binary64 values Python computes, as exact
rationals.
-/

namespace Ulpf.Validation.Engine

open Ulpf.Lib
open Ulpf.Lib.Binary64 (fl roundTo)
open Ulpf.Python
open Ulpf.SourceProfiler
open Ulpf.Shadow (dictKey enumValue formatHint)
open Ulpf.Passport

section Extraction

/-- `x.lower()` -/
def lowered (u : Unicode) : PyVal → Except PyError String
  | .str s => return lower u s
  | _ => throw .attributeError

/-- The keys of a row of a given length; `none` where indexing the headers or using
one as a key raises an exception. -/
def csvKeys (headers : PyVal) (n : ℕ) : Option (List PyVal) :=
  let columns := (List.range n).map fun i => .str ("column_" ++ Text.numeral (i + 1))
  if !headers.truthy then some columns
  else match headers with
    | .arr items =>
        if items.length ≠ n then some columns
        else if items.any fun item => item matches .arr _ | .obj _ then none
        else some items
    | .str s =>
        if s.toList.length ≠ n then some columns
        else some (s.toList.map fun c => .str (String.ofList [c]))
    | .obj members => if members.length ≠ n then some columns else none
    | _ => none

/-- `CSVParser.parse_line` for any delimiter and headers, restricted to the fields
whose key is a string: no other field can be asked for. -/
def parseCsv (rawEvent : String) (delim headers : PyVal) : Option Record :=
  match delim with
  | .str d =>
      match d.toList with
      | [sep] =>
          match Csv.readRow sep (stripChars rawEvent.toList) with
          | none | some [] => none
          | some row => (csvKeys headers row.length).map fun keys =>
              Dict.ofList ((keys.zip row).filterMap fun
                | (.str k, v) => some (k, .str (strip v))
                | _ => none)
      | _ => none
  | _ => none

/-- The fields of a syslog line whose message is key-value text. -/
def extractSyslogPairs (u : Unicode) (rawEvent : String) : Except PyError Record := do
  let parsed ← Syslog5424Parser.parse u rawEvent
  match parsed.orElse fun _ => Syslog3164Parser.parse u rawEvent with
  | none => return Dict.empty
  | some syslogData =>
      match syslogData.get? "message" with
      | some (.str msgBody) =>
          if msgBody = "" then return syslogData
          else return syslogData.update (KeyValueParser.parse msgBody).entries
      | _ => return syslogData

/-- `extracted_raw` -/
def extractRaw (u : Unicode) (rawEvent : String) (parserSpec : PyVal) : Except PyError Record := do
  let matchInfo ← parserSpec.getD "match" (.obj [])
  let formatStr ← lowered u (← matchInfo.getD "format" (.str "unknown"))
  let bodyParserSpec ← parserSpec.getD "body_parser" (.obj [])
  let bpType ← lowered u (← bodyParserSpec.getD "type" (.str ""))
  if bpType = "key_value" then
    if Text.contains formatStr "syslog" && Text.hasPrefix (strip rawEvent) "<" then
      extractSyslogPairs u rawEvent
    else return KeyValueParser.parse rawEvent
  else if bpType = "csv" then
    let delim ← bodyParserSpec.getD "delimiter" (.str ",")
    let headers ← bodyParserSpec.getD "headers" .null
    return (parseCsv rawEvent delim headers).getD Dict.empty
  else if bpType = "json" then return (JSONParser.parse rawEvent).getD Dict.empty
  else if bpType = "cef" then return (CEFParser.parse u rawEvent).getD Dict.empty
  else if bpType = "leef" then return (← LEEFParser.parse u rawEvent).getD Dict.empty
  else
    let (res, _) ← parseRecord u rawEvent (formatHint formatStr) none none
    return res.getD Dict.empty

end Extraction

section Mapping

variable (i : Interpreter)

/-- `for t in transforms` -/
def iterate : PyVal → Except PyError (List PyVal)
  | .arr items => return items
  | .str s => return s.toList.map fun c => .str (String.ofList [c])
  | .obj members => return members.map fun m => .str m.1
  | _ => throw .typeError

/-- The transformations of a field definition that may be any document. -/
def applyTransformations (transforms val : PyVal) : Except PyError PyVal :=
  match val with
  | .str s => do
      let ops ← iterate transforms
      return .str (ops.foldl (fun acc op =>
        match op with
        | .str name => applyTransform i name acc
        | _ => acc) s)
  | val => return val

/-- The cast of a value to the type of its field. -/
def castValue (tType transforms val : PyVal) : Except PyError PyVal := do
  if tType.eq (.str "integer") then orKeep val PyVal.int (toInt i val)
  else if tType.eq (.str "float") then orKeep val PyVal.float (toFloat i val)
  else if tType.eq (.str "timestamp") then toTimestamp i val
  else if ← PyVal.contains transforms "timestamp" then toTimestamp i val
  else return val

/-- `mapped_canonical` and `mapped_raw_keys` -/
structure Mapped where
  canonical : Dict PyVal PyVal
  rawKeys : List String

/-- One round of the loop over the fields of the spec. -/
def mapField (extractedRaw : Record) (s : Mapped) (field : String × PyVal) :
    Except PyError Mapped :=
  match extractedRaw.get? field.1 with
  | none => return s
  | some val => do
      let canonicalK ← field.2.getD "map_to" (.str field.1)
      let val ← enumValue (← field.2.getD "enum" (.obj [])) val
      let transforms ← field.2.getD "transformations" (.arr [])
      let val ← applyTransformations i transforms val
      let val ← castValue i (← field.2.getD "type" .null) transforms val
      let key ← dictKey canonicalK
      return ⟨s.canonical.set key val, field.1 :: s.rawKeys⟩

/-- `mapped_canonical` and `unmapped_fields` -/
def mapEvent (extractedRaw : Record) (fieldsSpec : PyVal) :
    Except PyError (Dict PyVal PyVal × Record) :=
  match fieldsSpec with
  | .obj fields => do
      let s ← fields.foldlM (mapField i extractedRaw) ⟨Dict.empty, []⟩
      return (s.canonical, extractedRaw.filterKeys fun k => !s.rawKeys.contains k)
  | _ => throw .attributeError

end Mapping

section Typed

variable (i : Interpreter)

/-- The entry of a field as the document holds it. -/
def fieldValue (f : FieldDef) : PyVal :=
  .obj ((f.type.map fun t => ("type", .str t)).toList ++
    (f.mapTo.map fun path => ("map_to", .str path)).toList ++
    (f.enum.map fun table => ("enum", .obj (table.entries.map fun e => (e.1, .str e.2)))).toList ++
    (f.transformations.map fun ops => ("transformations", .arr (ops.map Json.str))).toList)

theorem getD_fieldValue (f : FieldDef) (default : PyVal) :
    (fieldValue f).getD "type" default = .ok ((f.type.map .str).getD default) ∧
    (fieldValue f).getD "map_to" default = .ok ((f.mapTo.map .str).getD default) ∧
    (fieldValue f).getD "enum" default =
      .ok ((f.enum.map fun table => .obj (table.entries.map fun e => (e.1, .str e.2))).getD
        default) ∧
    (fieldValue f).getD "transformations" default =
      .ok ((f.transformations.map fun ops => .arr (ops.map Json.str)).getD default) := by
  obtain ⟨type, mapTo, enum, transformations⟩ := f
  cases type <;> cases mapTo <;> cases enum <;> cases transformations <;>
    simp [fieldValue, PyVal.getD, lookup_cons]

theorem enumValue_fieldValue (f : FieldDef) (raw : PyVal) :
    (do enumValue (← (fieldValue f).getD "enum" (.obj [])) raw) = .ok (applyEnum f raw) := by
  rw [(getD_fieldValue f _).2.2.1, ok_bind]
  cases raw with
  | str s =>
      rw [applyEnum]
      cases f.enum with
      | none => rfl
      | some table =>
          simp only [Option.map_some, Option.getD_some, enumValue, PyVal.contains, PyVal.getItem,
            ok_bind, lookup_map_snd, Option.bind_some, Dict.get?]
          cases lookup s table.entries <;> rfl
  | _ => rfl

theorem applyTransformations_fieldValue (f : FieldDef) (val : PyVal) :
    applyTransformations i
      ((f.transformations.map fun ops => .arr (ops.map Json.str)).getD (.arr [])) val =
        .ok (applyTransforms i (f.transformations.getD []) val) := by
  cases val with
  | str s =>
      cases f.transformations with
      | none => rfl
      | some ops =>
          simp only [applyTransformations, applyTransforms, Option.map_some, Option.getD_some,
            iterate, pure, Except.pure, ok_bind, List.foldl_map]
  | _ => rfl

theorem castValue_fieldValue (f : FieldDef) (val : PyVal) :
    castValue i ((f.type.map .str).getD .null)
      ((f.transformations.map fun ops => .arr (ops.map Json.str)).getD (.arr [])) val =
        cast i f val := by
  have hcontains : PyVal.contains
      ((f.transformations.map fun ops => .arr (ops.map Json.str)).getD (.arr [])) "timestamp" =
        .ok (decide ("timestamp" ∈ f.transformations.getD [])) := by
    cases f.transformations with
    | none => rfl
    | some ops =>
        simp [PyVal.contains, List.any_map, Function.comp_def, PyVal.eq, List.any_beq']
  have htype : ∀ s, PyVal.eq ((f.type.map Json.str).getD .null) (.str s) =
      decide (f.type = some s) := by
    intro s
    cases f.type with
    | none => rfl
    | some t =>
        simp only [Option.map_some, Option.getD_some, PyVal.eq, Option.some.injEq]
        rfl
  rw [castValue, cast, hcontains, htype, htype, htype]
  simp only [decide_eq_true_eq, ok_bind]
  by_cases hinteger : f.type = some "integer"
  · rw [if_pos hinteger, if_pos hinteger]
  rw [if_neg hinteger, if_neg hinteger]
  by_cases hfloat : f.type = some "float"
  · rw [if_pos hfloat, if_pos hfloat]
  rw [if_neg hfloat, if_neg hfloat]
  by_cases htimestamp : f.type = some "timestamp"
  · rw [if_pos htimestamp, if_pos (Or.inl htimestamp)]
  rw [if_neg htimestamp]
  simp only [htimestamp, false_or]
  rfl

/-- Canonical paths as keys among all values. -/
def keyed (mapped : Dict String PyVal) : Dict PyVal PyVal :=
  ⟨mapped.entries.map fun entry => (.str entry.1, entry.2), by
    have hkeys : (mapped.entries.map fun entry => ((.str entry.1 : PyVal), entry.2)).map Prod.fst =
        (mapped.entries.map Prod.fst).map Json.str := by
      rw [List.map_map, List.map_map]
      rfl
    rw [hkeys]
    exact mapped.nodup.map fun _ _ => Json.str.inj⟩

theorem put_keyed (path : String) (val : PyVal) (entries : List (String × PyVal)) :
    put (.str path) val (entries.map fun entry => ((.str entry.1 : PyVal), entry.2)) =
      (put path val entries).map fun entry => (.str entry.1, entry.2) := by
  induction entries with
  | nil => rfl
  | cons entry rest ih =>
      obtain ⟨path', val'⟩ := entry
      rw [List.map_cons, put, put]
      by_cases hpath : path' = path
      · rw [if_pos hpath, if_pos (congrArg Json.str hpath), List.map_cons]
      · rw [if_neg hpath, if_neg (mt Json.str.inj hpath), List.map_cons, ih]

/-- The typed loop's state as the loop over values has it. -/
def ofMapping (s : Mapping) : Mapped := ⟨keyed s.mappedCanonical, s.mappedRawKeys⟩

theorem mapField_fieldValue (extractedRaw : Record) (s : Mapping) (field : String × FieldDef) :
    mapField i extractedRaw (ofMapping s) (field.1, fieldValue field.2) =
      (Validation.mapField i extractedRaw s field).map ofMapping := by
  obtain ⟨raw, f⟩ := field
  rw [mapField, Validation.mapField]
  cases hval : extractedRaw.get? raw with
  | none => rfl
  | some val =>
      have hpath : (f.mapTo.map Json.str).getD (.str raw) = (.str (f.mapTo.getD raw) : PyVal) := by
        cases f.mapTo <;> rfl
      simp only
      rw [(getD_fieldValue f (.str raw)).2.1, ok_bind, hpath]
      rw [← bind_assoc, enumValue_fieldValue, ok_bind, (getD_fieldValue f (.arr [])).2.2.2, ok_bind,
        applyTransformations_fieldValue, ok_bind, (getD_fieldValue f .null).1, ok_bind,
        castValue_fieldValue]
      rw [convert]
      cases cast i f (applyTransforms i (f.transformations.getD []) (applyEnum f val)) with
      | error e => rfl
      | ok val' =>
          simp only [ok_bind, Shadow.dictKey_str, ofMapping, keyed, Dict.set, put_keyed,
            canonicalKey]
          rfl

theorem mapEvent_fieldValue (extractedRaw : Record) (fields : Dict String FieldDef) :
    mapEvent i extractedRaw (.obj (fields.entries.map fun entry =>
      (entry.1, fieldValue entry.2))) =
      (Validation.mapEvent i extractedRaw fields).map fun result => (keyed result.1, result.2) := by
  have hloop : ∀ (entries : List (String × FieldDef)) (s : Mapping),
      (entries.map fun entry => (entry.1, fieldValue entry.2)).foldlM
        (mapField i extractedRaw) (ofMapping s) =
        (entries.foldlM (Validation.mapField i extractedRaw) s).map ofMapping := by
    intro entries
    induction entries with
    | nil =>
        intro s
        rfl
    | cons entry rest ih =>
        intro s
        rw [List.map_cons, List.foldlM_cons, List.foldlM_cons, mapField_fieldValue]
        cases Validation.mapField i extractedRaw s entry with
        | error e => rfl
        | ok t => exact ih t
  have hstart : (⟨Dict.empty, []⟩ : Mapped) = ofMapping ⟨Dict.empty, []⟩ := rfl
  rw [mapEvent, Validation.mapEvent, mapFields, hstart, hloop]
  cases fields.entries.foldlM (Validation.mapField i extractedRaw) ⟨Dict.empty, []⟩ with
  | error e => rfl
  | ok t => rfl

end Typed

/-- A dictionary that fits into memory: an entry holds at least two pointers, and no
processor addresses more than `2 ^ 57` bytes. -/
structure ResidentDict where
  dict : Dict String PyVal
  resident : 16 * dict.entries.length ≤ 2 ^ 57

/-- The arguments of `validate_event`. -/
structure ValidationCall where
  rawEvent : String
  parserSpec : PyVal
  expectedExtracted : ResidentDict
  criticalFields : List String
  expectedUnknown : ResidentDict
  minAccuracy : PyNum
  sourceID : String

/-- `ValidationReport`: the scores of a run and its violations. -/
structure ValidationReport where
  sourceID : String
  parserID : PyVal
  parserVersion : PyVal
  passed : Bool
  metrics : Dict String ℚ
  criticalPassed : Bool
  mandatoryDpsPassed : Bool
  violations : List String
  completedAt : Moment

section Measurement

variable (u : Unicode) (mapped : Dict PyVal PyVal) (unmapped : Record)

/-- `f"{x!r}"` -/
def shown (x : PyVal) : String := String.ofList (repr u x)

/-- `mapped_canonical.get(k)` -/
def actual (k : String) : PyVal := (mapped.get? (.str k)).getD .null

/-- An expected field that was extracted with its value. -/
def matchedExt (entry : String × PyVal) : Bool :=
  match mapped.get? (.str entry.1) with
  | some v => v.eq entry.2
  | none => false

/-- A critical field whose expected value is there and was extracted. -/
def matchedCritical (expectedExtracted : Dict String PyVal) (k : String) : Bool :=
  let expVal := (expectedExtracted.get? k).getD .null
  expVal ≠ .null && (actual mapped k).eq expVal

/-- An expected unknown field that was retained, as a text. -/
def retained (entry : String × PyVal) : Bool :=
  match unmapped.get? entry.1 with
  | some v => str u v = str u entry.2
  | none => false

/-- `matched / total`, and the value that stands for it when there is nothing to count. -/
def accuracy (matched total : ℕ) (default : ℚ) : ℚ :=
  if 0 < total then fl (matched / total) else default

def blocks (action : String) : Bool :=
  Text.contains action "block" || Text.contains action "deny" || Text.contains action "drop"

/-- `_evaluate_detection_contracts` -/
def evaluateDetectionContracts (expected : Dict String PyVal) : ℚ × Bool × List String :=
  let action := lower u (str u ((mapped.get? (.str "event.action")).getD (.str "")))
  let expectedAction := lower u (str u ((expected.get? "event.action").getD (.str "")))
  if blocks expectedAction &&
      !(blocks action && ((actual mapped "src.ip").orElse (actual mapped "dst.ip")).truthy) then
    (0, false, ["Mandatory detection contract DET-002 (Blocked Connection) failed"])
  else (1, true, [])

/-- `x >= min_accuracy` -/
def reaches (x : ℚ) : PyNum → Bool
  | .int n => (n : ℚ) ≤ x
  | .float (.finite neg mag) => (if neg then -mag else mag) ≤ x
  | .float (.inf neg) => neg
  | .float .nan => false

def extractionViolation (entry : String × PyVal) : String :=
  "Extraction mismatch for " ++ entry.1 ++ ": expected " ++ shown u entry.2 ++ ", got " ++
    shown u (actual mapped entry.1)

def criticalViolation (expectedExtracted : Dict String PyVal) (k : String) : String :=
  "Critical field " ++ k ++ " failed semantic check (expected " ++
    shown u ((expectedExtracted.get? k).getD .null) ++ ", got " ++ shown u (actual mapped k) ++ ")"

def unknownViolation (entry : String × PyVal) : String :=
  "Unknown field " ++ entry.1 ++ " not retained in extensions"

/-- The measurements of `validate_event` and its certification gate. -/
def measure (call : ValidationCall) (parserID parserVersion : PyVal) (now : Moment) :
    ValidationReport :=
  let expected := call.expectedExtracted.dict
  let unknowns := call.expectedUnknown.dict
  let rawRetention : ℚ := 1
  let extractionAcc :=
    accuracy (expected.entries.countP (matchedExt mapped)) expected.entries.length 1
  let critical := matchedCritical mapped expected
  let criticalPassed := call.criticalFields.all critical
  let semanticAcc :=
    accuracy (call.criticalFields.countP critical) call.criticalFields.length extractionAcc
  let unknownRetention :=
    accuracy (unknowns.entries.countP (retained u unmapped)) unknowns.entries.length 1
  let (dpsScore, mandatoryDpsPassed, detViolations) := evaluateDetectionContracts u mapped expected
  { sourceID := call.sourceID
    parserID := parserID
    parserVersion := parserVersion
    passed := reaches extractionAcc call.minAccuracy && fl (95 / 100) ≤ semanticAcc &&
      criticalPassed && rawRetention = 1 && unknownRetention = 1 && fl (95 / 100) ≤ dpsScore &&
      mandatoryDpsPassed
    metrics := Dict.ofList
      [("extraction_accuracy", roundTo 4 extractionAcc),
        ("semantic_accuracy", roundTo 4 semanticAcc), ("raw_retention", roundTo 4 rawRetention),
        ("unknown_field_retention", roundTo 4 unknownRetention),
        ("detection_preservation", roundTo 4 dpsScore)]
    criticalPassed := criticalPassed
    mandatoryDpsPassed := mandatoryDpsPassed
    violations :=
      (expected.entries.filter fun entry => !matchedExt mapped entry).map
        (extractionViolation u mapped) ++
      (call.criticalFields.filter fun k => !critical k).map (criticalViolation u mapped expected) ++
      (unknowns.entries.filter fun entry => !retained u unmapped entry).map unknownViolation ++
      detViolations
    completedAt := now }

end Measurement

/-- The fields an event is measured by: `mapped_canonical` and `unmapped_fields`. -/
def extractEvent (i : Interpreter) (rawEvent : String) (parserSpec : PyVal) :
    Except PyError (Dict PyVal PyVal × Record) := do
  let extractedRaw ← extractRaw i.unicode rawEvent parserSpec
  let fieldsSpec ← parserSpec.getD "fields" (.obj [])
  mapEvent i extractedRaw fieldsSpec

/-- `validate_event` -/
def validateEvent (i : Interpreter) (now : Moment) (call : ValidationCall) :
    Except PyError ValidationReport := do
  let parserInfo ← call.parserSpec.getD "parser" (.obj [])
  let parserID ← parserInfo.getD "id" (.str (call.sourceID ++ ".parser"))
  let parserVersion ← parserInfo.getD "version" (.str "1.0.0")
  let (mapped, unmapped) ← extractEvent i call.rawEvent call.parserSpec
  return measure i.unicode mapped unmapped call parserID parserVersion now

/-- A float as a value. -/
def floatOf (q : ℚ) : PyVal := PyVal.float (.finite (q < 0) |q|)

/-- `to_evidence`, with the random part of a generated run id. -/
def ValidationReport.toEvidence (report : ValidationReport) (runID : Option String) (uuid : String)
    (driftState : String) : ValidationEvidence where
  runID :=
    let given := runID.getD ""
    if given = "" then "val-" ++ report.sourceID ++ "-" ++ uuid else given
  completedAt := report.completedAt
  passed := report.passed
  metrics := report.metrics.mapValues floatOf
  driftState := some (if report.passed then driftState else "SUSPECTED")
  driftObservedAt := some report.completedAt

end Ulpf.Validation.Engine
