import Ulpf.Go.Value
import Ulpf.ParserRuntime.Dsl

/-!
Lineage records: where in a payload an extracted value comes from.
-/

namespace Ulpf.ParserRuntime

open Ulpf.Lib
open Ulpf.Go

/-- `RawLocator`: where in the raw event a value was found. -/
structure RawLocator where
  type : String
  value : String
  deriving DecidableEq

/-- `FieldLineage`: the origin of a canonical field. -/
structure FieldLineage where
  normalizedPath : String
  rawLocator : RawLocator
  extractor : String
  transformations : List String
  mappingScore : ℚ
  mappingEvidence : List String
  reviewStatus : String
  deriving DecidableEq

/-- The errors of a record's check and of the search for its evidence. -/
inductive LineageError where
  | notFound (sourceField value : String)
  | invalidNormalizedPath (path : String)
  | invalidLocatorType (type : String)
  | emptyLocatorValue
  | invalidExtractor (extractor : String)
  | invalidTransformation (op : String)
  | invalidMappingScore (score : ℚ)
  | noMappingEvidence
  | invalidMappingEvidence (item : String)
  | invalidReviewStatus (status : String)
  deriving DecidableEq

def validLocatorTypes : List String := ["key", "json_pointer", "offset", "regex_group"]

def validExtractors : List String :=
  ["key_value", "json_pointer", "regex_capture", "cef_parse", "leef_parse", "syslog_parse", "kv",
    "csv_parse", "csv"]

def validTransformations : List String :=
  ["trim", "lowercase", "uppercase", "integer", "float", "boolean", "ip", "timestamp", "enum_map",
    "split", "join", "substring"]

def validEvidence : List String :=
  ["alias_match", "type_match", "event_family_context", "schema_description_similarity",
    "value_profile"]

def validReviewStatuses : List String :=
  ["AUTO_ACCEPTED", "HUMAN_APPROVED", "ABSTAINED", "REJECTED"]

/-- `Validate` -/
def FieldLineage.validate (fl : FieldLineage) : Except LineageError Unit :=
  if !matchString mapToRegex fl.normalizedPath then
    .error (.invalidNormalizedPath fl.normalizedPath)
  else if !validLocatorTypes.contains fl.rawLocator.type then
    .error (.invalidLocatorType fl.rawLocator.type)
  else if trimSpace fl.rawLocator.value = "" then .error .emptyLocatorValue
  else if !validExtractors.contains fl.extractor then .error (.invalidExtractor fl.extractor)
  else
    match fl.transformations.find? fun op => !validTransformations.contains op with
    | some op => .error (.invalidTransformation op)
    | none =>
        if fl.mappingScore < 0 ∨ 1 < fl.mappingScore then
          .error (.invalidMappingScore fl.mappingScore)
        else if fl.mappingEvidence.isEmpty then .error .noMappingEvidence
        else
          match fl.mappingEvidence.find? fun item => !validEvidence.contains item with
          | some item => .error (.invalidMappingEvidence item)
          | none =>
              if validReviewStatuses.contains fl.reviewStatus then .ok ()
              else .error (.invalidReviewStatus fl.reviewStatus)

/-- `NormalizeExtractor` -/
def normalizeExtractor (bodyParserType : String) : String :=
  match bodyParserType with
  | "key_value" | "kv" => "kv"
  | "syslog" => "syslog_parse"
  | "cef" => "cef_parse"
  | "leef" => "leef_parse"
  | "json" => "json_pointer"
  | "csv" => "csv_parse"
  | _ => "key_value"

/-- Where a field was found; outside JSON and CSV its name or its value has to
occur in the payload. -/
def locate (u : Unicode) (extractor sourceField rawText : String) (val : Value) :
    Except LineageError RawLocator :=
  match extractor with
  | "json_pointer" => .ok ⟨"json_pointer", "/" ++ Text.replaceAll sourceField "." "/"⟩
  | "csv_parse" | "csv" => .ok ⟨"key", sourceField⟩
  | _ =>
      let lowerRaw := toLower u rawText
      let valStr := sprint val
      if Text.contains lowerRaw (toLower u sourceField) then .ok ⟨"key", sourceField⟩
      else if valStr ≠ "" ∧ Text.contains lowerRaw (toLower u valStr) then .ok ⟨"key", sourceField⟩
      else .error (.notFound sourceField valStr)

/-- `BuildFieldLineage` -/
def buildFieldLineage (u : Unicode) (normalizedPath sourceField bodyParserType : String)
    (transformations : List String) (rawText : String) (val : Value) :
    Except LineageError FieldLineage := do
  let extractor := normalizeExtractor bodyParserType
  let rawLocator ← locate u extractor sourceField rawText val
  let lineage : FieldLineage :=
    { normalizedPath, rawLocator, extractor
      transformations := transformations.filter validTransformations.contains
      mappingScore := 1
      mappingEvidence := ["alias_match", "type_match", "event_family_context"]
      reviewStatus := "AUTO_ACCEPTED" }
  lineage.validate
  return lineage

/-- The record of a field whose lineage cannot be built. -/
def fallbackLineage (normalizedPath sourceField bodyParserType : String)
    (transformations : List String) : FieldLineage :=
  { normalizedPath, transformations
    rawLocator := ⟨"key", sourceField⟩
    extractor := normalizeExtractor bodyParserType
    mappingScore := 1
    mappingEvidence := ["type_match"]
    reviewStatus := "AUTO_ACCEPTED" }

end Ulpf.ParserRuntime
