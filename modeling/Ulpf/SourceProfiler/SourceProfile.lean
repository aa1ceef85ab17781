import Ulpf.SourceProfiler.Profiler

/-!
The profile of a source: what the profiler reports and what the semantic mapper and the
structural drift detector read.
-/

namespace Ulpf.SourceProfiler

open Ulpf.Lib
open Ulpf.Python

inductive DataType where
  | integer
  | float
  | boolean
  | ipv4
  | ipv6
  | macAddress
  | timestamp
  | email
  | url
  | uuid
  | json
  | array
  | string
  | null
  deriving DecidableEq

/-- `DataType.value` -/
def DataType.value : DataType → String
  | .integer => "integer"
  | .float => "float"
  | .boolean => "boolean"
  | .ipv4 => "ipv4"
  | .ipv6 => "ipv6"
  | .macAddress => "mac_address"
  | .timestamp => "timestamp"
  | .email => "email"
  | .url => "url"
  | .uuid => "uuid"
  | .json => "json"
  | .array => "array"
  | .string => "string"
  | .null => "null"

theorem DataType.value_injective : Function.Injective DataType.value := by
  intro t t' h
  cases t <;> cases t' <;> first | rfl | exact absurd h (by decide)

/-- The type of a field is kept as a text: the mapper also reads texts that name no type
of the profiler. -/
structure FieldProfile where
  name : String
  inferredType : String
  typeDistribution : Dict String ℕ
  nullable : Bool
  nullCount : ℕ
  totalCount : ℕ
  distinctCount : ℕ
  sampleValues : List PyVal
  minValue : Option PyVal
  maxValue : Option PyVal
  avgLength : Option ℚ
  isIpCandidate : Bool
  isTimestampCandidate : Bool
  isEnumCandidate : Bool
  enumValues : Option (List String)
  presenceRatio : ℚ

/-- `FieldProfile(name, inferred_type)` -/
def FieldProfile.new (name inferredType : String) : FieldProfile where
  name := name
  inferredType := inferredType
  typeDistribution := Dict.empty
  nullable := false
  nullCount := 0
  totalCount := 0
  distinctCount := 0
  sampleValues := []
  minValue := none
  maxValue := none
  avgLength := none
  isIpCandidate := false
  isTimestampCandidate := false
  isEnumCandidate := false
  enumValues := none
  presenceRatio := 1

/-- `TemplateProfile`: a template and how often it occurs. -/
structure TemplateProfile where
  templateId : String
  templatePattern : String
  count : ℕ
  sampleMessage : String
  variableCount : ℕ
  frequencyRatio : ℚ

/-- The entries of `SourceProfile.metadata`. -/
structure Metadata where
  delimiter : Option String
  formatDistribution : Option (Dict String ℚ)

/-- `SourceProfile`: the counts of a batch, its fields and its templates. -/
structure SourceProfile where
  format : LogFormat
  confidence : ℚ
  totalRecords : ℕ
  validRecords : ℕ
  corruptedRecords : ℕ
  fields : Dict String FieldProfile
  templates : List TemplateProfile
  delimiter : Option String
  metadata : Metadata
  sampleEvents : List Record

end Ulpf.SourceProfiler
