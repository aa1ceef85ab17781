import Ulpf.Deployment.Deployer

/-!
`SpecCompilerEngine`: the mappings of a candidate package and the overrides of
a reviewer are merged, and compiled to a parser spec or to a program.
-/

namespace Ulpf.SpecCompiler

open Ulpf.Lib
open Ulpf.Lib.Text
open Ulpf.Python
open Ulpf.Deployment

/-- A suggested mapping; either name can be missing. -/
structure MappingItem where
  rawField : Option String
  canonicalField : Option String
  deriving DecidableEq

/-- What the compiler reads of a candidate package. Each AI candidate spec is
its list of mapped fields. -/
structure CandidatePackage where
  sourceId : Option String
  detectedFormat : Option String
  deterministicMappings : List MappingItem
  aiCandidateSpecs : List (List MappingItem)
  deriving DecidableEq

section Merging

/-- The two names of an item that has both. -/
def MappingItem.names? (item : MappingItem) : Option (String × String) := do
  let raw ← item.rawField
  let canonical ← item.canonicalField
  if raw ≠ "" ∧ canonical ≠ "" then return (raw, canonical) else none

abbrev Resolved := Dict String FieldMapping

/-- A deterministic mapping is approved as it is. -/
def mergeDeterministic (resolved : Resolved) (item : MappingItem) : Resolved :=
  match item.names? with
  | some (raw, canonical) => resolved.set raw ⟨raw, canonical, none, false⟩
  | none => resolved

/-- A candidate does not replace a mapping that is there. -/
def mergeCandidate (resolved : Resolved) (item : MappingItem) : Resolved :=
  match item.names? with
  | some (raw, canonical) =>
      if resolved.contains raw then resolved else resolved.set raw ⟨raw, canonical, none, false⟩
  | none => resolved

/-- An override is applied as it is, empty names included. -/
def applyOverride (resolved : Resolved) (override : String × String) : Resolved :=
  resolved.set override.1 ⟨override.1, override.2, none, true⟩

/-- The approved mappings: the deterministic ones, those of the assistant where there are none, and
the overrides over both. -/
def resolveMappings (candidatePackage : CandidatePackage)
    (reviewerOverrides : Dict String String) : Resolved :=
  let resolved := candidatePackage.deterministicMappings.foldl mergeDeterministic Dict.empty
  let resolved := candidatePackage.aiCandidateSpecs.foldl
    (fun resolved mappedFields => mappedFields.foldl mergeCandidate resolved) resolved
  reviewerOverrides.entries.foldl applyOverride resolved

/-- `merge_overrides` -/
def mergeOverrides (candidatePackage : CandidatePackage)
    (reviewerOverrides : Dict String String) : List FieldMapping :=
  (resolveMappings candidatePackage reviewerOverrides).entries.map Prod.snd

end Merging

section Spec

variable (u : Unicode)

/-- The format of a spec from the detected one. -/
def formatOf (detectedFormat : String) : String :=
  let fmtLower := lower u detectedFormat
  if contains fmtLower "json" then "json"
  else if contains fmtLower "syslog" then "syslog"
  else if contains fmtLower "cef" then "cef"
  else if contains fmtLower "leef" then "leef"
  else if contains fmtLower "csv" || contains fmtLower "tsv" then "csv"
  else "key_value"

def isIdAlnum (c : Char) : Bool := ('a' ≤ c && c ≤ 'z') || ('0' ≤ c && c ≤ '9')

/-- A character outside `[a-z0-9._-]` becomes an underscore. -/
def cleanChar (c : Char) : Char := if isIdAlnum c || "._-".toList.contains c then c else '_'

/-- The id of a parser from the source's. -/
def cleanId (sourceId : String) : String :=
  match trim (· = '_') ((lower u sourceId).toList.map cleanChar) with
  | [] => "source_parser"
  | c :: rest =>
      if isIdAlnum c then String.ofList (c :: rest)
      else "source_" ++ String.ofList (c :: rest)

/-- Type and transformations, guessed from the canonical name. -/
def inferType (canonicalField : String) : String × List String :=
  let canon := lower u canonicalField
  if contains canon "ip" then ("ip", ["trim", "ip"])
  else if contains canon "port" || contains canon "status_code" then ("integer", ["integer"])
  else if contains canon "time" || contains canon "timestamp" then ("timestamp", ["timestamp"])
  else if contains canon "is_" || contains canon "enabled" then ("boolean", ["boolean"])
  else ("string", ["trim"])

def fieldEntry (mapTo : String) (inferred : String × List String) : PyVal :=
  .obj [("type", .str inferred.1), ("map_to", .str mapTo),
    ("transformations", .arr (inferred.2.map .str))]

/-- The fields of a spec; without mappings the message goes to the action. -/
def fieldsDict (mappings : List FieldMapping) : Dict String PyVal :=
  let fields := Dict.ofList (mappings.map fun m =>
    (m.rawField, fieldEntry m.canonicalField (inferType u m.canonicalField)))
  if fields.entries.isEmpty then
    fields.set "raw_message" (fieldEntry "event.action" ("string", ["trim"]))
  else fields

/-- `generate_ulpf_parser_spec` -/
def generateUlpfParserSpec (sourceId detectedFormat : String) (mappings : List FieldMapping) :
    PyVal :=
  .obj [("dsl_version", .str "1.0"),
    ("parser", .obj [("id", .str (cleanId u sourceId)), ("version", .str "1.0.0")]),
    ("match", .obj [("format", .str (formatOf u detectedFormat))]),
    ("body_parser", .obj [("type", .str (formatOf u detectedFormat))]),
    ("fields", .obj (fieldsDict u mappings).entries),
    ("unknown_fields", .obj [("policy", .str "preserve")]),
    ("raw", .obj [("preserve", .bool true)])]

/-- The spec `compile_spec` emits for a package. -/
def compiledSpec (candidatePackage : CandidatePackage) (reviewerOverrides : Dict String String) :
    PyVal :=
  generateUlpfParserSpec u (candidatePackage.sourceId.getD "unknown_source")
    (candidatePackage.detectedFormat.getD "key_value")
    (mergeOverrides candidatePackage reviewerOverrides)

end Spec

section Programs

/-- A statement of the generated `parse_log`: a field that is in the event is
assigned to the result. -/
structure PyStatement where
  rawField : String
  canonicalField : String

/-- The lines of a copy in the Python target. -/
def PyStatement.lines (s : PyStatement) : List String :=
  ["    if \"" ++ s.rawField ++ "\" in event:",
    "        parsed[\"" ++ s.canonicalField ++ "\"] = event[\"" ++ s.rawField ++ "\"]"]

/-- A statement of the generated VRL program: a field of the event is deleted
and its value assigned to another one. -/
structure VrlStatement where
  canonicalField : String
  rawField : String

/-- The line of a move in VRL. -/
def VrlStatement.line (s : VrlStatement) : String :=
  "." ++ s.canonicalField ++ " = delete(." ++ s.rawField ++ ")"

/-- The Python target, statement by statement. -/
def pythonNative (mappings : List FieldMapping) : List PyStatement :=
  mappings.map fun m => ⟨m.rawField, m.canonicalField⟩

/-- The VRL target, statement by statement. -/
def vectorRemap (mappings : List FieldMapping) : List VrlStatement :=
  mappings.map fun m => ⟨m.canonicalField, m.rawField⟩

/-- `generate_compiled_code` for the Python runtime. -/
def pythonNativeCode (mappings : List FieldMapping) : String :=
  "\n".intercalate (["def parse_log(event: dict) -> dict:", "    parsed = \x7b\x7d"] ++
    (pythonNative mappings).flatMap PyStatement.lines ++ ["    return parsed"])

/-- `generate_compiled_code` for Vector. -/
def vectorRemapCode (mappings : List FieldMapping) : String :=
  "\n".intercalate ((vectorRemap mappings).map VrlStatement.line)

end Programs

end Ulpf.SpecCompiler
