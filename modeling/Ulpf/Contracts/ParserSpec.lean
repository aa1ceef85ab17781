import Ulpf.Lib.JsonSchema

/-!
`parser_spec.schema.json`: the contract of a declarative parser spec.
-/

namespace Ulpf.Contracts

open Ulpf.Lib
open Ulpf.Lib.Regex

/-- `^[a-z0-9][a-z0-9._-]*$` -/
def idPattern : Regex := seq lowerDigit (many (alt lowerDigit (oneOf "._-")))

/-- `^[0-9]+\.[0-9]+\.[0-9]+$` -/
def versionPattern : Regex :=
  let number := Regex.some (range '0' '9')
  all [number, text ".", number, text ".", number]

/-- `^[A-Za-z][A-Za-z0-9_]*(\.[A-Za-z][A-Za-z0-9_]*)*$` -/
def mapToPattern : Regex :=
  let word := seq letter (many wordChar)
  seq word (many (seq (text ".") word))

/-- `type: string` with an `enum`. -/
def oneOfStrings (values : List String) : Schema := .string values.contains

def anyString : Schema := .string fun _ => true

def stringsArray : Schema := .array anyString

/-- `#/$defs/operation` -/
def operations : List String :=
  ["trim", "lowercase", "uppercase", "integer", "float", "boolean", "ip", "timestamp", "enum_map",
    "split", "join", "substring", "json_pointer", "key_value", "regex_capture", "cef_parse",
    "leef_parse", "syslog_parse", "csv_parse"]

def parserInfoSchema : Schema :=
  .object ["id", "version"]
    [("id", .string (Schema.matchesPattern idPattern)),
      ("version", .string (Schema.matchesPattern versionPattern))] none 0

def matchSchema : Schema :=
  .object ["format"]
    [("format", oneOfStrings ["syslog", "json", "cef", "leef", "key_value", "csv"]),
      ("body_contains", stringsArray)] none 0

def bodyParserSchema : Schema :=
  .object ["type"]
    [("type", oneOfStrings ["key_value", "json", "cef", "leef", "syslog", "csv"]),
      ("pair_separator", anyString), ("key_value_separator", anyString), ("delimiter", anyString),
      ("headers", stringsArray)] none 0

/-- A field of a spec: its type, its canonical path and what is made of its values. -/
def fieldSchema : Schema :=
  .object ["type", "map_to"]
    [("type", oneOfStrings ["string", "integer", "float", "boolean", "ip", "timestamp"]),
      ("map_to", .string (Schema.matchesPattern mapToPattern)),
      ("enum", .object [] [] (Option.some anyString) 0),
      ("transformations", .array (oneOfStrings operations))] none 0

/-- The `fields` section, which has at least one field. -/
def fieldsSchema : Schema := .object [] [] (Option.some fieldSchema) 1

def unknownFieldsSchema : Schema :=
  .object ["policy"] [("policy", .constString "preserve")] none 0

/-- The `raw` section: the payload is preserved. -/
def rawSchema : Schema := .object ["preserve"] [("preserve", .constBool true)] none 0

/-- The contract of a parser spec, section by section. -/
def parserSpecSchema : Schema :=
  .object ["dsl_version", "parser", "match", "body_parser", "fields", "unknown_fields", "raw"]
    [("dsl_version", .constString "1.0"), ("parser", parserInfoSchema), ("match", matchSchema),
      ("body_parser", bodyParserSchema), ("fields", fieldsSchema),
      ("unknown_fields", unknownFieldsSchema), ("raw", rawSchema)] none 0

/-- The documents `parser_spec.schema.json` describes. -/
def SchemaValid {ν : Type} (doc : Json ν) : Prop := parserSpecSchema.valid doc = true

instance {ν : Type} (doc : Json ν) : Decidable (SchemaValid doc) :=
  inferInstanceAs (Decidable (_ = true))

end Ulpf.Contracts
