import Ulpf.ParserRuntime.BodyParsers
import Ulpf.ParserRuntime.Lineage
import Ulpf.ParserRuntime.Whitelist

/-!
`Parse`: the raw fields of a payload are mapped to canonical paths one field of
the spec after the other, and what no field has asked for is kept as unknown.
-/

namespace Ulpf.ParserRuntime

open Ulpf.Lib
open Ulpf.Go

abbrev FieldErrors := List (String × CoercionError)

/-- `ParseResult`: the mapped fields with their lineage, and what was not mapped. -/
structure ParseResult where
  extracted : Dict String Value
  unknownFields : Dict String Value
  raw : String
  lineage : Dict String FieldLineage
  errors : FieldErrors

section Coercion

variable (p : Platform)

/-- A value that is replaced only when it converts. -/
def orKeep {α : Type} (curVal : Value) (wrap : α → Value) : Except CoercionError α → Value
  | .ok x => wrap x
  | .error _ => curVal

/-- One transformation of a field; `entries` are those of its enum table in the
order of the enumeration. -/
def applyTransformation (fieldSpec : FieldSpec) (entries : List (String × String))
    (op : String) (curVal : Value) : Value :=
  match op with
  | "trim" => transformTrim curVal
  | "lowercase" => transformLowercase p.unicode curVal
  | "uppercase" => transformUppercase p.unicode curVal
  | "enum_map" =>
      if fieldSpec.enum.entries.isEmpty then curVal
      else transformEnumMap p.unicode fieldSpec.enum entries curVal
  | "integer" => orKeep curVal .int64 (transformInteger p curVal)
  | "float" => orKeep curVal .float64 (transformFloat curVal)
  | "boolean" => orKeep curVal .bool (transformBoolean p.unicode curVal)
  | "ip" => orKeep curVal .str (transformIP curVal)
  | "timestamp" => orKeep curVal .str (transformTimestamp p curVal)
  | _ => curVal

/-- The transformations of a field in their order; `orders` are the enumerations
of its enum table, one for each use. -/
def applyTransformations (fieldSpec : FieldSpec) (orders : ℕ → List (String × String)) :
    ℕ → List String → Value → Value
  | _, [], curVal => curVal
  | use, op :: ops, curVal =>
      applyTransformations fieldSpec orders (use + 1) ops
        (applyTransformation p fieldSpec (orders use) op curVal)

/-- The coercion of a value to the type of its field. -/
def coerceType (fieldSpec : FieldSpec) (entries : List (String × String)) (curVal : Value) :
    Except CoercionError Value :=
  match fieldSpec.type with
  | "string" =>
      if fieldSpec.enum.entries.isEmpty then .ok (.str (sprint curVal))
      else .ok (transformEnumMap p.unicode fieldSpec.enum entries curVal)
  | "integer" => (transformInteger p curVal).map .int64
  | "float" => (transformFloat curVal).map .float64
  | "boolean" => (transformBoolean p.unicode curVal).map .bool
  | "ip" => (transformIP curVal).map .str
  | "timestamp" => (transformTimestamp p curVal).map .str
  | _ => .ok curVal

/-- A value after the transformations of its field and the coercion to its type. -/
def coerce (fieldSpec : FieldSpec) (orders : ℕ → List (String × String)) (val : Value) :
    Except CoercionError Value :=
  coerceType p fieldSpec (orders fieldSpec.transformations.length)
    (applyTransformations p fieldSpec orders 0 fieldSpec.transformations val)

end Coercion

section Fields

variable (p : Platform) (e : Enumeration)

/-- The raw field a field of the spec stands for: the one of its name, or else
the first one whose name differs only in case. -/
def resolve (rawFields : RawFields) (srcField : String) : Option (String × Value) :=
  match rawFields.get? srcField with
  | some val => some (srcField, val)
  | none =>
      (e.entries (.fallback srcField) rawFields).find? fun entry =>
        equalFold p.unicode entry.1 srcField

def enumOrders (srcField : String) (fieldSpec : FieldSpec) (use : ℕ) : List (String × String) :=
  e.entries (.enum srcField use) fieldSpec.enum

/-- The record of a field, or the fallback for one that cannot be located. -/
def lineageOf (spec : ParserSpec) (rawStr srcField : String) (fieldSpec : FieldSpec)
    (typedVal : Value) : FieldLineage :=
  match buildFieldLineage p.unicode fieldSpec.mapTo srcField spec.bodyParser.type
      fieldSpec.transformations rawStr typedVal with
  | .ok lineage => lineage
  | .error _ =>
      fallbackLineage fieldSpec.mapTo srcField spec.bodyParser.type fieldSpec.transformations

/-- The variables of the loop over the fields. -/
structure MapState where
  extracted : Dict String Value
  lineage : Dict String FieldLineage
  errors : FieldErrors
  mappedKeys : List String

def MapState.init : MapState := ⟨Dict.empty, Dict.empty, [], []⟩

/-- One round of the loop over the fields. -/
def mapField (spec : ParserSpec) (rawStr : String) (rawFields : RawFields) (s : MapState)
    (field : String × FieldSpec) : MapState :=
  match resolve p e rawFields field.1 with
  | none => s
  | some (srcField, val) =>
      let s := { s with mappedKeys := srcField :: s.mappedKeys }
      match coerce p field.2 (enumOrders e field.1 field.2) val with
      | .error err => { s with errors := s.errors ++ [(srcField, err)] }
      | .ok typedVal =>
          { s with
            extracted := s.extracted.set field.2.mapTo typedVal
            lineage := s.lineage.set field.2.mapTo
              (lineageOf p spec rawStr srcField field.2 typedVal) }

/-- The loop over the fields of a spec. -/
def mapFields (spec : ParserSpec) (rawStr : String) (rawFields : RawFields) : MapState :=
  (e.entries .fields spec.fields).foldl (mapField p e spec rawStr rawFields) MapState.init

/-- The raw fields that were not mapped, under the policy that preserves them. -/
def retainUnknown (spec : ParserSpec) (rawFields : RawFields) (mappedKeys : List String) :
    Dict String Value :=
  if spec.unknownFields.policy = "preserve" then
    rawFields.filterKeys fun k => !mappedKeys.contains k
  else Dict.empty

/-- What becomes of raw fields. -/
def mapRawFields (spec : ParserSpec) (rawStr : String) (rawFields : RawFields) : ParseResult :=
  let s := mapFields p e spec rawStr rawFields
  { extracted := s.extracted
    unknownFields := retainUnknown spec rawFields s.mappedKeys
    raw := rawStr
    lineage := s.lineage
    errors := s.errors }

/-- `Parse`. The body parsers are given the runes of the payload: of a payload that is no UTF-8
the replacement characters, where the parsers of csv, LEEF and syslog keep its bytes. -/
def parse (raw : List UInt8) (spec : ParserSpec) : Except ParseError ParseResult :=
  if raw.isEmpty then .error .emptyRaw
  else (parseBody e (ofBytes raw) spec).map (mapRawFields p e spec (ofBytes raw))

end Fields

end Ulpf.ParserRuntime
