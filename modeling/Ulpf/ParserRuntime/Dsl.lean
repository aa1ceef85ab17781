import Ulpf.Contracts.ParserSpec
import Ulpf.Lib.JsonText
import Ulpf.Lib.Outcome
import Ulpf.Lib.Unicode

/-!
Parser specs of the Go runtime: their decoding from a JSON text, which refuses
unknown members, and `ValidateParserSpec`.
-/

namespace Ulpf.ParserRuntime

open Ulpf.Lib

/-- The errors of `LoadParserSpecJSON`. -/
inductive SpecError where
  | decoding
  | invalidDslVersion (version : String)
  | invalidParserId (id : String)
  | invalidParserVersion (version : String)
  | invalidMatchFormat (format : String)
  | invalidBodyParserType (type : String)
  | noFields
  | emptyFieldName
  | invalidFieldType (field type : String)
  | invalidMapTo (field mapTo : String)
  | unwhitelistedOperation (field op : String)
  | invalidUnknownFieldsPolicy (policy : String)
  | rawNotPreserved
  deriving DecidableEq

structure ParserInfo where
  id : String
  version : String
  deriving DecidableEq

structure MatchConfig where
  format : String
  bodyContains : List String
  deriving DecidableEq

structure BodyParserConfig where
  type : String
  pairSeparator : String
  keyValueSeparator : String
  delimiter : String
  headers : List String
  deriving DecidableEq

/-- `FieldSpec`: a field of a spec. -/
structure FieldSpec where
  type : String
  mapTo : String
  enum : Dict String String
  transformations : List String
  deriving DecidableEq

structure UnknownFieldsConfig where
  policy : String
  deriving DecidableEq

structure RawConfig where
  preserve : Bool
  deriving DecidableEq

/-- `ParserSpec`. The order of the entries of `fields` stands for nothing. -/
structure ParserSpec where
  schema : String
  dslVersion : String
  parser : ParserInfo
  matchConfig : MatchConfig
  bodyParser : BodyParserConfig
  fields : Dict String FieldSpec
  unknownFields : UnknownFieldsConfig
  raw : RawConfig
  deriving DecidableEq

namespace ParserSpec

/-- The spec that decoding begins with. -/
def zero : ParserSpec :=
  ⟨"", "", ⟨"", ""⟩, ⟨"", []⟩, ⟨"", "", "", "", []⟩, Dict.empty, ⟨""⟩, ⟨false⟩⟩

end ParserSpec

def FieldSpec.zero : FieldSpec := ⟨"", "", Dict.empty, []⟩

section Decoding

variable {ν : Type}

/-- Decoding of one member into a structure. -/
abbrev MemberDecoder (σ ν : Type) := σ → String → Json ν → Except SpecError σ

/-- A member of an object, decoded under the field name it stands for. -/
def decodeMember {σ : Type} (u : Unicode) (names : List String) (member : MemberDecoder σ ν)
    (acc : σ) (m : String × Json ν) : Except SpecError σ :=
  -- an exact name is preferred to one that only differs in case
  match (names.find? fun name => name = m.1) <|>
      names.find? fun name => name.toList.map u.fold = m.1.toList.map u.fold with
  | some name => member acc name m.2
  | none => .error .decoding

/-- An object into a structure; `null` leaves it alone. -/
def decodeStruct {σ : Type} (u : Unicode) (names : List String) (member : MemberDecoder σ ν)
    (prior : σ) : Json ν → Except SpecError σ
  | .null => .ok prior
  | .obj members => members.foldlM (decodeMember u names member) prior
  | _ => .error .decoding

/-- A string into a string variable; `null` leaves it alone. -/
def decodeString (prior : String) : Json ν → Except SpecError String
  | .null => .ok prior
  | .str s => .ok s
  | _ => .error .decoding

/-- A variable of type `bool` keeps what it holds when the document is null. -/
def decodeBool (prior : Bool) : Json ν → Except SpecError Bool
  | .null => .ok prior
  | .bool b => .ok b
  | _ => .error .decoding

def decodeStrings : Json ν → Except SpecError (List String)
  | .null => .ok []
  | .arr items => items.mapM (decodeString "")
  | _ => .error .decoding

/-- An object into a map; each element starts from its zero value, and `null`
empties the map. -/
def decodeMap {α : Type} (decode : Json ν → Except SpecError α) (prior : Dict String α) :
    Json ν → Except SpecError (Dict String α)
  | .null => .ok Dict.empty
  | .obj members => members.foldlM (fun acc m => do
      let v ← decode m.2
      return acc.set m.1 v) prior
  | _ => .error .decoding

def decodeParserInfo (u : Unicode) : ParserInfo → Json ν → Except SpecError ParserInfo :=
  decodeStruct u ["id", "version"] fun acc name x =>
    match name with
    | "id" => (decodeString acc.id x).map fun v => { acc with id := v }
    | _ => (decodeString acc.version x).map fun v => { acc with version := v }

def decodeMatchConfig (u : Unicode) : MatchConfig → Json ν → Except SpecError MatchConfig :=
  decodeStruct u ["format", "body_contains"] fun acc name x =>
    match name with
    | "format" => (decodeString acc.format x).map fun v => { acc with format := v }
    | _ => (decodeStrings x).map fun v => { acc with bodyContains := v }

/-- The members of `body_parser`, each decoded into its field. -/
def decodeBodyParserConfig (u : Unicode) :
    BodyParserConfig → Json ν → Except SpecError BodyParserConfig :=
  decodeStruct u ["type", "pair_separator", "key_value_separator", "delimiter", "headers"]
    fun acc name x =>
      match name with
      | "type" => (decodeString acc.type x).map fun v => { acc with type := v }
      | "pair_separator" =>
          (decodeString acc.pairSeparator x).map fun v => { acc with pairSeparator := v }
      | "key_value_separator" =>
          (decodeString acc.keyValueSeparator x).map fun v => { acc with keyValueSeparator := v }
      | "delimiter" => (decodeString acc.delimiter x).map fun v => { acc with delimiter := v }
      | _ => (decodeStrings x).map fun v => { acc with headers := v }

/-- The members of a field spec, each decoded into its field. -/
def decodeFieldSpec (u : Unicode) : FieldSpec → Json ν → Except SpecError FieldSpec :=
  decodeStruct u ["type", "map_to", "enum", "transformations"] fun acc name x =>
    match name with
    | "type" => (decodeString acc.type x).map fun v => { acc with type := v }
    | "map_to" => (decodeString acc.mapTo x).map fun v => { acc with mapTo := v }
    | "enum" => (decodeMap (decodeString "") acc.enum x).map fun v => { acc with enum := v }
    | _ => (decodeStrings x).map fun v => { acc with transformations := v }

def decodeUnknownFields (u : Unicode) :
    UnknownFieldsConfig → Json ν → Except SpecError UnknownFieldsConfig :=
  decodeStruct u ["policy"] fun acc _ x => (decodeString acc.policy x).map fun v => ⟨v⟩

def decodeRaw (u : Unicode) : RawConfig → Json ν → Except SpecError RawConfig :=
  decodeStruct u ["preserve"] fun acc _ x => (decodeBool acc.preserve x).map fun v => ⟨v⟩

/-- A member of a spec, decoded into its field. -/
def decodeSpecMember (u : Unicode) : MemberDecoder ParserSpec ν := fun acc name x =>
  match name with
  | "$schema" => (decodeString acc.schema x).map fun v => { acc with schema := v }
  | "dsl_version" => (decodeString acc.dslVersion x).map fun v => { acc with dslVersion := v }
  | "parser" => (decodeParserInfo u acc.parser x).map fun v => { acc with parser := v }
  | "match" => (decodeMatchConfig u acc.matchConfig x).map fun v => { acc with matchConfig := v }
  | "body_parser" =>
      (decodeBodyParserConfig u acc.bodyParser x).map fun v => { acc with bodyParser := v }
  | "fields" =>
      (decodeMap (decodeFieldSpec u FieldSpec.zero) acc.fields x).map fun v =>
        { acc with fields := v }
  | "unknown_fields" =>
      (decodeUnknownFields u acc.unknownFields x).map fun v => { acc with unknownFields := v }
  | _ => (decodeRaw u acc.raw x).map fun v => { acc with raw := v }

def specNames : List String :=
  ["$schema", "dsl_version", "parser", "match", "body_parser", "fields", "unknown_fields", "raw"]

/-- A spec from the members of its document. -/
def decodeSpec (u : Unicode) : Json ν → Except SpecError ParserSpec :=
  decodeStruct u specNames (decodeSpecMember u) ParserSpec.zero

end Decoding

/-- The source repeats the patterns of the schema: `^[a-z0-9][a-z0-9._-]*$`. -/
def parserIDRegex : Regex := Contracts.idPattern

/-- `^[0-9]+\.[0-9]+\.[0-9]+$` -/
def semverRegex : Regex := Contracts.versionPattern

/-- `^[A-Za-z][A-Za-z0-9_]*(\.[A-Za-z][A-Za-z0-9_]*)*$` -/
def mapToRegex : Regex := Contracts.mapToPattern

def validFormats : List String := ["syslog", "json", "cef", "leef", "key_value", "csv"]

def validBodyTypes : List String := ["syslog", "json", "cef", "leef", "key_value", "csv"]

def validFieldTypes : List String := ["string", "integer", "float", "boolean", "ip", "timestamp"]

/-- The operations that a field may be transformed by. -/
def whitelistedOperations : List String :=
  ["trim", "lowercase", "uppercase", "integer", "float", "boolean", "ip", "timestamp", "enum_map",
    "split", "join", "substring", "json_pointer", "key_value", "regex_capture", "cef_parse",
    "leef_parse", "syslog_parse", "csv_parse"]

def isWhitelistedOperation (op : String) : Bool := whitelistedOperations.contains op

/-- `MatchString` of a pattern that is anchored at both ends. -/
def matchString (pattern : Regex) (s : String) : Bool := Regex.fullMatch pattern s.toList

/-- The checks of a field: its name, its type, its path and its transformations. -/
def validateField (field : String × FieldSpec) : Except SpecError Unit :=
  let (fieldName, fieldSpec) := field
  if fieldName = "" then .error .emptyFieldName
  else if !validFieldTypes.contains fieldSpec.type then
    .error (.invalidFieldType fieldName fieldSpec.type)
  else if !matchString mapToRegex fieldSpec.mapTo then
    .error (.invalidMapTo fieldName fieldSpec.mapTo)
  else
    match fieldSpec.transformations.find? fun op => !isWhitelistedOperation op with
    | some op => .error (.unwhitelistedOperation fieldName op)
    | none => .ok ()

/-- The checks that nothing is thrown away: unknown fields and the raw bytes. -/
def validateRetention (spec : ParserSpec) : Except SpecError Unit :=
  if spec.unknownFields.policy ≠ "preserve" then
    .error (.invalidUnknownFieldsPolicy spec.unknownFields.policy)
  else if !spec.raw.preserve then .error .rawNotPreserved
  else .ok ()

/-- `ValidateParserSpec` -/
def validateParserSpec (spec : ParserSpec) : Except SpecError Unit := do
  if spec.dslVersion ≠ "1.0" then .error (.invalidDslVersion spec.dslVersion)
  else if !matchString parserIDRegex spec.parser.id then .error (.invalidParserId spec.parser.id)
  else if !matchString semverRegex spec.parser.version then
    .error (.invalidParserVersion spec.parser.version)
  else if !validFormats.contains spec.matchConfig.format then
    .error (.invalidMatchFormat spec.matchConfig.format)
  else if !validBodyTypes.contains spec.bodyParser.type then
    .error (.invalidBodyParserType spec.bodyParser.type)
  else if spec.fields.entries.isEmpty then .error .noFields
  else
    spec.fields.entries.forM validateField
    validateRetention spec

/-- `maxNestingDepth` of the JSON decoder. -/
def maxNestingDepth : ℕ := 10000

/-- `LoadParserSpecJSON`. What follows the first value is not read. -/
def loadParserSpecJSON (u : Unicode) (data : String) : Except SpecError ParserSpec := do
  match JsonText.parsePrefix ⟨false, some maxNestingDepth⟩ data.toList with
  | none => .error .decoding
  | some (doc, _) =>
      let spec ← decodeSpec u doc
      validateParserSpec spec
      return spec

/-- What `ValidateParserSpec` accepts of a field. -/
structure FieldAccepted (fieldName : String) (fieldSpec : FieldSpec) : Prop where
  named : fieldName ≠ ""
  typed : fieldSpec.type ∈ validFieldTypes
  mapped : matchString mapToRegex fieldSpec.mapTo = true
  whitelisted : ∀ op ∈ fieldSpec.transformations, op ∈ whitelistedOperations

/-- What `ValidateParserSpec` accepts. -/
structure Accepted (spec : ParserSpec) : Prop where
  dslVersion : spec.dslVersion = "1.0"
  parserId : matchString parserIDRegex spec.parser.id = true
  parserVersion : matchString semverRegex spec.parser.version = true
  matchFormat : spec.matchConfig.format ∈ validFormats
  bodyParserType : spec.bodyParser.type ∈ validBodyTypes
  someField : spec.fields.entries ≠ []
  fields : ∀ field ∈ spec.fields.entries, FieldAccepted field.1 field.2
  policy : spec.unknownFields.policy = "preserve"
  raw : spec.raw.preserve = true

theorem validateField_eq_ok_iff (field : String × FieldSpec) :
    validateField field = .ok () ↔ FieldAccepted field.1 field.2 := by
  rcases field with ⟨fieldName, fieldSpec⟩
  simp only [validateField]
  split_ifs with hname htype hmap
  · exact ⟨nofun, fun h => absurd hname h.named⟩
  · refine ⟨nofun, fun h => ?_⟩
    have := h.typed
    simp_all
  · refine ⟨nofun, fun h => ?_⟩
    have := h.mapped
    simp_all
  · cases hfind : fieldSpec.transformations.find? fun op => !isWhitelistedOperation op with
    | some op =>
        refine ⟨nofun, fun h => ?_⟩
        have hop := List.find?_some hfind
        have hmem := List.mem_of_find?_eq_some hfind
        simp [isWhitelistedOperation, h.whitelisted op hmem] at hop
    | none =>
        simp only [true_iff]
        refine ⟨hname, by simpa using htype, by simpa using hmap, fun op hop => ?_⟩
        have := List.find?_eq_none.mp hfind op hop
        simpa [isWhitelistedOperation] using this

theorem validateFields_eq_ok_iff (fields : List (String × FieldSpec)) :
    fields.forM validateField = .ok () ↔ ∀ field ∈ fields, FieldAccepted field.1 field.2 := by
  induction fields with
  | nil => simp [pure, Except.pure]
  | cons field rest ih =>
      rw [List.forall_mem_cons, ← ih, ← validateField_eq_ok_iff]
      refine bind_eq_ok_iff.trans ?_
      exact ⟨fun ⟨_, hfield, hrest⟩ => ⟨hfield, hrest⟩, fun ⟨hfield, hrest⟩ => ⟨(), hfield, hrest⟩⟩

theorem validateRetention_eq_ok_iff (spec : ParserSpec) : validateRetention spec = .ok () ↔
    spec.unknownFields.policy = "preserve" ∧ spec.raw.preserve = true := by
  rw [validateRetention]
  split_ifs with hpolicy hraw <;> simp_all

theorem validateParserSpec_eq_ok_iff (spec : ParserSpec) :
    validateParserSpec spec = .ok () ↔ Accepted spec := by
  rw [validateParserSpec]
  split_ifs with hversion hid hsemver hformat htype hempty
  · exact ⟨nofun, fun h => absurd h.dslVersion hversion⟩
  · exact ⟨nofun, fun h => by simp [h.parserId] at hid⟩
  · exact ⟨nofun, fun h => by simp [h.parserVersion] at hsemver⟩
  · exact ⟨nofun, fun h => by simp [h.matchFormat] at hformat⟩
  · exact ⟨nofun, fun h => by simp [h.bodyParserType] at htype⟩
  · exact ⟨nofun, fun h => absurd (by simpa using hempty) h.someField⟩
  · rw [bind_eq_ok_iff]
    constructor
    · rintro ⟨_, hfields, hretention⟩
      rcases (validateRetention_eq_ok_iff spec).mp hretention with ⟨hpolicy, hraw⟩
      exact ⟨by simpa using hversion, by simpa using hid, by simpa using hsemver,
        by simpa using hformat, by simpa using htype, by simpa using hempty,
        (validateFields_eq_ok_iff _).mp hfields, hpolicy, hraw⟩
    · intro h
      exact ⟨(), (validateFields_eq_ok_iff _).mpr h.fields,
        (validateRetention_eq_ok_iff spec).mpr ⟨h.policy, h.raw⟩⟩

end Ulpf.ParserRuntime
