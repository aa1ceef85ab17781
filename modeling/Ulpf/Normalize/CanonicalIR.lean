import Ulpf.Go.NetIP
import Ulpf.Go.Platform
import Ulpf.ParserRuntime.Dsl

/-!
The canonical event of the normalizer, its validation and the JSON object it is
written as.
-/

namespace Ulpf.Normalize

open Ulpf.Lib
open Ulpf.Go
open Ulpf.ParserRuntime (matchString semverRegex)

/-- `EventInfo`: the kind of an event and its time. -/
structure EventInfo where
  eventClass : String
  action : String
  outcome : String
  time : String

/-- `SourceInfo`: the device that reported an event. -/
structure SourceInfo where
  vendor : String
  product : String
  deviceID : String

structure Endpoint where
  ip : String
  port : ℤ

structure NetworkInfo where
  protocol : String

/-- `UserInfo`: the user of an event. -/
structure UserInfo where
  name : String
  id : String
  domain : String

structure DeviceInfo where
  hostname : String
  ip : String
  mac : String

structure HTTPInfo where
  method : String
  statusCode : ℤ
  url : String

structure DNSInfo where
  queryName : String
  queryType : String
  responseCode : String

structure AlertInfo where
  severity : String
  name : String
  category : String

/-- `ParserMetadata`: the parser that made the event. -/
structure ParserMetadata where
  id : String
  version : String

/-- `RawProvenance`: where the raw event is stored, and its digest. -/
structure RawProvenance where
  ref : String
  sha256 : String

/-- `QualityReport`: the score of the mapping and what became of it. -/
structure QualityReport where
  mappingScore : ℚ
  status : String

/-- `NormalizedEvent`. A missing part is a nil pointer, missing extensions are a
nil map. -/
structure NormalizedEvent where
  schemaVersion : String
  eventID : String
  event : EventInfo
  source : SourceInfo
  src : Option Endpoint
  dst : Option Endpoint
  network : Option NetworkInfo
  user : Option UserInfo
  device : Option DeviceInfo
  http : Option HTTPInfo
  dns : Option DNSInfo
  alert : Option AlertInfo
  parser : ParserMetadata
  raw : RawProvenance
  quality : QualityReport
  extensions : Option (Dict String Value)

/-- The errors of `Validate`, each with what its text names. -/
inductive IRError where
  | invalidSchemaVersion (version : String)
  | invalidEventID (id : String)
  | required (field : String)
  | invalidOutcome (outcome : String)
  | invalidTime (time : String)
  | invalidIP (field ip : String)
  | invalidPort (field : String) (port : ℤ)
  | invalidParserVersion (version : String)
  | invalidRawSHA256 (digest : String)
  | invalidMappingScore (score : ℚ)
  | invalidQualityStatus (status : String)
  | nilExtensions
  deriving DecidableEq

section Patterns

open Regex

def hexDigit : Regex := alt (range '0' '9') (alt (range 'a' 'f') (range 'A' 'F'))

def ulidChar : Regex :=
  alt (range '0' '9') (alt (range 'A' 'H') (alt (oneOf "JK") (alt (oneOf "MN")
    (alt (range 'P' 'T') (range 'V' 'Z')))))

/-- A ULID or a UUID of version 7. -/
def eventIDRegex : Regex :=
  let uuid := all [times hexDigit 8, text "-", times hexDigit 4, text "-7", times hexDigit 3,
    text "-", oneOf "89abAB", times hexDigit 3, text "-", times hexDigit 12]
  alt (seq (range '0' '7') (times ulidChar 25)) uuid

def sha256Regex : Regex := times hexDigit 64

end Patterns

section Validation

/-- A check of `Validate` with the error it returns. -/
def ensure (ok : Bool) (e : IRError) : Except IRError Unit := if ok then .ok () else .error e

/-- Whether a text is a time of RFC 3339, with or without a fraction. -/
def isRFC3339 (l : Time.LocalZone) (s : String) : Bool :=
  (Time.parse l Time.rfc3339 s).isSome || (Time.parse l Time.rfc3339Nano s).isSome

def isOptionalIP (ip : String) : Bool := ip = "" || (NetIP.parseIP ip).isSome

def isPort (port : ℤ) : Bool := 0 ≤ port && port ≤ 65535

def EventInfo.validate (l : Time.LocalZone) (e : EventInfo) : Except IRError Unit := do
  ensure (e.eventClass ≠ "") (.required "event.class")
  ensure (e.action ≠ "") (.required "event.action")
  ensure (["success", "failure", "unknown"].contains e.outcome) (.invalidOutcome e.outcome)
  ensure (isRFC3339 l e.time) (.invalidTime e.time)

def SourceInfo.validate (e : SourceInfo) : Except IRError Unit := do
  ensure (e.vendor ≠ "") (.required "source.vendor")
  ensure (e.product ≠ "") (.required "source.product")
  ensure (e.deviceID ≠ "") (.required "source.device_id")

/-- The checks of an endpoint that is there: its address and its port. -/
def validateEndpoint (side : String) : Option Endpoint → Except IRError Unit
  | none => .ok ()
  | some e => do
      ensure (isOptionalIP e.ip) (.invalidIP (side ++ ".ip") e.ip)
      ensure (isPort e.port) (.invalidPort (side ++ ".port") e.port)

def ParserMetadata.validate (e : ParserMetadata) : Except IRError Unit := do
  ensure (e.id ≠ "") (.required "parser.id")
  ensure (matchString semverRegex e.version) (.invalidParserVersion e.version)

def RawProvenance.validate (e : RawProvenance) : Except IRError Unit := do
  ensure (e.ref ≠ "") (.required "raw.ref")
  ensure (matchString sha256Regex e.sha256) (.invalidRawSHA256 e.sha256)

/-- The checks of the quality section. -/
def QualityReport.validate (e : QualityReport) : Except IRError Unit := do
  ensure (0 ≤ e.mappingScore && e.mappingScore ≤ 1) (.invalidMappingScore e.mappingScore)
  ensure (["VERIFIED", "REVIEW_REQUIRED", "ABSTAINED"].contains e.status)
    (.invalidQualityStatus e.status)

/-- `Validate` -/
def NormalizedEvent.validate (l : Time.LocalZone) (e : NormalizedEvent) :
    Except IRError Unit := do
  ensure (e.schemaVersion = "1.0") (.invalidSchemaVersion e.schemaVersion)
  ensure (matchString eventIDRegex e.eventID) (.invalidEventID e.eventID)
  e.event.validate l
  e.source.validate
  validateEndpoint "src" e.src
  validateEndpoint "dst" e.dst
  e.parser.validate
  e.raw.validate
  e.quality.validate
  ensure e.extensions.isSome .nilExtensions

end Validation

section Writing

/-- A member that an empty string leaves out. -/
def omitEmpty (key s : String) : List (String × Value) := if s = "" then [] else [(key, .str s)]

/-- A number as a JSON text gives it back. -/
def jsonNumber (n : ℤ) : Value := .num (.float64 (Binary64.ofInt n))

/-- A member that the number zero leaves out. -/
def omitZero (key : String) (n : ℤ) : List (String × Value) :=
  if n = 0 then [] else [(key, jsonNumber n)]

/-- A member that a nil pointer leaves out. -/
def omitNil {α : Type} (key : String) (members : α → List (String × Value)) :
    Option α → List (String × Value)
  | none => []
  | some x => [(key, .obj (members x))]

/-- The members of an endpoint that are not empty. -/
def Endpoint.members (e : Endpoint) : List (String × Value) :=
  omitEmpty "ip" e.ip ++ omitZero "port" e.port

def NetworkInfo.members (e : NetworkInfo) : List (String × Value) := omitEmpty "protocol" e.protocol

def UserInfo.members (e : UserInfo) : List (String × Value) :=
  omitEmpty "name" e.name ++ omitEmpty "id" e.id ++ omitEmpty "domain" e.domain

def DeviceInfo.members (e : DeviceInfo) : List (String × Value) :=
  omitEmpty "hostname" e.hostname ++ omitEmpty "ip" e.ip ++ omitEmpty "mac" e.mac

def HTTPInfo.members (e : HTTPInfo) : List (String × Value) :=
  omitEmpty "method" e.method ++ omitZero "status_code" e.statusCode ++ omitEmpty "url" e.url

def DNSInfo.members (e : DNSInfo) : List (String × Value) :=
  omitEmpty "query_name" e.queryName ++ omitEmpty "query_type" e.queryType ++
    omitEmpty "response_code" e.responseCode

def AlertInfo.members (e : AlertInfo) : List (String × Value) :=
  omitEmpty "severity" e.severity ++ omitEmpty "name" e.name ++ omitEmpty "category" e.category

/-- Numbers as a JSON text gives them back. -/
def asFloat : GoNum → GoNum
  | .int n | .int64 n => .float64 (Binary64.ofInt n)
  | .float64 x => .float64 x

/-- The event read back from `ToJSON` as a map. -/
def NormalizedEvent.toMap (e : NormalizedEvent) : Value :=
  .obj ([("schema_version", .str e.schemaVersion), ("event_id", .str e.eventID),
      ("event", .obj [("class", .str e.event.eventClass), ("action", .str e.event.action),
        ("outcome", .str e.event.outcome), ("time", .str e.event.time)]),
      ("source", .obj [("vendor", .str e.source.vendor), ("product", .str e.source.product),
        ("device_id", .str e.source.deviceID)])] ++
    omitNil "src" Endpoint.members e.src ++ omitNil "dst" Endpoint.members e.dst ++
    omitNil "network" NetworkInfo.members e.network ++ omitNil "user" UserInfo.members e.user ++
    omitNil "device" DeviceInfo.members e.device ++ omitNil "http" HTTPInfo.members e.http ++
    omitNil "dns" DNSInfo.members e.dns ++ omitNil "alert" AlertInfo.members e.alert ++
    [("parser", .obj [("id", .str e.parser.id), ("version", .str e.parser.version)]),
      ("raw", .obj [("ref", .str e.raw.ref), ("sha256", .str e.raw.sha256)]),
      ("quality", .obj
        [("mapping_score", .num (.float64 (Binary64.ofMagnitude false e.quality.mappingScore))),
          ("status", .str e.quality.status)]),
      ("extensions", match e.extensions with
        | none => .null
        | some ext => .obj (ext.entries.map fun m => (m.1, m.2.mapNum asFloat)))])

end Writing

end Ulpf.Normalize
