import Ulpf.Lib.Contract
import Ulpf.Normalize.CanonicalIR
import Ulpf.Python.IsoFormat

/-!
`normalized_event.schema.json`, with the formats as the contract tests of the
repository check them.
-/

namespace Ulpf.Contracts

open Ulpf.Lib
open Ulpf.Python
open Ulpf.Normalize (eventIDRegex sha256Regex)
open Ulpf.ParserRuntime (matchString semverRegex)

/-- `format: ipv4` -/
def isIpv4 (u : Unicode) (value : String) : Bool :=
  let octets := Text.split value "."
  octets.length = 4 && octets.all fun octet =>
    octet ≠ "" && octet.toList.all u.isDigit &&
      (parseInt u octet).any fun n => 0 ≤ n && n ≤ 255

/-- `format: date-time` -/
def isDateTime (value : String) : Bool := IsoFormat.readable value

/-- `type: integer` -/
def isInteger (accepts : ℤ → Bool) : PyNum → Bool
  | .int n => accepts n
  | .float _ => false

/-- `type: number` with a `minimum` and a `maximum`. -/
def isBetween (minimum maximum : ℚ) : PyNum → Bool
  | .int n => minimum ≤ n && n ≤ maximum
  | .float x => x.toRat?.any fun q => minimum ≤ q && q ≤ maximum

/-- An object of texts, none of them required. -/
def texts (names : List String) : Contract PyNum :=
  .object [] (names.map fun name => (name, .text)) false

/-- A source or destination endpoint: an IPv4 address and a port. -/
def endpoint (u : Unicode) : Contract PyNum :=
  .object []
    [("ip", .string (isIpv4 u)),
     ("port", .number (isInteger fun n => 0 ≤ n && n ≤ 65535))] false

def eventInfo : Contract PyNum :=
  .object ["class", "action", "outcome", "time"]
    [("class", .nonempty), ("action", .nonempty),
     ("outcome", .oneOf ["success", "failure", "unknown"]), ("time", .string isDateTime)] false

def sourceInfo : Contract PyNum :=
  .object ["vendor", "product", "device_id"]
    [("vendor", .text), ("product", .text), ("device_id", .text)] false

def httpInfo : Contract PyNum :=
  .object []
    [("method", .text), ("status_code", .number (isInteger fun _ => true)), ("url", .text)] false

def parserMetadata : Contract PyNum :=
  .object ["id", "version"]
    [("id", .nonempty), ("version", .string (matchString semverRegex))] false

def rawProvenance : Contract PyNum :=
  .object ["ref", "sha256"]
    [("ref", .nonempty), ("sha256", .string (matchString sha256Regex))] false

def qualityReport : Contract PyNum :=
  .object ["mapping_score", "status"]
    [("mapping_score", .number (isBetween 0 1)),
     ("status", .oneOf ["VERIFIED", "REVIEW_REQUIRED", "ABSTAINED"])] false

/-- The contract of a normalized event, with its optional sections. -/
def normalizedEvent (u : Unicode) : Contract PyNum :=
  .object ["schema_version", "event_id", "event", "source", "parser", "raw", "quality",
      "extensions"]
    [("schema_version", .string fun s => s = "1.0"),
     ("event_id", .string (matchString eventIDRegex)),
     ("event", eventInfo), ("source", sourceInfo), ("src", endpoint u), ("dst", endpoint u),
     ("network", texts ["protocol"]), ("user", texts ["name", "id", "domain"]),
     ("device", texts ["hostname", "ip", "mac"]), ("http", httpInfo),
     ("dns", texts ["query_name", "query_type", "response_code"]),
     ("alert", texts ["severity", "name", "category"]),
     ("parser", parserMetadata), ("raw", rawProvenance), ("quality", qualityReport),
     ("extensions", .object [] [] true)] false

end Ulpf.Contracts
