import Ulpf.Normalize.CanonicalIR
import Ulpf.ParserRuntime.Runtime

/-!
`Normalize`: the canonical event of a parse result. Each part reads its own
paths of the extracted values, under a type assertion each.
-/

namespace Ulpf.Normalize

open Ulpf.Lib
open Ulpf.Go
open Ulpf.ParserRuntime

/-- What the normalizer takes from the envelope of the ingest gateway. -/
structure RawEnvelopeInput where
  eventID : String
  sourceID : String
  rawRef : String
  rawSHA256 : String
  ingestTS : String

/-- Extracted values under their canonical paths. -/
abbrev Extracted := Dict String Value

section Reading

variable (ex : Extracted)

/-- `ex[path].(string)` -/
def stringAt (path : String) : Option String := (ex.get? path).bind asString

/-- A text that is there and not empty. -/
def nonEmptyAt (path : String) : Option String := (stringAt ex path).filter (· ≠ "")

/-- `ex[path].(int64)`, or else `ex[path].(int)`. -/
def intAt (path : String) : Option ℤ := (ex.get? path).bind asInteger

/-- `ex[path] != nil` -/
def present (path : String) : Bool := (ex.get? path).any fun val => !isNil val

end Reading

/-- A text, or a default for the empty one. -/
def orDefault (s default : String) : String := if s = "" then default else s

theorem orDefault_of_ne {s default : String} (h : s ≠ "") : orDefault s default = s := if_neg h

theorem orDefault_ne_empty {s default : String} (h : default ≠ "") : orDefault s default ≠ "" := by
  rw [orDefault]
  split
  · exact h
  · assumption

theorem nonEmptyAt_eq_some_iff {ex : Extracted} {path s : String} :
    nonEmptyAt ex path = some s ↔ stringAt ex path = some s ∧ s ≠ "" := by
  rw [nonEmptyAt, Option.filter_eq_some_iff]
  simp

theorem nonEmptyAt_ne_empty {ex : Extracted} {path s : String}
    (h : nonEmptyAt ex path = some s) : s ≠ "" := (nonEmptyAt_eq_some_iff.mp h).2

section Parts

variable (p : Platform) (env : RawEnvelopeInput) (parseResult : ParseResult) (spec : ParserSpec)

/-- The event id of an event that has none. -/
def fallbackEventID : String := "01J9A0K0P0Z3R3M5WQ6F7H8J9K"

/-- The digest of an event that has none, which is the one of the empty payload. -/
def fallbackSHA256 : String := "e3b0c44298fc1c149afbf4c8996fb92427ae41e4649b934ca495991b7852b855"

/-- The event id of the envelope, or its default. -/
def eventIDOf : String := orDefault env.eventID fallbackEventID

/-- The reference of the envelope, or one made from the source and the event id. -/
def rawRefOf : String := orDefault env.rawRef ("raw/" ++ env.sourceID ++ "/" ++ eventIDOf env)

def containsAny (s : String) (words : List String) : Bool := words.any (Text.contains s)

def failureWords : List String := ["block", "deny", "drop", "fail"]

def successWords : List String := ["allow", "permit", "success", "login"]

/-- The action of an event, which must be a text with something in it. -/
def actionOf (ex : Extracted) : String := (nonEmptyAt ex "event.action").getD "unknown"

/-- The outcome that the words in an action stand for. -/
def outcomeOfAction (u : Unicode) (action : String) : String :=
  let actionLower := toLower u action
  if containsAny actionLower failureWords then "failure"
  else if containsAny actionLower successWords then "success"
  else "unknown"

/-- `time.Now().UTC().Format(time.RFC3339)` -/
def nowText : String := String.ofList ((Time.unix p.now 0).formatRFC3339 false)

/-- The time of an event: its own, that of the ingestion or that of the machine. -/
def eventTimeOf (ex : Extracted) : String :=
  orDefault ((nonEmptyAt ex "event.timestamp").getD env.ingestTS) (nowText p)

/-- The class of an event that does not state one. -/
def inferClass (ex : Extracted) : String :=
  if present ex "http.response.status_code" || present ex "http.request.method" then "WEB_ACCESS"
  else if present ex "user.name" then "AUTHENTICATION"
  else if present ex "alert.severity" || present ex "alert.name" ||
      spec.matchConfig.format = "cef" then
    "MALWARE_ALERT"
  else if present ex "src.ip" && present ex "dst.ip" then "NETWORK_CONNECTION"
  else "SECURITY_EVENT"

/-- The class of an event, inferred when none was extracted. -/
def eventClassOf (ex : Extracted) : String :=
  (nonEmptyAt ex "event.class").getD (inferClass spec ex)

def eventInfoOf (ex : Extracted) : EventInfo where
  eventClass := eventClassOf spec ex
  action := actionOf ex
  outcome := outcomeOfAction p.unicode (actionOf ex)
  time := eventTimeOf p env ex

def sourceInfoOf (ex : Extracted) : SourceInfo where
  vendor := (nonEmptyAt ex "observer.vendor").getD "unknown"
  product := (nonEmptyAt ex "observer.product").getD (orDefault env.sourceID "generic_source")
  deviceID := (nonEmptyAt ex "host.name").getD (orDefault env.sourceID "sensor-01")

/-- The endpoint of a side, from the values under its two paths. -/
def endpointOf (ex : Extracted) (ipPath portPath : String) : Option Endpoint :=
  if present ex ipPath || present ex portPath then
    some ⟨(stringAt ex ipPath).getD "", (intAt ex portPath).getD 0⟩
  else none

def srcEndpoint (ex : Extracted) : Option Endpoint := endpointOf ex "src.ip" "src.port"

def dstEndpoint (ex : Extracted) : Option Endpoint := endpointOf ex "dst.ip" "dst.port"

/-- The transport goes before the protocol. -/
def networkInfoOf (ex : Extracted) : Option NetworkInfo :=
  ((nonEmptyAt ex "network.transport").or (nonEmptyAt ex "network.protocol")).map NetworkInfo.mk

def userInfoOf (ex : Extracted) : Option UserInfo :=
  (nonEmptyAt ex "user.name").map fun name => ⟨name, "", ""⟩

def deviceInfoOf (ex : Extracted) : Option DeviceInfo :=
  (nonEmptyAt ex "host.name").map fun hostname => ⟨hostname, "", ""⟩

/-- The HTTP section, when a status code or a method was extracted. -/
def httpInfoOf (ex unknownFields : Extracted) : Option HTTPInfo :=
  if present ex "http.response.status_code" || present ex "http.request.method" then
    some { method := (stringAt ex "http.request.method").getD ""
           statusCode := (intAt ex "http.response.status_code").getD 0
           url := ((stringAt ex "http.url").or (stringAt unknownFields "uri")).getD "" }
  else none

/-- The extracted fields that give an event its `http` section. -/
def hasHTTP (ex : Extracted) : Bool :=
  present ex "http.response.status_code" || present ex "http.request.method"

/-- The alert section, when a severity or a name was extracted. -/
def alertInfoOf (ex : Extracted) : Option AlertInfo :=
  if present ex "alert.severity" || present ex "alert.name" then
    some ⟨(stringAt ex "alert.severity").getD "", (stringAt ex "alert.name").getD "", ""⟩
  else none

def dnsInfoOf (ex : Extracted) : Option DNSInfo :=
  if present ex "dns.query_name" || present ex "dns.query_type" ||
      present ex "dns.response_code" then
    some ⟨(stringAt ex "dns.query_name").getD "", (stringAt ex "dns.query_type").getD "",
      (stringAt ex "dns.response_code").getD ""⟩
  else none

/-- The event before its validation. -/
def normalizedEventOf : NormalizedEvent :=
  let ex := parseResult.extracted
  { schemaVersion := "1.0"
    eventID := eventIDOf env
    event := eventInfoOf p env spec ex
    source := sourceInfoOf env ex
    src := srcEndpoint ex
    dst := dstEndpoint ex
    network := networkInfoOf ex
    user := userInfoOf ex
    device := deviceInfoOf ex
    http := httpInfoOf ex parseResult.unknownFields
    dns := dnsInfoOf ex
    alert := alertInfoOf ex
    parser := ⟨spec.parser.id, spec.parser.version⟩
    raw := ⟨rawRefOf env, orDefault env.rawSHA256 fallbackSHA256⟩
    quality := ⟨98 / 100, "VERIFIED"⟩
    extensions := some parseResult.unknownFields }

/-- `Normalize` -/
def normalize : Except IRError NormalizedEvent := do
  let normEvent := normalizedEventOf p env parseResult spec
  normEvent.validate p.localZone
  return normEvent

theorem normalizedEventOf_action :
    (normalizedEventOf p env parseResult spec).event.action = actionOf parseResult.extracted := by
  simp only [normalizedEventOf, eventInfoOf]

theorem normalizedEventOf_outcome :
    (normalizedEventOf p env parseResult spec).event.outcome =
      outcomeOfAction p.unicode (actionOf parseResult.extracted) := by
  simp only [normalizedEventOf, eventInfoOf]

end Parts

theorem inferClass_ne_empty {spec : ParserSpec} {ex : Extracted} : inferClass spec ex ≠ "" := by
  rw [inferClass]
  split_ifs <;> decide

theorem outcomeOfAction_mem (u : Unicode) (action : String) :
    outcomeOfAction u action ∈ ["success", "failure", "unknown"] := by
  rw [outcomeOfAction]
  split_ifs <;> decide

theorem normalize_eq_ok_iff {p : Platform} {env : RawEnvelopeInput} {parseResult : ParseResult}
    {spec : ParserSpec} {event : NormalizedEvent} :
    normalize p env parseResult spec = .ok event ↔
      normalizedEventOf p env parseResult spec = event ∧ event.validate p.localZone = .ok () := by
  rw [normalize, bind_eq_ok_iff]
  constructor
  · rintro ⟨_, hvalid, h⟩
    rw [pure_eq_ok_iff] at h
    rw [← h]
    exact ⟨rfl, hvalid⟩
  · rintro ⟨rfl, hvalid⟩
    exact ⟨(), hvalid, rfl⟩

end Ulpf.Normalize
