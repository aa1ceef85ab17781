import Ulpf.Exporters.Ecs

/-!
The exporter to the Open Cybersecurity Schema Framework.
-/

namespace Ulpf.Exporters.Ocsf

open Ulpf.Lib
open Ulpf.Lib.Text (contains)
open Ulpf.Go
open Ulpf.Normalize

def ocsfVersion : String := "1.1.0"

/-- The product that reported an event. -/
structure ProductInfo where
  vendorName : String
  name : String
  uid : String
  version : String

/-- The version of the schema, the id and the time of the event, and the product. -/
structure Metadata where
  version : String
  uid : String
  originalTime : String
  product : ProductInfo

structure Endpoint where
  ip : String
  port : ℤ

structure ConnectionInfo where
  protocolName : String

structure User where
  name : String
  uid : String
  domain : String

/-- An actor, of which only the user is exported. -/
structure Actor where
  user : Option User

structure Device where
  hostname : String
  ip : String
  mac : String

structure URLInfo where
  urlString : String

structure HTTPRequest where
  httpMethod : String
  url : Option URLInfo

structure HTTPResponse where
  code : ℤ

/-- The `finding` object of an alert. -/
structure Finding where
  title : String
  types : List String
  severity : String

/-- What `unmapped` holds: values of extensions, and the DNS section of the event itself. -/
inductive Unmapped where
  | value (v : Value)
  | dns (d : DNSInfo)

/-- An event in the words of OCSF; what is missing is left out. -/
structure OCSFEvent where
  classUID : ℕ
  className : String
  categoryUID : ℕ
  categoryName : String
  activityID : ℕ
  activityName : String
  typeUID : ℕ
  time : ℤ
  timeDT : String
  metadata : Metadata
  status : String
  statusID : ℕ
  srcEndpoint : Option Endpoint
  dstEndpoint : Option Endpoint
  connectionInfo : Option ConnectionInfo
  actor : Option Actor
  device : Option Device
  httpRequest : Option HTTPRequest
  httpResponse : Option HTTPResponse
  finding : Option Finding
  unmapped : Dict String Unmapped

def classSystemActivity : ℕ := 1001

def classSecurityFinding : ℕ := 2001

def classAuthentication : ℕ := 3002

def classNetworkActivity : ℕ := 4001

def classHTTPActivity : ℕ := 6003

section Projection

variable (u : Unicode)

/-- The class and the category of an event, each with its name. -/
def resolveClassAndCategory (eventClass : String) : (ℕ × String) × ℕ × String :=
  let cls := toUpper u eventClass
  if contains cls "NETWORK" then
    ((classNetworkActivity, "Network Activity"), 4, "Network Activity")
  else if contains cls "AUTH" || contains cls "IDENTITY" then
    ((classAuthentication, "Authentication"), 3, "Identity & Access Management")
  else if contains cls "HTTP" || contains cls "WEB" then
    ((classHTTPActivity, "HTTP Activity"), 6, "Application Activity")
  else if contains cls "ALERT" || contains cls "INCIDENT" || contains cls "FINDING" then
    ((classSecurityFinding, "Security Finding"), 2, "Findings")
  else ((classSystemActivity, "System Activity"), 1, "System Activity")

def containsAny (s : String) (subs : List String) : Bool := subs.any (contains s)

/-- The activity of an event of a class, by the words of its action. -/
def resolveActivityID (classUID : ℕ) (action : String) : ℕ :=
  let act := toLower u action
  if classUID = classNetworkActivity then
    if containsAny act ["open", "start"] then 1
    else if containsAny act ["close", "end"] then 2
    else if containsAny act ["deny", "denied", "block", "blocked", "drop"] then 6
    else 99
  else if classUID = classAuthentication then
    if containsAny act ["login", "logon", "auth"] then 1
    else if containsAny act ["logout", "logoff"] then 2
    else 99
  else if classUID = classHTTPActivity then
    if containsAny act ["connect", "get", "post"] then 1 else 99
  else if classUID = classSecurityFinding then 1
  else 99

/-- The status of an outcome and its number. -/
def resolveStatus (outcome : String) : String × ℕ :=
  let o := toLower u outcome
  if o = "success" then ("Success", 1) else if o = "failure" then ("Failure", 2) else ("Unknown", 0)

/-- Milliseconds of a time text, of the zero time when it is none. -/
def timeMillis (l : Time.LocalZone) (s : String) : ℤ :=
  match (Time.parse l Time.rfc3339 s).or (Time.parse l Time.rfc3339Nano s) with
  | some t => t.sec * 1000 + t.nsec / 10 ^ 6
  | none => -62135596800000

def endpoint (e : Normalize.Endpoint) : Option Endpoint :=
  if e.ip ≠ "" ∨ 0 < e.port then some ⟨e.ip, e.port⟩ else none

def connectionInfo (n : NetworkInfo) : Option ConnectionInfo :=
  if n.protocol ≠ "" then some ⟨toUpper u n.protocol⟩ else none

def actor (x : UserInfo) : Option Actor :=
  if x.name ≠ "" ∨ x.id ≠ "" ∨ x.domain ≠ "" then some ⟨some ⟨x.name, x.id, x.domain⟩⟩ else none

def device (d : DeviceInfo) : Option Device :=
  if d.hostname ≠ "" ∨ d.ip ≠ "" ∨ d.mac ≠ "" then some ⟨d.hostname, d.ip, d.mac⟩ else none

/-- A request is exported for its method or its URL. -/
def httpRequest (h : HTTPInfo) : Option HTTPRequest :=
  if h.method ≠ "" ∨ h.url ≠ "" then
    some ⟨h.method, if h.url ≠ "" then some ⟨h.url⟩ else none⟩
  else none

/-- A response is exported when its status code is positive. -/
def httpResponse (h : HTTPInfo) : Option HTTPResponse :=
  if 0 < h.statusCode then some ⟨h.statusCode⟩ else none

/-- An alert is exported when anything is known of it; its category is its only type. -/
def finding (a : AlertInfo) : Option Finding :=
  if a.name ≠ "" ∨ a.category ≠ "" ∨ a.severity ≠ "" then
    some ⟨a.name, if a.category ≠ "" then [a.category] else [], a.severity⟩
  else none

/-- The entry of a DNS section. A section with a response code alone has none. -/
def dnsEntry (d : DNSInfo) : List (String × Unmapped) :=
  if d.queryName ≠ "" ∨ d.queryType ≠ "" then [("dns", .dns d)] else []

/-- The provenance and the DNS section of the event, then its extensions over them. -/
def unmappedOf (ir : NormalizedEvent) : Dict String Unmapped :=
  withExtensions ir .value (.ofList
    ([("raw_ref", .value (.str ir.raw.ref)), ("raw_sha256", .value (.str ir.raw.sha256)),
      ("parser_id", .value (.str ir.parser.id)),
      ("quality_status", .value (.str ir.quality.status))] ++
      (ir.dns.map dnsEntry).getD []))

/-- The projection of a valid event. -/
def ocsfEventOf (l : Time.LocalZone) (ir : NormalizedEvent) : OCSFEvent :=
  let resolved := resolveClassAndCategory u ir.event.eventClass
  let activityID := resolveActivityID u resolved.1.1 ir.event.action
  { classUID := resolved.1.1
    className := resolved.1.2
    categoryUID := resolved.2.1
    categoryName := resolved.2.2
    activityID := activityID
    activityName := ir.event.action
    typeUID := resolved.1.1 * 100 + activityID
    time := timeMillis l ir.event.time
    timeDT := ir.event.time
    metadata :=
      { version := ocsfVersion
        uid := ir.eventID
        originalTime := ir.event.time
        product := ⟨ir.source.vendor, ir.source.product, ir.source.deviceID, ir.parser.version⟩ }
    status := (resolveStatus u ir.event.outcome).1
    statusID := (resolveStatus u ir.event.outcome).2
    srcEndpoint := ir.src.bind endpoint
    dstEndpoint := ir.dst.bind endpoint
    connectionInfo := ir.network.bind (connectionInfo u)
    actor := ir.user.bind actor
    device := ir.device.bind device
    httpRequest := ir.http.bind httpRequest
    httpResponse := ir.http.bind httpResponse
    finding := ir.alert.bind finding
    unmapped := unmappedOf ir }

/-- `Export` -/
def exportOCSF (l : Time.LocalZone) : Option NormalizedEvent → Except ExportError OCSFEvent
  | none => .error .nilEvent
  | some ir => ((ir.validate l).mapError .invalid).map fun _ => ocsfEventOf u l ir

end Projection

theorem exportOCSF_eq_ok_iff {l : Time.LocalZone} {u : Unicode} {ir : NormalizedEvent}
    {out : OCSFEvent} :
    exportOCSF u l (some ir) = .ok out ↔ ir.validate l = .ok () ∧ out = ocsfEventOf u l ir := by
  rw [exportOCSF, map_eq_ok_iff]
  simp only [mapError_eq_ok_iff]
  constructor
  · rintro ⟨_, hvalid, rfl⟩
    exact ⟨hvalid, rfl⟩
  · rintro ⟨hvalid, rfl⟩
    exact ⟨(), hvalid, rfl⟩

end Ulpf.Exporters.Ocsf
