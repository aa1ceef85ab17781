import Ulpf.Lib.Outcome
import Ulpf.Normalize.CanonicalIR

/-!
The exporter to the Elastic Common Schema.
-/

namespace Ulpf.Exporters

open Ulpf.Lib
open Ulpf.Lib.Text (contains)
open Ulpf.Go
open Ulpf.Normalize

/-- What an exporter returns instead of an event. -/
inductive ExportError where
  | nilEvent
  | invalid (e : IRError)
  deriving DecidableEq

/-- Assign the extensions of an event over the entries of a map. No key occurs
twice among them, so the order in which the map gives them is immaterial. -/
def withExtensions {α : Type} (ir : NormalizedEvent) (wrap : Value → α) (m : Dict String α) :
    Dict String α :=
  m.update ((ir.extensions.getD .empty).entries.map fun entry => (entry.1, wrap entry.2))

theorem get?_withExtensions {α : Type} (ir : NormalizedEvent) (wrap : Value → α)
    (m : Dict String α) (k : String) :
    (withExtensions ir wrap m).get? k =
      (((ir.extensions.getD .empty).get? k).map wrap).or (m.get? k) := by
  have hnodup : (((ir.extensions.getD .empty).entries.map fun entry =>
      (entry.1, wrap entry.2)).map Prod.fst).Nodup := by
    rw [List.map_map]
    exact (ir.extensions.getD .empty).nodup
  rw [withExtensions, Dict.get?_update_of_nodup _ hnodup, lookup_map_snd]
  rfl

namespace Ecs

def ecsVersion : String := "8.11.0"

/-- The `event` object: what happened, in the words of ECS. -/
structure EventFields where
  id : String
  kind : String
  category : List String
  type : List String
  action : String
  outcome : String
  reason : String

structure EndpointFields where
  ip : String
  port : ℤ

structure NetworkFields where
  transport : String

structure UserFields where
  name : String
  id : String
  domain : String

structure HostFields where
  name : String
  ip : String
  mac : String

structure HTTPRequestFields where
  method : String

structure HTTPResponseFields where
  statusCode : ℤ

/-- The `http` object, of which either part may be missing. -/
structure HTTPFields where
  request : Option HTTPRequestFields
  response : Option HTTPResponseFields

structure URLFields where
  original : String

structure DNSQuestionFields where
  name : String
  type : String

structure DNSFields where
  question : Option DNSQuestionFields
  responseCode : String

/-- The `observer` object: the device that reported the event. -/
structure ObserverFields where
  vendor : String
  product : String
  name : String

/-- An event in the words of ECS; what is missing is left out. -/
structure ECSEvent where
  timestamp : String
  ecsVersion : String
  event : EventFields
  source : Option EndpointFields
  destination : Option EndpointFields
  network : Option NetworkFields
  user : Option UserFields
  host : Option HostFields
  http : Option HTTPFields
  url : Option URLFields
  dns : Option DNSFields
  observer : Option ObserverFields
  labels : Dict String Value

section Projection

variable (u : Unicode)

/-- The categories of a class, by the first of some words that it contains. -/
def mapECSCategories (eventClass : String) : List String :=
  let c := toUpper u eventClass
  if contains c "NETWORK" then ["network"]
  else if contains c "AUTH" || contains c "IDENTITY" then ["authentication"]
  else if contains c "HTTP" || contains c "WEB" then ["web"]
  else if contains c "ALERT" || contains c "INCIDENT" then ["threat"]
  else if contains c "PROCESS" || contains c "ENDPOINT" then ["process"]
  else if contains c "FILE" then ["file"]
  else ["configuration"]

/-- The types of an event, by its outcome and its action. -/
def mapECSTypes (action outcome : String) : List String :=
  let act := toLower u action
  if outcome = "failure" || ["block", "blocked", "deny", "denied"].contains act then ["denied"]
  else if outcome = "success" || ["allow", "allowed"].contains act then ["allowed"]
  else ["info"]

/-- An endpoint is exported when it has an address or a port. -/
def endpointFields (e : Endpoint) : Option EndpointFields :=
  if e.ip ≠ "" ∨ 0 < e.port then some ⟨e.ip, e.port⟩ else none

def networkFields (n : NetworkInfo) : Option NetworkFields :=
  if n.protocol ≠ "" then some ⟨toLower u n.protocol⟩ else none

/-- A user is exported when anything is known of it. -/
def userFields (x : UserInfo) : Option UserFields :=
  if x.name ≠ "" ∨ x.id ≠ "" ∨ x.domain ≠ "" then some ⟨x.name, x.id, x.domain⟩ else none

def hostFields (d : DeviceInfo) : Option HostFields :=
  if d.hostname ≠ "" ∨ d.ip ≠ "" ∨ d.mac ≠ "" then some ⟨d.hostname, d.ip, d.mac⟩ else none

/-- Of the HTTP section a method and a positive status code are exported. -/
def httpFields (h : HTTPInfo) : Option HTTPFields :=
  let request := if h.method ≠ "" then some (⟨h.method⟩ : HTTPRequestFields) else none
  let response := if 0 < h.statusCode then some (⟨h.statusCode⟩ : HTTPResponseFields) else none
  if request.isSome ∨ response.isSome then some ⟨request, response⟩ else none

/-- The URL of the HTTP section has an object of its own. -/
def urlFields (h : HTTPInfo) : Option URLFields := if h.url ≠ "" then some ⟨h.url⟩ else none

/-- The DNS section is exported when anything is known of it, and its question when that has a name
or a type. -/
def dnsFields (d : DNSInfo) : Option DNSFields :=
  if d.queryName ≠ "" ∨ d.queryType ≠ "" ∨ d.responseCode ≠ "" then
    some
      { question :=
          if d.queryName ≠ "" ∨ d.queryType ≠ "" then some ⟨d.queryName, d.queryType⟩ else none
        responseCode := d.responseCode }
  else none

/-- The source of an event is its observer. -/
def observerFields (s : SourceInfo) : Option ObserverFields :=
  if s.vendor ≠ "" ∨ s.product ≠ "" ∨ s.deviceID ≠ "" then some ⟨s.vendor, s.product, s.deviceID⟩
  else none

/-- The labels: the provenance of the event, then its extensions over it. -/
def labelsOf (ir : NormalizedEvent) : Dict String Value :=
  withExtensions ir id (.ofList
    [("raw_ref", .str ir.raw.ref), ("raw_sha256", .str ir.raw.sha256),
      ("parser_id", .str ir.parser.id), ("parser_version", .str ir.parser.version),
      ("quality_status", .str ir.quality.status)])

/-- The projection of a valid event. -/
def ecsEventOf (ir : NormalizedEvent) : ECSEvent where
  timestamp := ir.event.time
  ecsVersion := ecsVersion
  event :=
    { id := ir.eventID
      kind := "event"
      category := mapECSCategories u ir.event.eventClass
      type := mapECSTypes u ir.event.action ir.event.outcome
      action := ir.event.action
      outcome := ir.event.outcome
      reason := (ir.alert.map AlertInfo.name).getD "" }
  source := ir.src.bind endpointFields
  destination := ir.dst.bind endpointFields
  network := ir.network.bind (networkFields u)
  user := ir.user.bind userFields
  host := ir.device.bind hostFields
  http := ir.http.bind httpFields
  url := ir.http.bind urlFields
  dns := ir.dns.bind dnsFields
  observer := observerFields ir.source
  labels := labelsOf ir

/-- `Export` -/
def exportECS (l : Time.LocalZone) : Option NormalizedEvent → Except ExportError ECSEvent
  | none => .error .nilEvent
  | some ir => ((ir.validate l).mapError .invalid).map fun _ => ecsEventOf u ir

end Projection

theorem exportECS_eq_ok_iff {l : Time.LocalZone} {u : Unicode} {ir : NormalizedEvent}
    {out : ECSEvent} :
    exportECS u l (some ir) = .ok out ↔ ir.validate l = .ok () ∧ out = ecsEventOf u ir := by
  rw [exportECS, map_eq_ok_iff]
  simp only [mapError_eq_ok_iff]
  constructor
  · rintro ⟨_, hvalid, rfl⟩
    exact ⟨hvalid, rfl⟩
  · rintro ⟨hvalid, rfl⟩
    exact ⟨(), hvalid, rfl⟩

end Ecs

end Ulpf.Exporters
