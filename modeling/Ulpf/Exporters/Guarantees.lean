import Ulpf.Exporters.Ocsf
import Ulpf.Normalize.Acceptance

/-!
What the exports keep of an event: its provenance beside extensions of any name,
and its canonical fields.
-/

namespace Ulpf.Exporters

open Ulpf.Lib
open Ulpf.Go
open Ulpf.Normalize
open Ulpf.ParserRuntime (matchString semverRegex)

section Provenance

/-- The extension of a name, a value taken from the log. -/
def extension (ir : NormalizedEvent) (k : String) : Option Value :=
  (ir.extensions.getD .empty).get? k

/-- The DNS section of an event, when it says anything. -/
def ownDNS (ir : NormalizedEvent) : Option DNSInfo :=
  ir.dns.filter fun d => d.queryName ≠ "" ∨ d.queryType ≠ "" ∨ d.responseCode ≠ ""

/-- The labels say where the event comes from, and hold its extensions. -/
structure LabelsIntact (ir : NormalizedEvent) (labels : Dict String Value) : Prop where
  rawRef : labels.get? "raw_ref" = some (.str ir.raw.ref)
  rawSHA256 : labels.get? "raw_sha256" = some (.str ir.raw.sha256)
  parserID : labels.get? "parser_id" = some (.str ir.parser.id)
  parserVersion : labels.get? "parser_version" = some (.str ir.parser.version)
  qualityStatus : labels.get? "quality_status" = some (.str ir.quality.status)
  extensions : ∀ k v, extension ir k = some v → labels.get? k = some v

/-- `unmapped` says what the event says of its origin, and everything that OCSF has no place for. -/
structure UnmappedIntact (ir : NormalizedEvent) (unmapped : Dict String Ocsf.Unmapped) : Prop where
  rawRef : unmapped.get? "raw_ref" = some (.value (.str ir.raw.ref))
  rawSHA256 : unmapped.get? "raw_sha256" = some (.value (.str ir.raw.sha256))
  parserID : unmapped.get? "parser_id" = some (.value (.str ir.parser.id))
  qualityStatus : unmapped.get? "quality_status" = some (.value (.str ir.quality.status))
  dns : unmapped.get? "dns" = (ownDNS ir).map .dns
  extensions : ∀ k v, extension ir k = some v → unmapped.get? k = some (.value v)

/-- Both exports of an event keep its provenance and its extensions. -/
def KeepsProvenance (l : Time.LocalZone) (u : Unicode) (ir : NormalizedEvent) : Prop :=
  ∀ ecs ocsf, Ecs.exportECS u l (some ir) = .ok ecs → Ocsf.exportOCSF u l (some ir) = .ok ocsf →
    LabelsIntact ir ecs.labels ∧ UnmappedIntact ir ocsf.unmapped

/-- An extension of this name, if there is one, has the value of the event's own. -/
def Agrees (ir : NormalizedEvent) (k : String) (own : String) : Prop :=
  ∀ v, extension ir k = some v → v = .str own

/-- No extension says anything else under a name of the exporters, and a DNS
section with a response code has a question. -/
structure NamesApart (ir : NormalizedEvent) : Prop where
  rawRef : Agrees ir "raw_ref" ir.raw.ref
  rawSHA256 : Agrees ir "raw_sha256" ir.raw.sha256
  parserID : Agrees ir "parser_id" ir.parser.id
  parserVersion : Agrees ir "parser_version" ir.parser.version
  qualityStatus : Agrees ir "quality_status" ir.quality.status
  noDNS : extension ir "dns" = none
  question : ∀ d, ir.dns = some d → d.responseCode ≠ "" → d.queryName ≠ "" ∨ d.queryType ≠ ""

theorem get?_withExtensions_eq_some_iff {α : Type} {ir : NormalizedEvent} {wrap : Value → α}
    {m : Dict String α} {k : String} {own : α} (hown : m.get? k = some own) :
    (withExtensions ir wrap m).get? k = some own ↔
      ∀ v, extension ir k = some v → wrap v = own := by
  rw [get?_withExtensions, hown, ← extension]
  cases extension ir k with
  | none => simp
  | some v => simp

theorem get?_withExtensions_of_extension {α : Type} {ir : NormalizedEvent} (wrap : Value → α)
    (m : Dict String α) {k : String} {v : Value} (h : extension ir k = some v) :
    (withExtensions ir wrap m).get? k = some (wrap v) := by
  rw [get?_withExtensions, ← extension, h]
  rfl

theorem labelsIntact_iff {ir : NormalizedEvent} :
    LabelsIntact ir (Ecs.labelsOf ir) ↔ Agrees ir "raw_ref" ir.raw.ref ∧
      Agrees ir "raw_sha256" ir.raw.sha256 ∧ Agrees ir "parser_id" ir.parser.id ∧
      Agrees ir "parser_version" ir.parser.version ∧
      Agrees ir "quality_status" ir.quality.status := by
  have hkey : ∀ k own, (Dict.ofList
      [("raw_ref", Json.str ir.raw.ref), ("raw_sha256", .str ir.raw.sha256),
        ("parser_id", .str ir.parser.id), ("parser_version", .str ir.parser.version),
        ("quality_status", .str ir.quality.status)]).get? k = some (.str own) →
      ((Ecs.labelsOf ir).get? k = some (.str own) ↔ Agrees ir k own) :=
    fun k own hown => get?_withExtensions_eq_some_iff hown
  rw [← hkey "raw_ref" _ rfl, ← hkey "raw_sha256" _ rfl, ← hkey "parser_id" _ rfl,
    ← hkey "parser_version" _ rfl, ← hkey "quality_status" _ rfl]
  constructor
  · rintro ⟨href, hdigest, hid, hversion, hstatus, -⟩
    exact ⟨href, hdigest, hid, hversion, hstatus⟩
  · rintro ⟨href, hdigest, hid, hversion, hstatus⟩
    exact ⟨href, hdigest, hid, hversion, hstatus,
      fun k v h => get?_withExtensions_of_extension id _ h⟩

theorem get?_ownEntries (ir : NormalizedEvent) (k : String) (hk : k ≠ "dns") :
    (Dict.ofList ([("raw_ref", Ocsf.Unmapped.value (.str ir.raw.ref)),
      ("raw_sha256", .value (.str ir.raw.sha256)), ("parser_id", .value (.str ir.parser.id)),
      ("quality_status", .value (.str ir.quality.status))] ++
        (ir.dns.map Ocsf.dnsEntry).getD [])).get? k =
      (Dict.ofList [("raw_ref", Ocsf.Unmapped.value (.str ir.raw.ref)),
        ("raw_sha256", .value (.str ir.raw.sha256)), ("parser_id", .value (.str ir.parser.id)),
        ("quality_status", .value (.str ir.quality.status))]).get? k := by
  have hdns : k ∉ ((ir.dns.map Ocsf.dnsEntry).getD []).map Prod.fst := by
    cases ir.dns with
    | none => simp
    | some d =>
        simp only [Option.map_some, Option.getD_some, Ocsf.dnsEntry]
        split <;> simp [hk]
  rw [Dict.get?_ofList, Dict.get?_ofList, List.reverse_append, lookup_append]
  rw [lookup_eq_none_iff.mpr (by simpa using hdns)]
  rfl

theorem get?_ownEntries_dns (ir : NormalizedEvent) :
    (Dict.ofList ([("raw_ref", Ocsf.Unmapped.value (.str ir.raw.ref)),
      ("raw_sha256", .value (.str ir.raw.sha256)), ("parser_id", .value (.str ir.parser.id)),
      ("quality_status", .value (.str ir.quality.status))] ++
        (ir.dns.map Ocsf.dnsEntry).getD [])).get? "dns" =
      (ir.dns.filter fun d => d.queryName ≠ "" ∨ d.queryType ≠ "").map .dns := by
  cases ir.dns with
  | none => rfl
  | some d =>
      simp only [Option.map_some, Option.getD_some, Ocsf.dnsEntry, Option.filter_some,
        decide_eq_true_eq]
      split <;> rfl

theorem dns_intact_iff {ir : NormalizedEvent} :
    (Ocsf.unmappedOf ir).get? "dns" = (ownDNS ir).map .dns ↔
      extension ir "dns" = none ∧
        ∀ d, ir.dns = some d → d.responseCode ≠ "" → d.queryName ≠ "" ∨ d.queryType ≠ "" := by
  rw [Ocsf.unmappedOf, get?_withExtensions, get?_ownEntries_dns, ← extension]
  cases extension ir "dns" with
  | some v =>
      cases ownDNS ir with
      | none => simp
      | some d => simp
  | none =>
      simp only [Option.map_none, Option.none_or, true_and, ownDNS]
      cases ir.dns with
      | none => simp
      | some d =>
          by_cases hquestion : d.queryName ≠ "" ∨ d.queryType ≠ ""
          · have hown : d.queryName ≠ "" ∨ d.queryType ≠ "" ∨ d.responseCode ≠ "" := by tauto
            simp [Option.filter_some, hquestion, hown]
          · by_cases hcode : d.responseCode ≠ ""
            · simp [Option.filter_some, hquestion, hcode]
            · have hown : ¬ (d.queryName ≠ "" ∨ d.queryType ≠ "" ∨ d.responseCode ≠ "") := by tauto
              simp only [Option.filter_some, hquestion, hown, decide_false]
              simp [hcode]

theorem unmappedIntact_iff {ir : NormalizedEvent} :
    UnmappedIntact ir (Ocsf.unmappedOf ir) ↔ Agrees ir "raw_ref" ir.raw.ref ∧
      Agrees ir "raw_sha256" ir.raw.sha256 ∧ Agrees ir "parser_id" ir.parser.id ∧
      Agrees ir "quality_status" ir.quality.status ∧
      (Ocsf.unmappedOf ir).get? "dns" = (ownDNS ir).map .dns := by
  have hkey : ∀ k own, k ≠ "dns" → (Dict.ofList
      [("raw_ref", Ocsf.Unmapped.value (.str ir.raw.ref)),
        ("raw_sha256", .value (.str ir.raw.sha256)), ("parser_id", .value (.str ir.parser.id)),
        ("quality_status", .value (.str ir.quality.status))]).get? k = some (.value (.str own)) →
      ((Ocsf.unmappedOf ir).get? k = some (.value (.str own)) ↔ Agrees ir k own) := by
    intro k own hk hown
    rw [Ocsf.unmappedOf, get?_withExtensions_eq_some_iff (by rw [get?_ownEntries ir k hk, hown]),
      Agrees]
    simp
  rw [← hkey "raw_ref" _ (by decide) rfl, ← hkey "raw_sha256" _ (by decide) rfl,
    ← hkey "parser_id" _ (by decide) rfl, ← hkey "quality_status" _ (by decide) rfl]
  constructor
  · rintro ⟨href, hdigest, hid, hstatus, hdns, -⟩
    exact ⟨href, hdigest, hid, hstatus, hdns⟩
  · rintro ⟨href, hdigest, hid, hstatus, hdns⟩
    exact ⟨href, hdigest, hid, hstatus, hdns,
      fun k v h => get?_withExtensions_of_extension Ocsf.Unmapped.value _ h⟩

/-- The exports of a valid event keep its provenance exactly when its extensions
leave the names of the exporters alone. -/
theorem keepsProvenance_iff_namesApart {l : Time.LocalZone} {u : Unicode} {ir : NormalizedEvent}
    (hvalid : ir.validate l = .ok ()) : KeepsProvenance l u ir ↔ NamesApart ir := by
  have hexports : KeepsProvenance l u ir ↔
      LabelsIntact ir (Ecs.labelsOf ir) ∧ UnmappedIntact ir (Ocsf.unmappedOf ir) := by
    constructor
    · intro h
      exact h _ _ (Ecs.exportECS_eq_ok_iff.mpr ⟨hvalid, rfl⟩)
        (Ocsf.exportOCSF_eq_ok_iff.mpr ⟨hvalid, rfl⟩)
    · intro h ecs ocsf hecs hocsf
      obtain ⟨-, rfl⟩ := Ecs.exportECS_eq_ok_iff.mp hecs
      obtain ⟨-, rfl⟩ := Ocsf.exportOCSF_eq_ok_iff.mp hocsf
      exact h
  rw [hexports, labelsIntact_iff, unmappedIntact_iff, dns_intact_iff]
  constructor
  · rintro ⟨⟨href, hdigest, hid, hversion, hstatus⟩, -, -, -, -, hdns, hquestion⟩
    exact ⟨href, hdigest, hid, hversion, hstatus, hdns, hquestion⟩
  · rintro ⟨href, hdigest, hid, hversion, hstatus, hdns, hquestion⟩
    exact ⟨⟨href, hdigest, hid, hversion, hstatus⟩, href, hdigest, hid, hstatus, hdns, hquestion⟩

/-- An event of a firewall, of a class and with extensions from its log. -/
def firewallEvent (eventClass : String) (extensions : Dict String Value) : NormalizedEvent where
  schemaVersion := "1.0"
  eventID := "01J9A0K0P0Z3R3M5WQ6F7H8J9K"
  event := ⟨eventClass, "deny", "failure", "2026-09-18T10:00:00Z"⟩
  source := ⟨"acme", "fw", "fw-1"⟩
  src := none
  dst := none
  network := none
  user := none
  device := none
  http := none
  dns := none
  alert := none
  parser := ⟨"acme-fw", "1.0.0"⟩
  raw := ⟨"raw/2026/09/18/fw-1/01J9A0K0P0Z3R3M5WQ6F7H8J9K",
    "0000000000000000000000000000000000000000000000000000000000000000"⟩
  quality := ⟨1, "VERIFIED"⟩
  extensions := some extensions

theorem validate_firewallEvent {eventClass : String} (hclass : eventClass ≠ "")
    (extensions : Dict String Value) :
    (firewallEvent eventClass extensions).validate .utc = .ok () := by
  have hid : matchString eventIDRegex "01J9A0K0P0Z3R3M5WQ6F7H8J9K" = true := by decide +kernel
  have hdigest : matchString sha256Regex
      "0000000000000000000000000000000000000000000000000000000000000000" = true := by
    decide +kernel
  have htime : isRFC3339 .utc "2026-09-18T10:00:00Z" = true := by decide +kernel
  have hversion : matchString semverRegex "1.0.0" = true := by decide +kernel
  have hevent : EventInfo.validate .utc ⟨eventClass, "deny", "failure", "2026-09-18T10:00:00Z"⟩ =
      .ok () :=
    EventInfo.validate_eq_ok_iff.mpr ⟨hclass, by simp, by simp, htime⟩
  have hquality : QualityReport.validate ⟨1, "VERIFIED"⟩ = .ok () := by
    simp [QualityReport.validate, ensure]
  exact NormalizedEvent.validate_eq_ok_iff.mpr ⟨rfl, hid, hevent,
    SourceInfo.validate_eq_ok_iff.mpr ⟨by simp [firewallEvent], by simp [firewallEvent],
      by simp [firewallEvent]⟩, by simp [ValidEndpoint, firewallEvent],
    by simp [ValidEndpoint, firewallEvent],
    ParserMetadata.validate_eq_ok_iff.mpr ⟨by simp [firewallEvent], hversion⟩,
    RawProvenance.validate_eq_ok_iff.mpr ⟨by simp [firewallEvent], hdigest⟩, hquality, rfl⟩

/-- An extension `raw_sha256` of the log takes the place of the digest of the event. -/
theorem not_keepsProvenance_rawSHA256 :
    ¬ ∀ l u ir, ir.validate l = .ok () → KeepsProvenance l u ir := by
  intro h
  have hkept := h .utc .ascii (firewallEvent "NETWORK" (.ofList [("raw_sha256", .str "00")]))
    (validate_firewallEvent (by decide) _) _ _
    (Ecs.exportECS_eq_ok_iff.mpr ⟨validate_firewallEvent (by decide) _, rfl⟩)
    (Ocsf.exportOCSF_eq_ok_iff.mpr ⟨validate_firewallEvent (by decide) _, rfl⟩)
  have hagrees := (labelsIntact_iff.mp hkept.1).2.1 (.str "00") rfl
  simp [firewallEvent] at hagrees

/-- An extension of a name of its own leaves the provenance in place. -/
theorem keepsProvenance_zone :
    KeepsProvenance .utc .ascii (firewallEvent "NETWORK" (.ofList [("zone", .str "dmz")])) := by
  apply (keepsProvenance_iff_namesApart (validate_firewallEvent (by decide) _)).mpr
  have hother : ∀ k own, k ≠ "zone" →
      Agrees (firewallEvent "NETWORK" (.ofList [("zone", .str "dmz")])) k own := by
    intro k own hk v hv
    have hnone : extension (firewallEvent "NETWORK" (.ofList [("zone", .str "dmz")])) k = none := by
      simp [extension, firewallEvent, Dict.get?_ofList, lookup_cons, Ne.symm hk]
    rw [hnone] at hv
    cases hv
  exact ⟨hother _ _ (by decide), hother _ _ (by decide), hother _ _ (by decide),
    hother _ _ (by decide), hother _ _ (by decide), rfl, by simp [firewallEvent]⟩

end Provenance

section Fields

/-- The canonical fields of the sections of an event. -/
inductive Field where
  | eventClass | eventAction | eventOutcome | eventTime
  | srcIP | srcPort | dstIP | dstPort
  | networkProtocol
  | userName | userID | userDomain
  | deviceHostname | deviceIP | deviceMAC
  | httpMethod | httpStatusCode | httpURL
  | dnsQueryName | dnsQueryType | dnsResponseCode
  | alertSeverity | alertName | alertCategory
  deriving DecidableEq

/-- A value of a field of an event. -/
inductive FieldValue where
  | text (s : String)
  | number (n : ℤ)
  deriving DecidableEq

/-- A text, unless it is empty. -/
def textField (s : String) : Option FieldValue := if s = "" then none else some (.text s)

/-- A number, unless it is zero. -/
def numberField (n : ℤ) : Option FieldValue := if n = 0 then none else some (.number n)

/-- The value of a field that is not empty. -/
def fieldOf (ir : NormalizedEvent) : Field → Option FieldValue
  | .eventClass => textField ir.event.eventClass
  | .eventAction => textField ir.event.action
  | .eventOutcome => textField ir.event.outcome
  | .eventTime => textField ir.event.time
  | .srcIP => ir.src.bind fun e => textField e.ip
  | .srcPort => ir.src.bind fun e => numberField e.port
  | .dstIP => ir.dst.bind fun e => textField e.ip
  | .dstPort => ir.dst.bind fun e => numberField e.port
  | .networkProtocol => ir.network.bind fun n => textField n.protocol
  | .userName => ir.user.bind fun x => textField x.name
  | .userID => ir.user.bind fun x => textField x.id
  | .userDomain => ir.user.bind fun x => textField x.domain
  | .deviceHostname => ir.device.bind fun d => textField d.hostname
  | .deviceIP => ir.device.bind fun d => textField d.ip
  | .deviceMAC => ir.device.bind fun d => textField d.mac
  | .httpMethod => ir.http.bind fun h => textField h.method
  | .httpStatusCode => ir.http.bind fun h => numberField h.statusCode
  | .httpURL => ir.http.bind fun h => textField h.url
  | .dnsQueryName => ir.dns.bind fun d => textField d.queryName
  | .dnsQueryType => ir.dns.bind fun d => textField d.queryType
  | .dnsResponseCode => ir.dns.bind fun d => textField d.responseCode
  | .alertSeverity => ir.alert.bind fun a => textField a.severity
  | .alertName => ir.alert.bind fun a => textField a.name
  | .alertCategory => ir.alert.bind fun a => textField a.category

/-- Where a field stands in an ECS event. -/
def Ecs.readField (out : Ecs.ECSEvent) : Field → Option FieldValue
  | .eventClass => none
  | .eventAction => textField out.event.action
  | .eventOutcome => textField out.event.outcome
  | .eventTime => textField out.timestamp
  | .srcIP => out.source.bind fun e => textField e.ip
  | .srcPort => out.source.bind fun e => numberField e.port
  | .dstIP => out.destination.bind fun e => textField e.ip
  | .dstPort => out.destination.bind fun e => numberField e.port
  | .networkProtocol => out.network.bind fun n => textField n.transport
  | .userName => out.user.bind fun x => textField x.name
  | .userID => out.user.bind fun x => textField x.id
  | .userDomain => out.user.bind fun x => textField x.domain
  | .deviceHostname => out.host.bind fun d => textField d.name
  | .deviceIP => out.host.bind fun d => textField d.ip
  | .deviceMAC => out.host.bind fun d => textField d.mac
  | .httpMethod => (out.http.bind HTTPFields.request).bind fun r => textField r.method
  | .httpStatusCode => (out.http.bind HTTPFields.response).bind fun r => numberField r.statusCode
  | .httpURL => out.url.bind fun x => textField x.original
  | .dnsQueryName => (out.dns.bind DNSFields.question).bind fun q => textField q.name
  | .dnsQueryType => (out.dns.bind DNSFields.question).bind fun q => textField q.type
  | .dnsResponseCode => out.dns.bind fun d => textField d.responseCode
  | .alertName => textField out.event.reason
  | .alertSeverity | .alertCategory => none

/-- The outcome of a status. -/
def Ocsf.outcomeOf (statusID : ℕ) : String :=
  if statusID = 1 then "success" else if statusID = 2 then "failure" else "unknown"

/-- The DNS section that stands in `unmapped`. -/
def Ocsf.dnsOf (out : Ocsf.OCSFEvent) : Option DNSInfo :=
  match out.unmapped.get? "dns" with
  | some (.dns d) => some d
  | _ => none

/-- Where a field stands in an OCSF event. -/
def Ocsf.readField (out : Ocsf.OCSFEvent) : Field → Option FieldValue
  | .eventClass => none
  | .eventAction => textField out.activityName
  | .eventOutcome => textField (Ocsf.outcomeOf out.statusID)
  | .eventTime => textField out.timeDT
  | .srcIP => out.srcEndpoint.bind fun e => textField e.ip
  | .srcPort => out.srcEndpoint.bind fun e => numberField e.port
  | .dstIP => out.dstEndpoint.bind fun e => textField e.ip
  | .dstPort => out.dstEndpoint.bind fun e => numberField e.port
  | .networkProtocol => out.connectionInfo.bind fun c => textField c.protocolName
  | .userName => (out.actor.bind Actor.user).bind fun x => textField x.name
  | .userID => (out.actor.bind Actor.user).bind fun x => textField x.uid
  | .userDomain => (out.actor.bind Actor.user).bind fun x => textField x.domain
  | .deviceHostname => out.device.bind fun d => textField d.hostname
  | .deviceIP => out.device.bind fun d => textField d.ip
  | .deviceMAC => out.device.bind fun d => textField d.mac
  | .httpMethod => out.httpRequest.bind fun r => textField r.httpMethod
  | .httpStatusCode => out.httpResponse.bind fun r => numberField r.code
  | .httpURL => (out.httpRequest.bind HTTPRequest.url).bind fun x => textField x.urlString
  | .dnsQueryName => (Ocsf.dnsOf out).bind fun d => textField d.queryName
  | .dnsQueryType => (Ocsf.dnsOf out).bind fun d => textField d.queryType
  | .dnsResponseCode => (Ocsf.dnsOf out).bind fun d => textField d.responseCode
  | .alertSeverity => out.finding.bind fun x => textField x.severity
  | .alertName => out.finding.bind fun x => textField x.title
  | .alertCategory => (out.finding.bind fun x => x.types.head?).bind textField

/-- The fields of an event that an ECS event has a place for. -/
def Ecs.Carries (ir : NormalizedEvent) : Field → Prop
  | .eventClass | .alertSeverity | .alertCategory => False
  | .httpStatusCode => ∀ h, ir.http = some h → 0 ≤ h.statusCode
  | _ => True

/-- The fields of an event that an OCSF event has a place for: its DNS section
stands among the extensions, under its question. -/
def Ocsf.Carries (ir : NormalizedEvent) : Field → Prop
  | .eventClass => False
  | .httpStatusCode => ∀ h, ir.http = some h → 0 ≤ h.statusCode
  | .dnsQueryName | .dnsQueryType | .dnsResponseCode =>
      extension ir "dns" = none ∧
        ∀ d, ir.dns = some d → d.responseCode ≠ "" → d.queryName ≠ "" ∨ d.queryType ≠ ""
  | _ => True

/-- The value of a field, a network protocol in the letter case of the target. -/
def casedBy (cased : String → String) : Field → FieldValue → FieldValue
  | .networkProtocol, .text s => .text (cased s)
  | _, v => v

theorem bind_guarded {α β : Type} {o : Option α} {p : α → Prop} [DecidablePred p] {g : α → β}
    {read : β → Option FieldValue} {own : α → Option FieldValue}
    (hset : ∀ x, p x → read (g x) = own x) (hempty : ∀ x, o = some x → ¬ p x → own x = none) :
    (o.bind fun x => if p x then some (g x) else none).bind read = o.bind own := by
  cases o with
  | none => rfl
  | some x =>
      by_cases hp : p x
      · simp [hp, hset x hp]
      · simp [hp, hempty x rfl hp]

theorem textField_eq_none {s : String} (h : ¬ s ≠ "") : textField s = none := by
  simp only [not_not] at h
  simp [textField, h]

theorem numberField_eq_none {n : ℤ} (hle : 0 ≤ n) (h : ¬ 0 < n) : numberField n = none := by
  have hzero : n = 0 := by omega
  simp [numberField, hzero]

theorem map_casedBy_of_ne {f : Field} (hf : f ≠ .networkProtocol) (cased : String → String)
    (v : Option FieldValue) : v.map (casedBy cased f) = v := by
  have hid : casedBy cased f = id := by
    funext w
    cases f <;> first | rfl | exact absurd rfl hf
  rw [hid, Option.map_id_fun, id]

theorem validate_port {l : Time.LocalZone} {ir : NormalizedEvent} (h : ir.validate l = .ok ())
    {e : Endpoint} (he : ir.src = some e ∨ ir.dst = some e) : 0 ≤ e.port := by
  obtain ⟨-, -, -, -, hsrc, hdst, -⟩ := NormalizedEvent.validate_eq_ok_iff.mp h
  have hport : isPort e.port = true := by
    rcases he with he | he
    · exact (hsrc e he).2
    · exact (hdst e he).2
  rw [isPort, Bool.and_eq_true, decide_eq_true_eq] at hport
  exact hport.1

theorem textField_onChars (g : Char → Char) (s : String) :
    textField (Text.onChars (List.map g) s) =
      (textField s).map (casedBy (Text.onChars (List.map g)) .networkProtocol) := by
  have hempty : Text.onChars (List.map g) s = "" ↔ s = "" := by
    rw [Text.onChars, ← String.toList_inj, String.toList_ofList, String.toList_empty,
      List.map_eq_nil_iff, String.toList_eq_nil_iff]
  unfold textField
  by_cases hs : s = ""
  · rw [if_pos (hempty.mpr hs), if_pos hs]
    rfl
  · rw [if_neg hs, if_neg (mt hempty.mp hs)]
    rfl

section Ecs

open Ecs

theorem Ecs.request_httpFields (o : Option HTTPInfo) :
    (o.bind httpFields).bind HTTPFields.request =
      o.bind fun h => if h.method ≠ "" then some ⟨h.method⟩ else none := by
  cases o with
  | none => rfl
  | some h =>
      by_cases hmethod : h.method ≠ ""
      · simp [httpFields, hmethod]
      · by_cases hcode : 0 < h.statusCode <;> simp [httpFields, hmethod, hcode]

theorem Ecs.response_httpFields (o : Option HTTPInfo) :
    (o.bind httpFields).bind HTTPFields.response =
      o.bind fun h => if 0 < h.statusCode then some ⟨h.statusCode⟩ else none := by
  cases o with
  | none => rfl
  | some h =>
      by_cases hcode : 0 < h.statusCode
      · simp [httpFields, hcode]
      · by_cases hmethod : h.method ≠ "" <;> simp [httpFields, hmethod, hcode]

theorem Ecs.question_dnsFields (o : Option DNSInfo) :
    (o.bind dnsFields).bind DNSFields.question = o.bind fun d =>
      if d.queryName ≠ "" ∨ d.queryType ≠ "" then some ⟨d.queryName, d.queryType⟩ else none := by
  cases o with
  | none => rfl
  | some d =>
      by_cases hquestion : d.queryName ≠ "" ∨ d.queryType ≠ ""
      · have hany : d.queryName ≠ "" ∨ d.queryType ≠ "" ∨ d.responseCode ≠ "" := by tauto
        simp only [Option.bind_some, dnsFields, hquestion, hany, if_true]
      · by_cases hcode : d.responseCode ≠ "" <;> simp [dnsFields, hquestion, hcode]

theorem Ecs.readField_ecsEventOf {l : Time.LocalZone} {u : Unicode} {ir : NormalizedEvent}
    (hvalid : ir.validate l = .ok ()) {f : Field} (hcarries : Carries ir f) :
    readField (ecsEventOf u ir) f = (fieldOf ir f).map (casedBy (toLower u) f) := by
  by_cases hprotocol : f = .networkProtocol
  · subst hprotocol
    rw [fieldOf, Option.map_bind]
    apply bind_guarded
    · exact fun n _ => textField_onChars u.lower n.protocol
    · intro n _ h
      rw [Function.comp_apply, textField_eq_none h]
      rfl
  · rw [map_casedBy_of_ne hprotocol]
    cases f with
    | eventClass => cases hcarries
    | eventAction => rfl
    | eventOutcome => rfl
    | eventTime => rfl
    | srcIP =>
        exact bind_guarded (fun _ _ => rfl) fun e _ h =>
          textField_eq_none fun hip => h (Or.inl hip)
    | srcPort =>
        exact bind_guarded (fun _ _ => rfl) fun e he h =>
          numberField_eq_none (validate_port hvalid (Or.inl he)) fun hport => h (Or.inr hport)
    | dstIP =>
        exact bind_guarded (fun _ _ => rfl) fun e _ h =>
          textField_eq_none fun hip => h (Or.inl hip)
    | dstPort =>
        exact bind_guarded (fun _ _ => rfl) fun e he h =>
          numberField_eq_none (validate_port hvalid (Or.inr he)) fun hport => h (Or.inr hport)
    | networkProtocol => exact absurd rfl hprotocol
    | userName =>
        exact bind_guarded (fun _ _ => rfl) fun x _ h =>
          textField_eq_none fun hname => h (Or.inl hname)
    | userID =>
        exact bind_guarded (fun _ _ => rfl) fun x _ h =>
          textField_eq_none fun hid => h (Or.inr (Or.inl hid))
    | userDomain =>
        exact bind_guarded (fun _ _ => rfl) fun x _ h =>
          textField_eq_none fun hdomain => h (Or.inr (Or.inr hdomain))
    | deviceHostname =>
        exact bind_guarded (fun _ _ => rfl) fun d _ h =>
          textField_eq_none fun hname => h (Or.inl hname)
    | deviceIP =>
        exact bind_guarded (fun _ _ => rfl) fun d _ h =>
          textField_eq_none fun hip => h (Or.inr (Or.inl hip))
    | deviceMAC =>
        exact bind_guarded (fun _ _ => rfl) fun d _ h =>
          textField_eq_none fun hmac => h (Or.inr (Or.inr hmac))
    | httpMethod =>
        simp only [readField, ecsEventOf, Ecs.request_httpFields]
        exact bind_guarded (fun _ _ => rfl) fun _ _ => textField_eq_none
    | httpStatusCode =>
        simp only [readField, ecsEventOf, Ecs.response_httpFields]
        exact bind_guarded (fun _ _ => rfl) fun h hset => numberField_eq_none (hcarries h hset)
    | httpURL => exact bind_guarded (fun _ _ => rfl) fun _ _ => textField_eq_none
    | dnsQueryName =>
        simp only [readField, ecsEventOf, Ecs.question_dnsFields]
        exact bind_guarded (fun _ _ => rfl) fun d _ h =>
          textField_eq_none fun hname => h (Or.inl hname)
    | dnsQueryType =>
        simp only [readField, ecsEventOf, Ecs.question_dnsFields]
        exact bind_guarded (fun _ _ => rfl) fun d _ h =>
          textField_eq_none fun htype => h (Or.inr htype)
    | dnsResponseCode =>
        exact bind_guarded (fun _ _ => rfl) fun d _ h =>
          textField_eq_none fun hcode => h (Or.inr (Or.inr hcode))
    | alertSeverity => cases hcarries
    | alertName =>
        simp only [readField, ecsEventOf, fieldOf]
        cases ir.alert <;> rfl
    | alertCategory => cases hcarries

end Ecs

section Ocsf

open Ocsf

theorem Ocsf.url_httpRequest (o : Option HTTPInfo) :
    (o.bind httpRequest).bind HTTPRequest.url =
      o.bind fun h => if h.url ≠ "" then some ⟨h.url⟩ else none := by
  cases o with
  | none => rfl
  | some h =>
      by_cases hurl : h.url ≠ ""
      · simp [httpRequest, hurl]
      · by_cases hmethod : h.method ≠ "" <;> simp [httpRequest, hmethod, hurl]

theorem Ocsf.user_actor (l : Time.LocalZone) (u : Unicode) (ir : NormalizedEvent) :
    (ocsfEventOf u l ir).actor.bind Actor.user = ir.user.bind fun x =>
      if x.name ≠ "" ∨ x.id ≠ "" ∨ x.domain ≠ "" then some ⟨x.name, x.id, x.domain⟩ else none := by
  have hactor : (ocsfEventOf u l ir).actor = ir.user.bind actor := rfl
  rw [hactor]
  cases ir.user with
  | none => rfl
  | some x =>
      simp only [Option.bind_some, actor]
      split <;> rfl

theorem Ocsf.types_finding (o : Option AlertInfo) :
    ((o.bind finding).bind fun x => x.types.head?) =
      o.bind fun a => if a.category ≠ "" then some a.category else none := by
  cases o with
  | none => rfl
  | some a =>
      by_cases hcategory : a.category ≠ ""
      · simp [finding, hcategory]
      · by_cases hname : a.name ≠ "" <;> by_cases hseverity : a.severity ≠ "" <;>
          simp [finding, hcategory, hname, hseverity]

theorem Ocsf.outcomeOf_resolveStatus {u : Unicode} {outcome : String}
    (h : outcome ∈ ["success", "failure", "unknown"]) :
    outcomeOf (resolveStatus u outcome).2 = outcome := by
  simp only [List.mem_cons, List.not_mem_nil, or_false] at h
  obtain rfl | rfl | rfl := h <;> rw [resolveStatus, toLower_ascii u (by decide)] <;> decide

theorem Ocsf.dnsOf_ocsfEventOf {l : Time.LocalZone} {u : Unicode} {ir : NormalizedEvent}
    (hname : extension ir "dns" = none)
    (hquestion : ∀ d, ir.dns = some d → d.responseCode ≠ "" → d.queryName ≠ "" ∨ d.queryType ≠ "") :
    dnsOf (ocsfEventOf u l ir) = ownDNS ir := by
  have hentry : (ocsfEventOf u l ir).unmapped.get? "dns" = (ownDNS ir).map .dns :=
    dns_intact_iff.mpr ⟨hname, hquestion⟩
  rw [dnsOf, hentry]
  cases ownDNS ir <;> rfl

theorem bind_ownDNS (ir : NormalizedEvent) {own : DNSInfo → Option FieldValue}
    (hempty : own ⟨"", "", ""⟩ = none) : (ownDNS ir).bind own = ir.dns.bind own := by
  rw [ownDNS]
  cases ir.dns with
  | none => rfl
  | some d =>
      by_cases hany : d.queryName ≠ "" ∨ d.queryType ≠ "" ∨ d.responseCode ≠ ""
      · simp [Option.filter_some, hany]
      · obtain ⟨queryName, queryType, responseCode⟩ := d
        simp only [not_or, not_not] at hany
        obtain ⟨rfl, rfl, rfl⟩ := hany
        simp [Option.filter_some, hempty]

theorem Ocsf.readField_ocsfEventOf {l : Time.LocalZone} {u : Unicode} {ir : NormalizedEvent}
    (hvalid : ir.validate l = .ok ()) {f : Field} (hcarries : Carries ir f) :
    readField (ocsfEventOf u l ir) f = (fieldOf ir f).map (casedBy (toUpper u) f) := by
  by_cases hprotocol : f = .networkProtocol
  · subst hprotocol
    rw [fieldOf, Option.map_bind]
    apply bind_guarded
    · exact fun n _ => textField_onChars u.upper n.protocol
    · intro n _ h
      rw [Function.comp_apply, textField_eq_none h]
      rfl
  · rw [map_casedBy_of_ne hprotocol]
    cases f with
    | eventClass => cases hcarries
    | eventAction => rfl
    | eventOutcome =>
        have houtcome := (EventInfo.validate_eq_ok_iff.mp
          (NormalizedEvent.validate_eq_ok_iff.mp hvalid).2.2.1).2.2.1
        exact congrArg textField (Ocsf.outcomeOf_resolveStatus houtcome)
    | eventTime => rfl
    | srcIP =>
        exact bind_guarded (fun _ _ => rfl) fun e _ h =>
          textField_eq_none fun hip => h (Or.inl hip)
    | srcPort =>
        exact bind_guarded (fun _ _ => rfl) fun e he h =>
          numberField_eq_none (validate_port hvalid (Or.inl he)) fun hport => h (Or.inr hport)
    | dstIP =>
        exact bind_guarded (fun _ _ => rfl) fun e _ h =>
          textField_eq_none fun hip => h (Or.inl hip)
    | dstPort =>
        exact bind_guarded (fun _ _ => rfl) fun e he h =>
          numberField_eq_none (validate_port hvalid (Or.inr he)) fun hport => h (Or.inr hport)
    | networkProtocol => exact absurd rfl hprotocol
    | userName =>
        rw [readField, Ocsf.user_actor]
        exact bind_guarded (fun _ _ => rfl) fun x _ h =>
          textField_eq_none fun hname => h (Or.inl hname)
    | userID =>
        rw [readField, Ocsf.user_actor]
        exact bind_guarded (fun _ _ => rfl) fun x _ h =>
          textField_eq_none fun hid => h (Or.inr (Or.inl hid))
    | userDomain =>
        rw [readField, Ocsf.user_actor]
        exact bind_guarded (fun _ _ => rfl) fun x _ h =>
          textField_eq_none fun hdomain => h (Or.inr (Or.inr hdomain))
    | deviceHostname =>
        exact bind_guarded (fun _ _ => rfl) fun d _ h =>
          textField_eq_none fun hname => h (Or.inl hname)
    | deviceIP =>
        exact bind_guarded (fun _ _ => rfl) fun d _ h =>
          textField_eq_none fun hip => h (Or.inr (Or.inl hip))
    | deviceMAC =>
        exact bind_guarded (fun _ _ => rfl) fun d _ h =>
          textField_eq_none fun hmac => h (Or.inr (Or.inr hmac))
    | httpMethod =>
        exact bind_guarded (fun _ _ => rfl) fun h _ hguard =>
          textField_eq_none fun hmethod => hguard (Or.inl hmethod)
    | httpStatusCode =>
        exact bind_guarded (fun _ _ => rfl) fun h hset => numberField_eq_none (hcarries h hset)
    | httpURL =>
        have hurl := Ocsf.url_httpRequest ir.http
        exact (congrArg (Option.bind · fun x => textField x.urlString) hurl).trans
          (bind_guarded (fun _ _ => rfl) fun _ _ => textField_eq_none)
    | dnsQueryName =>
        rw [readField, Ocsf.dnsOf_ocsfEventOf hcarries.1 hcarries.2]
        exact bind_ownDNS ir rfl
    | dnsQueryType =>
        rw [readField, Ocsf.dnsOf_ocsfEventOf hcarries.1 hcarries.2]
        exact bind_ownDNS ir rfl
    | dnsResponseCode =>
        rw [readField, Ocsf.dnsOf_ocsfEventOf hcarries.1 hcarries.2]
        exact bind_ownDNS ir rfl
    | alertSeverity =>
        exact bind_guarded (fun _ _ => rfl) fun a _ h =>
          textField_eq_none fun hseverity => h (Or.inr (Or.inr hseverity))
    | alertName =>
        exact bind_guarded (fun _ _ => rfl) fun a _ h =>
          textField_eq_none fun hname => h (Or.inl hname)
    | alertCategory =>
        have htypes := Ocsf.types_finding ir.alert
        exact (congrArg (Option.bind · textField) htypes).trans
          (bind_guarded (fun _ _ => rfl) fun _ _ => textField_eq_none)

end Ocsf

/-- Each field of a valid event that a target has a place for reads back from its
export, a network protocol in the letter case of the target. -/
theorem carriedFields_readable {l : Time.LocalZone} {u : Unicode} {ir : NormalizedEvent}
    (hvalid : ir.validate l = .ok ()) :
    ∃ ecs ocsf, Ecs.exportECS u l (some ir) = .ok ecs ∧ Ocsf.exportOCSF u l (some ir) = .ok ocsf ∧
      ∀ f, (Ecs.Carries ir f →
          Ecs.readField ecs f = (fieldOf ir f).map (casedBy (toLower u) f)) ∧
        (Ocsf.Carries ir f →
          Ocsf.readField ocsf f = (fieldOf ir f).map (casedBy (toUpper u) f)) :=
  ⟨_, _, Ecs.exportECS_eq_ok_iff.mpr ⟨hvalid, rfl⟩, Ocsf.exportOCSF_eq_ok_iff.mpr ⟨hvalid, rfl⟩,
    fun _ => ⟨Ecs.readField_ecsEventOf hvalid, Ocsf.readField_ocsfEventOf hvalid⟩⟩

/-- A refused request of a user, with its endpoints and the alert it raised. -/
def requestEvent : NormalizedEvent :=
  { firewallEvent "NETWORK" .empty with
    src := some ⟨"10.0.0.7", 51000⟩
    dst := some ⟨"10.0.0.1", 443⟩
    network := some ⟨"Tcp"⟩
    user := some ⟨"alice", "1001", "CORP"⟩
    http := some ⟨"GET", 403, "/admin"⟩
    alert := some ⟨"high", "probe", "scan"⟩ }

theorem validate_requestEvent : requestEvent.validate .utc = .ok () := by
  obtain ⟨hschema, hid, hevent, hsource, -, -, hparser, hraw, hquality, hextensions⟩ :=
    NormalizedEvent.validate_eq_ok_iff.mp
      (validate_firewallEvent (show "NETWORK" ≠ "" by decide) .empty)
  have hsrc : ValidEndpoint requestEvent.src := by
    rintro e ⟨⟩
    decide +kernel
  have hdst : ValidEndpoint requestEvent.dst := by
    rintro e ⟨⟩
    decide +kernel
  exact NormalizedEvent.validate_eq_ok_iff.mpr ⟨hschema, hid, hevent, hsource, hsrc, hdst, hparser,
    hraw, hquality, hextensions⟩

theorem carriedFields_readable_requestEvent :
    ∃ ecs ocsf,
      Ecs.exportECS .ascii .utc (some requestEvent) = .ok ecs ∧
      Ocsf.exportOCSF .ascii .utc (some requestEvent) = .ok ocsf ∧
      Ecs.readField ecs .srcPort = some (.number 51000) ∧
      Ecs.readField ecs .networkProtocol = some (.text "tcp") ∧
      Ecs.readField ecs .userDomain = some (.text "CORP") ∧
      Ecs.readField ecs .httpStatusCode = some (.number 403) ∧
      Ocsf.readField ocsf .eventOutcome = some (.text "failure") ∧
      Ocsf.readField ocsf .networkProtocol = some (.text "TCP") ∧
      Ocsf.readField ocsf .httpURL = some (.text "/admin") ∧
      Ocsf.readField ocsf .alertName = some (.text "probe") := by
  obtain ⟨ecs, ocsf, hecs, hocsf, hread⟩ := carriedFields_readable (u := .ascii)
    validate_requestEvent
  have hlower : casedBy (toLower .ascii) .networkProtocol (.text "Tcp") = .text "tcp" := by
    decide +kernel
  have hupper : casedBy (toUpper .ascii) .networkProtocol (.text "Tcp") = .text "TCP" := by
    decide +kernel
  have hstatus : Ecs.Carries requestEvent .httpStatusCode := by
    rintro h ⟨⟩
    decide
  exact ⟨ecs, ocsf, hecs, hocsf, (hread .srcPort).1 trivial,
    ((hread .networkProtocol).1 trivial).trans (congrArg some hlower),
    (hread .userDomain).1 trivial,
    (hread .httpStatusCode).1 hstatus, (hread .eventOutcome).2 trivial,
    ((hread .networkProtocol).2 trivial).trans (congrArg some hupper), (hread .httpURL).2 trivial,
    (hread .alertName).2 trivial⟩

/-- A value, or a network protocol in another letter case. -/
def SameUpToCase (u : Unicode) (f : Field) (v w : FieldValue) : Prop :=
  w = v ∨ w = casedBy (toLower u) f v ∨ w = casedBy (toUpper u) f v

/-- One reader gets the field back from the export of every valid event that has it. -/
def ReadableFrom {α : Type} (exported : Option NormalizedEvent → Except ExportError α)
    (u : Unicode) (f : Field) : Prop :=
  ∃ read : α → Option FieldValue, ∀ ir out v, exported (some ir) = .ok out →
    fieldOf ir f = some v → ∃ w, read out = some w ∧ SameUpToCase u f v w

/-- A field that two events with one export differ in is read back from neither. -/
theorem not_readableFrom {α : Type} {exported : Option NormalizedEvent → Except ExportError α}
    {u : Unicode} {f : Field} {ir ir' : NormalizedEvent} {out : α} {v v' : FieldValue}
    (hf : f ≠ .networkProtocol) (h : exported (some ir) = .ok out)
    (h' : exported (some ir') = .ok out) (hv : fieldOf ir f = some v)
    (hv' : fieldOf ir' f = some v') (hne : v ≠ v') : ¬ ReadableFrom exported u f := by
  rintro ⟨read, hread⟩
  have hcased : ∀ cased x, casedBy cased f x = x := by
    intro cased x
    simpa using map_casedBy_of_ne hf cased (some x)
  have hsame : ∀ x w, SameUpToCase u f x w → w = x := by
    intro x w hw
    simpa [SameUpToCase, hcased] using hw
  obtain ⟨w, hw, hsim⟩ := hread ir out v h hv
  obtain ⟨w', hw', hsim'⟩ := hread ir' out v' h' hv'
  rw [hw, Option.some.injEq] at hw'
  exact hne ((hsame v w hsim).symm.trans (hw'.trans (hsame v' w' hsim')))

/-- The class of an event becomes a category of the target, which does not give it back. -/
theorem not_readableFrom_eventClass :
    ¬ ∀ l u f, ReadableFrom (Ecs.exportECS u l) u f ∧ ReadableFrom (Ocsf.exportOCSF u l) u f := by
  intro h
  have hsame : Ecs.ecsEventOf .ascii (firewallEvent "NETWORK" .empty) =
      Ecs.ecsEventOf .ascii (firewallEvent "NETWORK_FLOW" .empty) := rfl
  exact not_readableFrom (by decide)
    (Ecs.exportECS_eq_ok_iff.mpr ⟨validate_firewallEvent (by decide) .empty, rfl⟩)
    (Ecs.exportECS_eq_ok_iff.mpr ⟨validate_firewallEvent (by decide) .empty, hsame⟩)
    rfl rfl (by decide) (h .utc .ascii .eventClass).1

end Fields

end Ulpf.Exporters
