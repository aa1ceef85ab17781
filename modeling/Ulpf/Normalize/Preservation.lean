import Ulpf.Normalize.Normalizer
import Ulpf.ParserRuntime.NoLoss

/-!
Which extracted values are still in the canonical event: those whose path the
normalizer reads, with a value that passes its type assertion, and those that
the unknown fields hold anyway.
-/

namespace Ulpf.Normalize

open Ulpf.Lib
open Ulpf.Go
open Ulpf.ParserRuntime

/-- The canonical paths with a struct field: those of the names in the JSON of
the event, and those the normalizer reads a field from. -/
inductive CanonicalPath where
  | schemaVersion
  | eventID
  | eventClass
  | eventAction
  | eventOutcome
  | eventTime
  | eventTimestamp
  | sourceVendor
  | observerVendor
  | sourceProduct
  | observerProduct
  | sourceDeviceID
  | srcIP
  | srcPort
  | dstIP
  | dstPort
  | networkProtocol
  | networkTransport
  | userName
  | userID
  | userDomain
  | deviceHostname
  | hostName
  | deviceIP
  | deviceMAC
  | httpMethod
  | httpRequestMethod
  | httpStatusCode
  | httpResponseStatusCode
  | httpURL
  | dnsQueryName
  | dnsQueryType
  | dnsResponseCode
  | alertSeverity
  | alertName
  | alertCategory
  | parserID
  | parserVersion
  | rawRef
  | rawSHA256
  | qualityStatus
  | qualityMappingScore
  deriving DecidableEq

namespace CanonicalPath

/-- The dotted text of a path. -/
def text : CanonicalPath → String
  | .schemaVersion => "schema_version"
  | .eventID => "event_id"
  | .eventClass => "event.class"
  | .eventAction => "event.action"
  | .eventOutcome => "event.outcome"
  | .eventTime => "event.time"
  | .eventTimestamp => "event.timestamp"
  | .sourceVendor => "source.vendor"
  | .observerVendor => "observer.vendor"
  | .sourceProduct => "source.product"
  | .observerProduct => "observer.product"
  | .sourceDeviceID => "source.device_id"
  | .srcIP => "src.ip"
  | .srcPort => "src.port"
  | .dstIP => "dst.ip"
  | .dstPort => "dst.port"
  | .networkProtocol => "network.protocol"
  | .networkTransport => "network.transport"
  | .userName => "user.name"
  | .userID => "user.id"
  | .userDomain => "user.domain"
  | .deviceHostname => "device.hostname"
  | .hostName => "host.name"
  | .deviceIP => "device.ip"
  | .deviceMAC => "device.mac"
  | .httpMethod => "http.method"
  | .httpRequestMethod => "http.request.method"
  | .httpStatusCode => "http.status_code"
  | .httpResponseStatusCode => "http.response.status_code"
  | .httpURL => "http.url"
  | .dnsQueryName => "dns.query_name"
  | .dnsQueryType => "dns.query_type"
  | .dnsResponseCode => "dns.response_code"
  | .alertSeverity => "alert.severity"
  | .alertName => "alert.name"
  | .alertCategory => "alert.category"
  | .parserID => "parser.id"
  | .parserVersion => "parser.version"
  | .rawRef => "raw.ref"
  | .rawSHA256 => "raw.sha256"
  | .qualityStatus => "quality.status"
  | .qualityMappingScore => "quality.mapping_score"

/-- The paths that have a field of their own. -/
def all : List CanonicalPath :=
  [.schemaVersion, .eventID, .eventClass, .eventAction, .eventOutcome, .eventTime,
    .eventTimestamp, .sourceVendor, .observerVendor, .sourceProduct, .observerProduct,
    .sourceDeviceID, .srcIP, .srcPort, .dstIP, .dstPort, .networkProtocol, .networkTransport,
    .userName, .userID, .userDomain, .deviceHostname, .hostName, .deviceIP, .deviceMAC,
    .httpMethod, .httpRequestMethod, .httpStatusCode, .httpResponseStatusCode, .httpURL,
    .dnsQueryName, .dnsQueryType, .dnsResponseCode, .alertSeverity, .alertName,
    .alertCategory, .parserID, .parserVersion, .rawRef, .rawSHA256, .qualityStatus,
    .qualityMappingScore]

def ofText? (path : String) : Option CanonicalPath := all.find? fun c => c.text = path

/-- The value of the struct field, unless its part of the event is nil. -/
def field (e : NormalizedEvent) : CanonicalPath → Option Value
  | schemaVersion => some (.str e.schemaVersion)
  | eventID => some (.str e.eventID)
  | eventClass => some (.str e.event.eventClass)
  | eventAction => some (.str e.event.action)
  | eventOutcome => some (.str e.event.outcome)
  | eventTime | eventTimestamp => some (.str e.event.time)
  | sourceVendor | observerVendor => some (.str e.source.vendor)
  | sourceProduct | observerProduct => some (.str e.source.product)
  | sourceDeviceID => some (.str e.source.deviceID)
  | srcIP => e.src.map fun x => .str x.ip
  | srcPort => e.src.map fun x => .num (.int x.port)
  | dstIP => e.dst.map fun x => .str x.ip
  | dstPort => e.dst.map fun x => .num (.int x.port)
  | networkProtocol | networkTransport => e.network.map fun x => .str x.protocol
  | userName => e.user.map fun x => .str x.name
  | userID => e.user.map fun x => .str x.id
  | userDomain => e.user.map fun x => .str x.domain
  | deviceHostname | hostName => e.device.map fun x => .str x.hostname
  | deviceIP => e.device.map fun x => .str x.ip
  | deviceMAC => e.device.map fun x => .str x.mac
  | httpMethod | httpRequestMethod => e.http.map fun x => .str x.method
  | httpStatusCode | httpResponseStatusCode => e.http.map fun x => .num (.int x.statusCode)
  | httpURL => e.http.map fun x => .str x.url
  | dnsQueryName => e.dns.map fun x => .str x.queryName
  | dnsQueryType => e.dns.map fun x => .str x.queryType
  | dnsResponseCode => e.dns.map fun x => .str x.responseCode
  | alertSeverity => e.alert.map fun x => .str x.severity
  | alertName => e.alert.map fun x => .str x.name
  | alertCategory => e.alert.map fun x => .str x.category
  | parserID => some (.str e.parser.id)
  | parserVersion => some (.str e.parser.version)
  | rawRef => some (.str e.raw.ref)
  | rawSHA256 => some (.str e.raw.sha256)
  | qualityStatus => some (.str e.quality.status)
  | qualityMappingScore => some (.num (.float64 (.ofMagnitude false e.quality.mappingScore)))

theorem text_of_ofText? {path : String} {c : CanonicalPath} (h : ofText? path = some c) :
    c.text = path := by
  simpa using List.find?_some h

end CanonicalPath

/-- The field of an event that belongs to a path, if it has one. -/
def structField (e : NormalizedEvent) (path : String) : Option Value :=
  (CanonicalPath.ofText? path).bind (CanonicalPath.field e)

/-- A value of a struct field is the extracted one; integers may differ in their
Go type. -/
def SameValue (field val : Value) : Prop :=
  field = val ∨ ∃ n, field = .num (.int n) ∧ val = .num (.int64 n)

/-- An extracted value is in the event. -/
def Held (e : NormalizedEvent) (path : String) (val : Value) : Prop :=
  (∃ field, structField e path = some field ∧ SameValue field val) ∨
    ∃ ext, e.extensions = some ext ∧ ext.get? path = some val

/-- An event that holds all that was extracted. -/
def HoldsExtracted (e : NormalizedEvent) (ex : Extracted) : Prop :=
  ∀ path val, ex.get? path = some val → Held e path val

section Reading

def IsString (val : Value) : Prop := ∃ s, val = .str s

def IsNonEmptyString (val : Value) : Prop := ∃ s, val = .str s ∧ s ≠ ""

def IsInteger (val : Value) : Prop := ∃ n, val = .num (.int n) ∨ val = .num (.int64 n)

variable (p : Platform) (env : RawEnvelopeInput) (spec : ParserSpec) (ex : Extracted)

/-- What the normalizer asks of a value to keep it in the struct field of its path. -/
def CanonicalPath.Keeps (val : Value) : CanonicalPath → Prop
  | eventClass | eventAction | eventTimestamp | observerVendor | observerProduct | hostName
  | networkTransport | userName => IsNonEmptyString val
  | networkProtocol =>
      ∃ s, val = .str s ∧ s ≠ "" ∧ ∀ t, nonEmptyAt ex "network.transport" = some t → t = s
  | srcIP | dstIP | httpRequestMethod | alertSeverity | alertName | dnsQueryName | dnsQueryType
  | dnsResponseCode => IsString val
  | srcPort | dstPort | httpResponseStatusCode => IsInteger val
  | httpURL => IsString val ∧ hasHTTP ex
  -- the other fields are filled from elsewhere and can only agree by chance
  | eventOutcome => val = .str (outcomeOfAction p.unicode (actionOf ex))
  | eventTime => val = .str (eventTimeOf p env ex)
  | sourceVendor => val = .str ((nonEmptyAt ex "observer.vendor").getD "unknown")
  | sourceProduct =>
      val = .str ((nonEmptyAt ex "observer.product").getD (orDefault env.sourceID "generic_source"))
  | sourceDeviceID =>
      val = .str ((nonEmptyAt ex "host.name").getD (orDefault env.sourceID "sensor-01"))
  | userID | userDomain => val = .str "" ∧ (nonEmptyAt ex "user.name").isSome
  | deviceHostname => ∃ s, val = .str s ∧ nonEmptyAt ex "host.name" = some s
  | deviceIP | deviceMAC => val = .str "" ∧ (nonEmptyAt ex "host.name").isSome
  | httpMethod => val = .str ((stringAt ex "http.request.method").getD "") ∧ hasHTTP ex
  | httpStatusCode =>
      SameValue (.num (.int ((intAt ex "http.response.status_code").getD 0))) val ∧ hasHTTP ex
  | alertCategory => val = .str "" ∧ (present ex "alert.severity" || present ex "alert.name")
  | schemaVersion => val = .str "1.0"
  | eventID => val = .str (eventIDOf env)
  | parserID => val = .str spec.parser.id
  | parserVersion => val = .str spec.parser.version
  | rawRef => val = .str (rawRefOf env)
  | rawSHA256 => val = .str (orDefault env.rawSHA256 fallbackSHA256)
  | qualityStatus => val = .str "VERIFIED"
  | qualityMappingScore => val = .num (.float64 (.ofMagnitude false (98 / 100)))

/-- A path with a struct field whose value is kept there. -/
def Kept (path : String) (val : Value) : Prop :=
  ∃ c, CanonicalPath.ofText? path = some c ∧ c.Keeps p env spec ex val

end Reading

section Reads

variable {ex : Extracted} {path : String} {val : Value}

theorem present_of_get? (hget : ex.get? path = some val) : present ex path = !isNil val := by
  rw [present, hget, Option.any_some]

theorem stringAt_of_get? (hget : ex.get? path = some val) : stringAt ex path = asString val := by
  rw [stringAt, hget, Option.bind_some]

theorem intAt_of_get? (hget : ex.get? path = some val) : intAt ex path = asInteger val := by
  rw [intAt, hget, Option.bind_some]

theorem nonEmptyAt_of_get? (hget : ex.get? path = some val) {s : String} :
    nonEmptyAt ex path = some s ↔ val = .str s ∧ s ≠ "" := by
  rw [nonEmptyAt_eq_some_iff, stringAt_of_get? hget]
  cases val <;> simp [asString]

theorem sameValue_str_iff {s : String} : SameValue (.str s) val ↔ val = .str s := by
  simp [SameValue, eq_comm]

theorem sameValue_stringAt_iff (hget : ex.get? path = some val) :
    SameValue (.str ((stringAt ex path).getD "")) val ↔ IsString val := by
  rw [sameValue_str_iff, stringAt_of_get? hget, IsString]
  cases val <;> simp [asString]

theorem sameValue_intAt_iff (hget : ex.get? path = some val) :
    SameValue (.num (.int ((intAt ex path).getD 0))) val ↔ IsInteger val := by
  rw [intAt_of_get? hget, SameValue, IsInteger]
  cases val with
  | num n => cases n <;> simp [asInteger]
  | _ => simp

theorem eq_str_getD_iff (hget : ex.get? path = some val) {default : String}
    (hdefault : default ≠ "") :
    val = .str ((nonEmptyAt ex path).getD default) ↔ IsNonEmptyString val := by
  constructor
  · intro h
    cases hsome : nonEmptyAt ex path with
    | none =>
        rw [hsome, Option.getD_none] at h
        exact ⟨default, h, hdefault⟩
    | some s => exact ⟨s, (nonEmptyAt_of_get? hget).mp hsome⟩
  · rintro ⟨s, hval, hs⟩
    rw [(nonEmptyAt_of_get? hget).mpr ⟨hval, hs⟩, hval, Option.getD_some]

theorem exists_nonEmptyAt_iff (hget : ex.get? path = some val) :
    (∃ s, nonEmptyAt ex path = some s ∧ val = .str s) ↔ IsNonEmptyString val := by
  simp only [nonEmptyAt_of_get? hget, IsNonEmptyString]
  constructor
  · rintro ⟨s, h, -⟩
    exact ⟨s, h⟩
  · rintro ⟨s, h⟩
    exact ⟨s, h, h.1⟩

theorem present_of_isString (hget : ex.get? path = some val) (h : IsString val) :
    present ex path = true := by
  obtain ⟨s, rfl⟩ := h
  rw [present_of_get? hget]
  rfl

theorem present_of_isInteger (hget : ex.get? path = some val) (h : IsInteger val) :
    present ex path = true := by
  rw [present_of_get? hget]
  obtain ⟨n, rfl | rfl⟩ := h <;> rfl

end Reads

section Parts

variable {α : Type} {val : Value}

theorem exists_field_some_iff {field : Value} :
    (∃ w, some field = some w ∧ SameValue w val) ↔ SameValue field val := by
  simp

theorem exists_field_map_iff {part : Option α} {f : α → Value} :
    (∃ w, part.map f = some w ∧ SameValue w val) ↔
      ∃ x, part = some x ∧ SameValue (f x) val := by
  simp only [Option.map_eq_some_iff]
  constructor
  · rintro ⟨w, ⟨x, hx, rfl⟩, hsame⟩
    exact ⟨x, hx, hsame⟩
  · rintro ⟨x, hx, hsame⟩
    exact ⟨f x, ⟨x, hx, rfl⟩, hsame⟩

theorem exists_part_ite_iff {c : Bool} {x : α} {P : α → Prop} :
    (∃ y, (if c then some x else none) = some y ∧ P y) ↔ c = true ∧ P x := by
  cases c <;> simp

theorem exists_part_map_iff {s? : Option String} {f : String → α} {P : α → Prop} :
    (∃ y, s?.map f = some y ∧ P y) ↔ ∃ s, s? = some s ∧ P (f s) := by
  cases s? <;> simp

theorem part_default_iff {s? : Option String} {f : String → α} {val : Value} {g : α → String}
    (hg : ∀ s, g (f s) = "") :
    (∃ x, s?.map f = some x ∧ val = .str (g x)) ↔ val = .str "" ∧ s?.isSome = true := by
  rw [exists_part_map_iff]
  cases s? <;> simp [hg]

end Parts

section Kept

variable {p : Platform} {env : RawEnvelopeInput} {parseResult : ParseResult} {spec : ParserSpec}
  {val : Value}

theorem nowText_ne_empty : nowText p ≠ "" := by
  intro h
  have hnil := congrArg String.toList h
  simp [nowText, Time.formatRFC3339] at hnil

theorem eventTimeOf_eq_iff {ex : Extracted} (hget : ex.get? "event.timestamp" = some val) :
    val = .str (eventTimeOf p env ex) ↔ IsNonEmptyString val := by
  rw [eventTimeOf]
  cases hsome : nonEmptyAt ex "event.timestamp" with
  | none =>
      -- the envelope or the clock supplies a text that is not empty
      have hne : orDefault env.ingestTS (nowText p) ≠ "" := orDefault_ne_empty nowText_ne_empty
      rw [← eq_str_getD_iff hget hne, hsome]
      rfl
  | some s =>
      obtain ⟨hval, hs⟩ := (nonEmptyAt_of_get? hget).mp hsome
      simp [hval, orDefault, IsNonEmptyString, hs]

theorem network_transport_iff {ex : Extracted} (hget : ex.get? "network.transport" = some val) :
    (∃ x, networkInfoOf ex = some x ∧ val = .str x.protocol) ↔ IsNonEmptyString val := by
  rw [networkInfoOf, exists_part_map_iff, ← exists_nonEmptyAt_iff hget]
  cases htransport : nonEmptyAt ex "network.transport" with
  | some s => simp
  | none =>
      -- a protocol in its place is not empty, as the transport would be
      simp only [Option.none_or, reduceCtorEq, false_and, exists_false, iff_false]
      rintro ⟨s, hprotocol, hval⟩
      rw [(nonEmptyAt_of_get? hget).mpr ⟨hval, nonEmptyAt_ne_empty hprotocol⟩] at htransport
      cases htransport

theorem network_protocol_iff {ex : Extracted} (hget : ex.get? "network.protocol" = some val) :
    (∃ x, networkInfoOf ex = some x ∧ val = .str x.protocol) ↔
      ∃ s, val = .str s ∧ s ≠ "" ∧ ∀ t, nonEmptyAt ex "network.transport" = some t → t = s := by
  rw [networkInfoOf, exists_part_map_iff]
  cases htransport : nonEmptyAt ex "network.transport" with
  | some t =>
      have ht := nonEmptyAt_ne_empty htransport
      constructor
      · rintro ⟨s, hs, hval⟩
        cases hs
        exact ⟨t, hval, ht, fun t' ht' => (Option.some.inj ht').symm⟩
      · rintro ⟨s, hval, -, heq⟩
        rw [← heq t rfl] at hval
        exact ⟨t, rfl, hval⟩
  | none =>
      simp only [Option.none_or, nonEmptyAt_of_get? hget, reduceCtorEq, false_implies,
        implies_true, and_true]
      constructor
      · rintro ⟨s, h, -⟩
        exact ⟨s, h⟩
      · rintro ⟨s, h⟩
        exact ⟨s, h, h.1⟩

theorem string_in_part_iff {ex : Extracted} {path : String} (hget : ex.get? path = some val)
    {c : Bool} (hc : present ex path = true → c = true) :
    (c = true ∧ val = .str ((stringAt ex path).getD "")) ↔ IsString val := by
  rw [← sameValue_str_iff, sameValue_stringAt_iff hget]
  apply and_iff_right_of_imp
  intro h
  exact hc (present_of_isString hget h)

theorem integer_in_part_iff {ex : Extracted} {path : String} (hget : ex.get? path = some val)
    {c : Bool} (hc : present ex path = true → c = true) :
    (c = true ∧ SameValue (.num (.int ((intAt ex path).getD 0))) val) ↔ IsInteger val := by
  rw [sameValue_intAt_iff hget]
  apply and_iff_right_of_imp
  intro h
  exact hc (present_of_isInteger hget h)

/-- A struct field holds the value extracted under its path exactly when the
normalizer keeps it. -/
theorem field_holds_iff {c : CanonicalPath}
    (hget : parseResult.extracted.get? c.text = some val) :
    (∃ w, c.field (normalizedEventOf p env parseResult spec) = some w ∧ SameValue w val) ↔
      c.Keeps p env spec parseResult.extracted val := by
  cases c <;>
    simp only [CanonicalPath.field, CanonicalPath.Keeps, normalizedEventOf, eventInfoOf,
      sourceInfoOf, exists_field_some_iff, exists_field_map_iff, sameValue_str_iff,
      CanonicalPath.text] at hget ⊢
  case eventClass => exact eq_str_getD_iff hget inferClass_ne_empty
  case eventAction => exact eq_str_getD_iff hget (by decide)
  case eventTimestamp => exact eventTimeOf_eq_iff hget
  case observerVendor => exact eq_str_getD_iff hget (by decide)
  case observerProduct => exact eq_str_getD_iff hget (orDefault_ne_empty (by decide))
  case hostName =>
    rw [deviceInfoOf, exists_part_map_iff]
    exact exists_nonEmptyAt_iff hget
  case userName =>
    rw [userInfoOf, exists_part_map_iff]
    exact exists_nonEmptyAt_iff hget
  case networkTransport => exact network_transport_iff hget
  case networkProtocol => exact network_protocol_iff hget
  case srcIP =>
    rw [srcEndpoint, endpointOf, exists_part_ite_iff]
    exact string_in_part_iff hget (by simp_all)
  case srcPort =>
    rw [srcEndpoint, endpointOf, exists_part_ite_iff]
    exact integer_in_part_iff hget (by simp_all)
  case dstIP =>
    rw [dstEndpoint, endpointOf, exists_part_ite_iff]
    exact string_in_part_iff hget (by simp_all)
  case dstPort =>
    rw [dstEndpoint, endpointOf, exists_part_ite_iff]
    exact integer_in_part_iff hget (by simp_all)
  case httpRequestMethod =>
    rw [httpInfoOf, exists_part_ite_iff]
    exact string_in_part_iff hget (by simp_all)
  case httpResponseStatusCode =>
    rw [httpInfoOf, exists_part_ite_iff]
    exact integer_in_part_iff hget (by simp_all)
  case httpURL =>
    rw [httpInfoOf, exists_part_ite_iff, and_comm]
    apply and_congr_left
    intro _
    rw [stringAt_of_get? hget, IsString]
    cases val <;> simp [asString]
  case dnsQueryName =>
    rw [dnsInfoOf, exists_part_ite_iff]
    exact string_in_part_iff hget (by simp_all)
  case dnsQueryType =>
    rw [dnsInfoOf, exists_part_ite_iff]
    exact string_in_part_iff hget (by simp_all)
  case dnsResponseCode =>
    rw [dnsInfoOf, exists_part_ite_iff]
    exact string_in_part_iff hget (by simp_all)
  case alertSeverity =>
    rw [alertInfoOf, exists_part_ite_iff]
    exact string_in_part_iff hget (by simp_all)
  case alertName =>
    rw [alertInfoOf, exists_part_ite_iff]
    exact string_in_part_iff hget (by simp_all)
  case userID => exact part_default_iff fun _ => rfl
  case userDomain => exact part_default_iff fun _ => rfl
  case deviceHostname =>
    rw [deviceInfoOf, exists_part_map_iff]
    simp only [and_comm]
  case deviceIP => exact part_default_iff fun _ => rfl
  case deviceMAC => exact part_default_iff fun _ => rfl
  case httpMethod =>
    rw [httpInfoOf, exists_part_ite_iff, and_comm]
    rfl
  case httpStatusCode =>
    rw [httpInfoOf, exists_part_ite_iff, and_comm]
    rfl
  case alertCategory => rw [alertInfoOf, exists_part_ite_iff, and_comm]
  case qualityMappingScore => simp [SameValue, eq_comm]

theorem structField_holds_iff {path : String}
    (hget : parseResult.extracted.get? path = some val) :
    (∃ w, structField (normalizedEventOf p env parseResult spec) path = some w ∧
        SameValue w val) ↔ Kept p env spec parseResult.extracted path val := by
  rw [structField, Kept]
  cases hpath : CanonicalPath.ofText? path with
  | none => simp
  | some c =>
      rw [← CanonicalPath.text_of_ofText? hpath] at hget
      simp only [Option.bind_some, Option.some.injEq, exists_eq_left']
      exact field_holds_iff hget

/-- Every extracted value is kept in a struct field, or is an unknown field of
the same name as well. -/
def KeepsExtracted (p : Platform) (env : RawEnvelopeInput) (parseResult : ParseResult)
    (spec : ParserSpec) : Prop :=
  ∀ path val, parseResult.extracted.get? path = some val →
    Kept p env spec parseResult.extracted path val ∨
      parseResult.unknownFields.get? path = some val

/-- The canonical event of a parse result holds what was extracted exactly when
the normalizer keeps every extracted value. -/
theorem holdsExtracted_iff_keepsExtracted {event : NormalizedEvent}
    (h : normalize p env parseResult spec = .ok event) :
    HoldsExtracted event parseResult.extracted ↔ KeepsExtracted p env parseResult spec := by
  obtain ⟨rfl, -⟩ := normalize_eq_ok_iff.mp h
  have hextensions : ∀ path val,
      (∃ ext, (normalizedEventOf p env parseResult spec).extensions = some ext ∧
        ext.get? path = some val) ↔ parseResult.unknownFields.get? path = some val := by
    simp [normalizedEventOf]
  constructor
  · intro hholds path val hget
    obtain hfield | hext := hholds path val hget
    · exact Or.inl ((structField_holds_iff hget).mp hfield)
    · exact Or.inr ((hextensions path val).mp hext)
  · intro hkeeps path val hget
    obtain hkept | hunknown := hkeeps path val hget
    · exact Or.inl ((structField_holds_iff hget).mpr hkept)
    · exact Or.inr ((hextensions path val).mpr hunknown)

end Kept

section BytesOut

def sampleEnvelope : RawEnvelopeInput where
  eventID := fallbackEventID
  sourceID := "firewall"
  rawRef := "raw/2026/09/17/firewall/01J9A0K0P0Z3R3M5WQ6F7H8J9K"
  rawSHA256 := fallbackSHA256
  ingestTS := "2026-09-17T12:00:00Z"

def bytesOutSpec : ParserSpec :=
  plainSpec "key_value" [("bytes", plainField "integer" "network.bytes_out")]

def bytesOutResult : ParseResult :=
  mapRawFields Platform.plain Enumeration.standing bytesOutSpec "bytes=100"
    (Dict.ofList [("bytes", .str "100")])

theorem normalize_bytesOut : normalize Platform.plain sampleEnvelope bytesOutResult bytesOutSpec =
    .ok (normalizedEventOf Platform.plain sampleEnvelope bytesOutResult bytesOutSpec) :=
  normalize_eq_ok_iff.mpr ⟨rfl, by decide +kernel⟩

theorem holdsExtracted_iff_keepsExtracted_bytesOut :
    HoldsExtracted (normalizedEventOf Platform.plain sampleEnvelope bytesOutResult bytesOutSpec)
        bytesOutResult.extracted ↔
      KeepsExtracted Platform.plain sampleEnvelope bytesOutResult bytesOutSpec :=
  holdsExtracted_iff_keepsExtracted normalize_bytesOut

/-- Transferred bytes that the parser extracts are not in the event. -/
theorem not_holdsExtracted_bytesOut :
    ¬ ∀ (p : Platform) (e : Enumeration) (env : RawEnvelopeInput) (raw : List UInt8)
      (spec : ValidSpec) (parseResult : ParseResult) (event : NormalizedEvent),
      parse p e raw spec.1 = .ok parseResult → normalize p env parseResult spec.1 = .ok event →
        HoldsExtracted event parseResult.extracted := by
  intro hall
  have haccepted : Accepted bytesOutSpec :=
    (validateParserSpec_eq_ok_iff _).mp (by decide +kernel)
  have hparse : parse Platform.plain Enumeration.standing (asciiBytes "bytes=100") bytesOutSpec =
      .ok bytesOutResult :=
    parse_eq_ok_iff.mpr ⟨by decide, Dict.ofList [("bytes", .str "100")], by decide +kernel, by
      rw [show ofBytes (asciiBytes "bytes=100") = "bytes=100" by decide +kernel]
      rfl⟩
  have hget : bytesOutResult.extracted.get? "network.bytes_out" = some (.num (.int64 100)) := by
    decide +kernel
  obtain ⟨w, hfield, -⟩ | ⟨ext, hext, hunknown⟩ :=
    hall _ _ _ _ ⟨bytesOutSpec, haccepted⟩ _ _ hparse normalize_bytesOut _ _ hget
  · have hnone : CanonicalPath.ofText? "network.bytes_out" = none := by decide
    rw [structField, hnone] at hfield
    cases hfield
  · cases hext
    revert hunknown
    decide +kernel

end BytesOut

end Ulpf.Normalize
