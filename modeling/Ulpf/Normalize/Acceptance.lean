import Ulpf.IngestGateway.Envelope
import Ulpf.Normalize.Normalizer
import Ulpf.ParserRuntime.NoLoss

/-!
Which parse results of ingested events become canonical events: the final
validation rejects the others.
-/

namespace Ulpf.Normalize

open Ulpf.Lib
open Ulpf.Go
open Ulpf.ParserRuntime
open Ulpf.IngestGateway

section Checks

theorem ensure_eq_ok_iff {ok : Bool} {e : IRError} : ensure ok e = .ok () ↔ ok = true := by
  cases ok
  · exact ⟨nofun, nofun⟩
  · exact ⟨fun _ => rfl, fun _ => rfl⟩

theorem ensure_bind_eq_ok_iff {ok : Bool} {e : IRError} {f : Unit → Except IRError Unit} :
    ensure ok e >>= f = .ok () ↔ ok = true ∧ f () = .ok () := by
  rw [bind_eq_ok_iff]
  constructor
  · rintro ⟨_, hok, hf⟩
    exact ⟨ensure_eq_ok_iff.mp hok, hf⟩
  · rintro ⟨hok, hf⟩
    exact ⟨(), ensure_eq_ok_iff.mpr hok, hf⟩

/-- An endpoint that is missing, or has an address or none and a port. -/
def ValidEndpoint (endpoint : Option Endpoint) : Prop :=
  ∀ e ∈ endpoint, isOptionalIP e.ip = true ∧ isPort e.port = true

theorem validateEndpoint_eq_ok_iff {side : String} {endpoint : Option Endpoint} :
    validateEndpoint side endpoint = .ok () ↔ ValidEndpoint endpoint := by
  cases endpoint with
  | none => exact ⟨fun _ => nofun, fun _ => rfl⟩
  | some e =>
      rw [validateEndpoint, ensure_bind_eq_ok_iff, ensure_eq_ok_iff]
      constructor
      · intro h e' he
        cases he
        exact h
      · intro h
        exact h e rfl

theorem EventInfo.validate_eq_ok_iff {l : Time.LocalZone} {e : EventInfo} :
    e.validate l = .ok () ↔ e.eventClass ≠ "" ∧ e.action ≠ "" ∧
      e.outcome ∈ ["success", "failure", "unknown"] ∧ isRFC3339 l e.time = true := by
  simp only [EventInfo.validate, ensure_bind_eq_ok_iff, ensure_eq_ok_iff, decide_eq_true_eq,
    List.contains_iff_mem]

theorem SourceInfo.validate_eq_ok_iff {e : SourceInfo} :
    e.validate = .ok () ↔ e.vendor ≠ "" ∧ e.product ≠ "" ∧ e.deviceID ≠ "" := by
  simp only [SourceInfo.validate, ensure_bind_eq_ok_iff, ensure_eq_ok_iff, decide_eq_true_eq]

theorem ParserMetadata.validate_eq_ok_iff {e : ParserMetadata} :
    e.validate = .ok () ↔ e.id ≠ "" ∧ matchString semverRegex e.version = true := by
  simp only [ParserMetadata.validate, ensure_bind_eq_ok_iff, ensure_eq_ok_iff, decide_eq_true_eq]

theorem RawProvenance.validate_eq_ok_iff {e : RawProvenance} :
    e.validate = .ok () ↔ e.ref ≠ "" ∧ matchString sha256Regex e.sha256 = true := by
  simp only [RawProvenance.validate, ensure_bind_eq_ok_iff, ensure_eq_ok_iff, decide_eq_true_eq]

theorem NormalizedEvent.validate_eq_ok_iff {l : Time.LocalZone} {e : NormalizedEvent} :
    e.validate l = .ok () ↔ e.schemaVersion = "1.0" ∧
      matchString eventIDRegex e.eventID = true ∧ e.event.validate l = .ok () ∧
      e.source.validate = .ok () ∧ ValidEndpoint e.src ∧ ValidEndpoint e.dst ∧
      e.parser.validate = .ok () ∧ e.raw.validate = .ok () ∧ e.quality.validate = .ok () ∧
      e.extensions.isSome = true := by
  have hunit (x : Except IRError Unit) (q : Prop) : (∃ _ : Unit, x = .ok () ∧ q) ↔ x = .ok () ∧ q :=
    ⟨fun ⟨_, h⟩ => h, fun h => ⟨(), h⟩⟩
  simp only [NormalizedEvent.validate, bind_eq_ok_iff, hunit, ensure_eq_ok_iff,
    validateEndpoint_eq_ok_iff, decide_eq_true_eq]

end Checks

section Reading

variable {ex : Extracted}

theorem present_of_stringAt {path s : String} (h : stringAt ex path = some s) :
    present ex path = true := by
  obtain ⟨val, hget, hval⟩ := Option.bind_eq_some_iff.mp h
  rw [present, hget, Option.any_some]
  cases val <;> first | rfl | cases hval

theorem present_of_intAt {path : String} {n : ℤ} (h : intAt ex path = some n) :
    present ex path = true := by
  obtain ⟨val, hget, hval⟩ := Option.bind_eq_some_iff.mp h
  rw [present, hget, Option.any_some]
  cases val <;> first | rfl | cases hval

theorem getD_nonEmptyAt_ne {path default : String} (h : default ≠ "") :
    (nonEmptyAt ex path).getD default ≠ "" := by
  cases hs : nonEmptyAt ex path with
  | none => exact h
  | some s => exact nonEmptyAt_ne_empty hs

theorem check_getD_iff {α : Type} {x : Option α} (check : α → Bool) (default : α)
    (h : check default = true) :
    check (x.getD default) = true ↔ ∀ a, x = some a → check a = true := by
  cases x with
  | none => exact ⟨fun _ => nofun, fun _ => h⟩
  | some a =>
      constructor
      · intro hcheck b hb
        cases hb
        exact hcheck
      · intro hall
        exact hall a rfl

/-- Address and port of a side, as far as they are read, pass their checks. -/
def ReadableEndpoint (ex : Extracted) (ipPath portPath : String) : Prop :=
  (∀ ip, stringAt ex ipPath = some ip → isOptionalIP ip = true) ∧
    ∀ port, intAt ex portPath = some port → isPort port = true

theorem validEndpoint_endpointOf_iff {ipPath portPath : String} :
    ValidEndpoint (endpointOf ex ipPath portPath) ↔ ReadableEndpoint ex ipPath portPath := by
  rw [endpointOf]
  split
  · rw [ReadableEndpoint, ← check_getD_iff isOptionalIP "" (by decide),
      ← check_getD_iff isPort 0 (by decide)]
    constructor
    · intro h
      exact h _ rfl
    · rintro h e he
      cases he
      exact h
  · rename_i hmissing
    constructor
    · intro _
      constructor
      · intro ip hip
        exact absurd (by rw [present_of_stringAt hip, Bool.true_or]) hmissing
      · intro port hport
        exact absurd (by rw [present_of_intAt hport, Bool.or_true]) hmissing
    · intro _ e he
      cases he

end Reading

section Patterns

open Regex

theorem takes_hexDigit : Takes hexDigit fun c => ('0' ≤ c && c ≤ '9') || (('a' ≤ c && c ≤ 'f') ||
    ('A' ≤ c && c ≤ 'F')) :=
  (takes_char _).alt ((takes_char _).alt (takes_char _))

theorem matchString_sha256Regex_hex {bytes : List UInt8} (h : bytes.length = 32) :
    matchString sha256Regex (String.ofList (Sha256.hex bytes)) = true := by
  have hlength : (Sha256.hex bytes).length = 64 := by
    rw [Sha256.length_hex, h]
  have hmatch := fullMatch_times takes_hexDigit fun c (hc : c ∈ Sha256.hex bytes) => by
    obtain ⟨n, hn, rfl⟩ := Sha256.exists_digit_of_mem_hex hc
    interval_cases n <;> rfl
  rw [hlength] at hmatch
  rw [matchString, String.toList_ofList]
  exact hmatch

theorem takes_ulidChar : Takes ulidChar fun c => ('0' ≤ c && c ≤ '9') ||
    (('A' ≤ c && c ≤ 'H') || ("JK".toList.contains c || ("MN".toList.contains c ||
      (('P' ≤ c && c ≤ 'T') || ('V' ≤ c && c ≤ 'Z'))))) :=
  (takes_char _).alt ((takes_char _).alt ((takes_char _).alt ((takes_char _).alt
    ((takes_char _).alt (takes_char _)))))

theorem matchString_eventIDRegex_text (id : Ulid) : matchString eventIDRegex id.text = true := by
  obtain ⟨k, hk, hdigits⟩ := Ulid.digits_eq id
  have hfirst : (decide ('0' ≤ Ulid.digit k) && decide (Ulid.digit k ≤ '7')) = true := by
    interval_cases k <;> rfl
  have hmatch : fullMatch (seq (range '0' '7') (times ulidChar (Ulid.digits 25 id.toNat).length))
      (Ulid.digit k :: Ulid.digits 25 id.toNat) = true := by
    apply fullMatch_seq_times (takes_char _) takes_ulidChar hfirst
    intro c hc
    obtain ⟨n, hn, rfl⟩ := Ulid.exists_digit_of_mem hc
    interval_cases n <;> rfl
  rw [Ulid.length_digits] at hmatch
  rw [matchString, Ulid.text, String.toList_ofList, hdigits]
  exact fullMatch_alt_left _ hmatch

end Patterns

section Acceptance

/-- An event on its way from the gateway to the normalizer: its envelope, and a
successful parse of its payload with an accepted spec. The time of ingest is not
in the envelope under the name the normalizer reads; it is the time of receipt
where the caller fills it in. -/
structure ParsedEvent where
  gateway : Platform
  service : IngestService
  newID : Except String Ulid
  sourceID : String
  transport : String
  payload : List UInt8
  envelope : RawEventEnvelope
  ingested : ingest gateway newID service sourceID transport payload = .ok envelope
  ingestTS : String
  ingestTS_mem : ingestTS ∈ ["", envelope.receivedAt]
  worker : Platform
  enumeration : Enumeration
  spec : ValidSpec
  result : ParseResult
  parsed : parse worker enumeration payload spec.1 = .ok result

namespace ParsedEvent

variable (x : ParsedEvent)

/-- What the worker takes from an envelope. -/
def input : RawEnvelopeInput where
  eventID := x.envelope.eventID
  sourceID := x.envelope.sourceID
  rawRef := x.envelope.rawRef
  rawSHA256 := x.envelope.rawSHA256
  ingestTS := x.ingestTS

/-- What the worker makes of an event. -/
def normalized : Except IRError NormalizedEvent :=
  normalize x.worker x.input x.result x.spec.1

/-- An event is normalized and passes `Validate`. -/
def Normalizes : Prop :=
  ∃ event, x.normalized = .ok event ∧ event.validate x.worker.localZone = .ok ()

/-- What the normalizer reads as the time, the addresses and the ports of the
event is a time, addresses and ports. -/
def Readable : Prop :=
  (∀ time, nonEmptyAt x.result.extracted "event.timestamp" = some time →
      isRFC3339 x.worker.localZone time = true) ∧
    ReadableEndpoint x.result.extracted "src.ip" "src.port" ∧
    ReadableEndpoint x.result.extracted "dst.ip" "dst.port"

end ParsedEvent

section Parts

variable (p : Platform) (env : RawEnvelopeInput) (spec : ParserSpec) (ex : Extracted)

theorem isRFC3339_now (l : Time.LocalZone) (p : Platform) : isRFC3339 l (nowText p) = true := by
  rw [isRFC3339, nowText, parse_now]
  rfl

theorem validate_eventInfoOf_iff
    (hnow : isRFC3339 p.localZone (orDefault env.ingestTS (nowText p)) = true) :
    (eventInfoOf p env spec ex).validate p.localZone = .ok () ↔
      ∀ time, nonEmptyAt ex "event.timestamp" = some time → isRFC3339 p.localZone time = true := by
  have htime : eventTimeOf p env ex =
      (nonEmptyAt ex "event.timestamp").getD (orDefault env.ingestTS (nowText p)) := by
    rw [eventTimeOf]
    cases hs : nonEmptyAt ex "event.timestamp" with
    | none => rfl
    | some s => exact orDefault_of_ne (nonEmptyAt_ne_empty hs)
  rw [EventInfo.validate_eq_ok_iff, ← check_getD_iff (isRFC3339 p.localZone) _ hnow, ← htime]
  constructor
  · exact fun h => h.2.2.2
  · exact fun h => ⟨getD_nonEmptyAt_ne (inferClass_ne_empty), getD_nonEmptyAt_ne (by decide),
      outcomeOfAction_mem _ _, h⟩

theorem validate_sourceInfoOf : (sourceInfoOf env ex).validate = .ok () := by
  rw [SourceInfo.validate_eq_ok_iff]
  refine ⟨getD_nonEmptyAt_ne ?_, getD_nonEmptyAt_ne ?_, getD_nonEmptyAt_ne ?_⟩
  · decide
  · exact orDefault_ne_empty (by decide)
  · exact orDefault_ne_empty (by decide)

theorem validate_parserMetadata {spec : ParserSpec} (h : Accepted spec) :
    ParserMetadata.validate ⟨spec.parser.id, spec.parser.version⟩ = .ok () := by
  rw [ParserMetadata.validate_eq_ok_iff]
  refine ⟨?_, h.parserVersion⟩
  rintro (hid : spec.parser.id = "")
  have hmatch := h.parserId
  rw [hid] at hmatch
  revert hmatch
  decide

theorem validate_quality : QualityReport.validate ⟨98 / 100, "VERIFIED"⟩ = .ok () := by
  decide +kernel

example : (QualityReport.validate ⟨3 / 2, "VERIFIED"⟩).toBool = false := by decide +kernel

theorem rawRefOf_ne : rawRefOf env ≠ "" := by
  apply orDefault_ne_empty
  intro h
  have htext := congrArg String.toList h
  simp at htext

end Parts

namespace ParsedEvent

variable (x : ParsedEvent)

theorem matchString_eventIDOf_input : matchString eventIDRegex (eventIDOf x.input) = true := by
  obtain ⟨id, rawRef, -, -, -, -, -, henvelope⟩ := ingest_eq_ok x.ingested
  have hid : x.input.eventID = id.text := congrArg RawEventEnvelope.eventID henvelope
  rw [eventIDOf, hid, orDefault]
  split
  · decide +kernel
  · exact matchString_eventIDRegex_text id

theorem validate_raw : RawProvenance.validate
    ⟨rawRefOf x.input, orDefault x.input.rawSHA256 fallbackSHA256⟩ = .ok () := by
  obtain ⟨id, rawRef, -, -, -, -, -, henvelope⟩ := ingest_eq_ok x.ingested
  have hdigest : x.input.rawSHA256 = String.ofList (Sha256.hex (Sha256.sum256 x.payload)) :=
    congrArg RawEventEnvelope.rawSHA256 henvelope
  rw [RawProvenance.validate_eq_ok_iff, hdigest, orDefault]
  refine ⟨rawRefOf_ne x.input, ?_⟩
  split
  · show matchString sha256Regex fallbackSHA256 = true
    decide +kernel
  · exact matchString_sha256Regex_hex (Sha256.length_sum256 x.payload)

theorem isRFC3339_ingestTS : isRFC3339 x.worker.localZone
    (orDefault x.input.ingestTS (nowText x.worker)) = true := by
  obtain ⟨id, rawRef, -, -, -, -, -, henvelope⟩ := ingest_eq_ok x.ingested
  rw [orDefault]
  split
  · exact isRFC3339_now x.worker.localZone x.worker
  · rename_i hfilled
    obtain hempty | hreceived := List.mem_cons.mp x.ingestTS_mem
    · exact absurd hempty hfilled
    · have htext : x.input.ingestTS = nowText x.gateway := by
        show x.ingestTS = _
        rw [List.mem_singleton.mp hreceived, henvelope]
        rfl
      rw [htext]
      exact isRFC3339_now x.worker.localZone x.gateway

/-- Only the time and the endpoints can be invalid. -/
theorem validate_iff_readable :
    (normalizedEventOf x.worker x.input x.result x.spec.1).validate x.worker.localZone = .ok () ↔
      x.Readable := by
  rw [NormalizedEvent.validate_eq_ok_iff]
  constructor
  · rintro ⟨-, -, hevent, -, hsrc, hdst, -⟩
    exact ⟨(validate_eventInfoOf_iff _ _ _ _ x.isRFC3339_ingestTS).mp hevent,
      validEndpoint_endpointOf_iff.mp hsrc, validEndpoint_endpointOf_iff.mp hdst⟩
  · rintro ⟨htime, hsrc, hdst⟩
    exact ⟨rfl, x.matchString_eventIDOf_input,
      (validate_eventInfoOf_iff _ _ _ _ x.isRFC3339_ingestTS).mpr htime,
      validate_sourceInfoOf x.input _, validEndpoint_endpointOf_iff.mpr hsrc,
      validEndpoint_endpointOf_iff.mpr hdst, validate_parserMetadata x.spec.2, x.validate_raw,
      validate_quality, rfl⟩

end ParsedEvent

/-- Exactly the events with a readable time, addresses and ports are kept; the
others fail as a whole. -/
theorem normalizes_iff_readable (x : ParsedEvent) : (x.Normalizes ↔ x.Readable) ∧
    ((∃ e, x.normalized = .error e) ↔ ¬ x.Readable) := by
  have hnormalizes : x.Normalizes ↔ x.Readable := by
    rw [← x.validate_iff_readable]
    constructor
    · rintro ⟨event, hnormalized, hvalid⟩
      obtain ⟨rfl, -⟩ := normalize_eq_ok_iff.mp hnormalized
      exact hvalid
    · intro hvalid
      exact ⟨_, normalize_eq_ok_iff.mpr ⟨rfl, hvalid⟩, hvalid⟩
  refine ⟨hnormalizes, ?_⟩
  rw [← hnormalizes]
  cases hnormalized : x.normalized with
  | error e =>
      refine ⟨fun _ => ?_, fun _ => ⟨e, rfl⟩⟩
      rintro ⟨event, hevent, -⟩
      rw [hnormalized] at hevent
      cases hevent
  | ok event =>
      refine ⟨nofun, fun h => absurd ⟨event, hnormalized, ?_⟩ h⟩
      exact (normalize_eq_ok_iff.mp hnormalized).2

section LargePort

def emptyGateway : IngestService where
  store := localFSStore Platform.plain (fun _ => false) fun _ _ => .ok ()
  inspect _ := .accepted

def largePortSpec : ValidSpec :=
  ⟨plainSpec "key_value" [("dport", plainField "integer" "dst.port")],
    (validateParserSpec_eq_ok_iff _).mp (by decide +kernel)⟩

def largePortEnvelope : RawEventEnvelope where
  schemaVersion := "1.0"
  eventID := "00000000000000000000000001"
  sourceID := "fw"
  receivedAt := "2025-10-09T08:53:20Z"
  transport := "http"
  rawRef := "raw/2025/10/09/fw/00000000000000000000000001"
  rawSHA256 := String.ofList (Sha256.hex (Sha256.sum256 (asciiBytes "dport=70000")))
  rawLengthBytes := 11
  ingestStatus := "ACCEPTED"

def largePortEvent : ParsedEvent where
  gateway := Platform.plain
  service := emptyGateway
  newID := .ok 1
  sourceID := "fw"
  transport := "http"
  payload := asciiBytes "dport=70000"
  envelope := largePortEnvelope
  ingested := by decide +kernel
  ingestTS := ""
  ingestTS_mem := by simp
  worker := Platform.plain
  enumeration := Enumeration.standing
  spec := largePortSpec
  result := mapRawFields Platform.plain Enumeration.standing largePortSpec.1 "dport=70000"
    (Dict.ofList [("dport", .str "70000")])
  parsed := parse_eq_ok_iff.mpr ⟨by decide, Dict.ofList [("dport", .str "70000")],
    by decide +kernel, by
      rw [show ofBytes (asciiBytes "dport=70000") = "dport=70000" by decide +kernel]⟩

/-- The port fails the whole event. -/
theorem not_normalizes_largePort : ¬ largePortEvent.Normalizes := by
  rintro ⟨event, hnormalized, hvalid⟩
  obtain ⟨rfl, -⟩ := normalize_eq_ok_iff.mp hnormalized
  revert hvalid
  decide +kernel

end LargePort

end Acceptance

end Ulpf.Normalize
