import Ulpf.Go.Platform
import Ulpf.Go.RFC3339
import Ulpf.Lib.Outcome
import Ulpf.Lib.Sha256
import Ulpf.Lib.Ulid

/-!
The ingest gateway: the envelope of a raw event.
-/

namespace Ulpf.IngestGateway

open Ulpf.Lib
open Ulpf.Go

/-- The statuses of an envelope. -/
inductive IngestStatus where
  | accepted
  | quarantined
  | rejected
  deriving DecidableEq

/-- The text of a status. -/
def IngestStatus.text : IngestStatus → String
  | accepted => "ACCEPTED"
  | quarantined => "QUARANTINED"
  | rejected => "REJECTED"

/-- `RawEventEnvelope`: what is published of a raw event. -/
structure RawEventEnvelope where
  schemaVersion : String
  eventID : String
  sourceID : String
  receivedAt : String
  transport : String
  rawRef : String
  rawSHA256 : String
  rawLengthBytes : ℕ
  ingestStatus : String
  deriving DecidableEq

/-- The transports that an envelope can name. -/
def validTransports : List String :=
  ["syslog_tcp", "syslog_udp", "http", "file", "agent", "unknown"]

/-- The errors of `NewRawEventEnvelopeWithStatus`. -/
inductive EnvelopeError where
  | emptySourceID
  | invalidTransport (transport : String)
  | emptyBytes
  | generatingEventID (reason : String)
  deriving DecidableEq

/-- The errors of an ingestion. -/
inductive IngestError where
  | sourceIDRequired
  | bodyRequired
  | building (e : EnvelopeError)
  | storing (reason : String)
  deriving DecidableEq

section Building

variable (p : Platform)

/-- `generateULID`, from what `ulid.New` returns. -/
def generateULID (new : Except String Ulid) : Except EnvelopeError String :=
  (new.map Ulid.text).mapError .generatingEventID

/-- `NewRawEventEnvelopeWithStatus` -/
def newRawEventEnvelopeWithStatus (new : Except String Ulid) (sourceID transport : String)
    (rawBytes : List UInt8) (rawRef : String) (status : IngestStatus) :
    Except EnvelopeError RawEventEnvelope :=
  if sourceID = "" then .error .emptySourceID
  else if !validTransports.contains transport then .error (.invalidTransport transport)
  else if rawBytes.isEmpty then .error .emptyBytes
  else (generateULID new).map fun eventID =>
    { schemaVersion := "1.0"
      eventID := eventID
      sourceID := sourceID
      receivedAt := String.ofList ((Time.unix p.now 0).formatRFC3339 false)
      transport := transport
      rawRef := rawRef
      rawSHA256 := String.ofList (Sha256.hex (Sha256.sum256 rawBytes))
      rawLengthBytes := rawBytes.length
      ingestStatus := status.text }

/-- What an ingest service is built with: `RawStore.Store`, which gives the
reference of stored bytes, and the status its firewall decides on. -/
structure IngestService where
  store : String → String → List UInt8 → Except String String
  inspect : List UInt8 → IngestStatus

/-- `LocalFSStore.Store`: the reference names the day, the source and the event.
Bytes are never written over others; `writes` is what writing them returns. -/
def localFSStore (exists? : String → Bool) (writes : String → List UInt8 → Except String Unit)
    (eventID sourceID : String) (rawBytes : List UInt8) : Except String String :=
  let (year, month, day) := Calendar.civilFromDays (Time.clock p.now).1
  let rawRef := "raw/" ++ String.ofList (Time.appendInt year 4) ++ "/" ++
    String.ofList (Time.appendInt month 2) ++ "/" ++ String.ofList (Time.appendInt day 2) ++ "/" ++
    sourceID ++ "/" ++ eventID
  if exists? rawRef then .error ("raw event already exists at " ++ rawRef)
  else (writes rawRef rawBytes).map fun _ => rawRef

/-- `Ingest`, up to the publication of the envelope. -/
def ingest (new : Except String Ulid) (s : IngestService) (sourceID transport : String)
    (rawBytes : List UInt8) : Except IngestError RawEventEnvelope :=
  if sourceID = "" then .error .sourceIDRequired
  else if rawBytes.isEmpty then .error .bodyRequired
  else do
    let envelope ← (newRawEventEnvelopeWithStatus p new sourceID transport rawBytes ""
      (s.inspect rawBytes)).mapError .building
    let rawRef ← (s.store envelope.eventID sourceID rawBytes).mapError .storing
    return { envelope with rawRef := rawRef }

theorem parse_now (l : Time.LocalZone) :
    Time.parse l Time.rfc3339 (String.ofList ((Time.unix p.now 0).formatRFC3339 false)) =
      some (Time.unix p.now 0) := by
  have hnow : Time.unix p.now 0 = ⟨p.now, 0, .utc⟩ := by
    simp [Time.unix]
  have hrange : Time.FourDigitYear p.now := by
    have h := p.now_range
    simp only [Time.FourDigitYear, Time.firstSecond, Time.endSecond]
    omega
  rw [hnow]
  exact Time.parse_formatRFC3339 l hrange

variable {p} in
theorem newRawEventEnvelopeWithStatus_eq_ok_iff {new : Except String Ulid}
    {sourceID transport rawRef : String} {rawBytes : List UInt8} {status : IngestStatus}
    {env : RawEventEnvelope} :
    newRawEventEnvelopeWithStatus p new sourceID transport rawBytes rawRef status = .ok env ↔
      sourceID ≠ "" ∧ transport ∈ validTransports ∧ rawBytes ≠ [] ∧ ∃ id, new = .ok id ∧
        env = { schemaVersion := "1.0"
                eventID := id.text
                sourceID := sourceID
                receivedAt := String.ofList ((Time.unix p.now 0).formatRFC3339 false)
                transport := transport
                rawRef := rawRef
                rawSHA256 := String.ofList (Sha256.hex (Sha256.sum256 rawBytes))
                rawLengthBytes := rawBytes.length
                ingestStatus := status.text } := by
  rw [newRawEventEnvelopeWithStatus]
  constructor
  · intro h
    split_ifs at h with hsource htransport hbytes
    obtain ⟨eventID, hid, rfl⟩ := map_eq_ok_iff.mp h
    rw [generateULID, mapError_eq_ok_iff, map_eq_ok_iff] at hid
    obtain ⟨id, hnew, rfl⟩ := hid
    exact ⟨hsource, by simpa using htransport, by simpa using hbytes, id, hnew, rfl⟩
  · rintro ⟨hsource, htransport, hbytes, id, rfl, rfl⟩
    rw [if_neg hsource, if_neg (by simpa using htransport), if_neg (by simpa using hbytes)]
    rfl

variable {p} in
theorem ingest_eq_ok {new : Except String Ulid} {s : IngestService} {sourceID transport : String}
    {rawBytes : List UInt8} {env : RawEventEnvelope}
    (h : ingest p new s sourceID transport rawBytes = .ok env) :
    ∃ id rawRef, new = .ok id ∧ sourceID ≠ "" ∧ transport ∈ validTransports ∧ rawBytes ≠ [] ∧
      s.store id.text sourceID rawBytes = .ok rawRef ∧
      env = { schemaVersion := "1.0"
              eventID := id.text
              sourceID := sourceID
              receivedAt := String.ofList ((Time.unix p.now 0).formatRFC3339 false)
              transport := transport
              rawRef := rawRef
              rawSHA256 := String.ofList (Sha256.hex (Sha256.sum256 rawBytes))
              rawLengthBytes := rawBytes.length
              ingestStatus := (s.inspect rawBytes).text } := by
  rw [ingest] at h
  split_ifs at h
  obtain ⟨built, hbuilt, h⟩ := bind_eq_ok_iff.mp h
  obtain ⟨rawRef, hstored, h⟩ := bind_eq_ok_iff.mp h
  rw [mapError_eq_ok_iff] at hbuilt hstored
  obtain ⟨hsource, htransport, hbytes, id, hnew, rfl⟩ :=
    newRawEventEnvelopeWithStatus_eq_ok_iff.mp hbuilt
  exact ⟨id, rawRef, hnew, hsource, htransport, hbytes, hstored, (pure_eq_ok_iff.mp h).symm⟩

end Building

end Ulpf.IngestGateway
