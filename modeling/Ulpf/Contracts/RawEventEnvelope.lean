import Ulpf.Contracts.NormalizedEvent

/-!
`raw_event_envelope.schema.json`: the contract of the envelope of a raw event.
-/

namespace Ulpf.Contracts

open Ulpf.Lib
open Ulpf.Python
open Ulpf.Normalize (eventIDRegex sha256Regex)
open Ulpf.ParserRuntime (matchString)

/-- The contract of a raw event envelope. -/
def rawEventEnvelope : Contract PyNum :=
  .object ["schema_version", "event_id", "source_id", "received_at", "transport", "raw_ref",
      "raw_sha256", "raw_length_bytes", "ingest_status"]
    [("schema_version", .string fun s => s = "1.0"),
     ("event_id", .string (matchString eventIDRegex)), ("source_id", .nonempty),
     ("received_at", .string isDateTime),
     ("transport", .oneOf ["syslog_tcp", "syslog_udp", "http", "file", "agent", "unknown"]),
     ("raw_ref", .nonempty), ("raw_sha256", .string (matchString sha256Regex)),
     ("raw_length_bytes", .number (isInteger fun n => 0 ≤ n)),
     ("ingest_status", .oneOf ["ACCEPTED", "QUARANTINED", "REJECTED"])] false

end Ulpf.Contracts
