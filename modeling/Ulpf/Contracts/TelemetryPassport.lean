import Ulpf.Contracts.SelfHealingReport
import Ulpf.Lib.Check

/-!
`telemetry_passport.schema.json`: the contract of a passport, with its rules for certified and
uncertified ones.
-/

namespace Ulpf.Contracts

open Ulpf.Lib
open Ulpf.Lib.Check
open Ulpf.Python

namespace TelemetryPassport

open RepairReport (version dateTime)

/-- `#/$defs/metric` -/
def metric : Check PyNum :=
  either (Contract.valid (.number (isBetween 0 1))) (const "NOT YET MEASURED")

/-- The metrics of a passport. -/
def metricNames : List String :=
  ["extraction_accuracy", "semantic_accuracy", "raw_retention", "unknown_field_retention",
    "detection_preservation"]

/-- Every metric passes a check. -/
def scores (check : Check PyNum) : Check PyNum :=
  all (metricNames.map fun name => onProperty name check)

/-- What the contract asks of every passport. -/
def shape : Check PyNum :=
  record
    [("schema_version", const "1.1"), ("source_id", Contract.nonempty.valid),
     ("parser", record [("id", Contract.nonempty.valid), ("version", version.valid)]),
     ("validation", record
       [("status", (Contract.oneOf ["PASSED", "FAILED", "NOT_YET_MEASURED"]).valid),
        ("run_id", either isNull Contract.nonempty.valid),
        ("completed_at", either isNull dateTime.valid)]),
     ("certification", record
       [("status", (Contract.oneOf ["CERTIFIED", "NOT_CERTIFIED"]).valid),
        ("timestamp", either isNull dateTime.valid)]),
     ("scores", record (metricNames.map fun name => (name, metric))),
     ("drift", record
       [("state", (Contract.oneOf ["STABLE", "SUSPECTED", "DRIFTED", "NOT_YET_MEASURED"]).valid),
        ("observed_at", either isNull dateTime.valid)])]

/-- The certification has a given status. -/
def status (name : String) : Check PyNum :=
  onProperty "certification" (onProperty "status" (const name))

/-- What the contract asks of a certified passport besides. -/
def whenCertified : Check PyNum :=
  all
    [onProperty "certification" (onProperty "timestamp" isString),
     onProperty "validation" (all [onProperty "status" (const "PASSED"),
       onProperty "run_id" isString, onProperty "completed_at" isString]),
     onProperty "scores" (scores isNumber),
     onProperty "drift" (all
       [onProperty "state" (Contract.oneOf ["STABLE", "SUSPECTED", "DRIFTED"]).valid,
        onProperty "observed_at" isString])]

/-- What the contract asks of a passport without certification besides. -/
def whenNotCertified : Check PyNum :=
  all
    [onProperty "scores" (scores (const "NOT YET MEASURED")),
     onProperty "drift" (all [onProperty "state" (const "NOT_YET_MEASURED"),
       onProperty "observed_at" isNull])]

end TelemetryPassport

open TelemetryPassport in
/-- The contract of a telemetry passport: its shape, and what follows from its status. -/
def telemetryPassport : Check PyNum :=
  all [shape, implies (status "CERTIFIED") whenCertified,
    implies (status "NOT_CERTIFIED") whenNotCertified]

end Ulpf.Contracts
