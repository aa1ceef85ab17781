import Ulpf.Contracts.SelfHealingReport
import Ulpf.Lib.Check

/-!
`drift_report.schema.json`: the contract of a drift assessment.
-/

namespace Ulpf.Contracts

open Ulpf.Lib
open Ulpf.Lib.Check
open Ulpf.Python

namespace DriftReport

open RepairReport (version dateTime unitInterval)

def structuralNames : List String :=
  ["parse_failure_rate", "unknown_field_ratio", "type_violation_rate", "key_set_distance",
    "distribution_divergence"]

def semanticNames : List String :=
  ["dps_regression", "enum_drift_score", "critical_mapping_drift", "event_family_drift"]

/-- `signals` and `thresholds`: the semantic entries may be absent. -/
def readings : Contract PyNum :=
  .object structuralNames
    ((structuralNames ++ semanticNames).map fun name => (name, unitInterval)) false

/-- The run of the baseline may be `null`. -/
def window : Check PyNum :=
  all
    [(Contract.object ["start_time", "end_time", "sample_count"]
      [("start_time", dateTime), ("end_time", dateTime), ("baseline_run_id", .any),
       ("sample_count", .number (isInteger fun n => 0 ≤ n))] false).valid,
     onProperty "baseline_run_id" (either isString isNull)]

/-- The contract of a drift report, as a check on any document. -/
def report : Check PyNum :=
  record
    [("schema_version", const "1.0"), ("source_id", Contract.nonempty.valid),
     ("parser", record [("id", Contract.nonempty.valid), ("version", version.valid)]),
     ("drift_state", (Contract.oneOf ["STABLE", "SUSPECTED", "DRIFTED"]).valid),
     ("observed_at", dateTime.valid), ("window", window), ("signals", readings.valid),
     ("thresholds", readings.valid), ("drift_details", (Contract.array 0 .text).valid),
     ("remediation_recommended", Contract.boolean.valid)]

end DriftReport

end Ulpf.Contracts
