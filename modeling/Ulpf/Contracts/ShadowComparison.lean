import Ulpf.Contracts.SelfHealingReport

/-!
`shadow_comparison.schema.json`: the contract of the record of a shadow run.
-/

namespace Ulpf.Contracts

open Ulpf.Lib
open Ulpf.Python

/-- `type: number` with a `minimum`. -/
def isAtLeast (minimum : ℚ) : PyNum → Bool
  | .int n => minimum ≤ n
  | .float x => x.toRat?.any fun q => minimum ≤ q

namespace ShadowComparison

open RepairReport (version dateTime unitInterval)

def parser : Contract PyNum :=
  .object ["id", "version"] [("id", .nonempty), ("version", version)] false

def evaluationWindow : Contract PyNum :=
  .object ["start_time", "end_time", "sample_count"]
    [("start_time", dateTime), ("end_time", dateTime),
     ("sample_count", .number (isInteger fun n => 0 ≤ n))] false

def metrics : Contract PyNum :=
  .object ["field_match_rate", "critical_semantic_divergence", "unknown_field_retention",
      "active_dps", "candidate_dps", "dps_delta", "active_latency_p95_ms",
      "candidate_latency_p95_ms", "latency_delta_pct"]
    [("field_match_rate", unitInterval), ("critical_semantic_divergence", unitInterval),
     ("unknown_field_retention", unitInterval), ("active_dps", unitInterval),
     ("candidate_dps", unitInterval), ("dps_delta", .number (isBetween (-1) 1)),
     ("active_latency_p95_ms", .number (isAtLeast 0)),
     ("candidate_latency_p95_ms", .number (isAtLeast 0)),
     ("latency_delta_pct", .number fun _ => true)] false

/-- The values of a diverging field in one pair of events. -/
def exampleMismatch : Contract PyNum :=
  .object [] [("active", .any), ("candidate", .any)] false

/-- A field on which the two parsers diverge, and how often. -/
def fieldDivergence : Contract PyNum :=
  .object ["field", "match_rate", "divergence_type"]
    [("field", .nonempty), ("match_rate", unitInterval),
     ("divergence_type", .oneOf ["VALUE_MISMATCH", "FIELD_MISSING_IN_CANDIDATE",
       "NEW_FIELD_IN_CANDIDATE", "TYPE_MISMATCH"]),
     ("example_mismatch", exampleMismatch)] false

/-- The contract of a shadow comparison. -/
def report : Contract PyNum :=
  .object ["schema_version", "source_id", "active_parser", "candidate_parser", "shadow_state",
      "evaluated_at", "evaluation_window", "metrics", "field_divergences",
      "downstream_isolation_verified", "recommendation", "recommendation_reasons"]
    [("schema_version", .string fun s => s = "1.0"), ("source_id", .nonempty),
     ("active_parser", parser), ("candidate_parser", parser),
     ("shadow_state", .oneOf ["PASSED", "FAILED", "SUSPECTED"]), ("evaluated_at", dateTime),
     ("evaluation_window", evaluationWindow), ("metrics", metrics),
     ("field_divergences", .array 0 fieldDivergence),
     ("downstream_isolation_verified", .boolean),
     ("recommendation", .oneOf ["READY_FOR_PROMOTION", "REJECT", "REQUIRE_HUMAN_REVIEW"]),
     ("recommendation_reasons", .array 0 .text)] false

end ShadowComparison

end Ulpf.Contracts
