import Ulpf.Contracts.NormalizedEvent
import Ulpf.Contracts.ParserSpec

/-!
`self_healing_report.schema.json`: the contract of the record of a repair.
-/

namespace Ulpf.Contracts

open Ulpf.Lib
open Ulpf.Python

namespace RepairReport

/-- `^[0-9]+\.[0-9]+\.[0-9]+$` -/
def version : Contract PyNum := .string (Schema.matchesPattern versionPattern)

def dateTime : Contract PyNum := .string isDateTime

def unitInterval : Contract PyNum := .number (isBetween 0 1)

/-- What set the repair off. -/
def trigger : Contract PyNum :=
  .object ["drift_state", "detected_at", "summary"]
    [("drift_state", .oneOf ["DRIFTED", "SUSPECTED", "MANUAL_TRIGGER"]),
     ("detected_at", dateTime), ("summary", .text)] false

def activeParser : Contract PyNum :=
  .object ["id", "version"] [("id", .nonempty), ("version", version)] false

def candidateParser : Contract PyNum :=
  .object ["id", "version", "spec_hash"]
    [("id", .nonempty), ("version", version), ("spec_hash", .nonempty)] false

def schemaValidation : Contract PyNum :=
  .object ["passed", "details"] [("passed", .boolean), ("details", .text)] false

def empiricalValidation : Contract PyNum :=
  .object ["passed", "extraction_accuracy", "semantic_accuracy", "dps", "raw_retention",
      "unknown_retention"]
    [("passed", .boolean), ("extraction_accuracy", unitInterval),
     ("semantic_accuracy", unitInterval), ("dps", unitInterval), ("raw_retention", unitInterval),
     ("unknown_retention", unitInterval)] false

def shadowEvaluation : Contract PyNum :=
  .object ["passed", "shadow_state", "field_match_rate", "dps_delta",
      "downstream_isolation_verified"]
    [("passed", .boolean), ("shadow_state", .oneOf ["PASSED", "FAILED", "SUSPECTED"]),
     ("field_match_rate", unitInterval), ("dps_delta", .number (isBetween (-1) 1)),
     ("downstream_isolation_verified", .boolean)] false

/-- The three gates a candidate has to pass. -/
def gates : Contract PyNum :=
  .object ["schema_validation", "empirical_validation", "shadow_evaluation"]
    [("schema_validation", schemaValidation), ("empirical_validation", empiricalValidation),
     ("shadow_evaluation", shadowEvaluation)] false

/-- The mode of the promotion and the reasons against it. -/
def promotionPolicy : Contract PyNum :=
  .object ["mode", "refusal_conditions_checked", "refusal_reasons"]
    [("mode", .oneOf ["MANUAL_APPROVAL", "AUTOMATIC_CONDITIONAL"]),
     ("refusal_conditions_checked", .array 0 .text), ("refusal_reasons", .array 0 .text)] false

/-- The contract of a self-healing report. -/
def report : Contract PyNum :=
  .object ["schema_version", "source_id", "incident_id", "trigger", "active_parser",
      "candidate_parser", "gates", "promotion_policy", "decision", "decided_at", "applied_by"]
    [("schema_version", .string fun s => s = "1.0"), ("source_id", .nonempty),
     ("incident_id", .nonempty), ("trigger", trigger), ("active_parser", activeParser),
     ("candidate_parser", candidateParser), ("gates", gates),
     ("promotion_policy", promotionPolicy),
     ("decision", .oneOf ["PROMOTED", "REJECTED", "ESCALATED_FOR_APPROVAL"]),
     ("decided_at", dateTime), ("applied_by", .nonempty)] false

end RepairReport

end Ulpf.Contracts
