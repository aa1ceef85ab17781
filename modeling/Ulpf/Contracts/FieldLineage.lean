import Mathlib.Algebra.Order.Field.Rat
import Ulpf.Contracts.ParserSpec
import Ulpf.Lib.Contract

/-!
`field_lineage.schema.json`: the contract of a lineage record.
-/

namespace Ulpf.Contracts

open Ulpf.Lib

/-- Where in the raw event a value was found. -/
def rawLocatorContract : Contract ℚ :=
  .object ["type", "value"]
    [("type", .oneOf ["key", "json_pointer", "offset", "regex_group"]), ("value", .nonempty)] false

/-- The contract of a lineage record. -/
def fieldLineageContract : Contract ℚ :=
  .object ["normalized_path", "raw_locator", "extractor", "transformations", "mapping_score",
      "mapping_evidence", "review_status"]
    [("normalized_path", .string (Schema.matchesPattern mapToPattern)),
      ("raw_locator", rawLocatorContract),
      ("extractor", .oneOf ["key_value", "json_pointer", "regex_capture", "cef_parse", "leef_parse",
        "syslog_parse", "kv", "csv_parse", "csv"]),
      ("transformations", .array 0 (.oneOf ["trim", "lowercase", "uppercase", "integer", "float",
        "boolean", "ip", "timestamp", "enum_map", "split", "join", "substring"])),
      ("mapping_score", .number fun score => 0 ≤ score && score ≤ 1),
      ("mapping_evidence", .array 1 (.oneOf ["alias_match", "type_match", "event_family_context",
        "schema_description_similarity", "value_profile"])),
      ("review_status", .oneOf ["AUTO_ACCEPTED", "HUMAN_APPROVED", "ABSTAINED", "REJECTED"])] false

end Ulpf.Contracts
