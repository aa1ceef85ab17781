import Ulpf.Drift.Semantic
import Ulpf.Lib.TotalVariation
import Ulpf.SourceProfiler.SourceProfile

/-!
`StructuralDriftDetector`: two profiles of a source are compared on parse failures, key
sets, field types and formats. The signals are the exact ratios, not their binary64
approximations.
-/

namespace Ulpf.Drift.Structural

open Ulpf.Lib
open Ulpf.Lib.Binary64 (fixed)
open Ulpf.Python
open Ulpf.SourceProfiler

/-- The order in which an interpreter enumerates a set of names. -/
structure SetOrder where
  enumerate : List String → List String
  perm : ∀ names, (enumerate names).Perm names

/-- `DriftThresholds`: what each signal may come to. -/
structure DriftThresholds where
  parseFailureRate : ℚ
  unknownFieldRatio : ℚ
  typeViolationRate : ℚ
  keySetDistance : ℚ
  distributionDivergence : ℚ

/-- `DriftThresholds()` -/
def DriftThresholds.defaults : DriftThresholds where
  parseFailureRate := 2 / 100
  unknownFieldRatio := 5 / 100
  typeViolationRate := 5 / 1000
  keySetDistance := 15 / 100
  distributionDivergence := 20 / 100

/-- The five signals of structural drift. -/
structure DriftSignals where
  parseFailureRate : ℚ
  unknownFieldRatio : ℚ
  typeViolationRate : ℚ
  keySetDistance : ℚ
  distributionDivergence : ℚ

/-- Which parser the profiles are of, and the run of the baseline. -/
structure Subject where
  sourceId : String
  parserId : String
  parserVersion : String
  baselineRunId : Option String

/-- The report of the structural detector, over any type of times. -/
structure DriftReport (Time : Type) where
  subject : Subject
  driftState : DriftState
  observedAt : Time
  startTime : Time
  endTime : Time
  sampleCount : ℕ
  signals : DriftSignals
  thresholds : DriftThresholds
  driftDetails : List String
  remediationRecommended : Bool

section Texts

/-- A number with a fixed number of decimals and its sign. -/
def decimals (places : ℕ) (x : ℚ) : String :=
  (if x < 0 then "-" else "") ++ String.ofList (fixed places x)

/-- `x:.2%` -/
def percentage (x : ℚ) : String := decimals 2 (100 * x) ++ "%"

/-- `sorted(list(names))[:5]`, printed. -/
def firstFive (u : Unicode) (names : List String) : String :=
  str u (.arr (((names.mergeSort fun a b => a ≤ b).take 5).map .str))

end Texts

section Distributions

/-- `sum(dist.values())` -/
def total (dist : Dict String ℚ) : ℚ := (dist.entries.map Prod.snd).sum

/-- The share of one format. -/
def share (dist : Dict String ℚ) (k : String) : ℚ :=
  ((dist.mapValues fun v => v / total dist).get? k).getD 0

/-- `set(p_a.keys()) | set(p_b.keys())` -/
def formats (distA distB : Dict String ℚ) : List String :=
  distA.keys ++ distB.keys.filter fun k => !distA.contains k

/-- `_calculate_distribution_divergence` -/
def calculateDistributionDivergence (order : SetOrder) (distA distB : Dict String ℚ) : ℚ :=
  if total distA = 0 ∨ total distB = 0 then 0
  else
    let tvd := 1 / 2 *
      ((order.enumerate (formats distA distB)).map fun k => |share distA k - share distB k|).sum
    min 1 (max 0 tvd)

end Distributions

/-- `profile.corrupted_records / max(1, profile.total_records)` -/
def failureRate (profile : SourceProfile) : ℚ :=
  profile.corruptedRecords / (max 1 profile.totalRecords : ℕ)

section Detector

variable (u : Unicode) (order : SetOrder) (thresholds : DriftThresholds)
  (baseline current : SourceProfile)

/-- `base_keys & curr_keys` -/
def interKeys : List String :=
  baseline.fields.keys.filter fun k => current.fields.contains k

/-- `curr_keys - base_keys` -/
def newKeys : List String := current.fields.keys.filter fun k => !baseline.fields.contains k

/-- `base_keys - curr_keys` -/
def removedKeys : List String := baseline.fields.keys.filter fun k => !current.fields.contains k

/-- `base_keys | curr_keys` -/
def unionKeys : List String := baseline.fields.keys ++ newKeys baseline current

/-- The types of a field that has mutated. -/
def mutation (k : String) : Option (String × String) := do
  let baseType := (← baseline.fields.get? k).inferredType
  let currType := (← current.fields.get? k).inferredType
  if baseType ≠ currType ∧ baseType ≠ "null" ∧ currType ≠ "null" then some (baseType, currType)
  else none

/-- The fields that both profiles have, but with other types. -/
def typeMutationDetails : List String :=
  (order.enumerate (interKeys baseline current)).filterMap fun k =>
    (mutation baseline current k).map fun (baseType, currType) =>
      "field '" ++ k ++ "' mutated from " ++ baseType ++ " to " ++ currType

/-- `metadata.get("format_distribution", {})` -/
def formatDistribution (profile : SourceProfile) : Dict String ℚ :=
  profile.metadata.formatDistribution.getD Dict.empty

/-- The signals between two profiles. -/
def driftSignals : DriftSignals where
  parseFailureRate := failureRate current
  unknownFieldRatio :=
    if current.fields.keys.isEmpty then 0
    else (newKeys baseline current).length / current.fields.keys.length
  typeViolationRate :=
    if (interKeys baseline current).isEmpty then 0
    else (typeMutationDetails order baseline current).length / (interKeys baseline current).length
  keySetDistance :=
    if (unionKeys baseline current).isEmpty then 0
    else 1 - (interKeys baseline current).length / (unionKeys baseline current).length
  distributionDivergence :=
    calculateDistributionDivergence order (formatDistribution baseline)
      (formatDistribution current)

/-- What the report says about the signals that exceed their thresholds. -/
def driftDetails (signals : DriftSignals) : List String :=
  (if thresholds.parseFailureRate < signals.parseFailureRate then
    ["Parse failure rate " ++ percentage signals.parseFailureRate ++ " exceeds threshold " ++
      percentage thresholds.parseFailureRate]
  else []) ++
  (if thresholds.keySetDistance < signals.keySetDistance then
    ["Key-set structural distance " ++ decimals 3 signals.keySetDistance ++
      " exceeds threshold " ++ decimals 3 thresholds.keySetDistance ++ " (new fields: " ++
      firstFive u (newKeys baseline current) ++ ", removed fields: " ++
      firstFive u (removedKeys baseline current) ++ ")"]
  else []) ++
  (if thresholds.unknownFieldRatio < signals.unknownFieldRatio then
    ["Unknown field ratio " ++ percentage signals.unknownFieldRatio ++ " exceeds threshold " ++
      percentage thresholds.unknownFieldRatio]
  else []) ++
  (if thresholds.typeViolationRate < signals.typeViolationRate then
    ["Type violation rate " ++ percentage signals.typeViolationRate ++ " exceeds threshold " ++
      percentage thresholds.typeViolationRate ++ ": " ++
      "; ".intercalate ((typeMutationDetails order baseline current).take 5)]
  else []) ++
  (if thresholds.distributionDivergence < signals.distributionDivergence then
    ["Format distribution divergence " ++ decimals 3 signals.distributionDivergence ++
      " exceeds threshold " ++ decimals 3 thresholds.distributionDivergence]
  else [])

/-- `compare_profiles` -/
def compareProfiles {Time : Type} (subject : Subject) (now : Time) : DriftReport Time :=
  let signals := driftSignals order baseline current
  let details := driftDetails u order thresholds baseline current signals
  let isDrifted : Bool :=
    thresholds.typeViolationRate < signals.typeViolationRate ∨
      thresholds.parseFailureRate < signals.parseFailureRate ∨
      thresholds.keySetDistance < signals.keySetDistance
  let isSuspected : Bool :=
    thresholds.unknownFieldRatio < signals.unknownFieldRatio ∨
      thresholds.distributionDivergence < signals.distributionDivergence
  let driftState : DriftState :=
    if isDrifted then .drifted else if isSuspected then .suspected else .stable
  { subject := subject
    driftState := driftState
    observedAt := now
    startTime := now
    endTime := now
    sampleCount := current.totalRecords
    signals := signals
    thresholds := thresholds
    driftDetails :=
      if driftState = .stable ∧ details = [] then
        ["All observed metrics within configured baseline stability bounds"]
      else details
    remediationRecommended := driftState ≠ .stable }

end Detector

end Ulpf.Drift.Structural
