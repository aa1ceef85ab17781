import Ulpf.Lib.Binary64
import Ulpf.Shadow.Event

/-!
`ShadowComparator`: the metrics that compare the outputs of the active and the
candidate parser, and the verdict they add up to. Floats are the binary64
values Python computes, as exact rationals.
-/

namespace Ulpf.Shadow

open Ulpf.Lib
open Ulpf.Lib.Binary64 (fl roundTo)
open Ulpf.Python

inductive ShadowState where
  | passed
  | failed
  | suspected
  deriving DecidableEq

inductive ShadowRecommendation where
  | readyForPromotion
  | reject
  | requireHumanReview
  deriving DecidableEq

/-- `ShadowState.value` -/
def ShadowState.value : ShadowState → String
  | passed => "PASSED"
  | failed => "FAILED"
  | suspected => "SUSPECTED"

/-- `ShadowMetrics`: the scores of a comparison. -/
structure ShadowMetrics where
  fieldMatchRate : ℚ
  criticalSemanticDivergence : ℚ
  unknownFieldRetention : ℚ
  activeDps : ℚ
  candidateDps : ℚ
  dpsDelta : ℚ
  activeLatencyP95Ms : ℚ
  candidateLatencyP95Ms : ℚ
  latencyDeltaPct : ℚ
  deriving DecidableEq

/-- The assessment, without its explanations, identifiers and times. -/
structure ShadowComparisonReport where
  shadowState : ShadowState
  sampleCount : ℕ
  metrics : ShadowMetrics
  downstreamIsolationVerified : Bool
  recommendation : ShadowRecommendation
  deriving DecidableEq

/-- `CRITICAL_SECURITY_FIELDS` -/
def criticalSecurityFields : List String :=
  ["src.ip", "dst.ip", "src.port", "dst.port", "event.action", "event.outcome", "user.name"]

def ratio (m n : ℕ) : ℚ := fl (m / n)

@[simp] theorem ratio_self {n : ℕ} (h : n ≠ 0) : ratio n n = 1 := by
  have hcast : (n : ℚ) ≠ 0 := by exact_mod_cast h
  rw [ratio, div_self hcast, Binary64.fl_one]

@[simp] theorem ratio_zero (n : ℕ) : ratio 0 n = 0 := by simp [ratio]

/-- The flat views of two lists of events, index by index up to the shorter one. -/
def flatPairs (active candidate : List Event) :
    Except PyError (List (Dict String PyVal × Dict String PyVal)) :=
  (active.zip candidate).mapM fun (a, c) => do
    let act ← flattenEvent a
    let cand ← flattenEvent c
    return (act, cand)

/-- Keys of the active view whose value the candidate view repeats. -/
def matchedKeys (act cand : Dict String PyVal) : ℕ :=
  act.entries.countP fun (k, v) =>
    match cand.get? k with
    | some w => PyVal.eq v w
    | none => false

/-- `_evaluate_field_congruence` -/
def evaluateFieldCongruence (active candidate : List Event) : Except PyError ℚ :=
  if active.isEmpty ∨ candidate.isEmpty then .ok 1
  else do
    let flats ← flatPairs active candidate
    let total := (flats.map fun p => p.1.entries.length).sum
    let matched := (flats.map fun p => matchedKeys p.1 p.2).sum
    return roundTo 4 (if 0 < total then ratio matched total else 1)

/-- `flat.get(k)`, where an absent key reads as `None`. -/
def flatGet (flat : Dict String PyVal) (k : String) : PyVal := (flat.get? k).getD .null

/-- A critical field that the active event has is lost, or has another value. -/
def criticalDiverged (u : Unicode) (act cand : Dict String PyVal) (field : String) : Bool :=
  match flatGet act field, flatGet cand field with
  | .null, _ => false
  | _, .null => true
  | .str a, .str c =>
      if field = "event.action" ∨ field = "event.outcome" then
        lower u (strip a) ≠ lower u (strip c)
      else a ≠ c
  | a, c => !PyVal.eq a c

/-- Some critical field of a pair diverges. -/
def eventDiverged (u : Unicode) (act cand : Dict String PyVal) : Bool :=
  criticalSecurityFields.any (criticalDiverged u act cand)

/-- `_evaluate_critical_semantics` -/
def evaluateCriticalSemantics (u : Unicode) (active candidate : List Event) :
    Except PyError ℚ :=
  if active.isEmpty ∨ candidate.isEmpty then .ok 0
  else do
    let flats ← flatPairs active candidate
    return roundTo 4 (ratio (flats.countP fun p => eventDiverged u p.1 p.2) flats.length)

/-- Whether the candidate event still holds an unknown field of the active one:
under its key, whatever the value, or as the value of any mapped field. -/
def unknownRetained (candUnknown : Option (List (PyVal × PyVal)))
    (candFlat : Dict String PyVal) (field : PyVal × PyVal) : Bool :=
  ((candUnknown.getD []).any fun entry => PyVal.eq entry.1 field.1) ||
    candFlat.entries.any fun entry => PyVal.eq entry.2 field.2

/-- Unknown fields of one active event, and how many of them are retained. -/
def retentionCounts (active candidate : Event) : Except PyError (ℕ × ℕ) := do
  let candFlat ← flattenEvent candidate
  let unknown := active.unknowns?.getD []
  return (unknown.length, unknown.countP (unknownRetained candidate.unknowns? candFlat))

/-- `_evaluate_unknown_retention` -/
def evaluateUnknownRetention (active candidate : List Event) : Except PyError ℚ :=
  if active.isEmpty ∨ candidate.isEmpty then .ok 1
  else do
    let counts ← (active.zip candidate).mapM fun (a, c) => retentionCounts a c
    let total := (counts.map Prod.fst).sum
    let retained := (counts.map Prod.snd).sum
    return if total = 0 then 1 else roundTo 4 (ratio retained total)

/-- A member of a nested object of the event, `None` when there is none. -/
def nested (ev : Event) (k sub : String) : PyVal := ((ev.get k).member? sub).getD .null

/-- `event.action` of an event in lower case, nested or dotted. -/
def actionText (u : Unicode) (ev : Event) : String :=
  lower u (str u (PyVal.orElse (nested ev "event" "action")
    (PyVal.orElse (ev.get "event.action") (.str ""))))

/-- `event.outcome` of an event in lower case, nested or dotted. -/
def outcomeText (u : Unicode) (ev : Event) : String :=
  lower u (str u (PyVal.orElse (nested ev "event" "outcome")
    (PyVal.orElse (ev.get "event.outcome") (.str ""))))

/-- An event has an address on a side. -/
def hasAddress (ev : Event) (side : String) : Bool :=
  PyVal.truthy (PyVal.orElse (ev.get (side ++ ".ip")) (nested ev side "ip"))

/-- `is_security_event` of the DPS computation. -/
def isSecurityEvent (u : Unicode) (ev : Event) : Bool :=
  let action := actionText u ev
  Text.contains action "deny" || Text.contains action "block" || Text.contains action "drop" ||
    Text.contains (outcomeText u ev) "denied"

/-- A security event with the address of either side. -/
def isPreserved (u : Unicode) (ev : Event) : Bool :=
  isSecurityEvent u ev && (hasAddress ev "src" || hasAddress ev "dst")

/-- `calc_dps` -/
def calcDps (u : Unicode) (events : List Event) : ℚ :=
  let expected := events.countP (isSecurityEvent u)
  if 0 < expected then ratio (events.countP (isPreserved u)) expected else 1

/-- `_evaluate_dps_comparison`: both scores and their difference. -/
def evaluateDpsComparison (u : Unicode) (active candidate : List Event) : ℚ × ℚ × ℚ :=
  let activeDps := roundTo 4 (calcDps u active)
  let candidateDps := roundTo 4 (calcDps u candidate)
  (activeDps, candidateDps, roundTo 4 (fl (candidateDps - activeDps)))

/-- 95th percentile of a list of latencies. -/
def p95 (latencies : List ℚ) : ℚ :=
  let sorted := latencies.mergeSort (· ≤ ·)
  let idx := ⌊fl (sorted.length * fl (95 / 100))⌋.toNat
  sorted.getD (min idx (sorted.length - 1)) 0

/-- `_evaluate_latencies` -/
def evaluateLatencies (active candidate : List ℚ) : ℚ × ℚ × ℚ :=
  let act := p95 active
  let cand := p95 candidate
  let delta := if 0 < act then fl (fl (fl (cand - act) / act) * 100) else 0
  (roundTo 4 act, roundTo 4 cand, roundTo 2 delta)

theorem evaluateLatencies_same (latencies : List ℚ) : evaluateLatencies latencies latencies =
    (roundTo 4 (p95 latencies), roundTo 4 (p95 latencies), 0) := by
  simp [evaluateLatencies]

/-- The conditions under which `compare` reports a failure. -/
def failureFlags (isolation : Bool) (m : ShadowMetrics) : Bool :=
  !isolation || m.dpsDelta < 0 || 0 < m.criticalSemanticDivergence ||
    m.unknownFieldRetention < 1 || m.fieldMatchRate < fl (90 / 100)

/-- The conditions under which `compare` asks for a review. -/
def suspectedFlags (m : ShadowMetrics) : Bool :=
  m.fieldMatchRate < fl (98 / 100) ||
    (50 < m.latencyDeltaPct && 1 < fl (m.candidateLatencyP95Ms - m.activeLatencyP95Ms))

/-- The state of a comparison, and what it recommends. -/
def verdict (isolation : Bool) (m : ShadowMetrics) : ShadowState × ShadowRecommendation :=
  if failureFlags isolation m then (.failed, .reject)
  else if suspectedFlags m then (.suspected, .requireHumanReview)
  else (.passed, .readyForPromotion)

/-- The latencies given, or one millisecond when there are none. -/
def latenciesOr (latencies : List ℚ) : List ℚ := if latencies.isEmpty then [1] else latencies

/-- `compare` -/
def compare (u : Unicode) (active candidate : List Event)
    (activeLatenciesMs candidateLatenciesMs : List ℚ) (isolation : Bool) :
    Except PyError ShadowComparisonReport := do
  let fieldMatchRate ← evaluateFieldCongruence active candidate
  let critDivergence ← evaluateCriticalSemantics u active candidate
  let unknownRetention ← evaluateUnknownRetention active candidate
  let (activeDps, candidateDps, dpsDelta) := evaluateDpsComparison u active candidate
  let (activeP95, candidateP95, latDeltaPct) :=
    evaluateLatencies (latenciesOr activeLatenciesMs) (latenciesOr candidateLatenciesMs)
  let metrics : ShadowMetrics :=
    { fieldMatchRate := fieldMatchRate
      criticalSemanticDivergence := critDivergence
      unknownFieldRetention := unknownRetention
      activeDps := activeDps
      candidateDps := candidateDps
      dpsDelta := dpsDelta
      activeLatencyP95Ms := activeP95
      candidateLatencyP95Ms := candidateP95
      latencyDeltaPct := latDeltaPct }
  let (shadowState, recommendation) := verdict isolation metrics
  return ⟨shadowState, max active.length candidate.length, metrics, isolation, recommendation⟩

end Ulpf.Shadow
