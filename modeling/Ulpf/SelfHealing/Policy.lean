import Ulpf.Lib.Binary64
import Mathlib.Tactic.SplitIfs

/-!
`PromotionPolicy`: the five refusal conditions over the results of the gates,
and the decision under a promotion mode.
-/

namespace Ulpf.SelfHealing

open Ulpf.Lib

inductive PromotionMode where
  | manualApproval
  | automaticConditional
  deriving DecidableEq

inductive PromotionDecision where
  | promoted
  | rejected
  | escalatedForApproval
  deriving DecidableEq

/-- `GateResults`: what the gates have found. -/
structure GateResults where
  schemaPassed : Bool
  schemaDetails : String
  validationPassed : Bool
  extractionAccuracy : ℚ
  semanticAccuracy : ℚ
  dps : ℚ
  rawRetention : ℚ
  unknownRetention : ℚ
  shadowPassed : Bool
  shadowState : String
  fieldMatchRate : ℚ
  dpsDelta : ℚ
  downstreamIsolationVerified : Bool
  deriving DecidableEq

/-- `MANDATORY_REFUSAL_CHECKS` -/
def mandatoryRefusalChecks : List String :=
  ["REFUSAL_1_SCHEMA_INVALID", "REFUSAL_2_VALIDATION_INCOMPLETE",
    "REFUSAL_3_DETECTION_TESTS_FAILED", "REFUSAL_4_RETENTION_BELOW_100",
    "REFUSAL_5_SHADOW_UNPASSED_OR_LEAKED"]

/-- `f"{x:.2%}"` -/
def percent (x : ℚ) : String :=
  let scaled := Binary64.fl (x * 100)
  (if scaled < 0 then "-" else "") ++ String.ofList (Binary64.fixed 2 scaled) ++ "%"

/-- `f"{x:+.2%}"` -/
def signedPercent (x : ℚ) : String := (if x < 0 then "" else "+") ++ percent x

/-- `f"{b}"` -/
def boolText (b : Bool) : String := if b then "True" else "False"

/-- The constant `0.90`. -/
def threshold : ℚ := Binary64.fl (90 / 100)

namespace GateResults

variable (gates : GateResults)

/-- Refusal 1: the schema of the candidate is invalid. -/
def refusal1 : Option String :=
  if !gates.schemaPassed then
    some ("Refusal condition 1 met: candidate parser schema is invalid (" ++
      gates.schemaDetails ++ ")")
  else none

/-- Refusal 2: the empirical validation failed or is incomplete. -/
def refusal2 : Option String :=
  if !gates.validationPassed ∨ gates.extractionAccuracy < threshold ∨
      gates.semanticAccuracy < threshold then
    some ("Refusal condition 2 met: empirical validation failed or incomplete (passed=" ++
      boolText gates.validationPassed ++ ", extraction_acc=" ++
      percent gates.extractionAccuracy ++ ", semantic_acc=" ++
      percent gates.semanticAccuracy ++ ")")
  else none

/-- Refusal 3: a mandatory detection test failed. -/
def refusal3 : Option String :=
  if gates.dps < 1 ∨ gates.dpsDelta < 0 then
    some ("Refusal condition 3 met: mandatory detection preservation failed (candidate DPS=" ++
      percent gates.dps ++ ", DPS delta=" ++ signedPercent gates.dpsDelta ++ ")")
  else none

/-- Refusal 4: raw or unknown fields are not all retained. -/
def refusal4 : Option String :=
  if gates.rawRetention < 1 ∨ gates.unknownRetention < 1 then
    some ("Refusal condition 4 met: retention below 100% (raw_retention=" ++
      percent gates.rawRetention ++ ", unknown_retention=" ++
      percent gates.unknownRetention ++ ")")
  else none

/-- Refusal 5: the shadow run did not pass or its isolation is unverified. -/
def refusal5 : Option String :=
  if !gates.shadowPassed ∨ gates.shadowState ≠ "PASSED" ∨
      !gates.downstreamIsolationVerified then
    some ("Refusal condition 5 met: shadow state unpassed or isolation unverified " ++
      "(shadow_passed=" ++ boolText gates.shadowPassed ++ ", shadow_state='" ++
      gates.shadowState ++ "', downstream_isolation=" ++
      boolText gates.downstreamIsolationVerified ++ ")")
  else none

/-- The reasons to refuse a promotion, in the order of the checks. -/
def refusalReasons : List String :=
  [gates.refusal1, gates.refusal2, gates.refusal3, gates.refusal4, gates.refusal5].filterMap id

end GateResults

/-- `PromotionPolicy` -/
structure PromotionPolicy where
  defaultMode : PromotionMode
  deriving DecidableEq

namespace PromotionPolicy

def default : PromotionPolicy := ⟨.manualApproval⟩

/-- `evaluate`: the decision, the reasons to refuse and the conditions checked. -/
def evaluate (policy : PromotionPolicy) (gates : GateResults) (mode : Option PromotionMode) :
    PromotionDecision × List String × List String :=
  let evalMode := mode.getD policy.defaultMode
  let reasons := gates.refusalReasons
  let decision :=
    if reasons ≠ [] then PromotionDecision.rejected
    else if evalMode = .automaticConditional then .promoted
    else .escalatedForApproval
  (decision, reasons, mandatoryRefusalChecks)

end PromotionPolicy

/-- The refusal conditions as the policy describes them, apart from its texts. -/
inductive RefusalCondition where
  | schemaInvalid
  | validationIncomplete
  | detectionTestsFailed
  | retentionBelow100
  | shadowUnpassedOrLeaked
  deriving DecidableEq

/-- When a refusal condition holds of the results of the gates. -/
def RefusalCondition.Holds (gates : GateResults) : RefusalCondition → Prop
  | schemaInvalid => gates.schemaPassed = false
  | validationIncomplete =>
      gates.validationPassed = false ∨ gates.extractionAccuracy < threshold ∨
        gates.semanticAccuracy < threshold
  | detectionTestsFailed => gates.dps < 1 ∨ gates.dpsDelta < 0
  | retentionBelow100 => gates.rawRetention < 1 ∨ gates.unknownRetention < 1
  | shadowUnpassedOrLeaked =>
      gates.shadowPassed = false ∨ gates.shadowState ≠ "PASSED" ∨
        gates.downstreamIsolationVerified = false

/-- No refusal condition holds. -/
def Clear (gates : GateResults) : Prop := ∀ c : RefusalCondition, ¬ c.Holds gates

theorem refusalReasons_eq_nil_iff (gates : GateResults) :
    gates.refusalReasons = [] ↔ Clear gates := by
  have hreasons : gates.refusalReasons = [] ↔ gates.refusal1 = none ∧ gates.refusal2 = none ∧
      gates.refusal3 = none ∧ gates.refusal4 = none ∧ gates.refusal5 = none := by
    simp [GateResults.refusalReasons, List.filterMap_eq_nil_iff]
  rw [hreasons]
  simp only [GateResults.refusal1, GateResults.refusal2, GateResults.refusal3,
    GateResults.refusal4, GateResults.refusal5, ite_eq_right_iff, reduceCtorEq, imp_false,
    Bool.not_eq_true', ne_eq]
  constructor
  · rintro ⟨h1, h2, h3, h4, h5⟩ c
    cases c with
    | schemaInvalid => exact h1
    | validationIncomplete => exact h2
    | detectionTestsFailed => exact h3
    | retentionBelow100 => exact h4
    | shadowUnpassedOrLeaked => exact h5
  · intro hclear
    exact ⟨hclear .schemaInvalid, hclear .validationIncomplete, hclear .detectionTestsFailed,
      hclear .retentionBelow100, hclear .shadowUnpassedOrLeaked⟩

namespace PromotionPolicy

variable (policy : PromotionPolicy) (gates : GateResults) (mode : Option PromotionMode)

theorem evaluate_promoted_iff :
    (policy.evaluate gates mode).1 = .promoted ↔
      Clear gates ∧ mode.getD policy.defaultMode = .automaticConditional := by
  rw [← refusalReasons_eq_nil_iff]
  simp only [evaluate]
  split_ifs with hreasons hmode
  · simp [hreasons]
  · simp_all
  · simp [hmode]

theorem evaluate_escalated_iff :
    (policy.evaluate gates mode).1 = .escalatedForApproval ↔
      Clear gates ∧ mode.getD policy.defaultMode = .manualApproval := by
  rw [← refusalReasons_eq_nil_iff]
  simp only [evaluate]
  split_ifs with hreasons hmode
  · simp [hreasons]
  · simp [hmode]
  · cases hm : mode.getD policy.defaultMode <;> simp_all

theorem evaluate_rejected_iff :
    (policy.evaluate gates mode).1 = .rejected ↔ ∃ c : RefusalCondition, c.Holds gates := by
  have hclear : (∃ c : RefusalCondition, c.Holds gates) ↔ ¬ Clear gates := by
    simp [Clear]
  rw [hclear, ← refusalReasons_eq_nil_iff]
  simp only [evaluate]
  split_ifs with hreasons hmode <;> simp_all

theorem evaluate_reasons_eq_nil_iff :
    (policy.evaluate gates mode).2.1 = [] ↔ (policy.evaluate gates mode).1 ≠ .rejected := by
  simp only [evaluate]
  split_ifs <;> simp_all

end PromotionPolicy

end Ulpf.SelfHealing
