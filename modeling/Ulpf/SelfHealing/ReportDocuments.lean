import Ulpf.Contracts.SelfHealingReport
import Ulpf.Python.IsoText
import Ulpf.SelfHealing.FailClosed
import Ulpf.Shadow.Scorecard

/-!
`SelfHealingReport.to_dict`, and when what it writes satisfies the contract of repair reports.
-/

namespace Ulpf.SelfHealing

open Ulpf.Lib
open Ulpf.Lib.Binary64 (fl roundTo)
open Ulpf.Python
open Ulpf.Python.IsoFormat (isoformat Showable)
open Ulpf.Contracts (versionPattern)
open Ulpf.Deployment (SpecDeploymentEngine)
open Ulpf.Shadow

/-- `PromotionMode.value` -/
def PromotionMode.value : PromotionMode → String
  | manualApproval => "MANUAL_APPROVAL"
  | automaticConditional => "AUTOMATIC_CONDITIONAL"

/-- `PromotionDecision.value` -/
def PromotionDecision.value : PromotionDecision → String
  | promoted => "PROMOTED"
  | rejected => "REJECTED"
  | escalatedForApproval => "ESCALATED_FOR_APPROVAL"

/-- `iso_ts` of a time in microseconds since the epoch; a time that is out of range in UTC is an
`OverflowError`. -/
def isoTs (t : Instant) : Except PyError String :=
  if Showable t then .ok (Text.replaceAll (isoformat t) "+00:00" "Z")
  else .error .overflowError

/-- `round(x, 4)` -/
def rounded (x : ℚ) : PyVal := .float (.finite (roundTo 4 x < 0) |roundTo 4 x|)

namespace SelfHealingReport

variable (r : SelfHealingReport)

def activeParser : PyVal := .obj [("id", r.activeParserId), ("version", r.activeParserVersion)]

def candidateParser : PyVal :=
  .obj [("id", r.candidateParserId), ("version", r.candidateParserVersion),
    ("spec_hash", .str r.candidateSpecHash)]

def schemaValidation : PyVal :=
  .obj [("passed", .bool r.schemaPassed), ("details", .str r.schemaDetails)]

def empiricalValidation : PyVal :=
  .obj [("passed", .bool r.validationPassed), ("extraction_accuracy", rounded r.extractionAccuracy),
    ("semantic_accuracy", rounded r.semanticAccuracy), ("dps", rounded r.dps),
    ("raw_retention", rounded r.rawRetention), ("unknown_retention", rounded r.unknownRetention)]

def shadowEvaluation : PyVal :=
  .obj [("passed", .bool r.shadowPassed), ("shadow_state", .str r.shadowState),
    ("field_match_rate", rounded r.fieldMatchRate), ("dps_delta", rounded r.dpsDelta),
    ("downstream_isolation_verified", .bool r.downstreamIsolationVerified)]

def gatesDict : PyVal :=
  .obj [("schema_validation", r.schemaValidation), ("empirical_validation", r.empiricalValidation),
    ("shadow_evaluation", r.shadowEvaluation)]

def promotionPolicy : PyVal :=
  .obj [("mode", .str r.promotionMode.value),
    ("refusal_conditions_checked", .arr (r.refusalConditionsChecked.map .str)),
    ("refusal_reasons", .arr (r.refusalReasons.map .str))]

def trigger (detectedAt : String) : PyVal :=
  .obj [("drift_state", .str r.driftState), ("detected_at", .str detectedAt),
    ("summary", .str r.triggerSummary)]

/-- `to_dict` -/
def toDict : Except PyError PyVal := do
  let detectedAt ← isoTs r.detectedAt
  let decidedAt ← isoTs r.decidedAt
  return .obj [("schema_version", .str "1.0"), ("source_id", .str r.sourceId),
    ("incident_id", .str r.incidentId), ("trigger", r.trigger detectedAt),
    ("active_parser", r.activeParser), ("candidate_parser", r.candidateParser),
    ("gates", r.gatesDict), ("promotion_policy", r.promotionPolicy),
    ("decision", .str r.decision.value), ("decided_at", .str decidedAt),
    ("applied_by", .str r.appliedBy)]

end SelfHealingReport

section Ranges

variable {q : ℚ}

theorem roundTo_four_mem (h : q ∈ Set.Icc 0 1) : roundTo 4 q ∈ Set.Icc 0 1 :=
  Binary64.roundTo_mem_Icc (by norm_num) h

theorem toRat?_rounded (q : ℚ) :
    Binary64.toRat? (.finite (roundTo 4 q < 0) |roundTo 4 q|) = some (roundTo 4 q) := by
  rw [Binary64.toRat?]
  congr 1
  obtain hneg | hnonneg := lt_or_ge (roundTo 4 q) 0
  · rw [decide_eq_true hneg, if_pos rfl, abs_of_neg hneg, neg_neg]
  · rw [decide_eq_false hnonneg.not_gt, if_neg Bool.false_ne_true, abs_of_nonneg hnonneg]

end Ranges

section Parts

variable {r : SelfHealingReport}

def NonemptyText (v : PyVal) : Prop := ∃ s, v = .str s ∧ s ≠ ""

def VersionText (v : PyVal) : Prop :=
  ∃ s, v = .str s ∧ Schema.matchesPattern versionPattern s = true

theorem valid_nonemptyText_iff {v : PyVal} :
    Contract.nonempty.valid v = true ↔ NonemptyText v := by
  rw [Contract.nonempty, Contract.valid_string_iff]
  simp only [decide_eq_true_eq]
  rfl

theorem valid_versionText_iff {v : PyVal} :
    Contracts.RepairReport.version.valid v = true ↔ VersionText v :=
  Contract.valid_string_iff

theorem valid_activeParser_iff : Contracts.RepairReport.activeParser.valid r.activeParser = true ↔
    NonemptyText r.activeParserId ∧ VersionText r.activeParserVersion := by
  rw [Contracts.RepairReport.activeParser, SelfHealingReport.activeParser,
    Contract.valid_record_iff (by simp)]
  simp [valid_nonemptyText_iff, valid_versionText_iff]

theorem valid_candidateParser_iff :
    Contracts.RepairReport.candidateParser.valid r.candidateParser = true ↔
      NonemptyText r.candidateParserId ∧ VersionText r.candidateParserVersion ∧
        r.candidateSpecHash ≠ "" := by
  rw [Contracts.RepairReport.candidateParser, SelfHealingReport.candidateParser,
    Contract.valid_record_iff (by simp)]
  simp [valid_nonemptyText_iff, valid_versionText_iff, NonemptyText]

theorem valid_isBetween_iff {low high x : ℚ} :
    (Contract.number (Contracts.isBetween low high)).valid (rounded x) = true ↔
      roundTo 4 x ∈ Set.Icc low high := by
  rw [rounded]
  change Contract.valid _ (.num (PyNum.float _)) = true ↔ _
  rw [Contract.valid_number, Contracts.isBetween, toRat?_rounded]
  simp

/-- The numbers of a report are in the ranges of the contract. -/
structure InRange (r : SelfHealingReport) : Prop where
  extractionAccuracy : r.extractionAccuracy ∈ Set.Icc 0 1
  semanticAccuracy : r.semanticAccuracy ∈ Set.Icc 0 1
  dps : r.dps ∈ Set.Icc 0 1
  rawRetention : r.rawRetention ∈ Set.Icc 0 1
  unknownRetention : r.unknownRetention ∈ Set.Icc 0 1
  fieldMatchRate : r.fieldMatchRate ∈ Set.Icc 0 1
  dpsDelta : r.dpsDelta ∈ Set.Icc (-1) 1
  shadowState : r.shadowState ∈ ["PASSED", "FAILED", "SUSPECTED"]

theorem valid_gates (h : InRange r) : Contracts.RepairReport.gates.valid r.gatesDict = true := by
  have hschema : Contracts.RepairReport.schemaValidation.valid r.schemaValidation = true := by
    rw [Contracts.RepairReport.schemaValidation, SelfHealingReport.schemaValidation,
      Contract.valid_record_iff (by simp)]
    simp
  have hempirical :
      Contracts.RepairReport.empiricalValidation.valid r.empiricalValidation = true := by
    rw [Contracts.RepairReport.empiricalValidation, SelfHealingReport.empiricalValidation,
      Contract.valid_record_iff (by simp)]
    simp only [List.forall_mem_cons, Contract.validMember_cons, String.reduceEq, if_true, if_false,
      Contract.valid_boolean, Contracts.RepairReport.unitInterval, valid_isBetween_iff]
    exact ⟨trivial, roundTo_four_mem h.extractionAccuracy, roundTo_four_mem h.semanticAccuracy,
      roundTo_four_mem h.dps, roundTo_four_mem h.rawRetention, roundTo_four_mem h.unknownRetention,
      List.forall_mem_nil _⟩
  have hshadow : Contracts.RepairReport.shadowEvaluation.valid r.shadowEvaluation = true := by
    rw [Contracts.RepairReport.shadowEvaluation, SelfHealingReport.shadowEvaluation,
      Contract.valid_record_iff (by simp)]
    simp only [List.forall_mem_cons, Contract.validMember_cons, String.reduceEq, if_true, if_false,
      Contract.valid_boolean, Contract.valid_oneOf_iff, Contracts.RepairReport.unitInterval,
      valid_isBetween_iff]
    exact ⟨trivial, h.shadowState, roundTo_four_mem h.fieldMatchRate, roundTo_signed h.dpsDelta,
      trivial, List.forall_mem_nil _⟩
  rw [Contracts.RepairReport.gates, SelfHealingReport.gatesDict,
    Contract.valid_record_iff (by simp)]
  simp [hschema, hempirical, hshadow]

theorem valid_promotionPolicy :
    Contracts.RepairReport.promotionPolicy.valid r.promotionPolicy = true := by
  have hmode : r.promotionMode.value ∈ ["MANUAL_APPROVAL", "AUTOMATIC_CONDITIONAL"] := by
    cases r.promotionMode <;> simp [PromotionMode.value]
  rw [Contracts.RepairReport.promotionPolicy, SelfHealingReport.promotionPolicy,
    Contract.valid_record_iff (by simp)]
  simp only [List.forall_mem_cons, Contract.validMember_cons, String.reduceEq, if_true, if_false,
    Contract.valid_oneOf_iff, Contract.valid_array_iff, List.forall_mem_map, Contract.valid_text]
  exact ⟨hmode, ⟨Nat.zero_le _, fun _ _ => trivial⟩, ⟨Nat.zero_le _, fun _ _ => trivial⟩,
    List.forall_mem_nil _⟩

theorem valid_trigger_iff {detectedAt : String} (h : Contracts.isDateTime detectedAt = true) :
    Contracts.RepairReport.trigger.valid (r.trigger detectedAt) = true ↔
      r.driftState ∈ ["DRIFTED", "SUSPECTED", "MANUAL_TRIGGER"] := by
  rw [Contracts.RepairReport.trigger, SelfHealingReport.trigger,
    Contract.valid_record_iff (by simp)]
  simp only [List.forall_mem_cons, Contract.validMember_cons, String.reduceEq, if_true, if_false,
    Contract.valid_oneOf_iff, Contracts.RepairReport.dateTime, Contract.valid_string, h,
    Contract.valid_text]
  simp

end Parts

section Gates

variable {env : Environment} {call : RepairCall}

theorem runEmpiricalValidation_mem {spec : PyVal} {samples : List String} {validation : Validation}
    (h : runEmpiricalValidation spec samples = .ok validation) :
    validation.extractionAccuracy ∈ Set.Icc 0 1 ∧ validation.semanticAccuracy ∈ Set.Icc 0 1 ∧
      validation.dps ∈ Set.Icc 0 1 ∧ validation.rawRetention ∈ Set.Icc 0 1 ∧
      validation.unknownRetention ∈ Set.Icc 0 1 := by
  rw [runEmpiricalValidation] at h
  split at h
  · cases h
    simp
  · obtain ⟨fieldsSpec, -, h⟩ := bind_eq_ok_iff.mp h
    split at h
    · cases h
      simp
    · obtain ⟨defs, -, h⟩ := bind_eq_ok_iff.mp h
      obtain ⟨hasAction, -, h⟩ := bind_eq_ok_iff.mp h
      obtain ⟨hasEndpoints, -, h⟩ := bind_eq_ok_iff.mp h
      cases h
      cases hasAction <;> cases hasEndpoints <;> simp

theorem validationGate_mem {schemaPassed : Bool} {validation : Validation}
    (h : validationGate call schemaPassed = .ok validation) :
    validation.extractionAccuracy ∈ Set.Icc 0 1 ∧ validation.semanticAccuracy ∈ Set.Icc 0 1 ∧
      validation.dps ∈ Set.Icc 0 1 ∧ validation.rawRetention ∈ Set.Icc 0 1 ∧
      validation.unknownRetention ∈ Set.Icc 0 1 := by
  rw [validationGate] at h
  split at h
  · exact runEmpiricalValidation_mem h
  · cases h
    simp

theorem shadowGate_mem {schemaPassed : Bool} {shadow : ShadowGate}
    (h : shadowGate env call schemaPassed = .ok shadow) :
    shadow.fieldMatchRate ∈ Set.Icc 0 1 ∧ shadow.dpsDelta ∈ Set.Icc (-1) 1 ∧
      shadow.state ∈ ["PASSED", "FAILED", "SUSPECTED"] := by
  rw [shadowGate] at h
  split at h
  · obtain ⟨⟨report, bus⟩, hrun, h⟩ := bind_eq_ok_iff.mp h
    obtain ⟨-, -, -, acts, cands, -, -, hreport⟩ := executeDual_eq_ok_iff.mp hrun
    obtain ⟨hrate, hdelta⟩ := metrics_mem_Icc hreport
    cases h
    refine ⟨hrate, hdelta, ?_⟩
    cases report.shadowState <;> simp [ShadowState.value]
  · cases h
    simp

theorem inRange_buildReport {policy : PromotionPolicy} {found : Assessment}
    (h : evaluateGates env call = .ok found.gates) :
    InRange (buildReport env policy call found) := by
  rw [evaluateGates] at h
  obtain ⟨⟨schemaPassed, schemaDetails⟩, -, h⟩ := bind_eq_ok_iff.mp h
  obtain ⟨validation, hvalidation, h⟩ := bind_eq_ok_iff.mp h
  obtain ⟨shadow, hshadow, h⟩ := bind_eq_ok_iff.mp h
  have hgates := pure_eq_ok_iff.mp h
  obtain ⟨hextraction, hsemantic, hdps, hraw, hunknown⟩ := validationGate_mem hvalidation
  obtain ⟨hrate, hdelta, hstate⟩ := shadowGate_mem hshadow
  constructor
  all_goals rw [buildReport, ← hgates]; assumption

end Gates

section Calls

variable {r : SelfHealingReport}

/-- The `parser` entry of a spec names a parser as the contract of reports wants it. -/
structure NamesParser (spec : PyVal) : Prop where
  id : ∀ id, (parserInfo spec).member? "id" = some id → NonemptyText id
  version : ∀ version, (parserInfo spec).member? "version" = some version → VersionText version

/-- A call whose report can be written as its contract wants it. -/
structure Reportable (call : RepairCall) : Prop where
  sourceId : call.sourceId ≠ ""
  drifting : call.driftReport.driftState ≠ .stable
  observed : Showable call.driftReport.observedAt
  active : NamesParser call.activeSpec
  candidate : NamesParser call.candidateSpec

theorem namesParser_iff {spec : PyVal} {defaultId defaultVersion : String} (hid : defaultId ≠ "")
    (hversion : Schema.matchesPattern versionPattern defaultVersion = true) :
    NamesParser spec ↔ NonemptyText ((parserInfo spec).memberD "id" (.str defaultId)) ∧
      VersionText ((parserInfo spec).memberD "version" (.str defaultVersion)) := by
  have hid' : (∀ id, (parserInfo spec).member? "id" = some id → NonemptyText id) ↔
      NonemptyText ((parserInfo spec).memberD "id" (.str defaultId)) := by
    rw [Json.memberD]
    cases (parserInfo spec).member? "id" with
    | none => exact iff_of_true (by simp) ⟨_, rfl, hid⟩
    | some id => simp
  have hversion' : (∀ version, (parserInfo spec).member? "version" = some version →
      VersionText version) ↔
      VersionText ((parserInfo spec).memberD "version" (.str defaultVersion)) := by
    rw [Json.memberD]
    cases (parserInfo spec).member? "version" with
    | none => exact iff_of_true (by simp) ⟨_, rfl, hversion⟩
    | some version => simp
  rw [← hid', ← hversion']
  exact ⟨fun h => ⟨h.id, h.version⟩, fun h => ⟨h.1, h.2⟩⟩

/-- `to_dict` writes a document, and the contract of repair reports accepts it. -/
def MeetsContract (r : SelfHealingReport) : Prop :=
  ∃ doc, r.toDict = .ok doc ∧ Contracts.RepairReport.report.valid doc = true

theorem toDict_of_showable (hdetected : Showable r.detectedAt) (hdecided : Showable r.decidedAt) :
    ∃ detectedAt decidedAt, Contracts.isDateTime detectedAt = true ∧
      Contracts.isDateTime decidedAt = true ∧
      r.toDict = .ok (.obj [("schema_version", .str "1.0"), ("source_id", .str r.sourceId),
        ("incident_id", .str r.incidentId), ("trigger", r.trigger detectedAt),
        ("active_parser", r.activeParser), ("candidate_parser", r.candidateParser),
        ("gates", r.gatesDict), ("promotion_policy", r.promotionPolicy),
        ("decision", .str r.decision.value), ("decided_at", .str decidedAt),
        ("applied_by", .str r.appliedBy)]) := by
  refine ⟨_, _, IsoFormat.readable_isoformat hdetected, IsoFormat.readable_isoformat hdecided, ?_⟩
  rw [SelfHealingReport.toDict, isoTs, isoTs, if_pos hdetected, if_pos hdecided]
  rfl

theorem meetsContract_iff (hrange : InRange r) (hdecided : Showable r.decidedAt) :
    MeetsContract r ↔ Showable r.detectedAt ∧ r.sourceId ≠ "" ∧ r.incidentId ≠ "" ∧
      r.driftState ∈ ["DRIFTED", "SUSPECTED", "MANUAL_TRIGGER"] ∧
      (NonemptyText r.activeParserId ∧ VersionText r.activeParserVersion) ∧
      (NonemptyText r.candidateParserId ∧ VersionText r.candidateParserVersion ∧
        r.candidateSpecHash ≠ "") ∧ r.appliedBy ≠ "" := by
  have hdecision : r.decision.value ∈ ["PROMOTED", "REJECTED", "ESCALATED_FOR_APPROVAL"] := by
    cases r.decision <;> simp [PromotionDecision.value]
  by_cases hdetected : Showable r.detectedAt
  · obtain ⟨detectedAt, decidedAt, hdetectedAt, hdecidedAt, hdoc⟩ :=
      toDict_of_showable hdetected hdecided
    rw [MeetsContract, hdoc, ← valid_trigger_iff hdetectedAt, ← valid_activeParser_iff,
      ← valid_candidateParser_iff, and_iff_right hdetected]
    simp only [Except.ok.injEq, exists_eq_left']
    rw [Contracts.RepairReport.report, Contract.valid_record_iff (by simp)]
    simp [hdecision, hdecidedAt, valid_gates hrange, valid_promotionPolicy,
      Contracts.RepairReport.dateTime]
  · refine iff_of_false ?_ fun h => hdetected h.1
    rintro ⟨doc, hdoc, -⟩
    rw [SelfHealingReport.toDict, isoTs, if_neg hdetected] at hdoc
    cases hdoc

variable {env : Environment} {policy : PromotionPolicy} {engine : SpecDeploymentEngine}
  {call : RepairCall}

theorem mem_driftStates_iff {state : DriftState} :
    state.value ∈ ["DRIFTED", "SUSPECTED", "MANUAL_TRIGGER"] ↔ state ≠ .stable := by
  cases state <;> simp [DriftState.value]

theorem appliedBy_ne_empty (decision : PromotionDecision) : appliedBy decision ≠ "" := by
  cases decision <;> simp [appliedBy]

theorem specHash_ne_empty (env : Environment) (spec : PyVal) : specHash env spec ≠ "" := by
  simp [specHash]

theorem incidentOf_ne_empty (hincident : env.generatedIncident ≠ "") :
    incidentOf env call ≠ "" := by
  rw [incidentOf]
  cases call.incidentId with
  | none => exact hincident
  | some id =>
      dsimp only
      split
      · exact hincident
      · assumption

theorem meetsContract_buildReport_iff (hincident : env.generatedIncident ≠ "")
    (hclock : Showable env.decidedAt) {found : Assessment} (hassess : assess env call = .ok found) :
    MeetsContract (buildReport env policy call found) ↔ Reportable call := by
  obtain ⟨-, -, hgates, hactiveId, hactiveVer, hcandId, hcandVer⟩ := assess_eq_ok_iff.mp hassess
  have hactive : NamesParser call.activeSpec ↔
      NonemptyText found.activeId ∧ VersionText found.activeVer := by
    rw [hactiveId, hactiveVer]
    exact namesParser_iff (by simp) (by decide)
  have hcandidate : NamesParser call.candidateSpec ↔
      NonemptyText found.candId ∧ VersionText found.candVer := by
    rw [hcandId, hcandVer, candidateVersion]
    exact namesParser_iff (by simp) (by decide)
  rw [meetsContract_iff (inRange_buildReport hgates) hclock]
  constructor
  · rintro ⟨hobserved, hsource, -, hstate, hactiveText, ⟨hcandIdText, hcandVerText, -⟩, -⟩
    exact ⟨hsource, mem_driftStates_iff.mp hstate, hobserved, hactive.mpr hactiveText,
      hcandidate.mpr ⟨hcandIdText, hcandVerText⟩⟩
  · intro h
    obtain ⟨hcandIdText, hcandVerText⟩ := hcandidate.mp h.candidate
    exact ⟨h.observed, h.sourceId, incidentOf_ne_empty hincident,
      mem_driftStates_iff.mpr h.drifting, hactive.mp h.active,
      ⟨hcandIdText, hcandVerText, specHash_ne_empty _ _⟩, appliedBy_ne_empty _⟩

/-- The report of a repair satisfies its contract if and only if the drift is no stable state, the
source has a name and both specs name their parsers as the contract wants it. -/
theorem report_meetsContract_iff (hincident : env.generatedIncident ≠ "")
    (hclock : Showable env.decidedAt) {report : SelfHealingReport}
    {engine' : SpecDeploymentEngine}
    (h : handleRepair env policy engine call = (.ok report, engine')) :
    MeetsContract report ↔ Reportable call := by
  obtain ⟨found, hassess, rfl, -⟩ := handleRepair_ok h
  exact meetsContract_buildReport_iff hincident hclock hassess

theorem report_meetsContract_iff_firewall : ∃ report engine',
    handleRepair (stillEnvironment Unicode.ascii) PromotionPolicy.default
      SpecDeploymentEngine.init (firewallRepair (firewallSpec "1.1.0")) = (.ok report, engine') ∧
    (MeetsContract report ↔ Reportable (firewallRepair (firewallSpec "1.1.0"))) := by
  obtain ⟨report, hrepaired, -⟩ := exists_repaired (stillEnvironment Unicode.ascii)
    PromotionPolicy.default SpecDeploymentEngine.init (firewallRepair (firewallSpec "1.1.0"))
    .promoted (by decide +kernel)
  exact ⟨report, _, hrepaired, report_meetsContract_iff (by decide) (by decide) hrepaired⟩

/-- A repair of a source that is stable is reported all the same. -/
theorem not_report_meetsContract_stable :
    ¬ ∀ (env : Environment) (policy : PromotionPolicy) (engine : SpecDeploymentEngine)
      (call : RepairCall) (report : SelfHealingReport) (engine' : SpecDeploymentEngine),
      env.generatedIncident ≠ "" → Showable env.decidedAt →
      handleRepair env policy engine call = (.ok report, engine') → MeetsContract report := by
  intro hall
  let call : RepairCall :=
    { firewallRepair (firewallSpec "1.1.0") with driftReport := ⟨.stable, 0, []⟩ }
  obtain ⟨report, hrepaired, -⟩ := exists_repaired (stillEnvironment Unicode.ascii)
    PromotionPolicy.default SpecDeploymentEngine.init call .promoted (by decide +kernel)
  have hmeets := hall _ _ _ _ _ _ (by decide) (by decide) hrepaired
  obtain ⟨found, hassess, rfl, -⟩ := handleRepair_ok hrepaired
  have hreportable := (meetsContract_buildReport_iff (by decide) (by decide) hassess).mp hmeets
  exact hreportable.drifting rfl

end Calls

end Ulpf.SelfHealing
