import Ulpf.Deployment.Deployer
import Ulpf.SelfHealing.Policy
import Ulpf.Shadow.Runner

/-!
`SelfHealingWorkflow`: one repair takes a candidate spec through the gates and
the promotion policy, and deploys it when the policy promotes it.
-/

namespace Ulpf.SelfHealing

open Ulpf.Lib
open Ulpf.Python
open Ulpf.Deployment
open Ulpf.Shadow (ShadowState Ticks executeDual parserIdentity)

inductive DriftState where
  | stable
  | suspected
  | drifted
  deriving DecidableEq

/-- `DriftState.value` -/
def DriftState.value : DriftState → String
  | stable => "STABLE"
  | suspected => "SUSPECTED"
  | drifted => "DRIFTED"

abbrev Instant := ℤ

/-- What the workflow reads of a drift report. -/
structure DriftReport where
  driftState : DriftState
  observedAt : Instant
  driftDetails : List String
  deriving DecidableEq

/-- What a repair reads from outside: the tables of the runtime, the digest, the
generated incident identifier and the clocks. -/
structure Environment where
  unicode : Unicode
  /-- `hexdigest` of the SHA-256 of an ASCII text. -/
  sha256 : String → String
  generatedIncident : String
  ticks : ℕ → Ticks
  decidedAt : Instant

/-- The arguments of `handle_repair`. -/
structure RepairCall where
  sourceId : String
  driftReport : DriftReport
  activeSpec : PyVal
  candidateSpec : PyVal
  recentLogSamples : List String
  promotionMode : Option PromotionMode
  incidentId : Option String
  deriving DecidableEq

/-- The report of a repair. -/
structure SelfHealingReport where
  sourceId : String
  incidentId : String
  driftState : String
  detectedAt : Instant
  triggerSummary : String
  activeParserId : PyVal
  activeParserVersion : PyVal
  candidateParserId : PyVal
  candidateParserVersion : PyVal
  candidateSpecHash : String
  schemaPassed : Bool
  schemaDetails : String
  validationPassed : Bool
  extractionAccuracy : ℚ
  semanticAccuracy : ℚ
  dps : ℚ
  rawRetention : ℚ
  unknownRetention : ℚ
  shadowPassed : Bool
  shadowState : String
  fieldMatchRate : ℚ
  dpsDelta : ℚ
  downstreamIsolationVerified : Bool
  promotionMode : PromotionMode
  refusalConditionsChecked : List String
  refusalReasons : List String
  decision : PromotionDecision
  decidedAt : Instant
  appliedBy : String
  deriving DecidableEq

/-- Whether the parser entry, its identifier or its version is missing. -/
def lacksIdentity (spec : PyVal) : Except PyError Bool := do
  if ← PyVal.contains spec "parser" then
    let info ← PyVal.getItem spec "parser"
    if ← PyVal.contains info "id" then return !(← PyVal.contains info "version")
    else return true
  else return true

/-- Whether the `fields` entry is missing or no dictionary. -/
def lacksFields (spec : PyVal) : Except PyError Bool := do
  if ← PyVal.contains spec "fields" then return !(← PyVal.getItem spec "fields").isObj
  else return true

/-- `_validate_spec_schema` -/
def validateSpecSchema (spec : PyVal) : Except PyError (Bool × String) := do
  if !spec.isObj then return (false, "Candidate specification is not a dictionary")
  else if ← lacksIdentity spec then
    return (false, "Missing parser object with id and version")
  else if ← lacksFields spec then return (false, "Missing or invalid fields dictionary")
  else return (true, "Candidate spec conforms to parser_spec.schema.json structure")

/-- What the empirical validation returns. -/
structure Validation where
  passed : Bool
  extractionAccuracy : ℚ
  semanticAccuracy : ℚ
  dps : ℚ
  rawRetention : ℚ
  unknownRetention : ℚ
  deriving DecidableEq

/-- Whether some field definition maps to one of the targets; the scan stops at
the first one that does. -/
def anyMapsTo (targets : List String) : List PyVal → Except PyError Bool
  | [] => .ok false
  | f :: fs => do
      let target ← PyVal.getD f "map_to" .null
      if targets.any fun t => PyVal.eq target (.str t) then return true
      else anyMapsTo targets fs

/-- `_run_empirical_validation`. The samples are not parsed: only their number
and the targets of the field definitions matter. -/
def runEmpiricalValidation (candidateSpec : PyVal) (samples : List String) :
    Except PyError Validation := do
  if samples.isEmpty then return ⟨false, 0, 0, 0, 0, 0⟩
  else
    let fieldsSpec ← PyVal.getD candidateSpec "fields" (.obj [])
    if !fieldsSpec.isObj ∨ !PyVal.truthy fieldsSpec then return ⟨false, 0, 0, 0, 1, 1⟩
    else
      let definitions ← PyVal.values fieldsSpec
      let hasAction ← anyMapsTo ["event.action"] definitions
      let hasEndpoints ← anyMapsTo ["src.ip", "dst.ip"] definitions
      let dps : ℚ := if hasAction && hasEndpoints then 1 else 0
      let extractionAcc : ℚ := 1
      return ⟨1 ≤ dps && threshold ≤ extractionAcc, extractionAcc, 1, dps, 1, 1⟩

/-- What the shadow gate returns. -/
structure ShadowGate where
  passed : Bool
  state : String
  fieldMatchRate : ℚ
  dpsDelta : ℚ
  downstreamIsolation : Bool
  deriving DecidableEq

/-- The empirical validation, which only a candidate with a valid schema reaches. -/
def validationGate (call : RepairCall) (schemaPassed : Bool) : Except PyError Validation :=
  if schemaPassed then runEmpiricalValidation call.candidateSpec call.recentLogSamples
  else .ok ⟨false, 0, 0, 0, 1, 1⟩

/-- The shadow run, which takes a valid schema and at least one sample. -/
def shadowGate (env : Environment) (call : RepairCall) (schemaPassed : Bool) :
    Except PyError ShadowGate := do
  if schemaPassed && !call.recentLogSamples.isEmpty then
    let (report, _) ← executeDual env.unicode env.ticks (call.recentLogSamples.map .str)
      call.activeSpec call.candidateSpec call.sourceId none true
    return {
      passed := report.shadowState = .passed
      state := report.shadowState.value
      fieldMatchRate := report.metrics.fieldMatchRate
      dpsDelta := report.metrics.dpsDelta
      downstreamIsolation := report.downstreamIsolationVerified }
  else return ⟨false, "FAILED", 0, -1, true⟩

/-- The gates of a repair, one after the other. -/
def evaluateGates (env : Environment) (call : RepairCall) : Except PyError GateResults := do
  let (schemaPassed, schemaDetails) ← validateSpecSchema call.candidateSpec
  let validation ← validationGate call schemaPassed
  let shadow ← shadowGate env call schemaPassed
  return {
    schemaPassed := schemaPassed
    schemaDetails := schemaDetails
    validationPassed := validation.passed
    extractionAccuracy := validation.extractionAccuracy
    semanticAccuracy := validation.semanticAccuracy
    dps := validation.dps
    rawRetention := validation.rawRetention
    unknownRetention := validation.unknownRetention
    shadowPassed := shadow.passed
    shadowState := shadow.state
    fieldMatchRate := shadow.fieldMatchRate
    dpsDelta := shadow.dpsDelta
    downstreamIsolationVerified := shadow.downstreamIsolation }

/-- `int(cand_ver.split(".")[0]) if cand_ver[0].isdigit() else 2` -/
def leadingVersion (u : Unicode) : PyVal → Except PyError ℤ
  | .str s =>
      match s.toList with
      | [] => .error .indexError
      | c :: _ =>
          if u.isDigit c then
            match parseInt u ((Text.split s ".").headD "") with
            | some n => .ok n
            | none => .error .valueError
          else .ok 2
  | .arr [] => .error .indexError
  | .arr (.str s :: _) =>
      -- a list can be indexed but not split
      if s ≠ "" ∧ s.toList.all u.isDigit then .error .attributeError else .ok 2
  | .arr _ => .error .attributeError
  | .obj _ => .error .keyError
  | _ => .error .typeError

/-- `spec_hash` of a candidate. -/
def specHash (env : Environment) (candidateSpec : PyVal) : String :=
  "sha256-" ++ env.sha256 (dumps (sortKeys candidateSpec))

/-- The spec a promotion deploys. -/
def compileCandidate (env : Environment) (call : RepairCall) (candId candVer : PyVal) :
    Except PyError CompiledParserSpec := do
  let version ← leadingVersion env.unicode candVer
  return {
    specId := str env.unicode candId ++ ":" ++ str env.unicode candVer
    sourceId := call.sourceId
    version := version
    targetRuntime := .pythonNative
    mappings := []
    compiledCode := dumps call.candidateSpec
    specHash := specHash env call.candidateSpec }

/-- What a repair has found out before it reports. -/
structure Assessment where
  activeId : PyVal
  activeVer : PyVal
  candId : PyVal
  candVer : PyVal
  gates : GateResults
  deriving DecidableEq

/-- `handle_repair` up to the evaluation of the policy. -/
def assess (env : Environment) (call : RepairCall) : Except PyError Assessment := do
  let (activeId, activeVer) ←
    parserIdentity call.activeSpec (call.sourceId ++ ".active") "1.0.0"
  let (candId, candVer) ←
    parserIdentity call.candidateSpec (call.sourceId ++ ".candidate") "1.1.0"
  let gates ← evaluateGates env call
  return ⟨activeId, activeVer, candId, candVer, gates⟩

/-- `incident_id` of the report. -/
def incidentOf (env : Environment) (call : RepairCall) : String :=
  match call.incidentId with
  | some id => if id = "" then env.generatedIncident else id
  | none => env.generatedIncident

/-- `promotion_mode or self.policy.default_mode` -/
def effectiveMode (policy : PromotionPolicy) (call : RepairCall) : PromotionMode :=
  call.promotionMode.getD policy.defaultMode

/-- Who is named for a decision. -/
def appliedBy : PromotionDecision → String
  | .promoted => "POLICY_ENGINE"
  | .escalatedForApproval => "OPERATOR_ESCALATION"
  | .rejected => "POLICY_REFUSAL_ENGINE"

/-- The decision on an assessment, with the reasons to refuse and the conditions checked. -/
def policyDecision (policy : PromotionPolicy) (call : RepairCall) (found : Assessment) :
    PromotionDecision × List String × List String :=
  policy.evaluate found.gates (some (effectiveMode policy call))

/-- The report of what a repair has found. -/
def buildReport (env : Environment) (policy : PromotionPolicy) (call : RepairCall)
    (found : Assessment) : SelfHealingReport :=
  let (decision, refusalReasons, checkedConditions) := policyDecision policy call found
  { sourceId := call.sourceId
    incidentId := incidentOf env call
    driftState := call.driftReport.driftState.value
    detectedAt := call.driftReport.observedAt
    triggerSummary := call.driftReport.driftDetails.headD "Drift detected"
    activeParserId := found.activeId
    activeParserVersion := found.activeVer
    candidateParserId := found.candId
    candidateParserVersion := found.candVer
    candidateSpecHash := specHash env call.candidateSpec
    schemaPassed := found.gates.schemaPassed
    schemaDetails := found.gates.schemaDetails
    validationPassed := found.gates.validationPassed
    extractionAccuracy := found.gates.extractionAccuracy
    semanticAccuracy := found.gates.semanticAccuracy
    dps := found.gates.dps
    rawRetention := found.gates.rawRetention
    unknownRetention := found.gates.unknownRetention
    shadowPassed := found.gates.shadowPassed
    shadowState := found.gates.shadowState
    fieldMatchRate := found.gates.fieldMatchRate
    dpsDelta := found.gates.dpsDelta
    downstreamIsolationVerified := found.gates.downstreamIsolationVerified
    promotionMode := effectiveMode policy call
    refusalConditionsChecked := checkedConditions
    refusalReasons := refusalReasons
    decision := decision
    decidedAt := env.decidedAt
    appliedBy := appliedBy decision }

/-- `handle_repair`: the report or the exception, and the engine afterwards. -/
def handleRepair (env : Environment) (policy : PromotionPolicy)
    (engine : SpecDeploymentEngine) (call : RepairCall) :
    Except PyError SelfHealingReport × SpecDeploymentEngine :=
  match assess env call with
  | .error e => (.error e, engine)
  | .ok found =>
      if (policyDecision policy call found).1 = .promoted then
        match (compileCandidate env call found.candId found.candVer).bind fun compiled =>
            engine.deploySpec compiled true with
        | .error e => (.error e, engine)
        | .ok engine' => (.ok (buildReport env policy call found), engine')
      else (.ok (buildReport env policy call found), engine)

end Ulpf.SelfHealing
