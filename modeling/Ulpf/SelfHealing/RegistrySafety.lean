import Ulpf.Lib.Outcome
import Ulpf.Lib.Run
import Ulpf.SelfHealing.Workflow

/-!
What a repair can do to the deployment engine, in one call and over a run of
calls: only a promotion deploys, and only for its own source.
-/

namespace Ulpf.SelfHealing

open Ulpf.Lib
open Ulpf.Python
open Ulpf.Deployment

/-- The results of the gates as a report records them. -/
def SelfHealingReport.gates (report : SelfHealingReport) : GateResults where
  schemaPassed := report.schemaPassed
  schemaDetails := report.schemaDetails
  validationPassed := report.validationPassed
  extractionAccuracy := report.extractionAccuracy
  semanticAccuracy := report.semanticAccuracy
  dps := report.dps
  rawRetention := report.rawRetention
  unknownRetention := report.unknownRetention
  shadowPassed := report.shadowPassed
  shadowState := report.shadowState
  fieldMatchRate := report.fieldMatchRate
  dpsDelta := report.dpsDelta
  downstreamIsolationVerified := report.downstreamIsolationVerified

section Step

variable {env : Environment} {policy : PromotionPolicy} {engine engine' : SpecDeploymentEngine}
  {call : RepairCall} {found : Assessment} {report : SelfHealingReport}

theorem policyDecision_promoted_iff :
    (policyDecision policy call found).1 = .promoted ↔
      Clear found.gates ∧ effectiveMode policy call = .automaticConditional := by
  rw [policyDecision, PromotionPolicy.evaluate_promoted_iff]
  rfl

theorem buildReport_decision :
    (buildReport env policy call found).decision = (policyDecision policy call found).1 := rfl

theorem buildReport_gates : (buildReport env policy call found).gates = found.gates := rfl

theorem assess_gates (h : assess env call = .ok found) :
    evaluateGates env call = .ok found.gates := by
  simp only [assess, bind_eq_ok_iff] at h
  rcases h with ⟨active, -, cand, -, gates, hgates, hfound⟩
  rw [pure_eq_ok_iff] at hfound
  rw [← hfound]
  exact hgates

theorem compileCandidate_spec {candId candVer : PyVal} {compiled : CompiledParserSpec}
    (h : compileCandidate env call candId candVer = .ok compiled) :
    compiled.sourceId = call.sourceId ∧ compiled.compiledCode = dumps call.candidateSpec ∧
      compiled.specHash = specHash env call.candidateSpec ∧
      leadingVersion env.unicode candVer = .ok compiled.version := by
  simp only [compileCandidate, bind_eq_ok_iff, pure_eq_ok_iff] at h
  rcases h with ⟨version, hversion, rfl⟩
  exact ⟨rfl, rfl, rfl, hversion⟩

/-- Everything a call that returns can do: report what it has found, and deploy
the candidate exactly when it promotes it. -/
theorem handleRepair_ok (h : handleRepair env policy engine call = (.ok report, engine')) :
    ∃ found, assess env call = .ok found ∧ report = buildReport env policy call found ∧
      ((report.decision = .promoted ∧ ∃ compiled,
          compileCandidate env call found.candId found.candVer = .ok compiled ∧
            engine.deploySpec compiled true = .ok engine') ∨
        (report.decision ≠ .promoted ∧ engine' = engine)) := by
  rw [handleRepair] at h
  cases hassess : assess env call with
  | error e => simp [hassess] at h
  | ok found =>
      simp only [hassess] at h
      refine ⟨found, rfl, ?_⟩
      split at h
      · rename_i hdecision
        cases hcompile : compileCandidate env call found.candId found.candVer with
        | error e => simp [hcompile, Except.bind] at h
        | ok compiled =>
            simp only [hcompile, Except.bind] at h
            split at h
            · simp at h
            · rename_i deployed hdeploy
              simp only [Prod.mk.injEq, Except.ok.injEq] at h
              rcases h with ⟨rfl, rfl⟩
              exact ⟨rfl, Or.inl ⟨hdecision, compiled, rfl, hdeploy⟩⟩
      · rename_i hdecision
        simp only [Prod.mk.injEq, Except.ok.injEq] at h
        rcases h with ⟨rfl, rfl⟩
        exact ⟨rfl, Or.inr ⟨hdecision, rfl⟩⟩

theorem handleRepair_error {e : PyError}
    (h : handleRepair env policy engine call = (.error e, engine')) : engine' = engine := by
  rw [handleRepair] at h
  split at h
  · simp_all
  · split at h
    · split at h <;> simp_all
    · simp_all

end Step

abbrev RepairInput := Environment × RepairCall

/-- A repair that returns a report, and the engine after it. -/
def Repaired (policy : PromotionPolicy) (engine : SpecDeploymentEngine) (input : RepairInput)
    (report : SelfHealingReport) (engine' : SpecDeploymentEngine) : Prop :=
  handleRepair input.1 policy engine input.2 = (.ok report, engine')

abbrev RepairStep := Transition SpecDeploymentEngine RepairInput SelfHealingReport

/-- What a step may do to the registry and the revision history. -/
structure StepSafe (policy : PromotionPolicy) (step : RepairStep) : Prop where
  unchanged : step.output.decision ≠ .promoted → step.after = step.before
  decided : ∃ gates, evaluateGates step.input.1 step.input.2 = .ok gates ∧
    step.output.gates = gates ∧
    (step.output.decision = .promoted ↔
      Clear gates ∧ effectiveMode policy step.input.2 = .automaticConditional)
  deployed : step.output.decision = .promoted → ∃ spec,
    step.after.getActiveSpec step.input.2.sourceId = some spec ∧
      spec.sourceId = step.input.2.sourceId ∧
      spec.compiledCode = dumps step.input.2.candidateSpec ∧
      spec.specHash = specHash step.input.1 step.input.2.candidateSpec
  archived : step.output.decision = .promoted → ∀ previous,
    step.before.getActiveSpec step.input.2.sourceId = some previous →
      (step.after.history step.input.2.sourceId).getLast? = some previous
  others : ∀ source, source ≠ step.input.2.sourceId →
    step.after.getActiveSpec source = step.before.getActiveSpec source ∧
      step.after.revisionHistory.get? source = step.before.revisionHistory.get? source

/-- The spec a step deploys for a source, when it does. -/
def deployedFor (source : String) (step : RepairStep) : List CompiledParserSpec :=
  if step.output.decision = .promoted ∧ step.input.2.sourceId = source then
    (step.after.getActiveSpec source).toList
  else []

variable {policy : PromotionPolicy} {step : RepairStep}

theorem stepSafe_of_repaired
    (h : Repaired policy step.before step.input step.output step.after) :
    StepSafe policy step := by
  rcases handleRepair_ok h with ⟨found, hassess, hreport, hcase⟩
  have hdecided : step.output.decision = .promoted ↔
      Clear found.gates ∧ effectiveMode policy step.input.2 = .automaticConditional := by
    rw [hreport, buildReport_decision]
    exact policyDecision_promoted_iff
  have hgates : step.output.gates = found.gates := by rw [hreport, buildReport_gates]
  rcases hcase with ⟨hpromoted, compiled, hcompile, hdeploy⟩ | ⟨hnot, hsame⟩
  · rcases compileCandidate_spec hcompile with ⟨hsource, hcode, hhash, -⟩
    rcases SpecDeploymentEngine.deploySpec_spec hdeploy with ⟨hactive, hhistory, hothers⟩
    rw [hsource] at hactive hhistory hothers
    refine ⟨fun hnot => absurd hpromoted hnot,
      ⟨found.gates, assess_gates hassess, hgates, hdecided⟩,
      fun _ => ⟨compiled, hactive, hsource, hcode, hhash⟩, ?_, hothers⟩
    intro _ previous hprevious
    rw [hhistory, hprevious]
    simp
  · refine ⟨fun _ => hsame, ⟨found.gates, assess_gates hassess, hgates, hdecided⟩,
      fun hpromoted => absurd hpromoted hnot, fun hpromoted => absurd hpromoted hnot, ?_⟩
    intro source _
    rw [hsame]
    exact ⟨rfl, rfl⟩

theorem revisions_of_repaired
    (h : Repaired policy step.before step.input step.output step.after) (source : String) :
    step.after.revisions source = step.before.revisions source ++ deployedFor source step := by
  rcases handleRepair_ok h with ⟨found, hassess, hreport, hcase⟩
  rcases hcase with ⟨hpromoted, compiled, hcompile, hdeploy⟩ | ⟨hnot, hsame⟩
  · rcases compileCandidate_spec hcompile with ⟨hsource, -⟩
    rw [SpecDeploymentEngine.revisions_deploySpec hdeploy, deployedFor, hsource]
    simp only [hpromoted, true_and]
    split
    · rename_i heq
      rw [← heq, ← hsource, (SpecDeploymentEngine.deploySpec_spec hdeploy).1]
      rfl
    · rfl
  · rw [hsame, deployedFor, if_neg fun hpromoted => hnot hpromoted.1, List.append_nil]

theorem exists_repaired (env : Environment) (policy : PromotionPolicy)
    (engine : SpecDeploymentEngine) (call : RepairCall) (decision : PromotionDecision)
    (h : (handleRepair env policy engine call).1.toOption.map (·.decision) = some decision) :
    ∃ report, Repaired policy engine (env, call) report (handleRepair env policy engine call).2 ∧
      report.decision = decision := by
  simp only [Repaired]
  rcases hresult : handleRepair env policy engine call with ⟨result, engine'⟩
  rw [hresult] at h
  cases result with
  | error e => simp [Except.toOption] at h
  | ok report => exact ⟨report, rfl, by simpa [Except.toOption] using h⟩

/-- In a run of repairs every step is safe, and the revisions of a source grow
by exactly the specs promoted for it, in order. -/
theorem repair_run_safe {engine engine' : SpecDeploymentEngine} {trace : List RepairStep}
    (h : Run (Repaired policy) engine trace engine') :
    (∀ step ∈ trace, StepSafe policy step) ∧
      ∀ source, engine'.revisions source =
        engine.revisions source ++ trace.flatMap (deployedFor source) := by
  refine ⟨fun step hmem => stepSafe_of_repaired (h.step_of_mem hmem), fun source => ?_⟩
  exact h.accumulate (fun engine => engine.revisions source) (deployedFor source)
    fun step hstep => revisions_of_repaired hstep source

def stillEnvironment (u : Unicode) : Environment where
  unicode := u
  sha256 := fun _ => ""
  generatedIncident := "INC-20260101-000000"
  ticks := fun _ => ⟨0, 0, 0, 0⟩
  decidedAt := 0

def firewallSpec (version : String) : PyVal :=
  .obj [("parser", .obj [("id", .str "cisco.firewall"), ("version", .str version)]),
    ("match", .obj [("format", .str "key_value")]),
    ("fields", .obj
      [("src", .obj [("type", .str "ip"), ("map_to", .str "src.ip")]),
        ("act", .obj [("type", .str "string"), ("map_to", .str "event.action"),
          ("enum", .obj [("deny", .str "blocked")])])])]

def firewallRepair (candidate : PyVal) : RepairCall where
  sourceId := "cisco_firewall"
  driftReport := ⟨.drifted, 0, ["Key-set distance 0.20 exceeds threshold 0.15"]⟩
  activeSpec := firewallSpec "1.0.0"
  candidateSpec := candidate
  recentLogSamples := ["src=192.168.1.10 act=deny"]
  promotionMode := some .automaticConditional
  incidentId := none

/-- A promotion and a refusal, one after the other. -/
theorem repair_run_safe_firewall : ∃ trace engine',
    Run (Repaired PromotionPolicy.default) SpecDeploymentEngine.init trace engine' ∧
      trace.map (·.output.decision) = [.promoted, .rejected] ∧
      (∀ step ∈ trace, StepSafe PromotionPolicy.default step) ∧
      ∀ source, engine'.revisions source =
        SpecDeploymentEngine.init.revisions source ++ trace.flatMap (deployedFor source) := by
  rcases exists_repaired (stillEnvironment Unicode.ascii) PromotionPolicy.default
    SpecDeploymentEngine.init (firewallRepair (firewallSpec "1.1.0")) .promoted
    (by decide +kernel) with ⟨promotion, hpromotion, hpromoted⟩
  rcases exists_repaired (stillEnvironment Unicode.ascii) PromotionPolicy.default
    (handleRepair (stillEnvironment Unicode.ascii) PromotionPolicy.default
      SpecDeploymentEngine.init (firewallRepair (firewallSpec "1.1.0"))).2
    (firewallRepair (.obj [])) .rejected (by decide +kernel) with
    ⟨refusal, hrefusal, hrejected⟩
  have hrun := Run.cons hpromotion (Run.cons hrefusal (Run.nil _))
  exact ⟨_, _, hrun, by simp [hpromoted, hrejected], repair_run_safe hrun⟩

end Ulpf.SelfHealing
