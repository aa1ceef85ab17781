import Ulpf.Contracts.ParserSpec
import Ulpf.SelfHealing.Gates
import Ulpf.Shadow.Scorecard

/-!
When a repair returns a report, when it promotes, and when it fails closed on a
malformed candidate.
-/

namespace Ulpf.SelfHealing

open Ulpf.Lib
open Ulpf.Python
open Ulpf.Contracts
open Ulpf.Deployment
open Ulpf.Shadow

/-- The version `handle_repair` reads from a candidate. -/
def candidateVersion (spec : PyVal) : PyVal := (parserInfo spec).memberD "version" (.str "1.1.0")

/-- A version whose leading part the promotion can read: a text that starts with
a digit only before an integer, or a list that starts with a text of another kind. -/
def VersionReadable (u : Unicode) : PyVal → Prop
  | .str s => s ≠ "" ∧ (s.toList.head?.any u.isDigit = true →
      (parseInt u ((Text.split s ".").headD "")).isSome)
  | .arr (.str s :: _) => ¬ (s ≠ "" ∧ s.toList.all u.isDigit = true)
  | _ => False

theorem returns_leadingVersion_iff {u : Unicode} {version : PyVal} :
    Returns (leadingVersion u version) ↔ VersionReadable u version := by
  cases version with
  | str s =>
      simp only [leadingVersion, VersionReadable]
      cases hs : s.toList with
      | nil =>
          have hempty : s = "" := by rw [← String.ofList_toList (s := s), hs]
          simp [hempty]
      | cons c rest =>
          have hne : s ≠ "" := by
            rintro rfl
            simp at hs
          simp only [ne_eq, hne, not_false_eq_true, List.head?_cons, Option.any_some, true_and]
          split
          · rename_i hdigit
            cases parseInt u ((Text.split s ".").headD "") <;> simp [hdigit]
          · rename_i hdigit
            simp [hdigit]
  | arr items =>
      cases items with
      | nil => simp [leadingVersion, VersionReadable]
      | cons item rest =>
          cases item with
          | str s =>
              simp only [leadingVersion, VersionReadable]
              split
              · rename_i h
                exact iff_of_false (not_returns_error _) (not_not_intro h)
              · rename_i h
                exact iff_of_true (returns_ok _) h
          | _ => simp [leadingVersion, VersionReadable]
  | _ => simp [leadingVersion, VersionReadable]

section Call

variable {env : Environment} {policy : PromotionPolicy} {engine : SpecDeploymentEngine}
  {call : RepairCall}

theorem assess_eq_ok_iff {found : Assessment} :
    assess env call = .ok found ↔ Opens call.activeSpec ∧ Opens call.candidateSpec ∧
      evaluateGates env call = .ok found.gates ∧
      found.activeId =
        (parserInfo call.activeSpec).memberD "id" (.str (call.sourceId ++ ".active")) ∧
      found.activeVer = (parserInfo call.activeSpec).memberD "version" (.str "1.0.0") ∧
      found.candId =
        (parserInfo call.candidateSpec).memberD "id" (.str (call.sourceId ++ ".candidate")) ∧
      found.candVer = candidateVersion call.candidateSpec := by
  simp only [assess, bind_eq_ok_iff, parserIdentity_eq_ok_iff, pure_eq_ok_iff]
  constructor
  · rintro ⟨_, ⟨hactive, rfl⟩, _, ⟨hcandidate, rfl⟩, gates, hgates, rfl⟩
    exact ⟨hactive, hcandidate, hgates, rfl, rfl, rfl, rfl⟩
  · rintro ⟨hactive, hcandidate, hgates, hactiveId, hactiveVer, hcandId, hcandVer⟩
    refine ⟨_, ⟨hactive, rfl⟩, _, ⟨hcandidate, rfl⟩, _, hgates, ?_⟩
    cases found
    simp_all [parserInfo, candidateVersion]

/-- What a promotion asks of a call. -/
def Promotes (env : Environment) (policy : PromotionPolicy) (call : RepairCall) : Prop :=
  GatesPass env call ∧ effectiveMode policy call = .automaticConditional

theorem returns_compileCandidate_iff (call : RepairCall) (candId : PyVal) {candVer : PyVal} :
    Returns (compileCandidate env call candId candVer) ↔ VersionReadable env.unicode candVer := by
  rw [← returns_leadingVersion_iff, compileCandidate, returns_bind_iff]
  constructor
  · intro h
    obtain ⟨version, hversion, _⟩ := h
    exact ⟨version, hversion⟩
  · intro h
    obtain ⟨version, hversion⟩ := h
    exact ⟨version, hversion, returns_pure _⟩

theorem decision_of_handleRepair {report : SelfHealingReport} {engine' : SpecDeploymentEngine}
    (h : handleRepair env policy engine call = (.ok report, engine')) :
    report.decision = .promoted ↔ Promotes env policy call := by
  rcases handleRepair_ok h with ⟨found, hassess, rfl, -⟩
  rcases assess_eq_ok_iff.mp hassess with ⟨-, hcandidate, hgates, -⟩
  rw [buildReport_decision, policyDecision_promoted_iff, clear_iff_gatesPass hcandidate hgates]
  rfl

/-- When a call returns a report, stage by stage. -/
theorem returns_handleRepair_iff (env : Environment) (policy : PromotionPolicy)
    (engine : SpecDeploymentEngine) (call : RepairCall) :
    (∃ report engine', handleRepair env policy engine call = (.ok report, engine')) ↔
      Opens call.activeSpec ∧ Opens call.candidateSpec ∧
      (HasShape call.candidateSpec → call.recentLogSamples ≠ [] →
        FieldsScannable call.candidateSpec ∧ SamplesUsable env call) ∧
      (Promotes env policy call →
        VersionReadable env.unicode (candidateVersion call.candidateSpec)) := by
  constructor
  · rintro ⟨report, engine', h⟩
    rcases handleRepair_ok h with ⟨found, hassess, hreport, hcase⟩
    rcases assess_eq_ok_iff.mp hassess with
      ⟨hactive, hcandidate, hgates, -, -, -, hversion⟩
    refine ⟨hactive, hcandidate,
      (returns_evaluateGates_iff env hactive hcandidate).mp ⟨_, hgates⟩, fun hpromotes => ?_⟩
    rcases hcase with ⟨-, compiled, hcompile, -⟩ | ⟨hnot, -⟩
    · rw [← hversion]
      exact (returns_compileCandidate_iff _ _).mp ⟨compiled, hcompile⟩
    · exact absurd ((decision_of_handleRepair h).mpr hpromotes) hnot
  · rintro ⟨hactive, hcandidate, hgates, hversion⟩
    rcases (returns_evaluateGates_iff env hactive hcandidate).mpr hgates with
      ⟨gates, hgates⟩
    have hassess : ∃ found, assess env call = .ok found :=
      ⟨⟨_, _, _, _, gates⟩, assess_eq_ok_iff.mpr ⟨hactive, hcandidate, hgates, rfl, rfl, rfl, rfl⟩⟩
    rcases hassess with ⟨found, hassess⟩
    rcases assess_eq_ok_iff.mp hassess with ⟨-, -, hfound, -, -, -, hcandVer⟩
    have hdecision : (policyDecision policy call found).1 = .promoted ↔
        Promotes env policy call := by
      rw [policyDecision_promoted_iff, clear_iff_gatesPass hcandidate hfound, Promotes]
    rw [handleRepair, hassess]
    by_cases hpromotes : Promotes env policy call
    · have hreadable := hversion hpromotes
      rw [← hcandVer] at hreadable
      rcases (returns_compileCandidate_iff call found.candId).mpr hreadable with
        ⟨compiled, hcompile⟩
      simp only [hdecision.mpr hpromotes, if_true, hcompile, Except.bind,
        SpecDeploymentEngine.deploySpec]
      exact ⟨_, _, rfl⟩
    · simp only [hdecision, hpromotes, if_false]
      exact ⟨_, _, rfl⟩

end Call

/-- A call that returns a report, and does not promote a malformed candidate. -/
def FailsClosed (env : Environment) (policy : PromotionPolicy) (engine : SpecDeploymentEngine)
    (call : RepairCall) : Prop :=
  ∃ report engine', handleRepair env policy engine call = (.ok report, engine') ∧
    (¬ SchemaValid call.candidateSpec → report.decision ≠ .promoted)

/-- The events that the comparator gets of the samples: those of the active spec, and those of the
candidate under their mark. -/
structure Parsed (env : Environment) (call : RepairCall) (acts cands : List Event) : Prop where
  active : (call.recentLogSamples.map Json.str).mapM (parse env.unicode · call.activeSpec) =
    .ok acts
  candidate : ∃ evs,
    (call.recentLogSamples.map Json.str).mapM (parse env.unicode · call.candidateSpec) = .ok evs ∧
      cands = evs.map (tagShadow
        ((parserInfo call.candidateSpec).memberD "id" (.str (call.sourceId ++ ".candidate")))
        (candidateVersion call.candidateSpec))

/-- One latency for each sample. -/
def latencies (call : RepairCall) (latency : ℕ → ℚ) : List ℚ :=
  (List.range call.recentLogSamples.length).map latency

/-- The events of the samples clear the thresholds of the comparison. -/
def ShadowClears (env : Environment) (call : RepairCall) : Prop :=
  ∃ acts cands vs, Parsed env call acts cands ∧ views acts cands = .ok vs ∧
    Clears env.unicode acts cands
      (latencies call fun i => latencyMs (env.ticks i).t0 (env.ticks i).t1)
      (latencies call fun i => latencyMs (env.ticks i).t2 (env.ticks i).t3) true vs

/-- Inputs that no gate refuses. -/
structure Unrefused (env : Environment) (policy : PromotionPolicy) (call : RepairCall) : Prop where
  automatic : effectiveMode policy call = .automaticConditional
  sampled : call.recentLogSamples ≠ []
  shaped : HasShape call.candidateSpec
  detects : MapsDetectionFields call.candidateSpec
  shadowed : ShadowClears env call

theorem shadowPasses_iff {env : Environment} {call : RepairCall} (hactive : Opens call.activeSpec)
    (hcandidate : Opens call.candidateSpec) : ShadowPasses env call ↔ ShadowClears env call := by
  constructor
  · rintro ⟨report, bus, hdual, hpassed⟩
    obtain ⟨-, -, -, acts, evs, hacts, hevs, hcompare⟩ := executeDual_eq_ok_iff.mp hdual
    rw [List.length_map] at hcompare
    obtain ⟨vs, hvs, hclears⟩ := passes_iff.mp ⟨report, hcompare, hpassed⟩
    exact ⟨acts, _, vs, ⟨hacts, evs, hevs, rfl⟩, hvs, hclears⟩
  · rintro ⟨acts, _, vs, ⟨hacts, evs, hevs, rfl⟩, hvs, hclears⟩
    obtain ⟨report, hcompare, hpassed⟩ := passes_iff.mpr ⟨vs, hvs, hclears⟩
    refine ⟨report, none, ?_, hpassed⟩
    rw [executeDual_eq_ok_iff, List.length_map]
    exact ⟨hactive, hcandidate, rfl, acts, evs, hacts, hevs, hcompare⟩

theorem promotes_iff_unrefused {env : Environment} {policy : PromotionPolicy} {call : RepairCall}
    (hactive : Opens call.activeSpec) (hcandidate : Opens call.candidateSpec) :
    Promotes env policy call ↔ Unrefused env policy call := by
  constructor
  · rintro ⟨hgates, hmode⟩
    exact ⟨hmode, hgates.sampled, hgates.shaped, hgates.detects,
      (shadowPasses_iff hactive hcandidate).mp hgates.shadowed⟩
  · intro h
    exact ⟨⟨h.shaped, h.sampled, h.detects, (shadowPasses_iff hactive hcandidate).mpr h.shadowed⟩,
      h.automatic⟩

/-- The inputs on which every access of a repair is guarded: both specs open, the definitions can be
scanned and the samples parsed, and some gate refuses the call or the candidate has a readable
version and meets its schema. -/
structure Guarded (env : Environment) (policy : PromotionPolicy) (call : RepairCall) : Prop where
  active : Opens call.activeSpec
  candidate : Opens call.candidateSpec
  scannable : HasShape call.candidateSpec → call.recentLogSamples ≠ [] →
    FieldsScannable call.candidateSpec
  usable : HasShape call.candidateSpec → SamplesUsable env call
  unrefused : Unrefused env policy call →
    VersionReadable env.unicode (candidateVersion call.candidateSpec) ∧
      SchemaValid call.candidateSpec

/-- A repair fails closed on exactly the guarded inputs. -/
theorem failsClosed_iff_guarded (env : Environment) (policy : PromotionPolicy)
    (engine : SpecDeploymentEngine) (call : RepairCall) :
    FailsClosed env policy engine call ↔ Guarded env policy call := by
  constructor
  · rintro ⟨report, engine', h, hclosed⟩
    rcases (returns_handleRepair_iff env policy engine call).mp ⟨report, engine', h⟩ with
      ⟨hactive, hcandidate, hstages, hversion⟩
    refine ⟨hactive, hcandidate, fun hshape hsamples => (hstages hshape hsamples).1, ?_, ?_⟩
    · intro hshape
      by_cases hsamples : call.recentLogSamples = []
      · simp [SamplesUsable, hsamples]
      · exact (hstages hshape hsamples).2
    · intro hunrefused
      have hpromotes := (promotes_iff_unrefused hactive hcandidate).mpr hunrefused
      refine ⟨hversion hpromotes, ?_⟩
      by_contra hinvalid
      exact hclosed hinvalid ((decision_of_handleRepair h).mpr hpromotes)
  · intro hguarded
    have hpromotes : Promotes env policy call ↔ Unrefused env policy call :=
      promotes_iff_unrefused hguarded.active hguarded.candidate
    rcases (returns_handleRepair_iff env policy engine call).mpr
      ⟨hguarded.active, hguarded.candidate,
        fun hshape hsamples => ⟨hguarded.scannable hshape hsamples, hguarded.usable hshape⟩,
        fun h => (hguarded.unrefused (hpromotes.mp h)).1⟩ with ⟨report, engine', h⟩
    refine ⟨report, engine', h, fun hinvalid hpromoted => ?_⟩
    exact hinvalid (hguarded.unrefused (hpromotes.mp ((decision_of_handleRepair h).mp hpromoted))).2

/-- A candidate that is a list makes the repair of a firewall raise. -/
theorem not_failsClosed_list :
    ¬ FailsClosed (stillEnvironment Unicode.ascii) PromotionPolicy.default
      SpecDeploymentEngine.init (firewallRepair (.arr [])) := by
  rintro ⟨report, engine', h, -⟩
  have hraises : handleRepair (stillEnvironment Unicode.ascii) PromotionPolicy.default
      SpecDeploymentEngine.init (firewallRepair (.arr [])) =
        (.error .attributeError, SpecDeploymentEngine.init) := rfl
  rw [hraises] at h
  cases h

end Ulpf.SelfHealing
