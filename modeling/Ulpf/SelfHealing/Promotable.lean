import Ulpf.SelfHealing.FailClosed

/-!
Which candidates some call promotes. A blank sample has no record, so every
spec parses it to the same empty event and the shadow run passes: what is left
of the gates are conditions on the candidate alone.
-/

namespace Ulpf.SelfHealing

open Ulpf.Lib
open Ulpf.Python
open Ulpf.Deployment
open Ulpf.Shadow

/-- What the gates ask of a candidate whatever the other inputs of the call. -/
structure Promotable (u : Unicode) (candidate : PyVal) : Prop where
  opens : Opens candidate
  shaped : HasShape candidate
  hinted : (candidate.memberD "match" (.obj [])).isObj = true
  scannable : FieldsScannable candidate
  detects : MapsDetectionFields candidate
  versioned : VersionReadable u (candidateVersion candidate)

theorem promotable_of_promoted {env : Environment} {policy : PromotionPolicy}
    {engine engine' : SpecDeploymentEngine} {call : RepairCall} {report : SelfHealingReport}
    (h : handleRepair env policy engine call = (.ok report, engine'))
    (hpromoted : report.decision = .promoted) : Promotable env.unicode call.candidateSpec := by
  have hpromotes := (decision_of_handleRepair h).mp hpromoted
  rcases (returns_handleRepair_iff _ _ _ _).mp ⟨report, engine', h⟩ with
    ⟨hactive, hcandidate, hstages, hversion⟩
  rcases hstages hpromotes.1.shaped hpromotes.1.sampled with ⟨hscannable, husable⟩
  refine ⟨hcandidate, hpromotes.1.shaped, ?_, hscannable, hpromotes.1.detects, hversion hpromotes⟩
  rcases List.exists_mem_of_ne_nil _ hpromotes.1.sampled with ⟨sample, hsample⟩
  rcases (husable sample hsample).2 with ⟨record, hrecord, -⟩
  simp only [extractFields, specHint, bind_eq_ok_iff, PyVal.getD_eq_ok_iff] at hrecord
  rcases hrecord with ⟨hint, ⟨matchInfo, ⟨-, rfl⟩, format, ⟨hobj, -⟩, -⟩, -⟩
  exact hobj

section Blank

variable {u : Unicode}

theorem parse_blank {spec : PyVal} (hspec : spec.isObj = true)
    (hmatch : (spec.memberD "match" (.obj [])).isObj = true) :
    parse u (.str "") spec = .ok Event.empty := by
  have hgetMatch := PyVal.getD_eq_ok_iff.mpr ⟨hspec, Eq.refl (spec.memberD "match" (.obj []))⟩
  have hgetFormat := PyVal.getD_eq_ok_iff.mpr
    ⟨hmatch, Eq.refl ((spec.memberD "match" (.obj [])).memberD "format" (.str ""))⟩
  have hgetFields := PyVal.getD_eq_ok_iff.mpr ⟨hspec, Eq.refl (spec.memberD "fields" (.obj []))⟩
  have hblank : strip "" = "" := rfl
  simp only [parse, str, parseText, extractFields, specHint, hgetMatch, hgetFormat, hgetFields,
    ok_bind, pure, Except.pure, SourceProfiler.parseRecord_blank u hblank]
  rfl

variable (candId candVersion : PyVal)

theorem flatPairs_blank :
    flatPairs [Event.empty] [tagShadow candId candVersion Event.empty] =
      .ok [(Dict.empty, Dict.empty)] := rfl

theorem eventDiverged_blank : eventDiverged u Dict.empty Dict.empty = false := by
  simp [eventDiverged, criticalDiverged, flatGet]

theorem calcDps_blank {ev : Event} (haction : nested ev "event" "action" = .null)
    (hdotted : ev.get "event.action" = .null) (houtcome : nested ev "event" "outcome" = .null)
    (hdotted' : ev.get "event.outcome" = .null) : calcDps u [ev] = 1 := by
  have hlower : lower u "" = "" := by
    simp [lower, Text.onChars, u.lowerText_ascii [] (by simp)]
  have hcontains : Text.contains "" "deny" = false ∧ Text.contains "" "block" = false ∧
      Text.contains "" "drop" = false ∧ Text.contains "" "denied" = false := by decide
  simp [calcDps, isSecurityEvent, actionText, outcomeText, haction, hdotted, houtcome, hdotted',
    PyVal.orElse, PyVal.truthy, str, hlower, hcontains]

/-- Every metric of a comparison of empty events takes its default. -/
theorem compare_blank (latency : ℚ) : ∃ report,
    compare u [Event.empty] [tagShadow candId candVersion Event.empty] [latency] [latency] true =
      .ok report ∧ report.shadowState = .passed := by
  have hcongruence : evaluateFieldCongruence [Event.empty]
      [tagShadow candId candVersion Event.empty] = .ok 1 := by
    simp [evaluateFieldCongruence, flatPairs_blank, Dict.empty, pure, Except.pure]
  have hcritical : evaluateCriticalSemantics u [Event.empty]
      [tagShadow candId candVersion Event.empty] = .ok 0 := by
    simp [evaluateCriticalSemantics, flatPairs_blank, eventDiverged_blank, pure, Except.pure]
  have hretention : evaluateUnknownRetention [Event.empty]
      [tagShadow candId candVersion Event.empty] = .ok 1 := rfl
  have hdps : evaluateDpsComparison u [Event.empty] [tagShadow candId candVersion Event.empty] =
      (1, 1, 0) := by
    have hactive : calcDps u [Event.empty] = 1 := calcDps_blank rfl rfl rfl rfl
    have hcandidate : calcDps u [tagShadow candId candVersion Event.empty] = 1 :=
      calcDps_blank rfl rfl rfl rfl
    simp [evaluateDpsComparison, hactive, hcandidate]
  have hmatchRate : ¬ (1 : ℚ) < Binary64.fl (90 / 100) ∧ ¬ (1 : ℚ) < Binary64.fl (98 / 100) := by
    decide +kernel
  have hlatency : ¬ (50 : ℚ) < 0 := by decide +kernel
  simp only [Shadow.compare, hcongruence, hcritical, hretention, hdps, evaluateLatencies_same,
    ok_bind]
  refine ⟨_, rfl, ?_⟩
  simp [verdict, failureFlags, suspectedFlags, hmatchRate, hlatency]

end Blank

/-- A repair with one blank sample. -/
def blankCall (candidate : PyVal) : RepairCall where
  sourceId := "source"
  driftReport := ⟨.drifted, 0, []⟩
  activeSpec := .obj []
  candidateSpec := candidate
  recentLogSamples := [""]
  promotionMode := some .automaticConditional
  incidentId := none

theorem blankCall_promoted {u : Unicode} {candidate : PyVal} (h : Promotable u candidate)
    (policy : PromotionPolicy) (engine : SpecDeploymentEngine) : ∃ report engine',
      handleRepair (stillEnvironment u) policy engine (blankCall candidate) =
        (.ok report, engine') ∧ report.decision = .promoted := by
  have hactiveOpens : Opens (.obj []) := ⟨rfl, rfl⟩
  have hactive : parse u (.str "") (.obj []) = .ok Event.empty := parse_blank rfl rfl
  have hcandidate : parse u (.str "") candidate = .ok Event.empty :=
    parse_blank h.opens.isObj h.hinted
  have hshadow : ShadowPasses (stillEnvironment u) (blankCall candidate) := by
    rcases compare_blank (u := u)
      ((candidate.memberD "parser" (.obj [])).memberD "id" (.str ("source" ++ ".candidate")))
      ((candidate.memberD "parser" (.obj [])).memberD "version" (.str "1.1.0"))
      (latencyMs 0 0) with ⟨report, hreport, hpassed⟩
    refine ⟨report, none, ?_, hpassed⟩
    rw [executeDual_eq_ok_iff]
    refine ⟨hactiveOpens, h.opens, rfl, [Event.empty], [Event.empty], ?_, ?_, hreport⟩
    · simp [blankCall, stillEnvironment, hactive, pure, Except.pure]
    · simp [blankCall, stillEnvironment, hcandidate, pure, Except.pure]
  have husable : ∀ {spec : PyVal}, parse u (.str "") spec = .ok Event.empty →
      Usable u spec "" := fun hparse =>
    usable_iff.mpr ⟨_, hparse, returns_flattenEvent_iff.mpr (by simp [Event.empty, Dict.empty,
      Dict.keys])⟩
  have hpromotes : Promotes (stillEnvironment u) policy (blankCall candidate) :=
    ⟨⟨h.shaped, by simp [blankCall], h.detects, hshadow⟩, rfl⟩
  rcases (returns_handleRepair_iff (stillEnvironment u) policy engine (blankCall candidate)).mpr
      ⟨hactiveOpens, h.opens, fun _ _ => ⟨h.scannable, by
        intro sample hsample
        rw [List.mem_singleton.mp hsample]
        exact ⟨husable hactive, husable hcandidate⟩⟩, fun _ => h.versioned⟩ with
    ⟨report, engine', hreport⟩
  exact ⟨report, engine', hreport, (decision_of_handleRepair hreport).mpr hpromotes⟩

theorem promotable_firewallSpec : Promotable Unicode.ascii (firewallSpec "1.1.0") where
  opens := ⟨rfl, rfl⟩
  shaped := ⟨rfl, rfl, _, rfl⟩
  hinted := rfl
  scannable := by
    constructor <;> (rw [Scannable]; decide)
  detects := ⟨rfl, rfl⟩
  versioned := ⟨by decide, fun _ => rfl⟩

end Ulpf.SelfHealing
