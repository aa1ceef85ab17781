import Ulpf.Lib.Dict
import Ulpf.Lib.Outcome
import Ulpf.Python.Value

/-!
`TelemetryPassportBuilder`: a passport carries the measurements of a passed
validation, and no number otherwise.
-/

namespace Ulpf.Passport

open Ulpf.Lib
open Ulpf.Python

def notYetMeasured : String := "NOT YET MEASURED"

/-- `METRIC_NAMES` -/
def metricNames : List String :=
  ["extraction_accuracy", "semantic_accuracy", "raw_retention", "unknown_field_retention",
    "detection_preservation"]

/-- `DRIFT_STATES` -/
def driftStates : List String := ["STABLE", "SUSPECTED", "DRIFTED"]

/-- A `datetime`: whether it has a time zone, and `astimezone(timezone.utc).isoformat()`. -/
structure Moment where
  aware : Bool
  utcIso : Except PyError String

/-- `datetime.now(timezone.utc)` with the text it is written as. -/
def Moment.nowUtc (iso : String) : Moment := ⟨true, .ok iso⟩

/-- `ValidationEvidence`: what a validation run has measured. -/
structure ValidationEvidence where
  runID : String
  completedAt : Moment
  passed : Bool
  metrics : Dict String PyVal
  driftState : Option String
  driftObservedAt : Option Moment

/-- `TelemetryPassport`: the scores of a parser and its certification. -/
structure TelemetryPassport where
  schemaVersion : String
  sourceID : PyVal
  parserID : PyVal
  parserVersion : PyVal
  validationStatus : String
  runID : Option String
  completedAt : Option String
  certificationStatus : String
  certificationTimestamp : Option String
  scores : List (String × PyVal)
  driftState : Option String
  driftObservedAt : Option String

/-- The exceptions of the builder. -/
inductive PassportError where
  | valueError (message : String)
  | raised (e : PyError)

/-- `_required_text` -/
def requiredText (name : String) (value : PyVal) : Except PassportError Unit :=
  match value with
  | .str s => if strip s = "" then .error (.valueError (name ++ " is required")) else .ok ()
  | _ => .error (.valueError (name ++ " is required"))

/-- `_timestamp` -/
def timestamp (value : Moment) : Except PassportError String :=
  (value.utcIso.map fun iso => Text.replaceAll iso "+00:00" "Z").mapError .raised

/-- A number from 0 to 1 that is no boolean. -/
def unitNumber : PyVal → Bool
  | .num (.int n) => 0 ≤ n ∧ n ≤ 1
  | .num (.float x) =>
      match x.toRat? with
      | some q => 0 ≤ q ∧ q ≤ 1
      | none => false
  | _ => false

/-- `_validate_evidence` -/
def validateEvidence (evidence : ValidationEvidence) : Except PassportError Unit := do
  requiredText "validation run_id" (.str evidence.runID)
  if !evidence.completedAt.aware then
    throw (.valueError "validation completed_at must be timezone-aware")
  match evidence.driftState, evidence.driftObservedAt with
  | some state, some observedAt =>
      if !driftStates.contains state then
        throw (.valueError "certification requires a measured drift state and observation time")
      if !observedAt.aware then throw (.valueError "drift observed_at must be timezone-aware")
  | _, _ => throw (.valueError "certification requires a measured drift state and observation time")
  if !(evidence.metrics.keys.all metricNames.contains &&
      metricNames.all evidence.metrics.contains) then
    throw (.valueError "validation evidence must contain exactly the passport metrics")
  match evidence.metrics.entries.find? fun entry => !unitNumber entry.2 with
  | some (name, _) =>
      throw (.valueError ("metric " ++ name ++ " must be a finite number from 0 to 1"))
  | none => return ()

/-- `_unmeasured` -/
def unmeasured (sourceID parserID parserVersion : PyVal) (evidence : Option ValidationEvidence) :
    Except PassportError TelemetryPassport := do
  let (status, runID, completedAt) ←
    match evidence with
    | none => pure ("NOT_YET_MEASURED", none, none)
    | some evidence => do
        requiredText "validation run_id" (.str evidence.runID)
        let completedAt ← timestamp evidence.completedAt
        pure ("FAILED", some evidence.runID, some completedAt)
  return {
    schemaVersion := "1.1"
    sourceID := sourceID
    parserID := parserID
    parserVersion := parserVersion
    validationStatus := status
    runID := runID
    completedAt := completedAt
    certificationStatus := "NOT_CERTIFIED"
    certificationTimestamp := none
    scores := metricNames.map fun name => (name, .str notYetMeasured)
    driftState := some "NOT_YET_MEASURED"
    driftObservedAt := none }

/-- `evidence.metrics[name]` for every metric of a passport. -/
def scoresOf (metrics : Dict String PyVal) : Except PassportError (List (String × PyVal)) :=
  metricNames.mapM fun name =>
    match metrics.get? name with
    | some value => .ok (name, value)
    | none => .error (.raised .keyError)

/-- `build` -/
def build (sourceID parserID parserVersion : PyVal) (evidence : Option ValidationEvidence) :
    Except PassportError TelemetryPassport := do
  requiredText "source_id" sourceID
  requiredText "parser_id" parserID
  requiredText "parser_version" parserVersion
  match evidence with
  | none => unmeasured sourceID parserID parserVersion none
  | some evidence =>
      if !evidence.passed then unmeasured sourceID parserID parserVersion (some evidence)
      else do
        validateEvidence evidence
        let completedAt ← timestamp evidence.completedAt
        let scores ← scoresOf evidence.metrics
        let driftObservedAt ← evidence.driftObservedAt.mapM timestamp
        return {
          schemaVersion := "1.1"
          sourceID := sourceID
          parserID := parserID
          parserVersion := parserVersion
          validationStatus := "PASSED"
          runID := some evidence.runID
          completedAt := some completedAt
          certificationStatus := "CERTIFIED"
          certificationTimestamp := some completedAt
          scores := scores
          driftState := evidence.driftState
          driftObservedAt := driftObservedAt }

section Building

variable {sourceID parserID parserVersion : PyVal} {evidence : ValidationEvidence}

/-- A text with something in it. -/
def Named (value : PyVal) : Prop := ∃ s, value = .str s ∧ strip s ≠ ""

theorem requiredText_of_named {name : String} {value : PyVal} (h : Named value) :
    requiredText name value = .ok () := by
  obtain ⟨s, rfl, hs⟩ := h
  exact if_neg hs

/-- Evidence that `_validate_evidence` lets through. -/
structure Complete (evidence : ValidationEvidence) : Prop where
  aware : evidence.completedAt.aware = true
  drift : ∃ state ∈ driftStates, evidence.driftState = some state
  observed : ∃ observedAt, evidence.driftObservedAt = some observedAt ∧ observedAt.aware = true
  metrics : ∀ name, name ∈ evidence.metrics.keys ↔ name ∈ metricNames
  scores : ∀ entry ∈ evidence.metrics.entries, unitNumber entry.2 = true

theorem validateEvidence_of_complete (hrun : Named (.str evidence.runID))
    (h : Complete evidence) : validateEvidence evidence = .ok () := by
  obtain ⟨state, hstate, hdrift⟩ := h.drift
  obtain ⟨observedAt, hobserved, hzone⟩ := h.observed
  have hkeys : (evidence.metrics.keys.all metricNames.contains &&
      metricNames.all evidence.metrics.contains) = true := by
    rw [Bool.and_eq_true, List.all_eq_true, List.all_eq_true]
    constructor
    · intro name hname
      exact List.contains_iff_mem.mpr ((h.metrics name).mp hname)
    · intro name hname
      exact Dict.contains_iff.mpr ((h.metrics name).mpr hname)
  have hunit : (evidence.metrics.entries.find? fun entry => !unitNumber entry.2) = none := by
    rw [List.find?_eq_none]
    intro entry hentry
    rw [h.scores entry hentry]
    simp
  rw [validateEvidence, requiredText_of_named hrun, ok_bind, hdrift, hobserved, hkeys, hunit]
  simp only [h.aware, hzone, List.contains_iff_mem.mpr hstate]
  rfl

theorem exists_scoresOf (metrics : Dict String PyVal)
    (h : ∀ name ∈ metricNames, name ∈ metrics.keys) : Returns (scoresOf metrics) := by
  rw [scoresOf, returns_mapM_iff]
  intro name hname
  obtain ⟨value, hvalue⟩ := Option.isSome_iff_exists.mp (Dict.mem_keys_iff.mp (h name hname))
  rw [hvalue]
  exact returns_ok _

variable (hsource : Named sourceID) (hparser : Named parserID) (hversion : Named parserVersion)
  (hrun : Named (.str evidence.runID))

include hsource hparser hversion hrun

theorem build_of_passed (hpassed : evidence.passed = true) (hcomplete : Complete evidence)
    (hcompleted : Returns evidence.completedAt.utcIso)
    (hobserved : ∀ observedAt, evidence.driftObservedAt = some observedAt →
      Returns observedAt.utcIso) :
    ∃ passport, build sourceID parserID parserVersion (some evidence) = .ok passport ∧
      passport.certificationStatus = "CERTIFIED" := by
  obtain ⟨iso, hiso⟩ := hcompleted
  obtain ⟨observedAt, hsome, -⟩ := hcomplete.observed
  obtain ⟨driftIso, hdriftIso⟩ := hobserved observedAt hsome
  obtain ⟨scores, hscores⟩ := exists_scoresOf evidence.metrics
    fun name hname => (hcomplete.metrics name).mpr hname
  rw [build, requiredText_of_named hsource, ok_bind, requiredText_of_named hparser, ok_bind,
    requiredText_of_named hversion, ok_bind]
  simp only [hpassed, Bool.not_true, Bool.false_eq_true, if_false]
  rw [validateEvidence_of_complete hrun hcomplete, ok_bind, timestamp, hiso, hscores, hsome]
  simp only [Option.mapM_some, timestamp, hdriftIso]
  exact ⟨_, rfl, rfl⟩

theorem build_of_failed (hfailed : evidence.passed = false)
    (hcompleted : Returns evidence.completedAt.utcIso) :
    ∃ passport, build sourceID parserID parserVersion (some evidence) = .ok passport ∧
      passport.certificationStatus = "NOT_CERTIFIED" ∧
      (∀ score ∈ passport.scores, score.2 = .str notYetMeasured) ∧
      passport.driftState = some "NOT_YET_MEASURED" := by
  obtain ⟨iso, hiso⟩ := hcompleted
  rw [build, requiredText_of_named hsource, ok_bind, requiredText_of_named hparser, ok_bind,
    requiredText_of_named hversion, ok_bind]
  simp only [hfailed, Bool.not_false, if_true]
  rw [unmeasured, requiredText_of_named hrun, ok_bind, timestamp, hiso]
  refine ⟨_, rfl, rfl, ?_, rfl⟩
  intro score hscore
  obtain ⟨name, -, rfl⟩ := List.mem_map.mp hscore
  rfl

omit hsource hparser hversion hrun

theorem passed_of_certified {passport : TelemetryPassport}
    (h : build sourceID parserID parserVersion (some evidence) = .ok passport)
    (hcertified : passport.certificationStatus = "CERTIFIED") : evidence.passed = true := by
  by_contra hfailed
  rw [Bool.not_eq_true] at hfailed
  obtain ⟨_, -, h⟩ := bind_eq_ok_iff.mp h
  obtain ⟨_, -, h⟩ := bind_eq_ok_iff.mp h
  obtain ⟨_, -, h⟩ := bind_eq_ok_iff.mp h
  simp only [hfailed, Bool.not_false, if_true] at h
  obtain ⟨_, -, h⟩ := bind_eq_ok_iff.mp h
  obtain ⟨_, -, h⟩ := bind_eq_ok_iff.mp h
  obtain ⟨_, -, h⟩ := bind_eq_ok_iff.mp h
  have hpassport := pure_eq_ok_iff.mp h
  rw [← hpassport] at hcertified
  exact absurd hcertified (by simp)

end Building

end Ulpf.Passport
