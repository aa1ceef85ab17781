import Ulpf.Contracts.DriftReport
import Ulpf.Drift.Guarantees
import Ulpf.Drift.StructuralReports
import Ulpf.SelfHealing.ReportDocuments
import Ulpf.SourceProfiler.Statistics

/-!
`DriftReport.to_dict` of what the two detectors report, and when the contract of drift assessments
accepts it.
-/

namespace Ulpf.Drift

open Ulpf.Lib
open Ulpf.Lib.Binary64 (fl roundTo)
open Ulpf.Python
open Ulpf.Python.IsoFormat (Showable readable_isoformat)
open Ulpf.SelfHealing (Instant isoTs rounded roundTo_four_mem valid_isBetween_iff)
open Ulpf.SourceProfiler (SourceProfile profile totalRecords_eq)

/-- The entries of `DriftSignals` and of `DriftThresholds`. -/
structure Readings where
  structural : Structural.DriftThresholds
  dpsRegression : Option ℚ
  enumDriftScore : Option ℚ
  criticalMappingDrift : Option ℚ
  eventFamilyDrift : Option ℚ

/-- An entry that a dictionary has when it is not `None`. -/
def optionalEntry (name : String) (x : Option ℚ) : List (String × ℚ) :=
  x.toList.map fun q => (name, q)

/-- The entries in the order of `to_dict`. -/
def Readings.entries (readings : Readings) : List (String × ℚ) :=
  [("parse_failure_rate", readings.structural.parseFailureRate),
    ("unknown_field_ratio", readings.structural.unknownFieldRatio),
    ("type_violation_rate", readings.structural.typeViolationRate),
    ("key_set_distance", readings.structural.keySetDistance),
    ("distribution_divergence", readings.structural.distributionDivergence)] ++
  (optionalEntry "dps_regression" readings.dpsRegression ++
  (optionalEntry "enum_drift_score" readings.enumDriftScore ++
  (optionalEntry "critical_mapping_drift" readings.criticalMappingDrift ++
  optionalEntry "event_family_drift" readings.eventFamilyDrift)))

/-- `to_dict`: signals are rounded, thresholds are not. -/
def Readings.toDict (write : ℚ → PyVal) (readings : Readings) : PyVal :=
  .obj (readings.entries.map fun entry => (entry.1, write entry.2))

/-- A float as it is. -/
def floatOf (x : ℚ) : PyVal := .float (.finite (x < 0) |x|)

/-- A report as both detectors make it. -/
structure Assessment where
  subject : Structural.Subject
  driftState : DriftState
  observedAt : Instant
  startTime : Instant
  endTime : Instant
  sampleCount : ℕ
  signals : Readings
  thresholds : Readings
  driftDetails : List String
  remediationRecommended : Bool

/-- `DriftState.value` -/
def DriftState.value : DriftState → String
  | stable => "STABLE"
  | suspected => "SUSPECTED"
  | drifted => "DRIFTED"

namespace Assessment

variable (r : Assessment)

def parserDict : PyVal :=
  .obj [("id", .str r.subject.parserId), ("version", .str r.subject.parserVersion)]

/-- The run the report compares with, if one was named. -/
def runId : PyVal :=
  match r.subject.baselineRunId with
  | some id => .str id
  | none => .null

def windowDict (startTime endTime : String) : PyVal :=
  .obj [("start_time", .str startTime), ("end_time", .str endTime), ("baseline_run_id", r.runId),
    ("sample_count", PyVal.int r.sampleCount)]

/-- `DriftReport.to_dict` -/
def toDict : Except PyError PyVal := do
  let observedAt ← isoTs r.observedAt
  let startTime ← isoTs r.startTime
  let endTime ← isoTs r.endTime
  return .obj [("schema_version", .str "1.0"), ("source_id", .str r.subject.sourceId),
    ("parser", r.parserDict), ("drift_state", .str r.driftState.value),
    ("observed_at", .str observedAt), ("window", r.windowDict startTime endTime),
    ("signals", r.signals.toDict rounded), ("thresholds", r.thresholds.toDict floatOf),
    ("drift_details", .arr (r.driftDetails.map .str)),
    ("remediation_recommended", .bool r.remediationRecommended)]

/-- `to_dict` writes a document, and the contract of drift assessments accepts it. -/
def MeetsContract : Prop :=
  ∃ doc, r.toDict = .ok doc ∧ Contracts.DriftReport.report doc = true

end Assessment

section Detectors

variable (u : Unicode) (order : Structural.SetOrder) (it : Interpreter) (thresholds : Readings)
  (subject : Structural.Subject) (now : Instant)

/-- What `compare_profiles` returns. -/
def assessStructuralDrift (baseline current : SourceProfile) : Assessment :=
  let report :=
    Structural.compareProfiles u order thresholds.structural baseline current subject now
  let signals := report.signals
  { subject := report.subject
    driftState := report.driftState
    observedAt := report.observedAt
    startTime := report.startTime
    endTime := report.endTime
    sampleCount := report.sampleCount
    signals := ⟨⟨signals.parseFailureRate, signals.unknownFieldRatio, signals.typeViolationRate,
      signals.keySetDistance, signals.distributionDivergence⟩, none, none, none, none⟩
    thresholds := thresholds
    driftDetails := report.driftDetails
    remediationRecommended := report.remediationRecommended }

/-- `detect_from_logs` -/
def detectFromLogs (mask : String → String) (sampleLimit : ℕ) (baseline : SourceProfile)
    (currentLogs : List String) : Except PyError Assessment := do
  let currentProfile ← profile u mask sampleLimit currentLogs
  return assessStructuralDrift u order thresholds subject now baseline currentProfile

/-- The thresholds of a semantic report: its own beside those of the structural detector. -/
def besides (semantic : SemanticDriftThresholds) : Readings :=
  ⟨thresholds.structural, semantic.dpsRegression, semantic.enumDriftScore,
    semantic.criticalMappingDrift, semantic.eventFamilyDrift⟩

/-- What `detect_semantic_drift` returns. -/
def assessSemanticDrift (semantic : SemanticDriftThresholds) (baselineSpec candidateSpec : PyVal)
    (baselineEvents candidateEvents : List PyVal) : Except PyError Assessment := do
  let report ← detectSemanticDrift it semantic baselineSpec candidateSpec baselineEvents
    candidateEvents
  return {
    subject := subject
    driftState := report.driftState
    observedAt := now
    startTime := now
    endTime := now
    sampleCount := report.sampleCount
    signals := ⟨⟨0, 0, 0, 0, 0⟩, report.signals.dpsRegression, report.signals.enumDriftScore,
      report.signals.criticalMappingDrift, report.signals.eventFamilyDrift⟩
    thresholds := besides thresholds semantic
    driftDetails := report.driftDetails
    remediationRecommended := report.remediationRecommended }

end Detectors

section Readings

variable {readings : Readings} {x : ℚ}

/-- Signals are shares, and so should thresholds be. -/
def Readings.AreShares (readings : Readings) : Prop :=
  ∀ entry ∈ readings.entries, entry.2 ∈ Set.Icc 0 1

theorem forall_mem_optionalEntry {name : String} {value : Option ℚ} {P : String × ℚ → Prop} :
    (∀ entry ∈ optionalEntry name value, P entry) ↔ ∀ q ∈ value, P (name, q) := by
  simp [optionalEntry]

theorem validMember_map_iff {names : List String} {contract : Contract PyNum} {name : String}
    {value : PyVal} :
    Contract.validMember false (names.map fun name => (name, contract)) name value = true ↔
      name ∈ names ∧ contract.valid value = true := by
  induction names with
  | nil => simp
  | cons first names ih =>
      rw [List.map_cons, Contract.validMember_cons]
      split
      · rename_i h
        simp [h]
      · rename_i h
        rw [ih, List.mem_cons, or_iff_right fun heq => h heq.symm]

theorem valid_readings_iff {write : ℚ → PyVal} :
    Contracts.DriftReport.readings.valid (readings.toDict write) = true ↔
      ∀ entry ∈ readings.entries,
        Contracts.RepairReport.unitInterval.valid (write entry.2) = true := by
  have hrequired : ∀ k ∈ Contracts.DriftReport.structuralNames,
      k ∈ (readings.entries.map fun entry => (entry.1, write entry.2)).map Prod.fst := by
    simp [Contracts.DriftReport.structuralNames, Readings.entries]
  have hdeclared : ∀ entry ∈ readings.entries, entry.1 ∈
      Contracts.DriftReport.structuralNames ++ Contracts.DriftReport.semanticNames := by
    rw [Readings.entries]
    simp only [List.forall_mem_append, List.forall_mem_cons, forall_mem_optionalEntry]
    simp [Contracts.DriftReport.structuralNames, Contracts.DriftReport.semanticNames]
  rw [Contracts.DriftReport.readings, Readings.toDict, Contract.valid_record_iff hrequired]
  simp only [List.forall_mem_map, validMember_map_iff]
  exact forall₂_congr fun entry hentry => and_iff_right (hdeclared entry hentry)

theorem valid_rounded (h : x ∈ Set.Icc 0 1) :
    Contracts.RepairReport.unitInterval.valid (rounded x) = true :=
  valid_isBetween_iff.mpr (roundTo_four_mem h)

theorem valid_floatOf_iff :
    Contracts.RepairReport.unitInterval.valid (floatOf x) = true ↔ x ∈ Set.Icc 0 1 := by
  have hread : Binary64.toRat? (.finite (x < 0) |x|) = some x := by
    rw [Binary64.toRat?]
    congr 1
    obtain hneg | hnonneg := lt_or_ge x 0
    · rw [decide_eq_true hneg, if_pos rfl, abs_of_neg hneg, neg_neg]
    · rw [decide_eq_false hnonneg.not_gt, if_neg Bool.false_ne_true, abs_of_nonneg hnonneg]
  rw [floatOf, Contracts.RepairReport.unitInterval]
  change Contract.valid _ (.num (PyNum.float _)) = true ↔ _
  rw [Contract.valid_number, Contracts.isBetween, hread]
  simp

theorem valid_signals (h : readings.AreShares) :
    Contracts.DriftReport.readings.valid (readings.toDict rounded) = true :=
  valid_readings_iff.mpr fun entry hentry => valid_rounded (h entry hentry)

theorem valid_thresholds_iff :
    Contracts.DriftReport.readings.valid (readings.toDict floatOf) = true ↔ readings.AreShares := by
  rw [valid_readings_iff]
  exact forall₂_congr fun _ _ => valid_floatOf_iff

end Readings

section Parts

variable {r : Assessment}

/-- A subject whose names a report may carry. -/
structure Named (subject : Structural.Subject) : Prop where
  sourceId : subject.sourceId ≠ ""
  parserId : subject.parserId ≠ ""
  parserVersion : Schema.matchesPattern Contracts.versionPattern subject.parserVersion = true

theorem valid_window {startTime endTime : String} (hstart : Contracts.isDateTime startTime = true)
    (hend : Contracts.isDateTime endTime = true) :
    Contracts.DriftReport.window (r.windowDict startTime endTime) = true := by
  have hcount : (Contract.number (Contracts.isInteger fun n => 0 ≤ n)).valid
      (PyVal.int r.sampleCount) = true := by
    change Contract.valid _ (.num (PyNum.int _)) = true
    rw [Contract.valid_number]
    simp [Contracts.isInteger]
  have hrun : Check.either Check.isString Check.isNull r.runId = true := by
    rw [Assessment.runId, Check.either_iff]
    split <;> simp
  rw [Contracts.DriftReport.window, Assessment.windowDict, Check.all_iff, List.forall_mem_cons,
    List.forall_mem_singleton, Contract.valid_record_iff (by simp), Check.onProperty_obj_iff]
  refine ⟨?_, fun value hvalue => ?_⟩
  · simp [Contracts.RepairReport.dateTime, hstart, hend, hcount]
  · cases hvalue
    exact hrun

theorem valid_parser_iff : Check.record [("id", Contract.nonempty.valid),
    ("version", Contracts.RepairReport.version.valid)] r.parserDict = true ↔
      r.subject.parserId ≠ "" ∧
        Schema.matchesPattern Contracts.versionPattern r.subject.parserVersion = true := by
  rw [Assessment.parserDict, Check.record_obj_iff, and_iff_right (by simp)]
  simp [Contracts.RepairReport.version, lookup]

theorem Assessment.meetsContract_iff (hsignals : r.signals.AreShares)
    (hstart : r.startTime = r.observedAt) (hend : r.endTime = r.observedAt) :
    r.MeetsContract ↔ Named r.subject ∧ Showable r.observedAt ∧ r.thresholds.AreShares := by
  have hstate : r.driftState.value ∈ ["STABLE", "SUSPECTED", "DRIFTED"] := by
    cases r.driftState <;> simp [DriftState.value]
  have hdetails : (Contract.array 0 .text).valid (.arr (r.driftDetails.map .str) : PyVal) =
      true := by
    simp
  by_cases hshown : Showable r.observedAt
  · have hdate : Contracts.isDateTime (Text.replaceAll (IsoFormat.isoformat r.observedAt)
        "+00:00" "Z") = true := readable_isoformat hshown
    have hwindow := valid_window (r := r) hdate hdate
    rw [and_iff_right hshown, MeetsContract, toDict, hstart, hend, isoTs, if_pos hshown,
      ← valid_thresholds_iff]
    simp only [ok_bind, pure_eq_ok_iff, exists_eq_left']
    rw [Contracts.DriftReport.report, Check.record_iff_forall₂ rfl (by simp)]
    simp only [List.forall₂_cons, List.forall₂_nil_left_iff]
    rw [valid_parser_iff, Contract.valid_nonempty_iff]
    constructor
    · rintro ⟨-, hsource, ⟨hparser, hversion⟩, -, -, -, -, hthresholds, -⟩
      exact ⟨⟨hsource, hparser, hversion⟩, hthresholds⟩
    · rintro ⟨hnamed, hthresholds⟩
      exact ⟨rfl, hnamed.sourceId, ⟨hnamed.parserId, hnamed.parserVersion⟩,
        Contract.valid_oneOf_iff.mpr hstate, (Contract.valid_string _ _).trans hdate, hwindow,
        valid_signals hsignals, hthresholds, hdetails, Contract.valid_boolean _, trivial⟩
  · refine iff_of_false ?_ fun h => hshown h.2.1
    rintro ⟨doc, hdoc, -⟩
    rw [toDict, isoTs, if_neg hshown] at hdoc
    cases hdoc

end Parts

section Signals

variable {u : Unicode} {order : Structural.SetOrder} {it : Interpreter} {thresholds : Readings}
  {subject : Structural.Subject} {now : Instant}

theorem areShares_mk {structural : Structural.DriftThresholds}
    {dps enums mappings families : Option ℚ}
    (hstructural : ∀ x ∈ [structural.parseFailureRate, structural.unknownFieldRatio,
      structural.typeViolationRate, structural.keySetDistance, structural.distributionDivergence],
      x ∈ Set.Icc 0 1)
    (hdps : ∀ x ∈ dps, x ∈ Set.Icc 0 1) (henums : ∀ x ∈ enums, x ∈ Set.Icc 0 1)
    (hmappings : ∀ x ∈ mappings, x ∈ Set.Icc 0 1) (hfamilies : ∀ x ∈ families, x ∈ Set.Icc 0 1) :
    (Readings.mk structural dps enums mappings families).AreShares := by
  rw [Readings.AreShares, Readings.entries]
  simp only [List.forall_mem_append, List.forall_mem_cons, forall_mem_optionalEntry]
  simp only [List.forall_mem_cons] at hstructural
  obtain ⟨hfailures, hunknown, hviolations, hdistance, hdivergence, -⟩ := hstructural
  exact ⟨⟨hfailures, hunknown, hviolations, hdistance, hdivergence, List.forall_mem_nil _⟩, hdps,
    henums, hmappings, hfamilies⟩

theorem signals_assessStructuralDrift {baseline current : SourceProfile}
    (h : current.corruptedRecords ≤ current.totalRecords) :
    (assessStructuralDrift u order thresholds subject now baseline current).signals.AreShares :=
  areShares_mk (Structural.driftSignals_mem_Icc h) nofun nofun nofun nofun

theorem fl_share_mem_Icc {m n : ℕ} (h : m ≤ n) : roundTo 4 (fl (m / n)) ∈ Set.Icc 0 1 :=
  roundTo_four_mem (Binary64.fl_ratio_mem_Icc h)

theorem checkCriticalMappingDrift_mem_Icc {baselineSpec candidateSpec : PyVal} {drift : ℚ}
    {details : List String}
    (h : checkCriticalMappingDrift baselineSpec candidateSpec = .ok (drift, details)) :
    drift ∈ Set.Icc 0 1 := by
  simp only [checkCriticalMappingDrift, bind_eq_ok_iff] at h
  obtain ⟨_, -, _, -, baseMap, -, candMap, -, h⟩ := h
  split at h
  · cases h
    exact ⟨le_rfl, zero_le_one⟩
  · cases h
    exact fl_share_mem_Icc (List.length_filterMap_le _ _)

theorem checkEnumBehaviorDrift_mem_Icc {baselineSpec candidateSpec : PyVal}
    {candidateEvents : List PyVal} {drift : ℚ} {details : List String}
    (h : checkEnumBehaviorDrift u baselineSpec candidateSpec candidateEvents =
      .ok (drift, details)) :
    drift ∈ Set.Icc 0 1 := by
  simp only [checkEnumBehaviorDrift, bind_eq_ok_iff] at h
  obtain ⟨_, -, _, -, _, -, _, -, _, -, _, -, _, -, inverted, -, h⟩ := h
  split at h
  · cases h
    exact ⟨zero_le_one, le_rfl⟩
  split at h
  · cases h
    exact ⟨le_rfl, zero_le_one⟩
  simp only [bind_eq_ok_iff] at h
  obtain ⟨known, -, flags, hflags, h⟩ := h
  cases h
  have hlength : flags.length = candidateEvents.length := mapM_length hflags
  exact fl_share_mem_Icc (hlength ▸ List.count_le_length)

theorem checkEventFamilyDrift_mem_Icc {semantic : SemanticDriftThresholds}
    {baselineEvents candidateEvents : List PyVal} {drift : ℚ} {details : List String}
    (h : checkEventFamilyDrift it semantic baselineEvents candidateEvents = .ok (drift, details)) :
    drift ∈ Set.Icc 0 1 := by
  rw [checkEventFamilyDrift] at h
  split at h
  · cases h
    exact ⟨le_rfl, zero_le_one⟩
  · simp only [bind_eq_ok_iff] at h
    obtain ⟨baseFamilies, -, candFamilies, -, h⟩ := h
    cases h
    exact roundTo_four_mem ⟨le_min zero_le_one (le_max_left 0 _), min_le_left 1 _⟩

theorem checkDpsRegression_mem_Icc {baselineEvents candidateEvents : List PyVal} {drop : ℚ}
    {details : List String}
    (h : checkDpsRegression u baselineEvents candidateEvents = .ok (drop, details)) :
    drop ∈ Set.Icc 0 1 := by
  simp only [checkDpsRegression, bind_eq_ok_iff] at h
  obtain ⟨⟨expected, preserved⟩, hbase, ⟨expected', preserved'⟩, hcand, h⟩ := h
  obtain ⟨rfl, rfl⟩ := evalBlockedPreservation_eq_ok hbase
  cases h
  apply roundTo_four_mem
  refine ⟨le_max_left 0 _, max_le zero_le_one ?_⟩
  split
  · have hbaseDps := Binary64.fl_ratio_mem_Icc (preservedBlocks_le u baselineEvents)
    have hcandDps : 0 ≤ fl ((preserved' : ℚ) / expectedBlocks u baselineEvents) :=
      Binary64.fl_nonneg (by positivity)
    rw [← Binary64.fl_one]
    apply Binary64.fl_monotone
    linarith [hbaseDps.2]
  · norm_num

theorem signals_assessSemanticDrift {semantic : SemanticDriftThresholds}
    {baselineSpec candidateSpec : PyVal} {baselineEvents candidateEvents : List PyVal}
    {r : Assessment}
    (h : assessSemanticDrift it thresholds subject now semantic baselineSpec candidateSpec
      baselineEvents candidateEvents = .ok r) :
    r.signals.AreShares ∧ r.subject = subject ∧ r.thresholds = besides thresholds semantic ∧
      r.observedAt = now ∧ r.startTime = now ∧ r.endTime = now := by
  obtain ⟨report, hreport, h⟩ := bind_eq_ok_iff.mp h
  simp only [detectSemanticDrift, bind_eq_ok_iff] at hreport
  obtain ⟨⟨crit, critDetails⟩, hcrit, ⟨enum, enumDetails⟩, henum, ⟨fam, famDetails⟩, hfam,
    ⟨dps, dpsDetails⟩, hdps, hreport⟩ := hreport
  cases hreport
  cases h
  refine ⟨areShares_mk ?_ ?_ ?_ ?_ ?_, rfl, rfl, rfl, rfl, rfl⟩
  · simp
  · rintro _ ⟨⟩
    exact checkDpsRegression_mem_Icc hdps
  · rintro _ ⟨⟩
    exact checkEnumBehaviorDrift_mem_Icc henum
  · rintro _ ⟨⟩
    exact checkCriticalMappingDrift_mem_Icc hcrit
  · rintro _ ⟨⟩
    exact checkEventFamilyDrift_mem_Icc hfam

end Signals

section Documents

/-- The arguments of a report that its contract says something about. -/
structure Reportable (subject : Structural.Subject) (now : Instant) (thresholds : Readings) :
    Prop where
  named : Named subject
  shown : Showable now
  shares : thresholds.AreShares

theorem reportable_iff {subject : Structural.Subject} {now : Instant} {thresholds : Readings} :
    Reportable subject now thresholds ↔ Named subject ∧ Showable now ∧ thresholds.AreShares :=
  ⟨fun h => ⟨h.named, h.shown, h.shares⟩, fun h => ⟨h.1, h.2.1, h.2.2⟩⟩

variable (u : Unicode) (order : Structural.SetOrder) (it : Interpreter) (thresholds : Readings)
  (subject : Structural.Subject) (now : Instant)

/-- What either detector reports satisfies the contract if and only if the names, the time and the
thresholds it was given do: of any logs and any events, the signals are shares. -/
theorem assessments_meetContract_iff :
    (∀ mask sampleLimit baseline currentLogs r,
      detectFromLogs u order thresholds subject now mask sampleLimit baseline currentLogs = .ok r →
      (r.MeetsContract ↔ Reportable subject now thresholds)) ∧
    ∀ semantic baselineSpec candidateSpec baselineEvents candidateEvents r,
      assessSemanticDrift it thresholds subject now semantic baselineSpec candidateSpec
        baselineEvents candidateEvents = .ok r →
      (r.MeetsContract ↔ Reportable subject now (besides thresholds semantic)) := by
  constructor
  · intro mask sampleLimit baseline currentLogs r h
    obtain ⟨current, hcurrent, h⟩ := bind_eq_ok_iff.mp h
    have hcorrupted : current.corruptedRecords ≤ current.totalRecords := by
      rw [totalRecords_eq hcurrent]
      omega
    cases h
    rw [Assessment.meetsContract_iff (signals_assessStructuralDrift hcorrupted) rfl rfl,
      reportable_iff]
    rfl
  · intro semantic baselineSpec candidateSpec baselineEvents candidateEvents r h
    obtain ⟨hsignals, hsubject, hthresholds, hnow, hstart, hend⟩ := signals_assessSemanticDrift h
    rw [Assessment.meetsContract_iff hsignals (hstart.trans hnow.symm) (hend.trans hnow.symm),
      hsubject, hthresholds, hnow, reportable_iff]

/-- The default thresholds of the structural detector. -/
def defaultThresholds : Readings := ⟨Structural.DriftThresholds.defaults, none, none, none, none⟩

def firewall : Structural.Subject := ⟨"fw", "fw-json", "1.0.0", none⟩

theorem areShares_defaults : defaultThresholds.AreShares := by
  refine areShares_mk ?_ nofun nofun nofun nofun
  simp only [Structural.DriftThresholds.defaults, List.forall_mem_cons]
  norm_num

theorem areShares_besides_defaults : (besides defaultThresholds .defaults).AreShares := by
  refine areShares_mk ?_ ?_ ?_ ?_ ?_
  · simp only [defaultThresholds, Structural.DriftThresholds.defaults, List.forall_mem_cons]
    norm_num
  · rintro _ ⟨⟩
    exact ⟨le_rfl, zero_le_one⟩
  · rintro _ ⟨⟩
    exact Binary64.fl_mem_Icc (by norm_num)
  · rintro _ ⟨⟩
    exact ⟨le_rfl, zero_le_one⟩
  · rintro _ ⟨⟩
    exact Binary64.fl_mem_Icc (by norm_num)

theorem named_firewall : Named firewall := ⟨by decide, by decide, by decide⟩

/-- Logs of another shape than the baseline, and a candidate that turns an outcome around. -/
theorem assessments_meetContract_iff_firewall :
    (∃ r, detectFromLogs Unicode.ascii Structural.insertionOrder defaultThresholds firewall 0
      (fun message => message) 1000 Structural.steadyProfile
      ["\x7b\"level\":3\x7d", "restarted"] = .ok r ∧ r.MeetsContract) ∧
    ∃ r, assessSemanticDrift plainInterpreter defaultThresholds firewall 0 .defaults
      (outcomeSpec "success") (outcomeSpec "failure") [] [] = .ok r ∧ r.MeetsContract := by
  obtain ⟨hlogs, hevents⟩ := assessments_meetContract_iff Unicode.ascii Structural.insertionOrder
    plainInterpreter defaultThresholds firewall 0
  have hread : (profile Unicode.ascii (fun message => message) 1000
      ["\x7b\"level\":3\x7d", "restarted"]).toBool = true := by
    decide +kernel
  have hdetect : ∃ r, detectFromLogs Unicode.ascii Structural.insertionOrder defaultThresholds
      firewall 0 (fun message => message) 1000 Structural.steadyProfile
      ["\x7b\"level\":3\x7d", "restarted"] = .ok r := by
    rw [detectFromLogs]
    cases hprofile : profile Unicode.ascii (fun message => message) 1000
        ["\x7b\"level\":3\x7d", "restarted"] with
    | error err =>
        rw [hprofile] at hread
        cases hread
    | ok current => exact ⟨_, rfl⟩
  have hassess : ∃ r, assessSemanticDrift plainInterpreter defaultThresholds firewall 0 .defaults
      (outcomeSpec "success") (outcomeSpec "failure") [] [] = .ok r := by
    rw [assessSemanticDrift, detectSemanticDrift_outcome]
    exact ⟨_, rfl⟩
  obtain ⟨r, hr⟩ := hdetect
  obtain ⟨r', hr'⟩ := hassess
  have hshown : Showable 0 := by decide
  exact ⟨⟨r, hr, (hlogs _ _ _ _ r hr).mpr ⟨named_firewall, hshown, areShares_defaults⟩⟩,
    r', hr', (hevents _ _ _ _ _ r' hr').mpr
      ⟨named_firewall, hshown, areShares_besides_defaults⟩⟩

end Documents

end Ulpf.Drift
