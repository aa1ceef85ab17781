import Ulpf.Contracts.ShadowComparison
import Ulpf.SelfHealing.ReportDocuments
import Ulpf.Shadow.Divergences

/-!
`ShadowComparisonReport.to_dict`, and when what it writes satisfies the contract of shadow runs.
-/

namespace Ulpf.Shadow

open Ulpf.Lib
open Ulpf.Lib.Binary64 (fl roundTo roundHalfEven)
open Ulpf.Python
open Ulpf.Python.IsoFormat (Showable readable_isoformat)
open Ulpf.SelfHealing (Instant isoTs rounded toRat?_rounded roundTo_four_mem valid_isBetween_iff
  NonemptyText VersionText valid_nonemptyText_iff valid_versionText_iff)

/-- `divergence_type` -/
def DivergenceType.value : DivergenceType → String
  | valueMismatch => "VALUE_MISMATCH"
  | fieldMissingInCandidate => "FIELD_MISSING_IN_CANDIDATE"
  | newFieldInCandidate => "NEW_FIELD_IN_CANDIDATE"
  | typeMismatch => "TYPE_MISMATCH"

/-- `ShadowRecommendation.value` -/
def ShadowRecommendation.value : ShadowRecommendation → String
  | readyForPromotion => "READY_FOR_PROMOTION"
  | reject => "REJECT"
  | requireHumanReview => "REQUIRE_HUMAN_REVIEW"

/-- `ShadowMetrics.to_dict` -/
def ShadowMetrics.toDict (m : ShadowMetrics) : PyVal :=
  .obj [("field_match_rate", rounded m.fieldMatchRate),
    ("critical_semantic_divergence", rounded m.criticalSemanticDivergence),
    ("unknown_field_retention", rounded m.unknownFieldRetention),
    ("active_dps", rounded m.activeDps), ("candidate_dps", rounded m.candidateDps),
    ("dps_delta", rounded m.dpsDelta), ("active_latency_p95_ms", rounded m.activeLatencyP95Ms),
    ("candidate_latency_p95_ms", rounded m.candidateLatencyP95Ms),
    ("latency_delta_pct", PyVal.float (.finite (roundTo 2 m.latencyDeltaPct < 0)
      |roundTo 2 m.latencyDeltaPct|))]

/-- `FieldDivergence.to_dict`; the comparator gives every divergence an example. -/
def FieldDivergence.toDict (d : FieldDivergence) : PyVal :=
  .obj [("field", .str d.field), ("match_rate", rounded d.matchRate),
    ("divergence_type", .str d.divergence.type.value),
    ("example_mismatch",
      .obj [("active", d.divergence.active), ("candidate", d.divergence.candidate)])]

/-- A parser as its spec names it, with values the comparator does not check. -/
structure ParserIdentity where
  id : PyVal
  version : PyVal

def ParserIdentity.toDict (parser : ParserIdentity) : PyVal :=
  .obj [("id", parser.id), ("version", parser.version)]

/-- The arguments of `compare`. -/
structure ComparisonCall where
  sourceId : String
  activeParser : ParserIdentity
  candidateParser : ParserIdentity
  activeEvents : List Event
  candidateEvents : List Event
  activeLatenciesMs : List ℚ
  candidateLatenciesMs : List ℚ
  downstreamIsolationVerified : Bool
  startTime : Option Instant
  endTime : Option Instant
  evaluatedAt : Option Instant

/-- The report with its identifiers, times and divergences. -/
structure ComparisonRecord where
  sourceId : String
  activeParser : ParserIdentity
  candidateParser : ParserIdentity
  evaluatedAt : Instant
  startTime : Instant
  endTime : Instant
  report : ShadowComparisonReport
  fieldDivergences : List FieldDivergence
  recommendationReasons : List String

/-- `compare` by a clock that shows `clock`. The texts that say why are an argument. -/
def ComparisonCall.record (u : Unicode) (clock : Instant) (reasons : List String)
    (call : ComparisonCall) : Except PyError ComparisonRecord := do
  let now := call.evaluatedAt.getD clock
  let (_, divergences) ← evaluateFieldDivergences call.activeEvents call.candidateEvents
  let report ← compare u call.activeEvents call.candidateEvents call.activeLatenciesMs
    call.candidateLatenciesMs call.downstreamIsolationVerified
  return {
    sourceId := call.sourceId
    activeParser := call.activeParser
    candidateParser := call.candidateParser
    evaluatedAt := now
    startTime := call.startTime.getD now
    endTime := call.endTime.getD now
    report := report
    fieldDivergences := divergences
    recommendationReasons := reasons }

namespace ComparisonRecord

variable (r : ComparisonRecord)

def window (startTime endTime : String) : PyVal :=
  .obj [("start_time", .str startTime), ("end_time", .str endTime),
    ("sample_count", PyVal.int r.report.sampleCount)]

/-- `ShadowComparisonReport.to_dict` -/
def toDict : Except PyError PyVal := do
  let evaluatedAt ← isoTs r.evaluatedAt
  let startTime ← isoTs r.startTime
  let endTime ← isoTs r.endTime
  return .obj [("schema_version", .str "1.0"), ("source_id", .str r.sourceId),
    ("active_parser", r.activeParser.toDict), ("candidate_parser", r.candidateParser.toDict),
    ("shadow_state", .str r.report.shadowState.value), ("evaluated_at", .str evaluatedAt),
    ("evaluation_window", r.window startTime endTime), ("metrics", r.report.metrics.toDict),
    ("field_divergences", .arr (r.fieldDivergences.map FieldDivergence.toDict)),
    ("downstream_isolation_verified", .bool r.report.downstreamIsolationVerified),
    ("recommendation", .str r.report.recommendation.value),
    ("recommendation_reasons", .arr (r.recommendationReasons.map .str))]

/-- `to_dict` writes a document, and the contract of shadow runs accepts it. -/
def MeetsContract : Prop :=
  ∃ doc, r.toDict = .ok doc ∧ Contracts.ShadowComparison.report.valid doc = true

end ComparisonRecord

section Ranges

variable {q : ℚ}

theorem roundTo_neg_le (h : q < -1 / 20000) : roundTo 4 q ≤ fl (-1 / 10000) := by
  have hround : roundHalfEven (q * (10 ^ 4 : ℕ)) < 0 := by
    have hspec := (Binary64.roundHalfEven_spec (q * (10 ^ 4 : ℕ))).1.1
    by_contra hnonneg
    have hcast : (0 : ℚ) ≤ roundHalfEven (q * (10 ^ 4 : ℕ)) := by exact_mod_cast not_lt.mp hnonneg
    push_cast at hspec hcast
    linarith
  have hcast : (roundHalfEven (q * (10 ^ 4 : ℕ)) : ℚ) ≤ -1 := by
    exact_mod_cast Int.le_sub_one_of_lt hround
  rw [Binary64.roundTo_eq]
  apply Binary64.fl_monotone
  push_cast at hcast ⊢
  linarith

theorem roundTo_nonneg_iff : 0 ≤ roundTo 4 q ↔ -1 / 20000 ≤ q := by
  constructor
  · intro h
    by_contra hlt
    have hneg : fl (-1 / 10000) < 0 := by decide +kernel
    exact absurd (h.trans (roundTo_neg_le (not_le.mp hlt))) hneg.not_ge
  · intro h
    have hzero : roundTo 4 (-1 / 20000) = 0 := by decide +kernel
    exact hzero ▸ Binary64.roundTo_monotone 4 h

theorem roundTo_roundTo_nonneg_iff : 0 ≤ roundTo 4 (roundTo 4 q) ↔ -1 / 20000 ≤ q := by
  rw [roundTo_nonneg_iff]
  constructor
  · intro h
    by_contra hlt
    have hfar : fl (-1 / 10000) < -1 / 20000 := by decide +kernel
    exact absurd (h.trans (roundTo_neg_le (not_le.mp hlt))) hfar.not_ge
  · intro h
    exact le_trans (by norm_num) (roundTo_nonneg_iff.mpr h)

theorem valid_isAtLeast_iff : (Contract.number (Contracts.isAtLeast 0)).valid (rounded q) = true ↔
    0 ≤ roundTo 4 q := by
  rw [rounded]
  change Contract.valid _ (.num (PyNum.float _)) = true ↔ _
  rw [Contract.valid_number, Contracts.isAtLeast, toRat?_rounded]
  simp

end Ranges

section Metrics

/-- The metrics that do not depend on a clock are in the ranges of the contract. -/
structure ShadowMetrics.InRange (m : ShadowMetrics) : Prop where
  fieldMatchRate : m.fieldMatchRate ∈ Set.Icc 0 1
  criticalSemanticDivergence : m.criticalSemanticDivergence ∈ Set.Icc 0 1
  unknownFieldRetention : m.unknownFieldRetention ∈ Set.Icc 0 1
  activeDps : m.activeDps ∈ Set.Icc 0 1
  candidateDps : m.candidateDps ∈ Set.Icc 0 1
  dpsDelta : m.dpsDelta ∈ Set.Icc (-1) 1

variable {u : Unicode} {active candidate : List Event} {activeLat candLat : List ℚ}
  {isolation : Bool} {report : ShadowComparisonReport} {m : ShadowMetrics}

theorem roundTo_calcDps_mem_Icc (u : Unicode) (events : List Event) :
    roundTo 4 (calcDps u events) ∈ Set.Icc 0 1 := by
  rw [calcDps_eq]
  exact Binary64.roundTo_mem_Icc fourPlaces (share_mem_Icc (isPreserved_le u events))

theorem inRange_of_compare
    (h : compare u active candidate activeLat candLat isolation = .ok report) :
    report.metrics.InRange := by
  obtain ⟨hrate, hdelta⟩ := metrics_mem_Icc h
  obtain ⟨vs, hvs⟩ := views_of_compare ⟨report, h⟩
  rw [compare_of_views hvs] at h
  cases h
  exact
    { fieldMatchRate := hrate
      criticalSemanticDivergence := Binary64.roundTo_mem_Icc fourPlaces
        (Binary64.fl_ratio_mem_Icc List.countP_le_length)
      unknownFieldRetention := Binary64.roundTo_mem_Icc fourPlaces
        (share_mem_Icc (unknownCounts_tally_le vs))
      activeDps := roundTo_calcDps_mem_Icc u active
      candidateDps := roundTo_calcDps_mem_Icc u candidate
      dpsDelta := hdelta }

theorem latencies_of_compare
    (h : compare u active candidate activeLat candLat isolation = .ok report) :
    report.metrics.activeLatencyP95Ms = roundTo 4 (p95 (latenciesOr activeLat)) ∧
      report.metrics.candidateLatencyP95Ms = roundTo 4 (p95 (latenciesOr candLat)) := by
  obtain ⟨vs, hvs⟩ := views_of_compare ⟨report, h⟩
  rw [compare_of_views hvs] at h
  cases h
  exact ⟨rfl, rfl⟩

theorem valid_metrics_iff (h : m.InRange) :
    Contracts.ShadowComparison.metrics.valid m.toDict = true ↔
      0 ≤ roundTo 4 m.activeLatencyP95Ms ∧ 0 ≤ roundTo 4 m.candidateLatencyP95Ms := by
  rw [Contracts.ShadowComparison.metrics, ShadowMetrics.toDict, Contract.valid_record_iff (by simp)]
  simp only [List.forall_mem_cons, Contract.validMember_cons, String.reduceEq, if_true, if_false,
    Contracts.RepairReport.unitInterval, valid_isBetween_iff, valid_isAtLeast_iff]
  have hpct : (Contract.number fun _ : PyNum => true).valid (PyVal.float (.finite
      (roundTo 2 m.latencyDeltaPct < 0) |roundTo 2 m.latencyDeltaPct|)) = true :=
    Contract.valid_number _ _
  constructor
  · rintro ⟨-, -, -, -, -, -, hactive, hcandidate, -⟩
    exact ⟨hactive, hcandidate⟩
  · rintro ⟨hactive, hcandidate⟩
    exact ⟨roundTo_four_mem h.fieldMatchRate, roundTo_four_mem h.criticalSemanticDivergence,
      roundTo_four_mem h.unknownFieldRetention, roundTo_four_mem h.activeDps,
      roundTo_four_mem h.candidateDps, roundTo_signed h.dpsDelta, hactive, hcandidate, hpct,
      List.forall_mem_nil _⟩

end Metrics

section Divergences

variable {flats : List (Dict String PyVal × Dict String PyVal)} {d : FieldDivergence}

theorem matchRate_mem_Icc {k : String} (h : divergenceOf k flats = some d) :
    d.matchRate ∈ Set.Icc 0 1 := by
  obtain ⟨divergence, -, rfl⟩ := Option.map_eq_some_iff.mp h
  have hcounts : flats.countP (agreesAt k) ≤ flats.countP fun p => p.1.contains k := by
    apply List.countP_mono_left
    intro p _ hagrees
    rw [agreesAt, Bool.and_eq_true] at hagrees
    exact hagrees.1
  apply Binary64.roundTo_mem_Icc fourPlaces
  split
  · exact ⟨zero_le_one, le_rfl⟩
  · exact Binary64.fl_ratio_mem_Icc hcounts

theorem valid_fieldDivergence_iff (h : d.matchRate ∈ Set.Icc 0 1) :
    Contracts.ShadowComparison.fieldDivergence.valid d.toDict = true ↔ d.field ≠ "" := by
  have htype : d.divergence.type.value ∈ ["VALUE_MISMATCH", "FIELD_MISSING_IN_CANDIDATE",
      "NEW_FIELD_IN_CANDIDATE", "TYPE_MISMATCH"] := by
    cases d.divergence.type <;> simp [DivergenceType.value]
  have hexample : Contracts.ShadowComparison.exampleMismatch.valid
      (.obj [("active", d.divergence.active), ("candidate", d.divergence.candidate)]) = true := by
    rw [Contracts.ShadowComparison.exampleMismatch, Contract.valid_record_iff (by simp)]
    simp
  rw [Contracts.ShadowComparison.fieldDivergence, FieldDivergence.toDict,
    Contract.valid_record_iff (by simp)]
  simp only [List.forall_mem_cons, Contract.validMember_cons, String.reduceEq, if_true, if_false,
    Contract.valid_nonempty_iff, Contracts.RepairReport.unitInterval, valid_isBetween_iff,
    Contract.valid_oneOf_iff, hexample]
  exact ⟨fun hvalid => hvalid.1,
    fun hname => ⟨hname, roundTo_four_mem h, htype, trivial, List.forall_mem_nil _⟩⟩

theorem forall_field_ne_iff {divergences : List FieldDivergence}
    (hmem : ∀ d, d ∈ divergences ↔ divergenceOf d.field flats = some d) (k : String) :
    (∀ d ∈ divergences, d.field ≠ k) ↔ ∀ p ∈ flats, divergenceAt k p = none := by
  rw [← List.findSome?_eq_none_iff]
  constructor
  · intro hne
    by_contra hsome
    obtain ⟨divergence, hdivergence⟩ := Option.ne_none_iff_exists'.mp hsome
    have hof : ∃ d, divergenceOf k flats = some d ∧ d.field = k := by
      rw [divergenceOf, hdivergence]
      exact ⟨_, rfl, rfl⟩
    obtain ⟨d, hd, rfl⟩ := hof
    exact hne d ((hmem d).mpr hd) rfl
  · rintro hnone d hd rfl
    have hof := (hmem d).mp hd
    rw [divergenceOf, hnone] at hof
    cases hof

end Divergences

section Documents

variable {u : Unicode} {clock : Instant} {reasons : List String} {call : ComparisonCall}
  {r : ComparisonRecord}

/-- A parser whose names a report may carry. -/
def ParserIdentity.Named (parser : ParserIdentity) : Prop :=
  NonemptyText parser.id ∧ VersionText parser.version

/-- A call whose report can be written as its contract wants it. -/
structure ComparisonCall.Reportable (clock : Instant) (call : ComparisonCall) : Prop where
  sourceId : call.sourceId ≠ ""
  active : call.activeParser.Named
  candidate : call.candidateParser.Named
  evaluated : Showable (call.evaluatedAt.getD clock)
  started : Showable (call.startTime.getD (call.evaluatedAt.getD clock))
  ended : Showable (call.endTime.getD (call.evaluatedAt.getD clock))
  activeLatency : -1 / 20000 ≤ p95 (latenciesOr call.activeLatenciesMs)
  candidateLatency : -1 / 20000 ≤ p95 (latenciesOr call.candidateLatenciesMs)
  named : ∀ flats, flatPairs call.activeEvents call.candidateEvents = .ok flats →
    ∀ p ∈ flats, divergenceAt "" p = none

theorem valid_parser_iff {parser : ParserIdentity} :
    Contracts.ShadowComparison.parser.valid parser.toDict = true ↔ parser.Named := by
  rw [Contracts.ShadowComparison.parser, ParserIdentity.toDict,
    Contract.valid_record_iff (by simp)]
  simp [valid_nonemptyText_iff, valid_versionText_iff, ParserIdentity.Named]

theorem isoTs_eq_ok_iff {t : Instant} {text : String} :
    isoTs t = .ok text ↔
      Showable t ∧ Text.replaceAll (IsoFormat.isoformat t) "+00:00" "Z" = text := by
  rw [isoTs]
  split
  · rename_i h
    simp [h]
  · rename_i h
    simp [h]

theorem valid_window {startTime endTime : String} (hstart : Contracts.isDateTime startTime = true)
    (hend : Contracts.isDateTime endTime = true) :
    Contracts.ShadowComparison.evaluationWindow.valid (r.window startTime endTime) = true := by
  rw [Contracts.ShadowComparison.evaluationWindow, ComparisonRecord.window,
    Contract.valid_record_iff (by simp)]
  simp only [List.forall_mem_cons, Contract.validMember_cons, String.reduceEq, if_true, if_false,
    Contracts.RepairReport.dateTime, Contract.valid_string, hstart, hend]
  refine ⟨trivial, trivial, ?_, List.forall_mem_nil _⟩
  change Contract.valid _ (.num (PyNum.int _)) = true
  rw [Contract.valid_number]
  simp [Contracts.isInteger]

theorem ComparisonRecord.meetsContract_iff (hmetrics : r.report.metrics.InRange)
    (hrates : ∀ d ∈ r.fieldDivergences, d.matchRate ∈ Set.Icc 0 1) :
    r.MeetsContract ↔ (Showable r.evaluatedAt ∧ Showable r.startTime ∧ Showable r.endTime) ∧
      r.sourceId ≠ "" ∧ r.activeParser.Named ∧ r.candidateParser.Named ∧
      (0 ≤ roundTo 4 r.report.metrics.activeLatencyP95Ms ∧
        0 ≤ roundTo 4 r.report.metrics.candidateLatencyP95Ms) ∧
      ∀ d ∈ r.fieldDivergences, d.field ≠ "" := by
  have hstate : r.report.shadowState.value ∈ ["PASSED", "FAILED", "SUSPECTED"] := by
    cases r.report.shadowState <;> simp [ShadowState.value]
  have hrecommendation : r.report.recommendation.value ∈
      ["READY_FOR_PROMOTION", "REJECT", "REQUIRE_HUMAN_REVIEW"] := by
    cases r.report.recommendation <;> simp [ShadowRecommendation.value]
  have hdivergences : (∀ d ∈ r.fieldDivergences,
      Contracts.ShadowComparison.fieldDivergence.valid d.toDict = true) ↔
      ∀ d ∈ r.fieldDivergences, d.field ≠ "" :=
    forall₂_congr fun d hd => valid_fieldDivergence_iff (hrates d hd)
  by_cases hshown : Showable r.evaluatedAt ∧ Showable r.startTime ∧ Showable r.endTime
  · obtain ⟨hevaluated, hstart, hend⟩ := hshown
    have hwindow := valid_window (r := r) (readable_isoformat hstart) (readable_isoformat hend)
    have hdate : Contracts.isDateTime (Text.replaceAll (IsoFormat.isoformat r.evaluatedAt)
        "+00:00" "Z") = true := readable_isoformat hevaluated
    rw [and_iff_right ⟨hevaluated, hstart, hend⟩, MeetsContract, toDict, isoTs, isoTs, isoTs,
      if_pos hevaluated, if_pos hstart, if_pos hend, ← hdivergences, ← valid_metrics_iff hmetrics,
      ← valid_parser_iff, ← valid_parser_iff]
    simp only [ok_bind, pure_eq_ok_iff, exists_eq_left']
    rw [Contracts.ShadowComparison.report, Contract.valid_record_iff (by simp)]
    simp [hstate, hrecommendation, hwindow, hdate, Contracts.RepairReport.dateTime]
  · refine iff_of_false ?_ fun h => hshown h.1
    rintro ⟨doc, hdoc, -⟩
    rw [toDict] at hdoc
    obtain ⟨_, hevaluated, hdoc⟩ := bind_eq_ok_iff.mp hdoc
    obtain ⟨_, hstart, hdoc⟩ := bind_eq_ok_iff.mp hdoc
    obtain ⟨_, hend, -⟩ := bind_eq_ok_iff.mp hdoc
    exact hshown ⟨(isoTs_eq_ok_iff.mp hevaluated).1, (isoTs_eq_ok_iff.mp hstart).1,
      (isoTs_eq_ok_iff.mp hend).1⟩

/-- The record of a shadow run satisfies its contract if and only if the source and the parsers have
the names and the times that the contract wants, no latency is negative beyond rounding and no pair
of events diverges on a field without a name. -/
theorem record_meetsContract_iff (h : call.record u clock reasons = .ok r) :
    r.MeetsContract ↔ call.Reportable clock := by
  obtain ⟨⟨rate, divergences⟩, hdivergences, h⟩ := bind_eq_ok_iff.mp h
  obtain ⟨report, hreport, h⟩ := bind_eq_ok_iff.mp h
  obtain ⟨flats, hflats, hmem⟩ := exists_flatPairs hdivergences
  obtain ⟨hactive, hcandidate⟩ := latencies_of_compare hreport
  cases h
  have hnamed : (∀ d ∈ divergences, d.field ≠ "") ↔ ∀ flats',
      flatPairs call.activeEvents call.candidateEvents = .ok flats' →
      ∀ p ∈ flats', divergenceAt "" p = none := by
    rw [forall_field_ne_iff hmem, hflats]
    simp
  rw [ComparisonRecord.meetsContract_iff (inRange_of_compare hreport)
    fun d hd => matchRate_mem_Icc ((hmem d).mp hd)]
  dsimp only
  rw [hactive, hcandidate, roundTo_roundTo_nonneg_iff, roundTo_roundTo_nonneg_iff, hnamed]
  constructor
  · rintro ⟨⟨hevaluated, hstart, hend⟩, hsource, hactive, hcandidate, ⟨hactiveLat, hcandLat⟩,
      hnamed⟩
    exact ⟨hsource, hactive, hcandidate, hevaluated, hstart, hend, hactiveLat, hcandLat, hnamed⟩
  · intro h
    exact ⟨⟨h.evaluated, h.started, h.ended⟩, h.sourceId, h.active, h.candidate,
      ⟨h.activeLatency, h.candidateLatency⟩, h.named⟩

/-- A firewall whose ports have become texts. -/
def portCall : ComparisonCall where
  sourceId := "fw"
  activeParser := ⟨.str "fw-kv", .str "1.0.0"⟩
  candidateParser := ⟨.str "fw-kv", .str "1.1.0"⟩
  activeEvents := [portEvent (PyVal.int 443) []]
  candidateEvents := [portEvent (.str "443") [(.str "user.name", .str "root")]]
  activeLatenciesMs := []
  candidateLatenciesMs := []
  downstreamIsolationVerified := true
  startTime := none
  endTime := none
  evaluatedAt := none

theorem record_meetsContract_iff_port : ∃ r,
    portCall.record Unicode.ascii 0 ["Field match rate"] = .ok r ∧ r.MeetsContract := by
  have hflats : flatPairs portCall.activeEvents portCall.candidateEvents =
      .ok [(Dict.ofList [("dst.port", PyVal.int 443)],
        Dict.ofList [("dst.port", .str "443"), ("user.name", .str "root")])] := by
    decide +kernel
  obtain ⟨vs, hvs⟩ := views_of_flatPairs ⟨_, hflats⟩
  have hrecord : ∃ r, portCall.record Unicode.ascii 0 ["Field match rate"] = .ok r := by
    rw [ComparisonCall.record, evaluateFieldDivergences_eq, hflats, compare_of_views hvs]
    exact ⟨_, rfl⟩
  obtain ⟨r, hr⟩ := hrecord
  have hlatency : -1 / 20000 ≤ p95 (latenciesOr []) := by
    rw [latenciesOr, p95]
    norm_num
  refine ⟨r, hr, (record_meetsContract_iff hr).mpr ?_⟩
  refine ⟨by decide, ⟨⟨_, rfl, by decide⟩, _, rfl, by decide⟩,
    ⟨⟨_, rfl, by decide⟩, _, rfl, by decide⟩, by decide, by decide, by decide, hlatency, hlatency,
    ?_⟩
  rw [hflats]
  rintro flats ⟨⟩ p hp
  rw [List.mem_singleton.mp hp]
  decide +kernel

end Documents

end Ulpf.Shadow
