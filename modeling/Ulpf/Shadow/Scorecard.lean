import Ulpf.Lib.Outcome
import Ulpf.Lib.Rounding
import Ulpf.Shadow.Comparator

/-!
The verdict of `compare` as a function of counts. Both lists of events are
paired once; each of the metric loops counts over these pairs, and the gates on
the rounded metrics are gates on the counts.
-/

namespace Ulpf.Shadow

open Ulpf.Lib
open Ulpf.Lib.Binary64 (fl roundTo roundHalfEven)
open Ulpf.Python

/-- What the metrics read of two events of one index. -/
structure PairView where
  act : Dict String PyVal
  cand : Dict String PyVal
  unknowns : List (PyVal × PyVal)
  candUnknowns : Option (List (PyVal × PyVal))

/-- The view of two events, if both flatten. -/
def viewPair (pair : Event × Event) : Except PyError PairView := do
  let act ← flattenEvent pair.1
  let cand ← flattenEvent pair.2
  return ⟨act, cand, pair.1.unknowns?.getD [], pair.2.unknowns?⟩

def views (active candidate : List Event) : Except PyError (List PairView) :=
  (active.zip candidate).mapM viewPair

namespace PairView

variable (u : Unicode) (v : PairView)

/-- Fields of the active event, and those the candidate repeats. -/
def fieldCounts : ℕ × ℕ := (v.act.entries.length, matchedKeys v.act v.cand)

def diverged : Bool := eventDiverged u v.act v.cand

/-- Unknown fields of the active event, and those the candidate retains. -/
def unknownCounts : ℕ × ℕ :=
  (v.unknowns.length, v.unknowns.countP (unknownRetained v.candUnknowns v.cand))

end PairView

/-- Two counts added up over a list. -/
def tally {α : Type} (counts : α → ℕ × ℕ) (xs : List α) : ℕ × ℕ :=
  ((xs.map fun x => (counts x).1).sum, (xs.map fun x => (counts x).2).sum)

/-- A float quotient of a part and its total, one when there is nothing to count. -/
def share (counts : ℕ × ℕ) : ℚ := if 0 < counts.1 then ratio counts.2 counts.1 else 1

section Metrics

variable {u : Unicode} {active candidate : List Event}

theorem viewPair_eq_ok_iff {pair : Event × Event} {v : PairView} :
    viewPair pair = .ok v ↔ flattenEvent pair.1 = .ok v.act ∧ flattenEvent pair.2 = .ok v.cand ∧
      v.unknowns = pair.1.unknowns?.getD [] ∧ v.candUnknowns = pair.2.unknowns? := by
  obtain ⟨act, cand, unknowns, candUnknowns⟩ := v
  simp only [viewPair, bind_eq_ok_iff, pure_eq_ok_iff, PairView.mk.injEq]
  constructor
  · rintro ⟨_, hact, _, hcand, rfl, rfl, rfl, rfl⟩
    exact ⟨hact, hcand, rfl, rfl⟩
  · rintro ⟨hact, hcand, rfl, rfl⟩
    exact ⟨act, hact, cand, hcand, rfl, rfl, rfl, rfl⟩

theorem length_views {vs : List PairView} (h : views active candidate = .ok vs) :
    vs.length = min active.length candidate.length := by
  rw [mapM_length h, List.length_zip]

theorem flatPairs_of_views {vs : List PairView} (h : views active candidate = .ok vs) :
    flatPairs active candidate = .ok (vs.map fun v => (v.act, v.cand)) := by
  refine mapM_map_of_eq ?_ h
  intro pair v hv
  obtain ⟨hact, hcand, -, -⟩ := viewPair_eq_ok_iff.mp hv
  simp only [hact, hcand, ok_bind]
  rfl

theorem retentionCounts_of_views {vs : List PairView} (h : views active candidate = .ok vs) :
    ((active.zip candidate).mapM fun pair => retentionCounts pair.1 pair.2) =
      .ok (vs.map PairView.unknownCounts) := by
  refine mapM_map_of_eq ?_ h
  intro pair v hv
  obtain ⟨-, hcand, hunknowns, hcandUnknowns⟩ := viewPair_eq_ok_iff.mp hv
  rw [retentionCounts, hcand, ok_bind, PairView.unknownCounts, hunknowns, hcandUnknowns]
  rfl

theorem views_of_flatPairs (h : Returns (flatPairs active candidate)) :
    Returns (views active candidate) := by
  rw [flatPairs, returns_mapM_iff] at h
  rw [views, returns_mapM_iff]
  intro pair hpair
  obtain ⟨flats, hflats⟩ := h pair hpair
  simp only [bind_eq_ok_iff] at hflats
  obtain ⟨act, hact, cand, hcand, -⟩ := hflats
  rw [viewPair, hact, ok_bind, hcand, ok_bind]
  exact returns_pure _

theorem views_of_isEmpty (h : active.isEmpty = true ∨ candidate.isEmpty = true) :
    views active candidate = .ok [] := by
  obtain h | h := h
  · rw [List.isEmpty_iff.mp h]
    rfl
  · rw [List.isEmpty_iff.mp h, views, List.zip_nil_right]
    rfl

theorem evaluateFieldCongruence_of_views {vs : List PairView}
    (h : views active candidate = .ok vs) :
    evaluateFieldCongruence active candidate =
      .ok (roundTo 4 (share (tally PairView.fieldCounts vs))) := by
  rw [evaluateFieldCongruence]
  split
  · rename_i hempty
    rw [views_of_isEmpty hempty] at h
    cases h
    simp [share, tally]
  · rw [flatPairs_of_views h, ok_bind]
    simp only [share, tally, PairView.fieldCounts, List.map_map, Function.comp_def]
    rfl

theorem evaluateCriticalSemantics_of_views {vs : List PairView}
    (h : views active candidate = .ok vs) :
    evaluateCriticalSemantics u active candidate =
      .ok (roundTo 4 (ratio (vs.countP (PairView.diverged u)) vs.length)) := by
  rw [evaluateCriticalSemantics]
  split
  · rename_i hempty
    rw [views_of_isEmpty hempty] at h
    cases h
    simp
  · rw [flatPairs_of_views h, ok_bind, List.countP_map, List.length_map]
    rfl

theorem evaluateUnknownRetention_of_views {vs : List PairView}
    (h : views active candidate = .ok vs) :
    evaluateUnknownRetention active candidate =
      .ok (roundTo 4 (share (tally PairView.unknownCounts vs))) := by
  rw [evaluateUnknownRetention]
  split
  · rename_i hempty
    rw [views_of_isEmpty hempty] at h
    cases h
    simp [share, tally]
  · rw [retentionCounts_of_views h, ok_bind]
    simp only [share, tally, List.map_map, Function.comp_def, Nat.pos_iff_ne_zero, ite_not]
    split
    · rw [Binary64.roundTo_one]
      rfl
    · rfl

end Metrics

section Bounds

theorem matchedKeys_le (act cand : Dict String PyVal) :
    matchedKeys act cand ≤ act.entries.length := List.countP_le_length

theorem tally_le {α : Type} {counts : α → ℕ × ℕ} {xs : List α}
    (h : ∀ x ∈ xs, (counts x).2 ≤ (counts x).1) : (tally counts xs).2 ≤ (tally counts xs).1 :=
  List.sum_le_sum h

theorem unknownCounts_le (v : PairView) : v.unknownCounts.2 ≤ v.unknownCounts.1 :=
  List.countP_le_length

theorem unknownCounts_tally_le (vs : List PairView) :
    (tally PairView.unknownCounts vs).2 ≤ (tally PairView.unknownCounts vs).1 :=
  tally_le fun v _ => unknownCounts_le v

theorem fieldCounts_tally_le (vs : List PairView) :
    (tally PairView.fieldCounts vs).2 ≤ (tally PairView.fieldCounts vs).1 :=
  tally_le fun v _ => matchedKeys_le v.act v.cand

theorem abs_ratio_le {m n : ℕ} (h : m ≤ n) : |ratio m n| ≤ 1 + 1 / 2 ^ 50 := by
  have hq0 : (0 : ℚ) ≤ (m : ℚ) / n := by positivity
  have hq1 : (m : ℚ) / n ≤ 1 := by
    apply div_le_one_of_le₀ _ (by positivity)
    exact_mod_cast h
  have herr := abs_le.mp (Binary64.abs_fl_sub_le (q := (m : ℚ) / n) (by
    rw [abs_of_nonneg hq0]
    linarith))
  rw [ratio, abs_of_nonneg (Binary64.fl_nonneg hq0)]
  norm_num at herr ⊢
  linarith

theorem abs_share_le {counts : ℕ × ℕ} (h : counts.2 ≤ counts.1) :
    |share counts| ≤ 1 + 1 / 2 ^ 50 := by
  rw [share]
  split
  · exact abs_ratio_le h
  · norm_num

end Bounds

section Verdict

/-- Ten-thousandths of a score, as the report rounds it. -/
def tenThousandths (q : ℚ) : ℤ := roundHalfEven (q * (10 ^ 4 : ℕ))

/-- The candidate is slower than the gates allow. -/
def slower (activeLat candLat : List ℚ) : Bool :=
  let (act, cand, deltaPct) := evaluateLatencies (latenciesOr activeLat) (latenciesOr candLat)
  50 < deltaPct && 1 < fl (cand - act)

/-- The counts with which a comparison passes. -/
structure Clears (u : Unicode) (active candidate : List Event) (activeLat candLat : List ℚ)
    (isolation : Bool) (vs : List PairView) : Prop where
  isolated : isolation = true
  semantics : ratio (vs.countP (PairView.diverged u)) vs.length ≤ 1 / 20000
  unknowns : 19999 / 20000 ≤ share (tally PairView.unknownCounts vs)
  fields : 19599 / 20000 ≤ share (tally PairView.fieldCounts vs)
  detections : tenThousandths (calcDps u active) ≤ tenThousandths (calcDps u candidate)
  latency : slower activeLat candLat = false

/-- A comparison that reports the candidate as ready for promotion. -/
def Passes (u : Unicode) (active candidate : List Event) (activeLat candLat : List ℚ)
    (isolation : Bool) : Prop :=
  ∃ report, compare u active candidate activeLat candLat isolation = .ok report ∧
    report.shadowState = .passed

variable {u : Unicode} {active candidate : List Event}

theorem isPreserved_le (u : Unicode) (events : List Event) :
    events.countP (isPreserved u) ≤ events.countP (isSecurityEvent u) := by
  apply List.countP_mono_left
  intro ev _ h
  rw [isPreserved, Bool.and_eq_true] at h
  exact h.1

theorem calcDps_eq (u : Unicode) (events : List Event) :
    calcDps u events = share (events.countP (isSecurityEvent u), events.countP (isPreserved u)) :=
  rfl

theorem abs_calcDps_le (u : Unicode) (events : List Event) :
    |calcDps u events| ≤ 1 + 1 / 2 ^ 50 := by
  rw [calcDps_eq]
  exact abs_share_le (isPreserved_le u events)

theorem fourPlaces : 10 ^ 4 < 2 ^ 48 := by norm_num

theorem abs_tenThousandths_le {q : ℚ} (h : |q| ≤ 1 + 1 / 2 ^ 50) :
    |tenThousandths q| ≤ (10 ^ 4 : ℕ) := Binary64.abs_roundHalfEven_le fourPlaces h

theorem tenThousandths_bounds {q : ℚ} (h0 : 0 ≤ q) (h : |q| ≤ 1 + 1 / 2 ^ 50) :
    0 ≤ tenThousandths q ∧ tenThousandths q ≤ (10 ^ 4 : ℕ) :=
  ⟨Binary64.roundHalfEven_nonneg (mul_nonneg h0 (by positivity)),
    (abs_le.mp (abs_tenThousandths_le h)).2⟩

theorem ratio_nonneg (m n : ℕ) : 0 ≤ ratio m n := Binary64.fl_nonneg (by positivity)

theorem share_nonneg (counts : ℕ × ℕ) : 0 ≤ share counts := by
  rw [share]
  split
  · exact ratio_nonneg _ _
  · norm_num

theorem calcDps_nonneg (u : Unicode) (events : List Event) : 0 ≤ calcDps u events := by
  rw [calcDps_eq]
  exact share_nonneg _

theorem dpsDelta_neg_iff (u : Unicode) (active candidate : List Event) :
    (evaluateDpsComparison u active candidate).2.2 < 0 ↔
    tenThousandths (calcDps u candidate) < tenThousandths (calcDps u active) := by
  show roundTo 4 (fl (roundTo 4 (calcDps u candidate) - roundTo 4 (calcDps u active))) < 0 ↔ _
  rw [Binary64.roundTo_eq 4 (calcDps u candidate), Binary64.roundTo_eq 4 (calcDps u active)]
  exact Binary64.roundTo_sub_neg_iff fourPlaces
    (tenThousandths_bounds (calcDps_nonneg u candidate) (abs_calcDps_le u candidate))
    (tenThousandths_bounds (calcDps_nonneg u active) (abs_calcDps_le u active))

theorem divergence_passes_iff {q : ℚ} (hq : |q| ≤ 1 + 1 / 2 ^ 50) :
    ¬ 0 < roundTo 4 q ↔ q ≤ 1 / 20000 := by
  have h := Binary64.lt_roundTo_iff (n := 0) fourPlaces hq (by norm_num) rfl
  norm_num at h
  rw [h, not_lt]

theorem retention_passes_iff {q : ℚ} (hq : |q| ≤ 1 + 1 / 2 ^ 50) :
    ¬ roundTo 4 q < 1 ↔ 19999 / 20000 ≤ q := by
  have h := Binary64.roundTo_lt_iff (n := 10000) fourPlaces hq (by norm_num) rfl
  norm_num at h
  rw [h, not_lt]

theorem matchRate_passes_iff {q : ℚ} (hq : |q| ≤ 1 + 1 / 2 ^ 50) :
    ¬ roundTo 4 q < fl (90 / 100) ∧ ¬ roundTo 4 q < fl (98 / 100) ↔ 19599 / 20000 ≤ q := by
  have hfail := Binary64.roundTo_lt_iff (n := 9000) fourPlaces hq (by norm_num) rfl
  have hreview := Binary64.roundTo_lt_iff (n := 9800) fourPlaces hq (by norm_num) rfl
  norm_num at hfail hreview ⊢
  rw [← not_lt, ← not_lt, ← not_lt, hfail, hreview]
  constructor
  · intro h
    exact h.2
  · intro h
    refine ⟨?_, h⟩
    intro hlt
    linarith

theorem verdict_passed_iff {isolation : Bool} {m : ShadowMetrics} :
    (verdict isolation m).1 = .passed ↔
      failureFlags isolation m = false ∧ suspectedFlags m = false := by
  rw [verdict]
  split
  · rename_i hfail
    simp [hfail]
  · rename_i hfail
    split
    · rename_i hsuspected
      simp [hsuspected]
    · rename_i hsuspected
      simp [hfail, hsuspected]

/-- The metrics of a comparison of flattened events. -/
def metricsOf (u : Unicode) (active candidate : List Event) (activeLat candLat : List ℚ)
    (vs : List PairView) : ShadowMetrics :=
  let (activeDps, candidateDps, dpsDelta) := evaluateDpsComparison u active candidate
  let (activeP95, candidateP95, latDeltaPct) :=
    evaluateLatencies (latenciesOr activeLat) (latenciesOr candLat)
  { fieldMatchRate := roundTo 4 (share (tally PairView.fieldCounts vs))
    criticalSemanticDivergence := roundTo 4 (ratio (vs.countP (PairView.diverged u)) vs.length)
    unknownFieldRetention := roundTo 4 (share (tally PairView.unknownCounts vs))
    activeDps := activeDps
    candidateDps := candidateDps
    dpsDelta := dpsDelta
    activeLatencyP95Ms := activeP95
    candidateLatencyP95Ms := candidateP95
    latencyDeltaPct := latDeltaPct }

theorem compare_of_views {activeLat candLat : List ℚ} {isolation : Bool} {vs : List PairView}
    (h : views active candidate = .ok vs) :
    compare u active candidate activeLat candLat isolation =
      .ok ⟨(verdict isolation (metricsOf u active candidate activeLat candLat vs)).1,
        max active.length candidate.length, metricsOf u active candidate activeLat candLat vs,
        isolation, (verdict isolation (metricsOf u active candidate activeLat candLat vs)).2⟩ := by
  rw [compare, evaluateFieldCongruence_of_views h, ok_bind, evaluateCriticalSemantics_of_views h,
    ok_bind, evaluateUnknownRetention_of_views h, ok_bind]
  rfl

theorem views_of_compare {activeLat candLat : List ℚ} {isolation : Bool}
    (h : Returns (compare u active candidate activeLat candLat isolation)) :
    Returns (views active candidate) := by
  by_cases hempty : active.isEmpty = true ∨ candidate.isEmpty = true
  · exact ⟨[], views_of_isEmpty hempty⟩
  · apply views_of_flatPairs
    rw [compare, evaluateFieldCongruence, if_neg hempty, returns_bind_iff] at h
    obtain ⟨rate, hrate, -⟩ := h
    obtain ⟨flats, hflats, -⟩ := bind_eq_ok_iff.mp hrate
    exact ⟨flats, hflats⟩

theorem share_mem_Icc {counts : ℕ × ℕ} (h : counts.2 ≤ counts.1) : share counts ∈ Set.Icc 0 1 := by
  rw [share]
  split
  · exact Binary64.fl_ratio_mem_Icc h
  · exact ⟨zero_le_one, le_rfl⟩

theorem roundTo_signed {q : ℚ} (h : q ∈ Set.Icc (-1) 1) : roundTo 4 q ∈ Set.Icc (-1) 1 := by
  have hlow : roundTo 4 (-1) ≤ roundTo 4 q := Binary64.roundTo_monotone 4 h.1
  have hhigh : roundTo 4 q ≤ roundTo 4 1 := Binary64.roundTo_monotone 4 h.2
  have hminus : roundTo 4 (-1) = -1 := by decide +kernel
  rw [hminus] at hlow
  rw [Binary64.roundTo_one] at hhigh
  exact ⟨hlow, hhigh⟩

theorem fl_signed {q : ℚ} (h : q ∈ Set.Icc (-1) 1) : fl q ∈ Set.Icc (-1) 1 := by
  have hlow : fl (-1) ≤ fl q := Binary64.fl_monotone h.1
  have hhigh : fl q ≤ fl 1 := Binary64.fl_monotone h.2
  rw [Binary64.fl_neg, Binary64.fl_one] at hlow
  rw [Binary64.fl_one] at hhigh
  exact ⟨hlow, hhigh⟩

theorem dpsDelta_mem_Icc (u : Unicode) (active candidate : List Event) :
    (evaluateDpsComparison u active candidate).2.2 ∈ Set.Icc (-1) 1 := by
  have hscore (events : List Event) : roundTo 4 (calcDps u events) ∈ Set.Icc 0 1 := by
    rw [calcDps_eq]
    exact Binary64.roundTo_mem_Icc fourPlaces (share_mem_Icc (isPreserved_le u events))
  obtain ⟨hactive, hactive'⟩ := hscore active
  obtain ⟨hcandidate, hcandidate'⟩ := hscore candidate
  exact roundTo_signed (fl_signed ⟨by linarith, by linarith⟩)

theorem metrics_mem_Icc {activeLat candLat : List ℚ} {isolation : Bool}
    {report : ShadowComparisonReport}
    (h : compare u active candidate activeLat candLat isolation = .ok report) :
    report.metrics.fieldMatchRate ∈ Set.Icc 0 1 ∧ report.metrics.dpsDelta ∈ Set.Icc (-1) 1 := by
  obtain ⟨vs, hvs⟩ := views_of_compare ⟨report, h⟩
  rw [compare_of_views hvs] at h
  cases h
  exact ⟨Binary64.roundTo_mem_Icc fourPlaces (share_mem_Icc (fieldCounts_tally_le vs)),
    dpsDelta_mem_Icc u active candidate⟩

theorem clears_iff {activeLat candLat : List ℚ} {isolation : Bool} {vs : List PairView} :
    (verdict isolation (metricsOf u active candidate activeLat candLat vs)).1 = .passed ↔
      Clears u active candidate activeLat candLat isolation vs := by
  have hdiverged := divergence_passes_iff
    (abs_ratio_le (List.countP_le_length (p := PairView.diverged u) (l := vs)))
  have hunknowns := retention_passes_iff (abs_share_le (unknownCounts_tally_le vs))
  have hfields := matchRate_passes_iff (abs_share_le (fieldCounts_tally_le vs))
  have hdetections := (dpsDelta_neg_iff u active candidate).not
  rw [not_lt, not_lt] at hdetections
  rw [verdict_passed_iff]
  simp only [failureFlags, suspectedFlags, metricsOf, Bool.or_eq_false_iff, Bool.not_eq_false']
  constructor
  · rintro ⟨⟨⟨⟨⟨hisolated, hdelta⟩, hsemantics⟩, hretained⟩, hrate⟩, hrate', hlatency⟩
    exact ⟨hisolated, hdiverged.mp (of_decide_eq_false hsemantics),
      hunknowns.mp (of_decide_eq_false hretained),
      hfields.mp ⟨of_decide_eq_false hrate, of_decide_eq_false hrate'⟩,
      hdetections.mp (not_lt.mp (of_decide_eq_false hdelta)), hlatency⟩
  · intro h
    obtain ⟨hrate, hrate'⟩ := hfields.mpr h.fields
    exact ⟨⟨⟨⟨⟨h.isolated, decide_eq_false (not_lt.mpr (hdetections.mpr h.detections))⟩,
      decide_eq_false (hdiverged.mpr h.semantics)⟩,
      decide_eq_false (hunknowns.mpr h.unknowns)⟩, decide_eq_false hrate⟩,
      decide_eq_false hrate', h.latency⟩

/-- A comparison passes exactly when both lists flatten up to the shorter one and
the counts clear every gate. -/
theorem passes_iff {activeLat candLat : List ℚ} {isolation : Bool} :
    Passes u active candidate activeLat candLat isolation ↔
      ∃ vs, views active candidate = .ok vs ∧
        Clears u active candidate activeLat candLat isolation vs := by
  constructor
  · intro h
    obtain ⟨report, hreport, hpassed⟩ := h
    obtain ⟨vs, hvs⟩ := views_of_compare ⟨report, hreport⟩
    rw [compare_of_views hvs] at hreport
    cases hreport
    exact ⟨vs, hvs, clears_iff.mp hpassed⟩
  · intro h
    obtain ⟨vs, hvs, hclears⟩ := h
    exact ⟨_, compare_of_views hvs, clears_iff.mpr hclears⟩

end Verdict

end Ulpf.Shadow
