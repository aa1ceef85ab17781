import Ulpf.DetectionContracts.Rules
import Ulpf.Lib.Binary64
import Ulpf.Lib.Outcome
import Mathlib.Data.List.Count
import Mathlib.Data.List.Perm.Basic
import Mathlib.Tactic.FieldSimp
import Mathlib.Tactic.Linarith

/-!
The detection preservation score: what it counts, and when it certifies.
-/

namespace Ulpf.DetectionContracts

open Ulpf.Lib

/-- `EvaluationResult`: what one rule made of one event. -/
structure EvaluationResult where
  ruleID : String
  ruleName : String
  isMandatory : Bool
  severity : Severity
  matched : Bool
  expected : Bool
  preserved : Bool
  deriving DecidableEq

/-- `DPSReport`: the counts, the score and what failed. -/
structure DPSReport where
  totalEvaluated : ℕ
  totalExpected : ℕ
  preservedExpected : ℕ
  dps : ℚ
  mandatoryTotal : ℕ
  mandatoryPreserved : ℕ
  mandatoryPassed : Bool
  certified : Bool
  violations : List EvaluationResult
  deriving DecidableEq

/-- The calculator with its minimum score. -/
structure DPSCalculator where
  minDPS : Binary64

/-- `NewDPSCalculator` -/
def newDPSCalculator : DPSCalculator := ⟨Binary64.ofMagnitude false (95 / 100)⟩

/-- The accumulators of the loop over the results. -/
structure Tally where
  totalExpected : ℕ
  preservedExpected : ℕ
  mandatoryTotal : ℕ
  mandatoryPreserved : ℕ
  violations : List EvaluationResult

namespace Tally

def empty : Tally := ⟨0, 0, 0, 0, []⟩

/-- One round of the loop. -/
def step (t : Tally) (res : EvaluationResult) : Tally :=
  let t := { t with totalExpected := t.totalExpected + 1 }
  let t :=
    if res.preserved then { t with preservedExpected := t.preservedExpected + 1 }
    else { t with violations := t.violations ++ [res] }
  if res.isMandatory then
    let t := { t with mandatoryTotal := t.mandatoryTotal + 1 }
    if res.preserved then { t with mandatoryPreserved := t.mandatoryPreserved + 1 } else t
  else t

end Tally

/-- `math.Round`: halves away from zero. -/
def round (q : ℚ) : ℤ := if q < 0 then - ⌊-q + 1 / 2⌋ else ⌊q + 1 / 2⌋

/-- `dps >= c.MinDPS` -/
def atLeast (dps : ℚ) : Binary64 → Bool
  | .nan => false
  | .inf neg => neg
  | .finite neg mag => (if neg then -mag else mag) ≤ dps

/-- `Calculate`, where `fl` is what each operation on floats does to its exact result:
`Binary64.fl` in the code, and the identity over exact rationals. -/
def calculate (fl : ℚ → ℚ) (c : DPSCalculator) (results : List EvaluationResult) :
    Except String DPSReport :=
  if results.length = 0 then .error "no evaluation results provided to calculate DPS"
  else
    let t := results.foldl Tally.step Tally.empty
    let dps := fl (fl t.preservedExpected / fl t.totalExpected)
    let dps := fl (round (fl (dps * 10000)) / 10000)
    let mandatoryPassed := t.mandatoryTotal = 0 || t.mandatoryPreserved = t.mandatoryTotal
    .ok {
      totalEvaluated := results.length
      totalExpected := t.totalExpected
      preservedExpected := t.preservedExpected
      dps := dps
      mandatoryTotal := t.mandatoryTotal
      mandatoryPreserved := t.mandatoryPreserved
      mandatoryPassed := mandatoryPassed
      certified := mandatoryPassed && atLeast dps c.minDPS
      violations := t.violations }

section Counting

/-- A result that the calculator counts as a violation. -/
def EvaluationResult.violated (res : EvaluationResult) : Bool := !res.preserved

/-- A mandatory result that is preserved. -/
def EvaluationResult.kept (res : EvaluationResult) : Bool := res.isMandatory && res.preserved

/-- What the accumulators hold after a list of results. -/
def tallyOf (results : List EvaluationResult) : Tally where
  totalExpected := results.length
  preservedExpected := results.countP EvaluationResult.preserved
  mandatoryTotal := results.countP EvaluationResult.isMandatory
  mandatoryPreserved := results.countP EvaluationResult.kept
  violations := results.filter EvaluationResult.violated

theorem tallyOf_concat (results : List EvaluationResult) (res : EvaluationResult) :
    tallyOf (results ++ [res]) = (tallyOf results).step res := by
  obtain ⟨_, _, isMandatory, _, _, _, preserved⟩ := res
  cases isMandatory <;> cases preserved <;>
    simp [tallyOf, Tally.step, EvaluationResult.violated, EvaluationResult.kept,
      List.countP_append, List.filter_append]

theorem foldl_step (results : List EvaluationResult) :
    results.foldl Tally.step Tally.empty = tallyOf results := by
  induction results using List.reverseRecOn with
  | nil => rfl
  | append_singleton results res ih =>
      rw [List.foldl_append, ih, tallyOf_concat]
      rfl

theorem kept_le (results : List EvaluationResult) :
    results.countP EvaluationResult.kept ≤ results.countP EvaluationResult.isMandatory := by
  apply List.countP_mono_left
  intro res _ hkept
  exact (Bool.and_eq_true _ _ ▸ hkept).1

/-- Every mandatory result is preserved. -/
def MandatoryKept (results : List EvaluationResult) : Prop :=
  ∀ res ∈ results, res.isMandatory = true → res.preserved = true

theorem kept_eq_iff (results : List EvaluationResult) :
    results.countP EvaluationResult.kept = results.countP EvaluationResult.isMandatory ↔
      MandatoryKept results := by
  induction results with
  | nil => simp [MandatoryKept]
  | cons res results ih =>
      have hle := kept_le results
      rw [MandatoryKept, List.forall_mem_cons, ← MandatoryKept, ← ih, List.countP_cons,
        List.countP_cons, EvaluationResult.kept]
      cases res.isMandatory <;> cases res.preserved <;> simp
      omega

theorem countP_preserved_add (results : List EvaluationResult) :
    results.countP EvaluationResult.preserved + (results.filter EvaluationResult.violated).length =
      results.length := by
  rw [← List.countP_eq_length_filter, List.length_eq_countP_add_countP EvaluationResult.preserved,
    Nat.add_left_cancel_iff]
  apply List.countP_congr
  intro res _
  simp [EvaluationResult.violated]

end Counting

section Report

variable (fl : ℚ → ℚ) (c : DPSCalculator)

/-- The score of a list: the share of preserved results, rounded to four places. -/
def score (results : List EvaluationResult) : ℚ :=
  fl (round (fl (fl (fl (results.countP EvaluationResult.preserved) / fl results.length) * 10000)) /
    10000)

/-- What the calculator reports about a list. -/
def reportOf (results : List EvaluationResult) : DPSReport :=
  let t := tallyOf results
  let mandatoryPassed := t.mandatoryTotal = 0 || t.mandatoryPreserved = t.mandatoryTotal
  { totalEvaluated := results.length
    totalExpected := t.totalExpected
    preservedExpected := t.preservedExpected
    dps := score fl results
    mandatoryTotal := t.mandatoryTotal
    mandatoryPreserved := t.mandatoryPreserved
    mandatoryPassed := mandatoryPassed
    certified := mandatoryPassed && atLeast (score fl results) c.minDPS
    violations := t.violations }

variable {fl c} {results results' : List EvaluationResult}

theorem calculate_eq (h : results ≠ []) : calculate fl c results = .ok (reportOf fl c results) := by
  rw [calculate, if_neg (mt List.length_eq_zero_iff.mp h), foldl_step]
  rfl

theorem mandatoryPassed_iff :
    (reportOf fl c results).mandatoryPassed = true ↔ MandatoryKept results := by
  have hle := kept_le results
  rw [← kept_eq_iff]
  change (decide (results.countP EvaluationResult.isMandatory = 0) ||
    decide (results.countP EvaluationResult.kept =
      results.countP EvaluationResult.isMandatory)) = true ↔ _
  rw [Bool.or_eq_true, decide_eq_true_iff, decide_eq_true_iff]
  omega

theorem certified_iff :
    (reportOf fl c results).certified = true ↔
      MandatoryKept results ∧ atLeast (score fl results) c.minDPS = true := by
  have hmandatory : (reportOf fl c results).mandatoryPassed = true ↔ _ := mandatoryPassed_iff
  rw [← hmandatory]
  exact Bool.and_eq_true_iff

/-- Everything but the violations is the same. -/
def SameFigures (report report' : DPSReport) : Prop :=
  { report with violations := report'.violations } = report'

theorem sameFigures_of_perm (h : results.Perm results') :
    SameFigures (reportOf fl c results) (reportOf fl c results') := by
  have hscore : score fl results = score fl results' := by
    rw [score, score, h.countP_eq, h.length_eq]
  simp only [SameFigures, reportOf, tallyOf, hscore, h.countP_eq, h.length_eq]
  rfl

/-- What the score promises about a list of results: a mandatory violation blocks the
certificate, all violations are listed, and the order plays no part. -/
structure NeverAverages (c : DPSCalculator) (results : List EvaluationResult)
    (report : DPSReport) : Prop where
  vetoed : ∀ res ∈ results, res.isMandatory = true → res.preserved = false →
    report.certified = false
  listed : report.violations = results.filter fun res => !res.preserved
  unordered : ∀ results', results.Perm results' →
    ∃ report', calculate Binary64.fl c results' = .ok report' ∧ SameFigures report report'

theorem calculate_neverAverages (h : results ≠ []) :
    ∃ report, calculate Binary64.fl c results = .ok report ∧ NeverAverages c results report := by
  refine ⟨_, calculate_eq h, ?_, rfl, ?_⟩
  · intro res hres hmandatory hviolated
    rw [Bool.eq_false_iff]
    intro hcertified
    have hkept := (certified_iff.mp hcertified).1 res hres hmandatory
    rw [hviolated] at hkept
    cases hkept
  · intro results' hperm
    have h' : results' ≠ [] := by
      rintro rfl
      exact h hperm.eq_nil
    exact ⟨_, calculate_eq h', sameFigures_of_perm hperm⟩

/-- A failed mandatory rule among preserved optional ones. -/
def vetoedResults : List EvaluationResult :=
  [⟨"DET-001", "", true, .critical, false, true, false⟩,
    ⟨"DET-005", "", false, .low, true, true, true⟩]

theorem calculate_neverAverages_vetoed :
    ∃ report, calculate Binary64.fl newDPSCalculator vetoedResults = .ok report ∧
      NeverAverages newDPSCalculator vetoedResults report :=
  calculate_neverAverages (by simp [vetoedResults])

end Report

section Exact

variable {results : List EvaluationResult}

/-- The exact share of preserved results. -/
def share (results : List EvaluationResult) : ℚ :=
  results.countP EvaluationResult.preserved / results.length

theorem share_nonneg (results : List EvaluationResult) : 0 ≤ share results := by
  rw [share]
  positivity

theorem score_exact (results : List EvaluationResult) :
    score id results = ⌊share results * 10000 + 1 / 2⌋ / 10000 := by
  have hnonneg : 0 ≤ share results * 10000 := mul_nonneg (share_nonneg results) (by norm_num)
  have hround : round (share results * 10000) = ⌊share results * 10000 + 1 / 2⌋ := by
    rw [round, if_neg (not_lt.mpr hnonneg)]
  rw [← hround]
  rfl

/-- A score reaches a threshold when the exact share is at most half a unit below the
threshold rounded up to four places. -/
theorem le_score_iff (minDPS : ℚ) :
    minDPS ≤ score id results ↔ (⌈minDPS * 10000⌉ - 1 / 2) / 10000 ≤ share results := by
  rw [score_exact, le_div_iff₀ (by norm_num), ← Int.ceil_le, Int.le_floor,
    div_le_iff₀ (by norm_num)]
  constructor
  · intro h
    linarith
  · intro h
    linarith

theorem score_eq_one_iff (h : results ≠ []) :
    score id results = 1 ↔
      20000 * (results.filter EvaluationResult.violated).length ≤ results.length := by
  have hadd := countP_preserved_add results
  have hlength : (0 : ℚ) < results.length := by
    exact_mod_cast List.length_pos_iff.mpr h
  have hshare : share results ≤ 1 := by
    rw [share, div_le_one hlength]
    exact_mod_cast List.countP_le_length
  have hfloor : score id results = 1 ↔ ⌊share results * 10000 + 1 / 2⌋ = 10000 := by
    rw [score_exact, div_eq_one_iff_eq (by norm_num)]
    norm_cast
  have hthreshold : ⌊share results * 10000 + 1 / 2⌋ = 10000 ↔ 19999 / 20000 ≤ share results := by
    rw [Int.floor_eq_iff]
    push_cast
    constructor
    · rintro ⟨hle, -⟩
      linarith
    · intro hle
      constructor
      · linarith
      · linarith
  rw [hfloor, hthreshold, share, le_div_iff₀ hlength, div_mul_eq_mul_div, div_le_iff₀ (by norm_num)]
  generalize results.countP EvaluationResult.preserved = preserved at *
  generalize (results.filter EvaluationResult.violated).length = violations at *
  rw [← hadd]
  push_cast
  constructor
  · intro hle
    have : (20000 * violations : ℚ) ≤ preserved + violations := by linarith
    exact_mod_cast this
  · intro hle
    have : (20000 * violations : ℚ) ≤ preserved + violations := by exact_mod_cast hle
    linarith

/-- The certificate as the exact share decides it, and a full score only without violations. -/
def ExactThreshold (minDPS : ℚ) (results : List EvaluationResult) (report : DPSReport) : Prop :=
  (report.certified = true ↔ MandatoryKept results ∧ minDPS ≤ share results) ∧
    (report.dps = 1 ↔ report.violations = [])

/-- The same with the four places of the score: the share may be half a unit below the
threshold rounded up, and violations may be one in twenty thousand. -/
def FourPlaceThreshold (minDPS : ℚ) (results : List EvaluationResult) (report : DPSReport) : Prop :=
  (report.certified = true ↔
      MandatoryKept results ∧ (⌈minDPS * 10000⌉ - 1 / 2) / 10000 ≤ share results) ∧
    (report.dps = 1 ↔ 20000 * report.violations.length ≤ results.length)

theorem calculate_fourPlaceThreshold (h : results ≠ []) (minDPS : ℚ) :
    ∃ report, calculate id ⟨.finite false minDPS⟩ results = .ok report ∧
      FourPlaceThreshold minDPS results report := by
  refine ⟨_, calculate_eq h, ?_, score_eq_one_iff h⟩
  rw [certified_iff, ← le_score_iff]
  simp [atLeast]

/-- Three optional rules, one of which fails. -/
def twoOfThree : List EvaluationResult :=
  [⟨"DET-005", "", false, .low, true, true, true⟩,
    ⟨"DET-006", "", false, .low, true, true, true⟩,
    ⟨"DET-007", "", false, .low, false, true, false⟩]

theorem calculate_fourPlaceThreshold_twoOfThree :
    ∃ report, calculate id ⟨.finite false (6667 / 10000)⟩ twoOfThree = .ok report ∧
      FourPlaceThreshold (6667 / 10000) twoOfThree report :=
  calculate_fourPlaceThreshold (by simp [twoOfThree]) (6667 / 10000)

/-- Two thirds are certified against a threshold of 0.6667. -/
theorem not_exactThreshold_twoOfThree :
    ¬ ∃ report, calculate id ⟨.finite false (6667 / 10000)⟩ twoOfThree = .ok report ∧
      ExactThreshold (6667 / 10000) twoOfThree report := by
  rintro ⟨report, hreport, hexact, -⟩
  rw [calculate_eq (by simp [twoOfThree])] at hreport
  cases hreport
  have hcertified : (reportOf id ⟨.finite false (6667 / 10000)⟩ twoOfThree).certified = true := by
    decide +kernel
  have hshare := (hexact.mp hcertified).2
  rw [share, show twoOfThree.countP EvaluationResult.preserved = 2 from rfl,
    show twoOfThree.length = 3 from rfl] at hshare
  norm_num at hshare

end Exact

end Ulpf.DetectionContracts
