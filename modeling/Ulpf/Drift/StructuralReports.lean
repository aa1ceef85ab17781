import Mathlib.Algebra.BigOperators.Ring.List
import Ulpf.Drift.Structural

/-!
What the structural detector reports: signals between zero and one, a divergence that is a
total variation distance, and a state that follows from the thresholds.
-/

namespace Ulpf.Drift.Structural

open Ulpf.Lib
open Ulpf.SourceProfiler

section Distributions

variable {distA distB : Dict String ℚ}

theorem nodup_formats (distA distB : Dict String ℚ) : (formats distA distB).Nodup := by
  rw [formats, List.nodup_append]
  refine ⟨distA.nodup, distB.nodup.filter _, ?_⟩
  rintro k hk k' hk' rfl
  rw [List.mem_filter, Bool.not_eq_true', ← Bool.not_eq_true, Dict.contains_iff] at hk'
  exact hk'.2 hk

theorem mem_formats_iff {k : String} :
    k ∈ formats distA distB ↔ k ∈ distA.keys ∨ k ∈ distB.keys := by
  rw [formats, List.mem_append, List.mem_filter, Bool.not_eq_true', ← Bool.not_eq_true,
    Dict.contains_iff]
  tauto

theorem toFinset_formats_comm (distA distB : Dict String ℚ) :
    (formats distA distB).toFinset = (formats distB distA).toFinset := by
  ext k
  rw [List.mem_toFinset, List.mem_toFinset, mem_formats_iff, mem_formats_iff, or_comm]

theorem calculateDistributionDivergence_eq (order : SetOrder) (distA distB : Dict String ℚ) :
    calculateDistributionDivergence order distA distB =
      if total distA = 0 ∨ total distB = 0 then 0
      else min 1 (max 0
        (totalVariation (formats distA distB).toFinset (share distA) (share distB))) := by
  rw [calculateDistributionDivergence, totalVariation,
    List.sum_toFinset _ (nodup_formats distA distB),
    ((order.perm (formats distA distB)).map fun k => |share distA k - share distB k|).sum_eq,
    div_eq_inv_mul _ (2 : ℚ), div_eq_inv_mul _ (2 : ℚ), mul_one]

theorem calculateDistributionDivergence_comm (order : SetOrder) (distA distB : Dict String ℚ) :
    calculateDistributionDivergence order distA distB =
      calculateDistributionDivergence order distB distA := by
  rw [calculateDistributionDivergence_eq, calculateDistributionDivergence_eq, totalVariation_comm,
    toFinset_formats_comm]
  simp only [or_comm]

theorem calculateDistributionDivergence_of_share_eq (order : SetOrder)
    (h : ∀ k, share distA k = share distB k) :
    calculateDistributionDivergence order distA distB = 0 := by
  rw [calculateDistributionDivergence_eq, totalVariation_eq_zero_iff.mpr fun k _ => h k]
  simp

theorem calculateDistributionDivergence_mem_Icc (order : SetOrder) (distA distB : Dict String ℚ) :
    calculateDistributionDivergence order distA distB ∈ Set.Icc 0 1 := by
  rw [calculateDistributionDivergence_eq]
  split
  · exact ⟨le_rfl, zero_le_one⟩
  · exact ⟨le_min zero_le_one (le_max_left 0 _), min_le_left 1 _⟩

theorem share_eq (dist : Dict String ℚ) (k : String) :
    share dist k = (dist.get? k).getD 0 / total dist := by
  rw [share, Dict.get?_mapValues]
  cases dist.get? k with
  | none => exact (zero_div _).symm
  | some v => rfl

theorem share_nonneg (h : ∀ entry ∈ distA.entries, 0 ≤ entry.2) (k : String) :
    0 ≤ share distA k := by
  have htotal : 0 ≤ total distA :=
    List.sum_nonneg fun v hv => by
      obtain ⟨entry, hentry, rfl⟩ := List.mem_map.mp hv
      exact h entry hentry
  rw [share_eq]
  refine div_nonneg ?_ htotal
  cases hv : distA.get? k with
  | none => exact le_rfl
  | some v => exact h (k, v) (Dict.get?_eq_some_iff.mp hv)

theorem sum_share (h : total distA ≠ 0) (distB : Dict String ℚ) :
    ∑ k ∈ (formats distA distB).toFinset, share distA k = 1 := by
  have hkeys : distA.keys.map (share distA) =
      distA.entries.map fun entry => entry.2 / total distA := by
    rw [Dict.keys, List.map_map]
    apply List.map_congr_left
    intro entry hentry
    rw [Function.comp_apply, share_eq, Dict.get?_eq_some_iff.mpr hentry, Option.getD_some]
  have hothers : ((distB.keys.filter fun k => !distA.contains k).map (share distA)).sum = 0 := by
    apply List.sum_eq_zero
    intro x hx
    obtain ⟨k, hk, rfl⟩ := List.mem_map.mp hx
    have hnone : distA.get? k = none := by simpa [Dict.contains] using (List.mem_filter.mp hk).2
    rw [share_eq, hnone, Option.getD_none, zero_div]
  rw [List.sum_toFinset _ (nodup_formats distA distB), formats, List.map_append, List.sum_append,
    hothers, add_zero, hkeys]
  simp only [div_eq_mul_inv]
  rw [List.sum_map_mul_right]
  exact mul_inv_cancel₀ h

/-- Of counts that are not negative the divergence is the total variation distance: the
bounds it is cut off at are never reached. -/
theorem calculateDistributionDivergence_eq_totalVariation (order : SetOrder)
    (hA : ∀ entry ∈ distA.entries, 0 ≤ entry.2) (hB : ∀ entry ∈ distB.entries, 0 ≤ entry.2)
    (htotalA : total distA ≠ 0) (htotalB : total distB ≠ 0) :
    calculateDistributionDivergence order distA distB =
      totalVariation (formats distA distB).toFinset (share distA) (share distB) := by
  have hsum := sum_share htotalB distA
  rw [toFinset_formats_comm] at hsum
  rw [calculateDistributionDivergence_eq, if_neg (not_or.mpr ⟨htotalA, htotalB⟩),
    max_eq_right totalVariation_nonneg, min_eq_right]
  exact totalVariation_le_one (fun k _ => share_nonneg hA k) (fun k _ => share_nonneg hB k)
    (sum_share htotalA distB) hsum

end Distributions

section Signals

variable {order : SetOrder} {baseline current : SourceProfile}

theorem ratio_mem_Icc {m n : ℕ} (h : m ≤ n) : (m : ℚ) / n ∈ Set.Icc 0 1 :=
  ⟨div_nonneg m.cast_nonneg n.cast_nonneg,
    div_le_one_of_le₀ (Nat.cast_le.mpr h) n.cast_nonneg⟩

theorem length_typeMutationDetails_le :
    (typeMutationDetails order baseline current).length ≤ (interKeys baseline current).length :=
  (List.length_filterMap_le _ _).trans_eq (order.perm _).length_eq

theorem length_interKeys_le :
    (interKeys baseline current).length ≤ (unionKeys baseline current).length := by
  rw [unionKeys, List.length_append]
  exact (List.length_filter_le _ _).trans (Nat.le_add_right _ _)

/-- The signals as a list. -/
def DriftSignals.values (signals : DriftSignals) : List ℚ :=
  [signals.parseFailureRate, signals.unknownFieldRatio, signals.typeViolationRate,
    signals.keySetDistance, signals.distributionDivergence]

theorem driftSignals_mem_Icc (h : current.corruptedRecords ≤ current.totalRecords) :
    ∀ x ∈ (driftSignals order baseline current).values, x ∈ Set.Icc 0 1 := by
  have hzero : (0 : ℚ) ∈ Set.Icc 0 1 := ⟨le_rfl, zero_le_one⟩
  rw [DriftSignals.values, List.forall_mem_cons, List.forall_mem_cons, List.forall_mem_cons,
    List.forall_mem_cons, List.forall_mem_singleton]
  refine ⟨?failures, ?unknown, ?violations, ?distance, ?divergence⟩
  case failures => exact ratio_mem_Icc (h.trans (le_max_right _ _))
  case unknown =>
    dsimp only [driftSignals]
    split
    · exact hzero
    · exact ratio_mem_Icc (List.length_filter_le _ _)
  case violations =>
    dsimp only [driftSignals]
    split
    · exact hzero
    · exact ratio_mem_Icc length_typeMutationDetails_le
  case distance =>
    dsimp only [driftSignals]
    split
    · exact hzero
    · have hle : (interKeys baseline current).length ≤ (unionKeys baseline current).length :=
        length_interKeys_le
      obtain ⟨hlow, hhigh⟩ := ratio_mem_Icc hle
      exact ⟨sub_nonneg.mpr hhigh, sub_le_self _ hlow⟩
  case divergence => exact calculateDistributionDivergence_mem_Icc _ _ _

/-- The names of the fields of a profile. -/
def fieldNames (profile : SourceProfile) : Finset String := profile.fields.keys.toFinset

theorem card_fieldNames (profile : SourceProfile) :
    (fieldNames profile).card = profile.fields.keys.length :=
  List.toFinset_card_of_nodup profile.fields.nodup

/-- The fields of both profiles that are of two types, none of them `null`. -/
def mutatedFields (baseline current : SourceProfile) : Finset String :=
  (fieldNames baseline ∩ fieldNames current).filter fun k =>
    ∃ base ∈ baseline.fields.get? k, ∃ curr ∈ current.fields.get? k,
      base.inferredType ≠ curr.inferredType ∧ base.inferredType ≠ "null" ∧
        curr.inferredType ≠ "null"

theorem length_newKeys :
    (newKeys baseline current).length = (fieldNames current \ fieldNames baseline).card := by
  have hnodup : (newKeys baseline current).Nodup := current.fields.nodup.filter _
  rw [← List.toFinset_card_of_nodup hnodup]
  congr 1
  ext k
  simp [newKeys, fieldNames, ← Dict.contains_iff]

theorem nodup_interKeys : (interKeys baseline current).Nodup := baseline.fields.nodup.filter _

theorem toFinset_interKeys :
    (interKeys baseline current).toFinset = fieldNames baseline ∩ fieldNames current := by
  ext k
  simp [interKeys, fieldNames, ← Dict.contains_iff]

theorem length_interKeys :
    (interKeys baseline current).length = (fieldNames baseline ∩ fieldNames current).card := by
  rw [← toFinset_interKeys, List.toFinset_card_of_nodup nodup_interKeys]

theorem length_unionKeys :
    (unionKeys baseline current).length = (fieldNames baseline ∪ fieldNames current).card := by
  rw [unionKeys, List.length_append, length_newKeys, ← card_fieldNames, add_comm,
    Finset.card_sdiff_add_card, Finset.union_comm]

theorem mutation_isSome_iff {k : String} :
    (mutation baseline current k).isSome = true ↔
      ∃ base ∈ baseline.fields.get? k, ∃ curr ∈ current.fields.get? k,
        base.inferredType ≠ curr.inferredType ∧ base.inferredType ≠ "null" ∧
          curr.inferredType ≠ "null" := by
  rw [mutation]
  cases baseline.fields.get? k with
  | none => simp
  | some base =>
      cases current.fields.get? k with
      | none => simp
      | some curr => simp

variable (order) in
theorem length_typeMutationDetails :
    (typeMutationDetails order baseline current).length =
      (mutatedFields baseline current).card := by
  have hnodup : ((interKeys baseline current).filter fun k =>
      (mutation baseline current k).isSome).Nodup := nodup_interKeys.filter _
  have hlength : (typeMutationDetails order baseline current).length =
      (interKeys baseline current).countP fun k => (mutation baseline current k).isSome := by
    rw [typeMutationDetails, List.length_filterMap_eq_countP, (order.perm _).countP_eq]
    simp only [Option.isSome_map]
  rw [hlength, List.countP_eq_length_filter, ← List.toFinset_card_of_nodup hnodup,
    List.toFinset_filter, toFinset_interKeys]
  simp only [mutation_isSome_iff, mutatedFields]

/-- What the signals say of two profiles. A share of nothing is zero. -/
structure MeasuresDrift (baseline current : SourceProfile) (signals : DriftSignals) : Prop where
  parseFailureRate : signals.parseFailureRate =
    (current.corruptedRecords : ℚ) / (max 1 current.totalRecords : ℕ)
  unknownFieldRatio : signals.unknownFieldRatio =
    (fieldNames current \ fieldNames baseline).card / (fieldNames current).card
  typeViolationRate : signals.typeViolationRate =
    (mutatedFields baseline current).card / (fieldNames baseline ∩ fieldNames current).card
  keySetDistance : signals.keySetDistance =
    (symmDiff (fieldNames baseline) (fieldNames current)).card /
      (fieldNames baseline ∪ fieldNames current).card
  noFormats : total (formatDistribution baseline) = 0 ∨ total (formatDistribution current) = 0 →
    signals.distributionDivergence = 0
  distributionDivergence : (∀ entry ∈ (formatDistribution baseline).entries, 0 ≤ entry.2) →
    (∀ entry ∈ (formatDistribution current).entries, 0 ≤ entry.2) →
    total (formatDistribution baseline) ≠ 0 → total (formatDistribution current) ≠ 0 →
    signals.distributionDivergence =
      totalVariation (formats (formatDistribution baseline) (formatDistribution current)).toFinset
        (share (formatDistribution baseline)) (share (formatDistribution current))

/-- The case of the source for an empty set says no more than that a share of nothing is zero. -/
theorem ite_isEmpty_div (names : List String) (count : ℚ) :
    (if names.isEmpty then 0 else count / names.length) = count / names.length := by
  cases names with
  | nil => simp
  | cons name names => rfl

theorem card_symmDiff_add_card_inter (names names' : Finset String) :
    (symmDiff names names').card + (names ∩ names').card = (names ∪ names').card := by
  rw [symmDiff_eq_sup_sdiff_inf]
  exact Finset.card_sdiff_add_card_eq_card (Finset.inter_subset_union)

theorem ite_isEmpty_distance :
    (if (unionKeys baseline current).isEmpty then (0 : ℚ)
      else 1 - (interKeys baseline current).length / (unionKeys baseline current).length) =
      (symmDiff (fieldNames baseline) (fieldNames current)).card /
        (fieldNames baseline ∪ fieldNames current).card := by
  have hcards := card_symmDiff_add_card_inter (fieldNames baseline) (fieldNames current)
  rw [length_interKeys, length_unionKeys]
  split
  · rename_i hempty
    rw [← length_unionKeys, List.isEmpty_iff.mp hempty, List.length_nil, Nat.cast_zero, div_zero]
  · rename_i hne
    have hpos : ((fieldNames baseline ∪ fieldNames current).card : ℚ) ≠ 0 := by
      rw [← length_unionKeys]
      simpa [List.isEmpty_iff] using hne
    rw [eq_div_iff hpos, sub_mul, one_mul, div_mul_cancel₀ _ hpos, ← hcards]
    push_cast
    ring

theorem measuresDrift_driftSignals :
    MeasuresDrift baseline current (driftSignals order baseline current) where
  parseFailureRate := rfl
  unknownFieldRatio := by
    rw [card_fieldNames, ← length_newKeys]
    exact ite_isEmpty_div _ _
  typeViolationRate := by
    rw [← length_typeMutationDetails order, ← length_interKeys]
    exact ite_isEmpty_div _ _
  keySetDistance := ite_isEmpty_distance
  noFormats h := by
    rw [driftSignals, calculateDistributionDivergence, if_pos h]
  distributionDivergence hbase hcurr htotal htotal' :=
    calculateDistributionDivergence_eq_totalVariation order hbase hcurr htotal htotal'

theorem newKeys_self (profile : SourceProfile) : newKeys profile profile = [] := by
  rw [newKeys, List.filter_eq_nil_iff]
  intro k hk
  rw [Dict.contains_iff.mpr hk]
  decide

theorem interKeys_self (profile : SourceProfile) :
    interKeys profile profile = profile.fields.keys := by
  rw [interKeys, List.filter_eq_self]
  exact fun k hk => Dict.contains_iff.mpr hk

theorem typeMutationDetails_self (profile : SourceProfile) :
    typeMutationDetails order profile profile = [] := by
  rw [typeMutationDetails, List.filterMap_eq_nil_iff]
  intro k _
  rw [mutation]
  cases profile.fields.get? k with
  | none => rfl
  | some field => simp

theorem driftSignals_self (profile : SourceProfile) :
    driftSignals order profile profile =
      ⟨failureRate profile, 0, 0, 0, 0⟩ := by
  rw [driftSignals, newKeys_self, interKeys_self, unionKeys, newKeys_self,
    typeMutationDetails_self, List.append_nil, List.length_nil, Nat.cast_zero, zero_div,
    calculateDistributionDivergence_of_share_eq order fun _ => rfl]
  simp only [ite_self]
  congr 1
  split
  · rfl
  · rename_i hkeys
    have hlength : (profile.fields.keys.length : ℚ) ≠ 0 := by
      simpa [List.isEmpty_iff] using hkeys
    rw [div_self hlength, sub_self]

end Signals

section Reports

variable {Time : Type}

/-- What a report may say, given the thresholds it was made with. -/
structure SoundReport (report : DriftReport Time) (thresholds : DriftThresholds) : Prop where
  inRange : ∀ x ∈ report.signals.values, x ∈ Set.Icc 0 1
  drifted : report.driftState = .drifted ↔
    thresholds.typeViolationRate < report.signals.typeViolationRate ∨
      thresholds.parseFailureRate < report.signals.parseFailureRate ∨
      thresholds.keySetDistance < report.signals.keySetDistance
  suspected : report.driftState = .suspected ↔
    report.signals.typeViolationRate ≤ thresholds.typeViolationRate ∧
      report.signals.parseFailureRate ≤ thresholds.parseFailureRate ∧
      report.signals.keySetDistance ≤ thresholds.keySetDistance ∧
      (thresholds.unknownFieldRatio < report.signals.unknownFieldRatio ∨
        thresholds.distributionDivergence < report.signals.distributionDivergence)
  stable : report.driftState = .stable ↔
    report.signals.typeViolationRate ≤ thresholds.typeViolationRate ∧
      report.signals.parseFailureRate ≤ thresholds.parseFailureRate ∧
      report.signals.keySetDistance ≤ thresholds.keySetDistance ∧
      report.signals.unknownFieldRatio ≤ thresholds.unknownFieldRatio ∧
      report.signals.distributionDivergence ≤ thresholds.distributionDivergence
  remediation : report.remediationRecommended = true ↔ report.driftState ≠ .stable

theorem ite_drifted_iff (isDrifted isSuspected : Bool) :
    (if isDrifted then DriftState.drifted else if isSuspected then .suspected else .stable) =
      .drifted ↔ isDrifted = true := by
  cases isDrifted <;> cases isSuspected <;> decide

theorem ite_suspected_iff (isDrifted isSuspected : Bool) :
    (if isDrifted then DriftState.drifted else if isSuspected then .suspected else .stable) =
      .suspected ↔ ¬ isDrifted = true ∧ isSuspected = true := by
  cases isDrifted <;> cases isSuspected <;> decide

theorem ite_stable_iff (isDrifted isSuspected : Bool) :
    (if isDrifted then DriftState.drifted else if isSuspected then .suspected else .stable) =
      .stable ↔ ¬ isDrifted = true ∧ ¬ isSuspected = true := by
  cases isDrifted <;> cases isSuspected <;> decide

variable {u : Unicode} {order : SetOrder} {thresholds : DriftThresholds}
  {baseline current : SourceProfile} {subject : Subject} {now : Time}

theorem soundReport_compareProfiles (h : current.corruptedRecords ≤ current.totalRecords) :
    SoundReport (compareProfiles u order thresholds baseline current subject now) thresholds := by
  constructor
  case inRange => exact driftSignals_mem_Icc h
  case drifted => exact (ite_drifted_iff _ _).trans decide_eq_true_iff
  case suspected =>
    refine (ite_suspected_iff _ _).trans ?_
    simp only [compareProfiles, decide_eq_true_eq, not_or, not_lt, and_assoc]
  case stable =>
    refine (ite_stable_iff _ _).trans ?_
    simp only [compareProfiles, decide_eq_true_eq, not_or, not_lt, and_assoc]
  case remediation => exact decide_eq_true_iff

theorem compareProfiles_self {profile : SourceProfile}
    (hfailures : failureRate profile ≤ thresholds.parseFailureRate)
    (hunknown : 0 ≤ thresholds.unknownFieldRatio) (hviolations : 0 ≤ thresholds.typeViolationRate)
    (hdistance : 0 ≤ thresholds.keySetDistance)
    (hdivergence : 0 ≤ thresholds.distributionDivergence) :
    (compareProfiles u order thresholds profile profile subject now).driftState = .stable := by
  refine (ite_stable_iff _ _).mpr ?_
  rw [driftSignals_self]
  simp only [decide_eq_true_eq, not_or, not_lt]
  exact ⟨⟨hviolations, hfailures, hdistance⟩, hunknown, hdivergence⟩

/-- Signals measure the two profiles, reports say what the thresholds make of the signals, the
divergence is symmetric and zero for equal distributions, and a profile is stable against
itself. -/
theorem compareProfiles_sound (u : Unicode) (order : SetOrder) (thresholds : DriftThresholds)
    (subject : Subject) (now : Time) :
    (∀ baseline current : SourceProfile, current.corruptedRecords ≤ current.totalRecords →
      SoundReport (compareProfiles u order thresholds baseline current subject now) thresholds) ∧
    (∀ baseline current : SourceProfile, MeasuresDrift baseline current
      (compareProfiles u order thresholds baseline current subject now).signals) ∧
    (∀ distA distB : Dict String ℚ, calculateDistributionDivergence order distA distB =
      calculateDistributionDivergence order distB distA) ∧
    (∀ distA distB : Dict String ℚ, (∀ k, share distA k = share distB k) →
      calculateDistributionDivergence order distA distB = 0) ∧
    ∀ profile : SourceProfile,
      failureRate profile ≤ thresholds.parseFailureRate →
      0 ≤ thresholds.unknownFieldRatio → 0 ≤ thresholds.typeViolationRate →
      0 ≤ thresholds.keySetDistance → 0 ≤ thresholds.distributionDivergence →
      (compareProfiles u order thresholds profile profile subject now).driftState = .stable :=
  ⟨fun _ _ h => soundReport_compareProfiles h, fun _ _ => measuresDrift_driftSignals,
    calculateDistributionDivergence_comm order,
    fun _ _ h => calculateDistributionDivergence_of_share_eq order h,
    fun _ => compareProfiles_self⟩

/-- An interpreter that enumerates names in the order in which they were added. -/
def insertionOrder : SetOrder := ⟨id, List.Perm.refl⟩

/-- A hundred records of which one did not parse. -/
def steadyProfile : SourceProfile where
  format := .json
  confidence := 1
  totalRecords := 100
  validRecords := 99
  corruptedRecords := 1
  fields := Dict.ofList [("src", .new "src" "ipv4"), ("act", .new "act" "string")]
  templates := []
  delimiter := none
  metadata := ⟨none, some (Dict.ofList [("JSON", 99)])⟩
  sampleEvents := []

/-- Later records of the source: some no longer parse, half are of another format, and a field
is gone, one is new and one is of another type. -/
def changedProfile : SourceProfile where
  format := .json
  confidence := 1
  totalRecords := 100
  validRecords := 95
  corruptedRecords := 5
  fields := Dict.ofList [("src", .new "src" "string"), ("user", .new "user" "string")]
  templates := []
  delimiter := none
  metadata := ⟨none, some (Dict.ofList [("JSON", 50), ("CEF", 45)])⟩
  sampleEvents := []

theorem compareProfiles_sound_changed :
    let report := compareProfiles Unicode.ascii insertionOrder DriftThresholds.defaults
      steadyProfile changedProfile ⟨"fw", "fw-json", "1.0.0", none⟩ ()
    report.signals.values = [1 / 20, 1 / 2, 1, 2 / 3, 9 / 19] ∧ report.driftState = .drifted ∧
      SoundReport report DriftThresholds.defaults ∧
      MeasuresDrift steadyProfile changedProfile report.signals ∧
      calculateDistributionDivergence insertionOrder (formatDistribution steadyProfile)
        (formatDistribution steadyProfile) = 0 ∧
      (compareProfiles Unicode.ascii insertionOrder DriftThresholds.defaults steadyProfile
        steadyProfile ⟨"fw", "fw-json", "1.0.0", none⟩ ()).driftState = .stable := by
  intro report
  obtain ⟨hsound, hmeasures, -, hequal, hself⟩ := compareProfiles_sound Unicode.ascii
    insertionOrder DriftThresholds.defaults ⟨"fw", "fw-json", "1.0.0", none⟩ ()
  have hreport := hsound steadyProfile changedProfile (by decide)
  have hvalues : report.signals.values = [1 / 20, 1 / 2, 1, 2 / 3, 9 / 19] := by decide +kernel
  refine ⟨hvalues, hreport.drifted.mpr (by decide +kernel), hreport, hmeasures _ _,
    hequal _ _ fun _ => rfl, hself _ ?_ ?_ ?_ ?_ ?_⟩
  · norm_num [failureRate, steadyProfile, DriftThresholds.defaults]
  all_goals norm_num [DriftThresholds.defaults]

end Reports

end Ulpf.Drift.Structural
