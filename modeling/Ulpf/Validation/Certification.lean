import Ulpf.Lib.Rounding
import Ulpf.Validation.Engine

/-!
From the measurements of an event to its passport: what a report's evidence satisfies,
and what a certified passport says about the event.
-/

namespace Ulpf.Validation.Engine

open Ulpf.Lib
open Ulpf.Lib.Binary64 (fl roundTo)
open Ulpf.Python
open Ulpf.SourceProfiler
open Ulpf.Passport

section Accuracy

variable {matched total : ℕ} {default : ℚ}

theorem accuracy_mem_Icc (hle : matched ≤ total) (hdefault : default ∈ Set.Icc 0 1) :
    accuracy matched total default ∈ Set.Icc 0 1 := by
  rw [accuracy]
  split
  · exact Binary64.fl_ratio_mem_Icc hle
  · exact hdefault

theorem accuracy_zero (htotal : 0 < total) : accuracy 0 total default = 0 := by
  rw [accuracy, if_pos htotal, Nat.cast_zero, zero_div, Binary64.fl_zero]

/-- A full score of countable many: no other count comes that close to its total. -/
theorem accuracy_eq_one_iff (hle : matched ≤ total) (hsmall : total < 2 ^ 54) :
    accuracy matched total 1 = 1 ↔ matched = total := by
  rw [accuracy]
  split
  · rename_i hpos
    have htotal : (0 : ℚ) < total := by exact_mod_cast hpos
    have hbound : (total : ℚ) < 2 ^ 54 := by exact_mod_cast hsmall
    have hq : (matched : ℚ) / total ≤ 1 := by
      apply div_le_one_of_le₀ _ htotal.le
      exact_mod_cast hle
    rw [Binary64.fl_eq_one_iff (by positivity) hq, le_div_iff₀ htotal]
    constructor
    · intro h
      have hclose : (total : ℚ) < matched + 1 := by
        norm_num at h
        linarith
      have : total < matched + 1 := by exact_mod_cast hclose
      omega
    · rintro rfl
      norm_num
      linarith
  · constructor
    · intro _
      omega
    · intro _
      rfl

end Accuracy

section Report

variable (u : Unicode) (mapped : Dict PyVal PyVal) (unmapped : Record) (call : ValidationCall)
  (parserID parserVersion : PyVal) (now : Moment)

/-- The share of the expected fields that were extracted with their values. -/
def extractionOf : ℚ :=
  accuracy (call.expectedExtracted.dict.entries.countP (matchedExt mapped))
    call.expectedExtracted.dict.entries.length 1

/-- The share of the critical fields, or the extraction accuracy when there are none. -/
def semanticOf : ℚ :=
  accuracy (call.criticalFields.countP (matchedCritical mapped call.expectedExtracted.dict))
    call.criticalFields.length (extractionOf mapped call)

theorem extractionOf_mem_Icc : extractionOf mapped call ∈ Set.Icc 0 1 :=
  accuracy_mem_Icc List.countP_le_length ⟨zero_le_one, le_rfl⟩

theorem semanticOf_mem_Icc : semanticOf mapped call ∈ Set.Icc 0 1 :=
  accuracy_mem_Icc List.countP_le_length (extractionOf_mem_Icc mapped call)

theorem evaluateDetectionContracts_mem_Icc (expected : Dict String PyVal) :
    (evaluateDetectionContracts u mapped expected).1 ∈ Set.Icc 0 1 := by
  rw [evaluateDetectionContracts]
  split
  · exact ⟨le_rfl, zero_le_one⟩
  · exact ⟨zero_le_one, le_rfl⟩

theorem unknownRetention_eq_one_iff :
    accuracy (call.expectedUnknown.dict.entries.countP (retained u unmapped))
        call.expectedUnknown.dict.entries.length 1 = 1 ↔
      ∀ entry ∈ call.expectedUnknown.dict.entries, retained u unmapped entry = true := by
  have hsmall : call.expectedUnknown.dict.entries.length < 2 ^ 54 := by
    have := call.expectedUnknown.resident
    omega
  rw [accuracy_eq_one_iff List.countP_le_length hsmall, List.countP_eq_length]

theorem measure_passed_iff :
    (measure u mapped unmapped call parserID parserVersion now).passed = true ↔
      reaches (extractionOf mapped call) call.minAccuracy = true ∧
      fl (95 / 100) ≤ semanticOf mapped call ∧
      (∀ k ∈ call.criticalFields, matchedCritical mapped call.expectedExtracted.dict k = true) ∧
      (∀ entry ∈ call.expectedUnknown.dict.entries, retained u unmapped entry = true) ∧
      fl (95 / 100) ≤ (evaluateDetectionContracts u mapped call.expectedExtracted.dict).1 ∧
      (evaluateDetectionContracts u mapped call.expectedExtracted.dict).2.1 = true := by
  rw [← unknownRetention_eq_one_iff, ← List.all_eq_true]
  simp only [measure, extractionOf, semanticOf, Bool.and_eq_true, decide_eq_true_eq, and_assoc,
    true_and]

theorem mem_of_mem_ofList {entry : String × ℚ} {entries : List (String × ℚ)}
    (h : entry ∈ (Dict.ofList entries).entries) : entry ∈ entries := by
  have hget := Dict.get?_eq_some_iff.mpr h
  rw [Dict.get?_ofList] at hget
  exact List.mem_reverse.mp (mem_of_lookup hget)

theorem metrics_mem_Icc (entry : String × ℚ)
    (h : entry ∈ (measure u mapped unmapped call parserID parserVersion now).metrics.entries) :
    entry.2 ∈ Set.Icc 0 1 := by
  have hround : ∀ q ∈ Set.Icc (0 : ℚ) 1, roundTo 4 q ∈ Set.Icc 0 1 :=
    fun q hq => Binary64.roundTo_mem_Icc (by norm_num) hq
  have hmem := mem_of_mem_ofList h
  simp only [List.mem_cons, List.not_mem_nil, or_false] at hmem
  obtain rfl | rfl | rfl | rfl | rfl := hmem
  · exact hround _ (extractionOf_mem_Icc mapped call)
  · exact hround _ (semanticOf_mem_Icc mapped call)
  · exact hround _ ⟨zero_le_one, le_rfl⟩
  · exact hround _ (accuracy_mem_Icc List.countP_le_length ⟨zero_le_one, le_rfl⟩)
  · exact hround _ (evaluateDetectionContracts_mem_Icc u mapped _)

theorem mem_keys_metrics (name : String) :
    name ∈ (measure u mapped unmapped call parserID parserVersion now).metrics.keys ↔
      name ∈ metricNames := by
  simp only [measure]
  rw [Dict.ofList, Dict.mem_keys_update]
  constructor
  · rintro (h | h)
    · exact h
    · cases h
  · exact Or.inl

theorem unitNumber_floatOf {q : ℚ} (h : q ∈ Set.Icc 0 1) : unitNumber (floatOf q) = true := by
  obtain ⟨h0, h1⟩ := h
  simp [unitNumber, floatOf, PyVal.float, Binary64.toRat?, not_lt.mpr h0, abs_of_nonneg h0, h0, h1]

variable (runID : Option String) (uuid driftState : String)

theorem named_runID (report : ValidationReport)
    (hrun : ∀ given ∈ runID, given = "" ∨ strip given ≠ "") :
    Named (.str (report.toEvidence runID uuid driftState).runID) := by
  refine ⟨_, rfl, ?_⟩
  simp only [ValidationReport.toEvidence]
  split
  · rw [strip, Text.onChars, ne_eq, String.ofList_eq_empty_iff, Text.trim_eq_nil_iff]
    intro hspace
    have hhead := hspace 'v' (by simp)
    cases hhead
  · rename_i hne
    cases hgiven : runID with
    | none => exact absurd (by rw [hgiven]; rfl) hne
    | some given =>
        rw [hgiven] at hne
        exact (hrun given hgiven).resolve_left hne

theorem toEvidence_complete (hdrift : driftState ∈ driftStates) (iso : String)
    (hpassed :
      (measure u mapped unmapped call parserID parserVersion (.nowUtc iso)).passed = true) :
    Complete ((measure u mapped unmapped call parserID parserVersion (.nowUtc iso)).toEvidence
      runID uuid driftState) where
  aware := rfl
  drift := by
    refine ⟨driftState, hdrift, ?_⟩
    rw [ValidationReport.toEvidence, if_pos hpassed]
  observed := ⟨_, rfl, rfl⟩
  metrics := by
    intro name
    rw [← mem_keys_metrics u mapped unmapped call parserID parserVersion (.nowUtc iso)]
    exact Iff.of_eq (congrArg (name ∈ ·) (Dict.keys_mapValues _ _))
  scores := by
    intro entry hentry
    obtain ⟨metric, hmetric, rfl⟩ := List.mem_map.mp hentry
    exact unitNumber_floatOf (metrics_mem_Icc u mapped unmapped call parserID parserVersion _
      metric hmetric)

end Report

section Unmapped

variable {i : Interpreter} {extractedRaw : Record}

theorem mapField_rawKeys {s t : Mapped} {field : String × PyVal}
    (h : mapField i extractedRaw s field = .ok t) (k : String) :
    k ∈ t.rawKeys ↔ k ∈ s.rawKeys ∨ (k = field.1 ∧ k ∈ extractedRaw.keys) := by
  rw [Dict.mem_keys_iff]
  unfold mapField at h
  cases hval : extractedRaw.get? field.1 with
  | none =>
      simp only [hval] at h
      rw [pure_eq_ok_iff] at h
      subst h
      constructor
      · exact Or.inl
      · rintro (hk | ⟨rfl, hk⟩)
        · exact hk
        · rw [hval] at hk
          cases hk
  | some val =>
      simp only [hval, bind_eq_ok_iff, pure_eq_ok_iff] at h
      obtain ⟨_, -, _, -, _, -, _, -, _, -, _, -, _, -, _, -, rfl⟩ := h
      rw [List.mem_cons]
      constructor
      · rintro (rfl | hk)
        · exact Or.inr ⟨rfl, by rw [hval]; rfl⟩
        · exact Or.inl hk
      · rintro (hk | ⟨rfl, -⟩)
        · exact Or.inr hk
        · exact Or.inl rfl

theorem foldlM_mapField_rawKeys {fields : List (String × PyVal)} {s t : Mapped}
    (h : fields.foldlM (mapField i extractedRaw) s = .ok t) (k : String) :
    k ∈ t.rawKeys ↔ k ∈ s.rawKeys ∨ (k ∈ fields.map Prod.fst ∧ k ∈ extractedRaw.keys) := by
  induction fields generalizing s with
  | nil =>
      rw [List.foldlM_nil, pure_eq_ok_iff] at h
      simp [h]
  | cons field fields ih =>
      rw [List.foldlM_cons] at h
      obtain ⟨r, hr, hrest⟩ := bind_eq_ok_iff.mp h
      rw [ih hrest, mapField_rawKeys hr, List.map_cons, List.mem_cons]
      tauto

theorem mapEvent_unmapped {fields : List (String × PyVal)} {mapped : Dict PyVal PyVal}
    {unmapped : Record} (h : mapEvent i extractedRaw (.obj fields) = .ok (mapped, unmapped))
    (k : String) :
    unmapped.get? k = if k ∈ fields.map Prod.fst then none else extractedRaw.get? k := by
  obtain ⟨s, hs, hresult⟩ := bind_eq_ok_iff.mp h
  rw [pure_eq_ok_iff, Prod.mk.injEq] at hresult
  obtain ⟨-, rfl⟩ := hresult
  have hkeys := foldlM_mapField_rawKeys hs k
  rw [Dict.get?_filterKeys]
  by_cases hk : k ∈ extractedRaw.keys
  · have hiff : s.rawKeys.contains k = true ↔ k ∈ fields.map Prod.fst := by
      rw [List.contains_iff_mem, hkeys]
      constructor
      · rintro (hstart | hround)
        · cases hstart
        · exact hround.1
      · intro hnamed
        exact Or.inr ⟨hnamed, hk⟩
    by_cases hnamed : k ∈ fields.map Prod.fst
    · rw [if_pos hnamed, hiff.mpr hnamed]
      rfl
    · have hout : s.rawKeys.contains k = false := by
        rwa [Bool.eq_false_iff, ne_eq, hiff]
      rw [if_neg hnamed, hout]
      rfl
  · have hnone : extractedRaw.get? k = none := by
      rwa [Dict.mem_keys_iff, Option.not_isSome_iff_eq_none] at hk
    rw [hnone, ite_self, ite_self]

end Unmapped

section Passports

variable {i : Interpreter} {iso : String} {call : ValidationCall} {report : ValidationReport}

theorem validateEvent_spec {now : Moment} (h : validateEvent i now call = .ok report) :
    ∃ mapped unmapped parserID parserVersion,
      extractEvent i call.rawEvent call.parserSpec = .ok (mapped, unmapped) ∧
        report = measure i.unicode mapped unmapped call parserID parserVersion now := by
  obtain ⟨parserInfo, -, h⟩ := bind_eq_ok_iff.mp h
  obtain ⟨parserID, -, h⟩ := bind_eq_ok_iff.mp h
  obtain ⟨parserVersion, -, h⟩ := bind_eq_ok_iff.mp h
  obtain ⟨⟨mapped, unmapped⟩, hextract, h⟩ := bind_eq_ok_iff.mp h
  exact ⟨mapped, unmapped, parserID, parserVersion, hextract, (pure_eq_ok_iff.mp h).symm⟩

theorem eq_null_iff {x : PyVal} : PyVal.eq .null x = true ↔ x = .null := by
  cases x <;> simp [PyVal.eq]

theorem exists_of_matchedCritical {mapped : Dict PyVal PyVal} {expected : Dict String PyVal}
    {k : String} (h : matchedCritical mapped expected k = true) :
    ∃ e v, expected.get? k = some e ∧ mapped.get? (.str k) = some v ∧ v.eq e = true := by
  rw [matchedCritical, Bool.and_eq_true, decide_eq_true_eq] at h
  obtain ⟨hne, heq⟩ := h
  cases he : expected.get? k with
  | none =>
      rw [he] at hne
      exact absurd rfl hne
  | some e =>
      rw [he, Option.getD_some] at hne heq
      rw [actual] at heq
      cases hv : mapped.get? (.str k) with
      | none =>
          rw [hv, Option.getD_none, eq_null_iff] at heq
          exact absurd heq hne
      | some v =>
          rw [hv, Option.getD_some] at heq
          exact ⟨e, v, rfl, rfl, heq⟩

theorem exists_of_retained {u : Unicode} {unmapped : Record} {entry : String × PyVal}
    (h : retained u unmapped entry = true) :
    ∃ w, unmapped.get? entry.1 = some w ∧ str u w = str u entry.2 := by
  rw [retained] at h
  cases hw : unmapped.get? entry.1 with
  | none =>
      rw [hw] at h
      cases h
  | some w =>
      rw [hw, decide_eq_true_eq] at h
      exact ⟨w, rfl, h⟩

end Passports

section Gate

variable {i : Interpreter} {iso : String} {call : ValidationCall} {report : ValidationReport}

/-- What a passport may say about the report it was built from. -/
structure Gated (u : Unicode) (call : ValidationCall) (mapped : Dict PyVal PyVal)
    (unmapped : Record) (report : ValidationReport) (passport : TelemetryPassport) : Prop where
  certified : passport.certificationStatus = "CERTIFIED" ↔ report.passed = true
  critical : report.passed = true → ∀ k ∈ call.criticalFields, ∃ e v,
    call.expectedExtracted.dict.get? k = some e ∧ mapped.get? (.str k) = some v ∧ v.eq e = true
  unknown : report.passed = true → ∀ entry ∈ call.expectedUnknown.dict.entries,
    ∃ w, unmapped.get? entry.1 = some w ∧ str u w = str u entry.2
  scores : report.passed = false → ∀ score ∈ passport.scores, PyVal.isNumber score.2 = false
  drift : report.passed = false → ∀ state ∈ driftStates, passport.driftState ≠ some state

variable {sourceID parserID parserVersion : PyVal}

/-- Evidence of a validation gates its passport. -/
theorem build_gated (runID : Option String) (uuid : String)
    (h : validateEvent i (.nowUtc iso) call = .ok report) (hsource : Named sourceID)
    (hparser : Named parserID) (hversion : Named parserVersion)
    (hrun : ∀ given ∈ runID, given = "" ∨ strip given ≠ "") :
    ∃ mapped unmapped passport,
      extractEvent i call.rawEvent call.parserSpec = .ok (mapped, unmapped) ∧
      build sourceID parserID parserVersion (some (report.toEvidence runID uuid "STABLE")) =
        .ok passport ∧
      Gated i.unicode call mapped unmapped report passport := by
  obtain ⟨mapped, unmapped, reportedID, reportedVersion, hextract, rfl⟩ := validateEvent_spec h
  have hgate := measure_passed_iff i.unicode mapped unmapped call reportedID reportedVersion
    (.nowUtc iso)
  generalize hreport : measure i.unicode mapped unmapped call reportedID reportedVersion
    (.nowUtc iso) = report at *
  have hcompleted : report.completedAt = .nowUtc iso := by
    rw [← hreport]
    rfl
  have hutc : Returns report.completedAt.utcIso := by
    rw [hcompleted]
    exact returns_ok _
  have hnamed := named_runID runID uuid "STABLE" report hrun
  cases hpassed : report.passed with
  | true =>
      have hne : report.passed ≠ false := by
        rw [hpassed]
        decide
      obtain ⟨-, -, hcritical, hunknown, -⟩ := hgate.mp hpassed
      have hcomplete : Complete (report.toEvidence runID uuid "STABLE") := by
        rw [← hreport]
        exact toEvidence_complete i.unicode mapped unmapped call reportedID reportedVersion runID
          uuid "STABLE" List.mem_cons_self iso (by rw [hreport, hpassed])
      obtain ⟨passport, hbuild, hcertified⟩ := build_of_passed hsource hparser hversion hnamed
        hpassed hcomplete hutc (by
          rintro observedAt ⟨⟩
          exact hutc)
      refine ⟨mapped, unmapped, passport, hextract, hbuild, ?_⟩
      constructor
      · exact iff_of_true hcertified hpassed
      · intro _ k hk
        exact exists_of_matchedCritical (hcritical k hk)
      · intro _ entry hentry
        exact exists_of_retained (hunknown entry hentry)
      · intro hfailed
        exact absurd hfailed hne
      · intro hfailed
        exact absurd hfailed hne
  | false =>
      have hne : report.passed ≠ true := by
        rw [hpassed]
        decide
      obtain ⟨passport, hbuild, hstatus, hscores, hdrift⟩ := build_of_failed hsource hparser
        hversion hnamed hpassed hutc
      refine ⟨mapped, unmapped, passport, hextract, hbuild, ?_⟩
      constructor
      · rw [hstatus, hpassed]
        decide
      · intro hpass
        exact absurd hpass hne
      · intro hpass
        exact absurd hpass hne
      · intro _ score hscore
        rw [hscores score hscore]
        rfl
      · intro _ state hstate heq
        rw [hdrift, Option.some.injEq] at heq
        subst heq
        revert hstate
        decide

/-- An interpreter of the C locale. -/
def plainInterpreter : Interpreter := ⟨Unicode.ascii, true⟩

/-- A call whose event has an expected and an unknown field. -/
def aliceCall : ValidationCall where
  rawEvent := "user=alice extra=9"
  parserSpec := .obj [("body_parser", .obj [("type", .str "key_value")]),
    ("fields", .obj [("user", .obj [("map_to", .str "user.name")])])]
  expectedExtracted := ⟨Dict.ofList [("user.name", .str "alice")], by decide⟩
  criticalFields := ["user.name"]
  expectedUnknown := ⟨Dict.ofList [("extra", .int 9)], by decide⟩
  minAccuracy := .float (Binary64.ofMagnitude false (95 / 100))
  sourceID := "src_val"

theorem exists_report_alice : ∃ report,
    validateEvent plainInterpreter (.nowUtc "2026-01-01T00:00:00+00:00") aliceCall = .ok report ∧
      report.passed = true := by
  have hruns : (validateEvent plainInterpreter (.nowUtc "2026-01-01T00:00:00+00:00")
      aliceCall).toOption.map ValidationReport.passed = some true := by
    decide +kernel
  obtain ⟨report, hreport, hpassed⟩ := Option.map_eq_some_iff.mp hruns
  exact ⟨report, toOption_eq_some_iff.mp hreport, hpassed⟩

theorem build_gated_alice : ∃ report,
    validateEvent plainInterpreter (.nowUtc "2026-01-01T00:00:00+00:00") aliceCall = .ok report ∧
      report.passed = true ∧ ∃ mapped unmapped passport,
        extractEvent plainInterpreter aliceCall.rawEvent aliceCall.parserSpec =
          .ok (mapped, unmapped) ∧
        build (.str "src") (.str "p") (.str "1.0.0")
          (some (report.toEvidence none "0f3a" "STABLE")) = .ok passport ∧
        Gated plainInterpreter.unicode aliceCall mapped unmapped report passport := by
  obtain ⟨report, hreport, hpassed⟩ := exists_report_alice
  exact ⟨report, hreport, hpassed, build_gated none "0f3a" hreport ⟨"src", rfl, by decide⟩
    ⟨"p", rfl, by decide⟩ ⟨"1.0.0", rfl, by decide⟩ (by simp)⟩

end Gate

section Measured

variable {i : Interpreter} {iso : String} {call : ValidationCall} {report : ValidationReport}

/-- A field that the parser finds in the event and the spec does not name, with the
text of its expected value. -/
def Unnamed (u : Unicode) (call : ValidationCall) (entry : String × PyVal) : Prop :=
  ∃ extractedRaw fields w, extractRaw u call.rawEvent call.parserSpec = .ok extractedRaw ∧
    call.parserSpec.getD "fields" (.obj []) = .ok (.obj fields) ∧
    entry.1 ∉ fields.map Prod.fst ∧ extractedRaw.get? entry.1 = some w ∧
    str u w = str u entry.2

theorem retained_iff_unnamed {mapped : Dict PyVal PyVal} {unmapped : Record}
    (h : extractEvent i call.rawEvent call.parserSpec = .ok (mapped, unmapped))
    (entry : String × PyVal) :
    retained i.unicode unmapped entry = true ↔ Unnamed i.unicode call entry := by
  obtain ⟨extractedRaw, hraw, h⟩ := bind_eq_ok_iff.mp h
  obtain ⟨fieldsSpec, hfields, h⟩ := bind_eq_ok_iff.mp h
  cases fieldsSpec with
  | obj fields =>
      have hget := mapEvent_unmapped h entry.1
      constructor
      · intro hretained
        obtain ⟨w, hw, hstr⟩ := exists_of_retained hretained
        rw [hget] at hw
        split at hw
        · cases hw
        · rename_i hunnamed
          exact ⟨extractedRaw, fields, w, hraw, hfields, hunnamed, hw, hstr⟩
      · rintro ⟨extractedRaw', fields', w, hraw', hfields', hunnamed, hw, hstr⟩
        rw [hraw, Except.ok.injEq] at hraw'
        rw [hfields, Except.ok.injEq, Json.obj.injEq] at hfields'
        subst hraw' hfields'
        rw [if_neg hunnamed, hw] at hget
        rw [retained, hget, decide_eq_true_eq]
        exact hstr
  | _ => cases h

/-- A certified passport is built on an expected field that was extracted with its value. -/
def Measures (i : Interpreter) (call : ValidationCall) (report : ValidationReport) : Prop :=
  ∀ sourceID parserID parserVersion runID uuid passport mapped unmapped,
    extractEvent i call.rawEvent call.parserSpec = .ok (mapped, unmapped) →
    build sourceID parserID parserVersion (some (report.toEvidence runID uuid "STABLE")) =
      .ok passport →
    passport.certificationStatus = "CERTIFIED" →
    ∃ entry ∈ call.expectedExtracted.dict.entries, matchedExt mapped entry = true

theorem exists_matched {u : Unicode} {mapped : Dict PyVal PyVal} {unmapped : Record}
    {parserID parserVersion : PyVal} {now : Moment}
    (hpassed : (measure u mapped unmapped call parserID parserVersion now).passed = true)
    (hasked : call.expectedExtracted.dict.entries ≠ [] ∨ call.criticalFields ≠ []) :
    ∃ entry ∈ call.expectedExtracted.dict.entries, matchedExt mapped entry = true := by
  obtain ⟨-, hsemantic, hcritical, -⟩ :=
    (measure_passed_iff u mapped unmapped call parserID parserVersion now).mp hpassed
  cases hfields : call.criticalFields with
  | cons k rest =>
      obtain ⟨e, v, he, hv, heq⟩ := exists_of_matchedCritical (hcritical k (by
        rw [hfields]
        exact List.mem_cons_self))
      refine ⟨(k, e), Dict.get?_eq_some_iff.mp he, ?_⟩
      rw [matchedExt, hv]
      exact heq
  | nil =>
      have hexpected := hasked.resolve_right (not_not.mpr hfields)
      by_contra hnone
      simp only [not_exists, not_and] at hnone
      have hzero : call.expectedExtracted.dict.entries.countP (matchedExt mapped) = 0 :=
        List.countP_eq_zero.mpr hnone
      rw [semanticOf, hfields, List.length_nil, accuracy, if_neg (lt_irrefl 0), extractionOf, hzero,
        accuracy_zero (List.length_pos_iff.mpr hexpected)] at hsemantic
      revert hsemantic
      decide +kernel

theorem reaches_mono {x y : ℚ} (hle : x ≤ y) {minAccuracy : PyNum}
    (h : reaches x minAccuracy = true) : reaches y minAccuracy = true := by
  cases minAccuracy with
  | int n =>
      rw [reaches, decide_eq_true_eq] at h ⊢
      exact h.trans hle
  | float bound =>
      cases bound with
      | nan => cases h
      | inf neg => exact h
      | finite neg mag =>
          rw [reaches, decide_eq_true_eq] at h ⊢
          exact h.trans hle

/-- With no block scenario expected, every detection is preserved. -/
theorem evaluateDetectionContracts_of_empty (u : Unicode) (mapped : Dict PyVal PyVal)
    {expected : Dict String PyVal} (h : expected.entries = []) :
    evaluateDetectionContracts u mapped expected = (1, true, []) := by
  have hnone : expected.get? "event.action" = none := by
    rw [Dict.get?, h, lookup_nil]
  have hblank : lower u "" = "" := by
    rw [lower, Text.onChars, String.toList_empty, u.lowerText_ascii [] (by simp)]
    rfl
  rw [evaluateDetectionContracts, hnone, Option.getD_none, str, hblank]
  rfl

/-- Expectations that ask for nothing are met by every event: the scores are the defaults. -/
theorem not_measures (h : validateEvent i (.nowUtc iso) call = .ok report)
    (hexpected : call.expectedExtracted.dict.entries = []) (hcritical : call.criticalFields = [])
    (hreaches : reaches 1 call.minAccuracy = true)
    (hunknown : ∀ entry ∈ call.expectedUnknown.dict.entries, Unnamed i.unicode call entry) :
    ¬ Measures i call report := by
  intro hmeasures
  obtain ⟨mapped, unmapped, reportedID, reportedVersion, hextract, rfl⟩ := validateEvent_spec h
  have hextraction : extractionOf mapped call = 1 := by
    rw [extractionOf, hexpected]
    rfl
  have hsemantic : semanticOf mapped call = 1 := by
    rw [semanticOf, hcritical, hextraction]
    rfl
  have hshare : fl (95 / 100) ≤ 1 := by decide +kernel
  have hpassed : (measure i.unicode mapped unmapped call reportedID reportedVersion
      (.nowUtc iso)).passed = true := by
    rw [measure_passed_iff, hextraction, hsemantic, hcritical,
      evaluateDetectionContracts_of_empty _ _ hexpected]
    refine ⟨hreaches, hshare, by simp, ?_, hshare, rfl⟩
    intro entry hentry
    exact (retained_iff_unnamed hextract entry).mpr (hunknown entry hentry)
  have hnamed : Named (.str "id") := ⟨"id", rfl, by decide⟩
  have hrun := named_runID none "" "STABLE"
    (measure i.unicode mapped unmapped call reportedID reportedVersion (.nowUtc iso)) (by simp)
  obtain ⟨passport, hbuild, hcertified⟩ := build_of_passed hnamed hnamed hnamed hrun hpassed
    (toEvidence_complete _ _ _ _ _ _ _ _ _ List.mem_cons_self iso hpassed) (returns_ok _) (by
      rintro observedAt ⟨⟩
      exact returns_ok _)
  obtain ⟨entry, hentry, -⟩ := hmeasures _ _ _ _ _ passport mapped unmapped hextract hbuild
    hcertified
  rw [hexpected] at hentry
  cases hentry

/-- Certified scores are measured exactly when something is asked for, or out of reach. -/
theorem measures_iff (h : validateEvent i (.nowUtc iso) call = .ok report) :
    Measures i call report ↔
      call.expectedExtracted.dict.entries ≠ [] ∨ call.criticalFields ≠ [] ∨
        reaches 1 call.minAccuracy = false ∨
        ∃ entry ∈ call.expectedUnknown.dict.entries, ¬ Unnamed i.unicode call entry := by
  constructor
  · intro hmeasures
    by_contra hno
    simp only [not_or, not_not, not_exists, not_and, Bool.not_eq_false] at hno
    obtain ⟨hexpected, hcritical, hreaches, hunknown⟩ := hno
    exact not_measures h hexpected hcritical hreaches hunknown hmeasures
  · obtain ⟨mapped, unmapped, reportedID, reportedVersion, hextract, rfl⟩ := validateEvent_spec h
    intro hcond sourceID parserID parserVersion runID uuid passport mapped' unmapped' hextract'
      hbuild hcertified
    rw [hextract, Except.ok.injEq, Prod.mk.injEq] at hextract'
    obtain ⟨rfl, rfl⟩ := hextract'
    have hpassed : (measure i.unicode mapped unmapped call reportedID reportedVersion
        (.nowUtc iso)).passed = true := passed_of_certified hbuild hcertified
    obtain ⟨hreaches, -, -, hretained, -⟩ :=
      (measure_passed_iff i.unicode mapped unmapped call reportedID reportedVersion _).mp hpassed
    obtain hexpected | hcritical | hmin | ⟨entry, hentry, hlost⟩ := hcond
    · exact exists_matched hpassed (Or.inl hexpected)
    · exact exists_matched hpassed (Or.inr hcritical)
    · rw [reaches_mono (extractionOf_mem_Icc mapped call).2 hreaches] at hmin
      cases hmin
    · exact absurd ((retained_iff_unnamed hextract entry).mp (hretained entry hentry)) hlost

theorem measures_iff_alice : ∃ report,
    validateEvent plainInterpreter (.nowUtc "2026-01-01T00:00:00+00:00") aliceCall = .ok report ∧
      report.passed = true ∧ Measures plainInterpreter aliceCall report := by
  obtain ⟨report, hreport, hpassed⟩ := exists_report_alice
  exact ⟨report, hreport, hpassed, (measures_iff hreport).mpr (Or.inl (by decide +kernel))⟩

/-- A call that expects nothing of an event that no parser knows. -/
def helloCall : ValidationCall where
  rawEvent := "hello"
  parserSpec := .obj []
  expectedExtracted := ⟨Dict.empty, by decide⟩
  criticalFields := []
  expectedUnknown := ⟨Dict.empty, by decide⟩
  minAccuracy := .float (Binary64.ofMagnitude false (95 / 100))
  sourceID := "src_val"

theorem exists_report_hello : ∃ report,
    validateEvent plainInterpreter (.nowUtc "") helloCall = .ok report := by
  have hruns : (validateEvent plainInterpreter (.nowUtc "") helloCall).toOption.isSome = true := by
    decide +kernel
  obtain ⟨report, hreport⟩ := Option.isSome_iff_exists.mp hruns
  exact ⟨report, toOption_eq_some_iff.mp hreport⟩

theorem not_measures_hello : ¬ ∀ report,
    validateEvent plainInterpreter (.nowUtc "") helloCall = .ok report →
      Measures plainInterpreter helloCall report := by
  intro hmeasures
  obtain ⟨report, hreport⟩ := exists_report_hello
  refine not_measures hreport rfl rfl ?_ ?_ (hmeasures report hreport)
  · decide +kernel
  · intro entry hentry
    cases hentry

end Measured

end Ulpf.Validation.Engine
