import Ulpf.Contracts.TelemetryPassport
import Ulpf.Passport.Passport
import Ulpf.Python.IsoText

/-!
The documents of passports: which of them satisfy their contract.
-/

namespace Ulpf.Passport

open Ulpf.Lib
open Ulpf.Lib.Check
open Ulpf.Python
open Ulpf.Python.IsoFormat (isoformat Showable readable_isoformat)
open Ulpf.Contracts (versionPattern isDateTime isBetween)

/-- A text, or `None`. -/
def ofOption : Option String → PyVal
  | none => .null
  | some s => .str s

/-- The dictionary `build` returns. -/
def TelemetryPassport.dict (p : TelemetryPassport) : PyVal :=
  .obj [("schema_version", .str p.schemaVersion), ("source_id", p.sourceID),
    ("parser", .obj [("id", p.parserID), ("version", p.parserVersion)]),
    ("validation", .obj [("status", .str p.validationStatus), ("run_id", ofOption p.runID),
      ("completed_at", ofOption p.completedAt)]),
    ("certification", .obj [("status", .str p.certificationStatus),
      ("timestamp", ofOption p.certificationTimestamp)]),
    ("scores", .obj p.scores),
    ("drift", .obj [("state", ofOption p.driftState), ("observed_at", ofOption p.driftObservedAt)])]

/-- `astimezone(timezone.utc).isoformat()` writes a time of the years 1 to 9999. -/
def Moment.OfClock (value : Moment) : Prop :=
  ∀ iso, value.utcIso = .ok iso → ∃ t, Showable t ∧ iso = isoformat t

section Parts

variable {value : PyVal}

theorem named_of_requiredText {name : String} (h : requiredText name value = .ok ()) :
    Named value := by
  cases value with
  | str s =>
      rw [requiredText] at h
      split at h
      · cases h
      · rename_i hs
        exact ⟨s, rfl, hs⟩
  | _ => cases h

theorem Named.exists_nonempty (h : Named value) : ∃ s, value = .str s ∧ s ≠ "" := by
  obtain ⟨s, rfl, hs⟩ := h
  refine ⟨s, rfl, ?_⟩
  rintro rfl
  exact hs rfl

theorem isDateTime_of_timestamp {moment : Moment} (h : moment.OfClock) {text : String}
    (htext : timestamp moment = .ok text) : isDateTime text = true := by
  rw [timestamp, mapError_eq_ok_iff, map_eq_ok_iff] at htext
  obtain ⟨iso, hiso, rfl⟩ := htext
  obtain ⟨t, ht, rfl⟩ := h iso hiso
  exact readable_isoformat ht

theorem metric_of_unitNumber (h : unitNumber value = true) :
    Contracts.TelemetryPassport.metric value = true ∧ isNumber value = true := by
  rw [Contracts.TelemetryPassport.metric, either_iff, isNumber_iff]
  cases value with
  | num n =>
      refine ⟨.inl ?_, n, rfl⟩
      rw [Contract.valid_number]
      cases n with
      | int n =>
          have hn : 0 ≤ n ∧ n ≤ 1 := of_decide_eq_true h
          rw [isBetween, Bool.and_eq_true, decide_eq_true_eq, decide_eq_true_eq]
          exact_mod_cast hn
      | float x =>
          rw [unitNumber] at h
          cases hx : x.toRat? with
          | none =>
              rw [hx] at h
              exact absurd h Bool.false_ne_true
          | some q =>
              rw [hx] at h
              have hq : 0 ≤ q ∧ q ≤ 1 := of_decide_eq_true h
              rw [isBetween, hx]
              simp [hq.1, hq.2]
  | _ => exact absurd h Bool.false_ne_true

theorem validateEvidence_spec {evidence : ValidationEvidence}
    (h : validateEvidence evidence = .ok ()) :
    Named (.str evidence.runID) ∧ (∃ state ∈ driftStates, evidence.driftState = some state) ∧
      (∃ observedAt, evidence.driftObservedAt = some observedAt) ∧
      ∀ entry ∈ evidence.metrics.entries, unitNumber entry.2 = true := by
  rw [validateEvidence] at h
  obtain ⟨_, hrun, h⟩ := bind_eq_ok_iff.mp h
  dsimp only at h
  split at h
  · cases h
  split at h
  · rename_i state observedAt hstate hobserved
    split at h
    · cases h
    rename_i hmem
    split at h
    · cases h
    split at h
    · cases h
    split at h
    · cases h
    rename_i hfind
    refine ⟨named_of_requiredText hrun, ⟨state, by simpa using hmem, hstate⟩,
      ⟨observedAt, hobserved⟩, ?_⟩
    simpa using List.find?_eq_none.mp hfind
  · cases h

theorem scoresOf_spec {metrics : Dict String PyVal} {scores : List (String × PyVal)}
    (h : scoresOf metrics = .ok scores) :
    scores.map Prod.fst = metricNames ∧ ∀ m ∈ scores, m ∈ metrics.entries := by
  rw [scoresOf] at h
  constructor
  · have hscores := mapM_eq_map (g := fun name => (name, (metrics.get? name).getD .null)) h
      (fun name m hm => by
        split at hm
        · rename_i value hvalue
          rw [hvalue]
          exact (Except.ok.inj hm).symm
        · cases hm)
    rw [hscores, List.map_map]
    exact List.map_id _
  · intro m hm
    obtain ⟨name, -, hname⟩ := mapM_mem h hm
    split at hname
    · rename_i value hvalue
      rw [← Except.ok.inj hname]
      exact Dict.get?_eq_some_iff.mp hvalue
    · cases hname

end Parts

section Contract

variable {sourceID parserID parserVersion : PyVal} {p : TelemetryPassport}

/-- What stands in a certified passport. -/
structure Certified (p : TelemetryPassport) : Prop where
  validation : p.validationStatus = "PASSED"
  run : ∃ run, p.runID = some run ∧ run ≠ ""
  completed : ∃ time, p.completedAt = some time ∧ isDateTime time = true
  certification : p.certificationStatus = "CERTIFIED"
  timestamp : p.certificationTimestamp = p.completedAt
  named : p.scores.map Prod.fst = metricNames
  measured : ∀ m ∈ p.scores, unitNumber m.2 = true
  drift : ∃ state ∈ driftStates, p.driftState = some state
  observed : ∃ time, p.driftObservedAt = some time ∧ isDateTime time = true

/-- What stands in a passport that is not certified. -/
structure Uncertified (p : TelemetryPassport) : Prop where
  validation : (p.validationStatus = "NOT_YET_MEASURED" ∧ p.runID = none ∧ p.completedAt = none) ∨
    (p.validationStatus = "FAILED" ∧ (∃ run, p.runID = some run ∧ run ≠ "") ∧
      ∃ time, p.completedAt = some time ∧ isDateTime time = true)
  certification : p.certificationStatus = "NOT_CERTIFIED"
  timestamp : p.certificationTimestamp = none
  scores : p.scores = metricNames.map fun name => (name, .str notYetMeasured)
  drift : p.driftState = some "NOT_YET_MEASURED"
  observed : p.driftObservedAt = none

/-- The times of the evidence come from clocks. -/
def ValidationEvidence.OfClock (evidence : ValidationEvidence) : Prop :=
  evidence.completedAt.OfClock ∧ ∀ observedAt ∈ evidence.driftObservedAt, observedAt.OfClock

theorem uncertified_of_unmeasured {evidence : Option ValidationEvidence}
    (hclock : ∀ e ∈ evidence, e.OfClock)
    (h : unmeasured sourceID parserID parserVersion evidence = .ok p) :
    Uncertified p ∧ p.schemaVersion = "1.1" ∧ p.sourceID = sourceID ∧ p.parserID = parserID ∧
      p.parserVersion = parserVersion := by
  unfold unmeasured at h
  cases evidence with
  | none =>
      cases h
      exact ⟨⟨.inl ⟨rfl, rfl, rfl⟩, rfl, rfl, rfl, rfl, rfl⟩, rfl, rfl, rfl, rfl⟩
  | some evidence =>
      obtain ⟨_, hrun, h⟩ := bind_eq_ok_iff.mp h
      obtain ⟨completedAt, hcompleted, h⟩ := bind_eq_ok_iff.mp h
      cases h
      obtain ⟨run, hrun, hne⟩ := (named_of_requiredText hrun).exists_nonempty
      cases hrun
      have hdateTime := isDateTime_of_timestamp (hclock _ rfl).1 hcompleted
      exact ⟨⟨.inr ⟨rfl, ⟨_, rfl, hne⟩, _, rfl, hdateTime⟩, rfl, rfl, rfl, rfl, rfl⟩, rfl, rfl, rfl,
        rfl⟩

theorem build_spec {evidence : Option ValidationEvidence} (hclock : ∀ e ∈ evidence, e.OfClock)
    (h : build sourceID parserID parserVersion evidence = .ok p) :
    (Certified p ∨ Uncertified p) ∧ p.schemaVersion = "1.1" ∧
      (∃ s, p.sourceID = .str s ∧ s ≠ "") ∧ (∃ s, p.parserID = .str s ∧ s ≠ "") ∧
      p.parserVersion = parserVersion := by
  unfold build at h
  obtain ⟨_, hsource, h⟩ := bind_eq_ok_iff.mp h
  obtain ⟨_, hparser, h⟩ := bind_eq_ok_iff.mp h
  obtain ⟨_, -, h⟩ := bind_eq_ok_iff.mp h
  have hsource := (named_of_requiredText hsource).exists_nonempty
  have hparser := (named_of_requiredText hparser).exists_nonempty
  have hunmeasured {evidence : Option ValidationEvidence} (hclock : ∀ e ∈ evidence, e.OfClock)
      (h : unmeasured sourceID parserID parserVersion evidence = .ok p) :
      (Certified p ∨ Uncertified p) ∧ p.schemaVersion = "1.1" ∧
        (∃ s, p.sourceID = .str s ∧ s ≠ "") ∧ (∃ s, p.parserID = .str s ∧ s ≠ "") ∧
        p.parserVersion = parserVersion := by
    obtain ⟨huncertified, hschema, rfl, rfl, rfl⟩ := uncertified_of_unmeasured hclock h
    exact ⟨.inr huncertified, hschema, hsource, hparser, rfl⟩
  cases evidence with
  | none => exact hunmeasured hclock h
  | some evidence =>
      dsimp only at h
      split at h
      · exact hunmeasured hclock h
      · obtain ⟨_, hevidence, h⟩ := bind_eq_ok_iff.mp h
        obtain ⟨completedAt, hcompleted, h⟩ := bind_eq_ok_iff.mp h
        obtain ⟨scores, hscores, h⟩ := bind_eq_ok_iff.mp h
        obtain ⟨driftObservedAt, hobservedAt, h⟩ := bind_eq_ok_iff.mp h
        cases h
        obtain ⟨hrun, hdrift, ⟨observedAt, hobserved⟩, hunit⟩ := validateEvidence_spec hevidence
        obtain ⟨hnames, hentries⟩ := scoresOf_spec hscores
        obtain ⟨run, hrun, hne⟩ := hrun.exists_nonempty
        cases hrun
        rw [hobserved, Option.mapM_some] at hobservedAt
        obtain ⟨time, hat, hobservedAt⟩ := bind_eq_ok_iff.mp hobservedAt
        cases hobservedAt
        obtain ⟨hcompletedClock, hobservedClock⟩ := hclock _ rfl
        exact ⟨.inl ⟨rfl, ⟨_, rfl, hne⟩,
          ⟨_, rfl, isDateTime_of_timestamp hcompletedClock hcompleted⟩, rfl, rfl, hnames,
          fun m hm => hunit m (hentries m hm), hdrift,
          _, rfl, isDateTime_of_timestamp (hobservedClock _ hobserved) hat⟩,
          rfl, hsource, hparser, rfl⟩

theorem lookup_metrics {α : Type} {check : α} {name : String} (h : name ∈ metricNames) :
    lookup name (Contracts.TelemetryPassport.metricNames.map fun name => (name, check)) =
      some check := by
  simp only [metricNames, List.mem_cons, List.not_mem_nil, or_false] at h
  obtain rfl | rfl | rfl | rfl | rfl := h <;> rfl

theorem record_metrics {members : List (String × PyVal)} {check : Check PyNum}
    (hnames : members.map Prod.fst = metricNames) (h : ∀ m ∈ members, check m.2 = true) :
    record (Contracts.TelemetryPassport.metricNames.map fun name => (name, check))
      (.obj members) = true := by
  rw [record_obj_iff, hnames, List.forall_mem_map]
  refine ⟨fun name hname => hname, fun m hm => ⟨check, lookup_metrics ?_, h m hm⟩⟩
  rw [← hnames]
  exact List.mem_map_of_mem hm

theorem scores_of_forall {members : List (String × PyVal)} {check : Check PyNum}
    (h : ∀ m ∈ members, check m.2 = true) :
    Contracts.TelemetryPassport.scores check (.obj members) = true := by
  rw [Contracts.TelemetryPassport.scores, all_iff, List.forall_mem_map]
  intro name _
  rw [onProperty_obj_iff]
  exact fun value hvalue => h _ (mem_of_lookup hvalue)

/-- The dictionary of a passport satisfies its contract. -/
def TelemetryPassport.MeetsContract (p : TelemetryPassport) : Prop :=
  Contracts.telemetryPassport p.dict = true

theorem meetsContract_of_certified (h : Certified p) (hschema : p.schemaVersion = "1.1")
    (hsource : ∃ s, p.sourceID = .str s ∧ s ≠ "") (hparser : ∃ s, p.parserID = .str s ∧ s ≠ "") :
    p.MeetsContract ↔
      ∃ s, p.parserVersion = .str s ∧ Schema.matchesPattern versionPattern s = true := by
  obtain ⟨source, hsource, hsourceNe⟩ := hsource
  obtain ⟨parser, hparser, hparserNe⟩ := hparser
  obtain ⟨hvalidation, ⟨run, hrun, hrunNe⟩, ⟨completed, hcompleted, hcompletedTime⟩,
    hcertification, htimestamp, hnamed, hmeasured, ⟨state, hstate, hdrift⟩,
    ⟨observed, hobserved, hobservedTime⟩⟩ := h
  have hmetrics : ∀ m ∈ p.scores, Contracts.TelemetryPassport.metric m.2 = true :=
    fun m hm => (metric_of_unitNumber (hmeasured m hm)).1
  have hnumbers := scores_of_forall fun m hm => (metric_of_unitNumber (hmeasured m hm)).2
  have hrecord := record_metrics hnamed hmetrics
  have hchecks : p.MeetsContract ↔
      (source ≠ "" ∧ (parser ≠ "" ∧
        Contracts.RepairReport.version.valid p.parserVersion = true) ∧
      (run ≠ "" ∧ isDateTime completed = true) ∧ isDateTime completed = true ∧
      (state = "STABLE" ∨ state = "SUSPECTED" ∨ state = "DRIFTED" ∨ state = "NOT_YET_MEASURED") ∧
      isDateTime observed = true) ∧
      (state = "STABLE" ∨ state = "SUSPECTED" ∨ state = "DRIFTED") := by
    rw [TelemetryPassport.MeetsContract, Contracts.telemetryPassport, TelemetryPassport.dict]
    simp [Contracts.TelemetryPassport.shape, Contracts.TelemetryPassport.status,
      Contracts.TelemetryPassport.whenCertified, Contracts.TelemetryPassport.whenNotCertified,
      Contracts.RepairReport.dateTime, record_obj_iff, lookup_cons, hnumbers, hrecord,
      hvalidation, hrun, hcompleted, hcertification, htimestamp, hdrift, hobserved, hsource,
      hparser, ofOption, hschema]
  have hstates : state = "STABLE" ∨ state = "SUSPECTED" ∨ state = "DRIFTED" := by
    simpa [driftStates] using hstate
  have hwritten : state = "STABLE" ∨ state = "SUSPECTED" ∨ state = "DRIFTED" ∨
      state = "NOT_YET_MEASURED" := by
    simpa [or_assoc] using Or.inl hstates
  rw [hchecks, Contracts.RepairReport.version, Contract.valid_string_iff]
  constructor
  · rintro ⟨⟨-, ⟨-, hversion⟩, -⟩, -⟩
    exact hversion
  · intro hversion
    exact ⟨⟨hsourceNe, ⟨hparserNe, hversion⟩, ⟨hrunNe, hcompletedTime⟩, hcompletedTime, hwritten,
      hobservedTime⟩, hstates⟩

theorem meetsContract_of_uncertified (h : Uncertified p) (hschema : p.schemaVersion = "1.1")
    (hsource : ∃ s, p.sourceID = .str s ∧ s ≠ "") (hparser : ∃ s, p.parserID = .str s ∧ s ≠ "") :
    p.MeetsContract ↔
      ∃ s, p.parserVersion = .str s ∧ Schema.matchesPattern versionPattern s = true := by
  obtain ⟨source, hsource, hsourceNe⟩ := hsource
  obtain ⟨parser, hparser, hparserNe⟩ := hparser
  obtain ⟨hvalidation, hcertification, htimestamp, hscores, hdrift, hobserved⟩ := h
  have hconst : ∀ m ∈ p.scores, const "NOT YET MEASURED" m.2 = true := by
    rw [hscores, List.forall_mem_map]
    exact fun name hname => rfl
  have hunmeasured := scores_of_forall hconst
  have hnames : p.scores.map Prod.fst = metricNames := by
    rw [hscores, List.map_map]
    exact List.map_id _
  have hrecord : record (Contracts.TelemetryPassport.metricNames.map fun name =>
      (name, Contracts.TelemetryPassport.metric)) (.obj p.scores) = true :=
    record_metrics hnames fun m hm => either_iff.mpr (.inr (hconst m hm))
  have hchecks : p.MeetsContract ↔ source ≠ "" ∧ parser ≠ "" ∧
      Contracts.RepairReport.version.valid p.parserVersion = true := by
    rw [TelemetryPassport.MeetsContract, Contracts.telemetryPassport, TelemetryPassport.dict]
    obtain ⟨hstatus, hrun, hcompleted⟩ |
      ⟨hstatus, ⟨run, hrun, hrunNe⟩, completed, hcompleted, htime⟩ := hvalidation
    · simp [Contracts.TelemetryPassport.shape, Contracts.TelemetryPassport.status,
        Contracts.TelemetryPassport.whenCertified, Contracts.TelemetryPassport.whenNotCertified,
        record_obj_iff, lookup_cons, hunmeasured, hrecord, hstatus, hrun, hcompleted,
        hcertification, htimestamp, hdrift, hobserved, hsource, hparser, ofOption, hschema]
    · simp [Contracts.TelemetryPassport.shape, Contracts.TelemetryPassport.status,
        Contracts.TelemetryPassport.whenCertified, Contracts.TelemetryPassport.whenNotCertified,
        Contracts.RepairReport.dateTime, record_obj_iff, lookup_cons, hunmeasured, hrecord,
        hstatus, hrun, hrunNe, hcompleted, htime, hcertification, htimestamp, hdrift, hobserved,
        hsource, hparser, ofOption, hschema]
  rw [hchecks, Contracts.RepairReport.version, Contract.valid_string_iff,
    and_iff_right hsourceNe, and_iff_right hparserNe]

/-- A passport that `build` returns satisfies its contract exactly when the version of the parser
is three numbers. -/
theorem build_meetsContract_iff {evidence : Option ValidationEvidence}
    (hclock : ∀ e ∈ evidence, e.OfClock)
    (h : build sourceID parserID parserVersion evidence = .ok p) :
    p.MeetsContract ↔
      ∃ s, parserVersion = .str s ∧ Schema.matchesPattern versionPattern s = true := by
  obtain ⟨hcertified | huncertified, hschema, hsource, hparser, rfl⟩ := build_spec hclock h
  · exact meetsContract_of_certified hcertified hschema hsource hparser
  · exact meetsContract_of_uncertified huncertified hschema hsource hparser

end Contract

section Example

/-- A run that has passed with full marks. -/
def passedEvidence : ValidationEvidence where
  runID := "run-1"
  completedAt := .nowUtc (isoformat 0)
  passed := true
  metrics := Dict.ofList (metricNames.map fun name => (name, .num (.int 1)))
  driftState := some "STABLE"
  driftObservedAt := some (.nowUtc (isoformat 0))

theorem build_meetsContract_passed :
    ∃ p, build (.str "fw-01") (.str "vendor.firewall") (.str "1.0.0") (some passedEvidence) =
      .ok p ∧ p.MeetsContract := by
  have hclock : Moment.OfClock (.nowUtc (isoformat 0)) := by
    intro iso hiso
    exact ⟨0, by decide, (Except.ok.inj hiso).symm⟩
  cases h : build (.str "fw-01") (.str "vendor.firewall") (.str "1.0.0") (some passedEvidence) with
  | error e =>
      have hok : (build (.str "fw-01") (.str "vendor.firewall") (.str "1.0.0")
        (some passedEvidence)).toBool = true := by decide +kernel
      rw [h] at hok
      exact absurd hok Bool.false_ne_true
  | ok p =>
      refine ⟨p, rfl, (build_meetsContract_iff ?_ h).mpr ⟨"1.0.0", rfl, by decide +kernel⟩⟩
      rintro e ⟨⟩
      exact ⟨hclock, fun observedAt hobserved => by cases hobserved; exact hclock⟩

end Example

end Ulpf.Passport
