import Ulpf.SemanticMapper.Knowledge

/-!
What the mapper decides: scores between zero and one, conflicts that are always given up,
and a summary that counts every field once.
-/

namespace Ulpf.SemanticMapper

open Ulpf.Lib
open Ulpf.Lib.Binary64 (fl fl_monotone roundTo_monotone)
open Ulpf.SourceProfiler

section Scores

theorem boost_mono (bonus : ℚ) : Monotone (boost bonus) := by
  intro score score' h
  exact min_le_min_left 1 (fl_monotone (add_le_add_left h _))

theorem finalScore_mono : Monotone finalScore := by
  intro score score' h
  exact max_le_max_left 0 (min_le_min_left 1 (roundTo_monotone 4 h))

theorem finalScore_mem_Icc (baseScore : ℚ) : finalScore baseScore ∈ Set.Icc 0 1 :=
  ⟨le_max_left 0 _, max_le zero_le_one (min_le_left 1 _)⟩

example : finalScore (3 / 2) = 1 := by decide +kernel

theorem foldl_bonusWhen_le {applies : Bool} {bonus bound score : ℚ} {note : String}
    (h : score ≤ bound) (hbonus : bound ≤ boost bonus bound) :
    (bonusWhen applies bonus note).foldl (fun score bonus => boost bonus.1 score) score ≤
      boost bonus bound := by
  cases applies with
  | true => exact boost_mono bonus h
  | false => exact h.trans hbonus

/-- What every bonus together can make of a hard conflict. -/
def conflictBound : ℚ :=
  boost (2 / 100) (boost (3 / 100) (boost (3 / 100) (boost (3 / 100) (fl (65 / 100)))))

theorem foldl_bonuses_le {score : ℚ} (h : score ≤ fl (65 / 100)) (fieldProfile : FieldProfile)
    (canonicalDefn : CanonicalFieldDefinition) (eventFamily : Option String) :
    (bonuses fieldProfile canonicalDefn eventFamily).foldl
      (fun score bonus => boost bonus.1 score) score ≤ conflictBound := by
  rw [bonuses, List.foldl_append, List.foldl_append, List.foldl_append, conflictBound]
  refine foldl_bonusWhen_le ?_ (by decide +kernel)
  refine foldl_bonusWhen_le ?_ (by decide +kernel)
  refine foldl_bonusWhen_le ?_ (by decide +kernel)
  exact foldl_bonusWhen_le h (by decide +kernel)

theorem thresholds :
    (0 : ℚ) < humanReviewThreshold ∧ humanReviewThreshold < autoAcceptThreshold := by
  decide +kernel

theorem finalScore_conflictBound_lt : finalScore conflictBound < humanReviewThreshold := by
  decide +kernel

theorem reviewStatus_eq_autoAccepted_iff {isHardConflict : Bool} {score : ℚ} :
    reviewStatus isHardConflict score = .autoAccepted ↔
      autoAcceptThreshold ≤ score ∧ isHardConflict = false := by
  rw [reviewStatus]
  cases isHardConflict with
  | true =>
      rw [if_pos rfl]
      split <;> simp
  | false =>
      rw [if_neg Bool.false_ne_true, and_iff_left rfl]
      split
      · rename_i haccepted
        exact iff_of_true rfl haccepted
      · rename_i hlow
        refine iff_of_false ?_ hlow
        split <;> decide

end Scores

section Candidates

variable {u : Unicode} {similarity : String → String → ℚ} {rawField : String}
  {fieldProfile : FieldProfile} {canonicalDefn : CanonicalFieldDefinition}
  {eventFamily : Option String}

/-- What the thresholds make of a candidate. -/
structure DecidedBy (rawField : String) (candidate : MappingCandidate) : Prop where
  score : candidate.mappingScore ∈ Set.Icc 0 1
  conflict : candidate.hardTypeConflict = true → candidate.reviewStatus = .abstain
  accepted : candidate.reviewStatus = .autoAccepted →
    autoAcceptThreshold ≤ candidate.mappingScore ∧ candidate.hardTypeConflict = false
  preserved : candidate.reviewStatus = .abstain ↔
    candidate.preserveInExtensions = true ∧ candidate.destinationPath = extensionPath rawField

theorem mappingScore_lt_of_conflict
    (h : (scoreCandidate u similarity rawField fieldProfile canonicalDefn
      eventFamily).hardTypeConflict = true) :
    (scoreCandidate u similarity rawField fieldProfile canonicalDefn eventFamily).mappingScore <
      humanReviewThreshold := by
  refine lt_of_le_of_lt (finalScore_mono (foldl_bonuses_le ?_ _ _ _)) finalScore_conflictBound_lt
  obtain ⟨compatible, hcompatible⟩ : ∃ compatible,
      evaluateTypeCompatibility u fieldProfile.inferredType canonicalDefn.expectedTypes
        (some fieldProfile) = (compatible, true) := ⟨_, Prod.ext rfl h⟩
  rw [hcompatible, typedScore]
  exact min_le_right _ _

theorem reviewStatus_scoreCandidate_iff :
    (scoreCandidate u similarity rawField fieldProfile canonicalDefn eventFamily).reviewStatus =
        .autoAccepted ↔
      autoAcceptThreshold ≤
        (scoreCandidate u similarity rawField fieldProfile canonicalDefn
          eventFamily).mappingScore := by
  refine reviewStatus_eq_autoAccepted_iff.trans (and_iff_left_of_imp fun haccepted => ?_)
  rw [← Bool.not_eq_true]
  intro hconflict
  have hlow := haccepted.trans_lt (mappingScore_lt_of_conflict hconflict)
  exact absurd hlow thresholds.2.not_gt

theorem decidedBy_scoreCandidate :
    DecidedBy rawField
      (scoreCandidate u similarity rawField fieldProfile canonicalDefn eventFamily) := by
  constructor
  case score => exact finalScore_mem_Icc _
  case conflict =>
    intro h
    have hlow := mappingScore_lt_of_conflict h
    dsimp only [scoreCandidate] at h hlow ⊢
    rw [reviewStatus, if_pos h, if_pos hlow]
  case accepted => exact reviewStatus_eq_autoAccepted_iff.mp
  case preserved =>
    dsimp only [scoreCandidate]
    rw [decide_eq_true_iff]
    constructor
    · intro h
      exact ⟨h, if_pos h⟩
    · exact And.left

theorem decidedBy_abstained {best : MappingCandidate} (h : DecidedBy rawField best) :
    DecidedBy rawField (abstained rawField best) :=
  ⟨h.score, fun _ => rfl, fun h => (nomatch h), iff_of_true rfl ⟨rfl, rfl⟩⟩

theorem decidedBy_fallback : DecidedBy rawField (fallback rawField) :=
  ⟨⟨le_rfl, zero_le_one⟩, fun _ => rfl, fun h => (nomatch h), iff_of_true rfl ⟨rfl, rfl⟩⟩

end Candidates

section Fields

variable {u : Unicode} {similarity : String → String → ℚ}
  {registry : List CanonicalFieldDefinition} {eventFamily : Option String} {topN : ℤ}

variable (u similarity registry eventFamily) in
theorem mem_rankedCandidates_iff (fieldProfile : FieldProfile) (candidate : MappingCandidate) :
    candidate ∈ rankedCandidates u similarity registry eventFamily fieldProfile ↔
      ∃ defn ∈ registry, scoreCandidate u similarity fieldProfile.name fieldProfile defn
        eventFamily = candidate := by
  rw [rankedCandidates, List.mem_mergeSort, List.mem_map]

variable (u similarity registry eventFamily) in
theorem pairwise_rankedCandidates (fieldProfile : FieldProfile) :
    (rankedCandidates u similarity registry eventFamily fieldProfile).Pairwise
      fun a b => b.mappingScore ≤ a.mappingScore := by
  have hsorted := @List.pairwise_mergeSort _
    (fun a b : MappingCandidate => decide (b.mappingScore ≤ a.mappingScore))
    (fun a b c hab hbc => by
      rw [decide_eq_true_iff] at *
      exact hbc.trans hab)
    (fun a b => by
      rw [Bool.or_eq_true, decide_eq_true_iff, decide_eq_true_iff]
      exact le_total _ _)
    (registry.map fun defn =>
      scoreCandidate u similarity fieldProfile.name fieldProfile defn eventFamily)
  exact hsorted.imp fun h => of_decide_eq_true h

theorem firstN_cons {α : Type} {n : ℤ} (hn : 1 ≤ n) (x : α) (xs : List α) :
    firstN n (x :: xs) = x :: xs.take (n.toNat - 1) := by
  rw [firstN, if_pos (by omega)]
  obtain ⟨m, hm⟩ : ∃ m, n.toNat = m + 1 := ⟨n.toNat - 1, by omega⟩
  rw [hm, List.take_succ_cons, Nat.add_sub_cancel]

/-- The best candidate, as `map_field` returns it. -/
def chosen (rawField : String) (best : MappingCandidate) : MappingCandidate :=
  if best.mappingScore < humanReviewThreshold then abstained rawField best else best

theorem mapField_eq (htop : 1 ≤ topN) (fieldProfile : FieldProfile) :
    mapField u similarity registry eventFamily topN fieldProfile =
      match rankedCandidates u similarity registry eventFamily fieldProfile with
      | best :: rest =>
          ⟨fieldProfile.name, chosen fieldProfile.name best,
            chosen fieldProfile.name best :: rest.take (topN.toNat - 1)⟩
      | [] => ⟨fieldProfile.name, fallback fieldProfile.name, []⟩ := by
  rw [mapField]
  cases rankedCandidates u similarity registry eventFamily fieldProfile with
  | nil => rw [show firstN topN ([] : List MappingCandidate) = [] by simp [firstN]]
  | cons best rest =>
      rw [firstN_cons htop]
      rfl

theorem decidedBy_chosen {rawField : String} {best : MappingCandidate}
    (h : DecidedBy rawField best) : DecidedBy rawField (chosen rawField best) := by
  rw [chosen]
  split
  · exact decidedBy_abstained h
  · exact h

theorem mappingScore_chosen (rawField : String) (best : MappingCandidate) :
    (chosen rawField best).mappingScore = best.mappingScore := by
  rw [chosen]
  split <;> rfl

theorem canonicalPath_chosen (rawField : String) (best : MappingCandidate) :
    (chosen rawField best).canonicalPath = best.canonicalPath := by
  rw [chosen]
  split <;> rfl

/-- What `map_field` promises of its result. -/
structure DecidedField (u : Unicode) (similarity : String → String → ℚ)
    (registry : List CanonicalFieldDefinition) (eventFamily : Option String)
    (profile : FieldProfile) (result : FieldMappingResult) : Prop where
  scored : ∀ defn ∈ registry, DecidedBy profile.name
    (scoreCandidate u similarity profile.name profile defn eventFamily)
  chosen : DecidedBy profile.name result.chosenMapping
  top : ∀ candidate ∈ result.topCandidates, DecidedBy profile.name candidate
  maximal : ∀ defn ∈ registry,
    (scoreCandidate u similarity profile.name profile defn eventFamily).mappingScore ≤
      result.chosenMapping.mappingScore
  attained : registry ≠ [] → ∃ defn ∈ registry,
    result.chosenMapping.canonicalPath = defn.path ∧ result.chosenMapping.mappingScore =
      (scoreCandidate u similarity profile.name profile defn eventFamily).mappingScore

theorem decidedField_mapField (htop : 1 ≤ topN) (profile : FieldProfile) :
    DecidedField u similarity registry eventFamily profile
      (mapField u similarity registry eventFamily topN profile) := by
  have hmem (candidate : MappingCandidate) :=
    mem_rankedCandidates_iff u similarity registry eventFamily profile candidate
  have hsorted := pairwise_rankedCandidates u similarity registry eventFamily profile
  have hdecided (candidate : MappingCandidate)
      (h : candidate ∈ rankedCandidates u similarity registry eventFamily profile) :
      DecidedBy profile.name candidate := by
    obtain ⟨defn, -, rfl⟩ := (hmem candidate).mp h
    exact decidedBy_scoreCandidate
  rw [mapField_eq htop]
  cases hranked : rankedCandidates u similarity registry eventFamily profile with
  | nil =>
      have hnone (defn : CanonicalFieldDefinition) (hdefn : defn ∈ registry) : False := by
        have := (hmem _).mpr ⟨defn, hdefn, rfl⟩
        rw [hranked] at this
        cases this
      exact ⟨fun _ _ => decidedBy_scoreCandidate, decidedBy_fallback,
        fun _ h => absurd h List.not_mem_nil, fun defn hdefn => (hnone defn hdefn).elim,
        fun hne => (hnone _ (List.head_mem hne)).elim⟩
  | cons best rest =>
      rw [hranked] at hmem hsorted hdecided
      have hbest := decidedBy_chosen (hdecided best List.mem_cons_self)
      constructor
      case scored => exact fun _ _ => decidedBy_scoreCandidate
      case chosen => exact hbest
      case top =>
        intro candidate hcandidate
        obtain rfl | hrest := List.mem_cons.mp hcandidate
        · exact hbest
        · exact hdecided candidate (List.mem_cons_of_mem _ (List.mem_of_mem_take hrest))
      case maximal =>
        intro defn hdefn
        rw [mappingScore_chosen]
        obtain heq | hrest := List.mem_cons.mp ((hmem _).mpr ⟨defn, hdefn, rfl⟩)
        · rw [heq]
        · exact List.rel_of_pairwise_cons hsorted hrest
      case attained =>
        intro _
        obtain ⟨defn, hdefn, rfl⟩ := (hmem best).mp List.mem_cons_self
        exact ⟨defn, hdefn, canonicalPath_chosen _ _, mappingScore_chosen _ _⟩

theorem reviewStatus_mapField_iff (htop : 1 ≤ topN) (profile : FieldProfile) :
    (mapField u similarity registry eventFamily topN profile).chosenMapping.reviewStatus =
        .autoAccepted ↔
      autoAcceptThreshold ≤
        (mapField u similarity registry eventFamily topN profile).chosenMapping.mappingScore := by
  rw [mapField_eq htop]
  cases hranked : rankedCandidates u similarity registry eventFamily profile with
  | nil =>
      exact iff_of_false (fun h => nomatch h) (thresholds.1.trans thresholds.2).not_ge
  | cons best rest =>
      have hbest : best ∈ rankedCandidates u similarity registry eventFamily profile := by
        rw [hranked]
        exact List.mem_cons_self
      obtain ⟨defn, -, rfl⟩ := (mem_rankedCandidates_iff u similarity registry eventFamily profile
        best).mp hbest
      dsimp only
      rw [mappingScore_chosen, chosen]
      split
      · rename_i hlow
        exact iff_of_false (fun h => nomatch h) (not_le.mpr (hlow.trans thresholds.2))
      · exact reviewStatus_scoreCandidate_iff

end Fields

section Sources

variable {u : Unicode} {similarity : String → String → ℚ}
  {registry : List CanonicalFieldDefinition} {eventFamily : Option String} {topN : ℤ}

/-- The result for every field, under the name of the field. -/
def fieldResults (u : Unicode) (similarity : String → String → ℚ)
    (registry : List CanonicalFieldDefinition) (eventFamily : Option String) (topN : ℤ)
    (fields : List (String × FieldProfile)) : List (String × FieldMappingResult) :=
  fields.map fun field => (field.1, mapField u similarity registry eventFamily topN field.2)

def countStatus (status : ReviewStatus) (results : List (String × FieldMappingResult)) : ℕ :=
  results.countP fun result => result.2.chosenMapping.reviewStatus = status

theorem fst_foldl_addField (fields : List (String × FieldProfile))
    (acc : Dict String FieldMappingResult × Summary) :
    (fields.foldl (addField u similarity registry eventFamily topN) acc).1 =
      acc.1.update (fieldResults u similarity registry eventFamily topN fields) := by
  induction fields generalizing acc with
  | nil => rfl
  | cons field rest ih =>
      rw [List.foldl_cons, ih]
      rfl

theorem countChosen_eq (summary : Summary) (chosen : MappingCandidate) :
    (countChosen summary chosen).autoAcceptedCount =
        summary.autoAcceptedCount + (if chosen.reviewStatus = .autoAccepted then 1 else 0) ∧
      (countChosen summary chosen).humanReviewCount =
        summary.humanReviewCount + (if chosen.reviewStatus = .humanReview then 1 else 0) ∧
      (countChosen summary chosen).abstainedCount =
        summary.abstainedCount + (if chosen.reviewStatus = .abstain then 1 else 0) := by
  rw [countChosen]
  cases chosen.reviewStatus <;> simp

variable (u similarity registry eventFamily topN) in
theorem snd_foldl_addField (fields : List (String × FieldProfile))
    (acc : Dict String FieldMappingResult × Summary) :
    let summary := (fields.foldl (addField u similarity registry eventFamily topN) acc).2
    let results := fieldResults u similarity registry eventFamily topN fields
    summary.autoAcceptedCount = acc.2.autoAcceptedCount + countStatus .autoAccepted results ∧
      summary.humanReviewCount = acc.2.humanReviewCount + countStatus .humanReview results ∧
      summary.abstainedCount = acc.2.abstainedCount + countStatus .abstain results := by
  induction fields generalizing acc with
  | nil => exact ⟨rfl, rfl, rfl⟩
  | cons field rest ih =>
      obtain ⟨haccepted, hreview, habstained⟩ := ih (addField u similarity registry eventFamily topN
        acc field)
      obtain ⟨haccepted', hreview', habstained'⟩ := countChosen_eq acc.2
        (mapField u similarity registry eventFamily topN field.2).chosenMapping
      simp only [countStatus, fieldResults, List.map_cons, List.countP_cons, decide_eq_true_eq,
        List.foldl_cons] at haccepted hreview habstained ⊢
      rw [haccepted, hreview, habstained, addField, haccepted', hreview', habstained']
      omega

theorem countStatus_add (results : List (String × FieldMappingResult)) :
    countStatus .autoAccepted results + countStatus .humanReview results +
      countStatus .abstain results = results.length := by
  induction results with
  | nil => rfl
  | cons result rest ih =>
      simp only [countStatus, List.countP_cons, decide_eq_true_eq, List.length_cons] at ih ⊢
      cases result.2.chosenMapping.reviewStatus <;> simp <;> omega

/-- What `map_source` promises of its report. -/
structure DecidedSource (u : Unicode) (similarity : String → String → ℚ)
    (registry : List CanonicalFieldDefinition) (eventFamily : Option String)
    (fields : Dict String FieldProfile) (report : SourceMappingReport) : Prop where
  keys : report.mappings.keys = fields.keys
  decided : ∀ name profile, fields.get? name = some profile →
    ∃ result, report.mappings.get? name = some result ∧
      DecidedField u similarity registry eventFamily profile result
  accepted : report.summary.autoAcceptedCount =
    countStatus .autoAccepted report.mappings.entries
  review : report.summary.humanReviewCount = countStatus .humanReview report.mappings.entries
  abstained : report.summary.abstainedCount = countStatus .abstain report.mappings.entries
  partition : report.summary.autoAcceptedCount + report.summary.humanReviewCount +
    report.summary.abstainedCount = report.summary.totalFields
  total : report.summary.totalFields = fields.entries.length

/-- Every report of `map_source` is decided as the thresholds say, whatever the registry and
the measure of similarity. -/
theorem decidedSource_mapSource (htop : 1 ≤ topN) (u : Unicode)
    (similarity : String → String → ℚ) (registry : List CanonicalFieldDefinition)
    (eventFamily : Option String) (sourceProfile : SourceProfile) (sourceId : Option String) :
    DecidedSource u similarity registry eventFamily sourceProfile.fields
      (mapSource u similarity registry eventFamily topN sourceProfile sourceId) := by
  have hentries : (mapSource u similarity registry eventFamily topN sourceProfile
      sourceId).mappings.entries =
      fieldResults u similarity registry eventFamily topN sourceProfile.fields.entries := by
    dsimp only [mapSource]
    rw [fst_foldl_addField]
    apply Dict.entries_ofList_of_nodup
    rw [fieldResults, List.map_map]
    exact sourceProfile.fields.nodup
  obtain ⟨haccepted, hreview, habstained⟩ := snd_foldl_addField u similarity registry eventFamily
    topN sourceProfile.fields.entries (Dict.empty, ⟨0, 0, 0, 0, 0⟩)
  rw [Nat.zero_add, ← hentries] at haccepted hreview habstained
  constructor
  case keys =>
    rw [Dict.keys, hentries, fieldResults, List.map_map]
    rfl
  case decided =>
    intro name profile hprofile
    refine ⟨_, Dict.get?_eq_some_iff.mpr ?_, decidedField_mapField htop profile⟩
    rw [hentries]
    exact List.mem_map_of_mem (Dict.get?_eq_some_iff.mp hprofile)
  case accepted => exact haccepted
  case review => exact hreview
  case abstained => exact habstained
  case partition =>
    have hcounts := countStatus_add (mapSource u similarity registry eventFamily topN sourceProfile
      sourceId).mappings.entries
    rw [← haccepted, ← hreview, ← habstained] at hcounts
    exact hcounts
  case total =>
    calc (mapSource u similarity registry eventFamily topN sourceProfile
          sourceId).summary.totalFields
        = (mapSource u similarity registry eventFamily topN sourceProfile
          sourceId).mappings.entries.length := rfl
      _ = sourceProfile.fields.entries.length := by rw [hentries, fieldResults, List.length_map]

/-- A source with one field, a port seen as an integer. -/
def portSource : SourceProfile where
  format := .json
  confidence := 1
  totalRecords := 1
  validRecords := 1
  corruptedRecords := 0
  fields := Dict.ofList [("spt", .new "spt" "integer")]
  templates := []
  delimiter := none
  metadata := ⟨none, none⟩
  sampleEvents := []

theorem decidedSource_mapSource_port :
    DecidedSource Unicode.ascii (fun _ _ => 0) definitions (some "FIREWALL_POLICY")
      portSource.fields
      (mapSource Unicode.ascii (fun _ _ => 0) definitions (some "FIREWALL_POLICY") 3 portSource
        none) :=
  decidedSource_mapSource (by decide) Unicode.ascii (fun _ _ => 0) definitions
    (some "FIREWALL_POLICY") portSource none

end Sources

end Ulpf.SemanticMapper
