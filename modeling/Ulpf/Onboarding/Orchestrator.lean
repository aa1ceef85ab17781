import Ulpf.Lib.Dict
import Ulpf.Lib.Outcome
import Ulpf.SourceProfiler.Profiler

/-!
`OnboardingOrchestrator`: profiling, semantic mapping and escalation of a new source.
The profiler, the mapping of one field and the assistant are the parts it is built
from; what a profile says about a field is left to them.
-/

namespace Ulpf.Onboarding

open Ulpf.Lib
open Ulpf.Python
open Ulpf.SourceProfiler (LogFormat)

/-- `ReviewStatus`: who decides about a mapping. -/
inductive ReviewStatus where
  | autoAccepted
  | humanReview
  | abstain
  deriving DecidableEq

/-- What the orchestrator reads of a candidate. -/
structure MappingCandidate where
  rawField : String
  canonicalPath : String
  reviewStatus : ReviewStatus
  isCritical : Bool
  destinationPath : String
  deriving DecidableEq

structure FieldMappingResult where
  rawField : String
  chosenMapping : MappingCandidate
  deriving DecidableEq

/-- What the mapper reports, as the orchestrator would read it. -/
structure SourceMappingReport where
  sourceID : Option String
  eventFamily : Option String
  mappings : Dict String FieldMappingResult
  summary : Dict String ℕ

/-- What the mapper and the orchestrator read of a profile. -/
structure SourceProfile (φ : Type) where
  format : LogFormat
  fields : Dict String φ

section Mapper

variable {φ : Type} (mapField : φ → Except PyError FieldMappingResult)

/-- What `map_source` collects in its loop. -/
structure MappingTally where
  results : Dict String FieldMappingResult
  autoAccepted : ℕ
  humanReview : ℕ
  abstained : ℕ
  criticalMapped : ℕ

namespace MappingTally

def empty : MappingTally := ⟨Dict.empty, 0, 0, 0, 0⟩

/-- A result is counted under its review status. -/
def add (t : MappingTally) (fieldName : String) (res : FieldMappingResult) : MappingTally :=
  let chosen := res.chosenMapping
  let t := { t with results := t.results.set fieldName res }
  let t :=
    match chosen.reviewStatus with
    | .autoAccepted => { t with autoAccepted := t.autoAccepted + 1 }
    | .humanReview => { t with humanReview := t.humanReview + 1 }
    | .abstain => { t with abstained := t.abstained + 1 }
  if chosen.isCritical && chosen.reviewStatus ≠ .abstain then
    { t with criticalMapped := t.criticalMapped + 1 }
  else t

end MappingTally

/-- A round of `map_source`. -/
def mapSourceStep (t : MappingTally) (field : String × φ) : Except PyError MappingTally := do
  let res ← mapField field.2
  return t.add field.1 res

/-- `map_source` -/
def mapSource (profile : SourceProfile φ) (sourceID eventFamily : Option String) :
    Except PyError SourceMappingReport := do
  let t ← profile.fields.entries.foldlM (mapSourceStep mapField) MappingTally.empty
  return {
    sourceID := sourceID
    eventFamily := eventFamily
    mappings := t.results
    summary := Dict.ofList
      [("total_fields", t.results.entries.length), ("auto_accepted_count", t.autoAccepted),
        ("human_review_count", t.humanReview), ("abstained_count", t.abstained),
        ("critical_fields_mapped", t.criticalMapped)] }

/-- `map_fields` -/
def mapFields (fieldProfiles : Dict String φ) (sourceID eventFamily : Option String) :
    Except PyError SourceMappingReport :=
  mapSource mapField ⟨.unknown, fieldProfiles⟩ sourceID eventFamily

end Mapper

section Duck

/-- What reading an attribute or a member of a mapping result can give. -/
inductive Attribute where
  | text (s : Option String)
  | mappings (m : Dict String FieldMappingResult)
  | summary (m : Dict String ℕ)
  | method
  | results (xs : List FieldMappingResult)

/-- The attributes of a report object. -/
def SourceMappingReport.getattr? (r : SourceMappingReport) : String → Option Attribute
  | "source_id" => some (.text r.sourceID)
  | "event_family" => some (.text r.eventFamily)
  | "mappings" => some (.mappings r.mappings)
  | "summary" => some (.summary r.summary)
  | "to_dict" => some .method
  | "to_json" => some .method
  | _ => none

/-- What `map_fields` may return: a dictionary or an object. -/
inductive MappingResult where
  | dict (members : Dict String Attribute)
  | report (r : SourceMappingReport)

/-- `mapping_result.get(name, [])` of a dictionary, `getattr(mapping_result, name, [])`
of an object. -/
def MappingResult.outcome (m : MappingResult) (name : String) : Attribute :=
  match m with
  | .dict members => (members.get? name).getD (.results [])
  | .report r => (r.getattr? name).getD (.results [])

/-- An outcome as the list it is concatenated and counted as. -/
def Attribute.list : Attribute → Except PyError (List FieldMappingResult)
  | .results xs => return xs
  | _ => throw .typeError

end Duck

/-- `LogFormat.name`, which for each format is its value. -/
def formatName : LogFormat → String := LogFormat.value

/-- The package that a run returns. -/
structure Package where
  sourceID : String
  status : String
  detectedFormat : String
  deterministicMappings : List FieldMappingResult
  escalatedFields : List FieldMappingResult
  aiCandidateSpecs : List PyVal
  totalFields : ℕ
  autoAcceptedCount : ℕ
  escalatedCount : ℕ

inductive OnboardingError where
  | valueError (message : String)
  | raised (e : PyError)

/-- The parts of an orchestrator. The assistant gets the candidate id, the source
format, the unmapped fields and a sample of the log. -/
structure OnboardingOrchestrator (φ : Type) where
  profile : List String → Except PyError (SourceProfile φ)
  mapField : φ → Except PyError FieldMappingResult
  proposeMappings : String → String → List FieldMappingResult → String → Except PyError PyVal

namespace OnboardingOrchestrator

variable {φ : Type} (o : OnboardingOrchestrator φ)

/-- The stages of `run_pipeline` after its check of the arguments. -/
def runStages (sourceID : String) (logLines : List String) : Except PyError Package := do
  let profile ← o.profile logLines
  let detectedFormat := "LogFormat." ++ formatName profile.format
  let mappingResult := MappingResult.report (← mapFields o.mapField profile.fields none none)
  let autoAccepted ← (mappingResult.outcome "auto_accept").list
  let humanReview ← (mappingResult.outcome "human_review").list
  let abstained ← (mappingResult.outcome "abstained").list
  let escalatedFields := humanReview ++ abstained
  let aiCandidateSpecs ←
    if escalatedFields.isEmpty then pure []
    else do
      let logSample := "\n".intercalate (logLines.take 5)
      let aiSpec ← o.proposeMappings ("cand_" ++ sourceID) detectedFormat escalatedFields logSample
      pure [aiSpec]
  return {
    sourceID := sourceID
    status := if escalatedFields.isEmpty then "AUTO_APPROVED" else "READY_FOR_REVIEW"
    detectedFormat := detectedFormat
    deterministicMappings := autoAccepted
    escalatedFields := escalatedFields
    aiCandidateSpecs := aiCandidateSpecs
    totalFields := profile.fields.entries.length
    autoAcceptedCount := autoAccepted.length
    escalatedCount := escalatedFields.length }

/-- `run_pipeline` -/
def runPipeline (sourceID : String) (logLines : List String) : Except OnboardingError Package :=
  if logLines.isEmpty then .error (.valueError "log_lines list cannot be empty.")
  else (o.runStages sourceID logLines).mapError .raised

end OnboardingOrchestrator

section Mapping

variable {φ : Type} {mapField : φ → Except PyError FieldMappingResult}

/-- The three outcomes of the mapper. -/
def MappingTally.outcomes (t : MappingTally) : ℕ := t.autoAccepted + t.humanReview + t.abstained

theorem outcomes_add (t : MappingTally) (fieldName : String) (res : FieldMappingResult) :
    (t.add fieldName res).outcomes = t.outcomes + 1 := by
  rw [MappingTally.add, MappingTally.outcomes, MappingTally.outcomes]
  split <;> cases res.chosenMapping.reviewStatus <;> grind

theorem outcomes_foldlM {fields : List (String × φ)} {t t' : MappingTally}
    (h : fields.foldlM (mapSourceStep mapField) t = .ok t') :
    t'.outcomes = t.outcomes + fields.length := by
  induction fields generalizing t with
  | nil =>
      cases h
      rfl
  | cons field fields ih =>
      rw [List.foldlM_cons, bind_eq_ok_iff] at h
      obtain ⟨t₁, hstep, hrest⟩ := h
      rw [mapSourceStep, bind_eq_ok_iff] at hstep
      obtain ⟨res, -, hres⟩ := hstep
      cases hres
      rw [ih hrest, outcomes_add, List.length_cons]
      omega

end Mapping

section Partition

variable {φ : Type} {o : OnboardingOrchestrator φ} {sourceID : String} {logLines : List String}
  {profile : SourceProfile φ} {package : Package}

/-- Every field of the profile is in exactly one list of the package, as the mapper
reviewed it; the counts add up; and only reviewed fields keep a package from approval. -/
structure Partitions (o : OnboardingOrchestrator φ) (profile : SourceProfile φ)
    (package : Package) : Prop where
  accepted : ∀ field ∈ profile.fields.entries, ∀ res, o.mapField field.2 = .ok res →
    res.chosenMapping.reviewStatus = .autoAccepted →
    res ∈ package.deterministicMappings ∧ res ∉ package.escalatedFields
  escalated : ∀ field ∈ profile.fields.entries, ∀ res, o.mapField field.2 = .ok res →
    res.chosenMapping.reviewStatus ≠ .autoAccepted →
    res ∈ package.escalatedFields ∧ res ∉ package.deterministicMappings
  counted : package.autoAcceptedCount + package.escalatedCount = package.totalFields
  approved : package.status = "AUTO_APPROVED" → ∀ field ∈ profile.fields.entries, ∀ res,
    o.mapField field.2 = .ok res → res.chosenMapping.reviewStatus = .autoAccepted

/-- A report has none of the attributes the orchestrator reads, so every list is empty. -/
theorem package_eq_of_runPipeline (hprofile : o.profile logLines = .ok profile)
    (h : o.runPipeline sourceID logLines = .ok package) :
    package = ⟨sourceID, "AUTO_APPROVED", "LogFormat." ++ formatName profile.format, [], [], [],
      profile.fields.entries.length, 0, 0⟩ := by
  rw [OnboardingOrchestrator.runPipeline] at h
  split at h
  · cases h
  · rw [mapError_eq_ok_iff, OnboardingOrchestrator.runStages, hprofile, ok_bind,
      bind_eq_ok_iff] at h
    obtain ⟨report, -, h⟩ := h
    cases h
    rfl

theorem partitions_iff (hprofile : o.profile logLines = .ok profile)
    (h : o.runPipeline sourceID logLines = .ok package) :
    Partitions o profile package ↔ profile.fields.entries = [] := by
  rw [package_eq_of_runPipeline hprofile h]
  constructor
  · intro hpartitions
    exact List.length_eq_zero_iff.mp hpartitions.counted.symm
  · intro hempty
    constructor
    · simp [hempty]
    · simp [hempty]
    · simp [hempty]
    · simp [hempty]

/-- What the mapper says about the field of an action or a user. -/
def acceptedField (rawField canonicalPath : String) : FieldMappingResult :=
  ⟨rawField, ⟨rawField, canonicalPath, .autoAccepted, true, canonicalPath⟩⟩

def actionUserProfile : SourceProfile String :=
  ⟨.keyValue, Dict.ofList [("action", "event.action"), ("user", "user.name")]⟩

/-- An orchestrator on a line with an action and a user, each a known alias of its path. -/
def actionUserOnboarding : OnboardingOrchestrator String where
  profile _ := .ok actionUserProfile
  mapField canonicalPath :=
    .ok (acceptedField (if canonicalPath = "event.action" then "action" else "user") canonicalPath)
  proposeMappings _ _ _ _ := .ok (.obj [])

def actionUserPackage : Package :=
  ⟨"src_fw_01", "AUTO_APPROVED", "LogFormat.KEY_VALUE", [], [], [], 2, 0, 0⟩

theorem runPipeline_actionUser :
    actionUserOnboarding.runPipeline "src_fw_01" ["action=ALLOW user=bob"] =
      .ok actionUserPackage := rfl

theorem partitions_iff_actionUser :
    Partitions actionUserOnboarding actionUserProfile actionUserPackage ↔
      actionUserProfile.fields.entries = [] :=
  partitions_iff rfl runPipeline_actionUser

/-- Both fields are accepted by the mapper and missing from the package. -/
theorem not_partitions_actionUser :
    ¬ ∀ package, actionUserOnboarding.runPipeline "src_fw_01" ["action=ALLOW user=bob"] =
      .ok package → Partitions actionUserOnboarding actionUserProfile package := by
  intro h
  have hcounted := (h actionUserPackage runPipeline_actionUser).counted
  cases hcounted

end Partition

end Ulpf.Onboarding
