import Ulpf.Lib.Rounding
import Ulpf.SourceProfiler.SourceProfile

/-!
`SemanticMapper`: every canonical field is scored as the target of a raw field, and the
best of them is accepted, left for review or given up. Floats are the binary64 values
Python computes, as exact rationals; a set is the list of its members in the order in which
the interpreter enumerates them.
-/

namespace Ulpf.SemanticMapper

open Ulpf.Lib
open Ulpf.Lib.Binary64 (fl roundTo fixed)
open Ulpf.Lib.Text (splitOn onChars)
open Ulpf.Python
open Ulpf.SourceProfiler

inductive ReviewStatus where
  | autoAccepted
  | humanReview
  | abstain
  deriving DecidableEq

/-- `CanonicalFieldDefinition`: a canonical field and what speaks for it. -/
structure CanonicalFieldDefinition where
  path : String
  expectedTypes : List String
  description : String
  isCritical : Bool
  eventFamilies : List String
  aliases : List String
  suggestedTransform : Option String
  deriving DecidableEq

/-- `MappingCandidate`: a canonical field for a raw one, with its score. -/
structure MappingCandidate where
  rawField : String
  canonicalPath : String
  mappingScore : ℚ
  evidence : List String
  reviewStatus : ReviewStatus
  isCritical : Bool
  hardTypeConflict : Bool
  suggestedTransformation : Option String
  preserveInExtensions : Bool
  destinationPath : String

/-- `FieldMappingResult`: the chosen candidate and its rivals. -/
structure FieldMappingResult where
  rawField : String
  chosenMapping : MappingCandidate
  topCandidates : List MappingCandidate

/-- `SourceMappingReport.summary` -/
structure Summary where
  totalFields : ℕ
  autoAcceptedCount : ℕ
  humanReviewCount : ℕ
  abstainedCount : ℕ
  criticalFieldsMapped : ℕ

/-- `SourceMappingReport`: the results of all fields. -/
structure SourceMappingReport where
  sourceId : Option String
  eventFamily : Option String
  mappings : Dict String FieldMappingResult
  summary : Summary

/-- `AUTO_ACCEPT_THRESHOLD` -/
def autoAcceptThreshold : ℚ := fl (95 / 100)

/-- `HUMAN_REVIEW_THRESHOLD` -/
def humanReviewThreshold : ℚ := fl (80 / 100)

section Names

/-- What is left of a text without the characters outside `[a-z0-9]`. -/
def squeeze (u : Unicode) (s : String) : String :=
  String.ofList ((lower u s).toList.filter fun c => c.isLower || Text.isDigit c)

/-- `_normalize_name` -/
def normalizeName (u : Unicode) (name : String) : String := squeeze u (strip name)

/-- `raw_field.strip().lower()` -/
def rawClean (u : Unicode) (rawField : String) : String := lower u (strip rawField)

/-- `path.split(".")[-1]` -/
def leafTarget (path : String) : String :=
  String.ofList (((splitOn ['.'] path.toList).getLast?).getD [])

end Names

section Types

/-- `all(int(str(v)) for v in values)`: the loop ends at the first zero. -/
def allIntegers (u : Unicode) : List PyVal → Except PyError Bool
  | [] => return true
  | v :: rest =>
      match parseInt u (str u v) with
      | none => throw .valueError
      | some n => if n = 0 then return false else allIntegers u rest

/-- The check that the samples could be parsed as integers. -/
def sampleCompatibility (u : Unicode) (sampleValues : List PyVal) : Bool × Bool :=
  if sampleValues.isEmpty then (false, true)
  else
    match allIntegers u sampleValues with
    | .ok _ => (true, false)
    | .error _ => (false, true)

/-- `evaluate_type_compatibility` -/
def evaluateTypeCompatibility (u : Unicode) (rawType : String) (expectedTypes : List String)
    (fieldProfile : Option FieldProfile) : Bool × Bool :=
  let expects (t : String) : Bool := expectedTypes.contains t
  let expectsIp : Bool := expects "ip" || expects "ipv4" || expects "ipv6"
  if rawType = "null" then (true, false)
  else if expects "string" && rawType = "string" then (true, false)
  else if expects rawType then (true, false)
  else if expectsIp && ["ipv4", "ipv6", "ip"].contains rawType then (true, false)
  else if expects "integer" && rawType = "integer" then (true, false)
  else if expects "float" && ["integer", "float"].contains rawType then (true, false)
  else if expects "integer" &&
      ["string", "ipv4", "ipv6", "timestamp", "email", "url", "json", "array"].contains rawType then
    sampleCompatibility u ((fieldProfile.map (·.sampleValues)).getD [])
  else if expectsIp && ["boolean", "float", "array", "json"].contains rawType then (false, true)
  else if expectsIp && rawType = "string" && fieldProfile.any fun p => !p.isIpCandidate then
    (false, true)
  else if expects "timestamp" &&
      ["boolean", "array", "json", "ipv4", "ipv6"].contains rawType then (false, true)
  else (false, false)

example (u : Unicode) (fieldProfile : Option FieldProfile) :
    evaluateTypeCompatibility u "boolean" ["ipv4", "ipv6", "ip"] fieldProfile = (false, true) := by
  simp [evaluateTypeCompatibility]

end Types

section Scores

variable (u : Unicode) (similarity : String → String → ℚ)

/-- A raw name is the path of a canonical field. -/
def isExactPath (rawField : String) (canonicalDefn : CanonicalFieldDefinition) : Bool :=
  rawClean u rawField = lower u canonicalDefn.path

/-- A raw name is an alias of a canonical field. -/
def isExactAlias (rawField : String) (canonicalDefn : CanonicalFieldDefinition) : Bool :=
  let normRaw := normalizeName u (rawClean u rawField)
  canonicalDefn.aliases.contains (rawClean u rawField) ||
    (canonicalDefn.aliases.map (normalizeName u)).contains normRaw ||
    (!isExactPath u rawField canonicalDefn && normRaw = normalizeName u canonicalDefn.path)

/-- The similarity of the raw name to the last part of the path or to an alias, whichever
is more. -/
def bestSimilarity (rawField : String) (canonicalDefn : CanonicalFieldDefinition) : ℚ :=
  let leafSim := similarity (rawClean u rawField) (leafTarget canonicalDefn.path)
  let aliasSims := canonicalDefn.aliases.map (similarity (rawClean u rawField))
  max leafSim (aliasSims.max?.getD 0)

/-- What similarity is worth as a score. -/
def similarityScore (bestSim : ℚ) : ℚ :=
  if fl (75 / 100) ≤ bestSim then fl (bestSim * fl (88 / 100))
  else if fl (50 / 100) ≤ bestSim then fl (bestSim * fl (60 / 100))
  else fl (bestSim * fl (40 / 100))

/-- The score of the name, and the evidence for it. -/
def lexicalScore (rawField : String) (canonicalDefn : CanonicalFieldDefinition) : ℚ × String :=
  if isExactPath u rawField canonicalDefn then (1, "exact_canonical_path_match")
  else if isExactAlias u rawField canonicalDefn then (fl (98 / 100), "exact_alias_match")
  else
    let baseScore := similarityScore (bestSimilarity u similarity rawField canonicalDefn)
    (baseScore, "lexical_similarity:" ++ String.ofList (fixed 2 baseScore))

/-- `min(1.0, score + bonus)` -/
def boost (bonus score : ℚ) : ℚ := min 1 (fl (score + fl bonus))

def typeNames (types : List String) : String := str u (.arr (types.map .str))

/-- The score once the types are compared, and the evidence. -/
def typedScore (rawType : String) (expectedTypes : List String) (compatibility : Bool × Bool)
    (baseScore : ℚ) : ℚ × String :=
  match compatibility with
  | (_, true) =>
      (min (fl (baseScore - fl (35 / 100))) (fl (65 / 100)),
        "hard_type_conflict:expected_" ++ typeNames u (expectedTypes.mergeSort fun a b => a ≤ b) ++
          "_got_" ++ rawType)
  | (true, false) =>
      (if ["ipv4", "ipv6", "timestamp", "email", "url"].contains rawType then
          boost (2 / 100) baseScore
        else baseScore,
        "datatype_compatible:" ++ rawType)
  | (false, false) =>
      (fl (baseScore - fl (15 / 100)),
        "datatype_mismatch:expected_" ++ typeNames u expectedTypes ++ "_got_" ++ rawType)

/-- A bonus with its evidence, when it applies. -/
def bonusWhen (applies : Bool) (bonus : ℚ) (note : String) : List (ℚ × String) :=
  if applies then [(bonus, note)] else []

/-- The bonuses a candidate gets for the shape of the values and for the event family. -/
def bonuses (fieldProfile : FieldProfile) (canonicalDefn : CanonicalFieldDefinition)
    (eventFamily : Option String) : List (ℚ × String) :=
  let expects (t : String) : Bool := canonicalDefn.expectedTypes.contains t
  let family := eventFamily.getD ""
  bonusWhen (fieldProfile.isIpCandidate && (expects "ipv4" || expects "ip"))
    (3 / 100) "is_ip_candidate_bonus" ++
  bonusWhen (fieldProfile.isTimestampCandidate && expects "timestamp")
    (3 / 100) "is_timestamp_candidate_bonus" ++
  bonusWhen (fieldProfile.isEnumCandidate &&
      ["event.action", "event.outcome", "network.protocol"].contains canonicalDefn.path)
    (3 / 100) "is_enum_candidate_bonus" ++
  bonusWhen (family ≠ "" && canonicalDefn.eventFamilies.contains family)
    (2 / 100) ("event_family_context:" ++ family)

/-- `max(0.0, min(1.0, round(base_score, 4)))` -/
def finalScore (baseScore : ℚ) : ℚ := max 0 (min 1 (roundTo 4 baseScore))

/-- The threshold decision. -/
def reviewStatus (isHardConflict : Bool) (score : ℚ) : ReviewStatus :=
  if isHardConflict then
    if score < humanReviewThreshold then .abstain else .humanReview
  else if autoAcceptThreshold ≤ score then .autoAccepted
  else if humanReviewThreshold ≤ score then .humanReview
  else .abstain

/-- `f"extensions.source.{raw_field}"` -/
def extensionPath (rawField : String) : String := "extensions.source." ++ rawField

/-- `score_candidate` -/
def scoreCandidate (rawField : String) (fieldProfile : FieldProfile)
    (canonicalDefn : CanonicalFieldDefinition) (eventFamily : Option String) :
    MappingCandidate :=
  let lexical := lexicalScore u similarity rawField canonicalDefn
  let rawType := fieldProfile.inferredType
  let compatibility :=
    evaluateTypeCompatibility u rawType canonicalDefn.expectedTypes (some fieldProfile)
  let typed := typedScore u rawType canonicalDefn.expectedTypes compatibility lexical.1
  let extra := bonuses fieldProfile canonicalDefn eventFamily
  let score := finalScore (extra.foldl (fun score bonus => boost bonus.1 score) typed.1)
  let status := reviewStatus compatibility.2 score
  { rawField := rawField
    canonicalPath := canonicalDefn.path
    mappingScore := score
    evidence := lexical.2 :: typed.2 :: extra.map Prod.snd
    reviewStatus := status
    isCritical := canonicalDefn.isCritical
    hardTypeConflict := compatibility.2
    suggestedTransformation := canonicalDefn.suggestedTransform
    preserveInExtensions := status = .abstain
    destinationPath :=
      if status = .abstain then extensionPath rawField else canonicalDefn.path }

end Scores

section Mapping

variable (u : Unicode) (similarity : String → String → ℚ)
  (registry : List CanonicalFieldDefinition) (eventFamily : Option String) (topN : ℤ)

/-- `candidates[:top_n]`; a negative bound counts from the end. -/
def firstN {α : Type} (n : ℤ) (xs : List α) : List α :=
  if 0 ≤ n then xs.take n.toNat else xs.take (xs.length - n.natAbs)

/-- All candidates, the best first; of equal ones the one that was registered first. -/
def rankedCandidates (fieldProfile : FieldProfile) : List MappingCandidate :=
  (registry.map fun defn =>
    scoreCandidate u similarity fieldProfile.name fieldProfile defn eventFamily).mergeSort
      fun a b => b.mappingScore ≤ a.mappingScore

/-- What `map_field` makes of a best candidate that is below the review threshold. -/
def abstained (rawField : String) (best : MappingCandidate) : MappingCandidate :=
  let note := "abstain_preserve_extension"
  { best with
    reviewStatus := .abstain
    preserveInExtensions := true
    destinationPath := extensionPath rawField
    evidence := if best.evidence.contains note then best.evidence else best.evidence ++ [note] }

/-- The result when there is no candidate. -/
def fallback (rawField : String) : MappingCandidate where
  rawField := rawField
  canonicalPath := extensionPath rawField
  mappingScore := 0
  evidence := ["no_match_found", "abstain_preserve_extension"]
  reviewStatus := .abstain
  isCritical := false
  hardTypeConflict := false
  suggestedTransformation := none
  preserveInExtensions := true
  destinationPath := extensionPath rawField

/-- `map_field` -/
def mapField (fieldProfile : FieldProfile) : FieldMappingResult :=
  let rawField := fieldProfile.name
  match firstN topN (rankedCandidates u similarity registry eventFamily fieldProfile) with
  | best :: rest =>
      let chosen :=
        if best.mappingScore < humanReviewThreshold then abstained rawField best else best
      ⟨rawField, chosen, chosen :: rest⟩
  | [] => ⟨rawField, fallback rawField, []⟩

/-- The counters after one more field. -/
def countChosen (summary : Summary) (chosen : MappingCandidate) : Summary where
  totalFields := summary.totalFields
  autoAcceptedCount :=
    if chosen.reviewStatus = .autoAccepted then summary.autoAcceptedCount + 1
    else summary.autoAcceptedCount
  humanReviewCount :=
    if chosen.reviewStatus = .humanReview then summary.humanReviewCount + 1
    else summary.humanReviewCount
  abstainedCount :=
    if chosen.reviewStatus ≠ .autoAccepted ∧ chosen.reviewStatus ≠ .humanReview then
      summary.abstainedCount + 1
    else summary.abstainedCount
  criticalFieldsMapped :=
    if chosen.isCritical ∧ chosen.reviewStatus ≠ .abstain then summary.criticalFieldsMapped + 1
    else summary.criticalFieldsMapped

/-- One field of the loop of `map_source`. -/
def addField (acc : Dict String FieldMappingResult × Summary) (field : String × FieldProfile) :
    Dict String FieldMappingResult × Summary :=
  let res := mapField u similarity registry eventFamily topN field.2
  (acc.1.set field.1 res, countChosen acc.2 res.chosenMapping)

/-- `map_source` -/
def mapSource (sourceProfile : SourceProfile) (sourceId : Option String) : SourceMappingReport :=
  let acc := sourceProfile.fields.entries.foldl (addField u similarity registry eventFamily topN)
    (Dict.empty, ⟨0, 0, 0, 0, 0⟩)
  { sourceId := sourceId
    eventFamily := eventFamily
    mappings := acc.1
    summary := { acc.2 with totalFields := acc.1.entries.length } }

end Mapping

end Ulpf.SemanticMapper
