import Ulpf.Lib.Rounding
import Ulpf.Python.Value

/-!
`SemanticDriftDetector`: two parser specifications and the events of two runs are
compared on critical mappings, action enums, event families and blocked connections.
Floats are the binary64 values Python computes, as exact rationals.
-/

namespace Ulpf.Drift

open Ulpf.Lib
open Ulpf.Lib.Binary64 (fl roundTo fixed)
open Ulpf.Python

/-- The states that a detector reports. -/
inductive DriftState where
  | stable
  | suspected
  | drifted
  deriving DecidableEq

/-- `SemanticDriftThresholds`: what each signal may come to. -/
structure SemanticDriftThresholds where
  dpsRegression : ℚ
  enumDriftScore : ℚ
  criticalMappingDrift : ℚ
  eventFamilyDrift : ℚ

/-- `SemanticDriftThresholds()` -/
def SemanticDriftThresholds.defaults : SemanticDriftThresholds where
  dpsRegression := 0
  enumDriftScore := fl (5 / 100)
  criticalMappingDrift := 0
  eventFamilyDrift := fl (10 / 100)

/-- The four signals of semantic drift. -/
structure SemanticDriftSignals where
  dpsRegression : ℚ
  enumDriftScore : ℚ
  criticalMappingDrift : ℚ
  eventFamilyDrift : ℚ
  deriving DecidableEq

/-- The assessment, without its structural signals, thresholds, identifiers and times. -/
structure DriftReport where
  driftState : DriftState
  sampleCount : ℕ
  signals : SemanticDriftSignals
  driftDetails : List String
  remediationRecommended : Bool
  deriving DecidableEq

/-- What an interpreter brings along: its Unicode tables, and the sum of floats over
a set of names, which depends on the order in which the set is enumerated. -/
structure Interpreter where
  unicode : Unicode
  sumOver : List String → (String → ℚ) → ℚ

/-- `CRITICAL_CANONICAL_FIELDS` -/
def criticalCanonicalFields : List String :=
  ["src.ip", "dst.ip", "src.port", "dst.port", "event.action", "event.outcome", "user.name"]

/-- `x.items()` -/
def items : PyVal → Except PyError (List (String × PyVal))
  | .obj members => return members
  | _ => throw .attributeError

/-- `set(xs)`, as the list of what was added to it. -/
def setOf (xs : List PyVal) : Except PyError (List PyVal) :=
  if xs.all hashable then return xs else throw .typeError

/-- `x in known` for a set. -/
def inSet (x : PyVal) (known : List PyVal) : Except PyError Bool :=
  if hashable x then return known.any fun y => PyVal.isNaN x && PyVal.isNaN y || PyVal.eq x y
  else throw .typeError

/-- `x:.2%` of a value that is not negative. -/
def percent (x : ℚ) : String := String.ofList (fixed 2 (fl (100 * x))) ++ "%"

section Mappings

/-- The critical field a definition maps to. -/
def criticalPath (fieldDef : PyVal) : Except PyError (Option String) := do
  match ← fieldDef.getD "map_to" .null with
  | .str canon => return if criticalCanonicalFields.contains canon then some canon else none
  | .arr _ | .obj _ => throw .typeError
  | _ => return none

/-- The comprehension that maps critical fields back to raw fields. -/
def criticalMap (fields : PyVal) : Except PyError (Dict String String) := do
  let entries ← (← items fields).mapM fun (raw, fieldDef) => do
    return (← criticalPath fieldDef).map fun canon => (canon, raw)
  return Dict.ofList entries.reduceOption

/-- What the detector says about one entry of the baseline's map. -/
def criticalMismatch (cand : Dict String String) : String × String → Option String
  | (canonField, baseRaw) =>
      match cand.get? canonField with
      | none => some ("Critical field '" ++ canonField ++
          "' mapping dropped in candidate spec (previously mapped from '" ++ baseRaw ++ "')")
      | some candRaw =>
          if candRaw ≠ baseRaw then
            some ("Critical field '" ++ canonField ++ "' remapped from '" ++ baseRaw ++
              "' to '" ++ candRaw ++ "'")
          else none

/-- `_check_critical_mapping_drift` -/
def checkCriticalMappingDrift (baselineSpec candidateSpec : PyVal) :
    Except PyError (ℚ × List String) := do
  let baseFields ← baselineSpec.getD "fields" (.obj [])
  let candFields ← candidateSpec.getD "fields" (.obj [])
  let baseCritMap ← criticalMap baseFields
  let candCritMap ← criticalMap candFields
  if baseCritMap.entries.isEmpty then return (0, [])
  let details := baseCritMap.entries.filterMap (criticalMismatch candCritMap)
  return (roundTo 4 (fl (details.length / baseCritMap.entries.length)), details)

end Mappings

section Enums

/-- The enum of the first field that is mapped to `event.action`. -/
def actionEnum : List (String × PyVal) → Except PyError PyVal
  | [] => return .obj []
  | (_, fieldDef) :: rest => do
      let canon ← fieldDef.getD "map_to" .null
      if PyVal.eq canon (.str "event.action") then fieldDef.getD "enum" (.obj [])
      else actionEnum rest

/-- Whether the candidate translates a raw value of the baseline to something else. -/
def inverts (candNorm baseNorm : PyVal) : Bool := candNorm.truthy && !PyVal.eq candNorm baseNorm

/-- The loop over the action enum of the baseline. -/
def inversions (u : Unicode) (candActionEnum : PyVal) :
    List (String × PyVal) → Except PyError (List String)
  | [] => return []
  | (rawVal, baseNorm) :: rest => do
      let candNorm ← candActionEnum.getD rawVal .null
      let details ← inversions u candActionEnum rest
      if inverts candNorm baseNorm then
        return ("Action enum inversion detected: raw '" ++ rawVal ++ "' mapped to '" ++
          str u candNorm ++ "' (previously '" ++ str u baseNorm ++ "')") :: details
      else return details

/-- The action of an event, read for the vocabulary check. -/
def eventAction (ev : PyVal) : Except PyError PyVal := do
  let act ← ev.getD "event.action" .null
  if act.truthy then return act
  let event ← ev.getD "event" .null
  (PyVal.orElse event (.obj [])).getD "action" .null

/-- `set(base.values()) | set(cand.values())` -/
def knownCanonical (baseActionEnum candActionEnum : PyVal) : Except PyError (List PyVal) := do
  let base ← setOf (← baseActionEnum.values)
  let cand ← setOf (← candActionEnum.values)
  return base ++ cand

/-- An event has an action that neither table maps to. -/
def unmapped (known : List PyVal) (ev : PyVal) : Except PyError Bool := do
  let act ← eventAction ev
  if act.truthy then return !(← inSet act known) else return false

/-- `_check_enum_behavior_drift` -/
def checkEnumBehaviorDrift (u : Unicode) (baselineSpec candidateSpec : PyVal)
    (candidateEvents : List PyVal) : Except PyError (ℚ × List String) := do
  let baseFields ← baselineSpec.getD "fields" (.obj [])
  let candFields ← candidateSpec.getD "fields" (.obj [])
  let baseActionEnum ← actionEnum (← items baseFields)
  let candActionEnum ← actionEnum (← items candFields)
  let details ← inversions u candActionEnum (← items baseActionEnum)
  if !details.isEmpty then return (1, details)
  if candidateEvents.isEmpty || !baseActionEnum.truthy then return (0, [])
  let known ← knownCanonical baseActionEnum candActionEnum
  let flags ← candidateEvents.mapM (unmapped known)
  let unmappedRatio := fl (flags.count true / candidateEvents.length)
  let details :=
    if 0 < unmappedRatio then
      ["Enum unmapped value ratio " ++ percent unmappedRatio ++
        " exceeds baseline enum vocabulary"]
    else []
  return (roundTo 4 unmappedRatio, details)

end Enums

section Families

/-- `ev_obj.get(name) or event.get("event." + name) or ""`, where `ev_obj` is the
section `event` when that is a dictionary. -/
def eventText (ev : PyVal) (name : String) : PyVal :=
  PyVal.orElse
    (PyVal.orElse ((ev.memberD "event" .null).memberD name .null)
      (ev.memberD ("event." ++ name) .null))
    (.str "")

/-- `get_family` -/
def getFamily (u : Unicode) (ev : PyVal) : Except PyError String := do
  if !ev.isObj then throw .attributeError
  let cls := eventText ev "class"
  let act := eventText ev "action"
  let has (key : String) : Bool := PyVal.truthy (ev.memberD key .null)
  if cls.truthy then return lower u (str u cls)
  if (← act.contains "auth") || (← act.contains "login") || has "user.name" || has "user" then
    return "auth"
  if has "http" || has "http.response.status_code" then return "http"
  if has "dns" || has "dns.query_name" then return "dns"
  if has "src.ip" || has "dst.ip" || has "src" then return "network"
  return "general"

def familyCounts (families : List String) : Dict String ℕ :=
  families.foldl (fun counts fam => counts.set fam ((counts.get? fam).getD 0 + 1)) Dict.empty

def familyShares (families : List String) : Dict String ℚ :=
  (familyCounts families).mapValues fun v => fl (v / families.length)

/-- `max(p.items(), key=lambda x: x[1])[0]` -/
def primary (shares : Dict String ℚ) : String :=
  match shares.entries with
  | [] => ""
  | first :: rest =>
      (rest.foldl (fun best entry => if best.2 < entry.2 then entry else best) first).1

/-- `_check_event_family_drift` -/
def checkEventFamilyDrift (it : Interpreter) (thresholds : SemanticDriftThresholds)
    (baselineEvents candidateEvents : List PyVal) : Except PyError (ℚ × List String) := do
  if baselineEvents.isEmpty || candidateEvents.isEmpty then return (0, [])
  let pBase := familyShares (← baselineEvents.mapM (getFamily it.unicode))
  let pCand := familyShares (← candidateEvents.mapM (getFamily it.unicode))
  let allFams := (pBase.keys ++ pCand.keys).dedup
  let distance := it.sumOver allFams fun k =>
    |fl ((pBase.get? k).getD 0 - (pCand.get? k).getD 0)|
  let tvd := roundTo 4 (min 1 (max 0 (fl (1 / 2 * distance))))
  let details :=
    if thresholds.eventFamilyDrift < tvd then
      ["Event family divergence " ++ String.ofList (fixed 2 tvd) ++ " (primary baseline: '" ++
        primary pBase ++ "', primary candidate: '" ++ primary pCand ++ "')"]
    else []
  return (tvd, details)

end Families

section Detections

/-- `is_block_payload` -/
def isBlockPayload (u : Unicode) (ev : PyVal) : Bool :=
  let action := lower u (str u (eventText ev "action"))
  let outcome := lower u (str u (eventText ev "outcome"))
  Text.contains action "deny" || Text.contains action "block" || Text.contains action "drop" ||
    Text.contains outcome "denied"

/-- The address of one side: the flat key, or the entry `ip` of the side's section. -/
def address (ev : PyVal) (side : String) : PyVal :=
  PyVal.orElse (ev.memberD (side ++ ".ip") .null) ((ev.memberD side .null).memberD "ip" .null)

/-- `eval_blocked_preservation`: the expected and the preserved block events. An action
that counts as a block also counts as still blocked. -/
def evalBlockedPreservation (u : Unicode) (events : List PyVal) : Except PyError (ℕ × ℕ) :=
  if events.all Json.isObj then
    let expected := events.filter (isBlockPayload u)
    return (expected.length, expected.countP fun ev =>
      isBlockPayload u ev && (PyVal.orElse (address ev "src") (address ev "dst")).truthy)
  else throw .attributeError

/-- `_check_dps_regression` -/
def checkDpsRegression (u : Unicode) (baselineEvents candidateEvents : List PyVal) :
    Except PyError (ℚ × List String) := do
  let (baseExp, basePres) ← evalBlockedPreservation u baselineEvents
  let (_, candPres) ← evalBlockedPreservation u candidateEvents
  let baseDps := if 0 < baseExp then fl (basePres / baseExp) else 1
  let candDps := if 0 < baseExp then fl (candPres / baseExp) else 1
  let dpsDrop := roundTo 4 (max 0 (fl (baseDps - candDps)))
  let details :=
    if 0 < dpsDrop then
      ["Mandatory DPS regression of " ++ percent dpsDrop ++ " detected (baseline DPS " ++
        percent baseDps ++ ", candidate DPS " ++ percent candDps ++ ")"]
    else []
  return (dpsDrop, details)

end Detections

/-- `detect_semantic_drift` -/
def detectSemanticDrift (it : Interpreter) (thresholds : SemanticDriftThresholds)
    (baselineSpec candidateSpec : PyVal) (baselineEvents candidateEvents : List PyVal) :
    Except PyError DriftReport := do
  let (critDrift, critDetails) ← checkCriticalMappingDrift baselineSpec candidateSpec
  let (enumDrift, enumDetails) ←
    checkEnumBehaviorDrift it.unicode baselineSpec candidateSpec candidateEvents
  let (famDrift, famDetails) ←
    checkEventFamilyDrift it thresholds baselineEvents candidateEvents
  let (dpsReg, dpsDetails) ← checkDpsRegression it.unicode baselineEvents candidateEvents
  let details :=
    (if thresholds.criticalMappingDrift < critDrift then critDetails else []) ++
    (if thresholds.enumDriftScore < enumDrift then enumDetails else []) ++
    (if thresholds.eventFamilyDrift < famDrift then famDetails else []) ++
    (if thresholds.dpsRegression < dpsReg then dpsDetails else [])
  let driftState : DriftState :=
    if thresholds.dpsRegression < dpsReg ∨ thresholds.criticalMappingDrift < critDrift ∨
      thresholds.enumDriftScore < enumDrift then .drifted
    else if thresholds.eventFamilyDrift < famDrift then .suspected
    else .stable
  return {
    driftState := driftState
    sampleCount := candidateEvents.length
    signals := ⟨dpsReg, enumDrift, critDrift, famDrift⟩
    driftDetails :=
      if driftState = .stable ∧ details = [] then
        ["All observed semantic metrics within configured baseline stability bounds"]
      else details
    remediationRecommended := driftState ≠ .stable }

end Ulpf.Drift
