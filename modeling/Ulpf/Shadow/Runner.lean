import Ulpf.Shadow.Comparator
import Ulpf.SourceProfiler.Profiler

/-!
`ShadowRunner`: both specs are run on the same raw events; the outputs of the
candidate go to the shadow sink only.
-/

namespace Ulpf.Shadow

open Ulpf.Lib
open Ulpf.Python
open Ulpf.SourceProfiler

/-- A value as a dictionary key: numbers that compare equal are one key. -/
def dictKey : PyVal → Except PyError PyVal
  | .arr _ | .obj _ => .error .typeError
  | .bool b => .ok (.num (PyVal.ofBool b))
  | .num (.float x) =>
      match x.toRat? with
      | some q => .ok (if q.den = 1 then PyVal.int q.num else PyVal.float x)
      | none => .ok (PyVal.float x)
  | v => .ok v

@[simp] theorem dictKey_str (s : String) : dictKey (.str s) = .ok (.str s) := rfl

theorem dictKey_eq_str {v : PyVal} {s : String} (h : dictKey v = .ok (.str s)) : v = .str s := by
  cases v with
  | null => simp [dictKey] at h
  | bool b => simp [dictKey] at h
  | num n =>
      cases n with
      | int n => simp [dictKey] at h
      | float x =>
          rw [dictKey] at h
          split at h
          · split at h <;> simp [PyVal.int, PyVal.float] at h
          · simp [PyVal.float] at h
  | str t => simpa [dictKey] using h
  | arr items => simp [dictKey] at h
  | obj members => simp [dictKey] at h

/-- An item of a sequence as the pair `dict` expects. -/
def dictPair : PyVal → Except PyError (PyVal × PyVal)
  | .arr [a, b] => (dictKey a).map fun k => (k, b)
  | .obj [(k, _), (l, _)] => .ok (.str k, .str l)
  | .str s =>
      match s.toList with
      | [a, b] => .ok (.str (String.ofList [a]), .str (String.ofList [b]))
      | _ => .error .valueError
  | .arr _ | .obj _ => .error .valueError
  | _ => .error .typeError

/-- `dict(x)`: the entries of the new dictionary. -/
def dictOf : PyVal → Except PyError (List (PyVal × PyVal))
  | .obj members => .ok (members.map fun m => (.str m.1, m.2))
  | .arr items => (items.mapM dictPair).map fun pairs => (Dict.ofList pairs).entries
  | .str s => if s = "" then .ok [] else .error .valueError
  | _ => .error .typeError

/-- The value an `enum` table gives for a string; other values are kept. -/
def enumValue (enumMap val : PyVal) : Except PyError PyVal :=
  match val with
  | .str s => do
      if ← PyVal.contains enumMap s then PyVal.getItem enumMap s
      else return val
  | _ => .ok val

/-- Canonical key and value of a raw field, `none` when no definition names it. -/
def mapField (fieldsSpec : PyVal) (k : String) (v : PyVal) :
    Except PyError (Option (PyVal × PyVal)) := do
  if ← PyVal.contains fieldsSpec k then
    let fDef ← PyVal.getItem fieldsSpec k
    let canonK ← PyVal.getD fDef "map_to" (.str k)
    let enumMap ← PyVal.getD fDef "enum" (.obj [])
    let val ← enumValue enumMap v
    let key ← dictKey canonK
    return some (key, val)
  else return none

/-- One field of a structured event; an undefined field is passed through. -/
def mapStructuredField (fieldsSpec : PyVal) (mapped : Dict PyVal PyVal)
    (field : String × PyVal) : Except PyError (Dict PyVal PyVal) := do
  if field.1 = "unknown_fields" then return mapped
  else match ← mapField fieldsSpec field.1 field.2 with
    | some (key, val) => return mapped.set key val
    | none => return mapped.set (.str field.1) field.2

/-- `_parse` of a dictionary. -/
def parseStructured (members : List (String × PyVal)) (spec : PyVal) : Except PyError Event := do
  let fieldsSpec ← PyVal.getD spec "fields" (.obj [])
  let unknowns ← dictOf ((lookup "unknown_fields" members).getD (.obj []))
  let mapped ← members.foldlM (mapStructuredField fieldsSpec) Dict.empty
  return ⟨mapped, if unknowns.isEmpty then none else some unknowns⟩

/-- The format hint a `match.format` text stands for. -/
def formatHint (fmtStr : String) : Option LogFormat :=
  if Text.contains fmtStr "cef" then some .cef
  else if Text.contains fmtStr "leef" then some .leef
  else if Text.contains fmtStr "syslog" then some .syslogRfc5424
  else if Text.contains fmtStr "json" then some .json
  else if Text.contains fmtStr "csv" then some .csv
  else if Text.contains fmtStr "kv" || Text.contains fmtStr "key_value" then some .keyValue
  else none

/-- The format that the `match` section of a spec names. -/
def specHint (u : Unicode) (spec : PyVal) : Except PyError (Option LogFormat) := do
  let matchInfo ← PyVal.getD spec "match" (.obj [])
  let format ← PyVal.getD matchInfo "format" (.str "")
  return formatHint (lower u (str u format))

/-- The fields of a line, as the spec's format reads them. -/
def extractFields (u : Unicode) (rawStr : String) (spec : PyVal) : Except PyError Record := do
  let hint ← specHint u spec
  let (profilerRes, _) ← parseRecord u rawStr hint none none
  return profilerRes.getD Dict.empty

/-- One extracted field: mapped when it is defined, kept as unknown otherwise. -/
def mapTextField (fieldsSpec : PyVal) (acc : Dict PyVal PyVal × List (PyVal × PyVal))
    (field : String × PyVal) : Except PyError (Dict PyVal PyVal × List (PyVal × PyVal)) := do
  match ← mapField fieldsSpec field.1 field.2 with
  | some (key, val) => return (acc.1.set key val, acc.2)
  | none => return (acc.1, acc.2 ++ [(.str field.1, field.2)])

/-- `_parse` of a text. -/
def parseText (u : Unicode) (rawStr : String) (spec : PyVal) : Except PyError Event := do
  let extracted ← extractFields u rawStr spec
  let fieldsSpec ← PyVal.getD spec "fields" (.obj [])
  let (result, unknowns) ← extracted.entries.foldlM (mapTextField fieldsSpec) (Dict.empty, [])
  return ⟨result, if unknowns.isEmpty then none else some unknowns⟩

/-- `_parse` -/
def parse (u : Unicode) (rawInput spec : PyVal) : Except PyError Event :=
  match rawInput with
  | .obj members => parseStructured members spec
  | _ => parseText u (str u rawInput) spec

/-- Readings of the performance counter around the two parses of one event, in seconds. -/
structure Ticks where
  t0 : ℚ
  t1 : ℚ
  t2 : ℚ
  t3 : ℚ

/-- A latency in milliseconds, which is never zero. -/
def latencyMs (start stop : ℚ) : ℚ :=
  max (Binary64.fl (1 / 1000)) (Binary64.fl (Binary64.fl (stop - start) * 1000))

/-- The mark `execute_dual` puts on a candidate event. -/
def tagShadow (candId candVersion : PyVal) (ev : Event) : Event :=
  { ev with
    fields := ev.fields.set (.str "_shadow")
      (.obj [("candidate_parser_id", candId), ("candidate_parser_version", candVersion),
        ("is_shadow", .bool true)]) }

/-- What `execute_dual` collects while it goes through the raw events. -/
structure DualOutputs where
  active : List Event
  candidate : List Event
  activeLatenciesMs : List ℚ
  candidateLatenciesMs : List ℚ
  bus : Option (List Event)

/-- A round of the loop: a raw event is parsed with both specs. -/
def dualStep (u : Unicode) (activeSpec candidateSpec candId candVersion : PyVal)
    (publishActive : Bool) (out : DualOutputs) (input : PyVal × Ticks) :
    Except PyError DualOutputs := do
  let (raw, ticks) := input
  let actEvent ← parse u raw activeSpec
  let candEvent ← parse u raw candidateSpec
  return {
    active := out.active ++ [actEvent]
    candidate := out.candidate ++ [tagShadow candId candVersion candEvent]
    activeLatenciesMs := out.activeLatenciesMs ++ [latencyMs ticks.t0 ticks.t1]
    candidateLatenciesMs := out.candidateLatenciesMs ++ [latencyMs ticks.t2 ticks.t3]
    bus := out.bus.map fun events => if publishActive then events ++ [actEvent] else events }

/-- An event carries the mark of the shadow run. -/
def isShadowMarked (ev : Event) : Except PyError Bool := do
  let mark ← PyVal.getD (((ev.fields.get? (.str "_shadow")).getD (.obj []))) "is_shadow" .null
  return mark = .bool true

/-- Whether no event carries the mark; the scan stops at the first one that does. -/
def isolated : List Event → Except PyError Bool
  | [] => .ok true
  | ev :: rest => do
      if ← isShadowMarked ev then return false
      else isolated rest

/-- Identifier and version of the parser a spec describes. -/
def parserIdentity (spec : PyVal) (defaultId defaultVersion : String) :
    Except PyError (PyVal × PyVal) := do
  let info ← PyVal.getD spec "parser" (.obj [])
  let id ← PyVal.getD info "id" (.str defaultId)
  let version ← PyVal.getD info "version" (.str defaultVersion)
  return (id, version)

/-- `execute_dual`: the comparison report and the bus afterwards. -/
def executeDual (u : Unicode) (ticks : ℕ → Ticks) (rawEvents : List PyVal)
    (activeSpec candidateSpec : PyVal) (sourceId : String) (downstreamBus : Option (List Event))
    (publishActive : Bool) : Except PyError (ShadowComparisonReport × Option (List Event)) := do
  let _ ← parserIdentity activeSpec (sourceId ++ ".active") "1.0.0"
  let (candId, candVersion) ← parserIdentity candidateSpec (sourceId ++ ".candidate") "1.1.0"
  let inputs := rawEvents.mapIdx fun i raw => (raw, ticks i)
  let out ← inputs.foldlM
    (dualStep u activeSpec candidateSpec candId candVersion publishActive)
    ⟨[], [], [], [], downstreamBus⟩
  let newEvents := (out.bus.getD []).drop (downstreamBus.getD []).length
  let isolation ← isolated newEvents
  let report ← compare u out.active out.candidate out.activeLatenciesMs out.candidateLatenciesMs
    isolation
  return (report, out.bus)

end Ulpf.Shadow
