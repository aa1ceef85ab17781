import Ulpf.Lib.Outcome
import Ulpf.Shadow.Runner
import Ulpf.SourceProfiler.Totality

/-!
When a shadow run of text samples returns a report, and what the report is
computed from.
-/

namespace Ulpf.Shadow

open Ulpf.Lib
open Ulpf.Python
open Ulpf.SourceProfiler

/-- A spec from which the identity of its parser can be read. -/
structure Opens (spec : PyVal) : Prop where
  isObj : spec.isObj = true
  parserObj : (spec.memberD "parser" (.obj [])).isObj = true

theorem parserIdentity_eq_ok_iff {spec : PyVal} {defaultId defaultVersion : String}
    {identity : PyVal × PyVal} :
    parserIdentity spec defaultId defaultVersion = .ok identity ↔
      Opens spec ∧ identity =
        ((spec.memberD "parser" (.obj [])).memberD "id" (.str defaultId),
          (spec.memberD "parser" (.obj [])).memberD "version" (.str defaultVersion)) := by
  simp only [parserIdentity, bind_eq_ok_iff, PyVal.getD_eq_ok_iff, pure_eq_ok_iff]
  constructor
  · rintro ⟨info, ⟨hspec, rfl⟩, id, ⟨hinfo, rfl⟩, version, ⟨-, rfl⟩, rfl⟩
    exact ⟨⟨hspec, hinfo⟩, rfl⟩
  · rintro ⟨⟨hspec, hinfo⟩, rfl⟩
    exact ⟨_, ⟨hspec, rfl⟩, _, ⟨hinfo, rfl⟩, _, ⟨hinfo, rfl⟩, rfl⟩

/-- An `enum` entry that can be consulted for a value. -/
def EnumReadable (enumMap val : PyVal) : Prop :=
  ∀ s, val = .str s → enumMap.isObj = true ∨ PyVal.contains enumMap s = .ok false

theorem returns_enumValue_iff {enumMap val : PyVal} :
    Returns (enumValue enumMap val) ↔ EnumReadable enumMap val := by
  cases val with
  | str s =>
      simp only [enumValue, EnumReadable, Json.str.injEq, forall_eq']
      by_cases hobj : enumMap.isObj = true
      · rw [PyVal.contains_of_isObj hobj]
        cases hmember : enumMap.member? s with
        | none => simp [hobj]
        | some v => simp [hobj, PyVal.getItem_eq_ok_iff.mpr hmember]
      · cases hcontains : PyVal.contains enumMap s with
        | error e => simp [hobj]
        | ok b =>
            cases b with
            | false => simp
            | true =>
                have hitem : PyVal.getItem enumMap s = .error .typeError := by
                  cases enumMap <;> simp_all [PyVal.getItem, Json.isObj]
                simp [hobj, hitem]
  | _ => simp [enumValue, EnumReadable]

/-- A raw field a spec maps to a canonical name, or does not define. -/
def FieldUsable (fieldsSpec : PyVal) (field : String × PyVal) : Prop :=
  PyVal.contains fieldsSpec field.1 = .ok false ∨
    ∃ fDef, fieldsSpec.member? field.1 = some fDef ∧ fDef.isObj = true ∧
      (∃ name, fDef.memberD "map_to" (.str field.1) = .str name) ∧
      EnumReadable (fDef.memberD "enum" (.obj [])) field.2

theorem mapField_of_member {fieldsSpec fDef v : PyVal} {k : String}
    (hmember : fieldsSpec.member? k = some fDef) :
    mapField fieldsSpec k v = (do
      let canonK ← PyVal.getD fDef "map_to" (.str k)
      let enumMap ← PyVal.getD fDef "enum" (.obj [])
      let val ← enumValue enumMap v
      let key ← dictKey canonK
      return some (key, val)) := by
  have hobj : fieldsSpec.isObj = true := by
    cases fieldsSpec <;> simp_all [Json.member?, Json.isObj]
  simp [mapField, PyVal.contains_of_isObj hobj, hmember, PyVal.getItem_eq_ok_iff.mpr hmember]

theorem fieldUsable_iff {fieldsSpec : PyVal} {field : String × PyVal} :
    FieldUsable fieldsSpec field ↔ ∃ mapped, mapField fieldsSpec field.1 field.2 = .ok mapped ∧
      ∀ entry, mapped = some entry → ∃ name, entry.1 = .str name := by
  constructor
  · rintro (hcontains | ⟨fDef, hmember, hobj, ⟨name, hname⟩, henum⟩)
    · exact ⟨none, by simp [mapField, hcontains, pure, Except.pure], by simp⟩
    · rcases returns_enumValue_iff.mpr henum with ⟨val, hval⟩
      refine ⟨some (.str name, val), ?_, by simp⟩
      simp [mapField_of_member hmember, PyVal.getD_eq_ok_iff.mpr ⟨hobj, hname⟩,
        PyVal.getD_eq_ok_iff.mpr ⟨hobj, rfl⟩, hval, pure, Except.pure]
  · rintro ⟨mapped, hmap, hname⟩
    cases hmember : fieldsSpec.member? field.1 with
    | some fDef =>
        rw [mapField_of_member hmember] at hmap
        simp only [bind_eq_ok_iff, PyVal.getD_eq_ok_iff, pure_eq_ok_iff] at hmap
        rcases hmap with ⟨canonK, ⟨hobj, rfl⟩, enumMap, ⟨-, rfl⟩, val, hval, key, hkey, rfl⟩
        rcases hname _ rfl with ⟨name, rfl⟩
        exact Or.inr ⟨fDef, hmember, hobj, ⟨name, dictKey_eq_str hkey⟩,
          returns_enumValue_iff.mp ⟨val, hval⟩⟩
    | none =>
        refine Or.inl ?_
        rw [mapField, bind_eq_ok_iff] at hmap
        rcases hmap with ⟨present, hpresent, hrest⟩
        cases present with
        | false => exact hpresent
        | true =>
            rw [if_pos rfl, bind_eq_ok_iff] at hrest
            rcases hrest with ⟨fDef, hitem, -⟩
            rw [PyVal.getItem_eq_ok_iff, hmember] at hitem
            simp at hitem

section TextFields

variable {fieldsSpec : PyVal} {fields : List (String × PyVal)}
  {acc acc' : Dict PyVal PyVal × List (PyVal × PyVal)}

theorem returns_mapTextField_iff (acc : Dict PyVal PyVal × List (PyVal × PyVal))
    (field : String × PyVal) :
    Returns (mapTextField fieldsSpec acc field) ↔
      Returns (mapField fieldsSpec field.1 field.2) := by
  simp only [mapTextField, returns_bind_iff]
  constructor
  · rintro ⟨mapped, hmapped, -⟩
    exact ⟨mapped, hmapped⟩
  · rintro ⟨mapped, hmapped⟩
    refine ⟨mapped, hmapped, ?_⟩
    cases mapped <;> simp

theorem mem_keys_mapTextField {field : String × PyVal} {key : PyVal}
    (h : mapTextField fieldsSpec acc field = .ok acc') :
    key ∈ acc'.1.keys ↔ key ∈ acc.1.keys ∨
      ∃ val, mapField fieldsSpec field.1 field.2 = .ok (some (key, val)) := by
  simp only [mapTextField, bind_eq_ok_iff] at h
  rcases h with ⟨mapped, hmapped, h⟩
  rw [hmapped]
  cases mapped with
  | none =>
      simp only [pure_eq_ok_iff] at h
      simp [← h]
  | some entry =>
      simp only [pure_eq_ok_iff] at h
      rw [← h]
      simp only [Dict.mem_keys_iff, Dict.get?_set, Except.ok.injEq, Option.some.injEq]
      by_cases hkey : entry.1 = key
      · rw [if_pos hkey]
        simp only [Option.isSome_some, true_iff]
        exact Or.inr ⟨entry.2, by rw [← hkey]⟩
      · rw [if_neg hkey]
        constructor
        · exact Or.inl
        · rintro (hmem | ⟨val, heq⟩)
          · exact hmem
          · exact absurd (by rw [heq]) hkey

theorem mem_keys_foldlM (h : fields.foldlM (mapTextField fieldsSpec) acc = .ok acc') (key : PyVal) :
    key ∈ acc'.1.keys ↔ key ∈ acc.1.keys ∨ ∃ field ∈ fields, ∃ val,
      mapField fieldsSpec field.1 field.2 = .ok (some (key, val)) := by
  induction fields generalizing acc with
  | nil =>
      rw [List.foldlM_nil, pure_eq_ok_iff] at h
      simp [h]
  | cons field rest ih =>
      rw [List.foldlM_cons, bind_eq_ok_iff] at h
      rcases h with ⟨next, hfield, hrest⟩
      rw [ih hrest, mem_keys_mapTextField hfield]
      simp [or_assoc]

end TextFields

theorem returns_flattenEntries_iff {entries : List (PyVal × PyVal)} :
    Returns (flattenEntries entries) ↔ ∀ entry ∈ entries, ∃ name, entry.1 = .str name := by
  induction entries with
  | nil => simp [flattenEntries]
  | cons entry rest ih =>
      rcases entry with ⟨key, v⟩
      cases key with
      | str k =>
          simp only [flattenEntries, returns_bind_iff, List.forall_mem_cons]
          constructor
          · rintro ⟨flat, hflat, -⟩
            exact ⟨⟨k, rfl⟩, ih.mp ⟨flat, hflat⟩⟩
          · rintro ⟨-, hrest⟩
            rcases ih.mpr hrest with ⟨flat, hflat⟩
            exact ⟨flat, hflat, returns_pure _⟩
      | _ => simp [flattenEntries]

theorem returns_flattenEvent_iff {ev : Event} :
    Returns (flattenEvent ev) ↔ ∀ key ∈ ev.fields.keys, ∃ name, key = .str name := by
  rw [flattenEvent, returns_map_iff, returns_flattenEntries_iff]
  simp [Dict.keys]

theorem returns_flattenEvent_tagShadow {ev : Event} {candId candVersion : PyVal} :
    Returns (flattenEvent (tagShadow candId candVersion ev)) ↔ Returns (flattenEvent ev) := by
  rw [returns_flattenEvent_iff, returns_flattenEvent_iff]
  simp only [tagShadow, Dict.mem_keys_iff, Dict.get?_set]
  constructor
  · intro h key hkey
    refine h key ?_
    split
    · rfl
    · exact hkey
  · intro h key hkey
    split at hkey
    · rename_i heq
      exact ⟨_, heq.symm⟩
    · exact h key hkey

/-- A sample a spec can be applied to: its record is found, and every field of
the record can be used. -/
def Usable (u : Unicode) (spec : PyVal) (sample : String) : Prop :=
  ∃ record, extractFields u sample spec = .ok record ∧
    ∀ field ∈ record.entries, FieldUsable (spec.memberD "fields" (.obj [])) field

theorem specHint_isObj {u : Unicode} {spec : PyVal} {hint : Option LogFormat}
    (h : specHint u spec = .ok hint) : spec.isObj = true := by
  simp only [specHint, bind_eq_ok_iff, PyVal.getD_eq_ok_iff] at h
  rcases h with ⟨matchInfo, ⟨hobj, -⟩, -⟩
  exact hobj

theorem extractFields_isObj {u : Unicode} {spec : PyVal} {sample : String} {record : Record}
    (h : extractFields u sample spec = .ok record) : spec.isObj = true := by
  simp only [extractFields, bind_eq_ok_iff] at h
  rcases h with ⟨hint, hhint, -⟩
  exact specHint_isObj hhint

theorem usable_iff {u : Unicode} {spec : PyVal} {sample : String} :
    Usable u spec sample ↔
      ∃ ev, parse u (.str sample) spec = .ok ev ∧ Returns (flattenEvent ev) := by
  have hparse : parse u (.str sample) spec = parseText u sample spec := rfl
  rw [hparse]
  constructor
  · rintro ⟨record, hrecord, hfields⟩
    have hspec : PyVal.getD spec "fields" (.obj []) = .ok (spec.memberD "fields" (.obj [])) :=
      PyVal.getD_eq_ok_iff.mpr ⟨extractFields_isObj hrecord, rfl⟩
    have hmapped : ∀ field ∈ record.entries,
        Returns (mapField (spec.memberD "fields" (.obj [])) field.1 field.2) := by
      intro field hfield
      rcases fieldUsable_iff.mp (hfields field hfield) with ⟨mapped, hmapped, -⟩
      exact ⟨mapped, hmapped⟩
    rcases (returns_foldlM_iff (fun acc field _ => returns_mapTextField_iff acc field)
      (Dict.empty, [])).mpr hmapped with ⟨acc, hacc⟩
    refine ⟨_, by simp only [parseText, hrecord, hspec, ok_bind, hacc]; rfl, ?_⟩
    rw [returns_flattenEvent_iff]
    intro key hkey
    rcases (mem_keys_foldlM hacc key).mp hkey with hempty | ⟨field, hfield, val, hval⟩
    · simp [Dict.mem_keys_iff] at hempty
    · rcases fieldUsable_iff.mp (hfields field hfield) with ⟨mapped, hmap, hname⟩
      rw [hval, Except.ok.injEq] at hmap
      exact hname _ hmap.symm
  · rintro ⟨ev, hev, hflat⟩
    simp only [parseText, bind_eq_ok_iff, PyVal.getD_eq_ok_iff, pure_eq_ok_iff] at hev
    rcases hev with ⟨record, hrecord, fieldsSpec, ⟨-, rfl⟩, acc, hacc, rfl⟩
    refine ⟨record, hrecord, fun field hfield => fieldUsable_iff.mpr ?_⟩
    have hreturns := (returns_foldlM_iff (fun acc field _ => returns_mapTextField_iff acc field)
      (Dict.empty, [])).mp ⟨acc, hacc⟩ field hfield
    rcases hreturns with ⟨mapped, hmapped⟩
    refine ⟨mapped, hmapped, ?_⟩
    rintro ⟨key, val⟩ rfl
    exact returns_flattenEvent_iff.mp hflat key
      ((mem_keys_foldlM hacc key).mpr (Or.inr ⟨field, hfield, val, hmapped⟩))

section Dual

variable {u : Unicode} {activeSpec candidateSpec candId candVersion : PyVal}
  {publishActive : Bool}

/-- The outputs of both parsers on a list of raw events, and their latencies. -/
def DualOutputs.extend (out : DualOutputs) (candId candVersion : PyVal) (publishActive : Bool)
    (ticks : List Ticks) (acts cands : List Event) : DualOutputs where
  active := out.active ++ acts
  candidate := out.candidate ++ cands.map (tagShadow candId candVersion)
  activeLatenciesMs := out.activeLatenciesMs ++ ticks.map fun t => latencyMs t.t0 t.t1
  candidateLatenciesMs := out.candidateLatenciesMs ++ ticks.map fun t => latencyMs t.t2 t.t3
  bus := out.bus.map fun events => if publishActive then events ++ acts else events

theorem foldlM_dualStep_iff {inputs : List (PyVal × Ticks)} {out out' : DualOutputs} :
    inputs.foldlM (dualStep u activeSpec candidateSpec candId candVersion publishActive) out =
        .ok out' ↔
      ∃ acts cands, (inputs.map Prod.fst).mapM (parse u · activeSpec) = .ok acts ∧
        (inputs.map Prod.fst).mapM (parse u · candidateSpec) = .ok cands ∧
        out' = out.extend candId candVersion publishActive (inputs.map Prod.snd) acts cands := by
  induction inputs generalizing out with
  | nil =>
      rcases out with ⟨active, candidate, activeLat, candLat, bus⟩
      simp only [List.foldlM_nil, List.map_nil, List.mapM_nil, pure_eq_ok_iff]
      constructor
      · rintro rfl
        refine ⟨[], [], rfl, rfl, ?_⟩
        cases bus <;> simp [DualOutputs.extend]
      · rintro ⟨acts, cands, rfl, rfl, rfl⟩
        cases bus <;> simp [DualOutputs.extend]
  | cons input rest ih =>
      rcases input with ⟨raw, t⟩
      simp only [List.foldlM_cons, List.map_cons, List.mapM_cons, bind_eq_ok_iff, pure_eq_ok_iff,
        dualStep, ih]
      constructor
      · rintro ⟨out₁, ⟨act, hact, cand, hcand, rfl⟩, acts, cands, hacts, hcands, rfl⟩
        refine ⟨act :: acts, cand :: cands, ⟨act, hact, acts, hacts, rfl⟩,
          ⟨cand, hcand, cands, hcands, rfl⟩, ?_⟩
        rcases out with ⟨active, candidate, activeLat, candLat, bus⟩
        cases bus <;> cases publishActive <;> simp [DualOutputs.extend]
      · rintro ⟨_, _, ⟨act, hact, acts, hacts, rfl⟩, ⟨cand, hcand, cands, hcands, rfl⟩, rfl⟩
        refine ⟨_, ⟨act, hact, cand, hcand, rfl⟩, acts, cands, hacts, hcands, ?_⟩
        rcases out with ⟨active, candidate, activeLat, candLat, bus⟩
        cases bus <;> cases publishActive <;> simp [DualOutputs.extend]

/-- The bus after a run. -/
def busAfter (bus : Option (List Event)) (publishActive : Bool) (acts : List Event) :
    Option (List Event) :=
  bus.map fun events => if publishActive then events ++ acts else events

def published (bus : Option (List Event)) (publishActive : Bool) (acts : List Event) :
    List Event :=
  if bus.isSome && publishActive then acts else []

theorem drop_busAfter (bus : Option (List Event)) (publishActive : Bool) (acts : List Event) :
    ((busAfter bus publishActive acts).getD []).drop (bus.getD []).length =
      published bus publishActive acts := by
  cases bus <;> cases publishActive <;> simp [busAfter, published]

theorem executeDual_bus_eq_ok_iff {ticks : ℕ → Ticks} {rawEvents : List PyVal} {sourceId : String}
    {downstreamBus bus : Option (List Event)} {report : ShadowComparisonReport} :
    executeDual u ticks rawEvents activeSpec candidateSpec sourceId downstreamBus publishActive =
        .ok (report, bus) ↔
      Opens activeSpec ∧ Opens candidateSpec ∧ ∃ acts cands isolation,
        rawEvents.mapM (parse u · activeSpec) = .ok acts ∧
        rawEvents.mapM (parse u · candidateSpec) = .ok cands ∧
        bus = busAfter downstreamBus publishActive acts ∧
        isolated (published downstreamBus publishActive acts) = .ok isolation ∧
        compare u acts
          (cands.map (tagShadow
            ((candidateSpec.memberD "parser" (.obj [])).memberD "id"
              (.str (sourceId ++ ".candidate")))
            ((candidateSpec.memberD "parser" (.obj [])).memberD "version" (.str "1.1.0"))))
          ((List.range rawEvents.length).map fun i => latencyMs (ticks i).t0 (ticks i).t1)
          ((List.range rawEvents.length).map fun i => latencyMs (ticks i).t2 (ticks i).t3)
          isolation = .ok report := by
  have hfst : (rawEvents.mapIdx fun i raw => (raw, ticks i)).map Prod.fst = rawEvents := by
    apply List.ext_getElem <;> simp
  have hsnd : (rawEvents.mapIdx fun i raw => (raw, ticks i)).map Prod.snd =
      (List.range rawEvents.length).map ticks := by
    apply List.ext_getElem <;> simp
  simp only [executeDual, bind_eq_ok_iff, parserIdentity_eq_ok_iff, foldlM_dualStep_iff,
    pure_eq_ok_iff, hfst, hsnd]
  constructor
  · rintro ⟨_, ⟨hactive, -⟩, _, ⟨hcandidate, rfl⟩, _, ⟨acts, cands, hacts, hcands, rfl⟩, isolation,
      hisolation, report', hreport, heq⟩
    simp only [Prod.mk.injEq] at heq
    obtain ⟨rfl, rfl⟩ := heq
    refine ⟨hactive, hcandidate, acts, cands, isolation, hacts, hcands, rfl, ?_, ?_⟩
    · rw [← drop_busAfter]
      exact hisolation
    · simpa [DualOutputs.extend, Function.comp_def] using hreport
  · rintro ⟨hactive, hcandidate, acts, cands, isolation, hacts, hcands, rfl, hisolation, hreport⟩
    refine ⟨_, ⟨hactive, rfl⟩, _, ⟨hcandidate, rfl⟩, _, ⟨acts, cands, hacts, hcands, rfl⟩,
      isolation, ?_, report, ?_, rfl⟩
    · rw [← drop_busAfter] at hisolation
      exact hisolation
    · simpa [DualOutputs.extend, Function.comp_def] using hreport

theorem executeDual_eq_ok_iff {ticks : ℕ → Ticks} {rawEvents : List PyVal} {sourceId : String}
    {report : ShadowComparisonReport} {bus : Option (List Event)} :
    executeDual u ticks rawEvents activeSpec candidateSpec sourceId none publishActive =
        .ok (report, bus) ↔
      Opens activeSpec ∧ Opens candidateSpec ∧ bus = none ∧ ∃ acts cands,
        rawEvents.mapM (parse u · activeSpec) = .ok acts ∧
        rawEvents.mapM (parse u · candidateSpec) = .ok cands ∧
        compare u acts
          (cands.map (tagShadow
            ((candidateSpec.memberD "parser" (.obj [])).memberD "id"
              (.str (sourceId ++ ".candidate")))
            ((candidateSpec.memberD "parser" (.obj [])).memberD "version" (.str "1.1.0"))))
          ((List.range rawEvents.length).map fun i => latencyMs (ticks i).t0 (ticks i).t1)
          ((List.range rawEvents.length).map fun i => latencyMs (ticks i).t2 (ticks i).t3)
          true = .ok report := by
  rw [executeDual_bus_eq_ok_iff]
  simp only [busAfter, published, Option.map_none, Option.isSome_none, Bool.false_and,
    Bool.false_eq_true, if_false, isolated, Except.ok.injEq]
  constructor
  · rintro ⟨hactive, hcandidate, acts, cands, _, hacts, hcands, rfl, rfl, hreport⟩
    exact ⟨hactive, hcandidate, rfl, acts, cands, hacts, hcands, hreport⟩
  · rintro ⟨hactive, hcandidate, rfl, acts, cands, hacts, hcands, hreport⟩
    exact ⟨hactive, hcandidate, acts, cands, true, hacts, hcands, rfl, rfl, hreport⟩

end Dual

section Compare

variable {u : Unicode} {active candidate : List Event} {activeLat candLat : List ℚ}
  {isolation : Bool}

theorem forall_mem_zip_iff {α β : Type} {xs : List α} {ys : List β} {P : α → Prop} {Q : β → Prop}
    (hlength : xs.length = ys.length) :
    (∀ p ∈ xs.zip ys, P p.1 ∧ Q p.2) ↔ (∀ x ∈ xs, P x) ∧ ∀ y ∈ ys, Q y := by
  induction xs generalizing ys with
  | nil =>
      cases ys with
      | nil => simp
      | cons y ys => simp at hlength
  | cons x xs ih =>
      cases ys with
      | nil => simp at hlength
      | cons y ys =>
          simp only [List.zip_cons_cons, List.forall_mem_cons]
          rw [ih (by simpa using hlength)]
          constructor
          · rintro ⟨⟨hx, hy⟩, hxs, hys⟩
            exact ⟨⟨hx, hxs⟩, hy, hys⟩
          · rintro ⟨⟨hx, hxs⟩, hy, hys⟩
            exact ⟨⟨hx, hy⟩, hxs, hys⟩

theorem returns_flatPairs_iff (hlength : active.length = candidate.length) :
    Returns (flatPairs active candidate) ↔
      (∀ ev ∈ active, Returns (flattenEvent ev)) ∧ ∀ ev ∈ candidate, Returns (flattenEvent ev) := by
  rw [flatPairs, returns_mapM_iff, ← forall_mem_zip_iff hlength]
  refine forall₂_congr fun pair _ => ?_
  simp only [returns_bind_iff]
  constructor
  · rintro ⟨act, hact, cand, hcand, -⟩
    exact ⟨⟨act, hact⟩, cand, hcand⟩
  · rintro ⟨⟨act, hact⟩, cand, hcand⟩
    exact ⟨act, hact, cand, hcand, returns_pure _⟩

theorem returns_compare_iff (hlength : active.length = candidate.length) :
    Returns (compare u active candidate activeLat candLat isolation) ↔
      (∀ ev ∈ active, Returns (flattenEvent ev)) ∧ ∀ ev ∈ candidate, Returns (flattenEvent ev) := by
  rcases Nat.eq_zero_or_pos active.length with hzero | hpos
  · have hactive : active = [] := List.length_eq_zero_iff.mp hzero
    have hcandidate : candidate = [] := List.length_eq_zero_iff.mp (hlength ▸ hzero)
    subst hactive
    subst hcandidate
    simp [compare, evaluateFieldCongruence, evaluateCriticalSemantics, evaluateUnknownRetention]
  · have hne : ¬ (active.isEmpty = true ∨ candidate.isEmpty = true) := by
      simp only [List.isEmpty_iff, ← List.length_eq_zero_iff]
      omega
    rw [← returns_flatPairs_iff hlength]
    constructor
    · intro h
      simp only [compare, returns_bind_iff] at h
      rcases h with ⟨rate, hrate, -⟩
      rw [evaluateFieldCongruence, if_neg hne, bind_eq_ok_iff] at hrate
      rcases hrate with ⟨flats, hflats, -⟩
      exact ⟨flats, hflats⟩
    · intro h
      have hflat := ((returns_flatPairs_iff hlength).mp h).2
      rcases h with ⟨flats, hflats⟩
      have hcounts : Returns ((active.zip candidate).mapM fun p => retentionCounts p.1 p.2) := by
        rw [returns_mapM_iff]
        intro pair hpair
        rcases hflat pair.2 (List.of_mem_zip hpair).2 with ⟨flat, hflat⟩
        rw [retentionCounts, hflat]
        exact returns_pure _
      rcases hcounts with ⟨counts, hcounts⟩
      simp only [compare, evaluateFieldCongruence, evaluateCriticalSemantics,
        evaluateUnknownRetention, if_neg hne, hflats, hcounts, ok_bind]
      exact returns_pure _

end Compare

theorem compare_passed {u : Unicode} {active candidate : List Event} {activeLat candLat : List ℚ}
    {isolation : Bool} {report : ShadowComparisonReport}
    (h : compare u active candidate activeLat candLat isolation = .ok report)
    (hpassed : report.shadowState = .passed) :
    isolation = true ∧ report.downstreamIsolationVerified = isolation ∧
      0 ≤ report.metrics.dpsDelta := by
  simp only [compare, bind_eq_ok_iff, pure_eq_ok_iff] at h
  rcases h with ⟨rate, -, divergence, -, retention, -, rfl⟩
  simp only [verdict] at hpassed ⊢
  split at hpassed
  · simp at hpassed
  · rename_i hflags
    simp only [failureFlags, Bool.or_eq_true, decide_eq_true_eq, not_or, not_lt,
      Bool.not_eq_true', Bool.not_eq_false] at hflags
    exact ⟨hflags.1.1.1.1, trivial, hflags.1.1.1.2⟩

/-- A shadow run of text samples without a bus returns a report exactly when both
specs open and every sample is usable under both. -/
theorem returns_executeDual_iff (u : Unicode) (ticks : ℕ → Ticks) (samples : List String)
    (activeSpec candidateSpec : PyVal) (sourceId : String) (publishActive : Bool) :
    Returns (executeDual u ticks (samples.map .str) activeSpec candidateSpec sourceId none
        publishActive) ↔
      Opens activeSpec ∧ Opens candidateSpec ∧
        ∀ sample ∈ samples, Usable u activeSpec sample ∧ Usable u candidateSpec sample := by
  have hreturns : Returns (executeDual u ticks (samples.map .str) activeSpec candidateSpec sourceId
      none publishActive) ↔ ∃ report, executeDual u ticks (samples.map .str) activeSpec
        candidateSpec sourceId none publishActive = .ok (report, none) := by
    constructor
    · rintro ⟨⟨report, bus⟩, h⟩
      exact ⟨report, by rw [h, (executeDual_eq_ok_iff.mp h).2.2.1]⟩
    · rintro ⟨report, h⟩
      exact ⟨_, h⟩
  simp only [hreturns, executeDual_eq_ok_iff]
  constructor
  · rintro ⟨report, hactive, hcandidate, -, acts, cands, hacts, hcands, hreport⟩
    refine ⟨hactive, hcandidate, ?_⟩
    have hlength : acts.length = cands.length := by
      rw [mapM_length hacts, mapM_length hcands]
    rcases (returns_compare_iff (by simpa using hlength)).mp ⟨report, hreport⟩ with ⟨hact, hcand⟩
    intro sample hsample
    have hraw : (.str sample : PyVal) ∈ samples.map Json.str := List.mem_map_of_mem hsample
    refine ⟨usable_iff.mpr ?_, usable_iff.mpr ?_⟩
    · rcases mem_of_mapM hacts hraw with ⟨ev, hev, hmem⟩
      exact ⟨ev, hev, hact ev hmem⟩
    · rcases mem_of_mapM hcands hraw with ⟨ev, hev, hmem⟩
      exact ⟨ev, hev, returns_flattenEvent_tagShadow.mp (hcand _ (List.mem_map_of_mem hmem))⟩
  · rintro ⟨hactive, hcandidate, husable⟩
    have hacts : Returns ((samples.map Json.str).mapM (parse u · activeSpec)) := by
      rw [returns_mapM_iff]
      intro raw hraw
      rcases List.mem_map.mp hraw with ⟨sample, hsample, rfl⟩
      rcases usable_iff.mp (husable sample hsample).1 with ⟨ev, hev, -⟩
      exact ⟨ev, hev⟩
    have hcands : Returns ((samples.map Json.str).mapM (parse u · candidateSpec)) := by
      rw [returns_mapM_iff]
      intro raw hraw
      rcases List.mem_map.mp hraw with ⟨sample, hsample, rfl⟩
      rcases usable_iff.mp (husable sample hsample).2 with ⟨ev, hev, -⟩
      exact ⟨ev, hev⟩
    rcases hacts with ⟨acts, hacts⟩
    rcases hcands with ⟨cands, hcands⟩
    have hflat : ∀ {spec : PyVal} {evs : List Event},
        (samples.map Json.str).mapM (parse u · spec) = .ok evs →
        (∀ sample ∈ samples, Usable u spec sample) → ∀ ev ∈ evs, Returns (flattenEvent ev) := by
      intro spec evs hevs hall ev hev
      rcases mapM_mem hevs hev with ⟨raw, hraw, hparse⟩
      rcases List.mem_map.mp hraw with ⟨sample, hsample, rfl⟩
      rcases usable_iff.mp (hall sample hsample) with ⟨ev', hev', hflat⟩
      rw [hev', Except.ok.injEq] at hparse
      exact hparse ▸ hflat
    have hlength : acts.length = cands.length := by
      rw [mapM_length hacts, mapM_length hcands]
    have hact := hflat hacts fun sample h => (husable sample h).1
    have hcand := hflat hcands fun sample h => (husable sample h).2
    have hcompare : ∀ candId candVersion activeLat candLat,
        Returns (compare u acts (cands.map (tagShadow candId candVersion)) activeLat candLat
          true) := by
      intro candId candVersion activeLat candLat
      rw [returns_compare_iff (by simpa using hlength)]
      refine ⟨hact, fun ev hev => ?_⟩
      rcases List.mem_map.mp hev with ⟨ev', hmem, rfl⟩
      exact returns_flattenEvent_tagShadow.mpr (hcand ev' hmem)
    rcases hcompare _ _ _ _ with ⟨report, hreport⟩
    exact ⟨report, hactive, hcandidate, trivial, acts, cands, hacts, hcands, hreport⟩

section Lines

variable {u : Unicode}

end Lines

end Ulpf.Shadow
