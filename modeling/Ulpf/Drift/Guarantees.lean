import Ulpf.Drift.Semantic
import Ulpf.Lib.Outcome

/-!
What the drift state says about the two specifications and the two event lists: which
changes of a mapping, an enum or a detection are reported as drift.
-/

namespace Ulpf.Drift

open Ulpf.Lib
open Ulpf.Lib.Binary64 (fl roundTo)
open Ulpf.Python

section Views

def membersOf : PyVal → List (String × PyVal)
  | .obj members => members
  | _ => []

theorem items_eq_ok {x : PyVal} {members : List (String × PyVal)} (h : items x = .ok members) :
    membersOf x = members := by
  cases x with
  | obj members' =>
      cases h
      rfl
  | _ => cases h

theorem values_eq_ok {x : PyVal} {vs : List PyVal} (h : x.values = .ok vs) :
    (membersOf x).map Prod.snd = vs := by
  cases x with
  | obj members' =>
      cases h
      rfl
  | _ => cases h

theorem getD_eq_ok {x v default : PyVal} {k : String} (h : x.getD k default = .ok v) :
    x.memberD k default = v :=
  (PyVal.getD_eq_ok_iff.mp h).2

/-- The fields of a specification with their definitions. -/
def fieldDefs (spec : PyVal) : List (String × PyVal) := membersOf (spec.memberD "fields" (.obj []))

/-- A field definition is for a canonical field. -/
def MapsTo (fieldDef : PyVal) (canon : String) : Prop :=
  fieldDef.memberD "map_to" .null = .str canon

instance (fieldDef : PyVal) (canon : String) : Decidable (MapsTo fieldDef canon) :=
  inferInstanceAs (Decidable (_ = _))

/-- The specification has a definition of the raw field that maps to the path. -/
def Maps (spec : PyVal) (raw canon : String) : Prop :=
  ∃ fieldDef, (raw, fieldDef) ∈ fieldDefs spec ∧ MapsTo fieldDef canon

/-- What the enum of a field translates a raw value to. -/
def image? (fieldDef : PyVal) (value : String) : Option PyVal :=
  (fieldDef.memberD "enum" (.obj [])).member? value

/-- The paths whose enums carry a security meaning. -/
def enumPaths : List String := ["event.action", "event.outcome"]

/-- The candidate keeps every critical mapping and the meaning of every raw value of
an action or an outcome. -/
structure Preserves (baseline candidate : PyVal) : Prop where
  mappings : ∀ raw, ∀ canon ∈ criticalCanonicalFields, Maps baseline raw canon →
    Maps candidate raw canon
  enums : ∀ canon ∈ enumPaths, ∀ raw fb fc,
    (raw, fb) ∈ fieldDefs baseline → MapsTo fb canon →
    (raw, fc) ∈ fieldDefs candidate → MapsTo fc canon →
    ∀ value x y, image? fb value = some x → image? fc value = some y → PyVal.eq y x = true

end Views

section Mappings

/-- The critical field a definition maps to. -/
def critical? (fieldDef : PyVal) : Option String :=
  match fieldDef.memberD "map_to" .null with
  | .str canon => if criticalCanonicalFields.contains canon then some canon else none
  | _ => none

theorem critical?_eq_some_iff {fieldDef : PyVal} {canon : String} :
    critical? fieldDef = some canon ↔ canon ∈ criticalCanonicalFields ∧ MapsTo fieldDef canon := by
  rw [critical?, MapsTo]
  cases fieldDef.memberD "map_to" .null with
  | str path =>
      simp only [List.contains_iff_mem, Option.ite_none_right_eq_some, Option.some.injEq,
        Json.str.injEq]
      constructor
      · rintro ⟨hmem, rfl⟩
        exact ⟨hmem, rfl⟩
      · rintro ⟨hmem, rfl⟩
        exact ⟨hmem, rfl⟩
  | _ => simp

theorem criticalPath_eq_ok {fieldDef : PyVal} {path : Option String}
    (h : criticalPath fieldDef = .ok path) : path = critical? fieldDef := by
  rw [criticalPath, bind_eq_ok_iff] at h
  obtain ⟨v, hv, h⟩ := h
  rw [critical?, getD_eq_ok hv]
  cases v with
  | str canon =>
      rw [pure_eq_ok_iff] at h
      exact h.symm
  | arr _ => cases h
  | obj _ => cases h
  | _ =>
      cases h
      rfl

/-- Critical paths with the raw fields mapped to them, in the order of the fields. -/
def criticalPairs (spec : PyVal) : List (String × String) :=
  (fieldDefs spec).filterMap fun entry => (critical? entry.2).map fun canon => (canon, entry.1)

theorem mem_criticalPairs_iff {spec : PyVal} {canon raw : String} :
    (canon, raw) ∈ criticalPairs spec ↔
      canon ∈ criticalCanonicalFields ∧ Maps spec raw canon := by
  simp only [criticalPairs, List.mem_filterMap, Option.map_eq_some_iff, Prod.mk.injEq, Prod.exists,
    Maps]
  constructor
  · rintro ⟨raw', fieldDef, hmem, canon', hcritical, rfl, rfl⟩
    obtain ⟨hcanon, hmaps⟩ := critical?_eq_some_iff.mp hcritical
    exact ⟨hcanon, fieldDef, hmem, hmaps⟩
  · rintro ⟨hcanon, fieldDef, hmem, hmaps⟩
    exact ⟨raw, fieldDef, hmem, canon, critical?_eq_some_iff.mpr ⟨hcanon, hmaps⟩, rfl, rfl⟩

/-- The raw field the inverted map of a specification keeps for a path: the last one. -/
def lastRaw (spec : PyVal) (canon : String) : Option String :=
  lookup canon (criticalPairs spec).reverse

theorem lastRaw_mem {spec : PyVal} {canon raw : String} (h : lastRaw spec canon = some raw) :
    canon ∈ criticalCanonicalFields ∧ Maps spec raw canon :=
  mem_criticalPairs_iff.mp (List.mem_reverse.mp (mem_of_lookup h))

theorem criticalMap_eq_ok {spec : PyVal} {critMap : Dict String String}
    (h : criticalMap (spec.memberD "fields" (.obj [])) = .ok critMap) :
    critMap = Dict.ofList (criticalPairs spec) := by
  simp only [criticalMap, bind_eq_ok_iff, pure_eq_ok_iff] at h
  obtain ⟨members, hmembers, entries, hentries, rfl⟩ := h
  have hpaths := mapM_eq_map hentries (g := fun entry => (critical? entry.2).map fun canon =>
    (canon, entry.1)) (by
      rintro ⟨raw, fieldDef⟩ entry hentry
      simp only [bind_eq_ok_iff, pure_eq_ok_iff] at hentry
      obtain ⟨path, hpath, rfl⟩ := hentry
      rw [criticalPath_eq_ok hpath])
  rw [hpaths, criticalPairs, fieldDefs, items_eq_ok hmembers]
  exact congrArg Dict.ofList List.filterMap_map

/-- The last raw field of some critical path of the baseline is not the last one of
that path in the candidate. -/
def Remapped (baseline candidate : PyVal) : Prop :=
  ∃ canon raw, lastRaw baseline canon = some raw ∧ lastRaw candidate canon ≠ some raw

theorem criticalMismatch_eq_none_iff {cand : Dict String String} {entry : String × String} :
    criticalMismatch cand entry = none ↔ cand.get? entry.1 = some entry.2 := by
  obtain ⟨canonField, baseRaw⟩ := entry
  rw [criticalMismatch]
  cases cand.get? canonField with
  | none => simp
  | some candRaw => simp

theorem keys_criticalPairs_subset {spec : PyVal} {canon : String}
    (h : canon ∈ (Dict.ofList (criticalPairs spec)).keys) : canon ∈ criticalCanonicalFields := by
  obtain ⟨raw, hraw⟩ := Option.isSome_iff_exists.mp (Dict.mem_keys_iff.mp h)
  rw [Dict.get?_ofList] at hraw
  exact (lastRaw_mem hraw).1

theorem roundTo_ratio_pos_iff {m n : ℕ} (hle : m ≤ n) (hn : n < 20000) :
    0 < roundTo 4 (fl (m / n)) ↔ 0 < m := by
  constructor
  · intro h
    by_contra hzero
    simp [Nat.eq_zero_of_not_pos hzero] at h
  · intro hm
    have hseen := Binary64.lt_fl_ratio_of_pos hm hle hn
    have hbound := Binary64.abs_le_of_mem_Icc (Binary64.fl_ratio_mem_Icc hle)
    rw [Binary64.roundTo_pos_iff (by norm_num) hbound]
    norm_num at hseen ⊢
    exact hseen

theorem checkCriticalMappingDrift_pos_iff {baseline candidate : PyVal} {drift : ℚ}
    {details : List String}
    (h : checkCriticalMappingDrift baseline candidate = .ok (drift, details)) :
    0 < drift ↔ Remapped baseline candidate := by
  simp only [checkCriticalMappingDrift, bind_eq_ok_iff] at h
  obtain ⟨baseFields, hbase, candFields, hcand, baseMap, hbaseMap, candMap, hcandMap, h⟩ := h
  rw [← getD_eq_ok hbase] at hbaseMap
  rw [← getD_eq_ok hcand] at hcandMap
  have hbaseEq := criticalMap_eq_ok hbaseMap
  have hcandEq := criticalMap_eq_ok hcandMap
  have hmismatch : Remapped baseline candidate ↔
      0 < (baseMap.entries.filterMap (criticalMismatch candMap)).length := by
    rw [List.length_pos_iff_exists_mem]
    simp only [Remapped, lastRaw, ← Dict.get?_ofList, ← hbaseEq, ← hcandEq,
      Dict.get?_eq_some_iff (d := baseMap), List.mem_filterMap]
    constructor
    · rintro ⟨canon, raw, hmem, hne⟩
      have hsome : criticalMismatch candMap (canon, raw) ≠ none := by
        intro hnone
        exact hne (criticalMismatch_eq_none_iff.mp hnone)
      obtain ⟨detail, hdetail⟩ := Option.ne_none_iff_exists'.mp hsome
      exact ⟨detail, (canon, raw), hmem, hdetail⟩
    · rintro ⟨detail, ⟨canon, raw⟩, hmem, hdetail⟩
      refine ⟨canon, raw, hmem, ?_⟩
      intro heq
      rw [criticalMismatch_eq_none_iff.mpr heq] at hdetail
      cases hdetail
  rw [hmismatch]
  split at h
  · next hempty =>
      cases h
      simp [List.isEmpty_iff.mp hempty]
  · cases h
    apply roundTo_ratio_pos_iff (List.length_filterMap_le _ _)
    have hsub : baseMap.keys ⊆ criticalCanonicalFields := by
      intro canon hcanon
      exact keys_criticalPairs_subset (hbaseEq ▸ hcanon)
    have hlength := (baseMap.nodup.subperm hsub).length_le
    simp only [List.length_map, criticalCanonicalFields, List.length_cons,
      List.length_nil] at hlength
    omega

end Mappings

section Enums

/-- The definition whose action enum the detector reads. -/
def firstAction? (spec : PyVal) : Option PyVal :=
  ((fieldDefs spec).find? fun entry => MapsTo entry.2 "event.action").map Prod.snd

/-- The enum table of that definition, which is empty without one. -/
def actionTable (spec : PyVal) : PyVal :=
  match firstAction? spec with
  | some fieldDef => fieldDef.memberD "enum" (.obj [])
  | none => .obj []

theorem actionEnum_eq_ok {fields : List (String × PyVal)} {table : PyVal}
    (h : actionEnum fields = .ok table) :
    table = match (fields.find? fun entry => MapsTo entry.2 "event.action").map Prod.snd with
      | some fieldDef => fieldDef.memberD "enum" (.obj [])
      | none => .obj [] := by
  induction fields with
  | nil =>
      cases h
      rfl
  | cons entry rest ih =>
      obtain ⟨raw, fieldDef⟩ := entry
      rw [actionEnum, bind_eq_ok_iff] at h
      obtain ⟨canon, hcanon, h⟩ := h
      rw [List.find?_cons]
      by_cases hmaps : MapsTo fieldDef "event.action"
      · have heq : canon = .str "event.action" := by rw [← getD_eq_ok hcanon, hmaps]
        rw [if_pos (PyVal.eq_str_iff.mpr heq)] at h
        simp [hmaps, getD_eq_ok h]
      · have hne : canon ≠ .str "event.action" := by rwa [← getD_eq_ok hcanon]
        rw [if_neg (mt PyVal.eq_str_iff.mp hne)] at h
        simpa [hmaps] using ih h

/-- Some raw value of the baseline's action enum has another image in the candidate's. -/
def Inverted (baseline candidate : PyVal) : Prop :=
  ∃ raw x, (raw, x) ∈ membersOf (actionTable baseline) ∧
    inverts ((actionTable candidate).memberD raw .null) x = true

theorem inversions_isEmpty_iff {u : Unicode} {table : PyVal} {entries : List (String × PyVal)}
    {details : List String} (h : inversions u table entries = .ok details) :
    details = [] ↔ ∀ entry ∈ entries, inverts (table.memberD entry.1 .null) entry.2 = false := by
  induction entries generalizing details with
  | nil =>
      cases h
      simp
  | cons entry rest ih =>
      obtain ⟨raw, x⟩ := entry
      simp only [inversions, bind_eq_ok_iff] at h
      obtain ⟨y, hy, details', hdetails, h⟩ := h
      rw [List.forall_mem_cons, getD_eq_ok hy, ← ih hdetails]
      split at h
      · next hinverts =>
          cases h
          simp [hinverts]
      · next hnot =>
          cases h
          simp [hnot]

/-- The action of an event, read for the vocabulary check. -/
def actionOf (ev : PyVal) : PyVal :=
  PyVal.orElse (ev.memberD "event.action" .null)
    ((PyVal.orElse (ev.memberD "event" .null) (.obj [])).memberD "action" .null)

/-- The event has an action that is no image of either enum. -/
def unknownAction (known : List PyVal) (ev : PyVal) : Bool :=
  (actionOf ev).truthy &&
    !known.any fun y => PyVal.isNaN (actionOf ev) && PyVal.isNaN y || PyVal.eq (actionOf ev) y

theorem eventAction_eq_ok {ev act : PyVal} (h : eventAction ev = .ok act) : act = actionOf ev := by
  rw [eventAction, bind_eq_ok_iff] at h
  obtain ⟨flat, hflat, h⟩ := h
  rw [actionOf, PyVal.orElse, getD_eq_ok hflat]
  split at h
  · next htruthy =>
      cases h
      rw [if_pos htruthy]
  · next hfalsy =>
      obtain ⟨event, hevent, h⟩ := bind_eq_ok_iff.mp h
      rw [if_neg hfalsy, getD_eq_ok hevent, getD_eq_ok h]

theorem unmapped_eq_ok {known : List PyVal} {ev : PyVal} {flag : Bool}
    (h : unmapped known ev = .ok flag) : flag = unknownAction known ev := by
  rw [unmapped, bind_eq_ok_iff] at h
  obtain ⟨act, hact, h⟩ := h
  rw [unknownAction, ← eventAction_eq_ok hact]
  split at h
  · next htruthy =>
      obtain ⟨seen, hseen, h⟩ := bind_eq_ok_iff.mp h
      cases h
      rw [inSet] at hseen
      split at hseen
      · cases hseen
        rw [htruthy, Bool.true_and]
      · cases hseen
  · next hfalsy =>
      cases h
      simp [hfalsy]

/-- The images of both action enums. -/
def vocabulary (baseline candidate : PyVal) : List PyVal :=
  (membersOf (actionTable baseline)).map Prod.snd ++
    (membersOf (actionTable candidate)).map Prod.snd

theorem setOf_eq_ok {xs ys : List PyVal} (h : setOf xs = .ok ys) : ys = xs := by
  rw [setOf] at h
  split at h
  · cases h
    rfl
  · cases h

/-- More than five percent of the candidate's events have an action outside the
vocabulary of the enums. -/
def ManyUnmapped (baseline candidate : PyVal) (candidateEvents : List PyVal) : Prop :=
  (actionTable baseline).truthy = true ∧ 1001 / 20000 < fl
    (candidateEvents.countP (unknownAction (vocabulary baseline candidate)) /
      candidateEvents.length)

theorem not_manyUnmapped_nil {baseline candidate : PyVal} :
    ¬ ManyUnmapped baseline candidate [] := by
  rintro ⟨-, hmany⟩
  simp only [List.countP_nil, List.length_nil, Nat.cast_zero, div_zero, Binary64.fl_zero] at hmany
  norm_num at hmany

theorem lt_roundTo_ratio_iff {m n : ℕ} (hle : m ≤ n) :
    fl (5 / 100) < roundTo 4 (fl (m / n)) ↔ 1001 / 20000 < fl ((m : ℚ) / n) := by
  have hbound := Binary64.abs_le_of_mem_Icc (Binary64.fl_ratio_mem_Icc hle)
  have hpass : fl ((500 : ℤ) / (10 ^ 4 : ℕ)) < roundTo 4 (fl ((m : ℚ) / n)) ↔ _ :=
    Binary64.lt_roundTo_iff (by norm_num) hbound (by norm_num) (by norm_num)
  norm_num at hpass ⊢
  exact hpass

theorem checkEnumBehaviorDrift_lt_iff {u : Unicode} {baseline candidate : PyVal}
    {candidateEvents : List PyVal} {drift : ℚ} {details : List String}
    (h : checkEnumBehaviorDrift u baseline candidate candidateEvents = .ok (drift, details)) :
    fl (5 / 100) < drift ↔
      Inverted baseline candidate ∨ ManyUnmapped baseline candidate candidateEvents := by
  simp only [checkEnumBehaviorDrift, bind_eq_ok_iff] at h
  obtain ⟨baseFields, hbase, candFields, hcand, baseDefs, hbaseDefs, baseEnum, hbaseEnum,
    candDefs, hcandDefs, candEnum, hcandEnum, entries, hentries, inverted, hinverted, h⟩ := h
  have hbaseTable : baseEnum = actionTable baseline := by
    rw [actionEnum_eq_ok hbaseEnum, ← items_eq_ok hbaseDefs, ← getD_eq_ok hbase]
    rfl
  have hcandTable : candEnum = actionTable candidate := by
    rw [actionEnum_eq_ok hcandEnum, ← items_eq_ok hcandDefs, ← getD_eq_ok hcand]
    rfl
  rw [hbaseTable] at hentries h
  rw [hcandTable] at hinverted h
  have hnone := inversions_isEmpty_iff hinverted
  rw [← items_eq_ok hentries] at hnone
  split at h
  · next hsome =>
      have hinverts : Inverted baseline candidate := by
        have hne : ¬ inverted = [] := by simpa using hsome
        simp only [hnone, not_forall] at hne
        obtain ⟨⟨raw, x⟩, hmem, hinverts⟩ := hne
        exact ⟨raw, x, hmem, by simpa using hinverts⟩
      cases h
      have hfive : fl (5 / 100) < 1 := Binary64.fl_lt_one_of_lt_half (by norm_num) (by norm_num)
      exact iff_of_true hfive (Or.inl hinverts)
  · next hempty =>
      have hkeeps : ¬ Inverted baseline candidate := by
        rintro ⟨raw, x, hmem, hinverts⟩
        have hfalse := hnone.mp (by simpa using hempty) (raw, x) hmem
        rw [hinverts] at hfalse
        cases hfalse
      rw [or_iff_right hkeeps]
      split at h
      · next hskipped =>
          cases h
          apply iff_of_false (not_lt.mpr (Binary64.fl_nonneg (by norm_num)))
          rw [Bool.or_eq_true, List.isEmpty_iff] at hskipped
          rcases hskipped with rfl | hfalsy
          · exact not_manyUnmapped_nil
          · rintro ⟨htruthy, -⟩
            rw [htruthy] at hfalsy
            cases hfalsy
      · next hchecked =>
          simp only [bind_eq_ok_iff] at h
          obtain ⟨known, hknown, flags, hflags, h⟩ := h
          cases h
          have htruthy : (actionTable baseline).truthy = true := by
            simp only [Bool.or_eq_true, not_or] at hchecked
            simpa using hchecked.2
          have hvocabulary : known = vocabulary baseline candidate := by
            simp only [knownCanonical, bind_eq_ok_iff] at hknown
            obtain ⟨baseValues, hbaseValues, base, hbaseSet, candValues, hcandValues, cand,
              hcandSet, hknown⟩ := hknown
            cases hknown
            rw [vocabulary, setOf_eq_ok hbaseSet, setOf_eq_ok hcandSet, values_eq_ok hbaseValues,
              values_eq_ok hcandValues]
          have hflagsEq := mapM_eq_map hflags fun ev flag => unmapped_eq_ok
          have hcount : flags.count true =
              candidateEvents.countP (unknownAction (vocabulary baseline candidate)) := by
            rw [hflagsEq, hvocabulary, List.count, List.countP_map]
            apply List.countP_congr
            intro ev hev
            simp
          rw [hcount, lt_roundTo_ratio_iff List.countP_le_length, ManyUnmapped]
          exact ⟨fun hmany => ⟨htruthy, hmany⟩, And.right⟩

end Enums

section Detections

variable {u : Unicode}

/-- The events of a list that say they block something. -/
def expectedBlocks (u : Unicode) (events : List PyVal) : ℕ := events.countP (isBlockPayload u)

/-- The events among these that still name an endpoint. -/
def preservedBlocks (u : Unicode) (events : List PyVal) : ℕ :=
  events.countP fun ev =>
    isBlockPayload u ev && (PyVal.orElse (address ev "src") (address ev "dst")).truthy

theorem preservedBlocks_le (u : Unicode) (events : List PyVal) :
    preservedBlocks u events ≤ expectedBlocks u events := by
  apply List.countP_mono_left
  intro ev _ hpreserved
  rw [Bool.and_eq_true] at hpreserved
  exact hpreserved.1

theorem evalBlockedPreservation_eq_ok {events : List PyVal} {expected preserved : ℕ}
    (h : evalBlockedPreservation u events = .ok (expected, preserved)) :
    expected = expectedBlocks u events ∧ preserved = preservedBlocks u events := by
  rw [evalBlockedPreservation] at h
  split at h
  · cases h
    refine ⟨List.countP_eq_length_filter.symm, ?_⟩
    rw [List.countP_filter, preservedBlocks]
    apply List.countP_congr
    intro ev hev
    cases isBlockPayload u ev <;> simp
  · cases h

/-- The loss of preserved block events, as a share of the blocks the baseline expects,
shows in four places. -/
def LosesBlocks (u : Unicode) (baselineEvents candidateEvents : List PyVal) : Prop :=
  1 / 20000 < fl (fl (preservedBlocks u baselineEvents / expectedBlocks u baselineEvents) -
    fl (preservedBlocks u candidateEvents / expectedBlocks u baselineEvents))

theorem roundTo_drop_pos_iff {x y : ℚ} (hx : x ≤ 1 + 1 / 2 ^ 53) (hy : 0 ≤ y) :
    0 < roundTo 4 (max 0 (fl (x - y))) ↔ 1 / 20000 < fl (x - y) := by
  have hbound : |max 0 (fl (x - y))| ≤ 1 + 1 / 2 ^ 50 := by
    rw [abs_of_nonneg (le_max_left _ _), max_le_iff]
    refine ⟨by norm_num, ?_⟩
    by_cases hneg : x - y ≤ 0
    · have hfl := Binary64.fl_nonneg (q := -(x - y)) (by linarith)
      rw [Binary64.fl_neg] at hfl
      norm_num
      linarith
    · rw [not_le] at hneg
      have hsmall : |x - y| < 2 := by
        rw [abs_of_pos hneg]
        norm_num at hx
        linarith
      have herr := (abs_le.mp (Binary64.abs_fl_sub_le hsmall)).2
      norm_num at herr hx ⊢
      linarith
  rw [Binary64.roundTo_pos_iff (by norm_num) hbound, lt_max_iff]
  norm_num

theorem checkDpsRegression_pos_iff {baselineEvents candidateEvents : List PyVal} {drop : ℚ}
    {details : List String}
    (h : checkDpsRegression u baselineEvents candidateEvents = .ok (drop, details)) :
    0 < drop ↔ LosesBlocks u baselineEvents candidateEvents := by
  simp only [checkDpsRegression, bind_eq_ok_iff] at h
  obtain ⟨⟨expected, preserved⟩, hbase, ⟨expected', preserved'⟩, hcand, h⟩ := h
  obtain ⟨rfl, rfl⟩ := evalBlockedPreservation_eq_ok hbase
  obtain ⟨-, rfl⟩ := evalBlockedPreservation_eq_ok hcand
  cases h
  have hle := preservedBlocks_le u baselineEvents
  rw [LosesBlocks]
  by_cases hexpected : 0 < expectedBlocks u baselineEvents
  · rw [if_pos hexpected, if_pos hexpected]
    apply roundTo_drop_pos_iff _ (Binary64.fl_nonneg (by positivity))
    have herr := (abs_le.mp (Binary64.abs_fl_ratio_sub_le hle)).2
    have hone : (preservedBlocks u baselineEvents : ℚ) / expectedBlocks u baselineEvents ≤ 1 := by
      apply div_le_one_of_le₀ _ (by positivity)
      exact_mod_cast hle
    linarith
  · rw [if_neg hexpected, if_neg hexpected, Nat.eq_zero_of_not_pos hexpected]
    simp

theorem losesBlocks_of_lt {baselineEvents candidateEvents : List PyVal}
    (hlt : preservedBlocks u candidateEvents < preservedBlocks u baselineEvents)
    (hsmall : expectedBlocks u baselineEvents < 20000) :
    LosesBlocks u baselineEvents candidateEvents := by
  have hle := preservedBlocks_le u baselineEvents
  rw [LosesBlocks]
  generalize expectedBlocks u baselineEvents = e at *
  generalize preservedBlocks u baselineEvents = p at *
  generalize preservedBlocks u candidateEvents = c at *
  have hbase := abs_le.mp (Binary64.abs_fl_ratio_sub_le hle)
  have hcand := abs_le.mp (Binary64.abs_fl_ratio_sub_le (hlt.le.trans hle))
  have he : (0 : ℚ) < e := by
    have : 0 < e := by omega
    exact_mod_cast this
  have hgap : (1 : ℚ) / 19999 ≤ p / e - c / e := by
    rw [← sub_div, div_le_div_iff₀ (by norm_num) he]
    have hp : (c : ℚ) + 1 ≤ p := by exact_mod_cast hlt
    have he' : (e : ℚ) ≤ 19999 := by
      have : e ≤ 19999 := by omega
      exact_mod_cast this
    linarith
  have hone : (p : ℚ) / e ≤ 1 := by
    apply div_le_one_of_le₀ _ he.le
    exact_mod_cast hle
  have hzero : (0 : ℚ) ≤ c / e := by positivity
  generalize fl (p / e) = x at *
  generalize fl (c / e) = y at *
  norm_num at hbase hcand hgap
  have hpos : 0 < x - y := by linarith
  have hsmall : |x - y| < 2 := by
    rw [abs_of_pos hpos]
    linarith
  have herr := (abs_le.mp (Binary64.abs_fl_sub_le hsmall)).1
  norm_num at herr ⊢
  linarith

end Detections

section Verdict

variable {it : Interpreter} {baseline candidate : PyVal}
  {baselineEvents candidateEvents : List PyVal} {report : DriftReport}

/-- What the detector reports as drift. -/
def SeenChange (u : Unicode) (baseline candidate : PyVal)
    (baselineEvents candidateEvents : List PyVal) : Prop :=
  Remapped baseline candidate ∨ Inverted baseline candidate ∨
    ManyUnmapped baseline candidate candidateEvents ∨ LosesBlocks u baselineEvents candidateEvents

theorem drifted_iff
    (h : detectSemanticDrift it .defaults baseline candidate baselineEvents candidateEvents =
      .ok report) :
    report.driftState = .drifted ↔
      SeenChange it.unicode baseline candidate baselineEvents candidateEvents := by
  simp only [detectSemanticDrift, bind_eq_ok_iff] at h
  obtain ⟨⟨crit, critDetails⟩, hcrit, ⟨enum, enumDetails⟩, henum, ⟨fam, famDetails⟩, -,
    ⟨dps, dpsDetails⟩, hdps, h⟩ := h
  cases h
  have hcritical := checkCriticalMappingDrift_pos_iff hcrit
  have henums := checkEnumBehaviorDrift_lt_iff henum
  have hdetections := checkDpsRegression_pos_iff hdps
  have hseen : SeenChange it.unicode baseline candidate baselineEvents candidateEvents ↔
      0 < dps ∨ 0 < crit ∨ fl (5 / 100) < enum := by
    rw [SeenChange, hcritical, hdetections, henums, ← or_assoc (b := ManyUnmapped _ _ _), or_rotate,
      or_rotate]
  rw [hseen]
  change (if 0 < dps ∨ 0 < crit ∨ fl (5 / 100) < enum then DriftState.drifted
    else if fl (10 / 100) < fam then .suspected else .stable) = .drifted ↔ _
  by_cases hdrifted : 0 < dps ∨ 0 < crit ∨ fl (5 / 100) < enum
  · rw [if_pos hdrifted]
    exact iff_of_true rfl hdrifted
  · rw [if_neg hdrifted]
    apply iff_of_false _ hdrifted
    split <;> simp

end Verdict

section NeverMissed

/-- A report without drift means that the candidate preserves the baseline. -/
def NeverMisses (report : DriftReport) (baseline candidate : PyVal) : Prop :=
  report.driftState = .stable ∨ report.driftState = .suspected → Preserves baseline candidate

/-- The detector compares the tables of two definitions on an image: both are the first
action of their specification, and the candidate's image is truthy. -/
def Compared (baseline candidate fb fc y : PyVal) : Prop :=
  firstAction? baseline = some fb ∧ firstAction? candidate = some fc ∧ y.truthy = true

/-- What the detector does not look at is preserved: mappings that a later field
of the same path hides, and images it does not compare. -/
structure HiddenPreserved (baseline candidate : PyVal) : Prop where
  mappings : ∀ raw, ∀ canon ∈ criticalCanonicalFields, Maps baseline raw canon →
    lastRaw baseline canon ≠ some raw → Maps candidate raw canon
  enums : ∀ canon ∈ enumPaths, ∀ raw fb fc,
    (raw, fb) ∈ fieldDefs baseline → MapsTo fb canon →
    (raw, fc) ∈ fieldDefs candidate → MapsTo fc canon →
    ∀ value x y, image? fb value = some x → image? fc value = some y →
      ¬ Compared baseline candidate fb fc y → PyVal.eq y x = true

variable {baseline candidate : PyVal}

theorem mem_membersOf_of_member? {table x : PyVal} {value : String}
    (h : table.member? value = some x) : (value, x) ∈ membersOf table := by
  cases table with
  | obj members => exact mem_of_lookup h
  | _ => cases h

theorem eq_of_compared (hkeeps : ¬ Inverted baseline candidate) {fb fc x y : PyVal} {value : String}
    (hcompared : Compared baseline candidate fb fc y) (hx : image? fb value = some x)
    (hy : image? fc value = some y) : PyVal.eq y x = true := by
  obtain ⟨hfb, hfc, htruthy⟩ := hcompared
  by_contra hne
  refine hkeeps ⟨value, x, ?_, ?_⟩
  · rw [actionTable, hfb]
    exact mem_membersOf_of_member? hx
  · have himage : (actionTable candidate).memberD value .null = y := by
      rw [actionTable, hfc, Json.memberD]
      exact congrArg (Option.getD · Json.null) hy
    rw [Bool.not_eq_true] at hne
    rw [himage, inverts, htruthy, hne]
    rfl

theorem preserves_iff (hkept : ¬ Remapped baseline candidate)
    (hkeeps : ¬ Inverted baseline candidate) :
    Preserves baseline candidate ↔ HiddenPreserved baseline candidate := by
  constructor
  · intro h
    refine ⟨fun raw canon hcanon hmaps _ => h.mappings raw canon hcanon hmaps, ?_⟩
    intro canon hcanon raw fb fc hfb hbase hfc hcand value x y hx hy _
    exact h.enums canon hcanon raw fb fc hfb hbase hfc hcand value x y hx hy
  · intro h
    constructor
    · intro raw canon hcanon hmaps
      by_cases hlast : lastRaw baseline canon = some raw
      · have hcand : lastRaw candidate canon = some raw := by
          by_contra hne
          exact hkept ⟨canon, raw, hlast, hne⟩
        exact (lastRaw_mem hcand).2
      · exact h.mappings raw canon hcanon hmaps hlast
    · intro canon hcanon raw fb fc hfb hbase hfc hcand value x y hx hy
      by_cases hcompared : Compared baseline candidate fb fc y
      · exact eq_of_compared hkeeps hcompared hx hy
      · exact h.enums canon hcanon raw fb fc hfb hbase hfc hcand value x y hx hy hcompared

variable {it : Interpreter} {baselineEvents candidateEvents : List PyVal} {report : DriftReport}

theorem neverMisses_iff
    (h : detectSemanticDrift it .defaults baseline candidate baselineEvents candidateEvents =
      .ok report) :
    NeverMisses report baseline candidate ↔
      SeenChange it.unicode baseline candidate baselineEvents candidateEvents ∨
        HiddenPreserved baseline candidate := by
  have hdrifted := drifted_iff h
  have hquiet : (report.driftState = .stable ∨ report.driftState = .suspected) ↔
      ¬ SeenChange it.unicode baseline candidate baselineEvents candidateEvents := by
    rw [← hdrifted]
    cases report.driftState <;> simp
  rw [NeverMisses, hquiet]
  by_cases hseen : SeenChange it.unicode baseline candidate baselineEvents candidateEvents
  · simp [hseen]
  · have hkept : ¬ Remapped baseline candidate := fun h => hseen (Or.inl h)
    have hkeeps : ¬ Inverted baseline candidate := fun h => hseen (Or.inr (Or.inl h))
    simp [hseen, preserves_iff hkept hkeeps]

/-- An interpreter that knows the ASCII block and adds in the order of the keys. -/
def plainInterpreter : Interpreter := ⟨Unicode.ascii, fun names f => (names.map f).sum⟩

/-- One outcome field, whose enum translates a single code. -/
def outcomeSpec (image : String) : PyVal :=
  .obj [("fields", .obj [("result", .obj [("map_to", .str "event.outcome"),
    ("enum", .obj [("0", .str image)])])])]

def quietReport : DriftReport where
  driftState := .stable
  sampleCount := 0
  signals := ⟨0, 0, 0, 0⟩
  driftDetails := ["All observed semantic metrics within configured baseline stability bounds"]
  remediationRecommended := false

theorem detectSemanticDrift_outcome :
    detectSemanticDrift plainInterpreter .defaults (outcomeSpec "success") (outcomeSpec "failure")
      [] [] = .ok quietReport := by
  rw [← toOption_eq_some_iff]
  decide +kernel

theorem neverMisses_outcome :
    NeverMisses quietReport (outcomeSpec "success") (outcomeSpec "failure") ↔
      SeenChange plainInterpreter.unicode (outcomeSpec "success") (outcomeSpec "failure") [] [] ∨
        HiddenPreserved (outcomeSpec "success") (outcomeSpec "failure") :=
  neverMisses_iff detectSemanticDrift_outcome

/-- An outcome that turns from success to failure leaves the report stable. -/
theorem not_neverMisses_outcome :
    ¬ ∀ report, detectSemanticDrift plainInterpreter .defaults (outcomeSpec "success")
        (outcomeSpec "failure") [] [] = .ok report →
      NeverMisses report (outcomeSpec "success") (outcomeSpec "failure") := by
  intro h
  have hpreserves := h quietReport detectSemanticDrift_outcome (Or.inl rfl)
  have heq := hpreserves.enums "event.outcome" (by decide) "result" _ _
    (List.mem_singleton.mpr rfl) rfl (List.mem_singleton.mpr rfl) rfl "0" _ _ rfl rfl
  exact absurd heq (by decide)

end NeverMissed

end Ulpf.Drift
