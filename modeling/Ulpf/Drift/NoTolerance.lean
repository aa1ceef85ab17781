import Ulpf.Drift.Guarantees

/-!
Which specifications and events `detect_semantic_drift` can read, and which losses of a
blocked connection it reports as drift.
-/

namespace Ulpf.Drift

open Ulpf.Lib
open Ulpf.Lib.Binary64 (fl roundTo)
open Ulpf.Python

section Specifications

/-- The fields of a specification are definitions with a path that can be looked up. -/
structure SpecReads (spec : PyVal) : Prop where
  dictionary : spec.isObj = true
  fields : (spec.memberD "fields" (.obj [])).isObj = true
  definitions : ∀ entry ∈ fieldDefs spec,
    entry.2.isObj = true ∧ hashable (entry.2.memberD "map_to" .null) = true

theorem returns_getD_iff {x default : PyVal} {k : String} :
    Returns (x.getD k default) ↔ x.isObj = true := by
  cases x <;> simp [PyVal.getD, Json.isObj]

theorem getD_of_isObj {x : PyVal} (h : x.isObj = true) (k : String) (default : PyVal) :
    x.getD k default = .ok (x.memberD k default) :=
  PyVal.getD_eq_ok_iff.mpr ⟨h, rfl⟩

theorem items_of_isObj {x : PyVal} (h : x.isObj = true) : items x = .ok (membersOf x) := by
  cases x with
  | obj members => rfl
  | _ => cases h

theorem returns_items_iff {x : PyVal} : Returns (items x) ↔ x.isObj = true := by
  cases x <;> simp [items, Json.isObj, throw, throwThe, MonadExceptOf.throw]

theorem returns_criticalPath_iff {fieldDef : PyVal} :
    Returns (criticalPath fieldDef) ↔
      fieldDef.isObj = true ∧ hashable (fieldDef.memberD "map_to" .null) = true := by
  rw [criticalPath, returns_bind_iff]
  constructor
  · rintro ⟨path, hpath, hreturns⟩
    obtain ⟨hobj, rfl⟩ := PyVal.getD_eq_ok_iff.mp hpath
    refine ⟨hobj, ?_⟩
    cases hvalue : fieldDef.memberD "map_to" .null with
    | arr _ | obj _ =>
        rw [hvalue] at hreturns
        exact absurd hreturns (not_returns_error _)
    | _ => rfl
  · rintro ⟨hobj, hhash⟩
    refine ⟨_, getD_of_isObj hobj _ _, ?_⟩
    cases hvalue : fieldDef.memberD "map_to" .null with
    | arr _ | obj _ =>
        rw [hvalue] at hhash
        cases hhash
    | _ => exact returns_pure _

theorem returns_criticalMap_iff {fields : PyVal} :
    Returns (criticalMap fields) ↔ fields.isObj = true ∧ ∀ entry ∈ membersOf fields,
      entry.2.isObj = true ∧ hashable (entry.2.memberD "map_to" .null) = true := by
  have hround : ∀ entry : String × PyVal, Returns (do
      return (← criticalPath entry.2).map fun canon => (canon, entry.1) :
        Except PyError (Option (String × String))) ↔
      entry.2.isObj = true ∧ hashable (entry.2.memberD "map_to" .null) = true := by
    intro entry
    rw [returns_bind_of_total fun _ => returns_pure _, returns_criticalPath_iff]
  rw [criticalMap, returns_bind_iff]
  constructor
  · rintro ⟨members, hmembers, hreturns⟩
    rw [returns_bind_of_total fun _ => returns_pure _, returns_mapM_iff] at hreturns
    refine ⟨returns_items_iff.mp ⟨members, hmembers⟩, fun entry hentry => ?_⟩
    rw [items_eq_ok hmembers] at hentry
    exact (hround entry).mp (hreturns entry hentry)
  · rintro ⟨hobj, hdefinitions⟩
    refine ⟨_, items_of_isObj hobj, ?_⟩
    rw [returns_bind_of_total fun _ => returns_pure _, returns_mapM_iff]
    exact fun entry hentry => (hround entry).mpr (hdefinitions entry hentry)

theorem returns_checkCriticalMappingDrift_iff {baseline candidate : PyVal} :
    Returns (checkCriticalMappingDrift baseline candidate) ↔
      SpecReads baseline ∧ SpecReads candidate := by
  have hlast : ∀ baseMap candMap : Dict String String, Returns (if baseMap.entries.isEmpty then
      pure ((0 : ℚ), ([] : List String)) else
        let details := baseMap.entries.filterMap (criticalMismatch candMap)
        pure (roundTo 4 (fl (details.length / baseMap.entries.length)), details) :
          Except PyError (ℚ × List String)) := by
    intro baseMap candMap
    split <;> exact returns_pure _
  rw [checkCriticalMappingDrift]
  constructor
  · intro h
    obtain ⟨baseFields, hbase, h⟩ := returns_bind_iff.mp h
    obtain ⟨candFields, hcand, h⟩ := returns_bind_iff.mp h
    obtain ⟨baseMap, hbaseMap, h⟩ := returns_bind_iff.mp h
    obtain ⟨candMap, hcandMap, -⟩ := returns_bind_iff.mp h
    obtain ⟨hbaseObj, rfl⟩ := PyVal.getD_eq_ok_iff.mp hbase
    obtain ⟨hcandObj, rfl⟩ := PyVal.getD_eq_ok_iff.mp hcand
    obtain ⟨hbaseFields, hbaseDefs⟩ := returns_criticalMap_iff.mp ⟨_, hbaseMap⟩
    obtain ⟨hcandFields, hcandDefs⟩ := returns_criticalMap_iff.mp ⟨_, hcandMap⟩
    exact ⟨⟨hbaseObj, hbaseFields, hbaseDefs⟩, hcandObj, hcandFields, hcandDefs⟩
  · rintro ⟨hbase, hcand⟩
    obtain ⟨baseMap, hbaseMap⟩ := returns_criticalMap_iff.mpr ⟨hbase.fields, hbase.definitions⟩
    obtain ⟨candMap, hcandMap⟩ := returns_criticalMap_iff.mpr ⟨hcand.fields, hcand.definitions⟩
    refine returns_bind_iff.mpr ⟨_, getD_of_isObj hbase.dictionary _ _, ?_⟩
    refine returns_bind_iff.mpr ⟨_, getD_of_isObj hcand.dictionary _ _, ?_⟩
    refine returns_bind_iff.mpr ⟨_, hbaseMap, ?_⟩
    exact returns_bind_iff.mpr ⟨_, hcandMap, hlast baseMap candMap⟩

end Specifications

section Vocabulary

/-- The vocabulary check can read the action of an event: an action that is not in the flat key
is looked up in a dictionary, and one that is there can be a member of a set. -/
structure ActionReads (ev : PyVal) : Prop where
  dictionary : ev.isObj = true
  nested : PyVal.truthy (ev.memberD "event.action" .null) = false →
    PyVal.truthy (ev.memberD "event" .null) = true → (ev.memberD "event" .null).isObj = true
  action : PyVal.truthy (actionOf ev) = true → hashable (actionOf ev) = true

theorem returns_eventAction_iff {ev : PyVal} :
    Returns (eventAction ev) ↔ ev.isObj = true ∧
      (PyVal.truthy (ev.memberD "event.action" .null) = false →
        PyVal.truthy (ev.memberD "event" .null) = true →
        (ev.memberD "event" .null).isObj = true) := by
  have hsection (event : PyVal) :
      Returns ((PyVal.orElse event (.obj [])).getD "action" .null) ↔
        (event.truthy = true → event.isObj = true) := by
    rw [returns_getD_iff, PyVal.orElse]
    cases event.truthy <;> simp [Json.isObj]
  rw [eventAction]
  constructor
  · intro h
    obtain ⟨act, hact, h⟩ := returns_bind_iff.mp h
    obtain ⟨hobj, rfl⟩ := PyVal.getD_eq_ok_iff.mp hact
    refine ⟨hobj, fun hfalsy => ?_⟩
    rw [if_neg (by simp [hfalsy])] at h
    obtain ⟨event, hevent, h⟩ := returns_bind_iff.mp h
    obtain ⟨-, rfl⟩ := PyVal.getD_eq_ok_iff.mp hevent
    exact (hsection _).mp h
  · rintro ⟨hobj, hnested⟩
    refine returns_bind_iff.mpr ⟨_, getD_of_isObj hobj _ _, ?_⟩
    split
    · exact returns_pure _
    · rename_i hfalsy
      refine returns_bind_iff.mpr ⟨_, getD_of_isObj hobj _ _, ?_⟩
      exact (hsection _).mpr (hnested (by simpa using hfalsy))

theorem returns_unmapped_iff {known : List PyVal} {ev : PyVal} :
    Returns (unmapped known ev) ↔ ActionReads ev := by
  rw [unmapped]
  constructor
  · intro h
    obtain ⟨act, hact, h⟩ := returns_bind_iff.mp h
    obtain ⟨hobj, hnested⟩ := returns_eventAction_iff.mp ⟨act, hact⟩
    refine ⟨hobj, hnested, fun htruthy => ?_⟩
    rw [eventAction_eq_ok hact, if_pos htruthy, returns_bind_of_total fun _ => returns_pure _,
      inSet] at h
    by_contra hhash
    rw [if_neg hhash] at h
    exact not_returns_error _ h
  · intro h
    obtain ⟨act, hact⟩ := returns_eventAction_iff.mpr ⟨h.dictionary, h.nested⟩
    refine returns_bind_iff.mpr ⟨act, hact, ?_⟩
    rw [eventAction_eq_ok hact]
    split
    · rename_i htruthy
      rw [returns_bind_of_total fun _ => returns_pure _, inSet, if_pos (h.action htruthy)]
      exact returns_pure _
    · exact returns_pure _

theorem returns_actionEnum {fields : List (String × PyVal)}
    (h : ∀ entry ∈ fields, entry.2.isObj = true) : Returns (actionEnum fields) := by
  induction fields with
  | nil => exact returns_pure _
  | cons entry fields ih =>
      obtain ⟨raw, fieldDef⟩ := entry
      obtain ⟨hfirst, hrest⟩ := List.forall_mem_cons.mp h
      rw [actionEnum]
      refine returns_bind_iff.mpr ⟨_, getD_of_isObj hfirst _ _, ?_⟩
      split
      · exact returns_getD_iff.mpr hfirst
      · exact ih hrest

theorem actionEnum_fieldDefs {spec : PyVal} (h : SpecReads spec) :
    actionEnum (fieldDefs spec) = .ok (actionTable spec) := by
  obtain ⟨table, htable⟩ := returns_actionEnum fun entry hentry => (h.definitions entry hentry).1
  rw [htable, actionEnum_eq_ok htable]
  rfl

theorem returns_inversions_iff {u : Unicode} {table : PyVal}
    {entries : List (String × PyVal)} :
    Returns (inversions u table entries) ↔ (entries ≠ [] → table.isObj = true) := by
  induction entries with
  | nil => simp [inversions]
  | cons entry entries ih =>
      obtain ⟨raw, x⟩ := entry
      rw [inversions]
      constructor
      · rintro h -
        obtain ⟨y, hy, -⟩ := returns_bind_iff.mp h
        exact returns_getD_iff.mp ⟨y, hy⟩
      · intro h
        have hobj := h (List.cons_ne_nil _ _)
        obtain ⟨details, hdetails⟩ := ih.mpr fun _ => hobj
        refine returns_bind_iff.mpr ⟨_, getD_of_isObj hobj _ _, ?_⟩
        refine returns_bind_iff.mpr ⟨details, hdetails, ?_⟩
        split <;> exact returns_pure _

theorem returns_setOf_iff {xs : List PyVal} :
    Returns (setOf xs) ↔ ∀ x ∈ xs, hashable x = true := by
  rw [setOf, ← List.all_eq_true]
  split
  · rename_i hall
    exact iff_of_true (returns_pure _) hall
  · rename_i hall
    exact iff_of_false (not_returns_error _) hall

theorem values_of_isObj {x : PyVal} (h : x.isObj = true) :
    x.values = .ok ((membersOf x).map Prod.snd) := by
  cases x with
  | obj members => rfl
  | _ => cases h

theorem returns_knownCanonical_iff {base cand : PyVal} (hbase : base.isObj = true)
    (hcand : cand.isObj = true) :
    Returns (knownCanonical base cand) ↔
      ∀ x ∈ (membersOf base).map Prod.snd ++ (membersOf cand).map Prod.snd, hashable x = true := by
  rw [knownCanonical, values_of_isObj hbase, values_of_isObj hcand, List.forall_mem_append,
    ← returns_setOf_iff, ← returns_setOf_iff]
  simp only [ok_bind]
  constructor
  · intro h
    obtain ⟨base', hbase', h⟩ := returns_bind_iff.mp h
    obtain ⟨cand', hcand', -⟩ := returns_bind_iff.mp h
    exact ⟨⟨base', hbase'⟩, cand', hcand'⟩
  · rintro ⟨⟨base', hbase'⟩, cand', hcand'⟩
    exact returns_bind_iff.mpr ⟨_, hbase', returns_bind_iff.mpr ⟨_, hcand', returns_pure _⟩⟩

/-- The enum check can read the action tables, and the actions of the candidate's events when
it comes to compare them with the tables. -/
structure EnumsRead (baseline candidate : PyVal) (candidateEvents : List PyVal) : Prop where
  table : (actionTable baseline).isObj = true
  images : membersOf (actionTable baseline) ≠ [] → (actionTable candidate).isObj = true
  vocabulary : ¬Inverted baseline candidate → candidateEvents ≠ [] →
    membersOf (actionTable baseline) ≠ [] → ∀ x ∈ vocabulary baseline candidate, hashable x = true
  actions : ¬Inverted baseline candidate → candidateEvents ≠ [] →
    membersOf (actionTable baseline) ≠ [] → ∀ ev ∈ candidateEvents, ActionReads ev

theorem truthy_iff_of_isObj {x : PyVal} (h : x.isObj = true) :
    x.truthy = true ↔ membersOf x ≠ [] := by
  cases x with
  | obj members => simp [PyVal.truthy, membersOf]
  | _ => cases h

theorem inverted_iff {u : Unicode} {baseline candidate : PyVal} {details : List String}
    (h : inversions u (actionTable candidate) (membersOf (actionTable baseline)) = .ok details) :
    Inverted baseline candidate ↔ details ≠ [] := by
  rw [Ne, inversions_isEmpty_iff h]
  simp [Inverted]

theorem returns_vocabularyCheck_iff {baseline candidate : PyVal} {candidateEvents : List PyVal}
    {f : List Bool → ℚ × List String} (hbase : (actionTable baseline).isObj = true)
    (hcand : (actionTable candidate).isObj = true) :
    Returns (do
      let known ← knownCanonical (actionTable baseline) (actionTable candidate)
      let flags ← candidateEvents.mapM (unmapped known)
      return f flags : Except PyError (ℚ × List String)) ↔
      (∀ x ∈ vocabulary baseline candidate, hashable x = true) ∧
        ∀ ev ∈ candidateEvents, ActionReads ev := by
  have hevents (known : List PyVal) : Returns (do
      let flags ← candidateEvents.mapM (unmapped known)
      return f flags : Except PyError (ℚ × List String)) ↔
      ∀ ev ∈ candidateEvents, ActionReads ev := by
    rw [returns_bind_of_total fun _ => returns_pure _, returns_mapM_iff]
    simp only [returns_unmapped_iff]
  rw [vocabulary, ← returns_knownCanonical_iff hbase hcand]
  constructor
  · intro h
    obtain ⟨known, hknown, h⟩ := returns_bind_iff.mp h
    exact ⟨⟨known, hknown⟩, (hevents known).mp h⟩
  · rintro ⟨⟨known, hknown⟩, h⟩
    exact returns_bind_iff.mpr ⟨known, hknown, (hevents known).mpr h⟩

theorem returns_checkEnumBehaviorDrift_iff {u : Unicode} {baseline candidate : PyVal}
    {candidateEvents : List PyVal} (hbase : SpecReads baseline) (hcand : SpecReads candidate) :
    Returns (checkEnumBehaviorDrift u baseline candidate candidateEvents) ↔
      EnumsRead baseline candidate candidateEvents := by
  rw [checkEnumBehaviorDrift, getD_of_isObj hbase.dictionary, getD_of_isObj hcand.dictionary]
  simp only [ok_bind]
  rw [items_of_isObj hbase.fields, items_of_isObj hcand.fields]
  simp only [ok_bind]
  rw [← fieldDefs, ← fieldDefs, actionEnum_fieldDefs hbase, actionEnum_fieldDefs hcand]
  simp only [ok_bind]
  constructor
  · intro h
    obtain ⟨entries, hentries, hafter⟩ := returns_bind_iff.mp h
    have htable := returns_items_iff.mp ⟨_, hentries⟩
    rw [← items_eq_ok hentries] at hafter
    obtain ⟨details, hdetails, hchecks⟩ := returns_bind_iff.mp hafter
    have himages := returns_inversions_iff.mp ⟨details, hdetails⟩
    have hchecked (hkeeps : ¬Inverted baseline candidate) (hevents : candidateEvents ≠ [])
        (hentries : membersOf (actionTable baseline) ≠ []) :
        (∀ x ∈ vocabulary baseline candidate, hashable x = true) ∧
          ∀ ev ∈ candidateEvents, ActionReads ev := by
      rw [inverted_iff hdetails, not_not] at hkeeps
      have htruthy := (truthy_iff_of_isObj htable).mpr hentries
      rw [if_neg (by simp [hkeeps]), if_neg (by simp [hevents, htruthy])] at hchecks
      exact (returns_vocabularyCheck_iff htable (himages hentries)).mp hchecks
    exact ⟨htable, himages, fun h₁ h₂ h₃ => (hchecked h₁ h₂ h₃).1,
      fun h₁ h₂ h₃ => (hchecked h₁ h₂ h₃).2⟩
  · intro h
    obtain ⟨details, hdetails⟩ := returns_inversions_iff (u := u).mpr h.images
    refine returns_bind_iff.mpr ⟨_, items_of_isObj h.table, ?_⟩
    refine returns_bind_iff.mpr ⟨details, hdetails, ?_⟩
    split
    · exact returns_pure _
    · rename_i hkeeps
      have hkeeps : ¬Inverted baseline candidate := by
        rw [inverted_iff hdetails, not_not]
        simpa using hkeeps
      split
      · exact returns_pure _
      · rename_i hnonempty
        have hnonempty : candidateEvents ≠ [] ∧ membersOf (actionTable baseline) ≠ [] := by
          rw [← truthy_iff_of_isObj h.table]
          simpa using hnonempty
        refine (returns_vocabularyCheck_iff h.table (h.images hnonempty.2)).mpr ?_
        exact ⟨h.vocabulary hkeeps hnonempty.1 hnonempty.2,
          h.actions hkeeps hnonempty.1 hnonempty.2⟩

end Vocabulary

section Families

variable {baselineEvents candidateEvents : List PyVal}

/-- `in` looks for a text in a text, a list or a dictionary. -/
def searchable : PyVal → Bool
  | .str _ | .arr _ | .obj _ => true
  | _ => false

/-- The family of an event can be told: by its class, or else by an action that can be searched. -/
structure FamilyReads (ev : PyVal) : Prop where
  dictionary : ev.isObj = true
  action : (eventText ev "class").truthy = false → searchable (eventText ev "action") = true

theorem returns_contains_iff {x : PyVal} {k : String} :
    Returns (x.contains k) ↔ searchable x = true := by
  cases x <;> simp [PyVal.contains, searchable]

theorem returns_getFamily_iff {u : Unicode} {ev : PyVal} :
    Returns (getFamily u ev) ↔ FamilyReads ev := by
  rw [getFamily]
  constructor
  · intro h
    by_cases hobj : ev.isObj = true
    · refine ⟨hobj, fun hclass => ?_⟩
      rw [if_neg (by simp [hobj])] at h
      dsimp only at h
      rw [if_neg (by simp [hclass])] at h
      obtain ⟨found, hfound, -⟩ := returns_bind_iff.mp h
      exact returns_contains_iff.mp ⟨found, hfound⟩
    · rw [if_pos (by simpa using hobj)] at h
      exact absurd h (not_returns_error _)
  · intro h
    rw [if_neg (by simp [h.dictionary])]
    dsimp only
    split
    · exact returns_pure _
    · rename_i hclass
      have haction := h.action (by simpa using hclass)
      obtain ⟨auth, hauth⟩ := returns_contains_iff (k := "auth").mpr haction
      obtain ⟨login, hlogin⟩ := returns_contains_iff (k := "login").mpr haction
      refine returns_bind_iff.mpr ⟨auth, hauth, returns_bind_iff.mpr ⟨login, hlogin, ?_⟩⟩
      repeat' split
      all_goals exact returns_pure _

theorem returns_checkEventFamilyDrift_iff (it : Interpreter)
    (thresholds : SemanticDriftThresholds) :
    Returns (checkEventFamilyDrift it thresholds baselineEvents candidateEvents) ↔
      (baselineEvents ≠ [] → candidateEvents ≠ [] →
        ∀ ev ∈ baselineEvents ++ candidateEvents, FamilyReads ev) := by
  rw [checkEventFamilyDrift]
  split
  · rename_i hempty
    rw [Bool.or_eq_true, List.isEmpty_iff, List.isEmpty_iff] at hempty
    refine iff_of_true (returns_pure _) fun hbase hcand => ?_
    exact absurd hempty (not_or.mpr ⟨hbase, hcand⟩)
  · rename_i hboth
    rw [Bool.or_eq_true, List.isEmpty_iff, List.isEmpty_iff, not_or] at hboth
    simp only [List.forall_mem_append, ← returns_getFamily_iff (u := it.unicode),
      ← returns_mapM_iff]
    constructor
    · rintro h - -
      obtain ⟨base, hbase, h⟩ := returns_bind_iff.mp h
      obtain ⟨cand, hcand, -⟩ := returns_bind_iff.mp h
      exact ⟨⟨base, hbase⟩, cand, hcand⟩
    · intro h
      obtain ⟨⟨base, hbase⟩, cand, hcand⟩ := h hboth.1 hboth.2
      exact returns_bind_iff.mpr ⟨base, hbase, returns_bind_iff.mpr ⟨cand, hcand, returns_pure _⟩⟩

end Families

section Detections

variable {u : Unicode} {baselineEvents candidateEvents : List PyVal}

theorem returns_evalBlockedPreservation_iff {events : List PyVal} :
    Returns (evalBlockedPreservation u events) ↔ ∀ ev ∈ events, ev.isObj = true := by
  rw [evalBlockedPreservation, ← List.all_eq_true]
  split
  · rename_i hall
    exact iff_of_true (returns_pure _) hall
  · rename_i hall
    exact iff_of_false (not_returns_error _) hall

theorem returns_checkDpsRegression_iff :
    Returns (checkDpsRegression u baselineEvents candidateEvents) ↔
      ∀ ev ∈ baselineEvents ++ candidateEvents, ev.isObj = true := by
  rw [checkDpsRegression, List.forall_mem_append,
    ← returns_evalBlockedPreservation_iff (u := u),
    ← returns_evalBlockedPreservation_iff (u := u)]
  constructor
  · intro h
    obtain ⟨base, hbase, h⟩ := returns_bind_iff.mp h
    obtain ⟨cand, hcand, -⟩ := returns_bind_iff.mp h
    exact ⟨⟨base, hbase⟩, cand, hcand⟩
  · rintro ⟨⟨base, hbase⟩, cand, hcand⟩
    exact returns_bind_iff.mpr ⟨base, hbase, returns_bind_iff.mpr ⟨cand, hcand, returns_pure _⟩⟩

end Detections

section Reports

variable {baseline candidate : PyVal} {baselineEvents candidateEvents : List PyVal}

/-- The detector can read its arguments. -/
structure DetectorReads (baseline candidate : PyVal)
    (baselineEvents candidateEvents : List PyVal) : Prop where
  baselineSpec : SpecReads baseline
  candidateSpec : SpecReads candidate
  enums : EnumsRead baseline candidate candidateEvents
  families : baselineEvents ≠ [] → candidateEvents ≠ [] →
    ∀ ev ∈ baselineEvents ++ candidateEvents, FamilyReads ev
  events : ∀ ev ∈ baselineEvents ++ candidateEvents, ev.isObj = true

theorem returns_detectSemanticDrift_iff (it : Interpreter)
    (thresholds : SemanticDriftThresholds) :
    Returns (detectSemanticDrift it thresholds baseline candidate baselineEvents
      candidateEvents) ↔
      DetectorReads baseline candidate baselineEvents candidateEvents := by
  rw [detectSemanticDrift]
  constructor
  · intro h
    obtain ⟨critical, hcritical, h⟩ := returns_bind_iff.mp h
    obtain ⟨enums, henums, h⟩ := returns_bind_iff.mp h
    obtain ⟨families, hfamilies, h⟩ := returns_bind_iff.mp h
    obtain ⟨blocks, hblocks, -⟩ := returns_bind_iff.mp h
    obtain ⟨hbase, hcand⟩ := returns_checkCriticalMappingDrift_iff.mp ⟨critical, hcritical⟩
    exact ⟨hbase, hcand, (returns_checkEnumBehaviorDrift_iff hbase hcand).mp ⟨enums, henums⟩,
      (returns_checkEventFamilyDrift_iff it thresholds).mp ⟨families, hfamilies⟩,
      returns_checkDpsRegression_iff.mp ⟨blocks, hblocks⟩⟩
  · intro h
    obtain ⟨critical, hcritical⟩ :=
      returns_checkCriticalMappingDrift_iff.mpr ⟨h.baselineSpec, h.candidateSpec⟩
    obtain ⟨enums, henums⟩ := (returns_checkEnumBehaviorDrift_iff (u := it.unicode) h.baselineSpec
      h.candidateSpec).mpr h.enums
    obtain ⟨families, hfamilies⟩ :=
      (returns_checkEventFamilyDrift_iff it thresholds).mpr h.families
    obtain ⟨blocks, hblocks⟩ := returns_checkDpsRegression_iff (u := it.unicode).mpr h.events
    refine returns_bind_iff.mpr ⟨critical, hcritical, returns_bind_iff.mpr ⟨enums, henums, ?_⟩⟩
    refine returns_bind_iff.mpr ⟨families, hfamilies, returns_bind_iff.mpr ⟨blocks, hblocks, ?_⟩⟩
    exact returns_pure _

end Reports

section NoTolerance

variable {it : Interpreter} {baseline candidate : PyVal}
  {baselineEvents candidateEvents : List PyVal}

/-- Fewer preserved block events mean that drift is reported. -/
def ToleratesNoLoss (it : Interpreter) (baseline candidate : PyVal)
    (baselineEvents candidateEvents : List PyVal) : Prop :=
  preservedBlocks it.unicode candidateEvents < preservedBlocks it.unicode baselineEvents →
    ∃ report, detectSemanticDrift it .defaults baseline candidate baselineEvents
      candidateEvents = .ok report ∧ report.driftState = .drifted

/-- A loss is reported when the detector can read its arguments, and sees this loss in four
places or another change. -/
theorem toleratesNoLoss_iff :
    ToleratesNoLoss it baseline candidate baselineEvents candidateEvents ↔
      (preservedBlocks it.unicode candidateEvents < preservedBlocks it.unicode baselineEvents →
        DetectorReads baseline candidate baselineEvents candidateEvents ∧
          SeenChange it.unicode baseline candidate baselineEvents candidateEvents) := by
  rw [ToleratesNoLoss, ← returns_detectSemanticDrift_iff it .defaults]
  apply imp_congr_right
  intro _
  constructor
  · rintro ⟨report, hreport, hdrifted⟩
    exact ⟨⟨report, hreport⟩, (drifted_iff hreport).mp hdrifted⟩
  · rintro ⟨⟨report, hreport⟩, hseen⟩
    exact ⟨report, hreport, (drifted_iff hreport).mpr hseen⟩

theorem drifted_of_lost (hreads : DetectorReads baseline candidate baselineEvents candidateEvents)
    (hsmall : expectedBlocks it.unicode baselineEvents < 20000) :
    ToleratesNoLoss it baseline candidate baselineEvents candidateEvents := by
  intro hlt
  obtain ⟨report, hreport⟩ := (returns_detectSemanticDrift_iff it .defaults).mpr hreads
  have hseen : SeenChange it.unicode baseline candidate baselineEvents candidateEvents :=
    .inr (.inr (.inr (losesBlocks_of_lt hlt hsmall)))
  exact ⟨report, hreport, (drifted_iff hreport).mpr hseen⟩

/-- A blocked connection with its source, and one that lost it. -/
def blockEvent : PyVal := .obj [("event.action", .str "deny"), ("src.ip", .str "10.0.0.1")]

def strippedEvent : PyVal := .obj [("event.action", .str "deny")]

/-- Many blocked connections. -/
def fullBatch (n : ℕ) : List PyVal := List.replicate (n + 1) blockEvent

/-- The same, but the last one lost its source. -/
def lossyBatch (n : ℕ) : List PyVal := List.replicate n blockEvent ++ [strippedEvent]

theorem not_seenChange_empty {u : Unicode} (h : ¬ LosesBlocks u baselineEvents candidateEvents) :
    ¬ SeenChange u (.obj []) (.obj []) baselineEvents candidateEvents := by
  rintro (⟨canon, raw, hraw, -⟩ | ⟨raw, x, hmem, -⟩ | ⟨htruthy, -⟩ | hloses)
  · cases hraw
  · cases hmem
  · cases htruthy
  · exact h hloses

theorem blocks_lossy (n : ℕ) :
    expectedBlocks Unicode.ascii (fullBatch n) = n + 1 ∧
      preservedBlocks Unicode.ascii (fullBatch n) = n + 1 ∧
      preservedBlocks Unicode.ascii (lossyBatch n) = n := by
  have hblock : isBlockPayload Unicode.ascii blockEvent = true := by decide +kernel
  have hsource :
      (PyVal.orElse (address blockEvent "src") (address blockEvent "dst")).truthy = true := by
    decide
  have hstripped :
      (PyVal.orElse (address strippedEvent "src") (address strippedEvent "dst")).truthy =
        false := by
    decide
  refine ⟨?_, ?_, ?_⟩
  · rw [expectedBlocks, fullBatch, List.countP_replicate, if_pos hblock]
  · rw [preservedBlocks, fullBatch, List.countP_replicate, if_pos (by rw [hblock, hsource]; rfl)]
  · rw [preservedBlocks, lossyBatch, List.countP_append, List.countP_replicate,
      if_pos (by rw [hblock, hsource]; rfl), List.countP_singleton, hstripped]
    simp

theorem not_losesBlocks_lossy :
    ¬ LosesBlocks Unicode.ascii (fullBatch 39999) (lossyBatch 39999) := by
  obtain ⟨hexpected, hbase, hcand⟩ := blocks_lossy 39999
  rw [LosesBlocks, hexpected, hbase, hcand]
  decide +kernel

theorem preservedBlocks_lossy_lt (n : ℕ) :
    preservedBlocks Unicode.ascii (lossyBatch n) < preservedBlocks Unicode.ascii (fullBatch n) := by
  obtain ⟨-, hbase, hcand⟩ := blocks_lossy n
  rw [hbase, hcand]
  exact Nat.lt_succ_self n

/-- The loss of one blocked connection in forty thousand is rounded away. -/
theorem not_toleratesNoLoss_lossy :
    ¬ToleratesNoLoss plainInterpreter (.obj []) (.obj []) (fullBatch 39999)
      (lossyBatch 39999) := by
  intro h
  obtain ⟨report, hreport, hdrifted⟩ := h (preservedBlocks_lossy_lt 39999)
  exact not_seenChange_empty not_losesBlocks_lossy ((drifted_iff hreport).mp hdrifted)

/-- An action that is a number raises, whatever was lost. -/
example :
    ¬DetectorReads (.obj []) (.obj []) [blockEvent] [.obj [("event.action", PyVal.int 5)]] := by
  intro h
  have hreads := h.families (by simp) (by simp) (.obj [("event.action", PyVal.int 5)]) (by simp)
  exact absurd (hreads.action (by decide)) (by decide)

end NoTolerance

end Ulpf.Drift
