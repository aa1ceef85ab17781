import Ulpf.ParserRuntime.Runtime

/-!
The loop over the fields in closed form: the results of `Parse` are the writes
of the single fields, in the order of the enumeration.
-/

namespace Ulpf.ParserRuntime

open Ulpf.Lib
open Ulpf.Go

/-- A spec that `ValidateParserSpec` accepts. -/
abbrev ValidSpec := { spec : ParserSpec // Accepted spec }

/-- What a field writes: its value and the lineage record. -/
abbrev Write := Value × FieldLineage

section Loop

variable (p : Platform) (e : Enumeration) (spec : ParserSpec) (rawStr : String)
  (rawFields : RawFields)

/-- The write of one field, if it has a raw field and its value converts. -/
def written (field : String × FieldSpec) : Option Write :=
  match resolve p e rawFields field.1 with
  | none => none
  | some (srcField, val) =>
      match coerce p field.2 (enumOrders e field.1 field.2) val with
      | .error _ => none
      | .ok typedVal => some (typedVal, lineageOf p spec rawStr srcField field.2 typedVal)

/-- The writes of a list of fields under their canonical paths. -/
def writes (fields : List (String × FieldSpec)) : List (String × Write) :=
  fields.filterMap fun field =>
    (written p e spec rawStr rawFields field).map fun w => (field.2.mapTo, w)

/-- The raw field that a field stands for. -/
def consumes (field : String × FieldSpec) : Option String :=
  (resolve p e rawFields field.1).map Prod.fst

variable {p e spec rawStr rawFields}

theorem written_eq_some_iff {field : String × FieldSpec} {w : Write} :
    written p e spec rawStr rawFields field = some w ↔
      ∃ srcField val, resolve p e rawFields field.1 = some (srcField, val) ∧
        coerce p field.2 (enumOrders e field.1 field.2) val = .ok w.1 ∧
        w.2 = lineageOf p spec rawStr srcField field.2 w.1 := by
  obtain ⟨typedVal, lineage⟩ := w
  rw [written]
  constructor
  · intro h
    split at h
    · cases h
    · rename_i srcField val hresolve
      split at h
      · cases h
      · rename_i typedVal' hcoerce
        cases h
        exact ⟨srcField, val, hresolve, hcoerce, rfl⟩
  · rintro ⟨srcField, val, hresolve, hcoerce, hlineage⟩
    simp only at hcoerce hlineage
    simp [hresolve, hcoerce, hlineage]

theorem get?_of_resolve {srcField k : String} {val : Value}
    (h : resolve p e rawFields srcField = some (k, val)) : rawFields.get? k = some val := by
  rw [resolve] at h
  split at h
  · rename_i val' hget
    cases h
    exact hget
  · have hmem := List.mem_of_find?_eq_some h
    exact Dict.get?_eq_some_iff.mpr ((e.entries_perm _ rawFields).mem_iff.mp hmem)

variable (p e spec rawStr rawFields) in
/-- One round: a write or nothing, and the consumed key. -/
theorem mapField_eq (s : MapState) (field : String × FieldSpec) :
    (mapField p e spec rawStr rawFields s field).extracted =
        s.extracted.update ((writes p e spec rawStr rawFields [field]).map
          fun entry => (entry.1, entry.2.1)) ∧
      (mapField p e spec rawStr rawFields s field).lineage =
        s.lineage.update ((writes p e spec rawStr rawFields [field]).map
          fun entry => (entry.1, entry.2.2)) ∧
      (mapField p e spec rawStr rawFields s field).mappedKeys =
        (consumes p e rawFields field).toList ++ s.mappedKeys := by
  simp only [mapField, writes, written, consumes, List.filterMap_cons, List.filterMap_nil]
  cases resolve p e rawFields field.1 with
  | none => simp
  | some entry =>
      simp only
      cases coerce p field.2 (enumOrders e field.1 field.2) entry.2 with
      | error err => simp
      | ok typedVal => simp

variable (p e spec rawStr rawFields) in
/-- The whole loop: the writes of its rounds one after the other. -/
theorem foldl_mapField_eq (fields : List (String × FieldSpec)) (s : MapState) :
    (fields.foldl (mapField p e spec rawStr rawFields) s).extracted =
        s.extracted.update ((writes p e spec rawStr rawFields fields).map
          fun entry => (entry.1, entry.2.1)) ∧
      (fields.foldl (mapField p e spec rawStr rawFields) s).lineage =
        s.lineage.update ((writes p e spec rawStr rawFields fields).map
          fun entry => (entry.1, entry.2.2)) ∧
      ∀ k, k ∈ (fields.foldl (mapField p e spec rawStr rawFields) s).mappedKeys ↔
        k ∈ s.mappedKeys ∨ ∃ field ∈ fields, consumes p e rawFields field = some k := by
  induction fields generalizing s with
  | nil => simp [writes]
  | cons field fields ih =>
      obtain ⟨hextracted, hlineage, hmapped⟩ := mapField_eq p e spec rawStr rawFields s field
      obtain ⟨hextracted', hlineage', hmapped'⟩ := ih (mapField p e spec rawStr rawFields s field)
      have happend : writes p e spec rawStr rawFields (field :: fields) =
          writes p e spec rawStr rawFields [field] ++ writes p e spec rawStr rawFields fields := by
        rw [writes, ← List.singleton_append, List.filterMap_append]
        rfl
      refine ⟨?_, ?_, ?_⟩
      · rw [List.foldl_cons, hextracted', hextracted, happend, List.map_append, Dict.update_append]
      · rw [List.foldl_cons, hlineage', hlineage, happend, List.map_append, Dict.update_append]
      · intro k
        rw [List.foldl_cons, hmapped', hmapped]
        simp only [List.mem_append, Option.mem_toList, List.mem_cons, exists_eq_or_imp]
        tauto

/-- The write to a path that the loop makes last. -/
def lastWrite (p : Platform) (e : Enumeration) (spec : ParserSpec) (rawStr : String)
    (rawFields : RawFields) (path : String) : Option Write :=
  lookup path (writes p e spec rawStr rawFields (e.entries .fields spec.fields)).reverse

theorem get?_extracted (path : String) :
    (mapRawFields p e spec rawStr rawFields).extracted.get? path =
      (lastWrite p e spec rawStr rawFields path).map Prod.fst := by
  have h := (foldl_mapField_eq p e spec rawStr rawFields (e.entries .fields spec.fields)
    MapState.init).1
  show (mapFields p e spec rawStr rawFields).extracted.get? path = _
  rw [mapFields, h, Dict.get?_update, ← List.map_reverse, lookup_map_snd Prod.fst, lastWrite]
  simp [MapState.init]

theorem get?_lineage (path : String) :
    (mapRawFields p e spec rawStr rawFields).lineage.get? path =
      (lastWrite p e spec rawStr rawFields path).map Prod.snd := by
  have h := (foldl_mapField_eq p e spec rawStr rawFields (e.entries .fields spec.fields)
    MapState.init).2.1
  show (mapFields p e spec rawStr rawFields).lineage.get? path = _
  rw [mapFields, h, Dict.get?_update, ← List.map_reverse, lookup_map_snd Prod.snd, lastWrite]
  simp [MapState.init]

/-- The write to a path that comes last is the one of a field after which no
field writes to the path. -/
theorem lastWrite_eq_some_iff {path : String} {w : Write} :
    lastWrite p e spec rawStr rawFields path = some w ↔
      ∃ before field after, e.entries .fields spec.fields = before ++ field :: after ∧
        field.2.mapTo = path ∧ written p e spec rawStr rawFields field = some w ∧
        ∀ later ∈ after, later.2.mapTo = path →
          written p e spec rawStr rawFields later = none := by
  rw [lastWrite, writes, lookup_reverse_filterMap_eq_some_iff]
  apply exists_congr
  intro before
  apply exists_congr
  intro field
  apply exists_congr
  intro after
  simp only [Option.map_eq_some_iff, Prod.mk.injEq]
  constructor
  · rintro ⟨hfields, ⟨w', hw, rfl, rfl⟩, hafter⟩
    refine ⟨hfields, rfl, hw, ?_⟩
    intro later hlater hpath
    by_contra hsome
    obtain ⟨w', hw'⟩ := Option.ne_none_iff_exists'.mp hsome
    apply hafter later hlater w'
    rw [hw', hpath]
    rfl
  · rintro ⟨hfields, hpath, hw, hafter⟩
    refine ⟨hfields, ⟨w, hw, hpath, rfl⟩, ?_⟩
    intro later hlater u hu
    obtain ⟨w', hw', hpair⟩ := Option.map_eq_some_iff.mp hu
    rw [hafter later hlater (Prod.mk.inj hpair).1] at hw'
    cases hw'

theorem get?_unknownFields (hpolicy : spec.unknownFields.policy = "preserve") (k : String) :
    (mapRawFields p e spec rawStr rawFields).unknownFields.get? k =
      if ∃ field ∈ spec.fields.entries, consumes p e rawFields field = some k then none
      else rawFields.get? k := by
  have h := (foldl_mapField_eq p e spec rawStr rawFields (e.entries .fields spec.fields)
    MapState.init).2.2 k
  have hfields : (∃ field ∈ e.entries .fields spec.fields, consumes p e rawFields field = some k) ↔
      ∃ field ∈ spec.fields.entries, consumes p e rawFields field = some k := by
    simp only [(e.entries_perm .fields spec.fields).mem_iff]
  rw [hfields] at h
  show (retainUnknown spec rawFields (mapFields p e spec rawStr rawFields).mappedKeys).get? k = _
  rw [retainUnknown, if_pos hpolicy, Dict.get?_filterKeys]
  simp only [Bool.not_eq_true', mapFields]
  by_cases hconsumed : ∃ field ∈ spec.fields.entries, consumes p e rawFields field = some k
  · have hmem := h.mpr (Or.inr hconsumed)
    simp [hconsumed, hmem]
  · have hmem := mt h.mp (by simpa [MapState.init] using hconsumed)
    simp [hconsumed, hmem]

end Loop

end Ulpf.ParserRuntime
