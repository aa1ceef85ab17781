import Ulpf.ParserRuntime.FieldLoop

/-!
What the enumerations of a run can decide: which raw field a field of the spec
stands for, which values an enum table gives, and which of the fields of a JSON
payload with one dotted name wins.
-/

namespace Ulpf.ParserRuntime

open Ulpf.Lib
open Ulpf.Go

section Candidates

/-- A raw field that a field of the spec may stand for. -/
def Candidate (u : Unicode) (rawFields : RawFields) (srcField k : String) : Prop :=
  if (rawFields.get? srcField).isSome then k = srcField
  else k ∈ rawFields.keys ∧ equalFold u k srcField = true

/-- A result of the conversion of a value, under some order of the enum table at
each of its uses. -/
def Coerces (p : Platform) (fieldSpec : FieldSpec) (val : Value)
    (outcome : Except CoercionError Value) : Prop :=
  ∃ orders : ℕ → List (String × String),
    (∀ use, (orders use).Perm fieldSpec.enum.entries) ∧ coerce p fieldSpec orders val = outcome

variable {p : Platform} {e : Enumeration} {rawFields rawFields' : RawFields}
  {srcField k : String} {val : Value}

theorem coerces_enumOrders (e : Enumeration) (srcField : String) (fieldSpec : FieldSpec)
    (val : Value) :
    Coerces p fieldSpec val (coerce p fieldSpec (enumOrders e srcField fieldSpec) val) :=
  ⟨_, fun use => e.entries_perm (.enum srcField use) fieldSpec.enum, rfl⟩

theorem candidate_of_resolve (h : resolve p e rawFields srcField = some (k, val)) :
    Candidate p.unicode rawFields srcField k := by
  have hget := get?_of_resolve h
  rw [resolve] at h
  rw [Candidate]
  split at h
  · rename_i val' hsome
    cases h
    simp [hsome]
  · rename_i hnone
    have hfold := List.find?_some h
    simp only [hnone, Option.isSome_none, Bool.false_eq_true, if_false]
    exact ⟨Dict.mem_keys_iff.mpr (by simp [hget]), hfold⟩

theorem mem_keys_of_candidate (h : Candidate p.unicode rawFields srcField k) :
    k ∈ rawFields.keys := by
  rw [Candidate] at h
  split at h
  · rename_i hsome
    rw [h]
    exact Dict.mem_keys_iff.mpr hsome
  · exact h.1

theorem exists_resolve (e : Enumeration) (h : Candidate p.unicode rawFields srcField k) :
    ∃ k' val, resolve p e rawFields srcField = some (k', val) := by
  rw [Candidate] at h
  rw [resolve]
  cases hget : rawFields.get? srcField with
  | some val => exact ⟨srcField, val, rfl⟩
  | none =>
      simp only [hget, Option.isSome_none, Bool.false_eq_true, if_false] at h
      obtain ⟨v, hv⟩ := Option.isSome_iff_exists.mp (Dict.mem_keys_iff.mp h.1)
      have hmem : (k, v) ∈ e.entries (.fallback srcField) rawFields :=
        (e.entries_perm _ rawFields).mem_iff.mpr (Dict.get?_eq_some_iff.mp hv)
      have hsome := (List.find?_isSome (p := fun entry : String × Value =>
        equalFold p.unicode entry.1 srcField)).mpr ⟨(k, v), hmem, h.2⟩
      obtain ⟨⟨k', val⟩, hfind⟩ := Option.isSome_iff_exists.mp hsome
      exact ⟨k', val, hfind⟩

theorem candidate_congr (hkeys : ∀ k, k ∈ rawFields.keys ↔ k ∈ rawFields'.keys) :
    Candidate p.unicode rawFields srcField k ↔ Candidate p.unicode rawFields' srcField k := by
  have hfield := hkeys srcField
  rw [Dict.mem_keys_iff, Dict.mem_keys_iff] at hfield
  simp only [Candidate, hfield, hkeys]

end Candidates

section Steering

/-- An enumeration that agrees with another one on JSON objects and takes the
given choices everywhere else. -/
def steer (e : Enumeration) (fields : KeyOrder) (choice : String → String)
    (orders : String → ℕ → List (String × String)) : Enumeration
  | .fields => fields
  | .fallback field => KeyOrder.first (· == choice field)
  | .enum field use => KeyOrder.exactly ((orders field use).map Prod.fst)
  | .object path => e (.object path)

variable {p : Platform} {rawFields : RawFields} {val : Value} (e : Enumeration)
  (fields : KeyOrder) (choice : String → String)
  (orders : String → ℕ → List (String × String))

theorem resolve_steer {srcField : String}
    (hcandidate : Candidate p.unicode rawFields srcField (choice srcField))
    (hget : rawFields.get? (choice srcField) = some val) :
    resolve p (steer e fields choice orders) rawFields srcField =
      some (choice srcField, val) := by
  rw [Candidate] at hcandidate
  rw [resolve]
  cases hname : rawFields.get? srcField with
  | some v =>
      simp only [hname, Option.isSome_some, if_true] at hcandidate
      rw [hcandidate, hname] at hget
      rw [hcandidate]
      simpa using hget
  | none =>
      simp only [hname, Option.isSome_none, Bool.false_eq_true, if_false] at hcandidate
      have hfilter : rawFields.keys.filter (· == choice srcField) = [choice srcField] := by
        have hcount : rawFields.keys.count (choice srcField) = 1 :=
          List.count_eq_one_of_mem rawFields.nodup hcandidate.1
        rw [List.filter_beq, hcount]
        rfl
      have hhead : (steer e fields choice orders).entries (.fallback srcField) rawFields =
          (choice srcField, val) :: arrange
            (rawFields.keys.filter fun k => !(k == choice srcField)) rawFields.entries := by
        simp only [Enumeration.entries, steer, KeyOrder.first, hfilter,
          arrange_append]
        simp only [arrange, List.filterMap_cons, List.filterMap_nil]
        rw [show lookup (choice srcField) rawFields.entries = some val from hget]
        rfl
      simp only [hhead]
      exact List.find?_cons_of_pos (p := fun entry : String × Value =>
        equalFold p.unicode entry.1 srcField) hcandidate.2

theorem enumOrders_steer {srcField : String} {fieldSpec : FieldSpec}
    (hperm : ∀ use, (orders srcField use).Perm fieldSpec.enum.entries) :
    enumOrders (steer e fields choice orders) srcField fieldSpec = orders srcField := by
  funext use
  have hkeys : ((orders srcField use).map Prod.fst).Perm fieldSpec.enum.keys :=
    (hperm use).map Prod.fst
  simp only [enumOrders, Enumeration.entries, steer, KeyOrder.exactly, if_pos hkeys]
  exact arrange_keys fieldSpec.enum.nodup fun entry hentry => (hperm use).mem_iff.mp hentry

end Steering

section Body

theorem lookup_flattenMembers (e : Enumeration) (path : List String) (pre k : String)
    (members : List (String × Value)) :
    lookup k (flattenMembers e path pre members) = (lookup k members).map fun val =>
      ((if pre = "" then k else pre ++ "." ++ k), val) ::
        flattenJSON e (path ++ [k]) (if pre = "" then k else pre ++ "." ++ k) val := by
  induction members with
  | nil => rfl
  | cons m members ih =>
      obtain ⟨k', val⟩ := m
      rw [flattenMembers, lookup_cons, lookup_cons, ih]
      split
      · rename_i hkey
        subst hkey
        rfl
      · rfl

theorem mem_flattenJSON_obj (e : Enumeration) (path : List String) (pre : String)
    (members : List (String × Value)) (entry : String × Value) :
    entry ∈ flattenJSON e path pre (.obj members) ↔
      ∃ k val, lookup k members = some val ∧
        (entry = ((if pre = "" then k else pre ++ "." ++ k), val) ∨
          entry ∈ flattenJSON e (path ++ [k]) (if pre = "" then k else pre ++ "." ++ k) val) := by
  simp only [flattenJSON, arrange, List.mem_flatMap, List.mem_filterMap, lookup_flattenMembers,
    Option.map_map, Option.map_eq_some_iff]
  constructor
  · rintro ⟨segment, ⟨k, -, val, hlookup, rfl⟩, hentry⟩
    exact ⟨k, val, hlookup, List.mem_cons.mp hentry⟩
  · rintro ⟨k, val, hlookup, hentry⟩
    have hkey : k ∈ members.map Prod.fst := lookup_isSome_iff.mp (by simp [hlookup])
    exact ⟨_, ⟨k, ((e (.object path)).perm _).mem_iff.mpr hkey, val, hlookup, rfl⟩,
      List.mem_cons.mpr hentry⟩

/-- The order of the objects does not matter to what is assigned, only to what
is assigned last. -/
theorem mem_flattenJSON_congr (e e' : Enumeration) (x : Value) (path : List String)
    (pre : String) (entry : String × Value) :
    entry ∈ flattenJSON e path pre x ↔ entry ∈ flattenJSON e' path pre x := by
  induction x using Json.induct generalizing path pre with
  | obj members ih =>
      rw [mem_flattenJSON_obj, mem_flattenJSON_obj]
      apply exists_congr
      intro k
      apply exists_congr
      intro val
      constructor
      · rintro ⟨hlookup, hentry⟩
        refine ⟨hlookup, hentry.imp_right fun h => ?_⟩
        exact (ih (k, val) (mem_of_lookup hlookup) _ _).mp h
      · rintro ⟨hlookup, hentry⟩
        refine ⟨hlookup, hentry.imp_right fun h => ?_⟩
        exact (ih (k, val) (mem_of_lookup hlookup) _ _).mpr h
  | _ => simp [flattenJSON]

theorem flattenJSON_congr {e e' : Enumeration}
    (h : ∀ path, e (.object path) = e' (.object path)) (x : Value) (path : List String)
    (pre : String) : flattenJSON e path pre x = flattenJSON e' path pre x := by
  induction x using Json.induct generalizing path pre with
  | obj members ih =>
      have hmembers : flattenMembers e path pre members = flattenMembers e' path pre members := by
        induction members with
        | nil => rfl
        | cons m members ihm =>
            obtain ⟨k, val⟩ := m
            rw [flattenMembers, flattenMembers, ih (k, val) List.mem_cons_self,
              ihm fun m hm => ih m (List.mem_cons_of_mem _ hm)]
      rw [flattenJSON, flattenJSON, hmembers, h]
  | _ => rfl

variable (rawStr : String) (spec : ParserSpec)

theorem parseBody_congr {e e' : Enumeration} (h : ∀ path, e (.object path) = e' (.object path)) :
    parseBody e rawStr spec = parseBody e' rawStr spec := by
  have hjson : parseJSON e rawStr = parseJSON e' rawStr := by
    simp only [parseJSON, flattenJSON_congr h]
  simp only [parseBody, hjson]

theorem parseBody_keys (e e' : Enumeration) {rawFields : RawFields}
    (h : parseBody e rawStr spec = .ok rawFields) :
    ∃ rawFields', parseBody e' rawStr spec = .ok rawFields' ∧
      ∀ k, k ∈ rawFields.keys ↔ k ∈ rawFields'.keys := by
  by_cases htype : spec.bodyParser.type = "json"
  · simp only [parseBody, htype] at h ⊢
    rw [parseJSON] at h ⊢
    split at h
    · cases h
      exact ⟨_, rfl, fun _ => Iff.rfl⟩
    · cases h
      refine ⟨_, rfl, ?_⟩
      intro k
      rw [Dict.ofList, Dict.ofList, Dict.mem_keys_update, Dict.mem_keys_update, List.mem_map,
        List.mem_map]
      simp only [mem_flattenJSON_congr e e']
    · cases h
  · have hsame : parseBody e' rawStr spec = parseBody e rawStr spec := by
      simp only [parseBody]
      split <;> simp_all
    exact ⟨rawFields, hsame.trans h, fun _ => Iff.rfl⟩

end Body

end Ulpf.ParserRuntime
