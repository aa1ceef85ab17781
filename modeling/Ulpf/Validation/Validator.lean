import Ulpf.Lib.Dict
import Ulpf.Lib.Outcome
import Ulpf.Python.Datetime

/-!
The validation engine's own interpreter of a parser spec: the part of
`validate_event` that maps the extracted raw fields to canonical keys and keeps
the others as unmapped, and its loop in closed form.
-/

namespace Ulpf.Validation

open Ulpf.Lib
open Ulpf.Python

/-- The entry of a field under `fields`; any of its members may be missing. -/
structure FieldDef where
  type : Option String
  mapTo : Option String
  enum : Option (Dict String String)
  transformations : Option (List String)
  deriving DecidableEq

/-- Fields of an event, as one of the profiler's parsers extracts them. -/
abbrev Extracted := Dict String PyVal

section Values

variable (i : Interpreter)

/-- The enum table, which only sees the value as it was extracted. -/
def applyEnum (f : FieldDef) : PyVal → PyVal
  | .str s => .str ((f.enum.bind fun table => table.get? s).getD s)
  | val => val

/-- One transformation; the others of the whitelist are passed over. -/
def applyTransform (op s : String) : String :=
  match op with
  | "trim" => strip s
  | "lowercase" => lower i.unicode s
  | "uppercase" => upper i.unicode s
  | _ => s

/-- The transformations of a field with declared types. -/
def applyTransforms (ops : List String) : PyVal → PyVal
  | .str s => .str (ops.foldl (fun acc op => applyTransform i op acc) s)
  | val => val

/-- `int(val)` -/
def toInt : PyVal → Except PyError ℤ
  | .str s => (parseInt i.unicode s).elim (.error .valueError) .ok
  | .bool b => .ok (if b then 1 else 0)
  | .num (.int n) => .ok n
  | .num (.float .nan) => .error .valueError
  | .num (.float x) => x.truncate?.elim (.error .overflowError) .ok
  | _ => .error .typeError

/-- `float(val)` -/
def toFloat : PyVal → Except PyError Binary64
  | .str s => (parseFloat i.unicode s).elim (.error .valueError) .ok
  | .bool b => .ok (Binary64.ofInt (if b then 1 else 0))
  | .num (.int n) =>
      match Binary64.ofInt n with
      | .inf _ => .error .overflowError
      | x => .ok x
  | .num (.float x) => .ok x
  | _ => .error .typeError

/-- `try: val = … except (ValueError, TypeError): pass` -/
def orKeep {α : Type} (val : PyVal) (wrap : α → PyVal) :
    Except PyError α → Except PyError PyVal
  | .ok x => .ok (wrap x)
  | .error .valueError | .error .typeError => .ok val
  | .error err => .error err

def timestampFormats : List String :=
  ["%Y-%m-%dT%H:%M:%SZ", "%Y-%m-%dT%H:%M:%S", "%Y-%m-%d %H:%M:%S", "%d/%b/%Y:%H:%M:%S %z",
    "%b %d %H:%M:%S"]

/-- The loop over the formats; only a `ValueError` goes on to the next one. -/
def toTimestamp (val : PyVal) : Except PyError PyVal :=
  let s := strip (str i.unicode val)
  match timestampFormats.findSome? fun format => Datetime.strptime i.unicode s format with
  | some dt => (Datetime.toUTC dt).map fun sec => .str (Datetime.strftime i.padsYear sec)
  | none => .ok val

/-- A value is cast to the type of its field, or stays as it is. -/
def cast (f : FieldDef) (val : PyVal) : Except PyError PyVal :=
  if f.type = some "integer" then orKeep val PyVal.int (toInt i val)
  else if f.type = some "float" then orKeep val PyVal.float (toFloat i val)
  else if f.type = some "timestamp" ∨ "timestamp" ∈ f.transformations.getD [] then
    toTimestamp i val
  else .ok val

/-- A value after the enum table, the transformations and the cast. -/
def convert (f : FieldDef) (val : PyVal) : Except PyError PyVal :=
  cast i f (applyTransforms i (f.transformations.getD []) (applyEnum f val))

end Values

/-- The canonical path of a field, which is its own name by default. -/
def canonicalKey (field : String × FieldDef) : String := field.2.mapTo.getD field.1

/-- The mapped values, and the raw fields they came from. -/
structure Mapping where
  mappedCanonical : Dict String PyVal
  mappedRawKeys : List String

section Loop

variable (i : Interpreter) (extractedRaw : Extracted)

/-- One round of the loop over the fields. -/
def mapField (s : Mapping) (field : String × FieldDef) : Except PyError Mapping :=
  match extractedRaw.get? field.1 with
  | none => .ok s
  | some raw => do
      let val ← convert i field.2 raw
      return ⟨s.mappedCanonical.set (canonicalKey field) val, field.1 :: s.mappedRawKeys⟩

/-- The loop over the fields in the order of the document. -/
def mapFields (fields : Dict String FieldDef) : Except PyError Mapping :=
  fields.entries.foldlM (mapField i extractedRaw) ⟨Dict.empty, []⟩

/-- `mapped_canonical` and `unmapped_fields` of an event. -/
def mapEvent (fields : Dict String FieldDef) : Except PyError (Dict String PyVal × Extracted) := do
  let s ← mapFields i extractedRaw fields
  return (s.mappedCanonical, extractedRaw.filterKeys fun k => !s.mappedRawKeys.contains k)

end Loop

section ClosedForm

variable (i : Interpreter) (extractedRaw : Extracted)

/-- What a field assigns, if its raw field is there and its conversion returns. -/
def written (field : String × FieldDef) : Option (String × PyVal) :=
  (extractedRaw.get? field.1).bind fun raw =>
    (convert i field.2 raw).toOption.map fun val => (canonicalKey field, val)

/-- The mapped canonical keys of an event on which no conversion raises. -/
def mappedOf (fields : Dict String FieldDef) : Dict String PyVal :=
  Dict.ofList (fields.entries.filterMap (written i extractedRaw))

/-- The raw fields that no field names. -/
def unmappedOf (fields : Dict String FieldDef) : Extracted :=
  extractedRaw.filterKeys fun k => !fields.keys.contains k

/-- No conversion of a raw field raises an exception. -/
def Converts (fields : List (String × FieldDef)) : Prop :=
  ∀ field ∈ fields, ∀ raw, extractedRaw.get? field.1 = some raw → Returns (convert i field.2 raw)

variable {i extractedRaw}

theorem written_eq_some_iff {field : String × FieldDef} {path : String} {val : PyVal} :
    written i extractedRaw field = some (path, val) ↔ canonicalKey field = path ∧
      ∃ raw, extractedRaw.get? field.1 = some raw ∧ convert i field.2 raw = .ok val := by
  rw [written, Option.bind_eq_some_iff]
  constructor
  · rintro ⟨raw, hraw, hval⟩
    obtain ⟨val', hconvert, hpair⟩ := Option.map_eq_some_iff.mp hval
    obtain ⟨hpath, rfl⟩ := Prod.mk.inj hpair
    exact ⟨hpath, raw, hraw, toOption_eq_some_iff.mp hconvert⟩
  · rintro ⟨rfl, raw, hraw, hconvert⟩
    refine ⟨raw, hraw, ?_⟩
    rw [hconvert]
    rfl

variable (i extractedRaw) in
theorem mapField_eq (s : Mapping) (field : String × FieldDef)
    (hconverts : Converts i extractedRaw [field]) :
    ∃ t, mapField i extractedRaw s field = .ok t ∧
      t.mappedCanonical = s.mappedCanonical.update (written i extractedRaw field).toList ∧
      ∀ k, k ∈ t.mappedRawKeys ↔ k ∈ s.mappedRawKeys ∨ k ∈ extractedRaw.keys ∧ k = field.1 := by
  rw [mapField, written]
  cases hraw : extractedRaw.get? field.1 with
  | none =>
      refine ⟨s, rfl, rfl, fun k => ⟨Or.inl, ?_⟩⟩
      rintro (hmem | ⟨hkey, rfl⟩)
      · exact hmem
      · rw [Dict.mem_keys_iff, hraw] at hkey
        cases hkey
  | some raw =>
      obtain ⟨val, hval⟩ := hconverts field List.mem_cons_self raw hraw
      have hkey : field.1 ∈ extractedRaw.keys := by
        rw [Dict.mem_keys_iff, hraw]
        rfl
      refine ⟨_, by simp only [hval, ok_bind]; rfl, by simp [hval, Except.toOption], fun k => ?_⟩
      rw [List.mem_cons]
      constructor
      · rintro (rfl | hmem)
        · exact Or.inr ⟨hkey, rfl⟩
        · exact Or.inl hmem
      · rintro (hmem | ⟨-, rfl⟩)
        · exact Or.inr hmem
        · exact Or.inl rfl

variable (i extractedRaw) in
/-- The whole loop: the assignments of its rounds one after the other. -/
theorem foldlM_mapField_eq (fields : List (String × FieldDef)) (s : Mapping)
    (hconverts : Converts i extractedRaw fields) :
    ∃ t, fields.foldlM (mapField i extractedRaw) s = .ok t ∧
      t.mappedCanonical = s.mappedCanonical.update (fields.filterMap (written i extractedRaw)) ∧
      ∀ k, k ∈ t.mappedRawKeys ↔
        k ∈ s.mappedRawKeys ∨ k ∈ extractedRaw.keys ∧ k ∈ fields.map Prod.fst := by
  induction fields generalizing s with
  | nil => exact ⟨s, rfl, rfl, by simp⟩
  | cons field fields ih =>
      obtain ⟨t, ht, hcanonical, hkeys⟩ := mapField_eq i extractedRaw s field
        fun f hf => hconverts f (by simp_all)
      obtain ⟨t', ht', hcanonical', hkeys'⟩ := ih t
        fun f hf => hconverts f (List.mem_cons_of_mem _ hf)
      have happend : (field :: fields).filterMap (written i extractedRaw) =
          (written i extractedRaw field).toList ++ fields.filterMap (written i extractedRaw) := by
        rw [List.filterMap_cons]
        cases written i extractedRaw field <;> rfl
      refine ⟨t', ?_, ?_, fun k => ?_⟩
      · rw [List.foldlM_cons, ht, ok_bind, ht']
      · rw [hcanonical', hcanonical, happend, Dict.update_append]
      · rw [hkeys', hkeys, List.map_cons, List.mem_cons]
        tauto

theorem returns_mapField_iff {s : Mapping} {field : String × FieldDef} :
    Returns (mapField i extractedRaw s field) ↔
      ∀ raw, extractedRaw.get? field.1 = some raw → Returns (convert i field.2 raw) := by
  rw [mapField]
  cases extractedRaw.get? field.1 with
  | none => simp
  | some raw =>
      simp only [Option.some.injEq, forall_eq']
      exact returns_map_iff

/-- An event is mapped when no conversion raises: the assignments of its fields,
and the raw fields that no field names. -/
theorem mapEvent_eq_ok_iff {fields : Dict String FieldDef}
    {result : Dict String PyVal × Extracted} :
    mapEvent i extractedRaw fields = .ok result ↔ Converts i extractedRaw fields.entries ∧
      result = (mappedOf i extractedRaw fields, unmappedOf extractedRaw fields) := by
  have hmapped : Converts i extractedRaw fields.entries → mapEvent i extractedRaw fields =
      .ok (mappedOf i extractedRaw fields, unmappedOf extractedRaw fields) := by
    intro hconverts
    obtain ⟨t, ht, hcanonical, hkeys⟩ := foldlM_mapField_eq i extractedRaw fields.entries
      ⟨Dict.empty, []⟩ hconverts
    have hunmapped : (extractedRaw.filterKeys fun k => !t.mappedRawKeys.contains k) =
        unmappedOf extractedRaw fields := by
      apply Dict.ext_entries
      apply List.filter_congr
      intro entry hentry
      have hkey : entry.1 ∈ extractedRaw.keys := List.mem_map_of_mem hentry
      have hmem : entry.1 ∈ t.mappedRawKeys ↔ entry.1 ∈ fields.keys := by
        rw [hkeys]
        exact ⟨fun h => (h.resolve_left List.not_mem_nil).2, fun h => Or.inr ⟨hkey, h⟩⟩
      simp [hmem]
    rw [mapEvent, mapFields, ht, ok_bind, hcanonical, hunmapped]
    rfl
  constructor
  · intro h
    have hconverts : Converts i extractedRaw fields.entries := by
      obtain ⟨t, ht, -⟩ := bind_eq_ok_iff.mp h
      have hreturns : Returns (fields.entries.foldlM (mapField i extractedRaw) ⟨Dict.empty, []⟩) :=
        ⟨t, ht⟩
      refine (returns_foldlM_iff ?_ _).mp hreturns
      intro s field _
      exact returns_mapField_iff
    rw [hmapped hconverts] at h
    exact ⟨hconverts, (Except.ok.inj h).symm⟩
  · rintro ⟨hconverts, rfl⟩
    exact hmapped hconverts

end ClosedForm

end Ulpf.Validation
