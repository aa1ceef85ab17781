import Ulpf.ParserRuntime.LineageDocuments

/-!
What the enum table of a field does to its values: which of them leave the coercion with
another type than the declared one, and which change when the table is consulted again.
-/

namespace Ulpf.ParserRuntime

open Ulpf.Lib
open Ulpf.Go

section Selection

variable {u : Unicode} {table : Dict String String} {entries : List (String × String)}
  {entry : String × String} {val : Value}

/-- The table gives an entry for a text: the one with this key, or else one whose key
differs only in case. -/
def Selects (u : Unicode) (table : Dict String String) (s : String) (entry : String × String) :
    Prop :=
  entry ∈ table.entries ∧
    (entry.1 = s ∨ s ∉ table.keys ∧ toLower u entry.1 = toLower u s)

/-- The image of a value under a table; a value that no key matches is its own image. -/
def IsImage (u : Unicode) (table : Dict String String) (val image : Value) : Prop :=
  (∃ entry, Selects u table (sprint val) entry ∧ image = .str entry.2) ∨
    (∀ entry, ¬ Selects u table (sprint val) entry) ∧ image = val

theorem isImage_transformEnumMap (hperm : entries.Perm table.entries) (val : Value) :
    IsImage u table val (transformEnumMap u table entries val) := by
  rw [transformEnumMap]
  cases hget : table.get? (sprint val) with
  | some target =>
      exact .inl ⟨(sprint val, target), ⟨Dict.get?_eq_some_iff.mp hget, .inl rfl⟩, rfl⟩
  | none =>
      have hkey : sprint val ∉ table.keys := by
        rw [Dict.mem_keys_iff, hget]
        simp
      cases hfind : entries.find? fun entry => toLower u entry.1 = toLower u (sprint val) with
      | some entry =>
          have hmem := hperm.mem_iff.mp (List.mem_of_find?_eq_some hfind)
          have hlower := List.find?_some hfind
          exact .inl ⟨entry, ⟨hmem, .inr ⟨hkey, by simpa using hlower⟩⟩, rfl⟩
      | none =>
          refine .inr ⟨?_, rfl⟩
          rintro entry ⟨hmem, hexact | ⟨-, hlower⟩⟩
          · apply hkey
            rw [← hexact]
            exact List.mem_map_of_mem hmem
          · have hnot := List.find?_eq_none.mp hfind entry (hperm.mem_iff.mpr hmem)
            simp [hlower] at hnot

/-- Every entry that the table gives comes first in some order of the table. -/
theorem exists_order_of_selects (h : Selects u table (sprint val) entry) :
    ∃ entries, entries.Perm table.entries ∧
      transformEnumMap u table entries val = .str entry.2 := by
  obtain ⟨hmem, hexact | ⟨hkey, hlower⟩⟩ := h
  · refine ⟨table.entries, .refl _, ?_⟩
    have hget : table.get? (sprint val) = some entry.2 := by
      rw [← hexact]
      exact Dict.get?_eq_some_iff.mpr hmem
    rw [transformEnumMap, hget]
  · refine ⟨entry :: table.entries.erase entry, (List.perm_cons_erase hmem).symm, ?_⟩
    have hget : table.get? (sprint val) = none := by
      rw [Dict.mem_keys_iff] at hkey
      simpa using hkey
    rw [transformEnumMap, hget]
    simp [hlower]

theorem sprint_str (s : String) : sprint (.str s) = s := by
  rw [sprint, printed, String.ofList_toList]

end Selection

section Types

/-- The Go type of the values of a declared type. -/
def goType (type : String) : String :=
  match type with
  | "integer" => "int64"
  | "float" => "float64"
  | "boolean" => "bool"
  | _ => "string"

/-- A value that a field with an enum table passes on as it is, and that is no string. -/
def Mistyped (u : Unicode) (fieldSpec : FieldSpec) (val : Value) : Prop :=
  fieldSpec.type = "string" ∧ fieldSpec.enum.entries ≠ [] ∧ typeName val ≠ "string" ∧
    ∀ entry, ¬ Selects u fieldSpec.enum (sprint val) entry

variable {p : Platform} {fieldSpec : FieldSpec} {entries : List (String × String)}
  {val typedVal : Value}

theorem typeName_of_map {α : Type} {wrap : α → Value} {name : String}
    (hwrap : ∀ x, typeName (wrap x) = name) {result : Except CoercionError α}
    (h : result.map wrap = .ok typedVal) : typeName typedVal = name := by
  obtain ⟨x, -, rfl⟩ := map_eq_ok_iff.mp h
  exact hwrap x

theorem typeName_of_coerceType (htype : fieldSpec.type ∈ validFieldTypes)
    (hperm : entries.Perm fieldSpec.enum.entries)
    (h : coerceType p fieldSpec entries val = .ok typedVal) :
    typeName typedVal = goType fieldSpec.type ↔ ¬ Mistyped p.unicode fieldSpec val := by
  simp only [validFieldTypes, List.mem_cons, List.not_mem_nil, or_false] at htype
  rcases htype with htype | htype | htype | htype | htype | htype <;>
    simp only [coerceType, htype] at h
  · rw [Mistyped, htype]
    split at h
    · rename_i hempty
      cases h
      have henum : fieldSpec.enum.entries = [] := List.isEmpty_iff.mp hempty
      simp [henum, typeName, goType]
    · rename_i hsome
      have henum : fieldSpec.enum.entries ≠ [] := fun hnil => hsome (List.isEmpty_iff.mpr hnil)
      cases h
      rcases isImage_transformEnumMap (u := p.unicode) hperm val with
        ⟨entry, hselects, himage⟩ | ⟨hnone, himage⟩
      · rw [himage]
        refine iff_of_true rfl ?_
        rintro ⟨-, -, -, hnone⟩
        exact hnone entry hselects
      · rw [himage]
        simp [goType, henum, hnone]
  all_goals
    have hstring : ¬ Mistyped p.unicode fieldSpec val := by
      intro hmistyped
      rw [Mistyped, htype] at hmistyped
      exact absurd hmistyped.1 (by decide)
    rw [htype]
    exact iff_of_true (typeName_of_map (fun _ => rfl) h) hstring

end Types

section Extraction

variable (p : Platform) (e : Enumeration) (raw : List UInt8) (spec : ParserSpec)

/-- A value after the transformations of a field. -/
def transformed (field : String × FieldSpec) (val : Value) : Value :=
  applyTransformations p field.2 (enumOrders e field.1 field.2) 0 field.2.transformations val

/-- Every extracted value has the type of the field that has written it. -/
def WellTyped : Prop :=
  ∀ res, parse p e raw spec = .ok res → ∀ path v, res.extracted.get? path = some v →
    Nonempty (Emission p e raw spec path) ∧ ∀ em : Emission p e raw spec path,
      em.typedVal = v ∧ typeName v = goType em.field.2.type

/-- No field that is the last to write under its path passes a value on. -/
def PassesNothingOn : Prop :=
  raw ≠ [] → ∀ path, ∀ em : Emission p e raw spec path,
    ¬ Mistyped p.unicode em.field.2 (transformed p e em.field em.val)

variable {p e raw spec}

theorem enumOrders_perm (srcField : String) (fieldSpec : FieldSpec) (use : ℕ) :
    (enumOrders e srcField fieldSpec use).Perm fieldSpec.enum.entries :=
  e.entries_perm _ _

theorem Emission.typeName_iff (hspec : Accepted spec) {path : String}
    (em : Emission p e raw spec path) : typeName em.typedVal = goType em.field.2.type ↔
      ¬ Mistyped p.unicode em.field.2 (transformed p e em.field em.val) :=
  typeName_of_coerceType (hspec.fields em.field (mem_fields_of_lastWriter em.writer)).typed
    (enumOrders_perm _ _ _) em.writer.coerces

/-- The extracted values are those of the fields that write last. -/
theorem exists_emission {res : ParseResult} (hparse : parse p e raw spec = .ok res)
    {path : String} {v : Value} (h : res.extracted.get? path = some v) :
    Nonempty (Emission p e raw spec path) := by
  obtain ⟨-, rawFields, hbody, rfl⟩ := parse_eq_ok_iff.mp hparse
  obtain ⟨before, field, after, hfields, hpath, ⟨k, val, hresolve, hcoerce⟩, hlast⟩ :=
    get?_extracted_eq_some_iff.mp h
  refine ⟨⟨rawFields, field, k, val, v, hbody, ⟨hresolve, hcoerce, before, after, hfields, ?_⟩,
    hpath⟩⟩
  intro later hlater hsame
  exact hlast later hlater (hsame.trans hpath)

theorem Emission.get?_extracted {res : ParseResult} (hparse : parse p e raw spec = .ok res)
    {path : String} (em : Emission p e raw spec path) :
    res.extracted.get? path = some em.typedVal := by
  obtain ⟨-, rawFields, hbody, rfl⟩ := parse_eq_ok_iff.mp hparse
  have hfields : em.rawFields = rawFields := Except.ok.inj (em.body.symm.trans hbody)
  have hget := (get?_of_lastWriter (ofBytes raw) em.writer).1
  rwa [em.mapped, hfields] at hget

/-- Extraction is well typed just when no value is passed on that is no string and matches
no key of the table. -/
theorem wellTyped_iff (p : Platform) (e : Enumeration) (raw : List UInt8) (spec : ValidSpec) :
    WellTyped p e raw spec.1 ↔ PassesNothingOn p e raw spec.1 := by
  constructor
  · intro htyped hraw path em
    have hparse : parse p e raw spec.1 = .ok (mapRawFields p e spec.1 (ofBytes raw) em.rawFields) :=
      parse_eq_ok_iff.mpr ⟨hraw, em.rawFields, em.body, rfl⟩
    have hget := em.get?_extracted hparse
    obtain ⟨-, htype⟩ := (htyped _ hparse path em.typedVal hget).2 em
    exact (em.typeName_iff spec.2).mp htype
  · intro hpasses res hparse path v hget
    obtain ⟨hraw, -⟩ := parse_eq_ok_iff.mp hparse
    refine ⟨exists_emission hparse hget, fun em => ?_⟩
    have hsame : em.typedVal = v := by
      rw [em.get?_extracted hparse] at hget
      exact Option.some.inj hget
    rw [← hsame]
    exact ⟨rfl, (em.typeName_iff spec.2).mpr (hpasses hraw path em)⟩

/-- A string field with an enum table that knows one level. -/
def levelSpec : ValidSpec :=
  ⟨plainSpec "json" [("level", ⟨"string", "alert.severity", Dict.ofList [("1", "low")], []⟩)],
    (validateParserSpec_eq_ok_iff _).mp (by decide +kernel)⟩

/-- A level that the table does not know stays a number. -/
theorem not_wellTyped_level :
    ¬ ∀ (p : Platform) (e : Enumeration) (raw : List UInt8) (spec : ValidSpec),
      WellTyped p e raw spec.1 := by
  intro hall
  have hbody : parseBody Enumeration.standing (ofBytes (asciiBytes "\x7b\"level\":5\x7d"))
      levelSpec.1 = .ok (Dict.ofList [("level", .num (.float64 (.finite false 5)))]) := by
    decide +kernel
  have hparse : parse Platform.plain Enumeration.standing (asciiBytes "\x7b\"level\":5\x7d")
      levelSpec.1 = .ok (mapRawFields Platform.plain Enumeration.standing levelSpec.1
        (ofBytes (asciiBytes "\x7b\"level\":5\x7d"))
        (Dict.ofList [("level", .num (.float64 (.finite false 5)))])) :=
    parse_eq_ok_iff.mpr ⟨by decide, _, hbody, rfl⟩
  obtain ⟨⟨em⟩, htyped⟩ := hall Platform.plain Enumeration.standing _ levelSpec _ hparse
    "alert.severity" (.num (.float64 (.finite false 5))) (by decide +kernel)
  have hfield := List.mem_singleton.mp (mem_fields_of_lastWriter em.writer)
  have htype := (htyped em).2
  rw [hfield] at htype
  revert htype
  decide

end Extraction

section Repetition

/-- A field whose transformations end with one more look into its enum table. -/
def FieldSpec.withEnumMap (fieldSpec : FieldSpec) : FieldSpec :=
  { fieldSpec with transformations := fieldSpec.transformations ++ ["enum_map"] }

variable (p : Platform) (name : String) (fieldSpec : FieldSpec) (val : Value)

/-- The additional look changes nothing that `Parse` makes of a value, and gives the image of
the transformed value. -/
def AppliesEnumOnce : Prop :=
  ∀ (e : Enumeration) (rawFields : RawFields) (k : String),
    resolve p e rawFields name = some (k, val) →
      ∀ v, Makes p e rawFields (name, fieldSpec.withEnumMap) k v →
        Makes p e rawFields (name, fieldSpec) k v ∧
          IsImage p.unicode fieldSpec.enum (transformed p e (name, fieldSpec) val) v

/-- An entry that the table gives for the transformed value has a value for which the table
gives no other one. -/
def ChainFree : Prop :=
  ∀ (e : Enumeration) (entry next : String × String),
    Selects p.unicode fieldSpec.enum (sprint (transformed p e (name, fieldSpec) val)) entry →
      Selects p.unicode fieldSpec.enum entry.2 next → next.2 = entry.2

variable {p name fieldSpec val}

theorem applyTransformations_append (orders : ℕ → List (String × String)) (use : ℕ)
    (ops later : List String) (v : Value) :
    applyTransformations p fieldSpec orders use (ops ++ later) v =
      applyTransformations p fieldSpec orders (use + ops.length) later
        (applyTransformations p fieldSpec orders use ops v) := by
  induction ops generalizing use v with
  | nil => rfl
  | cons op ops ih =>
      have huse : use + (op :: ops).length = use + 1 + ops.length := by
        rw [List.length_cons]
        omega
      rw [List.cons_append, applyTransformations, applyTransformations, ih, huse]

theorem applyTransformations_congr {orders orders' : ℕ → List (String × String)} (use : ℕ)
    (ops : List String) (h : ∀ i < ops.length, orders (use + i) = orders' (use + i)) (v : Value) :
    applyTransformations p fieldSpec orders use ops v =
      applyTransformations p fieldSpec orders' use ops v := by
  induction ops generalizing use v with
  | nil => rfl
  | cons op ops ih =>
      have hfirst : orders use = orders' use := h 0 (Nat.succ_pos _)
      have hlater : ∀ i < ops.length, orders (use + 1 + i) = orders' (use + 1 + i) := by
        intro i hi
        have hnext := h (i + 1) (Nat.succ_lt_succ hi)
        rwa [show use + (i + 1) = use + 1 + i by omega] at hnext
      rw [applyTransformations, applyTransformations, hfirst, ih (use + 1) hlater]

theorem applyTransformations_withEnumMap (orders : ℕ → List (String × String)) (use : ℕ)
    (ops : List String) (v : Value) :
    applyTransformations p fieldSpec.withEnumMap orders use ops v =
      applyTransformations p fieldSpec orders use ops v := by
  induction ops generalizing use v with
  | nil => rfl
  | cons op ops ih =>
      rw [applyTransformations, applyTransformations, ih]
      rfl

variable {e : Enumeration}

theorem coerce_of_table (htype : fieldSpec.type = "string") (henum : fieldSpec.enum.entries ≠ [])
    (orders : ℕ → List (String × String)) : coerce p fieldSpec orders val =
      .ok (transformEnumMap p.unicode fieldSpec.enum (orders fieldSpec.transformations.length)
        (applyTransformations p fieldSpec orders 0 fieldSpec.transformations val)) := by
  rw [coerce, coerceType, htype]
  simp [henum]

theorem coerce_withEnumMap (htype : fieldSpec.type = "string")
    (henum : fieldSpec.enum.entries ≠ []) (orders : ℕ → List (String × String)) :
    coerce p fieldSpec.withEnumMap orders val =
      .ok (transformEnumMap p.unicode fieldSpec.enum (orders (fieldSpec.transformations.length + 1))
        (transformEnumMap p.unicode fieldSpec.enum (orders fieldSpec.transformations.length)
          (applyTransformations p fieldSpec orders 0 fieldSpec.transformations val))) := by
  have hlength : fieldSpec.withEnumMap.transformations.length =
      fieldSpec.transformations.length + 1 := by simp [FieldSpec.withEnumMap]
  have hops : applyTransformations p fieldSpec.withEnumMap orders 0
      fieldSpec.withEnumMap.transformations val =
        applyTransformations p fieldSpec orders 0 (fieldSpec.transformations ++ ["enum_map"]) val :=
    applyTransformations_withEnumMap orders 0 _ val
  rw [@coerce_of_table p fieldSpec.withEnumMap val htype henum, hlength, hops,
    applyTransformations_append]
  simp [applyTransformations, applyTransformation, henum, FieldSpec.withEnumMap]

/-- The orders of a run with two uses of one table replaced. -/
def reorder (e : Enumeration) (name : String) (use : ℕ) (first second : List (String × String)) :
    Enumeration
  | .enum field use' =>
      if field = name ∧ use' = use then KeyOrder.exactly (first.map Prod.fst)
      else if field = name ∧ use' = use + 1 then KeyOrder.exactly (second.map Prod.fst)
      else e (.enum field use')
  | site => e site

theorem enumOrders_exactly {site : Site} {target : List (String × String)}
    (horder : e site = KeyOrder.exactly (target.map Prod.fst))
    (hperm : target.Perm fieldSpec.enum.entries) : e.entries site fieldSpec.enum = target := by
  have hkeys : (target.map Prod.fst).Perm fieldSpec.enum.keys := hperm.map Prod.fst
  rw [Enumeration.entries, horder, KeyOrder.exactly]
  simp only [if_pos hkeys]
  exact arrange_keys fieldSpec.enum.nodup fun entry hentry => hperm.mem_iff.mp hentry

variable (p name val) in
theorem exists_reorder (e : Enumeration) {first second : List (String × String)}
    (hfirst : first.Perm fieldSpec.enum.entries) (hsecond : second.Perm fieldSpec.enum.entries) :
    ∃ e', transformed p e' (name, fieldSpec) val = transformed p e (name, fieldSpec) val ∧
      enumOrders e' name fieldSpec fieldSpec.transformations.length = first ∧
      enumOrders e' name fieldSpec (fieldSpec.transformations.length + 1) = second := by
  refine ⟨reorder e name fieldSpec.transformations.length first second, ?_, ?_, ?_⟩
  · apply applyTransformations_congr
    intro i (hi : i < fieldSpec.transformations.length)
    have huse : 0 + i ≠ fieldSpec.transformations.length := by omega
    have huse' : 0 + i ≠ fieldSpec.transformations.length + 1 := by omega
    simp only [enumOrders, Enumeration.entries, reorder, huse, huse', and_false, if_false]
  · exact enumOrders_exactly (by simp [reorder]) hfirst
  · exact enumOrders_exactly (by simp [reorder]) hsecond

theorem image_of_chainFree (h : ChainFree p name fieldSpec val) (e : Enumeration)
    {image second : Value}
    (himage : IsImage p.unicode fieldSpec.enum (transformed p e (name, fieldSpec) val) image)
    (hsecond : IsImage p.unicode fieldSpec.enum image second) : second = image := by
  rcases hsecond with ⟨next, hnext, rfl⟩ | ⟨-, rfl⟩
  · rcases himage with ⟨entry, hentry, rfl⟩ | ⟨hnone, rfl⟩
    · rw [sprint_str] at hnext
      rw [h e entry next hentry hnext]
    · exact absurd hnext (hnone next)
  · rfl

theorem resolve_self (e : Enumeration) (name : String) (val : Value) :
    resolve p e (Dict.ofList [(name, val)]) name = some (name, val) := by
  have hget : (Dict.ofList [(name, val)]).get? name = some val := by
    simp [Dict.get?_ofList, lookup_cons]
  rw [resolve, hget]

theorem value_of_resolve {e : Enumeration} {rawFields : RawFields} {k k' : String}
    {val val' : Value} (h : resolve p e rawFields name = some (k, val))
    (h' : resolve p e rawFields name = some (k', val')) : val = val' :=
  (Prod.mk.inj (Option.some.inj (h.symm.trans h'))).2

theorem transformed_eq (e : Enumeration) :
    transformed p e (name, fieldSpec) val =
      applyTransformations p fieldSpec (enumOrders e name fieldSpec) 0 fieldSpec.transformations
        val :=
  rfl

/-- A table is applied once just when its values do not chain. -/
theorem appliesEnumOnce_iff (p : Platform) (name : String) (fieldSpec : FieldSpec) (val : Value)
    (htype : fieldSpec.type = "string") (henum : fieldSpec.enum.entries ≠ []) :
    AppliesEnumOnce p name fieldSpec val ↔ ChainFree p name fieldSpec val := by
  constructor
  · intro honce e entry next hentry hnext
    obtain ⟨first, hfirst, hvalue⟩ := exists_order_of_selects hentry
    have hnext' : Selects p.unicode fieldSpec.enum (sprint (.str entry.2)) next := by
      rwa [sprint_str]
    obtain ⟨second, hsecond, hvalue'⟩ := exists_order_of_selects hnext'
    obtain ⟨e', hsame, horder, horder'⟩ := exists_reorder p name val e hfirst hsecond
    have hmakes : Makes p e' (Dict.ofList [(name, val)]) (name, fieldSpec.withEnumMap) name
        (.str next.2) := by
      refine ⟨val, resolve_self e' name val, ?_⟩
      show coerce p fieldSpec.withEnumMap (enumOrders e' name fieldSpec) val = _
      rw [coerce_withEnumMap htype henum, ← transformed_eq, hsame, horder, horder', hvalue, hvalue']
    obtain ⟨⟨val', hresolve, hcoerce⟩, -⟩ := honce e' _ _ (resolve_self e' name val) _ hmakes
    obtain rfl : val = val' := value_of_resolve (resolve_self e' name val) hresolve
    have hplain : coerce p fieldSpec (enumOrders e' name fieldSpec) val = .ok (.str next.2) :=
      hcoerce
    rw [coerce_of_table htype henum, ← transformed_eq, hsame, horder, hvalue] at hplain
    exact (Json.str.inj (Except.ok.inj hplain)).symm
  · intro hfree e rawFields k hresolve v hmakes
    obtain ⟨val', hresolve', hcoerce⟩ := hmakes
    obtain rfl : val = val' := value_of_resolve hresolve hresolve'
    have htwice : coerce p fieldSpec.withEnumMap (enumOrders e name fieldSpec) val = .ok v :=
      hcoerce
    rw [coerce_withEnumMap htype henum, ← transformed_eq] at htwice
    have himage := isImage_transformEnumMap (u := p.unicode)
      (enumOrders_perm (e := e) name fieldSpec fieldSpec.transformations.length)
      (transformed p e (name, fieldSpec) val)
    have hsecond := isImage_transformEnumMap (u := p.unicode)
      (enumOrders_perm (e := e) name fieldSpec (fieldSpec.transformations.length + 1))
      (transformEnumMap p.unicode fieldSpec.enum
        (enumOrders e name fieldSpec fieldSpec.transformations.length)
        (transformed p e (name, fieldSpec) val))
    rw [image_of_chainFree hfree e himage hsecond] at htwice
    cases htwice
    refine ⟨⟨val, hresolve, ?_⟩, himage⟩
    show coerce p fieldSpec (enumOrders e name fieldSpec) val = _
    rw [coerce_of_table htype henum, ← transformed_eq]

/-- A table that maps a level to a key of its own. -/
def chainedField : FieldSpec :=
  ⟨"string", "alert.severity", Dict.ofList [("1", "2"), ("2", "3")], []⟩

theorem appliesEnumOnce_iff_chained :
    AppliesEnumOnce Platform.plain "level" chainedField (.str "2") ↔
      ChainFree Platform.plain "level" chainedField (.str "2") :=
  appliesEnumOnce_iff Platform.plain "level" chainedField (.str "2") (by decide) (by decide)

/-- Mapped twice, level 1 is level 3. -/
theorem not_appliesEnumOnce_chained :
    ¬ ∀ (p : Platform) (name : String) (fieldSpec : FieldSpec) (val : Value),
      fieldSpec.type = "string" → fieldSpec.enum.entries ≠ [] →
        AppliesEnumOnce p name fieldSpec val := by
  intro hall
  have honce := hall Platform.plain "level" chainedField (.str "1") (by decide) (by decide)
  have hmakes : Makes Platform.plain Enumeration.standing (Dict.ofList [("level", .str "1")])
      ("level", chainedField.withEnumMap) "level" (.str "3") :=
    ⟨.str "1", by decide +kernel, by decide +kernel⟩
  obtain ⟨⟨val, hresolve, hcoerce⟩, -⟩ :=
    honce Enumeration.standing _ _ (resolve_self _ "level" (.str "1")) _ hmakes
  obtain rfl : .str "1" = val :=
    value_of_resolve (resolve_self _ "level" (.str "1")) hresolve
  revert hcoerce
  decide +kernel

end Repetition

end Ulpf.ParserRuntime
