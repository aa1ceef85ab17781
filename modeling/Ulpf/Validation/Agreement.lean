import Ulpf.ParserRuntime.OrderIndependence
import Ulpf.Validation.Validator
import Mathlib.Data.Option.Basic

/-!
The Go runtime and the validation engine on the same raw fields: they agree
exactly when their conversions do, field by field, and no raw field is found
under a name in another case.
-/

namespace Ulpf.Validation

open Ulpf.Lib
open Ulpf.Go
open Ulpf.Python
open Ulpf.ParserRuntime

/-- The entry of a field as the Go runtime decodes it: a missing member is zero. -/
def FieldDef.toFieldSpec (f : FieldDef) : FieldSpec :=
  ⟨f.type.getD "", f.mapTo.getD "", f.enum.getD Dict.empty, f.transformations.getD []⟩

/-- A parser spec in the eyes of both runtimes; the Go runtime accepts it. -/
structure SharedSpec where
  fields : Dict String FieldDef
  spec : ValidSpec
  reads : spec.1.fields = fields.mapValues FieldDef.toFieldSpec

/-- A value of Go and one of Python that mean the same. -/
inductive Corresponds : Value → PyVal → Prop
  | str (s : String) : Corresponds (.str s) (.str s)
  | integer (n : ℤ) : Corresponds (.int64 n) (PyVal.int n)
  | float (x : Binary64) : Corresponds (.float64 x) (PyVal.float x)
  | boolean (b : Bool) : Corresponds (.bool b) (.bool b)

/-- Texts as the raw fields of the Go runtime. -/
def goFields (texts : Dict String String) : RawFields := texts.mapValues fun s => .str s

/-- Texts as the fields the validation engine has extracted. -/
def pyFields (texts : Dict String String) : Extracted := texts.mapValues fun s => .str s

/-- A field of the validator as the Go runtime has it. -/
def goField (field : String × FieldDef) : String × FieldSpec := (field.1, field.2.toFieldSpec)

section Agreement

variable (p : Platform) (i : Interpreter) (shared : SharedSpec) (raw : List UInt8)
  (texts : Dict String String)

/-- Whatever the enumerations of the Go run, both runtimes map the same canonical
keys to the same values and leave the same raw fields over. -/
def RuntimesAgree : Prop :=
  ∀ e : Enumeration, ∃ mapped unmapped,
    mapEvent i (pyFields texts) shared.fields = .ok (mapped, unmapped) ∧
      (∀ path, Option.Rel Corresponds
        ((mapRawFields p e shared.spec (ofBytes raw) (goFields texts)).extracted.get? path)
        (mapped.get? path)) ∧
      ∀ k, k ∈ (mapRawFields p e shared.spec (ofBytes raw) (goFields texts)).unknownFields.keys ↔
        k ∈ unmapped.keys

/-- The last field of the document with its canonical key that has a raw field. -/
def Decides (field : String × FieldDef) : Prop :=
  ∃ before after, shared.fields.entries = before ++ field :: after ∧ field.1 ∈ texts.keys ∧
    ∀ later ∈ after, canonicalKey later = canonicalKey field → later.1 ∉ texts.keys

/-- What the Go runtime may make of the raw field it finds for a field. -/
def MayConvert (field : String × FieldDef) (v : Value) : Prop :=
  ∃ k s, Candidate p.unicode (goFields texts) field.1 k ∧ texts.get? k = some s ∧
    Coerces p field.2.toFieldSpec (.str s) (.ok v)

/-- The condition under which the two runtimes agree. -/
structure InStep : Prop where
  /-- The validation engine raises no exception. -/
  converts : Converts i (pyFields texts) shared.fields.entries
  /-- A raw field that the Go runtime may find under another case has a field of
  its own. -/
  named : ∀ field ∈ shared.fields.entries, ∀ k,
    Candidate p.unicode (goFields texts) field.1 k → k ∈ shared.fields.keys
  /-- Whatever the Go runtime may make of a field is what the validation engine
  makes of the last field with the same canonical key. -/
  values : ∀ field ∈ shared.fields.entries, ∀ v, MayConvert p texts field v →
    ∃ last s y, Decides shared texts last ∧ canonicalKey last = canonicalKey field ∧
      texts.get? last.1 = some s ∧ convert i last.2 (.str s) = .ok y ∧ Corresponds v y
  /-- A field that has a raw field shares its canonical key with one that cannot
  fail in the Go runtime. -/
  present : ∀ field ∈ shared.fields.entries, field.1 ∈ texts.keys →
    ∃ field' ∈ shared.fields.entries, canonicalKey field' = canonicalKey field ∧
      MustWrite p (goFields texts) (goField field')

end Agreement

section Readings

variable {p : Platform} {i : Interpreter} {shared : SharedSpec} {raw : List UInt8}
  {texts : Dict String String} {field : String × FieldDef}

theorem mem_specFields {field : String × FieldSpec} :
    field ∈ shared.spec.1.fields.entries ↔ ∃ f ∈ shared.fields.entries, goField f = field := by
  rw [shared.reads]
  exact List.mem_map

theorem mapTo_goField (hfield : field ∈ shared.fields.entries) :
    (goField field).2.mapTo = canonicalKey field := by
  have haccepted := shared.spec.2.fields (goField field) (mem_specFields.mpr ⟨field, hfield, rfl⟩)
  have hmapped := haccepted.mapped
  cases hmapTo : field.2.mapTo with
  | some path => simp [goField, FieldDef.toFieldSpec, canonicalKey, hmapTo]
  | none =>
      have hempty : matchString mapToRegex "" = false := by decide
      simp only [goField, FieldDef.toFieldSpec, hmapTo, Option.getD_none] at hmapped
      rw [hempty] at hmapped
      cases hmapped

theorem get?_goFields {k : String} {v : Value} :
    (goFields texts).get? k = some v ↔ ∃ s, texts.get? k = some s ∧ v = .str s := by
  rw [goFields, Dict.get?_mapValues, Option.map_eq_some_iff]
  exact exists_congr fun s => and_congr_right fun _ => eq_comm

theorem get?_pyFields {k : String} {v : PyVal} :
    (pyFields texts).get? k = some v ↔ ∃ s, texts.get? k = some s ∧ v = .str s := by
  rw [pyFields, Dict.get?_mapValues, Option.map_eq_some_iff]
  exact exists_congr fun s => and_congr_right fun _ => eq_comm

theorem mem_keys_goFields {k : String} : k ∈ (goFields texts).keys ↔ k ∈ texts.keys := by
  rw [goFields, Dict.keys_mapValues]

theorem get?_mapped (hconverts : Converts i (pyFields texts) shared.fields.entries)
    {path : String} {y : PyVal} :
    (mappedOf i (pyFields texts) shared.fields).get? path = some y ↔
      ∃ last s, Decides shared texts last ∧ canonicalKey last = path ∧
        texts.get? last.1 = some s ∧ convert i last.2 (.str s) = .ok y := by
  rw [mappedOf, Dict.get?_ofList, lookup_reverse_filterMap_eq_some_iff]
  constructor
  · rintro ⟨before, last, after, hfields, hwritten, hafter⟩
    obtain ⟨hpath, rawVal, hraw, hconvert⟩ := written_eq_some_iff.mp hwritten
    obtain ⟨s, hs, rfl⟩ := get?_pyFields.mp hraw
    refine ⟨last, s, ⟨before, after, hfields, ?_, ?_⟩, hpath, hs, hconvert⟩
    · rw [Dict.mem_keys_iff, hs]
      rfl
    · intro later hlater hsame hkey
      obtain ⟨t, ht⟩ := Option.isSome_iff_exists.mp (Dict.mem_keys_iff.mp hkey)
      have hlaterRaw := get?_pyFields.mpr ⟨t, ht, rfl⟩
      obtain ⟨z, hz⟩ := hconverts later (by simp [hfields, hlater]) _ hlaterRaw
      exact hafter later hlater z
        (written_eq_some_iff.mpr ⟨hsame.trans hpath, _, hlaterRaw, hz⟩)
  · rintro ⟨last, s, ⟨before, after, hfields, -, hafter⟩, rfl, hs, hconvert⟩
    refine ⟨before, last, after, hfields, ?_, ?_⟩
    · exact written_eq_some_iff.mpr ⟨rfl, _, get?_pyFields.mpr ⟨s, hs, rfl⟩, hconvert⟩
    · intro later hlater u hu
      obtain ⟨hsame, rawVal, hraw, -⟩ := written_eq_some_iff.mp hu
      obtain ⟨t, ht, -⟩ := get?_pyFields.mp hraw
      apply hafter later hlater hsame
      rw [Dict.mem_keys_iff, ht]
      rfl

theorem mem_keys_unmapped {k : String} :
    k ∈ (unmappedOf (pyFields texts) shared.fields).keys ↔
      k ∈ texts.keys ∧ k ∉ shared.fields.keys := by
  rw [Dict.mem_keys_iff, unmappedOf, Dict.get?_filterKeys, pyFields, Dict.get?_mapValues]
  by_cases hkey : k ∈ shared.fields.keys
  · simp [hkey]
  · simp [hkey, Dict.mem_keys_iff]

variable (raw) in
theorem mem_keys_unknown (e : Enumeration) {k : String} :
    k ∈ (mapRawFields p e shared.spec (ofBytes raw) (goFields texts)).unknownFields.keys ↔
      (∀ field ∈ shared.fields.entries, consumes p e (goFields texts) (goField field) ≠ some k) ∧
        k ∈ texts.keys := by
  rw [Dict.mem_keys_iff, Option.isSome_iff_exists]
  simp only [get?_unknownFields_eq_some_iff shared.spec.2.policy]
  constructor
  · rintro ⟨v, hnever, hv⟩
    refine ⟨fun field hfield => hnever _ (mem_specFields.mpr ⟨field, hfield, rfl⟩), ?_⟩
    rw [← mem_keys_goFields, Dict.mem_keys_iff, hv]
    rfl
  · rintro ⟨hnever, hkey⟩
    rw [← mem_keys_goFields, Dict.mem_keys_iff] at hkey
    obtain ⟨v, hv⟩ := Option.isSome_iff_exists.mp hkey
    refine ⟨v, ?_, hv⟩
    intro field hfield
    obtain ⟨f, hf, rfl⟩ := mem_specFields.mp hfield
    exact hnever f hf

theorem consumes_self (e : Enumeration) (hkey : field.1 ∈ texts.keys) :
    consumes p e (goFields texts) (goField field) = some field.1 := by
  rw [← mem_keys_goFields, Dict.mem_keys_iff] at hkey
  obtain ⟨v, hv⟩ := Option.isSome_iff_exists.mp hkey
  apply consumes_eq_some_iff.mpr
  refine ⟨v, ?_⟩
  rw [resolve, goField, hv]

end Readings

section Sufficient

variable {p : Platform} {i : Interpreter} {shared : SharedSpec} {raw : List UInt8}
  {texts : Dict String String}

variable (raw) in
theorem extracted_of_inStep (hstep : InStep p i shared texts) (e : Enumeration) (path : String) :
    Option.Rel Corresponds
      ((mapRawFields p e shared.spec (ofBytes raw) (goFields texts)).extracted.get? path)
      ((mappedOf i (pyFields texts) shared.fields).get? path) := by
  rw [get?_extracted]
  cases hlast : lastWrite p e shared.spec (ofBytes raw) (goFields texts) path with
  | some w =>
      obtain ⟨field, hfield, rfl, hwritten⟩ := exists_of_lastWrite hlast
      obtain ⟨f, hf, rfl⟩ := mem_specFields.mp hfield
      obtain ⟨k, v, hcandidate, hget, hcoerces, -⟩ := mayWrite_of_written hwritten
      obtain ⟨s, hs, rfl⟩ := get?_goFields.mp hget
      obtain ⟨last, t, y, hdecides, hpath, ht, hconvert, hcorresponds⟩ :=
        hstep.values f hf w.1 ⟨k, s, hcandidate, hs, hcoerces⟩
      rw [mapTo_goField hf, (get?_mapped hstep.converts).mpr
        ⟨last, t, hdecides, hpath, ht, hconvert⟩]
      exact Option.Rel.some hcorresponds
  | none =>
      cases hmapped : (mappedOf i (pyFields texts) shared.fields).get? path with
      | none => exact Option.Rel.none
      | some y =>
          obtain ⟨last, s, ⟨before, after, hfields, hkey, -⟩, hpath, -⟩ :=
            (get?_mapped hstep.converts).mp hmapped
          obtain ⟨f, hf, hsame, hmust⟩ := hstep.present last (by simp [hfields]) hkey
          obtain ⟨w, hw⟩ := written_of_mustWrite raw shared.spec e hmust
          obtain ⟨w', hw'⟩ := lastWrite_ne_none (mem_specFields.mpr ⟨f, hf, rfl⟩) hw
          rw [mapTo_goField hf, hsame, hpath, hlast] at hw'
          cases hw'

variable (raw) in
theorem unknown_of_inStep (hstep : InStep p i shared texts) (e : Enumeration) (k : String) :
    k ∈ (mapRawFields p e shared.spec (ofBytes raw) (goFields texts)).unknownFields.keys ↔
      k ∈ (unmappedOf (pyFields texts) shared.fields).keys := by
  rw [mem_keys_unknown, mem_keys_unmapped]
  constructor
  · rintro ⟨hnever, hkey⟩
    refine ⟨hkey, ?_⟩
    intro hfield
    obtain ⟨field, hmem, rfl⟩ := List.mem_map.mp hfield
    exact hnever field hmem (consumes_self e hkey)
  · rintro ⟨hkey, hunnamed⟩
    refine ⟨?_, hkey⟩
    intro field hfield hconsumes
    obtain ⟨v, hresolve⟩ := consumes_eq_some_iff.mp hconsumes
    exact hunnamed (hstep.named field hfield k (candidate_of_resolve hresolve))

theorem runtimesAgree_of_inStep (hstep : InStep p i shared texts) :
    RuntimesAgree p i shared raw texts := by
  intro e
  exact ⟨_, _, mapEvent_eq_ok_iff.mpr ⟨hstep.converts, rfl⟩, extracted_of_inStep raw hstep e,
    unknown_of_inStep raw hstep e⟩

end Sufficient

section Necessary

variable {p : Platform} {i : Interpreter} {shared : SharedSpec} {raw : List UInt8}
  {texts : Dict String String}

theorem converts_of_runtimesAgree (hall : RuntimesAgree p i shared raw texts) :
    Converts i (pyFields texts) shared.fields.entries := by
  obtain ⟨mapped, unmapped, hevent, -⟩ := hall Enumeration.standing
  exact (mapEvent_eq_ok_iff.mp hevent).1

theorem mapped_of_runtimesAgree (hall : RuntimesAgree p i shared raw texts) {e : Enumeration}
    {path : String} {w : Option Write}
    (hlast : lastWrite p e shared.spec (ofBytes raw) (goFields texts) path = w) :
    Option.Rel Corresponds (w.map Prod.fst)
      ((mappedOf i (pyFields texts) shared.fields).get? path) := by
  obtain ⟨mapped, unmapped, hevent, hmapped, -⟩ := hall e
  obtain ⟨-, hresult⟩ := mapEvent_eq_ok_iff.mp hevent
  obtain ⟨rfl, -⟩ := Prod.mk.inj hresult
  rw [← hlast, ← get?_extracted]
  exact hmapped path

theorem named_of_consumes (hall : RuntimesAgree p i shared raw texts) {e : Enumeration}
    {field : String × FieldDef} (hfield : field ∈ shared.fields.entries) {k : String}
    (hkey : k ∈ texts.keys)
    (hconsumes : consumes p e (goFields texts) (goField field) = some k) :
    k ∈ shared.fields.keys := by
  obtain ⟨mapped, unmapped, hevent, -, hunmapped⟩ := hall e
  obtain ⟨-, hresult⟩ := mapEvent_eq_ok_iff.mp hevent
  obtain ⟨-, rfl⟩ := Prod.mk.inj hresult
  by_contra hunnamed
  have hunknown := (hunmapped k).mpr (mem_keys_unmapped.mpr ⟨hkey, hunnamed⟩)
  exact ((mem_keys_unknown raw e).mp hunknown).1 field hfield hconsumes

theorem named_of_runtimesAgree (hall : RuntimesAgree p i shared raw texts)
    {field : String × FieldDef} (hfield : field ∈ shared.fields.entries) {k : String}
    (hcandidate : Candidate p.unicode (goFields texts) field.1 k) : k ∈ shared.fields.keys := by
  have hkey := mem_keys_of_candidate hcandidate
  obtain ⟨v, hv⟩ := Option.isSome_iff_exists.mp (Dict.mem_keys_iff.mp hkey)
  -- under this choice the field consumes the raw field
  have hresolve := resolve_steer (p := p) Enumeration.standing KeyOrder.standing (fun _ => k)
    (fun _ _ => []) hcandidate hv
  exact named_of_consumes hall hfield (mem_keys_goFields.mp hkey)
    (consumes_eq_some_iff.mpr ⟨v, hresolve⟩)

theorem values_of_runtimesAgree (hall : RuntimesAgree p i shared raw texts)
    {field : String × FieldDef} (hfield : field ∈ shared.fields.entries) {v : Value}
    (hmay : MayConvert p texts field v) :
    ∃ last s y, Decides shared texts last ∧ canonicalKey last = canonicalKey field ∧
      texts.get? last.1 = some s ∧ convert i last.2 (.str s) = .ok y ∧ Corresponds v y := by
  obtain ⟨k, s, hcandidate, hs, hcoerces⟩ := hmay
  have hwrite : MayWrite p raw shared.spec (goFields texts) (goField field)
      (v, lineageOf p shared.spec (ofBytes raw) k (goField field).2 v) :=
    ⟨k, .str s, hcandidate, get?_goFields.mpr ⟨s, hs, rfl⟩, hcoerces, rfl⟩
  obtain ⟨choice, orders, hlast⟩ := exists_steer_of_mayWrite Enumeration.standing
    (mem_specFields.mpr ⟨field, hfield, rfl⟩) hwrite
  have hsame := mapped_of_runtimesAgree hall hlast
  rw [mapTo_goField hfield] at hsame
  cases hmapped : (mappedOf i (pyFields texts) shared.fields).get? (canonicalKey field) with
  | none =>
      rw [hmapped] at hsame
      cases hsame
  | some y =>
      rw [hmapped] at hsame
      obtain ⟨last, t, hdecides, hpath, ht, hconvert⟩ :=
        (get?_mapped (converts_of_runtimesAgree hall)).mp hmapped
      cases hsame with
      | some hcorresponds => exact ⟨last, t, y, hdecides, hpath, ht, hconvert, hcorresponds⟩

theorem present_of_runtimesAgree (hall : RuntimesAgree p i shared raw texts)
    {field : String × FieldDef} (hfield : field ∈ shared.fields.entries)
    (hkey : field.1 ∈ texts.keys) :
    ∃ field' ∈ shared.fields.entries, canonicalKey field' = canonicalKey field ∧
      MustWrite p (goFields texts) (goField field') := by
  by_contra hnever
  push Not at hnever
  have hsilent : ∀ f ∈ shared.spec.1.fields.entries, f.2.mapTo = canonicalKey field →
      ¬ MustWrite p (goFields texts) f := by
    intro f hf hpath
    obtain ⟨f', hf', rfl⟩ := mem_specFields.mp hf
    rw [mapTo_goField hf'] at hpath
    exact hnever f' hf' hpath
  obtain ⟨choice, orders, hunwritten⟩ := exists_unwritten raw Enumeration.standing hsilent
  have hsame := mapped_of_runtimesAgree hall hunwritten
  obtain ⟨s, hs⟩ := Option.isSome_iff_exists.mp (Dict.mem_keys_iff.mp hkey)
  have hraw := get?_pyFields.mpr ⟨s, hs, rfl⟩
  obtain ⟨y, hy⟩ := converts_of_runtimesAgree hall field hfield _ hraw
  have hmem : canonicalKey field ∈ (mappedOf i (pyFields texts) shared.fields).keys := by
    apply Dict.mem_keys_update.mpr
    left
    exact List.mem_map.mpr ⟨(canonicalKey field, y), List.mem_filterMap.mpr
      ⟨field, hfield, written_eq_some_iff.mpr ⟨rfl, _, hraw, hy⟩⟩, rfl⟩
  obtain ⟨z, hz⟩ := Option.isSome_iff_exists.mp (Dict.mem_keys_iff.mp hmem)
  rw [hz] at hsame
  cases hsame

end Necessary

section Fields

variable {p : Platform} {i : Interpreter} {shared : SharedSpec} {raw : List UInt8}
  {texts : Dict String String} {f : FieldDef} {s : String}

variable (p i) in
/-- Both runtimes make the same of a text, whatever the order of the enum table. -/
def ConvertsAlike (f : FieldDef) (s : String) : Prop :=
  ∃ y, convert i f (.str s) = .ok y ∧ ∀ outcome, Coerces p f.toFieldSpec (.str s) outcome →
    ∃ v, outcome = .ok v ∧ Corresponds v y

/-- Where no two fields share a canonical key and no raw field is looked for in
another case, it is enough that each field converts alike. -/
theorem runtimesAgree_of_convertsAlike
    (hdistinct : (shared.fields.entries.map canonicalKey).Nodup)
    (hexact : ∀ field ∈ shared.fields.entries, ∀ k,
      Candidate p.unicode (goFields texts) field.1 k → k = field.1)
    (halike : ∀ field ∈ shared.fields.entries, ∀ s, texts.get? field.1 = some s →
      ConvertsAlike p i field.2 s) : RuntimesAgree p i shared raw texts := by
  apply runtimesAgree_of_inStep
  refine ⟨?_, ?_, ?_, ?_⟩
  · intro field hfield rawVal hraw
    obtain ⟨s, hs, rfl⟩ := get?_pyFields.mp hraw
    obtain ⟨y, hy, -⟩ := halike field hfield s hs
    exact ⟨y, hy⟩
  · intro field hfield k hcandidate
    rw [hexact field hfield k hcandidate]
    exact List.mem_map_of_mem hfield
  · rintro field hfield v ⟨k, s, hcandidate, hs, hcoerces⟩
    rw [hexact field hfield k hcandidate] at hs
    obtain ⟨y, hy, hall⟩ := halike field hfield s hs
    obtain ⟨v', hv', hcorresponds⟩ := hall _ hcoerces
    cases hv'
    obtain ⟨before, after, hsplit⟩ := List.append_of_mem hfield
    refine ⟨field, s, y, ⟨before, after, hsplit, ?_, ?_⟩, rfl, hs, hy, hcorresponds⟩
    · rw [Dict.mem_keys_iff, hs]
      rfl
    · intro later hlater hsame
      rw [hsplit, List.map_append, List.map_cons] at hdistinct
      have hnotin := (List.nodup_cons.mp (List.nodup_append.mp hdistinct).2.1).1
      exact absurd (List.mem_map.mpr ⟨later, hlater, hsame⟩) hnotin
  · intro field hfield hkey
    refine ⟨field, hfield, rfl, ⟨field.1, ?_⟩, ?_⟩
    · rw [← mem_keys_goFields, Dict.mem_keys_iff] at hkey
      rw [goField, Candidate, if_pos hkey]
    · intro k v hcandidate hget err hcoerces
      obtain ⟨s, hs, rfl⟩ := get?_goFields.mp hget
      rw [hexact field hfield k hcandidate] at hs
      obtain ⟨y, -, hall⟩ := halike field hfield s hs
      obtain ⟨v, hv, -⟩ := hall _ hcoerces
      cases hv

theorem convertsAlike_of_plain (htype : f.type = some "string") (henum : f.enum = none)
    (hops : f.transformations.getD [] = []) : ConvertsAlike p i f s := by
  refine ⟨.str s, ?_, ?_⟩
  · simp [convert, cast, applyEnum, applyTransforms, htype, henum, hops]
  · rintro outcome ⟨orders, -, hcoerce⟩
    refine ⟨.str s, ?_, Corresponds.str s⟩
    rw [← hcoerce]
    simp [coerce, coerceType, applyTransformations, FieldDef.toFieldSpec, htype, henum, hops,
      Dict.empty, sprint, printed]

theorem convert_ne_bool {y : PyVal} (h : convert i f (.str s) = .ok y) (b : Bool) :
    y ≠ .bool b := by
  rintro rfl
  rw [convert, applyEnum, applyTransforms, cast] at h
  split_ifs at h
  · revert h
    cases toInt i _ with
    | ok n => simp [orKeep, PyVal.int]
    | error err => cases err <;> simp [orKeep]
  · revert h
    cases toFloat i _ with
    | ok x => simp [orKeep, PyVal.float]
    | error err => cases err <;> simp [orKeep]
  · rw [toTimestamp] at h
    split at h
    · obtain ⟨sec, -, hsec⟩ := map_eq_ok_iff.mp h
      cases hsec
    · cases h
  · cases h

/-- A boolean field that the Go runtime converts is never mapped alike. -/
theorem not_runtimesAgree_of_boolean {field : String × FieldDef}
    (hfield : field ∈ shared.fields.entries) (htype : field.2.type = some "boolean") {v : Value}
    (hmay : MayConvert p texts field v) : ¬ RuntimesAgree p i shared raw texts := by
  intro hall
  obtain ⟨last, t, y, -, -, -, hconvert, hcorresponds⟩ :=
    values_of_runtimesAgree hall hfield hmay
  obtain ⟨k, s, -, -, orders, -, hcoerce⟩ := hmay
  obtain ⟨b, -, rfl⟩ : ∃ b, _ ∧ v = .bool b := by
    rw [coerce, coerceType, FieldDef.toFieldSpec, htype] at hcoerce
    obtain ⟨b, hb, hv⟩ := map_eq_ok_iff.mp hcoerce
    exact ⟨b, hb, hv.symm⟩
  cases hcorresponds
  exact convert_ne_bool hconvert b rfl

end Fields

/-- Exactly on the maps on which they are in step do the two runtimes agree. -/
theorem runtimesAgree_iff_inStep (p : Platform) (i : Interpreter) (shared : SharedSpec)
    (raw : List UInt8) (texts : Dict String String) :
    RuntimesAgree p i shared raw texts ↔ InStep p i shared texts := by
  constructor
  · intro hall
    exact ⟨converts_of_runtimesAgree hall, fun _ hfield _ => named_of_runtimesAgree hall hfield,
      fun _ hfield _ => values_of_runtimesAgree hall hfield,
      fun _ hfield => present_of_runtimesAgree hall hfield⟩
  · exact runtimesAgree_of_inStep

def flagSpec : SharedSpec where
  fields := Dict.ofList [("enabled", ⟨some "boolean", some "rule.enabled", none, none⟩)]
  spec := ⟨plainSpec "key_value" [("enabled", plainField "boolean" "rule.enabled")],
    (validateParserSpec_eq_ok_iff _).mp (by decide +kernel)⟩
  reads := by decide

/-- The word `yes` is a boolean to the Go runtime only. -/
theorem not_runtimesAgree_flag : ¬ RuntimesAgree Platform.plain ⟨Unicode.ascii, true⟩ flagSpec
    (asciiBytes "enabled=yes") (Dict.ofList [("enabled", "yes")]) := by
  have hmay : MayConvert Platform.plain (Dict.ofList [("enabled", "yes")])
      ("enabled", ⟨some "boolean", some "rule.enabled", none, none⟩) (.bool true) := by
    refine ⟨"enabled", "yes", ?_, rfl, fun _ => [], fun _ => List.Perm.refl _, by decide +kernel⟩
    rw [Candidate, if_pos (by decide)]
  exact not_runtimesAgree_of_boolean List.mem_cons_self rfl hmay

end Ulpf.Validation
