import Ulpf.ParserRuntime.Provenance

/-!
The lineage records that leave the normalizer with an event, and when every
extracted value has a valid one.
-/

namespace Ulpf.Normalize

open Ulpf.Lib
open Ulpf.Go
open Ulpf.ParserRuntime

/-- A record that passes its own check, or the path of it with the error. -/
def checkedRecord (lin : FieldLineage) : Except (String × LineageError) FieldLineage :=
  match lin.validate with
  | .ok _ => .ok lin
  | .error err => .error (lin.normalizedPath, err)

/-- `ExtractLineage`; the records come in the order of the enumeration. -/
def extractLineage (order : KeyOrder) (parseResult : ParseResult) :
    Except (String × LineageError) (List FieldLineage) :=
  (arrange (order.run parseResult.lineage.keys) parseResult.lineage.entries).mapM fun entry =>
    checkedRecord entry.2

theorem checkedRecord_eq_ok_iff {lin lin' : FieldLineage} :
    checkedRecord lin = .ok lin' ↔ lin.validate = .ok () ∧ lin' = lin := by
  rw [checkedRecord]
  cases lin.validate with
  | ok _ => simp [eq_comm]
  | error err => simp

theorem mapM_checkedRecord {entries : List (String × FieldLineage)}
    (h : ∀ entry ∈ entries, entry.2.validate = .ok ()) :
    entries.mapM (fun entry => checkedRecord entry.2) = .ok (entries.map Prod.snd) := by
  induction entries with
  | nil => rfl
  | cons entry rest ih =>
      have hentry : checkedRecord entry.2 = .ok entry.2 :=
        checkedRecord_eq_ok_iff.mpr ⟨h entry List.mem_cons_self, rfl⟩
      rw [List.mapM_cons, hentry,
        ih fun entry' hentry' => h entry' (List.mem_cons_of_mem _ hentry')]
      rfl

section Completeness

variable (p : Platform) (e : Enumeration)

/-- Every extracted value has one record: it is valid, under the path of the
value, and the normalizer passes all the records on, in any order. -/
structure RecordsComplete (res : ParseResult) : Prop where
  paths : ∀ path, (res.lineage.get? path).isSome = (res.extracted.get? path).isSome
  named : ∀ path record, res.lineage.get? path = some record → record.normalizedPath = path
  valid : ∀ path record, res.lineage.get? path = some record → record.validate = .ok ()
  passed : ∀ order : KeyOrder, ∃ records, extractLineage order res = .ok records ∧
    records.Perm (res.lineage.entries.map Prod.snd)

/-- A run whose extracted values all have their record. -/
def LineageAccompanies (raw : List UInt8) (spec : ParserSpec) : Prop :=
  ∀ res, parse p e raw spec = .ok res → RecordsComplete res

/-- Every field that is the last to write takes a raw field that is not blank,
and that is located unless all the transformations may stand in a record. -/
def Recordable (raw : List UInt8) (spec : ParserSpec) : Prop :=
  raw ≠ [] → ∀ rawFields, parseBody e (ofBytes raw) spec = .ok rawFields →
    ∀ field k val typedVal,
      LastWriter p e rawFields (e.entries .fields spec.fields) field k val typedVal →
        spec.bodyParser.type = "json" ∨ (trimSpace k ≠ "" ∧
          (Located p.unicode spec.bodyParser.type (ofBytes raw) k typedVal ∨
            ∀ op ∈ field.2.transformations, op ∈ validTransformations))

variable {p e}

/-- A result of the loop is complete as soon as its records are valid. -/
theorem recordsComplete_iff {spec : ParserSpec} {rawStr : String} {rawFields : RawFields}
    (hspec : Accepted spec) : RecordsComplete (mapRawFields p e spec rawStr rawFields) ↔
      ∀ path record, (mapRawFields p e spec rawStr rawFields).lineage.get? path = some record →
        record.validate = .ok () := by
  constructor
  · intro h
    exact h.valid
  · intro hvalid
    refine ⟨?_, ?_, hvalid, ?_⟩
    · intro path
      rw [get?_lineage, get?_extracted, Option.isSome_map, Option.isSome_map]
    · intro path record hrecord
      obtain ⟨field, k, val, typedVal, hwriter, hpath, -, rfl⟩ := exists_lastWriter hrecord
      have hmapped := (hspec.fields field (mem_fields_of_lastWriter hwriter)).mapped
      rw [lineageOf_eq hspec.bodyParserType hmapped, ← hpath]
      split <;> rfl
    · intro order
      have hperm := arrange_perm (mapRawFields p e spec rawStr rawFields).lineage.nodup
        (order.perm (mapRawFields p e spec rawStr rawFields).lineage.keys)
      refine ⟨_, mapM_checkedRecord ?_, hperm.map Prod.snd⟩
      intro entry hentry
      exact hvalid entry.1 entry.2 (Dict.get?_eq_some_iff.mpr (hperm.mem_iff.mp hentry))

end Completeness

/-- Lineage accompanies every extracted value exactly when no field that is the
last to write has a blank raw field, or is unlocated with a transformation that
may not stand in a record. -/
theorem lineageAccompanies_iff (p : Platform) (e : Enumeration) (raw : List UInt8)
    (spec : ValidSpec) : LineageAccompanies p e raw spec.1 ↔ Recordable p e raw spec.1 := by
  obtain ⟨spec, haccepted⟩ := spec
  show LineageAccompanies p e raw spec ↔ Recordable p e raw spec
  constructor
  · intro hall hraw rawFields hbody field k val typedVal hwriter
    have hparse := parse_eq_ok_iff (p := p).mpr ⟨hraw, rawFields, hbody, rfl⟩
    have hpath := (haccepted.fields field (mem_fields_of_lastWriter hwriter)).mapped
    have hvalid := (hall _ hparse).valid _ _ (get?_of_lastWriter (ofBytes raw) hwriter).2
    exact (validate_lineageOf_iff haccepted.bodyParserType hpath).mp hvalid
  · intro hrecordable res hparse
    obtain ⟨hraw, rawFields, hbody, rfl⟩ := parse_eq_ok_iff.mp hparse
    rw [recordsComplete_iff haccepted]
    intro path record hrecord
    obtain ⟨field, k, val, typedVal, hwriter, -, -, rfl⟩ := exists_lastWriter hrecord
    have hpath := (haccepted.fields field (mem_fields_of_lastWriter hwriter)).mapped
    rw [validate_lineageOf_iff haccepted.bodyParserType hpath]
    exact hrecordable hraw rawFields hbody field k val typedVal hwriter

section Vendor

/-- The vendor of a CEF message under another name, with an operation that a
field may have and a record may not. -/
def vendorSpec : ValidSpec :=
  ⟨plainSpec "cef" [("device_vendor",
      ⟨"string", "observer.vendor", Dict.ofList [("Acme", "Zeta")], ["regex_capture"]⟩)],
    (validateParserSpec_eq_ok_iff _).mp (by decide +kernel)⟩

/-- The record of the vendor is not valid. -/
theorem not_lineageAccompanies_vendor : ¬ LineageAccompanies Platform.plain Enumeration.standing
    (asciiBytes "CEF:0|Acme|FW|1.0|100|Deny|5|") vendorSpec.1 := by
  intro hall
  have hbody : parseBody Enumeration.standing
      (ofBytes (asciiBytes "CEF:0|Acme|FW|1.0|100|Deny|5|")) vendorSpec.1 =
        .ok (Dict.ofList [("cef_version", .num (.int 0)), ("device_vendor", .str "Acme"),
          ("device_product", .str "FW"), ("device_version", .str "1.0"),
          ("device_event_class_id", .str "100"), ("name", .str "Deny"),
          ("severity", .str "5")]) := by
    decide +kernel
  have hrecord := (hall _ (parse_eq_ok_iff.mpr ⟨by decide, _, hbody, rfl⟩)).valid "observer.vendor"
    (fallbackLineage "observer.vendor" "device_vendor" "cef" ["regex_capture"]) (by decide +kernel)
  revert hrecord
  decide +kernel

end Vendor

end Ulpf.Normalize
