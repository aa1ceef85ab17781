import Ulpf.ParserRuntime.Choices
import Ulpf.ParserRuntime.NoLoss

/-!
Whether the result of `Parse` depends on the orders in which maps are
enumerated. A run takes a candidate for every field, an order for every use of
an enum table and an order of the fields; the choices of different fields are
independent of each other.
-/

namespace Ulpf.ParserRuntime

open Ulpf.Lib
open Ulpf.Go

/-- Two runs with the same success and the same maps. -/
def SameOutcome : Except ParseError ParseResult → Except ParseError ParseResult → Prop
  | .ok r, .ok r' =>
      r.extracted.Same r'.extracted ∧ r.unknownFields.Same r'.unknownFields ∧
        r.lineage.Same r'.lineage
  | .error _, .error _ => True
  | _, _ => False

section Outcomes

variable (p : Platform) (raw : List UInt8) (spec : ParserSpec)

/-- A payload and a spec whose result no enumeration changes. -/
def OrderIndependent : Prop :=
  ∀ e e' : Enumeration, SameOutcome (parse p e raw spec) (parse p e' raw spec)

/-- Raw fields that some order of the JSON objects gives. -/
def MayYield (rawFields : RawFields) : Prop :=
  raw ≠ [] ∧ ∃ e : Enumeration, parseBody e (ofBytes raw) spec = .ok rawFields

/-- A field can make a write from some raw field that it may stand for. -/
def MayWrite (rawFields : RawFields) (field : String × FieldSpec) (w : Write) : Prop :=
  ∃ k val, Candidate p.unicode rawFields field.1 k ∧ rawFields.get? k = some val ∧
    Coerces p field.2 val (.ok w.1) ∧ w.2 = lineageOf p spec (ofBytes raw) k field.2 w.1

/-- A field writes, whatever its candidate and the orders of its enum table. -/
def MustWrite (rawFields : RawFields) (field : String × FieldSpec) : Prop :=
  (∃ k, Candidate p.unicode rawFields field.1 k) ∧
    ∀ k val, Candidate p.unicode rawFields field.1 k → rawFields.get? k = some val →
      ∀ err, ¬ Coerces p field.2 val (.error err)

/-- The condition on a payload and a spec under which no order matters. -/
structure OrderFree : Prop where
  /-- A raw field is the only candidate of some field, or the candidate of none
  and the same under all orders. -/
  unknown : ∀ rawFields, MayYield raw spec rawFields → ∀ k val, rawFields.get? k = some val →
    (∃ field ∈ spec.fields.entries, ∀ k', Candidate p.unicode rawFields field.1 k' ↔ k' = k) ∨
      (∀ field ∈ spec.fields.entries, ¬ Candidate p.unicode rawFields field.1 k) ∧
        ∀ rawFields', MayYield raw spec rawFields' → rawFields'.get? k = some val
  /-- All possible writes to one canonical path are the same. -/
  agree : ∀ rawFields rawFields', MayYield raw spec rawFields → MayYield raw spec rawFields' →
    ∀ field ∈ spec.fields.entries, ∀ field' ∈ spec.fields.entries,
      field.2.mapTo = field'.2.mapTo → ∀ w w', MayWrite p raw spec rawFields field w →
        MayWrite p raw spec rawFields' field' w' → w = w'
  /-- A path that may be written is written by some field in any case. -/
  present : ∀ rawFields rawFields', MayYield raw spec rawFields → MayYield raw spec rawFields' →
    ∀ field ∈ spec.fields.entries, ∀ w, MayWrite p raw spec rawFields field w →
      ∃ field' ∈ spec.fields.entries, field'.2.mapTo = field.2.mapTo ∧
        MustWrite p rawFields' field'

end Outcomes

section Runs

variable {p : Platform} {e e' : Enumeration} {raw : List UInt8} {spec : ParserSpec}
  {rawFields rawFields' : RawFields}

theorem mayWrite_of_written {field : String × FieldSpec} {w : Write}
    (h : written p e spec (ofBytes raw) rawFields field = some w) :
    MayWrite p raw spec rawFields field w := by
  obtain ⟨k, val, hresolve, hcoerce, hlineage⟩ := written_eq_some_iff.mp h
  refine ⟨k, val, candidate_of_resolve hresolve, get?_of_resolve hresolve, ?_, hlineage⟩
  rw [← hcoerce]
  exact coerces_enumOrders e field.1 field.2 val

variable (raw spec) in
theorem written_of_mustWrite (e : Enumeration) {field : String × FieldSpec}
    (h : MustWrite p rawFields field) :
    ∃ w, written p e spec (ofBytes raw) rawFields field = some w := by
  obtain ⟨⟨k, hcandidate⟩, hnever⟩ := h
  obtain ⟨k', val, hresolve⟩ := exists_resolve e hcandidate
  have hcoerces := coerces_enumOrders (p := p) e field.1 field.2 val
  cases hcoerce : coerce p field.2 (enumOrders e field.1 field.2) val with
  | error err =>
      rw [hcoerce] at hcoerces
      exact absurd hcoerces (hnever k' val (candidate_of_resolve hresolve)
        (get?_of_resolve hresolve) err)
  | ok typedVal =>
      exact ⟨(typedVal, lineageOf p spec (ofBytes raw) k' field.2 typedVal),
        written_eq_some_iff.mpr ⟨k', val, hresolve, hcoerce, rfl⟩⟩

theorem exists_of_lastWrite {path : String} {w : Write}
    (h : lastWrite p e spec (ofBytes raw) rawFields path = some w) :
    ∃ field ∈ spec.fields.entries, field.2.mapTo = path ∧
      written p e spec (ofBytes raw) rawFields field = some w := by
  have hmem := mem_of_lookup h
  rw [List.mem_reverse, writes, List.mem_filterMap] at hmem
  obtain ⟨field, hfield, hwrite⟩ := hmem
  obtain ⟨w', hw', hpair⟩ := Option.map_eq_some_iff.mp hwrite
  cases hpair
  exact ⟨field, (e.entries_perm .fields spec.fields).mem_iff.mp hfield, rfl, hw'⟩

theorem lastWrite_ne_none {field : String × FieldSpec} (hfield : field ∈ spec.fields.entries)
    {w : Write} (hw : written p e spec (ofBytes raw) rawFields field = some w) :
    ∃ w', lastWrite p e spec (ofBytes raw) rawFields field.2.mapTo = some w' := by
  apply Option.isSome_iff_exists.mp
  rw [lastWrite, lookup_isSome_iff, List.map_reverse, List.mem_reverse]
  apply List.mem_map.mpr
  refine ⟨(field.2.mapTo, w), ?_, rfl⟩
  rw [writes, List.mem_filterMap]
  exact ⟨field, (e.entries_perm .fields spec.fields).mem_iff.mpr hfield, by rw [hw]; rfl⟩

theorem consumes_eq_some_iff {field : String × FieldSpec} {k : String} :
    consumes p e rawFields field = some k ↔
      ∃ val, resolve p e rawFields field.1 = some (k, val) := by
  rw [consumes, Option.map_eq_some_iff]
  constructor
  · rintro ⟨⟨k', val⟩, hresolve, rfl⟩
    exact ⟨val, hresolve⟩
  · rintro ⟨val, hresolve⟩
    exact ⟨(k, val), hresolve, rfl⟩

theorem get?_unknownFields_eq_some_iff (hpolicy : spec.unknownFields.policy = "preserve")
    {rawStr k : String} {val : Value} :
    (mapRawFields p e spec rawStr rawFields).unknownFields.get? k = some val ↔
      (∀ field ∈ spec.fields.entries, consumes p e rawFields field ≠ some k) ∧
        rawFields.get? k = some val := by
  rw [get?_unknownFields hpolicy]
  split
  · rename_i hconsumed
    obtain ⟨field, hfield, hconsumes⟩ := hconsumed
    constructor
    · intro h
      cases h
    · rintro ⟨hnever, -⟩
      exact absurd hconsumes (hnever field hfield)
  · rename_i hnever
    push Not at hnever
    exact ⟨fun h => ⟨hnever, h⟩, And.right⟩

theorem sameOutcome_iff (hraw : raw ≠ [])
    (hbody : parseBody e (ofBytes raw) spec = .ok rawFields)
    (hbody' : parseBody e' (ofBytes raw) spec = .ok rawFields') :
    SameOutcome (parse p e raw spec) (parse p e' raw spec) ↔
      (mapRawFields p e spec (ofBytes raw) rawFields).unknownFields.Same
          (mapRawFields p e' spec (ofBytes raw) rawFields').unknownFields ∧
        ∀ path, lastWrite p e spec (ofBytes raw) rawFields path =
          lastWrite p e' spec (ofBytes raw) rawFields' path := by
  rw [parse_eq_ok_iff.mpr ⟨hraw, rawFields, hbody, rfl⟩,
    parse_eq_ok_iff.mpr ⟨hraw, rawFields', hbody', rfl⟩]
  constructor
  · rintro ⟨hextracted, hunknown, hlineage⟩
    refine ⟨hunknown, fun path => ?_⟩
    have hfst := hextracted path
    have hsnd := hlineage path
    rw [get?_extracted, get?_extracted] at hfst
    rw [get?_lineage, get?_lineage] at hsnd
    cases hw : lastWrite p e spec (ofBytes raw) rawFields path <;>
      cases hw' : lastWrite p e' spec (ofBytes raw) rawFields' path <;>
      simp_all [Prod.ext_iff]
  · rintro ⟨hunknown, hwrites⟩
    refine ⟨fun path => ?_, hunknown, fun path => ?_⟩
    · rw [get?_extracted, get?_extracted, hwrites]
    · rw [get?_lineage, get?_lineage, hwrites]

end Runs

section Sufficient

variable {p : Platform} {e e' : Enumeration} {raw : List UInt8} {spec : ParserSpec}
  {rawFields rawFields' : RawFields}

theorem lastWrite_of_orderFree (hfree : OrderFree p raw spec) (hraw : raw ≠ [])
    (hbody : parseBody e (ofBytes raw) spec = .ok rawFields)
    (hbody' : parseBody e' (ofBytes raw) spec = .ok rawFields') {path : String} {w : Write}
    (h : lastWrite p e spec (ofBytes raw) rawFields path = some w) :
    lastWrite p e' spec (ofBytes raw) rawFields' path = some w := by
  have hyield : MayYield raw spec rawFields := ⟨hraw, e, hbody⟩
  have hyield' : MayYield raw spec rawFields' := ⟨hraw, e', hbody'⟩
  obtain ⟨field, hfield, rfl, hwritten⟩ := exists_of_lastWrite h
  have hmay := mayWrite_of_written hwritten
  obtain ⟨field', hfield', hpath, hmust⟩ :=
    hfree.present _ _ hyield hyield' field hfield w hmay
  obtain ⟨w', hw'⟩ := written_of_mustWrite raw spec e' hmust
  obtain ⟨last, hlast⟩ := lastWrite_ne_none hfield' hw'
  rw [hpath] at hlast
  -- the last write of the other run may come from yet another field
  obtain ⟨field'', hfield'', hpath'', hwritten''⟩ := exists_of_lastWrite hlast
  rw [hlast, hfree.agree _ _ hyield hyield' field hfield field'' hfield'' hpath''.symm w last hmay
    (mayWrite_of_written hwritten'')]

theorem unknown_of_orderFree (haccepted : Accepted spec) (hfree : OrderFree p raw spec)
    (hraw : raw ≠ []) (hbody : parseBody e (ofBytes raw) spec = .ok rawFields)
    (hbody' : parseBody e' (ofBytes raw) spec = .ok rawFields') {k : String} {val : Value}
    (h : (mapRawFields p e spec (ofBytes raw) rawFields).unknownFields.get? k = some val) :
    (mapRawFields p e' spec (ofBytes raw) rawFields').unknownFields.get? k = some val := by
  have hpolicy := haccepted.policy
  obtain ⟨hnever, hget⟩ := (get?_unknownFields_eq_some_iff hpolicy).mp h
  obtain ⟨field, hfield, honly⟩ | ⟨hfree', hsame⟩ :=
    hfree.unknown rawFields ⟨hraw, e, hbody⟩ k val hget
  · obtain ⟨k', val', hresolve⟩ := exists_resolve e ((honly k).mpr rfl)
    have hkey := (honly k').mp (candidate_of_resolve hresolve)
    rw [hkey] at hresolve
    exact absurd (consumes_eq_some_iff.mpr ⟨val', hresolve⟩) (hnever field hfield)
  · rw [get?_unknownFields_eq_some_iff hpolicy]
    refine ⟨?_, hsame rawFields' ⟨hraw, e', hbody'⟩⟩
    intro field hfield hconsumes
    obtain ⟨val', hresolve⟩ := consumes_eq_some_iff.mp hconsumes
    obtain ⟨rawFields'', hbody'', hkeys⟩ := parseBody_keys (ofBytes raw) spec e e' hbody
    rw [hbody'] at hbody''
    cases hbody''
    exact hfree' field hfield ((candidate_congr hkeys).mpr (candidate_of_resolve hresolve))

theorem orderIndependent_of_orderFree (haccepted : Accepted spec)
    (hfree : OrderFree p raw spec) : OrderIndependent p raw spec := by
  intro e e'
  by_cases hraw : raw = []
  · simp [parse, hraw, SameOutcome]
  · cases hbody : parseBody e (ofBytes raw) spec with
    | error err =>
        cases hbody' : parseBody e' (ofBytes raw) spec with
        | error err' => simp [parse, hraw, hbody, hbody', Except.map, SameOutcome]
        | ok rawFields' =>
            obtain ⟨rawFields, hok, -⟩ := parseBody_keys (ofBytes raw) spec e' e hbody'
            rw [hbody] at hok
            cases hok
    | ok rawFields =>
        obtain ⟨rawFields', hbody', -⟩ := parseBody_keys (ofBytes raw) spec e e' hbody
        rw [sameOutcome_iff hraw hbody hbody']
        constructor
        · intro k
          apply Option.ext
          intro val
          exact ⟨unknown_of_orderFree haccepted hfree hraw hbody hbody',
            unknown_of_orderFree haccepted hfree hraw hbody' hbody⟩
        · intro path
          apply Option.ext
          intro w
          exact ⟨lastWrite_of_orderFree hfree hraw hbody hbody',
            lastWrite_of_orderFree hfree hraw hbody' hbody⟩

end Sufficient

section Necessary

variable {p : Platform} {raw : List UInt8} {spec : ParserSpec} {rawFields : RawFields}
  (e : Enumeration) (fields : KeyOrder) (choice : String → String)
  (orders : String → ℕ → List (String × String))

theorem parseBody_steer (rawStr : String) :
    parseBody (steer e fields choice orders) rawStr spec = parseBody e rawStr spec :=
  parseBody_congr rawStr spec fun _ => rfl

variable {e} in
theorem agree_steer (hall : OrderIndependent p raw spec) (hraw : raw ≠ [])
    {e' : Enumeration} {rawFields' : RawFields}
    (hbody : parseBody e (ofBytes raw) spec = .ok rawFields)
    (hbody' : parseBody e' (ofBytes raw) spec = .ok rawFields')
    (fields fields' : KeyOrder) (choice choice' : String → String)
    (orders orders' : String → ℕ → List (String × String)) :
    (mapRawFields p (steer e fields choice orders) spec (ofBytes raw) rawFields).unknownFields.Same
        (mapRawFields p (steer e' fields' choice' orders') spec (ofBytes raw)
          rawFields').unknownFields ∧
      ∀ path, lastWrite p (steer e fields choice orders) spec (ofBytes raw) rawFields path =
        lastWrite p (steer e' fields' choice' orders') spec (ofBytes raw) rawFields' path :=
  (sameOutcome_iff hraw ((parseBody_steer e fields choice orders _).trans hbody)
    ((parseBody_steer e' fields' choice' orders' _).trans hbody')).mp (hall _ _)

theorem written_steer {field : String × FieldSpec} {w : Write} {val : Value}
    (hcandidate : Candidate p.unicode rawFields field.1 (choice field.1))
    (hget : rawFields.get? (choice field.1) = some val)
    (hperm : ∀ use, (orders field.1 use).Perm field.2.enum.entries)
    (hcoerce : coerce p field.2 (orders field.1) val = .ok w.1)
    (hlineage : w.2 = lineageOf p spec (ofBytes raw) (choice field.1) field.2 w.1) :
    written p (steer e fields choice orders) spec (ofBytes raw) rawFields field =
      some w := by
  rw [written_eq_some_iff]
  refine ⟨choice field.1, val, resolve_steer e fields choice orders hcandidate hget, ?_, hlineage⟩
  rw [enumOrders_steer e fields choice orders hperm]
  exact hcoerce

theorem lastWrite_steer {field : String × FieldSpec} (hfield : field ∈ spec.fields.entries)
    {w : Write}
    (hw : written p (steer e (KeyOrder.last (· == field.1)) choice orders) spec
      (ofBytes raw) rawFields field = some w) :
    lastWrite p (steer e (KeyOrder.last (· == field.1)) choice orders) spec
      (ofBytes raw) rawFields field.2.mapTo = some w := by
  have hkey : field.1 ∈ spec.fields.keys := List.mem_map_of_mem hfield
  have hcount : spec.fields.keys.count field.1 = 1 :=
    List.count_eq_one_of_mem spec.fields.nodup hkey
  have hfilter : (spec.fields.keys.filter fun k => !!(k == field.1)) = [field.1] := by
    simp only [Bool.not_not]
    rw [List.filter_beq, hcount]
    rfl
  have hlast : (steer e (KeyOrder.last (· == field.1)) choice orders).entries .fields
      spec.fields =
        arrange (spec.fields.keys.filter fun k => !(k == field.1)) spec.fields.entries ++
          [field] := by
    simp only [Enumeration.entries, steer, KeyOrder.last, KeyOrder.first,
      hfilter, arrange_append]
    have hlookup : lookup field.1 spec.fields.entries = some field.2 :=
      lookup_of_mem spec.fields.nodup hfield
    simp [arrange, hlookup]
  rw [lastWrite, hlast, writes, List.filterMap_append, List.reverse_append]
  simp [hw, lookup_cons]

theorem exists_steer_of_mayWrite {field : String × FieldSpec} {w : Write}
    (hfield : field ∈ spec.fields.entries) (h : MayWrite p raw spec rawFields field w) :
    ∃ choice orders, lastWrite p (steer e (KeyOrder.last (· == field.1)) choice orders)
      spec (ofBytes raw) rawFields field.2.mapTo = some w := by
  obtain ⟨k, val, hcandidate, hget, ⟨uses, hperm, hcoerce⟩, hlineage⟩ := h
  refine ⟨fun _ => k, fun _ => uses, ?_⟩
  apply lastWrite_steer e _ _ hfield
  exact written_steer e _ _ _ hcandidate hget hperm hcoerce hlineage

theorem exists_silent {field : String × FieldSpec} (h : ¬ MustWrite p rawFields field) :
    ∃ (k : String) (uses : ℕ → List (String × String)),
      (∀ k', ¬ Candidate p.unicode rawFields field.1 k') ∨
        (∀ use, (uses use).Perm field.2.enum.entries) ∧
          Candidate p.unicode rawFields field.1 k ∧
            ∃ val err, rawFields.get? k = some val ∧ coerce p field.2 uses val = .error err := by
  rw [MustWrite, not_and_or] at h
  obtain hnone | hfails := h
  · push Not at hnone
    exact ⟨"", fun _ => [], Or.inl hnone⟩
  · push Not at hfails
    obtain ⟨k, val, hcandidate, hget, err, uses, hperm, hcoerce⟩ := hfails
    exact ⟨k, uses, Or.inr ⟨hperm, hcandidate, val, err, hget, hcoerce⟩⟩

variable (raw spec) in
theorem written_eq_none_of_silent {field : String × FieldSpec}
    (h : (∀ k', ¬ Candidate p.unicode rawFields field.1 k') ∨
      (∀ use, (orders field.1 use).Perm field.2.enum.entries) ∧
        Candidate p.unicode rawFields field.1 (choice field.1) ∧
          ∃ val err, rawFields.get? (choice field.1) = some val ∧
            coerce p field.2 (orders field.1) val = .error err) :
    written p (steer e fields choice orders) spec (ofBytes raw) rawFields field =
      none := by
  rw [written_eq_none_iff]
  intro k v hmakes
  obtain ⟨val, hresolve, hcoerce⟩ := hmakes
  obtain hnone | ⟨hperm, hcandidate, val', err, hget, hfails⟩ := h
  · exact hnone k (candidate_of_resolve hresolve)
  · rw [resolve_steer e fields choice orders hcandidate hget] at hresolve
    cases hresolve
    rw [enumOrders_steer e fields choice orders hperm, hfails] at hcoerce
    cases hcoerce

variable (raw) in
theorem exists_unwritten {path : String}
    (hnever : ∀ field ∈ spec.fields.entries, field.2.mapTo = path → ¬ MustWrite p rawFields field) :
    ∃ choice orders,
      lastWrite p (steer e .standing choice orders) spec (ofBytes raw) rawFields path = none := by
  -- every field with this path gets choices under which it is silent
  have hsilent : ∀ name, ∃ (k : String) (uses : ℕ → List (String × String)),
      ∀ fieldSpec, spec.fields.get? name = some fieldSpec → fieldSpec.mapTo = path →
        (∀ k', ¬ Candidate p.unicode rawFields name k') ∨
          (∀ use, (uses use).Perm fieldSpec.enum.entries) ∧
            Candidate p.unicode rawFields name k ∧
              ∃ val err, rawFields.get? k = some val ∧
                coerce p fieldSpec uses val = .error err := by
    intro name
    by_cases hpath : ∃ fieldSpec, spec.fields.get? name = some fieldSpec ∧ fieldSpec.mapTo = path
    · obtain ⟨fieldSpec, hget, hmapTo⟩ := hpath
      obtain ⟨k, uses, hk⟩ := exists_silent (hnever (name, fieldSpec)
        (Dict.get?_eq_some_iff.mp hget) hmapTo)
      refine ⟨k, uses, fun fieldSpec' hget' _ => ?_⟩
      rw [hget] at hget'
      cases hget'
      exact hk
    · refine ⟨"", fun _ => [], fun fieldSpec hget hmapTo => ?_⟩
      exact absurd ⟨fieldSpec, hget, hmapTo⟩ hpath
  choose choice orders hchoice using hsilent
  refine ⟨choice, orders, ?_⟩
  by_contra hwrite
  obtain ⟨w, hw⟩ := Option.ne_none_iff_exists'.mp hwrite
  obtain ⟨field, hfield, hmapTo, hwritten⟩ := exists_of_lastWrite hw
  have hnone := written_eq_none_of_silent raw spec e .standing choice orders
    (hchoice field.1 field.2 (Dict.get?_eq_some_iff.mpr hfield) hmapTo)
  rw [hnone] at hwritten
  cases hwritten

variable {e}

theorem present_of_orderIndependent (hall : OrderIndependent p raw spec) {e' : Enumeration}
    {rawFields' : RawFields} (hraw : raw ≠ [])
    (hbody : parseBody e (ofBytes raw) spec = .ok rawFields)
    (hbody' : parseBody e' (ofBytes raw) spec = .ok rawFields')
    {field : String × FieldSpec} (hfield : field ∈ spec.fields.entries) {w : Write}
    (hmay : MayWrite p raw spec rawFields field w) :
    ∃ field' ∈ spec.fields.entries, field'.2.mapTo = field.2.mapTo ∧
      MustWrite p rawFields' field' := by
  by_contra hnever
  push Not at hnever
  obtain ⟨choice₁, orders₁, hwrite⟩ := exists_steer_of_mayWrite e hfield hmay
  obtain ⟨choice, orders, hunwritten⟩ := exists_unwritten raw e' hnever
  have hsame := (agree_steer hall hraw hbody hbody' (KeyOrder.last (· == field.1)) .standing
    choice₁ choice orders₁ orders).2 field.2.mapTo
  rw [hwrite, hunwritten] at hsame
  cases hsame

/-- A raw field that a field may stand for, but that every field may pass by, is
unknown under some orders and not under others. -/
theorem onlyCandidate_of_orderIndependent (haccepted : Accepted spec)
    (hall : OrderIndependent p raw spec) (hraw : raw ≠ [])
    (hbody : parseBody e (ofBytes raw) spec = .ok rawFields) {k : String} {val : Value}
    (hget : rawFields.get? k = some val) {field : String × FieldSpec}
    (hfield : field ∈ spec.fields.entries) (hcandidate : Candidate p.unicode rawFields field.1 k) :
    ∃ field ∈ spec.fields.entries, ∀ k', Candidate p.unicode rawFields field.1 k' ↔ k' = k := by
  by_contra hnever
  push Not at hnever
  have haway : ∀ name, ∃ away, (∃ fieldSpec, (name, fieldSpec) ∈ spec.fields.entries) →
      Candidate p.unicode rawFields name k →
        Candidate p.unicode rawFields name away ∧ away ≠ k := by
    intro name
    by_cases hname : (∃ fieldSpec, (name, fieldSpec) ∈ spec.fields.entries) ∧
        Candidate p.unicode rawFields name k
    · obtain ⟨⟨fieldSpec, hmem⟩, hk⟩ := hname
      obtain ⟨k', ⟨hk', hne⟩ | ⟨hk', heq⟩⟩ := hnever (name, fieldSpec) hmem
      · exact ⟨k', fun _ _ => ⟨hk', hne⟩⟩
      · rw [heq] at hk'
        exact absurd hk hk'
    · exact ⟨k, fun hmem hk => absurd ⟨hmem, hk⟩ hname⟩
  choose away haway using haway
  have hsame := agree_steer hall hraw hbody hbody .standing .standing away (fun _ => k)
    (fun _ _ => []) (fun _ _ => [])
  have hunknown : (mapRawFields p (steer e .standing away fun _ _ => []) spec
      (ofBytes raw) rawFields).unknownFields.get? k = some val := by
    rw [get?_unknownFields_eq_some_iff haccepted.policy]
    refine ⟨?_, hget⟩
    intro field' hfield' hconsumes
    obtain ⟨val', hresolve⟩ := consumes_eq_some_iff.mp hconsumes
    obtain ⟨hcandidate', hne⟩ :=
      haway field'.1 ⟨field'.2, hfield'⟩ (candidate_of_resolve hresolve)
    obtain ⟨v, hv⟩ := Option.isSome_iff_exists.mp
      (Dict.mem_keys_iff.mp (mem_keys_of_candidate hcandidate'))
    rw [resolve_steer e .standing away _ hcandidate' hv] at hresolve
    cases hresolve
    exact hne rfl
  rw [hsame.1 k, get?_unknownFields_eq_some_iff haccepted.policy] at hunknown
  exact hunknown.1 field hfield (consumes_eq_some_iff.mpr
    ⟨val, resolve_steer e .standing (fun _ => k) _ hcandidate hget⟩)

theorem orderFree_of_orderIndependent (haccepted : Accepted spec)
    (hall : OrderIndependent p raw spec) : OrderFree p raw spec where
  unknown := by
    rintro rawFields ⟨hraw, e, hbody⟩ k val hget
    by_cases hsome : ∃ field ∈ spec.fields.entries, Candidate p.unicode rawFields field.1 k
    · obtain ⟨field, hfield, hcandidate⟩ := hsome
      exact Or.inl (onlyCandidate_of_orderIndependent haccepted hall hraw hbody hget hfield
        hcandidate)
    · push Not at hsome
      refine Or.inr ⟨hsome, ?_⟩
      rintro rawFields' ⟨-, e', hbody'⟩
      have hsame := (sameOutcome_iff hraw hbody hbody').mp (hall e e')
      have hunknown : (mapRawFields p e spec (ofBytes raw) rawFields).unknownFields.get? k =
          some val := by
        rw [get?_unknownFields_eq_some_iff haccepted.policy]
        refine ⟨fun field hfield hconsumes => ?_, hget⟩
        obtain ⟨val', hresolve⟩ := consumes_eq_some_iff.mp hconsumes
        exact hsome field hfield (candidate_of_resolve hresolve)
      rw [hsame.1 k, get?_unknownFields_eq_some_iff haccepted.policy] at hunknown
      exact hunknown.2
  agree := by
    rintro rawFields rawFields' ⟨hraw, e, hbody⟩ ⟨-, e', hbody'⟩ field hfield field' hfield' hpath
      w w' hmay hmay'
    obtain ⟨choice, orders, hwrite⟩ := exists_steer_of_mayWrite e hfield hmay
    obtain ⟨choice', orders', hwrite'⟩ := exists_steer_of_mayWrite e' hfield' hmay'
    have hlast := (agree_steer hall hraw hbody hbody' (KeyOrder.last (· == field.1))
      (KeyOrder.last (· == field'.1)) choice choice' orders orders').2 field.2.mapTo
    rw [hwrite, hpath, hwrite'] at hlast
    exact Option.some.inj hlast
  present := by
    rintro rawFields rawFields' ⟨hraw, e, hbody⟩ ⟨-, e', hbody'⟩ field hfield w hmay
    exact present_of_orderIndependent hall hraw hbody hbody' hfield hmay

end Necessary

/-- Exactly the payloads and specs that leave nothing to the orders of
enumeration have one result. -/
theorem orderIndependent_iff_orderFree (p : Platform) (raw : List UInt8) (spec : ValidSpec) :
    OrderIndependent p raw spec ↔ OrderFree p raw spec :=
  ⟨orderFree_of_orderIndependent spec.2, orderIndependent_of_orderFree spec.2⟩

def sharedPathSpec : ValidSpec :=
  ⟨plainSpec "key_value"
      [("a", plainField "string" "src.ip"), ("b", plainField "string" "src.ip")],
    (validateParserSpec_eq_ok_iff _).mp (by decide +kernel)⟩

/-- The field that is enumerated last decides what is extracted. -/
theorem not_orderIndependent_sharedPath :
    ¬ OrderIndependent Platform.plain (asciiBytes "a=1 b=2") sharedPathSpec := by
  intro hall
  have hbody : parseBody Enumeration.standing (ofBytes (asciiBytes "a=1 b=2"))
      sharedPathSpec.1 = .ok (Dict.ofList [("a", .str "1"), ("b", .str "2")]) := by
    decide +kernel
  have hsame := (sameOutcome_iff (by decide) hbody
    ((parseBody_steer _ (KeyOrder.last (· == "a")) (fun _ => "") (fun _ _ => []) _).trans
      hbody)).mp (hall _ _)
  have hlast := hsame.2 "src.ip"
  revert hlast
  decide +kernel

end Ulpf.ParserRuntime
