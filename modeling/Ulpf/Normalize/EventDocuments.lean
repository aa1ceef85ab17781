import Ulpf.Contracts.NormalizedEvent
import Ulpf.Lib.Rounding
import Ulpf.Normalize.Acceptance
import Ulpf.Python.Numerals

/-!
The documents `ToJSON` writes of valid events, as a Python reader finds them,
and which of them satisfy the contract of events: those with dotted addresses
and a time that every reader of RFC 3339 takes.
-/

namespace Ulpf.Normalize

open Ulpf.Lib
open Ulpf.Lib.Text
open Ulpf.Go
open Ulpf.Go.Time (Digits Moment Zone)
open Ulpf.Python
open Ulpf.Contracts

section Documents

/-- A number that zero leaves out, as it is written. -/
def omitZeroInt (key : String) (n : ℤ) : List (String × Value) :=
  if n = 0 then [] else [(key, .num (.int n))]

/-- The members of an endpoint that are not empty, as they are encoded. -/
def Endpoint.written (e : Endpoint) : List (String × Value) :=
  omitEmpty "ip" e.ip ++ omitZeroInt "port" e.port

/-- The members of the HTTP section that are not empty, as they are encoded. -/
def HTTPInfo.written (e : HTTPInfo) : List (String × Value) :=
  omitEmpty "method" e.method ++ omitZeroInt "status_code" e.statusCode ++ omitEmpty "url" e.url

/-- The object `json.Marshal` writes, with its numbers. -/
def NormalizedEvent.written (e : NormalizedEvent) : Value :=
  .obj ([("schema_version", .str e.schemaVersion), ("event_id", .str e.eventID),
      ("event", .obj [("class", .str e.event.eventClass), ("action", .str e.event.action),
        ("outcome", .str e.event.outcome), ("time", .str e.event.time)]),
      ("source", .obj [("vendor", .str e.source.vendor), ("product", .str e.source.product),
        ("device_id", .str e.source.deviceID)])] ++
    omitNil "src" Endpoint.written e.src ++ omitNil "dst" Endpoint.written e.dst ++
    omitNil "network" NetworkInfo.members e.network ++ omitNil "user" UserInfo.members e.user ++
    omitNil "device" DeviceInfo.members e.device ++ omitNil "http" HTTPInfo.written e.http ++
    omitNil "dns" DNSInfo.members e.dns ++ omitNil "alert" AlertInfo.members e.alert ++
    [("parser", .obj [("id", .str e.parser.id), ("version", .str e.parser.version)]),
      ("raw", .obj [("ref", .str e.raw.ref), ("sha256", .str e.raw.sha256)]),
      ("quality", .obj
        [("mapping_score", .num (.float64 (Binary64.ofMagnitude false e.quality.mappingScore))),
          ("status", .str e.quality.status)]),
      ("extensions", e.extensions.elim .null fun ext => .obj ext.entries)])

section Reading

variable {f : GoNum → GoNum} {key : String}

theorem mapNumMembers_append (xs ys : List (String × Value)) :
    Json.mapNumMembers f (xs ++ ys) = Json.mapNumMembers f xs ++ Json.mapNumMembers f ys := by
  rw [Json.mapNumMembers_eq, Json.mapNumMembers_eq, Json.mapNumMembers_eq, List.map_append]

theorem mapNumMembers_omitEmpty (s : String) :
    Json.mapNumMembers f (omitEmpty key s) = omitEmpty key s := by
  unfold omitEmpty
  split
  · rfl
  · rfl

theorem mapNumMembers_omitZeroInt (n : ℤ) :
    Json.mapNumMembers asFloat (omitZeroInt key n) = omitZero key n := by
  unfold omitZeroInt omitZero
  split
  · rfl
  · rfl

theorem mapNumMembers_omitNil {α : Type} {written members : α → List (String × Value)}
    (h : ∀ x, Json.mapNumMembers f (written x) = members x) (part : Option α) :
    Json.mapNumMembers f (omitNil key written part) = omitNil key members part := by
  cases part with
  | none => rfl
  | some x => simp [omitNil, Json.mapNumMembers, Json.mapNum, h]

theorem NormalizedEvent.toMap_eq (e : NormalizedEvent) : e.toMap = e.written.mapNum asFloat := by
  have hendpoint : ∀ x : Endpoint, Json.mapNumMembers asFloat x.written = x.members := by
    intro x
    rw [Endpoint.written, mapNumMembers_append, mapNumMembers_omitEmpty, mapNumMembers_omitZeroInt]
    rfl
  have hhttp : ∀ x : HTTPInfo, Json.mapNumMembers asFloat x.written = x.members := by
    intro x
    rw [HTTPInfo.written, mapNumMembers_append, mapNumMembers_append, mapNumMembers_omitEmpty,
      mapNumMembers_omitZeroInt, mapNumMembers_omitEmpty]
    rfl
  have hnetwork : ∀ x : NetworkInfo, Json.mapNumMembers asFloat x.members = x.members :=
    fun x => mapNumMembers_omitEmpty x.protocol
  have huser : ∀ x : UserInfo, Json.mapNumMembers asFloat x.members = x.members := fun x => by
    simp only [UserInfo.members, mapNumMembers_append, mapNumMembers_omitEmpty]
  have hdevice : ∀ x : DeviceInfo, Json.mapNumMembers asFloat x.members = x.members := fun x => by
    simp only [DeviceInfo.members, mapNumMembers_append, mapNumMembers_omitEmpty]
  have hdns : ∀ x : DNSInfo, Json.mapNumMembers asFloat x.members = x.members := fun x => by
    simp only [DNSInfo.members, mapNumMembers_append, mapNumMembers_omitEmpty]
  have halert : ∀ x : AlertInfo, Json.mapNumMembers asFloat x.members = x.members := fun x => by
    simp only [AlertInfo.members, mapNumMembers_append, mapNumMembers_omitEmpty]
  simp only [NormalizedEvent.toMap, NormalizedEvent.written, Json.mapNum, mapNumMembers_append,
    mapNumMembers_omitNil hendpoint, mapNumMembers_omitNil hnetwork, mapNumMembers_omitNil huser,
    mapNumMembers_omitNil hdevice, mapNumMembers_omitNil hhttp, mapNumMembers_omitNil hdns,
    mapNumMembers_omitNil halert, Json.mapNumMembers, asFloat]
  cases e.extensions with
  | none => rfl
  | some ext => simp only [Option.elim_some, Json.mapNum, Json.mapNumMembers_eq]

end Reading

/-- A number that JSON can write. -/
def finite : GoNum → Bool
  | .int _ | .int64 _ => true
  | .float64 x => x.toRat?.isSome

/-- `ToJSON`, which fails on an infinity and on what is no number. -/
def NormalizedEvent.toJSON (e : NormalizedEvent) : Option Value :=
  if e.written.numbers.all finite then some e.written else none

/-- A number of a JSON text that Go has written, as Python reads it: what is
written without a point and without an exponent is an integer. -/
def readNumber : GoNum → PyNum
  | .int n | .int64 n => .int n
  | .float64 x =>
      match x.toRat? with
      | some q => if q.den = 1 ∧ |q| < 10 ^ 21 then .int q.num else .float x
      | none => .float x

/-- The event as a Python reader of its text finds it. -/
def NormalizedEvent.read (e : NormalizedEvent) : PyVal := e.written.mapNum readNumber

end Documents

section Members

variable {P : String × Value → Prop} {key : String}

theorem forall_omitEmpty_iff {s : String} :
    (∀ m ∈ omitEmpty key s, P m) ↔ (s ≠ "" → P (key, .str s)) := by
  unfold omitEmpty
  split
  · simp_all
  · simp_all

theorem forall_omitZeroInt_iff {n : ℤ} :
    (∀ m ∈ omitZeroInt key n, P m) ↔ (n ≠ 0 → P (key, .num (.int n))) := by
  unfold omitZeroInt
  split
  · simp_all
  · simp_all

theorem forall_omitNil_iff {α : Type} {members : α → List (String × Value)} {part : Option α} :
    (∀ m ∈ omitNil key members part, P m) ↔ ∀ x ∈ part, P (key, .obj (members x)) := by
  cases part with
  | none => simp [omitNil]
  | some x => simp [omitNil]

theorem valid_read_obj_iff {required : List String} {properties : List (String × Contract PyNum)}
    {additional : Bool} {members : List (String × Value)} :
    (Contract.object required properties additional).valid
        ((Json.obj members).mapNum readNumber) = true ↔
      (∀ k ∈ required, k ∈ members.map Prod.fst) ∧
        ∀ m ∈ members, Contract.validMember additional properties m.1 (m.2.mapNum readNumber) =
          true := by
  rw [Json.mapNum, Json.mapNumMembers_eq, Contract.valid_object_iff, List.map_map,
    List.forall_mem_map]
  rfl

theorem valid_read_record_iff {required : List String}
    {properties : List (String × Contract PyNum)} {additional : Bool}
    {members : List (String × Value)} (h : ∀ k ∈ required, k ∈ members.map Prod.fst) :
    (Contract.object required properties additional).valid
        ((Json.obj members).mapNum readNumber) = true ↔
      ∀ m ∈ members, Contract.validMember additional properties m.1 (m.2.mapNum readNumber) =
        true := by
  rw [valid_read_obj_iff, and_iff_right h]

theorem valid_endpoint_iff {u : Unicode} {e : Endpoint} :
    (endpoint u).valid ((Json.obj e.written).mapNum readNumber) = true ↔
      (e.ip ≠ "" → isIpv4 u e.ip = true) ∧ (e.port ≠ 0 → 0 ≤ e.port ∧ e.port ≤ 65535) := by
  rw [endpoint, valid_read_obj_iff, Endpoint.written, List.forall_mem_append, forall_omitEmpty_iff,
    forall_omitZeroInt_iff, and_iff_right (List.forall_mem_nil _)]
  simp only [Contract.validMember_cons, String.reduceEq, if_true,
    if_false, Json.mapNum, readNumber, Contract.valid_string, Contract.valid_number, isInteger,
    Bool.and_eq_true, decide_eq_true_eq]

theorem valid_http {e : HTTPInfo} :
    httpInfo.valid ((Json.obj e.written).mapNum readNumber) = true := by
  rw [httpInfo, valid_read_obj_iff, HTTPInfo.written, List.forall_mem_append,
    List.forall_mem_append, forall_omitEmpty_iff, forall_omitZeroInt_iff, forall_omitEmpty_iff]
  simp [Json.mapNum, readNumber, isInteger]

theorem valid_texts_one {k : String} {s : String} :
    (texts [k]).valid ((Json.obj (omitEmpty k s)).mapNum readNumber) = true := by
  rw [texts, valid_read_obj_iff, forall_omitEmpty_iff]
  simp [Json.mapNum]

theorem valid_texts_three {k₁ k₂ k₃ s₁ s₂ s₃ : String} :
    (texts [k₁, k₂, k₃]).valid ((Json.obj (omitEmpty k₁ s₁ ++ omitEmpty k₂ s₂ ++
      omitEmpty k₃ s₃)).mapNum readNumber) = true := by
  rw [texts, valid_read_obj_iff, List.forall_mem_append, List.forall_mem_append,
    forall_omitEmpty_iff, forall_omitEmpty_iff, forall_omitEmpty_iff]
  simp [Json.mapNum]

end Members

section Addresses

variable {u : Unicode}

theorem mem_splitFrom {sep c : Char} (piece : List Char) {s : List Char} (hc : c ≠ sep)
    (h : c ∈ piece ∨ c ∈ s) : ∃ part ∈ splitFrom [sep] 0 piece s, c ∈ part := by
  induction s generalizing piece with
  | nil =>
      rcases h with h | h
      · exact ⟨piece.reverse, by simp [splitFrom], List.mem_reverse.mpr h⟩
      · cases h
  | cons d s ih =>
      rw [splitFrom]
      by_cases hd : sep = d
      · rw [if_pos (by simp [hd])]
        rcases h with h | h
        · exact ⟨piece.reverse, List.mem_cons_self, List.mem_reverse.mpr h⟩
        · rcases List.mem_cons.mp h with rfl | h
          · exact absurd hd.symm hc
          · obtain ⟨part, hpart, hmem⟩ := ih [] (.inr h)
            exact ⟨part, List.mem_cons_of_mem _ hpart, hmem⟩
      · rw [if_neg (by simp [hd])]
        apply ih
        rcases h with h | h
        · exact .inl (List.mem_cons_of_mem _ h)
        · rcases List.mem_cons.mp h with rfl | h
          · exact .inl List.mem_cons_self
          · exact .inr h

theorem of_mapM_eq_some {α β : Type} {f : α → Option β} {xs : List α} {ys : List β}
    (h : xs.mapM f = some ys) : xs.length = ys.length ∧ ∀ x ∈ xs, (f x).isSome = true := by
  induction xs generalizing ys with
  | nil =>
      cases h
      exact ⟨rfl, List.forall_mem_nil _⟩
  | cons x xs ih =>
      rw [List.mapM_cons] at h
      obtain ⟨y, hy, h⟩ := Option.bind_eq_some_iff.mp h
      obtain ⟨ys, hys, h⟩ := Option.bind_eq_some_iff.mp h
      cases h
      obtain ⟨hlength, hall⟩ := ih hys
      refine ⟨by simp [hlength], List.forall_mem_cons.mpr ⟨by rw [hy]; rfl, hall⟩⟩

theorem octet_of_parseOctet {ds : List Char} (h : (NetIP.parseOctet ds).isSome = true) :
    (String.ofList ds ≠ "" && (String.ofList ds).toList.all u.isDigit &&
      (Python.parseInt u (String.ofList ds)).any fun n => 0 ≤ n && n ≤ 255) = true := by
  obtain ⟨n, hn⟩ := Option.isSome_iff_exists.mp h
  obtain ⟨m, hm, hn⟩ := Option.bind_eq_some_iff.mp hn
  split at hn
  · cases hn
  · rename_i hrange
    simp only [not_or, not_and, List.isEmpty_iff, Nat.not_lt] at hrange
    obtain ⟨hne, hzero, hupper⟩ := hrange
    have hdigits : ∀ c ∈ ds, Text.isDigit c = true :=
      isSome_decimal?_iff.mp (by rw [hm]; rfl)
    have hdigit : ∀ c ∈ ds, u.isDigit c = true := by
      intro c hc
      rw [u.isDigit_ascii c (toNat_lt_of_isDigit (hdigits c hc)).1]
      exact hdigits c hc
    have hshort : ds.length ≤ 3 := by
      cases ds with
      | nil => simp
      | cons c ds =>
          by_contra hlong
          have hc : c ≠ '0' := by
            rintro rfl
            exact hzero (by omega) rfl
          have hpow : 10 ^ 3 ≤ 10 ^ ds.length :=
            Nat.pow_le_pow_right (by decide) (by rw [List.length_cons] at hlong; omega)
          have hle := le_of_decimal? hc hm
          omega
    have hvalue : Python.parseInt u (String.ofList ds) = some (m : ℤ) :=
      parseInt_digits hne hm (hshort.trans (by decide))
    rw [hvalue, String.toList_ofList]
    have hnonempty : String.ofList ds ≠ "" := by
      intro hempty
      apply hne
      rw [← String.toList_ofList (l := ds), hempty]
      rfl
    simp only [hnonempty, ne_eq, not_false_eq_true, decide_true, Bool.true_and, Bool.and_eq_true,
      List.all_eq_true, Option.any_some, decide_eq_true_eq]
    exact ⟨hdigit, by omega, by omega⟩

theorem not_isIpv4_of_colon {ip : String} (h : ':' ∈ ip.toList) : isIpv4 u ip = false := by
  obtain ⟨part, hpart, hcolon⟩ := mem_splitFrom [] (show ':' ≠ '.' by decide) (.inr h)
  have hdot : ".".toList = ['.'] := by decide
  rw [← Bool.not_eq_true, isIpv4, Bool.and_eq_true, List.all_eq_true]
  rintro ⟨-, hall⟩
  have hoctet := hall (String.ofList part) (by
    rw [split, hdot]
    exact List.mem_map_of_mem hpart)
  rw [Bool.and_eq_true, Bool.and_eq_true, List.all_eq_true, String.toList_ofList] at hoctet
  have hdigit := hoctet.1.2 ':' hcolon
  rw [u.isDigit_ascii ':' (by decide)] at hdigit
  exact absurd hdigit (by decide)

theorem exists_quad_of_parseIP {ip : String} (h : (NetIP.parseIP ip).isSome = true)
    (hcolon : ':' ∉ ip.toList) : ∃ quad, NetIP.parseIPv4 ip.toList = some quad := by
  obtain ⟨address, haddress⟩ := Option.isSome_iff_exists.mp h
  obtain ⟨groups, hgroups, -⟩ := Option.bind_eq_some_iff.mp haddress
  unfold NetIP.parseGroupsOf at hgroups
  split at hgroups
  · obtain ⟨quad, hquad, -⟩ := Option.map_eq_some_iff.mp hgroups
    exact ⟨quad, hquad⟩
  · rename_i hfind
    exact absurd (List.mem_of_find?_eq_some hfind) hcolon
  · cases hgroups

theorem isIpv4_iff {ip : String} (h : isOptionalIP ip = true) (hne : ip ≠ "") :
    isIpv4 u ip = true ↔ ':' ∉ ip.toList := by
  constructor
  · intro hip hcolon
    rw [not_isIpv4_of_colon hcolon] at hip
    cases hip
  · intro hcolon
    rw [isOptionalIP, Bool.or_eq_true, decide_eq_true_eq] at h
    obtain ⟨quad, hquad⟩ := exists_quad_of_parseIP (h.resolve_left hne) hcolon
    obtain ⟨octets, hoctets, hquad⟩ := Option.bind_eq_some_iff.mp hquad
    obtain ⟨hlength, hall⟩ := of_mapM_eq_some hoctets
    have hfour : octets.length = 4 := by
      split at hquad
      · rfl
      · cases hquad
    have hdot : ".".toList = ['.'] := by decide
    rw [isIpv4, split, hdot, Bool.and_eq_true, List.all_eq_true, List.forall_mem_map,
      List.length_map, hlength, hfour]
    exact ⟨rfl, fun part hpart => octet_of_parseOctet (hall part hpart)⟩

end Addresses

section Contract

/-- A time of RFC 3339 that Python reads too: of a year from 1 on, with an hour of
two digits and an offset below a day. -/
def PlainTime (time : String) : Prop :=
  ∃ (x : Moment) (zone : Zone), x.WellFormed ∧ zone.WellFormed ∧ x.HasDay ∧
    time.toList = x.text ++ zone.text ∧
    1 ≤ x.year ∧ x.hourText.length = 2 ∧ zone.minutesOff < 1440

theorem isDateTime_iff {l : Time.LocalZone} {time : String} (h : isRFC3339 l time = true) :
    isDateTime time = true ↔ PlainTime time := by
  constructor
  · intro hread
    obtain ⟨x, zone, hx, hzone, hday, htext⟩ := Time.exists_moment h
    exact ⟨x, zone, hx, hzone, hday, htext, (IsoFormat.readable_iff hx hzone hday htext).mp hread⟩
  · rintro ⟨x, zone, hx, hzone, hday, htext, hplain⟩
    exact (IsoFormat.readable_iff hx hzone hday htext).mpr hplain

/-- An endpoint without an address, or with one in the dotted form. -/
def Dotted (endpoint : Option Endpoint) : Prop := ∀ e ∈ endpoint, ':' ∉ e.ip.toList

theorem valid_endpoints_iff {u : Unicode} {part : Option Endpoint} (h : ValidEndpoint part) :
    (∀ e ∈ part, (endpoint u).valid ((Json.obj e.written).mapNum readNumber) = true) ↔
      Dotted part := by
  refine forall₂_congr fun e he => ?_
  obtain ⟨hip, hport⟩ := h e he
  rw [isPort, Bool.and_eq_true, decide_eq_true_eq, decide_eq_true_eq] at hport
  rw [valid_endpoint_iff, and_iff_left fun _ => hport]
  constructor
  · intro hvalid
    by_cases hne : e.ip = ""
    · simp [hne]
    · exact (isIpv4_iff hip hne).mp (hvalid hne)
  · intro hcolon hne
    exact (isIpv4_iff hip hne).mpr hcolon

theorem toRat?_ofMagnitude {q : ℚ} (h0 : 0 ≤ q) (h1 : q ≤ 1) :
    (Binary64.ofMagnitude false q).toRat? = some (Binary64.fl q) := by
  obtain ⟨-, hhigh⟩ := Binary64.fl_mem_Icc (q := q) ⟨h0, h1⟩
  rw [Binary64.ofMagnitude]
  by_cases hq : q = 0
  · rw [if_pos hq, hq, Binary64.fl_zero]
    rfl
  · have hnearest : Binary64.fl q = Binary64.nearest q := by
      rw [Binary64.fl, if_neg hq, if_pos (lt_of_le_of_ne h0 (Ne.symm hq))]
    have hlt : Binary64.nearest q < Binary64.pow2 1024 := by
      rw [← hnearest]
      exact lt_of_le_of_lt hhigh (by decide +kernel)
    rw [if_neg hq, if_pos hlt, hnearest]
    rfl

theorem isBetween_score {q : ℚ} (h0 : 0 ≤ q) (h1 : q ≤ 1) :
    isBetween 0 1 (readNumber (.float64 (Binary64.ofMagnitude false q))) = true := by
  obtain ⟨hlow, hhigh⟩ := Binary64.fl_mem_Icc (q := q) ⟨h0, h1⟩
  rw [readNumber, toRat?_ofMagnitude h0 h1]
  dsimp only
  split
  · rename_i hwhole
    have hnum : ((Binary64.fl q).num : ℚ) = Binary64.fl q := Rat.coe_int_num_of_den_eq_one hwhole.1
    simp only [isBetween, hnum, hlow, hhigh, decide_true, Bool.and_self]
  · rw [isBetween, toRat?_ofMagnitude h0 h1]
    simp [hlow, hhigh]

theorem valid_read_iff {u : Unicode} {l : Time.LocalZone} {e : NormalizedEvent}
    (hvalid : e.validate l = .ok ()) :
    (normalizedEvent u).valid e.read = true ↔
      Dotted e.src ∧ Dotted e.dst ∧ PlainTime e.event.time := by
  obtain ⟨hversion, hid, hevent, hsource, hsrc, hdst, hparser, hraw, hquality, hext⟩ :=
    NormalizedEvent.validate_eq_ok_iff.mp hvalid
  obtain ⟨hclass, haction, houtcome, htime⟩ := EventInfo.validate_eq_ok_iff.mp hevent
  obtain ⟨hparserID, hparserVersion⟩ := ParserMetadata.validate_eq_ok_iff.mp hparser
  obtain ⟨href, hsha⟩ := RawProvenance.validate_eq_ok_iff.mp hraw
  obtain ⟨ext, hextensions⟩ := Option.isSome_iff_exists.mp hext
  have hscore : (0 ≤ e.quality.mappingScore ∧ e.quality.mappingScore ≤ 1) ∧
      e.quality.status ∈ ["VERIFIED", "REVIEW_REQUIRED", "ABSTAINED"] := by
    simpa only [QualityReport.validate, ensure_bind_eq_ok_iff, ensure_eq_ok_iff,
      decide_eq_true_eq, Bool.and_eq_true, List.contains_iff_mem] using hquality
  have heventInfo : eventInfo.valid ((Json.obj [("class", .str e.event.eventClass),
      ("action", .str e.event.action), ("outcome", .str e.event.outcome),
      ("time", .str e.event.time)]).mapNum readNumber) = true ↔ PlainTime e.event.time := by
    rw [eventInfo, valid_read_record_iff (by simp), ← isDateTime_iff htime]
    simp only [List.forall_mem_cons, Contract.validMember_cons, String.reduceEq, if_true, if_false,
      Json.mapNum, Contract.valid_nonempty_iff, Contract.valid_oneOf_iff, Contract.valid_string]
    exact ⟨fun h => h.2.2.2.1, fun h => ⟨hclass, haction, houtcome, h, List.forall_mem_nil _⟩⟩
  have hsourceInfo : sourceInfo.valid ((Json.obj [("vendor", .str e.source.vendor),
      ("product", .str e.source.product), ("device_id", .str e.source.deviceID)]).mapNum
        readNumber) = true := by
    rw [sourceInfo, valid_read_record_iff (by simp)]
    simp [Json.mapNum]
  have hparserMetadata : parserMetadata.valid ((Json.obj [("id", .str e.parser.id),
      ("version", .str e.parser.version)]).mapNum readNumber) = true := by
    rw [parserMetadata, valid_read_record_iff (by simp)]
    simp [Json.mapNum, hparserID, hparserVersion]
  have hrawProvenance : rawProvenance.valid ((Json.obj [("ref", .str e.raw.ref),
      ("sha256", .str e.raw.sha256)]).mapNum readNumber) = true := by
    rw [rawProvenance, valid_read_record_iff (by simp)]
    simp [Json.mapNum, href, hsha]
  have hqualityReport : qualityReport.valid ((Json.obj [("mapping_score",
      .num (.float64 (Binary64.ofMagnitude false e.quality.mappingScore))),
      ("status", .str e.quality.status)]).mapNum readNumber) = true := by
    have hbetween := isBetween_score hscore.1.1 hscore.1.2
    rw [qualityReport, valid_read_record_iff (by simp)]
    simp only [List.forall_mem_cons, Contract.validMember_cons, String.reduceEq, if_true, if_false,
      Json.mapNum, Contract.valid_number, Contract.valid_oneOf_iff]
    exact ⟨hbetween, hscore.2, List.forall_mem_nil _⟩
  have hextensions' : (Contract.object [] [] true).valid
      ((Json.obj ext.entries).mapNum readNumber) = true := by
    rw [valid_read_record_iff (List.forall_mem_nil _)]
    intro m hm
    rw [Contract.validMember_nil]
  have hnetwork : ∀ x : NetworkInfo, (texts ["protocol"]).valid
      ((Json.obj x.members).mapNum readNumber) = true := fun x => valid_texts_one
  have huser : ∀ x : UserInfo, (texts ["name", "id", "domain"]).valid
      ((Json.obj x.members).mapNum readNumber) = true := fun x => valid_texts_three
  have hdevice : ∀ x : DeviceInfo, (texts ["hostname", "ip", "mac"]).valid
      ((Json.obj x.members).mapNum readNumber) = true := fun x => valid_texts_three
  have hdns : ∀ x : DNSInfo, (texts ["query_name", "query_type", "response_code"]).valid
      ((Json.obj x.members).mapNum readNumber) = true := fun x => valid_texts_three
  have halert : ∀ x : AlertInfo, (texts ["severity", "name", "category"]).valid
      ((Json.obj x.members).mapNum readNumber) = true := fun x => valid_texts_three
  rw [NormalizedEvent.read, NormalizedEvent.written, normalizedEvent, hextensions,
    valid_read_record_iff (by simp)]
  simp only [List.forall_mem_append, forall_omitNil_iff, List.forall_mem_cons,
    Contract.validMember_cons, String.reduceEq, if_true, if_false, valid_endpoints_iff hsrc,
    valid_endpoints_iff hdst, heventInfo, hsourceInfo, hparserMetadata, hrawProvenance,
    hqualityReport, hnetwork, huser, hdevice, hdns, halert, valid_http, Option.elim_some,
    hextensions', List.not_mem_nil, false_implies, implies_true, and_true]
  simp only [Json.mapNum, Contract.valid_string, hversion, hid, decide_true, true_and]
  constructor
  · rintro ⟨⟨htime, hsrc⟩, hdst⟩
    exact ⟨hsrc, hdst, htime⟩
  · rintro ⟨hsrc, hdst, htime⟩
    exact ⟨⟨htime, hsrc⟩, hdst⟩

/-- The document of an event, when it has one, satisfies the contract of events. -/
def SatisfiesContract (u : Unicode) (e : NormalizedEvent) : Prop :=
  ∀ doc ∈ e.toJSON, (normalizedEvent u).valid (doc.mapNum readNumber) = true

/-- An event that passes `Validate` and has a document satisfies the contract exactly
when its addresses are dotted and its time is plain. -/
theorem satisfiesContract_iff (u : Unicode) (l : Time.LocalZone) (e : NormalizedEvent)
    (hvalid : e.validate l = .ok ()) (hdoc : e.toJSON.isSome = true) :
    SatisfiesContract u e ↔ Dotted e.src ∧ Dotted e.dst ∧ PlainTime e.event.time := by
  have hwritten : e.toJSON = some e.written := by
    rw [NormalizedEvent.toJSON] at hdoc ⊢
    split at hdoc
    · rename_i hfinite
      rw [if_pos hfinite]
    · cases hdoc
  rw [← valid_read_iff hvalid, SatisfiesContract, hwritten]
  constructor
  · intro h
    exact h _ rfl
  · intro h doc hmem
    cases hmem
    exact h

/-- A denied connection between two addresses. -/
def connectionEvent (src dst time : String) : NormalizedEvent where
  schemaVersion := "1.0"
  eventID := "01ARZ3NDEKTSV4RRFFQ69G5FAV"
  event := ⟨"network", "connect", "failure", time⟩
  source := ⟨"Acme", "Firewall", "fw-1"⟩
  src := some ⟨src, 52000⟩
  dst := some ⟨dst, 443⟩
  network := some ⟨"tcp"⟩
  user := none
  device := none
  http := none
  dns := none
  alert := none
  parser := ⟨"acme.firewall", "1.0.0"⟩
  raw := ⟨"raw/01ARZ3NDEKTSV4RRFFQ69G5FAV",
    "e3b0c44298fc1c149afbf4c8996fb92427ae41e4649b934ca495991b7852b855"⟩
  quality := ⟨98 / 100, "VERIFIED"⟩
  extensions := some (Dict.ofList [("zone", .str "dmz")])

theorem satisfiesContract_iff_dotted :
    (connectionEvent "192.0.2.7" "198.51.100.9" "2026-01-05T10:00:00Z").validate
      Time.LocalZone.utc = .ok () ∧
    (SatisfiesContract Unicode.ascii
        (connectionEvent "192.0.2.7" "198.51.100.9" "2026-01-05T10:00:00Z") ↔
      Dotted (some ⟨"192.0.2.7", 52000⟩) ∧ Dotted (some ⟨"198.51.100.9", 443⟩) ∧
        PlainTime "2026-01-05T10:00:00Z") :=
  have hvalid : (connectionEvent "192.0.2.7" "198.51.100.9" "2026-01-05T10:00:00Z").validate
      Time.LocalZone.utc = .ok () := by decide +kernel
  ⟨hvalid, satisfiesContract_iff _ _ _ hvalid (by decide +kernel)⟩

/-- An address of the other family passes `Validate` and not the contract. -/
theorem not_satisfiesContract_colons :
    (connectionEvent "2001:db8::7" "198.51.100.9" "2026-01-05T10:00:00Z").validate
      Time.LocalZone.utc = .ok () ∧
    ¬ SatisfiesContract Unicode.ascii
      (connectionEvent "2001:db8::7" "198.51.100.9" "2026-01-05T10:00:00Z") := by
  have hvalid : (connectionEvent "2001:db8::7" "198.51.100.9" "2026-01-05T10:00:00Z").validate
      Time.LocalZone.utc = .ok () := by decide +kernel
  refine ⟨hvalid, fun hall => ?_⟩
  have hread := hall _ (Option.mem_def.mpr (by
    rw [NormalizedEvent.toJSON, if_pos (by decide +kernel)]))
  have hdotted := ((valid_read_iff hvalid).mp hread).1 _ rfl
  revert hdotted
  decide

end Contract

end Ulpf.Normalize
