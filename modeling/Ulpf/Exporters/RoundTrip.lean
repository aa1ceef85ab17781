import Ulpf.Exporters.Types
import Ulpf.ParserRuntime.BodyParsers

/-!
Which events come back from their JSON, and which a deep copy equals: those whose
extensions have no numbers but finite floats, whose strings are valid UTF-8 and that
are not nested too deeply.
-/

namespace Ulpf.Exporters.Types

open Ulpf.Lib
open Ulpf.Go
open Ulpf.ParserRuntime (maxNestingDepth parseSyslog)

section Equality

/-- The same value, whether extensions are nil included. -/
structure Extensions.Same (x y : Option Extensions) : Prop where
  isSome : x.isSome = y.isSome
  value : ∀ ext ∈ x, ∀ ext' ∈ y, ext.value.Same ext'.value

/-- `reflect.DeepEqual` of two events. -/
structure NormalizedEvent.Same (e e' : NormalizedEvent) : Prop where
  fields : { e with extensions := e'.extensions } = e'
  extensions : Extensions.Same e.extensions e'.extensions

theorem NormalizedEvent.Same.refl (e : NormalizedEvent) : e.Same e where
  fields := rfl
  extensions := ⟨rfl, by
    rintro ext hext ext' hext'
    rw [Option.mem_def] at hext hext'
    rw [hext] at hext'
    cases hext'
    exact Interface.Same.refl _⟩

end Equality

section Survival

variable (e : NormalizedEvent)

/-- The strings of an event outside of its extensions. -/
def NormalizedEvent.texts : List GoString :=
  [e.schemaVersion, e.eventID, e.event.eventClass, e.event.action, e.event.outcome, e.event.time,
    e.source.vendor, e.source.product, e.source.deviceID] ++
  e.src.elim [] (fun x => [x.ip]) ++ e.dst.elim [] (fun x => [x.ip]) ++
  e.network.elim [] (fun x => [x.protocol]) ++
  e.user.elim [] (fun x => [x.name, x.id, x.domain]) ++
  e.device.elim [] (fun x => [x.hostname, x.ip, x.mac]) ++
  e.http.elim [] (fun x => [x.method, x.url]) ++
  e.dns.elim [] (fun x => [x.queryName, x.queryType, x.responseCode]) ++
  e.alert.elim [] (fun x => [x.severity, x.name, x.category]) ++
  [e.parser.id, e.parser.version, e.raw.ref, e.raw.sha256, e.quality.status]

/-- The events that JSON can carry. -/
structure NormalizedEvent.Portable : Prop where
  texts : ∀ s ∈ e.texts, utf8Valid s = true
  score : e.quality.mappingScore.toRat?.isSome = true
  extensions : ∀ ext ∈ e.extensions, ext.value.Lossless
  depth : ∀ ext ∈ e.extensions, ext.value.depth < maxNestingDepth

variable {e}

theorem forall_elim_iff {α β : Type} {P : β → Prop} {f : α → List β} {x : Option α} :
    (∀ s ∈ x.elim [] f, P s) ↔ ∀ y ∈ x, ∀ s ∈ f y, P s := by
  cases x with
  | none => simp
  | some y => simp

theorem lossless_codec_iff : NormalizedEvent.codec.codec.Lossless e ↔
    (∀ s ∈ e.texts, utf8Valid s = true) ∧ e.quality.mappingScore.toRat?.isSome = true ∧
      ∀ ext ∈ e.extensions, ext.value.Lossless := by
  simp only [StructCodec.lossless_codec_iff, NormalizedEvent.codec, EventInfo.codec,
    SourceInfo.codec, Endpoint.codec, NetworkInfo.codec, UserInfo.codec, DeviceInfo.codec,
    HTTPInfo.codec, DNSInfo.codec, AlertInfo.codec, ParserMetadata.codec, RawProvenance.codec,
    QualityReport.codec, FieldCodec.text, FieldCodec.optionalText, FieldCodec.optionalInteger,
    FieldCodec.float, FieldCodec.nested, FieldCodec.optional, extensionsField,
    List.forall_mem_cons, Codec.lossless_text_iff, Codec.lossless_integer, Codec.lossless_float_iff,
    Codec.lossless_pointer_iff, Extensions.lossless_codec_iff, NormalizedEvent.texts,
    List.forall_mem_append, forall_elim_iff, List.not_mem_nil, false_implies, implies_true,
    and_true, true_and, and_assoc]
  rw [and_left_comm (a := e.quality.mappingScore.toRat?.isSome = true)]

theorem shallow_fields : ∀ f ∈ NormalizedEvent.codec.fields.dropLast, f.codec.Shallow 1 := by
  have hevent : EventInfo.codec.codec.Shallow 1 :=
    StructCodec.shallow (by simp [EventInfo.codec, Codec.shallow_text])
  have hsource : SourceInfo.codec.codec.Shallow 1 :=
    StructCodec.shallow (by simp [SourceInfo.codec, Codec.shallow_text])
  have hendpoint : Endpoint.codec.codec.Shallow 1 :=
    StructCodec.shallow (by simp [Endpoint.codec, Codec.shallow_text, Codec.shallow_integer])
  have hnetwork : NetworkInfo.codec.codec.Shallow 1 :=
    StructCodec.shallow (by simp [NetworkInfo.codec, Codec.shallow_text])
  have huser : UserInfo.codec.codec.Shallow 1 :=
    StructCodec.shallow (by simp [UserInfo.codec, Codec.shallow_text])
  have hdevice : DeviceInfo.codec.codec.Shallow 1 :=
    StructCodec.shallow (by simp [DeviceInfo.codec, Codec.shallow_text])
  have hhttp : HTTPInfo.codec.codec.Shallow 1 :=
    StructCodec.shallow (by simp [HTTPInfo.codec, Codec.shallow_text, Codec.shallow_integer])
  have hdns : DNSInfo.codec.codec.Shallow 1 :=
    StructCodec.shallow (by simp [DNSInfo.codec, Codec.shallow_text])
  have halert : AlertInfo.codec.codec.Shallow 1 :=
    StructCodec.shallow (by simp [AlertInfo.codec, Codec.shallow_text])
  have hparser : ParserMetadata.codec.codec.Shallow 1 :=
    StructCodec.shallow (by simp [ParserMetadata.codec, Codec.shallow_text])
  have hraw : RawProvenance.codec.codec.Shallow 1 :=
    StructCodec.shallow (by simp [RawProvenance.codec, Codec.shallow_text])
  have hquality : QualityReport.codec.codec.Shallow 1 :=
    StructCodec.shallow (by simp [QualityReport.codec, Codec.shallow_text, Codec.shallow_float])
  simp [NormalizedEvent.codec, Codec.shallow_text, Codec.shallow_pointer, *]

theorem depth_toJSON_iff {doc : Document} (hdoc : e.toJSON = some doc)
    (hext : ∀ ext ∈ e.extensions, ext.value.Lossless) :
    doc.depth ≤ maxNestingDepth ↔ ∀ ext ∈ e.extensions, ext.value.depth < maxNestingDepth := by
  have hlast : NormalizedEvent.codec.fields =
      NormalizedEvent.codec.fields.dropLast ++ [extensionsField] := rfl
  rw [show maxNestingDepth = 9999 + 1 from rfl, StructCodec.depth_le_iff hdoc]
  constructor
  · intro h ext hmem
    have hwritten : extensionsField ∈ NormalizedEvent.codec.written e := by
      rw [StructCodec.written, List.mem_filter, hlast]
      exact ⟨List.mem_append_right _ List.mem_cons_self, rfl⟩
    obtain ⟨d, hd, -⟩ := Interface.unmarshal_marshal (hext ext hmem) ext.distinct_value
    have hwrite : extensionsField.codec.write (extensionsField.get e) = some d := by
      show Extensions.codec.write e.extensions = some d
      rw [Option.mem_def.mp hmem]
      exact hd
    rw [← Interface.depth_of_marshal hd]
    exact Nat.lt_succ_of_le (h _ hwritten d hwrite)
  · intro h f hf d hd
    rw [StructCodec.written, List.mem_filter, hlast, List.mem_append] at hf
    rcases hf.1 with hother | hlast
    · exact (shallow_fields f hother _ d hd).trans (by decide)
    · rw [List.mem_singleton] at hlast
      subst hlast
      have hwrite : e.extensions.elim (some .null) (fun ext => ext.value.marshal) = some d := hd
      cases hextensions : e.extensions with
      | none =>
          rw [hextensions] at hwrite
          cases hwrite
          exact Nat.zero_le _
      | some ext =>
          rw [hextensions] at hwrite
          rw [Interface.depth_of_marshal hwrite]
          exact Nat.le_of_lt_succ (h ext hextensions)

end Survival

section RoundTrip

variable {u : Unicode} {l : Time.LocalZone} {e : NormalizedEvent}

theorem NormalizedEvent.Portable.unmarshal (h : e.Portable) :
    ∃ doc, e.toJSON = some doc ∧ ∀ u, Types.unmarshal u doc = some e := by
  obtain ⟨doc, hdoc, hback⟩ := NormalizedEvent.codec.codec.read_write
    (lossless_codec_iff.mpr ⟨h.texts, h.score, h.extensions⟩)
  refine ⟨doc, hdoc, fun u => ?_⟩
  rw [Types.unmarshal, if_pos ((depth_toJSON_iff hdoc h.extensions).mpr h.depth)]
  exact hback u

/-- Only a portable event is the same as one that was read from its document. -/
theorem portable_of_unmarshal {doc : Document} {e' : NormalizedEvent} (hdoc : e.toJSON = some doc)
    (hread : unmarshal u doc = some e') (hsame : e.Same e') : e.Portable := by
  rw [unmarshal, Option.ite_none_right_eq_some] at hread
  obtain ⟨hdepth, hread⟩ := hread
  obtain ⟨htexts, hscore, hext⟩ := lossless_codec_iff.mp
    (NormalizedEvent.codec.codec.lossless_read NormalizedEvent.codec.codec.lossless_zero hread)
  have hfields := hsame.fields
  have hextensions : ∀ ext ∈ e.extensions, ext.value.Lossless := by
    intro ext hmem
    have hsome : e'.extensions.isSome = true := by
      rw [← hsame.extensions.isSome, Option.mem_def.mp hmem]
      rfl
    obtain ⟨ext', hmem'⟩ := Option.isSome_iff_exists.mp hsome
    exact (hsame.extensions.value ext hmem ext' hmem').lossless (hext ext' hmem')
  refine ⟨?_, ?_, hextensions, (depth_toJSON_iff hdoc hextensions).mp hdepth⟩
  · have htextsEq : e.texts = e'.texts := by
      rw [← hfields]
      rfl
    rw [htextsEq]
    exact htexts
  · have hscoreEq : e.quality = e'.quality := by
      rw [← hfields]
    rw [hscoreEq]
    exact hscore

variable (u l e)

/-- `FromJSON` of the document of `ToJSON` gives the event back. -/
def NormalizedEvent.ComesBack : Prop :=
  ∃ doc e', e.toJSON = some doc ∧ fromJSON u l doc = .ok e' ∧ e.Same e'

/-- `DeepCopy` gives an equal event. -/
def NormalizedEvent.IsCopied : Prop := ∃ e', e.deepCopy u = some e' ∧ e.Same e'

variable {u l e}

theorem portable_of_comesBack (h : e.ComesBack u l) : e.Portable := by
  obtain ⟨doc, e', hdoc, hfrom, hsame⟩ := h
  rw [fromJSON] at hfrom
  split at hfrom
  · cases hfrom
  · rename_i read hread
    cases hcheck : read.validate l with
    | error err =>
        rw [hcheck] at hfrom
        cases hfrom
    | ok _ =>
        rw [hcheck] at hfrom
        cases hfrom
        exact portable_of_unmarshal hdoc hread hsame

theorem portable_of_isCopied (hvalid : e.validate l = .ok ()) (h : e.IsCopied u) : e.Portable := by
  obtain ⟨copy, hcopy, hsame⟩ := h
  obtain ⟨doc, hdoc, rfl⟩ := Option.map_eq_some_iff.mp hcopy
  cases hread : unmarshal u doc with
  | some e' =>
      rw [hread] at hsame
      exact portable_of_unmarshal hdoc hread hsame
  | none =>
      -- the copy is the zero event, and a valid event has a version
      rw [hread] at hsame
      have hversion : e.schemaVersion = [] := congrArg NormalizedEvent.schemaVersion hsame.fields
      rw [NormalizedEvent.validate, hversion] at hvalid
      cases hvalid

variable (u l e)

/-- A valid event comes back from its JSON, and is copied, exactly when it is portable. -/
theorem comesBack_iff_and_isCopied_iff (hvalid : e.validate l = .ok ()) :
    (e.ComesBack u l ↔ e.Portable) ∧ (e.IsCopied u ↔ e.Portable) := by
  refine ⟨⟨portable_of_comesBack, fun h => ?_⟩, portable_of_isCopied hvalid, fun h => ?_⟩
  · obtain ⟨doc, hdoc, hread⟩ := h.unmarshal
    refine ⟨doc, e, hdoc, ?_, .refl e⟩
    simp only [fromJSON, hread u, hvalid]
    rfl
  · obtain ⟨doc, hdoc, hread⟩ := h.unmarshal
    refine ⟨e, ?_, .refl e⟩
    rw [NormalizedEvent.deepCopy, hdoc, Option.map_some, hread u]
    rfl

end RoundTrip

section Priority

/-- A failed login with one extension. -/
def loginEvent (key : String) (x : Interface) (hx : x.Distinct) : NormalizedEvent where
  schemaVersion := utf8 "1.0"
  eventID := utf8 "01ARZ3NDEKTSV4RRFFQ69G5FAV"
  event := ⟨utf8 "authentication", utf8 "login", utf8 "failure", utf8 "2026-01-05T10:00:00Z"⟩
  source := ⟨utf8 "Acme", utf8 "Host", utf8 "host-1"⟩
  src := none
  dst := none
  network := none
  user := some ⟨utf8 "alice", [], []⟩
  device := none
  http := none
  dns := none
  alert := none
  parser := ⟨utf8 "acme.host", utf8 "1.0.0"⟩
  raw := ⟨utf8 "raw/01ARZ3NDEKTSV4RRFFQ69G5FAV",
    utf8 "e3b0c44298fc1c149afbf4c8996fb92427ae41e4649b934ca495991b7852b855"⟩
  quality := ⟨.finite false 1, utf8 "VERIFIED"⟩
  extensions := some (Extensions.empty.update [(utf8 key, x)] fun m hm => by
    rw [List.mem_singleton.mp hm]
    exact hx)

theorem validate_loginEvent_word :
    (loginEvent "app_name" (.string (utf8 "su")) trivial).validate Time.LocalZone.utc = .ok () := by
  decide +kernel

theorem comesBack_iff_and_isCopied_iff_word :
    ((loginEvent "app_name" (.string (utf8 "su")) trivial).ComesBack Unicode.ascii
        Time.LocalZone.utc ↔ (loginEvent "app_name" (.string (utf8 "su")) trivial).Portable) ∧
      ((loginEvent "app_name" (.string (utf8 "su")) trivial).IsCopied Unicode.ascii ↔
        (loginEvent "app_name" (.string (utf8 "su")) trivial).Portable) :=
  comesBack_iff_and_isCopied_iff Unicode.ascii Time.LocalZone.utc _ validate_loginEvent_word

/-- The facility that `ParseSyslog` found, an `int`, comes back as a float. -/
theorem not_comesBack_loginEvent_facility :
    ¬ ∀ (u : Unicode) (l : Time.LocalZone) (e : NormalizedEvent), e.validate l = .ok () →
      e.ComesBack u l ∧ e.IsCopied u := by
  intro hall
  have hvalid : (loginEvent "facility" (.int 4) trivial).validate Time.LocalZone.utc = .ok () := by
    decide +kernel
  have hportable := portable_of_comesBack (hall Unicode.ascii _ _ hvalid).1
  have hlossless := hportable.extensions _ rfl
  exact hlossless.1.2

end Priority

end Ulpf.Exporters.Types
