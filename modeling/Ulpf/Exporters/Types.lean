import Ulpf.Go.Codec
import Ulpf.Normalize.CanonicalIR

/-!
`types.go`: the event as the exporters hold it, with the bytes of its strings and
the sizes of its numbers, its checks, and its way through JSON.
-/

namespace Ulpf.Exporters.Types

open Ulpf.Lib
open Ulpf.Go
open Ulpf.Normalize (eventIDRegex sha256Regex isRFC3339 isOptionalIP)
open Ulpf.ParserRuntime (matchString semverRegex maxNestingDepth)

/-- `EventInfo`: the kind of an event and its time. -/
structure EventInfo where
  eventClass : GoString
  action : GoString
  outcome : GoString
  time : GoString

structure SourceInfo where
  vendor : GoString
  product : GoString
  deviceID : GoString

/-- `Endpoint`: one side of a connection. -/
structure Endpoint where
  ip : GoString
  port : Int64

structure NetworkInfo where
  protocol : GoString

structure UserInfo where
  name : GoString
  id : GoString
  domain : GoString

structure DeviceInfo where
  hostname : GoString
  ip : GoString
  mac : GoString

structure HTTPInfo where
  method : GoString
  statusCode : Int64
  url : GoString

structure DNSInfo where
  queryName : GoString
  queryType : GoString
  responseCode : GoString

structure AlertInfo where
  severity : GoString
  name : GoString
  category : GoString

/-- `ParserMetadata`: the parser that made the event. -/
structure ParserMetadata where
  id : GoString
  version : GoString

/-- `RawProvenance`: where the raw event is stored, and its digest. -/
structure RawProvenance where
  ref : GoString
  sha256 : GoString

/-- `QualityReport`: the score of the mapping and what became of it. -/
structure QualityReport where
  mappingScore : Binary64
  status : GoString

/-- A `map[string]interface{}`. -/
structure Extensions where
  entries : Dict GoString Interface
  distinct : ∀ m ∈ entries.entries, m.2.Distinct

/-- `NormalizedEvent`. A missing part is a nil pointer, missing extensions are a
nil map. -/
structure NormalizedEvent where
  schemaVersion : GoString
  eventID : GoString
  event : EventInfo
  source : SourceInfo
  src : Option Endpoint
  dst : Option Endpoint
  network : Option NetworkInfo
  user : Option UserInfo
  device : Option DeviceInfo
  http : Option HTTPInfo
  dns : Option DNSInfo
  alert : Option AlertInfo
  parser : ParserMetadata
  raw : RawProvenance
  quality : QualityReport
  extensions : Option Extensions

/-- The errors of `Validate`, each with what its text names. -/
inductive EventError where
  | malformed
  | invalidSchemaVersion (version : GoString)
  | invalidEventID (id : GoString)
  | required (field : String)
  | invalidOutcome (outcome : GoString)
  | invalidTime (time : GoString)
  | invalidIP (field : String) (ip : GoString)
  | invalidPort (field : String) (port : Int64)
  | invalidParserVersion (version : GoString)
  | invalidRawSHA256 (digest : GoString)
  | invalidMappingScore (score : Binary64)
  | invalidQualityStatus (status : GoString)
  | nilExtensions
  deriving DecidableEq

section Validation

/-- A check of `Validate` with the error it returns. -/
def ensure (ok : Bool) (e : EventError) : Except EventError Unit := if ok then .ok () else .error e

/-- The checks of an endpoint that is there: its address and its port. -/
def validateEndpoint (side : String) : Option Endpoint → Except EventError Unit
  | none => .ok ()
  | some e => do
      ensure (isOptionalIP (ofBytes e.ip)) (.invalidIP (side ++ ".ip") e.ip)
      ensure (0 ≤ e.port.toInt && e.port.toInt ≤ 65535) (.invalidPort (side ++ ".port") e.port)

/-- Neither below zero nor above one; what is no number is neither. -/
def isScore : Binary64 → Bool
  | .nan => true
  | x => x.toRat?.any fun q => 0 ≤ q && q ≤ 1

/-- `Validate` -/
def NormalizedEvent.validate (l : Time.LocalZone) (e : NormalizedEvent) :
    Except EventError Unit := do
  ensure (e.schemaVersion = utf8 "1.0") (.invalidSchemaVersion e.schemaVersion)
  ensure (matchString eventIDRegex (ofBytes e.eventID)) (.invalidEventID e.eventID)
  ensure (e.event.eventClass ≠ []) (.required "event.class")
  ensure (e.event.action ≠ []) (.required "event.action")
  ensure (["success", "failure", "unknown"].any fun s => e.event.outcome = utf8 s)
    (.invalidOutcome e.event.outcome)
  ensure (isRFC3339 l (ofBytes e.event.time)) (.invalidTime e.event.time)
  ensure (e.source.vendor ≠ []) (.required "source.vendor")
  ensure (e.source.product ≠ []) (.required "source.product")
  ensure (e.source.deviceID ≠ []) (.required "source.device_id")
  validateEndpoint "src" e.src
  validateEndpoint "dst" e.dst
  ensure (e.parser.id ≠ []) (.required "parser.id")
  ensure (matchString semverRegex (ofBytes e.parser.version))
    (.invalidParserVersion e.parser.version)
  ensure (e.raw.ref ≠ []) (.required "raw.ref")
  ensure (matchString sha256Regex (ofBytes e.raw.sha256)) (.invalidRawSHA256 e.raw.sha256)
  ensure (isScore e.quality.mappingScore) (.invalidMappingScore e.quality.mappingScore)
  ensure (["VERIFIED", "REVIEW_REQUIRED", "ABSTAINED"].any fun s => e.quality.status = utf8 s)
    (.invalidQualityStatus e.quality.status)
  ensure e.extensions.isSome .nilExtensions

end Validation

section Tags

def EventInfo.codec : StructCodec EventInfo where
  zero := ⟨[], [], [], []⟩
  fields :=
    [.text "class" (·.eventClass) fun x e => { e with eventClass := x },
     .text "action" (·.action) fun x e => { e with action := x },
     .text "outcome" (·.outcome) fun x e => { e with outcome := x },
     .text "time" (·.time) fun x e => { e with time := x }]

def SourceInfo.codec : StructCodec SourceInfo where
  zero := ⟨[], [], []⟩
  fields :=
    [.text "vendor" (·.vendor) fun x e => { e with vendor := x },
     .text "product" (·.product) fun x e => { e with product := x },
     .text "device_id" (·.deviceID) fun x e => { e with deviceID := x }]

def Endpoint.codec : StructCodec Endpoint where
  zero := ⟨[], 0⟩
  fields :=
    [.optionalText "ip" (·.ip) fun x e => { e with ip := x },
     .optionalInteger "port" (·.port) fun x e => { e with port := x }]

def NetworkInfo.codec : StructCodec NetworkInfo where
  zero := ⟨[]⟩
  fields := [.optionalText "protocol" (·.protocol) fun x e => { e with protocol := x }]

def UserInfo.codec : StructCodec UserInfo where
  zero := ⟨[], [], []⟩
  fields :=
    [.optionalText "name" (·.name) fun x e => { e with name := x },
     .optionalText "id" (·.id) fun x e => { e with id := x },
     .optionalText "domain" (·.domain) fun x e => { e with domain := x }]

def DeviceInfo.codec : StructCodec DeviceInfo where
  zero := ⟨[], [], []⟩
  fields :=
    [.optionalText "hostname" (·.hostname) fun x e => { e with hostname := x },
     .optionalText "ip" (·.ip) fun x e => { e with ip := x },
     .optionalText "mac" (·.mac) fun x e => { e with mac := x }]

def HTTPInfo.codec : StructCodec HTTPInfo where
  zero := ⟨[], 0, []⟩
  fields :=
    [.optionalText "method" (·.method) fun x e => { e with method := x },
     .optionalInteger "status_code" (·.statusCode) fun x e => { e with statusCode := x },
     .optionalText "url" (·.url) fun x e => { e with url := x }]

def DNSInfo.codec : StructCodec DNSInfo where
  zero := ⟨[], [], []⟩
  fields :=
    [.optionalText "query_name" (·.queryName) fun x e => { e with queryName := x },
     .optionalText "query_type" (·.queryType) fun x e => { e with queryType := x },
     .optionalText "response_code" (·.responseCode) fun x e => { e with responseCode := x }]

def AlertInfo.codec : StructCodec AlertInfo where
  zero := ⟨[], [], []⟩
  fields :=
    [.optionalText "severity" (·.severity) fun x e => { e with severity := x },
     .optionalText "name" (·.name) fun x e => { e with name := x },
     .optionalText "category" (·.category) fun x e => { e with category := x }]

def ParserMetadata.codec : StructCodec ParserMetadata where
  zero := ⟨[], []⟩
  fields :=
    [.text "id" (·.id) fun x e => { e with id := x },
     .text "version" (·.version) fun x e => { e with version := x }]

def RawProvenance.codec : StructCodec RawProvenance where
  zero := ⟨[], []⟩
  fields :=
    [.text "ref" (·.ref) fun x e => { e with ref := x },
     .text "sha256" (·.sha256) fun x e => { e with sha256 := x }]

def QualityReport.codec : StructCodec QualityReport where
  zero := ⟨.finite false 0, []⟩
  fields :=
    [.float "mapping_score" (·.mappingScore) fun x e => { e with mappingScore := x },
     .text "status" (·.status) fun x e => { e with status := x }]

end Tags

namespace Extensions

def empty : Extensions := ⟨Dict.empty, List.forall_mem_nil _⟩

/-- Extensions after some more assignments. -/
def update (ext : Extensions) (entries : List (GoString × Interface))
    (h : ∀ m ∈ entries, m.2.Distinct) : Extensions :=
  ⟨ext.entries.update entries, fun m hm =>
    (Dict.mem_of_mem_update hm).elim (h m) (ext.distinct m)⟩

/-- `null` empties the map, an object adds its members to it. -/
def read (prior : Option Extensions) : Document → Option (Option Extensions)
  | .null => some none
  | .obj members =>
      match h : Interface.unmarshalMembers members with
      | some entries => some (some ((prior.getD empty).update entries fun m hm =>
          (Interface.lossless_unmarshalMembers h m hm).2.2))
      | none => none
  | _ => none

theorem exists_entries_of_read {prior : Option Extensions} {members : List (String × Document)}
    {x : Option Extensions} (h : read prior (.obj members) = some x) :
    ∃ entries hdistinct, Interface.unmarshalMembers members = some entries ∧
      x = some ((prior.getD empty).update entries hdistinct) := by
  rw [read] at h
  split at h
  · rename_i entries hentries
    cases h
    exact ⟨entries, _, hentries, rfl⟩
  · cases h

theorem read_of_entries (prior : Option Extensions) {members : List (String × Document)}
    {entries : List (GoString × Interface)}
    (h : Interface.unmarshalMembers members = some entries) :
    ∃ hdistinct, read prior (.obj members) =
      some (some ((prior.getD empty).update entries hdistinct)) := by
  rw [read]
  split
  · rename_i entries' hentries'
    rw [h] at hentries'
    cases hentries'
    exact ⟨fun m hm => (Interface.lossless_unmarshalMembers h m hm).2.2, rfl⟩
  · rename_i hnone
    rw [h] at hnone
    cases hnone

def value (ext : Extensions) : Interface := .map ext.entries.entries

theorem distinct_value (ext : Extensions) : ext.value.Distinct := by
  rw [value, Interface.Distinct, Interface.distinctMembers_iff]
  exact ⟨ext.entries.nodup, ext.distinct⟩

/-- `map[string]interface{}` -/
def codec : Codec (Option Extensions) where
  zero := none
  write x := x.elim (some .null) fun ext => ext.value.marshal
  read _ := read
  Lossless x := ∀ ext ∈ x, ext.value.Lossless
  lossless_zero := by
    intro ext hext
    cases hext
  lossless_read {_ prior doc x} hprior h := by
    cases doc with
    | null =>
        cases h
        intro ext hext
        cases hext
    | obj members =>
        obtain ⟨entries, hdistinct, hentries, rfl⟩ := exists_entries_of_read h
        rintro ext ⟨⟩
        rw [value, Interface.Lossless, Interface.losslessMembers_iff]
        intro m hm
        rcases Dict.mem_of_mem_update hm with hnew | hold
        · obtain ⟨hkey, hlossless, -⟩ := Interface.lossless_unmarshalMembers hentries m hnew
          exact ⟨hkey, hlossless⟩
        · cases prior with
          | none => cases hold
          | some ext =>
              have hext := hprior ext rfl
              rw [value, Interface.Lossless, Interface.losslessMembers_iff] at hext
              exact hext m hold
    | _ => cases h
  read_write {x} h := by
    cases x with
    | none => exact ⟨.null, rfl, fun _ => rfl⟩
    | some ext =>
        obtain ⟨doc, hdoc, hback⟩ := Interface.unmarshal_marshal (h ext rfl) ext.distinct_value
        obtain ⟨members, -, rfl⟩ := Option.map_eq_some_iff.mp hdoc
        obtain ⟨entries, hentries, heq⟩ := Option.map_eq_some_iff.mp hback
        obtain ⟨hdistinct, hread⟩ := read_of_entries none hentries
        refine ⟨.obj members, hdoc, fun _ => ?_⟩
        rw [hread]
        cases ext with
        | mk dict _ =>
            have hdict : Dict.ofList entries = dict := by
              injection heq with heq
              exact Dict.ext_entries heq
            subst hdict
            rfl

theorem lossless_codec_iff {x : Option Extensions} :
    codec.Lossless x ↔ ∀ ext ∈ x, ext.value.Lossless := Iff.rfl

@[simp] theorem zero_codec : codec.zero = none := rfl

end Extensions

/-- The extensions, written also when they are nil. -/
@[simp] def extensionsField : FieldCodec NormalizedEvent :=
  ⟨"extensions", fun _ => false, Extensions.codec, (·.extensions),
    fun x e => { e with extensions := x }⟩

/-- The members of an event, in the order of the struct; the optional sections are pointers. -/
def NormalizedEvent.codec : StructCodec NormalizedEvent where
  zero := ⟨[], [], EventInfo.codec.zero, SourceInfo.codec.zero, none, none, none, none, none, none,
    none, none, ParserMetadata.codec.zero, RawProvenance.codec.zero, QualityReport.codec.zero, none⟩
  fields :=
    [.text "schema_version" (·.schemaVersion) fun x e => { e with schemaVersion := x },
     .text "event_id" (·.eventID) fun x e => { e with eventID := x },
     .nested "event" EventInfo.codec (·.event) fun x e => { e with event := x },
     .nested "source" SourceInfo.codec (·.source) fun x e => { e with source := x },
     .optional "src" Endpoint.codec (·.src) fun x e => { e with src := x },
     .optional "dst" Endpoint.codec (·.dst) fun x e => { e with dst := x },
     .optional "network" NetworkInfo.codec (·.network) fun x e => { e with network := x },
     .optional "user" UserInfo.codec (·.user) fun x e => { e with user := x },
     .optional "device" DeviceInfo.codec (·.device) fun x e => { e with device := x },
     .optional "http" HTTPInfo.codec (·.http) fun x e => { e with http := x },
     .optional "dns" DNSInfo.codec (·.dns) fun x e => { e with dns := x },
     .optional "alert" AlertInfo.codec (·.alert) fun x e => { e with alert := x },
     .nested "parser" ParserMetadata.codec (·.parser) fun x e => { e with parser := x },
     .nested "raw" RawProvenance.codec (·.raw) fun x e => { e with raw := x },
     .nested "quality" QualityReport.codec (·.quality) fun x e => { e with quality := x },
     extensionsField]

section Bytes

/-- `ToJSON` -/
def NormalizedEvent.toJSON (e : NormalizedEvent) : Option Document := codec.write e

/-- `json.Unmarshal` into a new event; a document that is nested too deeply is refused
before it is read. -/
def unmarshal (u : Unicode) (doc : Document) : Option NormalizedEvent :=
  if doc.depth ≤ maxNestingDepth then NormalizedEvent.codec.read u NormalizedEvent.codec.zero doc
  else none

/-- `FromJSON` -/
def fromJSON (u : Unicode) (l : Time.LocalZone) (doc : Document) :
    Except EventError NormalizedEvent := do
  match unmarshal u doc with
  | none => .error .malformed
  | some e =>
      e.validate l
      return e

/-- `DeepCopy` of an event that is not nil. A document that the encoder wrote is read
in full or, nested too deeply, not at all. -/
def NormalizedEvent.deepCopy (u : Unicode) (e : NormalizedEvent) : Option NormalizedEvent :=
  e.toJSON.map fun doc => (unmarshal u doc).getD codec.zero

end Bytes

end Ulpf.Exporters.Types
