import Ulpf.Exporters.Guarantees
import Ulpf.IngestGateway.Delivery

/-!
From the gateway to the exports: what a worker makes of an envelope that a subscriber has received,
and what is exported of that, leads back to the payload on disk.
-/

namespace Ulpf.Pipeline

open Ulpf.Lib
open Ulpf.Go
open Ulpf.Normalize
open Ulpf.IngestGateway
open Ulpf.IngestGateway.EventBus (UnsubscribesOnce newInMemoryBus received)
open Ulpf.IngestGateway.RawStore (FileSystem)
open Ulpf.IngestGateway.Server (Config Request Evident entry evident_of_run load load_of_file)
open Ulpf.IngestGateway.Delivery (busTrace received_sublist_published server_run)
open Ulpf.ParserRuntime (ParseError ParseResult ValidSpec)
open Ulpf.Exporters

/-- What the worker is told of an envelope. The time of ingest is not in the envelope under the
name the worker reads; it is the time of receipt where the caller fills it in. -/
def rawEnvelopeInput (env : RawEventEnvelope) (ingestTS : String) : RawEnvelopeInput where
  eventID := env.eventID
  sourceID := env.sourceID
  rawRef := env.rawRef
  rawSHA256 := env.rawSHA256
  ingestTS := ingestTS

/-- A machine, its order of maps, and the spec it parses with. -/
structure Worker where
  platform : Platform
  enumeration : Enumeration
  spec : ValidSpec

namespace Worker

variable (w : Worker)

/-- What the worker parses of a payload. -/
def parse (payload : List UInt8) : Except ParseError ParseResult :=
  ParserRuntime.parse w.platform w.enumeration payload w.spec.1

/-- What the worker makes of a parsed payload and its envelope. -/
def normalize (env : RawEventEnvelope) (ingestTS : String) (res : ParseResult) :
    Except IRError NormalizedEvent :=
  Normalize.normalize w.platform (rawEnvelopeInput env ingestTS) res w.spec.1

/-- What the worker reads as the time, the addresses and the ports of the event is a time,
addresses and ports. -/
structure Reads (ex : Extracted) : Prop where
  time : ∀ time, nonEmptyAt ex "event.timestamp" = some time →
    isRFC3339 w.platform.localZone time = true
  src : ReadableEndpoint ex "src.ip" "src.port"
  dst : ReadableEndpoint ex "dst.ip" "dst.port"

end Worker

/-- The digest of a payload in hexadecimal digits. -/
def digest (payload : List UInt8) : String := String.ofList (Sha256.hex (Sha256.sum256 payload))

/-- A document of an event says under two names where its payload is and what its hash is, unless
the log itself has a field of one of these names that says something else. -/
def SaysOrigin (tells : String → String → Prop) (env : RawEventEnvelope) (res : ParseResult) :
    Prop :=
  ∀ entry ∈ [("raw_ref", env.rawRef), ("raw_sha256", env.rawSHA256)],
    tells entry.1 entry.2 ↔ ∀ v, res.unknownFields.get? entry.1 = some v → v = .str entry.2

/-- An envelope leads to the payload of a request, and whatever becomes of it leads back. -/
structure Traceable (config : Config) (fs : FileSystem) (r : Request) (env : RawEventEnvelope) :
    Prop where
  eventID : env.eventID = r.id.text
  loads : load config.root fs env.rawRef = .ok r.rawBytes
  hashes : env.rawSHA256 = digest r.rawBytes
  normalizes : ∀ (w : Worker), ∀ ingestTS ∈ ["", env.receivedAt], ∀ res,
    w.parse r.rawBytes = .ok res →
    ((∃ ir, w.normalize env ingestTS res = .ok ir) ↔ w.Reads res.extracted)
  normalized : ∀ (w : Worker) ingestTS res ir, w.normalize env ingestTS res = .ok ir →
    ir.eventID = env.eventID ∧ ir.raw = ⟨env.rawRef, env.rawSHA256⟩
  exported : ∀ (w : Worker) ingestTS res ir, w.normalize env ingestTS res = .ok ir → ∀ u,
    ∃ ecs ocsf, Ecs.exportECS u w.platform.localZone (some ir) = .ok ecs ∧
      Ocsf.exportOCSF u w.platform.localZone (some ir) = .ok ocsf ∧
      ecs.event.id = env.eventID ∧ ocsf.metadata.uid = env.eventID ∧
      SaysOrigin (fun name own => ecs.labels.get? name = some (.str own)) env res ∧
      SaysOrigin (fun name own => ocsf.unmapped.get? name = some (.value (.str own))) env res

section Worker

variable {w : Worker} {env : RawEventEnvelope} {ingestTS : String} {res : ParseResult}
  {ir : NormalizedEvent}

/-- The envelope of an event of the gateway leaves nothing to the fallbacks of the worker. -/
structure Filled (env : RawEventEnvelope) : Prop where
  eventID : env.eventID ≠ ""
  rawRef : env.rawRef ≠ ""
  rawSHA256 : env.rawSHA256 ≠ ""

theorem normalized_of_filled (hfilled : Filled env) (h : w.normalize env ingestTS res = .ok ir) :
    ir.eventID = env.eventID ∧ ir.raw = ⟨env.rawRef, env.rawSHA256⟩ ∧
      ir.extensions = some res.unknownFields := by
  obtain ⟨rfl, -⟩ := normalize_eq_ok_iff.mp h
  refine ⟨orDefault_of_ne hfilled.eventID, ?_, rfl⟩
  have href : rawRefOf (rawEnvelopeInput env ingestTS) = env.rawRef :=
    orDefault_of_ne hfilled.rawRef
  have hdigest : orDefault env.rawSHA256 fallbackSHA256 = env.rawSHA256 :=
    orDefault_of_ne hfilled.rawSHA256
  exact congrArg₂ RawProvenance.mk href hdigest

theorem extension_of_extensions {unknownFields : Dict String Value}
    (h : ir.extensions = some unknownFields) (k : String) :
    extension ir k = unknownFields.get? k := by
  rw [extension, h]
  rfl

theorem saysOrigin_labels (hfilled : Filled env) (h : w.normalize env ingestTS res = .ok ir) :
    SaysOrigin (fun name own => (Ecs.labelsOf ir).get? name = some (.str own)) env res := by
  obtain ⟨-, hraw, hextensions⟩ := normalized_of_filled hfilled h
  have hsays {name own : String} (hown : (Dict.ofList
      [("raw_ref", (.str ir.raw.ref : Value)), ("raw_sha256", .str ir.raw.sha256),
        ("parser_id", .str ir.parser.id), ("parser_version", .str ir.parser.version),
        ("quality_status", .str ir.quality.status)]).get? name = some (.str own)) :
      (Ecs.labelsOf ir).get? name = some (.str own) ↔
        ∀ v, res.unknownFields.get? name = some v → v = .str own := by
    rw [Ecs.labelsOf, get?_withExtensions_eq_some_iff hown, extension_of_extensions hextensions]
    rfl
  rw [hraw] at hsays
  intro entry hentry
  simp only [List.mem_cons, List.not_mem_nil, or_false] at hentry
  obtain rfl | rfl := hentry
  · exact hsays rfl
  · exact hsays rfl

theorem saysOrigin_unmapped (hfilled : Filled env) (h : w.normalize env ingestTS res = .ok ir) :
    SaysOrigin (fun name own => (Ocsf.unmappedOf ir).get? name = some (.value (.str own))) env
      res := by
  obtain ⟨-, hraw, hextensions⟩ := normalized_of_filled hfilled h
  have hsays {name own : String} (hdns : name ≠ "dns") (hown : (Dict.ofList
      [("raw_ref", Ocsf.Unmapped.value (.str ir.raw.ref)),
        ("raw_sha256", .value (.str ir.raw.sha256)), ("parser_id", .value (.str ir.parser.id)),
        ("quality_status", .value (.str ir.quality.status))]).get? name =
          some (.value (.str own))) :
      (Ocsf.unmappedOf ir).get? name = some (.value (.str own)) ↔
        ∀ v, res.unknownFields.get? name = some v → v = .str own := by
    rw [Ocsf.unmappedOf,
      get?_withExtensions_eq_some_iff (by rw [get?_ownEntries ir name hdns, hown]),
      extension_of_extensions hextensions]
    simp
  rw [hraw] at hsays
  intro entry hentry
  simp only [List.mem_cons, List.not_mem_nil, or_false] at hentry
  obtain rfl | rfl := hentry
  · exact hsays (by simp) rfl
  · exact hsays (by simp) rfl

theorem exported_of_filled (hfilled : Filled env) (h : w.normalize env ingestTS res = .ok ir)
    (u : Unicode) :
    ∃ ecs ocsf, Ecs.exportECS u w.platform.localZone (some ir) = .ok ecs ∧
      Ocsf.exportOCSF u w.platform.localZone (some ir) = .ok ocsf ∧
      ecs.event.id = env.eventID ∧ ocsf.metadata.uid = env.eventID ∧
      SaysOrigin (fun name own => ecs.labels.get? name = some (.str own)) env res ∧
      SaysOrigin (fun name own => ocsf.unmapped.get? name = some (.value (.str own))) env res := by
  have hvalid := (normalize_eq_ok_iff.mp h).2
  have hid := (normalized_of_filled hfilled h).1
  exact ⟨Ecs.ecsEventOf u ir, Ocsf.ocsfEventOf u w.platform.localZone ir,
    Ecs.exportECS_eq_ok_iff.mpr ⟨hvalid, rfl⟩, Ocsf.exportOCSF_eq_ok_iff.mpr ⟨hvalid, rfl⟩, hid,
    hid, saysOrigin_labels hfilled h, saysOrigin_unmapped hfilled h⟩

end Worker

section Gateway

variable {r : Request} {rawRef : String} {status : IngestStatus}

/-- The envelope of a request, at a reference. -/
abbrev envelopeOf (r : Request) (rawRef : String) (status : IngestStatus) : RawEventEnvelope :=
  ingestedEnvelope r.clock r.id r.sourceID r.transport r.rawBytes rawRef status

theorem length_text (id : Ulid) : id.text.toList.length = 26 := by
  rw [Ulid.text, String.toList_ofList, Ulid.length_digits]

theorem filled_envelopeOf (href : rawRef ≠ "") : Filled (envelopeOf r rawRef status) where
  eventID h := by
    have hlength := length_text r.id
    rw [show r.id.text = "" from h] at hlength
    contradiction
  rawRef := href
  rawSHA256 h := by
    have hlength := congrArg (fun s : String => s.toList.length) h
    simp [envelopeOf, ingestedEnvelope, Sha256.length_hex, Sha256.length_sum256] at hlength

theorem ingest_eq_envelopeOf (h : r.Reaches) : ingest r.clock (.ok r.id)
    ⟨fun _ _ _ => .ok rawRef, fun _ => status⟩ r.sourceID r.transport r.rawBytes =
      .ok (envelopeOf r rawRef status) := by
  have hbuilt : newRawEventEnvelopeWithStatus r.clock (.ok r.id) r.sourceID r.transport
      r.rawBytes "" status = .ok _ :=
    newRawEventEnvelopeWithStatus_eq_ok_iff.mpr
      ⟨h.source, h.transport, h.bytes, r.id, rfl, rfl⟩
  rw [ingest, if_neg h.source, if_neg (by simpa using h.bytes)]
  simp only [hbuilt]
  rfl

theorem normalizes_envelopeOf (h : r.Reaches) {w : Worker} {ingestTS : String}
    (htime : ingestTS ∈ ["", (envelopeOf r rawRef status).receivedAt]) {res : ParseResult}
    (hparse : w.parse r.rawBytes = .ok res) :
    (∃ ir, w.normalize (envelopeOf r rawRef status) ingestTS res = .ok ir) ↔
      w.Reads res.extracted := by
  let x : ParsedEvent :=
    { gateway := r.clock
      service := ⟨fun _ _ _ => .ok rawRef, fun _ => status⟩
      newID := .ok r.id
      sourceID := r.sourceID
      transport := r.transport
      payload := r.rawBytes
      envelope := envelopeOf r rawRef status
      ingested := ingest_eq_envelopeOf h
      ingestTS := ingestTS
      ingestTS_mem := htime
      worker := w.platform
      enumeration := w.enumeration
      spec := w.spec
      result := res
      parsed := hparse }
  have hreads : x.Readable ↔ w.Reads res.extracted :=
    ⟨fun h => ⟨h.1, h.2.1, h.2.2⟩, fun h => ⟨h.time, h.src, h.dst⟩⟩
  rw [← hreads, ← x.validate_iff_readable]
  constructor
  · rintro ⟨ir, hir⟩
    obtain ⟨rfl, hvalid⟩ := normalize_eq_ok_iff.mp hir
    exact hvalid
  · intro hvalid
    exact ⟨_, normalize_eq_ok_iff.mpr ⟨rfl, hvalid⟩⟩

variable {ι : Type} {config : Config} {requests : ι → Request}

theorem exists_toList_refOf (requests : ι → Request) (i : ι) : ∃ directory,
    (RawStore.refOf (Server.calls requests) i).toList =
      directory ++ (requests i).id.text.toList :=
  ⟨_, String.toList_append⟩

theorem refOf_ne (i : ι) : RawStore.refOf (Server.calls requests) i ≠ "" := by
  intro h
  obtain ⟨directory, htext⟩ := exists_toList_refOf requests i
  have hlength := length_text (requests i).id
  rw [h, String.toList_empty, List.nil_eq_append_iff] at htext
  simp [htext.2] at hlength

theorem id_eq_of_refOf_eq {i j : ι} (h : RawStore.refOf (Server.calls requests) i =
    RawStore.refOf (Server.calls requests) j) : (requests i).id = (requests j).id := by
  obtain ⟨directory, hi⟩ := exists_toList_refOf requests i
  obtain ⟨directory', hj⟩ := exists_toList_refOf requests j
  rw [h, hj] at hi
  have hids := List.append_inj_right' hi ((length_text _).trans (length_text _).symm)
  exact (Ulid.text_injective (String.toList_injective hids)).symm

theorem exists_traceable_of_published {s : Server.State ι} (h : Evident config requests s)
    {topic : String} {env : RawEventEnvelope} (hmem : (topic, env) ∈ s.published) :
    ∃ i, s.responses i ≠ none ∧ env = (entry config (requests i)
        (RawStore.refOf (Server.calls requests) i)).2 ∧
      Traceable config s.store.fs (requests i) env := by
  obtain ⟨i, hreaches, hstored, hanswered, heq⟩ := h.published _ hmem
  obtain ⟨rfl, rfl⟩ := Prod.mk.inj heq
  have hfilled : Filled (envelopeOf (requests i) (RawStore.refOf (Server.calls requests) i)
      (Server.decision config (requests i)).status) :=
    filled_envelopeOf (refOf_ne i)
  have hfile := (h.once.kept i hstored).2
  exact ⟨i, hanswered, rfl, rfl, load_of_file hfile, rfl, fun w ingestTS htime res hparse =>
    normalizes_envelopeOf hreaches htime hparse, fun w ingestTS res ir hir =>
    ⟨(normalized_of_filled hfilled hir).1, (normalized_of_filled hfilled hir).2.1⟩,
    fun w ingestTS res ir hir u => exported_of_filled hfilled hir u⟩

end Gateway

section System

variable {ι : Type} [DecidableEq ι] {config : Config} {requests : ι → Request}
  {s t : Delivery.State ι} {trace : List (Delivery.GatewayStep ι)}

/-- In every interleaving of the requests with the operations of the subscribers, each envelope a
subscriber has received leads to the payload of an answered request, and so does every event and
every document that any worker and the exporters make of it; and no two events lead to one file. -/
theorem received_traceable
    (hids : ∀ i j, (requests i).id = (requests j).id → i = j) (hstart : s.server.Idle)
    (hbus : s.bus = newInMemoryBus) (hrun : Run (Delivery.Step config requests) s trace t)
    (honce : UnsubscribesOnce (busTrace trace)) :
    (∀ sub ∈ t.bus.handles, ∀ env ∈ received sub (busTrace trace), ∃ i,
      t.server.responses i ≠ none ∧
      Traceable config t.server.store.fs (requests i) env) ∧
    ∀ sub ∈ t.bus.handles, ∀ sub' ∈ t.bus.handles, ∀ env ∈ received sub (busTrace trace),
      ∀ env' ∈ received sub' (busTrace trace), env.rawRef = env'.rawRef → env = env' := by
  obtain ⟨serverTrace, hserver⟩ := server_run hrun
  have hevident := evident_of_run hids hstart hserver
  have htraced : ∀ sub ∈ t.bus.handles, ∀ env ∈ received sub (busTrace trace), ∃ i,
      t.server.responses i ≠ none ∧ env = (entry config (requests i)
        (RawStore.refOf (Server.calls requests) i)).2 ∧
      Traceable config t.server.store.fs (requests i) env := by
    intro sub hsub env henv
    have hpublished := (received_sublist_published hstart hbus hrun honce hsub).subset henv
    obtain ⟨⟨topic, env'⟩, hmem, rfl⟩ := List.mem_map.mp hpublished
    exact exists_traceable_of_published hevident (List.mem_filter.mp hmem).1
  refine ⟨fun sub hsub env henv => ?_, fun sub hsub sub' hsub' env henv env' henv' href => ?_⟩
  · obtain ⟨i, hanswered, -, htraceable⟩ := htraced sub hsub env henv
    exact ⟨i, hanswered, htraceable⟩
  · obtain ⟨i, -, rfl, -⟩ := htraced sub hsub env henv
    obtain ⟨j, -, rfl, -⟩ := htraced sub' hsub' env' henv'
    obtain rfl := hids i j (id_eq_of_refOf_eq href)
    rfl

open Delivery (firewallStart firewallInputs firewallSub) in
open Server (firewallConfig firewallRequest firewallEnvelope) in
theorem received_traceable_firewall :
    ∃ (trace : List (Delivery.GatewayStep Bool)) (t : Delivery.State Bool),
      Run (Delivery.Step firewallConfig firewallRequest) firewallStart trace t ∧
      trace.map Transition.input = firewallInputs ∧
      (∀ binary, received (firewallSub binary) (busTrace trace) = [firewallEnvelope binary] ∧
        Traceable firewallConfig t.server.store.fs (firewallRequest binary)
          (firewallEnvelope binary)) ∧
      (firewallEnvelope true).rawRef ≠ (firewallEnvelope false).rawRef := by
  obtain ⟨trace, t, hrun, hinputs, honce, hreceived⟩ := Delivery.exists_run_firewall
  obtain ⟨htraced, hfiles⟩ := received_traceable Server.firewallRequest_distinct Server.idle_blank
    rfl hrun honce
  have hmem (binary : Bool) :
      firewallEnvelope binary ∈ received (firewallSub binary) (busTrace trace) := by
    simp [(hreceived binary).2]
  refine ⟨trace, t, hrun, hinputs, fun binary => ⟨(hreceived binary).2, ?_⟩, fun href => ?_⟩
  · obtain ⟨i, -, hi⟩ := htraced _ (hreceived binary).1 _ (hmem binary)
    obtain rfl := Server.firewallRequest_distinct binary i (Ulid.text_injective hi.eventID)
    exact hi
  · have henvelope := hfiles _ (hreceived true).1 _ (hreceived false).1 _ (hmem true) _ (hmem false)
      href
    have hid := Ulid.text_injective (congrArg RawEventEnvelope.eventID henvelope)
    cases Server.firewallRequest_distinct true false hid

end System

end Ulpf.Pipeline
