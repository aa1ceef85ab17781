import Ulpf.IngestGateway.EventBus
import Ulpf.IngestGateway.Firewall
import Ulpf.Lib.Dict

/-!
`IngestWithContext`: firewall, envelope, store and bus one after the other, and the
evidence that every ingested payload leaves, whatever the firewall says of it.
-/

namespace Ulpf.IngestGateway

open Ulpf.Lib
open Ulpf.Go

/-- An ingest service over the states of its store; `publish` is what its bus answers,
if it has one. -/
structure Gateway (σ : Type) where
  store : σ → String → String → List UInt8 → Except String String × σ
  load : σ → String → Except String (List UInt8)
  publish : Option (String → RawEventEnvelope → Except String Unit)
  firewall : FirewallConfig

/-- What an ingestion returns, the store after it, its calls of `Publish` and the
warnings it prints. Nothing is decided on a request that is refused at once. -/
structure Ingestion (σ : Type) where
  result : Except IngestError RawEventEnvelope
  decision : Option FirewallDecision
  store : σ
  published : List (String × RawEventEnvelope)
  warnings : List String

/-- The topic that the gateway publishes an envelope of this status on. -/
def topicOf : IngestStatus → String
  | .quarantined => topicQuarantinedEvents
  | .rejected => topicRejectedEvents
  | .accepted => topicRawEvents

def publishWarning (topic : String) (envelope : RawEventEnvelope) :
    Except String Unit → List String
  | .ok () => []
  | .error err =>
      ["WARN: failed to publish envelope " ++ envelope.eventID ++ " to " ++ topic ++ ": " ++ err]

section Ingesting

variable {σ : Type} (p : Platform) (g : Gateway σ) (syntaxError : List Char → String)

/-- The publication of an envelope on the topic of its status. -/
def publishEnvelope (decision : FirewallDecision) (envelope : RawEventEnvelope) (store : σ) :
    Ingestion σ :=
  match g.publish with
  | none => ⟨.ok envelope, some decision, store, [], []⟩
  | some publish =>
      let topic := topicOf decision.status
      ⟨.ok envelope, some decision, store, [(topic, envelope)],
        publishWarning topic envelope (publish topic envelope)⟩

/-- `IngestWithContext` -/
def ingestWithContext (new : Except String Ulid) (ctxErr : Option String)
    (sourceID transport : String) (rawBytes : List UInt8) (s : σ) : Ingestion σ :=
  if sourceID = "" then ⟨.error .sourceIDRequired, none, s, [], []⟩
  else if rawBytes.isEmpty then ⟨.error .bodyRequired, none, s, [], []⟩
  else
    let decision := inspect g.firewall syntaxError ctxErr rawBytes
    match newRawEventEnvelopeWithStatus p new sourceID transport rawBytes "" decision.status with
    | .error e => ⟨.error (.building e), some decision, s, [], []⟩
    | .ok envelope =>
        match g.store s envelope.eventID sourceID rawBytes with
        | (.error reason, s) => ⟨.error (.storing reason), some decision, s, [], []⟩
        | (.ok rawRef, s) => publishEnvelope g decision { envelope with rawRef := rawRef } s

/-- The store of a gateway in a state, and the statuses of its firewall, for a context
that is not done. -/
def Gateway.service (s : σ) : IngestService where
  store eventID sourceID rawBytes := (g.store s eventID sourceID rawBytes).1
  inspect rawBytes := (inspect g.firewall syntaxError none rawBytes).status

theorem ingest_eq (new : Except String Ulid) (sourceID transport : String)
    (rawBytes : List UInt8) (s : σ) :
    ingest p new (g.service syntaxError s) sourceID transport rawBytes =
      (ingestWithContext p g syntaxError new none sourceID transport rawBytes s).result := by
  rw [ingest, ingestWithContext]
  split
  · rfl
  split
  · rfl
  simp only [Gateway.service]
  cases newRawEventEnvelopeWithStatus p new sourceID transport rawBytes ""
      (inspect g.firewall syntaxError none rawBytes).status with
  | error e => rfl
  | ok envelope =>
      simp only [Except.mapError, ok_bind]
      rcases g.store s envelope.eventID sourceID rawBytes with ⟨_ | rawRef, s'⟩
      · rfl
      · simp only [ok_bind, publishEnvelope]
        cases g.publish <;> rfl

/-- The envelope of an ingested payload, with the reference of its bytes. -/
def ingestedEnvelope (id : Ulid) (sourceID transport : String) (rawBytes : List UInt8)
    (rawRef : String) (status : IngestStatus) : RawEventEnvelope where
  schemaVersion := "1.0"
  eventID := id.text
  sourceID := sourceID
  receivedAt := String.ofList ((Time.unix p.now 0).formatRFC3339 false)
  transport := transport
  rawRef := rawRef
  rawSHA256 := String.ofList (Sha256.hex (Sha256.sum256 rawBytes))
  rawLengthBytes := rawBytes.length
  ingestStatus := status.text

variable {p g syntaxError} {new : Except String Ulid} {ctxErr : Option String}
  {sourceID transport : String} {rawBytes : List UInt8} {s : σ}

/-- An ingestion either fails and publishes nothing, or stores the payload under a new
id and publishes the envelope. -/
theorem ingestWithContext_cases (p : Platform) (g : Gateway σ)
    (syntaxError : List Char → String) (new : Except String Ulid) (ctxErr : Option String)
    (sourceID transport : String) (rawBytes : List UInt8) (s : σ) :
    (∃ e, (ingestWithContext p g syntaxError new ctxErr sourceID transport rawBytes s).result =
        .error e ∧
      (ingestWithContext p g syntaxError new ctxErr sourceID transport rawBytes s).published = []) ∨
    ∃ id rawRef s', new = .ok id ∧ sourceID ≠ "" ∧ transport ∈ validTransports ∧ rawBytes ≠ [] ∧
      g.store s id.text sourceID rawBytes = (.ok rawRef, s') ∧
      ingestWithContext p g syntaxError new ctxErr sourceID transport rawBytes s =
        publishEnvelope g (inspect g.firewall syntaxError ctxErr rawBytes)
          (ingestedEnvelope p id sourceID transport rawBytes rawRef
            (inspect g.firewall syntaxError ctxErr rawBytes).status) s' := by
  rw [ingestWithContext]
  split
  · exact .inl ⟨_, rfl, rfl⟩
  split
  · exact .inl ⟨_, rfl, rfl⟩
  dsimp only
  split
  · exact .inl ⟨_, rfl, rfl⟩
  · rename_i envelope hbuilt
    obtain ⟨hsource, htransport, hbytes, id, hnew, rfl⟩ :=
      newRawEventEnvelopeWithStatus_eq_ok_iff.mp hbuilt
    dsimp only
    split
    · exact .inl ⟨_, rfl, rfl⟩
    · rename_i rawRef s' hstored
      exact .inr ⟨id, rawRef, s', hnew, hsource, htransport, hbytes, hstored, rfl⟩

/-- Whether an ingestion succeeds does not depend on what the firewall decides. -/
theorem ingestWithContext_returns_iff :
    Returns (ingestWithContext p g syntaxError new ctxErr sourceID transport rawBytes s).result ↔
      sourceID ≠ "" ∧ transport ∈ validTransports ∧ rawBytes ≠ [] ∧
        ∃ id rawRef s', new = .ok id ∧
          g.store s id.text sourceID rawBytes = (.ok rawRef, s') := by
  constructor
  · rintro ⟨env, henv⟩
    obtain ⟨e, hresult, -⟩ | ⟨id, rawRef, s', hnew, hsource, htransport, hbytes, hstored, -⟩ :=
      ingestWithContext_cases p g syntaxError new ctxErr sourceID transport rawBytes s
    · rw [hresult] at henv
      cases henv
    · exact ⟨hsource, htransport, hbytes, id, rawRef, s', hnew, hstored⟩
  · rintro ⟨hsource, htransport, hbytes, id, rawRef, s', hnew, hstored⟩
    have hbuilt : newRawEventEnvelopeWithStatus p new sourceID transport rawBytes ""
        (inspect g.firewall syntaxError ctxErr rawBytes).status = .ok _ :=
      newRawEventEnvelopeWithStatus_eq_ok_iff.mpr ⟨hsource, htransport, hbytes, id, hnew, rfl⟩
    rw [ingestWithContext, if_neg hsource, if_neg (by simpa using hbytes)]
    simp only [hbuilt, hstored, publishEnvelope]
    cases g.publish with
    | none => exact returns_ok _
    | some publish => exact returns_ok _

end Ingesting

section Evidence

variable {σ : Type}

/-- What `Store` has written, `Load` gives back. -/
def Gateway.ReturnsStored (g : Gateway σ) : Prop :=
  ∀ s eventID sourceID rawBytes rawRef s',
    g.store s eventID sourceID rawBytes = (.ok rawRef, s') → g.load s' rawRef = .ok rawBytes

/-- The envelope of an ingestion vouches for the payload, bears the status that the
firewall has decided on, and was published once, on the topic of that status. -/
structure KeepsEvidence (g : Gateway σ) (rawBytes : List UInt8) (decision : FirewallDecision)
    (out : Ingestion σ) (env : RawEventEnvelope) : Prop where
  loads : g.load out.store env.rawRef = .ok rawBytes
  rawSHA256 : env.rawSHA256 = String.ofList (Sha256.hex (Sha256.sum256 rawBytes))
  rawLengthBytes : env.rawLengthBytes = rawBytes.length
  decided : out.decision = some decision
  accepted : decision.status = .accepted →
    env.ingestStatus = "ACCEPTED" ∧ out.published = [("raw_events", env)]
  quarantined : decision.status = .quarantined →
    env.ingestStatus = "QUARANTINED" ∧ out.published = [("quarantined_events", env)]
  rejected : decision.status = .rejected →
    env.ingestStatus = "REJECTED" ∧ out.published = [("rejected_events", env)]

theorem keepsEvidence_publishEnvelope (p : Platform) {g : Gateway σ} (hstore : g.ReturnsStored)
    {publish : String → RawEventEnvelope → Except String Unit} (hbus : g.publish = some publish)
    (transport : String) {s s' : σ} {id : Ulid} {sourceID rawRef : String} {rawBytes : List UInt8}
    (hstored : g.store s id.text sourceID rawBytes = (.ok rawRef, s'))
    (decision : FirewallDecision) :
    let env := ingestedEnvelope p id sourceID transport rawBytes rawRef decision.status
    (publishEnvelope g decision env s').result = .ok env ∧
      KeepsEvidence g rawBytes decision (publishEnvelope g decision env s') env := by
  simp only [publishEnvelope, hbus]
  refine ⟨trivial, hstore _ _ _ _ _ _ hstored, rfl, rfl, rfl, ?_, ?_, ?_⟩ <;>
  · intro hstatus
    simp only [ingestedEnvelope, hstatus]
    exact ⟨rfl, rfl⟩

/-- Every ingestion that succeeds keeps the evidence, and every other one publishes
nothing. -/
theorem ingestWithContext_keepsEvidence (p : Platform) {g : Gateway σ}
    (hstore : g.ReturnsStored) {publish : String → RawEventEnvelope → Except String Unit}
    (hbus : g.publish = some publish) (syntaxError : List Char → String)
    (new : Except String Ulid) (ctxErr : Option String) (sourceID transport : String)
    (rawBytes : List UInt8) (s : σ) :
    let out := ingestWithContext p g syntaxError new ctxErr sourceID transport rawBytes s
    (∀ env, out.result = .ok env →
      KeepsEvidence g rawBytes (inspect g.firewall syntaxError ctxErr rawBytes) out env) ∧
    ∀ e, out.result = .error e → out.published = [] := by
  intro out
  obtain ⟨e, hresult, hpublished⟩ | ⟨id, rawRef, s', -, -, -, -, hstored, hout⟩ :=
    ingestWithContext_cases p g syntaxError new ctxErr sourceID transport rawBytes s
  · refine ⟨fun env henv => ?_, fun _ _ => hpublished⟩
    rw [show out.result = .error e from hresult] at henv
    cases henv
  · obtain ⟨hresult, hkeeps⟩ := keepsEvidence_publishEnvelope p hstore hbus transport hstored
      (inspect g.firewall syntaxError ctxErr rawBytes)
    rw [← hout] at hresult hkeeps
    refine ⟨fun env henv => ?_, fun e he => ?_⟩
    · obtain rfl := Except.ok.inj (hresult.symm.trans henv)
      exact hkeeps
    · rw [show out.result = .error e from he] at hresult
      cases hresult

/-- A store that keeps the bytes of each reference, and refuses one that it holds. -/
def fileGateway (p : Platform) (publish : Option (String → RawEventEnvelope → Except String Unit))
    (firewall : FirewallConfig) : Gateway (Dict String (List UInt8)) where
  store s eventID sourceID rawBytes :=
    match localFSStore p s.contains (fun _ _ => .ok ()) eventID sourceID rawBytes with
    | .ok rawRef => (.ok rawRef, s.set rawRef rawBytes)
    | .error reason => (.error reason, s)
  load s rawRef :=
    match s.get? rawRef with
    | some rawBytes => .ok rawBytes
    | none => .error ("reading raw event at " ++ rawRef)
  publish := publish
  firewall := firewall

theorem fileGateway_returnsStored (p : Platform)
    (publish : Option (String → RawEventEnvelope → Except String Unit))
    (firewall : FirewallConfig) : (fileGateway p publish firewall).ReturnsStored := by
  intro s eventID sourceID rawBytes rawRef s' h
  simp only [fileGateway] at h ⊢
  split at h
  · obtain ⟨hrawRef, rfl⟩ := Prod.mk.inj h
    obtain rfl := Except.ok.inj hrawRef
    simp
  · cases h

/-- An oversized payload leaves the same evidence as any other, under its own status. -/
theorem ingestWithContext_keepsEvidence_oversized :
    let g := fileGateway .plain (some fun _ _ => .ok ())
      { defaultFirewallConfig with maxRawSizeBytes := 0 }
    let out := ingestWithContext .plain g (fun _ => "") (.ok 0) none "fw-1" "http" [65] .empty
    ∃ env, out.result = .ok env ∧
      KeepsEvidence g [65] (inspect g.firewall (fun _ => "") none [65]) out env ∧
      g.load out.store env.rawRef = .ok [65] ∧ env.rawLengthBytes = 1 ∧
      env.ingestStatus = "QUARANTINED" ∧ out.published = [("quarantined_events", env)] := by
  intro g out
  have hevidence := ingestWithContext_keepsEvidence .plain
    (fileGateway_returnsStored .plain (some fun _ _ => .ok ())
      { defaultFirewallConfig with maxRawSizeBytes := 0 })
    rfl (fun _ => "") (.ok 0) none "fw-1" "http" [65] .empty
  have hquarantined : (inspect g.firewall (fun _ => "") none [65]).status = .quarantined := by
    decide +kernel
  cases hresult : out.result with
  | ok env =>
      have hkeeps := hevidence.1 env hresult
      obtain ⟨hstatus, hpublished⟩ := hkeeps.quarantined hquarantined
      exact ⟨env, rfl, hkeeps, hkeeps.loads, hkeeps.rawLengthBytes, hstatus, hpublished⟩
  | error e =>
      have hok : out.result.toBool = true := by decide +kernel
      rw [hresult] at hok
      cases hok

end Evidence

end Ulpf.IngestGateway
