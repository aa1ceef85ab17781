import Ulpf.IngestGateway.Ingest
import Ulpf.IngestGateway.RawStore

/-!
The gateway under concurrent requests. Each request goes through the firewall, the raw store and
the bus, and the file operations of the others lie between its own; whatever is published or
answered with success can be loaded again from then on.
-/

namespace Ulpf.IngestGateway.Server

open Ulpf.Lib
open Ulpf.Go
open Ulpf.IngestGateway.RawStore (FileSystem FreshIDs StoreCall TempFilesOwned WriteOnce)

/-- A request to `POST /api/v1/events/raw`, the state of its context, the id it draws unless that
fails, and the clock at its envelope and at its file. -/
structure Request where
  sourceHeader : String
  sourceQuery : String
  transportHeader : String
  transportQuery : String
  body : Except String (List UInt8)
  ctxErr : Option String
  id : Ulid
  idErr : Option String
  clock : Platform
  storeClock : Platform

namespace Request

variable (r : Request)

/-- The source of a request: its header, or else its query. -/
def sourceID : String := if r.sourceHeader = "" then r.sourceQuery else r.sourceHeader

/-- The transport of a request: its header, its query or the default. -/
def transport : String :=
  let transport := if r.transportHeader = "" then r.transportQuery else r.transportHeader
  if transport = "" then "unknown" else transport

/-- What `ulid.New` returns. -/
def new : Except String Ulid :=
  match r.idErr with
  | none => .ok r.id
  | some err => .error err

def rawBytes : List UInt8 := r.body.toOption.getD []

/-- The call of `Store` that a request makes. -/
def storeCall : StoreCall := ⟨r.storeClock, r.id.text, r.sourceID, r.rawBytes⟩

/-- Nothing stops the request before its call of `Store`. -/
structure Reaches : Prop where
  source : r.sourceID ≠ ""
  bytes : r.rawBytes ≠ []
  transport : r.transport ∈ validTransports
  generated : r.idErr = none

end Request

/-- The answer: 400, 500, 202 or 201. -/
inductive Response where
  | badRequest (text : String)
  | internalServerError (err : IngestError)
  | accepted (envelope : RawEventEnvelope)
  | created (envelope : RawEventEnvelope)
  deriving DecidableEq

/-- The envelope of an answer. -/
def Response.envelope? : Response → Option RawEventEnvelope
  | badRequest _ => none
  | internalServerError _ => none
  | accepted envelope => some envelope
  | created envelope => some envelope

/-- What `main` sets up. -/
structure Config where
  root : String
  firewall : FirewallConfig
  syntaxError : List Char → String
  publish : String → RawEventEnvelope → Except String Unit

/-- `Load` -/
def load (root : String) (fs : FileSystem) (rawRef : String) : Except String (List UInt8) :=
  match fs (absPath root rawRef) with
  | some (.file bytes) => .ok bytes
  | _ => .error ("reading raw event at " ++ rawRef)

theorem load_of_file {root rawRef : String} {fs : FileSystem} {bytes : List UInt8}
    (h : fs (absPath root rawRef) = some (.file bytes)) : load root fs rawRef = .ok bytes := by
  rw [load, h]

variable {ι : Type} [DecidableEq ι]

section Handling

variable (config : Config)

/-- The service as a request sees it whose call of `Store` returns `stored`. -/
def gateway (stored : Except String String) : Gateway FileSystem where
  store fs _ _ _ := (stored, fs)
  load := load config.root
  publish := some config.publish
  firewall := config.firewall

/-- The handler of `POST /api/v1/events/raw`: its answer and what it publishes. -/
def handle (r : Request) (stored : Except String String) (fs : FileSystem) :
    Response × List (String × RawEventEnvelope) :=
  if r.sourceID = "" then
    (.badRequest "\x7b\"error\":\"X-Source-ID header or source_id query param required\"\x7d", [])
  else
    match r.body with
    | .error err => (.badRequest ("\x7b\"error\":\"reading body: " ++ err ++ "\"\x7d"), [])
    | .ok rawBytes =>
        if rawBytes.isEmpty then
          (.badRequest "\x7b\"error\":\"request body must not be empty\"\x7d", [])
        else
          let out := ingestWithContext r.clock (gateway config stored) config.syntaxError r.new
            r.ctxErr r.sourceID r.transport rawBytes fs
          match out.result with
          | .error err => (.internalServerError err, out.published)
          | .ok envelope =>
              if out.decision.any fun decision => decision.status = .quarantined then
                (.accepted envelope, out.published)
              else (.created envelope, out.published)

/-- What the firewall decides on a request. -/
def decision (r : Request) : FirewallDecision :=
  inspect config.firewall config.syntaxError r.ctxErr r.rawBytes

/-- What a request publishes whose bytes are stored under a reference. -/
def entry (r : Request) (rawRef : String) : String × RawEventEnvelope :=
  (topicOf (decision config r).status,
    ingestedEnvelope r.clock r.id r.sourceID r.transport r.rawBytes rawRef
      (decision config r).status)

variable {config} {r : Request} {stored : Except String String} {fs : FileSystem}

theorem Request.Reaches.body (h : r.Reaches) : r.body = .ok r.rawBytes := by
  have hbytes := h.bytes
  rw [Request.rawBytes] at hbytes ⊢
  cases hbody : r.body with
  | error err =>
      rw [hbody] at hbytes
      exact absurd rfl hbytes
  | ok rawBytes => rfl

theorem ingestWithContext_of_reaches (h : r.Reaches) (rawRef : String) (fs : FileSystem) :
    ingestWithContext r.clock (gateway config (.ok rawRef)) config.syntaxError r.new r.ctxErr
        r.sourceID r.transport r.rawBytes fs =
      publishEnvelope (gateway config (.ok rawRef)) (decision config r) (entry config r rawRef).2
        fs := by
  have hnew : r.new = .ok r.id := by rw [Request.new, h.generated]
  have hbuilt : newRawEventEnvelopeWithStatus r.clock (.ok r.id) r.sourceID r.transport r.rawBytes
      "" (inspect config.firewall config.syntaxError r.ctxErr r.rawBytes).status = .ok _ :=
    newRawEventEnvelopeWithStatus_eq_ok_iff.mpr ⟨h.source, h.transport, h.bytes, r.id, rfl, rfl⟩
  rw [ingestWithContext, if_neg h.source, if_neg (by simpa using h.bytes), hnew]
  simp only [gateway, hbuilt]
  rfl

variable (config) in
theorem handle_of_stored (h : r.Reaches) (rawRef : String) (fs : FileSystem) :
    (handle config r (.ok rawRef) fs).2 = [entry config r rawRef] ∧
      (handle config r (.ok rawRef) fs).1.envelope? = some (entry config r rawRef).2 := by
  rw [handle, if_neg h.source, h.body]
  dsimp only
  rw [if_neg (by simpa using h.bytes), ingestWithContext_of_reaches h, publishEnvelope]
  dsimp only [gateway]
  by_cases hquarantined : (decision config r).status = .quarantined
  · simp [hquarantined, entry, Response.envelope?]
  · simp [hquarantined, entry, Response.envelope?]

variable (config fs) in
theorem handle_of_not_stored (h : r.Reaches → ∃ reason, stored = .error reason) :
    (handle config r stored fs).2 = [] ∧ (handle config r stored fs).1.envelope? = none := by
  rw [handle]
  split
  · exact ⟨rfl, rfl⟩
  · rename_i hsource
    split
    · exact ⟨rfl, rfl⟩
    · rename_i rawBytes hbody
      split
      · exact ⟨rfl, rfl⟩
      · rename_i hne
        have hbytes : r.rawBytes = rawBytes := by
          rw [Request.rawBytes, hbody]
          rfl
        obtain ⟨e, hresult, hpublished⟩ | ⟨id, rawRef, fs', hnew, -, htransport, -, hstored, -⟩ :=
          ingestWithContext_cases r.clock (gateway config stored) config.syntaxError r.new r.ctxErr
            r.sourceID r.transport rawBytes fs
        · simp only [hresult, hpublished]
          exact ⟨trivial, rfl⟩
        · have hgenerated : r.idErr = none := by
            cases herr : r.idErr with
            | none => rfl
            | some err =>
                rw [Request.new, herr] at hnew
                cases hnew
          obtain ⟨reason, rfl⟩ := h ⟨hsource, by simpa [hbytes] using hne, htransport, hgenerated⟩
          cases hstored

end Handling

section Steps

/-- The store, what has been published, and the answers. -/
structure State (ι : Type) where
  store : RawStore.State ι
  published : List (String × RawEventEnvelope)
  responses : ι → Option Response

/-- A request goes on with its call of `Store`, or is answered. -/
inductive Action where
  | store (op : RawStore.Action)
  | respond
  deriving DecidableEq

/-- A request publishes and is answered. -/
def State.respond (s : State ι) (i : ι) (outcome : Response × List (String × RawEventEnvelope)) :
    State ι :=
  ⟨s.store, s.published ++ outcome.2, Function.update s.responses i (some outcome.1)⟩

theorem State.responses_respond_self (s : State ι) (i : ι)
    (outcome : Response × List (String × RawEventEnvelope)) :
    (s.respond i outcome).responses i = some outcome.1 :=
  Function.update_self _ _ _

theorem State.responses_respond_of_ne (s : State ι) {i j : ι} (hne : j ≠ i)
    (outcome : Response × List (String × RawEventEnvelope)) :
    (s.respond i outcome).responses j = s.responses j :=
  Function.update_of_ne hne _ _

variable (config : Config) (requests : ι → Request)

def calls (i : ι) : StoreCall := (requests i).storeCall

/-- A step of a request: a file operation of its call of `Store`, or, when that has returned, its
publication and its answer. -/
inductive Step (s : State ι) : ι × Action → Unit → State ι → Prop where
  | store {i : ι} {op : RawStore.Action} {store : RawStore.State ι}
      (reaches : (requests i).Reaches)
      (step : RawStore.Step config.root (calls requests) s.store (i, op) () store) :
      Step s (i, .store op) () { s with store := store }
  | respond {i : ι} {stored : Except String String} (waiting : s.responses i = none)
      (returned : (requests i).Reaches → s.store.phase i = .returned stored) :
      Step s (i, .respond) () (s.respond i (handle config (requests i) stored s.store.fs))

/-- An empty disk, and no request has begun. -/
def State.blank : State ι := ⟨.blank, [], fun _ => none⟩

/-- The file system has any content; no request has begun. -/
structure State.Idle (s : State ι) : Prop where
  phase : ∀ i, s.store.phase i = .idle
  published : s.published = []
  responses : ∀ i, s.responses i = none

end Steps

section Evidence

variable {config : Config} {requests : ι → Request} {s s' : State ι} {i : ι}

omit [DecidableEq ι] in
theorem freshIDs_of_distinct (hids : ∀ i j, (requests i).id = (requests j).id → i = j) :
    FreshIDs (calls requests) where
  ulid i := ⟨(requests i).id, rfl⟩
  distinct i j h := hids i j (Ulid.text_injective h)

/-- What is stored, published and answered fits together. -/
structure Evident (config : Config) (requests : ι → Request) (s : State ι) : Prop where
  once : WriteOnce config.root (calls requests) s.store
  owned : TempFilesOwned config.root (calls requests) s.store
  published : ∀ p ∈ s.published, ∃ i, (requests i).Reaches ∧ s.store.Stored i ∧
    s.responses i ≠ none ∧ p = entry config (requests i) (RawStore.refOf (calls requests) i)
  nodup : (s.published.map fun p => p.2.eventID).Nodup
  answered : ∀ i response env, s.responses i = some response → response.envelope? = some env →
    ∃ topic, (topic, env) ∈ s.published

omit [DecidableEq ι] in
theorem evident_of_idle (h : s.Idle) : Evident config requests s where
  once := RawStore.writeOnce_of_idle h.phase
  owned i hi := by
    rw [h.phase i] at hi
    cases hi
  published p hp := by
    rw [h.published] at hp
    cases hp
  nodup := by
    rw [h.published]
    exact List.nodup_nil
  answered i response env hi := by
    rw [h.responses i] at hi
    cases hi

theorem Evident.store (h : Evident config requests s)
    (hids : ∀ i j, (requests i).id = (requests j).id → i = j) {op : RawStore.Action}
    {store : RawStore.State ι}
    (hstep : RawStore.Step config.root (calls requests) s.store (i, op) () store) :
    Evident config requests { s with store := store } := by
  obtain ⟨honce, howned⟩ := (freshIDs_of_distinct hids).step ⟨h.once, h.owned⟩ hstep
  refine ⟨honce, howned, fun p hp => ?_, h.nodup, h.answered⟩
  obtain ⟨j, hreaches, hstored, hanswered, rfl⟩ := h.published p hp
  exact ⟨j, hreaches, RawStore.stored_step hstep hstored, hanswered, rfl⟩

/-- What has been published before a request is answered is of other requests. -/
theorem Evident.published_of_waiting (h : Evident config requests s)
    (hwaiting : s.responses i = none) (outcome : Response × List (String × RawEventEnvelope)) :
    ∀ p ∈ s.published, ∃ j, j ≠ i ∧ (requests j).Reaches ∧ s.store.Stored j ∧
      (s.respond i outcome).responses j ≠ none ∧
      p = entry config (requests j) (RawStore.refOf (calls requests) j) := by
  intro p hp
  obtain ⟨j, hreaches, hstored, hanswered, rfl⟩ := h.published p hp
  have hne : j ≠ i := by
    rintro rfl
    exact hanswered hwaiting
  refine ⟨j, hne, hreaches, hstored, ?_, rfl⟩
  rw [s.responses_respond_of_ne hne]
  exact hanswered

theorem Evident.respond_stored (h : Evident config requests s)
    (hids : ∀ i j, (requests i).id = (requests j).id → i = j) (hwaiting : s.responses i = none)
    (hreaches : (requests i).Reaches) {rawRef : String}
    (hphase : s.store.phase i = .returned (.ok rawRef)) :
    Evident config requests
      (s.respond i (handle config (requests i) (.ok rawRef) s.store.fs)) := by
  obtain ⟨hpublishes, henvelope⟩ := handle_of_stored config hreaches rawRef s.store.fs
  have hothers := h.published_of_waiting hwaiting
    (handle config (requests i) (.ok rawRef) s.store.fs)
  have href : rawRef = RawStore.refOf (calls requests) i := by
    have hkept := (h.once.kept i ⟨rawRef, hphase⟩).1
    rw [hphase] at hkept
    simpa using hkept
  generalize handle config (requests i) (.ok rawRef) s.store.fs = outcome at *
  refine ⟨h.once, h.owned, fun p hp => ?_, ?_, fun j response env hj henv => ?_⟩
  · rw [State.respond, hpublishes, List.mem_append, List.mem_singleton] at hp
    obtain hold | rfl := hp
    · obtain ⟨j, -, hothers⟩ := hothers p hold
      exact ⟨j, hothers⟩
    · exact ⟨i, hreaches, ⟨_, hphase⟩, by simp [s.responses_respond_self], by rw [href]⟩
  · rw [State.respond, hpublishes, List.map_append, List.nodup_append]
    refine ⟨h.nodup, List.nodup_singleton _, ?_⟩
    intro id hid id' hid' heq
    obtain ⟨p, hp, rfl⟩ := List.mem_map.mp hid
    obtain ⟨j, hne, -, -, -, rfl⟩ := hothers p hp
    rw [List.map_singleton, List.mem_singleton] at hid'
    exact hne (hids j i (Ulid.text_injective (heq.trans hid')))
  · by_cases hji : j = i
    · subst hji
      rw [s.responses_respond_self, Option.some.injEq] at hj
      rw [← hj, henvelope, Option.some.injEq] at henv
      refine ⟨(entry config (requests j) rawRef).1, List.mem_append_right _ ?_⟩
      rw [hpublishes, ← henv]
      exact List.mem_singleton.mpr rfl
    · rw [s.responses_respond_of_ne hji] at hj
      obtain ⟨topic, hmem⟩ := h.answered j response env hj henv
      exact ⟨topic, List.mem_append_left _ hmem⟩

theorem Evident.respond_failed (h : Evident config requests s) (hwaiting : s.responses i = none)
    {stored : Except String String}
    (hfails : (requests i).Reaches → ∃ reason, stored = .error reason) :
    Evident config requests (s.respond i (handle config (requests i) stored s.store.fs)) := by
  obtain ⟨hpublishes, henvelope⟩ := handle_of_not_stored config s.store.fs hfails
  have hothers := h.published_of_waiting hwaiting (handle config (requests i) stored s.store.fs)
  generalize handle config (requests i) stored s.store.fs = outcome at *
  refine ⟨h.once, h.owned, fun p hp => ?_, ?_, fun j response env hj henv => ?_⟩
  · rw [State.respond, hpublishes, List.append_nil] at hp
    obtain ⟨j, -, hothers⟩ := hothers p hp
    exact ⟨j, hothers⟩
  · rw [State.respond, hpublishes, List.append_nil]
    exact h.nodup
  · by_cases hji : j = i
    · subst hji
      rw [s.responses_respond_self, Option.some.injEq] at hj
      rw [← hj, henvelope] at henv
      cases henv
    · rw [s.responses_respond_of_ne hji] at hj
      obtain ⟨topic, hmem⟩ := h.answered j response env hj henv
      exact ⟨topic, List.mem_append_left _ hmem⟩

theorem Evident.step (hids : ∀ i j, (requests i).id = (requests j).id → i = j)
    (h : Evident config requests s) {action : ι × Action}
    (hstep : Step config requests s action () s') : Evident config requests s' := by
  cases hstep with
  | store reaches step => exact h.store hids step
  | @respond i stored waiting returned =>
      by_cases hreaches : (requests i).Reaches
      · cases stored with
        | ok rawRef => exact h.respond_stored hids waiting hreaches (returned hreaches)
        | error reason => exact h.respond_failed waiting fun _ => ⟨reason, rfl⟩
      · exact h.respond_failed waiting fun h => absurd h hreaches

theorem evident_of_run {t : State ι} {trace : List (Transition (State ι) (ι × Action) Unit)}
    (hids : ∀ i j, (requests i).id = (requests j).id → i = j) (hstart : s.Idle)
    (hrun : Run (Step config requests) s trace t) : Evident config requests t :=
  (hrun.invariant (Evident config requests) (fun _ _ => True)
    (fun _ _ _ _ h _ hstep => h.step hids hstep) (evident_of_idle hstart) fun _ _ => trivial).1

/-- An envelope on a topic vouches for the payload of a request, which can be loaded. -/
structure Vouches (config : Config) (fs : FileSystem) (r : Request) (topic : String)
    (env : RawEventEnvelope) : Prop where
  eventID : env.eventID = r.id.text
  sourceID : env.sourceID = r.sourceID
  loads : load config.root fs env.rawRef = .ok r.rawBytes
  rawSHA256 : env.rawSHA256 = String.ofList (Sha256.hex (Sha256.sum256 r.rawBytes))
  rawLengthBytes : env.rawLengthBytes = r.rawBytes.length
  accepted : (decision config r).status = .accepted →
    env.ingestStatus = "ACCEPTED" ∧ topic = "raw_events"
  quarantined : (decision config r).status = .quarantined →
    env.ingestStatus = "QUARANTINED" ∧ topic = "quarantined_events"
  rejected : (decision config r).status = .rejected →
    env.ingestStatus = "REJECTED" ∧ topic = "rejected_events"

omit [DecidableEq ι] in
theorem Evident.vouches (h : Evident config requests s) {topic : String} {env : RawEventEnvelope}
    (hmem : (topic, env) ∈ s.published) :
    ∃ i, s.responses i ≠ none ∧ Vouches config s.store.fs (requests i) topic env := by
  obtain ⟨i, -, hstored, hanswered, heq⟩ := h.published _ hmem
  obtain ⟨rfl, rfl⟩ := Prod.mk.inj heq
  have hfile := (h.once.kept i hstored).2
  have htells (status : IngestStatus) (hstatus : (decision config (requests i)).status = status) :
      (entry config (requests i) (RawStore.refOf (calls requests) i)).2.ingestStatus =
          status.text ∧
        (entry config (requests i) (RawStore.refOf (calls requests) i)).1 = topicOf status :=
    ⟨congrArg IngestStatus.text hstatus, congrArg topicOf hstatus⟩
  exact ⟨i, hanswered, rfl, rfl, load_of_file hfile, rfl, rfl, htells .accepted,
    htells .quarantined, htells .rejected⟩

/-- In every interleaving of requests with ids of their own, each envelope that has been published
or answered vouches for the payload of its request from then on, and no id is published twice. -/
theorem published_keeps_evidence {t : State ι}
    {trace : List (Transition (State ι) (ι × Action) Unit)}
    (hids : ∀ i j, (requests i).id = (requests j).id → i = j) (hstart : s.Idle)
    (hrun : Run (Step config requests) s trace t) :
    (∀ topic env, (topic, env) ∈ t.published →
      ∃ i, t.responses i ≠ none ∧ Vouches config t.store.fs (requests i) topic env) ∧
    (t.published.map fun p => p.2.eventID).Nodup ∧
    ∀ i response env, t.responses i = some response → response.envelope? = some env →
      ∃ topic, (topic, env) ∈ t.published := by
  have hevident := evident_of_run hids hstart hrun
  exact ⟨fun _ _ => hevident.vouches, hevident.nodup, hevident.answered⟩

end Evidence

section Alone

variable {config : Config} {requests : ι → Request}

omit [DecidableEq ι] in
theorem idle_blank : (State.blank : State ι).Idle := ⟨fun _ => rfl, rfl, fun _ => rfl⟩

variable (config) in
theorem exists_run_store (hreaches : ∀ i, (requests i).Reaches) {store store' : RawStore.State ι}
    {trace : List (Transition (RawStore.State ι) (ι × RawStore.Action) Unit)}
    (hrun : Run (RawStore.Step config.root (calls requests)) store trace store')
    (published : List (String × RawEventEnvelope)) (responses : ι → Option Response) :
    ∃ trace', Run (Step config requests) ⟨store, published, responses⟩ trace'
        ⟨store', published, responses⟩ ∧
      trace'.map Transition.input = trace.map fun tr => (tr.input.1, .store tr.input.2) := by
  induction hrun with
  | nil store => exact ⟨[], .nil _, rfl⟩
  | @cons _ _ _ op _ _ head tail ih =>
      obtain ⟨rest, hrest, hinputs⟩ := ih
      obtain ⟨i, op⟩ := op
      refine ⟨_, .cons (.store (s := ⟨_, published, responses⟩) (hreaches i) head) hrest, ?_⟩
      rw [List.map_cons, List.map_cons, hinputs]

/-- A gateway with the default limits. -/
def firewallConfig : Config where
  root := "/data"
  firewall := defaultFirewallConfig
  syntaxError _ := ""
  publish _ _ := .ok ()

/-- Two payloads of one source, one of which is no text. -/
def firewallRequest (binary : Bool) : Request where
  sourceHeader := ""
  sourceQuery := "fw-01"
  transportHeader := ""
  transportQuery := ""
  body := .ok (if binary then [255] else [104, 105])
  ctxErr := none
  id := if binary then 1 else 0
  idErr := none
  clock := .plain
  storeClock := .plain

theorem firewallRequest_reaches (binary : Bool) : (firewallRequest binary).Reaches := by
  cases binary with
  | false => exact ⟨by decide, by decide, by decide, rfl⟩
  | true => exact ⟨by decide, by decide, by decide, rfl⟩

theorem firewallRequest_distinct :
    ∀ i j, (firewallRequest i).id = (firewallRequest j).id → i = j := by
  decide

def firewallTopic (binary : Bool) : String :=
  if binary then "quarantined_events" else "raw_events"

def firewallEnvelope (binary : Bool) : RawEventEnvelope :=
  (entry firewallConfig (firewallRequest binary) (RawStore.refOf (calls firewallRequest) binary)).2

theorem handle_firewall (binary : Bool) (fs : FileSystem) :
    (handle firewallConfig (firewallRequest binary)
      (.ok (RawStore.refOf (calls firewallRequest) binary)) fs).2 =
        [(firewallTopic binary, firewallEnvelope binary)] := by
  have hdecision : topicOf (decision firewallConfig (firewallRequest binary)).status =
      firewallTopic binary := by
    revert binary
    decide +kernel
  rw [(handle_of_stored firewallConfig (firewallRequest_reaches binary) _ fs).1, entry, hdecision]
  rfl

theorem exists_run_firewallStored :
    ∃ trace store, Run (RawStore.Step firewallConfig.root (calls firewallRequest)) .blank trace
        store ∧
      trace.map Transition.input = RawStore.inTurn false true ∧
      ∀ binary, store.phase binary =
        .returned (.ok (RawStore.refOf (calls firewallRequest) binary)) := by
  obtain ⟨trace, store, hrun, hinputs, hfalse, htrue⟩ :=
    RawStore.exists_run_inTurn (freshIDs_of_distinct firewallRequest_distinct)
      firewallConfig.root (i := false) (j := true) (by decide) (by decide +kernel)
      (by decide +kernel)
  refine ⟨trace, store, hrun, hinputs, fun binary => ?_⟩
  cases binary with
  | false => exact hfalse
  | true => exact htrue

/-- The requests of the two payloads, in turn; the second is answered first. -/
def firewallInputs : List (Bool × Action) :=
  (RawStore.inTurn false true).map (fun (i, op) => (i, .store op)) ++
    [(true, .respond), (false, .respond)]

theorem exists_run_firewall :
    ∃ (trace : List (Transition (State Bool) (Bool × Action) Unit)) (t : State Bool),
      Run (Step firewallConfig firewallRequest) State.blank trace t ∧
      trace.map Transition.input = firewallInputs ∧
      t.published = [("quarantined_events", firewallEnvelope true),
        ("raw_events", firewallEnvelope false)] := by
  obtain ⟨storeTrace, store, hstored, hturns, hreturned⟩ := exists_run_firewallStored
  obtain ⟨trace, hrun, hinputs⟩ := exists_run_store firewallConfig firewallRequest_reaches hstored
    [] fun _ => none
  have hanswers := hrun.append (.cons (.respond (i := true) rfl fun _ => hreturned true)
    (.cons (.respond (i := false) rfl fun _ => hreturned false) (.nil _)))
  refine ⟨_, _, hanswers, ?_, ?_⟩
  · rw [List.map_append, hinputs, firewallInputs, ← hturns, List.map_map]
    rfl
  · rw [State.respond, State.respond]
    dsimp only
    rw [handle_firewall true, handle_firewall false]
    rfl

theorem published_keeps_evidence_firewall :
    ∃ (trace : List (Transition (State Bool) (Bool × Action) Unit)) (t : State Bool),
      Run (Step firewallConfig firewallRequest) State.blank trace t ∧
      trace.map Transition.input = firewallInputs ∧
      t.published = [("quarantined_events", firewallEnvelope true),
        ("raw_events", firewallEnvelope false)] ∧
      Vouches firewallConfig t.store.fs (firewallRequest true) "quarantined_events"
        (firewallEnvelope true) ∧
      Vouches firewallConfig t.store.fs (firewallRequest false) "raw_events"
        (firewallEnvelope false) := by
  obtain ⟨trace, t, hrun, hinputs, hpublished⟩ := exists_run_firewall
  have hvouches := (published_keeps_evidence firewallRequest_distinct idle_blank hrun).1
  have howns (binary : Bool) (hmem : (firewallTopic binary, firewallEnvelope binary) ∈
      t.published) : Vouches firewallConfig t.store.fs (firewallRequest binary)
        (firewallTopic binary) (firewallEnvelope binary) := by
    obtain ⟨i, -, hi⟩ := hvouches _ _ hmem
    obtain rfl := firewallRequest_distinct binary i (Ulid.text_injective hi.eventID)
    exact hi
  refine ⟨trace, t, hrun, hinputs, hpublished, howns true ?_, howns false ?_⟩
  · simp [hpublished, firewallTopic]
  · simp [hpublished, firewallTopic]

end Alone

end Ulpf.IngestGateway.Server
