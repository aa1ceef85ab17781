import Ulpf.IngestGateway.Server

/-!
The gateway with its bus. What a handler publishes goes to the channels of the subscribers, which
come, receive and go between the steps of the requests; whatever one of them receives stands for
a payload that can be loaded.
-/

namespace Ulpf.IngestGateway.Delivery

open Ulpf.Lib
open Ulpf.IngestGateway.EventBus
open Ulpf.IngestGateway.Server (Config Request Vouches Evident evident_of_run)

variable {ι : Type} [DecidableEq ι]

/-- The server with its bus. -/
structure State (ι : Type) where
  server : Server.State ι
  bus : EventBus.State

/-- A step of a request, or an operation of a subscriber. -/
inductive Action (ι : Type) where
  | request (i : ι) (action : Server.Action)
  | subscriber (op : Op)
  deriving DecidableEq

section Steps

variable (config : Config) (requests : ι → Request)

/-- A step of a request, which hands to the bus what it publishes, or an operation of a
subscriber. The output is what happens at the bus. -/
inductive Step (s : State ι) : Action ι → Option (Op × Outcome) → State ι → Prop where
  | quiet {i : ι} {action : Server.Action} {server : Server.State ι}
      (step : Server.Step config requests s.server (i, action) () server)
      (silent : server.published = s.server.published) :
      Step s (.request i action) none ⟨server, s.bus⟩
  | publish {i : ι} {server : Server.State ι} {topic : String} {env : RawEventEnvelope}
      {out : Outcome} {bus : EventBus.State}
      (step : Server.Step config requests s.server (i, .respond) () server)
      (published : server.published = s.server.published ++ [(topic, env)])
      (sent : EventBus.Step s.bus (.publish topic env) out bus) :
      Step s (.request i .respond) (some (.publish topic env, out)) ⟨server, bus⟩
  | subscriber {op : Op} {out : Outcome} {bus : EventBus.State}
      (own : ∀ topic env, op ≠ .publish topic env) (step : EventBus.Step s.bus op out bus) :
      Step s (.subscriber op) (some (op, out)) ⟨s.server, bus⟩

/-- What a step of the gateway shows: the operation of the bus that it takes, if any. -/
abbrev GatewayStep (ι : Type) := Transition (State ι) (Action ι) (Option (Op × Outcome))

end Steps

section Parts

/-- The part of the requests in a step. -/
def serverShare (tr : GatewayStep ι) : Option ((ι × Server.Action) × Unit) :=
  match tr.input with
  | .request i action => some ((i, action), ())
  | .subscriber _ => none

/-- The steps of the bus in a run. -/
def busTrace (trace : List (GatewayStep ι)) : EventBus.Trace :=
  trace.filterMap fun tr =>
    tr.output.map fun (op, out) => ⟨tr.before.bus, op, out, tr.after.bus⟩

def publication : Op → Option (String × RawEventEnvelope)
  | .publish topic env => some (topic, env)
  | _ => none

variable {config : Config} {requests : ι → Request} {s t : State ι} {trace : List (GatewayStep ι)}

theorem server_run (hrun : Run (Step config requests) s trace t) :
    ∃ serverTrace, Run (Server.Step config requests) s.server serverTrace t.server := by
  refine ⟨_, hrun.project State.server serverShare ?_ ?_⟩
  · intro before input output after k o hstep hshare
    cases hstep with
    | quiet step silent =>
        cases hshare
        exact step
    | publish step published sent =>
        cases hshare
        exact step
    | subscriber own step => cases hshare
  · intro before input output after hstep hshare
    cases hstep with
    | quiet step silent => cases hshare
    | publish step published sent => cases hshare
    | subscriber own step => rfl

theorem bus_run (hrun : Run (Step config requests) s trace t) :
    EventBus.BusRun s.bus (busTrace trace) t.bus := by
  refine hrun.project State.bus (fun tr => tr.output) ?_ ?_
  · intro before input output after k o hstep hshare
    cases hstep with
    | quiet step silent => cases hshare
    | publish step published sent =>
        cases hshare
        exact sent
    | subscriber own step =>
        cases hshare
        exact step
  · intro before input output after hstep hshare
    cases hstep with
    | quiet step silent => rfl
    | publish step published sent => cases hshare
    | subscriber own step => cases hshare

theorem publication_of_subscriber {op : Op} (own : ∀ topic env, op ≠ .publish topic env) :
    publication op = none := by
  cases op with
  | publish topic env => exact absurd rfl (own topic env)
  | subscribe topic => rfl
  | receive sub => rfl
  | unsubscribe sub => rfl

omit [DecidableEq ι] in
theorem filterMap_busTrace (trace : List (GatewayStep ι)) :
    (busTrace trace).filterMap (fun tr => publication tr.input) =
      trace.flatMap fun tr => (tr.output.bind fun (op, _) => publication op).toList := by
  rw [busTrace, List.filterMap_filterMap, List.filterMap_eq_flatMap_toList]
  congr 1
  funext tr
  rcases tr with ⟨before, input, _ | ⟨op, out⟩, after⟩
  · rfl
  · rfl

theorem published_eq (hrun : Run (Step config requests) s trace t) :
    t.server.published =
      s.server.published ++ (busTrace trace).filterMap fun tr => publication tr.input := by
  rw [filterMap_busTrace]
  refine hrun.accumulate (fun s : State ι => s.server.published) _ ?_
  rintro ⟨before, input, output, after⟩ hstep
  dsimp only at hstep ⊢
  cases hstep with
  | quiet step silent => simpa using silent
  | publish step published sent => simpa [publication] using published
  | subscriber own step => simp [publication_of_subscriber own]

end Parts

section Receiving

variable {config : Config} {requests : ι → Request} {s t : State ι} {trace : List (GatewayStep ι)}
  {sub : Subscription}

/-- The envelopes published on a topic. -/
def onTopic (topic : String) (log : List (String × RawEventEnvelope)) : List RawEventEnvelope :=
  (log.filter fun p => p.1 = topic).map Prod.snd

theorem publishedTo_eq (topic : String) (tr : Transition EventBus.State Op Outcome) :
    (publishedTo topic tr).toList = onTopic topic (publication tr.input).toList := by
  obtain ⟨before, op, out, after⟩ := tr
  cases op with
  | publish topic' env =>
      by_cases htopic : topic' = topic
      · simp [publishedTo, publication, onTopic, htopic]
      · simp [publishedTo, publication, onTopic, htopic]
  | subscribe topic' => rfl
  | receive sub => rfl
  | unsubscribe sub => rfl

theorem filterMap_publishedTo (topic : String) (trace : EventBus.Trace) :
    trace.filterMap (publishedTo topic) =
      onTopic topic (trace.filterMap fun tr => publication tr.input) := by
  induction trace with
  | nil => rfl
  | cons tr trace ih =>
      rw [filterMap_cons_toList, filterMap_cons_toList, publishedTo_eq, ih, onTopic, onTopic,
        onTopic, List.filter_append, List.map_append]

theorem lifetime_sublist (sub : Subscription) (trace : EventBus.Trace) :
    (lifetime sub trace).Sublist trace :=
  (List.takeWhile_sublist _).trans ((List.tail_sublist _).trans (List.dropWhile_sublist _))

theorem received_sublist {bus : EventBus.State} {trace : EventBus.Trace}
    (hrun : EventBus.BusRun newInMemoryBus trace bus) (honce : UnsubscribesOnce trace)
    (hsub : sub ∈ bus.handles) :
    (received sub trace).Sublist
      (onTopic sub.topic (trace.filterMap fun tr => publication tr.input)) := by
  have hspec := spec_run registered_newInMemoryBus (safe_newInMemoryBus honce) hrun
  obtain ⟨-, hconserved⟩ := subscriber_run hspec (by simp [newInMemoryBus]) hsub
  rw [filterMap_deliveredBy] at hconserved
  rw [← filterMap_publishedTo]
  calc
    (received sub trace).Sublist (received sub trace ++ pending sub bus) :=
      List.sublist_append_left _ _
    _ = ((lifetime sub trace).filter fun tr => (pending sub tr.before).length < 64).filterMap
          (publishedTo sub.topic) := hconserved
    List.Sublist _ ((lifetime sub trace).filterMap (publishedTo sub.topic)) :=
      List.filter_sublist.filterMap _
    List.Sublist _ (trace.filterMap (publishedTo sub.topic)) :=
      (lifetime_sublist sub trace).filterMap _

theorem received_sublist_published (hstart : s.server.Idle) (hbus : s.bus = newInMemoryBus)
    (hrun : Run (Step config requests) s trace t) (honce : UnsubscribesOnce (busTrace trace))
    (hsub : sub ∈ t.bus.handles) :
    (received sub (busTrace trace)).Sublist (onTopic sub.topic t.server.published) := by
  have hbusRun := bus_run hrun
  rw [hbus] at hbusRun
  rw [published_eq hrun, hstart.published, List.nil_append]
  exact received_sublist hbusRun honce hsub

/-- In every interleaving of the requests with the operations of the subscribers, in which each
unsubscribe is called at most once, no step panics; and each subscriber receives envelopes of its
topic in the order they were published, none twice, each of which vouches for the payload of an
answered request. -/
theorem received_keeps_evidence
    (hids : ∀ i j, (requests i).id = (requests j).id → i = j) (hstart : s.server.Idle)
    (hbus : s.bus = newInMemoryBus) (hrun : Run (Step config requests) s trace t)
    (honce : UnsubscribesOnce (busTrace trace)) :
    (∀ tr ∈ busTrace trace, ∀ p, tr.output ≠ .panicked p) ∧
    ∀ sub ∈ t.bus.handles,
      (received sub (busTrace trace)).Sublist (onTopic sub.topic t.server.published) ∧
      ((received sub (busTrace trace)).map RawEventEnvelope.eventID).Nodup ∧
      ∀ env ∈ received sub (busTrace trace), ∃ i, t.server.responses i ≠ none ∧
        Vouches config t.server.store.fs (requests i) sub.topic env := by
  obtain ⟨serverTrace, hserver⟩ := server_run hrun
  have hevident : Evident config requests t.server := evident_of_run hids hstart hserver
  have hbusRun := bus_run hrun
  rw [hbus] at hbusRun
  have hspec := spec_run registered_newInMemoryBus (safe_newInMemoryBus honce) hbusRun
  refine ⟨fun tr hmem => (hspec.step_of_mem hmem).noPanic, fun sub hsub => ?_⟩
  have hsublist := received_sublist_published hstart hbus hrun honce hsub
  refine ⟨hsublist, ?_, fun env henv => ?_⟩
  · have hnodup : ((onTopic sub.topic t.server.published).map RawEventEnvelope.eventID).Nodup := by
      rw [onTopic, List.map_map]
      exact (List.filter_sublist.map _).nodup hevident.nodup
    exact (hsublist.map _).nodup hnodup
  · obtain ⟨⟨topic, env'⟩, hmem, rfl⟩ := List.mem_map.mp (hsublist.subset henv)
    obtain ⟨hlogged, htopic⟩ := List.mem_filter.mp hmem
    obtain rfl : topic = sub.topic := of_decide_eq_true htopic
    exact hevident.vouches hlogged

end Receiving

section Alone

variable {config : Config} {requests : ι → Request}

variable (config) in
theorem exists_run_store (hreaches : ∀ i, (requests i).Reaches) {store store' : RawStore.State ι}
    {trace : List (Transition (RawStore.State ι) (ι × RawStore.Action) Unit)}
    (hrun : Run (RawStore.Step config.root (Server.calls requests)) store trace store')
    (published : List (String × RawEventEnvelope)) (responses : ι → Option Server.Response)
    (bus : EventBus.State) :
    ∃ trace', Run (Step config requests) ⟨⟨store, published, responses⟩, bus⟩ trace'
        ⟨⟨store', published, responses⟩, bus⟩ ∧ busTrace trace' = [] ∧
      trace'.map Transition.input =
        trace.map fun tr => .request tr.input.1 (.store tr.input.2) := by
  induction hrun with
  | nil store => exact ⟨[], .nil _, rfl, rfl⟩
  | @cons _ _ _ op _ _ head tail ih =>
      obtain ⟨rest, hrest, hquiet, hinputs⟩ := ih
      obtain ⟨i, op⟩ := op
      have hstep : Server.Step config requests ⟨_, published, responses⟩ (i, .store op) () _ :=
        .store (hreaches i) head
      refine ⟨_, .cons (.quiet (s := ⟨_, bus⟩) hstep rfl) hrest, hquiet, ?_⟩
      rw [List.map_cons, List.map_cons, hinputs]

omit [DecidableEq ι] in
theorem busTrace_append (trace trace' : List (GatewayStep ι)) :
    busTrace (trace ++ trace') = busTrace trace ++ busTrace trace' :=
  List.filterMap_append

open Server (firewallConfig firewallRequest firewallTopic firewallEnvelope)

/-- The gateway before the two requests, with a new bus. -/
def firewallStart : State Bool := ⟨Server.State.blank, newInMemoryBus⟩

/-- The subscription to the topic of a payload. -/
def firewallSub (binary : Bool) : Subscription :=
  if binary then ⟨"quarantined_events", 0, 0⟩ else ⟨"raw_events", 1, 1⟩

/-- Two subscribers come, the requests are served in turn, and each subscriber receives. -/
def firewallInputs : List (Action Bool) :=
  [.subscriber (.subscribe "quarantined_events"), .subscriber (.subscribe "raw_events")] ++
    (RawStore.inTurn false true).map (fun (i, op) => .request i (.store op)) ++
    [.request true .respond, .request false .respond,
      .subscriber (.receive (firewallSub true)), .subscriber (.receive (firewallSub false))]

theorem exists_run_firewall :
    ∃ (trace : List (GatewayStep Bool)) (t : State Bool),
      Run (Step firewallConfig firewallRequest) firewallStart trace t ∧
      trace.map Transition.input = firewallInputs ∧ UnsubscribesOnce (busTrace trace) ∧
      ∀ binary, firewallSub binary ∈ t.bus.handles ∧
        received (firewallSub binary) (busTrace trace) = [firewallEnvelope binary] := by
  let bus₁ := (newInMemoryBus.run (.subscribe "quarantined_events")).2
  let bus₂ := (bus₁.run (.subscribe "raw_events")).2
  let bus₃ := (bus₂.run (.publish "quarantined_events" (firewallEnvelope true))).2
  let bus₄ := (bus₃.run (.publish "raw_events" (firewallEnvelope false))).2
  let bus₅ := (bus₄.run (.receive (firewallSub true))).2
  have hheld : Held bus₄ (.receive (firewallSub true)) ∧
      Held bus₅ (.receive (firewallSub false)) := by
    decide +kernel
  obtain ⟨storeTrace, store, hstored, hturns, hreturned⟩ := Server.exists_run_firewallStored
  obtain ⟨quiet, hquietRun, hquiet, hinputs⟩ := exists_run_store firewallConfig
    Server.firewallRequest_reaches hstored [] (fun _ => none) bus₂
  have hsubscribe (s : State Bool) (topic : String) :
      Step firewallConfig firewallRequest s (.subscriber (.subscribe topic)) _ _ :=
    .subscriber (by simp) (step_run s.bus (.subscribe topic) trivial)
  have hanswer (s : Server.State Bool) (bus : EventBus.State) (binary : Bool)
      (hwaiting : s.responses binary = none) (hstore : s.store = store) :
      Step firewallConfig firewallRequest ⟨s, bus⟩ (.request binary .respond) _ _ :=
    .publish (.respond hwaiting fun _ => hstore ▸ hreturned binary)
      (congrArg (s.published ++ ·) (Server.handle_firewall binary _))
      (step_run bus (.publish (firewallTopic binary) (firewallEnvelope binary)) trivial)
  have hreceive (s : State Bool) (binary : Bool)
      (hheld : Held s.bus (.receive (firewallSub binary))) :
      Step firewallConfig firewallRequest s (.subscriber (.receive (firewallSub binary))) _ _ :=
    .subscriber (by simp) (step_run s.bus (.receive (firewallSub binary)) hheld)
  have hbefore := Run.cons (hsubscribe firewallStart "quarantined_events")
    (.cons (hsubscribe _ "raw_events") (.nil _))
  have hafter := Run.cons (hanswer ⟨store, [], fun _ => none⟩ bus₂ true rfl rfl)
    (.cons (hanswer _ bus₃ false rfl rfl) (.cons (hreceive _ true hheld.1)
      (.cons (hreceive _ false hheld.2) (.nil _))))
  refine ⟨_, _, (hbefore.append hquietRun).append hafter, ?_, ?_, fun binary => ⟨?_, ?_⟩⟩
  · rw [List.map_append, List.map_append, hinputs, firewallInputs, ← hturns, List.map_map]
    rfl
  · rw [busTrace_append, busTrace_append, hquiet]
    exact List.nodup_nil
  · change firewallSub binary ∈ (bus₅.run (.receive (firewallSub false))).2.handles
    revert binary
    decide +kernel
  · rw [busTrace_append, busTrace_append, hquiet]
    cases binary with
    | false => rfl
    | true => rfl

theorem received_keeps_evidence_firewall :
    ∃ (trace : List (GatewayStep Bool)) (t : State Bool),
      Run (Step firewallConfig firewallRequest) firewallStart trace t ∧
      trace.map Transition.input = firewallInputs ∧
      ∀ binary, received (firewallSub binary) (busTrace trace) = [firewallEnvelope binary] ∧
        Vouches firewallConfig t.server.store.fs (firewallRequest binary)
          (firewallSub binary).topic (firewallEnvelope binary) := by
  obtain ⟨trace, t, hrun, hinputs, honce, hreceived⟩ := exists_run_firewall
  have hkeeps := (received_keeps_evidence Server.firewallRequest_distinct Server.idle_blank rfl hrun
    honce).2
  refine ⟨trace, t, hrun, hinputs, fun binary => ⟨(hreceived binary).2, ?_⟩⟩
  obtain ⟨-, -, hvouches⟩ := hkeeps (firewallSub binary) (hreceived binary).1
  obtain ⟨i, -, hi⟩ := hvouches (firewallEnvelope binary) (by simp [(hreceived binary).2])
  obtain rfl := Server.firewallRequest_distinct binary i (Ulid.text_injective hi.eventID)
  exact hi

end Alone

end Ulpf.IngestGateway.Delivery
