import Ulpf.IngestGateway.Envelope
import Ulpf.Lib.BoundedQueue
import Ulpf.Lib.Dict
import Ulpf.Lib.Run
import Mathlib.Logic.Function.Basic

/-!
The in-memory event bus: a registry of bounded channels under topics, and what
the subscribers receive over the runs of publishers and subscribers.
-/

namespace Ulpf.IngestGateway

open Ulpf.Lib

def topicRawEvents : String := "raw_events"

def topicQuarantinedEvents : String := "quarantined_events"

def topicRejectedEvents : String := "rejected_events"

namespace EventBus

/-- The panics that an operation on a channel can end in. -/
inductive Panic where
  | sendOnClosedChannel
  | closeOfClosedChannel
  deriving DecidableEq

/-- A channel of a subscriber, `make(chan RawEventEnvelope, 64)`. -/
structure Channel where
  buffer : BoundedQueue RawEventEnvelope 64
  closed : Bool

/-- A new channel is open and empty. -/
def Channel.make : Channel := ⟨.empty, false⟩

/-- `select { case ch <- envelope: default: }` -/
def Channel.trySend (c : Channel) (envelope : RawEventEnvelope) : Except Panic Channel :=
  if c.closed then .error .sendOnClosedChannel
  else .ok { c with buffer := c.buffer.offer envelope }

/-- `close` of a channel, which panics when the channel is closed. -/
def Channel.close (c : Channel) : Except Panic Channel :=
  if c.closed then .error .closeOfClosedChannel else .ok { c with closed := true }

/-- The envelope a receive gives: a closed channel gives its pending envelopes first. -/
def Channel.receive (c : Channel) : Option RawEventEnvelope × Channel :=
  (c.buffer.take.1, { c with buffer := c.buffer.take.2 })

/-- `InMemoryBus`: the channels of each topic by their number, and the next number. -/
structure InMemoryBus where
  subscribers : Dict String (Dict ℕ ℕ)
  nextID : ℕ

/-- What `Subscribe` returns: the channel, and what its unsubscribe function closes over. -/
structure Subscription where
  topic : String
  id : ℕ
  ch : ℕ
  deriving DecidableEq

/-- The bus, the channels made so far under their references, and the
subscriptions its callers hold. -/
structure State where
  bus : InMemoryBus
  made : ℕ
  channels : ℕ → Channel
  handles : List Subscription

/-- `NewInMemoryBus` -/
def newInMemoryBus : State :=
  { bus := ⟨.empty, 0⟩, made := 0, channels := fun _ => .make, handles := [] }

/-- The operations of the bus and its subscribers. -/
inductive Op where
  | subscribe (topic : String)
  | publish (topic : String) (envelope : RawEventEnvelope)
  | receive (sub : Subscription)
  | unsubscribe (sub : Subscription)
  deriving DecidableEq

/-- What an operation returns. -/
inductive Outcome where
  | subscribed (sub : Subscription)
  | done
  | received (envelope : Option RawEventEnvelope)
  | panicked (p : Panic)
  deriving DecidableEq

/-- The subscribers of a topic. -/
def InMemoryBus.subs (b : InMemoryBus) (topic : String) : Dict ℕ ℕ :=
  (b.subscribers.get? topic).getD .empty

/-- `Subscribe` -/
def State.subscribe (s : State) (topic : String) : Subscription × State :=
  let id := s.bus.nextID
  let ch := s.made
  (⟨topic, id, ch⟩,
    { bus := ⟨s.bus.subscribers.set topic ((s.bus.subs topic).set id ch), id + 1⟩
      made := s.made + 1
      channels := Function.update s.channels ch .make
      handles := s.handles ++ [⟨topic, id, ch⟩] })

/-- The loop of `Publish` over the channels of a topic. -/
def sendAll (envelope : RawEventEnvelope) (order : List ℕ) (channels : ℕ → Channel) :
    Except Panic (ℕ → Channel) :=
  order.foldlM (fun chs ch => ((chs ch).trySend envelope).map (Function.update chs ch)) channels

/-- The function `Subscribe` returns. -/
def State.unsubscribe (s : State) (sub : Subscription) : Except Panic State :=
  let bus : InMemoryBus :=
    { s.bus with
      subscribers := s.bus.subscribers.set sub.topic
        ((s.bus.subs sub.topic).filterKeys (· ≠ sub.id)) }
  (s.channels sub.ch).close.map fun closed =>
    { s with bus := bus, channels := Function.update s.channels sub.ch closed }

/-- The operations of publishers and subscribers. `Publish` visits the channels
of its topic in any order. -/
inductive Step (s : State) : Op → Outcome → State → Prop where
  | subscribe (topic : String) :
      Step s (.subscribe topic) (.subscribed (s.subscribe topic).1) (s.subscribe topic).2
  | publish {topic : String} {envelope : RawEventEnvelope} {order : List ℕ}
      {channels : ℕ → Channel}
      (visits : order.Perm ((s.bus.subs topic).entries.map Prod.snd))
      (sent : sendAll envelope order s.channels = .ok channels) :
      Step s (.publish topic envelope) .done { s with channels := channels }
  | publishPanics {topic : String} {envelope : RawEventEnvelope} {order : List ℕ} {p : Panic}
      (visits : order.Perm ((s.bus.subs topic).entries.map Prod.snd))
      (failed : sendAll envelope order s.channels = .error p) :
      Step s (.publish topic envelope) (.panicked p) s
  | receive {sub : Subscription} (held : sub ∈ s.handles) :
      Step s (.receive sub) (.received (s.channels sub.ch).receive.1)
        { s with channels := Function.update s.channels sub.ch (s.channels sub.ch).receive.2 }
  | unsubscribe {sub : Subscription} {s' : State} (held : sub ∈ s.handles)
      (closed : s.unsubscribe sub = .ok s') : Step s (.unsubscribe sub) .done s'
  | unsubscribePanics {sub : Subscription} {p : Panic} (held : sub ∈ s.handles)
      (failed : s.unsubscribe sub = .error p) : Step s (.unsubscribe sub) (.panicked p) s

/-- Only a subscription that was made is received from, or ended. -/
def Held (s : State) : Op → Prop
  | .subscribe _ => True
  | .publish _ _ => True
  | .receive sub => sub ∈ s.handles
  | .unsubscribe sub => sub ∈ s.handles

instance (s : State) : DecidablePred (Held s)
  | .subscribe _ => inferInstanceAs (Decidable True)
  | .publish _ _ => inferInstanceAs (Decidable True)
  | .receive sub => inferInstanceAs (Decidable (sub ∈ s.handles))
  | .unsubscribe sub => inferInstanceAs (Decidable (sub ∈ s.handles))

/-- An operation whose `Publish` visits the channels in the order of the registry. -/
def State.run (s : State) : Op → Outcome × State
  | .subscribe topic => (.subscribed (s.subscribe topic).1, (s.subscribe topic).2)
  | .publish topic envelope =>
      match sendAll envelope ((s.bus.subs topic).entries.map Prod.snd) s.channels with
      | .ok channels => (.done, { s with channels := channels })
      | .error p => (.panicked p, s)
  | .receive sub =>
      (.received (s.channels sub.ch).receive.1,
        { s with channels := Function.update s.channels sub.ch (s.channels sub.ch).receive.2 })
  | .unsubscribe sub =>
      match s.unsubscribe sub with
      | .ok s' => (.done, s')
      | .error p => (.panicked p, s)

theorem step_run (s : State) (op : Op) (hheld : Held s op) :
    Step s op (s.run op).1 (s.run op).2 := by
  cases op with
  | subscribe topic => exact .subscribe topic
  | publish topic envelope =>
      have hperm := List.Perm.refl ((s.bus.subs topic).entries.map Prod.snd)
      rw [State.run]
      cases hsent : sendAll envelope ((s.bus.subs topic).entries.map Prod.snd) s.channels with
      | ok channels => exact .publish hperm hsent
      | error p => exact .publishPanics hperm hsent
  | receive sub => exact .receive hheld
  | unsubscribe sub =>
      rw [State.run]
      cases hclosed : s.unsubscribe sub with
      | ok s' => exact .unsubscribe hheld hclosed
      | error p => exact .unsubscribePanics hheld hclosed

theorem Channel.trySend_of_open {c : Channel} (h : c.closed = false)
    (envelope : RawEventEnvelope) :
    c.trySend envelope = .ok { c with buffer := c.buffer.offer envelope } := by
  simp [Channel.trySend, h]

theorem Channel.close_of_open {c : Channel} (h : c.closed = false) :
    c.close = .ok { c with closed := true } := by
  simp [Channel.close, h]

theorem sendAll_of_open {envelope : RawEventEnvelope} {order : List ℕ} {channels : ℕ → Channel}
    (hnodup : order.Nodup) (hopen : ∀ ch ∈ order, (channels ch).closed = false) :
    sendAll envelope order channels = .ok fun ch =>
      if ch ∈ order then { channels ch with buffer := (channels ch).buffer.offer envelope }
      else channels ch := by
  induction order generalizing channels with
  | nil => simp [sendAll, pure, Except.pure]
  | cons ch rest ih =>
      have hnot : ch ∉ rest := (List.nodup_cons.mp hnodup).1
      have hother : ∀ ch' ∈ rest, ch' ≠ ch := by
        rintro ch' hmem rfl
        exact hnot hmem
      have hsent : sendAll envelope (ch :: rest) channels =
          sendAll envelope rest (Function.update channels ch
            { channels ch with buffer := (channels ch).buffer.offer envelope }) := by
        rw [sendAll, List.foldlM_cons, Channel.trySend_of_open (hopen ch (by simp))]
        rfl
      have hrest : ∀ ch' ∈ rest, (Function.update channels ch
          { channels ch with buffer := (channels ch).buffer.offer envelope } ch').closed =
            false := by
        intro ch' hmem
        rw [Function.update_of_ne (hother ch' hmem)]
        exact hopen ch' (List.mem_cons_of_mem _ hmem)
      rw [hsent, ih (List.nodup_cons.mp hnodup).2 hrest]
      congr 1
      funext ch'
      by_cases hch : ch' = ch
      · subst hch
        simp [hnot]
      · simp [hch]

/-- The channel registered under a topic and an id. -/
def State.entry (s : State) (topic : String) (id : ℕ) : Option ℕ := (s.bus.subs topic).get? id

/-- The registry holds the channels of the subscriptions that are not closed, each
under an id of its own. -/
structure Registered (s : State) : Prop where
  made_eq : s.made = s.bus.nextID
  ch_eq : ∀ sub ∈ s.handles, sub.ch = sub.id
  id_lt : ∀ sub ∈ s.handles, sub.id < s.bus.nextID
  unique : ∀ sub ∈ s.handles, ∀ sub' ∈ s.handles, sub.id = sub'.id → sub = sub'
  entry_iff : ∀ topic id ch, s.entry topic id = some ch ↔
    ⟨topic, id, ch⟩ ∈ s.handles ∧ (s.channels ch).closed = false

theorem registered_newInMemoryBus : Registered newInMemoryBus where
  made_eq := rfl
  ch_eq := by simp [newInMemoryBus]
  id_lt := by simp [newInMemoryBus]
  unique := by simp [newInMemoryBus]
  entry_iff := by
    intro topic id ch
    simp [State.entry, InMemoryBus.subs, newInMemoryBus]

theorem entry_subscribe (s : State) (topic topic' : String) (id : ℕ) :
    (s.subscribe topic).2.entry topic' id =
      if topic = topic' ∧ s.bus.nextID = id then some s.made else s.entry topic' id := by
  by_cases htopic : topic = topic'
  · subst htopic
    simp [State.subscribe, State.entry, InMemoryBus.subs, Dict.get?_set]
  · simp [State.subscribe, State.entry, InMemoryBus.subs, Dict.get?_set_of_ne _ _ htopic, htopic]

theorem Registered.channels_subscribe {s : State} (h : Registered s) (topic : String)
    {sub : Subscription} (hsub : sub ∈ s.handles) :
    (s.subscribe topic).2.channels sub.ch = s.channels sub.ch := by
  have hne : sub.ch ≠ s.made := by
    rw [h.ch_eq sub hsub, h.made_eq]
    exact Nat.ne_of_lt (h.id_lt sub hsub)
  exact Function.update_of_ne hne _ _

theorem Registered.subscribe {s : State} (h : Registered s) (topic : String) :
    Registered (s.subscribe topic).2 where
  made_eq := congrArg (· + 1) h.made_eq
  ch_eq := by
    intro sub hsub
    rcases List.mem_append.mp hsub with hold | hnew
    · exact h.ch_eq sub hold
    · rw [List.mem_singleton.mp hnew]
      exact h.made_eq
  id_lt := by
    intro sub hsub
    rcases List.mem_append.mp hsub with hold | hnew
    · exact Nat.lt_succ_of_lt (h.id_lt sub hold)
    · rw [List.mem_singleton.mp hnew]
      exact Nat.lt_succ_self _
  unique := by
    intro sub hsub sub' hsub' hid
    rcases List.mem_append.mp hsub with hold | hnew <;>
      rcases List.mem_append.mp hsub' with hold' | hnew'
    · exact h.unique sub hold sub' hold' hid
    · have hlt := h.id_lt sub hold
      rw [hid, List.mem_singleton.mp hnew'] at hlt
      exact absurd hlt (Nat.lt_irrefl _)
    · have hlt := h.id_lt sub' hold'
      rw [← hid, List.mem_singleton.mp hnew] at hlt
      exact absurd hlt (Nat.lt_irrefl _)
    · rw [List.mem_singleton.mp hnew, List.mem_singleton.mp hnew']
  entry_iff := by
    intro topic' id ch
    rw [entry_subscribe]
    split
    · rename_i hnew
      obtain ⟨rfl, rfl⟩ := hnew
      constructor
      · intro hch
        cases hch
        simp [State.subscribe, Channel.make]
      · rintro ⟨hmem, -⟩
        rcases List.mem_append.mp hmem with hold | hsub
        · exact absurd (h.id_lt _ hold) (Nat.lt_irrefl _)
        · cases List.mem_singleton.mp hsub
          rfl
    · rename_i hother
      rw [h.entry_iff]
      constructor
      · rintro ⟨hmem, hopen⟩
        refine ⟨List.mem_append_left _ hmem, ?_⟩
        exact (congrArg Channel.closed (h.channels_subscribe topic hmem)).trans hopen
      · rintro ⟨hmem, hopen⟩
        rcases List.mem_append.mp hmem with hold | hsub
        · have hsame := congrArg Channel.closed (h.channels_subscribe topic hold)
          exact ⟨hold, hsame.symm.trans hopen⟩
        · cases List.mem_singleton.mp hsub
          exact absurd ⟨rfl, rfl⟩ hother

theorem Registered.eq_of_ch_eq {s : State} (h : Registered s) {sub sub' : Subscription}
    (hsub : sub ∈ s.handles) (hsub' : sub' ∈ s.handles) (hch : sub.ch = sub'.ch) : sub = sub' := by
  apply h.unique sub hsub sub' hsub'
  rw [← h.ch_eq sub hsub, ← h.ch_eq sub' hsub', hch]

theorem Registered.mem_subs_iff {s : State} (h : Registered s) {topic : String} {ch : ℕ} :
    ch ∈ (s.bus.subs topic).entries.map Prod.snd ↔
      ∃ id, ⟨topic, id, ch⟩ ∈ s.handles ∧ (s.channels ch).closed = false := by
  constructor
  · intro hmem
    obtain ⟨⟨id, ch'⟩, hentry, rfl⟩ := List.mem_map.mp hmem
    exact ⟨id, (h.entry_iff topic id ch').mp (Dict.get?_eq_some_iff.mpr hentry)⟩
  · rintro ⟨id, hsub⟩
    exact List.mem_map.mpr ⟨(id, ch), Dict.get?_eq_some_iff.mp ((h.entry_iff topic id ch).mpr hsub),
      rfl⟩

theorem Registered.nodup_subs {s : State} (h : Registered s) (topic : String) :
    ((s.bus.subs topic).entries.map Prod.snd).Nodup := by
  have hids : (s.bus.subs topic).entries.map Prod.snd =
      (s.bus.subs topic).entries.map Prod.fst := by
    apply List.map_congr_left
    rintro ⟨id, ch⟩ hentry
    exact h.ch_eq _ ((h.entry_iff topic id ch).mp (Dict.get?_eq_some_iff.mpr hentry)).1
  rw [hids]
  exact (s.bus.subs topic).nodup

theorem Registered.of_closed_eq {s : State} (h : Registered s) {channels : ℕ → Channel}
    (hclosed : ∀ ch, (channels ch).closed = (s.channels ch).closed) :
    Registered { s with channels := channels } where
  made_eq := h.made_eq
  ch_eq := h.ch_eq
  id_lt := h.id_lt
  unique := h.unique
  entry_iff := by
    intro topic id ch
    rw [hclosed]
    exact h.entry_iff topic id ch

/-- What a publication does to the channels of the bus. -/
def publishedChannels (s : State) (topic : String) (envelope : RawEventEnvelope) (ch : ℕ) :
    Channel :=
  if ch ∈ (s.bus.subs topic).entries.map Prod.snd then
    { s.channels ch with buffer := (s.channels ch).buffer.offer envelope }
  else s.channels ch

theorem Registered.sendAll_eq {s : State} (h : Registered s) {topic : String} {order : List ℕ}
    (hvisits : order.Perm ((s.bus.subs topic).entries.map Prod.snd))
    (envelope : RawEventEnvelope) :
    sendAll envelope order s.channels = .ok (publishedChannels s topic envelope) := by
  have hopen : ∀ ch ∈ order, (s.channels ch).closed = false := by
    intro ch hch
    obtain ⟨id, -, hopen⟩ := h.mem_subs_iff.mp (hvisits.mem_iff.mp hch)
    exact hopen
  rw [sendAll_of_open (hvisits.nodup_iff.mpr (h.nodup_subs topic)) hopen]
  congr 1
  funext ch
  simp only [publishedChannels, hvisits.mem_iff]

theorem entry_unsubscribe {s s' : State} {sub : Subscription} (h : s.unsubscribe sub = .ok s')
    (topic : String) (id : ℕ) :
    s'.entry topic id = if topic = sub.topic ∧ id = sub.id then none else s.entry topic id := by
  obtain ⟨closed, -, rfl⟩ := map_eq_ok_iff.mp h
  by_cases htopic : topic = sub.topic
  · subst htopic
    by_cases hid : id = sub.id
    · simp [State.entry, InMemoryBus.subs, Dict.get?_filterKeys, hid]
    · simp [State.entry, InMemoryBus.subs, Dict.get?_filterKeys, hid]
  · simp [State.entry, InMemoryBus.subs, Dict.get?_set_of_ne _ _ (Ne.symm htopic), htopic]

theorem Registered.unsubscribe {s s' : State} {sub : Subscription} (h : Registered s)
    (hsub : sub ∈ s.handles) (hunsub : s.unsubscribe sub = .ok s') : Registered s' := by
  have hentry := entry_unsubscribe hunsub
  obtain ⟨closed, hclose, rfl⟩ := map_eq_ok_iff.mp hunsub
  have hclosed : closed.closed = true := by
    rw [Channel.close] at hclose
    split at hclose
    · cases hclose
    · cases hclose
      rfl
  exact
    { made_eq := h.made_eq
      ch_eq := h.ch_eq
      id_lt := h.id_lt
      unique := h.unique
      entry_iff := by
        intro topic id ch
        rw [hentry]
        by_cases hch : ch = sub.ch
        · subst hch
          simp only [Function.update_self, hclosed, Bool.true_eq_false, and_false, iff_false]
          intro hsome
          split at hsome
          · cases hsome
          · rename_i hother
            have hmem := ((h.entry_iff topic id sub.ch).mp hsome).1
            have heq := h.eq_of_ch_eq hmem hsub rfl
            exact hother ⟨congrArg Subscription.topic heq, congrArg Subscription.id heq⟩
        · simp only [Function.update_of_ne hch]
          split
          · rename_i hsame
            obtain ⟨rfl, rfl⟩ := hsame
            simp only [reduceCtorEq, false_iff, not_and]
            intro hmem
            exact absurd (congrArg Subscription.ch (h.unique _ hmem sub hsub rfl)) hch
          · exact h.entry_iff topic id ch }

/-- What an operation does to the channel of a subscription. -/
def Channel.after (sub : Subscription) (c : Channel) : Op → Channel
  | .subscribe _ => c
  | .publish topic envelope =>
      if topic = sub.topic ∧ c.closed = false then
        { c with buffer := c.buffer.offer envelope }
      else c
  | .receive sub' => if sub' = sub then c.receive.2 else c
  | .unsubscribe sub' => if sub' = sub then { c with closed := true } else c

/-- No subscription is ended again. -/
def Legal (s : State) (op : Op) : Prop :=
  ∀ sub ∈ s.handles, op = .unsubscribe sub → (s.channels sub.ch).closed = false

/-- What a step does: it keeps the registry and does not panic, and each channel
is changed only by the operations on its own subscription and topic. -/
structure StepSpec (s : State) (op : Op) (out : Outcome) (s' : State) : Prop where
  registered : Registered s'
  noPanic : ∀ p, out ≠ .panicked p
  channel : ∀ sub ∈ s.handles, s'.channels sub.ch = (s.channels sub.ch).after sub op
  held : ∀ sub, sub ∈ s'.handles ↔ sub ∈ s.handles ∨ out = .subscribed sub
  fresh : ∀ sub, out = .subscribed sub → sub ∉ s.handles ∧ s'.channels sub.ch = .make
  receives : ∀ sub, op = .receive sub →
    sub ∈ s.handles ∧ out = .received (s.channels sub.ch).receive.1

theorem Registered.publishedChannels_eq {s : State} (h : Registered s) {sub : Subscription}
    (hsub : sub ∈ s.handles) (topic : String) (envelope : RawEventEnvelope) :
    publishedChannels s topic envelope sub.ch =
      (s.channels sub.ch).after sub (.publish topic envelope) := by
  have hiff : sub.ch ∈ (s.bus.subs topic).entries.map Prod.snd ↔
      topic = sub.topic ∧ (s.channels sub.ch).closed = false := by
    rw [h.mem_subs_iff]
    constructor
    · rintro ⟨id, hmem, hopen⟩
      exact ⟨congrArg Subscription.topic (h.eq_of_ch_eq hmem hsub rfl), hopen⟩
    · rintro ⟨rfl, hopen⟩
      exact ⟨sub.id, hsub, hopen⟩
  simp only [publishedChannels, Channel.after, hiff]

theorem step_spec {s s' : State} {op : Op} {out : Outcome} (h : Registered s)
    (hlegal : Legal s op) (hstep : Step s op out s') : StepSpec s op out s' := by
  cases hstep with
  | subscribe topic =>
      exact
        { registered := h.subscribe topic
          noPanic := by simp
          channel := fun sub hsub => h.channels_subscribe topic hsub
          held := by simp [State.subscribe, eq_comm]
          fresh := by
            intro sub hsub
            cases hsub
            refine ⟨fun hmem => ?_, Function.update_self _ _ _⟩
            exact absurd (h.id_lt _ hmem) (Nat.lt_irrefl _)
          receives := by simp }
  | @publish topic envelope order channels visits sent =>
      rw [h.sendAll_eq visits envelope] at sent
      cases sent
      exact
        { registered := h.of_closed_eq fun ch => by
            unfold publishedChannels
            split <;> rfl
          noPanic := by simp
          channel := fun sub hsub => h.publishedChannels_eq hsub topic envelope
          held := by simp
          fresh := by simp
          receives := by simp }
  | @publishPanics topic envelope order p visits failed =>
      rw [h.sendAll_eq visits envelope] at failed
      cases failed
  | @receive sub held =>
      exact
        { registered := h.of_closed_eq fun ch => by
            by_cases hch : ch = sub.ch
            · subst hch
              simp [Channel.receive]
            · rw [Function.update_of_ne hch]
          noPanic := by simp
          channel := by
            intro sub' hsub'
            by_cases hch : sub'.ch = sub.ch
            · cases h.eq_of_ch_eq hsub' held hch
              simp [Channel.after]
            · have hne : sub ≠ sub' := fun heq => hch (congrArg Subscription.ch heq).symm
              simp [Channel.after, Function.update_of_ne hch, hne]
          held := by simp
          fresh := by simp
          receives := by
            rintro sub' heq
            cases heq
            exact ⟨held, rfl⟩ }
  | @unsubscribe sub _ held closed =>
      have hregistered := h.unsubscribe held closed
      have hopen := hlegal sub held rfl
      obtain ⟨ended, hclose, rfl⟩ := map_eq_ok_iff.mp closed
      rw [Channel.close_of_open hopen] at hclose
      cases hclose
      exact
        { registered := hregistered
          noPanic := by simp
          channel := by
            intro sub' hsub'
            by_cases hch : sub'.ch = sub.ch
            · cases h.eq_of_ch_eq hsub' held hch
              simp [Channel.after]
            · have hne : sub ≠ sub' := fun heq => hch (congrArg Subscription.ch heq).symm
              simp [Channel.after, Function.update_of_ne hch, hne]
          held := by simp
          fresh := by simp
          receives := by simp }
  | @unsubscribePanics sub p held failed =>
      rw [State.unsubscribe, Channel.close_of_open (hlegal sub held rfl)] at failed
      cases failed

/-- A run of the bus, operation by operation. -/
abbrev Trace : Type := List (Transition State Op Outcome)

/-- The run has the steps of the bus. -/
abbrev BusRun (s : State) (trace : Trace) (t : State) : Prop := Run Step s trace t

/-- The subscription that a step ends. -/
def unsubscribed (tr : Transition State Op Outcome) : Option Subscription :=
  match tr.input with
  | .unsubscribe sub => some sub
  | _ => none

/-- Each unsubscribe function is called at most once. -/
def UnsubscribesOnce (trace : Trace) : Prop := (trace.filterMap unsubscribed).Nodup

/-- The envelope a step hands to a subscriber. -/
def receivedBy (sub : Subscription) (tr : Transition State Op Outcome) :
    Option RawEventEnvelope :=
  match tr.input, tr.output with
  | .receive sub', .received envelope => if sub' = sub then envelope else none
  | _, _ => none

def received (sub : Subscription) (trace : Trace) : List RawEventEnvelope :=
  trace.filterMap (receivedBy sub)

/-- The steps after the subscription was made. -/
def afterSubscribe (sub : Subscription) (trace : Trace) : Trace :=
  (trace.dropWhile fun tr => tr.output ≠ .subscribed sub).tail

/-- The steps between its subscribe and its unsubscribe. -/
def lifetime (sub : Subscription) (trace : Trace) : Trace :=
  (afterSubscribe sub trace).takeWhile fun tr => tr.input ≠ .unsubscribe sub

/-- The envelope a step publishes to a topic. -/
def publishedTo (topic : String) (tr : Transition State Op Outcome) : Option RawEventEnvelope :=
  match tr.input with
  | .publish topic' envelope => if topic' = topic then some envelope else none
  | _ => none

/-- What is published on the topic of a subscription while it lasts. -/
def published (sub : Subscription) (trace : Trace) : List RawEventEnvelope :=
  (lifetime sub trace).filterMap (publishedTo sub.topic)

/-- The envelopes waiting in the channel of a subscriber. -/
def pending (sub : Subscription) (s : State) : List RawEventEnvelope :=
  (s.channels sub.ch).buffer.pending

/-- The envelopes published to its topic between its subscribe and its
unsubscribe, less those published while 64 were pending. -/
def delivered (sub : Subscription) (trace : Trace) : List RawEventEnvelope :=
  ((lifetime sub trace).filter fun tr => (pending sub tr.before).length < 64).filterMap
    (publishedTo sub.topic)

/-- A publication on its topic is an item for a subscriber. -/
def offered (sub : Subscription) (tr : Transition State Op Outcome) :
    Option (QueueOp RawEventEnvelope) :=
  (publishedTo sub.topic tr).map .offer

/-- A receive of a subscriber takes an item. -/
def asked (sub : Subscription) (tr : Transition State Op Outcome) :
    Option (QueueOp RawEventEnvelope) :=
  if tr.input = .receive sub then some .take else none

/-- The part of a run a subscriber has a share in: what is published to its topic
while it is subscribed, and its own receives. -/
def view (sub : Subscription) (trace : Trace) : List (QueueOp RawEventEnvelope) :=
  (lifetime sub trace).filterMap (fun tr => (offered sub tr).or (asked sub tr)) ++
    ((afterSubscribe sub trace).dropWhile fun tr => tr.input ≠ .unsubscribe sub).filterMap
      (asked sub)

/-- No subscription that is ended in the run was ended before it. -/
def Safe (s : State) (trace : Trace) : Prop :=
  UnsubscribesOnce trace ∧
    ∀ sub ∈ s.handles, sub ∈ trace.filterMap unsubscribed → (s.channels sub.ch).closed = false

theorem Safe.legal {s s' : State} {op : Op} {out : Outcome} {rest : Trace}
    (h : Safe s (⟨s, op, out, s'⟩ :: rest)) : Legal s op := by
  rintro sub hsub rfl
  exact h.2 sub hsub (List.mem_filterMap.mpr ⟨_, List.mem_cons_self, rfl⟩)

theorem Safe.tail {s s' : State} {op : Op} {out : Outcome} {rest : Trace}
    (h : Safe s (⟨s, op, out, s'⟩ :: rest)) (hspec : StepSpec s op out s') : Safe s' rest := by
  obtain ⟨honce, hopen⟩ := h
  have hsub : (rest.filterMap unsubscribed).Sublist
      ((⟨s, op, out, s'⟩ :: rest : Trace).filterMap unsubscribed) :=
    (List.sublist_cons_self _ _).filterMap _
  refine ⟨hsub.nodup honce, ?_⟩
  intro sub hheld hmem
  rcases (hspec.held sub).mp hheld with hold | hnew
  · rw [hspec.channel sub hold]
    have hbefore := hopen sub hold (hsub.subset hmem)
    cases op with
    | subscribe topic => exact hbefore
    | publish topic envelope =>
        simp only [Channel.after]
        split <;> exact hbefore
    | receive sub' =>
        simp only [Channel.after]
        split <;> exact hbefore
    | unsubscribe sub' =>
        have hne : sub' ≠ sub := by
          rintro rfl
          have hcons : (⟨s, .unsubscribe sub', out, s'⟩ :: rest : Trace).filterMap unsubscribed =
              sub' :: rest.filterMap unsubscribed := rfl
          rw [UnsubscribesOnce, hcons] at honce
          exact (List.nodup_cons.mp honce).1 hmem
        simpa [Channel.after, hne] using hbefore
  · rw [(hspec.fresh sub hnew).2]
    rfl

theorem spec_run {s t : State} {trace : Trace} (h : Registered s) (hsafe : Safe s trace)
    (hrun : BusRun s trace t) : Run StepSpec s trace t := by
  induction hrun with
  | nil s => exact .nil s
  | cons head tail ih =>
      have hspec := step_spec h hsafe.legal head
      exact .cons hspec (ih hspec.registered (hsafe.tail hspec))

section Subscriber

variable {s s' t : State} {op : Op} {out : Outcome} {sub : Subscription} {trace : Trace}

theorem StepSpec.receivedBy_eq (h : StepSpec s op out s') :
    receivedBy sub ⟨s, op, out, s'⟩ =
      if op = .receive sub then (s.channels sub.ch).buffer.take.1 else none := by
  cases op with
  | receive sub' =>
      obtain ⟨-, rfl⟩ := h.receives sub' rfl
      simp only [receivedBy, Op.receive.injEq]
      split
      · rename_i heq
        subst heq
        rfl
      · rfl
  | subscribe topic => simp [receivedBy]
  | publish topic envelope => simp [receivedBy]
  | unsubscribe sub' => simp [receivedBy]

/-- After its unsubscribe a subscriber only drains its channel. -/
theorem StepSpec.closed_step (h : StepSpec s op out s') (hsub : sub ∈ s.handles)
    (hclosed : (s.channels sub.ch).closed = true) :
    (s'.channels sub.ch).closed = true ∧
      (s.channels sub.ch).buffer.run (asked sub ⟨s, op, out, s'⟩).toList =
        ((receivedBy sub ⟨s, op, out, s'⟩).toList, (s'.channels sub.ch).buffer) := by
  rw [h.receivedBy_eq, h.channel sub hsub]
  cases op with
  | subscribe topic => simp [Channel.after, asked, hclosed]
  | publish topic envelope => simp [Channel.after, asked, hclosed]
  | receive sub' =>
      by_cases heq : sub' = sub
      · simp [Channel.after, Channel.receive, BoundedQueue.step, asked, heq, hclosed]
      · simp [Channel.after, asked, heq, hclosed]
  | unsubscribe sub' =>
      by_cases heq : sub' = sub
      · simp [Channel.after, asked, heq]
      · simp [Channel.after, asked, heq, hclosed]

/-- Before it, what is published to its topic is offered to it. -/
theorem StepSpec.open_step (h : StepSpec s op out s') (hsub : sub ∈ s.handles)
    (hopen : (s.channels sub.ch).closed = false) (hop : op ≠ .unsubscribe sub) :
    (s'.channels sub.ch).closed = false ∧
      (s.channels sub.ch).buffer.run
          ((offered sub ⟨s, op, out, s'⟩).or (asked sub ⟨s, op, out, s'⟩)).toList =
        ((receivedBy sub ⟨s, op, out, s'⟩).toList, (s'.channels sub.ch).buffer) := by
  rw [h.receivedBy_eq, h.channel sub hsub]
  cases op with
  | subscribe topic => simp [Channel.after, offered, publishedTo, asked, hopen]
  | publish topic envelope =>
      by_cases htopic : topic = sub.topic
      · simp [Channel.after, offered, publishedTo, BoundedQueue.step, htopic, hopen]
      · simp [Channel.after, offered, publishedTo, asked, htopic, hopen]
  | receive sub' =>
      by_cases heq : sub' = sub
      · simp [Channel.after, Channel.receive, BoundedQueue.step, offered, publishedTo, asked, heq,
          hopen]
      · simp [Channel.after, offered, publishedTo, asked, heq, hopen]
  | unsubscribe sub' =>
      have hne : sub' ≠ sub := fun heq => hop (congrArg Op.unsubscribe heq)
      simp [Channel.after, offered, publishedTo, asked, hne, hopen]

/-- The envelope a step delivers to the channel of a subscriber. -/
def deliveredBy (sub : Subscription) (tr : Transition State Op Outcome) :
    Option RawEventEnvelope :=
  (publishedTo sub.topic tr).filter fun _ => (pending sub tr.before).length < 64

theorem StepSpec.open_conserves (h : StepSpec s op out s') (hsub : sub ∈ s.handles)
    (hopen : (s.channels sub.ch).closed = false) :
    (receivedBy sub ⟨s, op, out, s'⟩).toList ++ pending sub s' =
      pending sub s ++ (deliveredBy sub ⟨s, op, out, s'⟩).toList := by
  rw [h.receivedBy_eq, pending, h.channel sub hsub]
  cases op with
  | subscribe topic => simp [Channel.after, deliveredBy, publishedTo, pending]
  | publish topic envelope =>
      by_cases htopic : topic = sub.topic
      · by_cases hroom : (pending sub s).length < 64
        · have hdelivered : deliveredBy sub ⟨s, .publish topic envelope, out, s'⟩ =
              some envelope := by
            simp [deliveredBy, publishedTo, htopic, hroom]
          rw [hdelivered]
          rw [pending] at hroom ⊢
          simp [Channel.after, htopic, hopen, BoundedQueue.pending_offer, hroom]
        · have hdropped : deliveredBy sub ⟨s, .publish topic envelope, out, s'⟩ = none := by
            simpa [deliveredBy, publishedTo, htopic] using hroom
          rw [hdropped]
          rw [pending] at hroom ⊢
          simp [Channel.after, htopic, hopen, BoundedQueue.pending_offer, hroom]
      · simp [Channel.after, deliveredBy, publishedTo, pending, htopic]
  | receive sub' =>
      by_cases heq : sub' = sub
      · simpa [Channel.after, Channel.receive, deliveredBy, publishedTo, pending, heq] using
          BoundedQueue.taken_append_pending _
      · simp [Channel.after, deliveredBy, publishedTo, pending, heq]
  | unsubscribe sub' =>
      by_cases heq : sub' = sub
      · simp [Channel.after, deliveredBy, publishedTo, pending, heq]
      · simp [Channel.after, deliveredBy, publishedTo, pending, heq]

theorem StepSpec.closed_conserves (h : StepSpec s op out s') (hsub : sub ∈ s.handles)
    (hclosed : (s.channels sub.ch).closed = true) :
    (receivedBy sub ⟨s, op, out, s'⟩).toList ++ pending sub s' = pending sub s := by
  rw [h.receivedBy_eq, pending, h.channel sub hsub]
  cases op with
  | subscribe topic => simp [Channel.after, pending]
  | publish topic envelope => simp [Channel.after, pending, hclosed]
  | receive sub' =>
      by_cases heq : sub' = sub
      · simpa [Channel.after, Channel.receive, pending, heq] using
          BoundedQueue.taken_append_pending _
      · simp [Channel.after, pending, heq]
  | unsubscribe sub' => by_cases heq : sub' = sub <;> simp [Channel.after, pending, heq]

theorem filterMap_cons_toList {α β : Type} (f : α → Option β) (x : α) (xs : List α) :
    (x :: xs).filterMap f = (f x).toList ++ xs.filterMap f := by
  rw [List.filterMap_cons]
  cases f x <;> rfl

theorem closed_run (hrun : Run StepSpec s trace t) (hsub : sub ∈ s.handles)
    (hclosed : (s.channels sub.ch).closed = true) :
    (s.channels sub.ch).buffer.run (trace.filterMap (asked sub)) =
        (received sub trace, (t.channels sub.ch).buffer) ∧
      received sub trace ++ pending sub t = pending sub s := by
  induction hrun with
  | nil s => exact ⟨rfl, rfl⟩
  | @cons s s' t op out rest head tail ih =>
      obtain ⟨hclosed', hstep⟩ := head.closed_step hsub hclosed
      obtain ⟨hqueue, hconserved⟩ := ih ((head.held sub).mpr (Or.inl hsub)) hclosed'
      constructor
      · rw [received, filterMap_cons_toList, filterMap_cons_toList, BoundedQueue.run_append, hstep,
          hqueue]
        rfl
      · rw [received, filterMap_cons_toList, List.append_assoc]
        rw [received] at hconserved
        rw [hconserved, head.closed_conserves hsub hclosed]

theorem open_run (hrun : Run StepSpec s trace t) (hsub : sub ∈ s.handles)
    (hopen : (s.channels sub.ch).closed = false) :
    (s.channels sub.ch).buffer.run
        ((trace.takeWhile fun tr => tr.input ≠ .unsubscribe sub).filterMap
            (fun tr => (offered sub tr).or (asked sub tr)) ++
          (trace.dropWhile fun tr => tr.input ≠ .unsubscribe sub).filterMap (asked sub)) =
        (received sub trace, (t.channels sub.ch).buffer) ∧
      received sub trace ++ pending sub t =
        pending sub s ++
          (trace.takeWhile fun tr => tr.input ≠ .unsubscribe sub).filterMap (deliveredBy sub) := by
  induction hrun with
  | nil s => simp [received]
  | @cons s s' t op out rest head tail ih =>
      have hsub' : sub ∈ s'.handles := (head.held sub).mpr (Or.inl hsub)
      by_cases hop : op = .unsubscribe sub
      · subst hop
        have hended : s'.channels sub.ch = { s.channels sub.ch with closed := true } := by
          rw [head.channel sub hsub]
          simp [Channel.after]
        obtain ⟨hqueue, hconserved⟩ := closed_run tail hsub' (by rw [hended])
        have hbuffer : (s'.channels sub.ch).buffer = (s.channels sub.ch).buffer := by rw [hended]
        have hreceived : received sub (⟨s, .unsubscribe sub, out, s'⟩ :: rest) =
            received sub rest := rfl
        rw [List.takeWhile_cons_of_neg (by simp), List.dropWhile_cons_of_neg (by simp), hreceived]
        constructor
        · rw [← hqueue, hbuffer]
          rfl
        · rw [hconserved, pending, hbuffer]
          simp [pending]
      · obtain ⟨hopen', hstep⟩ := head.open_step hsub hopen hop
        obtain ⟨hqueue, hconserved⟩ := ih hsub' hopen'
        rw [List.takeWhile_cons_of_pos (by simpa using hop),
          List.dropWhile_cons_of_pos (by simpa using hop)]
        constructor
        · rw [received, filterMap_cons_toList, filterMap_cons_toList, List.append_assoc,
            BoundedQueue.run_append, hstep, hqueue]
          rfl
        · rw [received, filterMap_cons_toList, filterMap_cons_toList, List.append_assoc]
          rw [received] at hconserved
          rw [hconserved, ← List.append_assoc, head.open_conserves hsub hopen, List.append_assoc]

theorem subscriber_run (hrun : Run StepSpec s trace t) (hnew : sub ∉ s.handles)
    (hsub : sub ∈ t.handles) :
    BoundedQueue.empty.run (view sub trace) = (received sub trace, (t.channels sub.ch).buffer) ∧
      received sub trace ++ pending sub t = (lifetime sub trace).filterMap (deliveredBy sub) := by
  induction hrun with
  | nil s => exact absurd hsub hnew
  | @cons s s' t op out rest head tail ih =>
      have hnone : receivedBy sub ⟨s, op, out, s'⟩ = none := by
        rw [head.receivedBy_eq]
        split
        · rename_i heq
          exact absurd (head.receives sub heq).1 hnew
        · rfl
      have hreceived : received sub (⟨s, op, out, s'⟩ :: rest) = received sub rest := by
        rw [received, filterMap_cons_toList, hnone]
        rfl
      by_cases hmade : out = .subscribed sub
      · have hfresh := (head.fresh sub hmade).2
        have hafter : afterSubscribe sub (⟨s, op, out, s'⟩ :: rest) = rest := by
          rw [afterSubscribe, List.dropWhile_cons_of_neg (by simpa using hmade)]
          rfl
        obtain ⟨hqueue, hconserved⟩ := open_run tail ((head.held sub).mpr (Or.inr hmade))
          (by rw [hfresh]; rfl)
        rw [hreceived, view, lifetime, hafter]
        rw [hfresh] at hqueue
        refine ⟨hqueue, ?_⟩
        rw [hconserved, pending, hfresh]
        rfl
      · have hafter : afterSubscribe sub (⟨s, op, out, s'⟩ :: rest) = afterSubscribe sub rest := by
          rw [afterSubscribe, List.dropWhile_cons_of_pos (by simpa using hmade)]
          rfl
        have hnew' : sub ∉ s'.handles := by
          rw [head.held sub]
          rintro (hold | hsame)
          · exact hnew hold
          · exact hmade hsame
        rw [hreceived, view, lifetime, hafter]
        exact ih hnew' hsub

theorem filterMap_deliveredBy (sub : Subscription) (trace : Trace) :
    trace.filterMap (deliveredBy sub) =
      (trace.filter fun tr => (pending sub tr.before).length < 64).filterMap
        (publishedTo sub.topic) := by
  rw [List.filterMap_filter]
  congr 1
  funext tr
  rw [deliveredBy]
  cases publishedTo sub.topic tr with
  | none => simp
  | some envelope => simp [Option.filter_some]

end Subscriber

/-- What the bus owes a subscriber over a run that ends in `t`. -/
structure Delivers (sub : Subscription) (trace : Trace) (t : State) : Prop where
  inOrder : (received sub trace).Sublist (published sub trace)
  complete : received sub trace ++ pending sub t = delivered sub trace
  ownSteps : ∀ trace' t' sub', BusRun newInMemoryBus trace' t' → UnsubscribesOnce trace' →
    sub' ∈ t'.handles → view sub' trace' = view sub trace →
      received sub' trace' = received sub trace

theorem safe_newInMemoryBus {trace : Trace} (honce : UnsubscribesOnce trace) :
    Safe newInMemoryBus trace :=
  ⟨honce, by simp [newInMemoryBus]⟩

/-- Over every run of a new bus that calls each unsubscribe function at most once:
no step sends on or closes a closed channel; each subscriber receives what was
published to its topic while it was subscribed, in that order, less what was
published while 64 envelopes were pending at it; and what it receives depends on
these publications and its own receives alone. -/
theorem newInMemoryBus_delivers {trace : Trace} {t : State}
    (hrun : BusRun newInMemoryBus trace t) (honce : UnsubscribesOnce trace) :
    (∀ tr ∈ trace, ∀ p, tr.output ≠ .panicked p) ∧ ∀ sub ∈ t.handles, Delivers sub trace t := by
  have hspec := spec_run registered_newInMemoryBus (safe_newInMemoryBus honce) hrun
  refine ⟨fun tr hmem => (hspec.step_of_mem hmem).noPanic, ?_⟩
  intro sub hsub
  obtain ⟨hqueue, hconserved⟩ := subscriber_run hspec (by simp [newInMemoryBus]) hsub
  rw [filterMap_deliveredBy] at hconserved
  exact
    { inOrder := by
        have hdelivered : (received sub trace ++ pending sub t).Sublist (published sub trace) := by
          rw [hconserved]
          exact List.filter_sublist.filterMap _
        exact (List.sublist_append_left _ _).trans hdelivered
      complete := hconserved
      ownSteps := by
        intro trace' t' sub' hrun' honce' hsub' hview
        have hspec' := spec_run registered_newInMemoryBus (safe_newInMemoryBus honce') hrun'
        have hqueue' := (subscriber_run hspec' (by simp [newInMemoryBus]) hsub').1
        rw [hview, hqueue] at hqueue'
        exact (congrArg Prod.fst hqueue').symm }

/-- An envelope that differs from the others in its length. -/
def rawEvent (length : ℕ) : RawEventEnvelope :=
  ⟨"1.0", "01J0", "fw-1", "2024-01-01T00:00:00Z", "syslog_udp", "raw/2024/01/01/fw-1/01J0", "ab",
    length, "ACCEPTED"⟩

/-- Two subscribers come; one envelope more is published than their channels hold; the first
receives one, the second goes, and one more is published. -/
def burst : List Op :=
  [.subscribe topicRawEvents, .subscribe topicRawEvents] ++
    (List.range 65).map (fun length => .publish topicRawEvents (rawEvent length)) ++
    [.receive ⟨topicRawEvents, 0, 0⟩, .unsubscribe ⟨topicRawEvents, 1, 1⟩,
      .publish topicRawEvents (rawEvent 65)]

/-- Both miss the envelope their channels were full at, and only the first gets the last one. -/
theorem newInMemoryBus_delivers_burst :
    let trace := transitions State.run newInMemoryBus burst
    let t := (runInputs State.run newInMemoryBus burst).2
    BusRun newInMemoryBus trace t ∧
      Delivers ⟨topicRawEvents, 0, 0⟩ trace t ∧ Delivers ⟨topicRawEvents, 1, 1⟩ trace t ∧
      received ⟨topicRawEvents, 0, 0⟩ trace = [rawEvent 0] ∧
      delivered ⟨topicRawEvents, 0, 0⟩ trace =
        (List.range 64).map rawEvent ++ [rawEvent 65] ∧
      delivered ⟨topicRawEvents, 1, 1⟩ trace = (List.range 64).map rawEvent := by
  intro trace t
  have hrun : BusRun newInMemoryBus trace t :=
    run_transitions (C := Held) step_run burst (by decide +kernel)
  have honce : UnsubscribesOnce trace :=
    of_decide_eq_true (p := (trace.filterMap unsubscribed).Nodup) (by decide +kernel)
  have hdelivers := (newInMemoryBus_delivers hrun honce).2
  exact ⟨hrun, hdelivers _ (by decide +kernel), hdelivers _ (by decide +kernel), by decide +kernel,
    by decide +kernel, by decide +kernel⟩

end EventBus

end Ulpf.IngestGateway
