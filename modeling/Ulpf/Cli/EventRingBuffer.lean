import Ulpf.Lib.Binary64
import Ulpf.Lib.BoundedDeque
import Ulpf.Lib.Monitor
import Ulpf.Python.Value

/-!
`EventRingBuffer`: the latest events and the totals of the command line, under
one lock.
-/

namespace Ulpf.Cli

open Ulpf.Lib
open Ulpf.Lib.Binary64
open Ulpf.Python

/-- The integer a value is: a boolean counts as one. -/
def integer? : PyVal → Option ℤ
  | .num (.int n) => some n
  | .bool b => some (if b then 1 else 0)
  | _ => none

/-- An event whose `raw_length_bytes`, where it has one, is an integer. -/
structure Event where
  fields : List (String × PyVal)
  rawLength : ∀ v, lookup "raw_length_bytes" fields = some v → (integer? v).isSome

namespace Event

/-- `event.get("raw_length_bytes", len(str(event).encode("utf-8")))`: the default is
evaluated whether or not it is needed, and raises where the event has no text. -/
def rawLengthBytes (u : Unicode) (event : Event) : Except PyError ℤ :=
  match str? u (.obj event.fields) with
  | .error e => .error e
  | .ok text =>
      match (lookup "raw_length_bytes" event.fields).bind integer? with
      | some n => .ok n
      | none => .ok text.utf8ByteSize

/-- `event.get("ingest_status") == "QUARANTINED"` -/
def isQuarantined (event : Event) : Bool :=
  PyVal.eq ((lookup "ingest_status" event.fields).getD .null) (.str "QUARANTINED")

end Event

/-- A `deque` takes no negative `maxlen`. -/
structure EventRingBuffer (capacity : ℕ) where
  buffer : BoundedDeque Event capacity
  totalIngested : ℤ
  bytesIngested : ℤ
  quarantined : ℤ
  startTime : ℚ

/-- The report of `stats`; its `dps_ratio` is always `1.0`. -/
structure Stats where
  eventsReceived : ℤ
  bytesIngested : ℤ
  quarantined : ℤ
  ringBufferCount : ℕ
  ringBufferCapacity : ℕ
  epsRate : ℚ
  dpsRatio : ℚ
  deriving DecidableEq

/-- The calls of the methods; `stats` comes with the reading of the clock, and `snapshot`
writes to its file once it is out of the lock. -/
inductive Call where
  | append (event : Event)
  | getRecent (limit : ℤ)
  | snapshot
  | clear
  | stats (now : ℚ)

/-- What a call gives back. -/
inductive Reply where
  | none
  | events (events : List Event)
  | stats (report : Stats)
  | raised (e : PyError)

/-- The local variables of the methods, with the left operand of an augmented assignment. -/
structure Locals where
  loaded : ℤ
  items : List Event
  elapsed : ℚ
  eps : ℚ
  report : Stats

def Locals.unset : Locals := ⟨0, [], 0, 0, ⟨0, 0, 0, 0, 0, 0, 0⟩⟩

/-- `items[-limit:] if limit > 0 else items` -/
def recent (limit : ℤ) (items : List Event) : List Event :=
  if 0 < limit then items.drop (items.length - limit.toNat) else items

namespace EventRingBuffer

variable {capacity : ℕ}

/-- The buffer that the constructor makes. -/
def init (capacity : ℕ) (startTime : ℚ) : EventRingBuffer capacity :=
  ⟨.empty, 0, 0, 0, startTime⟩

/-- A method of the buffer, statement by statement. -/
abbrev Code (capacity : ℕ) := List (Statement (EventRingBuffer capacity) Locals)

/-- A statement that reads a counter into a local. -/
def load (field : EventRingBuffer capacity → ℤ) :
    Statement (EventRingBuffer capacity) Locals :=
  fun s => (s.1, { s.2 with loaded := field s.1 })

/-- The statements of `append` behind the length of the event. -/
def count (event : Event) : Except PyError ℤ → Code capacity
  | .error _ => []
  | .ok length =>
      (fun s => ({ s.1 with bytesIngested := s.2.loaded + length }, s.2)) ::
        if event.isQuarantined then
          [load quarantined, fun s => ({ s.1 with quarantined := s.2.loaded + 1 }, s.2)]
        else []

/-- `append`: an augmented assignment reads its attribute before it evaluates what it adds. -/
def append (u : Unicode) (event : Event) : Code capacity :=
  [fun s => ({ s.1 with buffer := s.1.buffer.append event }, s.2),
    load totalIngested,
    fun s => ({ s.1 with totalIngested := s.2.loaded + 1 }, s.2),
    load bytesIngested] ++ count event (event.rawLengthBytes u)

/-- `append` returns nothing, unless the length of the event raises. -/
def appendReply : Except PyError ℤ → Reply
  | .error e => .raised e
  | .ok _ => .none

/-- `items = list(self.buffer)` -/
def copyBuffer : Statement (EventRingBuffer capacity) Locals :=
  fun s => (s.1, { s.2 with items := s.1.buffer.items })

/-- `get_recent`: the deque is copied under the lock, and the copy cut to the limit. -/
def getRecent (limit : ℤ) : Code capacity :=
  [copyBuffer, fun s => (s.1, { s.2 with items := recent limit s.2.items })]

/-- `clear`: the events go, the counters stay. -/
def clear : Code capacity := [fun s => ({ s.1 with buffer := .empty }, s.2)]

/-- A statement that writes one entry of the report. -/
def setReport (write : EventRingBuffer capacity → Locals → Stats → Stats) :
    Statement (EventRingBuffer capacity) Locals :=
  fun s => (s.1, { s.2 with report := write s.1 s.2 s.2.report })

/-- `stats`: the counters one by one, and the rate since the start. -/
def stats (now : ℚ) : Code capacity :=
  [fun s => (s.1, { s.2 with elapsed := max 1 (fl (now - s.1.startTime)) }),
    fun s => (s.1, { s.2 with eps := fl (fl s.1.totalIngested / s.2.elapsed) }),
    setReport fun ring _ report => { report with eventsReceived := ring.totalIngested },
    setReport fun ring _ report => { report with bytesIngested := ring.bytesIngested },
    setReport fun ring _ report => { report with quarantined := ring.quarantined },
    setReport fun ring _ report => { report with ringBufferCount := ring.buffer.items.length },
    setReport fun _ _ report => { report with ringBufferCapacity := capacity },
    setReport fun _ locals report => { report with epsRate := roundTo 2 locals.eps },
    setReport fun _ _ report => { report with dpsRatio := 1 }]

/-- The methods under `self.lock`. -/
def methods (u : Unicode) (capacity : ℕ) :
    Monitor Call (EventRingBuffer capacity) Locals Reply where
  body
    | .append event => append u event
    | .getRecent limit => getRecent limit
    | .snapshot => [copyBuffer]
    | .clear => clear
    | .stats now => stats now
  locals _ := .unset
  result call locals :=
    match call with
    | .append event => appendReply (event.rawLengthBytes u)
    | .clear => .none
    | .getRecent _ | .snapshot => .events locals.items
    | .stats _ => .stats locals.report

variable (u : Unicode) (ring : EventRingBuffer capacity)

theorem alone_append_of_error {event : Event} {e : PyError}
    (h : event.rawLengthBytes u = .error e) :
    (methods u capacity).alone ring (.append event) =
      (.raised e,
        { ring with
          buffer := ring.buffer.append event
          totalIngested := ring.totalIngested + 1 }) := by
  simp [Monitor.alone, methods, append, appendReply, count, h, Monitor.execute, load]

theorem alone_append_of_ok {event : Event} {length : ℤ}
    (h : event.rawLengthBytes u = .ok length) :
    (methods u capacity).alone ring (.append event) =
      (.none,
        { ring with
          buffer := ring.buffer.append event
          totalIngested := ring.totalIngested + 1
          bytesIngested := ring.bytesIngested + length
          quarantined := ring.quarantined + if event.isQuarantined then 1 else 0 }) := by
  cases hquarantined : event.isQuarantined <;>
    simp [Monitor.alone, methods, append, appendReply, count, h, hquarantined, Monitor.execute,
      load]

theorem alone_clear :
    (methods u capacity).alone ring .clear = (.none, { ring with buffer := .empty }) := rfl

theorem alone_getRecent (limit : ℤ) :
    (methods u capacity).alone ring (.getRecent limit) =
      (.events (recent limit ring.buffer.items), ring) := rfl

theorem alone_stats (now : ℚ) :
    (methods u capacity).alone ring (.stats now) =
      (.stats
        { eventsReceived := ring.totalIngested
          bytesIngested := ring.bytesIngested
          quarantined := ring.quarantined
          ringBufferCount := ring.buffer.items.length
          ringBufferCapacity := capacity
          epsRate := roundTo 2 (fl (fl ring.totalIngested / max 1 (fl (now - ring.startTime))))
          dpsRatio := 1 }, ring) := rfl

end EventRingBuffer

/-- The events of the appends among the calls. -/
def appended (calls : List Call) : List Event :=
  calls.filterMap fun
    | .append event => some event
    | _ => none

/-- The events appended since the last clear among the calls. -/
def sinceClear (calls : List Call) : List Event :=
  calls.foldl
    (fun events call =>
      match call with
      | .append event => events ++ [event]
      | .clear => []
      | _ => events) []

/-- What an event counts for in the byte total: its own `raw_length_bytes`, a boolean as
one or zero, and without that key the length of its text. -/
inductive Amount (u : Unicode) (event : Event) : ℤ → Prop
  | given {n : ℤ} : lookup "raw_length_bytes" event.fields = some (.num (.int n)) → Amount u event n
  | flag {b : Bool} : lookup "raw_length_bytes" event.fields = some (.bool b) →
      Amount u event (if b then 1 else 0)
  | absent : lookup "raw_length_bytes" event.fields = none →
      Amount u event (str u (.obj event.fields)).utf8ByteSize

/-- No integer of the event has more than 4300 digits. -/
def Writable (event : Event) : Prop :=
  ∀ n, PyNum.int n ∈ (Json.obj event.fields).numbers → n.natAbs < 10 ^ 4300

/-- What the appends of some events, in their order, add to the byte and to the quarantined
total. An event that cannot be written makes its append raise in front of both. -/
inductive Totals (u : Unicode) : List Event → ℤ → ℤ → Prop
  | nil : Totals u [] 0 0
  | raises {events : List Event} {event : Event} {bytes quarantined : ℤ} :
      Totals u events bytes quarantined → ¬Writable event →
      Totals u (events ++ [event]) bytes quarantined
  | other {events : List Event} {event : Event} {bytes quarantined amount : ℤ} :
      Totals u events bytes quarantined → Writable event → Amount u event amount →
      lookup "ingest_status" event.fields ≠ some (.str "QUARANTINED") →
      Totals u (events ++ [event]) (bytes + amount) quarantined
  | quarantined {events : List Event} {event : Event} {bytes quarantined amount : ℤ} :
      Totals u events bytes quarantined → Writable event → Amount u event amount →
      lookup "ingest_status" event.fields = some (.str "QUARANTINED") →
      Totals u (events ++ [event]) (bytes + amount) (quarantined + 1)

theorem hasText_int {n : ℤ} : hasText (.int n) = true ↔ n.natAbs < 10 ^ 4300 := by
  rw [hasText, decide_eq_true_eq, maxStrDigits]

theorem writable_iff {event : Event} :
    Writable event ↔ (Json.obj event.fields).numbers.all hasText = true := by
  rw [List.all_eq_true]
  constructor
  · intro h x hmem
    cases x with
    | int n => exact hasText_int.mpr (h n hmem)
    | float x => rfl
  · exact fun h n hmem => hasText_int.mp (h _ hmem)

theorem integer?_eq_some {v : PyVal} {n : ℤ} (h : integer? v = some n) :
    v = .num (.int n) ∨ ∃ b, v = .bool b ∧ n = if b then 1 else 0 := by
  unfold integer? at h
  split at h
  · exact .inl (by rw [Option.some.inj h])
  · exact .inr ⟨_, rfl, (Option.some.inj h).symm⟩
  · cases h

theorem rawLengthBytes_of_writable (u : Unicode) {event : Event} (h : Writable event) :
    ∃ amount, event.rawLengthBytes u = .ok amount ∧ Amount u event amount := by
  rw [Event.rawLengthBytes, str?, if_pos (writable_iff.mp h)]
  cases hlookup : lookup "raw_length_bytes" event.fields with
  | none => exact ⟨_, rfl, .absent hlookup⟩
  | some v =>
      obtain ⟨n, hn⟩ := Option.isSome_iff_exists.mp (event.rawLength v hlookup)
      refine ⟨n, by simp [hn], ?_⟩
      obtain rfl | ⟨b, rfl, rfl⟩ := integer?_eq_some hn
      · exact .given hlookup
      · exact .flag hlookup

theorem rawLengthBytes_of_not_writable (u : Unicode) {event : Event} (h : ¬Writable event) :
    event.rawLengthBytes u = .error .valueError := by
  rw [Event.rawLengthBytes, str?, if_neg (mt writable_iff.mpr h)]

theorem isQuarantined_iff {event : Event} :
    event.isQuarantined = true ↔
      lookup "ingest_status" event.fields = some (.str "QUARANTINED") := by
  rw [Event.isQuarantined, PyVal.eq_str_iff]
  cases lookup "ingest_status" event.fields <;> simp

namespace EventRingBuffer

variable {capacity : ℕ}

/-- The ring buffer holds the latest events of the calls so far, and the totals over all
their appends. -/
structure Holds (u : Unicode) (ring : EventRingBuffer capacity) (calls : List Call) : Prop where
  buffer : ring.buffer.items = (sinceClear calls).rtake capacity
  totalIngested : ring.totalIngested = (appended calls).length
  totals : Totals u (appended calls) ring.bytesIngested ring.quarantined

variable {u : Unicode} {ring : EventRingBuffer capacity} {calls : List Call}

theorem holds_init (u : Unicode) (capacity : ℕ) (startTime : ℚ) :
    Holds u (init capacity startTime) [] := by
  constructor
  · simp [init, sinceClear]
  · simp [init, appended]
  · exact .nil

theorem Holds.reading (h : Holds u ring calls) {call : Call}
    (hsince : sinceClear (calls ++ [call]) = sinceClear calls)
    (happended : appended (calls ++ [call]) = appended calls) :
    Holds u ring (calls ++ [call]) := by
  constructor
  · rw [hsince, h.buffer]
  · rw [happended, h.totalIngested]
  · rw [happended]
    exact h.totals

theorem appended_append (calls : List Call) (event : Event) :
    appended (calls ++ [.append event]) = appended calls ++ [event] := by
  simp [appended]

theorem Holds.append (h : Holds u ring calls) (event : Event) :
    Holds u ((methods u capacity).alone ring (.append event)).2 (calls ++ [.append event]) := by
  have hbuffer : (ring.buffer.append event).items =
      (sinceClear (calls ++ [.append event])).rtake capacity := by
    simpa [sinceClear] using BoundedDeque.items_append_of_eq_rtake h.buffer event
  have htotal : ring.totalIngested + 1 = (appended (calls ++ [.append event])).length := by
    simp [h.totalIngested, appended_append]
  by_cases hwritable : Writable event
  · obtain ⟨amount, hlength, hamount⟩ := rawLengthBytes_of_writable u hwritable
    rw [alone_append_of_ok u ring hlength]
    refine ⟨hbuffer, htotal, ?_⟩
    rw [appended_append]
    by_cases hstatus : event.isQuarantined = true
    · rw [if_pos hstatus]
      exact .quarantined h.totals hwritable hamount (isQuarantined_iff.mp hstatus)
    · rw [if_neg hstatus, Int.add_zero]
      exact .other h.totals hwritable hamount (mt isQuarantined_iff.mpr hstatus)
  · rw [alone_append_of_error u ring (rawLengthBytes_of_not_writable u hwritable)]
    refine ⟨hbuffer, htotal, ?_⟩
    rw [appended_append]
    exact .raises h.totals hwritable

theorem Holds.alone (h : Holds u ring calls) (call : Call) :
    Holds u ((methods u capacity).alone ring call).2 (calls ++ [call]) := by
  cases call with
  | append event => exact h.append event
  | clear =>
      rw [alone_clear]
      constructor
      · simp [sinceClear]
      · simpa [appended] using h.totalIngested
      · simpa [appended] using h.totals
  | getRecent limit => exact h.reading (by simp [sinceClear]) (by simp [appended])
  | snapshot => exact h.reading (by simp [sinceClear]) (by simp [appended])
  | stats now => exact h.reading (by simp [sinceClear]) (by simp [appended])

theorem holds_after (u : Unicode) (capacity : ℕ) (startTime : ℚ) (calls : List Call) :
    Holds u (runInputs (methods u capacity).alone (init capacity startTime) calls).2 calls := by
  induction calls using List.reverseRecOn with
  | nil => exact holds_init u capacity startTime
  | append_singleton calls call ih =>
      rw [runInputs_append]
      exact ih.alone call

/-- A statement that leaves the deque alone. -/
abbrev KeepsBuffer (statement : Statement (EventRingBuffer capacity) Locals) : Prop :=
  ∀ s, (statement s).1.buffer = s.1.buffer

theorem keepsBuffer_count (event : Event) (length : Except PyError ℤ) :
    ∀ statement ∈ (count event length : Code capacity), KeepsBuffer statement := by
  cases length with
  | error e => exact List.forall_mem_nil _
  | ok length =>
      rw [count, List.forall_mem_cons]
      refine ⟨fun _ => rfl, ?_⟩
      split
      · simp [KeepsBuffer, load]
      · exact List.forall_mem_nil _

theorem body_eq (capacity : ℕ) (u : Unicode) (call : Call) :
    ∃ (head : Option (Statement (EventRingBuffer capacity) Locals)) (tail : Code capacity),
      (methods u capacity).body call = head.toList ++ tail ∧
        ∀ statement ∈ tail, KeepsBuffer statement := by
  cases call with
  | append event =>
      refine ⟨some _, [load totalIngested, _, load bytesIngested] ++
        count event (event.rawLengthBytes u), rfl, ?_⟩
      rw [List.forall_mem_append]
      exact ⟨by simp [KeepsBuffer, load], keepsBuffer_count event (event.rawLengthBytes u)⟩
  | clear => exact ⟨some _, [], rfl, by simp⟩
  | getRecent limit => exact ⟨none, _, rfl, by simp [KeepsBuffer, copyBuffer]⟩
  | snapshot => exact ⟨none, _, rfl, by simp [KeepsBuffer, copyBuffer]⟩
  | stats now => exact ⟨none, _, rfl, by simp [KeepsBuffer, setReport]⟩

theorem execute_cons (statement : Statement (EventRingBuffer capacity) Locals)
    (rest : Code capacity) (s : EventRingBuffer capacity × Locals) :
    Monitor.execute (statement :: rest) s = Monitor.execute rest (statement s) := rfl

theorem buffer_execute {statements : Code capacity}
    (hkeeps : ∀ statement ∈ statements, KeepsBuffer statement)
    (s : EventRingBuffer capacity × Locals) :
    (Monitor.execute statements s).1.buffer = s.1.buffer := by
  induction statements generalizing s with
  | nil => rfl
  | cons statement statements ih =>
      rw [execute_cons, ih fun statement' hmem => hkeeps statement' (List.mem_cons_of_mem _ hmem)]
      exact hkeeps statement List.mem_cons_self s

/-- In the middle of a call the buffer is what it was before the call or will be after it. -/
theorem buffer_execute_of_body {call : Call} {done rest : Code capacity}
    (hbody : (methods u capacity).body call = done ++ rest)
    (s : EventRingBuffer capacity × Locals) :
    (Monitor.execute done s).1.buffer = s.1.buffer ∨
      (Monitor.execute done s).1.buffer =
        (Monitor.execute ((methods u capacity).body call) s).1.buffer := by
  obtain ⟨head, tail, hsplit, hkeeps⟩ := body_eq capacity u call
  have happend : done ++ rest = head.toList ++ tail := hbody.symm.trans hsplit
  cases head with
  | none =>
      refine .inl (buffer_execute (fun statement hmem => hkeeps statement ?_) s)
      rw [← show done ++ rest = tail from happend]
      exact List.mem_append_left _ hmem
  | some write =>
      cases done with
      | nil => exact .inl rfl
      | cons statement done =>
          obtain ⟨rfl, htail⟩ := List.cons.inj (show statement :: (done ++ rest) = write :: tail
            from happend)
          have hdone : ∀ statement ∈ done, KeepsBuffer statement := fun statement hmem =>
            hkeeps statement (htail ▸ List.mem_append_left _ hmem)
          refine .inr ?_
          rw [hsplit, execute_cons, buffer_execute hdone]
          exact (buffer_execute hkeeps _).symm

section Threads

variable {ι : Type} [DecidableEq ι]

/-- The calls a schedule of any threads completes, with what they return. -/
abbrev served (u : Unicode) (capacity : ℕ) (startTime : ℚ)
    (schedule : List (Monitor.Action ι Call)) : List (Call × Reply) :=
  (methods u capacity).completed (Monitor.start (init capacity startTime)) schedule

/-- The state a schedule of any threads leads to. -/
abbrev reached (u : Unicode) (capacity : ℕ) (startTime : ℚ)
    (schedule : List (Monitor.Action ι Call)) :
    Monitor.State ι Call (EventRingBuffer capacity) Locals :=
  (runInputs (methods u capacity).step (Monitor.start (init capacity startTime)) schedule).2

/-- The last events of a list, as many as there is room for. -/
def Latest (capacity : ℕ) (events buffer : List Event) : Prop :=
  buffer <:+ events ∧ buffer.length = min capacity events.length

/-- The longest end of a list of at most `limit` items. -/
def LongestEnd (limit : ℤ) (buffer found : List Event) : Prop :=
  found <:+ buffer ∧ (found.length : ℤ) ≤ limit ∧
    ∀ other, other <:+ buffer → (other.length : ℤ) ≤ limit → other.length ≤ found.length

theorem latest_rtake (capacity : ℕ) (events : List Event) :
    Latest capacity events (events.rtake capacity) :=
  ⟨rtake_suffix _ _, length_rtake _ _⟩

theorem longestEnd_recent {limit : ℤ} (hlimit : 0 < limit) (buffer : List Event) :
    LongestEnd limit buffer (recent limit buffer) := by
  have hrecent : recent limit buffer = buffer.rtake limit.toNat := by
    rw [recent, if_pos hlimit, List.rtake]
  rw [hrecent]
  refine ⟨rtake_suffix _ _, ?_, ?_⟩
  · rw [length_rtake]
    omega
  · intro other hsuffix hlength
    exact length_le_length_rtake hsuffix (by omega)

variable (u : Unicode) (capacity : ℕ) (startTime : ℚ) (schedule : List (Monitor.Action ι Call))

/-- At any moment the buffer holds the latest events of the completed calls and perhaps
of the one under the lock. -/
theorem latest_of_reached :
    ∃ current : List Call,
      (current = [] ∨ ∃ thread call rest locals, current = [call] ∧
        (reached u capacity startTime schedule).phase thread = .inside call rest locals) ∧
      Latest capacity
        (sinceClear ((served u capacity startTime schedule).map Prod.fst ++ current))
        (reached u capacity startTime schedule).shared.buffer.items := by
  have hsettled :=
    ((Monitor.settled_start (ι := ι) (methods u capacity) (init capacity startTime)).run
      schedule).2
  have hholds := holds_after u capacity startTime
    ((served u capacity startTime schedule).map Prod.fst)
  cases hholder : (reached u capacity startTime schedule).holder with
  | none =>
      refine ⟨[], .inl rfl, ?_⟩
      rw [hsettled.free hholder, List.append_nil, hholds.buffer]
      exact latest_rtake _ _
  | some thread =>
      obtain ⟨call, rest, locals, hphase⟩ := hsettled.held thread hholder
      obtain ⟨-, done, hbody, hdone⟩ := hsettled.inside thread call rest locals hphase
      rcases buffer_execute_of_body hbody (_, (methods u capacity).locals call) with
        hbuffer | hbuffer
      · refine ⟨[], .inl rfl, ?_⟩
        rw [hdone] at hbuffer
        rw [hbuffer, List.append_nil, hholds.buffer]
        exact latest_rtake _ _
      · refine ⟨[call], .inr ⟨thread, call, rest, locals, rfl, hphase⟩, ?_⟩
        rw [hdone] at hbuffer
        rw [hbuffer]
        have hafter := (hholds.alone call).buffer
        rw [Monitor.alone] at hafter
        rw [hafter]
        exact latest_rtake _ _

/-- The ring buffer at the moments the lock is free, and what `append`, `get_recent` and
`stats` have made of it in any interleaving. -/
theorem ring_buffer_keeps_the_latest :
    (∃ current : List Call,
      (current = [] ∨ ∃ thread call rest locals, current = [call] ∧
        (reached u capacity startTime schedule).phase thread = .inside call rest locals) ∧
      Latest capacity
        (sinceClear ((served u capacity startTime schedule).map Prod.fst ++ current))
        (reached u capacity startTime schedule).shared.buffer.items) ∧
    ((reached u capacity startTime schedule).holder = none →
      let ring := (reached u capacity startTime schedule).shared
      let calls := (served u capacity startTime schedule).map Prod.fst
      Latest capacity (sinceClear calls) ring.buffer.items ∧
        ring.totalIngested = (appended calls).length ∧
        Totals u (appended calls) ring.bytesIngested ring.quarantined) ∧
    (∀ before after limit reply,
      served u capacity startTime schedule = before ++ (.getRecent limit, reply) :: after →
      0 < limit → ∃ buffer found, Latest capacity (sinceClear (before.map Prod.fst)) buffer ∧
        reply = .events found ∧ LongestEnd limit buffer found) ∧
    ∀ before after now reply,
      served u capacity startTime schedule = before ++ (.stats now, reply) :: after →
      ∃ report : Stats, reply = .stats report ∧
        report.eventsReceived = (appended (before.map Prod.fst)).length ∧
        Totals u (appended (before.map Prod.fst)) report.bytesIngested report.quarantined ∧
        report.ringBufferCount = min capacity (sinceClear (before.map Prod.fst)).length ∧
        report.ringBufferCapacity = capacity := by
  refine ⟨latest_of_reached u capacity startTime schedule, ?_, ?_, ?_⟩
  · intro hfree
    have hshared := Monitor.shared_eq_of_free (init capacity startTime) schedule hfree
    have hholds := holds_after u capacity startTime
      ((served u capacity startTime schedule).map Prod.fst)
    rw [← hshared] at hholds
    refine ⟨?_, hholds.totalIngested, hholds.totals⟩
    rw [hholds.buffer]
    exact latest_rtake _ _
  · intro before after limit reply hserved hlimit
    have hreply := Monitor.output_eq_of_completed hserved
    have hholds := holds_after u capacity startTime (before.map Prod.fst)
    rw [alone_getRecent, hholds.buffer] at hreply
    exact ⟨_, _, latest_rtake _ _, hreply, longestEnd_recent hlimit _⟩
  · intro before after now reply hserved
    have hreply := Monitor.output_eq_of_completed hserved
    have hholds := holds_after u capacity startTime (before.map Prod.fst)
    rw [alone_stats] at hreply
    refine ⟨_, hreply, hholds.totalIngested, hholds.totals, ?_, rfl⟩
    rw [hholds.buffer, length_rtake]

/-- A second append evicts the first event, which stays in the totals. -/
example :
    let quarantined : Event := ⟨[("raw_length_bytes", .int 5), ("ingest_status",
      .str "QUARANTINED")], by simp [lookup, PyVal.int, integer?]⟩
    let other : Event := ⟨[], by simp [lookup]⟩
    let schedule := [Monitor.Action.invoke 0 (.append quarantined)] ++
      List.replicate 9 (.advance 0) ++ [.invoke 1 (.append other)] ++
      List.replicate 8 (.advance 1)
    let ring := (reached .ascii 1 0 schedule).shared
    ring.buffer.items.map Event.fields = [[]] ∧
      (ring.totalIngested, ring.bytesIngested, ring.quarantined) = (2, 7, 1) := by
  decide +kernel

/-- A thread that finds the lock taken waits, and reads what the holder has left. -/
example : (served .ascii 3 0 [.invoke 0 .clear, .invoke 1 (.getRecent 2), .advance 0, .advance 1,
    .advance 0, .advance 1, .advance 0, .advance 1, .advance 1, .advance 1, .advance 1]).length =
      2 := by
  decide +kernel

end Threads

end EventRingBuffer

end Ulpf.Cli
