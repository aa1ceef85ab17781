import Ulpf.Contracts.RawEventEnvelope
import Ulpf.IngestGateway.Server
import Ulpf.Normalize.EventDocuments
import Ulpf.Python.IsoText

/-!
The documents of envelopes: whatever the gateway publishes satisfies the contract of raw events.
-/

namespace Ulpf.IngestGateway

open Ulpf.Lib
open Ulpf.Lib.Calendar
open Ulpf.Go
open Ulpf.Go.Time
open Ulpf.Normalize (readNumber matchString_eventIDRegex_text matchString_sha256Regex_hex)
open Ulpf.Python.Datetime (padded)
open Ulpf.Python.IsoFormat (Showable momentOf momentOf_eq readable readable_isoformat
  replace_isoformat)

/-- The object `json.Marshal` writes. -/
def RawEventEnvelope.written (e : RawEventEnvelope) : Value :=
  .obj [("schema_version", .str e.schemaVersion), ("event_id", .str e.eventID),
    ("source_id", .str e.sourceID), ("received_at", .str e.receivedAt),
    ("transport", .str e.transport), ("raw_ref", .str e.rawRef),
    ("raw_sha256", .str e.rawSHA256), ("raw_length_bytes", .num (.int e.rawLengthBytes)),
    ("ingest_status", .str e.ingestStatus)]

/-- The envelope as a Python reader of its text finds it satisfies its contract. -/
def RawEventEnvelope.MeetsContract (e : RawEventEnvelope) : Prop :=
  Contracts.rawEventEnvelope.valid (e.written.mapNum readNumber) = true

section Times

theorem padded_eq (n width : ℕ) : padded width n = appendInt n width :=
  (appendInt_natCast n width).symm

theorem formatRFC3339_now (p : Platform) : (Time.unix p.now 0).formatRFC3339 false =
    (momentOf (p.now * 10 ^ 6)).text ++ ['Z'] := by
  have hrange := p.now_range
  have hfour : FourDigitYear p.now := by
    simp only [FourDigitYear, firstSecond, endSecond]
    omega
  have hseconds : p.now * 10 ^ 6 / 10 ^ 6 = p.now := by omega
  have hmicros : (p.now * 10 ^ 6 % 10 ^ 6).toNat = 0 := by omega
  obtain ⟨year, month, day, hcivil, hmonth, hday, -, hyear⟩ := exists_date hfour
  have hlength := daysIn_le month year
  have hsecond : secondOfDay p.now < 86400 := by
    rw [secondOfDay]
    omega
  have htime : Time.unix p.now 0 = ⟨p.now, 0, .utc⟩ := by
    simp [Time.unix]
  have hdate : civilFromDays (p.now * 10 ^ 6 / 10 ^ 6 / secondsPerDay) = (↑year, month, day) := by
    rw [hseconds, secondsPerDay]
    exact hcivil
  have hmoment := momentOf_eq hdate
  have hclock : (p.now % secondsPerDay).toNat = secondOfDay p.now := rfl
  rw [hseconds, hmicros, hclock] at hmoment
  have hformat := formatRFC3339_eq (t := ⟨p.now, 0, .utc⟩) hfour hcivil hyear (by omega) (by omega)
  have htwo (n : ℕ) (hn : n < 100) : padded 2 n = twoDigits n := by
    rw [padded_eq, appendInt_two hn]
  rw [htime, hformat, hmoment, rfc3339Text, Moment.text, Moment.clockText]
  simp only [padded_eq year, appendInt_four hyear, htwo month (by omega), htwo day (by omega),
    htwo (secondOfDay p.now / 3600) (by omega), htwo (secondOfDay p.now / 60 % 60) (by omega),
    htwo (secondOfDay p.now % 60) (by omega), if_true, fractionText, Option.elim_none,
    List.append_assoc, List.cons_append, List.nil_append]

theorem readable_now (p : Platform) :
    readable (String.ofList ((Time.unix p.now 0).formatRFC3339 false)) = true := by
  have hshowable : Showable (p.now * 10 ^ 6) := by
    have hstart : seconds 1 1 1 0 0 0 = -62135596800 := by decide
    have hend : seconds 9999 12 31 23 59 59 = 253402300799 := by decide
    have hrange := p.now_range
    rw [Showable, hstart, hend]
    omega
  have hreadable := readable_isoformat hshowable
  rwa [replace_isoformat hshowable, ← formatRFC3339_now] at hreadable

end Times

theorem refOf_ne_empty {ι : Type} (calls : ι → RawStore.StoreCall) (i : ι) :
    RawStore.refOf calls i ≠ "" := by
  simp [RawStore.refOf, rawRefOf]

theorem meetsContract_ingestedEnvelope (p : Platform) (id : Ulid) {sourceID transport : String}
    (rawBytes : List UInt8) {rawRef : String} (status : IngestStatus) (hsource : sourceID ≠ "")
    (htransport : transport ∈ validTransports) (href : rawRef ≠ "") :
    (ingestedEnvelope p id sourceID transport rawBytes rawRef status).MeetsContract := by
  have hstatus : status.text ∈ ["ACCEPTED", "QUARANTINED", "REJECTED"] := by
    cases status <;> decide
  have hlength : (0 : ℤ) ≤ rawBytes.length := Int.natCast_nonneg _
  rw [RawEventEnvelope.MeetsContract, Contracts.rawEventEnvelope, RawEventEnvelope.written,
    ingestedEnvelope, Normalize.valid_read_record_iff (by simp)]
  simp only [List.forall_mem_cons, Contract.validMember_cons, String.reduceEq, if_true, if_false,
    Json.mapNum, Contract.valid_nonempty_iff, Contract.valid_oneOf_iff, Contract.valid_string,
    Contract.valid_number, matchString_eventIDRegex_text, Contracts.isDateTime, readable_now,
    matchString_sha256Regex_hex (Sha256.length_sum256 rawBytes), readNumber, Contracts.isInteger]
  exact ⟨rfl, trivial, hsource, trivial, htransport, href, trivial, decide_eq_true hlength, hstatus,
    List.forall_mem_nil _⟩

namespace Server

variable {ι : Type} [DecidableEq ι] {config : Config} {requests : ι → Request} {s t : State ι}

/-- In every interleaving of requests with ids of their own, each envelope that has been published
or answered satisfies the contract of raw events. -/
theorem published_meetsContract {trace : List (Transition (State ι) (ι × Action) Unit)}
    (hids : ∀ i j, (requests i).id = (requests j).id → i = j) (hstart : s.Idle)
    (hrun : Run (Step config requests) s trace t) :
    (∀ topic env, (topic, env) ∈ t.published → env.MeetsContract) ∧
    ∀ i response env, t.responses i = some response → response.envelope? = some env →
      env.MeetsContract := by
  have hevident := evident_of_run hids hstart hrun
  have hpublished : ∀ topic env, (topic, env) ∈ t.published → env.MeetsContract := by
    intro topic env hmem
    obtain ⟨i, hreaches, -, -, heq⟩ := hevident.published _ hmem
    obtain ⟨rfl, rfl⟩ := Prod.mk.inj heq
    exact meetsContract_ingestedEnvelope _ _ _ _ hreaches.source hreaches.transport
      (refOf_ne_empty _ i)
  refine ⟨hpublished, fun i response env hi henv => ?_⟩
  obtain ⟨topic, hmem⟩ := hevident.answered i response env hi henv
  exact hpublished topic env hmem

theorem published_meetsContract_firewall :
    ∃ (trace : List (Transition (State Bool) (Bool × Action) Unit)) (t : State Bool),
      Run (Step firewallConfig firewallRequest) State.blank trace t ∧
      trace.map Transition.input = firewallInputs ∧
      t.published = [("quarantined_events", firewallEnvelope true),
        ("raw_events", firewallEnvelope false)] ∧
      (firewallEnvelope true).MeetsContract ∧ (firewallEnvelope false).MeetsContract := by
  obtain ⟨trace, t, hrun, hinputs, hpublished⟩ := exists_run_firewall
  have hmeets := (published_meetsContract firewallRequest_distinct idle_blank hrun).1
  rw [hpublished] at hmeets
  exact ⟨trace, t, hrun, hinputs, hpublished, hmeets "quarantined_events" _ (by simp),
    hmeets "raw_events" _ (by simp)⟩

end Server

end Ulpf.IngestGateway
