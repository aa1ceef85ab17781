import Ulpf.DetectionContracts.Preservation
import Ulpf.Exporters.Ocsf

/-!
Where the normalizer, the exporters and the detections have to agree: what counts as
a denial, and which kind an event is of.
-/

namespace Ulpf.Exporters

open Ulpf.Lib
open Ulpf.Lib.Text (contains)
open Ulpf.Go
open Ulpf.Normalize
open Ulpf.ParserRuntime
open Ulpf.DetectionContracts (det002 normalizedMap textAt)

section Denials

/-- The words of an action that denies something. -/
def denialWords : List String := ["deny", "denied", "block", "blocked", "drop"]

/-- The words that OCSF looks for before it looks for a denial. -/
def lifecycleWords : List String := ["open", "start", "close", "end"]

/-- The activity of a denied connection. -/
def denyActivity : ℕ := 6

/-- Everyone takes an event for a denial: the normalizer, both exports and the
detection of blocked connections. -/
structure SeenAsDenied (p : Platform) (ir : NormalizedEvent) : Prop where
  outcome : ir.event.outcome = "failure"
  ecs : ∃ out, Ecs.exportECS p.unicode p.localZone (some ir) = .ok out ∧
    out.event.type = ["denied"]
  ocsf : ∃ out, Ocsf.exportOCSF p.unicode p.localZone (some ir) = .ok out ∧
    out.activityID = denyActivity
  detected : (det002 p).predicate ir.toMap = true

/-- The normalizer knows the denial, and nothing else in the action comes first. -/
def SaysDenied (u : Unicode) (action : String) : Prop :=
  containsAny (toLower u action) failureWords = true ∧
    containsAny (toLower u action) lifecycleWords = false

theorem containsAny_append (s : String) (words words' : List String) :
    containsAny s (words ++ words') = (containsAny s words || containsAny s words') :=
  List.any_append

theorem outcomeOfAction_eq_failure_iff (u : Unicode) (action : String) :
    outcomeOfAction u action = "failure" ↔ containsAny (toLower u action) failureWords = true := by
  rw [outcomeOfAction]
  split_ifs with hfailure hsuccess <;> simp [hfailure]

theorem mapECSTypes_failure (u : Unicode) (action : String) :
    Ecs.mapECSTypes u action "failure" = ["denied"] := by
  simp [Ecs.mapECSTypes]

theorem resolveActivityID_eq_deny_iff {u : Unicode} {action : String}
    (hdenies : containsAny (toLower u action) denialWords = true) :
    Ocsf.resolveActivityID u Ocsf.classNetworkActivity action = denyActivity ↔
      containsAny (toLower u action) lifecycleWords = false := by
  have hdenial : Ocsf.containsAny (toLower u action)
      ["deny", "denied", "block", "blocked", "drop"] = true := hdenies
  rw [show lifecycleWords = ["open", "start"] ++ ["close", "end"] from rfl, containsAny_append]
  change _ ↔ (Ocsf.containsAny _ _ || Ocsf.containsAny _ _) = false
  rw [Ocsf.resolveActivityID, if_pos rfl, hdenial]
  cases Ocsf.containsAny (toLower u action) ["open", "start"] <;>
    cases Ocsf.containsAny (toLower u action) ["close", "end"] <;> decide

theorem activityID_of_network {u : Unicode} {l : Time.LocalZone} {ir : NormalizedEvent}
    (h : contains (toUpper u ir.event.eventClass) "NETWORK" = true) :
    (Ocsf.ocsfEventOf u l ir).activityID =
      Ocsf.resolveActivityID u Ocsf.classNetworkActivity ir.event.action := by
  have hresolved : (Ocsf.resolveClassAndCategory u ir.event.eventClass).1.1 =
      Ocsf.classNetworkActivity := by
    simp [Ocsf.resolveClassAndCategory, h]
  rw [← hresolved]
  simp only [Ocsf.ocsfEventOf]

variable {p : Platform} {env : RawEnvelopeInput} {res : ParseResult} {spec : ParserSpec}
  {ir : NormalizedEvent} {action : String}

theorem actionOf_of_denies {ex : Extracted} (haction : stringAt ex "event.action" = some action)
    (hdenies : containsAny (toLower p.unicode action) denialWords = true) :
    actionOf ex = action := by
  have hne : action ≠ "" := by
    rintro rfl
    rw [toLower_empty] at hdenies
    revert hdenies
    decide
  rw [actionOf, nonEmptyAt_eq_some_iff.mpr ⟨haction, hne⟩, Option.getD_some]

theorem seenAsDenied_iff_saysDenied (hnormalize : normalize p env res spec = .ok ir)
    (haction : stringAt res.extracted "event.action" = some action)
    (hdenies : containsAny (toLower p.unicode action) denialWords = true)
    (hnetwork : contains (toUpper p.unicode ir.event.eventClass) "NETWORK" = true)
    (haddress : textAt res.extracted "src.ip" ≠ "" ∨ textAt res.extracted "dst.ip" ≠ "") :
    SeenAsDenied p ir ↔ SaysDenied p.unicode action := by
  obtain ⟨hir, hvalid⟩ := normalize_eq_ok_iff.mp hnormalize
  have hactionOf : ir.event.action = action := by
    rw [← hir, normalizedEventOf_action]
    exact actionOf_of_denies haction hdenies
  have houtcome : ir.event.outcome = outcomeOfAction p.unicode (actionOf res.extracted) := by
    rw [← hir, normalizedEventOf_outcome]
  have hknown : ir.event.outcome = "failure" ↔
      containsAny (toLower p.unicode action) failureWords = true := by
    rw [houtcome, actionOf_of_denies haction hdenies, outcomeOfAction_eq_failure_iff]
  have hactivity : (Ocsf.ocsfEventOf p.unicode p.localZone ir).activityID = denyActivity ↔
      containsAny (toLower p.unicode action) lifecycleWords = false := by
    rw [activityID_of_network hnetwork, hactionOf]
    exact resolveActivityID_eq_deny_iff hdenies
  constructor
  · rintro ⟨hfailure, -, ⟨out, hout, hdeny⟩, -⟩
    obtain ⟨-, rfl⟩ := Ocsf.exportOCSF_eq_ok_iff.mp hout
    exact ⟨hknown.mp hfailure, hactivity.mp hdeny⟩
  · rintro ⟨hfails, hfirst⟩
    have hfailure := hknown.mpr hfails
    have htype : (Ecs.ecsEventOf p.unicode ir).event.type = ["denied"] := by
      rw [Ecs.ecsEventOf, hfailure]
      exact mapECSTypes_failure p.unicode ir.event.action
    refine ⟨hfailure, ⟨_, Ecs.exportECS_eq_ok_iff.mpr ⟨hvalid, rfl⟩, htype⟩,
      ⟨_, Ocsf.exportOCSF_eq_ok_iff.mpr ⟨hvalid, rfl⟩, hactivity.mpr hfirst⟩, ?_⟩
    have hmap : ir.toMap = normalizedMap p env res spec := by
      rw [← hir]
      rfl
    rw [hmap]
    refine (DetectionContracts.det002_normalizedMap_iff p env res spec).mpr ⟨.inr ?_, haddress⟩
    rw [← DetectionContracts.failing_iff, ← houtcome]
    exact hfailure

def connectionSpec : ParserSpec :=
  plainSpec "key_value" [("action", plainField "string" "event.action"),
    ("class", plainField "string" "event.class"), ("src", plainField "string" "src.ip")]

/-- What is parsed of a connection with an action. -/
def connection (action : String) : ParseResult :=
  mapRawFields Platform.plain Enumeration.standing connectionSpec
    ("action=" ++ action ++ " class=NETWORK_CONNECTION src=10.0.0.1")
    (Dict.ofList [("action", .str action), ("class", .str "NETWORK_CONNECTION"),
      ("src", .str "10.0.0.1")])

/-- The event of a connection. -/
def connectionEvent (action : String) : NormalizedEvent :=
  normalizedEventOf Platform.plain largePortEvent.input (connection action) connectionSpec

theorem normalize_connection {action : String}
    (h : (connectionEvent action).validate Platform.plain.localZone = .ok ()) :
    normalize Platform.plain largePortEvent.input (connection action) connectionSpec =
      .ok (connectionEvent action) :=
  normalize_eq_ok_iff.mpr ⟨rfl, h⟩

example : (connectionEvent "blocked").event.outcome = "failure" := by decide +kernel

theorem seenAsDenied_iff_saysDenied_blocked :
    SeenAsDenied Platform.plain (connectionEvent "blocked") ↔
      SaysDenied Platform.plain.unicode "blocked" :=
  seenAsDenied_iff_saysDenied (normalize_connection (by decide +kernel)) (by decide +kernel)
    (by decide) (by decide +kernel) (by decide +kernel)

/-- A denied connection has no outcome. -/
theorem not_seenAsDenied_denied :
    ¬ ∀ (p : Platform) (e : Enumeration) (env : RawEnvelopeInput) (raw : List UInt8)
      (spec : ValidSpec) (res : ParseResult) (ir : NormalizedEvent) (action : String),
      parse p e raw spec.1 = .ok res → normalize p env res spec.1 = .ok ir →
        stringAt res.extracted "event.action" = some action →
        containsAny (toLower p.unicode action) denialWords = true →
        contains (toUpper p.unicode ir.event.eventClass) "NETWORK" = true →
        (textAt res.extracted "src.ip" ≠ "" ∨ textAt res.extracted "dst.ip" ≠ "") →
        SeenAsDenied p ir := by
  intro hall
  have haccepted : Accepted connectionSpec :=
    (validateParserSpec_eq_ok_iff _).mp (by decide +kernel)
  have hparse : parse Platform.plain Enumeration.standing
      (asciiBytes "action=denied class=NETWORK_CONNECTION src=10.0.0.1") connectionSpec =
        .ok (connection "denied") :=
    parse_eq_ok_iff.mpr ⟨by decide, Dict.ofList [("action", .str "denied"),
      ("class", .str "NETWORK_CONNECTION"), ("src", .str "10.0.0.1")], by decide +kernel, by
      rw [show ofBytes (asciiBytes "action=denied class=NETWORK_CONNECTION src=10.0.0.1") =
        "action=denied class=NETWORK_CONNECTION src=10.0.0.1" by decide +kernel]
      rfl⟩
  have hseen := hall _ _ _ _ ⟨connectionSpec, haccepted⟩ _ _ "denied" hparse
    (normalize_connection (by decide +kernel)) (by decide +kernel) (by decide)
    (by decide +kernel) (by decide +kernel)
  have hunknown : (connectionEvent "denied").event.outcome = "unknown" := by decide +kernel
  exact absurd (hunknown.symm.trans hseen.outcome) (by decide)

end Denials

section Kinds

/-- The words that both exporters look for before they differ. -/
def kindWords : List String := ["NETWORK", "AUTH", "IDENTITY", "HTTP", "WEB", "ALERT", "INCIDENT"]

/-- A class that names a finding names something else that both exporters know. -/
def NamesSharedKind (u : Unicode) (eventClass : String) : Prop :=
  contains (toUpper u eventClass) "FINDING" = true →
    containsAny (toUpper u eventClass) kindWords = true

variable {u : Unicode} {l : Time.LocalZone} {ir : NormalizedEvent}

theorem mapECSCategories_of_unshared {eventClass : String}
    (h : containsAny (toUpper u eventClass) kindWords = false) :
    Ecs.mapECSCategories u eventClass ∈ [["process"], ["file"], ["configuration"]] := by
  simp only [containsAny, kindWords, List.any_cons, List.any_nil, Bool.or_false,
    Bool.or_eq_false_iff] at h
  obtain ⟨hnetwork, hauth, hidentity, hhttp, hweb, halert, hincident⟩ := h
  simp only [Ecs.mapECSCategories, hnetwork, hauth, hidentity, hhttp, hweb, halert, hincident,
    Bool.false_or, Bool.false_eq_true, if_false]
  split_ifs <;> simp

theorem resolveClassAndCategory_of_unshared {eventClass : String}
    (h : containsAny (toUpper u eventClass) kindWords = false) :
    (Ocsf.resolveClassAndCategory u eventClass).1.2 =
      if contains (toUpper u eventClass) "FINDING" then "Security Finding"
      else "System Activity" := by
  simp only [containsAny, kindWords, List.any_cons, List.any_nil, Bool.or_false,
    Bool.or_eq_false_iff] at h
  obtain ⟨hnetwork, hauth, hidentity, hhttp, hweb, halert, hincident⟩ := h
  simp only [Ocsf.resolveClassAndCategory, hnetwork, hauth, hidentity, hhttp, hweb, halert,
    hincident, Bool.false_or, Bool.false_eq_true, if_false]
  split_ifs <;> rfl

theorem kinds_of_shared {eventClass : String}
    (h : containsAny (toUpper u eventClass) kindWords = true) :
    (Ecs.mapECSCategories u eventClass, (Ocsf.resolveClassAndCategory u eventClass).1.2) ∈
      [(["network"], "Network Activity"), (["authentication"], "Authentication"),
        (["web"], "HTTP Activity"), (["threat"], "Security Finding")] := by
  simp only [containsAny, kindWords, List.any_cons, List.any_nil, Bool.or_false] at h
  simp only [Ecs.mapECSCategories, Ocsf.resolveClassAndCategory]
  cases hnetwork : contains (toUpper u eventClass) "NETWORK" with
  | true => simp
  | false =>
      cases hauth : contains (toUpper u eventClass) "AUTH" ||
          contains (toUpper u eventClass) "IDENTITY" with
      | true => simp
      | false =>
          cases hweb : contains (toUpper u eventClass) "HTTP" ||
              contains (toUpper u eventClass) "WEB" with
          | true => simp
          | false =>
              have halert : (contains (toUpper u eventClass) "ALERT" ||
                  contains (toUpper u eventClass) "INCIDENT") = true := by
                rw [Bool.or_eq_false_iff] at hauth hweb
                simpa [hnetwork, hauth, hweb] using h
              simp [halert]

/-- A category of ECS and a class of OCSF that correspond. -/
def AlikeKinds (category : List String) (className : String) : Prop :=
  (category = ["network"] ↔ className = "Network Activity") ∧
    (category = ["authentication"] ↔ className = "Authentication") ∧
    (category = ["web"] ↔ className = "HTTP Activity") ∧
    (category = ["threat"] ↔ className = "Security Finding") ∧
    (category ∉ [["network"], ["authentication"], ["web"], ["threat"]] ↔
      className = "System Activity")

instance (category : List String) (className : String) :
    Decidable (AlikeKinds category className) :=
  inferInstanceAs (Decidable (_ ∧ _))

/-- An event is of corresponding kinds in both exports. -/
def ClassifiedAlike (ecs : Ecs.ECSEvent) (ocsf : Ocsf.OCSFEvent) : Prop :=
  AlikeKinds ecs.event.category ocsf.className

theorem alikeKinds_iff_namesSharedKind (u : Unicode) (eventClass : String) :
    AlikeKinds (Ecs.mapECSCategories u eventClass)
        (Ocsf.resolveClassAndCategory u eventClass).1.2 ↔ NamesSharedKind u eventClass := by
  rw [NamesSharedKind]
  cases hshared : containsAny (toUpper u eventClass) kindWords with
  | true =>
      have hkinds := kinds_of_shared hshared
      simp only [List.mem_cons, List.not_mem_nil, or_false, Prod.mk.injEq] at hkinds
      obtain ⟨hcategory, hclass⟩ | ⟨hcategory, hclass⟩ | ⟨hcategory, hclass⟩ |
        ⟨hcategory, hclass⟩ := hkinds <;> rw [hcategory, hclass] <;>
        exact iff_of_true (by decide) fun _ => rfl
  | false =>
      have hcategory := mapECSCategories_of_unshared hshared
      rw [resolveClassAndCategory_of_unshared hshared]
      simp only [List.mem_cons, List.not_mem_nil, or_false] at hcategory
      cases contains (toUpper u eventClass) "FINDING" <;>
        obtain h | h | h := hcategory <;> rw [h] <;> decide

theorem classifiedAlike_exports_iff :
    ClassifiedAlike (Ecs.ecsEventOf u ir) (Ocsf.ocsfEventOf u l ir) ↔
      AlikeKinds (Ecs.mapECSCategories u ir.event.eventClass)
        (Ocsf.resolveClassAndCategory u ir.event.eventClass).1.2 := by
  simp only [ClassifiedAlike, Ecs.ecsEventOf, Ocsf.ocsfEventOf]

theorem classifiedAlike_iff_namesSharedKind (hvalid : ir.validate l = .ok ()) :
    (∃ ecs ocsf, Ecs.exportECS u l (some ir) = .ok ecs ∧ Ocsf.exportOCSF u l (some ir) = .ok ocsf ∧
      ClassifiedAlike ecs ocsf) ↔ NamesSharedKind u ir.event.eventClass := by
  rw [← alikeKinds_iff_namesSharedKind]
  constructor
  · rintro ⟨ecs, ocsf, hecs, hocsf, halike⟩
    obtain ⟨-, rfl⟩ := Ecs.exportECS_eq_ok_iff.mp hecs
    obtain ⟨-, rfl⟩ := Ocsf.exportOCSF_eq_ok_iff.mp hocsf
    exact classifiedAlike_exports_iff.mp halike
  · intro halike
    exact ⟨_, _, Ecs.exportECS_eq_ok_iff.mpr ⟨hvalid, rfl⟩,
      Ocsf.exportOCSF_eq_ok_iff.mpr ⟨hvalid, rfl⟩, classifiedAlike_exports_iff.mpr halike⟩

theorem classifiedAlike_iff_namesSharedKind_connection :
    (∃ ecs ocsf, Ecs.exportECS Unicode.ascii Time.LocalZone.utc (some (connectionEvent "allow")) =
        .ok ecs ∧
      Ocsf.exportOCSF Unicode.ascii Time.LocalZone.utc (some (connectionEvent "allow")) = .ok ocsf ∧
      ClassifiedAlike ecs ocsf) ↔
      NamesSharedKind Unicode.ascii (connectionEvent "allow").event.eventClass :=
  classifiedAlike_iff_namesSharedKind (by decide +kernel)

/-- A finding is a configuration change to one exporter. -/
theorem not_classifiedAlike_finding :
    ¬ ∀ (u : Unicode) (l : Time.LocalZone) (ir : NormalizedEvent), ir.validate l = .ok () →
      ∃ ecs ocsf, Ecs.exportECS u l (some ir) = .ok ecs ∧
        Ocsf.exportOCSF u l (some ir) = .ok ocsf ∧ ClassifiedAlike ecs ocsf := by
  intro hall
  obtain ⟨ecs, ocsf, hecs, hocsf, halike⟩ := hall Unicode.ascii Time.LocalZone.utc
    { connectionEvent "allow" with
      event := { (connectionEvent "allow").event with eventClass := "SECURITY_FINDING" } }
    (by decide +kernel)
  obtain ⟨-, rfl⟩ := Ecs.exportECS_eq_ok_iff.mp hecs
  obtain ⟨-, rfl⟩ := Ocsf.exportOCSF_eq_ok_iff.mp hocsf
  revert halike
  rw [ClassifiedAlike]
  decide +kernel

end Kinds

end Ulpf.Exporters
