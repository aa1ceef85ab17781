import Ulpf.DetectionContracts.Rules
import Ulpf.Lib.Rounding
import Ulpf.Normalize.Acceptance

/-!
Which detections survive normalization: for each rule, the extracted values with
which it still matches the canonical event.
-/

namespace Ulpf.DetectionContracts

open Ulpf.Lib
open Ulpf.Lib.Text (contains)
open Ulpf.Go
open Ulpf.ParserRuntime
open Ulpf.Normalize

section Members

theorem lookup_omitNil {α : Type} (k key : String) (members : α → List (String × Value))
    (part : Option α) : lookup k (omitNil key members part) =
      if key = k then part.map fun x => .obj (members x) else none := by
  cases part with
  | none => simp [omitNil]
  | some x => simp [omitNil, lookup_cons]

theorem lookup_omitEmpty (k key s : String) : lookup k (omitEmpty key s) =
    if key = k ∧ s ≠ "" then some (.str s) else none := by
  by_cases hs : s = ""
  · simp [omitEmpty, hs]
  · simp [omitEmpty, hs, lookup_cons]

theorem lookup_omitZero (k key : String) (n : ℤ) : lookup k (omitZero key n) =
    if key = k ∧ n ≠ 0 then some (jsonNumber n) else none := by
  by_cases hn : n = 0
  · simp [omitZero, hn]
  · simp [omitZero, hn, lookup_cons]

theorem trimSpace_empty : trimSpace "" = "" := by decide

variable {α : Type} {event : Value} {part : Option α} {key field : String}
  {members : α → List (String × Value)}

theorem getPath_pair (event : Value) (key field : String) : event.getPath [key, field] =
    (lookup key event.members).bind fun x => lookup field x.members := by
  rw [Json.getPath_cons]
  congr 1
  funext x
  rw [Json.getPath_cons]
  cases lookup field x.members <;> rfl

theorem getPath_of_part (hpart : lookup key event.members = part.map fun x => .obj (members x)) :
    event.getPath [key, field] = part.bind fun x => lookup field (members x) := by
  rw [getPath_pair, hpart]
  cases part <;> rfl

theorem getNestedString_of_part {text : α → String}
    (hpart : lookup key event.members = part.map fun x => .obj (members x))
    (hfield : ∀ x, lookup field (members x) = if text x ≠ "" then some (.str (text x)) else none) :
    getNestedString event [key, field] = trimSpace ((part.map text).getD "") := by
  rw [getNestedString, getPath_of_part hpart]
  cases part with
  | none => exact trimSpace_empty.symm
  | some x =>
      rw [Option.bind_some, hfield, Option.map_some, Option.getD_some]
      split_ifs with hempty
      · rfl
      · rw [not_not.mp hempty]
        exact trimSpace_empty.symm

theorem getNestedInt_of_part (p : Platform) {number : α → ℤ}
    (hpart : lookup key event.members = part.map fun x => .obj (members x))
    (hfield : ∀ x, lookup field (members x) =
      if number x ≠ 0 then some (jsonNumber (number x)) else none) :
    getNestedInt p event [key, field] = ((part.map number).filter (· ≠ 0)).map fun n =>
      toInt64 p.outOfRange (Binary64.ofInt n) := by
  rw [getNestedInt, getPath_of_part hpart]
  cases part with
  | none => rfl
  | some x =>
      rw [Option.bind_some, hfield, Option.map_some]
      by_cases hzero : number x = 0
      · simp [hzero]
      · simp [hzero, jsonNumber]

end Members

section Event

variable (p : Platform) (e : NormalizedEvent)

theorem lookup_event : lookup "event" e.toMap.members =
    some (.obj [("class", .str e.event.eventClass), ("action", .str e.event.action),
      ("outcome", .str e.event.outcome), ("time", .str e.event.time)]) := by
  simp [NormalizedEvent.toMap, Json.members, lookup_cons]

theorem getNestedString_action :
    getNestedString e.toMap ["event", "action"] = trimSpace e.event.action := by
  rw [getNestedString, getPath_pair, lookup_event]
  rfl

theorem getNestedString_outcome :
    getNestedString e.toMap ["event", "outcome"] = trimSpace e.event.outcome := by
  rw [getNestedString, getPath_pair, lookup_event]
  rfl

theorem getNestedString_class :
    getNestedString e.toMap ["event", "class"] = trimSpace e.event.eventClass := by
  rw [getNestedString, getPath_pair, lookup_event]
  rfl

theorem lookup_src : lookup "src" e.toMap.members = e.src.map fun x => .obj x.members := by
  simp [NormalizedEvent.toMap, Json.members, lookup_cons, lookup_append, lookup_omitNil]

theorem lookup_dst : lookup "dst" e.toMap.members = e.dst.map fun x => .obj x.members := by
  simp [NormalizedEvent.toMap, Json.members, lookup_cons, lookup_append, lookup_omitNil]

theorem lookup_network :
    lookup "network" e.toMap.members = e.network.map fun x => .obj x.members := by
  simp [NormalizedEvent.toMap, Json.members, lookup_cons, lookup_append, lookup_omitNil]

theorem lookup_user : lookup "user" e.toMap.members = e.user.map fun x => .obj x.members := by
  simp [NormalizedEvent.toMap, Json.members, lookup_cons, lookup_append, lookup_omitNil]

theorem lookup_http : lookup "http" e.toMap.members = e.http.map fun x => .obj x.members := by
  simp [NormalizedEvent.toMap, Json.members, lookup_cons, lookup_append, lookup_omitNil]

theorem lookup_dns : lookup "dns" e.toMap.members = e.dns.map fun x => .obj x.members := by
  simp [NormalizedEvent.toMap, Json.members, lookup_cons, lookup_append, lookup_omitNil]

theorem lookup_ip (x : Endpoint) :
    lookup "ip" x.members = if x.ip ≠ "" then some (.str x.ip) else none := by
  simp [Endpoint.members, lookup_append, lookup_omitEmpty, lookup_omitZero]

theorem lookup_port (x : Endpoint) :
    lookup "port" x.members = if x.port ≠ 0 then some (jsonNumber x.port) else none := by
  simp [Endpoint.members, lookup_append, lookup_omitEmpty, lookup_omitZero]

theorem getNestedString_srcIP : getNestedString e.toMap ["src", "ip"] =
    trimSpace ((e.src.map Endpoint.ip).getD "") :=
  getNestedString_of_part (lookup_src e) lookup_ip

theorem getNestedString_dstIP : getNestedString e.toMap ["dst", "ip"] =
    trimSpace ((e.dst.map Endpoint.ip).getD "") :=
  getNestedString_of_part (lookup_dst e) lookup_ip

theorem getNestedInt_dstPort : getNestedInt p e.toMap ["dst", "port"] =
    ((e.dst.map Endpoint.port).filter (· ≠ 0)).map fun n =>
      toInt64 p.outOfRange (Binary64.ofInt n) :=
  getNestedInt_of_part p (lookup_dst e) lookup_port

theorem getNestedString_userName : getNestedString e.toMap ["user", "name"] =
    trimSpace ((e.user.map UserInfo.name).getD "") := by
  apply getNestedString_of_part (lookup_user e)
  intro x
  simp [UserInfo.members, lookup_append, lookup_omitEmpty]

theorem getNestedString_queryName : getNestedString e.toMap ["dns", "query_name"] =
    trimSpace ((e.dns.map DNSInfo.queryName).getD "") := by
  apply getNestedString_of_part (lookup_dns e)
  intro x
  simp [DNSInfo.members, lookup_append, lookup_omitEmpty]

theorem getNestedString_queryType : getNestedString e.toMap ["dns", "query_type"] =
    trimSpace ((e.dns.map DNSInfo.queryType).getD "") := by
  apply getNestedString_of_part (lookup_dns e)
  intro x
  simp [DNSInfo.members, lookup_append, lookup_omitEmpty]

theorem getNestedString_url : getNestedString e.toMap ["http", "url"] =
    trimSpace ((e.http.map HTTPInfo.url).getD "") := by
  apply getNestedString_of_part (lookup_http e)
  intro x
  simp [HTTPInfo.members, lookup_append, lookup_omitEmpty, lookup_omitZero]

theorem getNestedInt_statusCode : getNestedInt p e.toMap ["http", "status_code"] =
    ((e.http.map HTTPInfo.statusCode).filter (· ≠ 0)).map fun n =>
      toInt64 p.outOfRange (Binary64.ofInt n) := by
  apply getNestedInt_of_part p (lookup_http e)
  intro x
  simp [HTTPInfo.members, lookup_append, lookup_omitEmpty, lookup_omitZero]

theorem bytesOut_toMap : bytesOut p e.toMap = none := by
  have hnone (field : String) (hfield : field ≠ "protocol") :
      getNestedInt p e.toMap ["network", field] = none := by
    rw [getNestedInt, getPath_of_part (lookup_network e)]
    cases e.network with
    | none => rfl
    | some x => simp [NetworkInfo.members, lookup_omitEmpty, Ne.symm hfield]
  rw [bytesOut, hnone "bytes_out" (by decide), hnone "bytes" (by decide)]
  rfl

end Event

section Words

variable (u : Unicode)

theorem toLower_unknown : toLower u "unknown" = "unknown" :=
  (toLower_ascii u (by decide)).trans (by decide)

end Words

section Extracted

variable (p : Platform) (spec : ParserSpec) (ex : Extracted)

/-- An extracted string without blanks around it, or the empty one. -/
def textAt (path : String) : String := trimSpace ((stringAt ex path).getD "")

/-- An extracted text in lower case, or the empty one. -/
def lowerTextAt (path : String) : String := toLower p.unicode (textAt ex path)

/-- The extracted action has a word of failure. -/
def Failing : Prop :=
  ∃ s, stringAt ex "event.action" = some s ∧ containsAny (toLower p.unicode s) failureWords = true

/-- It contains one of the words that stand for a success and none of the others. -/
def Succeeding : Prop :=
  ∃ s, stringAt ex "event.action" = some s ∧ containsAny (toLower p.unicode s) successWords = true ∧
    containsAny (toLower p.unicode s) failureWords = false

/-- No class is stated, and nothing is there by which events of the web, of
users, and alerts are told. -/
def Unclassified : Prop :=
  nonEmptyAt ex "event.class" = none ∧ spec.matchConfig.format ≠ "cef" ∧
    ∀ path ∈ ["http.response.status_code", "http.request.method", "user.name", "alert.severity",
      "alert.name"], present ex path = false

theorem trimSpace_getD_nonEmptyAt (path : String) :
    trimSpace ((nonEmptyAt ex path).getD "") = textAt ex path := by
  rw [textAt, nonEmptyAt]
  cases stringAt ex path with
  | none => rfl
  | some s =>
      by_cases hs : s = ""
      · simp [Option.filter, hs]
      · simp [Option.filter, hs]

theorem check_default {path default : String} (check : String → Bool) (hempty : check "" = false)
    (hdefault : check (toLower p.unicode (trimSpace default)) = false) :
    check (toLower p.unicode (trimSpace ((nonEmptyAt ex path).getD default))) =
      check (lowerTextAt p ex path) := by
  rw [lowerTextAt, ← trimSpace_getD_nonEmptyAt]
  cases nonEmptyAt ex path with
  | none =>
      show check (toLower p.unicode (trimSpace default)) = check (toLower p.unicode (trimSpace ""))
      rw [hdefault, trimSpace_empty, toLower_empty, hempty]
  | some s => rfl

theorem actionOf_cases :
    (∃ s, stringAt ex "event.action" = some s ∧ actionOf ex = s) ∨
      (actionOf ex = "unknown" ∧ ∀ s, stringAt ex "event.action" = some s → s = "") := by
  rw [actionOf]
  cases hs : nonEmptyAt ex "event.action" with
  | none =>
      refine Or.inr ⟨rfl, fun s hstring => ?_⟩
      by_contra hne
      rw [nonEmptyAt_eq_some_iff.mpr ⟨hstring, hne⟩] at hs
      cases hs
  | some s => exact Or.inl ⟨s, (nonEmptyAt_eq_some_iff.mp hs).1, rfl⟩

theorem outcomeOfAction_unknown (u : Unicode) : outcomeOfAction u "unknown" = "unknown" := by
  rw [outcomeOfAction, toLower_unknown]
  decide

theorem failing_iff : outcomeOfAction p.unicode (actionOf ex) = "failure" ↔ Failing p ex := by
  obtain ⟨s, hstring, haction⟩ | ⟨haction, hempty⟩ := actionOf_cases ex
  · rw [haction, Failing, outcomeOfAction]
    simp only [hstring, Option.some.injEq, exists_eq_left']
    split_ifs with hfail hsuccess <;> simp [hfail]
  · rw [haction, outcomeOfAction_unknown]
    refine iff_of_false (by decide) ?_
    rintro ⟨s, hstring, hfail⟩
    rw [hempty s hstring, toLower_empty] at hfail
    revert hfail
    decide

theorem succeeding_iff : outcomeOfAction p.unicode (actionOf ex) = "success" ↔ Succeeding p ex := by
  obtain ⟨s, hstring, haction⟩ | ⟨haction, hempty⟩ := actionOf_cases ex
  · rw [haction, Succeeding, outcomeOfAction]
    simp only [hstring, Option.some.injEq, exists_eq_left']
    split_ifs with hfail hsuccess
    · simp [hfail]
    · simp [hfail, hsuccess]
    · simp [hsuccess]
  · rw [haction, outcomeOfAction_unknown]
    refine iff_of_false (by decide) ?_
    rintro ⟨s, hstring, hsuccess, -⟩
    rw [hempty s hstring, toLower_empty] at hsuccess
    revert hsuccess
    decide

theorem inferClass_cases :
    (∃ s, nonEmptyAt ex "event.class" = some s) ∨
      (nonEmptyAt ex "event.class" = none ∧
        inferClass spec ex ∈ ["WEB_ACCESS", "AUTHENTICATION", "MALWARE_ALERT"] ∧
        ¬ Unclassified spec ex) ∨
      (Unclassified spec ex ∧
        inferClass spec ex =
          if present ex "src.ip" && present ex "dst.ip" then "NETWORK_CONNECTION"
          else "SECURITY_EVENT") := by
  cases hclass : nonEmptyAt ex "event.class" with
  | some s => exact Or.inl ⟨s, rfl⟩
  | none =>
      apply Or.inr
      have hunclassified : Unclassified spec ex ↔
          ((present ex "http.response.status_code" || present ex "http.request.method") = false ∧
            present ex "user.name" = false ∧
            (present ex "alert.severity" || present ex "alert.name" ||
              spec.matchConfig.format = "cef") = false) := by
        simp only [Unclassified, hclass, true_and, List.forall_mem_cons, List.not_mem_nil,
          false_imp_iff, implies_true, and_true, Bool.or_eq_false_iff, decide_eq_false_iff_not]
        tauto
      rw [hunclassified, inferClass]
      clear hunclassified
      generalize (present ex "http.response.status_code" || present ex "http.request.method") = web
      generalize present ex "user.name" = user
      generalize (present ex "alert.severity" || present ex "alert.name" ||
        decide (spec.matchConfig.format = "cef")) = alert
      cases web <;> cases user <;> cases alert <;> simp

/-- The kind of an event that is only told by its endpoints. -/
def endpointKind : String :=
  if present ex "src.ip" && present ex "dst.ip" then "network_connection" else "security_event"

theorem check_class_iff (check : String → Bool) (hempty : check "" = false)
    (hkinds : ∀ kind ∈ ["web_access", "authentication", "malware_alert"], check kind = false) :
    check (toLower p.unicode (trimSpace (eventClassOf spec ex))) = true ↔
      check (lowerTextAt p ex "event.class") = true ∨
        (Unclassified spec ex ∧
          check (endpointKind ex) = true) := by
  have hlower (kind : String)
      (hascii : (trimSpace kind).toList.all (fun c => c.toNat < 128) = true) :
      toLower p.unicode (trimSpace kind) = toLower Unicode.ascii (trimSpace kind) :=
    toLower_ascii p.unicode hascii
  rw [eventClassOf, lowerTextAt, ← trimSpace_getD_nonEmptyAt]
  obtain ⟨s, hclass⟩ | ⟨hclass, hkind, hclassified⟩ | ⟨hunclassified, hkind⟩ :=
    inferClass_cases spec ex
  · have hclassified : ¬ Unclassified spec ex := by
      rintro ⟨hnone, -⟩
      rw [hclass] at hnone
      cases hnone
    simp [hclass, hclassified]
  · have hfalse : check (toLower p.unicode (trimSpace (inferClass spec ex))) = false := by
      simp only [List.mem_cons, List.not_mem_nil, or_false] at hkind
      obtain h | h | h := hkind <;> rw [h, hlower _ (by decide)] <;>
        exact hkinds _ (by decide)
    simp [hclass, hclassified, hfalse, trimSpace_empty, toLower_empty, hempty]
  · have hname : toLower p.unicode (trimSpace (inferClass spec ex)) = endpointKind ex := by
      rw [hkind, endpointKind]
      split_ifs <;> rw [hlower _ (by decide)] <;> decide
    simp [hunclassified, hunclassified.1, hname, trimSpace_empty, toLower_empty, hempty]

theorem check_stated_class (check : String → Bool) (hempty : check "" = false)
    (hkinds : ∀ kind ∈ ["web_access", "authentication", "malware_alert"], check kind = false)
    (hnetwork : check "network_connection" = false) (hsecurity : check "security_event" = false) :
    check (toLower p.unicode (trimSpace (eventClassOf spec ex))) =
      check (lowerTextAt p ex "event.class") := by
  have hkind : check (endpointKind ex) = false := by
    rw [endpointKind]
    split_ifs
    · exact hnetwork
    · exact hsecurity
  rw [Bool.eq_iff_iff, check_class_iff p spec ex check hempty hkinds, hkind]
  simp

end Extracted

section Normalized

variable (p : Platform) (env : RawEnvelopeInput) (res : ParseResult) (spec : ParserSpec)

/-- The map that the rules are evaluated on after normalization. -/
def normalizedMap : Value := (normalizedEventOf p env res spec).toMap

theorem action_normalizedMap (words : List String) (hempty : containsOneOf "" words = false)
    (hunknown : containsOneOf "unknown" words = false) :
    containsOneOf (action p (normalizedMap p env res spec)) words =
      containsOneOf (lowerTextAt p res.extracted "event.action") words := by
  have haction : (normalizedEventOf p env res spec).event.action = actionOf res.extracted := rfl
  have htrim : trimSpace "unknown" = "unknown" := by decide
  rw [action, lowerAt, normalizedMap, getNestedString_action, haction]
  exact check_default p res.extracted (fun s => containsOneOf s words) hempty
    (by rw [htrim, toLower_unknown, hunknown])

theorem outcome_normalizedMap : outcome p (normalizedMap p env res spec) =
    outcomeOfAction p.unicode (actionOf res.extracted) := by
  have hevent : (normalizedEventOf p env res spec).event =
      eventInfoOf p env spec res.extracted := rfl
  rw [outcome, lowerAt, normalizedMap, getNestedString_outcome, hevent, eventInfoOf]
  dsimp only
  have hmem := outcomeOfAction_mem p.unicode (actionOf res.extracted)
  simp only [List.mem_cons, List.not_mem_nil, or_false] at hmem
  obtain h | h | h := hmem <;> rw [h, toLower_ascii _ (by decide)] <;> decide

theorem eventClass_normalizedMap : eventClass p (normalizedMap p env res spec) =
    toLower p.unicode (trimSpace (eventClassOf spec res.extracted)) := by
  rw [eventClass, lowerAt, normalizedMap, getNestedString_class]
  rfl

theorem userName_normalizedMap : getNestedString (normalizedMap p env res spec) ["user", "name"] =
    textAt res.extracted "user.name" := by
  have huser : (normalizedEventOf p env res spec).user = userInfoOf res.extracted := rfl
  rw [normalizedMap, getNestedString_userName, ← trimSpace_getD_nonEmptyAt, huser, userInfoOf]
  cases nonEmptyAt res.extracted "user.name" <;> rfl

theorem getD_ip_endpointOf (ex : Extracted) (ipPath portPath : String) :
    ((endpointOf ex ipPath portPath).map Endpoint.ip).getD "" = (stringAt ex ipPath).getD "" := by
  rw [endpointOf]
  split_ifs with hpresent
  · rfl
  · cases hip : stringAt ex ipPath with
    | none => rfl
    | some ip => exact absurd (by rw [present_of_stringAt hip, Bool.true_or]) hpresent

theorem filter_port_endpointOf (ex : Extracted) (ipPath portPath : String) :
    ((endpointOf ex ipPath portPath).map Endpoint.port).filter (· ≠ 0) =
      (intAt ex portPath).filter (· ≠ 0) := by
  rw [endpointOf]
  split_ifs with hpresent
  · cases intAt ex portPath <;> rfl
  · cases hport : intAt ex portPath with
    | none => rfl
    | some port => exact absurd (by rw [present_of_intAt hport, Bool.or_true]) hpresent

theorem srcIP_normalizedMap : getNestedString (normalizedMap p env res spec) ["src", "ip"] =
    textAt res.extracted "src.ip" := by
  rw [normalizedMap, getNestedString_srcIP, textAt, ← getD_ip_endpointOf _ _ "src.port"]
  rfl

theorem dstIP_normalizedMap : getNestedString (normalizedMap p env res spec) ["dst", "ip"] =
    textAt res.extracted "dst.ip" := by
  rw [normalizedMap, getNestedString_dstIP, textAt, ← getD_ip_endpointOf _ _ "dst.port"]
  rfl

theorem dstPort_normalizedMap : getNestedInt p (normalizedMap p env res spec) ["dst", "port"] =
    ((intAt res.extracted "dst.port").filter (· ≠ 0)).map fun n =>
      toInt64 p.outOfRange (Binary64.ofInt n) := by
  rw [normalizedMap, getNestedInt_dstPort, ← filter_port_endpointOf _ "dst.ip"]
  rfl

theorem queryName_normalizedMap :
    getNestedString (normalizedMap p env res spec) ["dns", "query_name"] =
      textAt res.extracted "dns.query_name" := by
  have hdns : (normalizedEventOf p env res spec).dns = dnsInfoOf res.extracted := rfl
  rw [normalizedMap, getNestedString_queryName, textAt, hdns, dnsInfoOf]
  split_ifs with hpresent
  · rfl
  · cases hname : stringAt res.extracted "dns.query_name" with
    | none => rfl
    | some name => exact absurd (by simp [present_of_stringAt hname]) hpresent

theorem queryType_normalizedMap :
    getNestedString (normalizedMap p env res spec) ["dns", "query_type"] =
      textAt res.extracted "dns.query_type" := by
  have hdns : (normalizedEventOf p env res spec).dns = dnsInfoOf res.extracted := rfl
  rw [normalizedMap, getNestedString_queryType, textAt, hdns, dnsInfoOf]
  split_ifs with hpresent
  · rfl
  · cases htype : stringAt res.extracted "dns.query_type" with
    | none => rfl
    | some type => exact absurd (by simp [present_of_stringAt htype]) hpresent

/-- The extracted URL, or else the raw field `uri`. -/
def urlText (res : ParseResult) : String :=
  trimSpace (((stringAt res.extracted "http.url").or (stringAt res.unknownFields "uri")).getD "")

theorem url_normalizedMap : getNestedString (normalizedMap p env res spec) ["http", "url"] =
    if hasHTTP res.extracted then urlText res else "" := by
  have hhttp : (normalizedEventOf p env res spec).http =
      httpInfoOf res.extracted res.unknownFields := rfl
  rw [normalizedMap, getNestedString_url, urlText, hasHTTP, hhttp, httpInfoOf]
  split_ifs with hpresent
  · rfl
  · exact trimSpace_empty

theorem statusCode_normalizedMap :
    getNestedInt p (normalizedMap p env res spec) ["http", "status_code"] =
      ((intAt res.extracted "http.response.status_code").filter (· ≠ 0)).map fun n =>
        toInt64 p.outOfRange (Binary64.ofInt n) := by
  have hhttp : (normalizedEventOf p env res spec).http =
      httpInfoOf res.extracted res.unknownFields := rfl
  rw [normalizedMap, getNestedInt_statusCode, hhttp, httpInfoOf]
  split_ifs with hpresent
  · cases intAt res.extracted "http.response.status_code" <;> rfl
  · cases hcode : intAt res.extracted "http.response.status_code" with
    | none => rfl
    | some code => exact absurd (by rw [present_of_intAt hcode, Bool.true_or]) hpresent

end Normalized

section Shown

variable (p : Platform) (spec : ParserSpec) (res : ParseResult)

/-- The extracted action has one of some words. -/
def ActionHas (words : List String) : Prop :=
  containsOneOf (lowerTextAt p res.extracted "event.action") words = true

def ShowsFailedAuthentication : Prop :=
  ActionHas p res authWords ∧ Failing p res.extracted ∧
    (textAt res.extracted "user.name" ≠ "" ∨ textAt res.extracted "src.ip" ≠ "")

def ShowsBlockedConnection : Prop :=
  (ActionHas p res blockWords ∨ Failing p res.extracted) ∧
    (textAt res.extracted "src.ip" ≠ "" ∨ textAt res.extracted "dst.ip" ≠ "")

def ShowsAuthentication : Prop :=
  ActionHas p res authWords ∧ Succeeding p res.extracted ∧ textAt res.extracted "user.name" ≠ ""

/-- An event of no kind between less than two endpoints counts as one of security. -/
def ShowsPolicyDeny : Prop :=
  ActionHas p res denyWords ∨ Failing p res.extracted ∨
    containsOneOf (lowerTextAt p res.extracted "event.class") policyWords = true ∨
    Unclassified spec res.extracted ∧
      (present res.extracted "src.ip" && present res.extracted "dst.ip") = false

def isLookupClass (s : String) : Bool := s = "dns" || contains s "network"

/-- An event of no kind between two endpoints counts as one of the network. -/
def ShowsDNSLookup : Prop :=
  textAt res.extracted "dns.query_name" ≠ "" ∨
    textAt res.extracted "dns.query_type" ≠ "" ∧
      (isLookupClass (lowerTextAt p res.extracted "event.class") = true ∨
        Unclassified spec res.extracted ∧
          (present res.extracted "src.ip" && present res.extracted "dst.ip") = true)

/-- The status code is the one of a JSON text, where integers become floats. -/
def ShowsProxyDeny : Prop :=
  ((∃ n, intAt res.extracted "http.response.status_code" = some n ∧
      toInt64 p.outOfRange (Binary64.ofInt n) ∈ ([403, 401] : List ℤ)) ∨
    Failing p res.extracted) ∧
  hasHTTP res.extracted = true ∧ urlText res ≠ ""

def ShowsLateralMovement : Prop :=
  (∃ n ∈ lateralPorts, intAt res.extracted "dst.port" = some n) ∧
    textAt res.extracted "src.ip" ≠ "" ∧ textAt res.extracted "dst.ip" ≠ "" ∧
    (ActionHas p res allowWords ∨ Succeeding p res.extracted)

def ShowsPrivilegeEscalation : Prop :=
  let user := lowerTextAt p res.extracted "user.name"
  (user ∈ ["root", "administrator", "system"] ∨ contains user "admin" = true) ∧
    (ActionHas p res elevationWords ∨
      contains (lowerTextAt p res.extracted "event.class") "privilege" = true)

def isFileClass (s : String) : Bool := ["file", "filesystem"].contains s || contains s "storage"

def ShowsFileModification : Prop :=
  isFileClass (lowerTextAt p res.extracted "event.class") = true ∧
    ActionHas p res destructionWords ∧ Succeeding p res.extracted

end Shown

section Matches

variable (p : Platform) (env : RawEnvelopeInput) (res : ParseResult) (spec : ParserSpec)

theorem outcome_contains_iff (words : List String) (hunknown : "unknown" ∉ words)
    (hsuccess : "success" ∉ words) (hfailure : "failure" ∈ words) :
    words.contains (outcome p (normalizedMap p env res spec)) = true ↔ Failing p res.extracted := by
  rw [outcome_normalizedMap, ← failing_iff, List.contains_iff_mem]
  have hmem := outcomeOfAction_mem p.unicode (actionOf res.extracted)
  simp only [List.mem_cons, List.not_mem_nil, or_false] at hmem
  obtain h | h | h := hmem <;> rw [h] <;> simp [hunknown, hsuccess, hfailure]

theorem outcome_eq_failure_iff :
    outcome p (normalizedMap p env res spec) = "failure" ↔ Failing p res.extracted := by
  rw [outcome_normalizedMap, failing_iff]

theorem outcome_eq_success_iff :
    outcome p (normalizedMap p env res spec) = "success" ↔ Succeeding p res.extracted := by
  rw [outcome_normalizedMap, succeeding_iff]

theorem det001_normalizedMap_iff :
    (det001 p).predicate (normalizedMap p env res spec) = true ↔
      ShowsFailedAuthentication p res := by
  have haction := action_normalizedMap p env res spec authWords (by decide) (by decide)
  have houtcome := outcome_contains_iff p env res spec ["failure", "fail", "denied"]
    (by decide) (by decide) (by decide)
  simp only [det001, Bool.and_eq_true, Bool.or_eq_true, decide_eq_true_eq, haction, houtcome,
    userName_normalizedMap, srcIP_normalizedMap, ShowsFailedAuthentication, ActionHas, and_assoc]

theorem det002_normalizedMap_iff :
    (det002 p).predicate (normalizedMap p env res spec) = true ↔ ShowsBlockedConnection p res := by
  have haction := action_normalizedMap p env res spec blockWords (by decide) (by decide)
  have houtcome := outcome_contains_iff p env res spec ["failure", "deny", "drop"]
    (by decide) (by decide) (by decide)
  simp only [det002, Bool.and_eq_true, Bool.or_eq_true, decide_eq_true_eq, haction, houtcome,
    srcIP_normalizedMap, dstIP_normalizedMap, ShowsBlockedConnection, ActionHas]

theorem det003_normalizedMap_iff :
    (det003 p).predicate (normalizedMap p env res spec) = true ↔ ShowsAuthentication p res := by
  have haction := action_normalizedMap p env res spec authWords (by decide) (by decide)
  simp only [det003, Bool.and_eq_true, decide_eq_true_eq, haction, outcome_eq_success_iff,
    userName_normalizedMap, ShowsAuthentication, ActionHas, and_assoc]

theorem det004_normalizedMap_iff :
    (det004 p).predicate (normalizedMap p env res spec) = true ↔ ShowsPolicyDeny p spec res := by
  have haction := action_normalizedMap p env res spec denyWords (by decide) (by decide)
  have hclass := check_class_iff p spec res.extracted (fun s => containsOneOf s policyWords)
    (by decide) (by decide)
  have hkind : containsOneOf (endpointKind res.extracted) policyWords = true ↔
      (present res.extracted "src.ip" && present res.extracted "dst.ip") = false := by
    rw [endpointKind]
    cases present res.extracted "src.ip" && present res.extracted "dst.ip" <;> decide
  simp only [hkind] at hclass
  simp only [det004, Bool.or_eq_true, decide_eq_true_eq, haction, outcome_eq_failure_iff,
    eventClass_normalizedMap, hclass, ShowsPolicyDeny, ActionHas, or_assoc]

theorem det005_normalizedMap_iff :
    (det005 p).predicate (normalizedMap p env res spec) = true ↔ ShowsDNSLookup p spec res := by
  have hclass := check_class_iff p spec res.extracted isLookupClass (by decide) (by decide)
  have hkind : isLookupClass (endpointKind res.extracted) = true ↔
      (present res.extracted "src.ip" && present res.extracted "dst.ip") = true := by
    rw [endpointKind]
    cases present res.extracted "src.ip" && present res.extracted "dst.ip" <;> decide
  rw [hkind, ← eventClass_normalizedMap p env] at hclass
  rw [ShowsDNSLookup, ← hclass, ← queryName_normalizedMap p env res spec,
    ← queryType_normalizedMap p env res spec]
  simp only [det005, isLookupClass, Bool.or_eq_true, Bool.and_eq_true, decide_eq_true_eq]

theorem any_map_filter_iff {x : Option ℤ} {f : ℤ → ℤ} {check : ℤ → Bool}
    (hzero : check (f 0) = false) : ((x.filter (· ≠ 0)).map f).any check = true ↔
      ∃ n, x = some n ∧ check (f n) = true := by
  cases x with
  | none => simp
  | some n =>
      by_cases hn : n = 0
      · simp [Option.filter, hn, hzero]
      · simp [Option.filter, hn]

theorem toInt64_ofInt {n : ℕ} (h : n < 2 ^ 53) : toInt64 p.outOfRange (Binary64.ofInt n) = n := by
  have hfits : IsInt64 n := by
    rw [IsInt64]
    omega
  rw [toInt64, Binary64.truncate?_ofInt h]
  exact if_pos hfits

theorem det006_normalizedMap_iff :
    (det006 p).predicate (normalizedMap p env res spec) = true ↔ ShowsProxyDeny p res := by
  have houtcome := outcome_contains_iff p env res spec ["failure", "denied"]
    (by decide) (by decide) (by decide)
  have hzero : ([403, 401] : List ℤ).contains
      (toInt64 p.outOfRange (Binary64.ofInt 0)) = false := by
    rw [show (0 : ℤ) = (0 : ℕ) from rfl, toInt64_ofInt p (by decide)]
    decide
  have hurl : (if hasHTTP res.extracted then urlText res else "") ≠ "" ↔
      hasHTTP res.extracted = true ∧ urlText res ≠ "" := by
    cases hasHTTP res.extracted <;> simp
  simp only [det006, Bool.and_eq_true, Bool.or_eq_true, decide_eq_true_eq, houtcome,
    statusCode_normalizedMap, url_normalizedMap, hurl, ShowsProxyDeny,
    any_map_filter_iff (f := fun n => toInt64 p.outOfRange (Binary64.ofInt n)) hzero,
    List.contains_iff_mem]

theorem lateralPort_iff
    (hvalid : (normalizedEventOf p env res spec).validate p.localZone = .ok ()) :
    (getNestedInt p (normalizedMap p env res spec) ["dst", "port"]).any
        (lateralPorts.contains ·) = true ↔
      ∃ n ∈ lateralPorts, intAt res.extracted "dst.port" = some n := by
  have hzero : lateralPorts.contains (toInt64 p.outOfRange (Binary64.ofInt 0)) = false := by
    rw [show (0 : ℤ) = (0 : ℕ) from rfl, toInt64_ofInt p (by decide)]
    decide
  have hdst : ReadableEndpoint res.extracted "dst.ip" "dst.port" :=
    validEndpoint_endpointOf_iff.mp
      (NormalizedEvent.validate_eq_ok_iff.mp hvalid).2.2.2.2.2.1
  rw [dstPort_normalizedMap,
    any_map_filter_iff (f := fun n => toInt64 p.outOfRange (Binary64.ofInt n)) hzero]
  have hexact : ∀ n, intAt res.extracted "dst.port" = some n →
      toInt64 p.outOfRange (Binary64.ofInt n) = n := by
    intro n hport
    have hrange := hdst.2 n hport
    simp only [isPort, Bool.and_eq_true, decide_eq_true_eq] at hrange
    obtain ⟨m, rfl⟩ := Int.eq_ofNat_of_zero_le hrange.1
    exact toInt64_ofInt p (by omega)
  constructor
  · rintro ⟨n, hport, hcheck⟩
    rw [hexact n hport, List.contains_iff_mem] at hcheck
    exact ⟨n, hcheck, hport⟩
  · rintro ⟨n, hmem, hport⟩
    exact ⟨n, hport, by rw [hexact n hport, List.contains_iff_mem]; exact hmem⟩

theorem det007_normalizedMap_iff
    (hvalid : (normalizedEventOf p env res spec).validate p.localZone = .ok ()) :
    (det007 p).predicate (normalizedMap p env res spec) = true ↔ ShowsLateralMovement p res := by
  have haction := action_normalizedMap p env res spec allowWords (by decide) (by decide)
  simp only [det007, Bool.and_eq_true, Bool.or_eq_true, decide_eq_true_eq, haction,
    outcome_eq_success_iff, lateralPort_iff p env res spec hvalid, srcIP_normalizedMap,
    dstIP_normalizedMap, ShowsLateralMovement, ActionHas, and_assoc]

theorem det008_normalizedMap_iff :
    (det008 p).predicate (normalizedMap p env res spec) = true ↔
      ShowsPrivilegeEscalation p res := by
  have haction := action_normalizedMap p env res spec elevationWords (by decide) (by decide)
  have hclass := check_stated_class p spec res.extracted (fun s => contains s "privilege")
    (by decide) (by decide) (by decide) (by decide)
  have huser : lowerAt p (normalizedMap p env res spec) ["user", "name"] =
      lowerTextAt p res.extracted "user.name" := by
    rw [lowerAt, userName_normalizedMap, lowerTextAt]
  simp only [det008, Bool.and_eq_true, Bool.or_eq_true, haction, huser, eventClass_normalizedMap,
    hclass, ShowsPrivilegeEscalation, ActionHas, List.contains_iff_mem]

theorem det009_normalizedMap : (det009 p).predicate (normalizedMap p env res spec) = false := by
  simp only [det009, normalizedMap, bytesOut_toMap, Option.any_none, Bool.false_and]

theorem det010_normalizedMap_iff :
    (det010 p).predicate (normalizedMap p env res spec) = true ↔ ShowsFileModification p res := by
  have haction := action_normalizedMap p env res spec destructionWords (by decide) (by decide)
  have hclass := check_stated_class p spec res.extracted isFileClass (by decide) (by decide)
    (by decide) (by decide)
  have houtcome : ["success", ""].contains (outcome p (normalizedMap p env res spec)) = true ↔
      Succeeding p res.extracted := by
    rw [← outcome_eq_success_iff p env res spec, outcome_normalizedMap, List.contains_iff_mem]
    have hmem := outcomeOfAction_mem p.unicode (actionOf res.extracted)
    simp only [List.mem_cons, List.not_mem_nil, or_false] at hmem
    obtain h | h | h := hmem <;> rw [h] <;> decide
  rw [ShowsFileModification, ← hclass, ← eventClass_normalizedMap p env, ActionHas, ← haction,
    ← houtcome]
  simp only [det010, isFileClass, Bool.and_eq_true, and_assoc]

end Matches

/-- The event with the extracted values at the paths their dotted names spell,
in the order in which the names are gone through. -/
def nest (order : KeyOrder) (ex : Extracted) : Value :=
  (arrange (order.run ex.keys) ex.entries).foldl
    (fun event entry => Json.setPath (Text.split entry.1 ".") entry.2 event) (.obj [])

/-- What a rule detects in the extracted fields, it detects in the event. -/
def PreservesDetections (p : Platform) (extracted : Value) (event : NormalizedEvent) : Prop :=
  ∀ rule ∈ defaultRules p, rule.predicate extracted = true → rule.predicate event.toMap = true

/-- What has been extracted for each rule that matches the extracted event. No
volume of data is ever kept. -/
structure KeepsDetections (p : Platform) (spec : ParserSpec) (res : ParseResult)
    (extracted : Value) : Prop where
  failedAuthentication : (det001 p).predicate extracted = true → ShowsFailedAuthentication p res
  blockedConnection : (det002 p).predicate extracted = true → ShowsBlockedConnection p res
  authentication : (det003 p).predicate extracted = true → ShowsAuthentication p res
  policyDeny : (det004 p).predicate extracted = true → ShowsPolicyDeny p spec res
  dnsLookup : (det005 p).predicate extracted = true → ShowsDNSLookup p spec res
  proxyDeny : (det006 p).predicate extracted = true → ShowsProxyDeny p res
  lateralMovement : (det007 p).predicate extracted = true → ShowsLateralMovement p res
  privilegeEscalation : (det008 p).predicate extracted = true → ShowsPrivilegeEscalation p res
  exfiltration : ¬ (det009 p).predicate extracted = true
  fileModification : (det010 p).predicate extracted = true → ShowsFileModification p res

/-- Normalization preserves the detections of an event exactly when what was
extracted shows, for each rule that matches, what the rule asks for. -/
theorem preservesDetections_iff_keepsDetections {p : Platform} {env : RawEnvelopeInput}
    {res : ParseResult} {spec : ParserSpec} {event : NormalizedEvent}
    (h : normalize p env res spec = .ok event) (order : KeyOrder) :
    PreservesDetections p (nest order res.extracted) event ↔
      KeepsDetections p spec res (nest order res.extracted) := by
  obtain ⟨rfl, hvalid⟩ := normalize_eq_ok_iff.mp h
  generalize nest order res.extracted = extracted
  have hrules : PreservesDetections p extracted (normalizedEventOf p env res spec) ↔
      ∀ rule ∈ defaultRules p, rule.predicate extracted = true →
        rule.predicate (normalizedMap p env res spec) = true := Iff.rfl
  rw [hrules]
  simp only [defaultRules, List.forall_mem_cons, List.not_mem_nil, false_imp_iff, implies_true,
    and_true, det001_normalizedMap_iff, det002_normalizedMap_iff, det003_normalizedMap_iff,
    det004_normalizedMap_iff, det005_normalizedMap_iff, det006_normalizedMap_iff,
    det007_normalizedMap_iff p env res spec hvalid, det008_normalizedMap_iff, det009_normalizedMap,
    det010_normalizedMap_iff, Bool.false_eq_true]
  constructor
  · rintro ⟨h1, h2, h3, h4, h5, h6, h7, h8, h9, h10⟩
    exact ⟨h1, h2, h3, h4, h5, h6, h7, h8, h9, h10⟩
  · rintro ⟨h1, h2, h3, h4, h5, h6, h7, h8, h9, h10⟩
    exact ⟨h1, h2, h3, h4, h5, h6, h7, h8, h9, h10⟩

section FailedLogin

def failedLoginSpec : ParserSpec :=
  plainSpec "key_value" [("action", plainField "string" "event.action"),
    ("outcome", plainField "string" "event.outcome"), ("user", plainField "string" "user.name")]

def failedLoginFields : RawFields :=
  Dict.ofList [("action", .str "login"), ("outcome", .str "failure"), ("user", .str "alice")]

def failedLogin : ParseResult :=
  mapRawFields Platform.plain Enumeration.standing failedLoginSpec
    "action=login outcome=failure user=alice" failedLoginFields

theorem normalize_failedLogin :
    normalize Platform.plain largePortEvent.input failedLogin failedLoginSpec =
      .ok (normalizedEventOf Platform.plain largePortEvent.input failedLogin failedLoginSpec) :=
  normalize_eq_ok_iff.mpr ⟨rfl, by decide +kernel⟩

theorem preservesDetections_iff_keepsDetections_failedLogin :
    PreservesDetections Platform.plain (nest KeyOrder.standing failedLogin.extracted)
        (normalizedEventOf Platform.plain largePortEvent.input failedLogin failedLoginSpec) ↔
      KeepsDetections Platform.plain failedLoginSpec failedLogin
        (nest KeyOrder.standing failedLogin.extracted) :=
  preservesDetections_iff_keepsDetections normalize_failedLogin KeyOrder.standing

/-- The failed login counts as a success, and is no longer detected. -/
theorem not_preservesDetections_failedLogin :
    ¬ ∀ (p : Platform) (e : Enumeration) (env : RawEnvelopeInput) (raw : List UInt8)
      (spec : ValidSpec) (res : ParseResult) (event : NormalizedEvent) (order : KeyOrder),
      parse p e raw spec.1 = .ok res → normalize p env res spec.1 = .ok event →
        PreservesDetections p (nest order res.extracted) event := by
  intro hall
  have haccepted : Accepted failedLoginSpec :=
    (validateParserSpec_eq_ok_iff _).mp (by decide +kernel)
  have hparse : parse Platform.plain Enumeration.standing
      (asciiBytes "action=login outcome=failure user=alice") failedLoginSpec = .ok failedLogin :=
    parse_eq_ok_iff.mpr ⟨by decide, failedLoginFields, by decide +kernel, by
      rw [show ofBytes (asciiBytes "action=login outcome=failure user=alice") =
        "action=login outcome=failure user=alice" by decide +kernel]
      rfl⟩
  have hmatches : (det001 Platform.plain).predicate
      (nest KeyOrder.standing failedLogin.extracted) = true := by
    decide +kernel
  have hlost : (det001 Platform.plain).predicate (normalizedEventOf Platform.plain
      largePortEvent.input failedLogin failedLoginSpec).toMap = false := by
    decide +kernel
  have hpreserved := hall _ _ _ _ ⟨failedLoginSpec, haccepted⟩ _ _ KeyOrder.standing hparse
    normalize_failedLogin _ List.mem_cons_self hmatches
  rw [hlost] at hpreserved
  cases hpreserved

end FailedLogin

end Ulpf.DetectionContracts
