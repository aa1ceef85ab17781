import Ulpf.Go.Platform
import Ulpf.Lib.JsonPath

/-!
The detection contracts: which events each of the registered rules matches.
-/

namespace Ulpf.DetectionContracts

open Ulpf.Lib
open Ulpf.Lib.Text (contains)
open Ulpf.Go

/-- The severities of the rules. -/
inductive Severity where
  | critical
  | high
  | medium
  | low
  deriving DecidableEq

/-- `DetectionRule`: a rule with its predicate on an event. -/
structure DetectionRule where
  id : String
  name : String
  severity : Severity
  isMandatory : Bool
  predicate : Value → Bool

section Reading

variable (p : Platform) (event : Value)

/-- `getNestedString`: the string at a path without blanks around it, or the empty one. -/
def getNestedString (path : List String) : String :=
  match event.getPath path with
  | some (.str s) => trimSpace s
  | _ => ""

/-- `getNestedInt` -/
def getNestedInt (path : List String) : Option ℤ :=
  match event.getPath path with
  | some (.num (.int n)) => some n
  | some (.num (.int64 n)) => some n
  | some (.num (.float64 x)) => some (toInt64 p.outOfRange x)
  | _ => none

/-- `strings.ToLower(getNestedString(event, path...))` -/
def lowerAt (path : List String) : String := toLower p.unicode (getNestedString event path)

def action : String := lowerAt p event ["event", "action"]

def outcome : String := lowerAt p event ["event", "outcome"]

def eventClass : String := lowerAt p event ["event", "class"]

end Reading

section Words

def containsOneOf (s : String) (words : List String) : Bool := words.any (contains s)

def authWords : List String := ["auth", "login", "logon"]

def blockWords : List String := ["block", "drop", "deny"]

def denyWords : List String := ["deny", "reject"]

def policyWords : List String := ["security", "policy"]

def allowWords : List String := ["allow", "accept", "connect"]

def elevationWords : List String := ["elevat", "sudo", "runas"]

def destructionWords : List String := ["encrypt", "ransom", "delete", "bulk_modify"]

end Words

section Rules

variable (p : Platform)

/-- Repeated authentication failures. -/
def det001 : DetectionRule where
  id := "DET-001"
  name := "Authentication Failure Detection Contract"
  severity := .critical
  isMandatory := true
  predicate event :=
    containsOneOf (action p event) authWords &&
      ["failure", "fail", "denied"].contains (outcome p event) &&
      (getNestedString event ["user", "name"] ≠ "" || getNestedString event ["src", "ip"] ≠ "")

/-- Blocked connection sequences. -/
def det002 : DetectionRule where
  id := "DET-002"
  name := "Blocked Connection Detection Contract"
  severity := .critical
  isMandatory := true
  predicate event :=
    (containsOneOf (action p event) blockWords ||
        ["failure", "deny", "drop"].contains (outcome p event)) &&
      (getNestedString event ["src", "ip"] ≠ "" || getNestedString event ["dst", "ip"] ≠ "")

/-- Successful authentication. -/
def det003 : DetectionRule where
  id := "DET-003"
  name := "Successful Authentication Detection Contract"
  severity := .high
  isMandatory := true
  predicate event :=
    containsOneOf (action p event) authWords && outcome p event = "success" &&
      getNestedString event ["user", "name"] ≠ ""

/-- Policy deny events. -/
def det004 : DetectionRule where
  id := "DET-004"
  name := "Policy Deny Detection Contract"
  severity := .critical
  isMandatory := true
  predicate event :=
    containsOneOf (action p event) denyWords || outcome p event = "failure" ||
      containsOneOf (eventClass p event) policyWords

/-- DNS lookup sequences. -/
def det005 : DetectionRule where
  id := "DET-005"
  name := "DNS Lookup Query Contract"
  severity := .medium
  isMandatory := false
  predicate event :=
    getNestedString event ["dns", "query_name"] ≠ "" ||
      (getNestedString event ["dns", "query_type"] ≠ "" &&
        (eventClass p event = "dns" || contains (eventClass p event) "network"))

/-- Web proxy deny events. -/
def det006 : DetectionRule where
  id := "DET-006"
  name := "Web Proxy Deny Contract"
  severity := .medium
  isMandatory := false
  predicate event :=
    ((getNestedInt p event ["http", "status_code"]).any ([403, 401].contains ·) ||
        ["failure", "denied"].contains (outcome p event)) &&
      getNestedString event ["http", "url"] ≠ ""

def lateralPorts : List ℤ := [445, 3389, 22, 5985, 135]

/-- Lateral movement sequences. -/
def det007 : DetectionRule where
  id := "DET-007"
  name := "Lateral Movement Detection Contract"
  severity := .high
  isMandatory := true
  predicate event :=
    (getNestedInt p event ["dst", "port"]).any (lateralPorts.contains ·) &&
      (getNestedString event ["src", "ip"] ≠ "" && getNestedString event ["dst", "ip"] ≠ "") &&
      (containsOneOf (action p event) allowWords || outcome p event = "success")

/-- Privilege escalation events. -/
def det008 : DetectionRule where
  id := "DET-008"
  name := "Privilege Escalation Detection Contract"
  severity := .critical
  isMandatory := true
  predicate event :=
    let user := lowerAt p event ["user", "name"]
    (["root", "administrator", "system"].contains user || contains user "admin") &&
      (containsOneOf (action p event) elevationWords || contains (eventClass p event) "privilege")

/-- Bytes an event sent out, or else transferred. -/
def bytesOut (event : Value) : Option ℤ :=
  (getNestedInt p event ["network", "bytes_out"]).or (getNestedInt p event ["network", "bytes"])

/-- Data exfiltration volume spike. -/
def det009 : DetectionRule where
  id := "DET-009"
  name := "Data Exfiltration Spike Contract"
  severity := .high
  isMandatory := false
  predicate event :=
    (bytesOut p event).any (10000000 ≤ ·) &&
      (eventClass p event = "network" || getNestedString event ["dst", "ip"] ≠ "")

/-- Ransomware rapid file modification. -/
def det010 : DetectionRule where
  id := "DET-010"
  name := "Ransomware File Modification Contract"
  severity := .critical
  isMandatory := true
  predicate event :=
    (["file", "filesystem"].contains (eventClass p event) ||
        contains (eventClass p event) "storage") &&
      containsOneOf (action p event) destructionWords &&
      ["success", ""].contains (outcome p event)

/-- `registerDefaultRules` -/
def defaultRules : List DetectionRule :=
  [det001 p, det002 p, det003 p, det004 p, det005 p, det006 p, det007 p, det008 p, det009 p,
    det010 p]

end Rules

end Ulpf.DetectionContracts
