import Ulpf.Go.NetIP
import Ulpf.Go.Platform

/-!
The transformations of the parser DSL.
-/

namespace Ulpf.ParserRuntime

open Ulpf.Lib
open Ulpf.Go

/-- The errors of the coercions. -/
inductive CoercionError where
  | cannotParse (target value : String)
  | unsupportedType (type target : String)
  | ipRequiresString (type : String)
  | invalidIP (value : String)
  | unparsableTimestamp (value : String)
  deriving DecidableEq

section Texts

variable (u : Unicode)

def transformTrim : Value → Value
  | .str s => .str (trimSpace s)
  | val => val

def transformLowercase : Value → Value
  | .str s => .str (toLower u s)
  | val => val

def transformUppercase : Value → Value
  | .str s => .str (toUpper u s)
  | val => val

/-- `TransformEnumMap`; `entries` are those of the table in the order in which
the search for a key in another case meets them. -/
def transformEnumMap (enumMap : Dict String String) (entries : List (String × String))
    (val : Value) : Value :=
  let s := sprint val
  match enumMap.get? s with
  | some target => .str target
  | none =>
      match entries.find? fun entry => toLower u entry.1 = toLower u s with
      | some entry => .str entry.2
      | none => val

def trueWords : List String :=
  ["true", "t", "1", "yes", "y", "enable", "enabled", "allow", "allowed"]

def falseWords : List String :=
  ["false", "f", "0", "no", "n", "disable", "disabled", "deny", "denied", "block", "blocked"]

/-- `TransformBoolean` -/
def transformBoolean : Value → Except CoercionError Bool
  | .bool b => .ok b
  | .num (.int n) => .ok (n ≠ 0)
  -- an `int64` behind an interface never equals the constant 0, which is an `int`
  | .num (.int64 _) => .ok true
  | .str s =>
      let word := toLower u (trimSpace s)
      if trueWords.contains word then .ok true
      else if falseWords.contains word then .ok false
      else .error (.cannotParse "boolean" s)
  | val => .error (.unsupportedType (typeName val) "boolean")

end Texts

section Numbers

variable (p : Platform)

/-- `TransformInteger` -/
def transformInteger : Value → Except CoercionError ℤ
  | .num (.int64 n) => .ok n
  | .num (.int n) => .ok n
  | .num (.float64 x) => .ok (toInt64 p.outOfRange x)
  | .str s =>
      let clean := trimSpace s
      match parseInt? clean with
      | some n => .ok n
      | none =>
          match parseFloat? clean with
          | some x => .ok (toInt64 p.outOfRange x)
          | none => .error (.cannotParse "integer" s)
  | val => .error (.unsupportedType (typeName val) "integer")

/-- `TransformFloat` -/
def transformFloat : Value → Except CoercionError Binary64
  | .num (.float64 x) => .ok x
  | .num (.int64 n) => .ok (Binary64.ofInt n)
  | .num (.int n) => .ok (Binary64.ofInt n)
  | .str s =>
      match parseFloat? (trimSpace s) with
      | some x => .ok x
      | none => .error (.cannotParse "float" s)
  | val => .error (.unsupportedType (typeName val) "float")

end Numbers

/-- `TransformIP` -/
def transformIP : Value → Except CoercionError String
  | .str s =>
      match NetIP.parseIP (trimSpace s) with
      | some ip => .ok ip.toString
      | none => .error (.invalidIP s)
  | val => .error (.ipRequiresString (typeName val))

section Timestamps

open Ulpf.Go.Time

/-- The layouts that are tried in turn. -/
def timestampLayouts : List (List Chunk) :=
  let stamp (separator : String) := dateChunks ++ [.text separator] ++ clockChunks
  [rfc3339Nano,
    rfc3339,
    stamp "T" ++ [.fracSecond0 3, .text "Z"],
    stamp "T" ++ [.text "Z"],
    stamp " " ++ [.fracSecond0 3],
    stamp " ",
    [.month, .text " ", .zeroDay, .text " "] ++ clockChunks,
    [.month, .text "  ", .day, .text " "] ++ clockChunks,
    [.month, .text " ", .zeroDay, .text " "] ++ clockChunks ++ [.text " ", .longYear],
    [.month, .text "  ", .day, .text " "] ++ clockChunks ++ [.text " ", .longYear],
    rfc1123,
    rfc1123Z]

/-- A count of seconds, milliseconds or nanoseconds, told apart by its size. -/
def timestampOfInt (v : ℤ) : String :=
  String.ofList <|
    if 10 ^ 18 < v then (unix 0 v).formatRFC3339 true
    else if 10 ^ 11 < v then (unix (v / 1000) (v % 1000 * 10 ^ 6)).formatRFC3339 false
    else (unix v 0).formatRFC3339 false

def timestampOfFloat (p : Platform) (v : Binary64) : String :=
  let sec := toInt64 p.outOfRange v
  let fraction := v.sub (Binary64.ofInt sec)
  let nsec := toInt64 p.outOfRange (fraction.mul (Binary64.ofInt (10 ^ 9)))
  String.ofList ((unix sec nsec).formatRFC3339 false)

/-- A time without a year belongs to the current one. -/
def withYear (p : Platform) (t : Time) : Time :=
  if t.year p.localZone = 0 then t.addYears p.localZone p.nowYear else t

/-- `TransformTimestamp`: a count by its size, or a text by the first layout that fits. -/
def transformTimestamp (p : Platform) : Value → Except CoercionError String
  | .num (.int64 v) => .ok (timestampOfInt v)
  | .num (.float64 v) => .ok (timestampOfFloat p v)
  | .str s =>
      let clean := trimSpace s
      match parseInt? clean with
      | some v => .ok (timestampOfInt v)
      | none =>
          match timestampLayouts.findSome? fun layout => parse p.localZone layout clean with
          | some t => .ok (String.ofList ((withYear p t).formatRFC3339 false))
          | none => .error (.unparsableTimestamp s)
  | val => .error (.unsupportedType (typeName val) "timestamp")

end Timestamps

end Ulpf.ParserRuntime
