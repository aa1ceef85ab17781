import Ulpf.Python.IpAddress
import Ulpf.SourceProfiler.SourceProfile

/-!
`TypeInferencer`: the type that a value or its text suggests.
-/

namespace Ulpf.SourceProfiler

open Ulpf.Lib
open Ulpf.Lib.Regex
open Ulpf.Python

section Patterns

variable (u : Unicode)

/-- A letter under `IGNORECASE`, where four letters beyond ASCII count as one of it. -/
def foldedLetter (c : Char) : Char :=
  match c.toNat with
  | 0x130 | 0x131 => 'i'
  | 0x17F => 's'
  | 0x212A => 'k'
  | _ => Text.asciiLower c

/-- A text in lower case under `IGNORECASE`. -/
def ignoreCase (s : String) : Regex :=
  all (s.toList.map fun x => char fun c => foldedLetter c = x)

def sign : Regex := opt (oneOf "+-")

def hex : Regex := char IpAddress.isHex

/-- `RE_INT` -/
def reInt : Regex :=
  all [start, sign, alt (text "0") (seq (range '1' '9') (many (digit u))), stopLine]

/-- `RE_FLOAT` -/
def reFloat : Regex :=
  let digits : Regex := some (digit u)
  let fraction := seq (text ".") digits
  let exponent := all [digits, opt fraction, oneOf "eE", sign, digits]
  all [start, sign, alt (seq digits fraction) exponent, stopLine]

/-- `RE_BOOLEAN` -/
def reBoolean : Regex :=
  all [start, anyOf (["true", "false", "yes", "no", "on", "off"].map ignoreCase), stopLine]

/-- `RE_NULL` -/
def reNull : Regex :=
  all [start, anyOf (["null", "none", "nil", "n/a", "na", "-"].map ignoreCase), stopLine]

/-- `RE_MAC` -/
def reMac : Regex :=
  all [start, times (seq (times hex 2) (oneOf ":-")) 5, times hex 2, stopLine]

/-- `RE_UUID` -/
def reUuid : Regex :=
  all [start, times hex 8, text "-", times hex 4, text "-", range '1' '5', times hex 3, text "-",
    oneOf "89abAB", times hex 3, text "-", times hex 12, stopLine]

/-- `RE_EMAIL` -/
def reEmail : Regex :=
  let run (s : String) : Regex := some (char fun c => isAlnum c || s.toList.contains c)
  all [start, run "_.+-", text "@", run "-", text ".", run "-.", stopLine]

/-- `RE_URL` -/
def reUrl : Regex :=
  let scheme := anyOf [seq (ignoreCase "http") (opt (ignoreCase "s")), ignoreCase "ftp",
    ignoreCase "sftp", ignoreCase "ws", ignoreCase "wss"]
  all [start, scheme, text "://", char fun c => !isSpace c && !"/$.?#".toList.contains c,
    notLineFeed, many nonSpace, stopLine]

def clockTime : Regex :=
  let two := times (digit u) 2
  all [two, text ":", two, text ":", two]

/-- `RE_ISO8601` -/
def reIso8601 : Regex :=
  let two := times (digit u) 2
  all [start, times (digit u) 4, text "-", two, text "-", two, oneOf "T ", clockTime u,
    opt (seq (text ".") (some (digit u))),
    opt (alt (text "Z") (all [oneOf "+-", two, opt (text ":"), two])), stopLine]

/-- `RE_SYSLOG_DATE` -/
def reSyslogDate : Regex :=
  all [start, range 'A' 'Z', times (range 'a' 'z') 2, some space, between (digit u) 1 1, some space,
    clockTime u, opt (seq (text ".") (some (digit u))), stopLine]

/-- `RE_HTTP_DATE` -/
def reHttpDate : Regex :=
  all [start, times (digit u) 2, text "/", times letter 3, text "/", times (digit u) 4, text ":",
    clockTime u, some space, oneOf "+-", times (digit u) 4, stopLine]

/-- `RE_UNIX_TIMESTAMP` -/
def reUnixTimestamp : Regex :=
  let digits := range '0' '9'
  all [start, text "1", times digits 9, opt (seq (text ".") (some digits)), stopLine]

/-- `RE_UNIX_TIMESTAMP_MS` -/
def reUnixTimestampMs : Regex := all [start, oneOf "12", times (range '0' '9') 12, stopLine]

/-- `RE_MASK_IPV4` under `fullmatch`. The word boundaries at its ends always hold there: it
begins and ends with a digit. -/
def reMaskIpv4 : Regex :=
  let octet := anyOf [all [text "25", range '0' '5'], all [text "2", range '0' '4', digit u],
    all [text "1", digit u, digit u], seq (opt (range '1' '9')) (digit u)]
  seq octet (times (seq (text ".") octet) 3)

end Patterns

namespace TypeInferencer

variable (u : Unicode)

/-- A time of the years 2000 to 2100, in seconds or milliseconds. -/
def isUnixTime (num : Binary64) : Bool :=
  match num.toRat? with
  | Option.some q => (946684800 ≤ q && q ≤ 4102444800) || (946684800000 ≤ q && q ≤ 4102444800000)
  | none => false

/-- The type of a nested JSON text. -/
def nestedType (s : String) : DataType :=
  let bracketed (left right : Char) :=
    s.toList.head? = Option.some left && s.toList.getLast? = Option.some right
  if bracketed '\x7b' '\x7d' || bracketed '[' ']' then
    match loads s with
    | Option.some (.obj _) => .json
    | Option.some (.arr _) => .array
    | _ => .string
  else .string

/-- The type of a stripped text. -/
def textType (s : String) : DataType :=
  let cs := s.toList
  let fits (r : Regex) := (matchStart r cs).isSome
  if s = "" then .null
  else if fits reNull then .null
  else if fits reBoolean then .boolean
  else if fits (reInt u) then .integer
  else if fits (reFloat u) then .float
  else if fits reMac then .macAddress
  else if cs.contains '.' && fullMatch (reMaskIpv4 u) cs && IpAddress.isIPv4 cs then .ipv4
  else if cs.contains ':' && IpAddress.isIPv6 cs then .ipv6
  else if fits reUuid then .uuid
  else if fits reEmail then .email
  else if fits reUrl then .url
  else if fits (reIso8601 u) || fits (reSyslogDate u) || fits (reHttpDate u) then .timestamp
  else if (fits reUnixTimestamp || fits reUnixTimestampMs) && (parseFloat u s).any isUnixTime then
    .timestamp
  else nestedType s

/-- `infer_type` -/
def inferType : PyVal → DataType
  | .null => .null
  | .bool _ => .boolean
  | .num (.int _) => .integer
  | .num (.float _) => .float
  | .obj _ => .json
  | .arr _ => .array
  | .str s => textType u (strip s)

theorem inferType_blank {s : String} (h : strip s = "") : inferType u (.str s) = .null := by
  rw [inferType, h]
  rfl

example : textType Unicode.ascii "10.0.0.1" = .ipv4 ∧ textType Unicode.ascii "N/A" = .null ∧
    textType Unicode.ascii "2024-01-01T00:00:00Z" = .timestamp := by
  decide +kernel

end TypeInferencer

end Ulpf.SourceProfiler
