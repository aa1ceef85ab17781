import Ulpf.SourceProfiler.Parsers

/-!
`UnknownSourceProfiler`: the format of a single line and its fields under a
format hint.
-/

namespace Ulpf.SourceProfiler

open Ulpf.Lib
open Ulpf.Python

inductive LogFormat where
  | json
  | cef
  | leef
  | syslogRfc5424
  | syslogRfc3164
  | keyValue
  | csv
  | text
  | unknown
  deriving DecidableEq

/-- `LogFormat.value` -/
def LogFormat.value : LogFormat → String
  | .json => "JSON"
  | .cef => "CEF"
  | .leef => "LEEF"
  | .syslogRfc5424 => "SYSLOG_RFC5424"
  | .syslogRfc3164 => "SYSLOG_RFC3164"
  | .keyValue => "KEY_VALUE"
  | .csv => "CSV"
  | .text => "TEXT"
  | .unknown => "UNKNOWN"

/-- `detect_format`, without its confidence and metadata, which `parse_record` drops. -/
def detectFormat (u : Unicode) (rawLog : String) : LogFormat :=
  let s := strip rawLog
  if s = "" then .unknown
  else if CEFParser.isCef s then .cef
  else if LEEFParser.isLeef s then .leef
  else if Syslog5424Parser.isSyslog5424 u s then .syslogRfc5424
  else if Syslog3164Parser.isSyslog3164 u s then .syslogRfc3164
  else if JSONParser.isJson s then .json
  else if KeyValueParser.isKv s 2 then .keyValue
  else .text

/-- A line as a parser of its format reads it. -/
def parseAs (u : Unicode) (fmt : LogFormat) (delimiter : Option String)
    (headers : Option (List String)) (s : String) : Except PyError (Option Record) :=
  match fmt with
  | .json => .ok (JSONParser.parse s)
  | .cef => .ok (CEFParser.parse u s)
  | .leef => LEEFParser.parse u s
  | .syslogRfc5424 => Syslog5424Parser.parse u s
  | .syslogRfc3164 => .ok (Syslog3164Parser.parse u s)
  | .keyValue =>
      let res := KeyValueParser.parse s
      .ok (if res.entries.isEmpty then none else some res)
  | .csv =>
      match delimiter with
      | some sep => .ok (if sep = "" then none else CSVParser.parseLine s sep headers)
      | none => .ok none
  | .text | .unknown => .ok none

/-- Whether a failed parse under this hint is final; for CSV only once the
parser could run, which takes a delimiter. -/
def hintIsFinal (hint : Option LogFormat) (delimiter : Option String) : Bool :=
  match hint with
  | none | some .unknown | some .text => false
  | some .csv => delimiter.getD "" ≠ ""
  | some _ => true

/-- `parse_record`. -/
def parseRecord (u : Unicode) (rawLog : String) (formatHint : Option LogFormat)
    (delimiter : Option String) (headers : Option (List String)) :
    Except PyError (Option Record × LogFormat) := do
  let s := strip rawLog
  if s = "" then return (none, .unknown)
  else
    let targetFmt :=
      match formatHint with
      | none | some .unknown => detectFormat u s
      | some fmt => fmt
    match ← parseAs u targetFmt delimiter headers s with
    | some res => return (some res, targetFmt)
    | none =>
        if hintIsFinal formatHint delimiter then return (none, targetFmt)
        else return (some (Dict.ofList [("message", .str s)]), .text)

theorem parseRecord_blank (u : Unicode) {rawLog : String} (h : strip rawLog = "")
    (formatHint : Option LogFormat) (delimiter : Option String)
    (headers : Option (List String)) :
    parseRecord u rawLog formatHint delimiter headers = .ok (none, .unknown) := by
  simp only [parseRecord, h]
  rfl

end Ulpf.SourceProfiler
