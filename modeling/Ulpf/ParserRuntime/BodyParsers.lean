import Ulpf.Go.Csv
import Ulpf.Go.Platform
import Ulpf.Lib.Regex
import Ulpf.ParserRuntime.Dsl

/-!
The body parsers of the runtime, which turn a payload into the raw fields of a
spec.
-/

namespace Ulpf.ParserRuntime

open Ulpf.Lib
open Ulpf.Lib.Text
open Ulpf.Go

/-- The errors of `Parse`. -/
inductive ParseError where
  | emptyRaw
  | json
  | cefPrefix
  | cefHeader (parts : ℕ)
  | leefPrefix
  | leefHeader (parts : ℕ)
  | csv
  | unsupportedBodyParser (type : String)
  deriving DecidableEq

/-- The fields found in a payload before they are mapped. -/
abbrev RawFields := Dict String Value

section KeyValue

/-- Text of a quoted value, whose escapes stay as they are, and what follows the
closing quote. -/
def scanQuoted (quote : Char) : List Char → List Char × List Char
  | [] => ([], [])
  | '\\' :: c :: rest =>
      let (text, after) := scanQuoted quote rest
      ('\\' :: c :: text, after)
  | c :: rest =>
      if c = quote then ([], rest)
      else
        let (text, after) := scanQuoted quote rest
        (c :: text, after)

/-- The value at the head of a text, with or without quotes, and what follows it. -/
def scanValue (pairSep : List Char) (s : List Char) : List Char × List Char :=
  match s with
  | '"' :: rest => scanQuoted '"' rest
  | '\'' :: rest => scanQuoted '\'' rest
  | _ =>
      let (text, after) := s.span fun c => !pairSep.contains c
      (trim Unicode.isSpace text, after)

/-- The pairs of a text in the order in which they are assigned. -/
def scanPairs (pairSep : List Char) (kvSep : Char) : ℕ → List Char → List (String × Value)
  | 0, _ => []
  | fuel + 1, s =>
      let s := s.dropWhile fun c => pairSep.contains c || c = ' ' || c = '\t'
      match s.span fun c => c ≠ kvSep && !pairSep.contains c with
      | (_, []) => []
      | (key, c :: rest) =>
          if c ≠ kvSep then []
          else
            let key := trim Unicode.isSpace key
            let (val, after) := scanValue pairSep rest
            let pairs := scanPairs pairSep kvSep fuel after
            if key.isEmpty then pairs
            else (String.ofList key, .str (String.ofList val)) :: pairs

/-- `ParseKeyValue`. Of a separator of keys only the first byte counts. -/
def parseKeyValue (input pairSep kvSep : String) : RawFields :=
  let pairSep := if pairSep = "" then " " else pairSep
  let kvSep := if kvSep = "" then "=" else kvSep
  let sepRune := Char.ofNat (leadByte (kvSep.toList.headD '='))
  Dict.ofList (scanPairs pairSep.toList sepRune (input.toList.length + 1) input.toList)

end KeyValue

section SyslogPatterns

open Regex

/-- The class `\s` of Go's expressions. -/
def isRegexSpace (c : Char) : Bool := c = '\t' || c = '\n' || c = '\x0c' || c = '\r' || c = ' '

def blanks : Regex := Regex.some (char isRegexSpace)

def solid : Regex := Regex.some (char fun c => !isRegexSpace c)

def digits : Regex := Regex.some (char isDigit)

def restOfLine : Regex := many (char (· ≠ '\n'))

/-- The pattern of RFC 5424, with a group for each part of the header. -/
def syslog5424Regex : Regex :=
  let word (i : ℕ) := seq (group i solid) blanks
  all [text "<", group 1 digits, text ">", group 2 digits, blanks, word 3, word 4, word 5, word 6,
    word 7, alt (all [text "[", group 8 (star false (char (· ≠ '\n'))), text "]"]) (text "-"),
    many (char isRegexSpace), group 9 restOfLine, stop]

/-- The pattern of RFC 3164, with a group for each part of the header. -/
def syslog3164Regex : Regex :=
  let stamp := all [times letter 3, blanks, digits, blanks, digits, text ":", digits, text ":",
    digits]
  let tag := Regex.some (char fun c => c ≠ ':' && c ≠ '[' && !isRegexSpace c)
  all [text "<", group 1 digits, text ">", group 2 stamp, blanks, group 3 solid, blanks,
    group 4 tag, opt (all [text "[", group 5 digits, text "]"]), text ":",
    many (char isRegexSpace), group 6 restOfLine, stop]

end SyslogPatterns

section SyslogFields

/-- The priority with its facility and its severity. -/
def priorityFields (pri : ℤ) : List (String × Value) :=
  [("prival", .num (.int pri)), ("facility", .num (.int (pri.tdiv 8))),
    ("severity", .num (.int (pri.tmod 8)))]

def groupField (c : Cursor) (key : String) (i : ℕ) : String × Value :=
  (key, .str (String.ofList (c.groupD i)))

def optionalField (c : Cursor) (key : String) (i : ℕ) : List (String × Value) :=
  if (c.groupD i).isEmpty then [] else [groupField c key i]

/-- A message that only begins with a priority, or with nothing known. -/
def parseSyslogFallback (trimmed : List Char) : RawFields × List Char :=
  match trimmed with
  | '<' :: rest =>
      match indexOf ['>'] trimmed with
      | some i =>
          let (pri, ok) := parseInt (rest.take (i - 1))
          if i ≤ 4 ∧ ok then
            (Dict.ofList (priorityFields pri), trim Unicode.isSpace (trimmed.drop (i + 1)))
          else (Dict.empty, trimmed)
      | none => (Dict.empty, trimmed)
  | _ => (Dict.empty, trimmed)

/-- `ParseSyslog`: the fields of the header, and the body. -/
def parseSyslog (raw : String) : RawFields × String :=
  let trimmed := trim Unicode.isSpace raw.toList
  match Regex.matchStart syslog5424Regex trimmed with
  | some c =>
      (Dict.ofList (priorityFields (atoi (c.groupD 1)) ++
        [("syslog_version", .num (.int (atoi (c.groupD 2)))), groupField c "timestamp" 3,
          groupField c "hostname" 4, groupField c "app_name" 5, groupField c "proc_id" 6,
          groupField c "msg_id" 7] ++ optionalField c "structured_data" 8),
        String.ofList (c.groupD 9))
  | none =>
      match Regex.matchStart syslog3164Regex trimmed with
      | some c =>
          (Dict.ofList (priorityFields (atoi (c.groupD 1)) ++
            [groupField c "timestamp" 2, groupField c "hostname" 3, groupField c "app_name" 4] ++
            optionalField c "proc_id" 5),
            String.ofList (c.groupD 6))
      | none =>
          let (fields, body) := parseSyslogFallback trimmed
          (fields, String.ofList body)

end SyslogFields

section Headers

/-- The parts of a CEF message between unescaped pipes: as many header fields as
there is room for, then the rest. -/
def cefParts : ℕ → List Char → List Char → List (List Char)
  | 0, _, s => if s.isEmpty then [] else [s]
  | _ + 1, part, [] => [part.reverse]
  | room + 1, part, '\\' :: '|' :: rest => cefParts (room + 1) ('|' :: part) rest
  | room + 1, part, c :: rest =>
      if c = '|' then part.reverse :: cefParts room [] rest
      else cefParts (room + 1) (c :: part) rest

/-- `ParseCEF` -/
def parseCEF (raw : String) : Except ParseError RawFields :=
  let trimmed := trim Unicode.isSpace raw.toList
  if !"CEF:".toList.isPrefixOf trimmed then .error .cefPrefix
  else
    match (cefParts 7 [] (trimmed.drop 4)).map String.ofList with
    | version :: vendor :: product :: deviceVersion :: classId :: name :: severity :: extension =>
        let header : RawFields := Dict.ofList [("cef_version", .num (.int (atoi version.toList))),
          ("device_vendor", .str vendor), ("device_product", .str product),
          ("device_version", .str deviceVersion), ("device_event_class_id", .str classId),
          ("name", .str name), ("severity", .str severity)]
        match extension with
        | text :: _ =>
            if trimSpace text = "" then .ok header
            else .ok (header.update (parseKeyValue text " " "=").entries)
        | [] => .ok header
    | parts => .error (.cefHeader parts.length)

/-- Delimiter and extension of a LEEF message, from the parts after its fixed
header fields. -/
def leefExtension (version : String) (parts : List String) : String × String :=
  if hasPrefix version "2.0" then
    let delimiter := match parts with
      | d :: _ => if d = "x20" then " " else if d = "x09" ∨ d = "" then "\t" else d
      | [] => "\t"
    (delimiter, "|".intercalate parts.tail)
  else ("\t", "|".intercalate parts)

/-- `ParseLEEF` -/
def parseLEEF (raw : String) : Except ParseError RawFields :=
  let trimmed := trim Unicode.isSpace raw.toList
  if !"LEEF:".toList.isPrefixOf trimmed then .error .leefPrefix
  else
    match (splitOn ['|'] (trimmed.drop 5)).map String.ofList with
    | version :: vendor :: product :: productVersion :: eventId :: parts =>
        let header : RawFields := Dict.ofList [("leef_version", .str version),
          ("vendor", .str vendor), ("product", .str product), ("version", .str productVersion),
          ("event_id", .str eventId)]
        let (delimiter, extension) := leefExtension version parts
        if extension = "" then .ok header
        else .ok (header.update (parseKeyValue extension delimiter "=").entries)
    | parts => .error (.leefHeader parts.length)

end Headers

section JsonBody

/-- A JSON text as a value. Numbers become floats, which they have to fit. -/
def unmarshal (raw : String) : Option Value := do
  let doc ← JsonText.parse ⟨false, some maxNestingDepth⟩ raw.toList
  if doc.numbers.any fun n => n.toBinary64 matches .inf _ then none
  else return (doc.mapNum fun n => GoNum.float64 n.toBinary64).lastWins

mutual

/-- The assignments of `flattenJSON`, in their order. Members come in the order
of the enumeration, each before what it contains. -/
def flattenJSON (e : Enumeration) (path : List String) (pre : String) :
    Value → List (String × Value)
  | .obj members =>
      (arrange ((e (.object path)).run (members.map Prod.fst))
        (flattenMembers e path pre members)).flatMap Prod.snd
  | _ => []

/-- What is assigned for the members of an object, each with what is below it. -/
def flattenMembers (e : Enumeration) (path : List String) (pre : String) :
    List (String × Value) → List (String × List (String × Value))
  | [] => []
  | (k, val) :: rest =>
      let nestedKey := if pre = "" then k else pre ++ "." ++ k
      (k, (nestedKey, val) :: flattenJSON e (path ++ [k]) nestedKey val) ::
        flattenMembers e path pre rest

end

/-- `ParseJSON` -/
def parseJSON (e : Enumeration) (raw : String) : Except ParseError RawFields :=
  match unmarshal raw with
  | some .null => .ok Dict.empty
  | some (.obj members) => .ok (Dict.ofList (flattenJSON e [] "" (.obj members)))
  | _ => .error .json

end JsonBody

/-- Key of a column: its header, or its number. -/
def columnKey (headers : List String) (i : ℕ) : String :=
  match headers[i]? with
  | some header => if header = "" then "col" ++ numeral i else header
  | none => "col" ++ numeral i

/-- `ParseCSV`. A delimiter of more than one byte is not used. -/
def parseCSV (raw delimiter : String) (headers : List String) : Except ParseError RawFields :=
  let comma := match delimiter.toList with
    | [c] => if c.toNat < 0x80 then c else ','
    | _ => ','
  match Csv.read comma (trim Unicode.isSpace raw.toList) with
  | none => .error .csv
  | some record =>
      .ok (Dict.ofList (record.zipIdx.map fun (val, i) => (columnKey headers i, .str val)))

/-- The raw fields of a payload: what `body_parser.type` selects. -/
def parseBody (e : Enumeration) (rawStr : String) (spec : ParserSpec) :
    Except ParseError RawFields :=
  match spec.bodyParser.type with
  | "key_value" =>
      if spec.matchConfig.format = "syslog" ∧ hasPrefix (trimSpace rawStr) "<" then
        let (syslogMeta, body) := parseSyslog rawStr
        .ok (syslogMeta.update
          (parseKeyValue body spec.bodyParser.pairSeparator
            spec.bodyParser.keyValueSeparator).entries)
      else
        .ok (parseKeyValue rawStr spec.bodyParser.pairSeparator spec.bodyParser.keyValueSeparator)
  | "json" => parseJSON e rawStr
  | "cef" => parseCEF rawStr
  | "leef" => parseLEEF rawStr
  | "syslog" =>
      let (syslogMeta, body) := parseSyslog rawStr
      .ok (syslogMeta.set "message" (.str body))
  | "csv" => parseCSV rawStr spec.bodyParser.delimiter spec.bodyParser.headers
  | type => .error (.unsupportedBodyParser type)

end Ulpf.ParserRuntime
