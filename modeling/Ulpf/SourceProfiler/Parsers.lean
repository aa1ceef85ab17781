import Ulpf.Lib.Regex
import Ulpf.Python.Csv

/-!
The format parsers of the unknown-source profiler: CEF, LEEF, both syslog
forms, JSON, key-value text and CSV.
-/

namespace Ulpf.SourceProfiler

open Ulpf.Lib
open Ulpf.Lib.Regex
open Ulpf.Lib.Text
open Ulpf.Python

abbrev Record := Dict String PyVal

/-- `\s` of a text pattern. -/
def space : Regex := char isSpace

/-- `\S` of a text pattern. -/
def nonSpace : Regex := char fun c => !isSpace c

/-- `\d` of a text pattern. -/
def digit (u : Unicode) : Regex := char fun c => (u.decimal c).isSome

/-- `.` in a pattern that lets it match line feeds. -/
def anyChar : Regex := char fun _ => true

/-- `.` in a pattern that does not. -/
def notLineFeed : Regex := char fun c => c ≠ '\n'

/-- `[^s\\]*(?:\\.[^s\\]*)*`: text without the characters of `s`, where a
backslash takes the next character along. -/
def escapedRun (dot : Regex) (s : String) : Regex :=
  let plain := many (noneOf ("\\" ++ s))
  seq plain (many (all [text "\\", dot, plain]))

def headerField (index : ℕ) : Regex := seq (group index (escapedRun anyChar "|")) (text "|")

/-- `CEF_HEADER_REGEX` -/
def cefHeaderRegex (u : Unicode) : Regex :=
  all [start, text "CEF:", many space, group 1 (some (digit u)), many space, text "|",
    headerField 2, headerField 3, headerField 4, headerField 5, headerField 6, headerField 7,
    group 8 (many anyChar), stopLine]

/-- `LEEF_HEADER_REGEX` -/
def leefHeaderRegex : Regex :=
  all [start, text "LEEF:", many space, group 1 (some (oneOf "0123456789.")), many space,
    text "|", headerField 2, headerField 3, headerField 4, group 5 (escapedRun anyChar "|"),
    opt (seq (text "|") (group 6 (many anyChar))), stopLine]

/-- `SYSLOG_5424_HDR` -/
def syslog5424Hdr (u : Unicode) : Regex :=
  all [start, text "<", group 1 (between (digit u) 1 2), text ">1", some space,
    group 2 (some nonSpace), some space, group 3 (some nonSpace), some space,
    group 4 (some nonSpace), some space, group 5 (some nonSpace), some space,
    group 6 (some nonSpace), opt (seq (some space) (group 7 (many anyChar))), stopLine]

/-- `SYSLOG_3164_REGEX` -/
def syslog3164Regex (u : Unicode) : Regex :=
  let two := times (digit u) 2
  all [start, text "<", group 1 (between (digit u) 1 2), text ">",
    group 2 (all [range 'A' 'Z', times (range 'a' 'z') 2, some space, between (digit u) 1 1,
      some space, two, text ":", two, text ":", two]), some space,
    group 3 (some nonSpace), some space,
    group 4 (some (char fun c => c ≠ ':' && c ≠ '[' && !isSpace c)),
    opt (all [text "[", group 5 (some (digit u)), text "]"]), text ":", many space,
    group 6 (many anyChar), stopLine]

def isAlnum (c : Char) : Bool :=
  ('a' ≤ c && c ≤ 'z') || ('A' ≤ c && c ≤ 'Z') || ('0' ≤ c && c ≤ '9')

/-- `KV_PAIR_REGEX`; group 1 is `key`, group 2 is `val`. -/
def kvPairRegex : Regex :=
  all [group 1 (some (char fun c => isAlnum c || "_.-/".toList.contains c)),
    many space, text "=", many space,
    group 2 (alt (all [text "\"", escapedRun notLineFeed "\"", text "\""])
      (alt (all [text "'", escapedRun notLineFeed "'", text "'"])
        (some (char fun c => !isSpace c && c ≠ ',' && c ≠ ';'))))]

def extensionKey : Regex := some (char fun c => isAlnum c || "_.-".toList.contains c)

/-- The pattern of `parse_cef_extension`: a pair up to the next key or the end. -/
def cefExtensionRegex : Regex :=
  let item := alt (text "\\=") (alt (text "\\|") (alt (text "\\\\") (noneOf "=")))
  all [group 1 extensionKey, text "=", group 2 (seq item (star false item)),
    ahead (alt (all [some space, extensionKey, text "="]) stopLine)]

/-- A parameter of a structured data element. -/
def sdParamRegex : Regex :=
  all [group 1 (seq nonSpace (star false nonSpace)), text "=\"",
    group 2 (escapedRun notLineFeed "\""), text "\""]

/-- Replacements one after the other. -/
def replaceEach (s : List Char) (pairs : List (String × String)) : List Char :=
  pairs.foldl (fun acc p => replace p.1.toList p.2.toList acc) s

/-- A text without the quotes around it. -/
def unquote (v : List Char) : List Char :=
  if (v.head? = Option.some '"' ∧ v.getLast? = Option.some '"') ∨
      (v.head? = Option.some '\'' ∧ v.getLast? = Option.some '\'') then v.tail.dropLast
  else v

def stripChars (s : List Char) : List Char := trim isSpace s

def strVal (s : List Char) : PyVal := .str (String.ofList s)

namespace CEFParser

def isCef (line : String) : Bool :=
  let s := strip line
  hasPrefix s "CEF:" && 7 ≤ s.toList.count '|'

/-- A field of a header, with its escapes undone. -/
def unescapeHeader (s : List Char) : PyVal := strVal (replaceEach s [("\\|", "|"), ("\\\\", "\\")])

/-- The pairs of an extension, each with its escapes undone. -/
def parseCefExtension (ext : List Char) : Record :=
  (findAll cefExtensionRegex ext).foldl (fun result m =>
    let k := stripChars (m.groupD 1)
    let v := replaceEach (stripChars (m.groupD 2))
      [("\\=", "="), ("\\|", "|"), ("\\\\", "\\"), ("\\n", "\n"), ("\\r", "\r")]
    result.set (String.ofList k) (strVal (unquote v))) Dict.empty

def parse (u : Unicode) (line : String) : Option Record :=
  (matchStart (cefHeaderRegex u) (strip line).toList).map fun m =>
    let result : Record := Dict.ofList
      [("cef_version", strVal (m.groupD 1)),
        ("device_vendor", unescapeHeader (m.groupD 2)),
        ("device_product", unescapeHeader (m.groupD 3)),
        ("device_version", unescapeHeader (m.groupD 4)),
        ("device_event_class_id", unescapeHeader (m.groupD 5)),
        ("name", unescapeHeader (m.groupD 6)),
        ("severity", unescapeHeader (m.groupD 7))]
    let ext := m.groupD 8
    if ext.isEmpty then result else result.update (parseCefExtension ext).entries

end CEFParser

namespace LEEFParser

def isLeef (line : String) : Bool :=
  let s := strip line
  hasPrefix s "LEEF:" && 4 ≤ s.toList.count '|'

def hexValue (u : Unicode) (c : Char) : Option ℕ :=
  match u.decimal c with
  | Option.some d => Option.some d
  | none => JsonText.hex? c

/-- Digits of `int(s, 16)`, with single underscores between two digits. -/
def hexDigits (u : Unicode) : Bool → List Char → Option (List ℕ)
  | afterDigit, [] => if afterDigit then Option.some [] else none
  | afterDigit, c :: rest =>
      if c = '_' then if afterDigit ∧ rest ≠ [] then hexDigits u false rest else none
      else do
        let d ← hexValue u c
        let ds ← hexDigits u true rest
        return d :: ds

/-- A base prefix, which one underscore may follow. -/
def dropHexPrefix (u : Unicode) (s : List Char) : List Char :=
  match s with
  | z :: x :: rest =>
      if u.decimal z = Option.some 0 ∧ (x = 'x' ∨ x = 'X') then
        match rest with
        | '_' :: digits => digits
        | digits => digits
      else s
  | s => s

/-- `int(s, 16)` -/
def parseHex (u : Unicode) (s : List Char) : Option ℤ := do
  let (neg, body) := spanSign (stripChars s)
  let ds ← hexDigits u false (dropHexPrefix u body)
  let n : ℤ := (ds.foldl (fun acc d => 16 * acc + d) 0 : ℕ)
  return if neg then -n else n

/-- A delimiter; `none` is a lone surrogate, which no text contains. -/
abbrev Delimiter := Option (List Char)

/-- `_resolve_leef_delimiter`. A code no C integer holds makes `chr` overflow,
one outside the code space makes it refuse the value. -/
def resolveLeefDelimiter (u : Unicode) (raw : List Char) : Except PyError Delimiter :=
  let verbatim : Delimiter :=
    if raw = "\\t".toList ∨ raw = ['\t'] then Option.some ['\t']
    else Option.some (if raw.isEmpty then ['\t'] else raw)
  if "x".toList.isPrefixOf raw || "0x".toList.isPrefixOf raw then
    match parseHex u (replaceEach raw [("0x", ""), ("x", "")]) with
    | none => .ok verbatim
    | Option.some code =>
        if code < -2147483648 ∨ 2147483647 < code then .error .overflowError
        else if code < 0 ∨ 0x10FFFF < code then .ok verbatim
        else if 0xD800 ≤ code ∧ code < 0xE000 then .ok none
        else .ok (Option.some [Char.ofNat code.toNat])
  else .ok verbatim

/-- The attributes between delimiters, each cut at its first sign. -/
def parseLeefAttributes (ext : List Char) (delimiter : Delimiter) : Record :=
  let tokens := match delimiter with
    | none => [ext]
    | Option.some sep => splitOn sep ext
  tokens.foldl (fun result token =>
    let token := stripChars token
    match token.span (· ≠ '=') with
    | (k, _ :: v) =>
        let v := replaceEach (stripChars v) [("\\=", "="), ("\\\\", "\\")]
        result.set (String.ofList (stripChars k)) (strVal (unquote v))
    | (_, []) => result) Dict.empty

def parse (u : Unicode) (line : String) : Except PyError (Option Record) :=
  match matchStart leefHeaderRegex (strip line).toList with
  | none => .ok none
  | Option.some m => do
      let result : Record := Dict.ofList
        [("leef_version", strVal (m.groupD 1)),
          ("vendor", CEFParser.unescapeHeader (m.groupD 2)),
          ("product", CEFParser.unescapeHeader (m.groupD 3)),
          ("version", CEFParser.unescapeHeader (m.groupD 4)),
          ("event_id", CEFParser.unescapeHeader (m.groupD 5))]
      let remainder := m.groupD 6
      if remainder.isEmpty then return Option.some result
      else
        let (delimiter, extension) ←
          -- in LEEF 2 the remainder can be the delimiter and the attributes
          match (m.groupD 1).head? == Option.some '2', remainder.span (· ≠ '|') with
          | true, (raw, _ :: attributes) => do
              let d ← resolveLeefDelimiter u raw
              pure (d, attributes)
          | _, _ => pure (Option.some ['\t'], remainder)
        if extension.isEmpty then return Option.some result
        else return Option.some (result.update (parseLeefAttributes extension delimiter).entries)

end LEEFParser

namespace Syslog5424Parser

def isSyslog5424 (u : Unicode) (line : String) : Bool :=
  (matchStart (syslog5424Hdr u) (strip line).toList).isSome

/-- The leading structured data blocks, without their brackets, and the rest. -/
def takeBlocks : ℕ → List Char → List (List Char) × List Char
  | 0, rest => ([], rest)
  | fuel + 1, rest =>
      match rest with
      | '[' :: after =>
          match after.span (· ≠ ']') with
          | (inner, _ :: tail) =>
              let (blocks, msg) := takeBlocks fuel (tail.dropWhile (· = ' '))
              (inner :: blocks, msg)
          | (_, []) => ([], rest)
      | _ => ([], rest)

/-- `parts = inner.split(None, 1)`; an empty block has no part. -/
def blockParts (inner : List Char) : Option (List Char × Option (List Char)) :=
  match (stripChars inner).span fun c => !isSpace c with
  | ([], _) => none
  | (sdId, []) => Option.some (sdId, none)
  | (sdId, tail) => Option.some (sdId, Option.some (tail.dropWhile isSpace))

/-- Record one structured data block. -/
def addBlock (record : Record) (inner : List Char) : Except PyError Record :=
  match blockParts inner with
  | none => .error .indexError
  | Option.some (sdId, params) =>
      let key := "sd_" ++ String.ofList sdId
      let record := record.set key (strVal (params.getD []))
      .ok <| (findAll sdParamRegex (params.getD [])).foldl (fun record m =>
        record.set (key ++ "_" ++ String.ofList (m.groupD 1))
          (strVal (replaceEach (m.groupD 2) [("\\\"", "\""), ("\\\\", "\\"), ("\\]", "]")])))
        record

/-- A header field; a dash stands for no value. -/
def nilValue (s : List Char) : PyVal := if s = ['-'] then .null else strVal s

def parse (u : Unicode) (line : String) : Except PyError (Option Record) :=
  match matchStart (syslog5424Hdr u) (strip line).toList with
  | none => .ok none
  | Option.some m =>
      let prival := (parseInt u (String.ofList (m.groupD 1))).getD 0
      let record : Record := Dict.ofList
        [("prival", PyVal.int prival), ("facility", PyVal.int (prival / 8)),
          ("severity", PyVal.int (prival % 8)), ("version", PyVal.int 1),
          ("timestamp", nilValue (m.groupD 2)), ("hostname", nilValue (m.groupD 3)),
          ("app_name", nilValue (m.groupD 4)), ("proc_id", nilValue (m.groupD 5)),
          ("msg_id", nilValue (m.groupD 6)), ("message", .str "")]
      let rest := stripChars (m.groupD 7)
      if (m.groupD 7).isEmpty ∨ rest = ['-'] then .ok (Option.some record)
      else if "- ".toList.isPrefixOf rest then
        .ok (Option.some (record.set "message" (strVal (stripChars (rest.drop 2)))))
      else
        let (blocks, msg) := takeBlocks rest.length rest
        let record := record.set "message" (strVal (stripChars msg))
        (blocks.foldlM addBlock record).map Option.some

end Syslog5424Parser

namespace Syslog3164Parser

def isSyslog3164 (u : Unicode) (line : String) : Bool :=
  (matchStart (syslog3164Regex u) (strip line).toList).isSome

def parse (u : Unicode) (line : String) : Option Record :=
  (matchStart (syslog3164Regex u) (strip line).toList).map fun m =>
    let prival := (parseInt u (String.ofList (m.groupD 1))).getD 0
    let pid := m.groupD 5
    Dict.ofList
      [("prival", PyVal.int prival), ("facility", PyVal.int (prival / 8)),
        ("severity", PyVal.int (prival % 8)), ("timestamp", strVal (m.groupD 2)),
        ("hostname", strVal (m.groupD 3)), ("tag", strVal (m.groupD 4)),
        ("proc_id", if pid.isEmpty then .null else strVal pid),
        ("message", strVal (stripChars (m.groupD 6)))]

end Syslog3164Parser

namespace JSONParser

def isJson (line : String) : Bool :=
  let s := strip line
  hasPrefix s "\x7b" && hasSuffix s "\x7d" && ((loads s).map Json.isObj == Option.some true)

def nestedKey (parent k : String) : String := if parent = "" then k else parent ++ "." ++ k

mutual

/-- `flatten_dict`: a non-empty nested object is replaced by its members. -/
def flattenDict (parent : String) : List (String × PyVal) → Record
  | ms => Dict.ofList (flattenItems parent ms)

def flattenItems (parent : String) : List (String × PyVal) → List (String × PyVal)
  | [] => []
  | (k, v) :: ms => flattenValue (nestedKey parent k) v ++ flattenItems parent ms

def flattenValue (key : String) : PyVal → List (String × PyVal)
  | .obj (m :: ms) => (Dict.ofList (flattenItems key (m :: ms))).entries
  | v => [(key, v)]

end

/-- The flattened fields of a JSON object. -/
def parse (line : String) : Option Record :=
  match loads (strip line) with
  | Option.some (.obj members) => Option.some (flattenDict "" members)
  | _ => none

end JSONParser

namespace KeyValueParser

/-- The pairs of a text, with the quotes and escapes of their values undone. -/
def parseExtension (s : List Char) : Record :=
  (findAll kvPairRegex s).foldl (fun result m =>
    let v := replaceEach (unquote (m.groupD 2))
      [("\\\"", "\""), ("\\'", "'"), ("\\\\", "\\"), ("\\=", "=")]
    result.set (String.ofList (m.groupD 1)) (strVal v)) Dict.empty

def parse (line : String) : Record := parseExtension (stripChars line.toList)

/-- `is_kv`: enough pairs, and the mark of no other format. -/
def isKv (line : String) (minPairs : ℕ) : Bool :=
  let s := strip line
  if hasPrefix s "CEF:" || hasPrefix s "LEEF:" || hasPrefix s "<" then false
  else if hasPrefix s "\x7b" && hasSuffix s "\x7d" then false
  else
    let pairs := findAll kvPairRegex s.toList
    if pairs.length < minPairs then false
    else
      let matchedLen : ℕ := (pairs.map fun m => (m.groupD 1).length + (m.groupD 2).length + 1).sum
      decide (Binary64.fl ((s.toList.length : ℚ) * Binary64.fl (35 / 100)) ≤ (matchedLen : ℚ)) ||
        decide (3 ≤ pairs.length)

end KeyValueParser

namespace CSVParser

/-- `parse_line`; the module refuses a delimiter that is not one character. -/
def parseLine (line delimiter : String) (headers : Option (List String)) : Option Record :=
  match delimiter.toList with
  | [sep] =>
      match Csv.readRow sep (stripChars line.toList) with
      | none | Option.some [] => none
      | Option.some row =>
          let names := match headers with
            | Option.some hs => if hs ≠ [] ∧ hs.length = row.length then Option.some hs else none
            | none => none
          let keys := names.getD
            ((List.range row.length).map fun i => "column_" ++ numeral (i + 1))
          Option.some (Dict.ofList (keys.zip (row.map fun v => .str (strip v))))
  | _ => none

end CSVParser

end Ulpf.SourceProfiler
