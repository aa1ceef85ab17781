import Mathlib.Data.List.MinMax
import Ulpf.SourceProfiler.TypeInferencer

/-!
`UnknownSourceProfiler.profile`: the format of a batch of lines, the tallies of their fields and
the profile that is made of them. How a message is masked for its template is a parameter.
-/

namespace Ulpf.SourceProfiler

open Ulpf.Lib
open Ulpf.Lib.Binary64 (fl roundTo)
open Ulpf.Python

section Counters

variable {κ : Type} [DecidableEq κ]

/-- `counter[k] += 1` -/
def increment (counter : Dict κ ℕ) (k : κ) : Dict κ ℕ := counter.set k ((counter.get? k).getD 0 + 1)

/-- `Counter(xs)` -/
def counterOf (xs : List κ) : Dict κ ℕ := xs.foldl increment Dict.empty

/-- The first of the entries with the greatest count. -/
def mostCommon (entries : List (κ × ℕ)) : Option (κ × ℕ) := entries.argmax Prod.snd

end Counters

namespace CSVParser

/-- `DELIMITERS` -/
def delimiters : List Char := [',', '\t', '|', ';']

/-- Numbers of cells of the first lines that have more than one. -/
def cellCounts (delim : Char) (lines : List String) : List ℕ :=
  (lines.take 50).filterMap fun line =>
    let s := strip line
    if s = "" ∨ Text.hasPrefix s "CEF:" ∨ Text.hasPrefix s "LEEF:" ∨ Text.hasPrefix s "<" then none
    else
      match Csv.readRow delim s.toList with
      | some row => if 1 < row.length then some row.length else none
      | none => none

/-- All lines have the same number of cells, or nearly all. -/
def isRegular (counts : List ℕ) : Bool :=
  2 ≤ counts.length &&
    (counts.dedup.length = 1 && 2 ≤ counts.headD 0 ||
      (mostCommon (counterOf counts).entries).any fun (cells, freq) =>
        fl (85 / 100) ≤ fl (freq / counts.length) && 2 ≤ cells)

/-- The first delimiter that cuts the lines alike. -/
def detectDelimiter (lines : List String) : Option Char :=
  delimiters.find? fun delim => isRegular (cellCounts delim lines)

end CSVParser

/-- `profile` before its loop: the format of the batch and what goes with it. -/
structure BatchFormat where
  format : LogFormat
  confidence : ℚ
  delimiter : Option String
  metadata : Metadata

section Batches

variable (u : Unicode)

/-- A line has a format with a structure of its own. -/
def isStructured (line : String) : Bool :=
  CEFParser.isCef line || LEEFParser.isLeef line || Syslog5424Parser.isSyslog5424 u line ||
    JSONParser.isJson line

def toDistribution (counter : Dict LogFormat ℕ) : Dict String ℚ :=
  Dict.ofList (counter.entries.map fun (fmt, count) => (fmt.value, (count : ℚ)))

/-- The format that most lines have. -/
def voteFormat (lines : List String) : BatchFormat :=
  let votes := counterOf (lines.map (detectFormat u))
  let (fmt, count) := (mostCommon votes.entries).getD (.unknown, 0)
  ⟨fmt, fl (count / lines.length), none, ⟨none, some (toDistribution votes)⟩⟩

/-- The format of a batch: CSV, or the one that most lines have. -/
def detectBatchFormat (lines : List String) : BatchFormat :=
  let clean := (lines.map strip).filter fun line => line ≠ ""
  if clean.isEmpty then ⟨.unknown, 0, none, ⟨none, none⟩⟩
  else
    match CSVParser.detectDelimiter clean with
    | some delim =>
        if fl ((clean.countP (isStructured u) : ℕ) / clean.length) < fl (2 / 10) then
          ⟨.csv, fl (95 / 100), some (String.singleton delim), ⟨some (String.singleton delim),
            some (Dict.ofList [(LogFormat.csv.value, (clean.length : ℚ))])⟩⟩
        else voteFormat u clean
    | none => voteFormat u clean

/-- The names in the first row, when it holds only texts and the second one does not. -/
def csvHeaders (batch : BatchFormat) (lines : List String) : Option (List String) :=
  match batch.format, batch.delimiter.map String.toList, lines with
  | .csv, some [delim], first :: second :: _ =>
      match Csv.readRow delim first.toList, Csv.readRow delim second.toList with
      | some firstRow, some secondRow =>
          let types (row : List String) := row.map fun col => TypeInferencer.inferType u (.str col)
          if firstRow.length = secondRow.length ∧ (types firstRow).all (· = .string) ∧
              (types secondRow).any (· ≠ .string) then
            some (firstRow.map strip)
          else none
      | _, _ => none
  | _, _, _ => none

end Batches

/-- What the loop has gathered about the values of one field. -/
structure FieldTally where
  types : Dict String ℕ
  nullCount : ℕ
  distinctValues : List String
  sampleValues : List PyVal
  lengths : List ℕ
  minValue : Option PyVal
  maxValue : Option PyVal

namespace FieldTally

variable (u : Unicode)

def empty : FieldTally := ⟨Dict.empty, 0, [], [], [], none, none⟩

/-- `float(val)`; an integer too large is an `OverflowError`. -/
def toFloat : PyVal → Except PyError Binary64
  | .num (.int n) =>
      match Binary64.ofInt n with
      | .finite neg mag => .ok (.finite neg mag)
      | _ => .error .overflowError
  | .num (.float x) => .ok x
  | .str s =>
      match parseFloat u s with
      | some x => .ok x
      | none => .error .valueError
  | _ => .error .typeError

/-- `x < y` -/
def floatLess : Binary64 → Binary64 → Bool
  | .nan, _ | _, .nan => false
  | .inf neg, y => neg && y ≠ .inf true
  | .finite _ _, .inf neg => !neg
  | .finite neg mag, .finite neg' mag' =>
      (if neg then -mag else mag) < (if neg' then -mag' else mag')

/-- The comparison of a number with the kept one, which may be a text. -/
def replacesNumber (less : Binary64 → Binary64 → Bool) (num : Binary64) :
    Option PyVal → Except PyError Bool
  | none => .ok true
  | some (.num (.float old)) => .ok (less num old)
  | some _ => .error .typeError

/-- A text takes the place of what is kept when it is less, or nothing is kept. -/
def replacesText (less : String → String → Bool) (s : String) : Option PyVal → Bool
  | none => true
  | some old => less s (str u old)

/-- The kept least and greatest value after one more value. -/
def widen (inferred : DataType) (val : PyVal) (sVal : String) (t : FieldTally) :
    Except PyError FieldTally :=
  if inferred = .integer ∨ inferred = .float then
    match toFloat u val with
    | .error .valueError => .ok t
    | .error err => .error err
    | .ok num => do
        let lower ← replacesNumber floatLess num t.minValue
        let higher ← replacesNumber (fun x y => floatLess y x) num t.maxValue
        return { t with
          minValue := if lower then some (.float num) else t.minValue
          maxValue := if higher then some (.float num) else t.maxValue }
  else if inferred = .string then
    .ok { t with
      minValue := if replacesText u (· < ·) sVal t.minValue then some (.str sVal) else t.minValue
      maxValue := if replacesText u (· > ·) sVal t.maxValue then some (.str sVal) else t.maxValue }
  else .ok t

/-- A value counts as missing. -/
def isNull (val : PyVal) : Bool :=
  TypeInferencer.inferType u val = .null || val = .null || val = .str ""

/-- One value more. -/
def add (t : FieldTally) (val : PyVal) : Except PyError FieldTally :=
  let inferred := TypeInferencer.inferType u val
  let t := { t with types := increment t.types inferred.value }
  if isNull u val then .ok { t with nullCount := t.nullCount + 1 }
  else
    let sVal := str u val
    widen u inferred val sVal { t with
      distinctValues := if t.distinctValues.length < 500 ∧ sVal ∉ t.distinctValues then
        t.distinctValues ++ [sVal] else t.distinctValues
      sampleValues := if t.sampleValues.length < 5 ∧ !t.sampleValues.contains (.str sVal) then
        t.sampleValues ++ [val] else t.sampleValues
      lengths := t.lengths ++ [sVal.length] }

end FieldTally

/-- What the loop has gathered about the messages of one template. -/
structure TemplateTally where
  count : ℕ
  sample : String

/-- The variables of the loop over the lines. -/
structure ProfileState where
  validRecords : ℕ
  corruptedRecords : ℕ
  parsedRecords : List Record
  fields : Dict String FieldTally
  templates : Dict String TemplateTally
  formatDistribution : Dict String ℕ

namespace ProfileState

def init : ProfileState := ⟨0, 0, [], Dict.empty, Dict.empty, Dict.empty⟩

end ProfileState

section Loop

variable (u : Unicode)

/-- The record of a line under the format of the batch, or else under its own one; a line that is
only text then is corrupted. -/
def readLine (batch : BatchFormat) (headers : Option (List String)) (line : String) :
    Except PyError (Option (Record × LogFormat)) := do
  let (parsed, fmt) ← parseRecord u line (some batch.format) batch.delimiter headers
  match parsed with
  | some record =>
      if record.entries.isEmpty then fallback
      else return some (record, fmt)
  | none => fallback
where
  fallback : Except PyError (Option (Record × LogFormat)) := do
    let (parsed, fmt) ← parseRecord u line none none none
    return parsed.bind fun record => if fmt = .text then none else some (record, fmt)

/-- A value is gathered under the name of its field. -/
def addField (fields : Dict String FieldTally) (entry : String × PyVal) :
    Except PyError (Dict String FieldTally) := do
  let t ← ((fields.get? entry.1).getD FieldTally.empty).add u entry.2
  return fields.set entry.1 t

/-- The message that a record's template is made of. -/
def messageText (record : Record) (line : String) : PyVal :=
  let field (k : String) := (record.get? k).getD .null
  ((field "message").orElse (field "name")).orElse (.str line)

/-- A message is counted under its template. -/
def addTemplate (mask : String → String) (templates : Dict String TemplateTally) (message : PyVal) :
    Dict String TemplateTally :=
  match message with
  | .str text =>
      if text = "" then templates
      else
        let pattern := mask text
        match templates.get? pattern with
        | some t => templates.set pattern { t with count := t.count + 1 }
        | none => templates.set pattern ⟨1, text⟩
  | _ => templates

/-- One round of the loop over the lines. -/
def profileLine (mask : String → String) (batch : BatchFormat) (headers : Option (List String))
    (s : ProfileState) (line : String) : Except PyError ProfileState := do
  match ← readLine u batch headers line with
  | none => return { s with corruptedRecords := s.corruptedRecords + 1 }
  | some (record, fmt) =>
      let fields ← record.entries.foldlM (addField u) s.fields
      return { s with
        validRecords := s.validRecords + 1
        parsedRecords := if s.parsedRecords.length < 10 then s.parsedRecords ++ [record]
          else s.parsedRecords
        fields := fields
        templates := addTemplate mask s.templates (messageText record line)
        formatDistribution := increment s.formatDistribution fmt.value }

end Loop

section Profiles

/-- The profile of a field from its tally. -/
def fieldProfile (validRecords : ℕ) (name : String) (t : FieldTally) : FieldProfile :=
  let nonNull := t.types.entries.filter fun entry => entry.1 ≠ DataType.null.value
  let domType := ((mostCommon nonNull).map Prod.fst).getD DataType.null.value
  let missing := validRecords - (t.types.entries.map Prod.snd).sum
  let totalNull := t.nullCount + missing
  let distinct := t.distinctValues.length
  let nonNullCount := validRecords - totalNull
  let isEnum := 2 ≤ nonNullCount ∧
    (distinct : ℤ) ≤ min 25 (max 2 ⌊fl (nonNullCount / 2)⌋) ∧
    domType ∈ [DataType.string.value, DataType.integer.value, DataType.boolean.value]
  { name := name
    inferredType := domType
    typeDistribution := t.types
    nullable := 0 < totalNull
    nullCount := totalNull
    totalCount := validRecords
    distinctCount := distinct
    sampleValues := t.sampleValues
    minValue := t.minValue
    maxValue := t.maxValue
    avgLength := if t.lengths.isEmpty then none
      else some (roundTo 2 (fl (t.lengths.sum / t.lengths.length)))
    isIpCandidate := domType = DataType.ipv4.value || domType = DataType.ipv6.value
    isTimestampCandidate := domType = DataType.timestamp.value
    isEnumCandidate := isEnum
    enumValues := if isEnum then some ((t.distinctValues.mergeSort (· ≤ ·)).take 25) else none
    presenceRatio := roundTo 4 (fl (nonNullCount / (max 1 validRecords : ℕ))) }

/-- The profiles of the fields in the order of their names. -/
def fieldProfiles (validRecords : ℕ) (fields : Dict String FieldTally) :
    Dict String FieldProfile :=
  Dict.ofList ((fields.entries.mergeSort fun a b => a.1 ≤ b.1).map fun (name, t) =>
    (name, fieldProfile validRecords name t))

/-- `generate_template_id` -/
def generateTemplateId (pattern : String) : String :=
  let h := pattern.toList.foldl (fun h c => (h * 31 + c.toNat) % 2 ^ 32) 0
  String.ofList ("tpl_".toList ++ hexPadded 8 h)

/-- `<[A-Z]+>` -/
def placeholder : Regex :=
  Regex.all [Regex.text "<", Regex.some (Regex.range 'A' 'Z'), Regex.text ">"]

/-- The profiles of the fifty most frequent templates. -/
def templateProfiles (validRecords : ℕ) (templates : Dict String TemplateTally) :
    List TemplateProfile :=
  ((templates.entries.mergeSort fun a b => b.2.count ≤ a.2.count).take 50).map fun (pattern, t) =>
    { templateId := generateTemplateId pattern
      templatePattern := pattern
      count := t.count
      sampleMessage := t.sample
      variableCount := (Regex.findAll placeholder pattern.toList).length
      frequencyRatio := roundTo 4 (fl (t.count / (max 1 validRecords : ℕ))) }

/-- The distribution that the batch was voted with, overwritten with the formats of the records. -/
def mergeDistribution (metadata : Metadata) (counted : Dict String ℕ) : Metadata :=
  let counts := counted.entries.map fun (fmt, count) => (fmt, (count : ℚ))
  { metadata with
    formatDistribution := some ((metadata.formatDistribution.getD Dict.empty).update counts) }

end Profiles

/-- The profile that a run of the loop over a batch leaves. -/
def profileOfRun (lines : List String) (batch : BatchFormat) (s : ProfileState) :
    SourceProfile where
  format := batch.format
  confidence := batch.confidence
  totalRecords := lines.length
  validRecords := s.validRecords
  corruptedRecords := s.corruptedRecords
  fields := fieldProfiles s.validRecords s.fields
  templates := templateProfiles s.validRecords s.templates
  delimiter := batch.delimiter
  metadata := mergeDistribution batch.metadata s.formatDistribution
  sampleEvents := s.parsedRecords

def emptyProfile : SourceProfile :=
  ⟨.unknown, 0, 0, 0, 0, Dict.empty, [], none, ⟨none, none⟩, []⟩

section Profile

variable (u : Unicode) (mask : String → String) (sampleLimit : ℕ) (logs : List String)

/-- The lines that are not blank, without the blanks around them. -/
def linesOf : List String := (logs.map strip).filter fun line => line ≠ ""

def batchOf : BatchFormat := detectBatchFormat u ((linesOf logs).take sampleLimit)

def headersOf : Option (List String) := csvHeaders u (batchOf u sampleLimit logs) (linesOf logs)

/-- The lines that the loop runs over: all but a header. -/
def rowsOf : List String :=
  if (headersOf u sampleLimit logs).isSome then (linesOf logs).drop 1 else linesOf logs

/-- `profile` of a list of lines. -/
def profile : Except PyError SourceProfile := do
  if (linesOf logs).isEmpty then return emptyProfile
  else
    let batch := batchOf u sampleLimit logs
    let s ← (rowsOf u sampleLimit logs).foldlM
      (profileLine u mask batch (headersOf u sampleLimit logs)) ProfileState.init
    return profileOfRun (linesOf logs) batch s

end Profile

end Ulpf.SourceProfiler
