import Ulpf.Go.Text
import Ulpf.Lib.Calendar

/-!
Go's `time` package: parsing a text along a layout and RFC 3339 texts. A layout
is written as the chunks `nextStdChunk` cuts it into.
-/

namespace Ulpf.Go

/-- Where an instant is read: in a zone of one offset, or in the local one. -/
inductive Time.Location where
  | utc
  | fixed (offset : ℤ)
  | zone
  deriving DecidableEq

/-- An instant and the location it is read in. -/
structure Time where
  sec : ℤ
  nsec : ℕ
  location : Time.Location
  deriving DecidableEq

namespace Time

open Ulpf.Lib
open Ulpf.Lib.Text
open Ulpf.Lib.Calendar

/-- A stretch of time in which a zone has one name and one offset. -/
structure ZoneSpan where
  name : String
  offset : ℤ
  start : ℤ
  stop : ℤ

/-- The local time zone: the stretch an instant lies in, and the offset that a
zone name has around an instant. -/
structure LocalZone where
  lookup : ℤ → ZoneSpan
  lookupName : String → ℤ → Option ℤ

/-- A machine whose zone is UTC. -/
def LocalZone.utc : LocalZone := ⟨fun _ => ⟨"UTC", 0, -2 ^ 63, 2 ^ 63 - 1⟩, fun _ _ => none⟩

def offsetAt (l : LocalZone) (location : Location) (sec : ℤ) : ℤ :=
  match location with
  | .utc => 0
  | .fixed offset => offset
  | .zone => (l.lookup sec).offset

/-- Seconds from the year the package counts days from to the epoch. -/
def absoluteToUnix : ℤ := 9223372028715321600

/-- Days since the epoch and second of the day, of seconds kept in 64 bits. -/
def clock (sec : ℤ) : ℤ × ℤ :=
  let abs := (sec + absoluteToUnix) % 2 ^ 64
  (abs / secondsPerDay - absoluteToUnix / secondsPerDay, abs % secondsPerDay)

/-- `t.Year()` -/
def year (l : LocalZone) (t : Time) : ℤ :=
  (civilFromDays (clock (t.sec + offsetAt l t.location t.sec)).1).1

/-- The instant at which a location shows a date and a time of day. -/
def inLocation (l : LocalZone) (location : Location) (unix : ℤ) : ℤ :=
  match location with
  | .utc => unix
  | .fixed offset => unix - offset
  | .zone =>
      let span := l.lookup unix
      if span.offset = 0 then unix
      else
        let utc := unix - span.offset
        -- close to a change of offset the stretch of the shifted instant counts
        if utc < span.start ∨ span.stop ≤ utc then unix - (l.lookup utc).offset else utc

/-- `t.AddDate(years, 0, 0)` -/
def addYears (l : LocalZone) (t : Time) (years : ℤ) : Time :=
  let (days, second) := clock (t.sec + offsetAt l t.location t.sec)
  let (year, month, day) := civilFromDays days
  { t with
    sec := inLocation l t.location
      (daysFromCivil (year + years) month day * secondsPerDay + second) }

/-- A number with leading zeros up to a width. -/
def appendInt (x : ℤ) (width : ℕ) : List Char :=
  let ds := Nat.toDigits 10 x.natAbs
  (if x < 0 then ['-'] else []) ++ (List.replicate (width - ds.length) '0' ++ ds)

/-- Fraction of a second without trailing zeros. -/
def appendNano (nsec : ℕ) : List Char :=
  let ds := ((appendInt nsec 9).reverse.dropWhile (· = '0')).reverse
  if ds.isEmpty then [] else '.' :: ds

/-- `t.UTC().Format` with the layout RFC3339, or RFC3339Nano when `nanos`. -/
def formatRFC3339 (nanos : Bool) (t : Time) : List Char :=
  let (days, second) := clock t.sec
  let (year, month, day) := civilFromDays days
  appendInt year 4 ++ '-' :: appendInt month 2 ++ '-' :: appendInt day 2 ++
    'T' :: appendInt (second / 3600) 2 ++ ':' :: appendInt (second / 60 % 60) 2 ++
    ':' :: appendInt (second % 60) 2 ++ (if nanos then appendNano t.nsec else []) ++ ['Z']

/-- The pieces of a layout of `time.Parse`. -/
inductive Chunk where
  | text (s : String)
  | longYear
  | month
  | zeroMonth
  | weekDay
  | day
  | zeroDay
  | hour
  | zeroMinute
  | zeroSecond
  /-- A fraction with exactly that many digits. -/
  | fracSecond0 (digits : ℕ)
  /-- A fraction that may be left out. -/
  | fracSecond9
  /-- `Z` or an offset with a colon. -/
  | iso8601ColonTZ
  | numTZ
  | tz
  deriving DecidableEq

/-- A piece that stands for itself. -/
def Chunk.isText : Chunk → Bool
  | .text _ => true
  | _ => false

/-- What has been read of a time. -/
structure Parsed where
  year : ℤ
  month : Option ℕ
  day : Option ℕ
  hour : ℕ
  min : ℕ
  sec : ℕ
  nsec : ℕ
  utc : Bool
  zoneOffset : Option ℤ
  zoneName : List Char

/-- What has been read before the first piece. -/
def Parsed.empty : Parsed := ⟨0, none, none, 0, 0, 0, 0, false, none, []⟩

def cutSpace (s : List Char) : List Char := s.dropWhile (· = ' ')

/-- `skip`: the rest of the text after a literal part of the layout, in which
blanks stand for any number of them. The first argument says whether the
character before was a blank of the layout. -/
def skip : Bool → List Char → List Char → Option (List Char)
  | _, value, [] => some value
  | inBlank, value, p :: rest =>
      if p = ' ' then
        if inBlank then skip true value rest
        else if value.head?.any (· ≠ ' ') then none
        else skip true (cutSpace value) rest
      else match value with
        | [] => none
        | c :: after => if c = p then skip false after rest else none

/-- `getnum`: one or two digits, two when `fixed`. -/
def getnum (s : List Char) (fixed : Bool) : Option (ℕ × List Char) :=
  match s with
  | a :: b :: rest => do
      let x ← digit? a
      match digit? b with
      | some y => return (10 * x + y, rest)
      | none => if fixed then none else return (x, b :: rest)
  | [a] => do
      let x ← digit? a
      if fixed then none else return (x, [])
  | [] => none

/-- Position of the first name of a table the text begins with, in any case. -/
def lookupName (table : List String) (s : List Char) : Option (ℕ × List Char) :=
  (table.findIdx? fun name =>
      (name.toList.map asciiLower).isPrefixOf (s.map asciiLower)).map fun i => (i, s.drop 3)

def shortMonthNames : List String :=
  ["Jan", "Feb", "Mar", "Apr", "May", "Jun", "Jul", "Aug", "Sep", "Oct", "Nov", "Dec"]

def shortDayNames : List String := ["Sun", "Mon", "Tue", "Wed", "Thu", "Fri", "Sat"]

/-- What a fraction of a second begins with. -/
def commaOrPeriod (c : Char) : Bool := c = '.' || c = ','

/-- `atoi` of the package: digits with an optional sign, possibly none. -/
def atoi (s : List Char) : Option ℤ :=
  match s with
  | '-' :: ds => (decimal? ds).map fun n => -n
  | '+' :: ds => (decimal? ds).map fun n => n
  | ds => (decimal? ds).map fun n => n

/-- `parseNanoseconds`: a separator and at most nine digits that count. -/
def parseNanoseconds (s : List Char) : Option ℕ :=
  match s with
  | [] => none
  | c :: ds => do
      if !commaOrPeriod c then none
      let digits := ds.take 9
      let n ← atoi digits
      if n < 0 then none else return n.toNat * 10 ^ (9 - digits.length)

/-- A fraction of a second, and what follows it. -/
def spanFraction (s : List Char) : List Char × List Char :=
  match s with
  | c :: rest => (c :: rest.takeWhile isDigit, rest.dropWhile isDigit)
  | [] => ([], [])

/-- A text goes on with a fraction of a second. -/
def startsFraction : List Char → Bool
  | c :: d :: _ => commaOrPeriod c && isDigit d
  | _ => false

/-- `parseSignedOffset`: number of characters of a signed hour, 0 if there is none. -/
def parseSignedOffset (s : List Char) : ℕ :=
  match s with
  | c :: rest =>
      if c = '-' ∨ c = '+' then
        let ds := rest.takeWhile isDigit
        if ds.isEmpty ∨ 23 < (decimal? ds).getD 0 then 0 else 1 + ds.length
      else 0
  | [] => 0

def isUpper (c : Char) : Bool := 'A' ≤ c && c ≤ 'Z'

/-- `parseTimeZone`: number of characters of a zone abbreviation. -/
def parseTimeZone (s : List Char) : Option ℕ :=
  if s.length < 3 then none
  else if "ChST".toList.isPrefixOf s ∨ "MeST".toList.isPrefixOf s then some 4
  else if "GMT".toList.isPrefixOf s then some (3 + parseSignedOffset (s.drop 3))
  else if s.head? = some '+' ∨ s.head? = some '-' then
    let n := parseSignedOffset s
    if 0 < n then some n else none
  else
    match ((s.take 6).takeWhile isUpper).length with
    | 5 => if s[4]? = some 'T' then some 5 else none
    | 4 => if s[3]? = some 'T' ∨ "WITA".toList.isPrefixOf s then some 4 else none
    | 3 => some 3
    | _ => none

/-- Sign, hours and minutes of a numeric zone, with or without a colon. -/
def parseNumZone (colon : Bool) (s : List Char) : Option (ℤ × List Char) :=
  match s with
  | sign :: rest => do
      let (hours, rest) ← getnum rest true
      let rest ← if colon then
          match rest with
          | ':' :: after => some after
          | _ => none
        else some rest
      let (minutes, rest) ← getnum rest true
      if 24 < hours ∨ 60 < minutes then none
      let offset : ℤ := (hours * 60 + minutes) * 60
      match sign with
      | '+' => return (offset, rest)
      | '-' => return (-offset, rest)
      | _ => none
  | [] => none

/-- One chunk of the layout; `next` is the first one after it that is no text. -/
def parseChunk (next : Option Chunk) (t : Parsed) (value : List Char) :
    Chunk → Option (Parsed × List Char)
  | .text s => (skip false value s.toList).map fun rest => (t, rest)
  | .longYear =>
      if value.length < 4 then none
      else (decimal? (value.take 4)).map fun n => ({ t with year := n }, value.drop 4)
  | .month =>
      (lookupName shortMonthNames value).map fun (i, rest) =>
        ({ t with month := some (i + 1) }, rest)
  | .zeroMonth => do
      let (n, rest) ← getnum value true
      if n = 0 ∨ 12 < n then none else return ({ t with month := some n }, rest)
  | .weekDay => (lookupName shortDayNames value).map fun (_, rest) => (t, rest)
  | .day => (getnum value false).map fun (n, rest) => ({ t with day := some n }, rest)
  | .zeroDay => (getnum value true).map fun (n, rest) => ({ t with day := some n }, rest)
  | .hour => do
      let (n, rest) ← getnum value false
      if 24 ≤ n then none else return ({ t with hour := n }, rest)
  | .zeroMinute => do
      let (n, rest) ← getnum value true
      if 60 ≤ n then none else return ({ t with min := n }, rest)
  | .zeroSecond => do
      let (n, rest) ← getnum value true
      if 60 ≤ n then none
      let t := { t with sec := n }
      let expected := match next with
        | some (.fracSecond0 _) | some .fracSecond9 => true
        | _ => false
      -- a fraction is read even where the layout has none
      if startsFraction rest && !expected then
        let (fraction, after) := spanFraction rest
        return ({ t with nsec := (← parseNanoseconds fraction) }, after)
      else return (t, rest)
  | .fracSecond0 digits =>
      if value.length < 1 + digits then none
      else (parseNanoseconds (value.take (1 + digits))).map fun n =>
        ({ t with nsec := n }, value.drop (1 + digits))
  | .fracSecond9 =>
      if startsFraction value then
        let (fraction, after) := spanFraction value
        (parseNanoseconds fraction).map fun n => ({ t with nsec := n }, after)
      else some (t, value)
  | .iso8601ColonTZ =>
      match value with
      | 'Z' :: rest => some ({ t with utc := true }, rest)
      | _ => (parseNumZone true value).map fun (offset, rest) =>
          ({ t with zoneOffset := some offset }, rest)
  | .numTZ =>
      (parseNumZone false value).map fun (offset, rest) =>
        ({ t with zoneOffset := some offset }, rest)
  | .tz =>
      if "UTC".toList.isPrefixOf value then some ({ t with utc := true }, value.drop 3)
      else (parseTimeZone value).map fun n =>
        ({ t with zoneName := value.take n }, value.drop n)

/-- The chunks of a layout one after the other, up to the end of the text. -/
def parseChunks : List Chunk → Parsed → List Char → Option Parsed
  | [], t, value => if value.isEmpty then some t else none
  | chunk :: rest, t, value => do
      let (t, value) ← parseChunk (rest.find? fun c => !c.isText) t value chunk
      parseChunks rest t value

/-- The instant a text with a zone abbreviation stands for. An abbreviation that
the local zone does not know leaves the time of day as it is. -/
def ofAbbreviation (l : LocalZone) (unix : ℤ) (nsec : ℕ) (name : List Char) : Time :=
  match l.lookupName (String.ofList name) unix with
  | some offset => ⟨unix - offset, nsec, .zone⟩
  | none =>
      let offset := if 3 < name.length ∧ "GMT".toList.isPrefixOf name then
          (atoi (name.drop 3)).getD 0 * 3600
        else 0
      ⟨unix, nsec, .fixed offset⟩

/-- What has been read as an instant; the day has to exist in the month. -/
def Parsed.toTime (l : LocalZone) (t : Parsed) : Option Time :=
  let month := t.month.getD 1
  let day := t.day.getD 1
  if day < 1 ∨ daysIn month t.year < day then none
  else
    let unix := seconds t.year month day t.hour t.min t.sec
    if t.utc then some ⟨unix, t.nsec, .utc⟩
    else match t.zoneOffset with
      | some offset =>
          let sec := unix - offset
          some ⟨sec, t.nsec, if (l.lookup sec).offset = offset then .zone else .fixed offset⟩
      | none =>
          if t.zoneName.isEmpty then some ⟨unix, t.nsec, .utc⟩
          else some (ofAbbreviation l unix t.nsec t.zoneName)

/-- `time.Parse(layout, value)` -/
def parse (l : LocalZone) (layout : List Chunk) (value : String) : Option Time := do
  let t ← parseChunks layout Parsed.empty value.toList
  t.toTime l

section Layouts

def dateChunks : List Chunk := [.longYear, .text "-", .zeroMonth, .text "-", .zeroDay]

def clockChunks : List Chunk := [.hour, .text ":", .zeroMinute, .text ":", .zeroSecond]

/-- `time.RFC3339Nano`. -/
def rfc3339Nano : List Chunk :=
  dateChunks ++ [.text "T"] ++ clockChunks ++ [.fracSecond9, .iso8601ColonTZ]

/-- `time.RFC3339`. -/
def rfc3339 : List Chunk := dateChunks ++ [.text "T"] ++ clockChunks ++ [.iso8601ColonTZ]

def rfc1123Date : List Chunk :=
  [.weekDay, .text ", ", .zeroDay, .text " ", .month, .text " ", .longYear, .text " "]

/-- `time.RFC1123`. -/
def rfc1123 : List Chunk := rfc1123Date ++ clockChunks ++ [.text " ", .tz]

/-- `time.RFC1123Z`. -/
def rfc1123Z : List Chunk := rfc1123Date ++ clockChunks ++ [.text " ", .numTZ]

end Layouts

/-- `time.Unix(sec, nsec)` in UTC. -/
def unix (sec nsec : ℤ) : Time := ⟨sec + nsec / 10 ^ 9, (nsec % 10 ^ 9).toNat, .utc⟩

end Time

end Ulpf.Go
