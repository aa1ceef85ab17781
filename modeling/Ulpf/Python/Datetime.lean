import Ulpf.Lib.Calendar
import Ulpf.Lib.Regex
import Ulpf.Python.Value

/-!
Python's `datetime`: parsing a text along a format, the change to UTC and the
way back to a text, for the directives the repository uses.
-/

namespace Ulpf.Python

open Ulpf.Lib
open Ulpf.Lib.Text
open Ulpf.Lib.Calendar

/-- What a Python program cannot tell from its text. -/
structure Interpreter where
  unicode : Unicode
  /-- Whether `%Y` writes a year below 1000 with leading zeros. -/
  padsYear : Bool

/-- A wall clock time and the offset from UTC, in microseconds, if there is one. -/
structure Datetime where
  sec : ℤ
  offset : Option ℤ
  deriving DecidableEq

namespace Datetime

/-- `locale_time.a_month` of the C locale. -/
def aMonth : List String :=
  ["jan", "feb", "mar", "apr", "may", "jun", "jul", "aug", "sep", "oct", "nov", "dec"]

section Patterns

open Regex

variable (u : Unicode)

/-- `\d` -/
def digit : Regex := char fun c => (u.decimal c).isSome

/-- A literal text under `IGNORECASE`. -/
def caseless (s : String) : Regex :=
  all (s.toList.map fun x => char fun y => asciiLower y = asciiLower x)

/-- `[+-]\d\d:?[0-5]\d(:?[0-5]\d(\.\d{1,6})?)?|(?-i:Z)` -/
def offsetPattern : Regex :=
  let colon := opt (text ":")
  let sixty := seq (range '0' '5') (digit u)
  alt (all [oneOf "+-", digit u, digit u, colon, sixty,
      opt (all [colon, sixty, opt (seq (text ".") (between (digit u) 1 5))])])
    (text "Z")

/-- What a directive stands for; its letter numbers the group. -/
def directive (letter : Char) : Regex :=
  group letter.toNat <| match letter with
    | 'Y' => times (digit u) 4
    | 'm' => anyOf [seq (text "1") (range '0' '2'), seq (text "0") (range '1' '9'), range '1' '9']
    | 'b' => anyOf (aMonth.map caseless)
    | 'd' => anyOf [seq (text "3") (range '0' '1'), seq (range '1' '2') (digit u),
        seq (text "0") (range '1' '9'), range '1' '9', seq (text " ") (range '1' '9')]
    | 'H' => anyOf [seq (text "2") (range '0' '3'), seq (range '0' '1') (digit u), digit u]
    | 'M' => alt (seq (range '0' '5') (digit u)) (digit u)
    | 'S' => anyOf [seq (text "6") (range '0' '1'), seq (range '0' '5') (digit u), digit u]
    | _ => offsetPattern u

/-- `TimeRE.pattern` of a format in which blanks stand alone. -/
def pattern : List Char → Regex
  | '%' :: letter :: rest => seq (directive u letter) (pattern rest)
  | ' ' :: rest => seq (some (char isSpace)) (pattern rest)
  | c :: rest => seq (caseless (String.ofList [c])) (pattern rest)
  | [] => eps

end Patterns

/-- `int` of the text a directive has matched. -/
def intOf (u : Unicode) (s : List Char) : Option ℤ := parseInt u (String.ofList s)

/-- The offset that `%z` has matched, in microseconds. -/
def readOffset (u : Unicode) (z : List Char) : Option ℤ :=
  if z = ['Z'] then some 0
  else do
    let z ← if z[3]? = some ':' then
        let z := z.take 3 ++ z.drop 4
        if 5 < z.length then
          if z[5]? = some ':' then some (z.take 5 ++ z.drop 6) else none
        else some z
      else some z
    let hours ← intOf u ((z.drop 1).take 2)
    let minutes ← intOf u ((z.drop 3).take 2)
    let seconds ← if (z.drop 5).isEmpty then some 0 else intOf u ((z.drop 5).take 2)
    let remainder := z.drop 8
    let fraction ← intOf u (remainder ++ List.replicate (6 - remainder.length) '0')
    let offset := (hours * 3600 + minutes * 60 + seconds) * 10 ^ 6 + fraction
    return if z.head? = some '-' then -offset else offset

/-- `datetime(year, month, day, hour, minute, second, tzinfo)`; `none` is a
`ValueError`. -/
def make (year : ℤ) (month day hour min sec : ℕ) (offset : Option ℤ) : Option Datetime :=
  let dayLength : ℤ := secondsPerDay * 10 ^ 6
  if year < 1 ∨ daysIn month year < day ∨ 59 < sec ∨
      offset.any fun micros => dayLength ≤ micros ∨ micros ≤ -dayLength then none
  else some ⟨seconds year month day hour min sec, offset⟩

/-- `datetime.strptime(s, format)`; `none` is a `ValueError`. -/
def strptime (u : Unicode) (s format : String) : Option Datetime := do
  let found ← Regex.matchStart (pattern u format.toList) s.toList
  if !found.rest.isEmpty then none
  let number (letter : Char) (default : ℤ) : Option ℤ :=
    match found.group? letter.toNat with
    | some digits => intOf u digits
    | none => some default
  -- a date without a year is one of 1900
  let year ← number 'Y' 1900
  let month ← match found.group? 'b'.toNat with
    | some name =>
        (aMonth.findIdx? fun m => m.toList = name.map asciiLower).map fun i => (i + 1 : ℤ)
    | none => number 'm' 1
  let day ← number 'd' 1
  let hour ← number 'H' 0
  let min ← number 'M' 0
  let sec ← number 'S' 0
  let offset ← match found.group? 'z'.toNat with
    | some z => (readOffset u z).map some
    | none => some none
  make year month.toNat day.toNat hour.toNat min.toNat sec.toNat offset

/-- `dt.astimezone(timezone.utc)`, where a time without an offset is one of UTC;
a time before year 1 or after year 9999 is an `OverflowError`. -/
def toUTC (dt : Datetime) : Except PyError ℤ :=
  let sec := (dt.sec * 10 ^ 6 - dt.offset.getD 0) / 10 ^ 6
  if sec < seconds 1 1 1 0 0 0 ∨ seconds 9999 12 31 23 59 59 < sec then .error .overflowError
  else .ok sec

def padded (width n : ℕ) : List Char :=
  let ds := Nat.toDigits 10 n
  List.replicate (width - ds.length) '0' ++ ds

/-- `strftime("%Y-%m-%dT%H:%M:%SZ")` of a time of UTC. -/
def strftime (padsYear : Bool) (sec : ℤ) : String :=
  let (year, month, day) := civilFromDays (sec / secondsPerDay)
  let second := (sec % secondsPerDay).toNat
  String.ofList <| padded (if padsYear then 4 else 0) year.toNat ++ '-' :: padded 2 month ++
    '-' :: padded 2 day ++ 'T' :: padded 2 (second / 3600) ++
    ':' :: padded 2 (second / 60 % 60) ++ ':' :: padded 2 (second % 60) ++ ['Z']

end Datetime

end Ulpf.Python
