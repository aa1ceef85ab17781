import Ulpf.Go.Stamp
import Ulpf.Lib.Escaping
import Ulpf.Python.Datetime
import Ulpf.Python.Numerals

/-!
`datetime.fromisoformat`, and which of the texts that Go reads as times of
RFC 3339 it reads.
-/

namespace Ulpf.Python.IsoFormat

open Ulpf.Lib
open Ulpf.Lib.Text
open Ulpf.Lib.Calendar
open Ulpf.Python.Datetime (make)

/-- `parse_digits`: the number that so many digits at the head of a text make. -/
def parseDigits (count : ℕ) (s : List Char) : Option (ℕ × List Char) :=
  if s.length < count then none
  else (decimal? (s.take count)).map fun n => (n, s.drop count)

/-- `_find_isoformat_datetime_separator`: the position after the date. -/
def separatorLocation (s : List Char) : Option ℕ :=
  if s.length = 7 then some 7
  else if s[4]? = some '-' then
    if s[5]? = some 'W' then
      if s.length < 8 then none
      else if 8 < s.length ∧ s[8]? = some '-' then
        if s.length = 9 then none
        else if s[10]?.any isDigit then some 8
        else some 10
      else some 8
    else some 10
  else if s[4]? = some 'W' then
    let pos := 7 + ((s.drop 7).takeWhile isDigit).length
    if pos < 9 then some pos else if pos % 2 = 0 then some 7 else some 8
  else some 8

/-- Day of the week of the first of January, Monday being 0. -/
def firstWeekday (year : ℤ) : ℤ := (daysFromCivil year 1 1 + 3) % 7

/-- `iso_to_ymd`: the date of a day of a week. -/
def isoToYmd (year week day : ℕ) : Option (ℤ × ℕ × ℕ) :=
  let long := firstWeekday year = 3 ∨ (firstWeekday year = 2 ∧ isLeap year = true)
  if year < 1 ∨ week < 1 ∨ 53 < week ∨ (week = 53 ∧ ¬ long) ∨ day < 1 ∨ 7 < day then none
  else
    let monday := daysFromCivil year 1 1 - firstWeekday year +
      (if 3 < firstWeekday year then 7 else 0)
    some (civilFromDays (monday + (week - 1) * 7 + (day - 1)))

/-- A hyphen where the date has them. -/
def afterHyphen (hyphens : Bool) (s : List Char) : Option (List Char) :=
  if hyphens then if s.head? = some '-' then some s.tail else none else some s

/-- `parse_isoformat_date` of the first `len` characters. -/
def parseDate (s : List Char) (len : ℕ) : Option (ℤ × ℕ × ℕ) := do
  let (year, rest) ← parseDigits 4 s
  let hyphens := rest.head? = some '-'
  let rest := if hyphens then rest.tail else rest
  if rest.head? = some 'W' then do
    let (week, rest) ← parseDigits 2 rest.tail
    if s.length - rest.length < len then do
      let (day, _) ← parseDigits 1 (← afterHyphen hyphens rest)
      isoToYmd year week day
    else isoToYmd year week 1
  else do
    let (month, rest) ← parseDigits 2 rest
    let (day, _) ← parseDigits 2 (← afterHyphen hyphens rest)
    return (year, month, day)

/-- A fraction of the `left` characters before the end of the time, in
microseconds, and whether anything comes after it. -/
def parseFraction (left : ℕ) (s : List Char) : Option (ℕ × Bool) := do
  let count := min left 6
  let (n, rest) ← parseDigits count s
  return (n * 10 ^ (6 - count), !(rest.dropWhile isDigit).isEmpty)

/-- `parse_hh_mm_ss_ff`: as many fields as the first argument says, at most, then
a fraction. The flag says whether colons stand between the fields; the result
says whether anything comes after them. -/
def parseFields : ℕ → Bool → ℕ → List Char → Option (List ℕ × ℕ × Bool)
  | 0, _, left, s => (parseFraction left s).map fun (fraction, more) => ([], fraction, more)
  | fields + 1, colons, left, s => do
      let (n, rest) ← parseDigits 2 s
      let left := left - 2
      -- the first field decides about the colons
      let colons := if fields = 2 then rest.head? = some ':' else colons
      if left ≤ 1 then return ([n], 0, !rest.isEmpty)
      else if colons && rest.head? = some ':' then
        if fields = 0 then none
        else do
          let (ns, fraction, more) ← parseFields fields colons (left - 1) rest.tail
          return (n :: ns, fraction, more)
      else if rest.head? = some '.' ∨ rest.head? = some ',' then
        if fields = 0 then do
          let (fraction, more) ← parseFraction (left - 1) rest.tail
          return ([n], fraction, more)
        else none
      else if colons then none
      else do
        let (ns, fraction, more) ← parseFields fields colons left rest
        return (n :: ns, fraction, more)

/-- Fields that are left out are zero. -/
def field (fields : List ℕ) (i : ℕ) : ℕ := fields[i]?.getD 0

def startsZone (c : Char) : Bool := c = '+' || c = '-' || c = 'Z'

/-- `parse_isoformat_time`: hours, minutes, seconds, and the offset from UTC in
microseconds. -/
def parseTime (s : List Char) : Option (List ℕ × Option ℤ) := do
  let clock := s.takeWhile fun c => !startsZone c
  let (fields, _, more) ← parseFields 3 true clock.length s
  match s.drop clock.length with
  | [] => if more then none else return (fields, none)
  | 'Z' :: rest => if rest.isEmpty then return (fields, some 0) else none
  | sign :: rest => do
      let (zone, fraction, more) ← parseFields 3 true rest.length rest
      let micros : ℤ :=
        (field zone 0 * 3600 + field zone 1 * 60 + field zone 2) * 10 ^ 6 + fraction
      if more then none else return (fields, some (if sign = '-' then -micros else micros))

/-- `datetime.fromisoformat(s)`; `none` is a `ValueError`. A fraction of the
second does not matter to what follows and is left out. -/
def fromisoformat (s : String) : Option Datetime := do
  let s := s.toList
  if s.length < 7 then none
  else do
    let location ← separatorLocation s
    let (year, month, day) ← parseDate s location
    -- a text may end with an ASCII separator
    let (fields, offset) ← match s.drop location with
      | [] => some ([], none)
      | separator :: rest =>
          if rest.isEmpty ∧ separator.toNat < 128 then some ([], none) else parseTime rest
    if month < 1 ∨ 12 < month ∨ day < 1 ∨ 9999 < year ∨ 23 < field fields 0 ∨
        59 < field fields 1 then none
    else make year month day (field fields 0) (field fields 1) (field fields 2) offset

example : (fromisoformat "2024-02-29T23:59:59.5+05:30").isSome := by decide +kernel

example : (fromisoformat "2020-W53-5").isSome := by decide +kernel

example : (fromisoformat "2024-02-29T3:00:00+00:00").isSome = false := by decide +kernel

/-! ### Digits -/

open Ulpf.Go.Time

theorem isDigit_of_digits {k n : ℕ} {ds : List Char} (h : Digits k n ds) :
    ∀ c ∈ ds, isDigit c = true := by
  apply isSome_decimal?_iff.mp
  rw [h.value]
  rfl

theorem parseDigits_append {k n : ℕ} {ds : List Char} (h : Digits k n ds) (rest : List Char) :
    parseDigits k (ds ++ rest) = some (n, rest) := by
  have hlength : ¬ (ds ++ rest).length < k := by
    rw [List.length_append, h.length]
    omega
  have htake : (ds ++ rest).take k = ds := by
    rw [← h.length, List.take_left]
  have hdrop : (ds ++ rest).drop k = rest := by
    rw [← h.length, List.drop_left]
  rw [parseDigits, if_neg hlength, htake, hdrop, h.value]
  rfl

theorem parseDigits_eq_none {k : ℕ} {s : List Char} (h : ∃ c ∈ s.take k, isDigit c = false) :
    parseDigits k s = none := by
  have hnone : decimal? (s.take k) = none := by
    rw [← Option.not_isSome_iff_eq_none, isSome_decimal?_iff]
    intro hall
    obtain ⟨c, hc, hfalse⟩ := h
    rw [hall c hc] at hfalse
    cases hfalse
  rw [parseDigits, hnone]
  split <;> rfl

/-! ### The parts of a time -/

variable {x : Moment} {zone : Zone}

theorem isSome_parseFraction {f : Char × List Char} (hf : IsFraction f) (rest : List Char) :
    (parseFraction f.2.length (f.2 ++ rest)).isSome = true := by
  have hcount : min f.2.length 6 ≤ f.2.length := Nat.min_le_left _ _
  have htake : (f.2 ++ rest).take (min f.2.length 6) = f.2.take (min f.2.length 6) :=
    List.take_append_of_le_length hcount
  have hsome : (decimal? (f.2.take (min f.2.length 6))).isSome = true :=
    isSome_decimal?_iff.mpr fun c hc => hf.2.2 c (List.mem_of_mem_take hc)
  obtain ⟨n, hn⟩ := Option.isSome_iff_exists.mp hsome
  have hlength : ¬ (f.2 ++ rest).length < min f.2.length 6 := by
    rw [List.length_append]
    omega
  rw [parseFraction, parseDigits, if_neg hlength, htake, hn]
  rfl

theorem parseFields_colon {fields n left : ℕ} {ds : List Char} (h : Digits 2 n ds)
    (rest : List Char) (hfields : fields ≠ 0) (hleft : 3 < left) :
    parseFields (fields + 1) true left (ds ++ ':' :: rest) =
      (parseFields fields true (left - 3) rest).map fun found => (n :: found.1, found.2) := by
  have hmore : ¬ left - 2 ≤ 1 := by omega
  have hrest : left - 2 - 1 = left - 3 := by omega
  rw [parseFields, parseDigits_append h]
  simp only [Option.bind_eq_bind, Option.bind_some, hmore, if_false, List.head?_cons, ite_self,
    decide_true, Bool.and_self, if_true, hfields, List.tail_cons, hrest]
  cases parseFields fields true (left - 3) rest <;> rfl

theorem parseFields_last {n : ℕ} {ds : List Char} (h : Digits 2 n ds) (colons : Bool)
    (rest : List Char) : parseFields 1 colons 2 (ds ++ rest) = some ([n], 0, !rest.isEmpty) := by
  unfold parseFields
  rw [parseDigits_append h]
  rfl

theorem parseFields_fraction {n : ℕ} {ds : List Char} {f : Char × List Char} (h : Digits 2 n ds)
    (hf : IsFraction f) (rest : List Char) : ∃ fraction more,
      parseFields 1 true (f.2.length + 3) (ds ++ (f.1 :: f.2 ++ rest)) =
        some ([n], fraction, more) := by
  obtain ⟨⟨fraction, more⟩, hfraction⟩ :=
    Option.isSome_iff_exists.mp (isSome_parseFraction hf rest)
  have hseparator : f.1 = '.' ∨ f.1 = ',' := by
    simpa [commaOrPeriod] using hf.1
  have hcolon : f.1 ≠ ':' := by
    rcases hseparator with hc | hc <;> rw [hc] <;> decide
  refine ⟨fraction, more, ?_⟩
  unfold parseFields
  rw [parseDigits_append h]
  simp [hcolon, hseparator, hfraction, hf.2.1]

theorem parseFields_clock (hx : x.WellFormed) (hhour : Digits 2 x.hour x.hourText)
    (rest : List Char) : ∃ fraction more,
      parseFields 3 true x.clockText.length (x.clockText ++ rest) =
        some ([x.hour, x.min, x.sec], fraction, more) := by
  have hlength : x.clockText.length = (fractionText x.fraction).length + 8 := by
    simp only [Moment.clockText, List.length_append, List.length_cons, hhour.length,
      hx.min.length, hx.sec.length]
    omega
  have htext : x.clockText ++ rest = x.hourText ++ ':' :: (x.minText ++ ':' ::
      (x.secText ++ (fractionText x.fraction ++ rest))) := by
    simp [Moment.clockText]
  have hsec : ∃ fraction more,
      parseFields 1 true ((fractionText x.fraction).length + 2)
        (x.secText ++ (fractionText x.fraction ++ rest)) = some ([x.sec], fraction, more) := by
    cases hf : x.fraction with
    | none => exact ⟨0, _, parseFields_last hx.sec true _⟩
    | some f => exact parseFields_fraction hx.sec (hx.fraction f hf) rest
  obtain ⟨fraction, more, hsec⟩ := hsec
  refine ⟨fraction, more, ?_⟩
  rw [htext, hlength, parseFields_colon hhour _ (by decide) (by omega),
    parseFields_colon hx.min _ (by decide) (by omega)]
  rw [show (fractionText x.fraction).length + 8 - 3 - 3 = (fractionText x.fraction).length + 2 by
    omega, hsec]
  rfl

theorem parseFields_shortHour (hhour : Digits 1 x.hour x.hourText) (left : ℕ) (rest : List Char) :
    parseFields 3 true left (x.clockText ++ rest) = none := by
  have hnone : parseDigits 2 (x.clockText ++ rest) = none := by
    apply parseDigits_eq_none
    refine ⟨':', ?_, by decide⟩
    obtain ⟨c, hc⟩ := List.length_eq_one_iff.mp hhour.length
    simp [Moment.clockText, hc]
  unfold parseFields
  rw [hnone]
  rfl

/-- Text of a zone once `Z` is replaced by an offset. -/
def zoneIso : Zone → List Char
  | .utc => ['+', '0', '0', ':', '0', '0']
  | zone => zone.text

theorem parseFields_zone {hours minutes : ℕ} {hoursText minutesText : List Char}
    (hhours : Digits 2 hours hoursText) (hminutes : Digits 2 minutes minutesText) :
    parseFields 3 true (hoursText ++ ':' :: minutesText).length (hoursText ++ ':' :: minutesText) =
      some ([hours, minutes], 0, false) := by
  have hlength : (hoursText ++ ':' :: minutesText).length = 5 := by
    simp [hhours.length, hminutes.length]
  have hlast : parseFields 2 true 2 minutesText = some ([minutes], 0, false) := by
    have happend := parseDigits_append hminutes []
    rw [List.append_nil] at happend
    unfold parseFields
    rw [happend]
    rfl
  rw [hlength, parseFields_colon hhours minutesText (by decide) (by decide), hlast]
  rfl

theorem not_startsZone_of_clockText (hx : x.WellFormed) :
    ∀ c ∈ x.clockText, startsZone c = false := by
  have hdigit : ∀ c, isDigit c = true → startsZone c = false := by
    intro c hc
    have hplain : c ≠ '+' ∧ c ≠ '-' ∧ c ≠ 'Z' := by
      refine ⟨?_, ?_, ?_⟩ <;> rintro rfl <;> exact absurd hc (by decide)
    simp [startsZone, hplain]
  have hhour : ∀ c ∈ x.hourText, isDigit c = true := by
    rcases hx.hour with h | h <;> exact isDigit_of_digits h
  have hfraction : ∀ c ∈ fractionText x.fraction, startsZone c = false := by
    cases hf : x.fraction with
    | none => simp [fractionText]
    | some f =>
        obtain ⟨hseparator, -, hdigits⟩ := hx.fraction f hf
        intro c hc
        rcases List.mem_cons.mp hc with rfl | hc
        · rcases (by simpa [commaOrPeriod] using hseparator : f.1 = '.' ∨ f.1 = ',') with h | h <;>
            rw [h] <;> rfl
        · exact hdigit c (hdigits c hc)
  intro c hc
  simp only [Moment.clockText, List.mem_append, List.mem_cons] at hc
  rcases hc with hc | rfl | hc | rfl | hc | hc
  · exact hdigit c (hhour c hc)
  · rfl
  · exact hdigit c (isDigit_of_digits hx.min c hc)
  · rfl
  · exact hdigit c (isDigit_of_digits hx.sec c hc)
  · exact hfraction c hc

/-- How far a zone is from UTC, in microseconds. -/
def zoneMicros : Zone → ℤ
  | .utc => 0
  | .offset negative hours minutes _ _ =>
      let micros : ℤ := (hours * 3600 + minutes * 60) * 10 ^ 6
      if negative then -micros else micros

theorem exists_offset_of_zone (hzone : zone.WellFormed) :
    ∃ sign hours minutes hoursText minutesText, (sign = '+' ∨ sign = '-') ∧
      zoneIso zone = sign :: (hoursText ++ ':' :: minutesText) ∧
      Digits 2 hours hoursText ∧ Digits 2 minutes minutesText ∧
      zoneMicros zone = (if sign = '-' then -1 else 1) * ((hours * 3600 + minutes * 60) * 10 ^ 6) ∧
      zone.minutesOff = 60 * hours + minutes := by
  cases zone with
  | utc =>
      have hzero : Digits 2 0 ['0', '0'] := ⟨rfl, rfl⟩
      exact ⟨'+', 0, 0, ['0', '0'], ['0', '0'], .inl rfl, rfl, hzero, hzero, rfl, rfl⟩
  | offset negative hours minutes hoursText minutesText =>
      obtain ⟨hhours, hminutes, -, -⟩ := hzone
      refine ⟨if negative then '-' else '+', hours, minutes, hoursText, minutesText, ?_, rfl,
        hhours, hminutes, ?_, rfl⟩
      · cases negative <;> simp
      · cases negative <;> simp [zoneMicros]

theorem parseTime_text (hx : x.WellFormed) (hzone : zone.WellFormed) :
    parseTime (x.clockText ++ zoneIso zone) =
      if x.hourText.length = 2 then
        some ([x.hour, x.min, x.sec], some (zoneMicros zone))
      else none := by
  obtain ⟨sign, hours, minutes, hoursText, minutesText, hsign, hiso, hhours, hminutes,
    hmicros, -⟩ := exists_offset_of_zone hzone
  have hstarts : startsZone sign = true := by
    rcases hsign with rfl | rfl <;> rfl
  have hclock : (x.clockText ++ zoneIso zone).takeWhile (fun c => !startsZone c) = x.clockText := by
    rw [List.takeWhile_append_of_pos fun c hc => by rw [not_startsZone_of_clockText hx c hc]; rfl,
      hiso, List.takeWhile_cons_of_neg (by simp [hstarts]), List.append_nil]
  have hdrop : (x.clockText ++ zoneIso zone).drop x.clockText.length = zoneIso zone :=
    List.drop_left
  unfold parseTime
  rw [hclock]
  dsimp only
  rw [hdrop]
  rcases hx.hour with hhour | hhour
  · obtain ⟨fraction, more, hfields⟩ := parseFields_clock hx hhour (zoneIso zone)
    rw [hfields, if_pos hhour.length, hiso]
    have hoffset := parseFields_zone hhours hminutes
    rw [List.length_append, List.length_cons] at hoffset
    rcases hsign with rfl | rfl
    · simp [hoffset, field, hmicros]
    · simp [hoffset, field, hmicros]
  · rw [parseFields_shortHour hhour, if_neg (by rw [hhour.length]; decide)]
    rfl

/-! ### The whole text -/

theorem drop_text (hx : x.WellFormed) (rest : List Char) :
    (x.text ++ rest).drop 10 = 'T' :: (x.clockText ++ rest) := by
  have htext : x.text ++ rest = (x.yearText ++ '-' :: (x.monthText ++ '-' :: x.dayText)) ++
      'T' :: (x.clockText ++ rest) := by
    simp [Moment.text]
  have hlength : (x.yearText ++ '-' :: (x.monthText ++ '-' :: x.dayText)).length = 10 := by
    simp [hx.year.length, hx.month.length, hx.day.length]
  rw [htext, ← hlength, List.drop_left]

theorem separatorLocation_text (hx : x.WellFormed) (rest : List Char) :
    separatorLocation (x.text ++ rest) = some 10 := by
  have hlength : (x.text ++ rest).length ≠ 7 := by
    simp only [Moment.text, List.length_append, List.length_cons, hx.year.length,
      hx.month.length, hx.day.length]
    omega
  obtain ⟨a, b, c, d, hyear⟩ := List.length_eq_four.mp hx.year.length
  obtain ⟨e, f, hmonth⟩ := List.length_eq_two.mp hx.month.length
  have hdigit : e ≠ 'W' := by
    rintro rfl
    have hw := isDigit_of_digits hx.month 'W' (by rw [hmonth]; exact List.mem_cons_self)
    exact absurd hw (by decide)
  have hhyphen : (x.text ++ rest)[4]? = some '-' := by
    simp [Moment.text, hyear]
  have hweek : (x.text ++ rest)[5]? ≠ some 'W' := by
    simp [Moment.text, hyear, hmonth, hdigit]
  rw [separatorLocation, if_neg hlength, if_pos hhyphen, if_neg hweek]

theorem parseDate_text (hx : x.WellFormed) (rest : List Char) :
    parseDate (x.text ++ rest) 10 = some ((x.year : ℤ), x.month, x.day) := by
  have htext : x.text ++ rest = x.yearText ++ '-' :: (x.monthText ++ '-' :: (x.dayText ++
      'T' :: (x.clockText ++ rest))) := by
    simp [Moment.text]
  have hweek : (x.monthText ++ '-' :: (x.dayText ++ 'T' :: (x.clockText ++ rest))).head? ≠
      some 'W' := by
    obtain ⟨e, f, hmonth⟩ := List.length_eq_two.mp hx.month.length
    rw [hmonth]
    rintro ⟨⟩
    have hw := isDigit_of_digits hx.month 'W' (by rw [hmonth]; exact List.mem_cons_self)
    exact absurd hw (by decide)
  rw [parseDate, htext, parseDigits_append hx.year]
  simp only [Option.bind_eq_bind, Option.bind_some, List.head?_cons, decide_true, if_true,
    List.tail_cons, hweek, if_false, parseDigits_append hx.month, afterHyphen,
    parseDigits_append hx.day, Option.pure_def]

theorem isSome_fromisoformat_iff (hx : x.WellFormed) (hzone : zone.WellFormed) (hday : x.HasDay) :
    (fromisoformat (String.ofList (x.text ++ zoneIso zone))).isSome = true ↔
      1 ≤ x.year ∧ x.hourText.length = 2 ∧ zone.minutesOff < 1440 := by
  have hlength : ¬ (x.text ++ zoneIso zone).length < 7 := by
    simp only [Moment.text, List.length_append, List.length_cons, hx.year.length,
      hx.month.length, hx.day.length]
    omega
  obtain ⟨sign, hours, minutes, hoursText, minutesText, hsign, hiso, -, -, hmicros, hoff⟩ :=
    exists_offset_of_zone hzone
  have hrest : ¬ ((x.clockText ++ zoneIso zone).isEmpty = true ∧ 'T'.toNat < 128) := by
    simp [hiso]
  unfold fromisoformat
  rw [String.toList_ofList]
  dsimp only
  rw [if_neg hlength, separatorLocation_text hx, Option.bind_eq_bind, Option.bind_some,
    parseDate_text hx, Option.bind_eq_bind, Option.bind_some, drop_text hx]
  dsimp only
  rw [if_neg hrest, parseTime_text hx hzone]
  by_cases hhour : x.hourText.length = 2
  · have hyear : (x.year : ℤ) ≤ 9999 := by
      have hlt := lt_of_decimal? hx.year.value
      rw [hx.year.length] at hlt
      omega
    have hranges : ¬ (x.month < 1 ∨ 12 < x.month ∨ x.day < 1 ∨ (9999 : ℤ) < x.year ∨
        23 < field [x.hour, x.min, x.sec] 0 ∨ 59 < field [x.hour, x.min, x.sec] 1) := by
      have hmonth := hx.month_range
      have hhours := hx.hour_lt
      have hmins := hx.min_lt
      have hdays := hday.1
      simp only [field, List.getElem?_cons_zero, List.getElem?_cons_succ, Option.getD_some]
      omega
    rw [if_pos hhour, Option.bind_eq_bind, Option.bind_some]
    dsimp only
    have hoffset : (secondsPerDay * 10 ^ 6 ≤ zoneMicros zone ∨
        zoneMicros zone ≤ -(secondsPerDay * 10 ^ 6)) ↔ ¬ zone.minutesOff < 1440 := by
      rw [hmicros, hoff, secondsPerDay]
      split <;> omega
    have hsecs : ¬ 59 < field [x.hour, x.min, x.sec] 2 := by
      have hsec := hx.sec_lt
      simp only [field, List.getElem?_cons_zero, List.getElem?_cons_succ, Option.getD_some]
      omega
    have hdays : ¬ daysIn x.month x.year < x.day := Nat.not_lt.mpr hday.2
    rw [if_neg hranges, make]
    simp only [hdays, hsecs, false_or, Option.any_some, decide_eq_true_eq, hoffset, hhour, true_and]
    split
    · simp
      omega
    · simp
      omega
  · rw [if_neg hhour]
    simp [hhour]

/-- `datetime.fromisoformat(s.replace("Z", "+00:00"))` raises no `ValueError`. -/
def readable (s : String) : Bool := (fromisoformat (replaceAll s "Z" "+00:00")).isSome

theorem not_mem_of_isDigit {s : List Char} (h : ∀ c ∈ s, isDigit c = true) : 'Z' ∉ s :=
  fun hz => absurd (h 'Z' hz) (by decide)

theorem not_mem_text (hx : x.WellFormed) : 'Z' ∉ x.text := by
  have hclock : 'Z' ∉ x.clockText := fun hz =>
    absurd (not_startsZone_of_clockText hx 'Z' hz) (by decide)
  simp [Moment.text, hclock, not_mem_of_isDigit (isDigit_of_digits hx.year),
    not_mem_of_isDigit (isDigit_of_digits hx.month), not_mem_of_isDigit (isDigit_of_digits hx.day)]

theorem replace_zone (hzone : zone.WellFormed) :
    (zone.text.flatMap fun d => if d = 'Z' then ['+', '0', '0', ':', '0', '0'] else [d]) =
      zoneIso zone := by
  cases zone with
  | utc => rfl
  | offset negative hours minutes hoursText minutesText =>
      obtain ⟨hhours, hminutes, -, -⟩ := hzone
      apply flatMap_eq_self
      have hsign : 'Z' ≠ (if negative then '-' else '+') := by cases negative <;> decide
      simp [Zone.text, hsign, not_mem_of_isDigit (isDigit_of_digits hhours),
        not_mem_of_isDigit (isDigit_of_digits hminutes)]

theorem readable_iff {s : String} (hx : x.WellFormed) (hzone : zone.WellFormed) (hday : x.HasDay)
    (hs : s.toList = x.text ++ zone.text) :
    readable s = true ↔ 1 ≤ x.year ∧ x.hourText.length = 2 ∧ zone.minutesOff < 1440 := by
  have hreplace : replaceAll s "Z" "+00:00" = String.ofList (x.text ++ zoneIso zone) := by
    have hletters : "Z".toList = ['Z'] ∧ "+00:00".toList = ['+', '0', '0', ':', '0', '0'] := by
      decide
    rw [replaceAll, onChars, hs, hletters.1, hletters.2, replace_singleton, List.flatMap_append,
      flatMap_eq_self (not_mem_text hx), replace_zone hzone]
  rw [readable, hreplace, isSome_fromisoformat_iff hx hzone hday]

end Ulpf.Python.IsoFormat
