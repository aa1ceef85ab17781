import Ulpf.Formats.Rfc3339
import Ulpf.Go.Stamp
import Ulpf.Go.Value

/-!
Times of RFC 3339 read by `time.Parse`, and their texts written again in UTC.
-/

namespace Ulpf.Go.Time

open Ulpf.Lib
open Ulpf.Lib.Text
open Ulpf.Lib.Calendar
open Ulpf.Formats
open Ulpf.Formats.Rfc3339

section Reading

variable {x : Rfc3339} {next : Option Chunk} {t : Parsed}

/-- What stands behind the letter between the date and the time of day. -/
def clockText (x : Rfc3339) : List Char :=
  twoDigits x.hour ++ ':' :: (twoDigits x.min ++ ':' :: (twoDigits x.sec ++
    (fractionPart x.fraction ++ x.zone.text)))

theorem parseChunks_date (x : Rfc3339) (chunks : List Chunk) :
    parseChunks (dateChunks ++ chunks) Parsed.empty x.text =
      parseChunks chunks
        { Parsed.empty with year := x.year, month := some x.month, day := some x.day }
        ((if x.lowerT then 't' else 'T') :: clockText x) := by
  have hday := x.day_range.2.trans (daysIn_le x.month x.year)
  rw [dateChunks, Rfc3339.text]
  simp only [List.cons_append, List.nil_append]
  rw [parseChunks_cons _ _ _ _ (parseChunk_longYear _ _ _ x.year_lt),
    parseChunks_cons _ _ _ _ (parseChunk_text _ _ _ (c := '-') "-" rfl (by decide)),
    parseChunks_cons _ _ _ _ (parseChunk_zeroMonth _ _ _ x.month_range),
    parseChunks_cons _ _ _ _ (parseChunk_text _ _ _ (c := '-') "-" rfl (by decide)),
    parseChunks_cons _ _ _ _ (parseChunk_zeroDay _ _ _ (by omega))]
  rfl

theorem parseChunks_minutes (x : Rfc3339) (chunks : List Chunk) :
    parseChunks (clockChunks ++ chunks) t (clockText x) =
      parseChunks (.zeroSecond :: chunks) { t with hour := x.hour, min := x.min }
        (twoDigits x.sec ++ (fractionPart x.fraction ++ x.zone.text)) := by
  rw [clockChunks, clockText]
  simp only [List.cons_append, List.nil_append]
  rw [parseChunks_cons _ _ _ _ (parseChunk_hour _ _ _ x.hour_lt),
    parseChunks_cons _ _ _ _ (parseChunk_text _ _ _ (c := ':') ":" rfl (by decide)),
    parseChunks_cons _ _ _ _ (parseChunk_zeroMinute _ _ _ x.min_lt),
    parseChunks_cons _ _ _ _ (parseChunk_text _ _ _ (c := ':') ":" rfl (by decide))]

theorem parseChunk_seconds {rest : List Char} {n : ℕ} (hnext : next = some .fracSecond9)
    (hn : n < 60) : parseChunk next t (twoDigits n ++ rest) .zeroSecond =
      some ({ t with sec := n }, rest) := by
  rw [hnext]
  unfold parseChunk
  rw [getnum_twoDigits (by omega)]
  show (if 60 ≤ n then none else
    if startsFraction rest && !true then _ else some ({ t with sec := n }, rest)) = _
  rw [if_neg (by omega), Bool.not_true, Bool.and_false, if_neg Bool.false_ne_true]

theorem parseChunk_leap {rest : List Char} :
    parseChunk next t (twoDigits 60 ++ rest) .zeroSecond = none := by
  unfold parseChunk
  rw [getnum_twoDigits (by decide)]
  rfl

theorem startsFraction_zone (z : ZoneText) : startsFraction z.text = false := by
  cases z with
  | utc lower => cases lower <;> rfl
  | offset west hours minutes => cases west <;> rfl

variable (next) in
theorem parseChunk_fraction {ds : List Char} (hds : ∀ c ∈ ds, isDigit c = true) (z : ZoneText) :
    ∃ nsec, parseChunk next t (fractionPart ds ++ z.text) .fracSecond9 =
      some ({ t with nsec := nsec }, z.text) := by
  cases ds with
  | nil =>
      refine ⟨t.nsec, ?_⟩
      rw [show fractionPart [] ++ z.text = z.text from rfl, parseChunk, startsFraction_zone,
        if_neg Bool.false_ne_true]
  | cons d ds =>
      obtain ⟨c, tail, hz, hc, -⟩ := isDigit_zone_head z
      have hstarts : startsFraction ('.' :: (d :: ds ++ z.text)) = true := by
        rw [List.cons_append, startsFraction, hds d List.mem_cons_self]
        rfl
      have hspan : spanFraction ('.' :: (d :: ds ++ z.text)) = ('.' :: d :: ds, z.text) := by
        rw [spanFraction, hz, List.takeWhile_append_of_pos hds, List.dropWhile_append_of_pos hds,
          List.takeWhile_cons_of_neg (by simp [hc]), List.dropWhile_cons_of_neg (by simp [hc]),
          List.append_nil]
      have htake : ∀ c ∈ (d :: ds).take 9, isDigit c = true :=
        fun c hmem => hds c (List.mem_of_mem_take hmem)
      obtain ⟨nsec, hnsec⟩ : ∃ nsec, parseNanoseconds ('.' :: d :: ds) = some nsec := by
        have hatoi : atoi ((d :: ds).take 9) =
            some ((Nat.ofDigitChars 10 ((d :: ds).take 9) 0 : ℕ) : ℤ) := by
          unfold atoi
          split
          · rename_i heq
            have hdigit := htake '-' (by rw [heq]; exact List.mem_cons_self)
            exact absurd hdigit (by decide)
          · rename_i heq
            have hdigit := htake '+' (by rw [heq]; exact List.mem_cons_self)
            exact absurd hdigit (by decide)
          · rw [decimal?_eq_ofDigitChars htake]
            rfl
        have hcomma : (!commaOrPeriod '.') = false := rfl
        rw [parseNanoseconds, hcomma, if_neg Bool.false_ne_true]
        simp only [hatoi, Option.bind_eq_bind, Option.bind_some]
        rw [if_neg (by omega)]
        exact ⟨_, rfl⟩
      refine ⟨nsec, ?_⟩
      show parseChunk next t ('.' :: (d :: ds ++ z.text)) .fracSecond9 = _
      rw [parseChunk, if_pos hstarts, hspan]
      simp only [hnsec, Option.map_some]

/-- What a zone leaves behind. -/
def withZone (t : Parsed) : ZoneText → Parsed
  | .utc _ => { t with utc := true }
  | z => { t with zoneOffset := some z.seconds }

theorem parseChunk_zone {z : ZoneText} (hz : z.WellFormed) (hupper : z ≠ .utc true) :
    parseChunk next t z.text .iso8601ColonTZ = some (withZone t z, []) := by
  cases z with
  | utc lower =>
      cases lower with
      | false => rfl
      | true => exact absurd rfl hupper
  | offset west hours minutes =>
      obtain ⟨hhours, hminutes⟩ := hz
      have hzone : parseNumZone true (ZoneText.offset west hours minutes).text =
          some ((ZoneText.offset west hours minutes).seconds, []) := by
        have hlast : twoDigits minutes = twoDigits minutes ++ [] := by rw [List.append_nil]
        rw [ZoneText.text, parseNumZone, getnum_twoDigits (by omega)]
        simp only [Option.bind_eq_bind, Option.bind_some, if_true]
        rw [hlast, getnum_twoDigits (by omega)]
        simp only [Option.bind_some]
        rw [if_neg (by omega)]
        cases west <;> rfl
      have hsign : ∀ rest, (ZoneText.offset west hours minutes).text ≠ 'Z' :: rest := by
        intro rest heq
        cases west <;> exact absurd (List.cons.inj heq).1 (by decide)
      unfold parseChunk
      dsimp only
      split
      · rename_i heq
        exact absurd heq (hsign _)
      · rw [hzone]
        rfl

end Reading

section Parsing

variable {x : Rfc3339}

/-- The times that `time.Parse` reads: letters in upper case and no leap second. -/
structure Readable (x : Rfc3339) : Prop where
  upper : x.lowerT = false
  zone : x.zone ≠ .utc true
  sec : x.sec < 60

/-- What has been read of a time before its zone. -/
def readTo (x : Rfc3339) (nsec : ℕ) : Parsed :=
  { Parsed.empty with
    year := x.year, month := some x.month, day := some x.day, hour := x.hour, min := x.min,
    sec := x.sec, nsec := nsec }

theorem exists_parseChunks (hx : Readable x) : ∃ nsec,
    parseChunks rfc3339Nano Parsed.empty x.text = some (withZone (readTo x nsec) x.zone) := by
  obtain ⟨nsec, hnsec⟩ := parseChunk_fraction
    ([Chunk.iso8601ColonTZ].find? fun c => !c.isText) x.digits x.zone (t := readTo x 0)
  have hfraction : parseChunks [.fracSecond9, .iso8601ColonTZ] (readTo x 0)
      (fractionPart x.fraction ++ x.zone.text) =
        some (withZone { readTo x 0 with nsec := nsec } x.zone) := by
    rw [parseChunks_cons _ _ _ _ hnsec,
      parseChunks_cons _ _ _ _ (parseChunk_zone x.zone_wellFormed hx.zone)]
    rfl
  refine ⟨nsec, ?_⟩
  rw [rfc3339Nano, List.append_assoc, List.append_assoc, parseChunks_date, hx.upper,
    if_neg Bool.false_ne_true, List.singleton_append,
    parseChunks_cons _ _ _ _ (parseChunk_text _ _ _ (c := 'T') "T" rfl (by decide)),
    parseChunks_minutes, parseChunks_cons _ _ _ _ (parseChunk_seconds rfl hx.sec)]
  exact hfraction

theorem parse_text (hx : Readable x) (l : LocalZone) : ∃ t,
    parse l rfc3339Nano (String.ofList x.text) = some t ∧ t.sec = x.unixSeconds ∧
      offsetAt l t.location t.sec = x.zone.seconds := by
  obtain ⟨nsec, hparse⟩ := exists_parseChunks hx
  have hday : ¬ (x.day < 1 ∨ daysIn x.month x.year < x.day) := by
    have hrange := x.day_range
    omega
  rw [parse, String.toList_ofList, hparse]
  simp only [Option.bind_eq_bind, Option.bind_some]
  cases hz : x.zone with
  | utc lower =>
      have htime : (withZone (readTo x nsec) (.utc lower)).toTime l =
          some ⟨x.localSeconds, nsec, .utc⟩ := by
        rw [Parsed.toTime]
        exact if_neg hday
      exact ⟨_, htime, by rw [unixSeconds, hz, ZoneText.seconds, sub_zero], rfl⟩
  | offset west hours minutes =>
      have htime : (withZone (readTo x nsec) (.offset west hours minutes)).toTime l =
          some ⟨x.localSeconds - (ZoneText.offset west hours minutes).seconds, nsec,
            if (l.lookup (x.localSeconds - (ZoneText.offset west hours minutes).seconds)).offset =
                (ZoneText.offset west hours minutes).seconds then .zone
              else .fixed (ZoneText.offset west hours minutes).seconds⟩ := by
        rw [Parsed.toTime]
        exact if_neg hday
      refine ⟨_, htime, by rw [unixSeconds, hz], ?_⟩
      dsimp only
      split
      · rename_i hoffset
        exact hoffset
      · rfl

theorem localSeconds_eq (hsec : x.sec < 60) :
    x.localSeconds / 86400 = daysFromCivil x.year x.month x.day := by
  have hhour := x.hour_lt
  have hmin := x.min_lt
  rw [localSeconds, Calendar.seconds, secondsPerDay]
  omega

theorem fourDigitYear_localSeconds (hsec : x.sec < 60) : FourDigitYear x.localSeconds := by
  have hdays := localSeconds_eq hsec
  have hday : 1 ≤ x.day ∧ x.day ≤ 31 :=
    ⟨x.day_range.1, x.day_range.2.trans (daysIn_le x.month x.year)⟩
  have hlow : daysFromCivil x.year x.month x.day < yearStart 0 ↔ _ :=
    daysFromCivil_lt_iff x.month_range hday 0
  have hhigh : daysFromCivil x.year x.month x.day < yearStart 10000 ↔ _ :=
    daysFromCivil_lt_iff x.month_range hday 10000
  have hfirst : yearStart 0 = -719528 := by decide
  have hlast : yearStart 10000 = 2932897 := by decide
  have hyear := x.year_lt
  rw [hfirst] at hlow
  rw [hlast] at hhigh
  rw [FourDigitYear, firstSecond, endSecond]
  omega

theorem year_eq {l : LocalZone} {t : Time} (hsec : x.sec < 60)
    (hlocal : t.sec + offsetAt l t.location t.sec = x.localSeconds) :
    t.year l = 0 ↔ x.year = 0 := by
  have hday : 1 ≤ x.day ∧ x.day ≤ 31 :=
    ⟨x.day_range.1, x.day_range.2.trans (daysIn_le x.month x.year)⟩
  rw [Time.year, hlocal, clock_eq (fourDigitYear_localSeconds hsec), localSeconds_eq hsec]
  cases hcivil : civilFromDays (daysFromCivil x.year x.month x.day) with
  | mk year date =>
      have hlow := civilFromDays_lt_iff hcivil 0
      have hhigh := civilFromDays_lt_iff hcivil 1
      rw [daysFromCivil_lt_iff x.month_range hday] at hlow hhigh
      dsimp only
      omega

end Parsing

section Writing

theorem isDigit_appendInt {n width : ℕ} {c : Char} (h : c ∈ appendInt n width) :
    isDigit c = true := by
  rw [appendInt_natCast, List.mem_append] at h
  rcases h with hzero | hdigit
  · rw [List.eq_of_mem_replicate hzero]
    rfl
  · rw [← toList_numeral] at hdigit
    exact isDigit_numeral n c hdigit

/-- Digits of a fraction of a second without the zeros at its end. -/
def nanoDigits (nsec : ℕ) : List Char :=
  ((appendInt nsec 9).reverse.dropWhile (· = '0')).reverse

theorem appendNano_eq (nsec : ℕ) : appendNano nsec = fractionPart (nanoDigits nsec) := rfl

theorem isDigit_nanoDigits (nsec : ℕ) : ∀ c ∈ nanoDigits nsec, isDigit c = true := by
  intro c hc
  have hmem := (List.dropWhile_sublist _).mem (List.mem_reverse.mp hc)
  exact isDigit_appendInt (List.mem_reverse.mp hmem)

theorem nanoDigits_zero : nanoDigits 0 = [] := by decide

/-- Only the fraction sets the two layouts apart. -/
theorem exists_formatRFC3339 (t : Time) : ∃ core, ∀ nanos, t.formatRFC3339 nanos =
    core ++ ((if nanos then appendNano t.nsec else []) ++ ['Z']) := by
  obtain ⟨days, second, hclock⟩ : ∃ days second, clock t.sec = (days, second) := ⟨_, _, rfl⟩
  obtain ⟨year, month, day, hcivil⟩ : ∃ year month day, civilFromDays days = (year, month, day) :=
    ⟨_, _, _, rfl⟩
  refine ⟨appendInt year 4 ++ '-' :: appendInt month 2 ++ '-' :: appendInt day 2 ++
    'T' :: appendInt (second / 3600) 2 ++ ':' :: appendInt (second / 60 % 60) 2 ++
    ':' :: appendInt (second % 60) 2, fun nanos => ?_⟩
  simp only [Time.formatRFC3339, hclock, hcivil]
  simp

theorem formatRFC3339_congr {t t' : Time} (h : t.sec = t'.sec) :
    t.formatRFC3339 false = t'.formatRFC3339 false := by
  rw [Time.formatRFC3339, Time.formatRFC3339, h]
  rfl

theorem exists_text (nanos : Bool) {t : Time} (h : FourDigitYear t.sec) : ∃ y : Rfc3339,
    t.formatRFC3339 nanos = y.text ∧ y.lowerT = false ∧ y.zone = .utc false ∧ y.sec < 60 ∧
      y.localSeconds = t.sec ∧ y.fraction = if nanos then nanoDigits t.nsec else [] := by
  obtain ⟨year, month, day, hcivil, hmonth, hday, hdays, hyear⟩ := exists_date h
  have hlength := daysIn_le month year
  have hsecond : (secondOfDay t.sec : ℤ) = t.sec % 86400 := by
    rw [secondOfDay]
    omega
  have hwhole := formatRFC3339_eq h hcivil hyear (by omega) (by omega)
  obtain ⟨core, hcore⟩ := exists_formatRFC3339 t
  let y : Rfc3339 :=
    { year := year, month := month, day := day, lowerT := false
      hour := secondOfDay t.sec / 3600, min := secondOfDay t.sec / 60 % 60
      sec := secondOfDay t.sec % 60
      fraction := if nanos then nanoDigits t.nsec else []
      zone := .utc false
      year_lt := hyear
      month_range := hmonth
      day_range := hday
      hour_lt := by omega
      min_lt := by omega
      sec_le := by omega
      leap := by omega
      digits := by
        cases nanos with
        | false => exact List.forall_mem_nil _
        | true => exact isDigit_nanoDigits t.nsec
      zone_wellFormed := trivial }
  have hy : core = y.secondsText := by
    have hsplit : y.secondsText ++ ['Z'] = rfc3339Text year month day (secondOfDay t.sec / 3600)
        (secondOfDay t.sec / 60 % 60) (secondOfDay t.sec % 60) := by
      simp [y, secondsText, rfc3339Text]
    rw [← hsplit, hcore false] at hwhole
    exact List.append_cancel_right hwhole
  refine ⟨y, ?_, rfl, rfl, by show _ % 60 < 60; omega, ?_, rfl⟩
  · rw [hcore, Rfc3339.text_eq, hy]
    cases nanos with
    | false => rfl
    | true => rfl
  · show Calendar.seconds year month day (secondOfDay t.sec / 3600) (secondOfDay t.sec / 60 % 60)
      (secondOfDay t.sec % 60) = t.sec
    rw [Calendar.seconds, hdays, secondsPerDay]
    omega

end Writing

section Limits

theorem formatRFC3339_ne_text {t : Time} (hsec : IsInt64 t.sec) (hyear : ¬ FourDigitYear t.sec)
    (x : Rfc3339) : t.formatRFC3339 false ≠ x.text := by
  obtain ⟨days, second, hclock⟩ : ∃ days second, clock t.sec = (days, second) := ⟨_, _, rfl⟩
  obtain ⟨year, month, day, hcivil⟩ : ∃ year month day, civilFromDays days = (year, month, day) :=
    ⟨_, _, _, rfl⟩
  obtain ⟨rest, hformat⟩ : ∃ rest, t.formatRFC3339 false = appendInt year 4 ++ rest := by
    simp only [Time.formatRFC3339, hclock, hcivil, List.append_assoc]
    exact ⟨_, rfl⟩
  have hrange : year < 0 ∨ 10000 ≤ year := by
    have hlow := civilFromDays_lt_iff hcivil 0
    have hhigh := civilFromDays_lt_iff hcivil 10000
    have hfirst : yearStart 0 = -719528 := by decide
    have hlast : yearStart 10000 = 2932897 := by decide
    rw [hfirst] at hlow
    rw [hlast] at hhigh
    simp only [clock, absoluteToUnix, secondsPerDay, Prod.mk.injEq] at hclock
    rw [FourDigitYear, firstSecond, endSecond] at hyear
    rw [IsInt64] at hsec
    have hwrap : (t.sec + 9223372028715321600) / 2 ^ 64 = 0 ∨
        (t.sec + 9223372028715321600) / 2 ^ 64 = -1 := by
      omega
    omega
  rw [hformat]
  intro heq
  obtain hneg | hlarge := hrange
  · have hhead : (appendInt year 4 ++ rest).head? = some '-' := by
      rw [appendInt, if_pos hneg]
      rfl
    have hdigit : x.text.head? = some (Nat.digitChar (x.year / 100 / 10)) := rfl
    rw [heq, hdigit] at hhead
    have hyear := x.year_lt
    have hsome : digit? (Nat.digitChar (x.year / 100 / 10)) = some (x.year / 100 / 10) :=
      digit?_digitChar (by omega)
    rw [Option.some.inj hhead] at hsome
    cases hsome
  · obtain ⟨n, rfl⟩ := Int.eq_ofNat_of_zero_le (show 0 ≤ year by omega)
    have hlength : 4 < (appendInt n 4).length := by
      have hlt : 4 < (Nat.toDigits 10 n).length := by
        rw [← not_le, Nat.length_toDigits_le_iff (by decide) (by decide)]
        omega
      rw [appendInt_natCast, List.length_append]
      omega
    have hfifth : (appendInt n 4 ++ rest)[4]? = some (appendInt n 4)[4] := by
      rw [List.getElem?_append_left hlength, List.getElem?_eq_getElem hlength]
    have hdash : x.text[4]? = some '-' := rfl
    rw [heq, hdash] at hfifth
    have hdigit := isDigit_appendInt (List.getElem_mem hlength)
    rw [← Option.some.inj hfifth] at hdigit
    cases hdigit

theorem instant_of_formatRFC3339 {t : Time} (hsec : IsInt64 t.sec) {y : Rfc3339}
    (h : t.formatRFC3339 false = y.text) : y.instant = t.sec ∧ FourDigitYear t.sec := by
  have hyear : FourDigitYear t.sec := by
    by_contra hnot
    exact formatRFC3339_ne_text hsec hnot y h
  obtain ⟨x, hx, -, hzone, -, hlocal, hfraction⟩ := exists_text false hyear
  obtain rfl : x = y := eq_of_text_eq (hx.symm.trans h)
  refine ⟨?_, hyear⟩
  rw [instant, unixSeconds, hlocal, hzone, fractionValue, hfraction]
  simp [ZoneText.seconds, decimal?]

theorem inLocation_utc (location : Location) (unix sec : ℤ) :
    inLocation .utc location unix = unix - offsetAt .utc location sec := by
  cases location with
  | utc => exact (sub_zero unix).symm
  | fixed offset => rfl
  | zone => exact (sub_zero unix).symm

theorem addYears_eq {l : LocalZone} {t : Time} {days second year : ℤ} {month day : ℕ}
    (hclock : clock (t.sec + offsetAt l t.location t.sec) = (days, second))
    (hcivil : civilFromDays days = (year, month, day)) (years : ℤ) :
    (t.addYears l years).sec = inLocation l t.location
      (daysFromCivil (year + years) month day * secondsPerDay + second) := by
  delta Time.addYears
  rw [hclock]
  dsimp only
  rw [hcivil]

theorem lt_addYears {x : Rfc3339} {t : Time} {years : ℤ} (hsec : x.sec < 60) (hyear : x.year = 0)
    (hlocal : t.sec + offsetAt .utc t.location t.sec = x.localSeconds)
    (hoffset : |offsetAt .utc t.location t.sec| ≤ 86400) (hyears : 1 ≤ years ∧ years < 10000) :
    t.sec < (t.addYears .utc years).sec ∧ IsInt64 (t.addYears .utc years).sec := by
  have hday : 1 ≤ x.day ∧ x.day ≤ 31 :=
    ⟨x.day_range.1, x.day_range.2.trans (daysIn_le x.month x.year)⟩
  have hfour := fourDigitYear_localSeconds hsec
  rcases hcivil : civilFromDays (x.localSeconds / 86400) with ⟨year, month, day⟩
  obtain ⟨hmonth, hdays, -⟩ := civilFromDays_spec hcivil
  have hdays' := hdays.2.trans (daysIn_le month year)
  have hbefore : x.localSeconds / 86400 < yearStart 1 := by
    rw [localSeconds_eq hsec, daysFromCivil_lt_iff x.month_range hday]
    omega
  have hzero : year = 0 := by
    have hlow := civilFromDays_lt_iff hcivil 0
    have hhigh := civilFromDays_lt_iff hcivil 1
    rw [localSeconds_eq hsec, daysFromCivil_lt_iff x.month_range hday] at hlow hhigh
    omega
  have hshift : (t.addYears .utc years).sec = daysFromCivil (year + years) month day * 86400 +
      x.localSeconds % 86400 - offsetAt .utc t.location t.sec := by
    have hclock := clock_eq hfour
    rw [← hlocal] at hclock
    rw [addYears_eq hclock (hlocal ▸ hcivil) years, inLocation_utc _ _ t.sec, hlocal]
    rfl
  have hafter : ¬ daysFromCivil (year + years) month day < yearStart 1 ↔ _ :=
    (daysFromCivil_lt_iff hmonth ⟨hdays.1, hdays'⟩ 1).not
  have hend : daysFromCivil (year + years) month day < yearStart 10000 ↔ _ :=
    daysFromCivil_lt_iff hmonth ⟨hdays.1, hdays'⟩ 10000
  have hlast : yearStart 10000 = 2932897 := by decide
  have hfirst : yearStart 1 = -719162 := by decide
  rw [FourDigitYear, firstSecond, endSecond] at hfour
  rw [hshift, IsInt64]
  generalize offsetAt .utc t.location t.sec = offset at *
  rw [abs_le] at hoffset
  omega

end Limits

section Refusing

variable {x : Rfc3339} {t : Parsed} {c d : Char} {s : String}

theorem skip_ne (h : d ≠ c) (rest : List Char) : skip false (d :: rest) [c] = none := by
  by_cases hblank : c = ' '
  · rw [hblank] at h
    simp [skip, hblank, h]
  · simp [skip, hblank, h]

theorem parseChunks_otherLetter (hs : s.toList = [c]) (hc : (if x.lowerT then 't' else 'T') ≠ c)
    (chunks : List Chunk) :
    parseChunks (dateChunks ++ .text s :: chunks) Parsed.empty x.text = none := by
  rw [parseChunks_date, parseChunks, parseChunk, hs, skip_ne hc]
  rfl

theorem parseChunks_leap (hsec : x.sec = 60) (chunks : List Chunk) :
    parseChunks (clockChunks ++ chunks) t (clockText x) = none := by
  rw [parseChunks_minutes, hsec, parseChunks, parseChunk_leap]
  rfl

theorem eq_nil_or_mem_of_append {u a b : List Char} (h : u ++ ['z'] = a ++ b) :
    b = [] ∨ 'z' ∈ b := by
  rcases List.eq_nil_or_concat b with rfl | ⟨init, last, rfl⟩
  · exact .inl rfl
  · rw [List.concat_eq_append, ← List.append_assoc] at h
    obtain ⟨-, hlast⟩ := List.append_inj' h rfl
    rw [List.concat_eq_append, ← hlast]
    exact .inr (List.mem_append_right _ List.mem_cons_self)

theorem Zone.not_mem_text {zone : Zone} (h : zone.WellFormed) : 'z' ∉ zone.text := by
  cases zone with
  | utc => decide
  | offset negative hours minutes hoursText minutesText =>
      obtain ⟨hhours, hminutes, -⟩ := h
      have hhoursText := isSome_decimal?_iff.mp (Option.isSome_of_eq_some hhours.value) 'z'
      have hminutesText := isSome_decimal?_iff.mp (Option.isSome_of_eq_some hminutes.value) 'z'
      rw [Zone.text, List.mem_cons, List.mem_append, List.mem_cons]
      rintro (hsign | hmem | hcolon | hmem)
      · cases negative <;> exact absurd hsign (by decide)
      · exact absurd (hhoursText hmem) (by decide)
      · exact absurd hcolon (by decide)
      · exact absurd (hminutesText hmem) (by decide)

/-- The ends of the layouts that have a `T` behind the date. -/
def zoneTails : List (List Chunk) :=
  [[.fracSecond9, .iso8601ColonTZ], [.iso8601ColonTZ], [.fracSecond0 3, .text "Z"], [.text "Z"]]

theorem parseChunks_lowerZone (hz : x.zone = .utc true) {tail : List Chunk}
    (htail : tail ∈ zoneTails) : parseChunks (clockChunks ++ tail) t (clockText x) = none := by
  rw [parseChunks_minutes, hz]
  by_contra hsome
  obtain ⟨p, hp⟩ := Option.ne_none_iff_exists'.mp hsome
  obtain ⟨t', rest, hsecond, hrest⟩ := exists_of_parseChunks hp
  obtain ⟨n, ds, nsec, f, -, hvalue, -⟩ := of_parseChunk_zeroSecond hsecond
  rw [← List.append_assoc, ← List.append_assoc] at hvalue
  have hend := eq_nil_or_mem_of_append hvalue
  have hzone {t : Parsed} {value : List Char} (hvalue : value = [] ∨ 'z' ∈ value)
      (h : parseChunks [.iso8601ColonTZ] t value = some p) : False := by
    obtain ⟨zone, hwell, rfl, -⟩ := exists_of_zone h
    obtain hnil | hmem := hvalue
    · cases zone <;> cases hnil
    · exact zone.not_mem_text hwell hmem
  have hletter {t : Parsed} {value : List Char} (hvalue : value = [] ∨ 'z' ∈ value)
      (h : parseChunks [.text "Z"] t value = some p) : False := by
    obtain ⟨t', rest, htext, hrest⟩ := exists_of_parseChunks h
    obtain ⟨-, rfl⟩ := of_parseChunk_text (c := 'Z') rfl (by decide) htext
    rw [parseChunks] at hrest
    split at hrest
    · rename_i hempty
      rw [List.isEmpty_iff.mp hempty] at hvalue
      revert hvalue
      decide
    · cases hrest
  simp only [zoneTails, List.mem_cons, List.not_mem_nil, or_false] at htail
  obtain rfl | rfl | rfl | rfl := htail
  · obtain ⟨t'', rest', hfraction, hrest'⟩ := exists_of_parseChunks hrest
    obtain ⟨nsec, f, -, rfl, -⟩ := of_parseChunk_fracSecond9 hfraction
    rw [← List.append_assoc] at hvalue
    exact hzone (eq_nil_or_mem_of_append hvalue) hrest'
  · exact hzone hend hrest
  · obtain ⟨t'', rest', hfraction, hrest'⟩ := exists_of_parseChunks hrest
    rw [parseChunk] at hfraction
    split at hfraction
    · cases hfraction
    · obtain ⟨nsec, -, heq⟩ := Option.map_eq_some_iff.mp hfraction
      obtain ⟨-, rfl⟩ := Prod.mk.inj heq
      rw [← List.take_append_drop (1 + 3) rest, ← List.append_assoc] at hvalue
      exact hletter (eq_nil_or_mem_of_append hvalue) hrest'
  · exact hletter hend hrest

theorem lookupName_of_digit (hc : isDigit c = true) {table : List String}
    (htable : ∀ name ∈ table, (name.toList.map asciiLower).head?.any fun d => !isDigit d)
    (rest : List Char) : lookupName table (c :: rest) = none := by
  rw [lookupName, Option.map_eq_none_iff, List.findIdx?_eq_none_iff]
  intro name hname
  have hletters := htable name hname
  have hsame : asciiLower c = c := by
    obtain ⟨-, hhigh⟩ := toNat_of_isDigit hc
    rw [asciiLower, if_neg]
    rintro ⟨hupper, -⟩
    have hnat : 65 ≤ c.toNat := hupper
    omega
  cases hlower : name.toList.map asciiLower with
  | nil =>
      rw [hlower] at hletters
      cases hletters
  | cons d tail =>
      rw [hlower] at hletters
      have hd : d ≠ c := by
        rintro rfl
        rw [List.head?_cons, Option.any_some, hc] at hletters
        cases hletters
      rw [List.map_cons, hsame, List.isPrefixOf_cons_cons, beq_eq_false_iff_ne.mpr hd]
      rfl

theorem parseChunks_name (hc : isDigit c = true) {chunk : Chunk}
    (hchunk : chunk = .month ∨ chunk = .weekDay) (chunks : List Chunk) (rest : List Char) :
    parseChunks (chunk :: chunks) t (c :: rest) = none := by
  obtain rfl | rfl := hchunk
  · rw [parseChunks, parseChunk, lookupName_of_digit hc (by decide)]
    rfl
  · rw [parseChunks, parseChunk, lookupName_of_digit hc (by decide)]
    rfl

theorem parseChunks_digits {ds : List Char} (hds : ∀ c ∈ ds, isDigit c = true)
    (chunks : List Chunk) : parseChunks (dateChunks ++ chunks) t ds = none := by
  by_contra hsome
  obtain ⟨p, hp⟩ := Option.ne_none_iff_exists'.mp hsome
  rw [dateChunks, List.cons_append, List.cons_append] at hp
  obtain ⟨_, _, hyear, hrest⟩ := exists_of_parseChunks hp
  obtain ⟨n, year, -, rfl, -⟩ := of_parseChunk_longYear hyear
  obtain ⟨_, _, hdash, -⟩ := exists_of_parseChunks hrest
  obtain ⟨-, rfl⟩ := of_parseChunk_text (c := '-') rfl (by decide) hdash
  exact absurd (hds '-' (List.mem_append_right _ List.mem_cons_self)) (by decide)

end Refusing

end Ulpf.Go.Time
