import Ulpf.Go.Time
import Mathlib.Tactic.IntervalCases

/-!
The texts `time.Parse` takes under the layouts of RFC 3339: more than the
standard allows, with hours of one digit, commas and offsets of a whole day.
-/

namespace Ulpf.Go.Time

open Ulpf.Lib
open Ulpf.Lib.Text
open Ulpf.Lib.Calendar

/-- That many digits with that value. -/
structure Digits (count value : ℕ) (ds : List Char) : Prop where
  length : ds.length = count
  value : decimal? ds = some value

/-- A zone as Go's parser reads it, with its digits. -/
inductive Zone where
  | utc
  | offset (negative : Bool) (hours minutes : ℕ) (hoursText minutesText : List Char)

namespace Zone

def text : Zone → List Char
  | utc => ['Z']
  | offset negative _ _ hoursText minutesText =>
      (if negative then '-' else '+') :: (hoursText ++ ':' :: minutesText)

/-- The digits of an offset are two each, in the bounds that Go checks. -/
def WellFormed : Zone → Prop
  | utc => True
  | offset _ hours minutes hoursText minutesText =>
      Digits 2 hours hoursText ∧ Digits 2 minutes minutesText ∧ hours ≤ 24 ∧ minutes ≤ 60

/-- How far the zone is from UTC, in minutes. -/
def minutesOff : Zone → ℕ
  | utc => 0
  | offset _ hours minutes _ _ => 60 * hours + minutes

end Zone

/-- The separator of a fraction and its digits. -/
def IsFraction (f : Char × List Char) : Prop :=
  commaOrPeriod f.1 = true ∧ f.2 ≠ [] ∧ ∀ c ∈ f.2, isDigit c = true

/-- Text of a fraction that may be left out. -/
def fractionText (f : Option (Char × List Char)) : List Char := f.elim [] fun f => f.1 :: f.2

/-- A date and a time of day with their texts. -/
structure Moment where
  year : ℕ
  month : ℕ
  day : ℕ
  hour : ℕ
  min : ℕ
  sec : ℕ
  yearText : List Char
  monthText : List Char
  dayText : List Char
  hourText : List Char
  minText : List Char
  secText : List Char
  fraction : Option (Char × List Char)

namespace Moment

def clockText (x : Moment) : List Char :=
  x.hourText ++ ':' :: (x.minText ++ ':' :: (x.secText ++ fractionText x.fraction))

/-- A time up to its zone as it is written. -/
def text (x : Moment) : List Char :=
  x.yearText ++ '-' :: (x.monthText ++ '-' :: (x.dayText ++ 'T' :: x.clockText))

structure WellFormed (x : Moment) : Prop where
  year : Digits 4 x.year x.yearText
  month : Digits 2 x.month x.monthText
  day : Digits 2 x.day x.dayText
  hour : Digits 2 x.hour x.hourText ∨ Digits 1 x.hour x.hourText
  min : Digits 2 x.min x.minText
  sec : Digits 2 x.sec x.secText
  fraction : ∀ f ∈ x.fraction, IsFraction f
  month_range : 1 ≤ x.month ∧ x.month ≤ 12
  hour_lt : x.hour < 24
  min_lt : x.min < 60
  sec_lt : x.sec < 60

/-- The month has the day. -/
def HasDay (x : Moment) : Prop := 1 ≤ x.day ∧ x.day ≤ daysIn x.month x.year

end Moment

section Inversion

theorem exists_of_getnum {s rest : List Char} {fixed : Bool} {n : ℕ}
    (h : getnum s fixed = some (n, rest)) :
    ∃ ds, s = ds ++ rest ∧ (Digits 2 n ds ∨ fixed = false ∧ Digits 1 n ds) := by
  match s, h with
  | [a], h =>
      obtain ⟨x, hx, h⟩ := Option.bind_eq_some_iff.mp h
      cases fixed
      · simp only [Bool.false_eq_true, if_false] at h
        cases h
        exact ⟨[a], rfl, .inr ⟨rfl, rfl, by simp [decimal?, hx]⟩⟩
      · cases h
  | a :: b :: tail, h =>
      obtain ⟨x, hx, h⟩ := Option.bind_eq_some_iff.mp h
      cases hb : digit? b with
      | some y =>
          simp only [hb] at h
          cases h
          exact ⟨[a, b], rfl, .inl ⟨rfl, by simp [decimal?, hx, hb]⟩⟩
      | none =>
          simp only [hb] at h
          cases fixed
          · simp only [Bool.false_eq_true, if_false] at h
            cases h
            exact ⟨[a], rfl, .inr ⟨rfl, rfl, by simp [decimal?, hx]⟩⟩
          · cases h

theorem exists_of_getnum_fixed {s rest : List Char} {n : ℕ}
    (h : getnum s true = some (n, rest)) : ∃ ds, s = ds ++ rest ∧ Digits 2 n ds := by
  obtain ⟨ds, hs, hds | ⟨hfalse, -⟩⟩ := exists_of_getnum h
  · exact ⟨ds, hs, hds⟩
  · cases hfalse

variable {next : Option Chunk} {t t' : Parsed} {value rest : List Char}

theorem exists_of_parseChunks {chunk : Chunk} {chunks : List Chunk} {p : Parsed}
    (h : parseChunks (chunk :: chunks) t value = some p) : ∃ t' rest,
      parseChunk (chunks.find? fun c => !c.isText) t value chunk = some (t', rest) ∧
        parseChunks chunks t' rest = some p := by
  rw [parseChunks] at h
  obtain ⟨⟨t', rest⟩, hchunk, hrest⟩ := Option.bind_eq_some_iff.mp h
  exact ⟨t', rest, hchunk, hrest⟩

theorem of_parseChunk_text {s : String} {c : Char} (hs : s.toList = [c]) (hc : c ≠ ' ')
    (h : parseChunk next t value (.text s) = some (t', rest)) : t' = t ∧ value = c :: rest := by
  rw [parseChunk, hs] at h
  obtain ⟨after, hskip, heq⟩ := Option.map_eq_some_iff.mp h
  cases heq
  cases value with
  | nil => simp [skip, hc] at hskip
  | cons d value =>
      simp only [skip, hc, if_false] at hskip
      split at hskip
      · rename_i hd
        cases hskip
        exact ⟨rfl, by rw [hd]⟩
      · cases hskip

theorem of_parseChunk_longYear (h : parseChunk next t value .longYear = some (t', rest)) :
    ∃ (n : ℕ) (ds : List Char), t' = { t with year := n } ∧ value = ds ++ rest ∧
      Digits 4 n ds := by
  rw [parseChunk] at h
  split at h
  · cases h
  · rename_i hlength
    obtain ⟨n, hn, heq⟩ := Option.map_eq_some_iff.mp h
    cases heq
    obtain ⟨k, hk, hcast⟩ := Option.bind_eq_some_iff.mp hn
    cases hcast
    refine ⟨k, value.take 4, rfl, (List.take_append_drop 4 value).symm, ?_, hk⟩
    rw [List.length_take]
    omega

theorem of_parseChunk_zeroMonth (h : parseChunk next t value .zeroMonth = some (t', rest)) :
    ∃ n ds, t' = { t with month := some n } ∧ value = ds ++ rest ∧ Digits 2 n ds ∧
      1 ≤ n ∧ n ≤ 12 := by
  rw [parseChunk] at h
  obtain ⟨⟨n, after⟩, hn, h⟩ := Option.bind_eq_some_iff.mp h
  obtain ⟨ds, hvalue, hds⟩ := exists_of_getnum_fixed hn
  dsimp only at h
  split at h
  · cases h
  · cases h
    exact ⟨n, ds, rfl, hvalue, hds, by omega, by omega⟩

theorem of_parseChunk_zeroDay (h : parseChunk next t value .zeroDay = some (t', rest)) :
    ∃ n ds, t' = { t with day := some n } ∧ value = ds ++ rest ∧ Digits 2 n ds := by
  rw [parseChunk] at h
  obtain ⟨⟨n, after⟩, hn, heq⟩ := Option.map_eq_some_iff.mp h
  obtain ⟨ds, hvalue, hds⟩ := exists_of_getnum_fixed hn
  cases heq
  exact ⟨n, ds, rfl, hvalue, hds⟩

theorem of_parseChunk_hour (h : parseChunk next t value .hour = some (t', rest)) :
    ∃ n ds, t' = { t with hour := n } ∧ value = ds ++ rest ∧ (Digits 2 n ds ∨ Digits 1 n ds) ∧
      n < 24 := by
  rw [parseChunk] at h
  obtain ⟨⟨n, after⟩, hn, h⟩ := Option.bind_eq_some_iff.mp h
  obtain ⟨ds, hvalue, hds⟩ := exists_of_getnum hn
  dsimp only at h
  split at h
  · cases h
  · cases h
    exact ⟨n, ds, rfl, hvalue, hds.imp_right And.right, by omega⟩

theorem of_parseChunk_zeroMinute (h : parseChunk next t value .zeroMinute = some (t', rest)) :
    ∃ n ds, t' = { t with min := n } ∧ value = ds ++ rest ∧ Digits 2 n ds ∧ n < 60 := by
  rw [parseChunk] at h
  obtain ⟨⟨n, after⟩, hn, h⟩ := Option.bind_eq_some_iff.mp h
  obtain ⟨ds, hvalue, hds⟩ := exists_of_getnum_fixed hn
  dsimp only at h
  split at h
  · cases h
  · cases h
    exact ⟨n, ds, rfl, hvalue, hds, by omega⟩

theorem exists_of_startsFraction {s : List Char} (h : startsFraction s = true) :
    ∃ f, IsFraction f ∧ s = f.1 :: f.2 ++ (spanFraction s).2 ∧ (spanFraction s).1 = f.1 :: f.2 := by
  match s, h with
  | c :: d :: tail, h =>
      rw [startsFraction, Bool.and_eq_true] at h
      refine ⟨(c, (d :: tail).takeWhile isDigit), ⟨h.1, ?_, fun x hx => List.mem_takeWhile_imp hx⟩,
        ?_, rfl⟩
      · rw [List.takeWhile_cons_of_pos h.2]
        exact List.cons_ne_nil _ _
      · rw [spanFraction, List.cons_append, List.takeWhile_append_dropWhile]

theorem of_parseChunk_zeroSecond (h : parseChunk next t value .zeroSecond = some (t', rest)) :
    ∃ n ds nsec f, t' = { t with sec := n, nsec := nsec } ∧
      value = ds ++ (fractionText f ++ rest) ∧ Digits 2 n ds ∧ n < 60 ∧
      (∀ x ∈ f, IsFraction x) ∧ (next = some .fracSecond9 → f = none) := by
  unfold parseChunk at h
  dsimp only at h
  obtain ⟨⟨n, after⟩, hn, h⟩ := Option.bind_eq_some_iff.mp h
  obtain ⟨ds, hvalue, hds⟩ := exists_of_getnum_fixed hn
  dsimp only at h
  split at h
  · cases h
  · split_ifs at h with hstarts
    · rw [Bool.and_eq_true] at hstarts
      obtain ⟨f, hf, hsplit, -⟩ := exists_of_startsFraction hstarts.1
      obtain ⟨nsec, -, h⟩ := Option.bind_eq_some_iff.mp h
      cases h
      refine ⟨n, ds, nsec, some f, rfl, ?_, hds, by omega, by simpa using hf, ?_⟩
      · rw [hvalue]
        exact congrArg (ds ++ ·) hsplit
      · rintro rfl
        cases hstarts.2
    · cases h
      exact ⟨n, ds, t.nsec, none, rfl, hvalue, hds, by omega, by simp, fun _ => rfl⟩

theorem of_parseChunk_fracSecond9 (h : parseChunk next t value .fracSecond9 = some (t', rest)) :
    ∃ nsec f, t' = { t with nsec := nsec } ∧
      value = fractionText f ++ rest ∧ ∀ x ∈ f, IsFraction x := by
  rw [parseChunk] at h
  split at h
  · rename_i hstarts
    obtain ⟨f, hf, hsplit, -⟩ := exists_of_startsFraction hstarts
    obtain ⟨nsec, -, heq⟩ := Option.map_eq_some_iff.mp h
    cases heq
    exact ⟨nsec, some f, rfl, hsplit, by simpa using hf⟩
  · cases h
    exact ⟨t.nsec, none, rfl, rfl, by simp⟩

theorem exists_of_parseNumZone {s : List Char} {offset : ℤ}
    (h : parseNumZone true s = some (offset, rest)) :
    ∃ negative hours minutes hoursText minutesText,
      s = (Zone.offset negative hours minutes hoursText minutesText).text ++ rest ∧
        (Zone.offset negative hours minutes hoursText minutesText).WellFormed := by
  match s, h with
  | sign :: tail, h =>
      rw [parseNumZone] at h
      obtain ⟨⟨hours, after⟩, hhours, h⟩ := Option.bind_eq_some_iff.mp h
      obtain ⟨hoursText, htail, hhoursText⟩ := exists_of_getnum_fixed hhours
      dsimp only at h
      rw [if_pos rfl] at h
      split at h
      · obtain ⟨colon, hcolon, h⟩ := Option.bind_eq_some_iff.mp h
        cases hcolon
        obtain ⟨⟨minutes, after⟩, hminutes, h⟩ := Option.bind_eq_some_iff.mp h
        obtain ⟨minutesText, hcolonText, hminutesText⟩ := exists_of_getnum_fixed hminutes
        dsimp only at h
        split at h
        · cases h
        · have hwell (negative : Bool) :
              (Zone.offset negative hours minutes hoursText minutesText).WellFormed :=
            ⟨hhoursText, hminutesText, by omega, by omega⟩
          split at h
          · cases h
            exact ⟨false, hours, minutes, hoursText, minutesText,
              by simp [Zone.text, htail, hcolonText], hwell false⟩
          · cases h
            exact ⟨true, hours, minutes, hoursText, minutesText,
              by simp [Zone.text, htail, hcolonText], hwell true⟩
          · cases h
      · cases h

theorem of_parseChunk_iso8601ColonTZ
    (h : parseChunk next t value .iso8601ColonTZ = some (t', rest)) :
    ∃ zone : Zone, value = zone.text ++ rest ∧ zone.WellFormed ∧
      t'.year = t.year ∧ t'.month = t.month ∧ t'.day = t.day := by
  unfold parseChunk at h
  dsimp only at h
  split at h
  · cases h
    exact ⟨.utc, rfl, trivial, rfl, rfl, rfl⟩
  · obtain ⟨⟨offset, after⟩, hzone, heq⟩ := Option.map_eq_some_iff.mp h
    cases heq
    obtain ⟨negative, hours, minutes, hoursText, minutesText, hvalue, hwell⟩ :=
      exists_of_parseNumZone hzone
    exact ⟨_, hvalue, hwell, rfl, rfl, rfl⟩

theorem exists_of_dateClock {s : List Char} {tail : List Chunk} {p : Parsed}
    (h : parseChunks (dateChunks ++ [.text "T"] ++ clockChunks ++ tail) Parsed.empty s = some p) :
    ∃ (x : Moment) (t : Parsed) (rest : List Char), x.WellFormed ∧ s = x.text ++ rest ∧
      (tail.find? (fun c => !c.isText) = some .fracSecond9 → x.fraction = none) ∧
      t.year = x.year ∧ t.month = some x.month ∧ t.day = some x.day ∧
      parseChunks tail t rest = some p := by
  rw [dateChunks, clockChunks] at h
  simp only [List.cons_append, List.nil_append] at h
  obtain ⟨_, _, hlongYear, h₁⟩ := exists_of_parseChunks h
  obtain ⟨year, yearText, rfl, rfl, hyear⟩ := of_parseChunk_longYear hlongYear
  obtain ⟨_, _, hdash, h₂⟩ := exists_of_parseChunks h₁
  obtain ⟨rfl, rfl⟩ := of_parseChunk_text (c := '-') rfl (by decide) hdash
  obtain ⟨_, _, hzeroMonth, h₃⟩ := exists_of_parseChunks h₂
  obtain ⟨month, monthText, rfl, rfl, hmonth, hlower, hupper⟩ := of_parseChunk_zeroMonth hzeroMonth
  obtain ⟨_, _, hdash₂, h₄⟩ := exists_of_parseChunks h₃
  obtain ⟨rfl, rfl⟩ := of_parseChunk_text (c := '-') rfl (by decide) hdash₂
  obtain ⟨_, _, hzeroDay, h₅⟩ := exists_of_parseChunks h₄
  obtain ⟨day, dayText, rfl, rfl, hday⟩ := of_parseChunk_zeroDay hzeroDay
  obtain ⟨_, _, hT, h₆⟩ := exists_of_parseChunks h₅
  obtain ⟨rfl, rfl⟩ := of_parseChunk_text (c := 'T') rfl (by decide) hT
  obtain ⟨_, _, hclock, h₇⟩ := exists_of_parseChunks h₆
  obtain ⟨hour, hourText, rfl, rfl, hhour, hhourlt⟩ := of_parseChunk_hour hclock
  obtain ⟨_, _, hcolon, h₈⟩ := exists_of_parseChunks h₇
  obtain ⟨rfl, rfl⟩ := of_parseChunk_text (c := ':') rfl (by decide) hcolon
  obtain ⟨_, _, hzeroMinute, h₉⟩ := exists_of_parseChunks h₈
  obtain ⟨min, minText, rfl, rfl, hmin, hminlt⟩ := of_parseChunk_zeroMinute hzeroMinute
  obtain ⟨_, _, hcolon₂, h₁₀⟩ := exists_of_parseChunks h₉
  obtain ⟨rfl, rfl⟩ := of_parseChunk_text (c := ':') rfl (by decide) hcolon₂
  obtain ⟨_, rest, hzeroSecond, h₁₁⟩ := exists_of_parseChunks h₁₀
  obtain ⟨sec, secText, nsec, f, rfl, rfl, hsec, hseclt, hf, hnone⟩ :=
    of_parseChunk_zeroSecond hzeroSecond
  refine ⟨⟨year, month, day, hour, min, sec, yearText, monthText, dayText, hourText, minText,
    secText, f⟩, _, rest, ?_, ?_, hnone, rfl, rfl, rfl, h₁₁⟩
  · exact ⟨hyear, hmonth, hday, hhour, hmin, hsec, hf, ⟨hlower, hupper⟩, hhourlt, hminlt, hseclt⟩
  · simp [Moment.text, Moment.clockText]

theorem hasDay_of_toTime {l : LocalZone} {x : Moment} {t : Parsed} (hyear : t.year = x.year)
    (hmonth : t.month = some x.month) (hday : t.day = some x.day)
    (h : (t.toTime l).isSome = true) : x.HasDay := by
  unfold Parsed.toTime at h
  dsimp only at h
  rw [hyear, hmonth, hday] at h
  split at h
  · cases h
  · rename_i hrange
    simp only [Option.getD_some] at hrange
    exact ⟨by omega, by omega⟩

theorem exists_of_zone {p : Parsed} (h : parseChunks [.iso8601ColonTZ] t value = some p) :
    ∃ zone : Zone, zone.WellFormed ∧ value = zone.text ∧
      p.year = t.year ∧ p.month = t.month ∧ p.day = t.day := by
  obtain ⟨t', rest, hchunk, hend⟩ := exists_of_parseChunks h
  obtain ⟨zone, rfl, hzone, hsame⟩ := of_parseChunk_iso8601ColonTZ hchunk
  rw [parseChunks] at hend
  split at hend
  · rename_i hempty
    cases hend
    rw [List.isEmpty_iff.mp hempty, List.append_nil]
    exact ⟨zone, hzone, rfl, hsame⟩
  · cases hend

theorem Moment.text_fraction {x : Moment} (hnone : x.fraction = none)
    (f : Option (Char × List Char)) : { x with fraction := f }.text = x.text ++ fractionText f := by
  simp [Moment.text, Moment.clockText, hnone, fractionText]

theorem exists_moment {l : LocalZone} {s : String}
    (h : ((parse l rfc3339 s).isSome || (parse l rfc3339Nano s).isSome) = true) :
    ∃ (x : Moment) (zone : Zone), x.WellFormed ∧ zone.WellFormed ∧ x.HasDay ∧
      s.toList = x.text ++ zone.text := by
  have hdate {tail : List Chunk} (hparse : (parse l
      (dateChunks ++ [.text "T"] ++ clockChunks ++ tail) s).isSome = true) :
      ∃ (p : Parsed) (x : Moment) (t : Parsed) (rest : List Char), (p.toTime l).isSome = true ∧
        x.WellFormed ∧ s.toList = x.text ++ rest ∧
        (tail.find? (fun c => !c.isText) = some .fracSecond9 → x.fraction = none) ∧
        t.year = x.year ∧ t.month = some x.month ∧ t.day = some x.day ∧
        parseChunks tail t rest = some p := by
    obtain ⟨time, htime⟩ := Option.isSome_iff_exists.mp hparse
    obtain ⟨p, hp, htime⟩ := Option.bind_eq_some_iff.mp htime
    obtain ⟨x, t, rest, hx⟩ := exists_of_dateClock hp
    exact ⟨p, x, t, rest, by rw [htime]; rfl, hx⟩
  rw [Bool.or_eq_true] at h
  rcases h with h | h
  · obtain ⟨p, x, t, rest, htime, hx, hs, -, hyear, hmonth, hday, hrest⟩ := hdate h
    obtain ⟨zone, hzone, rfl, hyear', hmonth', hday'⟩ := exists_of_zone hrest
    exact ⟨x, zone, hx, hzone, hasDay_of_toTime (hyear'.trans hyear) (hmonth'.trans hmonth)
      (hday'.trans hday) htime, hs⟩
  · obtain ⟨p, x, t, rest, htime, hx, hs, hnone, hyear, hmonth, hday, hrest⟩ :=
      hdate h
    obtain ⟨t', rest', hchunk, hend⟩ := exists_of_parseChunks hrest
    obtain ⟨nsec, f, rfl, rfl, hf⟩ := of_parseChunk_fracSecond9 hchunk
    obtain ⟨zone, hzone, rfl, hyear', hmonth', hday'⟩ := exists_of_zone hend
    refine ⟨{ x with fraction := f }, zone, { hx with fraction := hf }, hzone,
      hasDay_of_toTime (hyear'.trans hyear) (hmonth'.trans hmonth) (hday'.trans hday) htime, ?_⟩
    have htext := Moment.text_fraction (hnone rfl) f
    rw [hs, htext, List.append_assoc]

end Inversion

end Ulpf.Go.Time
