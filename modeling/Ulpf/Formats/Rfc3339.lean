import Ulpf.Go.RFC3339
import Mathlib.Algebra.Order.Field.Rat
import Mathlib.Tactic.Linarith
import Mathlib.Tactic.Positivity
import Mathlib.Tactic.Ring

/-!
Times of RFC 3339 as they are written, and the instants they denote.
-/

namespace Ulpf.Formats

open Ulpf.Lib
open Ulpf.Lib.Text
open Ulpf.Lib.Calendar
open Ulpf.Go
open Ulpf.Go.Time

/-- A zone as it is written: `Z` in either case, or hours and minutes off UTC. -/
inductive ZoneText where
  | utc (lower : Bool)
  | offset (west : Bool) (hours minutes : ℕ)

namespace ZoneText

def text : ZoneText → List Char
  | utc lower => [if lower then 'z' else 'Z']
  | offset west hours minutes =>
      (if west then '-' else '+') :: (twoDigits hours ++ ':' :: twoDigits minutes)

/-- Seconds east of UTC. -/
def seconds : ZoneText → ℤ
  | utc _ => 0
  | offset west hours minutes =>
      if west then -((hours * 60 + minutes) * 60) else (hours * 60 + minutes) * 60

/-- The hours and minutes of an offset are below 24 and 60. -/
def WellFormed : ZoneText → Prop
  | utc _ => True
  | offset _ hours minutes => hours < 24 ∧ minutes < 60

end ZoneText

/-- A date, a time of day, the digits of a fraction of the second and a zone. A second 60 is one
that ends a day of UTC. -/
structure Rfc3339 where
  year : ℕ
  month : ℕ
  day : ℕ
  lowerT : Bool
  hour : ℕ
  min : ℕ
  sec : ℕ
  fraction : List Char
  zone : ZoneText
  year_lt : year < 10000
  month_range : 1 ≤ month ∧ month ≤ 12
  day_range : 1 ≤ day ∧ day ≤ daysIn month year
  hour_lt : hour < 24
  min_lt : min < 60
  sec_le : sec ≤ 60
  leap : sec = 60 → (Calendar.seconds year month day hour min sec - zone.seconds) % 86400 = 0
  digits : ∀ c ∈ fraction, isDigit c = true
  zone_wellFormed : zone.WellFormed

namespace Rfc3339

def fractionPart (ds : List Char) : List Char := if ds.isEmpty then [] else '.' :: ds

/-- A time as RFC 3339 writes it. -/
def text (x : Rfc3339) : List Char :=
  twoDigits (x.year / 100) ++ (twoDigits (x.year % 100) ++ '-' :: (twoDigits x.month ++
    '-' :: (twoDigits x.day ++ (if x.lowerT then 't' else 'T') :: (twoDigits x.hour ++
    ':' :: (twoDigits x.min ++ ':' :: (twoDigits x.sec ++
    (fractionPart x.fraction ++ x.zone.text)))))))

/-- A time up to its seconds. -/
def secondsText (x : Rfc3339) : List Char :=
  twoDigits (x.year / 100) ++ (twoDigits (x.year % 100) ++ '-' :: (twoDigits x.month ++
    '-' :: (twoDigits x.day ++ (if x.lowerT then 't' else 'T') :: (twoDigits x.hour ++
    ':' :: (twoDigits x.min ++ ':' :: twoDigits x.sec)))))

theorem text_eq (x : Rfc3339) :
    x.text = x.secondsText ++ (fractionPart x.fraction ++ x.zone.text) := by
  simp [text, secondsText]

/-- Whole seconds since the epoch that the date and the time of day show in their zone. -/
def localSeconds (x : Rfc3339) : ℤ := Calendar.seconds x.year x.month x.day x.hour x.min x.sec

/-- The second that a time denotes, counted from 1970 on. -/
def unixSeconds (x : Rfc3339) : ℤ := x.localSeconds - x.zone.seconds

/-- The part of a second that a fraction denotes. -/
def fractionValue (x : Rfc3339) : ℚ :=
  ((decimal? x.fraction).getD 0 : ℕ) / (10 ^ x.fraction.length : ℕ)

/-- Seconds since the epoch. -/
def instant (x : Rfc3339) : ℚ := x.unixSeconds + x.fractionValue

section Fractions

variable (x : Rfc3339)

theorem fractionValue_nonneg : 0 ≤ x.fractionValue := by
  rw [fractionValue]
  positivity

theorem fractionValue_lt_one : x.fractionValue < 1 := by
  obtain ⟨n, hn⟩ := Option.isSome_iff_exists.mp (isSome_decimal?_iff.mpr x.digits)
  rw [fractionValue, hn, Option.getD_some, div_lt_one (by positivity)]
  exact_mod_cast lt_of_decimal? hn

theorem unixSeconds_of_whole {n : ℤ} (h : x.instant = n) : n = x.unixSeconds := by
  have hlow := x.fractionValue_nonneg
  have hhigh := x.fractionValue_lt_one
  rw [instant] at h
  have hlt : ((n - x.unixSeconds : ℤ) : ℚ) < ((1 : ℤ) : ℚ) := by
    push_cast
    linarith
  have hle : ((0 : ℤ) : ℚ) ≤ ((n - x.unixSeconds : ℤ) : ℚ) := by
    push_cast
    linarith
  have hlt' := Int.cast_lt.mp hlt
  have hle' := Int.cast_le.mp hle
  omega

end Fractions

section Injectivity

variable {n m : ℕ} {s t : List Char}

theorem twoDigits_append_inj (hn : n < 100) (hm : m < 100)
    (h : twoDigits n ++ s = twoDigits m ++ t) : n = m ∧ s = t := by
  have hnum : getnum (twoDigits n ++ s) true = getnum (twoDigits m ++ t) true := by rw [h]
  rw [getnum_twoDigits hn, getnum_twoDigits hm] at hnum
  exact Prod.mk.inj (Option.some.inj hnum)

theorem isDigit_zone_head (z : ZoneText) : ∃ c tail, z.text = c :: tail ∧ isDigit c = false ∧
    c ≠ '.' := by
  cases z with
  | utc lower => cases lower <;> exact ⟨_, _, rfl, by decide, by decide⟩
  | offset west hours minutes => cases west <;> exact ⟨_, _, rfl, by decide, by decide⟩

theorem zone_eq_of_text_eq {z w : ZoneText} (hz : z.WellFormed) (hw : w.WellFormed)
    (h : z.text = w.text) : z = w := by
  cases z with
  | utc lower =>
      cases w with
      | utc lower' =>
          cases lower <;> cases lower' <;> first | rfl | exact absurd h (by decide)
      | offset west hours minutes =>
          have hhead := (List.cons.inj h).1
          cases lower <;> cases west <;> exact absurd hhead (by decide)
  | offset west hours minutes =>
      cases w with
      | utc lower =>
          have hhead := (List.cons.inj h).1
          cases lower <;> cases west <;> exact absurd hhead (by decide)
      | offset west' hours' minutes' =>
          obtain ⟨hsign, htail⟩ := List.cons.inj h
          obtain ⟨hhours, hminutes⟩ := hz
          obtain ⟨hhours', hminutes'⟩ := hw
          obtain ⟨rfl, hrest⟩ := twoDigits_append_inj (by omega) (by omega) htail
          have hlast : twoDigits minutes ++ [] = twoDigits minutes' ++ [] := by
            rw [(List.cons.inj hrest).2]
          obtain ⟨rfl, -⟩ := twoDigits_append_inj (by omega) (by omega) hlast
          cases west <;> cases west' <;> first | rfl | exact absurd hsign (by decide)

theorem fraction_append_inj {ds ds' : List Char} (hds : ∀ c ∈ ds, isDigit c = true)
    (hds' : ∀ c ∈ ds', isDigit c = true) {z w : ZoneText}
    (h : fractionPart ds ++ z.text = fractionPart ds' ++ w.text) : ds = ds' ∧ z.text = w.text := by
  obtain ⟨c, tail, hz, hc, hdot⟩ := isDigit_zone_head z
  obtain ⟨c', tail', hw, hc', hdot'⟩ := isDigit_zone_head w
  have hspan {es : List Char} (hes : ∀ c ∈ es, isDigit c = true) {d : Char} (hd : isDigit d = false)
      (rest : List Char) : (es ++ d :: rest).takeWhile isDigit = es := by
    rw [List.takeWhile_append_of_pos hes, List.takeWhile_cons_of_neg (by simp [hd]),
      List.append_nil]
  rw [hz, hw] at h ⊢
  cases ds with
  | nil =>
      cases ds' with
      | nil => exact ⟨rfl, h⟩
      | cons d ds' => exact absurd (List.cons.inj h).1 hdot
  | cons d ds =>
      cases ds' with
      | nil => exact absurd (List.cons.inj h).1.symm hdot'
      | cons d' ds' =>
          have hrest : (d :: ds) ++ c :: tail = (d' :: ds') ++ c' :: tail' := (List.cons.inj h).2
          have hsame := congrArg (List.takeWhile isDigit) hrest
          rw [hspan hds hc, hspan hds' hc'] at hsame
          rw [hsame, List.append_right_inj] at hrest
          exact ⟨hsame, hrest⟩

theorem eq_of_text_eq {x y : Rfc3339} (h : x.text = y.text) : x = y := by
  have hx := x.year_lt
  have hy := y.year_lt
  have hmonth := x.month_range
  have hmonth' := y.month_range
  have hday := x.day_range.2.trans (daysIn_le x.month x.year)
  have hday' := y.day_range.2.trans (daysIn_le y.month y.year)
  have hhour := x.hour_lt
  have hhour' := y.hour_lt
  have hmin := x.min_lt
  have hmin' := y.min_lt
  have hsec := x.sec_le
  have hsec' := y.sec_le
  obtain ⟨hcentury, h⟩ := twoDigits_append_inj (by omega) (by omega) h
  obtain ⟨hyear, h⟩ := twoDigits_append_inj (by omega) (by omega) h
  obtain ⟨hmonths, h⟩ := twoDigits_append_inj (by omega) (by omega) (List.cons.inj h).2
  obtain ⟨hdays, h⟩ := twoDigits_append_inj (by omega) (by omega) (List.cons.inj h).2
  obtain ⟨hletter, h⟩ := List.cons.inj h
  obtain ⟨hhours, h⟩ := twoDigits_append_inj (by omega) (by omega) h
  obtain ⟨hmins, h⟩ := twoDigits_append_inj (by omega) (by omega) (List.cons.inj h).2
  obtain ⟨hsecs, h⟩ := twoDigits_append_inj (by omega) (by omega) (List.cons.inj h).2
  obtain ⟨hfraction, h⟩ := fraction_append_inj x.digits y.digits h
  have hzone := zone_eq_of_text_eq x.zone_wellFormed y.zone_wellFormed h
  have hyears : x.year = y.year := by omega
  have hlower : x.lowerT = y.lowerT := by
    cases hx : x.lowerT <;> cases hy : y.lowerT <;> rw [hx, hy] at hletter <;>
      first | rfl | exact absurd hletter (by decide)
  cases x
  cases y
  simp only at hyears hmonths hdays hlower hhours hmins hsecs hfraction hzone
  subst hyears hmonths hdays hlower hhours hmins hsecs hfraction hzone
  rfl

end Injectivity

section Blanks

theorem isSpace_text (x : Rfc3339) : ∀ c ∈ x.text, Unicode.isSpace c = false := by
  have htwo {n : ℕ} (hn : n < 100) : ∀ c ∈ twoDigits n, Unicode.isSpace c = false :=
    fun c hc => isSpace_of_isDigit (isDigit_twoDigits hn c hc)
  have hyear := x.year_lt
  have hmonth := x.month_range
  have hday := x.day_range.2.trans (daysIn_le x.month x.year)
  have hhour := x.hour_lt
  have hmin := x.min_lt
  have hsec := x.sec_le
  have hfraction : ∀ c ∈ fractionPart x.fraction, Unicode.isSpace c = false := by
    rw [fractionPart]
    split
    · exact List.forall_mem_nil _
    · exact List.forall_mem_cons.mpr ⟨rfl, fun c hc => isSpace_of_isDigit (x.digits c hc)⟩
  have hzone : ∀ c ∈ x.zone.text, Unicode.isSpace c = false := by
    have hwell := x.zone_wellFormed
    cases hz : x.zone with
    | utc lower =>
        rw [ZoneText.text, List.forall_mem_singleton]
        cases lower <;> rfl
    | offset west hours minutes =>
        rw [hz] at hwell
        obtain ⟨hhours, hminutes⟩ := hwell
        rw [ZoneText.text, List.forall_mem_cons, List.forall_mem_append, List.forall_mem_cons]
        exact ⟨by cases west <;> rfl, htwo (by omega), rfl, htwo (by omega)⟩
  rw [Rfc3339.text]
  simp only [List.forall_mem_append, List.forall_mem_cons]
  refine ⟨htwo (by omega), htwo (by omega), rfl, htwo (by omega), rfl, htwo (by omega), ?_,
    htwo (by omega), rfl, htwo (by omega), rfl, htwo (by omega), hfraction, hzone⟩
  cases x.lowerT <;> rfl

end Blanks

end Rfc3339

end Ulpf.Formats
