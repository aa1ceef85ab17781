import Ulpf.Go.RFC3339
import Ulpf.Python.IsoFormat

/-!
`datetime.isoformat` of times of UTC, and that the formats of contracts accept what it writes.
-/

namespace Ulpf.Python.IsoFormat

open Ulpf.Lib
open Ulpf.Lib.Text
open Ulpf.Lib.Calendar
open Ulpf.Go.Time
open Ulpf.Python.Datetime (padded)

section Padding

variable {width n : ℕ}

theorem decimal?_zeros (count : ℕ) (ds : List Char) :
    decimal? (List.replicate count '0' ++ ds) = decimal? ds := by
  induction count with
  | zero => rfl
  | succ count ih =>
      rw [List.replicate_succ, List.cons_append, ← ih]
      rfl

theorem digits_padded (hwidth : 0 < width) (h : n < 10 ^ width) :
    Digits width n (padded width n) := by
  have hlength : (Nat.toDigits 10 n).length ≤ width :=
    (Nat.length_toDigits_le_iff (by decide) hwidth).mpr h
  constructor
  · rw [padded, List.length_append, List.length_replicate]
    omega
  · rw [padded, decimal?_zeros, ← toList_numeral, decimal?_numeral]

end Padding

/-- `timespec='auto'`: microseconds are only written when there are any. -/
def microsText (micros : ℕ) : List Char := if micros = 0 then [] else '.' :: padded 6 micros

/-- `isoformat` of a time of UTC, in microseconds since the epoch. -/
def isoformat (t : ℤ) : String :=
  let sec := t / 10 ^ 6
  let (year, month, day) := civilFromDays (sec / secondsPerDay)
  let second := (sec % secondsPerDay).toNat
  String.ofList (padded 4 year.toNat ++ '-' :: (padded 2 month ++ '-' :: (padded 2 day ++
    'T' :: (padded 2 (second / 3600) ++ ':' :: (padded 2 (second / 60 % 60) ++
    ':' :: (padded 2 (second % 60) ++
    (microsText (t % 10 ^ 6).toNat ++ ['+', '0', '0', ':', '0', '0'])))))))

/-- A time of a year that a `datetime` can show. -/
def Showable (t : ℤ) : Prop :=
  seconds 1 1 1 0 0 0 * 10 ^ 6 ≤ t ∧ t < (seconds 9999 12 31 23 59 59 + 1) * 10 ^ 6

instance (t : ℤ) : Decidable (Showable t) := inferInstanceAs (Decidable (_ ∧ _))

section Readable

variable {t : ℤ}

/-- The date and the time of day that `isoformat` writes. -/
def momentOf (t : ℤ) : Moment :=
  let sec := t / 10 ^ 6
  let (year, month, day) := civilFromDays (sec / secondsPerDay)
  let second := (sec % secondsPerDay).toNat
  let micros := (t % 10 ^ 6).toNat
  { year := year.toNat
    month := month
    day := day
    hour := second / 3600
    min := second / 60 % 60
    sec := second % 60
    yearText := padded 4 year.toNat
    monthText := padded 2 month
    dayText := padded 2 day
    hourText := padded 2 (second / 3600)
    minText := padded 2 (second / 60 % 60)
    secText := padded 2 (second % 60)
    fraction := if micros = 0 then none else some ('.', padded 6 micros) }

theorem fractionText_momentOf (t : ℤ) :
    fractionText (momentOf t).fraction = microsText (t % 10 ^ 6).toNat := by
  show fractionText (if (t % 10 ^ 6).toNat = 0 then none else some _) = _
  rw [microsText]
  split <;> rfl

theorem isoformat_eq (t : ℤ) : isoformat t =
    String.ofList ((momentOf t).text ++ ['+', '0', '0', ':', '0', '0']) := by
  simp only [Moment.text, Moment.clockText, fractionText_momentOf, List.append_assoc,
    List.cons_append]
  rfl

theorem exists_date_of_showable (h : Showable t) : ∃ year month day : ℕ,
    civilFromDays (t / 10 ^ 6 / secondsPerDay) = (↑year, month, day) ∧ (1 ≤ month ∧ month ≤ 12) ∧
      (1 ≤ day ∧ day ≤ daysIn month year) ∧ 1 ≤ year ∧ year < 10000 := by
  have hstart : seconds 1 1 1 0 0 0 = -62135596800 := by decide
  have hend : seconds 9999 12 31 23 59 59 = 253402300799 := by decide
  rw [Showable, hstart, hend] at h
  have hfour : FourDigitYear (t / 10 ^ 6) := by
    rw [FourDigitYear, firstSecond, endSecond]
    omega
  obtain ⟨year, month, day, hcivil, hmonth, hday, hdays, hyear⟩ := exists_date hfour
  refine ⟨year, month, day, hcivil, hmonth, hday, ?_, hyear⟩
  have hfirst : yearStart 1 = -719162 := by decide
  have hlow := civilFromDays_lt_iff hcivil 1
  rw [hfirst] at hlow
  omega

theorem isFraction_micros {micros : ℕ} (h : micros < 10 ^ 6) :
    IsFraction ('.', padded 6 micros) := by
  have hdigits := digits_padded (by decide) h
  refine ⟨rfl, ?_, isDigit_of_digits hdigits⟩
  rw [← List.length_pos_iff]
  show 0 < (padded 6 micros).length
  rw [hdigits.length]
  decide

theorem momentOf_eq {year month day : ℕ}
    (hcivil : civilFromDays (t / 10 ^ 6 / secondsPerDay) = (↑year, month, day)) :
    momentOf t =
      { year := year
        month := month
        day := day
        hour := (t / 10 ^ 6 % secondsPerDay).toNat / 3600
        min := (t / 10 ^ 6 % secondsPerDay).toNat / 60 % 60
        sec := (t / 10 ^ 6 % secondsPerDay).toNat % 60
        yearText := padded 4 year
        monthText := padded 2 month
        dayText := padded 2 day
        hourText := padded 2 ((t / 10 ^ 6 % secondsPerDay).toNat / 3600)
        minText := padded 2 ((t / 10 ^ 6 % secondsPerDay).toNat / 60 % 60)
        secText := padded 2 ((t / 10 ^ 6 % secondsPerDay).toNat % 60)
        fraction := if (t % 10 ^ 6).toNat = 0 then none
          else some ('.', padded 6 (t % 10 ^ 6).toNat) } := by
  rw [momentOf]
  simp only [hcivil]
  rfl

theorem wellFormed_momentOf (h : Showable t) : (momentOf t).WellFormed ∧ (momentOf t).HasDay ∧
    1 ≤ (momentOf t).year ∧ (momentOf t).hourText.length = 2 := by
  obtain ⟨year, month, day, hcivil, hmonth, hday, hyear, hlast⟩ := exists_date_of_showable h
  have hlength := daysIn_le month year
  have hsecond : (t / 10 ^ 6 % secondsPerDay).toNat < 86400 := by
    rw [secondsPerDay]
    omega
  have hmicros : (t % 10 ^ 6).toNat < 10 ^ 6 := by omega
  rw [momentOf_eq hcivil]
  generalize (t / 10 ^ 6 % secondsPerDay).toNat = second at hsecond
  generalize (t % 10 ^ 6).toNat = micros at hmicros
  have htwo (n : ℕ) (hn : n < 100) : Digits 2 n (padded 2 n) := digits_padded (by decide) hn
  have hhour := htwo (second / 3600) (by omega)
  refine ⟨?_, hday, hyear, hhour.length⟩
  constructor
  · exact digits_padded (by decide) hlast
  · exact htwo month (by omega)
  · exact htwo day (by omega)
  · exact .inl hhour
  · exact htwo (second / 60 % 60) (by omega)
  · exact htwo (second % 60) (by omega)
  · intro f hf
    dsimp only at hf
    split at hf
    · cases hf
    · cases hf
      exact isFraction_micros hmicros
  · exact hmonth
  · show second / 3600 < 24
    omega
  · show second / 60 % 60 < 60
    omega
  · show second % 60 < 60
    omega

theorem not_mem_plus {x : Moment} (hx : x.WellFormed) : '+' ∉ x.text := by
  have hdigits {s : List Char} (h : ∀ c ∈ s, isDigit c = true) : '+' ∉ s :=
    fun hplus => absurd (h '+' hplus) (by decide)
  have hclock : '+' ∉ x.clockText := fun hplus =>
    absurd (not_startsZone_of_clockText hx '+' hplus) (by decide)
  simp [Moment.text, hclock, hdigits (isDigit_of_digits hx.year),
    hdigits (isDigit_of_digits hx.month), hdigits (isDigit_of_digits hx.day)]

theorem replace_isoformat (h : Showable t) :
    replaceAll (isoformat t) "+00:00" "Z" = String.ofList ((momentOf t).text ++ ['Z']) := by
  rw [isoformat_eq]
  show String.ofList (replace ['+', '0', '0', ':', '0', '0'] ['Z'] _) = _
  rw [String.toList_ofList, replace_append_of_notMem (not_mem_plus (wellFormed_momentOf h).1)]

theorem readable_isoformat (h : Showable t) :
    readable (replaceAll (isoformat t) "+00:00" "Z") = true := by
  obtain ⟨hx, hday, hyear, hhour⟩ := wellFormed_momentOf h
  have hzone : Zone.utc.WellFormed := trivial
  refine (readable_iff hx hzone hday ?_).mpr ⟨hyear, hhour, by decide⟩
  rw [replace_isoformat h, String.toList_ofList]
  rfl

end Readable

end Ulpf.Python.IsoFormat
