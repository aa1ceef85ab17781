import Ulpf.Go.Time

/-!
Times between the years 0 and 9999 read back from their RFC 3339 texts.
-/

namespace Ulpf.Go.Time

open Ulpf.Lib
open Ulpf.Lib.Text
open Ulpf.Lib.Calendar

section Digits

def twoDigits (n : ℕ) : List Char := [Nat.digitChar (n / 10), Nat.digitChar (n % 10)]

theorem digit?_digitChar {d : ℕ} (h : d < 10) : digit? (Nat.digitChar d) = some d := by
  interval_cases d <;> rfl

theorem appendInt_natCast (n width : ℕ) : appendInt n width =
    List.replicate (width - (Nat.toDigits 10 n).length) '0' ++ Nat.toDigits 10 n := by
  rw [appendInt, if_neg (by omega), List.nil_append, Int.natAbs_natCast]

theorem appendInt_succ (n width : ℕ) (hwidth : 0 < width) : appendInt n (width + 1) =
    appendInt (n / 10 : ℕ) width ++ [Nat.digitChar (n % 10)] := by
  rw [appendInt_natCast, appendInt_natCast]
  by_cases hn : n < 10
  · have hquotient : n / 10 = 0 := by omega
    have hremainder : n % 10 = n := by omega
    obtain ⟨w, rfl⟩ : ∃ w, width = w + 1 := ⟨width - 1, by omega⟩
    rw [hquotient, hremainder, Nat.toDigits_of_lt_base hn, Nat.toDigits_zero]
    show List.replicate (w + 1) '0' ++ [Nat.digitChar n] = List.replicate w '0' ++ ['0'] ++ _
    rw [List.replicate_succ']
  · rw [Nat.toDigits_of_base_le (by omega) (by omega), List.length_append, List.length_singleton,
      Nat.add_sub_add_right, List.append_assoc]

theorem appendInt_two {n : ℕ} (h : n < 100) : appendInt n 2 = twoDigits n := by
  have hquotient : n / 10 < 10 := by omega
  rw [appendInt_succ n 1 (by omega), appendInt_natCast, Nat.toDigits_of_lt_base hquotient]
  rfl

theorem appendInt_four {n : ℕ} (h : n < 10000) :
    appendInt n 4 = twoDigits (n / 100) ++ twoDigits (n % 100) := by
  have hhundreds : n / 10 / 10 < 100 := by omega
  have hsplit : n / 10 / 10 = n / 100 ∧ n / 10 % 10 = n % 100 / 10 ∧ n % 10 = n % 100 % 10 := by
    omega
  rw [appendInt_succ n 3 (by omega), appendInt_succ (n / 10) 2 (by omega), appendInt_two hhundreds,
    hsplit.1, hsplit.2.1, hsplit.2.2]
  rfl

theorem getnum_twoDigits {n : ℕ} (h : n < 100) (rest : List Char) (fixed : Bool) :
    getnum (twoDigits n ++ rest) fixed = some (n, rest) := by
  have htens : digit? (Nat.digitChar (n / 10)) = some (n / 10) := digit?_digitChar (by omega)
  have hones : digit? (Nat.digitChar (n % 10)) = some (n % 10) := digit?_digitChar (by omega)
  rw [twoDigits, List.cons_append, List.cons_append, List.nil_append, getnum, htens, hones]
  show some (10 * (n / 10) + n % 10, rest) = _
  rw [Nat.div_add_mod]

theorem isDigit_twoDigits {n : ℕ} (hn : n < 100) : ∀ c ∈ twoDigits n, isDigit c = true := by
  have hdigit {d : ℕ} (hd : d < 10) : isDigit (Nat.digitChar d) = true := by
    rw [isDigit, digit?_digitChar hd]
    rfl
  rw [twoDigits, List.forall_mem_cons, List.forall_mem_singleton]
  exact ⟨hdigit (by omega), hdigit (by omega)⟩

theorem decimal?_fourDigits {n : ℕ} (h : n < 10000) :
    decimal? (twoDigits (n / 100) ++ twoDigits (n % 100)) = some n := by
  have hdigits : digit? (Nat.digitChar (n / 100 / 10)) = some (n / 100 / 10) ∧
      digit? (Nat.digitChar (n / 100 % 10)) = some (n / 100 % 10) ∧
      digit? (Nat.digitChar (n % 100 / 10)) = some (n % 100 / 10) ∧
      digit? (Nat.digitChar (n % 100 % 10)) = some (n % 100 % 10) := by
    refine ⟨?_, ?_, ?_, ?_⟩ <;> exact digit?_digitChar (by omega)
  obtain ⟨h1, h2, h3, h4⟩ := hdigits
  simp only [twoDigits, decimal?, List.cons_append, List.nil_append, List.foldl_cons,
    List.foldl_nil, h1, h2, h3, h4]
  show some (10 * (10 * (10 * (10 * 0 + n / 100 / 10) + n / 100 % 10) + n % 100 / 10) +
    n % 100 % 10) = some n
  congr 1
  omega

end Digits

section Dates

/-- The first second of the year 0 and the one after the year 9999. -/
def firstSecond : ℤ := -62167219200

/-- The first second of the year 10000. -/
def endSecond : ℤ := 253402300800

def FourDigitYear (sec : ℤ) : Prop := firstSecond ≤ sec ∧ sec < endSecond

theorem clock_eq {sec : ℤ} (h : FourDigitYear sec) : clock sec = (sec / 86400, sec % 86400) := by
  simp only [FourDigitYear, firstSecond, endSecond] at h
  simp only [clock, absoluteToUnix, secondsPerDay, Prod.mk.injEq]
  omega

theorem daysOfYears_bounds {y : ℤ} (h : 0 ≤ y ∧ y < 400) :
    0 ≤ daysOfYears y ∧ daysOfYears y ≤ y * 365 + 96 := by
  rw [daysOfYears]
  omega

theorem daysBefore_bounds (month : ℤ) (h : 0 ≤ month ∧ month ≤ 11) :
    0 ≤ daysBefore month ∧ daysBefore month ≤ 337 ∧ (month ≤ 9 → daysBefore month ≤ 275) ∧
      (10 ≤ month → 306 ≤ daysBefore month) := by
  rw [daysBefore]
  omega

/-- A year with more digits, or before the year 0, is outside these days. -/
theorem year_bounds {days year : ℤ} {month day : ℕ} (h : civilFromDays days = (year, month, day))
    (hdays : -719528 ≤ days ∧ days < 2932897) : 0 ≤ year ∧ year ≤ 9999 := by
  obtain ⟨hmonth, hday, hcivil⟩ := civilFromDays_spec h
  have hlength : daysIn month year ≤ 31 := by
    rw [daysIn]
    split_ifs <;> omega
  rw [daysFromCivil_eq] at hcivil
  split at hcivil
  · rename_i hwinter
    have hbefore := daysBefore_bounds (month + 9) (by omega)
    have hyears := daysOfYears_bounds (y := (year - 1) % 400) (by omega)
    by_contra hyear
    obtain hlow | hhigh : year ≤ -1 ∨ 10000 ≤ year := by omega
    · omega
    · by_cases hlast : year = 10000
      · subst hlast
        have heraEnd : daysOfYears ((10000 - 1) % 400) = 145731 := by decide
        omega
      · omega
  · have hbefore := daysBefore_bounds (month - 3) (by omega)
    have hyears := daysOfYears_bounds (y := year % 400) (by omega)
    omega

theorem exists_date {sec : ℤ} (h : FourDigitYear sec) : ∃ year month day : ℕ,
    civilFromDays (sec / 86400) = (↑year, month, day) ∧ (1 ≤ month ∧ month ≤ 12) ∧
      (1 ≤ day ∧ day ≤ daysIn month year) ∧ daysFromCivil year month day = sec / 86400 ∧
      year < 10000 := by
  cases hcivil : civilFromDays (sec / 86400) with
  | mk year date =>
      obtain ⟨month, day⟩ := date
      simp only [FourDigitYear, firstSecond, endSecond] at h
      obtain ⟨hmonth, hday, hdays⟩ := civilFromDays_spec hcivil
      obtain ⟨hyear0, hyear⟩ := year_bounds hcivil (by omega)
      obtain ⟨y, rfl⟩ := Int.eq_ofNat_of_zero_le hyear0
      exact ⟨y, month, day, rfl, hmonth, hday, hdays, by omega⟩

theorem daysIn_le (month : ℕ) (year : ℤ) : daysIn month year ≤ 31 := by
  rw [daysIn]
  split_ifs <;> omega

end Dates

/-- A date and a time of day as RFC 3339 writes them in UTC. -/
def rfc3339Text (year month day hour min sec : ℕ) : List Char :=
  twoDigits (year / 100) ++ (twoDigits (year % 100) ++ '-' :: (twoDigits month ++
    '-' :: (twoDigits day ++ 'T' :: (twoDigits hour ++ ':' :: (twoDigits min ++
    ':' :: (twoDigits sec ++ ['Z']))))))

def secondOfDay (sec : ℤ) : ℕ := (sec % 86400).toNat

theorem formatRFC3339_eq {t : Time} {year month day : ℕ} (h : FourDigitYear t.sec)
    (hcivil : civilFromDays (t.sec / 86400) = (↑year, month, day)) (hyear : year < 10000)
    (hmonth : month < 100) (hday : day < 100) :
    t.formatRFC3339 false = rfc3339Text year month day (secondOfDay t.sec / 3600)
      (secondOfDay t.sec / 60 % 60) (secondOfDay t.sec % 60) := by
  have hsecond : t.sec % 86400 = secondOfDay t.sec := by
    rw [secondOfDay]
    omega
  have hbound : secondOfDay t.sec < 86400 := by
    rw [secondOfDay]
    omega
  simp only [Time.formatRFC3339, clock_eq h, hcivil, hsecond]
  rw [show ((secondOfDay t.sec : ℤ) / 3600) = (secondOfDay t.sec / 3600 : ℕ) from rfl,
    show ((secondOfDay t.sec : ℤ) / 60 % 60) = (secondOfDay t.sec / 60 % 60 : ℕ) from rfl,
    show ((secondOfDay t.sec : ℤ) % 60) = (secondOfDay t.sec % 60 : ℕ) from rfl,
    appendInt_four hyear, appendInt_two hmonth, appendInt_two hday,
    appendInt_two (n := secondOfDay t.sec / 3600) (by omega),
    appendInt_two (n := secondOfDay t.sec / 60 % 60) (by omega),
    appendInt_two (n := secondOfDay t.sec % 60) (by omega)]
  simp [rfc3339Text]

section RoundTrip

variable (next : Option Chunk) (t : Parsed) (rest : List Char)

theorem parseChunk_text {c : Char} (s : String) (hs : s.toList = [c]) (hc : c ≠ ' ') :
    parseChunk next t (c :: rest) (.text s) = some (t, rest) := by
  rw [parseChunk, hs]
  simp [skip, hc]

theorem parseChunk_longYear {n : ℕ} (h : n < 10000) :
    parseChunk next t (twoDigits (n / 100) ++ (twoDigits (n % 100) ++ rest)) .longYear =
      some ({ t with year := n }, rest) := by
  have hlength : ¬ (twoDigits (n / 100) ++ (twoDigits (n % 100) ++ rest)).length < 4 := by
    simp [twoDigits]
  have htake : (twoDigits (n / 100) ++ (twoDigits (n % 100) ++ rest)).take 4 =
      twoDigits (n / 100) ++ twoDigits (n % 100) := rfl
  rw [parseChunk, if_neg hlength, htake, decimal?_fourDigits h]
  rfl

theorem parseChunk_zeroMonth {n : ℕ} (h : 1 ≤ n ∧ n ≤ 12) :
    parseChunk next t (twoDigits n ++ rest) .zeroMonth =
      some ({ t with month := some n }, rest) := by
  rw [parseChunk, getnum_twoDigits (by omega)]
  show (if n = 0 ∨ 12 < n then none else some ({ t with month := some n }, rest)) = _
  rw [if_neg (by omega)]

theorem parseChunk_zeroDay {n : ℕ} (h : n < 100) :
    parseChunk next t (twoDigits n ++ rest) .zeroDay = some ({ t with day := some n }, rest) := by
  rw [parseChunk, getnum_twoDigits h]
  rfl

theorem parseChunk_hour {n : ℕ} (h : n < 24) :
    parseChunk next t (twoDigits n ++ rest) .hour = some ({ t with hour := n }, rest) := by
  rw [parseChunk, getnum_twoDigits (by omega)]
  show (if 24 ≤ n then none else some ({ t with hour := n }, rest)) = _
  rw [if_neg (by omega)]

theorem parseChunk_zeroMinute {n : ℕ} (h : n < 60) :
    parseChunk next t (twoDigits n ++ rest) .zeroMinute = some ({ t with min := n }, rest) := by
  rw [parseChunk, getnum_twoDigits (by omega)]
  show (if 60 ≤ n then none else some ({ t with min := n }, rest)) = _
  rw [if_neg (by omega)]

theorem parseChunk_zeroSecond {n : ℕ} (h : n < 60) (hrest : startsFraction rest = false) :
    parseChunk next t (twoDigits n ++ rest) .zeroSecond = some ({ t with sec := n }, rest) := by
  unfold parseChunk
  rw [getnum_twoDigits (by omega)]
  show (if 60 ≤ n then none else
    if startsFraction rest && _ then _ else some ({ t with sec := n }, rest)) = _
  rw [if_neg (by omega), hrest, Bool.false_and, if_neg Bool.false_ne_true]

theorem parseChunks_cons (chunk : Chunk) (chunks : List Chunk) (value : List Char)
    {t' : Parsed} {value' : List Char}
    (h : parseChunk (chunks.find? fun c => !c.isText) t value chunk = some (t', value')) :
    parseChunks (chunk :: chunks) t value = parseChunks chunks t' value' := by
  rw [parseChunks, h]
  rfl

theorem parseChunks_rfc3339 {year month day hour min sec : ℕ} (hyear : year < 10000)
    (hmonth : 1 ≤ month ∧ month ≤ 12) (hday : day < 100) (hhour : hour < 24) (hmin : min < 60)
    (hsec : sec < 60) :
    parseChunks rfc3339 Parsed.empty (rfc3339Text year month day hour min sec) =
      some { Parsed.empty with
        year := year, month := some month, day := some day, hour := hour, min := min, sec := sec
        utc := true } := by
  rw [rfc3339, dateChunks, clockChunks, rfc3339Text]
  simp only [List.cons_append, List.nil_append]
  rw [parseChunks_cons _ _ _ _ (parseChunk_longYear _ _ _ hyear),
    parseChunks_cons _ _ _ _ (parseChunk_text _ _ _ (c := '-') "-" rfl (by decide)),
    parseChunks_cons _ _ _ _ (parseChunk_zeroMonth _ _ _ hmonth),
    parseChunks_cons _ _ _ _ (parseChunk_text _ _ _ (c := '-') "-" rfl (by decide)),
    parseChunks_cons _ _ _ _ (parseChunk_zeroDay _ _ _ hday),
    parseChunks_cons _ _ _ _ (parseChunk_text _ _ _ (c := 'T') "T" rfl (by decide)),
    parseChunks_cons _ _ _ _ (parseChunk_hour _ _ _ hhour),
    parseChunks_cons _ _ _ _ (parseChunk_text _ _ _ (c := ':') ":" rfl (by decide)),
    parseChunks_cons _ _ _ _ (parseChunk_zeroMinute _ _ _ hmin),
    parseChunks_cons _ _ _ _ (parseChunk_text _ _ _ (c := ':') ":" rfl (by decide)),
    parseChunks_cons _ _ _ _ (parseChunk_zeroSecond _ _ _ hsec rfl)]
  rfl

end RoundTrip

theorem parse_formatRFC3339 (l : LocalZone) {t : Time} (h : FourDigitYear t.sec) :
    parse l rfc3339 (String.ofList (t.formatRFC3339 false)) = some ⟨t.sec, 0, .utc⟩ := by
  obtain ⟨year, month, day, hcivil, hmonth, hday, hdays, hyear⟩ := exists_date h
  have hlength := daysIn_le month year
  have hsecond : (secondOfDay t.sec : ℤ) = t.sec % 86400 := by
    rw [secondOfDay]
    omega
  rw [parse, String.toList_ofList, formatRFC3339_eq h hcivil hyear (by omega) (by omega),
    parseChunks_rfc3339 hyear hmonth (by omega) (by omega) (by omega) (by omega)]
  show (if day < 1 ∨ daysIn month year < day then none
    else some (⟨seconds year month day (secondOfDay t.sec / 3600) (secondOfDay t.sec / 60 % 60)
      (secondOfDay t.sec % 60), 0, .utc⟩ : Time)) = _
  have hseconds : seconds year month day (secondOfDay t.sec / 3600) (secondOfDay t.sec / 60 % 60)
      (secondOfDay t.sec % 60) = t.sec := by
    rw [seconds, hdays, secondsPerDay]
    omega
  rw [if_neg (by omega), hseconds]

end Ulpf.Go.Time
