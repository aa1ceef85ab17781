import Ulpf.Go.Instants
import Ulpf.ParserRuntime.Whitelist

/-!
The instants that `TransformTimestamp` keeps, and the texts it leaves as they are.
-/

namespace Ulpf.ParserRuntime

open Ulpf.Lib
open Ulpf.Lib.Text
open Ulpf.Lib.Calendar
open Ulpf.Go
open Ulpf.Go.Time
open Ulpf.Formats
open Ulpf.Formats.Rfc3339

section Texts

variable {p : Platform} {x : Rfc3339}

theorem parseInt?_text (x : Rfc3339) : parseInt? (String.ofList x.text) = none := by
  rw [Option.eq_none_iff_forall_ne_some]
  intro n hn
  have hyear := x.year_lt
  have hhead : isDigit (Nat.digitChar (x.year / 100 / 10)) = true :=
    isDigit_twoDigits (n := x.year / 100) (by omega) _ List.mem_cons_self
  have hdash : '-' ∈ x.text := List.mem_of_getElem? (i := 4) rfl
  have hdigit := (digits_of_parseInt? hhead hn).1 '-' hdash
  exact absurd hdigit (by decide)

theorem transformTimestamp_str {s : List Char} (hspace : ∀ c ∈ s, Unicode.isSpace c = false)
    (hint : parseInt? (String.ofList s) = none) :
    transformTimestamp p (.str (String.ofList s)) =
      (timestampLayouts.findSome? fun layout =>
        Go.Time.parse p.localZone layout (String.ofList s)).elim
          (.error (.unparsableTimestamp (String.ofList s)))
          fun t => .ok (String.ofList ((withYear p t).formatRFC3339 false)) := by
  simp only [transformTimestamp, trimSpace_of_forall hspace, hint]
  cases timestampLayouts.findSome? fun layout =>
      Go.Time.parse p.localZone layout (String.ofList s) with
  | none => rfl
  | some t => rfl

theorem transformTimestamp_readable (p : Platform) (hx : Readable x) : ∃ t,
    transformTimestamp p (.str (String.ofList x.text)) =
      .ok (String.ofList ((withYear p t).formatRFC3339 false)) ∧ t.sec = x.unixSeconds ∧
        offsetAt p.localZone t.location t.sec = x.zone.seconds := by
  obtain ⟨t, hparse, hsec, hoffset⟩ := parse_text hx p.localZone
  refine ⟨t, ?_, hsec, hoffset⟩
  rw [transformTimestamp_str (isSpace_text x) (parseInt?_text x), timestampLayouts,
    List.findSome?_cons, hparse, Option.elim_some]

theorem local_eq {t : Time} (hsec : t.sec = x.unixSeconds)
    (hoffset : offsetAt p.localZone t.location t.sec = x.zone.seconds) :
    t.sec + offsetAt p.localZone t.location t.sec = x.localSeconds := by
  rw [hoffset, hsec, unixSeconds, sub_add_cancel]

theorem transformTimestamp_text (p : Platform) (hx : Readable x) (hyear : x.year ≠ 0) {t : Time}
    (ht : t.sec = x.unixSeconds) : transformTimestamp p (.str (String.ofList x.text)) =
      .ok (String.ofList (t.formatRFC3339 false)) := by
  obtain ⟨t', hresult, hsec, hoffset⟩ := transformTimestamp_readable p hx
  have hlocal := local_eq hsec hoffset
  rw [hresult, withYear, if_neg (mt (year_eq hx.sec hlocal).mp hyear),
    formatRFC3339_congr (hsec.trans ht.symm)]

theorem abs_seconds_le (x : Rfc3339) : |x.zone.seconds| ≤ 86400 := by
  have hwell := x.zone_wellFormed
  rw [abs_le]
  cases hz : x.zone with
  | utc lower =>
      show -86400 ≤ (0 : ℤ) ∧ (0 : ℤ) ≤ 86400
      decide
  | offset west hours minutes =>
      rw [hz] at hwell
      obtain ⟨hhours, hminutes⟩ := hwell
      cases west
      · show -86400 ≤ ((hours * 60 + minutes) * 60 : ℤ) ∧ ((hours * 60 + minutes) * 60 : ℤ) ≤ 86400
        omega
      · show -86400 ≤ -((hours * 60 + minutes) * 60 : ℤ) ∧
          -((hours * 60 + minutes) * 60 : ℤ) ≤ 86400
        omega

theorem transformTimestamp_zero (hx : Readable x) (hyear : x.year = 0) : ∃ t : Time,
    transformTimestamp .plain (.str (String.ofList x.text)) =
      .ok (String.ofList (t.formatRFC3339 false)) ∧ x.unixSeconds < t.sec ∧ IsInt64 t.sec := by
  obtain ⟨t, hresult, hsec, hoffset⟩ := transformTimestamp_readable .plain hx
  have hlocal := local_eq hsec hoffset
  have hnow : Platform.plain.nowYear = 2025 := by decide
  have habs : |offsetAt .utc t.location t.sec| ≤ 86400 := by
    show |offsetAt Platform.plain.localZone t.location t.sec| ≤ 86400
    rw [hoffset]
    exact abs_seconds_le x
  obtain ⟨hlater, hfits⟩ :
      t.sec < (t.addYears .utc 2025).sec ∧ IsInt64 (t.addYears .utc 2025).sec :=
    lt_addYears hx.sec hyear hlocal habs (by decide)
  refine ⟨t.addYears .utc 2025, ?_, by rw [← hsec]; exact hlater, hfits⟩
  rw [hresult, withYear, if_pos ((year_eq hx.sec hlocal).mpr hyear), hnow]
  rfl

theorem parse_eq_none {l : LocalZone} {layout : List Chunk} {s : List Char}
    (h : parseChunks layout Parsed.empty s = none) :
    Go.Time.parse l layout (String.ofList s) = none := by
  rw [Go.Time.parse, String.toList_ofList, h]
  rfl

theorem transformTimestamp_refused {c : Char} {rest : List Char} (hc : isDigit c = true)
    (hspace : ∀ d ∈ c :: rest, Unicode.isSpace d = false)
    (hint : parseInt? (String.ofList (c :: rest)) = none)
    (hstamp : ∀ tail ∈ zoneTails, parseChunks (dateChunks ++ .text "T" :: (clockChunks ++ tail))
      Parsed.empty (c :: rest) = none)
    (hblank : ∀ chunks, parseChunks (dateChunks ++ .text " " :: chunks) Parsed.empty (c :: rest) =
      none) :
    transformTimestamp p (.str (String.ofList (c :: rest))) =
      .error (.unparsableTimestamp (String.ofList (c :: rest))) := by
  have hname {chunk : Chunk} (hchunk : chunk = .month ∨ chunk = .weekDay) (chunks : List Chunk) :
      parseChunks (chunk :: chunks) Parsed.empty (c :: rest) = none :=
    parseChunks_name hc hchunk chunks rest
  have hnone : (timestampLayouts.findSome? fun layout =>
      Go.Time.parse p.localZone layout (String.ofList (c :: rest))) = none := by
    rw [List.findSome?_eq_none_iff]
    intro layout hlayout
    apply parse_eq_none
    simp only [timestampLayouts, List.mem_cons, List.not_mem_nil, or_false] at hlayout
    obtain rfl | rfl | rfl | rfl | rfl | rfl | rfl | rfl | rfl | rfl | rfl | rfl := hlayout
    · exact hstamp [.fracSecond9, .iso8601ColonTZ] (by decide)
    · exact hstamp [.iso8601ColonTZ] (by decide)
    · exact hstamp [.fracSecond0 3, .text "Z"] (by decide)
    · exact hstamp [.text "Z"] (by decide)
    · exact hblank _
    · exact hblank _
    · exact hname (.inl rfl) _
    · exact hname (.inl rfl) _
    · exact hname (.inl rfl) _
    · exact hname (.inl rfl) _
    · exact hname (.inr rfl) _
    · exact hname (.inr rfl) _
  rw [transformTimestamp_str hspace hint, hnone, Option.elim_none]

theorem transformTimestamp_unreadable (p : Platform) (hx : ¬ Readable x) :
    transformTimestamp p (.str (String.ofList x.text)) =
      .error (.unparsableTimestamp (String.ofList x.text)) := by
  have hyear := x.year_lt
  have hhead : isDigit (Nat.digitChar (x.year / 100 / 10)) = true :=
    isDigit_twoDigits (n := x.year / 100) (by omega) _ List.mem_cons_self
  apply transformTimestamp_refused hhead (isSpace_text x) (parseInt?_text x)
  · intro tail htail
    show parseChunks _ _ x.text = none
    cases hlower : x.lowerT with
    | true => exact parseChunks_otherLetter (c := 'T') rfl (by rw [hlower]; decide) _
    | false =>
        rw [parseChunks_date, hlower, if_neg Bool.false_ne_true,
          parseChunks_cons _ _ _ _ (parseChunk_text _ _ _ (c := 'T') "T" rfl (by decide))]
        by_cases hzone : x.zone = .utc true
        · exact parseChunks_lowerZone hzone htail
        · have hsec := x.sec_le
          exact parseChunks_leap (by_contra fun hne => hx ⟨hlower, hzone, by omega⟩) tail
  · intro chunks
    exact parseChunks_otherLetter (x := x) (c := ' ') rfl (by cases x.lowerT <;> decide) chunks

theorem transformTimestamp_digits_large (p : Platform) {ds : List Char} (hne : ds ≠ [])
    (hds : ∀ c ∈ ds, isDigit c = true) (hlarge : 2 ^ 63 ≤ Nat.ofDigitChars 10 ds 0) :
    transformTimestamp p (.str (String.ofList ds)) =
      .error (.unparsableTimestamp (String.ofList ds)) := by
  obtain ⟨c, rest, rfl⟩ := List.exists_cons_of_ne_nil hne
  have hc := hds c List.mem_cons_self
  have hint : parseInt? (String.ofList (c :: rest)) = none := by
    rw [Option.eq_none_iff_forall_ne_some]
    intro n hn
    obtain ⟨-, hvalue, hsmall⟩ := digits_of_parseInt? hc hn
    omega
  exact transformTimestamp_refused hc (fun d hd => isSpace_of_isDigit (hds d hd)) hint
    (fun tail _ => parseChunks_digits hds _) fun chunks => parseChunks_digits hds _

theorem transformTimestamp_digits (p : Platform) {ds : List Char} (hne : ds ≠ [])
    (hds : ∀ c ∈ ds, isDigit c = true) (hsmall : Nat.ofDigitChars 10 ds 0 < 2 ^ 63) :
    transformTimestamp p (.str (String.ofList ds)) =
      .ok (timestampOfInt (Nat.ofDigitChars 10 ds 0 : ℕ)) := by
  simp only [transformTimestamp, trimSpace_of_forall fun c hc => isSpace_of_isDigit (hds c hc),
    parseInt?_digits hne hds hsmall]

end Texts

section Instants

/-- Whatever the machine and its time zone, a value becomes the text of an instant, and the text
becomes itself. -/
def KeepsInstant (val : Value) (q : ℚ) : Prop :=
  ∀ p, ∃ out, transformTimestamp p val = .ok out ∧
    (∃ y : Rfc3339, out = String.ofList y.text ∧ y.instant = q) ∧
    transformTimestamp p (.str out) = .ok out

/-- The first second of the year 1. -/
def firstKept : ℤ := -62135596800

variable {val : Value} {q : ℚ} {t : Time}

theorem year_eq_zero_iff {y : Rfc3339} (hsec : y.sec < 60) :
    y.year = 0 ↔ y.localSeconds < firstKept := by
  have hday : 1 ≤ y.day ∧ y.day ≤ 31 :=
    ⟨y.day_range.1, y.day_range.2.trans (daysIn_le y.month y.year)⟩
  have hiff : daysFromCivil y.year y.month y.day < yearStart 1 ↔ _ :=
    daysFromCivil_lt_iff y.month_range hday 1
  have hfirst : yearStart 1 = -719162 := by decide
  rw [hfirst, ← localSeconds_eq hsec] at hiff
  rw [firstKept]
  omega

theorem readable_of_utc {y : Rfc3339} (hlower : y.lowerT = false) (hzone : y.zone = .utc false)
    (hsec : y.sec < 60) : Readable y ∧ y.unixSeconds = y.localSeconds := by
  refine ⟨⟨hlower, fun hlowerZone => ?_, hsec⟩, ?_⟩
  · rw [hzone] at hlowerZone
    cases hlowerZone
  · rw [unixSeconds, hzone]
    exact sub_zero _

/-- A value that becomes a text of whole seconds keeps its instant when that is this second, in
one of the years 1 to 9999. -/
theorem keepsInstant_whole (hfits : IsInt64 t.sec)
    (hval : ∀ p, transformTimestamp p val = .ok (String.ofList (t.formatRFC3339 false))) :
    KeepsInstant val q ↔ q = t.sec ∧ firstKept ≤ t.sec ∧ t.sec < endSecond := by
  constructor
  · intro hkeeps
    obtain ⟨out, hout, ⟨y, rfl, hinstant⟩, hagain⟩ := hkeeps .plain
    rw [hval, Except.ok.injEq, String.ofList_inj] at hout
    obtain ⟨hsecond, hyears⟩ := instant_of_formatRFC3339 hfits hout
    obtain ⟨x, hx, hlower, hzone, hsec, hlocal, -⟩ := exists_text false hyears
    obtain rfl : x = y := eq_of_text_eq (hx.symm.trans hout)
    refine ⟨hinstant.symm.trans hsecond, ?_, hyears.2⟩
    by_contra hearly
    obtain ⟨hreadable, hunix⟩ := readable_of_utc hlower hzone hsec
    have hyear := (year_eq_zero_iff hsec).mpr (by omega)
    obtain ⟨t', hmoved, hlater, hfits'⟩ := transformTimestamp_zero hreadable hyear
    rw [hmoved, Except.ok.injEq, String.ofList_inj] at hagain
    have hmoved := (instant_of_formatRFC3339 hfits' hagain).1
    rw [hmoved, Int.cast_inj] at hsecond
    omega
  · rintro ⟨rfl, hfirst, hend⟩ p
    have hyears : FourDigitYear t.sec := by
      rw [firstKept] at hfirst
      rw [FourDigitYear, firstSecond]
      omega
    obtain ⟨x, hx, hlower, hzone, hsec, hlocal, -⟩ := exists_text false hyears
    obtain ⟨hreadable, hunix⟩ := readable_of_utc hlower hzone hsec
    have hyear : x.year ≠ 0 := mt (year_eq_zero_iff hsec).mp (by omega)
    refine ⟨_, hval p, ⟨x, by rw [hx], (instant_of_formatRFC3339 hfits hx).1⟩, ?_⟩
    rw [hx, transformTimestamp_text p hreadable hyear (hlocal.symm.trans hunix.symm), hx]

theorem keepsInstant_nanos (hfits : IsInt64 t.sec) (hyears : firstKept ≤ t.sec ∧ t.sec < endSecond)
    (hval : ∀ p, transformTimestamp p val = .ok (String.ofList (t.formatRFC3339 true))) :
    KeepsInstant val q ↔ q = t.sec ∧ nanoDigits t.nsec = [] := by
  have hfour : FourDigitYear t.sec := by
    obtain ⟨hfirst, hend⟩ := hyears
    rw [firstKept] at hfirst
    rw [FourDigitYear, firstSecond]
    omega
  obtain ⟨x, hx, hlower, hzone, hsec, hlocal, hfraction⟩ := exists_text true hfour
  obtain ⟨hreadable, hunix⟩ := readable_of_utc hlower hzone hsec
  have hyear : x.year ≠ 0 := mt (year_eq_zero_iff hsec).mp (by omega)
  have hagain := transformTimestamp_text .plain hreadable hyear (hlocal.symm.trans hunix.symm)
  by_cases hnone : nanoDigits t.nsec = []
  · have hsame : t.formatRFC3339 true = t.formatRFC3339 false := by
      obtain ⟨core, hcore⟩ := exists_formatRFC3339 t
      rw [hcore, hcore, if_pos rfl, appendNano_eq, hnone]
      rfl
    rw [keepsInstant_whole hfits fun p => by rw [hval, hsame], and_iff_left hyears,
      and_iff_left hnone]
  · refine iff_of_false (fun hkeeps => ?_) fun h => hnone h.2
    obtain ⟨out, hout, -, hsame⟩ := hkeeps .plain
    rw [hval, Except.ok.injEq] at hout
    rw [← hout, hx, hagain, Except.ok.injEq, String.ofList_inj] at hsame
    obtain ⟨y, hy, -, -, -, -, hnofraction⟩ := exists_text false hfour
    obtain rfl : y = x := eq_of_text_eq (hy.symm.trans hsame)
    rw [hnofraction] at hfraction
    exact hnone hfraction.symm

end Instants

/-- The units in which seconds are counted. -/
inductive TimeUnit where
  | seconds
  | milliseconds
  | nanoseconds
  deriving DecidableEq

namespace TimeUnit

def perSecond : TimeUnit → ℕ
  | seconds => 1
  | milliseconds => 10 ^ 3
  | nanoseconds => 10 ^ 9

/-- The unit that `TransformTimestamp` takes a count to be in. -/
def ofSize (n : ℤ) : TimeUnit :=
  if 10 ^ 18 < n then nanoseconds else if 10 ^ 11 < n then milliseconds else seconds

/-- Whole seconds of a count in the unit of its size. -/
def wholeSeconds (n : ℤ) : ℤ := n / (ofSize n).perSecond

theorem perSecond_pos (unit : TimeUnit) : 0 < unit.perSecond := by
  cases unit <;> decide

theorem div_eq_intCast_iff (unit : TimeUnit) (n sec : ℤ) :
    (n : ℚ) / unit.perSecond = sec ↔ n = sec * unit.perSecond := by
  have hpos : (unit.perSecond : ℚ) ≠ 0 := by exact_mod_cast unit.perSecond_pos.ne'
  rw [div_eq_iff hpos]
  exact_mod_cast Iff.rfl

variable {unit : TimeUnit} {n : ℤ}

/-- A count that is those seconds in some unit is in the unit of its size, or zero. -/
theorem eq_ofSize (h : n = wholeSeconds n * unit.perSecond) : unit = ofSize n ∨ n = 0 := by
  rw [wholeSeconds, ofSize] at h
  rw [ofSize]
  split_ifs at h ⊢ <;> cases unit <;> simp only [perSecond] at h <;>
    first | exact .inl rfl | exact .inr (by omega)

theorem wholeSeconds_eq {sec : ℤ} (hunit : unit = ofSize n ∨ n = 0)
    (h : n = sec * unit.perSecond) : wholeSeconds n = sec := by
  have hpos : (unit.perSecond : ℤ) ≠ 0 := by exact_mod_cast unit.perSecond_pos.ne'
  obtain rfl | rfl := hunit
  · rw [wholeSeconds]
    exact Int.ediv_eq_of_eq_mul_left hpos h
  · obtain rfl := (mul_eq_zero.mp h.symm).resolve_right hpos
    rfl

end TimeUnit

section Counts

open TimeUnit

variable {val : Value} {n : ℤ}

theorem exists_timestampOfInt (n : ℤ) : ∃ t : Time, t.sec = wholeSeconds n ∧
    timestampOfInt n = String.ofList (t.formatRFC3339 (10 ^ 18 < n)) ∧
    (10 ^ 18 < n → (t.nsec : ℤ) = n % 10 ^ 9) := by
  rw [timestampOfInt, wholeSeconds, ofSize]
  by_cases hnanos : 10 ^ 18 < n
  · rw [if_pos hnanos, if_pos hnanos, decide_eq_true hnanos]
    refine ⟨unix 0 n, zero_add _, rfl, fun _ => ?_⟩
    show ((n % 10 ^ 9).toNat : ℤ) = n % 10 ^ 9
    omega
  · rw [if_neg hnanos, if_neg hnanos, decide_eq_false hnanos]
    by_cases hmillis : 10 ^ 11 < n
    · rw [if_pos hmillis, if_pos hmillis]
      refine ⟨unix (n / 1000) (n % 1000 * 10 ^ 6), ?_, rfl, fun h => absurd h hnanos⟩
      show n / 1000 + n % 1000 * 10 ^ 6 / 10 ^ 9 = n / 1000
      omega
    · rw [if_neg hmillis, if_neg hmillis]
      refine ⟨unix n 0, ?_, rfl, fun h => absurd h hnanos⟩
      show n + 0 / 10 ^ 9 = n / 1
      omega

theorem keepsInstant_wholeSeconds (unit : TimeUnit) (hfits : IsInt64 n)
    (hval : ∀ p, transformTimestamp p val = .ok (timestampOfInt n)) :
    KeepsInstant val ((n : ℚ) / unit.perSecond) ↔
      n = wholeSeconds n * unit.perSecond ∧ firstKept ≤ wholeSeconds n ∧
        wholeSeconds n < endSecond := by
  obtain ⟨t, hsec, hwritten, hnsec⟩ := exists_timestampOfInt n
  have hfits' : IsInt64 t.sec := by
    rw [IsInt64] at hfits ⊢
    rw [hsec, wholeSeconds, ofSize]
    split_ifs <;> simp only [perSecond] <;> omega
  rw [← unit.div_eq_intCast_iff, ← hsec]
  by_cases hnanos : 10 ^ 18 < n
  · rw [decide_eq_true hnanos] at hwritten
    have hyears : firstKept ≤ t.sec ∧ t.sec < endSecond := by
      rw [IsInt64] at hfits
      rw [hsec, wholeSeconds, ofSize, if_pos hnanos, firstKept, endSecond]
      simp only [perSecond]
      omega
    rw [keepsInstant_nanos hfits' hyears fun p => by rw [hval, hwritten]]
    refine and_congr_right fun hwhole => iff_of_true ?_ hyears
    rw [unit.div_eq_intCast_iff, hsec] at hwhole
    have hunit := (eq_ofSize hwhole).resolve_right (by omega)
    rw [hunit, wholeSeconds, ofSize, if_pos hnanos] at hwhole
    simp only [perSecond] at hwhole
    have hzero : t.nsec = 0 := by
      have hnsec := hnsec hnanos
      omega
    rw [hzero]
    exact nanoDigits_zero
  · rw [decide_eq_false hnanos] at hwritten
    exact keepsInstant_whole hfits' fun p => by rw [hval, hwritten]

/-- A count keeps its instant when it is in the unit of its size, or zero, and one of whole
seconds from the year 1 to the year 9999. -/
theorem keepsInstant_count (unit : TimeUnit) (hfits : IsInt64 n)
    (hval : ∀ p, transformTimestamp p val = .ok (timestampOfInt n)) :
    KeepsInstant val ((n : ℚ) / unit.perSecond) ↔ (unit = ofSize n ∨ n = 0) ∧
      ∃ sec : ℤ, (n : ℚ) / unit.perSecond = sec ∧ firstKept ≤ sec ∧ sec < endSecond := by
  rw [keepsInstant_wholeSeconds unit hfits hval]
  simp only [unit.div_eq_intCast_iff]
  constructor
  · rintro ⟨hwhole, hyears⟩
    exact ⟨eq_ofSize hwhole, _, hwhole, hyears⟩
  · rintro ⟨hunit, sec, hwhole, hyears⟩
    rw [wholeSeconds_eq hunit hwhole]
    exact ⟨hwhole, hyears⟩

end Counts

section Inputs

/-- What a timestamp field may hold: a time of RFC 3339, or a count of seconds, milliseconds or
nanoseconds as a number or as digits. -/
inductive TimeInput where
  | text (x : Rfc3339)
  | int64 (unit : TimeUnit) (n : ℤ) (fits : IsInt64 n)
  | digits (unit : TimeUnit) (ds : List Char) (nonempty : ds ≠ [])
      (digits : ∀ c ∈ ds, isDigit c = true)

namespace TimeInput

def value : TimeInput → Value
  | text x => .str (String.ofList x.text)
  | int64 _ n _ => .int64 n
  | digits _ ds _ _ => .str (String.ofList ds)

/-- Seconds since the epoch. -/
def instant : TimeInput → ℚ
  | text x => x.instant
  | int64 unit n _ => (n : ℚ) / unit.perSecond
  | digits unit ds _ _ => ((Nat.ofDigitChars 10 ds 0 : ℕ) : ℤ) / unit.perSecond

/-- What `TransformTimestamp` reads as it is meant: a time in upper case with no leap second and
with a year, and a count of 63 bits in the unit of its size. -/
def Understood : TimeInput → Prop
  | text x => Readable x ∧ x.year ≠ 0
  | int64 unit n _ => unit = .ofSize n ∨ n = 0
  | digits unit ds _ _ => Nat.ofDigitChars 10 ds 0 < 2 ^ 63 ∧
      (unit = .ofSize (Nat.ofDigitChars 10 ds 0 : ℕ) ∨ ((Nat.ofDigitChars 10 ds 0 : ℕ) : ℤ) = 0)

end TimeInput

theorem not_keepsInstant_of_error {val : Value} {q : ℚ} {err : CoercionError}
    (h : transformTimestamp .plain val = .error err) : ¬ KeepsInstant val q := by
  intro hkeeps
  obtain ⟨out, hout, -⟩ := hkeeps .plain
  rw [h] at hout
  cases hout

theorem keepsInstant_text (x : Rfc3339) :
    KeepsInstant (.str (String.ofList x.text)) x.instant ↔ (Readable x ∧ x.year ≠ 0) ∧
      ∃ sec : ℤ, x.instant = sec ∧ firstKept ≤ sec ∧ sec < endSecond := by
  by_cases hreadable : Readable x
  · by_cases hyear : x.year = 0
    · refine iff_of_false (fun hkeeps => ?_) fun h => h.1.2 hyear
      obtain ⟨t, hmoved, hlater, hfits⟩ := transformTimestamp_zero hreadable hyear
      obtain ⟨out, hout, ⟨y, rfl, hinstant⟩, -⟩ := hkeeps .plain
      rw [hmoved, Except.ok.injEq, String.ofList_inj] at hout
      have hsecond := (instant_of_formatRFC3339 hfits hout).1
      have hsame := x.unixSeconds_of_whole (hinstant.symm.trans hsecond)
      omega
    · have hfits : IsInt64 x.unixSeconds := by
        have hlocal := fourDigitYear_localSeconds hreadable.sec
        have hzone := abs_le.mp (abs_seconds_le x)
        rw [FourDigitYear, firstSecond, endSecond] at hlocal
        rw [IsInt64, unixSeconds]
        omega
      rw [keepsInstant_whole (t := ⟨x.unixSeconds, 0, .utc⟩) hfits
        fun p => transformTimestamp_text p hreadable hyear rfl]
      constructor
      · rintro ⟨hwhole, hyears⟩
        exact ⟨⟨hreadable, hyear⟩, _, hwhole, hyears⟩
      · rintro ⟨-, sec, hwhole, hyears⟩
        obtain rfl := x.unixSeconds_of_whole hwhole
        exact ⟨hwhole, hyears⟩
  · exact iff_of_false (not_keepsInstant_of_error (transformTimestamp_unreadable _ hreadable))
      fun h => hreadable h.1.1

/-- `TransformTimestamp` keeps the instant of what it understands, and its own text, exactly when
that is a whole second of the years 1 to 9999. -/
theorem keepsInstant_iff (i : TimeInput) : KeepsInstant i.value i.instant ↔ i.Understood ∧
    ∃ sec : ℤ, i.instant = sec ∧ firstKept ≤ sec ∧ sec < endSecond := by
  cases i with
  | text x => exact keepsInstant_text x
  | int64 unit n fits => exact keepsInstant_count unit fits fun p => rfl
  | digits unit ds hne hds =>
      by_cases hsmall : Nat.ofDigitChars 10 ds 0 < 2 ^ 63
      · have hfits : IsInt64 (Nat.ofDigitChars 10 ds 0 : ℕ) := by
          rw [IsInt64]
          omega
        have hcount := keepsInstant_count unit hfits
          fun p => transformTimestamp_digits p hne hds hsmall
        rw [TimeInput.Understood, and_iff_right hsmall]
        exact hcount
      · exact iff_of_false (not_keepsInstant_of_error
          (transformTimestamp_digits_large _ hne hds (not_lt.mp hsmall))) fun h => hsmall h.1.1

/-- The nanoseconds of a count are lost when its text is read again. -/
theorem not_keepsInstant_nanoseconds :
    ¬ ∀ i : TimeInput, KeepsInstant i.value i.instant := by
  intro hall
  obtain ⟨out, hout, -, hagain⟩ :=
    hall (.int64 .nanoseconds 1760000000123456789 (by decide)) .plain
  have hfirst : transformTimestamp .plain (.int64 1760000000123456789) =
      .ok "2025-10-09T08:53:20.123456789Z" := by
    decide +kernel
  have hsecond : transformTimestamp .plain (.str "2025-10-09T08:53:20.123456789Z") =
      .ok "2025-10-09T08:53:20Z" := by
    decide +kernel
  obtain rfl := Except.ok.inj (hfirst.symm.trans hout)
  have hsame := Except.ok.inj (hsecond.symm.trans hagain)
  revert hsame
  decide

end Inputs

end Ulpf.ParserRuntime
