import Ulpf.Lib.Binary64
import Mathlib.Tactic.FieldSimp
import Mathlib.Tactic.Linarith
import Mathlib.Tactic.Positivity
import Mathlib.Tactic.Ring

/-!
Error bounds and thresholds of the roundings to binary64 and to decimals: where
a rounded quotient passes a bound, and that decimals of four places keep their
order when they are rounded to binary64.
-/

namespace Ulpf.Lib.Binary64

section Integers

variable {q : ℚ} {n : ℤ}

/-- The rounded integer is at most a half away, and even when it is a half away. -/
theorem roundHalfEven_spec (q : ℚ) :
    (roundHalfEven q - 1 / 2 ≤ q ∧ q ≤ roundHalfEven q + 1 / 2) ∧
      (q = roundHalfEven q - 1 / 2 ∨ q = roundHalfEven q + 1 / 2 → roundHalfEven q % 2 = 0) := by
  have hfloor := Int.floor_le q
  have hlt := Int.lt_floor_add_one q
  rw [roundHalfEven]
  generalize ⌊q⌋ = f at hfloor hlt
  split_ifs with hlow hhigh heven
  · refine ⟨⟨by linarith, by linarith⟩, ?_⟩
    rintro (htie | htie)
    · linarith
    · linarith
  · push_cast
    refine ⟨⟨by linarith, by linarith⟩, ?_⟩
    rintro (htie | htie)
    · linarith
    · linarith
  · exact ⟨⟨by linarith, by linarith⟩, fun _ => heven⟩
  · push_cast
    exact ⟨⟨by linarith, by linarith⟩, fun _ => by omega⟩

theorem le_roundHalfEven_iff_of_even (hn : n % 2 = 0) :
    n ≤ roundHalfEven q ↔ (n : ℚ) - 1 / 2 ≤ q := by
  obtain ⟨⟨hlow, hhigh⟩, htie⟩ := roundHalfEven_spec q
  generalize roundHalfEven q = r at *
  constructor
  · intro h
    have hcast : (n : ℚ) ≤ r := by exact_mod_cast h
    linarith
  · intro h
    by_contra hlt
    have hr : r + 1 ≤ n := by omega
    have hcast : (r : ℚ) + 1 ≤ n := by exact_mod_cast hr
    have heven := htie (Or.inr (by linarith))
    have heq : r + 1 = n := by
      have hle : (n : ℚ) ≤ r + 1 := by linarith
      have : n ≤ r + 1 := by exact_mod_cast hle
      omega
    omega

theorem le_roundHalfEven_iff_of_odd (hn : n % 2 = 1) :
    n ≤ roundHalfEven q ↔ (n : ℚ) - 1 / 2 < q := by
  obtain ⟨⟨hlow, hhigh⟩, htie⟩ := roundHalfEven_spec q
  generalize roundHalfEven q = r at *
  constructor
  · intro h
    have hcast : (n : ℚ) ≤ r := by exact_mod_cast h
    apply lt_of_le_of_ne (by linarith)
    intro heq
    have heven := htie (Or.inl (by linarith))
    have hle : (r : ℚ) ≤ n := by linarith
    have : r ≤ n := by exact_mod_cast hle
    omega
  · intro h
    by_contra hlt
    have hr : r + 1 ≤ n := by omega
    have hcast : (r : ℚ) + 1 ≤ n := by exact_mod_cast hr
    linarith

theorem roundHalfEven_nonneg (h : 0 ≤ q) : 0 ≤ roundHalfEven q := by
  rw [le_roundHalfEven_iff_of_even rfl]
  push_cast
  linarith

theorem roundHalfEven_monotone {r : ℚ} (h : q ≤ r) : roundHalfEven q ≤ roundHalfEven r := by
  obtain heven | hodd := Int.emod_two_eq_zero_or_one (roundHalfEven q)
  · rw [le_roundHalfEven_iff_of_even heven]
    exact ((le_roundHalfEven_iff_of_even heven).mp le_rfl).trans h
  · rw [le_roundHalfEven_iff_of_odd hodd]
    exact ((le_roundHalfEven_iff_of_odd hodd).mp le_rfl).trans_le h

end Integers

section Nearest

variable {q : ℚ} {e : ℤ}

theorem pow2_eq_zpow (e : ℤ) : pow2 e = 2 ^ e := by
  cases e with
  | ofNat n => simp [pow2]
  | negSucc n => simp [pow2, zpow_negSucc]

theorem pow2_pos (e : ℤ) : 0 < pow2 e := by
  rw [pow2_eq_zpow]
  exact zpow_pos (by norm_num) e

theorem pow2_le_pow2 {d e : ℤ} (h : d ≤ e) : pow2 d ≤ pow2 e := by
  rw [pow2_eq_zpow, pow2_eq_zpow]
  exact zpow_le_zpow_right₀ (by norm_num) h

theorem pow2_lt_pow2_iff {d e : ℤ} : pow2 d < pow2 e ↔ d < e := by
  rw [pow2_eq_zpow, pow2_eq_zpow]
  exact zpow_lt_zpow_iff_right₀ (by norm_num)

theorem pow2_log_bounds (hq : 0 < q) :
    pow2 ((q.num.natAbs.log2 : ℤ) - q.den.log2 - 1) ≤ q ∧
      q < pow2 ((q.num.natAbs.log2 : ℤ) - q.den.log2 + 1) := by
  have hnum : q.num.natAbs ≠ 0 := by
    have := Rat.num_pos.mpr hq
    omega
  have hden : (0 : ℚ) < q.den := by exact_mod_cast q.den_pos
  have hval : q = (q.num.natAbs : ℚ) / q.den := by
    conv_lhs => rw [← Rat.num_div_den q]
    rw [← Int.cast_natCast q.num.natAbs, Int.natAbs_of_nonneg (Rat.num_pos.mpr hq).le]
  have hnumLow : (2 : ℚ) ^ q.num.natAbs.log2 ≤ q.num.natAbs := by
    exact_mod_cast Nat.log2_self_le hnum
  have hnumHigh : (q.num.natAbs : ℚ) < 2 ^ (q.num.natAbs.log2 + 1) := by
    exact_mod_cast Nat.lt_log2_self
  have hdenLow : (2 : ℚ) ^ q.den.log2 ≤ q.den := by
    exact_mod_cast Nat.log2_self_le q.den_nz
  have hdenHigh : (q.den : ℚ) < 2 ^ (q.den.log2 + 1) := by
    exact_mod_cast Nat.lt_log2_self
  generalize q.num.natAbs.log2 = a at *
  generalize q.den.log2 = b at *
  have hlow : pow2 ((a : ℤ) - b - 1) = 2 ^ a / 2 ^ (b + 1) := by
    rw [pow2_eq_zpow, sub_sub, zpow_sub₀ (by norm_num)]
    norm_cast
  have hhigh : pow2 ((a : ℤ) - b + 1) = 2 ^ (a + 1) / 2 ^ b := by
    rw [pow2_eq_zpow, show (a : ℤ) - b + 1 = (a + 1 : ℕ) - b by push_cast; ring,
      zpow_sub₀ (by norm_num)]
    norm_cast
  rw [hlow, hhigh]
  constructor
  · calc (2 : ℚ) ^ a / 2 ^ (b + 1) ≤ q.num.natAbs / q.den :=
          div_le_div₀ (by positivity) hnumLow hden hdenHigh.le
      _ = q := hval.symm
  · calc q = q.num.natAbs / q.den := hval
      _ < 2 ^ (a + 1) / 2 ^ b := div_lt_div₀ hnumHigh hdenLow (by positivity) (by positivity)

theorem exponent_spec (hq : 0 < q) : pow2 (exponent q) ≤ q ∧ q < pow2 (exponent q + 1) := by
  obtain ⟨hlow, hhigh⟩ := pow2_log_bounds hq
  rw [exponent]
  split
  · rename_i hle
    exact ⟨hle, hhigh⟩
  · rename_i hlt
    rw [sub_add_cancel]
    exact ⟨hlow, not_le.mp hlt⟩

theorem abs_nearest_sub_le (q : ℚ) :
    |nearest q - q| ≤ pow2 (max (exponent q - 52) (-1074)) / 2 := by
  rw [nearest]
  generalize max (exponent q - 52) (-1074) = k
  have hpos := pow2_pos k
  obtain ⟨⟨hlow, hhigh⟩, -⟩ := roundHalfEven_spec (q / pow2 k)
  generalize roundHalfEven (q / pow2 k) = r at *
  rw [le_div_iff₀ hpos] at hlow
  rw [div_le_iff₀ hpos] at hhigh
  rw [abs_le]
  constructor
  · linarith
  · linarith

theorem exponent_lt_of_lt (hq : 0 < q) (h : q < pow2 e) : exponent q < e := by
  have hlow := (exponent_spec hq).1
  exact pow2_lt_pow2_iff.mp (lt_of_le_of_lt hlow h)

theorem le_exponent_of_le (hq : 0 < q) (h : pow2 e ≤ q) : e ≤ exponent q := by
  have hhigh := (exponent_spec hq).2
  have := pow2_lt_pow2_iff.mp (lt_of_le_of_lt h hhigh)
  omega

theorem nearest_nonneg (h : 0 ≤ q) : 0 ≤ nearest q := by
  rw [nearest]
  have hpos := pow2_pos (max (exponent q - 52) (-1074))
  have hround := roundHalfEven_nonneg (div_nonneg h hpos.le)
  exact mul_nonneg (by exact_mod_cast hround) hpos.le

theorem fl_nonneg (h : 0 ≤ q) : 0 ≤ fl q := by
  rw [fl]
  split_ifs with hzero hpos
  · exact le_rfl
  · exact nearest_nonneg h
  · exact absurd (lt_of_le_of_ne h (Ne.symm hzero)) hpos

theorem fl_neg (q : ℚ) : fl (-q) = - fl q := by
  obtain hneg | rfl | hpos := lt_trichotomy q 0
  · rw [fl, if_neg (by linarith), if_pos (by linarith), fl, if_neg hneg.ne, if_neg hneg.not_gt,
      neg_neg]
  · simp
  · rw [fl, if_neg (by linarith), if_neg (by linarith), neg_neg, fl, if_neg hpos.ne', if_pos hpos]

theorem nearest_le_pow2 (h : q ≤ pow2 e) (hunit : max (exponent q - 52) (-1074) ≤ e) :
    nearest q ≤ pow2 e := by
  rw [nearest]
  obtain ⟨m, hm⟩ := Int.eq_ofNat_of_zero_le (sub_nonneg.mpr hunit)
  generalize max (exponent q - 52) (-1074) = k at *
  have hpow : pow2 e = ((2 ^ m : ℤ) : ℚ) * pow2 k := by
    rw [pow2_eq_zpow, pow2_eq_zpow, show e = (m : ℤ) + k by omega, zpow_add₀ two_ne_zero,
      zpow_natCast]
    norm_cast
  have hround : roundHalfEven (q / pow2 k) ≤ 2 ^ m := by
    calc roundHalfEven (q / pow2 k) ≤ roundHalfEven ((2 ^ m : ℤ) : ℚ) := by
          apply roundHalfEven_monotone
          rwa [div_le_iff₀ (pow2_pos k), ← hpow]
      _ = 2 ^ m := roundHalfEven_intCast _
  rw [hpow]
  exact mul_le_mul_of_nonneg_right (by exact_mod_cast hround) (pow2_pos k).le

theorem pow2_exponent_le_nearest (hq : 0 < q) (hnormal : -1074 ≤ exponent q - 52) :
    pow2 (exponent q) ≤ nearest q := by
  rw [nearest, max_eq_left hnormal]
  have hpow : pow2 (exponent q) = ((2 ^ 52 : ℤ) : ℚ) * pow2 (exponent q - 52) := by
    rw [pow2_eq_zpow, pow2_eq_zpow, sub_eq_add_neg, zpow_add₀ two_ne_zero]
    norm_num
    ring
  have hround : 2 ^ 52 ≤ roundHalfEven (q / pow2 (exponent q - 52)) := by
    calc (2 ^ 52 : ℤ) = roundHalfEven ((2 ^ 52 : ℤ) : ℚ) := (roundHalfEven_intCast _).symm
      _ ≤ roundHalfEven (q / pow2 (exponent q - 52)) := by
          apply roundHalfEven_monotone
          rw [le_div_iff₀ (pow2_pos _), ← hpow]
          exact (exponent_spec hq).1
  calc pow2 (exponent q) = ((2 ^ 52 : ℤ) : ℚ) * pow2 (exponent q - 52) := hpow
    _ ≤ roundHalfEven (q / pow2 (exponent q - 52)) * pow2 (exponent q - 52) :=
        mul_le_mul_of_nonneg_right (by exact_mod_cast hround) (pow2_pos _).le

theorem nearest_le_nearest {r : ℚ} (hq : 0 < q) (h : q ≤ r) : nearest q ≤ nearest r := by
  have hr := hq.trans_le h
  have hexp : exponent q ≤ exponent r := le_exponent_of_le hr ((exponent_spec hq).1.trans h)
  obtain hunit | hunit :=
    (max_le_max_right (-1074) (sub_le_sub_right hexp 52)).eq_or_lt
  · rw [nearest, nearest, hunit]
    have hpos := pow2_pos (max (exponent r - 52) (-1074))
    apply mul_le_mul_of_nonneg_right _ hpos.le
    exact_mod_cast roundHalfEven_monotone (div_le_div_of_nonneg_right h hpos.le)
  · have hbelow : exponent q + 1 ≤ exponent r := by omega
    calc nearest q ≤ pow2 (exponent r) :=
          nearest_le_pow2 ((exponent_spec hq).2.le.trans (pow2_le_pow2 hbelow)) (by omega)
      _ ≤ nearest r := pow2_exponent_le_nearest hr (by omega)

theorem fl_monotone : Monotone fl := by
  intro q r h
  obtain hneg | hnonneg := lt_or_ge r 0
  · have hmono := nearest_le_nearest (neg_pos.mpr hneg) (neg_le_neg h)
    rw [fl, if_neg (h.trans_lt hneg).ne, if_neg (h.trans_lt hneg).not_gt, fl, if_neg hneg.ne,
      if_neg hneg.not_gt]
    exact neg_le_neg hmono
  · obtain hpos | hnonpos := lt_or_ge 0 q
    · rw [fl, if_neg hpos.ne', if_pos hpos, fl, if_neg (hpos.trans_le h).ne',
        if_pos (hpos.trans_le h)]
      exact nearest_le_nearest hpos h
    · have hneg := fl_nonneg (neg_nonneg.mpr hnonpos)
      rw [fl_neg] at hneg
      exact (neg_nonneg.mp hneg).trans (fl_nonneg hnonneg)

theorem abs_nearest_sub_le_of_lt_two (hq : 0 < q) (h : q < 2) : |nearest q - q| ≤ 1 / 2 ^ 53 := by
  have hexp : exponent q < 1 := exponent_lt_of_lt hq (by
    rw [pow2_eq_zpow]
    norm_num
    exact h)
  calc |nearest q - q| ≤ pow2 (max (exponent q - 52) (-1074)) / 2 := abs_nearest_sub_le q
    _ ≤ pow2 (-52) / 2 := by
        apply div_le_div_of_nonneg_right _ (by norm_num)
        apply pow2_le_pow2
        omega
    _ = 1 / 2 ^ 53 := by
        rw [pow2_eq_zpow]
        norm_num

theorem abs_fl_sub_le (h : |q| < 2) : |fl q - q| ≤ 1 / 2 ^ 53 := by
  obtain hneg | rfl | hpos := lt_trichotomy q 0
  · have hbound := abs_nearest_sub_le_of_lt_two (neg_pos.mpr hneg) (lt_of_abs_lt (by rwa [abs_neg]))
    rw [fl, if_neg hneg.ne, if_neg hneg.not_gt]
    rw [abs_sub_comm] at hbound
    calc |(-nearest (-q)) - q| = |(-q) - nearest (-q)| := by
          congr 1
          ring
      _ ≤ 1 / 2 ^ 53 := hbound
  · simp
  · rw [fl, if_neg hpos.ne', if_pos hpos]
    exact abs_nearest_sub_le_of_lt_two hpos (lt_of_abs_lt h)

theorem fl_lt_one_of_lt_half (h0 : 0 ≤ q) (h : q < 1 / 2) : fl q < 1 := by
  have herr := abs_fl_sub_le (q := q) (by
    rw [abs_lt]
    constructor
    · linarith
    · linarith)
  have hbound := (abs_le.mp herr).2
  norm_num at hbound
  linarith

/-- The upper half of the unit interval has one exponent. -/
theorem fl_of_half_le (h : 1 / 2 ≤ q) (h1 : q < 1) :
    fl q = roundHalfEven (q * 2 ^ 53) / 2 ^ 53 := by
  have hpos : 0 < q := by linarith
  have hlt : exponent q < 0 := exponent_lt_of_lt hpos (by
    rw [pow2_eq_zpow]
    simpa using h1)
  have hle : -1 ≤ exponent q := le_exponent_of_le hpos (by
    rw [pow2_eq_zpow]
    norm_num
    linarith)
  have hexp : max (exponent q - 52) (-1074) = -53 := by omega
  have hunit : pow2 (-53) = 1 / 2 ^ 53 := by
    rw [pow2_eq_zpow]
    norm_num
  rw [fl, if_neg hpos.ne', if_pos hpos, nearest, hexp, hunit, div_div_eq_mul_div, div_one,
    mul_one_div]

theorem fl_eq_one_iff (h0 : 0 ≤ q) (h1 : q ≤ 1) : fl q = 1 ↔ 1 - 1 / 2 ^ 54 ≤ q := by
  obtain rfl | hlt := eq_or_lt_of_le h1
  · simp
  obtain hsmall | hlarge := lt_or_ge q (1 / 2)
  · have hfl := fl_lt_one_of_lt_half h0 hsmall
    constructor
    · intro h
      exact absurd h hfl.ne
    · intro h
      norm_num at h
      linarith
  · rw [fl_of_half_le hlarge hlt, div_eq_one_iff_eq (by positivity)]
    have hspec := (roundHalfEven_spec (q * 2 ^ 53)).1.1
    have hreach := le_roundHalfEven_iff_of_even (q := q * 2 ^ 53) (n := 2 ^ 53) (by norm_num)
    generalize roundHalfEven (q * 2 ^ 53) = r at hspec hreach
    have hbelow : r ≤ 2 ^ 53 := by
      have hlt' : (r : ℚ) < 2 ^ 53 + 1 := by linarith
      have : r < 2 ^ 53 + 1 := by exact_mod_cast hlt'
      omega
    push_cast at hreach
    constructor
    · intro h
      have heq : r = 2 ^ 53 := by exact_mod_cast h
      have := hreach.mp heq.ge
      linarith
    · intro h
      have heq : r = 2 ^ 53 := le_antisymm hbelow (hreach.mpr (by linarith))
      rw [heq]
      norm_num

theorem fl_mem_Icc (h : q ∈ Set.Icc 0 1) : fl q ∈ Set.Icc 0 1 := by
  obtain ⟨h0, h1⟩ := h
  refine ⟨fl_nonneg h0, ?_⟩
  obtain rfl | hlt := eq_or_lt_of_le h1
  · exact fl_one.le
  obtain hsmall | hlarge := lt_or_ge q (1 / 2)
  · exact (fl_lt_one_of_lt_half h0 hsmall).le
  · rw [fl_of_half_le hlarge hlt, div_le_one (by positivity)]
    have hspec := (roundHalfEven_spec (q * 2 ^ 53)).1.1
    generalize roundHalfEven (q * 2 ^ 53) = r at hspec
    have hbelow : (r : ℚ) < 2 ^ 53 + 1 := by linarith
    have hle : r < 2 ^ 53 + 1 := by exact_mod_cast hbelow
    exact_mod_cast Int.lt_add_one_iff.mp hle

end Nearest

section Decimals

theorem fl_div_lt_iff {d : ℕ} (hd : 0 < d) (hsmall : d < 2 ^ 52) {j k : ℤ} (hj : |j| ≤ d)
    (hk : |k| ≤ d) : fl (j / d) < fl (k / d) ↔ j < k := by
  have hdpos : (0 : ℚ) < d := by exact_mod_cast hd
  have herr : ∀ {i : ℤ}, |i| ≤ d → |fl (i / d) - i / d| ≤ 1 / 2 ^ 53 := by
    intro i hi
    apply abs_fl_sub_le
    rw [abs_div, Nat.abs_cast, div_lt_iff₀ hdpos]
    have hcast : |(i : ℚ)| ≤ d := by exact_mod_cast hi
    linarith
  -- neighbours are further apart than two errors
  have hgap : ∀ {i l : ℤ}, |i| ≤ d → |l| ≤ d → i < l → fl (i / d) < fl (l / d) := by
    intro i l hi hl hlt
    have hi' := (abs_le.mp (herr hi)).2
    have hl' := (abs_le.mp (herr hl)).1
    have hstep : (i : ℚ) / d + 1 / d ≤ l / d := by
      rw [← add_div]
      apply div_le_div_of_nonneg_right _ hdpos.le
      exact_mod_cast hlt
    have hunit : (1 : ℚ) / 2 ^ 52 < 1 / d := by
      apply one_div_lt_one_div_of_lt hdpos
      exact_mod_cast hsmall
    norm_num at hi' hl' hunit
    norm_num at hstep
    linarith
  constructor
  · intro h
    by_contra hle
    obtain heq | hlt := eq_or_lt_of_le (not_lt.mp hle)
    · rw [heq] at h
      exact lt_irrefl _ h
    · exact lt_asymm h (hgap hk hj hlt)
  · exact hgap hj hk

variable {digits : ℕ} {q : ℚ} {n : ℤ}

theorem roundTo_eq (digits : ℕ) (q : ℚ) :
    roundTo digits q = fl (roundHalfEven (q * (10 ^ digits : ℕ)) / (10 ^ digits : ℕ)) := rfl

theorem roundTo_monotone (digits : ℕ) : Monotone (roundTo digits) := by
  intro q r h
  rw [roundTo_eq, roundTo_eq]
  apply fl_monotone
  apply div_le_div_of_nonneg_right _ (Nat.cast_nonneg _)
  exact_mod_cast roundHalfEven_monotone (mul_le_mul_of_nonneg_right h (Nat.cast_nonneg _))

theorem abs_roundHalfEven_le (hdigits : 10 ^ digits < 2 ^ 48) (hq : |q| ≤ 1 + 1 / 2 ^ 50) :
    |roundHalfEven (q * (10 ^ digits : ℕ))| ≤ (10 ^ digits : ℕ) := by
  obtain ⟨⟨hlow, hhigh⟩, -⟩ := roundHalfEven_spec (q * (10 ^ digits : ℕ))
  generalize roundHalfEven (q * (10 ^ digits : ℕ)) = r at *
  generalize 10 ^ digits = d at *
  have hdpos : (0 : ℚ) ≤ d := Nat.cast_nonneg d
  have hd : (d : ℚ) < 2 ^ 48 := by exact_mod_cast hdigits
  obtain ⟨hq₁, hq₂⟩ := abs_le.mp hq
  have hup : q * d ≤ (1 + 1 / 2 ^ 50) * d := mul_le_mul_of_nonneg_right hq₂ hdpos
  have hdown : -(1 + 1 / 2 ^ 50) * d ≤ q * d := mul_le_mul_of_nonneg_right hq₁ hdpos
  norm_num at hup hdown
  norm_num only at hd
  have hr₁ : (r : ℚ) < (d : ℚ) + 1 := by linarith
  have hr₂ : -(d : ℚ) - 1 < r := by linarith
  have hr₁' : r < (d : ℤ) + 1 := by exact_mod_cast hr₁
  have hr₂' : -(d : ℤ) - 1 < r := by exact_mod_cast hr₂
  rw [abs_le]
  omega

theorem roundTo_mem_Icc (hdigits : 10 ^ digits < 2 ^ 48) (h : q ∈ Set.Icc 0 1) :
    roundTo digits q ∈ Set.Icc 0 1 := by
  obtain ⟨h0, h1⟩ := h
  have hpos : (0 : ℚ) < (10 ^ digits : ℕ) := by positivity
  have hlow : 0 ≤ roundHalfEven (q * (10 ^ digits : ℕ)) :=
    roundHalfEven_nonneg (mul_nonneg h0 hpos.le)
  have hhigh := (abs_le.mp (abs_roundHalfEven_le hdigits (q := q) (by
    rw [abs_of_nonneg h0]
    linarith))).2
  rw [roundTo_eq]
  apply fl_mem_Icc
  constructor
  · exact div_nonneg (by exact_mod_cast hlow) hpos.le
  · rw [div_le_one hpos]
    exact_mod_cast hhigh

theorem roundTo_lt_iff (hdigits : 10 ^ digits < 2 ^ 48) (hq : |q| ≤ 1 + 1 / 2 ^ 50)
    (hn : |n| ≤ (10 ^ digits : ℕ)) (heven : n % 2 = 0) :
    roundTo digits q < fl (n / (10 ^ digits : ℕ)) ↔ q < (n - 1 / 2) / (10 ^ digits : ℕ) := by
  have hpos : (0 : ℚ) < (10 ^ digits : ℕ) := by positivity
  rw [roundTo_eq, fl_div_lt_iff (by positivity) (hdigits.trans (by norm_num))
    (abs_roundHalfEven_le hdigits hq) hn, lt_div_iff₀ hpos, ← not_le,
    le_roundHalfEven_iff_of_even heven, not_le]

theorem lt_roundTo_iff (hdigits : 10 ^ digits < 2 ^ 48) (hq : |q| ≤ 1 + 1 / 2 ^ 50)
    (hn : |n| ≤ (10 ^ digits : ℕ)) (heven : n % 2 = 0) :
    fl (n / (10 ^ digits : ℕ)) < roundTo digits q ↔ (n + 1 / 2) / (10 ^ digits : ℕ) < q := by
  have hpos : (0 : ℚ) < (10 ^ digits : ℕ) := by positivity
  rw [roundTo_eq, fl_div_lt_iff (by positivity) (hdigits.trans (by norm_num)) hn
    (abs_roundHalfEven_le hdigits hq), div_lt_iff₀ hpos, ← Int.add_one_le_iff,
    le_roundHalfEven_iff_of_odd (by omega)]
  push_cast
  constructor
  · intro h
    linarith
  · intro h
    linarith

theorem roundTo_pos_iff (hdigits : 10 ^ digits < 2 ^ 48) (hq : |q| ≤ 1 + 1 / 2 ^ 50) :
    0 < roundTo digits q ↔ 1 / 2 / (10 ^ digits : ℕ) < q := by
  have h := lt_roundTo_iff hdigits hq (n := 0) (by simp) rfl
  rwa [Int.cast_zero, zero_div, fl_zero, zero_add] at h

theorem abs_fl_div_sub_le {d : ℕ} (hd : 0 < d) {k : ℤ} (hk : |k| ≤ d) :
    |fl (k / d) - k / d| ≤ 1 / 2 ^ 53 := by
  have hdpos : (0 : ℚ) < d := by exact_mod_cast hd
  apply abs_fl_sub_le
  rw [abs_div, Nat.abs_cast, div_lt_iff₀ hdpos]
  have hcast : |(k : ℚ)| ≤ d := by exact_mod_cast hk
  linarith

theorem abs_fl_ratio_sub_le {m n : ℕ} (h : m ≤ n) : |fl (m / n) - (m : ℚ) / n| ≤ 1 / 2 ^ 53 := by
  have hq0 : (0 : ℚ) ≤ (m : ℚ) / n := by positivity
  have hq1 : (m : ℚ) / n ≤ 1 := by
    apply div_le_one_of_le₀ _ (by positivity)
    exact_mod_cast h
  apply abs_fl_sub_le
  rw [abs_of_nonneg hq0]
  linarith

theorem fl_ratio_mem_Icc {m n : ℕ} (h : m ≤ n) : fl (m / n) ∈ Set.Icc 0 1 := by
  apply fl_mem_Icc
  constructor
  · positivity
  · apply div_le_one_of_le₀ _ (by positivity)
    exact_mod_cast h

theorem abs_le_of_mem_Icc (h : q ∈ Set.Icc 0 1) : |q| ≤ 1 + 1 / 2 ^ 50 := by
  rw [abs_of_nonneg h.1]
  exact h.2.trans (by norm_num)

theorem lt_fl_ratio_of_pos {m n : ℕ} (hm : 0 < m) (hle : m ≤ n) (hn : n < 20000) :
    1 / 20000 < fl (m / n) := by
  have herr := (abs_le.mp (abs_fl_ratio_sub_le hle)).1
  have hn' : (0 : ℚ) < n := by
    have : 0 < n := by omega
    exact_mod_cast this
  have hone : (1 : ℚ) / 19999 ≤ (m : ℚ) / n := by
    rw [div_le_div_iff₀ (by norm_num) hn']
    have hm' : (1 : ℚ) ≤ m := by exact_mod_cast hm
    have hn'' : (n : ℚ) ≤ 19999 := by
      have : n ≤ 19999 := by omega
      exact_mod_cast this
    linarith
  norm_num at herr hone ⊢
  linarith

/-- The rounded difference of two rounded shares is negative exactly when the
decimal of the first is smaller. -/
theorem roundTo_sub_neg_iff (hdigits : 10 ^ digits < 2 ^ 48) {j k : ℤ}
    (hj : 0 ≤ j ∧ j ≤ (10 ^ digits : ℕ)) (hk : 0 ≤ k ∧ k ≤ (10 ^ digits : ℕ)) :
    roundTo digits (fl (fl (j / (10 ^ digits : ℕ)) - fl (k / (10 ^ digits : ℕ)))) < 0 ↔ j < k := by
  have hd : 0 < 10 ^ digits := by positivity
  have hj' := abs_le.mp (abs_fl_div_sub_le hd (abs_le.mpr ⟨by omega, hj.2⟩))
  have hk' := abs_le.mp (abs_fl_div_sub_le hd (abs_le.mpr ⟨by omega, hk.2⟩))
  have hneg := fun q hq => roundTo_lt_iff (q := q) (n := 0) hdigits hq (by simp) rfl
  generalize 10 ^ digits = d at *
  have hdpos : (0 : ℚ) < d := by exact_mod_cast hd
  have hunit : (1 : ℚ) / 2 ^ 48 < 1 / d := by
    apply one_div_lt_one_div_of_lt hdpos
    exact_mod_cast hdigits
  have hbounds : ∀ {i : ℤ}, 0 ≤ i ∧ i ≤ d → 0 ≤ (i : ℚ) / d ∧ (i : ℚ) / d ≤ 1 := by
    intro i hi
    have h0 : (0 : ℚ) ≤ i := by exact_mod_cast hi.1
    have h1 : (i : ℚ) ≤ d := by exact_mod_cast hi.2
    exact ⟨div_nonneg h0 hdpos.le, div_le_one_of_le₀ h1 hdpos.le⟩
  have hj₀ := hbounds hj
  have hk₀ := hbounds hk
  have hstep : ∀ {i l : ℤ}, i < l → (i : ℚ) / d + 1 / d ≤ l / d := by
    intro i l hlt
    rw [← add_div]
    apply div_le_div_of_nonneg_right _ hdpos.le
    exact_mod_cast hlt
  have hmono : ∀ {i l : ℤ}, i ≤ l → (i : ℚ) / d ≤ l / d := by
    intro i l hle
    apply div_le_div_of_nonneg_right _ hdpos.le
    exact_mod_cast hle
  have hstep' := @hstep j k
  have hmono' := @hmono k j
  generalize (j : ℚ) / d = x at *
  generalize (k : ℚ) / d = y at *
  norm_num at hj' hk' hunit
  -- the rounded difference is off by three errors at most
  have hdiff := abs_le.mp (abs_fl_sub_le (q := fl x - fl y) (by
    rw [abs_lt]
    constructor
    · linarith
    · linarith))
  norm_num at hdiff
  have hzero := hneg (fl (fl x - fl y)) (by
    rw [abs_le]
    norm_num
    constructor
    · linarith
    · linarith)
  norm_num at hzero hstep'
  rw [hzero, div_eq_mul_inv]
  constructor
  · intro h
    by_contra hle
    have := hmono' (not_lt.mp hle)
    linarith
  · intro h
    have := hstep' h
    linarith

end Decimals

section Exact

theorem nearest_natCast {n : ℕ} (hpos : 0 < n) (h : n < 2 ^ 53) : nearest n = n := by
  have hq : (0 : ℚ) < n := by exact_mod_cast hpos
  have hlow : 0 ≤ exponent (n : ℚ) := by
    apply le_exponent_of_le hq
    rw [pow2_eq_zpow, zpow_zero]
    exact_mod_cast hpos
  have hhigh : exponent (n : ℚ) < 53 := by
    apply exponent_lt_of_lt hq
    rw [pow2_eq_zpow]
    exact_mod_cast h
  obtain ⟨m, hm⟩ : ∃ m : ℕ, max (exponent (n : ℚ) - 52) (-1074) = -(m : ℤ) :=
    ⟨(52 - exponent (n : ℚ)).toNat, by omega⟩
  have hunit : pow2 (-(m : ℤ)) = ((2 ^ m : ℕ) : ℚ)⁻¹ := by
    rw [pow2_eq_zpow, zpow_neg, zpow_natCast, Nat.cast_pow, Nat.cast_ofNat]
  have hscaled : ((2 ^ m : ℕ) : ℚ) ≠ 0 := by positivity
  rw [nearest, hm, hunit, div_inv_eq_mul, ← Nat.cast_mul, ← Int.cast_natCast (n * 2 ^ m),
    roundHalfEven_intCast, Int.cast_natCast, Nat.cast_mul]
  field_simp

/-- An integer rounds to an integer: a unit below 1 leaves it as it is, and the multiples of
a unit from 1 on are integers. -/
theorem exists_nearest_intCast (n : ℤ) : ∃ m : ℤ, nearest n = m := by
  rw [nearest]
  obtain ⟨k, hk | hk⟩ := Int.eq_nat_or_neg (max (exponent (n : ℚ) - 52) (-1074))
  · refine ⟨roundHalfEven (n / pow2 k) * 2 ^ k, ?_⟩
    rw [hk, pow2_eq_zpow, zpow_natCast]
    push_cast
    rfl
  · have hunit : pow2 (-(k : ℤ)) = ((2 ^ k : ℤ) : ℚ)⁻¹ := by
      rw [pow2_eq_zpow, zpow_neg, zpow_natCast, Int.cast_pow, Int.cast_ofNat]
    refine ⟨n, ?_⟩
    rw [hk, hunit, div_inv_eq_mul, ← Int.cast_mul, roundHalfEven_intCast, Int.cast_mul,
      mul_inv_cancel_right₀ (by positivity)]

theorem truncate?_ofInt {n : ℕ} (h : n < 2 ^ 53) : (ofInt n).truncate? = some n := by
  have hneg : ¬ (n : ℤ) < 0 := by omega
  have hfinite : ofInt n = finite false n := by
    rw [ofInt, ofMagnitude, decide_eq_false hneg, Int.natAbs_natCast]
    obtain rfl | hpos := Nat.eq_zero_or_pos n
    · simp
    · have hsmall : nearest (n : ℚ) < pow2 1024 := by
        rw [nearest_natCast hpos h]
        calc (n : ℚ) < pow2 53 := by
              rw [pow2_eq_zpow]
              exact_mod_cast h
          _ ≤ pow2 1024 := pow2_le_pow2 (by norm_num)
      rw [if_neg (by exact_mod_cast hpos.ne'), if_pos hsmall, nearest_natCast hpos h]
  rw [hfinite, truncate?, toRat?, Option.map_some, if_neg Bool.false_ne_true,
    if_neg (not_lt.mpr (Nat.cast_nonneg n)), Int.floor_natCast]
  rfl

end Exact

end Ulpf.Lib.Binary64
