import Mathlib.Data.List.TakeWhile
import Ulpf.Lib.Rounding

/-!
The digits that `shortest` gives for an integer, and the layout of a large number.
-/

namespace Ulpf.Lib.Binary64

section Digits

variable {n : ℕ}

theorem pow10_eq_zpow (e : ℤ) : pow10 e = 10 ^ e := by
  cases e with
  | ofNat n =>
      show ((10 ^ n : ℕ) : ℚ) = (10 : ℚ) ^ (Int.ofNat n)
      simp
  | negSucc n =>
      show _ = (10 : ℚ) ^ (Int.negSucc n)
      rw [zpow_negSucc]
      simp [pow10]

theorem toDigits_mul_ten (hn : 0 < n) : Nat.toDigits 10 (n * 10) = Nat.toDigits 10 n ++ ['0'] := by
  rw [Nat.toDigits_of_base_le (by decide) (by omega), Nat.mul_div_cancel n (by decide),
    Nat.mul_mod_left]
  rfl

theorem toDigits_mul_pow (hn : 0 < n) (t : ℕ) :
    Nat.toDigits 10 (n * 10 ^ t) = Nat.toDigits 10 n ++ List.replicate t '0' := by
  induction t with
  | zero => simp
  | succ t ih =>
      have hpos : 0 < n * 10 ^ t := by positivity
      rw [pow_succ, ← mul_assoc, toDigits_mul_ten hpos, ih, List.append_assoc,
        ← List.replicate_succ']

theorem pow_le_of_length (hn : 0 < n) : 10 ^ ((Nat.toDigits 10 n).length - 1) ≤ n := by
  by_contra hlt
  rcases Nat.eq_zero_or_pos ((Nat.toDigits 10 n).length - 1) with hzero | hpos
  · rw [hzero] at hlt
    omega
  · have hle := (Nat.length_toDigits_le_iff (by decide) hpos).mpr (not_le.mp hlt)
    omega

theorem lt_length_iff {k : ℕ} (hk : 0 < k) : k < (Nat.toDigits 10 n).length ↔ 10 ^ k ≤ n := by
  rw [← not_le, Nat.length_toDigits_le_iff (by decide) hk, not_lt]

end Digits

section Integers

variable {n : ℕ}

theorem decimalPoint_of_one_le {q : ℚ} (h : 1 ≤ q) :
    decimalPoint q = (Nat.toDigits 10 ⌊q⌋.toNat).length := if_pos h

theorem decimalPoint_natCast (hn : 0 < n) :
    decimalPoint (n : ℚ) = (Nat.toDigits 10 n).length := by
  rw [decimalPoint_of_one_le (by exact_mod_cast hn), Int.floor_natCast, Int.toNat_natCast]

/-- With fewer digits than the number has, the decimals around it are the multiples of a power
of ten on both sides. -/
theorem mem_decimalsAt_natCast (hn : 0 < n) (h : n < 10 ^ 15) {k m : ℕ} (hk : 0 < k)
    (hle : k ≤ (Nat.toDigits 10 n).length) (hm : m ∈ decimalsAt (n : ℚ) k) :
    m * 10 ^ ((Nat.toDigits 10 n).length - k) = n := by
  obtain ⟨t, ht⟩ : ∃ t, (Nat.toDigits 10 n).length = k + t := ⟨_, (Nat.add_sub_cancel' hle).symm⟩
  have hscale : pow10 ((k : ℤ) - decimalPoint (n : ℚ)) = ((10 ^ t : ℕ) : ℚ)⁻¹ := by
    rw [decimalPoint_natCast hn, ht, pow10_eq_zpow]
    have hexp : (k : ℤ) - ((k + t : ℕ) : ℤ) = -(t : ℤ) := by omega
    rw [hexp, zpow_neg, zpow_natCast, Nat.cast_pow, Nat.cast_ofNat]
  have hbelow : ⌊(n : ℚ) * ((10 ^ t : ℕ) : ℚ)⁻¹⌋.toNat = n / 10 ^ t := by
    rw [← div_eq_mul_inv, Rat.floor_natCast_div_natCast, ← Int.natCast_ediv,
      Int.toNat_natCast]
  rw [decimalsAt, hscale] at hm
  simp only [hbelow] at hm
  rw [List.mem_filter, decide_eq_true_eq, div_inv_eq_mul, ← Nat.cast_mul] at hm
  obtain ⟨hmem, hnear⟩ := hm
  have hm' : m = n / 10 ^ t ∨ m = n / 10 ^ t + 1 := by
    split at hmem
    · simpa using hmem
    · simpa [or_comm] using hmem
  have hpow : 10 ^ t ≤ n := by
    refine le_trans ?_ (pow_le_of_length hn)
    exact Nat.pow_le_pow_right (by decide) (by omega)
  have hfloor : n / 10 ^ t * 10 ^ t ≤ n := Nat.div_mul_le_self n (10 ^ t)
  have hquotient : 1 ≤ n / 10 ^ t := (Nat.one_le_div_iff (by positivity)).mpr hpow
  have hpos : 0 < m * 10 ^ t := by
    have : 0 < m := by omega
    positivity
  have hbound : m * 10 ^ t < 2 ^ 53 := by
    have hstep : m * 10 ^ t ≤ (n / 10 ^ t + 1) * 10 ^ t := Nat.mul_le_mul_right _ (by omega)
    rw [Nat.add_mul, one_mul] at hstep
    calc m * 10 ^ t ≤ n + n := hstep.trans (Nat.add_le_add hfloor hpow)
      _ < 2 ^ 53 := by omega
  rw [nearest_natCast hpos hbound] at hnear
  rw [ht, Nat.add_sub_cancel_left]
  exact_mod_cast hnear

theorem decimalsAt_length (hn : 0 < n) (h : n < 10 ^ 15) :
    (decimalsAt (n : ℚ) (Nat.toDigits 10 n).length).head? = some n := by
  have hnear : nearest (n : ℚ) = n := nearest_natCast hn (h.trans (by norm_num))
  have hscale : pow10 (((Nat.toDigits 10 n).length : ℤ) - decimalPoint (n : ℚ)) = 1 := by
    rw [decimalPoint_natCast hn, sub_self, pow10_eq_zpow, zpow_zero]
  rw [decimalsAt, hscale]
  simp [hnear]

theorem stripped_append (ds : List Char) :
    ∃ t, (ds.reverse.dropWhile (· = '0')).reverse ++ List.replicate t '0' = ds := by
  refine ⟨(ds.reverse.takeWhile (· = '0')).length, ?_⟩
  have hzeros : ds.reverse.takeWhile (· = '0') =
      List.replicate (ds.reverse.takeWhile (· = '0')).length '0' := by
    rw [List.eq_replicate_iff]
    exact ⟨rfl, fun c hc => by simpa using List.mem_takeWhile_imp hc⟩
  have hsplit := congrArg List.reverse (List.takeWhile_append_dropWhile (p := (· = '0'))
    (l := ds.reverse))
  rw [List.reverse_append, List.reverse_reverse, hzeros, List.reverse_replicate] at hsplit
  exact hsplit

theorem positional_append (ds : List Char) (t : ℕ) (hpos : 0 < ds.length + t) :
    positional ds ((ds.length + t : ℕ) : ℤ) = ds ++ List.replicate t '0' := by
  rw [positional, if_neg (by omega)]
  simp only [Int.toNat_natCast]
  rw [if_pos (Nat.le_add_right _ _), Nat.add_sub_cancel_left]

/-- The shortest digits of an integer are those of its numeral without the zeros at the end. -/
theorem shortest_natCast (hn : 0 < n) (h : n < 10 ^ 15) :
    (shortest (n : ℚ)).2 = (Nat.toDigits 10 n).length ∧
      positional (shortest (n : ℚ)).1 (shortest (n : ℚ)).2 = Nat.toDigits 10 n := by
  have hlength : 0 < (Nat.toDigits 10 n).length := Nat.length_toDigits_pos
  have hshort : (Nat.toDigits 10 n).length ≤ 15 :=
    (Nat.length_toDigits_le_iff (by decide) (by decide)).mpr h
  obtain ⟨j, hj⟩ : ∃ j, 17 = (Nat.toDigits 10 n).length + j :=
    ⟨17 - (Nat.toDigits 10 n).length, by omega⟩
  obtain ⟨⟨m, k⟩, hfound⟩ : ∃ found, (List.range (Nat.toDigits 10 n).length).findSome? (fun i =>
      (decimalsAt (n : ℚ) (i + 1)).head?.map fun m => (m, i + 1)) = some found := by
    rw [← Option.isSome_iff_exists, List.findSome?_isSome_iff]
    refine ⟨(Nat.toDigits 10 n).length - 1, List.mem_range.mpr (by omega), ?_⟩
    rw [Nat.sub_add_cancel hlength, decimalsAt_length hn h]
    rfl
  obtain ⟨i, hi, hm⟩ := List.exists_of_findSome?_eq_some hfound
  obtain ⟨m', hhead, hpair⟩ := Option.map_eq_some_iff.mp hm
  obtain ⟨rfl, rfl⟩ := Prod.mk.inj hpair
  have hvalue := mem_decimalsAt_natCast hn h (Nat.succ_pos i) (List.mem_range.mp hi)
    (List.mem_of_mem_head? hhead)
  have hmpos : 0 < m' := by
    rcases Nat.eq_zero_or_pos m' with rfl | hpos
    · omega
    · exact hpos
  have hdigits := toDigits_mul_pow hmpos ((Nat.toDigits 10 n).length - (i + 1))
  rw [hvalue] at hdigits
  have hcount := congrArg List.length hdigits
  rw [List.length_append, List.length_replicate] at hcount
  have hi' := List.mem_range.mp hi
  have hsame : (Nat.toDigits 10 m').length = i + 1 := by omega
  rw [shortest, hj, List.range_add, List.findSome?_append, hfound]
  simp only [Option.some_or]
  rw [decimalPoint_natCast hn, hsame, sub_self, add_zero]
  refine ⟨rfl, ?_⟩
  obtain ⟨t, ht⟩ := stripped_append (Nat.toDigits 10 m')
  generalize ((Nat.toDigits 10 m').reverse.dropWhile (· = '0')).reverse = ds at ht
  have htotal : (Nat.toDigits 10 n).length =
      ds.length + (t + ((Nat.toDigits 10 n).length - (i + 1))) := by
    have hds := congrArg List.length ht
    rw [List.length_append, List.length_replicate] at hds
    omega
  rw [htotal, positional_append _ _ (by omega), List.replicate_add, ← List.append_assoc, ht]
  exact hdigits.symm

end Integers

section Large

variable {q : ℚ}

theorem six_lt_point (h : 10 ^ 6 ≤ q) : shortest q = (['0'], 1) ∨ 6 < (shortest q).2 := by
  have hone : 1 ≤ q := le_trans (by norm_num) h
  have hfloor : 10 ^ 6 ≤ ⌊q⌋.toNat := by
    have hcast : ((10 ^ 6 : ℤ) : ℚ) ≤ q := by exact_mod_cast h
    have hle := Int.le_floor.mpr hcast
    omega
  have hpoint : 6 < (Nat.toDigits 10 ⌊q⌋.toNat).length := (lt_length_iff (by decide)).mpr hfloor
  have hlow : (10 : ℚ) ^ (decimalPoint q - 1) ≤ q := by
    have hpos : 0 < ⌊q⌋.toNat := by omega
    have hle := pow_le_of_length hpos
    rw [decimalPoint_of_one_le hone]
    have hexp : ((Nat.toDigits 10 ⌊q⌋.toNat).length : ℤ) - 1 =
        (((Nat.toDigits 10 ⌊q⌋.toNat).length - 1 : ℕ) : ℤ) := by omega
    rw [hexp, zpow_natCast]
    calc (10 : ℚ) ^ ((Nat.toDigits 10 ⌊q⌋.toNat).length - 1) ≤ (⌊q⌋.toNat : ℚ) := by
          exact_mod_cast hle
      _ ≤ q := by
          have hnonneg : 0 ≤ ⌊q⌋ := by omega
          have hcast : ((⌊q⌋.toNat : ℤ) : ℚ) ≤ q := by
            rw [Int.toNat_of_nonneg hnonneg]
            exact Int.floor_le q
          exact_mod_cast hcast
  rw [shortest]
  split
  · exact .inl rfl
  · rename_i m k hfound
    right
    obtain ⟨i, -, hm⟩ := List.exists_of_findSome?_eq_some hfound
    obtain ⟨m', hhead, hpair⟩ := Option.map_eq_some_iff.mp hm
    obtain ⟨rfl, rfl⟩ := Prod.mk.inj hpair
    have hmem := List.mem_of_mem_head? hhead
    rw [decimalsAt, List.mem_filter] at hmem
    have hbelow : ⌊q * pow10 (((i + 1 : ℕ) : ℤ) - decimalPoint q)⌋.toNat ≤ m' := by
      have hcases := hmem.1
      split at hcases <;> simp only [List.mem_cons, List.not_mem_nil, or_false] at hcases <;> omega
    have hscaled : 10 ^ i ≤ ⌊q * pow10 (((i + 1 : ℕ) : ℤ) - decimalPoint q)⌋.toNat := by
      have hcast : (((10 ^ i : ℕ) : ℤ) : ℚ) ≤ q * pow10 (((i + 1 : ℕ) : ℤ) - decimalPoint q) := by
        calc (((10 ^ i : ℕ) : ℤ) : ℚ) = (10 : ℚ) ^ (decimalPoint q - 1) *
              10 ^ (((i + 1 : ℕ) : ℤ) - decimalPoint q) := by
              rw [← zpow_add₀ (by norm_num)]
              have hexp : decimalPoint q - 1 + (((i + 1 : ℕ) : ℤ) - decimalPoint q) = (i : ℤ) := by
                push_cast
                ring
              rw [hexp, zpow_natCast]
              push_cast
              rfl
          _ ≤ q * 10 ^ (((i + 1 : ℕ) : ℤ) - decimalPoint q) :=
              mul_le_mul_of_nonneg_right hlow (zpow_nonneg (by norm_num) _)
          _ = q * pow10 (((i + 1 : ℕ) : ℤ) - decimalPoint q) := by rw [pow10_eq_zpow]
      have hle := Int.le_floor.mpr hcast
      omega
    have hlength : i < (Nat.toDigits 10 m').length := by
      rcases Nat.eq_zero_or_pos i with rfl | hpos
      · exact Nat.length_toDigits_pos
      · exact (lt_length_iff hpos).mpr (hscaled.trans hbelow)
    have hdecimal : decimalPoint q = (Nat.toDigits 10 ⌊q⌋.toNat).length :=
      decimalPoint_of_one_le hone
    simp only
    omega

end Large

end Ulpf.Lib.Binary64
