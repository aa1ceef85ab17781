import Ulpf.Go.Value
import Ulpf.Lib.JsonScan
import Ulpf.Lib.ShortestDecimal

/-!
Integers as floats: how a document writes them and how `%v` prints them.
-/

namespace Ulpf.Go

open Ulpf.Lib
open Ulpf.Lib.Text
open Ulpf.Lib.Binary64

section Printing

variable {n : ℤ}

theorem toList_numeral_int (n : ℤ) :
    (numeral n).toList = (if n < 0 then ['-'] else []) ++ Nat.toDigits 10 n.natAbs := by
  cases n with
  | ofNat m =>
      have hsign : ¬ Int.ofNat m < 0 := by simp
      rw [if_neg hsign]
      exact toList_numeral m
  | negSucc m =>
      have hsign : Int.negSucc m < 0 := Int.negSucc_lt_zero m
      rw [if_pos hsign]
      show ("-" ++ (m + 1).repr).toList = _
      rw [String.toList_append, Nat.toList_repr]
      rfl

theorem ofInt_eq (h : n.natAbs ≤ 2 ^ 53) : Binary64.ofInt n = .finite (n < 0) n.natAbs := by
  rw [Binary64.ofInt, ofMagnitude]
  obtain hzero | hpos := Nat.eq_zero_or_pos n.natAbs
  · rw [hzero]
    simp
  · have hexact : nearest (n.natAbs : ℚ) = n.natAbs := by
      obtain hlt | heq := h.lt_or_eq
      · exact nearest_natCast hpos hlt
      · rw [heq]
        decide +kernel
    have hfinite : (n.natAbs : ℚ) < pow2 1024 := by
      calc (n.natAbs : ℚ) ≤ pow2 53 := by
            rw [pow2_eq_zpow]
            exact_mod_cast h
        _ < pow2 1024 := pow2_lt_pow2_iff.mpr (by norm_num)
    rw [if_neg (by exact_mod_cast hpos.ne'), hexact, if_pos hfinite]

theorem formatFloat_ofInt (h : n.natAbs < 10 ^ 6) :
    formatFloat (Binary64.ofInt n) = (numeral n).toList := by
  rw [ofInt_eq (h.le.trans (by norm_num)), toList_numeral_int, formatFloat]
  simp only [decide_eq_true_eq]
  obtain hzero | hpos := Nat.eq_zero_or_pos n.natAbs
  · rw [hzero]
    simp
  · have hlength : (Nat.toDigits 10 n.natAbs).length ≤ 6 :=
      (Nat.length_toDigits_le_iff (by decide) (by decide)).mpr h
    have hone : 0 < (Nat.toDigits 10 n.natAbs).length := Nat.length_toDigits_pos
    obtain ⟨hpoint, hdigits⟩ := shortest_natCast hpos (h.trans (by norm_num))
    rw [if_neg (by exact_mod_cast hpos.ne'), if_neg (by rw [hpoint]; omega), hdigits]

theorem not_mem_numeral (n : ℤ) {c : Char} (hsign : c ≠ '-') (hdigit : isDigit c = false) :
    c ∉ (numeral n).toList := by
  rw [toList_numeral_int, List.mem_append]
  rintro (hmem | hmem)
  · split at hmem
    · exact hsign (List.mem_singleton.mp hmem)
    · cases hmem
  · rw [← toList_numeral] at hmem
    rw [isDigit_numeral _ c hmem] at hdigit
    cases hdigit

theorem formatFloat_ne_numeral {q : ℚ} (h : 10 ^ 6 ≤ q) (hn : 10 ≤ n.natAbs) :
    formatFloat (.finite (n < 0) q) ≠ (numeral n).toList := by
  have hpos : q ≠ 0 := (lt_of_lt_of_le (by norm_num) h).ne'
  rw [formatFloat]
  simp only [if_neg hpos, decide_eq_true_eq]
  intro heq
  obtain hdefault | hpoint := six_lt_point h
  · rw [hdefault, if_neg (by decide), toList_numeral_int, List.append_cancel_left_eq] at heq
    have hdigits : 1 < (Nat.toDigits 10 n.natAbs).length := (lt_length_iff (by decide)).mpr hn
    rw [← heq] at hdigits
    exact absurd hdigits (by decide)
  · rw [if_pos (.inr (by omega))] at heq
    have hmem : 'e' ∈ (numeral n).toList := by
      rw [← heq, scientific.eq_def]
      simp
    exact not_mem_numeral n (by decide) (by decide) hmem

theorem formatFloat_ofInt_iff (h : n.natAbs ≤ 2 ^ 53) :
    formatFloat (Binary64.ofInt n) = (numeral n).toList ↔ n.natAbs < 10 ^ 6 := by
  refine ⟨fun heq => ?_, formatFloat_ofInt⟩
  by_contra hlarge
  have hmillion : (10 : ℚ) ^ 6 ≤ (n.natAbs : ℚ) := by exact_mod_cast not_lt.mp hlarge
  rw [ofInt_eq h] at heq
  exact formatFloat_ne_numeral hmillion (by omega) heq

end Printing

section Reading

theorem zeros_eq_nil {m : ℕ} {zeros : List Char} (h : Nat.toDigits 10 m = '0' :: zeros) :
    zeros = [] := by
  induction m using Nat.strong_induction_on generalizing zeros with
  | _ m ih =>
      rcases lt_or_ge m 10 with hlt | hle
      · rw [Nat.toDigits_of_lt_base hlt] at h
        exact (List.cons.inj h).2.symm
      · rw [Nat.toDigits_of_base_le (by decide) hle] at h
        obtain ⟨c, before, hbefore⟩ := List.exists_cons_of_ne_nil
          (Nat.toDigits_ne_nil : Nat.toDigits 10 (m / 10) ≠ [])
        rw [hbefore, List.cons_append] at h
        obtain ⟨rfl, -⟩ := List.cons.inj h
        have hnil := ih (m / 10) (by omega) hbefore
        rw [hnil] at hbefore
        have hvalue := congrArg (fun ds => Nat.ofDigitChars 10 ds 0) hbefore
        rw [Nat.ofDigitChars_ten_toDigits] at hvalue
        have hzero : m / 10 = 0 := hvalue
        omega

theorem parseUnsigned_toDigits (neg : Bool) (m : ℕ) :
    JsonText.parseUnsigned neg (Nat.toDigits 10 m) =
      some (.decimal neg (Nat.toDigits 10 m) [] none, []) := by
  have hspan : JsonText.spanDigits (Nat.toDigits 10 m) = (Nat.toDigits 10 m, []) := by
    have hall : ∀ c ∈ Nat.toDigits 10 m, isDigit c = true := by
      rw [← toList_numeral]
      exact isDigit_numeral m
    rw [JsonText.spanDigits, List.span_eq_takeWhile_dropWhile, List.takeWhile_eq_self_iff.mpr hall,
      List.dropWhile_eq_nil_iff.mpr hall]
  rw [JsonText.parseUnsigned, hspan]
  dsimp only
  split
  · rename_i zeros hzeros
    rw [hzeros, zeros_eq_nil hzeros]
    rfl
  · have hne : (Nat.toDigits 10 m).isEmpty = false := by
      rw [List.isEmpty_eq_false_iff]
      exact Nat.toDigits_ne_nil
    rw [hne]
    rfl

theorem parseNumber_numeral (n : ℤ) :
    JsonText.parseNumber (numeral n).toList =
      some (.decimal (n < 0) (Nat.toDigits 10 n.natAbs) [] none, []) := by
  rw [toList_numeral_int]
  split
  · rename_i hneg
    rw [decide_eq_true hneg]
    exact parseUnsigned_toDigits true n.natAbs
  · rename_i hpos
    rw [decide_eq_false hpos, List.nil_append, JsonText.parseNumber.eq_def]
    split
    · rename_i rest hminus
      have hmem : '-' ∈ (numeral n.natAbs).toList := by
        rw [toList_numeral, hminus]
        exact List.mem_cons_self
      exact absurd (isDigit_numeral _ _ hmem) (by decide)
    · exact parseUnsigned_toDigits false n.natAbs

theorem toBinary64_numeral (n : ℤ) :
    (NumLit.decimal (n < 0) (Nat.toDigits 10 n.natAbs) [] none).toBinary64 =
      Binary64.ofInt n := by
  have hdigits : decimal? (Nat.toDigits 10 n.natAbs) = some n.natAbs := by
    rw [← toList_numeral]
    exact decimal?_numeral n.natAbs
  rw [NumLit.toBinary64, NumLit.magnitude, List.append_nil, hdigits, Binary64.ofInt]
  simp [Binary64.pow10]

end Reading

end Ulpf.Go
