import Ulpf.Python.Value

/-!
Texts of digits and the numbers `int` reads them as.
-/

namespace Ulpf.Python

open Ulpf.Lib
open Ulpf.Lib.Text

theorem le_of_decimal? {c : Char} {ds : List Char} {n : ℕ} (hc : c ≠ '0')
    (h : decimal? (c :: ds) = some n) : 10 ^ ds.length ≤ n := by
  induction ds using List.reverseRecOn generalizing n with
  | nil =>
      have hsingle : decimal? [c] = (digit? c).map fun d => 10 * 0 + d := decimal?_concat [] c
      rw [hsingle] at h
      obtain ⟨d, hd, rfl⟩ := Option.map_eq_some_iff.mp h
      unfold digit? at hd
      split at hd
      · rename_i hrange
        cases hd
        have hlower : 48 ≤ c.toNat := hrange.1
        have hne : c.toNat ≠ 48 := fun heq => hc (Char.toNat_inj.mp heq)
        change 10 ^ 0 ≤ 10 * 0 + (c.toNat - 48)
        omega
      · cases hd
  | append_singleton ds d ih =>
      rw [← List.cons_append, decimal?_concat] at h
      obtain ⟨m, hm, h⟩ := Option.bind_eq_some_iff.mp h
      obtain ⟨k, -, rfl⟩ := Option.map_eq_some_iff.mp h
      have hle := ih hm
      rw [List.length_append, List.length_singleton, Nat.pow_succ]
      omega

variable {u : Unicode}

/-- Values of the digits of a text. -/
def digitsOf (ds : List Char) : List ℕ := ds.map fun c => (digit? c).getD 0

theorem toNat_lt_of_isDigit {c : Char} (h : isDigit c = true) :
    c.toNat < 128 ∧ c ≠ '_' ∧ c ≠ '-' ∧ c ≠ '+' ∧ isSpace c = false := by
  have hrange : 48 ≤ c.toNat ∧ c.toNat ≤ 57 := by
    unfold isDigit digit? at h
    split at h
    · rename_i hc
      exact hc
    · cases h
  refine ⟨by omega, ?_, ?_, ?_, ?_⟩
  · rintro rfl
    exact absurd hrange (by decide)
  · rintro rfl
    exact absurd hrange (by decide)
  · rintro rfl
    exact absurd hrange (by decide)
  · simp only [isSpace, Unicode.isSpace]
    simp
    omega

theorem digitValues_eq {ds : List Char} (hdigits : ∀ c ∈ ds, isDigit c = true)
    {afterDigit : Bool} (h : afterDigit = true ∨ ds ≠ []) :
    digitValues u afterDigit ds = some (digitsOf ds) := by
  induction ds generalizing afterDigit with
  | nil =>
      obtain rfl : afterDigit = true := h.resolve_right (by simp)
      rfl
  | cons c ds ih =>
      have hc := hdigits c List.mem_cons_self
      obtain ⟨hascii, hunderscore, -⟩ := toNat_lt_of_isDigit hc
      obtain ⟨d, hd⟩ := Option.isSome_iff_exists.mp hc
      unfold digitValues
      rw [if_neg hunderscore, u.decimal_ascii c hascii, hd,
        ih (fun x hx => hdigits x (List.mem_cons_of_mem _ hx)) (.inl rfl)]
      simp [digitsOf, hd]

theorem decimal?_eq {ds : List Char} (hdigits : ∀ c ∈ ds, isDigit c = true) :
    decimal? ds = some (ofDigits (digitsOf ds)) := by
  induction ds using List.reverseRecOn with
  | nil => rfl
  | append_singleton ds c ih =>
      rw [List.forall_mem_append, List.forall_mem_singleton] at hdigits
      obtain ⟨d, hd⟩ := Option.isSome_iff_exists.mp hdigits.2
      rw [decimal?_concat, ih hdigits.1, hd]
      simp [digitsOf, ofDigits, List.foldl_append, hd]

theorem parseInt_digits {ds : List Char} {n : ℕ} (hne : ds ≠ []) (h : decimal? ds = some n)
    (hshort : ds.length ≤ maxStrDigits) : parseInt u (String.ofList ds) = some (n : ℤ) := by
  have hdigits : ∀ c ∈ ds, isDigit c = true :=
    isSome_decimal?_iff.mp (by rw [h]; rfl)
  have hsign : spanSign ds = (false, ds) := by
    cases ds with
    | nil => rfl
    | cons c ds =>
        obtain ⟨-, -, hminus, hplus, -⟩ := toNat_lt_of_isDigit (hdigits c List.mem_cons_self)
        unfold spanSign
        split
        · rename_i heq
          cases heq
          exact absurd rfl hminus
        · rename_i heq
          cases heq
          exact absurd rfl hplus
        · rfl
  have hspace : ∀ c ∈ ds, isSpace c = false := fun c hc =>
    (toNat_lt_of_isDigit (hdigits c hc)).2.2.2.2
  have hvalue : n = ofDigits (digitsOf ds) := Option.some.inj (h.symm.trans (decimal?_eq hdigits))
  have hlong : ¬ maxStrDigits < (digitsOf ds).length := by
    rw [digitsOf, List.length_map]
    omega
  rw [parseInt, String.toList_ofList, trim_eq_self_of_forall hspace, hsign]
  simp only [digitValues_eq hdigits (.inr hne), Option.bind_eq_bind, Option.bind_some, hlong,
    if_false, Bool.false_eq_true, hvalue]
  rfl

end Ulpf.Python
