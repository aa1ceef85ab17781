import Mathlib.Algebra.Order.Ring.Nat

/-!
Identifiers of 128 bits, a time and random bits, written as 26 digits of base 32.
-/

namespace Ulpf.Lib

/-- An identifier as its bits. -/
abbrev Ulid := BitVec 128

namespace Ulid

/-- The digits of Crockford's base 32. -/
def alphabet : List Char := "0123456789ABCDEFGHJKMNPQRSTVWXYZ".toList

def digit (n : ℕ) : Char := alphabet.getD n '0'

/-- The lowest digits of a number, the highest one first. -/
def digits : ℕ → ℕ → List Char
  | 0, _ => []
  | n + 1, x => digit (x / 32 ^ n % 32) :: digits n x

/-- `id.String()` -/
def text (id : Ulid) : String := String.ofList (digits 26 id.toNat)

theorem length_digits (n x : ℕ) : (digits n x).length = n := by
  induction n with
  | zero => rfl
  | succ n ih => rw [digits, List.length_cons, ih]

theorem exists_digit_of_mem {n x : ℕ} {c : Char} (h : c ∈ digits n x) :
    ∃ k < 32, c = digit k := by
  induction n with
  | zero => exact absurd h List.not_mem_nil
  | succ n ih =>
      obtain rfl | htail := List.mem_cons.mp h
      · exact ⟨_, Nat.mod_lt _ (by decide), rfl⟩
      · exact ih htail

theorem digits_eq (id : Ulid) :
    ∃ k < 8, digits 26 id.toNat = digit k :: digits 25 id.toNat := by
  have hid := id.isLt
  refine ⟨id.toNat / 32 ^ 25, ?_, ?_⟩
  · apply Nat.div_lt_of_lt_mul
    omega
  · have hlow : id.toNat / 32 ^ 25 % 32 = id.toNat / 32 ^ 25 := by
      apply Nat.mod_eq_of_lt
      omega
    rw [digits, hlow]

theorem digit_injective : ∀ j < 32, ∀ k < 32, digit j = digit k → j = k := by decide

theorem mod_eq_of_digits_eq {n x y : ℕ} (h : digits n x = digits n y) :
    x % 32 ^ n = y % 32 ^ n := by
  induction n with
  | zero => rw [Nat.pow_zero, Nat.mod_one, Nat.mod_one]
  | succ n ih =>
      rw [digits, digits, List.cons.injEq] at h
      have hhigh := digit_injective _ (Nat.mod_lt _ (by decide)) _ (Nat.mod_lt _ (by decide)) h.1
      rw [Nat.pow_succ, Nat.mod_mul, Nat.mod_mul, ih h.2, hhigh]

theorem text_injective : Function.Injective text := by
  intro id id' h
  have hmod := mod_eq_of_digits_eq (String.ofList_injective h)
  have hid := id.isLt
  have hid' := id'.isLt
  rw [Nat.mod_eq_of_lt (by omega), Nat.mod_eq_of_lt (by omega)] at hmod
  exact BitVec.eq_of_toNat_eq hmod

end Ulid

end Ulpf.Lib
