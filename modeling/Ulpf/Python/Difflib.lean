import Ulpf.Lib.Rounding

/-!
`difflib.SequenceMatcher(None, a, b).ratio()`: the longest block that two texts share is
found, and then the longest ones to its left and to its right.
-/

namespace Ulpf.Python.Difflib

open Ulpf.Lib.Binary64 (fl fl_one fl_monotone)

/-- A block `a[i:i+size] == b[j:j+size]`. -/
structure Block where
  i : ℕ
  j : ℕ
  size : ℕ
  deriving DecidableEq

/-- How far two texts agree from their starts on, in characters that may be used. -/
def agreement (usable : Char → Bool) : List Char → List Char → ℕ
  | x :: a, y :: b => if x = y ∧ usable y then agreement usable a b + 1 else 0
  | _, _ => 0

/-- The characters that the automatic junk heuristic leaves out of a text: those that make
up more than one percent of a text of at least 200 characters. -/
def popular (b : List Char) (y : Char) : Bool :=
  200 ≤ b.length ∧ b.length / 100 + 1 < b.count y

/-- The longest block of usable characters; of several the one that starts earliest in `a`,
and of these the one that starts earliest in `b`. -/
def longestUsable (usable : Char → Bool) (a b : List Char) : Block :=
  ((List.range a.length).flatMap fun i => (List.range b.length).map fun j => (i, j)).foldl
    (fun best start =>
      let size := agreement usable (a.drop start.1) (b.drop start.2)
      if best.size < size then ⟨start.1, start.2, size⟩ else best)
    ⟨0, 0, 0⟩

/-- `find_longest_match`: the longest block of usable characters, extended to both sides as
far as the texts agree. -/
def findLongestMatch (usable : Char → Bool) (a b : List Char) : Block :=
  let best := longestUsable usable a b
  let before := agreement (fun _ => true) (a.take best.i).reverse (b.take best.j).reverse
  let after :=
    agreement (fun _ => true) (a.drop (best.i + best.size)) (b.drop (best.j + best.size))
  ⟨best.i - before, best.j - before, before + best.size + after⟩

/-- The characters in matching blocks. Every block shortens the texts on its two sides, so
the length of a text bounds the depth. -/
def matching (usable : Char → Bool) : ℕ → List Char → List Char → ℕ
  | 0, _, _ => 0
  | fuel + 1, a, b =>
      let m := findLongestMatch usable a b
      if m.size = 0 then 0
      else
        matching usable fuel (a.take m.i) (b.take m.j) + m.size +
          matching usable fuel (a.drop (m.i + m.size)) (b.drop (m.j + m.size))

/-- `SequenceMatcher(None, a, b).ratio()` -/
def ratio (a b : List Char) : ℚ :=
  if a.length + b.length = 0 then 1
  else
    fl (2 * matching (fun y => !popular b y) a.length a b / (a.length + b.length : ℕ))

section Blocks

variable {usable : Char → Bool} {a b : List Char}

theorem take_agreement (usable : Char → Bool) (a b : List Char) :
    a.take (agreement usable a b) = b.take (agreement usable a b) := by
  induction a generalizing b with
  | nil => rfl
  | cons x a ih =>
      cases b with
      | nil => rfl
      | cons y b =>
          rw [agreement]
          split
          · rename_i h
            rw [List.take_succ_cons, List.take_succ_cons, ih, h.1]
          · rfl

theorem agreement_le (usable : Char → Bool) (a b : List Char) :
    agreement usable a b ≤ a.length ∧ agreement usable a b ≤ b.length := by
  induction a generalizing b with
  | nil => exact ⟨Nat.zero_le _, Nat.zero_le _⟩
  | cons x a ih =>
      cases b with
      | nil => exact ⟨Nat.zero_le _, Nat.zero_le _⟩
      | cons y b =>
          rw [agreement]
          split
          · exact ⟨Nat.succ_le_succ (ih b).1, Nat.succ_le_succ (ih b).2⟩
          · exact ⟨Nat.zero_le _, Nat.zero_le _⟩

/-- A block lies in both texts and is the same in both. -/
structure IsBlock (a b : List Char) (m : Block) : Prop where
  left : m.i + m.size ≤ a.length
  right : m.j + m.size ≤ b.length
  same : (a.drop m.i).take m.size = (b.drop m.j).take m.size

theorem isBlock_agreement {i j : ℕ} (hi : i ≤ a.length) (hj : j ≤ b.length) :
    IsBlock a b ⟨i, j, agreement usable (a.drop i) (b.drop j)⟩ := by
  obtain ⟨ha, hb⟩ := agreement_le usable (a.drop i) (b.drop j)
  rw [List.length_drop] at ha hb
  exact ⟨by dsimp only; omega, by dsimp only; omega, take_agreement _ _ _⟩

theorem isBlock_longestUsable (usable : Char → Bool) (a b : List Char) :
    IsBlock a b (longestUsable usable a b) := by
  refine List.foldlRecOn _ _ ⟨Nat.zero_le _, Nat.zero_le _, rfl⟩ ?_
  intro best hbest start hstart
  obtain ⟨i, hi, j, hj, rfl⟩ : ∃ i, i ∈ List.range a.length ∧
      ∃ j, j ∈ List.range b.length ∧ (i, j) = start := by
    simpa [List.mem_flatMap, List.mem_map] using hstart
  dsimp only
  split
  · exact isBlock_agreement (List.mem_range.mp hi).le (List.mem_range.mp hj).le
  · exact hbest

theorem isBlock_extendLeft {m : Block} (h : IsBlock a b m) {k : ℕ}
    (hk : k = agreement (fun _ => true) (a.take m.i).reverse (b.take m.j).reverse) :
    k ≤ m.i ∧ k ≤ m.j ∧ IsBlock a b ⟨m.i - k, m.j - k, k + m.size⟩ := by
  obtain ⟨hleft, hright, hsame⟩ := h
  obtain ⟨ha, hb⟩ := agreement_le (fun _ => true) (a.take m.i).reverse (b.take m.j).reverse
  have hshared := take_agreement (fun _ => true) (a.take m.i).reverse (b.take m.j).reverse
  rw [← hk] at ha hb hshared
  rw [List.length_reverse, List.length_take_of_le (by omega)] at ha hb
  rw [← List.reverse_inj, List.take_reverse, List.take_reverse, List.reverse_reverse,
    List.reverse_reverse, List.length_take_of_le (by omega), List.length_take_of_le (by omega),
    List.drop_take, List.drop_take, Nat.sub_sub_self ha, Nat.sub_sub_self hb] at hshared
  refine ⟨ha, hb, by dsimp only; omega, by dsimp only; omega, ?_⟩
  rw [List.take_add, List.take_add, hshared, List.drop_drop, List.drop_drop,
    Nat.sub_add_cancel ha, Nat.sub_add_cancel hb, hsame]

theorem isBlock_extendRight {m : Block} (h : IsBlock a b m) {k : ℕ}
    (hk : k = agreement (fun _ => true) (a.drop (m.i + m.size)) (b.drop (m.j + m.size))) :
    IsBlock a b ⟨m.i, m.j, m.size + k⟩ := by
  obtain ⟨hleft, hright, hsame⟩ := h
  obtain ⟨ha, hb⟩ := agreement_le (fun _ => true) (a.drop (m.i + m.size)) (b.drop (m.j + m.size))
  have hshared :=
    take_agreement (fun _ => true) (a.drop (m.i + m.size)) (b.drop (m.j + m.size))
  rw [← hk] at ha hb hshared
  rw [List.length_drop] at ha hb
  refine ⟨by dsimp only; omega, by dsimp only; omega, ?_⟩
  rw [List.take_add, List.take_add, hsame, List.drop_drop, List.drop_drop, hshared]

theorem isBlock_findLongestMatch (usable : Char → Bool) (a b : List Char) :
    IsBlock a b (findLongestMatch usable a b) := by
  have hbest := isBlock_longestUsable usable a b
  obtain ⟨hi, hj, hextended⟩ := isBlock_extendLeft hbest rfl
  refine isBlock_extendRight hextended ?_
  dsimp only
  rw [← Nat.add_assoc, ← Nat.add_assoc, Nat.sub_add_cancel hi, Nat.sub_add_cancel hj]

theorem exists_sublist_matching (usable : Char → Bool) (fuel : ℕ) (a b : List Char) :
    ∃ s : List Char, s.Sublist a ∧ s.Sublist b ∧ s.length = matching usable fuel a b := by
  induction fuel generalizing a b with
  | zero => exact ⟨[], List.nil_sublist _, List.nil_sublist _, rfl⟩
  | succ fuel ih =>
      rw [matching]
      split
      · exact ⟨[], List.nil_sublist _, List.nil_sublist _, rfl⟩
      · obtain ⟨hleft, -, hsame⟩ := isBlock_findLongestMatch usable a b
        generalize findLongestMatch usable a b = m at *
        obtain ⟨s, hsa, hsb, hs⟩ := ih (a.take m.i) (b.take m.j)
        obtain ⟨t, hta, htb, ht⟩ := ih (a.drop (m.i + m.size)) (b.drop (m.j + m.size))
        have hcut (c : List Char) (i : ℕ) :
            c = c.take i ++ (c.drop i).take m.size ++ c.drop (i + m.size) := by
          rw [← List.drop_drop, List.append_assoc, List.take_append_drop, List.take_append_drop]
        refine ⟨s ++ (a.drop m.i).take m.size ++ t, ?_, ?_, ?_⟩
        · have hsub := (hsa.append_right ((a.drop m.i).take m.size)).append hta
          rwa [← hcut a m.i] at hsub
        · have hsub := (hsb.append_right ((b.drop m.j).take m.size)).append htb
          rwa [← hcut b m.j, ← hsame] at hsub
        · rw [List.length_append, List.length_append, hs, ht,
            List.length_take_of_le (by rw [List.length_drop]; omega)]

theorem matching_le (usable : Char → Bool) (fuel : ℕ) (a b : List Char) :
    matching usable fuel a b ≤ b.length := by
  obtain ⟨s, -, hb, hs⟩ := exists_sublist_matching usable fuel a b
  rw [← hs]
  exact hb.length_le

theorem two_mul_matching_lt (h : a ≠ b) (usable : Char → Bool) (fuel : ℕ) :
    2 * matching usable fuel a b < a.length + b.length := by
  obtain ⟨s, ha, hb, hs⟩ := exists_sublist_matching usable fuel a b
  rw [← hs]
  by_contra hall
  have hlengthA := ha.length_le
  have hlengthB := hb.length_le
  have hsa : s = a := ha.eq_of_length (by omega)
  have hsb : s = b := hb.eq_of_length (by omega)
  exact h (hsa.symm.trans hsb)

/-- A text that is short against `n` is a part of `n` away from every other one. -/
theorem ratio_le (h : a ≠ b) {n : ℕ} (hn : 2 * b.length < n) :
    ratio a b ≤ fl ((n - 1 : ℕ) / n) := by
  have hlt := two_mul_matching_lt h (fun y => !popular b y) a.length
  have hle := matching_le (fun y => !popular b y) a.length a b
  rw [ratio, if_neg (by omega)]
  generalize matching (fun y => !popular b y) a.length a b = m at *
  generalize a.length + b.length = total at *
  apply fl_monotone
  rw [div_le_div_iff₀ (by exact_mod_cast (by omega : 0 < total))
    (by exact_mod_cast (by omega : 0 < n))]
  have hscaled : 2 * m * n ≤ (n - 1) * total := by
    obtain hsmall | hlarge := le_total total n
    · calc 2 * m * n ≤ (total - 1) * n := Nat.mul_le_mul_right n (by omega)
        _ = n * total - n := by rw [Nat.sub_mul, Nat.one_mul, Nat.mul_comm]
        _ ≤ n * total - total := Nat.sub_le_sub_left hsmall _
        _ = (n - 1) * total := by rw [Nat.sub_mul, Nat.one_mul]
    · exact Nat.mul_le_mul (by omega) hlarge
  exact_mod_cast hscaled

theorem ratio_le_one (a b : List Char) : ratio a b ≤ 1 := by
  obtain rfl | h := eq_or_ne a b
  · rw [ratio]
    split
    · exact le_rfl
    · rename_i hne
      rw [← fl_one]
      apply fl_monotone
      rw [div_le_one (by exact_mod_cast Nat.pos_of_ne_zero hne)]
      exact_mod_cast (by
        have := matching_le (fun y => !popular a y) a.length a a
        omega : 2 * matching (fun y => !popular a y) a.length a a ≤ a.length + a.length)
  · rw [← fl_one]
    refine (ratio_le h (Nat.lt_succ_self _)).trans (fl_monotone ?_)
    exact div_le_one_of_le₀ (by exact_mod_cast Nat.sub_le _ _) (Nat.cast_nonneg _)

end Blocks

end Ulpf.Python.Difflib
