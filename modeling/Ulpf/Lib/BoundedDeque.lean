import Mathlib.Data.List.DropRight

/-!
A queue of bounded length that drops its oldest items for the ones it is given,
and the longest end of a list of a given length, which is what it holds.
-/

namespace Ulpf.Lib

universe u

variable {α : Type u} {maxlen n : ℕ} {items : List α}

theorem rtake_suffix (n : ℕ) (items : List α) : items.rtake n <:+ items :=
  List.drop_suffix _ _

@[simp] theorem length_rtake (n : ℕ) (items : List α) :
    (items.rtake n).length = min n items.length := by
  rw [List.rtake, List.length_drop]
  omega

theorem rtake_of_length_le (h : items.length ≤ n) : items.rtake n = items := by
  rw [List.rtake, Nat.sub_eq_zero_of_le h, List.drop_zero]

theorem length_le_length_rtake {suffix : List α} (hsuffix : suffix <:+ items)
    (hlength : suffix.length ≤ n) : suffix.length ≤ (items.rtake n).length := by
  rw [length_rtake]
  exact le_min hlength hsuffix.length_le

theorem rtake_rtake_concat (n : ℕ) (items : List α) (item : α) :
    (items.rtake n ++ [item]).rtake n = (items ++ [item]).rtake n := by
  cases n with
  | zero => simp
  | succ n =>
      rw [List.rtake_concat_succ, List.rtake_concat_succ]
      congr 1
      rw [List.rtake, List.rtake, List.rtake, List.length_drop, List.drop_drop]
      congr 1
      omega

/-- A list of at most `maxlen` items. -/
structure BoundedDeque (α : Type u) (maxlen : ℕ) where
  items : List α
  bounded : items.length ≤ maxlen

namespace BoundedDeque

def empty : BoundedDeque α maxlen := ⟨[], Nat.zero_le _⟩

/-- Append an item, and drop the oldest one where that makes one too many. -/
def append (d : BoundedDeque α maxlen) (item : α) : BoundedDeque α maxlen :=
  if h : d.items.length < maxlen then
    ⟨d.items ++ [item], by simpa using Nat.succ_le_of_lt h⟩
  else
    ⟨(d.items ++ [item]).tail, by simpa using d.bounded⟩

@[simp] theorem items_empty : (empty : BoundedDeque α maxlen).items = [] := rfl

theorem items_append (d : BoundedDeque α maxlen) (item : α) :
    (d.append item).items = (d.items ++ [item]).rtake maxlen := by
  have hbounded := d.bounded
  unfold append
  split
  · rename_i hroom
    rw [rtake_of_length_le]
    simpa using Nat.succ_le_of_lt hroom
  · rename_i hfull
    have hlength : d.items.length + 1 - maxlen = 1 := by omega
    rw [List.rtake, List.length_append, List.length_singleton, hlength, List.drop_one]

theorem items_append_of_eq_rtake {d : BoundedDeque α maxlen} (h : d.items = items.rtake maxlen)
    (item : α) : (d.append item).items = (items ++ [item]).rtake maxlen := by
  rw [items_append, h, rtake_rtake_concat]

end BoundedDeque

end Ulpf.Lib
