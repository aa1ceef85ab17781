import Mathlib.Logic.Function.Basic
import Mathlib.Data.List.Basic

/-!
A family of stacks, one for each key, whose last item is never popped.
-/

namespace Ulpf.Lib

universe u v

/-- The stack of each key, its top first. -/
abbrev Stacks (κ : Type u) (α : Type v) := κ → List α

namespace Stacks

variable {κ : Type u} {α : Type v}

/-- No stack has an item. -/
def empty : Stacks κ α := fun _ => []

@[simp] theorem empty_apply (key : κ) : (empty : Stacks κ α) key = [] := rfl

variable [DecidableEq κ]

/-- An item goes onto the stack of a key. -/
def push (family : Stacks κ α) (key : κ) (item : α) : Stacks κ α :=
  Function.update family key (item :: family key)

/-- The item a pop brings to the top, with the stacks after it. -/
def pop (family : Stacks κ α) (key : κ) : Option (α × Stacks κ α) :=
  match family key with
  | _ :: item :: rest => some (item, Function.update family key (item :: rest))
  | _ => none

@[simp] theorem push_self (family : Stacks κ α) (key : κ) (item : α) :
    family.push key item key = item :: family key := by
  simp [push]

theorem push_of_ne (family : Stacks κ α) {key other : κ} (item : α) (hne : other ≠ key) :
    family.push key item other = family other :=
  Function.update_of_ne hne _ _

theorem pop_eq_none_iff (family : Stacks κ α) (key : κ) :
    family.pop key = none ↔ (family key).tail = [] := by
  unfold pop
  rcases family key with _ | ⟨top, _ | ⟨item, rest⟩⟩ <;> simp

theorem pop_eq_some_iff (family popped : Stacks κ α) (key : κ) (item : α) :
    family.pop key = some (item, popped) ↔
      ∃ top rest, family key = top :: item :: rest ∧
        popped = Function.update family key (item :: rest) := by
  unfold pop
  rcases family key with _ | ⟨top, _ | ⟨item', rest⟩⟩
  · simp
  · simp
  · simp only [Option.some.injEq, Prod.mk.injEq, List.cons.injEq]
    constructor
    · rintro ⟨rfl, rfl⟩
      exact ⟨top, rest, ⟨rfl, rfl, rfl⟩, rfl⟩
    · rintro ⟨_, _, ⟨rfl, rfl, rfl⟩, rfl⟩
      exact ⟨rfl, rfl⟩

theorem mem_of_pop {family : Stacks κ α} {key other : κ} {popped : α × Stacks κ α} {item : α}
    (h : family.pop key = some popped) (hmem : item ∈ popped.2 other) : item ∈ family other := by
  obtain ⟨top, rest, hstack, hpopped⟩ := (pop_eq_some_iff family popped.2 key popped.1).mp h
  rw [hpopped] at hmem
  by_cases hother : other = key
  · subst hother
    rw [Function.update_self] at hmem
    rw [hstack]
    exact List.mem_cons_of_mem _ hmem
  · rwa [Function.update_of_ne hother] at hmem

theorem pop_push (family : Stacks κ α) {key : κ} {top : α} (item : α)
    (htop : (family key).head? = some top) :
    (family.push key item).pop key = some (top, family) := by
  obtain ⟨rest, hstack⟩ := List.head?_eq_some_iff.mp htop
  rw [pop_eq_some_iff]
  refine ⟨item, rest, by rw [push_self, hstack], ?_⟩
  rw [push, Function.update_idem, ← hstack, Function.update_eq_self]

end Stacks

end Ulpf.Lib
