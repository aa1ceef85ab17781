import Mathlib.Data.List.Basic

/-!
A bounded first-in first-out queue that drops what it has no room for: what it
hands out over a list of operations, and what it still holds.
-/

namespace Ulpf.Lib

universe u

variable {α : Type u} {capacity : ℕ}

/-- A queue that holds at most `capacity` items. -/
structure BoundedQueue (α : Type u) (capacity : ℕ) where
  pending : List α
  bounded : pending.length ≤ capacity

/-- The operations of a queue. -/
inductive QueueOp (α : Type u) where
  | offer (item : α)
  | take

namespace BoundedQueue

def empty : BoundedQueue α capacity := ⟨[], Nat.zero_le _⟩

/-- Append an item, or drop it when the queue is full. -/
def offer (q : BoundedQueue α capacity) (item : α) : BoundedQueue α capacity :=
  if h : q.pending.length < capacity then
    ⟨q.pending ++ [item], by simpa using Nat.succ_le_of_lt h⟩
  else q

/-- Hand out the oldest item. -/
def take (q : BoundedQueue α capacity) : Option α × BoundedQueue α capacity :=
  match q with
  | ⟨[], h⟩ => (none, ⟨[], h⟩)
  | ⟨item :: rest, h⟩ => (some item, ⟨rest, Nat.le_of_succ_le h⟩)

/-- What one operation hands out, and the queue after it. -/
def step (q : BoundedQueue α capacity) : QueueOp α → Option α × BoundedQueue α capacity
  | .offer item => (none, q.offer item)
  | .take => q.take

/-- The items a list of operations hands out, and the queue after them. -/
def run (q : BoundedQueue α capacity) : List (QueueOp α) → List α × BoundedQueue α capacity
  | [] => ([], q)
  | op :: ops =>
      let (handed, q') := q.step op
      let (taken, final) := q'.run ops
      (handed.toList ++ taken, final)

theorem run_cons (q : BoundedQueue α capacity) (op : QueueOp α) (ops : List (QueueOp α)) :
    q.run (op :: ops) =
      ((q.step op).1.toList ++ ((q.step op).2.run ops).1, ((q.step op).2.run ops).2) := rfl

@[simp] theorem run_nil (q : BoundedQueue α capacity) : q.run [] = ([], q) := rfl

theorem run_append (q : BoundedQueue α capacity) (ops ops' : List (QueueOp α)) :
    q.run (ops ++ ops') =
      ((q.run ops).1 ++ ((q.run ops).2.run ops').1, ((q.run ops).2.run ops').2) := by
  induction ops generalizing q with
  | nil => simp
  | cons op ops ih => simp [run_cons, ih]

@[simp] theorem run_singleton (q : BoundedQueue α capacity) (op : QueueOp α) :
    q.run [op] = ((q.step op).1.toList, (q.step op).2) := by
  simp [run_cons]

@[simp] theorem pending_empty : (empty : BoundedQueue α capacity).pending = [] := rfl

theorem pending_offer (q : BoundedQueue α capacity) (item : α) :
    (q.offer item).pending =
      q.pending ++ (if q.pending.length < capacity then [item] else []) := by
  unfold offer
  split <;> simp

theorem taken_append_pending (q : BoundedQueue α capacity) :
    q.take.1.toList ++ q.take.2.pending = q.pending := by
  obtain ⟨pending, h⟩ := q
  cases pending with
  | nil => rfl
  | cons item rest => rfl

end BoundedQueue

end Ulpf.Lib
