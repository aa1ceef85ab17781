import Mathlib.Data.List.Basic

/-!
Runs of a system that takes one step for each input: which steps they consist
of, the invariants they keep, and what they accumulate.
-/

namespace Ulpf.Lib

universe u v w x

variable {σ : Type u} {ι : Type v} {ο : Type w}

/-- One step of a run: the states around it, its input and its output. -/
structure Transition (σ : Type u) (ι : Type v) (ο : Type w) where
  before : σ
  input : ι
  output : ο
  after : σ

/-- A run from one state to another, with its transitions in order. -/
inductive Run (step : σ → ι → ο → σ → Prop) : σ → List (Transition σ ι ο) → σ → Prop where
  | nil (s : σ) : Run step s [] s
  | cons {s s' t : σ} {i : ι} {o : ο} {rest : List (Transition σ ι ο)}
      (head : step s i o s') (tail : Run step s' rest t) : Run step s (⟨s, i, o, s'⟩ :: rest) t

namespace Run

variable {step : σ → ι → ο → σ → Prop} {s t : σ} {trace : List (Transition σ ι ο)}

theorem step_of_mem (h : Run step s trace t) {tr : Transition σ ι ο} (hmem : tr ∈ trace) :
    step tr.before tr.input tr.output tr.after := by
  induction h with
  | nil => simp at hmem
  | cons head tail ih =>
      rcases List.mem_cons.mp hmem with rfl | hrest
      · exact head
      · exact ih hrest

theorem invariant (P : σ → Prop) (C : σ → ι → Prop)
    (hstep : ∀ s i o s', P s → C s i → step s i o s' → P s') (h : Run step s trace t)
    (hstart : P s) (hmeets : ∀ tr ∈ trace, C tr.before tr.input) :
    P t ∧ ∀ tr ∈ trace, P tr.after := by
  induction h with
  | nil => exact ⟨hstart, by simp⟩
  | cons head tail ih =>
      have hnext := hstep _ _ _ _ hstart (hmeets _ List.mem_cons_self) head
      obtain ⟨hend, hrest⟩ := ih hnext fun tr hmem => hmeets tr (List.mem_cons_of_mem _ hmem)
      exact ⟨hend, List.forall_mem_cons.mpr ⟨hnext, hrest⟩⟩

theorem append {u : σ} {trace' : List (Transition σ ι ο)} (h : Run step s trace t)
    (h' : Run step t trace' u) : Run step s (trace ++ trace') u := by
  induction h with
  | nil => exact h'
  | cons head tail ih => exact .cons head (ih h')

/-- The part of a run that a component has a share in is a run of the component; the steps it has
no share in leave it as it is. -/
theorem project {τ : Type u} {κ : Type v} {ω : Type x} {step' : τ → κ → ω → τ → Prop} (π : σ → τ)
    (share : Transition σ ι ο → Option (κ × ω))
    (hshare : ∀ s i o s' k o', step s i o s' → share ⟨s, i, o, s'⟩ = some (k, o') →
      step' (π s) k o' (π s'))
    (hrest : ∀ s i o s', step s i o s' → share ⟨s, i, o, s'⟩ = none → π s' = π s)
    (h : Run step s trace t) :
    Run step' (π s)
      (trace.filterMap fun tr => (share tr).map fun (k, o) => ⟨π tr.before, k, o, π tr.after⟩)
      (π t) := by
  induction h with
  | nil s => exact .nil _
  | @cons s s' t i o rest head tail ih =>
      cases hpart : share ⟨s, i, o, s'⟩ with
      | none =>
          rw [List.filterMap_cons_none (by rw [hpart]; rfl), ← hrest _ _ _ _ head hpart]
          exact ih
      | some part =>
          obtain ⟨k, o'⟩ := part
          rw [List.filterMap_cons_some (by rw [hpart]; rfl)]
          exact .cons (hshare _ _ _ _ _ _ head hpart) ih

theorem accumulate {γ : Type x} (log : σ → List γ) (entry : Transition σ ι ο → List γ)
    (hstep : ∀ tr : Transition σ ι ο, step tr.before tr.input tr.output tr.after →
      log tr.after = log tr.before ++ entry tr)
    (h : Run step s trace t) : log t = log s ++ trace.flatMap entry := by
  induction h with
  | nil => simp
  | cons head tail ih =>
      rw [ih, hstep ⟨_, _, _, _⟩ head, List.flatMap_cons, List.append_assoc]

end Run

section Machine

universe y

variable {τ : Type y} {step : σ → ι → ο × σ} {step' : τ → ι → ο × τ}

/-- What a machine puts out for the inputs it is given in turn, and its state after them. -/
def runInputs (step : σ → ι → ο × σ) (s : σ) : List ι → List ο × σ
  | [] => ([], s)
  | i :: inputs =>
      let (output, s') := step s i
      let (outputs, t) := runInputs step s' inputs
      (output :: outputs, t)

@[simp] theorem runInputs_nil (s : σ) : runInputs step s [] = ([], s) := rfl

@[simp] theorem runInputs_cons (s : σ) (i : ι) (inputs : List ι) :
    runInputs step s (i :: inputs) =
      ((step s i).1 :: (runInputs step (step s i).2 inputs).1,
        (runInputs step (step s i).2 inputs).2) := rfl

theorem runInputs_append (s : σ) (before after : List ι) :
    runInputs step s (before ++ after) =
      ((runInputs step s before).1 ++ (runInputs step (runInputs step s before).2 after).1,
        (runInputs step (runInputs step s before).2 after).2) := by
  induction before generalizing s with
  | nil => rfl
  | cons i before ih => rw [List.cons_append, runInputs_cons, ih, runInputs_cons, List.cons_append]

theorem length_runInputs (s : σ) (inputs : List ι) :
    (runInputs step s inputs).1.length = inputs.length := by
  induction inputs generalizing s with
  | nil => rfl
  | cons i inputs ih => rw [runInputs_cons, List.length_cons, List.length_cons, ih]

/-- Two machines whose related states put out the same and step to related states put
out the same over every list of inputs. -/
theorem runInputs_simulates (R : σ → τ → Prop)
    (hstep : ∀ s t i, R s t → (step s i).1 = (step' t i).1 ∧ R (step s i).2 (step' t i).2)
    {s : σ} {t : τ} (hrel : R s t) (inputs : List ι) :
    (runInputs step s inputs).1 = (runInputs step' t inputs).1 ∧
      R (runInputs step s inputs).2 (runInputs step' t inputs).2 := by
  induction inputs generalizing s t with
  | nil => exact ⟨rfl, hrel⟩
  | cons i inputs ih =>
      obtain ⟨houtput, hnext⟩ := hstep s t i hrel
      obtain ⟨houtputs, hlast⟩ := ih hnext
      refine ⟨?_, hlast⟩
      rw [runInputs_cons, runInputs_cons, houtput, houtputs]

/-- The steps a machine takes for the inputs it is given in turn. -/
def transitions (step : σ → ι → ο × σ) (s : σ) : List ι → List (Transition σ ι ο)
  | [] => []
  | i :: inputs => ⟨s, i, (step s i).1, (step s i).2⟩ :: transitions step (step s i).2 inputs

theorem run_transitions {system : σ → ι → ο → σ → Prop} {C : σ → ι → Prop}
    (hstep : ∀ s i, C s i → system s i (step s i).1 (step s i).2) {s : σ} (inputs : List ι)
    (hmeets : ∀ tr ∈ transitions step s inputs, C tr.before tr.input) :
    Run system s (transitions step s inputs) (runInputs step s inputs).2 := by
  induction inputs generalizing s with
  | nil => exact .nil s
  | cons i inputs ih =>
      obtain ⟨hhead, hrest⟩ := List.forall_mem_cons.mp hmeets
      exact .cons (hstep s i hhead) (ih hrest)

end Machine

end Ulpf.Lib
