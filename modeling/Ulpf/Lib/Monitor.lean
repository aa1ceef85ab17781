import Mathlib.Data.List.ReduceOption
import Mathlib.Logic.Function.Basic
import Ulpf.Lib.Run

/-!
Objects whose methods hold one lock over their whole body, called by any number
of threads. However the statements of the threads interleave, the calls are
served one after the other, in the order in which they release the lock.
-/

namespace Ulpf.Lib

universe u v w x y

variable {ι : Type u} {κ : Type v} {σ : Type w} {ℓ : Type x} {ο : Type y}

/-- A statement reads and writes the shared state and the locals of its call. -/
abbrev Statement (σ : Type w) (ℓ : Type x) := σ × ℓ → σ × ℓ

/-- The methods of an object: the statements a call runs under the lock, the locals it
starts with, and what it returns. -/
structure Monitor (κ : Type v) (σ : Type w) (ℓ : Type x) (ο : Type y) where
  body : κ → List (Statement σ ℓ)
  locals : κ → ℓ
  result : κ → ℓ → ο

namespace Monitor

/-- Where a thread is: outside the object, at its lock, or under it with the statements
still to run. -/
inductive Phase (κ : Type v) (σ : Type w) (ℓ : Type x) where
  | idle
  | waiting (call : κ)
  | inside (call : κ) (rest : List (Statement σ ℓ)) (locals : ℓ)

/-- The shared state, the thread that holds the lock, and how far every thread has come. -/
structure State (ι : Type u) (κ : Type v) (σ : Type w) (ℓ : Type x) where
  shared : σ
  holder : Option ι
  phase : ι → Phase κ σ ℓ

/-- A thread calls, or takes its next step. -/
inductive Action (ι : Type u) (κ : Type v) where
  | invoke (thread : ι) (call : κ)
  | advance (thread : ι)

def start (shared : σ) : State ι κ σ ℓ := ⟨shared, none, fun _ => .idle⟩

def execute (statements : List (Statement σ ℓ)) (s : σ × ℓ) : σ × ℓ :=
  statements.foldl (fun s statement => statement s) s

/-- What a call returns, and the shared state after it, when no other thread is there. -/
def alone (m : Monitor κ σ ℓ ο) (shared : σ) (call : κ) : ο × σ :=
  (m.result call (execute (m.body call) (shared, m.locals call)).2,
    (execute (m.body call) (shared, m.locals call)).1)

section Step

variable [DecidableEq ι]

/-- One atomic action of a thread, with the call it completes and what that returns. A thread
that is busy takes no other call, and one at a lock that is held stays there. -/
def step (m : Monitor κ σ ℓ ο) (s : State ι κ σ ℓ) :
    Action ι κ → Option (κ × ο) × State ι κ σ ℓ
  | .invoke thread call =>
      match s.phase thread with
      | .idle => (none, { s with phase := Function.update s.phase thread (.waiting call) })
      | _ => (none, s)
  | .advance thread =>
      match s.phase thread with
      | .idle => (none, s)
      | .waiting call =>
          match s.holder with
          | some _ => (none, s)
          | none =>
              (none, ⟨s.shared, some thread,
                Function.update s.phase thread (.inside call (m.body call) (m.locals call))⟩)
      | .inside call [] locals =>
          (some (call, m.result call locals),
            ⟨s.shared, none, Function.update s.phase thread .idle⟩)
      | .inside call (statement :: rest) locals =>
          (none, ⟨(statement (s.shared, locals)).1, s.holder,
            Function.update s.phase thread
              (.inside call rest (statement (s.shared, locals)).2)⟩)

/-- The calls completed by a schedule with what they returned, in the order in which they
released the lock. -/
def completed (m : Monitor κ σ ℓ ο) (s : State ι κ σ ℓ) (schedule : List (Action ι κ)) :
    List (κ × ο) :=
  (runInputs m.step s schedule).1.reduceOption

end Step

/-- The shared state is `base` up to the statements the holder of the lock has run, and
nobody else is inside. -/
structure Settled (m : Monitor κ σ ℓ ο) (base : σ) (s : State ι κ σ ℓ) : Prop where
  free : s.holder = none → s.shared = base
  inside : ∀ thread call rest locals, s.phase thread = .inside call rest locals →
    s.holder = some thread ∧ ∃ done, m.body call = done ++ rest ∧
      execute done (base, m.locals call) = (s.shared, locals)
  held : ∀ thread, s.holder = some thread →
    ∃ call rest locals, s.phase thread = .inside call rest locals

variable {m : Monitor κ σ ℓ ο} {base : σ} {s : State ι κ σ ℓ}

theorem settled_start (m : Monitor κ σ ℓ ο) (shared : σ) :
    Settled m shared (start shared : State ι κ σ ℓ) where
  free _ := rfl
  inside _ _ _ _ h := by cases h
  held _ h := by cases h

@[simp] theorem execute_nil (s : σ × ℓ) : execute ([] : List (Statement σ ℓ)) s = s := rfl

theorem execute_concat (done : List (Statement σ ℓ)) (statement : Statement σ ℓ) (s : σ × ℓ) :
    execute (done ++ [statement]) s = statement (execute done s) := by
  simp [execute]

theorem Settled.not_inside_of_ne (h : Settled m base s) {thread other : ι}
    (hholder : s.holder = some thread) (hne : other ≠ thread) (call : κ)
    (rest : List (Statement σ ℓ)) (locals : ℓ) : s.phase other ≠ .inside call rest locals := by
  intro hinside
  have hother := (h.inside other call rest locals hinside).1
  rw [hholder, Option.some.injEq] at hother
  exact hne hother.symm

theorem Settled.not_inside_of_free (h : Settled m base s) (hfree : s.holder = none)
    (other : ι) (call : κ) (rest : List (Statement σ ℓ)) (locals : ℓ) :
    s.phase other ≠ .inside call rest locals := by
  intro hinside
  have hother := (h.inside other call rest locals hinside).1
  simp [hfree] at hother

variable [DecidableEq ι]

theorem Settled.update_outside (h : Settled m base s) {thread : ι} {phase : Phase κ σ ℓ}
    (hbefore : ∀ call rest locals, s.phase thread ≠ .inside call rest locals)
    (hafter : ∀ call rest locals, phase ≠ .inside call rest locals) :
    Settled m base { s with phase := Function.update s.phase thread phase } where
  free := h.free
  inside other call rest locals hother := by
    by_cases hthread : other = thread
    · subst hthread
      simp only [Function.update_self] at hother
      exact absurd hother (hafter call rest locals)
    · simp only [Function.update_of_ne hthread] at hother
      exact h.inside other call rest locals hother
  held other hholder := by
    obtain ⟨call, rest, locals, hinside⟩ := h.held other hholder
    have hthread : other ≠ thread := by
      rintro rfl
      exact hbefore call rest locals hinside
    exact ⟨call, rest, locals, by simpa only [Function.update_of_ne hthread] using hinside⟩

theorem Settled.of_holder {s' : State ι κ σ ℓ} {thread : ι} {call : κ}
    {done rest : List (Statement σ ℓ)} {locals : ℓ}
    (hholder : s'.holder = some thread)
    (hphase : s'.phase thread = .inside call rest locals)
    (hothers : ∀ other, other ≠ thread →
      ∀ call rest locals, s'.phase other ≠ .inside call rest locals)
    (hbody : m.body call = done ++ rest)
    (hdone : execute done (base, m.locals call) = (s'.shared, locals)) : Settled m base s' where
  free hfree := by simp [hholder] at hfree
  inside other call' rest' locals' hother := by
    by_cases hthread : other = thread
    · subst hthread
      rw [hphase] at hother
      cases hother
      exact ⟨hholder, done, hbody, hdone⟩
    · exact absurd hother (hothers other hthread call' rest' locals')
  held other hother := by
    rw [hholder, Option.some.injEq] at hother
    subst hother
    exact ⟨call, rest, locals, hphase⟩

theorem Settled.acquire (h : Settled m base s) {thread : ι} {call : κ}
    (hfree : s.holder = none) :
    Settled m base ⟨s.shared, some thread,
      Function.update s.phase thread (.inside call (m.body call) (m.locals call))⟩ := by
  refine .of_holder rfl (Function.update_self ..) ?_ (List.nil_append _).symm ?_
  · intro other hne call' rest locals
    simp only [Function.update_of_ne hne]
    exact h.not_inside_of_free hfree other call' rest locals
  · rw [execute_nil, h.free hfree]

theorem Settled.statement (h : Settled m base s) {thread : ι} {call : κ}
    {statement : Statement σ ℓ} {rest : List (Statement σ ℓ)} {locals : ℓ}
    (hphase : s.phase thread = .inside call (statement :: rest) locals) :
    Settled m base ⟨(statement (s.shared, locals)).1, s.holder,
      Function.update s.phase thread (.inside call rest (statement (s.shared, locals)).2)⟩ := by
  obtain ⟨hholder, done, hbody, hdone⟩ := h.inside thread call _ locals hphase
  have hbody' : m.body call = (done ++ [statement]) ++ rest := by
    rw [hbody, List.append_assoc, List.singleton_append]
  refine .of_holder hholder (Function.update_self ..) ?_ hbody' ?_
  · intro other hne call' rest' locals'
    simp only [Function.update_of_ne hne]
    exact h.not_inside_of_ne hholder hne call' rest' locals'
  · rw [execute_concat, hdone]

/-- A call that releases the lock has done what it does alone. -/
theorem Settled.release (h : Settled m base s) {thread : ι} {call : κ} {locals : ℓ}
    (hphase : s.phase thread = .inside call [] locals) :
    m.alone base call = (m.result call locals, s.shared) ∧
      Settled m s.shared ⟨s.shared, none, Function.update s.phase thread .idle⟩ := by
  obtain ⟨hholder, done, hbody, hdone⟩ := h.inside thread call _ locals hphase
  refine ⟨?_, fun _ => rfl, ?_, fun _ h => by cases h⟩
  · rw [alone, hbody, List.append_nil, hdone]
  · intro other call' rest' locals' hother
    by_cases hthread : other = thread
    · subst hthread
      simp only [Function.update_self] at hother
      cases hother
    · simp only [Function.update_of_ne hthread] at hother
      exact absurd hother (h.not_inside_of_ne hholder hthread call' rest' locals')

/-- One action either completes no call and leaves the state settled, or completes one
that did what it does alone. -/
theorem Settled.step (h : Settled m base s) (action : Action ι κ) :
    match (m.step s action).1 with
    | none => Settled m base (m.step s action).2
    | some (call, output) =>
        output = (m.alone base call).1 ∧
          Settled m (m.alone base call).2 (m.step s action).2 := by
  cases action with
  | invoke thread call =>
      cases hphase : s.phase thread with
      | idle =>
          simp only [Monitor.step, hphase]
          exact h.update_outside (by simp [hphase]) (by simp)
      | waiting call' => simpa only [Monitor.step, hphase] using h
      | inside call' rest locals => simpa only [Monitor.step, hphase] using h
  | advance thread =>
      cases hphase : s.phase thread with
      | idle => simpa only [Monitor.step, hphase] using h
      | waiting call =>
          cases hholder : s.holder with
          | some other => simpa only [Monitor.step, hphase, hholder] using h
          | none =>
              simp only [Monitor.step, hphase, hholder]
              exact h.acquire hholder
      | inside call rest locals =>
          cases rest with
          | nil =>
              obtain ⟨halone, hsettled⟩ := h.release hphase
              simp only [Monitor.step, hphase, halone]
              exact ⟨trivial, hsettled⟩
          | cons statement rest =>
              simp only [Monitor.step, hphase]
              exact h.statement hphase

/-- Whatever the schedule, the completed calls return what they return one after the
other, and the shared state is settled at the state they leave. -/
theorem Settled.run (h : Settled m base s) (schedule : List (Action ι κ)) :
    (runInputs m.alone base ((m.completed s schedule).map Prod.fst)).1 =
        (m.completed s schedule).map Prod.snd ∧
      Settled m (runInputs m.alone base ((m.completed s schedule).map Prod.fst)).2
        (runInputs m.step s schedule).2 := by
  induction schedule generalizing s base with
  | nil => exact ⟨rfl, h⟩
  | cons action schedule ih =>
      have hstep := h.step action
      simp only [completed, runInputs_cons]
      cases houtput : (m.step s action).1 with
      | none =>
          rw [houtput] at hstep
          rw [List.reduceOption_cons_of_none]
          exact ih hstep
      | some entry =>
          obtain ⟨call, output⟩ := entry
          rw [houtput] at hstep
          obtain ⟨rfl, hnext⟩ := hstep
          obtain ⟨houtputs, hlast⟩ := ih hnext
          rw [List.reduceOption_cons_of_some, List.map_cons, runInputs_cons, List.map_cons]
          exact ⟨congrArg (List.cons _) houtputs, hlast⟩

theorem shared_eq_of_free (shared : σ) (schedule : List (Action ι κ))
    (hfree : (runInputs m.step (start shared) schedule).2.holder = none) :
    (runInputs m.step (start shared) schedule).2.shared =
      (runInputs m.alone shared ((m.completed (start shared) schedule).map Prod.fst)).2 :=
  ((settled_start m shared).run schedule).2.free hfree

theorem output_eq_of_completed {shared : σ} {schedule : List (Action ι κ)}
    {before after : List (κ × ο)} {call : κ} {output : ο}
    (hcompleted : m.completed (start shared) schedule = before ++ (call, output) :: after) :
    output = (m.alone (runInputs m.alone shared (before.map Prod.fst)).2 call).1 := by
  have houtputs := ((settled_start m shared).run schedule).1
  rw [hcompleted, List.map_append, List.map_append, List.map_cons, List.map_cons,
    runInputs_append, runInputs_cons] at houtputs
  have hlength : (runInputs m.alone shared (before.map Prod.fst)).1.length =
      (before.map Prod.snd).length := by
    rw [length_runInputs, List.length_map, List.length_map]
  exact (List.cons.inj (List.append_inj_right houtputs hlength)).1.symm

end Monitor

end Ulpf.Lib
