import Mathlib.Data.List.Basic

/-!
Computations that can fail: what a successful one has done, and when a loop of
such computations succeeds.
-/

namespace Ulpf.Lib

universe u v

variable {ε : Type u} {α β σ : Type v}

theorem bind_eq_ok_iff {x : Except ε α} {f : α → Except ε β} {b : β} :
    x >>= f = .ok b ↔ ∃ a, x = .ok a ∧ f a = .ok b := by
  cases x with
  | error e =>
      constructor
      · intro h
        cases h
      · rintro ⟨a, ha, -⟩
        cases ha
  | ok a =>
      constructor
      · intro h
        exact ⟨a, rfl, h⟩
      · rintro ⟨a', ha, h⟩
        cases ha
        exact h

theorem map_eq_ok_iff {x : Except ε α} {f : α → β} {b : β} :
    x.map f = .ok b ↔ ∃ a, x = .ok a ∧ f a = b := by
  cases x <;> simp [Except.map]

theorem mapError_eq_ok_iff {ε' : Type u} {x : Except ε α} {f : ε → ε'} {a : α} :
    x.mapError f = .ok a ↔ x = .ok a := by
  cases x <;> simp [Except.mapError]

theorem toOption_eq_some_iff {x : Except ε α} {a : α} : x.toOption = some a ↔ x = .ok a := by
  cases x <;> simp [Except.toOption]

theorem pure_eq_ok_iff {a b : α} : (pure a : Except ε α) = .ok b ↔ a = b := by
  simp [pure, Except.pure]

@[simp] theorem ok_bind (a : α) (f : α → Except ε β) : (Except.ok a >>= f) = f a := rfl

@[simp] theorem error_bind (e : ε) (f : α → Except ε β) :
    ((Except.error e : Except ε α) >>= f) = .error e := rfl

/-- A computation returns a value. -/
def Returns (x : Except ε α) : Prop := ∃ a, x = .ok a

@[simp] theorem returns_ok (a : α) : Returns (.ok a : Except ε α) := ⟨a, rfl⟩

@[simp] theorem returns_pure (a : α) : Returns (pure a : Except ε α) := ⟨a, rfl⟩

@[simp] theorem not_returns_error (e : ε) : ¬ Returns (.error e : Except ε α) := by
  rintro ⟨a, ha⟩
  cases ha

theorem returns_bind_iff {x : Except ε α} {f : α → Except ε β} :
    Returns (x >>= f) ↔ ∃ a, x = .ok a ∧ Returns (f a) := by
  constructor
  · rintro ⟨b, hb⟩
    rcases bind_eq_ok_iff.mp hb with ⟨a, ha, hf⟩
    exact ⟨a, ha, b, hf⟩
  · rintro ⟨a, ha, b, hb⟩
    exact ⟨b, bind_eq_ok_iff.mpr ⟨a, ha, hb⟩⟩

theorem returns_bind_of_total {x : Except ε α} {f : α → Except ε β} (hf : ∀ a, Returns (f a)) :
    Returns (x >>= f) ↔ Returns x := by
  rw [returns_bind_iff]
  constructor
  · rintro ⟨a, ha, -⟩
    exact ⟨a, ha⟩
  · rintro ⟨a, ha⟩
    exact ⟨a, ha, hf a⟩

theorem returns_map_iff {x : Except ε α} {f : α → β} : Returns (x.map f) ↔ Returns x := by
  cases x <;> simp [Except.map]

/-- A loop whose rounds all succeed under an invariant, where each round
establishes a fact about its item that later rounds keep. -/
theorem foldlM_establishes {f : σ → α → Except ε σ} {xs : List α} (Inv : σ → Prop)
    (Good : α → σ → Prop)
    (hstep : ∀ s, Inv s → ∀ x ∈ xs, ∃ t, f s x = .ok t ∧ Inv t ∧ Good x t ∧
      ∀ y ∈ xs, Good y s → Good y t) {s : σ} (hstart : Inv s) :
    ∃ t, xs.foldlM f s = .ok t ∧ Inv t ∧ ∀ x ∈ xs, Good x t := by
  -- the part of the list already processed is what `Good` holds of
  have hprefix : ∀ done rest s, xs = done ++ rest → Inv s → (∀ x ∈ done, Good x s) →
      ∃ t, rest.foldlM f s = .ok t ∧ Inv t ∧ ∀ x ∈ xs, Good x t := by
    intro done rest
    induction rest generalizing done with
    | nil =>
        intro s hxs hs hdone
        rw [List.append_nil] at hxs
        exact ⟨s, rfl, hs, hxs ▸ hdone⟩
    | cons x rest ih =>
        intro s hxs hs hdone
        rcases hstep s hs x (by simp [hxs]) with ⟨t, ht, hinv, hgood, hkeep⟩
        have hdone' : ∀ y ∈ done ++ [x], Good y t := by
          intro y hy
          rcases List.mem_append.mp hy with hmem | hmem
          · exact hkeep y (by simp [hxs, hmem]) (hdone y hmem)
          · rw [List.mem_singleton.mp hmem]
            exact hgood
        rcases ih (done ++ [x]) t (by simp [hxs]) hinv hdone' with ⟨t', ht', hrest⟩
        exact ⟨t', by rw [List.foldlM_cons, ht]; exact ht', hrest⟩
  exact hprefix [] xs s rfl hstart (by simp)

theorem foldlM_eq_error {f : σ → α → Except ε σ} {xs : List α} {s : σ} {e : ε}
    (h : xs.foldlM f s = .error e) : ∃ t, ∃ x ∈ xs, f t x = .error e := by
  induction xs generalizing s with
  | nil => cases h
  | cons x xs ih =>
      rw [List.foldlM_cons] at h
      cases hx : f s x with
      | error e' =>
          rw [hx] at h
          cases h
          exact ⟨s, x, List.mem_cons_self, hx⟩
      | ok t =>
          rw [hx, ok_bind] at h
          obtain ⟨t', x', hmem, hx'⟩ := ih h
          exact ⟨t', x', List.mem_cons_of_mem _ hmem, hx'⟩

/-- A loop succeeds when whether a round does depends on its item only. -/
theorem returns_foldlM_iff {f : σ → α → Except ε σ} {xs : List α} {P : α → Prop}
    (hround : ∀ s, ∀ x ∈ xs, Returns (f s x) ↔ P x) (s : σ) :
    Returns (xs.foldlM f s) ↔ ∀ x ∈ xs, P x := by
  induction xs generalizing s with
  | nil => simp
  | cons x xs ih =>
      rw [List.foldlM_cons, returns_bind_iff]
      have hx := hround s x (by simp)
      have hrest := fun s => ih (fun s y hy => hround s y (by simp [hy])) s
      constructor
      · rintro ⟨s', hs', hreturns⟩ y hy
        rcases List.mem_cons.mp hy with rfl | hmem
        · exact hx.mp ⟨s', hs'⟩
        · exact (hrest s').mp hreturns y hmem
      · intro hall
        rcases hx.mpr (hall x (by simp)) with ⟨s', hs'⟩
        exact ⟨s', hs', (hrest s').mpr fun y hy => hall y (by simp [hy])⟩

theorem returns_mapM_iff {f : α → Except ε β} {xs : List α} :
    Returns (xs.mapM f) ↔ ∀ x ∈ xs, Returns (f x) := by
  induction xs with
  | nil => simp
  | cons x xs ih =>
      simp only [List.mapM_cons, returns_bind_iff, List.forall_mem_cons]
      constructor
      · rintro ⟨y, hy, ys, hys, -⟩
        exact ⟨⟨y, hy⟩, ih.mp ⟨ys, hys⟩⟩
      · rintro ⟨⟨y, hy⟩, hall⟩
        rcases ih.mpr hall with ⟨ys, hys⟩
        exact ⟨y, hy, ys, hys, returns_pure _⟩

theorem mapM_replicate {f : α → Except ε β} {x : α} {y : β} (h : f x = .ok y) (n : ℕ) :
    (List.replicate n x).mapM f = .ok (List.replicate n y) := by
  induction n with
  | zero => rfl
  | succ n ih =>
      rw [List.replicate_succ, List.mapM_cons, h, ok_bind, ih]
      rfl

theorem mapM_append_of_ok {f : α → Except ε β} {xs xs' : List α} {ys ys' : List β}
    (h : xs.mapM f = .ok ys) (h' : xs'.mapM f = .ok ys') :
    (xs ++ xs').mapM f = .ok (ys ++ ys') := by
  rw [List.mapM_append, h, ok_bind, h']
  rfl

theorem mapM_length {f : α → Except ε β} {xs : List α} {ys : List β}
    (h : xs.mapM f = .ok ys) : ys.length = xs.length := by
  induction xs generalizing ys with
  | nil =>
      rw [List.mapM_nil, pure_eq_ok_iff] at h
      simp [← h]
  | cons x xs ih =>
      simp only [List.mapM_cons, bind_eq_ok_iff, pure_eq_ok_iff] at h
      rcases h with ⟨y, -, rest, hrest, rfl⟩
      simp [ih hrest]

theorem mem_of_mapM {f : α → Except ε β} {xs : List α} {ys : List β} (h : xs.mapM f = .ok ys)
    {x : α} (hx : x ∈ xs) : ∃ y, f x = .ok y ∧ y ∈ ys := by
  induction xs generalizing ys with
  | nil => simp at hx
  | cons x' xs ih =>
      simp only [List.mapM_cons, bind_eq_ok_iff, pure_eq_ok_iff] at h
      rcases h with ⟨y, hy, rest, hrest, rfl⟩
      rcases List.mem_cons.mp hx with rfl | hmem
      · exact ⟨y, hy, by simp⟩
      · rcases ih hrest hmem with ⟨y', hy', hmem'⟩
        exact ⟨y', hy', by simp [hmem']⟩

theorem mapM_mem {f : α → Except ε β} {xs : List α} {ys : List β} (h : xs.mapM f = .ok ys)
    {y : β} (hy : y ∈ ys) : ∃ x ∈ xs, f x = .ok y := by
  induction xs generalizing ys with
  | nil =>
      rw [List.mapM_nil, pure_eq_ok_iff] at h
      simp [← h] at hy
  | cons x xs ih =>
      simp only [List.mapM_cons, bind_eq_ok_iff, pure_eq_ok_iff] at h
      rcases h with ⟨y', hy', rest, hrest, rfl⟩
      rcases List.mem_cons.mp hy with rfl | hmem
      · exact ⟨x, by simp, hy'⟩
      · rcases ih hrest hmem with ⟨x', hx', hf⟩
        exact ⟨x', by simp [hx'], hf⟩

theorem mapM_map_of_eq {γ : Type v} {f : α → Except ε β} {g : α → Except ε γ} {h : β → γ}
    {xs : List α} (heq : ∀ x b, f x = .ok b → g x = .ok (h b)) {ys : List β}
    (hys : xs.mapM f = .ok ys) : xs.mapM g = .ok (ys.map h) := by
  induction xs generalizing ys with
  | nil =>
      rw [List.mapM_nil, pure_eq_ok_iff] at hys
      rw [← hys]
      rfl
  | cons x xs ih =>
      simp only [List.mapM_cons, bind_eq_ok_iff, pure_eq_ok_iff] at hys
      obtain ⟨y, hy, rest, hrest, rfl⟩ := hys
      rw [List.mapM_cons, heq x y hy, ih hrest]
      rfl

theorem mapM_eq_map {f : α → Except ε β} {g : α → β} {xs : List α} {ys : List β}
    (h : xs.mapM f = .ok ys) (hround : ∀ x y, f x = .ok y → y = g x) : ys = xs.map g := by
  induction xs generalizing ys with
  | nil =>
      rw [List.mapM_nil, pure_eq_ok_iff] at h
      exact h.symm
  | cons x xs ih =>
      simp only [List.mapM_cons, bind_eq_ok_iff, pure_eq_ok_iff] at h
      rcases h with ⟨y, hy, rest, hrest, rfl⟩
      rw [hround x y hy, ih hrest, List.map_cons]

end Ulpf.Lib
