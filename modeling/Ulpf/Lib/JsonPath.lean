import Ulpf.Lib.Json

/-!
Values at paths into a document: reading, placing and removing them. Two paths
on which neither begins the other do not disturb each other.
-/

namespace Ulpf.Lib

universe u

/-- Neither path begins the other. -/
def Apart (p q : List String) : Prop := ¬ p <+: q ∧ ¬ q <+: p

theorem Apart.symm {p q : List String} (h : Apart p q) : Apart q p := ⟨h.2, h.1⟩

theorem apart_cons {k : String} {p q : List String} :
    Apart (k :: p) (k :: q) ↔ Apart p q := by
  simp [Apart]

namespace Json

variable {ν : Type u}

/-- The members of an object; other documents have none. -/
def members : Json ν → List (String × Json ν)
  | .obj ms => ms
  | _ => []

/-- What stands under the keys of a path. -/
def getPath : List String → Json ν → Option (Json ν)
  | [], x => some x
  | k :: path, x => (lookup k x.members).bind (getPath path)

/-- Place a value at a path. What is on the way and no object becomes one. -/
def setPath : List String → Json ν → Json ν → Json ν
  | [], v, _ => v
  | k :: path, v, x =>
      .obj (put k (setPath path v ((lookup k x.members).getD .null)) x.members)

/-- A document without what stands at the end of a path. -/
def removePath : List String → Json ν → Json ν
  | k :: path, .obj ms =>
      if path.isEmpty then .obj (ms.filter fun m => m.1 ≠ k)
      else
        match lookup k ms with
        | some x => .obj (put k (removePath path x) ms)
        | none => .obj ms
  | _, x => x

/-- A value that is not made of members. -/
def IsAtom (x : Json ν) : Prop := ∀ ms, x ≠ .obj ms

@[simp] theorem getPath_nil (x : Json ν) : getPath [] x = some x := rfl

theorem getPath_cons (k : String) (path : List String) (x : Json ν) :
    getPath (k :: path) x = (lookup k x.members).bind (getPath path) := rfl

theorem eq_of_getPath_of_isAtom {x y : Json ν} (hx : x.IsAtom) {path : List String}
    (h : getPath path x = some y) : path = [] ∧ y = x := by
  cases path with
  | nil =>
      cases h
      exact ⟨rfl, rfl⟩
  | cons k path =>
      cases x with
      | obj ms => exact absurd rfl (hx ms)
      | _ => cases h

theorem getPath_append (p q : List String) (x : Json ν) :
    getPath (p ++ q) x = (getPath p x).bind (getPath q) := by
  induction p generalizing x with
  | nil => simp
  | cons k p ih =>
      rw [List.cons_append, getPath_cons, getPath_cons]
      cases lookup k x.members with
      | none => rfl
      | some y => exact ih y

theorem getPath_setPath_append (p q : List String) (v x : Json ν) :
    getPath (p ++ q) (setPath p v x) = getPath q v := by
  induction p generalizing x with
  | nil => rfl
  | cons k p ih =>
      rw [List.cons_append, getPath_cons, setPath, members, lookup_put, if_pos rfl]
      exact ih _

theorem getPath_setPath_self (p : List String) (v x : Json ν) :
    getPath p (setPath p v x) = some v := by
  have h := getPath_setPath_append p [] v x
  rwa [List.append_nil] at h

theorem getPath_setPath_of_apart {p q : List String} (h : Apart p q) (v x : Json ν) :
    getPath q (setPath p v x) = getPath q x := by
  induction p generalizing q x with
  | nil => exact absurd List.nil_prefix h.1
  | cons k p ih =>
      cases q with
      | nil => exact absurd List.nil_prefix h.2
      | cons k' q =>
          rw [getPath_cons, setPath, members, lookup_put, getPath_cons]
          split
          · rename_i hkey
            subst hkey
            rw [Option.bind_some, ih (apart_cons.mp h)]
            cases hlookup : lookup k x.members with
            | some y => rfl
            | none =>
                cases q with
                | nil => exact absurd List.nil_prefix (apart_cons.mp h).2
                | cons k' q => rfl
          · rfl

theorem getPath_setPath_of_prefix (p : List String) (k : String) (rest : List String)
    (v x : Json ν) : ∃ ms, getPath p (setPath (p ++ k :: rest) v x) = some (.obj ms) := by
  induction p generalizing x with
  | nil => exact ⟨_, rfl⟩
  | cons k' p ih =>
      rw [List.cons_append, setPath, getPath_cons, members, lookup_put, if_pos rfl]
      exact ih _

/-- What atoms a document has after a value was placed at a path: those of the
value, and those apart from the path. -/
theorem getPath_setPath_eq_atom_iff {a : Json ν} (ha : a.IsAtom) (p q : List String)
    (v x : Json ν) : getPath q (setPath p v x) = some a ↔
      (∃ r, q = p ++ r ∧ getPath r v = some a) ∨ (Apart p q ∧ getPath q x = some a) := by
  by_cases hbegins : p <+: q
  · obtain ⟨r, rfl⟩ := hbegins
    rw [getPath_setPath_append]
    constructor
    · intro h
      exact Or.inl ⟨r, rfl, h⟩
    · rintro (⟨r', heq, h⟩ | ⟨hapart, -⟩)
      · rw [List.append_cancel_left heq]
        exact h
      · exact absurd (List.prefix_append p r) hapart.1
  · by_cases hbegun : q <+: p
    · obtain ⟨rest, rfl⟩ := hbegun
      cases rest with
      | nil => exact absurd (by simp) hbegins
      | cons k rest =>
          obtain ⟨ms, hobj⟩ := getPath_setPath_of_prefix q k rest v x
          rw [hobj]
          constructor
          · intro h
            exact absurd (Option.some.inj h).symm (ha ms)
          · rintro (⟨r, heq, -⟩ | ⟨hapart, -⟩)
            · exact absurd ⟨r, heq.symm⟩ hbegins
            · exact absurd (List.prefix_append q _) hapart.2
    · have hapart : Apart p q := ⟨hbegins, hbegun⟩
      rw [getPath_setPath_of_apart hapart]
      constructor
      · intro h
        exact Or.inr ⟨hapart, h⟩
      · rintro (⟨r, heq, -⟩ | ⟨-, h⟩)
        · exact absurd ⟨r, heq.symm⟩ hbegins
        · exact h

theorem lookup_filter_ne (k k' : String) (ms : List (String × Json ν)) :
    lookup k' (ms.filter fun m => m.1 ≠ k) = if k' = k then none else lookup k' ms := by
  induction ms with
  | nil => simp
  | cons m rest ih =>
      obtain ⟨k₀, x⟩ := m
      rw [List.filter_cons]
      by_cases hkey : k₀ = k
      · subst hkey
        rw [if_neg (by simp), ih, lookup_cons]
        split
        · rfl
        · rename_i hne
          rw [if_neg (Ne.symm hne)]
      · rw [if_pos (by simpa using hkey), lookup_cons, lookup_cons, ih]
        by_cases hk' : k' = k
        · rw [if_pos hk', if_pos hk', if_neg (by rw [hk']; exact hkey)]
        · rw [if_neg hk', if_neg hk']

theorem lookup_removePath (k k' : String) (path : List String) (x : Json ν) :
    lookup k' (removePath (k :: path) x).members =
      if k' = k then
        if path.isEmpty then none else (lookup k x.members).map (removePath path)
      else lookup k' x.members := by
  cases x with
  | obj ms =>
      cases path with
      | nil => exact lookup_filter_ne k k' ms
      | cons k₂ path =>
          rw [removePath, if_neg (by simp), members]
          cases hlookup : lookup k ms with
          | none =>
              by_cases hkey : k' = k
              · subst hkey
                simp [members, hlookup]
              · simp [members, hkey]
          | some y =>
              show lookup k' (put k (removePath (k₂ :: path) y) ms) = _
              rw [lookup_put]
              by_cases hkey : k' = k
              · subst hkey
                simp
              · rw [if_neg (Ne.symm hkey), if_neg hkey]
  | _ => simp [removePath, members]

theorem getPath_removePath_eq_atom_iff {a : Json ν} (ha : a.IsAtom) {p : List String}
    (hp : p ≠ []) (q : List String) (x : Json ν) :
    getPath q (removePath p x) = some a ↔ ¬ p <+: q ∧ getPath q x = some a := by
  induction p generalizing q x with
  | nil => exact absurd rfl hp
  | cons k path ih =>
      cases q with
      | nil =>
          have hatom : removePath (k :: path) x = a ↔ x = a := by
            cases x with
            | obj ms =>
                have hobj : ∃ ms', removePath (k :: path) (.obj ms) = .obj ms' := by
                  rw [removePath]
                  split
                  · exact ⟨_, rfl⟩
                  · split <;> exact ⟨_, rfl⟩
                obtain ⟨ms', hobj⟩ := hobj
                rw [hobj]
                exact iff_of_false (fun h => ha ms' h.symm) (fun h => ha ms h.symm)
            | _ => rfl
          simp [hatom]
      | cons k' q =>
          rw [getPath_cons, lookup_removePath, getPath_cons, List.cons_prefix_cons]
          by_cases hkey : k' = k
          · subst hkey
            rw [if_pos rfl]
            cases path with
            | nil => simp
            | cons k₂ path =>
                rw [if_neg (by simp)]
                cases hlookup : lookup k' x.members with
                | none => simp
                | some y =>
                    rw [Option.map_some, Option.bind_some, Option.bind_some,
                      ih (List.cons_ne_nil k₂ path)]
                    simp
          · rw [if_neg hkey]
            simp [Ne.symm hkey]

theorem getPath_removePath_of_apart {p q : List String} (h : Apart p q) (x : Json ν) :
    getPath q (removePath p x) = getPath q x := by
  induction p generalizing q x with
  | nil => exact absurd List.nil_prefix h.1
  | cons k path ih =>
      cases q with
      | nil => exact absurd List.nil_prefix h.2
      | cons k' q =>
          rw [getPath_cons, lookup_removePath, getPath_cons]
          by_cases hkey : k' = k
          · subst hkey
            have hapart := apart_cons.mp h
            cases path with
            | nil => exact absurd List.nil_prefix hapart.1
            | cons k₂ path =>
                rw [if_pos rfl, if_neg (by simp)]
                cases hlookup : lookup k' x.members with
                | none => rfl
                | some y => exact ih hapart y
          · rw [if_neg hkey]

end Json

end Ulpf.Lib
