import Mathlib.Data.List.Basic
import Mathlib.Data.List.Nodup
import Mathlib.Data.List.Perm.Basic

/-!
Finite maps as lists of entries in insertion order. A raw list of entries is
read by `lookup` and written by `put`; `Dict` adds the invariant that no key
occurs twice, so that its entries and its lookups say the same thing.
-/

namespace Ulpf.Lib

universe u v w

variable {κ : Type u} {α : Type v} [DecidableEq κ]

/-- The value stored first under a key. -/
def lookup (k : κ) : List (κ × α) → Option α
  | [] => none
  | (k', v) :: rest => if k' = k then some v else lookup k rest

/-- Overwrite the value of an existing key in place, or append a new entry. -/
def put (k : κ) (v : α) : List (κ × α) → List (κ × α)
  | [] => [(k, v)]
  | (k', v') :: rest =>
      if k' = k then (k', v) :: rest else (k', v') :: put k v rest

@[simp] theorem lookup_nil (k : κ) : lookup k ([] : List (κ × α)) = none := rfl

theorem lookup_cons (k k' : κ) (v : α) (rest : List (κ × α)) :
    lookup k ((k', v) :: rest) = if k' = k then some v else lookup k rest := rfl

theorem mem_of_lookup {k : κ} {v : α} {entries : List (κ × α)}
    (h : lookup k entries = some v) : (k, v) ∈ entries := by
  induction entries with
  | nil => simp at h
  | cons entry rest ih =>
      rcases entry with ⟨k', v'⟩
      rw [lookup_cons] at h
      split at h
      · rename_i hkey
        subst hkey
        simp_all
      · exact List.mem_cons_of_mem _ (ih h)

theorem lookup_eq_none_iff {k : κ} {entries : List (κ × α)} :
    lookup k entries = none ↔ k ∉ entries.map Prod.fst := by
  induction entries with
  | nil => simp
  | cons entry rest ih =>
      rcases entry with ⟨k', v'⟩
      rw [lookup_cons]
      split
      · simp_all
      · rename_i hkey
        simp only [ih, List.map_cons, List.mem_cons, not_or]
        exact ⟨fun h => ⟨fun heq => hkey heq.symm, h⟩, And.right⟩

theorem lookup_isSome_iff {k : κ} {entries : List (κ × α)} :
    (lookup k entries).isSome ↔ k ∈ entries.map Prod.fst := by
  rw [← not_iff_not, ← lookup_eq_none_iff]
  simp

theorem lookup_of_mem {k : κ} {v : α} {entries : List (κ × α)}
    (hnodup : (entries.map Prod.fst).Nodup) (h : (k, v) ∈ entries) :
    lookup k entries = some v := by
  induction entries with
  | nil => simp at h
  | cons entry rest ih =>
      rcases entry with ⟨k', v'⟩
      simp only [List.map_cons, List.nodup_cons] at hnodup
      rw [lookup_cons]
      rcases List.mem_cons.mp h with heq | hmem
      · cases heq
        simp
      · have hne : k' ≠ k := by
          rintro rfl
          exact hnodup.1 (List.mem_map_of_mem (f := Prod.fst) hmem)
        rw [if_neg hne]
        exact ih hnodup.2 hmem

theorem lookup_eq_some_iff {k : κ} {v : α} {entries : List (κ × α)}
    (hnodup : (entries.map Prod.fst).Nodup) :
    lookup k entries = some v ↔ (k, v) ∈ entries :=
  ⟨mem_of_lookup, lookup_of_mem hnodup⟩

theorem lookup_perm {entries entries' : List (κ × α)}
    (hperm : entries.Perm entries') (hnodup : (entries.map Prod.fst).Nodup)
    (k : κ) : lookup k entries = lookup k entries' := by
  have hnodup' : (entries'.map Prod.fst).Nodup := (hperm.map Prod.fst).nodup_iff.mp hnodup
  apply Option.ext
  intro v
  rw [lookup_eq_some_iff hnodup, lookup_eq_some_iff hnodup']
  exact hperm.mem_iff

theorem lookup_append (k : κ) (xs ys : List (κ × α)) :
    lookup k (xs ++ ys) = (lookup k xs).or (lookup k ys) := by
  induction xs with
  | nil => simp
  | cons entry rest ih =>
      rcases entry with ⟨k', v'⟩
      simp only [List.cons_append, lookup_cons]
      split
      · simp
      · exact ih

theorem lookup_map_snd {β : Type w} (f : α → β) (k : κ) (entries : List (κ × α)) :
    lookup k (entries.map fun entry => (entry.1, f entry.2)) = (lookup k entries).map f := by
  induction entries with
  | nil => rfl
  | cons entry rest ih =>
      obtain ⟨k', v⟩ := entry
      simp only [List.map_cons, lookup_cons, ih]
      split <;> rfl

theorem lookup_reverse_eq_some_iff {k : κ} {v : α} {entries : List (κ × α)} :
    lookup k entries.reverse = some v ↔
      ∃ before after, entries = before ++ (k, v) :: after ∧ k ∉ after.map Prod.fst := by
  induction entries with
  | nil => simp
  | cons entry rest ih =>
      obtain ⟨k', v'⟩ := entry
      rw [List.reverse_cons, lookup_append]
      constructor
      · intro h
        cases hrest : lookup k rest.reverse with
        | some w =>
            rw [hrest, Option.some_or] at h
            obtain ⟨before, after, heq, hafter⟩ := ih.mp (hrest.trans h)
            exact ⟨(k', v') :: before, after, by simp [heq], hafter⟩
        | none =>
            rw [hrest, Option.none_or, lookup_cons, lookup_nil] at h
            have hnot := lookup_eq_none_iff.mp hrest
            rw [List.map_reverse, List.mem_reverse] at hnot
            split at h
            · rename_i hkey
              cases h
              exact ⟨[], rest, by simp [hkey], hnot⟩
            · cases h
      · rintro ⟨before, after, heq, hafter⟩
        cases before with
        | nil =>
            simp only [List.nil_append, List.cons.injEq, Prod.mk.injEq] at heq
            obtain ⟨⟨rfl, rfl⟩, rfl⟩ := heq
            have hnone : lookup k' rest.reverse = none := by
              rw [lookup_eq_none_iff, List.map_reverse, List.mem_reverse]
              exact hafter
            simp [hnone, lookup_cons]
        | cons first before =>
            simp only [List.cons_append, List.cons.injEq] at heq
            rw [ih.mpr ⟨before, after, heq.2, hafter⟩, Option.some_or]

/-- A lookup from the end among the entries some items give: the last item that
gives an entry of the key decides. -/
theorem lookup_reverse_filterMap_eq_some_iff {β : Type w} {f : β → Option (κ × α)} {k : κ} {v : α}
    {xs : List β} : lookup k (xs.filterMap f).reverse = some v ↔
      ∃ before x after, xs = before ++ x :: after ∧ f x = some (k, v) ∧
        ∀ y ∈ after, ∀ u, f y ≠ some (k, u) := by
  rw [lookup_reverse_eq_some_iff]
  constructor
  · rintro ⟨before, after, heq, hafter⟩
    obtain ⟨before', rest, rfl, -, hrest⟩ := List.filterMap_eq_append_iff.mp heq
    obtain ⟨skipped, x, after', rfl, -, hx, rfl⟩ := List.filterMap_eq_cons_iff.mp hrest
    refine ⟨before' ++ skipped, x, after', by simp, hx, ?_⟩
    intro y hy u hu
    apply hafter
    exact List.mem_map.mpr ⟨(k, u), List.mem_filterMap.mpr ⟨y, hy, hu⟩, rfl⟩
  · rintro ⟨before, x, after, rfl, hx, hafter⟩
    refine ⟨before.filterMap f, after.filterMap f, ?_, ?_⟩
    · rw [List.filterMap_append, List.filterMap_cons, hx]
    · intro hmem
      obtain ⟨⟨k', u⟩, hentry, rfl⟩ := List.mem_map.mp hmem
      obtain ⟨y, hy, hu⟩ := List.mem_filterMap.mp hentry
      exact hafter y hy u hu

theorem lookup_put (k k' : κ) (v : α) (entries : List (κ × α)) :
    lookup k' (put k v entries) = if k = k' then some v else lookup k' entries := by
  induction entries with
  | nil => simp [put, lookup_cons]
  | cons entry rest ih =>
      rcases entry with ⟨k₀, v₀⟩
      simp only [put]
      split
      · rename_i hkey
        subst hkey
        simp only [lookup_cons]
        split <;> simp_all
      · simp only [lookup_cons, ih]
        split <;> split <;> simp_all

theorem mem_keys_put {k k' : κ} {v : α} {entries : List (κ × α)} :
    k' ∈ (put k v entries).map Prod.fst ↔ k' = k ∨ k' ∈ entries.map Prod.fst := by
  rw [← lookup_isSome_iff, ← lookup_isSome_iff, lookup_put]
  split
  · simp_all
  · rename_i hne
    simp [Ne.symm hne]

theorem nodup_put {k : κ} {v : α} {entries : List (κ × α)}
    (h : (entries.map Prod.fst).Nodup) : ((put k v entries).map Prod.fst).Nodup := by
  induction entries with
  | nil => simp [put]
  | cons entry rest ih =>
      rcases entry with ⟨k', v'⟩
      simp only [List.map_cons, List.nodup_cons] at h
      simp only [put]
      split
      · simpa using h
      · rename_i hne
        simp only [List.map_cons, List.nodup_cons]
        refine ⟨?_, ih h.2⟩
        rw [mem_keys_put]
        rintro (heq | hmem)
        · exact hne heq
        · exact h.1 hmem

/-- A finite map: entries in insertion order, one for each key. -/
structure Dict (κ : Type u) (α : Type v) where
  entries : List (κ × α)
  nodup : (entries.map Prod.fst).Nodup

namespace Dict

omit [DecidableEq κ] in
theorem ext_entries {d d' : Dict κ α} (h : d.entries = d'.entries) : d = d' := by
  cases d
  cases d'
  simp_all

instance [DecidableEq α] : DecidableEq (Dict κ α) := fun d d' =>
  decidable_of_iff (d.entries = d'.entries) ⟨ext_entries, congrArg entries⟩

def empty : Dict κ α := ⟨[], by simp⟩

instance : Inhabited (Dict κ α) := ⟨empty⟩

/-- The value of a key. -/
def get? (d : Dict κ α) (k : κ) : Option α := lookup k d.entries

def contains (d : Dict κ α) (k : κ) : Bool := (d.get? k).isSome

/-- An assignment: the entry keeps its place, or stands behind the others. -/
def set (d : Dict κ α) (k : κ) (v : α) : Dict κ α :=
  ⟨put k v d.entries, nodup_put d.nodup⟩

/-- Assign every entry of a list, in its order. -/
def update (d : Dict κ α) (entries : List (κ × α)) : Dict κ α :=
  entries.foldl (fun acc entry => acc.set entry.1 entry.2) d

/-- The map a list of assignments builds. -/
def ofList (entries : List (κ × α)) : Dict κ α := empty.update entries

def keys (d : Dict κ α) : List κ := d.entries.map Prod.fst

def filterKeys (d : Dict κ α) (p : κ → Bool) : Dict κ α :=
  ⟨d.entries.filter fun entry => p entry.1, by
    have hsub : (d.entries.filter fun entry => p entry.1).Sublist d.entries :=
      List.filter_sublist
    exact (hsub.map Prod.fst).nodup d.nodup⟩

def mapValues {β : Type w} (d : Dict κ α) (f : α → β) : Dict κ β :=
  ⟨d.entries.map fun entry => (entry.1, f entry.2), by
    rw [List.map_map]
    exact d.nodup⟩

@[simp] theorem get?_empty (k : κ) : (empty : Dict κ α).get? k = none := rfl

theorem get?_eq_some_iff {d : Dict κ α} {k : κ} {v : α} :
    d.get? k = some v ↔ (k, v) ∈ d.entries :=
  lookup_eq_some_iff d.nodup

theorem get?_set (d : Dict κ α) (k k' : κ) (v : α) :
    (d.set k v).get? k' = if k = k' then some v else d.get? k' :=
  lookup_put k k' v d.entries

@[simp] theorem get?_set_self (d : Dict κ α) (k : κ) (v : α) :
    (d.set k v).get? k = some v := by
  simp [get?_set]

theorem get?_set_of_ne (d : Dict κ α) {k k' : κ} (v : α) (h : k ≠ k') :
    (d.set k v).get? k' = d.get? k' := by
  simp [get?_set, h]

theorem mem_keys_iff {d : Dict κ α} {k : κ} : k ∈ d.keys ↔ (d.get? k).isSome :=
  lookup_isSome_iff.symm

theorem contains_iff {d : Dict κ α} {k : κ} : d.contains k = true ↔ k ∈ d.keys :=
  mem_keys_iff.symm

@[simp] theorem update_nil (d : Dict κ α) : d.update [] = d := rfl

@[simp] theorem update_cons (d : Dict κ α) (k : κ) (v : α) (entries : List (κ × α)) :
    d.update ((k, v) :: entries) = (d.set k v).update entries := rfl

theorem update_append (d : Dict κ α) (xs ys : List (κ × α)) :
    d.update (xs ++ ys) = (d.update xs).update ys :=
  List.foldl_append

theorem get?_update (d : Dict κ α) (entries : List (κ × α)) (k : κ) :
    (d.update entries).get? k = (lookup k entries.reverse).or (d.get? k) := by
  induction entries generalizing d with
  | nil => simp
  | cons entry rest ih =>
      rcases entry with ⟨k', v'⟩
      rw [update_cons, ih, List.reverse_cons, lookup_append, get?_set, lookup_cons]
      cases lookup k rest.reverse with
      | some v => simp
      | none => split <;> simp

/-- A loop over the entries of a map acts on what belongs to one key as the entry of that key does,
when the other entries leave it alone. -/
theorem foldl_at {σ τ : Type w} (f : σ → κ × α → σ) (view : σ → τ) (g : τ → α → τ) {k : κ}
    (hself : ∀ s v, view (f s (k, v)) = g (view s) v)
    (hother : ∀ s k' v, k ≠ k' → view (f s (k', v)) = view s) (d : Dict κ α) (s : σ) :
    view (d.entries.foldl f s) = (d.get? k).elim (view s) (g (view s)) := by
  obtain ⟨entries, hnodup⟩ := d
  rw [get?]
  dsimp only
  induction entries generalizing s with
  | nil => rfl
  | cons entry rest ih =>
      obtain ⟨k', v⟩ := entry
      rw [List.map_cons, List.nodup_cons] at hnodup
      rw [List.foldl_cons, ih _ hnodup.2, lookup_cons]
      split
      · rename_i hkey
        subst hkey
        rw [lookup_eq_none_iff.mpr hnodup.1, Option.elim_none, Option.elim_some, hself]
      · rename_i hkey
        rw [hother _ _ _ (Ne.symm hkey)]

theorem get?_foldl_set_of_ne {β : Type w} (f : β → κ) (g : β → α) (d : Dict κ α) {l : List β}
    {k : κ} (h : ∀ b ∈ l, f b ≠ k) :
    (l.foldl (fun acc b => acc.set (f b) (g b)) d).get? k = d.get? k := by
  induction l generalizing d with
  | nil => rfl
  | cons b l ih =>
      obtain ⟨hb, hl⟩ := List.forall_mem_cons.mp h
      rw [List.foldl_cons, ih _ hl, get?_set_of_ne d (g b) hb]

theorem get?_update_of_nodup (d : Dict κ α) {entries : List (κ × α)}
    (hnodup : (entries.map Prod.fst).Nodup) (k : κ) :
    (d.update entries).get? k = (lookup k entries).or (d.get? k) := by
  rw [get?_update, lookup_perm (List.reverse_perm entries).symm hnodup]

theorem keeps_iff_of_or {d d' merged : Dict κ α} {keys : List κ}
    (hmerged : ∀ k ∈ keys, merged.get? k = (d'.get? k).or (d.get? k)) :
    (∀ k ∈ keys, ∀ v, d.get? k = some v → merged.get? k = some v) ↔
      ∀ k ∈ keys, ∀ v w, d.get? k = some v → d'.get? k = some w → w = v := by
  refine forall₂_congr fun k hk => ⟨fun h v w hv hw => ?_, fun h v hv => ?_⟩
  · have hkept := h v hv
    rw [hmerged k hk, hw, Option.some_or] at hkept
    exact Option.some.inj hkept
  · rw [hmerged k hk]
    cases hw : d'.get? k with
    | none => rw [Option.none_or, hv]
    | some w => rw [Option.some_or, h v w hv hw]

theorem put_of_not_mem {k : κ} {v : α} {entries : List (κ × α)}
    (h : k ∉ entries.map Prod.fst) : put k v entries = entries ++ [(k, v)] := by
  induction entries with
  | nil => rfl
  | cons entry rest ih =>
      rw [List.map_cons, List.mem_cons, not_or] at h
      rw [put, if_neg (Ne.symm h.1), ih h.2]
      rfl

theorem entries_update_of_nodup (d : Dict κ α) {entries : List (κ × α)}
    (h : ((d.entries ++ entries).map Prod.fst).Nodup) :
    (d.update entries).entries = d.entries ++ entries := by
  induction entries generalizing d with
  | nil => rw [update_nil, List.append_nil]
  | cons entry rest ih =>
      have hnew : entry.1 ∉ d.entries.map Prod.fst := by
        rw [List.map_append, List.map_cons, List.nodup_append] at h
        intro hmem
        exact h.2.2 _ hmem _ List.mem_cons_self rfl
      have hset : (d.set entry.1 entry.2).entries = d.entries ++ [entry] := put_of_not_mem hnew
      rw [update_cons, ih, hset, List.append_assoc]
      · rfl
      · rw [hset, List.append_assoc]
        exact h

theorem entries_ofList_of_nodup {entries : List (κ × α)} (h : (entries.map Prod.fst).Nodup) :
    (ofList entries).entries = entries :=
  entries_update_of_nodup empty h

theorem get?_ofList (entries : List (κ × α)) (k : κ) :
    (ofList entries).get? k = lookup k entries.reverse := by
  simp [ofList, get?_update]

theorem mem_of_mem_update {d : Dict κ α} {entries : List (κ × α)} {entry : κ × α}
    (h : entry ∈ (d.update entries).entries) : entry ∈ entries ∨ entry ∈ d.entries := by
  have hget := get?_update d entries entry.1
  rw [get?_eq_some_iff.mpr h] at hget
  rcases Option.or_eq_some_iff.mp hget.symm with hnew | ⟨-, hold⟩
  · exact .inl (List.mem_reverse.mp (mem_of_lookup hnew))
  · exact .inr (get?_eq_some_iff.mp hold)

theorem mem_of_mem_ofList {entries : List (κ × α)} {entry : κ × α}
    (h : entry ∈ (ofList entries).entries) : entry ∈ entries :=
  (mem_of_mem_update h).resolve_right List.not_mem_nil

theorem mem_keys_update {d : Dict κ α} {entries : List (κ × α)} {k : κ} :
    k ∈ (d.update entries).keys ↔ k ∈ entries.map Prod.fst ∨ k ∈ d.keys := by
  rw [mem_keys_iff, mem_keys_iff, get?_update, Option.isSome_or, Bool.or_eq_true,
    lookup_isSome_iff]
  simp

theorem ofList_eq_empty_iff {entries : List (κ × α)} :
    (ofList entries).entries = [] ↔ entries = [] := by
  constructor
  · intro h
    cases entries with
    | nil => rfl
    | cons entry rest =>
        have hmem : entry.1 ∈ (ofList (entry :: rest)).keys :=
          mem_keys_update.mpr (Or.inl List.mem_cons_self)
        rw [keys, h] at hmem
        cases hmem
  · rintro rfl
    rfl

theorem get?_filterKeys (d : Dict κ α) (p : κ → Bool) (k : κ) :
    (d.filterKeys p).get? k = if p k then d.get? k else none := by
  apply Option.ext
  intro v
  rw [get?_eq_some_iff]
  simp only [filterKeys, List.mem_filter]
  split
  · rename_i hp
    simp [hp, get?_eq_some_iff]
  · rename_i hp
    simp [hp]

theorem get?_mapValues {β : Type w} (d : Dict κ α) (f : α → β) (k : κ) :
    (d.mapValues f).get? k = (d.get? k).map f :=
  lookup_map_snd f k d.entries

omit [DecidableEq κ] in
theorem keys_mapValues {β : Type w} (d : Dict κ α) (f : α → β) : (d.mapValues f).keys = d.keys :=
  List.map_map

theorem mapValues_ofList {β : Type w} (f : α → β) {entries : List (κ × α)}
    (h : (entries.map Prod.fst).Nodup) :
    (ofList entries).mapValues f = ofList (entries.map fun entry => (entry.1, f entry.2)) := by
  have hkeys : ((entries.map fun entry => (entry.1, f entry.2)).map Prod.fst).Nodup := by
    rwa [List.map_map]
  apply ext_entries
  rw [entries_ofList_of_nodup hkeys]
  exact congrArg (List.map _) (entries_ofList_of_nodup h)

omit [DecidableEq κ] in
theorem mapValues_injective {β : Type w} {f : α → β} (hf : Function.Injective f) :
    Function.Injective fun d : Dict κ α => d.mapValues f := by
  intro d d' h
  have hentry : Function.Injective fun entry : κ × α => (entry.1, f entry.2) := by
    rintro ⟨k, v⟩ ⟨k', v'⟩ heq
    obtain ⟨rfl, hv⟩ := Prod.mk.inj heq
    exact congrArg (Prod.mk k) (hf hv)
  exact ext_entries (hentry.list_map (congrArg entries h))

/-- Two dictionaries give every key the same value. -/
def Same (d d' : Dict κ α) : Prop := ∀ k, d.get? k = d'.get? k

theorem Same.refl (d : Dict κ α) : d.Same d := fun _ => rfl

end Dict

end Ulpf.Lib
