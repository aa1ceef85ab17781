import Ulpf.Go.Time
import Ulpf.Go.Value
import Ulpf.Lib.Dict
import Mathlib.Data.List.Permutation

/-!
What a Go program cannot tell from its text: the machine it runs on, and the
orders in which its maps are enumerated.
-/

namespace Ulpf.Go

open Ulpf.Lib

/-- The machine a program runs on. -/
structure Platform where
  unicode : Unicode
  /-- `int64(x)` of a float that does not fit. -/
  outOfRange : Binary64 → ℤ
  fits : ∀ x, IsInt64 (outOfRange x)
  localZone : Time.LocalZone
  /-- `time.Now()`, in seconds since the epoch; the year has four digits. -/
  now : ℤ
  now_range : 0 ≤ now ∧ now < 253402300800

/-- `time.Now().Year()` -/
def Platform.nowYear (p : Platform) : ℤ := Time.year p.localZone ⟨p.now, 0, .zone⟩

/-- An amd64 machine in UTC with the ASCII part of the Unicode tables. -/
def Platform.plain : Platform :=
  ⟨Unicode.ascii, fun _ => -2 ^ 63, fun _ => by decide, Time.LocalZone.utc, 1760000000, by decide⟩

/-- Where a map is enumerated: the fields of a spec, the raw fields in the search
for one of its fields, an enum table at one of the uses a field makes of it, and
the object at a path of a JSON payload. -/
inductive Site where
  | fields
  | fallback (field : String)
  | enum (field : String) (use : ℕ)
  | object (path : List String)
  deriving DecidableEq

/-- An order of enumeration: it rearranges the keys of a map. -/
structure KeyOrder where
  run : List String → List String
  perm : ∀ keys, (run keys).Perm keys

namespace KeyOrder

def standing : KeyOrder := ⟨fun keys => keys, fun _ => List.Perm.refl _⟩

/-- An enumeration that begins with the keys of a kind. -/
def first (q : String → Bool) : KeyOrder :=
  ⟨fun keys => keys.filter q ++ keys.filter fun k => !q k, List.filter_append_perm q⟩

/-- An enumeration that ends with the keys of a kind. -/
def last (q : String → Bool) : KeyOrder := first fun k => !q k

/-- One rearrangement of one list of keys. -/
def exactly (target : List String) : KeyOrder where
  run keys := if target.Perm keys then target else keys
  perm keys := by
    split
    · assumption
    · exact List.Perm.refl _

end KeyOrder

/-- An enumeration for every place of the source that ranges over a map. -/
abbrev Enumeration := Site → KeyOrder

def Enumeration.standing : Enumeration := fun _ => KeyOrder.standing

section Arrange

variable {α : Type}

/-- The entries of a map in the order of their keys. -/
def arrange (keys : List String) (entries : List (String × α)) : List (String × α) :=
  keys.filterMap fun k => (lookup k entries).map fun v => (k, v)

theorem mem_arrange {keys : List String} {entries : List (String × α)}
    (hnodup : (entries.map Prod.fst).Nodup) {entry : String × α} :
    entry ∈ arrange keys entries ↔ entry.1 ∈ keys ∧ entry ∈ entries := by
  obtain ⟨k, v⟩ := entry
  simp only [arrange, List.mem_filterMap, Option.map_eq_some_iff, Prod.mk.injEq]
  constructor
  · rintro ⟨k', hkey, v', hlookup, rfl, rfl⟩
    exact ⟨hkey, mem_of_lookup hlookup⟩
  · rintro ⟨hkey, hmem⟩
    exact ⟨k, hkey, v, lookup_of_mem hnodup hmem, rfl, rfl⟩

theorem keys_arrange {keys : List String} {entries : List (String × α)}
    (hkeys : ∀ k ∈ keys, k ∈ entries.map Prod.fst) :
    (arrange keys entries).map Prod.fst = keys := by
  induction keys with
  | nil => rfl
  | cons k keys ih =>
      obtain ⟨v, hv⟩ := Option.isSome_iff_exists.mp
        (lookup_isSome_iff.mpr (hkeys k List.mem_cons_self))
      have hrest := ih fun k' hk' => hkeys k' (List.mem_cons_of_mem _ hk')
      simp only [arrange, List.filterMap_cons, hv, Option.map_some, List.map_cons] at hrest ⊢
      rw [hrest]

theorem arrange_perm {keys : List String} {entries : List (String × α)}
    (hnodup : (entries.map Prod.fst).Nodup) (hperm : keys.Perm (entries.map Prod.fst)) :
    (arrange keys entries).Perm entries := by
  have hkeys : (arrange keys entries).map Prod.fst = keys :=
    keys_arrange fun k hk => hperm.mem_iff.mp hk
  have hnodup' : ((arrange keys entries).map Prod.fst).Nodup := by
    rw [hkeys]
    exact hperm.nodup_iff.mpr hnodup
  apply (List.perm_ext_iff_of_nodup hnodup'.of_map hnodup.of_map).mpr
  intro entry
  rw [mem_arrange hnodup]
  constructor
  · exact And.right
  · intro hmem
    exact ⟨hperm.mem_iff.mpr (List.mem_map_of_mem hmem), hmem⟩

/-- Every rearrangement of the entries is the one of some order of the keys. -/
theorem arrange_keys {entries target : List (String × α)}
    (hnodup : (entries.map Prod.fst).Nodup) (hsub : ∀ entry ∈ target, entry ∈ entries) :
    arrange (target.map Prod.fst) entries = target := by
  induction target with
  | nil => rfl
  | cons entry target ih =>
      obtain ⟨k, v⟩ := entry
      have hlookup : lookup k entries = some v :=
        lookup_of_mem hnodup (hsub (k, v) List.mem_cons_self)
      have hrest := ih fun entry hentry => hsub entry (List.mem_cons_of_mem _ hentry)
      simp only [arrange, List.map_cons, List.filterMap_cons, hlookup, Option.map_some]
        at hrest ⊢
      rw [hrest]

theorem arrange_append (keys keys' : List String) (entries : List (String × α)) :
    arrange (keys ++ keys') entries = arrange keys entries ++ arrange keys' entries :=
  List.filterMap_append

end Arrange

/-- The entries of a map in the order an enumeration meets them at a site. -/
def Enumeration.entries {α : Type} (e : Enumeration) (site : Site) (d : Dict String α) :
    List (String × α) :=
  arrange ((e site).run d.keys) d.entries

theorem Enumeration.entries_perm {α : Type} (e : Enumeration) (site : Site) (d : Dict String α) :
    (e.entries site d).Perm d.entries :=
  arrange_perm d.nodup ((e site).perm d.keys)

end Ulpf.Go
