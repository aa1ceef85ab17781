import Ulpf.SpecCompiler.Conformance

/-!
The order of precedence in `merge_overrides`: which raw fields get a mapping, whose
canonical field it has, and which mappings are marked as overridden.
-/

namespace Ulpf.SpecCompiler

open Ulpf.Lib
open Ulpf.Deployment

section Precedence

variable (candidatePackage : CandidatePackage) (reviewerOverrides : Dict String String)

/-- A list gives the raw field a canonical field. -/
def Suggested (raw : String) : Prop :=
  ∃ item ∈ candidatePackage.deterministicMappings ++ candidatePackage.aiCandidateSpecs.flatten,
    ∃ canonical, item.names? = some (raw, canonical)

/-- A list or an override gives the raw field a canonical field; both names are not empty. -/
def Named (raw : String) : Prop :=
  Suggested candidatePackage raw ∨
    ∃ canonical, reviewerOverrides.get? raw = some canonical ∧ raw ≠ "" ∧ canonical ≠ ""

/-- One mapping for every raw field that is named: with the canonical field of the override,
or else of the last deterministic mapping, or else of the first AI candidate. -/
structure FollowsPrecedence (mappings : List FieldMapping) : Prop where
  distinct : (mappings.map (·.rawField)).Nodup
  named : ∀ raw, raw ∈ mappings.map (·.rawField) ↔ Named candidatePackage reviewerOverrides raw
  canonical : ∀ m ∈ mappings,
    approvedCanonical candidatePackage reviewerOverrides m.rawField = some m.canonicalField
  overridden : ∀ m ∈ mappings, m.overrideApplied = true ↔ m.rawField ∈ reviewerOverrides.keys

variable {candidatePackage reviewerOverrides}

theorem map_rawField_mergeOverrides :
    (mergeOverrides candidatePackage reviewerOverrides).map (·.rawField) =
      (resolveMappings candidatePackage reviewerOverrides).keys := by
  rw [mergeOverrides, List.map_map, Dict.keys]
  apply List.map_congr_left
  intro entry hentry
  exact keyed_resolveMappings candidatePackage reviewerOverrides entry hentry

theorem get?_of_mem_mergeOverrides {m : FieldMapping}
    (h : m ∈ mergeOverrides candidatePackage reviewerOverrides) :
    (resolveMappings candidatePackage reviewerOverrides).get? m.rawField = some m := by
  obtain ⟨⟨raw, m'⟩, hentry, rfl⟩ := List.mem_map.mp h
  have hraw : m'.rawField = raw :=
    keyed_resolveMappings candidatePackage reviewerOverrides _ hentry
  rw [hraw]
  exact Dict.get?_eq_some_iff.mpr hentry

theorem mem_mergeOverrides_iff {raw : String} :
    raw ∈ (mergeOverrides candidatePackage reviewerOverrides).map (·.rawField) ↔
      (approvedCanonical candidatePackage reviewerOverrides raw).isSome = true := by
  rw [map_rawField_mergeOverrides, Dict.mem_keys_iff, ← resolvedCanonical_resolveMappings,
    resolvedCanonical, Option.isSome_map]

theorem lookup_filterMap_isSome_iff {items : List MappingItem} {raw : String} :
    (lookup raw (items.filterMap MappingItem.names?)).isSome = true ↔
      ∃ item ∈ items, ∃ canonical, item.names? = some (raw, canonical) := by
  rw [lookup_isSome_iff, List.mem_map]
  constructor
  · rintro ⟨⟨_, canonical⟩, hmem, rfl⟩
    obtain ⟨item, hitem, hnames⟩ := List.mem_filterMap.mp hmem
    exact ⟨item, hitem, canonical, hnames⟩
  · rintro ⟨item, hitem, canonical, hnames⟩
    exact ⟨(raw, canonical), List.mem_filterMap.mpr ⟨item, hitem, hnames⟩, rfl⟩

theorem approvedCanonical_isSome_iff {raw : String} :
    (approvedCanonical candidatePackage reviewerOverrides raw).isSome = true ↔
      raw ∈ reviewerOverrides.keys ∨ Suggested candidatePackage raw := by
  have hreverse (entries : List (String × String)) :
      (lookup raw entries.reverse).isSome = (lookup raw entries).isSome := by
    rw [Bool.eq_iff_iff, lookup_isSome_iff, lookup_isSome_iff, List.map_reverse, List.mem_reverse]
  rw [approvedCanonical, Option.isSome_or, Option.isSome_or, hreverse, Bool.or_eq_true,
    Bool.or_eq_true, lookup_filterMap_isSome_iff, lookup_filterMap_isSome_iff, ← Dict.mem_keys_iff]
  simp only [Suggested, List.mem_append, or_and_right, exists_or]

/-- No mapping is marked as overridden. -/
def NoneOverridden (resolved : Resolved) : Prop :=
  ∀ raw m, resolved.get? raw = some m → m.overrideApplied = false

theorem noneOverridden_set {resolved : Resolved} (h : NoneOverridden resolved) {k : String}
    {m : FieldMapping} (hm : m.overrideApplied = false) : NoneOverridden (resolved.set k m) := by
  intro raw m' hget
  rw [Dict.get?_set] at hget
  split at hget
  · cases hget
    exact hm
  · exact h raw m' hget

theorem noneOverridden_mergeDeterministic {resolved : Resolved} (h : NoneOverridden resolved)
    (item : MappingItem) : NoneOverridden (mergeDeterministic resolved item) := by
  rw [mergeDeterministic]
  split
  · exact noneOverridden_set h rfl
  · exact h

theorem noneOverridden_mergeCandidate {resolved : Resolved} (h : NoneOverridden resolved)
    (item : MappingItem) : NoneOverridden (mergeCandidate resolved item) := by
  rw [mergeCandidate]
  split
  · split
    · exact h
    · exact noneOverridden_set h rfl
  · exact h

theorem get?_foldl_applyOverride (overrides : List (String × String)) (resolved : Resolved)
    (raw : String) :
    (overrides.foldl applyOverride resolved).get? raw =
      ((lookup raw overrides.reverse).map fun canonical => ⟨raw, canonical, none, true⟩).or
        (resolved.get? raw) := by
  induction overrides generalizing resolved with
  | nil => rfl
  | cons override rest ih =>
      rw [List.foldl_cons, ih, applyOverride, Dict.get?_set, List.reverse_cons, lookup_append,
        Option.map_or, lookup_cons, Option.or_assoc]
      split
      · rename_i hraw
        subst hraw
        rfl
      · rfl

theorem overrideApplied_iff {raw : String} {m : FieldMapping}
    (h : (resolveMappings candidatePackage reviewerOverrides).get? raw = some m) :
    m.overrideApplied = true ↔ raw ∈ reviewerOverrides.keys := by
  have hempty : NoneOverridden Dict.empty := by
    intro raw m hget
    cases hget
  have hdeterministic :=
    List.foldlRecOn candidatePackage.deterministicMappings mergeDeterministic hempty
      fun _ hresolved item _ => noneOverridden_mergeDeterministic hresolved item
  have hcandidates := List.foldlRecOn candidatePackage.aiCandidateSpecs
    (fun resolved mappedFields => mappedFields.foldl mergeCandidate resolved) hdeterministic
    fun _ hresolved mappedFields _ => List.foldlRecOn mappedFields mergeCandidate hresolved
      fun _ hresolved item _ => noneOverridden_mergeCandidate hresolved item
  rw [resolveMappings, get?_foldl_applyOverride,
    ← lookup_perm (List.reverse_perm _).symm reviewerOverrides.nodup] at h
  rw [Dict.mem_keys_iff, Dict.get?]
  cases hoverride : lookup raw reviewerOverrides.entries with
  | some canonical =>
      rw [hoverride] at h
      cases h
      exact iff_of_true rfl rfl
  | none =>
      rw [hoverride] at h
      simp [hcandidates raw m h]

/-- The mappings follow the precedence if and only if an override whose raw field no list
names has both its names. -/
theorem followsPrecedence_iff (candidatePackage : CandidatePackage)
    (reviewerOverrides : Dict String String) :
    FollowsPrecedence candidatePackage reviewerOverrides
        (mergeOverrides candidatePackage reviewerOverrides) ↔
      ∀ raw canonical, reviewerOverrides.get? raw = some canonical →
        Suggested candidatePackage raw ∨ raw ≠ "" ∧ canonical ≠ "" := by
  constructor
  · intro hfollows raw canonical hoverride
    have hmapped : raw ∈ (mergeOverrides candidatePackage reviewerOverrides).map (·.rawField) := by
      rw [mem_mergeOverrides_iff, approvedCanonical_isSome_iff, Dict.mem_keys_iff, hoverride]
      exact .inl rfl
    obtain hsuggested | ⟨canonical', hcanonical', hnames⟩ := (hfollows.named raw).mp hmapped
    · exact .inl hsuggested
    · rw [hoverride, Option.some.injEq] at hcanonical'
      exact .inr (hcanonical' ▸ hnames)
  · intro hoverrides
    constructor
    · rw [map_rawField_mergeOverrides]
      exact (resolveMappings candidatePackage reviewerOverrides).nodup
    · intro raw
      rw [mem_mergeOverrides_iff, approvedCanonical_isSome_iff, Dict.mem_keys_iff]
      constructor
      · rintro (hkey | hsuggested)
        · obtain ⟨canonical, hcanonical⟩ := Option.isSome_iff_exists.mp hkey
          exact (hoverrides raw canonical hcanonical).imp_right fun hnames =>
            ⟨canonical, hcanonical, hnames⟩
        · exact .inl hsuggested
      · rintro (hsuggested | ⟨canonical, hcanonical, -⟩)
        · exact .inr hsuggested
        · exact .inl (by rw [hcanonical]; rfl)
    · intro m hm
      rw [← resolvedCanonical_resolveMappings, resolvedCanonical, get?_of_mem_mergeOverrides hm]
      rfl
    · intro m hm
      exact overrideApplied_iff (get?_of_mem_mergeOverrides hm)

/-- An override to the empty name makes a mapping of a field that nothing names. -/
theorem not_followsPrecedence_emptyOverride :
    ¬ ∀ (candidatePackage : CandidatePackage) (reviewerOverrides : Dict String String),
      FollowsPrecedence candidatePackage reviewerOverrides
        (mergeOverrides candidatePackage reviewerOverrides) := by
  intro hall
  have hfollows := hall ⟨none, none, [], []⟩ (Dict.ofList [("src", "")])
  have hnamed := (hfollows.named "src").mp (by decide)
  obtain ⟨item, hitem, -⟩ | ⟨canonical, hcanonical, -, hne⟩ := hnamed
  · simp at hitem
  · have hempty : (Dict.ofList [("src", "")]).get? "src" = some "" := by decide
    rw [hempty, Option.some.injEq] at hcanonical
    exact hne hcanonical.symm

end Precedence

end Ulpf.SpecCompiler
