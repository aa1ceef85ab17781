import Ulpf.AiAssist.Assistant
import Ulpf.Lib.Ascii
import Ulpf.Lib.Outcome

/-!
What the assistant lets through. A candidate it returns maps to registered
targets only and keeps every name the response put among the mapped fields, as
far as the name says something. Whether a name was asked about is not looked at.
-/

namespace Ulpf.AiAssist

open Ulpf.Lib
open Ulpf.Python

/-- The canonical name that a mapped field proposes. -/
def canonicalOf (entry : PyVal) : PyVal := entry.memberD "canonical_field" (.str "")

def rawFieldOf (entry : PyVal) : PyVal := entry.memberD "raw_field" .null

/-- A mapped field proposes a name of the registry. -/
def registered (entry : PyVal) : Bool :=
  canonicalSchemaRegistry.any fun name => PyVal.eq (canonicalOf entry) (.str name)

/-- Names not mapped after one more turns up whose target is unknown. -/
def keep (items : List PyVal) (name : PyVal) : List PyVal :=
  if name.truthy && !isIn name items then items ++ [name] else items

theorem registered_iff {entry : PyVal} :
    registered entry = true ↔ ∃ name ∈ canonicalSchemaRegistry, canonicalOf entry = .str name := by
  simp [registered]

/-! ### Looking for a value in a list -/

theorem isIn_iff {x : PyVal} {items : List PyVal} :
    isIn x items = true ↔ ∃ y ∈ items, same y x = true := by
  simp [isIn]

theorem same_self (x : PyVal) : same x x = true := by
  simp [same]

theorem isIn_of_mem {x : PyVal} {items : List PyVal} (h : x ∈ items) : isIn x items = true :=
  isIn_iff.mpr ⟨x, h, same_self x⟩

theorem isIn_mono {x : PyVal} {items items' : List PyVal} (hsub : items ⊆ items')
    (h : isIn x items = true) : isIn x items' = true := by
  obtain ⟨y, hy, hsame⟩ := isIn_iff.mp h
  exact isIn_iff.mpr ⟨y, hsub hy, hsame⟩

theorem truthy_of_numEq {m n : PyNum} (h : PyVal.numEq m n = true) :
    PyVal.truthy (.num m) = PyVal.truthy (.num n) := by
  cases m with
  | int m =>
      cases n with
      | int n => simp_all [PyVal.numEq, PyVal.truthy]
      | float y => simp_all [PyVal.numEq, PyVal.truthy]
  | float x =>
      cases n with
      | int n => simp_all [PyVal.numEq, PyVal.truthy]
      | float y =>
          have hvalue : x.toRat? = y.toRat? := by
            cases x <;> cases y <;> simp_all [PyVal.numEq, Binary64.numEq, Binary64.toRat?]
          simp only [PyVal.truthy, hvalue]

theorem truthy_of_same {x y : PyVal} (h : same x y = true) : x.truthy = y.truthy := by
  rw [same, Bool.or_eq_true, decide_eq_true_eq] at h
  rcases h with rfl | h
  · rfl
  · cases x with
    | null => cases y <;> simp_all [PyVal.eq]
    | bool a =>
        cases y with
        | num n =>
            rw [← truthy_of_numEq (show PyVal.numEq (PyVal.ofBool a) n = true from h)]
            cases a <;> rfl
        | _ => simp_all [PyVal.eq]
    | num m =>
        cases y with
        | bool b =>
            rw [truthy_of_numEq (show PyVal.numEq m (PyVal.ofBool b) = true from h)]
            cases b <;> rfl
        | num n => exact truthy_of_numEq h
        | _ => simp_all [PyVal.eq]
    | str s => cases y <;> simp_all [PyVal.eq]
    | arr xs =>
        cases y with
        | arr ys => cases xs <;> cases ys <;> simp_all [PyVal.eq, PyVal.eqItems, PyVal.truthy]
        | _ => simp_all [PyVal.eq]
    | obj xs =>
        cases y with
        | obj ys => cases xs <;> cases ys <;> simp_all [PyVal.eq, PyVal.truthy]
        | _ => simp_all [PyVal.eq]

/-! ### The loop over the mapped fields -/

theorem keep_subset (items : List PyVal) (name : PyVal) : items ⊆ keep items name := by
  unfold keep
  split
  · exact List.subset_append_left _ _
  · exact List.Subset.refl _

theorem isIn_keep {items : List PyVal} {name : PyVal} (h : name.truthy = true) :
    isIn name (keep items name) = true := by
  unfold keep
  split
  case isTrue => exact isIn_of_mem (by simp)
  case isFalse hnot =>
    rw [h, Bool.true_and, Bool.not_eq_true', Bool.not_eq_false] at hnot
    exact hnot

theorem mem_keep {items : List PyVal} {name x : PyVal} (h : x ∈ keep items name) :
    x ∈ items ∨ (x = name ∧ name.truthy = true) := by
  unfold keep at h
  split at h
  case isTrue hname =>
    rw [Bool.and_eq_true] at hname
    rcases List.mem_append.mp h with hmem | hmem
    · exact .inl hmem
    · exact .inr ⟨List.mem_singleton.mp hmem, hname.1⟩
  case isFalse => exact .inl h

theorem subset_foldl_keep (names items : List PyVal) : items ⊆ names.foldl keep items := by
  induction names generalizing items with
  | nil => exact List.Subset.refl _
  | cons name names ih => exact List.Subset.trans (keep_subset items name) (ih _)

theorem isIn_foldl_keep {names items : List PyVal} {name : PyVal} (hmem : name ∈ names)
    (h : name.truthy = true) : isIn name (names.foldl keep items) = true := by
  induction names generalizing items with
  | nil => cases hmem
  | cons first names ih =>
      rcases List.mem_cons.mp hmem with rfl | hmem
      · exact isIn_mono (subset_foldl_keep names _) (isIn_keep h)
      · exact ih hmem

theorem mem_foldl_keep {names items : List PyVal} {x : PyVal} (h : x ∈ names.foldl keep items) :
    x ∈ items ∨ x.truthy = true := by
  induction names generalizing items with
  | nil => exact .inl h
  | cons name names ih =>
      rcases ih h with hmem | htrue
      · rcases mem_keep hmem with hmem | ⟨rfl, htrue⟩
        · exact .inl hmem
        · exact .inr htrue
      · exact .inr htrue

theorem isIn_foldl_keep_of_falsy {names items : List PyVal} {x : PyVal} (hx : x.truthy = false)
    (h : isIn x (names.foldl keep items) = true) : isIn x items = true := by
  obtain ⟨y, hy, hsame⟩ := isIn_iff.mp h
  rcases mem_foldl_keep hy with hmem | htrue
  · exact isIn_iff.mpr ⟨y, hmem, hsame⟩
  · rw [truthy_of_same hsame, hx] at htrue
    cases htrue

theorem getD_of_isObj {x : PyVal} (h : x.isObj = true) (k : String) (default : PyVal) :
    PyVal.getD x k default = .ok (x.memberD k default) :=
  PyVal.getD_eq_ok_iff.mpr ⟨h, rfl⟩

theorem filterEntry_of_hashable {entry : PyVal} (hobj : entry.isObj = true)
    (hhash : hashable (canonicalOf entry) = true) (found : List PyVal × List PyVal) :
    filterEntry found entry =
      .ok (if registered entry then (found.1 ++ [entry], found.2)
        else (found.1, keep found.2 (rawFieldOf entry))) := by
  have hregistry : inRegistry (canonicalOf entry) = .ok (registered entry) := if_pos hhash
  unfold filterEntry
  rw [getD_of_isObj hobj, getD_of_isObj hobj]
  change (do
    if ← inRegistry (canonicalOf entry) then pure (found.1 ++ [entry], found.2)
    else if (rawFieldOf entry).truthy && !isIn (rawFieldOf entry) found.2 then
      pure (found.1, found.2 ++ [rawFieldOf entry])
    else pure found) = _
  rw [hregistry]
  cases registered entry
  · unfold keep
    change (if _ then _ else _) = _
    split <;> simp_all <;> rfl
  · rfl

theorem filterEntry_of_not_hashable {entry : PyVal} (hobj : entry.isObj = true)
    (hhash : hashable (canonicalOf entry) = false) (found : List PyVal × List PyVal) :
    filterEntry found entry = .error .typeError := by
  have hregistry : inRegistry (canonicalOf entry) = .error .typeError := if_neg (by simp [hhash])
  unfold filterEntry
  rw [getD_of_isObj hobj]
  change (inRegistry (canonicalOf entry) >>= _) = _
  rw [hregistry]
  rfl

theorem foldlM_filterEntry {entries : List PyVal} (hobj : ∀ entry ∈ entries, entry.isObj = true)
    (hhash : ∀ entry ∈ entries, hashable (canonicalOf entry) = true)
    (found : List PyVal × List PyVal) :
    entries.foldlM filterEntry found =
      .ok (found.1 ++ entries.filter registered,
        ((entries.filter fun entry => !registered entry).map rawFieldOf).foldl keep found.2) := by
  induction entries generalizing found with
  | nil => simp; rfl
  | cons entry entries ih =>
      rw [List.foldlM_cons, filterEntry_of_hashable (hobj entry (by simp)) (hhash entry (by simp))]
      change entries.foldlM filterEntry _ = _
      rw [ih (fun x hx => hobj x (List.mem_cons_of_mem _ hx))
        fun x hx => hhash x (List.mem_cons_of_mem _ hx)]
      cases hentry : registered entry <;> simp [hentry]

theorem foldlM_filterEntry_error {entries : List PyVal}
    (hobj : ∀ entry ∈ entries, entry.isObj = true)
    (hhash : ∃ entry ∈ entries, hashable (canonicalOf entry) = false)
    (found : List PyVal × List PyVal) :
    entries.foldlM filterEntry found = .error .typeError := by
  induction entries generalizing found with
  | nil => simp at hhash
  | cons entry entries ih =>
      rw [List.foldlM_cons]
      cases hentry : hashable (canonicalOf entry) with
      | false => rw [filterEntry_of_not_hashable (hobj entry (by simp)) hentry]; rfl
      | true =>
          rw [filterEntry_of_hashable (hobj entry (by simp)) hentry]
          apply ih fun x hx => hobj x (List.mem_cons_of_mem _ hx)
          obtain ⟨x, hx, hfalse⟩ := hhash
          rcases List.mem_cons.mp hx with rfl | hx
          · rw [hentry] at hfalse
            cases hfalse
          · exact ⟨x, hx, hfalse⟩

/-! ### Candidates of the right shape -/

theorem listAt_of_isList {x : PyVal} {k : String} (h : isList (x.memberD k .null) = true) :
    x.member? k = some (.arr (listAt x k)) := by
  unfold listAt
  unfold Json.memberD at h
  cases hk : x.member? k with
  | none => rw [hk] at h; cases h
  | some y => cases y <;> simp_all [isList]

theorem isObj_of_validateField {field : PyVal} (h : validateField field = true) :
    field.isObj = true := by
  simp only [validateField, Bool.and_eq_true] at h
  exact h.1.1

theorem lists_of_validate {c : PyVal} (h : validateCandidateStructure c = true) :
    c.member? "mapped_fields" = some (.arr (listAt c "mapped_fields")) ∧
      c.member? "unmapped_fields" = some (.arr (listAt c "unmapped_fields")) ∧
      ∀ entry ∈ listAt c "mapped_fields", entry.isObj = true := by
  simp only [validateCandidateStructure, Bool.and_eq_true, List.all_eq_true] at h
  obtain ⟨⟨⟨-, hmapped⟩, hunmapped⟩, hfields⟩ := h
  exact ⟨listAt_of_isList hmapped, listAt_of_isList hunmapped,
    fun entry hentry => isObj_of_validateField (hfields entry hentry)⟩

theorem isObj_of_member? {x v : PyVal} {k : String} (h : x.member? k = some v) :
    x.isObj = true := by
  cases x <;> simp_all [Json.member?, Json.isObj]

/-- The candidate with both of its lists replaced. -/
def withLists (c : PyVal) (mapped unmapped : List PyVal) : PyVal :=
  match c with
  | .obj members =>
      .obj (put "unmapped_fields" (.arr unmapped) (put "mapped_fields" (.arr mapped) members))
  | _ => c

theorem listAt_withLists {c : PyVal} (hobj : c.isObj = true) (mapped unmapped : List PyVal) :
    listAt (withLists c mapped unmapped) "mapped_fields" = mapped ∧
      listAt (withLists c mapped unmapped) "unmapped_fields" = unmapped := by
  obtain ⟨members, rfl⟩ := Json.isObj_iff.mp hobj
  constructor
  · simp [withLists, listAt, Json.member?, lookup_put]
  · simp [withLists, listAt, Json.member?, lookup_put]

theorem filterHallucinatedFields_eq {c : PyVal} (h : validateCandidateStructure c = true) :
    filterHallucinatedFields c =
      ((listAt c "mapped_fields").foldlM filterEntry ([], listAt c "unmapped_fields")).map
        fun found => withLists c found.1 found.2 := by
  obtain ⟨hmapped, hunmapped, -⟩ := lists_of_validate h
  have hobj := isObj_of_member? hmapped
  unfold filterHallucinatedFields
  rw [getD_of_isObj hobj, getD_of_isObj hobj, Json.memberD, Json.memberD, hmapped, hunmapped]
  change ((listAt c "mapped_fields").foldlM filterEntry ([], listAt c "unmapped_fields") >>= _) = _
  obtain ⟨members, rfl⟩ := Json.isObj_iff.mp hobj
  cases List.foldlM filterEntry _ _ with
  | error e => rfl
  | ok found => rfl

/-- Names not mapped once the candidate is filtered. -/
def keptNames (c : PyVal) : List PyVal :=
  (((listAt c "mapped_fields").filter fun entry => !registered entry).map rawFieldOf).foldl keep
    (listAt c "unmapped_fields")

theorem filterHallucinatedFields_of_hashable {c : PyVal}
    (h : validateCandidateStructure c = true)
    (hhash : ∀ entry ∈ listAt c "mapped_fields", hashable (canonicalOf entry) = true) :
    filterHallucinatedFields c =
      .ok (withLists c ((listAt c "mapped_fields").filter registered) (keptNames c)) := by
  obtain ⟨-, -, hobjs⟩ := lists_of_validate h
  rw [filterHallucinatedFields_eq h, foldlM_filterEntry hobjs hhash]
  rfl

theorem filterHallucinatedFields_error {c : PyVal} (h : validateCandidateStructure c = true)
    (hhash : ∃ entry ∈ listAt c "mapped_fields", hashable (canonicalOf entry) = false) :
    filterHallucinatedFields c = .error .typeError := by
  obtain ⟨-, -, hobjs⟩ := lists_of_validate h
  rw [filterHallucinatedFields_eq h, foldlM_filterEntry_error hobjs hhash]
  rfl

/-! ### Names of the response -/

/-- A name that the candidate still has, mapped or not. -/
def Kept (c : PyVal) (name : PyVal) : Prop :=
  isIn name ((listAt c "mapped_fields").map rawFieldOf) = true ∨
    isIn name (listAt c "unmapped_fields") = true

/-- What keeps the name of a mapped field of the response. -/
def Lasting (doc entry : PyVal) : Prop :=
  (rawFieldOf entry).truthy = true ∨
    isIn (rawFieldOf entry) (listAt doc "unmapped_fields") = true ∨
    isIn (rawFieldOf entry)
      (((listAt doc "mapped_fields").filter registered).map rawFieldOf) = true

theorem kept_iff {doc c entry : PyVal}
    (hmapped : listAt c "mapped_fields" = (listAt doc "mapped_fields").filter registered)
    (hunmapped : listAt c "unmapped_fields" = keptNames doc)
    (hentry : entry ∈ listAt doc "mapped_fields") :
    Kept c (rawFieldOf entry) ↔ registered entry = true ∨ Lasting doc entry := by
  rw [Kept, Lasting, hmapped, hunmapped]
  constructor
  · rintro (hin | hin)
    · exact .inr (.inr (.inr hin))
    · cases htrue : (rawFieldOf entry).truthy with
      | true => exact .inr (.inl rfl)
      | false => exact .inr (.inr (.inl (isIn_foldl_keep_of_falsy htrue hin)))
  · rintro (hreg | htrue | hin | hin)
    · exact .inl (isIn_of_mem (List.mem_map_of_mem (List.mem_filter.mpr ⟨hentry, hreg⟩)))
    · by_cases hreg : registered entry = true
      · exact .inl (isIn_of_mem (List.mem_map_of_mem (List.mem_filter.mpr ⟨hentry, hreg⟩)))
      · refine .inr (isIn_foldl_keep (List.mem_map_of_mem (List.mem_filter.mpr ⟨hentry, ?_⟩)) htrue)
        simpa using hreg
    · exact .inr (isIn_mono (subset_foldl_keep _ _) hin)
    · exact .inl hin

/-! ### What a proposal comes to -/

section Proposal

variable {limit : ℕ} {provider : String → String} {candidateID sourceFormat logSample : String}
  {unmappedFields : List PyVal} {response : String}

theorem proposeMappings_eq_ok_iff {c : PyVal}
    (hresponse :
      provider (buildStructuredPrompt candidateID sourceFormat unmappedFields logSample) =
        response) :
    proposeMappings limit provider candidateID sourceFormat unmappedFields logSample = .ok c ↔
      ∃ doc, loadsWithin limit response = .ok doc ∧ validateCandidateStructure doc = true ∧
        (∀ entry ∈ listAt doc "mapped_fields", hashable (canonicalOf entry) = true) ∧
        c = withLists doc ((listAt doc "mapped_fields").filter registered) (keptNames doc) := by
  unfold proposeMappings
  simp only [hresponse]
  cases hload : loadsWithin limit response with
  | error e => cases e <;> simp
  | ok doc =>
      by_cases hvalid : validateCandidateStructure doc = true
      · simp only [hvalid, if_true, Except.ok.injEq, exists_eq_left', true_and]
        by_cases hhash : ∀ entry ∈ listAt doc "mapped_fields", hashable (canonicalOf entry) = true
        · rw [filterHallucinatedFields_of_hashable hvalid hhash]
          rw [mapError_eq_ok_iff, Except.ok.injEq, and_iff_right hhash]
          exact eq_comm
        · rw [filterHallucinatedFields_error hvalid (by simpa using hhash)]
          simp [Except.mapError, hhash]
      · simp [hvalid]

theorem proposeMappings_valueError_iff
    (hresponse :
      provider (buildStructuredPrompt candidateID sourceFormat unmappedFields logSample) =
        response) :
    (∃ e, proposeMappings limit provider candidateID sourceFormat unmappedFields logSample =
        .error e ∧ e.isValueError = true) ↔
      stopInText limit response ≠ some .recursionError ∧
        ∀ doc, loadsWithin limit response = .ok doc → validateCandidateStructure doc = false := by
  rw [ne_eq, ← loadsWithin_eq_recursionError_iff]
  unfold proposeMappings
  simp only [hresponse]
  cases hload : loadsWithin limit response with
  | error e => cases e <;> simp [ProposalError.isValueError]
  | ok doc =>
      by_cases hvalid : validateCandidateStructure doc = true
      · dsimp only
        rw [if_pos hvalid]
        have hright : ¬ ∀ doc', (Except.ok doc : Except LoadError PyVal) = .ok doc' →
            validateCandidateStructure doc' = false := by
          intro hinvalid
          rw [hinvalid doc rfl] at hvalid
          cases hvalid
        refine iff_of_false ?_ fun h => hright h.2
        rintro ⟨e, he, hvalue⟩
        by_cases hhash : ∀ entry ∈ listAt doc "mapped_fields", hashable (canonicalOf entry) = true
        · rw [filterHallucinatedFields_of_hashable hvalid hhash] at he
          cases he
        · rw [filterHallucinatedFields_error hvalid (by simpa using hhash)] at he
          cases he
          cases hvalue
      · simp [hvalid, ProposalError.isValueError]

/-- The request names the field. -/
def AskedAbout (unmappedFields : List PyVal) (name : PyVal) : Prop :=
  ∃ item ∈ unmappedFields, ∃ asked, item.member? "raw_field" = some asked ∧ same asked name = true

structure Airtight (unmappedFields : List PyVal) (response : String) (c : PyVal) : Prop where
  targets : ∀ entry ∈ listAt c "mapped_fields",
    ∃ name ∈ canonicalSchemaRegistry, canonicalOf entry = .str name
  asked : ∀ entry ∈ listAt c "mapped_fields", AskedAbout unmappedFields (rawFieldOf entry)
  kept : ∀ doc, loads response = some doc → ∀ entry ∈ listAt doc "mapped_fields",
    Kept c (rawFieldOf entry)

/-- A proposal that fails with a `ValueError` or gives an airtight candidate. -/
def Safe (unmappedFields : List PyVal) (response : String)
    (outcome : Except ProposalError PyVal) : Prop :=
  (∃ e, outcome = .error e ∧ e.isValueError = true) ∨
    ∃ c, outcome = .ok c ∧ Airtight unmappedFields response c

/-- A mapped field of a response that does no harm. -/
def Harmless (unmappedFields : List PyVal) (doc entry : PyVal) : Prop :=
  hashable (canonicalOf entry) = true ∧
    if registered entry then AskedAbout unmappedFields (rawFieldOf entry) else Lasting doc entry

theorem airtight_iff {doc : PyVal} (hload : loads response = some doc)
    (hvalid : validateCandidateStructure doc = true) :
    Airtight unmappedFields response
        (withLists doc ((listAt doc "mapped_fields").filter registered) (keptNames doc)) ↔
      ∀ entry ∈ listAt doc "mapped_fields",
        if registered entry then AskedAbout unmappedFields (rawFieldOf entry)
        else Lasting doc entry := by
  obtain ⟨hmember, -, -⟩ := lists_of_validate hvalid
  obtain ⟨hmapped, hunmapped⟩ := listAt_withLists (isObj_of_member? hmember)
    ((listAt doc "mapped_fields").filter registered) (keptNames doc)
  constructor
  · intro h entry hentry
    by_cases hreg : registered entry = true
    · rw [if_pos hreg]
      exact h.asked entry (by rw [hmapped]; exact List.mem_filter.mpr ⟨hentry, hreg⟩)
    · rw [if_neg hreg]
      have hkept := (kept_iff hmapped hunmapped hentry).mp (h.kept doc hload entry hentry)
      exact hkept.resolve_left hreg
  · intro h
    refine ⟨?_, ?_, ?_⟩
    · intro entry hentry
      rw [hmapped] at hentry
      exact registered_iff.mp (List.mem_filter.mp hentry).2
    · intro entry hentry
      rw [hmapped] at hentry
      obtain ⟨hentry, hreg⟩ := List.mem_filter.mp hentry
      have hasked := h entry hentry
      rwa [if_pos hreg] at hasked
    · intro doc' hload' entry hentry
      obtain rfl : doc = doc' := Option.some.inj (hload.symm.trans hload')
      apply (kept_iff hmapped hunmapped hentry).mpr
      by_cases hreg : registered entry = true
      · exact .inl hreg
      · have hlasting := h entry hentry
        rw [if_neg hreg] at hlasting
        exact .inr hlasting

theorem safe_iff
    (hresponse :
      provider (buildStructuredPrompt candidateID sourceFormat unmappedFields logSample) =
        response) :
    Safe unmappedFields response
        (proposeMappings limit provider candidateID sourceFormat unmappedFields logSample) ↔
      stopInText limit response ≠ some .recursionError ∧
        ∀ doc, loadsWithin limit response = .ok doc → validateCandidateStructure doc = true →
          ∀ entry ∈ listAt doc "mapped_fields", Harmless unmappedFields doc entry := by
  rw [Safe, proposeMappings_valueError_iff hresponse]
  simp only [proposeMappings_eq_ok_iff hresponse]
  constructor
  · rintro (⟨hstop, hinvalid⟩ | ⟨c, ⟨doc, hload, hvalid, hhash, rfl⟩, htight⟩)
    · refine ⟨hstop, fun doc hload hvalid => ?_⟩
      rw [hinvalid doc hload] at hvalid
      cases hvalid
    · obtain ⟨hnostop, hloads⟩ := loadsWithin_eq_ok_iff.mp hload
      refine ⟨by rw [hnostop]; simp, fun doc' hload' _ entry hentry => ?_⟩
      obtain rfl : doc = doc' := Except.ok.inj (hload.symm.trans hload')
      exact ⟨hhash entry hentry, (airtight_iff hloads hvalid).mp htight entry hentry⟩
  · rintro ⟨hstop, hharmless⟩
    by_cases hvalid : ∃ doc, loadsWithin limit response = .ok doc ∧
        validateCandidateStructure doc = true
    · obtain ⟨doc, hload, hvalid⟩ := hvalid
      obtain ⟨-, hloads⟩ := loadsWithin_eq_ok_iff.mp hload
      have hall := hharmless doc hload hvalid
      exact .inr ⟨_, ⟨doc, hload, hvalid, fun entry hentry => (hall entry hentry).1, rfl⟩,
        (airtight_iff hloads hvalid).mpr fun entry hentry => (hall entry hentry).2⟩
    · refine .inl ⟨hstop, fun doc hload => ?_⟩
      rw [← Bool.not_eq_true]
      exact fun htrue => hvalid ⟨doc, hload, htrue⟩

theorem not_safe_of_unasked {doc entry : PyVal} (hload : loadsWithin limit response = .ok doc)
    (hvalid : validateCandidateStructure doc = true) (hentry : entry ∈ listAt doc "mapped_fields")
    (hreg : registered entry = true) (hunasked : ¬ AskedAbout unmappedFields (rawFieldOf entry)) :
    ¬ Safe unmappedFields response
      (proposeMappings limit (fun _ => response) candidateID sourceFormat unmappedFields
        logSample) := by
  intro hsafe
  obtain ⟨-, hharmless⟩ := (safe_iff rfl).mp hsafe
  have hasked := (hharmless doc hload hvalid entry hentry).2
  rw [if_pos hreg] at hasked
  exact hunasked hasked

end Proposal

/-- What the assistant promises of a response, whichever fields were asked about. -/
structure Screened (limit : ℕ) (response : String) (outcome : Except ProposalError PyVal) :
    Prop where
  targets : ∀ c, outcome = .ok c → ∀ entry ∈ listAt c "mapped_fields",
    ∃ name ∈ canonicalSchemaRegistry, canonicalOf entry = .str name
  named : ∀ c doc, outcome = .ok c → loads response = some doc →
    ∀ entry ∈ listAt c "mapped_fields", entry ∈ listAt doc "mapped_fields"
  kept : ∀ c doc, outcome = .ok c → loads response = some doc →
    ∀ entry ∈ listAt doc "mapped_fields", (rawFieldOf entry).truthy = true →
      Kept c (rawFieldOf entry)
  raised : ∀ e, outcome = .error e → stopInText limit response ≠ some .recursionError →
    (∀ doc, loads response = some doc → ∀ entry ∈ listAt doc "mapped_fields",
      hashable (canonicalOf entry) = true) → e.isValueError = true

theorem proposeMappings_screened (limit : ℕ) (provider : String → String)
    (candidateID sourceFormat : String) (unmappedFields : List PyVal) (logSample : String) :
    Screened limit
      (provider (buildStructuredPrompt candidateID sourceFormat unmappedFields logSample))
      (proposeMappings limit provider candidateID sourceFormat unmappedFields logSample) := by
  generalize hresponse :
    provider (buildStructuredPrompt candidateID sourceFormat unmappedFields logSample) = response
  have hreturned (c doc : PyVal)
      (hok : proposeMappings limit provider candidateID sourceFormat unmappedFields logSample =
        .ok c) (hloads : loads response = some doc) :
      listAt c "mapped_fields" = (listAt doc "mapped_fields").filter registered ∧
        listAt c "unmapped_fields" = keptNames doc := by
    obtain ⟨doc', hload, hvalid, -, rfl⟩ := (proposeMappings_eq_ok_iff hresponse).mp hok
    obtain ⟨-, hloads'⟩ := loadsWithin_eq_ok_iff.mp hload
    obtain rfl : doc' = doc := Option.some.inj (hloads'.symm.trans hloads)
    exact listAt_withLists (isObj_of_member? (lists_of_validate hvalid).1) _ _
  refine ⟨?_, ?_, ?_, ?_⟩
  · intro c hok entry hentry
    obtain ⟨doc, hload, -⟩ := (proposeMappings_eq_ok_iff hresponse).mp hok
    rw [(hreturned c doc hok (loadsWithin_eq_ok_iff.mp hload).2).1] at hentry
    exact registered_iff.mp (List.mem_filter.mp hentry).2
  · intro c doc hok hloads entry hentry
    rw [(hreturned c doc hok hloads).1] at hentry
    exact (List.mem_filter.mp hentry).1
  · intro c doc hok hloads entry hentry htrue
    obtain ⟨hmapped, hunmapped⟩ := hreturned c doc hok hloads
    exact (kept_iff hmapped hunmapped hentry).mpr (.inr (.inl htrue))
  · intro e herror hstop hhash
    have hinvalid : ∀ doc, loadsWithin limit response = .ok doc →
        validateCandidateStructure doc = false := by
      intro doc hload
      rw [← Bool.not_eq_true]
      intro hvalid
      have hok := (proposeMappings_eq_ok_iff hresponse).mpr
        ⟨doc, hload, hvalid, hhash doc (loadsWithin_eq_ok_iff.mp hload).2, rfl⟩
      rw [herror] at hok
      cases hok
    obtain ⟨e', herror', hvalue⟩ := (proposeMappings_valueError_iff hresponse).mpr ⟨hstop, hinvalid⟩
    rw [herror] at herror'
    cases herror'
    exact hvalue

/-- Asked about `user`, the model maps `host`. -/
def hostResponse : String :=
  "\x7b\"candidate_id\": \"c\", \"source_format\": \"kv\", \"mapped_fields\": " ++
    "[\x7b\"raw_field\": \"host\", \"canonical_field\": \"src.host\", " ++
    "\"confidence\": 1, \"reasoning\": \"\"\x7d], \"unmapped_fields\": []\x7d"

def hostEntry : PyVal :=
  .obj [("raw_field", .str "host"), ("canonical_field", .str "src.host"),
    ("confidence", PyVal.int 1), ("reasoning", .str "")]

def hostCandidate : PyVal :=
  .obj [("candidate_id", .str "c"), ("source_format", .str "kv"),
    ("mapped_fields", .arr [hostEntry]), ("unmapped_fields", .arr [])]

theorem loadsWithin_hostResponse : loadsWithin 1000 hostResponse = .ok hostCandidate := by
  have hchars : hostResponse.toList = Ascii.chars hostResponse :=
    Ascii.toList_eq (by decide +kernel)
  rw [← toOption_eq_some_iff, loadsWithin, stopInText, loads, hchars]
  decide +kernel

def userRequest : List PyVal := [.obj [("raw_field", .str "user")]]

theorem not_askedAbout_host : ¬ AskedAbout userRequest (.str "host") := by
  rintro ⟨item, hitem, asked, hmember, hsame⟩
  rw [List.mem_singleton.mp hitem] at hmember
  obtain rfl : Json.str "user" = asked := Option.some.inj hmember
  exact absurd hsame (by decide)

theorem not_safe_hostResponse :
    ¬ Safe userRequest hostResponse
      (proposeMappings 1000 (fun _ => hostResponse) "c" "kv" userRequest "") :=
  not_safe_of_unasked loadsWithin_hostResponse (by decide) (List.mem_singleton.mpr rfl)
    (by decide) not_askedAbout_host

end Ulpf.AiAssist
