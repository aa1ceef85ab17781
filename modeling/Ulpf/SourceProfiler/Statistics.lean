import Ulpf.Lib.Outcome
import Ulpf.Lib.Rounding
import Ulpf.SourceProfiler.Profile

/-!
What the numbers of a profile say about the records of the batch.
-/

namespace Ulpf.SourceProfiler

open Ulpf.Lib
open Ulpf.Lib.Binary64 (fl roundTo)
open Ulpf.Python

section Counters

variable {κ : Type} [DecidableEq κ]

theorem sum_put_succ (k : κ) (entries : List (κ × ℕ)) :
    ((put k ((lookup k entries).getD 0 + 1) entries).map Prod.snd).sum =
      (entries.map Prod.snd).sum + 1 := by
  induction entries with
  | nil => rfl
  | cons entry rest ih =>
      obtain ⟨k', n⟩ := entry
      rw [lookup_cons, put]
      split
      · rw [List.map_cons, List.map_cons, List.sum_cons, List.sum_cons, Option.getD_some]
        omega
      · rw [List.map_cons, List.map_cons, List.sum_cons, List.sum_cons, ih]
        omega

theorem sum_increment (counter : Dict κ ℕ) (k : κ) :
    ((increment counter k).entries.map Prod.snd).sum = (counter.entries.map Prod.snd).sum + 1 :=
  sum_put_succ k counter.entries

end Counters

section Tallies

variable {u : Unicode} {t t' : FieldTally} {v : PyVal} {vs : List PyVal}

namespace FieldTally

theorem isNull_eq (u : Unicode) (v : PyVal) :
    isNull u v = decide (TypeInferencer.inferType u v = .null) := by
  rw [isNull]
  by_cases hnull : TypeInferencer.inferType u v = .null
  · simp [hnull]
  · have hne : v ≠ .null := by
      rintro rfl
      exact hnull rfl
    have hblank : v ≠ .str "" := by
      rintro rfl
      exact hnull (TypeInferencer.inferType_blank u (by decide +kernel))
    simp [hnull, hne, hblank]

theorem widen_eq_ok {inferred : DataType} {sVal : String} (h : widen u inferred v sVal t = .ok t') :
    ∃ least greatest, t' = { t with minValue := least, maxValue := greatest } := by
  rw [widen] at h
  split at h
  · split at h
    · cases h
      exact ⟨_, _, rfl⟩
    · cases h
    · obtain ⟨lower, -, h⟩ := bind_eq_ok_iff.mp h
      obtain ⟨higher, -, h⟩ := bind_eq_ok_iff.mp h
      cases h
      exact ⟨_, _, rfl⟩
  · split at h
    · cases h
      exact ⟨_, _, rfl⟩
    · cases h
      exact ⟨_, _, rfl⟩

theorem add_eq_ok (h : add u t v = .ok t') :
    t'.types = increment t.types (TypeInferencer.inferType u v).value ∧
      if isNull u v then
        t'.nullCount = t.nullCount + 1 ∧ t'.distinctValues = t.distinctValues ∧
          t'.sampleValues = t.sampleValues
      else
        t'.nullCount = t.nullCount ∧
          t'.distinctValues = (if t.distinctValues.length < 500 ∧ str u v ∉ t.distinctValues then
            t.distinctValues ++ [str u v] else t.distinctValues) ∧
          t'.sampleValues = (
            if t.sampleValues.length < 5 ∧ !t.sampleValues.contains (.str (str u v)) then
              t.sampleValues ++ [v] else t.sampleValues) := by
  rw [add] at h
  dsimp only at h
  split at h
  · rename_i hnull
    cases h
    rw [if_pos hnull]
    exact ⟨rfl, rfl, rfl, rfl⟩
  · rename_i hnull
    obtain ⟨least, greatest, rfl⟩ := widen_eq_ok h
    rw [if_neg hnull]
    exact ⟨rfl, rfl, rfl, rfl⟩

/-- A tally of these values. -/
structure Of (u : Unicode) (vs : List PyVal) (t : FieldTally) : Prop where
  types : (t.types.entries.map Prod.snd).sum = vs.length
  nulls : t.nullCount = vs.countP (isNull u)
  distinct : t.distinctValues.length ≤ vs.countP fun v => !isNull u v
  limit : t.distinctValues.length ≤ 500
  samples : ∀ v ∈ t.sampleValues, v ∈ vs

theorem of_empty (u : Unicode) : Of u [] empty :=
  ⟨rfl, rfl, Nat.le_refl 0, Nat.zero_le 500, List.forall_mem_nil _⟩

theorem Of.add (ht : Of u vs t) (h : t.add u v = .ok t') : Of u (vs ++ [v]) t' := by
  obtain ⟨htypes, hrest⟩ := add_eq_ok h
  have hsum : (t'.types.entries.map Prod.snd).sum = (vs ++ [v]).length := by
    rw [htypes, sum_increment, ht.types, List.length_append, List.length_singleton]
  have hkept : ∀ w ∈ t.sampleValues, w ∈ vs ++ [v] :=
    fun w hw => List.mem_append_left _ (ht.samples w hw)
  cases hnull : isNull u v with
  | true =>
      rw [if_pos hnull] at hrest
      obtain ⟨hcount, hdistinct, hsamples⟩ := hrest
      refine ⟨hsum, ?_, ?_, ?_, ?_⟩
      · rw [hcount, ht.nulls, List.countP_append, List.countP_singleton, if_pos hnull]
      · rw [hdistinct, List.countP_append]
        exact ht.distinct.trans (Nat.le_add_right _ _)
      · rw [hdistinct]
        exact ht.limit
      · rw [hsamples]
        exact hkept
  | false =>
      rw [if_neg (by rw [hnull]; exact Bool.false_ne_true)] at hrest
      obtain ⟨hcount, hdistinct, hsamples⟩ := hrest
      have hone : (vs ++ [v]).countP (fun v => !isNull u v) =
          vs.countP (fun v => !isNull u v) + 1 := by
        rw [List.countP_append, List.countP_singleton, hnull]
        rfl
      have hbound := ht.distinct
      have hlimit := ht.limit
      refine ⟨hsum, ?_, ?_, ?_, ?_⟩
      · rw [hcount, ht.nulls, List.countP_append, List.countP_singleton, hnull]
        rfl
      · rw [hdistinct, hone]
        split
        · rw [List.length_append, List.length_singleton]
          omega
        · omega
      · rw [hdistinct]
        split
        · rename_i hroom
          rw [List.length_append, List.length_singleton]
          omega
        · exact hlimit
      · rw [hsamples]
        split
        · intro w hw
          obtain hold | hnew := List.mem_append.mp hw
          · exact hkept w hold
          · rw [List.mem_singleton.mp hnew]
            exact List.mem_append_right _ List.mem_cons_self
        · exact hkept

end FieldTally

/-- The tally of a field after one more of its values; the first value starts it. -/
def addValue (u : Unicode) (t : Option FieldTally) (v : PyVal) :
    Except PyError (Option FieldTally) :=
  ((t.getD FieldTally.empty).add u v).map some

theorem of_foldlM_addValue {t : Option FieldTally} (h : vs.foldlM (addValue u) none = .ok t) :
    FieldTally.Of u vs (t.getD FieldTally.empty) := by
  induction vs using List.reverseRecOn generalizing t with
  | nil =>
      cases h
      exact FieldTally.of_empty u
  | append_singleton vs v ih =>
      rw [List.foldlM_append] at h
      obtain ⟨before, hbefore, hlast⟩ := bind_eq_ok_iff.mp h
      rw [List.foldlM_cons] at hlast
      obtain ⟨after, hafter, hend⟩ := bind_eq_ok_iff.mp hlast
      cases hend
      obtain ⟨added, hadded, rfl⟩ := map_eq_ok_iff.mp hafter
      exact (ih hbefore).add hadded

theorem isSome_of_foldlM_addValue {t : Option FieldTally}
    (h : vs.foldlM (addValue u) none = .ok t) : t.isSome = true ↔ ∃ v, v ∈ vs := by
  induction vs using List.reverseRecOn generalizing t with
  | nil =>
      cases h
      simp
  | append_singleton vs v ih =>
      rw [List.foldlM_append] at h
      obtain ⟨before, hbefore, hlast⟩ := bind_eq_ok_iff.mp h
      rw [List.foldlM_cons] at hlast
      obtain ⟨after, hafter, hend⟩ := bind_eq_ok_iff.mp hlast
      cases hend
      obtain ⟨added, -, rfl⟩ := map_eq_ok_iff.mp hafter
      exact iff_of_true rfl ⟨v, List.mem_append_right _ List.mem_cons_self⟩

end Tallies

section Records

variable {u : Unicode} {fields fields' : Dict String FieldTally} {name : String}

/-- The values that stand under a name in some entries. -/
def valuesIn (name : String) (entries : List (String × PyVal)) : List PyVal :=
  entries.filterMap fun entry => if entry.1 = name then some entry.2 else none

theorem valuesIn_eq_lookup {entries : List (String × PyVal)}
    (hnodup : (entries.map Prod.fst).Nodup) (name : String) :
    valuesIn name entries = (lookup name entries).toList := by
  induction entries with
  | nil => rfl
  | cons entry rest ih =>
      obtain ⟨k, v⟩ := entry
      rw [List.map_cons, List.nodup_cons] at hnodup
      rw [lookup_cons, valuesIn, List.filterMap_cons]
      by_cases hk : k = name
      · subst hk
        have hnone :
            rest.filterMap (fun entry => if entry.1 = k then some entry.2 else none) = [] := by
          rw [List.filterMap_eq_nil_iff]
          intro entry hentry
          rw [if_neg]
          rintro rfl
          have hmem : entry.1 ∈ rest.map Prod.fst := List.mem_map_of_mem hentry
          exact hnodup.1 hmem
        simp [hnone]
      · rw [if_neg hk]
        simpa [hk, valuesIn] using ih hnodup.2

theorem foldlM_addField {entries : List (String × PyVal)}
    (h : entries.foldlM (addField u) fields = .ok fields') (name : String) :
    (valuesIn name entries).foldlM (addValue u) (fields.get? name) = .ok (fields'.get? name) := by
  induction entries generalizing fields with
  | nil =>
      cases h
      rfl
  | cons entry entries ih =>
      obtain ⟨k, v⟩ := entry
      rw [List.foldlM_cons] at h
      obtain ⟨next, hfirst, hrest⟩ := bind_eq_ok_iff.mp h
      obtain ⟨t, ht, hnext⟩ := bind_eq_ok_iff.mp hfirst
      cases hnext
      have hlast := ih hrest
      by_cases hk : k = name
      · subst hk
        have hvalues : valuesIn k ((k, v) :: entries) = v :: valuesIn k entries := by
          simp [valuesIn]
        rw [Dict.get?_set_self] at hlast
        rw [hvalues, List.foldlM_cons, addValue, ht]
        exact hlast
      · have hvalues : valuesIn name ((k, v) :: entries) = valuesIn name entries := by
          simp [valuesIn, hk]
        rw [Dict.get?_set_of_ne _ _ hk] at hlast
        rw [hvalues, hlast]

/-- The values of a field in the records that have it. -/
def valuesOf (records : List Record) (name : String) : List PyVal :=
  records.filterMap fun record => record.get? name

theorem exists_mem_valuesOf_iff {records : List Record} {name : String} :
    (∃ v, v ∈ valuesOf records name) ↔ ∃ record ∈ records, record.contains name = true := by
  simp only [valuesOf, List.mem_filterMap, Dict.contains, Option.isSome_iff_exists]
  constructor
  · rintro ⟨v, record, hmem, hv⟩
    exact ⟨record, hmem, v, hv⟩
  · rintro ⟨record, hmem, v, hv⟩
    exact ⟨v, record, hmem, hv⟩

/-- The values of a record are gathered under their names. -/
def addRecord (u : Unicode) (fields : Dict String FieldTally) (record : Record) :
    Except PyError (Dict String FieldTally) :=
  record.entries.foldlM (addField u) fields

theorem foldlM_addRecord_eq {records : List Record} : records.foldlM (addRecord u) fields =
    (records.flatMap fun record => record.entries).foldlM (addField u) fields := by
  induction records generalizing fields with
  | nil => rfl
  | cons record records ih =>
      rw [List.foldlM_cons, List.flatMap_cons, List.foldlM_append]
      congr
      funext next
      exact ih

theorem valuesIn_flatMap (name : String) (records : List Record) :
    valuesIn name (records.flatMap fun record => record.entries) = valuesOf records name := by
  induction records with
  | nil => rfl
  | cons record records ih =>
      rw [List.flatMap_cons, valuesIn, List.filterMap_append, ← valuesIn, ← valuesIn, ih,
        valuesIn_eq_lookup record.nodup, valuesOf, valuesOf, List.filterMap_cons, Dict.get?]
      cases lookup name record.entries <;> rfl

theorem foldlM_addRecord {records : List Record}
    (h : records.foldlM (addRecord u) fields = .ok fields') (name : String) :
    (valuesOf records name).foldlM (addValue u) (fields.get? name) = .ok (fields'.get? name) := by
  rw [foldlM_addRecord_eq] at h
  rw [← valuesIn_flatMap]
  exact foldlM_addField h name

end Records

section Loop

variable {u : Unicode} {mask : String → String} {batch : BatchFormat}
  {headers : Option (List String)}

/-- The records that the lines have been read as. -/
def recordsOf (readings : List (Option (Record × LogFormat))) : List Record :=
  readings.filterMap fun reading => reading.map Prod.fst

/-- What a run of the loop has counted and gathered, in terms of what the lines have been read
as. -/
theorem foldlM_profileLine {rows : List String} {s s' : ProfileState}
    (h : rows.foldlM (profileLine u mask batch headers) s = .ok s') : ∃ readings,
      rows.mapM (readLine u batch headers) = .ok readings ∧
      s'.validRecords = s.validRecords + (recordsOf readings).length ∧
      s'.corruptedRecords = s.corruptedRecords + readings.countP Option.isNone ∧
      (recordsOf readings).foldlM (addRecord u) s.fields = .ok s'.fields := by
  induction rows generalizing s with
  | nil =>
      cases h
      exact ⟨[], rfl, rfl, rfl, rfl⟩
  | cons line rows ih =>
      rw [List.foldlM_cons] at h
      obtain ⟨next, hround, hrest⟩ := bind_eq_ok_iff.mp h
      obtain ⟨readings, hreadings, hvalid, hcorrupted, hfields⟩ := ih hrest
      obtain ⟨reading, hreading, hnext⟩ := bind_eq_ok_iff.mp hround
      refine ⟨reading :: readings, ?_, ?_⟩
      · rw [List.mapM_cons, hreading, ok_bind, hreadings]
        rfl
      · cases reading with
        | none =>
            cases hnext
            refine ⟨hvalid, ?_, hfields⟩
            rw [hcorrupted, List.countP_cons_of_pos rfl]
            show s.corruptedRecords + 1 + _ = _
            omega
        | some reading =>
            obtain ⟨record, fmt⟩ := reading
            obtain ⟨gathered, hgathered, hnext⟩ := bind_eq_ok_iff.mp hnext
            cases hnext
            have hcons : recordsOf (some (record, fmt) :: readings) =
                record :: recordsOf readings := rfl
            refine ⟨?_, ?_, ?_⟩
            · rw [hvalid, hcons, List.length_cons]
              show s.validRecords + 1 + _ = _
              omega
            · rw [hcorrupted, List.countP_cons_of_neg (by simp)]
            · rw [hcons, List.foldlM_cons, addRecord, hgathered, ok_bind]
              exact hfields

end Loop

section Profiles

/-- What the profile of a field says about the records. -/
structure FieldConsistent (u : Unicode) (records : List Record) (name : String)
    (f : FieldProfile) : Prop where
  total : f.totalCount = records.length
  types : (f.typeDistribution.entries.map Prod.snd).sum ≤ records.length
  lacking : records.countP (fun record => !record.contains name) ≤ f.nullCount
  nulls : f.nullCount ≤ f.totalCount
  ratio_mem : f.presenceRatio ∈ Set.Icc 0 1
  ratio : f.presenceRatio = roundTo 4 (fl ((records.countP fun record =>
    (record.get? name).any fun v => TypeInferencer.inferType u v ≠ .null : ℕ) /
      (max 1 records.length : ℕ)))
  distinct : f.distinctCount ≤ records.countP fun record =>
    (record.get? name).any fun v => TypeInferencer.inferType u v ≠ .null
  limit : f.distinctCount ≤ 500
  samples : ∀ v ∈ f.sampleValues, ∃ record ∈ records, record.get? name = some v

theorem countP_valuesOf (p : PyVal → Bool) (records : List Record) (name : String) :
    (valuesOf records name).countP p = records.countP fun record => (record.get? name).any p := by
  rw [valuesOf, List.countP_filterMap]
  apply List.countP_congr
  intro record hrecord
  cases record.get? name <;> rfl

theorem countP_lacking (records : List Record) (name : String) :
    records.countP (fun record => !record.contains name) + (valuesOf records name).length =
      records.length := by
  induction records with
  | nil => rfl
  | cons record records ih =>
      rw [valuesOf, List.filterMap_cons, List.countP_cons, List.length_cons, Dict.contains]
      rw [valuesOf] at ih
      cases record.get? name with
      | none =>
          simp only [Option.isSome_none, Bool.not_false, if_true]
          omega
      | some v =>
          simp only [Option.isSome_some, Bool.not_true, Bool.false_eq_true, if_false,
            List.length_cons]
          omega

theorem fieldProfile_consistent {u : Unicode} {records : List Record} {name : String}
    {t : FieldTally} (ht : FieldTally.Of u (valuesOf records name) t) :
    FieldConsistent u records name (fieldProfile records.length name t) := by
  have hlacking := countP_lacking records name
  have hsplit : (valuesOf records name).countP (FieldTally.isNull u) +
      (valuesOf records name).countP (fun v => !FieldTally.isNull u v) =
        (valuesOf records name).length := by
    have hsum := List.length_eq_countP_add_countP (FieldTally.isNull u) (l := valuesOf records name)
    simpa using hsum.symm
  have hpresent : (valuesOf records name).countP (fun v => !FieldTally.isNull u v) =
      records.countP fun record =>
        (record.get? name).any fun v => TypeInferencer.inferType u v ≠ .null := by
    rw [countP_valuesOf]
    simp only [FieldTally.isNull_eq, decide_not]
  have htypes := ht.types
  have hnulls := ht.nulls
  have hnonNull : records.length - (t.nullCount + (records.length -
      (t.types.entries.map Prod.snd).sum)) = records.countP fun record =>
        (record.get? name).any fun v => TypeInferencer.inferType u v ≠ .null := by
    rw [← hpresent]
    omega
  have hle : (records.countP fun record =>
      (record.get? name).any fun v => TypeInferencer.inferType u v ≠ .null) ≤
        max 1 records.length :=
    List.countP_le_length.trans (le_max_right _ _)
  have hratio : (fieldProfile records.length name t).presenceRatio =
      roundTo 4 (fl ((records.countP fun record =>
        (record.get? name).any fun v => TypeInferencer.inferType u v ≠ .null : ℕ) /
          (max 1 records.length : ℕ))) := by
    rw [← hnonNull]
    rfl
  constructor
  · rfl
  · show (t.types.entries.map Prod.snd).sum ≤ _
    omega
  · show _ ≤ t.nullCount + (records.length - (t.types.entries.map Prod.snd).sum)
    omega
  · show t.nullCount + (records.length - (t.types.entries.map Prod.snd).sum) ≤ records.length
    omega
  · rw [hratio]
    exact Binary64.roundTo_mem_Icc (by norm_num) (Binary64.fl_ratio_mem_Icc hle)
  · exact hratio
  · rw [← hpresent]
    exact ht.distinct
  · exact ht.limit
  · intro v hv
    exact List.mem_filterMap.mp (ht.samples v hv)

theorem fieldProfiles_empty (validRecords : ℕ) :
    fieldProfiles validRecords Dict.empty = Dict.empty := by
  simp [fieldProfiles, Dict.empty, Dict.ofList]

theorem get?_fieldProfiles (validRecords : ℕ) (fields : Dict String FieldTally) (name : String) :
    (fieldProfiles validRecords fields).get? name =
      (fields.get? name).map (fieldProfile validRecords name) := by
  ext f
  rw [Dict.get?_eq_some_iff, fieldProfiles, Dict.entries_ofList_of_nodup, List.mem_map,
    Option.map_eq_some_iff]
  · simp only [List.mem_mergeSort, Dict.get?_eq_some_iff, Prod.exists, Prod.mk.injEq]
    constructor
    · rintro ⟨_, t, hmem, rfl, hf⟩
      exact ⟨t, hmem, hf⟩
    · rintro ⟨t, hmem, hf⟩
      exact ⟨name, t, hmem, rfl, hf⟩
  · rw [List.map_map]
    exact ((List.mergeSort_perm _ _).map Prod.fst).nodup_iff.mpr fields.nodup

end Profiles

section Batches

variable (u : Unicode) (mask : String → String) (sampleLimit : ℕ) (logs : List String)

/-- What the rows of a batch are read as. -/
def readRows : Except PyError (List (Option (Record × LogFormat))) :=
  (rowsOf u sampleLimit logs).mapM
    (readLine u (batchOf u sampleLimit logs) (headersOf u sampleLimit logs))

/-- The numbers of a profile fit together, and fit what the rows are read as; its fields are those
of the records. -/
structure Consistent (readings : List (Option (Record × LogFormat))) (p : SourceProfile) :
    Prop where
  total : p.totalRecords = p.validRecords + p.corruptedRecords +
    if (headersOf u sampleLimit logs).isSome then 1 else 0
  valid : p.validRecords = (recordsOf readings).length
  names : ∀ name, p.fields.contains name = true ↔
    ∃ record ∈ recordsOf readings, record.contains name = true
  fields : ∀ name f, p.fields.get? name = some f → FieldConsistent u (recordsOf readings) name f

theorem length_linesOf : (linesOf logs).length = (rowsOf u sampleLimit logs).length +
    if (headersOf u sampleLimit logs).isSome then 1 else 0 := by
  rw [rowsOf]
  split
  · rename_i hheaders
    have hpos : 0 < (linesOf logs).length := by
      rw [List.length_pos_iff]
      intro hnil
      rw [headersOf, hnil, csvHeaders.eq_def] at hheaders
      simp at hheaders
    rw [List.length_drop]
    omega
  · rfl

variable {u mask sampleLimit logs}

theorem length_readings (readings : List (Option (Record × LogFormat))) :
    (recordsOf readings).length + readings.countP Option.isNone = readings.length := by
  induction readings with
  | nil => rfl
  | cons reading readings ih =>
      cases reading with
      | none =>
          rw [List.countP_cons_of_pos rfl, List.length_cons]
          show (recordsOf readings).length + _ = _
          omega
      | some reading =>
          rw [List.countP_cons_of_neg (by simp), List.length_cons]
          show (recordsOf readings).length + 1 + _ = _
          omega

theorem profile_eq_ok {p : SourceProfile} (h : profile u mask sampleLimit logs = .ok p) :
    ∃ readings fields, readRows u sampleLimit logs = .ok readings ∧
      (recordsOf readings).foldlM (addRecord u) Dict.empty = .ok fields ∧
      p.totalRecords = (linesOf logs).length ∧
      p.validRecords = (recordsOf readings).length ∧
      p.corruptedRecords = readings.countP Option.isNone ∧
      p.fields = fieldProfiles (recordsOf readings).length fields := by
  rw [profile] at h
  split at h
  · rename_i hempty
    cases h
    have hlines : linesOf logs = [] := List.isEmpty_iff.mp hempty
    have hlength := length_linesOf u sampleLimit logs
    rw [hlines, List.length_nil] at hlength
    have hrows : rowsOf u sampleLimit logs = [] := List.length_eq_zero_iff.mp (by omega)
    exact ⟨[], Dict.empty, by rw [readRows, hrows]; rfl, rfl, by rw [hlines]; rfl, rfl, rfl,
      (fieldProfiles_empty _).symm⟩
  · obtain ⟨s, hs, hp⟩ := bind_eq_ok_iff.mp h
    cases hp
    obtain ⟨readings, hreadings, hvalid, hcorrupted, hfields⟩ := foldlM_profileLine hs
    have hvalid : s.validRecords = (recordsOf readings).length := hvalid.trans (Nat.zero_add _)
    have hcorrupted : s.corruptedRecords = readings.countP Option.isNone :=
      hcorrupted.trans (Nat.zero_add _)
    exact ⟨readings, s.fields, hreadings, hfields, rfl, hvalid, hcorrupted,
      congrArg (fieldProfiles · s.fields) hvalid⟩

theorem totalRecords_eq {p : SourceProfile} (h : profile u mask sampleLimit logs = .ok p) :
    p.totalRecords = p.validRecords + p.corruptedRecords +
      if (headersOf u sampleLimit logs).isSome then 1 else 0 := by
  obtain ⟨readings, fields, hreadings, -, htotal, hvalid, hcorrupted, -⟩ := profile_eq_ok h
  rw [htotal, length_linesOf u sampleLimit logs, hvalid, hcorrupted, length_readings,
    mapM_length hreadings]

/-- A profile that is returned is consistent with what the rows have been read as. -/
theorem profile_consistent {p : SourceProfile} (h : profile u mask sampleLimit logs = .ok p) :
    ∃ readings, readRows u sampleLimit logs = .ok readings ∧
      Consistent u sampleLimit logs readings p := by
  obtain ⟨readings, fields, hreadings, hgathered, -, hvalid, -, hfields⟩ := profile_eq_ok h
  have htally (name : String) :
      (valuesOf (recordsOf readings) name).foldlM (addValue u) none = .ok (fields.get? name) :=
    foldlM_addRecord hgathered name
  refine ⟨readings, hreadings, totalRecords_eq h, hvalid, fun name => ?_, fun name f hf => ?_⟩
  · rw [← exists_mem_valuesOf_iff, ← isSome_of_foldlM_addValue (htally name), hfields,
      Dict.contains, get?_fieldProfiles, Option.isSome_map]
  · rw [hfields, get?_fieldProfiles] at hf
    obtain ⟨t, ht, rfl⟩ := Option.map_eq_some_iff.mp hf
    have hvalues := of_foldlM_addValue (htally name)
    rw [ht] at hvalues
    exact fieldProfile_consistent hvalues

/-- Two records and a line that is none. -/
theorem profile_consistent_levels : ∃ p,
    profile Unicode.ascii (fun message => message) 1000
      ["\x7b\"level\":3\x7d", "\x7b\"level\":\"\"\x7d", "restarted"] = .ok p ∧
    ∃ readings, readRows Unicode.ascii 1000
        ["\x7b\"level\":3\x7d", "\x7b\"level\":\"\"\x7d", "restarted"] = .ok readings ∧
      Consistent Unicode.ascii 1000
        ["\x7b\"level\":3\x7d", "\x7b\"level\":\"\"\x7d", "restarted"] readings p := by
  have hreturns : (profile Unicode.ascii (fun message => message) 1000
      ["\x7b\"level\":3\x7d", "\x7b\"level\":\"\"\x7d", "restarted"]).toBool = true := by
    decide +kernel
  cases hp : profile Unicode.ascii (fun message => message) 1000
      ["\x7b\"level\":3\x7d", "\x7b\"level\":\"\"\x7d", "restarted"] with
  | error err =>
      rw [hp] at hreturns
      cases hreturns
  | ok p => exact ⟨p, rfl, profile_consistent hp⟩

end Batches

end Ulpf.SourceProfiler
