import Ulpf.Shadow.Scorecard
import Mathlib.Data.List.Induction

/-!
The field-by-field comparison of two runs. One pass over the pairs of events keeps counts and a
first example for each field; what is reported of a field is what the pairs say about it.
-/

namespace Ulpf.Shadow

open Ulpf.Lib
open Ulpf.Lib.Binary64 (roundTo)
open Ulpf.Python

inductive DivergenceType where
  | valueMismatch
  | fieldMissingInCandidate
  | newFieldInCandidate
  | typeMismatch
  deriving DecidableEq

/-- How two events diverge on a field, with the values of `example_mismatch`. -/
structure Divergence where
  type : DivergenceType
  active : PyVal
  candidate : PyVal
  deriving DecidableEq

/-- `FieldDivergence`: a field, how often it agrees and an example. -/
structure FieldDivergence where
  field : String
  matchRate : ℚ
  divergence : Divergence
  deriving DecidableEq

/-- The types Python tells apart. -/
inductive PyType where
  | noneType
  | bool
  | int
  | float
  | str
  | list
  | dict
  deriving DecidableEq

/-- `type(v)` -/
def typeOf : PyVal → PyType
  | .null => .noneType
  | .bool _ => .bool
  | .num (.int _) => .int
  | .num (.float _) => .float
  | .str _ => .str
  | .arr _ => .list
  | .obj _ => .dict

/-- `div_type` of two values that differ. -/
def mismatch (v w : PyVal) : Divergence :=
  ⟨if typeOf v ≠ typeOf w then .typeMismatch else .valueMismatch, v, w⟩

def missing (v : PyVal) : Divergence := ⟨.fieldMissingInCandidate, v, .null⟩

def added (w : PyVal) : Divergence := ⟨.newFieldInCandidate, .null, w⟩

/-- The variables of the loop. -/
structure Congruence where
  fieldMatchCounts : Dict String ℕ
  fieldTotalCounts : Dict String ℕ
  fieldDivergenceExamples : Dict String Divergence
  totalActiveComparisons : ℕ
  totalActiveMatches : ℕ

namespace Congruence

def init : Congruence := ⟨Dict.empty, Dict.empty, Dict.empty, 0, 0⟩

variable (acc : Congruence)

/-- The first example of a field stays. -/
def keepExample (k : String) (divergence : Divergence) : Congruence :=
  if acc.fieldDivergenceExamples.contains k then acc
  else { acc with fieldDivergenceExamples := acc.fieldDivergenceExamples.set k divergence }

/-- A field of the active event. -/
def activeField (cand : Dict String PyVal) (field : String × PyVal) : Congruence :=
  let (k, v) := field
  let acc :=
    { acc with
      fieldTotalCounts := acc.fieldTotalCounts.set k ((acc.fieldTotalCounts.get? k).getD 0 + 1)
      totalActiveComparisons := acc.totalActiveComparisons + 1 }
  match cand.get? k with
  | some w =>
      if PyVal.eq v w then
        { acc with
          fieldMatchCounts := acc.fieldMatchCounts.set k ((acc.fieldMatchCounts.get? k).getD 0 + 1)
          totalActiveMatches := acc.totalActiveMatches + 1 }
      else acc.keepExample k (mismatch v w)
  | none => acc.keepExample k (missing v)

/-- A field of the candidate event. -/
def candidateField (act : Dict String PyVal) (field : String × PyVal) : Congruence :=
  let (k, w) := field
  if act.contains k then acc
  else
    let acc := acc.keepExample k (added w)
    if acc.fieldTotalCounts.contains k then acc
    else
      { acc with
        fieldTotalCounts := acc.fieldTotalCounts.set k 1
        fieldMatchCounts := acc.fieldMatchCounts.set k 1 }

/-- The body of the loop over the pairs of events. -/
def pair (flats : Dict String PyVal × Dict String PyVal) : Congruence :=
  flats.2.entries.foldl (fun acc field => acc.candidateField flats.1 field)
    (flats.1.entries.foldl (fun acc field => acc.activeField flats.2 field) acc)

/-- What is reported of a field, when there is an example. -/
def reportField (count : String × ℕ) : Option FieldDivergence :=
  (acc.fieldDivergenceExamples.get? count.1).map fun divergence =>
    { field := count.1
      matchRate :=
        roundTo 4 (if divergence.type = .newFieldInCandidate then 1
          else ratio ((acc.fieldMatchCounts.get? count.1).getD 0) count.2)
      divergence := divergence }

/-- The loop over `sorted(field_total_counts.items())`. -/
def divergences : List FieldDivergence :=
  (acc.fieldTotalCounts.entries.mergeSort fun a b => a.1 ≤ b.1).filterMap acc.reportField

end Congruence

/-- `_evaluate_field_congruence`: the match rate and the divergences. -/
def evaluateFieldDivergences (active candidate : List Event) :
    Except PyError (ℚ × List FieldDivergence) :=
  if active.isEmpty ∨ candidate.isEmpty then .ok (1, [])
  else do
    let flats ← flatPairs active candidate
    let acc := flats.foldl Congruence.pair .init
    let overallMatchRate :=
      if 0 < acc.totalActiveComparisons then
        ratio acc.totalActiveMatches acc.totalActiveComparisons
      else 1
    return (roundTo 4 overallMatchRate, acc.divergences)

section Meaning

variable (k : String) (flats : List (Dict String PyVal × Dict String PyVal))

/-- What the values of a field in two events say about it. -/
def diverge : Option PyVal → Option PyVal → Option Divergence
  | some v, some w => if PyVal.eq v w then none else some (mismatch v w)
  | some v, none => some (missing v)
  | none, some w => some (added w)
  | none, none => none

/-- The divergence of a pair on a field. -/
def divergenceAt (p : Dict String PyVal × Dict String PyVal) : Option Divergence :=
  diverge (p.1.get? k) (p.2.get? k)

/-- A pair has the field and agrees on it. -/
def agreesAt (p : Dict String PyVal × Dict String PyVal) : Bool :=
  p.1.contains k && (divergenceAt k p).isNone

/-- What a run of pairs says about a field: the first divergence, and how many of the active events
with the field the candidate agrees with. A field that first appears as an addition of the
candidate counts as matched throughout. -/
def divergenceOf : Option FieldDivergence :=
  (flats.findSome? (divergenceAt k)).map fun divergence =>
    { field := k
      matchRate :=
        roundTo 4 (if divergence.type = .newFieldInCandidate then 1
          else ratio (flats.countP (agreesAt k)) (flats.countP fun p => p.1.contains k))
      divergence := divergence }

end Meaning

section Views

/-- What the variables of the loop hold of one field. -/
structure FieldView where
  total : Option ℕ
  matched : ℕ
  divergence : Option Divergence

namespace FieldView

variable (x : FieldView)

/-- The first example is kept. -/
def keepExample (divergence : Divergence) : FieldView :=
  { x with divergence := x.divergence.or (some divergence) }

def active (v : PyVal) (w : Option PyVal) : FieldView :=
  let x := { x with total := some (x.total.getD 0 + 1) }
  match w with
  | some w =>
      if PyVal.eq v w then { x with matched := x.matched + 1 } else x.keepExample (mismatch v w)
  | none => x.keepExample (missing v)

def candidate (w : PyVal) : FieldView :=
  let x := x.keepExample (added w)
  match x.total with
  | some _ => x
  | none => { x with total := some 1, matched := 1 }

/-- What a pair of events does to a field. -/
def pair (v w : Option PyVal) : FieldView :=
  match v, w with
  | some v, w => x.active v w
  | none, some w => x.candidate w
  | none, none => x

end FieldView

namespace Congruence

variable {acc : Congruence} {k : String}

/-- What the accumulators hold of a field. -/
def view (k : String) (acc : Congruence) : FieldView where
  total := acc.fieldTotalCounts.get? k
  matched := (acc.fieldMatchCounts.get? k).getD 0
  divergence := acc.fieldDivergenceExamples.get? k

theorem view_keepExample (divergence : Divergence) :
    (acc.keepExample k divergence).view k = (acc.view k).keepExample divergence := by
  rw [keepExample, FieldView.keepExample, view]
  cases hexample : acc.fieldDivergenceExamples.get? k with
  | none => simp [view, Dict.contains, hexample]
  | some first => simp [view, Dict.contains, hexample]

theorem view_keepExample_of_ne {k' : String} (hne : k ≠ k') (divergence : Divergence) :
    (acc.keepExample k' divergence).view k = acc.view k := by
  rw [keepExample]
  split
  · rfl
  · simp only [view, Dict.get?_set_of_ne _ _ hne.symm]

theorem view_activeField (cand : Dict String PyVal) (v : PyVal) :
    (acc.activeField cand (k, v)).view k = (acc.view k).active v (cand.get? k) := by
  rw [activeField]
  cases cand.get? k with
  | none =>
      dsimp only [FieldView.active]
      rw [view_keepExample]
      simp [view]
  | some w =>
      dsimp only [FieldView.active]
      split
      · simp [view]
      · rw [view_keepExample]
        simp [view]

theorem view_activeField_of_ne {k' : String} (hne : k ≠ k') (cand : Dict String PyVal)
    (v : PyVal) : (acc.activeField cand (k', v)).view k = acc.view k := by
  rw [activeField]
  cases cand.get? k' with
  | none =>
      dsimp only
      rw [view_keepExample_of_ne hne]
      simp only [view, Dict.get?_set_of_ne _ _ hne.symm]
  | some w =>
      dsimp only
      split
      · simp only [view, Dict.get?_set_of_ne _ _ hne.symm]
      · rw [view_keepExample_of_ne hne]
        simp only [view, Dict.get?_set_of_ne _ _ hne.symm]

theorem view_candidateField {act : Dict String PyVal} (hnew : act.contains k = false)
    (w : PyVal) : (acc.candidateField act (k, w)).view k = (acc.view k).candidate w := by
  have htotal : (acc.keepExample k (added w)).fieldTotalCounts = acc.fieldTotalCounts := by
    rw [keepExample]
    split <;> rfl
  have hview : (acc.keepExample k (added w)).view k = (acc.view k).keepExample (added w) :=
    view_keepExample (added w)
  rw [candidateField, FieldView.candidate, ← hview]
  dsimp only
  rw [if_neg (by simp [hnew]), htotal, Dict.contains]
  have htotal' : (view k (acc.keepExample k (added w))).total = acc.fieldTotalCounts.get? k := by
    rw [view, htotal]
  rw [htotal']
  cases acc.fieldTotalCounts.get? k with
  | none => simp [view]
  | some n => rfl

theorem candidateField_of_contains {act : Dict String PyVal} {k' : String}
    (hold : act.contains k' = true) (w : PyVal) : acc.candidateField act (k', w) = acc := by
  rw [candidateField]
  exact if_pos hold

theorem view_candidateField_of_ne {k' : String} (hne : k ≠ k') (act : Dict String PyVal)
    (w : PyVal) : (acc.candidateField act (k', w)).view k = acc.view k := by
  have hkept : (acc.keepExample k' (added w)).view k = acc.view k :=
    view_keepExample_of_ne hne (added w)
  rw [candidateField]
  dsimp only
  split
  · rfl
  · split
    · exact hkept
    · rw [← hkept]
      simp only [view, Dict.get?_set_of_ne _ _ hne.symm]

theorem view_pair (p : Dict String PyVal × Dict String PyVal) :
    (acc.pair p).view k = (acc.view k).pair (p.1.get? k) (p.2.get? k) := by
  have hactive := Dict.foldl_at (fun acc field => activeField acc p.2 field) (view k)
    (fun x v => x.active v (p.2.get? k)) (k := k) (fun _ v => view_activeField p.2 v)
    (fun _ _ v hne => view_activeField_of_ne hne p.2 v) p.1 acc
  have hcandidate (acc : Congruence) := Dict.foldl_at
    (fun acc field => candidateField acc p.1 field) (view k)
    (fun x w => if p.1.contains k then x else x.candidate w) (k := k)
    (fun acc w => by
      split
      · rename_i hold
        rw [candidateField_of_contains hold]
      · rename_i hnew
        exact view_candidateField (by simpa using hnew) w)
    (fun _ _ w hne => view_candidateField_of_ne hne p.1 w) p.2 acc
  rw [pair, hcandidate, hactive, Dict.contains]
  cases p.1.get? k with
  | none => cases p.2.get? k <;> rfl
  | some v => cases p.2.get? k <;> rfl

end Congruence

end Views

section Invariant

namespace FieldView

variable {x : FieldView} (v w : Option PyVal)

theorem divergence_pair : (x.pair v w).divergence = x.divergence.or (diverge v w) := by
  cases v with
  | none =>
      cases w with
      | none => exact (Option.or_none).symm
      | some w =>
          rw [pair, candidate]
          cases (x.keepExample (added w)).total <;> rfl
  | some v =>
      cases w with
      | none => rfl
      | some w =>
          simp only [pair, active, diverge]
          split
          · exact (Option.or_none).symm
          · rfl

theorem total_pair_eq_none_iff :
    (x.pair v w).total = none ↔ x.total = none ∧ v = none ∧ w = none := by
  cases v with
  | none =>
      cases w with
      | none => simp [pair]
      | some w => cases htotal : x.total <;> simp [pair, candidate, keepExample, htotal]
  | some v =>
      cases w with
      | none => simp [pair, active, keepExample]
      | some w =>
          simp only [pair, active]
          split <;> simp [keepExample]

/-- Unless the field counts as an addition, an active event with the field is counted once, and
once more when the candidate agrees. -/
theorem counts_pair (hseen : x.total = none → x.divergence = none)
    (hold : ∀ d, (x.pair v w).divergence = some d → d.type ≠ .newFieldInCandidate) :
    (x.pair v w).total.getD 0 = x.total.getD 0 + (if v.isSome then 1 else 0) ∧
      (x.pair v w).matched = x.matched + if v.isSome && (diverge v w).isNone then 1 else 0 := by
  cases v with
  | none =>
      cases w with
      | none => simp [pair]
      | some w =>
          cases htotal : x.total with
          | some n => simp [pair, candidate, keepExample, htotal]
          | none =>
              rw [divergence_pair, hseen htotal] at hold
              exact absurd rfl (hold (added w) rfl)
  | some v =>
      cases w with
      | none => simp [pair, active, keepExample, diverge]
      | some w =>
          simp only [pair, active, diverge]
          split <;> simp [keepExample]

end FieldView

variable {k : String} {flats : List (Dict String PyVal × Dict String PyVal)} {x : FieldView}

/-- What the variables of a field tell of the pairs that the loop has gone through. -/
structure Tells (k : String) (flats : List (Dict String PyVal × Dict String PyVal))
    (x : FieldView) : Prop where
  divergence : x.divergence = flats.findSome? (divergenceAt k)
  total : x.total = none ↔ ∀ p ∈ flats, p.1.get? k = none ∧ p.2.get? k = none
  counts : (∀ d, x.divergence = some d → d.type ≠ .newFieldInCandidate) →
    x.total.getD 0 = flats.countP (fun p => p.1.contains k) ∧
      x.matched = flats.countP (agreesAt k)

theorem Tells.divergence_eq_none (h : Tells k flats x) (htotal : x.total = none) :
    x.divergence = none := by
  rw [h.divergence, List.findSome?_eq_none_iff]
  intro p hp
  obtain ⟨hact, hcand⟩ := h.total.mp htotal p hp
  rw [divergenceAt, hact, hcand]
  rfl

theorem Tells.pair (h : Tells k flats x) (p : Dict String PyVal × Dict String PyVal) :
    Tells k (flats ++ [p]) (x.pair (p.1.get? k) (p.2.get? k)) where
  divergence := by
    rw [FieldView.divergence_pair, h.divergence, List.findSome?_append]
    simp [divergenceAt]
  total := by
    rw [FieldView.total_pair_eq_none_iff, h.total, List.forall_mem_append,
      List.forall_mem_singleton]
  counts hold := by
    obtain ⟨htotal, hmatched⟩ := FieldView.counts_pair _ _ h.divergence_eq_none hold
    have hold' : ∀ d, x.divergence = some d → d.type ≠ .newFieldInCandidate := by
      intro d hd
      apply hold d
      rw [FieldView.divergence_pair, hd, Option.some_or]
    obtain ⟨hcount, hagree⟩ := h.counts hold'
    rw [List.countP_append, List.countP_append, List.countP_singleton, List.countP_singleton,
      ← hcount, ← hagree]
    exact ⟨htotal, hmatched⟩

theorem tells_foldl (k : String) (flats : List (Dict String PyVal × Dict String PyVal)) :
    Tells k flats ((flats.foldl Congruence.pair .init).view k) := by
  induction flats using List.reverseRecOn with
  | nil => exact ⟨rfl, by simp [Congruence.view, Congruence.init], fun _ => ⟨rfl, rfl⟩⟩
  | append_singleton flats p ih =>
      rw [List.foldl_concat, Congruence.view_pair]
      exact ih.pair p

end Invariant

section Reports

variable {acc : Congruence} {flats : List (Dict String PyVal × Dict String PyVal)}
  {d : FieldDivergence}

theorem mem_divergences_iff : d ∈ acc.divergences ↔
    ∃ n, acc.fieldTotalCounts.get? d.field = some n ∧ acc.reportField (d.field, n) = some d := by
  rw [Congruence.divergences, List.mem_filterMap]
  simp only [List.mem_mergeSort, Prod.exists, ← Dict.get?_eq_some_iff]
  constructor
  · rintro ⟨k, n, hget, hreport⟩
    obtain ⟨divergence, -, rfl⟩ := Option.map_eq_some_iff.mp hreport
    exact ⟨n, hget, hreport⟩
  · rintro ⟨n, hget, hreport⟩
    exact ⟨d.field, n, hget, hreport⟩

theorem mem_divergences_foldl_iff :
    d ∈ (flats.foldl Congruence.pair .init).divergences ↔
      divergenceOf d.field flats = some d := by
  have htells := tells_foldl d.field flats
  rw [mem_divergences_iff, divergenceOf, ← htells.divergence]
  generalize flats.foldl Congruence.pair .init = acc at htells
  have hrate {divergence : Divergence} {n : ℕ}
      (hdivergence : acc.fieldDivergenceExamples.get? d.field = some divergence)
      (htotal : acc.fieldTotalCounts.get? d.field = some n) :
      (if divergence.type = .newFieldInCandidate then (1 : ℚ)
        else ratio ((acc.fieldMatchCounts.get? d.field).getD 0) n) =
      if divergence.type = .newFieldInCandidate then 1
        else ratio (flats.countP (agreesAt d.field))
          (flats.countP fun p => p.1.contains d.field) := by
    split
    · rfl
    · rename_i hold
      obtain ⟨hcount, hmatched⟩ := htells.counts fun d' hd' => by
        rw [Congruence.view, hdivergence, Option.some.injEq] at hd'
        rwa [← hd']
      rw [← hcount, ← hmatched, Congruence.view, htotal]
      rfl
  constructor
  · rintro ⟨n, htotal, hreport⟩
    obtain ⟨divergence, hdivergence, heq⟩ := Option.map_eq_some_iff.mp hreport
    dsimp only at hdivergence heq
    rw [hrate hdivergence htotal] at heq
    exact Option.map_eq_some_iff.mpr ⟨divergence, hdivergence, heq⟩
  · intro h
    obtain ⟨divergence, hdivergence, heq⟩ := Option.map_eq_some_iff.mp h
    cases htotal : acc.fieldTotalCounts.get? d.field with
    | none =>
        have hnone := htells.divergence_eq_none htotal
        rw [hdivergence] at hnone
        cases hnone
    | some n =>
        rw [← hrate hdivergence htotal] at heq
        exact ⟨n, rfl, Option.map_eq_some_iff.mpr ⟨divergence, hdivergence, heq⟩⟩

theorem pairwise_divergences (acc : Congruence) :
    acc.divergences.Pairwise fun d d' => d.field < d'.field := by
  let le : String × ℕ → String × ℕ → Bool := fun a b => a.1 ≤ b.1
  have htrans (a b c : String × ℕ) (hab : le a b = true) (hbc : le b c = true) : le a c = true :=
    decide_eq_true (String.le_trans (of_decide_eq_true hab) (of_decide_eq_true hbc))
  have htotal (a b : String × ℕ) : (le a b || le b a) = true := by
    simpa [le] using String.le_total a.1 b.1
  have hsorted := List.pairwise_mergeSort htrans htotal acc.fieldTotalCounts.entries
  have hnodup : ((acc.fieldTotalCounts.entries.mergeSort le).map Prod.fst).Nodup :=
    ((List.mergeSort_perm _ le).map Prod.fst).nodup_iff.mpr acc.fieldTotalCounts.nodup
  have hstrict := (List.pairwise_map.mp hnodup).and hsorted
  refine List.Pairwise.filterMap acc.reportField ?_ hstrict
  rintro a b ⟨hne, hle⟩ d hd d' hd'
  obtain ⟨divergence, -, rfl⟩ := Option.map_eq_some_iff.mp hd
  obtain ⟨divergence', -, rfl⟩ := Option.map_eq_some_iff.mp hd'
  exact Std.lt_of_le_of_ne (of_decide_eq_true hle) hne

end Reports

section Counts

variable {acc : Congruence} {flats : List (Dict String PyVal × Dict String PyVal)}

/-- The comparisons and the matches so far. -/
def Congruence.counts (acc : Congruence) : ℕ × ℕ :=
  (acc.totalActiveComparisons, acc.totalActiveMatches)

theorem counts_keepExample (k : String) (divergence : Divergence) :
    (acc.keepExample k divergence).counts = acc.counts := by
  rw [Congruence.keepExample]
  split <;> rfl

theorem counts_activeFields (cand : Dict String PyVal) (fields : List (String × PyVal)) :
    (fields.foldl (fun acc field => acc.activeField cand field) acc).counts =
      acc.counts + (fields.length, fields.countP fun (k, v) =>
        match cand.get? k with
        | some w => PyVal.eq v w
        | none => false) := by
  induction fields generalizing acc with
  | nil => rfl
  | cons field fields ih =>
      obtain ⟨k, v⟩ := field
      have hhead : (acc.activeField cand (k, v)).counts = acc.counts + (1,
          if (match cand.get? k with
            | some w => PyVal.eq v w
            | none => false) then 1 else 0) := by
        rw [Congruence.activeField]
        dsimp only
        cases cand.get? k with
        | none =>
            dsimp only
            rw [counts_keepExample]
            rfl
        | some w =>
            dsimp only
            split
            · rfl
            · rw [counts_keepExample]
              rfl
      rw [List.foldl_cons, ih, hhead, List.countP_cons, List.length_cons, add_assoc]
      simp [add_comm]

theorem counts_candidateFields (act : Dict String PyVal) (fields : List (String × PyVal)) :
    (fields.foldl (fun acc field => acc.candidateField act field) acc).counts = acc.counts := by
  induction fields generalizing acc with
  | nil => rfl
  | cons field fields ih =>
      rw [List.foldl_cons, ih, Congruence.candidateField]
      dsimp only
      split
      · rfl
      · split
        · exact counts_keepExample _ _
        · exact counts_keepExample _ _

theorem counts_foldl (flats : List (Dict String PyVal × Dict String PyVal)) :
    (flats.foldl Congruence.pair acc).counts = acc.counts +
      ((flats.map fun p => p.1.entries.length).sum,
        (flats.map fun p => matchedKeys p.1 p.2).sum) := by
  induction flats generalizing acc with
  | nil => rfl
  | cons p flats ih =>
      rw [List.foldl_cons, ih, Congruence.pair, counts_candidateFields, counts_activeFields,
        add_assoc]
      rfl

end Counts

theorem flatPairs_of_isEmpty {active candidate : List Event}
    (h : active.isEmpty = true ∨ candidate.isEmpty = true) :
    flatPairs active candidate = .ok [] := by
  rw [flatPairs_of_views (views_of_isEmpty h)]
  rfl

theorem evaluateFieldDivergences_eq (active candidate : List Event) :
    evaluateFieldDivergences active candidate = (flatPairs active candidate).map fun flats =>
      let acc := flats.foldl Congruence.pair .init
      (roundTo 4 (if 0 < acc.totalActiveComparisons then
        ratio acc.totalActiveMatches acc.totalActiveComparisons else 1), acc.divergences) := by
  rw [evaluateFieldDivergences]
  split
  · rename_i hempty
    rw [flatPairs_of_isEmpty hempty]
    simp [Except.map, Congruence.init, Congruence.divergences, Dict.empty]
  · rfl

theorem exists_flatPairs {active candidate : List Event} {rate : ℚ}
    {divergences : List FieldDivergence}
    (h : evaluateFieldDivergences active candidate = .ok (rate, divergences)) :
    ∃ flats, flatPairs active candidate = .ok flats ∧
      ∀ d, d ∈ divergences ↔ divergenceOf d.field flats = some d := by
  rw [evaluateFieldDivergences_eq, map_eq_ok_iff] at h
  obtain ⟨flats, hflats, heq⟩ := h
  obtain ⟨-, rfl⟩ := Prod.mk.inj heq
  exact ⟨flats, hflats, fun d => mem_divergences_foldl_iff⟩

/-- The divergences of two runs: the rate is that of the comparison, and the report lists, in the
order of their names, exactly the fields on which some pair of events diverges, each with its first
divergence and the rate at which the candidate agrees with the active events that have the field. -/
theorem evaluateFieldDivergences_spec {active candidate : List Event} {rate : ℚ}
    {divergences : List FieldDivergence}
    (h : evaluateFieldDivergences active candidate = .ok (rate, divergences)) :
    evaluateFieldCongruence active candidate = .ok rate ∧
    divergences.Pairwise (fun d d' => d.field < d'.field) ∧
    ∃ flats, flatPairs active candidate = .ok flats ∧
      (∀ d, d ∈ divergences ↔ divergenceOf d.field flats = some d) ∧
      (divergences = [] ↔ ∀ k, ∀ p ∈ flats, divergenceAt k p = none) := by
  rw [evaluateFieldDivergences_eq, map_eq_ok_iff] at h
  obtain ⟨flats, hflats, heq⟩ := h
  obtain ⟨rfl, rfl⟩ := Prod.mk.inj heq
  have hmem (d : FieldDivergence) : d ∈ (flats.foldl Congruence.pair .init).divergences ↔
      divergenceOf d.field flats = some d := mem_divergences_foldl_iff
  refine ⟨?_, pairwise_divergences _, flats, hflats, hmem, ?_⟩
  · have hcounts : (flats.foldl Congruence.pair .init).counts = Congruence.init.counts + _ :=
      counts_foldl flats
    simp only [Congruence.counts, Congruence.init, Prod.mk_add_mk, Prod.mk.injEq,
      Nat.zero_add] at hcounts
    rw [Congruence.init, hcounts.1, hcounts.2, evaluateFieldCongruence]
    split
    · rename_i hempty
      rw [flatPairs_of_isEmpty hempty] at hflats
      cases hflats
      simp
    · rw [hflats]
      rfl
  · rw [List.eq_nil_iff_forall_not_mem]
    constructor
    · intro hnone k
      rw [← List.findSome?_eq_none_iff]
      by_contra hsome
      obtain ⟨divergence, hdivergence⟩ := Option.ne_none_iff_exists'.mp hsome
      have hof : ∃ d, divergenceOf k flats = some d ∧ d.field = k := by
        rw [divergenceOf, hdivergence]
        exact ⟨_, rfl, rfl⟩
      obtain ⟨d, hd, rfl⟩ := hof
      exact hnone d ((hmem d).mpr hd)
    · intro hall d hd
      have hof := (hmem d).mp hd
      rw [divergenceOf, List.findSome?_eq_none_iff.mpr (hall d.field)] at hof
      cases hof

section Example

def portEvent (port : PyVal) (others : List (PyVal × PyVal)) : Event :=
  ⟨Dict.ofList ((.str "dst.port", port) :: others), none⟩

/-- A port that has become a text, and a field that the candidate adds. -/
theorem evaluateFieldDivergences_spec_port :
    ∃ rate divergences, evaluateFieldDivergences [portEvent (PyVal.int 443) []]
        [portEvent (.str "443") [(.str "user.name", .str "root")]] = .ok (rate, divergences) ∧
      divergences.Pairwise (fun d d' => d.field < d'.field) ∧
      ⟨"dst.port", 0, mismatch (PyVal.int 443) (.str "443")⟩ ∈ divergences ∧
      ⟨"user.name", 1, added (.str "root")⟩ ∈ divergences := by
  have hflats : flatPairs [portEvent (PyVal.int 443) []]
      [portEvent (.str "443") [(.str "user.name", .str "root")]] =
      .ok [(Dict.ofList [("dst.port", PyVal.int 443)],
        Dict.ofList [("dst.port", .str "443"), ("user.name", .str "root")])] := by
    decide +kernel
  have h : ∃ rate divergences, evaluateFieldDivergences [portEvent (PyVal.int 443) []]
      [portEvent (.str "443") [(.str "user.name", .str "root")]] = .ok (rate, divergences) := by
    rw [evaluateFieldDivergences_eq, hflats]
    exact ⟨_, _, rfl⟩
  obtain ⟨rate, divergences, h⟩ := h
  obtain ⟨-, hsorted, flats, hflats', hmem, -⟩ := evaluateFieldDivergences_spec h
  rw [hflats] at hflats'
  cases hflats'
  exact ⟨rate, divergences, h, hsorted, (hmem _).mpr (by decide +kernel),
    (hmem _).mpr (by decide +kernel)⟩

end Example

end Ulpf.Shadow
