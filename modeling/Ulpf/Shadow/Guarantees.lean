import Ulpf.Shadow.Scorecard

/-!
What a passed shadow comparison says about the events: whether every index was
compared, whether nothing was lost, and what the retention and detection scores
leave unseen.
-/

namespace Ulpf.Shadow

open Ulpf.Lib
open Ulpf.Lib.Binary64 (fl)
open Ulpf.Python

/-- A comparison that some gate refuses. -/
def Refused (u : Unicode) (active candidate : List Event) (activeLat candLat : List ℚ)
    (isolation : Bool) : Prop :=
  ∀ vs, views active candidate = .ok vs →
    ¬ Clears u active candidate activeLat candLat isolation vs

section Verdict

variable {u : Unicode} {active candidate : List Event} {activeLat candLat : List ℚ}
  {isolation : Bool}

theorem refused_iff : Refused u active candidate activeLat candLat isolation ↔
    ¬ Passes u active candidate activeLat candLat isolation := by
  rw [passes_iff]
  constructor
  · rintro hrefused ⟨vs, hvs, hclears⟩
    exact hrefused vs hvs hclears
  · intro hnot vs hvs hclears
    exact hnot ⟨vs, hvs, hclears⟩

theorem slower_self (latencies : List ℚ) : slower latencies latencies = false := by
  rw [slower, evaluateLatencies_same]
  simp

end Verdict

section Coverage

/-- Every index of both lists has a view, and so entered every metric. -/
def Covered (active candidate : List Event) : Prop :=
  candidate.length = active.length ∧ ∃ vs, views active candidate = .ok vs ∧
    ∀ i < max active.length candidate.length, i < vs.length

/-- A passed comparison has compared every event. -/
def PassedMeansCompared (u : Unicode) (active candidate : List Event)
    (activeLat candLat : List ℚ) (isolation : Bool) : Prop :=
  Passes u active candidate activeLat candLat isolation → Covered active candidate

/-- Nothing but the gates on the common indices keeps lists of different lengths
from passing. -/
theorem passedMeansCompared_iff (u : Unicode) (active candidate : List Event)
    (activeLat candLat : List ℚ) (isolation : Bool) :
    PassedMeansCompared u active candidate activeLat candLat isolation ↔
      candidate.length = active.length ∨
        Refused u active candidate activeLat candLat isolation := by
  constructor
  · intro h
    by_cases hpasses : Passes u active candidate activeLat candLat isolation
    · exact Or.inl (h hpasses).1
    · exact Or.inr (refused_iff.mpr hpasses)
  · rintro (hlength | hrefused) hpasses
    · obtain ⟨vs, hvs, -⟩ := passes_iff.mp hpasses
      refine ⟨hlength, vs, hvs, ?_⟩
      intro i hi
      rw [length_views hvs]
      omega
    · exact absurd hpasses (refused_iff.mp hrefused)

def blockedEvent : Event :=
  ⟨Dict.ofList [(.str "event.action", .str "deny"), (.str "src.ip", .str "10.0.0.1")], none⟩

/-- A candidate without any output passes. -/
theorem not_passedMeansCompared_blocked :
    ¬ PassedMeansCompared Unicode.ascii [blockedEvent] [] [] [] true := by
  intro h
  have hclears : Clears Unicode.ascii [blockedEvent] [] [] [] true [] :=
    { isolated := rfl
      semantics := by decide +kernel
      unknowns := by decide +kernel
      fields := by decide +kernel
      detections := by decide +kernel
      latency := slower_self [] }
  have hlength := (h (passes_iff.mpr ⟨[], rfl, hclears⟩)).1
  cases hlength

end Coverage

section ZeroTolerance

/-- Two values of a critical field mean the same: action and outcome up to case
and surrounding blanks. -/
def SameMeaning (u : Unicode) (field : String) : PyVal → PyVal → Prop
  | .str a, .str c =>
      if field = "event.action" ∨ field = "event.outcome" then
        lower u (strip a) = lower u (strip c)
      else a = c
  | a, c => PyVal.eq a c = true

/-- The candidate view has lost nothing of the active one: no critical field and
no unknown field. -/
structure PairView.Intact (u : Unicode) (v : PairView) : Prop where
  critical : ∀ field ∈ criticalSecurityFields, ∀ a, v.act.get? field = some a → a ≠ .null →
    ∃ c, v.cand.get? field = some c ∧ c ≠ .null ∧ SameMeaning u field a c
  unknowns : ∀ field ∈ v.unknowns, unknownRetained v.candUnknowns v.cand field = true

theorem criticalDiverged_of_some {u : Unicode} {act cand : Dict String PyVal} {field : String}
    {a c : PyVal} (hact : act.get? field = some a) (ha : a ≠ .null)
    (hcand : cand.get? field = some c) (hc : c ≠ .null) :
    criticalDiverged u act cand field = false ↔ SameMeaning u field a c := by
  rw [criticalDiverged, flatGet, flatGet, hact, hcand, Option.getD_some, Option.getD_some]
  cases a <;> cases c <;> simp_all [SameMeaning]

theorem criticalDiverged_eq_false_iff {u : Unicode} {act cand : Dict String PyVal}
    {field : String} :
    criticalDiverged u act cand field = false ↔
      ∀ a, act.get? field = some a → a ≠ .null →
        ∃ c, cand.get? field = some c ∧ c ≠ .null ∧ SameMeaning u field a c := by
  constructor
  · intro h a hact ha
    cases hcand : cand.get? field with
    | none =>
        rw [criticalDiverged, flatGet, flatGet, hact, hcand] at h
        cases a <;> simp_all
    | some c =>
        obtain rfl | hc := eq_or_ne c .null
        · rw [criticalDiverged, flatGet, flatGet, hact, hcand] at h
          cases a <;> simp_all
        · exact ⟨c, rfl, hc, (criticalDiverged_of_some hact ha hcand hc).mp h⟩
  · intro h
    cases hact : act.get? field with
    | none => simp [criticalDiverged, flatGet, hact]
    | some a =>
        obtain rfl | ha := eq_or_ne a .null
        · simp [criticalDiverged, flatGet, hact]
        · obtain ⟨c, hcand, hc, hsame⟩ := h a hact ha
          exact (criticalDiverged_of_some hact ha hcand hc).mpr hsame

theorem intact_iff {u : Unicode} {v : PairView} :
    v.Intact u ↔ v.diverged u = false ∧ v.unknownCounts.2 = v.unknownCounts.1 := by
  have hcritical : v.diverged u = false ↔ ∀ field ∈ criticalSecurityFields,
      ∀ a, v.act.get? field = some a → a ≠ .null →
        ∃ c, v.cand.get? field = some c ∧ c ≠ .null ∧ SameMeaning u field a c := by
    rw [PairView.diverged, eventDiverged, List.any_eq_false]
    apply forall₂_congr
    intro field _
    rw [Bool.not_eq_true, criticalDiverged_eq_false_iff]
  have hunknowns : v.unknownCounts.2 = v.unknownCounts.1 ↔
      ∀ field ∈ v.unknowns, unknownRetained v.candUnknowns v.cand field = true :=
    List.countP_eq_length
  rw [hcritical, hunknowns]
  constructor
  · intro h
    exact ⟨h.critical, h.unknowns⟩
  · intro h
    exact ⟨h.1, h.2⟩

/-- A passed comparison has lost nothing at any index. -/
def ZeroTolerance (u : Unicode) (active candidate : List Event) (activeLat candLat : List ℚ)
    (isolation : Bool) : Prop :=
  Passes u active candidate activeLat candLat isolation →
    ∀ vs, views active candidate = .ok vs →
      ∀ (i : ℕ) (v : PairView), vs[i]? = some v → v.Intact u

theorem tally_eq_iff {α : Type} {counts : α → ℕ × ℕ} (h : ∀ x, (counts x).2 ≤ (counts x).1)
    (xs : List α) :
    (tally counts xs).2 = (tally counts xs).1 ↔ ∀ x ∈ xs, (counts x).2 = (counts x).1 := by
  induction xs with
  | nil => simp [tally]
  | cons x xs ih =>
      have hx := h x
      have hxs := tally_le fun y (_ : y ∈ xs) => h y
      rw [List.forall_mem_cons, ← ih]
      simp only [tally, List.map_cons, List.sum_cons] at hxs ⊢
      omega

theorem forall_intact_iff {u : Unicode} {vs : List PairView} :
    (∀ (i : ℕ) (v : PairView), vs[i]? = some v → v.Intact u) ↔
      vs.countP (PairView.diverged u) = 0 ∧
        (tally PairView.unknownCounts vs).2 = (tally PairView.unknownCounts vs).1 := by
  rw [tally_eq_iff unknownCounts_le, List.countP_eq_zero]
  constructor
  · intro h
    have hmem : ∀ v ∈ vs, v.Intact u := by
      intro v hv
      obtain ⟨i, hi⟩ := List.mem_iff_getElem?.mp hv
      exact h i v hi
    constructor
    · intro v hv
      rw [(intact_iff.mp (hmem v hv)).1]
      exact Bool.false_ne_true
    · intro v hv
      exact (intact_iff.mp (hmem v hv)).2
  · rintro ⟨hdiverged, hunknowns⟩ i v hi
    have hv := List.mem_of_getElem? hi
    exact intact_iff.mpr ⟨Bool.eq_false_iff.mpr (hdiverged v hv), hunknowns v hv⟩

/-- Nothing is lost unseen exactly when nothing is lost at all or some gate
refuses; the gates see a loss only in their rounded shares. -/
theorem zeroTolerance_iff (u : Unicode) (active candidate : List Event)
    (activeLat candLat : List ℚ) (isolation : Bool) :
    ZeroTolerance u active candidate activeLat candLat isolation ↔
      (∀ vs, views active candidate = .ok vs → vs.countP (PairView.diverged u) = 0 ∧
        (tally PairView.unknownCounts vs).2 = (tally PairView.unknownCounts vs).1) ∨
      Refused u active candidate activeLat candLat isolation := by
  constructor
  · intro h
    by_cases hpasses : Passes u active candidate activeLat candLat isolation
    · apply Or.inl
      intro vs hvs
      exact forall_intact_iff.mp (h hpasses vs hvs)
    · exact Or.inr (refused_iff.mpr hpasses)
  · rintro (hnone | hrefused) hpasses
    · intro vs hvs
      exact forall_intact_iff.mpr (hnone vs hvs)
    · exact absurd hpasses (refused_iff.mp hrefused)

theorem ratio_error {m n : ℕ} (h : m ≤ n) : |ratio m n - (m : ℚ) / n| ≤ 1 / 2 ^ 53 :=
  Binary64.abs_fl_ratio_sub_le h

theorem lt_ratio_of_pos {m n : ℕ} (hm : 0 < m) (hle : m ≤ n) (hn : n < 20000) :
    1 / 20000 < ratio m n :=
  Binary64.lt_fl_ratio_of_pos hm hle hn

theorem ratio_lt_of_lt {m n : ℕ} (hlt : m < n) (hn : n < 20000) :
    ratio m n < 19999 / 20000 := by
  have herr := (abs_le.mp (ratio_error hlt.le)).2
  have hn' : (0 : ℚ) < n := by
    have : 0 < n := by omega
    exact_mod_cast this
  have hone : (m : ℚ) / n ≤ 19998 / 19999 := by
    rw [div_le_div_iff₀ hn' (by norm_num)]
    have hm' : (m : ℚ) + 1 ≤ n := by exact_mod_cast hlt
    have hn'' : (n : ℚ) ≤ 19999 := by
      have : n ≤ 19999 := by omega
      exact_mod_cast this
    linarith
  norm_num at herr hone ⊢
  linarith

theorem zeroTolerance_of_small {u : Unicode} {active candidate : List Event}
    {activeLat candLat : List ℚ} {isolation : Bool}
    (hsmall : ∀ vs, views active candidate = .ok vs →
      vs.length < 20000 ∧ (tally PairView.unknownCounts vs).1 < 20000) :
    ZeroTolerance u active candidate activeLat candLat isolation := by
  intro hpasses vs hvs
  obtain ⟨hlength, htotal⟩ := hsmall vs hvs
  obtain ⟨vs', hvs', hclears⟩ := passes_iff.mp hpasses
  rw [hvs] at hvs'
  cases hvs'
  rw [forall_intact_iff]
  constructor
  · by_contra hne
    have hseen := lt_ratio_of_pos (Nat.pos_of_ne_zero hne) List.countP_le_length hlength
    exact absurd hclears.semantics (not_le.mpr hseen)
  · apply le_antisymm (unknownCounts_tally_le vs)
    by_contra hlt
    rw [not_le] at hlt
    have hseen := ratio_lt_of_lt hlt htotal
    have hshare := hclears.unknowns
    rw [share, if_pos (by omega)] at hshare
    exact absurd hshare (not_le.mpr hseen)

section Rare

def actionEvent (action : String) : Event :=
  ⟨Dict.ofList [(.str "event.action", .str action)], none⟩

def actionView (act cand : String) : PairView :=
  ⟨Dict.ofList [("event.action", .str act)], Dict.ofList [("event.action", .str cand)], [], some []⟩

def rareActive (n : ℕ) : List Event :=
  List.replicate n (actionEvent "allow") ++ [actionEvent "allow"]

def rareCandidate (n : ℕ) : List Event :=
  List.replicate n (actionEvent "allow") ++ [actionEvent "accept"]

def rareViews (n : ℕ) : List PairView :=
  List.replicate n (actionView "allow" "allow") ++ [actionView "allow" "accept"]

theorem views_rare (n : ℕ) : views (rareActive n) (rareCandidate n) = .ok (rareViews n) := by
  have hsame : viewPair (actionEvent "allow", actionEvent "allow") =
      .ok (actionView "allow" "allow") := rfl
  have hother : viewPair (actionEvent "allow", actionEvent "accept") =
      .ok (actionView "allow" "accept") := rfl
  rw [views, rareActive, rareCandidate, List.zip_append (by simp), List.zip_replicate']
  exact mapM_append_of_ok (mapM_replicate hsame n) (mapM_replicate hother 1)

theorem diverged_rare (n : ℕ) :
    (rareViews n).countP (PairView.diverged Unicode.ascii) = 1 := by
  have hsame : (actionView "allow" "allow").diverged Unicode.ascii = false := by decide +kernel
  have hother : (actionView "allow" "accept").diverged Unicode.ascii = true := by decide +kernel
  simp [rareViews, List.countP_replicate, hsame, hother]

theorem fieldCounts_rare (n : ℕ) : tally PairView.fieldCounts (rareViews n) = (n + 1, n) := by
  have hsame : PairView.fieldCounts (actionView "allow" "allow") = (1, 1) := by decide +kernel
  have hother : PairView.fieldCounts (actionView "allow" "accept") = (1, 0) := by decide +kernel
  simp [tally, rareViews, hsame, hother]

example : tally PairView.fieldCounts (rareViews 3) = (4, 3) := by decide +kernel

theorem unknownCounts_rare (n : ℕ) : tally PairView.unknownCounts (rareViews n) = (0, 0) := by
  simp [tally, rareViews, PairView.unknownCounts, actionView]

theorem calcDps_quiet {events : List Event} {u : Unicode}
    (h : ∀ ev ∈ events, isSecurityEvent u ev = false) : calcDps u events = 1 := by
  have hnone : events.countP (isSecurityEvent u) = 0 := by
    rw [List.countP_eq_zero]
    intro ev hev
    rw [h ev hev]
    exact Bool.false_ne_true
  simp [calcDps, hnone]

theorem calcDps_rare (n : ℕ) : calcDps Unicode.ascii (rareActive n) = 1 ∧
    calcDps Unicode.ascii (rareCandidate n) = 1 := by
  have hallow : isSecurityEvent Unicode.ascii (actionEvent "allow") = false := by decide +kernel
  have haccept : isSecurityEvent Unicode.ascii (actionEvent "accept") = false := by
    decide +kernel
  constructor
  · apply calcDps_quiet
    intro ev hev
    obtain hmem | hmem := List.mem_append.mp hev
    · rw [(List.mem_replicate.mp hmem).2, hallow]
    · rw [List.mem_singleton.mp hmem, hallow]
  · apply calcDps_quiet
    intro ev hev
    obtain hmem | hmem := List.mem_append.mp hev
    · rw [(List.mem_replicate.mp hmem).2, hallow]
    · rw [List.mem_singleton.mp hmem, haccept]

theorem clears_rare :
    Clears Unicode.ascii (rareActive 20000) (rareCandidate 20000) [] [] true (rareViews 20000) where
  isolated := rfl
  semantics := by
    have hlength : (rareViews 20000).length = 20001 := by
      rw [rareViews, List.length_append, List.length_replicate, List.length_singleton]
    rw [diverged_rare, hlength]
    decide +kernel
  unknowns := by
    rw [unknownCounts_rare]
    decide +kernel
  fields := by
    rw [fieldCounts_rare]
    decide +kernel
  detections := by
    obtain ⟨hactive, hcandidate⟩ := calcDps_rare 20000
    rw [hactive, hcandidate]
  latency := slower_self []

/-- One changed action in twenty thousand and one events passes. -/
theorem not_zeroTolerance_rare :
    (rareActive 20000).length = (rareCandidate 20000).length ∧
      ¬ ZeroTolerance Unicode.ascii (rareActive 20000) (rareCandidate 20000) [] [] true := by
  constructor
  · rw [rareActive, rareCandidate, List.length_append, List.length_append, List.length_singleton,
      List.length_singleton]
  · intro h
    have hviews := views_rare 20000
    have hnone := (forall_intact_iff.mp
      (h (passes_iff.mpr ⟨_, hviews, clears_rare⟩) _ hviews)).1
    rw [diverged_rare] at hnone
    cases hnone

end Rare

end ZeroTolerance

section Retention

/-- `_evaluate_unknown_retention` before it rounds. -/
def unroundedRetention (active candidate : List Event) : Except PyError ℚ :=
  ((active.zip candidate).mapM fun pair => retentionCounts pair.1 pair.2).map fun counts =>
    share (tally id counts)

theorem evaluateUnknownRetention_eq (active candidate : List Event) :
    evaluateUnknownRetention active candidate =
      (unroundedRetention active candidate).map (Binary64.roundTo 4) := by
  rw [evaluateUnknownRetention, unroundedRetention]
  split
  · rename_i hempty
    have hzip : active.zip candidate = [] := by
      obtain h | h := hempty
      · rw [List.isEmpty_iff.mp h, List.zip_nil_left]
      · rw [List.isEmpty_iff.mp h, List.zip_nil_right]
    rw [hzip, List.mapM_nil]
    simp [Except.map, pure, Except.pure, share, tally]
  · cases (active.zip candidate).mapM fun pair => retentionCounts pair.1 pair.2 with
    | error err => rfl
    | ok counts =>
        simp only [ok_bind, Except.map, share, tally, id, Nat.pos_iff_ne_zero, ite_not]
        split
        · rw [Binary64.roundTo_one]
          rfl
        · rfl

/-- An event carries an unknown field with its value, under its key or as the
value of a mapped field. -/
def Carries (ev : Event) (field : PyVal × PyVal) : Prop :=
  (∃ entry ∈ ev.unknowns?.getD [], PyVal.eq entry.1 field.1 = true ∧
      PyVal.eq entry.2 field.2 = true) ∨
    ∃ flat, flattenEvent ev = .ok flat ∧
      ∃ entry ∈ flat.entries, PyVal.eq entry.2 field.2 = true

/-- Every unknown field of an active event is carried by the candidate event of
the same index. -/
def CarriesAll (active candidate : List Event) : Prop :=
  ∀ (i : ℕ) (act : Event), active[i]? = some act → ∀ field ∈ act.unknowns?.getD [],
    ∃ cand, candidate[i]? = some cand ∧ Carries cand field

/-- A full retention means that every unknown field is carried with its value. -/
def FaithfulRetention (active candidate : List Event) : Prop :=
  unroundedRetention active candidate = .ok 1 → CarriesAll active candidate

theorem share_eq_one_iff {counts : ℕ × ℕ} (h : counts.2 ≤ counts.1) :
    share counts = 1 ↔ 2 ^ 54 * (counts.1 - counts.2) ≤ counts.1 := by
  obtain ⟨total, part⟩ := counts
  simp only at h ⊢
  rw [share]
  split
  · rename_i hpos
    have hpos' : (0 : ℚ) < total := by exact_mod_cast hpos
    have hle : (part : ℚ) ≤ total := by exact_mod_cast h
    rw [ratio, Binary64.fl_eq_one_iff (by positivity) (div_le_one_of_le₀ hle hpos'.le),
      le_div_iff₀ hpos', ← Nat.cast_le (α := ℚ)]
    push_cast [h]
    constructor
    · intro h'
      linarith
    · intro h'
      linarith
  · rename_i hzero
    simp only at hzero
    simp only [true_iff]
    omega

/-- The unknown fields of the active events, each with the candidate event of its index. -/
def comparedFields (pairs : List (Event × Event)) : List (Event × PyVal × PyVal) :=
  pairs.flatMap fun pair => (pair.1.unknowns?.getD []).map fun field => (pair.2, field)

section Fields

variable (p : Event × PyVal × PyVal)

/-- The key is among the unknown fields of the candidate event. -/
def keepsKey : Bool := (p.1.unknowns?.getD []).any fun entry => PyVal.eq entry.1 p.2.1

/-- The key is there with an equal value. -/
def keepsEntry : Bool :=
  (p.1.unknowns?.getD []).any fun entry => PyVal.eq entry.1 p.2.1 && PyVal.eq entry.2 p.2.2

/-- A mapped field of the candidate event has the value. -/
def mapsValue : Bool :=
  (flattenEvent p.1).toOption.any fun flat =>
    flat.entries.any fun entry => PyVal.eq entry.2 p.2.2

/-- Neither the key nor the value is there. -/
def lost : Bool := !keepsKey p && !mapsValue p

/-- The key is there, with another value, and no mapped field has the value. -/
def altered : Bool := keepsKey p && !keepsEntry p && !mapsValue p

variable {p}

theorem keepsKey_of_keepsEntry (h : keepsEntry p = true) : keepsKey p = true := by
  rw [keepsEntry, List.any_eq_true] at h
  obtain ⟨entry, hentry, heq⟩ := h
  rw [Bool.and_eq_true] at heq
  exact List.any_eq_true.mpr ⟨entry, hentry, heq.1⟩

theorem carries_iff : Carries p.1 p.2 ↔ keepsEntry p = true ∨ mapsValue p = true := by
  apply or_congr
  · simp only [keepsEntry, List.any_eq_true, Bool.and_eq_true]
  · rw [mapsValue]
    cases flattenEvent p.1 with
    | error err => simp [Except.toOption]
    | ok flat => simp [Except.toOption]

theorem carries_iff_not_altered : Carries p.1 p.2 ↔ lost p = false ∧ altered p = false := by
  have hkey := keepsKey_of_keepsEntry (p := p)
  rw [carries_iff, lost, altered]
  revert hkey
  cases keepsKey p <;> cases keepsEntry p <;> cases mapsValue p <;> decide

theorem unknownRetained_eq {flat : Dict String PyVal} (h : flattenEvent p.1 = .ok flat) :
    unknownRetained p.1.unknowns? flat p.2 = !lost p := by
  rw [lost, mapsValue, h, Bool.not_and, Bool.not_not, Bool.not_not]
  rfl

end Fields

theorem tally_retentionCounts {pairs : List (Event × Event)} {counts : List (ℕ × ℕ)}
    (h : (pairs.mapM fun pair => retentionCounts pair.1 pair.2) = .ok counts) :
    (tally id counts).1 = (comparedFields pairs).length ∧
      (tally id counts).2 + (comparedFields pairs).countP lost = (comparedFields pairs).length := by
  induction pairs generalizing counts with
  | nil =>
      cases h
      exact ⟨rfl, rfl⟩
  | cons pair pairs ih =>
      rw [List.mapM_cons] at h
      obtain ⟨count, hcount, h⟩ := bind_eq_ok_iff.mp h
      obtain ⟨rest, hrest, h⟩ := bind_eq_ok_iff.mp h
      cases h
      obtain ⟨flat, hflat, hcount⟩ := bind_eq_ok_iff.mp hcount
      cases hcount
      obtain ⟨htotal, hretained⟩ := ih hrest
      have hpair := List.length_eq_countP_add_countP (l := pair.1.unknowns?.getD [])
        (unknownRetained pair.2.unknowns? flat)
      have hlost : (((pair.1.unknowns?.getD []).map fun field => (pair.2, field)).countP lost) =
          (pair.1.unknowns?.getD []).countP
            fun field => ¬ unknownRetained pair.2.unknowns? flat field := by
        rw [List.countP_map]
        apply List.countP_congr
        intro field _
        rw [Function.comp_apply, unknownRetained_eq (p := (pair.2, field)) hflat]
        simp
      rw [comparedFields, List.flatMap_cons, ← comparedFields, List.length_append,
        List.length_map, List.countP_append, hlost]
      simp only [tally, id, List.map_cons, List.sum_cons] at htotal hretained ⊢
      omega

theorem carriesAll_iff {active candidate : List Event} : CarriesAll active candidate ↔
    (∀ p ∈ comparedFields (active.zip candidate), Carries p.1 p.2) ∧
      ∀ act ∈ active.drop candidate.length, act.unknowns?.getD [] = [] := by
  constructor
  · intro h
    constructor
    · intro p hp
      obtain ⟨pair, hpair, hp⟩ := List.mem_flatMap.mp hp
      obtain ⟨field, hfield, rfl⟩ := List.mem_map.mp hp
      obtain ⟨i, hi⟩ := List.mem_iff_getElem?.mp hpair
      obtain ⟨hact, hcand⟩ := List.getElem?_zip_eq_some.mp hi
      obtain ⟨cand, hcand', hcarries⟩ := h i pair.1 hact field hfield
      rw [hcand] at hcand'
      cases hcand'
      exact hcarries
    · intro act hact
      obtain ⟨i, hi⟩ := List.mem_iff_getElem?.mp hact
      rw [List.getElem?_drop] at hi
      apply List.eq_nil_iff_forall_not_mem.mpr
      intro field hfield
      obtain ⟨cand, hcand, -⟩ := h _ act hi field hfield
      rw [List.getElem?_eq_none (by omega)] at hcand
      cases hcand
  · rintro ⟨hcompared, hbeyond⟩ i act hact field hfield
    cases hcand : candidate[i]? with
    | some cand =>
        refine ⟨cand, rfl, hcompared (cand, field) ?_⟩
        have hpair : (act, cand) ∈ active.zip candidate :=
          List.mem_of_getElem? (List.getElem?_zip_eq_some.mpr ⟨hact, hcand⟩)
        exact List.mem_flatMap.mpr ⟨_, hpair, List.mem_map_of_mem hfield⟩
    | none =>
        have hlength : candidate.length ≤ i := List.getElem?_eq_none_iff.mp hcand
        have hmem : act ∈ active.drop candidate.length := by
          apply List.mem_of_getElem? (i := i - candidate.length)
          rw [List.getElem?_drop, Nat.add_sub_cancel' hlength, hact]
        rw [hbeyond act hmem] at hfield
        cases hfield

/-- The retention is full when every compared candidate event flattens and, of the compared fields,
at most one in `2 ^ 54` is lost. -/
theorem unroundedRetention_eq_one_iff {active candidate : List Event} :
    unroundedRetention active candidate = .ok 1 ↔
      (∀ pair ∈ active.zip candidate, Returns (flattenEvent pair.2)) ∧
        2 ^ 54 * (comparedFields (active.zip candidate)).countP lost ≤
          (comparedFields (active.zip candidate)).length := by
  have hreturns : Returns ((active.zip candidate).mapM fun pair => retentionCounts pair.1 pair.2) ↔
      ∀ pair ∈ active.zip candidate, Returns (flattenEvent pair.2) := by
    rw [returns_mapM_iff]
    apply forall₂_congr
    intro pair _
    rw [retentionCounts, returns_bind_of_total fun _ => returns_pure _]
  rw [unroundedRetention, map_eq_ok_iff, ← hreturns]
  constructor
  · rintro ⟨counts, hcounts, hshare⟩
    obtain ⟨htotal, hretained⟩ := tally_retentionCounts hcounts
    rw [share_eq_one_iff (by omega)] at hshare
    refine ⟨⟨counts, hcounts⟩, ?_⟩
    omega
  · rintro ⟨⟨counts, hcounts⟩, hfew⟩
    obtain ⟨htotal, hretained⟩ := tally_retentionCounts hcounts
    refine ⟨counts, hcounts, (share_eq_one_iff (by omega)).mpr ?_⟩
    omega

/-- Full retention is faithful exactly when a candidate event stops the comparison, so many fields
are lost that the float share is below one, or no field is lost and every field whose key is kept
has its value, there or in a mapped field. -/
theorem faithfulRetention_iff (active candidate : List Event) :
    FaithfulRetention active candidate ↔
      (∃ pair ∈ active.zip candidate, ¬ Returns (flattenEvent pair.2)) ∨
        (comparedFields (active.zip candidate)).length <
          2 ^ 54 * (comparedFields (active.zip candidate)).countP lost ∨
        ((∀ p ∈ comparedFields (active.zip candidate), lost p = false ∧ altered p = false) ∧
          ∀ act ∈ active.drop candidate.length, act.unknowns?.getD [] = []) := by
  rw [FaithfulRetention, unroundedRetention_eq_one_iff, carriesAll_iff]
  simp only [carries_iff_not_altered]
  constructor
  · intro h
    by_cases hflat : ∀ pair ∈ active.zip candidate, Returns (flattenEvent pair.2)
    · apply Or.inr
      rcases lt_or_ge (comparedFields (active.zip candidate)).length
        (2 ^ 54 * (comparedFields (active.zip candidate)).countP lost) with hmany | hfew
      · exact Or.inl hmany
      · exact Or.inr (h ⟨hflat, hfew⟩)
    · simp only [not_forall, exists_prop] at hflat
      exact Or.inl hflat
  · rintro (⟨pair, hpair, hstops⟩ | hmany | hfaithful) ⟨hflat, hfew⟩
    · exact absurd (hflat pair hpair) hstops
    · exact absurd hfew (not_le.mpr hmany)
    · exact hfaithful

def userEvent (user : String) : Event := ⟨Dict.empty, some [(.str "user", .str user)]⟩

/-- A candidate that alters the value of an unknown field retains it. -/
theorem not_faithfulRetention_user :
    ¬ FaithfulRetention [userEvent "alice"] [userEvent "mallory"] := by
  intro h
  obtain ⟨cand, hcand, hcarries⟩ := h (by decide +kernel) 0 (userEvent "alice") rfl
    (.str "user", .str "alice") (by decide)
  cases hcand
  obtain ⟨entry, hentry, -, hvalue⟩ | ⟨flat, hflat, entry, hentry, -⟩ := hcarries
  · rw [List.mem_singleton.mp hentry] at hvalue
    revert hvalue
    decide +kernel
  · cases hflat
    cases hentry

end Retention

section Detections

/-- A block the active parser reports and the candidate does not. -/
def LosesBlock (u : Unicode) (active candidate : List Event) : Prop :=
  ∃ (i : ℕ) (act cand : Event), active[i]? = some act ∧ candidate[i]? = some cand ∧
    isPreserved u act = true ∧ isPreserved u cand = false

/-- Every block of the candidate is one of the active parser. -/
def GainsNoBlock (u : Unicode) (active candidate : List Event) : Prop :=
  ∀ (i : ℕ) (act cand : Event), active[i]? = some act → candidate[i]? = some cand →
    isPreserved u cand = true → isPreserved u act = true

/-- A lost block lowers the reported score and keeps the candidate from passing. -/
def DetectsLoss (u : Unicode) (active candidate : List Event) (activeLat candLat : List ℚ)
    (isolation : Bool) : Prop :=
  active.length = candidate.length → LosesBlock u active candidate →
    GainsNoBlock u active candidate →
      (evaluateDpsComparison u active candidate).2.2 < 0 ∧
        ¬ Passes u active candidate activeLat candLat isolation

/-- How many blocks of the active parser the candidate does not preserve. -/
def lostBlocks (u : Unicode) (active candidate : List Event) : ℕ :=
  (active.zip candidate).countP fun pair => isPreserved u pair.1 && !isPreserved u pair.2

/-- Between the ten-thousandths below a score and the score. -/
def edge (score : ℤ) : ℚ := (2 * score - 1) / 20000

/-- The events that the candidate still classifies, enough for the loss of some of the preserved
blocks of the active parser to show in four places. -/
def Enough (preserved expected lost classified : ℕ) : Prop :=
  0 < classified ∧
    (ratio (preserved - lost) classified < edge (tenThousandths (ratio preserved expected)) ∨
      ratio (preserved - lost) classified = edge (tenThousandths (ratio preserved expected)) ∧
        tenThousandths (ratio preserved expected) % 2 = 1)

theorem losesBlock_iff {u : Unicode} {active candidate : List Event} :
    LosesBlock u active candidate ↔ 0 < lostBlocks u active candidate := by
  rw [lostBlocks, List.countP_pos_iff]
  constructor
  · rintro ⟨i, act, cand, hact, hcand, hkept, hgone⟩
    refine ⟨(act, cand), List.mem_of_getElem? (List.getElem?_zip_eq_some.mpr ⟨hact, hcand⟩), ?_⟩
    rw [hkept, hgone]
    rfl
  · rintro ⟨pair, hpair, hloses⟩
    obtain ⟨i, hi⟩ := List.mem_iff_getElem?.mp hpair
    obtain ⟨hact, hcand⟩ := List.getElem?_zip_eq_some.mp hi
    rw [Bool.and_eq_true, Bool.not_eq_true'] at hloses
    exact ⟨i, pair.1, pair.2, hact, hcand, hloses.1, hloses.2⟩

/-- A candidate without blocks of its own preserves the blocks of the active parser that it does not
lose. -/
theorem countP_isPreserved_add_lostBlocks {u : Unicode} {active candidate : List Event}
    (hlength : active.length = candidate.length) (hgains : GainsNoBlock u active candidate) :
    candidate.countP (isPreserved u) + lostBlocks u active candidate =
      active.countP (isPreserved u) := by
  induction active generalizing candidate with
  | nil =>
      rw [List.length_eq_zero_iff.mp hlength.symm]
      rfl
  | cons act active ih =>
      cases candidate with
      | nil => cases hlength
      | cons cand candidate =>
          have hhead : isPreserved u cand = true → isPreserved u act = true :=
            hgains 0 act cand rfl rfl
          have hrest := ih (Nat.succ.inj hlength) fun i act' cand' hact hcand =>
            hgains (i + 1) act' cand' hact hcand
          rw [lostBlocks] at hrest ⊢
          rw [List.zip_cons_cons]
          simp only [List.countP_cons]
          cases hact : isPreserved u act <;> cases hcand : isPreserved u cand <;> simp_all <;> omega

theorem tenThousandths_lt_iff {q : ℚ} {score : ℤ} :
    tenThousandths q < score ↔ q < edge score ∨ q = edge score ∧ score % 2 = 1 := by
  have hscale : (q * (10 ^ 4 : ℕ) < score - 1 / 2 ↔ q < edge score) ∧
      (q * (10 ^ 4 : ℕ) = score - 1 / 2 ↔ q = edge score) := by
    rw [edge, lt_div_iff₀ (by norm_num), eq_div_iff (by norm_num)]
    push_cast
    constructor <;> constructor <;> intro h <;> linarith
  rw [tenThousandths, ← not_le, ← hscale.1, ← hscale.2]
  obtain heven | hodd := Int.emod_two_eq_zero_or_one score
  · rw [Binary64.le_roundHalfEven_iff_of_even heven, not_le]
    simp [heven]
  · rw [Binary64.le_roundHalfEven_iff_of_odd hodd, not_lt, le_iff_lt_or_eq]
    simp [hodd]

theorem dps_falls_iff {u : Unicode} {active candidate : List Event}
    (hlength : active.length = candidate.length) (hgains : GainsNoBlock u active candidate)
    (hloses : 0 < lostBlocks u active candidate) :
    tenThousandths (calcDps u candidate) < tenThousandths (calcDps u active) ↔
      Enough (active.countP (isPreserved u)) (active.countP (isSecurityEvent u))
        (lostBlocks u active candidate) (candidate.countP (isSecurityEvent u)) := by
  have hcount := countP_isPreserved_add_lostBlocks hlength hgains
  have hexpected := isPreserved_le u active
  have hactive : calcDps u active =
      ratio (active.countP (isPreserved u)) (active.countP (isSecurityEvent u)) :=
    if_pos (by omega)
  have hpreserved : active.countP (isPreserved u) - lostBlocks u active candidate =
      candidate.countP (isPreserved u) := by omega
  rw [Enough, ← tenThousandths_lt_iff, hpreserved, ← hactive]
  rcases Nat.eq_zero_or_pos (candidate.countP (isSecurityEvent u)) with hnone | hsome
  · have hbounds := tenThousandths_bounds (calcDps_nonneg u active) (abs_calcDps_le u active)
    have hone : tenThousandths 1 = 10000 := by decide +kernel
    have hperfect : calcDps u candidate = 1 := if_neg (by omega)
    rw [hperfect, hone, hnone]
    simp only [lt_irrefl, false_and, iff_false, not_lt]
    exact hbounds.2
  · have hcandidate : calcDps u candidate =
        ratio (candidate.countP (isPreserved u)) (candidate.countP (isSecurityEvent u)) :=
      if_pos hsome
    rw [hcandidate, and_iff_right hsome]

/-- A lost block is detected exactly when the candidate still classifies enough events as security
events: its score is a share of those, and not of the events of the active parser. -/
theorem detectsLoss_iff (u : Unicode) (active candidate : List Event)
    (activeLat candLat : List ℚ) (isolation : Bool) :
    DetectsLoss u active candidate activeLat candLat isolation ↔
      active.length ≠ candidate.length ∨ lostBlocks u active candidate = 0 ∨
        ¬ GainsNoBlock u active candidate ∨
        Enough (active.countP (isPreserved u)) (active.countP (isSecurityEvent u))
          (lostBlocks u active candidate) (candidate.countP (isSecurityEvent u)) := by
  have hdelta := dpsDelta_neg_iff u active candidate
  have hblocked : (evaluateDpsComparison u active candidate).2.2 < 0 →
      ¬ Passes u active candidate activeLat candLat isolation := by
    intro hneg hpasses
    obtain ⟨vs, -, hclears⟩ := passes_iff.mp hpasses
    exact absurd hclears.detections (not_le.mpr (hdelta.mp hneg))
  rw [DetectsLoss, losesBlock_iff]
  constructor
  · intro h
    by_cases hlength : active.length = candidate.length
    · rcases Nat.eq_zero_or_pos (lostBlocks u active candidate) with hnone | hloses
      · exact Or.inr (Or.inl hnone)
      · by_cases hgains : GainsNoBlock u active candidate
        · have hfalls := hdelta.mp (h hlength hloses hgains).1
          exact Or.inr (Or.inr (Or.inr ((dps_falls_iff hlength hgains hloses).mp hfalls)))
        · exact Or.inr (Or.inr (Or.inl hgains))
    · exact Or.inl hlength
  · rintro (hne | hnone | hgained | henough) hlength hloses hgains
    · exact absurd hlength hne
    · omega
    · exact absurd hgains hgained
    · have hneg := hdelta.mpr ((dps_falls_iff hlength hgains hloses).mpr henough)
      exact ⟨hneg, hblocked hneg⟩

/-- A quotient of few counts is so far from an edge that is not its own that the float of the
quotient is on the same side. -/
theorem ratio_lt_edge {kept classified : ℕ} (hpos : 0 < classified)
    (hsmall : classified ≤ 2 ^ 38) (hle : kept ≤ classified) (score : ℤ) :
    ((kept : ℚ) / classified < edge score → ratio kept classified < edge score) ∧
      (edge score < (kept : ℚ) / classified → edge score < ratio kept classified) := by
  have herr := abs_le.mp (ratio_error hle)
  have hclassified : (0 : ℚ) < classified := by exact_mod_cast hpos
  have hgap : (1 : ℚ) / 2 ^ 53 < 1 / (20000 * classified) := by
    rw [div_lt_div_iff₀ (by norm_num) (by positivity)]
    have hcast : (classified : ℚ) ≤ 2 ^ 38 := by exact_mod_cast hsmall
    linarith
  have hkept : (kept : ℚ) / classified = 20000 * kept / (20000 * classified) := by
    field_simp
  have hedge : edge score = (2 * score - 1) * classified / (20000 * classified) := by
    rw [edge]
    field_simp
  constructor
  · intro hlt
    have hnum : 20000 * (kept : ℤ) + 1 ≤ (2 * score - 1) * classified := by
      rw [hkept, hedge, div_lt_div_iff_of_pos_right (by positivity)] at hlt
      exact_mod_cast hlt
    have hnum' : 20000 * (kept : ℚ) + 1 ≤ (2 * score - 1) * classified := by exact_mod_cast hnum
    have hstep : (kept : ℚ) / classified + 1 / (20000 * classified) ≤ edge score := by
      rw [hkept, hedge, ← add_div]
      exact div_le_div_of_nonneg_right hnum' (by positivity)
    linarith [herr.2]
  · intro hlt
    have hnum : (2 * score - 1) * classified + 1 ≤ 20000 * (kept : ℤ) := by
      rw [hkept, hedge, div_lt_div_iff_of_pos_right (by positivity)] at hlt
      exact_mod_cast hlt
    have hnum' : (2 * score - 1) * classified + 1 ≤ 20000 * (kept : ℚ) := by exact_mod_cast hnum
    have hstep : edge score + 1 / (20000 * classified) ≤ (kept : ℚ) / classified := by
      rw [hkept, hedge, ← add_div]
      exact div_le_div_of_nonneg_right hnum' (by positivity)
    linarith [herr.1]

/-- Up to 2 ^ 38 classified events, the kept blocks must be less than the edge's share of them. Only
a share that is on the edge is decided by the float of the edge. -/
theorem enough_iff_of_le {preserved expected lost classified : ℕ}
    (hsmall : classified ≤ 2 ^ 38) (hle : preserved - lost ≤ classified) :
    Enough preserved expected lost classified ↔
      0 < classified ∧
        ((preserved - lost : ℕ) / (classified : ℚ) <
            edge (tenThousandths (ratio preserved expected)) ∨
          (preserved - lost : ℕ) / (classified : ℚ) =
            edge (tenThousandths (ratio preserved expected)) ∧
          tenThousandths (fl (edge (tenThousandths (ratio preserved expected)))) <
            tenThousandths (ratio preserved expected)) := by
  rw [Enough]
  generalize tenThousandths (ratio preserved expected) = score
  generalize preserved - lost = kept at hle ⊢
  apply and_congr_right
  intro hpos
  obtain ⟨hbelow, habove⟩ := ratio_lt_edge hpos hsmall hle score
  rw [← tenThousandths_lt_iff]
  rcases lt_trichotomy ((kept : ℚ) / classified) (edge score) with hlt | heq | hgt
  · exact iff_of_true (tenThousandths_lt_iff.mpr (Or.inl (hbelow hlt))) (Or.inl hlt)
  · rw [ratio, heq]
    simp
  · refine iff_of_false ?_ ?_
    · rw [tenThousandths_lt_iff]
      rintro (hlt | ⟨heq, -⟩)
      · exact absurd hlt (habove hgt).le.not_gt
      · exact absurd heq (habove hgt).ne'
    · rintro (hlt | ⟨heq, -⟩)
      · exact absurd hlt hgt.le.not_gt
      · exact absurd heq hgt.ne'

theorem not_enough_sub {preserved expected : ℕ} (h : preserved ≤ expected) (lost : ℕ) :
    ¬ Enough preserved expected lost (preserved - lost) := by
  rintro ⟨hpos, hless⟩
  rw [← tenThousandths_lt_iff, ratio_self (by omega)] at hless
  have hscore := (tenThousandths_bounds (ratio_nonneg preserved expected) (abs_ratio_le h)).2
  have hone : tenThousandths 1 = 10000 := by decide +kernel
  push_cast at hscore
  omega

def passedEvent : Event :=
  ⟨Dict.ofList [(.str "event.action", .str "allow"), (.str "src.ip", .str "10.0.0.1")], none⟩

/-- A candidate that no longer classifies one of two blocks keeps its score. -/
theorem not_detectsLoss_reclassified :
    ¬ DetectsLoss Unicode.ascii [blockedEvent, blockedEvent] [passedEvent, blockedEvent] [] []
      true := by
  intro h
  have hgains : GainsNoBlock Unicode.ascii [blockedEvent, blockedEvent]
      [passedEvent, blockedEvent] := by
    intro i act cand hact _ _
    have hmem := List.mem_of_getElem? hact
    simp only [List.mem_cons, List.not_mem_nil, or_false, or_self] at hmem
    rw [hmem]
    decide +kernel
  have hneg := (h rfl ⟨0, blockedEvent, passedEvent, rfl, rfl, by decide +kernel, by decide +kernel⟩
    hgains).1
  revert hneg
  decide +kernel

end Detections

end Ulpf.Shadow
