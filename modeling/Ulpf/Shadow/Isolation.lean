import Ulpf.Shadow.RunnerSpec
import Ulpf.Shadow.Scorecard

/-!
What a dual run leaves on the downstream bus, and the isolation flag it reports.
The bus gets the outputs of the active parser and nothing else; the flag is read
from marks that the log itself can carry.
-/

namespace Ulpf.Shadow

open Ulpf.Lib
open Ulpf.Python

/-- No event carries the mark. -/
def NoneMarked (events : List Event) : Prop := ∀ ev ∈ events, isShadowMarked ev = .ok false

section Run

variable {u : Unicode} {ticks : ℕ → Ticks} {rawEvents : List PyVal}
  {activeSpec candidateSpec : PyVal} {sourceId : String} {bus : Option (List Event)}
  {publishActive : Bool}

theorem isolated_eq_true_iff {events : List Event} :
    isolated events = .ok true ↔ NoneMarked events := by
  induction events with
  | nil => simp [isolated, NoneMarked]
  | cons ev rest ih =>
      rw [NoneMarked, List.forall_mem_cons, isolated, bind_eq_ok_iff]
      constructor
      · rintro ⟨marked, hmarked, hrest⟩
        cases marked with
        | true => cases hrest
        | false => exact ⟨hmarked, ih.mp hrest⟩
      · rintro ⟨hev, hrest⟩
        exact ⟨false, hev, ih.mpr hrest⟩

theorem downstreamIsolationVerified_of_compare {active candidate : List Event}
    {activeLat candLat : List ℚ} {isolation : Bool} {report : ShadowComparisonReport}
    (h : compare u active candidate activeLat candLat isolation = .ok report) :
    report.downstreamIsolationVerified = isolation := by
  obtain ⟨vs, hvs⟩ := views_of_compare ⟨report, h⟩
  rw [compare_of_views hvs] at h
  cases h
  rfl

/-- A raw event that a spec turns into an event the comparator can read. -/
def Comparable (u : Unicode) (spec raw : PyVal) : Prop :=
  ∃ ev, parse u raw spec = .ok ev ∧ Returns (flattenEvent ev)

/-- Both runs of two candidate specs put the outputs of the active parser on the
bus and nothing else, and report it. -/
def ShadowIsolated (u : Unicode) (ticks ticks' : ℕ → Ticks) (rawEvents : List PyVal)
    (activeSpec candidateSpec candidateSpec' : PyVal) (sourceId : String)
    (bus : Option (List Event)) (publishActive : Bool) : Prop :=
  ∃ acts report report', rawEvents.mapM (parse u · activeSpec) = .ok acts ∧
    executeDual u ticks rawEvents activeSpec candidateSpec sourceId bus publishActive =
      .ok (report, bus.map fun events => if publishActive then events ++ acts else events) ∧
    executeDual u ticks' rawEvents activeSpec candidateSpec' sourceId bus publishActive =
      .ok (report', bus.map fun events => if publishActive then events ++ acts else events) ∧
    report.downstreamIsolationVerified = true ∧ report'.downstreamIsolationVerified = true

/-- One run is isolated when both specs turn every raw event into an event that
can be compared and no published one carries the mark. -/
theorem isolated_run_iff {acts : List Event}
    (hacts : rawEvents.mapM (parse u · activeSpec) = .ok acts) :
    (∃ report, executeDual u ticks rawEvents activeSpec candidateSpec sourceId bus publishActive =
        .ok (report, busAfter bus publishActive acts) ∧
          report.downstreamIsolationVerified = true) ↔
      Opens activeSpec ∧ Opens candidateSpec ∧ (∀ ev ∈ acts, Returns (flattenEvent ev)) ∧
        (∀ raw ∈ rawEvents, Comparable u candidateSpec raw) ∧
        NoneMarked (published bus publishActive acts) := by
  constructor
  · rintro ⟨report, hrun, hflag⟩
    obtain ⟨hactive, hcandidate, acts', cands, isolation, hacts', hcands, -, hisolation,
      hreport⟩ := executeDual_bus_eq_ok_iff.mp hrun
    rw [hacts] at hacts'
    cases hacts'
    rw [downstreamIsolationVerified_of_compare hreport] at hflag
    rw [hflag] at hisolation
    have hlength : acts.length = cands.length := by rw [mapM_length hacts, mapM_length hcands]
    obtain ⟨hflat, hflat'⟩ :=
      (returns_compare_iff (by rw [List.length_map, hlength])).mp ⟨report, hreport⟩
    refine ⟨hactive, hcandidate, hflat, ?_, isolated_eq_true_iff.mp hisolation⟩
    intro raw hraw
    obtain ⟨ev, hev, hmem⟩ := mem_of_mapM hcands hraw
    exact ⟨ev, hev, returns_flattenEvent_tagShadow.mp (hflat' _ (List.mem_map_of_mem hmem))⟩
  · rintro ⟨hactive, hcandidate, hflat, hcomparable, hunmarked⟩
    have hparses : Returns (rawEvents.mapM (parse u · candidateSpec)) := by
      rw [returns_mapM_iff]
      intro raw hraw
      obtain ⟨ev, hev, -⟩ := hcomparable raw hraw
      exact ⟨ev, hev⟩
    obtain ⟨cands, hcands⟩ := hparses
    have hlength : acts.length = cands.length := by rw [mapM_length hacts, mapM_length hcands]
    have hcompare : Returns (compare u acts
        (cands.map (tagShadow
          ((candidateSpec.memberD "parser" (.obj [])).memberD "id"
            (.str (sourceId ++ ".candidate")))
          ((candidateSpec.memberD "parser" (.obj [])).memberD "version" (.str "1.1.0"))))
        ((List.range rawEvents.length).map fun i => latencyMs (ticks i).t0 (ticks i).t1)
        ((List.range rawEvents.length).map fun i => latencyMs (ticks i).t2 (ticks i).t3)
        true) := by
      rw [returns_compare_iff (by rw [List.length_map, hlength])]
      refine ⟨hflat, ?_⟩
      intro ev hev
      obtain ⟨ev', hmem, rfl⟩ := List.mem_map.mp hev
      obtain ⟨raw, hraw, hparse⟩ := mapM_mem hcands hmem
      obtain ⟨ev'', hev'', hreturns⟩ := hcomparable raw hraw
      rw [hparse] at hev''
      cases hev''
      exact returns_flattenEvent_tagShadow.mpr hreturns
    obtain ⟨report, hreport⟩ := hcompare
    refine ⟨report, ?_, downstreamIsolationVerified_of_compare hreport⟩
    exact executeDual_bus_eq_ok_iff.mpr ⟨hactive, hcandidate, acts, cands, true, hacts, hcands, rfl,
      isolated_eq_true_iff.mpr hunmarked, hreport⟩

/-- Events that neither spec stops on, and marks that only candidates carry. -/
structure RunsClean (u : Unicode) (rawEvents : List PyVal) (activeSpec candidateSpec : PyVal)
    (bus : Option (List Event)) (publishActive : Bool) : Prop where
  activeOpens : Opens activeSpec
  candidateOpens : Opens candidateSpec
  active : ∀ raw ∈ rawEvents, Comparable u activeSpec raw
  candidate : ∀ raw ∈ rawEvents, Comparable u candidateSpec raw
  unmarked : bus.isSome = true → publishActive = true → ∀ raw ∈ rawEvents, ∀ ev,
    parse u raw activeSpec = .ok ev → isShadowMarked ev = .ok false

theorem noneMarked_published_iff {acts : List Event}
    (hacts : rawEvents.mapM (parse u · activeSpec) = .ok acts) :
    NoneMarked (published bus publishActive acts) ↔
      (bus.isSome = true → publishActive = true → ∀ raw ∈ rawEvents, ∀ ev,
        parse u raw activeSpec = .ok ev → isShadowMarked ev = .ok false) := by
  have hall : NoneMarked acts ↔ ∀ raw ∈ rawEvents, ∀ ev,
      parse u raw activeSpec = .ok ev → isShadowMarked ev = .ok false := by
    constructor
    · intro h raw hraw ev hev
      obtain ⟨ev', hev', hmem⟩ := mem_of_mapM hacts hraw
      rw [hev] at hev'
      cases hev'
      exact h ev hmem
    · intro h ev hev
      obtain ⟨raw, hraw, hparse⟩ := mapM_mem hacts hev
      exact h raw hraw ev hparse
  rw [published, ← hall]
  cases bus.isSome <;> cases publishActive <;> simp [NoneMarked]

theorem isolated_run_iff_runsClean :
    (∃ acts report, rawEvents.mapM (parse u · activeSpec) = .ok acts ∧
      executeDual u ticks rawEvents activeSpec candidateSpec sourceId bus publishActive =
        .ok (report, busAfter bus publishActive acts) ∧
      report.downstreamIsolationVerified = true) ↔
      RunsClean u rawEvents activeSpec candidateSpec bus publishActive := by
  constructor
  · rintro ⟨acts, report, hacts, hrun, hflag⟩
    obtain ⟨hactive, hcandidate, hflat, hcomparable, hunmarked⟩ :=
      (isolated_run_iff hacts).mp ⟨report, hrun, hflag⟩
    refine ⟨hactive, hcandidate, ?_, hcomparable, (noneMarked_published_iff hacts).mp hunmarked⟩
    intro raw hraw
    obtain ⟨ev, hev, hmem⟩ := mem_of_mapM hacts hraw
    exact ⟨ev, hev, hflat ev hmem⟩
  · intro h
    have hparses : Returns (rawEvents.mapM (parse u · activeSpec)) := by
      rw [returns_mapM_iff]
      intro raw hraw
      obtain ⟨ev, hev, -⟩ := h.active raw hraw
      exact ⟨ev, hev⟩
    obtain ⟨acts, hacts⟩ := hparses
    have hflat : ∀ ev ∈ acts, Returns (flattenEvent ev) := by
      intro ev hev
      obtain ⟨raw, hraw, hparse⟩ := mapM_mem hacts hev
      obtain ⟨ev', hev', hreturns⟩ := h.active raw hraw
      rw [hparse] at hev'
      cases hev'
      exact hreturns
    have hunmarked := (noneMarked_published_iff hacts).mpr h.unmarked
    have hrun : ∃ report, executeDual u ticks rawEvents activeSpec candidateSpec sourceId bus
        publishActive = .ok (report, busAfter bus publishActive acts) ∧
          report.downstreamIsolationVerified = true :=
      (isolated_run_iff hacts).mpr
        ⟨h.activeOpens, h.candidateOpens, hflat, h.candidate, hunmarked⟩
    obtain ⟨report, hrun, hflag⟩ := hrun
    exact ⟨acts, report, hacts, hrun, hflag⟩

/-- The runs of two candidate specs leave the same bus and report isolation
exactly when no raw event stops them and no published event carries the mark. -/
theorem shadowIsolated_iff (u : Unicode) (ticks ticks' : ℕ → Ticks) (rawEvents : List PyVal)
    (activeSpec candidateSpec candidateSpec' : PyVal) (sourceId : String)
    (bus : Option (List Event)) (publishActive : Bool) :
    ShadowIsolated u ticks ticks' rawEvents activeSpec candidateSpec candidateSpec' sourceId bus
        publishActive ↔
      RunsClean u rawEvents activeSpec candidateSpec bus publishActive ∧
        RunsClean u rawEvents activeSpec candidateSpec' bus publishActive := by
  constructor
  · rintro ⟨acts, report, report', hacts, hrun, hrun', hflag, hflag'⟩
    exact ⟨isolated_run_iff_runsClean.mp ⟨acts, report, hacts, hrun, hflag⟩,
      isolated_run_iff_runsClean.mp ⟨acts, report', hacts, hrun', hflag'⟩⟩
  · rintro ⟨hclean, hclean'⟩
    obtain ⟨acts, report, hacts, hrun, hflag⟩ := isolated_run_iff_runsClean.mpr hclean
    obtain ⟨acts', report', hacts', hrun', hflag'⟩ := isolated_run_iff_runsClean.mpr hclean'
    rw [hacts] at hacts'
    cases hacts'
    exact ⟨acts, report, report', hacts, hrun, hrun', hflag, hflag'⟩

end Run

def markedRaw : PyVal := .obj [("_shadow", .obj [("is_shadow", .bool true)])]

def noTicks : ℕ → Ticks := fun _ => ⟨0, 0, 0, 0⟩

def markedEvent : Event :=
  ⟨Dict.ofList [(.str "_shadow", .obj [("is_shadow", .bool true)])], none⟩

/-- The run returns with the flag down, though only the active output is on the bus. -/
theorem executeDual_marked : ∃ report,
    executeDual Unicode.ascii noTicks [markedRaw] (.obj []) (.obj []) "source" (some []) true =
      .ok (report, some [markedEvent]) ∧ report.downstreamIsolationVerified = false := by
  have hopens : Opens (.obj []) := ⟨rfl, rfl⟩
  have hparse : [markedRaw].mapM (parse Unicode.ascii · (.obj [])) = .ok [markedEvent] := rfl
  have hflat : Returns (flattenEvent markedEvent) := ⟨Dict.empty, rfl⟩
  have hcompare : ∀ candId candVersion activeLat candLat,
      Returns (compare Unicode.ascii [markedEvent]
        ([markedEvent].map (tagShadow candId candVersion)) activeLat candLat false) := by
    intro candId candVersion activeLat candLat
    apply (returns_compare_iff (by rw [List.length_map])).mpr
    rw [List.map_singleton, List.forall_mem_singleton, List.forall_mem_singleton,
      returns_flattenEvent_tagShadow]
    exact ⟨hflat, hflat⟩
  obtain ⟨report, hreport⟩ := hcompare _ _ _ _
  exact ⟨report, executeDual_bus_eq_ok_iff.mpr ⟨hopens, hopens, _, _, false, hparse, hparse, rfl,
    rfl, hreport⟩, downstreamIsolationVerified_of_compare hreport⟩

/-- A mark in the log flips the flag. -/
theorem not_shadowIsolated_marked :
    ¬ ShadowIsolated Unicode.ascii noTicks noTicks [markedRaw] (.obj []) (.obj []) (.obj [])
      "source" (some []) true := by
  rintro ⟨acts, report, report', -, hrun, -, hflag, -⟩
  obtain ⟨report'', hrun', hflag'⟩ := executeDual_marked
  rw [hrun'] at hrun
  cases hrun
  rw [hflag] at hflag'
  cases hflag'

end Ulpf.Shadow
