import Ulpf.Lib.JsonPath
import Ulpf.SpecCompiler.Compiler

/-!
Whether the two generated programs agree. `parse_log` copies from an event that
stays as it is into a fresh result; the VRL program moves the fields of one
event from name to name, in the order of the mappings.
-/

namespace Ulpf.SpecCompiler

open Ulpf.Lib
open Ulpf.Python
open Ulpf.Deployment

/-- How Vector reads the name after a dot as a path into the event. -/
structure PathReading where
  segments : String → List String
  nonempty : ∀ s, segments s ≠ []
  /-- A path of one key is the name of the key. -/
  single : ∀ s t, segments s = [t] → s = t

/-- An event without nested objects. -/
structure FlatEvent where
  fields : Dict String PyVal
  flat : ∀ k v, fields.get? k = some v → v.IsAtom

section Execution

def PyStatement.exec (event parsed : Dict String PyVal) (s : PyStatement) : Dict String PyVal :=
  match event.get? s.rawField with
  | some v => parsed.set s.canonicalField v
  | none => parsed

/-- The generated `parse_log`. -/
def parseLog (mappings : List FieldMapping) (event : Dict String PyVal) : Dict String PyVal :=
  (pythonNative mappings).foldl (PyStatement.exec event) Dict.empty

variable (reading : PathReading)

/-- `delete` returns what it removes, or null. -/
def VrlStatement.exec (event : PyVal) (s : VrlStatement) : PyVal :=
  let path := reading.segments s.rawField
  Json.setPath (reading.segments s.canonicalField) ((Json.getPath path event).getD .null)
    (Json.removePath path event)

/-- The VRL program on an event. -/
def remap (mappings : List FieldMapping) (event : PyVal) : PyVal :=
  (vectorRemap mappings).foldl (VrlStatement.exec reading) event

/-- One move of the VRL program. -/
def move (event : PyVal) (m : FieldMapping) : PyVal :=
  VrlStatement.exec reading event ⟨m.canonicalField, m.rawField⟩

end Execution

section Agreement

variable (reading : PathReading)

/-- Both programs give every canonical field of the list the same value, on
every flat event. Null reads as absent. -/
def TargetsAgree (mappings : List FieldMapping) : Prop :=
  ∀ event : FlatEvent, ∀ m ∈ mappings,
    ((parseLog mappings event.fields).get? m.canonicalField).getD .null =
      (Json.getPath (reading.segments m.canonicalField)
        (remap reading mappings (.obj event.fields.entries))).getD .null

/-- The raw fields are no paths, no canonical path begins another one, and none
lies in the raw field of a later mapping. -/
structure Independent (mappings : List FieldMapping) : Prop where
  undotted : ∀ m ∈ mappings, reading.segments m.rawField = [m.rawField]
  apart : mappings.Pairwise fun m later =>
    Apart (reading.segments m.canonicalField) (reading.segments later.canonicalField) ∧
      ¬ [later.rawField] <+: reading.segments m.canonicalField

abbrev DistinctMappings := { mappings : List FieldMapping // (mappings.map (·.rawField)).Nodup }

end Agreement

section Runs

variable {reading : PathReading}

theorem remap_cons (m : FieldMapping) (rest : List FieldMapping) (event : PyVal) :
    remap reading (m :: rest) event = remap reading rest (move reading event m) := rfl

theorem remap_append (before after : List FieldMapping) (event : PyVal) :
    remap reading (before ++ after) event = remap reading after (remap reading before event) := by
  rw [remap, remap, remap, vectorRemap, vectorRemap, vectorRemap, List.map_append,
    List.foldl_append]

theorem getPath_remap_of_apart {q : List String} {mappings : List FieldMapping}
    (h : ∀ m ∈ mappings, Apart (reading.segments m.rawField) q ∧
      Apart (reading.segments m.canonicalField) q) (event : PyVal) :
    Json.getPath q (remap reading mappings event) = Json.getPath q event := by
  induction mappings generalizing event with
  | nil => rfl
  | cons m rest ih =>
      obtain ⟨hraw, hcanonical⟩ := h m List.mem_cons_self
      rw [remap_cons, ih fun m' hm' => h m' (List.mem_cons_of_mem m hm')]
      show Json.getPath q (Json.setPath _ _ _) = _
      rw [Json.getPath_setPath_of_apart hcanonical, Json.getPath_removePath_of_apart hraw]

theorem get?_foldl_exec {event : Dict String PyVal} {c : String} {mappings : List FieldMapping}
    (h : ∀ m ∈ mappings, m.canonicalField ≠ c ∨ event.get? m.rawField = none)
    (parsed : Dict String PyVal) :
    ((pythonNative mappings).foldl (PyStatement.exec event) parsed).get? c = parsed.get? c := by
  induction mappings generalizing parsed with
  | nil => rfl
  | cons m rest ih =>
      show ((pythonNative rest).foldl (PyStatement.exec event) _).get? c = _
      rw [ih fun m' hm' => h m' (List.mem_cons_of_mem m hm'), PyStatement.exec]
      obtain hne | habsent := h m List.mem_cons_self
      · cases event.get? m.rawField with
        | some v => exact Dict.get?_set_of_ne parsed v hne
        | none => rfl
      · rw [habsent]

/-- A canonical field that one mapping alone can assign has the value of its
raw field. -/
theorem get?_parseLog {event : Dict String PyVal} {before after : List FieldMapping}
    {m : FieldMapping} (h : ∀ m' ∈ before ++ after,
      m'.canonicalField ≠ m.canonicalField ∨ event.get? m'.rawField = none) :
    (parseLog (before ++ m :: after) event).get? m.canonicalField = event.get? m.rawField := by
  have hbefore : (parseLog before event).get? m.canonicalField = none :=
    get?_foldl_exec (fun m' hm' => h m' (List.mem_append_left after hm')) Dict.empty
  rw [parseLog, pythonNative, List.map_append, List.foldl_append, List.map_cons, List.foldl_cons]
  refine (get?_foldl_exec (fun m' hm' => h m' (List.mem_append_right before hm')) _).trans ?_
  rw [PyStatement.exec]
  cases hget : event.get? m.rawField with
  | some v => exact Dict.get?_set_self _ _ v
  | none => exact hbefore

end Runs

section Sufficiency

variable {reading : PathReading}

theorem apart_singleton_iff {k : String} {q : List String} (hq : q ≠ []) :
    Apart [k] q ↔ ¬ [k] <+: q := by
  constructor
  · intro h
    exact h.1
  · intro h
    refine ⟨h, ?_⟩
    intro hprefix
    obtain ⟨k', q, rfl⟩ := List.exists_cons_of_ne_nil hq
    obtain ⟨rfl, hrest⟩ := List.cons_prefix_cons.mp hprefix
    rw [List.prefix_nil.mp hrest] at h
    exact h (List.prefix_refl _)

theorem not_singleton_prefix {k k' : String} (h : k ≠ k') : ¬ [k] <+: [k'] := by
  intro hprefix
  exact h (List.cons_prefix_cons.mp hprefix).1

theorem getPath_singleton (k : String) (fields : Dict String PyVal) :
    Json.getPath [k] (.obj fields.entries) = fields.get? k := by
  rw [Json.getPath_cons, Json.members, Dict.get?]
  cases lookup k fields.entries <;> rfl

theorem getPath_remap_of_independent {before after : List FieldMapping} {m : FieldMapping}
    (hdistinct : ((before ++ m :: after).map (·.rawField)).Nodup)
    (h : Independent reading (before ++ m :: after)) (fields : Dict String PyVal) :
    Json.getPath (reading.segments m.canonicalField)
      (remap reading (before ++ m :: after) (.obj fields.entries)) =
        some ((fields.get? m.rawField).getD .null) := by
  obtain ⟨-, hlater, hcross⟩ := List.pairwise_append.mp h.apart
  have hafter := (List.pairwise_cons.mp hlater).1
  have hmem : m ∈ before ++ m :: after := by simp
  rw [remap_append, remap_cons, getPath_remap_of_apart]
  · show Json.getPath _ (Json.setPath _ _ _) = _
    rw [Json.getPath_setPath_self, h.undotted m hmem, getPath_remap_of_apart, getPath_singleton]
    intro m' hm'
    have hcanonical := (hcross m' hm' m List.mem_cons_self).2
    refine ⟨?_, ((apart_singleton_iff (reading.nonempty _)).mpr hcanonical).symm⟩
    rw [h.undotted m' (List.mem_append_left _ hm'), apart_singleton_iff (List.cons_ne_nil _ _)]
    apply not_singleton_prefix
    rw [List.map_append, List.nodup_append] at hdistinct
    exact hdistinct.2.2 _ (List.mem_map_of_mem hm') _ (by simp)
  · intro m' hm'
    obtain ⟨hcanonical, hraw⟩ := hafter m' hm'
    refine ⟨?_, hcanonical.symm⟩
    rw [h.undotted m' (by simp [hm']), apart_singleton_iff (reading.nonempty _)]
    exact hraw

theorem targetsAgree_of_independent {mappings : List FieldMapping}
    (hdistinct : (mappings.map (·.rawField)).Nodup) (h : Independent reading mappings) :
    TargetsAgree reading mappings := by
  intro event m hm
  obtain ⟨before, after, rfl⟩ := List.append_of_mem hm
  rw [getPath_remap_of_independent hdistinct h, get?_parseLog, Option.getD_some]
  intro m' hm'
  apply Or.inl
  intro heq
  obtain ⟨-, hlater, hcross⟩ := List.pairwise_append.mp h.apart
  rcases List.mem_append.mp hm' with hbefore | hafter
  · have hapart := (hcross m' hbefore m List.mem_cons_self).1
    rw [heq] at hapart
    exact hapart.1 (List.prefix_refl _)
  · have hapart := ((List.pairwise_cons.mp hlater).1 m' hafter).1
    rw [heq] at hapart
    exact hapart.1 (List.prefix_refl _)

end Sufficiency

section Necessity

variable {reading : PathReading}

/-- A value to follow through the program. -/
def mark : PyVal := .bool true

theorem mark_isAtom : mark.IsAtom := by
  intro ms h
  cases h

/-- If the mark is anywhere in the event, it is at this path. -/
def MarkedOnly (p : List String) (event : PyVal) : Prop :=
  ∀ q, Json.getPath q event = some mark → q = p

/-- The mark is nowhere in the event. -/
def Unmarked (event : PyVal) : Prop := ∀ q, Json.getPath q event ≠ some mark

theorem getPath_of_taken {p r : List String} {event : PyVal}
    (h : Json.getPath r ((Json.getPath p event).getD .null) = some mark) :
    Json.getPath (p ++ r) event = some mark := by
  rw [Json.getPath_append]
  cases hget : Json.getPath p event with
  | some y =>
      rw [hget] at h
      exact h
  | none =>
      rw [hget] at h
      cases r with
      | nil => cases h
      | cons k r => cases h

theorem getPath_move_eq_mark {m : FieldMapping} {event : PyVal} {q : List String}
    (h : Json.getPath q (move reading event m) = some mark) :
    (∃ r, q = reading.segments m.canonicalField ++ r ∧
      Json.getPath (reading.segments m.rawField ++ r) event = some mark) ∨
    (Apart (reading.segments m.canonicalField) q ∧ ¬ reading.segments m.rawField <+: q ∧
      Json.getPath q event = some mark) := by
  obtain ⟨r, hq, htaken⟩ | ⟨hapart, hkept⟩ :=
    (Json.getPath_setPath_eq_atom_iff mark_isAtom _ _ _ _).mp h
  · exact Or.inl ⟨r, hq, getPath_of_taken htaken⟩
  · rw [Json.getPath_removePath_eq_atom_iff mark_isAtom (reading.nonempty _)] at hkept
    exact Or.inr ⟨hapart, hkept⟩

theorem move_unmarked {m : FieldMapping} {event : PyVal} (h : Unmarked event) :
    Unmarked (move reading event m) := by
  intro q hq
  obtain ⟨r, -, htaken⟩ | ⟨-, -, hkept⟩ := getPath_move_eq_mark hq
  · exact h _ htaken
  · exact h q hkept

theorem move_markedOnly {m : FieldMapping} {event : PyVal} {p : List String}
    (h : MarkedOnly p event) (hraw : ¬ reading.segments m.rawField <+: p) :
    MarkedOnly p (move reading event m) := by
  intro q hq
  obtain ⟨r, -, htaken⟩ | ⟨-, -, hkept⟩ := getPath_move_eq_mark hq
  · exact absurd ⟨r, h _ htaken⟩ hraw
  · exact h q hkept

theorem move_loses {m : FieldMapping} {event : PyVal} {p : List String}
    (h : MarkedOnly p event) (hraw : ¬ reading.segments m.rawField <+: p)
    (hover : ¬ Apart (reading.segments m.canonicalField) p) :
    Unmarked (move reading event m) := by
  intro q hq
  obtain ⟨r, -, htaken⟩ | ⟨hapart, -, hkept⟩ := getPath_move_eq_mark hq
  · exact hraw ⟨r, h _ htaken⟩
  · rw [h q hkept] at hapart
    exact hover hapart

theorem move_moves {m : FieldMapping} {event : PyVal}
    (h : MarkedOnly (reading.segments m.rawField) event) :
    MarkedOnly (reading.segments m.canonicalField) (move reading event m) := by
  intro q hq
  obtain ⟨r, rfl, htaken⟩ | ⟨-, hraw, hkept⟩ := getPath_move_eq_mark hq
  · have hr : r = [] := List.append_right_eq_self.mp (h _ htaken)
    rw [hr, List.append_nil]
  · rw [h q hkept] at hraw
    exact absurd (List.prefix_refl _) hraw

theorem remap_unmarked {mappings : List FieldMapping} {event : PyVal} (h : Unmarked event) :
    Unmarked (remap reading mappings event) := by
  induction mappings generalizing event with
  | nil => exact h
  | cons m rest ih => exact ih (move_unmarked h)

theorem remap_markedOnly {mappings : List FieldMapping} {event : PyVal} {p : List String}
    (h : MarkedOnly p event)
    (hraw : ∀ m ∈ mappings, ¬ reading.segments m.rawField <+: p) :
    MarkedOnly p (remap reading mappings event) := by
  induction mappings generalizing event with
  | nil => exact h
  | cons m rest ih =>
      exact ih (move_markedOnly h (hraw m List.mem_cons_self))
        fun m' hm' => hraw m' (List.mem_cons_of_mem m hm')

def markedEvent (k : String) : FlatEvent where
  fields := Dict.empty.set k mark
  flat := by
    intro k' v hget
    rw [Dict.get?_set] at hget
    split at hget
    · cases hget
      exact mark_isAtom
    · cases hget

theorem markedEvent_markedOnly (k : String) :
    MarkedOnly [k] (.obj (markedEvent k).fields.entries) := by
  intro q hq
  cases q with
  | nil => cases hq
  | cons k' q =>
      have hlookup : lookup k' (markedEvent k).fields.entries =
          if k = k' then some mark else none :=
        Dict.get?_set Dict.empty k k' mark
      rw [Json.getPath_cons, Json.members, hlookup] at hq
      split at hq
      · rename_i hkey
        cases q with
        | nil => rw [hkey]
        | cons k₂ q => cases hq
      · cases hq

theorem rawField_ne {before after : List FieldMapping} {m m' : FieldMapping}
    (hdistinct : ((before ++ m :: after).map (·.rawField)).Nodup) (hm' : m' ∈ before ++ after) :
    m'.rawField ≠ m.rawField := by
  intro heq
  rw [List.map_append, List.map_cons] at hdistinct
  have hfresh := (List.nodup_cons.mp (List.nodup_middle.mp hdistinct)).1
  apply hfresh
  rw [← heq, ← List.map_append]
  exact List.mem_map_of_mem hm'

/-- Where the programs agree, the mark of a raw field ends at its canonical path. -/
theorem marked_of_targetsAgree {before after : List FieldMapping} {m : FieldMapping}
    (hdistinct : ((before ++ m :: after).map (·.rawField)).Nodup)
    (h : TargetsAgree reading (before ++ m :: after)) :
    Json.getPath (reading.segments m.canonicalField)
      (remap reading (before ++ m :: after) (.obj (markedEvent m.rawField).fields.entries)) =
        some mark := by
  have hothers : ∀ m' ∈ before ++ after, m'.canonicalField ≠ m.canonicalField ∨
      (markedEvent m.rawField).fields.get? m'.rawField = none := by
    intro m' hm'
    apply Or.inr
    exact Dict.get?_set_of_ne Dict.empty mark (rawField_ne hdistinct hm').symm
  have hagree := h (markedEvent m.rawField) m (by simp)
  have hself : (markedEvent m.rawField).fields.get? m.rawField = some mark :=
    Dict.get?_set_self Dict.empty m.rawField mark
  rw [get?_parseLog hothers, hself] at hagree
  generalize Json.getPath (reading.segments m.canonicalField) _ = final at hagree ⊢
  cases final with
  | some v => exact congrArg some hagree.symm
  | none => cases hagree

theorem undotted_of_targetsAgree {mappings : List FieldMapping}
    (hdistinct : (mappings.map (·.rawField)).Nodup) (h : TargetsAgree reading mappings) :
    ∀ m ∈ mappings, reading.segments m.rawField = [m.rawField] := by
  intro m hm
  by_contra hdotted
  obtain ⟨before, after, rfl⟩ := List.append_of_mem hm
  have hstays : ∀ m' ∈ before ++ m :: after, ¬ reading.segments m'.rawField <+: [m.rawField] := by
    intro m' _ hprefix
    obtain ⟨k, path, hsegments⟩ := List.exists_cons_of_ne_nil (reading.nonempty m'.rawField)
    rw [hsegments, List.cons_prefix_cons, List.prefix_nil] at hprefix
    obtain ⟨rfl, rfl⟩ := hprefix
    rw [reading.single _ _ hsegments] at hsegments
    exact hdotted hsegments
  have hfinal := remap_markedOnly (markedEvent_markedOnly m.rawField) hstays _
    (marked_of_targetsAgree hdistinct h)
  rw [reading.single _ _ hfinal] at hfinal
  exact hdotted hfinal

theorem not_prefix_of_targetsAgree {before between after : List FieldMapping}
    {m later : FieldMapping}
    (hdistinct : ((before ++ m :: between ++ later :: after).map (·.rawField)).Nodup)
    (h : TargetsAgree reading (before ++ m :: between ++ later :: after)) :
    ¬ [later.rawField] <+: reading.segments m.canonicalField := by
  intro hprefix
  have hundotted := undotted_of_targetsAgree hdistinct h
  have hother : ∀ m' ∈ before ++ m :: between,
      ¬ reading.segments m'.rawField <+: [later.rawField] := by
    intro m' hm'
    rw [hundotted m' (List.mem_append_left _ hm')]
    exact not_singleton_prefix (rawField_ne hdistinct (List.mem_append_left after hm'))
  have hbefore := remap_markedOnly (markedEvent_markedOnly later.rawField)
    fun m' (hm' : m' ∈ before) => hother m' (List.mem_append_left _ hm')
  have hlost := move_loses hbefore (hother m (by simp)) fun hapart => hapart.2 hprefix
  have hfinal := marked_of_targetsAgree hdistinct h
  rw [List.append_assoc, remap_append, List.cons_append, remap_cons] at hfinal
  exact remap_unmarked hlost _ hfinal

theorem apart_of_targetsAgree {before between after : List FieldMapping}
    {m later : FieldMapping}
    (hdistinct : ((before ++ m :: between ++ later :: after).map (·.rawField)).Nodup)
    (h : TargetsAgree reading (before ++ m :: between ++ later :: after)) :
    Apart (reading.segments m.canonicalField) (reading.segments later.canonicalField) := by
  by_contra hover
  have hundotted := undotted_of_targetsAgree hdistinct h
  have hshape : before ++ m :: between ++ later :: after =
      before ++ m :: (between ++ later :: after) := by
    simp
  have hother : ∀ m' ∈ before, ¬ reading.segments m'.rawField <+: [m.rawField] := by
    intro m' hm'
    rw [hundotted m' (by simp [hm'])]
    exact not_singleton_prefix (rawField_ne (hshape ▸ hdistinct) (List.mem_append_left _ hm'))
  have hbefore := remap_markedOnly (markedEvent_markedOnly m.rawField) hother
  rw [← hundotted m (by simp)] at hbefore
  have hmoved := move_moves hbefore
  have hkept : ∀ m' ∈ between,
      ¬ reading.segments m'.rawField <+: reading.segments m.canonicalField := by
    intro m' hm'
    rw [hundotted m' (by simp [hm'])]
    obtain ⟨left, right, rfl⟩ := List.append_of_mem hm'
    have hsplit : before ++ m :: (left ++ m' :: right) ++ later :: after =
        before ++ m :: left ++ m' :: (right ++ later :: after) := by
      simp
    exact not_prefix_of_targetsAgree (hsplit ▸ hdistinct) (hsplit ▸ h)
  have hlater : ¬ reading.segments later.rawField <+: reading.segments m.canonicalField := by
    rw [hundotted later (by simp)]
    exact not_prefix_of_targetsAgree hdistinct h
  have hbetween := remap_markedOnly hmoved hkept
  have hlost := move_loses hbetween hlater fun hapart => hover hapart.symm
  have hfinal := marked_of_targetsAgree (hshape ▸ hdistinct) (hshape ▸ h)
  rw [remap_append, remap_cons, remap_append, remap_cons] at hfinal
  exact remap_unmarked hlost _ hfinal

theorem pairwise_of_splits {R : FieldMapping → FieldMapping → Prop} {mappings : List FieldMapping}
    (h : ∀ before m between later after,
      mappings = before ++ m :: between ++ later :: after → R m later) :
    mappings.Pairwise R := by
  induction mappings with
  | nil => exact List.Pairwise.nil
  | cons m rest ih =>
      rw [List.pairwise_cons]
      constructor
      · intro later hlater
        obtain ⟨between, after, rfl⟩ := List.append_of_mem hlater
        exact h [] m between later after rfl
      · apply ih
        intro before m' between later after heq
        exact h (m :: before) m' between later after (by rw [heq]; rfl)

end Necessity

/-- The two programs agree on every flat event exactly when the mappings are
independent. -/
theorem targetsAgree_iff_independent (reading : PathReading) (mappings : DistinctMappings) :
    TargetsAgree reading mappings.1 ↔ Independent reading mappings.1 := by
  obtain ⟨mappings, hdistinct⟩ := mappings
  show TargetsAgree reading mappings ↔ Independent reading mappings
  constructor
  · intro h
    refine ⟨undotted_of_targetsAgree hdistinct h, pairwise_of_splits ?_⟩
    rintro before m between later after rfl
    exact ⟨apart_of_targetsAgree hdistinct h, not_prefix_of_targetsAgree hdistinct h⟩
  · intro h
    exact targetsAgree_of_independent hdistinct h

section Dotted

open Ulpf.Lib.Text

theorem splitFrom_ne_nil (sep : List Char) (skip : ℕ) (piece s : List Char) :
    splitFrom sep skip piece s ≠ [] := by
  induction s generalizing skip piece with
  | nil => simp [splitFrom]
  | cons c rest ih =>
      cases skip with
      | succ skip => exact ih skip piece
      | zero =>
          rw [splitFrom]
          split
          · exact List.cons_ne_nil _ _
          · exact ih 0 (c :: piece)

theorem splitFrom_single {sep : List Char} {piece s t : List Char}
    (h : splitFrom sep 0 piece s = [t]) : t = piece.reverse ++ s := by
  induction s generalizing piece with
  | nil =>
      rw [splitFrom] at h
      rw [List.append_nil]
      exact (List.cons.inj h).1.symm
  | cons c rest ih =>
      rw [splitFrom] at h
      split at h
      · exact absurd (List.cons.inj h).2 (splitFrom_ne_nil sep _ [] rest)
      · rw [ih h]
        simp

/-- Names whose dots stand between the keys of a path. -/
def PathReading.dotted : PathReading where
  segments s := split s "."
  nonempty s h := splitFrom_ne_nil _ 0 [] s.toList (List.map_eq_nil_iff.mp h)
  single s t h := by
    obtain ⟨piece, hpiece, rfl⟩ := List.map_eq_singleton_iff.mp h
    rw [splitFrom_single hpiece]
    simp

def chained : DistinctMappings :=
  ⟨[⟨"a", "b", none, false⟩, ⟨"b", "c", none, false⟩], by decide⟩

def twoFields : FlatEvent where
  fields := Dict.ofList [("a", .str "x"), ("b", .str "y")]
  flat := by
    intro k v hget ms hobj
    have hmem := Dict.get?_eq_some_iff.mp hget
    rw [hobj] at hmem
    simp [Dict.ofList, Dict.empty, Dict.set, put] at hmem

/-- The VRL program passes the value on to the next mapping. -/
theorem not_targetsAgree_chained : ¬ TargetsAgree PathReading.dotted chained.1 := by
  intro hall
  have h := hall twoFields ⟨"b", "c", none, false⟩ (by decide)
  revert h
  decide +kernel

end Dotted

end Ulpf.SpecCompiler
