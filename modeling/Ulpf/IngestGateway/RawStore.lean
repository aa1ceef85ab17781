import Ulpf.IngestGateway.RawPath
import Ulpf.Lib.Run
import Mathlib.Logic.Function.Basic

/-!
Concurrent calls of the raw store on one file system: the existence check, the
directories, the temporary file and the rename of each call, in any interleaving.
-/

namespace Ulpf.IngestGateway.RawStore

open Ulpf.Lib
open Ulpf.Go
open Ulpf.Go.Filepath (Inside Proper)

inductive Node where
  | file (bytes : List UInt8)
  | dir
  deriving DecidableEq

/-- A file system as the contents of its paths. -/
abbrev FileSystem : Type := String → Option Node

/-- The arguments of a call, and the clock it reads. -/
structure StoreCall where
  clock : Platform
  eventID : String
  sourceID : String
  rawBytes : List UInt8

/-- How far a call is, and what it has returned. -/
inductive Phase where
  | idle
  | checked
  | prepared
  | written
  | returned (result : Except String String)
  deriving DecidableEq

/-- The system calls of `Store`. -/
inductive Action where
  | stat
  | mkdirAll
  | writeFile
  | rename
  deriving DecidableEq

variable {ι : Type} [DecidableEq ι]

/-- The files, and how far every call has come. -/
structure State (ι : Type) where
  fs : FileSystem
  phase : ι → Phase

section Calls

variable (root : String) (calls : ι → StoreCall)

/-- The reference of a call. -/
def refOf (i : ι) : String :=
  rawRefOf (calls i).clock (calls i).sourceID (calls i).eventID

/-- The file of a call. -/
def pathOf (i : ι) : String := absPath root (refOf calls i)

/-- The temporary file of a call. -/
def tmpOf (i : ι) : String := pathOf root calls i ++ ".tmp"

/-- The call `i` goes on to a phase, over a file system. -/
def State.next (s : State ι) (i : ι) (fs : FileSystem) (phase : Phase) : State ι :=
  ⟨fs, Function.update s.phase i phase⟩

/-- A disk with nothing on it, and calls that have not begun. -/
def State.blank : State ι := ⟨fun _ => none, fun _ => .idle⟩

/-- `os.MkdirAll` of the directory of a path. -/
def FileSystem.withDirs (fs : FileSystem) (path : String) : FileSystem := fun q =>
  if fs q = none ∧ Inside q path then some .dir else fs q

/-- What a failed `os.MkdirAll` may leave: some of the directories. -/
def SomeDirs (path : String) (fs fs' : FileSystem) : Prop :=
  ∀ q, fs' q = fs q ∨ fs' q = fs.withDirs path q

/-- A step of the call `i`. Every file operation may fail; a failed `os.Stat` counts
as a file that is not there, a failed write may leave a part of the file. -/
inductive Step (s : State ι) : ι × Action → Unit → State ι → Prop where
  | present {i : ι} (phase : s.phase i = .idle) (there : s.fs (pathOf root calls i) ≠ none) :
      Step s (i, .stat) () (s.next i s.fs
        (.returned (.error ("raw event already exists at " ++ refOf calls i))))
  | absent {i : ι} (phase : s.phase i = .idle) (missing : s.fs (pathOf root calls i) = none) :
      Step s (i, .stat) () (s.next i s.fs .checked)
  | statFails {i : ι} (phase : s.phase i = .idle) :
      Step s (i, .stat) () (s.next i s.fs .checked)
  | mkdirAll {i : ι} (phase : s.phase i = .checked)
      (passable : ∀ q bytes, Inside q (pathOf root calls i) → s.fs q ≠ some (.file bytes)) :
      Step s (i, .mkdirAll) () (s.next i (s.fs.withDirs (pathOf root calls i)) .prepared)
  | mkdirFails {i : ι} {fs : FileSystem} (reason : String) (phase : s.phase i = .checked)
      (left : SomeDirs (pathOf root calls i) s.fs fs) :
      Step s (i, .mkdirAll) () (s.next i fs (.returned (.error ("creating directory " ++ reason))))
  | writeFile {i : ι} (phase : s.phase i = .prepared)
      (writable : s.fs (tmpOf root calls i) ≠ some .dir) :
      Step s (i, .writeFile) () (s.next i
        (Function.update s.fs (tmpOf root calls i) (some (.file (calls i).rawBytes))) .written)
  | writeFails {i : ι} {left : Option Node} (reason : String) (phase : s.phase i = .prepared) :
      Step s (i, .writeFile) () (s.next i (Function.update s.fs (tmpOf root calls i) left)
        (.returned (.error ("writing temp file: " ++ reason))))
  | rename {i : ι} {bytes : List UInt8} (phase : s.phase i = .written)
      (source : s.fs (tmpOf root calls i) = some (.file bytes))
      (target : s.fs (pathOf root calls i) ≠ some .dir) :
      Step s (i, .rename) () (s.next i
        (Function.update (Function.update s.fs (tmpOf root calls i) none)
          (pathOf root calls i) (some (.file bytes)))
        (.returned (.ok (refOf calls i))))
  | renameFails {i : ι} {left : Option Node} (reason : String) (phase : s.phase i = .written)
      (removed : left = none ∨ left = s.fs (tmpOf root calls i)) :
      Step s (i, .rename) () (s.next i (Function.update s.fs (tmpOf root calls i) left)
        (.returned (.error ("renaming temp to final: " ++ reason))))

/-- The call has returned its reference. -/
def State.Stored (s : State ι) (i : ι) : Prop := ∃ ref, s.phase i = .returned (.ok ref)

/-- At most one call stores an event id, so that any other on it is refused; and
the bytes of a stored event are those of its call. -/
structure WriteOnce (s : State ι) : Prop where
  once : ∀ i j, s.Stored i → s.Stored j → (calls i).eventID = (calls j).eventID → i = j
  kept : ∀ i, s.Stored i → s.phase i = .returned (.ok (refOf calls i)) ∧
    s.fs (pathOf root calls i) = some (.file (calls i).rawBytes)

/-- What the calls do not protect themselves from: at its rename a call finds the
path still free and its own bytes in the temporary file, and an event stored under
its id has the same path; and no temporary file takes the path of a stored event. -/
def Undisturbed (s : State ι) : ι × Action → Prop
  | (i, .writeFile) => ∀ j, s.Stored j → pathOf root calls j ≠ tmpOf root calls i
  | (i, .rename) =>
      (∀ j, s.Stored j → pathOf root calls j ≠ tmpOf root calls i) ∧
      s.fs (pathOf root calls i) = none ∧
      s.fs (tmpOf root calls i) = some (.file (calls i).rawBytes) ∧
      ∀ j, s.Stored j → (calls j).eventID = (calls i).eventID →
        pathOf root calls j = pathOf root calls i
  | _ => True

end Calls

section Frames

variable {root : String} {calls : ι → StoreCall} {s : State ι} {i j : ι} {fs : FileSystem}
  {phase : Phase}

omit [DecidableEq ι] in
theorem tmpOf_ne_pathOf (root : String) (calls : ι → StoreCall) (i : ι) :
    tmpOf root calls i ≠ pathOf root calls i := by
  intro h
  have hlength := congrArg String.length h
  simp [tmpOf] at hlength

theorem phase_next : (s.next i fs phase).phase i = phase := Function.update_self _ _ _

theorem stored_next_iff (h : ∀ ref, phase ≠ .returned (.ok ref)) :
    (s.next i fs phase).Stored j ↔ j ≠ i ∧ s.Stored j := by
  unfold State.Stored State.next
  by_cases hij : j = i
  · subst hij
    simp [h]
  · simp [hij]

/-- A step that leaves the files of the stored events alone, and stores none, keeps
the store write-once. -/
theorem WriteOnce.next (h : WriteOnce root calls s) (hphase : ∀ ref, phase ≠ .returned (.ok ref))
    (hfs : ∀ j, s.Stored j → fs (pathOf root calls j) = s.fs (pathOf root calls j)) :
    WriteOnce root calls (s.next i fs phase) where
  once a b ha hb hid :=
    h.once a b ((stored_next_iff hphase).mp ha).2 ((stored_next_iff hphase).mp hb).2 hid
  kept a ha := by
    obtain ⟨hne, hstored⟩ := (stored_next_iff hphase).mp ha
    obtain ⟨href, hbytes⟩ := h.kept a hstored
    exact ⟨(Function.update_of_ne hne _ _).trans href, (hfs a hstored).trans hbytes⟩

theorem stored_step {op : ι × Action} {s' : State ι} (hstep : Step root calls s op () s')
    (h : s.Stored j) : s'.Stored j := by
  obtain ⟨ref, hj⟩ := h
  have hkeep {i : ι} {fs : FileSystem} {before after : Phase} (hphase : s.phase i = before)
      (hbefore : before ≠ .returned (.ok ref)) : (s.next i fs after).Stored j := by
    refine ⟨ref, (Function.update_of_ne ?_ _ _).trans hj⟩
    rintro rfl
    exact hbefore (hphase.symm.trans hj)
  cases hstep with
  | present phase there => exact hkeep phase (by simp)
  | absent phase missing => exact hkeep phase (by simp)
  | statFails phase => exact hkeep phase (by simp)
  | mkdirAll phase passable => exact hkeep phase (by simp)
  | mkdirFails reason phase left => exact hkeep phase (by simp)
  | writeFile phase writable => exact hkeep phase (by simp)
  | writeFails reason phase => exact hkeep phase (by simp)
  | rename phase source target => exact hkeep phase (by simp)
  | renameFails reason phase removed => exact hkeep phase (by simp)

theorem withDirs_of_file {path q : String} {bytes : List UInt8} {fs : FileSystem}
    (h : fs q = some (.file bytes)) : fs.withDirs path q = fs q := by
  simp [FileSystem.withDirs, h]

theorem WriteOnce.rename (h : WriteOnce root calls s) (hphase : s.phase i = .written)
    (htmp : ∀ j, s.Stored j → pathOf root calls j ≠ tmpOf root calls i)
    (hpath : ∀ j, s.Stored j → pathOf root calls j ≠ pathOf root calls i)
    (hother : ∀ j, s.Stored j → (calls j).eventID ≠ (calls i).eventID) :
    WriteOnce root calls (s.next i
      (Function.update (Function.update s.fs (tmpOf root calls i) none)
        (pathOf root calls i) (some (.file (calls i).rawBytes)))
      (.returned (.ok (refOf calls i)))) := by
  have hnot : ¬ s.Stored i := by
    rintro ⟨ref, hstored⟩
    rw [hphase] at hstored
    cases hstored
  have hstored : ∀ j, (s.next i
      (Function.update (Function.update s.fs (tmpOf root calls i) none)
        (pathOf root calls i) (some (.file (calls i).rawBytes)))
      (.returned (.ok (refOf calls i)))).Stored j → j = i ∨ s.Stored j := by
    rintro j ⟨ref, hj⟩
    by_cases hji : j = i
    · exact Or.inl hji
    · exact Or.inr ⟨ref, (Function.update_of_ne hji _ _).symm.trans hj⟩
  constructor
  · intro a b ha hb heq
    rcases hstored a ha with rfl | hold <;> rcases hstored b hb with rfl | hold'
    · rfl
    · exact absurd heq.symm (hother b hold')
    · exact absurd heq (hother a hold)
    · exact h.once a b hold hold' heq
  · intro a ha
    rcases hstored a ha with rfl | hold
    · exact ⟨Function.update_self _ _ _, Function.update_self _ _ _⟩
    · obtain ⟨href, hbytes⟩ := h.kept a hold
      have hne : a ≠ i := by
        rintro rfl
        exact hnot hold
      have hsame : Function.update (Function.update s.fs (tmpOf root calls i) none)
          (pathOf root calls i) (some (.file (calls i).rawBytes)) (pathOf root calls a) =
            s.fs (pathOf root calls a) := by
        rw [Function.update_of_ne (hpath a hold), Function.update_of_ne (htmp a hold)]
      exact ⟨(Function.update_of_ne hne _ _).trans href, hsame.trans hbytes⟩

theorem WriteOnce.step {op : ι × Action} {s' : State ι} (h : WriteOnce root calls s)
    (hundisturbed : Undisturbed root calls s op) (hstep : Step root calls s op () s') :
    WriteOnce root calls s' := by
  cases hstep with
  | present phase there => exact h.next (by simp) fun _ _ => rfl
  | absent phase missing => exact h.next (by simp) fun _ _ => rfl
  | statFails phase => exact h.next (by simp) fun _ _ => rfl
  | mkdirAll phase passable =>
      exact h.next (by simp) fun j hj => withDirs_of_file (h.kept j hj).2
  | mkdirFails reason phase left =>
      refine h.next (by simp) fun j hj => ?_
      rcases left (pathOf root calls j) with hsame | hdirs
      · exact hsame
      · exact hdirs.trans (withDirs_of_file (h.kept j hj).2)
  | writeFile phase writable =>
      exact h.next (by simp) fun j hj => Function.update_of_ne (hundisturbed j hj) _ _
  | writeFails reason phase =>
      exact h.next (by simp) fun j hj => Function.update_of_ne (hundisturbed j hj) _ _
  | @rename i bytes phase source target =>
      obtain ⟨htmp, hfree, hown, hid⟩ := hundisturbed
      cases source.symm.trans hown
      -- A stored event of this path would still be found there.
      have hpath : ∀ j, s.Stored j → pathOf root calls j ≠ pathOf root calls i := by
        intro j hj heq
        have hthere := (h.kept j hj).2
        rw [heq, hfree] at hthere
        cases hthere
      exact h.rename phase htmp hpath fun j hj heq => hpath j hj (hid j hj heq)
  | renameFails reason phase removed =>
      exact h.next (by simp) fun j hj => Function.update_of_ne (hundisturbed.1 j hj) _ _

omit [DecidableEq ι] in
theorem writeOnce_of_idle (h : ∀ i, s.phase i = .idle) : WriteOnce root calls s := by
  have hnot : ∀ i, ¬ s.Stored i := by
    rintro i ⟨ref, hstored⟩
    rw [h i] at hstored
    cases hstored
  exact ⟨fun i _ hi => absurd hi (hnot i), fun i hi => absurd hi (hnot i)⟩

/-- In every run from a file system of any content in which each write and rename
meets the condition, at most one call stores each event id, and stored bytes never
change. -/
theorem writeOnce_of_undisturbed {t : State ι}
    {trace : List (Transition (State ι) (ι × Action) Unit)}
    (hstart : ∀ i, s.phase i = .idle) (hrun : Run (Step root calls) s trace t)
    (hundisturbed : ∀ tr ∈ trace, Undisturbed root calls tr.before tr.input) :
    WriteOnce root calls t ∧ ∀ tr ∈ trace, WriteOnce root calls tr.after := by
  refine hrun.invariant (WriteOnce root calls) (Undisturbed root calls) ?_
    (writeOnce_of_idle hstart) hundisturbed
  intro s op o s' hs hop hstep
  exact hs.step hop hstep

end Frames

section Fresh

variable {root : String} {calls : ι → StoreCall} {s : State ι} {i : ι}

/-- The calls of a gateway: each has an event id of its own. -/
structure FreshIDs (calls : ι → StoreCall) : Prop where
  ulid : ∀ i, ∃ id : Ulid, (calls i).eventID = id.text
  distinct : ∀ i j, (calls i).eventID = (calls j).eventID → i = j

omit [DecidableEq ι] in
theorem FreshIDs.proper (h : FreshIDs calls) (i : ι) : Proper (calls i).eventID.toList := by
  obtain ⟨id, hid⟩ := h.ulid i
  rw [hid]
  exact proper_ulid id

omit [DecidableEq ι] in
theorem FreshIDs.pathOf_eq (h : FreshIDs calls) (root : String) (i : ι) :
    pathOf root calls i = String.ofList
      (filePath root (calls i).clock (calls i).sourceID (calls i).eventID).text :=
  absPath_rawRefOf root _ _ (h.proper i)

omit [DecidableEq ι] in
theorem FreshIDs.tmpOf_eq (h : FreshIDs calls) (root : String) (i : ι) :
    tmpOf root calls i = String.ofList
      (filePath root (calls i).clock (calls i).sourceID ((calls i).eventID ++ ".tmp")).text := by
  rw [tmpOf, h.pathOf_eq, filePath, filePath, String.toList_append, Filepath.CleanPath.text_append,
    String.ofList_append, String.ofList_toList]

omit [DecidableEq ι] in
theorem FreshIDs.length (h : FreshIDs calls) (i : ι) : (calls i).eventID.toList.length = 26 := by
  obtain ⟨id, hid⟩ := h.ulid i
  rw [hid, Ulid.text, String.toList_ofList, Ulid.length_digits]

omit [DecidableEq ι] in
theorem FreshIDs.proper_tmp (h : FreshIDs calls) (i : ι) :
    Proper ((calls i).eventID ++ ".tmp").toList := by
  have hlength : ((calls i).eventID ++ ".tmp").toList.length = 30 := by
    rw [String.toList_append, List.length_append, h.length]
    rfl
  refine ⟨?_, ?_, ?_, ?_⟩
  · intro hnil
    simp [hnil] at hlength
  · intro hdot
    simp [hdot] at hlength
  · intro hdots
    simp [hdots] at hlength
  · simpa using (h.proper i).2.2.2

/-- Files of one name are files of one event id. -/
theorem filePath_last {p p' : Platform} {sourceID sourceID' eventID eventID' : String}
    (hid : Proper eventID.toList) (hid' : Proper eventID'.toList)
    (h : String.ofList (filePath root p sourceID eventID).text =
      String.ofList (filePath root p' sourceID' eventID').text) : eventID = eventID' := by
  rw [String.ofList_inj, Filepath.CleanPath.text_inj (wellFormed_filePath root _ _ hid)
    (wellFormed_filePath root _ _ hid') (by simp [filePath]) (by simp [filePath])] at h
  have hnames := congrArg Filepath.CleanPath.names h
  simp only [filePath] at hnames
  exact String.toList_inj.mp (List.singleton_inj.mp (List.append_inj' hnames rfl).2)

omit [DecidableEq ι] in
theorem FreshIDs.pathOf_ne (h : FreshIDs calls) (root : String) {i j : ι} (hij : i ≠ j) :
    pathOf root calls i ≠ pathOf root calls j := by
  rw [h.pathOf_eq, h.pathOf_eq]
  intro heq
  exact hij (h.distinct i j (filePath_last (h.proper i) (h.proper j) heq))

omit [DecidableEq ι] in
theorem FreshIDs.pathOf_ne_tmpOf (h : FreshIDs calls) (root : String) (i j : ι) :
    pathOf root calls i ≠ tmpOf root calls j := by
  rw [h.pathOf_eq, h.tmpOf_eq]
  intro heq
  have hid := filePath_last (h.proper i) (h.proper_tmp j) heq
  have hlength := congrArg (List.length ∘ String.toList) hid
  simp [Function.comp_apply, h.length] at hlength

/-- Each call that has written its temporary file finds its bytes in it. -/
def TempFilesOwned (root : String) (calls : ι → StoreCall) (s : State ι) : Prop :=
  ∀ i, s.phase i = .written → s.fs (tmpOf root calls i) = some (.file (calls i).rawBytes)

theorem TempFilesOwned.next {fs : FileSystem} {phase : Phase} (h : TempFilesOwned root calls s)
    (hown : phase = .written → fs (tmpOf root calls i) = some (.file (calls i).rawBytes))
    (hfs : ∀ j, j ≠ i → s.phase j = .written →
      fs (tmpOf root calls j) = s.fs (tmpOf root calls j)) :
    TempFilesOwned root calls (s.next i fs phase) := by
  intro j hj
  by_cases hij : j = i
  · subst hij
    exact hown ((Function.update_self _ _ _).symm.trans hj)
  · have hwritten : s.phase j = .written := (Function.update_of_ne hij _ _).symm.trans hj
    exact (hfs j hij hwritten).trans (h j hwritten)

/-- Under fresh event ids every step keeps the store write-once and the temporary
files apart. -/
theorem FreshIDs.step (h : FreshIDs calls) {op : ι × Action} {s' : State ι}
    (hs : WriteOnce root calls s ∧ TempFilesOwned root calls s)
    (hstep : Step root calls s op () s') :
    WriteOnce root calls s' ∧ TempFilesOwned root calls s' := by
  obtain ⟨honce, howned⟩ := hs
  have htmps : ∀ {i j}, j ≠ i → tmpOf root calls j ≠ tmpOf root calls i := by
    intro i j hij heq
    exact h.pathOf_ne root hij (String.append_left_inj ".tmp" |>.mp heq)
  cases hstep with
  | present phase there =>
      exact ⟨honce.next (by simp) fun _ _ => rfl, howned.next (by simp) fun _ _ _ => rfl⟩
  | absent phase missing =>
      exact ⟨honce.next (by simp) fun _ _ => rfl, howned.next (by simp) fun _ _ _ => rfl⟩
  | statFails phase =>
      exact ⟨honce.next (by simp) fun _ _ => rfl, howned.next (by simp) fun _ _ _ => rfl⟩
  | mkdirAll phase passable =>
      exact ⟨honce.next (by simp) fun j hj => withDirs_of_file (honce.kept j hj).2,
        howned.next (by simp) fun j _ hj => withDirs_of_file (howned j hj)⟩
  | @mkdirFails i fs reason phase left =>
      have hkept : ∀ q bytes, s.fs q = some (.file bytes) → fs q = s.fs q := by
        intro q bytes hq
        rcases left q with hsame | hdirs
        · exact hsame
        · exact hdirs.trans (withDirs_of_file hq)
      exact ⟨honce.next (by simp) fun j hj => hkept _ _ (honce.kept j hj).2,
        howned.next (by simp) fun j _ hj => hkept _ _ (howned j hj)⟩
  | writeFile phase writable =>
      exact ⟨honce.next (by simp) fun j _ => Function.update_of_ne (h.pathOf_ne_tmpOf root j _) _ _,
        howned.next (fun _ => Function.update_self _ _ _) fun j hij _ =>
          Function.update_of_ne (htmps hij) _ _⟩
  | writeFails reason phase =>
      exact ⟨honce.next (by simp) fun j _ => Function.update_of_ne (h.pathOf_ne_tmpOf root j _) _ _,
        howned.next (by simp) fun j hij _ => Function.update_of_ne (htmps hij) _ _⟩
  | @rename i bytes phase source target =>
      cases source.symm.trans (howned i phase)
      have hother : ∀ j, s.Stored j → j ≠ i := by
        rintro j ⟨ref, hj⟩ rfl
        rw [phase] at hj
        cases hj
      refine ⟨honce.rename phase (fun j _ => h.pathOf_ne_tmpOf root j i)
        (fun j hj => h.pathOf_ne root (hother j hj))
        fun j hj heq => hother j hj (h.distinct j i heq), howned.next (by simp) fun j hij _ => ?_⟩
      rw [Function.update_of_ne (h.pathOf_ne_tmpOf root i j).symm,
        Function.update_of_ne (htmps hij)]
  | renameFails reason phase removed =>
      exact ⟨honce.next (by simp) fun j _ => Function.update_of_ne (h.pathOf_ne_tmpOf root j _) _ _,
        howned.next (by simp) fun j hij _ => Function.update_of_ne (htmps hij) _ _⟩

theorem writeOnce_of_freshIDs {t : State ι}
    {trace : List (Transition (State ι) (ι × Action) Unit)} (h : FreshIDs calls)
    (hstart : ∀ i, s.phase i = .idle) (hrun : Run (Step root calls) s trace t) :
    WriteOnce root calls t := by
  have howned : TempFilesOwned root calls s := by
    intro i hi
    rw [hstart i] at hi
    cases hi
  exact (hrun.invariant (fun s => WriteOnce root calls s ∧ TempFilesOwned root calls s)
    (fun _ _ => True) (fun s op o s' hs _ hstep => h.step hs hstep)
    ⟨writeOnce_of_idle hstart, howned⟩ fun _ _ => trivial).1.1

end Fresh

section Alone

variable {root : String} {calls : ι → StoreCall} {s : State ι} {i j : ι}

theorem not_inside_of_le {dir path : String} (h : path.length ≤ dir.length) :
    ¬ Inside dir path := by
  intro hinside
  have hlength := hinside.length_le
  have hslash : "/".length = 1 := rfl
  simp only [String.toList_append, List.length_append, String.length_toList, hslash] at hlength
  omega

/-- The state after a call that nothing disturbs. -/
def State.afterStore (root : String) (calls : ι → StoreCall) (s : State ι) (i : ι) : State ι :=
  s.next i
    (Function.update
      (Function.update (s.fs.withDirs (pathOf root calls i)) (tmpOf root calls i) none)
      (pathOf root calls i) (some (.file (calls i).rawBytes)))
    (.returned (.ok (refOf calls i)))

theorem exists_run_afterStore (root : String) (calls : ι → StoreCall) (hidle : s.phase i = .idle)
    (hfree : s.fs (pathOf root calls i) = none) (htmp : s.fs (tmpOf root calls i) ≠ some .dir)
    (hpassable : ∀ q bytes, Inside q (pathOf root calls i) → s.fs q ≠ some (.file bytes)) :
    ∃ trace, Run (Step root calls) s trace (s.afterStore root calls i) ∧
      ((∀ j, ¬ s.Stored j) → ∀ tr ∈ trace, Undisturbed root calls tr.before tr.input) := by
  let s₁ := s.next i s.fs .checked
  let s₂ := s₁.next i (s.fs.withDirs (pathOf root calls i)) .prepared
  let s₃ := s₂.next i
    (Function.update s₂.fs (tmpOf root calls i) (some (.file (calls i).rawBytes))) .written
  have htmpDirs : s₂.fs (tmpOf root calls i) = s.fs (tmpOf root calls i) := by
    have hlonger : ¬ Inside (tmpOf root calls i) (pathOf root calls i) :=
      not_inside_of_le (by simp [tmpOf])
    simp [s₂, State.next, FileSystem.withDirs, hlonger]
  have hpath : s₃.fs (pathOf root calls i) = none := by
    have hself : ¬ Inside (pathOf root calls i) (pathOf root calls i) :=
      not_inside_of_le (Nat.le_refl _)
    have hne := tmpOf_ne_pathOf root calls i
    simp [s₃, s₂, State.next, FileSystem.withDirs, hself, hfree, Function.update_of_ne hne.symm]
  have htmpOwn : s₃.fs (tmpOf root calls i) = some (.file (calls i).rawBytes) :=
    Function.update_self _ _ _
  have hend : s₃.next i
      (Function.update (Function.update s₃.fs (tmpOf root calls i) none) (pathOf root calls i)
        (some (.file (calls i).rawBytes))) (.returned (.ok (refOf calls i))) =
        s.afterStore root calls i := by
    simp [s₃, s₂, s₁, State.afterStore, State.next]
  have hrun : Run (Step root calls) s
      [⟨s, (i, .stat), (), s₁⟩, ⟨s₁, (i, .mkdirAll), (), s₂⟩, ⟨s₂, (i, .writeFile), (), s₃⟩,
        ⟨s₃, (i, .rename), (), s.afterStore root calls i⟩] (s.afterStore root calls i) := by
    refine .cons (.absent hidle hfree) (.cons (.mkdirAll (Function.update_self _ _ _) hpassable)
      (.cons (.writeFile (Function.update_self _ _ _) (by rwa [htmpDirs])) (.cons ?_ (.nil _))))
    rw [← hend]
    exact .rename (Function.update_self _ _ _) htmpOwn (by rw [hpath]; simp)
  refine ⟨_, hrun, fun hnone => ?_⟩
  have hnone₂ : ∀ j, ¬ s₂.Stored j := by
    intro j hj
    exact hnone j ((stored_next_iff (by simp)).mp ((stored_next_iff (by simp)).mp hj).2).2
  have hnone₃ : ∀ j, ¬ s₃.Stored j := fun j hj =>
    hnone₂ j ((stored_next_iff (by simp)).mp hj).2
  simp only [List.forall_mem_cons, List.not_mem_nil, false_imp_iff, implies_true, and_true]
  exact ⟨trivial, trivial, fun j hj => absurd hj (hnone₂ j),
    fun j hj => absurd hj (hnone₃ j), hpath, htmpOwn, fun j hj => absurd hj (hnone₃ j)⟩

theorem phase_afterStore :
    (s.afterStore root calls i).phase i = .returned (.ok (refOf calls i)) :=
  Function.update_self _ _ _

theorem fs_afterStore :
    (s.afterStore root calls i).fs (pathOf root calls i) = some (.file (calls i).rawBytes) :=
  Function.update_self _ _ _

theorem stored_afterStore : (s.afterStore root calls i).Stored i :=
  ⟨refOf calls i, phase_afterStore⟩

/-- Two calls of event ids of their own, one operation of each in turn. -/
def inTurn (i j : ι) : List (ι × Action) :=
  [(i, .stat), (j, .stat), (i, .mkdirAll), (j, .mkdirAll), (i, .writeFile), (j, .writeFile),
    (i, .rename), (j, .rename)]

theorem exists_run_inTurn (h : FreshIDs calls) (root : String) (hij : i ≠ j)
    (hpath : ∀ a b, ¬ Inside (pathOf root calls a) (pathOf root calls b))
    (htmp : ∀ a b, ¬ Inside (tmpOf root calls a) (pathOf root calls b)) :
    ∃ trace t, Run (Step root calls) State.blank trace t ∧
      trace.map Transition.input = inTurn i j ∧
      t.phase i = .returned (.ok (refOf calls i)) ∧
      t.phase j = .returned (.ok (refOf calls j)) := by
  let s₁ : State ι := State.blank.next i (fun _ => none) .checked
  let s₂ := s₁.next j (fun _ => none) .checked
  let s₃ := s₂.next i (s₂.fs.withDirs (pathOf root calls i)) .prepared
  let s₄ := s₃.next j (s₃.fs.withDirs (pathOf root calls j)) .prepared
  let s₅ := s₄.next i
    (Function.update s₄.fs (tmpOf root calls i) (some (.file (calls i).rawBytes))) .written
  let s₆ := s₅.next j
    (Function.update s₅.fs (tmpOf root calls j) (some (.file (calls j).rawBytes))) .written
  let s₇ := s₆.next i
    (Function.update (Function.update s₆.fs (tmpOf root calls i) none) (pathOf root calls i)
      (some (.file (calls i).rawBytes))) (.returned (.ok (refOf calls i)))
  let s₈ := s₇.next j
    (Function.update (Function.update s₇.fs (tmpOf root calls j) none) (pathOf root calls j)
      (some (.file (calls j).rawBytes))) (.returned (.ok (refOf calls j)))
  have hji : j ≠ i := hij.symm
  have htmps : tmpOf root calls i ≠ tmpOf root calls j := fun heq =>
    h.pathOf_ne root hij (String.append_left_inj ".tmp" |>.mp heq)
  have hpaths := h.pathOf_ne root hij
  have hcross := h.pathOf_ne_tmpOf root
  have hfree (q : String) (hq : ∀ a, ¬ Inside q (pathOf root calls a)) : s₄.fs q = none := by
    simp [s₄, s₃, s₂, State.next, FileSystem.withDirs, hq]
  have hrun : Run (Step root calls) State.blank
      [⟨State.blank, (i, .stat), (), s₁⟩, ⟨s₁, (j, .stat), (), s₂⟩,
        ⟨s₂, (i, .mkdirAll), (), s₃⟩, ⟨s₃, (j, .mkdirAll), (), s₄⟩,
        ⟨s₄, (i, .writeFile), (), s₅⟩, ⟨s₅, (j, .writeFile), (), s₆⟩,
        ⟨s₆, (i, .rename), (), s₇⟩, ⟨s₇, (j, .rename), (), s₈⟩] s₈ := by
    have hphases : s₁.phase j = .idle ∧ s₂.phase i = .checked ∧ s₃.phase j = .checked ∧
        s₄.phase i = .prepared ∧ s₅.phase j = .prepared ∧ s₆.phase i = .written ∧
        s₇.phase j = .written := by
      simp [s₇, s₆, s₅, s₄, s₃, s₂, s₁, State.next, State.blank, hij, hji]
    obtain ⟨hj₁, hi₂, hj₃, hi₄, hj₅, hi₆, hj₇⟩ := hphases
    have hdirs (q : String) (bytes : List UInt8) : s₃.fs q ≠ some (.file bytes) := by
      simp only [s₃, s₂, State.next, FileSystem.withDirs]
      split_ifs <;> simp
    refine .cons (.absent rfl rfl) (.cons (.absent hj₁ rfl)
      (.cons (.mkdirAll hi₂ (by simp [s₂, State.next]))
      (.cons (.mkdirAll hj₃ fun q bytes _ => hdirs q bytes)
      (.cons (.writeFile hi₄ (by simp [hfree _ (htmp i)])) (.cons (.writeFile hj₅ ?_)
      (.cons (.rename hi₆ ?_ ?_) (.cons (.rename hj₇ ?_ ?_) (.nil _))))))))
    · simp [s₅, State.next, htmps.symm, hfree _ (htmp j)]
    · simp [s₆, s₅, State.next, htmps]
    · simp [s₆, s₅, State.next, hcross, hfree _ (hpath i)]
    · simp [s₇, s₆, State.next, htmps.symm, (hcross i j).symm]
    · simp [s₇, s₆, s₅, State.next, hpaths.symm, hcross, hfree _ (hpath j)]
  refine ⟨_, s₈, hrun, rfl, ?_, Function.update_self _ _ _⟩
  exact (Function.update_of_ne hij _ _).trans (Function.update_self _ _ _)

end Alone

section Examples

/-- Two calls for one event id, one of each source. -/
def twoSources (second : Bool) : StoreCall where
  clock := .plain
  eventID := "01J9A0K0P0Z3R3M5WQ6F7H8J9K"
  sourceID := if second then "fw-2" else "fw-1"
  rawBytes := [65]

/-- An event id is stored again under another source, even one call after the other. -/
theorem not_writeOnce_twoSources :
    ¬ ∀ (root : String) (calls : Bool → StoreCall) (s t : State Bool)
      (trace : List (Transition (State Bool) (Bool × Action) Unit)),
      (∀ i, s.phase i = .idle) → Run (Step root calls) s trace t → WriteOnce root calls t := by
  intro h
  let s : State Bool := ⟨fun _ => none, fun _ => .idle⟩
  let s' : State Bool := s.afterStore "/data" twoSources false
  have hpaths : pathOf "/data" twoSources true ≠ pathOf "/data" twoSources false ∧
      pathOf "/data" twoSources true ≠ tmpOf "/data" twoSources false ∧
      tmpOf "/data" twoSources true ≠ pathOf "/data" twoSources false ∧
      tmpOf "/data" twoSources true ≠ tmpOf "/data" twoSources false ∧
      ¬ Inside (pathOf "/data" twoSources true) (pathOf "/data" twoSources false) ∧
      ¬ Inside (tmpOf "/data" twoSources true) (pathOf "/data" twoSources false) ∧
      ¬ Inside (pathOf "/data" twoSources false) (pathOf "/data" twoSources true) := by
    decide +kernel
  obtain ⟨hpath, hpathTmp, htmpPath, htmps, hinside, htmpInside, hinside'⟩ := hpaths
  obtain ⟨trace, hfirst, -⟩ := exists_run_afterStore "/data" twoSources (s := s)
    (i := false) rfl rfl (by simp [s]) (by simp [s])
  obtain ⟨trace', hsecond, -⟩ := exists_run_afterStore "/data" twoSources (s := s')
    (i := true) rfl
    (by simp [s', s, State.afterStore, State.next, FileSystem.withDirs, hpath, hpathTmp, hinside])
    (by simp [s', s, State.afterStore, State.next, FileSystem.withDirs, htmpPath, htmps,
      htmpInside])
    (by
      intro q bytes hq
      have hne : q ≠ pathOf "/data" twoSources false := by
        rintro rfl
        exact hinside' hq
      simp only [s', s, State.afterStore, State.next, Function.update_of_ne hne]
      by_cases htmp : q = tmpOf "/data" twoSources false
      · simp [htmp]
      · simp [Function.update_of_ne htmp, FileSystem.withDirs])
  have honce := (h "/data" twoSources s _ _ (fun _ => rfl) (hfirst.append hsecond)).once false true
    ⟨_, rfl⟩ stored_afterStore rfl
  cases honce

/-- Two calls for one event of one source, with other bytes. -/
def retried (again : Bool) : StoreCall where
  clock := .plain
  eventID := "01J9A0K0P0Z3R3M5WQ6F7H8J9K"
  sourceID := "fw-1"
  rawBytes := if again then [66] else [65]

/-- The second call is refused, and the bytes of the first stay. -/
theorem writeOnce_retried :
    ∃ (trace : List (Transition (State Bool) (Bool × Action) Unit)) (t : State Bool),
      Run (Step "/data" retried) State.blank trace t ∧ WriteOnce "/data" retried t ∧
      t.phase false = .returned (.ok (refOf retried false)) ∧
      t.phase true =
        .returned (.error ("raw event already exists at " ++ refOf retried true)) ∧
      t.fs (pathOf "/data" retried true) = some (.file [65]) := by
  obtain ⟨trace, hfirst, hundisturbed⟩ := exists_run_afterStore "/data" retried
    (s := State.blank) (i := false) rfl rfl (by simp [State.blank]) (by simp [State.blank])
  let s : State Bool := State.blank.afterStore "/data" retried false
  have hsame : pathOf "/data" retried true = pathOf "/data" retried false := rfl
  have hstored : s.fs (pathOf "/data" retried true) = some (.file [65]) := by
    rw [hsame]
    exact fs_afterStore
  let t : State Bool := s.next true s.fs
    (.returned (.error ("raw event already exists at " ++ refOf retried true)))
  have hrun : Run (Step "/data" retried) State.blank (trace ++ [⟨s, (true, .stat), (), t⟩]) t :=
    hfirst.append (.cons (.present rfl (by simp [s, hstored])) (.nil _))
  have hnone : ∀ i : Bool, ¬ State.blank.Stored i := by
    rintro i ⟨ref, hi⟩
    cases hi
  have honce := writeOnce_of_undisturbed (fun _ => rfl) hrun fun tr hmem => by
    rcases List.mem_append.mp hmem with hbefore | hlast
    · exact hundisturbed hnone tr hbefore
    · rw [List.mem_singleton.mp hlast]
      trivial
  exact ⟨_, t, hrun, honce.1, rfl, phase_next, hstored⟩

end Examples

end Ulpf.IngestGateway.RawStore
