import Ulpf.Go.Filepath
import Ulpf.IngestGateway.Envelope
import Mathlib.Tactic.IntervalCases

/-!
Where the raw store writes: the path of an event under the root of the store, the
day, the source and the event, after its lexical cleaning.
-/

namespace Ulpf.IngestGateway

open Ulpf.Lib
open Ulpf.Go
open Ulpf.Go.Filepath (Proper CleanPath)

section Names

/-- The names of the directory of the day. -/
def storeDate (p : Platform) : List Filepath.Name :=
  let date := Calendar.civilFromDays (Time.clock p.now).1
  ["raw".toList, Time.appendInt date.1 4, Time.appendInt date.2.1 2, Time.appendInt date.2.2 2]

/-- The directory of the current day. -/
def datePath (p : Platform) : String :=
  let date := Calendar.civilFromDays (Time.clock p.now).1
  "raw/" ++ String.ofList (Time.appendInt date.1 4) ++ "/" ++
    String.ofList (Time.appendInt date.2.1 2) ++ "/" ++ String.ofList (Time.appendInt date.2.2 2)

/-- The reference `Store` gives: day, source and event. -/
def rawRefOf (p : Platform) (sourceID eventID : String) : String :=
  datePath p ++ "/" ++ sourceID ++ "/" ++ eventID

/-- `filepath.Join(s.Root, rawRef)` -/
def absPath (root rawRef : String) : String := Filepath.join [root, rawRef]

/-- The directory of the day below a root. -/
def dayDir (root : String) (p : Platform) : CleanPath :=
  (Filepath.read root.toList).enterAll (storeDate p)

/-- Where a source id leads, read as a relative path. -/
def sourcePath (sourceID : String) : CleanPath :=
  Filepath.here.enterAll (sourceID.toList.splitOn '/')

/-- A source id enters again every directory it climbs out of. -/
def StaysBelow (dir : CleanPath) (sourceID : String) : Prop :=
  (dir.rooted = true ∨ (sourcePath sourceID).ups ≤ dir.names.length) ∧
    dir.names.drop (dir.names.length - (sourcePath sourceID).ups) <+: (sourcePath sourceID).names

/-- The names a source id enters below the directory of the day. -/
def below (dir : CleanPath) (sourceID : String) : List Filepath.Name :=
  (sourcePath sourceID).names.drop (min (sourcePath sourceID).ups dir.names.length)

theorem localFSStore_eq (p : Platform) (exists? : String → Bool)
    (writes : String → List UInt8 → Except String Unit) (eventID sourceID : String)
    (rawBytes : List UInt8) :
    localFSStore p exists? writes eventID sourceID rawBytes =
      if exists? (rawRefOf p sourceID eventID) then
        .error ("raw event already exists at " ++ rawRefOf p sourceID eventID)
      else (writes (rawRefOf p sourceID eventID) rawBytes).map fun _ =>
        rawRefOf p sourceID eventID := by
  simp only [localFSStore, rawRefOf, datePath]
  rfl

theorem localFSStore_eq_ok {p : Platform} {exists? : String → Bool}
    {writes : String → List UInt8 → Except String Unit} {eventID sourceID rawRef : String}
    {rawBytes : List UInt8}
    (h : localFSStore p exists? writes eventID sourceID rawBytes = .ok rawRef) :
    rawRef = rawRefOf p sourceID eventID := by
  rw [localFSStore_eq] at h
  split at h
  · cases h
  · obtain ⟨_, _, heq⟩ := map_eq_ok_iff.mp h
    exact heq.symm

theorem proper_of_forall {c : Filepath.Name} (hne : c ≠ []) (h : ∀ x ∈ c, x ≠ '.' ∧ x ≠ '/') :
    Proper c := by
  refine ⟨hne, ?_, ?_, fun hslash => (h '/' hslash).2 rfl⟩
  · intro hdot
    exact (h '.' (by simp [hdot])).1 rfl
  · intro hdots
    exact (h '.' (by simp [hdots])).1 rfl

theorem proper_appendInt (x : ℤ) (width : ℕ) : Proper (Time.appendInt x width) := by
  apply proper_of_forall
  · simp [Time.appendInt, Nat.toDigits_ne_nil]
  · intro c hc
    have hdigit : c = '-' ∨ c.isDigit = true := by
      rw [Time.appendInt, List.mem_append, List.mem_append] at hc
      rcases hc with hsign | hzero | hdigit
      · split at hsign
        · exact Or.inl (List.mem_singleton.mp hsign)
        · cases hsign
      · rw [List.eq_of_mem_replicate hzero]
        exact Or.inr rfl
      · exact Or.inr (Nat.isDigit_of_mem_toDigits (by decide) (by decide) hdigit)
    rcases hdigit with rfl | hdigit
    · decide
    · constructor <;> rintro rfl <;> simp at hdigit

theorem proper_ulid (id : Ulid) : Proper id.text.toList := by
  rw [Ulid.text, String.toList_ofList]
  apply proper_of_forall
  · intro hnil
    have hlength := Ulid.length_digits 26 id.toNat
    rw [hnil] at hlength
    cases hlength
  · intro c hc
    obtain ⟨k, hk, rfl⟩ := Ulid.exists_digit_of_mem hc
    interval_cases k <;> decide

theorem proper_storeDate (p : Platform) : ∀ c ∈ storeDate p, Proper c := by
  simp only [storeDate, List.forall_mem_cons]
  exact ⟨by decide, proper_appendInt _ _, proper_appendInt _ _, proper_appendInt _ _, by simp⟩

theorem toList_datePath (p : Platform) :
    (datePath p).toList = ['/'].intercalate (storeDate p) := by
  simp [datePath, storeDate, List.intercalate_cons_cons]

theorem splitOn_datePath (p : Platform) : (datePath p).toList.splitOn '/' = storeDate p := by
  rw [toList_datePath]
  apply List.splitOn_intercalate
  · exact fun c hc => (proper_storeDate p c hc).2.2.2
  · simp [storeDate]

theorem splitOn_rawRefOf (p : Platform) (sourceID eventID : String)
    (hid : Proper eventID.toList) :
    (rawRefOf p sourceID eventID).toList.splitOn '/' =
      storeDate p ++ sourceID.toList.splitOn '/' ++ [eventID.toList] := by
  have htext : (rawRefOf p sourceID eventID).toList =
      (datePath p).toList ++ '/' :: (sourceID.toList ++ '/' :: eventID.toList) := by
    simp [rawRefOf]
  rw [htext, List.splitOn_append_cons_self, List.splitOn_append_cons_self, splitOn_datePath,
    List.splitOn_eq_singleton hid.2.2.2, List.append_assoc]

theorem absPath_eq (root rawRef : String) (hstart : rawRef.toList.head? = some 'r') :
    absPath root rawRef = String.ofList
      ((Filepath.read root.toList).enterAll (rawRef.toList.splitOn '/')).text := by
  have hne : rawRef ≠ "" := by
    rintro rfl
    cases hstart
  by_cases hroot : root = ""
  · subst hroot
    have hjoin : absPath "" rawRef = Filepath.clean rawRef := by
      simp [absPath, Filepath.join, hne]
    have hread : Filepath.read "".toList = ⟨false, 0, []⟩ := rfl
    rw [hjoin, hread, Filepath.clean, Filepath.read, hstart]
    rfl
  · have hjoin : absPath root rawRef =
        Filepath.clean (String.ofList (root.toList ++ '/' :: rawRef.toList)) := by
      simp [absPath, Filepath.join, hroot, List.intercalate_cons_cons]
    obtain ⟨c, cs, hcs⟩ := List.exists_cons_of_ne_nil (mt String.toList_eq_nil_iff.mp hroot)
    rw [hjoin, Filepath.clean, String.toList_ofList, Filepath.read, List.splitOn_append_cons_self,
      CleanPath.enterAll_append, Filepath.read, hcs]
    rfl

theorem head_rawRefOf (p : Platform) (sourceID eventID : String) :
    (rawRefOf p sourceID eventID).toList.head? = some 'r' := by
  simp [rawRefOf, datePath]

theorem head_datePath (p : Platform) : (datePath p).toList.head? = some 'r' := by
  simp [datePath]

theorem wellFormed_dayDir (root : String) (p : Platform) : (dayDir root p).WellFormed :=
  (Filepath.wellFormed_read _).enterAll fun c hc => (proper_storeDate p c hc).2.2.2

theorem dayDir_eq (root : String) (p : Platform) :
    dayDir root p = { Filepath.read root.toList with
      names := (Filepath.read root.toList).names ++ storeDate p } :=
  CleanPath.enterAll_of_proper _ (proper_storeDate p)

theorem names_dayDir_ne_nil (root : String) (p : Platform) : (dayDir root p).names ≠ [] := by
  simp [dayDir_eq, storeDate]

theorem absPath_datePath (root : String) (p : Platform) :
    absPath root (datePath p) = String.ofList (dayDir root p).text := by
  rw [absPath_eq root _ (head_datePath p), splitOn_datePath, dayDir]

/-- The file of an event. -/
def filePath (root : String) (p : Platform) (sourceID eventID : String) : CleanPath :=
  let dir := (dayDir root p).resolve (sourcePath sourceID)
  { dir with names := dir.names ++ [eventID.toList] }

theorem absPath_rawRefOf (root : String) (p : Platform) (sourceID : String) {eventID : String}
    (hid : Proper eventID.toList) : absPath root (rawRefOf p sourceID eventID) =
      String.ofList (filePath root p sourceID eventID).text := by
  have hlast : ∀ dir : CleanPath, dir.enterAll [eventID.toList] =
      { dir with names := dir.names ++ [eventID.toList] } :=
    fun dir => CleanPath.enter_of_proper dir hid
  rw [absPath_eq root _ (head_rawRefOf p sourceID eventID), splitOn_rawRefOf p sourceID eventID hid,
    CleanPath.enterAll_append, CleanPath.enterAll_append, hlast, ← dayDir,
    CleanPath.enterAll_eq_resolve, ← sourcePath]
  rfl

theorem wellFormed_filePath (root : String) (p : Platform) (sourceID : String) {eventID : String}
    (hid : Proper eventID.toList) : (filePath root p sourceID eventID).WellFormed := by
  have hdir := (wellFormed_dayDir root p).enterAll
    (Filepath.slash_not_mem_splitOn sourceID.toList)
  have hfile := hdir.enter hid.2.2.2
  rw [CleanPath.enter_of_proper _ hid, CleanPath.enterAll_eq_resolve] at hfile
  exact hfile

end Names

section Containment

variable {root : String} {p p' : Platform} {sourceID sourceID' : String} {eventID eventID' : String}

theorem resolve_sourcePath {dir : CleanPath} (h : StaysBelow dir sourceID) :
    dir.resolve (sourcePath sourceID) = { dir with names := dir.names ++ below dir sourceID } := by
  obtain ⟨hups, rest, hrest⟩ := h
  have hbelow : below dir sourceID = rest := by
    have hlength : min (sourcePath sourceID).ups dir.names.length =
        (dir.names.drop (dir.names.length - (sourcePath sourceID).ups)).length := by
      rw [List.length_drop]
      omega
    rw [below, ← hrest, hlength, List.drop_left]
  rw [CleanPath.resolve, hbelow, ← hrest, ← List.append_assoc, List.take_append_drop]
  congr 1
  rcases hups with hrooted | hle
  · rw [if_pos hrooted]
  · simp [Nat.sub_eq_zero_of_le hle]

theorem filePath_of_staysBelow (h : StaysBelow (dayDir root p) sourceID) :
    filePath root p sourceID eventID = { dayDir root p with
      names := (dayDir root p).names ++ (below (dayDir root p) sourceID ++ [eventID.toList]) } := by
  rw [filePath, resolve_sourcePath h]
  simp

theorem inside_iff_staysBelow (hid : Proper eventID.toList) :
    Filepath.Inside (absPath root (datePath p)) (absPath root (rawRefOf p sourceID eventID)) ↔
      StaysBelow (dayDir root p) sourceID := by
  have htext : Filepath.Inside (absPath root (datePath p))
      (absPath root (rawRefOf p sourceID eventID)) ↔
        (dayDir root p).text ++ ['/'] <+: (filePath root p sourceID eventID).text := by
    rw [Filepath.Inside, absPath_datePath, absPath_rawRefOf root p sourceID hid]
    simp
  rw [htext, CleanPath.text_prefix_iff (wellFormed_dayDir root p)
    (wellFormed_filePath root p sourceID hid) (names_dayDir_ne_nil root p)]
  constructor
  · rintro ⟨-, hups, rest, hrest, hnames⟩
    constructor
    · by_cases hrooted : (dayDir root p).rooted = true
      · exact Or.inl hrooted
      · simp only [filePath, CleanPath.resolve, hrooted, if_false, Bool.false_eq_true] at hups
        exact Or.inr (by omega)
    · obtain hnil | ⟨rest', last, rfl⟩ := List.eq_nil_or_concat rest
      · exact absurd hnil hrest
      · rw [List.concat_eq_append, ← List.append_assoc] at hnames
        have hdir := (List.append_inj' hnames rfl).1
        have hsplit := List.take_append_drop
          ((dayDir root p).names.length - (sourcePath sourceID).ups) (dayDir root p).names
        rw [CleanPath.resolve, ← hsplit, List.append_assoc] at hdir
        simp only [List.take_append_drop] at hdir
        exact ⟨rest', (List.append_cancel_left hdir).symm⟩
  · intro h
    rw [filePath_of_staysBelow h]
    exact ⟨rfl, rfl, _, by simp, rfl⟩

theorem absPath_eq_iff (hid : Proper eventID.toList) (hid' : Proper eventID'.toList)
    (h : StaysBelow (dayDir root p) sourceID) (h' : StaysBelow (dayDir root p') sourceID') :
    absPath root (rawRefOf p sourceID eventID) = absPath root (rawRefOf p' sourceID' eventID') ↔
      storeDate p = storeDate p' ∧
        below (dayDir root p) sourceID = below (dayDir root p') sourceID' ∧ eventID = eventID' := by
  have htext : absPath root (rawRefOf p sourceID eventID) =
      absPath root (rawRefOf p' sourceID' eventID') ↔
        filePath root p sourceID eventID = filePath root p' sourceID' eventID' := by
    rw [absPath_rawRefOf root p sourceID hid, absPath_rawRefOf root p' sourceID' hid',
      String.ofList_inj]
    exact CleanPath.text_inj (wellFormed_filePath root p sourceID hid)
      (wellFormed_filePath root p' sourceID' hid') (by simp [filePath]) (by simp [filePath])
  rw [htext, filePath_of_staysBelow h, filePath_of_staysBelow h']
  generalize below (dayDir root p) sourceID = names
  generalize below (dayDir root p') sourceID' = names'
  rw [dayDir_eq, dayDir_eq]
  simp only [CleanPath.mk.injEq, true_and, List.append_assoc, List.append_cancel_left_eq]
  constructor
  · intro hnames
    obtain ⟨hdate, hrest⟩ := List.append_inj hnames rfl
    obtain ⟨hbelow, hlast⟩ := List.append_inj' hrest rfl
    exact ⟨hdate, hbelow, String.toList_inj.mp (List.singleton_inj.mp hlast)⟩
  · rintro ⟨hdate, rfl, rfl⟩
    rw [hdate]

/-- The file of an ingested event lies in the directory of its day. -/
def Contained (root : String) (p : Platform) (env : RawEventEnvelope) : Prop :=
  Filepath.Inside (absPath root (datePath p)) (absPath root env.rawRef)

theorem ingest_rawRef {exists? : String → Bool} {writes : String → List UInt8 → Except String Unit}
    {inspect : List UInt8 → IngestStatus} {id : Ulid} {transport : String} {rawBytes : List UInt8}
    {env : RawEventEnvelope}
    (h : ingest p (.ok id) ⟨localFSStore p exists? writes, inspect⟩ sourceID transport rawBytes =
      .ok env) : env.rawRef = rawRefOf p sourceID id.text := by
  obtain ⟨_, rawRef, hid, -, -, -, hstored, rfl⟩ := ingest_eq_ok h
  cases hid
  exact localFSStore_eq_ok hstored

/-- Two events of different sources are stored apart and each in the directory of
its day, exactly when both source ids stay below it and, where the day and the
event id are the same, enter different names. -/
theorem contained_apart_iff {exists₁ exists₂ : String → Bool}
    {writes₁ writes₂ : String → List UInt8 → Except String Unit}
    {inspect₁ inspect₂ : List UInt8 → IngestStatus} {p₁ p₂ : Platform} {id₁ id₂ : Ulid}
    {source₁ source₂ transport₁ transport₂ : String} {rawBytes₁ rawBytes₂ : List UInt8}
    {env₁ env₂ : RawEventEnvelope}
    (h₁ : ingest p₁ (.ok id₁) ⟨localFSStore p₁ exists₁ writes₁, inspect₁⟩ source₁ transport₁
      rawBytes₁ = .ok env₁)
    (h₂ : ingest p₂ (.ok id₂) ⟨localFSStore p₂ exists₂ writes₂, inspect₂⟩ source₂ transport₂
      rawBytes₂ = .ok env₂) :
    (Contained root p₁ env₁ ∧ Contained root p₂ env₂ ∧
        (source₁ ≠ source₂ → absPath root env₁.rawRef ≠ absPath root env₂.rawRef)) ↔
      StaysBelow (dayDir root p₁) source₁ ∧ StaysBelow (dayDir root p₂) source₂ ∧
        (source₁ ≠ source₂ → storeDate p₁ ≠ storeDate p₂ ∨ id₁.text ≠ id₂.text ∨
          below (dayDir root p₁) source₁ ≠ below (dayDir root p₂) source₂) := by
  rw [Contained, Contained, ingest_rawRef h₁, ingest_rawRef h₂,
    inside_iff_staysBelow (proper_ulid id₁), inside_iff_staysBelow (proper_ulid id₂)]
  refine and_congr_right fun hbelow₁ => and_congr_right fun hbelow₂ => imp_congr_right fun _ => ?_
  rw [Ne, absPath_eq_iff (proper_ulid id₁) (proper_ulid id₂) hbelow₁ hbelow₂]
  tauto

theorem exists_ingest (p : Platform) (inspect : List UInt8 → IngestStatus) (id : Ulid)
    (sourceID transport : String) (rawBytes : List UInt8) (hsource : sourceID ≠ "")
    (htransport : transport ∈ validTransports) (hbytes : rawBytes.isEmpty = false) :
    ∃ env, ingest p (.ok id) ⟨localFSStore p (fun _ => false) fun _ _ => .ok (), inspect⟩ sourceID
      transport rawBytes = .ok env := by
  simp [ingest, newRawEventEnvelopeWithStatus, generateULID, localFSStore_eq, hsource, htransport,
    hbytes, Except.map, Except.mapError, bind, Except.bind, pure, Except.pure]

instance (dir : CleanPath) (sourceID : String) : Decidable (StaysBelow dir sourceID) :=
  inferInstanceAs (Decidable (_ ∧ _))

theorem contained_apart_sources :
    absPath "/data" (rawRefOf .plain "fw-1" (Ulid.text 0)) ≠
      absPath "/data" (rawRefOf .plain "fw/2" (Ulid.text 0)) := by
  obtain ⟨env₁, henv₁⟩ := exists_ingest .plain (fun _ => .accepted) 0 "fw-1" "http" [65]
    (by decide) (by decide) (by decide)
  obtain ⟨env₂, henv₂⟩ := exists_ingest .plain (fun _ => .accepted) 0 "fw/2" "http" [65]
    (by decide) (by decide) (by decide)
  have happart : Contained "/data" .plain env₁ ∧ _ :=
    (contained_apart_iff henv₁ henv₂).mpr (by decide +kernel)
  rw [ingest_rawRef henv₁, ingest_rawRef henv₂] at happart
  exact happart.2.2 (by decide)

/-- A source id of `..` components leaves the root of the store. -/
theorem not_contained_dotdot :
    ¬ ∀ (root : String) (p : Platform) (id : Ulid) (exists? : String → Bool)
      (writes : String → List UInt8 → Except String Unit) (inspect : List UInt8 → IngestStatus)
      (sourceID transport : String) (rawBytes : List UInt8) (env : RawEventEnvelope),
      ingest p (.ok id) ⟨localFSStore p exists? writes, inspect⟩ sourceID transport rawBytes =
        .ok env → Contained root p env := by
  intro h
  obtain ⟨env, henv⟩ := exists_ingest .plain (fun _ => .accepted) 0 "../../../../../etc" "http" [65]
    (by decide) (by decide) (by decide)
  have hcontained := h "/data" _ _ _ _ _ _ _ _ _ henv
  rw [Contained, ingest_rawRef henv, inside_iff_staysBelow (proper_ulid 0)] at hcontained
  revert hcontained
  decide +kernel

end Containment

end Ulpf.IngestGateway
