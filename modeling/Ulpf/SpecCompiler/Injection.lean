import Ulpf.Python.Literal
import Ulpf.SpecCompiler.Compiler

/-!
The generated Python function read back from its text: its literals denote the names of the
mappings just when the names need no escapes.
-/

namespace Ulpf.SpecCompiler

open Ulpf.Lib
open Ulpf.Python
open Ulpf.Deployment

section Reading

/-- A statement of the function as it is read: when the event has the tested key, the value of
the source key is assigned to the target key. -/
structure Copy where
  tested : List ℕ
  target : List ℕ
  source : List ℕ
  deriving DecidableEq

/-- The rest of a text after some characters that it has to begin with. -/
def expect (start s : List Char) : Option (List Char) :=
  if start.isPrefixOf s then some (s.drop start.length) else none

def testStart : List Char := "    if \"".toList

def assignStart : List Char := " in event:\n        parsed[\"".toList

def sourceStart : List Char := "] = event[\"".toList

def lineEnd : List Char := "]\n".toList

def lastLine : List Char := "    return parsed".toList

def firstLines : List Char := "def parse_log(event: dict) -> dict:\n    parsed = \x7b\x7d\n".toList

variable (named : List Char → Option Char)

/-- A copy at the head of a text, and the rest. -/
def readCopy (s : List Char) : Option (Copy × List Char) := do
  let s ← expect testStart s
  let (tested, s) ← readLiteral named s
  let s ← expect assignStart s
  let (target, s) ← readLiteral named s
  let s ← expect sourceStart s
  let (source, s) ← readLiteral named s
  let s ← expect lineEnd s
  return (⟨tested, target, source⟩, s)

def readCopies : ℕ → List Char → Option (List Copy)
  | 0, _ => none
  | fuel + 1, s =>
      if s = lastLine then some []
      else do
        let (copy, s) ← readCopy named s
        let copies ← readCopies fuel s
        return copy :: copies

/-- The statements of a function `parse_log`. A source text has no null character. -/
def readFunction (code : String) : Option (List Copy) :=
  if code.toList.contains '\x00' then none
  else do
    let s ← expect firstLines code.toList
    readCopies named (s.length + 1) s

end Reading

section Running

variable {α : Type}

/-- A statement fails when the source key is missing. -/
def Copy.run (event parsed : Dict (List ℕ) α) (c : Copy) : Option (Dict (List ℕ) α) :=
  if event.contains c.tested then (event.get? c.source).map fun value => parsed.set c.target value
  else some parsed

def runCopies (event : Dict (List ℕ) α) (copies : List Copy) : Option (Dict (List ℕ) α) :=
  copies.foldlM (fun parsed c => c.run event parsed) Dict.empty

def copyOf (m : FieldMapping) : Copy :=
  ⟨points m.rawField.toList, points m.canonicalField.toList, points m.rawField.toList⟩

/-- The mapped fields of an event under their canonical names. -/
def copied (event : Dict (List ℕ) α) (mappings : List FieldMapping) : Dict (List ℕ) α :=
  Dict.ofList (mappings.filterMap fun m =>
    (event.get? (points m.rawField.toList)).map fun value =>
      (points m.canonicalField.toList, value))

end Running

section Statements

variable {named : List Char → Option Char}

theorem expect_eq_some_iff {start s after : List Char} :
    expect start s = some after ↔ s = start ++ after := by
  rw [expect]
  split <;> rename_i hprefix
  · obtain ⟨tail, rfl⟩ := List.isPrefixOf_iff_prefix.mp hprefix
    simp
  · constructor
    · intro h
      cases h
    · rintro rfl
      exact absurd (by simp) hprefix

theorem expect_append (start s : List Char) : expect start (start ++ s) = some s :=
  expect_eq_some_iff.mpr rfl

/-- The lines of a mapping, before some text. -/
def statement (m : FieldMapping) (rest : List Char) : List Char :=
  testStart ++ (m.rawField.toList ++ '"' :: (assignStart ++ (m.canonicalField.toList ++ '"' ::
    (sourceStart ++ (m.rawField.toList ++ '"' :: (lineEnd ++ rest))))))

theorem assignStart_eq : assignStart =
    [' ', 'i', 'n', ' ', 'e', 'v', 'e', 'n', 't', ':', '\n'] ++ assignStart.drop 11 := by
  decide

theorem sourceStart_eq : sourceStart =
    [']', ' ', '=', ' ', 'e', 'v', 'e', 'n', 't', '['] ++ ['"'] := by
  decide

theorem lineEnd_eq : lineEnd = [']', '\n'] := by decide

theorem head?_assignStart (s : List Char) : (assignStart ++ s).head? ≠ some '"' := by
  rw [assignStart_eq]
  simp

theorem head?_sourceStart (s : List Char) : (sourceStart ++ s).head? ≠ some '"' := by
  rw [sourceStart_eq]
  simp

theorem head?_lineEnd (s : List Char) : (lineEnd ++ s).head? ≠ some '"' := by
  rw [lineEnd_eq]
  simp

theorem readCopy_of_plain {m : FieldMapping} (hraw : Plain m.rawField.toList)
    (hcanonical : Plain m.canonicalField.toList) (rest : List Char) :
    readCopy named (statement m rest) = some (copyOf m, rest) := by
  simp only [readCopy, statement, expect_append, Option.bind_eq_bind, Option.bind_some,
    readLiteral_of_plain hraw (head?_assignStart _), readLiteral_of_plain hraw (head?_lineEnd _),
    readLiteral_of_plain hcanonical (head?_sourceStart _)]
  rfl

theorem literalEnd_assignStart (s : List Char) : literalEnd (assignStart ++ s) = none := by
  rw [assignStart_eq]
  simp [literalEnd]

theorem literalEnd_sourceStart (s : List Char) :
    literalEnd (sourceStart ++ s) =
      some ([']', ' ', '=', ' ', 'e', 'v', 'e', 'n', 't', '['], s) := by
  rw [sourceStart_eq]
  simp [literalEnd]

theorem readLiteral_lineEnd (s : List Char) : readLiteral named (lineEnd ++ s) = none := by
  rw [lineEnd_eq, readLiteral]
  simp [literalEnd]

/-- Names that need no escapes. -/
def PlainNames (m : FieldMapping) : Prop := Plain m.rawField.toList ∧ Plain m.canonicalField.toList

theorem of_readCopy {m : FieldMapping} {rest after : List Char} {copy : Copy}
    (h : readCopy named (statement m rest) = some (copy, after))
    (htested : copy.tested = points m.rawField.toList)
    (htarget : copy.target = points m.canonicalField.toList) :
    PlainNames m := by
  rw [readCopy, statement, expect_append] at h
  simp only [Option.bind_eq_bind, Option.bind_some] at h
  obtain ⟨⟨tested, s₁⟩, hfirst, h⟩ := Option.bind_eq_some_iff.mp h
  obtain ⟨s₂, hassign, h⟩ := Option.bind_eq_some_iff.mp h
  obtain ⟨⟨target, s₃⟩, hsecond, h⟩ := Option.bind_eq_some_iff.mp h
  obtain ⟨s₄, hsource, h⟩ := Option.bind_eq_some_iff.mp h
  obtain ⟨⟨source, s₅⟩, hthird, h⟩ := Option.bind_eq_some_iff.mp h
  obtain ⟨s₆, hend, h⟩ := Option.bind_eq_some_iff.mp h
  obtain ⟨rfl, rfl⟩ := Prod.mk.inj (Option.some.inj h)
  dsimp only at htested htarget hassign hsource hthird hend
  subst htested htarget
  obtain ⟨hraw, rfl⟩ | ⟨body, hopen⟩ := of_readLiteral hfirst
  · refine ⟨hraw, ?_⟩
    rw [expect_append] at hassign
    obtain rfl := Option.some.inj hassign
    obtain ⟨hcanonical, -⟩ | ⟨body, hopen⟩ := of_readLiteral hsecond
    · exact hcanonical
    · -- The literal of the target would end where the one of the source begins, and no literal
      -- begins where that one ends.
      rw [literalEnd_sourceStart] at hopen
      obtain rfl := (Prod.mk.inj (Option.some.inj hopen)).2
      have hsplit := expect_eq_some_iff.mp hsource
      rw [sourceStart_eq, List.append_assoc, List.singleton_append] at hsplit
      have hnone : '"' ∉ m.rawField.toList := fun hmem => (hraw.inline '"' hmem).1 rfl
      obtain rfl := eq_of_append_quote hnone (by decide) hsplit
      rw [readLiteral_lineEnd] at hthird
      cases hthird
  · rw [literalEnd_assignStart] at hopen
    cases hopen

/-- The text of the function after its first lines. -/
def body (mappings : List FieldMapping) : List Char := mappings.foldr statement lastLine

theorem statement_ne_lastLine (m : FieldMapping) (rest : List Char) :
    statement m rest ≠ lastLine := by
  intro h
  have hstart : testStart = [' ', ' ', ' ', ' ', 'i'] ++ testStart.drop 5 := by decide
  have hlast : lastLine = [' ', ' ', ' ', ' ', 'r'] ++ lastLine.drop 5 := by decide
  rw [statement, hstart, hlast] at h
  simp at h

/-- The statements read as those of the mappings just when the names need no escapes, by
induction on the mappings. -/
theorem readCopies_body_iff {fuel : ℕ} {mappings : List FieldMapping}
    (hfuel : mappings.length < fuel) :
    readCopies named fuel (body mappings) = some (mappings.map copyOf) ↔
      ∀ m ∈ mappings, PlainNames m := by
  induction mappings generalizing fuel with
  | nil =>
      obtain ⟨fuel, rfl⟩ := Nat.exists_eq_add_one_of_ne_zero (Nat.ne_zero_of_lt hfuel)
      simp [body, readCopies]
  | cons m mappings ih =>
      obtain ⟨fuel, rfl⟩ := Nat.exists_eq_add_one_of_ne_zero (Nat.ne_zero_of_lt hfuel)
      have hbody : body (m :: mappings) = statement m (body mappings) := rfl
      have htail := ih (Nat.lt_of_succ_lt_succ hfuel)
      rw [hbody, readCopies, if_neg (statement_ne_lastLine _ _), List.map_cons,
        List.forall_mem_cons]
      constructor
      · intro h
        obtain ⟨⟨copy, after⟩, hcopy, h⟩ := Option.bind_eq_some_iff.mp h
        obtain ⟨copies, hcopies, h⟩ := Option.bind_eq_some_iff.mp h
        obtain ⟨rfl, rfl⟩ := List.cons.inj (Option.some.inj h)
        have hplain := of_readCopy hcopy rfl rfl
        rw [readCopy_of_plain hplain.1 hplain.2] at hcopy
        obtain ⟨-, rfl⟩ := Prod.mk.inj (Option.some.inj hcopy)
        exact ⟨hplain, htail.mp hcopies⟩
      · rintro ⟨hplain, hlater⟩
        rw [readCopy_of_plain hplain.1 hplain.2]
        simp [htail.mpr hlater]

theorem intercalate_concat (lines : List (List Char)) (last : List Char) :
    ['\n'].intercalate (lines ++ [last]) = lines.flatMap (· ++ ['\n']) ++ last := by
  induction lines with
  | nil => simp
  | cons line lines ih =>
      have hne : lines ++ [last] ≠ [] := by simp
      rw [List.cons_append, List.intercalate_cons_of_ne_nil hne, ih, List.flatMap_cons]
      simp

theorem regroup_lines
    {start inEvent parsed source close test assign src last raw canonical rest : List Char}
    (htest : start = test) (hassign : inEvent ++ ['\n'] ++ parsed = '"' :: assign)
    (hsource : source = '"' :: src) (hlast : close ++ ['\n'] = '"' :: last) :
    start ++ raw ++ inEvent ++ ['\n'] ++
        (parsed ++ canonical ++ source ++ raw ++ close ++ ['\n'] ++ []) ++ rest =
      test ++ (raw ++ '"' :: (assign ++ (canonical ++ '"' ::
        (src ++ (raw ++ '"' :: (last ++ rest)))))) := by
  calc _ = start ++ (raw ++ ((inEvent ++ ['\n'] ++ parsed) ++
        (canonical ++ (source ++ (raw ++ ((close ++ ['\n']) ++ rest)))))) := by simp
    _ = _ := by rw [htest, hassign, hsource, hlast]; rfl

theorem lines_eq_statement (m : FieldMapping) (rest : List Char) :
    ((PyStatement.mk m.rawField m.canonicalField).lines.map String.toList).flatMap (· ++ ['\n']) ++
      rest = statement m rest := by
  have hassign : "\" in event:".toList ++ ['\n'] ++ "        parsed[\"".toList =
      '"' :: assignStart := by
    decide
  have hsource : "\"] = event[\"".toList = '"' :: sourceStart := by decide
  have hlast : "\"]".toList ++ ['\n'] = '"' :: lineEnd := by decide
  simp only [PyStatement.lines, List.map_cons, List.map_nil, List.flatMap_cons, List.flatMap_nil,
    String.toList_append]
  exact regroup_lines rfl hassign hsource hlast

theorem body_eq (mappings : List FieldMapping) :
    (((pythonNative mappings).flatMap PyStatement.lines).map String.toList).flatMap (· ++ ['\n']) ++
      lastLine = body mappings := by
  induction mappings with
  | nil => rfl
  | cons m mappings ih =>
      have hbody : body (m :: mappings) = statement m (body mappings) := rfl
      rw [hbody, ← ih, ← lines_eq_statement, pythonNative, List.map_cons, List.flatMap_cons,
        List.map_append, List.flatMap_append, List.append_assoc]
      rfl

theorem intercalate_lines {first second last start end' : List Char} (lines : List (List Char))
    (hstart : first ++ ['\n'] ++ (second ++ ['\n']) = start)
    (hend : lines.flatMap (· ++ ['\n']) ++ last = end') :
    ['\n'].intercalate ([first, second] ++ lines ++ [last]) = start ++ end' := by
  rw [intercalate_concat, List.flatMap_append, List.append_assoc, hend, ← hstart]
  simp

theorem toList_pythonNativeCode (mappings : List FieldMapping) :
    (pythonNativeCode mappings).toList = firstLines ++ body mappings := by
  have hstart : "def parse_log(event: dict) -> dict:".toList ++ ['\n'] ++
      ("    parsed = \x7b\x7d".toList ++ ['\n']) = firstLines := by
    decide
  have hline : "\n".toList = ['\n'] := by decide
  have hend := intercalate_lines _ hstart (body_eq mappings)
  simp only [pythonNativeCode, String.toList_intercalate, List.map_append, List.map_cons,
    List.map_nil, hline]
  exact hend

end Statements

section Safety

variable {α : Type}

theorem foldlM_copyOf (event parsed : Dict (List ℕ) α) (mappings : List FieldMapping) :
    (mappings.map copyOf).foldlM (fun parsed c => c.run event parsed) parsed =
      some (parsed.update (mappings.filterMap fun m =>
        (event.get? (points m.rawField.toList)).map fun value =>
          (points m.canonicalField.toList, value))) := by
  induction mappings generalizing parsed with
  | nil => rfl
  | cons m mappings ih =>
      rw [List.map_cons, List.foldlM_cons, Copy.run]
      cases hget : event.get? (points m.rawField.toList) with
      | none =>
          have habsent : event.contains (copyOf m).tested = false := by
            rw [← Bool.not_eq_true, Dict.contains_iff, Dict.mem_keys_iff]
            exact fun h => by rw [copyOf, hget] at h; cases h
          rw [habsent, List.filterMap_cons, hget]
          exact ih parsed
      | some value =>
          have hpresent : event.contains (copyOf m).tested = true := by
            rw [Dict.contains_iff, Dict.mem_keys_iff, copyOf, hget]
            rfl
          have hsource : event.get? (copyOf m).source = some value := hget
          rw [hpresent, if_pos rfl, hsource, List.filterMap_cons, hget]
          exact ih (parsed.set (points m.canonicalField.toList) value)

theorem length_le_body (mappings : List FieldMapping) :
    mappings.length ≤ (body mappings).length := by
  induction mappings with
  | nil => exact Nat.zero_le _
  | cons m mappings ih =>
      have hbody : body (m :: mappings) = statement m (body mappings) := rfl
      rw [hbody]
      simp only [statement, List.length_append, List.length_cons]
      omega

theorem mem_statement {m : FieldMapping} {rest : List Char} :
    '\x00' ∈ statement m rest ↔
      '\x00' ∈ m.rawField.toList ∨ '\x00' ∈ m.canonicalField.toList ∨ '\x00' ∈ rest := by
  have hstart : '\x00' ∉ testStart := by decide
  have hassign : '\x00' ∉ assignStart := by decide
  have hsource : '\x00' ∉ sourceStart := by decide
  have hend : '\x00' ∉ lineEnd := by decide
  have hquote : '\x00' ≠ '"' := by decide
  simp only [statement, List.mem_append, List.mem_cons, hstart, hassign, hsource, hend, hquote,
    false_or]
  tauto

theorem mem_body {mappings : List FieldMapping} : '\x00' ∈ body mappings ↔
    ∃ m ∈ mappings, '\x00' ∈ m.rawField.toList ∨ '\x00' ∈ m.canonicalField.toList := by
  induction mappings with
  | nil => decide
  | cons m mappings ih =>
      have hbody : body (m :: mappings) = statement m (body mappings) := rfl
      rw [hbody, mem_statement, ih, List.exists_mem_cons_iff, or_assoc]

/-- The emitted text is the function that copies each raw field to its canonical name, and
running it copies the mapped fields of an event. -/
structure Faithful (named : List Char → Option Char) (mappings : List FieldMapping) : Prop where
  denotes : readFunction named (pythonNativeCode mappings) = some (mappings.map copyOf)
  copies : ∀ {α : Type} (event : Dict (List ℕ) α),
    runCopies event (mappings.map copyOf) = some (copied event mappings)

/-- A name that the emitted text can hold as it is. -/
def Writable (name : String) : Prop := Plain name.toList ∧ '\x00' ∉ name.toList

/-- The emitted text is faithful just when all names can stand in it as they are. -/
theorem faithful_iff (named : List Char → Option Char) (mappings : List FieldMapping) :
    Faithful named mappings ↔
      ∀ m ∈ mappings, Writable m.rawField ∧ Writable m.canonicalField := by
  have hread : readFunction named (pythonNativeCode mappings) = some (mappings.map copyOf) ↔
      '\x00' ∉ body mappings ∧ ∀ m ∈ mappings, PlainNames m := by
    have hfirst : '\x00' ∉ firstLines := by decide
    have hfuel : mappings.length < (body mappings).length + 1 :=
      Nat.lt_succ_of_le (length_le_body mappings)
    have hcopies : readCopies named ((body mappings).length + 1) (body mappings) = _ ↔ _ :=
      readCopies_body_iff hfuel
    rw [readFunction, toList_pythonNativeCode, expect_append, ← hcopies]
    by_cases hnull : '\x00' ∈ body mappings
    · simp [hnull]
    · simp [hnull, hfirst]
  have hnames : ('\x00' ∉ body mappings ∧ ∀ m ∈ mappings, PlainNames m) ↔
      ∀ m ∈ mappings, Writable m.rawField ∧ Writable m.canonicalField := by
    rw [mem_body]
    simp only [not_exists, not_and, not_or]
    rw [← forall₂_and]
    refine forall₂_congr fun m _ => ?_
    rw [PlainNames, Writable, Writable]
    tauto
  rw [← hnames, ← hread]
  constructor
  · intro h
    exact h.denotes
  · intro h
    refine ⟨h, fun event => ?_⟩
    rw [runCopies, foldlM_copyOf]
    rfl

/-- A quote in a raw field ends its literal. -/
theorem not_faithful_quote :
    ¬ ∀ (named : List Char → Option Char) (mappings : List FieldMapping),
      Faithful named mappings := by
  intro h
  have hread := (h (fun _ => none) [⟨"\" or run() or \"", "user.name", none, false⟩]).denotes
  revert hread
  decide +kernel

end Safety

end Ulpf.SpecCompiler
