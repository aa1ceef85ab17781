import Ulpf.Lib.Escaping

/-!
Messages of RFC 5424 as they are written: a priority, the words of a header, structured data and
a text.
-/

namespace Ulpf.Formats

open Ulpf.Lib.Text

/-- Printable ASCII characters, without the blank. -/
def isGraphic (c : Char) : Bool := 33 ≤ c.toNat && c.toNat ≤ 126

/-- Characters of the names in structured data. -/
def isSdNameChar (c : Char) : Bool := isGraphic c && c ≠ '=' && c ≠ ']' && c ≠ '"'

/-- A text of certain characters that is not empty. -/
structure Word (p : Char → Bool) where
  text : String
  ne_nil : text.toList ≠ []
  chars : ∀ c ∈ text.toList, p c = true

/-- An element of structured data: its id and its parameters. -/
structure SdElement where
  id : Word isSdNameChar
  params : List (Word isSdNameChar × String)

/-- A message of RFC 5424, its header and structured data as the RFC has them. -/
structure SyslogMessage where
  priority : ℕ
  priority_le : priority ≤ 191
  timestamp : Word isGraphic
  hostname : Word isGraphic
  appName : Word isGraphic
  procId : Word isGraphic
  msgId : Word isGraphic
  elements : List SdElement
  text : String

/-- What is escaped in a parameter value. -/
def sdValueCode (c : Char) : Option Char := if c = '"' ∨ c = '\\' ∨ c = ']' then some c else none

/-- A parameter with its value in quotes, where the RFC escapes three characters. -/
def sdParam (param : Word isSdNameChar × String) : List Char :=
  ' ' :: (param.1.text.toList ++ '=' :: '"' :: (escape sdValueCode param.2.toList ++ ['"']))

/-- An element in its brackets. -/
def sdElement (element : SdElement) : List Char :=
  '[' :: (element.id.text.toList ++ (element.params.flatMap sdParam ++ [']']))

namespace SyslogMessage

/-- What stands before the structured data. -/
def header (m : SyslogMessage) : List Char :=
  '<' :: ((numeral m.priority).toList ++ '>' :: '1' :: ' ' :: (m.timestamp.text.toList ++
    ' ' :: (m.hostname.text.toList ++ ' ' :: (m.appName.text.toList ++
    ' ' :: (m.procId.text.toList ++ ' ' :: (m.msgId.text.toList ++ [' ']))))))

/-- The structured data of a message: a dash when there is none. -/
def structuredData (m : SyslogMessage) : List Char :=
  if m.elements.isEmpty then ['-'] else m.elements.flatMap sdElement

/-- A message as RFC 5424 writes it. -/
def write (m : SyslogMessage) : String :=
  String.ofList (m.header ++ (m.structuredData ++ ' ' :: m.text.toList))

/-- The text without what is trimmed at its end. -/
def textEnd (p : Char → Bool) (m : SyslogMessage) : List Char := m.text.toList.rdropWhile p

/-- What a trimmed message has behind its structured data. -/
def behind (p : Char → Bool) (m : SyslogMessage) : List Char := (' ' :: m.text.toList).rdropWhile p

theorem behind_eq {p : Char → Bool} (hp : p ' ' = true) (m : SyslogMessage) :
    m.behind p = if m.textEnd p = [] then [] else ' ' :: m.textEnd p := by
  rw [behind, rdropWhile_cons, ← textEnd]
  simp [hp]

theorem dropWhile_behind {p q : Char → Bool} (hp : p ' ' = true) (hq : q ' ' = true)
    (m : SyslogMessage) : (m.behind p).dropWhile q = (m.textEnd p).dropWhile q := by
  rw [behind_eq hp]
  split
  · rename_i h
    rw [h]
  · exact List.dropWhile_cons_of_pos hq

theorem length_textEnd_le {p : Char → Bool} (hp : p ' ' = true) (m : SyslogMessage) :
    (m.textEnd p).length ≤ (m.behind p).length := by
  rw [behind_eq hp]
  split
  · rename_i h
    rw [h]
  · exact Nat.le_succ _

theorem structuredData_eq (m : SyslogMessage) : m.structuredData = ['-'] ∧ m.elements = [] ∨
    m.elements ≠ [] ∧ ∃ inside, m.structuredData = '[' :: (inside ++ [']']) := by
  rw [structuredData]
  obtain hnil | ⟨front, last, hlast⟩ := List.eq_nil_or_concat' m.elements
  · exact Or.inl ⟨by rw [hnil]; rfl, hnil⟩
  · right
    have hne : m.elements ≠ [] := by
      rw [hlast]
      simp
    obtain ⟨first, others, hfirst⟩ := List.exists_cons_of_ne_nil hne
    have hopens : ∃ t, m.elements.flatMap sdElement = '[' :: t := by
      rw [hfirst, List.flatMap_cons, sdElement, List.cons_append]
      exact ⟨_, rfl⟩
    have hcloses : ∃ t, m.elements.flatMap sdElement = t ++ [']'] := by
      rw [hlast, List.flatMap_append, List.flatMap_singleton, sdElement, ← List.append_assoc,
        ← List.cons_append, ← List.append_assoc]
      exact ⟨_, rfl⟩
    obtain ⟨t, ht⟩ := hopens
    obtain ⟨t', ht'⟩ := hcloses
    refine ⟨hne, ?_⟩
    rw [if_neg (by simpa using hne), ht]
    cases t' with
    | nil =>
        rw [ht] at ht'
        exact absurd (List.cons.inj ht').1 (by decide)
    | cons c inside =>
        rw [ht] at ht'
        exact ⟨inside, congrArg ('[' :: ·) (List.cons.inj ht').2⟩

theorem structuredData_ne_nil (m : SyslogMessage) : m.structuredData ≠ [] := by
  obtain ⟨h, -⟩ | ⟨-, inside, h⟩ := m.structuredData_eq
  · rw [h]
    simp
  · rw [h]
    simp

theorem head?_structuredData_append (m : SyslogMessage) (s : List Char) :
    ∀ c ∈ (m.structuredData ++ s).head?, c = '-' ∨ c = '[' := by
  intro c hc
  rw [List.head?_append_of_ne_nil _ m.structuredData_ne_nil] at hc
  obtain ⟨h, -⟩ | ⟨-, inside, h⟩ := m.structuredData_eq
  · rw [h] at hc
    cases hc
    exact Or.inl rfl
  · rw [h] at hc
    cases hc
    exact Or.inr rfl

theorem getLast?_structuredData (m : SyslogMessage) :
    ∀ c ∈ m.structuredData.getLast?, c = '-' ∨ c = ']' := by
  intro c hc
  obtain ⟨h, -⟩ | ⟨-, inside, h⟩ := m.structuredData_eq
  · rw [h] at hc
    cases hc
    exact Or.inl rfl
  · rw [h, ← List.cons_append, List.getLast?_concat] at hc
    cases hc
    exact Or.inr rfl

theorem trim_data {p : Char → Bool} (hdash : p '-' = false) (hopen : p '[' = false)
    (hclose : p ']' = false) (m : SyslogMessage) :
    trim p (m.structuredData ++ m.behind p) = m.structuredData ++ m.behind p := by
  apply trim_eq_self
  · intro c hc
    obtain rfl | rfl := m.head?_structuredData_append _ c hc
    · exact hdash
    · exact hopen
  · intro c hc
    rw [List.getLast?_append] at hc
    obtain hc | ⟨-, hc⟩ := Option.or_eq_some_iff.mp hc
    · exact rdropWhile_eq_self_iff.mp (List.rdropWhile_idempotent ..) c hc
    · obtain rfl | rfl := m.getLast?_structuredData c hc
      · exact hdash
      · exact hclose

theorem trim_write {p : Char → Bool} (hless : p '<' = false) (hdash : p '-' = false)
    (hbracket : p ']' = false) (m : SyslogMessage) : trim p m.write.toList =
      m.header ++ (m.structuredData ++ m.behind p) := by
  have hlast (c : Char) (hc : c ∈ (m.header ++ m.structuredData).getLast?) : p c = false := by
    rw [List.getLast?_append_of_ne_nil _ m.structuredData_ne_nil] at hc
    obtain rfl | rfl := m.getLast?_structuredData c hc
    · exact hdash
    · exact hbracket
  rw [write, String.toList_ofList, ← List.append_assoc, trim_append _ (by simp [header]) _ hlast,
    List.append_assoc]
  · rfl
  · rintro c ⟨⟩
    exact hless

end SyslogMessage

end Ulpf.Formats
