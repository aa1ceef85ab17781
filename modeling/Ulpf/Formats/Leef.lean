import Ulpf.Lib.Dict
import Ulpf.Lib.Escaping
import Ulpf.Lib.JsonText

/-!
Messages of the Log Event Extended Format 2.0 as they are written: the fields of a header, a
delimiter, and attributes with that delimiter between them.
-/

namespace Ulpf.Formats

open Ulpf.Lib
open Ulpf.Lib.Text

/-- A field of a header: the next pipe ends it. -/
structure LeefText where
  text : String
  no_pipe : '|' ∉ text.toList
  escaped : Escaped '|' text.toList

/-- A hexadecimal digit and its value. -/
structure HexDigit where
  char : Char
  value : ℕ
  hex : JsonText.hex? char = some value

theorem HexDigit.char_ne {c : Char} (h : JsonText.hex? c = none) (digit : HexDigit) :
    digit.char ≠ c := by
  rintro rfl
  rw [digit.hex] at h
  cases h

/-- How a message names its delimiter: as it is, or by a code of two digits. -/
inductive LeefDelimiter where
  | literal (c : Char) (hc : c ≠ '|')
  | code (zero : Bool) (high low : HexDigit)

namespace LeefDelimiter

/-- The text of the delimiter field. -/
def chars : LeefDelimiter → List Char
  | literal c _ => [c]
  | code zero high low => (if zero then ['0'] else []) ++ ['x', high.char, low.char]

/-- The character that stands between the attributes. -/
def char : LeefDelimiter → Char
  | literal c _ => c
  | code _ high low => Char.ofNat (16 * high.value + low.value)

end LeefDelimiter

/-- A key and its value; LEEF escapes neither. -/
def leefPair (entry : String × String) : List Char := entry.1.toList ++ '=' :: entry.2.toList

/-- The attributes of a message, with its delimiter between two. -/
def leefAttributes (d : Char) (attributes : List (String × String)) : List Char :=
  [d].intercalate (attributes.map leefPair)

/-- A message; its attributes are free of the delimiter, and each has a key of its own. -/
structure LeefMessage where
  vendor : LeefText
  product : LeefText
  version : LeefText
  eventId : LeefText
  delimiter : LeefDelimiter
  attributes : List (String × String)
  distinct : (attributes.map Prod.fst).Nodup
  free : ∀ entry ∈ attributes, delimiter.char ∉ entry.1.toList ∧ delimiter.char ∉ entry.2.toList

namespace LeefMessage

/-- The header of a message of version 2.0, with its delimiter field. -/
def header (m : LeefMessage) : List Char :=
  "LEEF:".toList ++ ("2.0".toList ++ '|' :: (m.vendor.text.toList ++
    '|' :: (m.product.text.toList ++ '|' :: (m.version.text.toList ++
    '|' :: (m.eventId.text.toList ++ '|' :: (m.delimiter.chars ++ ['|']))))))

/-- The attributes as they are written. -/
def extension (m : LeefMessage) : List Char := leefAttributes m.delimiter.char m.attributes

/-- A message as LEEF 2.0 writes it. -/
def write (m : LeefMessage) : String := String.ofList (m.header ++ m.extension)

/-- The value of an attribute. -/
def value? (m : LeefMessage) (k : String) : Option String := lookup k m.attributes

/-- The keys that a message has a value for in its header. -/
def headerKeys : List String := ["leef_version", "vendor", "product", "version", "event_id"]

end LeefMessage

section Extensions

variable {d : Char} {p : Char → Bool}

theorem leefAttributes_singleton (d : Char) (entry : String × String) :
    leefAttributes d [entry] = leefPair entry := List.intercalate_singleton

theorem leefAttributes_cons_cons (d : Char) (entry next : String × String)
    (attributes : List (String × String)) :
    leefAttributes d (entry :: next :: attributes) =
      leefPair entry ++ d :: leefAttributes d (next :: attributes) := by
  rw [leefAttributes, List.map_cons, List.map_cons, List.intercalate_cons_cons, List.append_assoc]
  rfl

theorem exists_leefAttributes_concat (d : Char) (attributes : List (String × String)) :
    ∃ before, ∀ entry, leefAttributes d (attributes ++ [entry]) = before ++ leefPair entry := by
  induction attributes with
  | nil => exact ⟨[], fun entry => leefAttributes_singleton d entry⟩
  | cons first attributes ih =>
      obtain ⟨before, hbefore⟩ := ih
      refine ⟨leefPair first ++ d :: before, fun entry => ?_⟩
      obtain ⟨next, others, hothers⟩ :=
        List.exists_cons_of_ne_nil (List.concat_ne_nil entry attributes)
      rw [List.cons_append, hothers, leefAttributes_cons_cons, ← hothers, hbefore,
        List.append_assoc, List.cons_append]

theorem rdropWhile_append_leefPair (hp : p '=' = false) (before : List Char)
    (entry : String × String) : (before ++ leefPair entry).rdropWhile p =
      before ++ leefPair (entry.1, String.ofList (entry.2.toList.rdropWhile p)) := by
  have hpair (value : List Char) : before ++ leefPair (entry.1, String.ofList value) =
      (before ++ entry.1.toList ++ ['=']) ++ value := by
    simp [leefPair]
  have hwritten := hpair entry.2.toList
  rw [String.ofList_toList] at hwritten
  rw [hpair, hwritten]
  apply rdropWhile_append
  rintro c hc
  rw [List.getLast?_concat] at hc
  cases hc
  exact hp

theorem rdropWhile_leefAttributes (hp : p '=' = false) (d : Char)
    (attributes : List (String × String)) (entry : String × String) :
    (leefAttributes d (attributes ++ [entry])).rdropWhile p = leefAttributes d
      (attributes ++ [(entry.1, String.ofList (entry.2.toList.rdropWhile p))]) := by
  obtain ⟨before, hbefore⟩ := exists_leefAttributes_concat d attributes
  rw [hbefore, hbefore, rdropWhile_append_leefPair hp]

end Extensions

namespace LeefMessage

theorem trim_write {p : Char → Bool} (hfirst : p 'L' = false) (hpipe : p '|' = false)
    (m : LeefMessage) : trim p m.write.toList = m.header ++ m.extension.rdropWhile p := by
  rw [write, String.toList_ofList]
  apply trim_append
  · simp [header]
  · rintro c ⟨⟩
    exact hfirst
  · intro c hc
    have hlast : m.header.getLast? = some '|' := by
      simp only [header, List.getLast?_append, List.getLast?_cons]
      simp
    rw [hlast] at hc
    cases hc
    exact hpipe

end LeefMessage

end Ulpf.Formats
