import Ulpf.Lib.Unicode

/-!
Go strings. A string is read as the runes a range loop over it yields, an
invalid byte as U+FFFD.
-/

namespace Ulpf.Go

open Ulpf.Lib
open Ulpf.Lib.Text

/-- What Go reads of bytes that are no UTF-8. -/
def runeError : Char := '\uFFFD'

/-- Payload bits of a continuation byte between two bounds, and what follows it. -/
def continuation (lo hi : ℕ) : List ℕ → Option (ℕ × List ℕ)
  | [] => none
  | b :: rest => if lo ≤ b ∧ b ≤ hi then some (b % 64, rest) else none

/-- The character a lead byte beyond ASCII begins, and the number of its bytes. -/
def decodeMulti (a : ℕ) (rest : List ℕ) : Option (Char × ℕ) :=
  if 0xC2 ≤ a ∧ a ≤ 0xDF then do
    let (b, _) ← continuation 0x80 0xBF rest
    return (Char.ofNat (a % 32 * 64 + b), 2)
  else if 0xE0 ≤ a ∧ a ≤ 0xEF then do
    -- no overlong forms, no surrogates
    let (b, rest) ← continuation (if a = 0xE0 then 0xA0 else 0x80)
      (if a = 0xED then 0x9F else 0xBF) rest
    let (c, _) ← continuation 0x80 0xBF rest
    return (Char.ofNat ((a % 16 * 64 + b) * 64 + c), 3)
  else if 0xF0 ≤ a ∧ a ≤ 0xF4 then do
    let (b, rest) ← continuation (if a = 0xF0 then 0x90 else 0x80)
      (if a = 0xF4 then 0x8F else 0xBF) rest
    let (c, rest) ← continuation 0x80 0xBF rest
    let (d, _) ← continuation 0x80 0xBF rest
    return (Char.ofNat (((a % 8 * 64 + b) * 64 + c) * 64 + d), 4)
  else none

/-- The runes of a byte sequence; the first argument counts the bytes of a
character still to be passed over. -/
def decodeFrom : ℕ → List ℕ → List Char
  | _, [] => []
  | skip + 1, _ :: rest => decodeFrom skip rest
  | 0, a :: rest =>
      if a < 0x80 then Char.ofNat a :: decodeFrom 0 rest
      else match decodeMulti a rest with
        | some (c, width) => c :: decodeFrom (width - 1) rest
        | none => runeError :: decodeFrom 0 rest

/-- `string(raw)`, rune by rune: bytes that are no UTF-8 read as `runeError`, where Go keeps
them in the string. -/
def ofBytes (raw : List UInt8) : String := String.ofList (decodeFrom 0 (raw.map UInt8.toNat))

/-- Whether a byte sequence is valid UTF-8; the first argument counts the bytes of a
character still to be passed over. -/
def validFrom : ℕ → List ℕ → Bool
  | _, [] => true
  | skip + 1, _ :: rest => validFrom skip rest
  | 0, a :: rest =>
      if a < 0x80 then validFrom 0 rest
      else match decodeMulti a rest with
        | some (_, width) => validFrom (width - 1) rest
        | none => false

/-- `utf8.Valid` -/
def utf8Valid (raw : List UInt8) : Bool := validFrom 0 (raw.map UInt8.toNat)

/-- The first byte of a character in UTF-8. -/
def leadByte (c : Char) : ℕ :=
  let n := c.toNat
  if n < 0x80 then n
  else if n < 0x800 then 0xC0 + n / 0x40
  else if n < 0x10000 then 0xE0 + n / 0x1000
  else 0xF0 + n / 0x40000

/-- `strings.TrimSpace` -/
def trimSpace (s : String) : String := onChars (trim Unicode.isSpace) s

/-- `strings.Fields` -/
def fields (s : List Char) : List (List Char) :=
  (s.splitOnP Unicode.isSpace).filter fun field => !field.isEmpty

/-- `strings.ToLower` -/
def toLower (u : Unicode) (s : String) : String := onChars (List.map u.lower) s

/-- `strings.ToUpper` -/
def toUpper (u : Unicode) (s : String) : String := onChars (List.map u.upper) s

theorem toLower_empty (u : Unicode) : toLower u "" = "" := rfl

theorem toLower_ascii (u : Unicode) {s : String}
    (h : s.toList.all (fun c => c.toNat < 128) = true) : toLower u s = toLower Unicode.ascii s := by
  rw [toLower, toLower, Text.onChars, Text.onChars]
  congr 1
  apply List.map_congr_left
  intro c hc
  exact u.lower_ascii c (by simpa using List.all_eq_true.mp h c hc)

/-- `strings.EqualFold` -/
def equalFold (u : Unicode) (s t : String) : Bool := s.toList.map u.fold == t.toList.map u.fold

section Blanks

theorem trimSpace_of_forall {ds : List Char} (h : ∀ c ∈ ds, Unicode.isSpace c = false) :
    trimSpace (String.ofList ds) = String.ofList ds := by
  rw [trimSpace, onChars, String.toList_ofList, trim_eq_self_of_forall h]

theorem isSpace_of_isDigit {c : Char} (hc : isDigit c = true) : Unicode.isSpace c = false := by
  obtain ⟨hlow, hhigh⟩ := toNat_of_isDigit hc
  rw [← Bool.not_eq_true]
  intro hspace
  simp only [Unicode.isSpace, Bool.or_eq_true, Bool.and_eq_true, decide_eq_true_eq] at hspace
  omega

end Blanks

end Ulpf.Go
