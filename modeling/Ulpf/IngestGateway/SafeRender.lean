import Ulpf.Go.Utf8
import Ulpf.Lib.RegexSearch
import Mathlib.Data.List.Forall2

/-!
`SafeRender`: an untrusted text loses its terminal sequences, its control characters are
written out, and what means something in HTML becomes an entity. What is left is inert, and
it says which runes of the input it shows.
-/

namespace Ulpf.IngestGateway

open Ulpf.Lib
open Ulpf.Lib.Regex
open Ulpf.Go

section Rendering

/-- `\x1b\[[0-9;]*[a-zA-Z]` -/
def ansiRegex : Regex :=
  all [char (· = '\x1b'), text "[", many (alt (range '0' '9') (text ";")),
    alt (range 'a' 'z') (range 'A' 'Z')]

/-- A byte as the character of that number. The pattern names only ASCII characters, so it
matches among the bytes of a string what it matches among its runes. -/
def byteChar (b : UInt8) : Char := Char.ofNat b.toNat

/-- The runes of `ansiRegex.ReplaceAllString(untrusted, "")`. -/
def stripAnsi (untrusted : GoString) : List Char :=
  decodeFrom 0 ((removeAll ansiRegex (untrusted.map byteChar)).map Char.toNat)

/-- `%02x` of a number below 256. -/
def hex2 (n : ℕ) : List Char := [Nat.digitChar (n / 16), Nat.digitChar (n % 16)]

/-- The characters that rendering keeps as they are. -/
def isRendered (r : Char) : Bool :=
  r = '\t' || r = '\n' || r = '\r' || (32 ≤ r.toNat && r.toNat ≠ 127)

/-- A rune as it is, or written out when it is a control character. -/
def neutralized (r : Char) : List Char :=
  if isRendered r then [r] else '\\' :: 'x' :: hex2 r.toNat

/-- The text whose entities are escaped at last. -/
def sanitized (untrusted : GoString) : List Char := (stripAnsi untrusted).flatMap neutralized

/-- What `html.EscapeString` escapes, with the names of the entities behind their ampersand. -/
def htmlEscapes : List (Char × List Char) :=
  [('&', "amp;".toList), ('\'', "#39;".toList), ('<', "lt;".toList), ('>', "gt;".toList),
    ('"', "#34;".toList)]

/-- `html.EscapeString` on one character. -/
def htmlEscape (c : Char) : List Char :=
  match htmlEscapes.find? fun entity => entity.1 = c with
  | Option.some entity => '&' :: entity.2
  | none => [c]

/-- `html.EscapeString` -/
def escapeString (s : List Char) : List Char := s.flatMap htmlEscape

/-- `SafeRender`: the text without terminal sequences and control characters, escaped for HTML. -/
def safeRender (untrusted : GoString) : List Char := escapeString (sanitized untrusted)

end Rendering

section Sequences

/-- The bytes of a terminal sequence: escape, bracket, digits and semicolons, a letter. -/
def AnsiSequence (s : GoString) : Prop :=
  ∃ params letter, s = 0x1b :: 0x5b :: (params ++ [letter]) ∧
    (∀ b ∈ params, (0x30 ≤ b ∧ b ≤ 0x39) ∨ b = 0x3b) ∧
    ((0x61 ≤ letter ∧ letter ≤ 0x7a) ∨ (0x41 ≤ letter ∧ letter ≤ 0x5a))

/-- What is left of a string when its terminal sequences are taken out, once and from the
left: a sequence goes, and a byte that begins none stays. -/
inductive StripsTo : GoString → GoString → Prop
  | nil : StripsTo [] []
  | sequence {s rest stripped : GoString} :
      AnsiSequence s → StripsTo rest stripped → StripsTo (s ++ rest) stripped
  | byte {b : UInt8} {rest stripped : GoString} :
      (∀ s, AnsiSequence s → ¬s <+: b :: rest) → StripsTo rest stripped →
      StripsTo (b :: rest) (b :: stripped)

/-- The characters of the parameters of a terminal sequence. -/
def isParameter (x : Char) : Bool := ('0' ≤ x && x ≤ '9') || x = ';'

def isLetter (x : Char) : Bool := ('a' ≤ x && x ≤ 'z') || ('A' ≤ x && x ≤ 'Z')

theorem toNat_byteChar (b : UInt8) : (byteChar b).toNat = b.toNat := by
  have hvalid : b.toNat.isValidChar := .inl (by have := b.toNat_lt; omega)
  rw [byteChar, Char.toNat, val_ofNat hvalid]

theorem map_toNat_byteChar (s : GoString) :
    (s.map byteChar).map Char.toNat = s.map UInt8.toNat := by
  rw [List.map_map]
  exact List.map_congr_left fun b _ => toNat_byteChar b

theorem byteChar_eq_iff {b : UInt8} {x : Char} : byteChar b = x ↔ b.toNat = x.toNat := by
  rw [← toNat_byteChar, Char.toNat_inj]

theorem le_byteChar {b : UInt8} {x : Char} : x ≤ byteChar b ↔ x.toNat ≤ b.toNat := by
  rw [← toNat_byteChar]
  exact UInt32.le_iff_toNat_le

theorem byteChar_le {b : UInt8} {x : Char} : byteChar b ≤ x ↔ b.toNat ≤ x.toNat := by
  rw [← toNat_byteChar]
  exact UInt32.le_iff_toNat_le

theorem isParameter_byteChar {b : UInt8} :
    isParameter (byteChar b) = true ↔ (0x30 ≤ b ∧ b ≤ 0x39) ∨ b = 0x3b := by
  simp only [isParameter, Bool.or_eq_true, Bool.and_eq_true, decide_eq_true_eq, byteChar_eq_iff,
    le_byteChar, byteChar_le, UInt8.le_iff_toNat_le, ← UInt8.toNat_inj]
  rfl

theorem isLetter_byteChar {b : UInt8} :
    isLetter (byteChar b) = true ↔ (0x61 ≤ b ∧ b ≤ 0x7a) ∨ (0x41 ≤ b ∧ b ≤ 0x5a) := by
  simp only [isLetter, Bool.or_eq_true, Bool.and_eq_true, decide_eq_true_eq, le_byteChar,
    byteChar_le, UInt8.le_iff_toNat_le]
  rfl

theorem single_bracket : Single (text "[") (· = '[') := single_char _

theorem single_parameter : Single (alt (range '0' '9') (text ";")) isParameter :=
  (single_char _).alt (single_char _)

theorem single_letter : Single (alt (range 'a' 'z') (range 'A' 'Z')) isLetter :=
  (single_char _).alt (single_char _)

theorem mem_run_ansiRegex {c c' : Cursor} (h : c' ∈ run ansiRegex c) :
    ∃ params letter, c.rest = '\x1b' :: '[' :: (params ++ letter :: c'.rest) ∧
      (∀ x ∈ params, isParameter x = true) ∧ isLetter letter = true := by
  obtain ⟨c₁, h₁, h⟩ := List.mem_flatMap.mp h
  obtain ⟨c₂, h₂, h⟩ := List.mem_flatMap.mp h
  obtain ⟨c₃, h₃, h⟩ := List.mem_flatMap.mp h
  obtain ⟨e, he, hrest, -⟩ := mem_run_char.mp h₁
  obtain ⟨bracket, hbracket, hrest₁, -⟩ := (single_bracket c₁ c₂).mp h₂
  obtain ⟨params, hrest₂, hparams, -⟩ := single_parameter.exists_of_mem_run_star h₃
  obtain ⟨letter, hletter, hrest₃, -⟩ := (single_letter c₃ c').mp h
  obtain rfl := of_decide_eq_true he
  obtain rfl := of_decide_eq_true hbracket
  exact ⟨params, letter, by rw [hrest, hrest₁, hrest₂, hrest₃], hparams, hletter⟩

theorem exists_mem_run_ansiRegex (params : List Char) {letter : Char}
    (hparams : ∀ x ∈ params, isParameter x = true) (hletter : isLetter letter = true)
    (rest : List Char) (before : Option Char) :
    ∃ c', c' ∈ run ansiRegex ⟨before, '\x1b' :: '[' :: (params ++ letter :: rest), []⟩ := by
  obtain ⟨c₃, hc₃, hrest, -⟩ := single_parameter.exists_mem_run_star true hparams
    (letter :: rest) (Option.some '[') []
  refine ⟨⟨Option.some letter, rest, c₃.groups⟩, ?_⟩
  refine List.mem_flatMap.mpr ⟨⟨Option.some '\x1b', _, []⟩,
    mem_run_char.mpr ⟨'\x1b', rfl, rfl, rfl, rfl⟩, ?_⟩
  refine List.mem_flatMap.mpr ⟨⟨Option.some '[', _, []⟩,
    (single_bracket _ _).mpr ⟨'[', rfl, rfl, rfl, rfl⟩, ?_⟩
  refine List.mem_flatMap.mpr ⟨c₃, hc₃, ?_⟩
  exact (single_letter c₃ _).mpr ⟨letter, hletter, hrest, rfl, rfl⟩

theorem ansiSequence_of_mem_run {s : GoString} {before : Option Char} {c' : Cursor}
    (h : c' ∈ run ansiRegex ⟨before, s.map byteChar, []⟩) :
    ∃ read rest, s = read ++ rest ∧ AnsiSequence read ∧ c'.rest = rest.map byteChar := by
  obtain ⟨params, letter, hrest, hparams, hletter⟩ := mem_run_ansiRegex h
  obtain ⟨e, s₁, rfl, he, hs₁⟩ := List.map_eq_cons_iff.mp hrest
  obtain ⟨bracket, s₂, rfl, hbracket, hs₂⟩ := List.map_eq_cons_iff.mp hs₁
  obtain ⟨params', s₃, rfl, rfl, hs₃⟩ := List.map_eq_append_iff.mp hs₂
  obtain ⟨letter', rest, rfl, rfl, hrest'⟩ := List.map_eq_cons_iff.mp hs₃
  obtain rfl : e = 0x1b := UInt8.toNat_inj.mp (byteChar_eq_iff.mp he)
  obtain rfl : bracket = 0x5b := UInt8.toNat_inj.mp (byteChar_eq_iff.mp hbracket)
  refine ⟨0x1b :: 0x5b :: (params' ++ [letter']), rest, by simp, ?_, hrest'.symm⟩
  refine ⟨params', letter', rfl, fun b hb => ?_, isLetter_byteChar.mp hletter⟩
  exact isParameter_byteChar.mp (hparams _ (List.mem_map_of_mem hb))

theorem exists_mem_run_of_ansiSequence {s : GoString} (h : AnsiSequence s) (rest : GoString)
    (before : Option Char) : ∃ c', c' ∈ run ansiRegex ⟨before, (s ++ rest).map byteChar, []⟩ := by
  obtain ⟨params, letter, rfl, hparams, hletter⟩ := h
  obtain ⟨c', hc'⟩ := exists_mem_run_ansiRegex (params.map byteChar)
    (List.forall_mem_map.mpr fun b hb => isParameter_byteChar.mpr (hparams b hb))
    (isLetter_byteChar.mpr hletter) (rest.map byteChar) before
  refine ⟨c', ?_⟩
  rw [List.cons_append, List.cons_append, List.append_assoc, List.map_cons, List.map_cons,
    List.map_append]
  exact hc'

/-- The induction is on the length: behind a sequence the removal goes on further on. -/
theorem stripsTo_removeFrom (s : GoString) (before : Option Char) :
    ∃ stripped, removeFrom ansiRegex 0 before (s.map byteChar) = stripped.map byteChar ∧
      StripsTo s stripped := by
  induction hlength : s.length using Nat.strong_induction_on generalizing s before with
  | _ n ih =>
      cases s with
      | nil => exact ⟨[], rfl, .nil⟩
      | cons b s =>
          cases hhead : (run ansiRegex ⟨before, (b :: s).map byteChar, []⟩).head? with
          | some m =>
              obtain ⟨read, rest, hs, hread, hrest⟩ :=
                ansiSequence_of_mem_run (List.mem_of_mem_head? hhead)
              obtain ⟨params, letter, rfl, -⟩ := id hread
              have hmap : (b :: s).map byteChar = byteChar 0x1b ::
                  (0x5b :: (params ++ [letter])).map byteChar ++ m.rest := by
                rw [hs, List.map_append, hrest]
                rfl
              have hshorter : rest.length < n := by
                rw [← hlength, hs, List.length_append, List.length_cons]
                omega
              rw [hmap] at hhead ⊢
              obtain ⟨before', hbefore⟩ := removeFrom_of_head hhead
              obtain ⟨stripped, hstripped, hstrips⟩ := ih rest.length hshorter rest before' rfl
              exact ⟨stripped, by rw [hbefore, hrest, hstripped], hs ▸ .sequence hread hstrips⟩
          | none =>
              obtain ⟨stripped, hstripped, hstrips⟩ :=
                ih s.length (by rw [← hlength]; exact Nat.lt_succ_self _) s
                  (Option.some (byteChar b)) rfl
              refine ⟨b :: stripped, ?_, .byte ?_ hstrips⟩
              · rw [List.map_cons, removeFrom_of_head_none hhead, hstripped, List.map_cons]
              · rintro read hread ⟨rest, hrest⟩
                obtain ⟨c', hc'⟩ := exists_mem_run_of_ansiSequence hread rest before
                rw [hrest, List.head?_eq_none_iff.mp hhead] at hc'
                cases hc'

end Sequences

section Entities

/-- A text with the five entities read back. -/
def unescape : List Char → List Char
  | '&' :: 'a' :: 'm' :: 'p' :: ';' :: rest => '&' :: unescape rest
  | '&' :: '#' :: '3' :: '9' :: ';' :: rest => '\'' :: unescape rest
  | '&' :: 'l' :: 't' :: ';' :: rest => '<' :: unescape rest
  | '&' :: 'g' :: 't' :: ';' :: rest => '>' :: unescape rest
  | '&' :: '#' :: '3' :: '4' :: ';' :: rest => '"' :: unescape rest
  | c :: rest => c :: unescape rest
  | [] => []

theorem htmlEscape_cases (c : Char) :
    (∃ name, (c, name) ∈ htmlEscapes ∧ htmlEscape c = '&' :: name) ∨
      (∀ entity ∈ htmlEscapes, entity.1 ≠ c) ∧ htmlEscape c = [c] := by
  rw [htmlEscape]
  cases h : htmlEscapes.find? fun entity => entity.1 = c with
  | some entity =>
      left
      obtain rfl : entity.1 = c := by simpa using List.find?_some h
      exact ⟨entity.2, List.mem_of_find?_eq_some h, rfl⟩
  | none =>
      right
      exact ⟨by simpa using List.find?_eq_none.mp h, rfl⟩

theorem unescape_cons_of_ne {c : Char} (h : c ≠ '&') (rest : List Char) :
    unescape (c :: rest) = c :: unescape rest := by
  rw [unescape] <;>
  · rintro tail rfl
    exact absurd rfl h

theorem unescape_htmlEscape (c : Char) (rest : List Char) :
    unescape (htmlEscape c ++ rest) = c :: unescape rest := by
  obtain ⟨name, hname, hescape⟩ | ⟨hplain, hescape⟩ := htmlEscape_cases c
  · rw [hescape]
    simp only [htmlEscapes, List.mem_cons, List.not_mem_nil, or_false, Prod.mk.injEq] at hname
    obtain ⟨rfl, rfl⟩ | ⟨rfl, rfl⟩ | ⟨rfl, rfl⟩ | ⟨rfl, rfl⟩ | ⟨rfl, rfl⟩ := hname <;> rfl
  · have hamp : c ≠ '&' := (hplain ('&', "amp;".toList) (by simp [htmlEscapes])).symm
    rw [hescape, List.singleton_append, unescape_cons_of_ne hamp]

theorem unescape_escapeString (s : List Char) : unescape (escapeString s) = s := by
  induction s with
  | nil => rfl
  | cons c s ih =>
      rw [escapeString, List.flatMap_cons, unescape_htmlEscape]
      exact congrArg (c :: ·) ih

/-- An ampersand begins one of the entities. -/
def BeginsEntity (s : List Char) : Prop :=
  "&amp;".toList <+: s ∨ "&#39;".toList <+: s ∨ "&lt;".toList <+: s ∨ "&gt;".toList <+: s ∨
    "&#34;".toList <+: s

theorem beginsEntity_of_mem {entity : Char × List Char} (h : entity ∈ htmlEscapes)
    (rest : List Char) : BeginsEntity ('&' :: entity.2 ++ rest) := by
  simp only [htmlEscapes, List.mem_cons, List.not_mem_nil, or_false] at h
  obtain rfl | rfl | rfl | rfl | rfl := h
  · exact .inl ⟨rest, rfl⟩
  · exact .inr (.inl ⟨rest, rfl⟩)
  · exact .inr (.inr (.inl ⟨rest, rfl⟩))
  · exact .inr (.inr (.inr (.inl ⟨rest, rfl⟩)))
  · exact .inr (.inr (.inr (.inr ⟨rest, rfl⟩)))

theorem not_mem_name {entity : Char × List Char} (h : entity ∈ htmlEscapes) : '&' ∉ entity.2 := by
  simp only [htmlEscapes, List.mem_cons, List.not_mem_nil, or_false] at h
  obtain rfl | rfl | rfl | rfl | rfl := h <;> simp

/-- What begins with a character that a text does not contain begins behind the text. -/
theorem suffix_of_suffix_append {c : Char} {after rest : List Char} {name : List Char}
    (hc : c ∉ name) (h : c :: after <:+ name ++ rest) : c :: after <:+ rest := by
  induction name with
  | nil => exact h
  | cons d name ih =>
      rw [List.cons_append, List.suffix_cons_iff] at h
      obtain h | h := h
      · exact absurd (List.cons.inj h).1 (List.ne_of_not_mem_cons hc)
      · exact ih (List.not_mem_of_not_mem_cons hc) h

theorem beginsEntity_escapeString {s after : List Char} (h : '&' :: after <:+ escapeString s) :
    BeginsEntity ('&' :: after) := by
  induction s with
  | nil => simp [escapeString] at h
  | cons c s ih =>
      rw [escapeString, List.flatMap_cons] at h
      obtain ⟨name, hname, hescape⟩ | ⟨hplain, hescape⟩ := htmlEscape_cases c
      · rw [hescape, List.cons_append, List.suffix_cons_iff] at h
        obtain h | h := h
        · rw [h]
          exact beginsEntity_of_mem hname (escapeString s)
        · exact ih (suffix_of_suffix_append (not_mem_name hname) h)
      · have hamp : c ≠ '&' := (hplain ('&', "amp;".toList) (by simp [htmlEscapes])).symm
        rw [hescape, List.singleton_append, List.suffix_cons_iff] at h
        obtain h | h := h
        · exact absurd (List.cons.inj h).1.symm hamp
        · exact ih h

end Entities

section Characters

/-- The characters that can end an attribute or begin a tag. -/
def quotesAndBrackets : List Char := ['<', '>', '"', '\'']

theorem isRendered_hex2 {n : ℕ} (h : n < 128) : (hex2 n).all isRendered = true := by
  revert n
  decide

theorem isRendered_neutralized {r c : Char} (hc : c ∈ neutralized r) : isRendered c = true := by
  rw [neutralized] at hc
  split at hc
  · rename_i hr
    rw [List.mem_singleton.mp hc]
    exact hr
  · rename_i hr
    have hcontrol : r.toNat < 128 := by
      by_contra hlarge
      refine hr ?_
      simp only [isRendered, Bool.or_eq_true, Bool.and_eq_true, decide_eq_true_eq]
      omega
    rw [List.mem_cons, List.mem_cons] at hc
    obtain rfl | rfl | hc := hc
    · rfl
    · rfl
    · exact List.all_eq_true.mp (isRendered_hex2 hcontrol) c hc

theorem isRendered_name {entity : Char × List Char} (h : entity ∈ htmlEscapes) :
    ('&' :: entity.2).all (fun d => isRendered d && !quotesAndBrackets.contains d) = true := by
  simp only [htmlEscapes, List.mem_cons, List.not_mem_nil, or_false] at h
  obtain rfl | rfl | rfl | rfl | rfl := h <;> decide

theorem isRendered_htmlEscape {c d : Char} (hc : isRendered c = true) (hd : d ∈ htmlEscape c) :
    isRendered d = true ∧ d ∉ quotesAndBrackets := by
  obtain ⟨name, hname, hescape⟩ | ⟨hplain, hescape⟩ := htmlEscape_cases c
  · rw [hescape] at hd
    simpa using List.all_eq_true.mp (isRendered_name hname) d hd
  · rw [hescape, List.mem_singleton] at hd
    subst hd
    refine ⟨hc, fun hmem => ?_⟩
    simp only [quotesAndBrackets, List.mem_cons, List.not_mem_nil, or_false] at hmem
    simp only [htmlEscapes, List.forall_mem_cons] at hplain
    obtain ⟨-, happos, hless, hgreater, hquote, -⟩ := hplain
    obtain rfl | rfl | rfl | rfl := hmem
    · exact hless rfl
    · exact hgreater rfl
    · exact hquote rfl
    · exact happos rfl

/-- A text that a terminal and a browser only show. -/
structure Inert (text : List Char) : Prop where
  controls : ∀ c ∈ text, c = '\t' ∨ c = '\n' ∨ c = '\r' ∨ 32 ≤ c.toNat ∧ c.toNat ≠ 127
  markup : ∀ c ∈ quotesAndBrackets, c ∉ text
  ampersands : ∀ after, '&' :: after <:+ text → BeginsEntity ('&' :: after)

theorem inert_escapeString {s : List Char} (h : ∀ c ∈ s, isRendered c = true) :
    Inert (escapeString s) := by
  have hmem : ∀ d ∈ escapeString s, isRendered d = true ∧ d ∉ quotesAndBrackets := by
    intro d hd
    obtain ⟨c, hc, hd⟩ := List.mem_flatMap.mp hd
    exact isRendered_htmlEscape (h c hc) hd
  constructor
  · intro c hc
    simpa [isRendered, or_assoc] using (hmem c hc).1
  · intro c hc htext
    exact (hmem c htext).2 hc
  · exact fun _ => beginsEntity_escapeString

/-- How a rune is shown: itself, or `\\x` and its two hexadecimal digits when it is a control
character other than tab, newline and carriage return. -/
inductive Shown : Char → List Char → Prop
  | plain {r : Char} : r = '\t' ∨ r = '\n' ∨ r = '\r' ∨ (32 ≤ r.toNat ∧ r.toNat ≠ 127) → Shown r [r]
  | control {r hi lo : Char} {i j : ℕ} : r ≠ '\t' → r ≠ '\n' → r ≠ '\r' →
      r.toNat < 32 ∨ r.toNat = 127 → r.toNat = 16 * i + j →
      "0123456789abcdef".toList[i]? = Option.some hi →
      "0123456789abcdef".toList[j]? = Option.some lo → Shown r ['\\', 'x', hi, lo]

theorem getElem?_digitChar {n : ℕ} (h : n < 16) :
    "0123456789abcdef".toList[n]? = Option.some (Nat.digitChar n) := by
  revert n
  decide

theorem shown_neutralized (r : Char) : Shown r (neutralized r) := by
  rw [neutralized]
  split
  · rename_i hr
    exact .plain (by simpa [isRendered, or_assoc] using hr)
  · rename_i hr
    simp only [isRendered, Bool.or_eq_true, Bool.and_eq_true, decide_eq_true_eq, not_or,
      not_and, ne_eq, not_not] at hr
    obtain ⟨⟨⟨htab, hnewline⟩, hreturn⟩, hcontrol⟩ := hr
    have hrange : r.toNat < 32 ∨ r.toNat = 127 := by omega
    exact .control htab hnewline hreturn hrange (Nat.div_add_mod r.toNat 16).symm
      (getElem?_digitChar (by omega)) (getElem?_digitChar (by omega))

/-- The input without its terminal sequences, every rune of it shown. -/
def Shows (untrusted : GoString) (text : List Char) : Prop :=
  ∃ stripped shown, StripsTo untrusted stripped ∧
    List.Forall₂ Shown (ofBytes stripped).toList shown ∧ text = shown.flatten

theorem shows_sanitized (untrusted : GoString) : Shows untrusted (sanitized untrusted) := by
  obtain ⟨stripped, hremoved, hstrips⟩ := stripsTo_removeFrom untrusted none
  refine ⟨stripped, (stripAnsi untrusted).map neutralized, hstrips, ?_, rfl⟩
  have hrunes : stripAnsi untrusted = (ofBytes stripped).toList := by
    rw [stripAnsi, removeAll, hremoved, map_toNat_byteChar, ofBytes, String.toList_ofList]
  rw [hrunes, List.forall₂_map_right_iff, List.forall₂_same]
  exact fun r _ => shown_neutralized r

/-- Whatever the sequences of the input, `SafeRender` returns an inert text, and with its
entities read back it shows the input. -/
theorem inert_safeRender (untrusted : GoString) :
    Inert (safeRender untrusted) ∧ Shows untrusted (unescape (safeRender untrusted)) := by
  constructor
  · apply inert_escapeString
    intro c hc
    obtain ⟨r, -, hc⟩ := List.mem_flatMap.mp hc
    exact isRendered_neutralized hc
  · rw [safeRender, unescape_escapeString]
    exact shows_sanitized untrusted

/-- A sequence inside of another one, an entity, a tag and a bell: the inner sequence goes,
and what is left of the outer one is shown. -/
theorem inert_safeRender_nested :
    let untrusted := utf8 "\x1b[3\x1b[0m1m&lt;<b>\x07"
    Inert (safeRender untrusted) ∧ Shows untrusted (unescape (safeRender untrusted)) ∧
      safeRender untrusted = "\\x1b[31m&amp;lt;&lt;b&gt;\\x07".toList := by
  intro untrusted
  obtain ⟨hinert, hshows⟩ := inert_safeRender untrusted
  exact ⟨hinert, hshows, by decide +kernel⟩

end Characters

end Ulpf.IngestGateway
