import Ulpf.Lib.Outcome
import Ulpf.SourceProfiler.Profiler

/-!
On which lines `parse_record` returns: the two parsers that can raise, and what of a
line makes them do so.
-/

namespace Ulpf.SourceProfiler

open Ulpf.Lib
open Ulpf.Lib.Regex (matchStart)
open Ulpf.Lib.Text
open Ulpf.Python

section Leef

variable {u : Unicode}

namespace LEEFParser

/-- The text in front of the attributes of a LEEF 2 line. -/
def delimiterText? (line : String) : Option (List Char) :=
  (matchStart leefHeaderRegex (strip line).toList).bind fun m =>
    match (m.groupD 1).head? == some '2', (m.groupD 6).span (· ≠ '|') with
    | true, (raw, _ :: _) => some raw
    | _, _ => none

/-- The character code a delimiter text stands for. -/
def delimiterCode? (u : Unicode) (raw : List Char) : Option ℤ :=
  if "x".toList.isPrefixOf raw || "0x".toList.isPrefixOf raw then
    parseHex u (replaceEach raw [("0x", ""), ("x", "")])
  else none

/-- A C integer holds the code. -/
def FitsInt (code : ℤ) : Prop := -2147483648 ≤ code ∧ code ≤ 2147483647

end LEEFParser

end Leef

section Syslog

namespace Syslog5424Parser

variable {u : Unicode}

/-- The structured data blocks of a line, without their brackets. -/
def blocks (u : Unicode) (line : String) : List (List Char) :=
  match matchStart (syslog5424Hdr u) (strip line).toList with
  | none => []
  | some m =>
      let rest := stripChars (m.groupD 7)
      if (m.groupD 7).isEmpty ∨ rest = ['-'] then []
      else if "- ".toList.isPrefixOf rest then []
      else (takeBlocks rest.length rest).1

theorem blockParts_eq_none_iff {inner : List Char} :
    blockParts inner = none ↔ stripChars inner = [] := by
  have hhead : ∀ c, (stripChars inner).head? = some c → isSpace c = false :=
    head?_trim isSpace inner
  rw [blockParts]
  generalize stripChars inner = text at *
  cases text with
  | nil => simp
  | cons c rest =>
      have hword : (!isSpace c) = true := by rw [hhead c rfl, Bool.not_false]
      rw [List.span_eq_takeWhile_dropWhile, List.takeWhile_cons, if_pos hword]
      split <;> simp_all

theorem returns_addBlock_iff {record : Record} {inner : List Char} :
    Returns (addBlock record inner) ↔ stripChars inner ≠ [] := by
  rw [Ne, ← blockParts_eq_none_iff, addBlock]
  cases blockParts inner with
  | none => simp
  | some parts => simp

end Syslog5424Parser

end Syslog

section Records

variable {u : Unicode} {rawLog : String} {hint : Option LogFormat}

/-- The format a line is parsed as. -/
def targetFormat (u : Unicode) (rawLog : String) (hint : Option LogFormat) : LogFormat :=
  match hint with
  | none | some .unknown => detectFormat u (strip rawLog)
  | some fmt => fmt

/-- No character code in front of LEEF attributes is too large for `chr`, and no
structured data block is blank. -/
def Readable (u : Unicode) (line : String) : LogFormat → Prop
  | .leef => ∀ raw, LEEFParser.delimiterText? line = some raw →
      ∀ code, LEEFParser.delimiterCode? u raw = some code → LEEFParser.FitsInt code
  | .syslogRfc5424 => ∀ inner ∈ Syslog5424Parser.blocks u line, stripChars inner ≠ []
  | _ => True

/-- A line that is blank, or readable in the format it is parsed as. -/
def Parses (u : Unicode) (rawLog : String) (hint : Option LogFormat) : Prop :=
  strip rawLog = "" ∨ Readable u (strip rawLog) (targetFormat u rawLog hint)

end Records

end Ulpf.SourceProfiler
