import Ulpf.Go.Text

/-!
`Read` of Go's `encoding/csv`: one record, without comments and lazy quotes.
-/

namespace Ulpf.Go.Csv

/-- A line that is ended by a line feed. -/
def endsLine (line : List Char) : Bool := line.getLast? == some '\n'

/-- The lines of a text as `readLine` returns them: with their line feed, `\r\n`
as one, without a carriage return at the end of the text. -/
def linesFrom : List Char → List Char → List (List Char)
  | [], [] => []
  | '\r' :: line, [] => [line.reverse]
  | line, [] => [line.reverse]
  | '\r' :: line, '\n' :: rest => ('\n' :: line).reverse :: linesFrom [] rest
  | line, '\n' :: rest => ('\n' :: line).reverse :: linesFrom [] rest
  | line, c :: rest => linesFrom (c :: line) rest

def lines (s : List Char) : List (List Char) := linesFrom [] s

/-- `validDelim` -/
def validDelim (c : Char) : Bool :=
  c ≠ '\x00' && c ≠ '"' && c ≠ '\r' && c ≠ '\n' && c ≠ runeError

mutual

/-- The fields from the beginning of one on. -/
def readFields (comma : Char) :
    ℕ → List Char → List (List Char) → Option (List (List Char))
  | 0, _, _ => none
  | fuel + 1, line, more =>
      match line with
      | '"' :: body => readQuoted comma fuel [] body more
      | _ =>
          match line.span (· ≠ comma) with
          | (field, []) =>
              let field := if endsLine field then field.dropLast else field
              if field.contains '"' then none else some [field]
          | (field, _ :: rest) =>
              if field.contains '"' then none
              else (readFields comma fuel rest more).map fun fields => field :: fields

/-- The fields from the inside of a quoted one on, of which a part is read. -/
def readQuoted (comma : Char) :
    ℕ → List Char → List Char → List (List Char) → Option (List (List Char))
  | 0, _, _, _ => none
  | fuel + 1, part, line, more =>
      match line.span (· ≠ '"') with
      | (text, '"' :: '"' :: rest) => readQuoted comma fuel (part ++ text ++ ['"']) rest more
      | (text, _ :: rest) =>
          if rest.head? = some comma then
            (readFields comma fuel rest.tail more).map fun fields => (part ++ text) :: fields
          else if rest.isEmpty ∨ rest = ['\n'] then some [part ++ text]
          else none
      | (text, []) =>
          match text, more with
          | _ :: _, next :: more => readQuoted comma fuel (part ++ text) next more
          | _, _ => none

end

/-- `reader.Read()`: the first record; empty lines before it are passed over. -/
def read (comma : Char) (s : List Char) : Option (List String) :=
  if validDelim comma then
    match (lines s).dropWhile fun line => line.isEmpty || line = ['\n'] with
    | [] => none
    | line :: more =>
        (readFields comma (2 * s.length + 2) line more).map (List.map String.ofList)
  else none

end Ulpf.Go.Csv
