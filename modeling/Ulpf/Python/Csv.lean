import Ulpf.Python.Value

/-!
The reader of Python's `csv` module in its default dialect: double quotes,
doubled inside a quoted field, no escape character, not strict.
-/

namespace Ulpf.Python.Csv

/-- The states of the reader of the `csv` module. -/
inductive State where
  | startRecord
  | startField
  | inField
  | inQuotedField
  | quoteInQuotedField
  | eatCrnl
  deriving DecidableEq

/-- The reader: its state, the field being read and the fields read, both with
the latest first. -/
structure Reader where
  state : State
  field : List Char
  fields : List (List Char)

/-- A field ends. -/
def Reader.saveField (r : Reader) (next : State) : Reader :=
  ⟨next, [], r.field.reverse :: r.fields⟩

/-- `csv.field_size_limit()`, as it stands by default. -/
def fieldLimit : ℕ := 131072

/-- A character goes on with a field, up to the limit. -/
def Reader.addChar (r : Reader) (c : Char) (next : State) : Option Reader :=
  if fieldLimit ≤ r.field.length then none else some ⟨next, c :: r.field, r.fields⟩

def isNewline (c : Option Char) : Bool := c = some '\n' || c = some '\r'

/-- The state behind an end of a line. -/
def afterLine (c : Option Char) : State := if c.isNone then .startRecord else .eatCrnl

/-- The first character of a field. -/
def Reader.beginField (delimiter : Char) (r : Reader) (c : Option Char) : Option Reader :=
  if isNewline c || c.isNone then some (r.saveField (afterLine c))
  else if c = some '"' then some ⟨.inQuotedField, r.field, r.fields⟩
  else if c = some delimiter then some (r.saveField .startField)
  else r.addChar (c.getD ' ') .inField

/-- One character, or the end of the line; `none` is an error of the module. -/
def Reader.step (delimiter : Char) (r : Reader) (c : Option Char) : Option Reader :=
  match r.state with
  | .startRecord =>
      if c.isNone then some r
      else if isNewline c then some { r with state := .eatCrnl }
      else r.beginField delimiter c
  | .startField => r.beginField delimiter c
  | .inField =>
      if isNewline c || c.isNone then some (r.saveField (afterLine c))
      else if c = some delimiter then some (r.saveField .startField)
      else r.addChar (c.getD ' ') .inField
  | .inQuotedField =>
      match c with
      | none => some r
      | some '"' => some { r with state := .quoteInQuotedField }
      | some x => r.addChar x .inQuotedField
  | .quoteInQuotedField =>
      if c = some '"' then r.addChar '"' .inQuotedField
      else if c = some delimiter then some (r.saveField .startField)
      else if isNewline c || c.isNone then some (r.saveField (afterLine c))
      else r.addChar (c.getD ' ') .inField
  | .eatCrnl =>
      if isNewline c then some r
      else if c.isNone then some { r with state := .startRecord }
      else none

/-- `next(csv.reader([line], delimiter=delimiter))`. -/
def readRow (delimiter : Char) (line : List Char) : Option (List String) := do
  let init : Reader := ⟨.startRecord, [], []⟩
  let r : Reader ← (line.map some ++ [none]).foldlM (Reader.step delimiter) init
  -- a quoted field left open at the end of the input is closed there
  let fields := if r.state = State.startRecord then r.fields else r.field.reverse :: r.fields
  return fields.reverse.map String.ofList

end Ulpf.Python.Csv
