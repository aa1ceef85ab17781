import Ulpf.Python.Value

/-!
The `json` module: `json.loads` with the exception it raises, and `json.dumps`
on several lines. The reader goes through a text from the left and stops at the
first thing it cannot take: a character that no document has there, an integer
of too many digits, or a container inside as many others as the interpreter
follows.
-/

namespace Ulpf.Python

open Ulpf.Lib
open Ulpf.Lib.JsonText

/-- The exceptions of `json.loads`. -/
inductive LoadError where
  | jsonDecodeError
  | valueError
  | recursionError
  deriving DecidableEq

def loadOptions : Options := ⟨true, none⟩

mutual

/-- What other than a wrong character stops the reader in the value a text
begins with. The second argument bounds the recursion, the third counts the
open containers. -/
def stopInValue (limit : ℕ) : ℕ → ℕ → List Char → Option LoadError
  | 0, _, _ => none
  | fuel + 1, depth, s =>
      match s with
      | '[' :: rest =>
          if depth < limit then
            match skipSpace rest with
            | ']' :: _ => none
            | inner => stopInItems limit fuel (depth + 1) inner
          else some .recursionError
      | '{' :: rest =>
          if depth < limit then
            match skipSpace rest with
            | '}' :: _ => none
            | inner => stopInMembers limit fuel (depth + 1) inner
          else some .recursionError
      | s => do
          let (n, _) ← parseNumber s
          if (ofNumLit? n).isSome then none else some .valueError

/-- The exception that ends the reading of the items of an array. -/
def stopInItems (limit : ℕ) : ℕ → ℕ → List Char → Option LoadError
  | 0, _, _ => none
  | fuel + 1, depth, s =>
      stopInValue limit fuel depth s <|> do
        let (_, after) ← parseValue loadOptions fuel depth s
        match skipSpace after with
        | ',' :: rest => stopInItems limit fuel depth (skipSpace rest)
        | _ => none

def stopInMembers (limit : ℕ) : ℕ → ℕ → List Char → Option LoadError
  | 0, _, _ => none
  | fuel + 1, depth, s =>
      match s with
      | '"' :: rest => do
          let (_, after) ← parseString rest
          match skipSpace after with
          | ':' :: value =>
              stopInValue limit fuel depth (skipSpace value) <|> do
                let (_, after) ← parseValue loadOptions fuel depth (skipSpace value)
                match skipSpace after with
                | ',' :: rest => stopInMembers limit fuel depth (skipSpace rest)
                | _ => none
          | _ => none
      | _ => none

end

/-- What other than a wrong character stops the reader of a text. -/
def stopInText (limit : ℕ) (s : String) : Option LoadError :=
  stopInValue limit (2 * s.toList.length + 1) 0 (skipSpace s.toList)

/-- `json.loads(s)` where the interpreter follows `limit` nested containers. -/
def loadsWithin (limit : ℕ) (s : String) : Except LoadError PyVal :=
  match stopInText limit s with
  | some e => .error e
  | none =>
      match loads s with
      | some doc => .ok doc
      | none => .error .jsonDecodeError

example : loadsWithin 2 "[[[" = .error .recursionError := by decide +kernel

example : loadsWithin 2 "[[,[" = .error .jsonDecodeError := by decide +kernel

theorem loadsWithin_eq_ok_iff {limit : ℕ} {s : String} {doc : PyVal} :
    loadsWithin limit s = .ok doc ↔ stopInText limit s = none ∧ loads s = some doc := by
  unfold loadsWithin
  cases stopInText limit s <;> cases loads s <;> simp

theorem loadsWithin_eq_recursionError_iff {limit : ℕ} {s : String} :
    loadsWithin limit s = .error .recursionError ↔
      stopInText limit s = some .recursionError := by
  unfold loadsWithin
  cases stopInText limit s <;> cases loads s <;> simp

def newline (width : ℕ) : List Char := '\n' :: List.replicate width ' '

mutual

/-- Text of a document inside lines indented by `margin`. -/
def renderIndented (indent margin : ℕ) : PyVal → List Char
  | .arr items =>
      if items.isEmpty then "[]".toList
      else '[' :: (renderItemLines indent (margin + indent) items ++ newline margin ++ [']'])
  | .obj members =>
      if members.isEmpty then ['\x7b', '\x7d']
      else '\x7b' ::
        (renderMemberLines indent (margin + indent) members ++ newline margin ++ ['\x7d'])
  | x => render jsonNum x

def renderItemLines (indent margin : ℕ) : List PyVal → List Char
  | [] => []
  | [x] => newline margin ++ renderIndented indent margin x
  | x :: y :: ys =>
      newline margin ++ renderIndented indent margin x ++
        ',' :: renderItemLines indent margin (y :: ys)

def renderMemberLines (indent margin : ℕ) : List (String × PyVal) → List Char
  | [] => []
  | [(k, x)] =>
      newline margin ++ renderString k ++ ':' :: ' ' :: renderIndented indent margin x
  | (k, x) :: m :: ms =>
      newline margin ++ renderString k ++ ':' :: ' ' ::
        (renderIndented indent margin x ++ ',' :: renderMemberLines indent margin (m :: ms))

end

/-- `json.dumps(x, indent=indent)`. -/
def dumpsIndent (indent : ℕ) (x : PyVal) : String := String.ofList (renderIndented indent 0 x)

end Ulpf.Python
