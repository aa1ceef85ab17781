import Ulpf.Lib.JsonText
import Ulpf.Lib.Unicode

/-!
Python data of the JSON shape: the operations of the language that read it,
with the exception each raises when applied to a value of the wrong kind.
-/

namespace Ulpf.Python

open Ulpf.Lib
open Ulpf.Lib.Text

/-- The exceptions of Python's operations. -/
inductive PyError where
  | attributeError
  | typeError
  | keyError
  | indexError
  | valueError
  | overflowError
  deriving DecidableEq

/-- A number of Python with its type. -/
inductive PyNum where
  | int (n : ℤ)
  | float (x : Binary64)
  deriving DecidableEq

/-- `None`, booleans, numbers, strings, lists and string-keyed dictionaries. -/
abbrev PyVal := Json PyNum

namespace PyVal

def int (n : ℤ) : PyVal := .num (.int n)

def float (x : Binary64) : PyVal := .num (.float x)

/-- The truth of a value. -/
def truthy : PyVal → Bool
  | .null => false
  | .bool b => b
  | .num (.int n) => n ≠ 0
  | .num (.float x) => x.toRat? ≠ some 0
  | .str s => s ≠ ""
  | .arr items => !items.isEmpty
  | .obj members => !members.isEmpty

/-- `isinstance(x, (int, float))`; a boolean is an integer. -/
def isNumber : PyVal → Bool
  | .num _ | .bool _ => true
  | _ => false

/-- `x or y`. -/
def orElse (x y : PyVal) : PyVal := if truthy x then x else y

def numEq : PyNum → PyNum → Bool
  | .int m, .int n => m == n
  | .int m, .float x | .float x, .int m => x.toRat? == some (m : ℚ)
  | .float x, .float y => x.numEq y

/-- A boolean counts as an integer. -/
def ofBool (b : Bool) : PyNum := .int (if b then 1 else 0)

/-- Whether a value is the NaN constant. Containers compare their items by
identity first, and JSON texts read every NaN as the same object. -/
def isNaN : PyVal → Bool
  | .num (.float .nan) => true
  | _ => false

mutual

/-- `x == y`. -/
def eq : PyVal → PyVal → Bool
  | .null, .null => true
  | .bool a, .bool b => a == b
  | .bool a, .num n => numEq (ofBool a) n
  | .num m, .bool b => numEq m (ofBool b)
  | .num m, .num n => numEq m n
  | .str a, .str b => a == b
  | .arr xs, .arr ys => eqItems xs ys
  | .obj xs, .obj ys => xs.length == ys.length && eqMembers xs ys
  | _, _ => false

/-- Items that are both NaN count as the same object, which is equal to itself. -/
def eqItems : List PyVal → List PyVal → Bool
  | [], [] => true
  | x :: xs, y :: ys => (isNaN x && isNaN y || eq x y) && eqItems xs ys
  | _, _ => false

def eqMembers : List (String × PyVal) → List (String × PyVal) → Bool
  | [], _ => true
  | (k, x) :: xs, ys =>
      (match lookup k ys with
        | some y => isNaN x && isNaN y || eq x y
        | none => false) && eqMembers xs ys

end

/-- `x.get(k, default)`. -/
def getD (x : PyVal) (k : String) (default : PyVal) : Except PyError PyVal :=
  match x with
  | .obj members => .ok ((lookup k members).getD default)
  | _ => .error .attributeError

/-- `k in x` for a string `k`. -/
def contains (x : PyVal) (k : String) : Except PyError Bool :=
  match x with
  | .obj members => .ok (lookup k members).isSome
  | .arr items => .ok (items.any fun y => eq y (.str k))
  | .str s => .ok (Text.contains s k)
  | _ => .error .typeError

/-- `x[k]` for a string `k`. -/
def getItem (x : PyVal) (k : String) : Except PyError PyVal :=
  match x with
  | .obj members =>
      match lookup k members with
      | some y => .ok y
      | none => .error .keyError
  | _ => .error .typeError

/-- `x.values()`. -/
def values (x : PyVal) : Except PyError (List PyVal) :=
  match x with
  | .obj members => .ok (members.map Prod.snd)
  | _ => .error .attributeError

theorem getD_eq_ok_iff {x v default : PyVal} {k : String} :
    getD x k default = .ok v ↔ x.isObj = true ∧ x.memberD k default = v := by
  cases x <;> simp [getD, Json.memberD, Json.isObj, Json.member?]

theorem getItem_eq_ok_iff {x v : PyVal} {k : String} :
    getItem x k = .ok v ↔ x.member? k = some v := by
  cases x with
  | obj members =>
      simp only [getItem, Json.member?]
      cases lookup k members <;> simp
  | _ => simp [getItem, Json.member?]

theorem contains_of_isObj {x : PyVal} (h : x.isObj = true) (k : String) :
    contains x k = .ok (x.member? k).isSome := by
  cases x <;> simp_all [contains, Json.isObj, Json.member?]

@[simp] theorem eq_str_iff {x : PyVal} {s : String} : eq x (.str s) = true ↔ x = .str s := by
  cases x <;> simp [eq]

end PyVal

/-- Lists and dictionaries are no members of a set and no keys of a dictionary. -/
def hashable : PyVal → Bool
  | .arr _ | .obj _ => false
  | _ => true

/-- `str.isspace` of one character. -/
def isSpace (c : Char) : Bool :=
  Unicode.isSpace c || (0x1C ≤ c.toNat && c.toNat ≤ 0x1F)

/-- `s.strip()`. -/
def strip (s : String) : String := onChars (trim isSpace) s

/-- `s.lower()`. -/
def lower (u : Unicode) (s : String) : String := onChars u.lowerText s

/-- `s.upper()`. -/
def upper (u : Unicode) (s : String) : String := onChars u.upperText s

/-- Values of a run of digits in which single underscores may stand between two
digits; the flag says whether an underscore may come next. -/
def digitValues (u : Unicode) : Bool → List Char → Option (List ℕ)
  | afterDigit, [] => if afterDigit then some [] else none
  | afterDigit, c :: rest =>
      if c = '_' then if afterDigit then
        match rest with
        | d :: _ => if (u.decimal d).isSome then digitValues u false rest else none
        | [] => none
      else none
      else do
        let d ← u.decimal c
        let ds ← digitValues u true rest
        return d :: ds

/-- Number of decimal digits up to which integers are read from texts and written. -/
def maxStrDigits : ℕ := 4300

def ofDigits (ds : List ℕ) : ℕ := ds.foldl (fun acc d => 10 * acc + d) 0

/-- `int(s)`. -/
def parseInt (u : Unicode) (s : String) : Option ℤ := do
  let (neg, body) := spanSign (trim isSpace s.toList)
  let ds ← digitValues u false body
  if maxStrDigits < ds.length then none
  else return if neg then - (ofDigits ds : ℤ) else ofDigits ds

/-- Digits with underscores in front of a character that is neither. -/
def spanNumeral (u : Unicode) (s : List Char) : List Char × List Char :=
  s.span fun c => c = '_' || (u.decimal c).isSome

/-- Digit characters of a numeral without its underscores. -/
def plainDigits (u : Unicode) (s : List Char) : Option (List Char) :=
  if s.isEmpty then some []
  else (digitValues u false s).map fun ds => ds.map Nat.digitChar

/-- `float(s)`. -/
def parseFloat (u : Unicode) (s : String) : Option Binary64 := do
  let (neg, body) := spanSign (trim isSpace s.toList)
  let word := body.map asciiLower
  if word = "inf".toList ∨ word = "infinity".toList then return .inf neg
  else if word = "nan".toList then return .nan
  else do
    let (int, after) := spanNumeral u body
    let (frac, after) := match after with
      | '.' :: rest => spanNumeral u rest
      | _ => ([], after)
    let int ← plainDigits u int
    let frac ← plainDigits u frac
    if int.isEmpty ∧ frac.isEmpty then none
    else match after with
      | [] => return (NumLit.decimal neg int frac none).toBinary64
      | e :: rest =>
          if e = 'e' ∨ e = 'E' then do
            let (eneg, digits) := spanSign rest
            let ds ← plainDigits u digits
            if ds.isEmpty then none
            else return (NumLit.decimal neg int frac (some (eneg, ds))).toBinary64
          else none

/-- `repr` of a float. -/
def reprFloat : Binary64 → List Char
  | .nan => "nan".toList
  | .inf neg => if neg then "-inf".toList else "inf".toList
  | .finite neg mag =>
      let sign := if neg then ['-'] else []
      if mag = 0 then sign ++ "0.0".toList
      else
        let (ds, point) := Binary64.shortest mag
        if point ≤ -4 ∨ 16 < point then sign ++ Binary64.scientific ds point
        else
          let body := Binary64.positional ds point
          sign ++ (if body.contains '.' then body else body ++ ".0".toList)

/-- `repr` of a number. -/
def reprNum : PyNum → List Char
  | .int n => (numeral n).toList
  | .float x => reprFloat x

def hexPadded (width n : ℕ) : List Char :=
  let ds := Nat.toDigits 16 n
  List.replicate (width - ds.length) '0' ++ ds

/-- `repr` of a string: single quotes unless only a double quote avoids escaping. -/
def reprStr (u : Unicode) (s : String) : List Char :=
  let cs := s.toList
  let quote := if cs.contains '\'' && !cs.contains '"' then '"' else '\''
  let escape (c : Char) : List Char :=
    if c = quote ∨ c = '\\' then ['\\', c]
    else if c = '\t' then "\\t".toList
    else if c = '\n' then "\\n".toList
    else if c = '\r' then "\\r".toList
    else if u.isPrintable c then [c]
    else if c.toNat < 0x100 then '\\' :: 'x' :: hexPadded 2 c.toNat
    else if c.toNat < 0x10000 then '\\' :: 'u' :: hexPadded 4 c.toNat
    else '\\' :: 'U' :: hexPadded 8 c.toNat
  quote :: (cs.flatMap escape ++ [quote])

mutual

/-- `repr(x)`, also where an integer in `x` has too many digits to be written. -/
def repr (u : Unicode) : PyVal → List Char
  | .null => "None".toList
  | .bool true => "True".toList
  | .bool false => "False".toList
  | .num n => reprNum n
  | .str s => reprStr u s
  | .arr items => '[' :: (reprItems u items ++ [']'])
  | .obj members => '{' :: (reprMembers u members ++ ['}'])

def reprItems (u : Unicode) : List PyVal → List Char
  | [] => []
  | [x] => repr u x
  | x :: xs => repr u x ++ ',' :: ' ' :: reprItems u xs

def reprMembers (u : Unicode) : List (String × PyVal) → List Char
  | [] => []
  | [(k, x)] => reprStr u k ++ ':' :: ' ' :: repr u x
  | (k, x) :: ms => reprStr u k ++ ':' :: ' ' :: (repr u x ++ ',' :: ' ' :: reprMembers u ms)

end

/-- `str(x)`, also where an integer in `x` has too many digits to be written. -/
def str (u : Unicode) : PyVal → String
  | .str s => s
  | x => String.ofList (repr u x)

/-- Whether `str` writes a number. -/
def hasText : PyNum → Bool
  | .int n => n.natAbs < 10 ^ maxStrDigits
  | .float _ => true

/-- `str(x)` with its `ValueError` on an integer of too many digits. -/
def str? (u : Unicode) (x : PyVal) : Except PyError String :=
  if x.numbers.all hasText then .ok (str u x) else .error .valueError

/-- A number as `json.dumps` writes it. -/
def jsonNum : PyNum → List Char
  | .float .nan => "NaN".toList
  | .float (.inf neg) => if neg then "-Infinity".toList else "Infinity".toList
  | n => reprNum n

/-- `json.dumps(x)`, also where an integer in `x` has too many digits to be written. -/
def dumps (x : PyVal) : String := String.ofList (JsonText.render jsonNum x)

mutual

/-- The document with the members of every object in the order of their keys. -/
def sortKeys : PyVal → PyVal
  | .arr items => .arr (sortKeysItems items)
  | .obj members => .obj ((sortKeysMembers members).mergeSort fun a b => a.1 ≤ b.1)
  | x => x

def sortKeysItems : List PyVal → List PyVal
  | [] => []
  | x :: xs => sortKeys x :: sortKeysItems xs

def sortKeysMembers : List (String × PyVal) → List (String × PyVal)
  | [] => []
  | (k, x) :: ms => (k, sortKeys x) :: sortKeysMembers ms

end

/-- A number literal of a JSON text; an integer with too many digits is refused. -/
def ofNumLit? : NumLit → Option PyNum
  | .decimal neg int [] none =>
      if maxStrDigits < int.length then none
      else
        let n : ℤ := (decimal? int).getD 0
        some (.int (if neg then -n else n))
  | lit => some (.float lit.toBinary64)

/-- `json.loads(s)`; every exception it raises reads as `none`. -/
def loads (s : String) : Option PyVal := do
  let doc ← JsonText.parse ⟨true, none⟩ s.toList
  if doc.numbers.all fun n => (ofNumLit? n).isSome then
    return (doc.mapNum fun n => (ofNumLit? n).getD (.int 0)).lastWins
  else none

end Ulpf.Python
