import Ulpf.Python.Value

/-!
Events as the shadow parsers build them: a dictionary from canonical keys to
values, with the unmapped fields of the record under `unknown_fields`.
-/

namespace Ulpf.Shadow

open Ulpf.Lib
open Ulpf.Python

/-- A parsed event. Keys are the values `map_to` entries hold, so they need not
be strings. The unmapped fields are kept apart: when present they are what the
key `unknown_fields` holds. -/
structure Event where
  fields : Dict PyVal PyVal
  unknownFields : Option (List (PyVal × PyVal))
  deriving DecidableEq

namespace Event

def empty : Event := ⟨Dict.empty, none⟩

/-- `event.get(k)`, where an absent key reads as `None`. The key
`unknown_fields` is read by `unknowns?` only. -/
def get (ev : Event) (k : String) : PyVal := (ev.fields.get? (.str k)).getD .null

/-- The entries of `event.get("unknown_fields") or {}` when it is a dictionary. -/
def unknowns? (ev : Event) : Option (List (PyVal × PyVal)) :=
  match ev.unknownFields with
  | some entries => some entries
  | none =>
      match ev.get "unknown_fields" with
      | .obj members => some (members.map fun m => (.str m.1, m.2))
      | v => if PyVal.truthy v then none else some []

end Event

/-- Keys `_flatten_event` leaves out. -/
def skippedKey (k : String) : Bool := Text.hasPrefix k "_" || k = "unknown_fields"

def dotted (pre k : String) : String := if pre = "" then k else pre ++ "." ++ k

mutual

/-- The entries a nested object contributes to the flat view. -/
def flattenMembers (pre : String) : List (String × PyVal) → List (String × PyVal)
  | [] => []
  | (k, v) :: ms =>
      if skippedKey k then flattenMembers pre ms
      else flattenField (dotted pre k) v ++ flattenMembers pre ms

/-- The leaves of a value under a key. -/
def flattenField (key : String) : PyVal → List (String × PyVal)
  | .obj members => (Dict.ofList (flattenMembers key members)).entries
  | v => [(key, v)]

end

/-- `_flatten_event` on the entries of an event; a key that is no string has no
`startswith`. -/
def flattenEntries : List (PyVal × PyVal) → Except PyError (List (String × PyVal))
  | [] => .ok []
  | (.str k, v) :: rest => do
      let flat ← flattenEntries rest
      return if skippedKey k then flat else flattenField k v ++ flat
  | _ :: _ => .error .attributeError

/-- `_flatten_event` -/
def flattenEvent (ev : Event) : Except PyError (Dict String PyVal) :=
  (flattenEntries ev.fields.entries).map Dict.ofList

end Ulpf.Shadow
