import Ulpf.Python.Json

/-!
`ml/ai_assist`: the assistant that asks a language model where the fields
nothing else could map belong. What the model answers is any text; the assistant
reads it, checks its shape and filters the targets it proposes.
-/

namespace Ulpf.AiAssist

open Ulpf.Lib
open Ulpf.Python

/-- `CANONICAL_SCHEMA_REGISTRY`. -/
def canonicalSchemaRegistry : List String :=
  ["src.ip", "src.port", "src.mac", "src.host",
   "dst.ip", "dst.port", "dst.mac", "dst.host",
   "dest.ip", "dest.port", "dest.mac", "dest.host",
   "event.action", "event.category", "event.outcome", "event.type",
   "user.name", "user.id", "user.domain", "user.email", "user.role",
   "http.request.method", "http.request.url", "http.response.status_code",
   "process.name", "process.pid", "process.parent.pid", "process.command_line",
   "network.protocol", "network.bytes_in", "network.bytes_out", "network.packets",
   "file.path", "file.name", "file.size", "file.hash.sha256"]

inductive ProposalError where
  /-- A `ValueError` of the assistant with its text. -/
  | invalid (message : String)
  /-- An exception of a Python operation. -/
  | raised (e : PyError)
  | recursionError
  deriving DecidableEq

/-- The exceptions that `except ValueError` catches. -/
def ProposalError.isValueError : ProposalError → Bool
  | .invalid _ => true
  | .raised e => e = .valueError
  | .recursionError => false

/-- `sanitize_untrusted_input`: backslashes and quotes are escaped, and null characters removed. -/
def sanitizeUntrustedInput (text : String) : String :=
  let slashes := text.toList.flatMap fun c => if c = '\\' then ['\\', '\\'] else [c]
  let quotes := slashes.flatMap fun c => if c = '"' then ['\\', '"'] else [c]
  String.ofList (quotes.filter fun c => c ≠ '\x00')

/-- The `formatting_rules` of every prompt. -/
def formattingRules : List String :=
  ["Respond ONLY with valid JSON.",
   "Ensure every canonical_field matches allowed_canonical_targets exactly.",
   "Set confidence between 0.00 and 1.00."]

/-- The prompt of the assistant before it is written out. -/
def promptPayload (candidateID sourceFormat : String) (unmappedFields : List PyVal)
    (logSample : String) : PyVal :=
  .obj [
    ("instruction", .str "Map the provided unmapped raw fields to canonical target schemas."),
    ("candidate_id", .str candidateID),
    ("source_format", .str sourceFormat),
    ("unmapped_fields", .arr unmappedFields),
    ("raw_log_sample", .str (sanitizeUntrustedInput logSample)),
    ("allowed_canonical_targets",
      .arr ((canonicalSchemaRegistry.mergeSort fun a b => a ≤ b).map .str)),
    ("formatting_rules", .arr (formattingRules.map .str))]

def buildStructuredPrompt (candidateID sourceFormat : String) (unmappedFields : List PyVal)
    (logSample : String) : String :=
  dumpsIndent 2 (promptPayload candidateID sourceFormat unmappedFields logSample)

/-- The members that a candidate must have. -/
def requiredKeys : List String :=
  ["candidate_id", "source_format", "mapped_fields", "unmapped_fields"]

/-- The members that an entry of `mapped_fields` must have. -/
def fieldKeys : List String := ["raw_field", "canonical_field", "confidence", "reasoning"]

def hasKeys (keys : List String) (x : PyVal) : Bool := keys.all fun k => (x.member? k).isSome

def isStr : PyVal → Bool
  | .str _ => true
  | _ => false

def isList : PyVal → Bool
  | .arr _ => true
  | _ => false

/-- Items of the list under a key. -/
def listAt (x : PyVal) (k : String) : List PyVal :=
  match x.member? k with
  | some (.arr items) => items
  | _ => []

/-- A mapped field is an object with the required members and a number for its confidence. -/
def validateField (field : PyVal) : Bool :=
  field.isObj && hasKeys fieldKeys field && PyVal.isNumber (field.memberD "confidence" .null)

/-- The check on the shape of a response, before its fields are looked at. -/
def validateCandidateStructure (candidateData : PyVal) : Bool :=
  candidateData.isObj && hasKeys requiredKeys candidateData &&
    isStr (candidateData.memberD "candidate_id" .null) &&
    isStr (candidateData.memberD "source_format" .null) &&
    isList (candidateData.memberD "mapped_fields" .null) &&
    isList (candidateData.memberD "unmapped_fields" .null) &&
    (listAt candidateData "mapped_fields").all validateField

/-- `canonical in self.canonical_registry`. -/
def inRegistry (canonical : PyVal) : Except PyError Bool :=
  if hashable canonical then
    .ok (canonicalSchemaRegistry.any fun name => PyVal.eq canonical (.str name))
  else .error .typeError

/-- What `for` and `list` go through. -/
def iterate : PyVal → Except PyError (List PyVal)
  | .arr items => .ok items
  | .obj members => .ok (members.map fun m => .str m.1)
  | .str s => .ok (s.toList.map fun c => .str (String.singleton c))
  | _ => .error .typeError

/-- One of two names for a value finds the other in a list: the same object, or
an equal one. -/
def same (x y : PyVal) : Bool := x = y || PyVal.eq x y

/-- `x in items`. -/
def isIn (x : PyVal) (items : List PyVal) : Bool := items.any fun y => same y x

/-- One turn of the loop over the mapped fields, on the fields kept so far and
the names not mapped. -/
def filterEntry (found : List PyVal × List PyVal) (entry : PyVal) :
    Except PyError (List PyVal × List PyVal) := do
  let canonical ← PyVal.getD entry "canonical_field" (.str "")
  if ← inRegistry canonical then
    return (found.1 ++ [entry], found.2)
  else do
    let rawField ← PyVal.getD entry "raw_field" .null
    if rawField.truthy && !isIn rawField found.2 then
      return (found.1, found.2 ++ [rawField])
    else return found

/-- A response without the mapped fields of unregistered names, whose raw fields it lists as
unmapped. -/
def filterHallucinatedFields (candidateData : PyVal) : Except PyError PyVal := do
  let unmappedList ← iterate (← PyVal.getD candidateData "unmapped_fields" (.arr []))
  let entries ← iterate (← PyVal.getD candidateData "mapped_fields" (.arr []))
  let (validMapped, unmappedList) ← entries.foldlM filterEntry ([], unmappedList)
  match candidateData with
  | .obj members =>
      return .obj (put "unmapped_fields" (.arr unmappedList)
        (put "mapped_fields" (.arr validMapped) members))
  | _ => throw .attributeError

/-- `propose_mappings`. The provider stands for the language model, `limit` for
the nested containers the interpreter follows. -/
def proposeMappings (limit : ℕ) (provider : String → String) (candidateID sourceFormat : String)
    (unmappedFields : List PyVal) (logSample : String) : Except ProposalError PyVal :=
  let prompt := buildStructuredPrompt candidateID sourceFormat unmappedFields logSample
  match loadsWithin limit (provider prompt) with
  | .error .jsonDecodeError => .error (.invalid "LLM response is not valid JSON.")
  | .error .valueError => .error (.raised .valueError)
  | .error .recursionError => .error .recursionError
  | .ok candidateJson =>
      if validateCandidateStructure candidateJson then
        (filterHallucinatedFields candidateJson).mapError .raised
      else .error (.invalid "LLM candidate output failed structural schema validation.")

end Ulpf.AiAssist
