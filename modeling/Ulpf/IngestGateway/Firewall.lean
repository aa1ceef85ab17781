import Ulpf.Go.Value
import Ulpf.IngestGateway.Envelope
import Ulpf.Lib.JsonTokens

/-!
The telemetry firewall: what it measures of an untrusted payload before anything
parses it, and the decision it takes.
-/

namespace Ulpf.IngestGateway

open Ulpf.Lib
open Ulpf.Lib.Text
open Ulpf.Go
open Ulpf.Lib.JsonTokens (Token)

/-- `ViolationCode`, where `none` stands for the empty text of an accepted payload. -/
inductive ViolationCode where
  | none
  | oversized
  | invalidEncoding
  | nestingExceeded
  | fieldLimitExceeded
  | keyTooLong
  | timeout
  deriving DecidableEq

def ViolationCode.text : ViolationCode → String
  | none => ""
  | oversized => "ERR_OVERSIZED"
  | invalidEncoding => "ERR_INVALID_ENCODING"
  | nestingExceeded => "ERR_NESTING_EXCEEDED"
  | fieldLimitExceeded => "ERR_FIELD_LIMIT_EXCEEDED"
  | keyTooLong => "ERR_KEY_TOO_LONG"
  | timeout => "ERR_TIMEOUT"

/-- `FirewallDecision`: the status of a payload, and why it has it. -/
structure FirewallDecision where
  status : IngestStatus
  violationCode : ViolationCode
  reason : String
  details : List (String × Value)
  deriving DecidableEq

/-- `FirewallConfig`: the limits of the firewall. -/
structure FirewallConfig where
  maxRawSizeBytes : ℤ
  maxParsedFields : ℤ
  maxKeyLength : ℤ
  maxStructuralNesting : ℤ
  enforceUTF8 : Bool

/-- `DefaultFirewallConfig` -/
def defaultFirewallConfig : FirewallConfig where
  maxRawSizeBytes := 64 * 1024
  maxParsedFields := 512
  maxKeyLength := 256
  maxStructuralNesting := 32
  enforceUTF8 := true

/-- The decision on a payload that keeps the limits. -/
def FirewallDecision.accept : FirewallDecision := ⟨.accepted, .none, "", []⟩

/-- The decision to quarantine a payload. -/
def quarantine (code : ViolationCode) (reason : String) (details : List (String × Value)) :
    FirewallDecision :=
  ⟨.quarantined, code, reason, details⟩

/-- A measure that exceeds its limit. -/
def exceeded (code : ViolationCode) (what unit measure : String) (measured limit : ℤ) :
    FirewallDecision :=
  quarantine code
    (what ++ " " ++ numeral measured ++ unit ++ " exceeds maximum limit of " ++ numeral limit)
    [("measured_" ++ measure, Value.int measured), ("max_allowed", Value.int limit)]

section JsonStructure

/-- The kinds of containers that a decoder can be in. -/
inductive Container where
  | object
  | array
  deriving DecidableEq

/-- The variables of the loop over the tokens of a payload. -/
structure JsonScan where
  depth : ℤ
  fieldCount : ℕ
  stack : List Container
  expectKey : Bool

def JsonScan.init : JsonScan := ⟨0, 0, [], false⟩

def JsonScan.inObject (s : JsonScan) : Bool := s.stack.head? = some .object

variable (cfg : FirewallConfig)

/-- An opening bracket: one level deeper, within the limit. -/
def openContainer (s : JsonScan) (container : Container) : Except FirewallDecision JsonScan :=
  let depth := s.depth + 1
  if depth > cfg.maxStructuralNesting then
    .error (exceeded .nestingExceeded "structural nesting depth" "" "depth" depth
      cfg.maxStructuralNesting)
  else .ok { s with
    depth := depth
    stack := container :: s.stack
    expectKey := container = .object }

/-- A closing bracket: the state of the outer container is restored. -/
def closeContainer (s : JsonScan) : JsonScan :=
  let s := { s with depth := s.depth - 1, stack := s.stack.tail }
  { s with expectKey := s.inObject }

/-- A key counts as a field, and must keep both limits. -/
def scanKey (s : JsonScan) (key : String) : Except FirewallDecision JsonScan :=
  let runeLen := key.length
  if runeLen > cfg.maxKeyLength then
    .error (exceeded .keyTooLong "JSON key length" " characters" "length" runeLen
      cfg.maxKeyLength)
  else
    let fieldCount := s.fieldCount + 1
    if fieldCount > cfg.maxParsedFields then
      .error (exceeded .fieldLimitExceeded "total field count" "" "fields" fieldCount
        cfg.maxParsedFields)
    else .ok { s with fieldCount := fieldCount, expectKey := false }

/-- One round of the loop over the tokens. -/
def scanToken (s : JsonScan) : Token → Except FirewallDecision JsonScan
  | .delim '{' => openContainer cfg s .object
  | .delim '[' => openContainer cfg s .array
  | .delim _ => .ok (closeContainer s)
  | .str t =>
      if s.inObject && s.expectKey then scanKey cfg s t
      else if s.inObject then .ok { s with expectKey := true }
      else .ok s
  | .scalar _ => if s.inObject then .ok { s with expectKey := true } else .ok s

/-- The numbers that a `float64` can hold. -/
def fitsFloat64 (n : NumLit) : Bool := !(n.toBinary64 matches .inf _)

/-- The tokens that `json.Decoder` hands out, and whether they end in `io.EOF`. -/
def decoderTokens (raw : List Char) : List Token × Bool :=
  JsonTokens.tokensFrom fitsFloat64 .topValue [] raw

/-- `inspectJSONStructure`; `syntaxError` is what the decoder says of a text that it
cannot read. -/
def inspectJSONStructure (syntaxError : List Char → String) (raw : List Char) :
    Except FirewallDecision Unit := do
  let (tokens, clean) := decoderTokens raw
  let _ ← tokens.foldlM (scanToken cfg) JsonScan.init
  if clean then return ()
  else .error (quarantine .invalidEncoding ("malformed JSON syntax: " ++ syntaxError raw) [])

end JsonStructure

section KVStructure

/-- The key of a blank-separated word, when it has one. -/
def wordKey? (pair : List Char) : Option (List Char) :=
  match (indexOf ['='] pair).or (indexOf [':'] pair) with
  | some idx => if idx > 0 then some (pair.take idx) else none
  | none => none

variable (cfg : FirewallConfig)

/-- One round of the loop over the words. -/
def scanWord (fieldCount : ℕ) (pair : List Char) : Except FirewallDecision ℕ :=
  match wordKey? pair with
  | none => .ok fieldCount
  | some key =>
      let fieldCount := fieldCount + 1
      if key.length > cfg.maxKeyLength then
        .error (exceeded .keyTooLong "KV key length" " characters" "length" key.length
          cfg.maxKeyLength)
      else if fieldCount > cfg.maxParsedFields then
        .error (exceeded .fieldLimitExceeded "KV field count" "" "fields" fieldCount
          cfg.maxParsedFields)
      else .ok fieldCount

/-- The check of a payload of key-value pairs, word by word. -/
def inspectKVStructure (raw : List Char) : Except FirewallDecision Unit := do
  let _ ← (fields raw).foldlM (scanWord cfg) 0
  return ()

end KVStructure

variable (cfg : FirewallConfig)

/-- The checks of the structure of a payload without the blanks around it. -/
def inspectStructure (syntaxError : List Char → String) (trimmed : List Char) :
    Except FirewallDecision Unit :=
  match trimmed with
  | [] => .ok ()
  | c :: _ =>
      if c = '{' ∨ c = '[' then inspectJSONStructure cfg syntaxError trimmed
      else inspectKVStructure cfg trimmed

/-- `Inspect`; `ctxErr` is the error of a context that is done. -/
def inspect (syntaxError : List Char → String) (ctxErr : Option String) (raw : List UInt8) :
    FirewallDecision :=
  match ctxErr with
  | some err => quarantine .timeout ("inspection aborted: " ++ err) []
  | none =>
      if raw.length > cfg.maxRawSizeBytes then
        quarantine .oversized
          ("payload size " ++ numeral raw.length ++ " bytes exceeds maximum allowed limit of " ++
            numeral cfg.maxRawSizeBytes ++ " bytes (64 KiB)")
          [("measured_bytes", Value.int raw.length),
            ("max_allowed", Value.int cfg.maxRawSizeBytes)]
      else if cfg.enforceUTF8 && !utf8Valid raw then
        quarantine .invalidEncoding "payload contains invalid UTF-8 byte sequences"
          [("encoding", .str "utf-8")]
      else
        match inspectStructure cfg syntaxError (trim Unicode.isSpace (ofBytes raw).toList) with
        | .ok () => .accept
        | .error decision => decision

section Decisions

variable {cfg} {syntaxError : List Char → String} {ctxErr : Option String} {raw : List UInt8}
  {d : FirewallDecision}

theorem scanToken_eq_error {s : JsonScan} {t : Token} (h : scanToken cfg s t = .error d) :
    d.status = .quarantined := by
  have hopen : ∀ container, openContainer cfg s container = .error d → d.status = .quarantined := by
    intro container hcontainer
    rw [openContainer] at hcontainer
    split at hcontainer <;> cases hcontainer
    rfl
  rw [scanToken.eq_def] at h
  split at h
  · exact hopen _ h
  · exact hopen _ h
  · cases h
  · split at h
    · rw [scanKey] at h
      dsimp only at h
      split_ifs at h <;> cases h <;> rfl
    · split at h <;> cases h
  · split at h <;> cases h

theorem scanWord_eq_error {n : ℕ} {pair : List Char} (h : scanWord cfg n pair = .error d) :
    d.status = .quarantined := by
  rw [scanWord] at h
  split at h
  · cases h
  · dsimp only at h
    split_ifs at h <;> cases h <;> rfl

theorem inspectJSONStructure_eq_ok_iff {trimmed : List Char} :
    inspectJSONStructure cfg syntaxError trimmed = .ok () ↔
      Returns ((decoderTokens trimmed).1.foldlM (scanToken cfg) JsonScan.init) ∧
        (decoderTokens trimmed).2 = true := by
  rw [inspectJSONStructure]
  rcases decoderTokens trimmed with ⟨tokens, clean⟩
  dsimp only
  rw [bind_eq_ok_iff]
  cases clean with
  | true =>
      constructor
      · rintro ⟨s, hs, -⟩
        exact ⟨⟨s, hs⟩, rfl⟩
      · rintro ⟨⟨s, hs⟩, -⟩
        exact ⟨s, hs, rfl⟩
  | false =>
      constructor
      · rintro ⟨s, -, hs⟩
        cases hs
      · rintro ⟨-, h⟩
        cases h

theorem inspectKVStructure_eq_ok_iff {trimmed : List Char} :
    inspectKVStructure cfg trimmed = .ok () ↔
      Returns ((fields trimmed).foldlM (scanWord cfg) 0) := by
  rw [inspectKVStructure, bind_eq_ok_iff]
  constructor
  · rintro ⟨n, hn, -⟩
    exact ⟨n, hn⟩
  · rintro ⟨n, hn⟩
    exact ⟨n, hn, rfl⟩

theorem inspectStructure_eq_error {trimmed : List Char}
    (h : inspectStructure cfg syntaxError trimmed = .error d) : d.status = .quarantined := by
  rw [inspectStructure.eq_def] at h
  split at h
  · cases h
  split at h
  · rw [inspectJSONStructure] at h
    rcases hdecoded : decoderTokens _ with ⟨tokens, clean⟩
    rw [hdecoded] at h
    dsimp only at h
    cases hscan : tokens.foldlM (scanToken cfg) JsonScan.init with
    | error e =>
        rw [hscan, error_bind] at h
        cases h
        obtain ⟨s, t, -, ht⟩ := foldlM_eq_error hscan
        exact scanToken_eq_error ht
    | ok s =>
        rw [hscan, ok_bind] at h
        split at h <;> cases h
        rfl
  · rw [inspectKVStructure] at h
    cases hscan : (fields _).foldlM (scanWord cfg) 0 with
    | error e =>
        rw [hscan, error_bind] at h
        cases h
        obtain ⟨n, pair, -, hpair⟩ := foldlM_eq_error hscan
        exact scanWord_eq_error hpair
    | ok n =>
        rw [hscan, ok_bind] at h
        cases h

theorem inspect_accepted_iff :
    (inspect cfg syntaxError ctxErr raw).status = .accepted ↔
      ctxErr = none ∧ raw.length ≤ cfg.maxRawSizeBytes ∧
        (cfg.enforceUTF8 = true → utf8Valid raw = true) ∧
        inspectStructure cfg syntaxError (trim Unicode.isSpace (ofBytes raw).toList) = .ok () := by
  cases ctxErr with
  | some err => simp [inspect, quarantine]
  | none =>
      rw [inspect]
      split_ifs with hsize hutf
      · simp [quarantine, hsize]
      · simp_all [quarantine]
      · cases hstructure : inspectStructure cfg syntaxError
            (trim Unicode.isSpace (ofBytes raw).toList) with
        | error d => simp [inspectStructure_eq_error hstructure]
        | ok u => simp_all [FirewallDecision.accept]

theorem inspect_status (cfg : FirewallConfig) (syntaxError : List Char → String)
    (ctxErr : Option String) (raw : List UInt8) :
    (inspect cfg syntaxError ctxErr raw).status = .accepted ∨
      (inspect cfg syntaxError ctxErr raw).status = .quarantined := by
  cases ctxErr with
  | some err => exact .inr rfl
  | none =>
      rw [inspect]
      split_ifs
      · exact .inr rfl
      · exact .inr rfl
      · cases hstructure : inspectStructure cfg syntaxError
            (trim Unicode.isSpace (ofBytes raw).toList) with
        | error d => exact .inr (inspectStructure_eq_error hstructure)
        | ok u => exact .inl rfl

end Decisions

end Ulpf.IngestGateway
