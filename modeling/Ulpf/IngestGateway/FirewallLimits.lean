import Ulpf.IngestGateway.FirewallJson
import Ulpf.ParserRuntime.PayloadNames
import Mathlib.Data.Set.Card

/-!
The limits of the firewall on the number and the length of keys, and the keys that the
body parser makes of the same payload.
-/

namespace Ulpf.IngestGateway

open Ulpf.Lib
open Ulpf.Lib.Text
open Ulpf.Go
open Ulpf.ParserRuntime
open Ulpf.Lib.JsonTokens (Token)

section JsonMeasures

variable (cfg : FirewallConfig)

/-- The key that a token is. -/
def keyOf (s : JsonScan) : Token → Option String
  | .str t => if s.inObject && s.expectKey then some t else none
  | _ => none

/-- The depth that a token opens. -/
def depthOf (s : JsonScan) : Token → Option ℤ
  | .delim '{' | .delim '[' => some (s.depth + 1)
  | _ => none

/-- One round of the loop over the tokens that no limit stops. -/
def advance (s : JsonScan) : Token → JsonScan
  | .delim '{' => { s with
      depth := s.depth + 1
      stack := .object :: s.stack
      expectKey := true }
  | .delim '[' => { s with
      depth := s.depth + 1
      stack := .array :: s.stack
      expectKey := false }
  | .delim _ => closeContainer s
  | .str _ =>
      if s.inObject && s.expectKey then
        { s with
          fieldCount := s.fieldCount + 1
          expectKey := false }
      else if s.inObject then { s with expectKey := true }
      else s
  | .scalar _ => if s.inObject then { s with expectKey := true } else s

/-- The keys that the loop meets. -/
def jsonKeys (s : JsonScan) : List Token → List String
  | [] => []
  | t :: tokens => (keyOf s t).toList ++ jsonKeys (advance s t) tokens

/-- The depths that the loop comes to. -/
def jsonDepths (s : JsonScan) : List Token → List ℤ
  | [] => []
  | t :: tokens => (depthOf s t).toList ++ jsonDepths (advance s t) tokens

/-- No more keys than the limit allows, and none longer. -/
def KeysAllowed (counted : ℕ) (keys : List String) : Prop :=
  (∀ key ∈ keys, (key.length : ℤ) ≤ cfg.maxKeyLength) ∧
    (keys ≠ [] → (counted + keys.length : ℤ) ≤ cfg.maxParsedFields)

theorem keysAllowed_nil (counted : ℕ) : KeysAllowed cfg counted [] :=
  ⟨by simp, fun h => absurd rfl h⟩

theorem keysAllowed_cons (counted : ℕ) (key : String) (keys : List String) :
    KeysAllowed cfg counted (key :: keys) ↔
      (key.length : ℤ) ≤ cfg.maxKeyLength ∧ (counted + 1 : ℤ) ≤ cfg.maxParsedFields ∧
        KeysAllowed cfg (counted + 1) keys := by
  simp only [KeysAllowed, List.forall_mem_cons, List.length_cons, Nat.cast_add, Nat.cast_one]
  constructor
  · rintro ⟨⟨hkey, hkeys⟩, hcount⟩
    have hall := hcount (by simp)
    refine ⟨hkey, by omega, hkeys, ?_⟩
    intro _
    omega
  · rintro ⟨hkey, hfirst, hkeys, hcount⟩
    refine ⟨⟨hkey, hkeys⟩, ?_⟩
    intro _
    cases keys with
    | nil => simpa using hfirst
    | cons key' keys =>
        have := hcount (by simp)
        omega

theorem openContainer_eq_ok_iff {s t : JsonScan} {container : Container} :
    openContainer cfg s container = .ok t ↔
      t = { s with
        depth := s.depth + 1
        stack := container :: s.stack
        expectKey := container = .object } ∧
      s.depth + 1 ≤ cfg.maxStructuralNesting := by
  rw [openContainer]
  split
  · rename_i hdeep
    constructor
    · intro h
      cases h
    · rintro ⟨-, h⟩
      exact absurd h (not_le.mpr hdeep)
  · rename_i hdeep
    rw [Except.ok.injEq, eq_comm, and_iff_left (not_lt.mp hdeep)]

theorem scanKey_eq_ok_iff {s t : JsonScan} {key : String} :
    scanKey cfg s key = .ok t ↔
      t = { s with
        fieldCount := s.fieldCount + 1
        expectKey := false } ∧
      (key.length : ℤ) ≤ cfg.maxKeyLength ∧ (s.fieldCount + 1 : ℤ) ≤ cfg.maxParsedFields := by
  rw [scanKey]
  dsimp only
  split
  · rename_i hlong
    constructor
    · intro h
      cases h
    · rintro ⟨-, h, -⟩
      exact absurd h (not_le.mpr hlong)
  · rename_i hlong
    rw [and_iff_right (not_lt.mp hlong)]
    split
    · rename_i hmany
      push_cast at hmany
      constructor
      · intro h
        cases h
      · rintro ⟨-, h⟩
        exact absurd h (not_le.mpr hmany)
    · rename_i hmany
      push_cast at hmany
      rw [Except.ok.injEq, eq_comm, and_iff_left (not_lt.mp hmany)]

theorem scanToken_eq_ok_iff {s t : JsonScan} {token : Token} :
    scanToken cfg s token = .ok t ↔ t = advance s token ∧
      (∀ depth ∈ depthOf s token, depth ≤ cfg.maxStructuralNesting) ∧
      (∀ key ∈ keyOf s token, (key.length : ℤ) ≤ cfg.maxKeyLength ∧
        (s.fieldCount + 1 : ℤ) ≤ cfg.maxParsedFields) := by
  cases token with
  | delim c =>
      by_cases hbrace : c = '{'
      · subst hbrace
        rw [scanToken, openContainer_eq_ok_iff]
        simp [advance, depthOf, keyOf]
      by_cases hbracket : c = '['
      · subst hbracket
        rw [scanToken, openContainer_eq_ok_iff]
        simp [advance, depthOf, keyOf]
      rw [scanToken, advance]
      · simp [depthOf, keyOf, hbrace, hbracket, eq_comm]
      all_goals simp_all
  | str key =>
      rw [scanToken, advance]
      cases hkey : s.inObject && s.expectKey with
      | true =>
          rw [if_pos rfl, if_pos rfl, scanKey_eq_ok_iff]
          simp [depthOf, keyOf, hkey]
      | false =>
          have hnone : keyOf s (.str key) = none := by rw [keyOf, if_neg (by simp [hkey])]
          rw [hnone]
          simp only [Bool.false_eq_true, if_false]
          by_cases hin : s.inObject = true
          · simp [hin, depthOf, eq_comm]
          · simp [hin, depthOf, eq_comm]
  | scalar x =>
      rw [scanToken, advance]
      cases s.inObject <;> simp [depthOf, keyOf, eq_comm]

theorem advance_fieldCount (s : JsonScan) (token : Token) :
    (advance s token).fieldCount = s.fieldCount + (keyOf s token).toList.length := by
  cases token with
  | delim c =>
      rw [advance.eq_def]
      split <;> simp_all [keyOf, closeContainer]
  | str key =>
      rw [advance, keyOf]
      cases s.inObject && s.expectKey with
      | true => simp
      | false =>
          simp only [Bool.false_eq_true, if_false]
          split <;> simp
  | scalar x =>
      rw [advance]
      split <;> simp [keyOf]

theorem returns_foldlM_scanToken_iff (tokens : List Token) (s : JsonScan) :
    Returns (tokens.foldlM (scanToken cfg) s) ↔
      (∀ depth ∈ jsonDepths s tokens, depth ≤ cfg.maxStructuralNesting) ∧
        KeysAllowed cfg s.fieldCount (jsonKeys s tokens) := by
  induction tokens generalizing s with
  | nil =>
      constructor
      · intro _
        exact ⟨by simp [jsonDepths], keysAllowed_nil cfg _⟩
      · intro _
        exact returns_ok _
  | cons token tokens ih =>
      have hcount := advance_fieldCount s token
      rw [List.foldlM_cons, returns_bind_iff]
      simp only [scanToken_eq_ok_iff, jsonDepths, jsonKeys, List.forall_mem_append]
      constructor
      · rintro ⟨t, ⟨rfl, hdepth, hkey⟩, hrest⟩
        obtain ⟨hdepths, hkeys⟩ := (ih _).mp hrest
        refine ⟨⟨fun depth h => hdepth depth (Option.mem_toList.mp h), hdepths⟩, ?_⟩
        cases hkeyOf : keyOf s token with
        | none =>
            rw [hkeyOf] at hcount
            simpa [hcount] using hkeys
        | some key =>
            rw [hkeyOf] at hcount hkey
            rw [hcount] at hkeys
            exact (keysAllowed_cons cfg _ _ _).mpr
              ⟨(hkey key rfl).1, (hkey key rfl).2, hkeys⟩
      · rintro ⟨⟨hdepth, hdepths⟩, hkeys⟩
        refine ⟨advance s token,
          ⟨rfl, fun depth h => hdepth depth (Option.mem_toList.mpr h), ?_⟩, ?_⟩
        · intro key hkey
          rw [hkey] at hkeys
          obtain ⟨hlength, hmany, -⟩ := (keysAllowed_cons cfg _ _ _).mp hkeys
          exact ⟨hlength, hmany⟩
        · refine (ih _).mpr ⟨hdepths, ?_⟩
          cases hkeyOf : keyOf s token with
          | none =>
              rw [hkeyOf] at hcount hkeys
              simpa [hcount] using hkeys
          | some key =>
              rw [hkeyOf] at hcount hkeys
              rw [hcount]
              exact ((keysAllowed_cons cfg _ _ _).mp hkeys).2.2

end JsonMeasures

section WordMeasures

variable (cfg : FirewallConfig)

/-- The keys of the blank-separated words of a payload. -/
def wordKeys (words : List (List Char)) : List String :=
  (words.filterMap wordKey?).map String.ofList

theorem returns_foldlM_scanWord_iff (words : List (List Char)) (counted : ℕ) :
    Returns (words.foldlM (scanWord cfg) counted) ↔ KeysAllowed cfg counted (wordKeys words) := by
  induction words generalizing counted with
  | nil =>
      constructor
      · intro _
        exact keysAllowed_nil cfg _
      · intro _
        exact returns_ok _
  | cons word words ih =>
      rw [List.foldlM_cons, scanWord, wordKeys, List.filterMap_cons]
      cases hkey : wordKey? word with
      | none =>
          rw [ok_bind]
          exact ih counted
      | some key =>
          simp only
          rw [List.map_cons, keysAllowed_cons, ← wordKeys, ← ih, String.length_ofList]
          split
          · rename_i hlong
            constructor
            · intro h
              exact absurd h (not_returns_error _)
            · rintro ⟨h, -⟩
              exact absurd h (not_le.mpr hlong)
          · rename_i hlong
            rw [and_iff_right (not_lt.mp hlong)]
            split
            · rename_i hmany
              push_cast at hmany
              constructor
              · intro h
                exact absurd h (not_returns_error _)
              · rintro ⟨h, -⟩
                exact absurd h (not_le.mpr hmany)
            · rename_i hmany
              push_cast at hmany
              rw [and_iff_right (not_lt.mp hmany), ok_bind]

end WordMeasures

section Measures

variable (cfg : FirewallConfig) (raw : List UInt8)

/-- The keys that the firewall measures in a payload. -/
def measuredKeys : List String :=
  let trimmed := trim Unicode.isSpace (ofBytes raw).toList
  match trimmed with
  | [] => []
  | c :: _ =>
      if c = '{' ∨ c = '[' then jsonKeys JsonScan.init (decoderTokens trimmed).1
      else wordKeys (fields trimmed)

/-- The structural depths that the firewall measures. -/
def measuredDepths : List ℤ :=
  let trimmed := trim Unicode.isSpace (ofBytes raw).toList
  match trimmed with
  | [] => []
  | c :: _ => if c = '{' ∨ c = '[' then jsonDepths JsonScan.init (decoderTokens trimmed).1 else []

/-- A payload that begins like JSON is read to its end. -/
def Decoded : Prop :=
  let trimmed := trim Unicode.isSpace (ofBytes raw).toList
  ∀ c ∈ trimmed.head?, c = '{' ∨ c = '[' → (decoderTokens trimmed).2 = true

variable {cfg raw} {syntaxError : List Char → String} {ctxErr : Option String}

theorem accepted_iff_measures :
    (inspect cfg syntaxError ctxErr raw).status = .accepted ↔
      ctxErr = none ∧ raw.length ≤ cfg.maxRawSizeBytes ∧
        (cfg.enforceUTF8 = true → utf8Valid raw = true) ∧ Decoded raw ∧
        (∀ depth ∈ measuredDepths raw, depth ≤ cfg.maxStructuralNesting) ∧
        KeysAllowed cfg 0 (measuredKeys raw) := by
  rw [inspect_accepted_iff]
  suffices hstructure : inspectStructure cfg syntaxError
      (trim Unicode.isSpace (ofBytes raw).toList) = .ok () ↔ Decoded raw ∧
        (∀ depth ∈ measuredDepths raw, depth ≤ cfg.maxStructuralNesting) ∧
        KeysAllowed cfg 0 (measuredKeys raw) by rw [hstructure]
  rw [inspectStructure.eq_def, Decoded, measuredDepths, measuredKeys]
  cases trim Unicode.isSpace (ofBytes raw).toList with
  | nil => simp [keysAllowed_nil]
  | cons c trimmed =>
      simp only [List.head?_cons, Option.mem_some_iff, forall_eq']
      by_cases hjson : c = '{' ∨ c = '['
      · rw [if_pos hjson, if_pos hjson, if_pos hjson, inspectJSONStructure_eq_ok_iff,
          returns_foldlM_scanToken_iff, forall_prop_of_true hjson]
        exact and_comm
      · rw [if_neg hjson, if_neg hjson, if_neg hjson, inspectKVStructure_eq_ok_iff,
          returns_foldlM_scanWord_iff]
        simp [hjson]

end Measures

section Limits

/-- Keys that keep the limits a configuration states. -/
def WithinLimits (cfg : FirewallConfig) (keys : List String) : Prop :=
  (keys.length : ℤ) ≤ cfg.maxParsedFields ∧ ∀ k ∈ keys, (k.length : ℤ) ≤ cfg.maxKeyLength

/-- The firewall counts at least the keys that the payload spells for the body parser, and
measures one at least as long as each of them. -/
structure Covers (spec : ParserSpec) (raw : List UInt8) : Prop where
  count : {k | PayloadName spec (ofBytes raw) k}.ncard ≤ (measuredKeys raw).length
  length : ∀ k, PayloadName spec (ofBytes raw) k → ∃ key ∈ measuredKeys raw, k.length ≤ key.length

variable {cfg : FirewallConfig} {raw : List UInt8} {syntaxError : List Char → String}
  {ctxErr : Option String} {e : Enumeration} {spec : ValidSpec} {fields : RawFields}

theorem ncard_payloadName (hparse : parseBody e (ofBytes raw) spec.1 = .ok fields) :
    {k | PayloadName spec.1 (ofBytes raw) k}.ncard =
      (payloadKeys spec.1 (ofBytes raw) fields).length := by
  have hnodup : (payloadKeys spec.1 (ofBytes raw) fields).Nodup := fields.nodup.filter _
  have hset : {k | PayloadName spec.1 (ofBytes raw) k} =
      ((payloadKeys spec.1 (ofBytes raw) fields).toFinset : Set String) := by
    ext k
    simp [mem_payloadKeys_iff hparse]
  rw [hset, Set.ncard_coe_finset, List.toFinset_card_of_nodup hnodup]

/-- The limits of a configuration drawn as tight as the measured keys allow. -/
theorem accepted_of_limits (haccept : (inspect cfg syntaxError ctxErr raw).status = .accepted)
    {longest : ℤ} (hlongest : ∀ key ∈ measuredKeys raw, (key.length : ℤ) ≤ longest) :
    (inspect { cfg with
      maxParsedFields := (measuredKeys raw).length
      maxKeyLength := longest } syntaxError ctxErr raw).status = .accepted := by
  rw [accepted_iff_measures] at haccept ⊢
  obtain ⟨hctx, hsize, hutf, hdecoded, hdepths, -⟩ := haccept
  refine ⟨hctx, hsize, hutf, hdecoded, hdepths, hlongest, ?_⟩
  intro _
  simp

/-- The limits on keys hold of the raw fields, under every configuration that accepts the
payload, if what the firewall measures covers what the body parser reads. -/
theorem withinLimits_iff_covers
    (haccept : (inspect cfg syntaxError ctxErr raw).status = .accepted)
    (hparse : parseBody e (ofBytes raw) spec.1 = .ok fields) :
    (∀ cfg', (inspect cfg' syntaxError ctxErr raw).status = .accepted →
      (WithinLimits cfg' (payloadKeys spec.1 (ofBytes raw) fields) ↔ 0 ≤ cfg'.maxParsedFields)) ↔
      Covers spec.1 raw := by
  have hname := mem_payloadKeys_iff hparse
  have hcard := ncard_payloadName hparse
  constructor
  · intro hall
    have htight : ∀ longest : ℤ, (∀ key ∈ measuredKeys raw, (key.length : ℤ) ≤ longest) →
        WithinLimits { cfg with
          maxParsedFields := (measuredKeys raw).length
          maxKeyLength := longest } (payloadKeys spec.1 (ofBytes raw) fields) := by
      intro longest hlongest
      exact (hall _ (accepted_of_limits haccept hlongest)).mpr (Int.natCast_nonneg _)
    constructor
    · have hlongest : ∀ key ∈ measuredKeys raw,
          (key.length : ℤ) ≤ ((measuredKeys raw).toFinset.sup String.length : ℕ) := by
        intro key hkey
        exact_mod_cast Finset.le_sup (List.mem_toFinset.mpr hkey)
      rw [hcard]
      exact Int.ofNat_le.mp (htight _ hlongest).1
    · intro k hk
      by_contra hshort
      simp only [not_exists, not_and, not_le] at hshort
      have hbelow : ∀ key ∈ measuredKeys raw, (key.length : ℤ) ≤ k.length - 1 := by
        intro key hkey
        have := hshort key hkey
        omega
      have hfits := (htight _ hbelow).2 k ((hname k).mpr hk)
      simp only at hfits
      omega
  · intro hcovers cfg' haccept'
    obtain ⟨-, -, -, -, -, hlengths, hcount⟩ := accepted_iff_measures.mp haccept'
    have hkeys := hcovers.count
    rw [hcard] at hkeys
    constructor
    · rintro ⟨hmany, -⟩
      omega
    · intro hnonneg
      refine ⟨?_, ?_⟩
      · by_cases hnone : measuredKeys raw = []
        · rw [hnone, List.length_nil] at hkeys
          omega
        · have := hcount hnone
          omega
      · intro k hk
        obtain ⟨key, hkey, hle⟩ := hcovers.length k ((hname k).mp hk)
        have := hlengths key hkey
        omega

def jsonSpec : ValidSpec :=
  ⟨plainSpec "json" [("user", plainField "string" "user.name")],
    (validateParserSpec_eq_ok_iff _).mp (by decide +kernel)⟩

theorem withinLimits_iff_covers_user :
    (∀ cfg', (inspect cfg' (fun _ => "") none
        (asciiBytes "\x7b\"user\": \"alice\"\x7d")).status = .accepted →
      (WithinLimits cfg' (payloadKeys jsonSpec.1
        (ofBytes (asciiBytes "\x7b\"user\": \"alice\"\x7d"))
        (Dict.ofList [("user", .str "alice")])) ↔ 0 ≤ cfg'.maxParsedFields)) ↔
      Covers jsonSpec.1 (asciiBytes "\x7b\"user\": \"alice\"\x7d") := by
  have haccept : (inspect defaultFirewallConfig (fun _ => "") none
      (asciiBytes "\x7b\"user\": \"alice\"\x7d")).status = .accepted := by
    decide +kernel
  have hparse : parseBody .standing (ofBytes (asciiBytes "\x7b\"user\": \"alice\"\x7d"))
      jsonSpec.1 = .ok (Dict.ofList [("user", .str "alice")]) := by
    decide +kernel
  exact withinLimits_iff_covers haccept hparse

/-- The keys of nested objects are measured one by one and joined afterwards. -/
theorem not_withinLimits_nested :
    ¬ ∀ (cfg : FirewallConfig) (syntaxError : List Char → String) (ctxErr : Option String)
      (raw : List UInt8) (e : Enumeration) (spec : ValidSpec) (fields : RawFields),
      (inspect cfg syntaxError ctxErr raw).status = .accepted →
        parseBody e (ofBytes raw) spec.1 = .ok fields →
          WithinLimits cfg (payloadKeys spec.1 (ofBytes raw) fields) := by
  intro hall
  have hjson : parseBody .standing (ofBytes (asciiBytes "\x7b\"ab\":\x7b\"cd\":1\x7d\x7d"))
      jsonSpec.1 = .ok (Dict.ofList [("ab", .obj [("cd", .num (.float64 (.finite false 1)))]),
        ("ab.cd", .num (.float64 (.finite false 1)))]) := by
    decide +kernel
  obtain ⟨-, hlength⟩ := hall { defaultFirewallConfig with maxKeyLength := 2 } (fun _ => "") none
    (asciiBytes "\x7b\"ab\":\x7b\"cd\":1\x7d\x7d") .standing jsonSpec _
    (by decide +kernel) hjson
  have hlong := hlength "ab.cd" (by decide +kernel)
  revert hlong
  decide

end Limits

end Ulpf.IngestGateway
