import Ulpf.ParserRuntime.NoLoss

/-!
What `Parse` keeps of the header of a message. The pairs of the extension or of
the body are assigned after the header, under whatever keys they spell.
-/

namespace Ulpf.ParserRuntime

open Ulpf.Lib
open Ulpf.Lib.Text
open Ulpf.Go

section Layers

/-- The text between the pipes of a CEF message that has its prefix. -/
def cefTexts (raw : String) : List String :=
  (cefParts 7 [] ((trim Unicode.isSpace raw.toList).drop 4)).map String.ofList

/-- The texts between the pipes of a message. -/
def leefTexts (raw : String) : List String :=
  (splitOn ['|'] ((trim Unicode.isSpace raw.toList).drop 5)).map String.ofList

/-- What the header of a CEF message says. -/
def cefHeader : List String → RawFields
  | version :: vendor :: product :: deviceVersion :: classId :: name :: severity :: _ =>
      Dict.ofList [("cef_version", .num (.int (atoi version.toList))),
        ("device_vendor", .str vendor), ("device_product", .str product),
        ("device_version", .str deviceVersion), ("device_event_class_id", .str classId),
        ("name", .str name), ("severity", .str severity)]
  | _ => Dict.empty

/-- What the header of a LEEF message says. -/
def leefHeader : List String → RawFields
  | version :: vendor :: product :: productVersion :: eventId :: _ =>
      Dict.ofList [("leef_version", .str version), ("vendor", .str vendor),
        ("product", .str product), ("version", .str productVersion), ("event_id", .str eventId)]
  | _ => Dict.empty

/-- The pairs of the extension of a CEF message. -/
def cefPairs (texts : List String) : RawFields :=
  match texts[7]? with
  | some text => if trimSpace text = "" then Dict.empty else parseKeyValue text " " "="
  | none => Dict.empty

/-- The pairs of the extension of a LEEF message. -/
def leefPairs (texts : List String) : RawFields :=
  match texts with
  | version :: _ :: _ :: _ :: _ :: rest =>
      let (delimiter, extension) := leefExtension version rest
      if extension = "" then Dict.empty else parseKeyValue extension delimiter "="
  | _ => Dict.empty

/-- A key-value spec for a payload that begins with a priority. -/
def overSyslog (spec : ParserSpec) (raw : String) : Prop :=
  spec.matchConfig.format = "syslog" ∧ hasPrefix (trimSpace raw) "<"

instance (spec : ParserSpec) (raw : String) : Decidable (overSyslog spec raw) :=
  inferInstanceAs (Decidable (_ ∧ _))

/-- What the header of a payload says, for the body parser of a spec. -/
def headerFields (spec : ParserSpec) (raw : String) : RawFields :=
  match spec.bodyParser.type with
  | "cef" => cefHeader (cefTexts raw)
  | "leef" => leefHeader (leefTexts raw)
  | "syslog" => (parseSyslog raw).1
  | "key_value" => if overSyslog spec raw then (parseSyslog raw).1 else Dict.empty
  | _ => Dict.empty

/-- What the extension or the body below a header says. -/
def bodyFields (spec : ParserSpec) (raw : String) : RawFields :=
  match spec.bodyParser.type with
  | "cef" => cefPairs (cefTexts raw)
  | "leef" => leefPairs (leefTexts raw)
  | "syslog" => Dict.ofList [("message", .str (parseSyslog raw).2)]
  | "key_value" =>
      parseKeyValue (if overSyslog spec raw then (parseSyslog raw).2 else raw)
        spec.bodyParser.pairSeparator spec.bodyParser.keyValueSeparator
  | _ => Dict.empty

/-- The keys that a header gives a value to. -/
def headerKeys (type : String) : List String :=
  match type with
  | "cef" => ["device_vendor", "device_product", "device_version", "device_event_class_id", "name",
      "severity"]
  | "leef" => ["vendor", "product", "version", "event_id"]
  | "syslog" | "key_value" =>
      ["prival", "facility", "severity", "timestamp", "hostname", "app_name"]
  | _ => []

end Layers

section Merge

theorem parseCEF_eq {raw : String} {fields : RawFields} (h : parseCEF raw = .ok fields) :
    fields = (cefHeader (cefTexts raw)).update (cefPairs (cefTexts raw)).entries := by
  rw [parseCEF] at h
  split at h
  · cases h
  · rw [cefTexts]
    split at h
    case h_1 version vendor product deviceVersion classId name severity extension hparts =>
      rw [hparts]
      cases extension with
      | nil =>
          cases h
          rfl
      | cons text rest =>
          simp only [cefPairs, List.getElem?_cons_succ, List.getElem?_cons_zero]
          dsimp only at h
          split at h <;> rename_i hblank
          · cases h
            rw [if_pos hblank]
            rfl
          · cases h
            rw [if_neg hblank]
            rfl
    case h_2 => cases h

theorem parseLEEF_eq {raw : String} {fields : RawFields} (h : parseLEEF raw = .ok fields) :
    fields = (leefHeader (leefTexts raw)).update (leefPairs (leefTexts raw)).entries := by
  rw [parseLEEF] at h
  split at h
  · cases h
  · rw [leefTexts]
    split at h
    case h_1 version vendor product productVersion eventId rest hparts =>
      rw [hparts]
      simp only [leefPairs]
      dsimp only at h
      split at h <;> rename_i hblank
      · cases h
        rw [if_pos hblank]
        rfl
      · cases h
        rw [if_neg hblank]
        rfl
    case h_2 => cases h

theorem parseBody_get? {e : Enumeration} {raw : String} {spec : ParserSpec} {fields : RawFields}
    (h : parseBody e raw spec = .ok fields) :
    ∀ k ∈ headerKeys spec.bodyParser.type,
      fields.get? k = ((bodyFields spec raw).get? k).or ((headerFields spec raw).get? k) := by
  intro k hk
  rw [parseBody] at h
  rw [bodyFields, headerFields]
  split at h
  case h_1 htype =>
    simp only [htype]
    rcases hsyslog : parseSyslog raw with ⟨syslogMeta, body⟩
    rw [hsyslog] at h
    by_cases hover : overSyslog spec raw
    · rw [if_pos (show _ ∧ _ from hover)] at h
      rw [if_pos hover, if_pos hover]
      cases h
      exact Dict.get?_update_of_nodup _ (parseKeyValue _ _ _).nodup k
    · rw [if_neg (show ¬ (_ ∧ _) from hover)] at h
      rw [if_neg hover, if_neg hover]
      cases h
      simp
  case h_2 htype =>
    rw [htype] at hk
    cases hk
  case h_3 htype =>
    simp only [htype]
    rw [parseCEF_eq h]
    exact Dict.get?_update_of_nodup _ (cefPairs _).nodup k
  case h_4 htype =>
    simp only [htype]
    rw [parseLEEF_eq h]
    exact Dict.get?_update_of_nodup _ (leefPairs _).nodup k
  case h_5 htype =>
    simp only [htype]
    rcases hsyslog : parseSyslog raw with ⟨syslogMeta, body⟩
    rw [hsyslog] at h
    cases h
    rw [Dict.get?_set, Dict.get?_ofList, List.reverse_singleton, lookup_cons]
    split <;> simp
  case h_6 htype =>
    rw [htype] at hk
    cases hk
  case h_7 => cases h

end Merge

section HeaderIntegrity

/-- Every key of the header holds what the header says. -/
def KeepsHeader (spec : ParserSpec) (raw : String) (fields : RawFields) : Prop :=
  ∀ k ∈ headerKeys spec.bodyParser.type, ∀ v, (headerFields spec raw).get? k = some v →
    fields.get? k = some v

/-- Where the extension or the body spells a key of the header, it says the same. -/
def ContradictsNoHeader (spec : ParserSpec) (raw : String) : Prop :=
  ∀ k ∈ headerKeys spec.bodyParser.type, ∀ v w, (headerFields spec raw).get? k = some v →
    (bodyFields spec raw).get? k = some w → w = v

theorem keepsHeader_iff_contradictsNoHeader {e : Enumeration} {raw : List UInt8}
    {spec : ValidSpec} {fields : RawFields}
    (h : parseBody e (ofBytes raw) spec.1 = .ok fields) :
    KeepsHeader spec.1 (ofBytes raw) fields ↔ ContradictsNoHeader spec.1 (ofBytes raw) :=
  Dict.keeps_iff_of_or (parseBody_get? h)

theorem contradictsNoHeader_of_syslog {spec : ParserSpec} (raw : String)
    (htype : spec.bodyParser.type = "syslog") : ContradictsNoHeader spec raw := by
  intro k hk v w _ hw
  rw [htype] at hk
  simp only [bodyFields, htype, Dict.get?_ofList, List.reverse_singleton] at hw
  obtain rfl : k = "message" := by
    by_contra hne
    simp [lookup_cons, Ne.symm hne] at hw
  exact absurd hk (by decide)

def cefSpec : ValidSpec :=
  ⟨plainSpec "cef" [("name", plainField "string" "event.action")],
    (validateParserSpec_eq_ok_iff _).mp (by decide +kernel)⟩

theorem keepsHeader_iff_contradictsNoHeader_cef :
    KeepsHeader cefSpec.1 (ofBytes (asciiBytes "CEF:0|acme|fw|1.0|100|blocked|5|src=10.0.0.1"))
        ((cefHeader ["0", "acme", "fw", "1.0", "100", "blocked", "5"]).set "src"
          (.str "10.0.0.1")) ↔
      ContradictsNoHeader cefSpec.1
        (ofBytes (asciiBytes "CEF:0|acme|fw|1.0|100|blocked|5|src=10.0.0.1")) :=
  keepsHeader_iff_contradictsNoHeader (e := Enumeration.standing) (by decide +kernel)

/-- The extension renames what was blocked. -/
theorem not_keepsHeader_forged :
    ¬ ∀ (e : Enumeration) (raw : List UInt8) (spec : ValidSpec) (fields : RawFields),
      parseBody e (ofBytes raw) spec.1 = .ok fields →
        KeepsHeader spec.1 (ofBytes raw) fields := by
  intro hall
  have hkept := hall Enumeration.standing
    (asciiBytes "CEF:0|acme|fw|1.0|100|blocked|5|name=forged") cefSpec
    ((cefHeader ["0", "acme", "fw", "1.0", "100", "blocked", "5"]).set "name" (.str "forged"))
    (by decide +kernel) "name" (by decide) (.str "blocked") (by decide +kernel)
  revert hkept
  decide +kernel

end HeaderIntegrity

end Ulpf.ParserRuntime
