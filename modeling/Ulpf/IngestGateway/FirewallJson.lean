import Ulpf.IngestGateway.Firewall
import Ulpf.Lib.JsonStream
import Ulpf.ParserRuntime.NoLoss

/-!
What the firewall lets through as JSON, and what the parser reads of it. The firewall
stops without an error wherever the tokens of a payload stop, the parser reads one
whole document.
-/

namespace Ulpf.IngestGateway

open Ulpf.Lib
open Ulpf.Lib.Text
open Ulpf.Lib.JsonText (Blank Plain skipSpace)
open Ulpf.Lib.JsonTokens (Encloses)
open Ulpf.Go
open Ulpf.ParserRuntime (asciiBytes flattenJSON maxNestingDepth parseJSON unmarshal)

section Spaces

theorem isSpace_of_json {c : Char} (h : JsonText.isSpace c = true) : Unicode.isSpace c = true := by
  have hspace : c = ' ' ∨ c = '\t' ∨ c = '\n' ∨ c = '\r' := by
    simpa [JsonText.isSpace, or_assoc] using h
  rcases hspace with rfl | rfl | rfl | rfl <;> decide

theorem plain_of_isSpace {c : Char} (h : Unicode.isSpace c = true) : Plain c := by
  refine ⟨?_, ?_, ?_, ?_, ?_⟩ <;> rintro rfl <;> exact absurd h (by decide)

/-- After JSON white space and a brace, all white space before the brace is gone. -/
theorem dropWhile_of_skipSpace {text tail : List Char} (h : skipSpace text = '{' :: tail) :
    text.dropWhile Unicode.isSpace = '{' :: tail := by
  have htext : text = text.takeWhile JsonText.isSpace ++ '{' :: tail := by
    rw [← h]
    exact (List.takeWhile_append_dropWhile).symm
  rw [htext, List.dropWhile_append_of_pos fun c hc =>
    isSpace_of_json (List.mem_takeWhile_imp hc)]
  rfl

end Spaces

section Acceptance

variable {cfg : FirewallConfig} {syntaxError : List Char → String} {ctxErr : Option String}
  {raw : List UInt8}

theorem clean_of_accepted (haccept : (inspect cfg syntaxError ctxErr raw).status = .accepted)
    {tail : List Char} (hbrace : trim Unicode.isSpace (ofBytes raw).toList = '{' :: tail) :
    (decoderTokens ('{' :: tail)).2 = true := by
  obtain ⟨-, -, -, hstructure⟩ := inspect_accepted_iff.mp haccept
  rw [hbrace, inspectStructure, if_pos (.inl rfl)] at hstructure
  exact (inspectJSONStructure_eq_ok_iff.mp hstructure).2

/-- White space of the payload that follows where its first brace is closed is JSON
white space. -/
theorem blank_of_encloses {text : List Char} {opts : JsonText.Options}
    (h : Encloses opts text) :
    ∃ after, skipSpace text = trim Unicode.isSpace text ++ after ∧ Blank after := by
  obtain ⟨tail, rest, htail, hclosing, hblank⟩ := h
  obtain ⟨after, hafter, hspace⟩ := exists_dropWhile_eq_trim_append Unicode.isSpace text
  rw [dropWhile_of_skipSpace htail] at hafter
  refine ⟨after, htail.trans hafter, ?_⟩
  rw [hafter] at hclosing
  cases htrimmed : JsonText.closing opts 0 false (trim Unicode.isSpace text) with
  | none =>
      have hnone := JsonTokens.closing_append_none (fun c hc => plain_of_isSpace (hspace c hc))
        htrimmed
      rw [hnone] at hclosing
      cases hclosing
  | some r =>
      rw [JsonTokens.closing_append_some htrimmed] at hclosing
      obtain rfl := Option.some.inj hclosing
      exact fun c hc => hblank c (List.mem_append_right _ hc)

/-- A payload is one JSON object, and `ParseJSON` reads it. -/
def ReadAsObject (e : Enumeration) (raw : String) : Prop :=
  ∃ members, unmarshal raw = some (.obj members) ∧
    parseJSON e raw = .ok (Dict.ofList (flattenJSON e [] "" (.obj members)))

theorem readAsObject_of_unmarshal (e : Enumeration) {raw : String}
    {members : List (String × Value)} (h : unmarshal raw = some (.obj members)) :
    ReadAsObject e raw :=
  ⟨members, h, by rw [parseJSON, h]⟩

theorem unmarshal_eq_obj {raw : String} {members : List (String × Json NumLit)}
    (h : JsonText.parse ⟨false, some maxNestingDepth⟩ raw.toList = some (.obj members))
    (hfits : (Json.obj members).numbers.all fitsFloat64 = true) :
    ∃ members', unmarshal raw = some (.obj members') := by
  rw [unmarshal, h]
  simp only [Option.bind_eq_bind, Option.bind_some]
  rw [if_neg]
  · exact ⟨_, rfl⟩
  · intro hany
    obtain ⟨n, hn, hinf⟩ := List.any_eq_true.mp hany
    have hfit := List.all_eq_true.mp hfits n hn
    rw [fitsFloat64] at hfit
    cases hvalue : n.toBinary64 <;> simp_all

theorem parse_of_unmarshal {raw : String} {members : List (String × Value)}
    (h : unmarshal raw = some (.obj members)) :
    ∃ members', JsonText.parse ⟨false, some maxNestingDepth⟩ raw.toList = some (.obj members') := by
  obtain ⟨doc, hparse, hdoc⟩ := Option.bind_eq_some_iff.mp h
  split at hdoc
  · cases hdoc
  · have hobj := Option.some.inj hdoc
    cases doc with
    | obj members' => exact ⟨members', hparse⟩
    | _ => cases hobj

/-- The parser reads what the firewall accepts from its first brace on, if the braces of
the payload enclose all of it. -/
theorem readAsObject_iff_encloses (e : Enumeration)
    (haccept : (inspect cfg syntaxError ctxErr raw).status = .accepted) {tail : List Char}
    (hbrace : trim Unicode.isSpace (ofBytes raw).toList = '{' :: tail) :
    ReadAsObject e (ofBytes raw) ↔
      Encloses ⟨false, some maxNestingDepth⟩ (ofBytes raw).toList := by
  constructor
  · rintro ⟨members, hmembers, -⟩
    obtain ⟨members', hparse⟩ := parse_of_unmarshal hmembers
    exact JsonTokens.encloses_of_parse hparse
  · intro henclosed
    obtain ⟨after, hafter, hblank⟩ := blank_of_encloses henclosed
    have hclean : (decoderTokens (ofBytes raw).toList).2 = true := by
      rw [decoderTokens, ← JsonTokens.tokensFrom_skipSpace, hafter, hbrace,
        JsonTokens.tokensFrom_append hblank (clean_of_accepted haccept hbrace)]
      exact clean_of_accepted haccept hbrace
    obtain ⟨members, hparse, hfits⟩ := JsonTokens.parse_of_encloses henclosed hclean
    obtain ⟨members', hmembers'⟩ := unmarshal_eq_obj hparse hfits
    exact readAsObject_of_unmarshal e hmembers'

theorem readAsObject_iff_encloses_user :
    ReadAsObject .standing (ofBytes (asciiBytes "\x7b\"user\": \"alice\"\x7d")) ↔
      Encloses ⟨false, some maxNestingDepth⟩
        (ofBytes (asciiBytes "\x7b\"user\": \"alice\"\x7d")).toList := by
  have haccept : (inspect defaultFirewallConfig (fun _ => "") none
      (asciiBytes "\x7b\"user\": \"alice\"\x7d")).status = .accepted := by
    decide +kernel
  have hbrace : trim Unicode.isSpace (ofBytes (asciiBytes "\x7b\"user\": \"alice\"\x7d")).toList =
      '{' :: "\"user\": \"alice\"\x7d".toList := by
    decide +kernel
  exact readAsObject_iff_encloses .standing haccept hbrace

/-- A payload that breaks off after a value is accepted, and cannot be parsed. -/
theorem not_readAsObject_truncated :
    ¬ ∀ (cfg : FirewallConfig) (syntaxError : List Char → String) (ctxErr : Option String)
      (raw : List UInt8) (tail : List Char) (e : Enumeration),
      (inspect cfg syntaxError ctxErr raw).status = .accepted →
        trim Unicode.isSpace (ofBytes raw).toList = '{' :: tail → ReadAsObject e (ofBytes raw) := by
  intro hall
  obtain ⟨members, hmembers, -⟩ := hall defaultFirewallConfig (fun _ => "") none
    (asciiBytes "\x7b\"user\": \"alice\"") "\"user\": \"alice\"".toList .standing
    (by decide +kernel) (by decide +kernel)
  have hnone : unmarshal (ofBytes (asciiBytes "\x7b\"user\": \"alice\"")) = none := by
    decide +kernel
  rw [hnone] at hmembers
  cases hmembers

end Acceptance

end Ulpf.IngestGateway
