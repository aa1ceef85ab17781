import Ulpf.Formats.Cef
import Ulpf.ParserRuntime.HeaderIntegrity
import Ulpf.ParserRuntime.PairNames

/-!
Which CEF headers `ParseCEF` reads back as they were written. It undoes the escape of a pipe, not
the one of a backslash.
-/

namespace Ulpf.ParserRuntime

open Ulpf.Lib
open Ulpf.Lib.Text
open Ulpf.Go
open Ulpf.Formats

section Parts

variable {room : ℕ} {part s rest : List Char}

theorem cefParts_pipe :
    cefParts (room + 1) part ('|' :: rest) = part.reverse :: cefParts room [] rest := by
  rw [cefParts.eq_4 _ _ _ _ (by simp), if_pos rfl]

theorem cefParts_escapedPipe :
    cefParts (room + 1) part ('\\' :: '|' :: rest) = cefParts (room + 1) ('|' :: part) rest := by
  rw [cefParts]

theorem cefParts_plain {c : Char} (hc : c ≠ '|') (hescape : c = '\\' → rest.head? ≠ some '|') :
    cefParts (room + 1) part (c :: rest) = cefParts (room + 1) (c :: part) rest := by
  rw [cefParts.eq_4, if_neg hc]
  rintro after hbackslash rfl
  exact hescape hbackslash rfl

theorem cefParts_field (hplain : '\\' ∉ s) :
    cefParts (room + 1) part (escape cefHeaderCode s ++ '|' :: rest) =
      (part.reverse ++ s) :: cefParts room [] rest := by
  induction s generalizing part with
  | nil => rw [escape_nil, List.nil_append, cefParts_pipe, List.append_nil]
  | cons c s ih =>
      obtain ⟨hc, hs⟩ : '\\' ≠ c ∧ '\\' ∉ s := by simpa using hplain
      by_cases hpipe : c = '|'
      · have hcode : cefHeaderCode c = some '|' := by rw [hpipe]; rfl
        rw [escape_cons_coded hcode, List.cons_append, List.cons_append, cefParts_escapedPipe,
          ih hs, hpipe, List.reverse_cons, List.append_assoc]
        rfl
      · have hcode : cefHeaderCode c = none := if_neg (by simp [Ne.symm hc, hpipe])
        rw [escape_cons_plain hcode, List.cons_append,
          cefParts_plain hpipe fun h => absurd h.symm hc, ih hs, List.reverse_cons,
          List.append_assoc]
        rfl

theorem exists_cefParts_cons (room : ℕ) (part s : List Char) :
    ∃ first parts, cefParts (room + 1) part s = first :: parts ∧ part.length ≤ first.length := by
  induction hlength : s.length using Nat.strong_induction_on generalizing part s with
  | _ n ih =>
      cases s with
      | nil => exact ⟨part.reverse, [], by rw [cefParts], by rw [List.length_reverse]⟩
      | cons c s =>
          by_cases hpipe : c = '|'
          · refine ⟨part.reverse, cefParts room [] s, ?_, by rw [List.length_reverse]⟩
            rw [hpipe, cefParts_pipe]
          · by_cases hescape : c = '\\' ∧ s.head? = some '|'
            · obtain ⟨rfl, hhead⟩ := hescape
              obtain ⟨after, rfl⟩ : ∃ after, s = '|' :: after := List.head?_eq_some_iff.mp hhead
              obtain ⟨first, parts, hparts, hle⟩ :=
                ih after.length (by simp at hlength; omega) ('|' :: part) after rfl
              refine ⟨first, parts, by rw [cefParts_escapedPipe, hparts], ?_⟩
              rw [List.length_cons] at hle
              omega
            · obtain ⟨first, parts, hparts, hle⟩ :=
                ih s.length (by simp at hlength; omega) (c :: part) s rfl
              refine ⟨first, parts, ?_, ?_⟩
              · rw [cefParts_plain hpipe fun hc hhead => hescape ⟨hc, hhead⟩, hparts]
              · rw [List.length_cons] at hle
                omega

theorem exists_cefParts_field (room : ℕ) (part s rest : List Char) :
    ∃ first parts,
      cefParts (room + 1) part (escape cefHeaderCode s ++ '|' :: rest) = first :: parts ∧
      part.length + s.length + s.count '\\' ≤ first.length := by
  induction s generalizing part with
  | nil => exact ⟨part.reverse, cefParts room [] rest, cefParts_pipe, by simp⟩
  | cons c s ih =>
      by_cases hpipe : c = '|'
      · have hcode : cefHeaderCode c = some '|' := by rw [hpipe]; rfl
        obtain ⟨first, parts, hparts, hle⟩ := ih ('|' :: part)
        refine ⟨first, parts, ?_, ?_⟩
        · rw [escape_cons_coded hcode, List.cons_append, List.cons_append, cefParts_escapedPipe,
            hparts]
        · simp only [hpipe, List.length_cons] at hle ⊢
          rw [List.count_cons_of_ne (by decide)]
          omega
      · by_cases hbackslash : c = '\\'
        · have hcode : cefHeaderCode c = some '\\' := by rw [hbackslash]; rfl
          have hfirst : cefParts (room + 1) part (escape cefHeaderCode (c :: s) ++ '|' :: rest) =
              cefParts (room + 1) ('\\' :: part)
                ('\\' :: (escape cefHeaderCode s ++ '|' :: rest)) := by
            rw [escape_cons_coded hcode, List.cons_append, List.cons_append,
              cefParts_plain (by decide) (by simp)]
          rw [hfirst, hbackslash, List.count_cons_self, List.length_cons]
          cases s with
          | nil =>
              -- the second backslash takes the pipe behind the field along
              rw [escape_nil, List.nil_append, cefParts_escapedPipe]
              obtain ⟨first, parts, hparts, hle⟩ :=
                exists_cefParts_cons room ('|' :: '\\' :: part) rest
              refine ⟨first, parts, hparts, ?_⟩
              simp only [List.length_cons, List.length_nil, List.count_nil] at hle ⊢
              omega
          | cons d s =>
              obtain ⟨first, parts, hparts, hle⟩ := ih ('\\' :: '\\' :: part)
              refine ⟨first, parts, ?_, ?_⟩
              · rw [cefParts_plain (by decide), hparts]
                intro _
                rw [List.head?_append_of_ne_nil]
                · exact head?_escape (by decide) (by decide)
                · simp [escape_eq_nil_iff]
              · simp only [List.length_cons] at hle ⊢
                omega
        · have hcode : cefHeaderCode c = none := if_neg (by simp [hbackslash, hpipe])
          obtain ⟨first, parts, hparts, hle⟩ := ih (c :: part)
          refine ⟨first, parts, ?_, ?_⟩
          · rw [escape_cons_plain hcode, List.cons_append,
              cefParts_plain hpipe fun h => absurd h hbackslash, hparts]
          · rw [List.count_cons_of_ne (by simpa using hbackslash)]
            simp only [List.length_cons] at hle ⊢
            omega

theorem cefParts_fields (room : ℕ) (rest : List Char) {texts : List String}
    (hplain : ∀ text ∈ texts, '\\' ∉ text.toList) :
    cefParts (room + texts.length) [] (cefFields texts ++ rest) =
      texts.map String.toList ++ cefParts room [] rest := by
  induction texts with
  | nil => rfl
  | cons text texts ih =>
      obtain ⟨htext, htexts⟩ := List.forall_mem_cons.mp hplain
      rw [cefFields_cons, List.append_assoc, List.cons_append, List.length_cons, ← Nat.add_assoc,
        cefParts_field htext, ih htexts]
      rfl

/-- The fields come back only if none of them has a backslash. -/
theorem not_mem_of_take_cefParts (room : ℕ) (rest : List Char) {texts : List String}
    (h : (cefParts (room + texts.length) [] (cefFields texts ++ rest)).take texts.length =
      texts.map String.toList) : ∀ text ∈ texts, '\\' ∉ text.toList := by
  induction texts with
  | nil => exact List.forall_mem_nil _
  | cons text texts ih =>
      rw [cefFields_cons, List.append_assoc, List.cons_append, List.length_cons, ← Nat.add_assoc]
        at h
      have hplain : '\\' ∉ text.toList := by
        obtain ⟨first, parts, hparts, hle⟩ := exists_cefParts_field (room + texts.length) []
          text.toList (cefFields texts ++ rest)
        rw [hparts, List.take_succ_cons, List.map_cons] at h
        rw [(List.cons.inj h).1, List.length_nil] at hle
        rw [← List.count_eq_zero]
        omega
      rw [cefParts_field hplain, List.take_succ_cons, List.map_cons] at h
      exact List.forall_mem_cons.mpr ⟨hplain, ih (List.cons.inj h).2⟩

/-- An escaped pipe is one of its field. -/
example : (cefParts 2 [] "a\\|b|c".toList).map String.ofList = ["a|b", "c"] := by
  decide +kernel

end Parts

section Messages

variable {version : ℕ} {header : CefHeader} {extension raw : String} {texts : List String}

/-- The text that `ParseCEF` hands to the scanner of pairs; a blank one is left out. -/
def scannedExtension (texts : List String) : String :=
  match texts[7]? with
  | some text => if trimSpace text = "" then "" else text
  | none => ""

theorem cefPairs_eq (texts : List String) :
    cefPairs texts = if scannedExtension texts = "" then Dict.empty
      else parseKeyValue (scannedExtension texts) " " "=" := by
  rw [cefPairs, scannedExtension]
  cases texts[7]? with
  | none => rfl
  | some text =>
      by_cases hblank : trimSpace text = ""
      · simp only [hblank, if_true]
      · have hne : text ≠ "" := by
          rintro rfl
          exact hblank rfl
        simp only [hblank, if_false, hne]

/-- `ParseCEF` reads every field of a header back and hands the extension on as it is. -/
def RecoversHeader (header : CefHeader) (extension raw : String) : Prop :=
  ∃ fields, parseCEF raw = .ok fields ∧
    (∀ entry ∈ header.entries, fields.get? entry.1 = some (.str entry.2)) ∧
    scannedExtension (cefTexts raw) = extension

theorem exists_seven (h : 7 ≤ texts.length) :
    ∃ version vendor product deviceVersion classId name severity rest,
      texts =
        version :: vendor :: product :: deviceVersion :: classId :: name :: severity :: rest := by
  match texts, h with
  | _ :: _ :: _ :: _ :: _ :: _ :: _ :: _, _ => exact ⟨_, _, _, _, _, _, _, _, rfl⟩

theorem exists_parseCEF_iff :
    (∃ fields, parseCEF raw = .ok fields) ↔
      "CEF:".toList <+: trim Unicode.isSpace raw.toList ∧ 7 ≤ (cefTexts raw).length := by
  rw [parseCEF, cefTexts]
  by_cases hpre : "CEF:".toList <+: trim Unicode.isSpace raw.toList
  · rw [if_neg (by simpa using hpre), and_iff_right hpre]
    generalize (cefParts 7 [] ((trim Unicode.isSpace raw.toList).drop 4)).map String.ofList = texts
    constructor
    · rintro ⟨fields, h⟩
      split at h
      · simp
      · cases h
    · intro h
      obtain ⟨version, vendor, product, deviceVersion, classId, name, severity, rest, rfl⟩ :=
        exists_seven h
      cases rest with
      | nil => exact ⟨_, rfl⟩
      | cons text rest =>
          by_cases hblank : trimSpace text = ""
          · exact ⟨_, if_pos hblank⟩
          · exact ⟨_, if_neg hblank⟩
  · have hnot : (!"CEF:".toList.isPrefixOf (trim Unicode.isSpace raw.toList)) = true := by
      rw [Bool.not_eq_true', ← Bool.not_eq_true, List.isPrefixOf_iff_prefix]
      exact hpre
    rw [if_pos hnot]
    constructor
    · rintro ⟨fields, h⟩
      cases h
    · exact fun h => absurd h.1 hpre

theorem map_get?_cefHeader (version vendor product deviceVersion classId name severity : String)
    (rest : List String) :
    (headerKeys "cef").map (cefHeader (version :: vendor :: product :: deviceVersion :: classId ::
      name :: severity :: rest)).get? =
      [vendor, product, deviceVersion, classId, name, severity].map fun text =>
        some (.str text) := by
  simp only [cefHeader, headerKeys, List.map_cons, List.map_nil, Dict.get?_ofList]
  rfl

theorem forall_cefHeader_iff (h : 7 ≤ texts.length) (header : CefHeader) :
    (∀ entry ∈ header.entries, (cefHeader texts).get? entry.1 = some (.str entry.2)) ↔
      texts.tail.take 6 = header.texts := by
  obtain ⟨version, vendor, product, deviceVersion, classId, name, severity, rest, rfl⟩ :=
    exists_seven h
  have hget := map_get?_cefHeader version vendor product deviceVersion classId name severity rest
  generalize cefHeader _ = fields at hget ⊢
  simp only [headerKeys, List.map_cons, List.cons.injEq] at hget
  obtain ⟨h1, h2, h3, h4, h5, h6, -⟩ := hget
  simp [CefHeader.entries, CefHeader.texts, h1, h2, h3, h4, h5, h6]

theorem recoversHeader_iff
    (hnames : ∀ entry ∈ header.entries, ¬ NamesPair extension " " "=" entry.1) :
    RecoversHeader header extension raw ↔
      "CEF:".toList <+: trim Unicode.isSpace raw.toList ∧ 7 ≤ (cefTexts raw).length ∧
        (cefTexts raw).tail.take 6 = header.texts ∧
        scannedExtension (cefTexts raw) = extension := by
  have hread {fields : RawFields} (h : parseCEF raw = .ok fields)
      (hextension : scannedExtension (cefTexts raw) = extension) :
      ∀ entry ∈ header.entries,
        fields.get? entry.1 = (cefHeader (cefTexts raw)).get? entry.1 := by
    intro entry hentry
    have habsent : (cefPairs (cefTexts raw)).get? entry.1 = none := by
      rw [cefPairs_eq, hextension]
      split
      · rfl
      · rw [← Option.not_isSome_iff_eq_none, ← Dict.mem_keys_iff, mem_keys_parseKeyValue]
        exact hnames entry hentry
    calc fields.get? entry.1
        = ((cefPairs (cefTexts raw)).get? entry.1).or
            ((cefHeader (cefTexts raw)).get? entry.1) := by
          rw [parseCEF_eq h]
          exact Dict.get?_update_of_nodup _ (cefPairs _).nodup entry.1
      _ = (cefHeader (cefTexts raw)).get? entry.1 := by rw [habsent, Option.none_or]
  constructor
  · rintro ⟨fields, hparse, hheader, hextension⟩
    obtain ⟨hpre, hlength⟩ := exists_parseCEF_iff.mp ⟨fields, hparse⟩
    refine ⟨hpre, hlength, ?_, hextension⟩
    rw [← forall_cefHeader_iff hlength]
    intro entry hentry
    rw [← hread hparse hextension entry hentry, hheader entry hentry]
  · rintro ⟨hpre, hlength, htexts, hextension⟩
    obtain ⟨fields, hparse⟩ := exists_parseCEF_iff.mpr ⟨hpre, hlength⟩
    refine ⟨fields, hparse, ?_, hextension⟩
    intro entry hentry
    rw [hread hparse hextension entry hentry]
    exact (forall_cefHeader_iff hlength header).mpr htexts entry hentry

theorem cefTexts_cefMessage (version : ℕ) (header : CefHeader) (extension : String) :
    cefTexts (cefMessage version header extension) =
      numeral version :: (cefParts 6 [] (cefFields header.texts ++
        extension.toList.rdropWhile Unicode.isSpace)).map String.ofList := by
  have hdigits := isDigit_numeral version
  have hplain : '\\' ∉ (numeral version).toList := fun h => absurd (hdigits _ h) (by decide)
  have hwritten : escape cefHeaderCode (numeral version).toList = (numeral version).toList := by
    apply escape_eq_self
    intro c hc
    rw [cefHeaderCode, if_neg]
    rintro (rfl | rfl)
    · exact absurd (hdigits _ hc) (by decide)
    · exact absurd (hdigits _ hc) (by decide)
  rw [cefTexts, trim_cefMessage (by decide) (by decide), List.drop_left', ← hwritten,
    cefParts_field hplain]
  · simp
  · rfl

/-- Behind six fields that come back stands the extension, without the white space at its end. -/
theorem scannedExtension_fields (version : String) (header : CefHeader) (s : List Char) :
    scannedExtension (version :: (header.texts ++
      (cefParts 0 [] (s.rdropWhile Unicode.isSpace)).map String.ofList)) =
        String.ofList (s.rdropWhile Unicode.isSpace) := by
  rw [cefParts]
  cases hs : s.rdropWhile Unicode.isSpace with
  | nil => rfl
  | cons c rest =>
      have hne : s.rdropWhile Unicode.isSpace ≠ [] := by simp [hs]
      have hsolid : ¬ trimSpace (String.ofList (c :: rest)) = "" := by
        intro hblank
        have hall : trim Unicode.isSpace (c :: rest) = [] := by
          simpa [trimSpace, onChars] using congrArg String.toList hblank
        rw [trim_eq_nil_iff, ← hs] at hall
        exact List.rdropWhile_last_not _ _ hne (hall _ (List.getLast_mem hne))
      simp only [List.isEmpty_cons, scannedExtension, CefHeader.texts]
      exact if_neg hsolid

/-- `ParseCEF` undoes the escapes of a header without backslashes; the extension has to end
before the white space that is cut off from a payload. -/
theorem recoversHeader_cefMessage_iff (version : ℕ)
    (hnames : ∀ entry ∈ header.entries, ¬ NamesPair extension " " "=" entry.1) :
    RecoversHeader header extension (cefMessage version header extension) ↔
      (∀ text ∈ header.texts, '\\' ∉ text.toList) ∧
        ∀ c ∈ extension.toList.getLast?, Unicode.isSpace c = false := by
  have hpre : "CEF:".toList <+:
      trim Unicode.isSpace (cefMessage version header extension).toList := by
    rw [trim_cefMessage (by decide) (by decide)]
    exact List.prefix_append _ _
  have htail : (cefTexts (cefMessage version header extension)).tail.take 6 =
      ((cefParts 6 [] (cefFields header.texts ++
        extension.toList.rdropWhile Unicode.isSpace)).take 6).map String.ofList := by
    rw [cefTexts_cefMessage, List.tail_cons, List.map_take]
  have hscanned (hplain : ∀ text ∈ header.texts, '\\' ∉ text.toList) :
      7 ≤ (cefTexts (cefMessage version header extension)).length ∧
        (cefTexts (cefMessage version header extension)).tail.take 6 = header.texts ∧
        scannedExtension (cefTexts (cefMessage version header extension)) =
          String.ofList (extension.toList.rdropWhile Unicode.isSpace) := by
    have hfields := cefParts_fields 0 (extension.toList.rdropWhile Unicode.isSpace) hplain
    rw [show 0 + header.texts.length = 6 from rfl] at hfields
    rw [cefTexts_cefMessage, hfields, List.map_append, List.map_map]
    simp only [Function.comp_def, String.ofList_toList, List.map_id_fun', id]
    refine ⟨by simp [CefHeader.texts], by simp [CefHeader.texts], ?_⟩
    exact scannedExtension_fields _ header extension.toList
  rw [recoversHeader_iff hnames]
  constructor
  · rintro ⟨-, -, htexts, hextension⟩
    have hplain : ∀ text ∈ header.texts, '\\' ∉ text.toList := by
      apply not_mem_of_take_cefParts 0 (extension.toList.rdropWhile Unicode.isSpace)
      rw [htail] at htexts
      have hchars := congrArg (List.map String.toList) htexts
      simp only [List.map_map, Function.comp_def, String.toList_ofList, List.map_id_fun', id]
        at hchars
      exact hchars
    refine ⟨hplain, ?_⟩
    rw [← rdropWhile_eq_self_iff]
    have hsame := (hscanned hplain).2.2.symm.trans hextension
    simpa using congrArg String.toList hsame
  · rintro ⟨hplain, hlast⟩
    obtain ⟨hlength, htexts, hextension⟩ := hscanned hplain
    refine ⟨hpre, hlength, htexts, ?_⟩
    rw [hextension, rdropWhile_eq_self_iff.mpr hlast, String.ofList_toList]

def sampleHeader (vendor : String) : CefHeader := ⟨vendor, "fw", "1.0", "100", "blocked", "5"⟩

theorem recoversHeader_cefMessage_iff_plain :
    RecoversHeader (sampleHeader "ac|me") "src=10.0.0.1"
        (cefMessage 0 (sampleHeader "ac|me") "src=10.0.0.1") ↔
      (∀ text ∈ (sampleHeader "ac|me").texts, '\\' ∉ text.toList) ∧
        ∀ c ∈ "src=10.0.0.1".toList.getLast?, Unicode.isSpace c = false :=
  recoversHeader_cefMessage_iff 0 (by
    simp only [← mem_keys_parseKeyValue]
    decide +kernel)

/-- The backslash of a vendor comes back twice. -/
theorem not_recoversHeader_backslash :
    ¬ ∀ (version : ℕ) (header : CefHeader) (extension : String),
      (∀ entry ∈ header.entries, ¬ NamesPair extension " " "=" entry.1) →
        RecoversHeader header extension (cefMessage version header extension) := by
  intro hall
  have hrecovers := hall 0 (sampleHeader "ac\\me") "" (by
    simp only [← mem_keys_parseKeyValue]
    decide +kernel)
  obtain ⟨fields, hparse, hheader, -⟩ := hrecovers
  have hread : parseCEF (cefMessage 0 (sampleHeader "ac\\me") "") =
      .ok (cefHeader ["0", "ac\\\\me", "fw", "1.0", "100", "blocked", "5"]) := by
    decide +kernel
  cases hread.symm.trans hparse
  have hvendor := hheader ("device_vendor", "ac\\me")
    (by simp [CefHeader.entries, sampleHeader, CefHeader.texts])
  revert hvendor
  decide +kernel

end Messages

end Ulpf.ParserRuntime
