import Mathlib.Data.Nat.Digits.Defs
import Mathlib.Data.Nat.ModEq
import Ulpf.Lib.Outcome
import Ulpf.SourceProfiler.Profile

/-!
`TemplateMiner`: how a message is masked for its template, and which templates the
ids of a profile tell apart.
-/

namespace Ulpf.SourceProfiler

open Ulpf.Lib
open Ulpf.Lib.Regex
open Ulpf.Lib.Text
open Ulpf.Python

/-- The characters of `\w`, which Unicode versions agree on in the ASCII block. -/
structure WordTable where
  isWord : Char → Bool
  isWord_ascii : ∀ c : Char, c.toNat < 128 → isWord c = (isAlnum c || c = '_')

def WordTable.ascii : WordTable := ⟨fun c => isAlnum c || c = '_', fun _ _ => rfl⟩

/-- One of the alternatives of a mask, with `\b` at its ends or not. -/
structure Branch where
  boundLeft : Bool
  body : Regex
  boundRight : Bool

section Masks

variable (u : Unicode)

def bounded (body : Regex) : Branch := ⟨true, body, true⟩

def month : Regex :=
  anyOf (["Jan", "Feb", "Mar", "Apr", "May", "Jun", "Jul", "Aug", "Sep", "Oct", "Nov",
    "Dec"].map text)

/-- `RE_MASK_ISO8601` -/
def reMaskIso8601 : List Branch :=
  let two := times (digit u) 2
  [bounded (all [times (digit u) 4, text "-", two, text "-", two, oneOf "T ", clockTime u,
    opt (seq (text ".") (some (digit u))),
    opt (alt (text "Z") (all [oneOf "+-", two, opt (text ":"), two]))])]

/-- `RE_MASK_SYSLOG_DATE` -/
def reMaskSyslogDate : List Branch :=
  [bounded (all [month, some space, between (digit u) 1 1, some space, clockTime u])]

/-- `RE_MASK_HTTP_DATE` -/
def reMaskHttpDate : List Branch :=
  [bounded (all [times (digit u) 2, text "/", month, text "/", times (digit u) 4, text ":",
    clockTime u, some space, oneOf "+-", times (digit u) 4])]

/-- `RE_MASK_UUID` -/
def reMaskUuid : List Branch :=
  [bounded (all [times hex 8, text "-", times hex 4, text "-", times hex 4, text "-", times hex 4,
    text "-", times hex 12])]

/-- `RE_MASK_IPV6` -/
def reMaskIpv6 : List Branch :=
  let block := seq (between hex 1 3) (text ":")
  [bounded (seq (times block 7) (between hex 1 3)),
    ⟨true, seq (between block 1 6) (text ":"), false⟩,
    ⟨false, seq (text ":") (between (seq (text ":") (between hex 1 3)) 1 6), true⟩]

/-- `RE_MASK_MAC` -/
def reMaskMac : List Branch :=
  [bounded (seq (times (seq (times hex 2) (oneOf ":-")) 5) (times hex 2))]

/-- `RE_MASK_URL` -/
def reMaskUrl : List Branch :=
  let scheme := anyOf [seq (ignoreCase "http") (opt (ignoreCase "s")), ignoreCase "ftp",
    ignoreCase "sftp"]
  [⟨true, all [scheme, text "://", some nonSpace], false⟩]

/-- `RE_MASK_EMAIL` -/
def reMaskEmail : List Branch :=
  let run (s : String) : Regex := some (char fun c => isAlnum c || s.toList.contains c)
  [bounded (all [run "_.+-", text "@", run "-", text ".", run "-."])]

/-- `RE_MASK_WIN_PATH` -/
def reMaskWinPath : List Branch :=
  let name := noneOf "\\/:*?\"<>|\r\n"
  [⟨true, all [alt (range 'a' 'z') (range 'A' 'Z'), text ":\\",
    many (seq (some name) (text "\\")), many name], false⟩]

/-- `RE_MASK_UNIX_PATH` -/
def reMaskUnixPath : List Branch :=
  let step := seq (text "/") (some (char fun c => isAlnum c || "_.-".toList.contains c))
  [⟨false, all [step, step, many step], false⟩]

/-- `RE_MASK_HEX` -/
def reMaskHex : List Branch :=
  [bounded (seq (text "0x") (some hex)), bounded (between hex 16 48)]

/-- `RE_MASK_QUOTED` -/
def reMaskQuoted : List Branch :=
  let quoted (mark : String) := all [text mark, escapedRun notLineFeed mark, text mark]
  [⟨false, quoted "\"", false⟩, ⟨false, quoted "'", false⟩]

/-- `RE_MASK_NUMBERS` -/
def reMaskNumbers : List Branch :=
  let digits : Regex := some (digit u)
  [bounded (all [digits, text ".", digits]), bounded digits]

end Masks

section Substitution

variable (w : WordTable)

/-- `\b`: a character of a word on exactly one side. -/
def atBoundary (c : Cursor) : Bool := (c.before.any w.isWord) != (c.rest.head?.any w.isWord)

/-- All matches of the alternatives at a cursor in order of preference. -/
def runBranches (branches : List Branch) (c : Cursor) : List Cursor :=
  branches.flatMap fun branch =>
    if branch.boundLeft && !atBoundary w c then []
    else (Regex.run branch.body c).filter fun c' => !branch.boundRight || atBoundary w c'

/-- A text with a replacement for each match; the counter passes over what is left of the
last one. -/
def subFrom (branches : List Branch) (replacement : List Char) :
    ℕ → Option Char → List Char → List Char
  | _, _, [] => []
  | skip + 1, _, x :: rest => subFrom branches replacement skip (Option.some x) rest
  | 0, before, x :: rest =>
      match (runBranches w branches ⟨before, x :: rest, []⟩).head? with
      | Option.some c =>
          replacement ++
            subFrom branches replacement (rest.length - c.rest.length) (Option.some x) rest
      | none => x :: subFrom branches replacement 0 (Option.some x) rest

/-- `regex.sub(replacement, text)`; no mask matches the empty text. -/
def sub (branches : List Branch) (replacement : String) (s : List Char) : List Char :=
  subFrom w branches replacement.toList 0 none s

variable (u : Unicode)

/-- `mask_message` -/
def maskMessage (message : String) : String :=
  if message = "" then ""
  else
    let masked := [(reMaskUrl, "<URL>"), (reMaskEmail, "<EMAIL>"),
        (reMaskIso8601 u, "<TIMESTAMP>"), (reMaskHttpDate u, "<TIMESTAMP>"),
        (reMaskSyslogDate u, "<TIMESTAMP>"), (reMaskUuid, "<UUID>"), (reMaskMac, "<MAC>"),
        ([bounded (reMaskIpv4 u)], "<IP>"), (reMaskIpv6, "<IP>"), (reMaskWinPath, "<PATH>"),
        (reMaskUnixPath, "<PATH>"), (reMaskHex, "<HEX>"), (reMaskQuoted, "\"<STR>\""),
        (reMaskNumbers u, "<NUM>"), ([⟨false, some space, false⟩], " ")].foldl
      (fun s (mask : List Branch × String) => sub w mask.1 mask.2 s) message.toList
    strip (String.ofList masked)

end Substitution

section Hash

def hexValue (c : Char) : ℕ := if c.toNat < 58 then c.toNat - 48 else c.toNat - 87

/-- The number a text of hexadecimal digits spells. -/
def hexNumber (digits : List Char) : ℕ := digits.foldl (fun n c => n * 16 + hexValue c) 0

theorem hexValue_digitChar {n : ℕ} (h : n < 16) : hexValue n.digitChar = n := by
  have hall : ∀ d : Fin 16, hexValue (Nat.digitChar d) = d := by decide
  exact hall ⟨n, h⟩

theorem hexNumber_concat (digits : List Char) (c : Char) :
    hexNumber (digits ++ [c]) = hexNumber digits * 16 + hexValue c := by
  simp [hexNumber]

theorem hexNumber_toDigits (n : ℕ) : hexNumber (Nat.toDigits 16 n) = n := by
  induction n using Nat.strong_induction_on with
  | _ n ih =>
      rcases Nat.lt_or_ge n 16 with hlt | hge
      · rw [Nat.toDigits_of_lt_base hlt]
        show 0 * 16 + hexValue n.digitChar = n
        rw [hexValue_digitChar hlt]
        omega
      · rw [Nat.toDigits_of_base_le (by decide) hge, hexNumber_concat,
          ih (n / 16) (by omega), hexValue_digitChar (Nat.mod_lt n (by decide))]
        omega

theorem hexNumber_zeros (k : ℕ) (digits : List Char) :
    hexNumber (List.replicate k '0' ++ digits) = hexNumber digits := by
  induction k with
  | zero => rfl
  | succ k ih => exact ih

theorem hexPadded_injective (width : ℕ) : Function.Injective (hexPadded width) := by
  intro m n h
  have hnumber : ∀ k, hexNumber (hexPadded width k) = k := fun k => by
    rw [hexPadded, hexNumber_zeros, hexNumber_toDigits]
  rw [← hnumber m, h, hnumber]

/-- The characters of a pattern as the digits of a number to base 31. -/
def patternValue (pattern : String) : ℕ :=
  Nat.ofDigits 31 (pattern.toList.map Char.toNat).reverse

/-- The hash of an id is the value of the pattern modulo `2 ^ 32`, by induction from the last
character. -/
theorem foldl_hash (s : List Char) :
    s.foldl (fun h c => (h * 31 + c.toNat) % 2 ^ 32) 0 =
      Nat.ofDigits 31 (s.map Char.toNat).reverse % 2 ^ 32 := by
  induction s using List.reverseRecOn with
  | nil => rfl
  | append_singleton s c ih =>
      rw [List.foldl_append, ih, List.foldl_cons, List.foldl_nil, List.map_append,
        List.reverse_append, List.map_singleton, List.reverse_singleton, List.singleton_append,
        Nat.ofDigits_cons, Nat.add_mod, Nat.mod_mul_mod, ← Nat.add_mod]
      congr 1
      ring

theorem generateTemplateId_eq_iff {pattern pattern' : String} :
    generateTemplateId pattern = generateTemplateId pattern' ↔
      patternValue pattern ≡ patternValue pattern' [MOD 2 ^ 32] := by
  simp only [generateTemplateId, String.ofList_inj, List.append_cancel_left_eq,
    (hexPadded_injective 8).eq_iff, foldl_hash]
  rfl

theorem char_toNat_lt (c : Char) : c.toNat < 2 ^ 32 := c.val.toNat_lt

/-- Patterns that differ in one character have different values: 31 is a unit modulo
`2 ^ 32`, and no two characters have codes that far apart. -/
theorem generateTemplateId_ne_of_one_apart {front back : List Char} {a b : Char} (hne : a ≠ b) :
    generateTemplateId (String.ofList (front ++ a :: back)) ≠
      generateTemplateId (String.ofList (front ++ b :: back)) := by
  have hvalue : ∀ c, patternValue (String.ofList (front ++ c :: back)) =
      Nat.ofDigits 31 (back.map Char.toNat).reverse +
        31 ^ back.length * (c.toNat + 31 * Nat.ofDigits 31 (front.map Char.toNat).reverse) := by
    intro c
    simp [patternValue, Nat.ofDigits_append, Nat.ofDigits_cons]
  intro hid
  rw [generateTemplateId_eq_iff, hvalue, hvalue] at hid
  have hunit : Nat.gcd (2 ^ 32) (31 ^ back.length) = 1 :=
    Nat.Coprime.pow 32 back.length (by decide)
  have hcancel := Nat.ModEq.cancel_left_of_coprime hunit (Nat.ModEq.add_left_cancel' _ hid)
  have hcodes := Nat.ModEq.add_right_cancel' _ hcancel
  have hcode := Nat.ModEq.eq_of_lt_of_lt hcodes (char_toNat_lt a) (char_toNat_lt b)
  exact hne (Char.toNat_inj.mp hcode)

end Hash

section Templates

variable {u : Unicode} {mask : String → String} {sampleLimit : ℕ} {logs : List String}

theorem templateId_of_mem {validRecords : ℕ} {templates : Dict String TemplateTally}
    {t : TemplateProfile} (h : t ∈ templateProfiles validRecords templates) :
    t.templateId = generateTemplateId t.templatePattern := by
  obtain ⟨entry, -, rfl⟩ := List.mem_map.mp h
  rfl

theorem nodup_templatePattern (validRecords : ℕ) (templates : Dict String TemplateTally) :
    ((templateProfiles validRecords templates).map TemplateProfile.templatePattern).Nodup := by
  have hpatterns : (templateProfiles validRecords templates).map TemplateProfile.templatePattern =
      ((templates.entries.mergeSort fun a b => b.2.count ≤ a.2.count).take 50).map Prod.fst := by
    rw [templateProfiles, List.map_map]
    rfl
  have hperm := (List.mergeSort_perm templates.entries fun a b => b.2.count ≤ a.2.count).map
    Prod.fst
  rw [hpatterns, List.map_take]
  exact (hperm.nodup_iff.mpr templates.nodup).sublist (List.take_sublist _ _)

theorem exists_templateProfile {validRecords : ℕ} {templates : Dict String TemplateTally}
    (hfew : templates.keys.length ≤ 50) {pattern : String} (hmem : pattern ∈ templates.keys) :
    ∃ t ∈ templateProfiles validRecords templates, t.templatePattern = pattern := by
  obtain ⟨entry, hentry, rfl⟩ := List.mem_map.mp hmem
  have hsorted := List.mergeSort_perm templates.entries fun a b => b.2.count ≤ a.2.count
  have htake : (templates.entries.mergeSort fun a b => b.2.count ≤ a.2.count).take 50 =
      templates.entries.mergeSort fun a b => b.2.count ≤ a.2.count := by
    rw [List.take_of_length_le]
    rw [hsorted.length_eq]
    simpa [Dict.keys] using hfew
  refine ⟨_, List.mem_map.mpr ⟨entry, ?_, rfl⟩, rfl⟩
  rw [htake]
  exact hsorted.mem_iff.mpr hentry

theorem exists_templates {p : SourceProfile} (h : profile u mask sampleLimit logs = .ok p) :
    ∃ validRecords templates, p.templates = templateProfiles validRecords templates := by
  rw [profile] at h
  split at h
  · cases h
    exact ⟨0, Dict.empty, by simp [templateProfiles, emptyProfile, Dict.empty]⟩
  · obtain ⟨s, -, hp⟩ := bind_eq_ok_iff.mp h
    cases hp
    exact ⟨s.validRecords, s.templates, rfl⟩

/-- Two patterns of one length that differ in a single character. -/
def OneApart (pattern pattern' : String) : Prop :=
  ∃ front a b back, a ≠ b ∧ pattern = String.ofList (front ++ a :: back) ∧
    pattern' = String.ofList (front ++ b :: back)

/-- A batch whose two templates have one id. -/
def collidingLogs : List String :=
  ["\x7b\"message\":\"Aa\"\x7d", "\x7b\"message\":\"BB\"\x7d"]

theorem exists_profile_of_collidingLogs :
    ∃ p, profile .ascii (maskMessage .ascii .ascii) 1000 collidingLogs = .ok p ∧
      ∀ pattern ∈ ["Aa", "BB"], ∃ t ∈ p.templates, t.templatePattern = pattern := by
  have hlines : (linesOf collidingLogs).isEmpty = false := by decide +kernel
  have hrun : ((rowsOf .ascii 1000 collidingLogs).foldlM
      (profileLine .ascii (maskMessage .ascii .ascii) (batchOf .ascii 1000 collidingLogs)
        (headersOf .ascii 1000 collidingLogs)) ProfileState.init).toOption.map
      (fun s => s.templates.keys) = some ["Aa", "BB"] := by
    decide +kernel
  obtain ⟨s, hs, hkeys⟩ := Option.map_eq_some_iff.mp hrun
  refine ⟨profileOfRun (linesOf collidingLogs) (batchOf .ascii 1000 collidingLogs) s, ?_, ?_⟩
  · simp only [profile, hlines, Bool.false_eq_true, if_false, toOption_eq_some_iff.mp hs]
    rfl
  · intro pattern hpattern
    rw [← hkeys] at hpattern
    exact exists_templateProfile (by rw [hkeys]; decide) hpattern

/-- The templates of a profile have different patterns, and their ids tell them apart exactly
when the values of the patterns differ modulo `2 ^ 32`, as they do for patterns that differ in
one character. -/
theorem template_ids_tell_values_apart {p : SourceProfile}
    (h : profile u mask sampleLimit logs = .ok p) :
    (p.templates.map TemplateProfile.templatePattern).Nodup ∧
      ∀ t ∈ p.templates, ∀ t' ∈ p.templates,
        (t.templateId ≠ t'.templateId ↔
          ¬ patternValue t.templatePattern ≡ patternValue t'.templatePattern [MOD 2 ^ 32]) ∧
        (OneApart t.templatePattern t'.templatePattern → t.templateId ≠ t'.templateId) := by
  obtain ⟨validRecords, templates, htemplates⟩ := exists_templates h
  rw [htemplates]
  refine ⟨nodup_templatePattern validRecords templates, fun t ht t' ht' => ?_⟩
  rw [templateId_of_mem ht, templateId_of_mem ht']
  refine ⟨generateTemplateId_eq_iff.not, ?_⟩
  rintro ⟨front, a, b, back, hne, hpattern, hpattern'⟩
  rw [hpattern, hpattern']
  exact generateTemplateId_ne_of_one_apart hne

theorem template_ids_tell_values_apart_colliding : ∃ p,
    profile .ascii (maskMessage .ascii .ascii) 1000 collidingLogs = .ok p ∧
      (p.templates.map TemplateProfile.templatePattern).Nodup ∧
      ∀ t ∈ p.templates, ∀ t' ∈ p.templates,
        (t.templateId ≠ t'.templateId ↔
          ¬ patternValue t.templatePattern ≡ patternValue t'.templatePattern [MOD 2 ^ 32]) ∧
        (OneApart t.templatePattern t'.templatePattern → t.templateId ≠ t'.templateId) := by
  obtain ⟨p, hp, -⟩ := exists_profile_of_collidingLogs
  exact ⟨p, hp, template_ids_tell_values_apart hp⟩

/-- The ids of a profile need not tell its templates apart. -/
theorem not_template_ids_tell_patterns_apart :
    ¬ ∀ (logs : List String) (p : SourceProfile),
      profile .ascii (maskMessage .ascii .ascii) 1000 logs = .ok p →
        ∀ t ∈ p.templates, ∀ t' ∈ p.templates,
          t.templatePattern ≠ t'.templatePattern → t.templateId ≠ t'.templateId := by
  intro hall
  obtain ⟨p, hp, htemplates⟩ := exists_profile_of_collidingLogs
  obtain ⟨t, ht, hpattern⟩ := htemplates "Aa" (by simp)
  obtain ⟨t', ht', hpattern'⟩ := htemplates "BB" (by simp)
  obtain ⟨validRecords, templates, hprofiles⟩ := exists_templates hp
  have hids : t.templateId = t'.templateId := by
    rw [hprofiles] at ht ht'
    rw [templateId_of_mem ht, templateId_of_mem ht', hpattern, hpattern',
      generateTemplateId_eq_iff]
    decide
  exact hall collidingLogs p hp t ht t' ht' (by rw [hpattern, hpattern']; decide) hids

end Templates

end Ulpf.SourceProfiler
