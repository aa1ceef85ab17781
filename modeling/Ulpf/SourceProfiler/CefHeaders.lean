import Ulpf.Formats.Cef
import Ulpf.Lib.RegexSearch
import Ulpf.Python.Numerals
import Ulpf.SourceProfiler.Parsers

/-!
The CEF headers that `CEFParser.parse` reads back: all of them.
-/

namespace Ulpf.SourceProfiler

open Ulpf.Lib
open Ulpf.Lib.Regex
open Ulpf.Lib.Text
open Ulpf.Python
open Ulpf.Formats

section Fields

variable {s rest : List Char} {α : Type} {k : Cursor → Option α} {a : α} {before : Option Char}
  {groups : List (ℕ × List Char)}

/-- The characters of a field between its escapes. -/
def isPlain (c : Char) : Bool := !("\\" ++ "|").toList.contains c

theorem isPlain_iff {c : Char} : isPlain c = true ↔ c ≠ '\\' ∧ c ≠ '|' := by
  have hset : ("\\" ++ "|").toList = ['\\', '|'] := by decide
  rw [isPlain, hset]
  simp

theorem head?_dropWhile_isPlain (s rest : List Char) :
    ∀ c ∈ (s.dropWhile isPlain ++ '|' :: rest).head?, isPlain c = false := by
  apply of_mem_head?_dropWhile_append
  rintro c ⟨rfl⟩
  decide

/-- A backslash with the character it takes along, and the plain characters after them. -/
def escapeRound : Regex := all [text "\\", anyChar, many (noneOf ("\\" ++ "|"))]

theorem consumes_escapeRound : Consumes escapeRound := (consumes_char _).seq _

theorem reads_escapeRound {c : Char} (hs : ∀ x ∈ s, isPlain x = true)
    (hrest : ∀ x ∈ rest.head?, isPlain x = false) :
    Reads escapeRound ('\\' :: c :: s) rest :=
  (reads_text "\\" _).seq ((reads_char rfl _).seq (reads_many_char hs hrest))

/-- After the plain characters at its head, a field is read in rounds. -/
theorem reads_rounds (hs : Escaped '|' s) (rest : List Char) :
    Reads (many escapeRound) (s.dropWhile isPlain) ('|' :: rest) := by
  induction hs with
  | nil =>
      apply Reads.star_nil consumes_escapeRound
      refine (stuck_char ?_).seq _
      rintro x ⟨⟩
      decide
  | plain hbackslash hpipe _ ih =>
      rwa [List.dropWhile_cons_of_pos (isPlain_iff.mpr ⟨hbackslash, hpipe⟩)]
  | @pair c s _ ih =>
      have hround : ('\\' :: c :: s).dropWhile isPlain =
          ('\\' :: c :: s.takeWhile isPlain) ++ s.dropWhile isPlain := by
        rw [List.dropWhile_cons_of_neg (by decide), List.cons_append, List.cons_append,
          List.takeWhile_append_dropWhile]
      rw [hround]
      exact Reads.star_cons consumes_escapeRound (reads_escapeRound
        (fun x hx => List.mem_takeWhile_imp hx) (head?_dropWhile_isPlain s rest)) ih

theorem reads_field (hs : Escaped '|' s) (rest : List Char) :
    Reads (escapedRun anyChar "|") s ('|' :: rest) := by
  rw [← List.takeWhile_append_dropWhile (p := isPlain) (l := s)]
  exact Reads.seq (reads_many_char (p := isPlain) (fun x hx => List.mem_takeWhile_imp hx)
    (head?_dropWhile_isPlain s rest)) (reads_rounds hs rest)

theorem search_headerField {index : ℕ} (hs : Escaped '|' s)
    (hk : ∀ before', k ⟨before', rest, (index, s) :: groups⟩ = Option.some a) :
    search (headerField index) k ⟨before, s ++ '|' :: rest, groups⟩ = Option.some a := by
  rw [headerField, search_seq]
  apply search_group_of_reads (reads_field hs rest)
  intro before'
  exact search_of_reads (reads_text "|" rest) hk

theorem escaped_field (s : String) : Escaped '|' (escape cefHeaderCode s.toList) :=
  escaped_escape (by decide) (by decide) _

theorem unescapeHeader_escape (s : String) :
    CEFParser.unescapeHeader (escape cefHeaderCode s.toList) = .str s := by
  have hinj (c d : Char) (hc : cefHeaderCode c = Option.some d) : c = d := by
    rw [cefHeaderCode, Option.ite_none_right_eq_some] at hc
    exact Option.some.inj hc.2
  have hinj' (c d : Char) (hc : Function.update cefHeaderCode '|' none c = Option.some d) :
      c = d := by
    rw [Function.update_apply] at hc
    split at hc
    · cases hc
    · exact hinj c d hc
  have hplain : Function.update (Function.update cefHeaderCode '|' none) '\\' none =
      fun _ => none := by
    funext c
    rw [Function.update_apply, Function.update_apply, cefHeaderCode]
    split_ifs with hbackslash hpipe hboth
    · rfl
    · rfl
    · exact absurd hboth (by simp [hbackslash, hpipe])
    · rfl
  have hpipe := replace_escape cefHeaderCode rfl rfl (fun c => hinj c '|') s.toList
  have hbackslash := replace_escape _ (by decide) (by decide) (fun c => hinj' c '\\') s.toList
  rw [hplain, escape_eq_self fun _ _ => rfl] at hbackslash
  rw [CEFParser.unescapeHeader, replaceEach, List.foldl_cons, List.foldl_cons, List.foldl_nil]
  show strVal (replace ['\\', '\\'] ['\\'] (replace ['\\', '|'] ['|'] _)) = _
  rw [hpipe, hbackslash, strVal, String.ofList_toList]

end Fields

section Messages

variable {u : Unicode}

theorem exists_matchStart_cefMessage (u : Unicode) (version : ℕ) (header : CefHeader)
    (extension : List Char) :
    ∃ m, matchStart (cefHeaderRegex u) ("CEF:".toList ++ ((numeral version).toList ++
        '|' :: (cefFields header.texts ++ extension))) = Option.some m ∧
      m.groups = [(8, extension), (7, escape cefHeaderCode header.severity.toList),
        (6, escape cefHeaderCode header.name.toList),
        (5, escape cefHeaderCode header.deviceEventClassId.toList),
        (4, escape cefHeaderCode header.deviceVersion.toList),
        (3, escape cefHeaderCode header.deviceProduct.toList),
        (2, escape cefHeaderCode header.deviceVendor.toList), (1, (numeral version).toList)] := by
  apply exists_matchStart
  have hfields : cefFields header.texts ++ extension =
      escape cefHeaderCode header.deviceVendor.toList ++
        '|' :: (escape cefHeaderCode header.deviceProduct.toList ++
        '|' :: (escape cefHeaderCode header.deviceVersion.toList ++
        '|' :: (escape cefHeaderCode header.deviceEventClassId.toList ++
        '|' :: (escape cefHeaderCode header.name.toList ++
        '|' :: (escape cefHeaderCode header.severity.toList ++ '|' :: extension))))) := by
    simp [CefHeader.texts, cefFields]
  have hdigit (c : Char) (hc : c ∈ (numeral version).toList) :
      (u.decimal c).isSome = true ∧ isSpace c = false := by
    obtain ⟨hascii, -, -, -, hspace⟩ := toNat_lt_of_isDigit (isDigit_numeral version c hc)
    exact ⟨by rw [u.decimal_ascii c hascii]; exact isDigit_numeral version c hc, hspace⟩
  have hne := numeral_ne_nil version
  have hpipe : (u.decimal '|').isSome = false := by
    rw [u.decimal_ascii '|' (by decide)]
    decide
  rw [hfields]
  simp only [cefHeaderRegex, search_all_cons, search_all_nil]
  rw [search_start_none]
  apply search_of_reads (reads_text "CEF:" _)
  intro _
  apply search_of_reads_nil (reads_many_char (by simp) ?_)
  · intro _
    apply search_group_of_reads (reads_some_char ?_ (fun c hc => (hdigit c hc).1) ?_)
    · intro _
      apply search_of_reads_nil (reads_many_char (by simp) ?_)
      · intro _
        apply search_of_reads (reads_text "|" _)
        intro _
        apply search_headerField (escaped_field _)
        intro _
        apply search_headerField (escaped_field _)
        intro _
        apply search_headerField (escaped_field _)
        intro _
        apply search_headerField (escaped_field _)
        intro _
        apply search_headerField (escaped_field _)
        intro _
        apply search_headerField (escaped_field _)
        intro _
        apply search_group_of_reads_all (reads_many_char (fun _ _ => rfl) (by simp))
        intro _
        rw [search_stopLine_nil]
      · rintro x ⟨⟩
        decide
    · exact hne
    · rintro x ⟨⟩
      exact hpipe
  · intro x hx
    rw [List.head?_append_of_ne_nil _ hne] at hx
    exact (hdigit x (List.mem_of_mem_head? hx)).2

/-- `CEFParser.parse` reads every field of a header back. -/
def ReadsHeader (u : Unicode) (header : CefHeader) (line : String) : Prop :=
  ∃ record, CEFParser.parse u line = Option.some record ∧
    ∀ entry ∈ header.entries, record.get? entry.1 = Option.some (.str entry.2)

/-- The record of a header without an extension. -/
def headerRecord (version : List Char) (header : CefHeader) : Record :=
  Dict.ofList [("cef_version", strVal version), ("device_vendor", .str header.deviceVendor),
    ("device_product", .str header.deviceProduct), ("device_version", .str header.deviceVersion),
    ("device_event_class_id", .str header.deviceEventClassId), ("name", .str header.name),
    ("severity", .str header.severity)]

theorem get?_headerRecord (version : List Char) (header : CefHeader) :
    ∀ entry ∈ header.entries,
      (headerRecord version header).get? entry.1 = Option.some (.str entry.2) := by
  simp only [CefHeader.entries, CefHeader.texts, List.zip_cons_cons, List.zip_nil_left,
    List.forall_mem_cons, headerRecord, Dict.get?_ofList]
  exact ⟨rfl, rfl, rfl, rfl, rfl, rfl, List.forall_mem_nil _⟩

/-- The escapes of every header are undone; the extension is the one without the white space at
its end, which a line is stripped of. -/
theorem readsHeader_cefMessage (u : Unicode) (version : ℕ) (header : CefHeader) (extension : String)
    (hnames : ∀ entry ∈ header.entries, entry.1 ∉
      (CEFParser.parseCefExtension (extension.toList.rdropWhile isSpace)).keys) :
    ReadsHeader u header (cefMessage version header extension) := by
  obtain ⟨m, hmatch, hgroups⟩ := exists_matchStart_cefMessage u version header
    (extension.toList.rdropWhile isSpace)
  have hline : (strip (cefMessage version header extension)).toList = "CEF:".toList ++
      ((numeral version).toList ++ '|' :: (cefFields header.texts ++
        extension.toList.rdropWhile isSpace)) := by
    rw [strip, onChars, String.toList_ofList, trim_cefMessage (by decide) (by decide)]
  obtain ⟨h1, h2, h3, h4, h5, h6, h7, h8⟩ : m.groupD 1 = (numeral version).toList ∧
      m.groupD 2 = escape cefHeaderCode header.deviceVendor.toList ∧
      m.groupD 3 = escape cefHeaderCode header.deviceProduct.toList ∧
      m.groupD 4 = escape cefHeaderCode header.deviceVersion.toList ∧
      m.groupD 5 = escape cefHeaderCode header.deviceEventClassId.toList ∧
      m.groupD 6 = escape cefHeaderCode header.name.toList ∧
      m.groupD 7 = escape cefHeaderCode header.severity.toList ∧
      m.groupD 8 = extension.toList.rdropWhile isSpace := by
    simp only [Cursor.groupD, Cursor.group?, hgroups]
    exact ⟨rfl, rfl, rfl, rfl, rfl, rfl, rfl, rfl⟩
  rw [ReadsHeader, CEFParser.parse, hline, hmatch, Option.map_some]
  refine ⟨_, rfl, ?_⟩
  simp only [h1, h2, h3, h4, h5, h6, h7, h8, unescapeHeader_escape]
  generalize extension.toList.rdropWhile isSpace = ext at hnames
  intro entry hentry
  have hread : (headerRecord (numeral version).toList header).get? entry.1 =
      Option.some (.str entry.2) := get?_headerRecord _ header entry hentry
  split
  · exact hread
  · have habsent : (CEFParser.parseCefExtension ext).get? entry.1 = none := by
      rw [← Option.not_isSome_iff_eq_none, ← Dict.mem_keys_iff]
      exact hnames entry hentry
    have hupdate := Dict.get?_update_of_nodup (headerRecord (numeral version).toList header)
      (CEFParser.parseCefExtension ext).nodup entry.1
    refine hupdate.trans ?_
    show ((CEFParser.parseCefExtension ext).get? entry.1).or _ = _
    rw [habsent, Option.none_or, hread]

theorem readsHeader_cefMessage_escaped :
    ReadsHeader Unicode.ascii ⟨"ac|me", "f\\\\w", "1|\\", "\\|", "two\nlines", ""⟩
      (cefMessage 0 ⟨"ac|me", "f\\\\w", "1|\\", "\\|", "two\nlines", ""⟩ "src=10.0.0.1 ") := by
  refine readsHeader_cefMessage Unicode.ascii 0 _ "src=10.0.0.1 " ?_
  decide +kernel

end Messages

end Ulpf.SourceProfiler
