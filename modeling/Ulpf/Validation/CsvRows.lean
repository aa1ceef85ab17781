import Ulpf.Go.CsvRows
import Ulpf.ParserRuntime.PayloadNames
import Ulpf.Python.CsvRows
import Ulpf.SourceProfiler.Parsers
import Ulpf.Validation.Agreement

/-!
Rows in both runtimes. A row that has been written is read by the Go runtime and by the Python
parsers, and the two read the same where no text is longer than Python reads, ends a line with a
carriage return, or is padded.
-/

namespace Ulpf.Validation

open Ulpf.Lib
open Ulpf.Lib.Rows
open Ulpf.Lib.Text
open Ulpf.Go.Csv (validDelim read_line)
open Ulpf.Python.Csv (Fits readRow_line isNewline)
open Ulpf.ParserRuntime
open Ulpf.Python (PyVal)
open Ulpf.SourceProfiler

/-- A raw event that is a row, with white space around it, for a delimiter that both runtimes
take. -/
structure RowEvent where
  delimiter : Char
  valid : validDelim delimiter = true
  ascii : delimiter.toNat < 0x80
  row : List (Field delimiter)
  raw : String
  trimmed : trim Unicode.isSpace raw.toList = line row
  solid : stripChars (line row) = line row
  nonblank : line row ≠ []

namespace RowEvent

variable (x : RowEvent) (headers : List String)

/-- `delimiter` of the body parser. -/
def delimiterText : String := String.ofList [x.delimiter]

/-- The names Python gives to the columns. -/
def columnNames : List String :=
  if headers.length = x.row.length then headers
  else (List.range x.row.length).map fun i => "column_" ++ numeral (i + 1)

theorem length_texts : (texts x.row).length = x.row.length := List.length_map _

theorem row_ne_nil : x.row ≠ [] := by
  intro h
  have hnonblank := x.nonblank
  rw [h] at hnonblank
  exact hnonblank rfl

theorem texts_ne_nil : texts x.row ≠ [] := mt List.map_eq_nil_iff.mp x.row_ne_nil

theorem delimiter_ne : x.delimiter ≠ '"' ∧ isNewline (some x.delimiter) = false := by
  have hvalid := x.valid
  simp only [validDelim, Bool.and_eq_true, decide_eq_true_eq] at hvalid
  refine ⟨hvalid.1.1.1.2, ?_⟩
  simp [isNewline, hvalid.1.1.2, hvalid.1.2]

theorem parseCSV_raw : parseCSV x.raw x.delimiterText headers =
    .ok (Dict.ofList ((texts x.row).zipIdx.map fun (text, i) =>
      (columnKey headers i, .str (String.ofList (lineFeeds text))))) := by
  have hcomma : csvComma x.delimiterText = x.delimiter := by
    rw [csvComma, delimiterText, String.toList_ofList]
    exact if_pos x.ascii
  rw [parseCSV_eq, hcomma, x.trimmed, read_line x.valid x.nonblank, Option.elim_some,
    List.zipIdx_map, List.map_map]
  rfl

theorem stripChars_raw : stripChars x.raw.toList = line x.row := by
  have htrim : trim Python.isSpace (trim Unicode.isSpace x.raw.toList) =
      trim Python.isSpace x.raw.toList :=
    trim_trim_of_imp (fun c hc => by rw [Python.isSpace, hc, Bool.true_or]) x.raw.toList
  rw [x.trimmed] at htrim
  exact htrim.symm.trans x.solid

theorem parseLine_raw : CSVParser.parseLine x.raw x.delimiterText (some headers) =
    if ∀ text ∈ texts x.row, Fits text then
      some (Dict.ofList ((x.columnNames headers).zip
        ((texts x.row).map fun text => .str (String.ofList (stripChars text)))))
    else none := by
  have hrow := readRow_line x.delimiter_ne.1 x.delimiter_ne.2 x.nonblank
  have hstrip (text : List Char) : Python.strip (String.ofList text) =
      String.ofList (stripChars text) := by
    rw [Python.strip, onChars, String.toList_ofList, stripChars]
  rw [CSVParser.parseLine, delimiterText, String.toList_ofList]
  dsimp only
  rw [x.stripChars_raw, hrow]
  by_cases hfits : ∀ text ∈ texts x.row, Fits text
  · rw [if_pos hfits, if_pos hfits]
    split
    · contradiction
    · rename_i heq
      exact absurd (List.map_eq_nil_iff.mp (Option.some.inj heq)) x.texts_ne_nil
    · rename_i heq
      obtain rfl := Option.some.inj heq
      have hnames : (headers ≠ [] ∧ headers.length = ((texts x.row).map String.ofList).length) ↔
          headers.length = x.row.length := by
        rw [List.length_map, x.length_texts, and_iff_right_iff_imp]
        rintro hlength rfl
        exact x.row_ne_nil (List.length_eq_zero_iff.mp hlength.symm)
      simp only [hnames, List.map_map, Function.comp_def, hstrip, columnNames]
      rw [List.length_map, x.length_texts]
      split
      · rfl
      · rfl
  · rw [if_neg hfits, if_neg hfits]

end RowEvent

/-- Ending lines by line feeds alone is trimming where there is nothing to do either way. -/
theorem lineFeeds_eq_stripChars_iff (text : List Char) :
    lineFeeds text = stripChars text ↔ lineFeeds text = text ∧ stripChars text = text := by
  constructor
  · intro h
    have hstrip : stripChars text = text := by
      refine trim_eq_self (fun c hc => ?_) fun c hc => ?_
      · obtain hhead | hhead := head?_lineFeeds text
        · rw [← hhead, h] at hc
          exact head?_trim _ _ c hc
        · rw [h] at hhead
          exact absurd (head?_trim _ _ '\n' hhead) (by decide)
      · rw [← getLast?_lineFeeds, h] at hc
        exact getLast?_trim _ _ c hc
    exact ⟨h.trans hstrip, hstrip⟩
  · rintro ⟨hfeeds, hstrip⟩
    rw [hfeeds, hstrip]

section Agreement

variable (x : RowEvent) {headers : List String}

theorem columnKeys_eq (hnamed : "" ∉ headers) {texts : List String}
    (hcount : headers.length = texts.length) :
    (texts.zipIdx.map fun (text, i) => (columnKey headers i, text)) = headers.zip texts := by
  refine List.ext_getElem (by simp [hcount]) fun i hi hi' => ?_
  have hheader : i < headers.length := by
    rw [List.length_zip] at hi'
    omega
  have hne : headers[i] ≠ "" := fun h => hnamed (h ▸ List.getElem_mem hheader)
  simp [columnKey, hheader, hne]

/-- The fields of a row under the names of its columns. -/
def named (headers : List String) (texts : List (List Char)) : Dict String String :=
  Dict.ofList (headers.zip (texts.map String.ofList))

theorem keys_zip {rows : List (List Char)} (hcount : headers.length = rows.length) :
    (headers.zip (rows.map String.ofList)).map Prod.fst = headers :=
  List.map_fst_zip (by simp [hcount])

theorem named_inj {rows rows' : List (List Char)} (hdistinct : headers.Nodup)
    (hcount : headers.length = rows.length) (hcount' : headers.length = rows'.length)
    (h : named headers rows = named headers rows') : rows = rows' := by
  have hentries := congrArg Dict.entries h
  rw [named, named, Dict.entries_ofList_of_nodup (by rwa [keys_zip hcount]),
    Dict.entries_ofList_of_nodup (by rwa [keys_zip hcount'])] at hentries
  have htexts := congrArg (List.map Prod.snd) hentries
  rw [List.map_snd_zip (by simp [hcount]), List.map_snd_zip (by simp [hcount'])] at htexts
  exact List.map_injective_iff.mpr (fun _ _ => String.ofList_injective) htexts

theorem parseCSV_named (hdistinct : headers.Nodup) (hnamed : "" ∉ headers)
    (hcount : headers.length = x.row.length) :
    parseCSV x.raw x.delimiterText headers =
      .ok (goFields (named headers ((texts x.row).map lineFeeds))) := by
  have hcount' : headers.length = ((texts x.row).map lineFeeds).length := by
    rw [hcount, List.length_map, x.length_texts]
  rw [x.parseCSV_raw, goFields, named, Dict.mapValues_ofList _ (by rwa [keys_zip hcount']),
    ← columnKeys_eq hnamed (by simpa using hcount'), List.zipIdx_map, List.map_map,
    List.map_map, List.zipIdx_map, List.map_map]
  rfl

theorem parseLine_named (hdistinct : headers.Nodup) (hcount : headers.length = x.row.length) :
    CSVParser.parseLine x.raw x.delimiterText (some headers) =
      if ∀ text ∈ texts x.row, Fits text then
        some (pyFields (named headers ((texts x.row).map stripChars))) else none := by
  have hcount' : headers.length = ((texts x.row).map stripChars).length := by
    rw [hcount, List.length_map, x.length_texts]
  have hvalues : ((texts x.row).map fun text => (.str (String.ofList (stripChars text)) : PyVal)) =
      (((texts x.row).map stripChars).map String.ofList).map .str := by
    rw [List.map_map, List.map_map]
    rfl
  rw [x.parseLine_raw, pyFields, named, Dict.mapValues_ofList _ (by rwa [keys_zip hcount']),
    RowEvent.columnNames, if_pos hcount, hvalues, List.zip_map_right]
  rfl

theorem rows_agree_iff (hdistinct : headers.Nodup) (hnamed : "" ∉ headers)
    (hcount : headers.length = x.row.length) :
    (∃ fields, parseCSV x.raw x.delimiterText headers = .ok (goFields fields) ∧
      CSVParser.parseLine x.raw x.delimiterText (some headers) = some (pyFields fields)) ↔
    ∀ text ∈ texts x.row, Fits text ∧ lineFeeds text = text ∧ stripChars text = text := by
  have hcount' (f : List Char → List Char) : headers.length = ((texts x.row).map f).length := by
    rw [hcount, List.length_map, x.length_texts]
  rw [parseCSV_named x hdistinct hnamed hcount, parseLine_named x hdistinct hcount]
  constructor
  · rintro ⟨fields, hgo, hpy⟩ text htext
    split at hpy
    · rename_i hfits
      have hread : goFields (named headers ((texts x.row).map lineFeeds)) = goFields fields :=
        Except.ok.inj hgo
      have hgo' := Dict.mapValues_injective (fun _ _ => Json.str.inj) hread
      have hpy' := Dict.mapValues_injective (fun _ _ => Json.str.inj) (Option.some.inj hpy)
      have hsame : (texts x.row).map lineFeeds = (texts x.row).map stripChars :=
        named_inj hdistinct (hcount' _) (hcount' _) (hgo'.trans hpy'.symm)
      have heq := List.map_inj_left.mp hsame text htext
      exact ⟨hfits text htext, (lineFeeds_eq_stripChars_iff text).mp heq⟩
    · cases hpy
  · intro h
    rw [if_pos fun text htext => (h text htext).1]
    have hsame : (texts x.row).map lineFeeds = (texts x.row).map stripChars :=
      List.map_congr_left fun text htext => by rw [(h text htext).2.1, (h text htext).2.2]
    exact ⟨_, rfl, by rw [hsame]⟩

/-- A row that has been written is read back by both runtimes: the Go runtime ends the lines of its
texts by line feeds alone; the Python parsers strip the texts, and read no row with a text that is
too long. Under one name for each column the runtimes read the same exactly when none of this shows
on a text. -/
theorem rows_read_back (headers : List String) :
    parseCSV x.raw x.delimiterText headers =
      .ok (Dict.ofList ((texts x.row).zipIdx.map fun (text, i) =>
        (columnKey headers i, .str (String.ofList (lineFeeds text))))) ∧
    CSVParser.parseLine x.raw x.delimiterText (some headers) =
      (if ∀ text ∈ texts x.row, Fits text then
        some (Dict.ofList ((x.columnNames headers).zip
          ((texts x.row).map fun text => .str (String.ofList (stripChars text)))))
      else none) ∧
    (headers.Nodup → "" ∉ headers → headers.length = x.row.length →
      ((∃ fields, parseCSV x.raw x.delimiterText headers = .ok (goFields fields) ∧
        CSVParser.parseLine x.raw x.delimiterText (some headers) = some (pyFields fields)) ↔
      ∀ text ∈ texts x.row, Fits text ∧ lineFeeds text = text ∧ stripChars text = text)) :=
  ⟨x.parseCSV_raw headers, x.parseLine_raw headers, rows_agree_iff x⟩

section Example

/-- A row with a delimiter and quotes in a field. -/
def deniedRow : List (Field ',') :=
  [⟨"10.0.0.1".toList, false, by simp⟩, ⟨"said \"no\", twice".toList, true, nofun⟩]

def deniedEvent : RowEvent where
  delimiter := ','
  valid := by decide
  ascii := by decide
  row := deniedRow
  raw := "10.0.0.1,\"said \"\"no\"\", twice\""
  trimmed := by decide +kernel
  solid := by decide +kernel
  nonblank := by decide

theorem rows_read_back_denied :
    ∃ fields, parseCSV deniedEvent.raw "," ["src", "reason"] = .ok (goFields fields) ∧
      CSVParser.parseLine deniedEvent.raw "," (some ["src", "reason"]) =
        some (pyFields fields) := by
  have hagree := (rows_read_back deniedEvent ["src", "reason"]).2.2 (by decide) (by decide)
    (by decide)
  exact hagree.mpr (by decide +kernel)

end Example

end Agreement

end Ulpf.Validation
