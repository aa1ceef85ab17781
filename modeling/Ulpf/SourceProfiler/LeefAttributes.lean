import Ulpf.ParserRuntime.LeefAttributes
import Ulpf.SourceProfiler.CefExtensions
import Ulpf.SourceProfiler.CefHeaders

/-!
The attributes of LEEF messages that `LEEFParser.parse` returns. It knows every delimiter, but
undoes escapes and takes quotes away that no writer put there.
-/

namespace Ulpf.SourceProfiler

open Ulpf.Lib
open Ulpf.Lib.Regex
open Ulpf.Lib.Text
open Ulpf.Python
open Ulpf.Formats
open LEEFParser

section Header

variable {u : Unicode} {rest : List Char}

theorem search_opt {α : Type} {r : Regex} {k : Cursor → Option α} {c : Cursor} {a : α}
    (h : search r k c = Option.some a) : search (opt r) k c = Option.some a := by
  rw [opt, search_alt, h, Option.some_or]

theorem exists_matchStart_header (m : LeefMessage) (rest : List Char) :
    ∃ c, matchStart leefHeaderRegex (m.header ++ rest) = Option.some c ∧
      c.groups = [(6, m.delimiter.chars ++ '|' :: rest), (5, m.eventId.text.toList),
        (4, m.version.text.toList), (3, m.product.text.toList), (2, m.vendor.text.toList),
        (1, "2.0".toList)] := by
  apply exists_matchStart
  have hwritten : m.header ++ rest = "LEEF:".toList ++ ("2.0".toList ++
      '|' :: (m.vendor.text.toList ++ '|' :: (m.product.text.toList ++
      '|' :: (m.version.text.toList ++ '|' :: (m.eventId.text.toList ++
      '|' :: (m.delimiter.chars ++ '|' :: rest)))))) := by
    simp [LeefMessage.header]
  rw [hwritten]
  simp only [leefHeaderRegex, search_all_cons, search_all_nil]
  rw [search_start_none]
  apply search_of_reads (reads_text "LEEF:" _)
  intro _
  apply search_of_reads_nil (reads_many_char (by simp) ?_)
  · intro _
    apply search_group_of_reads (reads_some_char (by decide) (List.all_eq_true.mp (by decide)) ?_)
    · intro _
      apply search_of_reads_nil (reads_many_char (by simp) ?_)
      · intro _
        apply search_of_reads (reads_text "|" _)
        intro _
        apply search_headerField m.vendor.escaped
        intro _
        apply search_headerField m.product.escaped
        intro _
        apply search_headerField m.version.escaped
        intro _
        apply search_group_of_reads (reads_field m.eventId.escaped _)
        intro _
        apply search_opt
        rw [search_seq]
        apply search_of_reads (reads_text "|" _)
        intro _
        apply search_group_of_reads_all (reads_many_char (fun _ _ => rfl) (by simp))
        intro _
        rw [search_stopLine_nil]
        rfl
      · rintro x ⟨⟩
        decide
    · rintro x ⟨⟩
      decide
  · rintro x ⟨⟩
    decide

end Header

section Delimiters

variable {u : Unicode}

theorem hexValue_eq {c : Char} {d : ℕ} (h : JsonText.hex? c = Option.some d) :
    LEEFParser.hexValue u c = Option.some d := by
  have hascii : c.toNat < 128 := by
    have hbounds := (JsonText.hex?_bounds h).2
    omega
  rw [LEEFParser.hexValue, u.decimal_ascii c hascii, digit?]
  rw [JsonText.hex?] at h
  split at h
  · rename_i hrange
    rw [if_pos hrange]
    exact h
  · rename_i hrange
    rw [if_neg hrange, JsonText.hex?, if_neg hrange]
    exact h

theorem isSpace_hexDigit (digit : HexDigit) : isSpace digit.char = false := by
  have hbounds := (JsonText.hex?_bounds digit.hex).2
  simp only [isSpace, Unicode.isSpace]
  simp
  omega

theorem parseHex_digits (u : Unicode) (high low : HexDigit) :
    parseHex u [high.char, low.char] =
      Option.some ((16 * high.value + low.value : ℕ) : ℤ) := by
  have hstrip : stripChars [high.char, low.char] = [high.char, low.char] := by
    apply trim_eq_self_of_forall
    simp [isSpace_hexDigit]
  have hsign : spanSign [high.char, low.char] = (false, [high.char, low.char]) := by
    unfold spanSign
    split
    · rename_i heq
      exact absurd (List.cons.inj heq).1 (high.char_ne (by decide))
    · rename_i heq
      exact absurd (List.cons.inj heq).1 (high.char_ne (by decide))
    · rfl
  have hpre : dropHexPrefix u [high.char, low.char] = [high.char, low.char] := by
    unfold dropHexPrefix
    apply if_neg
    rintro ⟨-, hx | hx⟩
    · exact low.char_ne (by decide) hx
    · exact low.char_ne (by decide) hx
  rw [parseHex, hstrip, hsign]
  dsimp only
  rw [hpre, hexDigits, if_neg (high.char_ne (by decide)), hexValue_eq high.hex, hexDigits,
    if_neg (low.char_ne (by decide)), hexValue_eq low.hex, hexDigits]
  simp

theorem replaceEach_code (zero : Bool) (high low : HexDigit) :
    replaceEach (LeefDelimiter.code zero high low).chars [("0x", ""), ("x", "")] =
      [high.char, low.char] := by
  have hhigh := high.char_ne (c := 'x') (by decide)
  have hlow := low.char_ne (c := 'x') (by decide)
  have hdigits : 'x' ∉ [high.char, low.char] := by simp [Ne.symm hhigh, Ne.symm hlow]
  have hkept : replace ['0', 'x'] [] [high.char, low.char] = [high.char, low.char] := by
    rw [replace_eq_self_iff (by decide)]
    exact fun hfactor => hdigits (hfactor.subset (by simp))
  have hfirst : replace ['0', 'x'] [] (LeefDelimiter.code zero high low).chars =
      [high.char, low.char] ∨ replace ['0', 'x'] [] (LeefDelimiter.code zero high low).chars =
        'x' :: [high.char, low.char] := by
    cases zero with
    | true =>
        left
        have happend : replace ['0', 'x'] [] (['0', 'x'] ++ [high.char, low.char]) =
            [] ++ replace ['0', 'x'] [] [high.char, low.char] := replace_append (by simp) _
        exact happend.trans hkept
    | false =>
        right
        have hcons : replace ['0', 'x'] [] ('x' :: [high.char, low.char]) =
            'x' :: replace ['0', 'x'] [] [high.char, low.char] := replace_cons (by simp)
        exact hcons.trans (congrArg ('x' :: ·) hkept)
  show replace ['x'] [] (replace ['0', 'x'] [] _) = _
  obtain hfirst | hfirst := hfirst
  · rw [hfirst, replace_singleton, flatMap_eq_self hdigits]
  · rw [hfirst, replace_singleton, List.flatMap_cons, flatMap_eq_self hdigits]
    rfl

theorem resolveLeefDelimiter_chars (u : Unicode) (delimiter : LeefDelimiter) :
    resolveLeefDelimiter u delimiter.chars = .ok (Option.some [delimiter.char]) := by
  cases delimiter with
  | literal c hc =>
      have hverbatim : (if [c] = "\\t".toList ∨ [c] = ['\t'] then Option.some ['\t']
          else Option.some (if [c].isEmpty then ['\t'] else [c])) = Option.some [c] := by
        split
        · rename_i h
          exact congrArg Option.some (h.resolve_left (by simp)).symm
        · rfl
      have hzero : "0x".toList.isPrefixOf [c] = false := by simp [List.isPrefixOf]
      simp only [resolveLeefDelimiter, LeefDelimiter.chars, LeefDelimiter.char, hzero,
        Bool.or_false]
      split
      · rename_i h
        obtain rfl : 'x' = c := by simpa using h
        rfl
      · exact congrArg Except.ok hverbatim
  | code zero high low =>
      have hpre : ("x".toList.isPrefixOf (LeefDelimiter.code zero high low).chars ||
          "0x".toList.isPrefixOf (LeefDelimiter.code zero high low).chars) = true := by
        cases zero <;> simp [LeefDelimiter.chars]
      have hhigh := (JsonText.hex?_bounds high.hex).1
      have hlow := (JsonText.hex?_bounds low.hex).1
      rw [resolveLeefDelimiter, hpre, if_pos rfl, replaceEach_code, parseHex_digits]
      dsimp only
      rw [if_neg (by omega), if_neg (by omega), if_neg (by omega), Int.toNat_natCast]
      rfl

end Delimiters

section Tokens

/-- What a value is read as. -/
def readValue (value : List Char) : List Char :=
  unquote (replaceEach (stripChars value) [("\\=", "="), ("\\\\", "\\")])

/-- What the text between two delimiters is read as. -/
def readToken (token : List Char) : Option (String × PyVal) :=
  match (stripChars token).span (· ≠ '=') with
  | (k, _ :: v) => Option.some (String.ofList (stripChars k), strVal (readValue v))
  | (_, []) => none

theorem parseLeefAttributes_eq (ext sep : List Char) :
    parseLeefAttributes ext (Option.some sep) =
      Dict.ofList ((splitOn sep ext).filterMap readToken) := by
  rw [parseLeefAttributes, Dict.ofList, Dict.update, List.foldl_filterMap]
  congr 1
  funext result token
  rw [readToken]
  dsimp only
  rcases (stripChars token).span (· ≠ '=') with ⟨k, _ | ⟨c, v⟩⟩
  · rfl
  · rfl

variable {s t : List Char}

theorem stripChars_pair (s t : List Char) : stripChars (s ++ '=' :: t) =
    s.dropWhile isSpace ++ '=' :: t.rdropWhile isSpace := by
  have hend : (s ++ '=' :: t).rdropWhile isSpace = s ++ '=' :: t.rdropWhile isSpace := by
    rw [List.append_cons, rdropWhile_append, List.append_assoc, List.singleton_append]
    rintro c hc
    rw [List.getLast?_concat] at hc
    cases hc
    rfl
  rw [stripChars, trim_eq, hend, dropWhile_append_cons rfl]

theorem readToken_pair (hs : '=' ∉ s) (t : List Char) : readToken (s ++ '=' :: t) =
    Option.some (String.ofList (stripChars s), strVal (readValue t)) := by
  have hkey (c : Char) (hc : c ∈ s.dropWhile isSpace) : decide (c ≠ '=') = true := by
    have hmem := (List.dropWhile_sublist isSpace).mem hc
    exact decide_eq_true fun heq => hs (heq ▸ hmem)
  have hspan : (s.dropWhile isSpace ++ '=' :: t.rdropWhile isSpace).span (· ≠ '=') =
      (s.dropWhile isSpace, '=' :: t.rdropWhile isSpace) := by
    rw [List.span_eq_takeWhile_dropWhile, List.takeWhile_append_of_pos hkey,
      List.dropWhile_append_of_pos hkey, List.takeWhile_cons_of_neg (by simp),
      List.dropWhile_cons_of_neg (by simp), List.append_nil]
  have htext : stripChars (s.dropWhile isSpace) = stripChars s := trim_dropWhile (fun _ h => h) s
  have hvalue : readValue (t.rdropWhile isSpace) = readValue t := by
    rw [readValue, readValue, stripChars, stripChars, trim_rdropWhile]
  rw [readToken, stripChars_pair, hspan]
  dsimp only
  rw [htext, hvalue]

theorem readToken_rdropWhile (s : List Char) : readToken (s.rdropWhile isSpace) = readToken s := by
  rw [readToken, readToken, stripChars, stripChars, trim_rdropWhile]

theorem readToken_of_not_mem (hs : '=' ∉ s) : readToken s = none := by
  have hkey (c : Char) (hc : c ∈ stripChars s) : decide (c ≠ '=') = true :=
    decide_eq_true fun heq => hs (heq ▸ (trim_sublist isSpace s).mem hc)
  rw [readToken, List.span_eq_takeWhile_dropWhile, List.takeWhile_eq_self_iff.mpr hkey,
    List.dropWhile_eq_nil_iff.mpr hkey]

/-- A value that no escape, no quotes and no white space change. -/
structure PlainText (value : List Char) : Prop where
  stripped : stripChars value = value
  equals : ¬ ['\\', '='] <:+: value
  backslash : ¬ ['\\', '\\'] <:+: value
  unquoted : unquote value = value

theorem readValue_eq_self_iff {value : List Char} : readValue value = value ↔ PlainText value := by
  show unquote (replace ['\\', '\\'] ['\\'] (replace ['\\', '='] ['='] (stripChars value))) = _ ↔ _
  constructor
  · intro h
    have hlength := congrArg List.length h
    have hunquote := length_unquote_le
      (replace ['\\', '\\'] ['\\'] (replace ['\\', '='] ['='] (stripChars value)))
    have hbackslash := @length_replace_le ['\\', '\\'] ['\\'] (by decide)
      (replace ['\\', '='] ['='] (stripChars value))
    have hequals := @length_replace_le ['\\', '='] ['='] (by decide) (stripChars value)
    have hstrip : stripChars value = value := trim_eq_self_of_length_le (by
      show value.length ≤ (stripChars value).length
      omega)
    rw [hstrip] at h hlength hunquote hbackslash hequals
    obtain ⟨-, hlt⟩ | ⟨hnot, heq⟩ := @replace_shortens ['\\', '='] ['='] (by decide) value
    · omega
    · rw [heq] at h hlength hunquote hbackslash
      obtain ⟨-, hlt⟩ | ⟨hnot', heq'⟩ := @replace_shortens ['\\', '\\'] ['\\'] (by decide) value
      · omega
      · rw [heq'] at h
        exact ⟨hstrip, hnot, hnot', h⟩
  · intro h
    rw [h.stripped, (replace_eq_self_iff (by decide)).mpr h.equals,
      (replace_eq_self_iff (by decide)).mpr h.backslash, h.unquoted]

end Tokens

section Messages

variable {u : Unicode} {m : LeefMessage}

/-- The fields of a header as `LEEFParser.parse` returns them. -/
def leefRecord (m : LeefMessage) : Record :=
  Dict.ofList [("leef_version", strVal "2.0".toList),
    ("vendor", CEFParser.unescapeHeader m.vendor.text.toList),
    ("product", CEFParser.unescapeHeader m.product.text.toList),
    ("version", CEFParser.unescapeHeader m.version.text.toList),
    ("event_id", CEFParser.unescapeHeader m.eventId.text.toList)]

/-- `LEEFParser.parse` returns the attributes of a message with their values, and beside them only
its header. -/
def ReturnsAttributes (u : Unicode) (m : LeefMessage) : Prop :=
  ∃ record, LEEFParser.parse u m.write = .ok (Option.some record) ∧
    ∀ k, record.get? k = ((m.value? k).map Json.str).or ((leefRecord m).get? k)

/-- The pairs that a message is read as. -/
def readPairs (m : LeefMessage) : List (String × PyVal) :=
  (splitOn [m.delimiter.char] (m.extension.rdropWhile isSpace)).filterMap readToken

theorem parse_leef (u : Unicode) (m : LeefMessage) : LEEFParser.parse u m.write =
    .ok (Option.some ((leefRecord m).update (Dict.ofList (readPairs m)).entries)) := by
  obtain ⟨c, hmatch, hgroups⟩ := exists_matchStart_header m (m.extension.rdropWhile isSpace)
  have hline : (strip m.write).toList = m.header ++ m.extension.rdropWhile isSpace := by
    rw [strip, onChars, String.toList_ofList, m.trim_write (by decide) (by decide)]
  obtain ⟨h1, h2, h3, h4, h5, h6⟩ : c.groupD 1 = "2.0".toList ∧
      c.groupD 2 = m.vendor.text.toList ∧ c.groupD 3 = m.product.text.toList ∧
      c.groupD 4 = m.version.text.toList ∧ c.groupD 5 = m.eventId.text.toList ∧
      c.groupD 6 = m.delimiter.chars ++ '|' :: m.extension.rdropWhile isSpace := by
    simp only [Cursor.groupD, Cursor.group?, hgroups]
    exact ⟨rfl, rfl, rfl, rfl, rfl, rfl⟩
  have hspan : (m.delimiter.chars ++ '|' :: m.extension.rdropWhile isSpace).span (· ≠ '|') =
      (m.delimiter.chars, '|' :: m.extension.rdropWhile isSpace) := by
    have hchars (c : Char) (hc : c ∈ m.delimiter.chars) : decide (c ≠ '|') = true :=
      decide_eq_true fun heq => ParserRuntime.pipe_not_mem_chars m.delimiter (heq ▸ hc)
    rw [List.span_eq_takeWhile_dropWhile, List.takeWhile_append_of_pos hchars,
      List.dropWhile_append_of_pos hchars, List.takeWhile_cons_of_neg (by simp),
      List.dropWhile_cons_of_neg (by simp), List.append_nil]
  have hremainder :
      (m.delimiter.chars ++ '|' :: m.extension.rdropWhile isSpace).isEmpty = false := by
    simp
  rw [LEEFParser.parse, hline, hmatch]
  simp only [h1, h2, h3, h4, h5, h6, hspan, hremainder]
  rw [show ("2.0".toList.head? == Option.some '2') = true by decide]
  simp only [resolveLeefDelimiter_chars, Bool.false_eq_true, ↓reduceIte]
  show (if (m.extension.rdropWhile isSpace).isEmpty = true then
    Except.ok (Option.some (leefRecord m)) else
      Except.ok (Option.some ((leefRecord m).update (parseLeefAttributes
        (m.extension.rdropWhile isSpace) (Option.some [m.delimiter.char])).entries))) = _
  rw [parseLeefAttributes_eq, ← readPairs]
  split
  · rename_i hempty
    rw [readPairs, List.isEmpty_iff.mp hempty]
    rfl
  · rfl

theorem get?_parse_leef {record : Record}
    (h : LEEFParser.parse u m.write = .ok (Option.some record)) (k : String) :
    record.get? k = ((Dict.ofList (readPairs m)).get? k).or ((leefRecord m).get? k) := by
  rw [parse_leef] at h
  cases h
  exact Dict.get?_update_of_nodup _ (Dict.nodup _) k

theorem get?_leefRecord {k : String} (hk : k ∉ LeefMessage.headerKeys) :
    (leefRecord m).get? k = none := by
  rw [leefRecord, Dict.get?_ofList, lookup_eq_none_iff, List.map_reverse, List.mem_reverse]
  exact hk

/-- What an attribute is read as, up to its first sign between keys and values. -/
def readPair (entry : String × String) : String × PyVal :=
  (String.ofList (stripChars (entry.1.toList.takeWhile (· ≠ '='))),
    strVal (readValue ((leefPair entry).dropWhile (· ≠ '=')).tail))

theorem takeWhile_leefPair (entry : String × String) :
    (leefPair entry).takeWhile (· ≠ '=') = entry.1.toList.takeWhile (· ≠ '=') := by
  rw [leefPair, List.takeWhile_append, List.takeWhile_cons_of_neg (by simp), List.append_nil]
  split
  · rename_i hlength
    exact ((List.takeWhile_prefix _).eq_of_length hlength).symm
  · rfl

theorem readToken_leefPair (entry : String × String) :
    readToken (leefPair entry) = Option.some (readPair entry) := by
  have hsplit : leefPair entry = entry.1.toList.takeWhile (· ≠ '=') ++
      '=' :: ((leefPair entry).dropWhile (· ≠ '=')).tail := by
    have hne : (leefPair entry).dropWhile (· ≠ '=') ≠ [] := by
      rw [ne_eq, List.dropWhile_eq_nil_iff]
      intro hall
      simpa using hall '=' (by simp [leefPair])
    obtain ⟨c, t, hdrop⟩ := List.exists_cons_of_ne_nil hne
    have hhead := List.head?_dropWhile_not (· ≠ '=') (leefPair entry)
    rw [hdrop] at hhead ⊢
    obtain rfl : c = '=' := by simpa using hhead
    rw [List.tail_cons, ← hdrop, ← takeWhile_leefPair, List.takeWhile_append_dropWhile]
  have hkey : '=' ∉ entry.1.toList.takeWhile (· ≠ '=') := by
    intro hmem
    simpa using List.mem_takeWhile_imp hmem
  rw [hsplit, readToken_pair hkey]
  rfl

theorem readPairs_eq (hd : m.delimiter.char ≠ '=') : readPairs m = m.attributes.map readPair := by
  have hfree (entry : String × String) (hentry : entry ∈ m.attributes) :
      m.delimiter.char ∉ leefPair entry := by
    obtain ⟨hkey, hvalue⟩ := m.free entry hentry
    simp [leefPair, hkey, hvalue, hd]
  have hread (attributes : List (String × String)) :
      (attributes.map leefPair).filterMap readToken = attributes.map readPair := by
    rw [List.filterMap_map, ← List.filterMap_eq_map]
    congr 1
    funext entry
    exact readToken_leefPair entry
  obtain hnil | ⟨front, last, hlast⟩ := List.eq_nil_or_concat' m.attributes
  · rw [readPairs, LeefMessage.extension, hnil]
    rfl
  · rw [hlast, List.forall_mem_append, List.forall_mem_singleton] at hfree
    have hend : leefPair (last.1, String.ofList (last.2.toList.rdropWhile isSpace)) =
        (leefPair last).rdropWhile isSpace :=
      (rdropWhile_append_leefPair (p := isSpace) (by decide) [] last).symm
    rw [readPairs, LeefMessage.extension, hlast, rdropWhile_leefAttributes (by decide),
      splitOn_singleton, leefAttributes, List.splitOn_intercalate]
    · rw [List.map_append, List.map_singleton, hend, List.filterMap_append, hread,
        List.map_append, List.map_singleton]
      rw [List.filterMap_cons, readToken_rdropWhile, readToken_leefPair]
      rfl
    · rw [List.map_append, List.map_singleton, hend, List.forall_mem_append,
        List.forall_mem_singleton, List.forall_mem_map]
      exact ⟨hfree.1, fun hmem => hfree.2 ((List.rdropWhile_prefix ..).subset hmem)⟩
    · simp

theorem readPairs_of_equals (hd : m.delimiter.char = '=') : readPairs m = [] := by
  rw [readPairs, hd, List.filterMap_eq_nil_iff, splitOn_singleton]
  exact fun token htoken => readToken_of_not_mem (not_mem_of_mem_splitOn token htoken).1

/-- The attributes that come back as they are. -/
structure PlainAttribute (entry : String × String) : Prop where
  key : '=' ∉ entry.1.toList
  stripped : stripChars entry.1.toList = entry.1.toList
  value : PlainText entry.2.toList

theorem readPair_eq {entry : String × String} (hkey : '=' ∉ entry.1.toList) : readPair entry =
    (String.ofList (stripChars entry.1.toList), strVal (readValue entry.2.toList)) := by
  have hchars (c : Char) (hc : c ∈ entry.1.toList) : decide (c ≠ '=') = true :=
    decide_eq_true fun heq => hkey (heq ▸ hc)
  rw [readPair, List.takeWhile_eq_self_iff.mpr hchars, leefPair,
    List.dropWhile_append_of_pos hchars, List.dropWhile_cons_of_neg (by simp), List.tail_cons]

theorem length_readPair_le (entry : String × String) :
    (readPair entry).1.toList.length ≤ entry.1.toList.length := by
  rw [readPair, String.toList_ofList]
  exact (length_trim_le _ _).trans (List.takeWhile_sublist _).length_le

theorem key_of_length_le {entry : String × String}
    (h : entry.1.toList.length ≤ (readPair entry).1.toList.length) :
    '=' ∉ entry.1.toList ∧ stripChars entry.1.toList = entry.1.toList := by
  rw [readPair, String.toList_ofList] at h
  have htrim := length_trim_le isSpace (entry.1.toList.takeWhile (· ≠ '='))
  have htake := List.takeWhile_prefix (p := (· ≠ '=')) (l := entry.1.toList)
  have hwhole : entry.1.toList.takeWhile (· ≠ '=') = entry.1.toList :=
    htake.eq_of_length_le (h.trans htrim)
  rw [hwhole] at h
  refine ⟨fun hmem => ?_, trim_eq_self_of_length_le h⟩
  simpa using List.takeWhile_eq_self_iff.mp hwhole '=' hmem

/-- A delimiter that is no sign between keys and values, and attributes that come back. -/
def ReadableAttributes (m : LeefMessage) : Prop :=
  ∀ entry ∈ m.attributes, m.delimiter.char ≠ '=' ∧ PlainAttribute entry

theorem returnsAttributes_of_readableAttributes (u : Unicode) (h : ReadableAttributes m) :
    ReturnsAttributes u m := by
  refine ⟨_, parse_leef u m, fun k => ?_⟩
  rw [get?_parse_leef (parse_leef u m)]
  congr 1
  have hpairs : readPairs m = m.attributes.map fun entry => (entry.1, Json.str entry.2) := by
    obtain hnil | hne := eq_or_ne m.attributes []
    · rw [readPairs, LeefMessage.extension, hnil]
      rfl
    · obtain ⟨first, others, hfirst⟩ := List.exists_cons_of_ne_nil hne
      rw [readPairs_eq (h first (by simp [hfirst])).1]
      apply List.map_congr_left
      intro entry hentry
      obtain ⟨-, hplain⟩ := h entry hentry
      rw [readPair_eq hplain.key, hplain.stripped, readValue_eq_self_iff.mpr hplain.value, strVal,
        String.ofList_toList, String.ofList_toList]
  have hkeys : ((readPairs m).map Prod.fst).Nodup := by
    rw [hpairs, List.map_map]
    exact m.distinct
  show lookup k (Dict.ofList (readPairs m)).entries = _
  rw [Dict.entries_ofList_of_nodup hkeys, hpairs]
  exact lookup_map_snd Json.str k m.attributes

theorem fst_readPair (hsub : m.attributes.map Prod.fst ⊆ (m.attributes.map readPair).map Prod.fst) :
    ∀ entry ∈ m.attributes, '=' ∉ entry.1.toList ∧ stripChars entry.1.toList = entry.1.toList := by
  intro entry hentry
  apply key_of_length_le
  have hperm : (m.attributes.map Prod.fst).Perm ((m.attributes.map readPair).map Prod.fst) :=
    (List.subperm_of_subset m.distinct hsub).perm_of_length_le (by simp)
  have hsum := (hperm.map fun k => k.toList.length).sum_eq
  simp only [List.map_map, Function.comp_def] at hsum
  by_contra hlt
  have hless : (m.attributes.map fun entry => (readPair entry).1.toList.length).sum <
      (m.attributes.map fun entry => entry.1.toList.length).sum :=
    List.sum_lt_sum _ _ (fun other _ => length_readPair_le other) ⟨entry, hentry, not_le.mp hlt⟩
  omega

theorem readableAttributes_of_returnsAttributes
    (hkeys : ∀ k ∈ LeefMessage.headerKeys, k ∉ m.attributes.map Prod.fst)
    (h : ReturnsAttributes u m) : ReadableAttributes m := by
  obtain ⟨record, hrecord, hvalues⟩ := h
  have hfound (entry : String × String) (hentry : entry ∈ m.attributes) :
      (Dict.ofList (readPairs m)).get? entry.1 = Option.some (.str entry.2) := by
    have hvalue := hvalues entry.1
    have hlookup : m.value? entry.1 = Option.some entry.2 :=
      (lookup_eq_some_iff m.distinct).mpr hentry
    have hheader : (leefRecord m).get? entry.1 = none :=
      get?_leefRecord fun hk => hkeys _ hk (List.mem_map_of_mem hentry)
    rw [get?_parse_leef hrecord, hlookup, hheader, Option.or_none, Option.or_none] at hvalue
    exact hvalue
  have hd (entry : String × String) (hentry : entry ∈ m.attributes) :
      m.delimiter.char ≠ '=' := by
    intro heq
    have hnone := hfound entry hentry
    rw [readPairs_of_equals heq] at hnone
    cases hnone
  intro entry hentry
  have hpairs := readPairs_eq (hd entry hentry)
  rw [hpairs] at hfound
  have hsub : m.attributes.map Prod.fst ⊆ (m.attributes.map readPair).map Prod.fst := by
    intro k hk
    obtain ⟨other, hother, rfl⟩ := List.mem_map.mp hk
    exact List.mem_map_of_mem (Dict.mem_of_mem_ofList (Dict.get?_eq_some_iff.mp
      (hfound other hother)))
  have hplain := fst_readPair hsub
  have hread (other : String × String) (hother : other ∈ m.attributes) :
      readPair other = (other.1, strVal (readValue other.2.toList)) := by
    obtain ⟨hkey, hstripped⟩ := hplain other hother
    rw [readPair_eq hkey, hstripped, String.ofList_toList]
  have hnodup : ((m.attributes.map readPair).map Prod.fst).Nodup := by
    rw [List.map_congr_left hread, List.map_map]
    exact m.distinct
  refine ⟨hd entry hentry, (hplain entry hentry).1, (hplain entry hentry).2, ?_⟩
  have hget : lookup entry.1 (m.attributes.map readPair) = Option.some (.str entry.2) := by
    rw [← Dict.entries_ofList_of_nodup hnodup]
    exact hfound entry hentry
  have hmem : (entry.1, strVal (readValue entry.2.toList)) ∈ m.attributes.map readPair := by
    rw [← hread entry hentry]
    exact List.mem_map_of_mem hentry
  rw [lookup_of_mem hnodup hmem, Option.some.injEq, strVal, Json.str.injEq] at hget
  rw [← readValue_eq_self_iff]
  conv_rhs => rw [← hget, String.toList_ofList]

end Messages

section Both

/-- Both parsers return the attributes of a message with their values. -/
def HonoursDelimiter (u : Unicode) (m : LeefMessage) : Prop :=
  ParserRuntime.ReturnsAttributes m ∧ ReturnsAttributes u m

/-- The separators that the delimiter field is taken for fit the attributes, and these have
nothing that is undone. -/
def FitsDelimiter (m : LeefMessage) : Prop :=
  ParserRuntime.Separates (ParserRuntime.separators m.delimiter).toList m.delimiter.char
    m.attributes ∧ ReadableAttributes m

/-- An attribute under a name of the header can be missed and still seem to be there. -/
theorem honoursDelimiter_iff (u : Unicode) (m : LeefMessage) :
    (FitsDelimiter m → HonoursDelimiter u m) ∧
      ((∀ k ∈ LeefMessage.headerKeys, k ∉ m.attributes.map Prod.fst) →
        (HonoursDelimiter u m ↔ FitsDelimiter m)) := by
  have henough (h : FitsDelimiter m) : HonoursDelimiter u m :=
    ⟨ParserRuntime.returnsAttributes_of_separates h.1,
      returnsAttributes_of_readableAttributes u h.2⟩
  refine ⟨henough, fun hkeys => ⟨fun h => ?_, henough⟩⟩
  exact ⟨ParserRuntime.separates_of_returnsAttributes hkeys h.1,
    readableAttributes_of_returnsAttributes hkeys h.2⟩

/-- A message that names its delimiter, a caret, by a code. -/
def caretCode : LeefMessage where
  vendor := ⟨"Trend Micro", by decide, escaped_of_forall (by simp)⟩
  product := ⟨"Deep Security", by decide, escaped_of_forall (by simp)⟩
  version := ⟨"9.0", by decide, escaped_of_forall (by simp)⟩
  eventId := ⟨"2000000", by decide, escaped_of_forall (by simp)⟩
  delimiter := .code false ⟨'5', 5, by decide⟩ ⟨'E', 14, by decide⟩
  attributes := [("src", "10.10.10.10"), ("dst", "10.10.10.20")]
  distinct := by decide
  free := by simp [LeefDelimiter.char]

theorem not_honoursDelimiter_caretCode :
    ¬ ∀ (u : Unicode) (m : LeefMessage), HonoursDelimiter u m := by
  intro hall
  have hreturns := (hall Unicode.ascii caretCode).1
  have hmem := (ParserRuntime.separates_of_returnsAttributes (by decide) hreturns).delimiter
    (by decide)
  revert hmem
  decide

end Both

end Ulpf.SourceProfiler
