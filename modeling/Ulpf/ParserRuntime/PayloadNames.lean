import Ulpf.ParserRuntime.Choices
import Ulpf.ParserRuntime.HeaderIntegrity
import Ulpf.ParserRuntime.PairNames

/-!
The keys that a payload gives to the raw fields, apart from the fixed ones of a header:
the names of a JSON document joined along its objects, the columns of a record, the pairs
of a text.
-/

namespace Ulpf.ParserRuntime

open Ulpf.Lib
open Ulpf.Lib.Text
open Ulpf.Go

section Documents

/-- The key of a member below a key. -/
def joined (pre k : String) : String := if pre = "" then k else pre ++ "." ++ k

/-- A key that an object spells, below a key: that of a member, or one that an object
below the member spells. -/
inductive DottedName : String → List (String × Value) → String → Prop where
  | member {pre k : String} {val : Value} {members : List (String × Value)} :
      lookup k members = some val → DottedName pre members (joined pre k)
  | inner {pre k name : String} {members below : List (String × Value)} :
      lookup k members = some (.obj below) → DottedName (joined pre k) below name →
        DottedName pre members name

theorem mem_flattenJSON_iff (e : Enumeration) (path : List String) (pre name : String) (x : Value) :
    name ∈ (flattenJSON e path pre x).map Prod.fst ↔
      ∃ members, x = .obj members ∧ DottedName pre members name := by
  induction x using Json.induct generalizing path pre with
  | obj members ih =>
      simp only [List.mem_map, mem_flattenJSON_obj, Json.obj.injEq, exists_eq_left']
      constructor
      · rintro ⟨⟨_, val⟩, ⟨k, val', hlookup, hentry⟩, rfl⟩
        obtain hhere | hbelow := hentry
        · obtain ⟨rfl, rfl⟩ := Prod.mk.inj hhere
          exact .member hlookup
        · obtain ⟨below, rfl, hname⟩ := (ih (k, val') (mem_of_lookup hlookup) _ _).mp
            (List.mem_map_of_mem hbelow)
          exact .inner hlookup hname
      · intro hname
        cases hname with
        | @member _ k val _ hlookup => exact ⟨(joined pre k, val), ⟨k, val, hlookup, .inl rfl⟩, rfl⟩
        | @inner _ k _ _ below hlookup hbelow =>
            obtain ⟨entry, hentry, rfl⟩ := List.mem_map.mp ((ih (k, .obj below)
              (mem_of_lookup hlookup) (path ++ [k]) (joined pre k)).mpr ⟨below, rfl, hbelow⟩)
            exact ⟨entry, ⟨k, .obj below, hlookup, .inr hentry⟩, rfl⟩
  | _ => simp [flattenJSON]

end Documents

section Bodies

/-- The delimiter that a record is read with. -/
def csvComma (delimiter : String) : Char :=
  match delimiter.toList with
  | [c] => if c.toNat < 0x80 then c else ','
  | _ => ','

/-- The extension of a CEF message, given between its pipes, spells a key. -/
def CefName (texts : List String) (k : String) : Prop :=
  ∃ text, texts[7]? = some text ∧ trimSpace text ≠ "" ∧ NamesPair text " " "=" k

/-- The extension of a LEEF message, given between its pipes, spells a key. -/
def LeefName (texts : List String) (k : String) : Prop :=
  ∃ version vendor product productVersion eventId rest delimiter extension,
    texts = version :: vendor :: product :: productVersion :: eventId :: rest ∧
    leefExtension version rest = (delimiter, extension) ∧ extension ≠ "" ∧
    NamesPair extension delimiter "=" k

/-- A payload spells a key for the body parser of a spec. -/
def PayloadName (spec : ParserSpec) (raw k : String) : Prop :=
  match spec.bodyParser.type with
  | "json" => ∃ members, unmarshal raw = some (.obj members) ∧ DottedName "" members k
  | "csv" => ∃ record,
      Csv.read (csvComma spec.bodyParser.delimiter) (trim Unicode.isSpace raw.toList) =
        some record ∧ ∃ i < record.length, k = columnKey spec.bodyParser.headers i
  | "cef" => CefName (cefTexts raw) k
  | "leef" => LeefName (leefTexts raw) k
  | "key_value" =>
      NamesPair (if overSyslog spec raw then (parseSyslog raw).2 else raw)
        spec.bodyParser.pairSeparator spec.bodyParser.keyValueSeparator k
  | _ => False

/-- Whether a raw field stands under a key of the payload and not under a fixed one. -/
def readFromPayload (spec : ParserSpec) (raw k : String) : Bool :=
  match spec.bodyParser.type with
  | "json" | "csv" => true
  | "cef" | "leef" | "key_value" => (bodyFields spec raw).contains k
  | _ => false

/-- The keys of the raw fields that come from the payload. -/
def payloadKeys (spec : ParserSpec) (raw : String) (fields : RawFields) : List String :=
  fields.keys.filter (readFromPayload spec raw)

theorem mem_keys_cefPairs_iff {texts : List String} {k : String} :
    k ∈ (cefPairs texts).keys ↔ CefName texts k := by
  rw [cefPairs, CefName]
  cases texts[7]? with
  | none => simp [Dict.keys, Dict.empty]
  | some text =>
      simp only [Option.some.injEq, exists_eq_left']
      split
      · rename_i hblank
        simp [hblank, Dict.keys, Dict.empty]
      · rename_i hblank
        rw [mem_keys_parseKeyValue, and_iff_right hblank]

theorem mem_keys_leefPairs_iff {texts : List String} {k : String} :
    k ∈ (leefPairs texts).keys ↔ LeefName texts k := by
  rw [leefPairs.eq_def, LeefName]
  split
  · rename_i version vendor product productVersion eventId rest
    rcases hextension : leefExtension version rest with ⟨delimiter, extension⟩
    simp only
    split
    · rename_i hblank
      simp only [Dict.keys, Dict.empty, List.map_nil, List.not_mem_nil, false_iff]
      rintro ⟨_, _, _, _, _, _, _, _, htexts, hextension', hne, -⟩
      cases htexts
      rw [hextension] at hextension'
      cases hextension'
      exact hne hblank
    · rename_i hblank
      rw [mem_keys_parseKeyValue]
      constructor
      · intro hnames
        exact ⟨_, _, _, _, _, _, _, _, rfl, hextension, hblank, hnames⟩
      · rintro ⟨_, _, _, _, _, _, _, _, htexts, hextension', -, hnames⟩
        cases htexts
        rw [hextension] at hextension'
        cases hextension'
        exact hnames
  · rename_i hno
    simp only [Dict.keys, Dict.empty, List.map_nil, List.not_mem_nil, false_iff]
    rintro ⟨version, vendor, product, productVersion, eventId, rest, _, _, htexts, -⟩
    exact hno version vendor product productVersion eventId rest htexts

theorem parseCSV_eq (raw delimiter : String) (headers : List String) :
    parseCSV raw delimiter headers =
      (Csv.read (csvComma delimiter) (trim Unicode.isSpace raw.toList)).elim (.error .csv)
        fun record => .ok (Dict.ofList (record.zipIdx.map fun column =>
          (columnKey headers column.2, .str column.1))) := by
  unfold parseCSV csvComma
  dsimp only
  rcases delimiter.toList with _ | ⟨c, _ | ⟨d, rest⟩⟩
  all_goals
    simp only
    split
    · rename_i hrecord
      rw [hrecord]
      rfl
    · rename_i hrecord
      rw [hrecord]
      rfl

theorem mem_keys_columns_iff (headers record : List String) (k : String) :
    k ∈ (Dict.ofList (record.zipIdx.map fun column =>
      (columnKey headers column.2, (.str column.1 : Value)))).keys ↔
        ∃ i < record.length, k = columnKey headers i := by
  rw [Dict.ofList, Dict.mem_keys_update, List.map_map]
  constructor
  · rintro (hmem | hmem)
    · obtain ⟨⟨val, i⟩, hi, rfl⟩ := List.mem_map.mp hmem
      obtain ⟨hlt, -⟩ := List.getElem?_eq_some_iff.mp (List.mem_zipIdx_iff_getElem?.mp hi)
      exact ⟨i, hlt, rfl⟩
    · cases hmem
  · rintro ⟨i, hi, rfl⟩
    refine .inl (List.mem_map.mpr ⟨(record[i], i), ?_, rfl⟩)
    exact List.mem_zipIdx_iff_getElem?.mpr (List.getElem?_eq_getElem hi)

theorem mem_payloadKeys_iff {e : Enumeration} {raw : String} {spec : ParserSpec}
    {fields : RawFields} (h : parseBody e raw spec = .ok fields) (k : String) :
    k ∈ payloadKeys spec raw fields ↔ PayloadName spec raw k := by
  rw [payloadKeys, List.mem_filter]
  rw [parseBody] at h
  split at h
  case h_1 htype =>
    simp only [readFromPayload, PayloadName, htype, bodyFields, Dict.contains_iff,
      mem_keys_parseKeyValue, and_iff_right_iff_imp]
    intro hname
    rcases hsyslog : parseSyslog raw with ⟨syslogMeta, body⟩
    rw [hsyslog] at h hname
    by_cases hover : overSyslog spec raw
    · rw [if_pos (show _ ∧ _ from hover)] at h
      rw [if_pos hover] at hname
      cases h
      exact Dict.mem_keys_update.mpr (.inl (mem_keys_parseKeyValue.mpr hname))
    · rw [if_neg (show ¬ (_ ∧ _) from hover)] at h
      rw [if_neg hover] at hname
      cases h
      exact mem_keys_parseKeyValue.mpr hname
  case h_2 htype =>
    simp only [readFromPayload, PayloadName, htype, and_true]
    rw [parseJSON] at h
    split at h
    · rename_i hnull
      cases h
      simp [hnull, Dict.keys, Dict.empty]
    · rename_i members hobj
      cases h
      rw [Dict.ofList, Dict.mem_keys_update, mem_flattenJSON_iff, hobj]
      simp [Dict.keys, Dict.empty]
    · cases h
  case h_3 htype =>
    simp only [readFromPayload, PayloadName, htype, bodyFields, Dict.contains_iff,
      mem_keys_cefPairs_iff, and_iff_right_iff_imp]
    intro hname
    rw [parseCEF_eq h]
    exact Dict.mem_keys_update.mpr (.inl (mem_keys_cefPairs_iff.mpr hname))
  case h_4 htype =>
    simp only [readFromPayload, PayloadName, htype, bodyFields, Dict.contains_iff,
      mem_keys_leefPairs_iff, and_iff_right_iff_imp]
    intro hname
    rw [parseLEEF_eq h]
    exact Dict.mem_keys_update.mpr (.inl (mem_keys_leefPairs_iff.mpr hname))
  case h_5 htype => simp [readFromPayload, PayloadName, htype]
  case h_6 htype =>
    simp only [readFromPayload, PayloadName, htype, and_true]
    rw [parseCSV_eq] at h
    cases hrecord : Csv.read (csvComma spec.bodyParser.delimiter)
        (trim Unicode.isSpace raw.toList) with
    | none =>
        rw [hrecord] at h
        cases h
    | some record =>
        rw [hrecord] at h
        cases h
        rw [mem_keys_columns_iff]
        simp
  case h_7 => cases h

end Bodies

end Ulpf.ParserRuntime
