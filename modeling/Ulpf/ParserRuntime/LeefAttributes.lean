import Ulpf.Formats.Leef
import Ulpf.ParserRuntime.PairTokens
import Mathlib.Algebra.Order.BigOperators.Group.List

/-!
The attributes of LEEF messages that `ParseLEEF` returns. It takes the characters of the
delimiter field for the separators, but for the codes of a blank and of a tab.
-/

namespace Ulpf.ParserRuntime

open Ulpf.Lib
open Ulpf.Lib.Text
open Ulpf.Go
open Ulpf.Formats

section Plain

variable (pairSep : List Char) (kvSep : Char)

/-- A pair that a scan finds as it is written. -/
structure PlainPair (entry : String × String) : Prop where
  named : entry.1.toList ≠ []
  key : ∀ c ∈ entry.1.toList, c ≠ kvSep ∧ c ∉ pairSep
  trimmedKey : trim Unicode.isSpace entry.1.toList = entry.1.toList
  value : ∀ c ∈ entry.2.toList, c ∉ pairSep
  trimmedValue : trim Unicode.isSpace entry.2.toList = entry.2.toList
  bare : ∀ c ∈ entry.2.toList.head?, isQuote c = false

/-- A text of plain pairs, with one separator between two of them. -/
inductive Plainly : List (String × String) → List Char → Prop where
  | last {entry : String × String} : PlainPair pairSep kvSep entry →
      Plainly [entry] (entry.1.toList ++ kvSep :: entry.2.toList)
  | cons {entry : String × String} {entries : List (String × String)} {c : Char}
      {rest : List Char} : PlainPair pairSep kvSep entry → c ∈ pairSep →
        (entry.2.toList = [] → isQuote c = false) → Plainly entries rest →
          Plainly (entry :: entries) (entry.1.toList ++ kvSep :: (entry.2.toList ++ c :: rest))

variable {pairSep : List Char} {kvSep : Char} {entry : String × String}
  {entries : List (String × String)} {s rest : List Char}

theorem Plainly.plain (h : Plainly pairSep kvSep entries s) :
    ∀ entry ∈ entries, PlainPair pairSep kvSep entry := by
  induction h with
  | last hplain => exact List.forall_mem_singleton.mpr hplain
  | cons hplain _ _ _ ih => exact List.forall_mem_cons.mpr ⟨hplain, ih⟩

def strPair (entry : String × String) : String × Value := (entry.1, .str entry.2)

theorem PlainPair.keyAt (h : PlainPair pairSep kvSep entry) (rest : List Char) :
    KeyAt pairSep kvSep (entry.1.toList ++ kvSep :: rest) entry.1.toList rest := by
  rw [← List.nil_append (entry.1.toList ++ kvSep :: rest)]
  refine .mk (by simp) ?_ h.key
  intro c hc
  rw [List.head?_append_of_ne_nil _ h.named] at hc
  rw [isGap_iff_of_not_mem (h.key c (List.mem_of_mem_head? hc)).2]
  by_contra hblank
  have hspace := isSpace_of_isBlank (by simpa using hblank)
  rw [← h.trimmedKey] at hc
  rw [head?_trim _ _ c hc] at hspace
  cases hspace

theorem PlainPair.pair_eq (h : PlainPair pairSep kvSep entry) :
    pair entry.1.toList entry.2.toList = [strPair entry] := by
  rw [pair, h.trimmedKey, if_neg h.named, String.ofList_toList, String.ofList_toList]
  rfl

theorem PlainPair.pairsOf_eq (h : PlainPair pairSep kvSep entry)
    (hrest : ∀ c ∈ rest.head?, c ∈ pairSep)
    (hquote : entry.2.toList = [] → ∀ c ∈ rest.head?, isQuote c = false) :
    pairsOf pairSep kvSep (entry.1.toList ++ kvSep :: (entry.2.toList ++ rest)) =
      strPair entry :: pairsOf pairSep kvSep rest := by
  rw [pairsOf_keyAt (h.keyAt _), scanValue_value h.value hrest, h.trimmedValue, h.pair_eq,
    List.singleton_append]
  intro c hc
  obtain hnil | hne := eq_or_ne entry.2.toList []
  · rw [hnil] at hc
    exact hquote hnil c hc
  · rw [List.head?_append_of_ne_nil _ hne] at hc
    exact h.bare c hc

theorem pairsOf_separator {c : Char} (hc : c ∈ pairSep) (rest : List Char) :
    pairsOf pairSep kvSep (c :: rest) = pairsOf pairSep kvSep rest :=
  pairsOf_gap (List.forall_mem_singleton.mpr (isGap_of_mem hc))

theorem Plainly.pairsOf_eq (h : Plainly pairSep kvSep entries s) :
    pairsOf pairSep kvSep s = entries.map strPair := by
  induction h with
  | @last entry hplain =>
      have hfirst : pairsOf pairSep kvSep (entry.1.toList ++ kvSep :: (entry.2.toList ++ [])) =
          strPair entry :: pairsOf pairSep kvSep [] := hplain.pairsOf_eq (by simp) (by simp)
      rw [List.append_nil] at hfirst
      exact hfirst
  | @cons entry entries c rest hplain hc hquote _ ih =>
      rw [hplain.pairsOf_eq (by simpa using hc) (by simpa using hquote), pairsOf_separator hc, ih,
        List.map_cons]

end Plain

section Sizes

variable {pairSep : List Char} {kvSep : Char} {s : List Char}

/-- What a pair takes up in a text, with both separators. -/
def pairSize (entry : String × String) : ℕ := entry.1.toList.length + entry.2.toList.length + 2

theorem length_scanQuoted (quote : Char) (s : List Char) :
    (scanQuoted quote s).1.length + (scanQuoted quote s).2.length + 1 ≤ s.length ∨
      (scanQuoted quote s).2 = [] ∧ (scanQuoted quote s).1.length ≤ s.length := by
  fun_induction scanQuoted quote s with
  | case1 => exact Or.inr ⟨rfl, le_rfl⟩
  | case2 c rest text after hscan ih =>
      rw [hscan] at ih
      simp only [List.length_cons] at ih ⊢
      exact ih.imp (fun h => by omega) fun h => ⟨h.1, by omega⟩
  | case3 rest => simp
  | case4 c rest _ _ text after hscan ih =>
      rw [hscan] at ih
      simp only [List.length_cons] at ih ⊢
      exact ih.imp (fun h => by omega) fun h => ⟨h.1, by omega⟩

/-- The pairs of a text take up no more than it has, or it is made up of plain pairs. -/
def Fits (pairSep : List Char) (kvSep : Char) (s : List Char) : Prop :=
  ∃ entries : List (String × String), pairsOf pairSep kvSep s = entries.map strPair ∧
    ((entries.map pairSize).sum ≤ s.length ∨
      (entries.map pairSize).sum = s.length + 1 ∧ Plainly pairSep kvSep entries s)

theorem Fits.sum_le (h : Fits pairSep kvSep s) : ∃ entries : List (String × String),
    pairsOf pairSep kvSep s = entries.map strPair ∧
      (entries.map pairSize).sum ≤ s.length + 1 := by
  obtain ⟨entries, hpairs, hsize⟩ := h
  exact ⟨entries, hpairs, by omega⟩

variable {gap key rest value : List Char}

theorem pairsOf_named (hkey : KeyAt pairSep kvSep s key rest)
    (hnamed : trim Unicode.isSpace key ≠ []) : pairsOf pairSep kvSep s =
      strPair (String.ofList (trim Unicode.isSpace key),
        String.ofList (scanValue pairSep rest).1) ::
          pairsOf pairSep kvSep (scanValue pairSep rest).2 := by
  rw [pairsOf_keyAt hkey, pair, if_neg hnamed]
  rfl

theorem pairSize_ofList (key value : List Char) :
    pairSize (String.ofList key, String.ofList value) = key.length + value.length + 2 := by
  rw [pairSize, String.toList_ofList, String.toList_ofList]

theorem fits_quoted (hkey : KeyAt pairSep kvSep (gap ++ (key ++ kvSep :: rest)) key rest)
    (hquote : ¬ ∀ c ∈ rest.head?, isQuote c = false)
    (ih : Fits pairSep kvSep (scanValue pairSep rest).2)
    (hnamed : trim Unicode.isSpace key ≠ []) :
    Fits pairSep kvSep (gap ++ (key ++ kvSep :: rest)) := by
  cases rest with
  | nil => simp at hquote
  | cons quote body =>
      have hmark : quote = '"' ∨ quote = '\'' := by
        simpa [isQuote, or_iff_not_imp_left] using hquote
      have htrim := length_trim_le Unicode.isSpace key
      have hscan : scanValue pairSep (quote :: body) = scanQuoted quote body :=
        scanValue_quoted hmark body
      have hlength := length_scanQuoted quote body
      obtain ⟨entries, hpairs, hsize⟩ := ih.sum_le
      rw [hscan] at hpairs hsize
      refine ⟨(String.ofList (trim Unicode.isSpace key), String.ofList (scanQuoted quote body).1) ::
        entries, ?_, Or.inl ?_⟩
      · rw [pairsOf_named hkey hnamed, hscan, hpairs, List.map_cons]
      · rw [List.map_cons, List.sum_cons, pairSize_ofList]
        simp only [List.length_append, List.length_cons]
        obtain hclosed | ⟨hnil, hle⟩ := hlength
        · omega
        · rw [hnil] at hpairs
          rw [List.map_eq_nil_iff.mp hpairs.symm, List.map_nil, List.sum_nil]
          omega

theorem fits_plain {entry : String × String} (hentry : PlainPair pairSep kvSep entry)
    (hrest : ∀ c ∈ rest.head?, c ∈ pairSep)
    (hquote : ∀ c ∈ (entry.2.toList ++ rest).head?, isQuote c = false)
    (ih : ∀ c after, rest = c :: after → Fits pairSep kvSep after) :
    Fits pairSep kvSep (entry.1.toList ++ kvSep :: (entry.2.toList ++ rest)) := by
  have hempty (hnil : entry.2.toList = []) : ∀ c ∈ rest.head?, isQuote c = false := by
    rwa [hnil] at hquote
  have hpairs := hentry.pairsOf_eq hrest hempty
  cases rest with
  | nil =>
      refine ⟨[entry], hpairs, Or.inr ⟨?_, ?_⟩⟩
      · simp [pairSize]
        omega
      · rw [List.append_nil]
        exact .last hentry
  | cons c after =>
      obtain ⟨entries, hentries, hsize⟩ := ih c after rfl
      rw [pairsOf_separator (hrest c rfl), hentries] at hpairs
      refine ⟨entry :: entries, hpairs, ?_⟩
      rw [List.map_cons, List.sum_cons, pairSize]
      simp only [List.length_append, List.length_cons]
      obtain hle | ⟨heq, hplainly⟩ := hsize
      · left
        omega
      · exact Or.inr ⟨by omega, .cons hentry (hrest c rfl) (fun hnil => hempty hnil c rfl) hplainly⟩

theorem fits_bare (hkey : KeyAt pairSep kvSep (gap ++ (key ++ kvSep :: (value ++ rest))) key
      (value ++ rest))
    (hchars : ∀ c ∈ key, c ≠ kvSep ∧ c ∉ pairSep) (hvalue : ∀ c ∈ value, c ∉ pairSep)
    (hrest : ∀ c ∈ rest.head?, c ∈ pairSep)
    (hquote : ∀ c ∈ (value ++ rest).head?, isQuote c = false)
    (ih : ∀ c after, rest = c :: after → Fits pairSep kvSep after)
    (hnamed : trim Unicode.isSpace key ≠ []) :
    Fits pairSep kvSep (gap ++ (key ++ kvSep :: (value ++ rest))) := by
  by_cases hplain : gap = [] ∧ trim Unicode.isSpace key = key ∧ trim Unicode.isSpace value = value
  · obtain ⟨rfl, htrimKey, htrimValue⟩ := hplain
    rw [htrimKey] at hnamed
    have hentry : PlainPair pairSep kvSep (String.ofList key, String.ofList value) := by
      refine ⟨?_, ?_, ?_, ?_, ?_, ?_⟩
      all_goals simp only [String.toList_ofList]
      · exact hnamed
      · exact hchars
      · exact htrimKey
      · exact hvalue
      · exact htrimValue
      · exact fun c hc => hquote c (List.mem_head?_append_of_mem_head? hc)
    have hfits := fits_plain hentry hrest (by simpa only [String.toList_ofList]) ih
    simpa only [String.toList_ofList, List.nil_append] using hfits
  · have hkeyLe := length_trim_le Unicode.isSpace key
    have hvalueLe := length_trim_le Unicode.isSpace value
    have hlt : (trim Unicode.isSpace key).length + (trim Unicode.isSpace value).length <
        gap.length + key.length + value.length := by
      by_contra hnot
      apply hplain
      exact ⟨List.length_eq_zero_iff.mp (by omega), trim_eq_self_of_length_le (by omega),
        trim_eq_self_of_length_le (by omega)⟩
    have hpairs := pairsOf_named hkey hnamed
    rw [scanValue_value hvalue hrest hquote] at hpairs
    cases rest with
    | nil =>
        refine ⟨[(String.ofList (trim Unicode.isSpace key),
          String.ofList (trim Unicode.isSpace value))], hpairs, Or.inl ?_⟩
        simp [pairSize_ofList]
        omega
    | cons c after =>
        obtain ⟨entries, hentries, hsize⟩ := (ih c after rfl).sum_le
        dsimp only at hpairs
        rw [pairsOf_separator (hrest c rfl), hentries] at hpairs
        refine ⟨_ :: entries, hpairs, Or.inl ?_⟩
        rw [List.map_cons, List.sum_cons, pairSize_ofList]
        simp only [List.length_append, List.length_cons]
        omega

/-- A scan never finds more than a text of plain pairs holds. -/
theorem fits (pairSep : List Char) (kvSep : Char) (s : List Char) : Fits pairSep kvSep s := by
  induction hlength : s.length using Nat.strong_induction_on generalizing s with
  | _ n ih =>
      by_cases hkeyAt : ∃ key rest, KeyAt pairSep kvSep s key rest
      · obtain ⟨key, rest, hkey⟩ := hkeyAt
        have hends : ValueEnds pairSep rest (scanValue pairSep rest).2 := valueEnds_iff.mpr rfl
        have hle := valueEnds_length_le hends
        have hshorter := keyAt_shorter hkey
        have hlater : Fits pairSep kvSep (scanValue pairSep rest).2 := ih _ (by omega) _ rfl
        by_cases hnamed : trim Unicode.isSpace key = []
        · obtain ⟨entries, hentries, hsize⟩ := hlater.sum_le
          refine ⟨entries, ?_, Or.inl (by omega)⟩
          rw [pairsOf_keyAt hkey, pair, if_pos hnamed, hentries, List.nil_append]
        · cases hkey with
          | @mk gap key rest hgap hhead hchars =>
              have hkey : KeyAt pairSep kvSep (gap ++ (key ++ kvSep :: rest)) key rest :=
                .mk hgap hhead hchars
              by_cases hquote : ∀ c ∈ rest.head?, isQuote c = false
              · obtain ⟨value, after, rfl, hvalue, hafter⟩ := exists_value pairSep rest
                refine fits_bare hkey hchars hvalue hafter hquote (fun c later hlater => ?_) hnamed
                refine ih _ ?_ _ rfl
                rw [hlater] at hshorter
                rw [← hlength, hlater]
                simp only [List.length_append, List.length_cons]
                omega
              · exact fits_quoted hkey hquote hlater hnamed
      · exact ⟨[], pairsOf_eq_nil fun key rest hkey => hkeyAt ⟨key, rest, hkey⟩,
          Or.inl (Nat.zero_le _)⟩

end Sizes

section Attributes

variable {pairSep : List Char} {d : Char} {attributes entries : List (String × String)}

/-- The characters of the separators are not in the attributes, one of them is what stands between
two attributes, and it opens no quote after an empty value. -/
structure Separates (pairSep : List Char) (d : Char) (attributes : List (String × String)) :
    Prop where
  pairs : ∀ entry ∈ attributes, PlainPair pairSep '=' entry
  delimiter : 2 ≤ attributes.length → d ∈ pairSep
  values : isQuote d = true → ∀ entry ∈ attributes.dropLast, entry.2.toList ≠ []

theorem plainly_leefAttributes (hne : attributes ≠ []) (h : Separates pairSep d attributes) :
    Plainly pairSep '=' attributes (leefAttributes d attributes) := by
  induction attributes with
  | nil => exact absurd rfl hne
  | cons entry attributes ih =>
      have hplain := h.pairs entry List.mem_cons_self
      cases attributes with
      | nil =>
          rw [leefAttributes_singleton]
          exact .last hplain
      | cons next attributes =>
          have hd : d ∈ pairSep := h.delimiter (by simp)
          rw [leefAttributes_cons_cons, leefPair, List.append_assoc, List.cons_append]
          refine .cons hplain hd (fun hnil => ?_) (ih (by simp) ⟨?_, fun _ => hd, ?_⟩)
          · by_contra hquote
            exact h.values (by simpa using hquote) entry (by simp) hnil
          · exact fun other hother => h.pairs other (List.mem_cons_of_mem _ hother)
          · exact fun hquote other hother => h.values hquote other
              (by rw [List.dropLast_cons_cons]; exact List.mem_cons_of_mem _ hother)

theorem mem_leefAttributes {c : Char} (hc : c ∈ leefAttributes d attributes) :
    c = d ∨ c = '=' ∨ ∃ entry ∈ attributes, c ∈ entry.1.toList ∨ c ∈ entry.2.toList := by
  induction attributes with
  | nil => cases hc
  | cons entry attributes ih =>
      have hpair (h : c ∈ leefPair entry) : c = '=' ∨ c ∈ entry.1.toList ∨ c ∈ entry.2.toList := by
        rw [leefPair, List.mem_append, List.mem_cons] at h
        tauto
      cases attributes with
      | nil =>
          rw [leefAttributes_singleton] at hc
          exact Or.inr ((hpair hc).imp_right fun h => ⟨entry, List.mem_cons_self, h⟩)
      | cons next attributes =>
          rw [leefAttributes_cons_cons, List.mem_append, List.mem_cons] at hc
          obtain hc | rfl | hc := hc
          · exact Or.inr ((hpair hc).imp_right fun h => ⟨entry, List.mem_cons_self, h⟩)
          · exact Or.inl rfl
          · obtain h | h | ⟨other, hother, h⟩ := ih hc
            · exact .inl h
            · exact .inr (.inl h)
            · exact .inr (.inr ⟨other, List.mem_cons_of_mem _ hother, h⟩)

theorem Plainly.length_eq_one (h : Plainly pairSep '=' entries (leefAttributes d attributes))
    (hpairs : ∀ entry ∈ attributes, PlainPair pairSep '=' entry) (hequals : '=' ∉ pairSep)
    (hd : d ∉ pairSep) : entries.length = 1 := by
  generalize htext : leefAttributes d attributes = text at h
  cases h with
  | last => rfl
  | @cons entry entries c rest _ hc _ _ =>
      have hmem : c ∈ leefAttributes d attributes := by
        rw [htext]
        simp
      obtain rfl | rfl | ⟨other, hother, hkey | hvalue⟩ := mem_leefAttributes hmem
      · exact absurd hc hd
      · exact absurd hc hequals
      · exact absurd hc ((hpairs other hother).key c hkey).2
      · exact absurd hc ((hpairs other hother).value c hvalue)

theorem Plainly.values_ne_nil (h : Plainly pairSep '=' entries (leefAttributes d attributes))
    (hpairs : ∀ entry ∈ attributes, PlainPair pairSep '=' entry) (hd : d ∈ pairSep)
    (hquote : isQuote d = true) : ∀ entry ∈ attributes.dropLast, entry.2.toList ≠ [] := by
  induction attributes generalizing entries with
  | nil => simp
  | cons entry attributes ih =>
      cases attributes with
      | nil => simp
      | cons next attributes =>
          obtain ⟨hentry, hpairs⟩ := List.forall_mem_cons.mp hpairs
          rw [leefAttributes_cons_cons, leefPair, List.append_assoc, List.cons_append] at h
          generalize htext : entry.1.toList ++ '=' :: (entry.2.toList ++
            d :: leefAttributes d (next :: attributes)) = text at h
          have hkey (other : String × String) (hother : PlainPair pairSep '=' other) :
              ∀ c ∈ other.1.toList, decide (c ≠ '=') = true := fun c hc => by
            simpa using (hother.key c hc).1
          have hvalue (other : String × String) (hother : PlainPair pairSep '=' other) :
              ∀ c ∈ other.2.toList, (!pairSep.contains c) = true := fun c hc => by
            simpa using hother.value c hc
          rw [List.dropLast_cons_cons, List.forall_mem_cons]
          cases h with
          | @last first hfirst =>
              obtain ⟨-, -, hrest⟩ := append_cons_inj (hkey _ hentry) (hkey _ hfirst)
                (by decide) (by decide) htext
              exact absurd hd (hfirst.value d (by rw [← hrest]; simp))
          | @cons first others c rest hfirst hc hempty hplainly =>
              obtain ⟨-, -, hrest⟩ := append_cons_inj (hkey _ hentry) (hkey _ hfirst)
                (by decide) (by decide) htext
              obtain ⟨hsame, rfl, rfl⟩ := append_cons_inj (hvalue _ hentry) (hvalue _ hfirst)
                (by simpa using hd) (by simpa using hc) hrest
              refine ⟨fun hnil => ?_, ih hplainly hpairs⟩
              rw [hempty (hsame ▸ hnil)] at hquote
              cases hquote

theorem sum_pairSize (hne : attributes ≠ []) :
    (attributes.map pairSize).sum = (leefAttributes d attributes).length + 1 := by
  induction attributes with
  | nil => exact absurd rfl hne
  | cons entry attributes ih =>
      cases attributes with
      | nil =>
          rw [leefAttributes_singleton]
          simp [pairSize, leefPair]
          omega
      | cons next attributes =>
          rw [List.map_cons, List.sum_cons, ih (by simp), leefAttributes_cons_cons]
          simp [pairSize, leefPair]
          omega

/-- A scan that finds all attributes in a text no longer than theirs reads their own text. -/
theorem plainly_of_subset {s : List Char} (hnodup : attributes.Nodup) (hne : attributes ≠ [])
    (hs : s <+: leefAttributes d attributes)
    (h : ∀ entry ∈ attributes, strPair entry ∈ pairsOf pairSep '=' s) :
    s = leefAttributes d attributes ∧ ∃ entries, attributes ⊆ entries ∧
      Plainly pairSep '=' entries (leefAttributes d attributes) := by
  obtain ⟨entries, hentries, hsize⟩ := fits pairSep '=' s
  have hinj : Function.Injective strPair := by
    rintro ⟨k, v⟩ ⟨k', v'⟩ heq
    cases heq
    rfl
  have hsub : attributes ⊆ entries := by
    intro entry hentry
    have hmem := h entry hentry
    rw [hentries] at hmem
    exact (List.mem_map_of_injective hinj).mp hmem
  have hle : (attributes.map pairSize).sum ≤ (entries.map pairSize).sum := by
    obtain ⟨between, hperm, hsublist⟩ := List.subperm_of_subset hnodup hsub
    rw [← (hperm.map pairSize).sum_eq]
    exact (hsublist.map pairSize).sum_le_sum fun _ _ => Nat.zero_le _
  rw [sum_pairSize (d := d) hne] at hle
  have hlength := hs.length_le
  obtain hfew | ⟨heq, hplainly⟩ := hsize
  · omega
  · have hwhole := hs.eq_of_length (by omega)
    rw [hwhole] at hplainly
    exact ⟨hwhole, entries, hsub, hplainly⟩

end Attributes

section Messages

/-- The separators that a delimiter field is taken for. -/
def separators (delimiter : LeefDelimiter) : String :=
  let text := String.ofList delimiter.chars
  if text = "x20" then " " else if text = "x09" ∨ text = "" then "\t" else text

/-- The fields of a header as `ParseLEEF` returns them. -/
def writtenHeader (m : LeefMessage) : RawFields :=
  Dict.ofList [("leef_version", .str "2.0"), ("vendor", .str m.vendor.text),
    ("product", .str m.product.text), ("version", .str m.version.text),
    ("event_id", .str m.eventId.text)]

/-- `ParseLEEF` returns the attributes of a message with their values, and beside them only its
header. -/
def ReturnsAttributes (m : LeefMessage) : Prop :=
  ∃ fields, parseLEEF m.write = .ok fields ∧
    ∀ k, fields.get? k = ((m.value? k).map Json.str).or ((writtenHeader m).get? k)

variable {m : LeefMessage}

theorem pipe_not_mem_chars (delimiter : LeefDelimiter) : '|' ∉ delimiter.chars := by
  have hdigit (digit : HexDigit) : '|' ≠ digit.char := (digit.char_ne (by decide)).symm
  cases delimiter with
  | literal c hc => simpa [LeefDelimiter.chars] using Ne.symm hc
  | code zero high low =>
      cases zero
      · simp [LeefDelimiter.chars, hdigit]
      · simp [LeefDelimiter.chars, hdigit]

theorem trim_header : trim Unicode.isSpace m.write.toList =
    m.header ++ m.extension.rdropWhile Unicode.isSpace :=
  m.trim_write (by decide) (by decide)

theorem splitOn_header (rest : List Char) : splitOn ['|'] ((m.header ++ rest).drop 5) =
    ["2.0".toList, m.vendor.text.toList, m.product.text.toList, m.version.text.toList,
      m.eventId.text.toList, m.delimiter.chars] ++ splitOn ['|'] rest := by
  have hdrop : (m.header ++ rest).drop 5 = "2.0".toList ++ '|' :: (m.vendor.text.toList ++
      '|' :: (m.product.text.toList ++ '|' :: (m.version.text.toList ++
      '|' :: (m.eventId.text.toList ++ '|' :: (m.delimiter.chars ++ '|' :: rest))))) := by
    rw [LeefMessage.header, List.append_assoc]
    simp
  rw [hdrop]
  simp only [splitOn_singleton]
  rw [List.splitOn_append_cons_self_of_not_mem (by decide),
    List.splitOn_append_cons_self_of_not_mem m.vendor.no_pipe,
    List.splitOn_append_cons_self_of_not_mem m.product.no_pipe,
    List.splitOn_append_cons_self_of_not_mem m.version.no_pipe,
    List.splitOn_append_cons_self_of_not_mem m.eventId.no_pipe,
    List.splitOn_append_cons_self_of_not_mem (pipe_not_mem_chars m.delimiter)]
  rfl

theorem intercalate_splitOn_pipe (s : List Char) :
    "|".intercalate ((splitOn ['|'] s).map String.ofList) = String.ofList s := by
  apply String.toList_injective
  rw [String.toList_intercalate, List.map_map, splitOn_singleton]
  have hid : String.toList ∘ String.ofList = id := by
    funext s
    exact String.toList_ofList
  rw [hid, List.map_id]
  exact (List.intercalate_splitOn '|').trans String.toList_ofList.symm

theorem leefExtension_write (rest : List Char) : leefExtension "2.0"
    (String.ofList m.delimiter.chars :: (splitOn ['|'] rest).map String.ofList) =
      (separators m.delimiter, String.ofList rest) := by
  rw [leefExtension, if_pos (by decide), List.tail_cons, intercalate_splitOn_pipe]
  rfl

theorem separators_ne_empty (delimiter : LeefDelimiter) : separators delimiter ≠ "" := by
  rw [separators]
  split
  · decide
  · split
    · decide
    · rename_i hne
      exact fun hempty => hne (Or.inr hempty)

theorem parseLEEF_write (m : LeefMessage) : parseLEEF m.write =
    .ok ((writtenHeader m).update (Dict.ofList (pairsOf (separators m.delimiter).toList '='
      (m.extension.rdropWhile Unicode.isSpace))).entries) := by
  generalize hrest : m.extension.rdropWhile Unicode.isSpace = rest
  have hpre : "LEEF:".toList.isPrefixOf (m.header ++ rest) = true := by
    rw [LeefMessage.header, List.append_assoc, List.isPrefixOf_iff_prefix]
    exact List.prefix_append _ _
  rw [parseLEEF, trim_header, hrest, hpre, splitOn_header, List.map_append]
  simp only [List.map_cons, List.map_nil, List.cons_append, List.nil_append, Bool.not_true,
    Bool.false_eq_true, ↓reduceIte, String.ofList_toList, leefExtension_write]
  rw [parseKeyValue_eq (separators_ne_empty _) (by decide)]
  split
  · rename_i hempty
    obtain rfl : rest = [] := by simpa using congrArg String.toList hempty
    rfl
  · rfl

theorem get?_parseLEEF {fields : RawFields} (h : parseLEEF m.write = .ok fields) (k : String) :
    fields.get? k = ((Dict.ofList (pairsOf (separators m.delimiter).toList '='
      (m.extension.rdropWhile Unicode.isSpace))).get? k).or ((writtenHeader m).get? k) := by
  rw [parseLEEF_write] at h
  cases h
  exact Dict.get?_update_of_nodup _ (Dict.nodup _) k

theorem nodup_attributes (m : LeefMessage) : m.attributes.Nodup := m.distinct.of_map Prod.fst

theorem rdropWhile_extension_of_plain {pairSep : List Char}
    (hpairs : ∀ entry ∈ m.attributes, PlainPair pairSep '=' entry) :
    m.extension.rdropWhile Unicode.isSpace = m.extension := by
  obtain hnil | ⟨front, last, hlast⟩ := List.eq_nil_or_concat' m.attributes
  · rw [LeefMessage.extension, hnil]
    rfl
  · have hplain := hpairs last (by simp [hlast])
    rw [LeefMessage.extension, hlast, rdropWhile_leefAttributes (by decide),
      rdropWhile_eq_self_of_trim hplain.trimmedValue, String.ofList_toList]

theorem returnsAttributes_of_separates
    (h : Separates (separators m.delimiter).toList m.delimiter.char m.attributes) :
    ReturnsAttributes m := by
  have hpairs : pairsOf (separators m.delimiter).toList '='
      (m.extension.rdropWhile Unicode.isSpace) = m.attributes.map strPair := by
    rw [rdropWhile_extension_of_plain h.pairs, LeefMessage.extension]
    obtain hnil | hne := eq_or_ne m.attributes []
    · rw [hnil]
      rfl
    · exact (plainly_leefAttributes hne h).pairsOf_eq
  refine ⟨_, parseLEEF_write m, fun k => ?_⟩
  have hkeys : ((m.attributes.map strPair).map Prod.fst).Nodup := by
    rw [List.map_map]
    exact m.distinct
  rw [get?_parseLEEF (parseLEEF_write m), hpairs]
  congr 1
  show lookup k (Dict.ofList (m.attributes.map strPair)).entries = _
  rw [Dict.entries_ofList_of_nodup hkeys]
  exact lookup_map_snd Json.str k m.attributes

theorem char_mem_separators (h : '=' ∈ (separators m.delimiter).toList) :
    m.delimiter.char ∈ (separators m.delimiter).toList := by
  have hdigit (digit : HexDigit) : '=' ≠ digit.char := (digit.char_ne (by decide)).symm
  have hchars : separators m.delimiter = String.ofList m.delimiter.chars := by
    rw [separators] at h ⊢
    split at h
    · exact absurd h (by decide)
    · split at h
      · exact absurd h (by decide)
      · rename_i hblank htab
        rw [if_neg hblank, if_neg htab]
  rw [hchars, String.toList_ofList] at h ⊢
  cases hd : m.delimiter with
  | literal c hc => simp [LeefDelimiter.chars, LeefDelimiter.char]
  | code zero high low =>
      rw [hd] at h
      cases zero
      · simp [LeefDelimiter.chars, hdigit] at h
      · simp [LeefDelimiter.chars, hdigit] at h

theorem get?_writtenHeader {k : String} (hk : k ∉ LeefMessage.headerKeys) :
    (writtenHeader m).get? k = none := by
  rw [writtenHeader, Dict.get?_ofList, lookup_eq_none_iff, List.map_reverse, List.mem_reverse]
  exact hk

theorem separates_of_returnsAttributes
    (hkeys : ∀ k ∈ LeefMessage.headerKeys, k ∉ m.attributes.map Prod.fst)
    (h : ReturnsAttributes m) :
    Separates (separators m.delimiter).toList m.delimiter.char m.attributes := by
  obtain hnil | hne := eq_or_ne m.attributes []
  · rw [hnil]
    exact ⟨by simp, by simp, by simp⟩
  obtain ⟨fields, hfields, hvalues⟩ := h
  have hfound (entry : String × String) (hentry : entry ∈ m.attributes) :
      strPair entry ∈ pairsOf (separators m.delimiter).toList '='
        (m.extension.rdropWhile Unicode.isSpace) := by
    have hvalue := hvalues entry.1
    have hlookup : m.value? entry.1 = some entry.2 :=
      (lookup_eq_some_iff m.distinct).mpr hentry
    have hheader : (writtenHeader m).get? entry.1 = none :=
      get?_writtenHeader fun hk => hkeys _ hk (List.mem_map_of_mem hentry)
    rw [get?_parseLEEF hfields, hlookup, hheader, Option.or_none, Option.or_none] at hvalue
    exact Dict.mem_of_mem_ofList (Dict.get?_eq_some_iff.mp hvalue)
  obtain ⟨-, entries, hsub, hplainly⟩ :=
    plainly_of_subset (nodup_attributes m) hne (List.rdropWhile_prefix ..) hfound
  have hpairs (entry : String × String) (hentry : entry ∈ m.attributes) :=
    hplainly.plain entry (hsub hentry)
  have hdelimiter : 2 ≤ m.attributes.length →
      m.delimiter.char ∈ (separators m.delimiter).toList := by
    intro hmany
    by_contra hd
    have hone := hplainly.length_eq_one hpairs (fun hequals => hd (char_mem_separators hequals)) hd
    have hle := (List.subperm_of_subset (nodup_attributes m) hsub).length_le
    omega
  refine ⟨hpairs, hdelimiter, fun hquote entry hentry => ?_⟩
  have hlength := List.length_pos_of_mem hentry
  rw [List.length_dropLast] at hlength
  exact hplainly.values_ne_nil hpairs (hdelimiter (by omega)) hquote entry hentry

end Messages

end Ulpf.ParserRuntime
