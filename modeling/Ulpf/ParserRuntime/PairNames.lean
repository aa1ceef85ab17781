import Ulpf.ParserRuntime.BodyParsers

/-!
Which keys a text of pairs spells, read off the text: how its separators cut it into
keys and values. `ParseKeyValue` assigns these keys and no others.
-/

namespace Ulpf.ParserRuntime

open Ulpf.Lib
open Ulpf.Lib.Text
open Ulpf.Go

section Grammar

/-- What may stand before a key. -/
def isGap (pairSep : List Char) (c : Char) : Bool := pairSep.contains c || c = ' ' || c = '\t'

/-- A quoted text up to its closing quote, or else to the end, and what follows. -/
inductive Quoted (quote : Char) : List Char → List Char → Prop where
  | closed {after : List Char} : Quoted quote (quote :: after) after
  | unclosed : Quoted quote [] []
  | escape {c : Char} {rest after : List Char} :
      Quoted quote rest after → Quoted quote ('\\' :: c :: rest) after
  | plain {c : Char} {rest after : List Char} :
      c ≠ quote → (c = '\\' → rest = []) → Quoted quote rest after → Quoted quote (c :: rest) after

variable (pairSep : List Char) (kvSep : Char)

/-- A value, and what follows it. -/
inductive ValueEnds : List Char → List Char → Prop where
  | quoted {quote : Char} {body after : List Char} :
      quote = '"' ∨ quote = '\'' → Quoted quote body after → ValueEnds (quote :: body) after
  | bare {value after : List Char} :
      (∀ c ∈ (value ++ after).head?, c ≠ '"' ∧ c ≠ '\'') → (∀ c ∈ value, c ∉ pairSep) →
        (∀ c ∈ after.head?, c ∈ pairSep) → ValueEnds (value ++ after) after

/-- A text that begins with a key, and what follows its separator. -/
inductive KeyAt : List Char → List Char → List Char → Prop where
  | mk {gap key rest : List Char} :
      (∀ c ∈ gap, isGap pairSep c = true) →
        (∀ c ∈ (key ++ [kvSep]).head?, isGap pairSep c = false) →
        (∀ c ∈ key, c ≠ kvSep ∧ c ∉ pairSep) → KeyAt (gap ++ (key ++ kvSep :: rest)) key rest

/-- A text of pairs spells a key. -/
inductive Names : List Char → String → Prop where
  | first {s key rest : List Char} :
      KeyAt pairSep kvSep s key rest → trim Unicode.isSpace key ≠ [] →
        Names s (String.ofList (trim Unicode.isSpace key))
  | later {s key rest after : List Char} {k : String} :
      KeyAt pairSep kvSep s key rest → ValueEnds pairSep rest after → Names after k → Names s k

end Grammar

section Scanners

variable {pairSep : List Char} {kvSep : Char} {s rest after : List Char}

theorem scanQuoted_closed {quote : Char} (hquote : quote ≠ '\\') (after : List Char) :
    (scanQuoted quote (quote :: after)).2 = after := by
  rw [scanQuoted.eq_def]
  split
  · cases ‹_›
  · cases ‹_›
    exact absurd rfl hquote
  · cases ‹_›
    rw [if_pos rfl]

theorem scanQuoted_plain {quote c : Char} (hc : c ≠ quote) (hlast : c = '\\' → rest = []) :
    (scanQuoted quote (c :: rest)).2 = (scanQuoted quote rest).2 := by
  rw [scanQuoted.eq_def]
  split
  · cases ‹_›
  · cases ‹_›
    cases hlast rfl
  · cases ‹_›
    rw [if_neg hc]

theorem quoted_scanQuoted (quote : Char) (s : List Char) :
    Quoted quote s (scanQuoted quote s).2 := by
  induction s using scanQuoted.induct quote with
  | case1 => exact .unclosed
  | case2 c rest text after _ ih => exact .escape ih
  | case3 rest hescape =>
      rw [scanQuoted.eq_def]
      split
      · cases ‹_›
      · cases ‹_›
        exact absurd rfl fun h => hescape _ _ h rfl
      · cases ‹_›
        rw [if_pos rfl]
        exact .closed
  | case4 c rest hescape hc text after _ ih =>
      have hlast : c = '\\' → rest = [] := by
        intro hc
        cases rest with
        | nil => rfl
        | cons d rest => exact (hescape d rest hc rfl).elim
      rw [scanQuoted_plain hc hlast]
      exact .plain hc hlast ih

theorem quoted_iff {quote : Char} (hquote : quote ≠ '\\') :
    Quoted quote s after ↔ (scanQuoted quote s).2 = after := by
  constructor
  · intro h
    induction h with
    | closed => exact scanQuoted_closed hquote _
    | unclosed => rfl
    | escape _ ih => exact ih
    | plain hc hlast _ ih => exact (scanQuoted_plain hc hlast).trans ih
  · rintro rfl
    exact quoted_scanQuoted quote s

theorem scanValue_quoted {quote : Char} (hquote : quote = '"' ∨ quote = '\'')
    (body : List Char) : scanValue pairSep (quote :: body) = scanQuoted quote body := by
  rcases hquote with rfl | rfl <;> rfl

theorem scanValue_bare (h : ∀ c ∈ s.head?, c ≠ '"' ∧ c ≠ '\'') :
    (scanValue pairSep s).2 = s.dropWhile fun c => !pairSep.contains c := by
  rw [scanValue.eq_def]
  split
  · exact absurd rfl (h '"' rfl).1
  · exact absurd rfl (h '\'' rfl).2
  · rw [List.span_eq_takeWhile_dropWhile]

theorem exists_value (pairSep rest : List Char) : ∃ value after, rest = value ++ after ∧
    (∀ c ∈ value, c ∉ pairSep) ∧ ∀ c ∈ after.head?, c ∈ pairSep := by
  refine ⟨rest.takeWhile fun c => !pairSep.contains c, rest.dropWhile fun c => !pairSep.contains c,
    List.takeWhile_append_dropWhile.symm, ?_, ?_⟩
  · intro c hc
    simpa using List.mem_takeWhile_imp hc
  · intro c hc
    simpa using of_mem_head?_dropWhile c hc

theorem ValueEnds.scanValue_eq (h : ValueEnds pairSep rest after) :
    (scanValue pairSep rest).2 = after := by
  cases h with
  | @quoted quote body _ hquote hbody =>
      rw [scanValue_quoted hquote]
      refine (quoted_iff ?_).mp hbody
      rcases hquote with rfl | rfl <;> decide
  | @bare value _ hbare hvalue hafter =>
      rw [scanValue_bare hbare, List.dropWhile_append_of_pos]
      · cases after with
        | nil => rfl
        | cons c after => simp [hafter c rfl]
      · simpa using hvalue

theorem valueEnds_iff : ValueEnds pairSep rest after ↔ (scanValue pairSep rest).2 = after := by
  refine ⟨ValueEnds.scanValue_eq, ?_⟩
  rintro rfl
  by_cases hbare : ∀ c ∈ rest.head?, c ≠ '"' ∧ c ≠ '\''
  · obtain ⟨value, after, rfl, hvalue, hafter⟩ := exists_value pairSep rest
    have hends : ValueEnds pairSep (value ++ after) after := .bare hbare hvalue hafter
    rwa [hends.scanValue_eq]
  · cases rest with
    | nil => simp at hbare
    | cons quote body =>
        have hquote : quote = '"' ∨ quote = '\'' := by
          simpa [or_iff_not_imp_left] using hbare
        rw [scanValue_quoted hquote]
        exact .quoted hquote (quoted_scanQuoted quote body)

/-- Characters of a key. -/
def inKey (pairSep : List Char) (kvSep c : Char) : Bool := c ≠ kvSep && !pairSep.contains c

theorem keyAt_iff {key : List Char} :
    KeyAt pairSep kvSep s key rest ↔
      (s.dropWhile (isGap pairSep)).span (inKey pairSep kvSep) = (key, kvSep :: rest) := by
  rw [List.span_eq_takeWhile_dropWhile]
  constructor
  · intro h
    cases h with
    | @mk gap key rest hgap hhead hkey =>
        have hdrop : (gap ++ (key ++ kvSep :: rest)).dropWhile (isGap pairSep) =
            key ++ kvSep :: rest := by
          rw [List.dropWhile_append_of_pos hgap]
          cases key with
          | nil =>
              rw [List.nil_append, List.dropWhile_cons_of_neg]
              simp [hhead kvSep rfl]
          | cons c key =>
              rw [List.cons_append, List.dropWhile_cons_of_neg]
              simp [hhead c rfl]
        have hin : ∀ c ∈ key, inKey pairSep kvSep c = true := by
          intro c hc
          simpa [inKey] using hkey c hc
        have hstop : ¬ inKey pairSep kvSep kvSep = true := by
          simp [inKey]
        rw [hdrop, List.takeWhile_append_of_pos hin, List.dropWhile_append_of_pos hin,
          List.takeWhile_cons_of_neg hstop, List.dropWhile_cons_of_neg hstop, List.append_nil]
  · intro h
    obtain ⟨hkey, hrest⟩ := Prod.mk.inj h
    have htext : s = s.takeWhile (isGap pairSep) ++ (key ++ kvSep :: rest) := by
      rw [← hkey, ← hrest, List.takeWhile_append_dropWhile, List.takeWhile_append_dropWhile]
    rw [htext]
    refine .mk (fun c hc => List.mem_takeWhile_imp hc) ?_ ?_
    · intro c hc
      apply of_mem_head?_dropWhile (s := s) c
      rw [← List.takeWhile_append_dropWhile (p := inKey pairSep kvSep)
        (l := s.dropWhile (isGap pairSep)), hkey, hrest]
      cases key <;> exact hc
    · intro c hc
      rw [← hkey] at hc
      simpa [inKey] using List.mem_takeWhile_imp hc

theorem keyAt_shorter {key : List Char} (h : KeyAt pairSep kvSep s key rest) :
    rest.length < s.length := by
  cases h
  simp only [List.length_append, List.length_cons]
  omega

theorem quoted_length_le {quote : Char} (h : Quoted quote s after) : after.length ≤ s.length := by
  induction h with
  | closed => exact Nat.le_succ _
  | unclosed => exact le_rfl
  | escape _ ih => exact ih.trans (by simp only [List.length_cons]; omega)
  | plain _ _ _ ih => exact ih.trans (Nat.le_succ _)

theorem valueEnds_length_le (h : ValueEnds pairSep rest after) : after.length ≤ rest.length := by
  cases h with
  | quoted _ hbody => exact (quoted_length_le hbody).trans (Nat.le_succ _)
  | bare => simp

end Scanners

section Pairs

variable {pairSep : List Char} {kvSep : Char} {s : List Char}

theorem scanPairs_eq_nil {fuel : ℕ} (h : ∀ key rest, ¬ KeyAt pairSep kvSep s key rest) :
    scanPairs pairSep kvSep (fuel + 1) s = [] := by
  rw [scanPairs]
  dsimp only
  split
  · rfl
  · rename_i key c rest hspan
    split
    · rfl
    · rename_i hc
      obtain rfl : c = kvSep := by simpa using hc
      exact absurd (keyAt_iff.mpr hspan) (h key rest)

/-- The pair of a key and its value, when the key is not blank. -/
def pair (key value : List Char) : List (String × Value) :=
  if trim Unicode.isSpace key = [] then []
  else [(String.ofList (trim Unicode.isSpace key), .str (String.ofList value))]

theorem map_fst_pair (key value : List Char) :
    (pair key value).map Prod.fst =
      if trim Unicode.isSpace key = [] then [] else [String.ofList (trim Unicode.isSpace key)] := by
  rw [pair]
  split <;> rfl

theorem scanPairs_keyAt {fuel : ℕ} {key rest : List Char} (h : KeyAt pairSep kvSep s key rest) :
    scanPairs pairSep kvSep (fuel + 1) s =
      pair key (scanValue pairSep rest).1 ++
        scanPairs pairSep kvSep fuel (scanValue pairSep rest).2 := by
  have hspan : (s.dropWhile fun c => pairSep.contains c || c = ' ' || c = '\t').span
      (fun c => c ≠ kvSep && !pairSep.contains c) = (key, kvSep :: rest) := keyAt_iff.mp h
  rw [scanPairs]
  dsimp only
  rw [hspan]
  dsimp only
  rw [if_neg (by simp), pair]
  split <;> rename_i hkey <;> simp at hkey <;> simp [hkey]

theorem names_iff {k : String} {fuel : ℕ} (hfuel : s.length < fuel) :
    Names pairSep kvSep s k ↔ k ∈ (scanPairs pairSep kvSep fuel s).map Prod.fst := by
  induction fuel generalizing s with
  | zero => exact absurd hfuel (Nat.not_lt_zero _)
  | succ fuel ih =>
      by_cases hkeyAt : ∃ key rest, KeyAt pairSep kvSep s key rest
      · obtain ⟨key, rest, hkey⟩ := hkeyAt
        have hends : ValueEnds pairSep rest (scanValue pairSep rest).2 := valueEnds_iff.mpr rfl
        have hshorter := keyAt_shorter hkey
        have hlength := valueEnds_length_le hends
        rw [scanPairs_keyAt hkey, List.map_append, map_fst_pair, List.mem_append, ← ih (by omega)]
        constructor
        · intro h
          cases h with
          | first hkey' hne =>
              obtain ⟨rfl, -⟩ := Prod.mk.inj ((keyAt_iff.mp hkey).symm.trans (keyAt_iff.mp hkey'))
              rw [if_neg hne]
              exact .inl (List.mem_singleton.mpr rfl)
          | later hkey' hends' hnames =>
              obtain ⟨-, hrest⟩ := Prod.mk.inj ((keyAt_iff.mp hkey).symm.trans (keyAt_iff.mp hkey'))
              obtain rfl := (List.cons.inj hrest).2
              rw [valueEnds_iff.mp hends']
              exact .inr hnames
        · rintro (hfirst | hlater)
          · split at hfirst <;> rename_i hne
            · cases hfirst
            · obtain rfl := List.mem_singleton.mp hfirst
              exact .first hkey hne
          · exact .later hkey hends hlater
      · have hnone : ∀ key rest, ¬ KeyAt pairSep kvSep s key rest :=
          fun key rest hkey => hkeyAt ⟨key, rest, hkey⟩
        rw [scanPairs_eq_nil hnone]
        constructor
        · intro h
          cases h with
          | first hkey _ => exact absurd hkey (hnone _ _)
          | later hkey _ _ => exact absurd hkey (hnone _ _)
        · intro h
          cases h

/-- The keys that a text spells under the separators of a spec. -/
def NamesPair (input pairSep kvSep k : String) : Prop :=
  Names (if pairSep = "" then " " else pairSep).toList
    (Char.ofNat (leadByte ((if kvSep = "" then "=" else kvSep).toList.headD '='))) input.toList k

theorem mem_keys_parseKeyValue {input pairSep kvSep k : String} :
    k ∈ (parseKeyValue input pairSep kvSep).keys ↔ NamesPair input pairSep kvSep k := by
  rw [parseKeyValue, Dict.ofList, Dict.mem_keys_update, NamesPair,
    names_iff (Nat.lt_succ_self _)]
  simp [Dict.empty, Dict.keys]

end Pairs

end Ulpf.ParserRuntime
