import Ulpf.ParserRuntime.PairNames

/-!
Texts of pairs written token by token, and what `ParseKeyValue` hears of them: every pair
up to the first text that is neither a pair nor skipped in front of one.
-/

namespace Ulpf.ParserRuntime

open Ulpf.Lib
open Ulpf.Lib.Text
open Ulpf.Go

section Tokens

/-- A token of a text of pairs: a bare word, or a key with a value, and what stands
between the quote that closes a value and the next separator. -/
inductive PairToken where
  | word (text : List Char)
  | bare (key value : List Char)
  | quoted (key : List Char) (quote : Char) (text after : List Char)

/-- A text between quotes: a quote in it, and a backslash, follow a backslash. -/
inductive QuotedText (quote : Char) : List Char → Prop where
  | nil : QuotedText quote []
  | escape {c : Char} {text : List Char} :
      QuotedText quote text → QuotedText quote ('\\' :: c :: text)
  | plain {c : Char} {text : List Char} :
      c ≠ quote → c ≠ '\\' → QuotedText quote text → QuotedText quote (c :: text)

def isBlank (c : Char) : Bool := c = ' ' || c = '\t'

def isQuote (c : Char) : Bool := c = '"' || c = '\''

namespace PairToken

/-- A token as it stands in the text. -/
def chars (kvSep : List Char) : PairToken → List Char
  | word text => text
  | bare key value => key ++ (kvSep ++ value)
  | quoted key quote text after => key ++ (kvSep ++ quote :: (text ++ quote :: after))

/-- The parts outside of quotes before a separator of keys. -/
def heads : PairToken → List (List Char)
  | word text => [text]
  | bare key _ => [key]
  | quoted key _ _ after => [key, after]

/-- The parts outside of quotes. -/
def parts : PairToken → List (List Char)
  | bare key value => [key, value]
  | t => t.heads

/-- A token that may stand in a text with these separators. -/
structure WellFormed (pairSep kvSep : List Char) (t : PairToken) : Prop where
  undivided : ∀ part ∈ t.parts, ¬ pairSep <:+: part
  unnamed : ∀ part ∈ t.heads, ¬ kvSep <:+: part
  unquoted : ∀ key value, t = bare key value → ∀ c ∈ value.head?, isQuote c = false
  closed : ∀ key quote text after, t = quoted key quote text after →
    isQuote quote = true ∧ QuotedText quote text

/-- The pair that a token is written for. -/
def meant : PairToken → List (String × Value)
  | word _ => []
  | bare key value => pair key (trim Unicode.isSpace value)
  | quoted key _ text _ => pair key text

/-- Text that belongs to no pair. -/
def stray : PairToken → List Char
  | word text => text
  | bare _ _ => []
  | quoted _ _ _ after => after

variable (pairSep kvSep : List Char)

/-- A token hides those behind it, unless its stray text is skipped in front of them. -/
def hides (t : PairToken) : Bool := !t.stray.all (isGap pairSep)

end PairToken

open PairToken

variable (pairSep kvSep : List Char)

/-- The pairs that are heard: those up to the first token that hides the others. -/
def heard : List PairToken → List (String × Value)
  | [] => []
  | t :: tokens => t.meant ++ if t.hides pairSep then [] else heard tokens

/-- The tokens, each after a pair separator. -/
def remainder (tokens : List PairToken) : List Char :=
  tokens.flatMap fun t => pairSep ++ t.chars kvSep

/-- The tokens, joined by the pair separator. -/
def tokensText (tokens : List PairToken) : List Char :=
  pairSep.intercalate (tokens.map (PairToken.chars kvSep))

theorem remainder_cons (t : PairToken) (tokens : List PairToken) :
    remainder pairSep kvSep (t :: tokens) =
      pairSep ++ (t.chars kvSep ++ remainder pairSep kvSep tokens) := by
  simp [remainder]

theorem tokensText_cons (t : PairToken) (tokens : List PairToken) :
    tokensText pairSep kvSep (t :: tokens) =
      t.chars kvSep ++ remainder pairSep kvSep tokens := by
  induction tokens generalizing t with
  | nil => simp [tokensText, remainder, List.intercalate]
  | cons t' tokens ih =>
      have htail := ih t'
      rw [tokensText, List.map_cons, List.map_cons, List.intercalate_cons_cons, ← List.map_cons,
        ← tokensText, htail, remainder_cons, List.append_assoc]

/-- A separator of pairs that reads as the beginning of a quoted value. -/
def OpensQuote : Prop :=
  ∃ quote ∈ pairSep.head?, isQuote quote = true ∧ pairSep.tail.head? ≠ some quote

/-- The character that the separator of keys is taken for. -/
def sepRune : Char := Char.ofNat (leadByte (kvSep.headD '='))

/-- The character that the reading of a key stops at, if any. -/
def keyStop (s : List Char) : Option Char :=
  ((s.dropWhile (isGap pairSep)).dropWhile (inKey pairSep (sepRune kvSep))).head?

/-- A key is read as it is written: only white space of it is skipped, what is left of it holds
neither the separator of keys nor a character of a separator of pairs, and the separator of keys
is not skipped with it. -/
structure KeyAsWritten (pairSep : List Char) (kvSep : Char) (key : List Char) : Prop where
  skipped : ∀ c ∈ key.takeWhile (isGap pairSep), Unicode.isSpace c = true
  undivided : ∀ c ∈ key.dropWhile (isGap pairSep), c ∉ pairSep ∧ c ≠ kvSep
  shown : isGap pairSep kvSep = true → key.dropWhile (isGap pairSep) ≠ []

/-- A value without quotes is read as it is written: the separator of keys is white space
behind its first character, the value is cut in front of white space only, and where it is
empty no separator of pairs opens a quote behind it. -/
structure ValueAsWritten (next value : List Char) : Prop where
  spaced : ∀ c ∈ kvSep.tail, Unicode.isSpace c = true
  undivided : ∀ c ∈ value.dropWhile (fun c => !pairSep.contains c),
    isGap pairSep c = true ∧ Unicode.isSpace c = true
  opened : value = [] → kvSep.tail = [] → next ≠ [] → ¬OpensQuote pairSep

/-- A token is read as it is written, before the next separator or the end of the text. Pairs
take a separator of keys that begins with the character it is taken for. -/
inductive PairToken.AsWritten (next : List Char) : PairToken → Prop where
  /-- All of it is skipped, and it says nothing. -/
  | skipped {t : PairToken} :
      (∀ c ∈ t.chars kvSep, isGap pairSep c = true) → t.meant = [] → AsWritten next t
  | word {text : List Char} :
      keyStop pairSep kvSep (text ++ next) ≠ some (sepRune kvSep) → AsWritten next (word text)
  | bare {key value : List Char} :
      kvSep.head? = some (sepRune kvSep) → KeyAsWritten pairSep (sepRune kvSep) key →
      ValueAsWritten pairSep kvSep next value → AsWritten next (bare key value)
  | quoted {key text after : List Char} {quote : Char} :
      kvSep = [sepRune kvSep] → KeyAsWritten pairSep (sepRune kvSep) key →
      keyStop pairSep kvSep (after ++ next) ≠ some (sepRune kvSep) →
      AsWritten next (quoted key quote text after)

/-- The tokens are read as they are written, up to the first one that hides the others. -/
def ReadAsWritten : List PairToken → Prop
  | [] => True
  | t :: tokens =>
      t.AsWritten pairSep kvSep (if tokens.isEmpty then [] else pairSep) ∧
        (t.hides pairSep = false → ReadAsWritten tokens)

end Tokens

section Scanning

variable {pairSep : List Char} {kvSep : Char} {key s rest : List Char}

/-- The pairs of a text. -/
def pairsOf (pairSep : List Char) (kvSep : Char) (s : List Char) : List (String × Value) :=
  scanPairs pairSep kvSep (s.length + 1) s

theorem scanPairs_eq_pairsOf {fuel : ℕ} (hfuel : s.length < fuel) :
    scanPairs pairSep kvSep fuel s = pairsOf pairSep kvSep s := by
  induction fuel using Nat.strong_induction_on generalizing s with
  | _ fuel ih =>
      obtain ⟨fuel, rfl⟩ := Nat.exists_eq_add_one_of_ne_zero (Nat.ne_zero_of_lt hfuel)
      by_cases hkeyAt : ∃ key rest, KeyAt pairSep kvSep s key rest
      · obtain ⟨key, rest, hkey⟩ := hkeyAt
        have hends : ValueEnds pairSep rest (scanValue pairSep rest).2 := valueEnds_iff.mpr rfl
        have hlength := valueEnds_length_le hends
        have hshorter := keyAt_shorter hkey
        rw [pairsOf, scanPairs_keyAt hkey, scanPairs_keyAt hkey,
          ih fuel (Nat.lt_succ_self _) (by omega)]
        rcases eq_or_ne s.length fuel with rfl | hne
        · rw [ih s.length (Nat.lt_succ_self _) (by omega)]
        · rw [ih s.length (by omega) (by omega)]
      · have hnone : ∀ key rest, ¬ KeyAt pairSep kvSep s key rest :=
          fun key rest hkey => hkeyAt ⟨key, rest, hkey⟩
        rw [pairsOf, scanPairs_eq_nil hnone, scanPairs_eq_nil hnone]

theorem pairsOf_eq_nil (h : ∀ key rest, ¬ KeyAt pairSep kvSep s key rest) :
    pairsOf pairSep kvSep s = [] := scanPairs_eq_nil h

theorem pairsOf_keyAt (h : KeyAt pairSep kvSep s key rest) :
    pairsOf pairSep kvSep s = pair key (scanValue pairSep rest).1 ++
      pairsOf pairSep kvSep (scanValue pairSep rest).2 := by
  have hends : ValueEnds pairSep rest (scanValue pairSep rest).2 := valueEnds_iff.mpr rfl
  have hlength := valueEnds_length_le hends
  have hshorter := keyAt_shorter h
  rw [pairsOf, scanPairs_keyAt h, scanPairs_eq_pairsOf (by omega)]

theorem scanPairs_gap {fuel : ℕ} {gap : List Char} (hgap : ∀ c ∈ gap, isGap pairSep c = true) :
    scanPairs pairSep kvSep fuel (gap ++ s) = scanPairs pairSep kvSep fuel s := by
  have hdrop : ((gap ++ s).dropWhile fun c => pairSep.contains c || c = ' ' || c = '\t') =
      s.dropWhile fun c => pairSep.contains c || c = ' ' || c = '\t' :=
    List.dropWhile_append_of_pos hgap
  cases fuel with
  | zero => rfl
  | succ fuel => simp only [scanPairs, hdrop]

theorem pairsOf_gap {gap : List Char} (hgap : ∀ c ∈ gap, isGap pairSep c = true) :
    pairsOf pairSep kvSep (gap ++ s) = pairsOf pairSep kvSep s := by
  rw [pairsOf, scanPairs_gap hgap, scanPairs_eq_pairsOf]
  simp only [List.length_append]
  omega

theorem isGap_of_isBlank {c : Char} (hc : isBlank c = true) : isGap pairSep c = true := by
  simp only [isBlank, Bool.or_eq_true, decide_eq_true_eq] at hc
  rcases hc with rfl | rfl <;> simp [isGap]

theorem isGap_of_mem {c : Char} (hc : c ∈ pairSep) : isGap pairSep c = true := by
  simp [isGap, hc]

theorem isGap_iff_of_not_mem {c : Char} (hc : c ∉ pairSep) : isGap pairSep c = isBlank c := by
  simp [isGap, isBlank, hc]

/-- What follows a token: a separator of pairs, or nothing. -/
inductive Follows (pairSep : List Char) : List Char → List Char → Prop where
  | stop : Follows pairSep [] []
  | separator (s : List Char) : Follows pairSep pairSep (pairSep ++ s)

theorem Follows.head? {next : List Char} (hne : pairSep ≠ []) (h : Follows pairSep next rest) :
    ∀ c ∈ rest.head?, c ∈ pairSep := by
  cases h with
  | stop => simp
  | separator s =>
      obtain ⟨d, tail, rfl⟩ := List.exists_cons_of_ne_nil hne
      simp

theorem head?_dropWhile_append {p : Char → Bool} {text : List Char} (hrest : rest.head? = s.head?)
    (hstop : ∀ c ∈ rest.head?, p c = false) :
    ((text ++ rest).dropWhile p).head? = ((text ++ s).dropWhile p).head? := by
  rw [List.dropWhile_append, List.dropWhile_append]
  split
  · cases rest with
    | nil => cases s <;> simp_all
    | cons c rest =>
        cases s with
        | nil => cases hrest
        | cons d s =>
            obtain rfl : c = d := by simpa using hrest
            rw [List.dropWhile_cons_of_neg (by simp [hstop c rfl]),
              List.dropWhile_cons_of_neg (by simp [hstop c rfl])]
            rfl
  · rename_i hleft
    obtain ⟨c, left, hleft⟩ := List.exists_cons_of_ne_nil (mt List.isEmpty_iff.mpr hleft)
    rw [hleft]
    rfl

/-- A text that is not skipped before what follows gives no pair unless a separator of keys
shows in it, and nothing is heard behind it. -/
theorem pairsOf_stray {kvSep text next : List Char} (hne : pairSep ≠ [])
    (hrest : Follows pairSep next rest)
    (hstop : keyStop pairSep kvSep (text ++ next) ≠ some (sepRune kvSep)) :
    pairsOf pairSep (sepRune kvSep) (text ++ rest) =
      if text.all (isGap pairSep) then pairsOf pairSep (sepRune kvSep) rest else [] := by
  split <;> rename_i hgap
  · exact pairsOf_gap (List.all_eq_true.mp hgap)
  · apply pairsOf_eq_nil
    intro key after hkey
    rw [keyAt_iff, List.span_eq_takeWhile_dropWhile] at hkey
    obtain ⟨-, hafter⟩ := Prod.mk.inj hkey
    have hleft : ¬(text.dropWhile (isGap pairSep)).isEmpty = true := by
      rw [List.isEmpty_iff, List.dropWhile_eq_nil_iff]
      exact fun hall => hgap (List.all_eq_true.mpr hall)
    apply hstop
    have hhead : rest.head? = next.head? := by
      cases hrest with
      | stop => rfl
      | separator s =>
          obtain ⟨d, tail, rfl⟩ := List.exists_cons_of_ne_nil hne
          rfl
    rw [List.dropWhile_append, if_neg hleft] at hafter
    rw [keyStop, List.dropWhile_append, if_neg hleft, ← head?_dropWhile_append hhead, hafter]
    · rfl
    · intro c hc
      simp [inKey, hrest.head? hne c hc]

theorem isSpace_of_isBlank {c : Char} (hc : isBlank c = true) : Unicode.isSpace c = true := by
  simp only [isBlank, Bool.or_eq_true, decide_eq_true_eq] at hc
  rcases hc with rfl | rfl <;> decide

theorem keyAt_key (hkey : KeyAsWritten pairSep kvSep key) :
    KeyAt pairSep kvSep (key ++ kvSep :: rest) (key.dropWhile (isGap pairSep)) rest := by
  have htext : key ++ kvSep :: rest = key.takeWhile (isGap pairSep) ++
      (key.dropWhile (isGap pairSep) ++ kvSep :: rest) := by
    rw [← List.append_assoc, List.takeWhile_append_dropWhile]
  rw [htext]
  refine .mk (fun c hc => List.mem_takeWhile_imp hc) ?_ fun c hc => (hkey.undivided c hc).symm
  intro c hc
  cases hdrop : key.dropWhile (isGap pairSep) with
  | nil =>
      rw [hdrop] at hc
      cases hc
      by_contra hgap
      exact hkey.shown (by simpa using hgap) hdrop
  | cons d tail =>
      apply of_mem_head?_dropWhile (s := key) c
      rw [hdrop] at hc ⊢
      exact hc

theorem pair_dropWhile {gap : Char → Bool}
    (hgap : ∀ c ∈ key.takeWhile gap, Unicode.isSpace c = true) (value : List Char) :
    pair (key.dropWhile gap) value = pair key value := by
  have htrim : trim Unicode.isSpace (key.dropWhile gap) = trim Unicode.isSpace key := by
    conv_rhs => rw [← List.takeWhile_append_dropWhile (p := gap) (l := key)]
    rw [trim, trim, List.dropWhile_append_of_pos hgap]
  rw [pair, htrim, ← pair]

theorem pairsOf_key (hkey : KeyAsWritten pairSep kvSep key) :
    pairsOf pairSep kvSep (key ++ kvSep :: rest) = pair key (scanValue pairSep rest).1 ++
      pairsOf pairSep kvSep (scanValue pairSep rest).2 := by
  rw [pairsOf_keyAt (keyAt_key hkey), pair_dropWhile hkey.skipped]

theorem scanQuoted_of_quotedText {quote : Char} {text after : List Char} (hquote : quote ≠ '\\')
    (h : QuotedText quote text) : scanQuoted quote (text ++ quote :: after) = (text, after) := by
  induction h with
  | nil =>
      rw [List.nil_append, scanQuoted.eq_def]
      split
      · cases ‹_›
      · cases ‹_›
        exact absurd rfl hquote
      · cases ‹_›
        rw [if_pos rfl]
  | escape _ ih =>
      rw [List.cons_append, List.cons_append, scanQuoted, ih]
  | plain hc hslash _ ih =>
      rw [List.cons_append, scanQuoted.eq_def]
      split
      · cases ‹_›
      · rename_i hescape
        exact absurd (List.cons.inj hescape).1 hslash
      · cases ‹_›
        rw [if_neg hc, ih]

end Scanning

section Hearing

open PairToken

variable {pairSep : List Char} {kvSep : Char} {rest : List Char} {t : PairToken}

theorem not_mem_of_not_infix {c : Char} {part : List Char} (h : ¬ [c] <:+: part) : c ∉ part := by
  intro hc
  obtain ⟨before, after, rfl⟩ := List.append_of_mem hc
  exact h ⟨before, after, by simp⟩

theorem scanValue_value {value : List Char} (hvalue : ∀ c ∈ value, c ∉ pairSep)
    (hrest : ∀ c ∈ rest.head?, c ∈ pairSep)
    (hquote : ∀ c ∈ (value ++ rest).head?, isQuote c = false) :
    scanValue pairSep (value ++ rest) = (trim Unicode.isSpace value, rest) := by
  have hin : ∀ c ∈ value, (!pairSep.contains c) = true := by
    intro c hc
    simpa using hvalue c hc
  have hspan : (value ++ rest).span (fun c => !pairSep.contains c) = (value, rest) := by
    rw [List.span_eq_takeWhile_dropWhile, List.takeWhile_append_of_pos hin,
      List.dropWhile_append_of_pos hin]
    cases rest with
    | nil => simp
    | cons c rest => simp [hrest c rfl]
  rw [scanValue.eq_def]
  split
  · rename_i htext
    rw [htext] at hquote
    exact absurd (hquote _ rfl) (by decide)
  · rename_i htext
    rw [htext] at hquote
    exact absurd (hquote _ rfl) (by decide)
  · rw [hspan]

theorem scanValue_empty {next : List Char} (hne : pairSep ≠ [])
    (hopens : next ≠ [] → ¬OpensQuote pairSep) (hrest : Follows pairSep next rest) :
    (scanValue pairSep rest).1 = [] ∧
      pairsOf pairSep kvSep (scanValue pairSep rest).2 = pairsOf pairSep kvSep rest := by
  by_cases hquote : ∀ c ∈ rest.head?, isQuote c = false
  · have hvalue : scanValue pairSep ([] ++ rest) = (trim Unicode.isSpace [], rest) :=
      scanValue_value (by simp) (hrest.head? hne) hquote
    rw [List.nil_append] at hvalue
    rw [hvalue]
    exact ⟨rfl, rfl⟩
  · cases hrest with
    | stop => simp at hquote
    | separator s =>
        obtain ⟨quote, tail, rfl⟩ := List.exists_cons_of_ne_nil hne
        have hopening : isQuote quote = true := by simpa using hquote
        have htwice : tail.head? = some quote := by
          by_contra hother
          exact hopens hne ⟨quote, rfl, hopening, hother⟩
        obtain ⟨gap, rfl⟩ := List.head?_eq_some_iff.mp htwice
        have hmark : quote = '"' ∨ quote = '\'' := by simpa [isQuote] using hopening
        have hclosed : scanValue (quote :: quote :: gap) (quote :: quote :: gap ++ s) =
            ([], gap ++ s) := by
          have hslash : quote ≠ '\\' := by rcases hmark with rfl | rfl <;> decide
          exact (scanValue_quoted hmark _).trans (scanQuoted_of_quotedText hslash .nil)
        rw [hclosed, pairsOf_gap, pairsOf_gap]
        · exact ⟨rfl, rfl⟩
        · exact fun c hc => isGap_of_mem hc
        · exact fun c hc => isGap_of_mem (List.mem_cons_of_mem _ (List.mem_cons_of_mem _ hc))

theorem isQuote_of_isSpace {c : Char} (hc : Unicode.isSpace c = true) : isQuote c = false := by
  by_contra hquote
  have hmark : c = '"' ∨ c = '\'' := by simpa [isQuote, or_iff_not_imp_left] using hquote
  rcases hmark with rfl | rfl <;> exact absurd hc (by decide)

theorem trim_append_left {p : Char → Bool} {s : List Char} (hs : ∀ c ∈ s, p c = true)
    (t : List Char) : trim p (s ++ t) = trim p t := by
  rw [trim, List.dropWhile_append_of_pos hs, ← trim]

theorem trim_append_right {p : Char → Bool} (s : List Char) {t : List Char}
    (ht : ∀ c ∈ t, p c = true) : trim p (s ++ t) = trim p s := by
  rw [trim_eq, trim_eq, List.rdropWhile, List.reverse_append,
    List.dropWhile_append_of_pos (by simpa using ht), ← List.rdropWhile]

theorem scanValue_asWritten {kvSep value next : List Char} {r : Char} (hne : pairSep ≠ [])
    (hdisjoint : ∀ c ∈ kvSep.tail, c ∉ pairSep)
    (hvalue : ValueAsWritten pairSep kvSep next value)
    (hplain : ∀ c ∈ value.head?, isQuote c = false) (hrest : Follows pairSep next rest) :
    (scanValue pairSep (kvSep.tail ++ value ++ rest)).1 = trim Unicode.isSpace value ∧
      pairsOf pairSep r (scanValue pairSep (kvSep.tail ++ value ++ rest)).2 =
        pairsOf pairSep r rest := by
  by_cases hempty : kvSep.tail ++ value = []
  · obtain ⟨htail, rfl⟩ := List.append_eq_nil_iff.mp hempty
    rw [hempty]
    exact scanValue_empty hne (hvalue.opened rfl htail) hrest
  · let inValue : Char → Bool := fun c => !pairSep.contains c
    let read := (kvSep.tail ++ value).takeWhile inValue
    let cut := value.dropWhile inValue
    have hsplit : kvSep.tail ++ value = read ++ cut := by
      rw [← List.takeWhile_append_dropWhile (p := inValue) (l := kvSep.tail ++ value)]
      congr 1
      exact List.dropWhile_append_of_pos (by simpa [inValue] using hdisjoint)
    have hcut : ∀ c ∈ cut, isGap pairSep c = true ∧ Unicode.isSpace c = true := hvalue.undivided
    have htrim : trim Unicode.isSpace read = trim Unicode.isSpace value := by
      rw [← trim_append_right read fun c hc => (hcut c hc).2, ← hsplit,
        trim_append_left hvalue.spaced]
    have hread : ∀ c ∈ read, c ∉ pairSep := by
      intro c hc
      simpa [inValue] using List.mem_takeWhile_imp hc
    have hstop : ∀ c ∈ (cut ++ rest).head?, c ∈ pairSep := by
      have hfollows : ∀ c ∈ rest.head?, inValue c = false := by
        intro c hc
        simp [inValue, hrest.head? hne c hc]
      intro c hc
      simpa [inValue] using of_mem_head?_dropWhile_append hfollows c hc
    have hquote : ∀ c ∈ (read ++ (cut ++ rest)).head?, isQuote c = false := by
      rw [← List.append_assoc, ← hsplit]
      cases htail : kvSep.tail with
      | nil =>
          rw [htail] at hempty
          obtain ⟨c, value, rfl⟩ := List.exists_cons_of_ne_nil hempty
          exact hplain
      | cons c tail =>
          intro d hd
          obtain rfl : c = d := by simpa using hd
          exact isQuote_of_isSpace (hvalue.spaced c (by simp [htail]))
    rw [hsplit, List.append_assoc, scanValue_value hread hstop hquote, htrim,
      pairsOf_gap fun c hc => (hcut c hc).1]
    exact ⟨rfl, rfl⟩

theorem stray_subset (t : PairToken) (kvSep : List Char) : t.stray ⊆ t.chars kvSep := by
  cases t with
  | word text => exact List.Subset.refl _
  | bare key value => exact List.nil_subset _
  | quoted key quote text after =>
      intro c hc
      simp [chars, show c ∈ after from hc]

theorem append_of_head? {kvSep : List Char} (h : kvSep.head? = some (sepRune kvSep))
    (rest : List Char) : kvSep ++ rest = sepRune kvSep :: (kvSep.tail ++ rest) := by
  obtain ⟨tail, htail⟩ := List.head?_eq_some_iff.mp h
  conv_lhs => rw [htail, List.cons_append]
  rw [htail]
  rfl

theorem pairsOf_token {kvSep next : List Char} (hne : pairSep ≠ [])
    (hdisjoint : ∀ c ∈ kvSep, c ∉ pairSep) (hformed : t.WellFormed pairSep kvSep)
    (hread : t.AsWritten pairSep kvSep next) (hrest : Follows pairSep next rest) :
    pairsOf pairSep (sepRune kvSep) (t.chars kvSep ++ rest) =
      t.meant ++ if t.hides pairSep then [] else pairsOf pairSep (sepRune kvSep) rest := by
  cases hread with
  | skipped hgap hmeant =>
      have hhides : t.hides pairSep = false := by
        rw [hides, Bool.not_eq_false', List.all_eq_true]
        exact fun c hc => hgap c (stray_subset t kvSep hc)
      rw [pairsOf_gap hgap, hmeant, hhides]
      rfl
  | @word text hstop =>
      rw [chars, pairsOf_stray hne hrest hstop, meant, List.nil_append, hides, stray]
      cases text.all (isGap pairSep) <;> rfl
  | @bare key value hbegins hkey hvalue =>
      have htext : (bare key value).chars kvSep ++ rest =
          key ++ sepRune kvSep :: (kvSep.tail ++ value ++ rest) := by
        rw [chars, append_of_head? hbegins]
        simp
      obtain ⟨hfirst, hsecond⟩ := scanValue_asWritten (r := sepRune kvSep) hne
        (fun c hc => hdisjoint c (List.mem_of_mem_tail hc)) hvalue
        (hformed.unquoted key value rfl) hrest
      rw [htext, pairsOf_key hkey, hfirst, hsecond]
      rfl
  | @quoted key text after quote hsingle hkey hstop =>
      obtain ⟨hquote, hclosed⟩ := hformed.closed key quote text after rfl
      have hmark : quote = '"' ∨ quote = '\'' := by simpa [isQuote] using hquote
      have hslash : quote ≠ '\\' := by rcases hmark with rfl | rfl <;> decide
      have htext : (quoted key quote text after).chars kvSep ++ rest =
          key ++ sepRune kvSep :: quote :: (text ++ quote :: (after ++ rest)) := by
        conv_lhs => rw [chars, hsingle]
        simp
      rw [htext, pairsOf_key hkey, scanValue_quoted hmark,
        scanQuoted_of_quotedText hslash hclosed, pairsOf_stray hne hrest hstop, meant, hides, stray]
      cases after.all (isGap pairSep) <;> rfl

theorem follows_remainder (pairSep kvSep : List Char) (tokens : List PairToken) :
    Follows pairSep (if tokens.isEmpty then [] else pairSep) (remainder pairSep kvSep tokens) := by
  cases tokens with
  | nil => exact .stop
  | cons t tokens =>
      rw [remainder_cons]
      exact .separator _

/-- The pairs of tokens that are each after a separator, by induction on the tokens. -/
theorem pairsOf_remainder {kvSep : List Char} {tokens : List PairToken} (hne : pairSep ≠ [])
    (hdisjoint : ∀ c ∈ kvSep, c ∉ pairSep) (hformed : ∀ t ∈ tokens, t.WellFormed pairSep kvSep)
    (hread : ReadAsWritten pairSep kvSep tokens) :
    pairsOf pairSep (sepRune kvSep) (remainder pairSep kvSep tokens) = heard pairSep tokens := by
  induction tokens with
  | nil =>
      apply pairsOf_eq_nil
      rintro key rest hkey
      have hshorter := keyAt_shorter hkey
      exact absurd hshorter (Nat.not_lt_zero _)
  | cons t tokens ih =>
      obtain ⟨hfirst, hlater⟩ := hread
      have htoken := pairsOf_token hne hdisjoint (hformed t List.mem_cons_self) hfirst
        (follows_remainder pairSep kvSep tokens)
      rw [remainder_cons, pairsOf_gap fun c hc => isGap_of_mem hc, htoken, heard]
      cases hhides : t.hides pairSep with
      | true => rfl
      | false =>
          rw [ih (fun u hu => hformed u (List.mem_cons_of_mem _ hu)) (hlater hhides)]

theorem pairsOf_tokensText {kvSep : List Char} {tokens : List PairToken} (hne : pairSep ≠ [])
    (hdisjoint : ∀ c ∈ kvSep, c ∉ pairSep) (hformed : ∀ t ∈ tokens, t.WellFormed pairSep kvSep)
    (hread : ReadAsWritten pairSep kvSep tokens) :
    pairsOf pairSep (sepRune kvSep) (tokensText pairSep kvSep tokens) = heard pairSep tokens := by
  cases tokens with
  | nil => exact pairsOf_remainder hne hdisjoint hformed hread
  | cons t tokens =>
      rw [← pairsOf_remainder hne hdisjoint hformed hread, tokensText_cons, remainder_cons,
        pairsOf_gap fun c hc => isGap_of_mem hc]

theorem keyStop_ne_of_not_mem {kvSep s : List Char} (h : sepRune kvSep ∉ s) :
    keyStop pairSep kvSep s ≠ some (sepRune kvSep) := by
  intro hstop
  have hmem := List.mem_of_mem_head? (Option.mem_def.mpr hstop)
  exact h ((List.dropWhile_sublist _).mem ((List.dropWhile_sublist _).mem hmem))

theorem keyAsWritten_of_undivided {key : List Char} (hsep : kvSep ∉ pairSep)
    (hkey : ∀ c ∈ key, c ∉ pairSep ∧ c ≠ kvSep)
    (hshows : isBlank kvSep = true → ∃ c ∈ key, isBlank c = false) :
    KeyAsWritten pairSep kvSep key where
  skipped c hc := by
    have hgap := List.mem_takeWhile_imp hc
    have hmem : c ∈ key := (List.takeWhile_sublist _).mem hc
    rw [isGap_iff_of_not_mem (hkey c hmem).1] at hgap
    exact isSpace_of_isBlank hgap
  undivided c hc := hkey c ((List.dropWhile_sublist _).mem hc)
  shown hgap hnil := by
    rw [isGap_iff_of_not_mem hsep] at hgap
    obtain ⟨c, hc, hplain⟩ := hshows hgap
    rw [List.dropWhile_eq_nil_iff] at hnil
    have hskip := hnil c hc
    rw [isGap_iff_of_not_mem (hkey c hc).1, hplain] at hskip
    cases hskip

theorem asWritten_of_undivided {kvSep next : List Char} (hsingle : kvSep = [sepRune kvSep])
    (hsep : sepRune kvSep ∉ pairSep) (hnext : next ⊆ pairSep)
    (hformed : t.WellFormed pairSep kvSep)
    (hundivided : ∀ part ∈ t.parts, ∀ c ∈ part, c ∉ pairSep)
    (hshown : isBlank (sepRune kvSep) = true →
      ∀ key ∈ t.heads.head?, t = word key ∨ ∃ c ∈ key, isBlank c = false)
    (hopened : OpensQuote pairSep → ∀ key, t ≠ bare key []) : t.AsWritten pairSep kvSep next := by
  have hplain : ∀ part ∈ t.heads, part ∈ t.parts → ∀ c ∈ part, c ∉ pairSep ∧ c ≠ sepRune kvSep := by
    intro part hpart hpart' c hc
    refine ⟨hundivided part hpart' c hc, ?_⟩
    rintro rfl
    refine not_mem_of_not_infix ?_ hc
    rw [← hsingle]
    exact hformed.unnamed part hpart
  have hstop : ∀ part ∈ t.heads, part ∈ t.parts →
      keyStop pairSep kvSep (part ++ next) ≠ some (sepRune kvSep) := by
    intro part hpart hpart'
    apply keyStop_ne_of_not_mem
    rw [List.mem_append]
    rintro (hmem | hmem)
    · exact (hplain part hpart hpart' _ hmem).2 rfl
    · exact hsep (hnext hmem)
  have hhead : kvSep.head? = some (sepRune kvSep) := by
    conv_lhs => rw [hsingle]
    rfl
  cases t with
  | word text => exact .word (hstop text (by simp [heads]) (by simp [parts, heads]))
  | bare key value =>
      refine .bare hhead ?_ ⟨?_, ?_, ?_⟩
      · refine keyAsWritten_of_undivided hsep
          (hplain key (by simp [heads]) (by simp [parts])) fun hblank => ?_
        exact (hshown hblank key rfl).resolve_left (by simp)
      · rw [hsingle]
        simp
      · have hvalue := hundivided value (by simp [parts])
        have hdrop : value.dropWhile (fun c => !pairSep.contains c) = [] := by
          rw [List.dropWhile_eq_nil_iff]
          simpa using hvalue
        rw [hdrop]
        exact List.forall_mem_nil _
      · rintro rfl - - hopens
        exact hopened hopens key rfl
  | quoted key quote text after =>
      refine .quoted hsingle ?_ (hstop after (by simp [heads]) (by simp [parts, heads]))
      refine keyAsWritten_of_undivided hsep
        (hplain key (by simp [heads]) (by simp [parts, heads])) fun hblank => ?_
      exact (hshown hblank key rfl).resolve_left (by simp)

theorem readAsWritten_of_forall {kvSep : List Char} {tokens : List PairToken}
    (h : ∀ t ∈ tokens, ∀ next ⊆ pairSep, t.AsWritten pairSep kvSep next) :
    ReadAsWritten pairSep kvSep tokens := by
  induction tokens with
  | nil => trivial
  | cons t tokens ih =>
      refine ⟨h t List.mem_cons_self _ ?_, fun _ => ih fun u hu => h u (List.mem_cons_of_mem _ hu)⟩
      split
      · exact List.nil_subset _
      · exact List.Subset.refl _

end Hearing

section Separators

open PairToken

theorem parseKeyValue_eq {pairSep kvSep : String} (hpair : pairSep ≠ "") (hkv : kvSep ≠ "")
    (s : List Char) : parseKeyValue (String.ofList s) pairSep kvSep =
      Dict.ofList (pairsOf pairSep.toList (sepRune kvSep.toList) s) := by
  simp only [parseKeyValue, if_neg hpair, if_neg hkv, String.toList_ofList]
  rfl

theorem leadByte_lt (c : Char) : leadByte c < 256 := by
  have hvalid : c.toNat < 0x110000 := by
    rcases c.valid with h | ⟨-, h⟩
    · exact h.trans (by decide)
    · exact h
  rw [leadByte]
  split_ifs <;> omega

theorem sepRune_singleton {c : Char} (hlead : leadByte c = c.toNat) : sepRune [c] = c := by
  rw [sepRune, List.headD_cons, hlead, Char.ofNat_toNat]

/-- The tokens of a text of pairs with these separators. -/
def Written (pairSep kvSep : String) (tokens : List PairToken) : Prop :=
  ∀ t ∈ tokens, t.WellFormed pairSep.toList kvSep.toList

/-- `ParseKeyValue` maps the keys of the tokens to their last values, and no others. -/
def Finds (pairSep kvSep : String) (tokens : List PairToken) : Prop :=
  (parseKeyValue (String.ofList (tokensText pairSep.toList kvSep.toList tokens)) pairSep
    kvSep).Same (Dict.ofList (tokens.flatMap meant))

/-- What hides the later pairs hides no key's last value. -/
def Unhidden (pairSep : String) (tokens : List PairToken) : Prop :=
  (Dict.ofList (heard pairSep.toList tokens)).Same (Dict.ofList (tokens.flatMap meant))

theorem finds_iff_unhidden {pairSep kvSep : String} {tokens : List PairToken} (hpair : pairSep ≠ "")
    (hkv : kvSep ≠ "") (hdisjoint : ∀ c ∈ kvSep.toList, c ∉ pairSep.toList)
    (hwritten : Written pairSep kvSep tokens)
    (hread : ReadAsWritten pairSep.toList kvSep.toList tokens) :
    Finds pairSep kvSep tokens ↔ Unhidden pairSep tokens := by
  have hne : pairSep.toList ≠ [] := by simpa using hpair
  rw [Finds, Unhidden, parseKeyValue_eq hpair hkv,
    pairsOf_tokensText hne hdisjoint hwritten hread]

/-- A character apart from the separators, white space and quotes. -/
structure Apart (pairSep kvSep : List Char) (c : Char) : Prop where
  solid : Unicode.isSpace c = false
  unquoting : isQuote c = false
  not_pair : c ∉ pairSep
  not_kv : c ∉ kvSep
  not_lead : c ≠ sepRune kvSep

theorem Apart.not_blank {pairSep kvSep : List Char} {c : Char} (hc : Apart pairSep kvSep c) :
    isBlank c = false := by
  by_contra hblank
  have hspace := isSpace_of_isBlank (by simpa using hblank)
  rw [hc.solid] at hspace
  cases hspace

theorem Apart.isGap {pairSep kvSep : List Char} {c : Char} (hc : Apart pairSep kvSep c) :
    isGap pairSep c = false := by
  rw [isGap_iff_of_not_mem hc.not_pair, hc.not_blank]

theorem Apart.keyAsWritten {pairSep kvSep : List Char} {c : Char} (hc : Apart pairSep kvSep c) :
    KeyAsWritten pairSep (sepRune kvSep) [c] := by
  constructor <;> simp [hc.isGap, hc.not_pair, hc.not_lead]

theorem not_infix_of_not_mem {l : List Char} {x d : Char} (hx : x ∉ l) (hne : l ≠ [])
    (hd : l ≠ [d]) : ¬ l <:+: [x, d, x] := by
  cases l with
  | nil => exact absurd rfl hne
  | cons a tail =>
      have ha : a ≠ x := fun h => hx (h ▸ List.mem_cons_self)
      cases tail with
      | nil => simp_all [List.infix_cons_iff]
      | cons b tail =>
          have hb : b ≠ x := fun h => hx (h ▸ List.mem_cons_of_mem _ List.mem_cons_self)
          simp_all [List.infix_cons_iff]

theorem pairsOf_eq_nil_of_not_mem {pairSep s : List Char} {kvSep : Char} (h : kvSep ∉ s) :
    pairsOf pairSep kvSep s = [] := by
  apply pairsOf_eq_nil
  rintro key rest ⟨⟩
  exact h (by simp)

theorem eq_of_same_pair {key value key' value' : List Char} (hkey' : trim Unicode.isSpace key' ≠ [])
    (h : (Dict.ofList (pair key value)).Same (Dict.ofList (pair key' value'))) :
    trim Unicode.isSpace key = trim Unicode.isSpace key' ∧ value = value' := by
  have hget := h (String.ofList (trim Unicode.isSpace key'))
  rw [pair, pair, if_neg hkey', Dict.get?_ofList, Dict.get?_ofList, List.reverse_singleton,
    lookup_cons, if_pos rfl] at hget
  split at hget
  · cases hget
  · rw [List.reverse_singleton, lookup_cons] at hget
    split at hget <;> rename_i hkey
    · have hvalue := Json.str.inj (Option.some.inj hget)
      exact ⟨String.ofList_injective hkey, String.ofList_injective hvalue⟩
    · cases hget

variable {pairSep kvSep : String} {x : Char}

theorem trim_apart {pairSep kvSep : List Char} (hx : Apart pairSep kvSep x) :
    trim Unicode.isSpace [x] = [x] := by
  simp [trim, hx.solid]

theorem trim_between {pairSep kvSep : List Char} (hx : Apart pairSep kvSep x) (d : Char) :
    trim Unicode.isSpace [x, d, x] = [x, d, x] := by
  simp [trim, hx.solid]

theorem not_infix_apart {l : List Char} (hx : x ∉ l) (hne : l ≠ []) : ¬ l <:+: [x] := by
  intro h
  rcases List.infix_cons_iff.mp h with h | h
  · cases l with
    | nil => exact hne rfl
    | cons a l =>
        obtain ⟨rfl, -⟩ := List.cons_prefix_cons.mp h
        exact hx List.mem_cons_self
  · exact hne (List.infix_nil.mp h)

theorem wellFormed_bare {pairSep kvSep key value : List Char} (hkey : ¬ pairSep <:+: key)
    (hname : ¬ kvSep <:+: key) (hvalue : ¬ pairSep <:+: value)
    (hplain : ∀ c ∈ value.head?, isQuote c = false) :
    (bare key value).WellFormed pairSep kvSep where
  undivided := by simp [parts, hkey, hvalue]
  unnamed := by simp [heads, hname]
  unquoted := by
    rintro _ _ ⟨⟩
    exact hplain
  closed := by rintro _ _ _ _ ⟨⟩

theorem unhidden_of_not_hides {pairSep : List Char} {tokens : List PairToken}
    (h : ∀ t ∈ tokens, t.hides pairSep = false) :
    heard pairSep tokens = tokens.flatMap meant := by
  induction tokens with
  | nil => rfl
  | cons t tokens ih =>
      have htail := ih fun u hu => h u (List.mem_cons_of_mem _ hu)
      rw [heard, h t List.mem_cons_self, List.flatMap_cons, ← htail]
      rfl

/-- Tokens of which `ParseKeyValue` misses a pair that no text hides. -/
def Missed (pairSep kvSep : String) (tokens : List PairToken) : Prop :=
  Written pairSep kvSep tokens ∧ Unhidden pairSep tokens ∧ ¬ Finds pairSep kvSep tokens

theorem missed_of_unhidden {tokens : List PairToken} (hpair : pairSep ≠ "") (hkv : kvSep ≠ "")
    (hwritten : Written pairSep kvSep tokens)
    (hheard : heard pairSep.toList tokens = tokens.flatMap meant)
    (hmissed : ¬ (Dict.ofList (pairsOf pairSep.toList (sepRune kvSep.toList)
      (tokensText pairSep.toList kvSep.toList tokens))).Same (Dict.ofList (tokens.flatMap meant))) :
    Missed pairSep kvSep tokens := by
  refine ⟨hwritten, ?_, ?_⟩
  · rw [Unhidden, hheard]
    exact .refl _
  · rwa [Finds, parseKeyValue_eq hpair hkv]

/-- The separator of keys is not the character of its first byte. -/
theorem exists_missed_of_wide (hpair : pairSep ≠ "") (hkv : kvSep ≠ "")
    (hdisjoint : ∀ c ∈ kvSep.toList, c ∉ pairSep.toList)
    (hx : Apart pairSep.toList kvSep.toList x) (hwide : kvSep.toList ≠ [sepRune kvSep.toList]) :
    ∃ tokens, Missed pairSep kvSep tokens := by
  have hne : pairSep.toList ≠ [] := by simpa using hpair
  have hne' : kvSep.toList ≠ [] := by simpa using hkv
  have hpair' := not_infix_apart hx.not_pair hne
  have hkv' := not_infix_apart hx.not_kv hne'
  have hplain : ∀ c ∈ [x].head?, isQuote c = false := by simpa using hx.unquoting
  by_cases hlead : sepRune kvSep.toList ∈ pairSep.toList
  · refine ⟨[bare [x] [x]], missed_of_unhidden hpair hkv ?_ ?_ ?_⟩
    · simpa [Written] using wellFormed_bare hpair' hkv' hpair' hplain
    · exact unhidden_of_not_hides (by simp [hides, stray])
    · have habsent :
          sepRune kvSep.toList ∉ tokensText pairSep.toList kvSep.toList [bare [x] [x]] := by
        have hnot : sepRune kvSep.toList ∉ kvSep.toList := fun h => hdisjoint _ h hlead
        simp [tokensText, List.intercalate, chars, hx.not_lead.symm, hnot]
      rw [pairsOf_eq_nil_of_not_mem habsent]
      intro h
      have hget := h (String.ofList [x])
      simp [Dict.get?_ofList, meant, pair, trim_apart hx, lookup_cons] at hget
  · refine ⟨[bare [x, sepRune kvSep.toList, x] [x]], missed_of_unhidden hpair hkv ?_ ?_ ?_⟩
    · have hother : pairSep.toList ≠ [sepRune kvSep.toList] :=
        fun h => hlead (h ▸ List.mem_singleton_self _)
      simpa [Written] using wellFormed_bare (not_infix_of_not_mem hx.not_pair hne hother)
        (not_infix_of_not_mem hx.not_kv hne' hwide) hpair' hplain
    · exact unhidden_of_not_hides (by simp [hides, stray])
    · have htext : tokensText pairSep.toList kvSep.toList [bare [x, sepRune kvSep.toList, x] [x]] =
          [x] ++ sepRune kvSep.toList :: (x :: (kvSep.toList ++ [x]) ++ []) := by
        simp [tokensText, List.intercalate, chars]
      have hvalue : ∀ c ∈ x :: (kvSep.toList ++ [x]), c ∉ pairSep.toList := by
        intro c hc
        simp only [List.mem_cons, List.mem_append, List.not_mem_nil, or_false] at hc
        rcases hc with rfl | hc | rfl
        · exact hx.not_pair
        · exact hdisjoint c hc
        · exact hx.not_pair
      have hbare : ∀ c ∈ (x :: (kvSep.toList ++ [x]) ++ []).head?, isQuote c = false := by
        simpa using hx.unquoting
      rw [htext, pairsOf_key hx.keyAsWritten, scanValue_value hvalue (by simp) hbare,
        pairsOf_eq_nil_of_not_mem List.not_mem_nil]
      intro h
      simp only [List.append_nil, List.flatMap_cons, List.flatMap_nil, meant] at h
      obtain ⟨hkey, -⟩ := eq_of_same_pair (by simp [trim_between hx]) h
      simp [trim_apart hx, trim_between hx] at hkey

/-- A separator of pairs shows in part outside of quotes. -/
theorem exists_missed_of_divided {c d : Char} (hpair : pairSep ≠ "")
    (hdisjoint : ∀ c ∈ kvSep.toList, c ∉ pairSep.toList)
    (hx : Apart pairSep.toList kvSep.toList x) (hsingle : kvSep.toList = [c])
    (hlead : sepRune kvSep.toList = c) (hd : d ∈ pairSep.toList) (hlong : pairSep.toList ≠ [d]) :
    ∃ tokens, Missed pairSep kvSep tokens := by
  have hne : pairSep.toList ≠ [] := by simpa using hpair
  have hkv : kvSep ≠ "" := by
    rintro rfl
    cases hsingle
  have hsep : c ∉ pairSep.toList := hdisjoint c (by simp [hsingle])
  have hother : c ≠ x := hlead ▸ hx.not_lead.symm
  refine ⟨[bare [x] [x, d, x]], missed_of_unhidden hpair hkv ?_ ?_ ?_⟩
  · have hformed := wellFormed_bare (not_infix_apart hx.not_pair hne)
      (not_infix_apart hx.not_kv (by simp [hsingle])) (not_infix_of_not_mem hx.not_pair hne hlong)
      (by simpa using hx.unquoting)
    simpa [Written] using hformed
  · exact unhidden_of_not_hides (by simp [hides, stray])
  · have htext : tokensText pairSep.toList kvSep.toList [bare [x] [x, d, x]] =
        [x] ++ c :: ([x] ++ ([d] ++ [x])) := by
      simp [tokensText, List.intercalate, chars, hsingle]
    have hvalue : ∀ c ∈ [x], c ∉ pairSep.toList := by simpa using hx.not_pair
    have hrest : ∀ c ∈ ([d] ++ [x]).head?, c ∈ pairSep.toList := by simpa using hd
    have hbare : ∀ c ∈ ([x] ++ ([d] ++ [x])).head?, isQuote c = false := by simpa using hx.unquoting
    have hgap : ∀ c ∈ [d], isGap pairSep.toList c = true := by simpa using isGap_of_mem hd
    have hnone : c ∉ [x] := by simpa using hother
    rw [htext, hlead, pairsOf_key (hlead ▸ hx.keyAsWritten),
      scanValue_value hvalue hrest hbare, pairsOf_gap hgap, pairsOf_eq_nil_of_not_mem hnone]
    intro h
    simp only [List.append_nil, List.flatMap_cons, List.flatMap_nil, meant] at h
    obtain ⟨-, hvalue⟩ := eq_of_same_pair (by simp [trim_apart hx]) h
    simp [trim_apart hx, trim_between hx] at hvalue

/-- A blank separator of keys stands after a blank key. -/
theorem exists_missed_of_blank {c : Char} (hpair : pairSep ≠ "")
    (hdisjoint : ∀ c ∈ kvSep.toList, c ∉ pairSep.toList)
    (hx : Apart pairSep.toList kvSep.toList x) (hsingle : kvSep.toList = [c])
    (hlead : sepRune kvSep.toList = c) (hblank : isBlank c = true) :
    ∃ tokens, Missed pairSep kvSep tokens := by
  have hne : pairSep.toList ≠ [] := by simpa using hpair
  have hkv : kvSep ≠ "" := by
    rintro rfl
    cases hsingle
  have hsep : c ∉ pairSep.toList := hdisjoint c (by simp [hsingle])
  have hpair' := not_infix_apart hx.not_pair hne
  have hkv' := not_infix_apart hx.not_kv (by simp [hsingle])
  have hplain : ∀ c ∈ [x].head?, isQuote c = false := by simpa using hx.unquoting
  have hother : c ≠ x := hlead ▸ hx.not_lead.symm
  refine ⟨[bare [] [x], bare [x] [x]], missed_of_unhidden hpair hkv ?_ ?_ ?_⟩
  · have hfirst : (bare [] [x]).WellFormed pairSep.toList kvSep.toList :=
      wellFormed_bare (by simpa using hne) (by simp [hsingle]) hpair' hplain
    have hsecond := wellFormed_bare hpair' hkv' hpair' hplain
    simpa [Written] using ⟨hfirst, hsecond⟩
  · exact unhidden_of_not_hides (by simp [hides, stray])
  · have htext : tokensText pairSep.toList kvSep.toList [bare [] [x], bare [x] [x]] =
        [c] ++ ([x] ++ remainder pairSep.toList [c] [bare [x] [x]]) := by
      rw [tokensText_cons, hsingle]
      simp [chars]
    have hgap : ∀ d ∈ [c], isGap pairSep.toList d = true := by simpa using isGap_of_isBlank hblank
    have hfollows := follows_remainder pairSep.toList [c] [bare [x] [x]]
    have hstop : keyStop pairSep.toList kvSep.toList ([x] ++ pairSep.toList) ≠
        some (sepRune kvSep.toList) := by
      apply keyStop_ne_of_not_mem
      simpa [hlead] using ⟨hother, hsep⟩
    rw [htext, pairsOf_gap hgap, pairsOf_stray hne hfollows hstop,
      if_neg (by simp [hx.isGap])]
    intro h
    have hget : (Dict.ofList (pair [] [])).Same
        (Dict.ofList (pair [x] (trim Unicode.isSpace [x]))) := by
      have hempty : trim Unicode.isSpace [] = [] := rfl
      simp only [meant, List.flatMap_cons, List.flatMap_nil, List.append_nil] at h
      simpa [pair, hempty] using h
    obtain ⟨hkey, -⟩ := eq_of_same_pair (by simp [trim_apart hx]) hget
    rw [trim_apart hx] at hkey
    cases hkey

theorem quoted_suffix {quote : Char} {s after : List Char} (h : Quoted quote s after) :
    after <:+ s := by
  induction h with
  | closed => exact List.suffix_cons _ _
  | unclosed => exact List.suffix_refl _
  | escape _ ih => exact ih.trans ((List.suffix_cons _ _).trans (List.suffix_cons _ _))
  | plain _ _ _ ih => exact ih.trans (List.suffix_cons _ _)

theorem scanQuoted_ne_nil {quote : Char} {s : List Char} (hne : s ≠ [])
    (hhead : s.head? ≠ some quote) : (scanQuoted quote s).1 ≠ [] := by
  rw [scanQuoted.eq_def]
  split
  · exact absurd rfl hne
  · exact List.cons_ne_nil _ _
  · rw [if_neg fun h => hhead (congrArg some h)]
    exact List.cons_ne_nil _ _

/-- A separator of pairs that opens a quote stands after an empty value. -/
theorem exists_missed_of_opens {c : Char} (hpair : pairSep ≠ "")
    (hdisjoint : ∀ c ∈ kvSep.toList, c ∉ pairSep.toList)
    (hx : Apart pairSep.toList kvSep.toList x) (hsingle : kvSep.toList = [c])
    (hlead : sepRune kvSep.toList = c) (hopens : OpensQuote pairSep.toList) :
    ∃ tokens, Missed pairSep kvSep tokens := by
  have hne : pairSep.toList ≠ [] := by simpa using hpair
  have hkv : kvSep ≠ "" := by
    rintro rfl
    cases hsingle
  have hsep : c ∉ pairSep.toList := hdisjoint c (by simp [hsingle])
  have hpair' := not_infix_apart hx.not_pair hne
  have hkv' := not_infix_apart hx.not_kv (by simp [hsingle])
  obtain ⟨quote, hquote, hopening, htwice⟩ := hopens
  refine ⟨[bare [x] [], word [x]], missed_of_unhidden hpair hkv ?_ ?_ ?_⟩
  · have hfirst : (bare [x] []).WellFormed pairSep.toList kvSep.toList :=
      wellFormed_bare hpair' hkv' (by simpa using hne) (by simp)
    have hsecond : (word [x]).WellFormed pairSep.toList kvSep.toList :=
      ⟨by simpa [parts, heads] using hpair', by simpa [heads] using hkv', by simp, by simp⟩
    simpa [Written] using ⟨hfirst, hsecond⟩
  · simp [heard, hides, stray, meant]
  · obtain ⟨tail, htail⟩ := List.head?_eq_some_iff.mp hquote
    have htext : tokensText pairSep.toList kvSep.toList [bare [x] [], word [x]] =
        [x] ++ c :: quote :: (tail ++ [x]) := by
      rw [tokensText_cons, remainder_cons, hsingle, htail]
      simp [chars, remainder]
    have hmark : quote = '"' ∨ quote = '\'' := by simpa [isQuote] using hopening
    have hnone : c ∉ (scanQuoted quote (tail ++ [x])).2 := by
      intro hc
      have hmem := (quoted_suffix (quoted_scanQuoted quote (tail ++ [x]))).mem hc
      rw [htail] at hsep
      simp only [List.mem_append, List.mem_singleton] at hmem
      rcases hmem with hmem | hmem
      · exact hsep (List.mem_cons_of_mem _ hmem)
      · exact hx.not_lead (hmem.symm.trans hlead.symm)
    rw [htext, hlead, pairsOf_key (hlead ▸ hx.keyAsWritten),
      scanValue_quoted hmark, pairsOf_eq_nil_of_not_mem hnone]
    intro h
    have hget : (Dict.ofList (pair [x] (scanQuoted quote (tail ++ [x])).1)).Same
        (Dict.ofList (pair [x] [])) := by
      simpa [meant, trim] using h
    obtain ⟨-, hvalue⟩ := eq_of_same_pair (by simp [trim_apart hx]) hget
    refine scanQuoted_ne_nil (by simp) ?_ hvalue
    rw [htail, List.tail_cons] at htwice
    cases tail with
    | nil =>
        intro hhead
        have hx' := hx.unquoting
        rw [Option.some.inj hhead, hopening] at hx'
        cases hx'
    | cons d tail => exact htwice

theorem exists_missed {tokens : List PairToken} (hpair : pairSep ≠ "") (hkv : kvSep ≠ "")
    (hdisjoint : ∀ c ∈ kvSep.toList, c ∉ pairSep.toList)
    (hx : Apart pairSep.toList kvSep.toList x) (hwritten : Written pairSep kvSep tokens)
    (hread : ¬ ReadAsWritten pairSep.toList kvSep.toList tokens) :
    ∃ tokens, Missed pairSep kvSep tokens := by
  by_cases hsingle : kvSep.toList = [sepRune kvSep.toList]
  · by_contra hnone
    apply hread
    apply readAsWritten_of_forall
    intro t ht next hnext
    have hmem := List.mem_singleton_self (sepRune kvSep.toList)
    rw [← hsingle] at hmem
    have hsep : sepRune kvSep.toList ∉ pairSep.toList := hdisjoint _ hmem
    refine asWritten_of_undivided hsingle hsep hnext (hwritten t ht) ?_ ?_ ?_
    · intro part hpart d hd hmem
      apply hnone
      apply exists_missed_of_divided hpair hdisjoint hx hsingle rfl hmem
      intro hlong
      have hundivided := (hwritten t ht).undivided part hpart
      rw [hlong] at hundivided
      exact not_mem_of_not_infix hundivided hd
    · intro hblank
      exact absurd (exists_missed_of_blank hpair hdisjoint hx hsingle rfl hblank) hnone
    · intro hopens
      exact absurd (exists_missed_of_opens hpair hdisjoint hx hsingle rfl hopens) hnone
  · exact exists_missed_of_wide hpair hkv hdisjoint hx hsingle

/-- Of pairs that are read as they are written `ParseKeyValue` finds every one just when no
other text hides one; and separators under which pairs can be read otherwise miss one that
nothing hides. -/
theorem parseKeyValue_finds_iff (hpair : pairSep ≠ "") (hkv : kvSep ≠ "")
    (hdisjoint : ∀ c ∈ kvSep.toList, c ∉ pairSep.toList) :
    (∀ tokens, Written pairSep kvSep tokens → ReadAsWritten pairSep.toList kvSep.toList tokens →
      (Finds pairSep kvSep tokens ↔ Unhidden pairSep tokens)) ∧
    ∀ x, Apart pairSep.toList kvSep.toList x →
      (∃ tokens, Written pairSep kvSep tokens ∧
        ¬ ReadAsWritten pairSep.toList kvSep.toList tokens) →
          ∃ tokens, Written pairSep kvSep tokens ∧ Unhidden pairSep tokens ∧
            ¬ Finds pairSep kvSep tokens := by
  constructor
  · intro tokens hwritten hread
    exact finds_iff_unhidden hpair hkv hdisjoint hwritten hread
  · rintro x hx ⟨tokens, hwritten, hread⟩
    exact exists_missed hpair hkv hdisjoint hx hwritten hread

theorem parseKeyValue_finds_iff_blank :
    (∀ tokens, Written " " "=" tokens → ReadAsWritten [' '] ['='] tokens →
      (Finds " " "=" tokens ↔ Unhidden " " tokens)) ∧
    ∀ x, Apart [' '] ['='] x →
      (∃ tokens, Written " " "=" tokens ∧ ¬ ReadAsWritten [' '] ['='] tokens) →
        ∃ tokens, Written " " "=" tokens ∧ Unhidden " " tokens ∧ ¬ Finds " " "=" tokens :=
  parseKeyValue_finds_iff (by decide) (by decide) (by simp)

/-- In `foo a=b` the word hides the pair. -/
theorem not_finds_after_word :
    ¬ ∀ pairSep kvSep : String, pairSep ≠ "" → kvSep ≠ "" →
      (∀ c ∈ kvSep.toList, c ∉ pairSep.toList) →
        ∀ tokens, Written pairSep kvSep tokens → Finds pairSep kvSep tokens := by
  intro hfinds
  have hwritten : Written " " "=" [word ['f', 'o', 'o'], bare ['a'] ['b']] := by
    have hfirst : (word ['f', 'o', 'o']).WellFormed [' '] ['='] :=
      ⟨by decide, by decide, by simp, by simp⟩
    have hsecond : (bare ['a'] ['b']).WellFormed [' '] ['='] :=
      wellFormed_bare (by decide) (by decide) (by decide) (by simp [isQuote])
    simpa [Written] using ⟨hfirst, hsecond⟩
  have hget := hfinds " " "=" (by decide) (by decide) (by simp) _ hwritten "a"
  revert hget
  decide +kernel

end Separators

section Quoting

open PairToken

/-- A text as it is written between double quotes. -/
def escapeQuoted : List Char → List Char
  | [] => []
  | c :: text =>
      if c = '"' ∨ c = '\\' then '\\' :: c :: escapeQuoted text else c :: escapeQuoted text

theorem quotedText_escapeQuoted (text : List Char) : QuotedText '"' (escapeQuoted text) := by
  induction text with
  | nil => exact .nil
  | cons c text ih =>
      rw [escapeQuoted]
      split <;> rename_i hc
      · exact .escape ih
      · exact .plain (fun h => hc (.inl h)) (fun h => hc (.inr h)) ih

/-- The escaped text of a value. -/
def quotedValue (value : String) : Value := .str (String.ofList (escapeQuoted value.toList))

/-- A pair with its value between double quotes. -/
def quotedPair (entry : String × String) : PairToken :=
  quoted entry.1.toList '"' (escapeQuoted entry.2.toList) []

/-- The pairs, each with its value between double quotes. -/
def quotedPairs (pairSep kvSep : Char) (entries : List (String × String)) : String :=
  String.ofList (tokensText [pairSep] [kvSep] (entries.map quotedPair))

/-- A key that is free of the separators and of white space. -/
def PlainKey (pairSep kvSep : Char) (key : String) : Prop :=
  key ≠ "" ∧ ∀ c ∈ key.toList, c ≠ pairSep ∧ c ≠ kvSep ∧ Unicode.isSpace c = false

theorem not_infix_singleton {c : Char} {part : List Char} (h : ∀ d ∈ part, d ≠ c) :
    ¬ [c] <:+: part := by
  intro hpart
  exact h c (hpart.subset (List.mem_singleton_self c)) rfl

variable {pairSep kvSep : Char} {entries : List (String × String)}

theorem wellFormed_quotedPair {entry : String × String} (hkey : PlainKey pairSep kvSep entry.1) :
    (quotedPair entry).WellFormed [pairSep] [kvSep] where
  undivided := by
    simpa [quotedPair, parts, heads] using not_infix_singleton fun d hd => (hkey.2 d hd).1
  unnamed := by
    simpa [quotedPair, heads] using not_infix_singleton fun d hd => (hkey.2 d hd).2.1
  unquoted := by simp [quotedPair]
  closed := by
    rintro _ _ _ _ ⟨⟩
    exact ⟨rfl, quotedText_escapeQuoted _⟩

theorem meant_quotedPair {entry : String × String} (hkey : PlainKey pairSep kvSep entry.1) :
    (quotedPair entry).meant = [(entry.1, quotedValue entry.2)] := by
  have htrim := trim_eq_self_of_forall fun c hc => (hkey.2 c hc).2.2
  rw [quotedPair, meant, pair, htrim, if_neg (by simpa using hkey.1), String.ofList_toList,
    quotedValue]

theorem readAsWritten_quotedPairs (hkv : kvSep.toNat < 128) (hne : pairSep ≠ kvSep)
    (hkeys : ∀ entry ∈ entries, PlainKey pairSep kvSep entry.1) :
    ReadAsWritten [pairSep] [kvSep] (entries.map quotedPair) := by
  have hrune : sepRune [kvSep] = kvSep := sepRune_singleton (by rw [leadByte, if_pos hkv])
  apply readAsWritten_of_forall
  intro t ht next hnext
  obtain ⟨entry, hentry, rfl⟩ := List.mem_map.mp ht
  obtain ⟨hkey, hplain⟩ := hkeys entry hentry
  refine asWritten_of_undivided (by rw [hrune]) (by rw [hrune]; simpa using hne.symm) hnext
    (wellFormed_quotedPair (hkeys entry hentry)) ?_ ?_ ?_
  · intro part hpart c hc
    have hcases : part = entry.1.toList ∨ part = [] := by
      simpa [quotedPair, parts, heads] using hpart
    rcases hcases with rfl | rfl
    · simpa using (hplain c hc).1
    · cases hc
  · intro _ key hhead
    obtain rfl : entry.1.toList = key := by simpa [quotedPair, heads] using hhead
    obtain ⟨c, rest, htext⟩ :=
      List.exists_cons_of_ne_nil fun h => hkey (String.toList_eq_nil_iff.mp h)
    refine .inr ⟨c, by simp [htext], ?_⟩
    by_contra hblank
    have hspace := isSpace_of_isBlank (by simpa using hblank)
    rw [(hplain c (by simp [htext])).2.2] at hspace
    cases hspace
  · intro _ key
    simp [quotedPair]

theorem meant_quotedPairs (hkeys : ∀ entry ∈ entries, PlainKey pairSep kvSep entry.1) :
    (entries.map quotedPair).flatMap meant =
      entries.map fun entry => (entry.1, quotedValue entry.2) := by
  induction entries with
  | nil => rfl
  | cons entry entries ih =>
      rw [List.map_cons, List.flatMap_cons, meant_quotedPair (hkeys entry List.mem_cons_self),
        ih fun e he => hkeys e (List.mem_cons_of_mem _ he)]
      rfl

/-- What stands between quotes stays there: the keys are those that are written, each with the
escaped text of its value. -/
theorem get?_parseKeyValue_quotedPairs (hkv : kvSep.toNat < 128) (hne : pairSep ≠ kvSep)
    (hnodup : (entries.map Prod.fst).Nodup)
    (hkeys : ∀ entry ∈ entries, PlainKey pairSep kvSep entry.1) (key : String) :
    (parseKeyValue (quotedPairs pairSep kvSep entries) (String.singleton pairSep)
      (String.singleton kvSep)).get? key = (lookup key entries).map quotedValue := by
  have hpair : String.singleton pairSep ≠ "" := by simp
  have hdisjoint :
      ∀ c ∈ (String.singleton kvSep).toList, c ∉ (String.singleton pairSep).toList := by
    simpa using hne.symm
  have hwritten : Written (String.singleton pairSep) (String.singleton kvSep)
      (entries.map quotedPair) := by
    intro t ht
    obtain ⟨entry, hentry, rfl⟩ := List.mem_map.mp ht
    simpa using wellFormed_quotedPair (hkeys entry hentry)
  have hread : ReadAsWritten (String.singleton pairSep).toList (String.singleton kvSep).toList
      (entries.map quotedPair) := by
    simpa using readAsWritten_quotedPairs hkv hne hkeys
  have hplain : ∀ t ∈ entries.map quotedPair,
      t.hides (String.singleton pairSep).toList = false := by
    intro t ht
    obtain ⟨entry, -, rfl⟩ := List.mem_map.mp ht
    rfl
  have hfinds :
      Finds (String.singleton pairSep) (String.singleton kvSep) (entries.map quotedPair) := by
    rw [finds_iff_unhidden hpair (by simp) hdisjoint hwritten hread, Unhidden,
      unhidden_of_not_hides hplain]
    exact .refl _
  have hget := hfinds key
  have hnodup' :
      ((entries.map fun entry => (entry.1, quotedValue entry.2)).map Prod.fst).Nodup := by
    rwa [List.map_map]
  rw [String.toList_singleton, String.toList_singleton, meant_quotedPairs hkeys, Dict.get?_ofList,
    lookup_perm (List.reverse_perm _) (by rwa [List.map_reverse, List.nodup_reverse]),
    lookup_map_snd] at hget
  rw [quotedPairs, hget]

theorem get?_parseKeyValue_quotedPairs_hostile :
    (parseKeyValue (quotedPairs ' ' '=' [("user", "\" admin=\"1\\"), ("src", "10.0.0.1")])
      (String.singleton ' ') (String.singleton '=')).get? "user" =
        (lookup "user" [("user", "\" admin=\"1\\"), ("src", "10.0.0.1")]).map quotedValue :=
  get?_parseKeyValue_quotedPairs (by decide) (by decide) (by decide)
    (by simp [PlainKey, Unicode.isSpace]) "user"

end Quoting

end Ulpf.ParserRuntime
