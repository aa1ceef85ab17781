import Ulpf.Lib.JsonText

/-!
String literals of Python between double quotes: where one ends, and which text it denotes.
Texts are lists of code points, since an escape may stand for a surrogate.
-/

namespace Ulpf.Python

open Ulpf.Lib

section Literals

def points (s : List Char) : List ℕ := s.map Char.toNat

def isOctal (c : Char) : Bool := '0' ≤ c && c ≤ '7'

/-- The letters and marks that stand for one character after a backslash. -/
def simpleEscape : Char → Option ℕ
  | '\\' => some 92
  | '\'' => some 39
  | '"' => some 34
  | 'a' => some 7
  | 'b' => some 8
  | 'f' => some 12
  | 'n' => some 10
  | 'r' => some 13
  | 't' => some 9
  | 'v' => some 11
  | _ => none

/-- The characters that form an escape with a backslash before them. -/
def isEscape (c : Char) : Bool :=
  (simpleEscape c).isSome || isOctal c || c = '\n' || c = '\r' || c = 'x' || c = 'u' || c = 'U' ||
    c = 'N'

def hexValue (digits : List Char) : Option ℕ :=
  digits.foldlM (fun value c => (JsonText.hex? c).map (value * 16 + ·)) 0

/-- An escape by hexadecimal digits, of which there are `count`. -/
def hexEscape (count : ℕ) (rest : List Char) : Option (List ℕ × ℕ) :=
  if (rest.take count).length < count then none
  else match hexValue (rest.take count) with
    | some value => if value ≤ 0x10FFFF then some ([value], count + 1) else none
    | none => none

def octalValue (digits : List Char) : ℕ :=
  digits.foldl (fun value c => value * 8 + (c.toNat - '0'.toNat)) 0

variable (named : List Char → Option Char)

/-- An escape by the name of a character. -/
def nameEscape (rest : List Char) : Option (List ℕ × ℕ) :=
  match rest.span (· ≠ '\x7d') with
  | (name, _ :: _) => (named name).map fun c => ([c.toNat], name.length + 3)
  | (_, []) => none

/-- What the characters after a backslash stand for, and how many of them. Without an escape the
backslash stands for itself. -/
def escapeValue : List Char → Option (List ℕ × ℕ)
  | [] => none
  | '\n' :: _ => some ([], 1)
  | '\r' :: '\n' :: _ => some ([], 2)
  | '\r' :: _ => some ([], 1)
  | 'x' :: rest => hexEscape 2 rest
  | 'u' :: rest => hexEscape 4 rest
  | 'U' :: rest => hexEscape 8 rest
  | 'N' :: '\x7b' :: rest => nameEscape named rest
  | 'N' :: _ => none
  | c :: rest =>
      match simpleEscape c with
      | some value => some ([value], 1)
      | none =>
          if isOctal c then
            let digits := ((c :: rest).takeWhile isOctal).take 3
            some ([octalValue digits], digits.length)
          else some ([92], 0)

/-- What a literal denotes, after some characters of it. -/
def denotedFrom : ℕ → List Char → Option (List ℕ)
  | _, [] => some []
  | skip + 1, _ :: rest => denotedFrom skip rest
  | 0, c :: rest =>
      if c = '\\' then
        match escapeValue named rest with
        | some (value, width) => (denotedFrom width rest).map (value ++ ·)
        | none => none
      else (denotedFrom 0 rest).map (c.toNat :: ·)

/-- What is between the quotes of a literal, after its first quote, and what follows it. A
backslash takes the next character with it, and no line ends in a literal. -/
def literalEnd : List Char → Option (List Char × List Char)
  | [] => none
  | '\\' :: '\r' :: '\n' :: rest =>
      (literalEnd rest).map fun found => ('\\' :: '\r' :: '\n' :: found.1, found.2)
  | '\\' :: c :: rest => (literalEnd rest).map fun found => ('\\' :: c :: found.1, found.2)
  | c :: rest =>
      if c = '"' then some ([], rest)
      else if c = '\n' ∨ c = '\r' then none
      else (literalEnd rest).map fun found => (c :: found.1, found.2)

/-- The literal after its first quote, and what follows it. Two more quotes begin another kind
of literal. -/
def readLiteral (s : List Char) : Option (List ℕ × List Char) :=
  if ['"', '"'].isPrefixOf s then none
  else do
    let found ← literalEnd s
    let value ← denotedFrom named 0 found.1
    return (value, found.2)

end Literals

section Plain

/-- No backslash forms an escape with what follows it. -/
def Unescaped (s : List Char) : Prop :=
  ∀ before after, s = before ++ '\\' :: after → ∃ c rest, after = c :: rest ∧ isEscape c = false

/-- Between double quotes the text denotes itself. -/
structure Plain (s : List Char) : Prop where
  inline : ∀ c ∈ s, c ≠ '"' ∧ c ≠ '\n' ∧ c ≠ '\r'
  unescaped : Unescaped s

theorem unescaped_cons {c : Char} {s : List Char} (hc : c ≠ '\\') :
    Unescaped (c :: s) ↔ Unescaped s := by
  constructor
  · rintro h before after rfl
    exact h (c :: before) after rfl
  · intro h before after hs
    cases before with
    | nil => exact absurd (List.cons.inj hs).1 hc
    | cons d before => exact h before after (List.cons.inj hs).2

theorem unescaped_slash {s : List Char} :
    Unescaped ('\\' :: s) ↔ (∃ c rest, s = c :: rest ∧ isEscape c = false) ∧ Unescaped s := by
  constructor
  · intro h
    refine ⟨h [] s rfl, ?_⟩
    rintro before after rfl
    exact h ('\\' :: before) after rfl
  · rintro ⟨hfirst, hlater⟩ before after hs
    cases before with
    | nil =>
        obtain rfl := (List.cons.inj hs).2
        exact hfirst
    | cons d before => exact hlater before after (List.cons.inj hs).2

variable {named : List Char → Option Char}

theorem hexEscape_eq_some {count : ℕ} {rest : List Char} {value : List ℕ} {width : ℕ}
    (h : hexEscape count rest = some (value, width)) : value.length = 1 ∧ 1 ≤ width := by
  rw [hexEscape] at h
  split at h
  · cases h
  · split at h
    · split at h
      · cases h
        exact ⟨rfl, Nat.le_add_left _ _⟩
      · cases h
    · cases h

theorem nameEscape_eq_some {rest : List Char} {value : List ℕ} {width : ℕ}
    (h : nameEscape named rest = some (value, width)) : value.length = 1 ∧ 1 ≤ width := by
  rw [nameEscape] at h
  split at h
  · obtain ⟨c, -, hc⟩ := Option.map_eq_some_iff.mp h
    cases hc
    exact ⟨rfl, by omega⟩
  · cases h

/-- An escape is longer than what it stands for; a backslash without one stands for itself. -/
theorem escapeValue_eq_some {rest : List Char} {value : List ℕ} {width : ℕ}
    (h : escapeValue named rest = some (value, width)) :
    (value.length ≤ 1 ∧ 1 ≤ width ∧ rest ≠ []) ∨
      value = [92] ∧ width = 0 ∧ ∃ c tail, rest = c :: tail ∧ isEscape c = false := by
  rw [escapeValue.eq_def] at h
  split at h
  · cases h
  · cases h
    exact .inl ⟨Nat.zero_le _, le_rfl, List.cons_ne_nil _ _⟩
  · cases h
    exact .inl ⟨Nat.zero_le _, Nat.le_succ _, List.cons_ne_nil _ _⟩
  · cases h
    exact .inl ⟨Nat.zero_le _, le_rfl, List.cons_ne_nil _ _⟩
  · obtain ⟨hvalue, hwidth⟩ := hexEscape_eq_some h
    exact .inl ⟨hvalue.le, hwidth, List.cons_ne_nil _ _⟩
  · obtain ⟨hvalue, hwidth⟩ := hexEscape_eq_some h
    exact .inl ⟨hvalue.le, hwidth, List.cons_ne_nil _ _⟩
  · obtain ⟨hvalue, hwidth⟩ := hexEscape_eq_some h
    exact .inl ⟨hvalue.le, hwidth, List.cons_ne_nil _ _⟩
  · obtain ⟨hvalue, hwidth⟩ := nameEscape_eq_some h
    exact .inl ⟨hvalue.le, hwidth, List.cons_ne_nil _ _⟩
  · cases h
  · rename_i c tail hline _ hreturn hx hu hU hN hN'
    split at h
    · cases h
      exact .inl ⟨le_rfl, le_rfl, List.cons_ne_nil _ _⟩
    · rename_i hsimple
      split at h <;> rename_i hoctal
      · cases h
        have hdigits : (c :: tail).takeWhile isOctal = c :: tail.takeWhile isOctal :=
          List.takeWhile_cons_of_pos hoctal
        refine .inl ⟨le_rfl, ?_, List.cons_ne_nil _ _⟩
        rw [hdigits]
        simp
      · cases h
        refine .inr ⟨rfl, rfl, c, tail, rfl, ?_⟩
        simp_all [isEscape]

/-- What a text denotes is no longer than the text, and as long only when it is the text. -/
theorem denotedFrom_length {skip : ℕ} {s : List Char} {value : List ℕ}
    (h : denotedFrom named skip s = some value) : value.length ≤ s.length - skip := by
  induction s generalizing skip value with
  | nil =>
      rw [denotedFrom] at h
      cases h
      exact Nat.zero_le _
  | cons c rest ih =>
      cases skip with
      | succ skip =>
          rw [denotedFrom] at h
          have hrest := ih h
          simpa using hrest
      | zero =>
          rw [denotedFrom] at h
          split at h
          · split at h
            · rename_i first width hescape
              obtain ⟨later, hlater, rfl⟩ := Option.map_eq_some_iff.mp h
              have hrest := ih hlater
              rcases escapeValue_eq_some hescape with ⟨hshort, hwidth, hne⟩ | ⟨rfl, rfl, -⟩
              · have hpos := List.length_pos_iff.mpr hne
                simp only [List.length_append, List.length_cons]
                omega
              · simpa using hrest
            · cases h
          · obtain ⟨later, hlater, rfl⟩ := Option.map_eq_some_iff.mp h
            have hrest := ih hlater
            simpa using hrest

theorem denotedFrom_full {s : List Char} {value : List ℕ}
    (h : denotedFrom named 0 s = some value) (hlength : value.length = s.length) :
    Unescaped s ∧ value = points s := by
  induction s generalizing value with
  | nil =>
      rw [denotedFrom] at h
      cases h
      refine ⟨?_, rfl⟩
      intro before after hs
      cases before <;> cases hs
  | cons c rest ih =>
      rw [denotedFrom] at h
      split at h <;> rename_i hc
      · split at h
        · rename_i first width hescape
          obtain ⟨later, hlater, rfl⟩ := Option.map_eq_some_iff.mp h
          have hrest := denotedFrom_length hlater
          simp only [List.length_append, List.length_cons] at hlength
          rcases escapeValue_eq_some hescape with ⟨hshort, hwidth, hne⟩ | ⟨rfl, rfl, hplain⟩
          · have hpos := List.length_pos_iff.mpr hne
            omega
          · obtain ⟨hunescaped, rfl⟩ := ih hlater (by simpa [Nat.add_comm] using hlength)
            subst hc
            exact ⟨unescaped_slash.mpr ⟨hplain, hunescaped⟩, rfl⟩
        · cases h
      · obtain ⟨later, hlater, rfl⟩ := Option.map_eq_some_iff.mp h
        obtain ⟨hunescaped, rfl⟩ := ih hlater (by simpa using hlength)
        exact ⟨(unescaped_cons hc).mpr hunescaped, rfl⟩

theorem escapeValue_of_plain {c : Char} {rest : List Char} (hc : isEscape c = false) :
    escapeValue named (c :: rest) = some ([92], 0) := by
  simp only [isEscape, Bool.or_eq_false_iff, decide_eq_false_iff_not] at hc
  obtain ⟨⟨⟨⟨⟨⟨⟨hsimple, hoctal⟩, hline⟩, hreturn⟩, hx⟩, hu⟩, hU⟩, hN⟩ := hc
  have hnone : simpleEscape c = none := by simpa using hsimple
  rw [escapeValue.eq_def]
  split <;> simp_all

theorem denotedFrom_of_unescaped {s : List Char} (h : Unescaped s) :
    denotedFrom named 0 s = some (points s) := by
  induction s with
  | nil => rfl
  | cons c rest ih =>
      rw [denotedFrom]
      split <;> rename_i hc
      · subst hc
        obtain ⟨⟨d, tail, rfl, hd⟩, hrest⟩ := unescaped_slash.mp h
        rw [escapeValue_of_plain hd]
        dsimp only
        rw [ih hrest]
        rfl
      · rw [ih ((unescaped_cons hc).mp h)]
        rfl

/-- How a text that is written between double quotes can read: it ends the literal, or no literal
reads, or it is the literal, or a backslash at its end takes the quote along. -/
inductive Reads (s : List Char) : Prop where
  | cut {body more : List Char} : s = body ++ '"' :: more →
      (∀ rest, literalEnd (s ++ '"' :: rest) = some (body, more ++ '"' :: rest)) → Reads s
  | broken : (∀ rest, literalEnd (s ++ '"' :: rest) = none) → Reads s
  | whole : (∀ rest, literalEnd (s ++ '"' :: rest) = some (s, rest)) → Reads s
  | unclosed : (∀ rest, literalEnd (s ++ '"' :: rest) =
      (literalEnd rest).map fun found => (s ++ '"' :: found.1, found.2)) → Reads s

theorem Reads.prepend (head : List Char) {s : List Char} (h : Reads s)
    (hhead : ∀ rest, literalEnd (head ++ (s ++ '"' :: rest)) =
      (literalEnd (s ++ '"' :: rest)).map fun found => (head ++ found.1, found.2)) :
    Reads (head ++ s) := by
  cases h with
  | @cut body more hs hcut =>
      have hsplit : head ++ s = (head ++ body) ++ '"' :: more := by rw [hs, List.append_assoc]
      refine .cut hsplit fun rest => ?_
      rw [List.append_assoc, hhead, hcut]
      rfl
  | broken hbroken =>
      refine .broken fun rest => ?_
      rw [List.append_assoc, hhead, hbroken]
      rfl
  | whole hwhole =>
      refine .whole fun rest => ?_
      rw [List.append_assoc, hhead, hwhole]
      rfl
  | unclosed hopen =>
      refine .unclosed fun rest => ?_
      rw [List.append_assoc, hhead, hopen, Option.map_map]
      congr 1
      funext found
      simp

theorem literalEnd_quote (rest : List Char) : literalEnd ('"' :: rest) = some ([], rest) := by
  simp [literalEnd]

theorem literalEnd_line {c : Char} (hc : c = '\n' ∨ c = '\r') (rest : List Char) :
    literalEnd (c :: rest) = none := by
  rcases hc with rfl | rfl <;> simp [literalEnd]

theorem literalEnd_slash {c : Char} {rest : List Char}
    (h : c = '\r' → ∀ tail, rest ≠ '\n' :: tail) :
    literalEnd ('\\' :: c :: rest) =
      (literalEnd rest).map fun found => ('\\' :: c :: found.1, found.2) := by
  rw [literalEnd]
  rintro tail rfl rfl
  exact h rfl tail rfl

theorem literalEnd_cons {c : Char} {rest : List Char} (hslash : c = '\\' → rest = [])
    (hquote : c ≠ '"') (hline : ¬ (c = '\n' ∨ c = '\r')) :
    literalEnd (c :: rest) = (literalEnd rest).map fun found => (c :: found.1, found.2) := by
  rw [literalEnd.eq_def]
  split
  · cases ‹_›
  · cases ‹_›
    cases hslash rfl
  · cases ‹_›
    cases hslash rfl
  · cases ‹_›
    rw [if_neg hquote, if_neg hline]

theorem reads (s : List Char) : Reads s := by
  induction s using literalEnd.induct with
  | case1 => exact .whole fun rest => literalEnd_quote rest
  | case2 rest ih =>
      refine ih.prepend ['\\', '\r', '\n'] fun after => ?_
      rw [List.cons_append, List.cons_append, List.cons_append, literalEnd]
      rfl
  | case3 c rest hreturn ih =>
      refine ih.prepend ['\\', c] fun after => ?_
      refine literalEnd_slash fun hc tail htail => ?_
      cases rest with
      | nil => cases htail
      | cons d rest =>
          obtain ⟨rfl, -⟩ := List.cons.inj htail
          exact hreturn rest hc rfl
  | case4 rest =>
      exact .cut (List.nil_append ('"' :: rest)).symm fun after => literalEnd_quote _
  | case5 c rest _ _ _ hline => exact .broken fun after => literalEnd_line hline _
  | case6 c rest hreturn hslash hquote hline ih =>
      by_cases hc : c = '\\'
      · subst hc
        cases rest with
        | nil => exact .unclosed fun after => literalEnd_slash fun h => by cases h
        | cons d rest => exact (hslash d rest rfl rfl).elim
      · exact ih.prepend [c] fun after => literalEnd_cons (fun h => absurd h hc) hquote hline

theorem map_prepend_eq_some_iff {head s rest : List Char} {found : Option (List Char × List Char)} :
    found.map (fun found => (head ++ found.1, found.2)) = some (head ++ s, rest) ↔
      found = some (s, rest) := by
  cases found with
  | none => simp
  | some found => simp [Prod.ext_iff]

theorem literalEnd_eq_iff {s rest : List Char} (h : Unescaped s) :
    literalEnd (s ++ '"' :: rest) = some (s, rest) ↔ ∀ c ∈ s, c ≠ '"' ∧ c ≠ '\n' ∧ c ≠ '\r' := by
  induction s using literalEnd.induct with
  | case1 => simp [literalEnd_quote]
  | case2 tail ih =>
      obtain ⟨⟨c, rest, hc, hescape⟩, -⟩ := unescaped_slash.mp h
      obtain ⟨rfl, -⟩ := List.cons.inj hc
      cases hescape
  | case3 c tail hreturn ih =>
      obtain ⟨⟨d, tail', hd, hescape⟩, htail⟩ := unescaped_slash.mp h
      obtain ⟨rfl, rfl⟩ := List.cons.inj hd
      have hplain : c ≠ '"' ∧ c ≠ '\n' ∧ c ≠ '\r' := by
        refine ⟨?_, ?_, ?_⟩ <;> rintro rfl <;> cases hescape
      have hrest : Unescaped tail := by
        by_cases hslash : c = '\\'
        · subst hslash
          cases hescape
        · exact (unescaped_cons hslash).mp htail
      have hhead : literalEnd ('\\' :: c :: (tail ++ '"' :: rest)) =
          (literalEnd (tail ++ '"' :: rest)).map fun found => (['\\', c] ++ found.1, found.2) :=
        literalEnd_slash fun hc => absurd hc hplain.2.2
      rw [List.cons_append, List.cons_append, hhead, List.forall_mem_cons, List.forall_mem_cons,
        ← ih hrest]
      refine map_prepend_eq_some_iff.trans ?_
      exact ⟨fun hfound => ⟨by decide, hplain, hfound⟩, fun hfound => hfound.2.2⟩
  | case4 tail => simp [literalEnd_quote]
  | case5 c tail _ _ _ hline =>
      rw [List.cons_append, literalEnd_line hline]
      simp only [List.forall_mem_cons]
      tauto
  | case6 c tail hreturn hslash hquote hline ih =>
      have hc : c ≠ '\\' := by
        rintro rfl
        obtain ⟨⟨d, tail', rfl, -⟩, -⟩ := unescaped_slash.mp h
        exact hslash d tail' rfl rfl
      have hhead : literalEnd (c :: (tail ++ '"' :: rest)) =
          (literalEnd (tail ++ '"' :: rest)).map fun found => ([c] ++ found.1, found.2) :=
        literalEnd_cons (fun h => absurd h hc) hquote hline
      rw [List.cons_append, hhead, List.forall_mem_cons, ← ih ((unescaped_cons hc).mp h)]
      refine map_prepend_eq_some_iff.trans ?_
      exact ⟨fun hfound => ⟨⟨hquote, fun h => hline (.inl h), fun h => hline (.inr h)⟩, hfound⟩,
        fun hfound => hfound.2⟩

theorem readLiteral_of_plain {s rest : List Char} (h : Plain s) (hrest : rest.head? ≠ some '"') :
    readLiteral named (s ++ '"' :: rest) = some (points s, rest) := by
  have hsingle : ['"', '"'].isPrefixOf (s ++ '"' :: rest) = false := by
    cases s with
    | nil =>
        cases rest with
        | nil => rfl
        | cons c rest =>
            have hc : c ≠ '"' := fun h => hrest (congrArg some h)
            simp [List.isPrefixOf, hc.symm]
    | cons c s => simp [List.isPrefixOf, (h.inline c List.mem_cons_self).1.symm]
  rw [readLiteral, hsingle, (literalEnd_eq_iff h.unescaped).mpr h.inline]
  simp [denotedFrom_of_unescaped h.unescaped]

theorem eq_of_append_quote {s s' rest rest' : List Char} (hs : '"' ∉ s) (hs' : '"' ∉ s')
    (h : s ++ '"' :: rest = s' ++ '"' :: rest') : rest = rest' := by
  obtain ⟨c, rfl, hc⟩ | ⟨c, rfl, hc⟩ := List.append_eq_append_iff.mp h
  all_goals
    cases c with
    | nil => simp_all
    | cons d c => simp_all

/-- A literal that reads as the text between its quotes is that text, or the quote at its end is
taken along by a backslash. -/
theorem of_readLiteral {s rest after : List Char}
    (h : readLiteral named (s ++ '"' :: rest) = some (points s, after)) :
    Plain s ∧ after = rest ∨ ∃ body, literalEnd rest = some (body, after) := by
  rw [readLiteral] at h
  split at h
  · cases h
  · obtain ⟨⟨body, after'⟩, hfound, h⟩ := Option.bind_eq_some_iff.mp h
    obtain ⟨value, hvalue, h⟩ := Option.bind_eq_some_iff.mp h
    obtain ⟨rfl, rfl⟩ := Prod.mk.inj (Option.some.inj h)
    have hlength := denotedFrom_length hvalue
    cases reads s with
    | @cut first more hs hcut =>
        obtain ⟨rfl, rfl⟩ := Prod.mk.inj (Option.some.inj ((hcut rest).symm.trans hfound))
        rw [hs] at hlength
        simp [points] at hlength
    | broken hbroken => cases (hbroken rest).symm.trans hfound
    | whole hwhole =>
        obtain ⟨rfl, rfl⟩ := Prod.mk.inj (Option.some.inj ((hwhole rest).symm.trans hfound))
        have hunescaped := (denotedFrom_full hvalue (by simp [points])).1
        exact .inl ⟨⟨(literalEnd_eq_iff hunescaped).mp (hwhole rest), hunescaped⟩, rfl⟩
    | unclosed hopen =>
        rw [hopen rest] at hfound
        obtain ⟨found, hfound, hafter⟩ := Option.map_eq_some_iff.mp hfound
        exact .inr ⟨found.1, by rw [hfound, ← (Prod.mk.inj hafter).2]⟩

end Plain

end Ulpf.Python
