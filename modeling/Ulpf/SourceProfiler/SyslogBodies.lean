import Ulpf.ParserRuntime.SyslogBodies
import Ulpf.Python.Numerals
import Ulpf.SourceProfiler.Totality

/-!
The texts of RFC 5424 messages that `Syslog5424Parser.parse` finds. It passes over bracketed
blocks, each up to the first closing bracket.
-/

namespace Ulpf.SourceProfiler

open Ulpf.Lib
open Ulpf.Lib.Regex
open Ulpf.Lib.Text
open Ulpf.Python
open Ulpf.Formats

section Blocks

variable {s t rest after : List Char} {c : Char}

/-- Every closing bracket is the last character, or blanks and an opening bracket follow. -/
def Reopens (s : List Char) : Prop :=
  ∀ b, ']' :: b <:+ s → b = [] ∨ (b.dropWhile (· = ' ')).head? = Option.some '['

theorem reopens_cons_iff : Reopens (c :: s) ↔
    (c = ']' → s = [] ∨ (s.dropWhile (· = ' ')).head? = Option.some '[') ∧ Reopens s := by
  constructor
  · intro h
    refine ⟨?_, fun b hb => h b (hb.trans (List.suffix_cons c s))⟩
    rintro rfl
    exact h s (List.suffix_refl _)
  · rintro ⟨hhead, hrest⟩ b hb
    obtain heq | hsuffix := List.suffix_cons_iff.mp hb
    · obtain ⟨rfl, rfl⟩ := List.cons.inj heq
      exact hhead rfl
    · exact hrest b hsuffix

theorem Reopens.suffix (h : Reopens s) (ht : t <:+ s) : Reopens t := fun b hb => h b (hb.trans ht)

theorem reopens_append_iff (hs : ']' ∉ s) : Reopens (s ++ t) ↔ Reopens t := by
  induction s with
  | nil => rfl
  | cons c s ih =>
      obtain ⟨hc, hs⟩ := not_or.mp (mt List.mem_cons.mpr hs)
      rw [List.cons_append, reopens_cons_iff, ih hs]
      exact and_iff_right fun heq => absurd heq.symm hc

theorem takeBlocks_block (hs : ']' ∉ s) (fuel : ℕ) (rest : List Char) :
    Syslog5424Parser.takeBlocks (fuel + 1) ('[' :: (s ++ ']' :: rest)) =
      (s :: (Syslog5424Parser.takeBlocks fuel (rest.dropWhile (· = ' '))).1,
        (Syslog5424Parser.takeBlocks fuel (rest.dropWhile (· = ' '))).2) := by
  have hopen (x : Char) (hx : x ∈ s) : decide (x ≠ ']') = true := by
    rw [decide_eq_true_iff]
    rintro rfl
    exact hs hx
  have hspan : (s ++ ']' :: rest).span (· ≠ ']') = (s, ']' :: rest) := by
    rw [List.span_eq_takeWhile_dropWhile, List.takeWhile_append_of_pos hopen,
      List.dropWhile_append_of_pos hopen]
    simp
  rw [Syslog5424Parser.takeBlocks]
  simp only [hspan]

theorem takeBlocks_of_not_block (h : rest.head? ≠ Option.some '[' ∨ ']' ∉ rest) (fuel : ℕ) :
    Syslog5424Parser.takeBlocks fuel rest = ([], rest) := by
  cases fuel with
  | zero => rfl
  | succ fuel =>
      unfold Syslog5424Parser.takeBlocks
      split
      · rename_i after
        have hnone : ']' ∉ after := by
          obtain hhead | hnot := h
          · exact absurd rfl hhead
          · exact fun hmem => hnot (List.mem_cons_of_mem _ hmem)
        have hopen (x : Char) (hx : x ∈ after) : decide (x ≠ ']') = true := by
          rw [decide_eq_true_iff]
          rintro rfl
          exact hnone hx
        rw [List.span_eq_takeWhile_dropWhile, List.takeWhile_eq_self_iff.mpr hopen,
          List.dropWhile_eq_nil_iff.mpr hopen]
      · rfl

theorem block_or (rest : List Char) :
    (∃ s t, ']' ∉ s ∧ rest = '[' :: (s ++ ']' :: t)) ∨
      (rest.head? ≠ Option.some '[' ∨ ']' ∉ rest) := by
  cases rest with
  | nil => exact Or.inr (Or.inr (by simp))
  | cons c rest =>
      by_cases hc : c = '['
      · obtain rfl := hc
        by_cases hclose : ']' ∈ rest
        · obtain ⟨s, t, hs, hsplit⟩ := List.eq_append_cons_of_mem hclose
          exact Or.inl ⟨s, t, by simpa using hsplit, by rw [hs]⟩
        · exact Or.inr (Or.inr (by simp [hclose]))
      · exact Or.inr (Or.inl (by simpa using hc))

/-- The blocks a text begins with, and the rest. -/
def leading (rest : List Char) : List (List Char) × List Char :=
  Syslog5424Parser.takeBlocks rest.length rest

theorem takeBlocks_fuel {fuel : ℕ} (h : rest.length ≤ fuel) :
    Syslog5424Parser.takeBlocks fuel rest = leading rest := by
  rw [leading]
  induction hlength : rest.length using Nat.strong_induction_on generalizing rest fuel with
  | _ n ih =>
      obtain ⟨s, t, hs, rfl⟩ | hnot := block_or rest
      · rw [List.length_cons, List.length_append, List.length_cons] at h hlength
        have hle := (List.dropWhile_sublist (p := (· = ' ')) (l := t)).length_le
        obtain ⟨fuel, rfl⟩ : ∃ k, fuel = k + 1 := ⟨fuel - 1, by omega⟩
        obtain ⟨n, rfl⟩ : ∃ k, n = k + 1 := ⟨n - 1, by omega⟩
        rw [takeBlocks_block hs, takeBlocks_block hs,
          @ih _ (by omega) (t.dropWhile (· = ' ')) fuel (by omega) rfl,
          @ih _ (by omega) (t.dropWhile (· = ' ')) n (by omega) rfl]
      · rw [takeBlocks_of_not_block hnot, takeBlocks_of_not_block hnot]

theorem leading_block (hs : ']' ∉ s) (rest : List Char) : leading ('[' :: (s ++ ']' :: rest)) =
    (s :: (leading (rest.dropWhile (· = ' '))).1, (leading (rest.dropWhile (· = ' '))).2) := by
  have hle : (rest.dropWhile (· = ' ')).length ≤ (s ++ ']' :: rest).length := by
    have hdrop := (List.dropWhile_sublist (p := (· = ' ')) (l := rest)).length_le
    rw [List.length_append, List.length_cons]
    omega
  rw [leading, List.length_cons, takeBlocks_block hs, takeBlocks_fuel hle]

theorem leading_of_not_block (h : rest.head? ≠ Option.some '[' ∨ ']' ∉ rest) :
    leading rest = ([], rest) :=
  takeBlocks_of_not_block h _

/-- A block that is not blank. -/
def Solid (block : List Char) : Prop := ∃ c ∈ block, isSpace c = false

/-- Blocks that are not blank, with blanks between them. -/
inductive IsBlocks : List Char → Prop
  | last {s : List Char} : ']' ∉ s → Solid s → IsBlocks ('[' :: (s ++ [']']))
  | cons {s blanks t : List Char} : ']' ∉ s → Solid s → (∀ c ∈ blanks, c = ' ') → IsBlocks t →
      IsBlocks ('[' :: (s ++ ']' :: (blanks ++ t)))

theorem dropWhile_blanks_append {blanks : List Char} (hblanks : ∀ c ∈ blanks, c = ' ')
    (ht : t.head? = Option.some '[') : (blanks ++ t).dropWhile (· = ' ') = t := by
  have hall (c : Char) (hc : c ∈ blanks) : decide (c = ' ') = true := decide_eq_true (hblanks c hc)
  rw [List.dropWhile_append_of_pos hall, dropWhile_eq_self_iff]
  intro c hc
  rw [ht] at hc
  cases hc
  rfl

theorem IsBlocks.head?_eq (h : IsBlocks t) : t.head? = Option.some '[' := by
  cases h with
  | last _ _ => rfl
  | cons _ _ _ _ => rfl

theorem leading_of_isBlocks (h : IsBlocks t) (after : List Char) :
    ∃ blocks, (∀ block ∈ blocks, Solid block) ∧
      leading (t ++ after) = (blocks ++ (leading (after.dropWhile (· = ' '))).1,
        (leading (after.dropWhile (· = ' '))).2) := by
  induction h with
  | @last s hs hsolid =>
      refine ⟨[s], List.forall_mem_singleton.mpr hsolid, ?_⟩
      rw [List.cons_append, List.append_assoc, List.singleton_append, leading_block hs]
      rfl
  | @cons s blanks t hs hsolid hblanks ht ih =>
      obtain ⟨blocks, hblocks, hleading⟩ := ih
      refine ⟨s :: blocks, List.forall_mem_cons.mpr ⟨hsolid, hblocks⟩, ?_⟩
      have hhead : (t ++ after).head? = Option.some '[' := by
        rw [List.head?_append, ht.head?_eq]
        rfl
      rw [List.cons_append, List.append_assoc, List.cons_append, List.append_assoc,
        leading_block hs, dropWhile_blanks_append hblanks hhead, hleading]
      rfl

theorem reopens_dropWhile_iff (s t : List Char) :
    Reopens (s ++ t) ↔ Reopens (s.dropWhile (· = ' ') ++ t) := by
  have hblanks : ']' ∉ s.takeWhile (· = ' ') := fun hmem =>
    absurd (List.mem_takeWhile_imp hmem) (by decide)
  nth_rewrite 1 [← List.takeWhile_append_dropWhile (p := (· = ' ')) (l := s)]
  rw [List.append_assoc, reopens_append_iff hblanks]

/-- Where a bracket does not open again, a part that closes is left. -/
theorem leading_of_not_reopens {inside : List Char} (h : ¬ Reopens ('[' :: (inside ++ [']'])))
    (after : List Char) :
    ∃ left, (leading ('[' :: (inside ++ ']' :: after))).2 = left ++ ']' :: after := by
  induction hlength : inside.length using Nat.strong_induction_on generalizing inside with
  | _ n ih =>
      rw [reopens_cons_iff, and_iff_right fun heq => absurd heq (by decide)] at h
      by_cases hmem : ']' ∈ inside
      · obtain ⟨s, t, rfl, hs⟩ := List.eq_append_cons_of_mem hmem
        rw [List.append_assoc, reopens_append_iff hs, List.cons_append, reopens_cons_iff,
          dropWhile_append_cons rfl, reopens_dropWhile_iff] at h
        rw [List.append_assoc, List.cons_append, leading_block hs, dropWhile_append_cons rfl]
        cases hrest : t.dropWhile (· = ' ') with
        | nil =>
            refine ⟨[], ?_⟩
            rw [leading_of_not_block (Or.inl (by simp))]
        | cons c x =>
            rw [hrest] at h
            by_cases hc : c = '['
            · obtain rfl := hc
              refine ih x.length ?_ (fun hx => h ⟨fun _ => Or.inr rfl, hx⟩) rfl
              have hle := (List.dropWhile_sublist (p := (· = ' ')) (l := t)).length_le
              rw [hrest, List.length_cons] at hle
              rw [← hlength, List.length_append, List.length_cons]
              omega
            · refine ⟨c :: x, ?_⟩
              rw [leading_of_not_block (Or.inl (by simpa using hc))]
      · rw [reopens_append_iff hmem] at h
        refine absurd (fun b hb => ?_) h
        obtain heq | hsuffix := List.suffix_cons_iff.mp hb
        · exact Or.inl (List.cons.inj heq).2
        · exact absurd (List.suffix_nil.mp hsuffix) (by simp)

end Blocks

section Data

variable {s t : List Char} {c : Char}

/-- A text closes every block that has begun and is not blank. -/
def Closes (t : List Char) : Prop := ∀ s, ']' ∉ s → Solid s → IsBlocks ('[' :: (s ++ t))

/-- A text closes every block that has begun. -/
def ClosesBlank (t : List Char) : Prop := ∀ s, ']' ∉ s → IsBlocks ('[' :: (s ++ t))

theorem ClosesBlank.closes (h : ClosesBlank t) : Closes t := fun s hs _ => h s hs

theorem Closes.append (h : Closes t) (hs : ']' ∉ s) : Closes (s ++ t) := by
  rintro first hfirst ⟨c, hc, hspace⟩
  rw [← List.append_assoc]
  refine h _ ?_ ⟨c, List.mem_append_left _ hc, hspace⟩
  rw [List.mem_append, not_or]
  exact ⟨hfirst, hs⟩

theorem Closes.solid_append (h : Closes t) (hs : ']' ∉ s) (hsolid : Solid s) :
    ClosesBlank (s ++ t) := by
  intro first hfirst
  obtain ⟨c, hc, hspace⟩ := hsolid
  rw [← List.append_assoc]
  refine h _ ?_ ⟨c, List.mem_append_right _ hc, hspace⟩
  rw [List.mem_append, not_or]
  exact ⟨hfirst, hs⟩

theorem ClosesBlank.cons (h : ClosesBlank t) (hc : c ≠ ']') : ClosesBlank (c :: t) := by
  intro first hfirst
  rw [List.append_cons]
  apply h
  simp [hfirst, Ne.symm hc]

theorem closes_last : Closes [']'] := fun _ hs hsolid => IsBlocks.last hs hsolid

theorem closes_blocks {blanks : List Char} (hblanks : ∀ c ∈ blanks, c = ' ') (ht : IsBlocks t) :
    Closes (']' :: (blanks ++ t)) := fun _ hs hsolid => IsBlocks.cons hs hsolid hblanks ht

theorem sdValueCode_eq_some_iff {d : Char} :
    sdValueCode c = Option.some d ↔ c = d ∧ (d = '"' ∨ d = '\\' ∨ d = ']') := by
  rw [sdValueCode, Option.ite_none_right_eq_some, Option.some.injEq]
  constructor
  · rintro ⟨hc, rfl⟩
    exact ⟨rfl, hc⟩
  · rintro ⟨rfl, hd⟩
    exact ⟨hd, rfl⟩

theorem exists_blanks_of_head?
    (h : ((escape sdValueCode s ++ '"' :: t).dropWhile (· = ' ')).head? = Option.some '[') :
    ∃ blanks s', (∀ c ∈ blanks, c = ' ') ∧ s = blanks ++ '[' :: s' := by
  induction s with
  | nil =>
      rw [escape_nil, List.nil_append, List.dropWhile_cons_of_neg (by decide)] at h
      exact absurd (Option.some.inj h) (by decide)
  | cons c s ih =>
      cases hcode : sdValueCode c with
      | some d =>
          rw [escape_cons_coded hcode, List.cons_append,
            List.dropWhile_cons_of_neg (by decide)] at h
          exact absurd (Option.some.inj h) (by decide)
      | none =>
          rw [escape_cons_plain hcode, List.cons_append] at h
          by_cases hc : c = ' '
          · rw [List.dropWhile_cons_of_pos (by simpa using hc)] at h
            obtain ⟨blanks, s', hblanks, rfl⟩ := ih h
            exact ⟨c :: blanks, s', List.forall_mem_cons.mpr ⟨hc, hblanks⟩, rfl⟩
          · rw [List.dropWhile_cons_of_neg (by simpa using hc)] at h
            obtain rfl := Option.some.inj h
            exact ⟨[], s, List.forall_mem_nil _, rfl⟩

theorem escape_blanks_append {blanks : List Char} (hblanks : ∀ c ∈ blanks, c = ' ')
    (s : List Char) : escape sdValueCode (blanks ++ '[' :: s) =
      blanks ++ '[' :: escape sdValueCode s := by
  have hplain (c : Char) (hc : c ∈ blanks) : sdValueCode c = none := by
    rw [hblanks c hc]
    rfl
  rw [escape_append, escape_eq_self hplain, escape_cons_plain rfl]

theorem closesBlank_value (hreopens : Reopens (escape sdValueCode s ++ '"' :: t)) (ht : Closes t) :
    ClosesBlank (escape sdValueCode s ++ '"' :: t) := by
  induction hlength : s.length using Nat.strong_induction_on generalizing s with
  | _ n ih =>
      cases s with
      | nil => exact @Closes.solid_append ['"'] t ht (by decide) ⟨'"', by decide, by decide⟩
      | cons c s =>
          have hshorter : s.length < n := by
            rw [← hlength]
            exact Nat.lt_succ_self _
          cases hcode : sdValueCode c with
          | none =>
              have hc : c ≠ ']' := by
                rintro rfl
                exact absurd hcode (by decide)
              rw [escape_cons_plain hcode, List.cons_append] at hreopens ⊢
              exact (ih _ hshorter (reopens_cons_iff.mp hreopens).2 rfl).cons hc
          | some d =>
              obtain ⟨rfl, hd⟩ := sdValueCode_eq_some_iff.mp hcode
              rw [escape_cons_coded hcode, List.cons_append, List.cons_append] at hreopens ⊢
              have hrest := (reopens_cons_iff.mp hreopens).2
              by_cases hc : c = ']'
              · obtain rfl := hc
                have hhead := ((reopens_cons_iff.mp hrest).1 rfl).resolve_left (by simp)
                obtain ⟨blanks, s', hblanks, rfl⟩ := exists_blanks_of_head? hhead
                have hinside : ']' ∉ blanks := fun hmem => absurd (hblanks _ hmem) (by decide)
                rw [List.length_append, List.length_cons] at hshorter
                rw [escape_blanks_append hblanks, List.append_assoc, List.cons_append] at hrest ⊢
                have hlater := (reopens_cons_iff.mp hrest).2
                rw [reopens_append_iff hinside, reopens_cons_iff] at hlater
                have hinner := ih s'.length (by omega) hlater.2 rfl
                have hblocks := hinner [] (by simp)
                exact @Closes.solid_append ['\\'] _ (closes_blocks hblanks hblocks) (by decide)
                  ⟨'\\', by decide, by decide⟩
              · have hinner := ih _ hshorter (reopens_cons_iff.mp hrest).2 rfl
                exact (hinner.cons hc).cons (by decide)

theorem isGraphic_of_isSdNameChar (h : isSdNameChar c = true) :
    isGraphic c = true ∧ c ≠ ']' := by
  simp only [isSdNameChar, Bool.and_eq_true, decide_eq_true_eq] at h
  exact ⟨h.1.1.1, h.1.2⟩

theorem not_mem_name (name : Word isSdNameChar) : ']' ∉ name.text.toList := fun hmem =>
  (isGraphic_of_isSdNameChar (name.chars _ hmem)).2 rfl

theorem closes_params {params : List (Word isSdNameChar × String)}
    (hreopens : Reopens (params.flatMap sdParam ++ t)) (ht : Closes t) :
    Closes (params.flatMap sdParam ++ t) := by
  induction params with
  | nil => exact ht
  | cons param params ih =>
      have hwritten : (param :: params).flatMap sdParam ++ t =
          (' ' :: (param.1.text.toList ++ ['=', '"'])) ++
            (escape sdValueCode param.2.toList ++ '"' :: (params.flatMap sdParam ++ t)) := by
        simp [sdParam]
      have hname : ']' ∉ ' ' :: (param.1.text.toList ++ ['=', '"']) := by
        simp [not_mem_name]
      rw [hwritten, reopens_append_iff hname] at hreopens
      have hlater : Reopens (params.flatMap sdParam ++ t) :=
        hreopens.suffix ((List.suffix_cons _ _).trans (List.suffix_append _ _))
      rw [hwritten]
      exact (closesBlank_value hreopens (ih hlater)).closes.append hname

theorem isSpace_of_isGraphic (h : isGraphic c = true) : isSpace c = false := by
  rw [isGraphic, Bool.and_eq_true, decide_eq_true_iff, decide_eq_true_iff] at h
  rw [isSpace, Unicode.isSpace]
  simp only [Bool.or_eq_false_iff, Bool.and_eq_false_iff, decide_eq_false_iff_not]
  omega

theorem solid_name (name : Word isSdNameChar) : Solid name.text.toList := by
  obtain ⟨c, s, hs⟩ := List.exists_cons_of_ne_nil name.ne_nil
  have hc : c ∈ name.text.toList := by
    rw [hs]
    exact List.mem_cons_self
  exact ⟨c, hc, isSpace_of_isGraphic (isGraphic_of_isSdNameChar (name.chars c hc)).1⟩

theorem isBlocks_element {element : SdElement}
    (hreopens : Reopens (element.params.flatMap sdParam ++ t)) (ht : Closes t) :
    IsBlocks ('[' :: (element.id.text.toList ++ (element.params.flatMap sdParam ++ t))) :=
  closes_params hreopens ht _ (not_mem_name _) (solid_name _)

theorem isBlocks_elements {element : SdElement} {elements : List SdElement}
    (hreopens : Reopens ((element :: elements).flatMap sdElement)) :
    IsBlocks ((element :: elements).flatMap sdElement) := by
  induction elements generalizing element with
  | nil =>
      rw [List.flatMap_singleton, sdElement] at hreopens ⊢
      refine isBlocks_element (hreopens.suffix ?_) closes_last
      exact (List.suffix_append _ _).trans (List.suffix_cons _ _)
  | cons next elements ih =>
      have hwritten : (element :: next :: elements).flatMap sdElement =
          '[' :: (element.id.text.toList ++ (element.params.flatMap sdParam ++
            ']' :: (next :: elements).flatMap sdElement)) := by
        rw [List.flatMap_cons, sdElement]
        simp
      rw [hwritten] at hreopens ⊢
      have hdata := hreopens.suffix ((List.suffix_append _ _).trans (List.suffix_cons _ _))
      have hlater := hdata.suffix ((List.suffix_cons _ _).trans (List.suffix_append _ _))
      exact isBlocks_element hdata
        (@closes_blocks _ [] (List.forall_mem_nil _) (ih hlater))

end Data

section Header

variable {u : Unicode} {m : SyslogMessage} {rest : List Char}

theorem length_numeral_priority (m : SyslogMessage) : (numeral m.priority).toList.length ≤ 3 := by
  rw [toList_numeral, Nat.length_toDigits_le_iff (by decide) (by decide)]
  exact m.priority_le.trans_lt (by decide)

theorem reads_priority (u : Unicode) (m : SyslogMessage) (rest : List Char) :
    Reads (between (digit u) 1 2) (numeral m.priority).toList ('>' :: rest) := by
  have hdigit (c : Char) (hc : c ∈ (numeral m.priority).toList) : (u.decimal c).isSome = true := by
    rw [u.decimal_ascii c (toNat_lt_of_isDigit (isDigit_numeral _ c hc)).1]
    exact isDigit_numeral _ c hc
  have hlength := length_numeral_priority m
  obtain ⟨c, s, hs⟩ := List.exists_cons_of_ne_nil (numeral_ne_nil m.priority)
  rw [hs] at hdigit hlength ⊢
  obtain ⟨hc, hdigits⟩ := List.forall_mem_cons.mp hdigit
  refine (reads_char hc _).seq (reads_upTo_char (Nat.le_of_succ_le_succ hlength) hdigits ?_)
  rintro x ⟨⟩
  rw [u.decimal_ascii '>' (by decide)]
  rfl

theorem reads_word (w : Word isGraphic) (rest : List Char) :
    Reads (some nonSpace) w.text.toList (' ' :: rest) := by
  refine reads_some_char w.ne_nil (fun c hc => ?_) ?_
  · rw [isSpace_of_isGraphic (w.chars c hc)]
    rfl
  · rintro x ⟨⟩
    rfl

theorem reads_blank (hrest : ∀ x ∈ rest.head?, isSpace x = false) : Reads (some space) [' '] rest :=
  reads_some_char (by simp) (List.forall_mem_singleton.mpr rfl) hrest

theorem head?_word (w : Word isGraphic) (t : List Char) :
    ∀ x ∈ (w.text.toList ++ t).head?, isSpace x = false := by
  intro x hx
  rw [List.head?_append_of_ne_nil _ w.ne_nil] at hx
  exact isSpace_of_isGraphic (w.chars x (List.mem_of_mem_head? hx))

theorem exists_matchStart_write (u : Unicode) (m : SyslogMessage)
    (hrest : ∀ x ∈ rest.head?, isSpace x = false) :
    ∃ c, matchStart (syslog5424Hdr u) (m.header ++ rest) = Option.some c ∧
      c.groups = [(7, rest), (6, m.msgId.text.toList), (5, m.procId.text.toList),
        (4, m.appName.text.toList), (3, m.hostname.text.toList), (2, m.timestamp.text.toList),
        (1, (numeral m.priority).toList)] := by
  apply exists_matchStart
  rw [SyslogMessage.header, syslog5424Hdr]
  simp only [search_all_cons, search_all_nil, List.cons_append, List.append_assoc,
    List.nil_append]
  rw [search_start_none]
  apply search_of_reads (reads_text "<" _)
  intro _
  apply search_group_of_reads (reads_priority u m _)
  intro _
  apply search_of_reads (reads_text ">1" _)
  intro _
  apply search_of_reads (reads_blank (head?_word m.timestamp _))
  intro _
  apply search_group_of_reads (reads_word m.timestamp _)
  intro _
  apply search_of_reads (reads_blank (head?_word m.hostname _))
  intro _
  apply search_group_of_reads (reads_word m.hostname _)
  intro _
  apply search_of_reads (reads_blank (head?_word m.appName _))
  intro _
  apply search_group_of_reads (reads_word m.appName _)
  intro _
  apply search_of_reads (reads_blank (head?_word m.procId _))
  intro _
  apply search_group_of_reads (reads_word m.procId _)
  intro _
  apply search_of_reads (reads_blank (head?_word m.msgId _))
  intro _
  apply search_group_of_reads (reads_word m.msgId _)
  intro _
  rw [opt, search_alt]
  refine (congrArg (Option.or · _) ?_).trans (Option.some_or ..)
  rw [search_seq]
  apply search_of_reads (reads_blank hrest)
  intro _
  apply search_group_of_reads_all (reads_many_char (fun _ _ => rfl) (by simp))
  intro _
  rw [search_stopLine_nil]

end Header

section Records

variable {u : Unicode} {m : SyslogMessage} {record record' : Record} {k : String}

theorem get?_addBlock {inner : List Char}
    (h : Syslog5424Parser.addBlock record inner = .ok record') (hk : ∀ t, k ≠ "sd_" ++ t) :
    record'.get? k = record.get? k := by
  rw [Syslog5424Parser.addBlock] at h
  cases hparts : Syslog5424Parser.blockParts inner with
  | none =>
      rw [hparts] at h
      cases h
  | some parts =>
      rw [hparts] at h
      cases h
      have hname (c : Cursor) : "sd_" ++ String.ofList parts.1 ++ "_" ++
          String.ofList (c.groupD 1) ≠ k := by
        rw [String.append_assoc, String.append_assoc]
        exact Ne.symm (hk _)
      refine (Dict.get?_foldl_set_of_ne _ _ _ fun c _ => hname c).trans ?_
      exact Dict.get?_set_of_ne _ _ (Ne.symm (hk _))

theorem get?_foldlM_addBlock {blocks : List (List Char)}
    (h : blocks.foldlM Syslog5424Parser.addBlock record = .ok record') (hk : ∀ t, k ≠ "sd_" ++ t) :
    record'.get? k = record.get? k := by
  induction blocks generalizing record with
  | nil =>
      cases h
      rfl
  | cons block blocks ih =>
      rw [List.foldlM_cons] at h
      cases hblock : Syslog5424Parser.addBlock record block with
      | error e =>
          rw [hblock] at h
          cases h
      | ok next =>
          rw [hblock] at h
          rw [ih h, get?_addBlock hblock hk]

theorem ne_sd_append (hk : ¬ "sd_".toList <+: k.toList) (t : String) : k ≠ "sd_" ++ t := by
  rintro rfl
  rw [String.toList_append] at hk
  exact hk (List.prefix_append _ _)

end Records

section Texts

variable {u : Unicode} {m : SyslogMessage} {record : Record}

/-- `Syslog5424Parser.parse` finds the text of a message, and its priority. -/
def FindsText (u : Unicode) (m : SyslogMessage) : Prop :=
  ∃ record, Syslog5424Parser.parse u m.write = .ok (Option.some record) ∧
    record.get? "message" = Option.some (.str (strip m.text)) ∧
    record.get? "facility" = Option.some (.int (m.priority / 8 : ℕ)) ∧
    record.get? "severity" = Option.some (.int (m.priority % 8 : ℕ))

/-- Every closing bracket but the last is followed by blanks and an opening one, and the text
behind structured data does not begin with a block. -/
structure BlocksEnd (m : SyslogMessage) : Prop where
  data : Reopens m.structuredData
  text : m.elements = [] ∨
    ¬ (((m.textEnd isSpace).dropWhile (· = ' ')).head? = Option.some '[' ∧
      ']' ∈ (m.textEnd isSpace).dropWhile (· = ' '))

/-- The record of a header. -/
def syslogRecord (m : SyslogMessage) : Record :=
  Dict.ofList [("prival", PyVal.int m.priority), ("facility", PyVal.int (m.priority / 8)),
    ("severity", PyVal.int (m.priority % 8)), ("version", PyVal.int 1),
    ("timestamp", Syslog5424Parser.nilValue m.timestamp.text.toList),
    ("hostname", Syslog5424Parser.nilValue m.hostname.text.toList),
    ("app_name", Syslog5424Parser.nilValue m.appName.text.toList),
    ("proc_id", Syslog5424Parser.nilValue m.procId.text.toList),
    ("msg_id", Syslog5424Parser.nilValue m.msgId.text.toList), ("message", .str "")]

theorem parseInt_numeral_priority (u : Unicode) (m : SyslogMessage) :
    parseInt u (String.ofList (numeral m.priority).toList) = Option.some (m.priority : ℤ) :=
  parseInt_digits (numeral_ne_nil _) (decimal?_numeral _)
    ((length_numeral_priority m).trans (by decide))

theorem parse_write (u : Unicode) (m : SyslogMessage) : Syslog5424Parser.parse u m.write =
    if m.structuredData ++ m.behind isSpace = ['-'] then .ok (Option.some (syslogRecord m))
    else if "- ".toList.isPrefixOf (m.structuredData ++ m.behind isSpace) then
      .ok (Option.some ((syslogRecord m).set "message"
        (strVal (stripChars ((m.structuredData ++ m.behind isSpace).drop 2)))))
    else
      ((leading (m.structuredData ++ m.behind isSpace)).1.foldlM Syslog5424Parser.addBlock
        ((syslogRecord m).set "message" (strVal (stripChars
          (leading (m.structuredData ++ m.behind isSpace)).2)))).map Option.some := by
  have hhead (c : Char) (hc : c ∈ (m.structuredData ++ m.behind isSpace).head?) :
      isSpace c = false := by
    obtain rfl | rfl := m.head?_structuredData_append _ c hc
    · rfl
    · rfl
  have htrim : stripChars (m.structuredData ++ m.behind isSpace) =
      m.structuredData ++ m.behind isSpace := m.trim_data rfl rfl rfl
  obtain ⟨c, hc, hgroups⟩ := exists_matchStart_write u m hhead
  have hline : (strip m.write).toList = m.header ++ (m.structuredData ++ m.behind isSpace) := by
    rw [strip, onChars, String.toList_ofList, m.trim_write rfl rfl rfl]
  obtain ⟨h1, h2, h3, h4, h5, h6, h7⟩ : c.groupD 1 = (numeral m.priority).toList ∧
      c.groupD 2 = m.timestamp.text.toList ∧ c.groupD 3 = m.hostname.text.toList ∧
      c.groupD 4 = m.appName.text.toList ∧ c.groupD 5 = m.procId.text.toList ∧
      c.groupD 6 = m.msgId.text.toList ∧
      c.groupD 7 = m.structuredData ++ m.behind isSpace := by
    simp only [Cursor.groupD, Cursor.group?, hgroups]
    exact ⟨rfl, rfl, rfl, rfl, rfl, rfl, rfl⟩
  have hne : (m.structuredData ++ m.behind isSpace).isEmpty = false := by
    simp [m.structuredData_ne_nil]
  rw [Syslog5424Parser.parse, hline, hc]
  simp only [h1, h2, h3, h4, h5, h6, h7, htrim, hne, parseInt_numeral_priority,
    Option.getD_some, Bool.false_eq_true, false_or]
  rfl

theorem toList_strip_text (m : SyslogMessage) :
    (strip m.text).toList = (m.textEnd isSpace).dropWhile isSpace := by
  rw [strip, onChars, String.toList_ofList, trim_eq]
  rfl

theorem stripChars_textEnd (m : SyslogMessage) :
    stripChars (m.textEnd isSpace) = (strip m.text).toList := by
  rw [stripChars, trim_eq, toList_strip_text, SyslogMessage.textEnd, List.rdropWhile_idempotent]

theorem stripChars_dropWhile_textEnd (m : SyslogMessage) :
    stripChars ((m.textEnd isSpace).dropWhile (· = ' ')) = (strip m.text).toList := by
  have hblank (c : Char) (hc : decide (c = ' ') = true) : isSpace c = true := by
    rw [of_decide_eq_true hc]
    rfl
  rw [← stripChars_textEnd]
  show (((m.textEnd isSpace).dropWhile (· = ' ')).dropWhile isSpace).rdropWhile isSpace =
    ((m.textEnd isSpace).dropWhile isSpace).rdropWhile isSpace
  rw [dropWhile_dropWhile_of_imp hblank]

theorem get?_syslogRecord (m : SyslogMessage) :
    (syslogRecord m).get? "facility" = Option.some (.int (m.priority / 8 : ℕ)) ∧
      (syslogRecord m).get? "severity" = Option.some (.int (m.priority % 8 : ℕ)) ∧
        (syslogRecord m).get? "message" = Option.some (.str "") := by
  rw [syslogRecord, Dict.get?_ofList, Dict.get?_ofList, Dict.get?_ofList]
  exact ⟨rfl, rfl, rfl⟩

theorem strVal_strip (text : String) : strVal (strip text).toList = .str (strip text) := by
  rw [strVal, String.ofList_toList]

theorem findsText_of_dash (u : Unicode) (hnil : m.elements = []) : FindsText u m := by
  obtain ⟨hfacility, hseverity, hmessage⟩ := get?_syslogRecord m
  have hdata : m.structuredData = ['-'] := by
    rw [SyslogMessage.structuredData, hnil]
    rfl
  have hparse := parse_write u m
  rw [hdata, SyslogMessage.behind_eq rfl] at hparse
  split at hparse
  · rename_i hend
    rw [if_pos (List.append_nil _)] at hparse
    refine ⟨_, hparse, ?_, hfacility, hseverity⟩
    rw [hmessage, ← strVal_strip, toList_strip_text, hend]
    rfl
  · rename_i hend
    rw [if_neg (by simp), if_pos (by simp)] at hparse
    refine ⟨_, hparse, ?_, ?_, ?_⟩
    · rw [Dict.get?_set_self]
      show Option.some (strVal (stripChars (m.textEnd isSpace))) = _
      rw [stripChars_textEnd, strVal_strip]
    · rw [Dict.get?_set_of_ne _ _ (by decide), hfacility]
    · rw [Dict.get?_set_of_ne _ _ (by decide), hseverity]

theorem parse_write_bracket (u : Unicode) (hne : m.elements ≠ []) :
    Syslog5424Parser.parse u m.write =
      ((leading (m.structuredData ++ m.behind isSpace)).1.foldlM Syslog5424Parser.addBlock
        ((syslogRecord m).set "message" (strVal (stripChars
          (leading (m.structuredData ++ m.behind isSpace)).2)))).map Option.some := by
  obtain ⟨-, hnil⟩ | ⟨-, inside, hdata⟩ := m.structuredData_eq
  · exact absurd hnil hne
  · rw [parse_write, if_neg (by simp [hdata]), if_neg (by simp [hdata])]

theorem stripChars_ne_nil_of_solid {block : List Char} (h : Solid block) :
    stripChars block ≠ [] := by
  obtain ⟨c, hc, hspace⟩ := h
  rw [stripChars, ne_eq, trim_eq_nil_iff]
  intro hall
  rw [hall c hc] at hspace
  cases hspace

theorem leading_of_findsText (hne : m.elements ≠ []) (h : FindsText u m) :
    stripChars (leading (m.structuredData ++ m.behind isSpace)).2 = (strip m.text).toList := by
  obtain ⟨record, hparse, hmessage, -⟩ := h
  rw [parse_write_bracket u hne] at hparse
  cases hfold : (leading (m.structuredData ++ m.behind isSpace)).1.foldlM
      Syslog5424Parser.addBlock ((syslogRecord m).set "message" (strVal (stripChars
        (leading (m.structuredData ++ m.behind isSpace)).2))) with
  | error e =>
      rw [hfold] at hparse
      cases hparse
  | ok final =>
      rw [hfold] at hparse
      cases hparse
      rw [get?_foldlM_addBlock hfold (ne_sd_append (by decide)), Dict.get?_set_self,
        ← strVal_strip] at hmessage
      exact String.ofList_injective (Json.str.inj (Option.some.inj hmessage))

theorem findsText_of_leading (u : Unicode) (hne : m.elements ≠ [])
    (hsolid : ∀ block ∈ (leading (m.structuredData ++ m.behind isSpace)).1, Solid block)
    (hbody : stripChars (leading (m.structuredData ++ m.behind isSpace)).2 =
      (strip m.text).toList) : FindsText u m := by
  obtain ⟨hfacility, hseverity, -⟩ := get?_syslogRecord m
  have hreturns : Returns ((leading (m.structuredData ++ m.behind isSpace)).1.foldlM
      Syslog5424Parser.addBlock
        ((syslogRecord m).set "message" (strVal (strip m.text).toList))) := by
    have hiff : Returns ((leading (m.structuredData ++ m.behind isSpace)).1.foldlM
        Syslog5424Parser.addBlock
          ((syslogRecord m).set "message" (strVal (strip m.text).toList))) ↔
        ∀ block ∈ (leading (m.structuredData ++ m.behind isSpace)).1, stripChars block ≠ [] := by
      apply returns_foldlM_iff
      intro record block _
      exact Syslog5424Parser.returns_addBlock_iff
    exact hiff.mpr fun block hblock => stripChars_ne_nil_of_solid (hsolid block hblock)
  obtain ⟨record, hrecord⟩ := hreturns
  have hkept (k : String) (hk : ¬ "sd_".toList <+: k.toList) :
      record.get? k = ((syslogRecord m).set "message" (strVal (strip m.text).toList)).get? k :=
    get?_foldlM_addBlock hrecord (ne_sd_append hk)
  refine ⟨record, ?_, ?_, ?_, ?_⟩
  · rw [parse_write_bracket u hne, hbody, hrecord]
    rfl
  · rw [hkept _ (by decide), Dict.get?_set_self, strVal_strip]
  · rw [hkept _ (by decide), Dict.get?_set_of_ne _ _ (by decide), hfacility]
  · rw [hkept _ (by decide), Dict.get?_set_of_ne _ _ (by decide), hseverity]

theorem leading_suffix (rest : List Char) : (leading rest).2 <:+ rest := by
  induction hlength : rest.length using Nat.strong_induction_on generalizing rest with
  | _ n ih =>
      obtain ⟨s, t, hs, rfl⟩ | hnot := block_or rest
      · have hdrop : t.dropWhile (· = ' ') <:+ t := List.dropWhile_suffix _
        have hshorter : (t.dropWhile (· = ' ')).length < n := by
          have hle := hdrop.length_le
          rw [← hlength, List.length_cons, List.length_append, List.length_cons]
          omega
        rw [leading_block hs]
        have hblock : t <:+ '[' :: (s ++ ']' :: t) :=
          ((List.suffix_cons _ _).trans (List.suffix_append _ _)).trans (List.suffix_cons _ _)
        exact (ih _ hshorter _ rfl).trans (hdrop.trans hblock)
      · rw [leading_of_not_block hnot]

theorem length_strip_text_le (m : SyslogMessage) :
    (strip m.text).toList.length ≤ (m.behind isSpace).length := by
  rw [toList_strip_text]
  exact (List.dropWhile_sublist _).length_le.trans (m.length_textEnd_le rfl)

theorem reopens_of_findsText (hne : m.elements ≠ []) (h : FindsText u m) :
    Reopens m.structuredData := by
  by_contra hnot
  obtain ⟨-, hnil⟩ | ⟨-, inside, hdata⟩ := m.structuredData_eq
  · exact hne hnil
  · rw [hdata] at hnot
    obtain ⟨left, hleft⟩ := leading_of_not_reopens hnot (m.behind isSpace)
    have hkept : (left ++ ']' :: m.behind isSpace).rdropWhile isSpace =
        left ++ ']' :: m.behind isSpace := by
      rw [rdropWhile_eq_self_iff, List.append_cons]
      intro c hc
      rw [List.getLast?_append] at hc
      obtain hc | ⟨-, hc⟩ := Option.or_eq_some_iff.mp hc
      · exact rdropWhile_eq_self_iff.mp (List.rdropWhile_idempotent ..) c hc
      · rw [List.getLast?_concat] at hc
        cases hc
        rfl
    have hbody := leading_of_findsText hne h
    rw [hdata, List.cons_append, List.append_assoc, List.singleton_append, hleft, stripChars,
      trim_eq, hkept, dropWhile_append_cons rfl] at hbody
    have hlength := congrArg List.length hbody
    have hle := length_strip_text_le m
    rw [List.length_append, List.length_cons] at hlength
    omega

theorem not_block_of_findsText (hne : m.elements ≠ []) (hblocks : IsBlocks m.structuredData)
    (h : FindsText u m) : ¬ (((m.textEnd isSpace).dropWhile (· = ' ')).head? = Option.some '[' ∧
      ']' ∈ (m.textEnd isSpace).dropWhile (· = ' ')) := by
  rintro ⟨hopen, hclose⟩
  obtain ⟨blocks, -, hleading⟩ := leading_of_isBlocks hblocks (m.behind isSpace)
  have hbody := leading_of_findsText hne h
  rw [hleading, SyslogMessage.dropWhile_behind rfl rfl] at hbody
  have hblank (c : Char) (hc : decide (c = ' ') = true) : isSpace c = true := by
    rw [of_decide_eq_true hc]
    rfl
  have hwhole : (m.textEnd isSpace).dropWhile (· = ' ') = (strip m.text).toList := by
    rw [toList_strip_text, dropWhile_eq_dropWhile_iff hblank]
    intro c hc
    rw [hopen] at hc
    cases hc
    rfl
  rw [← hwhole] at hbody
  obtain ⟨s, t, hs, hsplit⟩ | hnot := block_or ((m.textEnd isSpace).dropWhile (· = ' '))
  · rw [hsplit, leading_block hs] at hbody
    dsimp only at hbody
    have hlength := congrArg List.length hbody
    have hstrip := length_trim_le isSpace (leading (t.dropWhile (· = ' '))).2
    have hsuffix := (leading_suffix (t.dropWhile (· = ' '))).length_le
    have hdrop := (List.dropWhile_sublist (p := (· = ' ')) (l := t)).length_le
    rw [List.length_cons, List.length_append, List.length_cons] at hlength
    rw [stripChars] at hlength
    omega
  · exact hnot.elim (fun hhead => hhead hopen) fun hmem => hmem hclose

theorem isBlocks_structuredData (hne : m.elements ≠ []) (h : Reopens m.structuredData) :
    IsBlocks m.structuredData := by
  obtain ⟨element, elements, helements⟩ := List.exists_cons_of_ne_nil hne
  rw [SyslogMessage.structuredData, helements, if_neg (by simp)] at h ⊢
  exact isBlocks_elements h

theorem findsText_iff (u : Unicode) (m : SyslogMessage) : FindsText u m ↔ BlocksEnd m := by
  by_cases hnil : m.elements = []
  · refine iff_of_true (findsText_of_dash u hnil) ⟨?_, Or.inl hnil⟩
    rw [SyslogMessage.structuredData, hnil]
    intro b hb
    have hmem := hb.subset List.mem_cons_self
    simp at hmem
  · constructor
    · intro h
      have hreopens := reopens_of_findsText hnil h
      have hblocks := isBlocks_structuredData hnil hreopens
      exact ⟨hreopens, Or.inr (not_block_of_findsText hnil hblocks h)⟩
    · intro h
      have hblocks := isBlocks_structuredData hnil h.data
      have hnot := h.text.resolve_left hnil
      rw [not_and_or] at hnot
      obtain ⟨blocks, hsolid, hleading⟩ := leading_of_isBlocks hblocks (m.behind isSpace)
      rw [SyslogMessage.dropWhile_behind rfl rfl, leading_of_not_block hnot] at hleading
      apply findsText_of_leading u hnil
      · rw [hleading, List.append_nil]
        exact hsolid
      · rw [hleading]
        exact stripChars_dropWhile_textEnd m

end Texts

section Bodies

/-- Both parsers find the text of a message, its facility and its severity. -/
def RecoversBody (u : Unicode) (m : SyslogMessage) : Prop :=
  ParserRuntime.FindsText m ∧ FindsText u m

theorem recoversBody_iff (u : Unicode) (m : SyslogMessage) :
    RecoversBody u m ↔ ParserRuntime.HasPlainText m ∧ BlocksEnd m :=
  and_congr (ParserRuntime.findsText_iff m) (findsText_iff u m)

/-- A message with a closing bracket in a parameter value. -/
def escapedBracket : SyslogMessage where
  priority := 165
  priority_le := by decide
  timestamp := ⟨"2024-01-01T00:00:00Z", by decide, List.all_eq_true.mp (by decide)⟩
  hostname := ⟨"web", by decide, List.all_eq_true.mp (by decide)⟩
  appName := ⟨"app", by decide, List.all_eq_true.mp (by decide)⟩
  procId := ⟨"-", by decide, List.all_eq_true.mp (by decide)⟩
  msgId := ⟨"-", by decide, List.all_eq_true.mp (by decide)⟩
  elements := [⟨⟨"id", by decide, List.all_eq_true.mp (by decide)⟩,
    [(⟨"list", by decide, List.all_eq_true.mp (by decide)⟩, "x]y")]⟩]
  text := "hello"

theorem not_recoversBody_escapedBracket :
    ¬ ∀ (u : Unicode) (m : SyslogMessage), RecoversBody u m := by
  intro hall
  have hplain := (ParserRuntime.findsText_iff escapedBracket).mp
    (hall Unicode.ascii escapedBracket).1
  have hone := (hplain.data.resolve_left (by decide)).2
  revert hone
  decide

end Bodies

end Ulpf.SourceProfiler
