import Ulpf.Formats.Syslog
import Ulpf.Lib.RegexSearch
import Ulpf.ParserRuntime.BodyParsers

/-!
The texts of RFC 5424 messages that `ParseSyslog` finds. Its pattern takes the first closing
bracket from which the rest of the message is one line.
-/

namespace Ulpf.ParserRuntime

open Ulpf.Lib
open Ulpf.Lib.Unicode (isSpace)
open Ulpf.Lib.Regex
open Ulpf.Lib.Text
open Ulpf.Go
open Ulpf.Formats

section Header

variable {α : Type} {k : Cursor → Option α} {before : Option Char} {c : Char}
  {rest : List Char} {groups : List (ℕ × List Char)}

theorem not_isRegexSpace_of_isGraphic (h : isGraphic c = true) : isRegexSpace c = false := by
  rw [isGraphic, Bool.and_eq_true, decide_eq_true_iff, decide_eq_true_iff] at h
  rw [isRegexSpace]
  simp only [Bool.or_eq_false_iff, decide_eq_false_iff_not]
  refine ⟨⟨⟨⟨?_, ?_⟩, ?_⟩, ?_⟩, ?_⟩
  all_goals
    rintro rfl
    exact absurd h (by decide)

theorem isGraphic_of_isDigit (h : isDigit c = true) : isGraphic c = true := by
  rw [isDigit, digit?] at h
  split at h
  · rename_i hrange
    have hlower : 48 ≤ c.toNat := hrange.1
    have hupper : c.toNat ≤ 57 := hrange.2
    rw [isGraphic, Bool.and_eq_true, decide_eq_true_iff, decide_eq_true_iff]
    omega
  · cases h

theorem search_word {i : ℕ} (w : Word isGraphic) (hrest : ∀ x ∈ rest.head?, isRegexSpace x = false)
    (hk : Rejects isRegexSpace k) : ∃ before',
      search (seq (group i solid) blanks) k ⟨before, w.text.toList ++ ' ' :: rest, groups⟩ =
        k ⟨before', rest, (i, w.text.toList) :: groups⟩ := by
  have hsolid (x : Char) (hx : x ∈ w.text.toList) : (!isRegexSpace x) = true := by
    rw [not_isRegexSpace_of_isGraphic (w.chars x hx)]
    rfl
  have hblank : ∀ x ∈ (' ' :: rest).head?, (!isRegexSpace x) = false := by
    rintro x ⟨⟩
    rfl
  obtain ⟨before₁, hword⟩ := @search_group_some_char _ w.text.toList (' ' :: rest)
    (search blanks k) before groups (fun x => !isRegexSpace x) i w.ne_nil hsolid hblank
    (rejects_some_char (by simp) k)
  obtain ⟨before₂, hblanks⟩ := @search_some_char _ [' '] rest k before₁
    ((i, w.text.toList) :: groups) isRegexSpace (by simp) (List.forall_mem_singleton.mpr rfl)
    hrest hk
  refine ⟨before₂, ?_⟩
  rw [search_seq]
  exact hword.trans hblanks

/-- The pattern from the structured data on. -/
def syslogRest : Regex :=
  all [alt (all [text "[", group 8 (star false (char (· ≠ '\n'))), text "]"]) (text "-"),
    many (char isRegexSpace), group 9 restOfLine, stop]

def headerGroups (m : SyslogMessage) : List (ℕ × List Char) :=
  [(7, m.msgId.text.toList), (6, m.procId.text.toList), (5, m.appName.text.toList),
    (4, m.hostname.text.toList), (3, m.timestamp.text.toList), (2, ['1']),
    (1, (numeral m.priority).toList)]

theorem rejects_syslogRest (k : Cursor → Option α) :
    Rejects isRegexSpace (search syslogRest k) := by
  have hne (d : Char) (hd : isRegexSpace d = false) (x : Char) (hx : isRegexSpace x = true) :
      decide (x = d) = false := by
    rw [decide_eq_false_iff_not]
    rintro rfl
    rw [hd] at hx
    cases hx
  rw [syslogRest, search_all_cons]
  apply Rejects.alt
  · exact (rejects_char (hne '[' (by decide)) _).seq
  · exact rejects_char (hne '-' (by decide)) _

theorem ne_greater_of_isDigit {x : Char} (hx : isDigit x = true) : decide (x = '>') = false := by
  rw [decide_eq_false_iff_not]
  rintro rfl
  exact absurd hx (by decide)

theorem search_header (m : SyslogMessage) (hrest : ∀ x ∈ rest.head?, isRegexSpace x = false)
    (k : Cursor → Option α) : ∃ before, search syslog5424Regex k ⟨none, m.header ++ rest, []⟩ =
      search syslogRest k ⟨before, rest, headerGroups m⟩ := by
  have hhead (w : Word isGraphic) (t : List Char) :
      ∀ x ∈ (w.text.toList ++ t).head?, isRegexSpace x = false := by
    intro x hx
    rw [List.head?_append_of_ne_nil _ w.ne_nil] at hx
    exact not_isRegexSpace_of_isGraphic (w.chars x (List.mem_of_mem_head? hx))
  have hword (i : ℕ) (k : Cursor → Option α) :
      Rejects isRegexSpace (search (seq (group i solid) blanks) k) := by
    refine (rejects_group (fun k => rejects_some_char ?_ k) _).seq
    intro x hx
    rw [hx]
    rfl
  have hdigits (k : Cursor → Option α) : Rejects isDigit (search blanks k) := by
    refine rejects_some_char ?_ k
    intro x hx
    exact not_isRegexSpace_of_isGraphic (isGraphic_of_isDigit hx)
  rw [SyslogMessage.header, syslog5424Regex, syslogRest]
  simp only [search_all_cons, List.cons_append, List.append_assoc, List.nil_append]
  refine search_trans (search_text "<" _ _ none []) fun _ => ?_
  refine search_trans (search_group_some_char (numeral_ne_nil _) (isDigit_numeral _) ?_ ?_)
    fun _ => ?_
  · rintro x ⟨⟩
    rfl
  · exact rejects_char (fun x => ne_greater_of_isDigit) _
  refine search_trans (search_text ">" _ _ _ _) fun _ => ?_
  refine search_trans (search_group_some_char (s := ['1']) (by simp)
    (List.forall_mem_singleton.mpr rfl) ?_ (hdigits _)) fun _ => ?_
  · rintro x ⟨⟩
    rfl
  refine search_trans (search_some_char (s := [' ']) (by simp)
    (List.forall_mem_singleton.mpr rfl) (hhead _ _) (hword _ _)) fun _ => ?_
  refine search_trans (search_word _ (hhead _ _) (hword _ _)) fun _ => ?_
  refine search_trans (search_word _ (hhead _ _) (hword _ _)) fun _ => ?_
  refine search_trans (search_word _ (hhead _ _) (hword _ _)) fun _ => ?_
  refine search_trans (search_word _ (hhead _ _) (hword _ _)) fun _ => ?_
  have hlast := rejects_syslogRest k
  rw [syslogRest] at hlast
  simp only [search_all_cons] at hlast
  exact search_word _ hrest hlast

end Header

section Rest

variable {before : Option Char} {s rest : List Char} {groups : List (ℕ × List Char)}

/-- The pattern behind the structured data: blanks, and a text of one line. -/
def textLine : Regex := all [many (char isRegexSpace), group 9 restOfLine, stop]

theorem not_mem_of_mem_run_textLine {m c : Cursor} (h : m ∈ run textLine c) :
    '\n' ∉ c.rest.dropWhile isRegexSpace := by
  obtain ⟨c₁, h₁, hlater⟩ := List.mem_flatMap.mp h
  obtain ⟨c₂, h₂, hstop⟩ := List.mem_flatMap.mp hlater
  obtain ⟨blanks, hblanks, hall, -⟩ := exists_of_mem_run_star h₁
  obtain ⟨-, next, hnext, -, hrest, -⟩ := exists_of_mem_run_group h₂
  obtain ⟨line, hline, hsingle, -⟩ := exists_of_mem_run_star hnext
  have hend : c₂.rest = [] := by
    change m ∈ run stop c₂ at hstop
    rw [run] at hstop
    split at hstop
    · rename_i hempty
      exact List.isEmpty_iff.mp hempty
    · cases hstop
  rw [← hrest, hend, List.append_nil] at hline
  rw [hblanks, List.dropWhile_append_of_pos hall, hline]
  intro hmem
  have hlf := hsingle _ ((List.dropWhile_sublist _).subset hmem)
  simp at hlf

theorem search_textLine : search textLine (fun c => Option.some c.groups) ⟨before, rest, groups⟩ =
    if '\n' ∈ rest.dropWhile isRegexSpace then none
    else Option.some ((9, rest.dropWhile isRegexSpace) :: groups) := by
  split
  · rename_i hlf
    rw [Option.eq_none_iff_forall_ne_some]
    intro a ha
    obtain ⟨m, hm, -⟩ := exists_of_search_eq_some ha
    exact not_mem_of_mem_run_textLine hm hlf
  · rename_i hlf
    have hdrop : ∀ x ∈ (rest.dropWhile isRegexSpace).head?, isRegexSpace x = false :=
      of_mem_head?_dropWhile
    have hline (x : Char) (hx : x ∈ rest.dropWhile isRegexSpace) : decide (x ≠ '\n') = true := by
      rw [decide_eq_true_iff]
      rintro rfl
      exact hlf hx
    rw [textLine]
    simp only [search_all_cons, search_all_nil]
    nth_rewrite 1 [← List.takeWhile_append_dropWhile (p := isRegexSpace) (l := rest)]
    apply search_of_reads (reads_many_char (fun x hx => List.mem_takeWhile_imp hx) hdrop)
    intro _
    apply search_group_of_reads_all (reads_many_char hline (by simp))
    intro _
    rw [search_stop]
    rfl

theorem syslogRest_eq : syslogRest = seq (alt (all [text "[",
    group 8 (star false (char (· ≠ '\n'))), text "]"]) (text "-")) textLine := rfl

theorem search_syslogRest_dash :
    search syslogRest (fun c => Option.some c.groups) ⟨before, '-' :: rest, groups⟩ =
      if '\n' ∈ rest.dropWhile isRegexSpace then none
      else Option.some ((9, rest.dropWhile isRegexSpace) :: groups) := by
  have hbracket (k : Cursor → Option (List (ℕ × List Char))) : search (all [text "[",
      group 8 (star false (char (· ≠ '\n'))), text "]"]) k ⟨before, '-' :: rest, groups⟩ = none :=
    search_of_stuck ((stuck_char (by rintro x ⟨⟩; rfl)).seq _)
  obtain ⟨before', hdash⟩ := search_text "-" rest (search textLine fun c => Option.some c.groups)
    before groups
  rw [syslogRest_eq, search_seq, search_alt, hbracket, Option.none_or]
  exact hdash.trans search_textLine

/-- Structured data can end at a closing bracket in front of a text of one line. -/
structure EndsAt (s rest : List Char) : Prop where
  inside : '\n' ∉ s
  line : '\n' ∉ rest.dropWhile isRegexSpace

theorem search_syslogRest_bracket (hends : EndsAt s rest)
    (hfirst : ∀ s₁ s₂, s = s₁ ++ ']' :: s₂ → ¬ EndsAt s₁ (s₂ ++ ']' :: rest)) :
    search syslogRest (fun c => Option.some c.groups)
      ⟨before, '[' :: (s ++ ']' :: rest), groups⟩ =
        Option.some ((9, rest.dropWhile isRegexSpace) :: (8, s) :: groups) := by
  have hchar (x : Char) (hx : x ∈ s) : decide (x ≠ '\n') = true := by
    rw [decide_eq_true_iff]
    rintro rfl
    exact hends.inside hx
  rw [syslogRest_eq, search_seq, search_alt]
  refine (congrArg (Option.or · _) ?_).trans (Option.some_or ..)
  simp only [search_all_cons, search_all_nil]
  apply search_of_reads (reads_text "[" _)
  intro _
  apply search_group_lazy_char hchar
  · intro before captured s₁ s₂ hsplit hne
    obtain ⟨x, s₂, rfl⟩ := List.exists_cons_of_ne_nil hne
    by_cases hx : x = ']'
    · obtain rfl := hx
      obtain ⟨before', hclose⟩ := search_text "]" (s₂ ++ ']' :: rest)
        (search textLine fun c => Option.some c.groups) before ((8, captured) :: groups)
      have hlf : '\n' ∈ (s₂ ++ ']' :: rest).dropWhile isRegexSpace := by
        by_contra hline
        refine hfirst s₁ s₂ hsplit ⟨fun hmem => hends.inside ?_, hline⟩
        rw [hsplit]
        exact List.mem_append_left _ hmem
      refine hclose.trans ?_
      rw [search_textLine, if_pos hlf]
    · refine search_of_stuck (stuck_char ?_)
      rintro y ⟨⟩
      rw [decide_eq_false_iff_not]
      exact hx
  · intro before
    obtain ⟨before', hclose⟩ := search_text "]" rest
      (search textLine fun c => Option.some c.groups) before ((8, s) :: groups)
    refine hclose.trans ?_
    rw [search_textLine, if_neg hends.line]

theorem exists_first_end {text : List Char} (hends : EndsAt s rest)
    (htext : text = s ++ ']' :: rest) :
    ∃ s rest, text = s ++ ']' :: rest ∧ EndsAt s rest ∧
      ∀ s₁ s₂, s = s₁ ++ ']' :: s₂ → ¬ EndsAt s₁ (s₂ ++ ']' :: rest) := by
  induction hlength : s.length using Nat.strong_induction_on generalizing s rest with
  | _ n ih =>
      by_cases hearlier : ∃ s₁ s₂, s = s₁ ++ ']' :: s₂ ∧ EndsAt s₁ (s₂ ++ ']' :: rest)
      · obtain ⟨s₁, s₂, hsplit, hends₁⟩ := hearlier
        refine ih s₁.length ?_ hends₁ ?_ rfl
        · rw [← hlength, hsplit, List.length_append, List.length_cons]
          omega
        · rw [htext, hsplit, List.append_assoc, List.cons_append]
      · refine ⟨s, rest, htext, hends, ?_⟩
        intro s₁ s₂ hsplit hends₁
        exact hearlier ⟨s₁, s₂, hsplit, hends₁⟩

theorem exists_of_search_syslogRest {text : List Char} {found : List (ℕ × List Char)}
    (h : search syslogRest (fun c => Option.some c.groups) ⟨before, '[' :: text, groups⟩ =
      Option.some found) :
    ∃ s rest, text = s ++ ']' :: rest ∧ EndsAt s rest ∧
      (∀ s₁ s₂, s = s₁ ++ ']' :: s₂ → ¬ EndsAt s₁ (s₂ ++ ']' :: rest)) ∧
        found = (9, rest.dropWhile isRegexSpace) :: (8, s) :: groups := by
  obtain ⟨m, hm, -⟩ := exists_of_search_eq_some h
  have hsplit : ∃ s rest, text = s ++ ']' :: rest ∧ EndsAt s rest := by
    obtain ⟨c₁, halt, hline⟩ := List.mem_flatMap.mp hm
    obtain hbracket | hdash := List.mem_append.mp halt
    · obtain ⟨a₁, h₁, hlater⟩ := List.mem_flatMap.mp hbracket
      obtain ⟨a₂, h₂, h₃⟩ := List.mem_flatMap.mp hlater
      obtain ⟨_, _, hopen, -⟩ := mem_run_char.mp h₁
      obtain ⟨_, next, hnext, -, hgroup, -⟩ := exists_of_mem_run_group h₂
      obtain ⟨s, hs, hchars, -⟩ := exists_of_mem_run_star hnext
      change c₁ ∈ run (char (· = ']')) a₂ at h₃
      obtain ⟨x, hx, hclose, -⟩ := mem_run_char.mp h₃
      refine ⟨s, c₁.rest, ?_, ?_, not_mem_of_mem_run_textLine hline⟩
      · rw [(List.cons.inj hopen).2, hs, ← hgroup, hclose, of_decide_eq_true hx]
      · intro hlf
        have hno := hchars _ hlf
        simp at hno
    · change c₁ ∈ run (char (· = '-')) _ at hdash
      obtain ⟨x, hx, hopen, -⟩ := mem_run_char.mp hdash
      rw [of_decide_eq_true hx] at hopen
      exact absurd (List.cons.inj hopen).1 (by decide)
  obtain ⟨s, rest, htext, hends⟩ := hsplit
  obtain ⟨s, rest, rfl, hends, hfirst⟩ := exists_first_end hends htext
  rw [search_syslogRest_bracket hends hfirst] at h
  exact ⟨s, rest, rfl, hends, hfirst, (Option.some.inj h).symm⟩

end Rest

section Texts

/-- `ParseSyslog` finds the text of a message, and its priority. -/
def FindsText (m : SyslogMessage) : Prop :=
  ∃ fields, parseSyslog m.write = (fields, trimSpace m.text) ∧
    fields.get? "facility" = Option.some (.num (.int (m.priority / 8 : ℕ))) ∧
    fields.get? "severity" = Option.some (.num (.int (m.priority % 8 : ℕ)))

/-- The text is one line whose first character is no space to Go, and the structured data is
one line with one closing bracket, or the line feed is in front of the text. -/
structure HasPlainText (m : SyslogMessage) : Prop where
  line : '\n' ∉ (m.textEnd isSpace).dropWhile isRegexSpace
  head : ∀ c ∈ ((m.textEnd isSpace).dropWhile isRegexSpace).head?, isSpace c = false
  data : m.elements = [] ∨ '\n' ∉ m.structuredData ∧
    (m.structuredData.count ']' = 1 ∨ '\n' ∈ (m.textEnd isSpace).takeWhile isRegexSpace)

variable {m : SyslogMessage}

theorem mem_takeWhile_behind (m : SyslogMessage) :
    '\n' ∈ (m.behind isSpace).takeWhile isRegexSpace ↔
      '\n' ∈ (m.textEnd isSpace).takeWhile isRegexSpace := by
  rw [SyslogMessage.behind_eq rfl]
  split
  · rename_i h
    rw [h]
  · rw [List.takeWhile_cons_of_pos (by decide), List.mem_cons]
    exact or_iff_right (by decide)

theorem trimmed_write (m : SyslogMessage) : trim isSpace m.write.toList =
    m.header ++ (m.structuredData ++ m.behind isSpace) :=
  m.trim_write (by decide) (by decide) (by decide)

theorem toList_trimSpace_text (m : SyslogMessage) :
    (trimSpace m.text).toList = (m.textEnd isSpace).dropWhile isSpace := by
  rw [trimSpace, onChars, String.toList_ofList, trim_eq]
  rfl

theorem isSpace_of_isRegexSpace {c : Char} (h : isRegexSpace c = true) :
    isSpace c = true := by
  rw [isRegexSpace] at h
  simp only [Bool.or_eq_true, decide_eq_true_eq] at h
  obtain (((rfl | rfl) | rfl) | rfl) | rfl := h
  all_goals decide

/-- The line behind the blanks is the trimmed text where Go trims no more than that. -/
theorem dropWhile_eq_trimSpace_iff (m : SyslogMessage) :
    (m.behind isSpace).dropWhile isRegexSpace = (trimSpace m.text).toList ↔
      ∀ c ∈ ((m.textEnd isSpace).dropWhile isRegexSpace).head?, isSpace c = false := by
  rw [SyslogMessage.dropWhile_behind rfl rfl, toList_trimSpace_text]
  exact dropWhile_eq_dropWhile_iff fun c => isSpace_of_isRegexSpace

theorem map_groups_matchStart_write (m : SyslogMessage) : ∃ before,
    (matchStart syslog5424Regex
        (m.header ++ (m.structuredData ++ m.behind isSpace))).map Cursor.groups =
      search syslogRest (fun c => Option.some c.groups)
        ⟨before, m.structuredData ++ m.behind isSpace, headerGroups m⟩ := by
  rw [map_groups_matchStart]
  apply search_header
  intro x hx
  obtain rfl | rfl := m.head?_structuredData_append _ x hx
  · rfl
  · rfl

theorem matchStart_syslog3164Regex (m : SyslogMessage) (rest : List Char) :
    matchStart syslog3164Regex (m.header ++ rest) = none := by
  rw [matchStart_eq_search, SyslogMessage.header, syslog3164Regex]
  simp only [search_all_cons, List.cons_append, List.append_assoc]
  refine search_eq_none (search_text "<" _ _ none []) fun _ => ?_
  refine search_eq_none (search_group_some_char (numeral_ne_nil _) (isDigit_numeral _) ?_ ?_)
    fun _ => ?_
  · rintro x ⟨⟩
    rfl
  · exact rejects_char (fun x => ne_greater_of_isDigit) _
  refine search_eq_none (search_text ">" _ _ _ _) fun _ => ?_
  have hletter : Stuck letter ('1' :: ' ' :: (m.timestamp.text.toList ++ ' ' ::
      (m.hostname.text.toList ++ ' ' :: (m.appName.text.toList ++ ' ' ::
        (m.procId.text.toList ++ ' ' :: (m.msgId.text.toList ++ ' ' :: rest)))))) := by
    intro before groups
    rfl
  exact search_of_stuck (((hletter.seq _).seq _).group 2)

theorem length_le_parseSyslogFallback {digits s : List Char} (hdigits : '>' ∉ digits)
    (htrim : trim isSpace s = s) :
    s.length ≤ (parseSyslogFallback ('<' :: (digits ++ '>' :: s))).2.length := by
  have hless : '>' ∉ '<' :: digits := by
    rw [List.mem_cons, not_or]
    exact ⟨by decide, hdigits⟩
  have hindex : indexOf ['>'] ('<' :: (digits ++ '>' :: s)) = Option.some (digits.length + 1) :=
    indexOf_singleton hless s
  have hdrop : ('<' :: (digits ++ '>' :: s)).drop (digits.length + 1 + 1) = s := by
    rw [List.drop_succ_cons, List.drop_length_add_append]
    rfl
  unfold parseSyslogFallback
  simp only [hindex]
  split
  · rw [hdrop, htrim]
  · rw [List.length_cons, List.length_append, List.length_cons]
    omega

theorem length_textEnd_lt (m : SyslogMessage) : (m.textEnd isSpace).length <
    (parseSyslogFallback (m.header ++ (m.structuredData ++ m.behind isSpace))).2.length := by
  obtain ⟨words, hheader⟩ : ∃ words, m.header =
      '<' :: ((numeral m.priority).toList ++ '>' :: '1' :: words) := ⟨_, rfl⟩
  have hdigits : '>' ∉ (numeral m.priority).toList := fun hmem =>
    absurd (isDigit_numeral _ _ hmem) (by decide)
  have hbehind : (m.textEnd isSpace).length ≤ (m.behind isSpace).length :=
    m.length_textEnd_le rfl
  have htrim : trim isSpace ('1' :: (words ++ (m.structuredData ++ m.behind isSpace))) =
      '1' :: (words ++ (m.structuredData ++ m.behind isSpace)) := by
    apply trim_eq_self
    · rintro c ⟨⟩
      rfl
    · intro c hc
      rw [← List.cons_append, ← List.append_assoc, List.getLast?_append] at hc
      obtain hc | ⟨-, hc⟩ := Option.or_eq_some_iff.mp hc
      · exact rdropWhile_eq_self_iff.mp (List.rdropWhile_idempotent ..) c hc
      · rw [List.getLast?_append_of_ne_nil _ m.structuredData_ne_nil] at hc
        obtain rfl | rfl := m.getLast?_structuredData c hc
        · rfl
        · rfl
  have hle := length_le_parseSyslogFallback hdigits htrim
  rw [hheader, List.cons_append, List.append_assoc, List.cons_append, List.cons_append]
  refine lt_of_lt_of_le ?_ hle
  rw [List.length_cons, List.length_append, List.length_append]
  omega

theorem parseSyslog_of_none
    (h : matchStart syslog5424Regex (m.header ++ (m.structuredData ++ m.behind isSpace)) = none) :
    ¬ FindsText m := by
  rintro ⟨fields, hparse, -⟩
  rw [parseSyslog, trimmed_write, h, matchStart_syslog3164Regex] at hparse
  have hbody := congrArg (fun result => result.2.toList.length) hparse
  have hlt := length_textEnd_lt m
  have hle : (trimSpace m.text).toList.length ≤ (m.textEnd isSpace).length := by
    rw [toList_trimSpace_text]
    exact (List.dropWhile_sublist _).length_le
  simp only [String.toList_ofList] at hbody
  omega

theorem findsText_iff_of_some {c : Cursor}
    (h : matchStart syslog5424Regex (m.header ++ (m.structuredData ++ m.behind isSpace)) =
      Option.some c)
    (hpriority : c.groupD 1 = (numeral m.priority).toList) :
    FindsText m ↔ c.groupD 9 = (trimSpace m.text).toList := by
  have hvalue : atoi (numeral m.priority).toList = (m.priority : ℤ) := by
    have hlt : m.priority < 2 ^ 63 := m.priority_le.trans_lt (by decide)
    rw [atoi, parseInt_numeral hlt]
  have hfields (k : String) (v : Value)
      (hk : lookup k (priorityFields m.priority) = Option.some v) :
      (Dict.ofList (priorityFields m.priority ++
        [("syslog_version", .num (.int (atoi (c.groupD 2)))), groupField c "timestamp" 3,
          groupField c "hostname" 4, groupField c "app_name" 5, groupField c "proc_id" 6,
          groupField c "msg_id" 7] ++ optionalField c "structured_data" 8)).get? k =
            Option.some v := by
    rw [Dict.ofList, Dict.get?_update_of_nodup, lookup_append, lookup_append, hk]
    · rfl
    · rw [optionalField]
      split
      · show ["prival", "facility", "severity", "syslog_version", "timestamp", "hostname",
          "app_name", "proc_id", "msg_id"].Nodup
        decide
      · show ["prival", "facility", "severity", "syslog_version", "timestamp", "hostname",
          "app_name", "proc_id", "msg_id", "structured_data"].Nodup
        decide
  rw [FindsText, parseSyslog, trimmed_write, h]
  simp only [hpriority, hvalue]
  constructor
  · rintro ⟨fields, hparse, -⟩
    rw [← congrArg (fun result => result.2.toList) hparse]
    exact String.toList_ofList.symm
  · intro hbody
    refine ⟨_, Prod.ext rfl ?_, ?_, ?_⟩
    · rw [hbody, String.ofList_toList]
    · exact hfields _ _ rfl
    · exact hfields _ _ rfl

theorem exists_dropWhile_bracket {p : Char → Bool} (hp : p ']' = false) (s t : List Char) :
    ∃ front, front ≠ [] ∧ front ⊆ s ++ [']'] ∧ (s ++ ']' :: t).dropWhile p = front ++ t := by
  have hne : (s ++ [']']).dropWhile p ≠ [] := by
    rw [ne_eq, List.dropWhile_eq_nil_iff]
    intro h
    have hbracket := h ']' (by simp)
    rw [hp] at hbracket
    cases hbracket
  refine ⟨(s ++ [']']).dropWhile p, hne, (List.dropWhile_sublist _).subset, ?_⟩
  rw [List.append_cons, List.dropWhile_append, if_neg (by simpa using hne)]

variable {inside s rest : List Char}

theorem endsAt_of_hasPlainText (h : HasPlainText m) (hne : m.elements ≠ [])
    (hdata : m.structuredData = '[' :: (inside ++ [']'])) :
    EndsAt inside (m.behind isSpace) ∧
      ∀ s₁ s₂, inside = s₁ ++ ']' :: s₂ → ¬ EndsAt s₁ (s₂ ++ ']' :: m.behind isSpace) := by
  obtain ⟨hsingle, hfirst⟩ := h.data.resolve_left hne
  rw [hdata] at hsingle hfirst
  refine ⟨⟨fun hmem => hsingle (by simp [hmem]), ?_⟩, ?_⟩
  · rw [SyslogMessage.dropWhile_behind rfl rfl]
    exact h.line
  · intro s₁ s₂ hsplit hends
    obtain hcount | hblanks := hfirst
    · rw [hsplit] at hcount
      simp at hcount
      omega
    · have hbehind : '\n' ∈ m.behind isSpace :=
        (List.takeWhile_sublist _).subset ((mem_takeWhile_behind m).mpr hblanks)
      obtain ⟨front, -, -, hdrop⟩ :=
        @exists_dropWhile_bracket isRegexSpace rfl s₂ (m.behind isSpace)
      apply hends.line
      rw [hdrop]
      exact List.mem_append_right _ hbehind

theorem eq_of_dropWhile_eq_trimSpace
    (htext : inside ++ ']' :: m.behind isSpace = s ++ ']' :: rest)
    (hbody : rest.dropWhile isRegexSpace = (trimSpace m.text).toList) :
    s = inside ∧ rest = m.behind isSpace := by
  have htrim : (m.behind isSpace).dropWhile isSpace = (trimSpace m.text).toList := by
    rw [toList_trimSpace_text, SyslogMessage.behind_eq rfl]
    split
    · rename_i h
      rw [h]
    · exact List.dropWhile_cons_of_pos (by decide)
  have hlength := congrArg List.length (hbody.trans htrim.symm)
  obtain ⟨t, hs, hclose⟩ | ⟨t, hinside, hclose⟩ := List.append_eq_append_iff.mp htext
  · cases t with
    | nil => exact ⟨by simpa using hs, (List.cons.inj hclose).2.symm⟩
    | cons c t =>
        obtain ⟨front, hfront, -, hdrop⟩ := @exists_dropWhile_bracket isSpace rfl t rest
        have hle := (List.dropWhile_sublist (p := isRegexSpace) (l := rest)).length_le
        have hpos := List.length_pos_of_ne_nil hfront
        have htail : m.behind isSpace = t ++ ']' :: rest := (List.cons.inj hclose).2
        rw [htail, hdrop, List.length_append] at hlength
        omega
  · cases t with
    | nil => exact ⟨by simpa using hinside.symm, (List.cons.inj hclose).2⟩
    | cons c t =>
        obtain ⟨front, hfront, -, hdrop⟩ :=
          @exists_dropWhile_bracket isRegexSpace rfl t (m.behind isSpace)
        have hle := (List.dropWhile_sublist (p := isSpace) (l := m.behind isSpace)).length_le
        have hpos := List.length_pos_of_ne_nil hfront
        have htail : rest = t ++ ']' :: m.behind isSpace := (List.cons.inj hclose).2
        rw [htail, hdrop, List.length_append] at hlength
        omega

theorem hasPlainText_of_endsAt (hdata : m.structuredData = '[' :: (inside ++ [']']))
    (hends : EndsAt inside (m.behind isSpace))
    (hfirst : ∀ s₁ s₂, inside = s₁ ++ ']' :: s₂ → ¬ EndsAt s₁ (s₂ ++ ']' :: m.behind isSpace))
    (hbody : (m.behind isSpace).dropWhile isRegexSpace = (trimSpace m.text).toList) :
    HasPlainText m := by
  have hline := hends.line
  rw [SyslogMessage.dropWhile_behind rfl rfl] at hline
  refine ⟨hline, (dropWhile_eq_trimSpace_iff m).mp hbody, Or.inr ⟨?_, ?_⟩⟩
  · rw [hdata]
    simp [hends.inside]
  · by_cases hbracket : ']' ∈ inside
    · right
      obtain ⟨s₁, s₂, hsplit⟩ := List.append_of_mem hbracket
      obtain ⟨front, -, hsub, hdrop⟩ :=
        @exists_dropWhile_bracket isRegexSpace rfl s₂ (m.behind isSpace)
      have hinside : '\n' ∉ s₁ ∧ '\n' ∉ s₂ := by
        have hnone := hends.inside
        rw [hsplit] at hnone
        simpa [not_or] using hnone
      have hlf : '\n' ∈ m.behind isSpace := by
        by_contra hnone
        refine hfirst s₁ s₂ hsplit ⟨hinside.1, ?_⟩
        rw [hdrop, List.mem_append, not_or]
        refine ⟨fun hmem => ?_, hnone⟩
        have hfront := hsub hmem
        simp [hinside.2] at hfront
      rw [← mem_takeWhile_behind]
      rw [← List.takeWhile_append_dropWhile (p := isRegexSpace) (l := m.behind isSpace)] at hlf
      exact (List.mem_append.mp hlf).resolve_right hends.line
    · left
      rw [hdata]
      simp [List.count_eq_zero.mpr hbracket]

theorem findsText_iff (m : SyslogMessage) : FindsText m ↔ HasPlainText m := by
  obtain ⟨before, hsearch⟩ := map_groups_matchStart_write m
  obtain ⟨hdata, hnil⟩ | ⟨hne, inside, hdata⟩ := m.structuredData_eq
  · rw [hdata, List.singleton_append, search_syslogRest_dash,
      SyslogMessage.dropWhile_behind rfl rfl] at hsearch
    split at hsearch
    · rename_i hlf
      rw [← List.singleton_append, ← hdata] at hsearch
      exact iff_of_false (parseSyslog_of_none (Option.map_eq_none_iff.mp hsearch))
        fun h => h.line hlf
    · rename_i hlf
      rw [← List.singleton_append, ← hdata] at hsearch
      obtain ⟨c, hc, hgroups⟩ := Option.map_eq_some_iff.mp hsearch
      have hline : c.groupD 9 = (m.textEnd isSpace).dropWhile isRegexSpace := by
        rw [Cursor.groupD, Cursor.group?, hgroups]
        rfl
      have hpriority : c.groupD 1 = (numeral m.priority).toList := by
        rw [Cursor.groupD, Cursor.group?, hgroups]
        rfl
      rw [findsText_iff_of_some hc hpriority, hline, ← SyslogMessage.dropWhile_behind rfl rfl,
        dropWhile_eq_trimSpace_iff]
      exact ⟨fun hhead => ⟨hlf, hhead, Or.inl hnil⟩, fun h => h.head⟩
  · have htext : m.structuredData ++ m.behind isSpace =
        '[' :: (inside ++ ']' :: m.behind isSpace) := by
      rw [hdata, List.cons_append, List.append_assoc, List.singleton_append]
    rw [htext] at hsearch
    cases hfound : search syslogRest (fun c => Option.some c.groups)
        ⟨before, '[' :: (inside ++ ']' :: m.behind isSpace), headerGroups m⟩ with
    | none =>
        rw [hfound, ← htext] at hsearch
        refine iff_of_false (parseSyslog_of_none (Option.map_eq_none_iff.mp hsearch)) fun h => ?_
        obtain ⟨hends, hfirst⟩ := endsAt_of_hasPlainText h hne hdata
        rw [search_syslogRest_bracket hends hfirst] at hfound
        cases hfound
    | some found =>
        rw [hfound, ← htext] at hsearch
        obtain ⟨c, hc, hgroups⟩ := Option.map_eq_some_iff.mp hsearch
        obtain ⟨s, rest, hsplit, hends, hfirst, hlast⟩ := exists_of_search_syslogRest hfound
        have hline : c.groupD 9 = rest.dropWhile isRegexSpace := by
          rw [Cursor.groupD, Cursor.group?, hgroups, hlast]
          rfl
        have hpriority : c.groupD 1 = (numeral m.priority).toList := by
          rw [Cursor.groupD, Cursor.group?, hgroups, hlast]
          rfl
        rw [findsText_iff_of_some hc hpriority, hline]
        constructor
        · intro hbody
          obtain ⟨rfl, rfl⟩ := eq_of_dropWhile_eq_trimSpace hsplit hbody
          exact hasPlainText_of_endsAt hdata hends hfirst hbody
        · intro h
          obtain ⟨hends', hfirst'⟩ := endsAt_of_hasPlainText h hne hdata
          rw [search_syslogRest_bracket hends' hfirst', hlast] at hfound
          have hrest : (m.behind isSpace).dropWhile isRegexSpace = rest.dropWhile isRegexSpace :=
            congrArg Prod.snd (List.cons.inj (Option.some.inj hfound)).1
          rw [← hrest]
          exact (dropWhile_eq_trimSpace_iff m).mpr h.head

end Texts

end Ulpf.ParserRuntime
