import Ulpf.Go.Csv
import Ulpf.Lib.Rows

/-!
What `Read` of Go's `encoding/csv` makes of a row that has been written: its fields, their lines
ended by line feeds.
-/

namespace Ulpf.Go.Csv

open Ulpf.Lib.Rows

section Lines

/-- The first line of a text, with its line feed, and the lines after it. -/
def cut : List Char → List Char × List (List Char)
  | [] => ([], [])
  | c :: s => if c = '\n' then ([c], (cut s).1 :: (cut s).2) else (c :: (cut s).1, (cut s).2)

theorem cut_cons {c : Char} (hc : c ≠ '\n') (s : List Char) :
    cut (c :: s) = (c :: (cut s).1, (cut s).2) :=
  if_neg hc

theorem cut_append {text : List Char} (h : ∀ c ∈ text, c ≠ '\n') (s : List Char) :
    cut (text ++ s) = (text ++ (cut s).1, (cut s).2) := by
  induction text with
  | nil => rfl
  | cons c text ih =>
      rw [List.cons_append, cut_cons (h c List.mem_cons_self),
        ih fun d hd => h d (List.mem_cons_of_mem c hd)]
      rfl

theorem cut_fst_ne_nil {s : List Char} (hs : s ≠ []) : (cut s).1 ≠ [] := by
  cases s with
  | nil => exact absurd rfl hs
  | cons c s =>
      rw [cut]
      split <;> exact List.cons_ne_nil _ _

theorem cut_append_feed {text : List Char} (h : ∀ c ∈ text, c ≠ '\n') (s : List Char) :
    cut (text ++ '\n' :: s) = (text ++ ['\n'], (cut s).1 :: (cut s).2) :=
  cut_append h ('\n' :: s)

theorem linesFrom_eq (s line : List Char) (hline : ∀ c ∈ line, c ≠ '\n') {last : Char}
    (hlast : (line.reverse ++ s).getLast? = some last) (hreturn : last ≠ '\r')
    (hfeed : last ≠ '\n') :
    linesFrom line s = (cut (lineFeeds (line.reverse ++ s))).1 ::
      (cut (lineFeeds (line.reverse ++ s))).2 := by
  induction s generalizing line with
  | nil =>
      rw [List.append_nil] at hlast ⊢
      have hread : ∀ c ∈ line.reverse, c ≠ '\n' := fun c hc => hline c (List.mem_reverse.mp hc)
      have hlines : lineFeeds line.reverse = line.reverse := by
        simpa [lineFeeds] using lineFeeds_append (s := []) hread (by simp)
      have hcut : cut line.reverse = (line.reverse, []) := by
        simpa [cut] using cut_append hread []
      rw [hlines, hcut]
      cases line with
      | nil => simp at hlast
      | cons c line =>
          have hc : c ≠ '\r' := by
            rintro rfl
            simp [hreturn.symm] at hlast
          simp [linesFrom, hc]
  | cons c s ih =>
      obtain rfl | hc := eq_or_ne c '\n'
      · have hrest : linesFrom [] s = (cut (lineFeeds s)).1 :: (cut (lineFeeds s)).2 := by
          refine ih [] (by simp) ?_
          cases s with
          | nil => simp [hfeed.symm] at hlast
          | cons d s => simpa [List.getLast?_cons] using hlast
        have hfeeds : lineFeeds ('\n' :: s) = '\n' :: lineFeeds s := lineFeeds_cons (by decide) s
        have hkept {text : List Char} (h : ∀ c ∈ text, c ≠ '\n') :
            cut (text ++ '\n' :: lineFeeds s) = (text ++ ['\n'], linesFrom [] s) := by
          rw [cut_append_feed h, hrest]
        -- a carriage return before the line feed goes with it
        obtain ⟨line, rfl⟩ | hreturned :
            (∃ line', line = '\r' :: line') ∨ line.head? ≠ some '\r' := by
          cases line with
          | nil => simp
          | cons c line => simp [eq_or_ne]
        · have hread : ∀ c ∈ line.reverse, c ≠ '\n' := fun c hc =>
            hline c (List.mem_cons_of_mem _ (List.mem_reverse.mp hc))
          have hboth : lineFeeds ('\r' :: '\n' :: s) = lineFeeds ('\n' :: s) := if_pos ⟨rfl, rfl⟩
          rw [List.reverse_cons, List.append_assoc, List.singleton_append,
            lineFeeds_append hread (by simp), hboth, hfeeds, hkept hread]
          simp [linesFrom]
        · have hread : ∀ c ∈ line.reverse, c ≠ '\n' := fun c hc => hline c (List.mem_reverse.mp hc)
          rw [lineFeeds_append hread (by simp [hreturned]), hfeeds, hkept hread]
          cases line with
          | nil => simp [linesFrom]
          | cons c line =>
              have hc : c ≠ '\r' := fun h => hreturned (congrArg some h)
              simp [linesFrom, hc]
      · have hrest := ih (c :: line) (by simpa [hc] using hline) (by simpa using hlast)
        rw [List.reverse_cons, List.append_assoc, List.singleton_append] at hrest
        rw [← hrest]
        simp [linesFrom, hc]

theorem lines_eq {s : List Char} {last : Char} (hlast : s.getLast? = some last)
    (hreturn : last ≠ '\r') (hfeed : last ≠ '\n') :
    lines s = (cut (lineFeeds s)).1 :: (cut (lineFeeds s)).2 :=
  linesFrom_eq s [] (by simp) hlast hreturn hfeed

end Lines

section Fields

variable {comma : Char}

theorem readQuoted_cons {c : Char} (hc : c ≠ '"') {line : List Char} (hline : line ≠ []) (fuel : ℕ)
    (part : List Char) (more : List (List Char)) :
    readQuoted comma fuel part (c :: line) more =
      readQuoted comma fuel (part ++ [c]) line more := by
  cases fuel with
  | zero => rw [readQuoted, readQuoted]
  | succ fuel =>
      by_cases hmem : '"' ∈ line
      · obtain ⟨text, rest, rfl, htext⟩ := List.eq_append_cons_of_mem hmem
        have htext' : '"' ∉ c :: text := by simp [hc.symm, htext]
        rw [readQuoted, readQuoted, ← List.cons_append, span_append_cons htext',
          span_append_cons htext]
        cases rest with
        | nil => simp
        | cons d rest =>
            obtain rfl | hd := eq_or_ne d '"'
            · simp
            · simp [hd]
      · have hmem' : '"' ∉ c :: line := by simp [hc.symm, hmem]
        obtain ⟨d, line, rfl⟩ := List.exists_cons_of_ne_nil hline
        rw [readQuoted, readQuoted, span_of_notMem hmem', span_of_notMem hmem]
        cases more with
        | nil => rfl
        | cons next more => simp

theorem readQuoted_feed (fuel : ℕ) (part next : List Char) (more : List (List Char)) :
    readQuoted comma (fuel + 1) part ['\n'] (next :: more) =
      readQuoted comma fuel (part ++ ['\n']) next more := by
  rw [readQuoted]
  rfl

theorem readQuoted_quotes (fuel : ℕ) (part line : List Char) (more : List (List Char)) :
    readQuoted comma (fuel + 1) part ('"' :: '"' :: line) more =
      readQuoted comma fuel (part ++ ['"']) line more := by
  rw [readQuoted]
  simp [List.span_eq_takeWhile_dropWhile]

/-- What it takes to read a text in quotes. -/
def steps (text : List Char) : ℕ := text.countP fun c => c = '"' ∨ c = '\n'

theorem readQuoted_doubled (text s : List Char) (fuel : ℕ) (part : List Char) :
    readQuoted comma (fuel + steps text) part (cut (doubled text ++ '"' :: s)).1
        (cut (doubled text ++ '"' :: s)).2 =
      readQuoted comma fuel (part ++ text) (cut ('"' :: s)).1 (cut ('"' :: s)).2 := by
  induction text generalizing part with
  | nil => simp [steps]
  | cons c text ih =>
      have happend : part ++ c :: text = part ++ [c] ++ text := by simp
      rw [happend, ← ih, steps, List.countP_cons, ← steps]
      obtain rfl | hquote := eq_or_ne c '"'
      · rw [doubled_cons_quote, List.cons_append, List.cons_append, cut_cons (by decide),
          cut_cons (by decide)]
        exact readQuoted_quotes _ _ _ _
      · rw [doubled_cons hquote, List.cons_append]
        obtain rfl | hfeed := eq_or_ne c '\n'
        · rw [cut, if_pos rfl]
          exact readQuoted_feed _ _ _ _
        · rw [cut_cons hfeed, if_neg (by simp [hquote, hfeed]), Nat.add_zero]
          exact readQuoted_cons hquote (cut_fst_ne_nil (by simp)) _ _ _

/-- What it takes to read a field. -/
def cost (f : Field comma) : ℕ := if f.quoted then 1 + steps f.text + 1 else 1

theorem cost_le (f : Field comma) : cost f ≤ f.written.length + 1 := by
  rw [cost, Field.written]
  split
  · have hsteps : steps f.text ≤ f.text.length := List.countP_le_length
    have hdoubled := length_le_length_doubled f.text
    simp only [List.length_cons, List.length_append, List.length_nil]
    omega
  · omega

variable {f : Field comma} {fuel : ℕ}

theorem plain_text (h : ¬ f.quoted = true) :
    comma ∉ f.text ∧ '"' ∉ f.text ∧ ∀ c ∈ f.text, c ≠ '\n' := by
  have hplain (c : Char) (hc : c ∈ f.text) := f.ne_of_mem_text (by simpa using h) hc
  exact ⟨fun hc => (hplain _ hc).1 rfl, fun hc => (hplain _ hc).2.1 rfl,
    fun c hc => (hplain c hc).2.2.2⟩

theorem readFields_of_not_quote {line : List Char} (hline : line.head? ≠ some '"')
    (more : List (List Char)) :
    readFields comma (fuel + 1) line more =
      match line.span (· ≠ comma) with
      | (field, []) =>
          let field := if endsLine field then field.dropLast else field
          if field.contains '"' then none else some [field]
      | (field, _ :: rest) =>
          if field.contains '"' then none
          else (readFields comma fuel rest more).map fun fields => field :: fields := by
  rewrite [readFields]
  · rfl
  · rintro body rfl
    exact hline rfl

theorem readFields_written (f : Field comma) (fuel : ℕ) :
    readFields comma (fuel + cost f) (cut f.written).1 (cut f.written).2 = some [f.text] := by
  rw [cost, Field.written]
  split
  · rw [cut_cons (by decide), ← Nat.add_assoc, ← Nat.add_assoc, readFields]
    dsimp only
    rw [readQuoted_doubled, cut_cons (by decide), readQuoted]
    simp [cut]
  · rename_i hquoted
    obtain ⟨hcomma, hquote, hfeed⟩ := plain_text hquoted
    have hcut : cut f.text = (f.text, []) := by simpa [cut] using cut_append hfeed []
    have hends : endsLine f.text = false := by
      simpa [endsLine] using fun h => hfeed _ (List.mem_of_getLast? h) rfl
    have hhead : f.text.head? ≠ some '"' := fun h => hquote (List.mem_of_head? h)
    rw [hcut, readFields_of_not_quote hhead, span_of_notMem hcomma]
    simp [hends, hquote]

theorem readFields_written_comma (hfeed : comma ≠ '\n') (hquote : comma ≠ '"') (f : Field comma)
    (s : List Char) (fuel : ℕ) :
    readFields comma (fuel + cost f) (cut (f.written ++ comma :: s)).1
        (cut (f.written ++ comma :: s)).2 =
      (readFields comma fuel (cut s).1 (cut s).2).map fun fields => f.text :: fields := by
  rw [cost, Field.written]
  split
  · rw [List.cons_append, List.append_assoc, List.singleton_append, cut_cons (by decide),
      ← Nat.add_assoc, ← Nat.add_assoc, readFields]
    dsimp only
    rw [readQuoted_doubled, cut_cons (by decide), cut_cons hfeed, readQuoted]
    simp [hquote]
  · rename_i hquoted
    obtain ⟨hcomma, hquote', hfeed'⟩ := plain_text hquoted
    have hhead : (f.text ++ comma :: (cut s).1).head? ≠ some '"' := by
      cases htext : f.text with
      | nil => simpa using hquote
      | cons c text =>
          have hc : c ≠ '"' := fun h => hquote' (by rw [htext, h]; exact List.mem_cons_self)
          simpa using hc
    rw [cut_append hfeed', cut_cons hfeed]
    dsimp only
    rw [readFields_of_not_quote hhead, span_append_cons hcomma]
    simp [hquote']

theorem readFields_line (hfeed : comma ≠ '\n') (hquote : comma ≠ '"') {row : List (Field comma)}
    (hrow : row ≠ []) :
    ∀ fuel, (line row).length < fuel →
      readFields comma fuel (cut (line row)).1 (cut (line row)).2 = some (texts row) := by
  induction row, hrow using List.recNeNil with
  | singleton f =>
      intro fuel hfuel
      rw [line_singleton] at hfuel ⊢
      have hcost := cost_le f
      rw [← Nat.sub_add_cancel (show cost f ≤ fuel by omega)]
      exact readFields_written f _
  | cons f row hrow ih =>
      intro fuel hfuel
      rw [line_cons f hrow] at hfuel ⊢
      rw [List.length_append, List.length_cons] at hfuel
      have hcost := cost_le f
      rw [← Nat.sub_add_cancel (show cost f ≤ fuel by omega),
        readFields_written_comma hfeed hquote, ih _ (by omega)]
      rfl

end Fields

theorem read_line {comma : Char} (hcomma : validDelim comma = true) {row : List (Field comma)}
    (hline : line row ≠ []) :
    read comma (line row) = some ((texts row).map fun text => String.ofList (lineFeeds text)) := by
  have hrow : row ≠ [] := by
    rintro rfl
    exact hline rfl
  obtain ⟨hquote, hreturn, hfeed⟩ : comma ≠ '"' ∧ comma ≠ '\r' ∧ comma ≠ '\n' := by
    simp only [validDelim, Bool.and_eq_true, decide_eq_true_eq] at hcomma
    exact ⟨hcomma.1.1.1.2, hcomma.1.1.2, hcomma.1.2⟩
  obtain ⟨last, hlast⟩ := Option.ne_none_iff_exists'.mp (mt List.getLast?_eq_none_iff.mp hline)
  obtain ⟨hlastreturn, hlastfeed⟩ := getLast?_line hreturn hfeed hrow last hlast
  have hlines := lines_eq hlast hlastreturn hlastfeed
  rw [lineFeeds_line hreturn hfeed hrow] at hlines
  have hrow' : row.map Field.withLineFeeds ≠ [] := by simpa using hrow
  have hfields := readFields_line hfeed hquote hrow' (2 * (line row).length + 2) (by
    rw [← lineFeeds_line hreturn hfeed hrow]
    have hlength := (lineFeeds_sublist (line row)).length_le
    omega)
  have hhead := head?_line hfeed (row.map Field.withLineFeeds)
  obtain ⟨c, s, hcons⟩ : ∃ c s, line (row.map Field.withLineFeeds) = c :: s := by
    refine List.exists_cons_of_ne_nil fun hnil => ?_
    have hlast' := getLast?_lineFeeds (line row)
    rw [lineFeeds_line hreturn hfeed hrow, hnil, hlast] at hlast'
    cases hlast'
  rw [hcons] at hlines hfields hhead
  have hc : c ≠ '\n' := fun h => hhead (congrArg some h)
  rw [cut_cons hc] at hlines hfields
  rw [read, if_pos hcomma, hlines, List.dropWhile_cons_of_neg (by simp [hc])]
  dsimp only
  rw [hfields, texts_map_withLineFeeds, Option.map_some, List.map_map]
  rfl

end Ulpf.Go.Csv
