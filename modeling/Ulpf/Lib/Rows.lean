import Mathlib.Data.List.Basic
import Mathlib.Data.List.Induction
import Mathlib.Data.List.Infix
import Mathlib.Data.List.TakeWhile

/-!
Rows of fields with a delimiter between them. A field may stand in quotes, with its own quotes
doubled, and one with a delimiter, a quote or an end of a line in it does.
-/

namespace Ulpf.Lib.Rows

/-- A text with each of its quotes written twice. -/
def doubled (text : List Char) : List Char :=
  text.flatMap fun c => if c = '"' then ['"', '"'] else [c]

/-- A field of a row, and whether it is written in quotes. -/
structure Field (delimiter : Char) where
  text : List Char
  quoted : Bool
  plain : quoted = false → ∀ c ∈ text, c ∉ [delimiter, '"', '\r', '\n']

variable {delimiter : Char}

/-- A field as it stands in its row. -/
def Field.written (f : Field delimiter) : List Char :=
  if f.quoted then '"' :: (doubled f.text ++ ['"']) else f.text

/-- A row, as it is written. -/
def line (row : List (Field delimiter)) : List Char :=
  [delimiter].intercalate (row.map Field.written)

def texts (row : List (Field delimiter)) : List (List Char) := row.map Field.text

@[simp] theorem doubled_nil : doubled [] = [] := rfl

theorem doubled_cons_quote (text : List Char) :
    doubled ('"' :: text) = '"' :: '"' :: doubled text :=
  rfl

theorem doubled_cons {c : Char} (hc : c ≠ '"') (text : List Char) :
    doubled (c :: text) = c :: doubled text := by
  rw [doubled, List.flatMap_cons, if_neg hc]
  rfl

theorem length_le_length_doubled (text : List Char) : text.length ≤ (doubled text).length := by
  induction text with
  | nil => exact le_rfl
  | cons c text ih =>
      rw [doubled, List.flatMap_cons, List.length_append, List.length_cons, ← doubled]
      split
      · rw [List.length_cons, List.length_singleton]
        omega
      · rw [List.length_singleton]
        omega

theorem line_singleton (f : Field delimiter) : line [f] = f.written := List.intercalate_singleton

theorem line_cons (f : Field delimiter) {row : List (Field delimiter)} (hrow : row ≠ []) :
    line (f :: row) = f.written ++ delimiter :: line row := by
  obtain ⟨g, row, rfl⟩ := List.exists_cons_of_ne_nil hrow
  rw [line, List.map_cons, List.map_cons, List.intercalate_cons_cons, ← List.map_cons, ← line,
    List.append_assoc, List.singleton_append]

theorem Field.ne_of_mem_text {f : Field delimiter} (h : f.quoted = false) {c : Char}
    (hc : c ∈ f.text) : c ≠ delimiter ∧ c ≠ '"' ∧ c ≠ '\r' ∧ c ≠ '\n' := by
  simpa using f.plain h c hc

theorem Field.head?_written_append (f : Field delimiter) {s : List Char}
    (hs : s.head? ≠ some '\n') : (f.written ++ s).head? ≠ some '\n' := by
  rw [written]
  split
  · simp
  · rename_i hquoted
    have hplain (c : Char) (hc : c ∈ f.text) := f.ne_of_mem_text (by simpa using hquoted) hc
    cases htext : f.text with
    | nil => simpa using hs
    | cons c text =>
        have hc := (hplain c (by simp [htext])).2.2.2
        simpa using hc

theorem head?_line (hfeed : delimiter ≠ '\n') (row : List (Field delimiter)) :
    (line row).head? ≠ some '\n' := by
  cases row with
  | nil => simp [line]
  | cons f row =>
      obtain rfl | hrow := eq_or_ne row []
      · simpa [line_singleton] using f.head?_written_append (s := []) (by simp)
      · rw [line_cons f hrow]
        exact f.head?_written_append (by simpa using hfeed)

theorem Field.getLast?_written (f : Field delimiter) :
    ∀ c ∈ f.written.getLast?, c ≠ '\r' ∧ c ≠ '\n' := by
  intro c hc
  rw [written] at hc
  split at hc
  · simp only [← List.cons_append, List.getLast?_concat, Option.mem_def, Option.some.injEq] at hc
    subst hc
    decide
  · rename_i hquoted
    exact (f.ne_of_mem_text (by simpa using hquoted) (List.mem_of_getLast? hc)).2.2

theorem getLast?_line (hreturn : delimiter ≠ '\r') (hfeed : delimiter ≠ '\n')
    {row : List (Field delimiter)} (hrow : row ≠ []) :
    ∀ c ∈ (line row).getLast?, c ≠ '\r' ∧ c ≠ '\n' := by
  induction row, hrow using List.recNeNil with
  | singleton f =>
      rw [line_singleton]
      exact f.getLast?_written
  | cons f row hrow ih =>
      intro c hc
      rw [line_cons f hrow, List.getLast?_append] at hc
      cases hline : line row with
      | nil =>
          obtain rfl : delimiter = c := by simpa [hline] using hc
          exact ⟨hreturn, hfeed⟩
      | cons d s =>
          rw [hline] at hc ih
          exact ih c (by simpa [List.getLast?_cons] using hc)

section Spans

variable {c : Char} {text : List Char}

theorem span_append_cons (h : c ∉ text) (s : List Char) :
    (text ++ c :: s).span (· ≠ c) = (text, c :: s) := by
  have htext : ∀ d ∈ text, decide (d ≠ c) = true := fun d hd =>
    decide_eq_true fun heq => h (heq ▸ hd)
  rw [List.span_eq_takeWhile_dropWhile, List.takeWhile_append_of_pos htext,
    List.dropWhile_append_of_pos htext]
  simp

theorem span_of_notMem (h : c ∉ text) : text.span (· ≠ c) = (text, []) := by
  have htext : ∀ d ∈ text, decide (d ≠ c) = true := fun d hd =>
    decide_eq_true fun heq => h (heq ▸ hd)
  rw [List.span_eq_takeWhile_dropWhile, List.takeWhile_eq_self_iff.mpr htext,
    List.dropWhile_eq_nil_iff.mpr htext]

end Spans

section LineFeeds

/-- A text with its lines ended by line feeds alone. -/
def lineFeeds : List Char → List Char
  | [] => []
  | c :: s => if c = '\r' ∧ s.head? = some '\n' then lineFeeds s else c :: lineFeeds s

theorem lineFeeds_cons {c : Char} (hc : c ≠ '\r') (s : List Char) :
    lineFeeds (c :: s) = c :: lineFeeds s :=
  if_neg fun h => hc h.1

theorem lineFeeds_append {text s : List Char} (h : ∀ c ∈ text, c ≠ '\n')
    (hend : text.getLast? = some '\r' → s.head? ≠ some '\n') :
    lineFeeds (text ++ s) = text ++ lineFeeds s := by
  induction text with
  | nil => rfl
  | cons c text ih =>
      have hkept : ¬ (c = '\r' ∧ (text ++ s).head? = some '\n') := by
        rintro ⟨rfl, hhead⟩
        cases text with
        | nil => exact hend rfl hhead
        | cons d text => exact h d (by simp) (Option.some.inj hhead)
      rw [List.cons_append, lineFeeds, if_neg hkept, List.cons_append,
        ih fun d hd => h d (List.mem_cons_of_mem c hd)]
      cases text with
      | nil => simp
      | cons d text => rwa [List.getLast?_cons_cons] at hend

theorem lineFeeds_sublist (s : List Char) : (lineFeeds s).Sublist s := by
  induction s with
  | nil => exact List.Sublist.refl []
  | cons c s ih =>
      rw [lineFeeds]
      split
      · exact ih.cons c
      · exact ih.cons_cons c

theorem head?_doubled_append (text s : List Char) (hs : s.head? = some '"') :
    (doubled text ++ s).head? = some '\n' ↔ text.head? = some '\n' := by
  cases text with
  | nil => simp [hs]
  | cons c text =>
      obtain rfl | hc := eq_or_ne c '"'
      · rw [doubled_cons_quote]
        simp
      · rw [doubled_cons hc]
        rfl

theorem lineFeeds_doubled (text s : List Char) :
    lineFeeds (doubled text ++ '"' :: s) = doubled (lineFeeds text) ++ '"' :: lineFeeds s := by
  induction text with
  | nil => exact lineFeeds_cons (by decide) s
  | cons c text ih =>
      obtain rfl | hc := eq_or_ne c '"'
      · rw [doubled_cons_quote, lineFeeds_cons (by decide), doubled_cons_quote, List.cons_append,
          List.cons_append, lineFeeds_cons (by decide), lineFeeds_cons (by decide), ih]
        rfl
      · rw [doubled_cons hc, List.cons_append, lineFeeds, lineFeeds]
        simp only [head?_doubled_append text ('"' :: s) rfl]
        split
        · exact ih
        · rw [ih, doubled_cons hc]
          rfl

theorem head?_lineFeeds (s : List Char) :
    (lineFeeds s).head? = s.head? ∨ (lineFeeds s).head? = some '\n' := by
  cases s with
  | nil => exact .inl rfl
  | cons c s =>
      rw [lineFeeds]
      split
      · rename_i h
        obtain ⟨s, rfl⟩ := List.head?_eq_some_iff.mp h.2
        rw [lineFeeds_cons (by decide)]
        exact .inr rfl
      · exact .inl rfl

theorem getLast?_lineFeeds (s : List Char) : (lineFeeds s).getLast? = s.getLast? := by
  induction s with
  | nil => rfl
  | cons c s ih =>
      rw [lineFeeds]
      split
      · rename_i h
        obtain ⟨d, s, rfl⟩ : ∃ d t, s = d :: t := by
          cases s with
          | nil => simp at h
          | cons d s => exact ⟨d, s, rfl⟩
        rw [ih, List.getLast?_cons_cons]
      · cases s with
        | nil => rfl
        | cons d s =>
            simp [List.getLast?_cons, ih]

/-- A field with the lines of its text ended by line feeds alone. -/
def Field.withLineFeeds (f : Field delimiter) : Field delimiter where
  text := lineFeeds f.text
  quoted := f.quoted
  plain h c hc := f.plain h c ((lineFeeds_sublist f.text).subset hc)

theorem texts_map_withLineFeeds (row : List (Field delimiter)) :
    texts (row.map Field.withLineFeeds) = (texts row).map lineFeeds := by
  rw [texts, texts, List.map_map, List.map_map]
  rfl

theorem Field.lineFeeds_written_append (f : Field delimiter) {s : List Char}
    (hs : s.head? ≠ some '\n') :
    lineFeeds (f.written ++ s) = f.withLineFeeds.written ++ lineFeeds s := by
  rw [written, written, withLineFeeds]
  split
  · rw [List.cons_append, lineFeeds_cons (by decide), List.append_assoc, List.singleton_append,
      lineFeeds_doubled, List.cons_append, List.append_assoc]
    rfl
  · rename_i hquoted
    have hplain (c : Char) (hc : c ∈ f.text) := f.ne_of_mem_text (by simpa using hquoted) hc
    have hkept : lineFeeds f.text = f.text := by
      simpa [lineFeeds] using lineFeeds_append (s := []) (fun c hc => (hplain c hc).2.2.2) (by simp)
    show lineFeeds (f.text ++ s) = lineFeeds f.text ++ lineFeeds s
    rw [hkept]
    exact lineFeeds_append (fun c hc => (hplain c hc).2.2.2) fun _ => hs

theorem lineFeeds_line (hreturn : delimiter ≠ '\r') (hfeed : delimiter ≠ '\n')
    {row : List (Field delimiter)} (hrow : row ≠ []) :
    lineFeeds (line row) = line (row.map Field.withLineFeeds) := by
  induction row, hrow using List.recNeNil with
  | singleton f =>
      have hall := f.lineFeeds_written_append (s := []) (by simp)
      rw [List.append_nil, lineFeeds, List.append_nil] at hall
      rw [line_singleton, hall, List.map_singleton, line_singleton]
  | cons f row hrow ih =>
      rw [line_cons f hrow, f.lineFeeds_written_append (by simpa using hfeed),
        lineFeeds_cons hreturn, ih, List.map_cons, line_cons _ (by simpa using hrow)]

end LineFeeds

end Ulpf.Lib.Rows
