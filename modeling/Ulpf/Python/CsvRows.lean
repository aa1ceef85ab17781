import Ulpf.Lib.Rows
import Ulpf.Python.Csv

/-!
What the reader of Python's `csv` module makes of a row that has been written: its fields as they
are, unless one is longer than the module allows.
-/

namespace Ulpf.Python.Csv

open Ulpf.Lib.Rows

def Fits (text : List Char) : Prop := text.length ≤ fieldLimit

instance (text : List Char) : Decidable (Fits text) := inferInstanceAs (Decidable (_ ≤ _))

section Texts

variable (delimiter : Char)

def readChars (r : Reader) (s : List Char) : Option Reader :=
  s.foldlM (fun r c => r.step delimiter (some c)) r

theorem readChars_cons (r : Reader) (c : Char) (s : List Char) :
    readChars delimiter r (c :: s) =
      (r.step delimiter (some c)).bind fun r => readChars delimiter r s :=
  List.foldlM_cons

theorem readChars_append (r : Reader) (s t : List Char) :
    readChars delimiter r (s ++ t) =
      (readChars delimiter r s).bind fun r => readChars delimiter r t :=
  List.foldlM_append

theorem readRow_eq (s : List Char) :
    readRow delimiter s = ((readChars delimiter ⟨.startRecord, [], []⟩ s).bind fun r =>
      r.step delimiter none).map fun r =>
        (if r.state = .startRecord then r.fields
          else r.field.reverse :: r.fields).reverse.map String.ofList := by
  rw [readRow, List.foldlM_append, List.foldlM_map]
  change ((readChars delimiter ⟨.startRecord, [], []⟩ s).bind fun r =>
    (r.step delimiter none).bind some).bind _ = _
  simp only [Option.bind_fun_some]
  exact (Option.map_eq_bind ..).symm

variable {text field : List Char} {fields : List (List Char)}

theorem not_fits_of_addChar {c : Char} (h : fieldLimit ≤ field.length) :
    ¬ Fits ((c :: text).reverse ++ field) := by
  rw [Fits, List.length_append, List.length_reverse, List.length_cons]
  omega

variable (text field fields) in
theorem readChars_flatMap (state : State) (written : Char → List Char)
    (hstep : ∀ c ∈ text, ∀ field, readChars delimiter ⟨state, field, fields⟩ (written c) =
      Reader.addChar ⟨state, field, fields⟩ c state) (hfield : Fits field) :
    readChars delimiter ⟨state, field, fields⟩ (text.flatMap written) =
      if Fits (text.reverse ++ field) then some ⟨state, text.reverse ++ field, fields⟩
      else none := by
  induction text generalizing field with
  | nil => exact (if_pos hfield).symm
  | cons c text ih =>
      rw [List.flatMap_cons, readChars_append, hstep c List.mem_cons_self, Reader.addChar]
      split
      · rename_i hfull
        rw [if_neg (not_fits_of_addChar hfull)]
        rfl
      · rename_i hroom
        have hfield' : Fits (c :: field) := Nat.lt_of_not_le hroom
        rw [List.reverse_cons, List.append_assoc, List.singleton_append]
        exact ih _ (fun d hd => hstep d (List.mem_cons_of_mem c hd)) hfield'

theorem readChars_singleton (r : Reader) (c : Char) :
    readChars delimiter r [c] = r.step delimiter (some c) := by
  rw [readChars_cons]
  exact Option.bind_fun_some _

theorem fits_nil : Fits [] := Nat.zero_le _

theorem fits_reverse : Fits text.reverse ↔ Fits text := by rw [Fits, Fits, List.length_reverse]

theorem readChars_doubled (text : List Char) :
    readChars delimiter ⟨.inQuotedField, [], fields⟩ (doubled text) =
      if Fits text then some ⟨.inQuotedField, text.reverse, fields⟩ else none := by
  have hread := readChars_flatMap delimiter text [] fields .inQuotedField
    (fun c => if c = '"' then ['"', '"'] else [c]) (fun c _ field => by
      split
      · rename_i hquote
        rw [hquote, readChars_cons]
        exact readChars_singleton delimiter _ '"'
      · rename_i hquote
        rw [readChars_singleton]
        simp only [Reader.step]) fits_nil
  simp only [List.append_nil, fits_reverse] at hread
  exact hread

theorem readChars_plain (h : ∀ c ∈ text, c ≠ delimiter ∧ c ≠ '"' ∧ c ≠ '\r' ∧ c ≠ '\n')
    {state : State} (hstate : state = .startRecord ∨ state = .startField) :
    readChars delimiter ⟨state, [], fields⟩ text =
      if Fits text then some ⟨if text = [] then state else .inField, text.reverse, fields⟩
      else none := by
  cases text with
  | nil => exact (if_pos fits_nil).symm
  | cons c text =>
      have hc := h c List.mem_cons_self
      have hfirst : Reader.step delimiter ⟨state, [], fields⟩ (some c) =
          some ⟨.inField, [c], fields⟩ := by
        obtain rfl | rfl := hstate
        · simp [Reader.step, Reader.beginField, Reader.addChar, isNewline, hc, fieldLimit]
        · simp [Reader.step, Reader.beginField, Reader.addChar, isNewline, hc, fieldLimit]
      have hread := readChars_flatMap delimiter text [c] fields .inField (fun c => [c])
        (fun d hd field => by
          have hd := h d (List.mem_cons_of_mem c hd)
          rw [readChars_singleton]
          simp [Reader.step, isNewline, hd]) (by simp [Fits, fieldLimit])
      rw [List.flatMap_singleton', ← List.reverse_cons] at hread
      simp only [fits_reverse] at hread
      rw [readChars_cons, hfirst, Option.bind_some, hread, if_neg (List.cons_ne_nil c text)]

end Texts

section Fields

variable {delimiter : Char} {state : State} {field : List Char} {fields : List (List Char)}

/-- Where the reader is behind a field. -/
def behind (state : State) (f : Field delimiter) : State :=
  if f.quoted then .quoteInQuotedField else if f.text = [] then state else .inField

theorem readChars_written (f : Field delimiter)
    (hstate : state = .startRecord ∨ state = .startField) :
    readChars delimiter ⟨state, [], fields⟩ f.written =
      if Fits f.text then some ⟨behind state f, f.text.reverse, fields⟩ else none := by
  rw [Field.written, behind]
  split
  · have hopen : Reader.step delimiter ⟨state, [], fields⟩ (some '"') =
        some ⟨.inQuotedField, [], fields⟩ := by
      obtain rfl | rfl := hstate
      · rfl
      · rfl
    rw [readChars_cons, hopen, Option.bind_some, readChars_append, readChars_doubled]
    split
    · rw [Option.bind_some, readChars_singleton]
      rfl
    · rfl
  · rename_i hquoted
    exact readChars_plain delimiter (fun c hc => f.ne_of_mem_text (by simpa using hquoted) hc)
      hstate

theorem behind_cases (state : State) (f : Field delimiter) :
    behind state f = state ∧ f.written = [] ∨ behind state f = .inField ∨
      behind state f = .quoteInQuotedField := by
  rw [behind, Field.written]
  split
  · simp
  · split
    · rename_i htext
      exact .inl ⟨rfl, htext⟩
    · simp

theorem step_delimiter (hquote : delimiter ≠ '"') (hnewline : isNewline (some delimiter) = false)
    (f : Field delimiter) (hstate : state = .startRecord ∨ state = .startField) :
    Reader.step delimiter ⟨behind state f, field, fields⟩ (some delimiter) =
      some ⟨.startField, [], field.reverse :: fields⟩ := by
  obtain ⟨hbehind, -⟩ | hbehind | hbehind := behind_cases state f
  · rw [hbehind]
    obtain rfl | rfl := hstate
    · simp [Reader.step, Reader.beginField, Reader.saveField, hnewline, hquote]
    · simp [Reader.step, Reader.beginField, Reader.saveField, hnewline, hquote]
  · rw [hbehind]
    simp [Reader.step, Reader.saveField, hnewline]
  · rw [hbehind]
    simp [Reader.step, Reader.saveField, hquote]

theorem step_end (f : Field delimiter) (hbegun : state = .startField ∨ f.written ≠ []) :
    Reader.step delimiter ⟨behind state f, field, fields⟩ none =
      some ⟨.startRecord, [], field.reverse :: fields⟩ := by
  obtain ⟨hbehind, hwritten⟩ | hbehind | hbehind := behind_cases state f
  · obtain rfl | hbegun := hbegun
    · rw [hbehind]
      rfl
    · exact absurd hwritten hbegun
  · rw [hbehind]
    rfl
  · rw [hbehind]
    rfl

theorem readChars_line (hquote : delimiter ≠ '"') (hnewline : isNewline (some delimiter) = false)
    {row : List (Field delimiter)} (hrow : row ≠ []) :
    ∀ (state : State) (fields : List (List Char)),
      state = .startRecord ∧ line row ≠ [] ∨ state = .startField →
      ((readChars delimiter ⟨state, [], fields⟩ (line row)).bind fun r => r.step delimiter none) =
        if ∀ text ∈ texts row, Fits text then
          some ⟨.startRecord, [], (texts row).reverse ++ fields⟩ else none := by
  induction row, hrow using List.recNeNil with
  | singleton f =>
      intro state fields hstate
      have hall : (∀ text ∈ texts [f], Fits text) ↔ Fits f.text := List.forall_mem_singleton
      rw [line_singleton] at hstate ⊢
      rw [readChars_written f (hstate.imp_left And.left)]
      simp only [hall]
      split
      · have hbegun := hstate.symm.imp_right And.right
        rw [Option.bind_some, step_end f hbegun, List.reverse_reverse]
        rfl
      · rfl
  | cons f row hrow ih =>
      intro state fields hstate
      have hall : (∀ text ∈ texts (f :: row), Fits text) ↔
          Fits f.text ∧ ∀ text ∈ texts row, Fits text := List.forall_mem_cons
      have hstart := hstate.imp_left And.left
      rw [line_cons f hrow, readChars_append, readChars_written f hstart]
      simp only [hall]
      by_cases hfits : Fits f.text
      · rw [if_pos hfits, Option.bind_some, readChars_cons,
          step_delimiter hquote hnewline f hstart, Option.bind_some, ih _ _ (.inr rfl)]
        simp [hfits, texts]
      · rw [if_neg hfits, if_neg fun h => hfits h.1]
        rfl

end Fields

/-- A row that is not blank is read as it is when its fields have the length the module allows, and
not at all when they have not. -/
theorem readRow_line {delimiter : Char} (hquote : delimiter ≠ '"')
    (hnewline : isNewline (some delimiter) = false) {row : List (Field delimiter)}
    (hline : line row ≠ []) :
    readRow delimiter (line row) =
      if ∀ text ∈ texts row, Fits text then some ((texts row).map String.ofList) else none := by
  have hrow : row ≠ [] := by
    rintro rfl
    exact hline rfl
  rw [readRow_eq, readChars_line hquote hnewline hrow _ _ (.inl ⟨rfl, hline⟩)]
  split
  · simp
  · rfl

end Ulpf.Python.Csv
