import Mathlib.Logic.Relation
import Ulpf.Go.Utf8
import Ulpf.ParserRuntime.PairTokens

/-!
`ParseKeyValue` as the loops of the source run it: one cursor into the runes of the
input, moved by every loop, with each index and each slice checked. The scan stays
within the input, each round of its outer loop moves the cursor on, and it ends
with the pairs of the text.
-/

namespace Ulpf.ParserRuntime

open Ulpf.Lib
open Ulpf.Lib.Text
open Ulpf.Go

/-- The panics that an access to a slice can end in. -/
inductive RuntimeError where
  | indexOutOfRange
  | sliceOutOfRange
  deriving DecidableEq

section Access

universe u

variable {α : Type u}

/-- `xs[i]` -/
def index (xs : List α) (i : ℕ) : Except RuntimeError α :=
  match xs[i]? with
  | some x => .ok x
  | none => .error .indexOutOfRange

/-- `xs[low:high]` -/
def slice (xs : List α) (low high : ℕ) : Except RuntimeError (List α) :=
  if low ≤ high ∧ high ≤ xs.length then .ok ((xs.take high).drop low)
  else .error .sliceOutOfRange

theorem index_of_lt {xs : List α} {i : ℕ} (h : i < xs.length) : index xs i = .ok xs[i] := by
  rw [index, List.getElem?_eq_getElem h]

theorem slice_of_le {xs : List α} {low high : ℕ} (hlow : low ≤ high) (hhigh : high ≤ xs.length) :
    slice xs low high = .ok ((xs.take high).drop low) :=
  if_pos ⟨hlow, hhigh⟩

end Access

/-- What the scan reads, its separators with their defaults. -/
structure Scan where
  runes : List Char
  pairSep : List Char
  kvSep : GoString
  kvSep_ne_nil : kvSep ≠ []

/-- Where the scan is: at the head of its outer loop, in the loop over the separators before
a key, in the loop over a key, behind the separator of a key, in the loop over a quoted or
a bare value, or at its end. -/
inductive Phase where
  | outer
  | gap
  | key (keyStart : ℕ)
  | value (key : List Char)
  | quoted (key : List Char) (quote : Char) (valStart : ℕ)
  | bare (key : List Char) (valStart : ℕ)
  | done
  deriving DecidableEq

/-- Where the scan is, and what it has found. -/
structure ScanState where
  phase : Phase
  cursor : ℕ
  result : RawFields

namespace Scan

/-- The scan of the arguments of `ParseKeyValue`. -/
def ofArgs (input pairSep kvSep : GoString) : Scan where
  runes := (ofBytes input).toList
  pairSep := (ofBytes (if pairSep = [] then utf8 " " else pairSep)).toList
  kvSep := if kvSep = [] then utf8 "=" else kvSep
  kvSep_ne_nil := by
    split
    · decide
    · assumption

/-- The scan before its first step. -/
def start : ScanState := ⟨.outer, 0, Dict.empty⟩

variable (scan : Scan)

/-- `rune(kvSep[0])` -/
def sepRune : Except RuntimeError Char := do
  let byte ← index scan.kvSep 0
  return Char.ofNat byte.toNat

/-- The assignment at the end of a round, of which an empty key has none. -/
def assign (s : ScanState) (key val : List Char) (cursor : ℕ) : ScanState where
  phase := .outer
  cursor := cursor
  result := if key = [] then s.result
    else s.result.set (String.ofList key) (.str (String.ofList val))

/-- One test of a loop of the source, with what it does then. -/
def step (s : ScanState) : Except RuntimeError ScanState :=
  match s.phase with
  | .outer => .ok { s with phase := if s.cursor < scan.runes.length then .gap else .done }
  | .gap =>
      if s.cursor < scan.runes.length then do
        let c ← index scan.runes s.cursor
        if isGap scan.pairSep c then return { s with cursor := s.cursor + 1 }
        else return { s with phase := .key s.cursor }
      else .ok { s with phase := .done }
  | .key keyStart =>
      if s.cursor < scan.runes.length then do
        let c ← index scan.runes s.cursor
        let sep ← scan.sepRune
        if c ≠ sep then
          if scan.pairSep.contains c then return { s with phase := .done }
          else return { s with cursor := s.cursor + 1 }
        else
          let key ← slice scan.runes keyStart s.cursor
          return { s with phase := .value (trim Unicode.isSpace key), cursor := s.cursor + 1 }
      else .ok { s with phase := .done }
  | .value key =>
      if s.cursor < scan.runes.length then do
        let c ← index scan.runes s.cursor
        if c = '"' ∨ c = '\'' then
          return { s with phase := .quoted key c (s.cursor + 1), cursor := s.cursor + 1 }
        else return { s with phase := .bare key s.cursor }
      else .ok { s with phase := .bare key s.cursor }
  | .quoted key quote valStart =>
      if s.cursor < scan.runes.length then do
        let c ← index scan.runes s.cursor
        if c ≠ quote then
          if c = '\\' ∧ s.cursor + 1 < scan.runes.length then
            return { s with cursor := s.cursor + 2 }
          else return { s with cursor := s.cursor + 1 }
        else
          let val ← slice scan.runes valStart s.cursor
          return assign s key val (s.cursor + 1)
      else do
        let val ← slice scan.runes valStart s.cursor
        return assign s key val s.cursor
  | .bare key valStart =>
      if s.cursor < scan.runes.length then do
        let c ← index scan.runes s.cursor
        if scan.pairSep.contains c then
          let val ← slice scan.runes valStart s.cursor
          return assign s key (trim Unicode.isSpace val) s.cursor
        else return { s with cursor := s.cursor + 1 }
      else do
        let val ← slice scan.runes valStart s.cursor
        return assign s key (trim Unicode.isSpace val) s.cursor
  | .done => .ok s

/-- The state after a number of steps. -/
def after : ℕ → Except RuntimeError ScanState
  | 0 => .ok start
  | k + 1 => after k >>= scan.step

/-- The cursor and the start of what is being read are within the runes. -/
def Within (s : ScanState) : Prop :=
  s.cursor ≤ scan.runes.length ∧
    match s.phase with
    | .key keyStart => keyStart ≤ s.cursor
    | .quoted _ _ valStart => valStart ≤ s.cursor
    | .bare _ valStart => valStart ≤ s.cursor
    | _ => True


end Scan

section Steps

variable {scan : Scan} {i low : ℕ} {c quote sep : Char} {rest key : List Char}
  {result : RawFields}

theorem lt_length_of_drop {α : Type} {xs rest : List α} {x : α} {i : ℕ}
    (h : xs.drop i = x :: rest) : i < xs.length := by
  have hlength := congrArg List.length h
  rw [List.length_drop, List.length_cons] at hlength
  omega

theorem drop_succ {α : Type} {xs rest : List α} {x : α} {i : ℕ} (h : xs.drop i = x :: rest) :
    xs.drop (i + 1) = rest := by
  rw [← List.tail_drop, h, List.tail_cons]

theorem index_of_drop {α : Type} {xs rest : List α} {x : α} {i : ℕ} (h : xs.drop i = x :: rest) :
    index xs i = .ok x := by
  rw [index, ← List.head?_drop, h]
  rfl

theorem not_lt_length_of_drop {α : Type} {xs : List α} {i : ℕ} (h : xs.drop i = []) :
    ¬ i < xs.length :=
  not_lt.mpr (List.drop_eq_nil_iff.mp h)

namespace Scan

theorem step_outer_more (h : scan.runes.drop i = c :: rest) :
    scan.step ⟨.outer, i, result⟩ = .ok ⟨.gap, i, result⟩ := by
  simp [step, lt_length_of_drop h]

theorem step_outer_end (h : scan.runes.drop i = []) :
    scan.step ⟨.outer, i, result⟩ = .ok ⟨.done, i, result⟩ := by
  simp [step, not_lt_length_of_drop h]

theorem step_gap_more (h : scan.runes.drop i = c :: rest) (hgap : isGap scan.pairSep c = true) :
    scan.step ⟨.gap, i, result⟩ = .ok ⟨.gap, i + 1, result⟩ := by
  simp [step, lt_length_of_drop h, index_of_drop h, hgap, bind, Except.bind, pure, Except.pure]

theorem step_gap_key (h : scan.runes.drop i = c :: rest) (hgap : isGap scan.pairSep c = false) :
    scan.step ⟨.gap, i, result⟩ = .ok ⟨.key i, i, result⟩ := by
  simp [step, lt_length_of_drop h, index_of_drop h, hgap, bind, Except.bind, pure, Except.pure]

theorem step_gap_end (h : scan.runes.drop i = []) :
    scan.step ⟨.gap, i, result⟩ = .ok ⟨.done, i, result⟩ := by
  simp [step, not_lt_length_of_drop h]

theorem step_key_more (hsep : scan.sepRune = .ok sep) (h : scan.runes.drop i = c :: rest)
    (hkey : c ≠ sep ∧ c ∉ scan.pairSep) :
    scan.step ⟨.key low, i, result⟩ = .ok ⟨.key low, i + 1, result⟩ := by
  simp [step, lt_length_of_drop h, index_of_drop h, hsep, hkey, bind, Except.bind, pure,
    Except.pure]

theorem step_key_stop (hsep : scan.sepRune = .ok sep) (h : scan.runes.drop i = c :: rest)
    (hne : c ≠ sep) (hpair : c ∈ scan.pairSep) :
    scan.step ⟨.key low, i, result⟩ = .ok ⟨.done, i, result⟩ := by
  simp [step, lt_length_of_drop h, index_of_drop h, hsep, hne, hpair, bind, Except.bind, pure,
    Except.pure]

theorem step_key_sep (hsep : scan.sepRune = .ok sep) (h : scan.runes.drop i = sep :: rest)
    (hlow : low ≤ i) :
    scan.step ⟨.key low, i, result⟩ =
      .ok ⟨.value (trim Unicode.isSpace ((scan.runes.take i).drop low)), i + 1, result⟩ := by
  simp [step, lt_length_of_drop h, index_of_drop h, hsep,
    slice_of_le hlow (lt_length_of_drop h).le, bind, Except.bind, pure, Except.pure]

theorem step_key_end (h : scan.runes.drop i = []) :
    scan.step ⟨.key low, i, result⟩ = .ok ⟨.done, i, result⟩ := by
  simp [step, not_lt_length_of_drop h]

theorem step_value_quote (h : scan.runes.drop i = c :: rest) (hquote : c = '"' ∨ c = '\'') :
    scan.step ⟨.value key, i, result⟩ = .ok ⟨.quoted key c (i + 1), i + 1, result⟩ := by
  simp [step, lt_length_of_drop h, index_of_drop h, hquote, bind, Except.bind, pure, Except.pure]

theorem step_value_bare (h : ∀ c ∈ (scan.runes.drop i).head?, c ≠ '"' ∧ c ≠ '\'') :
    scan.step ⟨.value key, i, result⟩ = .ok ⟨.bare key i, i, result⟩ := by
  cases hdrop : scan.runes.drop i with
  | nil => simp [step, not_lt_length_of_drop hdrop]
  | cons c rest =>
      obtain ⟨hdouble, hsingle⟩ := h c (by rw [hdrop]; rfl)
      simp [step, lt_length_of_drop hdrop, index_of_drop hdrop, hdouble, hsingle, bind,
        Except.bind, pure, Except.pure]

theorem step_quoted_more (h : scan.runes.drop i = c :: rest) (hne : c ≠ quote) :
    scan.step ⟨.quoted key quote low, i, result⟩ =
      .ok ⟨.quoted key quote low, if c = '\\' ∧ rest ≠ [] then i + 2 else i + 1, result⟩ := by
  have hrest : i + 1 < scan.runes.length ↔ rest ≠ [] := by
    rw [← drop_succ h, ne_eq, List.drop_eq_nil_iff, not_le]
  simp only [step, lt_length_of_drop h, if_true, index_of_drop h, bind, Except.bind, hne, hrest,
    pure, Except.pure, ne_eq, not_false_eq_true]
  split <;> rfl

theorem step_quoted_close (h : scan.runes.drop i = quote :: rest) (hlow : low ≤ i) :
    scan.step ⟨.quoted key quote low, i, result⟩ =
      .ok (assign ⟨.quoted key quote low, i, result⟩ key ((scan.runes.take i).drop low)
        (i + 1)) := by
  simp [step, lt_length_of_drop h, index_of_drop h, slice_of_le hlow (lt_length_of_drop h).le,
    bind, Except.bind, pure, Except.pure]

theorem step_quoted_end (h : scan.runes.drop i = []) (hlow : low ≤ i)
    (hcursor : i ≤ scan.runes.length) :
    scan.step ⟨.quoted key quote low, i, result⟩ =
      .ok (assign ⟨.quoted key quote low, i, result⟩ key ((scan.runes.take i).drop low) i) := by
  simp [step, not_lt_length_of_drop h, slice_of_le hlow hcursor, bind, Except.bind, pure,
    Except.pure]

theorem step_bare_more (h : scan.runes.drop i = c :: rest) (hpair : c ∉ scan.pairSep) :
    scan.step ⟨.bare key low, i, result⟩ = .ok ⟨.bare key low, i + 1, result⟩ := by
  simp [step, lt_length_of_drop h, index_of_drop h, hpair, bind, Except.bind, pure, Except.pure]

theorem step_bare_stop (h : ∀ c ∈ (scan.runes.drop i).head?, c ∈ scan.pairSep)
    (hlow : low ≤ i) (hcursor : i ≤ scan.runes.length) :
    scan.step ⟨.bare key low, i, result⟩ =
      .ok (assign ⟨.bare key low, i, result⟩ key
        (trim Unicode.isSpace ((scan.runes.take i).drop low)) i) := by
  cases hdrop : scan.runes.drop i with
  | nil =>
      simp [step, not_lt_length_of_drop hdrop, slice_of_le hlow hcursor, bind, Except.bind, pure,
        Except.pure]
  | cons c rest =>
      have hpair := h c (by rw [hdrop]; rfl)
      simp [step, lt_length_of_drop hdrop, index_of_drop hdrop, hpair, slice_of_le hlow hcursor,
        bind, Except.bind, pure, Except.pure]

end Scan

end Steps

namespace Phase

/-- Steps that a round can still make without moving the cursor. -/
@[simp] def rank : Phase → ℕ
  | .done => 0
  | .key _ => 1
  | .gap => 2
  | .outer => 3
  | .quoted _ _ _ => 4
  | .bare _ _ => 4
  | .value _ => 5

/-- The round is past the separator of its key. -/
@[simp] def pastKey : Phase → Prop
  | .value _ | .quoted _ _ _ | .bare _ _ | .outer => True
  | .gap | .key _ | .done => False

end Phase

namespace Scan

variable {scan : Scan} {s t : ScanState} {i : ℕ}

/-- What is left of the scan: more for a rune than a round can do without moving. -/
def remaining (scan : Scan) (s : ScanState) : ℕ :=
  5 * (scan.runes.length - s.cursor) + s.phase.rank

theorem exists_sepRune (scan : Scan) : ∃ sep, scan.sepRune = .ok sep := by
  have hpos : 0 < scan.kvSep.length := List.length_pos_iff.mpr scan.kvSep_ne_nil
  rw [sepRune, index_of_lt hpos]
  exact ⟨_, rfl⟩

/-- What a step does to the phase and to the cursor. -/
structure Moves (scan : Scan) (s t : ScanState) : Prop where
  within : scan.Within t
  forward : s.cursor ≤ t.cursor
  key : t.phase.pastKey → s.phase.pastKey ∨ s.cursor < t.cursor
  remaining : s.phase ≠ .done → scan.remaining t < scan.remaining s

theorem moves_of_rank (hwithin : scan.Within t) (hcursor : s.cursor = t.cursor)
    (hrank : t.phase.rank < s.phase.rank) (hkey : t.phase.pastKey → s.phase.pastKey) :
    Moves scan s t where
  within := hwithin
  forward := hcursor.le
  key h := .inl (hkey h)
  remaining _ := by
    rw [Scan.remaining, Scan.remaining, hcursor]
    omega

/-- A step that moves the cursor may raise the phase. -/
theorem moves_of_lt (hwithin : scan.Within t) (hcursor : s.cursor < t.cursor)
    (hrank : t.phase.rank < s.phase.rank + 5) : Moves scan s t where
  within := hwithin
  forward := hcursor.le
  key _ := .inr hcursor
  remaining _ := by
    have hend := hwithin.1
    rw [Scan.remaining, Scan.remaining]
    omega

theorem within_assign {key val : List Char} (hcursor : i ≤ scan.runes.length) :
    scan.Within (assign s key val i) := ⟨hcursor, trivial⟩

theorem step_moves (h : scan.Within s) : ∃ t, scan.step s = .ok t ∧ Moves scan s t := by
  obtain ⟨phase, i, result⟩ := s
  obtain ⟨hcursor, hlow⟩ := h
  obtain ⟨sep, hsep⟩ := scan.exists_sepRune
  cases hdrop : scan.runes.drop i with
  | nil =>
      cases phase with
      | outer =>
          exact ⟨_, step_outer_end hdrop, moves_of_rank ⟨hcursor, trivial⟩ rfl (by simp) (by simp)⟩
      | gap =>
          exact ⟨_, step_gap_end hdrop, moves_of_rank ⟨hcursor, trivial⟩ rfl (by simp) (by simp)⟩
      | key low =>
          exact ⟨_, step_key_end hdrop, moves_of_rank ⟨hcursor, trivial⟩ rfl (by simp) (by simp)⟩
      | value key =>
          exact ⟨_, step_value_bare (by simp [hdrop]),
            moves_of_rank ⟨hcursor, le_rfl⟩ rfl (by simp) (by simp)⟩
      | quoted key quote low =>
          exact ⟨_, step_quoted_end hdrop hlow hcursor,
            moves_of_rank (within_assign hcursor) rfl (by simp [assign]) (by simp)⟩
      | bare key low =>
          exact ⟨_, step_bare_stop (by simp [hdrop]) hlow hcursor,
            moves_of_rank (within_assign hcursor) rfl (by simp [assign]) (by simp)⟩
      | done => exact ⟨_, rfl, ⟨hcursor, trivial⟩, le_rfl, .inl, fun hne => absurd rfl hne⟩
  | cons c rest =>
      have hlt : i < scan.runes.length := lt_length_of_drop hdrop
      cases phase with
      | outer =>
          exact ⟨_, step_outer_more hdrop, moves_of_rank ⟨hcursor, trivial⟩ rfl (by simp) (by simp)⟩
      | gap =>
          cases hgap : isGap scan.pairSep c with
          | true =>
              exact ⟨_, step_gap_more hdrop hgap,
                moves_of_lt ⟨hlt, trivial⟩ (Nat.lt_succ_self i) (by simp)⟩
          | false =>
              exact ⟨_, step_gap_key hdrop hgap,
                moves_of_rank ⟨hcursor, le_rfl⟩ rfl (by simp) (by simp)⟩
      | key low =>
          by_cases hc : c = sep
          · subst hc
            exact ⟨_, step_key_sep hsep hdrop hlow,
              moves_of_lt ⟨hlt, trivial⟩ (Nat.lt_succ_self i) (by simp)⟩
          · by_cases hpair : c ∈ scan.pairSep
            · exact ⟨_, step_key_stop hsep hdrop hc hpair,
                moves_of_rank ⟨hcursor, trivial⟩ rfl (by simp) (by simp)⟩
            · exact ⟨_, step_key_more hsep hdrop ⟨hc, hpair⟩,
                moves_of_lt ⟨hlt, Nat.le_succ_of_le hlow⟩ (Nat.lt_succ_self i) (by simp)⟩
      | value key =>
          by_cases hquote : c = '"' ∨ c = '\''
          · exact ⟨_, step_value_quote hdrop hquote,
              moves_of_lt ⟨hlt, le_rfl⟩ (Nat.lt_succ_self i) (by simp)⟩
          · exact ⟨_, step_value_bare (by simpa [hdrop, not_or] using hquote),
              moves_of_rank ⟨hcursor, le_rfl⟩ rfl (by simp) (by simp)⟩
      | quoted key quote low =>
          have hlow' : low ≤ i := hlow
          by_cases hc : c = quote
          · subst hc
            exact ⟨_, step_quoted_close hdrop hlow,
              moves_of_lt (within_assign hlt) (Nat.lt_succ_self i) (by simp [assign])⟩
          · refine ⟨_, step_quoted_more hdrop hc, moves_of_lt ⟨?_, ?_⟩ ?_ (by simp)⟩
            · -- after an escape there is a rune to be passed over
              show (if c = '\\' ∧ rest ≠ [] then i + 2 else i + 1) ≤ scan.runes.length
              split
              · rename_i hescape
                have hnext : scan.runes.drop (i + 1) ≠ [] := drop_succ hdrop ▸ hescape.2
                rw [ne_eq, List.drop_eq_nil_iff] at hnext
                omega
              · exact hlt
            · show low ≤ if c = '\\' ∧ rest ≠ [] then i + 2 else i + 1
              split <;> omega
            · show i < if c = '\\' ∧ rest ≠ [] then i + 2 else i + 1
              split <;> omega
      | bare key low =>
          by_cases hpair : c ∈ scan.pairSep
          · exact ⟨_, step_bare_stop (by simpa [hdrop] using hpair) hlow hcursor,
              moves_of_rank (within_assign hcursor) rfl (by simp [assign]) (by simp)⟩
          · exact ⟨_, step_bare_more hdrop hpair,
              moves_of_lt ⟨hlt, Nat.le_succ_of_le hlow⟩ (Nat.lt_succ_self i) (by simp)⟩
      | done => exact ⟨_, rfl, ⟨hcursor, trivial⟩, le_rfl, .inl, fun hne => absurd rfl hne⟩

section Runs

variable {j k : ℕ}

theorem within_start (scan : Scan) : scan.Within start := ⟨Nat.zero_le _, trivial⟩

theorem after_within (scan : Scan) (k : ℕ) : ∃ s, scan.after k = .ok s ∧ scan.Within s := by
  induction k with
  | zero => exact ⟨start, rfl, scan.within_start⟩
  | succ k ih =>
      obtain ⟨s, hs, hwithin⟩ := ih
      obtain ⟨t, ht, hmoves⟩ := step_moves hwithin
      exact ⟨t, by rw [after, hs]; exact ht, hmoves.within⟩

theorem after_succ (h : scan.after k = .ok s) : ∃ t, scan.after (k + 1) = .ok t ∧
    scan.step s = .ok t ∧ Moves scan s t := by
  obtain ⟨s', hs', hwithin⟩ := scan.after_within k
  obtain rfl : s' = s := by
    rw [h] at hs'
    exact (Except.ok.inj hs').symm
  obtain ⟨t, ht, hmoves⟩ := step_moves hwithin
  exact ⟨t, by rw [after, h]; exact ht, ht, hmoves⟩

/-- Once a round is past its key, the cursor is past where the round began. -/
def Beyond (i : ℕ) (s : ScanState) : Prop := i ≤ s.cursor ∧ (s.phase.pastKey → i < s.cursor)

theorem Beyond.step (h : Beyond i s) (hmoves : Moves scan s t) : Beyond i t := by
  refine ⟨h.1.trans hmoves.forward, fun hpast => ?_⟩
  rcases hmoves.key hpast with hs | hlt
  · exact (h.2 hs).trans_le hmoves.forward
  · exact h.1.trans_lt hlt

theorem beyond_of_outer (houter : s.phase = .outer) (ht : scan.step s = .ok t) :
    Beyond s.cursor t := by
  obtain ⟨phase, i, result⟩ := s
  obtain rfl : phase = .outer := houter
  rw [Scan.step, Except.ok.injEq] at ht
  subst ht
  refine ⟨le_rfl, fun hpast => ?_⟩
  dsimp only at hpast
  split at hpast <;> cases hpast

theorem after_beyond (hs : scan.after j = .ok s) (houter : s.phase = .outer) (m : ℕ) :
    ∃ t, scan.after (j + 1 + m) = .ok t ∧ Beyond s.cursor t := by
  induction m with
  | zero =>
      obtain ⟨t, hafter, hstep, -⟩ := after_succ hs
      exact ⟨t, hafter, beyond_of_outer houter hstep⟩
  | succ m ih =>
      obtain ⟨t, hafter, hbeyond⟩ := ih
      obtain ⟨t', hafter', -, hmoves⟩ := after_succ hafter
      exact ⟨t', hafter', hbeyond.step hmoves⟩

/-- What has been done and what is left are together no more than what there was. -/
theorem remaining_after (scan : Scan) (k : ℕ) : ∃ s, scan.after k = .ok s ∧
    (s.phase = .done ∨ scan.remaining s + k ≤ scan.remaining start) := by
  induction k with
  | zero => exact ⟨start, rfl, .inr le_rfl⟩
  | succ k ih =>
      obtain ⟨s, hs, hleft⟩ := ih
      obtain ⟨t, hafter, hstep, hmoves⟩ := after_succ hs
      refine ⟨t, hafter, ?_⟩
      by_cases hdone : s.phase = .done
      · refine .inl ?_
        obtain ⟨phase, i, result⟩ := s
        obtain rfl : phase = .done := hdone
        cases hstep
        rfl
      · have hless := hmoves.remaining hdone
        have hbound := hleft.resolve_left hdone
        exact .inr (by omega)

theorem exists_done (scan : Scan) :
    ∃ k ≤ 5 * scan.runes.length + 3, ∃ s, scan.after k = .ok s ∧ s.phase = .done := by
  have hstart : scan.remaining start = 5 * scan.runes.length + 3 := rfl
  obtain ⟨s, hs, hleft⟩ := scan.remaining_after (5 * scan.runes.length + 3)
  refine ⟨_, le_rfl, s, hs, ?_⟩
  rcases hleft with hdone | hleft
  · exact hdone
  · -- nothing is left of a scan only at its end
    have hzero : scan.remaining s = 0 := by omega
    rw [remaining] at hzero
    cases hphase : s.phase <;> simp_all

end Runs

end Scan

section Agreement

namespace Scan

variable {scan : Scan} {i low : ℕ} {sep quote : Char} {key rest : List Char} {s t : ScanState}

/-- Some number of steps lead from one state to another. -/
abbrev Reaches (scan : Scan) (s t : ScanState) : Prop :=
  Relation.ReflTransGen (fun s t => scan.step s = .ok t) s t

/-- A loop that moves on over the runes of a kind stops at the first rune of another, by
induction on what is left of the input. -/
theorem reaches_loop (phase : Phase) (result : RawFields) (p : Char → Bool)
    (hstep : ∀ j c rest, scan.runes.drop j = c :: rest → p c = true →
      scan.step ⟨phase, j, result⟩ = .ok ⟨phase, j + 1, result⟩)
    (hi : i ≤ scan.runes.length) : ∃ j, i ≤ j ∧ j ≤ scan.runes.length ∧
      scan.runes.drop j = (scan.runes.drop i).dropWhile p ∧
      Reaches scan ⟨phase, i, result⟩ ⟨phase, j, result⟩ := by
  generalize hrest : scan.runes.drop i = rest
  induction rest generalizing i with
  | nil => exact ⟨i, le_rfl, hi, hrest, .refl⟩
  | cons c rest ih =>
      cases hc : p c with
      | false =>
          refine ⟨i, le_rfl, hi, ?_, .refl⟩
          rw [hrest, List.dropWhile_cons_of_neg (by simp [hc])]
      | true =>
          obtain ⟨j, hij, hj, hdrop, hreaches⟩ := ih (lt_length_of_drop hrest) (drop_succ hrest)
          refine ⟨j, Nat.le_of_succ_le hij, hj, ?_, .head (hstep i c rest hrest hc) hreaches⟩
          rw [hdrop, List.dropWhile_cons_of_pos hc]

theorem take_drop_eq (xs : List Char) {front : List Char} {j : ℕ} (hi : i ≤ j)
    (h : xs.drop i = front ++ xs.drop j) (hj : j ≤ xs.length) : (xs.take j).drop i = front := by
  have hlength := congrArg List.length h
  rw [List.length_append, List.length_drop, List.length_drop] at hlength
  rw [List.drop_take, h, List.take_append_of_le_length (by omega),
    List.take_of_length_le (by omega)]

theorem reaches_key (result : RawFields) (hsep : scan.sepRune = .ok sep)
    (hi : i ≤ scan.runes.length) :
    (∃ key j, KeyAt scan.pairSep sep (scan.runes.drop i) key (scan.runes.drop j) ∧
      j ≤ scan.runes.length ∧
      Reaches scan ⟨.outer, i, result⟩ ⟨.value (trim Unicode.isSpace key), j, result⟩) ∨
    ((∀ key rest, ¬ KeyAt scan.pairSep sep (scan.runes.drop i) key rest) ∧
      ∃ j, Reaches scan ⟨.outer, i, result⟩ ⟨.done, j, result⟩) := by
  cases hdrop : scan.runes.drop i with
  | nil =>
      refine .inr ⟨fun key rest hkey => ?_, i, .single (step_outer_end hdrop)⟩
      exact Nat.not_lt_zero _ (keyAt_shorter hkey)
  | cons c rest =>
      rw [← hdrop]
      have houter : Reaches scan ⟨.outer, i, result⟩ ⟨.gap, i, result⟩ :=
        .single (step_outer_more hdrop)
      obtain ⟨j, -, hj, hgapdrop, hgap⟩ := reaches_loop .gap result
        (isGap scan.pairSep) (fun _ _ _ h hgap => step_gap_more h hgap) hi
      have hgap := houter.trans hgap
      cases hjdrop : scan.runes.drop j with
      | nil =>
          refine .inr ⟨fun key rest hkey => ?_, j, hgap.tail (step_gap_end hjdrop)⟩
          rw [keyAt_iff, ← hgapdrop, hjdrop] at hkey
          cases hkey
      | cons d after =>
          have hd : isGap scan.pairSep d = false := by
            apply of_mem_head?_dropWhile (s := scan.runes.drop i)
            rw [← hgapdrop, hjdrop]
            rfl
          have hkeyloop := hgap.tail (step_gap_key hjdrop hd)
          obtain ⟨m, hjm, hm, hkeydrop, hkey⟩ := reaches_loop (.key j) result
            (inKey scan.pairSep sep)
            (fun _ _ _ h hkey => step_key_more hsep h (by simpa [inKey] using hkey)) hj
          have hkey := hkeyloop.trans hkey
          cases hmdrop : scan.runes.drop m with
          | nil =>
              refine .inr ⟨fun key rest hkeyAt => ?_, m, hkey.tail (step_key_end hmdrop)⟩
              rw [keyAt_iff, ← hgapdrop, List.span_eq_takeWhile_dropWhile, ← hkeydrop,
                hmdrop] at hkeyAt
              cases hkeyAt
          | cons e after =>
              by_cases he : e = sep
              · subst he
                refine .inl ⟨(scan.runes.drop j).takeWhile (inKey scan.pairSep e), m + 1, ?_,
                  lt_length_of_drop hmdrop, ?_⟩
                · rw [keyAt_iff, ← hgapdrop, List.span_eq_takeWhile_dropWhile, ← hkeydrop, hmdrop,
                    drop_succ hmdrop]
                · have hslice := take_drop_eq scan.runes hjm
                    (by rw [hkeydrop, List.takeWhile_append_dropWhile]) hm
                  rw [← hslice]
                  exact hkey.tail (step_key_sep hsep hmdrop hjm)
              · have hstop : inKey scan.pairSep sep e = false := by
                  apply of_mem_head?_dropWhile (s := scan.runes.drop j)
                  rw [← hkeydrop, hmdrop]
                  rfl
                have hpair : e ∈ scan.pairSep := by
                  simpa [inKey, he] using hstop
                refine .inr ⟨fun key rest hkeyAt => ?_, m,
                  hkey.tail (step_key_stop hsep hmdrop he hpair)⟩
                rw [keyAt_iff, ← hgapdrop, List.span_eq_takeWhile_dropWhile, ← hkeydrop,
                  hmdrop] at hkeyAt
                cases hkeyAt
                exact he rfl

theorem scanQuoted_quote (hquote : quote ≠ '\\') (rest : List Char) :
    scanQuoted quote (quote :: rest) = ([], rest) := by
  rw [scanQuoted.eq_def]
  split
  · cases ‹_›
  · cases ‹_›
    exact absurd rfl hquote
  · cases ‹_›
    rw [if_pos rfl]

theorem scanQuoted_rune {c : Char} (hc : c ≠ quote) (hlast : c = '\\' → rest = []) :
    scanQuoted quote (c :: rest) = (c :: (scanQuoted quote rest).1, (scanQuoted quote rest).2) := by
  rw [scanQuoted.eq_def]
  split
  · cases ‹_›
  · cases ‹_›
    cases hlast rfl
  · cases ‹_›
    rw [if_neg hc]

/-- The loop over a quoted value stops at its closing quote or at the end, by induction on the
scanner of the text. -/
theorem reaches_quote (key : List Char) (low : ℕ) (result : RawFields) (hquote : quote ≠ '\\')
    (hi : i ≤ scan.runes.length) {s : List Char} (hs : scan.runes.drop i = s) :
    ∃ e, i ≤ e ∧ e ≤ scan.runes.length ∧
      s = (scanQuoted quote s).1 ++ scan.runes.drop e ∧
      (scan.runes.drop e = quote :: (scanQuoted quote s).2 ∨
        scan.runes.drop e = [] ∧ (scanQuoted quote s).2 = []) ∧
      Reaches scan ⟨.quoted key quote low, i, result⟩ ⟨.quoted key quote low, e, result⟩ := by
  induction s using scanQuoted.induct quote generalizing i with
  | case1 => exact ⟨i, le_rfl, hi, hs.symm, .inr ⟨hs, rfl⟩, .refl⟩
  | case2 c rest text after hscan ih =>
      have hskip : scan.runes.drop (i + 2) = rest := drop_succ (drop_succ hs)
      have hi' : i + 2 ≤ scan.runes.length := lt_length_of_drop (drop_succ hs)
      obtain ⟨e, hie, he, htext, hend, hreaches⟩ := ih hi' hskip
      refine ⟨e, by omega, he, ?_, hend, .head ?_ hreaches⟩
      · rw [scanQuoted]
        exact congrArg (fun s => '\\' :: c :: s) htext
      · show scan.step ⟨.quoted key quote low, i, result⟩ = _
        rw [step_quoted_more hs hquote.symm, if_pos ⟨rfl, List.cons_ne_nil _ _⟩]
  | case3 rest hescape =>
      rw [scanQuoted_quote hquote]
      exact ⟨i, le_rfl, hi, hs.symm, .inl hs, .refl⟩
  | case4 c rest hescape hc text after hscan ih =>
      have hlast : c = '\\' → rest = [] := by
        intro hc
        cases rest with
        | nil => rfl
        | cons d rest => exact (hescape d rest hc rfl).elim
      obtain ⟨e, hie, he, htext, hend, hreaches⟩ := ih (lt_length_of_drop hs) (drop_succ hs)
      rw [scanQuoted_rune hc hlast]
      refine ⟨e, Nat.le_of_succ_le hie, he, congrArg (c :: ·) htext, hend, .head ?_ hreaches⟩
      show scan.step ⟨.quoted key quote low, i, result⟩ = _
      rw [step_quoted_more hs hc, if_neg fun hescaped => hescaped.2 (hlast hescaped.1)]

theorem scanValue_unquoted {pairSep s : List Char} (h : ∀ c ∈ s.head?, c ≠ '"' ∧ c ≠ '\'') :
    scanValue pairSep s = (trim Unicode.isSpace (s.takeWhile fun c => !pairSep.contains c),
      s.dropWhile fun c => !pairSep.contains c) := by
  rw [scanValue.eq_def]
  split
  · exact absurd rfl (h '"' rfl).1
  · exact absurd rfl (h '\'' rfl).2
  · rw [List.span_eq_takeWhile_dropWhile]

theorem reaches_bare (key : List Char) (result : RawFields) (hi : i ≤ scan.runes.length)
    (hbare : ∀ c ∈ (scan.runes.drop i).head?, c ≠ '"' ∧ c ≠ '\'') :
    ∃ j, j ≤ scan.runes.length ∧
      scan.runes.drop j = (scanValue scan.pairSep (scan.runes.drop i)).2 ∧
      Reaches scan ⟨.value key, i, result⟩
        (assign ⟨.value key, i, result⟩ key (scanValue scan.pairSep (scan.runes.drop i)).1 j) := by
  obtain ⟨j, hij, hj, hdrop, hloop⟩ := reaches_loop (.bare key i) result
    (fun c => !scan.pairSep.contains c)
    (fun _ _ _ h hpair => step_bare_more h (by simpa using hpair)) hi
  have hstop : ∀ c ∈ (scan.runes.drop j).head?, c ∈ scan.pairSep := by
    intro c hc
    rw [hdrop] at hc
    simpa using of_mem_head?_dropWhile c hc
  have hslice := take_drop_eq scan.runes hij
    (by rw [hdrop, List.takeWhile_append_dropWhile]) hj
  rw [scanValue_unquoted hbare]
  refine ⟨j, hj, hdrop, .head (step_value_bare hbare) (hloop.tail ?_)⟩
  rw [step_bare_stop hstop hij hj, hslice]
  rfl

theorem reaches_quoted (key : List Char) (result : RawFields) (hquote : quote = '"' ∨ quote = '\'')
    (hdrop : scan.runes.drop i = quote :: rest) :
    ∃ j, j ≤ scan.runes.length ∧
      scan.runes.drop j = (scanValue scan.pairSep (scan.runes.drop i)).2 ∧
      Reaches scan ⟨.value key, i, result⟩
        (assign ⟨.value key, i, result⟩ key (scanValue scan.pairSep (scan.runes.drop i)).1 j) := by
  have hplain : quote ≠ '\\' := by
    rcases hquote with rfl | rfl <;> decide
  obtain ⟨e, hie, he, htext, hend, hloop⟩ := reaches_quote key (i + 1) result hplain
    (lt_length_of_drop hdrop) (drop_succ hdrop)
  have hslice := take_drop_eq scan.runes hie ((drop_succ hdrop).trans htext) he
  have hquoted : Reaches scan ⟨.value key, i, result⟩ ⟨.quoted key quote (i + 1), e, result⟩ :=
    .head (step_value_quote hdrop hquote) hloop
  rw [hdrop, scanValue_quoted hquote]
  rcases hend with hclosed | ⟨hopen, hafter⟩
  · refine ⟨e + 1, lt_length_of_drop hclosed, drop_succ hclosed, hquoted.tail ?_⟩
    rw [step_quoted_close hclosed hie, hslice]
    rfl
  · refine ⟨e, he, hopen.trans hafter.symm, hquoted.tail ?_⟩
    rw [step_quoted_end hopen hie he, hslice]
    rfl

theorem reaches_value (key : List Char) (result : RawFields) (hi : i ≤ scan.runes.length) :
    ∃ j, j ≤ scan.runes.length ∧
    scan.runes.drop j = (scanValue scan.pairSep (scan.runes.drop i)).2 ∧
    Reaches scan ⟨.value key, i, result⟩
      (assign ⟨.value key, i, result⟩ key (scanValue scan.pairSep (scan.runes.drop i)).1 j) := by
  by_cases hbare : ∀ c ∈ (scan.runes.drop i).head?, c ≠ '"' ∧ c ≠ '\''
  · exact reaches_bare key result hi hbare
  · cases hdrop : scan.runes.drop i with
    | nil => simp [hdrop] at hbare
    | cons quote body =>
        have hquote : quote = '"' ∨ quote = '\'' := by
          simpa [hdrop, or_iff_not_imp_left] using hbare
        rw [← hdrop]
        exact reaches_quoted key result hquote hdrop

theorem assign_eq (s : ScanState) (key val : List Char) (j : ℕ) :
    assign s (trim Unicode.isSpace key) val j = ⟨.outer, j, s.result.update (pair key val)⟩ := by
  rw [assign, pair]
  split <;> simp

/-- The scan ends with the pairs of the text assigned, by induction on what is left of it. -/
theorem reaches_done (result : RawFields) (hsep : scan.sepRune = .ok sep)
    (hi : i ≤ scan.runes.length) :
    ∃ j, Reaches scan ⟨.outer, i, result⟩
      ⟨.done, j, result.update (pairsOf scan.pairSep sep (scan.runes.drop i))⟩ := by
  induction hn : (scan.runes.drop i).length using Nat.strong_induction_on
    generalizing i result with
  | _ n ih =>
      rcases reaches_key result hsep hi with
        ⟨key, j, hkey, hj, hreaches⟩ | ⟨hnone, j, hdone⟩
      · obtain ⟨m, hm, hmdrop, hvalue⟩ := reaches_value (trim Unicode.isSpace key) result hj
        rw [assign_eq] at hvalue
        have hends : ValueEnds scan.pairSep (scan.runes.drop j) (scan.runes.drop m) :=
          valueEnds_iff.mpr hmdrop.symm
        have hshorter := keyAt_shorter hkey
        have hlength := valueEnds_length_le hends
        obtain ⟨e, hdone⟩ := ih (scan.runes.drop m).length (by omega)
          (result.update (pair key (scanValue scan.pairSep (scan.runes.drop j)).1)) hm rfl
        refine ⟨e, (hreaches.trans hvalue).trans ?_⟩
        rw [pairsOf_keyAt hkey, Dict.update_append, ← hmdrop]
        exact hdone
      · exact ⟨j, by rwa [pairsOf_eq_nil hnone]⟩

theorem exists_after_of_reaches (h : Reaches scan start t) : ∃ k, scan.after k = .ok t := by
  induction h with
  | refl => exact ⟨0, rfl⟩
  | tail _ hstep ih =>
      obtain ⟨k, hk⟩ := ih
      exact ⟨k + 1, by rw [after, hk]; exact hstep⟩

theorem after_add_of_done {k : ℕ} (h : scan.after k = .ok s) (hdone : s.phase = .done) (m : ℕ) :
    scan.after (k + m) = .ok s := by
  induction m with
  | zero => exact h
  | succ m ih =>
      rw [← Nat.add_assoc, after, ih]
      show scan.step s = .ok s
      rw [step, hdone]

theorem result_eq_of_done (hsep : scan.sepRune = .ok sep) {k : ℕ} (h : scan.after k = .ok s)
    (hdone : s.phase = .done) : s.result = Dict.ofList (pairsOf scan.pairSep sep scan.runes) := by
  obtain ⟨j, hreaches⟩ := reaches_done Dict.empty hsep (Nat.zero_le _)
  obtain ⟨k', hk'⟩ := exists_after_of_reaches hreaches
  have hs := after_add_of_done h hdone k'
  rw [Nat.add_comm, after_add_of_done hk' rfl k] at hs
  rw [← Except.ok.inj hs]
  rfl

theorem sepRune_ofArgs (input pairSep : GoString) (kvSep : String) :
    (ofArgs input pairSep (utf8 kvSep)).sepRune =
      .ok (ParserRuntime.sepRune (if kvSep = "" then "=" else kvSep).toList) := by
  have hsep : (ofArgs input pairSep (utf8 kvSep)).kvSep =
      utf8 (if kvSep = "" then "=" else kvSep) := by
    simp only [ofArgs, utf8_eq_nil_iff]
    split <;> rfl
  have hne : (if kvSep = "" then "=" else kvSep) ≠ "" := by
    split
    · decide
    · assumption
  rw [sepRune, hsep]
  generalize (if kvSep = "" then "=" else kvSep) = sep at hne
  cases hlist : sep.toList with
  | nil => exact absurd (String.toList_inj.mp hlist) hne
  | cons c rest =>
      have hhead := head?_utf8EncodeChar c
      have hbyte : (UInt8.ofNat (leadByte c)).toNat = leadByte c :=
        toNat_ofNat_of_lt (leadByte_lt c)
      obtain ⟨tail, hencode⟩ := List.head?_eq_some_iff.mp hhead
      rw [utf8, hlist, List.flatMap_cons, hencode, List.cons_append, index_of_drop List.drop_zero]
      show Except.ok (Char.ofNat (UInt8.ofNat (leadByte c)).toNat) = _
      rw [hbyte]
      rfl

theorem result_eq_parseKeyValue {input pairSep : GoString} {kvSep : String} {k : ℕ}
    (h : (ofArgs input pairSep (utf8 kvSep)).after k = .ok s) (hdone : s.phase = .done) :
    s.result = parseKeyValue (ofBytes input) (ofBytes pairSep) kvSep := by
  rw [result_eq_of_done (sepRune_ofArgs input pairSep kvSep) h hdone, parseKeyValue]
  have hpair : (ofArgs input pairSep (utf8 kvSep)).pairSep =
      (if ofBytes pairSep = "" then " " else ofBytes pairSep).toList := by
    simp only [ofArgs, ofBytes_eq_empty_iff]
    split
    · rw [ofBytes_utf8]
    · rfl
  rw [hpair]
  rfl

end Scan

end Agreement

/-- No access of `ParseKeyValue` is out of range, its cursor stays within the runes and is
further on at every later head of its outer loop, and the scan ends. -/
theorem parseKeyValue_ends_within_bounds (input pairSep kvSep : GoString) :
    let scan := Scan.ofArgs input pairSep kvSep
    (∀ k, ∃ s, scan.after k = .ok s ∧ s.cursor ≤ scan.runes.length) ∧
      (∀ j k s t, j < k → scan.after j = .ok s → scan.after k = .ok t →
        s.phase = .outer → t.phase = .outer → s.cursor < t.cursor) ∧
      ∃ k ≤ 5 * scan.runes.length + 3, ∃ s, scan.after k = .ok s ∧ s.phase = .done := by
  intro scan
  refine ⟨fun k => ?_, ?_, scan.exists_done⟩
  · obtain ⟨s, hs, hwithin⟩ := scan.after_within k
    exact ⟨s, hs, hwithin.1⟩
  · intro j k s t hjk hs ht hs' ht'
    obtain ⟨m, rfl⟩ := Nat.exists_eq_add_of_le (Nat.succ_le_of_lt hjk)
    obtain ⟨t', hafter, hbeyond⟩ := Scan.after_beyond hs hs' m
    obtain rfl : t' = t := Except.ok.inj (hafter.symm.trans ht)
    exact hbeyond.2 (by simp [ht'])

end Ulpf.ParserRuntime
