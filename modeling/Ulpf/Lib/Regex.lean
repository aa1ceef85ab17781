import Mathlib.Data.List.Infix

/-!
Backtracking regular expressions with capture groups. `run` lists all ways an
expression matches at a cursor, the preferred one first, so that the head of
the list is the match a leftmost-first engine reports.
-/

namespace Ulpf.Lib

/-- A position in a text: the character just consumed, the text still to be
read, and the groups captured so far, the latest first. -/
structure Cursor where
  before : Option Char
  rest : List Char
  groups : List (Nat × List Char)
  deriving DecidableEq

/-- Regular expressions with the operators of both engines. -/
inductive Regex where
  /-- The empty text. -/
  | eps
  /-- One character of a class. -/
  | char (p : Char → Bool)
  | seq (r s : Regex)
  /-- Ordered choice. -/
  | alt (r s : Regex)
  /-- Repetition, as long as possible when `greedy`, as short as possible otherwise. -/
  | star (greedy : Bool) (r : Regex)
  /-- Capture group. -/
  | group (index : Nat) (r : Regex)
  /-- Lookahead: must match, consumes nothing. -/
  | ahead (r : Regex)
  /-- Start of the text. -/
  | start
  /-- End of the text. -/
  | stop
  /-- End of the text, or just before its final line feed. -/
  | stopLine

namespace Regex

/-- Repetition of a matcher: every round has to consume text, so the length of
the remaining text bounds the number of rounds. -/
def iterate (greedy : Bool) (step : Cursor → List Cursor) : Nat → Cursor → List Cursor
  | 0, c => [c]
  | fuel + 1, c =>
      let further := ((step c).filter fun c' => c'.rest.length < c.rest.length).flatMap
        (iterate greedy step fuel)
      if greedy then further ++ [c] else c :: further

/-- All matches at a cursor in order of preference. -/
def run : Regex → Cursor → List Cursor
  | eps, c => [c]
  | char p, c =>
      match c.rest with
      | [] => []
      | x :: rest => if p x then [⟨some x, rest, c.groups⟩] else []
  | seq r s, c => (run r c).flatMap (run s)
  | alt r s, c => run r c ++ run s c
  | star greedy r, c => iterate greedy (run r) c.rest.length c
  | group index r, c =>
      (run r c).map fun c' =>
        { c' with
          groups := (index, c.rest.take (c.rest.length - c'.rest.length)) :: c'.groups }
  | ahead r, c => if (run r c).isEmpty then [] else [c]
  | start, c => if c.before.isNone then [c] else []
  | stop, c => if c.rest.isEmpty then [c] else []
  | stopLine, c => if c.rest.isEmpty || c.rest = ['\n'] then [c] else []

/-- Expressions one after the other. -/
def all : List Regex → Regex
  | [] => eps
  | [r] => r
  | r :: rest => seq r (all rest)

/-- A literal text. -/
def text (s : String) : Regex := all (s.toList.map fun x => char (· = x))

/-- One of some characters. -/
def oneOf (s : String) : Regex := char fun x => s.toList.contains x

/-- A character other than some. -/
def noneOf (s : String) : Regex := char fun x => !s.toList.contains x

/-- A character in a range. -/
def range (lo hi : Char) : Regex := char fun x => lo ≤ x && x ≤ hi

/-- The first of the alternatives that matches. -/
def anyOf : List Regex → Regex
  | [] => char fun _ => false
  | [r] => r
  | r :: rest => alt r (anyOf rest)

/-- `[a-z0-9]` -/
def lowerDigit : Regex := alt (range 'a' 'z') (range '0' '9')

/-- `[A-Za-z]` -/
def letter : Regex := alt (range 'A' 'Z') (range 'a' 'z')

/-- `[A-Za-z0-9_]` -/
def wordChar : Regex := alt letter (alt (range '0' '9') (text "_"))

def many (r : Regex) : Regex := star true r

def some (r : Regex) : Regex := seq r (star true r)

def opt (r : Regex) : Regex := alt r eps

/-- Up to `n` repetitions, as many as possible. -/
def upTo (r : Regex) : Nat → Regex
  | 0 => eps
  | n + 1 => opt (seq r (upTo r n))

/-- Between `m` and `m + extra` repetitions, as many as possible. -/
def between (r : Regex) : Nat → Nat → Regex
  | 0, extra => upTo r extra
  | m + 1, extra => seq r (between r m extra)

def times (r : Regex) (m : Nat) : Regex := between r m 0

/-- The preferred match at the start of a text. -/
def matchStart (r : Regex) (s : List Char) : Option Cursor := (run r ⟨none, s, []⟩).head?

/-- Some match reads the whole text. -/
def fullMatch (r : Regex) (s : List Char) : Bool :=
  (run r ⟨none, s, []⟩).any fun c => c.rest.isEmpty

/-- Successive matches from a cursor on, none overlapping the one before; the
counter skips what the last match consumed. -/
def findFrom (r : Regex) : Nat → Option Char → List Char → List Cursor
  | _, _, [] => []
  | skip + 1, _, x :: rest => findFrom r skip (Option.some x) rest
  | 0, before, x :: rest =>
      match (run r ⟨before, x :: rest, []⟩).head? with
      | Option.some c =>
          c :: findFrom r ((x :: rest).length - c.rest.length - 1) (Option.some x) rest
      | none => findFrom r 0 (Option.some x) rest

/-- The successive matches in a text. -/
def findAll (r : Regex) (s : List Char) : List Cursor := findFrom r 0 none s

/-- A text without the matches of an expression; the counter passes over what is left of the
last match. An empty match takes nothing away. -/
def removeFrom (r : Regex) : ℕ → Option Char → List Char → List Char
  | _, _, [] => []
  | skip + 1, _, x :: rest => removeFrom r skip (Option.some x) rest
  | 0, before, x :: rest =>
      match (run r ⟨before, x :: rest, []⟩).head? with
      | Option.some c =>
          if c.rest.length ≤ rest.length then
            removeFrom r (rest.length - c.rest.length) (Option.some x) rest
          else x :: removeFrom r 0 (Option.some x) rest
      | none => x :: removeFrom r 0 (Option.some x) rest

/-- A text without the successive matches. -/
def removeAll (r : Regex) (s : List Char) : List Char := removeFrom r 0 none s

/-- The expression can match any single character that the test accepts. -/
def Takes (r : Regex) (accepts : Char → Bool) : Prop :=
  ∀ before x rest groups, accepts x = true →
    ∃ c ∈ run r ⟨before, x :: rest, groups⟩, c.rest = rest

theorem takes_char (accepts : Char → Bool) : Takes (char accepts) accepts := by
  intro before x rest groups hx
  refine ⟨⟨Option.some x, rest, groups⟩, ?_, rfl⟩
  rw [run]
  simp [hx]

theorem Takes.alt {r s : Regex} {accepts accepts' : Char → Bool} (hr : Takes r accepts)
    (hs : Takes s accepts') : Takes (alt r s) fun x => accepts x || accepts' x := by
  intro before x rest groups hx
  rw [run]
  rcases (Bool.or_eq_true _ _).mp hx with hleft | hright
  · obtain ⟨c, hc, hrest⟩ := hr before x rest groups hleft
    exact ⟨c, List.mem_append_left _ hc, hrest⟩
  · obtain ⟨c, hc, hrest⟩ := hs before x rest groups hright
    exact ⟨c, List.mem_append_right _ hc, hrest⟩

theorem Takes.iterate {r : Regex} {accepts : Char → Bool} (hr : Takes r accepts)
    {s : List Char} (hs : ∀ x ∈ s, accepts x = true) (c : Cursor) (hc : c.rest = s) :
    ∃ c' ∈ iterate true (run r) s.length c, c'.rest = [] := by
  induction s generalizing c with
  | nil => exact ⟨c, List.mem_singleton_self c, hc⟩
  | cons x rest ih =>
      obtain ⟨before, text, groups⟩ := c
      obtain rfl : text = x :: rest := hc
      obtain ⟨next, hnext, hrest⟩ := hr before x rest groups (hs x List.mem_cons_self)
      obtain ⟨last, hlast, hend⟩ := ih (fun y hy => hs y (List.mem_cons_of_mem x hy)) next hrest
      refine ⟨last, ?_, hend⟩
      rw [List.length_cons, Regex.iterate, if_pos rfl]
      apply List.mem_append_left
      refine List.mem_flatMap.mpr ⟨next, List.mem_filter.mpr ⟨hnext, ?_⟩, hlast⟩
      simp [hrest]

theorem Takes.times {r : Regex} {accepts : Char → Bool} (hr : Takes r accepts)
    {s : List Char} (hs : ∀ x ∈ s, accepts x = true) (c : Cursor) (hc : c.rest = s) :
    ∃ c' ∈ run (times r s.length) c, c'.rest = [] := by
  induction s generalizing c with
  | nil => exact ⟨c, List.mem_singleton_self c, hc⟩
  | cons x rest ih =>
      obtain ⟨before, text, groups⟩ := c
      obtain rfl : text = x :: rest := hc
      obtain ⟨next, hnext, hrest⟩ := hr before x rest groups (hs x List.mem_cons_self)
      obtain ⟨last, hlast, hend⟩ := ih (fun y hy => hs y (List.mem_cons_of_mem x hy)) next hrest
      exact ⟨last, List.mem_flatMap.mpr ⟨next, hnext, hlast⟩, hend⟩

theorem fullMatch_times {r : Regex} {accepts : Char → Bool} (hr : Takes r accepts)
    {s : List Char} (hs : ∀ x ∈ s, accepts x = true) : fullMatch (times r s.length) s = true := by
  obtain ⟨last, hlast, hend⟩ := hr.times hs ⟨none, s, []⟩ rfl
  rw [fullMatch, List.any_eq_true]
  exact ⟨last, hlast, by simp [hend]⟩

theorem fullMatch_seq_times {r s : Regex} {accepts accepts' : Char → Bool}
    (hr : Takes r accepts) (hs : Takes s accepts') {x : Char} {rest : List Char}
    (hx : accepts x = true) (hrest : ∀ y ∈ rest, accepts' y = true) :
    fullMatch (seq r (times s rest.length)) (x :: rest) = true := by
  obtain ⟨next, hnext, hafter⟩ := hr none x rest [] hx
  obtain ⟨last, hlast, hend⟩ := hs.times hrest next hafter
  rw [fullMatch, List.any_eq_true]
  exact ⟨last, List.mem_flatMap.mpr ⟨next, hnext, hlast⟩, by simp [hend]⟩

theorem fullMatch_alt_left {r : Regex} (s : Regex) {text : List Char}
    (h : fullMatch r text = true) : fullMatch (alt r s) text = true := by
  rw [fullMatch, run, List.any_append]
  rw [fullMatch] at h
  rw [h, Bool.true_or]

theorem fullMatch_seq_many {r s : Regex} {accepts accepts' : Char → Bool}
    (hr : Takes r accepts) (hs : Takes s accepts') {x : Char} {rest : List Char}
    (hx : accepts x = true) (hrest : ∀ y ∈ rest, accepts' y = true) :
    fullMatch (seq r (many s)) (x :: rest) = true := by
  obtain ⟨next, hnext, hafter⟩ := hr none x rest [] hx
  obtain ⟨last, hlast, hend⟩ := hs.iterate hrest next hafter
  rw [fullMatch, List.any_eq_true]
  refine ⟨last, ?_, by simp [hend]⟩
  rw [run]
  refine List.mem_flatMap.mpr ⟨next, hnext, ?_⟩
  rw [many, run, hafter]
  exact hlast

end Regex

/-- What a group has captured last. -/
def Cursor.group? (c : Cursor) (index : Nat) : Option (List Char) :=
  (c.groups.find? fun entry => entry.1 == index).map Prod.snd

/-- Text of a capture group, empty when the group took no part in the match. -/
def Cursor.groupD (c : Cursor) (index : Nat) : List Char := (c.group? index).getD []

end Ulpf.Lib
