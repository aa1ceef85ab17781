import Mathlib.Algebra.Group.Nat.Defs
import Mathlib.Data.List.DropRight
import Mathlib.Data.List.Infix

/-!
Scanning of text as lists of characters: trimming, substring search,
splitting, replacement and decimal numerals. The functions on `String` at the
end are the same functions seen through `String.toList`.
-/

namespace Ulpf.Lib.Text

/-- Remove the characters satisfying `p` from both ends. -/
def trim (p : Char → Bool) (s : List Char) : List Char :=
  (((s.dropWhile p).reverse).dropWhile p).reverse

theorem trim_eq_nil_iff (p : Char → Bool) (s : List Char) :
    trim p s = [] ↔ ∀ c ∈ s, p c = true := by
  have hinner : (∀ c ∈ s.dropWhile p, p c = true) ↔ ∀ c ∈ s, p c = true := by
    rw [← List.dropWhile_eq_nil_iff, List.dropWhile_idempotent, List.dropWhile_eq_nil_iff]
  exact List.rdropWhile_eq_nil_iff.trans hinner

theorem of_mem_head?_dropWhile {α : Type*} {p : α → Bool} {s : List α} :
    ∀ x ∈ (s.dropWhile p).head?, p x = false := by
  intro x hx
  have hstop := List.head?_dropWhile_not p s
  rw [Option.mem_def.mp hx] at hstop
  simpa using hstop

theorem of_mem_head?_dropWhile_append {α : Type*} {p : α → Bool} {s rest : List α}
    (hrest : ∀ x ∈ rest.head?, p x = false) :
    ∀ x ∈ (s.dropWhile p ++ rest).head?, p x = false := by
  intro x hx
  cases hdrop : s.dropWhile p with
  | nil =>
      rw [hdrop] at hx
      exact hrest x hx
  | cons y tail =>
      rw [hdrop] at hx
      apply of_mem_head?_dropWhile x
      rw [hdrop]
      exact hx

theorem exists_dropWhile_eq_trim_append (p : Char → Bool) (s : List Char) :
    ∃ after, s.dropWhile p = trim p s ++ after ∧ ∀ c ∈ after, p c = true := by
  refine ⟨((s.dropWhile p).reverse.takeWhile p).reverse, ?_, fun c hc => ?_⟩
  · rw [trim, ← List.reverse_append, List.takeWhile_append_dropWhile, List.reverse_reverse]
  · exact List.mem_takeWhile_imp (List.mem_reverse.mp hc)

theorem head?_trim (p : Char → Bool) (s : List Char) :
    ∀ c, (trim p s).head? = some c → p c = false := by
  intro c hc
  obtain ⟨after, hsplit, -⟩ := exists_dropWhile_eq_trim_append p s
  apply of_mem_head?_dropWhile c
  rw [hsplit, List.head?_append, hc]
  rfl

theorem getLast?_trim (p : Char → Bool) (s : List Char) :
    ∀ c, (trim p s).getLast? = some c → p c = false := by
  intro c hc
  rw [trim, List.getLast?_reverse] at hc
  exact of_mem_head?_dropWhile c hc

theorem rdropWhile_eq_self_iff {p : Char → Bool} {s : List Char} :
    s.rdropWhile p = s ↔ ∀ c ∈ s.getLast?, p c = false := by
  rw [List.rdropWhile_eq_self_iff]
  constructor
  · intro h c hc
    obtain ⟨t, rfl⟩ := List.getLast?_eq_some_iff.mp hc
    simpa using h (by simp)
  · intro h hne
    simpa using h _ (List.getLast?_eq_some_getLast hne)

theorem rdropWhile_append {p : Char → Bool} {s : List Char} (hlast : ∀ c ∈ s.getLast?, p c = false)
    (t : List Char) : (s ++ t).rdropWhile p = s ++ t.rdropWhile p := by
  induction t using List.reverseRecOn with
  | nil =>
      rw [List.append_nil, List.rdropWhile_nil, List.append_nil]
      exact rdropWhile_eq_self_iff.mpr hlast
  | append_singleton t c ih =>
      rw [← List.append_assoc, List.rdropWhile_concat, List.rdropWhile_concat]
      split
      · exact ih
      · rw [List.append_assoc]

theorem trim_append {p : Char → Bool} {s : List Char} (t : List Char) (hne : s ≠ [])
    (hhead : ∀ c ∈ s.head?, p c = false) (hlast : ∀ c ∈ s.getLast?, p c = false) :
    trim p (s ++ t) = s ++ t.rdropWhile p := by
  have hdrop : (s ++ t).dropWhile p = s ++ t := by
    obtain ⟨c, s, rfl⟩ := List.exists_cons_of_ne_nil hne
    rw [List.cons_append, List.dropWhile_cons_of_neg (by simp [hhead c rfl])]
  rw [trim, hdrop]
  exact rdropWhile_append hlast t

theorem trim_eq_self {p : Char → Bool} {s : List Char} (hhead : ∀ c ∈ s.head?, p c = false)
    (hlast : ∀ c ∈ s.getLast?, p c = false) : trim p s = s := by
  by_cases hne : s = []
  · rw [hne]
    rfl
  · simpa using trim_append [] hne hhead hlast

theorem trim_eq_self_of_forall {p : Char → Bool} {s : List Char} (h : ∀ c ∈ s, p c = false) :
    trim p s = s :=
  trim_eq_self (fun c hc => h c (List.mem_of_mem_head? hc))
    fun c hc => h c (List.mem_of_mem_getLast? hc)

theorem rdropWhile_cons (p : Char → Bool) (c : Char) (s : List Char) :
    (c :: s).rdropWhile p =
      if s.rdropWhile p = [] ∧ p c = true then [] else c :: s.rdropWhile p := by
  induction s using List.reverseRecOn with
  | nil => cases hc : p c <;> simp [List.rdropWhile, hc]
  | append_singleton s d ih =>
      rw [← List.cons_append, List.rdropWhile_concat, List.rdropWhile_concat]
      split
      · exact ih
      · simp

theorem trim_eq (p : Char → Bool) (s : List Char) : trim p s = (s.rdropWhile p).dropWhile p := by
  show (s.dropWhile p).rdropWhile p = _
  induction s with
  | nil => rfl
  | cons c s ih =>
      rw [rdropWhile_cons]
      cases hc : p c with
      | true =>
          rw [List.dropWhile_cons_of_pos hc, ih]
          split
          · rename_i h
            rw [h.1]
          · rw [List.dropWhile_cons_of_pos hc]
      | false =>
          rw [List.dropWhile_cons_of_neg (by simp [hc]), if_neg (by simp),
            List.dropWhile_cons_of_neg (by simp [hc]), rdropWhile_cons, if_neg (by simp [hc])]

theorem trim_rdropWhile (p : Char → Bool) (s : List Char) : trim p (s.rdropWhile p) = trim p s := by
  rw [trim_eq, List.rdropWhile_idempotent, ← trim_eq]

theorem trim_sublist (p : Char → Bool) (s : List Char) : (trim p s).Sublist s := by
  rw [trim_eq]
  exact (List.dropWhile_sublist p).trans (List.rdropWhile_prefix p s).sublist

theorem length_trim_le (p : Char → Bool) (s : List Char) : (trim p s).length ≤ s.length :=
  (trim_sublist p s).length_le

theorem dropWhile_append_cons {p : Char → Bool} {c : Char} (hc : p c = false) (s t : List Char) :
    (s ++ c :: t).dropWhile p = s.dropWhile p ++ c :: t := by
  rw [List.dropWhile_append]
  split
  · rename_i h
    rw [List.dropWhile_cons_of_neg (by simp [hc]), List.isEmpty_iff.mp h, List.nil_append]
  · rfl

theorem trim_eq_self_of_length_le {p : Char → Bool} {s : List Char}
    (h : s.length ≤ (trim p s).length) : trim p s = s :=
  (trim_sublist p s).eq_of_length_le h

theorem rdropWhile_eq_self_of_trim {p : Char → Bool} {s : List Char} (h : trim p s = s) :
    s.rdropWhile p = s := by
  refine (List.rdropWhile_prefix ..).eq_of_length_le ?_
  calc s.length = (trim p (s.rdropWhile p)).length := by rw [trim_rdropWhile, h]
    _ ≤ (s.rdropWhile p).length := length_trim_le p _

theorem append_cons_inj {p : Char → Bool} {s s' t t' : List Char} {c c' : Char}
    (hs : ∀ x ∈ s, p x = true) (hs' : ∀ x ∈ s', p x = true) (hc : p c = false) (hc' : p c' = false)
    (h : s ++ c :: t = s' ++ c' :: t') : s = s' ∧ c = c' ∧ t = t' := by
  have htake := congrArg (List.takeWhile p) h
  rw [List.takeWhile_append_of_pos hs, List.takeWhile_append_of_pos hs',
    List.takeWhile_cons_of_neg (by simp [hc]), List.takeWhile_cons_of_neg (by simp [hc']),
    List.append_nil, List.append_nil] at htake
  subst htake
  exact ⟨rfl, List.cons.inj (List.append_cancel_left h)⟩

theorem dropWhile_eq_self_iff {p : Char → Bool} {s : List Char} :
    s.dropWhile p = s ↔ ∀ c ∈ s.head?, p c = false := by
  cases s with
  | nil => simp
  | cons c s =>
      constructor
      · intro h d hd
        cases hd
        by_contra hp
        rw [Bool.not_eq_false] at hp
        rw [List.dropWhile_cons_of_pos hp] at h
        have hle := (List.dropWhile_sublist (p := p) (l := s)).length_le
        rw [h, List.length_cons] at hle
        omega
      · intro h
        exact List.dropWhile_cons_of_neg (by simp [h c rfl])

theorem dropWhile_dropWhile_of_imp {p q : Char → Bool} (h : ∀ c, q c = true → p c = true)
    (s : List Char) : (s.dropWhile q).dropWhile p = s.dropWhile p := by
  induction s with
  | nil => rfl
  | cons c s ih =>
      cases hc : q c with
      | true => rw [List.dropWhile_cons_of_pos hc, List.dropWhile_cons_of_pos (h c hc), ih]
      | false => rw [List.dropWhile_cons_of_neg (by simp [hc])]

theorem trim_dropWhile {p q : Char → Bool} (h : ∀ c, q c = true → p c = true) (s : List Char) :
    trim p (s.dropWhile q) = trim p s := by
  rw [trim, dropWhile_dropWhile_of_imp h, ← trim]

theorem rdropWhile_rdropWhile_of_imp {p q : Char → Bool} (h : ∀ c, q c = true → p c = true)
    (s : List Char) : (s.rdropWhile q).rdropWhile p = s.rdropWhile p := by
  rw [List.rdropWhile, List.rdropWhile, List.rdropWhile, List.reverse_reverse,
    dropWhile_dropWhile_of_imp h]

theorem trim_trim_of_imp {p q : Char → Bool} (h : ∀ c, q c = true → p c = true) (s : List Char) :
    trim p (trim q s) = trim p s := by
  rw [trim_eq q, trim_dropWhile h, trim_eq, rdropWhile_rdropWhile_of_imp h, ← trim_eq]

theorem trim_trim (p : Char → Bool) (s : List Char) : trim p (trim p s) = trim p s := by
  conv_lhs => rw [trim_eq p s, trim_dropWhile (fun _ h => h), trim_rdropWhile]

theorem trim_map {p : Char → Bool} {f : Char → Char} (h : ∀ c, p (f c) = p c) (s : List Char) :
    trim p (s.map f) = (trim p s).map f := by
  have hcomp : p ∘ f = p := funext h
  simp only [trim, List.dropWhile_map, hcomp, ← List.map_reverse]

/-- Dropping fewer characters leaves the same text when what it stops at is kept anyway. -/
theorem dropWhile_eq_dropWhile_iff {p q : Char → Bool} (h : ∀ c, q c = true → p c = true)
    {s : List Char} :
    s.dropWhile q = s.dropWhile p ↔ ∀ c ∈ (s.dropWhile q).head?, p c = false := by
  rw [← dropWhile_eq_self_iff, dropWhile_dropWhile_of_imp h, eq_comm]

/-- Whether `sub` occurs in the text as a contiguous block. -/
def hasInfix (sub : List Char) : List Char → Bool
  | [] => sub.isPrefixOf []
  | c :: rest => sub.isPrefixOf (c :: rest) || hasInfix sub rest

/-- Offset of the first occurrence of `sub`. -/
def indexOf (sub : List Char) : List Char → Option Nat
  | [] => if sub.isPrefixOf [] then some 0 else none
  | c :: rest =>
      if sub.isPrefixOf (c :: rest) then some 0
      else (indexOf sub rest).map (· + 1)

theorem indexOf_singleton {c : Char} {s : List Char} (hs : c ∉ s) (rest : List Char) :
    indexOf [c] (s ++ c :: rest) = some s.length := by
  induction s with
  | nil => simp [indexOf]
  | cons d s ih =>
      obtain ⟨hd, hs⟩ := not_or.mp (mt List.mem_cons.mpr hs)
      rw [List.cons_append, indexOf, if_neg (by simpa using hd), ih hs]
      rfl

/-- The pieces between the occurrences of a separator, scanned from the left.
The first argument counts the characters of a separator still to be skipped. -/
def splitFrom (sep : List Char) : Nat → List Char → List Char → List (List Char)
  | _, piece, [] => [piece.reverse]
  | skip + 1, piece, _ :: rest => splitFrom sep skip piece rest
  | 0, piece, c :: rest =>
      if sep.isPrefixOf (c :: rest) then
        piece.reverse :: splitFrom sep (sep.length - 1) [] rest
      else splitFrom sep 0 (c :: piece) rest

/-- The parts of a text between the occurrences of a separator. -/
def splitOn (sep s : List Char) : List (List Char) := splitFrom sep 0 [] s

/-- Replace every occurrence of a non-empty block, scanned from the left. -/
def replaceFrom (old new : List Char) : Nat → List Char → List Char
  | _, [] => []
  | skip + 1, _ :: rest => replaceFrom old new skip rest
  | 0, c :: rest =>
      if old.isPrefixOf (c :: rest) then
        new ++ replaceFrom old new (old.length - 1) rest
      else c :: replaceFrom old new 0 rest

/-- A text with every occurrence of a part replaced by another. -/
def replace (old new s : List Char) : List Char := replaceFrom old new 0 s

theorem splitFrom_singleton (c : Char) (piece s : List Char) :
    splitFrom [c] 0 piece s = (s.splitOn c).modifyHead (piece.reverse ++ ·) := by
  induction s generalizing piece with
  | nil => simp [splitFrom]
  | cons d s ih =>
      rw [splitFrom, List.splitOn_cons_eq_if_modifyHead]
      by_cases hd : d = c
      · rw [if_pos (by simp [hd]), if_pos (by simp [hd]), List.length_singleton, ih,
          List.modifyHead_cons, List.append_nil]
        exact congrArg _ (congrFun List.modifyHead_id _)
      · rw [if_neg (by simpa using Ne.symm hd), if_neg (by simpa using hd), ih,
          List.modifyHead_modifyHead]
        congr 1
        funext first
        simp

theorem splitOn_singleton (c : Char) (s : List Char) : splitOn [c] s = s.splitOn c := by
  rw [splitOn, splitFrom_singleton]
  exact congrFun List.modifyHead_id _

theorem not_mem_of_mem_splitOn {sep : Char} {s : List Char} :
    ∀ part ∈ s.splitOn sep, sep ∉ part ∧ part ⊆ s := by
  induction s with
  | nil => simp
  | cons c s ih =>
      rw [List.splitOn_cons_eq_if_modifyHead]
      split
      · rw [List.forall_mem_cons]
        exact ⟨by simp, fun part hpart =>
          ⟨(ih part hpart).1, List.subset_cons_of_subset c (ih part hpart).2⟩⟩
      · rename_i hc
        obtain ⟨first, rest, hsplit⟩ := List.exists_cons_of_ne_nil (List.splitOn_ne_nil sep s)
        rw [hsplit, List.forall_mem_cons] at ih
        obtain ⟨⟨hfirst, hsub⟩, hrest⟩ := ih
        rw [hsplit, List.modifyHead_cons, List.forall_mem_cons]
        refine ⟨⟨?_, List.cons_subset_cons c hsub⟩, fun part hpart =>
          ⟨(hrest part hpart).1, List.subset_cons_of_subset c (hrest part hpart).2⟩⟩
        rw [List.mem_cons, not_or]
        exact ⟨fun heq => hc (by simp [heq]), hfirst⟩

theorem length_splitOn (sep : Char) (s : List Char) :
    (s.splitOn sep).flatten.length + (s.splitOn sep).length = s.length + 1 := by
  induction s with
  | nil => simp
  | cons c s ih =>
      rw [List.splitOn_cons_eq_if_modifyHead]
      split
      · rw [List.flatten_cons, List.nil_append, List.length_cons, List.length_cons]
        omega
      · obtain ⟨first, rest, hsplit⟩ := List.exists_cons_of_ne_nil (List.splitOn_ne_nil sep s)
        rw [hsplit] at ih
        rw [hsplit, List.modifyHead_cons]
        simp only [List.flatten_cons, List.length_append, List.length_cons] at ih ⊢
        omega

def digit? (c : Char) : Option Nat :=
  if '0' ≤ c ∧ c ≤ '9' then some (c.toNat - '0'.toNat) else none

def isDigit (c : Char) : Bool := (digit? c).isSome

/-- Value of a run of decimal digits, most significant first. -/
def decimal? (digits : List Char) : Option Nat :=
  digits.foldl (fun acc c => do return 10 * (← acc) + (← digit? c)) (some 0)

/-- Sign of a number text and what follows it. -/
def spanSign (s : List Char) : Bool × List Char :=
  match s with
  | '-' :: rest => (true, rest)
  | '+' :: rest => (false, rest)
  | _ => (false, s)

/-- ASCII lower case; the other characters are kept. -/
def asciiLower (c : Char) : Char :=
  if 'A' ≤ c ∧ c ≤ 'Z' then Char.ofNat (c.toNat + 32) else c

/-- ASCII upper case; the other characters are kept. -/
def asciiUpper (c : Char) : Char :=
  if 'a' ≤ c ∧ c ≤ 'z' then Char.ofNat (c.toNat - 32) else c

/-- A function of lists of characters on texts. -/
def onChars (f : List Char → List Char) (s : String) : String := String.ofList (f s.toList)

def contains (s sub : String) : Bool := hasInfix sub.toList s.toList

def hasPrefix (s pre : String) : Bool := pre.toList.isPrefixOf s.toList

def hasSuffix (s suf : String) : Bool := suf.toList.isSuffixOf s.toList

def replaceAll (s old new : String) : String := onChars (replace old.toList new.toList) s

def split (s sep : String) : List String := (splitOn sep.toList s.toList).map String.ofList

/-- The decimal numeral of an integer. -/
def numeral (n : Int) : String := toString n

section Numerals

theorem toList_numeral (n : Nat) : (numeral n).toList = Nat.toDigits 10 n := Nat.toList_repr

theorem numeral_ne_nil (n : Nat) : (numeral n).toList ≠ [] := by
  rw [toList_numeral]
  exact Nat.toDigits_ne_nil

theorem isDigit_numeral (n : Nat) : ∀ c ∈ (numeral n).toList, isDigit c = true := by
  intro c hc
  rw [toList_numeral] at hc
  have hdigit := Nat.isDigit_of_mem_toDigits (by decide) (by decide) hc
  rw [Char.isDigit, Bool.and_eq_true, decide_eq_true_iff, decide_eq_true_iff] at hdigit
  have hrange : '0' ≤ c ∧ c ≤ '9' := hdigit
  rw [isDigit, digit?, if_pos hrange]
  rfl

theorem digit?_of_isDigit {c : Char} (h : isDigit c = true) :
    digit? c = some (c.toNat - '0'.toNat) := by
  rw [isDigit, digit?] at h
  split at h
  · rename_i hrange
    rw [digit?, if_pos hrange]
  · cases h

theorem decimal?_eq_ofDigitChars {ds : List Char} (hdigits : ∀ c ∈ ds, isDigit c = true) :
    decimal? ds = some (Nat.ofDigitChars 10 ds 0) := by
  rw [decimal?]
  generalize 0 = start
  induction ds generalizing start with
  | nil => rfl
  | cons c ds ih =>
      obtain ⟨hc, hdigits⟩ := List.forall_mem_cons.mp hdigits
      rw [Nat.ofDigitChars_cons, ← ih hdigits, List.foldl_cons, digit?_of_isDigit hc]
      rfl

theorem decimal?_numeral (n : Nat) : decimal? (numeral n).toList = some n := by
  rw [decimal?_eq_ofDigitChars (isDigit_numeral n), toList_numeral, Nat.ofDigitChars_ten_toDigits]

theorem decimal?_concat (ds : List Char) (c : Char) :
    decimal? (ds ++ [c]) = (decimal? ds).bind fun n => (digit? c).map fun d => 10 * n + d := by
  rw [decimal?, List.foldl_append, ← decimal?]
  cases decimal? ds <;> cases hc : digit? c <;> simp [hc]

theorem isSome_decimal?_iff {ds : List Char} :
    (decimal? ds).isSome = true ↔ ∀ c ∈ ds, isDigit c = true := by
  induction ds using List.reverseRecOn with
  | nil => simp [decimal?]
  | append_singleton ds c ih =>
      rw [decimal?_concat, List.forall_mem_append, ← ih, List.forall_mem_singleton, isDigit]
      cases decimal? ds <;> cases digit? c <;> simp

theorem lt_of_decimal? {ds : List Char} {n : Nat} (h : decimal? ds = some n) :
    n < 10 ^ ds.length := by
  induction ds using List.reverseRecOn generalizing n with
  | nil =>
      cases h
      decide
  | append_singleton ds c ih =>
      rw [decimal?_concat] at h
      obtain ⟨m, hm, h⟩ := Option.bind_eq_some_iff.mp h
      obtain ⟨d, hd, rfl⟩ := Option.map_eq_some_iff.mp h
      have hlt := ih hm
      have hdigit : d < 10 := by
        unfold digit? at hd
        split at hd
        · rename_i hrange
          cases hd
          have hupper : c.toNat ≤ '9'.toNat := hrange.2
          change c.toNat - 48 < 10
          change c.toNat ≤ 57 at hupper
          omega
        · cases hd
      rw [List.length_append, List.length_singleton, Nat.pow_succ]
      omega

end Numerals

section Digits

variable {c : Char}

theorem toNat_of_isDigit (h : isDigit c = true) : 48 ≤ c.toNat ∧ c.toNat ≤ 57 := by
  unfold isDigit digit? at h
  split at h
  · rename_i hrange
    exact hrange
  · cases h

theorem ne_of_isDigit (h : isDigit c = true) (d : Char) (hd : isDigit d = false) : c ≠ d := by
  rintro rfl
  rw [h] at hd
  cases hd

end Digits

end Ulpf.Lib.Text
