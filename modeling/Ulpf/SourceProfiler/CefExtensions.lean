import Ulpf.Formats.Cef
import Ulpf.Lib.RegexSearch
import Ulpf.SourceProfiler.Parsers

/-!
Which CEF extensions `parse_cef_extension` reads back as they were written. Its last two
replacements also take a backslash of the value before an `n` or an `r`.
-/

namespace Ulpf.SourceProfiler

open Ulpf.Lib
open Ulpf.Lib.Regex
open Ulpf.Lib.Text
open Ulpf.Python
open Ulpf.Formats

section Values

theorem cefValueCode_eq_some_iff {c d : Char} : cefValueCode c = Option.some d ↔
    (c = d ∧ (d = '\\' ∨ d = '=')) ∨ (c = '\n' ∧ d = 'n') ∨ (c = '\r' ∧ d = 'r') := by
  rw [cefValueCode]
  split_ifs with hself hlf hcr
  · simp only [Option.some.injEq]
    constructor
    · rintro rfl
      exact Or.inl ⟨rfl, hself⟩
    · rintro (⟨rfl, -⟩ | ⟨rfl, -⟩ | ⟨rfl, -⟩)
      · rfl
      · simp at hself
      · simp at hself
  · simp [hlf, eq_comm]
    rintro rfl
    decide
  · simp [hcr, eq_comm]
    rintro rfl
    decide
  · simp only [false_iff]
    rintro (⟨rfl, hd⟩ | ⟨hc, -⟩ | ⟨hc, -⟩)
    · exact hself hd
    · exact hlf hc
    · exact hcr hc

theorem replaceEach_escape (value : List Char) :
    replaceEach (escape cefValueCode value)
      [("\\=", "="), ("\\|", "|"), ("\\\\", "\\"), ("\\n", "\n"), ("\\r", "\r")] =
      replaceEach value [("\\n", "\n"), ("\\r", "\r")] := by
  simp only [replaceEach, List.foldl_cons, List.foldl_nil]
  show replace ['\\', 'r'] ['\r'] (replace ['\\', 'n'] ['\n'] (replace ['\\', '\\'] ['\\']
    (replace ['\\', '|'] ['|'] (replace ['\\', '='] ['='] (escape cefValueCode value))))) = _
  have hall : Function.update (Function.update (Function.update (Function.update cefValueCode
      '=' none) '\\' none) '\n' none) '\r' none = fun _ => none := by
    funext c
    rw [Option.eq_none_iff_forall_ne_some]
    intro d hd
    simp only [update_none_eq_some_iff, cefValueCode_eq_some_iff] at hd
    obtain ⟨hcr, hlf, hbackslash, hequals, ⟨rfl, h | h⟩ | ⟨h, -⟩ | ⟨h, -⟩⟩ := hd
    · exact hbackslash h
    · exact hequals h
    · exact hlf h
    · exact hcr h
  rw [replace_escape cefValueCode rfl rfl, replace_backslash_replace, replace_escape_of_plain,
    replace_escape_of_plain, hall, escape_eq_self fun _ _ => rfl]
  · rfl
  all_goals first
    | rfl
    | simp +contextual [update_none_eq_some_iff, cefValueCode_eq_some_iff]

/-- A value that is not empty, with neither white space nor quotes around it. -/
structure PlainValue (value : String) : Prop where
  ne_nil : value.toList ≠ []
  head : ∀ c ∈ value.toList.head?, isSpace c = false
  last : ∀ c ∈ value.toList.getLast?, isSpace c = false
  unquoted : ∀ q ∈ ['"', '\''],
    ¬ (value.toList.head? = Option.some q ∧ value.toList.getLast? = Option.some q)

theorem unquote_eq_self {value : String} (h : PlainValue value) :
    unquote value.toList = value.toList := by
  rw [unquote, if_neg]
  rintro (hquoted | hquoted)
  · exact h.unquoted _ (by simp) hquoted
  · exact h.unquoted _ (by simp) hquoted

theorem length_unquote_le (value : List Char) : (unquote value).length ≤ value.length := by
  rw [unquote]
  split
  · rw [List.length_dropLast, List.length_tail]
    omega
  · exact le_rfl

/-- No backslash stands before a letter of a line break. -/
def BreakFree (value : List Char) : Prop := ∀ c ∈ ['n', 'r'], ¬ ['\\', c] <:+: value

theorem unquote_replaceEach_eq_iff {value : String} (h : PlainValue value) :
    unquote (replaceEach value.toList [("\\n", "\n"), ("\\r", "\r")]) = value.toList ↔
      BreakFree value.toList := by
  rw [BreakFree, List.forall_mem_cons, List.forall_mem_singleton]
  show unquote (replace ['\\', 'r'] ['\r'] (replace ['\\', 'n'] ['\n'] value.toList)) = _ ↔ _
  have hshort (s : List Char) (hs : s.length < value.toList.length) : unquote s ≠ value.toList := by
    intro heq
    have hle := length_unquote_le s
    rw [heq] at hle
    omega
  obtain ⟨hn, hlt⟩ | ⟨hn, heq⟩ :=
    @replace_shortens ['\\', 'n'] ['\n'] (by decide) value.toList
  · refine iff_of_false (hshort _ ?_) fun hfree => hfree.1 hn
    exact (length_replace_le (by decide) _).trans_lt hlt
  · rw [heq]
    obtain ⟨hr, hlt⟩ | ⟨hr, heq⟩ :=
      @replace_shortens ['\\', 'r'] ['\r'] (by decide) value.toList
    · exact iff_of_false (hshort _ hlt) fun hfree => hfree.2 hr
    · rw [heq]
      exact iff_of_true (unquote_eq_self h) ⟨hn, hr⟩

theorem stripChars_escape {value : String} (h : PlainValue value) :
    stripChars (escape cefValueCode value.toList) = escape cefValueCode value.toList := by
  apply trim_eq_self
  · intro c hc
    obtain rfl | hhead := mem_head?_escape hc
    · decide
    · exact h.head c hhead
  · intro c hc
    obtain ⟨d, hd⟩ | hlast := mem_getLast?_escape hc
    · obtain ⟨-, rfl | rfl⟩ | ⟨-, rfl⟩ | ⟨-, rfl⟩ := cefValueCode_eq_some_iff.mp hd
      all_goals decide
    · exact h.last c hlast

end Values

section Pairs

variable {α : Type} {k : Cursor → Option α} {a : α} {before : Option Char} {c d : Char}
  {name s rest after : List Char} {groups : List (ℕ × List Char)}

def isKeyChar (c : Char) : Bool := isAlnum c || "_.-".toList.contains c

theorem isSpace_of_isKeyChar (h : isKeyChar c = true) : isSpace c = false := by
  have hset : "_.-".toList = ['_', '.', '-'] := by decide
  have hrange : 45 ≤ c.toNat ∧ c.toNat ≤ 122 := by
    rw [isKeyChar, hset, isAlnum] at h
    simp only [Bool.or_eq_true, Bool.and_eq_true, decide_eq_true_eq, List.contains_eq_mem,
      List.mem_cons, List.not_mem_nil, or_false] at h
    obtain ((⟨hl, hu⟩ | ⟨hl, hu⟩) | ⟨hl, hu⟩) | (rfl | rfl | rfl) := h
    · exact ⟨le_trans (by decide) (show 97 ≤ c.toNat from hl), show c.toNat ≤ 122 from hu⟩
    · exact ⟨le_trans (by decide) (show 65 ≤ c.toNat from hl),
        le_trans (show c.toNat ≤ 90 from hu) (by decide)⟩
    · exact ⟨le_trans (by decide) (show 48 ≤ c.toNat from hl),
        le_trans (show c.toNat ≤ 57 from hu) (by decide)⟩
    all_goals decide
  rw [isSpace, Unicode.isSpace]
  simp only [Bool.or_eq_false_iff, Bool.and_eq_false_iff, decide_eq_false_iff_not]
  omega

/-- What a pair can be named. -/
structure IsKey (name : List Char) : Prop where
  ne_nil : name ≠ []
  chars : ∀ c ∈ name, isKeyChar c = true

/-- One or two characters of a value. -/
def valueItem : Regex := alt (text "\\=") (alt (text "\\|") (alt (text "\\\\") (noneOf "=")))

/-- Where a value can end. -/
def valueEnd : Regex := alt (all [some space, extensionKey, text "="]) stopLine

theorem cefExtensionRegex_eq : cefExtensionRegex = all [group 1 extensionKey, text "=",
    group 2 (seq valueItem (star false valueItem)), ahead valueEnd] := rfl

/-- White space and the name of a pair are next. -/
def Named (rest : List Char) : Prop :=
  ∃ spaces name t, rest = spaces ++ (name ++ '=' :: t) ∧ spaces ≠ [] ∧
    (∀ c ∈ spaces, isSpace c = true) ∧ IsKey name

theorem search_valueEnd_of_not (hnamed : ¬ Named rest) (hne : rest ≠ []) (hlf : rest ≠ ['\n']) :
    search (ahead valueEnd) k ⟨before, rest, groups⟩ = none := by
  have hpair : run (all [some space, extensionKey, text "="]) ⟨before, rest, groups⟩ = [] := by
    rw [List.eq_nil_iff_forall_not_mem]
    intro c hc
    obtain ⟨c₁, h₁, hc⟩ := List.mem_flatMap.mp hc
    obtain ⟨c₂, h₂, h₃⟩ := List.mem_flatMap.mp hc
    obtain ⟨spaces, hspaces, hrest, hall, -⟩ := exists_of_mem_run_some h₁
    obtain ⟨name, hname, hrest', hall', -⟩ := exists_of_mem_run_some h₂
    have hequals : c ∈ run (char fun x => x = '=') c₂ := h₃
    obtain ⟨x, hx, hrest'', -⟩ := mem_run_char.mp hequals
    refine hnamed ⟨spaces, name, c.rest, ?_, hspaces, hall, hname, hall'⟩
    rw [← of_decide_eq_true hx, ← hrest'', ← hrest', ← hrest]
  have hstop : (rest.isEmpty || rest = ['\n']) = false := by simp [hne, hlf]
  rw [search_ahead, valueEnd, search_alt, search_stopLine, search, hpair]
  dsimp only
  rw [hstop]
  rfl

theorem search_valueEnd
    (hafter : after = [] ∨ ∃ name t, after = ' ' :: (name ++ '=' :: t) ∧ IsKey name) :
    search (ahead valueEnd) k ⟨before, after, groups⟩ = k ⟨before, after, groups⟩ := by
  rw [search_ahead, if_pos]
  rw [valueEnd, search_alt, Option.isSome_or, Bool.or_eq_true]
  obtain rfl | ⟨name, t, rfl, hname⟩ := hafter
  · right
    rw [search_stopLine]
    rfl
  · left
    have hequals : (text "=").Reads ['='] t := reads_text "=" t
    have hread : (all [some space, extensionKey, text "="]).Reads ([' '] ++ (name ++ ['='])) t := by
      apply Reads.seq
      · refine reads_some_char (by simp) (List.forall_mem_singleton.mpr rfl) ?_
        intro c hc
        rw [List.append_assoc, List.head?_append_of_ne_nil _ hname.ne_nil] at hc
        exact isSpace_of_isKeyChar (hname.chars c (List.mem_of_mem_head? hc))
      · exact (reads_some_char hname.ne_nil hname.chars (by simp; decide)).seq hequals
    obtain ⟨before', hmatch⟩ := hread before groups
    have htext : ' ' :: (name ++ '=' :: t) = ([' '] ++ (name ++ ['='])) ++ t := by simp
    rw [htext, hmatch]
    rfl

theorem ne_append_equals {s : List Char} (hafter : ∀ c ∈ after.head?, c = ' ')
    (hname : ∀ c ∈ name, isKeyChar c = true) (t : List Char) :
    escape cefValueCode s ++ after ≠ name ++ '=' :: t := by
  have hbackslash : isKeyChar '\\' = false := by decide
  have hblank : isKeyChar ' ' = false := by decide
  intro heq
  induction name generalizing s with
  | nil =>
      cases s with
      | nil =>
          rw [escape_nil, List.nil_append, List.nil_append] at heq
          rw [heq] at hafter
          exact absurd (hafter '=' rfl) (by decide)
      | cons c s =>
          cases hcode : cefValueCode c with
          | none =>
              rw [escape_cons_plain hcode] at heq
              obtain rfl := (List.cons.inj heq).1
              exact absurd hcode (by decide)
          | some d =>
              rw [escape_cons_coded hcode] at heq
              exact absurd (List.cons.inj heq).1 (by decide)
  | cons x name ih =>
      obtain ⟨hx, hname⟩ := List.forall_mem_cons.mp hname
      cases s with
      | nil =>
          rw [escape_nil, List.nil_append, List.cons_append] at heq
          rw [heq] at hafter
          rw [hafter x rfl, hblank] at hx
          cases hx
      | cons c s =>
          cases hcode : cefValueCode c with
          | none =>
              rw [escape_cons_plain hcode] at heq
              exact ih hname (List.cons.inj heq).2
          | some d =>
              rw [escape_cons_coded hcode] at heq
              rw [← (List.cons.inj heq).1, hbackslash] at hx
              cases hx

theorem not_named_escape {s : List Char} (hne : s ≠ [])
    (hlast : ∀ c ∈ s.getLast?, isSpace c = false) (hafter : ∀ c ∈ after.head?, c = ' ') :
    ¬ Named (escape cefValueCode s ++ after) := by
  rintro ⟨spaces, name, t, heq, -, hspaces, hname⟩
  induction spaces generalizing s with
  | nil => exact ne_append_equals hafter hname.chars t heq
  | cons x spaces ih =>
      obtain ⟨hx, hspaces⟩ := List.forall_mem_cons.mp hspaces
      obtain ⟨c, s, rfl⟩ := List.exists_cons_of_ne_nil hne
      cases hcode : cefValueCode c with
      | none =>
          rw [escape_cons_plain hcode] at heq
          obtain ⟨hhead, htail⟩ := List.cons.inj heq
          have hrest : s ≠ [] := by
            rintro rfl
            rw [← hhead, hlast c rfl] at hx
            cases hx
          refine ih hrest (fun d hd => hlast d ?_) htail hspaces
          rw [List.getLast?_cons_of_ne_nil hrest]
          exact hd
      | some d =>
          rw [escape_cons_coded hcode] at heq
          rw [← (List.cons.inj heq).1] at hx
          exact absurd hx (by decide)

theorem consumes_valueItem : Consumes valueItem :=
  ((consumes_char _).seq _).alt (((consumes_char _).seq _).alt
    (((consumes_char _).seq _).alt (consumes_char _)))

theorem valueItem_eq : valueItem = alt (seq (char (· = '\\')) (char (· = '=')))
    (alt (seq (char (· = '\\')) (char (· = '|')))
      (alt (seq (char (· = '\\')) (char (· = '\\'))) (char fun c => !(['='].contains c)))) := rfl

theorem search_valueItem_of_ne (hbackslash : c ≠ '\\') (hequals : c ≠ '=') :
    search valueItem k ⟨before, c :: rest, groups⟩ = k ⟨Option.some c, rest, groups⟩ := by
  simp only [valueItem_eq, search_alt, search_seq, search_char_cons, hbackslash]
  simp [hequals]

/-- An escape that stands for itself is one item. -/
theorem search_valueItem_coded (hd : d = '\\' ∨ d = '=')
    (hk : k ⟨Option.some d, rest, groups⟩ = Option.some a) :
    search valueItem k ⟨before, '\\' :: d :: rest, groups⟩ = Option.some a := by
  simp only [valueItem_eq, search_alt, search_seq, search_char_cons]
  obtain rfl | rfl := hd
  · simp [hk]
  · simp [hk]

/-- Another escape is two items. -/
theorem search_valueItem_letter (hd : d = 'n' ∨ d = 'r') :
    search valueItem k ⟨before, '\\' :: d :: rest, groups⟩ =
      k ⟨Option.some '\\', d :: rest, groups⟩ := by
  simp only [valueItem_eq, search_alt, search_seq, search_char_cons]
  obtain rfl | rfl := hd
  · simp
  · simp

theorem search_valueItem_escape {s : List Char}
    (hs : ∀ before, k ⟨before, escape cefValueCode s ++ after, groups⟩ = Option.some a)
    (hletter : ∀ before d, d = 'n' ∨ d = 'r' →
      k ⟨before, d :: (escape cefValueCode s ++ after), groups⟩ = Option.some a) :
    search valueItem k ⟨before, escape cefValueCode (c :: s) ++ after, groups⟩ = Option.some a := by
  cases hcode : cefValueCode c with
  | none =>
      have hbackslash : c ≠ '\\' := by
        rintro rfl
        exact absurd hcode (by decide)
      have hequals : c ≠ '=' := by
        rintro rfl
        exact absurd hcode (by decide)
      rw [escape_cons_plain hcode, List.cons_append, search_valueItem_of_ne hbackslash hequals]
      exact hs _
  | some d =>
      rw [escape_cons_coded hcode]
      obtain ⟨-, hd⟩ | hbreak := cefValueCode_eq_some_iff.mp hcode
      · exact search_valueItem_coded hd (hs _)
      · have hd : d = 'n' ∨ d = 'r' := hbreak.imp And.right And.right
        rw [List.cons_append, List.cons_append, search_valueItem_letter hd]
        exact hletter _ d hd

theorem escape_cons_append_ne_lineFeed (c : Char) (s after : List Char) :
    escape cefValueCode (c :: s) ++ after ≠ ['\n'] := by
  intro heq
  cases hcode : cefValueCode c with
  | none =>
      rw [escape_cons_plain hcode] at heq
      obtain rfl := (List.cons.inj heq).1
      exact absurd hcode (by decide)
  | some d =>
      rw [escape_cons_coded hcode] at heq
      exact absurd (List.cons.inj heq).1 (by decide)

theorem search_value_letter
    (hinside : ∀ before rest, ¬ Named rest → rest ≠ [] → rest ≠ ['\n'] →
      k ⟨before, rest, groups⟩ = none)
    (hd : d = 'n' ∨ d = 'r')
    (hrest : ∀ before, search (star false valueItem) k ⟨before, rest, groups⟩ = Option.some a) :
    search (star false valueItem) k ⟨before, d :: rest, groups⟩ = Option.some a := by
  have hplain : isSpace d = false ∧ d ≠ '\\' ∧ d ≠ '=' ∧ d ≠ '\n' := by
    obtain rfl | rfl := hd
    all_goals decide
  obtain ⟨hspace, hbackslash, hequals, hlf⟩ := hplain
  have hnamed : ¬ Named (d :: rest) := by
    rintro ⟨spaces, name, t, heq, hne, hspaces, -⟩
    obtain ⟨x, spaces, rfl⟩ := List.exists_cons_of_ne_nil hne
    have hx := hspaces x List.mem_cons_self
    rw [← (List.cons.inj heq).1, hspace] at hx
    cases hx
  have hinner := hinside before (d :: rest) hnamed (by simp) (by simp [hlf])
  rw [search_lazy consumes_valueItem, hinner, Option.none_or,
    search_valueItem_of_ne hbackslash hequals]
  exact hrest _

/-- A value is read item by item: to its end, and not before. -/
theorem search_value {s : List Char}
    (hend : ∀ before, k ⟨before, after, groups⟩ = Option.some a)
    (hinside : ∀ before rest, ¬ Named rest → rest ≠ [] → rest ≠ ['\n'] →
      k ⟨before, rest, groups⟩ = none)
    (hlast : ∀ c ∈ s.getLast?, isSpace c = false) (hafter : ∀ c ∈ after.head?, c = ' ') :
    search (star false valueItem) k ⟨before, escape cefValueCode s ++ after, groups⟩ =
      Option.some a := by
  induction s generalizing before with
  | nil =>
      rw [search_lazy consumes_valueItem, escape_nil, List.nil_append, hend]
      rfl
  | cons c s ih =>
      have hlast' (d : Char) (hd : d ∈ s.getLast?) : isSpace d = false := by
        refine hlast d ?_
        rw [List.getLast?_cons, Option.mem_def.mp hd]
        rfl
      have hne : escape cefValueCode (c :: s) ++ after ≠ [] := by
        rw [ne_eq, List.append_eq_nil_iff, escape_eq_nil_iff]
        simp
      have hstay := hinside before _ (not_named_escape (List.cons_ne_nil c s) hlast hafter) hne
        (escape_cons_append_ne_lineFeed c s after)
      rw [search_lazy consumes_valueItem, hstay, Option.none_or]
      apply search_valueItem_escape
      · exact fun _ => ih hlast'
      · exact fun _ d hd => search_value_letter hinside hd fun _ => ih hlast'

theorem search_wholeValue {s : List Char} (hne : s ≠ [])
    (hend : ∀ before, k ⟨before, after, groups⟩ = Option.some a)
    (hinside : ∀ before rest, ¬ Named rest → rest ≠ [] → rest ≠ ['\n'] →
      k ⟨before, rest, groups⟩ = none)
    (hlast : ∀ c ∈ s.getLast?, isSpace c = false) (hafter : ∀ c ∈ after.head?, c = ' ') :
    search (seq valueItem (star false valueItem)) k
      ⟨before, escape cefValueCode s ++ after, groups⟩ = Option.some a := by
  obtain ⟨c, s, rfl⟩ := List.exists_cons_of_ne_nil hne
  have hlast' (d : Char) (hd : d ∈ s.getLast?) : isSpace d = false := by
    refine hlast d ?_
    rw [List.getLast?_cons, Option.mem_def.mp hd]
    rfl
  have hrest (before : Option Char) : search (star false valueItem) k
      ⟨before, escape cefValueCode s ++ after, groups⟩ = Option.some a :=
    search_value hend hinside hlast' hafter
  rw [search_seq]
  apply search_valueItem_escape hrest
  exact fun _ d hd => search_value_letter hinside hd hrest

theorem search_pair {key value : String} (hkey : IsKey key.toList) (hvalue : PlainValue value)
    (hafter : after = [] ∨ ∃ name t, after = ' ' :: (name ++ '=' :: t) ∧ IsKey name) :
    ∃ m, search cefExtensionRegex Option.some ⟨before, cefPair (key, value) ++ after, []⟩ =
        Option.some m ∧ m.rest = after ∧
      m.groups = [(2, escape cefValueCode value.toList), (1, key.toList)] := by
  have hblank : ∀ c ∈ after.head?, c = ' ' := by
    obtain rfl | ⟨name, t, rfl, -⟩ := hafter
    · rintro c ⟨⟩
    · rintro c ⟨⟩
      rfl
  apply exists_of_search_eq
  rw [cefPair, List.append_assoc, List.cons_append, cefExtensionRegex_eq]
  simp only [search_all_cons, search_all_nil]
  apply search_group_of_reads
  · refine reads_some_char hkey.ne_nil hkey.chars ?_
    rintro c ⟨⟩
    decide
  · intro _
    apply search_of_reads (reads_text "=" _)
    intro _
    have htake : (escape cefValueCode value.toList ++ after).take
        ((escape cefValueCode value.toList ++ after).length - after.length) =
          escape cefValueCode value.toList := by
      rw [List.length_append, Nat.add_sub_cancel, List.take_left]
    rw [search_group]
    apply search_wholeValue hvalue.ne_nil _ _ hvalue.last hblank
    · intro _
      exact (search_valueEnd hafter).trans (congrArg (fun captured =>
        Option.some (after, [(2, captured), (1, key.toList)])) htake)
    · intro _ _ hnamed hne hlf
      exact search_valueEnd_of_not hnamed hne hlf

theorem stuck_blank : Stuck cefExtensionRegex (' ' :: rest) := by
  have hname : Stuck extensionKey (' ' :: rest) := by
    refine (stuck_char ?_).seq _
    rintro c ⟨⟩
    decide
  exact (hname.group 1).seq _

theorem groups_findFrom {attributes : List (String × String)}
    (h : ∀ entry ∈ attributes, IsKey entry.1.toList ∧ PlainValue entry.2)
    (before : Option Char) :
    (findFrom cefExtensionRegex 0 before (cefExtension attributes)).map Cursor.groups =
      attributes.map fun entry =>
        [(2, escape cefValueCode entry.2.toList), (1, entry.1.toList)] := by
  induction attributes generalizing before with
  | nil => rfl
  | cons entry attributes ih =>
      obtain ⟨⟨hkey, hvalue⟩, hrest⟩ := List.forall_mem_cons.mp h
      obtain ⟨x, name, hname⟩ := List.exists_cons_of_ne_nil hkey.ne_nil
      have hpair : cefPair entry = x :: (name ++ '=' :: escape cefValueCode entry.2.toList) := by
        rw [cefPair, hname, List.cons_append]
      have hmatch (after : List Char)
          (hafter : after = [] ∨ ∃ name t, after = ' ' :: (name ++ '=' :: t) ∧ IsKey name) :
          ∃ before', (findFrom cefExtensionRegex 0 before (cefPair entry ++ after)).map
            Cursor.groups = [(2, escape cefValueCode entry.2.toList), (1, entry.1.toList)] ::
              (findFrom cefExtensionRegex 0 before' after).map Cursor.groups := by
        obtain ⟨m, hm, rfl, hgroups⟩ := @search_pair before _ _ _ hkey hvalue hafter
        rw [hpair] at hm
        obtain ⟨before', hfind⟩ := findFrom_of_search hm
        refine ⟨before', ?_⟩
        rw [hpair, hfind, List.map_cons, hgroups]
      rw [List.map_cons]
      cases attributes with
      | nil =>
          obtain ⟨before', hfind⟩ := hmatch [] (Or.inl rfl)
          rw [List.append_nil] at hfind
          rw [cefExtension_singleton, hfind]
          rfl
      | cons next attributes =>
          obtain ⟨t, ht⟩ := exists_cefExtension_cons next attributes
          obtain ⟨before', hfind⟩ := hmatch (' ' :: cefExtension (next :: attributes))
            (Or.inr ⟨next.1.toList, t, by rw [ht], (hrest next List.mem_cons_self).1⟩)
          rw [cefExtension_cons_cons, hfind, findFrom_of_stuck stuck_blank, ih hrest]

end Pairs

section Extensions

variable {attributes : List (String × String)}

/-- `parse_cef_extension` reads the attributes back: the same ones, in their order. -/
def RecoversExtension (attributes : List (String × String)) : Prop :=
  (CEFParser.parseCefExtension (cefExtension attributes)).entries =
    attributes.map fun entry => (entry.1, .str entry.2)

/-- The entry that is made of the groups of a match. -/
def entryOf (groups : List (ℕ × List Char)) : String × PyVal :=
  let m : Cursor := ⟨none, [], groups⟩
  (String.ofList (stripChars (m.groupD 1)), strVal (unquote (replaceEach (stripChars (m.groupD 2))
    [("\\=", "="), ("\\|", "|"), ("\\\\", "\\"), ("\\n", "\n"), ("\\r", "\r")])))

theorem parseCefExtension_eq (ext : List Char) : CEFParser.parseCefExtension ext =
    Dict.ofList (((findAll cefExtensionRegex ext).map Cursor.groups).map entryOf) := by
  rw [CEFParser.parseCefExtension, Dict.ofList, Dict.update, List.foldl_map, List.foldl_map]
  rfl

theorem stripChars_of_isKey {name : List Char} (h : IsKey name) : stripChars name = name :=
  trim_eq_self (fun c hc => isSpace_of_isKeyChar (h.chars c (List.mem_of_mem_head? hc)))
    fun c hc => isSpace_of_isKeyChar (h.chars c (List.mem_of_mem_getLast? hc))

theorem isKey_of_mem_run {m c : Cursor} (h : m ∈ run cefExtensionRegex c) :
    ∃ name, IsKey name ∧ (entryOf m.groups).1 = String.ofList name := by
  rw [cefExtensionRegex_eq] at h
  obtain ⟨c₁, hfirst, hlater⟩ := List.mem_flatMap.mp h
  obtain ⟨name, next, hnext, hname, -, hgroups⟩ := exists_of_mem_run_group hfirst
  obtain ⟨name', hne, hname', hchars, -⟩ := exists_of_mem_run_some hnext
  obtain rfl : name = name' := List.append_cancel_right (hname.symm.trans hname')
  obtain ⟨captured, hcaptured, hindices⟩ := groups_of_mem_run hlater
  have hkey : IsKey name := ⟨hne, hchars⟩
  refine ⟨name, hkey, ?_⟩
  have hnone : captured.find? (fun entry => entry.1 == 1) = none := by
    rw [List.find?_eq_none]
    intro entry hentry
    have hindex : entry.1 ∈ [2] := hindices entry hentry
    rw [List.mem_singleton.mp hindex]
    decide
  rw [entryOf, Cursor.groupD, Cursor.group?, hcaptured, hgroups, List.find?_append, hnone]
  show String.ofList (stripChars name) = String.ofList name
  rw [stripChars_of_isKey hkey]

theorem isKey_of_mem_keys {ext : List Char} {key : String}
    (h : key ∈ (CEFParser.parseCefExtension ext).keys) : IsKey key.toList := by
  rw [parseCefExtension_eq] at h
  obtain ⟨entry, hentry, rfl⟩ := List.mem_map.mp h
  obtain ⟨groups, hgroups, rfl⟩ := List.mem_map.mp (Dict.mem_of_mem_ofList hentry)
  obtain ⟨m, hm, rfl⟩ := List.mem_map.mp hgroups
  obtain ⟨before, rest, hmatch⟩ := exists_of_mem_findFrom hm
  obtain ⟨name, hname, heq⟩ := isKey_of_mem_run hmatch
  rw [heq, String.toList_ofList]
  exact hname

theorem entryOf_pair {key value : String} (hkey : IsKey key.toList) (hvalue : PlainValue value) :
    entryOf [(2, escape cefValueCode value.toList), (1, key.toList)] =
      (key, strVal (unquote (replaceEach value.toList [("\\n", "\n"), ("\\r", "\r")]))) := by
  show (String.ofList (stripChars key.toList), strVal (unquote (replaceEach
    (stripChars (escape cefValueCode value.toList)) _))) = _
  rw [stripChars_of_isKey hkey, stripChars_escape hvalue, replaceEach_escape, String.ofList_toList]

theorem entries_parseCefExtension (hdistinct : (attributes.map Prod.fst).Nodup)
    (hkeys : ∀ entry ∈ attributes, IsKey entry.1.toList)
    (hvalues : ∀ entry ∈ attributes, PlainValue entry.2) :
    (CEFParser.parseCefExtension (cefExtension attributes)).entries = attributes.map fun entry =>
      (entry.1, strVal (unquote (replaceEach entry.2.toList [("\\n", "\n"), ("\\r", "\r")]))) := by
  have hread : (attributes.map fun entry =>
      [(2, escape cefValueCode entry.2.toList), (1, entry.1.toList)]).map entryOf =
        attributes.map fun entry => (entry.1, strVal (unquote (replaceEach entry.2.toList
          [("\\n", "\n"), ("\\r", "\r")]))) := by
    rw [List.map_map]
    apply List.map_congr_left
    intro entry hentry
    exact entryOf_pair (hkeys entry hentry) (hvalues entry hentry)
  rw [parseCefExtension_eq, findAll,
    groups_findFrom fun entry hentry => ⟨hkeys entry hentry, hvalues entry hentry⟩, hread]
  apply Dict.entries_ofList_of_nodup
  rw [List.map_map]
  exact hdistinct

theorem recoversExtension_iff (hdistinct : (attributes.map Prod.fst).Nodup)
    (hvalues : ∀ entry ∈ attributes, PlainValue entry.2) :
    RecoversExtension attributes ↔
      (∀ entry ∈ attributes, IsKey entry.1.toList) ∧
        ∀ entry ∈ attributes, BreakFree entry.2.toList := by
  have hread (hkeys : ∀ entry ∈ attributes, IsKey entry.1.toList) :
      RecoversExtension attributes ↔ ∀ entry ∈ attributes, BreakFree entry.2.toList := by
    rw [RecoversExtension, entries_parseCefExtension hdistinct hkeys hvalues, List.map_inj_left]
    refine forall₂_congr fun entry hentry => ?_
    rw [← unquote_replaceEach_eq_iff (hvalues entry hentry), strVal, Prod.mk.injEq,
      Json.str.injEq, and_iff_right rfl, ← String.toList_inj, String.toList_ofList]
  constructor
  · intro h
    have hkeys (entry : String × String) (hentry : entry ∈ attributes) :
        IsKey entry.1.toList := by
      apply isKey_of_mem_keys
      rw [Dict.keys, h, List.map_map]
      exact List.mem_map_of_mem hentry
    exact ⟨hkeys, (hread hkeys).mp h⟩
  · rintro ⟨hkeys, hfree⟩
    exact (hread hkeys).mpr hfree

theorem recoversExtension_iff_request :
    RecoversExtension [("act", "a=b c"), ("msg", "two\nlines")] ↔
      (∀ entry ∈ [("act", "a=b c"), ("msg", "two\nlines")], IsKey entry.1.toList) ∧
        ∀ entry ∈ [("act", "a=b c"), ("msg", "two\nlines")], BreakFree entry.2.toList :=
  recoversExtension_iff (by decide) (by
    simp only [List.forall_mem_cons]
    exact ⟨⟨by decide, by simp [isSpace, Unicode.isSpace], by simp [isSpace, Unicode.isSpace],
      by simp⟩, ⟨by decide, by simp [isSpace, Unicode.isSpace], by simp [isSpace, Unicode.isSpace],
      by simp⟩, List.forall_mem_nil _⟩)

/-- The path of a Windows directory comes back with a line feed. -/
theorem not_recoversExtension_windowsPath :
    ¬ ∀ attributes : List (String × String), (attributes.map Prod.fst).Nodup →
      (∀ entry ∈ attributes, PlainValue entry.2) → RecoversExtension attributes := by
  intro hall
  have hrecovers := hall [("filePath", "C:\\new")] (by decide) (by
    simp only [List.forall_mem_singleton]
    exact ⟨by decide, by simp [isSpace, Unicode.isSpace], by simp [isSpace, Unicode.isSpace],
      by simp⟩)
  have hread : (CEFParser.parseCefExtension (cefExtension [("filePath", "C:\\new")])).entries =
      [("filePath", .str "C:\new")] := by
    decide +kernel
  have heq := hread.symm.trans hrecovers
  revert heq
  decide

end Extensions

end Ulpf.SourceProfiler
