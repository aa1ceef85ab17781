import Ulpf.Lib.Text
import Mathlib.Data.List.Basic
import Mathlib.Logic.Function.Basic

/-!
Escaped texts, in which a character with a meaning of its own is written as a backslash and a
letter, and readers that replace one pair after the other.
-/

namespace Ulpf.Lib.Text

section Replacement

variable {old new s : List Char}

theorem replace_nil (old new : List Char) : replace old new [] = [] := rfl

theorem replaceFrom_append (old new s t : List Char) :
    replaceFrom old new s.length (s ++ t) = replace old new t := by
  induction s with
  | nil => rfl
  | cons c s ih => rw [List.length_cons, List.cons_append, replaceFrom, ih]

theorem replace_append (hne : old ≠ []) (s : List Char) :
    replace old new (old ++ s) = new ++ replace old new s := by
  obtain ⟨c, rest, rfl⟩ := List.exists_cons_of_ne_nil hne
  have hpre : (c :: rest).isPrefixOf (c :: (rest ++ s)) = true := by simp
  rw [replace, List.cons_append, replaceFrom, if_pos hpre, List.length_cons,
    Nat.add_sub_cancel, replaceFrom_append]

theorem replace_cons {c : Char} (h : ¬ old <+: c :: s) :
    replace old new (c :: s) = c :: replace old new s := by
  rw [replace, replaceFrom, if_neg (by simpa using h), ← replace]

/-- What ends a text is replaced when nothing before it can begin an occurrence. -/
theorem replace_append_of_notMem {c : Char} {old s : List Char} (h : c ∉ s) :
    replace (c :: old) new (s ++ c :: old) = s ++ new := by
  induction s with
  | nil =>
      have hall : replace (c :: old) new (c :: old ++ []) = new ++ replace (c :: old) new [] :=
        replace_append (List.cons_ne_nil c old) []
      rw [List.append_nil, replace_nil, List.append_nil] at hall
      exact hall
  | cons d s ih =>
      have hd : c ≠ d := List.ne_of_not_mem_cons h
      have hs : c ∉ s := List.not_mem_of_not_mem_cons h
      rw [List.cons_append, replace_cons, ih hs, List.cons_append]
      intro hprefix
      exact hd (List.cons_prefix_cons.mp hprefix).1

/-- A replacement that turns the writing of each character, whatever follows it, into another
one turns the text into the other one. -/
theorem replace_flatMap {f g : Char → List Char}
    (h : ∀ (c : Char) (s : List Char),
      replace old new (f c ++ s.flatMap f) = g c ++ replace old new (s.flatMap f))
    (s : List Char) : replace old new (s.flatMap f) = s.flatMap g := by
  induction s with
  | nil => rfl
  | cons c s ih => rw [List.flatMap_cons, List.flatMap_cons, h, ih]

theorem replace_singleton (c : Char) (new s : List Char) :
    replace [c] new s = s.flatMap fun d => if d = c then new else [d] := by
  rw [replace]
  induction s with
  | nil => rfl
  | cons d s ih =>
      rw [replaceFrom, List.flatMap_cons]
      by_cases hd : d = c
      · simp [hd, ih]
      · simp [hd, Ne.symm hd, ih]

theorem flatMap_eq_self {c : Char} {new s : List Char} (h : c ∉ s) :
    (s.flatMap fun d => if d = c then new else [d]) = s := by
  induction s with
  | nil => rfl
  | cons d s ih =>
      obtain ⟨hd, hs⟩ := not_or.mp (mt List.mem_cons.mpr h)
      rw [List.flatMap_cons, if_neg (Ne.symm hd), ih hs]
      rfl

theorem replace_shortens (hlt : new.length < old.length) (s : List Char) :
    (old <:+: s ∧ (replace old new s).length < s.length) ∨
      (¬ old <:+: s ∧ replace old new s = s) := by
  have hne : old ≠ [] := List.ne_nil_of_length_pos (Nat.zero_lt_of_lt hlt)
  induction hlength : s.length using Nat.strong_induction_on generalizing s with
  | _ n ih =>
      subst hlength
      cases s with
      | nil =>
          right
          exact ⟨fun h => hne (List.infix_nil.mp h), rfl⟩
      | cons c s =>
          by_cases hpre : old <+: c :: s
          · obtain ⟨t, ht⟩ := hpre
            left
            refine ⟨⟨[], t, by simp [ht]⟩, ?_⟩
            have hle : (replace old new t).length ≤ t.length := by
              have hshorter : t.length < (c :: s).length := by
                rw [← ht, List.length_append]
                omega
              obtain ⟨-, hlt'⟩ | ⟨-, heq⟩ := ih _ hshorter t rfl
              · exact hlt'.le
              · rw [heq]
            rw [← ht, replace_append hne, List.length_append, List.length_append]
            omega
          · rw [replace_cons hpre]
            obtain ⟨hfactor, hlt'⟩ | ⟨hfactor, heq⟩ := ih _ (Nat.lt_succ_self _) s rfl
            · left
              exact ⟨hfactor.trans (List.suffix_cons c s).isInfix, Nat.succ_lt_succ hlt'⟩
            · right
              refine ⟨fun h => ?_, by rw [heq]⟩
              exact (List.infix_cons_iff.mp h).elim hpre hfactor

theorem length_replace_le (hlt : new.length < old.length) (s : List Char) :
    (replace old new s).length ≤ s.length := by
  obtain ⟨-, hlt'⟩ | ⟨-, heq⟩ := replace_shortens hlt s
  · exact hlt'.le
  · rw [heq]

theorem replace_eq_self_iff (hlt : new.length < old.length) :
    replace old new s = s ↔ ¬ old <:+: s := by
  obtain ⟨hfactor, hlt'⟩ | ⟨hfactor, heq⟩ := replace_shortens hlt s
  · refine iff_of_false (fun heq => ?_) (not_not_intro hfactor)
    rw [heq] at hlt'
    exact lt_irrefl _ hlt'
  · exact iff_of_true heq hfactor

end Replacement

section Escapes

/-- A text with a backslash before the letters of its coded characters. -/
def escape (code : Char → Option Char) (s : List Char) : List Char :=
  s.flatMap fun c => match code c with
    | some d => ['\\', d]
    | none => [c]

variable {code : Char → Option Char} {c d : Char} {s : List Char}

@[simp] theorem escape_nil (code : Char → Option Char) : escape code [] = [] := rfl

theorem escape_cons_coded (h : code c = some d) (s : List Char) :
    escape code (c :: s) = '\\' :: d :: escape code s := by
  rw [escape, List.flatMap_cons, h]
  rfl

theorem escape_cons_plain (h : code c = none) (s : List Char) :
    escape code (c :: s) = c :: escape code s := by
  rw [escape, List.flatMap_cons, h]
  rfl

theorem escape_append (s t : List Char) : escape code (s ++ t) = escape code s ++ escape code t :=
  List.flatMap_append

theorem escape_eq_nil_iff : escape code s = [] ↔ s = [] := by
  cases s with
  | nil => simp
  | cons c s => cases hc : code c <;> simp [escape, hc]

theorem escape_eq_self (h : ∀ c ∈ s, code c = none) : escape code s = s := by
  induction s with
  | nil => rfl
  | cons c s ih =>
      rw [escape_cons_plain (h c List.mem_cons_self),
        ih fun c hc => h c (List.mem_cons_of_mem _ hc)]

/-- A text in which each backslash takes a character along, and a certain character stands
only behind one. -/
inductive Escaped (stop : Char) : List Char → Prop where
  | nil : Escaped stop []
  | plain {c : Char} {s : List Char} :
      c ≠ '\\' → c ≠ stop → Escaped stop s → Escaped stop (c :: s)
  | pair {c : Char} {s : List Char} : Escaped stop s → Escaped stop ('\\' :: c :: s)

theorem escaped_of_forall (h : ∀ c ∈ s, c ≠ '\\' ∧ c ≠ d) : Escaped d s := by
  induction s with
  | nil => exact .nil
  | cons c s ih =>
      obtain ⟨⟨hbackslash, hstop⟩, h⟩ := List.forall_mem_cons.mp h
      exact .plain hbackslash hstop (ih h)

theorem escaped_escape (hbackslash : code '\\' ≠ none) (hstop : code d ≠ none) (s : List Char) :
    Escaped d (escape code s) := by
  induction s with
  | nil => exact .nil
  | cons c s ih =>
      cases hc : code c with
      | some e =>
          rw [escape_cons_coded hc]
          exact .pair ih
      | none =>
          rw [escape_cons_plain hc]
          refine .plain ?_ ?_ ih
          · rintro rfl
            exact hbackslash hc
          · rintro rfl
            exact hstop hc

theorem head?_escape (hcode : code d ≠ none) (hd : d ≠ '\\') : (escape code s).head? ≠ some d := by
  cases s with
  | nil => simp
  | cons c s =>
      cases hc : code c with
      | some e =>
          rw [escape_cons_coded hc]
          simpa using Ne.symm hd
      | none =>
          rw [escape_cons_plain hc]
          rintro heq
          cases heq
          exact hcode hc

theorem mem_head?_escape (h : c ∈ (escape code s).head?) : c = '\\' ∨ c ∈ s.head? := by
  cases s with
  | nil => cases h
  | cons d s =>
      cases hd : code d with
      | some e =>
          rw [escape_cons_coded hd] at h
          cases h
          exact Or.inl rfl
      | none =>
          rw [escape_cons_plain hd] at h
          exact Or.inr h

theorem mem_getLast?_escape (h : c ∈ (escape code s).getLast?) :
    (∃ d, code d = some c) ∨ c ∈ s.getLast? := by
  obtain rfl | ⟨t, d, rfl⟩ := List.eq_nil_or_concat' s
  · cases h
  · cases hd : code d with
    | some e =>
        rw [escape_append, escape_cons_coded hd, escape_nil, List.getLast?_append] at h
        cases h
        exact Or.inl ⟨d, hd⟩
    | none =>
        rw [escape_append, escape_cons_plain hd, escape_nil, List.getLast?_concat] at h
        rw [List.getLast?_concat]
        exact Or.inr h

theorem update_none_eq_some_iff {a e : Char} :
    Function.update code a none c = some e ↔ c ≠ a ∧ code c = some e := by
  rw [Function.update_apply]
  split
  · rename_i hc
    simp [hc]
  · rename_i hc
    simp [hc]

/-- Replacing the pairs of one letter that stands for itself leaves the writing in which this
character is not escaped. -/
theorem replace_escape (code : Char → Option Char) (hbackslash : code '\\' = some '\\')
    (hself : code d = some d) (hinj : ∀ c, code c = some d → c = d) (s : List Char) :
    replace ['\\', d] [d] (escape code s) = escape (Function.update code d none) s := by
  rw [escape, escape]
  apply replace_flatMap
  intro c s
  by_cases hcd : c = d
  · subst hcd
    rw [hself, Function.update_self]
    exact replace_append (by simp) _
  · rw [Function.update_of_ne hcd]
    cases hc : code c with
    | none =>
        have hplain : c ≠ '\\' := by
          rintro rfl
          rw [hbackslash] at hc
          cases hc
        exact replace_cons (by simp [Ne.symm hplain])
    | some e =>
        have hed : e ≠ d := by
          rintro rfl
          exact hcd (hinj c hc)
        have hsecond : ¬ ['\\', d] <+: e :: escape code s := by
          intro hpre
          obtain ⟨rfl, hrest⟩ := List.cons_prefix_cons.mp hpre
          have hhead : (escape code s).head? = some d := by
            obtain ⟨t, ht⟩ := hrest
            rw [← ht]
            rfl
          exact head?_escape (by rw [hself]; simp) (Ne.symm hed) hhead
        calc replace ['\\', d] [d] ('\\' :: e :: escape code s)
            = '\\' :: replace ['\\', d] [d] (e :: escape code s) := by
              apply replace_cons
              simp [Ne.symm hed]
          _ = '\\' :: e :: replace ['\\', d] [d] (escape code s) := by rw [replace_cons hsecond]

/-- Replacing the pairs of a character that is not escaped takes a backslash of a pair before it;
replacing the pairs of backslashes afterwards comes out even. -/
theorem replace_backslash_replace (hbackslash : code '\\' = some '\\')
    (hinj : ∀ c, code c = some '\\' → c = '\\') (hplain : code d = none)
    (hletter : ∀ c, code c ≠ some d) (s : List Char) :
    replace ['\\', '\\'] ['\\'] (replace ['\\', d] [d] (escape code s)) =
      escape (Function.update code '\\' none) s := by
  have hd : d ≠ '\\' := by
    rintro rfl
    exact hletter _ hbackslash
  induction s with
  | nil => rfl
  | cons c s ih =>
      cases hc : code c with
      | none =>
          have hne : c ≠ '\\' := by
            rintro rfl
            rw [hbackslash] at hc
            cases hc
          have hc' : Function.update code '\\' none c = none := by
            rw [Function.update_of_ne hne, hc]
          rw [escape_cons_plain hc, escape_cons_plain hc',
            replace_cons (by simp [Ne.symm hne]), replace_cons (by simp [Ne.symm hne]), ih]
      | some e =>
          have hed : e ≠ d := by
            rintro rfl
            exact hletter c hc
          rw [escape_cons_coded hc]
          by_cases hce : e = '\\'
          · obtain rfl := hce
            obtain rfl := hinj c hc
            rw [escape_cons_plain (Function.update_self _ _ _), ← ih,
              @replace_cons ['\\', d] [d] _ _ (by simp [hd])]
            by_cases hpair : ['\\', d] <+: '\\' :: escape code s
            · obtain ⟨t, ht⟩ := hpair
              have hs : escape code s = d :: t := (List.cons.inj ht).2.symm
              have hinner : replace ['\\', d] [d] ('\\' :: escape code s) =
                  d :: replace ['\\', d] [d] t := by
                rw [← ht, replace_append (by simp)]
                rfl
              rw [hinner, replace_cons (by simp [Ne.symm hd]), hs,
                @replace_cons ['\\', d] [d] _ _ (by simp [Ne.symm hd])]
            · rw [replace_cons hpair]
              exact replace_append (by simp) _
          · have hne : c ≠ '\\' := by
              rintro rfl
              rw [hbackslash] at hc
              exact hce (Option.some.inj hc).symm
            have hc' : Function.update code '\\' none c = some e := by
              rw [Function.update_of_ne hne, hc]
            rw [escape_cons_coded hc', ← ih,
              @replace_cons ['\\', d] [d] _ _ (by simp [Ne.symm hed]),
              @replace_cons ['\\', d] [d] _ _ (by simp [Ne.symm hce]),
              replace_cons (by simp [Ne.symm hce]), replace_cons (by simp [Ne.symm hce])]

/-- The pairs that stand for a character are also read where the text itself has them. -/
theorem replace_escape_of_plain {e : Char} (hbackslash : code '\\' = none)
    (hletters : ∀ c, code c ≠ some '\\') (hself : code d = some e)
    (hinj : ∀ c, code c = some e → c = d) (hplain : code e = none) (s : List Char) :
    replace ['\\', e] [d] (escape code s) =
      escape (Function.update code d none) (replace ['\\', e] [d] s) := by
  have hed : e ≠ d := by
    rintro rfl
    rw [hself] at hplain
    cases hplain
  have hslash : e ≠ '\\' := by
    rintro rfl
    exact hletters d hself
  have hd : d ≠ '\\' := by
    rintro rfl
    rw [hself] at hbackslash
    cases hbackslash
  induction hlength : s.length using Nat.strong_induction_on generalizing s with
  | _ n ih =>
      subst hlength
      cases s with
      | nil => rfl
      | cons c s =>
          by_cases hpair : ['\\', e] <+: c :: s
          · obtain ⟨t, ht⟩ := hpair
            have hshorter : t.length < (c :: s).length := by
              rw [← ht, List.length_append]
              exact Nat.lt_add_of_pos_left (by simp)
            have hwritten : escape code (['\\', e] ++ t) = ['\\', e] ++ escape code t := by
              rw [escape_append, escape_cons_plain hbackslash, escape_cons_plain hplain, escape_nil]
            rw [← ht, hwritten, replace_append (by simp), replace_append (by simp), escape_append,
              ih _ hshorter t rfl, escape_cons_plain (Function.update_self _ _ _), escape_nil]
          · rw [replace_cons hpair]
            have hrest := ih _ (Nat.lt_succ_self _) s rfl
            by_cases hcd : c = d
            · obtain rfl := hcd
              rw [escape_cons_coded hself, escape_cons_plain (Function.update_self _ _ _), ← hrest]
              exact replace_append (by simp) _
            · cases hc : code c with
              | some e' =>
                  have hee : e' ≠ e := by
                    rintro rfl
                    exact hcd (hinj c hc)
                  have hslash' : e' ≠ '\\' := by
                    rintro rfl
                    exact hletters c hc
                  have hc' : Function.update code d none c = some e' := by
                    rw [Function.update_of_ne hcd, hc]
                  rw [escape_cons_coded hc, escape_cons_coded hc', ← hrest,
                    replace_cons (by simp [Ne.symm hee]), replace_cons (by simp [Ne.symm hslash'])]
              | none =>
                  have hc' : Function.update code d none c = none := by
                    rw [Function.update_of_ne hcd, hc]
                  have hpair' : ¬ ['\\', e] <+: c :: escape code s := by
                    intro hpre
                    obtain ⟨rfl, t, ht⟩ := List.cons_prefix_cons.mp hpre
                    cases s with
                    | nil => cases ht
                    | cons x s =>
                        cases hx : code x with
                        | some _ =>
                            rw [escape_cons_coded hx] at ht
                            exact hslash (List.cons.inj ht).1
                        | none =>
                            rw [escape_cons_plain hx] at ht
                            obtain rfl := (List.cons.inj ht).1
                            exact hpair (by simp)
                  rw [escape_cons_plain hc, escape_cons_plain hc', ← hrest, replace_cons hpair']

end Escapes

end Ulpf.Lib.Text
