import Ulpf.Lib.JsonText

/-!
What the scanners of the JSON parser leave of a text: how far a string literal, a
number or a word goes, an induction over all that is read, and where the brackets of
a text close.
-/

namespace Ulpf.Lib.JsonText

open Text

/-- `null`, a truth value or a number. -/
def parseScalar (s : List Char) : Option (Json NumLit × List Char) :=
  parseWord ⟨false, none⟩ s <|> (parseNumber s).map fun (n, r) => (.num n, r)

section Brackets

/-- What follows the character with which the brackets outside of string literals
close for the first time. The arguments before the text tell how many are open and
whether it begins within a string literal. -/
def closing (opts : Options) : ℕ → Bool → List Char → Option (List Char)
  | _, _, [] => none
  | depth, true, '\\' :: _ :: rest => closing opts depth true rest
  | depth, true, c :: rest => closing opts depth (c ≠ '"') rest
  | depth, false, c :: rest =>
      if c = '"' then closing opts depth true rest
      else if c = '[' ∨ c = '{' then
        if depthOk opts depth then closing opts (depth + 1) false rest else none
      else if c = ']' ∨ c = '}' then
        if depth ≤ 1 then some rest else closing opts (depth - 1) false rest
      else closing opts depth false rest

/-- Neither a bracket nor a quote. -/
def Plain (c : Char) : Prop := c ≠ '"' ∧ c ≠ '[' ∧ c ≠ '{' ∧ c ≠ ']' ∧ c ≠ '}'

instance (c : Char) : Decidable (Plain c) := inferInstanceAs (Decidable (_ ∧ _))

variable {opts : Options}

theorem closing_plain {pre : List Char} (hplain : ∀ c ∈ pre, Plain c) (depth : ℕ)
    (rest : List Char) :
    closing opts depth false (pre ++ rest) = closing opts depth false rest := by
  induction pre with
  | nil => rfl
  | cons c pre ih =>
      obtain ⟨⟨hquote, harr, hobj, hendArr, hendObj⟩, hpre⟩ := List.forall_mem_cons.mp hplain
      rw [List.cons_append, closing]
      simp only [hquote, harr, hobj, hendArr, hendObj, or_self, if_false]
      exact ih hpre

theorem closing_plainHead {c : Char} (hc : Plain c) (depth : ℕ) (rest : List Char) :
    closing opts depth false (c :: rest) = closing opts depth false rest :=
  closing_plain (List.forall_mem_singleton.mpr hc) depth rest

theorem closing_notSlash {c : Char} (hslash : c ≠ '\\') (depth : ℕ) (rest : List Char) :
    closing opts depth true (c :: rest) = closing opts depth (c ≠ '"') rest := by
  rw [closing.eq_def]
  split <;> simp_all

theorem closing_inString {c : Char} (hquote : c ≠ '"') (hslash : c ≠ '\\') (depth : ℕ)
    (rest : List Char) :
    closing opts depth true (c :: rest) = closing opts depth true rest := by
  rw [closing_notSlash hslash, decide_eq_true hquote]

theorem hex?_plain {c : Char} {d : ℕ} (h : hex? c = some d) : c ≠ '"' ∧ c ≠ '\\' := by
  constructor
  · rintro rfl
    simp [hex?] at h
  · rintro rfl
    simp [hex?] at h

/-- Text between the quotes of a string literal: no quote that is not escaped. -/
inductive InString : List Char → Prop where
  | nil : InString []
  | escaped {c : Char} {body : List Char} : InString body → InString ('\\' :: c :: body)
  | plain {c : Char} {body : List Char} : c ≠ '"' → c ≠ '\\' → InString body →
      InString (c :: body)

theorem scanString_eq_some {s rest : List Char} {units : List (Char ⊕ ℕ)}
    (h : scanString s = some (units, rest)) : ∃ body, InString body ∧ s = body ++ '"' :: rest := by
  induction s using scanString.induct generalizing units with
  | case1 => simp [scanString] at h
  | case2 rest' =>
      simp only [scanString, Option.some.injEq, Prod.mk.injEq] at h
      exact ⟨[], .nil, by rw [h.2, List.nil_append]⟩
  | case3 a b c d rest' ih =>
      simp only [scanString, Option.bind_eq_bind, Option.bind_eq_some_iff] at h
      obtain ⟨x, hx, y, hy, z, hz, w, hw, ⟨us, r⟩, hscan, h⟩ := h
      simp only [Option.pure_def, Option.some.injEq, Prod.mk.injEq] at h
      obtain ⟨-, rfl⟩ := h
      obtain ⟨body, hbody, rfl⟩ := ih hscan
      have ha := hex?_plain hx
      have hb := hex?_plain hy
      have hc := hex?_plain hz
      have hd := hex?_plain hw
      exact ⟨'\\' :: 'u' :: a :: b :: c :: d :: body,
        .escaped (.plain ha.1 ha.2 (.plain hb.1 hb.2 (.plain hc.1 hc.2 (.plain hd.1 hd.2 hbody)))),
        rfl⟩
  | case4 c rest' hu ih =>
      rw [scanString] at h
      · simp only [Option.bind_eq_bind, Option.bind_eq_some_iff] at h
        obtain ⟨decoded, -, ⟨us, r⟩, hscan, h⟩ := h
        simp only [Option.pure_def, Option.some.injEq, Prod.mk.injEq] at h
        obtain ⟨-, rfl⟩ := h
        obtain ⟨body, hbody, rfl⟩ := ih hscan
        exact ⟨'\\' :: c :: body, .escaped hbody, rfl⟩
      · exact hu
  | case5 c rest' h1 h2 h3 hcond =>
      rw [scanString, if_pos hcond] at h
      · cases h
      · assumption
      · assumption
      · assumption
  | case6 c rest' h1 h2 h3 hcond ih =>
      rw [scanString, if_neg hcond] at h
      · simp only [Option.bind_eq_bind, Option.bind_eq_some_iff] at h
        obtain ⟨⟨us, r⟩, hscan, h⟩ := h
        simp only [Option.pure_def, Option.some.injEq, Prod.mk.injEq] at h
        obtain ⟨-, rfl⟩ := h
        obtain ⟨body, hbody, rfl⟩ := ih hscan
        push Not at hcond
        exact ⟨c :: body, .plain h1 hcond.2 hbody, rfl⟩
      · assumption
      · assumption
      · assumption

theorem parseString_eq_some {s rest : List Char} {t : String}
    (h : parseString s = some (t, rest)) : ∃ body, InString body ∧ s = body ++ '"' :: rest := by
  obtain ⟨⟨units, r⟩, hscan, hr⟩ := Option.map_eq_some_iff.mp h
  obtain ⟨-, rfl⟩ := Prod.mk.inj hr
  exact scanString_eq_some hscan

theorem closing_string {body : List Char} (hbody : InString body) (depth : ℕ)
    (rest : List Char) :
    closing opts depth true (body ++ '"' :: rest) = closing opts depth false rest := by
  induction hbody with
  | nil => cases rest <;> simp [closing]
  | escaped _ ih =>
      rw [List.cons_append, List.cons_append, closing]
      exact ih
  | plain hquote hslash _ ih =>
      rw [List.cons_append, closing_inString hquote hslash]
      exact ih

end Brackets

section Scalars

/-- What is left of a text after some characters that are neither brackets nor quotes. -/
def PlainPrefix (s rest : List Char) : Prop := ∃ pre, s = pre ++ rest ∧ ∀ c ∈ pre, Plain c

theorem PlainPrefix.refl (s : List Char) : PlainPrefix s s := ⟨[], rfl, by simp⟩

theorem PlainPrefix.trans {s mid rest : List Char} (h : PlainPrefix s mid)
    (h' : PlainPrefix mid rest) : PlainPrefix s rest := by
  obtain ⟨pre, rfl, hpre⟩ := h
  obtain ⟨pre', rfl, hpre'⟩ := h'
  refine ⟨pre ++ pre', by simp, fun c hc => ?_⟩
  exact (List.mem_append.mp hc).elim (hpre c) (hpre' c)

theorem PlainPrefix.cons {c : Char} {s rest : List Char} (hc : Plain c) (h : PlainPrefix s rest) :
    PlainPrefix (c :: s) rest := by
  obtain ⟨pre, rfl, hpre⟩ := h
  exact ⟨c :: pre, rfl, List.forall_mem_cons.mpr ⟨hc, hpre⟩⟩

theorem PlainPrefix.closing {opts : Options} {s rest : List Char} (h : PlainPrefix s rest)
    (depth : ℕ) : closing opts depth false s = closing opts depth false rest := by
  obtain ⟨pre, rfl, hpre⟩ := h
  exact closing_plain hpre depth rest

theorem PlainPrefix.length_le {s rest : List Char} (h : PlainPrefix s rest) :
    rest.length ≤ s.length := by
  obtain ⟨pre, rfl, -⟩ := h
  simp

theorem plain_of_isDigit {c : Char} (h : isDigit c = true) : Plain c := by
  refine ⟨?_, ?_, ?_, ?_, ?_⟩ <;> rintro rfl <;> exact absurd h (by decide)

theorem plainPrefix_skipSpace (s : List Char) : PlainPrefix s (skipSpace s) := by
  refine ⟨s.takeWhile isSpace, (List.takeWhile_append_dropWhile).symm, fun c hc => ?_⟩
  have hspace := List.mem_takeWhile_imp hc
  refine ⟨?_, ?_, ?_, ?_, ?_⟩ <;> rintro rfl <;> exact absurd hspace (by decide)

theorem spanDigits_eq (s : List Char) :
    s = (spanDigits s).1 ++ (spanDigits s).2 ∧ ∀ c ∈ (spanDigits s).1, isDigit c = true := by
  rw [spanDigits, List.span_eq_takeWhile_dropWhile]
  exact ⟨(List.takeWhile_append_dropWhile).symm, fun c hc => List.mem_takeWhile_imp hc⟩

theorem plainPrefix_spanDigits (s : List Char) : PlainPrefix s (spanDigits s).2 :=
  ⟨(spanDigits s).1, (spanDigits_eq s).1, fun c hc =>
    plain_of_isDigit ((spanDigits_eq s).2 c hc)⟩

theorem plainPrefix_parseFrac (s : List Char) : PlainPrefix s (parseFrac s).2 := by
  rw [parseFrac.eq_def]
  split
  · rename_i rest
    dsimp only
    split
    · exact PlainPrefix.refl _
    · exact (plainPrefix_spanDigits rest).cons (by decide)
  · exact PlainPrefix.refl _

theorem plainPrefix_parseExp (s : List Char) : PlainPrefix s (parseExp s).2 := by
  rw [parseExp.eq_def]
  split
  · rename_i e rest
    split
    · rename_i hexp
      have hplain : Plain e := by rcases hexp with rfl | rfl <;> decide
      have hstep : ∀ (neg : Bool) (ds : List Char), PlainPrefix rest ds →
          PlainPrefix (e :: rest) (if (spanDigits ds).1.isEmpty then (none, e :: rest)
            else (some (neg, (spanDigits ds).1), (spanDigits ds).2)).2 := by
        intro neg ds hds
        split
        · exact PlainPrefix.refl _
        · exact (hds.trans (plainPrefix_spanDigits ds)).cons hplain
      dsimp only
      split
      · exact hstep true _ ((PlainPrefix.refl _).cons (by decide))
      · exact hstep false _ ((PlainPrefix.refl _).cons (by decide))
      · exact hstep false _ (PlainPrefix.refl _)
    · exact PlainPrefix.refl _
  · exact PlainPrefix.refl _

theorem parseUnsigned_eq_some {neg : Bool} {s rest : List Char} {n : NumLit}
    (h : parseUnsigned neg s = some (n, rest)) :
    ∃ c tail, s = c :: tail ∧ isDigit c = true ∧ PlainPrefix tail rest := by
  obtain ⟨hs, hdigits⟩ := spanDigits_eq s
  rw [parseUnsigned] at h
  rcases hspan : spanDigits s with ⟨ds, after⟩
  rw [hspan] at h hs hdigits
  dsimp only at h hs hdigits
  cases ds with
  | nil => simp at h
  | cons c ds =>
      obtain ⟨hc, hds⟩ := List.forall_mem_cons.mp hdigits
      refine ⟨c, ds ++ after, hs, hc, ?_⟩
      have hfraction : ∀ after, PlainPrefix after (parseExp (parseFrac after).2).2 :=
        fun after => (plainPrefix_parseFrac after).trans (plainPrefix_parseExp _)
      split at h
      · rename_i zeros hzero
        obtain ⟨rfl, rfl⟩ := List.cons.inj hzero
        simp only [List.isEmpty_cons, Bool.false_eq_true, if_false, Option.some.injEq,
          Prod.mk.injEq] at h
        rw [← h.2]
        exact hfraction _
      · simp only [List.isEmpty_cons, Bool.false_eq_true, if_false, Option.some.injEq,
          Prod.mk.injEq] at h
        rw [← h.2]
        exact PlainPrefix.trans ⟨ds, rfl, fun d hd => plain_of_isDigit (hds d hd)⟩ (hfraction after)

/-- The characters a scalar can begin with. -/
def ScalarHead (c : Char) : Prop := c = 'n' ∨ c = 't' ∨ c = 'f' ∨ c = '-' ∨ isDigit c = true

instance (c : Char) : Decidable (ScalarHead c) := inferInstanceAs (Decidable (_ ∨ _))

theorem parseNumber_eq_some {s rest : List Char} {n : NumLit}
    (h : parseNumber s = some (n, rest)) :
    ∃ c tail, s = c :: tail ∧ (c = '-' ∨ isDigit c = true) ∧ PlainPrefix tail rest := by
  rw [parseNumber.eq_def] at h
  split at h
  · rename_i tail
    obtain ⟨c, tail', rfl, hc, hplain⟩ := parseUnsigned_eq_some h
    exact ⟨'-', _, rfl, .inl rfl, hplain.cons (plain_of_isDigit hc)⟩
  · obtain ⟨c, tail, rfl, hc, hplain⟩ := parseUnsigned_eq_some h
    exact ⟨c, tail, rfl, .inr hc, hplain⟩

theorem afterWord_eq_some {word : String} {s rest : List Char} (h : afterWord word s = some rest) :
    s = word.toList ++ rest := by
  rw [afterWord] at h
  split_ifs at h with hprefix
  obtain ⟨tail, rfl⟩ := List.isPrefixOf_iff_prefix.mp hprefix
  obtain rfl : tail = rest := by simpa using h
  rfl

theorem parseWord_cases {s rest : List Char} {x : Json NumLit}
    (h : parseWord ⟨false, none⟩ s = some (x, rest)) :
    x = .null ∧ s = "null".toList ++ rest ∨ x = .bool true ∧ s = "true".toList ++ rest ∨
      x = .bool false ∧ s = "false".toList ++ rest := by
  simp only [parseWord, Bool.false_eq_true, if_false] at h
  cases hnull : afterWord "null" s with
  | some r =>
      simp [hnull] at h
      obtain ⟨rfl, rfl⟩ := h
      exact .inl ⟨rfl, afterWord_eq_some hnull⟩
  | none =>
      cases htrue : afterWord "true" s with
      | some r =>
          simp [hnull, htrue] at h
          obtain ⟨rfl, rfl⟩ := h
          exact .inr (.inl ⟨rfl, afterWord_eq_some htrue⟩)
      | none =>
          cases hfalse : afterWord "false" s with
          | some r =>
              simp [hnull, htrue, hfalse] at h
              obtain ⟨rfl, rfl⟩ := h
              exact .inr (.inr ⟨rfl, afterWord_eq_some hfalse⟩)
          | none => simp [hnull, htrue, hfalse] at h

theorem parseWord_eq_some {s rest : List Char} {x : Json NumLit}
    (h : parseWord ⟨false, none⟩ s = some (x, rest)) :
    ∃ c tail, s = c :: tail ∧ ScalarHead c ∧ PlainPrefix tail rest := by
  obtain ⟨-, rfl⟩ | ⟨-, rfl⟩ | ⟨-, rfl⟩ := parseWord_cases h
  · exact ⟨'n', _, rfl, by decide, "ull".toList, rfl, by simp [Plain]⟩
  · exact ⟨'t', _, rfl, by decide, "rue".toList, rfl, by simp [Plain]⟩
  · exact ⟨'f', _, rfl, by decide, "alse".toList, rfl, by simp [Plain]⟩

theorem parseScalar_cases {s rest : List Char} {x : Json NumLit}
    (h : parseScalar s = some (x, rest)) :
    parseWord ⟨false, none⟩ s = some (x, rest) ∨
      ∃ n, x = .num n ∧ parseNumber s = some (n, rest) := by
  rw [parseScalar] at h
  cases hword : parseWord ⟨false, none⟩ s with
  | some p =>
      rw [hword] at h
      exact .inl (by simpa using h)
  | none =>
      rw [hword] at h
      obtain ⟨⟨n, r⟩, hnumber, hxr⟩ :
          ∃ p, parseNumber s = some p ∧ (.num p.1, p.2) = (x, rest) := by
        simpa using h
      obtain ⟨rfl, rfl⟩ := Prod.mk.inj hxr
      exact .inr ⟨n, rfl, hnumber⟩

theorem parseScalar_eq_some {s rest : List Char} {x : Json NumLit}
    (h : parseScalar s = some (x, rest)) :
    ∃ c tail, s = c :: tail ∧ ScalarHead c ∧ PlainPrefix tail rest := by
  obtain hword | ⟨n, -, hnumber⟩ := parseScalar_cases h
  · exact parseWord_eq_some hword
  · obtain ⟨c, tail, rfl, hc, hplain⟩ := parseNumber_eq_some hnumber
    refine ⟨c, tail, rfl, ?_, hplain⟩
    rcases hc with rfl | hdigit
    · decide
    · simp [ScalarHead, hdigit]

/-- The characters that do not begin a scalar. -/
def structural : List Char := [',', ':', '[', '{', ']', '}', '"']

theorem ScalarHead.ne {c d : Char} (hc : ScalarHead c) (hd : ¬ ScalarHead d) : c ≠ d := by
  rintro rfl
  exact hd hc

theorem ScalarHead.plain {c : Char} (hc : ScalarHead c) : Plain c :=
  ⟨hc.ne (by decide), hc.ne (by decide), hc.ne (by decide), hc.ne (by decide), hc.ne (by decide)⟩

theorem ScalarHead.not_structural {c : Char} (hc : ScalarHead c) : c ∉ structural := by
  intro hmem
  have hall : ∀ d ∈ structural, ¬ ScalarHead d := by simp [structural, ScalarHead, isDigit, digit?]
  exact hall c hmem hc

theorem ScalarHead.not_space {c : Char} (hc : ScalarHead c) : isSpace c = false := by
  simp [isSpace, hc.ne (d := ' ') (by decide), hc.ne (d := '\t') (by decide),
    hc.ne (d := '\n') (by decide), hc.ne (d := '\r') (by decide)]

end Scalars

section Blanks

/-- White space that may follow a document. -/
def Blank (t : List Char) : Prop := ∀ c ∈ t, isSpace c = true

theorem blank_iff_skipSpace (t : List Char) : Blank t ↔ skipSpace t = [] :=
  List.dropWhile_eq_nil_iff.symm

variable {t : List Char}

theorem Blank.not_digit (ht : Blank t) : ∀ c ∈ t, isDigit c = false := by
  intro c hc
  have hspace : c = ' ' ∨ c = '\t' ∨ c = '\n' ∨ c = '\r' := by
    simpa [isSpace, or_assoc] using ht c hc
  rcases hspace with rfl | rfl | rfl | rfl <;> decide

theorem scanString_plain {c : Char} (hquote : c ≠ '"') (hslash : c ≠ '\\') (hlow : 32 ≤ c.toNat)
    (rest : List Char) :
    scanString (c :: rest) = (scanString rest).map fun p => (.inl c :: p.1, p.2) := by
  rw [scanString.eq_def]
  split <;> simp_all
  rename_i heq
  rcases heq with ⟨rfl, rfl⟩
  rw [if_neg (by omega)]
  cases scanString rest <;> rfl

theorem scanString_short {letter c : Char} (h : unescape? letter = some c) (hu : letter ≠ 'u')
    (rest : List Char) :
    scanString ('\\' :: letter :: rest) =
      (scanString rest).map fun p => (.inl c :: p.1, p.2) := by
  rw [scanString.eq_def]
  split <;> simp_all
  · rename_i heq
    rcases heq with ⟨rfl, rfl⟩
    cases scanString rest <;> rfl
  · rename_i hno heq
    exact absurd heq.2.symm (hno letter rest heq.1.symm)

theorem scanString_append {s rest : List Char} {units : List (Char ⊕ ℕ)}
    (h : scanString s = some (units, rest)) (t : List Char) :
    scanString (s ++ t) = some (units, rest ++ t) := by
  induction s using scanString.induct generalizing units with
  | case1 => simp [scanString] at h
  | case2 rest' =>
      simp only [scanString, Option.some.injEq, Prod.mk.injEq] at h
      rw [← h.1, ← h.2, List.cons_append, scanString]
  | case3 a b c d rest' ih =>
      simp only [scanString, Option.bind_eq_bind, Option.bind_eq_some_iff] at h
      obtain ⟨x, hx, y, hy, z, hz, w, hw, ⟨us, r⟩, hscan, h⟩ := h
      simp only [Option.pure_def, Option.some.injEq, Prod.mk.injEq] at h
      obtain ⟨rfl, rfl⟩ := h
      simp [scanString, hx, hy, hz, hw, ih hscan]
  | case4 c rest' hu ih =>
      rw [scanString] at h
      · simp only [Option.bind_eq_bind, Option.bind_eq_some_iff] at h
        obtain ⟨decoded, hdecoded, ⟨us, r⟩, hscan, h⟩ := h
        simp only [Option.pure_def, Option.some.injEq, Prod.mk.injEq] at h
        obtain ⟨rfl, rfl⟩ := h
        have hletter : c ≠ 'u' := by
          rintro rfl
          simp [unescape?] at hdecoded
        rw [List.cons_append, List.cons_append, scanString_short hdecoded hletter, ih hscan]
        rfl
      · exact hu
  | case5 c rest' h1 h2 h3 hcond =>
      rw [scanString, if_pos hcond] at h
      · cases h
      · assumption
      · assumption
      · assumption
  | case6 c rest' h1 h2 h3 hcond ih =>
      rw [scanString, if_neg hcond] at h
      · simp only [Option.bind_eq_bind, Option.bind_eq_some_iff] at h
        obtain ⟨⟨us, r⟩, hscan, h⟩ := h
        simp only [Option.pure_def, Option.some.injEq, Prod.mk.injEq] at h
        obtain ⟨rfl, rfl⟩ := h
        push Not at hcond
        rw [List.cons_append, scanString_plain h1 hcond.2 hcond.1, ih hscan]
        rfl
      · assumption
      · assumption
      · assumption

theorem spanDigits_append (ht : Blank t) (s : List Char) :
    spanDigits (s ++ t) = ((spanDigits s).1, (spanDigits s).2 ++ t) := by
  simp only [spanDigits, List.span_eq_takeWhile_dropWhile]
  induction s with
  | nil =>
      cases t with
      | nil => rfl
      | cons c t => simp [ht.not_digit c List.mem_cons_self]
  | cons c s ih =>
      obtain ⟨htake, hdrop⟩ := Prod.mk.inj ih
      cases hc : isDigit c <;> simp [hc, htake, hdrop]

theorem parseString_append {s rest : List Char} {u : String} (h : parseString s = some (u, rest))
    (t : List Char) : parseString (s ++ t) = some (u, rest ++ t) := by
  obtain ⟨⟨units, r⟩, hscan, hr⟩ := Option.map_eq_some_iff.mp h
  obtain ⟨rfl, rfl⟩ := Prod.mk.inj hr
  rw [parseString, scanString_append hscan]
  rfl

theorem Blank.head_ne {c d : Char} {t : List Char} (ht : Blank (c :: t)) (hd : isSpace d = false) :
    c ≠ d := by
  rintro rfl
  rw [ht c List.mem_cons_self] at hd
  cases hd

theorem parseFrac_append (ht : Blank t) (s : List Char) :
    parseFrac (s ++ t) = ((parseFrac s).1, (parseFrac s).2 ++ t) := by
  cases s with
  | nil =>
      cases t with
      | nil => rfl
      | cons c t =>
          rw [List.nil_append, parseFrac.eq_def, parseFrac.eq_def]
          simp [ht.head_ne (d := '.') (by decide)]
  | cons c s =>
      by_cases hc : c = '.'
      · subst hc
        simp only [List.cons_append, parseFrac, spanDigits_append ht]
        split <;> rfl
      · rw [List.cons_append, parseFrac.eq_def, parseFrac.eq_def]
        simp [hc]

theorem parseExp_append (ht : Blank t) (s : List Char) :
    parseExp (s ++ t) = ((parseExp s).1, (parseExp s).2 ++ t) := by
  cases s with
  | nil =>
      cases t with
      | nil => rfl
      | cons c t =>
          have hlower : c ≠ 'e' := ht.head_ne (by decide)
          have hupper : c ≠ 'E' := ht.head_ne (by decide)
          simp [parseExp, hlower, hupper]
  | cons e s =>
      by_cases he : e = 'e' ∨ e = 'E'
      · cases s with
        | nil =>
            cases t with
            | nil => simp
            | cons c t =>
                have hminus : c ≠ '-' := ht.head_ne (by decide)
                have hplus : c ≠ '+' := ht.head_ne (by decide)
                have hdigit := ht.not_digit c List.mem_cons_self
                simp [parseExp, he, hminus, hplus, spanDigits, hdigit]
        | cons d s =>
            by_cases hminus : d = '-'
            · subst hminus
              simp only [List.cons_append, parseExp, he, if_true, spanDigits_append ht]
              split <;> rfl
            by_cases hplus : d = '+'
            · subst hplus
              simp only [List.cons_append, parseExp, he, if_true, spanDigits_append ht]
              split <;> rfl
            have hunsigned : ∀ s, parseExp (e :: d :: s) =
                if (spanDigits (d :: s)).1.isEmpty then (none, e :: d :: s)
                else (some (false, (spanDigits (d :: s)).1), (spanDigits (d :: s)).2) := by
              intro s
              simp only [parseExp, he, if_true]
              split
              · rename_i heq
                exact absurd (List.cons.inj heq).1 hminus
              · rename_i heq
                exact absurd (List.cons.inj heq).1 hplus
              · rfl
            have hspan := spanDigits_append ht (d :: s)
            rw [List.cons_append] at hspan
            rw [List.cons_append, List.cons_append, hunsigned, hunsigned, hspan]
            dsimp only
            split <;> rfl
      · simp [parseExp, he]

theorem parseUnsigned_append (ht : Blank t) (neg : Bool) {s rest : List Char} {n : NumLit}
    (h : parseUnsigned neg s = some (n, rest)) :
    parseUnsigned neg (s ++ t) = some (n, rest ++ t) := by
  rw [parseUnsigned] at h ⊢
  rw [spanDigits_append ht]
  rcases hspan : spanDigits s with ⟨ds, after⟩
  rw [hspan] at h
  dsimp only at h ⊢
  split at h
  · rename_i zeros
    rw [← List.append_assoc]
    simp only [List.isEmpty_cons, Bool.false_eq_true, if_false, Option.some.injEq, Prod.mk.injEq,
      parseFrac_append ht, parseExp_append ht] at h ⊢
    exact ⟨h.1, by rw [h.2]⟩
  · split at h
    · cases h
    · rename_i hne
      dsimp only at hne ⊢
      rw [if_neg hne]
      simp only [Option.some.injEq, Prod.mk.injEq, parseFrac_append ht, parseExp_append ht] at h ⊢
      exact ⟨h.1, by rw [h.2]⟩

theorem parseNumber_append (ht : Blank t) {s rest : List Char} {n : NumLit}
    (h : parseNumber s = some (n, rest)) : parseNumber (s ++ t) = some (n, rest ++ t) := by
  obtain ⟨c, tail, rfl, -, -⟩ := parseNumber_eq_some h
  by_cases hc : c = '-'
  · subst hc
    exact parseUnsigned_append ht true h
  · have hunsigned : ∀ s, parseNumber (c :: s) = parseUnsigned false (c :: s) := by
      intro s
      rw [parseNumber.eq_def]
      split
      · rename_i heq
        exact absurd (List.cons.inj heq).1 hc
      · rfl
    rw [hunsigned] at h
    rw [List.cons_append, hunsigned]
    exact parseUnsigned_append ht false h

theorem parseWord_append {s rest : List Char} {x : Json NumLit}
    (h : parseWord ⟨false, none⟩ s = some (x, rest)) (t : List Char) :
    parseWord ⟨false, none⟩ (s ++ t) = some (x, rest ++ t) := by
  obtain ⟨rfl, rfl⟩ | ⟨rfl, rfl⟩ | ⟨rfl, rfl⟩ := parseWord_cases h <;>
    rw [List.append_assoc] <;> simp [parseWord, afterWord]

theorem parseWord_number {c : Char} (hc : c = '-' ∨ isDigit c = true) (s : List Char) :
    parseWord ⟨false, none⟩ (c :: s) = none := by
  by_contra hsome
  obtain ⟨⟨x, rest⟩, hword⟩ := Option.ne_none_iff_exists'.mp hsome
  have hne : ∀ d, ¬ (d = '-' ∨ isDigit d = true) → c ≠ d := fun d hd => by
    rintro rfl
    exact hd hc
  obtain ⟨-, hs⟩ | ⟨-, hs⟩ | ⟨-, hs⟩ := parseWord_cases hword
  · exact hne 'n' (by decide) (List.cons.inj hs).1
  · exact hne 't' (by decide) (List.cons.inj hs).1
  · exact hne 'f' (by decide) (List.cons.inj hs).1

theorem parseScalar_append (ht : Blank t) {s rest : List Char} {x : Json NumLit}
    (h : parseScalar s = some (x, rest)) : parseScalar (s ++ t) = some (x, rest ++ t) := by
  obtain hword | ⟨n, rfl, hnumber⟩ := parseScalar_cases h
  · rw [parseScalar, parseWord_append hword]
    rfl
  · obtain ⟨c, tail, rfl, hc, -⟩ := parseNumber_eq_some hnumber
    rw [parseScalar, parseNumber_append ht hnumber, List.cons_append, parseWord_number hc]
    rfl

end Blanks

section Induction

variable {limit : Option ℕ}

/-- A property of what a value, the items of an array and the members of an object
are read as holds of all of them if it follows the grammar. -/
theorem parse_induction {P : ℕ → List Char → Json NumLit → List Char → Prop}
    {Q : ℕ → List Char → List (Json NumLit) → List Char → Prop}
    {R : ℕ → List Char → List (String × Json NumLit) → List Char → Prop}
    (str : ∀ {depth s t rest}, parseString s = some (t, rest) →
      P depth ('"' :: s) (.str t) rest)
    (scalar : ∀ {depth s x rest}, parseScalar s = some (x, rest) → P depth s x rest)
    (emptyArr : ∀ {depth s rest}, depthOk ⟨false, limit⟩ depth = true →
      skipSpace s = ']' :: rest → P depth ('[' :: s) (.arr []) rest)
    (arr : ∀ {depth s xs rest}, depthOk ⟨false, limit⟩ depth = true →
      Q (depth + 1) (skipSpace s) xs rest → P depth ('[' :: s) (.arr xs) rest)
    (emptyObj : ∀ {depth s rest}, depthOk ⟨false, limit⟩ depth = true →
      skipSpace s = '}' :: rest → P depth ('{' :: s) (.obj []) rest)
    (obj : ∀ {depth s ms rest}, depthOk ⟨false, limit⟩ depth = true →
      R (depth + 1) (skipSpace s) ms rest → P depth ('{' :: s) (.obj ms) rest)
    (lastItem : ∀ {depth s x after rest}, P depth s x after → skipSpace after = ']' :: rest →
      Q depth s [x] rest)
    (item : ∀ {depth s x after mid xs rest}, P depth s x after → skipSpace after = ',' :: mid →
      Q depth (skipSpace mid) xs rest → Q depth s (x :: xs) rest)
    (lastMember : ∀ {depth s k mid value x after rest}, parseString s = some (k, mid) →
      skipSpace mid = ':' :: value → P depth (skipSpace value) x after →
      skipSpace after = '}' :: rest → R depth ('"' :: s) [(k, x)] rest)
    (member : ∀ {depth s k mid value x after next ms rest}, parseString s = some (k, mid) →
      skipSpace mid = ':' :: value → P depth (skipSpace value) x after →
      skipSpace after = ',' :: next → R depth (skipSpace next) ms rest →
      R depth ('"' :: s) ((k, x) :: ms) rest)
    (fuel : ℕ) :
    (∀ depth s x rest, parseValue ⟨false, limit⟩ fuel depth s = some (x, rest) →
      P depth s x rest) ∧
    (∀ depth s xs rest, parseItems ⟨false, limit⟩ fuel depth s = some (xs, rest) →
      Q depth s xs rest) ∧
    (∀ depth s ms rest, parseMembers ⟨false, limit⟩ fuel depth s = some (ms, rest) →
      R depth s ms rest) := by
  induction fuel with
  | zero =>
      exact ⟨fun _ _ _ _ h => (by cases h), fun _ _ _ _ h => (by cases h),
        fun _ _ _ _ h => (by cases h)⟩
  | succ fuel ih =>
      obtain ⟨ihValue, ihItems, ihMembers⟩ := ih
      refine ⟨fun depth s x rest h => ?_, fun depth s xs rest h => ?_, fun depth s ms rest h => ?_⟩
      · rw [parseValue.eq_def] at h
        dsimp only at h
        split at h
        · obtain ⟨⟨t, r⟩, hstring, hxr⟩ := Option.map_eq_some_iff.mp h
          cases hxr
          exact str hstring
        · split at h
          · rename_i hdepth
            split at h
            · rename_i hskip
              cases h
              exact emptyArr hdepth hskip
            · obtain ⟨⟨xs, r⟩, hitems, hxr⟩ := Option.map_eq_some_iff.mp h
              cases hxr
              exact arr hdepth (ihItems _ _ _ _ hitems)
          · cases h
        · split at h
          · rename_i hdepth
            split at h
            · rename_i hskip
              cases h
              exact emptyObj hdepth hskip
            · obtain ⟨⟨ms, r⟩, hmembers, hxr⟩ := Option.map_eq_some_iff.mp h
              cases hxr
              exact obj hdepth (ihMembers _ _ _ _ hmembers)
          · cases h
        · exact scalar h
      · rw [parseItems.eq_def] at h
        simp only [Option.bind_eq_bind, Option.bind_eq_some_iff] at h
        obtain ⟨⟨x, after⟩, hvalue, h⟩ := h
        dsimp only at h
        split at h
        · rename_i hskip
          cases h
          exact lastItem (ihValue _ _ _ _ hvalue) hskip
        · rename_i mid hskip
          obtain ⟨⟨xs', r⟩, hitems, h⟩ := Option.bind_eq_some_iff.mp h
          cases h
          exact item (ihValue _ _ _ _ hvalue) hskip (ihItems _ _ _ _ hitems)
        · cases h
      · rw [parseMembers.eq_def] at h
        dsimp only at h
        split at h
        · simp only [Option.bind_eq_bind, Option.bind_eq_some_iff] at h
          obtain ⟨⟨k, mid⟩, hkey, h⟩ := h
          dsimp only at h
          split at h
          · rename_i value hcolon
            obtain ⟨⟨x, after⟩, hvalue, h⟩ := Option.bind_eq_some_iff.mp h
            dsimp only at h
            split at h
            · rename_i hskip
              cases h
              exact lastMember hkey hcolon (ihValue _ _ _ _ hvalue) hskip
            · rename_i next hskip
              obtain ⟨⟨ms', r⟩, hmembers, h⟩ := Option.bind_eq_some_iff.mp h
              cases h
              exact member hkey hcolon (ihValue _ _ _ _ hvalue) hskip (ihMembers _ _ _ _ hmembers)
            · cases h
          · cases h
        · cases h

theorem parseValue_solid {c : Char} (hc : c ∉ structural) (fuel depth : ℕ) (s : List Char) :
    parseValue ⟨false, limit⟩ (fuel + 1) depth (c :: s) = parseScalar (c :: s) := by
  have hne : ∀ d ∈ structural, c ≠ d := fun d hd => by
    rintro rfl
    exact hc hd
  rw [parseValue.eq_def]
  dsimp only
  split
  · rename_i heq
    exact absurd (List.cons.inj heq).1 (hne '"' (by decide))
  · rename_i heq
    exact absurd (List.cons.inj heq).1 (hne '[' (by decide))
  · rename_i heq
    exact absurd (List.cons.inj heq).1 (hne '{' (by decide))
  · rfl

end Induction

section Lengths

variable {limit : Option ℕ}

theorem skipSpace_length_le (s : List Char) : (skipSpace s).length ≤ s.length :=
  (plainPrefix_skipSpace s).length_le

theorem length_lt_of_skipSpace {s rest : List Char} {c : Char} (h : skipSpace s = c :: rest) :
    rest.length < s.length := by
  have hle := skipSpace_length_le s
  rw [h, List.length_cons] at hle
  omega

theorem length_lt_of_parseString {s rest : List Char} {t : String}
    (h : parseString s = some (t, rest)) : rest.length < s.length := by
  obtain ⟨body, -, rfl⟩ := parseString_eq_some h
  simp only [List.length_append, List.length_cons]
  omega

theorem parse_shorter (fuel : ℕ) :
    (∀ depth s x rest, parseValue ⟨false, limit⟩ fuel depth s = some (x, rest) →
      rest.length < s.length) ∧
    (∀ depth s xs rest, parseItems ⟨false, limit⟩ fuel depth s = some (xs, rest) →
      rest.length < s.length) ∧
    (∀ depth s ms rest, parseMembers ⟨false, limit⟩ fuel depth s = some (ms, rest) →
      rest.length < s.length) := by
  refine parse_induction
    (P := fun _ s _ rest => rest.length < s.length)
    (Q := fun _ s _ rest => rest.length < s.length)
    (R := fun _ s _ rest => rest.length < s.length) ?_ ?_ ?_ ?_ ?_ ?_ ?_ ?_ ?_ ?_ fuel
  · intro _ s t rest hstring
    exact Nat.lt_succ_of_lt (length_lt_of_parseString hstring)
  · intro _ s x rest hscalar
    obtain ⟨c, tail, rfl, -, hplain⟩ := parseScalar_eq_some hscalar
    exact Nat.lt_succ_of_le hplain.length_le
  · intro _ s rest _ hskip
    exact Nat.lt_succ_of_lt (length_lt_of_skipSpace hskip)
  · intro _ s xs rest _ ih
    exact Nat.lt_succ_of_lt (ih.trans_le (skipSpace_length_le s))
  · intro _ s rest _ hskip
    exact Nat.lt_succ_of_lt (length_lt_of_skipSpace hskip)
  · intro _ s ms rest _ ih
    exact Nat.lt_succ_of_lt (ih.trans_le (skipSpace_length_le s))
  · intro _ s x after rest ih hskip
    exact (length_lt_of_skipSpace hskip).trans ih
  · intro _ s x after mid xs rest ih hskip ihItems
    exact ((ihItems.trans_le (skipSpace_length_le mid)).trans
      (length_lt_of_skipSpace hskip)).trans ih
  · intro _ s k mid value x after rest hkey hcolon ih hskip
    have hmid := length_lt_of_parseString hkey
    have hvalue := length_lt_of_skipSpace hcolon
    have hafter := ih.trans_le (skipSpace_length_le value)
    have hrest := length_lt_of_skipSpace hskip
    rw [List.length_cons]
    omega
  · intro _ s k mid value x after next ms rest hkey hcolon ih hskip ihMembers
    have hmid := length_lt_of_parseString hkey
    have hvalue := length_lt_of_skipSpace hcolon
    have hafter := ih.trans_le (skipSpace_length_le value)
    have hnext := length_lt_of_skipSpace hskip
    have hrest := ihMembers.trans_le (skipSpace_length_le next)
    rw [List.length_cons]
    omega

theorem solid_of_skipSpace {c : Char} {s : List Char} (h : skipSpace (c :: s) = c :: s) :
    isSpace c = false := by
  by_contra hspace
  have hle := skipSpace_length_le s
  rw [skipSpace, List.dropWhile_cons, if_pos (by simpa using hspace)] at h
  rw [skipSpace, h, List.length_cons] at hle
  omega

theorem skipSpace_skipSpace (s : List Char) : skipSpace (skipSpace s) = skipSpace s :=
  List.dropWhile_idempotent isSpace s

end Lengths

section Closing

variable {limit : Option ℕ}

/-- What follows the brackets that are still open, before what is left of a text. -/
def closedBy (opts : Options) (depth : ℕ) (rest : List Char) : Option (List Char) :=
  if depth = 0 then some rest else closing opts depth false rest

/-- A text that is counted from within a container, or begins with one. -/
def Counted (depth : ℕ) (s : List Char) : Prop :=
  1 ≤ depth ∨ ∃ c tail, s = c :: tail ∧ (c = '[' ∨ c = '{')

variable {opts : Options}

theorem closedBy_of_pos {depth : ℕ} (h : 1 ≤ depth) (rest : List Char) :
    closedBy opts depth rest = closing opts depth false rest :=
  if_neg (by omega)

theorem Counted.pos {depth : ℕ} {c : Char} {s : List Char} (h : Counted depth (c :: s))
    (harr : c ≠ '[') (hobj : c ≠ '{') : 1 ≤ depth := by
  rcases h with hpos | ⟨d, tail, hs, hd⟩
  · exact hpos
  · obtain ⟨rfl, -⟩ := List.cons.inj hs
    exact absurd hd (by simp [harr, hobj])

theorem closing_open {depth : ℕ} {c : Char} (hc : c = '[' ∨ c = '{')
    (hdepth : depthOk opts depth = true) (s : List Char) :
    closing opts depth false (c :: s) = closing opts (depth + 1) false s := by
  rw [closing]
  rcases hc with rfl | rfl <;> simp [hdepth]

theorem closing_close {depth : ℕ} {c : Char} (hc : c = ']' ∨ c = '}') (s : List Char) :
    closing opts (depth + 1) false (c :: s) = closedBy opts depth s := by
  rw [closing, closedBy]
  rcases hc with rfl | rfl <;> simp

theorem closing_quote (depth : ℕ) (s : List Char) :
    closing opts depth false ('"' :: s) = closing opts depth true s := by
  rw [closing]
  simp

theorem closing_skipSpace (depth : ℕ) (s : List Char) :
    closing opts depth false (skipSpace s) = closing opts depth false s :=
  ((plainPrefix_skipSpace s).closing depth).symm

theorem closing_parseString {s rest : List Char} {t : String}
    (h : parseString s = some (t, rest)) (depth : ℕ) :
    closing opts depth false ('"' :: s) = closing opts depth false rest := by
  obtain ⟨body, hbody, rfl⟩ := parseString_eq_some h
  rw [closing_quote, closing_string hbody]

theorem closing_parseScalar {s rest : List Char} {x : Json NumLit}
    (h : parseScalar s = some (x, rest)) (depth : ℕ) :
    closing opts depth false s = closing opts depth false rest := by
  obtain ⟨c, tail, rfl, hc, hplain⟩ := parseScalar_eq_some h
  exact (hplain.cons hc.plain).closing depth

theorem closing_of_parse (fuel : ℕ) :
    (∀ depth s x rest, parseValue ⟨false, limit⟩ fuel depth s = some (x, rest) →
      Counted depth s →
        closing ⟨false, limit⟩ depth false s = closedBy ⟨false, limit⟩ depth rest) ∧
    (∀ depth s xs rest, parseItems ⟨false, limit⟩ fuel depth s = some (xs, rest) → 1 ≤ depth →
      closing ⟨false, limit⟩ depth false s = closedBy ⟨false, limit⟩ (depth - 1) rest) ∧
    (∀ depth s ms rest, parseMembers ⟨false, limit⟩ fuel depth s = some (ms, rest) → 1 ≤ depth →
      closing ⟨false, limit⟩ depth false s = closedBy ⟨false, limit⟩ (depth - 1) rest) := by
  refine parse_induction
    (P := fun depth s _ rest => Counted depth s →
      closing ⟨false, limit⟩ depth false s = closedBy ⟨false, limit⟩ depth rest)
    (Q := fun depth s _ rest => 1 ≤ depth →
      closing ⟨false, limit⟩ depth false s = closedBy ⟨false, limit⟩ (depth - 1) rest)
    (R := fun depth s _ rest => 1 ≤ depth →
      closing ⟨false, limit⟩ depth false s = closedBy ⟨false, limit⟩ (depth - 1) rest)
    ?_ ?_ ?_ ?_ ?_ ?_ ?_ ?_ ?_ ?_ fuel
  · intro depth s t rest hstring hcounted
    rw [closing_parseString hstring,
      closedBy_of_pos (hcounted.pos (by decide) (by decide))]
  · intro depth s x rest hscalar hcounted
    have hpos : 1 ≤ depth := by
      obtain ⟨c, tail, rfl, hc, -⟩ := parseScalar_eq_some hscalar
      refine hcounted.pos ?_ ?_ <;> rintro rfl <;> exact absurd hc (by decide)
    rw [closing_parseScalar hscalar, closedBy_of_pos hpos]
  · intro depth s rest hdepth hskip _
    rw [closing_open (.inl rfl) hdepth, ← closing_skipSpace, hskip,
      closing_close (.inl rfl)]
  · intro depth s xs rest hdepth ih _
    rw [closing_open (.inl rfl) hdepth, ← closing_skipSpace, ih (by omega),
      Nat.add_sub_cancel]
  · intro depth s rest hdepth hskip _
    rw [closing_open (.inr rfl) hdepth, ← closing_skipSpace, hskip,
      closing_close (.inr rfl)]
  · intro depth s ms rest hdepth ih _
    rw [closing_open (.inr rfl) hdepth, ← closing_skipSpace, ih (by omega),
      Nat.add_sub_cancel]
  · intro depth s x after rest ih hskip hpos
    obtain ⟨depth, rfl⟩ := Nat.exists_eq_add_of_le' hpos
    rw [ih (.inl hpos), closedBy_of_pos hpos, ← closing_skipSpace, hskip,
      closing_close (.inl rfl), Nat.add_sub_cancel]
  · intro depth s x after mid xs rest ih hskip ihItems hpos
    rw [ih (.inl hpos), closedBy_of_pos hpos, ← closing_skipSpace, hskip,
      closing_plainHead (by decide), ← closing_skipSpace, ihItems hpos]
  · intro depth s k mid value x after rest hkey hcolon ih hskip hpos
    obtain ⟨depth, rfl⟩ := Nat.exists_eq_add_of_le' hpos
    rw [closing_parseString hkey, ← closing_skipSpace, hcolon,
      closing_plainHead (by decide), ← closing_skipSpace, ih (.inl hpos),
      closedBy_of_pos hpos, ← closing_skipSpace, hskip, closing_close (.inr rfl),
      Nat.add_sub_cancel]
  · intro depth s k mid value x after next ms rest hkey hcolon ih hskip ihMembers hpos
    rw [closing_parseString hkey, ← closing_skipSpace, hcolon,
      closing_plainHead (by decide), ← closing_skipSpace, ih (.inl hpos),
      closedBy_of_pos hpos, ← closing_skipSpace, hskip, closing_plainHead (by decide),
      ← closing_skipSpace, ihMembers hpos]

end Closing

end Ulpf.Lib.JsonText
