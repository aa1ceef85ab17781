import Ulpf.Lib.JsonTokens

/-!
A text that is read token by token to its end is read by a parser of whole documents
as far as its brackets close.
-/

namespace Ulpf.Lib.JsonTokens

open Text JsonText

section Completeness

variable {limit : Option ℕ} {fits : NumLit → Bool}

/-- A text is read by a parser, with numbers that fit, or leaves a bracket open. -/
def ReadOrOpen {α : Type} (numbers : α → List NumLit) (limit : Option ℕ) (fits : NumLit → Bool)
    (depth : ℕ) (s : List Char) (parsed : Option (α × List Char)) : Prop :=
  (∃ x rest, parsed = some (x, rest) ∧ (numbers x).all fits = true) ∨
    closing ⟨false, limit⟩ depth false s = none

/-- What is read token by token where a value may stand is read as a value by a parser, or leaves a
bracket open. -/
def ValueRead (limit : Option ℕ) (fits : NumLit → Bool) (s : List Char) : Prop :=
  ∀ fuel depth place stack, place.valueAllowed = true → 2 * s.length + 1 ≤ fuel →
    skipSpace s = s → (∀ tail, s = ']' :: tail → place ≠ .arrayStart) →
    (tokensFrom fits place stack s).2 = true →
      ReadOrOpen Json.numbers limit fits depth s (parseValue ⟨false, limit⟩ fuel depth s)

def ItemsRead (limit : Option ℕ) (fits : NumLit → Bool) (s : List Char) : Prop :=
  ∀ fuel depth place outer stack, place = .arrayStart ∨ place = .arrayValue → 1 ≤ depth →
    2 * s.length + 2 ≤ fuel → skipSpace s = s → (∀ tail, s = ']' :: tail → place ≠ .arrayStart) →
    (tokensFrom fits place (outer :: stack) s).2 = true →
      ReadOrOpen Json.numbersItems limit fits depth s (parseItems ⟨false, limit⟩ fuel depth s)

def MembersRead (limit : Option ℕ) (fits : NumLit → Bool) (s : List Char) : Prop :=
  ∀ fuel depth place outer stack, place = .objectStart ∨ place = .objectKey → 1 ≤ depth →
    2 * s.length + 2 ≤ fuel → skipSpace s = s → (∀ tail, s = '}' :: tail → place ≠ .objectStart) →
    (tokensFrom fits place (outer :: stack) s).2 = true →
      ReadOrOpen Json.numbersMembers limit fits depth s (parseMembers ⟨false, limit⟩ fuel depth s)

theorem ReadOrOpen.container {α : Type} {numbers : α → List NumLit} {depth : ℕ} {c : Char}
    {s : List Char} {parsed : Option (α × List Char)} (wrap : α → Json NumLit)
    (hwrap : ∀ x, (wrap x).numbers = numbers x) (hc : c = '[' ∨ c = '{')
    (hdepth : depthOk ⟨false, limit⟩ depth = true)
    (h : ReadOrOpen numbers limit fits (depth + 1) (skipSpace s) parsed) :
    ReadOrOpen Json.numbers limit fits depth (c :: s)
      (parsed.map fun (x, rest) => (wrap x, rest)) := by
  rcases h with ⟨x, rest, rfl, hfits⟩ | hopen
  · exact .inl ⟨wrap x, rest, rfl, by rw [hwrap]; exact hfits⟩
  · exact .inr (by rw [closing_open hc hdepth, ← closing_skipSpace, hopen])

theorem readOrOpen_deep {α : Type} {numbers : α → List NumLit} {depth : ℕ} {c : Char}
    (hc : c = '[' ∨ c = '{') (hdepth : ¬ depthOk ⟨false, limit⟩ depth = true) (s : List Char)
    (parsed : Option (α × List Char)) : ReadOrOpen numbers limit fits depth (c :: s) parsed := by
  refine .inr ?_
  rw [closing]
  rcases hc with rfl | rfl <;> simp [hdepth]

section Clean

variable {place : Place} {stack : List Place}

theorem isSome_parseString_of_clean {s : List Char}
    (h : (tokensFrom fits place stack ('"' :: s)).2 = true) :
    ∃ t rest, parseString s = some (t, rest) := by
  cases hstring : parseString s with
  | some p => exact ⟨p.1, p.2, rfl⟩
  | none =>
      have hnext : next fits place stack ('"' :: s) = .malformed := by
        rw [next.eq_def]
        simp [isSpace, hstring]
      rw [tokensFrom_malformed hnext] at h
      cases h

theorem isSome_parseScalar_of_clean {c : Char} (hspace : isSpace c = false) (hc : c ∉ structural)
    {s : List Char} (h : (tokensFrom fits place stack (c :: s)).2 = true) :
    ∃ x rest, parseScalar (c :: s) = some (x, rest) ∧ x.numbers.all fits = true := by
  have hnext : next fits place stack (c :: s) = _ := next_solid hspace hc s
  cases hscalar : parseScalar (c :: s) with
  | none =>
      rw [hscalar] at hnext
      rw [tokensFrom_malformed hnext] at h
      cases h
  | some p =>
      refine ⟨p.1, p.2, rfl, ?_⟩
      by_contra hfits
      rw [hscalar] at hnext
      rw [tokensFrom_malformed (hnext.trans (if_neg fun hboth => hfits hboth.2))] at h
      cases h

end Clean

theorem valueRead {s : List Char}
    (ihItems : ∀ t : List Char, t.length < s.length → ItemsRead limit fits t)
    (ihMembers : ∀ t : List Char, t.length < s.length → MembersRead limit fits t) :
    ValueRead limit fits s := by
  intro fuel depth place stack hplace hfuel hskip hclose hclean
  cases s with
  | nil => exact .inr rfl
  | cons c tail =>
      have hspace := solid_of_skipSpace hskip
      have hallows := allows_of_clean hspace hclean
      have hshorter : (skipSpace tail).length < (c :: tail).length :=
        Nat.lt_succ_of_le (skipSpace_length_le tail)
      have hfuel' : 2 * (skipSpace tail).length + 2 ≤ fuel - 1 := by
        rw [List.length_cons] at hfuel hshorter
        omega
      obtain ⟨fuel, rfl⟩ : ∃ k, fuel = k + 1 := ⟨fuel - 1, by omega⟩
      by_cases hquote : c = '"'
      · subst hquote
        obtain ⟨t, rest, hstring⟩ := isSome_parseString_of_clean hclean
        exact .inl ⟨.str t, rest, by simp [parseValue, hstring], rfl⟩
      by_cases harr : c = '['
      · subst harr
        by_cases hdepth : depthOk ⟨false, limit⟩ depth = true
        · rw [tokensFrom_arr hplace, ← tokensFrom_skipSpace] at hclean
          simp only [parseValue, hdepth, if_true]
          split
          · exact .inl ⟨.arr [], _, rfl, rfl⟩
          · rename_i hne
            exact (ihItems _ hshorter fuel (depth + 1) .arrayStart place stack (.inl rfl)
              (by omega) hfuel' (skipSpace_skipSpace tail) (fun t ht => absurd ht (hne t))
              hclean).container .arr (fun _ => rfl) (.inl rfl) hdepth
        · exact readOrOpen_deep (.inl rfl) hdepth tail _
      by_cases hobj : c = '{'
      · subst hobj
        by_cases hdepth : depthOk ⟨false, limit⟩ depth = true
        · rw [tokensFrom_obj hplace, ← tokensFrom_skipSpace] at hclean
          simp only [parseValue, hdepth, if_true]
          split
          · exact .inl ⟨.obj [], _, rfl, rfl⟩
          · rename_i hne
            exact (ihMembers _ hshorter fuel (depth + 1) .objectStart place stack (.inl rfl)
              (by omega) hfuel' (skipSpace_skipSpace tail) (fun t ht => absurd ht (hne t))
              hclean).container .obj (fun _ => rfl) (.inr rfl) hdepth
        · exact readOrOpen_deep (.inr rfl) hdepth tail _
      have hstructural : c ∉ structural := by
        cases place <;> simp_all [Place.allows, structural, Place.valueAllowed]
      obtain ⟨x, rest, hscalar, hfits⟩ := isSome_parseScalar_of_clean hspace hstructural hclean
      exact .inl ⟨x, rest, by rw [parseValue_solid hstructural, hscalar], hfits⟩

theorem after_value {fuel depth : ℕ} {s after : List Char} {x : Json NumLit} {place outer : Place}
    {stack : List Place} (hplace : place.valueAllowed = true) (hpos : 1 ≤ depth)
    (hparsed : parseValue ⟨false, limit⟩ fuel depth s = some (x, after))
    (hfits : x.numbers.all fits = true)
    (hclean : (tokensFrom fits place (outer :: stack) s).2 = true) :
    (tokensFrom fits place.afterValue (outer :: stack) (skipSpace after)).2 = true ∧
      closing ⟨false, limit⟩ depth false s =
        closing ⟨false, limit⟩ depth false (skipSpace after) ∧
      (skipSpace after).length < s.length := by
  have htokens := (tokensFrom_of_parse fuel).1 _ _ _ _ hparsed hfits place (outer :: stack) hplace
  have hcloses := (closing_of_parse fuel).1 _ _ _ _ hparsed (.inl hpos)
  refine ⟨?_, ?_, ?_⟩
  · rw [tokensFrom_skipSpace]
    rw [htokens] at hclean
    exact hclean
  · rw [hcloses, closedBy_of_pos hpos, closing_skipSpace]
  · exact (skipSpace_length_le after).trans_lt ((parse_shorter fuel).1 _ _ _ _ hparsed)

theorem itemsRead {s : List Char} (hvalue : ValueRead limit fits s)
    (ihItems : ∀ t : List Char, t.length < s.length → ItemsRead limit fits t) :
    ItemsRead limit fits s := by
  intro fuel depth place outer stack hplace hpos hfuel hskip hclose hclean
  obtain ⟨fuel, rfl⟩ : ∃ k, fuel = k + 1 := ⟨fuel - 1, by omega⟩
  have hallowed := valueAllowed_item hplace
  obtain ⟨x, after, hparsed, hfits⟩ | hopen :=
    hvalue fuel depth place (outer :: stack) hallowed (by omega) hskip hclose hclean
  · obtain ⟨hclean', hcloses, hshorter⟩ := after_value hallowed hpos hparsed hfits hclean
    rw [afterValue_item hplace] at hclean'
    cases hafter : skipSpace after with
    | nil => exact .inr (by rw [hcloses, hafter, closing])
    | cons d rest =>
        rw [hafter] at hclean' hcloses hshorter
        have hallows := allows_of_clean
          (solid_of_skipSpace (by rw [← hafter, skipSpace_skipSpace])) hclean'
        rw [List.length_cons] at hshorter
        have hrest := skipSpace_length_le rest
        obtain rfl | rfl : d = ',' ∨ d = ']' := by simpa [Place.allows] using hallows
        · rw [tokensFrom_nextItem, ← tokensFrom_skipSpace] at hclean'
          obtain ⟨xs, r, hxs, hfits'⟩ | hopen := ihItems (skipSpace rest) (by omega) fuel depth
            .arrayValue outer stack (.inr rfl) hpos (by omega) (skipSpace_skipSpace rest)
            (fun _ _ => by decide) hclean'
          · refine .inl ⟨x :: xs, r, by simp [parseItems, hparsed, hafter, hxs], ?_⟩
            rw [Json.numbersItems, List.all_append, hfits, hfits']
            rfl
          · refine .inr ?_
            rw [hcloses, closing_plainHead (by decide), ← closing_skipSpace, hopen]
        · refine .inl ⟨[x], rest, by simp [parseItems, hparsed, hafter], ?_⟩
          rw [Json.numbersItems, Json.numbersItems, List.append_nil, hfits]
  · exact .inr hopen

theorem membersRead {s : List Char}
    (ihValue : ∀ t : List Char, t.length < s.length → ValueRead limit fits t)
    (ihMembers : ∀ t : List Char, t.length < s.length → MembersRead limit fits t) :
    MembersRead limit fits s := by
  intro fuel depth place outer stack hplace hpos hfuel hskip hclose hclean
  obtain ⟨fuel, rfl⟩ : ∃ k, fuel = k + 1 := ⟨fuel - 1, by omega⟩
  cases s with
  | nil => exact .inr rfl
  | cons c tail =>
      have hallows := allows_of_clean (solid_of_skipSpace hskip) hclean
      obtain rfl : c = '"' := by
        rcases hplace with rfl | rfl
        · obtain hquote | rfl : c = '"' ∨ c = '}' := by simpa [Place.allows] using hallows
          · exact hquote
          · exact absurd rfl (hclose tail rfl)
        · simpa [Place.allows] using hallows
      obtain ⟨k, mid, hkey⟩ := isSome_parseString_of_clean hclean
      rw [tokensFrom_key hplace hkey] at hclean
      have hcolon : (tokensFrom fits .objectColon (outer :: stack) (skipSpace mid)).2 = true := by
        rw [tokensFrom_skipSpace]
        exact hclean
      have hmid := length_lt_of_parseString hkey
      rw [List.length_cons] at hfuel
      cases hskipMid : skipSpace mid with
      | nil =>
          refine .inr ?_
          rw [closing_parseString hkey, ← closing_skipSpace, hskipMid, closing]
      | cons d value =>
          rw [hskipMid] at hcolon
          have hvalueLength := length_lt_of_skipSpace hskipMid
          obtain rfl : d = ':' := by
            simpa [Place.allows] using allows_of_clean
              (solid_of_skipSpace (by rw [← hskipMid, skipSpace_skipSpace])) hcolon
          rw [tokensFrom_colon, ← tokensFrom_skipSpace] at hcolon
          have hkeyCloses : closing ⟨false, limit⟩ depth false ('"' :: tail) =
              closing ⟨false, limit⟩ depth false (skipSpace value) := by
            rw [closing_parseString hkey, ← closing_skipSpace, hskipMid,
              closing_plainHead (by decide), closing_skipSpace]
          have hskipValue := skipSpace_length_le value
          obtain ⟨x, after, hparsed, hfits⟩ | hopen := ihValue (skipSpace value)
            (by rw [List.length_cons]; omega) fuel depth .objectValue (outer :: stack) rfl
            (by omega) (skipSpace_skipSpace value) (fun _ _ => by decide) hcolon
          · obtain ⟨hclean', hcloses, hshorter⟩ := after_value rfl hpos hparsed hfits hcolon
            cases hafter : skipSpace after with
            | nil => exact .inr (by rw [hkeyCloses, hcloses, hafter, closing])
            | cons d rest =>
                rw [hafter] at hclean' hcloses hshorter
                have hallows' := allows_of_clean
                  (solid_of_skipSpace (by rw [← hafter, skipSpace_skipSpace])) hclean'
                rw [List.length_cons] at hshorter
                have hrest := skipSpace_length_le rest
                obtain rfl | rfl : d = ',' ∨ d = '}' := by
                  simpa [Place.allows, Place.afterValue] using hallows'
                · rw [Place.afterValue, tokensFrom_nextMember, ← tokensFrom_skipSpace] at hclean'
                  obtain ⟨ms, r, hms, hfits'⟩ | hopen := ihMembers (skipSpace rest)
                    (by rw [List.length_cons]; omega) fuel depth .objectKey outer stack (.inr rfl)
                    hpos (by omega) (skipSpace_skipSpace rest) (fun _ _ => by decide) hclean'
                  · refine .inl ⟨(k, x) :: ms, r,
                      by simp [parseMembers, hkey, hskipMid, hparsed, hafter, hms], ?_⟩
                    rw [Json.numbersMembers, List.all_append, hfits, hfits']
                    rfl
                  · refine .inr ?_
                    rw [hkeyCloses, hcloses, closing_plainHead (by decide),
                      ← closing_skipSpace, hopen]
                · refine .inl ⟨[(k, x)], rest,
                    by simp [parseMembers, hkey, hskipMid, hparsed, hafter], ?_⟩
                  rw [Json.numbersMembers, Json.numbersMembers, List.append_nil, hfits]
          · exact .inr (by rw [hkeyCloses, hopen])

/-- What is read token by token to its end is read by a parser, or leaves a bracket
open. -/
theorem read_all (s : List Char) :
    ValueRead limit fits s ∧ ItemsRead limit fits s ∧ MembersRead limit fits s := by
  induction hn : s.length using Nat.strong_induction_on generalizing s with
  | _ n ih =>
      subst hn
      have hvalue : ValueRead limit fits s :=
        valueRead (fun t ht => (ih _ ht t rfl).2.1) fun t ht => (ih _ ht t rfl).2.2
      exact ⟨hvalue, itemsRead hvalue fun t ht => (ih _ ht t rfl).2.1,
        membersRead (fun t ht => (ih _ ht t rfl).1) fun t ht => (ih _ ht t rfl).2.2⟩

end Completeness

section WholeDocuments

variable {opts : Options} {limit : Option ℕ} {fits : NumLit → Bool}

theorem closing_append_some {depth : ℕ} {inString : Bool} {s rest : List Char}
    (h : closing opts depth inString s = some rest) (t : List Char) :
    closing opts depth inString (s ++ t) = some (rest ++ t) := by
  fun_induction closing opts depth inString s with
  | case1 => cases h
  | case2 depth c rest' ih =>
      rw [List.cons_append, List.cons_append, closing]
      exact ih h
  | case3 depth c rest' hslash ih =>
      have hc : c ≠ '\\' := by
        rintro rfl
        cases rest' with
        | nil => cases h
        | cons d rest' => exact hslash d rest' rfl rfl
      rw [List.cons_append, closing_notSlash hc]
      exact ih h
  | case4 depth rest' ih =>
      rw [List.cons_append, closing_quote]
      exact ih h
  | case5 depth c rest' _ hopen hdepth ih =>
      rw [List.cons_append, closing_open hopen hdepth]
      exact ih h
  | case6 => cases h
  | case7 depth c rest' hquote hopen hclose hdepth =>
      cases h
      simp [closing, hquote, hopen, hclose, hdepth]
  | case8 depth c rest' hquote hopen hclose hdepth ih =>
      simp only [List.cons_append, closing, hquote, hopen, hclose, hdepth, if_false, if_true]
      exact ih h
  | case9 depth c rest' hquote hopen hclose ih =>
      simp only [List.cons_append, closing, hquote, hopen, hclose, if_false]
      exact ih h

theorem closing_unquoted (depth : ℕ) :
    ∀ t : List Char, (∀ c ∈ t, Plain c) → closing opts depth true t = none
  | [], _ => by rw [closing]
  | [c], ht => by
      have hquote : c ≠ '"' := (ht c List.mem_cons_self).1
      by_cases hslash : c = '\\'
      · subst hslash
        rfl
      · rw [closing_inString hquote hslash, closing]
  | c :: d :: rest, ht => by
      have hquote : c ≠ '"' := (ht c List.mem_cons_self).1
      by_cases hslash : c = '\\'
      · subst hslash
        rw [closing]
        exact closing_unquoted depth rest fun e he => ht e (by simp [he])
      · rw [closing_inString hquote hslash]
        exact closing_unquoted depth (d :: rest) fun e he => ht e (List.mem_cons_of_mem _ he)

/-- Characters that are neither brackets nor quotes close nothing. -/
theorem closing_append_none {depth : ℕ} {inString : Bool} {s t : List Char}
    (ht : ∀ c ∈ t, Plain c) (h : closing opts depth inString s = none) :
    closing opts depth inString (s ++ t) = none := by
  fun_induction closing opts depth inString s with
  | case1 depth inString =>
      rw [List.nil_append]
      cases inString with
      | false => rw [← List.append_nil t, closing_plain ht, closing]
      | true => exact closing_unquoted depth t ht
  | case2 depth c rest' ih =>
      rw [List.cons_append, List.cons_append, closing]
      exact ih h
  | case3 depth c rest' hslash ih =>
      by_cases hc : c = '\\'
      · subst hc
        cases rest' with
        | cons d rest' => exact absurd rfl (hslash d rest' rfl)
        | nil =>
            cases t with
            | nil => rfl
            | cons d t =>
                rw [List.singleton_append, closing]
                exact closing_unquoted depth t fun e he => ht e (List.mem_cons_of_mem _ he)
      · rw [List.cons_append, closing_notSlash hc]
        exact ih h
  | case4 depth rest' ih =>
      rw [List.cons_append, closing_quote]
      exact ih h
  | case5 depth c rest' _ hopen hdepth ih =>
      rw [List.cons_append, closing_open hopen hdepth]
      exact ih h
  | case6 depth c rest' hquote hopen hdepth =>
      simp [closing, hquote, hopen, hdepth]
  | case7 => cases h
  | case8 depth c rest' hquote hopen hclose hdepth ih =>
      simp only [List.cons_append, closing, hquote, hopen, hclose, hdepth, if_false, if_true]
      exact ih h
  | case9 depth c rest' hquote hopen hclose ih =>
      simp only [List.cons_append, closing, hquote, hopen, hclose, if_false]
      exact ih h

/-- An object, with white space around it: the first brace of a text opens what closes
for the first time where only white space follows. -/
def Encloses (opts : Options) (text : List Char) : Prop :=
  ∃ tail after, skipSpace text = '{' :: tail ∧ closing opts 0 false ('{' :: tail) = some after ∧
    Blank after

theorem parseValue_brace {fuel depth : ℕ} {s rest : List Char} {x : Json NumLit}
    (h : parseValue opts fuel depth ('{' :: s) = some (x, rest)) : ∃ members, x = .obj members := by
  cases fuel with
  | zero => cases h
  | succ fuel =>
      rw [parseValue] at h
      split at h
      · split at h
        · cases h
          exact ⟨[], rfl⟩
        · obtain ⟨⟨ms, r⟩, -, hxr⟩ := Option.map_eq_some_iff.mp h
          cases hxr
          exact ⟨ms, rfl⟩
      · cases h

theorem brace_of_parseValue (fuel : ℕ) : ∀ depth s x rest,
    parseValue ⟨false, limit⟩ fuel depth s = some (x, rest) → x.isObj = true →
      ∃ tail, s = '{' :: tail := by
  refine (parse_induction (P := fun _ s x _ => x.isObj = true → ∃ tail, s = '{' :: tail)
    (Q := fun _ _ _ _ => True) (R := fun _ _ _ _ => True)
    ?_ ?_ ?_ ?_ ?_ ?_ ?_ ?_ ?_ ?_ fuel).1
  · intro _ _ _ _ _ hobj
    cases hobj
  · intro _ s x rest hscalar hobj
    obtain ⟨members, rfl⟩ := Json.isObj_iff.mp hobj
    obtain hword | ⟨n, hn, -⟩ := parseScalar_cases hscalar
    · obtain ⟨hx, -⟩ | ⟨hx, -⟩ | ⟨hx, -⟩ := parseWord_cases hword <;> cases hx
    · cases hn
  · intro _ _ _ _ _ hobj
    cases hobj
  · intro _ _ _ _ _ _ hobj
    cases hobj
  · intro _ s _ _ _ _
    exact ⟨s, rfl⟩
  · intro _ s _ _ _ _ _
    exact ⟨s, rfl⟩
  all_goals intros; trivial

theorem encloses_of_parse {text : List Char} {members : List (String × Json NumLit)}
    (h : parse ⟨false, limit⟩ text = some (.obj members)) : Encloses ⟨false, limit⟩ text := by
  simp only [parse, parsePrefix, Option.bind_eq_bind, Option.bind_eq_some_iff] at h
  obtain ⟨⟨x, after⟩, hvalue, h⟩ := h
  split at h
  · rename_i hblank
    cases h
    obtain ⟨tail, htail⟩ := brace_of_parseValue _ _ _ _ _ hvalue rfl
    refine ⟨tail, after, htail, ?_, (blank_iff_skipSpace after).mpr (by simpa using hblank)⟩
    rw [htail] at hvalue
    exact (closing_of_parse _).1 _ _ _ _ hvalue (.inr ⟨'{', tail, rfl, .inr rfl⟩)
  · cases h

/-- What the first brace of a text encloses, a parser reads, if a streaming reader
does. -/
theorem parse_of_encloses {text : List Char} (henclosed : Encloses ⟨false, limit⟩ text)
    (hclean : (tokensFrom fits .topValue [] text).2 = true) :
    ∃ members, parse ⟨false, limit⟩ text = some (.obj members) ∧
      (Json.obj members).numbers.all fits = true := by
  obtain ⟨tail, after, htail, hclosing, hblank⟩ := henclosed
  rw [← tokensFrom_skipSpace] at hclean
  have hfuel := skipSpace_length_le text
  have hread : ValueRead limit fits (skipSpace text) := (read_all _).1
  obtain ⟨x, rest, hparsed, hfits⟩ | hopen := hread (2 * text.length + 1) 0 .topValue [] rfl
    (by omega) (skipSpace_skipSpace text) (fun _ _ => by decide) hclean
  · rw [htail] at hparsed
    obtain ⟨members, rfl⟩ := parseValue_brace hparsed
    have hcloses := (closing_of_parse _).1 _ _ _ _ hparsed (.inr ⟨'{', tail, rfl, .inr rfl⟩)
    rw [hclosing] at hcloses
    obtain rfl : after = rest := by simpa [closedBy] using hcloses
    refine ⟨members, ?_, hfits⟩
    simp [parse, parsePrefix, htail, hparsed, (blank_iff_skipSpace after).mp hblank]
  · rw [htail, hclosing] at hopen
    cases hopen

end WholeDocuments

end Ulpf.Lib.JsonTokens
