import Ulpf.Lib.JsonScan

/-!
JSON as a stream of tokens. A streaming reader keeps a stack of the containers it
is in, hands out one token at a time and stops without an error wherever the text
ends between two tokens; it reads what a parser of whole documents reads, and more.
-/

namespace Ulpf.Lib.JsonTokens

open Text JsonText

/-- The tokens of Go's decoder. -/
inductive Token where
  | delim (c : Char)
  | str (s : String)
  | scalar (x : Json NumLit)
  deriving DecidableEq

/-- What a streaming reader expects next. -/
inductive Place where
  | topValue
  | arrayStart
  | arrayValue
  | arrayComma
  | objectStart
  | objectKey
  | objectColon
  | objectValue
  | objectComma
  deriving DecidableEq

/-- The places where a value may stand. -/
def Place.valueAllowed : Place → Bool
  | topValue | arrayStart | arrayValue | objectValue => true
  | _ => false

/-- What is expected after a value. -/
def Place.afterValue : Place → Place
  | arrayStart | arrayValue => arrayComma
  | objectValue => objectComma
  | place => place

/-- What one call of `Token` returns. -/
inductive Reading where
  | eof
  | malformed
  | token (t : Token) (place : Place) (stack : List Place) (rest : List Char)

section Reading

variable (fits : NumLit → Bool)

/-- The next token. `fits` tells which numbers the reader can represent. -/
def next (place : Place) (stack : List Place) : List Char → Reading
  | [] => .eof
  | c :: rest =>
      if isSpace c then next place stack rest
      else match c with
        | ',' =>
            match place with
            | .arrayComma => next .arrayValue stack rest
            | .objectComma => next .objectKey stack rest
            | _ => .malformed
        | ':' => if place = .objectColon then next .objectValue stack rest else .malformed
        | '[' =>
            if place.valueAllowed then .token (.delim '[') .arrayStart (place :: stack) rest
            else .malformed
        | '{' =>
            if place.valueAllowed then .token (.delim '{') .objectStart (place :: stack) rest
            else .malformed
        | ']' =>
            match place, stack with
            | .arrayStart, outer :: stack | .arrayComma, outer :: stack =>
                .token (.delim ']') outer.afterValue stack rest
            | _, _ => .malformed
        | '}' =>
            match place, stack with
            | .objectStart, outer :: stack | .objectComma, outer :: stack =>
                .token (.delim '}') outer.afterValue stack rest
            | _, _ => .malformed
        | '"' =>
            match parseString rest with
            | none => .malformed
            | some (s, after) =>
                if place = .objectStart ∨ place = .objectKey then
                  .token (.str s) .objectColon stack after
                else if place.valueAllowed then .token (.str s) place.afterValue stack after
                else .malformed
        | _ =>
            match parseScalar (c :: rest) with
            | none => .malformed
            | some (x, after) =>
                if place.valueAllowed ∧ x.numbers.all fits then
                  .token (.scalar x) place.afterValue stack after
                else .malformed

/-- The tokens of a text up to its end or to the first error, and whether it has
been read to the end. The first argument bounds the recursion. -/
def walk : ℕ → Place → List Place → List Char → List Token × Bool
  | 0, _, _, _ => ([], false)
  | fuel + 1, place, stack, s =>
      match next fits place stack s with
      | .eof => ([], true)
      | .malformed => ([], false)
      | .token t place stack rest =>
          let (ts, clean) := walk fuel place stack rest
          (t :: ts, clean)

/-- The tokens of a text, and whether it was read to its end. -/
def tokensFrom (place : Place) (stack : List Place) (s : List Char) : List Token × Bool :=
  walk fits (s.length + 1) place stack s

end Reading

section Walk

variable {fits : NumLit → Bool} {place : Place} {stack : List Place}

/-- What is read at a character; the definition, stated once for the proofs below. -/
theorem next_cons (c : Char) (rest : List Char) :
    next fits place stack (c :: rest) =
      if isSpace c then next fits place stack rest
      else match c with
        | ',' =>
            match place with
            | .arrayComma => next fits .arrayValue stack rest
            | .objectComma => next fits .objectKey stack rest
            | _ => .malformed
        | ':' => if place = .objectColon then next fits .objectValue stack rest else .malformed
        | '[' =>
            if place.valueAllowed then .token (.delim '[') .arrayStart (place :: stack) rest
            else .malformed
        | '{' =>
            if place.valueAllowed then .token (.delim '{') .objectStart (place :: stack) rest
            else .malformed
        | ']' =>
            match place, stack with
            | .arrayStart, outer :: stack | .arrayComma, outer :: stack =>
                .token (.delim ']') outer.afterValue stack rest
            | _, _ => .malformed
        | '}' =>
            match place, stack with
            | .objectStart, outer :: stack | .objectComma, outer :: stack =>
                .token (.delim '}') outer.afterValue stack rest
            | _, _ => .malformed
        | '"' =>
            match parseString rest with
            | none => .malformed
            | some (s, after) =>
                if place = .objectStart ∨ place = .objectKey then
                  .token (.str s) .objectColon stack after
                else if place.valueAllowed then .token (.str s) place.afterValue stack after
                else .malformed
        | _ =>
            match parseScalar (c :: rest) with
            | none => .malformed
            | some (x, after) =>
                if place.valueAllowed ∧ x.numbers.all fits then
                  .token (.scalar x) place.afterValue stack after
                else .malformed :=
  rfl

example (c : Char) (rest : List Char) (h : next fits place stack (c :: rest) = .eof) :
    isSpace c = true ∨ c = ',' ∨ c = ':' := by
  rw [next_cons] at h
  split at h
  · exact .inl ‹_›
  · split at h
    · exact .inr (.inl rfl)
    · exact .inr (.inr rfl)
    all_goals repeat' split at h
    all_goals cases h

theorem next_space {c : Char} (hc : isSpace c = true) (s : List Char) :
    next fits place stack (c :: s) = next fits place stack s := by
  rw [next_cons]
  exact if_pos hc

theorem next_skipSpace (s : List Char) :
    next fits place stack (skipSpace s) = next fits place stack s := by
  induction s with
  | nil => rfl
  | cons c s ih =>
      rw [skipSpace, List.dropWhile_cons]
      split
      · rename_i hc
        rw [next_space hc]
        exact ih
      · rfl

theorem next_shorter {s rest : List Char} {t : Token} {place' : Place} {stack' : List Place}
    (h : next fits place stack s = .token t place' stack' rest) : rest.length < s.length := by
  induction s generalizing place with
  | nil => cases h
  | cons c s ih =>
      rw [next_cons] at h
      split at h
      · exact Nat.lt_succ_of_lt (ih h)
      · split at h
        · split at h
          · exact Nat.lt_succ_of_lt (ih h)
          · exact Nat.lt_succ_of_lt (ih h)
          · cases h
        · split at h
          · exact Nat.lt_succ_of_lt (ih h)
          · cases h
        · split at h
          · cases h
            exact Nat.lt_succ_self _
          · cases h
        · split at h
          · cases h
            exact Nat.lt_succ_self _
          · cases h
        · split at h
          · cases h
            exact Nat.lt_succ_self _
          · cases h
            exact Nat.lt_succ_self _
          · cases h
        · split at h
          · cases h
            exact Nat.lt_succ_self _
          · cases h
            exact Nat.lt_succ_self _
          · cases h
        · split at h
          · cases h
          · rename_i t' after hstring
            obtain ⟨body, -, rfl⟩ := parseString_eq_some hstring
            split_ifs at h
            · cases h
              simp only [List.length_cons, List.length_append]
              omega
            · cases h
              simp only [List.length_cons, List.length_append]
              omega
        · split at h
          · cases h
          · rename_i x after hscalar
            obtain ⟨d, tail, hs, -, hplain⟩ := parseScalar_eq_some hscalar
            obtain ⟨rfl, rfl⟩ := List.cons.inj hs
            split at h
            · cases h
              exact Nat.lt_succ_of_le hplain.length_le
            · cases h

theorem walk_eq_tokensFrom {fuel : ℕ} {s : List Char} (h : s.length < fuel) :
    walk fits fuel place stack s = tokensFrom fits place stack s := by
  have hfuel : ∀ (n : ℕ) (place : Place) (stack : List Place) (s : List Char), s.length < n →
      ∀ m, s.length < m → walk fits n place stack s = walk fits m place stack s := by
    intro n
    induction n with
    | zero => exact fun place stack s hs => absurd hs (Nat.not_lt_zero _)
    | succ n ih =>
        intro place stack s hs m hm
        cases m with
        | zero => exact absurd hm (Nat.not_lt_zero _)
        | succ m =>
            rw [walk, walk]
            cases hnext : next fits place stack s with
            | eof => rfl
            | malformed => rfl
            | token t place' stack' rest =>
                have hshorter := next_shorter hnext
                simp only [ih place' stack' rest (by omega) m (by omega)]
  exact hfuel fuel place stack s h _ (Nat.lt_succ_self _)

/-- Tokens put before those of a walk. -/
def prepend (ts : List Token) (walked : List Token × Bool) : List Token × Bool :=
  (ts ++ walked.1, walked.2)

@[simp] theorem prepend_nil (walked : List Token × Bool) : prepend [] walked = walked := rfl

@[simp] theorem prepend_prepend (ts ts' : List Token) (walked : List Token × Bool) :
    prepend ts (prepend ts' walked) = prepend (ts ++ ts') walked := by
  simp [prepend]

theorem tokensFrom_token {s rest : List Char} {t : Token} {place' : Place} {stack' : List Place}
    (h : next fits place stack s = .token t place' stack' rest) :
    tokensFrom fits place stack s = prepend [t] (tokensFrom fits place' stack' rest) := by
  rw [tokensFrom, walk, h]
  simp only [walk_eq_tokensFrom (next_shorter h), prepend, List.singleton_append]

theorem tokensFrom_eof {s : List Char} (h : next fits place stack s = .eof) :
    tokensFrom fits place stack s = ([], true) := by
  rw [tokensFrom, walk, h]

theorem tokensFrom_malformed {s : List Char} (h : next fits place stack s = .malformed) :
    tokensFrom fits place stack s = ([], false) := by
  rw [tokensFrom, walk, h]

theorem tokensFrom_congr {s s' : List Char} {place' : Place}
    (h : next fits place stack s = next fits place' stack s') :
    tokensFrom fits place stack s = tokensFrom fits place' stack s' := by
  cases hnext : next fits place' stack s' with
  | eof => rw [tokensFrom_eof hnext, tokensFrom_eof (h.trans hnext)]
  | malformed => rw [tokensFrom_malformed hnext, tokensFrom_malformed (h.trans hnext)]
  | token t place stack rest => rw [tokensFrom_token hnext, tokensFrom_token (h.trans hnext)]

theorem tokensFrom_skipSpace (s : List Char) :
    tokensFrom fits place stack (skipSpace s) = tokensFrom fits place stack s :=
  tokensFrom_congr (next_skipSpace s)

theorem tokensFrom_arr (hplace : place.valueAllowed = true) (s : List Char) :
    tokensFrom fits place stack ('[' :: s) =
      prepend [.delim '['] (tokensFrom fits .arrayStart (place :: stack) s) := by
  refine tokensFrom_token ?_
  rw [next_cons]
  simp [isSpace, hplace]

theorem tokensFrom_obj (hplace : place.valueAllowed = true) (s : List Char) :
    tokensFrom fits place stack ('{' :: s) =
      prepend [.delim '{'] (tokensFrom fits .objectStart (place :: stack) s) := by
  refine tokensFrom_token ?_
  rw [next_cons]
  simp [isSpace, hplace]

theorem tokensFrom_endArr (hplace : place = .arrayStart ∨ place = .arrayComma) (outer : Place)
    (s : List Char) :
    tokensFrom fits place (outer :: stack) (']' :: s) =
      prepend [.delim ']'] (tokensFrom fits outer.afterValue stack s) := by
  refine tokensFrom_token ?_
  rw [next_cons]
  rcases hplace with rfl | rfl <;> simp [isSpace]

theorem tokensFrom_endObj (hplace : place = .objectStart ∨ place = .objectComma) (outer : Place)
    (s : List Char) :
    tokensFrom fits place (outer :: stack) ('}' :: s) =
      prepend [.delim '}'] (tokensFrom fits outer.afterValue stack s) := by
  refine tokensFrom_token ?_
  rw [next_cons]
  rcases hplace with rfl | rfl <;> simp [isSpace]

theorem tokensFrom_nextItem (s : List Char) :
    tokensFrom fits .arrayComma stack (',' :: s) = tokensFrom fits .arrayValue stack s := by
  refine tokensFrom_congr ?_
  rw [next_cons]
  simp [isSpace]

theorem tokensFrom_nextMember (s : List Char) :
    tokensFrom fits .objectComma stack (',' :: s) = tokensFrom fits .objectKey stack s := by
  refine tokensFrom_congr ?_
  rw [next_cons]
  simp [isSpace]

theorem tokensFrom_colon (s : List Char) :
    tokensFrom fits .objectColon stack (':' :: s) = tokensFrom fits .objectValue stack s := by
  refine tokensFrom_congr ?_
  rw [next_cons]
  simp [isSpace]

theorem tokensFrom_key {s rest : List Char} {k : String}
    (hplace : place = .objectStart ∨ place = .objectKey) (h : parseString s = some (k, rest)) :
    tokensFrom fits place stack ('"' :: s) =
      prepend [.str k] (tokensFrom fits .objectColon stack rest) := by
  refine tokensFrom_token ?_
  rw [next_cons]
  simp [isSpace, h, hplace]

theorem tokensFrom_str {s rest : List Char} {t : String} (hplace : place.valueAllowed = true)
    (h : parseString s = some (t, rest)) :
    tokensFrom fits place stack ('"' :: s) =
      prepend [.str t] (tokensFrom fits place.afterValue stack rest) := by
  have hkey : ¬ (place = .objectStart ∨ place = .objectKey) := by
    rintro (rfl | rfl) <;> cases hplace
  refine tokensFrom_token ?_
  rw [next_cons]
  simp [isSpace, h, hkey, hplace]

theorem next_solid {c : Char} (hspace : isSpace c = false) (hc : c ∉ structural)
    (s : List Char) :
    next fits place stack (c :: s) =
      match parseScalar (c :: s) with
      | none => .malformed
      | some (x, after) =>
          if place.valueAllowed ∧ x.numbers.all fits then
            .token (.scalar x) place.afterValue stack after
          else .malformed := by
  rw [next_cons]
  rw [if_neg (by simp [hspace])]
  split <;> first | exact absurd (by decide) hc | rfl

theorem tokensFrom_scalar {s rest : List Char} {x : Json NumLit}
    (hplace : place.valueAllowed = true) (hfits : x.numbers.all fits = true)
    (h : parseScalar s = some (x, rest)) :
    tokensFrom fits place stack s =
      prepend [.scalar x] (tokensFrom fits place.afterValue stack rest) := by
  obtain ⟨c, tail, rfl, hc, -⟩ := parseScalar_eq_some h
  refine tokensFrom_token ?_
  rw [next_solid hc.not_space hc.not_structural, h]
  simp [hplace, hfits]

/-- Whether a text can go on with a character at a place. -/
def Place.allows : Place → Char → Bool
  | arrayComma, c => c = ',' || c = ']'
  | objectComma, c => c = ',' || c = '}'
  | objectColon, c => c = ':'
  | objectStart, c => c = '"' || c = '}'
  | objectKey, c => c = '"'
  | arrayStart, c => !([',', ':', '}'].contains c)
  | _, c => !([',', ':', '}', ']'].contains c)

theorem next_eq_malformed {c : Char} (hspace : isSpace c = false)
    (h : place.allows c = false) (s : List Char) :
    next fits place stack (c :: s) = .malformed := by
  rw [next_cons]
  rw [if_neg (by simp [hspace])]
  split
  · cases place <;> first | rfl | simp [Place.allows] at h
  · cases place <;> first | rfl | simp [Place.allows] at h
  · cases place <;> first | rfl | simp [Place.allows] at h
  · cases place <;> first | rfl | simp [Place.allows] at h
  · cases place <;> first | rfl | simp [Place.allows] at h
  · cases place <;> first | rfl | simp [Place.allows] at h
  · split
    · rfl
    · cases place <;> first | rfl | simp [Place.allows] at h
  · split
    · rfl
    · cases place <;> first | rfl | simp_all [Place.allows]

theorem allows_of_clean {c : Char} {s : List Char} (hspace : isSpace c = false)
    (h : (tokensFrom fits place stack (c :: s)).2 = true) : place.allows c = true := by
  by_contra hnot
  rw [tokensFrom_malformed (next_eq_malformed hspace (by simpa using hnot) s)] at h
  cases h

/-- What is read when more text follows. -/
def Reading.append (t : List Char) : Reading → Reading
  | .eof => .eof
  | .malformed => .malformed
  | .token tok place stack rest => .token tok place stack (rest ++ t)

theorem next_append {t : List Char} (ht : Blank t) {s : List Char}
    (h : next fits place stack s ≠ .malformed) :
    next fits place stack (s ++ t) = (next fits place stack s).append t := by
  induction s generalizing place with
  | nil =>
      rw [List.nil_append, ← next_skipSpace, (blank_iff_skipSpace t).mp ht]
      rfl
  | cons c s ih =>
      rw [List.cons_append]
      by_cases hspace : isSpace c = true
      · rw [next_space hspace] at h ⊢
        rw [next_space hspace]
        exact ih h
      · simp only [Bool.not_eq_true] at hspace
        by_cases hc : c ∈ structural
        · simp only [structural, List.mem_cons, List.not_mem_nil, or_false] at hc
          rcases hc with rfl | rfl | rfl | rfl | rfl | rfl | rfl
          · rw [next_cons] at h
            rw [next_cons, next_cons]
            cases place <;> first | exact ih h | exact absurd rfl h
          · rw [next_cons] at h
            rw [next_cons, next_cons]
            cases place <;> first | exact ih h | exact absurd rfl h
          · rw [next_cons, next_cons]
            cases place <;> rfl
          · rw [next_cons, next_cons]
            cases place <;> rfl
          · rw [next_cons, next_cons]
            cases place <;> cases stack <;> rfl
          · rw [next_cons, next_cons]
            cases place <;> cases stack <;> rfl
          · cases hstring : parseString s with
            | none =>
                rw [next_cons] at h
                simp [isSpace, hstring] at h
            | some p =>
                have happend := parseString_append hstring t
                rw [next_cons, next_cons]
                cases place <;> simp [isSpace, hstring, happend, Place.valueAllowed, Reading.append]
        · rw [next_solid hspace hc] at h ⊢
          cases hscalar : parseScalar (c :: s) with
          | none =>
              rw [hscalar] at h
              exact absurd rfl h
          | some p =>
              have happend := parseScalar_append ht hscalar
              rw [List.cons_append] at happend
              rw [next_solid hspace hc, happend, hscalar]
              dsimp only
              split <;> rfl

theorem tokensFrom_append {t : List Char} (ht : Blank t) {s : List Char}
    (h : (tokensFrom fits place stack s).2 = true) :
    tokensFrom fits place stack (s ++ t) = tokensFrom fits place stack s := by
  induction hn : s.length using Nat.strong_induction_on generalizing place stack s with
  | _ n ih =>
      cases hnext : next fits place stack s with
      | malformed =>
          rw [tokensFrom_malformed hnext] at h
          cases h
      | eof =>
          have happend := next_append ht (s := s) (by rw [hnext]; exact Reading.noConfusion)
          rw [hnext] at happend
          rw [tokensFrom_eof hnext, tokensFrom_eof happend]
      | token tok place' stack' rest =>
          have happend := next_append ht (s := s) (by rw [hnext]; exact Reading.noConfusion)
          rw [hnext] at happend
          rw [tokensFrom_token hnext] at h
          rw [tokensFrom_token happend, tokensFrom_token hnext,
            ih rest.length (hn ▸ next_shorter hnext) h rfl]

end Walk

section Documents

mutual

/-- The tokens of a document. -/
def tokensOf : Json NumLit → List Token
  | .str s => [.str s]
  | .arr items => .delim '[' :: (tokensOfItems items ++ [.delim ']'])
  | .obj members => .delim '{' :: (tokensOfMembers members ++ [.delim '}'])
  | x => [.scalar x]

def tokensOfItems : List (Json NumLit) → List Token
  | [] => []
  | x :: xs => tokensOf x ++ tokensOfItems xs

def tokensOfMembers : List (String × Json NumLit) → List Token
  | [] => []
  | (k, x) :: ms => .str k :: (tokensOf x ++ tokensOfMembers ms)

end

theorem parseScalar_tokensOf {s rest : List Char} {x : Json NumLit}
    (h : parseScalar s = some (x, rest)) : tokensOf x = [.scalar x] := by
  obtain hword | ⟨n, rfl, -⟩ := parseScalar_cases h
  · obtain ⟨rfl, -⟩ | ⟨rfl, -⟩ | ⟨rfl, -⟩ := parseWord_cases hword <;> rfl
  · rfl

variable {limit : Option ℕ} {fits : NumLit → Bool}

theorem valueAllowed_item {place : Place} (h : place = .arrayStart ∨ place = .arrayValue) :
    place.valueAllowed = true := by
  rcases h with rfl | rfl <;> rfl

theorem afterValue_item {place : Place} (h : place = .arrayStart ∨ place = .arrayValue) :
    place.afterValue = .arrayComma := by
  rcases h with rfl | rfl <;> rfl

theorem tokensFrom_of_parse (fuel : ℕ) :
    (∀ depth s x rest, parseValue ⟨false, limit⟩ fuel depth s = some (x, rest) →
      x.numbers.all fits = true → ∀ place stack, place.valueAllowed = true →
        tokensFrom fits place stack s =
          prepend (tokensOf x) (tokensFrom fits place.afterValue stack rest)) ∧
    (∀ depth s xs rest, parseItems ⟨false, limit⟩ fuel depth s = some (xs, rest) →
      (Json.numbersItems xs).all fits = true → ∀ place outer stack,
        place = .arrayStart ∨ place = .arrayValue →
        tokensFrom fits place (outer :: stack) s =
          prepend (tokensOfItems xs ++ [.delim ']'])
            (tokensFrom fits outer.afterValue stack rest)) ∧
    (∀ depth s ms rest, parseMembers ⟨false, limit⟩ fuel depth s = some (ms, rest) →
      (Json.numbersMembers ms).all fits = true → ∀ place outer stack,
        place = .objectStart ∨ place = .objectKey →
        tokensFrom fits place (outer :: stack) s =
          prepend (tokensOfMembers ms ++ [.delim '}'])
            (tokensFrom fits outer.afterValue stack rest)) := by
  refine parse_induction
    (P := fun _ s x rest => x.numbers.all fits = true → ∀ place stack,
      place.valueAllowed = true → tokensFrom fits place stack s =
        prepend (tokensOf x) (tokensFrom fits place.afterValue stack rest))
    (Q := fun _ s xs rest => (Json.numbersItems xs).all fits = true → ∀ place outer stack,
      place = .arrayStart ∨ place = .arrayValue → tokensFrom fits place (outer :: stack) s =
        prepend (tokensOfItems xs ++ [.delim ']']) (tokensFrom fits outer.afterValue stack rest))
    (R := fun _ s ms rest => (Json.numbersMembers ms).all fits = true → ∀ place outer stack,
      place = .objectStart ∨ place = .objectKey → tokensFrom fits place (outer :: stack) s =
        prepend (tokensOfMembers ms ++ [.delim '}']) (tokensFrom fits outer.afterValue stack rest))
    ?_ ?_ ?_ ?_ ?_ ?_ ?_ ?_ ?_ ?_ fuel
  · intro _ s t rest hstring _ place stack hplace
    exact tokensFrom_str hplace hstring
  · intro _ s x rest hscalar hfits place stack hplace
    rw [tokensFrom_scalar hplace hfits hscalar, parseScalar_tokensOf hscalar]
  · intro _ s rest _ hskip _ place stack hplace
    rw [tokensFrom_arr hplace, ← tokensFrom_skipSpace, hskip, tokensFrom_endArr (.inl rfl),
      prepend_prepend]
    rfl
  · intro _ s xs rest _ ih hfits place stack hplace
    rw [tokensFrom_arr hplace, ← tokensFrom_skipSpace, ih hfits _ _ _ (.inl rfl), prepend_prepend]
    rfl
  · intro _ s rest _ hskip _ place stack hplace
    rw [tokensFrom_obj hplace, ← tokensFrom_skipSpace, hskip, tokensFrom_endObj (.inl rfl),
      prepend_prepend]
    rfl
  · intro _ s ms rest _ ih hfits place stack hplace
    rw [tokensFrom_obj hplace, ← tokensFrom_skipSpace, ih hfits _ _ _ (.inl rfl), prepend_prepend]
    rfl
  · intro _ s x after rest ih hskip hfits place outer stack hplace
    simp only [Json.numbersItems, List.append_nil] at hfits
    have hitem := ih hfits place (outer :: stack) (valueAllowed_item hplace)
    rw [hitem, afterValue_item hplace, ← tokensFrom_skipSpace, hskip,
      tokensFrom_endArr (.inr rfl), prepend_prepend, tokensOfItems, tokensOfItems, List.append_nil]
  · intro _ s x after mid xs rest ih hskip ihItems hfits place outer stack hplace
    simp only [Json.numbersItems, List.all_append, Bool.and_eq_true] at hfits
    have hitem := ih hfits.1 place (outer :: stack) (valueAllowed_item hplace)
    rw [hitem, afterValue_item hplace, ← tokensFrom_skipSpace, hskip, tokensFrom_nextItem,
      ← tokensFrom_skipSpace, ihItems hfits.2 _ _ _ (.inr rfl), prepend_prepend, tokensOfItems,
      List.append_assoc]
  · intro _ s k mid value x after rest hkey hcolon ih hskip hfits place outer stack hplace
    simp only [Json.numbersMembers, List.append_nil] at hfits
    have hvalue := ih hfits .objectValue (outer :: stack) rfl
    rw [tokensFrom_key hplace hkey, ← tokensFrom_skipSpace, hcolon, tokensFrom_colon,
      ← tokensFrom_skipSpace, hvalue, Place.afterValue, ← tokensFrom_skipSpace, hskip,
      tokensFrom_endObj (.inr rfl)]
    simp [tokensOfMembers]
  · intro _ s k mid value x after next ms rest hkey hcolon ih hskip ihMembers hfits place outer
      stack hplace
    simp only [Json.numbersMembers, List.all_append, Bool.and_eq_true] at hfits
    have hvalue := ih hfits.1 .objectValue (outer :: stack) rfl
    rw [tokensFrom_key hplace hkey, ← tokensFrom_skipSpace, hcolon, tokensFrom_colon,
      ← tokensFrom_skipSpace, hvalue, Place.afterValue, ← tokensFrom_skipSpace, hskip,
      tokensFrom_nextMember, ← tokensFrom_skipSpace, ihMembers hfits.2 _ _ _ (.inr rfl)]
    simp [tokensOfMembers]

end Documents

end Ulpf.Lib.JsonTokens
