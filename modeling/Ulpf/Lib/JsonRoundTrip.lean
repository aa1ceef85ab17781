import Ulpf.Lib.JsonScan

/-!
A rendered document reads back as itself. Numbers are left out: the result is
about documents that contain none.
-/

namespace Ulpf.Lib.JsonText

open Json (NumberFree)

universe u

/-- The code units an escaped character is read back as. -/
def unitsOf (c : Char) : List (Char ⊕ ℕ) :=
  if (shortEscape? c).isSome ∨ 32 ≤ c.toNat ∧ c.toNat < 127 then [.inl c]
  else if c.toNat < 0x10000 then [.inr c.toNat]
  else
    let v := c.toNat - 0x10000
    [.inr (0xD800 + v / 0x400), .inr (0xDC00 + v % 0x400)]

theorem hex?_digitChar : ∀ d, d < 16 → hex? (Nat.digitChar d) = some d := by decide

theorem unescape?_of_shortEscape? {c letter : Char} (h : shortEscape? c = some letter) :
    unescape? letter = some c ∧ letter ≠ 'u' := by
  simp only [shortEscape?] at h
  split_ifs at h with h1 h2 h3 h4 h5 h6 h7 <;> cases h <;> simp_all [unescape?]

theorem toNat_lt (c : Char) : c.toNat < 0x110000 := by
  rcases c.valid with h | ⟨-, h⟩
  · exact Nat.lt_trans h (by decide)
  · exact h

theorem not_surrogate (c : Char) : c.toNat < 0xD800 ∨ 0xE000 ≤ c.toNat := by
  rcases c.valid with h | ⟨h, -⟩
  · exact Or.inl h
  · exact Or.inr h

theorem scanString_hex4 {v : ℕ} (hv : v < 0x10000) (rest : List Char) :
    scanString ('\\' :: 'u' :: (hex4 v ++ rest)) =
      (scanString rest).map fun p => (.inr v :: p.1, p.2) := by
  have h1 := hex?_digitChar (v / 4096 % 16) (by omega)
  have h2 := hex?_digitChar (v / 256 % 16) (by omega)
  have h3 := hex?_digitChar (v / 16 % 16) (by omega)
  have h4 := hex?_digitChar (v % 16) (by omega)
  have hvalue : ((v / 4096 % 16 * 16 + v / 256 % 16) * 16 + v / 16 % 16) * 16 + v % 16 = v := by
    omega
  simp only [hex4, List.map_cons, List.map_nil, List.cons_append, List.nil_append, scanString, h1,
    h2, h3, h4, Option.bind_eq_bind, Option.bind_some, hvalue]
  cases scanString rest <;> rfl

theorem scanString_escapeAscii (c : Char) (rest : List Char) :
    scanString (escapeAscii c ++ rest) =
      (scanString rest).map fun p => (unitsOf c ++ p.1, p.2) := by
  have hc := toNat_lt c
  cases hshort : shortEscape? c with
  | some letter =>
      rcases unescape?_of_shortEscape? hshort with ⟨hletter, hu⟩
      simp only [escapeAscii, unitsOf, hshort, List.cons_append, List.nil_append,
        scanString_short hletter hu, Option.isSome_some, true_or, if_true]
  | none =>
      have hquote : c ≠ '"' := by
        rintro rfl
        simp [shortEscape?] at hshort
      have hslash : c ≠ '\\' := by
        rintro rfl
        simp [shortEscape?] at hshort
      simp only [escapeAscii, unitsOf, hshort, Option.isSome_none, Bool.false_eq_true, false_or]
      split_ifs with hplain hbmp
      · exact scanString_plain hquote hslash hplain.1 rest
      · rw [List.cons_append, List.cons_append, scanString_hex4 hbmp]
        rfl
      · simp only [List.cons_append, List.append_assoc]
        rw [scanString_hex4 (by omega), scanString_hex4 (by omega)]
        cases scanString rest <;> rfl

theorem joinUnits_unitsOf (c : Char) (units : List (Char ⊕ ℕ)) :
    joinUnits (unitsOf c ++ units) = c :: joinUnits units := by
  have hc := toNat_lt c
  have hsurrogate := not_surrogate c
  rw [unitsOf]
  split_ifs with hplain hbmp
  · rfl
  · have hhigh : isHighSurrogate c.toNat = false := by
      simp only [isHighSurrogate, Bool.and_eq_false_iff, decide_eq_false_iff_not]
      omega
    have hlow : isLowSurrogate c.toNat = false := by
      simp only [isLowSurrogate, Bool.and_eq_false_iff, decide_eq_false_iff_not]
      omega
    cases units with
    | nil => simp [joinUnits, hhigh, hlow]
    | cons unit units => cases unit <;> simp [joinUnits, hhigh, hlow]
  · have hhigh : isHighSurrogate (0xD800 + (c.toNat - 0x10000) / 0x400) = true := by
      simp only [isHighSurrogate, Bool.and_eq_true, decide_eq_true_eq]
      omega
    have hlow : isLowSurrogate (0xDC00 + (c.toNat - 0x10000) % 0x400) = true := by
      simp only [isLowSurrogate, Bool.and_eq_true, decide_eq_true_eq]
      omega
    have hvalue : 0x10000 + (0xD800 + (c.toNat - 0x10000) / 0x400 - 0xD800) * 0x400 +
        (0xDC00 + (c.toNat - 0x10000) % 0x400 - 0xDC00) = c.toNat := by
      omega
    simp only [List.cons_append, List.nil_append, joinUnits, hhigh, hlow, Bool.and_self, if_true,
      hvalue, Char.ofNat_toNat]

theorem scanString_flatMap (s rest : List Char) :
    scanString (s.flatMap escapeAscii ++ '"' :: rest) = some (s.flatMap unitsOf, rest) := by
  induction s with
  | nil => simp [scanString]
  | cons c s ih =>
      rw [List.flatMap_cons, List.append_assoc, scanString_escapeAscii, ih]
      rfl

theorem joinUnits_flatMap (s : List Char) : joinUnits (s.flatMap unitsOf) = s := by
  induction s with
  | nil => rfl
  | cons c s ih => rw [List.flatMap_cons, joinUnits_unitsOf, ih]

theorem parseString_renderString (s : String) (rest : List Char) :
    parseString (s.toList.flatMap escapeAscii ++ '"' :: rest) = some (s, rest) := by
  simp only [parseString, scanString_flatMap, Option.map_some, joinUnits_flatMap,
    String.ofList_toList]

section Documents

variable {ν : Type u}

mutual

/-- A bound on the calls that read a document. -/
def cost : Json ν → ℕ
  | .arr items => costItems items + 1
  | .obj members => costMembers members + 1
  | _ => 1

def costItems : List (Json ν) → ℕ
  | [] => 0
  | x :: xs => cost x + costItems xs + 1

def costMembers : List (String × Json ν) → ℕ
  | [] => 0
  | (_, x) :: ms => cost x + costMembers ms + 1

end

theorem exists_fuel (x : Json ν) {fuel : ℕ} (h : cost x ≤ fuel) : ∃ k, fuel = k + 1 := by
  have hpos : 0 < cost x := by cases x <;> simp [cost]
  exact ⟨fuel - 1, by omega⟩

/-- Whether a reader can open the containers of a document at a depth. -/
def Fits (opts : Options) (depth : ℕ) (x : Json ν) : Prop :=
  ∀ limit, opts.maxDepth = some limit → depth + x.depth ≤ limit

variable {num : ν → List Char} {opts : Options}

theorem render_head (num : ν → List Char) {x : Json ν} (h : NumberFree x) :
    ∃ c tail, render num x = c :: tail ∧ isSpace c = false ∧ c ≠ ']' := by
  cases x with
  | null => exact ⟨'n', _, rfl, by decide, by decide⟩
  | bool b =>
      cases b
      · exact ⟨'f', _, rfl, by decide, by decide⟩
      · exact ⟨'t', _, rfl, by decide, by decide⟩
  | num n => simp [NumberFree, Json.numbers] at h
  | str s => exact ⟨'"', _, rfl, by decide, by decide⟩
  | arr items => exact ⟨'[', _, rfl, by decide, by decide⟩
  | obj members => exact ⟨'{', _, rfl, by decide, by decide⟩

theorem skipSpace_render {x : Json ν} (h : NumberFree x) (rest : List Char) :
    skipSpace (render num x ++ rest) = render num x ++ rest := by
  rcases render_head num h with ⟨c, tail, hrender, hspace, -⟩
  rw [hrender, List.cons_append, skipSpace, List.dropWhile_cons, hspace]
  rfl

theorem renderItems_head (num : ν → List Char) {x : Json ν} (h : NumberFree x)
    (xs : List (Json ν)) :
    ∃ c tail, renderItems num (x :: xs) = c :: tail ∧ isSpace c = false ∧ c ≠ ']' := by
  rcases render_head num h with ⟨c, tail, hrender, hspace, hclose⟩
  cases xs with
  | nil => exact ⟨c, tail, hrender, hspace, hclose⟩
  | cons y ys => exact ⟨c, _, by rw [renderItems, hrender, List.cons_append], hspace, hclose⟩

theorem renderMembers_head (num : ν → List Char) (m : String × Json ν)
    (ms : List (String × Json ν)) :
    ∃ tail, renderMembers num (m :: ms) = '"' :: tail := by
  cases ms with
  | nil => exact ⟨_, rfl⟩
  | cons m' ms => exact ⟨_, rfl⟩

theorem skipSpace_blank (s : List Char) : skipSpace (' ' :: s) = skipSpace s := rfl

theorem skipSpace_solid {c : Char} (h : isSpace c = false) (s : List Char) :
    skipSpace (c :: s) = c :: s := by
  simp [skipSpace, h]

theorem parseWord_null (opts : Options) (rest : List Char) :
    parseWord opts ("null".toList ++ rest) = some (.null, rest) := by
  simp [parseWord, afterWord]

theorem parseWord_true (opts : Options) (rest : List Char) :
    parseWord opts ("true".toList ++ rest) = some (.bool true, rest) := by
  simp [parseWord, afterWord]

theorem parseWord_false (opts : Options) (rest : List Char) :
    parseWord opts ("false".toList ++ rest) = some (.bool false, rest) := by
  simp [parseWord, afterWord]

/-- Reading a document of at most this cost and depth gives it back. -/
def ReadsBack (num : ν → List Char) (opts : Options) (f : ν → NumLit) (x : Json ν) : Prop :=
  NumberFree x → ∀ fuel depth rest, cost x ≤ fuel → Fits opts depth x →
    parseValue opts fuel depth (render num x ++ rest) = some (x.mapNum f, rest)

theorem parseItems_render {f : ν → NumLit} {items : List (Json ν)}
    (hreads : ∀ x ∈ items, ReadsBack num opts f x) (hfree : ∀ x ∈ items, NumberFree x)
    (hne : items ≠ []) (fuel : ℕ) {depth : ℕ} (rest : List Char) (hfuel : costItems items ≤ fuel)
    (hfits : ∀ x ∈ items, Fits opts depth x) :
    parseItems opts fuel depth (renderItems num items ++ ']' :: rest) =
      some (Json.mapNumItems f items, rest) := by
  induction items generalizing fuel with
  | nil => exact absurd rfl hne
  | cons x xs ih =>
      simp only [List.forall_mem_cons] at hreads hfree hfits
      rw [costItems] at hfuel
      obtain ⟨fuel, rfl⟩ : ∃ k, fuel = k + 1 := ⟨fuel - 1, by omega⟩
      cases xs with
      | nil =>
          rw [renderItems, parseItems, hreads.1 hfree.1 fuel depth _ (by omega) hfits.1]
          simp [skipSpace_solid (c := ']') (by decide), Json.mapNumItems]
      | cons y ys =>
          have hy : NumberFree y := hfree.2 y (by simp)
          have htail := ih hreads.2 hfree.2 (by simp) fuel (by omega) hfits.2
          have hskip : skipSpace (renderItems num (y :: ys) ++ ']' :: rest) =
              renderItems num (y :: ys) ++ ']' :: rest := by
            rcases renderItems_head num hy ys with ⟨c, tail, hrender, hspace, -⟩
            rw [hrender, List.cons_append, skipSpace_solid hspace]
          rw [renderItems, List.append_assoc, parseItems,
            hreads.1 hfree.1 fuel depth _ (by omega) hfits.1]
          simp only [List.cons_append, Option.bind_eq_bind, Option.bind_some,
            skipSpace_solid (c := ',') (by decide), skipSpace_blank, hskip, htail]
          rfl

theorem parseMembers_render {f : ν → NumLit} {members : List (String × Json ν)}
    (hreads : ∀ m ∈ members, ReadsBack num opts f m.2) (hfree : ∀ m ∈ members, NumberFree m.2)
    (hne : members ≠ []) (fuel : ℕ) {depth : ℕ} (rest : List Char)
    (hfuel : costMembers members ≤ fuel) (hfits : ∀ m ∈ members, Fits opts depth m.2) :
    parseMembers opts fuel depth (renderMembers num members ++ '}' :: rest) =
      some (Json.mapNumMembers f members, rest) := by
  induction members generalizing fuel with
  | nil => exact absurd rfl hne
  | cons m ms ih =>
      rcases m with ⟨k, x⟩
      simp only [List.forall_mem_cons] at hreads hfree hfits
      rw [costMembers] at hfuel
      obtain ⟨fuel, rfl⟩ : ∃ k, fuel = k + 1 := ⟨fuel - 1, by omega⟩
      cases ms with
      | nil =>
          rw [renderMembers, renderString]
          simp only [List.cons_append, List.append_assoc, List.nil_append, parseMembers,
            parseString_renderString, Option.bind_eq_bind, Option.bind_some,
            skipSpace_solid (c := ':') (by decide), skipSpace_blank, skipSpace_render hfree.1,
            hreads.1 hfree.1 fuel depth _ (by omega) hfits.1,
            skipSpace_solid (c := '}') (by decide)]
          rfl
      | cons m' ms =>
          rcases m' with ⟨l, y⟩
          have htail := ih hreads.2 hfree.2 (by simp) fuel (by omega) hfits.2
          have hskip : skipSpace (renderMembers num ((l, y) :: ms) ++ '}' :: rest) =
              renderMembers num ((l, y) :: ms) ++ '}' :: rest := by
            rcases renderMembers_head num (l, y) ms with ⟨tail, hrender⟩
            rw [hrender, List.cons_append, skipSpace_solid (by decide)]
          rw [renderMembers, renderString]
          simp only [List.cons_append, List.append_assoc, List.nil_append, parseMembers,
            parseString_renderString, Option.bind_eq_bind, Option.bind_some,
            skipSpace_solid (c := ':') (by decide), skipSpace_blank, skipSpace_render hfree.1,
            hreads.1 hfree.1 fuel depth _ (by omega) hfits.1,
            skipSpace_solid (c := ',') (by decide), hskip, htail]
          rfl

theorem Fits.items {depth : ℕ} {items : List (Json ν)} (h : Fits opts depth (.arr items)) :
    ∀ x ∈ items, Fits opts (depth + 1) x := by
  intro x hx limit hlimit
  have hdepth := Json.depthItems_le.mp le_rfl x hx
  have := h limit hlimit
  rw [Json.depth] at this
  omega

theorem Fits.members {depth : ℕ} {members : List (String × Json ν)}
    (h : Fits opts depth (.obj members)) : ∀ m ∈ members, Fits opts (depth + 1) m.2 := by
  intro m hm limit hlimit
  have hdepth := Json.depthMembers_le.mp le_rfl m hm
  have := h limit hlimit
  rw [Json.depth] at this
  omega

theorem depthOk_of_fits {depth : ℕ} {x : Json ν} (h : Fits opts depth x) (hdepth : 0 < x.depth) :
    depthOk opts depth = true := by
  rw [depthOk]
  split
  · rfl
  · rename_i limit hlimit
    have := h limit hlimit
    simp only [decide_eq_true_eq]
    omega

theorem readsBack (f : ν → NumLit) (x : Json ν) : ReadsBack num opts f x := by
  induction x using Json.induct with
  | null =>
      rintro - fuel depth rest hfuel -
      obtain ⟨fuel, rfl⟩ := exists_fuel _ hfuel
      have hword := parseWord_null opts rest
      simp_all [render, parseValue, Json.mapNum]
  | bool b =>
      rintro - fuel depth rest hfuel -
      obtain ⟨fuel, rfl⟩ := exists_fuel _ hfuel
      cases b with
      | true =>
          have hword := parseWord_true opts rest
          simp_all [render, parseValue, Json.mapNum]
      | false =>
          have hword := parseWord_false opts rest
          simp_all [render, parseValue, Json.mapNum]
  | num n =>
      intro hfree
      simp [NumberFree, Json.numbers] at hfree
  | str s =>
      rintro - fuel depth rest hfuel -
      obtain ⟨fuel, rfl⟩ := exists_fuel _ hfuel
      simp only [render, renderString, List.cons_append, List.append_assoc, List.nil_append,
        parseValue, parseString_renderString, Option.map_some, Json.mapNum]
  | arr items ih =>
      intro hfree fuel depth rest hfuel hfits
      rw [cost] at hfuel
      obtain ⟨fuel, rfl⟩ : ∃ k, fuel = k + 1 := ⟨fuel - 1, by omega⟩
      have hok := depthOk_of_fits hfits (by simp [Json.depth])
      have hitems := Json.numbersItems_eq_nil_iff.mp
        (by simpa [NumberFree, Json.numbers] using hfree)
      rw [render]
      cases items with
      | nil =>
          simp only [renderItems, List.nil_append, List.cons_append, parseValue, hok, if_true,
            skipSpace_solid (c := ']') (by decide)]
          rfl
      | cons x xs =>
          have hparse := parseItems_render ih hitems (by simp) fuel rest (by omega)
            hfits.items
          rcases renderItems_head num (hitems x (by simp)) xs with
            ⟨c, tail, hrender, hspace, hclose⟩
          rw [hrender, List.cons_append] at hparse
          simp only [hrender, List.cons_append, List.append_assoc, List.nil_append, parseValue, hok,
            if_true, skipSpace_solid hspace]
          split
          · rename_i heq
            simp only [List.cons.injEq] at heq
            exact absurd heq.1 hclose
          · rw [hparse]
            rfl
  | obj members ih =>
      intro hfree fuel depth rest hfuel hfits
      rw [cost] at hfuel
      obtain ⟨fuel, rfl⟩ : ∃ k, fuel = k + 1 := ⟨fuel - 1, by omega⟩
      have hok := depthOk_of_fits hfits (by simp [Json.depth])
      have hmembers :=
        Json.numbersMembers_eq_nil_iff.mp (by simpa [NumberFree, Json.numbers] using hfree)
      rw [render]
      cases members with
      | nil =>
          simp only [renderMembers, List.nil_append, List.cons_append, parseValue, hok, if_true,
            skipSpace_solid (c := '}') (by decide)]
          rfl
      | cons m ms =>
          have hparse := parseMembers_render ih hmembers (by simp) fuel rest (by omega)
            hfits.members
          rcases renderMembers_head num m ms with ⟨tail, hrender⟩
          rw [hrender, List.cons_append] at hparse
          simp only [hrender, List.cons_append, List.append_assoc, List.nil_append, parseValue, hok,
            if_true, skipSpace_solid (c := '"') (by decide)]
          show Option.map _ (parseMembers opts fuel (depth + 1) ('"' :: (tail ++ '}' :: rest))) = _
          rw [hparse]
          rfl

mutual

theorem cost_lt (num : ν → List Char) :
    ∀ x : Json ν, NumberFree x → cost x < 2 * (render num x).length
  | .null, _ => by simp [cost, render]
  | .bool true, _ => by simp [cost, render]
  | .bool false, _ => by simp [cost, render]
  | .num n, h => by simp [NumberFree, Json.numbers] at h
  | .str s, _ => by
      simp only [cost, render, renderString, List.length_cons, List.length_append]
      omega
  | .arr items, h => by
      have := costItems_le num items (Json.numbersItems_eq_nil_iff.mp (by
        simpa [NumberFree, Json.numbers] using h))
      simp only [cost, render, List.length_cons, List.length_append, List.length_nil]
      omega
  | .obj members, h => by
      have := costMembers_le num members (Json.numbersMembers_eq_nil_iff.mp (by
        simpa [NumberFree, Json.numbers] using h))
      simp only [cost, render, List.length_cons, List.length_append, List.length_nil]
      omega

theorem costItems_le (num : ν → List Char) : ∀ items : List (Json ν), (∀ x ∈ items, NumberFree x) →
    costItems items ≤ 2 * (renderItems num items).length
  | [], _ => by simp [costItems]
  | [x], h => by
      have := cost_lt num x (h x (by simp))
      simp only [costItems, renderItems]
      omega
  | x :: y :: ys, h => by
      have hx := cost_lt num x (h x (by simp))
      have hys := costItems_le num (y :: ys) fun z hz => h z (by simp [hz])
      rw [costItems, renderItems, List.length_append, List.length_cons, List.length_cons]
      omega

theorem costMembers_le (num : ν → List Char) :
    ∀ members : List (String × Json ν), (∀ m ∈ members, NumberFree m.2) →
      costMembers members ≤ 2 * (renderMembers num members).length
  | [], _ => by simp [costMembers]
  | [(k, x)], h => by
      have := cost_lt num x (h (k, x) (by simp))
      simp only [costMembers, renderMembers, List.length_append, List.length_cons]
      omega
  | (k, x) :: m :: ms, h => by
      have hx := cost_lt num x (h (k, x) (by simp))
      have hms := costMembers_le num (m :: ms) fun z hz => h z (by simp [hz])
      rw [costMembers, renderMembers]
      simp only [List.length_append, List.length_cons]
      omega

end

theorem parsePrefix_render {x : Json ν} (num : ν → List Char) (f : ν → NumLit)
    (hfree : NumberFree x) (hfits : Fits opts 0 x) (rest : List Char) :
    parsePrefix opts (render num x ++ rest) = some (x.mapNum f, rest) := by
  have hcost := cost_lt num x hfree
  rw [parsePrefix, skipSpace_render hfree]
  refine readsBack f x hfree _ 0 rest ?_ hfits
  rw [List.length_append]
  omega

end Documents

end Ulpf.Lib.JsonText
