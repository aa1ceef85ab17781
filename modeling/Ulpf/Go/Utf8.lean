import Ulpf.Go.Text

/-!
Go strings as bytes. A string that is read as runes and written again comes back
exactly when it is valid UTF-8.
-/

namespace Ulpf.Go

open Ulpf.Lib

/-- The bytes of a string, which need not be valid UTF-8. -/
abbrev GoString := List UInt8

/-- The string of a text. -/
def utf8 (s : String) : GoString := s.toList.flatMap String.utf8EncodeChar

/-- The bytes of a character as numbers. -/
def encodeChar (c : Char) : List ℕ := (String.utf8EncodeChar c).map UInt8.toNat

theorem toNat_ofNat_of_lt {n : ℕ} (h : n < 256) : (UInt8.ofNat n).toNat = n := by
  rw [UInt8.toNat_ofNat']
  omega

theorem map_toNat_inj {s t : List UInt8} (h : s.map UInt8.toNat = t.map UInt8.toNat) : s = t :=
  List.map_injective_iff.mpr (fun _ _ heq => UInt8.toNat_inj.mp heq) h

theorem map_utf8 (s : String) : (utf8 s).map UInt8.toNat = s.toList.flatMap encodeChar := by
  rw [utf8, List.map_flatMap]
  rfl

theorem encodeChar_ascii {c : Char} (h : c.toNat < 0x80) : encodeChar c = [c.toNat] := by
  unfold encodeChar String.utf8EncodeChar
  dsimp only
  rw [if_pos (show c.val.toNat ≤ 0x7f from Nat.lt_succ_iff.mp h), List.map_singleton]
  exact congrArg (fun n => [n]) (toNat_ofNat_of_lt (h.trans (by decide)))

theorem continuation_of_le {lo hi b : ℕ} {rest : List ℕ} (hlo : lo ≤ b) (hhi : b ≤ hi) :
    continuation lo hi (b :: rest) = some (b % 64, rest) := by
  rw [continuation, if_pos ⟨hlo, hhi⟩]

theorem continuation_eq_some_iff {lo hi : ℕ} {s rest : List ℕ} {n : ℕ} :
    continuation lo hi s = some (n, rest) ↔ ∃ b, s = b :: rest ∧ lo ≤ b ∧ b ≤ hi ∧ b % 64 = n := by
  unfold continuation
  split
  · simp
  · split
    · rename_i hrange
      constructor
      · rintro ⟨⟩
        exact ⟨_, rfl, hrange.1, hrange.2, rfl⟩
      · rintro ⟨b, ⟨⟩, -, -, rfl⟩
        rfl
    · rename_i hrange
      constructor
      · intro h
        cases h
      · rintro ⟨b, ⟨⟩, hlo, hhi, -⟩
        exact absurd ⟨hlo, hhi⟩ hrange

theorem decodeMulti_encodeChar {c : Char} (h : 0x80 ≤ c.toNat) (rest : List ℕ) :
    ∃ a tail, encodeChar c = a :: tail ∧ 0x80 ≤ a ∧
      decodeMulti a (tail ++ rest) = some (c, tail.length + 1) := by
  have hback : Char.ofNat c.val.toNat = c := Char.ofNat_toNat c
  have hrange : c.val.toNat < 0xD800 ∨ 0xE000 ≤ c.val.toNat ∧ c.val.toNat < 0x110000 := by
    rcases c.valid with h | h
    · exact .inl h
    · exact .inr ⟨by omega, h.2⟩
  have hbeyond : 0x80 ≤ c.val.toNat := h
  unfold encodeChar String.utf8EncodeChar
  dsimp only
  generalize c.val.toNat = v at hrange hback hbeyond
  rw [if_neg (by omega)]
  split
  · rw [List.map_cons, List.map_singleton, toNat_ofNat_of_lt (by omega),
      toNat_ofNat_of_lt (by omega)]
    refine ⟨_, _, rfl, by omega, ?_⟩
    rw [decodeMulti, if_pos (by omega), List.singleton_append,
      continuation_of_le (by omega) (by omega)]
    have hvalue : (v / 64 % 0x20 + 0xc0) % 32 * 64 + (v % 0x40 + 0x80) % 64 = v := by omega
    simp only [Option.bind_eq_bind, Option.bind_some, hvalue, hback, Option.pure_def]
    rfl
  · split
    · rw [List.map_cons, List.map_cons, List.map_singleton, toNat_ofNat_of_lt (by omega),
        toNat_ofNat_of_lt (by omega), toNat_ofNat_of_lt (by omega)]
      have hlow : (if v / 4096 % 0x10 + 0xe0 = 0xE0 then 0xA0 else 0x80) ≤
          v / 64 % 0x40 + 0x80 := by
        split <;> omega
      have hhigh : v / 64 % 0x40 + 0x80 ≤
          (if v / 4096 % 0x10 + 0xe0 = 0xED then 0x9F else 0xBF) := by
        split <;> omega
      refine ⟨_, _, rfl, by omega, ?_⟩
      rw [decodeMulti, if_neg (by omega), if_pos (by omega), List.cons_append,
        List.singleton_append, continuation_of_le hlow hhigh]
      simp only [Option.bind_eq_bind, Option.bind_some]
      rw [continuation_of_le (by omega) (by omega)]
      have hvalue : ((v / 4096 % 0x10 + 0xe0) % 16 * 64 + (v / 64 % 0x40 + 0x80) % 64) * 64 +
          (v % 0x40 + 0x80) % 64 = v := by omega
      simp only [Option.bind_some, hvalue, hback, Option.pure_def]
      rfl
    · rw [List.map_cons, List.map_cons, List.map_cons, List.map_singleton,
        toNat_ofNat_of_lt (by omega), toNat_ofNat_of_lt (by omega),
        toNat_ofNat_of_lt (by omega), toNat_ofNat_of_lt (by omega)]
      have hlow : (if v / 262144 % 0x08 + 0xf0 = 0xF0 then 0x90 else 0x80) ≤
          v / 4096 % 0x40 + 0x80 := by
        split <;> omega
      have hhigh : v / 4096 % 0x40 + 0x80 ≤
          (if v / 262144 % 0x08 + 0xf0 = 0xF4 then 0x8F else 0xBF) := by
        split <;> omega
      refine ⟨_, _, rfl, by omega, ?_⟩
      rw [decodeMulti, if_neg (by omega), if_neg (by omega), if_pos (by omega), List.cons_append,
        List.cons_append, List.singleton_append, continuation_of_le hlow hhigh]
      simp only [Option.bind_eq_bind, Option.bind_some]
      rw [continuation_of_le (by omega) (by omega)]
      simp only [Option.bind_some]
      rw [continuation_of_le (by omega) (by omega)]
      have hvalue : (((v / 262144 % 0x08 + 0xf0) % 8 * 64 + (v / 4096 % 0x40 + 0x80) % 64) * 64 +
          (v / 64 % 0x40 + 0x80) % 64) * 64 + (v % 0x40 + 0x80) % 64 = v := by omega
      simp only [Option.bind_some, hvalue, hback, Option.pure_def]
      rfl

theorem val_ofNat {n : ℕ} (h : n.isValidChar) : (Char.ofNat n).val.toNat = n := by
  rw [Char.ofNat, dif_pos h]
  rfl

theorem encodeChar_of_decodeMulti {a : ℕ} {s : List ℕ} {c : Char} {width : ℕ}
    (h : decodeMulti a s = some (c, width)) :
    ∃ tail rest, s = tail ++ rest ∧ width = tail.length + 1 ∧ encodeChar c = a :: tail := by
  unfold decodeMulti at h
  split at h
  · rename_i hlead
    obtain ⟨⟨b, rest⟩, hb, h⟩ := Option.bind_eq_some_iff.mp h
    obtain ⟨x, rfl, hlow, hhigh, rfl⟩ := continuation_eq_some_iff.mp hb
    cases h
    refine ⟨[x], rest, rfl, rfl, ?_⟩
    have hvalid : (a % 32 * 64 + x % 64).isValidChar := .inl (by omega)
    unfold encodeChar String.utf8EncodeChar
    dsimp only
    rw [val_ofNat hvalid, if_neg (by omega), if_pos (by omega), List.map_cons, List.map_singleton,
      toNat_ofNat_of_lt (by omega), toNat_ofNat_of_lt (by omega)]
    congr 1
    · omega
    · congr 1
      omega
  · split at h
    · rename_i htwo hlead
      obtain ⟨⟨b, rest⟩, hb, h⟩ := Option.bind_eq_some_iff.mp h
      obtain ⟨x, rfl, hlow, hhigh, rfl⟩ := continuation_eq_some_iff.mp hb
      obtain ⟨⟨d, rest⟩, hd, h⟩ := Option.bind_eq_some_iff.mp h
      obtain ⟨y, rfl, hlow', hhigh', rfl⟩ := continuation_eq_some_iff.mp hd
      cases h
      refine ⟨[x, y], rest, rfl, rfl, ?_⟩
      have hwide : 0xE0 < a ∨ 0xA0 ≤ x := by
        split at hlow <;> omega
      have hgap : a ≠ 0xED ∨ x ≤ 0x9F := by
        split at hhigh <;> omega
      have hrange : 0x80 ≤ x ∧ x ≤ 0xBF := by
        constructor
        · split at hlow <;> omega
        · split at hhigh <;> omega
      have hvalid : ((a % 16 * 64 + x % 64) * 64 + y % 64).isValidChar := by
        rcases Nat.lt_or_ge a 0xEE with hlt | hge
        · exact .inl (by omega)
        · exact .inr ⟨by omega, by omega⟩
      unfold encodeChar String.utf8EncodeChar
      dsimp only
      rw [val_ofNat hvalid, if_neg (by omega), if_neg (by omega), if_pos (by omega), List.map_cons,
        List.map_cons, List.map_singleton, toNat_ofNat_of_lt (by omega),
        toNat_ofNat_of_lt (by omega), toNat_ofNat_of_lt (by omega)]
      congr 1
      · omega
      · congr 1
        · omega
        · congr 1
          omega
    · split at h
      · rename_i htwo hthree hlead
        obtain ⟨⟨b, rest⟩, hb, h⟩ := Option.bind_eq_some_iff.mp h
        obtain ⟨x, rfl, hlow, hhigh, rfl⟩ := continuation_eq_some_iff.mp hb
        obtain ⟨⟨d, rest⟩, hd, h⟩ := Option.bind_eq_some_iff.mp h
        obtain ⟨y, rfl, hlow', hhigh', rfl⟩ := continuation_eq_some_iff.mp hd
        obtain ⟨⟨e, rest⟩, he, h⟩ := Option.bind_eq_some_iff.mp h
        obtain ⟨z, rfl, hlow'', hhigh'', rfl⟩ := continuation_eq_some_iff.mp he
        cases h
        refine ⟨[x, y, z], rest, rfl, rfl, ?_⟩
        have hwide : 0xF0 < a ∨ 0x90 ≤ x := by
          split at hlow <;> omega
        have hgap : a < 0xF4 ∨ x ≤ 0x8F := by
          split at hhigh <;> omega
        have hrange : 0x80 ≤ x ∧ x ≤ 0xBF := by
          constructor
          · split at hlow <;> omega
          · split at hhigh <;> omega
        have hvalid : (((a % 8 * 64 + x % 64) * 64 + y % 64) * 64 + z % 64).isValidChar :=
          .inr ⟨by omega, by omega⟩
        unfold encodeChar String.utf8EncodeChar
        dsimp only
        rw [val_ofNat hvalid, if_neg (by omega), if_neg (by omega), if_neg (by omega),
          List.map_cons, List.map_cons, List.map_cons, List.map_singleton,
          toNat_ofNat_of_lt (by omega), toNat_ofNat_of_lt (by omega),
          toNat_ofNat_of_lt (by omega), toNat_ofNat_of_lt (by omega)]
        congr 1
        · omega
        · congr 1
          · omega
          · congr 1
            · omega
            · congr 1
              omega
      · cases h

theorem decodeFrom_skip (tail rest : List ℕ) :
    decodeFrom tail.length (tail ++ rest) = decodeFrom 0 rest := by
  induction tail with
  | nil => rfl
  | cons b tail ih => exact ih

theorem validFrom_skip (tail rest : List ℕ) :
    validFrom tail.length (tail ++ rest) = validFrom 0 rest := by
  induction tail with
  | nil => rfl
  | cons b tail ih => exact ih

theorem from_encodeChar (c : Char) (rest : List ℕ) :
    decodeFrom 0 (encodeChar c ++ rest) = c :: decodeFrom 0 rest ∧
      validFrom 0 (encodeChar c ++ rest) = validFrom 0 rest := by
  rcases Nat.lt_or_ge c.toNat 0x80 with hascii | hbeyond
  · rw [encodeChar_ascii hascii, List.singleton_append, decodeFrom, validFrom, if_pos hascii,
      if_pos hascii, Char.ofNat_toNat]
    exact ⟨rfl, rfl⟩
  · obtain ⟨a, tail, hencode, ha, hmulti⟩ := decodeMulti_encodeChar hbeyond rest
    rw [hencode, List.cons_append, decodeFrom, validFrom, if_neg (by omega), if_neg (by omega),
      hmulti]
    exact ⟨congrArg _ (decodeFrom_skip tail rest), validFrom_skip tail rest⟩

theorem from_flatMap (s : List Char) :
    decodeFrom 0 (s.flatMap encodeChar) = s ∧ validFrom 0 (s.flatMap encodeChar) = true := by
  induction s with
  | nil => exact ⟨rfl, rfl⟩
  | cons c s ih =>
      obtain ⟨hdecode, hvalid⟩ := from_encodeChar c (s.flatMap encodeChar)
      rw [List.flatMap_cons, hdecode, hvalid, ih.1]
      exact ⟨rfl, ih.2⟩

theorem ofBytes_utf8 (s : String) : ofBytes (utf8 s) = s := by
  rw [ofBytes, map_utf8, (from_flatMap s.toList).1, String.ofList_toList]

theorem utf8Valid_utf8 (s : String) : utf8Valid (utf8 s) = true := by
  rw [utf8Valid, map_utf8, (from_flatMap s.toList).2]

theorem flatMap_decodeFrom {s : List ℕ} (h : validFrom 0 s = true) :
    (decodeFrom 0 s).flatMap encodeChar = s := by
  induction hn : s.length using Nat.strong_induction_on generalizing s with
  | _ n ih =>
      cases s with
      | nil => rfl
      | cons a s =>
          rw [validFrom] at h
          rw [decodeFrom]
          split at h
          · rename_i hascii
            have hvalid : a.isValidChar := .inl (by omega)
            have hnat : (Char.ofNat a).toNat = a := val_ofNat hvalid
            rw [if_pos hascii, List.flatMap_cons, encodeChar_ascii (by rw [hnat]; exact hascii),
              hnat, ih s.length (by rw [← hn]; exact Nat.lt_succ_self _) h rfl]
            rfl
          · rename_i hbeyond
            rw [if_neg hbeyond]
            cases hmulti : decodeMulti a s with
            | none =>
                rw [hmulti] at h
                cases h
            | some read =>
                obtain ⟨c, width⟩ := read
                rw [hmulti] at h
                obtain ⟨tail, rest, rfl, rfl, hencode⟩ := encodeChar_of_decodeMulti hmulti
                have hrest : validFrom 0 rest = true := by
                  rw [← validFrom_skip tail rest]
                  exact h
                have hlength : rest.length < n := by
                  rw [← hn, List.length_cons, List.length_append]
                  omega
                show (c :: decodeFrom tail.length (tail ++ rest)).flatMap encodeChar = _
                rw [decodeFrom_skip, List.flatMap_cons, hencode, ih _ hlength hrest rfl]
                rfl

theorem utf8_ofBytes_iff {s : GoString} : utf8 (ofBytes s) = s ↔ utf8Valid s = true := by
  constructor
  · intro h
    rw [← h]
    exact utf8Valid_utf8 _
  · intro h
    apply map_toNat_inj
    rw [map_utf8, ofBytes, String.toList_ofList, flatMap_decodeFrom h]

theorem head?_utf8EncodeChar (c : Char) :
    (String.utf8EncodeChar c).head? = some (UInt8.ofNat (leadByte c)) := by
  have hvalid : c.val.toNat < 0x110000 := by
    rcases c.valid with h | h
    · exact h.trans (by decide)
    · exact h.2
  unfold String.utf8EncodeChar leadByte
  rw [show c.toNat = c.val.toNat from rfl]
  dsimp only
  generalize c.val.toNat = v at hvalid
  rcases Nat.lt_or_ge v 0x80 with hone | hone
  · rw [if_pos (Nat.le_of_lt_succ hone), if_pos hone, List.head?_cons]
  rw [if_neg (Nat.not_le.mpr hone), if_neg (Nat.not_lt.mpr hone)]
  rcases Nat.lt_or_ge v 0x800 with htwo | htwo
  · rw [if_pos (Nat.le_of_lt_succ htwo), if_pos htwo, List.head?_cons, Nat.mod_eq_of_lt (by omega),
      Nat.add_comm]
  rw [if_neg (Nat.not_le.mpr htwo), if_neg (Nat.not_lt.mpr htwo)]
  rcases Nat.lt_or_ge v 0x10000 with hthree | hthree
  · rw [if_pos (Nat.le_of_lt_succ hthree), if_pos hthree, List.head?_cons,
      Nat.mod_eq_of_lt (by omega), Nat.add_comm]
  · rw [if_neg (Nat.not_le.mpr hthree), if_neg (Nat.not_lt.mpr hthree), List.head?_cons,
      Nat.mod_eq_of_lt (by omega), Nat.add_comm]

theorem utf8_eq_nil_iff {s : String} : utf8 s = [] ↔ s = "" := by
  constructor
  · intro h
    rw [← ofBytes_utf8 s, h]
    rfl
  · rintro rfl
    rfl

theorem ofBytes_eq_empty_iff {s : GoString} : ofBytes s = "" ↔ s = [] := by
  constructor
  · intro h
    have hdecode : decodeFrom 0 (s.map UInt8.toNat) = [] := by
      rw [← String.toList_ofList (l := decodeFrom 0 (s.map UInt8.toNat))]
      exact congrArg String.toList h
    cases s with
    | nil => rfl
    | cons b s =>
        rw [List.map_cons, decodeFrom] at hdecode
        split at hdecode
        · cases hdecode
        · split at hdecode <;> cases hdecode
  · rintro rfl
    rfl

end Ulpf.Go
