import Mathlib.Data.List.Basic

/-!
ASCII texts through their bytes: the characters of such a text are its bytes, and nothing has to
be decoded.
-/

namespace Ulpf.Lib.Ascii

def bytes (s : String) : List UInt8 := s.toByteArray.data.toList

/-- All characters of a text are ASCII. -/
def isAscii (s : String) : Bool := (bytes s).all (· < 128)

/-- The characters of an ASCII text. -/
def chars (s : String) : List Char := (bytes s).map fun b => Char.ofNat b.toNat

theorem bytes_ofList (l : List Char) :
    bytes (String.ofList l) = l.flatMap String.utf8EncodeChar := by
  rw [bytes, String.toByteArray_ofList, List.utf8Encode, List.data_toByteArray]

theorem not_ofNat_lt {n : ℕ} (hn : 128 ≤ n ∧ n < 256) : ¬ UInt8.ofNat n < 128 := by
  rw [UInt8.lt_iff_toNat_lt, UInt8.toNat_ofNat']
  have hbound : (128 : UInt8).toNat = 128 := rfl
  rw [hbound]
  omega

theorem utf8EncodeChar_eq {c : Char} (h : ∀ b ∈ String.utf8EncodeChar c, b < 128) :
    String.utf8EncodeChar c = [UInt8.ofNat c.toNat] ∧ c.toNat < 128 := by
  rw [String.utf8EncodeChar] at h ⊢
  split at h
  · rename_i hlow
    rw [if_pos hlow]
    exact ⟨rfl, Nat.lt_succ_of_le hlow⟩
  · exfalso
    split at h
    · exact not_ofNat_lt (by omega) (h _ List.mem_cons_self)
    · split at h
      · exact not_ofNat_lt (by omega) (h _ List.mem_cons_self)
      · exact not_ofNat_lt (by omega) (h _ List.mem_cons_self)

theorem toList_eq {s : String} (h : isAscii s = true) : s.toList = chars s := by
  obtain ⟨l, rfl⟩ : ∃ l, s = String.ofList l := ⟨s.toList, String.ofList_toList.symm⟩
  rw [isAscii, List.all_eq_true, bytes_ofList] at h
  rw [String.toList_ofList, chars, bytes_ofList]
  induction l with
  | nil => rfl
  | cons c l ih =>
      rw [List.flatMap_cons] at h ⊢
      obtain ⟨hc, hl⟩ := List.forall_mem_append.mp h
      obtain ⟨hcode, hlow⟩ := utf8EncodeChar_eq fun b hb => of_decide_eq_true (hc b hb)
      have hnumber : (UInt8.ofNat c.toNat).toNat = c.toNat := by
        rw [UInt8.toNat_ofNat']
        omega
      rw [List.map_append, hcode, List.map_singleton, hnumber, Char.ofNat_toNat, ← ih hl]
      rfl

end Ulpf.Lib.Ascii
