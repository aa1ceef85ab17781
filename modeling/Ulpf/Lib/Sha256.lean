import Mathlib.Algebra.Order.Ring.Nat

/-!
The hash function SHA-256 over lists of bytes.
-/

namespace Ulpf.Lib.Sha256

/-- A word of the algorithm. -/
abbrev Word := BitVec 32

/-- The words that each block changes. -/
structure State where
  a : Word
  b : Word
  c : Word
  d : Word
  e : Word
  f : Word
  g : Word
  h : Word

/-- The state before the first block. -/
def initial : State :=
  ⟨0x6a09e667, 0xbb67ae85, 0x3c6ef372, 0xa54ff53a, 0x510e527f, 0x9b05688c, 0x1f83d9ab, 0x5be0cd19⟩

def roundConstants : List Word :=
  [0x428a2f98, 0x71374491, 0xb5c0fbcf, 0xe9b5dba5, 0x3956c25b, 0x59f111f1, 0x923f82a4, 0xab1c5ed5,
    0xd807aa98, 0x12835b01, 0x243185be, 0x550c7dc3, 0x72be5d74, 0x80deb1fe, 0x9bdc06a7, 0xc19bf174,
    0xe49b69c1, 0xefbe4786, 0x0fc19dc6, 0x240ca1cc, 0x2de92c6f, 0x4a7484aa, 0x5cb0a9dc, 0x76f988da,
    0x983e5152, 0xa831c66d, 0xb00327c8, 0xbf597fc7, 0xc6e00bf3, 0xd5a79147, 0x06ca6351, 0x14292967,
    0x27b70a85, 0x2e1b2138, 0x4d2c6dfc, 0x53380d13, 0x650a7354, 0x766a0abb, 0x81c2c92e, 0x92722c85,
    0xa2bfe8a1, 0xa81a664b, 0xc24b8b70, 0xc76c51a3, 0xd192e819, 0xd6990624, 0xf40e3585, 0x106aa070,
    0x19a4c116, 0x1e376c08, 0x2748774c, 0x34b0bcb5, 0x391c0cb3, 0x4ed8aa4a, 0x5b9cca4f, 0x682e6ff3,
    0x748f82ee, 0x78a5636f, 0x84c87814, 0x8cc70208, 0x90befffa, 0xa4506ceb, 0xbef9a3f7, 0xc67178f2]

section Compression

/-- The function `Ch` of the standard. -/
def choose (x y z : Word) : Word := (x &&& y) ^^^ (~~~x &&& z)

/-- The function `Maj` of the standard. -/
def majority (x y z : Word) : Word := (x &&& y) ^^^ (x &&& z) ^^^ (y &&& z)

def bigSigma0 (x : Word) : Word := x.rotateRight 2 ^^^ x.rotateRight 13 ^^^ x.rotateRight 22

def bigSigma1 (x : Word) : Word := x.rotateRight 6 ^^^ x.rotateRight 11 ^^^ x.rotateRight 25

def smallSigma0 (x : Word) : Word := x.rotateRight 7 ^^^ x.rotateRight 18 ^^^ (x >>> 3)

def smallSigma1 (x : Word) : Word := x.rotateRight 17 ^^^ x.rotateRight 19 ^^^ (x >>> 10)

/-- The words of a block and those that are made from them. -/
def schedule : ℕ → List Word → List Word
  | 0, _ => []
  | n + 1, window =>
      let next := window.getD 0 0 + smallSigma0 (window.getD 1 0) + window.getD 9 0 +
        smallSigma1 (window.getD 14 0)
      window.getD 0 0 :: schedule n (window.drop 1 ++ [next])

/-- One round of the compression. -/
def round (s : State) (word : Word × Word) : State :=
  let t1 := s.h + bigSigma1 s.e + choose s.e s.f s.g + word.1 + word.2
  let t2 := bigSigma0 s.a + majority s.a s.b s.c
  ⟨t1 + t2, s.a, s.b, s.c, s.d + t1, s.e, s.f, s.g⟩

/-- Bytes as words, the highest byte first. -/
def words : List UInt8 → List Word
  | w :: x :: y :: z :: rest =>
      (w.toBitVec ++ x.toBitVec ++ y.toBitVec ++ z.toBitVec) :: words rest
  | _ => []

/-- The state after a block of 64 bytes. -/
def compress (s : State) (block : List UInt8) : State :=
  let r := (roundConstants.zip (schedule 64 (words block))).foldl round s
  ⟨s.a + r.a, s.b + r.b, s.c + r.c, s.d + r.d, s.e + r.e, s.f + r.f, s.g + r.g, s.h + r.h⟩

end Compression

section Digest

/-- The lowest bytes of a number, the highest one first. -/
def bigEndian : ℕ → ℕ → List UInt8
  | 0, _ => []
  | n + 1, x => UInt8.ofNat (x / 256 ^ n) :: bigEndian n x

/-- The message, a bit, zeros up to a whole block, and its length in bits. -/
def pad (message : List UInt8) : List UInt8 :=
  message ++ 0x80 :: List.replicate ((119 - message.length % 64) % 64) 0 ++
    bigEndian 8 (8 * message.length)

/-- A number of blocks one after the other. -/
def compressBlocks : ℕ → State → List UInt8 → State
  | 0, s, _ => s
  | n + 1, s, bytes => compressBlocks n (compress s (bytes.take 64)) (bytes.drop 64)

def State.bytes (s : State) : List UInt8 :=
  [s.a, s.b, s.c, s.d, s.e, s.f, s.g, s.h].flatMap fun w => bigEndian 4 w.toNat

/-- `sha256.Sum256` -/
def sum256 (message : List UInt8) : List UInt8 :=
  let padded := pad message
  (compressBlocks (padded.length / 64) initial padded).bytes

theorem length_sum256 (message : List UInt8) : (sum256 message).length = 32 := rfl

def hex (bytes : List UInt8) : List Char :=
  bytes.flatMap fun b => [Nat.digitChar (b.toNat / 16), Nat.digitChar (b.toNat % 16)]

theorem length_hex (bytes : List UInt8) : (hex bytes).length = 2 * bytes.length := by
  induction bytes with
  | nil => rfl
  | cons b bytes ih =>
      show (hex bytes).length + 2 = 2 * (bytes.length + 1)
      rw [ih]
      omega

theorem exists_digit_of_mem_hex {bytes : List UInt8} {c : Char} (h : c ∈ hex bytes) :
    ∃ n < 16, c = Nat.digitChar n := by
  obtain ⟨b, -, hc⟩ := List.mem_flatMap.mp h
  have hb := b.toNat_lt
  simp only [List.mem_cons, List.not_mem_nil, or_false] at hc
  obtain rfl | rfl := hc
  · exact ⟨b.toNat / 16, by omega, rfl⟩
  · exact ⟨b.toNat % 16, by omega, rfl⟩

end Digest

example : String.ofList (hex (sum256 [])) =
    "e3b0c44298fc1c149afbf4c8996fb92427ae41e4649b934ca495991b7852b855" := by
  decide +kernel

end Ulpf.Lib.Sha256
