import Verathos.Lib.Digits

/-!
# SHA-256

The hash function of FIPS 180-4 on byte strings, by structural recursion on numbers below `2 ^ 32`,
so that the kernel evaluates it on short inputs.
-/

namespace Sha256

/-- The round constants. -/
def constants : List ℕ := [
  0x428a2f98, 0x71374491, 0xb5c0fbcf, 0xe9b5dba5, 0x3956c25b, 0x59f111f1,
  0x923f82a4, 0xab1c5ed5, 0xd807aa98, 0x12835b01, 0x243185be, 0x550c7dc3,
  0x72be5d74, 0x80deb1fe, 0x9bdc06a7, 0xc19bf174, 0xe49b69c1, 0xefbe4786,
  0x0fc19dc6, 0x240ca1cc, 0x2de92c6f, 0x4a7484aa, 0x5cb0a9dc, 0x76f988da,
  0x983e5152, 0xa831c66d, 0xb00327c8, 0xbf597fc7, 0xc6e00bf3, 0xd5a79147,
  0x06ca6351, 0x14292967, 0x27b70a85, 0x2e1b2138, 0x4d2c6dfc, 0x53380d13,
  0x650a7354, 0x766a0abb, 0x81c2c92e, 0x92722c85, 0xa2bfe8a1, 0xa81a664b,
  0xc24b8b70, 0xc76c51a3, 0xd192e819, 0xd6990624, 0xf40e3585, 0x106aa070,
  0x19a4c116, 0x1e376c08, 0x2748774c, 0x34b0bcb5, 0x391c0cb3, 0x4ed8aa4a,
  0x5b9cca4f, 0x682e6ff3, 0x748f82ee, 0x78a5636f, 0x84c87814, 0x8cc70208,
  0x90befffa, 0xa4506ceb, 0xbef9a3f7, 0xc67178f2]

/-- A 32-bit word. -/
def word (n : ℕ) : ℕ := n % 4294967296

/-- Rotation of a word to the right. -/
def rotr (n x : ℕ) : ℕ := (x >>> n) ||| word (x <<< (32 - n))

/-- The eight working variables. -/
structure State where
  a : ℕ
  b : ℕ
  c : ℕ
  d : ℕ
  e : ℕ
  f : ℕ
  g : ℕ
  h : ℕ

/-- One round with its constant and its word of the schedule. -/
def round (s : State) (k w : ℕ) : State :=
  let sum₁ := rotr 6 s.e ^^^ rotr 11 s.e ^^^ rotr 25 s.e
  let choice := (s.e &&& s.f) ^^^ ((4294967295 ^^^ s.e) &&& s.g)
  let temp₁ := s.h + sum₁ + choice + k + w
  let sum₀ := rotr 2 s.a ^^^ rotr 13 s.a ^^^ rotr 22 s.a
  let majority := (s.a &&& s.b) ^^^ (s.a &&& s.c) ^^^ (s.b &&& s.c)
  { a := word (temp₁ + sum₀ + majority), b := s.a, c := s.b, d := s.c,
    e := word (s.d + temp₁), f := s.e, g := s.f, h := s.g }

/-- The word that follows sixteen words of the schedule. -/
def nextWord (window : List ℕ) : ℕ :=
  let sigma₀ (x : ℕ) := rotr 7 x ^^^ rotr 18 x ^^^ (x >>> 3)
  let sigma₁ (x : ℕ) := rotr 17 x ^^^ rotr 19 x ^^^ (x >>> 10)
  word (sigma₁ (window.getD 14 0) + window.getD 9 0 + sigma₀ (window.getD 1 0) + window.getD 0 0)

/-- The rounds of a block; `window` has the words of this round and the next fifteen. -/
def rounds : List ℕ → List ℕ → State → State
  | [], _, s => s
  | k :: ks, window, s => rounds ks (window.tail ++ [nextWord window]) (round s k (window.getD 0 0))

/-- The big-endian words of a byte string. -/
def words : List UInt8 → List ℕ
  | a :: b :: c :: d :: rest => BigEndian.toNat [a, b, c, d] :: words rest
  | _ => []

/-- The chaining value after a number of blocks. -/
def blocks : ℕ → List ℕ → State → State
  | 0, _, s => s
  | count + 1, ws, s =>
    let t := rounds constants (ws.take 16) s
    blocks count (ws.drop 16)
      { a := word (s.a + t.a), b := word (s.b + t.b), c := word (s.c + t.c), d := word (s.d + t.d),
        e := word (s.e + t.e), f := word (s.f + t.f), g := word (s.g + t.g), h := word (s.h + t.h) }

/-- The initial chaining value. -/
def initial : State where
  a := 0x6a09e667
  b := 0xbb67ae85
  c := 0x3c6ef372
  d := 0xa54ff53a
  e := 0x510e527f
  f := 0x9b05688c
  g := 0x1f83d9ab
  h := 0x5be0cd19

/-- The message with its padding, a multiple of 64 bytes. -/
def pad (message : List UInt8) : List UInt8 :=
  message ++ 128 :: (List.replicate ((119 - message.length % 64) % 64) 0 ++
    BigEndian.toBytes 8 (8 * message.length))

/-- The digest of a message. -/
def hash (message : List UInt8) : List UInt8 :=
  let padded := pad message
  let s := blocks (padded.length / 64) (words padded) initial
  [s.a, s.b, s.c, s.d, s.e, s.f, s.g, s.h].flatMap (BigEndian.toBytes 4)

@[simp]
theorem length_hash (message : List UInt8) : (hash message).length = 32 := by
  simp [hash]

/-- The digest of `abc`. -/
example : BigEndian.toNat (hash [97, 98, 99]) =
    0xba7816bf8f01cfea414140de5dae2223b00361a396177a9cb410ff61f20015ad := by
  decide +kernel

end Sha256
