import Mathlib.Data.List.Basic

/-!
# SHA-256

The hash function of FIPS 180-4 on lists of bytes: the message is padded to blocks of 64 bytes, a block
is expanded to 64 words, and each word turns the state once.
-/

namespace Sha256

/-- The first 32 bits of the fractional parts of the cube roots of the first 64 primes. -/
def roundConstants : List UInt32 := [
  0x428a2f98, 0x71374491, 0xb5c0fbcf, 0xe9b5dba5, 0x3956c25b, 0x59f111f1, 0x923f82a4, 0xab1c5ed5,
  0xd807aa98, 0x12835b01, 0x243185be, 0x550c7dc3, 0x72be5d74, 0x80deb1fe, 0x9bdc06a7, 0xc19bf174,
  0xe49b69c1, 0xefbe4786, 0x0fc19dc6, 0x240ca1cc, 0x2de92c6f, 0x4a7484aa, 0x5cb0a9dc, 0x76f988da,
  0x983e5152, 0xa831c66d, 0xb00327c8, 0xbf597fc7, 0xc6e00bf3, 0xd5a79147, 0x06ca6351, 0x14292967,
  0x27b70a85, 0x2e1b2138, 0x4d2c6dfc, 0x53380d13, 0x650a7354, 0x766a0abb, 0x81c2c92e, 0x92722c85,
  0xa2bfe8a1, 0xa81a664b, 0xc24b8b70, 0xc76c51a3, 0xd192e819, 0xd6990624, 0xf40e3585, 0x106aa070,
  0x19a4c116, 0x1e376c08, 0x2748774c, 0x34b0bcb5, 0x391c0cb3, 0x4ed8aa4a, 0x5b9cca4f, 0x682e6ff3,
  0x748f82ee, 0x78a5636f, 0x84c87814, 0x8cc70208, 0x90befffa, 0xa4506ceb, 0xbef9a3f7, 0xc67178f2]

structure State where
  a : UInt32
  b : UInt32
  c : UInt32
  d : UInt32
  e : UInt32
  f : UInt32
  g : UInt32
  h : UInt32

/-- The same of the square roots of the first 8 primes. -/
def initial : State :=
  ⟨0x6a09e667, 0xbb67ae85, 0x3c6ef372, 0xa54ff53a, 0x510e527f, 0x9b05688c, 0x1f83d9ab, 0x5be0cd19⟩

def rotateRight (word count : UInt32) : UInt32 := word >>> count ||| word <<< (32 - count)

/-- The words so far, newest first, and `count` more. -/
def expand : Nat → List UInt32 → List UInt32
  | 0, words => words
  | count + 1, words =>
    let low := words.getD 14 0
    let high := words.getD 1 0
    let s0 := rotateRight low 7 ^^^ rotateRight low 18 ^^^ low >>> 3
    let s1 := rotateRight high 17 ^^^ rotateRight high 19 ^^^ high >>> 10
    expand count ((words.getD 15 0 + s0 + words.getD 6 0 + s1) :: words)

def turn (s : State) (input : UInt32 × UInt32) : State :=
  let s1 := rotateRight s.e 6 ^^^ rotateRight s.e 11 ^^^ rotateRight s.e 25
  let choice := s.e &&& s.f ^^^ ~~~s.e &&& s.g
  let t1 := s.h + s1 + choice + input.1 + input.2
  let s0 := rotateRight s.a 2 ^^^ rotateRight s.a 13 ^^^ rotateRight s.a 22
  let majority := s.a &&& s.b ^^^ s.a &&& s.c ^^^ s.b &&& s.c
  ⟨t1 + (s0 + majority), s.a, s.b, s.c, s.d + t1, s.e, s.f, s.g⟩

def compress (s : State) (block : List UInt32) : State :=
  let t := (roundConstants.zip (expand 48 block.reverse).reverse).foldl turn s
  ⟨s.a + t.a, s.b + t.b, s.c + t.c, s.d + t.d, s.e + t.e, s.f + t.f, s.g + t.g, s.h + t.h⟩

def wordOfBytes (b0 b1 b2 b3 : UInt8) : UInt32 :=
  b0.toUInt32 <<< 24 ||| b1.toUInt32 <<< 16 ||| b2.toUInt32 <<< 8 ||| b3.toUInt32

def bytesOfWord (word : UInt32) : List UInt8 :=
  [(word >>> 24).toUInt8, (word >>> 16).toUInt8, (word >>> 8).toUInt8, word.toUInt8]

def words : List UInt8 → List UInt32
  | b0 :: b1 :: b2 :: b3 :: rest => wordOfBytes b0 b1 b2 b3 :: words rest
  | _ => []

/-- A one bit, zeros, and the length in bits fill the last block. -/
def pad (message : List UInt8) : List UInt8 :=
  let bits := UInt64.ofNat (8 * message.length)
  let zeros : List UInt8 := List.replicate ((119 - message.length % 64) % 64) 0
  message ++ (0x80 :: zeros) ++ bytesOfWord (bits >>> 32).toUInt32 ++ bytesOfWord bits.toUInt32

def absorb : Nat → State → List UInt32 → State
  | 0, s, _ => s
  | count + 1, s, input => absorb count (compress s (input.take 16)) (input.drop 16)

def digest (message : List UInt8) : List UInt8 :=
  let input := words (pad message)
  let s := absorb (input.length / 16) initial input
  bytesOfWord s.a ++ bytesOfWord s.b ++ bytesOfWord s.c ++ bytesOfWord s.d ++
    bytesOfWord s.e ++ bytesOfWord s.f ++ bytesOfWord s.g ++ bytesOfWord s.h

theorem digest_length (message : List UInt8) : (digest message).length = 32 := rfl

end Sha256
