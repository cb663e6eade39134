import LoanLedger.Text.Bytes

/-!
# SHA-256

* `Sha256.padded bs` : the message, a one bit, zeros and the length in bits, in whole blocks;
* `Sha256.compress h block` : the chaining value after one block of sixteen words;
* `Sha256.digest bs` : the 32 bytes of the digest;
* `digestOf s` : the digest of the UTF-8 bytes of `s`, 64 hexadecimal digits.

The message schedule is a window of sixteen words that moves along with the rounds.
-/

namespace LoanLedger.Sha256

/-- The first 32 bits of the fractional parts of the cube roots of the first 64 primes. -/
def roundConstants : List UInt32 := [
  0x428a2f98, 0x71374491, 0xb5c0fbcf, 0xe9b5dba5, 0x3956c25b, 0x59f111f1, 0x923f82a4,
  0xab1c5ed5, 0xd807aa98, 0x12835b01, 0x243185be, 0x550c7dc3, 0x72be5d74, 0x80deb1fe,
  0x9bdc06a7, 0xc19bf174, 0xe49b69c1, 0xefbe4786, 0x0fc19dc6, 0x240ca1cc, 0x2de92c6f,
  0x4a7484aa, 0x5cb0a9dc, 0x76f988da, 0x983e5152, 0xa831c66d, 0xb00327c8, 0xbf597fc7,
  0xc6e00bf3, 0xd5a79147, 0x06ca6351, 0x14292967, 0x27b70a85, 0x2e1b2138, 0x4d2c6dfc,
  0x53380d13, 0x650a7354, 0x766a0abb, 0x81c2c92e, 0x92722c85, 0xa2bfe8a1, 0xa81a664b,
  0xc24b8b70, 0xc76c51a3, 0xd192e819, 0xd6990624, 0xf40e3585, 0x106aa070, 0x19a4c116,
  0x1e376c08, 0x2748774c, 0x34b0bcb5, 0x391c0cb3, 0x4ed8aa4a, 0x5b9cca4f, 0x682e6ff3,
  0x748f82ee, 0x78a5636f, 0x84c87814, 0x8cc70208, 0x90befffa, 0xa4506ceb, 0xbef9a3f7, 0xc67178f2]

/-- Eight words: the chaining value, or the working variables of a round. -/
structure Words where
  a : UInt32
  b : UInt32
  c : UInt32
  d : UInt32
  e : UInt32
  f : UInt32
  g : UInt32
  h : UInt32

/-- The first 32 bits of the fractional parts of the square roots of the first eight primes. -/
def start : Words := ⟨
  0x6a09e667, 0xbb67ae85, 0x3c6ef372, 0xa54ff53a, 0x510e527f, 0x9b05688c, 0x1f83d9ab, 0x5be0cd19⟩

/-- The bits moved right around the word. -/
def rotr (x : UInt32) (n : UInt32) : UInt32 :=
  x >>> n ||| x <<< (32 - n)

/-- One round with its constant and word of the schedule. -/
def round (v : Words) (k w : UInt32) : Words :=
  let s1 := rotr v.e 6 ^^^ rotr v.e 11 ^^^ rotr v.e 25
  let ch := (v.e &&& v.f) ^^^ (~~~v.e &&& v.g)
  let t1 := v.h + s1 + ch + k + w
  let s0 := rotr v.a 2 ^^^ rotr v.a 13 ^^^ rotr v.a 22
  let maj := (v.a &&& v.b) ^^^ (v.a &&& v.c) ^^^ (v.b &&& v.c)
  ⟨t1 + (s0 + maj), v.a, v.b, v.c, v.d + t1, v.e, v.f, v.g⟩

/-- The word that enters the window as its first one leaves. -/
def nextWord (window : List UInt32) : UInt32 :=
  let w15 := window.getD 1 0
  let w2 := window.getD 14 0
  let s0 := rotr w15 7 ^^^ rotr w15 18 ^^^ w15 >>> 3
  let s1 := rotr w2 17 ^^^ rotr w2 19 ^^^ w2 >>> 10
  window.getD 0 0 + s0 + window.getD 9 0 + s1

def rounds : List UInt32 → Words → List UInt32 → Words
  | [], v, _ => v
  | k :: ks, v, window =>
    rounds ks (round v k (window.getD 0 0)) (window.tail ++ [nextWord window])

def compress (h : Words) (block : List UInt32) : Words :=
  let v := rounds roundConstants h block
  ⟨h.a + v.a, h.b + v.b, h.c + v.c, h.d + v.d, h.e + v.e, h.f + v.f, h.g + v.g, h.h + v.h⟩

/-- The last `n` bytes of a number, most significant first. -/
def bytesOf : Nat → Nat → List UInt8
  | 0, _ => []
  | n + 1, x => bytesOf n (x / 256) ++ [UInt8.ofNat (x % 256)]

def padded (bs : List UInt8) : List UInt8 :=
  let zeros := (119 - bs.length % 64) % 64
  bs ++ 0x80 :: List.replicate zeros 0 ++ bytesOf 8 (8 * bs.length)

/-- Four bytes a word, most significant first. -/
def wordsOf : List UInt8 → List UInt32
  | a :: b :: c :: d :: bs =>
    (a.toUInt32 <<< 24 ||| b.toUInt32 <<< 16 ||| c.toUInt32 <<< 8 ||| d.toUInt32) :: wordsOf bs
  | _ => []

def chain : Nat → Words → List UInt32 → Words
  | 0, h, _ => h
  | n + 1, h, ws => chain n (compress h (ws.take 16)) (ws.drop 16)

def digest (bs : List UInt8) : List UInt8 :=
  let ws := wordsOf (padded bs)
  let h := chain (ws.length / 16) start ws
  [h.a, h.b, h.c, h.d, h.e, h.f, h.g, h.h].flatMap fun w => bytesOf 4 w.toNat

end LoanLedger.Sha256

namespace LoanLedger

def digestOf (s : String) : String :=
  Text.hexOfBytes (Sha256.digest s.toUTF8.toList)

end LoanLedger
