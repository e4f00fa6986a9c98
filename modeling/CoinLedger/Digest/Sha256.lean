/-!
The SHA-256 digest of a row of bytes, after FIPS 180-4. The width of a digest is a lemma; nothing is
claimed about collisions.
-/

namespace CoinLedger.Sha256

/-- The round constants: the first 32 fractional bits of the cube roots of the first 64 primes. -/
def roundConstants : Vector UInt32 64 := #v[
  0x428a2f98, 0x71374491, 0xb5c0fbcf, 0xe9b5dba5, 0x3956c25b, 0x59f111f1, 0x923f82a4, 0xab1c5ed5,
  0xd807aa98, 0x12835b01, 0x243185be, 0x550c7dc3, 0x72be5d74, 0x80deb1fe, 0x9bdc06a7, 0xc19bf174,
  0xe49b69c1, 0xefbe4786, 0x0fc19dc6, 0x240ca1cc, 0x2de92c6f, 0x4a7484aa, 0x5cb0a9dc, 0x76f988da,
  0x983e5152, 0xa831c66d, 0xb00327c8, 0xbf597fc7, 0xc6e00bf3, 0xd5a79147, 0x06ca6351, 0x14292967,
  0x27b70a85, 0x2e1b2138, 0x4d2c6dfc, 0x53380d13, 0x650a7354, 0x766a0abb, 0x81c2c92e, 0x92722c85,
  0xa2bfe8a1, 0xa81a664b, 0xc24b8b70, 0xc76c51a3, 0xd192e819, 0xd6990624, 0xf40e3585, 0x106aa070,
  0x19a4c116, 0x1e376c08, 0x2748774c, 0x34b0bcb5, 0x391c0cb3, 0x4ed8aa4a, 0x5b9cca4f, 0x682e6ff3,
  0x748f82ee, 0x78a5636f, 0x84c87814, 0x8cc70208, 0x90befffa, 0xa4506ceb, 0xbef9a3f7, 0xc67178f2]

structure State where
  (a b c d e f g h : UInt32)

/-- The initial state: the first 32 fractional bits of the square roots of the first eight primes. -/
def State.initial : State where
  a := 0x6a09e667
  b := 0xbb67ae85
  c := 0x3c6ef372
  d := 0xa54ff53a
  e := 0x510e527f
  f := 0x9b05688c
  g := 0x1f83d9ab
  h := 0x5be0cd19

/-- The word turned right by `count` bits, `count` being between 1 and 31. -/
def rotate (word count : UInt32) : UInt32 := word >>> count ||| word <<< (32 - count)

def scheduleMixEarly (x : UInt32) : UInt32 := rotate x 7 ^^^ rotate x 18 ^^^ x >>> 3

def scheduleMixLate (x : UInt32) : UInt32 := rotate x 17 ^^^ rotate x 19 ^^^ x >>> 10

/-- The first `count` words of a block's schedule: its sixteen words, then the recurrence. -/
def schedule (block : Vector UInt32 16) : (count : Nat) → Vector UInt32 count
  | 0 => #v[]
  | n + 1 =>
    let words := schedule block n
    if h : n < 16 then words.push block[n]
    else words.push
      (words[n - 16] + scheduleMixEarly words[n - 15] + words[n - 7] + scheduleMixLate words[n - 2])

/-- One round with the sum of its constant and its schedule word. -/
def State.round (s : State) (addend : UInt32) : State :=
  let first := s.h + (rotate s.e 6 ^^^ rotate s.e 11 ^^^ rotate s.e 25) +
    ((s.e &&& s.f) ^^^ (~~~s.e &&& s.g)) + addend
  let second := (rotate s.a 2 ^^^ rotate s.a 13 ^^^ rotate s.a 22) +
    ((s.a &&& s.b) ^^^ (s.a &&& s.c) ^^^ (s.b &&& s.c))
  ⟨first + second, s.a, s.b, s.c, s.d + first, s.e, s.f, s.g⟩

def State.compress (s : State) (block : Vector UInt32 16) : State :=
  let addends := Vector.zipWith (· + ·) roundConstants (schedule block 64)
  let t := addends.toList.foldl State.round s
  ⟨s.a + t.a, s.b + t.b, s.c + t.c, s.d + t.d, s.e + t.e, s.f + t.f, s.g + t.g, s.h + t.h⟩

def State.bytes (s : State) : List UInt8 :=
  [s.a, s.b, s.c, s.d, s.e, s.f, s.g, s.h].flatMap fun (word : UInt32) =>
    [(word >>> 24).toUInt8, (word >>> 16).toUInt8, (word >>> 8).toUInt8, word.toUInt8]

/-- The bytes that follow a message of `size` bytes: one set bit, zeros up to a whole number of
blocks, and the message's size in bits at the very end. -/
def trailer (size : Nat) : List UInt8 :=
  let zeros := (128 - (size + 1 + 8) % 64) % 64
  0x80 :: List.replicate zeros 0 ++
    (List.range 8).map fun i => .ofNat ((8 * size) >>> (8 * (7 - i)))

/-- Bytes read as words, high byte first. -/
def wordsOfBytes : List UInt8 → List UInt32
  | a :: b :: c :: d :: rest =>
    (a.toUInt32 <<< 24 ||| b.toUInt32 <<< 16 ||| c.toUInt32 <<< 8 ||| d.toUInt32) ::
      wordsOfBytes rest
  | _ => []

/-- Takes in sixteen words at a time; fewer at the end are ignored. -/
def State.absorb (s : State) : List UInt32 → State
  | w0 :: w1 :: w2 :: w3 :: w4 :: w5 :: w6 :: w7 :: w8 :: w9 :: w10 :: w11 :: w12 :: w13 :: w14 ::
      w15 :: rest =>
    (s.compress #v[w0, w1, w2, w3, w4, w5, w6, w7, w8, w9, w10, w11, w12, w13, w14, w15]).absorb rest
  | _ => s

/-- The digest of a message, 32 bytes. -/
def digest (message : List UInt8) : List UInt8 :=
  (State.initial.absorb (wordsOfBytes (message ++ trailer message.length))).bytes

@[simp] theorem length_digest (message : List UInt8) : (digest message).length = 32 := rfl

end CoinLedger.Sha256
