import CoinLedger.Digest.Sha512

/-!
Signatures after RFC 8032 on the curve −x² + y² = 1 + d·x²·y² over the field of order 2^255 − 19.
Operations of the field take and give least representatives. Points are in extended coordinates;
reading their 32-byte form takes any y below 2^255, reduced, and takes the sign of a zero x as it comes.
Verification is strict: the scalar is reduced, neither the key nor the commitment has small order, and
the equation holds without the cofactor.
-/

namespace CoinLedger.Edwards

/-! ### The field -/

def prime : Nat := (1 <<< 255) - 19

namespace Coordinate

def add (a b : Nat) : Nat := (a + b) % prime

def sub (a b : Nat) : Nat := (a + (prime - b)) % prime

def mul (a b : Nat) : Nat := a * b % prime

def square (a : Nat) : Nat := mul a a

def neg (a : Nat) : Nat := sub 0 a

/-- Powers by squaring, along the 256 low bits of the exponent from the highest down. -/
def pow (a exponent : Nat) : Nat :=
  (List.range 256).foldr
    (fun i acc => if exponent.testBit i then mul (square acc) a else square acc) 1

/-- The inverse of a nonzero element; zero stays zero. -/
def inverse (a : Nat) : Nat := pow a (prime - 2)

def sqrtMinusOne : Nat :=
  19681161376707505956807079304988542015446066515923890162744021073123829784752

/-- A square root of `u / v`, if there is one; of the two roots, the even one. -/
def sqrtRatio? (u v : Nat) : Option Nat :=
  let v3 := mul (square v) v
  let v7 := mul (square v3) v
  let r := mul (mul u v3) (pow (mul u v7) ((prime - 5) / 8))
  let check := mul v (square r)
  let even := fun x => if x % 2 = 1 then neg x else x
  if check = u then some (even r)
  else if check = neg u then some (even (mul r sqrtMinusOne))
  else none

end Coordinate

/-! ### The curve -/

/-- The number whose bytes these are, low byte first. -/
def natOfBytes (bytes : List UInt8) : Nat :=
  bytes.foldr (fun byte acc => byte.toNat + 256 * acc) 0

/-- The `size` low bytes of a number, low byte first. -/
def bytesOfNat (size n : Nat) : List UInt8 :=
  (List.range size).map fun i => .ofNat (n >>> (8 * i))

@[simp] theorem length_bytesOfNat (size n : Nat) : (bytesOfNat size n).length = size := by
  simp [bytesOfNat]

def curveD : Nat :=
  37095705934669439343138083508754565189542113879843219016388785533085940283555

/-- The point (x/z, y/z), with t = x·y/z. -/
structure Point where
  (x y z t : Nat)
  deriving Repr

namespace Point

open Coordinate

def identity : Point := ⟨0, 1, 1, 0⟩

def ofAffine (x y : Nat) : Point := ⟨x, y, 1, mul x y⟩

def base : Point :=
  ofAffine 15112221349535400772501151409588531511454012693041857206046113283949847762202
    46316835694926478169428394003475163141307993866256225615783033603165251855960

def add (p q : Point) : Point :=
  let a := mul (sub p.y p.x) (sub q.y q.x)
  let b := mul (Coordinate.add p.y p.x) (Coordinate.add q.y q.x)
  let c := mul (mul p.t (Coordinate.add curveD curveD)) q.t
  let d := mul (Coordinate.add p.z p.z) q.z
  let e := sub b a
  let f := sub d c
  let g := Coordinate.add d c
  let h := Coordinate.add b a
  ⟨mul e f, mul g h, mul f g, mul e h⟩

def double (p : Point) : Point :=
  let a := square p.x
  let b := square p.y
  let c := mul 2 (square p.z)
  let h := Coordinate.add a b
  let e := sub h (square (Coordinate.add p.x p.y))
  let g := sub a b
  let f := Coordinate.add c g
  ⟨mul e f, mul g h, mul f g, mul e h⟩

def neg (p : Point) : Point := ⟨Coordinate.neg p.x, p.y, p.z, Coordinate.neg p.t⟩

def same (p q : Point) : Bool :=
  mul p.x q.z == mul q.x p.z && mul p.y q.z == mul q.y p.z

/-- The multiple of a point by the low 256 bits of `scalar`. -/
def scale (scalar : Nat) (p : Point) : Point :=
  (List.range 256).foldr
    (fun i acc => if scalar.testBit i then acc.double.add p else acc.double) identity

/-- The sum of `m`·`p` and `n`·`q`, with shared doublings; of `m` and `n` the low 256 bits. -/
def scaleTwo (m : Nat) (p : Point) (n : Nat) (q : Point) : Point :=
  let sum := p.add q
  (List.range 256).foldr
    (fun i acc =>
      match m.testBit i, n.testBit i with
      | true, true => acc.double.add sum
      | true, false => acc.double.add p
      | false, true => acc.double.add q
      | false, false => acc.double)
    identity

/-- A point that eight times itself is the identity. -/
def isSmallOrder (p : Point) : Bool := p.double.double.double.same identity

/-- The affine y, low byte first, with the parity of the affine x in the top bit. -/
def compress (p : Point) : List UInt8 :=
  let zInverse := inverse p.z
  let x := mul p.x zInverse
  let y := mul p.y zInverse
  bytesOfNat 32 (y + (x % 2) <<< 255)

/-- The point that 32 bytes stand for, if y belongs to a point of the curve. -/
def decompress? (bytes : List UInt8) : Option Point :=
  let n := natOfBytes bytes
  let y := n % (1 <<< 255) % prime
  let y2 := square y
  (sqrtRatio? (sub y2 1) (Coordinate.add (mul curveD y2) 1)).map fun x =>
    ofAffine (if n.testBit 255 then Coordinate.neg x else x) y

@[simp] theorem length_compress (p : Point) : p.compress.length = 32 := by simp [compress]

end Point

/-! ### Signatures -/

/-- The order of the base point. -/
def baseOrder : Nat := (1 <<< 252) + 27742317777372353535851937790883648493

/-- The scalar and the nonce seed that a 32-byte secret expands to. -/
def expandSecret (secret : List UInt8) : Nat × List UInt8 :=
  let digest := Sha512.digest secret
  let low := natOfBytes (digest.take 32)
  (low % (1 <<< 254) / 8 * 8 + (1 <<< 254), digest.drop 32)

def publicBytes (secret : List UInt8) : List UInt8 :=
  (Point.scale (expandSecret secret).1 Point.base).compress

def challenge (commitment key message : List UInt8) : Nat :=
  natOfBytes (Sha512.digest (commitment ++ key ++ message)) % baseOrder

/-- The 64 bytes of a signature: the commitment, then the response. -/
def sign (secret message : List UInt8) : List UInt8 :=
  let (scalar, seed) := expandSecret secret
  let key := (Point.scale scalar Point.base).compress
  let nonce := natOfBytes (Sha512.digest (seed ++ message)) % baseOrder
  let commitment := (Point.scale nonce Point.base).compress
  let response := (nonce + challenge commitment key message * scalar) % baseOrder
  commitment ++ bytesOfNat 32 response

@[simp] theorem length_publicBytes (secret : List UInt8) : (publicBytes secret).length = 32 := by
  simp [publicBytes]

@[simp] theorem length_sign (secret message : List UInt8) : (sign secret message).length = 64 := by
  simp [sign]

def verify (key message signature : List UInt8) : Bool :=
  let commitment := signature.take 32
  let response := natOfBytes (signature.drop 32)
  (Point.decompress? key).any fun a =>
    (Point.decompress? commitment).any fun r =>
      response < baseOrder && !r.isSmallOrder && !a.isSmallOrder &&
        (Point.scaleTwo response Point.base (challenge commitment key message) a.neg).same r

end CoinLedger.Edwards
