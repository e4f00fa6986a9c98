/-!
The URL-safe base64 alphabet. Writing pads with equals signs; reading takes the padding whole, in
part or not at all, wants the unused bits of the last symbol to be zero, and names the first byte
at fault with its offset.
-/

namespace CoinLedger.Base64Url

def padByte : UInt8 := 61

/-- The alphabet: `A`–`Z`, `a`–`z`, `0`–`9`, hyphen and underscore for the values 0 to 63. -/
def symbol (value : Nat) : UInt8 :=
  if value < 26 then .ofNat (65 + value)
  else if value < 52 then .ofNat (71 + value)
  else if value < 62 then .ofNat (value - 4)
  else if value = 62 then 45
  else 95

/-- The value of a byte of the alphabet. -/
def value? (byte : UInt8) : Option Nat :=
  if 65 ≤ byte ∧ byte ≤ 90 then some (byte.toNat - 65)
  else if 97 ≤ byte ∧ byte ≤ 122 then some (byte.toNat - 71)
  else if 48 ≤ byte ∧ byte ≤ 57 then some (byte.toNat + 4)
  else if byte = 45 then some 62
  else if byte = 95 then some 63
  else none

/-- The bits of the bytes in groups of six, the last group filled up with zeros. -/
def sextets : List UInt8 → List Nat
  | a :: b :: c :: rest =>
    a.toNat / 4 :: (a.toNat % 4 * 16 + b.toNat / 16) :: (b.toNat % 16 * 4 + c.toNat / 64) ::
      c.toNat % 64 :: sextets rest
  | [a, b] => [a.toNat / 4, a.toNat % 4 * 16 + b.toNat / 16, b.toNat % 16 * 4]
  | [a] => [a.toNat / 4, a.toNat % 4 * 16]
  | [] => []

/-- The whole bytes in a row of six-bit values; bits left over are dropped. -/
def octets : List Nat → List UInt8
  | p :: q :: r :: s :: rest =>
    .ofNat (p * 4 + q / 16) :: .ofNat (q % 16 * 16 + r / 4) :: .ofNat (r % 4 * 64 + s) ::
      octets rest
  | [p, q, r] => [.ofNat (p * 4 + q / 16), .ofNat (q % 16 * 16 + r / 4)]
  | [p, q] => [.ofNat (p * 4 + q / 16)]
  | _ => []

/-- The bits that `octets` drops, as a number. -/
def spareBits : List Nat → Nat
  | _ :: _ :: _ :: _ :: rest => spareBits rest
  | [_, _, r] => r % 4
  | [_, q] => q % 16
  | _ => 0

/-- How many equals signs complete the text of so many bytes. -/
def padding (size : Nat) : Nat := (3 - size % 3) % 3

def encode (bytes : List UInt8) : List UInt8 :=
  (sextets bytes).map symbol ++ List.replicate (padding bytes.length) padByte

inductive Fault where
  | invalidByte (byte : UInt8) (offset : Nat)
  | remainder
  | lastSymbol (byte : UInt8) (offset : Nat)
  deriving DecidableEq, Repr

def Fault.message : Fault → String
  | .invalidByte byte offset => s!"Invalid byte {byte.toNat}, offset {offset}."
  | .remainder => "Encoded text cannot have a 6-bit remainder."
  | .lastSymbol byte offset => s!"Invalid last symbol {byte.toNat}, offset {offset}."

/-- The values of the symbols from `offset` on. Padding may stand only from `tail` on, in the last
two places of a group of four, and nothing but padding may follow it; `pad` is the offset of the
first equals sign so far. -/
def scan (tail : Nat) : (offset : Nat) → (pad : Option Nat) → List UInt8 → Except Fault (List Nat)
  | _, _, [] => .ok []
  | offset, pad, byte :: rest =>
    if byte = padByte ∧ tail ≤ offset then
      if offset % 4 < 2 then .error (.invalidByte padByte (pad.getD offset))
      else scan tail (offset + 1) (some (pad.getD offset)) rest
    else match pad with
      | some first => .error (.invalidByte padByte first)
      | none => match value? byte with
        | none => .error (.invalidByte byte offset)
        | some value => (scan tail (offset + 1) none rest).map (value :: ·)

/-- The offset from which padding is looked for: the start of the last group of eight bytes. -/
def tailOffset (size : Nat) : Nat := 8 * ((size - 1) / 8)

/-- A text whose size leaves one symbol over is faulty whatever that symbol is. -/
def remainderFault (text : List UInt8) : Fault :=
  let last := text.getLastD padByte
  if last = padByte ∨ (value? last).isSome then .remainder
  else .invalidByte last (text.length - 1)

def decode (text : List UInt8) : Except Fault (List UInt8) :=
  if text.length % 4 = 1 then .error (remainderFault text)
  else match scan (tailOffset text.length) 0 none text with
    | .error fault => .error fault
    | .ok values =>
      if spareBits values ≠ 0 then
        .error (.lastSymbol (symbol (values.getLastD 0)) (values.length - 1))
      else .ok (octets values)

end CoinLedger.Base64Url
