import CoinLedger.Text.Basic

/-!
The bytes between the quotes of a JSON string.
-/

namespace CoinLedger.Json

/-- One hexadecimal digit, in lower case. -/
def hexDigit (n : Nat) : UInt8 := if n < 10 then .ofNat (0x30 + n) else .ofNat (0x57 + n)

def hexValue? (b : UInt8) : Option Nat :=
  if 0x30 ≤ b ∧ b ≤ 0x39 then some (b.toNat - 0x30)
  else if 0x61 ≤ b ∧ b ≤ 0x66 then some (b.toNat - 0x57)
  else if 0x41 ≤ b ∧ b ≤ 0x46 then some (b.toNat - 0x37)
  else none

/-- How one byte of a text is written: quote, backslash and controls are escaped. -/
def escapeByte (b : UInt8) : List UInt8 :=
  if b = 0x22 then [0x5c, 0x22]
  else if b = 0x5c then [0x5c, 0x5c]
  else if b = 0x08 then [0x5c, 0x62]
  else if b = 0x0c then [0x5c, 0x66]
  else if b = 0x0a then [0x5c, 0x6e]
  else if b = 0x0d then [0x5c, 0x72]
  else if b = 0x09 then [0x5c, 0x74]
  else if b < 0x20 then
    [0x5c, 0x75, 0x30, 0x30, hexDigit (b.toNat / 16), hexDigit (b.toNat % 16)]
  else [b]

def escape (bytes : List UInt8) : List UInt8 := bytes.flatMap escapeByte

def shortEscape? (b : UInt8) : Option UInt8 :=
  if b = 0x22 ∨ b = 0x5c ∨ b = 0x2f then some b
  else if b = 0x62 then some 0x08
  else if b = 0x66 then some 0x0c
  else if b = 0x6e then some 0x0a
  else if b = 0x72 then some 0x0d
  else if b = 0x74 then some 0x09
  else none

def hexQuad? (a b c d : UInt8) : Option Nat := do
  return (((← hexValue? a) * 16 + (← hexValue? b)) * 16 + (← hexValue? c)) * 16 + (← hexValue? d)

/-- The bytes of the text that an escaped form stands for. A leading surrogate must be followed by
a trailing one, and a trailing surrogate cannot come alone. -/
def unescape? : List UInt8 → Option (List UInt8)
  | 0x5c :: 0x75 :: a :: b :: c :: d :: rest =>
    match hexQuad? a b c d with
    | none => none
    | some unit =>
      if 0xd800 ≤ unit ∧ unit ≤ 0xdbff then
        match rest with
        | 0x5c :: 0x75 :: e :: f :: g :: h :: rest =>
          match hexQuad? e f g h with
          | none => none
          | some low =>
            if 0xdc00 ≤ low ∧ low ≤ 0xdfff then
              (unescape? rest).map
                (String.utf8EncodeChar
                  (Char.ofNat (0x10000 + (unit - 0xd800) * 0x400 + (low - 0xdc00))) ++ ·)
            else none
        | _ => none
      else if 0xdc00 ≤ unit ∧ unit ≤ 0xdfff then none
      else (unescape? rest).map (String.utf8EncodeChar (Char.ofNat unit) ++ ·)
  | 0x5c :: b :: rest =>
    match shortEscape? b with
    | none => none
    | some byte => (unescape? rest).map (byte :: ·)
  | [] => some []
  | b :: rest => if b = 0x5c then none else (unescape? rest).map (b :: ·)

def text? (raw : List UInt8) : Option String := (unescape? raw).bind Text.ofUtf8?

def rawText (s : String) : List UInt8 := escape (Text.utf8 s)

end CoinLedger.Json
