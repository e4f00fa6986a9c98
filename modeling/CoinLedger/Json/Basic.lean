import CoinLedger.Text.Basic

/-!
JSON documents that keep their literals: numbers in digits and strings in the bytes between their
quotes. A document is thus well formed by itself, and whether a literal has a value is asked only
where the value is needed.
-/

namespace CoinLedger

/-- A number as written. The digits of each part are ASCII digits; the exponent keeps its sign, if
it has one, apart (`true` for minus). -/
structure Numeral where
  negative : Bool
  whole : List Char
  fraction : Option (List Char)
  exponent : Option (Option Bool × List Char)
  deriving DecidableEq

/-- A JSON document. Strings and keys are the bytes between the quotes, escapes included. -/
inductive Json where
  | null
  | bool (value : Bool)
  | number (literal : Numeral)
  | string (raw : List UInt8)
  | array (items : List Json)
  | object (members : List (List UInt8 × Json))

namespace Numeral

def ofInt (n : Int) : Numeral := ⟨decide (n < 0), Nat.toDigits 10 n.natAbs, none, none⟩

/-- The value of an integer literal. A fraction or an exponent makes a number that is no integer,
and so does a minus before zero. -/
def integer? (n : Numeral) : Option Int :=
  match n with
  | ⟨negative, whole, none, none⟩ =>
    let magnitude := Nat.ofDigitChars 10 whole 0
    if negative then if magnitude = 0 then none else some (-magnitude) else some magnitude
  | _ => none

def bytes (n : Numeral) : List UInt8 :=
  let digits := fun (cs : List Char) => cs.flatMap String.utf8EncodeChar
  let minus : List UInt8 := if n.negative then [0x2d] else []
  let fraction : List UInt8 := match n.fraction with
    | some ds => 0x2e :: digits ds
    | none => []
  let exponent : List UInt8 := match n.exponent with
    | some (some true, ds) => 0x65 :: 0x2d :: digits ds
    | some (some false, ds) => 0x65 :: 0x2b :: digits ds
    | some (none, ds) => 0x65 :: digits ds
    | none => []
  minus ++ digits n.whole ++ fraction ++ exponent

/-- The digits at the start of some bytes, and what follows them. -/
def spanDigits (bytes : List UInt8) : List Char × List UInt8 :=
  let isDigit := fun (b : UInt8) => 0x30 ≤ b && b ≤ 0x39
  ((bytes.takeWhile isDigit).map fun b => Char.ofNat b.toNat, bytes.dropWhile isDigit)

/-- The exponent that is all of some bytes: nothing, or the letter, a sign and digits. -/
def exponentOfBytes? : List UInt8 → Option (Option (Option Bool × List Char))
  | [] => some none
  | letter :: rest =>
    if letter ≠ 0x65 ∧ letter ≠ 0x45 then none
    else
      let (sign, rest) := match rest with
        | 0x2d :: rest => (some true, rest)
        | 0x2b :: rest => (some false, rest)
        | rest => (none, rest)
      match spanDigits rest with
      | (d :: ds, []) => some (some (sign, d :: ds))
      | _ => none

/-- The number that some bytes spell, all of them: no superfluous zero in front, and at least one
digit in each part. -/
def ofBytes? (bytes : List UInt8) : Option Numeral :=
  let (negative, rest) := match bytes with
    | 0x2d :: rest => (true, rest)
    | rest => (false, rest)
  match spanDigits rest with
  | ([], _) => none
  | ('0' :: _ :: _, _) => none
  | (whole, 0x2e :: rest) =>
    match spanDigits rest with
    | ([], _) => none
    | (fraction, rest) => (exponentOfBytes? rest).map fun e => ⟨negative, whole, some fraction, e⟩
  | (whole, rest) => (exponentOfBytes? rest).map fun e => ⟨negative, whole, none, e⟩

/-! ### Beyond the range of a double

The rule is that of a reader that keeps the first digits that fit into 64 bits, counts the others, and
multiplies by a power of ten, both factors and the product rounded to 53 bits. -/

/-- The nearest number with 53 significant bits; a tie goes to the even one. -/
def roundToDouble (n : Nat) : Nat :=
  if n < 1 <<< 53 then n
  else
    let shift := n.log2 - 52
    let kept := n >>> shift
    let lost := n - kept <<< shift
    let half := 1 <<< (shift - 1)
    if half < lost ∨ (lost = half ∧ kept % 2 = 1) then (kept + 1) <<< shift else kept <<< shift

/-- Takes digits into a 64-bit significand while they fit, and tells how many are left. -/
def absorbDigits (significand : Nat) : List Char → Nat × Nat
  | [] => (significand, 0)
  | d :: ds =>
    let next := significand * 10 + (d.toNat - '0'.toNat)
    if next < UInt64.size then absorbDigits next ds else (significand, ds.length + 1)

/-- The number is beyond the largest double. -/
def exceedsDouble (n : Numeral) : Bool :=
  let fraction := n.fraction.getD []
  let (whole, wholeLeft) := absorbDigits 0 n.whole
  let (significand, fractionLeft) := absorbDigits whole fraction
  let written : Int := match n.exponent with
    | some (some true, ds) => -Nat.ofDigitChars 10 ds 0
    | some (_, ds) => Nat.ofDigitChars 10 ds 0
    | none => 0
  let exponent := (wholeLeft : Int) - (fraction.length - fractionLeft) + written
  significand ≠ 0 ∧ 0 ≤ exponent ∧
    (308 < exponent ∨
      (1 <<< 1024) - (1 <<< 970) ≤
        roundToDouble significand * roundToDouble (Nat.pow 10 exponent.toNat))

end Numeral

end CoinLedger
