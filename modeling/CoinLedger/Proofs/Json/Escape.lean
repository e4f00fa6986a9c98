import CoinLedger.Base64Url.Lemmas
import CoinLedger.Json.Text

/-!
Main statement: the escaped form of a text reads back as the text.
-/

namespace CoinLedger.Json

theorem hexValue?_hexDigit : ∀ n < 16, hexValue? (hexDigit n) = some n := by decide

/-- The code unit of a control is the control itself. -/
theorem unescape?_control {b : UInt8} (control : b < 0x20) (rest : List UInt8) :
    unescape? (0x5c :: 0x75 :: 0x30 :: 0x30 :: hexDigit (b.toNat / 16) :: hexDigit (b.toNat % 16) ::
      rest) = (unescape? rest).map (b :: ·) := by
  have small : b.toNat < 32 := UInt8.lt_iff_toNat_lt.1 control
  have quad : hexQuad? 0x30 0x30 (hexDigit (b.toNat / 16)) (hexDigit (b.toNat % 16)) =
      some b.toNat := by
    have zero : hexValue? 0x30 = some 0 := by decide
    unfold hexQuad?
    rw [zero, hexValue?_hexDigit _ (by omega), hexValue?_hexDigit _ (by omega)]
    exact congrArg some (by omega)
  rw [unescape?, quad]
  have low : ¬(0xd800 ≤ b.toNat ∧ b.toNat ≤ 0xdbff) := by omega
  have trail : ¬(0xdc00 ≤ b.toNat ∧ b.toNat ≤ 0xdfff) := by omega
  simp only [low, trail, if_false]
  rw [Text.utf8EncodeChar_ofNat (by omega)]
  rfl

theorem unescape?_short {b byte : UInt8} (short : shortEscape? b = some byte) (unit : b ≠ 0x75)
    (rest : List UInt8) : unescape? (0x5c :: b :: rest) = (unescape? rest).map (byte :: ·) := by
  rw [unescape?, short]
  rintro c d e f tail rfl
  exact absurd rfl unit

theorem unescape?_plain {b : UInt8} (plain : b ≠ 0x5c) (rest : List UInt8) :
    unescape? (b :: rest) = (unescape? rest).map (b :: ·) := by
  rw [unescape?, if_neg plain]
  · rintro c d e f tail rfl
    exact absurd rfl plain
  · rintro c tail rfl
    exact absurd rfl plain

theorem unescape?_escapeByte_append (b : UInt8) (rest : List UInt8) :
    unescape? (escapeByte b ++ rest) = (unescape? rest).map (b :: ·) := by
  unfold escapeByte
  split
  · next quote => subst quote; exact unescape?_short rfl (by decide) rest
  split
  · next backslash => subst backslash; exact unescape?_short rfl (by decide) rest
  split
  · next backspace => subst backspace; exact unescape?_short rfl (by decide) rest
  split
  · next feed => subst feed; exact unescape?_short rfl (by decide) rest
  split
  · next line => subst line; exact unescape?_short rfl (by decide) rest
  split
  · next carriage => subst carriage; exact unescape?_short rfl (by decide) rest
  split
  · next tab => subst tab; exact unescape?_short rfl (by decide) rest
  split
  · next control => exact unescape?_control control rest
  · next _ backslash _ _ _ _ _ _ => exact unescape?_plain backslash rest

@[simp] theorem unescape?_escape (bytes : List UInt8) : unescape? (escape bytes) = some bytes := by
  induction bytes with
  | nil => rfl
  | cons b bytes ih =>
    rw [escape, List.flatMap_cons, unescape?_escapeByte_append, ← escape, ih]
    rfl

@[simp] theorem text?_rawText (s : String) : text? (rawText s) = some s := by
  rw [text?, rawText, unescape?_escape]
  exact Text.ofUtf8?_utf8 s

end CoinLedger.Json
