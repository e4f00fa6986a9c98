import CoinLedger.Proofs.Json.Numeral
import CoinLedger.Text.Basic

/-!
Decimal texts as bytes, and what is read as one. Main statements: the text of a natural number is a row
of digits, at least one and with no zero in front of others, and different numbers, of either sign, have
different texts; a number is read from its own text with any number of zeros in front, and from nothing
else.
-/

namespace CoinLedger.Text

open Numeral (IsDigitByte)

theorem toString_nat_injective {m n : Nat} (h : toString m = toString n) : m = n := by
  rw [Nat.toString_eq_repr, Nat.toString_eq_repr] at h
  have digits : Nat.toDigits 10 m = Nat.toDigits 10 n := by
    rw [← Nat.toList_repr, h, Nat.toList_repr]
  have back := natOfDigits?_toDigits m
  rw [digits, natOfDigits?_toDigits] at back
  exact (Option.some.inj back).symm

theorem utf8_toString_nat (n : Nat) :
    utf8 (toString n) = Numeral.digitBytes (Nat.toDigits 10 n) := by
  rw [Nat.toString_eq_repr, Nat.repr_eq_ofList_toDigits, utf8_ofList]
  rfl

theorem length_utf8_toString_nat (n : Nat) :
    (utf8 (toString n)).length = (Nat.toDigits 10 n).length := by
  have single : ∀ cs : List Char, (∀ c ∈ cs, c.isDigit = true) →
      (Numeral.digitBytes cs).length = cs.length := by
    intro cs digits
    induction cs with
    | nil => rfl
    | cons c cs ih =>
      obtain ⟨b, byte, _⟩ := Numeral.utf8EncodeChar_of_isDigit (digits c List.mem_cons_self)
      have rest := ih fun d member => digits d (List.mem_cons_of_mem c member)
      rw [Numeral.digitBytes, List.flatMap_cons, byte, ← Numeral.digitBytes, List.length_append, rest]
      exact Nat.add_comm _ _
  rw [utf8_toString_nat]
  exact single _ Numeral.isDigit_of_mem_toDigits

/-- No number of two digits or more starts with a zero. -/
theorem utf8_toString_nat_ne_zero_cons (n : Nat) (b : UInt8) (bytes : List UInt8) :
    utf8 (toString n) ≠ 0x30 :: b :: bytes := by
  rw [utf8_toString_nat]
  have digits : ∀ c ∈ Nat.toDigits 10 n, c.isDigit = true := Numeral.isDigit_of_mem_toDigits
  have leading := Numeral.toDigits_ne_zero_cons_cons n
  intro same
  cases whole : Nat.toDigits 10 n with
  | nil => exact Nat.toDigits_ne_nil whole
  | cons c rest =>
    rw [whole] at same digits leading
    obtain ⟨byte, code, _, char⟩ := Numeral.utf8EncodeChar_of_isDigit (digits c List.mem_cons_self)
    rw [Numeral.digitBytes, List.flatMap_cons, code, List.singleton_append] at same
    obtain ⟨rfl, tail⟩ := List.cons.inj same
    cases rest with
    | nil => cases tail
    | cons d rest => exact leading d rest (by rw [← char]; rfl)

theorem isDigitByte_of_mem_nat {n : Nat} {b : UInt8} (h : b ∈ utf8 (toString n)) :
    IsDigitByte b := by
  rw [utf8_toString_nat] at h
  exact Numeral.isDigitByte_of_mem Numeral.isDigit_of_mem_toDigits h

theorem utf8_ne_nil {s : String} (h : s ≠ "") : utf8 s ≠ [] := fun empty => h (utf8_injective empty)

theorem toString_nat_ne_empty (n : Nat) : toString n ≠ "" := by
  rw [Nat.toString_eq_repr]
  exact Nat.repr_ne_empty

theorem toString_int_of_nonneg {i : Int} (h : 0 ≤ i) : toString i = toString i.toNat := by
  rw [Int.toString_eq_repr, Int.repr_eq_if, if_pos h, Nat.toString_eq_repr]

theorem toString_int_of_neg {i : Int} (h : i < 0) : toString i = "-" ++ toString (-i).toNat := by
  rw [Int.toString_eq_repr, Int.repr_eq_if, if_neg (Int.not_le.2 h), Nat.toString_eq_repr]

theorem toString_int_ne_empty (i : Int) : toString i ≠ "" := by
  by_cases h : 0 ≤ i
  · rw [toString_int_of_nonneg h]
    exact toString_nat_ne_empty _
  · rw [toString_int_of_neg (Int.not_le.1 h)]
    simp

theorem not_isDigitByte_minus : ¬ IsDigitByte 0x2d := by
  unfold IsDigitByte
  decide

theorem mem_utf8_int {i : Int} {b : UInt8} (h : b ∈ utf8 (toString i)) :
    IsDigitByte b ∨ b = 0x2d := by
  by_cases sign : 0 ≤ i
  · rw [toString_int_of_nonneg sign] at h
    exact .inl (isDigitByte_of_mem_nat h)
  · rw [toString_int_of_neg (Int.not_le.1 sign), utf8_append] at h
    rcases List.mem_append.1 h with minus | digit
    · exact .inr (List.mem_singleton.1 minus)
    · exact .inl (isDigitByte_of_mem_nat digit)

/-- No row of digits starts with a sign. -/
theorem toString_nat_ne_minus (n : Nat) (s : String) : toString n ≠ "-" ++ s := by
  intro h
  have bytes := congrArg utf8 h
  rw [utf8_append] at bytes
  have member : (0x2d : UInt8) ∈ utf8 (toString n) := by
    rw [bytes]
    exact List.mem_append_left _ (by decide)
  exact not_isDigitByte_minus (isDigitByte_of_mem_nat member)

theorem toString_int_injective {i j : Int} (h : toString i = toString j) : i = j := by
  by_cases hi : 0 ≤ i <;> by_cases hj : 0 ≤ j
  · rw [toString_int_of_nonneg hi, toString_int_of_nonneg hj] at h
    have := toString_nat_injective h
    omega
  · rw [toString_int_of_nonneg hi, toString_int_of_neg (Int.not_le.1 hj)] at h
    exact absurd h (toString_nat_ne_minus _ _)
  · rw [toString_int_of_neg (Int.not_le.1 hi), toString_int_of_nonneg hj] at h
    exact absurd h.symm (toString_nat_ne_minus _ _)
  · rw [toString_int_of_neg (Int.not_le.1 hi), toString_int_of_neg (Int.not_le.1 hj)] at h
    have tails := congrArg utf8 h
    rw [utf8_append, utf8_append] at tails
    have := toString_nat_injective (utf8_injective (List.append_cancel_left tails))
    omega

section Reading

/-- The number's own text with any number of zeros in front. -/
def IsDecimal (digits : List Char) (n : Nat) : Prop :=
  ∃ zeros, digits = List.replicate zeros '0' ++ (toString n).toList

variable {cs : List Char}

theorem toList_toString_nat (n : Nat) : (toString n).toList = Nat.toDigits 10 n := by
  rw [Nat.toString_eq_repr, Nat.toList_repr]

theorem toDigits_toNat_sub {c : Char} (h : c.isDigit = true) :
    c.toNat - '0'.toNat < 10 ∧ Nat.toDigits 10 (c.toNat - '0'.toNat) = [c] := by
  obtain ⟨lower, upper⟩ := Char.isDigit_iff_toNat.1 h
  have small : c.toNat - '0'.toNat < 10 :=
    Nat.lt_of_le_of_lt (Nat.sub_le_sub_right upper _) (by decide)
  have code : (Nat.digitChar (c.toNat - '0'.toNat)).toNat = c.toNat := by
    rw [Nat.toNat_digitChar_of_lt_ten small]
    exact Nat.add_sub_of_le lower
  refine ⟨small, ?_⟩
  rw [Nat.toDigits_of_lt_base small, Char.toNat_inj.1 code]

/-- Once a digit other than zero was read, the digits that follow continue the number's text. -/
theorem toDigits_append {n : Nat} (positive : 0 < n) (digits : ∀ c ∈ cs, c.isDigit = true) :
    Nat.toDigits 10 n ++ cs = Nat.toDigits 10 (Nat.ofDigitChars 10 cs n) := by
  induction cs generalizing n with
  | nil => exact List.append_nil _
  | cons c cs ih =>
    obtain ⟨small, single⟩ := toDigits_toNat_sub (digits c List.mem_cons_self)
    have longer := Nat.toDigits_append_toDigits (by decide : 1 < 10) positive small
    rw [Nat.ofDigitChars_cons, ← ih (by omega) fun d member => digits d (List.mem_cons_of_mem c member),
      ← longer, single, List.append_assoc, List.singleton_append]

/-- The induction runs over the zeros in front; it ends at the first other digit, or at the last zero. -/
theorem isDecimal_ofDigitChars (some : cs ≠ []) (digits : ∀ c ∈ cs, c.isDigit = true) :
    IsDecimal cs (Nat.ofDigitChars 10 cs 0) := by
  induction cs with
  | nil => exact absurd rfl some
  | cons c cs ih =>
    have later : ∀ d ∈ cs, d.isDigit = true := fun d member => digits d (List.mem_cons_of_mem c member)
    rw [Nat.ofDigitChars_cons, Nat.mul_zero, Nat.zero_add]
    by_cases zero : c = '0'
    · subst zero
      cases cs with
      | nil => exact ⟨0, rfl⟩
      | cons d ds =>
        obtain ⟨zeros, same⟩ := ih (List.cons_ne_nil d ds) later
        refine ⟨zeros + 1, ?_⟩
        rw [List.replicate_succ, List.cons_append, Nat.sub_self, ← same]
    · obtain ⟨small, single⟩ := toDigits_toNat_sub (digits c List.mem_cons_self)
      have positive : 0 < c.toNat - '0'.toNat := by
        refine Nat.pos_of_ne_zero fun none => zero ?_
        rw [none, Nat.toDigits_zero] at single
        exact (List.cons.inj single).1.symm
      refine ⟨0, ?_⟩
      rw [toList_toString_nat, ← toDigits_append positive later, single]
      rfl

theorem IsDecimal.ofDigitChars_eq {n : Nat} (h : IsDecimal cs n) : Nat.ofDigitChars 10 cs 0 = n := by
  obtain ⟨zeros, rfl⟩ := h
  rw [toList_toString_nat]
  induction zeros with
  | zero => exact Nat.ofDigitChars_toDigits (by decide) (by decide)
  | succ zeros ih =>
    rw [List.replicate_succ, List.cons_append, Nat.ofDigitChars_cons]
    exact ih

theorem IsDecimal.ne_nil {n : Nat} (h : IsDecimal cs n) : cs ≠ [] := by
  obtain ⟨zeros, rfl⟩ := h
  rw [toList_toString_nat]
  exact fun none => Nat.toDigits_ne_nil (List.append_eq_nil_iff.1 none).2

theorem IsDecimal.isDigit_of_mem {n : Nat} (h : IsDecimal cs n) : ∀ c ∈ cs, c.isDigit = true := by
  obtain ⟨zeros, rfl⟩ := h
  intro c member
  rw [toList_toString_nat] at member
  rcases List.mem_append.1 member with zero | digit
  · rw [List.eq_of_mem_replicate zero]
    rfl
  · exact Numeral.isDigit_of_mem_toDigits c digit

theorem natOfDigits?_eq_some_iff {n : Nat} : natOfDigits? cs = some n ↔ IsDecimal cs n := by
  unfold natOfDigits?
  split
  · next form =>
    have digits := List.all_eq_true.1 form.2
    constructor
    · rintro ⟨⟩
      exact isDecimal_ofDigitChars form.1 digits
    · intro h
      rw [h.ofDigitChars_eq]
  · next form =>
    constructor
    · exact nofun
    · intro h
      exact absurd ⟨h.ne_nil, List.all_eq_true.2 h.isDigit_of_mem⟩ form

/-- Digits can be told by their bytes as well: bytes of other characters are none of digits. -/
theorem forall_isDigitByte_iff {s : String} :
    (∀ b ∈ utf8 s, IsDigitByte b) ↔ ∀ c ∈ s.toList, c.isDigit = true := by
  constructor
  · intro digits
    have ascii : ∀ b ∈ utf8 s, b.toNat < 128 := fun b member =>
      Nat.lt_of_le_of_lt (UInt8.le_iff_toNat_le.1 (digits b member).2) (by decide)
    have same : ofAscii (utf8 s) = s := utf8_injective (utf8_ofAscii ascii)
    rw [← same, ofAscii, String.toList_ofList, List.forall_mem_map]
    intro b member
    rw [Char.isDigit_iff_toNat, toNat_ofNat_byte (ascii b member)]
    exact ⟨UInt8.le_iff_toNat_le.1 (digits b member).1, UInt8.le_iff_toNat_le.1 (digits b member).2⟩
  · intro digits b member
    rw [← String.ofList_toList (s := s), utf8_ofList] at member
    exact Numeral.isDigitByte_of_mem digits member

end Reading

end CoinLedger.Text
