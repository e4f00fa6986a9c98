import CoinLedger.Json.Basic

/-!
Main statement: the shortest numeral of an integer is read back from its bytes and has the integer
as its value.
-/

namespace CoinLedger.Numeral

def IsDigitByte (b : UInt8) : Prop := 0x30 ≤ b ∧ b ≤ 0x39

def digitBytes (cs : List Char) : List UInt8 := cs.flatMap String.utf8EncodeChar

theorem utf8EncodeChar_of_isDigit {c : Char} (h : c.isDigit = true) :
    ∃ b, String.utf8EncodeChar c = [b] ∧ IsDigitByte b ∧ Char.ofNat b.toNat = c := by
  simp only [Char.isDigit, Bool.and_eq_true, decide_eq_true_eq, ge_iff_le] at h
  have lower : 48 ≤ c.toNat := UInt32.le_iff_toNat_le.1 h.1
  have upper : c.toNat ≤ 57 := UInt32.le_iff_toNat_le.1 h.2
  have value : (UInt8.ofNat c.toNat).toNat = c.toNat := UInt8.toNat_ofNat_of_lt' (Nat.lt_of_le_of_lt upper (by decide))
  have char : Char.ofNat (UInt8.ofNat c.toNat).toNat = c := by rw [value, Char.ofNat_toNat]
  refine ⟨UInt8.ofNat c.toNat, ?_, ⟨?_, ?_⟩, char⟩
  · have ascii : String.utf8EncodeChar (Char.ofNat (UInt8.ofNat c.toNat).toNat) =
        [UInt8.ofNat c.toNat] := Text.utf8EncodeChar_ofNat (by omega)
    rwa [char] at ascii
  · exact UInt8.le_iff_toNat_le.2 (by rw [value]; exact lower)
  · exact UInt8.le_iff_toNat_le.2 (by rw [value]; exact upper)

theorem isDigitByte_of_mem {cs : List Char} (h : ∀ c ∈ cs, c.isDigit = true) {b : UInt8}
    (member : b ∈ digitBytes cs) : IsDigitByte b := by
  obtain ⟨c, hc, hb⟩ := List.mem_flatMap.1 member
  obtain ⟨d, same, digit, _⟩ := utf8EncodeChar_of_isDigit (h c hc)
  rw [same, List.mem_singleton] at hb
  rwa [hb]

theorem spanDigits_digitBytes {cs : List Char} (h : ∀ c ∈ cs, c.isDigit = true) :
    spanDigits (digitBytes cs) = (cs, []) := by
  induction cs with
  | nil => rfl
  | cons c cs ih =>
    obtain ⟨b, same, digit, char⟩ := utf8EncodeChar_of_isDigit (h c (by simp))
    have rest := ih fun d hd => h d (by simp [hd])
    have test : (decide (0x30 ≤ b) && decide (b ≤ 0x39)) = true := by
      rw [decide_eq_true digit.1, decide_eq_true digit.2]
      rfl
    rw [digitBytes, List.flatMap_cons, same, ← digitBytes]
    unfold spanDigits at *
    simp only [Prod.mk.injEq] at rest
    simp only [List.singleton_append, List.takeWhile_cons, List.dropWhile_cons, test, if_true,
      List.map_cons, char, rest.1, rest.2]

theorem isDigit_of_mem_toDigits {n : Nat} : ∀ c ∈ Nat.toDigits 10 n, c.isDigit = true :=
  fun _ member => Nat.isDigit_of_mem_toDigits (by decide) (by decide) member

theorem digitChar_ne_zero : ∀ n < 10, 0 < n → Nat.digitChar n ≠ '0' := by decide

theorem toDigits_ne_zero_cons {n : Nat} (positive : 0 < n) (cs : List Char) :
    Nat.toDigits 10 n ≠ '0' :: cs := by
  induction n using Nat.strongRecOn generalizing cs with
  | ind n ih =>
    by_cases small : n < 10
    · rw [Nat.toDigits_of_lt_base small]
      intro same
      exact digitChar_ne_zero n small positive (List.cons.inj same).1
    · rw [Nat.toDigits_of_base_le (by decide) (Nat.le_of_not_lt small)]
      have before : 0 < n / 10 := Nat.div_pos (Nat.le_of_not_lt small) (by decide)
      intro same
      cases digits : Nat.toDigits 10 (n / 10) with
      | nil => exact Nat.toDigits_ne_nil digits
      | cons d ds =>
        rw [digits, List.cons_append] at same
        rw [(List.cons.inj same).1] at digits
        exact ih (n / 10) (by omega) before ds digits

theorem toDigits_ne_zero_cons_cons (n : Nat) (c : Char) (cs : List Char) :
    Nat.toDigits 10 n ≠ '0' :: c :: cs := by
  rcases Nat.eq_zero_or_pos n with rfl | positive
  · rw [Nat.toDigits_zero]
    exact fun same => nomatch (List.cons.inj same).2
  · exact toDigits_ne_zero_cons positive _

theorem bytes_ofInt (n : Int) :
    (ofInt n).bytes = (if n < 0 then [0x2d] else []) ++ digitBytes (Nat.toDigits 10 n.natAbs) := by
  by_cases negative : n < 0 <;> simp [bytes, ofInt, digitBytes, negative]

/-- Reading the whole part and nothing after it. -/
theorem ofBytes?_digits {negative : Bool} {n : Nat} :
    (match spanDigits (digitBytes (Nat.toDigits 10 n)) with
      | ([], _) => none
      | ('0' :: _ :: _, _) => none
      | (whole, 0x2e :: rest) =>
        match spanDigits rest with
        | ([], _) => none
        | (fraction, rest) =>
          (exponentOfBytes? rest).map fun e => (⟨negative, whole, some fraction, e⟩ : Numeral)
      | (whole, rest) =>
        (exponentOfBytes? rest).map fun e => (⟨negative, whole, none, e⟩ : Numeral)) =
      some ⟨negative, Nat.toDigits 10 n, none, none⟩ := by
  rw [spanDigits_digitBytes isDigit_of_mem_toDigits]
  have single := toDigits_ne_zero_cons_cons n
  split
  · next same => exact absurd (Prod.mk.inj same).1 Nat.toDigits_ne_nil
  · next same => exact absurd (Prod.mk.inj same).1 (single _ _)
  · next same => exact nomatch (Prod.mk.inj same).2
  · next same =>
    cases same
    rfl

theorem ofBytes?_bytes_ofInt (n : Int) : ofBytes? (ofInt n).bytes = some (ofInt n) := by
  rw [bytes_ofInt]
  by_cases negative : n < 0
  · rw [if_pos negative, ofInt, decide_eq_true negative]
    exact ofBytes?_digits
  · rw [if_neg negative, ofInt, decide_eq_false negative, List.nil_append]
    have first : ∀ rest, digitBytes (Nat.toDigits 10 n.natAbs) ≠ 0x2d :: rest := by
      intro rest same
      have digit := isDigitByte_of_mem isDigit_of_mem_toDigits
        (same ▸ List.mem_cons_self : (0x2d : UInt8) ∈ digitBytes (Nat.toDigits 10 n.natAbs))
      exact absurd digit.1 (by decide)
    unfold ofBytes?
    split
    next negative rest same =>
    split at same
    · next tail start => exact absurd start (first tail)
    · cases same
      exact ofBytes?_digits

theorem integer?_ofInt (n : Int) : (ofInt n).integer? = some n := by
  have magnitude : Nat.ofDigitChars 10 (Nat.toDigits 10 n.natAbs) 0 = n.natAbs :=
    Nat.ofDigitChars_toDigits (by decide) (by decide)
  simp only [integer?, ofInt, magnitude]
  by_cases negative : n < 0
  · have positive : n.natAbs ≠ 0 := by omega
    simp only [decide_eq_true negative, if_true, if_neg positive]
    exact congrArg some (by omega)
  · simp only [decide_eq_false negative, Bool.false_eq_true, if_false]
    exact congrArg some (by omega)

end CoinLedger.Numeral
