import CoinLedger.Proofs.Text.Blank
import CoinLedger.Proofs.Text.Decimal
import CoinLedger.Spend

/-!
Amounts as users type them and as signed numbers. Main statement: a text names an amount exactly if it is
the amount's decimal text, with any zeros in front and any white space around; one that names a greater
number is told from one that names none; and an amount is given back by the signed number that it is
turned into.
-/

namespace CoinLedger

namespace Text

/-- The text is a decimal text of the number, with any white space around it. -/
def Shows (s : String) (n : Nat) : Prop := ∃ digits, InBlanks s digits ∧ IsDecimal digits n

theorem isBlank_eq_false_of_isDigit {c : Char} (h : c.isDigit = true) : isBlank c = false := by
  obtain ⟨lower, upper⟩ := Char.isDigit_iff_toNat.1 h
  change 48 ≤ c.toNat at lower
  change c.toNat ≤ 57 at upper
  simp only [isBlank, Bool.or_eq_false_iff, Bool.and_eq_false_iff, decide_eq_false_iff_not,
    beq_eq_false_iff_ne]
  omega

theorem natOfDigits?_trim_eq_some_iff {s : String} {n : Nat} :
    natOfDigits? (trim s).toList = some n ↔ Shows s n := by
  constructor
  · intro read
    exact ⟨_, inBlanks_trim s, natOfDigits?_eq_some_iff.1 read⟩
  · rintro ⟨digits, around, decimal⟩
    have bare : BareEnds digits := bareEnds_of_forall fun c member =>
      isBlank_eq_false_of_isDigit (decimal.isDigit_of_mem c member)
    rw [toList_trim_of_inBlanks around bare]
    exact natOfDigits?_eq_some_iff.2 decimal

theorem Shows.unique {s : String} {m n : Nat} (h : Shows s m) (k : Shows s n) : m = n :=
  Option.some.inj
    ((natOfDigits?_trim_eq_some_iff.2 h).symm.trans (natOfDigits?_trim_eq_some_iff.2 k))

theorem exists_shows_iff {s : String} :
    (∃ n, Shows s n) ↔ trim s ≠ "" ∧ ∀ b ∈ utf8 (trim s), Numeral.IsDigitByte b := by
  rw [forall_isDigitByte_iff, ne_eq, ← String.toList_eq_nil_iff]
  constructor
  · rintro ⟨n, shown⟩
    have decimal := natOfDigits?_eq_some_iff.1 (natOfDigits?_trim_eq_some_iff.2 shown)
    exact ⟨decimal.ne_nil, decimal.isDigit_of_mem⟩
  · rintro ⟨some, digits⟩
    exact ⟨_, _, inBlanks_trim s, isDecimal_ofDigitChars some digits⟩

end Text

theorem ofInt64_of_nonneg {amount : Int64} (h : 0 ≤ amount) :
    Amount.ofInt64 amount = .ok ⟨amount.toUInt64⟩ := if_neg (Int64.not_lt.2 h)

theorem ofInt64_of_neg {amount : Int64} (h : amount < 0) :
    Amount.ofInt64 amount = .error (.negativeAmount amount) := if_pos h

namespace Amount

theorem eq_iff_toNat {a b : Amount} : a = b ↔ a.value.toNat = b.value.toNat := by
  rw [UInt64.toNat_inj]
  exact ⟨congrArg value, fun h => congrArg mk h⟩

/-- The answers to a text that a user typed for an amount: the amount that it shows, and two refusals,
of a number that is out of range and of a text that shows no number. -/
structure AnswersText (text : String) (answer : Except CashError Amount) : Prop where
  amount : ∀ a, answer = .ok a ↔ Text.Shows text a.value.toNat
  range : answer = .error (.amountTextRange text) ↔ ∃ n, Text.Shows text n ∧ UInt64.size ≤ n
  unreadable : answer = .error (.amountText text) ↔ ¬∃ n, Text.Shows text n
  refusal : ∀ e, answer = .error e → e = .amountText text ∨ e = .amountTextRange text

theorem answersText_ofText (text : String) : AnswersText text (ofText text) := by
  unfold ofText
  cases read : Text.natOfDigits? (Text.trim text).toList with
  | none =>
    have unshown : ∀ n, ¬Text.Shows text n := by
      intro n shown
      rw [Text.natOfDigits?_trim_eq_some_iff.2 shown] at read
      exact nomatch read
    constructor <;> simp [unshown]
  | some n =>
    have shown := Text.natOfDigits?_trim_eq_some_iff.1 read
    have only : ∀ m, Text.Shows text m ↔ m = n :=
      fun m => ⟨fun other => other.unique shown, fun same => same ▸ shown⟩
    by_cases fits : n < UInt64.size
    · have value : ∀ a : Amount, ⟨UInt64.ofNat n⟩ = a ↔ a.value.toNat = n := by
        intro a
        rw [eq_iff_toNat, UInt64.toNat_ofNat_of_lt' fits, eq_comm]
      constructor <;> simp [only, fits, value]
    · have excess := Nat.le_of_not_lt fits
      have below : ∀ a : Amount, a.value.toNat ≠ n := fun a same => fits (same ▸ a.value.toNat_lt)
      constructor <;> simp [only, fits, excess, below]

section Signed

variable {a : Amount} {i : Int64}

theorem exists_toInt64_iff : (∃ i, a.toInt64 = .ok i) ↔ a.value.toNat < 1 <<< 63 := by
  unfold toInt64
  split
  · next small => exact ⟨fun _ => small, fun _ => ⟨_, rfl⟩⟩
  · next large =>
    constructor
    · rintro ⟨i, turned⟩
      exact nomatch turned
    · exact fun small => absurd small large

theorem toInt64_eq_error_iff :
    a.toInt64 = .error (.amountRange a.value) ↔ 1 <<< 63 ≤ a.value.toNat := by
  unfold toInt64
  split
  · next small => exact ⟨nofun, fun large => absurd small (Nat.not_lt_of_le large)⟩
  · next large => exact ⟨fun _ => Nat.le_of_not_lt large, fun _ => rfl⟩

theorem toInt64_eq_ok_iff : a.toInt64 = .ok i ↔ i.toInt = a.value.toNat := by
  unfold toInt64
  split
  · next small =>
    have value : (Int64.ofNat a.value.toNat).toInt = a.value.toNat := Int64.toInt_ofNat_of_lt small
    rw [← value, Int64.toInt_inj, Except.ok.injEq, eq_comm]
  · next large =>
    constructor
    · exact nofun
    · intro same
      have bounded := i.toInt_lt
      rw [same] at bounded
      exact absurd (Int.ofNat_lt.1 bounded) large

theorem ofInt64_eq_ok_iff : ofInt64 i = .ok a ↔ i.toInt = a.value.toNat := by
  by_cases nonneg : 0 ≤ i
  · rw [ofInt64_of_nonneg nonneg, Except.ok.injEq, eq_iff_toNat, Int64.toNat_toUInt64_of_le nonneg,
      Int64.toInt_eq_toNatClampNeg nonneg, Int.natCast_inj]
  · have negative := Int64.not_le.1 nonneg
    rw [ofInt64_of_neg negative]
    constructor
    · exact nofun
    · intro same
      have below := Int64.lt_iff_toInt_lt.1 negative
      rw [same] at below
      exact absurd below (Int.not_lt.2 (Int.natCast_nonneg _))

end Signed

/-- An amount and the signed number that it is turned into: there is one up to the greatest of them, it
has the same value, and it is turned back into the amount. -/
structure SignedAlike (a : Amount) : Prop where
  fits : (∃ i, a.toInt64 = .ok i) ↔ a.value.toNat < 1 <<< 63
  excess : a.toInt64 = .error (.amountRange a.value) ↔ 1 <<< 63 ≤ a.value.toNat
  value : ∀ i, a.toInt64 = .ok i ↔ i.toInt = a.value.toNat
  back : ∀ i, a.toInt64 = .ok i ↔ ofInt64 i = .ok a

theorem signedAlike (a : Amount) : a.SignedAlike where
  fits := exists_toInt64_iff
  excess := toInt64_eq_error_iff
  value _ := toInt64_eq_ok_iff
  back _ := toInt64_eq_ok_iff.trans ofInt64_eq_ok_iff.symm

/-- Every text for an amount, of whatever characters, is answered by the number that it shows: the digits
that are left without the white space at its ends, whether they are told by their characters or by their
bytes. So every amount is read from its own text, with any white space around and any zeros in front, and
what was read is the same as a signed number, as long as there is one. -/
theorem ofText_exact :
    (∀ text, AnswersText text (ofText text)) ∧
    (∀ text middle, (Text.trim text).toList = middle ↔
      Text.InBlanks text middle ∧ Text.BareEnds middle) ∧
    (∀ text n, Text.Shows text n ↔ Text.IsDecimal (Text.trim text).toList n) ∧
    (∀ text, (∃ n, Text.Shows text n) ↔
      Text.trim text ≠ "" ∧ ∀ b ∈ Text.utf8 (Text.trim text), Numeral.IsDigitByte b) ∧
    (∀ (value : UInt64) zeros before after, Text.Blank before → Text.Blank after →
      ofText (String.ofList (before ++
        (List.replicate zeros '0' ++ (toString value.toNat).toList) ++ after)) = .ok ⟨value⟩) ∧
    ∀ a : Amount, a.SignedAlike := by
  refine ⟨answersText_ofText, fun text middle => Text.toList_trim_eq_iff, ?_,
    fun text => Text.exists_shows_iff, ?_, signedAlike⟩
  · intro text n
    rw [← Text.natOfDigits?_trim_eq_some_iff, Text.natOfDigits?_eq_some_iff]
  · intro value zeros before after left right
    refine ((answersText_ofText _).amount ⟨value⟩).2 ⟨_, ?_, zeros, rfl⟩
    exact ⟨before, after, left, right, String.toList_ofList⟩

example : ofText "\u00a0018446744073709551615\n" = .ok ⟨18446744073709551615⟩ := rfl

end Amount

end CoinLedger
