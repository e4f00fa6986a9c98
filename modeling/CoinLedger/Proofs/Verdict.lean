import CoinLedger.Proofs.Transaction.Schema
import CoinLedger.Proofs.Validation

/-!
What a transaction is refused for. The check of the inputs ends at the first one that is at fault, so
a refusal says something of the inputs before that one too. Main statement: a transaction is accepted
exactly when it meets conditions that have no order, a refusal of one input is about the first input at
fault, and a body of the right form is not refused for its form.
-/

namespace CoinLedger

/-- The refusal is of one input of a spend. -/
def CashError.IsOfInput : CashError → Prop
  | .unknownOutput _ | .notOwner _ | .badSignature _ | .alreadySpent _ => True
  | _ => False

namespace Validation

variable {lookup : OutPoint → Option OutputRecord} {mode : Accounting} {payload : List UInt8}

/-- What is wrong with an input, when the ones before it name the outpoints seen, and the refusal that
says so. Of several faults the first in this order counts. -/
inductive Faulty (lookup : OutPoint → Option OutputRecord) (mode : Accounting) (payload : List UInt8)
    (place : Nat) (seen : List OutPoint) (i : Input) : CashError → Prop
  | unknown : lookup i.outpoint = none →
      Faulty lookup mode payload place seen i (.unknownOutput i.outpoint)
  | noScript {record : OutputRecord} : lookup i.outpoint = some record → i.unlock = none →
      Faulty lookup mode payload place seen i (.malformed (.noScript place))
  | notOwner {record : OutputRecord} {u : Unlock} : lookup i.outpoint = some record →
      i.unlock = some u → u.key.address.bytes ≠ record.owner.bytes →
      Faulty lookup mode payload place seen i (.notOwner i.outpoint)
  | badSignature {record : OutputRecord} {u : Unlock} : lookup i.outpoint = some record →
      i.unlock = some u → u.key.address.bytes = record.owner.bytes →
      u.key.verify payload u.signature = false →
      Faulty lookup mode payload place seen i (.badSignature place)
  | alreadySpent {record : OutputRecord} : Opens lookup payload i record → mode = .strictUtxo →
      (record.spent = true ∨ ∃ o ∈ seen, o.Same i.outpoint) →
      Faulty lookup mode payload place seen i (.alreadySpent i.outpoint)

/-- In what order the outpoints were seen makes no difference. -/
theorem Faulty.congr {place : Nat} {seen other : List OutPoint} {i : Input} {e : CashError}
    (same : ∀ o, o ∈ seen ↔ o ∈ other) (h : Faulty lookup mode payload place seen i e) :
    Faulty lookup mode payload place other i e := by
  cases h with
  | unknown unknown => exact .unknown unknown
  | noScript known hidden => exact .noScript known hidden
  | notOwner known shown foreign => exact .notOwner known shown foreign
  | badSignature known shown owns unsigned => exact .badSignature known shown owns unsigned
  | alreadySpent opens strict used =>
    exact .alreadySpent opens strict (used.imp id fun ⟨o, member, twice⟩ =>
      ⟨o, (same o).1 member, twice⟩)

theorem faulty_of_checkInput {place : Nat} {seen : List OutPoint} {i : Input} {e : CashError}
    (h : checkInput lookup mode payload place seen i = .error e) :
    Faulty lookup mode payload place seen i e := by
  unfold checkInput at h
  split at h
  · next unknown =>
    cases h
    exact .unknown unknown
  next record known =>
  split at h
  · next hidden =>
    cases h
    exact .noScript known hidden
  next u shown =>
  split at h
  · next foreign =>
    cases h
    exact .notOwner known shown foreign
  next owns =>
  have owns := Decidable.not_not.1 owns
  split at h
  · next unsigned =>
    cases h
    exact .badSignature known shown owns unsigned
  next signed =>
  split at h
  · next used =>
    cases h
    exact .alreadySpent ⟨known, u, shown, owns, by simpa using signed⟩ used.1 used.2
  · exact nomatch h

/-- The inputs before the first fault are sound, and that fault, or the sum, is what is refused. -/
theorem checkInputs_eq_error {place : Nat} {seen : List OutPoint} {sum : Nat} {inputs : List Input}
    {e : CashError} (h : checkInputs lookup mode payload place seen sum inputs = .error e) :
    ∃ before i after, inputs = before ++ i :: after ∧
      InputsSound lookup mode payload seen before ∧
      (Faulty lookup mode payload (place + before.length)
          ((before.map Input.outpoint).reverse ++ seen) i e ∨
        e = .overflow) := by
  induction inputs generalizing place seen sum with
  | nil => exact nomatch h
  | cons i rest ih =>
    have none : InputsSound lookup mode payload seen [] := ⟨by simp, by simp, by simp, by simp⟩
    rw [checkInputs] at h
    split at h
    · next refused =>
      cases h
      exact ⟨[], i, rest, rfl, none, .inl (faulty_of_checkInput refused)⟩
    · next record checked =>
      split at h
      · obtain ⟨before, j, after, rfl, sound, fault⟩ := ih h
        refine ⟨i :: before, j, after, rfl, ?_, ?_⟩
        · exact inputsSound_cons_iff.2 ⟨⟨record, checkInput_eq_ok_iff.1 checked⟩, sound⟩
        · simpa [Nat.add_assoc, Nat.add_comm 1] using fault
      · cases h
        exact ⟨[], i, rest, rfl, none, .inr rfl⟩

/-- The inputs of a spend show their scripts, so none is refused for its form. -/
theorem checkInputs_ne_malformed {b : Body} (schema : b.checkSchema = .ok ())
    (spend : b.isCoinbase = false) (cause : Malformed) :
    checkInputs lookup mode payload 0 [] 0 b.inputs ≠ .error (.malformed cause) := by
  intro h
  obtain ⟨before, i, after, inputs, _, fault | overflow⟩ := checkInputs_eq_error h
  · have member : i ∈ b.inputs := by simp [inputs]
    cases fault with
    | noScript _ hidden => exact (Body.index_nonneg_of_spend schema spend member).2 hidden
  · exact nomatch overflow

/-- A refusal has one of four sources. -/
theorem validate_eq_error {tx : Transaction} {e : CashError}
    (h : validate tx lookup mode = .error e) :
    (∃ cause, tx.body.checkSchema = .error cause ∧ e = .malformed cause) ∨
      tx.body.checkSchema = .ok () ∧
        (coinBound ≤ tx.body.outputSum ∧ e = .overflow ∨
          tx.body.isCoinbase = false ∧
            (checkInputs lookup mode tx.body.signingPayload 0 [] 0 tx.body.inputs = .error e ∨
              ∃ inputs, e = .unbalanced inputs tx.body.outputSum)) := by
  unfold validate at h
  split at h
  · next cause schema =>
    cases h
    exact .inl ⟨cause, schema, rfl⟩
  next schema =>
  refine .inr ⟨schema, ?_⟩
  split at h
  · next overflow =>
    cases h
    exact .inl ⟨overflow, rfl⟩
  split at h
  · exact nomatch h
  next spend =>
  refine .inr ⟨Bool.eq_false_iff.2 spend, ?_⟩
  split at h
  · next refused =>
    cases h
    exact .inl refused
  next inputs checked =>
  split at h
  · cases h
    exact .inr ⟨inputs, rfl⟩
  · exact nomatch h

theorem validate_eq_malformed_iff {tx : Transaction} {cause : Malformed} :
    validate tx lookup mode = .error (.malformed cause) ↔ tx.body.checkSchema = .error cause := by
  constructor
  · intro h
    rcases validate_eq_error h with
      ⟨_, schema, same⟩ | ⟨schema, ⟨_, same⟩ | ⟨spend, refused | ⟨_, same⟩⟩⟩
    · cases same
      exact schema
    · exact nomatch same
    · exact absurd refused (checkInputs_ne_malformed schema spend cause)
    · exact nomatch same
  · intro schema
    simp [validate, schema]

/-- A refusal of one input finds it at fault, and all inputs before it sound. -/
theorem faulty_of_validate {tx : Transaction} {e : CashError} (about : e.IsOfInput)
    (h : validate tx lookup mode = .error e) :
    ∃ before i after, tx.body.inputs = before ++ i :: after ∧
      InputsSound lookup mode tx.body.signingPayload [] before ∧
      Faulty lookup mode tx.body.signingPayload before.length (before.map Input.outpoint) i e := by
  rcases validate_eq_error h with
    ⟨cause, _, rfl⟩ | ⟨_, ⟨_, rfl⟩ | ⟨_, refused | ⟨inputs, rfl⟩⟩⟩
  · exact about.elim
  · exact about.elim
  · obtain ⟨before, i, after, split, sound, fault | rfl⟩ := checkInputs_eq_error refused
    · rw [Nat.zero_add] at fault
      exact ⟨before, i, after, split, sound, fault.congr (by simp)⟩
    · exact about.elim
  · exact about.elim

/-- The verdict on a transaction, whatever outputs are known and in either mode: what is accepted and
with which result, what a refusal of one input says of the inputs up to it, and that only the form of
the body is ever refused as malformed, since a body of the right form either makes money by its one
input or shows a script in every input. -/
theorem validate_verdict (tx : Transaction) (lookup : OutPoint → Option OutputRecord)
    (mode : Accounting) :
    ((∃ a, validate tx lookup mode = .ok a) ↔
      tx.body.checkSchema = .ok () ∧ tx.body.outputSum < coinBound ∧
        (tx.body.isCoinbase = true ∨ SpendSound lookup mode tx.body)) ∧
    (∀ a, validate tx lookup mode = .ok a →
      a = if tx.body.isCoinbase then ⟨[], 0⟩
        else ⟨tx.body.outpoints, valueOf lookup tx.body.outpoints⟩) ∧
    (∀ e : CashError, e.IsOfInput → validate tx lookup mode = .error e →
      ∃ before i after, tx.body.inputs = before ++ i :: after ∧
        InputsSound lookup mode tx.body.signingPayload [] before ∧
        Faulty lookup mode tx.body.signingPayload before.length (before.map Input.outpoint) i e) ∧
    (∀ cause, validate tx lookup mode = .error (.malformed cause) ↔
      tx.body.checkSchema = .error cause) ∧
    (tx.body.checkSchema = .ok () →
      (tx.body.isCoinbase = true ↔ ∃ o, tx.body.inputs = [⟨o, none⟩] ∧ o.isCoinbase = true) ∧
      (tx.body.isCoinbase = false → ∀ cause,
        checkInputs lookup mode tx.body.signingPayload 0 [] 0 tx.body.inputs ≠
          .error (.malformed cause))) := by
  refine ⟨?_, ?_, fun e about => faulty_of_validate about, fun cause => validate_eq_malformed_iff,
    fun schema => ⟨Body.isCoinbase_iff schema, checkInputs_ne_malformed schema⟩⟩
  · have either : (tx.body.isCoinbase = false → SpendSound lookup mode tx.body) ↔
        tx.body.isCoinbase = true ∨ SpendSound lookup mode tx.body := by
      cases tx.body.isCoinbase <;> simp
    rw [← either]
    constructor
    · rintro ⟨a, accepted⟩
      obtain ⟨schema, bounded, spend, _⟩ := validate_eq_ok_iff.1 accepted
      exact ⟨schema, bounded, spend⟩
    · rintro ⟨schema, bounded, spend⟩
      exact ⟨_, validate_eq_ok_iff.2 ⟨schema, bounded, spend, rfl⟩⟩
  · intro a accepted
    obtain ⟨_, _, _, rfl⟩ := validate_eq_ok_iff.1 accepted
    unfold consumedBy
    split <;> rfl

end Validation

end CoinLedger
