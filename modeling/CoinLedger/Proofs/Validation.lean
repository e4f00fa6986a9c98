import CoinLedger.Proofs.Ledger.Reference
import CoinLedger.Validation

/-!
When a transaction is accepted. The check walks through the inputs and stops at the first fault;
the conditions below have no order. Main statement: the check accepts exactly what meets them.
-/

namespace CoinLedger.Validation

variable {lookup : OutPoint → Option OutputRecord} {mode : Accounting} {payload : List UInt8}

/-- The input names a known output, and its key owns the output and signed for it. -/
def Opens (lookup : OutPoint → Option OutputRecord) (payload : List UInt8) (i : Input)
    (record : OutputRecord) : Prop :=
  lookup i.outpoint = some record ∧
    ∃ u, i.unlock = some u ∧ u.key.address.bytes = record.owner.bytes ∧
      u.key.verify payload u.signature = true

def valueAt (lookup : OutPoint → Option OutputRecord) (o : OutPoint) : Nat :=
  ((lookup o).map fun record => record.value.toNat).getD 0

def valueOf (lookup : OutPoint → Option OutputRecord) (os : List OutPoint) : Nat :=
  total (os.map (valueAt lookup))

def Unspent (lookup : OutPoint → Option OutputRecord) (o : OutPoint) : Prop :=
  ∀ record, lookup o = some record → record.spent = false

theorem valueAt_of_some {o : OutPoint} {record : OutputRecord} (h : lookup o = some record) :
    valueAt lookup o = record.value.toNat := by
  rw [valueAt, h]
  rfl

theorem checkInput_eq_ok_iff {place : Nat} {seen : List OutPoint} {i : Input}
    {record : OutputRecord} :
    checkInput lookup mode payload place seen i = .ok record ↔
      Opens lookup payload i record ∧
        (mode = .strictUtxo → record.spent = false ∧ ∀ o ∈ seen, ¬o.Same i.outpoint) := by
  constructor
  · intro h
    unfold checkInput at h
    split at h
    · exact nomatch h
    next r known =>
    split at h
    · exact nomatch h
    next u shown =>
    split at h
    · exact nomatch h
    next owns =>
    split at h
    · exact nomatch h
    next signed =>
    split at h
    · exact nomatch h
    next fresh =>
    cases h
    refine ⟨⟨known, u, shown, Decidable.not_not.1 owns, by simpa using signed⟩, fun strict => ?_⟩
    refine ⟨?_, fun o member same => fresh ⟨strict, .inr ⟨o, member, same⟩⟩⟩
    cases spent : record.spent with
    | false => rfl
    | true => exact absurd ⟨strict, .inl spent⟩ fresh
  · rintro ⟨⟨known, u, shown, owns, signed⟩, fresh⟩
    have unused : ¬(mode = .strictUtxo ∧ (record.spent = true ∨ ∃ o ∈ seen, o.Same i.outpoint)) := by
      rintro ⟨strict, spent | ⟨o, member, same⟩⟩
      · rw [(fresh strict).1] at spent
        exact nomatch spent
      · exact (fresh strict).2 o member same
    simp [checkInput, known, shown, owns, signed, unused]

/-- What the inputs of a spend must meet, given the outpoints seen before them. -/
structure InputsSound (lookup : OutPoint → Option OutputRecord) (mode : Accounting)
    (payload : List UInt8) (seen : List OutPoint) (inputs : List Input) : Prop where
  opens : ∀ i ∈ inputs, ∃ record, Opens lookup payload i record
  unspent : mode = .strictUtxo → ∀ i ∈ inputs, Unspent lookup i.outpoint
  unseen : mode = .strictUtxo → ∀ i ∈ inputs, ∀ o ∈ seen, ¬o.Same i.outpoint
  apart : mode = .strictUtxo → (inputs.map Input.outpoint).Pairwise fun o p => ¬o.Same p

theorem inputsSound_cons_iff {seen : List OutPoint} {i : Input} {rest : List Input} :
    InputsSound lookup mode payload seen (i :: rest) ↔
      (∃ record, Opens lookup payload i record ∧
        (mode = .strictUtxo → record.spent = false ∧ ∀ o ∈ seen, ¬o.Same i.outpoint)) ∧
      InputsSound lookup mode payload (i.outpoint :: seen) rest := by
  constructor
  · intro h
    obtain ⟨record, opens⟩ := h.opens i (by simp)
    refine ⟨⟨record, opens, fun strict => ⟨?_, h.unseen strict i (by simp)⟩⟩, ?_, ?_, ?_, ?_⟩
    · exact h.unspent strict i (by simp) record opens.1
    · exact fun j hj => h.opens j (by simp [hj])
    · exact fun strict j hj => h.unspent strict j (by simp [hj])
    · intro strict j hj o ho
      have apart := List.pairwise_cons.1 (h.apart strict)
      rcases List.mem_cons.1 ho with rfl | ho
      · exact apart.1 j.outpoint (List.mem_map_of_mem hj)
      · exact h.unseen strict j (by simp [hj]) o ho
    · exact fun strict => (List.pairwise_cons.1 (h.apart strict)).2
  · rintro ⟨⟨record, opens, first⟩, h⟩
    refine ⟨?_, ?_, ?_, ?_⟩
    · intro j hj
      rcases List.mem_cons.1 hj with rfl | hj
      · exact ⟨record, opens⟩
      · exact h.opens j hj
    · intro strict j hj
      rcases List.mem_cons.1 hj with rfl | hj
      · intro r known
        cases Option.some.inj (opens.1.symm.trans known)
        exact (first strict).1
      · exact h.unspent strict j hj
    · intro strict j hj o ho
      rcases List.mem_cons.1 hj with rfl | hj
      · exact (first strict).2 o ho
      · exact h.unseen strict j hj o (by simp [ho])
    · intro strict
      refine List.pairwise_cons.2 ⟨fun p hp => ?_, h.apart strict⟩
      obtain ⟨j, hj, rfl⟩ := List.mem_map.1 hp
      exact h.unseen strict j hj i.outpoint (by simp)

theorem checkInputs_eq_ok_iff {place : Nat} {seen : List OutPoint} {sum n : Nat}
    {inputs : List Input} (fits : sum < coinBound) :
    checkInputs lookup mode payload place seen sum inputs = .ok n ↔
      InputsSound lookup mode payload seen inputs ∧
        n = sum + valueOf lookup (inputs.map Input.outpoint) ∧ n < coinBound := by
  induction inputs generalizing place seen sum with
  | nil =>
    constructor
    · intro h
      cases h
      exact ⟨⟨by simp, by simp, by simp, by simp⟩, rfl, fits⟩
    · rintro ⟨_, rfl, _⟩
      rfl
  | cons i rest ih =>
    rw [inputsSound_cons_iff]
    have value : valueOf lookup ((i :: rest).map Input.outpoint) =
        valueAt lookup i.outpoint + valueOf lookup (rest.map Input.outpoint) := rfl
    rw [value, checkInputs]
    constructor
    · intro h
      split at h
      · exact nomatch h
      next record first =>
      have first := checkInput_eq_ok_iff.1 first
      split at h
      · next bounded =>
        obtain ⟨sound, rfl, fits⟩ := (ih bounded).1 h
        refine ⟨⟨⟨record, first⟩, sound⟩, ?_, fits⟩
        rw [valueAt_of_some first.1.1]
        exact Nat.add_assoc _ _ _
      · exact nomatch h
    · rintro ⟨⟨⟨record, first⟩, sound⟩, rfl, bounded⟩
      have worth := valueAt_of_some first.1.1
      have now : sum + record.value.toNat < coinBound := by omega
      rw [checkInput_eq_ok_iff.2 first]
      simp only [now, if_true]
      exact (ih now).2 ⟨sound, by omega, bounded⟩

/-- What a spend must meet beyond the form of its body. -/
structure SpendSound (lookup : OutPoint → Option OutputRecord) (mode : Accounting) (b : Body) :
    Prop where
  inputs : InputsSound lookup mode b.signingPayload [] b.inputs
  bounded : valueOf lookup b.outpoints < coinBound
  balanced : mode = .strictUtxo → b.outputSum ≤ valueOf lookup b.outpoints

/-- What an accepted transaction consumes: nothing if it makes money, else all it names. -/
def consumedBy (b : Body) : List OutPoint := if b.isCoinbase then [] else b.outpoints

theorem validate_eq_ok_iff {tx : Transaction} {a : Accepted} :
    validate tx lookup mode = .ok a ↔
      tx.body.checkSchema = .ok () ∧ tx.body.outputSum < coinBound ∧
        (tx.body.isCoinbase = false → SpendSound lookup mode tx.body) ∧
        a = ⟨consumedBy tx.body, valueOf lookup (consumedBy tx.body)⟩ := by
  have zero : 0 < coinBound := by decide
  unfold validate
  cases schema : tx.body.checkSchema with
  | error cause => simp
  | ok _ =>
    by_cases overflow : coinBound ≤ tx.body.outputSum
    · simp [overflow, Nat.not_lt_of_le overflow]
    cases coinbase : tx.body.isCoinbase with
    | true =>
      have : tx.body.outputSum < coinBound := by omega
      simp only [overflow, if_false, if_true, consumedBy, coinbase]
      simp [this, valueOf, eq_comm]
    | false =>
      have bounded : tx.body.outputSum < coinBound := by omega
      simp only [overflow, if_false, consumedBy, coinbase, Bool.false_eq_true]
      constructor
      · intro h
        split at h
        · exact nomatch h
        next n checked =>
        obtain ⟨sound, rfl, fits⟩ := (checkInputs_eq_ok_iff zero).1 checked
        rw [Nat.zero_add] at h fits
        split at h
        · exact nomatch h
        next balanced =>
        cases h
        refine ⟨trivial, bounded, fun _ => ⟨sound, fits, fun strict => ?_⟩, rfl⟩
        exact Nat.le_of_not_lt fun less => balanced ⟨strict, less⟩
      · rintro ⟨_, _, spend, rfl⟩
        have spend := spend trivial
        rw [(checkInputs_eq_ok_iff zero).2 ⟨spend.inputs, (Nat.zero_add _).symm, spend.bounded⟩]
        have balanced : ¬(mode = .strictUtxo ∧
            valueOf lookup (tx.body.inputs.map Input.outpoint) < tx.body.outputSum) := by
          rintro ⟨strict, less⟩
          exact Nat.not_lt_of_le (spend.balanced strict) less
        simp only [balanced, if_false]
        rfl

end CoinLedger.Validation
