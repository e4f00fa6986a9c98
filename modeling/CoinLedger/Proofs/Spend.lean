import CoinLedger.Proofs.Amount
import CoinLedger.Proofs.Ledger.Reference
import CoinLedger.Proofs.Transaction.Schema
import CoinLedger.Spend

/-!
Payments as they are built. Main statement: a request is refused for one of three causes, each in cases
of its own, and in all others the payment takes in what the signer owns, signs what it pays, and pays
out exactly as much.
-/

namespace CoinLedger

/-- The body of a payment out of some outputs of the signer. -/
def paymentBody (signer : Signer) (recipient : Hash) (amount : UInt64) (owned : List Spendable) :
    Body :=
  let outputs := paymentOutputs recipient signer.publicKey.address amount (spendableSum owned)
  let outpoints := owned.map Spendable.outpoint
  let unlock : Unlock := ⟨signer.publicKey, signer.sign (signingPayload outpoints outputs)⟩
  { version := protocolVersion
    inputs := outpoints.map fun o => ⟨o, some unlock⟩
    outputs := outputs
    lockTime := 0
    outputs_fit := length_paymentOutputs_lt _ _ _ _ }

theorem ownedBy_eq_self {owner : Hash} {available : List Spendable}
    (h : ∀ s ∈ available, s.owner.bytes = owner.bytes) : ownedBy owner available = available :=
  List.filter_eq_self.2 fun s member => decide_eq_true (h s member)

section Building

variable {signer : Signer} {recipient : Hash} {amount : Int64} {available : List Spendable}

/-- The checks of an amount that is not negative, in their order. -/
theorem buildSpend_of_nonneg (nonneg : 0 ≤ amount) :
    buildSpend signer recipient amount available =
      if coinBound ≤ spendableSum (ownedBy signer.publicKey.address available) then .error .overflow
      else if ownedBy signer.publicKey.address available = [] ∨
          spendableSum (ownedBy signer.publicKey.address available) < amount.toNatClampNeg then
        .error (.insufficientFunds amount.toNatClampNeg
          (spendableSum (ownedBy signer.publicKey.address available)))
      else .ok (.ofBody (paymentBody signer recipient amount.toUInt64
        (ownedBy signer.publicKey.address available))) := by
  simp only [buildSpend, ofInt64_of_nonneg nonneg, Int64.toNat_toUInt64_of_le nonneg]
  rfl

/-- What was built is the payment out of all that the signer owns, which is not nothing. -/
theorem eq_ofBody_of_buildSpend {tx : Transaction}
    (h : buildSpend signer recipient amount available = .ok tx) :
    ownedBy signer.publicKey.address available ≠ [] ∧
      tx = .ofBody (paymentBody signer recipient amount.toUInt64
        (ownedBy signer.publicKey.address available)) := by
  by_cases nonneg : 0 ≤ amount
  · rw [buildSpend_of_nonneg nonneg] at h
    split at h
    · exact nomatch h
    · split at h
      · exact nomatch h
      · next funded =>
        cases h
        exact ⟨fun none => funded (.inl none), rfl⟩
  · rw [buildSpend, ofInt64_of_neg (Int64.not_le.1 nonneg)] at h
    exact nomatch h

theorem buildSpend_eq (nonneg : 0 ≤ amount)
    (own : ∀ s ∈ available, s.owner.bytes = signer.publicKey.address.bytes)
    (fits : spendableSum available < coinBound) :
    buildSpend signer recipient amount available =
      if available = [] ∨ spendableSum available < amount.toNatClampNeg then
        .error (.insufficientFunds (amount.toNatClampNeg) (spendableSum available))
      else .ok (.ofBody (paymentBody signer recipient amount.toUInt64 available)) := by
  rw [buildSpend_of_nonneg nonneg, ownedBy_eq_self own, if_neg (Nat.not_le_of_lt fits)]

end Building

section Body

variable (signer : Signer) (recipient : Hash) (amount : UInt64) (owned : List Spendable)

theorem paymentBody_outpoints :
    (paymentBody signer recipient amount owned).outpoints = owned.map Spendable.outpoint := by
  rw [Body.outpoints, paymentBody, List.map_map]
  exact List.map_id _

theorem paymentBody_outputs :
    (paymentBody signer recipient amount owned).outputs =
      paymentOutputs recipient signer.publicKey.address amount (spendableSum owned) := rfl

theorem paymentBody_unlock {i : Input} (member : i ∈ (paymentBody signer recipient amount owned).inputs) :
    i.unlock = some ⟨signer.publicKey,
      signer.sign (paymentBody signer recipient amount owned).signingPayload⟩ := by
  obtain ⟨o, _, rfl⟩ := List.mem_map.1 member
  rw [Body.signingPayload, paymentBody_outpoints, paymentBody_outputs]

variable {signer recipient amount owned}

theorem isCoinbase_eq_false_of_nonneg {o : OutPoint} (h : 0 ≤ o.index) : o.isCoinbase = false := by
  cases coinbase : o.isCoinbase with
  | false => rfl
  | true =>
    rw [Body.index_of_coinbase coinbase] at h
    exact absurd h (by decide)

theorem checkSchema_paymentBody (some : owned ≠ []) (places : ∀ s ∈ owned, 0 ≤ s.outpoint.index) :
    (paymentBody signer recipient amount owned).checkSchema = .ok () := by
  rw [Body.checkSchema_eq_ok_iff]
  refine ⟨rfl, rfl, ?_, ?_, ?_⟩
  · simpa [paymentBody] using some
  · simp [paymentBody, paymentOutputs]
  · intro i member
    have shown := paymentBody_unlock signer recipient amount owned member
    obtain ⟨o, named, rfl⟩ := List.mem_map.1 member
    obtain ⟨s, hs, rfl⟩ := List.mem_map.1 named
    rw [Body.InputFormed, isCoinbase_eq_false_of_nonneg (places s hs)]
    refine ⟨places s hs, ?_⟩
    rw [shown]
    exact Option.some_ne_none _

/-- An input that shows a proof is well formed only if it names a place. -/
theorem checkSchema_paymentBody_iff (some : owned ≠ []) :
    (paymentBody signer recipient amount owned).checkSchema = .ok () ↔
      ∀ s ∈ owned, 0 ≤ s.outpoint.index := by
  refine ⟨fun schema s member => ?_, checkSchema_paymentBody some⟩
  have spend : ⟨s.outpoint, _⟩ ∈ (paymentBody signer recipient amount owned).inputs :=
    List.mem_map_of_mem (List.mem_map_of_mem member)
  have formed := (Body.checkSchema_eq_ok_iff.1 schema).2.2.2.2 _ spend
  unfold Body.InputFormed at formed
  split at formed
  · exact nomatch formed.1
  · exact formed.1

theorem isCoinbase_paymentBody : (paymentBody signer recipient amount owned).isCoinbase = false := by
  apply List.any_eq_false.2
  intro i member
  have shown := paymentBody_unlock signer recipient amount owned member
  simp [Input.isCoinbase, shown]

end Body

section Outputs

variable {recipient owner : Hash} {amount : UInt64} {sum : Nat}

/-- What is left over fits where it is written. -/
theorem toNat_change (fits : sum < coinBound) :
    (UInt64.ofNat (sum - amount.toNat)).toNat = sum - amount.toNat :=
  UInt64.toNat_ofNat_of_lt' (Nat.lt_of_le_of_lt (Nat.sub_le _ _) fits)

theorem total_paymentOutputs_worthTo (enough : amount.toNat ≤ sum) (fits : sum < coinBound)
    (h : Hash) :
    total ((paymentOutputs recipient owner amount sum).map (Output.worthTo h)) =
      (if recipient.bytes = h.bytes then amount.toNat else 0) +
        if owner.bytes = h.bytes then sum - amount.toNat else 0 := by
  rw [paymentOutputs]
  split
  · simp only [List.map_cons, List.map_nil, total_cons, total_nil, Output.worthTo, toNat_change fits,
      Nat.add_zero]
  · have nothing : sum - amount.toNat = 0 := by omega
    simp only [List.map_cons, List.map_nil, total_cons, total_nil, Output.worthTo, nothing, ite_self]

theorem total_paymentOutputs (enough : amount.toNat ≤ sum) (fits : sum < coinBound) :
    total ((paymentOutputs recipient owner amount sum).map fun o => o.value.toNat) = sum := by
  rw [paymentOutputs]
  split
  · simp only [List.map_cons, List.map_nil, total_cons, total_nil, toNat_change fits]
    omega
  · simp only [List.map_cons, List.map_nil, total_cons, total_nil]
    omega

theorem values_paymentOutputs (fits : sum < coinBound) :
    (paymentOutputs recipient owner amount sum).map (fun o => (o.owner, o.value.toNat)) =
      (recipient, amount.toNat) ::
        if amount.toNat < sum then [(owner, sum - amount.toNat)] else [] := by
  rw [paymentOutputs, List.map_cons]
  split
  · rw [List.map_singleton, toNat_change fits]
  · rfl

end Outputs

/-- What a finished payment says: it takes in all that the signer owns, under one signature of what
it pays, and pays out as much, to the recipient and what is left to the signer. -/
structure Body.Pays (b : Body) (signer : Signer) (recipient : Hash) (coins : Nat)
    (owned : List Spendable) : Prop where
  outpoints : b.outpoints = owned.map Spendable.outpoint
  signed : ∀ i ∈ b.inputs,
    i.unlock = some ⟨signer.publicKey, signer.sign b.signingPayload⟩
  outputs : b.outputs.map (fun o => (o.owner, o.value.toNat)) =
    (recipient, coins) ::
      if coins < spendableSum owned then
        [(signer.publicKey.address, spendableSum owned - coins)]
      else []
  outputSum : b.outputSum = spendableSum owned
  schema : b.checkSchema = .ok () ↔ ∀ s ∈ owned, 0 ≤ s.outpoint.index

/-- The answers to a request for a payment out of what the signer owns: three refusals, each with
the case in which it comes, and the payment in all other cases. -/
structure AnswersSpend (signer : Signer) (recipient : Hash) (amount : Int64)
    (owned : List Spendable) (answer : Except CashError Transaction) : Prop where
  negative : answer = .error (.negativeAmount amount) ↔ amount < 0
  overflow : answer = .error .overflow ↔ 0 ≤ amount ∧ coinBound ≤ spendableSum owned
  short : answer = .error (.insufficientFunds amount.toNatClampNeg (spendableSum owned)) ↔
    0 ≤ amount ∧ spendableSum owned < coinBound ∧
      (owned = [] ∨ spendableSum owned < amount.toNatClampNeg)
  built : (∃ tx, answer = .ok tx) ↔
    0 ≤ amount ∧ spendableSum owned < coinBound ∧ owned ≠ [] ∧
      amount.toNatClampNeg ≤ spendableSum owned
  refusal : ∀ e, answer = .error e → e = .negativeAmount amount ∨ e = .overflow ∨
    e = .insufficientFunds amount.toNatClampNeg (spendableSum owned)
  pays : ∀ tx, answer = .ok tx → tx.body.Pays signer recipient amount.toNatClampNeg owned

section Answers

variable {signer : Signer} {recipient : Hash} {amount : Int64} {owned : List Spendable}

theorem pays_paymentBody (nonneg : 0 ≤ amount) (some : owned ≠ [])
    (enough : amount.toNatClampNeg ≤ spendableSum owned) (fits : spendableSum owned < coinBound) :
    (paymentBody signer recipient amount.toUInt64 owned).Pays signer recipient
      amount.toNatClampNeg owned := by
  have coins := Int64.toNat_toUInt64_of_le nonneg
  rw [← coins] at enough ⊢
  exact
    { outpoints := paymentBody_outpoints _ _ _ _
      signed := fun _ => paymentBody_unlock _ _ _ _
      outputs := values_paymentOutputs fits
      outputSum := total_paymentOutputs enough fits
      schema := checkSchema_paymentBody_iff some }

end Answers

/-- Every request for a payment, for any amount and out of any outputs, is answered as their owners and
values say. -/
theorem buildSpend_exact (signer : Signer) (recipient : Hash) (amount : Int64)
    (available : List Spendable) :
    AnswersSpend signer recipient amount (ownedBy signer.publicKey.address available)
      (buildSpend signer recipient amount available) := by
  by_cases nonneg : 0 ≤ amount
  · rw [buildSpend_of_nonneg nonneg]
    generalize ownedBy signer.publicKey.address available = owned
    have positive : ¬amount < 0 := Int64.not_lt.2 nonneg
    by_cases excess : coinBound ≤ spendableSum owned
    · have unfit := Nat.not_lt_of_le excess
      rw [if_pos excess]
      constructor <;> simp [positive, nonneg, excess, unfit]
    have fits := Nat.lt_of_not_le excess
    rw [if_neg excess]
    by_cases short : owned = [] ∨ spendableSum owned < amount.toNatClampNeg
    · have unbuilt : ¬(owned ≠ [] ∧ amount.toNatClampNeg ≤ spendableSum owned) := fun built =>
        short.elim built.1 (Nat.not_lt_of_le built.2)
      rw [if_pos short]
      constructor <;> simp [positive, nonneg, excess, fits, short, unbuilt]
    · obtain ⟨some, enough⟩ := not_or.1 short
      have covered := Nat.le_of_not_lt enough
      rw [if_neg short]
      constructor
      case pays =>
        rintro _ ⟨⟩
        exact pays_paymentBody nonneg some covered fits
      all_goals simp [positive, nonneg, excess, fits, some, enough, covered]
  · have negative := Int64.not_le.1 nonneg
    have refused : Amount.ofInt64 amount = .error (.negativeAmount amount) := if_pos negative
    simp only [buildSpend, refused]
    constructor <;> simp [negative, nonneg]

end CoinLedger
