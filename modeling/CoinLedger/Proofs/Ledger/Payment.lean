import CoinLedger.Proofs.Ledger.Spendable
import CoinLedger.Proofs.Spend

/-!
The payment that a signer builds out of everything it may spend, applied to the book it was built
from. Main statements: the payment is valid, it settles unless it brings the recipient out of bounds,
and what every balance and the signer's spendable outputs are then.
-/

namespace CoinLedger

namespace Book

/-- The payment out of all that the book lets the signer spend. -/
def payment (b : Book) (signer : Signer) (recipient : Hash) (amount : UInt64) : Transaction :=
  .ofBody (paymentBody signer recipient amount (b.spendable signer.publicKey.address))

/-- The balances after a transfer: no change when payer and recipient are the same. -/
def balanceAfter (b : Book) (payer recipient : Hash) (amount : Nat) (owner : Hash) : Nat :=
  if payer.bytes = recipient.bytes then b.balance owner
  else if owner.bytes = payer.bytes then b.balance owner - amount
  else if owner.bytes = recipient.bytes then b.balance owner + amount
  else b.balance owner

def spendableAfter (b : Book) (signer : Signer) (recipient : Hash) (amount : UInt64) (id : Hash) :
    List Spendable :=
  (if recipient.bytes = signer.publicKey.address.bytes then
    [⟨outPointAt id 0, signer.publicKey.address, amount⟩]
  else []) ++
    if amount.toNat < b.balance signer.publicKey.address then
      [⟨outPointAt id 1, signer.publicKey.address,
        UInt64.ofNat (b.balance signer.publicKey.address - amount.toNat)⟩]
    else []

/-- A payment that can be built: the coins are there, the signature holds, and the id is not that of
another logged transaction. -/
structure Payable (b : Book) (signer : Signer) (recipient : Hash) (amount : UInt64) : Prop where
  faithful : b.Faithful
  strict : b.mode = .strictUtxo
  funded : b.spendable signer.publicKey.address ≠ []
  enough : amount.toNat ≤ b.balance signer.publicKey.address
  signed : signer.publicKey.verify (b.payment signer recipient amount).body.signingPayload
    (signer.sign (b.payment signer recipient amount).body.signingPayload) = true
  unique : ∀ t ∈ b.log, t.id.bytes = (b.payment signer recipient amount).id.bytes →
    t.body = (b.payment signer recipient amount).body

namespace Payable

variable {b : Book} {signer : Signer} {recipient : Hash} {amount : UInt64}

section Inputs

theorem outpoints_eq (h : b.Payable signer recipient amount) :
    (b.payment signer recipient amount).body.outpoints =
      (Log.openFor .strictUtxo b.log signer.publicKey.address).map Prod.fst := by
  change (paymentBody _ _ _ _).outpoints = _
  rw [paymentBody_outpoints, h.faithful.spendable_eq, h.strict, List.map_map]
  rfl

theorem open_of_mem (h : b.Payable signer recipient amount) {o : OutPoint}
    (member : o ∈ (b.payment signer recipient amount).body.outpoints) :
    ∃ output, Log.outputAt? b.log o = some output ∧
      output.owner.bytes = signer.publicKey.address.bytes ∧ ¬Log.Claimed b.log o := by
  rw [h.outpoints_eq] at member
  obtain ⟨e, kept, rfl⟩ := List.mem_map.1 member
  obtain ⟨logged, owns, free⟩ := Log.mem_openFor_iff.1 kept
  have found := h.faithful.lawful.distinct.outputAt?_of_mem logged (OutPoint.Same.refl e.1)
  exact ⟨e.2, found, owns, fun claimed => free ⟨rfl, claimed⟩⟩

theorem apart (h : b.Payable signer recipient amount) :
    (b.payment signer recipient amount).body.outpoints.Pairwise fun o p => ¬o.Same p := by
  rw [h.outpoints_eq, List.pairwise_map]
  exact h.faithful.lawful.distinct.payments.filter _

theorem places (h : b.Payable signer recipient amount) :
    ∀ s ∈ b.spendable signer.publicKey.address, 0 ≤ s.outpoint.index :=
  h.faithful.index_nonneg_of_mem_spendable

theorem schema (h : b.Payable signer recipient amount) :
    (b.payment signer recipient amount).body.checkSchema = .ok () :=
  checkSchema_paymentBody h.funded h.places

theorem claimedWorth_eq (h : b.Payable signer recipient amount) (owner : Hash) :
    Log.claimedWorth b.log (b.payment signer recipient amount).body (Output.worthTo owner) =
      if signer.publicKey.address.bytes = owner.bytes then b.balance signer.publicKey.address
      else 0 := by
  have worth : ∀ e ∈ Log.openFor .strictUtxo b.log signer.publicKey.address,
      ((Log.outputAt? b.log e.1).map (Output.worthTo owner)).getD 0 =
        if signer.publicKey.address.bytes = owner.bytes then e.2.value.toNat else 0 := by
    intro e kept
    obtain ⟨logged, owns, _⟩ := Log.mem_openFor_iff.1 kept
    rw [h.faithful.lawful.distinct.outputAt?_of_mem logged (OutPoint.Same.refl e.1)]
    simp only [Option.map_some, Option.getD_some, Output.worthTo, owns]
  rw [Log.claimedWorth, h.outpoints_eq, List.map_map]
  refine Eq.trans (congrArg total (List.map_congr_left worth)) ?_
  by_cases own : signer.publicKey.address.bytes = owner.bytes
  · simp only [if_pos own]
    rw [Log.total_openFor, h.faithful.balances, h.strict]
  · simp only [if_neg own]
    exact total_map_eq_zero fun _ _ => rfl

theorem inputSum_eq (h : b.Payable signer recipient amount) :
    Log.inputSum b.log (b.payment signer recipient amount).body =
      b.balance signer.publicKey.address := by
  have worth := h.claimedWorth_eq signer.publicKey.address
  rw [if_pos rfl] at worth
  rw [← worth, Log.inputSum, Log.claimedWorth, Log.claimedWorth]
  refine congrArg total (List.map_congr_left fun o member => ?_)
  obtain ⟨output, found, owns, _⟩ := h.open_of_mem member
  rw [found]
  simp only [Option.map_some, Option.getD_some, Output.worthTo, if_pos owns]

end Inputs

section Valid

theorem balance_lt (h : b.Payable signer recipient amount) (owner : Hash) :
    b.balance owner < coinBound := by
  rw [h.faithful.balances]
  exact h.faithful.lawful.owed_lt owner

theorem spendableSum_lt (h : b.Payable signer recipient amount) :
    spendableSum (b.spendable signer.publicKey.address) < coinBound := by
  rw [h.faithful.spendableSum_eq]
  exact h.balance_lt _

theorem outputSum_eq (h : b.Payable signer recipient amount) :
    (b.payment signer recipient amount).body.outputSum = b.balance signer.publicKey.address := by
  have enough := h.enough
  rw [← h.faithful.spendableSum_eq] at enough ⊢
  exact total_paymentOutputs enough h.spendableSum_lt

/-- A logged transaction of the same id would have claimed what is still open. -/
theorem fresh (h : b.Payable signer recipient amount) :
    ∀ t ∈ b.log, t.id.bytes ≠ (b.payment signer recipient amount).id.bytes := by
  intro t logged same
  have body := h.unique t logged same
  cases claims : (b.payment signer recipient amount).body.outpoints with
  | nil =>
    have none := h.outpoints_eq
    rw [claims] at none
    refine h.funded ?_
    rw [h.faithful.spendable_eq, h.strict, List.map_eq_nil_iff.1 none.symm]
    rfl
  | cons o rest =>
    have member : o ∈ (b.payment signer recipient amount).body.outpoints := by simp [claims]
    obtain ⟨_, _, _, free⟩ := h.open_of_mem member
    rw [← body] at member
    exact free ⟨o, List.mem_flatMap.2 ⟨t, logged, member⟩, OutPoint.Same.refl o⟩

theorem inputsSound (h : b.Payable signer recipient amount) :
    Validation.InputsSound (Log.recordAt? .strictUtxo b.log) .strictUtxo
      (b.payment signer recipient amount).body.signingPayload []
      (b.payment signer recipient amount).body.inputs where
  opens i member := by
    obtain ⟨output, found, owns, _⟩ := h.open_of_mem (List.mem_map_of_mem member)
    have shown := paymentBody_unlock _ _ _ _ member
    have known : Log.recordAt? .strictUtxo b.log i.outpoint = some ⟨output.owner, output.value,
        decide (Log.Consumed .strictUtxo b.log i.outpoint)⟩ := by
      rw [Log.recordAt?, found]
      rfl
    exact ⟨_, known, _, shown, owns.symm, h.signed⟩
  unspent _ i member record known := by
    obtain ⟨_, _, _, free⟩ := h.open_of_mem (List.mem_map_of_mem member)
    obtain ⟨_, _, rfl⟩ := Log.outputAt?_of_recordAt? known
    exact decide_eq_false fun used => free used.2
  unseen _ _ _ _ none := nomatch none
  apart _ := h.apart

theorem valid (h : b.Payable signer recipient amount) :
    Log.Valid b.mode b.log (b.payment signer recipient amount) := by
  have value : Validation.valueOf (Log.recordAt? .strictUtxo b.log)
      (b.payment signer recipient amount).body.outpoints =
        b.balance signer.publicKey.address := by
    rw [Log.valueOf_recordAt?, h.inputSum_eq]
  rw [h.strict]
  refine ⟨h.schema, h.fresh, ?_, fun _ => ⟨h.inputsSound, ?_, fun _ => ?_⟩⟩
  · rw [h.outputSum_eq]
    exact h.balance_lt _
  · rw [value]
    exact h.balance_lt _
  · exact Nat.le_of_eq (h.outputSum_eq.trans value.symm)

end Valid

section Effect

theorem usedWorth_eq (h : b.Payable signer recipient amount) (owner : Hash) :
    Log.usedWorth b.mode b.log (b.payment signer recipient amount).body (Output.worthTo owner) =
      if signer.publicKey.address.bytes = owner.bytes then b.balance signer.publicKey.address
      else 0 := by
  rw [h.strict]
  exact h.claimedWorth_eq owner

theorem total_worthTo_eq (h : b.Payable signer recipient amount) (owner : Hash) :
    total ((b.payment signer recipient amount).body.outputs.map (Output.worthTo owner)) =
      (if recipient.bytes = owner.bytes then amount.toNat else 0) +
        if signer.publicKey.address.bytes = owner.bytes then
          b.balance signer.publicKey.address - amount.toNat
        else 0 := by
  have enough := h.enough
  rw [← h.faithful.spendableSum_eq] at enough ⊢
  exact total_paymentOutputs_worthTo enough h.spendableSum_lt owner

theorem owed_snoc (h : b.Payable signer recipient amount) (owner : Hash) :
    Log.owed b.mode (b.log ++ [b.payment signer recipient amount]) owner =
      b.balanceAfter signer.publicKey.address recipient amount.toNat owner := by
  have change := h.valid.openWorth_snoc h.faithful.lawful (Output.worthTo owner)
  rw [h.usedWorth_eq, h.total_worthTo_eq, ← Log.owed, ← Log.owed, ← h.faithful.balances] at change
  have enough := h.enough
  unfold balanceAfter
  -- all of the signer's coins go out, and the change comes back: only its own case subtracts
  by_cases own : signer.publicKey.address.bytes = owner.bytes
  · have balance : b.balance signer.publicKey.address = b.balance owner := balanceIn_congr _ own
    simp only [own, if_true] at *
    by_cases self : recipient.bytes = owner.bytes
    · simp only [self, if_true] at *
      omega
    · have other : ¬owner.bytes = recipient.bytes := fun same => self same.symm
      simp only [self, other, if_false] at *
      omega
  · have other : ¬owner.bytes = signer.publicKey.address.bytes := fun same => own same.symm
    by_cases self : recipient.bytes = owner.bytes
    · simp only [own, other, self, if_true, if_false] at *
      omega
    · have away : ¬owner.bytes = recipient.bytes := fun same => self same.symm
      simp only [own, other, away, self, if_false, ite_self] at *
      omega

theorem owed_lt_iff (h : b.Payable signer recipient amount) :
    (∀ owner, Log.owed b.mode (b.log ++ [b.payment signer recipient amount]) owner < coinBound) ↔
      ¬(signer.publicKey.address.bytes ≠ recipient.bytes ∧
        coinBound ≤ b.balance recipient + amount.toNat) := by
  simp only [h.owed_snoc]
  constructor
  · rintro bounded ⟨apart, excess⟩
    have receives := bounded recipient
    have other : ¬recipient.bytes = signer.publicKey.address.bytes := fun same => apart same.symm
    rw [balanceAfter, if_neg apart, if_neg other, if_pos rfl] at receives
    omega
  · intro fits owner
    have before := h.balance_lt owner
    unfold balanceAfter
    split
    · exact before
    split
    · omega
    split
    · next apart _ receives =>
      have same : b.balance owner = b.balance recipient := balanceIn_congr _ receives
      have below : ¬coinBound ≤ b.balance recipient + amount.toNat := fun excess => fits ⟨apart, excess⟩
      omega
    · exact before

/-- The signer may then spend the outputs of the payment that are its own, and no others. -/
theorem openFor_snoc (h : b.Payable signer recipient amount) :
    Log.openFor .strictUtxo (b.log ++ [b.payment signer recipient amount]) signer.publicKey.address =
      (b.payment signer recipient amount).payments.filter
        fun e => e.2.owner.bytes = signer.publicKey.address.bytes := by
  have valid := h.valid
  have lawful := h.faithful.lawful
  rw [h.strict] at valid lawful
  rw [Log.openFor, Log.payments_append, Log.payments_singleton, List.filter_append]
  have old : (Log.payments b.log).filter (fun e =>
      e.2.owner.bytes = signer.publicKey.address.bytes ∧
        ¬Log.Consumed .strictUtxo (b.log ++ [b.payment signer recipient amount]) e.1) = [] := by
    apply List.filter_eq_nil_iff.2
    intro e member kept
    obtain ⟨owns, free⟩ := of_decide_eq_true kept
    have before : ¬Log.Consumed .strictUtxo b.log e.1 := fun used =>
      free ⟨rfl, Log.claimed_snoc_iff.2 (.inl used.2)⟩
    have named : e.1 ∈ (b.payment signer recipient amount).body.outpoints := by
      rw [h.outpoints_eq]
      exact List.mem_map_of_mem (Log.mem_openFor_iff.2 ⟨member, owns, before⟩)
    exact free ⟨rfl, Log.claimed_snoc_iff.2 (.inr ⟨e.1, named, OutPoint.Same.refl e.1⟩)⟩
  rw [old, List.nil_append]
  apply List.filter_congr
  intro e member
  have free : ¬Log.Consumed .strictUtxo (b.log ++ [b.payment signer recipient amount]) e.1 :=
    fun used => valid.unpaid lawful member used.2
  simp [free]

theorem spendable_eq_of_log (h : b.Payable signer recipient amount) {next : Book}
    (faithful : next.Faithful) (strict : next.mode = .strictUtxo)
    (log : next.log = b.log ++ [b.payment signer recipient amount]) :
    next.spendable signer.publicKey.address =
      b.spendableAfter signer recipient amount (b.payment signer recipient amount).id := by
  have outputs : (b.payment signer recipient amount).payments =
      (paymentOutputs recipient signer.publicKey.address amount
        (b.balance signer.publicKey.address)).zipIdx.map
          fun e => (outPointAt (b.payment signer recipient amount).id e.2, e.1) := by
    rw [← h.faithful.spendableSum_eq]
    rfl
  rw [faithful.spendable_eq, strict, log, h.openFor_snoc, outputs, spendableAfter, paymentOutputs]
  by_cases self : recipient.bytes = signer.publicKey.address.bytes
  · split <;> simp [self, asSpendable]
  · split <;> simp [self, asSpendable]

end Effect

end Payable

end Book

end CoinLedger
