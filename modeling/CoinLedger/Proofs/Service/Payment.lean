import CoinLedger.Proofs.Ledger.Payment
import CoinLedger.Proofs.Service.Delivery

/-!
A payment from the signer to the ledger. Main statement: when sending one fails and with what, that
its delivery is accepted unless the recipient's balance would go out of bounds, and what has changed
then.
-/

namespace CoinLedger

theorem keysOnCurve_paymentBody {signer : Signer} {recipient : Hash} {amount : UInt64}
    {owned : List Spendable} (point : signer.publicKey.isPoint = true) :
    (paymentBody signer recipient amount owned).KeysOnCurve := by
  intro i member u shown
  rw [paymentBody_unlock signer recipient amount owned member] at shown
  cases shown
  exact point

namespace Service

variable {l : Ledger} {registry : Registry} {outbox : Outbox} {organization : String}
  {signer : Signer} {recipient : Hash} {amount : Int64}

theorem build_payment (signer : Signer) (recipient : Hash)
    (faithful : (l.book organization).Faithful) (nonneg : 0 ≤ amount) :
    buildSpend signer recipient amount (l.spendable organization signer.publicKey.address) =
      if l.spendable organization signer.publicKey.address = [] ∨
          l.balance organization signer.publicKey.address < amount.toNatClampNeg then
        .error (.insufficientFunds amount.toNatClampNeg
          (l.balance organization signer.publicKey.address))
      else .ok ((l.book organization).payment signer recipient amount.toUInt64) := by
  have own : ∀ s ∈ l.spendable organization signer.publicKey.address,
      s.owner.bytes = signer.publicKey.address.bytes := by
    intro s member
    rw [Ledger.spendable, faithful.spendable_eq] at member
    obtain ⟨e, _, rfl⟩ := List.mem_map.1 member
    rfl
  have sum : spendableSum (l.spendable organization signer.publicKey.address) =
      l.balance organization signer.publicKey.address := faithful.spendableSum_eq _
  have fits : spendableSum (l.spendable organization signer.publicKey.address) < coinBound := by
    rw [sum, Ledger.balance, faithful.balances]
    exact faithful.lawful.owed_lt _
  rw [buildSpend_eq nonneg own fits, sum]
  rfl

theorem send_of_error {e : CashError}
    (built : buildSpend signer recipient amount
      (l.spendable organization signer.publicKey.address) = .error e) :
    (Service.mk l registry outbox).send organization signer recipient amount = .error e := by
  simp only [send, built]
  rfl

theorem send_of_ok (opened : outbox.closed = false) (room : outbox.queue.length < outbox.capacity)
    {tx : Transaction}
    (built : buildSpend signer recipient amount
      (l.spendable organization signer.publicKey.address) = .ok tx) :
    (Service.mk l registry outbox).send organization signer recipient amount =
      .ok (⟨l, registry, { outbox with queue := outbox.queue ++ [.of organization tx] }⟩, tx) :=
  built_eq_ok_iff.2 ⟨built, submit_eq_ok_iff.2 ⟨opened, room, rfl⟩⟩

theorem deliver_payment (payable : (l.book organization).Payable signer recipient amount.toUInt64)
    (nameable : Channel.Nameable organization) (sender : PublicKey) :
    (Service.mk l registry outbox).deliver
      ((Outbound.of organization
        ((l.book organization).payment signer recipient amount.toUInt64)).delivery sender) =
      (l.apply organization ((l.book organization).payment signer recipient amount.toUInt64)).map
        fun (ledger, outcome) => (⟨ledger, registry, outbox⟩, outcome) := by
  have keyed : ((l.book organization).payment signer recipient amount.toUInt64).body.KeysOnCurve :=
    keysOnCurve_paymentBody (PublicKey.isPoint_of_verify payable.signed)
  have spend : ((l.book organization).payment signer recipient
      amount.toUInt64).body.isCoinbase = false := isCoinbase_paymentBody
  rw [deliver, Ledger.deliver_delivery nameable payable.schema keyed fun coinbase => ?_]
  rw [spend] at coinbase
  exact nomatch coinbase

def NothingOpen (log : List Transaction) (owner : Hash) : Prop :=
  ∀ e ∈ Log.payments log, e.2.owner.bytes = owner.bytes → Log.Claimed log e.1

theorem spendable_eq_nil_iff (faithful : (l.book organization).Faithful)
    (strict : (l.book organization).mode = .strictUtxo) (owner : Hash) :
    l.spendable organization owner = [] ↔ NothingOpen (l.log organization) owner := by
  rw [Ledger.spendable, faithful.spendable_eq, strict, List.map_eq_nil_iff, Log.openFor,
    List.filter_eq_nil_iff]
  refine forall_congr' fun e => forall_congr' fun _ => ?_
  simp [Log.Consumed, Ledger.log]

/-- The signer cannot pay the amount: there is nothing to spend, or it is not worth enough. -/
def Unfunded (l : Ledger) (organization : String) (owner : Hash) (coins : Nat) : Prop :=
  NothingOpen (l.log organization) owner ∨ l.balance organization owner < coins

/-- The payment is too much for what the recipient has: its balance would go out of bounds. -/
def Overflows (l : Ledger) (organization : String) (payer recipient : Hash) (coins : Nat) : Prop :=
  payer.bytes ≠ recipient.bytes ∧ coinBound ≤ l.balance organization recipient + coins

/-- What an applied payment has changed, and all that it has changed. -/
structure Paid (l next : Ledger) (organization : String) (signer : Signer) (recipient : Hash)
    (amount : Int64) (tx : Transaction) : Prop where
  log : next.log organization = l.log organization ++ [tx]
  elsewhere : ∀ other, other ≠ organization → next.book other = l.book other
  balances : ∀ owner, next.balance organization owner = (l.book organization).balanceAfter
    signer.publicKey.address recipient amount.toNatClampNeg owner
  spendable : next.spendable organization signer.publicKey.address =
    (l.book organization).spendableAfter signer recipient amount.toUInt64 tx.id

theorem apply_payment_of_overflows
    (payable : (l.book organization).Payable signer recipient amount.toUInt64) (nonneg : 0 ≤ amount)
    (excess : Overflows l organization signer.publicKey.address recipient amount.toNatClampNeg) :
    l.apply organization ((l.book organization).payment signer recipient amount.toUInt64) =
      .error .overflow := by
  rw [Overflows, ← Int64.toNat_toUInt64_of_le nonneg] at excess
  have unbounded := fun bounded => payable.owed_lt_iff.1 bounded excess
  obtain ⟨owner, more⟩ := Classical.not_forall.1 unbounded
  exact Ledger.apply_of_owed_ge payable.faithful payable.valid (Nat.le_of_not_lt more)

theorem apply_payment_of_not_overflows
    (payable : (l.book organization).Payable signer recipient amount.toUInt64) (nonneg : 0 ≤ amount)
    (fits : ¬Overflows l organization signer.publicKey.address recipient amount.toNatClampNeg) :
    ∃ next, l.apply organization
        ((l.book organization).payment signer recipient amount.toUInt64) = .ok (next, .applied) ∧
      Paid l next organization signer recipient amount
        ((l.book organization).payment signer recipient amount.toUInt64) := by
  have coins := Int64.toNat_toUInt64_of_le nonneg
  rw [Overflows, ← coins] at fits
  obtain ⟨next, applied, appends⟩ :=
    Ledger.apply_of_owed_lt payable.faithful payable.valid (payable.owed_lt_iff.2 fits)
  refine ⟨next, applied, appends.log, appends.elsewhere, ?_, ?_⟩
  · intro owner
    rw [appends.balance, Ledger.log, payable.owed_snoc, coins]
  · exact payable.spendable_eq_of_log appends.faithful (appends.mode.trans payable.strict) appends.log

/-- From a payment sent to the same payment delivered, on any ledger that transactions can lead to.
Sending fails exactly for lack of funds. What was sent is applied when it comes back, whoever the
sender is, unless it brings another owner's balance out of bounds. -/
theorem send_then_deliver {attempts : List (String × Transaction)}
    (reached : (Ledger.empty .strictUtxo).after attempts = l)
    (nonempty : organization ≠ "") (plain : '/' ∉ organization.toList)
    (opened : outbox.closed = false) (room : outbox.queue.length < outbox.capacity)
    (nonneg : 0 ≤ amount)
    (signed : ∀ tx, buildSpend signer recipient amount
        (l.spendable organization signer.publicKey.address) = .ok tx →
      signer.publicKey.verify tx.body.signingPayload (signer.sign tx.body.signingPayload) = true)
    (unique : ∀ tx, buildSpend signer recipient amount
        (l.spendable organization signer.publicKey.address) = .ok tx →
      ∀ t ∈ l.log organization, t.id.bytes = tx.id.bytes → t.body = tx.body) :
    (Unfunded l organization signer.publicKey.address amount.toNatClampNeg →
      (Service.mk l registry outbox).send organization signer recipient amount =
        .error (.insufficientFunds amount.toNatClampNeg
          (l.balance organization signer.publicKey.address))) ∧
    (¬Unfunded l organization signer.publicKey.address amount.toNatClampNeg →
      ∃ tx sent, (Service.mk l registry outbox).send organization signer recipient amount =
          .ok (⟨l, registry, sent⟩, tx) ∧
        sent = { outbox with queue := outbox.queue ++ [.of organization tx] } ∧
        ∀ sender,
          (Overflows l organization signer.publicKey.address recipient amount.toNatClampNeg →
            (Service.mk l registry sent).deliver ((Outbound.of organization tx).delivery sender) =
              .error .overflow) ∧
          (¬Overflows l organization signer.publicKey.address recipient amount.toNatClampNeg →
            ∃ next,
              (Service.mk l registry sent).deliver ((Outbound.of organization tx).delivery sender) =
                .ok (⟨next, registry, sent⟩, .applied) ∧
              Paid l next organization signer recipient amount tx)) := by
  have faithful := Ledger.faithful_book reached organization
  have strict := Ledger.mode_book reached organization
  have nothing := spendable_eq_nil_iff faithful strict signer.publicKey.address
  refine ⟨fun unfunded => ?_, fun funded => ?_⟩
  · rw [Unfunded, ← nothing] at unfunded
    refine send_of_error ?_
    rw [build_payment signer recipient faithful nonneg, if_pos unfunded]
  · rw [Unfunded, ← nothing] at funded
    have built := build_payment signer recipient faithful nonneg
    rw [if_neg funded] at built
    have enough : amount.toUInt64.toNat ≤ l.balance organization signer.publicKey.address := by
      rw [Int64.toNat_toUInt64_of_le nonneg]
      exact Nat.le_of_not_lt fun less => funded (.inr less)
    have payable : (l.book organization).Payable signer recipient amount.toUInt64 :=
      ⟨faithful, strict, fun none => funded (.inl none), enough, signed _ built, unique _ built⟩
    refine ⟨_, _, send_of_ok opened room built, rfl, fun sender => ⟨fun excess => ?_, fun fits => ?_⟩⟩
    · rw [deliver_payment payable ⟨nonempty, plain⟩ sender,
        apply_payment_of_overflows payable nonneg excess]
      rfl
    · obtain ⟨next, applied, paid⟩ := apply_payment_of_not_overflows payable nonneg fits
      refine ⟨next, ?_, paid⟩
      rw [deliver_payment payable ⟨nonempty, plain⟩ sender, applied]
      rfl

/-! A payment of thirty coins out of a hundred that were granted. -/

section Thirty

set_option maxRecDepth 100000

def payerKey : PublicKey :=
  ⟨[138, 136, 227, 221, 116, 9, 241, 149, 253, 82, 219, 45, 60, 186, 93, 114, 202, 103, 9, 191, 29,
    148, 18, 27, 243, 116, 136, 1, 180, 15, 111, 92], rfl⟩

def payerAddress : Hash :=
  ⟨"NHUPmL1Z_PyUbaRaqr6TO-FUpLU=", [52, 117, 15, 152, 189, 89, 252, 252, 148, 109, 164, 90, 170,
    190, 147, 59, 225, 84, 164, 181], rfl, by decide⟩

theorem address_payerKey : payerKey.address = payerAddress := by decide +kernel

def grantBody : Body := ⟨protocolVersion, [.coinbase], [⟨100, payerAddress⟩], 0, by decide⟩

def grantId : Hash :=
  ⟨"OqWuNvN1CsjL4K3rogqD7c_Pjot16xGcZWaMk9Bu0e8=", [58, 165, 174, 54, 243, 117, 10, 200, 203, 224,
    173, 235, 162, 10, 131, 237, 207, 207, 142, 139, 117, 235, 17, 156, 101, 102, 140, 147, 208, 110,
    209, 239], rfl, by decide⟩

def grant : Transaction := ⟨grantId, grantBody, by decide +kernel⟩

def granted : Ledger := (Ledger.empty .strictUtxo).after [("org", grant)]

def payee : Hash := ⟨"AQID", [1, 2, 3], rfl, by decide⟩

/-- A signer that knows its signature on this one payment. -/
def payer : Signer where
  publicKey := payerKey
  sign _ :=
    ⟨[105, 151, 85, 50, 167, 15, 44, 141, 230, 28, 157, 131, 12, 51, 120, 24, 28, 135, 9, 59, 106, 132,
      186, 185, 191, 112, 79, 178, 64, 154, 38, 255, 58, 118, 109, 130, 142, 174, 63, 70, 54, 31, 9,
      97, 221, 11, 58, 226, 79, 191, 231, 229, 77, 81, 114, 117, 59, 185, 70, 106, 156, 167, 223, 8],
      rfl⟩

theorem book_granted : granted.book "org" = (Book.empty .strictUtxo).after [grant] := by
  rw [granted, Ledger.book_after, Ledger.book_empty]
  rfl

theorem log_granted : granted.log "org" = [grant] := by
  rw [Ledger.log, book_granted]
  decide +kernel

theorem mode_granted : (granted.book "org").mode = .strictUtxo := Ledger.mode_book rfl "org"

theorem faithful_granted : (granted.book "org").Faithful := Ledger.faithful_book rfl "org"

theorem spendable_granted :
    granted.spendable "org" payerAddress = [⟨⟨grantId, 0⟩, payerAddress, 100⟩] := by
  rw [Ledger.spendable, faithful_granted.spendable_eq, mode_granted, ← Ledger.log, log_granted]
  decide +kernel

theorem balance_granted (owner : Hash) :
    granted.balance "org" owner = Log.owed .strictUtxo [grant] owner := by
  rw [Ledger.balance, faithful_granted.balances, mode_granted, ← Ledger.log, log_granted]

theorem build_thirty :
    buildSpend payer payee 30 (granted.spendable "org" payer.publicKey.address) =
      .ok (.ofBody (paymentBody payer payee 30 [⟨⟨grantId, 0⟩, payerAddress, 100⟩])) := by
  change buildSpend payer payee 30 (granted.spendable "org" payerKey.address) = _
  rw [address_payerKey, spendable_granted, buildSpend_eq (by decide) ?_ (by decide), if_neg (by decide)]
  · rfl
  · intro s member
    rw [List.mem_singleton.1 member]
    exact congrArg Hash.bytes address_payerKey.symm

def thirtyPayload : List UInt8 :=
  [79, 113, 87, 117, 78, 118, 78, 49, 67, 115, 106, 76, 52, 75, 51, 114, 111, 103, 113, 68, 55, 99, 95,
    80, 106, 111, 116, 49, 54, 120, 71, 99, 90, 87, 97, 77, 107, 57, 66, 117, 48, 101, 56, 61, 48, 51,
    48, 80, 50, 80, 75, 72, 65, 81, 73, 68, 55, 48, 80, 50, 80, 75, 72, 78, 72, 85, 80, 109, 76, 49,
    90, 95, 80, 121, 85, 98, 97, 82, 97, 113, 114, 54, 84, 79, 45, 70, 85, 112, 76, 85, 61]

theorem signingPayload_thirty :
    (paymentBody payer payee 30 [⟨⟨grantId, 0⟩, payerAddress, 100⟩]).signingPayload =
      thirtyPayload := by
  rw [Body.signingPayload, paymentBody_outpoints, paymentBody_outputs]
  change CoinLedger.signingPayload _ (paymentOutputs _ payerKey.address _ _) = _
  rw [address_payerKey]
  decide +kernel

theorem verify_thirty :
    payer.publicKey.verify thirtyPayload (payer.sign thirtyPayload) = true := by decide +kernel

theorem id_paymentBody_thirty :
    (paymentBody payer payee 30 [⟨⟨grantId, 0⟩, payerAddress, 100⟩]).id.bytes =
      [10, 195, 7, 89, 23, 119, 240, 136, 174, 56, 16, 24, 75, 22, 163, 4, 91, 26, 141, 217, 4, 109,
        19, 141, 167, 4, 164, 236, 143, 207, 68, 161] := by
  decide +kernel

theorem id_thirty_ne :
    (paymentBody payer payee 30 [⟨⟨grantId, 0⟩, payerAddress, 100⟩]).id.bytes ≠ grantId.bytes := by
  rw [id_paymentBody_thirty]
  decide

theorem send_then_deliver_thirty :
    ∃ tx sent next, (Service.mk granted .empty (.ofCapacity 1)).send "org" payer payee 30 =
        .ok (⟨granted, .empty, sent⟩, tx) ∧
      (Service.mk granted .empty sent).deliver ((Outbound.of "org" tx).delivery payerKey) =
        .ok (⟨next, .empty, sent⟩, .applied) ∧
      Paid granted next "org" payer payee 30 tx := by
  have funded : ¬Unfunded granted "org" payer.publicKey.address 30 := by
    change ¬Unfunded granted "org" payerKey.address 30
    rw [Unfunded, NothingOpen, log_granted, balance_granted, address_payerKey]
    decide +kernel
  have fits : ¬Overflows granted "org" payer.publicKey.address payee 30 := by
    rw [Overflows, balance_granted]
    exact fun excess => absurd excess.2 (by decide +kernel)
  have signed : ∀ tx, buildSpend payer payee 30
        (granted.spendable "org" payer.publicKey.address) = .ok tx →
      payer.publicKey.verify tx.body.signingPayload (payer.sign tx.body.signingPayload) = true := by
    intro tx built
    cases Except.ok.inj (build_thirty.symm.trans built)
    change payer.publicKey.verify (paymentBody _ _ _ _).signingPayload _ = true
    rw [signingPayload_thirty]
    exact verify_thirty
  have unique : ∀ tx, buildSpend payer payee 30
        (granted.spendable "org" payer.publicKey.address) = .ok tx →
      ∀ t ∈ granted.log "org", t.id.bytes = tx.id.bytes → t.body = tx.body := by
    intro tx built t logged same
    cases Except.ok.inj (build_thirty.symm.trans built)
    rw [log_granted] at logged
    cases List.mem_singleton.1 logged
    exact absurd same.symm id_thirty_ne
  obtain ⟨tx, sent, queued, _, delivered⟩ :=
    (@send_then_deliver granted .empty (.ofCapacity 1) "org" payer payee 30 [("org", grant)] rfl
      (by decide) (by decide) rfl (by decide) (by decide) signed unique).2 funded
  obtain ⟨next, applied, paid⟩ := (delivered payerKey).2 fits
  exact ⟨tx, sent, next, queued, applied, paid⟩

/-- The payment of thirty coins, as the book of the grant lets the payer build it. -/
def thirty : Transaction := (granted.book "org").payment payer payee (30 : Int64).toUInt64

theorem spendable_payer :
    (granted.book "org").spendable payer.publicKey.address =
      [⟨⟨grantId, 0⟩, payerAddress, 100⟩] := by
  change granted.spendable "org" payerKey.address = _
  rw [address_payerKey, spendable_granted]

theorem balance_payer : (granted.book "org").balance payer.publicKey.address = 100 := by
  change granted.balance "org" payerKey.address = _
  rw [address_payerKey, balance_granted]
  decide +kernel

theorem body_thirty :
    thirty.body = paymentBody payer payee 30 [⟨⟨grantId, 0⟩, payerAddress, 100⟩] := by
  rw [← spendable_payer]
  rfl

theorem payable_granted : (granted.book "org").Payable payer payee (30 : Int64).toUInt64 where
  faithful := faithful_granted
  strict := mode_granted
  funded := by simp [spendable_payer]
  enough := by
    rw [balance_payer]
    decide
  signed := by
    change payer.publicKey.verify thirty.body.signingPayload
      (payer.sign thirty.body.signingPayload) = true
    rw [body_thirty, signingPayload_thirty]
    exact verify_thirty
  unique t logged same := by
    change t ∈ granted.log "org" at logged
    change t.id.bytes = thirty.id.bytes at same
    rw [log_granted] at logged
    cases List.mem_singleton.1 logged
    rw [thirty.id_eq, body_thirty] at same
    exact absurd same.symm id_thirty_ne

theorem deliver_thirty (outbox : Outbox) (sender : PublicKey) :
    ∃ next, (Service.mk granted .empty outbox).deliver ((Outbound.of "org" thirty).delivery sender) =
        .ok (⟨next, .empty, outbox⟩, .applied) ∧
      Paid granted next "org" payer payee 30 thirty := by
  have fits : ¬Overflows granted "org" payer.publicKey.address payee 30 := by
    rw [Overflows, balance_granted]
    exact fun excess => absurd excess.2 (by decide +kernel)
  obtain ⟨next, applied, paid⟩ :=
    apply_payment_of_not_overflows payable_granted (by decide) fits
  refine ⟨next, ?_, paid⟩
  rw [thirty, deliver_payment payable_granted ⟨by decide, by decide⟩ sender, applied]
  rfl

end Thirty

end Service

end CoinLedger
