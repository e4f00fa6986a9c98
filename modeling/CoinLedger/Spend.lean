import CoinLedger.Validation

/-!
Amounts of coins and payments. Amounts are whole numbers below 2^64; they come from signed 64-bit
numbers or from what a user typed, and spends and issuances take them as signed numbers again. In a
payment every available output of the signer becomes an input, and what is not paid to the recipient
goes back to the signer.
-/

namespace CoinLedger

/-! ### Amounts -/

/-- A whole amount of coins. -/
structure Amount where
  value : UInt64
  deriving DecidableEq

namespace Amount

def ofInt64 (value : Int64) : Except CashError Amount :=
  if value < 0 then .error (.negativeAmount value) else .ok ⟨value.toUInt64⟩

/-- The amount that a user's text names: digits with white space around them. -/
def ofText (text : String) : Except CashError Amount :=
  match Text.natOfDigits? (Text.trim text).toList with
  | none => .error (.amountText text)
  | some n => if n < UInt64.size then .ok ⟨UInt64.ofNat n⟩ else .error (.amountTextRange text)

def toInt64 (a : Amount) : Except CashError Int64 :=
  if a.value.toNat < 1 <<< 63 then .ok (Int64.ofNat a.value.toNat)
  else .error (.amountRange a.value)

end Amount

/-! ### Payments -/

structure Spendable where
  outpoint : OutPoint
  owner : Hash
  value : UInt64
  deriving DecidableEq

def ownedBy (owner : Hash) (available : List Spendable) : List Spendable :=
  available.filter fun s => s.owner.bytes = owner.bytes

def spendableSum (available : List Spendable) : Nat :=
  total (available.map fun s => s.value.toNat)

/-- The payment, and the change if there is any. -/
def paymentOutputs (recipient owner : Hash) (amount : UInt64) (total : Nat) : List Output :=
  ⟨amount, recipient⟩ ::
    if amount.toNat < total then [⟨UInt64.ofNat (total - amount.toNat), owner⟩] else []

theorem length_paymentOutputs_lt (recipient owner : Hash) (amount : UInt64) (total : Nat) :
    (paymentOutputs recipient owner amount total).length < placeBound := by
  unfold paymentOutputs
  split
  · exact (by decide : 2 < placeBound)
  · exact (by decide : 1 < placeBound)

/-- The signed payment of `amount` to `recipient`. One signature serves all inputs. -/
def buildSpend (signer : Signer) (recipient : Hash) (amount : Int64) (available : List Spendable) :
    Except CashError Transaction :=
  match Amount.ofInt64 amount with
  | .error e => .error e
  | .ok amount =>
    let owner := signer.publicKey.address
    let owned := ownedBy owner available
    let total := spendableSum owned
    if coinBound ≤ total then .error .overflow
    else if owned = [] ∨ total < amount.value.toNat then
      .error (.insufficientFunds amount.value.toNat total)
    else
      let outputs := paymentOutputs recipient owner amount.value total
      let outpoints := owned.map Spendable.outpoint
      let unlock : Unlock := ⟨signer.publicKey, signer.sign (signingPayload outpoints outputs)⟩
      .ok (.ofBody {
        version := protocolVersion
        inputs := outpoints.map fun o => ⟨o, some unlock⟩
        outputs := outputs
        lockTime := 0
        outputs_fit := length_paymentOutputs_lt _ _ _ _ })

end CoinLedger
