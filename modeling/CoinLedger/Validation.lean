import CoinLedger.Error

/-!
The two ways of keeping balances, and the check of a transaction against the outputs it claims. A
coinbase transaction passes once its form is sound: whether its issuer may make money is decided
elsewhere. Under the strict mode an output is spent at most once and a transaction pays out no more
than it takes in.
-/

namespace CoinLedger

/-- How spent outputs affect balances. -/
inductive Accounting where
  /-- Outputs only ever credit their owner; a spend debits nobody. -/
  | runningCredit
  /-- An output is spent once and debited from its owner. -/
  | strictUtxo
  deriving DecidableEq, Repr

namespace Accounting

def name : Accounting → String
  | .runningCredit => "running-credit"
  | .strictUtxo => "strict-utxo"

def ofName? (s : String) : Option Accounting :=
  if s = "running-credit" then some .runningCredit
  else if s = "strict-utxo" then some .strictUtxo
  else none

end Accounting

/-- Sums of coins stay below this bound, 2^64. -/
def coinBound : Nat := UInt64.size

structure OutputRecord where
  owner : Hash
  value : UInt64
  spent : Bool
  deriving DecidableEq

/-- What an accepted transaction consumes, and what that is worth. -/
structure Accepted where
  consumed : List OutPoint
  inputValue : Nat
  deriving DecidableEq

namespace Validation

variable (lookup : OutPoint → Option OutputRecord) (mode : Accounting) (payload : List UInt8)

/-- The record that the input at `place` may spend. `seen` are the outpoints of the inputs before
it. -/
def checkInput (place : Nat) (seen : List OutPoint) (i : Input) : Except CashError OutputRecord :=
  match lookup i.outpoint with
  | none => .error (.unknownOutput i.outpoint)
  | some record =>
    match i.unlock with
    | none => .error (.malformed (.noScript place))
    | some u =>
      if u.key.address.bytes ≠ record.owner.bytes then .error (.notOwner i.outpoint)
      else if u.key.verify payload u.signature = false then .error (.badSignature place)
      else if mode = .strictUtxo ∧ (record.spent ∨ ∃ o ∈ seen, o.Same i.outpoint) then
        .error (.alreadySpent i.outpoint)
      else .ok record

/-- The worth of the inputs from `place` on, added to the sum so far. -/
def checkInputs : (place : Nat) → (seen : List OutPoint) → (sum : Nat) → List Input →
    Except CashError Nat
  | _, _, sum, [] => .ok sum
  | place, seen, sum, i :: rest =>
    match checkInput lookup mode payload place seen i with
    | .error e => .error e
    | .ok record =>
      if sum + record.value.toNat < coinBound then
        checkInputs (place + 1) (i.outpoint :: seen) (sum + record.value.toNat) rest
      else .error .overflow

end Validation

/-- Checks a transaction against known outputs. -/
def validate (tx : Transaction) (lookup : OutPoint → Option OutputRecord) (mode : Accounting) :
    Except CashError Accepted :=
  match tx.body.checkSchema with
  | .error cause => .error (.malformed cause)
  | .ok () =>
    if coinBound ≤ tx.body.outputSum then .error .overflow
    else if tx.body.isCoinbase then .ok ⟨[], 0⟩
    else match Validation.checkInputs lookup mode tx.body.signingPayload 0 [] 0 tx.body.inputs with
      | .error e => .error e
      | .ok total =>
        if mode = .strictUtxo ∧ total < tx.body.outputSum then
          .error (.unbalanced total tx.body.outputSum)
        else .ok ⟨tx.body.outpoints, total⟩

end CoinLedger
