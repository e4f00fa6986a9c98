import CoinLedger.Transaction.Basic

/-!
Why an operation on cash is refused, and how each cause is worded. A refused operation leaves every
ledger as it was.
-/

namespace CoinLedger

inductive CashError where
  | negativeAmount (value : Int64)
  | amountText (text : String)
  | amountTextRange (text : String)
  | amountRange (value : UInt64)
  | insufficientFunds (requested available : Nat)
  | unknownOutput (outpoint : OutPoint)
  | notOwner (outpoint : OutPoint)
  | badSignature (input : Nat)
  | malformed (cause : Malformed)
  | alreadySpent (outpoint : OutPoint)
  | unbalanced (inputs outputs : Nat)
  | overflow
  | noBeneficiaries
  | unauthorized (organization : String)
  | queueFull
  | queueClosed
  deriving DecidableEq

def CashError.message : CashError → String
  | .negativeAmount value => s!"invalid amount: {value.toInt} is negative"
  | .amountText text => s!"invalid amount: {Text.quoted text} is not a whole number"
  | .amountTextRange text => s!"invalid amount: {Text.quoted text} is out of range"
  | .amountRange value => s!"invalid amount: {value.toNat} is out of range"
  | .insufficientFunds requested available =>
    s!"insufficient funds: requested {requested}, available {available}"
  | .unknownOutput outpoint => s!"input references unknown output {outpoint.text}"
  | .notOwner outpoint => s!"public key does not own output {outpoint.text}"
  | .badSignature input => s!"signature verification failed for input {input}"
  | .malformed cause => s!"malformed message: {cause.detail}"
  | .alreadySpent outpoint => s!"output {outpoint.text} is already spent"
  | .unbalanced inputs outputs => s!"outputs ({outputs}) exceed inputs ({inputs})"
  | .overflow => "value overflow"
  | .noBeneficiaries => "issuance needs at least one beneficiary"
  | .unauthorized organization =>
    s!"not authorized to issue coins in organization {organization}"
  | .queueFull => "transport error: outbound queue full"
  | .queueClosed => "transport error: outbound queue closed"

def CashError.ofForm {α : Type} : Except Malformed α → Except CashError α
  | .ok a => .ok a
  | .error cause => .error (.malformed cause)

end CoinLedger
