import CoinLedger.Base64Url.Basic
import CoinLedger.Text.Basic

/-!
What can be wrong with a text, a body or a message before any ledger is asked, and how each fault
is worded.
-/

namespace CoinLedger

/-- Causes for which a value is refused on its own form. Hashes are named by their spelling. -/
inductive Malformed where
  | emptyHash
  | hashText (text : String) (fault : Base64Url.Fault)
  | publicKeyText (fault : Base64Url.Fault)
  | publicKeySize
  | publicKeyPoint
  | signatureText (fault : Base64Url.Fault)
  | signatureSize
  | secretText (fault : Base64Url.Fault)
  | secretSize
  | unsupportedVersion (version : Nat)
  | nonzeroLockTime (lockTime : Nat)
  | noInputs
  | noOutputs
  | coinbaseScript (input : Nat)
  | coinbaseCompany
  | negativeIndex (input : Nat)
  | noScript (input : Nat)
  | idMismatch (given computed : String)
  | channelText (text : String)
  | json
  deriving DecidableEq, Repr

def Malformed.detail : Malformed → String
  | .emptyHash => "empty hash"
  | .hashText text fault => s!"hash {Text.quoted text} is not base64url: {fault.message}"
  | .publicKeyText fault => s!"public key is not base64url: {fault.message}"
  | .publicKeySize => "public key must be 32 bytes"
  | .publicKeyPoint => "invalid public key: signature error: Cannot decompress Edwards point"
  | .signatureText fault => s!"signature is not base64url: {fault.message}"
  | .signatureSize => "signature must be 64 bytes"
  | .secretText fault => s!"secret key is not base64url: {fault.message}"
  | .secretSize => "secret key must be 32 bytes"
  | .unsupportedVersion version => s!"unsupported version {version}"
  | .nonzeroLockTime lockTime => s!"lock_time must be 0, got {lockTime}"
  | .noInputs => "transaction has no inputs"
  | .noOutputs => "transaction has no outputs"
  | .coinbaseScript input => s!"coinbase input {input} carries a script"
  | .coinbaseCompany => "coinbase input must be the only input"
  | .negativeIndex input => s!"input {input} has negative output index"
  | .noScript input => s!"input {input} has no unlocking script"
  | .idMismatch given computed =>
    s!"transaction_id {given} does not match computed id {computed}"
  | .channelText text => s!"{Text.quoted text} is not a coin channel"
  | .json => "not the expected JSON"

end CoinLedger
