import CoinLedger.Key
import CoinLedger.Table

/-!
Transactions. A body says what is spent and what is paid; the coinbase outpoint stands for newly made
money and is told by its spelling. Every body must have a form that is checked in a fixed order whatever
the ledger holds, and the first fault is the answer. The texts of a body in their fixed order are those
that its content address digests and those that its signatures cover. A transaction is a body with its
address, which is never stored on its own.
-/

namespace CoinLedger

/-! ### Bodies -/

/-- The one protocol version. -/
def protocolVersion : UInt32 := 1

/-- The one kind of script: pay to the hash of a public key. -/
def scriptType : String := "P2PKH"

/-- The spelling of the coinbase hash, 64 zeros. -/
def coinbaseSpelling : String := String.ofList (List.replicate 64 '0')

/-- A claim on an output: the transaction that made it and its place there. -/
structure OutPoint where
  hash : Hash
  index : Int64
  deriving DecidableEq

namespace OutPoint

/-- The outpoint of newly made money: the bytes that 64 zeros denote, and index −1. -/
def coinbase : OutPoint where
  hash := ⟨coinbaseSpelling, (List.replicate 16 [0xd3, 0x4d, 0x34]).flatten,
    rfl, by decide⟩
  index := -1

def isCoinbase (o : OutPoint) : Bool := o.index == -1 && o.hash.spelling == coinbaseSpelling

def text (o : OutPoint) : String := s!"{o.hash.spelling}:{o.index.toInt}"

/-- Two claims on one output, however the hash is spelled. -/
def Same (o p : OutPoint) : Prop := o.hash.bytes = p.hash.bytes ∧ o.index = p.index

instance (o p : OutPoint) : Decidable (o.Same p) := inferInstanceAs (Decidable (_ ∧ _))

instance : Keyed OutPoint := ⟨fun o => (o.hash.canonicalText, o.index.toInt)⟩

end OutPoint

/-- The proof that an input may spend: a key and its signature. -/
structure Unlock where
  key : PublicKey
  signature : Signature
  deriving DecidableEq

/-- A claimed output, with its proof unless the claim is coinbase. -/
structure Input where
  outpoint : OutPoint
  unlock : Option Unlock
  deriving DecidableEq

def Input.coinbase : Input := ⟨.coinbase, none⟩

def Input.isCoinbase (i : Input) : Bool := i.unlock.isNone && i.outpoint.isCoinbase

def total (values : List Nat) : Nat := values.foldr (· + ·) 0

/-- A payment: how much and to which address. -/
structure Output where
  value : UInt64
  owner : Hash
  deriving DecidableEq

/-- No list in memory is as long as this, so the place of every payment in its list is a signed
64-bit number. -/
def placeBound : Nat := 1 <<< 63

/-- What is hashed and signed of a transaction. -/
structure Body where
  version : UInt32
  inputs : List Input
  outputs : List Output
  lockTime : UInt64
  outputs_fit : outputs.length < placeBound
  deriving DecidableEq

namespace Body

def outpoints (b : Body) : List OutPoint := b.inputs.map Input.outpoint

/-- A body with any coinbase input makes money. -/
def isCoinbase (b : Body) : Bool := b.inputs.any Input.isCoinbase

/-- The sum of the outputs, unbounded. -/
def outputSum (b : Body) : Nat := total (b.outputs.map fun o => o.value.toNat)

/-! ### Form -/

/-- What one input of a body with `count` inputs must look like, at its place. -/
def checkInput (count place : Nat) (i : Input) : Except Malformed Unit :=
  if i.outpoint.isCoinbase then
    if i.unlock.isSome then .error (.coinbaseScript place)
    else if count ≠ 1 then .error .coinbaseCompany
    else .ok ()
  else if i.outpoint.index < 0 then .error (.negativeIndex place)
  else if i.unlock.isNone then .error (.noScript place)
  else .ok ()

def checkInputs (count : Nat) : (place : Nat) → List Input → Except Malformed Unit
  | _, [] => .ok ()
  | place, i :: rest => do
    checkInput count place i
    checkInputs count (place + 1) rest

/-- The checks that need no ledger. -/
def checkSchema (b : Body) : Except Malformed Unit :=
  if b.version ≠ protocolVersion then .error (.unsupportedVersion b.version.toNat)
  else if b.lockTime ≠ 0 then .error (.nonzeroLockTime b.lockTime.toNat)
  else if b.inputs = [] then .error .noInputs
  else if b.outputs = [] then .error .noOutputs
  else checkInputs b.inputs.length 0 b.inputs

/-! ### Content address and signed text -/

/-- The texts that make the id: the lock time, then per input the proof and the outpoint, then per
output its owner, script type and value, then the version. -/
def idFields (b : Body) : List String :=
  let inputFields := fun (i : Input) =>
    (match i.unlock with
      | some u => [u.key.text, u.signature.text, scriptType]
      | none => []) ++ [i.outpoint.hash.spelling, toString i.outpoint.index.toInt]
  let outputFields := fun (o : Output) => [o.owner.spelling, scriptType, toString o.value.toNat]
  toString b.lockTime.toNat ::
    (b.inputs.flatMap inputFields ++ b.outputs.flatMap outputFields ++ [toString b.version.toNat])

def id (b : Body) : Hash := Hash.ofFields b.idFields

end Body

/-- The texts that a signature covers: the outpoints, then per output its value, script type and
owner. Proofs are never covered. -/
def signingFields (outpoints : List OutPoint) (outputs : List Output) : List String :=
  (outpoints.flatMap fun o => [o.hash.spelling, toString o.index.toInt]) ++
    outputs.flatMap fun o => [toString o.value.toNat, scriptType, o.owner.spelling]

/-- The bytes that are signed: the covered texts one after the other. -/
def signingPayload (outpoints : List OutPoint) (outputs : List Output) : List UInt8 :=
  (signingFields outpoints outputs).flatMap Text.utf8

def Body.signingPayload (b : Body) : List UInt8 :=
  CoinLedger.signingPayload b.outpoints b.outputs

/-- A body together with its content address. -/
structure Transaction where
  id : Hash
  body : Body
  id_eq : id = body.id
  deriving DecidableEq

def Transaction.ofBody (b : Body) : Transaction := ⟨b.id, b, rfl⟩

theorem Transaction.eq_ofBody (tx : Transaction) : tx = .ofBody tx.body := by
  obtain ⟨id, body, rfl⟩ := tx
  rfl

end CoinLedger
