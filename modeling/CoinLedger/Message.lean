import CoinLedger.Error
import CoinLedger.Json.Printer
import CoinLedger.Json.Reader
import CoinLedger.Transaction.Wire

/-!
The message that carries a transaction, its advertised id and its body, and the channel on which the
messages of an organization travel. A message is believed only after its body passed the checks of
form and its id turned out to be the body's own. A channel can be built for any organization text, but
only texts that are neither empty nor contain a slash are found again.
-/

namespace CoinLedger

/-! ### Channels -/

structure Channel where
  organization : String
  deriving DecidableEq

namespace Channel

def lead : List Char := "/root/".toList

def tail : List Char := "/coin".toList

def text (c : Channel) : String := String.ofList (lead ++ c.organization.toList ++ tail)

/-- What remains of a text without its start and its end. -/
def inner? (cs : List Char) : Option (List Char) :=
  if lead.isPrefixOf cs then
    let rest := cs.drop lead.length
    if tail.isSuffixOf rest then some (rest.take (rest.length - tail.length)) else none
  else none

def ofText (text : String) : Except Malformed Channel :=
  match inner? text.toList with
  | some organization =>
    if organization = [] ∨ '/' ∈ organization then .error (.channelText text)
    else .ok ⟨String.ofList organization⟩
  | none => .error (.channelText text)

end Channel

/-! ### Messages -/

/-- An advertised id and a body. -/
structure Message where
  id : Hash
  body : Body
  deriving DecidableEq

namespace Message

def ofTransaction (tx : Transaction) : Message := ⟨tx.id, tx.body⟩

def toJson (m : Message) : Json :=
  .ofFields [("transaction_id", m.id.toJson), ("transaction", m.body.toJson)]

/-- The message that a record holds, `outside` arrays and objects being open around it. -/
def ofJson? (outside : Nat) (v : Json) : Option Message := do
  match ← v.record? ["transaction_id", "transaction"] with
  | [id, body] => return ⟨← Hash.ofJson? id, ← Body.ofJson? (outside + 1) body⟩
  | _ => none

def encode (m : Message) : List UInt8 := m.toJson.compact

def decode (bytes : List UInt8) : Except Malformed Message :=
  match (Json.read? bytes).bind (ofJson? 0) with
  | some m => .ok m
  | none => .error .json

/-- The transaction of a message whose body has the right form and whose id is the right one. -/
def transaction (m : Message) : Except Malformed Transaction := do
  m.body.checkSchema
  let tx := Transaction.ofBody m.body
  if tx.id.bytes = m.id.bytes then return tx
  else .error (.idMismatch m.id.spelling tx.id.spelling)

/-- The message with every hash in its padded spelling. -/
def canonical (m : Message) : Message where
  id := m.id.canonical
  body := { m.body with
    inputs := m.body.inputs.map fun i => ⟨⟨i.outpoint.hash.canonical, i.outpoint.index⟩, i.unlock⟩
    outputs := m.body.outputs.map fun o => ⟨o.value, o.owner.canonical⟩
    outputs_fit := by simpa using m.body.outputs_fit }

/-- Two messages that differ at most in the spelling of their hashes. -/
def same (m n : Message) : Bool := m.canonical == n.canonical

end Message

end CoinLedger
