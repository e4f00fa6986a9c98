import CoinLedger.Issuance
import CoinLedger.Ledger.Basic
import CoinLedger.Message

/-!
Between the transport and the ledger: what is built here is queued for publication and reaches the
ledger only when the transport delivers it back. Money is accepted only from the organizer that is
registered at the moment of delivery.
-/

namespace CoinLedger

structure Outbound where
  channel : Channel
  message : Message
  deriving DecidableEq

/-- A message that the transport delivered, from us or from a peer. -/
structure Delivery where
  channel : String
  sender : PublicKey
  payload : List UInt8
  deriving DecidableEq

/-- The bounded queue of messages to publish. Once its far end is closed it takes nothing more. -/
structure Outbox where
  capacity : Nat
  queue : List Outbound
  closed : Bool

namespace Outbox

/-- An open queue; it has room for one message at least. -/
def ofCapacity (capacity : Nat) : Outbox := ⟨max capacity 1, [], false⟩

def push (o : Outbox) (m : Outbound) : Except CashError Outbox :=
  if o.closed then .error .queueClosed
  else if o.queue.length < o.capacity then .ok { o with queue := o.queue ++ [m] }
  else .error .queueFull

def drained (o : Outbox) : Outbox := { o with queue := [] }

/-- The queue after its far end was dropped with what it held. -/
def close (o : Outbox) : Outbox := { o with queue := [], closed := true }

end Outbox

/-- Authorizes and applies one delivered message. -/
def Ledger.deliver (l : Ledger) (r : Registry) (d : Delivery) :
    Except CashError (Ledger × Outcome) := do
  let channel ← CashError.ofForm (Channel.ofText d.channel)
  let message ← CashError.ofForm (Message.decode d.payload)
  let tx ← CashError.ofForm message.transaction
  if tx.body.isCoinbase ∧ r.mayIssue channel.organization d.sender = false then
    .error (.unauthorized channel.organization)
  else l.apply channel.organization tx

/-- Delivers messages in order and drops the refused ones. -/
def Ledger.deliverAll (l : Ledger) (r : Registry) (deliveries : List Delivery) : Ledger :=
  deliveries.foldl
    (fun l d => match l.deliver r d with
      | .ok (l, _) => l
      | .error _ => l)
    l

/-- The ledger, the organizers and the queue of one participant. -/
structure Service where
  ledger : Ledger
  registry : Registry
  outbox : Outbox

namespace Service

/-- Queues a transaction for publication in an organization's channel. -/
def submit (s : Service) (organization : String) (tx : Transaction) : Except CashError Service :=
  (s.outbox.push ⟨⟨organization⟩, .ofTransaction tx⟩).map fun outbox => { s with outbox }

/-- Builds and queues a payment out of everything that the signer may spend. -/
def send (s : Service) (organization : String) (signer : Signer) (recipient : Hash)
    (amount : Int64) : Except CashError (Service × Transaction) := do
  let available := s.ledger.spendable organization signer.publicKey.address
  let tx ← buildSpend signer recipient amount available
  return (← s.submit organization tx, tx)

def issue (s : Service) (grant : Grant) (beneficiaries : List Hash) (amount : Int64) :
    Except CashError (Service × Transaction) := do
  let tx ← buildIssuance beneficiaries amount
  return (← s.submit grant.organization tx, tx)

def deliver (s : Service) (d : Delivery) : Except CashError (Service × Outcome) :=
  (s.ledger.deliver s.registry d).map fun (ledger, outcome) => ({ s with ledger }, outcome)

end Service

end CoinLedger
