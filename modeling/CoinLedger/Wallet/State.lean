import CoinLedger.Service
import CoinLedger.Snapshot

/-!
The two files of a wallet. The key file keeps the address and the time as they were read; whether the
secret belongs to the public key is asked only when something is to be signed. The state file holds
everything else: the organizers and a snapshot of the ledger. Opening it restores the ledger; nothing
else in the file is derived.
-/

namespace CoinLedger

/-! ### The key file -/

structure KeyFile where
  publicKey : PublicKey
  address : Hash
  secretText : String
  createdAt : String
  deriving DecidableEq

namespace KeyFile

/-- The file of a key pair that is made or brought in at a time. -/
def ofKeys (keys : KeyPair) (createdAt : String) : KeyFile where
  publicKey := keys.publicKey
  address := keys.publicKey.address
  secretText := keys.secretText
  createdAt := createdAt

def toJson (k : KeyFile) : Json :=
  .ofFields
    [("public_key", k.publicKey.toJson), ("address", k.address.toJson),
      ("secret_key", .ofText k.secretText), ("created_at", .ofText k.createdAt)]

def ofJson? (v : Json) : Option KeyFile := do
  match ← v.record? ["public_key", "address", "secret_key", "created_at"] with
  | [publicKey, address, secret, createdAt] =>
    return {
      publicKey := ← PublicKey.ofJson? publicKey
      address := ← Hash.ofJson? address
      secretText := ← secret.asText?
      createdAt := ← createdAt.asText? }
  | _ => none

def encode (k : KeyFile) : List UInt8 := k.toJson.pretty

def decode? (bytes : List UInt8) : Option KeyFile := (Json.read? bytes).bind ofJson?

end KeyFile

/-! ### The state file -/

structure WalletState where
  organizers : Table String PublicKey
  snapshot : Snapshot

namespace WalletState

/-- The state before anything was saved. -/
def empty (mode : Accounting) (now : String) : WalletState :=
  ⟨.empty, .capture now (.empty mode)⟩

def toJson (s : WalletState) : Json :=
  .ofFields
    [("organizers", s.organizers.toJson PublicKey.toJson), ("ledger", s.snapshot.toJson)]

def ofJson? (v : Json) : Option WalletState := do
  match ← v.record? ["organizers", "ledger"] with
  | [organizers, snapshot] =>
    return ⟨← Table.ofJson? PublicKey.ofJson? organizers, ← Snapshot.ofJson? 1 snapshot⟩
  | _ => none

def encode (s : WalletState) : List UInt8 := s.toJson.pretty

def decode? (bytes : List UInt8) : Option WalletState := (Json.read? bytes).bind ofJson?

def toService (s : WalletState) (capacity : Nat) : Except ReplayFault Service :=
  s.snapshot.restore.map fun ledger => ⟨ledger, ⟨s.organizers⟩, .ofCapacity capacity⟩

/-- The state of a participant at a time. -/
def ofService (s : Service) (now : String) : WalletState :=
  ⟨s.registry.organizers, .capture now s.ledger⟩

end WalletState

end CoinLedger
