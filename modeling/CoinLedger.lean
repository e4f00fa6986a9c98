import CoinLedger.Base64Url.Basic
import CoinLedger.Base64Url.Lemmas
import CoinLedger.Digest.Sha256
import CoinLedger.Digest.Sha512
import CoinLedger.Edwards
import CoinLedger.EnvFile.Lines
import CoinLedger.EnvFile.Value
import CoinLedger.Environment
import CoinLedger.Error
import CoinLedger.Files.Disk
import CoinLedger.Files.Path
import CoinLedger.Files.Tree
import CoinLedger.Hash
import CoinLedger.Issuance
import CoinLedger.Json.Basic
import CoinLedger.Json.Printer
import CoinLedger.Json.Reader
import CoinLedger.Json.Record
import CoinLedger.Json.Text
import CoinLedger.Json.Token
import CoinLedger.Key
import CoinLedger.Ledger.Basic
import CoinLedger.Main
import CoinLedger.Malformed
import CoinLedger.Message
import CoinLedger.Proofs.Amount
import CoinLedger.Proofs.Base64Url
import CoinLedger.Proofs.Channel
import CoinLedger.Proofs.Files.Disk
import CoinLedger.Proofs.Files.Path
import CoinLedger.Proofs.Files.Tree
import CoinLedger.Proofs.Hash
import CoinLedger.Proofs.Issuance
import CoinLedger.Proofs.Json.Escape
import CoinLedger.Proofs.Json.Numeral
import CoinLedger.Proofs.Json.Reading
import CoinLedger.Proofs.Json.Record
import CoinLedger.Proofs.Json.Spaced
import CoinLedger.Proofs.Json.Tokens
import CoinLedger.Proofs.Ledger.Audit
import CoinLedger.Proofs.Ledger.Balance
import CoinLedger.Proofs.Ledger.Conservation
import CoinLedger.Proofs.Ledger.Debit
import CoinLedger.Proofs.Ledger.Faithful
import CoinLedger.Proofs.Ledger.History
import CoinLedger.Proofs.Ledger.InPlace
import CoinLedger.Proofs.Ledger.Indices
import CoinLedger.Proofs.Ledger.Lawful
import CoinLedger.Proofs.Ledger.Payment
import CoinLedger.Proofs.Ledger.Queries
import CoinLedger.Proofs.Ledger.Reference
import CoinLedger.Proofs.Ledger.Replay
import CoinLedger.Proofs.Ledger.Settlement
import CoinLedger.Proofs.Ledger.Shuffle
import CoinLedger.Proofs.Ledger.Spendable
import CoinLedger.Proofs.Ledger.Uncharged
import CoinLedger.Proofs.Ledger.Worth
import CoinLedger.Proofs.Message
import CoinLedger.Proofs.Restoration
import CoinLedger.Proofs.Service.Arrivals
import CoinLedger.Proofs.Service.Atomicity
import CoinLedger.Proofs.Service.Debit
import CoinLedger.Proofs.Service.Delivery
import CoinLedger.Proofs.Service.Isolation
import CoinLedger.Proofs.Service.Issuance
import CoinLedger.Proofs.Service.Minting
import CoinLedger.Proofs.Service.Payment
import CoinLedger.Proofs.Service.Redelivery
import CoinLedger.Proofs.Service.Reordering
import CoinLedger.Proofs.Service.Routing
import CoinLedger.Proofs.Snapshot
import CoinLedger.Proofs.Spelling
import CoinLedger.Proofs.Spend
import CoinLedger.Proofs.Sums
import CoinLedger.Proofs.Table
import CoinLedger.Proofs.Text.Blank
import CoinLedger.Proofs.Text.Decimal
import CoinLedger.Proofs.Transaction.Authorization
import CoinLedger.Proofs.Transaction.ContentAddress
import CoinLedger.Proofs.Transaction.Digested
import CoinLedger.Proofs.Transaction.Fields
import CoinLedger.Proofs.Transaction.Payload
import CoinLedger.Proofs.Transaction.Schema
import CoinLedger.Proofs.Validation
import CoinLedger.Proofs.Verdict
import CoinLedger.Proofs.Wallet.Calls
import CoinLedger.Proofs.Wallet.Files
import CoinLedger.Proofs.Wallet.History
import CoinLedger.Proofs.Wallet.Issuance
import CoinLedger.Proofs.Wallet.Plan
import CoinLedger.Proofs.Wallet.Runs
import CoinLedger.Proofs.Wallet.State
import CoinLedger.Proofs.Wallet.Stepwise
import CoinLedger.Service
import CoinLedger.Settings
import CoinLedger.Snapshot
import CoinLedger.Spend
import CoinLedger.Table
import CoinLedger.Text.Alphanumeric
import CoinLedger.Text.Basic
import CoinLedger.Text.Unprintable
import CoinLedger.Transaction.Basic
import CoinLedger.Transaction.Wire
import CoinLedger.Validation
import CoinLedger.Wallet.Command
import CoinLedger.Wallet.Failure
import CoinLedger.Wallet.Options
import CoinLedger.Wallet.Plan
import CoinLedger.Wallet.Run
import CoinLedger.Wallet.State
