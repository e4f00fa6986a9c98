import CoinLedger.Ledger.Basic
import CoinLedger.Message

/-!
Snapshots of a ledger: the logs as messages, and no index. Restoring replays every log through the
validator, organization by organization, and stops at the first refusal.
-/

namespace CoinLedger

/-- The logs of a ledger at a time. -/
structure Snapshot where
  createdAt : String
  accounting : Accounting
  organizations : Table String (List Message)

/-- The refusal at which restoring stopped. -/
structure ReplayFault where
  organization : String
  cause : CashError
  deriving DecidableEq

def ReplayFault.message (f : ReplayFault) : String :=
  s!"snapshot replay of {f.organization} failed: {f.cause.message}"

def Accounting.toJson (a : Accounting) : Json := .ofText a.name

/-- The mode that a one-word document names. -/
def Accounting.ofJson? (v : Json) : Option Accounting := v.asWord?.bind Accounting.ofName?

/-- The document of a map from texts, in the order of its keys. -/
def Table.toJson {α : Type} (write : α → Json) (t : Table String α) : Json :=
  .ofFields (t.entries.map fun e => (e.1, write e.2))

/-- The map that an object holds; of a repeated key the last value counts. -/
def Table.ofJson? {α : Type} (read : Json → Option α) (v : Json) : Option (Table String α) := do
  let entries ← (← v.asMembers?).mapM fun (k, v) => (read v).map (k, ·)
  return .ofList entries

namespace Snapshot

def capture (createdAt : String) (l : Ledger) : Snapshot where
  createdAt := createdAt
  accounting := l.mode
  organizations :=
    .ofList (l.books.entries.map fun e => (e.1, e.2.log.map Message.ofTransaction))

def replayLog (organization : String) (l : Ledger) :
    List Message → Except ReplayFault Ledger
  | [] => .ok l
  | m :: rest =>
    match CashError.ofForm m.transaction with
    | .error cause => .error ⟨organization, cause⟩
    | .ok tx =>
      match l.apply organization tx with
      | .error cause => .error ⟨organization, cause⟩
      | .ok (l, _) => replayLog organization l rest

def restore (s : Snapshot) : Except ReplayFault Ledger :=
  s.organizations.entries.foldlM (fun l e => replayLog e.1 l e.2) (.empty s.accounting)

def toJson (s : Snapshot) : Json :=
  .ofFields
    [("created_at", .ofText s.createdAt), ("accounting", s.accounting.toJson),
      ("organizations",
        s.organizations.toJson fun messages => .array (messages.map Message.toJson))]

/-- The snapshot that a record holds, `outside` arrays and objects being open around it. -/
def ofJson? (outside : Nat) (v : Json) : Option Snapshot := do
  match ← v.record? ["created_at", "accounting", "organizations"] with
  | [createdAt, accounting, organizations] =>
    return {
      createdAt := ← createdAt.asText?
      accounting := ← Accounting.ofJson? accounting
      organizations := ←
        Table.ofJson? (fun v => do (← v.asArray?).mapM (Message.ofJson? (outside + 3)))
          organizations }
  | _ => none

def decode? (bytes : List UInt8) : Option Snapshot := (Json.read? bytes).bind (ofJson? 0)

def encode (s : Snapshot) : List UInt8 := s.toJson.pretty

/-- The same organizations with the same messages, up to the spelling of hashes. -/
def sameLogs (s t : Snapshot) : Bool :=
  let logs := fun (s : Snapshot) =>
    s.organizations.entries.map fun e => (e.1, e.2.map Message.canonical)
  logs s == logs t

end Snapshot

end CoinLedger
