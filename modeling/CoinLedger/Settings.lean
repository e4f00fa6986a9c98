import CoinLedger.Files.Path
import CoinLedger.Text.Basic
import CoinLedger.Validation

/-!
Settings from the environment. A value that cannot be used gives way to its default; a review lists
such values as errors, and settings left open as warnings. Variables with nothing but white space
count as unset.
-/

namespace CoinLedger

/-- What the environment settles. The texts that modes and capacities were read from are kept for
the review. -/
structure Settings where
  accounting : Accounting
  statePath : Option String
  capacity : Nat
  accountingText : Option String
  capacityText : Option String
  deriving DecidableEq

structure Review where
  warnings : List String
  errors : List String
  deriving DecidableEq

/-- Warnings do not count against settings. -/
def Review.isValid (r : Review) : Bool := r.errors.isEmpty

namespace Settings

def accountingVariable : String := "LAO_CASH_ACCOUNTING"

def statePathVariable : String := "LAO_CASH_STATE_PATH"

def capacityVariable : String := "LAO_CASH_OUTBOUND_CAPACITY"

/-- How many messages wait for publication at most, unless settled otherwise. -/
def defaultCapacity : Nat := 256

def default : Settings := ⟨.runningCredit, none, defaultCapacity, none, none⟩

/-- The mode that a text names, in any case and with white space around it. -/
def accountingOfText? (text : String) : Option Accounting :=
  let word := (Text.trim text).toLower
  if word ∈ ["running-credit", "credit", "compat"] then some .runningCredit
  else if word ∈ ["strict-utxo", "strict", "utxo"] then some .strictUtxo
  else none

/-- The capacity that a text names: digits after at most one plus, with white space around them,
for a number from 1 to 2^64 − 1. -/
def capacityOfText? (text : String) : Option Nat :=
  let digits := match (Text.trim text).toList with
    | '+' :: rest => rest
    | cs => cs
  (Text.natOfDigits? digits).filter fun n => 0 < n && n < UInt64.size

/-- The value of a variable that is not blank. -/
def given? (lookup : String → Option String) (name : String) : Option String :=
  (lookup name).filter fun text => Text.trim text ≠ ""

def ofVariables (lookup : String → Option String) : Settings :=
  let accountingText := given? lookup accountingVariable
  let capacityText := given? lookup capacityVariable
  { accounting := (accountingText.bind accountingOfText?).getD default.accounting
    statePath := given? lookup statePathVariable
    capacity := (capacityText.bind capacityOfText?).getD default.capacity
    accountingText := accountingText
    capacityText := capacityText }

def accountingErrors (s : Settings) : List String :=
  match s.accountingText with
  | some text =>
    if (accountingOfText? text).isNone then
      [s!"{accountingVariable}={Text.quoted text} is not one of running-credit, strict-utxo"]
    else []
  | none => []

def capacityErrors (s : Settings) : List String :=
  match s.capacityText with
  | some text =>
    if (capacityOfText? text).isNone then
      [s!"{capacityVariable}={Text.quoted text} must be a positive integer"]
    else []
  | none => []

/-- What is wrong with the path of the state: the directory around it must be there. -/
def statePathErrors (s : Settings) (isThere : String → Bool) : List String :=
  match s.statePath.bind Path.parent? with
  | some parent =>
    if parent ≠ "" ∧ isThere parent = false then
      [s!"{statePathVariable} directory does not exist: {parent}"]
    else []
  | none => []

def warnings (s : Settings) : List String :=
  (if s.accountingText.isNone then
    [s!"{accountingVariable} not set - using running-credit (spent outputs are never debited)"]
  else []) ++
    if s.statePath.isNone then
      [s!"{statePathVariable} not set - ledger state lives in memory only"]
    else []

def review (s : Settings) (isThere : String → Bool) : Review where
  warnings := s.warnings
  errors := s.accountingErrors ++ s.capacityErrors ++ s.statePathErrors isThere

end Settings

end CoinLedger
