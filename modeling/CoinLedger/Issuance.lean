import CoinLedger.Spend

/-!
Who may make money, and how it is made. Each organization has at most one organizer; a grant says
that an issuer was the organizer when it was requested.
-/

namespace CoinLedger

structure Registry where
  organizers : Table String PublicKey

namespace Registry

def empty : Registry := ⟨.empty⟩

def register (r : Registry) (organization : String) (organizer : PublicKey) : Registry :=
  ⟨r.organizers.insert organization organizer⟩

def organizer? (r : Registry) (organization : String) : Option PublicKey :=
  r.organizers.find? organization

/-- Only the registered organizer may issue. -/
def mayIssue (r : Registry) (organization : String) (issuer : PublicKey) : Bool :=
  r.organizer? organization = some issuer

end Registry

structure Grant where
  organization : String
  issuer : PublicKey
  deriving DecidableEq

def Grant.request (r : Registry) (organization : String) (issuer : PublicKey) :
    Except CashError Grant :=
  if r.mayIssue organization issuer then .ok ⟨organization, issuer⟩
  else .error (.unauthorized organization)

/-- The transaction that pays new money, the same amount to each beneficiary. -/
def buildIssuance (beneficiaries : List Hash) (amount : Int64) : Except CashError Transaction :=
  match Amount.ofInt64 amount with
  | .error e => .error e
  | .ok amount =>
    if beneficiaries = [] then .error .noBeneficiaries
    else
      let outputs : List Output := beneficiaries.map fun owner => ⟨amount.value, owner⟩
      if fit : outputs.length < placeBound then
        let body : Body := {
          version := protocolVersion
          inputs := [.coinbase]
          outputs := outputs
          lockTime := 0
          outputs_fit := fit }
        if coinBound ≤ body.outputSum then .error .overflow else .ok (.ofBody body)
      else .error .overflow

end CoinLedger
