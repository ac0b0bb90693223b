import ScanService.Failure
/-! The retry rules of one scan: what to do about a failure, by its category and by what was tried
before. A dead egress is substituted once and a transient failure repeated once. -/
namespace ScanService

inductive Decision
  | substituteEgress
  | killEgress
  | banIdentity
  | retryQuery
  | giveUp
deriving DecidableEq, Repr

def Decision.retries : Decision → Bool
  | substituteEgress | retryQuery => true
  | _ => false

structure RetryBudget where
  transportSpent : Bool := false
  transientSpent : Bool := false
deriving DecidableEq, Repr

namespace RetryBudget

def full : RetryBudget := {}

/-- The decision on a failure of a category, and the budget after it. -/
def decide (b : RetryBudget) : Category → Decision × RetryBudget
  | .transport =>
    if b.transportSpent then (.killEgress,b) else (.substituteEgress,
      { b with transportSpent := true })
  | .credential => (.banIdentity,b)
  | .transientProtocol =>
    if b.transientSpent then (.giveUp,b) else (.retryQuery,{ b with transientSpent := true })
  | _ => (.giveUp,b)

def decisions (b : RetryBudget) : List Category → List Decision
  | [] => []
  | c :: cs => (b.decide c).1 :: (b.decide c).2.decisions cs

end RetryBudget

end ScanService
