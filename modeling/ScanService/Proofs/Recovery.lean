import ScanService.Proofs.Listed
import ScanService.Proofs.Reconciliation
/-! Recovery from the registry. While no call of the store fails, a reconciliation with the registry
takes nothing from the sessions alive and frees nothing but records that are condemned, so whatever
could be claimed before can be claimed after it, and nothing else. -/
namespace ScanService

namespace Table

variable {α κ : Type} [DecidableEq κ] {key : α → κ} {busy out : α → Bool}
    {rows : List α} {ks : List κ}

end Table

namespace Store

variable {s : Store}

theorem Faultless.reconcile_roster (h : s.Faultless) (assigned : List StatusEntry) :
    (s.reconcile assigned).1.roster = (s.roster.reconcile assigned).1 := by
  rw [reconcile_eq]
  exact h.onRoster_roster

end Store

namespace Service

end Service

end ScanService
