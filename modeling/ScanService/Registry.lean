import ScanService.Resource
/-! Which identity works through which egress: one entry to a name, kept in the order of names. -/
namespace ScanService

/-- Entries in strictly increasing order of their names. -/
structure Registry where
  entries : List StatusEntry
deriving DecidableEq, Repr

namespace Registry

def empty : Registry := ⟨[]⟩

/-- Puts an entry in its place, over one of the same name. -/
def insert (e : StatusEntry) : List StatusEntry → List StatusEntry
  | [] => [e]
  | f :: fs =>
    if e.account < f.account then e :: f :: fs
    else if e.account = f.account then e :: fs
    else f :: insert e fs

def assign (r : Registry) (e : StatusEntry) : Registry := ⟨insert e r.entries⟩

def remove (r : Registry) (account : String) : Registry :=
  ⟨r.entries.filter fun e => e.account ≠ account⟩

def get? (r : Registry) (account : String) : Option StatusEntry :=
  r.entries.find? fun e => e.account = account

def snapshot (r : Registry) : List StatusEntry := r.entries

def size (r : Registry) : Nat := r.entries.length

end Registry

end ScanService
