import ScanService.Store.Roster
import ScanService.Store.ObjectTable
/-! The store: the records of the resources and the objects found. Any call may fail, and a call
that fails changes no record. -/
namespace ScanService

inductive StoreCall
  | claimIdentity
  | claimEgress
  | releaseIdentity
  | releaseEgress
  | banIdentity
  | killEgress
  | reconcile
  | identityStats
  | egressStats
  | getIdentity
  | getEgress
  | banned
  | addIdentity
  | addEgress
  | dropAllEgress
  | removeDeadEgress
  | query
  | write
  | purge
  | get
  | count
deriving DecidableEq, Repr

/-- The records, and for each kind of call which of the next ones fail and with what. -/
structure Store where
  roster : Roster
  objects : ObjectTable Float
  faults : StoreCall → List (Option StoreFailure)

namespace Store

def empty : Store := ⟨.empty,.empty,fun _ => []⟩

/-- Plans which of the next calls of a kind fail, and with what. -/
def plan (s : Store) (c : StoreCall) (fails : List (Option StoreFailure)) : Store :=
  { s with faults := fun d => if d = c then fails else s.faults d }

/-- Makes a call. If it is to fail, it does nothing but use up the plan. -/
def call {α : Type} (s : Store) (c : StoreCall) (run : Store → Store × Except StoreFailure α) :
    Store × Except StoreFailure α :=
  match s.faults c with
  | [] => run s
  | some e :: later => (s.plan c later,.error e)
  | none :: later => run (s.plan c later)

def onRoster {α : Type} (s : Store) (c : StoreCall)
    (f : Roster → Roster × Except StoreFailure α) : Store × Except StoreFailure α :=
  s.call c fun s => ({ s with roster := (f s.roster).1 },(f s.roster).2)

def onObjects {α : Type} (s : Store) (c : StoreCall)
    (f : ObjectTable Float → ObjectTable Float × Except StoreFailure α) :
    Store × Except StoreFailure α :=
  s.call c fun s => ({ s with objects := (f s.objects).1 },(f s.objects).2)

def ask {α : Type} (s : Store) (c : StoreCall) (f : Store → α) : Store × Except StoreFailure α :=
  s.call c fun s => (s,.ok (f s))

def claimIdentity (s : Store) : Store × Except StoreFailure Identity :=
  s.onRoster .claimIdentity Roster.claimIdentity

def claimEgress (s : Store) : Store × Except StoreFailure Egress :=
  s.onRoster .claimEgress Roster.claimEgress

def releaseIdentity (s : Store) (name : String) : Store × Except StoreFailure Unit :=
  s.onRoster .releaseIdentity fun r => (r.releaseIdentity name,.ok ())

def releaseEgress (s : Store) (id : Int) : Store × Except StoreFailure Unit :=
  s.onRoster .releaseEgress fun r => (r.releaseEgress id,.ok ())

def ban (s : Store) (name : String) : Store × Except StoreFailure Unit :=
  s.onRoster .banIdentity fun r => (r.ban name,.ok ())

def kill (s : Store) (id : Int) : Store × Except StoreFailure Unit :=
  s.onRoster .killEgress fun r => (r.kill id,.ok ())

/-- Makes the use flags say exactly what the assignments say. `fails` says how the steps of the
transaction fail. -/
def reconcile (s : Store) (assigned : List StatusEntry)
    (fails : Nat → Option StoreFailure := fun _ => none) : Store × Except StoreFailure Nat :=
  s.onRoster .reconcile (Roster.transaction fails (Roster.reconciliation assigned))

def markAllUnused (s : Store) : Store × Except StoreFailure Nat := s.reconcile []

def identityStats (s : Store) : Store × Except StoreFailure IdentityStats :=
  s.ask .identityStats (·.roster.identityStats)

def egressStats (s : Store) : Store × Except StoreFailure EgressStats :=
  s.ask .egressStats (·.roster.egressStats)

def getIdentity (s : Store) (name : String) : Store × Except StoreFailure (Option Identity) :=
  s.ask .getIdentity (·.roster.identity? name)

def getEgress (s : Store) (id : Int) : Store × Except StoreFailure (Option Egress) :=
  s.ask .getEgress (·.roster.egress? id)

def banned (s : Store) : Store × Except StoreFailure (List Identity) :=
  s.ask .banned (·.roster.banned)

def addIdentity (s : Store) (i : Identity) : Store × Except StoreFailure Unit :=
  s.onRoster .addIdentity fun r => r.addIdentity i

def addEgress (s : Store) (id : Int) : Store × Except StoreFailure Unit :=
  s.onRoster .addEgress fun r => r.addEgress id

def dropAllEgress (s : Store) : Store × Except StoreFailure Nat :=
  s.onRoster .dropAllEgress fun r => (r.dropAllEgress.1,.ok r.dropAllEgress.2)

def removeDeadEgress (s : Store) : Store × Except StoreFailure Nat :=
  s.onRoster .removeDeadEgress fun r => (r.removeDeadEgress.1,.ok r.removeDeadEgress.2)

def query (s : Store) (center : Coordinate Float) (radius : Float) (kinds : List ObjectKind)
    (now : Int) : Store × Except StoreFailure (List (ScanObject Float)) :=
  s.ask .query (·.objects.query Geometry.sphere center radius kinds now)

def write (s : Store) (o : ScanObject Float) : Store × Except StoreFailure Unit :=
  s.onObjects .write fun t => t.write o

def purge (s : Store) (threshold : Int) : Store × Except StoreFailure Nat :=
  s.onObjects .purge fun t => ((t.purge threshold).1,.ok (t.purge threshold).2)

def get (s : Store) (id : String) : Store × Except StoreFailure (Option (ScanObject Float)) :=
  s.ask .get (·.objects.get? id)

def count (s : Store) : Store × Except StoreFailure Nat := s.ask .count (·.objects.size)

/-- Writes objects one after the other; one that cannot be written is passed over. -/
def writeAll (s : Store) (os : List (ScanObject Float)) : Store :=
  os.foldl (fun s o => (s.write o).1) s

end Store

end ScanService
