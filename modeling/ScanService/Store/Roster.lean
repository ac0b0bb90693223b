import ScanService.Failure
import ScanService.Resource
/-! The records of the identities and of the egresses. A claim takes a free record and marks it in
one step, so two claims never give out one record. -/
namespace ScanService

/-- The records, each kind in the order in which they were added. -/
structure Roster where
  identities : List Identity
  egresses : List Egress
deriving DecidableEq, Repr

namespace Roster

def empty : Roster := ⟨[],[]⟩

/-! ### Look-up -/

def identity? (r : Roster) (name : String) : Option Identity := r.identities.find? (·.name = name)

def egress? (r : Roster) (id : Int) : Option Egress := r.egresses.find? (·.id = id)

/-- The banned identities in the order of their names. -/
def banned (r : Roster) : List Identity :=
  (r.identities.filter (·.banned)).mergeSort fun i j => decide (i.name ≤ j.name)

def identityStats (r : Roster) : IdentityStats where
  total := r.identities.length
  used := (r.identities.filter fun i => i.used && !i.banned).length
  banned := (r.identities.filter (·.banned)).length

def egressStats (r : Roster) : EgressStats where
  alive := (r.egresses.filter fun e => !e.dead).length
  aliveUsed := (r.egresses.filter fun e => !e.dead && e.inUse).length

/-! ### Changes to single records -/

def updateIdentity (r : Roster) (name : String) (f : Identity → Identity) : Roster :=
  { r with identities := r.identities.map fun i => if i.name = name then f i else i }

def updateEgress (r : Roster) (id : Int) (f : Egress → Egress) : Roster :=
  { r with egresses := r.egresses.map fun e => if e.id = id then f e else e }

def releaseIdentity (r : Roster) (name : String) : Roster :=
  r.updateIdentity name fun i => { i with used := false }

def releaseEgress (r : Roster) (id : Int) : Roster :=
  r.updateEgress id fun e => { e with inUse := false }

def ban (r : Roster) (name : String) : Roster :=
  r.updateIdentity name fun i => { i with banned := true }

def kill (r : Roster) (id : Int) : Roster :=
  r.updateEgress id fun e => { e with dead := true }

/-! ### Claims -/

def nextIdentity (r : Roster) : Option Identity := r.identities.find? (·.claimable)

/-- The lesser id of two, where the first may be missing. -/
def lesser : Option Egress → Egress → Option Egress
  | none, e => some e
  | some f, e => if e.id < f.id then some e else some f

def nextEgress (r : Roster) : Option Egress := (r.egresses.filter (·.claimable)).foldl lesser none

def claimIdentity (r : Roster) : Roster × Except StoreFailure Identity :=
  match r.nextIdentity with
  | none => (r,.error (.notAvailable "identity"))
  | some i => (r.updateIdentity i.name fun i => { i with used := true },.ok { i with used := true })

def claimEgress (r : Roster) : Roster × Except StoreFailure Egress :=
  match r.nextEgress with
  | none => (r,.error (.notAvailable "egress"))
  | some e => (r.updateEgress e.id fun e => { e with inUse := true },.ok { e with inUse := true })

/-! ### Provisioning -/

def addIdentity (r : Roster) (i : Identity) : Roster × Except StoreFailure Unit :=
  match r.identity? i.name with
  | some _ => (r,.error (.duplicate "identity" i.name))
  | none => ({ r with identities := r.identities ++ [i] },.ok ())

def addEgress (r : Roster) (id : Int) : Roster × Except StoreFailure Unit :=
  match r.egress? id with
  | some _ => (r,.error (.duplicate "egress" (Text.Radix.signed id)))
  | none => ({ r with egresses := r.egresses ++ [{ id }] },.ok ())

def dropAllEgress (r : Roster) : Roster × Nat :=
  ({ r with egresses := [] },r.egresses.length)

def removeDeadEgress (r : Roster) : Roster × Nat :=
  ({ r with egresses := r.egresses.filter fun e => !e.dead },(r.egresses.filter (·.dead)).length)

/-! ### Reconciliation -/

/-- One statement of a transaction: the records after it, and how many of them it changed. -/
abbrev Statement := Roster → Roster × Nat

/-- Sets the use flag of the identities that have the other value and pass a test. -/
def setUsed (used : Bool) (which : Identity → Bool) : Statement := fun r =>
  ({ r with identities := r.identities.map fun i =>
      if i.used ≠ used ∧ which i then { i with used } else i },
    (r.identities.filter fun i => decide (i.used ≠ used) && which i).length)

/-- Sets the use flag of the egresses that have the other value and pass a test. -/
def setInUse (inUse : Bool) (which : Egress → Bool) : Statement := fun r =>
  ({ r with egresses := r.egresses.map fun e =>
      if e.inUse ≠ inUse ∧ which e then { e with inUse } else e },
    (r.egresses.filter fun e => decide (e.inUse ≠ inUse) && which e).length)

/-- The statements that make the use flags say what a list of assignments says. Without assignments
there is nothing to compare with, and two statements clear the flags. -/
def reconciliation (assigned : List StatusEntry) : List Statement :=
  let named := fun i : Identity => (assigned.map (·.account)).contains i.name
  let listed := fun e : Egress => (assigned.map (·.egress)).contains e.id
  match assigned with
  | [] => [setUsed false fun _ => true,setInUse false fun _ => true]
  | _ :: _ =>
    [setUsed true named,setUsed false fun i => !named i,
      setInUse true listed,setInUse false fun e => !listed e]

/-- The records after statements that all succeed, and how many changes they made. -/
def runAll : List Statement → Roster → Roster × Nat
  | [], r => (r,0)
  | s :: ss, r =>
    let first := s r
    let rest := runAll ss first.1
    (rest.1,first.2 + rest.2)

/-- Runs statements up to the first that fails, and then the commit. `fails` says of each of
these steps by its place how it fails, if it does: a statement may be one that the database does
not take. -/
def attempt : (Nat → Option StoreFailure) → List Statement → Roster →
    Except StoreFailure (Roster × Nat)
  | fails, [], r =>
    match fails 0 with
    | some e => .error e
    | none => .ok (r,0)
  | fails, s :: ss, r =>
    match fails 0 with
    | some e => .error e
    | none => (attempt (fun k => fails (k + 1)) ss (s r).1).map fun done => (done.1,
        (s r).2 + done.2)

/-- Runs statements as one transaction: if one of them fails, those before it are undone. -/
def transaction (fails : Nat → Option StoreFailure) (statements : List Statement) (r : Roster) :
    Roster × Except StoreFailure Nat :=
  match attempt fails statements r with
  | .ok done => (done.1,.ok done.2)
  | .error e => (r,.error e)

/-- What a reconciliation does when no statement fails: the use flags say exactly what the
assignments say, and the changed records are counted. -/
def reconcile (r : Roster) (assigned : List StatusEntry) : Roster × Nat :=
  runAll (reconciliation assigned) r

end Roster

end ScanService
