import ScanService.Store.Basic
/-! The calls of the store as data, for administration. -/
namespace ScanService

inductive Command
  | claimIdentity
  | claimEgress
  | releaseIdentity (name : String)
  | releaseEgress (id : Int)
  | ban (name : String)
  | kill (id : Int)
  | reconcile (assigned : List StatusEntry)
  | markAllUnused
  | identityStats
  | egressStats
  | getIdentity (name : String)
  | getEgress (id : Int)
  | banned
  | addIdentity (i : Identity)
  | addEgress (id : Int)
  | dropAllEgress
  | removeDeadEgress
  | query (center : Coordinate Float) (radius : Float) (kinds : List ObjectKind) (now : Int)
  | write (o : ScanObject Float)
  | purge (threshold : Int)
  | get (id : String)
  | count

inductive Command.Answer
  | done
  | count (n : Nat)
  | identity (i : Option Identity)
  | egress (e : Option Egress)
  | identities (is : List Identity)
  | identityStats (s : IdentityStats)
  | egressStats (s : EgressStats)
  | object (o : Option (ScanObject Float))
  | objects (os : List (ScanObject Float))

namespace Store

def answered {α : Type} (f : α → Command.Answer) (p : Store × Except StoreFailure α) :
    Store × Except StoreFailure Command.Answer :=
  (p.1,p.2.map f)

def run (s : Store) : Command → Store × Except StoreFailure Command.Answer
  | .claimIdentity => answered (.identity ∘ some) s.claimIdentity
  | .claimEgress => answered (.egress ∘ some) s.claimEgress
  | .releaseIdentity name => answered (fun _ => .done) (s.releaseIdentity name)
  | .releaseEgress id => answered (fun _ => .done) (s.releaseEgress id)
  | .ban name => answered (fun _ => .done) (s.ban name)
  | .kill id => answered (fun _ => .done) (s.kill id)
  | .reconcile assigned => answered .count (s.reconcile assigned)
  | .markAllUnused => answered .count s.markAllUnused
  | .identityStats => answered .identityStats s.identityStats
  | .egressStats => answered .egressStats s.egressStats
  | .getIdentity name => answered .identity (s.getIdentity name)
  | .getEgress id => answered .egress (s.getEgress id)
  | .banned => answered .identities s.banned
  | .addIdentity i => answered (fun _ => .done) (s.addIdentity i)
  | .addEgress id => answered (fun _ => .done) (s.addEgress id)
  | .dropAllEgress => answered .count s.dropAllEgress
  | .removeDeadEgress => answered .count s.removeDeadEgress
  | .query center radius kinds now => answered .objects (s.query center radius kinds now)
  | .write o => answered (fun _ => .done) (s.write o)
  | .purge threshold => answered .count (s.purge threshold)
  | .get id => answered .object (s.get id)
  | .count => answered .count s.count

/-- The store after commands, whether they succeed or not. -/
def runCommands (s : Store) (cs : List Command) : Store := cs.foldl (fun s c => (s.run c).1) s

end Store

end ScanService
