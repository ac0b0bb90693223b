import ScanService.Service.Api
/-! The service as a machine: what can happen to it, and what it does then. -/
namespace ScanService

/-- What the service does by itself: someone in line looks whether it can go on, a rest ends, a
session enters the queue, a query has taken too long, a scan or a shutdown that waits for the
registry gets at it, an entry that was left in it is removed, or whoever is in it leaves. -/
inductive Turn
  | poll (task : Nat)
  | wake (serial : Nat)
  | enter
  | expire (task : Nat)
  | register (task : Nat)
  | forget (account : String)
  | clear (task : Nat)
  | unlock
deriving DecidableEq, Repr

/-- What can happen. The turns are the service's own; the answers of the remote service, the ticks
of the gate, the calls and the time come from outside. -/
inductive Event
  | turn (t : Turn)
  | scan (place : Coordinate Float)
  | request (r : Http.Request)
  | acquire (wait : Nat)
  | checkout (wait : Nat)
  | drain
  | shutdown
  | construct
  | release (serial cooldown : Nat)
  | retire (serial : Nat) (reason : Retirement)
  | replaceEgress (serial : Nat)
  | loginDone (task : Nat) (result : Except RemoteFailure Unit)
  | gateOpen (task : Nat)
  | fetchDone (task : Nat) (result : Except RemoteFailure MapResponse)
  | abort (task : Nat)
  | command (c : Command)
  | plan (c : StoreCall) (fails : List (Option StoreFailure))
  | assign (e : StatusEntry)
  | reconcileStatus
  | lock
  | purge
  | elapse (millis : Nat)
  | setClock (millis : Int)

namespace Service

def held? (s : Service) (serial : Nat) : Option Session := s.held.find? (·.serial = serial)

def letGo (s : Service) (serial : Nat) : Service :=
  { s with held := s.held.filter fun h => h.serial ≠ serial }

def constructHeld (s : Service) : Service × Except PoolFailure Session :=
  match ({ s with nextTask := s.nextTask + 1 }).construct s.nextTask with
  | (s,.ok session) => ({ s with held := s.held ++ [session] },.ok session)
  | (s,.error e) => (s,.error e)

def releaseHeld (s : Service) (serial cooldown : Nat) : Service :=
  match s.held? serial with
  | none => s
  | some h => (s.letGo serial).release h cooldown

def retireHeld (s : Service) (serial : Nat) (reason : Retirement) :
    Service × Except PoolFailure Unit :=
  match s.held? serial with
  | none => (s,.ok ())
  | some h =>
    match (s.letGo serial).retire h reason with
    | (s,.ok ()) => (s,.ok ())
    | (s,.error e) => (s,.error (.ofStore e))

def replaceHeld (s : Service) (serial : Nat) : Service × Except PoolFailure Session :=
  match s.held? serial with
  | none => (s,.error .closed)
  | some h =>
    match s.replaceEgress h with
    | (s,.error e) => (s,.error e)
    | (s,.ok h') => ({ s with held := s.held.map fun k => if k.serial = serial then h' else k },
        .ok h')

def administer (s : Service) (c : Command) : Service × Except StoreFailure Command.Answer :=
  let r := s.store.run c
  ({ s with store := r.1 },r.2)

def reconcileStatus (s : Service) : Service × Except StoreFailure Nat :=
  let r := s.store.reconcile s.registry.snapshot
  ({ s with store := r.1 },r.2)

def purge (s : Service) : Service :=
  match s.store.purge s.seconds with
  | (store,.ok n) => ({ s with store }).observe (.purge "creature" n)
  | (store,.error _) => { s with store }

/-- Hands a login its answer, if its scan waits for one. -/
def onLogin (s : Service) (task : Nat) (result : Except RemoteFailure Unit) : Service :=
  match s.scan? task with
  | none => s
  | some c =>
    match c.stage with
    | .login forced => s.loginDone c forced result
    | _ => s

def onGate (s : Service) (task : Nat) : Service :=
  match s.scan? task with
  | none => s
  | some c => if c.stage = .pacing then s.gateOpen c else s

def onFetch (s : Service) (task : Nat) (result : Except RemoteFailure MapResponse) : Service :=
  match s.scan? task with
  | none => s
  | some c =>
    match c.stage with
    | .fetch _ => s.fetchDone c result
    | _ => s

def overdue (s : Service) (c : Scan) : Bool :=
  match c.stage with
  | .fetch deadline => deadline ≤ s.now
  | _ => false

def onExpiry (s : Service) (task : Nat) : Service :=
  match s.scan? task with
  | none => s
  | some c => if s.overdue c then s.expire c else s

def onWake (s : Service) (serial : Nat) : Service :=
  if s.pool.cooling.any fun r => r.session.serial = serial && r.due ≤ s.now then
    s.wake serial else s

/-- Lets a scan write the registry, if it waits for that. -/
def onRegister (s : Service) (task : Nat) : Service :=
  match s.scan? task with
  | none => s
  | some c =>
    if s.locked then s
    else match c.stage with
      | .listing place => s.enlistNow c place
      | .delisting reason e => s.retireNow c reason e
      | _ => s

/-- Removes an entry that was left in the registry, whosever it is by now. -/
def onForget (s : Service) (account : String) : Service :=
  if s.locked ∨ account ∉ s.leftovers then s
  else { s with registry := s.registry.remove account, leftovers := s.leftovers.erase account }

/-- A shutdown that waited for the registry gets at it. -/
def onClear (s : Service) (task : Nat) : Service :=
  match s.clearing? task with
  | none => s
  | some c =>
    if s.locked then s
    else (s.dropClearing task).clearNow task c.sessions

def take (s : Service) : Turn → Service
  | .poll task => s.poll task
  | .wake serial => s.onWake serial
  | .enter => s.enter
  | .expire task => s.onExpiry task
  | .register task => s.onRegister task
  | .forget account => s.onForget account
  | .clear task => s.onClear task
  | .unlock => { s with locked := false }

def step (s : Service) : Event → Service
  | .scan place => s.arrive (.scan place false) s.settings.acquireWait
  | .request r => s.request r
  | .acquire wait => s.arrive .acquire wait
  | .checkout wait => s.arrive .checkout wait
  | .drain => s.arrive .drain 0
  | .shutdown => s.arrive .shutdown 0
  | .construct => s.constructHeld.1
  | .release serial cooldown => s.releaseHeld serial cooldown
  | .retire serial reason => (s.retireHeld serial reason).1
  | .replaceEgress serial => (s.replaceHeld serial).1
  | .turn t => s.take t
  | .loginDone task result => s.onLogin task result
  | .gateOpen task => s.onGate task
  | .fetchDone task result => s.onFetch task result
  | .abort task => s.abort task
  | .command c => (s.administer c).1
  | .plan c fails => { s with store := s.store.plan c fails }
  | .assign e => { s with registry := s.registry.assign e }
  | .reconcileStatus => s.reconcileStatus.1
  | .lock => { s with locked := true }
  | .purge => s.purge
  | .elapse millis => { s with now := s.now + millis }
  | .setClock millis => { s with clock := millis }

def run (s : Service) (es : List Event) : Service := es.foldl step s

/-! ### What can go on by itself -/

def registryTurns (s : Service) : List Turn :=
  if s.locked then [.unlock]
  else ((s.scans.filter (·.stage.writes)).map fun c => .register c.task)
    ++ s.leftovers.map .forget ++ s.clearings.map fun c => .clear c.task

def runnable (s : Service) : List Turn :=
  ((s.pool.waiters.filter (s.pool.canGo s.now)).map fun w => .poll w.task)
    ++ ((s.pool.cooling.filter fun r => r.due ≤ s.now).map fun r => .wake r.session.serial)
    ++ (if s.pool.entering.isEmpty || !s.pool.hasRoom then [] else [.enter])
    ++ ((s.scans.filter s.overdue).map fun c => .expire c.task)
    ++ s.registryTurns

/-- Nothing can go on before time passes or something comes from outside. -/
def quiet (s : Service) : Prop := s.runnable = []

/-- The sessions that are alive: checked out by a scan, held by another caller, or with the pool. -/
def live (s : Service) : List Session := s.scans.map (·.session) ++ s.held ++ s.pool.sessions

/-- The times at which a turn comes due that cannot be taken yet. -/
def timers (s : Service) : List Nat :=
  (s.pool.waiters.filterMap (·.deadline) ++ s.pool.cooling.map (·.due)
    ++ s.scans.filterMap fun c => match c.stage with
      | .fetch deadline => some deadline
      | _ => none).filter (s.now < ·)

end Service

end ScanService
