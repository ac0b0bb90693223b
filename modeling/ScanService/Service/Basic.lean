import ScanService.Http.Message
import ScanService.Metrics
import ScanService.Pool
import ScanService.Registry
import ScanService.RetryBudget
import ScanService.Store.Command
/-! The state of the service and its history. -/
namespace ScanService

inductive Retirement
  | identityBanned
  | egressDead
deriving DecidableEq, Repr

def Retirement.label : Retirement → String
  | identityBanned => "identity_banned"
  | egressDead => "egress_dead"

/-- Spans of time in milliseconds, and what the answers to clients depend on. `horizon` is the last
millisecond since the start that the clock of the machine can hold. -/
structure Settings where
  acquireWait : Nat
  cooldown : Nat
  queryTimeout : Nat
  secret : Option String := none
  cacheRadius : Float := 1000.0
  origin : String := "*"
  horizon : Nat := 0x8000000000000000 * 1000 - 1

inductive RemoteAction
  | create
  | move (place : Coordinate Float)
  | login (force : Bool)
  | fetch

/-- A call of the remote service: as whom, through which egress, and what for. -/
structure RemoteCall where
  identity : String
  egress : Int
  action : RemoteAction

/-- How a session that was checked out is given back. -/
inductive HandBack
  | released
  | retired (reason : Retirement)
  | abandoned
deriving DecidableEq, Repr

/-- What a task ends with that is no scan of its own. -/
inductive Answer
  | session (result : Except PoolFailure Session)
  | drained (sessions : Nat)
  | shutDown (sessions : Nat)
  | response (r : Http.Response)

inductive Occurrence
  | called (task : Nat) (call : RemoteCall)
  | obtained (task : Nat) (session : Session)
  | failed (task : Nat) (session : Session) (cause : RemoteFailure)
  | handedBack (task : Nat) (session : Session) (way : HandBack)
  | returned (task : Nat) (result : Except ScanFailure (List (ScanObject Float)))
  | answered (task : Nat) (answer : Answer)
  | received (task : Nat) (session : Session)
  | drained (session : Session)
  | observed (what : Observation)

structure Entry where
  time : Nat
  what : Occurrence

/-- What a scan with a session waits for. A new scan is entered in the registry before it moves to
its place, and one with another egress before it logs in again; one that is over leaves the registry
before its session is taken out of service. -/
inductive Stage
  | listing (place : Option (Coordinate Float))
  | login (forced : Bool)
  | pacing
  | fetch (deadline : Nat)
  | delisting (reason : Retirement) (e : ScanFailure)
deriving DecidableEq, Repr

def Stage.writes : Stage → Bool
  | listing _ | delisting _ _ => true
  | _ => false

structure Scan where
  task : Nat
  started : Nat
  http : Bool
  session : Session
  budget : RetryBudget
  stage : Stage

/-- A shutdown that is still to empty the registry, and how many sessions it has ended. -/
structure Clearing where
  task : Nat
  sessions : Nat

/-- The state: the records, the pool, the registry, the scans with a session and the sessions that
other callers hold. The registry is `locked` while another thread is in it; `leftovers` are the
names that are still to be taken out of it. `now` is the time since the start and `clock` the time
of day, both in milliseconds. The history has the latest entry first. -/
structure Service where
  settings : Settings
  store : Store
  pool : Pool
  registry : Registry
  locked : Bool
  leftovers : List String
  clearings : List Clearing
  scans : List Scan
  held : List Session
  now : Nat
  clock : Int
  started : Int
  nextTask : Nat
  nextSession : Nat
  history : List Entry

namespace Service

def fresh (settings : Settings) (store : Store) (pool : Pool) (clock : Int) : Service where
  settings := settings
  store := store
  pool := pool
  registry := .empty
  locked := false
  leftovers := []
  clearings := []
  scans := []
  held := []
  now := 0
  clock := clock
  started := clock
  nextTask := 0
  nextSession := 0
  history := []

def note (s : Service) (o : Occurrence) : Service := { s with history := ⟨s.now,o⟩ :: s.history }

def observe (s : Service) (o : Observation) : Service := s.note (.observed o)

def call (s : Service) (task : Nat) (session : Session) (action : RemoteAction) : Service :=
  s.note (.called task ⟨session.identity.name,session.egress.id,action⟩)

def seconds (s : Service) : Int := s.clock / 1000

def uptime (s : Service) : Nat := ((s.clock - s.started) / 1000).toNat

def observations (s : Service) : List Observation :=
  s.history.reverse.filterMap fun e => match e.what with
    | .observed o => some o
    | _ => none

def clearing? (s : Service) (task : Nat) : Option Clearing := s.clearings.find? (·.task = task)

def scan? (s : Service) (task : Nat) : Option Scan := s.scans.find? (·.task = task)

def putScan (s : Service) (c : Scan) : Service :=
  { s with scans := s.scans.map fun d => if d.task = c.task then c else d }

def dropScan (s : Service) (task : Nat) : Service :=
  { s with scans := s.scans.filter fun c => c.task ≠ task }

def spanSeconds (millis : Nat) : Float := Decimal.nearest false millis 1000

def thirtyYears : Nat := 86400 * 365 * 30 * 1000

def after (s : Service) (millis : Nat) : Nat := s.now + millis

/-- The end of a rest that starts now. One whose end the clock cannot hold is over after thirty
years. -/
def restEnd (s : Service) (cooldown : Nat) : Nat :=
  if s.after cooldown ≤ s.settings.horizon then s.after cooldown else s.after thirtyYears

end Service

end ScanService
