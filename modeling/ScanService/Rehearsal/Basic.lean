import ScanService.Service.Step
/-! The service on a stage: a scripted remote service and a clock that stands still while anything
can go on. Tasks go on in the order in which they became able to; the one that the director waits
for goes first when the clock has moved, and otherwise when the others have gone. -/
namespace ScanService

/-- What the remote service does with one call: it answers after a delay, or never. -/
structure Script (α : Type) where
  delay : Option Nat
  outcome : Except RemoteFailure α

/-- A call of the remote service that is not answered yet, with the time of the answer. -/
structure Pending where
  task : Nat
  due : Option Nat
  answer : Event

structure PurgeTask where
  period : Nat
  next : Nat
deriving DecidableEq, Repr

/-- What can go on: the service itself, an answer that has come, or the purge. -/
inductive Cue
  | own (t : Turn)
  | reply (task : Nat)
  | purge
deriving DecidableEq, Repr

def Cue.isFor (task : Nat) : Cue → Bool
  | .own (.poll t) | .own (.expire t) | .own (.register t) | .own (.clear t) | .reply t => t = task
  | _ => false

/-- The service, the scripts of the next calls, what is pending and what waits for its turn; `front`
is the task that the director waits for. -/
structure Rehearsal where
  service : Service
  logins : List (Script Unit) := []
  fetches : List (Script MapResponse) := []
  pending : List Pending := []
  ready : List Cue := []
  front : Option Nat := none
  purge : Option PurgeTask := none
  sessions : List (String × Nat) := []
  scans : List (String × Nat) := []
  checkouts : List (String × Nat) := []

namespace Rehearsal

def now (r : Rehearsal) : Nat := r.service.now

def happen (r : Rehearsal) (e : Event) : Rehearsal := { r with service := r.service.step e }

/-- A call without a script is answered at once, with nothing. -/
def plainScript {α : Type} (a : α) : Script α := ⟨some 0,.ok a⟩

def nextScript {α : Type} (plain : α) : List (Script α) → Script α × List (Script α)
  | [] => (plainScript plain,[])
  | s :: r => (s,r)

def isPending (r : Rehearsal) (task : Nat) : Bool := r.pending.any fun p => p.task = task

def forget (r : Rehearsal) (task : Nat) : Rehearsal :=
  { r with pending := r.pending.filter fun p => p.task ≠ task }

/-- The next call that a scan waits for, with its script. -/
def nextCall (r : Rehearsal) (task : Nat) : Option (Rehearsal × Option Nat × Event) :=
  match r.service.scan? task with
  | none => none
  | some c =>
    match c.stage with
    | .pacing => some (r,some 0,.gateOpen task)
    | .login _ =>
      let n := nextScript () r.logins
      some ({ r with logins := n.2 },n.1.delay,.loginDone task n.1.outcome)
    | .fetch _ =>
      let n := nextScript ({} : MapResponse) r.fetches
      some ({ r with fetches := n.2 },n.1.delay,.fetchDone task n.1.outcome)
    | _ => none

/-- Lets a scan go on until it waits for something; `fuel` bounds the calls that it makes. -/
def drive : Nat → Nat → Rehearsal → Rehearsal
  | 0, _, r => r
  | fuel + 1, task, r =>
    if r.isPending task then r
    else match r.nextCall task with
      | none => r
      | some (r,some 0,e) => drive fuel task (r.happen e)
      | some (r,delay,e) =>
        { r with pending := r.pending ++ [⟨task,delay.map (r.now + ·),e⟩] }

/-- More calls than a scan makes without waiting: three passes of two logins, a tick and a query. -/
def callLimit : Nat := 16

def advanceTask (r : Rehearsal) (task : Nat) : Rehearsal := drive callLimit task r

/-- What can go on now. An answer goes before the end of its wait. -/
def enabled (r : Rehearsal) : List Cue :=
  ((r.pending.filter fun p => (p.due.map fun d => decide (d ≤ r.now)).getD false).map fun p =>
      .reply p.task)
    ++ r.service.runnable.map .own
    ++ (match r.purge with
      | some p => if p.next ≤ r.now then [.purge] else []
      | none => [])

/-- Puts what has become able to go on behind what waits for its turn. -/
def refresh (r : Rehearsal) : Rehearsal :=
  let es := r.enabled
  { r with ready := r.ready.filter es.contains ++ es.filter fun c => !r.ready.contains c }

def act (r : Rehearsal) : Cue → Rehearsal
  | .own (.poll task) => (r.happen (.turn (.poll task))).advanceTask task
  | .own (.register task) => (r.happen (.turn (.register task))).advanceTask task
  | .own (.expire task) => ((r.forget task).happen (.turn (.expire task))).advanceTask task
  | .own t => r.happen (.turn t)
  | .reply task =>
    match r.pending.find? fun p => p.task = task with
    | none => r
    | some p => ((r.forget task).happen p.answer).advanceTask task
  | .purge =>
    match r.purge with
    | none => r
    | some p => { r.happen .purge with purge := some { p with next := p.next + p.period } }

def inFront (r : Rehearsal) (c : Cue) : Bool := (r.front.map c.isFor).getD false

def follow (r : Rehearsal) (c : Cue) : Rehearsal := act { r with ready := r.ready.erase c } c

/-- Takes turns until nothing can go on; `fuel` bounds their number. -/
def settle : Nat → Rehearsal → Rehearsal
  | 0, r => r
  | fuel + 1, r =>
    let r := r.refresh
    match (r.ready.find? fun c => !r.inFront c) <|> r.ready.head? with
    | none => r
    | some c => settle fuel (r.follow c)

def lead (r : Rehearsal) : Rehearsal :=
  let r := r.refresh
  match r.ready.find? r.inFront with
  | none => r
  | some c => r.follow c

/-- The bound on turns and moves of the clock in one step. -/
def turnLimit : Nat := 1000000

def nextTime (r : Rehearsal) : Option Nat :=
  let others := r.pending.filterMap (·.due) ++ (r.purge.map (·.next)).toList
  (r.service.timers ++ others.filter (r.now < ·)).min?

def moveTo (r : Rehearsal) (time : Nat) : Rehearsal := (r.happen (.elapse (time - r.now))).lead

def passUntil : Nat → Nat → Rehearsal → Rehearsal
  | 0, _, r => r
  | fuel + 1, target, r =>
    let r := settle turnLimit r
    match r.nextTime with
    | some t =>
      if t ≤ target then passUntil fuel target (r.moveTo t) else settle turnLimit (r.moveTo target)
    | none => settle turnLimit (r.moveTo target)

/-- Lets time pass until a test holds, or nothing is left that could go on. -/
def passWhile : Nat → (Rehearsal → Bool) → Rehearsal → Rehearsal
  | 0, _, r => r
  | fuel + 1, waiting, r =>
    let r := settle turnLimit r
    if waiting r then
      match r.nextTime with
      | some t => passWhile fuel waiting (r.moveTo t)
      | none => r
    else r

def scanResult? (r : Rehearsal) (task : Nat) :
    Option (Except ScanFailure (List (ScanObject Float))) :=
  r.service.history.findSome? fun e => match e.what with
    | .returned t result => if t = task then some result else none
    | _ => none

def answer? (r : Rehearsal) (task : Nat) : Option Answer :=
  r.service.history.findSome? fun e => match e.what with
    | .answered t a => if t = task then some a else none
    | _ => none

end Rehearsal

end ScanService
