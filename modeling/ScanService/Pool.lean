import ScanService.Coordinate
import ScanService.Failure
import ScanService.Resource
/-! The pool of built sessions. A session that is given back rests first; then it waits for room, in
the order in which the rests ended, and enters a queue of limited length. Whoever wants one stands
in line, and only the first in line takes from the queue. -/
namespace ScanService

/-- An identity at work through an egress. Both are claimed for it. -/
structure Session where
  serial : Nat
  identity : Identity
  egress : Egress
deriving DecidableEq, Repr

def Session.entry (s : Session) : StatusEntry := ⟨s.identity.name,s.egress.id⟩

structure Resting where
  session : Session
  due : Nat
deriving DecidableEq, Repr

/-- What someone in line wants: a parked session; a parked session or else a new one; a session for
a scan; or all parked sessions, to end them. -/
inductive Purpose
  | acquire
  | checkout
  | scan (place : Coordinate Float) (http : Bool)
  | drain
  | shutdown

def Purpose.drains : Purpose → Bool
  | drain | shutdown => true
  | _ => false

/-- Someone in line, with the time since when and until when, in milliseconds. Draining has no
end. -/
structure Waiter where
  task : Nat
  purpose : Purpose
  since : Nat
  wait : Nat
  deadline : Option Nat

def Waiter.overdue (w : Waiter) (now : Nat) :
    Bool := (w.deadline.map fun d => decide (d ≤ now)).getD false

/-- The state of the pool. `parked` counts the sessions whose rest is over. -/
structure Pool where
  capacity : Nat
  queue : List Session
  entering : List Session
  cooling : List Resting
  waiters : List Waiter
  parked : Nat

namespace Pool

def maxCapacity : Nat := 0x1FFFFFFFFFFFFFFF

/-- An empty pool whose queue holds so many sessions, and at least one. -/
def ofCapacity (n : Nat) : Setup SetupFailure Pool :=
  if maxCapacity < n then .crashed else .ready ⟨max n 1,[],[],[],[],0⟩

def hasRoom (p : Pool) : Bool := p.queue.length < p.capacity

/-- A session that is given back, to rest until a time. -/
def rest (p : Pool) (session : Session) (due : Nat) : Pool :=
  { p with cooling := p.cooling ++ [⟨session,due⟩] }

/-- The rest of a session is over: it enters the queue, or waits for room behind the others. -/
def wake (p : Pool) (serial : Nat) : Pool :=
  match p.cooling.find? (·.session.serial = serial) with
  | none => p
  | some r =>
    let p := { p with
      cooling := p.cooling.filter fun r => r.session.serial ≠ serial
      parked := p.parked + 1 }
    if p.entering.isEmpty && p.hasRoom then { p with queue := p.queue ++ [r.session] }
    else { p with entering := p.entering ++ [r.session] }

/-- The first session that waits for room enters the queue. -/
def enter (p : Pool) : Pool :=
  match p.entering with
  | [] => p
  | s :: r => if p.hasRoom then { p with queue := p.queue ++ [s], entering := r } else p

def receive? (p : Pool) : Option (Session × Pool) :=
  match p.queue with
  | [] => none
  | s :: r => some (s,{ p with queue := r, parked := p.parked - 1 })

def takeAll (p : Pool) : List Session × Pool :=
  (p.queue,{ p with queue := [], parked := p.parked - p.queue.length })

/-! ### The line -/

def waiter? (p : Pool) (task : Nat) : Option Waiter := p.waiters.find? (·.task = task)

def isFirst (p : Pool) (task : Nat) :
    Bool := (p.waiters.head?.map fun w => decide (w.task = task)).getD false

def join (p : Pool) (w : Waiter) : Pool := { p with waiters := p.waiters ++ [w] }

def leave (p : Pool) (task : Nat) :
    Pool := { p with waiters := p.waiters.filter fun w => w.task ≠ task }

/-- Whether someone in line can go on at a time: first with what is wanted at hand, or overdue. -/
def canGo (p : Pool) (now : Nat) (w : Waiter) : Bool :=
  w.overdue now || p.isFirst w.task && (w.purpose.drains || !p.queue.isEmpty)

def sessions (p : Pool) : List Session := p.queue ++ p.entering ++ p.cooling.map (·.session)

end Pool

end ScanService
