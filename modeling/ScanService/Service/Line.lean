import ScanService.Service.Scanning
/-! Standing in line for a session: who joins, who goes on, who gives up waiting. -/
namespace ScanService.Service

def provide (s : Service) (w : Waiter) (session : Session) : Service :=
  match w.purpose with
  | .scan place http => s.begin w.task w.since http place session
  | _ =>
    ({ s with held := s.held ++ [session] }).note (.answered w.task (.session (.ok session)))

def refuse (s : Service) (w : Waiter) (e : PoolFailure) : Service :=
  match w.purpose with
  | .scan _ http => s.conclude w.task w.since http (.error (.ofPool e))
  | _ => s.note (.answered w.task (.session (.error e)))

/-- A wait is over without a session: a new one is built, unless only a parked one was wanted. -/
def giveUp (s : Service) (w : Waiter) : Service :=
  match w.purpose with
  | .acquire => s.refuse w (.timeout (w.wait * 1000000))
  | _ =>
    match s.construct w.task with
    | (s,.ok session) => s.provide w session
    | (s,.error e) => s.refuse w e

/-- The first in line takes the first session of the queue. -/
def takeFirst (s : Service) (w : Waiter) (session : Session) (pool : Pool) : Service :=
  let s := ({ s with pool }).observe (.parked pool.parked)
  (s.note (.received w.task session)).provide w session

/-- A shutdown that has ended so many sessions empties the registry. -/
def clearNow (s : Service) (task sessions : Nat) : Service :=
  ({ s with registry := .empty }).note (.answered task (.shutDown sessions))

/-- A shutdown empties the registry, once the registry can be written. -/
def clear (s : Service) (task sessions : Nat) : Service :=
  if s.locked then { s with clearings := s.clearings ++ [⟨task,sessions⟩] }
  else s.clearNow task sessions

def dropClearing (s : Service) (task : Nat) : Service :=
  { s with clearings := s.clearings.filter fun c => c.task ≠ task }

/-- Ends the parked sessions. A shutdown goes on with the registry. -/
def drainFor (s : Service) (w : Waiter) : Service :=
  let d := s.drain
  match w.purpose with
  | .shutdown => d.1.clear w.task d.2
  | _ => d.1.note (.answered w.task (.drained d.2))

/-- Someone in line looks whether it can go on. A session at hand goes before the end of the
wait. -/
def poll (s : Service) (task : Nat) : Service :=
  match s.pool.waiter? task with
  | none => s
  | some w =>
    let left := { s with pool := s.pool.leave task }
    if s.pool.isFirst task ∧ w.purpose.drains then left.drainFor w
    else
      match (if s.pool.isFirst task then left.pool.receive? else none) with
      | some (session,pool) => left.takeFirst w session pool
      | none => if w.overdue s.now then left.giveUp w else s

def arrive (s : Service) (purpose : Purpose) (wait : Nat) : Service :=
  let deadline := if purpose.drains then none else some (s.after wait)
  let w : Waiter := ⟨s.nextTask,purpose,s.now,wait,deadline⟩
  ({ s with pool := s.pool.join w, nextTask := s.nextTask + 1 }).poll w.task

/-- A task is cancelled: it gives up its scan, or leaves the line or the shutdown it was at. -/
def abort (s : Service) (task : Nat) : Service :=
  match s.scan? task with
  | some c => s.abandon c
  | none =>
    match s.pool.waiter? task with
    | some _ => { s with pool := s.pool.leave task }
    | none => s.dropClearing task

end ScanService.Service
