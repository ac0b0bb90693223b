import ScanService.Rehearsal.Basic
/-! Directions for a rehearsal, and what comes of each. Sessions and tasks are known by names. -/
namespace ScanService

inductive Direction
  | script (logins : List (Script Unit)) (fetches : List (Script MapResponse))
  | fail (c : StoreCall) (times : Nat)
  | advance (millis : Nat)
  | construct (name : String)
  | acquire (name : String) (wait : Nat)
  | checkout (name : String) (wait : Nat)
  | release (name : String) (cooldown : Nat)
  | retire (name : String) (reason : Retirement)
  | replaceEgress (name : String)
  | drain
  | spawnCheckout (name : String) (wait : Nat)
  | joinCheckout (name : String)
  | scan (place : Coordinate Float)
  | spawnScan (name : String) (place : Coordinate Float)
  | joinScan (name : String)
  | abortScan (name : String)
  | finished (name : String)
  | shutdown
  | assign (e : StatusEntry)
  | reconcileStatus
  | startPurge (period : Nat)
  | stopPurge
  | command (c : Command)
  | request (r : Http.Request)

inductive Outcome
  | done
  | unknownName
  | session (result : Except PoolFailure Session)
  | retired (reason : Retirement) (result : Except PoolFailure Unit)
  | replaced (old : Int) (result : Except PoolFailure Session)
  | drained (sessions : Nat)
  | scanned (result : Except ScanFailure (List (ScanObject Float)))
  | cancelled (running : Bool)
  | finished (ended : Bool)
  | reconciled (result : Except StoreFailure Nat)
  | answered (result : Except StoreFailure Command.Answer)
  | response (r : Http.Response)

namespace Rehearsal

/-- Puts a name for a number in front of what it meant before. -/
def named (names : List (String × Nat)) (name : String) (n : Nat) : List (String × Nat) :=
  (name,n) :: names.filter fun p => p.1 ≠ name

def unnamed (names : List (String × Nat)) (name : String) : List (String × Nat) :=
  names.filter fun p => p.1 ≠ name

def start (r : Rehearsal) (e : Event) : Rehearsal × Nat :=
  let task := r.service.nextTask
  ((r.happen e).advanceTask task,task)

def startInFront (r : Rehearsal) (e : Event) : Rehearsal × Nat :=
  let p := r.start e
  ({ p.1 with front := some p.2 },p.2)

def await (r : Rehearsal) (task : Nat) : Rehearsal × Option Answer :=
  let r := passWhile turnLimit (fun r => (r.answer? task).isNone) r
  (r,r.answer? task)

def awaitScan (r : Rehearsal) (task : Nat) : Rehearsal × Outcome :=
  let r := passWhile turnLimit (fun r => (r.scanResult? task).isNone) r
  (r,match r.scanResult? task with
    | some result => .scanned result
    | none => .done)

def keep (r : Rehearsal) (name : String) (result : Except PoolFailure Session) : Rehearsal :=
  match result with
  | .ok session => { r with sessions := named r.sessions name session.serial }
  | .error _ => r

def awaitSession (r : Rehearsal) (task : Nat) (name : String) : Rehearsal × Outcome :=
  match r.await task with
  | (r,some (.session result)) => (r.keep name result,.session result)
  | (r,_) => (r,.done)

def awaitDrain (r : Rehearsal) (task : Nat) : Rehearsal × Outcome :=
  match r.await task with
  | (r,some (.drained n)) | (r,some (.shutDown n)) => (r,.drained n)
  | (r,_) => (r,.done)

def take (r : Rehearsal) : Direction → Rehearsal × Outcome
  | .script logins fetches =>
    ({ r with logins := r.logins ++ logins, fetches := r.fetches ++ fetches },.done)
  | .fail c times => (r.happen (.plan c (List.replicate times (some .lock))),.done)
  | .advance millis => (passUntil turnLimit (r.now + millis) r,.done)
  | .construct name =>
    let p := r.service.constructHeld
    (({ r with service := p.1 } : Rehearsal).keep name p.2,.session p.2)
  | .acquire name wait =>
    let p := r.startInFront (.acquire wait)
    p.1.awaitSession p.2 name
  | .checkout name wait =>
    let p := r.startInFront (.checkout wait)
    p.1.awaitSession p.2 name
  | .release name cooldown =>
    match r.sessions.lookup name with
    | none => (r,.unknownName)
    | some serial =>
      ({ r.happen (.release serial cooldown) with sessions := unnamed r.sessions name },.done)
  | .retire name reason =>
    match r.sessions.lookup name with
    | none => (r,.unknownName)
    | some serial =>
      let p := r.service.retireHeld serial reason
      ({ r with service := p.1, sessions := unnamed r.sessions name },.retired reason p.2)
  | .replaceEgress name =>
    match (r.sessions.lookup name).bind r.service.held? with
    | none => (r,.unknownName)
    | some session =>
      let p := r.service.replaceHeld session.serial
      ({ r with service := p.1 },.replaced session.egress.id p.2)
  | .drain =>
    let p := r.startInFront .drain
    p.1.awaitDrain p.2
  | .spawnCheckout name wait =>
    let p := r.start (.checkout wait)
    ({ p.1 with checkouts := named r.checkouts name p.2 },.done)
  | .joinCheckout name =>
    match r.checkouts.lookup name with
    | none => (r,.unknownName)
    | some task =>
      ({ r with checkouts := unnamed r.checkouts name } : Rehearsal).awaitSession task name
  | .scan place =>
    let p := r.startInFront (.scan place)
    p.1.awaitScan p.2
  | .spawnScan name place =>
    let p := r.start (.scan place)
    ({ p.1 with scans := named r.scans name p.2 },.done)
  | .joinScan name =>
    match r.scans.lookup name with
    | none => (r,.unknownName)
    | some task => ({ r with scans := unnamed r.scans name } : Rehearsal).awaitScan task
  | .abortScan name =>
    match r.scans.lookup name with
    | none => (r,.unknownName)
    | some task =>
      let ended := (r.scanResult? task).isSome
      let r := { r with scans := unnamed r.scans name }
      (if ended then r else (r.forget task).happen (.abort task),.cancelled !ended)
  | .finished name =>
    match r.scans.lookup name with
    | none => (r,.unknownName)
    | some task => (r,.finished (r.scanResult? task).isSome)
  | .shutdown =>
    let p := r.startInFront .shutdown
    p.1.awaitDrain p.2
  | .assign e => (r.happen (.assign e),.done)
  | .reconcileStatus =>
    let p := r.service.reconcileStatus
    ({ r with service := p.1 },.reconciled p.2)
  | .startPurge period =>
    ({ r with purge := if period = 0 then none else some ⟨period,r.now⟩ },.done)
  | .stopPurge => ({ r with purge := none },.done)
  | .command c =>
    let p := r.service.administer c
    ({ r with service := p.1 },.answered p.2)
  | .request request =>
    let p := r.startInFront (.request request)
    match p.1.await p.2 with
    | (r,some (.response a)) => (r,.response a)
    | (r,_) => (r,.done)

/-- Follows a direction and lets everything go on that can. -/
def perform (r : Rehearsal) (d : Direction) : Rehearsal × Outcome :=
  let p := r.take d
  (settle turnLimit { p.1 with front := none },p.2)

end Rehearsal

end ScanService
